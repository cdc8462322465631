import Mochad.X10.RadioCommands

/-!
# Rejected commands

A line that `processcommandline` refuses should have had no effect: no packet sent, the tables
and the relay masks as before. Only `pl <house><unit>` is meant to be sent and refused.

Most commands look at their arguments first. But what is left over is looked at last of all,
when the command has been carried out (`RejectedLate`), and a function that is not known is
taken for none.
-/

namespace Mochad

open X10M (Emits gets modify)

variable {c : Ctx} {relay : ℤ → Bytes → X10M Unit} {fd : ℤ}

/-- **A run without an effect.** -/
structure WithoutEffect (s : X10State) (o : Outcome ℤ) : Prop where
  unsent : packets o.effects = []
  same : o.state.tables = s.tables

theorem Inert.withoutEffect {m : X10M ℤ} (h : Inert m) (s : X10State) : WithoutEffect s (m s) :=
  ⟨packets_eq_nil h.sends s, h.keeps s⟩

/-- The selection of a unit, and no more. -/
def BareSelection (line : Bytes) : Prop :=
  ∃ addr, commandOfLine line = some (.pl, [addr]) ∧ 0 ≤ (getdeviceaddr [addr]).1.1 ∧
    0 ≤ (getdeviceaddr [addr]).1.2

/-- A command is carried out, and its arguments are found wrong after that. -/
def CarriedOutFirst (s : X10State) (command : Command) (tokens : List Bytes) : Prop :=
  match command with
  | .pl => ∃ cmd rest, plCommandOf tokens = some (cmd, rest) ∧
      match cmd with
      | .select _ _ => tokens.length ≠ 1
      | _ => rest ≠ []
  | .rf | .rfsec | .rfcam => ∃ cmd rest, radioCommandOf command tokens = some (cmd, rest) ∧ rest ≠ []
  | .rftopl => 1 < tokens.length ∧ (gethousecodes tokens).1 ≠ s.rfToPl16
  | .rftorf => ∃ arg rest value, tokens = arg :: rest ∧ rest ≠ [] ∧
      parseDecimalInt arg 0 65535 = some value ∧ value.toNat.toUInt16 ≠ s.rfToRf16
  | .st => 1 < tokens.length ∧
      (if tokens.head? = some (ascii "0") then huaSecInit s else sortSensors s).tables ≠ s.tables
  | _ => False

/-- **A line is rejected late**: after its command has had an effect. -/
def RejectedLate (s : X10State) (line : Bytes) : Prop :=
  ∃ command tokens, commandOfLine line = some (command, tokens) ∧ CarriedOutFirst s command tokens

/-! ### Arguments that are left -/

@[simp] theorem finish_value_neg (fd : ℤ) (flow : Flow) (s : X10State) :
    (finish fd flow s).value < 0 ↔
      match flow with
      | .ret value => value < 0
      | .rest tokens => tokens ≠ [] := by
  rw [finish.eq_def]
  split
  · rfl
  · simp
  · simp

/-- The value of a line is that of its last part. -/
theorem value_bind_finish (m : X10M Flow) (s : X10State) :
    ((m >>= finish fd) s).value < 0 ↔
      match (m s).value with
      | .ret value => value < 0
      | .rest tokens => tokens ≠ [] := finish_value_neg _ _ _

theorem tables_bind_finish (m : X10M Flow) (s : X10State) :
    ((m >>= finish fd) s).state.tables = (m s).state.tables :=
  congrArg X10State.tables (finish_state fd _ _)

/-- Every argument of `PT` is read. -/
theorem gethexdata_rest {room : ℕ} {tokens rest : List Bytes} {bs : Bytes}
    (h : gethexdata room tokens = (some bs, rest)) : rest = [] := by
  induction tokens generalizing room bs rest with
  | nil =>
    rw [gethexdata] at h
    exact (Prod.mk.inj h).2.symm
  | cons parm tokens ih =>
    cases room with
    | zero => cases h
    | succ room =>
      rw [gethexdata] at h
      split at h
      · cases h
      split at h
      · cases h
      · obtain ⟨hbytes, hrest⟩ := Prod.mk.inj h
        obtain ⟨bs', hbs, -⟩ := Option.map_eq_some_iff.mp hbytes
        exact ih (Prod.ext hbs hrest)

/-! ### The commands, one by one -/

/-- **A command that is rejected has had no effect**, or its arguments were found wrong after it. -/
def Judged (s : X10State) (late : Prop) (o : Outcome ℤ) : Prop :=
  (o.value < 0 → WithoutEffect s o) ↔ ¬late

theorem Judged.of_inert {s : X10State} {m : X10M ℤ} (h : Inert m) : Judged s False (m s) :=
  ⟨fun _ hfalse => hfalse, fun _ _ => h.withoutEffect s⟩

/-- A command that is accepted. -/
theorem Judged.of_accepted {s : X10State} {late : Prop} {o : Outcome ℤ} (h : ¬o.value < 0)
    (hlate : ¬late) : Judged s late o := ⟨fun _ => hlate, fun _ hneg => absurd hneg h⟩

/-- A command with an effect, that is rejected exactly if it is late. -/
theorem Judged.of_effect {s : X10State} {late : Prop} {o : Outcome ℤ} (h : ¬WithoutEffect s o)
    (hlate : o.value < 0 ↔ late) : Judged s late o := by
  rw [Judged, hlate]
  exact ⟨fun hall hl => h (hall hl), fun hnot hl => absurd hl hnot⟩

/-- Only the tables tell. -/
theorem Judged.of_unsent {s : X10State} {late : Prop} {o : Outcome ℤ} (h : packets o.effects = [])
    (hlate : (o.value < 0 ∧ o.state.tables ≠ s.tables) ↔ late) : Judged s late o := by
  rw [Judged, ← hlate]
  constructor
  · rintro hall ⟨hneg, hne⟩
    exact hne (hall hneg).same
  · exact fun hnot hneg => ⟨h, by_contra fun hne => hnot ⟨hneg, hne⟩⟩

/-- A packet is an effect. -/
theorem not_withoutEffect {s : X10State} {o : Outcome ℤ} (h : packets o.effects ≠ []) :
    ¬WithoutEffect s o := fun hw => h hw.unsent

theorem judged_pl {tokens : List Bytes} {s : X10State}
    (hbare : ∀ house unit rest, plCommandOf tokens = some (.select house unit, rest) →
      tokens.length ≠ 1) :
    Judged s (CarriedOutFirst s .pl tokens) ((plCommand c fd tokens >>= finish fd) s) := by
  cases hcmd : plCommandOf tokens with
  | none =>
    have hnot : CarriedOutFirst s .pl tokens ↔ False := by simp [CarriedOutFirst, hcmd]
    rw [hnot, plCommand_of_plCommandOf_eq_none hcmd]
    exact Judged.of_inert (((Inert.or20ok c fd).bind fun _ => Inert.pure _).bind (Inert.finish fd))
  | some a =>
    obtain ⟨cmd, rest⟩ := a
    obtain ⟨hplain, hrun⟩ := plCommand_of_plCommandOf c fd hcmd
    refine Judged.of_effect (not_withoutEffect ?_) ?_
    · rw [packets_bind_finish, hrun, X10M.bind_apply, packets_append,
        packets_eq_nil (notSent_or20ok c fd), List.nil_append, X10M.bind_apply, packets_append,
        PlCommand.packets_send hplain]
      exact List.append_ne_nil_of_left_ne_nil cmd.sent_ne_nil _
    · have hvalue : (plCommand c fd tokens s).value = cmd.flow rest := by
        rw [hrun]
        rfl
      rw [value_bind_finish, hvalue]
      simp only [CarriedOutFirst, hcmd, Option.some.injEq, Prod.mk.injEq]
      cases cmd with
      | select house unit => simpa [PlCommand.flow] using hbare house unit rest hcmd
      | toHouse | toUnit | extended => simp [PlCommand.flow]

theorem judged_radio {command : Command} {tokens : List Bytes} {s : X10State}
    (hcommand : command = .rf ∨ command = .rfsec ∨ command = .rfcam) :
    Judged s (CarriedOutFirst s command tokens)
      ((runCommand c relay fd command tokens >>= finish fd) s) := by
  have hlate : CarriedOutFirst s command tokens ↔
      ∃ cmd rest, radioCommandOf command tokens = some (cmd, rest) ∧ rest ≠ [] := by
    rcases hcommand with rfl | rfl | rfl
    all_goals rfl
  rw [hlate]
  cases hcmd : radioCommandOf command tokens with
  | none =>
    have hinert : Inert (runCommand c relay fd command tokens) :=
      inert_of_radioCommandOf_eq_none hcommand hcmd
    simpa using Judged.of_inert (s := s) (hinert.bind (Inert.finish fd))
  | some a =>
    obtain ⟨cmd, rest⟩ := a
    have hrun : runCommand c relay fd command tokens = _ := runCommand_of_radioCommandOf hcmd
    refine Judged.of_effect (not_withoutEffect ?_) ?_
    · refine List.ne_nil_of_mem (mem_packets.mpr ?_) (a := if c.env.cm19a then cmd.frame.drop 1 else cmd.frame)
      rw [hrun]
      simp only [X10M.bind_apply, rfTx]
      refine List.mem_append_left _ (List.mem_append_right _ (List.mem_append_left _
        (List.mem_append_right _ ?_)))
      exact List.mem_singleton_self _
    · have hvalue : (runCommand c relay fd command tokens s).value = .rest rest := by
        rw [hrun]
        rfl
      rw [value_bind_finish, hvalue]
      simp

theorem judged_pt {tokens : List Bytes} {s : X10State} :
    Judged s False ((ptCommand c fd tokens >>= finish fd) s) := by
  have hok : Inert (or20ok c fd) := Inert.or20ok c fd
  rcases hdata : gethexdata 8 tokens with ⟨data, rest⟩
  have hrefused : data = none ∨ data = some [] →
      ptCommand c fd tokens = (do or20ok c fd; pure (.ret (-1))) := by
    rintro (rfl | rfl)
    all_goals simp only [ptCommand, hdata]
  match data, hrefused with
  | none, hrefused | some [], hrefused =>
    rw [hrefused (by simp)]
    exact Judged.of_inert ((hok.bind fun _ => Inert.pure _).bind (Inert.finish fd))
  | some (b :: bs), _ =>
    obtain rfl := gethexdata_rest hdata
    refine Judged.of_accepted ?_ id
    rw [value_bind_finish]
    simp only [ptCommand, hdata]
    exact not_not_intro rfl

/-- Setting a mask sends nothing. -/
theorem notSent_rftopl (tokens : List Bytes) : Emits Effect.NotSent (rftoplCommand c fd tokens) :=
  (notSent_or20ok c fd).bind fun _ => (Emits.modify _).bind fun _ =>
    Emits.bind (Emits.call rfl) fun _ => Emits.pure _

theorem notSent_rftorfReply : Emits Effect.NotSent (rftorfReply fd) :=
  (Emits.gets _).bind fun _ => Emits.call rfl

theorem notSent_rftorf (tokens : List Bytes) : Emits Effect.NotSent (rftorfCommand c fd tokens) := by
  have hreply : Emits Effect.NotSent (rftorfReply fd) := notSent_rftorfReply
  refine (notSent_or20ok c fd).bind fun _ => ?_
  cases tokens with
  | nil => exact hreply.bind fun _ => Emits.pure _
  | cons arg rest =>
    simp only [nextToken, List.head?_cons]
    split
    · exact Emits.pure _
    · exact (Emits.modify _).bind fun _ => hreply.bind fun _ => Emits.pure _

/-- Neither does showing the state, or clearing the sensors. -/
theorem packets_st (tokens : List Bytes) (s : X10State) :
    packets (stCommand c fd tokens s).effects = [] := by
  by_cases harg : tokens.head? = some (ascii "0")
  · have hinit : stCommand c fd tokens =
        (modify huaSecInit >>= fun _ => pure (.rest tokens.tail)) := if_pos harg
    rw [hinit]
    rfl
  · have hshow : stCommand c fd tokens =
        (huaShow c.env fd >>= fun _ => pure (.rest tokens.tail)) := if_neg harg
    have hpackets := (huaShow_spec c.env fd s).1
    rw [hshow]
    generalize huaShow c.env fd = m at hpackets
    rw [X10M.bind_apply, packets_append, hpackets]
    rfl

theorem judged_rftopl {tokens : List Bytes} {s : X10State} :
    Judged s (CarriedOutFirst s .rftopl tokens) ((rftoplCommand c fd tokens >>= finish fd) s) := by
  have hvalue : (rftoplCommand c fd tokens s).value = .rest tokens.tail := rfl
  have htables : (rftoplCommand c fd tokens s).state.tables =
      { s with rfToPl16 := (gethousecodes tokens).1 }.tables := by
    have hok := or20ok_state c fd s
    show { (or20ok c fd s).state with rfToPl16 := (gethousecodes tokens).1 }.tables = _
    rw [hok]
  have hsame : { s with rfToPl16 := (gethousecodes tokens).1 }.tables = s.tables ↔
      (gethousecodes tokens).1 = s.rfToPl16 := by
    simp [X10State.tables, X10State.devices]
  refine Judged.of_unsent (by rw [packets_bind_finish, packets_eq_nil (notSent_rftopl tokens)]) ?_
  rw [value_bind_finish, tables_bind_finish, hvalue, htables, ne_eq, hsame]
  refine and_congr_left fun _ => ?_
  cases tokens with
  | nil => simp
  | cons t ts => simp [List.length_pos_iff]

theorem judged_rftorf {tokens : List Bytes} {s : X10State} :
    Judged s (CarriedOutFirst s .rftorf tokens) ((rftorfCommand c fd tokens >>= finish fd) s) := by
  have hok := Inert.or20ok c fd
  have hreply : Inert (rftorfReply fd) := (Inert.gets _).bind fun _ => Inert.sockprintf _ _
  cases tokens with
  | nil =>
    have hrun : rftorfCommand c fd [] = (do or20ok c fd; rftorfReply fd; pure (.rest [])) := rfl
    refine Judged.of_accepted ?_ (by simp [CarriedOutFirst])
    rw [value_bind_finish, hrun]
    exact not_not_intro rfl
  | cons arg rest =>
    cases hvalue : parseDecimalInt arg 0 65535 with
    | none =>
      have hrun : rftorfCommand c fd (arg :: rest) = (do or20ok c fd; pure (.ret (-1))) := by
        simp only [rftorfCommand, nextToken, List.head?_cons, hvalue]
      have hnot : CarriedOutFirst s .rftorf (arg :: rest) ↔ False := by
        simp [CarriedOutFirst, hvalue]
      rw [hnot, hrun]
      exact Judged.of_inert ((hok.bind fun _ => Inert.pure _).bind (Inert.finish fd))
    | some value =>
      have hrun : rftorfCommand c fd (arg :: rest) = (do
          or20ok c fd
          modify fun s => { s with rfToRf16 := value.toNat.toUInt16 }
          rftorfReply fd
          pure (.rest rest)) := by
        simp only [rftorfCommand, nextToken, List.head?_cons, hvalue, List.tail_cons]
      have hflow : (rftorfCommand c fd (arg :: rest) s).value = .rest rest := by
        rw [hrun]
        rfl
      have htables : (rftorfCommand c fd (arg :: rest) s).state.tables =
          { s with rfToRf16 := value.toNat.toUInt16 }.tables := by
        rw [hrun]
        refine tables_modify hok (hreply.bind fun _ => Inert.pure _) (fun s t h => ?_) s
        simp only [X10State.tables, X10State.devices, Prod.mk.injEq] at h ⊢
        exact ⟨h.1, h.2.1, h.2.2.1, trivial⟩
      have hsame : { s with rfToRf16 := value.toNat.toUInt16 }.tables = s.tables ↔
          value.toNat.toUInt16 = s.rfToRf16 := by
        simp [X10State.tables, X10State.devices]
      refine Judged.of_unsent
        (by rw [packets_bind_finish, packets_eq_nil (notSent_rftorf (arg :: rest))]) ?_
      rw [value_bind_finish, tables_bind_finish, hflow, htables, ne_eq, hsame]
      simp [CarriedOutFirst, hvalue]

theorem judged_st {tokens : List Bytes} {s : X10State} :
    Judged s (CarriedOutFirst s .st tokens) ((stCommand c fd tokens >>= finish fd) s) := by
  have hrun : (stCommand c fd tokens s).value = .rest tokens.tail ∧
      (stCommand c fd tokens s).state.tables =
        (if tokens.head? = some (ascii "0") then huaSecInit s else sortSensors s).tables := by
    by_cases harg : tokens.head? = some (ascii "0")
    · have hinit : stCommand c fd tokens =
          (modify huaSecInit >>= fun _ => pure (.rest tokens.tail)) := if_pos harg
      rw [hinit, if_pos harg]
      exact ⟨rfl, rfl⟩
    · have hshow : stCommand c fd tokens =
          (huaShow c.env fd >>= fun _ => pure (.rest tokens.tail)) := if_neg harg
      have htables := (huaShow_spec c.env fd s).2
      rw [hshow, if_neg harg]
      generalize huaShow c.env fd = m at htables
      exact ⟨rfl, htables⟩
  obtain ⟨hflow, htables⟩ := hrun
  refine Judged.of_unsent ((packets_bind_finish _ _).trans (packets_st tokens s)) ?_
  rw [value_bind_finish, tables_bind_finish, hflow, htables]
  refine and_congr_left fun _ => ?_
  cases tokens with
  | nil => simp
  | cons t ts => simp [List.length_pos_iff]

/-- The commands that only answer. -/
theorem inert_answers {command : Command} (hpl : command ≠ .pl)
    (hradio : ¬(command = .rf ∨ command = .rfsec ∨ command = .rfcam)) (hpt : command ≠ .pt)
    (hrftopl : command ≠ .rftopl) (hrftorf : command ≠ .rftorf) (hst : command ≠ .st)
    (tokens : List Bytes) : Inert (runCommand c relay fd command tokens) := by
  have hsend : ∀ json, Inert (sendDiagJson c fd json) := Inert.sendDiagJson c fd
  cases command with
  | hello | capabilities | config | version => exact Inert.diagCommand (hsend _)
  | health | clients =>
    exact Inert.diagCommand ((Inert.uptimeSeconds c.env).bind fun _ => hsend _)
  | pl => exact absurd rfl hpl
  | rf | rfsec | rfcam => exact absurd (by simp) hradio
  | pt => exact absurd rfl hpt
  | rftopl => exact absurd rfl hrftopl
  | rftorf => exact absurd rfl hrftorf
  | st => exact absurd rfl hst
  | info | quit | help | question => exact Inert.printCommand fd _
  | hex =>
    simp only [runCommand, hexCommand]
    split
    · exact Inert.pure _
    · exact (Inert.sockprintf _ _).bind fun _ => Inert.pure _
  | getstatus =>
    refine Inert.ite ?_ (Inert.pure _)
    dsimp only
    split
    · exact Inert.ite ((Inert.gets _).bind fun _ => (Inert.statusprintf _ _).bind fun _ =>
        Inert.pure _) ((Inert.statusprintf _ _).bind fun _ => Inert.pure _)
    · exact (Inert.gets _).bind fun _ => (Inert.statusprintf _ _).bind fun _ => Inert.pure _
  | getstatussec =>
    simp only [runCommand, getstatussecCommand]
    split
    · exact Inert.pure _
    · exact (Inert.gets _).bind fun _ => (Inert.statusprintf _ _).bind fun _ => Inert.pure _

/-- **One command.** -/
theorem judged_runCommand {command : Command} {tokens : List Bytes} {s : X10State}
    (hbare : command = .pl → ∀ house unit rest,
      plCommandOf tokens = some (.select house unit, rest) → tokens.length ≠ 1) :
    Judged s (CarriedOutFirst s command tokens)
      ((runCommand c relay fd command tokens >>= finish fd) s) := by
  by_cases hpl : command = .pl
  · subst hpl
    exact judged_pl (hbare rfl)
  by_cases hradio : command = .rf ∨ command = .rfsec ∨ command = .rfcam
  · exact judged_radio hradio
  by_cases hrftopl : command = .rftopl
  · subst hrftopl
    exact judged_rftopl
  by_cases hrftorf : command = .rftorf
  · subst hrftorf
    exact judged_rftorf
  by_cases hst : command = .st
  · subst hst
    exact judged_st
  have hnot : CarriedOutFirst s command tokens ↔ False := by
    cases command
    all_goals first
      | exact Iff.rfl
      | contradiction
  rw [hnot]
  by_cases hpt : command = .pt
  · subst hpt
    exact judged_pt
  · exact Judged.of_inert
      ((inert_answers hpl hradio hpt hrftopl hrftorf hst tokens).bind (Inert.finish fd))

/-- A line that names no command. -/
theorem inert_of_commandOfLine_eq_none {line : Bytes} (h : commandOfLine line = none) :
    Inert (processcommandline c fd line) := by
  simp only [processcommandline, processDepth, processWith]
  split
  · exact (Inert.sendAll _ _).bind fun _ => Inert.pure _
  rw [commandOfLine] at h
  split
  · exact (Inert.sockprintf _ _).bind fun _ => Inert.pure _
  next tokens htokens =>
    rw [htokens] at h
    cases tokens with
    | nil => exact Inert.pure _
    | cons name tokens =>
      have hname : commandOf name = none := Option.map_eq_none_iff.mp h
      simp only [processTokens, hname]
      exact Inert.pure _

/-! ### Every line -/

/-- **A rejected line has had no effect exactly if it is not rejected late**; the selection of a
unit is sent and rejected by design. -/
theorem rejected_without_effect_iff (c : Ctx) (fd : ℤ) (line : Bytes) (s : X10State) :
    ((processcommandline c fd line s).value < 0 → ¬BareSelection line →
        WithoutEffect s (processcommandline c fd line s)) ↔
      ¬RejectedLate s line := by
  cases hline : commandOfLine line with
  | none =>
    have hinert : Inert (processcommandline c fd line) := inert_of_commandOfLine_eq_none hline
    refine iff_of_true (fun _ _ => hinert.withoutEffect s) ?_
    rintro ⟨command, tokens, hsome, -⟩
    rw [hline] at hsome
    cases hsome
  | some a =>
    obtain ⟨command, tokens⟩ := a
    have hlate : RejectedLate s line ↔ CarriedOutFirst s command tokens := by
      simp [RejectedLate, hline]
    rw [hlate, processcommandline_of_line hline]
    by_cases hbare : BareSelection line
    · obtain ⟨addr, haddr, hhouse, hunit⟩ := hbare
      obtain ⟨rfl, rfl⟩ := Prod.mk.inj (Option.some.inj (hline.symm.trans haddr))
      refine iff_of_true (fun _ hnot => absurd ⟨addr, haddr, hhouse, hunit⟩ hnot) ?_
      rintro ⟨cmd, rest, hcmd, hrest⟩
      rcases hgot : getdeviceaddr [addr] with ⟨⟨house, unit⟩, tokens'⟩
      rw [hgot] at hhouse hunit
      have htokens : tokens' = [] := congrArg Prod.snd hgot.symm
      subst htokens
      simp only [plCommandOf, hgot, getfunc, nextToken, List.head?_nil, Option.bind_none,
        Option.elim_none, if_neg (not_lt.mpr hhouse), if_neg (not_lt.mpr hunit)] at hcmd
      obtain ⟨rfl, rfl⟩ := Prod.mk.inj (Option.some.inj hcmd)
      exact hrest rfl
    · have hjudged : Judged s (CarriedOutFirst s command tokens)
          ((runCommand c (relayTo c) fd command tokens >>= finish fd) s) := judged_runCommand (by
          rintro rfl house unit rest hcmd hlength
          obtain ⟨addr, rfl⟩ := List.length_eq_one_iff.mp hlength
          refine hbare ⟨addr, hline, ?_⟩
          rcases hgot : getdeviceaddr [addr] with ⟨⟨house', unit'⟩, tokens'⟩
          simp only [plCommandOf, hgot] at hcmd
          split at hcmd
          · cases hcmd
          next hhouse =>
            split at hcmd
            · split at hcmd
              · cases hcmd
              · split at hcmd
                · cases hcmd
                · cases hcmd
            next hunit => exact ⟨not_lt.mp hhouse, not_lt.mp hunit⟩)
      exact ⟨fun hall => hjudged.mp fun hneg => hall hneg hbare,
        fun hnot hneg _ => hjudged.mpr hnot hneg⟩

/-- **An On is sent, and refused for the word after it.** -/
theorem rejected_with_effect : ¬ ∀ c fd line s, (processcommandline c fd line s).value < 0 →
    ¬BareSelection line → WithoutEffect s (processcommandline c fd line s) := by
  intro hall
  have hbare : ¬BareSelection (ascii "pl a1 on now") := by
    rintro ⟨addr, haddr, -⟩
    rw [show commandOfLine (ascii "pl a1 on now") =
      some (.pl, [ascii "A1", ascii "ON", ascii "NOW"]) by decide +kernel] at haddr
    cases haddr
  have hwithout := hall (.idle (.plain mochadConfigDefaults true)) 4 (ascii "pl a1 on now") .idle
    (by decide +kernel) hbare
  exact absurd hwithout.unsent (by decide +kernel)

end Mochad
