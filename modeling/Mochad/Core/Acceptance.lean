import Mochad.Core.Moves
import Mochad.Usb.Acceptance
import Mochad.X10.Rejection
import Mochad.X10.Relay

/-!
# Commands that are taken

A transmitting command hands its packets to `x10_write` one by one (`sentBy`), and looks at none
of the answers: what the command returns is decided by its words alone. So a packet that is not
taken is lost in silence, and of two packets the first may be taken without the second.

All packets are taken if there is room for them and the first can be submitted. If there is no
room at all, or nothing can be submitted, none is; then the command fails only if it was to fail
anyway (`SentThenRefused`).
-/

namespace Mochad

/-! ### The packets of a line -/

/-- **The packets that a line is carried out with**: those of the power-line command, what is
relayed of a radio frame and then the frame, or the bytes that are passed through. -/
def sentBy (env : Env) (s : X10State) (line : Bytes) : List Bytes :=
  match commandOfLine line with
  | none => []
  | some (command, tokens) =>
      match command with
      | .pl => (plCommandOf tokens).elim [] fun a => a.1.sent
      | .rf | .rfsec | .rfcam => (radioCommandOf command tokens).elim [] fun a =>
          relaysOf env s (Memory.ofBytes a.1.frame env.stack) a.1.frame.length ++ [wire env a.1.frame]
      | .pt => match (gethexdata 8 tokens).1 with
          | none | some [] => []
          | some data => [data]
      | _ => []

/-- A command that is sent and then refused: a unit without a function, or an argument too many. -/
def SendsAndRefuses (command : Command) (tokens : List Bytes) : Prop :=
  match command with
  | .pl => ∃ cmd rest, plCommandOf tokens = some (cmd, rest) ∧ cmd.flow rest ≠ .rest []
  | .rf | .rfsec | .rfcam =>
      ∃ cmd rest, radioCommandOf command tokens = some (cmd, rest) ∧ rest ≠ []
  | _ => False

/-- **A line that is sent and then refused.** -/
def SentThenRefused (line : Bytes) : Prop :=
  ∃ command tokens, commandOfLine line = some (command, tokens) ∧ SendsAndRefuses command tokens

section

variable {c : Ctx} {fd : ℤ} {line : Bytes} {tokens : List Bytes} {s : X10State}

/-- The bytes of a packet fill the room at most. -/
theorem length_gethexdata {room : ℕ} {bs rest} (h : gethexdata room tokens = (some bs, rest)) :
    bs.length ≤ room := by
  induction tokens generalizing room bs rest with
  | nil =>
    rw [gethexdata] at h
    obtain rfl := Option.some.inj (Prod.mk.inj h).1
    exact Nat.zero_le room
  | cons parm tokens ih =>
    cases room with
    | zero => cases h
    | succ room =>
      rw [gethexdata] at h
      split at h
      · cases h
      split at h
      · cases h
      · obtain ⟨hbytes, -⟩ := Prod.mk.inj h
        obtain ⟨bs', hbs, rfl⟩ := Option.map_eq_some_iff.mp hbytes
        exact Nat.succ_le_succ (ih (Prod.ext hbs rfl))

/-- **`PT`**: the bytes that are passed through, unless they are refused. -/
theorem pt_spec (hline : commandOfLine line = some (.pt, tokens)) (c : Ctx) (fd : ℤ) (s : X10State) :
    packets (processcommandline c fd line s).effects =
        (match (gethexdata 8 tokens).1 with
          | none | some [] => []
          | some data => [data]) ∧
      ((processcommandline c fd line s).value < 0 →
        packets (processcommandline c fd line s).effects = []) := by
  have hok := notSent_or20ok c fd
  rw [processcommandline_of_line hline, packets_bind_finish, value_bind_finish]
  show packets (ptCommand c fd tokens s).effects = _ ∧ _
  rcases hdata : gethexdata 8 tokens with ⟨data, rest⟩
  have hrefused : data = none ∨ data = some [] →
      packets (ptCommand c fd tokens s).effects = [] := by
    intro hnone
    have hrun : ptCommand c fd tokens = (do or20ok c fd; pure (.ret (-1))) := by
      rcases hnone with rfl | rfl
      all_goals simp only [ptCommand, hdata]
    rw [hrun]
    exact packets_eq_nil (hok.bind fun _ => X10M.Emits.pure _) s
  rcases data with _ | _ | ⟨b, bs⟩
  · have hnil := hrefused (Or.inl rfl)
    exact ⟨hnil, fun _ => hnil⟩
  · have hnil := hrefused (Or.inr rfl)
    exact ⟨hnil, fun _ => hnil⟩
  · obtain rfl := gethexdata_rest hdata
    have hrun : ptCommand c fd tokens = (do
        or20ok c fd
        x10Write (b :: bs)
        pure (.rest [])) := by simp only [ptCommand, hdata]
    refine ⟨?_, fun hneg => ?_⟩
    · rw [hrun, X10M.bind_apply, packets_append, packets_eq_nil hok]
      rfl
    · have hvalue : (runCommand c (relayTo c) fd .pt tokens s).value = .rest [] := by
        show (ptCommand c fd tokens s).value = _
        rw [hrun]
        rfl
      rw [hvalue] at hneg
      exact absurd rfl hneg

/-- The other commands hand on nothing. -/
theorem notSent_runCommand {command : Command} (hpl : command ≠ .pl)
    (hradio : ¬(command = .rf ∨ command = .rfsec ∨ command = .rfcam)) (hpt : command ≠ .pt) :
    packets (runCommand c (relayTo c) fd command tokens s).effects = [] := by
  by_cases hrftopl : command = .rftopl
  · subst hrftopl
    exact packets_eq_nil (notSent_rftopl tokens) s
  by_cases hrftorf : command = .rftorf
  · subst hrftorf
    exact packets_eq_nil (notSent_rftorf tokens) s
  by_cases hst : command = .st
  · subst hst
    exact packets_st tokens s
  · exact packets_eq_nil (inert_answers hpl hradio hpt hrftopl hrftorf hst tokens).sends s

/-- **The packets that a line hands on.** -/
theorem packets_processcommandline (c : Ctx) (fd : ℤ) (line : Bytes) (s : X10State) :
    packets (processcommandline c fd line s).effects = sentBy c.env s line := by
  rw [sentBy]
  cases hline : commandOfLine line with
  | none =>
    have hinert : Inert (processcommandline c fd line) := inert_of_commandOfLine_eq_none hline
    exact packets_eq_nil hinert.sends s
  | some a =>
    obtain ⟨command, tokens⟩ := a
    have hradio : command = .rf ∨ command = .rfsec ∨ command = .rfcam →
        packets (processcommandline c fd line s).effects =
          (radioCommandOf command tokens).elim [] fun a =>
            relaysOf c.env s (Memory.ofBytes a.1.frame c.env.stack) a.1.frame.length ++
              [wire c.env a.1.frame] := by
      intro hcommand
      cases hcmd : radioCommandOf command tokens with
      | none =>
        rw [processcommandline_of_line hline, packets_bind_finish]
        exact packets_eq_nil (inert_of_radioCommandOf_eq_none hcommand hcmd).sends s
      | some a => exact packets_radio hline hcmd s
    by_cases hpl : command = .pl
    · subst hpl
      dsimp only
      cases hcmd : plCommandOf tokens with
      | none => exact (pl_refused c fd hline hcmd s).1
      | some a => exact packets_pl hline hcmd s
    by_cases hpt : command = .pt
    · subst hpt
      exact (pt_spec hline c fd s).1
    by_cases hcommand : command = .rf ∨ command = .rfsec ∨ command = .rfcam
    · rw [hradio hcommand]
      rcases hcommand with rfl | rfl | rfl
      all_goals rfl
    · have hnil : packets (processcommandline c fd line s).effects = [] := by
        rw [processcommandline_of_line hline, packets_bind_finish]
        exact notSent_runCommand hpl hcommand hpt
      rw [hnil]
      cases command
      all_goals first
        | rfl
        | contradiction

/-! ### Their length, and what is returned -/

theorem PlCommand.length_sent (cmd : PlCommand) : ∀ p ∈ cmd.sent, p.length ≤ outdataSize := by
  have hfunc : ∀ house func param, (housefuncPacket house func param).length ≤ outdataSize := by
    intro house func param
    rw [housefuncPacket]
    split
    · exact (by decide : 3 ≤ 8)
    · exact (by decide : 2 ≤ 8)
  have hunit : ∀ house unit, (houseunitPacket house unit).length ≤ outdataSize :=
    fun house unit => (by decide : 2 ≤ 8)
  intro p hp
  cases cmd with
  | select house unit =>
    rw [List.mem_singleton.mp hp]
    exact hunit house unit
  | toHouse house func param =>
    rw [List.mem_singleton.mp hp]
    exact hfunc house func param
  | toUnit house unit func param =>
    rcases List.mem_cons.mp hp with rfl | hp
    · exact hunit house unit
    · rw [List.mem_singleton.mp hp]
      exact hfunc house func param
  | extended house unit command subcmd param =>
    rw [List.mem_singleton.mp hp]
    exact (by decide : 5 ≤ 8)

theorem length_wire (env : Env) (frame : Bytes) : (wire env frame).length ≤ frame.length := by
  rw [wire]
  split
  · rw [List.length_drop]
    exact Nat.sub_le _ _
  · exact le_refl _

/-- What is relayed of a frame is no longer than the frame, or a power-line packet. -/
theorem length_relaysOf (env : Env) (s : X10State) (buf : Memory) {len : ℕ} (hlen : len ≤ outdataSize) :
    ∀ p ∈ relaysOf env s buf len, p.length ≤ outdataSize := by
  intro p hp
  rw [relaysOf, trimMarkers_of_le hlen] at hp
  dsimp only at hp
  split at hp
  · cases hp
  next frame _ =>
    split at hp
    · cases hp
    rcases List.mem_append.mp hp with hp | hp
    · rw [repeats] at hp
      split at hp
      · rw [List.mem_singleton.mp hp]
        refine le_trans (length_wire env _) ?_
        rwa [Memory.take, List.length_map, List.length_range]
      · cases hp
    · rw [RfFrame.sentOn] at hp
      split at hp
      · cases hp
      next cmd _ =>
        split at hp
        · exact cmd.length_sent p hp
        · cases hp

/-- **No packet is too long** for the queue. -/
theorem length_sentBy (env : Env) (s : X10State) (line : Bytes) :
    ∀ p ∈ sentBy env s line, p.length ≤ outdataSize := by
  have hradio : ∀ (a : Option (RadioCommand × List Bytes)), ∀ p ∈ (a.elim [] fun a =>
      relaysOf env s (Memory.ofBytes a.1.frame env.stack) a.1.frame.length ++ [wire env a.1.frame]),
      p.length ≤ outdataSize := by
    intro a p hp
    cases a with
    | none => cases hp
    | some a =>
      rcases List.mem_append.mp hp with hp | hp
      · exact length_relaysOf env s _ a.1.length_frame p hp
      · rw [List.mem_singleton.mp hp]
        exact le_trans (length_wire env _) a.1.length_frame
  intro p hp
  rw [sentBy] at hp
  split at hp
  · cases hp
  next command tokens _ =>
    split at hp
    · cases hcmd : plCommandOf tokens with
      | none =>
        rw [hcmd] at hp
        cases hp
      | some a =>
        rw [hcmd] at hp
        exact a.1.length_sent p hp
    · exact hradio _ p hp
    · exact hradio _ p hp
    · exact hradio _ p hp
    · rcases hdata : gethexdata 8 tokens with ⟨data, rest⟩
      rw [hdata] at hp
      dsimp only at hp
      split at hp
      · cases hp
      · cases hp
      · rw [List.mem_singleton.mp hp]
        exact length_gethexdata hdata
    · cases hp

/-- **A line that is sent fails exactly if its words are wrong**, whatever becomes of its packets. -/
theorem refused_iff (c : Ctx) (fd : ℤ) {line : Bytes} {s : X10State} (h : sentBy c.env s line ≠ []) :
    (processcommandline c fd line s).value < 0 ↔ SentThenRefused line := by
  rw [SentThenRefused]
  cases hline : commandOfLine line with
  | none =>
    rw [sentBy, hline] at h
    exact absurd rfl h
  | some a =>
    obtain ⟨command, tokens⟩ := a
    have hrefuses : (∃ command' tokens', some (command, tokens) = some (command', tokens') ∧
        SendsAndRefuses command' tokens') ↔ SendsAndRefuses command tokens := by simp
    rw [hrefuses]
    by_cases hpl : command = .pl
    · subst hpl
      cases hcmd : plCommandOf tokens with
      | none =>
        rw [sentBy, hline] at h
        simp [hcmd] at h
      | some a =>
        obtain ⟨cmd, rest⟩ := a
        obtain ⟨-, hrun⟩ := plCommand_of_plCommandOf c fd hcmd
        have hvalue : (runCommand c (relayTo c) fd .pl tokens s).value = cmd.flow rest := by
          show (plCommand c fd tokens s).value = _
          rw [hrun]
          rfl
        rw [processcommandline_of_line hline, value_bind_finish, hvalue]
        have hpl : SendsAndRefuses .pl tokens ↔ cmd.flow rest ≠ .rest [] := by
          simp [SendsAndRefuses, hcmd]
        rw [hpl]
        cases cmd with
        | select => simp [PlCommand.flow]
        | toHouse | toUnit | extended => simp [PlCommand.flow]
    by_cases hpt : command = .pt
    · subst hpt
      refine iff_of_false (fun hneg => h ?_) id
      rw [← packets_processcommandline c fd line s]
      exact (pt_spec hline c fd s).2 hneg
    by_cases hradio : command = .rf ∨ command = .rfsec ∨ command = .rfcam
    · have hradio' : SendsAndRefuses command tokens ↔
          ∃ cmd rest, radioCommandOf command tokens = some (cmd, rest) ∧ rest ≠ [] := by
        rcases hradio with rfl | rfl | rfl
        all_goals rfl
      rw [hradio']
      cases hcmd : radioCommandOf command tokens with
      | none =>
        rw [← packets_processcommandline c fd line s, processcommandline_of_line hline,
          packets_bind_finish] at h
        exact absurd (packets_eq_nil (inert_of_radioCommandOf_eq_none hradio hcmd).sends s) h
      | some a =>
        obtain ⟨cmd, rest⟩ := a
        have hvalue : (runCommand c (relayTo c) fd command tokens s).value = .rest rest := by
          rw [runCommand_of_radioCommandOf hcmd]
          rfl
        rw [processcommandline_of_line hline, value_bind_finish, hvalue]
        simp
    · rw [← packets_processcommandline c fd line s, processcommandline_of_line hline,
        packets_bind_finish] at h
      exact absurd (notSent_runCommand hpl hradio hpt) h

end

/-! ### On the daemon -/

namespace Daemon

variable {env : Env} {d : Daemon}

/-- **The packets go to the controller**, and nothing else does. -/
theorem performAll_usb (env : Env) (d : Daemon) (es : List Effect) :
    (d.performAll env es).usb = d.usb.writeAll env (packets es) := by
  induction es generalizing d with
  | nil => rfl
  | cons e es ih =>
    refine (ih (d.perform env e)).trans ?_
    cases e with
    | sockprintf fd body =>
      have hsame : (d.sockprintf env fd body).usb = d.usb :=
        congrArg Prod.snd (sockprintf_sides env d fd body)
      exact congrArg (fun u => u.writeAll env (packets es)) hsame
    | statusprintf fd text =>
      have hsame : (d.statusprintf env fd text).1.usb = d.usb :=
        congrArg Prod.snd (queueClientBytes_sides env d fd _)
      exact congrArg (fun u => u.writeAll env (packets es)) hsame
    | sendAll fd bytes =>
      have hsame : ((d.record (.addressed (d.connAt fd) fd bytes)).sendAll env fd bytes).1.usb = d.usb :=
        congrArg Prod.snd (sendAll_sides env _ fd bytes)
      exact congrArg (fun u => u.writeAll env (packets es)) hsame
    | x10Write buf => rfl

theorem processcommandline_usb (env : Env) (d : Daemon) (fd : ℤ) (line : Bytes) :
    (d.processcommandline env fd line).usb = d.usb.writeAll env (sentBy env d.x10 line) := by
  rw [processcommandline, runX10, performAll_usb, packets_processcommandline]
  rfl

/-- **No packet of a command is lost in silence** exactly if all of them can be taken, or none can
and the line fails for its words. -/
theorem taken_or_refused_iff (hq : d.usb.queue.Ok) (fd : ℤ) (line : Bytes) :
    ((d.processcommandline env fd line).usb.fifo = d.usb.fifo ++ sentBy env d.x10 line ∨
        ((d.processcommandline env fd line).usb.fifo = d.usb.fifo ∧
          (Mochad.processcommandline (d.ctx env) fd line d.x10).value < 0)) ↔
      d.usb.TakesAll env (sentBy env d.x10 line).length ∨
        (d.usb.TakesNone env (sentBy env d.x10 line).length ∧ SentThenRefused line) := by
  have hlen := length_sentBy env d.x10 line
  rw [processcommandline_usb, Usb.writeAll_eq_iff env hq hlen]
  by_cases hnil : sentBy env d.x10 line = []
  · have hall : d.usb.TakesAll env (sentBy env d.x10 line).length := by
      rw [hnil]
      exact Or.inl rfl
    exact iff_of_true (Or.inl hall) (Or.inl hall)
  · rw [Usb.writeAll_refused_iff env hq hnil hlen, refused_iff (d.ctx env) fd hnil]

/-- An On is taken while nothing is under way. -/
theorem taken_or_refused_on :
    let env := Env.plain mochadConfigDefaults false
    let d := initial env
    (d.processcommandline env 4 (ascii "pl a1 on")).usb.fifo =
        d.usb.fifo ++ sentBy env d.x10 (ascii "pl a1 on") ∨
      ((d.processcommandline env 4 (ascii "pl a1 on")).usb.fifo = d.usb.fifo ∧
        (Mochad.processcommandline (d.ctx env) 4 (ascii "pl a1 on") d.x10).value < 0) := by
  refine (taken_or_refused_iff X10Queue.initial_ok 4 (ascii "pl a1 on")).mpr (Or.inl (Or.inr ?_))
  exact ⟨⟨rfl, le_refl 0⟩, by decide +kernel⟩

/-- **The address goes out, and the function is lost**: 254 packets wait behind the one under way,
and the command reports no failure. -/
theorem address_without_function : ¬ ∀ (env : Env) (d : Daemon), d.usb.queue.Ok → ∀ fd line,
    (d.processcommandline env fd line).usb.fifo = d.usb.fifo ++ sentBy env d.x10 line ∨
      ((d.processcommandline env fd line).usb.fifo = d.usb.fifo ∧
        (Mochad.processcommandline (d.ctx env) fd line d.x10).value < 0) := by
  intro hall
  let env : Env := .plain mochadConfigDefaults false
  let packet : Bytes := [0x04]
  have hshort : ∀ p ∈ List.replicate 254 packet, p.length ≤ outdataSize := by
    intro p hp
    rw [List.eq_of_mem_replicate hp]
    exact (by decide : 1 ≤ 8)
  have hpacket : packet.length ≤ outdataSize := by decide
  rcases Usb.x10Write_idle env (u := Usb.initial) X10Queue.initial_ok rfl hpacket with
    ⟨-, -, hq, hbusy, hroom⟩ | ⟨hnot, -⟩
  · obtain ⟨hq', hbusy', hroom'⟩ := Usb.room_writeAll_busy env hq hbusy hshort
    generalize (Usb.initial.x10Write env packet).1.writeAll env (List.replicate 254 packet) = u at *
    have hone : u.room = 1 := by
      rw [hroom', hroom, List.length_replicate]
      rfl
    have hsent : sentBy env (initial env).x10 (ascii "pl a1 on") = [[0x04, 0x66], [0x06, 0x62]] := by
      decide +kernel
    have hlen := length_sentBy env (initial env).x10 (ascii "pl a1 on")
    have hfifo := Usb.fifo_writeAll_busy env hq' hbusy' hlen
    have hcase := hall env { initial env with usb := u } hq' 4 (ascii "pl a1 on")
    have husb := processcommandline_usb env { initial env with usb := u } 4 (ascii "pl a1 on")
    rw [husb] at hcase
    dsimp only at hcase
    rw [hfifo, hone, hsent] at hcase
    rcases hcase with heq | ⟨heq, -⟩
    · exact absurd (List.append_cancel_left heq) (by decide)
    · exact absurd (List.append_right_eq_self.mp heq) (by decide)
  · exact hnot ⟨rfl, le_refl 0⟩

end Daemon

end Mochad
