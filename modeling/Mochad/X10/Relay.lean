import Mochad.X10.RadioStatus

/-!
# Relays

A radio frame that comes in may be repeated as radio, for houses outside its range, and an On,
Off, Dim or Bright may be sent on as a power-line command, which only a CM15A can do. Both are
switched by masks.

The two relays sit in the decoder. But a radio command is reported by handing its own frame to
the same decoder, so it passes the relays as well: what a client transmits is relayed like what
is received (`received_only_iff`).
-/

namespace Mochad

open X10M (Emits Preserves gets modify)

/-! ### Frames as power-line commands -/

namespace RfFrame

/-- **The equivalent power-line command** of a standard frame, and the letter of its house. -/
def plCommand : RfFrame → Option (UInt8 × PlCommand)
  | dim housechar func => some (housechar, .toHouse (houseIndex housechar) (func + 2) 1)
  | switch housechar unit func =>
      some (housechar, .toUnit (houseIndex housechar) (unit - 1) (func + 2) 0)
  | _ => none

/-- What it names is a house, and a unit if it has one, and a function of radio. -/
def Named : RfFrame → Prop
  | dim housechar func => ∃ house, IsUnit house ∧ housechar = houseChar house ∧ (func = 2 ∨ func = 3)
  | switch housechar unit func => ∃ house u, IsUnit house ∧ IsUnit u ∧ housechar = houseChar house ∧
      unit = u.toNat + 1 ∧ func < 2
  | _ => True

end RfFrame

theorem hufcDecode_named (hu fb : UInt8) :
    (let (housechar, unit, func) := hufcDecode hu fb
      if 1 < func then RfFrame.dim housechar func else .switch housechar unit func).Named := by
  have hletter : ∀ n : Fin 16, ∃ h : Fin 16, tableAt houseUnitTableRF n = houseChar h := by
    decide +kernel
  have hshift : ((hu &&& 0xf0) >>> 4).toNat < 16 := shift_lt hu
  obtain ⟨h, hh⟩ := hletter ⟨_, hshift⟩
  have hhouse : IsUnit (h : ℤ) := isUnit_iff.mpr ⟨h, List.mem_range.mpr h.isLt, rfl⟩
  have hbit : ((fb &&& 0x20) >>> 5).toNat < 2 := by
    revert fb
    exact forall_byte (by decide +kernel)
  rcases hfields : hufcDecode hu fb with ⟨housechar, unit, func⟩
  have hchar : housechar = houseChar h := by
    rw [← hh]
    simp only [hufcDecode] at hfields
    split at hfields
    · exact (Prod.mk.inj hfields).1.symm
    split at hfields
    · exact (Prod.mk.inj hfields).1.symm
    · exact (Prod.mk.inj hfields).1.symm
  by_cases hfunc : 1 < func
  · simp only [if_pos hfunc]
    refine ⟨h, hhouse, hchar, ?_⟩
    simp only [hufcDecode] at hfields
    split at hfields
    · simp only [Prod.mk.injEq] at hfields
      omega
    split at hfields
    · simp only [Prod.mk.injEq] at hfields
      omega
    · simp only [Prod.mk.injEq] at hfields
      omega
  · simp only [if_neg hfunc]
    have hunit := isUnit_hufcDecode hfields hfunc
    have hpos := hunit.1
    exact ⟨h, (unit : ℤ) - 1, hhouse, hunit, hchar, by omega, by omega⟩

/-- **An accepted frame names what it can name.** -/
theorem named_of_frame {buf : Memory} {len : ℕ} {frame : RfFrame}
    (h : rfFrame buf len = some frame) : frame.Named := by
  rw [rfFrame] at h
  split at h
  · cases h
  split at h
  · obtain ⟨_, _, rfl⟩ := Option.map_eq_some_iff.mp h
    trivial
  split at h
  · split at h
    · split at h
      · cases h
      · obtain rfl := Option.some.inj h
        trivial
    split at h
    · split at h
      · cases h
      · obtain rfl := Option.some.inj h
        exact hufcDecode_named (buf 2) (buf 4)
    · cases h
  split at h
  · cases hsec : secafDecode buf len with
    | error e =>
      rw [hsec] at h
      cases h
    | ok a =>
      rw [hsec] at h
      obtain rfl := Option.some.inj h
      trivial
  · cases h

/-- **The line that a frame is sent on as** is the equivalent command. -/
theorem line_of_named {frame : RfFrame} (h : frame.Named) {housechar : UInt8} {line : Bytes}
    (hline : frame.line = some (housechar, line)) : IsPl line ∧
      ∃ tokens cmd, tokenizeCommand (strupper line) = some tokens ∧
        plCommandOf tokens.tail = some (cmd, []) ∧ frame.plCommand = some (housechar, cmd) := by
  cases frame with
  | camera | short | long => cases hline
  | dim housechar' func =>
    obtain ⟨rfl, rfl⟩ := Prod.mk.inj (Option.some.inj hline)
    obtain ⟨house, hhouse, rfl, hfunc⟩ := h
    refine ⟨⟨[houseChar house] ++ ascii " " ++ fmtStr (funcnameAt (func + 2)),
      by simp only [List.append_assoc]⟩, ?_⟩
    have hall : ∀ h : Fin 16, ∀ bright : Bool,
        let line := ascii "PL " ++ [houseChar h] ++ ascii " " ++
          fmtStr (funcnameAt (bright.toNat + 2 + 2))
        tokenizeCommand (strupper line) = some (words (strupper line)) ∧
          plCommandOf (words (strupper line)).tail =
            some (.toHouse (houseIndex (houseChar h)) ((bright.toNat + 2 : ℕ) + 2) 1, []) := by
      decide +kernel
    obtain ⟨n, hn, rfl⟩ := isUnit_iff.mp hhouse
    have hn' := List.mem_range.mp hn
    rcases hfunc with rfl | rfl
    · obtain ⟨htokens, hcmd⟩ := hall ⟨n, hn'⟩ false
      exact ⟨_, _, htokens, hcmd, rfl⟩
    · obtain ⟨htokens, hcmd⟩ := hall ⟨n, hn'⟩ true
      exact ⟨_, _, htokens, hcmd, rfl⟩
  | switch housechar' unit func =>
    obtain ⟨rfl, rfl⟩ := Prod.mk.inj (Option.some.inj hline)
    obtain ⟨house, u, hhouse, hu, rfl, rfl, hfunc⟩ := h
    refine ⟨⟨[houseChar house] ++ fmtNat (u.toNat + 1) ++ ascii " " ++
      fmtStr (funcnameAt (func + 2)), by simp only [List.append_assoc]⟩, ?_⟩
    have hall : ∀ h u : Fin 16, ∀ off : Bool,
        let line := ascii "PL " ++ [houseChar h] ++ fmtNat (u + 1) ++ ascii " " ++
          fmtStr (funcnameAt (off.toNat + 2))
        tokenizeCommand (strupper line) = some (words (strupper line)) ∧
          plCommandOf (words (strupper line)).tail =
            some (.toUnit (houseIndex (houseChar h)) ((u + 1 : ℕ) - 1) (off.toNat + 2) 0, []) := by
      decide +kernel
    obtain ⟨n, hn, rfl⟩ := isUnit_iff.mp hhouse
    obtain ⟨m, hm, rfl⟩ := isUnit_iff.mp hu
    have hn' := List.mem_range.mp hn
    have hm' := List.mem_range.mp hm
    rcases (by omega : func = 0 ∨ func = 1) with rfl | rfl
    · obtain ⟨htokens, hcmd⟩ := hall ⟨n, hn'⟩ ⟨m, hm'⟩ false
      exact ⟨_, _, htokens, hcmd, rfl⟩
    · obtain ⟨htokens, hcmd⟩ := hall ⟨n, hn'⟩ ⟨m, hm'⟩ true
      exact ⟨_, _, htokens, hcmd, rfl⟩

/-! ### The packets of a frame -/

/-- A packet as the controller is handed it: a CM19A takes no leading byte. -/
def wire (env : Env) (frame : Bytes) : Bytes := if env.cm19a then frame.drop 1 else frame

/-- What a frame is repeated as. -/
def repeats (env : Env) (s : X10State) (tx : Bytes) : List Bytes :=
  if s.rfToRf16 ≠ 0 then [wire env tx] else []

/-- What a frame is sent on as. -/
def RfFrame.sentOn (env : Env) (s : X10State) (frame : RfFrame) : List Bytes :=
  match frame.plCommand with
  | none => []
  | some (housechar, cmd) => if relayed env s housechar then cmd.sent else []

/-- The masks are the same. -/
def SameMasks (s s' : X10State) : Prop := s'.rfToPl16 = s.rfToPl16 ∧ s'.rfToRf16 = s.rfToRf16

theorem SameMasks.sentOn {s s' : X10State} (h : SameMasks s s') (env : Env) (frame : RfFrame) :
    frame.sentOn env s' = frame.sentOn env s := by
  simp only [RfFrame.sentOn, relayed, h.1]
  rfl

theorem update_masks (env : Env) (frame : RfFrame) (s : X10State) :
    SameMasks s (frame.update env s).state := by
  have htime : Preserves (SameMasks s) (timeNow env) := fun _ h => h
  have hevent : ∀ address function short,
      Preserves (SameMasks s) (huaSecEvent env address function short) := by
    intro address function short
    refine (Preserves.gets _).bind fun sensors => Preserves.ite ?_ (Preserves.ite (Preserves.pure _) ?_)
    · exact htime.bind fun _ => Preserves.modify fun _ h => h
    · exact htime.bind fun _ => Preserves.modify fun _ h => h
  have hadd : ∀ house unit, Preserves (SameMasks s) (modify (huaAdd house unit)) := by
    refine fun house unit => Preserves.modify fun t h => ?_
    rw [huaAdd]
    split
    · exact h
    split
    · exact h
    · exact h
  have hfunc : ∀ house func, Preserves (SameMasks s) (modify (huaFunc house func)) := by
    refine fun house func => Preserves.modify fun t h => ?_
    rw [huaFunc_eq]
    exact h
  have hupdate : Preserves (SameMasks s) (frame.update env) := by
    cases frame with
    | camera | dim => exact Preserves.pure _
    | short address function => exact hevent _ _ _
    | long address function => exact hevent _ _ _
    | switch housechar unit func => exact (hadd _ _).bind fun _ => hfunc _ _
  exact hupdate s ⟨rfl, rfl⟩

/-- What relays a line hands on the packets of that line. -/
def RelaysPl (relay : ℤ → Bytes → X10M Unit) : Prop :=
  ∀ fd line tokens cmd s, IsPl line → tokenizeCommand (strupper line) = some tokens →
    plCommandOf tokens.tail = some (cmd, []) → packets (relay fd line s).effects = cmd.sent

theorem relaysPl_processDepth (c : Ctx) (n : ℕ) :
    RelaysPl (fun fd line => do let _ ← processDepth c (n + 1) fd line) := by
  intro fd line tokens cmd s hpl htokens hcmd
  obtain ⟨hplain, hrun⟩ := plCommand_of_plCommandOf c fd hcmd
  have hprocess : processDepth c (n + 1) fd line = plCommand c fd tokens.tail >>= finish fd := by
    refine (processWith_eq_pl c _ fd hpl).trans ?_
    simp only [htokens]
  show packets ((processDepth c (n + 1) fd line >>= fun _ => pure ()) s).effects = _
  rw [X10M.bind_apply, packets_append, hprocess, packets_bind_finish, hrun, X10M.bind_apply,
    packets_append, packets_eq_nil (notSent_or20ok c fd), List.nil_append, X10M.bind_apply,
    packets_append, PlCommand.packets_send hplain]
  exact (List.append_nil _).trans (List.append_nil _)

section

variable {env : Env} {relay : ℤ → Bytes → X10M Unit} {fd : ℤ} {buf : Memory} {len : ℕ}
  {frame : RfFrame}

theorem packets_repeatRF (s : X10State) :
    packets (repeatRF env fd buf len s).effects = repeats env s ((buf.copy 0 [0xEB]).take len) := by
  rw [repeats]
  by_cases hmask : s.rfToRf16 ≠ 0
  · have hrun : repeatRF env fd buf len s = (do
        sockprintf fd (ascii "RfToRf repeat\n")
        x10Write (wire env ((buf.copy 0 [0xEB]).take len)) : X10M Unit) s := by
      show (if s.rfToRf16 ≠ 0 then _ else _ : X10M Unit) s = _
      rw [if_pos hmask]
      rfl
    rw [hrun, if_pos hmask]
    rfl
  · have hrun : repeatRF env fd buf len s = (pure () : X10M Unit) s := by
      show (if s.rfToRf16 ≠ 0 then _ else _ : X10M Unit) s = _
      rw [if_neg hmask]
    rw [hrun, if_neg hmask]
    rfl

theorem packets_sendOn (hnamed : frame.Named) (hrelay : RelaysPl relay) (s : X10State) :
    packets (frame.sendOn env relay fd s).effects = frame.sentOn env s := by
  rw [RfFrame.sendOn, RfFrame.sentOn]
  cases hline : frame.line with
  | none =>
    cases frame with
    | camera | short | long => rfl
    | dim | switch => cases hline
  | some a =>
    obtain ⟨housechar, line⟩ := a
    obtain ⟨hpl, tokens, cmd, htokens, hcmd, hcommand⟩ := line_of_named hnamed hline
    rw [hcommand]
    show packets ((if relayed env s housechar then relay fd line else pure () : X10M Unit) s).effects = _
    dsimp only
    cases relayed env s housechar with
    | false => rfl
    | true => exact hrelay fd line tokens cmd s hpl htokens hcmd

/-- **The packets of a frame that is acted upon**: it is repeated, and sent on. -/
theorem packets_act (hnamed : frame.Named) (hrelay : RelaysPl relay) (s : X10State) :
    packets (frame.act env relay fd buf len s).effects =
      repeats env s ((buf.copy 0 [0xEB]).take len) ++ frame.sentOn env s := by
  have hmasks := update_masks env frame s
  have hrepeat : ∀ t, SameMasks s t → repeats env t ((buf.copy 0 [0xEB]).take len) =
      repeats env s ((buf.copy 0 [0xEB]).take len) := by
    intro t ht
    rw [repeats, ht.2, repeats]
  have hsends : packets (frame.update env s).effects = [] := packets_eq_nil (emits_update env frame) s
  simp only [RfFrame.act, X10M.bind_apply, packets_append, hsends,
    packets_eq_nil (notSent_dispatch _ _), mochadDispatchEvent_state, repeatRF_state,
    packets_repeatRF, packets_sendOn hnamed hrelay, List.nil_append]
  rw [hrepeat _ hmasks, hmasks.sentOn]

/-- **The packets of an accepted frame.** -/
theorem packets_decodeRf {buf₀ : Memory} {len₀ : ℕ} (htrim : trimMarkers buf₀ len₀ = (buf, len))
    (hframe : rfFrame buf len = some frame) (hrelay : RelaysPl relay) (s : X10State) :
    packets (cm15aDecodeRf env relay fd buf₀ len₀ s).effects =
      if heldBack env (buf.take len) s then []
      else repeats env s ((buf.copy 0 [0xEB]).take len) ++ frame.sentOn env s := by
  obtain ⟨dups, n, happly⟩ := cm15aDecodeRf_apply env relay fd htrim hframe s
  rw [happly]
  cases heldBack env (buf.take len) s with
  | true => rfl
  | false =>
    have hmasks : SameMasks s { s with dups := dups, timemsReads := n } := ⟨rfl, rfl⟩
    rw [if_neg (by decide), if_neg (by decide), packets_act (named_of_frame hframe) hrelay,
      hmasks.sentOn, repeats, hmasks.2, repeats]

/-- What is relayed of a frame that comes in. -/
def relaysOf (env : Env) (s : X10State) (buf : Memory) (len : ℕ) : List Bytes :=
  let (p, n) := trimMarkers buf len
  match rfFrame p n with
  | none => []
  | some frame =>
      if heldBack env (p.take n) s then []
      else repeats env s ((p.copy 0 [0xEB]).take n) ++ frame.sentOn env s

/-- A text that does not begin with the direction of an event. -/
def Undirected (text : Bytes) : Prop := text.head?.any (fun b => b ≠ 0x52 ∧ b ≠ 0x54) = true

instance (text : Bytes) : Decidable (Undirected text) :=
  inferInstanceAs (Decidable (text.head?.any (fun b => b ≠ 0x52 ∧ b ≠ 0x54) = true))

theorem Undirected.append {text : Bytes} (h : Undirected text) (more : Bytes) :
    Undirected (text ++ more) := by
  cases text with
  | nil => cases h
  | cons b bs => exact h

/-- A complaint about a frame: why it is rejected, and mostly its bytes. -/
def Complains (fd : ℤ) (buf : Memory) (len : ℕ) (m : X10M Unit) : Prop :=
  ∃ why, Printable why ∧ Undirected why ∧ why.length ≤ len + 30 ∧
    (m = rejectRf fd buf len (why ++ ascii "\n") ∨ m = sockprintf fd (why ++ ascii "\n"))

/-- A fixed text. -/
theorem complains_fixed (why : Bytes) (hprint : Printable why ∧ Undirected why)
    (hlen : why.length ≤ 30) : Complains fd buf len (rejectRf fd buf len (why ++ ascii "\n")) :=
  ⟨why, hprint.1, hprint.2, Nat.le_add_left_of_le hlen, Or.inl rfl⟩

/-- A text that ends in a number. -/
theorem complains_number {head number : Bytes}
    (hhead : (Printable head ∧ Undirected head) ∧ head.length ≤ 20) (hprint : Printable number)
    (hlen : number.length ≤ len + 2) :
    Complains fd buf len (rejectRf fd buf len (head ++ number ++ ascii "\n")) := by
  refine ⟨head ++ number, printable_append.mpr ⟨hhead.1.1, hprint⟩, hhead.1.2.append _, ?_,
    Or.inl rfl⟩
  have hshort := hhead.2
  rw [List.length_append]
  omega

theorem length_fmtHex2_le (b : UInt8) : (fmtHex2 b.toNat).length ≤ len + 2 := by
  rw [length_fmtHex2]
  omega

/-- **A frame that is rejected is complained about**, and that is all. -/
theorem complains_of_rejected {buf₀ : Memory} {len₀ : ℕ}
    (htrim : trimMarkers buf₀ len₀ = (buf, len)) (hframe : rfFrame buf len = none) :
    Complains fd buf len (cm15aDecodeRf env relay fd buf₀ len₀) := by
  have hchecksum : Complains fd buf len (rejectRf fd buf len (ascii "Invalid checksum\n")) :=
    complains_fixed (ascii "Invalid checksum") (by decide) (by decide)
  have hlength : (fmtNat len).length ≤ len + 2 := (length_fmtNat len).trans (by omega)
  rw [cm15aDecodeRf, htrim]
  dsimp only
  rw [rfFrame] at hframe
  split_ifs with hshort hlong hcamera hstandard hsecurity
  · exact complains_number (by decide) (printable_fmtNat len) hlength
  · exact complains_number (by decide) (printable_fmtNat len) hlength
  · rw [if_neg (not_or.mpr ⟨hshort, hlong⟩), if_pos hcamera, Option.map_eq_none_iff] at hframe
    rw [decodeRfCamera, hframe]
    exact complains_fixed (ascii "Unknown RF camera command") (by decide) (by decide)
  · rw [if_neg (not_or.mpr ⟨hshort, hlong⟩), if_neg hcamera, if_pos hstandard] at hframe
    simp only [decodeRfStandard, decodeRfShort]
    split at hframe
    next hsum =>
      rw [if_pos hsum]
      split at hframe
      next hbad =>
        rw [if_pos hbad]
        exact hchecksum
      · cases hframe
    next hsum =>
      rw [if_neg hsum]
      split at hframe
      next hsum' =>
        rw [if_pos hsum']
        split at hframe
        next hbad =>
          rw [if_pos hbad]
          exact hchecksum
        · cases hframe
      next hsum' =>
        rw [if_neg hsum']
        exact complains_number (by decide) (printable_fmtHex2 _) (length_fmtHex2_le _)
  · rw [if_neg (not_or.mpr ⟨hshort, hlong⟩), if_neg hcamera, if_neg hstandard,
      if_pos hsecurity] at hframe
    rw [decodeRfLong]
    cases hsec : secafDecode buf len with
    | error e =>
      dsimp only
      split_ifs
      · exact ⟨ascii "Invalid checksum", by decide, by decide, Nat.le_add_left_of_le (by decide), Or.inr rfl⟩
      · exact ⟨ascii "Invalid parity", by decide, by decide, Nat.le_add_left_of_le (by decide), Or.inr rfl⟩
      · exact complains_fixed (ascii "???") (by decide) (by decide)
    | ok a =>
      rw [hsec] at hframe
      cases hframe
  · exact complains_number (by decide) (printable_fmtHex2 _) (length_fmtHex2_le _)

/-- **A frame that is rejected has no effect.** -/
theorem inert_decodeRf_rejected {buf₀ : Memory} {len₀ : ℕ}
    (htrim : trimMarkers buf₀ len₀ = (buf, len)) (hframe : rfFrame buf len = none) :
    Inert (cm15aDecodeRf env relay fd buf₀ len₀) := by
  obtain ⟨why, _, _, _, heq | heq⟩ := complains_of_rejected htrim hframe
  · rw [heq]
    exact (Inert.sockprintf fd _).bind fun _ => Inert.sockprintf fd _
  · rw [heq]
    exact Inert.sockprintf fd _

/-- **The packets of a frame that comes in** are what is relayed of it. -/
theorem packets_cm15aDecodeRf (hrelay : RelaysPl relay) (buf₀ : Memory) (len₀ : ℕ) (s : X10State) :
    packets (cm15aDecodeRf env relay fd buf₀ len₀ s).effects = relaysOf env s buf₀ len₀ := by
  rcases htrim : trimMarkers buf₀ len₀ with ⟨p, n⟩
  rw [relaysOf, htrim]
  dsimp only
  cases hframe : rfFrame p n with
  | none => exact packets_eq_nil (inert_decodeRf_rejected htrim hframe).sends s
  | some frame => exact packets_decodeRf htrim hframe hrelay s

end

/-- A packet with the marker of radio is a frame that comes in. -/
theorem packets_decodePacket {env : Env} {relay : ℤ → Bytes → X10M Unit} {fd : ℤ} {p : Memory}
    {n : ℕ} (hmarker : p 0 = 0x5d) (s : X10State) :
    packets (decodePacket env relay fd p n s).effects =
      packets (cm15aDecodeRf env relay fd p n s).effects := by
  have hclock : p 0 ≠ 0xa5 := by rw [hmarker]; decide
  have hplc : p 0 ≠ 0x5a := by rw [hmarker]; decide
  cases hraw : env.config.rawData with
  | false => simp only [decodePacket, hraw, if_neg hclock, if_neg hplc, if_pos hmarker]; rfl
  | true =>
    simp only [decodePacket, hraw, if_neg hclock, if_neg hplc, if_pos hmarker]
    rfl

/-! ### Radio commands -/

/-- **The packets of a radio command**: what is relayed of its frame, and the frame. -/
theorem packets_radio {c : Ctx} {fd : ℤ} {line : Bytes} {command : Command}
    {tokens rest : List Bytes} {cmd : RadioCommand}
    (hline : commandOfLine line = some (command, tokens))
    (hcmd : radioCommandOf command tokens = some (cmd, rest)) (s : X10State) :
    packets (processcommandline c fd line s).effects =
      relaysOf c.env s (Memory.ofBytes cmd.frame c.env.stack) cmd.frame.length ++
        [wire c.env cmd.frame] := by
  have hrelay : RelaysPl (relayTo c) := relaysPl_processDepth c 0
  rw [processcommandline_radio hline hcmd, X10M.bind_apply, packets_append,
    packets_eq_nil (notSent_or20ok c fd), List.nil_append, X10M.bind_apply, packets_append,
    packets_eq_nil (notSent_finish fd _), List.append_nil, rfTx, X10M.bind_apply, packets_append,
    packets_cm15aDecodeRf hrelay, or20ok_state]
  rfl

/-- **A radio command passes the relays**: its frame is held back or refused by the decoder, or
nothing is to be repeated and its house is not to be sent on. -/
def PassesRelays (env : Env) (s : X10State) (cmd : RadioCommand) : Prop :=
  cmd.Checked → heldBack env cmd.frame s = false → s.rfToRf16 = 0 ∧
    ∀ housechar pl, cmd.readBack.plCommand = some (housechar, pl) → relayed env s housechar = false

theorem relaysOf_frame {c : Ctx} {cmd : RadioCommand} (hvalid : cmd.Valid) (s : X10State) :
    relaysOf c.env s (Memory.ofBytes cmd.frame c.env.stack) cmd.frame.length = [] ↔
      PassesRelays c.env s cmd := by
  rw [relaysOf, trimMarkers_of_le cmd.length_frame]
  dsimp only
  by_cases hchecked : cmd.Checked
  · rw [rfFrame_frame hvalid hchecked, Memory.take_ofBytes]
    dsimp only
    cases hheld : heldBack c.env cmd.frame s with
    | true =>
      rw [if_pos rfl]
      exact iff_of_true rfl fun _ hnot => absurd hheld (by rw [hnot]; decide)
    | false =>
      rw [if_neg (by decide), List.append_eq_nil_iff]
      have hrepeats : ∀ tx, repeats c.env s tx = [] ↔ s.rfToRf16 = 0 := by
        intro tx
        rw [repeats]
        split
        next h => simp [h]
        next h => simpa using h
      have hsentOn : cmd.readBack.sentOn c.env s = [] ↔ ∀ housechar pl,
          cmd.readBack.plCommand = some (housechar, pl) → relayed c.env s housechar = false := by
        rw [RfFrame.sentOn]
        cases cmd.readBack.plCommand with
        | none => simp
        | some a =>
          obtain ⟨housechar, pl⟩ := a
          dsimp only
          cases hrelayed : relayed c.env s housechar with
          | true => simp [pl.sent_ne_nil, hrelayed]
          | false => simp [hrelayed]
      rw [hrepeats, hsentOn]
      exact ⟨fun h _ _ => h, fun h => h hchecked hheld⟩
  · rw [(decodeRf_unchecked hchecked s).1]
    exact iff_of_true rfl fun h => absurd h hchecked

/-! ### Received and transmitted frames -/

/-- **What is transmitted is relayed like what is received**, unless it passes the relays: a radio
command hands on its frame and nothing else exactly then. A frame that is received, accepted and
not held back is repeated exactly if the mask for that is not zero, and is sent on as the
equivalent power-line command exactly if it has one, the controller is a CM15A and its house is in
the mask; and nothing else is written. -/
theorem received_only_iff (c : Ctx) (s : X10State) :
    (∀ fd line command tokens cmd rest, commandOfLine line = some (command, tokens) →
      radioCommandOf command tokens = some (cmd, rest) →
        (packets (processcommandline c fd line s).effects = [wire c.env cmd.frame] ↔
          PassesRelays c.env s cmd)) ∧
    (∀ fd p₀ n₀ p n frame, p₀ 0 = 0x5d → trimMarkers p₀ n₀ = (p, n) → rfFrame p n = some frame →
      heldBack c.env (p.take n) s = false →
        packets (decodePacket c.env (fun fd line => do let _ ← processcommandline c fd line) fd p₀ n₀
            s).effects =
          (if s.rfToRf16 ≠ 0 then [wire c.env ((p.copy 0 [0xEB]).take n)] else []) ++
            (match frame.plCommand with
              | none => []
              | some (housechar, pl) =>
                  if c.env.cm19a = false ∧
                      s.rfToPl16 &&& (1 <<< (housechar - 0x41).toUInt16) ≠ 0 then pl.sent
                  else [])) := by
  constructor
  · intro fd line command tokens cmd rest hline hcmd
    rw [packets_radio hline hcmd, ← relaysOf_frame (radioCommandOf_valid hcmd), List.append_left_eq_self]
  · intro fd p₀ n₀ p n frame hmarker htrim hframe hheld
    have hrelay : RelaysPl (fun fd line => do let _ ← processcommandline c fd line) :=
      relaysPl_processDepth c 1
    rw [packets_decodePacket hmarker, packets_decodeRf htrim hframe hrelay, hheld,
      if_neg (by decide), repeats, RfFrame.sentOn]
    congr 1
    cases frame.plCommand with
    | none => rfl
    | some a => simp [relayed]

/-- **A client's On is sent by radio, and on the power line as well**, with the masks that the daemon
starts with. -/
theorem transmitted_relayed : ¬ ∀ c s fd line command tokens cmd rest,
    commandOfLine line = some (command, tokens) →
      radioCommandOf command tokens = some (cmd, rest) →
        packets (processcommandline c fd line s).effects = [wire c.env cmd.frame] := by
  intro hall
  have hsent := hall (.idle (.plain mochadConfigDefaults false)) .idle 4 (ascii "rf a1 on") .rf
    [ascii "A1", ascii "ON"] (.device 0 0 2) [] (by decide +kernel) (by decide +kernel)
  have hpackets : packets (processcommandline (.idle (.plain mochadConfigDefaults false)) 4
      (ascii "rf a1 on") .idle).effects =
        [[0x04, 0x66], [0x06, 0x62], [0xeb, 0x20, 0x60, 0x9f, 0x00, 0xff]] := by
    decide +kernel
  rw [hpackets] at hsent
  exact absurd (congrArg List.length hsent) (by decide)

end Mochad
