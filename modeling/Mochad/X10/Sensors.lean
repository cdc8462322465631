import Mochad.Library.Register
import Mochad.X10.Rejection
import Mochad.X10.Relay

/-!
# Security sensors

A security sensor has a short address of one byte or a long one of three, and its kind is asked for
along with the address. The table of sensors is a register of addresses, tagged with the kind: an
event looks for its address alone, so a sensor of the other kind with the same number shares the
row, and the row keeps the kind that came first.

`Watched` runs lines and packets, and notes each security frame that is acted upon. The table tells
the last function of each kind and address if no number is used by both kinds, and for the numbers
that both kinds can have that is needed (`by_kind_iff`).
-/

namespace Mochad

open X10M (Preserves gets modify)

/-! ### What is seen -/

/-- **A security frame that is acted upon**: whether its address is short, the address, and the
function. -/
abbrev Sighting := Register.Entry Bool ℕ UInt8

/-- The sighting of a frame, if it is a security frame. -/
def RfFrame.sighting : RfFrame → Option Sighting
  | short address function => some ⟨true, address.toNat, function⟩
  | long address function =>
      some ⟨false, address.1.toNat * 65536 + address.2.1.toNat * 256 + address.2.2.toNat, function⟩
  | _ => none

/-- The frame that the decoder acts upon: it is well formed, and not held back. -/
def acceptedFrame (env : Env) (s : X10State) (buf : Memory) (len : ℕ) : Option RfFrame :=
  let (p, n) := trimMarkers buf len
  if heldBack env (p.take n) s then none else rfFrame p n

/-- **What comes in**: a line of a client, or a packet of the controller. -/
inductive X10Input
  | line (c : Ctx) (fd : ℤ) (text : Bytes)
  | packet (env : Env) (c : Ctx) (buf : Memory) (len : ℕ)

namespace X10Input

/-- It is processed. -/
def run (s : X10State) : X10Input → X10State
  | line c fd text => (processcommandline c fd text s).state
  | packet env c buf len =>
      (cm15aDecode env (fun fd line => do let _ ← processcommandline c fd line) (-1) buf len s).state

/-- What reaches the radio decoder: a radio frame that is received, or the frame that is to be
transmitted. -/
def radio : X10Input → Option (Env × Memory × ℕ)
  | line c _ text => (radioCommand text).map fun a =>
      (c.env, Memory.ofBytes a.1.frame c.env.stack, a.1.frame.length)
  | packet env _ buf len =>
      if len < 4 then none
      else if env.cm19a then
        if 8 < len then none
        else some (env, Memory.ofBytes (0x5d :: buf.take len) env.stack, len + 1)
      else if buf 0 = 0x5d then some (env, buf, len)
      else none

/-- The security frame that is acted upon, if there is one. -/
def seen (s : X10State) (input : X10Input) : Option Sighting :=
  input.radio.bind fun (env, buf, len) => (acceptedFrame env s buf len).bind RfFrame.sighting

/-- The command `st 0`. -/
def ClearsSensors : X10Input → Prop
  | line _ _ text => ∃ tokens, commandOfLine text = some (.st, tokens) ∧ tokens.head? = some (ascii "0")
  | packet _ _ _ _ => False

end X10Input

/-- The X10 side, and the security frames that were acted upon, the newest first. -/
structure Watched where
  x10 : X10State
  seen : List Sighting

namespace Watched

/-- One more line or packet. -/
def step (w : Watched) (input : X10Input) : Watched :=
  ⟨input.run w.x10, (input.seen w.x10).toList ++ w.seen⟩

/-- Lines and packets in any order. -/
def run (w : Watched) (inputs : List X10Input) : Watched := inputs.foldl step w

/-- How many sensors were seen. -/
def sensors (w : Watched) : ℕ := (w.seen.map fun e => (e.tag, e.key)).toFinset.card

end Watched

/-- What is answered about a sensor whose last function is known, or that was never seen. -/
def sensorAnswer (short : Bool) (function : Option UInt8) : ℤ :=
  (function.bind fun f => if short then shortStatus f else longStatus f).getD (-1)

/-! ### The table as a register -/

/-- **The table stands for what was seen.** -/
abbrev TableKeeps (sensors : List X10Secsensor) (seen : List Sighting) : Prop :=
  Register.Keeps (·.secaddr) (fun sen => (sen.secaddr8, sen.sensorstatus)) sensors seen

/-- The same, as far as there was room. -/
abbrev TableKeepsWithin (sensors : List X10Secsensor) (seen : List Sighting) : Prop :=
  Register.KeepsWithin (maxSensors - 1) (·.secaddr) (fun sen => (sen.secaddr8, sen.sensorstatus))
    sensors seen

/-- **An event changes the row of its address**, if there is one. -/
theorem updateSensor_cases (addr now : ℕ) (status : UInt8) (sensors : List X10Secsensor) :
    (addr ∉ sensors.map (·.secaddr) ∧ updateSensor addr now status sensors = none) ∨
      ∃ before sen after, sensors = before ++ sen :: after ∧ sen.secaddr = addr ∧
        updateSensor addr now status sensors =
          some (before ++ { sen with sensorstatus := status, lastupdate := now } :: after) := by
  induction sensors with
  | nil => exact Or.inl ⟨List.not_mem_nil, rfl⟩
  | cons sen sens ih =>
    rw [updateSensor]
    by_cases h : addr = sen.secaddr
    · rw [if_pos h]
      exact Or.inr ⟨[], sen, sens, rfl, h.symm, rfl⟩
    · rw [if_neg h]
      rcases ih with ⟨hmem, hnone⟩ | ⟨before, sen', after, hrows, hkey, hsome⟩
      · refine Or.inl ⟨?_, by rw [hnone]; rfl⟩
        rw [List.map_cons]
        exact List.not_mem_cons_of_ne_of_not_mem h hmem
      · exact Or.inr ⟨sen :: before, sen', after, by rw [hrows]; rfl, hkey, by rw [hsome]; rfl⟩

/-- **What an event does to the table.** -/
theorem huaSecEvent_sensors (env : Env) (address : UInt8 × UInt8 × UInt8) (function : UInt8)
    (short : Bool) (s : X10State) {addr : ℕ}
    (haddr : addr = address.1.toNat * 65536 + address.2.1.toNat * 256 + address.2.2.toNat) :
    ∃ now, (huaSecEvent env address function short s).state.x10sensors =
      (updateSensor addr now function s.x10sensors).getD
        (if maxSensors ≤ s.x10sensors.length + 1 then s.x10sensors
          else s.x10sensors ++ [⟨addr, now, short, function⟩]) := by
  have hfound : (updateSensor addr 0 function s.x10sensors).isSome =
      (updateSensor addr (env.time s.timeReads) function s.x10sensors).isSome := by
    rcases updateSensor_cases addr 0 function s.x10sensors with
      ⟨hnew, hnone⟩ | ⟨before, sen, after, hrows, hsen, hsome⟩
    · rcases updateSensor_cases addr (env.time s.timeReads) function s.x10sensors with
        ⟨_, hnone'⟩ | ⟨_, sen', _, hrows', hsen', _⟩
      · rw [hnone, hnone']
      · exact absurd (List.mem_map.mpr ⟨sen', by rw [hrows']; simp, hsen'⟩) hnew
    · rcases updateSensor_cases addr (env.time s.timeReads) function s.x10sensors with
        ⟨hnew', _⟩ | ⟨_, _, _, _, _, hsome'⟩
      · exact absurd (List.mem_map.mpr ⟨sen, by rw [hrows]; simp, hsen⟩) hnew'
      · rw [hsome, hsome']
        rfl
  refine ⟨env.time s.timeReads, ?_⟩
  subst haddr
  show ((if (updateSensor _ 0 function s.x10sensors).isSome then _ else _ : X10M Unit) s).state.x10sensors = _
  rw [hfound]
  cases hrow : updateSensor _ (env.time s.timeReads) function s.x10sensors with
  | some rows =>
    show (updateSensor _ (env.time s.timeReads) function s.x10sensors).getD s.x10sensors = rows
    rw [hrow, Option.getD_some]
  | none =>
    rw [Option.getD_none]
    show ((if maxSensors ≤ s.x10sensors.length + 1 then _ else _ : X10M Unit) s).state.x10sensors = _
    split
    · rfl
    · rfl

/-- **An event is kept**, if there is room for its sensor. -/
theorem TableKeepsWithin.event {s : X10State} {seen : List Sighting}
    (h : TableKeepsWithin s.x10sensors seen) (env : Env) (address : UInt8 × UInt8 × UInt8)
    (function : UInt8) (short : Bool) {e : Sighting} (he : e = ⟨short,
      address.1.toNat * 65536 + address.2.1.toNat * 256 + address.2.2.toNat, function⟩) :
    TableKeepsWithin (huaSecEvent env address function short s).state.x10sensors (e :: seen) := by
  obtain ⟨now, hrun⟩ := huaSecEvent_sensors env address function short s
    (show e.key = _ by rw [he])
  rw [hrun]
  rcases updateSensor_cases e.key now function s.x10sensors with
    ⟨hnew, hnone⟩ | ⟨before, sen, after, hrows, hsen, hsome⟩
  · rw [hnone, Option.getD_none]
    split
    next hfull => exact h.full hnew (Nat.sub_le_of_le_add hfull)
    next hroom => exact h.add hnew (by omega) rfl (by rw [he])
  · rw [hsome, Option.getD_some]
    exact h.change hrows hsen hsen (by rw [he])

/-! ### What leaves the table alone -/

/-- The table of sensors is this one. -/
def SensorsAre (sensors : List X10Secsensor) (s : X10State) : Prop := s.x10sensors = sensors

theorem switchStable_sensors (sensors : List X10Secsensor) : SwitchStable (SensorsAre sensors) where
  add house unit s h := by
    rw [huaAdd]
    split
    · exact h
    split
    · exact h
    · exact h
  func house f s h := by
    rw [huaFunc_eq]
    exact h
  funcAll house f s h := h
  xdim house unit level s h := h

theorem Inert.sensors {α : Type} {m : X10M α} (h : Inert m) (sensors : List X10Secsensor) :
    Preserves (SensorsAre sensors) m := by
  intro s hs
  have hsame : (m s).state.x10sensors = s.x10sensors := congrArg (fun t => t.2.1) (h.keeps s)
  exact hsame.trans hs

/-- What a relayed line does to the table is nothing. -/
theorem relayed_sensors (c : Ctx) (n : ℕ) (fd : ℤ) {line : Bytes} (h : IsPl line)
    (sensors : List X10Secsensor) : Preserves (SensorsAre sensors) (processDepth c (n + 1) fd line) := by
  have hprocess := processWith_eq_pl c (fun fd line => do let _ ← processDepth c n fd line) fd h
  show Preserves _ (processWith c _ fd line)
  rw [hprocess]
  split
  · exact Preserves.bind (Preserves.call _) fun _ => Preserves.pure _
  · exact ((switchStable_sensors sensors).plCommand c fd _).bind fun _ => preserves_finish fd _

/-- What relays lines leaves the table alone. -/
def RelaysUnseen (relay : ℤ → Bytes → X10M Unit) : Prop :=
  ∀ fd line, IsPl line → ∀ sensors, Preserves (SensorsAre sensors) (relay fd line)

theorem relaysUnseen_processDepth (c : Ctx) (n : ℕ) :
    RelaysUnseen (fun fd line => do let _ ← processDepth c (n + 1) fd line) :=
  fun fd _ h sensors => (relayed_sensors c n fd h sensors).bind fun _ => Preserves.pure _

section

variable {env : Env} {relay : ℤ → Bytes → X10M Unit} {fd : ℤ} {buf : Memory} {len : ℕ}
  {frame : RfFrame}

theorem sendOn_sensors (hrelay : RelaysUnseen relay) (sensors : List X10Secsensor) :
    Preserves (SensorsAre sensors) (frame.sendOn env relay fd) := by
  rw [RfFrame.sendOn]
  cases hline : frame.line with
  | none => exact Preserves.pure _
  | some a =>
    exact (Preserves.gets _).bind fun _ => Preserves.ite
      (hrelay fd a.2 (RfFrame.isPl_line hline) sensors) (Preserves.pure _)

/-- **Of what is done for a frame, only the update changes the table.** -/
theorem act_sensors (hrelay : RelaysUnseen relay) (s : X10State) :
    (frame.act env relay fd buf len s).state.x10sensors = (frame.update env s).state.x10sensors := by
  have hrest : ∀ sensors, Preserves (SensorsAre sensors) (do
      mochadDispatchEvent fd (frame.event (buf 0))
      repeatRF env fd buf len
      frame.sendOn env relay fd : X10M Unit) := fun sensors =>
    (preserves_dispatch _ _).bind fun _ => (preserves_repeatRF _ _ _ _).bind fun _ =>
      sendOn_sensors hrelay sensors
  exact hrest _ _ rfl

/-- **What a frame does to the table** is to add its sighting. -/
theorem TableKeepsWithin.update {s : X10State} {seen : List Sighting}
    (h : TableKeepsWithin s.x10sensors seen) (env : Env) (frame : RfFrame) :
    TableKeepsWithin (frame.update env s).state.x10sensors (frame.sighting.toList ++ seen) := by
  have hswitch := switchStable_sensors s.x10sensors
  cases frame with
  | camera | dim => exact h
  | switch housechar unit func =>
    have hsame : ((RfFrame.switch housechar unit func).update env s).state.x10sensors = s.x10sensors :=
      Preserves.bind (Preserves.modify (hswitch.add (houseIndex housechar) ((unit : ℤ) - 1)))
        (fun _ => Preserves.modify (hswitch.func (houseIndex housechar) (if func ≠ 0 then 0x30 else 0x31)))
        s rfl
    rw [hsame]
    exact h
  | short address function => exact h.event env (0, 0, address) function true (by simp)
  | long address function => exact h.event env address function false rfl

/-- **A radio frame** adds what the decoder acts upon. -/
theorem TableKeepsWithin.decodeRf {s : X10State} {seen : List Sighting}
    (h : TableKeepsWithin s.x10sensors seen) (hrelay : RelaysUnseen relay) (fd : ℤ) {buf₀ : Memory} {len₀ : ℕ} {added : List Sighting}
    (hadded : added = ((acceptedFrame env s buf₀ len₀).bind RfFrame.sighting).toList) :
    TableKeepsWithin (cm15aDecodeRf env relay fd buf₀ len₀ s).state.x10sensors (added ++ seen) := by
  subst hadded
  rcases htrim : trimMarkers buf₀ len₀ with ⟨p, n⟩
  simp only [acceptedFrame, htrim]
  cases hframe : rfFrame p n with
  | none =>
    have hsame : (cm15aDecodeRf env relay fd buf₀ len₀ s).state.x10sensors = s.x10sensors :=
      (inert_decodeRf_rejected htrim hframe).sensors s.x10sensors s rfl
    rw [hsame, ite_self]
    exact h
  | some frame =>
    obtain ⟨dups, m, happly⟩ := cm15aDecodeRf_apply env relay fd htrim hframe s
    rw [happly]
    cases hheld : heldBack env (p.take n) s with
    | true =>
      rw [if_pos rfl, if_pos rfl]
      exact h
    | false =>
      rw [if_neg (by decide), if_neg (by decide), act_sensors hrelay]
      have hkept : TableKeepsWithin { s with dups := dups, timemsReads := m }.x10sensors seen := h
      exact hkept.update env frame

/-- A packet without the marker of radio leaves the table alone. -/
theorem decodePacket_sensors {p : Memory} (hmarker : p 0 ≠ 0x5d) (n : ℕ)
    (sensors : List X10Secsensor) :
    Preserves (SensorsAre sensors) (decodePacket env relay fd p n) := by
  have hclock : Preserves (SensorsAre sensors) (setClock env) :=
    ((Inert.timeNow env).sensors sensors).bind fun _ => Preserves.call _
  have hframe : Preserves (SensorsAre sensors)
      (if p 0 = 0xa5 then setClock env
        else if p 0 = 0x5a then cm15aDecodePlc fd p n
        else if p 0 = 0x5d then cm15aDecodeRf env relay fd p n
        else pure ()) := by
    rw [if_neg hmarker]
    exact Preserves.ite hclock (Preserves.ite ((switchStable_sensors sensors).decodePlc _ _ _)
      (Preserves.pure _))
  exact Preserves.ite (Preserves.bind (Preserves.call _) fun _ => hframe) hframe

/-- A packet with it is a radio frame. -/
theorem decodePacket_state {p : Memory} (hmarker : p 0 = 0x5d) (n : ℕ) (s : X10State) :
    (decodePacket env relay fd p n s).state = (cm15aDecodeRf env relay fd p n s).state := by
  have hclock : p 0 ≠ 0xa5 := by rw [hmarker]; decide
  have hplc : p 0 ≠ 0x5a := by rw [hmarker]; decide
  cases hraw : env.config.rawData with
  | false => simp only [decodePacket, hraw, if_neg hclock, if_neg hplc, if_pos hmarker]; rfl
  | true => simp only [decodePacket, hraw, if_neg hclock, if_neg hplc, if_pos hmarker]; rfl

end

/-! ### Lines and packets -/

/-- **A line that is not a radio command** leaves the rows as they are, or sorts them. -/
theorem line_sensors {c : Ctx} {fd : ℤ} {text : Bytes} (hradio : radioCommand text = none)
    (hclear : ¬(X10Input.line c fd text).ClearsSensors) (s : X10State) :
    s.x10sensors.Perm (processcommandline c fd text s).state.x10sensors := by
  have hsame : ∀ {m : X10M ℤ}, Preserves (SensorsAre s.x10sensors) m →
      s.x10sensors.Perm (m s).state.x10sensors := fun hm => List.Perm.of_eq (hm s rfl).symm
  cases hline : commandOfLine text with
  | none =>
    have hinert : Inert (processcommandline c fd text) := inert_of_commandOfLine_eq_none hline
    exact hsame (hinert.sensors _)
  | some a =>
    obtain ⟨command, tokens⟩ := a
    rw [radioCommand, hline] at hradio
    rw [processcommandline_of_line hline]
    have hfinish : ∀ {m : X10M Flow}, Preserves (SensorsAre s.x10sensors) m →
        s.x10sensors.Perm ((m >>= finish fd) s).state.x10sensors :=
      fun hm => hsame (hm.bind fun flow => preserves_finish fd flow)
    have hok : Preserves (SensorsAre s.x10sensors) (or20ok c fd) := preserves_or20ok c fd
    have hmask : ∀ {f : X10State → X10State}, (∀ t, (f t).x10sensors = t.x10sensors) →
        Preserves (SensorsAre s.x10sensors) (modify f) :=
      fun hf => Preserves.modify fun t ht => (hf t).trans ht
    by_cases hcommand : command = .rf ∨ command = .rfsec ∨ command = .rfcam
    · exact hfinish ((inert_of_radioCommandOf_eq_none hcommand hradio).sensors _)
    by_cases hpl : command = .pl
    · subst hpl
      exact hfinish ((switchStable_sensors _).plCommand c fd tokens)
    by_cases hpt : command = .pt
    · subst hpt
      refine hfinish (hok.bind fun _ => ?_)
      split
      · exact Preserves.pure _
      · exact Preserves.pure _
      · exact Preserves.bind (Preserves.call _) fun _ => Preserves.pure _
    by_cases hrftopl : command = .rftopl
    · subst hrftopl
      refine hfinish (hok.bind fun _ => ?_)
      exact (hmask (by intro; rfl)).bind fun _ => Preserves.bind (Preserves.call _) fun _ =>
        Preserves.pure _
    by_cases hrftorf : command = .rftorf
    · subst hrftorf
      have hreply : Preserves (SensorsAre s.x10sensors) (rftorfReply fd) :=
        (Preserves.gets _).bind fun _ => Preserves.call _
      refine hfinish (hok.bind fun _ => ?_)
      split
      · exact hreply.bind fun _ => Preserves.pure _
      split
      · exact Preserves.pure _
      · exact (hmask (by intro; rfl)).bind fun _ => hreply.bind fun _ => Preserves.pure _
    by_cases hst : command = .st
    · subst hst
      have hshow : stCommand c fd tokens =
          (huaShow c.env fd >>= fun _ => pure (.rest tokens.tail)) :=
        if_neg fun harg => hclear ⟨tokens, hline, harg⟩
      have htables := (huaShow_spec c.env fd s).2
      have hsorted : ((stCommand c fd tokens >>= finish fd) s).state.x10sensors =
          (sortSensors s).x10sensors := by
        rw [X10M.bind_apply]
        show (finish fd _ _).state.x10sensors = _
        rw [finish_state, hshow]
        generalize huaShow c.env fd = m at htables
        exact congrArg (fun t => t.2.1) htables
      show s.x10sensors.Perm ((stCommand c fd tokens >>= finish fd) s).state.x10sensors
      rw [hsorted]
      exact (List.perm_insertionSort _ _).symm
    · exact hfinish ((inert_answers hpl hcommand hpt hrftopl hrftorf hst tokens).sensors _)

/-- **One line or packet.** -/
theorem TableKeepsWithin.input {s : X10State} {seen : List Sighting}
    (h : TableKeepsWithin s.x10sensors seen) {i : X10Input} (hclear : ¬i.ClearsSensors) :
    TableKeepsWithin (i.run s).x10sensors ((i.seen s).toList ++ seen) := by
  cases i with
  | line c fd text =>
    cases hradio : radioCommand text with
    | none =>
      have hseen : (X10Input.line c fd text).seen s = none := by
        simp only [X10Input.seen, X10Input.radio, hradio, Option.map_none, Option.bind_none]
      rw [hseen]
      exact h.perm (line_sensors hradio hclear s)
    | some a =>
      obtain ⟨cmd, rest⟩ := a
      have hseen : (X10Input.line c fd text).seen s = (acceptedFrame c.env s
          (Memory.ofBytes cmd.frame c.env.stack) cmd.frame.length).bind RfFrame.sighting := by
        simp only [X10Input.seen, X10Input.radio, hradio, Option.map_some, Option.bind_some]
      obtain ⟨⟨command, tokens⟩, hline, hcmd⟩ := Option.bind_eq_some_iff.mp hradio
      have hrelay : RelaysUnseen (relayTo c) := relaysUnseen_processDepth c 0
      have hrun : (processcommandline c fd text s).state.x10sensors =
          (cm15aDecodeRf c.env (relayTo c) (-1) (Memory.ofBytes cmd.frame c.env.stack)
            cmd.frame.length s).state.x10sensors := by
        rw [processcommandline_radio hline hcmd, X10M.bind_apply, X10M.bind_apply]
        show (finish fd (.rest rest) _).state.x10sensors = _
        rw [finish_state, or20ok_state]
        rfl
      rw [hseen]
      show TableKeepsWithin (processcommandline c fd text s).state.x10sensors _
      rw [hrun]
      exact h.decodeRf hrelay (-1) rfl
  | packet env c buf len =>
    have hrelay : RelaysUnseen (fun fd line => do let _ ← processcommandline c fd line) :=
      relaysUnseen_processDepth c 1
    show TableKeepsWithin (cm15aDecode env _ (-1) buf len s).state.x10sensors _
    have hradio : ∀ p n, (p : Memory) 0 = 0x5d → (X10Input.packet env c buf len).radio = some (env, p, n) →
        cm15aDecode env (fun fd line => do let _ ← processcommandline c fd line) (-1) buf len =
          decodePacket env (fun fd line => do let _ ← processcommandline c fd line) (-1) p n →
        TableKeepsWithin (cm15aDecode env (fun fd line => do let _ ← processcommandline c fd line) (-1) buf len
          s).state.x10sensors (((X10Input.packet env c buf len).seen s).toList ++ seen) := by
      intro p n hmarker hradio hrun
      have hseen : (X10Input.packet env c buf len).seen s =
          (acceptedFrame env s p n).bind RfFrame.sighting := by
        rw [X10Input.seen, hradio]
        rfl
      rw [hseen]
      rw [hrun, decodePacket_state hmarker]
      exact h.decodeRf hrelay (-1) rfl
    have hother : (X10Input.packet env c buf len).radio = none →
        Preserves (SensorsAre s.x10sensors)
          (cm15aDecode env (fun fd line => do let _ ← processcommandline c fd line) (-1) buf len) →
        TableKeepsWithin (cm15aDecode env (fun fd line => do let _ ← processcommandline c fd line) (-1) buf len
          s).state.x10sensors (((X10Input.packet env c buf len).seen s).toList ++ seen) := by
      intro hradio hkeep
      have hseen : (X10Input.packet env c buf len).seen s = none := by
        rw [X10Input.seen, hradio]
        rfl
      rw [hseen, hkeep s rfl]
      exact h
    by_cases hshort : len < 4
    · exact hother (if_pos hshort) (by rw [cm15aDecode, if_pos hshort]; exact Preserves.pure _)
    cases hcm19a : env.cm19a with
    | true =>
      by_cases hlong : 8 < len
      · refine hother ?_ ?_
        · simp only [X10Input.radio, if_neg hshort, hcm19a, if_pos hlong, if_true]
        · simp only [cm15aDecode, if_neg hshort, hcm19a, if_pos hlong, if_true]
          exact Preserves.pure _
      · refine hradio (Memory.ofBytes (0x5d :: buf.take len) env.stack) (len + 1) rfl ?_ ?_
        · simp only [X10Input.radio, if_neg hshort, hcm19a, if_neg hlong, if_true]
        · simp only [cm15aDecode, if_neg hshort, hcm19a, if_neg hlong, if_true]
    | false =>
      have hrun : cm15aDecode env (fun fd line => do let _ ← processcommandline c fd line) (-1) buf len =
          decodePacket env (fun fd line => do let _ ← processcommandline c fd line) (-1) buf len := by
        rw [cm15aDecode, if_neg hshort, hcm19a]
        rfl
      by_cases hmarker : buf 0 = 0x5d
      · refine hradio buf len hmarker ?_ hrun
        simp [X10Input.radio, hshort, hcm19a, hmarker]
      · refine hother ?_ (hrun ▸ decodePacket_sensors hmarker len s.x10sensors)
        simp [X10Input.radio, hshort, hcm19a, hmarker]

/-! ### Histories -/

namespace Watched

/-- There are no more addresses than sensors. -/
theorem number_le (w : Watched) : Register.number w.seen ≤ w.sensors := by
  have himage : (w.seen.map (·.key)).toFinset =
      (w.seen.map fun e => (e.tag, e.key)).toFinset.image Prod.snd := by
    ext k
    simp
  rw [Register.number, himage]
  exact Finset.card_image_le

/-- **The table keeps what was seen**, as far as there was room. -/
theorem keepsWithin_run {w : Watched} (h : TableKeepsWithin w.x10.x10sensors w.seen)
    {inputs : List X10Input} (hclear : ∀ i ∈ inputs, ¬i.ClearsSensors) :
    TableKeepsWithin (w.run inputs).x10.x10sensors (w.run inputs).seen := by
  induction inputs generalizing w with
  | nil => exact h
  | cons i inputs ih =>
    have hstep : TableKeepsWithin (w.step i).x10.x10sensors (w.step i).seen :=
      h.input (hclear i List.mem_cons_self)
    exact ih hstep (fun j hj => hclear j (List.mem_cons_of_mem i hj))

end Watched

/-- An empty table keeps that nothing was seen. -/
theorem tableKeepsWithin_nil {s : X10State} (h : s.x10sensors = []) :
    TableKeepsWithin s.x10sensors [] := by
  rw [h]
  exact Register.KeepsWithin.nil _ _ _

/-- What the row of a sensor of a kind tells, if it was first seen with a kind. -/
def kindStatus (short : Bool) (row : Bool × UInt8) : Option ℤ :=
  if row.1 = short then (if short then shortStatus row.2 else longStatus row.2) else none

/-- Asking is a scan for the address. -/
theorem huaGetstatusSec_scan (s : X10State) (short : Bool) (addr : ℕ) :
    huaGetstatusSec s short addr = (s.x10sensors.findSome? fun sen =>
      if sen.secaddr = addr then kindStatus short (sen.secaddr8, sen.sensorstatus)
      else none).getD (-1) := by
  rw [huaGetstatusSec]
  congr 2
  funext sen
  by_cases haddr : sen.secaddr = addr
  · cases short <;> cases sen.secaddr8 <;> simp [kindStatus, haddr]
  · simp [haddr, Ne.symm haddr]

/-- **What the table tells** where no number is used by both kinds. -/
theorem huaGetstatusSec_eq {s : X10State} {seen : List Sighting} (h : TableKeeps s.x10sensors seen)
    (hapart : Register.Apart seen) (short : Bool) (addr : ℕ) :
    huaGetstatusSec s short addr = sensorAnswer short (Register.last seen short addr) := by
  rw [huaGetstatusSec_scan, h.findSome?_eq addr (kindStatus short), Register.last_eq hapart,
    sensorAnswer, Option.bind_assoc]
  congr 2
  funext r
  by_cases hkind : r.1 = short
  · simp [kindStatus, hkind]
  · simp [kindStatus, hkind]

/-- The address of a sensor of a kind, as it is received: one byte, or three of which the last two
have even parity. -/
def Sighting.Received (e : Sighting) : Prop :=
  if e.tag then ∃ b : UInt8, e.key = b.toNat
  else ∃ a₁ a₂ a₃ : UInt8, e.key = a₁.toNat * 65536 + a₂.toNat * 256 + a₃.toNat ∧
    oddParity (a₂ ^^^ a₃) = false

/-- A long address has even parity. -/
theorem even_of_frame {p : Memory} {n : ℕ} {address : UInt8 × UInt8 × UInt8} {function : UInt8}
    (h : rfFrame p n = some (.long address function)) :
    oddParity (address.2.1 ^^^ address.2.2) = false := by
  have hstandard : ∀ x : UInt8 × ℕ × ℕ,
      (if 1 < x.2.2 then RfFrame.dim x.1 x.2.2 else .switch x.1 x.2.1 x.2.2) ≠ .long address function := by
    intro x
    split
    · exact fun heq => nomatch heq
    · exact fun heq => nomatch heq
  rw [rfFrame] at h
  split at h
  · cases h
  split at h
  · obtain ⟨_, _, hcamera⟩ := Option.map_eq_some_iff.mp h
    cases hcamera
  split at h
  · split at h
    · split at h
      · cases h
      · cases Option.some.inj h
    split at h
    · split at h
      · cases h
      · exact absurd (Option.some.inj h) (hstandard (hufcDecode (p 2) (p 4)))
    · cases h
  split at h
  · cases hsec : secafDecode p n with
    | error e =>
      rw [hsec] at h
      cases h
    | ok a =>
      rw [hsec] at h
      obtain ⟨rfl, rfl⟩ := RfFrame.long.inj (Option.some.inj h)
      rw [secafDecode] at hsec
      split at hsec
      · cases hsec
      split at hsec
      · cases hsec
      split at hsec
      · cases hsec
      next hparity =>
        obtain rfl := Except.ok.inj hsec
        simpa using hparity
  · cases h

/-- **An accepted frame has such an address.** -/
theorem received_of_seen {s : X10State} {i : X10Input} {e : Sighting} (h : i.seen s = some e) :
    Sighting.Received e := by
  obtain ⟨⟨env, buf, len⟩, -, hseen⟩ := Option.bind_eq_some_iff.mp h
  obtain ⟨frame, hframe, hsighting⟩ := Option.bind_eq_some_iff.mp hseen
  have haccepted : rfFrame (trimMarkers buf len).1 (trimMarkers buf len).2 = some frame := by
    simp only [acceptedFrame] at hframe
    split at hframe
    · cases hframe
    · exact hframe
  cases frame with
  | camera | dim | switch => cases hsighting
  | short address function =>
    obtain rfl := Option.some.inj hsighting
    exact ⟨address, rfl⟩
  | long address function =>
    obtain rfl := Option.some.inj hsighting
    exact ⟨address.1, address.2.1, address.2.2, rfl, even_of_frame haccepted⟩

theorem Watched.received {w : Watched} (h : ∀ e ∈ w.seen, Sighting.Received e)
    (inputs : List X10Input) : ∀ e ∈ (w.run inputs).seen, Sighting.Received e := by
  induction inputs generalizing w with
  | nil => exact h
  | cons i inputs ih =>
    refine ih fun e he => ?_
    rcases List.mem_append.mp he with he | he
    · exact received_of_seen (Option.mem_toList.mp he)
    · exact h e he

/-- The numbers that sensors of both kinds can have. -/
def Shared (sensors : Set (Bool × ℕ)) (b : UInt8) : Prop :=
  oddParity b = false ∧ (true, b.toNat) ∈ sensors ∧ (false, b.toNat) ∈ sensors

/-- Sensors that share no number are kept apart. -/
theorem apart_of_not_shared {sensors : Set (Bool × ℕ)} (h : ∀ b, ¬Shared sensors b)
    {seen : List Sighting} (hreceived : ∀ e ∈ seen, Sighting.Received e)
    (hsensors : ∀ e ∈ seen, (e.tag, e.key) ∈ sensors) : Register.Apart seen := by
  have hmixed : ∀ e ∈ seen, ∀ e' ∈ seen, e.key = e'.key → e.tag = true → e'.tag = false → False := by
    intro e he e' he' hkey htag htag'
    have hshort := hreceived e he
    have hlong := hreceived e' he'
    rw [Sighting.Received, if_pos htag] at hshort
    rw [Sighting.Received, if_neg (by rw [htag']; decide)] at hlong
    obtain ⟨b, hb⟩ := hshort
    obtain ⟨a₁, a₂, a₃, haddr, hparity⟩ := hlong
    have hb256 := b.toNat_lt
    have h₂ : a₂ = 0 := UInt8.toNat_inj.mp (show a₂.toNat = 0 by omega)
    have h₃ : a₃ = b := UInt8.toNat_inj.mp (by omega)
    rw [h₂, h₃, UInt8.zero_xor] at hparity
    refine h b ⟨hparity, ?_, ?_⟩
    · have hmem := hsensors e he
      rwa [htag, hb] at hmem
    · have hmem := hsensors e' he'
      rwa [htag', ← hkey, hb] at hmem
  intro e he e' he' hkey
  cases htag : e.tag with
  | true =>
    cases htag' : e'.tag with
    | true => rfl
    | false => exact (hmixed e he e' he' hkey htag htag').elim
  | false =>
    cases htag' : e'.tag with
    | true => exact (hmixed e' he' e he hkey.symm htag' htag).elim
    | false => rfl

/-- A long frame and a short one with the same number, both of which report an alert. -/
def sameNumber (b : UInt8) : List X10Input :=
  let env := Env.plain mochadConfigDefaults false
  [.packet env (.idle env) (Memory.ofBytes [0x5d, 0x29, 0x00, 0x0f, 0x04, 0xfb, 0x00, b] 0) 8,
    .packet env (.idle env) (Memory.ofBytes [0x5d, 0x20, b, b ^^^ 0x0f, 0x04, 0xfb] 0) 6]

/-- **The second is not found**, for the row is that of a long address. -/
theorem run_sameNumber (b : UInt8) (h : oddParity b = false) :
    (Watched.run ⟨.idle, []⟩ (sameNumber b)).seen =
        [⟨true, b.toNat, 0x04⟩, ⟨false, b.toNat, 0x04⟩] ∧
      huaGetstatusSec (Watched.run ⟨.idle, []⟩ (sameNumber b)).x10 true b.toNat = -1 := by
  revert b
  exact forall_byte (by decide +kernel)

/-- **Sensors are told apart by kind and address exactly if none of them share a number that both
kinds can have**: whatever lines and packets come in, except `st 0`, the answer about a sensor is
that of the last function that was received or transmitted of its kind and address. -/
theorem by_kind_iff (sensors : Set (Bool × ℕ)) :
    (∀ s inputs, s.x10sensors = [] → (∀ i ∈ inputs, ¬i.ClearsSensors) →
        (∀ e ∈ (Watched.run ⟨s, []⟩ inputs).seen, (e.tag, e.key) ∈ sensors) →
        (Watched.run ⟨s, []⟩ inputs).sensors ≤ 511 →
        ∀ short addr, huaGetstatusSec (Watched.run ⟨s, []⟩ inputs).x10 short addr =
          sensorAnswer short (Register.last (Watched.run ⟨s, []⟩ inputs).seen short addr)) ↔
      ∀ b, ¬Shared sensors b := by
  constructor
  · rintro hall b ⟨hparity, hshort, hlong⟩
    obtain ⟨hseen, hanswer⟩ := run_sameNumber b hparity
    have htold := hall .idle (sameNumber b) rfl ?_ ?_ ?_ true b.toNat
    · rw [hseen, hanswer] at htold
      simp [sensorAnswer, Register.last, shortStatus] at htold
    · intro i hi
      rcases List.mem_cons.mp hi with rfl | hi
      · exact id
      · rw [List.mem_singleton.mp hi]
        exact id
    · intro e he
      rw [hseen] at he
      rcases List.mem_cons.mp he with rfl | he
      · exact hshort
      · rw [List.mem_singleton.mp he]
        exact hlong
    · rw [Watched.sensors, hseen]
      exact le_trans (List.toFinset_card_le _) (by decide : 2 ≤ 511)
  · intro h s inputs hempty hclear hsensors hroom short addr
    have hwithin := Watched.keepsWithin_run (w := ⟨s, []⟩) (tableKeepsWithin_nil hempty) hclear
    have hkept := hwithin.keeps (le_trans (Watched.number_le _) hroom)
    have hreceived := Watched.received (w := ⟨s, []⟩) (fun e he => by cases he) inputs
    exact huaGetstatusSec_eq hkept (apart_of_not_shared h hreceived hsensors) short addr

/-- **A door is open, and the answer is that nothing is known**: the sensor `03` reports after one
with the long address `000003`. -/
theorem hidden_by_other_kind : ¬ ∀ s inputs, s.x10sensors = [] → (∀ i ∈ inputs, ¬i.ClearsSensors) →
    (Watched.run ⟨s, []⟩ inputs).sensors ≤ 511 →
    ∀ short addr, huaGetstatusSec (Watched.run ⟨s, []⟩ inputs).x10 short addr =
      sensorAnswer short (Register.last (Watched.run ⟨s, []⟩ inputs).seen short addr) := by
  intro hall
  obtain ⟨hseen, hanswer⟩ := run_sameNumber 0x03 (by decide)
  have htold := hall .idle (sameNumber 0x03) rfl ?_ ?_ true 0x03
  · rw [hseen] at htold
    exact absurd (hanswer.symm.trans htold) (by decide)
  · intro i hi
    rcases List.mem_cons.mp hi with rfl | hi
    · exact id
    · rw [List.mem_singleton.mp hi]
      exact id
  · rw [Watched.sensors, hseen]
    exact le_trans (List.toFinset_card_le _) (by decide : 2 ≤ 511)

end Mochad
