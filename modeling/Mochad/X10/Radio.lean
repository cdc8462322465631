import Mochad.X10.Stable

/-!
# Radio frames

`cm15a_decode_rf` accepts a frame or rejects it (`rfFrame`); an accepted one is held back
if the duplicate filter knows it (`heldBack`), and is acted upon otherwise: the tables
are updated, the event is reported, the frame is repeated, and it may be relayed.
-/

namespace Mochad

open X10M (Preserves gets modify)

/-! ### Accepted frames -/

/-- **An accepted frame.** -/
inductive RfFrame
  | camera (command : Bytes)
  | short (address function : UInt8)
  /-- A house's Dim or Bright. -/
  | dim (housechar : UInt8) (func : ℕ)
  /-- A unit's On or Off. -/
  | switch (housechar : UInt8) (unit func : ℕ)
  | long (address : UInt8 × UInt8 × UInt8) (function : UInt8)
  deriving DecidableEq

/-- What a frame is accepted as. -/
def rfFrame (buf : Memory) (len : ℕ) : Option RfFrame :=
  if len < 5 ∨ 8 < len then none
  else if buf 1 = 0x14 then (findCamRemoteName (fun i => buf (i + 1)) (len - 1)).map .camera
  else if buf 1 = 0x20 then
    if buf 2 ^^^ buf 3 = 0x0f then
      if buf 4 ^^^ buf 5 ≠ 0xff then none else some (.short (buf 2) (buf 4))
    else if buf 2 ^^^ buf 3 = 0xff then
      if buf 4 ^^^ buf 5 ≠ 0xff ∧ buf 4 ^^^ buf 5 ≠ 0xfb then none
      else
        let (housechar, unitint, funcint) := hufcDecode (buf 2) (buf 4)
        some (if 1 < funcint then .dim housechar funcint else .switch housechar unitint funcint)
    else none
  else if buf 1 = 0x29 then
    match secafDecode buf len with
    | .ok (secaddr, funcint) => some (.long secaddr funcint)
    | .error _ => none
  else none

namespace RfFrame

variable (env : Env) (relay : ℤ → Bytes → X10M Unit)

/-- Its event. -/
def event (marker : UInt8) : RfFrame → MochadEvent
  | camera command =>
      { direction := rfDirection marker, transport := .rfcam, detail := .rfcam,
        cameraCommand := some command }
  | short address function =>
      { direction := rfDirection marker, transport := .rfsec, detail := .rfsecShort,
        securityShortAddr := address.toNat, function := findSecRemoteKeyName function }
  | dim housechar func =>
      { direction := rfDirection marker, transport := .rf, detail := .house, house := housechar,
        function := funcnameAt (func + 2) }
  | switch housechar unit func =>
      { direction := rfDirection marker, transport := .rf, detail := .houseUnit,
        house := housechar, unit := unit, function := funcnameAt (func + 2) }
  | long address function =>
      { direction := rfDirection marker, transport := .rfsec, detail := .rfsecLong,
        securityLongAddr := address, function := findSecEventName function }

/-- What it does to the tables. -/
def update : RfFrame → X10M Unit
  | camera _ => pure ()
  | short address function => huaSecEvent env (0, 0, address) function true
  | dim _ _ => pure ()
  | switch housechar unit func => do
      modify (huaAdd (houseIndex housechar) ((unit : ℤ) - 1))
      modify (huaFunc (houseIndex housechar) (if func ≠ 0 then 0x30 else 0x31))
  | long address function => huaSecEvent env address function false

/-- The power-line command that it is sent on as. -/
def line : RfFrame → Option (UInt8 × Bytes)
  | dim housechar func =>
      some (housechar, ascii "PL " ++ [housechar] ++ ascii " " ++ fmtStr (funcnameAt (func + 2)))
  | switch housechar unit func =>
      some (housechar, ascii "PL " ++ [housechar] ++ fmtNat unit ++ ascii " " ++
        fmtStr (funcnameAt (func + 2)))
  | _ => none

/-- It is sent on, if it has a command and its house is to be relayed. -/
def sendOn (fd : ℤ) (frame : RfFrame) : X10M Unit :=
  match frame.line with
  | none => pure ()
  | some (housechar, line) => do
      let on ← gets fun s => Mochad.relayed env s housechar
      if on then relay fd line else pure ()

/-- **What is done for an accepted frame** that is not held back. -/
def act (fd : ℤ) (buf : Memory) (len : ℕ) (frame : RfFrame) : X10M Unit := do
  frame.update env
  mochadDispatchEvent fd (frame.event (buf 0))
  repeatRF env fd buf len
  frame.sendOn env relay fd

end RfFrame

variable {env : Env} {relay : ℤ → Bytes → X10M Unit} {fd : ℤ} {buf : Memory} {len : ℕ}
  {frame : RfFrame}

/-- A frame that is not held back is acted upon. -/
theorem decodeRfCamera_of_frame {command : Bytes}
    (h : findCamRemoteName (fun i => buf (i + 1)) (len - 1) = some command) :
    decodeRfCamera env fd buf len = (do
      if ← dupFilter env (buf.take len) then pure ()
      else (RfFrame.camera command).act env relay fd buf len) := by
  simp only [decodeRfCamera, h, RfFrame.act, RfFrame.update, RfFrame.sendOn, RfFrame.line,
    pure_bind, bind_pure_unit]
  rfl

theorem decodeRfShort_of_frame (h : buf 4 ^^^ buf 5 = 0xff) :
    decodeRfShort env fd buf len = (do
      if ← dupFilter env (buf.take len) then pure ()
      else (RfFrame.short (buf 2) (buf 4)).act env relay fd buf len) := by
  simp only [decodeRfShort, h, RfFrame.act, RfFrame.update, RfFrame.sendOn, RfFrame.line,
    ne_eq, not_true_eq_false, if_false, bind_pure_unit]
  rfl

theorem decodeRfDim_eq (housechar : UInt8) (func : ℕ) :
    decodeRfDim env relay fd buf len housechar (funcnameAt (func + 2)) =
      (RfFrame.dim housechar func).act env relay fd buf len := by
  simp only [decodeRfDim, RfFrame.act, RfFrame.update, RfFrame.sendOn, RfFrame.line, pure_bind]
  rfl

theorem decodeRfSwitch_eq (housechar : UInt8) (unit func : ℕ) :
    decodeRfSwitch env relay fd buf len housechar unit (func ≠ 0) (funcnameAt (func + 2)) =
      (RfFrame.switch housechar unit func).act env relay fd buf len := by
  have hfunc : (if func ≠ 0 then huaFuncOff (houseIndex housechar)
      else huaFuncOn (houseIndex housechar)) =
        huaFunc (houseIndex housechar) (if func ≠ 0 then 0x30 else 0x31) := by
    split
    · rfl
    · rfl
  simp only [decodeRfSwitch, decide_eq_true_eq, hfunc, RfFrame.act, RfFrame.update,
    RfFrame.sendOn, RfFrame.line, bind_assoc]
  rfl

theorem decodeRfLong_of_frame {secaddr : UInt8 × UInt8 × UInt8} {funcint : UInt8}
    (h : secafDecode buf len = .ok (secaddr, funcint)) :
    decodeRfLong env fd buf len = (do
      if ← dupFilter env (buf.take len) then pure ()
      else (RfFrame.long secaddr funcint).act env relay fd buf len) := by
  simp only [decodeRfLong, h, RfFrame.act, RfFrame.update, RfFrame.sendOn, RfFrame.line,
    bind_pure_unit]
  rfl

/-- The standard frames. -/
theorem decodeRfStandard_of_frame (hlen : ¬(len < 5 ∨ 8 < len)) (htype : buf 1 = 0x20)
    (h : rfFrame buf len = some frame) :
    decodeRfStandard env relay fd buf len = (do
      if ← dupFilter env (buf.take len) then pure () else frame.act env relay fd buf len) := by
  rw [rfFrame, if_neg hlen, htype, if_neg (by decide), if_pos rfl] at h
  rw [decodeRfStandard]
  split at h
  next hsum =>
    split at h
    · cases h
    next hok =>
      obtain rfl := Option.some.inj h
      rw [if_pos hsum]
      exact decodeRfShort_of_frame (not_not.mp hok)
  next hsum =>
    split at h
    next hsum' =>
      split at h
      · cases h
      next hok =>
        simp only [if_neg hsum, if_pos hsum', if_neg hok]
        generalize hufcDecode (buf 2) (buf 4) = fields at h ⊢
        obtain ⟨housechar, unit, func⟩ := fields
        obtain rfl := Option.some.inj h
        by_cases hfunc : 1 < func
        · simp only [if_pos hfunc, decodeRfDim_eq]
        · simp only [if_neg hfunc, decodeRfSwitch_eq]
    · cases h

/-- **An accepted frame is held back or acted upon.** -/
theorem cm15aDecodeRf_of_frame {buf₀ : Memory} {len₀ : ℕ} (htrim : trimMarkers buf₀ len₀ = (buf, len))
    (h : rfFrame buf len = some frame) :
    cm15aDecodeRf env relay fd buf₀ len₀ = (do
      if ← dupFilter env (buf.take len) then pure () else frame.act env relay fd buf len) := by
  by_cases hlen : len < 5 ∨ 8 < len
  · rw [rfFrame, if_pos hlen] at h
    cases h
  obtain ⟨hshort, hlong⟩ := not_or.mp hlen
  simp only [cm15aDecodeRf, htrim, if_neg hshort, if_neg hlong]
  by_cases hcamera : buf 1 = 0x14
  · rw [rfFrame, if_neg hlen, if_pos hcamera] at h
    obtain ⟨command, hname, rfl⟩ := Option.map_eq_some_iff.mp h
    rw [if_pos hcamera]
    exact decodeRfCamera_of_frame hname
  by_cases hstandard : buf 1 = 0x20
  · rw [if_neg hcamera, if_pos hstandard]
    exact decodeRfStandard_of_frame hlen hstandard h
  by_cases hlongaddr : buf 1 = 0x29
  · rw [rfFrame, if_neg hlen, if_neg hcamera, if_neg hstandard, if_pos hlongaddr] at h
    rw [if_neg hcamera, if_neg hstandard, if_pos hlongaddr]
    cases hsec : secafDecode buf len with
    | error e =>
      rw [hsec] at h
      cases h
    | ok a =>
      rw [hsec] at h
      obtain rfl := Option.some.inj h
      exact decodeRfLong_of_frame hsec
  · rw [rfFrame, if_neg hlen, if_neg hcamera, if_neg hstandard, if_neg hlongaddr] at h
    cases h

/-! ### The duplicate filter -/

/-- An X10 side that has seen nothing yet. -/
def X10State.idle : X10State :=
  ⟨fun _ _ => 0, fun _ _ => 0, fun _ _ => 0, fun _ => 0, [], 0xFFFF, 0, dupsInit, 0, 0⟩

/-- What `get_timems` reads. -/
def timemsAt (env : Env) (n : ℕ) : ℕ :=
  let ts := env.clockMonotonic n
  ((Int.bmod (ts.tvSec * 1000) (2 ^ env.timeWidth) + ts.tvNsec.tdiv 1000000) % 2 ^ 64).toNat

/-- The entry of the table that has a command. -/
def dupEntry (cmd : Bytes) (dups : List DupEntry) : Option DupEntry :=
  dups.find? fun p => p.rfCmdLen ≠ 0 ∧ p.rfCmdLen = cmd.length ∧ p.rfCommand.take cmd.length = cmd

/-- **A frame is held back**: it is in the table, and its time is not over. -/
def heldBack (env : Env) (cmd : Bytes) (s : X10State) : Bool :=
  (dupEntry cmd s.dups).any fun p => timemsAt env s.timemsReads ≤ p.timems

/-- The scan finds a command that is in the table. -/
theorem dupScan_present (timems : ℕ) (cmd : Bytes) (dups : List DupEntry) (i : ℕ)
    (firstunused : Option ℕ) :
    (dupScan timems cmd i firstunused dups).2 = .present ↔
      (dupEntry cmd dups).any (fun p => timems ≤ p.timems) = true := by
  induction dups generalizing i firstunused with
  | nil => simp [dupScan, dupEntry]
  | cons p dups ih =>
    by_cases hhere : p.rfCmdLen ≠ 0 ∧ p.rfCmdLen = cmd.length ∧ p.rfCommand.take cmd.length = cmd
    · have hfound : dupEntry cmd (p :: dups) = some p := List.find?_cons_of_pos (by simpa using hhere)
      rw [hfound, dupScan, if_pos hhere.1, if_pos hhere.2]
      by_cases hlate : p.timems < timems
      · simp [hlate]
      · simp [hlate, not_lt.mp hlate]
    · have hnext : dupEntry cmd (p :: dups) = dupEntry cmd dups :=
        List.find?_cons_of_neg (by simpa using hhere)
      rw [hnext, dupScan]
      by_cases hused : p.rfCmdLen ≠ 0
      · rw [if_pos hused, if_neg fun hsame => hhere ⟨hused, hsame⟩]
        split
        · exact ih _ _
        · exact ih _ _
      · rw [if_neg hused]
        exact ih _ _

/-- **The duplicate filter** says whether a frame is held back, and changes its own table
only. -/
theorem dupFilter_spec (cmd : Bytes) (s : X10State) : ∃ dups n,
    dupFilter env cmd s = ⟨heldBack env cmd s, { s with dups := dups, timemsReads := n }, []⟩ := by
  have hscan : (dupScan (timemsAt env s.timemsReads) cmd 0 none s.dups).2 = .present ↔
      heldBack env cmd s = true := dupScan_present _ cmd s.dups 0 none
  rcases hfound : dupScan (timemsAt env s.timemsReads) cmd 0 none s.dups with ⟨dups, found⟩
  rw [hfound] at hscan
  simp only [timemsAt] at hfound
  have hnot : found ≠ .present → heldBack env cmd s = false :=
    fun hne => by simpa using mt hscan.mpr hne
  cases found with
  | present =>
    refine ⟨dups, s.timemsReads + 1, ?_⟩
    rw [hscan.mp rfl]
    simp only [dupFilter, getTimems, X10M.bind_apply, X10M.gets_apply, X10M.modify_apply,
      X10M.pure_apply, hfound, List.append_nil]
  | expired i =>
    refine ⟨dups.modify i fun p =>
        { p with timems := (timemsAt env (s.timemsReads + 1) + dupTime) % 2 ^ 64 },
      s.timemsReads + 1 + 1, ?_⟩
    rw [hnot (by simp)]
    simp only [dupFilter, getTimems, X10M.bind_apply, X10M.gets_apply, X10M.modify_apply,
      X10M.pure_apply, hfound, List.append_nil]
    rfl
  | absent firstunused =>
    refine ⟨dups.modify (firstunused.getD (closestToExpiring dups)) fun p =>
        ⟨(timemsAt env (s.timemsReads + 1) + dupTime) % 2 ^ 64, memcpy p.rfCommand cmd, cmd.length⟩,
      s.timemsReads + 1 + 1, ?_⟩
    rw [hnot (by simp)]
    simp only [dupFilter, getTimems, X10M.bind_apply, X10M.gets_apply, X10M.modify_apply,
      X10M.pure_apply, hfound, List.append_nil]
    rfl

/-- **What becomes of an accepted frame.** -/
theorem cm15aDecodeRf_apply (env : Env) (relay : ℤ → Bytes → X10M Unit) (fd : ℤ) {buf₀ : Memory}
    {len₀ : ℕ} (htrim : trimMarkers buf₀ len₀ = (buf, len)) (h : rfFrame buf len = some frame)
    (s : X10State) : ∃ dups n,
      cm15aDecodeRf env relay fd buf₀ len₀ s =
        if heldBack env (buf.take len) s then ⟨(), { s with dups := dups, timemsReads := n }, []⟩
        else frame.act env relay fd buf len { s with dups := dups, timemsReads := n } := by
  obtain ⟨dups, n, hdup⟩ := dupFilter_spec (buf.take len) s
  refine ⟨dups, n, ?_⟩
  rw [cm15aDecodeRf_of_frame htrim h, X10M.bind_apply, hdup]
  split
  · rfl
  · rfl

/-! ### A unit is switched by radio -/

/-- The state that a radio function switches to. -/
def rfSwitchesTo (func : ℕ) : UInt8 := if func ≠ 0 then 0x30 else 0x31

/-- **One unit is set**, and every other unit is as it was. -/
structure OnlyUnit (house unit : ℤ) (func : UInt8) (s s' : X10State) : Prop where
  state : s'.houseUnitState house unit = func
  others : ∀ h u, ¬(h = house ∧ u = unit) →
    s'.houseUnitState h u = s.houseUnitState h u ∧ s'.houseUnitDim h u = s.houseUnitDim h u

theorem onlyUnit_congr {house unit : ℤ} {func : UInt8} {s t s' : X10State}
    (hstate : t.houseUnitState = s.houseUnitState) (hdim : t.houseUnitDim = s.houseUnitDim) :
    OnlyUnit house unit func s s' ↔ OnlyUnit house unit func t s' := by
  constructor
  · intro h
    exact ⟨h.state, by rw [hstate, hdim]; exact h.others⟩
  · intro h
    have hothers := h.others
    rw [hstate, hdim] at hothers
    exact ⟨h.state, hothers⟩

/-- **The group of a house is spent**: it was closed, or the other units in it are already as
they are to be. -/
def GroupSpent (house unit : ℤ) (func : UInt8) (s : X10State) : Prop :=
  s.x10protostate house = 1 ∨ ∀ u, IsUnit u → u ≠ unit → s.houseUnitSelected house u ≠ 0 →
    s.houseUnitState house u = func ∧ s.houseUnitDim house u = dimLevel func

theorem repeatRF_state (s : X10State) : (repeatRF env fd buf len s).state = s :=
  preserves_repeatRF (P := fun t => t = s) env fd buf len s rfl

/-- A frame of a house that is not relayed is not sent on. -/
theorem sendOn_of_not_relayed {s : X10State}
    (h : ∀ house line, frame.line = some (house, line) → relayed env s house = false) :
    frame.sendOn env relay fd s = ⟨(), s, []⟩ := by
  rw [RfFrame.sendOn]
  cases hline : frame.line with
  | none => rfl
  | some a =>
    obtain ⟨house, line⟩ := a
    show (if relayed env s house then relay fd line else pure ()) s = _
    rw [h house line hline]
    rfl

theorem huaAdd_rfToPl16 (house unit : ℤ) (s : X10State) :
    (huaAdd house unit s).rfToPl16 = s.rfToPl16 := by
  rw [huaAdd]
  split
  · rfl
  split
  · rfl
  · rfl

/-- Whether a house is relayed does not depend on the device tables. -/
theorem relayed_switch (env : Env) (house h u : ℤ) (func : UInt8) (housechar : UInt8) (s : X10State) :
    relayed env (huaFunc house func (huaAdd h u s)) housechar = relayed env s housechar := by
  rw [relayed, relayed, huaFunc_eq]
  dsimp only
  rw [huaAdd_rfToPl16]

/-- **What a frame that is not relayed does to the tables.** -/
theorem act_switch_state {house : UInt8} {unit func : ℕ} {s : X10State}
    (hrelay : relayed env s house = false) :
    ((RfFrame.switch house unit func).act env relay fd buf len s).state =
      huaFunc (houseIndex house) (rfSwitchesTo func)
        (huaAdd (houseIndex house) ((unit : ℤ) - 1) s) := by
  have hsend : ∀ t, relayed env t house = false →
      ((RfFrame.switch house unit func).sendOn env relay fd t).state = t := by
    intro t ht
    rw [sendOn_of_not_relayed fun h line hline => ?_]
    obtain ⟨rfl, _⟩ := Prod.mk.inj (Option.some.inj hline)
    exact ht
  simp only [RfFrame.act, RfFrame.update, X10M.bind_apply, X10M.modify_apply,
    mochadDispatchEvent_state, repeatRF_state]
  refine hsend _ ?_
  rw [relayed_switch, hrelay]

theorem isUnit_of_frame {house : UInt8} {unit func : ℕ}
    (h : rfFrame buf len = some (.switch house unit func)) : IsUnit ((unit : ℤ) - 1) := by
  rw [rfFrame] at h
  split at h
  · cases h
  split at h
  · obtain ⟨_, _, hcamera⟩ := Option.map_eq_some_iff.mp h
    cases hcamera
  split at h
  · split at h
    · split at h
      · cases h
      · cases h
    split at h
    · split at h
      · cases h
      · cases hfields : hufcDecode (buf 2) (buf 4) with
        | mk housechar rest =>
          obtain ⟨unit', func'⟩ := rest
          rw [hfields] at h
          have hframe := Option.some.inj h
          split at hframe
          · cases hframe
          next hfunc =>
            obtain ⟨rfl, rfl, rfl⟩ := RfFrame.switch.inj hframe
            exact isUnit_hufcDecode hfields hfunc
    · cases h
  split at h
  · cases hsec : secafDecode buf len with
    | error e =>
      rw [hsec] at h
      cases h
    | ok a =>
      rw [hsec] at h
      cases h
  · cases h

/-! ### When nothing else is switched -/

/-- What is selected when a unit has been added. -/
theorem selection_huaAdd {house unit : ℤ} {s : X10State} (hs : ProtoSettled s)
    (hunit : IsUnit unit) :
    selection (huaAdd house unit s) house =
      if s.x10protostate house = 1 then {unit} else insert unit (selection s house) := by
  ext u
  rcases hs house with hzero | hone
  · rw [huaAdd, if_pos hzero, if_neg (by rw [hzero]; decide)]
    simp only [selection, Houseunitaddrs.set_apply, Set.mem_ofPred_eq, Set.mem_insert_iff, true_and]
    by_cases hu : u = unit
    · simp [hu, hunit]
    · simp [hu]
  · rw [huaAdd, if_neg (by rw [hone]; decide), if_pos hone, if_pos hone]
    simp only [selection, huaInit, Houseunitaddrs.set_apply, Function.update_self,
      Set.mem_ofPred_eq, Set.mem_singleton_iff, true_and]
    by_cases hu : u = unit
    · simp [hu, hunit]
    · simp [hu]

/-- Adding a unit switches nothing. -/
theorem huaAdd_devices (house unit : ℤ) (s : X10State) :
    (huaAdd house unit s).houseUnitState = s.houseUnitState ∧
      (huaAdd house unit s).houseUnitDim = s.houseUnitDim := by
  rw [huaAdd]
  split
  · exact ⟨rfl, rfl⟩
  split
  · exact ⟨rfl, rfl⟩
  · exact ⟨rfl, rfl⟩

/-- **Only that unit is set exactly if the group of its house is spent.** -/
theorem onlyUnit_iff {house unit : ℤ} {func : UInt8} {s : X10State} (hs : ProtoSettled s)
    (hunit : IsUnit unit) :
    OnlyUnit house unit func s (huaFunc house func (huaAdd house unit s)) ↔
      GroupSpent house unit func s := by
  obtain ⟨hstate, hdim⟩ := huaAdd_devices house unit s
  have hswitched := huaFunc_switched house func (huaAdd house unit s)
  rw [selection_huaAdd hs hunit] at hswitched
  constructor
  · intro honly
    by_cases hone : s.x10protostate house = 1
    · exact Or.inl hone
    · refine Or.inr fun u hu hne hsel => ?_
      rw [if_neg hone] at hswitched
      have hmem : u ∈ insert unit (selection s house) := Or.inr ⟨hu, hsel⟩
      obtain ⟨hstate', hdim'⟩ := honly.others house u fun h => hne h.2
      exact ⟨hstate'.symm.trans (hswitched.state u hmem), hdim'.symm.trans (hswitched.dim u hmem)⟩
  · intro hspent
    constructor
    · refine hswitched.state unit ?_
      split
      · rfl
      · exact Set.mem_insert unit _
    · intro h u hne
      by_cases hmem : h = house ∧
          u ∈ (if s.x10protostate house = 1 then {unit} else insert unit (selection s house))
      · -- another unit of the group: it is as it was
        obtain ⟨rfl, hmem⟩ := hmem
        have hother : u ≠ unit := fun heq => hne ⟨rfl, heq⟩
        split at hmem
        · exact absurd hmem hother
        next hone =>
          obtain ⟨hu, hsel⟩ := hmem.resolve_left hother
          obtain ⟨hs', hd'⟩ := (hspent.resolve_left hone) u hu hother hsel
          rw [if_neg hone] at hswitched
          rw [hswitched.state u (Or.inr ⟨hu, hsel⟩), hswitched.dim u (Or.inr ⟨hu, hsel⟩)]
          exact ⟨hs'.symm, hd'.symm⟩
      · obtain ⟨hs', hd'⟩ := hswitched.others h u hmem
        exact ⟨hs'.trans (congrFun (congrFun hstate h) u), hd'.trans (congrFun (congrFun hdim h) u)⟩

/-- **A frame switches its unit alone exactly if the group of its house is spent**, when it is
neither held back nor relayed. -/
theorem decodeRf_switch_iff {buf₀ : Memory} {len₀ : ℕ} {house : UInt8} {unit func : ℕ}
    {s : X10State} (hs : ProtoSettled s) (htrim : trimMarkers buf₀ len₀ = (buf, len))
    (hframe : rfFrame buf len = some (.switch house unit func))
    (hheld : heldBack env (buf.take len) s = false) (hrelay : relayed env s house = false) :
    OnlyUnit (houseIndex house) ((unit : ℤ) - 1) (rfSwitchesTo func) s
        (cm15aDecodeRf env relay fd buf₀ len₀ s).state ↔
      GroupSpent (houseIndex house) ((unit : ℤ) - 1) (rfSwitchesTo func) s := by
  obtain ⟨dups, n, happly⟩ := cm15aDecodeRf_apply env relay fd htrim hframe s
  rw [happly, hheld, if_neg (by decide)]
  generalize ht : ({ s with dups := dups, timemsReads := n } : X10State) = t
  have hdevices : t.houseUnitState = s.houseUnitState ∧ t.houseUnitDim = s.houseUnitDim ∧
      t.houseUnitSelected = s.houseUnitSelected ∧ t.x10protostate = s.x10protostate := by
    subst ht
    exact ⟨rfl, rfl, rfl, rfl⟩
  have hrelay' : relayed env t house = false := by
    subst ht
    exact hrelay
  obtain ⟨hstate, hdim, hsel, hproto⟩ := hdevices
  have hiff : OnlyUnit (houseIndex house) ((unit : ℤ) - 1) (rfSwitchesTo func) t _ ↔
      GroupSpent (houseIndex house) ((unit : ℤ) - 1) (rfSwitchesTo func) t :=
    onlyUnit_iff (fun h => hproto ▸ hs h) (isUnit_of_frame hframe)
  rw [act_switch_state hrelay']
  rw [GroupSpent, hstate, hdim, hsel, hproto] at hiff
  exact (onlyUnit_congr hstate hdim).trans hiff

end Mochad
