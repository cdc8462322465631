import Mochad.Library.Grouping
import Mochad.X10.Uniform

/-!
# Selection groups

Units are addressed one by one, and a function applies to all that have been addressed.
By the protocol every function of a house closes its group: who is addressed next begins
a new one. `cm15a_decode_plc` keeps the group in `HouseUnitSelected`, and in
`X10protostate` whether it is closed.

But only some functions set `X10protostate`. The others – dimming, brightening, extended
code, hails, preset dim and the status request – leave the group open, and who is
addressed after one of them joins it. So the decoder is a *lax* tracker of groups
(`tracks_decodePlcs`), and `groups_iff` says when that shows.
-/

namespace Mochad

open Grouping (Sign LeftOpen track)

/-! ### What a packet says -/

/-- **What `cm15a_decode_plc` takes a packet for**, as far as the tables are concerned. -/
inductive PlPacket
  | address (house unit : ℤ)
  | function (house : ℤ) (code : ℕ)
  | dim (house : ℤ)
  | extended (house unit : ℤ) (level : UInt8)
  deriving DecidableEq

/-- What a packet says, if it is accepted. -/
def plPacket (buf : Memory) (len : ℕ) : Option PlPacket :=
  if len < 4 ∨ 8 < len then none
  else if buf 2 = 0x00 then
    if buf 1 ≠ 2 then none
    else some (.address (houseIndex (hucDecode (buf 3)).1) ((hucDecode (buf 3)).2 - 1))
  else if buf 2 = 0x01 then
    if buf 1 ≠ 2 then none
    else some (.function (houseIndex (hfcDecode (buf 3)).1) (hfcDecode (buf 3)).2)
  else if buf 2 = 0x02 then
    if buf 1 ≠ 3 then none else some (.dim (houseIndex (hfcDecode (buf 4)).1))
  else if buf 2 = 0x07 then
    if len ≠ 7 then none
    else some (.extended (houseIndex (hfcDecode (buf 3)).1) (ucDecode (buf 4) - 1) (buf 5))
  else if buf 2 = 0x08 then
    if len ≠ 7 then none
    else some (.extended (houseIndex (hfcDecode (buf 6)).1) (ucDecode (buf 5) - 1) (buf 4))
  else none

/-- What it does to the tables. -/
def PlPacket.apply : PlPacket → X10State → X10State
  | .address house unit, s => huaAdd house unit s
  | .function house code, s => (applyHouseFunc house code s).state
  | .dim _, s => s
  | .extended house unit level, s => huaSetstatusXdim house unit level s

/-- **The decoder does what the packet says**, or nothing. -/
theorem cm15aDecodePlc_state (fd : ℤ) (buf : Memory) (len : ℕ) (s : X10State) :
    (cm15aDecodePlc fd buf len s).state = (plPacket buf len).elim s fun p => p.apply s := by
  simp only [cm15aDecodePlc, plPacket, dispatchPlHouseunit, dispatchPlHouse, dispatchPlHouseLevel,
    dispatchPlExtended, ite_or]
  split_ifs
  all_goals simp only [X10M.pure_apply, X10M.bind_apply, X10M.modify_apply,
    mochadDispatchEvent_state, Option.elim, PlPacket.apply]

/-! ### The protocol's groups -/

/-- The state that a function switches its group to. -/
def switchesTo (code : ℕ) : Option UInt8 :=
  if code = 2 ∨ code = 13 then some 0x31 else if code = 3 ∨ code = 14 then some 0x30 else none

/-- The functions that the decoder takes to close a group. -/
def setsProtostate (code : ℕ) : Bool :=
  code = 0 || code = 1 || code = 2 || code = 3 || code = 6 || code = 13 || code = 14

/-- **What a packet means for the group of a house.** -/
def PlPacket.sign (h : ℤ) : PlPacket → Option (Sign ℤ)
  | .address house unit => if house = h then some (.join unit) else none
  | .function house code => if house = h then some (.close (setsProtostate code)) else none
  | .dim house => if house = h then some (.close false) else none
  | .extended house unit _ => if house = h then some (.only unit) else none

/-- A call of `cm15a_decode_plc`. -/
structure PlcCall where
  fd : ℤ
  buf : Memory
  len : ℕ

/-- What it says. -/
def PlcCall.packet (c : PlcCall) : Option PlPacket := plPacket c.buf c.len

/-- What a history of packets says of a house's group. -/
def signsOf (h : ℤ) (calls : List PlcCall) : List (Sign ℤ) :=
  calls.filterMap fun c => c.packet.bind (·.sign h)

/-- **The group of a house by the protocol**: who was addressed since the last function, or
that function's group if nobody was. -/
def addressed (h : ℤ) (calls : List PlcCall) : Set ℤ := (track false (signsOf h calls)).members

/-- The tables after a history. -/
def decodePlcs (s : X10State) (calls : List PlcCall) : X10State :=
  calls.foldl (fun s c => (cm15aDecodePlc c.fd c.buf c.len s).state) s

@[simp] theorem decodePlcs_append_singleton (s : X10State) (calls : List PlcCall) (c : PlcCall) :
    decodePlcs s (calls ++ [c]) = c.packet.elim (decodePlcs s calls)
      fun p => p.apply (decodePlcs s calls) := by
  rw [decodePlcs, List.foldl_append, List.foldl_cons, List.foldl_nil, cm15aDecodePlc_state]
  rfl

theorem track_signsOf (lax : Bool) (h : ℤ) (calls : List PlcCall) (c : PlcCall) :
    track lax (signsOf h (calls ++ [c])) = (c.packet.bind (·.sign h)).elim
      (track lax (signsOf h calls)) ((track lax (signsOf h calls)).step lax) :=
  Grouping.track_filterMap_append ..

/-- **The next On, Off, Status on or Status off** switches exactly the group of its house. -/
def SwitchesGroup (s : X10State) (calls : List PlcCall) : Prop :=
  ∀ c house code func, c.packet = some (.function house code) → switchesTo code = some func →
    Switched house func (addressed house calls) (decodePlcs s calls) (decodePlcs s (calls ++ [c]))

/-! ### The decoder tracks the groups, laxly -/

/-- **The tables hold a group**: its members are selected, and the protocol state says whether
it is closed. -/
structure Tracks (h : ℤ) (g : Grouping.Group ℤ) (s : X10State) : Prop where
  selected : ∀ u, s.houseUnitSelected h u ≠ 0 ↔ u ∈ g.members
  closed : s.x10protostate h = if g.closed then 1 else 0
  units : ∀ u ∈ g.members, IsUnit u

theorem tracks_empty (h : ℤ) (s : X10State) : Tracks h .empty (huaSecInit s) :=
  ⟨fun _ => iff_of_false (fun hne => hne rfl) id, rfl, fun _ hu => hu.elim⟩

theorem Tracks.selection_eq {h : ℤ} {g : Grouping.Group ℤ} {s : X10State} (ht : Tracks h g s) :
    selection s h = g.members := by
  ext u
  constructor
  · exact fun hu => (ht.selected u).mp hu.2
  · exact fun hu => ⟨ht.units u hu, (ht.selected u).mpr hu⟩

/-- **A unit is addressed.** -/
theorem Tracks.huaAdd {h : ℤ} {g : Grouping.Group ℤ} {s : X10State} (ht : Tracks h g s) {unit : ℤ}
    (hunit : IsUnit unit) : Tracks h (g.step true (.join unit)) (huaAdd h unit s) := by
  have hclosed := ht.closed
  obtain ⟨members, closed⟩ := g
  cases closed with
  | true =>
    have hp : s.x10protostate h = 1 := hclosed
    rw [Mochad.huaAdd, if_neg (by rw [hp]; decide), if_pos hp]
    refine ⟨fun u => ?_, Function.update_self .., ?_⟩
    · simp [huaInit, Houseunitaddrs.set_apply, Grouping.Group.step]
    · rintro u rfl
      exact hunit
  | false =>
    have hp : s.x10protostate h = 0 := hclosed
    rw [Mochad.huaAdd, if_pos hp]
    refine ⟨fun u => ?_, hp, ?_⟩
    · have hsel := ht.selected u
      by_cases hu : u = unit
      · simp [Houseunitaddrs.set_apply, Grouping.Group.step, hu]
      · simpa [Houseunitaddrs.set_apply, Grouping.Group.step, hu] using hsel
    · rintro u (rfl | hu)
      · exact hunit
      · exact ht.units u hu

/-- A unit of another house is addressed. -/
theorem huaAdd_other {h house : ℤ} (hne : house ≠ h) (unit : ℤ) (s : X10State) :
    (huaAdd house unit s).houseUnitSelected h = s.houseUnitSelected h ∧
      (huaAdd house unit s).x10protostate h = s.x10protostate h := by
  have hset : ∀ a : Houseunitaddrs, a.set house unit 0x31 h = a h :=
    fun a => Function.update_of_ne hne.symm ..
  rw [huaAdd]
  split
  · exact ⟨hset _, rfl⟩
  split
  · exact ⟨(hset _).trans (Function.update_of_ne hne.symm ..), Function.update_of_ne hne.symm ..⟩
  · exact ⟨rfl, rfl⟩

/-- What a function does to the selection: it closes the group, or does nothing. -/
theorem applyHouseFunc_selected (house : ℤ) (code : ℕ) (s : X10State) :
    (applyHouseFunc house code s).state.houseUnitSelected = s.houseUnitSelected ∧
      (applyHouseFunc house code s).state.x10protostate =
        if setsProtostate code then Function.update s.x10protostate house 1
        else s.x10protostate := by
  rw [applyHouseFunc]
  split
  next hcode =>
    obtain ⟨hsel, hproto⟩ := huaFuncAll_selected house 0x30 s
    exact ⟨hsel, hproto.trans (by rcases hcode with rfl | rfl <;> rfl)⟩
  split
  next hcode =>
    obtain ⟨hsel, hproto⟩ := huaFuncAll_selected house 0x31 s
    exact ⟨hsel, hproto.trans (by subst hcode; rfl)⟩
  split
  next hcode =>
    obtain ⟨hsel, hproto⟩ := huaFunc_selected house 0x31 s
    exact ⟨hsel, hproto.trans (by rcases hcode with rfl | rfl <;> rfl)⟩
  split
  next hcode =>
    obtain ⟨hsel, hproto⟩ := huaFunc_selected house 0x30 s
    exact ⟨hsel, hproto.trans (by rcases hcode with rfl | rfl <;> rfl)⟩
  next h₀ h₁ h₂ h₃ =>
    rw [if_neg]
    · exact ⟨rfl, rfl⟩
    · simp only [setsProtostate, Bool.or_eq_true, decide_eq_true_eq]
      omega

theorem Tracks.frame {h : ℤ} {g : Grouping.Group ℤ} {s s' : X10State} (ht : Tracks h g s)
    (hsel : s'.houseUnitSelected h = s.houseUnitSelected h)
    (hproto : s'.x10protostate h = s.x10protostate h) : Tracks h g s' :=
  ⟨fun u => by rw [hsel]; exact ht.selected u, hproto.trans ht.closed, ht.units⟩

/-- **Every packet.** -/
theorem Tracks.apply {h : ℤ} {g : Grouping.Group ℤ} {s : X10State} (ht : Tracks h g s) {buf : Memory}
    {len : ℕ} {p : PlPacket} (hp : plPacket buf len = some p) :
    Tracks h ((p.sign h).elim g (g.step true)) (p.apply s) := by
  cases p with
  | address house unit =>
    have hunit : IsUnit unit := by
      simp only [plPacket] at hp
      split_ifs at hp
      all_goals simp only [Option.some.injEq, PlPacket.address.injEq, reduceCtorEq] at hp
      rw [← hp.2]
      exact isUnit_hucDecode _
    by_cases hh : house = h
    · subst hh
      simp only [PlPacket.sign, if_true, Option.elim, PlPacket.apply]
      exact ht.huaAdd hunit
    · obtain ⟨hsel, hproto⟩ := huaAdd_other hh unit s
      simp only [PlPacket.sign, if_neg hh, Option.elim, PlPacket.apply]
      exact ht.frame hsel hproto
  | function house code =>
    obtain ⟨hsel, hproto⟩ := applyHouseFunc_selected house code s
    by_cases hh : house = h
    · subst hh
      simp only [PlPacket.sign, if_true, Option.elim]
      refine ⟨fun u => ?_, ?_, ?_⟩
      · rw [PlPacket.apply, hsel, ht.selected u]
        cases setsProtostate code <;> exact Iff.rfl
      · rw [PlPacket.apply, hproto]
        cases setsProtostate code with
        | true => exact Function.update_self ..
        | false => exact ht.closed
      · intro u hu
        refine ht.units u ?_
        cases hc : setsProtostate code with
        | true =>
          rw [hc] at hu
          exact hu
        | false =>
          rw [hc] at hu
          exact hu
    · simp only [PlPacket.sign, if_neg hh, Option.elim]
      refine ht.frame (congrFun hsel h) ?_
      rw [PlPacket.apply, hproto]
      split
      · exact Function.update_of_ne (Ne.symm hh) ..
      · rfl
  | dim house =>
    by_cases hh : house = h
    · simp only [PlPacket.sign, if_pos hh, Option.elim]
      exact ht
    · simp only [PlPacket.sign, if_neg hh, Option.elim]
      exact ht
  | extended house unit level =>
    have hunit : IsUnit unit := by
      simp only [plPacket] at hp
      split_ifs at hp
      all_goals simp only [Option.some.injEq, PlPacket.extended.injEq, reduceCtorEq] at hp
      all_goals
        rw [← hp.2.1]
        exact isUnit_ucDecode _
    by_cases hh : house = h
    · subst hh
      simp only [PlPacket.sign, if_true, Option.elim]
      refine ⟨fun u => ?_, Function.update_self .., ?_⟩
      · simp [PlPacket.apply, huaSetstatusXdim, huaInit, Houseunitaddrs.set_apply, Grouping.Group.step]
      · rintro u rfl
        exact hunit
    · simp only [PlPacket.sign, if_neg hh, Option.elim]
      refine ht.frame ?_ (Function.update_of_ne (Ne.symm hh) ..)
      exact (Function.update_of_ne (Ne.symm hh) ..).trans (Function.update_of_ne (Ne.symm hh) ..)

/-- **The tables hold the lax tracker's group**, after every history. -/
theorem tracks_decodePlcs (h : ℤ) (s : X10State) (calls : List PlcCall) :
    Tracks h (track true (signsOf h calls)) (decodePlcs (huaSecInit s) calls) := by
  induction calls using List.reverseRecOn with
  | nil => exact tracks_empty h s
  | append_singleton calls c ih =>
    rw [track_signsOf, decodePlcs_append_singleton]
    cases hp : c.packet with
    | none => exact ih
    | some p => exact ih.apply hp

/-! ### When that shows -/

/-- A function that switches does what `hua_func` does. -/
theorem apply_switches {code : ℕ} {func : UInt8} (h : switchesTo code = some func) (house : ℤ)
    (s : X10State) : (PlPacket.function house code).apply s = huaFunc house func s := by
  simp only [switchesTo] at h
  split at h
  next hcode =>
    obtain rfl := Option.some.inj h
    rcases hcode with rfl | rfl <;> simp [PlPacket.apply, applyHouseFunc, huaFuncOn]
  next =>
    split at h
    next hcode =>
      obtain rfl := Option.some.inj h
      rcases hcode with rfl | rfl <;> simp [PlPacket.apply, applyHouseFunc, huaFuncOff]
    · cases h

/-- A packet with a function of a house. -/
def functionCall (n : ℕ) (code : UInt8) : PlcCall :=
  ⟨-1, Memory.ofBytes [0x5a, 0x02, 0x01, (n.toUInt8 <<< 4) ||| code] 0, 4⟩

/-- The house of a code. -/
def houseOf (n : ℕ) : ℤ := houseIndex (tableAt houseUnitTable n)

theorem functionCall_packet {n : ℕ} (h : n < 16) :
    (functionCall n 2).packet = some (.function (houseOf n) 2) ∧
      (functionCall n 3).packet = some (.function (houseOf n) 3) := by
  have hcode : ∀ n : ℕ, n < 16 → hfcDecode ((n.toUInt8 <<< 4) ||| 2) = (tableAt houseUnitTable n, 2) ∧
      hfcDecode ((n.toUInt8 <<< 4) ||| 3) = (tableAt houseUnitTable n, 3) := by decide
  obtain ⟨htwo, hthree⟩ := hcode n h
  constructor
  · simp [functionCall, PlcCall.packet, plPacket, Memory.ofBytes, htwo, houseOf]
  · simp [functionCall, PlcCall.packet, plPacket, Memory.ofBytes, hthree, houseOf]

theorem shift_lt (b : UInt8) : ((b &&& 0xf0) >>> 4).toNat < 16 := by
  have hshift : ((b &&& 0xf0) >>> 4).toNat = (b.toNat &&& 0xf0) / 16 := by
    simp [UInt8.toNat_shiftRight, Nat.shiftRight_eq_div_pow]
  have hle : b.toNat &&& 0xf0 ≤ 0xf0 := Nat.and_le_right
  omega

/-- The house that a packet is about has a code. -/
theorem exists_houseOf {buf : Memory} {len : ℕ} {p : PlPacket} (hp : plPacket buf len = some p)
    {h : ℤ} (hs : p.sign h ≠ none) : ∃ n < 16, h = houseOf n := by
  have hhouse : ∀ b : UInt8, houseIndex (hucDecode b).1 = h → ∃ n < 16, h = houseOf n :=
    fun b hb => ⟨_, shift_lt b, hb.symm⟩
  simp only [plPacket] at hp
  split_ifs at hp
  all_goals simp only [Option.some.injEq] at hp
  all_goals
    subst hp
    simp only [PlPacket.sign, ne_eq, ite_eq_right_iff, reduceCtorEq, imp_false, not_not] at hs
    exact hhouse _ hs

/-- **The next function switches the right group exactly if the trackers have the same one.** -/
theorem switchesGroup_iff (s : X10State) (calls : List PlcCall) :
    SwitchesGroup (huaSecInit s) calls ↔
      ∀ h, addressed h calls = (track true (signsOf h calls)).members := by
  have hlax : ∀ (c : PlcCall) (house : ℤ) (code : ℕ) (func : UInt8),
      c.packet = some (.function house code) → switchesTo code = some func →
        Switched house func (track true (signsOf house calls)).members
          (decodePlcs (huaSecInit s) calls) (decodePlcs (huaSecInit s) (calls ++ [c])) := by
    intro c house code func hc hfunc
    rw [decodePlcs_append_singleton, hc, Option.elim, apply_switches hfunc,
      ← (tracks_decodePlcs house s calls).selection_eq]
    exact huaFunc_switched house func _
  constructor
  · intro hall h
    by_cases hnone : ∃ c ∈ calls, c.packet.bind (·.sign h) ≠ none
    · obtain ⟨c, _, hc⟩ := hnone
      cases hp : c.packet with
      | none => exact absurd (by rw [hp]; rfl) hc
      | some p =>
        obtain ⟨n, hn, rfl⟩ := exists_houseOf hp (h := h) (by simpa [hp] using hc)
        obtain ⟨hon, hoff⟩ := functionCall_packet hn
        exact Switched.group_eq (by decide) (hall _ _ _ 0x31 hon rfl) (hlax _ _ _ 0x31 hon rfl)
          (hall _ _ _ 0x30 hoff rfl) (hlax _ _ _ 0x30 hoff rfl)
    · have hnil : signsOf h calls = [] :=
        List.filterMap_eq_nil_iff.mpr fun c hc => by_contra fun hne => hnone ⟨c, hc, hne⟩
      rw [addressed, hnil]
      rfl
  · intro hall c house code func hc hfunc
    rw [hall house]
    exact hlax c house code func hc hfunc

/-- The trackers stay together at a packet. -/
theorem addressed_append_iff {calls : List PlcCall} {h : ℤ} (c : PlcCall)
    (heq : addressed h calls = (track true (signsOf h calls)).members) :
    addressed h (calls ++ [c]) = (track true (signsOf h (calls ++ [c]))).members ↔
      ∀ u, c.packet = some (.address h u) → LeftOpen (signsOf h calls) →
        addressed h calls ⊆ {u} := by
  rw [addressed, track_signsOf, track_signsOf]
  cases hsign : c.packet.bind (·.sign h) with
  | none =>
    refine iff_of_true heq fun u hc => ?_
    rw [hc] at hsign
    simp [PlPacket.sign] at hsign
  | some sign =>
    simp only [Option.elim]
    rw [← Grouping.track_append_singleton, ← Grouping.track_append_singleton,
      Grouping.members_step_iff heq]
    refine forall_congr' fun u => imp_congr_left ?_
    cases hp : c.packet with
    | none =>
      rw [hp] at hsign
      cases hsign
    | some p =>
      rw [hp] at hsign
      cases p with
      | address house unit =>
        simp only [PlPacket.sign, Option.bind_some] at hsign
        split at hsign
        next hh =>
          obtain rfl := Option.some.inj hsign
          simp [hh]
        · cases hsign
      | function house code | dim house | extended house unit level =>
        simp only [PlPacket.sign, Option.bind_some] at hsign
        split at hsign
        next hh =>
          obtain rfl := Option.some.inj hsign
          simp
        · cases hsign

/-- **Every On and Off switches the protocol's group** – after any part of the history – exactly
if, whenever a unit is addressed while the decoder has left a group of its house open, that
group has no other member. -/
theorem groups_iff (s : X10State) (calls : List PlcCall) :
    (∀ before, before <+: calls → SwitchesGroup (huaSecInit s) before) ↔
      ∀ before c h u, before ++ [c] <+: calls → c.packet = some (.address h u) →
        LeftOpen (signsOf h before) → addressed h before ⊆ {u} := by
  simp only [switchesGroup_iff]
  induction calls using List.reverseRecOn with
  | nil =>
    constructor
    · intro _ before c h u hpre
      exact absurd (List.prefix_nil.mp hpre) (by simp)
    · intro _ before hpre h
      rw [List.prefix_nil.mp hpre]
      rfl
  | append_singleton calls c ih =>
    constructor
    · intro hall before c' h u hpre hc' hopen
      have hbefore := hall before ((List.prefix_append before [c']).trans hpre) h
      exact (addressed_append_iff c' hbefore).mp (hall _ hpre h) u hc' hopen
    · intro hall before hpre
      have hold := ih.mpr fun before c' h u hpre =>
        hall before c' h u (hpre.trans (List.prefix_append calls [c]))
      rcases List.prefix_concat_iff.mp hpre with rfl | hpre
      · intro h
        refine (addressed_append_iff c (hold calls List.prefix_rfl h)).mpr fun u hc hopen => ?_
        exact hall calls c h u List.prefix_rfl hc hopen
      · exact hold before hpre

/-- The tables at startup. -/
def silent : X10State :=
  huaSecInit ⟨fun _ _ => 0, fun _ _ => 0, fun _ _ => 0, fun _ => 0, [], 0, 0, [], 0, 0⟩

/-- **A group can outlive a function**: A1 is addressed, the house is dimmed, A2 is addressed,
and both are switched on. -/
theorem group_outlives_dim : ¬ ∀ s calls, SwitchesGroup (huaSecInit s) calls := by
  intro hall
  let call (bs : Bytes) : PlcCall := ⟨-1, Memory.ofBytes bs 0, bs.length⟩
  let calls := [call [0x5a, 2, 0, 0x66], call [0x5a, 3, 2, 0x50, 0x64], call [0x5a, 2, 0, 0x6e]]
  have hswitched := hall silent calls (call [0x5a, 2, 1, 0x62]) 0 2 0x31 (by decide) rfl
  have hsigns : signsOf 0 calls = [.join 0, .close false, .join 1] := by decide
  have hgroup : addressed 0 calls = {1} := by
    rw [addressed, hsigns]
    rfl
  have hother := (hswitched.others 0 0 (by simp [hgroup])).1
  exact absurd hother (by decide +kernel)

end Mochad
