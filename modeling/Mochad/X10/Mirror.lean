import Mochad.Library.Replica
import Mochad.X10.EventLines
import Mochad.X10.Groups
import Mochad.X10.TableBounds

/-!
# Mirrors of the device tables

What a program that hears the events can know of the devices: of each house the group of units that
were addressed, and of each unit whether it is on, and its level. `Mirror.hear` takes in one event,
in the terms of the events alone – an address, a function that is named, a level – and not in those
of the packets.

The daemon changes its tables as it decodes a packet or a frame, before or after it reports the
event, and several events can come of one packet. Nonetheless the events account for all that is
done to the tables (`follows_cm15aDecode`, `follows_processcommandline`), with one exception: `st 0`
clears them, and is not reported.
-/

namespace Mochad

open X10M (Emits Preserves gets modify)

/-! ### Mirrors -/

/-- **What can be known of a house.** -/
structure HouseMirror where
  group : Grouping.Group ℤ
  on : ℤ → Option Bool
  level : ℤ → UInt8

namespace HouseMirror

/-- Before anything was heard. -/
def blank : HouseMirror := ⟨.empty, fun _ => none, fun _ => 0⟩

/-- A unit is addressed. -/
def address (unit : ℤ) (m : HouseMirror) : HouseMirror :=
  { m with group := m.group.step true (.join unit) }

open Classical in
/-- Units are switched on or off, which closes the group. -/
noncomputable def switch (units : Set ℤ) (on : Bool) (m : HouseMirror) : HouseMirror where
  group := m.group.step true (.close true)
  on u := if u ∈ units then some on else m.on u
  level u := if u ∈ units then (if on then 63 else 0) else m.level u

/-- A unit is set to a level, by a command that addresses it as well. -/
def setLevel (unit : ℤ) (level : UInt8) (m : HouseMirror) : HouseMirror where
  group := m.group.step true (.only unit)
  on := Function.update m.on unit (some (0 < level))
  level := Function.update m.level unit level

end HouseMirror

/-- Whether a function switches units, and then on or off: the whole house, or the group. -/
inductive SwitchOrder
  | house (on : Bool)
  | group (on : Bool)
  deriving DecidableEq

/-- **The functions that switch**, by their names. -/
def switchOrder (name : Bytes) : Option SwitchOrder :=
  if name = ascii "All units off" ∨ name = ascii "All lights off" then some (.house false)
  else if name = ascii "All lights on" then some (.house true)
  else if name = ascii "On" ∨ name = ascii "Status on" then some (.group true)
  else if name = ascii "Off" ∨ name = ascii "Status off" then some (.group false)
  else none

/-- A function that may switch. -/
noncomputable def HouseMirror.obey (m : HouseMirror) : Option SwitchOrder → HouseMirror
  | some (.house on) => m.switch {u | IsUnit u} on
  | some (.group on) => m.switch m.group.members on
  | none => m

/-- **An event that is heard**, about this house. -/
noncomputable def HouseMirror.hear (m : HouseMirror) (event : MochadEvent) : HouseMirror :=
  match event.detail with
  | .houseUnit =>
      if event.hasExtendedData then m.setLevel (event.unit - 1) event.extendedData.toUInt8
      else (m.address (event.unit - 1)).obey (event.function.bind switchOrder)
  | .house => if event.hasLevel then m else m.obey (event.function.bind switchOrder)
  | .rfsecShort | .rfsecLong | .rfcam => m

/-- **What can be known of all houses.** -/
abbrev Mirror := ℤ → HouseMirror

/-- Before anything was heard. -/
def Mirror.blank : Mirror := fun _ => .blank

/-- **An event that is heard.** -/
noncomputable def Mirror.hear (m : Mirror) (event : MochadEvent) : Mirror :=
  Function.update m (houseIndex event.house) ((m (houseIndex event.house)).hear event)

/-- The byte in which the tables keep whether a unit is on. -/
def stateByte : Option Bool → UInt8
  | none => 0
  | some on => if on then 0x31 else 0x30

/-- **A house's mirror shows its tables.** -/
structure HouseMirror.Shows (m : HouseMirror) (h : ℤ) (s : X10State) : Prop where
  tracks : Tracks h m.group s
  on : ∀ u, s.houseUnitState h u = stateByte (m.on u)
  level : ∀ u, s.houseUnitDim h u = m.level u

/-- **A mirror shows the tables**, of every house. -/
def Mirrors (m : Mirror) (s : X10State) : Prop := ∀ h, (m h).Shows h s

/-- The tables at startup show nothing. -/
theorem mirrors_blank (s : X10State) : Mirrors .blank (huaSecInit s) :=
  fun h => ⟨tracks_empty h s, fun _ => rfl, fun _ => rfl⟩

/-- **The tables have one mirror at most.** -/
theorem Mirrors.unique {m m' : Mirror} {s : X10State} (h : Mirrors m s) (h' : Mirrors m' s) :
    m = m' := by
  have hbyte : ∀ a b : Option Bool, stateByte a = stateByte b → a = b := by decide
  have hclosed : ∀ a b : Bool, (if a then (1 : ℤ) else 0) = (if b then 1 else 0) → a = b := by
    decide
  have hone : ∀ house, ∀ a b : HouseMirror, a.Shows house s → b.Shows house s → a = b := by
    rintro house ⟨⟨members, closed⟩, on, level⟩ ⟨⟨members', closed'⟩, on', level'⟩ ha hb
    obtain rfl : members = members' := ha.tracks.selection_eq.symm.trans hb.tracks.selection_eq
    obtain rfl : closed = closed' := hclosed _ _ (ha.tracks.closed.symm.trans hb.tracks.closed)
    obtain rfl : on = on' := funext fun u => hbyte _ _ ((ha.on u).symm.trans (hb.on u))
    obtain rfl : level = level' := funext fun u => (ha.level u).symm.trans (hb.level u)
    rfl
  exact funext fun house => hone house _ _ (h house) (h' house)

namespace HouseMirror.Shows

variable {m : HouseMirror} {house unit : ℤ} {s s' : X10State}

/-- The tables of a house are as they were. -/
theorem frame (h : m.Shows house s) (hstate : s'.houseUnitState house = s.houseUnitState house)
    (hdim : s'.houseUnitDim house = s.houseUnitDim house)
    (hsel : s'.houseUnitSelected house = s.houseUnitSelected house)
    (hproto : s'.x10protostate house = s.x10protostate house) : m.Shows house s' :=
  ⟨h.tracks.frame hsel hproto, fun u => by rw [hstate]; exact h.on u,
    fun u => by rw [hdim]; exact h.level u⟩

end HouseMirror.Shows

namespace Mirrors

variable {m : Mirror} {house unit : ℤ} {s s' : X10State}

/-- Nothing but the device tables is shown. -/
theorem frame (h : Mirrors m s) (hdev : s'.devices = s.devices) : Mirrors m s' := by
  simp only [X10State.devices, Prod.mk.injEq] at hdev
  obtain ⟨⟨hstate, hdim⟩, hsel, hproto⟩ := hdev
  exact fun house => (h house).frame (congrFun hstate house) (congrFun hdim house)
    (congrFun hsel house) (congrFun hproto house)

/-- **One house changes.** -/
theorem update (h : Mirrors m s) {hm : HouseMirror} (hshows : hm.Shows house s')
    (hothers : ∀ k, k ≠ house → ∀ x : HouseMirror, x.Shows k s → x.Shows k s') :
    Mirrors (Function.update m house hm) s' := by
  intro k
  by_cases hk : k = house
  · rw [hk, Function.update_self]
    exact hshows
  · rw [Function.update_of_ne hk]
    exact hothers k hk (m k) (h k)

theorem huaAdd_devices (house unit : ℤ) (s : X10State) :
    (huaAdd house unit s).houseUnitState = s.houseUnitState ∧
      (huaAdd house unit s).houseUnitDim = s.houseUnitDim := by
  rw [huaAdd]
  split
  · exact ⟨rfl, rfl⟩
  split
  · exact ⟨rfl, rfl⟩
  · exact ⟨rfl, rfl⟩

/-- **A unit is addressed.** -/
theorem address (h : Mirrors m s) (hunit : IsUnit unit) :
    Mirrors (Function.update m house ((m house).address unit)) (huaAdd house unit s) := by
  obtain ⟨hstate, hdim⟩ := huaAdd_devices house unit s
  refine h.update ⟨(h house).tracks.huaAdd hunit, fun u => ?_, fun u => ?_⟩ fun k hk x hx => ?_
  · rw [hstate]
    exact (h house).on u
  · rw [hdim]
    exact (h house).level u
  · obtain ⟨hsel, hproto⟩ := huaAdd_other (Ne.symm hk) unit s
    exact hx.frame (congrFun hstate k) (congrFun hdim k) hsel hproto

/-- **Units are switched.** -/
theorem switch (h : Mirrors m s) {units : Set ℤ} {on : Bool}
    (hsw : Switched house (stateByte (some on)) units s s')
    (hsel : s'.houseUnitSelected = s.houseUnitSelected)
    (hproto : s'.x10protostate = Function.update s.x10protostate house 1) :
    Mirrors (Function.update m house ((m house).switch units on)) s' := by
  have hlevel : dimLevel (stateByte (some on)) = if on then 63 else 0 := by
    cases on with
    | true | false => rfl
  refine h.update ⟨⟨fun u => ?_, ?_, (h house).tracks.units⟩, fun u => ?_, fun u => ?_⟩
    fun k hk x hx => ?_
  · rw [hsel]
    exact (h house).tracks.selected u
  · rw [hproto, Function.update_self]
    rfl
  · by_cases hu : u ∈ units
    · rw [hsw.state u hu]
      exact congrArg stateByte (if_pos hu).symm
    · rw [(hsw.others house u fun hin => hu hin.2).1, (h house).on u]
      exact congrArg stateByte (if_neg hu).symm
  · by_cases hu : u ∈ units
    · rw [hsw.dim u hu, hlevel]
      exact (if_pos hu).symm
    · rw [(hsw.others house u fun hin => hu hin.2).2, (h house).level u]
      exact (if_neg hu).symm
  · have hother := fun u => hsw.others k u fun hin => hk hin.1
    have hon := funext fun u => (hother u).1
    have hdim := funext fun u => (hother u).2
    refine hx.frame hon hdim (congrFun hsel k) ?_
    rw [hproto, Function.update_of_ne hk]

/-- **A function is obeyed.** -/
theorem switchGroup (h : Mirrors m s) (house : ℤ) (on : Bool) :
    Mirrors (Function.update m house ((m house).obey (some (.group on))))
      (huaFunc house (stateByte (some on)) s) := by
  obtain ⟨hsel, hproto⟩ := huaFunc_selected house (stateByte (some on)) s
  have hsw := huaFunc_switched house (stateByte (some on)) s
  rw [(h house).tracks.selection_eq] at hsw
  exact h.switch hsw hsel hproto

theorem switchHouse (h : Mirrors m s) (house : ℤ) (on : Bool) :
    Mirrors (Function.update m house ((m house).obey (some (.house on))))
      (huaFuncAll house (stateByte (some on)) s) := by
  obtain ⟨hsel, hproto⟩ := huaFuncAll_selected house (stateByte (some on)) s
  exact h.switch (huaFuncAll_switched house (stateByte (some on)) s) hsel hproto

theorem setLevel (h : Mirrors m s) (hunit : IsUnit unit) (level : UInt8) :
    Mirrors (Function.update m house ((m house).setLevel unit level))
      (huaSetstatusXdim house unit level s) := by
  have hbyte : (if 0 < level then (0x31 : UInt8) else 0x30) = stateByte (some (0 < level)) := by
    simp only [stateByte, decide_eq_true_eq]
  refine h.update ⟨⟨fun u => ?_, Function.update_self .., ?_⟩, fun u => ?_, fun u => ?_⟩
    fun k hk x hx => ?_
  · simp [huaSetstatusXdim, huaInit, Houseunitaddrs.set_apply, Grouping.Group.step,
      HouseMirror.setLevel]
  · rintro u rfl
    exact hunit
  · simp only [huaSetstatusXdim, huaInit, Houseunitaddrs.set_apply, HouseMirror.setLevel,
      Function.update_apply, true_and, hbyte]
    split
    · rfl
    · exact (h house).on u
  · simp only [huaSetstatusXdim, huaInit, Houseunitaddrs.set_apply, HouseMirror.setLevel,
      Function.update_apply, true_and]
    split
    · rfl
    · exact (h house).level u
  · have hset : ∀ (a : Houseunitaddrs) (v : UInt8), a.set house unit v k = a k :=
      fun a v => Function.update_of_ne hk ..
    refine hx.frame (hset _ _) (hset _ _) ?_ (Function.update_of_ne hk ..)
    exact (hset _ _).trans (Function.update_of_ne hk ..)

/-- Nothing is switched. -/
theorem unswitched (h : Mirrors m s) (house : ℤ) :
    Mirrors (Function.update m house ((m house).obey none)) s := by
  rwa [show (m house).obey none = m house from rfl, Function.update_eq_self]

/-- **A function of the power line.** Each function that switches has a name for it. -/
theorem applyHouseFunc (h : Mirrors m s) (house : ℤ) {code : ℕ} (hcode : code < 16) :
    Mirrors (Function.update m house ((m house).obey ((funcnameAt code).bind switchOrder)))
      (applyHouseFunc house code s).state := by
  have horder : ∀ code < 16, (funcnameAt code).bind switchOrder =
      if code = 0 ∨ code = 6 then some (.house false)
      else if code = 1 then some (.house true)
      else if code = 2 ∨ code = 13 then some (.group true)
      else if code = 3 ∨ code = 14 then some (.group false)
      else none := by decide
  have hoff : stateByte (some false) = 0x30 := rfl
  have hon : stateByte (some true) = 0x31 := rfl
  rw [horder code hcode, Mochad.applyHouseFunc]
  split_ifs
  · simp only [X10M.modify_apply, huaFuncAllOff, ← hoff]
    exact h.switchHouse house false
  · simp only [X10M.modify_apply, huaFuncAllOn, ← hon]
    exact h.switchHouse house true
  · simp only [X10M.modify_apply, huaFuncOn, ← hon]
    exact h.switchGroup house true
  · simp only [X10M.modify_apply, huaFuncOff, ← hoff]
    exact h.switchGroup house false
  · exact h.unswitched house

end Mirrors

/-! ### What is heard of an event -/

section Heard

variable (m : Mirror) {marker house : UInt8} {unit : ℤ} {function : Option Bytes}

theorem hear_plHouseunitEvent : m.hear (plHouseunitEvent marker house unit none) =
    Function.update m (houseIndex house) ((m (houseIndex house)).address (unit - 1)) := rfl

theorem hear_plHouseEvent : m.hear (plHouseEvent marker house function) = Function.update m
    (houseIndex house) ((m (houseIndex house)).obey (function.bind switchOrder)) := rfl

/-- A level is that of a dimmer, of which the tables know nothing. -/
theorem hear_plHouseLevelEvent (level : ℤ) :
    m.hear (plHouseLevelEvent marker house function level) = m := Function.update_eq_self ..

theorem hear_plExtendedEvent (data : UInt8) (command : ℕ) :
    m.hear (plExtendedEvent marker house unit function data.toNat command) = Function.update m
      (houseIndex house) ((m (houseIndex house)).setLevel (unit - 1) data) := by
  have hdata : data.toNat.toUInt8 = data := UInt8.ofNat_toNat
  show Function.update m (houseIndex house)
    ((m (houseIndex house)).setLevel (unit - 1) data.toNat.toUInt8) = _
  rw [hdata]

end Heard

/-! ### Functions whose events account for what they do -/

/-- **The events account for what a function does** to the device tables. -/
def Follows {α : Type} (m : X10M α) (s : X10State) (events : List MochadEvent) : Prop :=
  Replica.Accounts Mirrors Mirror.hear s (m s).state events

/-- The device tables are these. -/
def DevicesAre (devices : (Houseunitaddrs × Houseunitaddrs) × Houseunitaddrs × (ℤ → ℤ))
    (s : X10State) : Prop := s.devices = devices

/-- A function that leaves the device tables alone. -/
def Untouched {α : Type} (m : X10M α) : Prop := ∀ devices, Preserves (DevicesAre devices) m

theorem Inert.untouched {α : Type} {m : X10M α} (h : Inert m) : Untouched m := fun _ s hs =>
  (congrArg Prod.fst (h.keeps s)).trans hs

namespace Follows

variable {α β : Type} {m : X10M α} {s : X10State} {events events' : List MochadEvent}

theorem untouched (h : Untouched m) (s : X10State) : Follows m s [] :=
  Replica.Accounts.unnoticed fun _ hr => Mirrors.frame hr (h _ s rfl)

theorem bind {f : α → X10M β} (hm : Follows m s events)
    (hf : Follows (f (m s).value) (m s).state events') : Follows (m >>= f) s (events ++ events') :=
  Replica.Accounts.trans hm hf

theorem bind_untouched {f : α → X10M β} (hm : Follows m s events) (hf : ∀ a, Untouched (f a)) :
    Follows (m >>= f) s events :=
  Replica.Accounts.after hm fun _ hr => Mirrors.frame hr (hf (m s).value _ _ rfl)

theorem untouched_bind {f : α → X10M β} (hm : Untouched m)
    (hf : Follows (f (m s).value) (m s).state events) : Follows (m >>= f) s events :=
  Replica.Accounts.before (fun _ hr => Mirrors.frame hr (hm _ s rfl)) hf

theorem ite {p : Prop} [Decidable p] {n : X10M α} (hm : Follows m s events)
    (hn : Follows n s events') :
    Follows (if p then m else n) s (if p then events else events') := by
  split
  · exact hm
  · exact hn

end Follows

/-- **The power line.** A packet does what its event says. -/
theorem follows_decodePlc (fd : ℤ) (buf : Memory) (len : ℕ) (s : X10State) :
    Follows (cm15aDecodePlc fd buf len) s (plcEvents buf len) := by
  have hcode : ∀ b : UInt8, (hfcDecode b).2 < 16 := forall_byte (by decide +kernel)
  intro m hm
  rw [cm15aDecodePlc_state]
  simp only [plPacket, plcEvents, ite_or]
  split_ifs
  · exact hm
  · exact hm
  · exact hm
  · rw [List.foldl_cons, List.foldl_nil, hear_plHouseunitEvent]
    exact hm.address (isUnit_hucDecode _)
  · exact hm
  · rw [List.foldl_cons, List.foldl_nil, hear_plHouseEvent]
    exact hm.applyHouseFunc _ (hcode _)
  · exact hm
  · rw [List.foldl_cons, List.foldl_nil, hear_plHouseLevelEvent]
    exact hm
  · exact hm
  · rw [List.foldl_cons, List.foldl_nil, hear_plExtendedEvent]
    exact hm.setLevel (isUnit_ucDecode _) _
  · exact hm
  · rw [List.foldl_cons, List.foldl_nil, hear_plExtendedEvent]
    exact hm.setLevel (isUnit_ucDecode _) _
  · exact hm

/-! ### Power-line commands -/

section PowerLineCommands

variable {env : Env} {c : Ctx} {fd : ℤ}

theorem untouched_x10Write (buf : Bytes) : Untouched (x10Write buf) := fun _ => Preserves.call _

theorem untouched_or20ok : Untouched (or20ok c fd) := fun _ => preserves_or20ok c fd

theorem untouched_finish (flow : Flow) : Untouched (finish fd flow) :=
  fun _ => preserves_finish fd flow

theorem follows_plTxHouseunit (house unit : ℤ) (s : X10State) :
    Follows (plTxHouseunit env house unit) s (plTxHouseunitEvents env house unit) :=
  (follows_decodePlc (-1) _ 4 s).bind_untouched fun _ => untouched_x10Write _

theorem follows_plTxHousefunc (house func param : ℤ) (s : X10State) :
    Follows (plTxHousefunc env house func param) s (plTxHousefuncEvents env house func param) :=
  Follows.ite ((follows_decodePlc (-1) _ 5 s).bind_untouched fun _ => untouched_x10Write _)
    (Follows.ite ((follows_decodePlc (-1) _ 7 s).bind_untouched fun _ => untouched_x10Write _)
      ((follows_decodePlc (-1) _ 4 s).bind_untouched fun _ => untouched_x10Write _))

theorem follows_send (cmd : PlCommand) (s : X10State) :
    Follows (cmd.send env) s (cmd.events env) := by
  cases cmd with
  | select house unit => exact follows_plTxHouseunit house unit s
  | toHouse house func param => exact follows_plTxHousefunc house func param s
  | toUnit house unit func param =>
    exact (follows_plTxHouseunit house unit s).bind (follows_plTxHousefunc house func param _)
  | extended house unit command subcmd param =>
    exact (follows_decodePlc (-1) _ 7 s).bind_untouched fun _ => untouched_x10Write _

theorem follows_plCommand (tokens : List Bytes) (s : X10State) :
    Follows (plCommand c fd tokens) s (plEvents c.env tokens) := by
  rw [plEvents]
  cases hcmd : plCommandOf tokens with
  | none =>
    rw [plCommand_of_plCommandOf_eq_none hcmd]
    exact Follows.untouched (fun dev => (untouched_or20ok dev).bind fun _ => Preserves.pure _) s
  | some a =>
    obtain ⟨cmd, rest⟩ := a
    rw [(plCommand_of_plCommandOf c fd hcmd).2]
    exact Follows.untouched_bind untouched_or20ok
      ((follows_send cmd _).bind_untouched fun _ _ => Preserves.pure _)

/-- What a relay does of a power-line line. -/
def FollowsPl (env : Env) (relay : ℤ → Bytes → X10M Unit) : Prop :=
  ∀ fd line tokens cmd s, IsPl line → tokenizeCommand (strupper line) = some tokens →
    plCommandOf tokens.tail = some (cmd, []) → Follows (relay fd line) s (cmd.events env)

theorem followsPl_processDepth (c : Ctx) (n : ℕ) :
    FollowsPl c.env (fun fd line => do let _ ← processDepth c (n + 1) fd line) := by
  intro fd line tokens cmd s hpl htokens hcmd
  have hprocess : processDepth c (n + 1) fd line = plCommand c fd tokens.tail >>= finish fd := by
    refine (processWith_eq_pl c _ fd hpl).trans ?_
    simp only [htokens]
  have hfollows : Follows (plCommand c fd tokens.tail) s (plEvents c.env tokens.tail) :=
    follows_plCommand tokens.tail s
  rw [plEvents, hcmd] at hfollows
  change Follows (processDepth c (n + 1) fd line >>= fun _ => pure ()) s _
  rw [hprocess]
  exact (hfollows.bind_untouched untouched_finish).bind_untouched fun _ _ => Preserves.pure _

end PowerLineCommands

/-! ### Radio frames -/

section Radio

variable {env : Env} {relay : ℤ → Bytes → X10M Unit} {fd : ℤ} {buf : Memory} {len : ℕ}
  {frame : RfFrame}

theorem untouched_huaSecEvent (env : Env) (address : UInt8 × UInt8 × UInt8) (function : UInt8)
    (short : Bool) : Untouched (huaSecEvent env address function short) := by
  have htime : Untouched (timeNow env) := (Inert.timeNow env).untouched
  intro devices
  refine (Preserves.gets _).bind fun sensors =>
    Preserves.ite ?_ (Preserves.ite (Preserves.pure _) ?_)
  · exact (htime devices).bind fun _ => Preserves.modify fun _ h => h
  · exact (htime devices).bind fun _ => Preserves.modify fun _ h => h

/-- **A frame switches the unit that its event names**, with the group of its house. -/
theorem follows_update (hnamed : frame.Named) (marker : UInt8) (s : X10State) :
    Follows (frame.update env) s [frame.event marker] := by
  cases frame with
  | camera command =>
    exact Replica.Accounts.one fun m hm => by
      rwa [show m.hear ((RfFrame.camera command).event marker) = m from Function.update_eq_self ..]
  | short address function =>
    exact Replica.Accounts.one fun m hm => by
      rw [show m.hear ((RfFrame.short address function).event marker) = m from
        Function.update_eq_self ..]
      exact Mirrors.frame hm (untouched_huaSecEvent env (0, 0, address) function true _ s rfl)
  | long address function =>
    exact Replica.Accounts.one fun m hm => by
      rw [show m.hear ((RfFrame.long address function).event marker) = m from
        Function.update_eq_self ..]
      exact Mirrors.frame hm (untouched_huaSecEvent env address function false _ s rfl)
  | dim housechar func =>
    obtain ⟨house, -, rfl, hfunc⟩ := hnamed
    have hnone : (funcnameAt (func + 2)).bind switchOrder = none := by
      obtain rfl | rfl := hfunc
      · rfl
      · rfl
    refine Replica.Accounts.one fun m hm => ?_
    rw [show m.hear ((RfFrame.dim (houseChar house) func).event marker) = Function.update m
        (houseIndex (houseChar house)) ((m (houseIndex (houseChar house))).obey
          ((funcnameAt (func + 2)).bind switchOrder)) from rfl, hnone]
    exact hm.unswitched _
  | switch housechar unit func =>
    obtain ⟨house, u, -, hu, rfl, rfl, hfunc⟩ := hnamed
    have horder : (funcnameAt (func + 2)).bind switchOrder = some (.group (func = 0)) ∧
        (if func ≠ 0 then (0x30 : UInt8) else 0x31) = stateByte (some (func = 0)) := by
      interval_cases func
      · exact ⟨rfl, rfl⟩
      · exact ⟨rfl, rfl⟩
    have hunit : ((u.toNat + 1 : ℕ) : ℤ) - 1 = u := by
      have hpos := hu.1
      omega
    refine Replica.Accounts.one fun m hm => ?_
    have haddressed : Mirrors (Function.update m (houseIndex (houseChar house)) _) _ :=
      hm.address hu
    have hswitched := haddressed.switchGroup (houseIndex (houseChar house)) (func = 0)
    rw [Function.update_self, Function.update_idem] at hswitched
    have hheard : m.hear ((RfFrame.switch (houseChar house) (u.toNat + 1) func).event marker) =
        Function.update m (houseIndex (houseChar house))
          (((m (houseIndex (houseChar house))).address (((u.toNat + 1 : ℕ) : ℤ) - 1)).obey
            ((funcnameAt (func + 2)).bind switchOrder)) := rfl
    have hrun : ((RfFrame.switch (houseChar house) (u.toNat + 1) func).update env s).state =
        huaFunc (houseIndex (houseChar house)) (if func ≠ 0 then 0x30 else 0x31)
          (huaAdd (houseIndex (houseChar house)) (((u.toNat + 1 : ℕ) : ℤ) - 1) s) := by
      simp only [RfFrame.update, X10M.bind_apply, X10M.modify_apply]
    rw [hheard, hrun, horder.1, horder.2, hunit]
    exact hswitched

theorem follows_sendOn (hnamed : frame.Named) (hrelay : FollowsPl env relay) (s : X10State) :
    Follows (frame.sendOn env relay fd) s (frame.relayedEvents env s) := by
  rw [RfFrame.sendOn, RfFrame.relayedEvents]
  cases hline : frame.line with
  | none =>
    cases frame with
    | camera | short | long => exact Follows.untouched (fun _ => Preserves.pure _) s
    | dim | switch => cases hline
  | some a =>
    obtain ⟨housechar, line⟩ := a
    obtain ⟨hpl, tokens, cmd, htokens, hcmd, hcommand⟩ := line_of_named hnamed hline
    rw [hcommand]
    -- the frame is sent on, unless its house is not relayed
    have hbranch := (hrelay fd line tokens cmd s hpl htokens hcmd).ite
      (p := relayed env s housechar) (Follows.untouched (fun _ => Preserves.pure ()) s)
    exact Follows.untouched_bind (fun _ => Preserves.gets _) hbranch

/-- **A frame that is acted upon** does what its event says, and what those say that it is sent on
as. -/
theorem follows_act (hnamed : frame.Named) (hrelay : FollowsPl env relay) (s : X10State) :
    Follows (frame.act env relay fd buf len) s
      (frame.event (buf 0) :: frame.relayedEvents env s) := by
  have hsend : Follows (frame.sendOn env relay fd) (frame.update env s).state
      (frame.relayedEvents env (frame.update env s).state) := follows_sendOn hnamed hrelay _
  rw [(update_masks env frame s).relayedEvents] at hsend
  refine (follows_update hnamed (buf 0) s).bind (Follows.untouched_bind
    (fun _ => preserves_dispatch fd _) (Follows.untouched_bind
      (fun _ => preserves_repeatRF env fd buf len) ?_))
  rw [repeatRF_state, mochadDispatchEvent_state]
  exact hsend

/-- **What `cm15a_decode_rf` does.** -/
theorem follows_decodeRf (hrelay : FollowsPl env relay) (buf₀ : Memory) (len₀ : ℕ) (s : X10State) :
    Follows (cm15aDecodeRf env relay fd buf₀ len₀) s (rfEvents env s buf₀ len₀) := by
  rcases htrim : trimMarkers buf₀ len₀ with ⟨p, n⟩
  rw [rfEvents, htrim]
  dsimp only
  cases hframe : rfFrame p n with
  | none => exact Follows.untouched (inert_decodeRf_rejected htrim hframe).untouched s
  | some frame =>
    obtain ⟨dups, reads, happly⟩ := cm15aDecodeRf_apply env relay fd htrim hframe s
    have hmasks : SameMasks s { s with dups := dups, timemsReads := reads } := ⟨rfl, rfl⟩
    have hact :
        Follows (frame.act env relay fd p n) { s with dups := dups, timemsReads := reads } _ :=
      follows_act (named_of_frame hframe) hrelay _
    rw [hmasks.relayedEvents] at hact
    have hsame : ∀ m, Mirrors m s → Mirrors m { s with dups := dups, timemsReads := reads } :=
      fun _ hm => Mirrors.frame hm rfl
    dsimp only
    rw [Follows, happly]
    cases heldBack env (p.take n) s with
    | true =>
      rw [if_pos rfl, if_pos rfl]
      exact Replica.Accounts.unnoticed hsame
    | false =>
      rw [if_neg Bool.false_ne_true, if_neg Bool.false_ne_true]
      exact Replica.Accounts.before hsame hact

end Radio

/-! ### Packets and lines -/

section Inputs

variable {env : Env} {c : Ctx} {relay : ℤ → Bytes → X10M Unit} {fd : ℤ}

theorem follows_decodePacket (hrelay : FollowsPl env relay) (p : Memory) (n : ℕ) (s : X10State) :
    Follows (decodePacket env relay fd p n) s
      (if p 0 = 0xa5 then []
      else if p 0 = 0x5a then plcEvents p n
      else if p 0 = 0x5d then rfEvents env s p n
      else []) := by
  have hraw : Untouched (mhSockhexdump fd p n) := fun _ => Preserves.call _
  have hclock : Untouched (setClock env) := fun dev =>
    ((Inert.timeNow env).untouched dev).bind fun _ => Preserves.call _
  have hrest : Follows (if p 0 = 0xa5 then setClock env
      else if p 0 = 0x5a then cm15aDecodePlc fd p n
      else if p 0 = 0x5d then cm15aDecodeRf env relay fd p n
      else pure ()) s _ :=
    (Follows.untouched hclock s).ite ((follows_decodePlc fd p n s).ite
      ((follows_decodeRf hrelay p n s).ite (Follows.untouched (fun _ => Preserves.pure ()) s)))
  rw [decodePacket]
  split
  · exact Follows.untouched_bind hraw hrest
  · exact hrest

/-- **The events of a packet account for what it does.** -/
theorem follows_cm15aDecode (hrelay : FollowsPl env relay) (buf : Memory) (len : ℕ) (s : X10State) :
    Follows (cm15aDecode env relay fd buf len) s (packetEvents env s buf len) := by
  have hnothing : Follows (pure () : X10M Unit) s [] :=
    Follows.untouched (fun _ => Preserves.pure _) s
  rw [cm15aDecode, packetEvents, seenPacket]
  split_ifs
  · exact hnothing
  · exact hnothing
  · exact follows_decodePacket hrelay _ _ s
  · exact follows_decodePacket hrelay _ _ s

/-- A command line that clears the tables. -/
def ClearsTables (line : Bytes) : Prop :=
  ∃ tokens, commandOfLine line = some (.st, tokens) ∧ tokens.head? = some (ascii "0")

theorem clearsTables_iff {line : Bytes} : ClearsTables line ↔
    ∃ a ∈ commandOfLine line, a.1 = .st ∧ a.2.head? = some (ascii "0") := by
  constructor
  · rintro ⟨tokens, hline, harg⟩
    exact ⟨_, hline, rfl, harg⟩
  · rintro ⟨⟨command, tokens⟩, hline, rfl, harg⟩
    exact ⟨tokens, hline, harg⟩

instance (line : Bytes) : Decidable (ClearsTables line) := decidable_of_iff _ clearsTables_iff.symm

/-- **The other commands leave the device tables alone**, but for the one that clears them. -/
theorem untouched_runCommand {command : Command} (hpl : command ≠ .pl)
    (hradio : ¬(command = .rf ∨ command = .rfsec ∨ command = .rfcam)) {tokens : List Bytes}
    (hst : command = .st → tokens.head? ≠ some (ascii "0")) :
    Untouched (runCommand c relay fd command tokens) := by
  have hreply : Untouched (rftorfReply fd) :=
    fun _ => (Preserves.gets _).bind fun _ => Preserves.call _
  have hmask : ∀ {f : X10State → X10State},
      (∀ t, (f t).devices = t.devices) → Untouched (modify f) :=
    fun hf _ => Preserves.modify fun t ht => (hf t).trans ht
  by_cases hshow : command = .st
  · subst hshow
    have hrun : runCommand c relay fd .st tokens =
        (huaShow c.env fd >>= fun _ => pure (.rest tokens.tail)) := if_neg (hst rfl)
    have hdevices : Untouched (huaShow c.env fd) := fun _ s hs =>
      (congrArg Prod.fst (huaShow_spec c.env fd s).2).trans hs
    rw [hrun]
    exact fun dev => (hdevices dev).bind fun _ => Preserves.pure _
  by_cases hpt : command = .pt
  · subst hpt
    refine fun dev => (untouched_or20ok dev).bind fun _ => ?_
    split
    · exact Preserves.pure _
    · exact Preserves.pure _
    · exact (untouched_x10Write _ dev).bind fun _ => Preserves.pure _
  by_cases hrftopl : command = .rftopl
  · subst hrftopl
    refine fun dev => (untouched_or20ok dev).bind fun _ => ?_
    exact (hmask (by intro; rfl) dev).bind fun _ => Preserves.bind (Preserves.call _) fun _ =>
      Preserves.pure _
  by_cases hrftorf : command = .rftorf
  · subst hrftorf
    refine fun dev => (untouched_or20ok dev).bind fun _ => ?_
    split
    · exact (hreply dev).bind fun _ => Preserves.pure _
    split
    · exact Preserves.pure _
    · exact (hmask (by intro; rfl) dev).bind fun _ => (hreply dev).bind fun _ => Preserves.pure _
  · exact (inert_answers hpl hradio hpt hrftopl hrftorf hshow tokens).untouched

/-- **The events of a command line account for what it does**, unless it clears the tables. -/
theorem follows_processcommandline (c : Ctx) (fd : ℤ) {line : Bytes} (hclear : ¬ClearsTables line)
    (s : X10State) : Follows (processcommandline c fd line) s (commandEvents c s line) := by
  rw [commandEvents]
  cases hline : commandOfLine line with
  | none => exact Follows.untouched (inert_of_commandOfLine_eq_none hline).untouched s
  | some a =>
    obtain ⟨command, tokens⟩ := a
    dsimp only
    by_cases hpl : command = .pl
    · subst hpl
      rw [if_pos rfl, processcommandline_of_line hline]
      exact (follows_plCommand tokens s).bind_untouched untouched_finish
    rw [if_neg hpl]
    cases hcmd : radioCommandOf command tokens with
    | none =>
      rw [processcommandline_of_line hline]
      refine Follows.untouched (fun dev => Preserves.bind ?_ fun flow => preserves_finish fd flow) s
      by_cases hradio : command = .rf ∨ command = .rfsec ∨ command = .rfcam
      · exact (inert_of_radioCommandOf_eq_none hradio hcmd).untouched dev
      · refine untouched_runCommand hpl hradio ?_ dev
        rintro rfl harg
        exact hclear ⟨tokens, hline, harg⟩
    | some a =>
      obtain ⟨cmd, rest⟩ := a
      have hrelay : FollowsPl c.env (relayTo c) := followsPl_processDepth c 0
      have hframe : Follows (cm15aDecodeRf c.env (relayTo c) (-1)
          (Memory.ofBytes cmd.frame c.env.stack) cmd.frame.length) s _ :=
        follows_decodeRf hrelay _ _ s
      rw [processcommandline_radio hline hcmd]
      refine Follows.untouched_bind untouched_or20ok ?_
      rw [or20ok_state]
      exact (hframe.bind_untouched fun _ => untouched_x10Write _).bind_untouched fun _ =>
        untouched_finish _

/-- **A line that clears the tables** leaves nothing to be shown. -/
theorem mirrors_cleared (c : Ctx) (fd : ℤ) {line : Bytes} (h : ClearsTables line) (s : X10State) :
    Mirrors .blank (processcommandline c fd line s).state := by
  obtain ⟨tokens, hline, harg⟩ := h
  have hrun : runCommand c (relayTo c) fd .st tokens =
      (modify huaSecInit >>= fun _ => pure (.rest tokens.tail)) := if_pos harg
  rw [processcommandline_of_line hline, hrun, X10M.bind_apply, finish_state]
  exact mirrors_blank s

/-- **What is heard in the lines that are printed is all that happens to the devices.** A mirror
that shows the device tables before a packet, whatever it is, or before a command line that does not
clear them, still shows them when it has heard the events that it reads in the lines. -/
theorem mirror_follows_lines (c : Ctx) (fd : ℤ) (s : X10State) (m : Mirror) (hm : Mirrors m s) :
    (∀ buf len, Mirrors ((heardEvents (decodeWith c buf len s).effects).foldl Mirror.hear m)
      (decodeWith c buf len s).state) ∧
      ∀ line, ¬ClearsTables line →
        Mirrors ((heardEvents (processcommandline c fd line s).effects).foldl Mirror.hear m)
          (processcommandline c fd line s).state := by
  constructor
  · intro buf len
    rw [heard_decodeWith]
    exact follows_cm15aDecode (followsPl_processDepth c 1) buf len s m hm
  · intro line hclear
    rw [heard_processcommandline]
    exact follows_processcommandline c fd hclear s m hm

/-- The first line of a program's own: A1 is switched on. -/
theorem mirror_follows_first : Mirrors ((heardEvents (processcommandline
      (.idle (.plain mochadConfigDefaults false)) 4 (ascii "pl a1 on") (huaSecInit .idle)).effects).foldl
        Mirror.hear .blank)
    (processcommandline (.idle (.plain mochadConfigDefaults false)) 4 (ascii "pl a1 on")
      (huaSecInit .idle)).state :=
  (mirror_follows_lines _ 4 (huaSecInit .idle) .blank (mirrors_blank _)).2 (ascii "pl a1 on") (by
    rintro ⟨tokens, hline, -⟩
    rw [show commandOfLine (ascii "pl a1 on") = some (.pl, [ascii "A1", ascii "ON"]) by
      decide +kernel] at hline
    cases hline)

end Inputs

end Mochad
