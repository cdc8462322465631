import Mochad.X10.Sensors

/-!
# The tables of devices and sensors

Whatever lines and packets come in, the tables hold what they are meant to hold (`TablesValid`): a
unit is unknown, off or on, and has a dim level exactly if it is on; a house is either being
addressed or not; and a sensor has one row.

No array is indexed outside its bounds (`X10Input.InBounds`). The tables of the model have a cell for
every number, so this is said in two parts: the tables are changed by the functions for them alone,
at houses and units that there are (`Switching`), and nothing that is done depends on any other cell
(`SameCells`). The code tables are read at the houses and units of a line's address (`codeIndices`),
and what is sent for the line depends on no other entry (`LooksUp`).
-/

namespace Mochad

open X10M (Respects)

/-! ### Lines and packets -/

/-- What a line or a packet calls. -/
def X10Input.effects (s : X10State) : X10Input → List Effect
  | line c fd text => (processcommandline c fd text s).effects
  | packet env c buf len =>
      (cm15aDecode env (fun fd line => do let _ ← processcommandline c fd line) (-1) buf len s).effects

/-- **A line or a packet respects what the functions of the tables respect.** -/
theorem Uniform.input {R : X10State → X10State → Prop} (h : Uniform R) (i : X10Input)
    {s t : X10State} (hst : R s t) : i.effects s = i.effects t ∧ R (i.run s) (i.run t) := by
  cases i with
  | line c fd text =>
    obtain ⟨-, heffects, hstate⟩ := h.processcommandline c fd text s t hst
    exact ⟨heffects, hstate⟩
  | packet env c buf len =>
    have hrelay : ∀ fd line, IsPl line →
        Respects R (do let _ ← Mochad.processcommandline c fd line : X10M Unit) :=
      fun fd line _ => (h.processcommandline c fd line).bind fun _ => Respects.pure _
    obtain ⟨-, heffects, hstate⟩ := h.decode env hrelay (-1) buf len s t hst
    exact ⟨heffects, hstate⟩

/-! ### What the tables hold -/

/-- **The device tables are coherent.** -/
structure DevicesValid (s : X10State) : Prop where
  state : ∀ house unit, s.houseUnitState house unit = 0 ∨ s.houseUnitState house unit = 0x30 ∨
    s.houseUnitState house unit = 0x31
  dim : ∀ house unit, 0 < s.houseUnitDim house unit ↔ s.houseUnitState house unit = 0x31
  proto : ProtoSettled s

theorem devicesValid_init (s : X10State) : DevicesValid (huaSecInit s) where
  state _ _ := Or.inl rfl
  dim _ _ := iff_of_false (by decide : ¬(0 : UInt8) < 0) (by decide : ¬(0 : UInt8) = 0x31)
  proto _ := Or.inl rfl

/-- Cells that are written together stay coherent. -/
theorem DevicesValid.write {s s' : X10State} (h : DevicesValid s) (hproto : ProtoSettled s')
    {func level : UInt8} (hfunc : func = 0x30 ∨ func = 0x31) (hlevel : 0 < level ↔ func = 0x31)
    (group : ℤ → ℤ → Prop) (hin : ∀ house unit, group house unit →
      s'.houseUnitState house unit = func ∧ s'.houseUnitDim house unit = level)
    (hout : ∀ house unit, ¬group house unit →
      s'.houseUnitState house unit = s.houseUnitState house unit ∧
        s'.houseUnitDim house unit = s.houseUnitDim house unit) : DevicesValid s' where
  proto := hproto
  state house unit := by
    by_cases hg : group house unit
    · rw [(hin house unit hg).1]
      exact Or.inr hfunc
    · rw [(hout house unit hg).1]
      exact h.state house unit
  dim house unit := by
    by_cases hg : group house unit
    · rw [(hin house unit hg).1, (hin house unit hg).2]
      exact hlevel
    · rw [(hout house unit hg).1, (hout house unit hg).2]
      exact h.dim house unit

/-- The dim level of a switched unit goes with its state. -/
theorem dimLevel_pos_iff {func : UInt8} (h : func = 0x30 ∨ func = 0x31) :
    0 < dimLevel func ↔ func = 0x31 := by
  obtain rfl | rfl := h
  · decide
  · decide

/-- **Switching keeps the tables coherent**, where units are switched on or off. -/
theorem uniform_devicesValid : Uniform (Itself DevicesValid) := by
  have hswitch : ∀ {house : ℤ} {func : UInt8} {group : Set ℤ} {s s' : X10State}, DevicesValid s →
      func = 0x30 ∨ func = 0x31 → Switched house func group s s' →
      s'.x10protostate = Function.update s.x10protostate house 1 → DevicesValid s' := by
    intro house func group s s' hs hfunc hsw hproto
    refine hs.write (hs.proto.update (Or.inr rfl) hproto) hfunc (dimLevel_pos_iff hfunc)
      (fun h u => h = house ∧ u ∈ group) ?_ hsw.others
    rintro h u ⟨rfl, hu⟩
    exact ⟨hsw.state u hu, hsw.dim u hu⟩
  exact {
    add := by
      rintro house unit - - s _ ⟨rfl, hs⟩
      refine ⟨rfl, ?_⟩
      rw [huaAdd]
      split
      · exact ⟨hs.state, hs.dim, hs.proto⟩
      split
      · exact ⟨hs.state, hs.dim, hs.proto.update (Or.inl rfl) rfl⟩
      · exact hs
    func := by
      rintro house f - hf s _ ⟨rfl, hs⟩
      exact ⟨rfl, hswitch hs hf (huaFunc_switched house f s) (huaFunc_selected house f s).2⟩
    funcAll := by
      rintro house f - hf s _ ⟨rfl, hs⟩
      exact ⟨rfl, hswitch hs hf (huaFuncAll_switched house f s) (huaFuncAll_selected house f s).2⟩
    xdim := by
      rintro house unit - - level s _ ⟨rfl, hs⟩
      have hfunc : (if 0 < level then (0x31 : UInt8) else 0x30) = 0x30 ∨
          (if 0 < level then (0x31 : UInt8) else 0x30) = 0x31 := by
        split
        · exact Or.inr rfl
        · exact Or.inl rfl
      have hlevel : 0 < level ↔ (if 0 < level then (0x31 : UInt8) else 0x30) = 0x31 := by
        split
        next h => exact iff_of_true h rfl
        next h => exact iff_of_false h (by decide)
      refine ⟨rfl, hs.write (hs.proto.update (Or.inr rfl) rfl) hfunc hlevel
        (fun h u => h = house ∧ u = unit) ?_ ?_⟩
      · rintro h u ⟨rfl, rfl⟩
        exact ⟨(Houseunitaddrs.set_apply ..).trans (if_pos ⟨rfl, rfl⟩),
          (Houseunitaddrs.set_apply ..).trans (if_pos ⟨rfl, rfl⟩)⟩
      · rintro h u hne
        exact ⟨(Houseunitaddrs.set_apply ..).trans (if_neg hne),
          (Houseunitaddrs.set_apply ..).trans (if_neg hne)⟩
    rest := fun s t h => congrArg _ h.1
    frame := by
      rintro s _ s' t' ⟨rfl, hs⟩ hs' ht' hrest
      refine ⟨X10State.ext_devices (hs'.trans ht'.symm) hrest, ?_⟩
      simp only [X10State.devices, Prod.mk.injEq] at hs'
      obtain ⟨⟨hstate, hdim⟩, -, hproto⟩ := hs'
      exact ⟨by rw [hstate]; exact hs.state, by rw [hstate, hdim]; exact hs.dim,
        fun house => by rw [hproto]; exact hs.proto house⟩
    init := by
      rintro s _ ⟨rfl, hs⟩
      exact ⟨rfl, devicesValid_init s⟩
    cell := by
      rintro s _ ⟨rfl, -⟩ house unit - -
      exact ⟨rfl, rfl, rfl⟩ }

/-- **What a history of frames leaves in the table of sensors** is a row for each sensor, each of
which has the address of a frame. -/
def SensorsSeen (s : X10State) : Prop :=
  ∃ seen, TableKeepsWithin s.x10sensors seen ∧ ∀ e ∈ seen, Sighting.Received e

/-- An address has three bytes. -/
theorem Sighting.Received.lt {e : Sighting} (h : e.Received) : e.key < 2 ^ 24 := by
  rw [Sighting.Received] at h
  split at h
  · obtain ⟨b, hb⟩ := h
    have hlt := b.toNat_lt
    omega
  · obtain ⟨a₁, a₂, a₃, hkey, -⟩ := h
    have hlt₁ := a₁.toNat_lt
    have hlt₂ := a₂.toNat_lt
    have hlt₃ := a₃.toNat_lt
    omega

/-- **One more line or packet**, also one that clears the table. -/
theorem SensorsSeen.input {s : X10State} (h : SensorsSeen s) (i : X10Input) : SensorsSeen (i.run s) := by
  by_cases hclear : i.ClearsSensors
  · cases i with
    | packet env c buf len => exact hclear.elim
    | line c fd text =>
      obtain ⟨tokens, hline, harg⟩ := hclear
      have hempty : (processcommandline c fd text s).state.x10sensors = [] := by
        have hst : stCommand c fd tokens = (do
            X10M.modify huaSecInit
            pure (.rest tokens.tail)) := if_pos harg
        rw [processcommandline_of_line hline, X10M.bind_apply]
        show (finish fd _ _).state.x10sensors = []
        rw [finish_state]
        show (stCommand c fd tokens s).state.x10sensors = []
        rw [hst]
        rfl
      exact ⟨[], tableKeepsWithin_nil hempty, fun e he => nomatch he⟩
  · obtain ⟨seen, hkept, hreceived⟩ := h
    refine ⟨_, hkept.input hclear, fun e he => ?_⟩
    rcases List.mem_append.mp he with he | he
    · exact received_of_seen (Option.mem_toList.mp he)
    · exact hreceived e he

/-- **The tables hold what they are meant to hold.** -/
structure TablesValid (s : X10State) : Prop extends DevicesValid s where
  count : s.x10sensors.length ≤ 511
  distinct : (s.x10sensors.map (·.secaddr)).Nodup
  below : ∀ sen ∈ s.x10sensors, sen.secaddr < 2 ^ 24

/-- Its rows are those of sensors that were seen. -/
theorem SensorsSeen.tablesValid {s : X10State} (hdev : DevicesValid s) (h : SensorsSeen s) :
    TablesValid s := by
  obtain ⟨seen, hkept, hreceived⟩ := h
  refine ⟨hdev, hkept.length.trans_le (min_le_left _ _), hkept.nodup, fun sen hsen => ?_⟩
  have hrow : Register.keptWithin (maxSensors - 1) seen sen.secaddr ≠ none := by
    rw [ne_eq, hkept.keptWithin_eq_none_iff, not_not]
    exact List.mem_map.mpr ⟨sen, hsen, rfl⟩
  obtain ⟨row, hrow⟩ := Option.ne_none_iff_exists'.mp hrow
  obtain ⟨e, he, hkey, -⟩ := Register.mem_of_keptWithin hrow
  rw [← hkey]
  exact (hreceived e he).lt

/-- After any lines and packets the devices are coherent, and the sensors are those that were seen. -/
theorem Watched.valid_run {w : Watched} (hdev : DevicesValid w.x10) (hsen : SensorsSeen w.x10)
    (inputs : List X10Input) :
    DevicesValid (w.run inputs).x10 ∧ SensorsSeen (w.run inputs).x10 := by
  induction inputs generalizing w with
  | nil => exact ⟨hdev, hsen⟩
  | cons i inputs ih =>
    have hstep := (uniform_devicesValid.input i ⟨rfl, hdev⟩).2
    exact ih (w := w.step i) hstep.2 (hsen.input i)

theorem sensorsSeen_run (s : X10State) (inputs : List X10Input) :
    SensorsSeen (Watched.run ⟨huaSecInit s, []⟩ inputs).x10 :=
  (Watched.valid_run (w := ⟨huaSecInit s, []⟩) (devicesValid_init s)
    ⟨[], tableKeepsWithin_nil rfl, fun _ he => nomatch he⟩ inputs).2

/-- **After any lines and packets the tables are valid.** -/
theorem tablesValid_run (s : X10State) (inputs : List X10Input) :
    TablesValid (Watched.run ⟨huaSecInit s, []⟩ inputs).x10 := by
  have hdev := (Watched.valid_run (w := ⟨huaSecInit s, []⟩) (devicesValid_init s)
    ⟨[], tableKeepsWithin_nil rfl, fun _ he => nomatch he⟩ inputs).1
  exact (sensorsSeen_run s inputs).tablesValid hdev

/-! ### Bounds -/

/-- **The device tables were changed at houses and units that there are**, by the functions for them,
if they were changed at all. -/
inductive Switching (s : X10State) : X10State → Prop
  | start : Switching s s
  | other {t t' : X10State} : Switching s t → t'.devices = t.devices → Switching s t'
  | add {t : X10State} {house unit : ℤ} : IsUnit house → IsUnit unit → Switching s t →
      Switching s (huaAdd house unit t)
  | func {t : X10State} {house : ℤ} {f : UInt8} : IsUnit house → Switching s t →
      Switching s (huaFunc house f t)
  | funcAll {t : X10State} {house : ℤ} {f : UInt8} : IsUnit house → Switching s t →
      Switching s (huaFuncAll house f t)
  | xdim {t : X10State} {house unit : ℤ} {level : UInt8} : IsUnit house → IsUnit unit →
      Switching s t → Switching s (huaSetstatusXdim house unit level t)
  | init {t : X10State} : Switching s t → Switching s (huaSecInit t)

theorem uniform_switching (s : X10State) : Uniform (Itself (Switching s)) where
  add house unit hh hu t _ h := ⟨congrArg _ h.1, .add hh hu h.2⟩
  func house f hh _ t _ h := ⟨congrArg _ h.1, .func hh h.2⟩
  funcAll house f hh _ t _ h := ⟨congrArg _ h.1, .funcAll hh h.2⟩
  xdim house unit hh hu level t _ h := ⟨congrArg _ h.1, .xdim hh hu h.2⟩
  rest t _ h := congrArg _ h.1
  frame t t₂ t' t₂' h ht ht₂ hrest := by
    obtain ⟨rfl, h⟩ := h
    exact ⟨X10State.ext_devices (ht.trans ht₂.symm) hrest, .other h ht⟩
  init t _ h := ⟨congrArg _ h.1, .init h.2⟩
  cell t _ h house unit _ _ := by
    obtain ⟨rfl, -⟩ := h
    exact ⟨rfl, rfl, rfl⟩

/-- Switching a house changes nothing but the devices. -/
theorem huaFuncAll_rest (house : ℤ) (f : UInt8) (s : X10State) :
    (huaFuncAll house f s).rest = s.rest := by
  have hfold : ∀ (us : List ℕ) (s : X10State), (us.foldl (huaSwitch house f) s).rest = s.rest := by
    intro us
    induction us with
    | nil => exact fun s => rfl
    | cons n us ih => exact fun s => ih (huaSwitch house f s n)
  exact hfold units _

/-- **Two states have the same cells** for the houses and units that there are, and agree about
everything else. -/
structure SameCells (s t : X10State) : Prop where
  rest : s.rest = t.rest
  proto : ∀ house, IsUnit house → s.x10protostate house = t.x10protostate house
  cell : ∀ house unit, IsUnit house → IsUnit unit →
    s.houseUnitState house unit = t.houseUnitState house unit ∧
      s.houseUnitDim house unit = t.houseUnitDim house unit ∧
      s.houseUnitSelected house unit = t.houseUnitSelected house unit

/-- An update of one house is the same in both. -/
theorem update_congr_of_unit {α : Type} {f g : ℤ → α} {house : ℤ} {a : α}
    (h : ∀ x, IsUnit x → f x = g x) :
    ∀ x, IsUnit x → Function.update f house a x = Function.update g house a x := by
  intro x hx
  rw [Function.update_apply, Function.update_apply, h x hx]

/-- An update of one cell is the same in both. -/
theorem set_congr_of_unit {f g : Houseunitaddrs} {house unit : ℤ} {v : UInt8}
    (h : ∀ x y, IsUnit x → IsUnit y → f x y = g x y) :
    ∀ x y, IsUnit x → IsUnit y → f.set house unit v x y = g.set house unit v x y := by
  intro x y hx hy
  rw [Houseunitaddrs.set_apply, Houseunitaddrs.set_apply, h x y hx hy]

theorem SameCells.init {s t : X10State} (h : SameCells s t) (house : ℤ) :
    SameCells (huaInit house s) (huaInit house t) where
  rest := h.rest
  proto := h.proto
  cell x y hx hy := by
    obtain ⟨hstate, hdim, hselected⟩ := h.cell x y hx hy
    refine ⟨hstate, hdim, ?_⟩
    show Function.update s.houseUnitSelected house (fun _ => 0) x y =
      Function.update t.houseUnitSelected house (fun _ => 0) x y
    rw [Function.update_apply, Function.update_apply]
    split
    · rfl
    · exact hselected

/-- The functions of the tables read and write such cells alone. -/
theorem uniform_sameCells : Uniform SameCells where
  rest s t h := h.rest
  cell s t h := h.cell
  frame s t s' t' h hs ht hrest := by
    simp only [X10State.devices, Prod.mk.injEq] at hs ht
    obtain ⟨⟨hstate, hdim⟩, hselected, hproto⟩ := hs
    obtain ⟨⟨hstate', hdim'⟩, hselected', hproto'⟩ := ht
    refine ⟨hrest, ?_, ?_⟩
    · rw [hproto, hproto']
      exact h.proto
    · rw [hstate, hstate', hdim, hdim', hselected, hselected']
      exact h.cell
  init s t h := by
    have hrest := h.rest
    simp only [X10State.rest, Prod.mk.injEq] at hrest
    obtain ⟨-, ⟨hpl, hrf⟩, hdups, htimems, htime⟩ := hrest
    exact ⟨by simp only [X10State.rest, huaSecInit, hpl, hrf, hdups, htimems, htime],
      fun _ _ => rfl, fun _ _ _ _ => ⟨rfl, rfl, rfl⟩⟩
  add house unit hh hu s t h := by
    have hone : ∀ {s t : X10State}, SameCells s t →
        SameCells { s with houseUnitSelected := s.houseUnitSelected.set house unit 0x31 }
          { t with houseUnitSelected := t.houseUnitSelected.set house unit 0x31 } :=
      fun h => ⟨h.rest, h.proto, fun x y hx hy => ⟨(h.cell x y hx hy).1, (h.cell x y hx hy).2.1,
        set_congr_of_unit (fun x y hx hy => (h.cell x y hx hy).2.2) x y hx hy⟩⟩
    rw [huaAdd, huaAdd, h.proto house hh]
    split
    · exact hone h
    split
    · have hnew := hone (h.init house)
      exact ⟨hnew.rest, update_congr_of_unit h.proto, hnew.cell⟩
    · exact h
  func house f hh _ s t h := by
    rw [huaFunc_eq, huaFunc_eq]
    refine ⟨h.rest, update_congr_of_unit h.proto, fun x y hx hy => ?_⟩
    obtain ⟨hstate, hdim, hselected⟩ := h.cell x y hx hy
    have hsel := (h.cell house y hh hy).2.2
    refine ⟨?_, ?_, hselected⟩
    · simp only [hstate, hsel]
    · simp only [hdim, hsel]
  funcAll house f hh _ s t h := by
    have hswitched := huaFuncAll_switched house f
    have hselected := huaFuncAll_selected house f
    refine ⟨?_, ?_, fun x y hx hy => ?_⟩
    · rw [huaFuncAll_rest, huaFuncAll_rest, h.rest]
    · rw [(hselected s).2, (hselected t).2]
      exact update_congr_of_unit h.proto
    · rw [(hselected s).1, (hselected t).1]
      by_cases hin : x = house
      · subst hin
        rw [(hswitched s).state y hy, (hswitched t).state y hy, (hswitched s).dim y hy,
          (hswitched t).dim y hy]
        exact ⟨rfl, rfl, (h.cell x y hx hy).2.2⟩
      · obtain ⟨hstate, hdim⟩ := (hswitched s).others x y fun hmem => hin hmem.1
        obtain ⟨hstate', hdim'⟩ := (hswitched t).others x y fun hmem => hin hmem.1
        rw [hstate, hstate', hdim, hdim']
        exact h.cell x y hx hy
  xdim house unit hh hu level s t h := by
    have hnew := h.init house
    exact ⟨h.rest, update_congr_of_unit h.proto, fun x y hx hy =>
      ⟨set_congr_of_unit (fun x y hx hy => (hnew.cell x y hx hy).1) x y hx hy,
        set_congr_of_unit (fun x y hx hy => (hnew.cell x y hx hy).2.1) x y hx hy,
        set_congr_of_unit (fun x y hx hy => (hnew.cell x y hx hy).2.2) x y hx hy⟩⟩

/-- **The indices that a line gives to the code tables**: the house of its address, and on the power
line the unit, if it has one. -/
def codeIndices (line : Bytes) : List ℤ :=
  match commandOfLine line with
  | some (.pl, tokens) =>
      let ((house, unit), _) := getdeviceaddr tokens
      if house < 0 then [] else if unit < 0 then [house] else [house, unit]
  | some (.rf, tokens) | some (.rfcam, tokens) =>
      let ((house, _), _) := getdeviceaddr tokens
      if house < 0 then [] else [house]
  | _ => []

/-- They are houses and units. -/
theorem isUnit_of_mem_codeIndices {line : Bytes} {i : ℤ} (h : i ∈ codeIndices line) : IsUnit i := by
  have hbounds : ∀ {tokens}, ¬(getdeviceaddr tokens).1.1 < 0 →
      IsUnit (getdeviceaddr tokens).1.1 ∧
        ((getdeviceaddr tokens).1.2 = -1 ∨ IsUnit (getdeviceaddr tokens).1.2) :=
    fun hnonneg => getdeviceaddr_bounds rfl hnonneg
  rw [codeIndices] at h
  split at h
  next tokens hline =>
    dsimp only at h
    split at h
    · exact absurd h List.not_mem_nil
    next hnonneg =>
      split at h
      · rw [List.mem_singleton.mp h]
        exact (hbounds hnonneg).1
      next hunit =>
        rcases List.mem_cons.mp h with rfl | h
        · exact (hbounds hnonneg).1
        · rw [List.mem_singleton.mp h]
          obtain hnone | hu := (hbounds hnonneg).2
          · exact absurd (hnone ▸ (by decide : (-1 : ℤ) < 0)) hunit
          · exact hu
  · dsimp only at h
    split at h
    · exact absurd h List.not_mem_nil
    next hnonneg =>
      rw [List.mem_singleton.mp h]
      exact (hbounds hnonneg).1
  · dsimp only at h
    split at h
    · exact absurd h List.not_mem_nil
    next hnonneg =>
      rw [List.mem_singleton.mp h]
      exact (hbounds hnonneg).1
  · exact absurd h List.not_mem_nil

/-- The indices that a command looks up. -/
def PlCommand.codeIndices : PlCommand → List ℤ
  | select house unit => [house, unit]
  | toHouse house _ _ => [house]
  | toUnit house unit _ _ => [house, unit]
  | extended house unit _ _ _ => [house, unit]

def RadioCommand.codeIndices : RadioCommand → List ℤ
  | device house _ _ => [house]
  | camera house _ => [house]
  | _ => []

/-- The packet of a function, as a code table has it. -/
def housefuncWith (table : List UInt8) (house func param : ℤ) : Bytes :=
  if func = 4 ∨ func = 5 then
    [0x06, houseByte table house (lowByte func), 0x06 ||| lowByte ((param % 32) * 8)]
  else [0x06, houseByte table house (lowByte func)]

/-- The packets of a command, as a code table has them. -/
def PlCommand.sentWith (table : List UInt8) : PlCommand → List Bytes
  | select house unit => [[0x04, houseByte table house (tableAt table unit)]]
  | toHouse house func param => [housefuncWith table house func param]
  | toUnit house unit func param =>
      [[0x04, houseByte table house (tableAt table unit)], housefuncWith table house func param]
  | extended house unit command subcmd param =>
      [[0x07, houseByte table house 0x7, tableAt table unit, lowByte param,
        (lowByte command <<< 4) ||| (lowByte subcmd &&& 0x0F)]]

/-- The frame of a command, as a code table has it. -/
def RadioCommand.frameWith (table : List UInt8) : RadioCommand → Bytes
  | device house unit func =>
      let hu := houseByte table house ((lowByte unit &&& 0x08) >>> 1)
      let fb := (rfFuncByte unit func).getD 0
      [0xeb, 0x20, hu, ~~~hu, fb, ~~~fb]
  | camera house keyname =>
      let h := tableAt table house <<< 4
      let key := (findCamRemoteCommand keyname).getD 0
      [0xeb, 0x14, h + (key - 0x2B), key, h]
  | cmd => cmd.frame

/-- **What is sent depends on no other entry.** -/
theorem sentWith_congr {cmd : PlCommand} {table : List UInt8}
    (h : ∀ i ∈ cmd.codeIndices, tableAt table i = tableAt x10housecode i) :
    cmd.sentWith table = cmd.sent := by
  cases cmd with
  | select house unit =>
    simp only [PlCommand.codeIndices, List.forall_mem_cons] at h
    simp only [PlCommand.sentWith, houseByte, h.1, h.2.1]
    rfl
  | toHouse house func param =>
    simp only [PlCommand.codeIndices, List.forall_mem_cons] at h
    simp only [PlCommand.sentWith, housefuncWith, houseByte, h.1]
    rfl
  | toUnit house unit func param =>
    simp only [PlCommand.codeIndices, List.forall_mem_cons] at h
    simp only [PlCommand.sentWith, housefuncWith, houseByte, h.1, h.2.1]
    rfl
  | extended house unit command subcmd param =>
    simp only [PlCommand.codeIndices, List.forall_mem_cons] at h
    simp only [PlCommand.sentWith, houseByte, h.1, h.2.1]
    rfl

theorem frameWith_congr {cmd : RadioCommand} {table : List UInt8}
    (h : ∀ i ∈ cmd.codeIndices, tableAt table i = tableAt x10housecoderf i) :
    cmd.frameWith table = cmd.frame := by
  cases cmd with
  | device house unit func =>
    simp only [RadioCommand.codeIndices, List.forall_mem_cons] at h
    simp only [RadioCommand.frameWith, houseByte, h.1]
    rfl
  | camera house keyname =>
    simp only [RadioCommand.codeIndices, List.forall_mem_cons] at h
    simp only [RadioCommand.frameWith, h.1]
    rfl
  | short address function => rfl
  | long address function => rfl

/-- The command that is sent looks up the indices of its line. -/
theorem plCommand_codeIndices {line : Bytes} {tokens rest : List Bytes} {cmd : PlCommand}
    (hline : commandOfLine line = some (.pl, tokens)) (h : plCommandOf tokens = some (cmd, rest)) :
    cmd.codeIndices = codeIndices line := by
  rw [codeIndices, hline]
  dsimp only
  simp only [plCommandOf] at h
  split at h
  · cases h
  next hhouse =>
    rw [if_neg hhouse]
    split at h
    next hunit =>
      rw [if_pos hunit]
      split_ifs at h
      all_goals
        obtain ⟨rfl, -⟩ := Prod.mk.inj (Option.some.inj h)
        rfl
    next hunit =>
      rw [if_neg hunit]
      split_ifs at h
      all_goals
        obtain ⟨rfl, -⟩ := Prod.mk.inj (Option.some.inj h)
        rfl

theorem radioCommand_codeIndices {line : Bytes} {command : Command} {tokens rest : List Bytes}
    {cmd : RadioCommand} (hline : commandOfLine line = some (command, tokens))
    (h : radioCommandOf command tokens = some (cmd, rest)) :
    cmd.codeIndices = codeIndices line := by
  rw [codeIndices, hline]
  cases command with
  | rf =>
    simp only [radioCommandOf] at h
    split at h
    · cases h
    next hnot =>
      obtain ⟨rfl, -⟩ := Prod.mk.inj (Option.some.inj h)
      exact (if_neg (not_or.mp hnot).1).symm
  | rfsec =>
    simp only [radioCommandOf] at h
    split at h
    · cases h
    · split_ifs at h
      all_goals
        obtain ⟨rfl, -⟩ := Prod.mk.inj (Option.some.inj h)
        rfl
  | rfcam =>
    simp only [radioCommandOf] at h
    split at h
    · cases h
    · split at h
      · cases h
      next hnot =>
        obtain ⟨rfl, -⟩ := Prod.mk.inj (Option.some.inj h)
        exact (if_neg (not_or.mp hnot).1).symm
  | _ => cases h

/-- **What a line looks up in the code tables**: the houses and units of its address. What is sent
for it is made of these entries, whatever the others are. -/
structure LooksUp (line : Bytes) : Prop where
  bounds : ∀ i ∈ codeIndices line, IsUnit i
  pl : ∀ tokens cmd rest, commandOfLine line = some (.pl, tokens) →
    plCommandOf tokens = some (cmd, rest) →
      (∀ c fd s, packets (processcommandline c fd line s).effects = cmd.sent) ∧
        ∀ table, (∀ i ∈ codeIndices line, tableAt table i = tableAt x10housecode i) →
          cmd.sentWith table = cmd.sent
  radio : ∀ command tokens cmd rest, commandOfLine line = some (command, tokens) →
    radioCommandOf command tokens = some (cmd, rest) →
      (∀ c fd, processcommandline c fd line = (do
        or20ok c fd
        rfTx c.env (relayTo c) cmd.frame
        finish fd (.rest rest))) ∧
        ∀ table, (∀ i ∈ codeIndices line, tableAt table i = tableAt x10housecoderf i) →
          cmd.frameWith table = cmd.frame

theorem looksUp (line : Bytes) : LooksUp line where
  bounds := fun _ hi => isUnit_of_mem_codeIndices hi
  pl := fun _ _ _ hline hcmd => ⟨fun _ _ s => packets_pl hline hcmd s, fun _ h =>
    sentWith_congr (plCommand_codeIndices hline hcmd ▸ h)⟩
  radio := fun _ _ _ _ hline hcmd => ⟨fun _ _ => processcommandline_radio hline hcmd, fun _ h =>
    frameWith_congr (radioCommand_codeIndices hline hcmd ▸ h)⟩

/-- **No array is indexed outside its bounds** for a line or a packet. -/
structure X10Input.InBounds (i : X10Input) : Prop where
  changes : ∀ s, Switching s (i.run s)
  reads : ∀ s t, SameCells s t → i.effects s = i.effects t ∧ SameCells (i.run s) (i.run t)

/-- **The tables of devices and sensors stay valid**, whatever lines and packets come in after they
were cleared; and no array is indexed outside its bounds, in any state and for any line or packet. -/
theorem tables_valid (s : X10State) (inputs : List X10Input) :
    TablesValid (Watched.run ⟨huaSecInit s, []⟩ inputs).x10 ∧ (∀ i : X10Input, i.InBounds) ∧
      ∀ line, LooksUp line := by
  refine ⟨tablesValid_run s inputs, fun i => ⟨fun t => ?_, fun t u h => ?_⟩, looksUp⟩
  · exact ((uniform_switching t).input i ⟨rfl, .start⟩).2.2
  · exact uniform_sameCells.input i h

end Mochad
