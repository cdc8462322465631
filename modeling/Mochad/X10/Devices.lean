import Mochad.X10.State

/-!
# What switching does

`hua_func` and `hua_func_all` go through the units of a house one by one. Here is what
they leave, as a whole.
-/

namespace Mochad

/-- The units of a house. -/
def IsUnit (u : ℤ) : Prop := 0 ≤ u ∧ u < 16

instance (u : ℤ) : Decidable (IsUnit u) := inferInstanceAs (Decidable (_ ∧ _))

theorem isUnit_iff {u : ℤ} : IsUnit u ↔ ∃ n ∈ units, (n : ℤ) = u := by
  simp only [IsUnit, units, List.mem_range]
  constructor
  · rintro ⟨hlow, hhigh⟩
    exact ⟨u.toNat, by omega, by omega⟩
  · rintro ⟨n, hn, rfl⟩
    omega

/-- The dim level that goes with a state. -/
def dimLevel (func : UInt8) : UInt8 := if func = 0x31 then 63 else 0

/-- **Some units of a house are switched**, and nothing else is. -/
structure Switched (house : ℤ) (func : UInt8) (group : Set ℤ) (s s' : X10State) : Prop where
  state : ∀ u ∈ group, s'.houseUnitState house u = func
  dim : ∀ u ∈ group, s'.houseUnitDim house u = dimLevel func
  others : ∀ h u, ¬(h = house ∧ u ∈ group) →
    s'.houseUnitState h u = s.houseUnitState h u ∧ s'.houseUnitDim h u = s.houseUnitDim h u

theorem Houseunitaddrs.set_apply (a : Houseunitaddrs) (house unit : ℤ) (v : UInt8) (h u : ℤ) :
    a.set house unit v h u = if h = house ∧ u = unit then v else a h u := by
  rw [Houseunitaddrs.set, Function.update_apply]
  split
  next hh =>
    rw [Function.update_apply, hh]
    simp
  next hh => simp [hh]

/-- Some of a list of units are switched. -/
theorem foldl_huaSwitch (house : ℤ) (func : UInt8) (us : List ℕ) (s : X10State) :
    us.foldl (fun s (u : ℕ) =>
        if s.houseUnitSelected house u ≠ 0 then huaSwitch house func s u else s) s =
      { s with
        houseUnitState := fun h u =>
          if h = house ∧ (∃ n ∈ us, (n : ℤ) = u) ∧ s.houseUnitSelected house u ≠ 0 then func
          else s.houseUnitState h u
        houseUnitDim := fun h u =>
          if h = house ∧ (∃ n ∈ us, (n : ℤ) = u) ∧ s.houseUnitSelected house u ≠ 0 then dimLevel func
          else s.houseUnitDim h u } := by
  induction us generalizing s with
  | nil => simp
  | cons n us ih =>
    rw [List.foldl_cons, ih]
    by_cases hsel : s.houseUnitSelected house n ≠ 0
    · rw [if_pos hsel]
      simp only [huaSwitch, Houseunitaddrs.set_apply, X10State.mk.injEq, true_and, and_true]
      constructor
      · funext h u
        by_cases hu : h = house ∧ u = n
        · obtain ⟨rfl, rfl⟩ := hu
          simp [hsel]
        · simp only [if_neg hu, List.mem_cons, exists_eq_or_imp]
          congr 1
          grind
      · funext h u
        by_cases hu : h = house ∧ u = n
        · obtain ⟨rfl, rfl⟩ := hu
          simp [hsel, dimLevel]
        · simp only [if_neg hu, List.mem_cons, exists_eq_or_imp]
          congr 1
          grind
    · rw [if_neg hsel]
      simp only [X10State.mk.injEq, true_and, and_true]
      constructor
      · funext h u
        congr 1
        grind
      · funext h u
        congr 1
        grind

/-- The selected units of a house. -/
def selection (s : X10State) (house : ℤ) : Set ℤ := {u | IsUnit u ∧ s.houseUnitSelected house u ≠ 0}

/-- **`hua_func`.** -/
theorem huaFunc_eq (house : ℤ) (func : UInt8) (s : X10State) :
    huaFunc house func s =
      { s with
        x10protostate := Function.update s.x10protostate house 1
        houseUnitState := fun h u =>
          if h = house ∧ IsUnit u ∧ s.houseUnitSelected house u ≠ 0 then func
          else s.houseUnitState h u
        houseUnitDim := fun h u =>
          if h = house ∧ IsUnit u ∧ s.houseUnitSelected house u ≠ 0 then dimLevel func
          else s.houseUnitDim h u } := by
  rw [huaFunc, foldl_huaSwitch]
  simp only [isUnit_iff]

theorem huaFunc_switched (house : ℤ) (func : UInt8) (s : X10State) :
    Switched house func (selection s house) s (huaFunc house func s) := by
  rw [huaFunc_eq]
  refine ⟨fun u hu => if_pos ⟨rfl, hu⟩, fun u hu => if_pos ⟨rfl, hu⟩, fun h u hu => ?_⟩
  exact ⟨if_neg hu, if_neg hu⟩

/-- **What is switched in turn is switched.** -/
theorem Switched.trans {house : ℤ} {func : UInt8} {a b : Set ℤ} {s t u : X10State}
    (hst : Switched house func a s t) (htu : Switched house func b t u) :
    Switched house func (a ∪ b) s u := by
  have hcase : ∀ n ∈ a ∪ b, u.houseUnitState house n = func ∧
      u.houseUnitDim house n = dimLevel func := by
    intro n hn
    by_cases hb : n ∈ b
    · exact ⟨htu.state n hb, htu.dim n hb⟩
    · have ha : n ∈ a := hn.resolve_right hb
      obtain ⟨hstate, hdim⟩ := htu.others house n fun h => hb h.2
      exact ⟨hstate.trans (hst.state n ha), hdim.trans (hst.dim n ha)⟩
  refine ⟨fun n hn => (hcase n hn).1, fun n hn => (hcase n hn).2, fun h n hn => ?_⟩
  obtain ⟨hstate, hdim⟩ := htu.others h n fun hin => hn ⟨hin.1, Or.inr hin.2⟩
  obtain ⟨hstate', hdim'⟩ := hst.others h n fun hin => hn ⟨hin.1, Or.inl hin.2⟩
  exact ⟨hstate.trans hstate', hdim.trans hdim'⟩

/-- **`hua_func_all`.** -/
theorem huaFuncAll_switched (house : ℤ) (func : UInt8) (s : X10State) :
    Switched house func {u | IsUnit u} s (huaFuncAll house func s) := by
  have hone : ∀ (s : X10State) (n : ℕ), Switched house func {(n : ℤ)} s (huaSwitch house func s n) := by
    intro s n
    refine ⟨?_, ?_, fun h u hu => ?_⟩
    · rintro u rfl
      exact (Houseunitaddrs.set_apply ..).trans (if_pos ⟨rfl, rfl⟩)
    · rintro u rfl
      exact (Houseunitaddrs.set_apply ..).trans (if_pos ⟨rfl, rfl⟩)
    · exact ⟨(Houseunitaddrs.set_apply ..).trans (if_neg hu),
        (Houseunitaddrs.set_apply ..).trans (if_neg hu)⟩
  have hfold : ∀ (us : List ℕ) (s : X10State),
      Switched house func {u | ∃ n ∈ us, (n : ℤ) = u} s (us.foldl (huaSwitch house func) s) := by
    intro us
    induction us with
    | nil =>
      intro s
      exact ⟨fun u hu => absurd hu (by simp), fun u hu => absurd hu (by simp), fun _ _ _ => ⟨rfl, rfl⟩⟩
    | cons n us ih =>
      intro s
      have hboth := (hone s n).trans (ih (huaSwitch house func s n))
      rwa [show ({(n : ℤ)} ∪ {u : ℤ | ∃ m ∈ us, (m : ℤ) = u} : Set ℤ) =
        {u | ∃ m ∈ n :: us, (m : ℤ) = u} by ext u; simp [eq_comm]] at hboth
  have hunits := hfold units { s with x10protostate := Function.update s.x10protostate house 1 }
  rw [show ({u | ∃ n ∈ units, (n : ℤ) = u} : Set ℤ) = {u | IsUnit u} from
    Set.ext fun u => isUnit_iff.symm] at hunits
  exact ⟨hunits.state, hunits.dim, hunits.others⟩

/-- It closes the group, and selects nobody. -/
theorem huaFunc_selected (house : ℤ) (func : UInt8) (s : X10State) :
    (huaFunc house func s).houseUnitSelected = s.houseUnitSelected ∧
      (huaFunc house func s).x10protostate = Function.update s.x10protostate house 1 := by
  rw [huaFunc_eq]
  exact ⟨rfl, rfl⟩

/-- **Who is switched shows**, if the units are switched on as well as off. -/
theorem Switched.group_eq {house : ℤ} {on off : UInt8} (hne : on ≠ off) {a b : Set ℤ}
    {s s₁ s₂ : X10State} (ha₁ : Switched house on a s s₁) (hb₁ : Switched house on b s s₁)
    (ha₂ : Switched house off a s s₂) (hb₂ : Switched house off b s s₂) : a = b := by
  have hsub : ∀ {a b : Set ℤ}, Switched house on a s s₁ → Switched house on b s s₁ →
      Switched house off a s s₂ → Switched house off b s s₂ → a ⊆ b := by
    intro a b ha₁ hb₁ ha₂ hb₂ u hu
    by_contra hnot
    have hone : on = s.houseUnitState house u :=
      (ha₁.state u hu).symm.trans (hb₁.others house u fun hb => hnot hb.2).1
    have htwo : off = s.houseUnitState house u :=
      (ha₂.state u hu).symm.trans (hb₂.others house u fun hb => hnot hb.2).1
    exact hne (hone.trans htwo.symm)
  exact Set.Subset.antisymm (hsub ha₁ hb₁ ha₂ hb₂) (hsub hb₁ ha₁ hb₂ ha₂)

/-- `hua_func_all` selects nobody, and closes every group. -/
theorem huaFuncAll_selected (house : ℤ) (func : UInt8) (s : X10State) :
    (huaFuncAll house func s).houseUnitSelected = s.houseUnitSelected ∧
      (huaFuncAll house func s).x10protostate = Function.update s.x10protostate house 1 := by
  have hfold : ∀ (us : List ℕ) (s : X10State),
      (us.foldl (huaSwitch house func) s).houseUnitSelected = s.houseUnitSelected ∧
        (us.foldl (huaSwitch house func) s).x10protostate = s.x10protostate := by
    intro us
    induction us with
    | nil => exact fun s => ⟨rfl, rfl⟩
    | cons n us ih => exact fun s => ih (huaSwitch house func s n)
  exact hfold units _

end Mochad
