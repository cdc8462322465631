import Mathlib

/-!
# Layers of assignments

A record is filled by assignments, one after the other: what a field holds in the end is the value
of the last assignment to it, and what it held at first if there is none (`assign_apply`).

A program that fills a record reads the assignments out of texts, and fails where a text is
malformed. `Assigns` compares such a step with the assignments that its text gives: the step
succeeds exactly if they are given, and then it makes these assignments and no others. The rules
build a whole loader out of its steps:

* `Assigns.keep`, `Assigns.fail`, `Assigns.set` – steps that assign nothing, fail, or set a field;
* `Assigns.seq`, `Assigns.foldlM` – steps in a row;
* `Assigns.mapError` – a step whose errors are worded anew.
-/

namespace Mochad

namespace Layers

variable {F : Type*} {V : F → Type*}

/-! ### What layers give -/

/-- Some assignment is to the field. -/
def Mentions (as : List (Sigma V)) (f : F) : Prop := ∃ a ∈ as, a.1 = f

/-- The assignments of two layers, if both are given. -/
def both (given given' : Option (List (Sigma V))) : Option (List (Sigma V)) :=
  given.bind fun as => given'.map (as ++ ·)

/-- The assignments of all the layers of a list, if all are given. -/
def each {X : Type*} (given : X → Option (List (Sigma V))) : List X → Option (List (Sigma V))
  | [] => some []
  | x :: xs => both (given x) (each given xs)

theorem both_eq_some {given given' : Option (List (Sigma V))} {as : List (Sigma V)} :
    both given given' = some as ↔
      ∃ bs, given = some bs ∧ ∃ bs', given' = some bs' ∧ bs ++ bs' = as := by
  simp [both, Option.bind_eq_some_iff]

theorem not_mentions_nil (f : F) : ¬Mentions ([] : List (Sigma V)) f := by
  rintro ⟨a, ha, -⟩
  cases ha

/-- A field that neither layer mentions is not mentioned. -/
theorem not_mentions_both {f : F} {given given' : Option (List (Sigma V))} {as : List (Sigma V)}
    (h : ∀ bs, given = some bs → ¬Mentions bs f) (h' : ∀ bs, given' = some bs → ¬Mentions bs f)
    (hboth : both given given' = some as) : ¬Mentions as f := by
  obtain ⟨bs, hbs, bs', hbs', rfl⟩ := both_eq_some.mp hboth
  rintro ⟨a, ha, hf⟩
  rcases List.mem_append.mp ha with ha | ha
  · exact h bs hbs ⟨a, ha, hf⟩
  · exact h' bs' hbs' ⟨a, ha, hf⟩

theorem not_mentions_each {X : Type*} {f : F} {given : X → Option (List (Sigma V))}
    (h : ∀ x bs, given x = some bs → ¬Mentions bs f) (xs : List X) {as : List (Sigma V)}
    (heach : each given xs = some as) : ¬Mentions as f := by
  induction xs generalizing as with
  | nil =>
    obtain rfl := Option.some.inj heach
    exact not_mentions_nil f
  | cons x xs ih => exact not_mentions_both (h x) (fun bs hbs => ih hbs) heach

variable [DecidableEq F]

/-! ### Assignments in order -/

/-- What the fields hold after assignments in order. -/
def assign (as : List (Sigma V)) (s : (f : F) → V f) : (f : F) → V f :=
  as.foldl (fun s a => Function.update s a.1 a.2) s

/-- **The last value** that a field is assigned. -/
def last (f : F) : List (Sigma V) → Option (V f)
  | [] => none
  | a :: as => (last f as).or (if h : a.1 = f then some (h ▸ a.2) else none)

@[simp] theorem assign_nil (s : (f : F) → V f) : assign [] s = s := rfl

theorem assign_append (as bs : List (Sigma V)) (s : (f : F) → V f) :
    assign (as ++ bs) s = assign bs (assign as s) :=
  List.foldl_append

/-- **A field holds the last value that it is assigned.** -/
theorem assign_apply (as : List (Sigma V)) (s : (f : F) → V f) (f : F) :
    assign as s f = (last f as).getD (s f) := by
  induction as generalizing s with
  | nil => rfl
  | cons a as ih =>
    have hstep : assign (a :: as) s = assign as (Function.update s a.1 a.2) := rfl
    rw [hstep, ih, last]
    cases last f as with
    | some v => rfl
    | none =>
      obtain ⟨g, v⟩ := a
      by_cases h : g = f
      · subst h
        simp
      · simp [h, Ne.symm h]

theorem last_eq_none {f : F} {as : List (Sigma V)} (h : ¬Mentions as f) : last f as = none := by
  induction as with
  | nil => rfl
  | cons a as ih =>
    rw [last, ih fun ⟨b, hb, hf⟩ => h ⟨b, List.mem_cons_of_mem a hb, hf⟩,
      dif_neg fun hf => h ⟨a, List.mem_cons_self, hf⟩]
    rfl

/-- **Assignments change no field that they do not mention.** -/
theorem assign_of_not_mentions {f : F} {as : List (Sigma V)} (h : ¬Mentions as f)
    (s : (f : F) → V f) : assign as s f = s f := by
  rw [assign_apply, last_eq_none h]
  rfl

/-! ### Steps that fail or assign -/

variable {S ε ε' X : Type*}

/-- **A step makes the assignments that are given**, and fails if none are. -/
def Assigns (view : S → (f : F) → V f) (step : S → Except ε S) (given : Option (List (Sigma V))) :
    Prop :=
  ∀ s, (step s).toOption.map view = given.map fun as => assign as (view s)

namespace Assigns

variable {view : S → (f : F) → V f} {step step' : S → Except ε S}
variable {given given' : Option (List (Sigma V))}

/-- A step that succeeds was given assignments, and has made them. -/
theorem ok (h : Assigns view step given) {s s' : S} (hs : step s = .ok s') :
    ∃ as, given = some as ∧ view s' = assign as (view s) := by
  have hview := h s
  rw [hs] at hview
  cases given with
  | none => cases hview
  | some as => exact ⟨as, rfl, Option.some.inj hview⟩

/-- A step that is given assignments succeeds. -/
theorem exists_ok (h : Assigns view step given) {as : List (Sigma V)} (hgiven : given = some as)
    (s : S) : ∃ s', step s = .ok s' ∧ view s' = assign as (view s) := by
  have hview := h s
  rw [hgiven] at hview
  cases hs : step s with
  | error e =>
    rw [hs] at hview
    cases hview
  | ok s' =>
    rw [hs] at hview
    exact ⟨s', rfl, Option.some.inj hview⟩

/-- **A step changes no field that it is not given.** -/
theorem frame (h : Assigns view step given) {s s' : S} (hs : step s = .ok s') {f : F}
    (hf : ∀ as, given = some as → ¬Mentions as f) : view s' f = view s f := by
  obtain ⟨as, hgiven, hview⟩ := h.ok hs
  rw [hview, assign_of_not_mentions (hf as hgiven)]

theorem keep : Assigns view (.ok : S → Except ε S) (some []) := fun _ => rfl

theorem fail (e : S → ε) : Assigns view (fun s => .error (e s)) none := fun _ => rfl

theorem set {a : Sigma V} {change : S → S}
    (h : ∀ s, view (change s) = Function.update (view s) a.1 a.2) :
    Assigns view (fun s => (.ok (change s) : Except ε S)) (some [a]) :=
  fun s => congrArg some (h s)

theorem seq (h : Assigns view step given) (h' : Assigns view step' given') :
    Assigns view (fun s => step s >>= step') (both given given') := by
  intro s
  change (step s >>= step').toOption.map view = _
  cases hs : step s with
  | error e =>
    have hnone := h s
    rw [hs] at hnone
    cases given with
    | none => rfl
    | some as => cases hnone
  | ok s' =>
    obtain ⟨as, hgiven, hview⟩ := h.ok hs
    have hrest := h' s'
    rw [hview] at hrest
    change (step' s').toOption.map view = _
    rw [hrest, hgiven]
    cases given' with
    | none => rfl
    | some bs => exact congrArg some (assign_append as bs (view s)).symm

theorem foldlM {step : X → S → Except ε S} {given : X → Option (List (Sigma V))}
    (h : ∀ x, Assigns view (step x) (given x)) (xs : List X) :
    Assigns view (fun s => xs.foldlM (fun s x => step x s) s) (each given xs) := by
  induction xs with
  | nil => exact keep
  | cons x xs ih =>
    simp only [List.foldlM_cons]
    exact (h x).seq ih

theorem mapError (h : Assigns view step given) (word : ε → ε') :
    Assigns view (fun s => (step s).mapError word) given := by
  intro s
  change ((step s).mapError word).toOption.map view = _
  rw [← h s]
  cases step s with
  | error e => rfl
  | ok s' => rfl

end Assigns

end Layers

end Mochad
