import Mathlib

/-!
# Guarded machines and their runs

A machine is a partial function `step : σ → α → Option σ`: in a state, a label is
either refused or leads to one next state. Everything nondeterministic is in the
label, so a run is a list of labels, and a claim about every order of events is a
claim about every run.

A *guard* is a predicate on a state and a label. `Transition.Run` collects the
runs all of whose steps meet a guard; the unguarded runs are those of
`Transition.Free`. A guard is what a conditional safety property quantifies over:
“in every run whose steps all meet the condition”.

* `Transition.Run.invariant` – what every step preserves, every run preserves;
* `Transition.Run.invariant_along` – the same, knowing where a run can be;
* `Transition.run_of_exec` – a list of labels that executes is a run, which is how
  a concrete run is exhibited by evaluation;
* `Transition.Run.traced` – what every step does, every step of a written record did;
* `Transition.run_iff_clean` – an observer beside the machine, which records what goes
  wrong, sees nothing wrong in just the runs that meet the guard.
-/

namespace Transition

variable {σ α : Type*}

/-- **One guarded step**: a label that the guard admits leads from `s` to `t`. -/
def Step (step : σ → α → Option σ) (ok : σ → α → Prop) (s t : σ) : Prop :=
  ∃ a, ok s a ∧ step s a = some t

/-- **The runs** all of whose steps meet the guard. -/
abbrev Run (step : σ → α → Option σ) (ok : σ → α → Prop) : σ → σ → Prop :=
  Relation.ReflTransGen (Step step ok)

/-- The guard that admits every label. -/
def Free : σ → α → Prop := fun _ _ => True

instance (s : σ) (a : α) : Decidable (Free s a) := inferInstanceAs (Decidable True)

variable {step : σ → α → Option σ} {ok ok' : σ → α → Prop} {s t : σ}

/-- **What every guarded step preserves, every guarded run preserves.** -/
theorem Run.invariant {Inv : σ → Prop} (h : Run step ok s t) (h0 : Inv s)
    (hstep : ∀ s a t, Inv s → ok s a → step s a = some t → Inv t) : Inv t := by
  induction h with
  | refl => exact h0
  | tail _ hst ih =>
    obtain ⟨a, hok, ha⟩ := hst
    exact hstep _ a _ ih hok ha

/-- The same, for what a step preserves in the states that the run can be in. -/
theorem Run.invariant_along {Inv : σ → Prop} (h : Run step ok s t) (h0 : Inv s)
    (hstep : ∀ u a v, Run step ok s u → Inv u → ok u a → step u a = some v → Inv v) : Inv t := by
  induction h with
  | refl => exact h0
  | tail hsu hst ih =>
    obtain ⟨a, hok, ha⟩ := hst
    exact hstep _ a _ hsu ih hok ha

/-- A run under a guard is a run under a weaker one. -/
theorem Run.mono (h : Run step ok s t) (hle : ∀ s a, ok s a → ok' s a) : Run step ok' s t := by
  have hstep : Step step ok ≤ Step step ok' := fun _ _ ⟨a, hok, ha⟩ => ⟨a, hle _ a hok, ha⟩
  exact Relation.ReflTransGen.mono hstep _ _ h

/-- A guarded run is a run. -/
theorem Run.free (h : Run step ok s t) : Run step Free s t := h.mono fun _ _ _ => trivial

/-- **Executing a list of labels** under a decidable guard: `none` as soon as one of
them is refused, by the machine or by the guard. -/
def exec (step : σ → α → Option σ) (ok : σ → α → Prop) [∀ s a, Decidable (ok s a)] :
    σ → List α → Option σ
  | s, [] => some s
  | s, a :: as => if ok s a then (step s a).bind fun t => exec step ok t as else none

/-- **A list of labels that executes is a run.** -/
theorem run_of_exec [∀ s a, Decidable (ok s a)] {as : List α}
    (h : exec step ok s as = some t) : Run step ok s t := by
  induction as generalizing s with
  | nil =>
    obtain rfl : s = t := by simpa [exec] using h
    exact Relation.ReflTransGen.refl
  | cons a as ih =>
    simp only [exec] at h
    split at h
    next hok =>
      obtain ⟨u, hu, hrest⟩ := Option.bind_eq_some_iff.mp h
      exact Relation.ReflTransGen.head ⟨a, hok, hu⟩ (ih hrest)
    next => cases h

/-- A list of labels that executes to a state with a property exhibits a run to such a
state; where the property is decidable, so is the hypothesis. -/
theorem exists_run_of_exec [∀ s a, Decidable (ok s a)] (as : List α) {p : σ → Prop}
    (h : ∃ t ∈ exec step ok s as, p t) : ∃ t, Run step ok s t ∧ p t := by
  obtain ⟨t, ht, hp⟩ := h
  exact ⟨t, run_of_exec ht, hp⟩

/-! ### A machine that is watched -/

variable {γ : Type*} {observe : σ → α → σ → γ → γ} {p q : σ × γ}

/-- **The machine beside an observer**, who sees every step and has no part in it. -/
def watch (step : σ → α → Option σ) (observe : σ → α → σ → γ → γ) :
    σ × γ → α → Option (σ × γ) :=
  fun p a => (step p.1 a).map fun t => (t, observe p.1 a t p.2)

theorem watch_eq_some {a : α} :
    watch step observe p a = some q ↔ step p.1 a = some q.1 ∧ q.2 = observe p.1 a q.1 p.2 := by
  rw [watch, Option.map_eq_some_iff]
  constructor
  · rintro ⟨t, ht, rfl⟩
    exact ⟨ht, rfl⟩
  · rintro ⟨ht, hobs⟩
    exact ⟨q.1, ht, by rw [← hobs]⟩

/-- A watched run is a run. -/
theorem Run.unwatched {ok : σ × γ → α → Prop} (h : Run (watch step observe) ok p q) :
    Run step Free p.1 q.1 := by
  induction h with
  | refl => exact Relation.ReflTransGen.refl
  | tail _ hst ih =>
    obtain ⟨a, _, ha⟩ := hst
    exact ih.tail ⟨a, trivial, (watch_eq_some.mp ha).1⟩

/-- **Every run can be watched.** -/
theorem Run.watched (h : Run step Free s t) (observe : σ → α → σ → γ → γ) (g : γ) :
    ∃ g', Run (watch step observe) Free (s, g) (t, g') := by
  induction h with
  | refl => exact ⟨g, Relation.ReflTransGen.refl⟩
  | @tail u v _ hst ih =>
    obtain ⟨a, _, ha⟩ := hst
    obtain ⟨g', hg'⟩ := ih
    have hwatched : watch step observe (u, g') a = some (v, observe u a v g') :=
      watch_eq_some.mpr ⟨ha, rfl⟩
    exact ⟨_, hg'.tail ⟨a, trivial, hwatched⟩⟩

/-- **The observer who writes every step down**, the latest first. -/
def trace (s : σ) (a : α) (t : σ) (steps : List (σ × α × σ)) : List (σ × α × σ) := (s, a, t) :: steps

/-- **What every step does, every step that was written down did.** -/
theorem Run.traced {ok : σ × List (σ × α × σ) → α → Prop} {q : σ × List (σ × α × σ)}
    {P : σ → α → σ → Prop} (h : Run (watch step trace) ok (s, []) q)
    (hstep : ∀ u a v, Run step Free s u → step u a = some v → P u a v) :
    ∀ x ∈ q.2, P x.1 x.2.1 x.2.2 := by
  induction h with
  | refl => exact nofun
  | tail hu hst ih =>
    obtain ⟨a, _, ha⟩ := hst
    obtain ⟨hs, hobs⟩ := watch_eq_some.mp ha
    intro x hx
    rw [hobs] at hx
    rcases List.mem_cons.mp hx with rfl | hold
    · exact hstep _ a _ (Run.unwatched hu) hs
    · exact ih x hold

/-- **The runs under a guard are those in which the observer sees nothing wrong**, if a step keeps
the record clean just when it meets the guard. -/
theorem run_iff_clean {ok : σ × γ → α → Prop} (clean : γ → Prop) (hp : clean p.2)
    (hstep : ∀ u a v, Run (watch step observe) Free p u → watch step observe u a = some v →
      (clean v.2 ↔ clean u.2 ∧ ok u a)) :
    Run (watch step observe) ok p q ↔ Run (watch step observe) Free p q ∧ clean q.2 := by
  constructor
  · intro h
    refine ⟨h.free, ?_⟩
    induction h with
    | refl => exact hp
    | tail hu hst ih =>
      obtain ⟨a, hok, ha⟩ := hst
      exact (hstep _ a _ (Run.free hu) ha).mpr ⟨ih, hok⟩
  · rintro ⟨h, hclean⟩
    induction h with
    | refl => exact Relation.ReflTransGen.refl
    | tail hu hst ih =>
      obtain ⟨a, _, ha⟩ := hst
      obtain ⟨hbefore, hok⟩ := (hstep _ a _ hu ha).mp hclean
      exact (ih hbefore).tail ⟨a, hok, ha⟩

end Transition
