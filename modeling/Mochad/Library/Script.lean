import Mathlib

/-!
# Scripts

A script works on a world, and either comes to its end or exits before. `Ends` says how it ends from
a given world: one condition is on the value and the world at its end, the other on the reason and
the world of an exit. The rules are those of weakest preconditions, one for each way to put scripts
together:

* `ends_pure`, `ends_bind`, `ends_throw`, `ends_get`, `ends_modify` – the operations;
* `ends_subshell` – a part whose exit does not end the script;
* `Ends.mono`, `Ends.and` – weaker conditions, and two at once.

A script that an exit cuts short still leaves a world behind (`after`). `Keeps R` is the frame
condition on it: however the script ends, the world that it leaves is related to the one it found.
`ExitsWith P` says for which reasons a script exits.
-/

namespace Mochad

namespace Script

variable {ε σ α β : Type}

/-- The world that a script leaves. -/
def after (m : EStateM ε σ α) (w : σ) : σ :=
  match m w with
  | .ok _ w' => w'
  | .error _ w' => w'

/-- **How a script ends**: `ok` is true where it comes to its end, `exits` where it exits. -/
def Ends (m : EStateM ε σ α) (w : σ) (ok : α → σ → Prop) (exits : ε → σ → Prop) : Prop :=
  match m w with
  | .ok a w' => ok a w'
  | .error e w' => exits e w'

/-- A part of a script that runs in a subshell: its exit only ends the subshell. -/
def subshell (m : EStateM ε σ α) : EStateM ε σ (Option α) := fun w =>
  match m w with
  | .ok a w' => .ok (some a) w'
  | .error _ w' => .ok none w'

section Rules

variable {m : EStateM ε σ α} {f : α → EStateM ε σ β} {w : σ} {ok : α → σ → Prop}
  {ok' : β → σ → Prop} {exits : ε → σ → Prop}

@[simp] theorem ends_pure {a : α} : Ends (pure a : EStateM ε σ α) w ok exits ↔ ok a w := Iff.rfl

@[simp] theorem ends_throw {e : ε} : Ends (throw e : EStateM ε σ α) w ok exits ↔ exits e w := Iff.rfl

@[simp] theorem ends_get {ok : σ → σ → Prop} :
    Ends (get : EStateM ε σ σ) w ok exits ↔ ok w w := Iff.rfl

@[simp] theorem ends_modify {g : σ → σ} {ok : PUnit → σ → Prop} :
    Ends (modify g : EStateM ε σ PUnit) w ok exits ↔ ok ⟨⟩ (g w) := Iff.rfl

@[simp] theorem ends_bind :
    Ends (m >>= f) w ok' exits ↔ Ends m w (fun a w' => Ends (f a) w' ok' exits) exits := by
  have hbind : (m >>= f) w = EStateM.bind m f w := rfl
  rw [Ends, Ends, hbind, EStateM.bind]
  cases m w with
  | ok a w' => rfl
  | error e w' => rfl

@[simp] theorem ends_subshell {ok : Option α → σ → Prop} :
    Ends (subshell m) w ok exits ↔ Ends m w (fun a => ok (some a)) fun _ => ok none := by
  rw [Ends, Ends, subshell]
  cases m w with
  | ok a w' => rfl
  | error e w' => rfl

theorem Ends.mono {ok₂ : α → σ → Prop} {exits₂ : ε → σ → Prop} (h : Ends m w ok exits)
    (hok : ∀ a w', ok a w' → ok₂ a w') (hexits : ∀ e w', exits e w' → exits₂ e w') :
    Ends m w ok₂ exits₂ := by
  rw [Ends] at h ⊢
  cases hm : m w with
  | ok a w' =>
    rw [hm] at h
    exact hok a w' h
  | error e w' =>
    rw [hm] at h
    exact hexits e w' h

theorem Ends.and {ok₂ : α → σ → Prop} {exits₂ : ε → σ → Prop} (h : Ends m w ok exits)
    (h' : Ends m w ok₂ exits₂) :
    Ends m w (fun a w' => ok a w' ∧ ok₂ a w') fun e w' => exits e w' ∧ exits₂ e w' := by
  rw [Ends] at h h' ⊢
  cases hm : m w with
  | ok a w' =>
    rw [hm] at h h'
    exact ⟨h, h'⟩
  | error e w' =>
    rw [hm] at h h'
    exact ⟨h, h'⟩

/-- What is so of the world that a script leaves is so at each of its ends. -/
theorem ends_after {P : σ → Prop} :
    Ends m w (fun _ w' => P w') (fun _ w' => P w') ↔ P (after m w) := by
  rw [Ends, after]
  cases m w with
  | ok a w' => rfl
  | error e w' => rfl

theorem after_bind : after (m >>= f) w =
    match m w with
    | .ok a w' => after (f a) w'
    | .error _ w' => w' := by
  have hbind : (m >>= f) w = EStateM.bind m f w := rfl
  rw [after, hbind, EStateM.bind]
  cases m w with
  | ok a w' => rfl
  | error e w' => rfl

end Rules

/-! ### Frames -/

section Frames

/-- **However a script ends**, the world that it leaves is related to the one that it found. -/
def Keeps (R : σ → σ → Prop) (m : EStateM ε σ α) : Prop := ∀ w, R w (after m w)

namespace Keeps

variable {R : σ → σ → Prop} {m : EStateM ε σ α} {f : α → EStateM ε σ β}

theorem ends {w : σ} (h : Keeps R m) : Ends m w (fun _ w' => R w w') fun _ w' => R w w' :=
  ends_after.mpr (h w)

theorem modify {g : σ → σ} (h : ∀ w, R w (g w)) :
    Keeps (ε := ε) R (modify g : EStateM ε σ PUnit) :=
  h

theorem ite {p : Prop} [Decidable p] {n : EStateM ε σ α} (hm : Keeps R m) (hn : Keeps R n) :
    Keeps R (if p then m else n) := by
  split
  · exact hm
  · exact hn

theorem subshell (hm : Keeps R m) : Keeps R (subshell m) := fun _ =>
  ends_after.mp (ends_subshell.mpr hm.ends)

variable [IsPreorder σ R]

theorem pure (a : α) : Keeps R (pure a : EStateM ε σ α) := fun w => refl w

theorem throw (e : ε) : Keeps R (throw e : EStateM ε σ α) := fun w => refl w

theorem get : Keeps (ε := ε) R (get : EStateM ε σ σ) := fun w => refl w

theorem bind (hm : Keeps R m) (hf : ∀ a, Keeps R (f a)) : Keeps R (m >>= f) := by
  intro w
  refine ends_after.mp (ends_bind.mpr (hm.ends.mono (fun a w' h => ?_) fun _ _ h => h))
  exact (hf a).ends.mono (fun _ _ h' => IsTrans.trans _ _ _ h h') fun _ _ h' =>
    IsTrans.trans _ _ _ h h'

/-- A part that returns a value of a kind, in front of a script that is fine for such values. -/
theorem bind_of {P : α → Prop}
    (hm : ∀ w, Ends m w (fun a w' => R w w' ∧ P a) fun _ w' => R w w')
    (hf : ∀ a, P a → Keeps R (f a)) : Keeps R (m >>= f) := by
  intro w
  refine ends_after.mp (ends_bind.mpr ((hm w).mono (fun a w' h => ?_) fun _ _ h => h))
  exact (hf a h.2).ends.mono (fun _ _ h' => IsTrans.trans _ _ _ h.1 h') fun _ _ h' =>
    IsTrans.trans _ _ _ h.1 h'

end Keeps

theorem Keeps.mono {R R' : σ → σ → Prop} {m : EStateM ε σ α} (h : Keeps R m)
    (hle : ∀ w w', R w w' → R' w w') : Keeps R' m := fun w => hle _ _ (h w)

end Frames

/-! ### Exits -/

section Exits

/-- **The reasons for which a script exits.** -/
def ExitsWith (P : ε → Prop) (m : EStateM ε σ α) : Prop :=
  ∀ w, Ends m w (fun _ _ => True) fun e _ => P e

namespace ExitsWith

variable {P : ε → Prop} {m : EStateM ε σ α} {f : α → EStateM ε σ β}

theorem pure (a : α) : ExitsWith P (pure a : EStateM ε σ α) := fun _ => trivial

theorem throw {e : ε} (h : P e) : ExitsWith P (throw e : EStateM ε σ α) := fun _ => h

theorem get : ExitsWith P (get : EStateM ε σ σ) := fun _ => trivial

theorem modify (g : σ → σ) : ExitsWith P (modify g : EStateM ε σ PUnit) := fun _ => trivial

theorem bind (hm : ExitsWith P m) (hf : ∀ a, ExitsWith P (f a)) : ExitsWith P (m >>= f) := fun w =>
  ends_bind.mpr ((hm w).mono (fun a w' _ => hf a w') fun _ _ h => h)

theorem ite {p : Prop} [Decidable p] {n : EStateM ε σ α} (hm : ExitsWith P m)
    (hn : ExitsWith P n) : ExitsWith P (if p then m else n) := by
  split
  · exact hm
  · exact hn

end ExitsWith

end Exits

end Script

end Mochad
