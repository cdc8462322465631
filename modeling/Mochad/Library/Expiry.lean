import Mathlib

/-!
# Keys that are held for a while

A table holds keys, each for a fixed time from its last acceptance on, and has room for a fixed
number of them. A row whose time is over may be dropped, and when there is no room the row whose
time is over first makes way.

`Holds` compares the rows with the history of acceptances, newest first. A key whose time is not
over is missing only if so many other keys were accepted since that they fill the table
(`Crowded`).
-/

namespace Mochad

namespace Expiry

variable {κ σ : Type*}

variable (time : σ → ℕ)

/-- **So many other keys were accepted** from a time on. -/
def Crowded (cap : ℕ) (history : List (κ × σ)) (k : κ) (since : ℕ) : Prop :=
  ∃ others : Finset κ, cap ≤ others.card ∧ k ∉ others ∧
    ∀ o ∈ others, ∃ b, (o, b) ∈ history ∧ since ≤ time b

variable {time}

theorem Crowded.cons {cap since : ℕ} {history : List (κ × σ)} {k : κ}
    (h : Crowded time cap history k since) (r : κ × σ) : Crowded time cap (r :: history) k since := by
  obtain ⟨others, hcard, hk, hothers⟩ := h
  refine ⟨others, hcard, hk, fun o ho => ?_⟩
  obtain ⟨b, hb, hsince⟩ := hothers o ho
  exact ⟨b, List.mem_cons_of_mem r hb, hsince⟩

theorem Crowded.mono {cap since since' : ℕ} {history : List (κ × σ)} {k : κ}
    (h : Crowded time cap history k since) (hle : since' ≤ since) :
    Crowded time cap history k since' := by
  obtain ⟨others, hcard, hk, hothers⟩ := h
  refine ⟨others, hcard, hk, fun o ho => ?_⟩
  obtain ⟨b, hb, hsince⟩ := hothers o ho
  exact ⟨b, hb, hle.trans hsince⟩

variable [DecidableEq κ]

/-- The last acceptance of a key. -/
def lastAccepted (history : List (κ × σ)) (k : κ) : Option σ :=
  (history.find? fun r => r.1 = k).map (·.2)

theorem mem_of_lastAccepted {history : List (κ × σ)} {k : κ} {a : σ}
    (h : lastAccepted history k = some a) : (k, a) ∈ history := by
  obtain ⟨r, hr, rfl⟩ := Option.map_eq_some_iff.mp h
  have hk : r.1 = k := by simpa using List.find?_some hr
  exact hk ▸ List.mem_of_find?_eq_some hr

theorem lastAccepted_cons_self (history : List (κ × σ)) (k : κ) (a : σ) :
    lastAccepted ((k, a) :: history) k = some a := by
  simp [lastAccepted]

theorem lastAccepted_cons_of_ne {history : List (κ × σ)} {k k' : κ} {a : σ} (h : k' ≠ k) :
    lastAccepted ((k', a) :: history) k = lastAccepted history k := by
  simp [lastAccepted, h]

variable (time)

/-- **What the rows of a table say of a history.** -/
structure Holds (cap window clock : ℕ) (history : List (κ × σ)) (rows : List (κ × ℕ)) : Prop where
  /-- No key has two rows. -/
  nodup : (rows.map Prod.fst).Nodup
  /-- The acceptances are in the order of their times, none of which is still to come. -/
  past : (history.map fun r => time r.2).Pairwise (· ≥ ·) ∧ ∀ r ∈ history, time r.2 ≤ clock
  /-- A row ends so long after the last acceptance. -/
  dated : ∀ k e, (k, e) ∈ rows → ∃ a, lastAccepted history k = some a ∧ e = time a + window
  /-- A key without a row is over, or had to make way. -/
  complete : ∀ k a, lastAccepted history k = some a →
    (k, time a + window) ∈ rows ∨ time a + window < clock ∨ Crowded time cap history k (time a)

variable {time} {cap window clock : ℕ} {history : List (κ × σ)} {rows rest : List (κ × ℕ)}

theorem Holds.nil : Holds time cap window clock ([] : List (κ × σ)) [] :=
  ⟨List.nodup_nil, ⟨List.Pairwise.nil, by simp⟩, by simp, by simp [lastAccepted]⟩

/-- The rows may be in any order. -/
theorem Holds.perm (h : Holds time cap window clock history rows) (hp : rows.Perm rest) :
    Holds time cap window clock history rest where
  nodup := (hp.map Prod.fst).nodup_iff.mp h.nodup
  past := h.past
  dated k e hmem := h.dated k e (hp.mem_iff.mpr hmem)
  complete k a ha := (h.complete k a ha).imp_left hp.mem_iff.mp

/-- Time goes on. -/
theorem Holds.tick {clock' : ℕ} (h : Holds time cap window clock history rows)
    (hle : clock ≤ clock') : Holds time cap window clock' history rows where
  nodup := h.nodup
  past := ⟨h.past.1, fun r hr => (h.past.2 r hr).trans hle⟩
  dated := h.dated
  complete k a ha := (h.complete k a ha).imp_right (Or.imp_left fun hover => hover.trans_le hle)

/-- Rows whose time is over may be dropped. -/
theorem Holds.drop (h : Holds time cap window clock history rows) (hsub : rest.Sublist rows)
    (hover : ∀ r ∈ rows, r ∈ rest ∨ r.2 < clock) : Holds time cap window clock history rest where
  nodup := (hsub.map Prod.fst).nodup h.nodup
  past := h.past
  dated k e hmem := h.dated k e (hsub.subset hmem)
  complete k a ha := by
    obtain hrow | hmore := h.complete k a ha
    · exact (hover _ hrow).imp_right Or.inl
    · exact Or.inr hmore

/-- A row that makes way for a new key is the one of which every other row is at least as new, so
that the others and the new key are as many as there is room for. -/
theorem crowded_of_full (h : Holds time cap window clock history rows) {k k₀ : κ} {a a₀ : σ}
    (hsub : rest.Sublist rows) (hk : k ∉ rest.map Prod.fst) (hfull : cap ≤ rest.length + 1)
    (hk₀ : k₀ ∉ rest.map Prod.fst) (hne : k₀ ≠ k) (hfirst : ∀ r ∈ rest, time a₀ + window ≤ r.2)
    (hnow : time a₀ ≤ time a) :
    Crowded time cap ((k, a) :: history) k₀ (time a₀) := by
  have hnodup : (k :: rest.map Prod.fst).Nodup :=
    List.nodup_cons.mpr ⟨hk, (hsub.map Prod.fst).nodup h.nodup⟩
  refine ⟨(k :: rest.map Prod.fst).toFinset, ?_, ?_, fun o ho => ?_⟩
  · rw [List.toFinset_card_of_nodup hnodup]
    simpa using hfull
  · simpa [hne] using hk₀
  · rw [List.mem_toFinset, List.mem_cons] at ho
    obtain rfl | ho := ho
    · exact ⟨a, List.mem_cons_self, hnow⟩
    · obtain ⟨⟨o', e⟩, hmem, rfl⟩ := List.mem_map.mp ho
      obtain ⟨b, hb, rfl⟩ := h.dated _ _ (hsub.subset hmem)
      exact ⟨b, List.mem_cons_of_mem _ (mem_of_lastAccepted hb),
        Nat.le_of_add_le_add_right (hfirst _ hmem)⟩

/-- **A key is accepted**: its row is set, and of the others only the one that is over first may
make way, if there is no room. -/
theorem Holds.accept (h : Holds time cap window clock history rows) {k : κ} {a : σ}
    (hnow : clock ≤ time a) (hsub : rest.Sublist rows) (hk : k ∉ rest.map Prod.fst)
    (hgone : ∀ r ∈ rows, r ∈ rest ∨ r.1 = k ∨
      (cap ≤ rest.length + 1 ∧ r.1 ∉ rest.map Prod.fst ∧ ∀ r' ∈ rest, r.2 ≤ r'.2)) :
    Holds time cap window (time a) ((k, a) :: history) ((k, time a + window) :: rest) where
  nodup := List.nodup_cons.mpr ⟨hk, (hsub.map Prod.fst).nodup h.nodup⟩
  past := by
    refine ⟨List.pairwise_cons.mpr ⟨fun b hb => ?_, h.past.1⟩, fun r hr => ?_⟩
    · obtain ⟨r, hr, rfl⟩ := List.mem_map.mp hb
      exact (h.past.2 r hr).trans hnow
    · obtain rfl | hr := List.mem_cons.mp hr
      · exact le_rfl
      · exact (h.past.2 r hr).trans hnow
  dated k' e hmem := by
    obtain heq | hmem := List.mem_cons.mp hmem
    · obtain ⟨rfl, rfl⟩ := Prod.mk.inj heq
      exact ⟨a, lastAccepted_cons_self _ _ _, rfl⟩
    · have hne : k ≠ k' := fun heq => hk (heq ▸ List.mem_map_of_mem hmem)
      rw [lastAccepted_cons_of_ne hne]
      exact h.dated k' e (hsub.subset hmem)
  complete k' a' ha' := by
    by_cases hne : k = k'
    · subst hne
      rw [lastAccepted_cons_self] at ha'
      obtain rfl := Option.some.inj ha'
      exact Or.inl List.mem_cons_self
    · rw [lastAccepted_cons_of_ne hne] at ha'
      obtain hrow | hover | hcrowded := h.complete k' a' ha'
      · obtain hrest | heq | ⟨hfull, hk', hfirst⟩ := hgone _ hrow
        · exact Or.inl (List.mem_cons_of_mem _ hrest)
        · exact absurd heq.symm hne
        · have hpast := h.past.2 _ (mem_of_lastAccepted ha')
          exact Or.inr (Or.inr (crowded_of_full h hsub hk hfull hk' (Ne.symm hne) hfirst
            (hpast.trans hnow)))
      · exact Or.inr (Or.inl (hover.trans_le hnow))
      · exact Or.inr (Or.inr (hcrowded.cons _))

/-- The last acceptance of a key is its newest one. -/
theorem Holds.le_last (h : Holds time cap window clock history rows) {k : κ} {a b : σ}
    (ha : lastAccepted history k = some a) (hb : (k, b) ∈ history) : time b ≤ time a := by
  have hsorted := h.past.1
  clear h
  induction history with
  | nil => cases hb
  | cons r older ih =>
    rw [List.map_cons, List.pairwise_cons] at hsorted
    obtain ⟨k', c⟩ := r
    by_cases hk : k' = k
    · subst hk
      rw [lastAccepted_cons_self] at ha
      obtain rfl := Option.some.inj ha
      obtain heq | hb := List.mem_cons.mp hb
      · rw [(Prod.mk.inj heq).2]
      · exact hsorted.1 _ (List.mem_map_of_mem (f := fun r => time r.2) hb)
    · rw [lastAccepted_cons_of_ne hk] at ha
      obtain heq | hb := List.mem_cons.mp hb
      · exact absurd (Prod.mk.inj heq).1.symm hk
      · exact ih ha hb hsorted.2

/-- What was accepted has a last acceptance. -/
theorem exists_lastAccepted {k : κ} {b : σ} (hb : (k, b) ∈ history) :
    ∃ a, lastAccepted history k = some a := by
  obtain ⟨r, hr⟩ := Option.isSome_iff_exists.mp
    (List.find?_isSome (p := fun r : κ × σ => decide (r.1 = k)).mpr ⟨(k, b), hb, by simp⟩)
  exact ⟨r.2, by rw [lastAccepted, hr]; rfl⟩

/-- **A key that is missing was crowded out**, if its time is not over. -/
theorem Holds.crowded (h : Holds time cap window clock history rows) {k : κ} {b : σ}
    (hb : (k, b) ∈ history) (htime : clock ≤ time b + window)
    (hmissing : ∀ e, clock ≤ e → (k, e) ∉ rows) : Crowded time cap history k (time b) := by
  obtain ⟨a, ha⟩ := exists_lastAccepted hb
  have hle := h.le_last ha hb
  obtain hrow | hover | hcrowded := h.complete k a ha
  · exact absurd hrow (hmissing _ (htime.trans (Nat.add_le_add_right hle _)))
  · omega
  · exact hcrowded.mono hle

end Expiry

end Mochad
