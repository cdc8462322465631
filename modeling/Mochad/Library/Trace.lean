import Mathlib

/-!
# Gaps between marks

A history is a list of events, the newest first. Some of its events are *marks*, and a
requirement is put on what lies between two consecutive marks.

`Trace.Spaced` says that every gap of a history meets its requirement, in the form
that an induction on steps needs: when a mark is added, only the gap that it closes
has to be looked at. `Trace.Spaced.good` is the same in terms of where the two marks
stand.

`Trace.Each` says something of every event and of what was before it, and
`Trace.collect` is what the events of a history say when they are read from the oldest
to the newest.
-/

namespace Trace

variable {α : Type*} (mark : α → Bool) (Good : List α → Prop)

/-- What has happened since the last mark, or at all if there is none. -/
def gap (h : List α) : List α := h.takeWhile fun e => !mark e

/-- There is a mark in the history. -/
def Marked (h : List α) : Prop := ∃ e ∈ h, mark e = true

/-- **Every gap between two consecutive marks is good.** -/
def Spaced : List α → Prop
  | [] => True
  | e :: h => Spaced h ∧ (mark e = true → Marked mark h → Good (gap mark h))

variable {mark Good} {e : α} {h : List α}

@[simp] theorem gap_nil : gap mark ([] : List α) = [] := rfl

theorem gap_cons_mark (he : mark e = true) : gap mark (e :: h) = [] := by simp [gap, he]

theorem gap_cons (he : mark e = false) : gap mark (e :: h) = e :: gap mark h := by
  simp [gap, he]

theorem marked_cons : Marked mark (e :: h) ↔ mark e = true ∨ Marked mark h := by
  simp [Marked]

theorem marked_cons_of_not (he : mark e = false) : Marked mark (e :: h) ↔ Marked mark h := by
  rw [marked_cons, he]
  simp

/-- What is in the gap came after a mark, if there is one. -/
theorem suffix_of_mem_gap (hm : Marked mark h) {a : α} (ha : a ∈ gap mark h) :
    ∃ older, a :: older <:+ h ∧ Marked mark older := by
  induction h with
  | nil => cases ha
  | cons e h ih =>
    cases he : mark e with
    | true =>
      rw [gap_cons_mark he] at ha
      cases ha
    | false =>
      rw [gap_cons he] at ha
      have hmarked := (marked_cons_of_not he).mp hm
      rcases List.mem_cons.mp ha with rfl | ha
      · exact ⟨h, List.suffix_rfl, hmarked⟩
      · obtain ⟨older, hsuffix, holder⟩ := ih hmarked ha
        exact ⟨older, hsuffix.trans (List.suffix_cons e h), holder⟩

/-- An event that is no mark closes no gap. -/
theorem spaced_cons (he : mark e = false) : Spaced mark Good (e :: h) ↔ Spaced mark Good h := by
  simp [Spaced, he]

/-- Events that are no marks lengthen the gap. -/
theorem gap_append_of_not {es : List α} (hes : ∀ x ∈ es, mark x = false) :
    gap mark (es ++ h) = es ++ gap mark h :=
  List.takeWhile_append_of_pos fun x hx => by simp [hes x hx]

theorem marked_append_of_not {es : List α} (hes : ∀ x ∈ es, mark x = false) :
    Marked mark (es ++ h) ↔ Marked mark h := by
  refine ⟨?_, fun ⟨a, ha, hm⟩ => ⟨a, List.mem_append_right _ ha, hm⟩⟩
  rintro ⟨a, ha, hm⟩
  rcases List.mem_append.mp ha with ha | ha
  · rw [hes a ha] at hm
    cases hm
  · exact ⟨a, ha, hm⟩

theorem spaced_append_of_not {es : List α} (hes : ∀ x ∈ es, mark x = false) :
    Spaced mark Good (es ++ h) ↔ Spaced mark Good h := by
  induction es with
  | nil => exact Iff.rfl
  | cons e es ih =>
    rw [List.cons_append, spaced_cons (hes e (by simp))]
    exact ih fun x hx => hes x (by simp [hx])

/-- The gap in front of a mark. -/
theorem gap_append {mid pre : List α} {a : α} (hmid : ∀ x ∈ mid, mark x = false)
    (ha : mark a = true) : gap mark (mid ++ a :: pre) = mid := by
  rw [gap, List.takeWhile_append_of_pos fun x hx => by simp [hmid x hx]]
  simp [ha]

theorem Spaced.of_append {post : List α} (hs : Spaced mark Good (post ++ h)) :
    Spaced mark Good h := by
  induction post with
  | nil => exact hs
  | cons _ post ih => exact ih hs.1

/-- **Where the marks stand**: what lies between two of them, with no third one in
between, is good. -/
theorem Spaced.good (hs : Spaced mark Good h) {post mid pre : List α} {b a : α}
    (hh : h = post ++ b :: (mid ++ a :: pre)) (hb : mark b = true) (ha : mark a = true)
    (hmid : ∀ x ∈ mid, mark x = false) : Good mid := by
  rw [hh] at hs
  have hgood := hs.of_append.2 hb ⟨a, by simp, ha⟩
  rwa [gap_append hmid ha] at hgood

/-! ### Every event, with what was before it -/

variable {P : α → List α → Prop}

/-- **Every event of a history has a property**, which may look at the history before it. -/
def Each (P : α → List α → Prop) (h : List α) : Prop := ∀ e older, e :: older <:+ h → P e older

theorem each_nil : Each P [] := fun _ _ hsuffix =>
  absurd (List.suffix_nil.mp hsuffix) (List.cons_ne_nil _ _)

theorem each_cons : Each P (e :: h) ↔ P e h ∧ Each P h := by
  constructor
  · intro hall
    exact ⟨hall e h (List.suffix_refl _), fun x older hx => hall x older (hx.trans (List.suffix_cons e h))⟩
  · rintro ⟨he, hall⟩ x older hx
    rcases List.suffix_cons_iff.mp hx with heq | hx
    · obtain ⟨rfl, rfl⟩ := List.cons.inj heq
      exact he
    · exact hall x older hx

/-- Events that have it whatever was before them. -/
theorem Each.append {es : List α} (hall : Each P h) (hes : ∀ x ∈ es, ∀ older, P x older) :
    Each P (es ++ h) := by
  induction es with
  | nil => exact hall
  | cons x es ih =>
    rw [List.cons_append, each_cons]
    exact ⟨hes x List.mem_cons_self _, ih fun y hy => hes y (List.mem_cons_of_mem _ hy)⟩

/-! ### What a history says -/

variable {β : Type*} {f : α → List β}

/-- What the events say, the oldest first. -/
def collect (f : α → List β) : List α → List β
  | [] => []
  | e :: h => collect f h ++ f e

@[simp] theorem collect_nil : collect f [] = [] := rfl

theorem collect_cons : collect f (e :: h) = collect f h ++ f e := rfl

/-- An event that says nothing. -/
theorem collect_cons_of_nil (he : f e = []) : collect f (e :: h) = collect f h := by
  rw [collect_cons, he, List.append_nil]

theorem collect_append {es : List α} : collect f (es ++ h) = collect f h ++ collect f es := by
  induction es with
  | nil => simp
  | cons e es ih => rw [List.cons_append, collect_cons, collect_cons, ih, List.append_assoc]

theorem collect_append_of_nil {es : List α} (hes : ∀ x ∈ es, f x = []) :
    collect f (es ++ h) = collect f h := by
  induction es with
  | nil => rfl
  | cons e es ih =>
    rw [List.cons_append, collect_cons_of_nil (hes e (by simp))]
    exact ih fun x hx => hes x (by simp [hx])

/-- One event that says something is enough. -/
theorem collect_ne_nil (he : e ∈ h) (hne : f e ≠ []) : collect f h ≠ [] := by
  induction h with
  | nil => cases he
  | cons x h ih =>
    rw [collect_cons]
    rcases List.mem_cons.mp he with rfl | he
    · exact List.append_ne_nil_of_right_ne_nil _ hne
    · exact List.append_ne_nil_of_left_ne_nil (ih he) _

theorem mem_collect {f : α → List β} {b : β} : b ∈ collect f h ↔ ∃ e ∈ h, b ∈ f e := by
  induction h with
  | nil => simp
  | cons x h ih =>
    rw [collect_cons, List.mem_append, ih]
    simp [or_comm]

/-- Where no event says anything. -/
theorem collect_eq_nil (hes : ∀ x ∈ h, f x = []) : collect f h = [] := by
  have hnil := collect_append_of_nil (h := []) hes
  rwa [List.append_nil] at hnil

end Trace
