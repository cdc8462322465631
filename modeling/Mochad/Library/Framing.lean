import Mathlib

/-!
# Bounded line framing

A stream of symbols is cut into lines at delimiters, by a reader that sees one
symbol at a time and can hold fewer than `cap + 1` of them. A line that does not
fit puts the reader in a discarding state, which a delimiter ends.

`Framing.step` is the reader that asks for *room before it asks for the end of the
line*. The order matters at one length only: when exactly `cap` symbols are held,
the delimiter that ends the line is itself taken for one symbol too many, and the
reader starts discarding **after** the line has ended – so it drops the line that
follows. Everything else is as one would expect:

* `Framing.run_append` – the cut of the stream into reads is invisible;
* `Framing.mem_lines` – what is passed on is nonempty, shorter than `cap`, and
  free of delimiters;
* `Framing.lines_eq_kept` – in terms of the records of the stream
  (`Framing.records`, what lies between delimiters), the reader passes on the short
  nonempty ones, except that a record of length exactly `cap` swallows its
  successor;
* `Framing.lines_eq_filter_iff` – hence it passes on *all* the short nonempty
  records exactly when no swallowed record is one of them.
-/

namespace Framing

variable {α : Type*}

/-- What the reader remembers: the part of a line seen so far, or that it is
dropping symbols up to the next delimiter. -/
inductive Frame (α : Type*)
  /-- The line so far. -/
  | filling (acc : List α) : Frame α
  /-- Dropping everything up to the next delimiter. -/
  | discarding : Frame α

/-- The state between two lines. -/
def Frame.start : Frame α := .filling []

variable (p : α → Bool) (cap : ℕ)

/-- **One symbol.** The line that the symbol completes is passed on, unless it is
empty. -/
def step : Frame α → α → Frame α × Option (List α)
  | .discarding, a => (if p a then .start else .discarding, none)
  | .filling acc, a =>
      if cap ≤ acc.length then (.discarding, none)
      else if p a then (.start, if acc.isEmpty then none else some acc)
      else (.filling (acc ++ [a]), none)

/-- The state after a stretch of the stream, and the lines passed on meanwhile. -/
def run : Frame α → List α → Frame α × List (List α)
  | f, [] => (f, [])
  | f, a :: xs =>
      let r := run (step p cap f a).1 xs
      (r.1, (step p cap f a).2.toList ++ r.2)

/-- The lines a stretch of the stream passes on. -/
def lines (f : Frame α) (xs : List α) : List (List α) := (run p cap f xs).2

variable {p cap}

@[simp] theorem run_nil (f : Frame α) : run p cap f [] = (f, []) := rfl

theorem run_cons (f : Frame α) (a : α) (xs : List α) :
    run p cap f (a :: xs) = ((run p cap (step p cap f a).1 xs).1,
      (step p cap f a).2.toList ++ (run p cap (step p cap f a).1 xs).2) := rfl

/-- **The cut of a stream into reads is invisible**: two reads, one after the other,
leave the reader where one read would, and pass on the same lines. -/
theorem run_append (f : Frame α) (xs ys : List α) :
    run p cap f (xs ++ ys) = ((run p cap (run p cap f xs).1 ys).1,
      (run p cap f xs).2 ++ (run p cap (run p cap f xs).1 ys).2) := by
  induction xs generalizing f with
  | nil => simp
  | cons a xs ih => simp [run_cons, ih]

/-! ### What is held and what is passed on -/

/-- The reader's invariant: what it holds fits, and has no delimiter. -/
def Frame.Ok (p : α → Bool) (cap : ℕ) : Frame α → Prop
  | .filling acc => acc.length ≤ cap ∧ ∀ a ∈ acc, p a = false
  | .discarding => True

theorem start_ok : (Frame.start : Frame α).Ok p cap := ⟨Nat.zero_le _, by simp⟩

theorem step_ok {f : Frame α} (hf : f.Ok p cap) (a : α) : (step p cap f a).1.Ok p cap := by
  cases f with
  | discarding =>
    simp only [step]
    split
    · exact start_ok
    · trivial
  | filling acc =>
    simp only [step]
    split
    · trivial
    next hlt =>
      split
      · exact start_ok
      next hpa =>
        refine ⟨by simp; omega, fun b hb => ?_⟩
        rcases List.mem_append.mp hb with hb | hb
        · exact hf.2 b hb
        · rw [List.mem_singleton.mp hb]
          simpa using hpa

/-- A line that is passed on is nonempty, shorter than the capacity and free of
delimiters. -/
def Short (p : α → Bool) (cap : ℕ) (l : List α) : Prop :=
  l ≠ [] ∧ l.length < cap ∧ ∀ a ∈ l, p a = false

theorem step_short {f : Frame α} (hf : f.Ok p cap) {a : α} {l : List α}
    (h : (step p cap f a).2 = some l) : Short p cap l := by
  cases f with
  | discarding => simp [step] at h
  | filling acc =>
    simp only [step] at h
    split at h
    · cases h
    next hlt =>
      split at h
      · split at h
        · cases h
        next hne =>
          obtain rfl : acc = l := by simpa using h
          exact ⟨by simpa using hne, by omega, hf.2⟩
      · cases h

/-- **Every line passed on is nonempty, shorter than the capacity, and free of
delimiters.** -/
theorem mem_lines {f : Frame α} (hf : f.Ok p cap) {xs l : List _}
    (h : l ∈ lines p cap f xs) : Short p cap l := by
  induction xs generalizing f with
  | nil => simp [lines] at h
  | cons a xs ih =>
    rw [lines, run_cons, List.mem_append] at h
    rcases h with h | h
    · exact step_short hf (Option.mem_toList.mp h)
    · exact ih (step_ok hf a) h

/-! ### Lines and records -/

/-- **The records of a stream**: what stands before each delimiter. What follows the
last delimiter is not a record yet. -/
def records (p : α → Bool) (xs : List α) : List (List α) := (xs.splitOnP p).dropLast

theorem records_tail {xs : List α} (h : ∀ a ∈ xs, p a = false) : records p xs = [] := by
  rw [records, List.splitOnP_eq_singleton h]
  rfl

theorem records_cons {l : List α} (h : ∀ a ∈ l, p a = false) {d : α} (hd : p d = true)
    (xs : List α) : records p (l ++ d :: xs) = l :: records p xs := by
  rw [records, List.splitOnP_append_cons_of_forall_mem h d hd, List.dropLast_cons_of_ne_nil]
  · rfl
  · exact List.splitOnP_ne_nil p xs

/-- **Induction along the records** of a stream. -/
theorem records_induction {motive : List α → Prop}
    (tail : ∀ l, (∀ a ∈ l, p a = false) → motive l)
    (record : ∀ l d xs, (∀ a ∈ l, p a = false) → p d = true → motive xs →
      motive (l ++ d :: xs)) (xs : List α) : motive xs := by
  obtain ⟨n, hn⟩ : ∃ n, xs.length = n := ⟨_, rfl⟩
  induction n using Nat.strongRecOn generalizing xs with
  | _ n ih =>
    have hl : ∀ a ∈ xs.takeWhile (fun a => !p a), p a = false := fun a ha => by
      simpa using List.mem_takeWhile_imp ha
    rcases hd : xs.dropWhile (fun a => !p a) with _ | ⟨d, ys⟩
    · refine tail xs fun a ha => ?_
      have hxs := List.takeWhile_append_dropWhile (p := fun a => !p a) (l := xs)
      rw [hd, List.append_nil] at hxs
      exact hl a (hxs.symm ▸ ha)
    · have hxs : xs.takeWhile (fun a => !p a) ++ d :: ys = xs := by
        rw [← hd]
        exact List.takeWhile_append_dropWhile
      have hpd : p d = true := by
        have := List.head_dropWhile_not (fun a => !p a) (by rw [hd]; simp : xs.dropWhile _ ≠ [])
        simpa [hd] using this
      rw [← hxs]
      refine record _ d ys hl hpd (ih ys.length ?_ ys rfl)
      have := congrArg List.length hxs
      simp only [List.length_append, List.length_cons] at this
      omega

/-- The records the reader passes on: the short nonempty ones, except that a record
of length exactly `cap` swallows its successor. The flag says that the first record
is being swallowed. -/
def kept (cap : ℕ) : Bool → List (List α) → List (List α)
  | _, [] => []
  | true, _ :: ls => kept cap false ls
  | false, l :: ls =>
      (if l ≠ [] ∧ l.length < cap then [l] else []) ++ kept cap (decide (l.length = cap)) ls

theorem run_discarding_tail {l : List α} (h : ∀ a ∈ l, p a = false) :
    run p cap .discarding l = (.discarding, []) := by
  induction l with
  | nil => rfl
  | cons a l ih =>
    have ha : p a = false := h a (by simp)
    simp [run_cons, step, ha, ih fun b hb => h b (by simp [hb])]

/-- Symbols of one line are held while they fit, and dropped for good when they do
not. -/
theorem run_filling_tail {l : List α} (h : ∀ a ∈ l, p a = false) {acc : List α} :
    run p cap (.filling acc) l =
      (if l = [] ∨ acc.length + l.length ≤ cap then .filling (acc ++ l) else .discarding, []) := by
  induction l generalizing acc with
  | nil => simp
  | cons a l ih =>
    have ha : p a = false := h a (by simp)
    have hl : ∀ b ∈ l, p b = false := fun b hb => h b (by simp [hb])
    rw [run_cons]
    by_cases hc : cap ≤ acc.length
    · rw [step, if_pos hc, run_discarding_tail hl, if_neg (by simp; omega)]
      rfl
    · rw [step, if_neg hc, if_neg (by simp [ha])]
      have hiff : (l = [] ∨ (acc ++ [a]).length + l.length ≤ cap) ↔
          (a :: l = [] ∨ acc.length + (a :: l).length ≤ cap) := by
        simp only [List.length_append, List.length_cons, List.length_nil, reduceCtorEq, false_or]
        refine ⟨?_, fun hle => Or.inr (by omega)⟩
        rintro (rfl | hle)
        · simp only [List.length_nil]
          omega
        · omega
      simp only [ih hl, Option.toList_none, List.nil_append, List.append_assoc,
        List.singleton_append]
      rw [if_congr hiff rfl rfl]

/-- **One record, from the start of a line**: passed on if short and nonempty. The
reader is then back at the start of a line – unless the record had length exactly
`cap`, when it is left discarding. -/
theorem run_record {l : List α} (h : ∀ a ∈ l, p a = false) {d : α} (hd : p d = true) :
    run p cap .start (l ++ [d]) =
      (if l.length = cap then .discarding else .start,
        if l ≠ [] ∧ l.length < cap then [l] else []) := by
  rw [run_append, Frame.start, run_filling_tail h]
  by_cases hle : l = [] ∨ ([] : List α).length + l.length ≤ cap
  · rw [if_pos hle]
    have hcap : l = [] ∨ l.length ≤ cap := by simpa using hle
    by_cases heq : cap ≤ l.length
    · have hlen : l.length = cap := by
        rcases hcap with rfl | hcap
        · simpa using heq.antisymm' (Nat.zero_le cap)
        · omega
      simp [run_cons, step, hlen]
    · by_cases hl : l = []
      · subst hl
        have hne : ¬0 = cap := by simpa using fun h : 0 = cap => heq (by simp [← h])
        have hpos : ¬cap = 0 := fun h => hne h.symm
        simp [run_cons, step, hd, hne, hpos, Frame.start]
      · have hne : ¬l.length = cap := by omega
        have hlt : l.length < cap := by omega
        simp [run_cons, step, hd, hl, hne, hlt, Nat.not_le.mpr hlt, Frame.start]
  · have hgt : cap < l.length := by
      simp only [not_or, List.length_nil] at hle
      omega
    rw [if_neg hle, if_neg (by omega), if_neg (by omega)]
    simp [run_cons, step, hd, Frame.start]

/-- **What the reader passes on**, in terms of the records of the stream. -/
theorem lines_eq_kept (b : Bool) (xs : List α) :
    lines p cap (if b then .discarding else .start) xs = kept cap b (records p xs) := by
  induction xs using records_induction (p := p) generalizing b with
  | tail l h =>
    rw [records_tail h]
    cases b with
    | true => simp [lines, run_discarding_tail h, kept]
    | false => simp [lines, Frame.start, run_filling_tail h, kept]
  | record l d xs h hd ih =>
    rw [records_cons h hd, List.append_cons, lines, run_append]
    cases b with
    | true =>
      have hrun : run p cap .discarding (l ++ [d]) = (.start, []) := by
        rw [run_append, run_discarding_tail h]
        simp [run_cons, step, hd]
      simpa [hrun, kept, lines] using ih false
    | false =>
      have hnext := ih (decide (l.length = cap))
      simp only [decide_eq_true_eq, lines] at hnext
      simp only [Bool.false_eq_true, if_false, run_record h hd, hnext, kept]

/-! ### When no record is swallowed -/

/-- No swallowed record would have been passed on: each one is empty or too long
anyway. The flag is as in `Framing.kept`. -/
def Spared (cap : ℕ) : Bool → List (List α) → Prop
  | _, [] => True
  | true, l :: ls => ¬(l ≠ [] ∧ l.length < cap) ∧ Spared cap false ls
  | false, l :: ls => Spared cap (decide (l.length = cap)) ls

instance decidableSpared [DecidableEq α] (cap : ℕ) :
    ∀ (b : Bool) (ls : List (List α)), Decidable (Spared cap b ls)
  | _, [] => inferInstanceAs (Decidable True)
  | true, l :: ls =>
      have := decidableSpared cap false ls
      inferInstanceAs (Decidable (¬(l ≠ [] ∧ l.length < cap) ∧ Spared cap false ls))
  | false, l :: ls => decidableSpared cap (decide (l.length = cap)) ls

theorem kept_sublist (b : Bool) (ls : List (List α)) :
    (kept cap b ls).Sublist (ls.filter fun l => decide (l ≠ [] ∧ l.length < cap)) := by
  induction ls generalizing b with
  | nil => cases b <;> simp [kept]
  | cons l ls ih =>
    cases b with
    | true => exact (ih false).trans ((List.sublist_cons_self l ls).filter _)
    | false =>
      rw [kept, List.filter_cons]
      by_cases hl : l ≠ [] ∧ l.length < cap
      · simpa [hl] using ih _
      · simpa [hl] using ih _

/-- **The exact condition**: the reader passes on every short nonempty record exactly
when the records it swallows are empty or too long anyway. -/
theorem kept_eq_filter_iff (b : Bool) (ls : List (List α)) :
    kept cap b ls = ls.filter (fun l => decide (l ≠ [] ∧ l.length < cap)) ↔ Spared cap b ls := by
  induction ls generalizing b with
  | nil => cases b <;> simp [kept, Spared]
  | cons l ls ih =>
    cases b with
    | true =>
      rw [kept, Spared, List.filter_cons, ← ih false]
      by_cases hl : l ≠ [] ∧ l.length < cap
      · have hlen := (@kept_sublist α cap false ls).length_le
        refine iff_of_false (fun h => ?_) (fun h => h.1 hl)
        rw [if_pos (by simpa using hl)] at h
        rw [h, List.length_cons] at hlen
        omega
      · rw [if_neg (by simpa using hl)]
        exact ⟨fun h => ⟨hl, h⟩, fun h => h.2⟩
    | false =>
      rw [kept, Spared, List.filter_cons, ← ih]
      by_cases hl : l ≠ [] ∧ l.length < cap
      · rw [if_pos hl, if_pos (by simpa using hl), List.singleton_append, List.cons.injEq]
        exact ⟨fun h => h.2, fun h => ⟨rfl, h⟩⟩
      · rw [if_neg hl, if_neg (by simpa using hl), List.nil_append]

/-- **A stream is framed as it should be** – every short nonempty record passed on,
once and in order, and nothing else – exactly when no short nonempty record follows
a record of length `cap` that was itself read. -/
theorem lines_eq_filter_iff (xs : List α) :
    lines p cap .start xs = (records p xs).filter (fun l => decide (l ≠ [] ∧ l.length < cap)) ↔
      Spared cap false (records p xs) := by
  rw [← kept_eq_filter_iff, ← lines_eq_kept]
  rfl

/-! ### Terminated messages -/

/-- **Messages that each end in a terminator**, and have no other, are read back. -/
theorem splitOnP_terminated {t : α} (ht : p t = true) {bodies : List (List α)}
    (h : ∀ body ∈ bodies, ∀ a ∈ body, p a = false) :
    ((bodies.map fun body => body ++ [t]).flatten).splitOnP p = bodies ++ [[]] := by
  induction bodies with
  | nil => rfl
  | cons body bodies ih =>
    have hrest := ih fun b hb => h b (List.mem_cons_of_mem _ hb)
    rw [List.map_cons, List.flatten_cons, List.append_assoc, List.singleton_append,
      List.splitOnP_append_cons_of_forall_mem (h body List.mem_cons_self) t ht, hrest,
      List.cons_append]

end Framing
