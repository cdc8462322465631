import Mathlib

/-!
# Groups that are addressed and then closed

Members are addressed one after the other, and join a group, until something closes
it; who is addressed next begins a new group, and until then the old one stays.

A tracker can be *lax*, and overlook those closings that are loose. A lax tracker and a
strict one that have the same group still have it after a sign, unless a loose closing
has been overlooked, and the sign addresses someone beside the members that there are
(`Grouping.members_step_iff`).
-/

namespace Grouping

variable {ι : Type*}

/-- What happens to a group. -/
inductive Sign (ι : Type*)
  /-- A member is addressed. -/
  | join (i : ι)
  /-- The group is closed, firmly or loosely. -/
  | close (firm : Bool)
  /-- The group is this member alone, and is closed. -/
  | only (i : ι)
  deriving DecidableEq

/-- **A group**, and whether it is closed. -/
structure Group (ι : Type*) where
  members : Set ι
  closed : Bool

/-- Before anyone is addressed. -/
def Group.empty : Group ι := ⟨∅, false⟩

/-- One sign. A lax tracker overlooks the loose closings. -/
def Group.step (lax : Bool) (g : Group ι) : Sign ι → Group ι
  | .join i => ⟨if g.closed then {i} else insert i g.members, false⟩
  | .close firm => if lax && !firm then g else ⟨g.members, true⟩
  | .only i => ⟨{i}, true⟩

/-- **The group after a history of signs**, the oldest first. -/
def track (lax : Bool) (signs : List (Sign ι)) : Group ι := signs.foldl (Group.step lax) .empty

/-- **A group that was left open**: it was closed loosely, and neither firmly since nor before,
but for those who joined after that. -/
inductive LeftOpen : List (Sign ι) → Prop
  | first : LeftOpen [.close false]
  | join (signs : List (Sign ι)) (i : ι) : LeftOpen (signs ++ [.join i] ++ [.close false])
  | again {signs : List (Sign ι)} (h : LeftOpen signs) : LeftOpen (signs ++ [.close false])

variable {lax : Bool} {signs : List (Sign ι)} {sign : Sign ι}

@[simp] theorem track_nil (lax : Bool) : track lax ([] : List (Sign ι)) = .empty := rfl

@[simp] theorem track_append_singleton (lax : Bool) (signs : List (Sign ι)) (sign : Sign ι) :
    track lax (signs ++ [sign]) = (track lax signs).step lax sign := by
  rw [track, List.foldl_append, List.foldl_cons, List.foldl_nil, track]

/-- Signs that say nothing of a group are left out of its history. -/
theorem track_filterMap_append {α : Type*} (f : α → Option (Sign ι)) (as : List α) (a : α) :
    track lax ((as ++ [a]).filterMap f) =
      (f a).elim (track lax (as.filterMap f)) ((track lax (as.filterMap f)).step lax) := by
  rw [List.filterMap_append]
  cases ha : f a with
  | none => simp [ha]
  | some sign => simp [ha]

/-- **What a lax tracker takes for closed is closed.** -/
theorem closed_of_lax (h : (track true signs).closed = true) :
    (track false signs).closed = true := by
  induction signs using List.reverseRecOn with
  | nil => exact h
  | append_singleton signs sign ih =>
    rw [track_append_singleton] at h ⊢
    cases sign with
    | join i => exact h
    | close firm =>
      cases firm with
      | false => rfl
      | true => rfl
    | only i => rfl

/-- **A group is left open if only the strict tracker takes it for closed.** -/
theorem leftOpen_iff : LeftOpen signs ↔
    (track false signs).closed = true ∧ (track true signs).closed = false := by
  constructor
  · intro h
    induction h with
    | first => exact ⟨rfl, rfl⟩
    | join signs i =>
      rw [track_append_singleton, track_append_singleton, track_append_singleton,
        track_append_singleton]
      exact ⟨rfl, rfl⟩
    | again _ ih =>
      rw [track_append_singleton, track_append_singleton]
      exact ⟨rfl, ih.2⟩
  · rintro ⟨hstrict, hlax⟩
    induction signs using List.reverseRecOn with
    | nil => cases hstrict
    | append_singleton signs sign ih =>
      rw [track_append_singleton] at hstrict hlax
      cases sign with
      | join i => cases hstrict
      | only i => cases hlax
      | close firm =>
        cases firm with
        | true => cases hlax
        | false =>
          have hopen : (track true signs).closed = false := hlax
          by_cases hclosed : (track false signs).closed = true
          · exact .again (ih hclosed hopen)
          · -- the group was open before: it is new, or someone has just joined
            rcases List.eq_nil_or_concat signs with rfl | ⟨before, last, rfl⟩
            · exact .first
            · rw [List.concat_eq_append, track_append_singleton] at hclosed
              rw [List.concat_eq_append]
              cases last with
              | join i => exact .join before i
              | close firm => exact absurd rfl hclosed
              | only i => exact absurd rfl hclosed

/-- **The trackers stay together at a sign** exactly if it does not address someone beside the
members of a group that was left open. -/
theorem members_step_iff (h : (track false signs).members = (track true signs).members) :
    (track false (signs ++ [sign])).members = (track true (signs ++ [sign])).members ↔
      ∀ i, sign = .join i → LeftOpen signs → (track false signs).members ⊆ {i} := by
  rw [track_append_singleton, track_append_singleton]
  cases sign with
  | close firm =>
    cases firm with
    | false => exact iff_of_true h fun _ hj => (nomatch hj)
    | true => exact iff_of_true h fun _ hj => (nomatch hj)
  | only i => exact iff_of_true rfl fun _ hj => (nomatch hj)
  | join i =>
    simp only [Group.step, Sign.join.injEq, forall_eq', leftOpen_iff, ← h]
    cases hstrict : (track false signs).closed with
    | false =>
      have hlax : (track true signs).closed = false := by
        by_contra hc
        rw [closed_of_lax (by simpa using hc)] at hstrict
        cases hstrict
      simp [hlax]
    | true =>
      cases hlax : (track true signs).closed with
      | true => simp
      | false =>
        simp only [if_true, Bool.false_eq_true, if_false, and_self, forall_const]
        constructor
        · intro heq
          rw [heq]
          exact Set.subset_insert i _
        · intro hsub
          refine Set.Subset.antisymm ?_ (Set.insert_subset rfl hsub)
          exact Set.singleton_subset_iff.mpr (Set.mem_insert i _)

end Grouping
