import Mochad.Library.Expiry
import Mochad.X10.Radio

/-!
# The duplicate filter

The table of the duplicate filter holds frames (`Expiry.Holds`), each for 650 ms from the reading of
the clock that it was accepted at. The scan drops rows whose time is over (`dupScan_spec`), the row
that is written is the frame's own, an unused one, or the one whose time is over first
(`closestToExpiring_spec`), and a frame that is held back leaves its row as it is.

`dup_filter_refines` says what this comes to over any sequence of calls.
-/

namespace Mochad

open Expiry (lastAccepted Crowded)

/-! ### The rows -/

/-- The frame of an entry in use, and when its time is over. -/
def DupEntry.row (p : DupEntry) : Option (Bytes × ℕ) :=
  if p.rfCmdLen = 0 then none else some (p.rfCommand.take p.rfCmdLen, p.timems)

/-- The rows of the table. -/
def dupRows (dups : List DupEntry) : List (Bytes × ℕ) := dups.filterMap DupEntry.row

/-- An entry has room for sixteen bytes. -/
def DupEntry.Sized (p : DupEntry) : Prop := p.rfCommand.length = 16 ∧ p.rfCmdLen ≤ 16

theorem DupEntry.row_eq_none_iff {p : DupEntry} : p.row = none ↔ p.rfCmdLen = 0 := by
  simp [DupEntry.row]

/-- The scan compares the frames of the entries. -/
theorem DupEntry.Sized.row_iff {p : DupEntry} (h : p.Sized) {cmd : Bytes} {e : ℕ} :
    p.row = some (cmd, e) ↔ p.rfCmdLen ≠ 0 ∧
      (p.rfCmdLen = cmd.length ∧ p.rfCommand.take cmd.length = cmd) ∧ p.timems = e := by
  obtain ⟨hroom, hlen⟩ := h
  rw [DupEntry.row]
  split
  next hzero => simp [hzero]
  next hused =>
    simp only [Option.some.injEq, Prod.mk.injEq]
    constructor
    · rintro ⟨rfl, rfl⟩
      have hlength : (p.rfCommand.take p.rfCmdLen).length = p.rfCmdLen := by
        rw [List.length_take]
        omega
      refine ⟨hused, ⟨hlength.symm, ?_⟩, rfl⟩
      rw [hlength]
    · rintro ⟨-, ⟨hlength, htake⟩, rfl⟩
      exact ⟨by rw [hlength, htake], rfl⟩

theorem dupRows_cons (p : DupEntry) (ps : List DupEntry) :
    dupRows (p :: ps) = p.row.toList ++ dupRows ps := by
  cases hrow : p.row with
  | none => simp [dupRows, hrow]
  | some r => simp [dupRows, hrow]

theorem mem_dupRows {dups : List DupEntry} {r : Bytes × ℕ} :
    r ∈ dupRows dups ↔ ∃ p ∈ dups, p.row = some r := by
  simp [dupRows]

/-- Where every entry is in use there are as many rows as entries. -/
theorem length_dupRows {dups : List DupEntry} (h : ∀ p ∈ dups, p.row ≠ none) :
    (dupRows dups).length = dups.length := by
  rw [dupRows, List.length_filterMap_eq_countP, List.countP_eq_length]
  exact fun p hp => Option.isSome_iff_ne_none.mpr (h p hp)

/-- **An entry is rewritten**: the other rows stay. -/
theorem dupRows_modify {dups : List DupEntry} {i : ℕ} {p : DupEntry} (hp : dups[i]? = some p)
    (f : DupEntry → DupEntry) : ∃ rest, (dupRows dups).Perm (p.row.toList ++ rest) ∧
      (dupRows (dups.modify i f)).Perm ((f p).row.toList ++ rest) ∧
      rest.Sublist (dupRows dups) := by
  induction dups generalizing i with
  | nil => cases hp
  | cons q qs ih =>
    cases i with
    | zero =>
      obtain rfl : q = p := by simpa using hp
      refine ⟨dupRows qs, ?_, ?_, ?_⟩
      · rw [dupRows_cons]
      · rw [List.modify_zero_cons, dupRows_cons]
      · rw [dupRows_cons]
        exact List.sublist_append_right _ _
    | succ i =>
      obtain ⟨rest, hold, hnew, hsub⟩ := ih (by simpa using hp)
      have hswap : ∀ l : List (Bytes × ℕ), (q.row.toList ++ (l ++ rest)).Perm
          (l ++ (q.row.toList ++ rest)) := fun l => by
        rw [← List.append_assoc, ← List.append_assoc]
        exact List.perm_append_comm.append_right rest
      refine ⟨q.row.toList ++ rest, ?_, ?_, ?_⟩
      · rw [dupRows_cons]
        exact (hold.append_left _).trans (hswap _)
      · rw [List.modify_succ_cons, dupRows_cons]
        exact (hnew.append_left _).trans (hswap _)
      · rw [dupRows_cons]
        exact hsub.append_left _

/-! ### The scan -/

/-- **What the scan ends with**, of the entries from `i` on. -/
def DupScan.Meets (timems : ℕ) (cmd : Bytes) (i : ℕ) (firstunused : Option ℕ)
    (before after : List DupEntry) : DupScan → Prop
  | .present => ∃ e, (cmd, e) ∈ dupRows before ∧ timems ≤ e
  | .expired j => ∃ k e p, j = i + k ∧ after[k]? = some p ∧ p.row = some (cmd, e) ∧ e < timems
  | .absent found => (∀ e, (cmd, e) ∉ dupRows before) ∧ (∀ r ∈ dupRows after, timems ≤ r.2) ∧
      match found with
      | none => firstunused = none ∧ ∀ p ∈ after, p.row ≠ none
      | some j => firstunused = some j ∨ ∃ k p, j = i + k ∧ after[k]? = some p ∧ p.row = none

/-- The scan goes past an entry. -/
theorem DupScan.Meets.cons {timems i : ℕ} {cmd : Bytes} {firstunused : Option ℕ}
    {ps ps' : List DupEntry} {p p' : DupEntry} {found : DupScan}
    (h : found.Meets timems cmd (i + 1) (if p'.row = none then firstunused.or (some i) else firstunused)
      ps ps')
    (hother : ∀ e, p.row ≠ some (cmd, e)) (hlater : ∀ r, p'.row = some r → timems ≤ r.2) :
    found.Meets timems cmd i firstunused (p :: ps) (p' :: ps') := by
  have hindex : ∀ k, i + 1 + k = i + (k + 1) := fun k => by omega
  cases found with
  | present =>
    obtain ⟨e, hmem, hle⟩ := h
    exact ⟨e, by rw [dupRows_cons]; exact List.mem_append_right _ hmem, hle⟩
  | expired j =>
    obtain ⟨k, e, q, rfl, hq, hrow, hlt⟩ := h
    exact ⟨k + 1, e, q, hindex k, by simpa using hq, hrow, hlt⟩
  | absent found =>
    obtain ⟨hnone, hall, hunused⟩ := h
    refine ⟨fun e hmem => ?_, fun r hmem => ?_, ?_⟩
    · rw [dupRows_cons, List.mem_append, Option.mem_toList] at hmem
      exact hmem.elim (hother e) (hnone e)
    · rw [dupRows_cons, List.mem_append, Option.mem_toList] at hmem
      exact hmem.elim (hlater r) (hall r)
    · cases found with
      | none =>
        obtain ⟨hfirst, hused⟩ := hunused
        split at hfirst
        · cases firstunused with
          | none => cases hfirst
          | some j => cases hfirst
        next hp' => exact ⟨hfirst, List.forall_mem_cons.mpr ⟨hp', hused⟩⟩
      | some j =>
        obtain hfirst | ⟨k, q, rfl, hq, hrow⟩ := hunused
        · split at hfirst
          next hp' =>
            cases firstunused with
            | none =>
              obtain rfl : i = j := by simpa using hfirst
              exact Or.inr ⟨0, p', rfl, rfl, hp'⟩
            | some j' => exact Or.inl (by simpa using hfirst)
          · exact Or.inl hfirst
        · exact Or.inr ⟨k + 1, q, hindex k, by simpa using hq, hrow⟩

/-- **What the scan of the table does**, from entry `i` on. -/
structure DupScan.Leaves (timems : ℕ) (cmd : Bytes) (i : ℕ) (firstunused : Option ℕ)
    (before after : List DupEntry) (found : DupScan) : Prop where
  length : after.length = before.length
  sized : ∀ p ∈ after, p.Sized
  sublist : (dupRows after).Sublist (dupRows before)
  /-- The rows that are dropped are over. -/
  kept : ∀ r ∈ dupRows before, r ∈ dupRows after ∨ r.2 < timems
  meets : found.Meets timems cmd i firstunused before after

/-- The scan goes past an entry: it leaves it as it is, or drops its row. -/
theorem DupScan.Leaves.cons {timems i : ℕ} {cmd : Bytes} {firstunused : Option ℕ}
    {ps ps' : List DupEntry} {p p' : DupEntry} {found : DupScan}
    (h : DupScan.Leaves timems cmd (i + 1)
      (if p'.row = none then firstunused.or (some i) else firstunused) ps ps' found)
    (hp' : p'.Sized) (hother : ∀ e, p.row ≠ some (cmd, e))
    (hrow : p'.row = p.row ∧ (∀ r, p.row = some r → timems ≤ r.2) ∨
      p'.row = none ∧ ∀ r, p.row = some r → r.2 < timems) :
    DupScan.Leaves timems cmd i firstunused (p :: ps) (p' :: ps') found where
  length := by rw [List.length_cons, List.length_cons, h.length]
  sized := List.forall_mem_cons.mpr ⟨hp', h.sized⟩
  sublist := by
    rw [dupRows_cons, dupRows_cons]
    refine List.Sublist.append ?_ h.sublist
    obtain ⟨hsame, -⟩ | ⟨hnone, -⟩ := hrow
    · rw [hsame]
    · rw [hnone]
      exact List.nil_sublist _
  kept r hr := by
    rw [dupRows_cons, List.mem_append, Option.mem_toList] at hr ⊢
    obtain hr | hr := hr
    · obtain ⟨hsame, -⟩ | ⟨-, hover⟩ := hrow
      · exact Or.inl (Or.inl (hsame.trans hr))
      · exact Or.inr (hover r hr)
    · exact (h.kept r hr).imp_left Or.inr
  meets := by
    refine h.meets.cons hother fun r hr => ?_
    obtain ⟨hsame, hlater⟩ | ⟨hnone, -⟩ := hrow
    · exact hlater r (hsame ▸ hr)
    · rw [hnone] at hr
      cases hr

theorem dupScan_spec (timems : ℕ) (cmd : Bytes) (i : ℕ) (firstunused : Option ℕ)
    {dups : List DupEntry} (hsized : ∀ p ∈ dups, p.Sized) :
    DupScan.Leaves timems cmd i firstunused dups (dupScan timems cmd i firstunused dups).1
      (dupScan timems cmd i firstunused dups).2 := by
  induction dups generalizing i firstunused with
  | nil =>
    refine ⟨rfl, hsized, List.Sublist.refl _, by simp [dupRows], ?_⟩
    cases firstunused with
    | none => simp [dupScan, DupScan.Meets, dupRows]
    | some j => simp [dupScan, DupScan.Meets, dupRows]
  | cons p ps ih =>
    obtain ⟨hp, hps⟩ := List.forall_mem_cons.mp hsized
    rw [dupScan]
    split
    next hused =>
      have hrow : p.row = some (p.rfCommand.take p.rfCmdLen, p.timems) := by
        rw [DupEntry.row, if_neg hused]
      split
      next hhere =>
        have hcmd : p.row = some (cmd, p.timems) := hp.row_iff.mpr ⟨hused, hhere, rfl⟩
        refine ⟨rfl, hsized, List.Sublist.refl _, fun r hr => Or.inl hr, ?_⟩
        dsimp only
        split
        next hlate => exact ⟨0, p.timems, p, rfl, rfl, hcmd, hlate⟩
        next hlate =>
          refine ⟨p.timems, ?_, not_lt.mp hlate⟩
          rw [dupRows_cons, hcmd]
          exact List.mem_append_left _ (by simp)
      next hhere =>
        have hother : ∀ e, p.row ≠ some (cmd, e) := fun e he => hhere (hp.row_iff.mp he).2.1
        split
        next hlate =>
          have hunused : DupEntry.row { p with rfCmdLen := 0 } = none :=
            DupEntry.row_eq_none_iff.mpr rfl
          have hnext := ih (i + 1) (firstunused.or (some i)) hps
          refine DupScan.Leaves.cons  ?_ ⟨hp.1, Nat.zero_le _⟩
            hother (Or.inr ⟨hunused, fun r hr => ?_⟩)
          · rw [if_pos hunused]
            exact hnext
          · rw [hrow] at hr
            obtain rfl := Option.some.inj hr
            exact hlate
        next hlate =>
          have hnext := ih (i + 1) firstunused hps
          refine DupScan.Leaves.cons ?_ hp hother (Or.inl ⟨rfl, fun r hr => ?_⟩)
          · rw [if_neg (by rw [hrow]; simp)]
            exact hnext
          · rw [hrow] at hr
            obtain rfl := Option.some.inj hr
            exact not_lt.mp hlate
    next hused =>
      have hnone : p.row = none := DupEntry.row_eq_none_iff.mpr (not_not.mp hused)
      have hnext := ih (i + 1) (firstunused.or (some i)) hps
      refine DupScan.Leaves.cons ?_ hp (by simp [hnone]) (Or.inr ⟨hnone, by simp [hnone]⟩)
      rw [if_pos hnone]
      exact hnext

/-! ### The entry that makes way -/

/-- The entry that expires first, of those looked at and one more. -/
def soonest (best : Option (DupEntry × ℕ)) (p : DupEntry × ℕ) : Option (DupEntry × ℕ) :=
  match best with
  | none => some p
  | some b => if p.1.timems < b.1.timems then some p else some b

theorem closestToExpiring_eq (dups : List DupEntry) :
    closestToExpiring dups = (dups.zipIdx.foldl soonest none).elim 0 (·.2) := rfl

/-- **The entry closest to expiring** is one of the table, and no entry expires before it. -/
theorem closestToExpiring_spec {dups : List DupEntry} (hne : dups ≠ []) :
    ∃ p, dups[closestToExpiring dups]? = some p ∧ ∀ q ∈ dups, p.timems ≤ q.timems := by
  suffices hfold : ∃ p i, dups.zipIdx.foldl soonest none = some (p, i) ∧
      dups[i]? = some p ∧ ∀ q ∈ dups, p.timems ≤ q.timems by
    obtain ⟨p, i, hfold, hi, hfirst⟩ := hfold
    rw [closestToExpiring_eq, hfold]
    exact ⟨p, hi, hfirst⟩
  -- the scan has looked at a beginning of the table, which gets longer by an entry
  induction dups using List.reverseRecOn with
  | nil => exact absurd rfl hne
  | append_singleton dups q ih =>
    rw [List.zipIdx_append, List.foldl_append]
    have hlast : (dups ++ [q])[dups.length]? = some q := by simp
    by_cases hdups : dups = []
    · subst hdups
      exact ⟨q, 0, rfl, rfl, by simp⟩
    · obtain ⟨p, i, hfold, hi, hfirst⟩ := ih hdups
      rw [hfold]
      by_cases hless : q.timems < p.timems
      · refine ⟨q, dups.length, by simp [soonest, hless], hlast, fun r hr => ?_⟩
        rw [List.mem_append, List.mem_singleton] at hr
        obtain hr | rfl := hr
        · exact hless.le.trans (hfirst r hr)
        · exact le_rfl
      · refine ⟨p, i, by simp [soonest, hless], ?_, fun r hr => ?_⟩
        · rw [List.getElem?_append_left (List.getElem?_eq_some_iff.mp hi).1, hi]
        · rw [List.mem_append, List.mem_singleton] at hr
          obtain hr | rfl := hr
          · exact hfirst r hr
          · exact not_lt.mp hless

/-! ### One call -/

variable {env : Env}

/-- **The clock** does not go backwards up to a reading, and does not wrap around. -/
structure Steady (env : Env) (n : ℕ) : Prop where
  mono : ∀ i j, i ≤ j → j < n → timemsAt env i ≤ timemsAt env j
  fits : ∀ i < n, timemsAt env i + dupTime < 2 ^ 64

/-- What the table says of the frames that were accepted: each with the number of the reading that
it was accepted at. -/
structure DupHolds (env : Env) (clock : ℕ) (history : List (Bytes × ℕ)) (dups : List DupEntry) :
    Prop where
  length : dups.length = 16
  sized : ∀ p ∈ dups, p.Sized
  holds : Expiry.Holds (timemsAt env) 16 dupTime clock history (dupRows dups)

theorem dupHolds_init (env : Env) (clock : ℕ) : DupHolds env clock [] dupsInit where
  length := rfl
  sized p hp := by
    rw [List.eq_of_mem_replicate hp]
    exact ⟨rfl, Nat.zero_le _⟩
  holds := Expiry.Holds.nil

/-- The entry that a frame is written to. -/
theorem sized_written {p : DupEntry} (hp : p.Sized) {cmd : Bytes} (hne : cmd ≠ [])
    (hcmd : cmd.length ≤ 16) (e : ℕ) :
    DupEntry.Sized ⟨e, memcpy p.rfCommand cmd, cmd.length⟩ ∧
      DupEntry.row ⟨e, memcpy p.rfCommand cmd, cmd.length⟩ = some (cmd, e) := by
  have hroom := hp.1
  have hsized : DupEntry.Sized ⟨e, memcpy p.rfCommand cmd, cmd.length⟩ := by
    refine ⟨?_, hcmd⟩
    rw [memcpy, List.length_append, List.length_drop]
    omega
  refine ⟨hsized, hsized.row_iff.mpr ⟨?_, ⟨rfl, ?_⟩, rfl⟩⟩
  · exact mt List.length_eq_zero_iff.mp hne
  · exact List.take_left

/-- The entry of a frame whose time is renewed. -/
theorem sized_renewed {p : DupEntry} (hp : p.Sized) {cmd : Bytes} {e₀ : ℕ}
    (hrow : p.row = some (cmd, e₀)) (e : ℕ) :
    DupEntry.Sized { p with timems := e } ∧ DupEntry.row { p with timems := e } = some (cmd, e) := by
  have hsized : DupEntry.Sized { p with timems := e } := hp
  obtain ⟨hused, hhere, -⟩ := hp.row_iff.mp hrow
  exact ⟨hsized, hsized.row_iff.mpr ⟨hused, hhere, rfl⟩⟩

/-- **An entry is written**: the frame is accepted. -/
theorem DupHolds.write {clock n i : ℕ} {history : List (Bytes × ℕ)} {dups : List DupEntry}
    (h : DupHolds env clock history dups) (hnow : clock ≤ timemsAt env n)
    (hfits : timemsAt env n + dupTime < 2 ^ 64) {p : DupEntry} (hp : dups[i]? = some p)
    {f : DupEntry → DupEntry} {cmd : Bytes} (hf : (f p).Sized)
    (hrow : (f p).row = some (cmd, (timemsAt env n + dupTime) % 2 ^ 64))
    (hothers : ∀ e, (cmd, e) ∈ dupRows dups → p.row = some (cmd, e))
    (hmay : ∀ k e, p.row = some (k, e) → k = cmd ∨
      (∀ q ∈ dups, q.row ≠ none) ∧ ∀ q ∈ dups, e ≤ q.timems) :
    DupHolds env (timemsAt env n) ((cmd, n) :: history) (dups.modify i f) := by
  obtain ⟨rest, hold, hnew, hsub⟩ := dupRows_modify hp f
  rw [Nat.mod_eq_of_lt hfits] at hrow
  -- no other row is of a frame that the entry has
  have hapart : ∀ k e, p.row = some (k, e) → k ∉ rest.map Prod.fst := fun k e hpk hk => by
    have hnodup := (hold.map Prod.fst).nodup_iff.mp h.holds.nodup
    rw [hpk] at hnodup
    exact (List.nodup_cons.mp hnodup).1 hk
  have hcmd : cmd ∉ rest.map Prod.fst := fun hmem => by
    obtain ⟨⟨_, e⟩, hmem', rfl⟩ := List.mem_map.mp hmem
    exact hapart _ e (hothers e (hsub.subset hmem')) hmem
  refine ⟨(List.length_modify ..).trans h.length, fun q hq => ?_, ?_⟩
  · rw [List.modify_eq_set_getElem?, hp] at hq
    obtain hq | rfl := List.mem_or_eq_of_mem_set hq
    · exact h.sized q hq
    · exact hf
  · rw [hrow] at hnew
    refine (h.holds.accept hnow hsub hcmd fun r hr => ?_).perm hnew.symm
    have hr' := hold.mem_iff.mp hr
    rw [List.mem_append, Option.mem_toList] at hr'
    obtain ⟨k, e⟩ := r
    obtain hpr | hr' := hr'
    · obtain hk | ⟨hused, hfirst⟩ := hmay k e hpr
      · exact Or.inr (Or.inl hk)
      · refine Or.inr (Or.inr ⟨?_, hapart k e hpr, fun r' hr' => ?_⟩)
        · have hlen := hold.length_eq
          rw [length_dupRows hused, h.length, hpr] at hlen
          simp only [Option.toList_some, List.length_append, List.length_singleton] at hlen
          omega
        · obtain ⟨q, hq, hqrow⟩ := mem_dupRows.mp (hsub.subset hr')
          rw [DupEntry.row] at hqrow
          split at hqrow
          · cases hqrow
          · rw [← Option.some.inj hqrow]
            exact hfirst q hq
    · exact Or.inl hr'

/-- **What one call does**: a frame that is held back has a row whose time is not over, and the table
is left but for rows that are over; any other frame is accepted, at the second reading. -/
theorem dupFilter_call {clock : ℕ} {history : List (Bytes × ℕ)} {cmd : Bytes} {s : X10State}
    (h : DupHolds env clock history s.dups) (hnow : clock ≤ timemsAt env s.timemsReads)
    (hne : cmd ≠ []) (hcmd : cmd.length ≤ 16)
    (hsteady : Steady env (dupFilter env cmd s).state.timemsReads) :
    ((dupFilter env cmd s).value = true ∧
        (dupFilter env cmd s).state.timemsReads = s.timemsReads + 1 ∧
        (∃ e, (cmd, e) ∈ dupRows s.dups ∧ timemsAt env s.timemsReads ≤ e) ∧
        (dupRows (dupFilter env cmd s).state.dups).Sublist (dupRows s.dups) ∧
        DupHolds env (timemsAt env s.timemsReads) history (dupFilter env cmd s).state.dups) ∨
      ((dupFilter env cmd s).value = false ∧
        (dupFilter env cmd s).state.timemsReads = s.timemsReads + 2 ∧
        (∀ e, timemsAt env s.timemsReads ≤ e → (cmd, e) ∉ dupRows s.dups) ∧
        DupHolds env (timemsAt env (s.timemsReads + 1)) ((cmd, s.timemsReads + 1) :: history)
          (dupFilter env cmd s).state.dups) := by
  have hscan := dupScan_spec (timemsAt env s.timemsReads) cmd 0 none h.sized
  rcases hfound : dupScan (timemsAt env s.timemsReads) cmd 0 none s.dups with ⟨dups, found⟩
  rw [hfound] at hscan
  simp only [timemsAt] at hfound
  obtain ⟨hlength, hsized, hsub, hkept, hmeets⟩ := hscan
  have hholds : DupHolds env (timemsAt env s.timemsReads) history dups :=
    ⟨hlength.trans h.length, hsized, (h.holds.tick hnow).drop hsub hkept⟩
  cases found with
  | present =>
    have hcall : dupFilter env cmd s =
        ⟨true, { s with dups := dups, timemsReads := s.timemsReads + 1 }, []⟩ := by
      simp only [dupFilter, getTimems, X10M.bind_apply, X10M.gets_apply, X10M.modify_apply,
        X10M.pure_apply, hfound, List.append_nil]
    rw [hcall]
    exact Or.inl ⟨rfl, rfl, hmeets, hsub, hholds⟩
  | expired i =>
    have hcall : dupFilter env cmd s = ⟨false, { s with
        dups := dups.modify i fun p =>
          { p with timems := (timemsAt env (s.timemsReads + 1) + dupTime) % 2 ^ 64 }
        timemsReads := s.timemsReads + 2 }, []⟩ := by
      simp only [dupFilter, getTimems, X10M.bind_apply, X10M.gets_apply, X10M.modify_apply,
        X10M.pure_apply, hfound, List.append_nil]
      rfl
    rw [hcall] at hsteady ⊢
    obtain ⟨k, e, p, hik, hp, hrow, hlate⟩ := hmeets
    obtain rfl : i = k := hik.trans (Nat.zero_add k)
    have hmem : p ∈ dups := List.mem_of_getElem? hp
    obtain ⟨hsized', hrow'⟩ := sized_renewed (hsized p hmem) hrow
      ((timemsAt env (s.timemsReads + 1) + dupTime) % 2 ^ 64)
    have hunique : ∀ e, (cmd, e) ∈ dupRows dups → p.row = some (cmd, e) := fun e he => by
      have hsame := List.inj_on_of_nodup_map hholds.holds.nodup he
        (mem_dupRows.mpr ⟨p, hmem, hrow⟩) rfl
      rw [hrow, hsame]
    refine Or.inr ⟨rfl, rfl, fun e hle he => ?_, hholds.write (hsteady.mono _ _ (Nat.le_succ _)
      (Nat.lt_succ_self _)) (hsteady.fits _ (Nat.lt_succ_self _)) hp hsized' hrow' hunique ?_⟩
    · obtain he | he := hkept _ he
      · have hsame := hunique e he
        rw [hrow] at hsame
        obtain ⟨-, rfl⟩ := Prod.mk.inj (Option.some.inj hsame)
        exact Nat.not_le.mpr hlate hle
      · exact Nat.not_le.mpr he hle
    · intro k e' he'
      rw [hrow] at he'
      exact Or.inl (Prod.mk.inj (Option.some.inj he')).1.symm
  | absent firstunused =>
    have hcall : dupFilter env cmd s = ⟨false, { s with
        dups := dups.modify (firstunused.getD (closestToExpiring dups)) fun p =>
          ⟨(timemsAt env (s.timemsReads + 1) + dupTime) % 2 ^ 64, memcpy p.rfCommand cmd, cmd.length⟩
        timemsReads := s.timemsReads + 2 }, []⟩ := by
      simp only [dupFilter, getTimems, X10M.bind_apply, X10M.gets_apply, X10M.modify_apply,
        X10M.pure_apply, hfound, List.append_nil]
      rfl
    rw [hcall] at hsteady ⊢
    obtain ⟨habsent, hlater, hunused⟩ := hmeets
    refine Or.inr ⟨rfl, rfl, fun e _ => habsent e, ?_⟩
    have hmono := hsteady.mono _ _ (Nat.le_succ s.timemsReads) (Nat.lt_succ_self _)
    have hfits := hsteady.fits _ (Nat.lt_succ_self (s.timemsReads + 1))
    have hothers : ∀ p : DupEntry, ∀ e, (cmd, e) ∈ dupRows dups → p.row = some (cmd, e) :=
      fun p e he => absurd (hsub.subset he) (habsent e)
    cases firstunused with
    | some j =>
      obtain hnone | ⟨k, p, hjk, hp, hrow⟩ := hunused
      · cases hnone
      obtain rfl : j = k := hjk.trans (Nat.zero_add k)
      obtain ⟨hsized', hrow'⟩ := sized_written (hsized p (List.mem_of_getElem? hp)) hne hcmd
        ((timemsAt env (s.timemsReads + 1) + dupTime) % 2 ^ 64)
      exact hholds.write hmono hfits hp hsized' hrow' (hothers p) fun k e he => by
        rw [hrow] at he
        cases he
    | none =>
      obtain ⟨-, hall⟩ := hunused
      obtain ⟨p, hp, hfirst⟩ := closestToExpiring_spec
        (List.ne_nil_of_length_pos (by rw [hholds.length]; decide))
      have hmem : p ∈ dups := List.mem_of_getElem? hp
      obtain ⟨hsized', hrow'⟩ := sized_written (hsized p hmem) hne hcmd
        ((timemsAt env (s.timemsReads + 1) + dupTime) % 2 ^ 64)
      exact hholds.write hmono hfits hp hsized' hrow' (hothers p) fun k e he =>
        Or.inr ⟨hall, ((hsized p hmem).row_iff.mp he).2.2 ▸ hfirst⟩

/-! ### Sequences of calls -/

/-- One more call, and the frames that were accepted before it, the last one first: each with the
number of the reading that its time runs from. -/
def dupCall (env : Env) (before : X10State × List (Bytes × ℕ)) (cmd : Bytes) :
    X10State × List (Bytes × ℕ) :=
  let r := dupFilter env cmd before.1
  (r.state, if r.value then before.2 else (cmd, before.1.timemsReads + 1) :: before.2)

/-- A sequence of calls. -/
def dupCalls (env : Env) (cmds : List Bytes) (s : X10State) : X10State × List (Bytes × ℕ) :=
  cmds.foldl (dupCall env) (s, [])

theorem Steady.le {n m : ℕ} (h : Steady env n) (hle : m ≤ n) : Steady env m where
  mono i j hij hj := h.mono i j hij (hj.trans_le hle)
  fits i hi := h.fits i (hi.trans_le hle)

/-- The clock is read once, and once more if the frame is accepted. -/
theorem timemsReads_dupFilter (cmd : Bytes) (s : X10State) :
    (dupFilter env cmd s).state.timemsReads =
      s.timemsReads + if (dupFilter env cmd s).value then 1 else 2 := by
  rcases hfound : dupScan (timemsAt env s.timemsReads) cmd 0 none s.dups with ⟨dups, found⟩
  simp only [timemsAt] at hfound
  cases found with
  | present | expired | absent =>
    simp only [dupFilter, getTimems, X10M.bind_apply, X10M.gets_apply, X10M.modify_apply,
      X10M.pure_apply, hfound]
    rfl

theorem lt_timemsReads_dupFilter (cmd : Bytes) (s : X10State) :
    s.timemsReads < (dupFilter env cmd s).state.timemsReads := by
  rw [timemsReads_dupFilter]
  split
  · exact Nat.lt_succ_self _
  · omega

/-- **After any calls** the table holds the frames that were accepted, at a time that is not after
any reading still to come. -/
theorem dupCalls_holds {s₀ : X10State} (hinit : s₀.dups = dupsInit) (cmds : List Bytes)
    (hframes : ∀ c ∈ cmds, c ≠ [] ∧ c.length ≤ 16) {n : ℕ} (hsteady : Steady env n)
    (hn : (dupCalls env cmds s₀).1.timemsReads ≤ n) :
    ∃ clock, DupHolds env clock (dupCalls env cmds s₀).2 (dupCalls env cmds s₀).1.dups ∧
      ∀ i, (dupCalls env cmds s₀).1.timemsReads ≤ i → i < n → clock ≤ timemsAt env i := by
  induction cmds using List.reverseRecOn with
  | nil => exact ⟨0, hinit ▸ dupHolds_init env 0, fun i _ _ => Nat.zero_le _⟩
  | append_singleton cmds cmd ih =>
    have hstep : dupCalls env (cmds ++ [cmd]) s₀ = dupCall env (dupCalls env cmds s₀) cmd :=
      List.foldl_append
    rw [hstep] at hn ⊢
    generalize hbefore : dupCalls env cmds s₀ = before at ih hn ⊢
    obtain ⟨s, history⟩ := before
    obtain ⟨hne, hcmd⟩ := hframes cmd (by simp)
    have hfirst : (dupFilter env cmd s).state.timemsReads ≤ n := hn
    have hreads : s.timemsReads < (dupFilter env cmd s).state.timemsReads :=
      lt_timemsReads_dupFilter cmd s
    obtain ⟨clock, hholds, hlater⟩ :=
      ih (fun c hc => hframes c (by simp [hc])) (hreads.le.trans hfirst)
    have hnow : clock ≤ timemsAt env s.timemsReads := hlater _ le_rfl (hreads.trans_le hfirst)
    obtain ⟨hvalue, hread, -, -, hafter⟩ | ⟨hvalue, hread, -, hafter⟩ :=
      dupFilter_call hholds hnow hne hcmd (hsteady.le hfirst)
    · refine ⟨timemsAt env s.timemsReads, ?_, fun i hi hin => hsteady.mono _ _ ?_ hin⟩
      · rw [dupCall, hvalue]
        exact hafter
      · have hi' : (dupFilter env cmd s).state.timemsReads ≤ i := hi
        omega
    · refine ⟨timemsAt env (s.timemsReads + 1), ?_, fun i hi hin => hsteady.mono _ _ ?_ hin⟩
      · rw [dupCall, hvalue]
        exact hafter
      · have hi' : (dupFilter env cmd s).state.timemsReads ≤ i := hi
        omega

/-- **What the last of a sequence of calls does.** -/
theorem dupCalls_call {s₀ : X10State} (hinit : s₀.dups = dupsInit) (cmds : List Bytes) (cmd : Bytes)
    (hframes : ∀ c ∈ cmd :: cmds, c ≠ [] ∧ c.length ≤ 16) {s : X10State}
    {history : List (Bytes × ℕ)} (hcalls : dupCalls env cmds s₀ = (s, history))
    (hsteady : Steady env (dupFilter env cmd s).state.timemsReads) :
    ∃ clock, DupHolds env clock history s.dups ∧ clock ≤ timemsAt env s.timemsReads := by
  have hreads : s.timemsReads < (dupFilter env cmd s).state.timemsReads :=
    lt_timemsReads_dupFilter cmd s
  obtain ⟨clock, hholds, hlater⟩ := dupCalls_holds hinit cmds
    (fun c hc => hframes c (List.mem_cons_of_mem cmd hc)) hsteady (by rw [hcalls]; exact hreads.le)
  rw [hcalls] at hholds hlater
  exact ⟨clock, hholds, hlater _ le_rfl hreads⟩

/-- **The duplicate filter refines its purpose**, over any calls with frames of up to sixteen bytes:
a frame is held back only if it was accepted no more than 650 ms before, and then always, unless
sixteen other frames were accepted since; no frame has two rows; and a frame that is held back leaves
the rows as they are, but for those that are over. -/
theorem dup_filter_refines (env : Env) {s₀ s : X10State} {history : List (Bytes × ℕ)}
    (hinit : s₀.dups = dupsInit) (cmds : List Bytes) (cmd : Bytes)
    (hframes : ∀ c ∈ cmd :: cmds, c ≠ [] ∧ c.length ≤ 16)
    (hcalls : dupCalls env cmds s₀ = (s, history))
    (hclock : Steady env (dupFilter env cmd s).state.timemsReads) :
    ((dupFilter env cmd s).value = true →
        ∃ n, (cmd, n) ∈ history ∧ timemsAt env s.timemsReads ≤ timemsAt env n + 650) ∧
      (∀ n, (cmd, n) ∈ history → timemsAt env s.timemsReads ≤ timemsAt env n + 650 →
        ¬Crowded (timemsAt env) 16 history cmd (timemsAt env n) →
        (dupFilter env cmd s).value = true) ∧
      ((dupRows (dupFilter env cmd s).state.dups).map Prod.fst).Nodup ∧
      ((dupFilter env cmd s).value = true →
        (dupRows (dupFilter env cmd s).state.dups).Sublist (dupRows s.dups) ∧
          dupCalls env (cmds ++ [cmd]) s₀ = ((dupFilter env cmd s).state, history)) := by
  obtain ⟨hne, hcmd⟩ := hframes cmd List.mem_cons_self
  obtain ⟨clock, hholds, hnow⟩ := dupCalls_call hinit cmds cmd hframes hcalls hclock
  have happend : dupCalls env (cmds ++ [cmd]) s₀ = dupCall env (s, history) cmd := by
    rw [← hcalls]
    exact List.foldl_append
  obtain ⟨hvalue, -, ⟨e, hrow, hle⟩, hsub, hafter⟩ | ⟨hvalue, -, hmissing, hafter⟩ :=
    dupFilter_call hholds hnow hne hcmd hclock
  · refine ⟨fun _ => ?_, fun _ _ _ _ => hvalue, hafter.holds.nodup, fun _ => ⟨hsub, ?_⟩⟩
    · obtain ⟨n, hn, rfl⟩ := hholds.holds.dated cmd e hrow
      exact ⟨n, Expiry.mem_of_lastAccepted hn, hle⟩
    · rw [happend, dupCall, hvalue]
      rfl
  · have hnot : (dupFilter env cmd s).value ≠ true := by simp [hvalue]
    refine ⟨fun h => absurd h hnot, fun n hn htime hcrowded => ?_, hafter.holds.nodup,
      fun h => absurd h hnot⟩
    exact absurd ((hholds.holds.tick hnow).crowded hn htime hmissing) hcrowded

/-- A frame that comes again at once was accepted no more than 650 ms before. -/
theorem dup_filter_refines_again :
    ∃ n, ([0x5d, 0x20, 0x60, 0x9f, 0x00, 0xff], n) ∈
        (dupCalls (Env.plain mochadConfigDefaults false) [[0x5d, 0x20, 0x60, 0x9f, 0x00, 0xff]] .idle).2 ∧
      timemsAt (Env.plain mochadConfigDefaults false) 2 ≤
        timemsAt (Env.plain mochadConfigDefaults false) n + 650 := by
  have hsteady : ∀ n, Steady (Env.plain mochadConfigDefaults false) n := fun n =>
    ⟨fun _ _ _ _ => le_rfl, fun i _ => show 0 + dupTime < 2 ^ 64 by decide⟩
  have hinit : X10State.idle.dups = dupsInit := rfl
  exact (dup_filter_refines (Env.plain mochadConfigDefaults false) hinit
    [[0x5d, 0x20, 0x60, 0x9f, 0x00, 0xff]] [0x5d, 0x20, 0x60, 0x9f, 0x00, 0xff]
    (by decide) rfl (hsteady _)).1 (by decide +kernel)

end Mochad
