import Mathlib

/-!
# Registers

A register keeps one row for each key: the tag that the key was first seen with, and the value that
it was last seen with. What it should tell is the last value of a key *and a tag* (`last`). The two
agree exactly where no key is seen with two tags (`Apart`).

The rows may stand in any order, and are changed in place, so a list of rows is compared with the
history that it stands for by lookups alone (`Keeps`). A register may have room for a number of keys
only (`KeepsWithin`):

* `KeepsWithin.perm` – the rows may be sorted;
* `KeepsWithin.change`, `KeepsWithin.add` – an entry changes the row of its key, or adds one;
* `KeepsWithin.full` – an entry with a new key is lost where there is no room for it;
* `KeepsWithin.keeps` – nothing is missing where there was room for all.
-/

namespace Mochad

namespace Register

variable {τ κ ν ρ : Type*}

/-- What was seen at a time. -/
structure Entry (τ κ ν : Type*) where
  tag : τ
  key : κ
  value : ν
  deriving DecidableEq

/-- No key was seen with two tags. -/
def Apart (history : List (Entry τ κ ν)) : Prop :=
  ∀ e ∈ history, ∀ e' ∈ history, e.key = e'.key → e.tag = e'.tag

theorem Apart.tail {e : Entry τ κ ν} {older : List (Entry τ κ ν)} (h : Apart (e :: older)) :
    Apart older :=
  fun a ha b hb => h a (List.mem_cons_of_mem e ha) b (List.mem_cons_of_mem e hb)

variable [DecidableEq κ]

/-- **What a register keeps** of a history, of which the newest entry comes first. -/
def remembered : List (Entry τ κ ν) → κ → Option (τ × ν)
  | [], _ => none
  | e :: older, k =>
      if k = e.key then some ((remembered older k).elim e.tag Prod.fst, e.value)
      else remembered older k

/-- **The last value** of a key that was seen with a tag. -/
def last [DecidableEq τ] (history : List (Entry τ κ ν)) (t : τ) (k : κ) : Option ν :=
  (history.find? fun e => e.tag = t ∧ e.key = k).map (·.value)

/-- What is remembered was seen, with the tag that is remembered. -/
theorem mem_of_remembered {history : List (Entry τ κ ν)} {k : κ} {t : τ} {v : ν}
    (h : remembered history k = some (t, v)) : ∃ e ∈ history, e.key = k ∧ e.tag = t := by
  induction history generalizing t v with
  | nil => cases h
  | cons e older ih =>
    rw [remembered] at h
    split at h
    next hk =>
      obtain ⟨htag, -⟩ := Prod.mk.inj (Option.some.inj h)
      cases hold : remembered older k with
      | none =>
        rw [hold] at htag
        exact ⟨e, List.mem_cons_self, hk.symm, htag⟩
      | some r =>
        rw [hold] at htag
        obtain ⟨e', he', hkey, htag'⟩ := ih hold
        exact ⟨e', List.mem_cons_of_mem e he', hkey, htag'.trans htag⟩
    · obtain ⟨e', he', hfound⟩ := ih h
      exact ⟨e', List.mem_cons_of_mem e he', hfound⟩

theorem remembered_eq_none_iff {history : List (Entry τ κ ν)} {k : κ} :
    remembered history k = none ↔ ∀ e ∈ history, e.key ≠ k := by
  induction history with
  | nil => simp [remembered]
  | cons e older ih =>
    rw [remembered, List.forall_mem_cons, ← ih]
    split
    next hk => simp [hk]
    next hk => simp [Ne.symm hk]

/-- **Where no key was seen with two tags, a register tells the last value** of a key and a tag. -/
theorem last_eq [DecidableEq τ] {history : List (Entry τ κ ν)} (h : Apart history) (t : τ) (k : κ) :
    last history t k =
      (remembered history k).bind fun r => if r.1 = t then some r.2 else none := by
  induction history with
  | nil => rfl
  | cons e older ih =>
    have hold := ih h.tail
    rw [remembered]
    by_cases hk : k = e.key
    · rw [if_pos hk, Option.bind_some]
      have htag : (remembered older k).elim e.tag Prod.fst = e.tag := by
        cases hr : remembered older k with
        | none => rfl
        | some r =>
          obtain ⟨e', he', hkey, htag⟩ := mem_of_remembered hr
          have hsame := h e' (List.mem_cons_of_mem e he') e List.mem_cons_self (hkey.trans hk)
          exact htag.symm.trans hsame
      rw [htag]
      by_cases ht : e.tag = t
      · rw [if_pos ht, last, List.find?_cons_of_pos (by simp [ht, hk])]
        rfl
      · rw [if_neg ht, last, List.find?_cons_of_neg (by simp [ht]), ← last, hold]
        cases hr : remembered older k with
        | none => rfl
        | some r =>
          obtain ⟨e', he', hkey, htag'⟩ := mem_of_remembered hr
          have hsame := h e' (List.mem_cons_of_mem e he') e List.mem_cons_self (hkey.trans hk)
          rw [Option.bind_some, if_neg]
          rw [← htag', hsame]
          exact ht
    · rw [if_neg hk, last, List.find?_cons_of_neg (by simp [Ne.symm hk]), ← last, hold]

/-! ### Rows -/

/-- **With keys that occur once**, the row of a key is the only one. -/
theorem find?_eq_some_iff {key : ρ → κ} {rows : List ρ} (h : (rows.map key).Nodup) {k : κ} {r : ρ} :
    (rows.find? fun r => key r = k) = some r ↔ r ∈ rows ∧ key r = k := by
  constructor
  · intro hfind
    exact ⟨List.mem_of_find?_eq_some hfind, by simpa using List.find?_some hfind⟩
  · rintro ⟨hmem, rfl⟩
    cases hfind : rows.find? fun x => key x = key r with
    | none =>
      exact absurd (decide_eq_true rfl) (List.find?_eq_none.mp hfind r hmem)
    | some x =>
      have hx : key x = key r := by simpa using List.find?_some hfind
      rw [List.inj_on_of_nodup_map h (List.mem_of_find?_eq_some hfind) hmem hx]

/-- A lookup does not depend on the order of the rows. -/
theorem find?_perm {key : ρ → κ} {rows rows' : List ρ} (h : (rows.map key).Nodup)
    (hperm : rows.Perm rows') (k : κ) :
    (rows'.find? fun r => key r = k) = rows.find? fun r => key r = k := by
  have hnodup : (rows'.map key).Nodup := (hperm.map key).nodup_iff.mp h
  ext r
  rw [find?_eq_some_iff hnodup, find?_eq_some_iff h, hperm.mem_iff]

/-- **A changed row** is found in the place of the old one. -/
theorem find?_change {key : ρ → κ} {before after : List ρ} {r r' : ρ} (hkey : key r' = key r)
    (h : ((before ++ r :: after).map key).Nodup) (k : κ) :
    ((before ++ r' :: after).map key).Nodup ∧
      ((before ++ r' :: after).find? fun x => key x = k) =
        if k = key r then some r' else (before ++ r :: after).find? fun x => key x = k := by
  have hkeys : (before ++ r' :: after).map key = (before ++ r :: after).map key := by
    rw [List.map_append, List.map_append, List.map_cons, List.map_cons, hkey]
  have hnodup : ((before ++ r' :: after).map key).Nodup := hkeys ▸ h
  refine ⟨hnodup, ?_⟩
  by_cases hk : k = key r
  · rw [if_pos hk]
    exact (find?_eq_some_iff hnodup).mpr ⟨by simp, hkey.trans hk.symm⟩
  · have hother : ∀ x : ρ, key x = key r → decide (key x = k) = false :=
      fun x hx => decide_eq_false fun heq => hk (heq.symm.trans hx)
    rw [if_neg hk, List.find?_append, List.find?_append, List.find?_cons, List.find?_cons,
      hother r rfl, hother r' hkey]

/-- **A new row** is found under its key. -/
theorem find?_add {key : ρ → κ} {rows : List ρ} {r : ρ} (hnew : key r ∉ rows.map key)
    (h : (rows.map key).Nodup) (k : κ) :
    ((rows ++ [r]).map key).Nodup ∧
      ((rows ++ [r]).find? fun x => key x = k) =
        if k = key r then some r else rows.find? fun x => key x = k := by
  constructor
  · rw [List.map_append, List.map_singleton]
    exact List.nodup_append.mpr ⟨h, List.nodup_singleton _, fun a ha b hb =>
      fun heq => hnew (List.mem_singleton.mp hb ▸ heq ▸ ha)⟩
  · have hfresh : (rows.find? fun x => key x = key r) = none := by
      rw [List.find?_eq_none]
      intro x hx hxk
      exact hnew (List.mem_map.mpr ⟨x, hx, by simpa using hxk⟩)
    rw [List.find?_append]
    by_cases hk : k = key r
    · rw [if_pos hk, hk, hfresh, Option.none_or, List.find?_cons_of_pos (by simp)]
    · rw [if_neg hk, List.find?_cons_of_neg (by simpa using Ne.symm hk), List.find?_nil,
        Option.or_none]

/-- **A scan for a key is a lookup**, where keys occur once. -/
theorem findSome?_rows {key : ρ → κ} {rows : List ρ} (h : (rows.map key).Nodup) {β : Type*} (k : κ)
    (f : ρ → Option β) :
    (rows.findSome? fun r => if key r = k then f r else none) =
      (rows.find? fun r => key r = k).bind f := by
  induction rows with
  | nil => rfl
  | cons r rows ih =>
    obtain ⟨hr, hrows⟩ := List.nodup_cons.mp h
    by_cases hk : key r = k
    · have hnone : (rows.findSome? fun r => if key r = k then f r else none) = none := by
        rw [List.findSome?_eq_none_iff]
        intro x hx
        exact if_neg fun hxk => hr (List.mem_map.mpr ⟨x, hx, hxk.trans hk.symm⟩)
      rw [List.find?_cons_of_pos (by simpa using hk), List.findSome?_cons, if_pos hk, hnone]
      cases hf : f r with
      | none => simp [hf]
      | some b => simp [hf]
    · rw [List.find?_cons_of_neg (by simpa using hk), List.findSome?_cons, if_neg hk]
      exact ih hrows

/-- **A list of rows stands for a history**: a row's key is its own, and a lookup finds what is
remembered. -/
structure Keeps (key : ρ → κ) (kept : ρ → τ × ν) (rows : List ρ) (history : List (Entry τ κ ν)) :
    Prop where
  nodup : (rows.map key).Nodup
  lookup : ∀ k, (rows.find? fun r => key r = k).map kept = remembered history k

/-! ### Limited room -/

/-- How many keys were seen. -/
def number (history : List (Entry τ κ ν)) : ℕ := (history.map (·.key)).toFinset.card

/-- **What is kept by a register with room for so many keys**: a key that is first seen when there
is no room is not kept, then or later. -/
def keptWithin (room : ℕ) : List (Entry τ κ ν) → κ → Option (τ × ν)
  | [], _ => none
  | e :: older, k =>
      if k = e.key then
        match keptWithin room older k with
        | some (t, _) => some (t, e.value)
        | none => if number older < room then some (e.tag, e.value) else none
      else keptWithin room older k

theorem number_le_cons (e : Entry τ κ ν) (older : List (Entry τ κ ν)) :
    number older ≤ number (e :: older) := by
  rw [number, number, List.map_cons, List.toFinset_cons]
  exact Finset.card_le_card (Finset.subset_insert _ _)

/-- A key that was seen before is not counted again. -/
theorem number_cons_of_mem {e : Entry τ κ ν} {older : List (Entry τ κ ν)}
    (h : ∃ e' ∈ older, e'.key = e.key) : number (e :: older) = number older := by
  rw [number, number, List.map_cons, List.toFinset_cons, Finset.insert_eq_of_mem]
  exact List.mem_toFinset.mpr (List.mem_map.mpr h)

/-- A new key is. -/
theorem number_cons_of_not_mem {e : Entry τ κ ν} {older : List (Entry τ κ ν)}
    (h : ∀ e' ∈ older, e'.key ≠ e.key) : number (e :: older) = number older + 1 := by
  rw [number, number, List.map_cons, List.toFinset_cons, Finset.card_insert_of_notMem]
  intro hmem
  obtain ⟨e', he', hkey⟩ := List.mem_map.mp (List.mem_toFinset.mp hmem)
  exact h e' he' hkey

/-- **Where there is room, everything is kept.** -/
theorem keptWithin_eq {room : ℕ} {history : List (Entry τ κ ν)} (h : number history ≤ room) (k : κ) :
    keptWithin room history k = remembered history k := by
  induction history generalizing k with
  | nil => rfl
  | cons e older ih =>
    have hold := ih (le_trans (number_le_cons e older) h)
    rw [keptWithin, remembered, hold k]
    split
    next hk =>
      cases hr : remembered older k with
      | some r => rfl
      | none =>
        have hnew : number (e :: older) = number older + 1 :=
          number_cons_of_not_mem (hk ▸ remembered_eq_none_iff.mp hr)
        exact if_pos (by omega)
    · rfl

/-- What is kept was seen, with the tag that is kept. -/
theorem mem_of_keptWithin {room : ℕ} {history : List (Entry τ κ ν)} {k : κ} {t : τ} {v : ν}
    (h : keptWithin room history k = some (t, v)) : ∃ e ∈ history, e.key = k ∧ e.tag = t := by
  induction history generalizing t v with
  | nil => cases h
  | cons e older ih =>
    rw [keptWithin] at h
    split at h
    next hk =>
      cases hold : keptWithin room older k with
      | some r =>
        rw [hold] at h
        obtain ⟨htag, -⟩ := Prod.mk.inj (Option.some.inj h)
        obtain ⟨e', he', hkey, htag'⟩ := ih hold
        exact ⟨e', List.mem_cons_of_mem e he', hkey, htag'.trans htag⟩
      | none =>
        rw [hold] at h
        simp only at h
        split at h
        · obtain ⟨htag, -⟩ := Prod.mk.inj (Option.some.inj h)
          exact ⟨e, List.mem_cons_self, hk.symm, htag⟩
        · cases h
    · obtain ⟨e', he', hfound⟩ := ih h
      exact ⟨e', List.mem_cons_of_mem e he', hfound⟩

/-- **A list of rows stands for a history**, as far as there was room. -/
structure KeepsWithin (room : ℕ) (key : ρ → κ) (kept : ρ → τ × ν) (rows : List ρ)
    (history : List (Entry τ κ ν)) : Prop where
  nodup : (rows.map key).Nodup
  lookup : ∀ k, (rows.find? fun r => key r = k).map kept = keptWithin room history k
  length : rows.length = min room (number history)

namespace KeepsWithin

variable {room : ℕ} {key : ρ → κ} {kept : ρ → τ × ν} {rows rows' : List ρ}
  {history : List (Entry τ κ ν)}

theorem nil (room : ℕ) (key : ρ → κ) (kept : ρ → τ × ν) : KeepsWithin room key kept [] [] :=
  ⟨List.nodup_nil, fun _ => rfl, (Nat.min_zero room).symm⟩

/-- Where there was room for every key, nothing is missing. -/
theorem keeps (h : KeepsWithin room key kept rows history) (hroom : number history ≤ room) :
    Keeps key kept rows history :=
  ⟨h.nodup, fun k => (h.lookup k).trans (keptWithin_eq hroom k)⟩

/-- A key without a row is not kept. -/
theorem keptWithin_eq_none_iff (h : KeepsWithin room key kept rows history) {k : κ} :
    keptWithin room history k = none ↔ k ∉ rows.map key := by
  rw [← h.lookup k, Option.map_eq_none_iff, List.find?_eq_none, List.mem_map]
  simp

/-- **The rows may be sorted.** -/
theorem perm (h : KeepsWithin room key kept rows history) (hperm : rows.Perm rows') :
    KeepsWithin room key kept rows' history :=
  ⟨(hperm.map key).nodup_iff.mp h.nodup,
    fun k => (congrArg (Option.map kept) (find?_perm h.nodup hperm k)).trans (h.lookup k),
    hperm.length_eq.symm.trans h.length⟩

/-- **An entry changes the row of its key.** -/
theorem change (h : KeepsWithin room key kept rows history) {e : Entry τ κ ν} {r r' : ρ}
    {before after : List ρ} (hrows : rows = before ++ r :: after) (hkey : key r = e.key)
    (hkey' : key r' = e.key) (hkept : kept r' = ((kept r).1, e.value)) :
    KeepsWithin room key kept (before ++ r' :: after) (e :: history) := by
  subst hrows
  have hfind := find?_change (hkey'.trans hkey.symm) h.nodup
  have hrow : keptWithin room history e.key = some (kept r) := by
    rw [← h.lookup, (find?_eq_some_iff h.nodup).mpr ⟨by simp, hkey⟩]
    rfl
  refine ⟨(hfind e.key).1, fun k => ?_, ?_⟩
  · rw [(hfind k).2, keptWithin, hkey]
    split
    next hk => rw [hk, hrow, Option.map_some, hkept]
    · exact h.lookup k
  · obtain ⟨e', he', hseen, -⟩ := mem_of_keptWithin hrow
    rw [number_cons_of_mem ⟨e', he', hseen⟩, ← h.length, List.length_append, List.length_append]
    rfl

/-- **An entry with a new key adds a row**, if there is room. -/
theorem add (h : KeepsWithin room key kept rows history) {e : Entry τ κ ν} {r : ρ}
    (hnew : e.key ∉ rows.map key) (hroom : rows.length < room) (hkey : key r = e.key)
    (hkept : kept r = (e.tag, e.value)) :
    KeepsWithin room key kept (rows ++ [r]) (e :: history) := by
  have hnone := h.keptWithin_eq_none_iff.mpr hnew
  have hlength := h.length
  have hlt : number history < room := by omega
  have hfind := find?_add (hkey ▸ hnew) h.nodup
  refine ⟨(hfind e.key).1, fun k => ?_, ?_⟩
  · rw [(hfind k).2, keptWithin, hkey]
    split
    next hk =>
      rw [hk, hnone]
      exact congrArg some hkept
    · exact h.lookup k
  · have hunseen : remembered history e.key = none :=
      (keptWithin_eq (le_of_lt hlt) _).symm.trans hnone
    have hfresh := number_cons_of_not_mem (remembered_eq_none_iff.mp hunseen)
    rw [hfresh, List.length_append, List.length_singleton]
    omega

/-- **Without room, an entry with a new key is lost.** -/
theorem full (h : KeepsWithin room key kept rows history) {e : Entry τ κ ν}
    (hnew : e.key ∉ rows.map key) (hfull : room ≤ rows.length) :
    KeepsWithin room key kept rows (e :: history) := by
  have hnone := h.keptWithin_eq_none_iff.mpr hnew
  have hlength := h.length
  have hmore := number_le_cons e history
  refine ⟨h.nodup, fun k => ?_, by omega⟩
  rw [h.lookup k, keptWithin]
  split
  next hk =>
    rw [hk, hnone]
    exact (if_neg (by omega)).symm
  · rfl

/-- A scan for a key is a lookup. -/
theorem findSome?_eq (h : KeepsWithin room key kept rows history) {β : Type*} (k : κ)
    (f : τ × ν → Option β) :
    (rows.findSome? fun r => if key r = k then f (kept r) else none) =
      (keptWithin room history k).bind f := by
  rw [findSome?_rows h.nodup k fun r => f (kept r), ← h.lookup k, Option.bind_map]
  rfl

end KeepsWithin

/-- A scan for a key is a lookup. -/
theorem Keeps.findSome?_eq {key : ρ → κ} {kept : ρ → τ × ν} {rows : List ρ}
    {history : List (Entry τ κ ν)} (h : Keeps key kept rows history) {β : Type*} (k : κ)
    (f : τ × ν → Option β) :
    (rows.findSome? fun r => if key r = k then f (kept r) else none) =
      (remembered history k).bind f := by
  rw [findSome?_rows h.nodup k fun r => f (kept r), ← h.lookup k, Option.bind_map]
  rfl

end Register

end Mochad
