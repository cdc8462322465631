import Mochad.X10.SensorStatus
import Mochad.X10.TableBounds

/-!
# Showing the state

`st` prints the table of sensors in the order of their addresses, and sorts the table for it. That is
an observation: a lookup goes by the address, which occurs once, so the order of the rows does not
matter to it, now or after more events (`show_observes`). The comparator subtracts two `unsigned
long`s and returns an `int`; between addresses of three bytes the difference fits.
-/

namespace Mochad

/-! ### The comparator -/

/-- **Between addresses of three bytes the comparator is their difference.** -/
theorem cmpX10sensor_eq {a b : X10Secsensor} (ha : a.secaddr < 2 ^ 24) (hb : b.secaddr < 2 ^ 24) :
    cmpX10sensor a b = (a.secaddr : ℤ) - b.secaddr := by
  rw [cmpX10sensor, Int.bmod_def]
  split
  · omega
  · omega

/-- A comparator that orders by a key, as `qsort` wants it. -/
structure Consistent {α : Type} (key : α → ℕ) (cmp : α → α → ℤ) (rows : Set α) : Prop where
  antisymm : ∀ a ∈ rows, ∀ b ∈ rows, cmp a b = -cmp b a
  trans : ∀ a ∈ rows, ∀ b ∈ rows, ∀ c ∈ rows, cmp a b ≤ 0 → cmp b c ≤ 0 → cmp a c ≤ 0
  zero : ∀ a ∈ rows, ∀ b ∈ rows, cmp a b = 0 ↔ key a = key b

/-- **The comparator is consistent.** -/
theorem consistent_cmpX10sensor :
    Consistent (·.secaddr) cmpX10sensor {sen | sen.secaddr < 2 ^ 24} where
  antisymm a ha b hb := by
    rw [cmpX10sensor_eq ha hb, cmpX10sensor_eq hb ha]
    omega
  trans a ha b hb c hc := by
    rw [cmpX10sensor_eq ha hb, cmpX10sensor_eq hb hc, cmpX10sensor_eq ha hc]
    omega
  zero a ha b hb := by
    rw [cmpX10sensor_eq ha hb]
    omega

/-- **A sorted table is sorted in one way.** -/
theorem sortSensors_unique {s : X10State} (h : TablesValid s) {rows : List X10Secsensor}
    (hperm : rows.Perm s.x10sensors) (hsorted : rows.Pairwise fun a b => cmpX10sensor a b ≤ 0) :
    rows = (sortSensors s).x10sensors := by
  have hle : ∀ {a b : X10Secsensor}, a ∈ s.x10sensors → b ∈ s.x10sensors →
      (cmpX10sensor a b ≤ 0 ↔ a.secaddr ≤ b.secaddr) := by
    intro a b ha hb
    rw [cmpX10sensor_eq (h.below a ha) (h.below b hb)]
    omega
  have hkeys : (sortSensors s).x10sensors.map (·.secaddr) =
      (s.x10sensors.map (·.secaddr)).insertionSort (· ≤ ·) :=
    List.map_insertionSort _ _ _ _ fun a ha b hb => hle ha hb
  have hperm' : (sortSensors s).x10sensors.Perm s.x10sensors := List.perm_insertionSort _ _
  have hsorted' : (sortSensors s).x10sensors.Pairwise fun a b => a.secaddr ≤ b.secaddr := by
    rw [← List.pairwise_map, hkeys]
    exact List.pairwise_insertionSort _ _
  refine List.Perm.eq_of_pairwise (fun a b ha hb hab hba => ?_)
    (hsorted.imp_of_mem fun ha hb hab => (hle (hperm.mem_iff.mp ha) (hperm.mem_iff.mp hb)).mp hab)
    hsorted' (hperm.trans hperm'.symm)
  exact List.inj_on_of_nodup_map h.distinct (hperm.mem_iff.mp ha) (hperm'.mem_iff.mp hb)
    (le_antisymm hab hba)

/-! ### Events afterwards -/

/-- A security event. -/
structure SecEvent where
  env : Env
  address : UInt8 × UInt8 × UInt8
  function : UInt8
  short : Bool

/-- It is recorded. -/
def SecEvent.record (s : X10State) (e : SecEvent) : X10State :=
  (huaSecEvent e.env e.address e.function e.short s).state

/-- **Tables that keep the same history** keep the same one after more events. -/
theorem tableKeepsWithin_events {s t : X10State} {seen : List Sighting}
    (hs : TableKeepsWithin s.x10sensors seen) (ht : TableKeepsWithin t.x10sensors seen)
    (events : List SecEvent) :
    ∃ seen, TableKeepsWithin (events.foldl SecEvent.record s).x10sensors seen ∧
      TableKeepsWithin (events.foldl SecEvent.record t).x10sensors seen := by
  induction events generalizing s t seen with
  | nil => exact ⟨seen, hs, ht⟩
  | cons e events ih =>
    exact ih (hs.event e.env e.address e.function e.short rfl)
      (ht.event e.env e.address e.function e.short rfl)

/-- **Tables that keep the same history give the same answers.** -/
theorem huaGetstatusSec_congr {s t : X10State} {seen : List Sighting}
    (hs : TableKeepsWithin s.x10sensors seen) (ht : TableKeepsWithin t.x10sensors seen)
    (short : Bool) (addr : ℕ) : huaGetstatusSec s short addr = huaGetstatusSec t short addr := by
  rw [huaGetstatusSec_within hs, huaGetstatusSec_within ht]

/-- **Showing the state is an observation**: whatever lines and packets came in, the table keeps its
rows, every answer is what it was, and so are the answers after any more events. What is left is the
one way to sort the table, by a comparator that is consistent. -/
theorem show_observes (s : X10State) (inputs : List X10Input) (env : Env) (fd : ℤ) :
    let before := (Watched.run ⟨huaSecInit s, []⟩ inputs).x10
    let after := (huaShow env fd before).state
    Consistent (·.secaddr) cmpX10sensor {sen | sen.secaddr < 2 ^ 24} ∧
      (∀ sen ∈ before.x10sensors, sen.secaddr < 2 ^ 24) ∧
      after.x10sensors.Perm before.x10sensors ∧
      (∀ rows, rows.Perm before.x10sensors → rows.Pairwise (fun a b => cmpX10sensor a b ≤ 0) →
        after.x10sensors = rows) ∧
      ∀ (events : List SecEvent) (short : Bool) (addr : ℕ),
        huaGetstatusSec (events.foldl SecEvent.record after) short addr =
          huaGetstatusSec (events.foldl SecEvent.record before) short addr := by
  intro before after
  have hvalid : TablesValid before := tablesValid_run s inputs
  obtain ⟨seen, hkept, -⟩ : SensorsSeen before := sensorsSeen_run s inputs
  have hsorted : after.x10sensors = (sortSensors before).x10sensors :=
    congrArg (fun t => t.2.1) (huaShow_spec env fd before).2
  have hperm : after.x10sensors.Perm before.x10sensors := by
    rw [hsorted]
    exact List.perm_insertionSort _ _
  refine ⟨consistent_cmpX10sensor, hvalid.below, hperm, fun rows hrows hrow => ?_,
    fun events short addr => ?_⟩
  · rw [hsorted]
    exact (sortSensors_unique hvalid hrows hrow).symm
  · obtain ⟨seen', hafter', hbefore'⟩ := tableKeepsWithin_events (hkept.perm hperm.symm) hkept events
    exact huaGetstatusSec_congr hafter' hbefore' short addr

end Mochad
