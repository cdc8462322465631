import Mochad.X10.Duplicates

/-!
# The clock of the duplicate filter

`get_timems` makes milliseconds of a reading of the monotonic clock. The seconds are multiplied in
`time_t`, so the result is right as long as the product fits there (`Timespec.Fits`): with a `time_t`
of 32 bits for 24 days after the start of the system. Up to then the clock of the duplicate filter is
steady, and no frame is held back longer than 650 ms (`Timespec.Fits` for every reading).
-/

namespace Mochad

open Expiry (lastAccepted)

namespace Timespec

/-- The milliseconds of a reading. -/
def ms (ts : Timespec) : ℤ := 1000 * ts.tvSec + ts.tvNsec / 1000000

/-- A reading that `time_t` holds. -/
structure Proper (w : ℕ) (ts : Timespec) : Prop where
  sec : 0 ≤ ts.tvSec ∧ ts.tvSec < 2 ^ (w - 1)
  nsec : 0 ≤ ts.tvNsec ∧ ts.tvNsec < 1000000000

instance (w : ℕ) (ts : Timespec) : Decidable (ts.Proper w) :=
  decidable_of_iff ((0 ≤ ts.tvSec ∧ ts.tvSec < 2 ^ (w - 1)) ∧ 0 ≤ ts.tvNsec ∧ ts.tvNsec < 1000000000)
    ⟨fun h => ⟨h.1, h.2⟩, fun h => ⟨h.sec, h.nsec⟩⟩

/-- **The product fits** into `time_t`. -/
def Fits (w : ℕ) (ts : Timespec) : Prop := 1000 * ts.tvSec < 2 ^ (w - 1)

instance (w : ℕ) (ts : Timespec) : Decidable (ts.Fits w) :=
  inferInstanceAs (Decidable (1000 * ts.tvSec < 2 ^ (w - 1)))

/-- A reading is not after another one. -/
def Le (a b : Timespec) : Prop := a.tvSec < b.tvSec ∨ a.tvSec = b.tvSec ∧ a.tvNsec ≤ b.tvNsec

variable {w : ℕ} {a b ts : Timespec}

theorem Proper.ms_le (ha : a.Proper w) (hb : b.Proper w) (h : a.Le b) : a.ms ≤ b.ms := by
  obtain ⟨hnsec, hnsec'⟩ := ha.nsec
  obtain ⟨hnsecb, -⟩ := hb.nsec
  rw [ms, ms]
  obtain hsec | ⟨hsec, hle⟩ := h
  · omega
  · omega

/-- **The product is right where it fits**, and only there. -/
theorem Proper.bmod_eq_iff (h : ts.Proper w) (hw : w = 32 ∨ w = 64) :
    Int.bmod (ts.tvSec * 1000) (2 ^ w) = ts.tvSec * 1000 ↔ ts.Fits w := by
  obtain ⟨hsec, hmax⟩ := h.sec
  rw [Fits]
  rw [Int.bmod_def]
  obtain rfl | rfl := hw
  · omega
  · omega

end Timespec

variable {env : Env}

/-- Where the product fits, `get_timems` reads milliseconds. -/
theorem timemsAt_eq {n : ℕ} (hw : env.timeWidth = 32 ∨ env.timeWidth = 64)
    (hproper : (env.clockMonotonic n).Proper env.timeWidth)
    (hfits : (env.clockMonotonic n).Fits env.timeWidth) :
    (timemsAt env n : ℤ) = (env.clockMonotonic n).ms ∧ timemsAt env n + dupTime < 2 ^ 64 := by
  obtain ⟨hsec, hmax⟩ := hproper.sec
  obtain ⟨hnsec, hnsec'⟩ := hproper.nsec
  have hproduct := (hproper.bmod_eq_iff hw).mpr hfits
  have hdiv : (env.clockMonotonic n).tvNsec.tdiv 1000000 = (env.clockMonotonic n).tvNsec / 1000000 :=
    Int.tdiv_eq_ediv_of_nonneg hnsec
  have hless : 1000 * (env.clockMonotonic n).tvSec < 2 ^ 63 := by
    rw [Timespec.Fits] at hfits
    obtain hw | hw := hw
    · rw [hw] at hfits
      omega
    · rw [hw] at hfits
      exact hfits
  have hsmall : (env.clockMonotonic n).tvSec * 1000 + (env.clockMonotonic n).tvNsec / 1000000 <
      2 ^ 63 + 1000 := by omega
  have hmod : ((env.clockMonotonic n).tvSec * 1000 + (env.clockMonotonic n).tvNsec / 1000000) % 2 ^ 64 =
      (env.clockMonotonic n).tvSec * 1000 + (env.clockMonotonic n).tvNsec / 1000000 :=
    Int.emod_eq_of_lt (by omega) (by omega)
  simp only [timemsAt, hproduct, hdiv, hmod, Timespec.ms, dupTime]
  omega

/-- The frames were accepted at readings of the past. -/
theorem dupCalls_reads (env : Env) (cmds : List Bytes) (s : X10State) :
    ∀ r ∈ (dupCalls env cmds s).2, r.2 < (dupCalls env cmds s).1.timemsReads := by
  induction cmds using List.reverseRecOn with
  | nil => exact fun r hr => absurd hr List.not_mem_nil
  | append_singleton cmds cmd ih =>
    have hstep : dupCalls env (cmds ++ [cmd]) s = dupCall env (dupCalls env cmds s) cmd :=
      List.foldl_append
    rw [hstep]
    generalize dupCalls env cmds s = before at ih ⊢
    obtain ⟨s, history⟩ := before
    intro r hr
    show r.2 < (dupFilter env cmd s).state.timemsReads
    have hreads : (dupFilter env cmd s).state.timemsReads =
        s.timemsReads + if (dupFilter env cmd s).value then 1 else 2 := timemsReads_dupFilter cmd s
    rw [dupCall] at hr
    cases hvalue : (dupFilter env cmd s).value with
    | true =>
      rw [hvalue] at hr
      exact (ih r hr).trans (lt_timemsReads_dupFilter cmd s)
    | false =>
      rw [hvalue] at hr hreads
      rw [hreads]
      obtain rfl | hr := List.mem_cons.mp hr
      · exact Nat.lt_succ_self _
      · exact (ih r hr).trans (Nat.lt_add_of_pos_right (by decide))

/-- **Where every product fits** the clock is steady. -/
theorem steady_of_fits {n : ℕ} (hw : env.timeWidth = 32 ∨ env.timeWidth = 64)
    (hproper : ∀ i < n, (env.clockMonotonic i).Proper env.timeWidth)
    (hfits : ∀ i < n, (env.clockMonotonic i).Fits env.timeWidth)
    (hmono : ∀ i j, i ≤ j → j < n → (env.clockMonotonic i).Le (env.clockMonotonic j)) :
    Steady env n where
  mono i j hij hj := by
    have hi : i < n := hij.trans_lt hj
    have hle := (hproper i hi).ms_le (hproper j hj) (hmono i j hij hj)
    rw [← (timemsAt_eq hw (hproper i hi) (hfits i hi)).1,
      ← (timemsAt_eq hw (hproper j hj) (hfits j hj)).1] at hle
    exact Int.ofNat_le.mp hle
  fits i hi := (timemsAt_eq hw (hproper i hi) (hfits i hi)).2

/-- **`get_timems` reads milliseconds exactly where the product fits**; and while every product
fits, the clock is steady and no frame is held back that was last accepted more than 650 ms ago. -/
theorem get_timems_exact (env : Env) (hw : env.timeWidth = 32 ∨ env.timeWidth = 64) :
    (∀ s : X10State, (env.clockMonotonic s.timemsReads).Proper env.timeWidth →
      (Int.bmod ((env.clockMonotonic s.timemsReads).tvSec * 1000) (2 ^ env.timeWidth) =
          (env.clockMonotonic s.timemsReads).tvSec * 1000 ∧
        ((getTimems env s).value : ℤ) = (env.clockMonotonic s.timemsReads).ms ↔
          (env.clockMonotonic s.timemsReads).Fits env.timeWidth)) ∧
      ∀ (s₀ s : X10State) (history : List (Bytes × ℕ)) (cmds : List Bytes) (cmd : Bytes),
        s₀.dups = dupsInit → (∀ c ∈ cmd :: cmds, c ≠ [] ∧ c.length ≤ 16) →
        dupCalls env cmds s₀ = (s, history) →
        (∀ i < (dupFilter env cmd s).state.timemsReads,
          (env.clockMonotonic i).Proper env.timeWidth ∧ (env.clockMonotonic i).Fits env.timeWidth) →
        (∀ i j, i ≤ j → j < (dupFilter env cmd s).state.timemsReads →
          (env.clockMonotonic i).Le (env.clockMonotonic j)) →
        (∀ i j, i ≤ j → j < (dupFilter env cmd s).state.timemsReads →
          timemsAt env i ≤ timemsAt env j) ∧
        ((dupFilter env cmd s).value = true → ∃ n, lastAccepted history cmd = some n ∧
          (env.clockMonotonic s.timemsReads).ms ≤ (env.clockMonotonic n).ms + 650) := by
  refine ⟨fun s hproper => ⟨fun h => (hproper.bmod_eq_iff hw).mp h.1, fun h =>
    ⟨(hproper.bmod_eq_iff hw).mpr h, (timemsAt_eq hw hproper h).1⟩⟩, ?_⟩
  intro s₀ s history cmds cmd hinit hframes hcalls hreadings hmono
  have hsteady := steady_of_fits hw (fun i hi => (hreadings i hi).1) (fun i hi => (hreadings i hi).2)
    hmono
  refine ⟨hsteady.mono, fun hvalue => ?_⟩
  obtain ⟨hne, hcmd⟩ := hframes cmd List.mem_cons_self
  obtain ⟨clock, hholds, hnow⟩ := dupCalls_call hinit cmds cmd hframes hcalls hsteady
  obtain ⟨-, -, ⟨e, hrow, hle⟩, -⟩ | ⟨hvalue', -⟩ := dupFilter_call hholds hnow hne hcmd hsteady
  · obtain ⟨n, hn, rfl⟩ := hholds.holds.dated cmd e hrow
    have hnow' : s.timemsReads < (dupFilter env cmd s).state.timemsReads :=
      lt_timemsReads_dupFilter cmd s
    have hpast : n < (dupFilter env cmd s).state.timemsReads := by
      have hread := dupCalls_reads env cmds s₀ (cmd, n)
      rw [hcalls] at hread
      exact (hread (Expiry.mem_of_lastAccepted hn)).trans hnow'
    refine ⟨n, hn, ?_⟩
    rw [← (timemsAt_eq hw (hreadings _ hnow').1 (hreadings _ hnow').2).1,
      ← (timemsAt_eq hw (hreadings n hpast).1 (hreadings n hpast).2).1]
    have hle' : timemsAt env s.timemsReads ≤ timemsAt env n + 650 := hle
    omega
  · rw [hvalue'] at hvalue
    cases hvalue

/-- A system that has been up for an hour. -/
def Env.hour : Env :=
  { Env.plain mochadConfigDefaults false with
    timeWidth := 32
    clockMonotonic := fun _ => ⟨3600, 500000000⟩ }

/-- After an hour the milliseconds are right, and a frame that comes again was accepted just now. -/
theorem get_timems_exact_hour :
    ((getTimems Env.hour .idle).value : ℤ) = Timespec.ms ⟨3600, 500000000⟩ ∧
      ∃ n, lastAccepted (dupCalls Env.hour [[0x5d, 0x20, 0x60, 0x9f, 0x00, 0xff]] .idle).2
          [0x5d, 0x20, 0x60, 0x9f, 0x00, 0xff] = some n ∧
        (Env.hour.clockMonotonic 2).ms ≤ (Env.hour.clockMonotonic n).ms + 650 := by
  have hreading : Timespec.Proper 32 ⟨3600, 500000000⟩ ∧ Timespec.Fits 32 ⟨3600, 500000000⟩ := by
    decide
  obtain ⟨hexact, hruns⟩ := get_timems_exact Env.hour (Or.inl rfl)
  exact ⟨((hexact .idle hreading.1).mpr hreading.2).2,
    (hruns .idle _ _ [[0x5d, 0x20, 0x60, 0x9f, 0x00, 0xff]] [0x5d, 0x20, 0x60, 0x9f, 0x00, 0xff] rfl
      (by decide) rfl (fun _ _ => hreading) fun _ _ _ _ => Or.inr ⟨rfl, le_rfl⟩).2
      (by decide +kernel)⟩

/-- A system whose `time_t` has 32 bits, 49 days after its start: two seconds pass between the
second reading and the third one. -/
def Env.wrapping : Env :=
  { Env.plain mochadConfigDefaults false with
    timeWidth := 32
    clockMonotonic := fun n => if n < 2 then ⟨4294966, 0⟩ else ⟨4294968, 0⟩ }

/-- **The product wraps around**: the milliseconds are wrong, and a frame is held back two seconds
after it was accepted. -/
theorem get_timems_wraps :
    (∀ n, (Env.wrapping.clockMonotonic n).Proper Env.wrapping.timeWidth) ∧
      (∀ i j, i ≤ j → (Env.wrapping.clockMonotonic i).Le (Env.wrapping.clockMonotonic j)) ∧
      ((getTimems Env.wrapping .idle).value : ℤ) ≠ (Env.wrapping.clockMonotonic 0).ms ∧
      (dupCalls Env.wrapping [[0x5d, 0x20, 0x60, 0x9f, 0x00, 0xff]] .idle).2 =
        [([0x5d, 0x20, 0x60, 0x9f, 0x00, 0xff], 1)] ∧
      (dupFilter Env.wrapping [0x5d, 0x20, 0x60, 0x9f, 0x00, 0xff]
        (dupCalls Env.wrapping [[0x5d, 0x20, 0x60, 0x9f, 0x00, 0xff]] .idle).1).value = true ∧
      (Env.wrapping.clockMonotonic 1).ms + 650 < (Env.wrapping.clockMonotonic 2).ms := by
  refine ⟨fun n => ?_, fun i j hij => ?_, by decide, by decide +kernel, by decide +kernel, by decide⟩
  · simp only [Env.wrapping]
    split
    · decide
    · decide
  · simp only [Env.wrapping, Timespec.Le]
    split
    · split
      · simp
      · simp
    · rw [if_neg (by omega)]
      simp

end Mochad
