import Mochad.Env
import Mochad.Library.Ring

/-!
# The output queue of a client

What the daemon has to say to a client waits in a ring of 16 KiB, which the main loop
empties as far as the socket takes it. `ClientOutput.contents` is what waits, and
`contents_enqueue` says that an accepted text is appended to it as a whole.

Replies that bypass the ring are sent by `send_all`, which stops at the first error.
-/

namespace Mochad

/-- `CLIENT_OUTPUT_QUEUE_SIZE`. -/
def clientOutputQueueSize : ℕ := 16 * 1024

/-- `CLIENT_WRITE_BUDGET_PER_LOOP`. -/
def clientWriteBudgetPerLoop : ℕ := 64 * 1024

/-- `CLIENT_STALLED_TIMEOUT_SECONDS`. -/
def clientStalledTimeoutSeconds : ℕ := 30

/-- **`struct client_output_queue`.** -/
structure ClientOutput where
  data : Memory
  head : ℕ
  len : ℕ
  /-- The time since which the socket has taken nothing, or 0. -/
  stalledSince : ℕ

/-- The two `memcpy` of `client_output_enqueue`: what does not fit before the end of the
array goes to its front. -/
def Memory.copyWrapped (m : Memory) (cap tail : ℕ) (buffer : Bytes) : Memory :=
  let first := min (cap - tail) buffer.length
  (m.copy tail (buffer.take first)).copy 0 (buffer.drop first)

/-- Each byte goes to its cell, counted modulo the size of the array. -/
theorem copyWrapped_apply {m : Memory} {cap tail : ℕ} {buffer : Bytes} (htail : tail < cap)
    (hlen : buffer.length ≤ cap) {k : ℕ} (hk : k < buffer.length) :
    m.copyWrapped cap tail buffer ((tail + k) % cap) = buffer.get ⟨k, hk⟩ := by
  rw [Memory.copyWrapped]
  by_cases hwrap : tail + k < cap
  · rw [Nat.mod_eq_of_lt hwrap, Memory.copy, dif_neg, Memory.copy, dif_pos]
    · simp
    · rw [List.length_take]
      omega
    · rw [List.length_drop]
      omega
  · have hmod : (tail + k) % cap = tail + k - cap := by
      rw [Nat.mod_eq_sub_mod (by omega), Nat.mod_eq_of_lt (by omega)]
    rw [hmod, Memory.copy, dif_pos]
    · simp only [Nat.sub_zero, List.get_eq_getElem, List.getElem_drop]
      congr 1
      omega
    · rw [List.length_drop]
      omega

/-- The cells in front of the tail stay, as far as the text leaves room. -/
theorem copyWrapped_of_waiting {m : Memory} {cap head len : ℕ} {buffer : Bytes}
    (hroom : len + buffer.length ≤ cap) {k : ℕ} (hk : k < len) :
    m.copyWrapped cap ((head + len) % cap) buffer ((head + k) % cap) = m ((head + k) % cap) := by
  have hcap : 0 < cap := by omega
  have htail : (head + len) % cap < cap := Nat.mod_lt _ hcap
  -- the cell is as far before the tail as the byte is from the end of what waits
  have hcell : (head + k) % cap = ((head + len) % cap + (cap - (len - k))) % cap := by
    rw [Nat.mod_add_mod, show head + len + (cap - (len - k)) = head + k + cap by omega,
      Nat.add_mod_right]
  rw [hcell]
  generalize (head + len) % cap = tail at htail
  rw [Memory.copyWrapped]
  by_cases hwrap : tail + (cap - (len - k)) < cap
  · rw [Nat.mod_eq_of_lt hwrap, Memory.copy, dif_neg, Memory.copy, dif_neg]
    · rw [List.length_take]
      omega
    · rw [List.length_drop]
      omega
  · rw [Nat.mod_eq_sub_mod (by omega), Nat.mod_eq_of_lt (by omega), Memory.copy, dif_neg,
      Memory.copy, dif_neg]
    · rw [List.length_take]
      omega
    · rw [List.length_drop]
      omega

namespace ClientOutput

/-- The queue of a table that was never written. -/
def zero : ClientOutput := ⟨fun _ => 0, 0, 0, 0⟩

/-- `client_output_init`. -/
def init (q : ClientOutput) : ClientOutput := { q with head := 0, len := 0, stalledSince := 0 }

/-- `client_output_space`. -/
def space (q : ClientOutput) : ℕ := clientOutputQueueSize - q.len

/-- `client_output_enqueue`: nothing if the text does not fit. -/
def enqueue (q : ClientOutput) (buffer : Bytes) : Option ClientOutput :=
  if q.space < buffer.length then none
  else
    let tail := (q.head + q.len) % clientOutputQueueSize
    some { q with
      data := q.data.copyWrapped clientOutputQueueSize tail buffer
      len := q.len + buffer.length }

/-- `client_output_peek`: the bytes up to the end of the array. -/
def peek (q : ClientOutput) : Bytes :=
  (List.range (min (clientOutputQueueSize - q.head) q.len)).map fun k => q.data (q.head + k)

/-- `client_output_consume`. -/
def consume (q : ClientOutput) (length : ℕ) : ClientOutput :=
  if q.len ≤ length then q.init
  else { q with head := (q.head + length) % clientOutputQueueSize, len := q.len - length }

/-- **What waits.** -/
def contents (q : ClientOutput) : Bytes := Ring.window q.data q.head clientOutputQueueSize q.len

@[simp] theorem contents_init (q : ClientOutput) : q.init.contents = [] := rfl

@[simp] theorem init_len (q : ClientOutput) : q.init.len = 0 := rfl

theorem contents_eq_nil_iff (q : ClientOutput) : q.contents = [] ↔ q.len = 0 := by
  rw [contents, ← List.length_eq_zero_iff, Ring.length_window]

/-- A text that does not fit is refused; and only such a text is. -/
theorem enqueue_eq_none_iff {q : ClientOutput} {buffer : Bytes} :
    q.enqueue buffer = none ↔ q.space < buffer.length := by
  simp [enqueue]

/-- **An accepted text is appended** to what waits. -/
theorem contents_enqueue {q q' : ClientOutput} {buffer : Bytes}
    (hlen : q.len ≤ clientOutputQueueSize) (h : q.enqueue buffer = some q') :
    q'.contents = q.contents ++ buffer := by
  simp only [enqueue] at h
  split at h
  · cases h
  next hfits =>
    obtain rfl := Option.some.inj h
    have hroom : q.len + buffer.length ≤ clientOutputQueueSize := by
      rw [space] at hfits
      omega
    have htail : (q.head + q.len) % clientOutputQueueSize < clientOutputQueueSize :=
      Nat.mod_lt _ (by decide)
    refine List.ext_getElem (by simp [contents]) fun k hk _ => ?_
    simp only [contents, Ring.length_window] at hk
    simp only [contents, Ring.window, List.getElem_map, List.getElem_range]
    by_cases hold : k < q.len
    · rw [List.getElem_append_left (by simpa using hold), copyWrapped_of_waiting hroom hold]
      simp
    · rw [List.getElem_append_right (by simpa using hold)]
      have hcell : (q.head + k) % clientOutputQueueSize =
          ((q.head + q.len) % clientOutputQueueSize + (k - q.len)) % clientOutputQueueSize := by
        rw [Nat.mod_add_mod, show q.head + q.len + (k - q.len) = q.head + k by omega]
      have hk' : k - q.len < buffer.length := by omega
      rw [hcell, copyWrapped_apply htail (by omega) hk']
      simp

/-- The ring is not overfilled. -/
theorem len_enqueue {q q' : ClientOutput} {buffer : Bytes} (h : q.enqueue buffer = some q') :
    q'.len = q.len + buffer.length ∧ (q.len ≤ clientOutputQueueSize →
      q'.len ≤ clientOutputQueueSize) := by
  simp only [enqueue] at h
  split at h
  · cases h
  next hfits =>
    obtain rfl := Option.some.inj h
    refine ⟨rfl, fun hlen => ?_⟩
    simp only [space] at hfits
    show q.len + buffer.length ≤ clientOutputQueueSize
    omega

theorem len_consume (q : ClientOutput) (n : ℕ) : (q.consume n).len ≤ q.len := by
  rw [consume]
  split
  · exact Nat.zero_le _
  · exact Nat.sub_le _ _

/-- What is looked at is the beginning of what waits. -/
theorem peek_eq (q : ClientOutput) :
    q.peek = q.contents.take (min (clientOutputQueueSize - q.head) q.len) := by
  refine List.ext_getElem (by simp [peek, contents]) fun k hk _ => ?_
  have hcell : q.head + k < clientOutputQueueSize := by
    simp only [peek, List.length_map, List.length_range] at hk
    omega
  simp [peek, contents, Ring.window, Nat.mod_eq_of_lt hcell]

/-- **What is consumed is dropped.** -/
theorem contents_consume (q : ClientOutput) (n : ℕ) :
    (q.consume n).contents = q.contents.drop n := by
  rw [consume]
  split
  next hall =>
    rw [contents_init, eq_comm, List.drop_eq_nil_iff, contents, Ring.length_window]
    exact hall
  · rw [contents, contents, Ring.window_drop]
    exact Ring.window_mod

/-- How `flush_client_output` ends. -/
inductive FlushEnd
  /-- The client stays. -/
  | kept
  /-- A write failed, so that the client goes. -/
  | failed
  deriving DecidableEq

/-- **The loop of `flush_client_output`**, over the answers of `send()` and the time at
which it says that it would block: the queue, the bytes that the socket took, and how
it ends. A socket that has given all its answers would block. -/
def flush (now : ℕ) : List SendResult → ℕ → ClientOutput → ClientOutput × Bytes × FlushEnd
  | results, budget, q =>
      if q.len = 0 ∨ budget = 0 then (q, [], .kept)
      else
        let stalled := if q.stalledSince = 0 then { q with stalledSince := now } else q
        match results with
        | [] => (stalled, [], .kept)
        | .eintr :: results => flush now results budget q
        | .eagain :: _ => (stalled, [], .kept)
        | .failed :: _ => (q, [], .failed)
        | .taken n :: results =>
            let written := min n (min q.peek.length budget)
            if written = 0 then (stalled, [], .kept)
            else
              let r := flush now results (budget - written)
                (consume { q with stalledSince := 0 } written)
              (r.1, q.peek.take written ++ r.2.1, r.2.2)

/-- Nothing joins the queue while it is flushed. -/
theorem len_flush (now : ℕ) (results : List SendResult) (budget : ℕ) (q : ClientOutput) :
    (q.flush now results budget).1.len ≤ q.len := by
  have hstalled : ∀ q : ClientOutput,
      (if q.stalledSince = 0 then { q with stalledSince := now } else q).len ≤ q.len := by
    intro q
    split
    · exact Nat.le_refl _
    · exact Nat.le_refl _
  fun_induction flush now results budget q with
  | case1 => exact Nat.le_refl _
  | case2 budget q => exact hstalled q
  | case3 budget q _ results ih => exact ih
  | case4 budget q => exact hstalled q
  | case5 => exact Nat.le_refl _
  | case6 budget q => exact hstalled q
  | case7 budget q _ n results written _ r ih => exact ih.trans (len_consume _ _)

/-- **What the socket took, and what still waits**, is what waited before. -/
theorem contents_flush (now : ℕ) (results : List SendResult) (budget : ℕ) (q : ClientOutput) :
    (q.flush now results budget).2.1 ++ (q.flush now results budget).1.contents = q.contents := by
  have hstalled : ∀ q : ClientOutput,
      (if q.stalledSince = 0 then { q with stalledSince := now } else q).contents = q.contents := by
    intro q
    split
    · rfl
    · rfl
  fun_induction flush now results budget q with
  | case1 => rfl
  | case2 budget q => exact hstalled q
  | case3 budget q _ results ih => exact ih
  | case4 budget q => exact hstalled q
  | case5 => rfl
  | case6 budget q => exact hstalled q
  | case7 budget q _ n results written _ r ih =>
    -- the bytes that were taken are the first ones that waited
    have htaken : q.peek.take written = q.contents.take written := by
      have hle : written ≤ q.peek.length := (Nat.min_le_right ..).trans (Nat.min_le_left ..)
      rw [peek_eq, List.length_take] at hle
      rw [peek_eq, List.take_take, Nat.min_eq_left (hle.trans (Nat.min_le_left ..))]
    have hrest : (consume { q with stalledSince := 0 } written).contents =
        q.contents.drop written := contents_consume _ _
    rw [List.append_assoc, ih, hrest, htaken, List.take_append_drop]

end ClientOutput

/-- `send_all_impl`: the bytes that the socket took, and whether it took them all. -/
def sendAllImpl : List SendResult → Bytes → Bytes × Bool
  | _, [] => ([], true)
  | [], _ :: _ => ([], false)
  | .eintr :: results, buffer => sendAllImpl results buffer
  | .eagain :: _, _ => ([], false)
  | .failed :: _, _ => ([], false)
  | .taken n :: results, buffer =>
      let written := min n buffer.length
      if written = 0 then ([], false)
      else
        let r := sendAllImpl results (buffer.drop written)
        (buffer.take written ++ r.1, r.2)

/-- **`send_all` hands over the whole text unless the socket reports an error.** -/
theorem sendAllImpl_ok {results : List SendResult} {buffer : Bytes}
    (h : (sendAllImpl results buffer).2 = true) : (sendAllImpl results buffer).1 = buffer := by
  induction results generalizing buffer with
  | nil =>
    cases buffer with
    | nil => simp [sendAllImpl]
    | cons b bs => simp [sendAllImpl] at h
  | cons r results ih =>
    cases buffer with
    | nil => simp [sendAllImpl]
    | cons b bs =>
      cases r with
      | eintr =>
        simp only [sendAllImpl] at h ⊢
        exact ih h
      | eagain => simp [sendAllImpl] at h
      | failed => simp [sendAllImpl] at h
      | taken n =>
        simp only [sendAllImpl] at h ⊢
        split at h
        · cases h
        next hpos =>
          rw [if_neg hpos]
          simp only at h ⊢
          rw [ih h, List.take_append_drop]

/-- How many of so many bytes a socket takes before it reports an error. -/
def SendResult.total : List SendResult → ℕ → ℕ
  | [], _ => 0
  | .eintr :: results, n => total results n
  | .eagain :: _, _ => 0
  | .failed :: _, _ => 0
  | .taken k :: results, n =>
      if min k n = 0 then 0 else min k n + total results (n - min k n)

/-- **`send_all` hands over the beginning of the text**, as far as the socket takes it. -/
theorem sendAllImpl_eq (results : List SendResult) (buffer : Bytes) :
    (sendAllImpl results buffer).1 = buffer.take (SendResult.total results buffer.length) := by
  induction results generalizing buffer with
  | nil =>
    cases buffer with
    | nil => rfl
    | cons b bs => rfl
  | cons r results ih =>
    cases buffer with
    | nil => simp [sendAllImpl]
    | cons b bs =>
      cases r with
      | eintr => exact ih (b :: bs)
      | eagain => rfl
      | failed => rfl
      | taken k =>
        simp only [sendAllImpl, SendResult.total]
        split
        · rfl
        · rw [ih, List.length_drop, ← List.take_add]

end Mochad
