import Mochad.Core.Output
import Mochad.Library.Transition

/-!
# The output queue as a FIFO

A client's output queue is used through four functions: texts are put in, the front is looked at
and taken away, and the loop that sends notes since when it is stalled. Whatever is done in whatever
order, the ring behaves as a plain list of bytes of bounded length (`fifo`): texts are appended as a
whole or refused, and bytes leave from the front (`ClientOutput.queue_refines_fifo`).

The loop of `flush_client_output` does nothing else (`ClientOutput.flush_run`). What it sends is
what the answers of `send()` take of the content, within a budget (`ClientOutput.flush_sends`), and
it asks the socket no more often than there are bytes, but for the calls that are interrupted
(`ClientOutput.flush_append`).
-/

namespace Mochad

/-- What is done to an output queue. -/
inductive QueueOp
  | enqueue (buffer : Bytes)
  | peek
  | consume (length : ℕ)
  /-- The loop that sends sets `stalled_since`. -/
  | mark (since : ℕ)

/-- **The FIFO**: what is done to a list of bytes of bounded length. -/
def fifo (content : Bytes) : QueueOp → Bytes
  | .enqueue buffer =>
      if content.length + buffer.length ≤ clientOutputQueueSize then content ++ buffer else content
  | .peek => content
  | .consume length => content.drop length
  | .mark _ => content

/-- **What is sent of a content**, within a budget, and whether the client is kept: as long as there
are bytes and a budget, a front of the content is offered, and the socket takes of it what it
answers; the client is dropped at an error, and kept where the socket takes nothing or would
block. -/
inductive Sends : Bytes → ℕ → List SendResult → Bytes → ClientOutput.FlushEnd → Prop
  | done {content : Bytes} {budget : ℕ} {results : List SendResult}
      (h : content = [] ∨ budget = 0) : Sends content budget results [] .kept
  | blocked {content : Bytes} {budget : ℕ} {results : List SendResult}
      (h : ¬(content = [] ∨ budget = 0))
      (hblocked : ∀ r ∈ results.head?, r = .eagain ∨ r = .taken 0) :
      Sends content budget results [] .kept
  | interrupted {content sent : Bytes} {budget : ℕ} {results : List SendResult}
      {fin : ClientOutput.FlushEnd} (h : ¬(content = [] ∨ budget = 0))
      (hrest : Sends content budget results sent fin) :
      Sends content budget (.eintr :: results) sent fin
  | failed {content : Bytes} {budget : ℕ} {results : List SendResult}
      (h : ¬(content = [] ∨ budget = 0)) : Sends content budget (.failed :: results) [] .failed
  | taken {content offered sent : Bytes} {budget n : ℕ} {results : List SendResult}
      {fin : ClientOutput.FlushEnd} (hfront : offered <+: content) (hne : offered ≠ [])
      (hbudget : offered.length ≤ budget) (hn : n ≠ 0)
      (hrest : Sends (content.drop (min n offered.length)) (budget - min n offered.length) results
        sent fin) :
      Sends content budget (.taken n :: results) (offered.take n ++ sent) fin

/-- The budget is kept. -/
theorem Sends.length_le {content sent : Bytes} {budget : ℕ} {results : List SendResult}
    {fin : ClientOutput.FlushEnd} (h : Sends content budget results sent fin) :
    sent.length ≤ budget := by
  induction h with
  | done | blocked | failed => exact Nat.zero_le _
  | interrupted _ _ ih => exact ih
  | taken hfront hne hbudget hn hrest ih =>
    rw [List.length_append, List.length_take]
    omega

namespace ClientOutput

/-- What is done to the ring. A text that is refused leaves it as it is. -/
def apply (q : ClientOutput) : QueueOp → ClientOutput
  | .enqueue buffer => (q.enqueue buffer).getD q
  | .peek => q
  | .consume length => q.consume length
  | .mark since => { q with stalledSince := since }

/-- At most what was looked at is taken away, and only a queue that is not empty is stalled. -/
def Offered (q : ClientOutput) : QueueOp → Prop
  | .consume length => length ≤ q.peek.length
  | .mark _ => 0 < q.len
  | _ => True

/-- One use of the ring. -/
def step (q : ClientOutput) (op : QueueOp) : Option ClientOutput := some (q.apply op)

/-- **The invariant of the ring.** -/
structure Sane (q : ClientOutput) : Prop where
  head : q.head < clientOutputQueueSize
  len : q.len ≤ clientOutputQueueSize
  idle : q.len = 0 → q.stalledSince = 0

variable {q q' : ClientOutput}

theorem length_contents (q : ClientOutput) : q.contents.length = q.len := Ring.length_window

theorem sane_init (q : ClientOutput) : q.init.Sane :=
  ⟨show 0 < clientOutputQueueSize by decide, Nat.zero_le _, fun _ => rfl⟩

theorem Sane.consume (h : q.Sane) (length : ℕ) : (q.consume length).Sane := by
  rw [ClientOutput.consume]
  split
  · exact sane_init q
  next hmore =>
    have hlen := h.len
    refine ⟨Nat.mod_lt _ (by decide), ?_, fun hzero => ?_⟩
    · show q.len - length ≤ _
      omega
    · have hzero' : q.len - length = 0 := hzero
      omega

theorem Sane.apply (h : q.Sane) {op : QueueOp} (hop : q.Offered op) : (q.apply op).Sane := by
  cases op with
  | enqueue buffer =>
    show ((q.enqueue buffer).getD q).Sane
    cases henq : q.enqueue buffer with
    | none => exact h
    | some q' =>
      obtain ⟨hlen, hfits⟩ := len_enqueue henq
      refine ⟨?_, hfits h.len, fun hzero => ?_⟩
      · simp only [ClientOutput.enqueue] at henq
        split at henq
        · cases henq
        · rw [← Option.some.inj henq]
          exact h.head
      · have hstalled : q'.stalledSince = q.stalledSince := by
          simp only [ClientOutput.enqueue] at henq
          split at henq
          · cases henq
          · rw [← Option.some.inj henq]
        show q'.stalledSince = 0
        rw [hstalled]
        exact h.idle (by have hnone : q'.len = 0 := hzero; omega)
  | peek => exact h
  | consume length => exact h.consume length
  | mark since =>
    have hpos : 0 < q.len := hop
    exact ⟨h.head, h.len, fun hzero => absurd hzero (Nat.ne_of_gt hpos)⟩

/-- **What is done to the ring is done to its contents.** -/
theorem contents_apply (h : q.Sane) (op : QueueOp) : (q.apply op).contents = fifo q.contents op := by
  cases op with
  | enqueue buffer =>
    show ((q.enqueue buffer).getD q).contents = _
    rw [fifo, length_contents]
    have hlen := h.len
    cases henq : q.enqueue buffer with
    | none =>
      have hfull := enqueue_eq_none_iff.mp henq
      rw [space] at hfull
      rw [if_neg (by omega)]
      rfl
    | some q' =>
      have hroom : ¬q.space < buffer.length := fun hfull => by
        rw [enqueue_eq_none_iff.mpr hfull] at henq
        cases henq
      rw [space] at hroom
      rw [if_pos (by omega)]
      exact contents_enqueue h.len henq
  | peek => rfl
  | consume length => exact contents_consume q length
  | mark since => rfl

/-- **What is looked at is the front**, and something of it if there is something. -/
theorem peek_front (h : q.Sane) : q.peek <+: q.contents ∧ (q.contents ≠ [] → q.peek ≠ []) := by
  refine ⟨peek_eq q ▸ List.take_prefix _ _, fun hne hnil => hne ?_⟩
  have hhead := h.head
  have hlen : q.peek.length = min (clientOutputQueueSize - q.head) q.len := by simp [peek]
  rw [hnil, List.length_nil] at hlen
  rw [contents_eq_nil_iff]
  omega

/-! ### The loop that sends -/

/-- The loop that sends, where there is nothing to do. -/
theorem flush_done {now budget : ℕ} {results : List SendResult} (h : q.len = 0 ∨ budget = 0) :
    q.flush now results budget = (q, [], .kept) := by
  rw [flush.eq_def]
  exact if_pos h

/-- The loop that sends, where it is interrupted. -/
theorem flush_eintr {now budget : ℕ} {results : List SendResult} (h : ¬(q.len = 0 ∨ budget = 0)) :
    q.flush now (.eintr :: results) budget = q.flush now results budget := by
  rw [flush.eq_def]
  exact if_neg h

/-- The loop that sends, where the socket takes something. -/
theorem flush_taken {now n budget written : ℕ} {results : List SendResult}
    (h : ¬(q.len = 0 ∨ budget = 0)) (hw : written = min n (min q.peek.length budget))
    (hpos : written ≠ 0) :
    q.flush now (.taken n :: results) budget =
      (((ClientOutput.consume { q with stalledSince := 0 } written).flush now results
          (budget - written)).1,
        q.peek.take written ++ ((ClientOutput.consume { q with stalledSince := 0 } written).flush now
          results (budget - written)).2.1,
        ((ClientOutput.consume { q with stalledSince := 0 } written).flush now results
          (budget - written)).2.2) := by
  subst hw
  rw [flush.eq_def]
  refine (if_neg h).trans ?_
  exact if_neg hpos

/-- The loop that sends, where the socket ends it. -/
theorem flush_stopped {now budget : ℕ} {r : SendResult} {results : List SendResult}
    (hr : r = .eagain ∨ r = .failed ∨ ∃ n, r = .taken n ∧ min n (min q.peek.length budget) = 0)
    (rest : List SendResult) :
    q.flush now (r :: results) budget = q.flush now (r :: rest) budget := by
  by_cases h : q.len = 0 ∨ budget = 0
  · rw [flush_done h, flush_done h]
  · rw [flush.eq_def, flush.eq_def now (r :: rest)]
    refine (if_neg h).trans (Eq.trans ?_ (if_neg h).symm)
    obtain rfl | rfl | ⟨n, rfl, hzero⟩ := hr
    · rfl
    · rfl
    · exact (if_pos hzero).trans (if_pos hzero).symm

/-- **The loop that sends is a use of the queue.** -/
theorem flush_run (now : ℕ) (results : List SendResult) (budget : ℕ) (q : ClientOutput) :
    Transition.Run step Offered q (q.flush now results budget).1 := by
  have hmark : ∀ q : ClientOutput, ∀ since, 0 < q.len →
      Transition.Run step Offered q { q with stalledSince := since } := fun q since hpos =>
    Relation.ReflTransGen.single ⟨.mark since, hpos, rfl⟩
  have hstalled : ∀ q : ClientOutput, 0 < q.len → Transition.Run step Offered q
      (if q.stalledSince = 0 then { q with stalledSince := now } else q) := by
    intro q hpos
    split
    · exact hmark q now hpos
    · exact Relation.ReflTransGen.refl
  fun_induction flush now results budget q with
  | case1 => exact Relation.ReflTransGen.refl
  | case2 budget q hgo =>
    exact hstalled q (Nat.pos_of_ne_zero fun hzero => hgo (Or.inl hzero))
  | case3 budget q _ results ih => exact ih
  | case4 budget q hgo =>
    exact hstalled q (Nat.pos_of_ne_zero fun hzero => hgo (Or.inl hzero))
  | case5 => exact Relation.ReflTransGen.refl
  | case6 budget q hgo =>
    exact hstalled q (Nat.pos_of_ne_zero fun hzero => hgo (Or.inl hzero))
  | case7 budget q hgo n results written hpos r ih =>
    have hlen : 0 < q.len := Nat.pos_of_ne_zero fun hzero => hgo (Or.inl hzero)
    have hoffered : written ≤ q.peek.length :=
      (Nat.min_le_right ..).trans (Nat.min_le_left ..)
    have hconsume : Transition.Run step Offered { q with stalledSince := 0 }
        (ClientOutput.consume { q with stalledSince := 0 } written) :=
      Relation.ReflTransGen.single ⟨.consume written, hoffered, rfl⟩
    exact ((hmark q 0 hlen).trans hconsume).trans ih

/-- **The loop that sends ends**: it looks at no more answers than there are bytes, but for the
interrupted calls. -/
theorem flush_append (now : ℕ) (results rest : List SendResult) (budget : ℕ) (q : ClientOutput)
    (henough : q.len ≤ results.countP (· ≠ .eintr)) :
    q.flush now (results ++ rest) budget = q.flush now results budget := by
  induction results generalizing q budget with
  | nil =>
    have hzero : q.len = 0 := Nat.le_zero.mp henough
    rw [flush_done (Or.inl hzero), flush_done (Or.inl hzero)]
  | cons r results ih =>
    by_cases hstop : q.len = 0 ∨ budget = 0
    · rw [flush_done hstop, flush_done hstop]
    rw [List.cons_append]
    cases r with
    | eintr =>
      rw [flush_eintr hstop, flush_eintr hstop]
      exact ih budget q (by simpa using henough)
    | eagain => exact flush_stopped (Or.inl rfl) _
    | failed => exact flush_stopped (Or.inr (Or.inl rfl)) _
    | taken n =>
      by_cases hzero : min n (min q.peek.length budget) = 0
      · exact flush_stopped (Or.inr (Or.inr ⟨n, rfl, hzero⟩)) _
      · have hless : (ClientOutput.consume { q with stalledSince := 0 }
            (min n (min q.peek.length budget))).len ≤ results.countP (· ≠ .eintr) := by
          rw [List.countP_cons_of_pos (by simp)] at henough
          rw [ClientOutput.consume]
          split
          · exact Nat.zero_le _
          · show q.len - min n (min q.peek.length budget) ≤ _
            omega
        rw [flush_taken hstop rfl hzero, flush_taken hstop rfl hzero, ih _ _ hless]

/-- **What the loop sends** is what the answers of the socket take. -/
theorem flush_sends (now : ℕ) (results : List SendResult) (budget : ℕ) {q : ClientOutput}
    (h : q.Sane) :
    Sends q.contents budget results (q.flush now results budget).2.1
      (q.flush now results budget).2.2 := by
  have hopen : ∀ {q : ClientOutput} {budget : ℕ}, ¬(q.len = 0 ∨ budget = 0) →
      ¬(q.contents = [] ∨ budget = 0) := fun hgo => by rwa [contents_eq_nil_iff]
  fun_induction flush now results budget q with
  | case1 results budget q hstop => exact .done (by rwa [contents_eq_nil_iff])
  | case2 budget q hgo => exact .blocked (hopen hgo) (by simp)
  | case3 budget q hgo results ih => exact .interrupted (hopen hgo) (ih h)
  | case4 budget q hgo => exact .blocked (hopen hgo) (by simp)
  | case5 budget q hgo => exact .failed (hopen hgo)
  | case6 budget q hgo _ n results written hzero =>
    have hpeek : q.peek.length ≠ 0 := fun hnil =>
      (peek_front h).2 (not_or.mp (hopen hgo)).1 (List.length_eq_zero_iff.mp hnil)
    obtain rfl : n = 0 := by
      have hmin : min n (min q.peek.length budget) = 0 := hzero
      have hbudget : budget ≠ 0 := (not_or.mp hgo).2
      omega
    exact .blocked (hopen hgo) (by simp)
  | case7 budget q hgo n results written hpos r ih =>
    have hwritten : written = min n (q.peek.take budget).length := by
      rw [List.length_take, Nat.min_comm budget]
    have hrest := ih (Sane.consume (q := { q with stalledSince := 0 })
      ⟨h.head, h.len, fun _ => rfl⟩ written)
    rw [contents_consume] at hrest
    have htake : q.peek.take written = (q.peek.take budget).take n := by
      rw [List.take_take, List.take_eq_take_iff]
      omega
    show Sends q.contents budget (.taken n :: results) (q.peek.take written ++ r.2.1) r.2.2
    rw [htake]
    refine .taken ((List.take_prefix _ _).trans (peek_front h).1) ?_ ?_ ?_ (hwritten ▸ hrest)
    · intro hnil
      rw [hnil, List.length_nil, Nat.min_zero] at hwritten
      exact hpos hwritten
    · rw [List.length_take]
      exact Nat.min_le_left _ _
    · rintro rfl
      rw [Nat.zero_min] at hwritten
      exact hpos hwritten

/-- **The output queue is a FIFO of bounded length**, whatever is done with it from the start on. -/
theorem queue_refines_fifo {start : ClientOutput} (h : Transition.Run step Offered start.init q) :
    q.Sane ∧ q.contents.length = q.len ∧
      (∀ op, (q.apply op).contents = fifo q.contents op) ∧
      (∀ buffer, q.enqueue buffer = none ↔
        clientOutputQueueSize < q.contents.length + buffer.length) ∧
      (q.peek <+: q.contents ∧ (q.contents ≠ [] → q.peek ≠ [])) ∧
      ∀ now results budget,
        Transition.Run step Offered start.init (q.flush now results budget).1 ∧
          (q.flush now results budget).2.1 ++ (q.flush now results budget).1.contents = q.contents ∧
          Sends q.contents budget results (q.flush now results budget).2.1
            (q.flush now results budget).2.2 ∧
          (q.flush now results budget).2.1.length ≤ budget ∧
          (q.len ≤ results.countP (· ≠ .eintr) → ∀ rest,
            q.flush now (results ++ rest) budget = q.flush now results budget) := by
  have hsane : q.Sane := Transition.Run.invariant h (sane_init start) fun _ _ _ hi hop hs => by
    rw [← Option.some.inj hs]
    exact hi.apply hop
  have hlen := hsane.len
  refine ⟨hsane, length_contents q, contents_apply hsane, fun buffer => ?_, peek_front hsane,
    fun now results budget => ⟨h.trans (flush_run now results budget q), contents_flush _ _ _ _,
      flush_sends now results budget hsane, (flush_sends now results budget hsane).length_le,
      fun henough rest => flush_append now results rest budget q henough⟩⟩
  rw [enqueue_eq_none_iff, space, length_contents]
  omega

/-- Two bytes are put in, and one is taken. -/
theorem queue_refines_fifo_two :
    ∃ q : ClientOutput, Transition.Run step Offered zero.init q ∧ q.contents = ascii "b" ∧ q.Sane := by
  have hoffered : 1 ≤ (zero.init.apply (.enqueue (ascii "ab"))).peek.length := by decide +kernel
  have hrun : Transition.Run step Offered zero.init
      ((zero.init.apply (.enqueue (ascii "ab"))).apply (.consume 1)) :=
    (Relation.ReflTransGen.single ⟨.enqueue (ascii "ab"), trivial, rfl⟩).tail
      ⟨.consume 1, hoffered, rfl⟩
  exact ⟨_, hrun, by decide +kernel, (queue_refines_fifo hrun).1⟩

end ClientOutput

end Mochad
