import Mochad.Bytes
import Mochad.Library.Ring

/-!
# The queue of packets for the controller

`x10_write.c`: the controller takes one packet at a time, so a packet that is written
while another one is under way waits in a ring. The ring has 256 slots, of which one is
always left free, and the slot that `Outhead` names is the one *before* the first
packet. A packet that is written while nothing is under way does not go through the
ring at all.

Nothing here depends on what `write_usb` does, beyond whether it failed: the functions
are over an arbitrary `writeUsb` on an arbitrary state.

* `X10Queue.queued` – the packets that wait, in order;
* `queued_addX10out`, `queued_sendNextX10out` – a packet joins at the back and leaves
  at the front;
* `submitted_append_queued` – no packet is lost, duplicated, reordered or altered.
-/

namespace Mochad

/-- `x10out_t`. -/
structure X10Out where
  outlen : ℕ
  outdata : Bytes

/-- The packet that a slot holds. -/
def X10Out.payload (rec : X10Out) : Bytes := rec.outdata.take rec.outlen

/-- `OUTPTRSSIZE`. -/
def outptrsSize : ℕ := 256

/-- The longest packet. -/
def outdataSize : ℕ := 8

/-- An index into `Outrecs`. -/
abbrev OutIndex := {i : ℕ // i < outptrsSize}

/-- **The globals of `x10_write.c`**, with `PollTimeOut`, which only they write. -/
structure X10Queue where
  outrecs : ℕ → X10Out
  outhead : OutIndex
  outtail : OutIndex
  outbusy : Bool
  pollTimeOut : ℤ

namespace X10Queue

/-- The queue at startup. -/
def initial : X10Queue where
  outrecs := fun _ => ⟨0, List.replicate outdataSize 0⟩
  outhead := ⟨0, by decide⟩
  outtail := ⟨0, by decide⟩
  outbusy := false
  pollTimeOut := -1

/-- `next_index`. -/
def nextIndex (idx : OutIndex) : OutIndex :=
  ⟨(idx + 1) % outptrsSize, Nat.mod_lt _ (by decide)⟩

/-- `add_x10out`. -/
def addX10out (q : X10Queue) (buf : Bytes) : X10Queue × ℤ :=
  if outdataSize < buf.length then (q, -1)
  else if nextIndex q.outtail = q.outhead then (q, -1)
  else
    let nxt := nextIndex q.outtail
    ({ q with
        outrecs := Function.update q.outrecs nxt
          ⟨buf.length, memcpy (q.outrecs nxt).outdata buf⟩
        outtail := nxt }, buf.length)

section

variable {σ : Type*} (writeUsb : σ → Bytes → σ × ℤ)

/-- `send_next_x10out`. -/
def sendNextX10out (q : X10Queue) (s : σ) : (X10Queue × σ) × ℤ :=
  if q.outbusy then
    if q.outhead = q.outtail then (({ q with outbusy := false, pollTimeOut := -1 }, s), 0)
    else
      let next := nextIndex q.outhead
      let (s', r) := writeUsb s (q.outrecs next).payload
      if r < 0 then (({ q with pollTimeOut := 2 * 1000 }, s'), r)
      else (({ q with outhead := next }, s'), 0)
  else ((q, s), 0)

/-- `x10_write`. -/
def x10Write (q : X10Queue) (s : σ) (buf : Bytes) : (X10Queue × σ) × ℤ :=
  if outdataSize < buf.length then ((q, s), -1)
  else if q.outbusy then
    let (q', r) := q.addX10out buf
    ((q', s), r)
  else
    let (s', r) := writeUsb s buf
    if r < 0 then (({ q with outbusy := false, pollTimeOut := -1 }, s'), r)
    else (({ q with outbusy := true, pollTimeOut := 2 * 1000 }, s'), buf.length)

end

/-! ### What waits -/

/-- How many packets wait. -/
def count (q : X10Queue) : ℕ := (q.outtail + outptrsSize - q.outhead) % outptrsSize

/-- **The packets that wait**, in order. -/
def queued (q : X10Queue) : List Bytes :=
  (Ring.window q.outrecs (q.outhead + 1) outptrsSize q.count).map X10Out.payload

theorem count_lt (q : X10Queue) : q.count < outptrsSize := Nat.mod_lt _ (by decide)

/-- The tail is as far behind the head as packets wait. -/
theorem outtail_eq (q : X10Queue) : (q.outtail : ℕ) = (q.outhead + q.count) % outptrsSize := by
  have hh := q.outhead.2
  have ht := q.outtail.2
  simp only [count, outptrsSize] at *
  omega

theorem count_eq_zero_iff (q : X10Queue) : q.count = 0 ↔ q.outhead = q.outtail := by
  have hh := q.outhead.2
  have ht := q.outtail.2
  rw [Subtype.ext_iff]
  simp only [count, outptrsSize] at *
  omega

/-- The slot after the tail is the one past the window. -/
theorem nextIndex_outtail (q : X10Queue) :
    (nextIndex q.outtail : ℕ) = (q.outhead + 1 + q.count) % outptrsSize := by
  have htail := q.outtail_eq
  simp only [nextIndex, outptrsSize] at *
  omega

theorem queued_eq_nil_iff (q : X10Queue) : q.queued = [] ↔ q.outhead = q.outtail := by
  rw [queued, List.map_eq_nil_iff, ← List.length_eq_zero_iff, Ring.length_window,
    count_eq_zero_iff]

/-- A packet that was copied into a slot is the packet that is read from it. -/
theorem payload_memcpy (dst buf : Bytes) : X10Out.payload ⟨buf.length, memcpy dst buf⟩ = buf := by
  simp [X10Out.payload, memcpy]

/-- **A packet joins at the back**, if it fits and the ring has room; and nothing
changes otherwise. -/
theorem queued_addX10out (q : X10Queue) (buf : Bytes) :
    (q.addX10out buf = (q, -1)) ∨
      ((q.addX10out buf).2 = buf.length ∧
        (q.addX10out buf).1.queued = q.queued ++ [buf] ∧
        (q.addX10out buf).1.outhead = q.outhead ∧
        (q.addX10out buf).1.outbusy = q.outbusy ∧
        (q.addX10out buf).1.pollTimeOut = q.pollTimeOut) := by
  rw [addX10out]
  split
  · exact Or.inl rfl
  split
  · exact Or.inl rfl
  next hroom =>
    refine Or.inr ⟨rfl, ?_, rfl, rfl, rfl⟩
    have hnext := q.nextIndex_outtail
    have hlt : q.count + 1 < outptrsSize := by
      have hc := q.count_lt
      have hh := q.outhead.2
      have hne : (nextIndex q.outtail : ℕ) ≠ q.outhead := fun h => hroom (Subtype.ext h)
      rw [hnext] at hne
      simp only [outptrsSize] at *
      omega
    have hcount : (nextIndex q.outtail + outptrsSize - q.outhead) % outptrsSize = q.count + 1 := by
      have hh := q.outhead.2
      rw [hnext]
      simp only [outptrsSize] at *
      omega
    show (Ring.window (Function.update q.outrecs (nextIndex q.outtail) _) (q.outhead + 1)
      outptrsSize ((nextIndex q.outtail + outptrsSize - q.outhead) % outptrsSize)).map _ = _
    rw [hcount, hnext, Ring.window_push q.count_lt, List.map_append, List.map_singleton,
      payload_memcpy, queued]

/-- The packet that the next submit takes is the one at the front. -/
theorem queued_eq_cons {q : X10Queue} (h : q.outhead ≠ q.outtail) :
    q.queued = (q.outrecs (nextIndex q.outhead)).payload ::
      queued { q with outhead := nextIndex q.outhead } := by
  have hpos : q.count ≠ 0 := fun h0 => h (q.count_eq_zero_iff.mp h0)
  obtain ⟨n, hn⟩ := Nat.exists_eq_succ_of_ne_zero hpos
  have hcount : (q.outtail + outptrsSize - (q.outhead + 1) % outptrsSize) % outptrsSize = n := by
    have hh := q.outhead.2
    have ht := q.outtail.2
    simp only [count, outptrsSize] at *
    omega
  rw [queued, hn, Ring.window_succ, List.map_cons]
  refine congrArg₂ _ rfl (congrArg _ ?_)
  show _ = Ring.window q.outrecs ((q.outhead + 1) % outptrsSize + 1) outptrsSize
    ((q.outtail + outptrsSize - (q.outhead + 1) % outptrsSize) % outptrsSize)
  rw [hcount, ← Ring.window_mod, ← Nat.mod_add_mod, Ring.window_mod]

/-! ### What the two operations can do -/

section

variable {σ : Type*} {writeUsb : σ → Bytes → σ × ℤ}

/-- What is known of the queue whatever `write_usb` does: while nothing is under way
nothing waits, and the timeout is armed exactly when something is under way. -/
structure Ok (q : X10Queue) : Prop where
  idle : q.outbusy = false → q.outhead = q.outtail ∧ q.pollTimeOut = -1
  busy : q.outbusy = true → q.pollTimeOut = 2 * 1000

theorem initial_ok : initial.Ok := ⟨fun _ => ⟨rfl, rfl⟩, fun h => nomatch h⟩

/-- A queue that has just submitted a packet at once. -/
theorem armed_ok (q : X10Queue) :
    ({ q with outbusy := true, pollTimeOut := 2 * 1000 } : X10Queue).Ok :=
  ⟨fun h => (nomatch h), fun _ => rfl⟩

/-- Going idle changes nothing in a queue that is idle. -/
theorem Ok.set_idle {q : X10Queue} (hq : q.Ok) (hidle : q.outbusy = false) :
    ({ q with outbusy := false, pollTimeOut := -1 } : X10Queue) = q := by
  rw [← hidle, ← (hq.idle hidle).2]

/-- Arming the timeout changes nothing in a queue that is busy. -/
theorem Ok.set_timeout {q : X10Queue} (hq : q.Ok) (hbusy : q.outbusy = true) :
    ({ q with pollTimeOut := 2 * 1000 } : X10Queue) = q := by
  rw [← hq.busy hbusy]

/-- **What `x10_write` can do**: refuse, with nothing changed; queue the packet behind
the one under way; submit it at once; or fail to submit it, and be idle as before. -/
theorem x10Write_cases (writeUsb : σ → Bytes → σ × ℤ) {q : X10Queue} (hq : q.Ok) (s : σ)
    (buf : Bytes) :
    (q.x10Write writeUsb s buf = ((q, s), -1)) ∨
      (q.outbusy = true ∧ buf.length ≤ outdataSize ∧
        ∃ q', q.x10Write writeUsb s buf = ((q', s), (buf.length : ℤ)) ∧
          q'.queued = q.queued ++ [buf] ∧ q'.outhead = q.outhead ∧ q'.outbusy = true ∧ q'.Ok) ∨
      (q.outbusy = false ∧ buf.length ≤ outdataSize ∧ 0 ≤ (writeUsb s buf).2 ∧
        q.x10Write writeUsb s buf =
          (({ q with outbusy := true, pollTimeOut := 2 * 1000 }, (writeUsb s buf).1),
            (buf.length : ℤ))) ∨
      (q.outbusy = false ∧ buf.length ≤ outdataSize ∧ (writeUsb s buf).2 < 0 ∧
        q.x10Write writeUsb s buf = ((q, (writeUsb s buf).1), (writeUsb s buf).2)) := by
  by_cases hlen : outdataSize < buf.length
  · refine Or.inl ?_
    rw [x10Write, if_pos hlen]
  have hle : buf.length ≤ outdataSize := Nat.le_of_not_lt hlen
  by_cases hbusy : q.outbusy = true
  · have hval : q.x10Write writeUsb s buf = (((q.addX10out buf).1, s), (q.addX10out buf).2) := by
      rw [x10Write, if_neg hlen, if_pos hbusy]
    rcases q.queued_addX10out buf with h | ⟨hr, hqueued, hhead, hb, ht⟩
    · refine Or.inl ?_
      rw [hval, h]
    · rw [hr] at hval
      refine Or.inr (Or.inl ⟨hbusy, hle, (q.addX10out buf).1, hval, hqueued, hhead,
        hb.trans hbusy, ⟨fun h => ?_, fun _ => ht.trans (hq.busy hbusy)⟩⟩)
      rw [hb, hbusy] at h
      cases h
  · have hidle : q.outbusy = false := by simpa using hbusy
    by_cases hr : (writeUsb s buf).2 < 0
    · refine Or.inr (Or.inr (Or.inr ⟨hidle, hle, hr, ?_⟩))
      simp only [x10Write, if_neg hlen, if_neg hbusy, if_pos hr, hq.set_idle hidle]
    · refine Or.inr (Or.inr (Or.inl ⟨hidle, hle, Int.not_lt.mp hr, ?_⟩))
      simp only [x10Write, if_neg hlen, if_neg hbusy, if_neg hr]

/-- **What `send_next_x10out` can do**: nothing, when nothing is under way; become
idle, when nothing waits; submit the packet at the front, which then no longer waits;
or fail to, with the queue as before. -/
theorem sendNextX10out_cases (writeUsb : σ → Bytes → σ × ℤ) {q : X10Queue} (hq : q.Ok) (s : σ) :
    (q.outbusy = false ∧ q.sendNextX10out writeUsb s = ((q, s), 0)) ∨
      (q.outbusy = true ∧ q.queued = [] ∧ q.sendNextX10out writeUsb s =
        (({ q with outbusy := false, pollTimeOut := -1 }, s), 0) ∧
        ({ q with outbusy := false, pollTimeOut := -1 } : X10Queue).Ok) ∨
      (q.outbusy = true ∧ ∃ buf rest q', q.queued = buf :: rest ∧ q'.queued = rest ∧
        0 ≤ (writeUsb s buf).2 ∧ q'.outbusy = true ∧ q'.Ok ∧
        q.sendNextX10out writeUsb s = ((q', (writeUsb s buf).1), 0)) ∨
      (q.outbusy = true ∧ ∃ buf rest, q.queued = buf :: rest ∧ (writeUsb s buf).2 < 0 ∧
        q.sendNextX10out writeUsb s = ((q, (writeUsb s buf).1), (writeUsb s buf).2)) := by
  by_cases hbusy : q.outbusy = true
  · by_cases hempty : q.outhead = q.outtail
    · have hok : ({ q with outbusy := false, pollTimeOut := -1 } : X10Queue).Ok :=
        ⟨fun _ => ⟨hempty, rfl⟩, fun h => nomatch h⟩
      refine Or.inr (Or.inl ⟨hbusy, q.queued_eq_nil_iff.mpr hempty, ?_, hok⟩)
      rw [sendNextX10out, if_pos hbusy, if_pos hempty]
    · by_cases hr : (writeUsb s (q.outrecs (nextIndex q.outhead)).payload).2 < 0
      · refine Or.inr (Or.inr (Or.inr ⟨hbusy, _, _, queued_eq_cons hempty, hr, ?_⟩))
        simp only [sendNextX10out, if_pos hbusy, if_neg hempty, if_pos hr, hq.set_timeout hbusy]
      · have hok : ({ q with outhead := nextIndex q.outhead } : X10Queue).Ok := by
          refine ⟨fun h => ?_, hq.busy⟩
          rw [hbusy] at h
          cases h
        refine Or.inr (Or.inr (Or.inl ⟨hbusy, _, _, _, queued_eq_cons hempty, rfl,
          Int.not_lt.mp hr, hbusy, hok, ?_⟩))
        simp only [sendNextX10out, if_pos hbusy, if_neg hempty, if_neg hr]
  · refine Or.inl ⟨by simpa using hbusy, ?_⟩
    rw [sendNextX10out, if_neg hbusy]

end

end X10Queue

/-! ### Every sequence of calls -/

/-- A call, with what `write_usb` will return if it is called. -/
inductive X10Call
  | x10Write (buf : Bytes) (result : ℤ)
  | sendNextX10out (result : ℤ)

/-- A `write_usb` that returns a given result, over the list of the packets that it was
given and did not fail for. -/
def writeUsbReturning (result : ℤ) (sent : List Bytes) (buf : Bytes) : List Bytes × ℤ :=
  (if result < 0 then sent else sent ++ [buf], result)

/-- The queue, the packets that were submitted, and those that `x10_write` accepted:
those for which it returned their length. -/
structure X10Bench where
  queue : X10Queue
  submitted : List Bytes
  accepted : List Bytes

namespace X10Bench

/-- The bench before the first call. -/
def initial : X10Bench := ⟨.initial, [], []⟩

/-- What `x10_write` returns. -/
def result (b : X10Bench) (buf : Bytes) (result : ℤ) : ℤ :=
  (b.queue.x10Write (writeUsbReturning result) b.submitted buf).2

/-- One call. -/
def call (b : X10Bench) : X10Call → X10Bench
  | .x10Write buf result =>
      let ((queue, submitted), r) := b.queue.x10Write (writeUsbReturning result) b.submitted buf
      ⟨queue, submitted, if r = buf.length then b.accepted ++ [buf] else b.accepted⟩
  | .sendNextX10out result =>
      let ((queue, submitted), _) := b.queue.sendNextX10out (writeUsbReturning result) b.submitted
      ⟨queue, submitted, b.accepted⟩

/-- A sequence of calls. -/
def calls : X10Bench → List X10Call → X10Bench := List.foldl call

/-- The bench's invariant. -/
structure Holds (b : X10Bench) : Prop where
  ok : b.queue.Ok
  fifo : b.submitted ++ b.queue.queued = b.accepted

theorem initial_holds : initial.Holds := ⟨X10Queue.initial_ok, rfl⟩

/-- While nothing is under way nothing waits. -/
theorem Holds.queued_eq_nil {b : X10Bench} (h : b.Holds) (hidle : b.queue.outbusy = false) :
    b.queue.queued = [] := b.queue.queued_eq_nil_iff.mpr (h.ok.idle hidle).1

/-- **A call of `x10_write`** keeps the invariant, and a refused one changes nothing. -/
theorem call_x10Write {b : X10Bench} (h : b.Holds) (buf : Bytes) (r : ℤ) :
    (b.call (.x10Write buf r)).Holds ∧
      (b.result buf r ≠ buf.length → b.call (.x10Write buf r) = b) := by
  have hneg : ∀ n : ℤ, n < 0 → n ≠ buf.length := by
    intro n hn
    have := Int.natCast_nonneg buf.length
    omega
  rcases X10Queue.x10Write_cases (writeUsbReturning r) h.ok b.submitted buf with
    hcase | ⟨_, _, q', hcase, hqueued, _, _, hok⟩ | ⟨hidle, _, hr, hcase⟩ | ⟨hidle, _, hr, hcase⟩
  · have hcall : b.call (.x10Write buf r) = b := by
      simp only [call, hcase, if_neg (hneg (-1) (by decide))]
    exact ⟨by rwa [hcall], fun _ => hcall⟩
  · refine ⟨?_, fun hne => absurd (by simp only [result, hcase]) hne⟩
    simp only [call, hcase, if_true]
    exact ⟨hok, by rw [hqueued, ← List.append_assoc, h.fifo]⟩
  · refine ⟨?_, fun hne => absurd (by simp only [result, hcase]) hne⟩
    have hsent : (writeUsbReturning r b.submitted buf).1 = b.submitted ++ [buf] :=
      if_neg (Int.not_lt.mpr hr)
    have hnil := h.queued_eq_nil hidle
    have hfifo := h.fifo
    rw [hnil, List.append_nil] at hfifo
    simp only [call, hcase, if_true, hsent]
    refine ⟨b.queue.armed_ok, ?_⟩
    show b.submitted ++ [buf] ++ b.queue.queued = b.accepted ++ [buf]
    rw [hnil, List.append_nil, hfifo]
  · have hsent : (writeUsbReturning r b.submitted buf).1 = b.submitted := if_pos hr
    have hcall : b.call (.x10Write buf r) = b := by
      simp only [call, hcase, hsent, if_neg (hneg _ hr)]
    exact ⟨by rwa [hcall], fun _ => hcall⟩

/-- **A call of `send_next_x10out`** keeps the invariant. -/
theorem call_sendNextX10out {b : X10Bench} (h : b.Holds) (r : ℤ) :
    (b.call (.sendNextX10out r)).Holds := by
  rcases X10Queue.sendNextX10out_cases (writeUsbReturning r) h.ok b.submitted with
    ⟨_, hcase⟩ | ⟨_, hnil, hcase, hok⟩ | ⟨_, buf, rest, q', hqueued, hrest, hr, _, hok, hcase⟩ |
    ⟨_, buf, rest, _, hr, hcase⟩
  · simpa only [call, hcase] using h
  · simp only [call, hcase]
    exact ⟨hok, h.fifo⟩
  · have hsent : (writeUsbReturning r b.submitted buf).1 = b.submitted ++ [buf] :=
      if_neg (Int.not_lt.mpr hr)
    simp only [call, hcase, hsent]
    refine ⟨hok, ?_⟩
    rw [hrest, List.append_assoc, List.singleton_append, ← hqueued, h.fifo]
  · have hsent : (writeUsbReturning r b.submitted buf).1 = b.submitted := if_pos hr
    simpa only [call, hcase, hsent] using h

theorem calls_holds {b : X10Bench} (h : b.Holds) (cs : List X10Call) : (b.calls cs).Holds := by
  induction cs generalizing b with
  | nil => exact h
  | cons c cs ih =>
    refine ih ?_
    cases c with
    | x10Write buf r => exact (call_x10Write h buf r).1
    | sendNextX10out r => exact call_sendNextX10out h r

/-- **The queue loses nothing**: after any calls, with any results of `write_usb`, the
packets that were submitted and then those that wait are the packets that were
accepted; and a refused `x10_write` leaves everything as it was, so that whatever is
called later does what it would have done. -/
theorem submitted_append_queued (cs : List X10Call) :
    (initial.calls cs).submitted ++ (initial.calls cs).queue.queued =
        (initial.calls cs).accepted ∧
      ∀ buf r, (initial.calls cs).result buf r ≠ buf.length →
        (initial.calls cs).call (.x10Write buf r) = initial.calls cs ∧
          ∀ later, initial.calls (cs ++ .x10Write buf r :: later) = initial.calls (cs ++ later) := by
  have h := calls_holds initial_holds cs
  refine ⟨h.fifo, fun buf r hne => ?_⟩
  have hcall := (call_x10Write h buf r).2 hne
  refine ⟨hcall, fun later => ?_⟩
  simp only [calls, List.foldl_append, List.foldl_cons] at hcall ⊢
  rw [hcall]

end X10Bench

end Mochad
