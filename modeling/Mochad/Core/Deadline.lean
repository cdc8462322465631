import Mochad.Core.Iteration
import Mochad.Core.Pace

/-!
# How long an acknowledgement is waited for

A CM15A acknowledges a packet, or has been waited for. The main loop waits in `poll()`, for 2
seconds at most, and releases the next packet when the call times out. But the 2 seconds begin
anew with every call: a client, a listener or the controller that wakes `poll()` often enough
keeps the loop from ever releasing the packet.

The machine is run with a clock here, which is read when `poll()` returns. An observer keeps the
reading at which the last packet was submitted, and for how many packets a timeout has been counted;
and it lists the iterations that end too late: the transfer has completed, no acknowledgement has
come, 2 seconds have passed, and the packet has not been released.

`Usb.Awaits` says what a packet is released for: a CM19A, an acknowledgement, or a timeout that was
counted since it was submitted. So the runs without such an iteration are those in which every
iteration that finds a packet due ends with a timeout of its own `poll()`, or after one
(`Daemon.released_in_time_iff`).
-/

namespace Mochad

/-- `write_usb` refused a packet, or libusb did. -/
def UsbEvent.isRefusal : UsbEvent → Bool
  | .outSubmitFailed _ => true
  | .outUnavailable => true
  | .outBusy => true
  | .outTooLong => true
  | _ => false

/-- How many packets were submitted. -/
def submissions (h : List UsbEvent) : ℕ := h.countP UsbEvent.isOutSubmit

theorem submissions_append_of_not {es h : List UsbEvent} (hes : ∀ e ∈ es, e.isOutSubmit = false) :
    submissions (es ++ h) = submissions h := by
  rw [submissions, List.countP_append, List.countP_eq_zero.mpr fun e he => by simp [hes e he],
    Nat.zero_add, submissions]

namespace Usb

variable {env : Env} {u u' : Usb}

/-- **The last packet has been released**: nothing is under way any more, or the next packet was
tried and refused. -/
def Released (u : Usb) : Prop :=
  u.queue.outbusy = false ∨ ∃ e ∈ sinceSubmit u.io.history, e.isRefusal = true

/-- **The last packet is due**: it was sent, and not acknowledged for 2 seconds. -/
def Due (u : Usb) (submitted clock : ℕ) : Prop :=
  Submitted u.io.history ∧ .outDone .completed ∈ sinceSubmit u.io.history ∧
    ackEvent ∉ sinceSubmit u.io.history ∧ submitted + 2 * 1000 ≤ clock

instance (u : Usb) : Decidable u.Released := inferInstanceAs (Decidable (_ ∨ _))

instance (h : List UsbEvent) : Decidable (Submitted h) :=
  inferInstanceAs (Decidable (∃ e ∈ h, e.isOutSubmit = true))

instance (u : Usb) (submitted clock : ℕ) : Decidable (u.Due submitted clock) :=
  inferInstanceAs (Decidable (_ ∧ _))

/-- Another event concerns neither. -/
theorem due_record {e : UsbEvent} (hs : e.isOutSubmit = false) (hr : e.isRefusal = false)
    (hd : e ≠ .outDone .completed) (ha : e ≠ ackEvent) (submitted clock : ℕ) :
    (Due ⟨u.queue, u.io.record e⟩ submitted clock ↔ u.Due submitted clock) ∧
      (Released ⟨u.queue, u.io.record e⟩ ↔ u.Released) := by
  have hgap : sinceSubmit (u.io.record e).history = e :: sinceSubmit u.io.history :=
    Trace.gap_cons hs
  have hmark : Submitted (u.io.record e).history ↔ Submitted u.io.history :=
    Trace.marked_cons_of_not hs
  rw [Due, Due, Released, Released, hgap, hmark, List.mem_cons, List.mem_cons]
  simp [hr, hd.symm, ha.symm]

/-- **`write_usb`** submits the packet, with the flags down, or refuses it. -/
theorem writeUsb_history (env : Env) (t : Transfers) (buf : Bytes) :
    ∃ es : List UsbEvent, (∀ e ∈ es, e.isOutSubmit = false) ∧
      (((t.writeUsb env buf).2 = 0 ∧
          (t.writeUsb env buf).1.history = .outSubmit buf :: (es ++ t.history) ∧
          (t.writeUsb env buf).1.x10AckReceived = false ∧
          (t.writeUsb env buf).1.x10AckTimedOut = false) ∨
        ((t.writeUsb env buf).2 < 0 ∧ (t.writeUsb env buf).1.history = es ++ t.history ∧
          ∃ e ∈ es, e.isRefusal = true)) := by
  simp only [Transfers.writeUsb]
  split
  · exact ⟨[.outUnavailable], by simp [UsbEvent.isOutSubmit],
      Or.inr ⟨(by decide : (-19 : ℤ) < 0), rfl, by simp [UsbEvent.isRefusal]⟩⟩
  split
  · exact ⟨[.outBusy], by simp [UsbEvent.isOutSubmit],
      Or.inr ⟨(by decide : (-16 : ℤ) < 0), rfl, by simp [UsbEvent.isRefusal]⟩⟩
  split
  · exact ⟨[.outTooLong], by simp [UsbEvent.isOutSubmit],
      Or.inr ⟨(by decide : (-22 : ℤ) < 0), rfl, by simp [UsbEvent.isRefusal]⟩⟩
  have hwritten : ∃ es, (if t.outOwned then UsbEvent.outOverwritten :: t.history else t.history) =
      es ++ t.history ∧ ∀ e ∈ es, e.isOutSubmit = false := by
    split
    · exact ⟨[.outOverwritten], rfl, by simp [UsbEvent.isOutSubmit]⟩
    · exact ⟨[], rfl, by simp⟩
  obtain ⟨es, heq, hes⟩ := hwritten
  split
  next hneg =>
    exact ⟨.outSubmitFailed buf :: es, List.forall_mem_cons.mpr ⟨rfl, hes⟩,
      Or.inr ⟨hneg, congrArg (_ :: ·) heq, _, List.mem_cons_self, rfl⟩⟩
  · exact ⟨es, hes, Or.inl ⟨rfl, congrArg (_ :: ·) heq, rfl, rfl⟩⟩

theorem writeUsb_gap (env : Env) (t : Transfers) (buf : Bytes) :
    ((t.writeUsb env buf).2 = 0 ∧ sinceSubmit (t.writeUsb env buf).1.history = []) ∨
      ((t.writeUsb env buf).2 < 0 ∧
        ∃ e ∈ sinceSubmit (t.writeUsb env buf).1.history, e.isRefusal = true) := by
  obtain ⟨es, hes, ⟨hr, hh, _⟩ | ⟨hr, hh, e, he, href⟩⟩ := writeUsb_history env t buf
  · exact Or.inl ⟨hr, by rw [hh]; exact Trace.gap_cons_mark rfl⟩
  · refine Or.inr ⟨hr, e, ?_, href⟩
    rw [hh, sinceSubmit, Trace.gap_append_of_not hes]
    exact List.mem_append_left _ he

/-- A packet waits while another is under way; otherwise it is submitted, or nothing is under way
still. -/
theorem x10Write_waits (env : Env) (u : Usb) (buf : Bytes) :
    ((u.x10Write env buf).1.io.history = u.io.history ∧
      (u.x10Write env buf).1.queue.outbusy = u.queue.outbusy) ∨
    (u.queue.outbusy = false ∧ (sinceSubmit (u.x10Write env buf).1.io.history = [] ∨
      (u.x10Write env buf).1.queue.outbusy = false)) := by
  simp only [x10Write, X10Queue.x10Write]
  split
  · exact Or.inl ⟨rfl, rfl⟩
  split
  · have hadd : (u.queue.addX10out buf).1.outbusy = u.queue.outbusy := by
      simp only [X10Queue.addX10out]
      split
      · rfl
      split
      · rfl
      · rfl
    exact Or.inl ⟨rfl, hadd⟩
  next hidle =>
    refine Or.inr ⟨Bool.eq_false_iff.mpr hidle, ?_⟩
    rcases writeUsb_gap env u.io buf with ⟨hr, hgap⟩ | ⟨hr, _⟩
    · rw [if_neg (by rw [hr]; decide)]
      exact Or.inl hgap
    · rw [if_pos hr]
      exact Or.inr rfl

/-- **What writing packets does**: they wait; or nothing was under way, and one of them is the last
packet, or nothing is under way still. -/
theorem Writes.waits (h : u.Writes env u') :
    (u'.io.history = u.io.history ∧ u'.queue.outbusy = u.queue.outbusy) ∨
      (u.queue.outbusy = false ∧
        (sinceSubmit u'.io.history = [] ∨ u'.queue.outbusy = false)) := by
  induction h with
  | refl => exact Or.inl ⟨rfl, rfl⟩
  | @tail v w _ hb ih =>
    obtain ⟨buf, rfl⟩ := hb
    rcases x10Write_waits env v buf with ⟨hhist, hbusy⟩ | ⟨hidle, hcase⟩
    · rw [hhist, hbusy]
      exact ih
    · rcases ih with ⟨_, hbusy⟩ | ⟨hbefore, _⟩
      · exact Or.inr ⟨hbusy.symm.trans hidle, hcase⟩
      · exact Or.inr ⟨hbefore, hcase⟩

/-- A packet that has not been submitted is not due. -/
theorem not_due_of_gap (h : sinceSubmit u.io.history = []) (submitted clock : ℕ) :
    ¬u.Due submitted clock := fun hdue => by
  have hmem := hdue.2.1
  rw [h] at hmem
  cases hmem

/-! ### Completed transfers -/

/-- **A transfer that has ended is known to be completed.** -/
def Ended (t : Transfers) : Prop :=
  ∀ status, .outDone status ∈ sinceSubmit t.history → t.intrOutCompleted = true

/-- Another event does not end a transfer. -/
theorem Ended.cons {t t' : Transfers} (h : Ended t)
    (hc : t'.intrOutCompleted = t.intrOutCompleted) {e : UsbEvent}
    (hh : t'.history = e :: t.history) (hs : e.isOutSubmit = false)
    (hd : ∀ status, e ≠ .outDone status) : Ended t' := by
  intro status hmem
  rw [hh, sinceSubmit, Trace.gap_cons hs] at hmem
  rcases List.mem_cons.mp hmem with heq | hmem
  · exact absurd heq.symm (hd status)
  · exact hc.trans (h status hmem)

theorem Ended.record {t : Transfers} (h : Ended t) {e : UsbEvent} (hs : e.isOutSubmit = false)
    (hd : ∀ status, e ≠ .outDone status) : Ended (t.record e) := h.cons rfl rfl hs hd

theorem ended_of_completed {t : Transfers} (h : t.intrOutCompleted = true) : Ended t := fun _ _ => h

theorem ended_writeUsb {t : Transfers} (h : Ended t) (buf : Bytes) :
    Ended (t.writeUsb env buf).1 := by
  simp only [Transfers.writeUsb]
  split
  · exact h.record rfl (by rintro _ ⟨⟩)
  split
  · exact h.record rfl (by rintro _ ⟨⟩)
  split
  · exact h.record rfl (by rintro _ ⟨⟩)
  split
  · exact ended_of_completed rfl
  · intro status hmem
    have hgap : ∀ h, sinceSubmit (.outSubmit buf :: h) = [] := fun _ => Trace.gap_cons_mark rfl
    rw [hgap] at hmem
    cases hmem

theorem ended_x10Write (h : Ended u.io) (buf : Bytes) : Ended (u.x10Write env buf).1.io := by
  simp only [x10Write, X10Queue.x10Write]
  split
  · exact h
  split
  · exact h
  split
  · exact ended_writeUsb h buf
  · exact ended_writeUsb h buf

theorem Writes.ended (hw : u.Writes env u') (h : Ended u.io) : Ended u'.io := by
  induction hw with
  | refl => exact h
  | tail _ hb ih =>
    obtain ⟨buf, rfl⟩ := hb
    exact ended_x10Write ih buf

theorem ended_maybeFinish (h : Ended u.io) : Ended (u.maybeFinishX10Transmit env).io := by
  have hspent : Ended u.io.spent := h
  have hrelease : Ended (u.release env).io := by
    simp only [release, sendNextX10out, X10Queue.sendNextX10out]
    split
    · split
      · exact hspent
      split
      · exact ended_writeUsb hspent _
      · exact ended_writeUsb hspent _
    · exact hspent
  rw [maybeFinishX10Transmit]
  split
  · exact h
  split
  · exact hrelease
  split
  · exact h
  · exact hrelease

theorem ended_intrOutCb (env : Env) (u : Usb) (status : TransferStatus) :
    Ended (u.intrOutCb env status).io := by
  cases status with
  | completed => exact ended_maybeFinish (ended_of_completed rfl)
  | _ => exact ended_of_completed rfl

theorem ended_intrInBegin (h : Ended u.io) (status : TransferStatus) (data : Bytes) :
    Ended (u.intrInBegin env status data).io := by
  have hdone : ∀ t : Transfers, t.intrOutCompleted = u.io.intrOutCompleted →
      t.history = .inDone status data :: u.io.history → Ended t := fun t hc hh =>
    h.cons hc hh rfl nofun
  cases status with
  | completed =>
    simp only [intrInBegin]
    split
    · exact ended_maybeFinish (hdone _ rfl rfl)
    split
    · exact hdone _ rfl rfl
    · exact hdone _ rfl rfl
  | _ => exact hdone _ rfl rfl

theorem ended_submitIn {t : Transfers} (h : Ended t) : Ended (t.submitIn env).1 := by
  simp only [Transfers.submitIn]
  split
  · exact h.cons rfl rfl rfl (by rintro _ ⟨⟩)
  · exact h.cons rfl rfl rfl (by rintro _ ⟨⟩)

theorem ended_intrInEnd (h : Ended u.io) (signal : Bool) : Ended (u.intrInEnd env signal).io := by
  have hsignal : Ended (if signal then { u.io with doExit := 1 } else u.io) := by
    split
    · exact h
    · exact h
  simp only [intrInEnd]
  generalize (if signal then { u.io with doExit := 1 } else u.io : Transfers) = t at hsignal ⊢
  split
  · exact hsignal
  split
  · exact ended_submitIn hsignal
  · exact ended_submitIn hsignal

theorem ended_startTransfers {t : Transfers} (h : Ended t) :
    Ended (t.startTransfers env).1 := by
  simp only [Transfers.startTransfers]
  split
  · exact h
  split
  · exact ended_submitIn h
  · exact ended_submitIn h

/-- **A timeout releases the packet that is due.** -/
theorem released_of_ackTimeout (h : Ended u.io) {submitted clock : ℕ}
    (hdue : (u.ackTimeout env).Due submitted clock) : (u.ackTimeout env).Released := by
  have hrelease : ∀ v : Usb, (v.release env).Due submitted clock → (v.release env).Released := by
    intro v hv
    simp only [release, sendNextX10out, X10Queue.sendNextX10out] at hv ⊢
    split at hv
    next hbusy =>
      rw [if_pos hbusy]
      split at hv
      next hempty =>
        rw [if_pos hempty]
        exact Or.inl rfl
      next hwaiting =>
        rw [if_neg hwaiting]
        rcases writeUsb_gap env v.io.spent
          (v.queue.outrecs (X10Queue.nextIndex v.queue.outhead)).payload with
          ⟨hr, hgap⟩ | ⟨hr, hrefused⟩
        · rw [if_neg (by rw [hr]; decide)] at hv
          exact absurd hv (not_due_of_gap hgap submitted clock)
        · rw [if_pos hr]
          exact Or.inr hrefused
    next hidle =>
      rw [if_neg hidle]
      exact Or.inl (Bool.eq_false_iff.mpr hidle)
  rw [ackTimeout] at hdue ⊢
  let v : Usb := { u with io := { u.io with
    x10AckTimedOut := true
    usbAckTimeoutCount := u.io.usbAckTimeoutCount + 1 } }
  have hv : Ended v.io := h
  show (v.maybeFinishX10Transmit env).Released
  have hdue' : (v.maybeFinishX10Transmit env).Due submitted clock := hdue
  rw [maybeFinishX10Transmit] at hdue' ⊢
  split at hdue'
  next hopen =>
    -- the transfer of a packet that is due has ended
    have hended : v.io.intrOutCompleted = true := hv _ hdue'.2.1
    rw [hended] at hopen
    cases hopen
  next hended =>
    rw [if_neg hended]
    split at hdue'
    next hcm =>
      rw [if_pos hcm]
      exact hrelease v hdue'
    next hcm =>
      rw [if_neg hcm]
      split at hdue'
      next hnot => simp [v] at hnot
      next hack =>
        rw [if_neg hack]
        exact hrelease v hdue'

/-! ### What a packet is released for -/

/-- **What a packet is released for**, where a timeout has been counted for the first `n`
packets. -/
def Cause (env : Env) (n : ℕ) (h : List UsbEvent) : Prop :=
  env.cm19a = true ∨ ackEvent ∈ sinceSubmit h ∨ n = submissions h

/-- The flags say what has happened since the last packet, until it is released. -/
structure Tracked (env : Env) (n : ℕ) (u : Usb) : Prop where
  bound : n ≤ submissions u.io.history
  cause : Submitted u.io.history → u.Released → Cause env n u.io.history
  ack : ¬u.Released → u.io.x10AckReceived = true → ackEvent ∈ sinceSubmit u.io.history
  timedOut : ¬u.Released → (u.io.x10AckTimedOut = true ↔ n = submissions u.io.history)

/-- **A packet whose transfer has completed waits** for no more than an acknowledgement or a
timeout. -/
structure Awaits (env : Env) (n : ℕ) (u : Usb) : Prop extends Tracked env n u where
  waits : ¬u.Released → .outDone .completed ∈ sinceSubmit u.io.history →
    env.cm19a = false ∧ n ≠ submissions u.io.history

variable {n : ℕ}

theorem initial_awaits (env : Env) : initial.Awaits env 0 where
  bound := Nat.le_refl 0
  cause := fun h => absurd h (by decide)
  ack := fun h => absurd (Or.inl rfl) h
  timedOut := fun h => absurd (Or.inl rfl) h
  waits := fun h => absurd (Or.inl rfl) h

/-- **A packet that is due has been released** by its kind of controller, or by a timeout. -/
theorem Awaits.released_iff (h : u.Awaits env n) {submitted clock : ℕ}
    (hdue : u.Due submitted clock) :
    u.Released ↔ env.cm19a = true ∨ n = submissions u.io.history := by
  obtain ⟨hsubmitted, hdone, hnone, _⟩ := hdue
  constructor
  · intro hr
    rcases h.cause hsubmitted hr with hcm | hack | htime
    · exact Or.inl hcm
    · exact absurd hack hnone
    · exact Or.inr htime
  · intro hcause
    by_contra hr
    obtain ⟨hcm, htime⟩ := h.waits hr hdone
    rcases hcause with hcause | hcause
    · rw [hcm] at hcause
      cases hcause
    · exact htime hcause

theorem Cause.append {h es : List UsbEvent} (hc : Cause env n h)
    (hes : ∀ e ∈ es, e.isOutSubmit = false) : Cause env n (es ++ h) := by
  rw [Cause, submissions_append_of_not hes, sinceSubmit, Trace.gap_append_of_not hes]
  exact hc.imp_right (Or.imp_left (List.mem_append_right _))

/-- A packet that has been released stays so. -/
theorem awaits_of_released (hb : n ≤ submissions u.io.history) (hr : u.Released)
    (hc : Submitted u.io.history → Cause env n u.io.history) : u.Awaits env n where
  bound := hb
  cause := fun hs _ => hc hs
  ack := fun h => absurd hr h
  timedOut := fun h => absurd hr h
  waits := fun h => absurd hr h

/-- Events that are neither packets nor refusals of one. -/
theorem released_append {es : List UsbEvent}
    (hes : ∀ e ∈ es, e.isOutSubmit = false ∧ e.isRefusal = false)
    (hb : u'.queue.outbusy = u.queue.outbusy) (hh : u'.io.history = es ++ u.io.history) :
    u'.Released ↔ u.Released := by
  rw [Released, Released, hb, hh, sinceSubmit, Trace.gap_append_of_not fun e he => (hes e he).1]
  refine or_congr Iff.rfl ⟨?_, ?_⟩
  · rintro ⟨e, he, hr⟩
    rcases List.mem_append.mp he with he | he
    · rw [(hes e he).2] at hr
      cases hr
    · exact ⟨e, he, hr⟩
  · rintro ⟨e, he, hr⟩
    exact ⟨e, List.mem_append_right _ he, hr⟩

theorem Tracked.append (h : u.Tracked env n) (es : List UsbEvent)
    (hes : ∀ e ∈ es, e.isOutSubmit = false ∧ e.isRefusal = false)
    (hb : u'.queue.outbusy = u.queue.outbusy)
    (ha : u'.io.x10AckReceived = true → u.io.x10AckReceived = true ∨ ackEvent ∈ es)
    (ht : u'.io.x10AckTimedOut = u.io.x10AckTimedOut)
    (hh : u'.io.history = es ++ u.io.history) : u'.Tracked env n := by
  have hsame : ∀ e ∈ es, e.isOutSubmit = false := fun e he => (hes e he).1
  have hreleased : u'.Released ↔ u.Released := released_append hes hb hh
  have hcount : submissions u'.io.history = submissions u.io.history := by
    rw [hh, submissions_append_of_not hsame]
  refine ⟨by rw [hcount]; exact h.bound, fun hs hr => ?_, fun hr hack => ?_, fun hr => ?_⟩
  · rw [hh] at hs ⊢
    exact (h.cause ((Trace.marked_append_of_not hsame).mp hs) (hreleased.mp hr)).append hsame
  · rw [hh, sinceSubmit, Trace.gap_append_of_not hsame]
    rcases ha hack with hack | hack
    · exact List.mem_append_right _ (h.ack (fun hu => hr (hreleased.mpr hu)) hack)
    · exact List.mem_append_left _ hack
  · rw [ht, hcount]
    exact h.timedOut fun hu => hr (hreleased.mpr hu)

theorem Awaits.append (h : u.Awaits env n) (es : List UsbEvent)
    (hes : ∀ e ∈ es, e.isOutSubmit = false ∧ e.isRefusal = false)
    (hdone : .outDone .completed ∉ es) (hb : u'.queue.outbusy = u.queue.outbusy)
    (ha : u'.io.x10AckReceived = u.io.x10AckReceived)
    (ht : u'.io.x10AckTimedOut = u.io.x10AckTimedOut)
    (hh : u'.io.history = es ++ u.io.history) : u'.Awaits env n := by
  have hsame : ∀ e ∈ es, e.isOutSubmit = false := fun e he => (hes e he).1
  refine ⟨h.toTracked.append es hes hb (fun hack => Or.inl (ha ▸ hack)) ht hh, ?_⟩
  intro hr hmem
  rw [hh, sinceSubmit, Trace.gap_append_of_not hsame] at hmem
  rw [hh, submissions_append_of_not hsame]
  refine h.waits (fun hu => hr ((released_append hes hb hh).mpr hu)) ?_
  exact (List.mem_append.mp hmem).resolve_left hdone

theorem Awaits.record (h : u.Awaits env n) {e : UsbEvent} (hs : e.isOutSubmit = false)
    (hr : e.isRefusal = false) (hd : e ≠ .outDone .completed) :
    Awaits env n ⟨u.queue, u.io.record e⟩ :=
  h.append [e] (by simpa using ⟨hs, hr⟩) (by simpa using hd.symm) rfl rfl rfl rfl

/-- **Writing a packet** when the last one may go: it is the last one now, or it is refused. -/
theorem writeUsb_awaits {t : Transfers} (buf : Bytes) {q : X10Queue}
    (hb : n ≤ submissions t.history) (hc : Submitted t.history → Cause env n t.history)
    (hq : (t.writeUsb env buf).2 = 0 → q.outbusy = true) :
    Awaits env n ⟨q, (t.writeUsb env buf).1⟩ := by
  obtain ⟨es, hes, ⟨hr, hh, ha, ht⟩ | ⟨_, hh, e, he, href⟩⟩ := writeUsb_history env t buf
  · have hgap : sinceSubmit (t.writeUsb env buf).1.history = [] := by
      rw [hh]
      exact Trace.gap_cons_mark rfl
    have hcount : submissions (t.writeUsb env buf).1.history = submissions t.history + 1 := by
      rw [hh, submissions, List.countP_cons_of_pos rfl]
      exact congrArg (· + 1) (submissions_append_of_not hes)
    have hnot : ¬Released ⟨q, (t.writeUsb env buf).1⟩ := by
      rintro (hidle | ⟨e, he, _⟩)
      · rw [show q.outbusy = true from hq hr] at hidle
        cases hidle
      · rw [hgap] at he
        cases he
    refine ⟨⟨?_, fun _ hrel => absurd hrel hnot, fun _ hack => ?_, fun _ => ?_⟩, fun _ hmem => ?_⟩
    · show n ≤ submissions (t.writeUsb env buf).1.history
      omega
    · rw [show (t.writeUsb env buf).1.x10AckReceived = true from hack] at ha
      cases ha
    · refine iff_of_false (fun htime => ?_) ?_
      · rw [show (t.writeUsb env buf).1.x10AckTimedOut = true from htime] at ht
        cases ht
      · show n ≠ submissions (t.writeUsb env buf).1.history
        omega
    · rw [hgap] at hmem
      cases hmem
  · have hgap : sinceSubmit (t.writeUsb env buf).1.history = es ++ sinceSubmit t.history := by
      rw [hh, sinceSubmit, Trace.gap_append_of_not hes]
    refine awaits_of_released ?_ (Or.inr ⟨e, ?_, href⟩) fun hs => ?_
    · show n ≤ submissions (t.writeUsb env buf).1.history
      rw [hh, submissions_append_of_not hes]
      exact hb
    · rw [hgap]
      exact List.mem_append_left _ he
    · have hs' : Submitted (t.writeUsb env buf).1.history := hs
      show Cause env n (t.writeUsb env buf).1.history
      rw [hh] at hs' ⊢
      exact (hc ((Trace.marked_append_of_not hes).mp hs')).append hes

theorem x10Write_awaits (h : u.Awaits env n) (buf : Bytes) :
    (u.x10Write env buf).1.Awaits env n := by
  simp only [x10Write, X10Queue.x10Write]
  split
  · exact h
  split
  · have hadd : (u.queue.addX10out buf).1.outbusy = u.queue.outbusy := by
      simp only [X10Queue.addX10out]
      split
      · rfl
      split
      · rfl
      · rfl
    exact h.append [] (by simp) (by simp) hadd rfl rfl rfl
  next hidle =>
    have hc : Submitted u.io.history → Cause env n u.io.history := fun hs =>
      h.cause hs (Or.inl (Bool.eq_false_iff.mpr hidle))
    split
    next hr => exact writeUsb_awaits buf h.bound hc fun h0 => absurd hr (by rw [h0]; decide)
    · exact writeUsb_awaits buf h.bound hc fun _ => rfl

theorem Writes.awaits (hw : u.Writes env u') (h : u.Awaits env n) : u'.Awaits env n := by
  induction hw with
  | refl => exact h
  | tail _ hb ih =>
    obtain ⟨buf, rfl⟩ := hb
    exact x10Write_awaits ih buf

/-- **Releasing the next packet.** -/
theorem release_awaits (hb : n ≤ submissions u.io.history)
    (hc : Submitted u.io.history → Cause env n u.io.history) : (u.release env).Awaits env n := by
  simp only [release, sendNextX10out, X10Queue.sendNextX10out]
  split
  next hbusy =>
    split
    · exact awaits_of_released hb (Or.inl rfl) hc
    split
    · exact writeUsb_awaits (t := u.io.spent) _ hb hc fun _ => hbusy
    · exact writeUsb_awaits (t := u.io.spent) _ hb hc fun _ => hbusy
  next hidle => exact awaits_of_released hb (Or.inl (Bool.eq_false_iff.mpr hidle)) hc

/-- **`maybe_finish_x10_transmit`** leaves no packet that may go. -/
theorem maybeFinish_awaits (h : u.Tracked env n) (hended : Ended u.io) :
    (u.maybeFinishX10Transmit env).Awaits env n := by
  rw [maybeFinishX10Transmit]
  split
  next hopen =>
    refine ⟨h, fun _ hmem => ?_⟩
    rw [hended _ hmem] at hopen
    cases hopen
  split
  next hcm => exact release_awaits h.bound fun _ => Or.inl hcm
  next hcm =>
    split
    next hflags =>
      simp only [Bool.and_eq_true, Bool.not_eq_true'] at hflags
      refine ⟨h, fun hr _ => ⟨Bool.eq_false_iff.mpr hcm, fun htime => ?_⟩⟩
      rw [(h.timedOut hr).mpr htime] at hflags
      cases hflags.2
    next hflags =>
      refine release_awaits h.bound fun hs => ?_
      by_cases hr : u.Released
      · exact h.cause hs hr
      · cases hack : u.io.x10AckReceived with
        | true => exact Or.inr (Or.inl (h.ack hr hack))
        | false =>
          refine Or.inr (Or.inr ((h.timedOut hr).mp ?_))
          simpa [hack] using hflags

/-- **A timeout** is counted for every packet so far. -/
theorem ackTimeout_awaits (h : u.Awaits env n) (hended : Ended u.io) :
    (u.ackTimeout env).Awaits env (submissions u.io.history) := by
  refine maybeFinish_awaits ?_ hended
  exact ⟨Nat.le_refl _, fun _ _ => Or.inr (Or.inr rfl), fun hr hack => h.ack hr hack,
    fun _ => iff_of_true rfl rfl⟩

theorem intrOutCb_awaits (h : u.Awaits env n) (status : TransferStatus) :
    (u.intrOutCb env status).Awaits env n := by
  have hes : ∀ e ∈ [UsbEvent.outDone status], e.isOutSubmit = false ∧ e.isRefusal = false := by
    simp [UsbEvent.isOutSubmit, UsbEvent.isRefusal]
  cases status with
  | completed =>
    refine maybeFinish_awaits ?_ (ended_of_completed rfl)
    exact h.toTracked.append [.outDone .completed] hes rfl Or.inl rfl rfl
  | cancelled | error | timedOut | stall | noDevice | overflow =>
    exact h.append [.outDone _] hes (by simp) rfl rfl rfl rfl

theorem intrInBegin_awaits (h : u.Awaits env n) (hended : Ended u.io) (status : TransferStatus)
    (data : Bytes) : (u.intrInBegin env status data).Awaits env n := by
  have hes : ∀ e ∈ [UsbEvent.inDone status data], e.isOutSubmit = false ∧ e.isRefusal = false := by
    simp [UsbEvent.isOutSubmit, UsbEvent.isRefusal]
  have hother : ∀ v : Usb, v.queue.outbusy = u.queue.outbusy →
      v.io.x10AckReceived = u.io.x10AckReceived → v.io.x10AckTimedOut = u.io.x10AckTimedOut →
      v.io.history = .inDone status data :: u.io.history → v.Awaits env n := fun v hb ha ht hh =>
    h.append [.inDone status data] hes (by simp) hb ha ht hh
  cases status with
  | completed =>
    simp only [intrInBegin]
    split
    next hdata =>
      refine maybeFinish_awaits ?_ (hended.cons rfl rfl rfl (by rintro _ ⟨⟩))
      exact h.toTracked.append [.inDone .completed data] hes rfl
        (fun _ => Or.inr (by rw [hdata]; exact List.mem_cons_self)) rfl rfl
    split
    · exact hother _ rfl rfl rfl rfl
    · exact hother _ rfl rfl rfl rfl
  | cancelled | error | timedOut | stall | noDevice | overflow => exact hother _ rfl rfl rfl rfl

theorem submitIn_awaits {q : X10Queue} {t : Transfers} (h : Awaits env n ⟨q, t⟩) :
    Awaits env n ⟨q, (t.submitIn env).1⟩ := by
  simp only [Transfers.submitIn]
  split
  · exact h.append [.inSubmit false] (by simp [UsbEvent.isOutSubmit, UsbEvent.isRefusal])
      (by simp) rfl rfl rfl rfl
  · exact h.append [.inSubmit true] (by simp [UsbEvent.isOutSubmit, UsbEvent.isRefusal])
      (by simp) rfl rfl rfl rfl

/-- The flags of the output and the history are all that counts. -/
theorem Awaits.of_flags (h : u.Awaits env n) (hb : u'.queue.outbusy = u.queue.outbusy)
    (ha : u'.io.x10AckReceived = u.io.x10AckReceived)
    (ht : u'.io.x10AckTimedOut = u.io.x10AckTimedOut) (hh : u'.io.history = u.io.history) :
    u'.Awaits env n := h.append [] (by simp) (by simp) hb ha ht hh

theorem intrInEnd_awaits (h : u.Awaits env n) (signal : Bool) :
    (u.intrInEnd env signal).Awaits env n := by
  have hsignal : Awaits env n
      ⟨u.queue, if signal then { u.io with doExit := 1 } else u.io⟩ := by
    split
    · exact h.of_flags rfl rfl rfl rfl
    · exact h
  simp only [intrInEnd]
  generalize (if signal then { u.io with doExit := 1 } else u.io : Transfers) = t at hsignal ⊢
  split
  · exact hsignal
  split
  · exact (submitIn_awaits hsignal).of_flags rfl rfl rfl rfl
  · exact submitIn_awaits hsignal

theorem startTransfers_awaits (h : u.Awaits env n) :
    Awaits env n ⟨u.queue, (u.io.startTransfers env).1⟩ := by
  simp only [Transfers.startTransfers]
  split
  · exact h
  split
  · exact submitIn_awaits h
  · exact (submitIn_awaits (q := u.queue) h).of_flags rfl rfl rfl rfl

end Usb

/-- **What an observer with a clock keeps**: its last reading, the reading at which the last packet
was submitted, for how many packets a timeout has been counted, and the readings of the iterations
that ended too late. -/
structure AckWatch where
  clock : ℕ
  submitted : ℕ
  counted : ℕ
  missed : List ℕ

namespace AckWatch

/-- The clock is read when `poll()` returns. -/
def read (w : AckWatch) (a : Label × ℕ) : ℕ :=
  match a.1 with
  | .pollReturned _ _ => a.2
  | .pollInterrupted => a.2
  | _ => w.clock

/-- A timeout is counted for every packet that was submitted before the end of the iteration. -/
def count (w : AckWatch) (d : Daemon) : Label → ℕ
  | .handled => if d.timedOut then submissions d.usb.io.history else w.counted
  | _ => w.counted

/-- At startup. -/
def initial : AckWatch := ⟨0, 0, 0, []⟩

end AckWatch

namespace Daemon

variable {env : Env} {d d' : Daemon}

theorem ended_step (h : Usb.Ended d.usb.io) (ht : d.Tables env) {label : Label}
    (hs : d.step env label = some d') : Usb.Ended d'.usb.io := by
  rcases usb_kind ht hs with ⟨hw, _⟩ | ⟨n, es, _, hes, heq, _⟩ | ⟨_, _, _, _, heq⟩ |
    ⟨_, _, _, _, heq⟩ | ⟨_, _, _, nready, _, _, hw⟩ | ⟨_, heq, _⟩ | ⟨status, _, _, _, _, heq, _⟩ |
    ⟨status, data, _, _, _, _, _, hcase⟩ | ⟨_, _, _, _, heq⟩ | ⟨_, _, _, _, _, _, _, heq⟩ |
    ⟨io, _, _, hsame, _, _, heq⟩
  · exact hw.ended h
  · rw [heq]
    rcases hes with rfl | rfl
    · exact h
    · exact h.cons rfl rfl rfl nofun
  · rw [heq]
    exact h.record rfl nofun
  · rw [heq]
    exact h.record rfl nofun
  · exact hw.ended (h.record rfl nofun)
  · rw [heq]
    exact Usb.ended_startTransfers h
  · rw [heq]
    exact Usb.ended_intrOutCb env d.usb status
  · have hbegin : Usb.Ended (d.usb.intrInBegin env status data).io :=
      Usb.ended_intrInBegin h status data
    rcases hcase with ⟨_, u, signal, hw, heq⟩ | ⟨_, heq⟩
    · rw [heq]
      exact Usb.ended_intrInEnd (hw.ended hbegin) signal
    · rw [heq]
      exact hbegin
  · rw [heq]
    exact Usb.ended_maybeFinish h
  · rw [heq]
    exact h
  · simp only [outSide, Prod.mk.injEq] at hsame
    obtain ⟨_, ⟨hc, _⟩, hh⟩ := hsame
    rw [heq]
    intro status hmem
    exact hc.trans (h status (hh ▸ hmem))

/-- **In every reachable state a transfer that has ended is known to be completed.** -/
theorem Reachable.ended (h : Reachable env d) : Usb.Ended d.usb.io := by
  induction h with
  | refl => exact fun _ hmem => nomatch hmem
  | tail hu hst ih =>
    obtain ⟨label, _, hs⟩ := hst
    exact ended_step ih (Reachable.tables hu) hs

/-! ### The end of an iteration -/

/-- The step leads from within an iteration to the head of the loop. -/
def endsIteration (d d' : Daemon) : Bool :=
  d.pc.iterating && match d'.pc with
    | .top => true
    | _ => false

theorem endsIteration_iff : endsIteration d d' = true ↔ d.pc.iterating = true ∧ d'.pc = .top := by
  rw [endsIteration, Bool.and_eq_true]
  refine and_congr Iff.rfl ?_
  split
  next hpc => exact iff_of_true rfl hpc
  next hpc => exact iff_of_false nofun hpc

theorem timedOut_iff : d.timedOut = true ↔ ∃ snap, d.pc = .events snap 0 := by
  rw [timedOut]
  split
  next snap nready hpc =>
    rw [decide_eq_true_eq, hpc]
    constructor
    · rintro rfl
      exact ⟨snap, rfl⟩
    · rintro ⟨_, heq⟩
      exact (Pc.events.inj heq).2
  next hne => exact iff_of_false (by rintro ⟨⟩) fun hpc => hpc.elim fun snap hpc => hne snap 0 hpc

/-- **An iteration ends** with the timeout, if `poll()` timed out; otherwise the transfers are as
they were, but for packets that were written, and for the record of an interrupted call. -/
theorem usb_of_endsIteration (ht : d.Tables env) {label : Label}
    (hs : d.step env label = some d') (hend : endsIteration d d' = true) :
    (d.timedOut = true ∧ d'.usb = d.usb.ackTimeout env) ∨
      (d.timedOut = false ∧ (d.usb.Writes env d'.usb ∨
        d'.usb = ⟨d.usb.queue, d.usb.io.record (.pollReturned (-1))⟩)) := by
  obtain ⟨hit, htop⟩ := endsIteration_iff.mp hend
  have hne : d'.pc ≠ d.pc := by
    intro heq
    rw [← heq, htop] at hit
    cases hit
  by_cases htimed : d.timedOut = true
  · obtain ⟨snap, hpc⟩ := timedOut_iff.mp htimed
    refine Or.inl ⟨htimed, ?_⟩
    have hother : ∀ {q : Pc}, d.pc = q → q ≠ .events snap 0 → d'.usb = d.usb.ackTimeout env :=
      fun hq hne => absurd (hq.symm.trans hpc) hne
    rcases step_flow ht hs with ⟨_, heq, _⟩ | ⟨_, _, _, _, hq, _⟩ | ⟨_, _, _, rfl⟩ |
      ⟨_, _, _, rfl⟩ | ⟨_, _, _, rfl⟩ | ⟨_, _, rfl⟩ | ⟨hq | ⟨_, _, hq⟩, _⟩ | ⟨_, hq, _⟩ |
      ⟨_, _, _, hq, _⟩ | ⟨snap', nready, hq, rfl⟩ | ⟨_, _, _, _, _, _, hq, _⟩ | ⟨_, _, _, hq, _⟩ |
      ⟨_, _, _, hq, _⟩ | ⟨_, _, _, _, hq, _⟩ | ⟨_, hq, _⟩ | ⟨_, _, hq, _⟩
    · exact absurd heq hne
    · exact hother hq nofun
    · exact absurd rfl hne
    · exact absurd rfl hne
    · exact absurd rfl hne
    · exact absurd rfl hne
    · rw [hpc] at hq
      cases hq
    · exact hother hq nofun
    · exact hother hq nofun
    · exact hother hq nofun
    · rw [hpc] at hq
      obtain ⟨rfl, rfl⟩ := Pc.events.inj hq
      rfl
    · exact hother hq nofun
    · exact hother hq nofun
    · exact hother hq nofun
    · exact hother hq nofun
    · exact hother hq nofun
    · exact hother hq nofun
  · refine Or.inr ⟨Bool.eq_false_iff.mpr htimed, ?_⟩
    rcases usb_kind ht hs with ⟨hw, _⟩ | ⟨n, es, _, hes, heq, hpc | hpc⟩ | ⟨_, _, hpc, hpc', _⟩ |
      ⟨_, _, _, _, heq⟩ | ⟨_, _, _, nready, _, hpc, _⟩ | ⟨hpc, _⟩ | ⟨_, _, _, _, _, _, hpc⟩ |
      ⟨_, _, _, _, _, _, hpc, _⟩ | ⟨_, _, hpc, _⟩ | ⟨_, _, _, _, hpc, _⟩ | ⟨_, _, hpc', _⟩
    · exact Or.inl hw
    · exact absurd hpc.2 hne
    · rw [htop] at hpc
      exact nomatch hpc.2.2
    · rw [htop] at hpc'
      cases hpc'
    · exact Or.inr heq
    · rw [htop] at hpc
      cases hpc
    · rw [hpc] at hit
      cases hit
    · exact absurd hpc hne
    · exact absurd hpc hne
    · rw [timedOut, hpc] at htimed
      exact absurd rfl htimed
    · rw [hpc] at hit
      cases hit
    · rw [htop] at hpc'
      rcases hpc' with hpc' | hpc'
      · cases hpc'
      · cases hpc'

/-! ### The clock -/

/-- The machine with a clock, in milliseconds. Nothing in it depends on the clock. -/
def timedStep (env : Env) (d : Daemon) (a : Label × ℕ) : Option Daemon := d.step env a.1

theorem reachable_of_timed {ok : Daemon → Label × ℕ → Prop}
    (h : Transition.Run (timedStep env) ok (initial env) d) : Reachable env d := by
  induction h with
  | refl => exact Relation.ReflTransGen.refl
  | tail _ hst ih =>
    obtain ⟨a, _, ha⟩ := hst
    exact ih.tail ⟨a.1, trivial, ha⟩

/-- A packet was submitted in a step. -/
def submits (d d' : Daemon) : Bool :=
  (d'.usb.io.history.take (d'.usb.io.history.length - d.usb.io.history.length)).any
    UsbEvent.isOutSubmit

/-- **The observer.** It notes an iteration that ends while the last packet is due and has not been
released. -/
def observeAck (d : Daemon) (a : Label × ℕ) (d' : Daemon) (w : AckWatch) : AckWatch :=
  let clock := w.read a
  let submitted := if d.submits d' then clock else w.submitted
  { clock := clock
    submitted := submitted
    counted := w.count d a.1
    missed := if d.endsIteration d' = true ∧ d'.usb.Due submitted clock ∧ ¬d'.usb.Released
      then clock :: w.missed else w.missed }

/-- **No iteration that finds a packet due is woken**, unless a timeout has been counted since the
packet was submitted: the `poll()` of the iteration returned 0, or that of an earlier one did. For a
CM19A nothing is waited for. -/
def WokenInTime (env : Env) (p : Daemon × AckWatch) (a : Label × ℕ) : Prop :=
  ∀ d', p.1.step env a.1 = some d' → p.1.endsIteration d' = true →
    p.1.usb.Due p.2.submitted (p.2.read a) →
      p.1.timedOut = true ∨ env.cm19a = true ∨ p.2.counted = submissions p.1.usb.io.history

theorem submits_eq_false (es : List UsbEvent) (h : d'.usb.io.history = es ++ d.usb.io.history)
    (hes : ∀ e ∈ es, e.isOutSubmit = false) : d.submits d' = false := by
  rw [submits, h, List.length_append, Nat.add_sub_cancel, List.take_left, List.any_eq_false]
  exact fun e he => by simp [hes e he]

/-- **What a packet is released for is kept by every step.** -/
theorem awaits_step {n : ℕ} (h : Usb.Awaits env n d.usb) (hended : Usb.Ended d.usb.io)
    (ht : d.Tables env) {label : Label} (hs : d.step env label = some d')
    (hlabel : label = .handled → d.timedOut = false) : Usb.Awaits env n d'.usb := by
  rcases usb_kind ht hs with ⟨hw, _⟩ | ⟨_, es, _, hes, heq, _⟩ | ⟨_, _, _, _, heq⟩ |
    ⟨_, _, _, _, heq⟩ | ⟨_, _, _, nready, _, _, hw⟩ | ⟨_, heq, _⟩ | ⟨status, _, _, _, _, heq, _⟩ |
    ⟨status, data, _, _, _, _, _, hcase⟩ | ⟨_, rfl, hpc, _, _⟩ | ⟨_, _, _, _, _, _, _, heq⟩ |
    ⟨io, _, _, hsame, _, _, heq⟩
  · exact hw.awaits h
  · rw [heq]
    rcases hes with rfl | rfl
    · exact h.of_flags rfl rfl rfl rfl
    · exact h.append [.pollReturned (-1)]
        (by simp [UsbEvent.isOutSubmit, UsbEvent.isRefusal]) (by simp) rfl rfl rfl rfl
  · rw [heq]
    exact h.record rfl rfl (by rintro ⟨⟩)
  · rw [heq]
    exact h.record rfl rfl (by rintro ⟨⟩)
  · exact hw.awaits (h.record rfl rfl (by rintro ⟨⟩))
  · rw [heq]
    exact Usb.startTransfers_awaits h
  · rw [heq]
    exact Usb.intrOutCb_awaits h status
  · have hbegin : (d.usb.intrInBegin env status data).Awaits env n :=
      Usb.intrInBegin_awaits h hended status data
    rcases hcase with ⟨_, u, signal, hw, heq⟩ | ⟨_, heq⟩
    · rw [heq]
      exact Usb.intrInEnd_awaits (hw.awaits hbegin) signal
    · rw [heq]
      exact hbegin
  · rw [timedOut, hpc] at hlabel
    exact absurd (hlabel rfl) (by simp)
  · rw [heq]
    exact h
  · simp only [outSide, Prod.mk.injEq] at hsame
    obtain ⟨_, ⟨_, _, ha, htime⟩, hh⟩ := hsame
    rw [heq]
    exact h.of_flags rfl ha htime hh

/-- **The observer counts the timeouts that the daemon counts.** -/
theorem awaits_observed {w : AckWatch} (h : Usb.Awaits env w.counted d.usb)
    (hended : Usb.Ended d.usb.io) (ht : d.Tables env) {a : Label × ℕ}
    (hs : d.step env a.1 = some d') :
    Usb.Awaits env (observeAck d a d' w).counted d'.usb := by
  show Usb.Awaits env (w.count d a.1) d'.usb
  by_cases htimeout : a.1 = .handled ∧ d.timedOut = true
  · obtain ⟨hlabel, htimed⟩ := htimeout
    obtain ⟨snap, hpc⟩ := timedOut_iff.mp htimed
    have hcount : w.count d a.1 = submissions d.usb.io.history := by
      rw [hlabel, AckWatch.count, if_pos htimed]
    simp only [hlabel, step, hpc, doHandled, if_true] at hs
    obtain rfl := Option.some.inj hs
    rw [hcount]
    exact Usb.ackTimeout_awaits h hended
  · have hnot : a.1 = .handled → d.timedOut = false := fun hlabel =>
      Bool.eq_false_iff.mpr fun htimed => htimeout ⟨hlabel, htimed⟩
    have hcount : w.count d a.1 = w.counted := by
      unfold AckWatch.count
      split
      next hlabel => rw [hnot hlabel, if_neg Bool.false_ne_true]
      · rfl
    rw [hcount]
    exact awaits_step h hended ht hs hnot

/-- **In every run of the observed daemon** a packet is released for what the observer knows. -/
theorem awaits_run {p : Daemon × AckWatch}
    (h : Transition.Run (Transition.watch (timedStep env) observeAck) Transition.Free
      (initial env, .initial) p) : Usb.Awaits env p.2.counted p.1.usb := by
  induction h with
  | refl => exact Usb.initial_awaits env
  | tail hu hst ih =>
    obtain ⟨a, _, ha⟩ := hst
    obtain ⟨hstep, hobs⟩ := Transition.watch_eq_some.mp ha
    have hreach : Reachable env _ := reachable_of_timed (Transition.Run.unwatched hu)
    rw [hobs]
    exact awaits_observed ih hreach.ended hreach.tables hstep

/-- **An iteration is noted** just when it is woken although a packet is due, and no timeout has been
counted for the packet. -/
theorem observeAck_missed (ht : d.Tables env) (hended : Usb.Ended d.usb.io) {w : AckWatch}
    (hawaits : Usb.Awaits env w.counted d.usb) {a : Label × ℕ} (hs : d.step env a.1 = some d') :
    (observeAck d a d' w).missed = [] ↔ w.missed = [] ∧ WokenInTime env (d, w) a := by
  have hguard : WokenInTime env (d, w) a ↔ (d.endsIteration d' = true → d.timedOut = false →
      d.usb.Due w.submitted (w.read a) → d.usb.Released) := by
    constructor
    · intro h hend hnot hdue
      rcases h d' hs hend hdue with htimed | hcause
      · rw [hnot] at htimed
        cases htimed
      · exact (hawaits.released_iff hdue).mpr hcause
    · intro h d'' hs' hend hdue
      obtain rfl := Option.some.inj (hs.symm.trans hs')
      cases htimed : d.timedOut with
      | true => exact Or.inl rfl
      | false => exact Or.inr ((hawaits.released_iff hdue).mp (h hend htimed hdue))
  have hmissed : (observeAck d a d' w).missed = [] ↔ w.missed = [] ∧
      (d.endsIteration d' = true →
        d'.usb.Due (if d.submits d' then w.read a else w.submitted) (w.read a) →
          d'.usb.Released) := by
    simp only [observeAck]
    generalize (if d.submits d' then w.read a else w.submitted) = submitted
    split
    next h => exact iff_of_false (by rintro ⟨⟩) fun hr => h.2.2 (hr.2 h.1 h.2.1)
    next h =>
      refine (and_iff_left fun hend hdue => ?_).symm
      by_contra hnot
      exact h ⟨hend, hdue, hnot⟩
  rw [hmissed, hguard]
  refine and_congr Iff.rfl (forall_congr' fun hend => ?_)
  rcases usb_of_endsIteration ht hs hend with ⟨htimed, heq⟩ | ⟨hnot, hw | heq⟩
  · -- the timeout has released the packet
    rw [heq]
    exact iff_of_true (Usb.released_of_ackTimeout hended) fun h => by simp [htimed] at h
  · rcases hw.waits with ⟨hhist, hbusy⟩ | ⟨hidle, hcase⟩
    · have hsubmits : d.submits d' = false := submits_eq_false [] hhist (by simp)
      have hdue : ∀ s c, d'.usb.Due s c ↔ d.usb.Due s c := fun s c => by
        rw [Usb.Due, Usb.Due, hhist]
      have hreleased : d'.usb.Released ↔ d.usb.Released := by
        rw [Usb.Released, Usb.Released, hhist, hbusy]
      rw [hsubmits, if_neg Bool.false_ne_true, hdue, hreleased]
      exact ⟨fun h _ => h, fun h => h hnot⟩
    · refine iff_of_true (fun hdue => ?_) fun _ _ => Or.inl hidle
      rcases hcase with hgap | hidle'
      · exact absurd hdue (Usb.not_due_of_gap hgap _ _)
      · exact Or.inl hidle'
  · have hsubmits : d.submits d' = false :=
      submits_eq_false [.pollReturned (-1)] (by rw [heq]; rfl) (by simp [UsbEvent.isOutSubmit])
    obtain ⟨hdue, hreleased⟩ := Usb.due_record (u := d.usb) (e := .pollReturned (-1)) rfl rfl
      (by rintro ⟨⟩) (by rintro ⟨⟩) w.submitted (w.read a)
    rw [hsubmits, if_neg Bool.false_ne_true, heq, hdue, hreleased]
    exact ⟨fun h _ => h, fun h => h hnot⟩

/-- **The acknowledgement timeout is a deadline if the loop is not woken too often.** The states
that are reached with no iteration ending while the last packet is due and has not been released
are those that are reached with every iteration that finds a packet due timed out, or after one that
was. -/
theorem released_in_time_iff (p : Daemon × AckWatch) :
    Transition.Run (Transition.watch (timedStep env) observeAck) (WokenInTime env)
      (initial env, .initial) p ↔
    Transition.Run (Transition.watch (timedStep env) observeAck) Transition.Free
      (initial env, .initial) p ∧ p.2.missed = [] := by
  refine Transition.run_iff_clean (fun w : AckWatch => w.missed = []) rfl fun u a v hu hs => ?_
  obtain ⟨hstep, hobs⟩ := Transition.watch_eq_some.mp hs
  have hreach : Reachable env u.1 := reachable_of_timed (Transition.Run.unwatched hu)
  rw [hobs]
  exact observeAck_missed hreach.tables hreach.ended (awaits_run hu) hstep

/-- The main listener wakes `poll()` at a reading of the clock, and `accept()` fails. -/
def wokenPoll (clock : ℕ) : List (Label × ℕ) :=
  [(.layOut none, clock), (.pollReturned [⟨true, false, false, false⟩, .none, .none] 0, clock),
    (.handled, clock), (.acceptFailed, clock)]

/-- **A packet is not released in time.** It answers the controller at time 0, and the listener
wakes `poll()` every 1.5 seconds. -/
theorem released_too_late : ¬ ∀ env p,
    Transition.Run (Transition.watch (timedStep env) observeAck) Transition.Free
      (initial env, .initial) p → p.2.missed = [] := by
  intro hall
  obtain ⟨p, hrun, hmissed⟩ : ∃ p, Transition.Run
      (Transition.watch (timedStep (.plain mochadConfigDefaults false)) observeAck) Transition.Free
      (initial (.plain mochadConfigDefaults false), .initial) p ∧ p.2.missed = [3000] :=
    Transition.exists_run_of_exec ((firstPoll .main ++ [clockRequest, .intrOut .completed, .handled,
      .acceptFailed]).map (·, 0) ++ wokenPoll 1500 ++ wokenPoll 3000) (by decide +kernel)
  rw [hall _ p hrun] at hmissed
  cases hmissed

end Daemon

end Mochad
