import Mochad.Usb.Transfers

/-!
# The flags agree

While the daemon runs, its flags say what is the case: the output transfer is marked
submitted exactly while libusb holds it, the queue is marked busy while anything is
under way, the timeout is armed exactly then, and an acknowledgement that has come is
not kept for a later packet. `Usb.Sound` is that invariant.

The functions involved call each other – a callback releases the next packet, whose
submission fails and leaves the flags to the next callback – but each of them ends in
`maybe_finish_x10_transmit` or in `x10_write`. So the invariant is split: `Usb.Base` is
the part that holds throughout, and `maybeFinish_sound` says that
`maybe_finish_x10_transmit` restores the rest.
-/

namespace Mochad

namespace UsbEvent

/-- A call of `libusb_submit_transfer` for the output transfer. -/
def isOutAttempt : UsbEvent → Bool
  | .outSubmit _ => true
  | .outSubmitFailed _ => true
  | _ => false

/-- Something that `write_usb` guards against. -/
def isOutFault : UsbEvent → Bool
  | .outUnavailable => true
  | .outBusy => true
  | .outTooLong => true
  | .outOverwritten => true
  | _ => false

end UsbEvent

/-- The last call of `libusb_submit_transfer` for the output transfer failed. -/
def LastAttemptFailed (h : List UsbEvent) : Prop :=
  ∃ buf, h.find? UsbEvent.isOutAttempt = some (.outSubmitFailed buf)

/-- Nothing that `write_usb` guards against has happened. -/
def NoFault (h : List UsbEvent) : Prop := ∀ e ∈ h, e.isOutFault = false

theorem noFault_cons {e : UsbEvent} {h : List UsbEvent} :
    NoFault (e :: h) ↔ e.isOutFault = false ∧ NoFault h := List.forall_mem_cons

namespace Usb

/-- **What holds of the output side throughout**, also inside a callback. -/
structure Base (u : Usb) : Prop where
  queue : u.queue.Ok
  short : ∀ buf ∈ u.queue.queued, buf.length ≤ outdataSize
  transfer : u.io.intrOutTransfer = true
  device : u.io.devh = true
  completed : u.io.intrOutCompleted = !u.io.intrOutSubmitted
  canceling : u.io.intrOutCanceling = false
  owned : u.io.outOwned = u.io.intrOutSubmitted
  cancelRequested : u.io.outCancelRequested = false
  busy : u.io.intrOutSubmitted = true → u.queue.outbusy = true
  noFault : NoFault u.io.history

/-- **What holds of the output side between callbacks.** -/
structure Sound (env : Env) (u : Usb) : Prop extends Base u where
  gate : env.cm19a = false → u.io.intrOutCompleted = true →
    u.io.x10AckReceived = false ∧ u.io.x10AckTimedOut = false
  inFlight : env.cm19a = true → u.queue.outbusy = true →
    u.io.intrOutSubmitted = true ∨ LastAttemptFailed u.io.history

/-- **What holds of the input side between callbacks**: the transfer is submitted, and
is not being cancelled. -/
structure Listening (u : Usb) : Prop where
  transfer : u.io.intrInTransfer = true
  submitted : u.io.intrInSubmitted = true
  canceling : u.io.intrInCanceling = false
  owned : u.io.inOwned = true
  cancelRequested : u.io.inCancelRequested = false

theorem initial_sound (env : Env) : initial.Sound env where
  queue := X10Queue.initial_ok
  short := by simp [initial, X10Queue.queued, X10Queue.count, X10Queue.initial]
  transfer := rfl
  device := rfl
  completed := rfl
  canceling := rfl
  owned := rfl
  cancelRequested := rfl
  busy := fun h => nomatch h
  noFault := by simp [NoFault, initial, Transfers.initial]
  gate := fun _ _ => ⟨rfl, rfl⟩
  inFlight := fun _ h => nomatch h

end Usb

/-! ### Submitting a packet -/

namespace Transfers

/-- The transfer can be submitted. -/
structure Idle (t : Transfers) : Prop where
  transfer : t.intrOutTransfer = true
  device : t.devh = true
  submitted : t.intrOutSubmitted = false
  canceling : t.intrOutCanceling = false
  owned : t.outOwned = false

/-- `write_usb` when the packet fits and the transfer is idle, up to what libusb
answers. -/
def armed (t : Transfers) (buf : Bytes) : Transfers :=
  { t with
    intrOutBuf := memcpy t.intrOutBuf buf
    intrOutCompleted := false
    x10AckReceived := false
    x10AckTimedOut := false
    submitOutCalls := t.submitOutCalls + 1 }

/-- libusb took the packet. -/
def submitted (t : Transfers) (buf : Bytes) : Transfers :=
  { t.armed buf with
    intrOutSubmitted := true
    intrOutCanceling := false
    outOwned := true
    outCancelRequested := false
    history := .outSubmit buf :: t.history }

/-- libusb refused the packet. -/
def failed (t : Transfers) (buf : Bytes) : Transfers :=
  { t.armed buf with
    intrOutCompleted := true
    history := .outSubmitFailed buf :: t.history }

/-- **`write_usb` from an idle transfer**: none of its guards applies. -/
theorem writeUsb_idle (env : Env) {t : Transfers} (h : t.Idle) {buf : Bytes}
    (hbuf : buf.length ≤ outdataSize) :
    (env.submitOut t.submitOutCalls < 0 ∧
        t.writeUsb env buf = (t.failed buf, env.submitOut t.submitOutCalls)) ∨
      (0 ≤ env.submitOut t.submitOutCalls ∧ t.writeUsb env buf = (t.submitted buf, 0)) := by
  have hlen : ¬8 < buf.length := Nat.not_lt.mpr hbuf
  have hval : t.writeUsb env buf = if env.submitOut t.submitOutCalls < 0 then
      (t.failed buf, env.submitOut t.submitOutCalls) else (t.submitted buf, 0) := by
    simp [writeUsb, failed, submitted, armed, h.transfer, h.device, h.submitted, h.canceling,
      h.owned, hlen]
  by_cases hr : env.submitOut t.submitOutCalls < 0
  · exact Or.inl ⟨hr, hval.trans (if_pos hr)⟩
  · exact Or.inr ⟨Int.not_lt.mp hr, hval.trans (if_neg hr)⟩

/-- The part of the state that only the input callback and the shutdown write. -/
def inSide (t : Transfers) : (Bool × Bool × Bool × Bool) × Bool × ℕ :=
  ((t.intrInSubmitted, t.intrInCanceling, t.inOwned, t.inCancelRequested), t.intrInTransfer,
    t.doExit)

theorem writeUsb_inSide (env : Env) (t : Transfers) (buf : Bytes) :
    (t.writeUsb env buf).1.inSide = t.inSide := by
  simp only [writeUsb]
  split
  · rfl
  split
  · rfl
  split
  · rfl
  split
  · rfl
  · rfl

end Transfers

namespace Usb

variable {env : Env} {u : Usb}

theorem Base.idle (h : u.Base) (hc : u.io.intrOutCompleted = true) : u.io.Idle := by
  have hsub : u.io.intrOutSubmitted = false := by
    have := h.completed
    rw [hc] at this
    simpa using this.symm
  exact ⟨h.transfer, h.device, hsub, h.canceling, h.owned.trans hsub⟩

/-- While the queue is idle, so is the transfer. -/
theorem Base.idle_of_outbusy (h : u.Base) (hb : u.queue.outbusy = false) : u.io.Idle := by
  refine h.idle ?_
  rw [h.completed]
  cases hs : u.io.intrOutSubmitted with
  | false => rfl
  | true => exact absurd (h.busy hs) (by simp [hb])

/-- A packet was submitted: it is under way, and no acknowledgement is left over. -/
theorem sound_of_submitted {q : X10Queue} (hq : q.Ok)
    (hshort : ∀ b ∈ q.queued, b.length ≤ outdataSize) (hbusy : q.outbusy = true) (h : u.Base) (buf : Bytes) :
    Sound env ⟨q, u.io.submitted buf⟩ where
  queue := hq
  short := hshort
  transfer := h.transfer
  device := h.device
  completed := rfl
  canceling := rfl
  owned := rfl
  cancelRequested := rfl
  busy := fun _ => hbusy
  noFault := noFault_cons.mpr ⟨rfl, h.noFault⟩
  gate := fun _ h => nomatch h
  inFlight := fun _ _ => Or.inl rfl

/-- A submission failed: nothing is under way, and no acknowledgement is left over. -/
theorem sound_of_failed {q : X10Queue} (hq : q.Ok)
    (hshort : ∀ b ∈ q.queued, b.length ≤ outdataSize) (h : u.Base) (hidle : u.io.Idle) (buf : Bytes) :
    Sound env ⟨q, u.io.failed buf⟩ where
  queue := hq
  short := hshort
  transfer := h.transfer
  device := h.device
  completed := (congrArg (! ·) hidle.submitted).symm
  canceling := h.canceling
  owned := h.owned
  cancelRequested := h.cancelRequested
  busy := fun hs => nomatch hidle.submitted.symm.trans hs
  noFault := noFault_cons.mpr ⟨rfl, h.noFault⟩
  gate := fun _ _ => ⟨rfl, rfl⟩
  inFlight := fun _ _ => Or.inr ⟨buf, rfl⟩

/-- **`x10_write` keeps the flags in agreement.** -/
theorem x10Write_sound (h : u.Sound env) (buf : Bytes) : (u.x10Write env buf).1.Sound env := by
  rcases X10Queue.x10Write_cases (Transfers.writeUsb env) h.queue u.io buf with
    hcase | ⟨hbusy, hlen, q', hcase, hqueued, _, hbusy', hok⟩ | ⟨hidle, hlen, hr, hcase⟩ |
    ⟨hidle, hlen, hr, hcase⟩
  · simpa only [x10Write, hcase] using h
  · simp only [x10Write, hcase]
    refine { h with queue := hok, short := ?_, busy := fun _ => hbusy', inFlight := ?_ }
    · intro b hb
      rw [hqueued] at hb
      rcases List.mem_append.mp hb with hb | hb
      · exact h.short b hb
      · rw [List.mem_singleton.mp hb]
        exact hlen
    · exact fun hcm _ => h.inFlight hcm hbusy
  · rcases Transfers.writeUsb_idle env (h.idle_of_outbusy hidle) hlen with
      ⟨hneg, hw⟩ | ⟨_, hw⟩
    · rw [hw] at hr
      exact absurd hneg (Int.not_lt.mpr hr)
    · simp only [x10Write, hcase, hw]
      exact sound_of_submitted u.queue.armed_ok h.short rfl h.toBase buf
  · rcases Transfers.writeUsb_idle env (h.idle_of_outbusy hidle) hlen with ⟨_, hw⟩ | ⟨_, hw⟩
    · simp only [x10Write, hcase, hw]
      exact sound_of_failed h.queue h.short h.toBase (h.idle_of_outbusy hidle) buf
    · rw [hw] at hr
      exact absurd hr (Int.lt_irrefl 0)

/-- **Releasing the next packet** restores what the callbacks have set aside. -/
theorem release_sound (h : u.Base) (hc : u.io.intrOutCompleted = true) :
    (u.release env).Sound env := by
  -- the flags are spent before the queue is asked
  have hbase : Base ⟨u.queue, u.io.spent⟩ := { h with }
  have hidle := hbase.idle hc
  rcases X10Queue.sendNextX10out_cases (Transfers.writeUsb env) h.queue u.io.spent with
    ⟨hbusy, hcase⟩ | ⟨_, hnil, hcase, hok⟩ |
    ⟨_, buf, rest, q', hqueued, hrest, hr, hbusy, hok, hcase⟩ | ⟨_, buf, rest, hqueued, hr, hcase⟩
  · simp only [release, sendNextX10out, hcase]
    exact { hbase with
      gate := fun _ _ => ⟨rfl, rfl⟩
      inFlight := fun _ hb => nomatch hbusy.symm.trans hb }
  · simp only [release, sendNextX10out, hcase]
    exact { hbase with
      queue := hok
      short := h.short
      busy := fun hs => nomatch hidle.submitted.symm.trans hs
      gate := fun _ _ => ⟨rfl, rfl⟩
      inFlight := fun _ hb => nomatch hb }
  · have hlen : buf.length ≤ outdataSize := h.short buf (by simp [hqueued])
    have hshort : ∀ b ∈ q'.queued, b.length ≤ outdataSize := by
      intro b hb
      rw [hrest] at hb
      exact h.short b (by simp [hqueued, hb])
    rcases Transfers.writeUsb_idle env hidle hlen with ⟨hneg, hw⟩ | ⟨_, hw⟩
    · rw [hw] at hr
      exact absurd hneg (Int.not_lt.mpr hr)
    · simp only [release, sendNextX10out, hcase, hw]
      exact sound_of_submitted hok hshort hbusy hbase buf
  · have hlen : buf.length ≤ outdataSize := h.short buf (by simp [hqueued])
    rcases Transfers.writeUsb_idle env hidle hlen with ⟨_, hw⟩ | ⟨_, hw⟩
    · simp only [release, sendNextX10out, hcase, hw]
      exact sound_of_failed h.queue h.short hbase hidle buf
    · rw [hw] at hr
      exact absurd hr (Int.lt_irrefl 0)

/-- **`maybe_finish_x10_transmit` brings the flags into agreement.** -/
theorem maybeFinish_sound (h : u.Base) : (u.maybeFinishX10Transmit env).Sound env := by
  rw [maybeFinishX10Transmit]
  by_cases hc : u.io.intrOutCompleted = true
  · rw [if_neg (by simp [hc])]
    by_cases hcm : env.cm19a = true
    · rw [if_pos hcm]
      exact release_sound h hc
    · rw [if_neg hcm]
      by_cases hflags : u.io.x10AckReceived = false ∧ u.io.x10AckTimedOut = false
      · rw [if_pos (by simp [hflags.1, hflags.2])]
        exact { h with
          gate := fun _ _ => hflags
          inFlight := fun hcm' _ => absurd hcm' hcm }
      · rw [if_neg (by simpa using hflags)]
        exact release_sound h hc
  · rw [if_pos (by simpa using hc)]
    have hsub : u.io.intrOutSubmitted = true := by
      have := h.completed
      simp only [Bool.not_eq_true] at hc
      rw [hc] at this
      simpa using this.symm
    exact { h with
      gate := fun _ hc' => absurd hc' hc
      inFlight := fun _ _ => Or.inl hsub }

/-! ### The callbacks and the timeout -/

/-- **The output callback.** libusb reports a cancellation only if it was asked for
one, which the running daemon does not do. -/
theorem intrOutCb_sound (h : u.Sound env) {status : TransferStatus}
    (hcancel : status ≠ .cancelled) (hexit : (u.intrOutCb env status).io.doExit = 0) :
    (u.intrOutCb env status).Sound env := by
  cases status with
  | completed =>
    refine maybeFinish_sound { h.toBase with
      completed := rfl
      canceling := rfl
      owned := rfl
      cancelRequested := rfl
      busy := fun hs => nomatch hs
      noFault := noFault_cons.mpr ⟨rfl, h.noFault⟩ }
  | cancelled => exact absurd rfl hcancel
  | error | timedOut | stall | noDevice | overflow => cases hexit

/-- The input callback, up to the decoding. -/
theorem intrInBegin_sound (h : u.Sound env) (status : TransferStatus) (data : Bytes) :
    (u.intrInBegin env status data).Sound env := by
  have hfind : LastAttemptFailed u.io.history →
      LastAttemptFailed (.inDone status data :: u.io.history) := fun ⟨buf, hbuf⟩ => ⟨buf, hbuf⟩
  have hfault : NoFault (.inDone status data :: u.io.history) :=
    noFault_cons.mpr ⟨rfl, h.noFault⟩
  have hflight : env.cm19a = true → u.queue.outbusy = true →
      u.io.intrOutSubmitted = true ∨ LastAttemptFailed (.inDone status data :: u.io.history) :=
    fun hcm hb => (h.inFlight hcm hb).imp_right hfind
  cases status with
  | completed =>
    simp only [intrInBegin]
    split
    · exact maybeFinish_sound { h.toBase with noFault := hfault }
    split
    · exact { h with noFault := hfault, inFlight := hflight }
    · exact { h with noFault := hfault, inFlight := hflight }
  | cancelled | error | timedOut | stall | noDevice | overflow =>
    exact { h with noFault := hfault, inFlight := hflight }

/-- **What the end of the input callback can do**: leave the transfer with the daemon,
which is to stop; or hand it to libusb again. -/
theorem intrInEnd_cases (env : Env) (u : Usb) (signal : Bool) :
    (∃ n calls hs, n ≠ 0 ∧ (hs = u.io.history ∨ hs = .inSubmit false :: u.io.history) ∧
        u.intrInEnd env signal =
          ⟨u.queue, { u.io with doExit := n, submitInCalls := calls, history := hs }⟩) ∨
      (u.io.doExit = 0 ∧ signal = false ∧ u.intrInEnd env signal =
        ⟨u.queue, { u.io with
          submitInCalls := u.io.submitInCalls + 1
          intrInSubmitted := true
          inOwned := true
          history := .inSubmit true :: u.io.history }⟩) := by
  cases signal with
  | true => exact Or.inl ⟨1, _, _, by decide, Or.inl rfl, rfl⟩
  | false =>
    by_cases hexit : u.io.doExit = 0
    · by_cases hr : env.submitIn u.io.submitInCalls < 0
      · refine Or.inl ⟨2, u.io.submitInCalls + 1, _, by decide, Or.inr rfl, ?_⟩
        simp [intrInEnd, Transfers.submitIn, hexit, hr]
      · refine Or.inr ⟨hexit, rfl, ?_⟩
        simp [intrInEnd, Transfers.submitIn, hexit, hr]
    · refine Or.inl ⟨u.io.doExit, u.io.submitInCalls, _, hexit, Or.inl rfl, ?_⟩
      simp [intrInEnd, hexit]

/-- The input callback, after the decoding. -/
theorem intrInEnd_sound (h : u.Sound env) (signal : Bool) : (u.intrInEnd env signal).Sound env := by
  have hrecord : ∀ ok, NoFault (.inSubmit ok :: u.io.history) :=
    fun ok => noFault_cons.mpr ⟨rfl, h.noFault⟩
  have hflight : ∀ ok, env.cm19a = true → u.queue.outbusy = true →
      u.io.intrOutSubmitted = true ∨ LastAttemptFailed (.inSubmit ok :: u.io.history) :=
    fun ok hcm hb => (h.inFlight hcm hb).imp_right fun ⟨buf, hbuf⟩ => ⟨buf, hbuf⟩
  rcases intrInEnd_cases env u signal with ⟨n, calls, hs, _, rfl | rfl, heq⟩ | ⟨_, _, heq⟩
  · rw [heq]
    exact { h with }
  · rw [heq]
    exact { h with noFault := hrecord _, inFlight := hflight _ }
  · rw [heq]
    exact { h with noFault := hrecord _, inFlight := hflight _ }

/-- The timeout of the main loop. -/
theorem ackTimeout_sound (h : u.Sound env) : (u.ackTimeout env).Sound env :=
  maybeFinish_sound { h.toBase with }

/-! ### The input side -/

theorem x10Write_inSide (env : Env) (u : Usb) (buf : Bytes) :
    (u.x10Write env buf).1.io.inSide = u.io.inSide := by
  simp only [x10Write, X10Queue.x10Write]
  split
  · rfl
  split
  · rfl
  split
  · exact Transfers.writeUsb_inSide env u.io buf
  · exact Transfers.writeUsb_inSide env u.io buf

theorem release_inSide (env : Env) (u : Usb) : (u.release env).io.inSide = u.io.inSide := by
  simp only [release, sendNextX10out, X10Queue.sendNextX10out]
  split
  · split
    · rfl
    split
    · exact Transfers.writeUsb_inSide env _ _
    · exact Transfers.writeUsb_inSide env _ _
  · rfl

theorem maybeFinish_inSide (env : Env) (u : Usb) :
    (u.maybeFinishX10Transmit env).io.inSide = u.io.inSide := by
  rw [maybeFinishX10Transmit]
  split
  · rfl
  split
  · exact release_inSide env u
  split
  · rfl
  · exact release_inSide env u

/-- A USB state with the same input side is listening if the other is. -/
theorem Listening.congr {u' : Usb} (h : u.Listening) (heq : u'.io.inSide = u.io.inSide) :
    u'.Listening := by
  simp only [Transfers.inSide, Prod.mk.injEq] at heq
  obtain ⟨⟨h1, h2, h3, h4⟩, h5, _⟩ := heq
  exact ⟨h5.trans h.transfer, h1.trans h.submitted, h2.trans h.canceling, h3.trans h.owned,
    h4.trans h.cancelRequested⟩

end Usb

end Mochad
