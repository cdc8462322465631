import Mochad.Library.Trace
import Mochad.Usb.Invariant

/-!
# One packet at a time

Between two packets that libusb takes, the first one has to be done with: its transfer
has completed, and the controller has acknowledged it or has been waited for. The
acknowledgement is a packet of one byte `0x55`; the waiting is a `poll()` that began
after the first packet was submitted and ended because its timeout expired.

`Usb.Paced` says that the flags never claim more than has happened since the last
packet was submitted. It is kept by whatever releases a packet – unless the timeout
flag is raised for a packet that was submitted after the `poll()`, which the main loop
does when a callback between the two submits one; or a transfer that ended otherwise
than completed is taken for one that did. `Accountable` rules these out, and is a
question to the history alone.
-/

namespace Mochad

namespace UsbEvent

/-- A packet was submitted. -/
def isOutSubmit : UsbEvent → Bool
  | .outSubmit _ => true
  | _ => false

/-- The output transfer ended, and not as completed. -/
def isOutFailure : UsbEvent → Bool
  | .outDone .completed => false
  | .outDone _ => true
  | _ => false

end UsbEvent

/-- What has happened since the last packet was submitted. -/
abbrev sinceSubmit (h : List UsbEvent) : List UsbEvent := Trace.gap UsbEvent.isOutSubmit h

/-- A packet was submitted before. -/
abbrev Submitted (h : List UsbEvent) : Prop := Trace.Marked UsbEvent.isOutSubmit h

/-- The packet was acknowledged. -/
def ackEvent : UsbEvent := .inDone .completed [0x55]

/-- The packet was acknowledged, or its acknowledgement was waited for; a CM19A sends none. -/
def Acknowledged (env : Env) (mid : List UsbEvent) : Prop :=
  env.cm19a = true ∨ ackEvent ∈ mid ∨ [.pollReturned 0, .pollStarted].Sublist mid

/-- **What has to happen between two packets**, the newest event first. -/
structure Finished (env : Env) (mid : List UsbEvent) : Prop where
  completed : .outDone .completed ∈ mid
  acknowledged : Acknowledged env mid

/-- The last packet, if there was one, is done with. -/
def Settled (env : Env) (h : List UsbEvent) : Prop := Submitted h → Finished env (sinceSubmit h)

/-- The transfer of the last packet has not ended otherwise than completed. -/
def EndedWell (h : List UsbEvent) : Prop := ∀ e ∈ sinceSubmit h, e.isOutFailure = false

instance (h : List UsbEvent) : Decidable (EndedWell h) := List.decidableBAll _ _

/-- No packet was submitted since the last `poll()` began. -/
def SubmittedBeforePoll (h : List UsbEvent) : Prop :=
  ∀ e ∈ h.takeWhile (· ≠ .pollStarted), e.isOutSubmit = false

instance (h : List UsbEvent) : Decidable (SubmittedBeforePoll h) := List.decidableBAll _ _

/-- The last packet can be waited for no longer: it has not been lost, and either it was
acknowledged, or the last `poll()` began after it. -/
def Accountable (env : Env) (h : List UsbEvent) : Prop :=
  EndedWell h ∧ (env.cm19a = true ∨ ackEvent ∈ sinceSubmit h ∨ SubmittedBeforePoll h)

instance (env : Env) (h : List UsbEvent) : Decidable (Accountable env h) :=
  inferInstanceAs (Decidable (_ ∧ _))

theorem Acknowledged.append {env : Env} {mid : List UsbEvent} (h : Acknowledged env mid)
    (es : List UsbEvent) : Acknowledged env (es ++ mid) :=
  h.imp_right (Or.imp (List.mem_append_right _) fun hs => hs.trans (List.sublist_append_right _ _))

theorem Finished.append {env : Env} {mid : List UsbEvent} (h : Finished env mid)
    (es : List UsbEvent) : Finished env (es ++ mid) :=
  ⟨List.mem_append_right _ h.completed, h.acknowledged.append es⟩

/-- What is settled stays so until the next packet. -/
theorem Settled.append {env : Env} {h l : List UsbEvent} (hs : Settled env h)
    (hl : ∀ e ∈ l, e.isOutSubmit = false) : Settled env (l ++ h) := by
  intro hm
  rw [sinceSubmit, Trace.gap_append_of_not hl]
  exact (hs ((Trace.marked_append_of_not hl).mp hm)).append l

/-- **The timeout of a `poll()`** that was not followed by a packet counts for the last
packet. -/
theorem SubmittedBeforePoll.expired {h rest cbs es : List UsbEvent} (hp : SubmittedBeforePoll h)
    (hh : h = cbs ++ .pollReturned 0 :: (es ++ .pollStarted :: rest)) (hcbs : .pollStarted ∉ cbs)
    (hes : .pollStarted ∉ es) :
    [.pollReturned 0, .pollStarted].Sublist (sinceSubmit h) := by
  have hsplit : h = (cbs ++ .pollReturned 0 :: es) ++ .pollStarted :: rest := by simp [hh]
  have hlast : h.takeWhile (· ≠ .pollStarted) = cbs ++ .pollReturned 0 :: es := by
    have hne : ∀ e ∈ cbs ++ .pollReturned 0 :: es, decide (e ≠ .pollStarted) = true := by
      intro e he
      refine decide_eq_true ?_
      rintro rfl
      rcases List.mem_append.mp he with he | he
      · exact hcbs he
      · rcases List.mem_cons.mp he with he | he
        · cases he
        · exact hes he
    rw [hsplit, List.takeWhile_append_of_pos hne]
    simp
  have hnone : ∀ e ∈ cbs ++ .pollReturned 0 :: es, e.isOutSubmit = false := by
    intro e he
    exact hp e (hlast ▸ he)
  have hgap : sinceSubmit h = (cbs ++ .pollReturned 0 :: es) ++ .pollStarted :: sinceSubmit rest := by
    rw [hsplit, sinceSubmit, Trace.gap_append_of_not hnone, Trace.gap_cons rfl]
  have hstart : [.pollStarted].Sublist (es ++ .pollStarted :: sinceSubmit rest) :=
    (List.Sublist.cons_cons _ (List.nil_sublist _)).trans (List.sublist_append_right _ _)
  rw [hgap, List.append_assoc]
  exact (List.Sublist.cons_cons _ hstart).trans (List.sublist_append_right _ _)

/-- An event that is neither a packet nor the end of one leaves the last transfer's end
as it is. -/
theorem EndedWell.cons {h : List UsbEvent} (hend : EndedWell h) {e : UsbEvent}
    (hs : e.isOutSubmit = false) (he : e.isOutFailure = false) : EndedWell (e :: h) := by
  intro x hx
  rw [sinceSubmit, Trace.gap_cons hs] at hx
  rcases List.mem_cons.mp hx with rfl | hx
  · exact he
  · exact hend x hx

namespace Usb

/-- **The flags claim no more than has happened** since the last packet. -/
structure Paced (env : Env) (u : Usb) : Prop where
  queue : u.queue.Ok
  completed : u.io.intrOutCompleted = !u.io.outOwned
  idle : u.queue.outbusy = false → u.io.intrOutCompleted = true
  spaced : Trace.Spaced UsbEvent.isOutSubmit (Finished env) u.io.history
  under : u.io.outOwned = true → ∀ st, .outDone st ∉ sinceSubmit u.io.history
  done : u.io.outOwned = false → Submitted u.io.history → ∃ st, .outDone st ∈ sinceSubmit u.io.history
  ack : u.io.x10AckReceived = true → ackEvent ∈ sinceSubmit u.io.history
  timedOut : u.io.x10AckTimedOut = true → Acknowledged env (sinceSubmit u.io.history)
  settled : u.queue.outbusy = false → Settled env u.io.history

theorem initial_paced (env : Env) : initial.Paced env where
  queue := X10Queue.initial_ok
  completed := rfl
  idle := fun _ => rfl
  spaced := trivial
  under := fun h => nomatch h
  done := fun _ ⟨_, he, _⟩ => nomatch he
  ack := fun h => nomatch h
  timedOut := fun h => nomatch h
  settled := fun _ ⟨_, he, _⟩ => nomatch he

variable {env : Env} {u : Usb}

/-- Other events than packets and the ends of transfers alter nothing. -/
theorem Paced.append (h : u.Paced env) {l : List UsbEvent}
    (hl : ∀ e ∈ l, e.isOutSubmit = false) (hdone : ∀ st, .outDone st ∉ l) {io : Transfers}
    (hc : io.intrOutCompleted = u.io.intrOutCompleted) (ho : io.outOwned = u.io.outOwned)
    (ha : io.x10AckReceived = true → u.io.x10AckReceived = true)
    (ht : io.x10AckTimedOut = true → u.io.x10AckTimedOut = true)
    (hh : io.history = l ++ u.io.history) : Paced env ⟨u.queue, io⟩ := by
  have hgap : sinceSubmit io.history = l ++ sinceSubmit u.io.history := by
    rw [hh]
    exact Trace.gap_append_of_not hl
  have hmark : Submitted io.history ↔ Submitted u.io.history := by
    rw [hh]
    exact Trace.marked_append_of_not hl
  refine ⟨h.queue, ?_, fun hi => hc.trans (h.idle hi), ?_, ?_, ?_, ?_, ?_, ?_⟩
  · show io.intrOutCompleted = !io.outOwned
    rw [hc, ho, h.completed]
  · show Trace.Spaced _ _ io.history
    rw [hh, Trace.spaced_append_of_not hl]
    exact h.spaced
  · intro hown st hst
    rw [hgap] at hst
    rcases List.mem_append.mp hst with hst | hst
    · exact hdone st hst
    · exact h.under (ho ▸ hown) st hst
  · intro hown hm
    obtain ⟨st, hst⟩ := h.done (ho ▸ hown) (hmark.mp hm)
    exact ⟨st, by rw [hgap]; exact List.mem_append_right _ hst⟩
  · intro hack
    rw [hgap]
    exact List.mem_append_right _ (h.ack (ha hack))
  · intro htime
    rw [hgap]
    exact (h.timedOut (ht htime)).append l
  · intro hi
    rw [hh]
    exact (h.settled hi).append hl

/-- **What `write_usb` does to the history and the flags**, from a transfer that is not
under way: either nothing is submitted, and no flag is raised; or the packet is the last
one. -/
theorem writeUsb_effect (env : Env) {t : Transfers} (buf : Bytes)
    (hc : t.intrOutCompleted = true) :
    ∃ es : List UsbEvent, (∀ e ∈ es, e.isOutSubmit = false) ∧ (∀ st, .outDone st ∉ es) ∧
      (((t.writeUsb env buf).2 < 0 ∧
          (t.writeUsb env buf).1.intrOutCompleted = true ∧
          (t.writeUsb env buf).1.outOwned = t.outOwned ∧
          ((t.writeUsb env buf).1.x10AckReceived = true → t.x10AckReceived = true) ∧
          ((t.writeUsb env buf).1.x10AckTimedOut = true → t.x10AckTimedOut = true) ∧
          (t.writeUsb env buf).1.history = es ++ t.history) ∨
        ((t.writeUsb env buf).2 = 0 ∧
          (t.writeUsb env buf).1.intrOutCompleted = false ∧
          (t.writeUsb env buf).1.outOwned = true ∧
          (t.writeUsb env buf).1.x10AckReceived = false ∧
          (t.writeUsb env buf).1.x10AckTimedOut = false ∧
          (t.writeUsb env buf).1.history = .outSubmit buf :: (es ++ t.history))) := by
  simp only [Transfers.writeUsb]
  split
  · exact ⟨[.outUnavailable], by simp [UsbEvent.isOutSubmit], by simp,
      Or.inl ⟨(by decide : (-19 : ℤ) < 0), hc, rfl, id, id, rfl⟩⟩
  split
  · exact ⟨[.outBusy], by simp [UsbEvent.isOutSubmit], by simp,
      Or.inl ⟨(by decide : (-16 : ℤ) < 0), hc, rfl, id, id, rfl⟩⟩
  split
  · exact ⟨[.outTooLong], by simp [UsbEvent.isOutSubmit], by simp,
      Or.inl ⟨(by decide : (-22 : ℤ) < 0), hc, rfl, id, id, rfl⟩⟩
  split
  next hneg =>
    by_cases hown : t.outOwned = true
    · exact ⟨[.outSubmitFailed buf, .outOverwritten], by simp [UsbEvent.isOutSubmit], by simp,
        Or.inl ⟨hneg, rfl, rfl, fun h => (by cases h), fun h => (by cases h), by simp [hown]⟩⟩
    · exact ⟨[.outSubmitFailed buf], by simp [UsbEvent.isOutSubmit], by simp,
        Or.inl ⟨hneg, rfl, rfl, fun h => (by cases h), fun h => (by cases h), by simp [hown]⟩⟩
  next =>
    by_cases hown : t.outOwned = true
    · exact ⟨[.outOverwritten], by simp [UsbEvent.isOutSubmit], by simp,
        Or.inr ⟨rfl, rfl, rfl, rfl, rfl, by simp [hown]⟩⟩
    · exact ⟨[], by simp, by simp, Or.inr ⟨rfl, rfl, rfl, rfl, rfl, by simp [hown]⟩⟩

/-- **The next packet**, when the last one is settled. -/
theorem Paced.submitted (h : u.Paced env) (hs : Settled env u.io.history) {q : X10Queue}
    (hq : q.Ok) (hbusy : q.outbusy = true) {io : Transfers} {buf : Bytes} {es : List UsbEvent}
    (hes : ∀ e ∈ es, e.isOutSubmit = false) (hc : io.intrOutCompleted = false)
    (ho : io.outOwned = true) (ha : io.x10AckReceived = false) (ht : io.x10AckTimedOut = false)
    (hh : io.history = .outSubmit buf :: (es ++ u.io.history)) : Paced env ⟨q, io⟩ := by
  have hgap : sinceSubmit io.history = [] := by
    rw [hh]
    exact Trace.gap_cons_mark rfl
  refine ⟨hq, ?_, fun hi => ?_, ?_, fun _ st => ?_, fun hown => ?_, fun hack => ?_,
    fun htime => ?_, fun hi => ?_⟩
  · show io.intrOutCompleted = !io.outOwned
    rw [hc, ho]
    rfl
  · exact absurd hi (by simp [hbusy])
  · show Trace.Spaced _ _ io.history
    rw [hh]
    refine ⟨(Trace.spaced_append_of_not hes).mpr h.spaced, fun _ hm => ?_⟩
    exact hs.append hes hm
  · show .outDone st ∉ sinceSubmit io.history
    rw [hgap]
    simp
  · exact absurd hown (by simp [ho])
  · exact absurd hack (by simp [ha])
  · exact absurd htime (by simp [ht])
  · exact absurd hi (by simp [hbusy])

/-- **`x10_write` keeps the pace**: a packet that goes at once finds the last one
settled. -/
theorem x10Write_paced (h : u.Paced env) (buf : Bytes) : (u.x10Write env buf).1.Paced env := by
  rcases X10Queue.x10Write_cases (Transfers.writeUsb env) h.queue u.io buf with
    hcase | ⟨hbusy, _, q', hcase, _, _, hbusy', hok⟩ | ⟨hidle, _, hr, hcase⟩ | ⟨hidle, _, hr, hcase⟩
  · simpa only [x10Write, hcase] using h
  · simp only [x10Write, hcase]
    exact { h with
      queue := hok
      idle := fun hi => absurd hi (by simp [hbusy'])
      settled := fun hi => absurd hi (by simp [hbusy']) }
  · obtain ⟨es, hes, hdone, ⟨hneg, _⟩ | ⟨_, hc, ho, ha, ht, hh⟩⟩ :=
      writeUsb_effect env buf (h.idle hidle)
    · exact absurd hneg (Int.not_lt.mpr hr)
    · simp only [x10Write, hcase]
      exact h.submitted (h.settled hidle) (X10Queue.armed_ok u.queue) rfl hes hc ho ha ht hh
  · obtain ⟨es, hes, hdone, ⟨_, hc, ho, ha, ht, hh⟩ | ⟨hz, _⟩⟩ :=
      writeUsb_effect env buf (h.idle hidle)
    · simp only [x10Write, hcase]
      exact h.append hes hdone (hc.trans (h.idle hidle).symm) ho ha ht hh
    · exact absurd hr (by simp [hz])

/-- **Releasing the next packet**, when the last one is settled. -/
theorem release_paced (h : u.Paced env) (hc : u.io.intrOutCompleted = true)
    (hs : Settled env u.io.history) : (u.release env).Paced env := by
  have hspent : Paced env ⟨u.queue, u.io.spent⟩ := by
    refine h.append (l := []) (by simp) (by simp) rfl rfl ?_ ?_ rfl
    · intro h'
      cases h'
    · intro h'
      cases h'
  rcases X10Queue.sendNextX10out_cases (Transfers.writeUsb env) h.queue u.io.spent with
    ⟨_, hcase⟩ | ⟨_, _, hcase, hok⟩ | ⟨_, buf, _, q', _, _, hr, hbusy, hok, hcase⟩ |
    ⟨hbusy, buf, _, _, hr, hcase⟩
  · simpa only [release, sendNextX10out, hcase] using hspent
  · simp only [release, sendNextX10out, hcase]
    exact { hspent with queue := hok, idle := fun _ => hc, settled := fun _ => hs }
  · obtain ⟨es, hes, _, ⟨hneg, _⟩ | ⟨_, hc', ho, ha, ht, hh⟩⟩ :=
      writeUsb_effect env (t := u.io.spent) buf hc
    · exact absurd hneg (Int.not_lt.mpr hr)
    · simp only [release, sendNextX10out, hcase]
      exact hspent.submitted hs hok hbusy hes hc' ho ha ht hh
  · obtain ⟨es, hes, hdone, ⟨_, hc', ho, ha, ht, hh⟩ | ⟨hz, _⟩⟩ :=
      writeUsb_effect env (t := u.io.spent) buf hc
    · simp only [release, sendNextX10out, hcase]
      exact hspent.append hes hdone (hc'.trans hc.symm) ho ha ht hh
    · exact absurd hr (by simp [hz])

/-- **`maybe_finish_x10_transmit` keeps the pace**, if a transfer that has ended has
ended well. -/
theorem maybeFinish_paced (h : u.Paced env) (hend : EndedWell u.io.history) :
    (u.maybeFinishX10Transmit env).Paced env := by
  rw [maybeFinishX10Transmit]
  by_cases hc : u.io.intrOutCompleted = true
  · rw [if_neg (by simp [hc])]
    have hown : u.io.outOwned = false := by
      have := h.completed
      rw [hc] at this
      simpa using this.symm
    have hdone : Submitted u.io.history → .outDone .completed ∈ sinceSubmit u.io.history := by
      intro hm
      obtain ⟨st, hst⟩ := h.done hown hm
      have hwell := hend _ hst
      cases st with
      | completed => exact hst
      | error | timedOut | cancelled | stall | noDevice | overflow => cases hwell
    by_cases hcm : env.cm19a = true
    · rw [if_pos hcm]
      exact release_paced h hc fun hm => ⟨hdone hm, Or.inl hcm⟩
    · rw [if_neg hcm]
      by_cases hflags : u.io.x10AckReceived = false ∧ u.io.x10AckTimedOut = false
      · rwa [if_pos (by simp [hflags.1, hflags.2])]
      · rw [if_neg (by simpa using hflags)]
        refine release_paced h hc fun hm => ⟨hdone hm, ?_⟩
        rcases Bool.eq_false_or_eq_true u.io.x10AckReceived with hack | hack
        · exact Or.inr (Or.inl (h.ack hack))
        · exact h.timedOut (by simpa [hack] using hflags)
  · rwa [if_pos (by simpa using hc)]

/-- With nothing to release, `maybe_finish_x10_transmit` keeps the pace whatever raised
the flags. -/
theorem maybeFinish_paced_of_idle (h : u.Paced env) (hb : u.queue.outbusy = false)
    (io : Transfers) (hio : io.spent = u.io.spent)
    (hflags : io.x10AckReceived = true ∨ io.x10AckTimedOut = true) :
    (maybeFinishX10Transmit env ⟨u.queue, io⟩).Paced env := by
  have hcompleted : io.spent.intrOutCompleted = u.io.spent.intrOutCompleted := by rw [hio]
  have hc : io.intrOutCompleted = true := hcompleted.trans (h.idle hb)
  have hrelease : (release env ⟨u.queue, io⟩).Paced env := by
    have heq : release env ⟨u.queue, io⟩ = u.release env := by rw [release, release, hio]
    rw [heq]
    exact release_paced h (h.idle hb) (h.settled hb)
  rw [maybeFinishX10Transmit]
  split
  next hn => simp [hc] at hn
  split
  · exact hrelease
  split
  next hn => simp_all
  · exact hrelease

/-! ### The callbacks and the timeout -/

/-- The end of the output transfer, before anything is released. -/
theorem Paced.outEnded (h : u.Paced env) (status : TransferStatus)
    {io : Transfers} (hc : io.intrOutCompleted = true) (ho : io.outOwned = false)
    (ha : io.x10AckReceived = u.io.x10AckReceived) (ht : io.x10AckTimedOut = u.io.x10AckTimedOut)
    (hh : io.history = .outDone status :: u.io.history) : Paced env ⟨u.queue, io⟩ := by
  have hgap : sinceSubmit io.history = .outDone status :: sinceSubmit u.io.history := by
    rw [hh]
    exact Trace.gap_cons rfl
  refine ⟨h.queue, ?_, fun _ => hc, ?_, fun h' => ?_, fun _ _ => ⟨status, ?_⟩, fun hack => ?_,
    fun htime => ?_, fun hi => ?_⟩
  · show io.intrOutCompleted = !io.outOwned
    rw [hc, ho]
    rfl
  · show Trace.Spaced _ _ io.history
    rw [hh, Trace.spaced_cons rfl]
    exact h.spaced
  · exact absurd h' (by simp [ho])
  · rw [hgap]
    exact List.mem_cons_self
  · rw [hgap]
    exact List.mem_cons_of_mem _ (h.ack (ha ▸ hack))
  · rw [hgap]
    exact (h.timedOut (ht ▸ htime)).append [.outDone status]
  · rw [hh]
    exact (h.settled hi).append (l := [.outDone status]) (by simp [UsbEvent.isOutSubmit])

/-- **The output callback keeps the pace**, however the transfer ended. -/
theorem intrOutCb_paced (h : u.Paced env) (hown : u.io.outOwned = true) (status : TransferStatus) :
    (u.intrOutCb env status).Paced env := by
  cases status with
  | completed =>
    refine maybeFinish_paced (h.outEnded .completed rfl rfl rfl rfl rfl) fun e he => ?_
    -- no transfer ends twice, so this is the only end
    rw [sinceSubmit, Trace.gap_cons rfl] at he
    rcases List.mem_cons.mp he with rfl | he
    · rfl
    · cases e with
      | outDone st => exact absurd he (h.under hown st)
      | _ => rfl
  | cancelled => exact h.outEnded .cancelled rfl rfl rfl rfl rfl
  | error => exact h.outEnded .error rfl rfl rfl rfl rfl
  | timedOut => exact h.outEnded .timedOut rfl rfl rfl rfl rfl
  | stall => exact h.outEnded .stall rfl rfl rfl rfl rfl
  | noDevice => exact h.outEnded .noDevice rfl rfl rfl rfl rfl
  | overflow => exact h.outEnded .overflow rfl rfl rfl rfl rfl

/-- **The input callback keeps the pace**, if no acknowledgement comes for a packet that
was lost. -/
theorem intrInBegin_paced (h : u.Paced env) (status : TransferStatus) (data : Bytes)
    (hend : status = .completed → data = [0x55] → u.queue.outbusy = true →
      EndedWell u.io.history) :
    (u.intrInBegin env status data).Paced env := by
  have hes : ∀ e ∈ [UsbEvent.inDone status data], e.isOutSubmit = false := by
    simp [UsbEvent.isOutSubmit]
  have hdone : ∀ st, .outDone st ∉ [UsbEvent.inDone status data] := by simp
  cases status with
  | completed =>
    simp only [intrInBegin]
    split
    next hdata =>
      subst hdata
      have hbase : Paced env ⟨u.queue, { u.io with
          inOwned := false
          inCancelRequested := false
          intrInSubmitted := false
          intrInCanceling := false
          history := ackEvent :: u.io.history
          usbAckReceivedCount := u.io.usbAckReceivedCount + 1 }⟩ :=
        h.append hes hdone rfl rfl id id rfl
      rcases Bool.eq_false_or_eq_true u.queue.outbusy with hb | hb
      · refine maybeFinish_paced { hbase with ack := fun _ => ?_ } ((hend rfl rfl hb).cons rfl rfl)
        show ackEvent ∈ sinceSubmit (ackEvent :: u.io.history)
        rw [sinceSubmit, Trace.gap_cons rfl]
        exact List.mem_cons_self
      · exact maybeFinish_paced_of_idle hbase hb _ rfl (Or.inl rfl)
    split
    · exact h.append hes hdone rfl rfl id id rfl
    · exact h.append hes hdone rfl rfl id id rfl
  | cancelled | error | timedOut | stall | noDevice | overflow =>
    exact h.append hes hdone rfl rfl id id rfl

theorem intrInEnd_paced (h : u.Paced env) (signal : Bool) : (u.intrInEnd env signal).Paced env := by
  rcases intrInEnd_cases env u signal with ⟨n, calls, hs, _, rfl | rfl, heq⟩ | ⟨_, _, heq⟩
  · rw [heq]
    exact h.append (l := []) (by simp) (by simp) rfl rfl id id rfl
  · rw [heq]
    exact h.append (l := [.inSubmit false]) (by simp [UsbEvent.isOutSubmit]) (by simp) rfl rfl
      id id rfl
  · rw [heq]
    exact h.append (l := [.inSubmit true]) (by simp [UsbEvent.isOutSubmit]) (by simp) rfl rfl
      id id rfl

/-- **The timeout keeps the pace**, if it counts for the last packet and that packet was
not lost. -/
theorem ackTimeout_paced (h : u.Paced env) (hend : u.queue.outbusy = true →
    EndedWell u.io.history ∧ Acknowledged env (sinceSubmit u.io.history)) :
    (u.ackTimeout env).Paced env := by
  rcases Bool.eq_false_or_eq_true u.queue.outbusy with hb | hb
  · obtain ⟨hwell, hack⟩ := hend hb
    exact maybeFinish_paced (u := { u with io := { u.io with
        x10AckTimedOut := true
        usbAckTimeoutCount := u.io.usbAckTimeoutCount + 1 } })
      { h with timedOut := fun _ => hack } hwell
  · have hcounted : Paced env ⟨u.queue, { u.io with
        usbAckTimeoutCount := u.io.usbAckTimeoutCount + 1 }⟩ :=
      h.append (l := []) (by simp) (by simp) rfl rfl id id rfl
    exact maybeFinish_paced_of_idle hcounted hb _ rfl (Or.inr rfl)

end Usb

end Mochad
