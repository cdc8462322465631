import Mochad.Core.UsbSide
import Mochad.Usb.Invariant

/-!
# The running daemon's flags

`Usb.Sound` and `Usb.Listening` are kept by the callbacks, the timeout and the packets
that are written, as long as the daemon is not to stop; that is what it is here for. So
they hold in every reachable state of the running daemon (`Daemon.Reachable.agreement`),
and `Daemon.Reachable.flags_agree` spells out what they say of the single flags.
-/

namespace Mochad

namespace Usb

variable {env : Env} {u u' : Usb}

theorem Writes.sound (hw : u.Writes env u') (h : u.Sound env) : u'.Sound env := by
  induction hw with
  | refl => exact h
  | tail _ hb ih =>
    obtain ⟨buf, rfl⟩ := hb
    exact x10Write_sound ih buf

theorem Writes.inSide (hw : u.Writes env u') : u'.io.inSide = u.io.inSide := by
  induction hw with
  | refl => rfl
  | tail _ hb ih =>
    obtain ⟨buf, rfl⟩ := hb
    exact (x10Write_inSide env _ buf).trans ih

/-- The daemon is to stop after packets were written if it was before. -/
theorem doExit_of_inSide {t t' : Transfers} (h : t'.inSide = t.inSide) : t'.doExit = t.doExit :=
  congrArg (fun x => x.2.2) h

/-- Events that are no packets, and that `write_usb` does not guard against. -/
theorem Sound.record (h : u.Sound env) {e : UsbEvent} (ha : e.isOutAttempt = false)
    (hf : e.isOutFault = false) : Sound env ⟨u.queue, u.io.record e⟩ := by
  refine { h with noFault := noFault_cons.mpr ⟨hf, h.noFault⟩, inFlight := fun hcm hb => ?_ }
  refine (h.inFlight hcm hb).imp_right fun ⟨buf, hbuf⟩ => ⟨buf, ?_⟩
  show List.find? _ (e :: u.io.history) = _
  rw [List.find?_cons_of_neg (by simp [ha]), hbuf]

end Usb

namespace Daemon

variable {env : Env} {d d' : Daemon}

/-- **What the flags have to do with the program.** -/
structure Agreement (env : Env) (d : Daemon) : Prop where
  sound : d.usb.io.doExit = 0 → d.usb.Sound env
  listening : d.usb.io.doExit = 0 → d.pc.started = true → d.usb.Listening
  fresh : d.usb.io.doExit = 0 → d.pc = .allocated → d.usb.io.inSide = Transfers.initial.inSide
  exiting : d.pc.exiting = true → d.usb.io.doExit ≠ 0

theorem initial_agreement (env : Env) : (initial env).Agreement env where
  sound := fun _ => Usb.initial_sound env
  listening := fun _ h => nomatch h
  fresh := fun _ _ => rfl
  exiting := fun h => nomatch h

/-- The daemon is to stop, so that nothing is asked. -/
theorem agreement_of_exit (h : d.usb.io.doExit ≠ 0) : d.Agreement env :=
  ⟨fun h0 => absurd h0 h, fun h0 => absurd h0 h, fun h0 => absurd h0 h, fun _ => h⟩

/-- A step in the main loop that leaves the input side alone. -/
theorem Agreement.go (h : d.Agreement env) (hin : d'.usb.io.inSide = d.usb.io.inSide)
    (hsound : d.usb.io.doExit = 0 → d.usb.Sound env → d'.usb.Sound env)
    (hpc : d'.pc = d.pc ∨ (d.pc.started = true ∧ d'.pc.exiting = false ∧ d'.pc ≠ .allocated)) :
    d'.Agreement env := by
  have hexit := Usb.doExit_of_inSide hin
  refine ⟨fun h0 => ?_, fun h0 hst => ?_, fun h0 hp => ?_, fun hp => ?_⟩
  · exact hsound (hexit ▸ h0) (h.sound (hexit ▸ h0))
  · refine (h.listening (hexit ▸ h0) ?_).congr hin
    rcases hpc with heq | ⟨hst', _⟩
    · exact heq ▸ hst
    · exact hst'
  · rcases hpc with heq | ⟨_, _, hne⟩
    · exact hin.trans (h.fresh (hexit ▸ h0) (heq ▸ hp))
    · exact absurd hp hne
  · rcases hpc with heq | ⟨_, hne, _⟩
    · exact hexit ▸ h.exiting (heq ▸ hp)
    · rw [hp] at hne
      cases hne

theorem started_of_inLibusb (h : d.inLibusb = true) : d.pc.started = true := by
  simp only [inLibusb] at h
  split at h
  next hpc => rw [hpc]; rfl
  next hpc => rw [hpc]; rfl
  · cases h

/-- **The input callback**, in a daemon that goes on. -/
theorem Agreement.intrIn (h : d.Agreement env) (hst : d.pc.started = true) (hpc : d'.pc = d.pc)
    {data : Bytes} {u : Usb} {signal : Bool}
    (hw : Usb.Writes env (d.usb.intrInBegin env .completed data) u)
    (heq : d'.usb = u.intrInEnd env signal) : d'.Agreement env := by
  have hbegin : (d.usb.intrInBegin env .completed data).io.inSide =
      ((false, false, false, false), d.usb.io.intrInTransfer, d.usb.io.doExit) := by
    simp only [Usb.intrInBegin]
    split
    · exact Usb.maybeFinish_inSide env _
    split
    · rfl
    · rfl
  have hu := hw.inSide.trans hbegin
  rcases Usb.intrInEnd_cases env u signal with ⟨n, calls, hs, hn, _, hend⟩ | ⟨hexit, _, hend⟩
  · exact agreement_of_exit (by rw [heq, hend]; exact hn)
  · have hd : d.usb.io.doExit = 0 := by
      rw [← hexit]
      exact (congrArg (fun x => x.2.2) hu).symm
    have hlisten := h.listening hd hst
    have hsound : d'.usb.Sound env := by
      rw [heq]
      exact Usb.intrInEnd_sound (hw.sound (Usb.intrInBegin_sound (h.sound hd) .completed data)) signal
    simp only [Transfers.inSide, Prod.mk.injEq] at hu
    obtain ⟨⟨_, hcanceling, _, hrequested⟩, htransfer, _⟩ := hu
    have hlisten' : d'.usb.Listening := by
      rw [heq, hend]
      exact ⟨htransfer.trans hlisten.transfer, rfl, hcanceling, rfl, hrequested⟩
    refine ⟨fun _ => hsound, fun _ _ => hlisten', fun _ hp => ?_, fun hp => ?_⟩
    · rw [hpc] at hp
      rw [hp] at hst
      cases hst
    · rw [hpc] at hp
      exact absurd hd (h.exiting hp)

theorem startTransfers_doExit (env : Env) (t : Transfers) :
    (t.startTransfers env).1.doExit = t.doExit := by
  by_cases hsub : t.intrInSubmitted = true
  · simp [Transfers.startTransfers, hsub]
  · by_cases hr : env.submitIn t.submitInCalls < 0
    · simp [Transfers.startTransfers, Transfers.submitIn, hsub, hr]
    · simp [Transfers.startTransfers, Transfers.submitIn, hsub, hr]

/-- **Every step keeps the flags in agreement.** -/
theorem Agreement.step (h : d.Agreement env) (ht : d.Tables env) {label : Label}
    (hs : d.step env label = some d') : d'.Agreement env := by
  rcases usb_kind ht hs with ⟨hw, hpc⟩ | ⟨n, es, hn, _, heq, _⟩ | ⟨snap, timeout, hpc, hpc', heq⟩ |
    ⟨snap, timeout, hpc, hpc', heq⟩ | ⟨snap, snap', timeout, nready, hpc, hpc', hw⟩ |
    ⟨hpc, heq, hpc'⟩ | ⟨status, _, howned, hcancel, hlib, heq, hpc⟩ |
    ⟨status, data, howned, hcancel, hlib, _, hpc, hcase⟩ | ⟨snap, _, hpc, hpc', heq⟩ |
    ⟨_, _, _, _, hpc, hpc', _, heq⟩ | ⟨io, hpc, _, hsame, _, _, heq⟩
  · refine h.go hw.inSide (fun _ hsound => hw.sound hsound) (hpc.imp And.right ?_)
    rintro ⟨hst, _, hplain⟩
    refine ⟨hst, ?_, ?_⟩
    · cases hp : d'.pc with
      | cancelOut | cancelIn | drain | draining =>
        rw [hp] at hplain
        cases hplain
      | _ => rfl
    · intro hp
      rw [hp] at hplain
      cases hplain
  · exact agreement_of_exit (by rw [heq]; exact hn)
  · refine h.go (by rw [heq]; rfl) (fun _ hsound => ?_) (Or.inr ⟨by rw [hpc]; rfl, by rw [hpc']; rfl,
      by rw [hpc']; simp⟩)
    rw [heq]
    exact hsound.record rfl rfl
  · refine h.go (by rw [heq]; rfl) (fun _ hsound => ?_) (Or.inr ⟨by rw [hpc]; rfl, by rw [hpc']; rfl,
      by rw [hpc']; simp⟩)
    rw [heq]
    exact hsound.record rfl rfl
  · refine h.go (hw.inSide.trans rfl) (fun _ hsound => hw.sound (hsound.record rfl rfl))
      (Or.inr ⟨by rw [hpc]; rfl, by rw [hpc']; rfl, by rw [hpc']; simp⟩)
  · rcases Nat.eq_zero_or_pos d.usb.io.doExit with h0 | hpos
    · have hin := h.fresh h0 hpc
      simp only [Transfers.inSide, Transfers.initial, Prod.mk.injEq] at hin
      obtain ⟨⟨hsub, _, _, hreq⟩, htr, _⟩ := hin
      by_cases hr : env.submitIn d.usb.io.submitInCalls < 0
      · have hval : d.usb.io.startTransfers env = ({ d.usb.io with
            submitInCalls := d.usb.io.submitInCalls + 1
            history := .inSubmit false :: d.usb.io.history },
            env.submitIn d.usb.io.submitInCalls) := by
          simp [Transfers.startTransfers, Transfers.submitIn, hsub, hr]
        rw [hval, if_pos hr] at hpc'
        rw [hval] at heq
        refine ⟨fun _ => ?_, fun _ hst => ?_, fun _ hp => ?_, fun hp => ?_⟩
        · have hrec := (h.sound h0).record (e := .inSubmit false) rfl rfl
          rw [heq]
          exact { hrec with }
        · rw [hpc'] at hst
          cases hst
        · rw [hpc'] at hp
          cases hp
        · rw [hpc'] at hp
          cases hp
      · have hval : d.usb.io.startTransfers env = ({ d.usb.io with
            submitInCalls := d.usb.io.submitInCalls + 1
            intrInSubmitted := true
            inOwned := true
            intrInCanceling := false
            history := .inSubmit true :: d.usb.io.history }, 0) := by
          simp [Transfers.startTransfers, Transfers.submitIn, hsub, hr]
        rw [hval, if_neg (by simp)] at hpc'
        rw [hval] at heq
        refine ⟨fun _ => ?_, fun _ _ => ?_, fun _ hp => ?_, fun hp => ?_⟩
        · have hrec := (h.sound h0).record (e := .inSubmit true) rfl rfl
          rw [heq]
          exact { hrec with }
        · rw [heq]
          exact ⟨htr, rfl, rfl, rfl, hreq⟩
        · rw [hpc'] at hp
          cases hp
        · rw [hpc'] at hp
          cases hp
    · refine agreement_of_exit ?_
      rw [heq]
      exact (startTransfers_doExit env d.usb.io).trans_ne hpos.ne'
  · have hst := started_of_inLibusb hlib
    by_cases h0 : (d.usb.intrOutCb env status).io.doExit = 0
    · have hin : (d.usb.intrOutCb env status).io.inSide = d.usb.io.inSide := by
        cases status with
        | completed => exact Usb.maybeFinish_inSide env _
        | cancelled => rfl
        | error | timedOut | stall | noDevice | overflow => cases h0
      refine h.go (by rw [heq, hin]) (fun hd hsound => ?_) (Or.inl hpc)
      rw [heq]
      refine Usb.intrOutCb_sound hsound (fun hc => ?_) h0
      exact absurd (hcancel hc) (by rw [hsound.cancelRequested]; decide)
    · exact agreement_of_exit (by rw [heq]; exact h0)
  · have hst := started_of_inLibusb hlib
    rcases hcase with ⟨rfl, u, signal, hw, heq⟩ | ⟨hne, heq⟩
    · exact h.intrIn hst hpc hw heq
    · rcases Nat.eq_zero_or_pos d.usb.io.doExit with h0 | hpos
      · have hlisten := h.listening h0 hst
        cases status with
        | completed => exact absurd rfl hne
        | cancelled => exact absurd (hcancel rfl) (by rw [hlisten.cancelRequested]; decide)
        | error | timedOut | stall | noDevice | overflow =>
          exact agreement_of_exit (by rw [heq]; exact Nat.succ_ne_zero 1)
      · refine agreement_of_exit ?_
        rw [heq]
        cases status with
        | completed => exact absurd rfl hne
        | cancelled => exact hpos.ne'
        | error | timedOut | stall | noDevice | overflow => exact Nat.succ_ne_zero 1
  · refine h.go (by rw [heq]; exact Usb.maybeFinish_inSide env _) (fun _ hsound => ?_)
      (Or.inr ⟨by rw [hpc]; rfl, by rw [hpc']; rfl, by rw [hpc']; simp⟩)
    rw [heq]
    exact Usb.ackTimeout_sound hsound
  · refine h.go (by rw [heq]) (fun _ hsound => heq ▸ hsound)
      (Or.inr ⟨by rw [hpc]; rfl, by rw [hpc']; rfl, by rw [hpc']; simp⟩)
  · refine agreement_of_exit ?_
    rw [heq]
    exact (congrArg Prod.fst hsame).trans_ne (h.exiting hpc)

/-- **In every reachable state the flags agree.** -/
theorem Reachable.agreement (h : Reachable env d) : d.Agreement env :=
  Transition.Run.invariant_along h (initial_agreement env) fun _ _ _ hr hi _ hs =>
    hi.step (Reachable.tables hr) hs

/-- **The flags of the running daemon agree**: in every reachable state in which it is not
to stop, after the transfers were started. -/
theorem flags_agree (h : Reachable env d) (hstarted : d.pc.started = true)
    (hexit : d.usb.io.doExit = 0) :
    ((d.usb.io.intrOutSubmitted = true ↔ d.usb.io.intrOutCompleted = false) ∧
        (d.usb.io.intrOutSubmitted = true → d.usb.queue.outbusy = true)) ∧
      ((d.usb.queue.outbusy = false →
          d.usb.queue.outhead = d.usb.queue.outtail ∧ d.usb.queue.pollTimeOut = -1) ∧
        (d.usb.queue.outbusy = true → d.usb.queue.pollTimeOut = 2000)) ∧
      (d.usb.io.intrInSubmitted = true ∧ d.usb.io.intrInCanceling = false) ∧
      ((env.cm19a = false → d.usb.io.intrOutCompleted = true →
          d.usb.io.x10AckReceived = false ∧ d.usb.io.x10AckTimedOut = false) ∧
        (env.cm19a = true → d.usb.queue.outbusy = true →
          d.usb.io.outOwned = true ∨ LastAttemptFailed d.usb.io.history)) ∧
      NoFault d.usb.io.history := by
  have hsound := (Reachable.agreement h).sound hexit
  have hlisten := (Reachable.agreement h).listening hexit hstarted
  refine ⟨⟨?_, hsound.busy⟩, ⟨fun hb => ?_, hsound.queue.busy⟩, ⟨hlisten.submitted, hlisten.canceling⟩,
    ⟨hsound.gate, fun hcm hb => ?_⟩, hsound.noFault⟩
  · rw [hsound.completed]
    simp
  · obtain ⟨hempty, htime⟩ := hsound.queue.idle hb
    exact ⟨hempty, htime⟩
  · rw [hsound.owned]
    exact hsound.inFlight hcm hb

/-- The first packet of a CM19A is under way, and seven wait. -/
theorem flags_agree_cm19a :
    ∃ d, Reachable (.plain mochadConfigDefaults true) d ∧ d.pc.started = true ∧
      d.usb.io.doExit = 0 ∧ d.usb.queue.pollTimeOut = 2000 ∧ NoFault d.usb.io.history := by
  have hreach : ∃ d, Reachable (.plain mochadConfigDefaults true) d ∧
      (d.pc.started = true ∧ d.usb.io.doExit = 0 ∧ d.usb.queue.outbusy = true) :=
    Transition.exists_run_of_exec [.startTransfers, .initcm1Xa] (by decide +kernel)
  obtain ⟨d, hrun, hst, hexit, hbusy⟩ := hreach
  obtain ⟨_, ⟨_, htime⟩, _, _, hfault⟩ := flags_agree hrun hst hexit
  exact ⟨d, hrun, hst, hexit, htime hbusy, hfault⟩

end Daemon

end Mochad
