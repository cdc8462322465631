import Mochad.Core.UsbSide
import Mochad.Usb.Pacing

/-!
# The pace of a run

`Usb.Paced` is kept by every step that meets `Daemon.InPace`: when the main loop counts a
`poll()` that timed out as an acknowledgement, the last packet was submitted before that
call, and was not lost; and no acknowledgement comes for a packet that was lost. So in a
run of such steps every packet waits until the last one is done with
(`Daemon.finished_between`).

The daemon itself does not see to the condition. It looks for a timeout after libusb has
handled its events, and a callback may have submitted the next packet meanwhile;
`Daemon.released_too_early` is a run in which a packet so goes out without the last one
having been acknowledged or waited for.
-/

namespace Mochad

namespace Usb

variable {env : Env} {u u' : Usb}

/-- The history only grows, and by no call of `poll()`. -/
def Extends (u u' : Usb) : Prop :=
  ∃ es, u'.io.history = es ++ u.io.history ∧ .pollStarted ∉ es

theorem Extends.refl (u : Usb) : u.Extends u := ⟨[], rfl, by simp⟩

theorem Extends.trans {u'' : Usb} (h : u.Extends u') (h' : u'.Extends u'') : u.Extends u'' := by
  obtain ⟨es, heq, hes⟩ := h
  obtain ⟨es', heq', hes'⟩ := h'
  exact ⟨es' ++ es, by rw [heq', heq, List.append_assoc],
    fun hmem => (List.mem_append.mp hmem).elim hes' hes⟩

/-- One more event. -/
theorem extends_cons {e : UsbEvent} (he : e ≠ .pollStarted)
    (h : u'.io.history = e :: u.io.history) : u.Extends u' :=
  ⟨[e], h, fun hmem => he (List.mem_singleton.mp hmem).symm⟩

theorem writeUsb_extends (env : Env) (q : X10Queue) (t : Transfers) (buf : Bytes) (q' : X10Queue) :
    Extends ⟨q, t⟩ ⟨q', (t.writeUsb env buf).1⟩ := by
  simp only [Transfers.writeUsb]
  split
  · exact extends_cons (e := .outUnavailable) (by simp) rfl
  split
  · exact extends_cons (e := .outBusy) (by simp) rfl
  split
  · exact extends_cons (e := .outTooLong) (by simp) rfl
  have hwritten : ∃ es, (if t.outOwned then UsbEvent.outOverwritten :: t.history else t.history) =
      es ++ t.history ∧ .pollStarted ∉ es := by
    split
    · exact ⟨[.outOverwritten], rfl, by simp⟩
    · exact ⟨[], rfl, by simp⟩
  obtain ⟨es, heq, hes⟩ := hwritten
  split
  · exact ⟨.outSubmitFailed buf :: es, congrArg (_ :: ·) heq, by simp [hes]⟩
  · exact ⟨.outSubmit buf :: es, congrArg (_ :: ·) heq, by simp [hes]⟩

theorem x10Write_extends (env : Env) (u : Usb) (buf : Bytes) :
    u.Extends (u.x10Write env buf).1 := by
  simp only [x10Write, X10Queue.x10Write]
  split
  · exact Extends.refl u
  split
  · exact ⟨[], rfl, by simp⟩
  split
  · exact writeUsb_extends env u.queue u.io buf _
  · exact writeUsb_extends env u.queue u.io buf _

theorem Writes.extends (hw : u.Writes env u') : u.Extends u' := by
  induction hw with
  | refl => exact Extends.refl u
  | tail _ hb ih =>
    obtain ⟨buf, rfl⟩ := hb
    exact ih.trans (x10Write_extends env _ buf)

theorem maybeFinish_extends (env : Env) (u : Usb) :
    u.Extends (u.maybeFinishX10Transmit env) := by
  have hrelease : u.Extends (u.release env) := by
    simp only [release, sendNextX10out, X10Queue.sendNextX10out]
    split
    · split
      · exact ⟨[], rfl, by simp⟩
      split
      · exact writeUsb_extends env u.queue u.io.spent _ _
      · exact writeUsb_extends env u.queue u.io.spent _ _
    · exact ⟨[], rfl, by simp⟩
  rw [maybeFinishX10Transmit]
  split
  · exact Extends.refl u
  split
  · exact hrelease
  split
  · exact Extends.refl u
  · exact hrelease

theorem intrOutCb_extends (env : Env) (u : Usb) (status : TransferStatus) :
    u.Extends (u.intrOutCb env status) := by
  cases status with
  | completed =>
    refine Extends.trans ?_ (maybeFinish_extends env _)
    exact extends_cons (e := .outDone .completed) (by simp) rfl
  | cancelled | error | timedOut | stall | noDevice | overflow =>
    exact extends_cons (e := .outDone _) (by simp) rfl

theorem intrInBegin_extends (env : Env) (u : Usb) (status : TransferStatus) (data : Bytes) :
    u.Extends (u.intrInBegin env status data) := by
  cases status with
  | completed =>
    simp only [intrInBegin]
    split
    · refine Extends.trans ?_ (maybeFinish_extends env _)
      exact extends_cons (e := .inDone .completed data) (by simp) rfl
    split
    · exact extends_cons (e := .inDone .completed data) (by simp) rfl
    · exact extends_cons (e := .inDone .completed data) (by simp) rfl
  | cancelled | error | timedOut | stall | noDevice | overflow =>
    exact extends_cons (e := .inDone _ data) (by simp) rfl

theorem intrInEnd_extends (env : Env) (u : Usb) (signal : Bool) :
    u.Extends (u.intrInEnd env signal) := by
  rcases intrInEnd_cases env u signal with ⟨n, calls, hs, _, rfl | rfl, heq⟩ | ⟨_, _, heq⟩
  · rw [heq]
    exact ⟨[], rfl, by simp⟩
  · rw [heq]
    exact extends_cons (e := .inSubmit false) (by simp) rfl
  · rw [heq]
    exact extends_cons (e := .inSubmit true) (by simp) rfl

theorem Writes.paced (hw : u.Writes env u') (h : u.Paced env) : u'.Paced env := by
  induction hw with
  | refl => exact h
  | tail _ hb ih =>
    obtain ⟨buf, rfl⟩ := hb
    exact x10Write_paced ih buf

/-- Events and flags that the pace does not depend on. -/
theorem Paced.record (h : u.Paced env) {e : UsbEvent} (he : e.isOutSubmit = false)
    (hdone : ∀ st, e ≠ .outDone st) : Paced env ⟨u.queue, u.io.record e⟩ := by
  refine h.append (l := [e]) ?_ (fun st hmem => hdone st (List.mem_singleton.mp hmem).symm)
    rfl rfl id id rfl
  intro x hx
  rw [List.mem_singleton.mp hx, he]

theorem startTransfers_paced (h : u.Paced env) :
    Paced env ⟨u.queue, (u.io.startTransfers env).1⟩ := by
  have hsubmit : ∀ ok, ∀ e ∈ [UsbEvent.inSubmit ok], e.isOutSubmit = false := by
    simp [UsbEvent.isOutSubmit]
  simp only [Transfers.startTransfers, Transfers.submitIn]
  split
  · exact h
  split
  · exact h.append (hsubmit false) (by simp) rfl rfl id id rfl
  · exact h.append (hsubmit true) (by simp) rfl rfl id id rfl

end Usb

namespace Daemon

variable {env : Env} {d d' : Daemon}

/-- The main loop is at the events that follow a `poll()` that timed out. -/
def timedOut (d : Daemon) : Bool :=
  match d.pc with
  | .events _ nready => nready = 0
  | _ => false

/-- **A step is in pace**: while packets wait, no timeout is counted for one that was
submitted after the call that timed out began, unless it was acknowledged; and neither a
timeout nor an acknowledgement is counted for one that was lost. -/
def InPace (env : Env) (d : Daemon) : Label → Prop
  | .handled => d.timedOut = true → d.usb.queue.outbusy = true → Accountable env d.usb.io.history
  | .intrIn status data _ => status = .completed → data = [0x55] → d.usb.queue.outbusy = true →
      EndedWell d.usb.io.history
  | _ => True

instance (d : Daemon) (label : Label) : Decidable (d.InPace env label) := by
  delta InPace
  rcases label with ⟨⟩ <;> dsimp only <;> infer_instance

/-- Where a poll stands in the history while the main loop is in it, or after it. -/
def PollAt (d : Daemon) : Prop :=
  match d.pc with
  | .polling _ _ => ∃ es rest, d.usb.io.history = es ++ .pollStarted :: rest ∧ .pollStarted ∉ es
  | .events _ nready => ∃ cbs es rest, d.usb.io.history =
      cbs ++ .pollReturned nready :: (es ++ .pollStarted :: rest) ∧
        .pollStarted ∉ cbs ∧ .pollStarted ∉ es
  | _ => True

theorem PollAt.mono (h : d.PollAt) (hpc : d'.pc = d.pc) (hu : d.usb.Extends d'.usb) :
    d'.PollAt := by
  obtain ⟨new, heq, hnew⟩ := hu
  rw [PollAt] at h ⊢
  rw [hpc]
  split
  next hp =>
    rw [hp] at h
    obtain ⟨es, rest, hh, hes⟩ := h
    exact ⟨new ++ es, rest, by rw [heq, hh, List.append_assoc],
      fun hmem => (List.mem_append.mp hmem).elim hnew hes⟩
  next hp =>
    rw [hp] at h
    obtain ⟨cbs, es, rest, hh, hcbs, hes⟩ := h
    exact ⟨new ++ cbs, es, rest, by rw [heq, hh, List.append_assoc],
      fun hmem => (List.mem_append.mp hmem).elim hnew hcbs, hes⟩
  · trivial

theorem pollAt_of_exiting (h : d.pc.exiting = true ∨ d.pc = .stopped ∨ d.pc.plain = true) :
    d.PollAt := by
  rw [PollAt]
  split
  next hp =>
    rw [hp] at h
    rcases h with h | h | h
    all_goals cases h
  next hp =>
    rw [hp] at h
    rcases h with h | h | h
    all_goals cases h
  · trivial

/-- The flags claim no more than has happened, and the loop knows which poll it is at. -/
structure Pacing (env : Env) (d : Daemon) : Prop where
  paced : d.usb.Paced env
  pollAt : d.PollAt

/-- **Every step that is in pace keeps the pace.** -/
theorem Pacing.step (hi : d.Pacing env) (ht : d.Tables env) {label : Label}
    (hok : d.InPace env label) (hs : d.step env label = some d') : d'.Pacing env := by
  obtain ⟨h, hp⟩ := hi
  rcases usb_kind ht hs with ⟨hw, hpc⟩ | ⟨n, es, hn, hes, heq, hpc⟩ | ⟨snap, timeout, hpc, hpc', heq⟩ |
    ⟨snap, timeout, hpc, hpc', heq⟩ | ⟨snap, snap', timeout, nready, hpc, hpc', hw⟩ |
    ⟨hpc, heq, hpc'⟩ | ⟨status, _, howned, hcancel, hlib, heq, hpc⟩ |
    ⟨status, data, howned, hcancel, hlib, ⟨signal, rfl⟩, hpc, hcase⟩ | ⟨snap, rfl, hpc, hpc', heq⟩ |
    ⟨_, _, _, _, hpc, hpc', _, heq⟩ | ⟨io, hpc, hpc', hsame, _, _, heq⟩
  · refine ⟨hw.paced h, ?_⟩
    rcases hpc with ⟨_, hpc⟩ | ⟨_, _, hplain⟩
    · exact hp.mono hpc hw.extends
    · exact pollAt_of_exiting (Or.inr (Or.inr hplain))
  · refine ⟨?_, ?_⟩
    · rw [heq]
      refine h.append (l := es) ?_ ?_ rfl rfl id id rfl
      · rcases hes with rfl | rfl
        · simp
        · simp [UsbEvent.isOutSubmit]
      · rcases hes with rfl | rfl
        · simp
        · simp
    · rcases hpc with ⟨rfl, hpc⟩ | ⟨_, _, hpc⟩
      · exact hp.mono hpc ⟨[], by rw [heq], by simp⟩
      · exact pollAt_of_exiting (Or.inl (hpc ▸ rfl))
  · refine ⟨heq ▸ h.record rfl (by simp), ?_⟩
    rw [PollAt, hpc', heq]
    exact ⟨[], d.usb.io.history, rfl, by simp⟩
  · refine ⟨heq ▸ h.record rfl (by simp), ?_⟩
    rw [PollAt, hpc']
    trivial
  · refine ⟨hw.paced (h.record rfl (by simp)), ?_⟩
    rw [PollAt, hpc] at hp
    obtain ⟨es, rest, hh, hes⟩ := hp
    obtain ⟨new, hnew, hnone⟩ := hw.extends
    rw [PollAt, hpc']
    exact ⟨new, es, rest, by rw [hnew, ← hh]; rfl, hnone, hes⟩
  · refine ⟨?_, ?_⟩
    · rw [heq]
      exact Usb.startTransfers_paced h
    · rw [PollAt, hpc']
      split
      next he => split at he <;> cases he
      next he => split at he <;> cases he
      · trivial
  · refine ⟨heq ▸ Usb.intrOutCb_paced h howned status, ?_⟩
    exact hp.mono hpc (heq ▸ Usb.intrOutCb_extends env d.usb status)
  · have hbegin := Usb.intrInBegin_paced h status data hok
    have hext := Usb.intrInBegin_extends env d.usb status data
    rcases hcase with ⟨_, u, signal', hw, heq⟩ | ⟨_, heq⟩
    · refine ⟨heq ▸ Usb.intrInEnd_paced (hw.paced hbegin) signal', hp.mono hpc ?_⟩
      rw [heq]
      exact (hext.trans hw.extends).trans (Usb.intrInEnd_extends env u signal')
    · exact ⟨heq ▸ hbegin, hp.mono hpc (heq ▸ hext)⟩
  · rw [PollAt, hpc] at hp
    obtain ⟨cbs, es, rest, hh, hcbs, hes⟩ := hp
    have htimed : d.timedOut = true := by rw [timedOut, hpc]; rfl
    refine ⟨heq ▸ Usb.ackTimeout_paced h fun hb => ?_, ?_⟩
    · obtain ⟨hwell, hwho⟩ := hok htimed hb
      refine ⟨hwell, hwho.imp_right (Or.imp_right fun hbefore => ?_)⟩
      exact hbefore.expired hh hcbs hes
    · rw [PollAt, hpc']
      trivial
  · refine ⟨heq ▸ h, ?_⟩
    rw [PollAt, hpc']
    trivial
  · simp only [outSide, Prod.mk.injEq] at hsame
    obtain ⟨_, ⟨hc, ho, ha, htime⟩, hh⟩ := hsame
    refine ⟨?_, pollAt_of_exiting (hpc'.imp_right Or.inl)⟩
    rw [heq]
    exact h.append (l := []) (by simp) (by simp) hc ho (fun h' => ha ▸ h') (fun h' => htime ▸ h') hh

/-- **Between two packets that libusb takes one after the other, the first is done with.** -/
def OneAtATime (env : Env) (h : List UsbEvent) : Prop :=
  ∀ post mid pre b₁ b₂, h = post ++ .outSubmit b₂ :: (mid ++ .outSubmit b₁ :: pre) →
    (∀ e ∈ mid, e.isOutSubmit = false) → Finished env mid

/-- **In a run whose steps are all in pace, every packet waits** until the one before it is
done with. -/
theorem finished_between (h : Transition.Run (step env) (InPace env) (initial env) d) :
    OneAtATime env d.usb.io.history := by
  have hinit : (initial env).Pacing env := ⟨Usb.initial_paced env, trivial⟩
  have hpacing : d.Pacing env :=
    Transition.Run.invariant_along h hinit fun _ _ _ hr hi hok hs =>
      hi.step (Reachable.tables hr.free) hok hs
  intro post mid pre b₁ b₂ hh hmid
  exact hpacing.paced.spaced.good hh rfl rfl hmid

/-- The controller asks for the time. -/
def clockRequest : Label := .intrIn .completed [0xa5, 0, 0, 0] false

/-- What it is told by `Env.plain`. -/
def clockAnswer : Bytes := [0x9b, 0x00, 0x00, 0x00, 0x00, 0x10, 0x60, 0x00]

/-- The controller asks for the time twice, and the second answer waits for the end of the
first one's transfer and for its acknowledgement. -/
theorem finished_between_clock :
    ∃ d post mid pre, Reachable (.plain mochadConfigDefaults false) d ∧
      d.usb.io.history = post ++ .outSubmit clockAnswer :: (mid ++ .outSubmit clockAnswer :: pre) ∧
      Finished (.plain mochadConfigDefaults false) mid := by
  let mid : List UsbEvent := [ackEvent, .outDone .completed, .inSubmit true,
    .inDone .completed [0xa5, 0, 0, 0], .inSubmit true]
  have hreach : ∃ d, Transition.Run (step (.plain mochadConfigDefaults false))
      (InPace (.plain mochadConfigDefaults false)) (initial (.plain mochadConfigDefaults false)) d ∧
      d.usb.io.history.take 8 = .inSubmit true :: .outSubmit clockAnswer ::
        (mid ++ [.outSubmit clockAnswer]) :=
    Transition.exists_run_of_exec (firstPoll .main ++ [clockRequest, clockRequest, .intrOut .completed,
      .intrIn .completed [0x55] false]) (by decide +kernel)
  obtain ⟨d, hrun, hh⟩ := hreach
  have hsplit : d.usb.io.history = [.inSubmit true] ++ .outSubmit clockAnswer ::
      (mid ++ .outSubmit clockAnswer :: d.usb.io.history.drop 8) := by
    conv_lhs => rw [← List.take_append_drop 8 d.usb.io.history, hh]
    rfl
  exact ⟨d, _, mid, _, hrun.free, hsplit, finished_between hrun _ _ _ _ _ hsplit (by decide)⟩

/-- **A packet can go out too early.** Three answers are asked for; a later `poll()` times
out; and before the timeout is counted, the first answer's transfer ends, it is
acknowledged, the second answer goes out, and its transfer ends. -/
theorem released_too_early :
    ¬ ∀ env d, Reachable env d → OneAtATime env d.usb.io.history := by
  have hreach : ∃ d, Reachable (.plain mochadConfigDefaults false) d ∧
      d.usb.io.history.take 3 =
        [.outSubmit clockAnswer, .outDone .completed, .inSubmit true] ∧
      d.usb.io.history.drop 3 = .outSubmit clockAnswer :: d.usb.io.history.drop 4 :=
    Transition.exists_run_of_exec (firstPoll .main ++ [clockRequest, clockRequest, clockRequest,
      .handled, .acceptFailed, .layOut none, .pollReturned [.none, .none, .none] 0,
      .intrOut .completed, .intrIn .completed [0x55] false, .intrOut .completed, .handled])
      (by decide +kernel)
  obtain ⟨d, hd, htake, hdrop⟩ := hreach
  have hsplit : d.usb.io.history = [] ++ .outSubmit clockAnswer ::
      ([.outDone .completed, .inSubmit true] ++ .outSubmit clockAnswer ::
        d.usb.io.history.drop 4) := by
    conv_lhs => rw [← List.take_append_drop 3 d.usb.io.history, htake, hdrop]
    rfl
  intro hall
  obtain ⟨_, hack⟩ := hall _ d hd _ _ _ _ _ hsplit (by decide)
  rcases hack with hcm | hack | htime
  · cases hcm
  · exact absurd hack (by decide)
  · exact absurd htime (by decide)

end Daemon

end Mochad
