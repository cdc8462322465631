import Mochad.Core.Tables
import Mochad.Usb.Transfers

/-!
# What a step does to the transfers

The USB side of the daemon is changed by few steps. Commands and decoded packets write
packets (`Daemon.Writes`); the main loop records its polls; libusb calls back; a poll that
timed out counts as an acknowledgement; and the shutdown cancels. `Daemon.usb_kind` says
which steps do which, and where they lead.
-/

namespace Mochad

/-- Neither at the start, nor in a poll or at the events after it, nor at the end. -/
def Pc.plain : Pc → Bool
  | .allocated => false
  | .stopped => false
  | .polling _ _ => false
  | .events _ _ => false
  | .cancelOut => false
  | .cancelIn => false
  | .drain _ => false
  | .draining _ => false
  | _ => true

/-- The main loop is over, and the transfers are being cancelled. -/
def Pc.exiting : Pc → Bool
  | .cancelOut => true
  | .cancelIn => true
  | .drain _ => true
  | .draining _ => true
  | _ => false

/-- The transfers were started, and the daemon has not stopped. -/
def Pc.started : Pc → Bool
  | .allocated => false
  | .stopped => false
  | _ => true

/-- The labels of the shutdown. -/
def Label.ofShutdown : Label → Bool
  | .cancel _ => true
  | .drainTurn => true
  | .drained _ => true
  | _ => false

open Relation (ReflTransGen)

/-- Packets are written. -/
abbrev Usb.Writes (env : Env) : Usb → Usb → Prop :=
  ReflTransGen fun u u' => ∃ buf, u' = (u.x10Write env buf).1

namespace Daemon

variable {env : Env} {d d' : Daemon} {label : Label}

theorem Move.usb {cause : Cause} (h : Move env cause d d') : d.usb.Writes env d'.usb := by
  cases h with
  | write buf => exact ReflTransGen.single ⟨buf, rfl⟩
  | send fd bytes _ =>
    rw [sendAll]
    split
    · exact ReflTransGen.refl
    · exact ReflTransGen.refl
  | _ => exact ReflTransGen.refl

theorem Moves.usb {cause : Cause} (h : Moves env cause d d') : d.usb.Writes env d'.usb :=
  Moves.invariant (P := fun a => d.usb.Writes env a.usb) h ReflTransGen.refl
    fun _ _ ha hm => ha.trans hm.usb

/-- **What the shutdown does to the transfers**: a transfer that libusb does not know is
taken for inactive, and one that it holds is asked for. -/
inductive Cancelling (d : Daemon) (label : Label) : Transfers → Prop
  | kept : Cancelling d label d.usb.io
  | outGone (hpc : d.pc = .cancelOut) (hlabel : label = .cancel libusbErrorNotFound) :
      Cancelling d label
        { d.usb.io with intrOutSubmitted := false, intrOutCanceling := false }
  | outAsked (howned : d.usb.io.outOwned = true) :
      Cancelling d label { d.usb.io with intrOutCanceling := true, outCancelRequested := true }
  | inGone (hpc : d.pc = .cancelIn) (hlabel : label = .cancel libusbErrorNotFound) :
      Cancelling d label { d.usb.io with intrInSubmitted := false, intrInCanceling := false }
  | inAsked (howned : d.usb.io.inOwned = true) :
      Cancelling d label { d.usb.io with intrInCanceling := true, inCancelRequested := true }

theorem doCancelOut_cancelling (hpc : d.pc = .cancelOut) {result : ℤ}
    (h : d.doCancelOut result = some d') :
    ∃ io, Cancelling d (.cancel result) io ∧
      d' = { d with usb := { d.usb with io := io }, pc := .cancelIn } := by
  simp only [doCancelOut] at h
  split at h
  · exact ⟨_, .kept, (Option.some.inj h).symm⟩
  split at h
  next hresult => exact ⟨_, .outGone hpc (by rw [hresult]), (Option.some.inj h).symm⟩
  split at h
  · exact ⟨_, .kept, (Option.some.inj h).symm⟩
  split at h
  next howned => exact ⟨_, .outAsked howned, (Option.some.inj h).symm⟩
  · cases h

theorem doCancelIn_cancelling (hpc : d.pc = .cancelIn) {result : ℤ}
    (h : d.doCancelIn result = some d') :
    ∃ io, Cancelling d (.cancel result) io ∧
      d' = { d with usb := { d.usb with io := io }, pc := .drain 100 } := by
  simp only [doCancelIn] at h
  split at h
  · exact ⟨_, .kept, (Option.some.inj h).symm⟩
  split at h
  next hresult => exact ⟨_, .inGone hpc (by rw [hresult]), (Option.some.inj h).symm⟩
  split at h
  · exact ⟨_, .kept, (Option.some.inj h).symm⟩
  split at h
  next howned => exact ⟨_, .inAsked howned, (Option.some.inj h).symm⟩
  · cases h

theorem Cancelling.outSide {io : Transfers} (h : Cancelling d label io) :
    Daemon.outSide io = Daemon.outSide d.usb.io := by
  cases h with
  | kept | outGone | outAsked | inGone | inAsked => rfl

/-- **What a step does to the transfers**, and where it leads. -/
inductive UsbKind (env : Env) (d : Daemon) (label : Label) (d' : Daemon) : Prop
  /-- Packets may be written. -/
  | writes (h : d.usb.Writes env d'.usb)
      (hpc : (d'.usb = d.usb ∧ d'.pc = d.pc) ∨
        (d.pc.started = true ∧ d.pc.exiting = false ∧ d'.pc.plain = true))
  /-- The daemon is to stop. -/
  | stop (n : ℕ) (es : List UsbEvent) (hn : n ≠ 0) (hes : es = [] ∨ es = [.pollReturned (-1)])
      (h : d'.usb = ⟨d.usb.queue, { d.usb.io with doExit := n, history := es ++ d.usb.io.history }⟩)
      (hpc : (es = [] ∧ d'.pc = d.pc) ∨
        (d.pc.started = true ∧ d.pc.exiting = false ∧ d'.pc = .cancelOut))
  /-- `poll()` begins. -/
  | polling (snap : Snapshot) (timeout : ℤ) (hpc : d.pc = .top) (hpc' : d'.pc = .polling snap timeout)
      (h : d'.usb = ⟨d.usb.queue, d.usb.io.record .pollStarted⟩)
  /-- `poll()` is interrupted. -/
  | interrupted (snap : Snapshot) (timeout : ℤ) (hpc : d.pc = .polling snap timeout)
      (hpc' : d'.pc = .top) (h : d'.usb = ⟨d.usb.queue, d.usb.io.record (.pollReturned (-1))⟩)
  /-- `poll()` returns. -/
  | polled (snap snap' : Snapshot) (timeout : ℤ) (nready : ℕ) (hpc : d.pc = .polling snap timeout)
      (hpc' : d'.pc = .events snap' nready)
      (h : Usb.Writes env ⟨d.usb.queue, d.usb.io.record (.pollReturned nready)⟩ d'.usb)
  /-- The input transfer is submitted for the first time. -/
  | start (hpc : d.pc = .allocated)
      (h : d'.usb = ⟨d.usb.queue, (d.usb.io.startTransfers env).1⟩)
      (hpc' : d'.pc = if (d.usb.io.startTransfers env).2 < 0 then .stopped else .transferring)
  /-- The output transfer has ended. -/
  | intrOut (status : TransferStatus) (hlabel : label = .intrOut status)
      (howned : d.usb.io.outOwned = true)
      (hcancel : status = .cancelled → d.usb.io.outCancelRequested = true)
      (hlib : d.inLibusb = true) (h : d'.usb = d.usb.intrOutCb env status) (hpc : d'.pc = d.pc)
  /-- The input transfer has ended. -/
  | intrIn (status : TransferStatus) (data : Bytes) (howned : d.usb.io.inOwned = true)
      (hcancel : status = .cancelled → d.usb.io.inCancelRequested = true)
      (hlib : d.inLibusb = true) (hlabel : ∃ signal, label = .intrIn status data signal)
      (hpc : d'.pc = d.pc)
      (h : (status = .completed ∧ ∃ u signal,
          Usb.Writes env (d.usb.intrInBegin env status data) u ∧ d'.usb = u.intrInEnd env signal) ∨
        (status ≠ .completed ∧ d'.usb = d.usb.intrInBegin env status data))
  /-- The acknowledgement has been waited for. -/
  | timeout (snap : Snapshot) (hlabel : label = .handled) (hpc : d.pc = .events snap 0)
      (hpc' : d'.pc = .top) (h : d'.usb = d.usb.ackTimeout env)
  /-- A listener cannot be created. -/
  | listenersFailed (main xml or20 : ℤ) (hlabel : label = .createListeners main xml or20)
      (hpc : d.pc = .initialised) (hpc' : d'.pc = .stopped)
      (hfail : main < 0 ∨ (env.config.xmlEnabled = true ∧ xml < 0) ∨
        (env.config.openremoteEnabled = true ∧ or20 < 0)) (h : d'.usb = d.usb)
  /-- The transfers are cancelled. -/
  | cancelling (io : Transfers) (hpc : d.pc.exiting = true)
      (hpc' : d'.pc.exiting = true ∨ d'.pc = .stopped)
      (hsame : outSide io = outSide d.usb.io) (hcancel : Cancelling d label io)
      (hlabel : label.ofShutdown = true) (h : d'.usb = ⟨d.usb.queue, io⟩)

/-- The main loop is left. -/
theorem leaving {es : List UsbEvent} {pc : Pc}
    (hpc : d.pc = pc) (hst : pc.started = true := by rfl) (hexit : pc.exiting = false := by rfl)
    (hpc' : d'.pc = .cancelOut := by rfl) :
    (es = [] ∧ d'.pc = d.pc) ∨ (d.pc.started = true ∧ d.pc.exiting = false ∧ d'.pc = .cancelOut) :=
  Or.inr ⟨hpc ▸ hst, hpc ▸ hexit, hpc'⟩

/-- A step that leaves the transfers alone and goes on in the main loop. -/
theorem usb_rest (h : d'.usb = d.usb) (hpc : d.pc.started = true) (hexit : d.pc.exiting = false)
    (hpc' : d'.pc.plain = true) : UsbKind env d label d' :=
  .writes (by rw [h]) (Or.inr ⟨hpc, hexit, hpc'⟩)

/-- A step that leaves the transfers and the place in the program alone. -/
theorem usb_same (h : d'.usb = d.usb) (hpc : d'.pc = d.pc) : UsbKind env d label d' :=
  .writes (by rw [h]) (Or.inl ⟨h, hpc⟩)

theorem counted_usb (d : Daemon) (l : ServiceLoop) (v : Visit) :
    (d.counted l v).usb = d.usb ∧ (d.counted l v).pc.plain = true := by
  simp only [counted]
  split
  · exact ⟨rfl, rfl⟩
  · exact ⟨rfl, rfl⟩

theorem afterListener_usb (d : Daemon) (snap : Snapshot) (nready : ℤ) (kind : Kind) :
    (d.afterListener snap nready kind).usb = d.usb ∧
      (d.afterListener snap nready kind).pc.plain = true := by
  cases kind with
  | main | xml | or20 => exact ⟨rfl, rfl⟩

theorem afterAccept_usb (d : Daemon) (snap : Snapshot) (nready : ℤ) (kind : Kind) :
    (d.afterAccept snap nready kind).usb = d.usb ∧
      (d.afterAccept snap nready kind).pc.plain = true := by
  rw [afterAccept]
  split
  · exact ⟨rfl, rfl⟩
  · exact afterListener_usb d snap _ kind

/-- **One turn of the service loop** leaves the transfers alone. -/
theorem doService_usb {l : ServiceLoop} {results : List SendResult} {now : ℕ} {read : ReadResult}
    (h : d.doService l results now read = some d') :
    d'.usb = d.usb ∧ d'.pc.plain = true := by
  have hclose : ∀ (a : Daemon) (fd : ℤ), (a.delClient fd).usb = a.usb := by
    intro a fd
    rw [delClient]
    split
    · rfl
    · rfl
  have hin : ∀ {a : Daemon} {e : PollEntry} {v : Visit}, a.doPollin l e v read = some d' →
      d'.usb = a.usb ∧ d'.pc.plain = true := by
    intro a e v ha
    simp only [doPollin] at ha
    split at ha
    · split at ha
      · obtain rfl := Option.some.inj ha
        obtain ⟨husb, hpc⟩ := counted_usb
          ((a.record (.serviced e.fd e.owner (a.connAt e.fd))).delClient e.fd) l v
        exact ⟨husb.trans (hclose _ _), hpc⟩
      · obtain rfl := Option.some.inj ha
        obtain ⟨husb, hpc⟩ := counted_usb
          ((a.record (.serviced e.fd e.owner (a.connAt e.fd))).delClient e.fd) l v
        exact ⟨husb.trans (hclose _ _), hpc⟩
      · split at ha
        · obtain rfl := Option.some.inj ha
          exact counted_usb _ l v
        · obtain rfl := Option.some.inj ha
          exact ⟨rfl, rfl⟩
    · cases ha
  have hout : ∀ e : PollEntry, (d.doPollout e results now).usb = d.usb := by
    intro e
    rw [doPollout]
    split
    · rfl
    · simp only [flushClientOutput]
      split
      · rw [hclose]
        split
        · rfl
        · rfl
      · split
        · rfl
        · rfl
  simp only [doService] at h
  split at h
  · cases h
  next e _ =>
    split at h
    · obtain rfl := Option.some.inj h
      exact ⟨rfl, rfl⟩
    · have hd₁ : (if e.revents.pollout then d.doPollout e results now else d).usb = d.usb := by
        split
        · exact hout e
        · rfl
      generalize (if e.revents.pollout then d.doPollout e results now else d) = d₁ at h hd₁
      split at h
      · obtain rfl := Option.some.inj h
        exact ⟨hd₁, rfl⟩
      split at h
      · obtain ⟨husb, hpc⟩ := hin h
        exact ⟨husb.trans hd₁, hpc⟩
      · obtain rfl := Option.some.inj h
        exact ⟨hd₁, rfl⟩

theorem doCreateListeners_usb {main xml or20 : ℤ}
    (h : d.doCreateListeners env main xml or20 = some d') :
    d'.usb = d.usb ∧ (d'.pc = .top ∨ (d'.pc = .stopped ∧
      (main < 0 ∨ (env.config.xmlEnabled = true ∧ xml < 0) ∨
        (env.config.openremoteEnabled = true ∧ or20 < 0)))) := by
  simp only [doCreateListeners] at h
  split at h
  · split at h
    next hfail =>
      obtain rfl := Option.some.inj h
      refine ⟨rfl, Or.inr ⟨rfl, ?_⟩⟩
      simpa [or_assoc] using hfail
    · obtain rfl := Option.some.inj h
      exact ⟨rfl, Or.inl rfl⟩
  · cases h

/-- A byte is taken: a command may write packets. -/
theorem doByte_usb (ht : d.Tables env) {l : ServiceLoop} {r : Reading} (hpc : d.pc = .encode l r)
    (h : d.doByte env l r = some d') :
    d.usb.Writes env d'.usb ∧ d'.pc.plain = true := by
  obtain ⟨b, rest, _, ⟨_, rfl⟩ | ⟨line, _, rfl⟩⟩ := doByte_cases h
  · exact ⟨ReflTransGen.refl, rfl⟩
  · have hafter := ht.afterByte hpc b rest
    have hmoves : Moves env _ _ _ :=
      runLine_moves hafter.descs hafter.wf (ht.reading l r hpc) line
    exact ⟨hmoves.usb, (congrArg Pc.plain hmoves.pc_eq).trans rfl⟩

/-- **Every step does one of these things to the transfers.** -/
theorem usb_kind (ht : d.Tables env) (h : d.step env label = some d') :
    UsbKind env d label d' := by
  cases label with
  | signal =>
    simp only [step] at h
    split at h
    · obtain rfl := Option.some.inj h
      exact .stop 1 [] (by decide) (Or.inl rfl) rfl (Or.inl ⟨rfl, rfl⟩)
    · cases h
  | otherOpened fd =>
    simp only [step, doOtherOpened] at h
    split at h
    · obtain rfl := Option.some.inj h
      exact usb_same rfl rfl
    · cases h
  | otherClosed fd =>
    simp only [step, doOtherClosed] at h
    split at h
    · obtain rfl := Option.some.inj h
      exact usb_same rfl rfl
    · cases h
  | startTransfers =>
    simp only [step] at h
    split at h
    next hpc =>
      obtain rfl := Option.some.inj h
      exact .start hpc rfl rfl
    · cases h
  | initcm1Xa =>
    simp only [step] at h
    split at h
    next hpc =>
      obtain rfl := Option.some.inj h
      refine .writes ?_ (Or.inr ⟨by rw [hpc]; rfl, by rw [hpc]; rfl, rfl⟩)
      have hwrites : ∀ (bufs : List Bytes) (u : Usb),
          u.Writes env (bufs.foldl (fun u buf => (u.x10Write env buf).1) u) := by
        intro bufs
        induction bufs with
        | nil => exact fun _ => ReflTransGen.refl
        | cons buf bufs ih => exact fun u => ReflTransGen.head ⟨buf, rfl⟩ (ih _)
      show d.usb.Writes env (if env.cm19a then _ else _)
      split
      · exact hwrites _ _
      · exact ReflTransGen.refl
    · cases h
  | createListeners main xml or20 =>
    simp only [step] at h
    split at h
    next hpc =>
      obtain ⟨husb, hp | ⟨hp, hfail⟩⟩ := doCreateListeners_usb h
      · exact usb_rest husb (by rw [hpc]; rfl) (by rw [hpc]; rfl) (by rw [hp]; rfl)
      · exact .listenersFailed main xml or20 rfl hpc hp hfail husb
    · cases h
  | layOut usbTimeout =>
    simp only [step] at h
    split at h
    next hpc =>
      obtain rfl := Option.some.inj h
      simp only [doLayOut]
      split
      next hexit => exact .stop d.usb.io.doExit [] hexit (Or.inl rfl) rfl (leaving hpc)
      split
      · exact .stop 2 [] (by decide) (Or.inl rfl) rfl (leaving hpc)
      · exact .polling _ _ hpc rfl rfl
    · cases h
  | layOutFailed =>
    simp only [step, doLayOutFailed] at h
    split at h
    next hpc =>
      split at h
      · obtain rfl := Option.some.inj h
        exact .stop 2 [] (by decide) (Or.inl rfl) rfl (leaving hpc)
      · cases h
    · cases h
  | pollInterrupted =>
    simp only [step, doPollFailed] at h
    split at h
    next hpc =>
      obtain rfl := Option.some.inj h
      exact .interrupted _ _ hpc rfl rfl
    · cases h
  | pollFailed =>
    simp only [step, doPollFailed] at h
    split at h
    next hpc =>
      obtain rfl := Option.some.inj h
      exact .stop 2 [.pollReturned (-1)] (by decide) (Or.inr rfl) rfl (leaving hpc)
    · cases h
  | pollReturned revents now =>
    simp only [step, doPollReturned] at h
    split at h
    next hpc =>
      split at h
      · obtain rfl := Option.some.inj h
        have hmoves : ∀ a : Daemon, Moves env .loop a (a.disconnectStalledClients now) :=
          fun _ => disconnectStalledClients_moves now
        have hwrites := (hmoves (d.usbRecord (.pollReturned (revents.filter Revents.any).length))).usb
        generalize Daemon.disconnectStalledClients _ now = a at hwrites ⊢
        exact .polled _ _ _ _ hpc rfl hwrites
      · cases h
    · cases h
  | intrOut status =>
    simp only [step, doIntrOut] at h
    split at h
    next hlib =>
      split at h
      next hok =>
        obtain rfl := Option.some.inj h
        exact .intrOut status rfl hok.1 hok.2 hlib rfl rfl
      · cases h
    · cases h
  | intrIn status data signal =>
    simp only [step, doIntrIn] at h
    split at h
    next hlib =>
      split at h
      next hok =>
        split at h
        next hst =>
          obtain rfl := Option.some.inj h
          have hmoves : Moves env .loop _ _ :=
            decode_moves (d := { d with usb := d.usb.intrInBegin env status data }) ht.descs ht.wf data
          exact .intrIn status data hok.1 hok.2.2 hlib ⟨signal, rfl⟩ hmoves.pc_eq
            (Or.inl ⟨hst, _, signal, hmoves.usb, rfl⟩)
        next hst =>
          obtain rfl := Option.some.inj h
          exact .intrIn status data hok.1 hok.2.2 hlib ⟨signal, rfl⟩ rfl (Or.inr ⟨hst, rfl⟩)
      · cases h
    · cases h
  | pollfdAdded p ok =>
    simp only [step, doPollfdAdded] at h
    split at h
    · split at h
      · split at h
        · obtain rfl := Option.some.inj h
          exact usb_same rfl rfl
        · obtain rfl := Option.some.inj h
          exact usb_same rfl rfl
      · cases h
    · cases h
  | pollfdRemoved fd =>
    simp only [step] at h
    split at h
    · obtain rfl := Option.some.inj h
      exact usb_same rfl rfl
    · cases h
  | handled =>
    simp only [step] at h
    split at h
    next snap nready hpc =>
      obtain rfl := Option.some.inj h
      rw [doHandled]
      split
      next hzero =>
        subst hzero
        exact .timeout snap rfl hpc rfl rfl
      · exact usb_rest rfl (by rw [hpc]; rfl) (by rw [hpc]; rfl) rfl
    · cases h
  | accept fd nonblocking =>
    simp only [step, doAccept] at h
    split at h
    next snap nready kind hpc =>
      split at h
      · obtain rfl := Option.some.inj h
        obtain ⟨husb, hp⟩ :=
          afterAccept_usb (d.addAccepted env kind fd nonblocking) snap nready kind
        refine usb_rest (husb.trans ?_) (by rw [hpc]; rfl) (by rw [hpc]; rfl) hp
        rcases addAccepted_cases env d kind fd nonblocking with ⟨s, _, heq⟩ | heq
        · rw [heq]
        · rw [heq]
      · cases h
    · cases h
  | acceptFailed =>
    simp only [step, doAcceptFailed] at h
    split at h
    next snap nready kind hpc =>
      split at h
      · obtain rfl := Option.some.inj h
        obtain ⟨husb, hp⟩ := afterAccept_usb d snap nready kind
        exact usb_rest husb (by rw [hpc]; rfl) (by rw [hpc]; rfl) hp
      · cases h
    · cases h
  | notReady =>
    simp only [step, doNotReady] at h
    split at h
    next snap nready kind hpc =>
      split at h
      · cases h
      · obtain rfl := Option.some.inj h
        obtain ⟨husb, hp⟩ := afterListener_usb d snap nready kind
        exact usb_rest husb (by rw [hpc]; rfl) (by rw [hpc]; rfl) hp
    · cases h
  | service results now read =>
    simp only [step] at h
    split at h
    next hpc =>
      obtain ⟨husb, hp⟩ := doService_usb h
      exact usb_rest husb (by rw [hpc]; rfl) (by rw [hpc]; rfl) hp
    · cases h
  | served =>
    simp only [step, doServed] at h
    split at h
    next hpc =>
      split at h
      · cases h
      · obtain rfl := Option.some.inj h
        exact usb_rest rfl (by rw [hpc]; rfl) (by rw [hpc]; rfl) rfl
    · cases h
  | byte =>
    simp only [step] at h
    split at h
    next l r hpc =>
      obtain ⟨hw, hp⟩ := doByte_usb ht hpc h
      exact .writes hw (Or.inr ⟨by rw [hpc]; rfl, by rw [hpc]; rfl, hp⟩)
    · cases h
  | encoded =>
    simp only [step] at h
    split at h
    next l r hpc =>
      obtain ⟨_, rfl⟩ := doEncoded_eq h
      obtain ⟨husb, hp⟩ := counted_usb (d.setState r.slot
        { (d.clients.slot r.slot).state with remlen := r.remptr }) l r.visit
      exact usb_rest husb (by rw [hpc]; rfl) (by rw [hpc]; rfl) hp
    · cases h
  | cancel result =>
    simp only [step] at h
    split at h
    next hpc =>
      obtain ⟨io, hcancel, rfl⟩ := doCancelOut_cancelling hpc h
      exact .cancelling io (by rw [hpc]; rfl) (Or.inl rfl) hcancel.outSide hcancel rfl rfl
    next hpc =>
      obtain ⟨io, hcancel, rfl⟩ := doCancelIn_cancelling hpc h
      exact .cancelling io (by rw [hpc]; rfl) (Or.inl rfl) hcancel.outSide hcancel rfl rfl
    · cases h
  | drainTurn =>
    simp only [step, doDrainTurn] at h
    split at h
    next hpc =>
      obtain rfl := Option.some.inj h
      split
      · exact .cancelling d.usb.io (by rw [hpc]; rfl) (Or.inr rfl) rfl .kept rfl rfl
      · exact .cancelling d.usb.io (by rw [hpc]; rfl) (Or.inl rfl) rfl .kept rfl rfl
    · cases h
  | drained result =>
    simp only [step, doDrained] at h
    split at h
    next hpc =>
      obtain rfl := Option.some.inj h
      split
      · exact .cancelling d.usb.io (by rw [hpc]; rfl) (Or.inr rfl) rfl .kept rfl rfl
      · exact .cancelling d.usb.io (by rw [hpc]; rfl) (Or.inl rfl) rfl .kept rfl rfl
    · cases h

end Daemon

end Mochad
