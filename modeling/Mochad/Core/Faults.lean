import Mochad.Core.Shutdown
import Mochad.Core.Stall

/-!
# Clients that fail

A client may vanish at any time, and its descriptor then fails to be read or written. The daemon
closes it, and nobody else. But there are two ways to write to a socket: `send_all` asks for no
signal when the peer is gone, and `flush_client_output` does not. The signal is `SIGPIPE`, for
which the daemon has no handler, and it ends the process.

`Host` is the process: the daemon runs in it until the signal comes. A label of it says of a turn
of the service loop whether the `send()` at which its flush failed found the peer gone.
`Host.Contained` is what is to hold in spite of all that clients do: the process runs; the main
loop was left for a reason that is none of theirs; and whoever was closed gave the reason himself.
It holds in just those runs in which no flush finds its peer gone (`Host.contained_iff`).
-/

namespace Mochad

open Relation (ReflTransGen)

namespace Daemon

variable {env : Env} {d d' : Daemon} {label : Label}

/-! ### Why the main loop ends -/

/-- **What ends the main loop**: a signal, or a failure of USB, of `poll()` or of an allocation. -/
inductive Stopping (d' : Daemon) : Label → Prop
  | signal : Stopping d' .signal
  | signalInCallback (status : TransferStatus) (data : Bytes) :
      Stopping d' (.intrIn status data true)
  /-- The output transfer has failed. -/
  | outFailed (status : TransferStatus) (hdone : status ≠ .completed)
      (hcancel : status ≠ .cancelled) : Stopping d' (.intrOut status)
  /-- The input transfer has failed. -/
  | inFailed (status : TransferStatus) (data : Bytes) (signal : Bool) (hdone : status ≠ .completed)
      (hcancel : status ≠ .cancelled) : Stopping d' (.intrIn status data signal)
  /-- libusb does not take the input transfer again. -/
  | inRefused (data : Bytes) (signal : Bool) (events : List UsbEvent)
      (hrefused : d'.usb.io.history = .inSubmit false :: events) :
      Stopping d' (.intrIn .completed data signal)
  | pollFailed : Stopping d' .pollFailed
  /-- `Pollfds` cannot be made large enough. -/
  | layOutFailed : Stopping d' .layOutFailed
  /-- There is no memory for a descriptor of libusb. -/
  | pollfdLost (p : Pollfd) : Stopping d' (.pollfdAdded p false)

/-- The daemon ends before it has come to its main loop. -/
def StartupFailed (d d' : Daemon) : Prop := d.pc.stage = .starting ∧ d'.pc = .stopped

/-- The main loop is over, or was never begun. -/
def isOver (d : Daemon) : Prop := d.pc.exiting = true ∨ d.pc = .stopped

/-- **Nothing asks the daemon to stop.** -/
structure Running (d : Daemon) : Prop where
  doExit : d.usb.io.doExit = 0
  pollfds : d.usbPollfdError = false
  exiting : d.pc.exiting = false
  stopped : d.pc ≠ .stopped

theorem Running.go (h : d.Running) (hexit : d'.usb.io.doExit = d.usb.io.doExit)
    (herror : d'.usbPollfdError = d.usbPollfdError) (hpc : d'.pc = d.pc ∨ d'.pc.plain = true) :
    d'.Running := by
  refine ⟨hexit.trans h.doExit, herror.trans h.pollfds, ?_, ?_⟩
  · rcases hpc with heq | hplain
    · rw [heq]
      exact h.exiting
    · cases hp : d'.pc with
      | cancelOut | cancelIn | drain | draining =>
        rw [hp] at hplain
        cases hplain
      | _ => rfl
  · rcases hpc with heq | hplain
    · rw [heq]
      exact h.stopped
    · intro hp
      rw [hp] at hplain
      cases hplain

theorem Moves.error {cause : Cause} (h : Moves env cause d d') :
    d'.usbPollfdError = d.usbPollfdError := congrArg (fun f => f.2.2.1) h.frame_eq

theorem Moves.doExit {cause : Cause} (h : Moves env cause d d') :
    d'.usb.io.doExit = d.usb.io.doExit := Usb.doExit_of_inSide h.usb.inSide

theorem counted_error (d : Daemon) (l : ServiceLoop) (v : Visit) :
    (d.counted l v).usbPollfdError = d.usbPollfdError := by
  rcases counted_cases d l v with ⟨_, heq⟩ | ⟨_, heq⟩
  · rw [heq]
    rfl
  · rw [heq]

theorem afterListener_error (d : Daemon) (snap : Snapshot) (nready : ℤ) (kind : Kind) :
    (d.afterListener snap nready kind).usbPollfdError = d.usbPollfdError := by
  cases kind with
  | main | xml | or20 => rfl

theorem afterAccept_error (d : Daemon) (snap : Snapshot) (nready : ℤ) (kind : Kind) :
    (d.afterAccept snap nready kind).usbPollfdError = d.usbPollfdError := by
  rcases afterAccept_cases d snap nready kind with ⟨_, heq⟩ | ⟨_, heq⟩
  · rw [heq]
    rfl
  · rw [heq, afterListener_error]

/-- A turn of the service loop has nothing to do with it. -/
theorem doService_error (env : Env) {l : ServiceLoop} {results : List SendResult} {now : ℕ}
    {read : ReadResult} (hs : d.doService l results now read = some d') :
    d'.usbPollfdError = d.usbPollfdError := by
  obtain ⟨_, e, _, ⟨_, rfl⟩ | ⟨hpos, d₁, flushed, rfl, _, hcase⟩⟩ := doService_cases hs
  · rfl
  have hfd : e.fd ≠ -1 := by omega
  have hout : (if e.revents.pollout then d.doPollout e results now else d).usbPollfdError =
      d.usbPollfdError := by
    split
    · rcases doPollout_eq d e results now with ⟨_, heq⟩ | ⟨s, hfound, heq⟩
      · rw [heq]
      · have hlive : ((d.servicing e).clients.slot s).fd ≠ -1 := by
          have hslot : (d.clients.slot s).fd = e.fd := Clients.fd_of_find hfound
          exact fun hneg => hfd (hslot ▸ hneg)
        have hmoves : Moves env .loop (d.servicing e) _ :=
          flushClientOutput_moves hlive results now
        rw [heq]
        exact hmoves.error
    · rfl
  refine Eq.trans ?_ hout
  rcases hcase with ⟨_, _, rfl⟩ | ⟨_, ⟨_, hread⟩ | ⟨_, rfl⟩⟩
  · rfl
  · rcases doPollin_eq hread with rfl | rfl | ⟨s, bytes, _, rfl⟩
    · rw [counted_error, delClient]
      split
      · rfl
      · rfl
    · rw [counted_error]
      rfl
    · rfl
  · rfl

/-- **The input callback** stops the daemon, or leaves it running. -/
theorem Running.intrIn (h : d.Running) (ht : d.Tables env) {status : TransferStatus} {data : Bytes}
    {signal : Bool} (hs : d.doIntrIn env status data signal = some d') :
    Stopping d' (.intrIn status data signal) ∨ d'.Running := by
  simp only [doIntrIn] at hs
  split at hs
  next hok =>
    split at hs
    next hdone =>
      subst hdone
      obtain rfl := Option.some.inj hs
      let d₁ : Daemon := { d with usb := d.usb.intrInBegin env .completed data }
      have hbuf : Moves env .loop { d₁ with intrInBuf := memcpy d₁.intrInBuf data }
          (d₁.decode env data) := decode_moves (d := d₁) ht.descs ht.wf data
      have hbegin : (d.usb.intrInBegin env .completed data).io.doExit = d.usb.io.doExit := by
        simp only [Usb.intrInBegin]
        split
        · exact Usb.maybeFinish_doExit env _
        split
        · rfl
        · rfl
      have hexit : (d₁.decode env data).usb.io.doExit = 0 :=
        hbuf.doExit.trans (hbegin.trans h.doExit)
      rcases Usb.intrInEnd_cases env (d₁.decode env data).usb signal with
        ⟨n, calls, hs, hn, hhistory, hend⟩ | ⟨_, _, hend⟩
      · left
        cases signal with
        | true => exact .signalInCallback .completed data
        | false =>
          by_cases hr : env.submitIn (d₁.decode env data).usb.io.submitInCalls < 0
          · refine .inRefused data false (d₁.decode env data).usb.io.history ?_
            show ((d₁.decode env data).usb.intrInEnd env false).io.history = _
            simp [Usb.intrInEnd, Transfers.submitIn, hexit, hr]
          · have htaken : ((d₁.decode env data).usb.intrInEnd env false).io.doExit = 0 := by
              simp [Usb.intrInEnd, Transfers.submitIn, hexit, hr]
            rw [hend] at htaken
            exact absurd htaken hn
      · right
        refine h.go ?_ hbuf.error (Or.inl hbuf.pc_eq)
        show ((d₁.decode env data).usb.intrInEnd env signal).io.doExit = _
        rw [hend]
        exact hexit.trans h.doExit.symm
    next hdone =>
      obtain rfl := Option.some.inj hs
      cases status with
      | completed => exact absurd rfl hdone
      | cancelled => exact Or.inr (h.go rfl rfl (Or.inl rfl))
      | error | timedOut | stall | noDevice | overflow =>
        exact Or.inl (.inFailed _ data signal hdone (by rintro ⟨⟩))
  · cases hs

/-- **A daemon that runs goes on running**, unless one of these things happens. -/
theorem Running.step (h : d.Running) (ht : d.Tables env) (hs : d.step env label = some d') :
    (Stopping d' label ∨ StartupFailed d d') ∨ d'.Running := by
  cases label with
  | signal => exact Or.inl (Or.inl .signal)
  | otherOpened fd =>
    simp only [Daemon.step, doOtherOpened] at hs
    split at hs
    · obtain rfl := Option.some.inj hs
      exact Or.inr (h.go rfl rfl (Or.inl rfl))
    · cases hs
  | otherClosed fd =>
    simp only [Daemon.step, doOtherClosed] at hs
    split at hs
    · obtain rfl := Option.some.inj hs
      exact Or.inr (h.go rfl rfl (Or.inl rfl))
    · cases hs
  | startTransfers =>
    simp only [Daemon.step] at hs
    split at hs
    next hpc =>
      obtain rfl := Option.some.inj hs
      have hexit := startTransfers_doExit env d.usb.io
      by_cases hr : (d.usb.io.startTransfers env).2 < 0
      · refine Or.inl (Or.inr ⟨by rw [hpc]; rfl, ?_⟩)
        simp only [doStartTransfers, if_pos hr]
      · refine Or.inr (h.go hexit rfl (Or.inr ?_))
        simp only [doStartTransfers, if_neg hr]
        rfl
    · cases hs
  | initcm1Xa =>
    simp only [Daemon.step] at hs
    split at hs
    · obtain rfl := Option.some.inj hs
      have hwrites : ∀ (bufs : List Bytes) (u : Usb),
          (bufs.foldl (fun u buf => (u.x10Write env buf).1) u).io.doExit = u.io.doExit := by
        intro bufs
        induction bufs with
        | nil => exact fun _ => rfl
        | cons buf bufs ih =>
          exact fun u => (ih _).trans (Usb.doExit_of_inSide (Usb.x10Write_inSide env u buf))
      refine Or.inr (h.go ?_ rfl (Or.inr rfl))
      show (if env.cm19a then _ else _ : Usb).io.doExit = _
      split
      · exact hwrites _ _
      · rfl
    · cases hs
  | createListeners main xml or20 =>
    simp only [Daemon.step] at hs
    split at hs
    next hpc =>
      simp only [doCreateListeners] at hs
      split at hs
      · split at hs
        · obtain rfl := Option.some.inj hs
          exact Or.inl (Or.inr ⟨by rw [hpc]; rfl, rfl⟩)
        · obtain rfl := Option.some.inj hs
          exact Or.inr (h.go rfl rfl (Or.inr rfl))
      · cases hs
    · cases hs
  | layOut usbTimeout =>
    simp only [Daemon.step] at hs
    split at hs
    · obtain rfl := Option.some.inj hs
      have hlaid : d.doLayOut usbTimeout = { d.usbRecord .pollStarted with
          pc := .polling d.layout (combinedPollTimeoutMs d.usb.queue.pollTimeOut usbTimeout) } := by
        rw [doLayOut, if_neg (not_not.mpr h.doExit), if_neg (by simp [h.pollfds])]
      rw [hlaid]
      exact Or.inr ⟨h.doExit, h.pollfds, rfl, by rintro ⟨⟩⟩
    · cases hs
  | layOutFailed => exact Or.inl (Or.inl .layOutFailed)
  | pollInterrupted =>
    simp only [Daemon.step, doPollFailed] at hs
    split at hs
    · obtain rfl := Option.some.inj hs
      exact Or.inr (h.go rfl rfl (Or.inr rfl))
    · cases hs
  | pollFailed => exact Or.inl (Or.inl .pollFailed)
  | pollReturned revents now =>
    simp only [Daemon.step, doPollReturned] at hs
    split at hs
    · split at hs
      · have hmoves : ∀ a : Daemon, Moves env .loop a (a.disconnectStalledClients now) :=
          fun _ => disconnectStalledClients_moves now
        have hclosed := hmoves (d.usbRecord (.pollReturned (revents.filter Revents.any).length))
        have hexit := hclosed.doExit
        have herror := hclosed.error
        generalize Daemon.disconnectStalledClients _ now = a at hs hexit herror
        obtain rfl := Option.some.inj hs
        exact Or.inr ⟨hexit.trans h.doExit, herror.trans h.pollfds, rfl, by rintro ⟨⟩⟩
      · cases hs
    · cases hs
  | intrOut status =>
    simp only [Daemon.step, doIntrOut] at hs
    split at hs
    · split at hs
      · obtain rfl := Option.some.inj hs
        cases status with
        | completed => exact Or.inr (h.go (Usb.maybeFinish_doExit env _) rfl (Or.inl rfl))
        | cancelled => exact Or.inr (h.go rfl rfl (Or.inl rfl))
        | error | timedOut | stall | noDevice | overflow =>
          exact Or.inl (Or.inl (.outFailed _ (by rintro ⟨⟩) (by rintro ⟨⟩)))
      · cases hs
    · cases hs
  | intrIn status data signal =>
    simp only [Daemon.step] at hs
    split at hs
    · exact (h.intrIn ht hs).imp_left Or.inl
    · cases hs
  | pollfdAdded p ok =>
    simp only [Daemon.step, doPollfdAdded] at hs
    split at hs
    · split at hs
      · split at hs
        · obtain rfl := Option.some.inj hs
          exact Or.inr (h.go rfl rfl (Or.inl rfl))
        next hlost =>
          rw [Bool.eq_false_iff.mpr hlost]
          exact Or.inl (Or.inl (.pollfdLost p))
      · cases hs
    · cases hs
  | pollfdRemoved fd =>
    simp only [Daemon.step] at hs
    split at hs
    · obtain rfl := Option.some.inj hs
      exact Or.inr (h.go rfl rfl (Or.inl rfl))
    · cases hs
  | handled =>
    simp only [Daemon.step] at hs
    split at hs
    · obtain rfl := Option.some.inj hs
      rw [doHandled]
      split
      · exact Or.inr (h.go (Usb.maybeFinish_doExit env _) rfl (Or.inr rfl))
      · exact Or.inr (h.go rfl rfl (Or.inr rfl))
    · cases hs
  | accept fd nonblocking =>
    simp only [Daemon.step, doAccept] at hs
    split at hs
    next snap nready kind _ =>
      split at hs
      · obtain rfl := Option.some.inj hs
        obtain ⟨husb, hplain⟩ :=
          afterAccept_usb (d.addAccepted env kind fd nonblocking) snap nready kind
        have hadded : (d.addAccepted env kind fd nonblocking).usb = d.usb ∧
            (d.addAccepted env kind fd nonblocking).usbPollfdError = d.usbPollfdError := by
          rcases addAccepted_cases env d kind fd nonblocking with ⟨s, _, heq⟩ | heq
          · rw [heq]
            exact ⟨rfl, rfl⟩
          · rw [heq]
            exact ⟨rfl, rfl⟩
        exact Or.inr (h.go (congrArg (·.io.doExit) (husb.trans hadded.1))
          ((afterAccept_error _ snap nready kind).trans hadded.2) (Or.inr hplain))
      · cases hs
    · cases hs
  | acceptFailed =>
    simp only [Daemon.step, doAcceptFailed] at hs
    split at hs
    next snap nready kind _ =>
      split at hs
      · obtain rfl := Option.some.inj hs
        obtain ⟨husb, hplain⟩ := afterAccept_usb d snap nready kind
        exact Or.inr (h.go (congrArg (·.io.doExit) husb) (afterAccept_error d snap nready kind)
          (Or.inr hplain))
      · cases hs
    · cases hs
  | notReady =>
    simp only [Daemon.step, doNotReady] at hs
    split at hs
    next snap nready kind _ =>
      split at hs
      · cases hs
      · obtain rfl := Option.some.inj hs
        obtain ⟨husb, hplain⟩ := afterListener_usb d snap nready kind
        exact Or.inr (h.go (congrArg (·.io.doExit) husb) (afterListener_error d snap nready kind)
          (Or.inr hplain))
    · cases hs
  | service results now read =>
    simp only [Daemon.step] at hs
    split at hs
    · obtain ⟨husb, hplain⟩ := doService_usb hs
      exact Or.inr (h.go (congrArg (·.io.doExit) husb) (doService_error env hs) (Or.inr hplain))
    · cases hs
  | served =>
    simp only [Daemon.step, doServed] at hs
    split at hs
    · split at hs
      · cases hs
      · obtain rfl := Option.some.inj hs
        exact Or.inr (h.go rfl rfl (Or.inr rfl))
    · cases hs
  | byte =>
    simp only [Daemon.step] at hs
    split at hs
    next l r hpc =>
      obtain ⟨hwrites, hplain⟩ := doByte_usb ht hpc hs
      refine Or.inr (h.go (Usb.doExit_of_inSide hwrites.inSide) ?_ (Or.inr hplain))
      obtain ⟨b, rest, _, ⟨_, rfl⟩ | ⟨line, _, rfl⟩⟩ := doByte_cases hs
      · rfl
      · have hafter := ht.afterByte hpc b rest
        have hmoves : Moves env _ _ _ :=
          runLine_moves hafter.descs hafter.wf (ht.reading l r hpc) line
        exact hmoves.error
    · cases hs
  | encoded =>
    simp only [Daemon.step] at hs
    split at hs
    next l r _ =>
      obtain ⟨_, rfl⟩ := doEncoded_eq hs
      obtain ⟨husb, hplain⟩ := counted_usb (d.setState r.slot
        { (d.clients.slot r.slot).state with remlen := r.remptr }) l r.visit
      exact Or.inr (h.go (congrArg (·.io.doExit) husb) (counted_error _ l r.visit) (Or.inr hplain))
    · cases hs
  | cancel result =>
    simp only [Daemon.step] at hs
    split at hs
    next hpc => exact absurd h.exiting (by rw [hpc]; rintro ⟨⟩)
    next hpc => exact absurd h.exiting (by rw [hpc]; rintro ⟨⟩)
    · cases hs
  | drainTurn =>
    simp only [Daemon.step] at hs
    split at hs
    next hpc => exact absurd h.exiting (by rw [hpc]; rintro ⟨⟩)
    · cases hs
  | drained result =>
    simp only [Daemon.step] at hs
    split at hs
    next hpc => exact absurd h.exiting (by rw [hpc]; rintro ⟨⟩)
    · cases hs

/-! ### Why a client is closed -/

/-- **The flush of a turn fails**: `send()` reports an error for the client of the record. -/
def flushFails (d : Daemon) : Label → Bool
  | .service results now _ => match d.pc with
    | .serve l => match (if l.i < l.snap.npollfds then l.snap.entries[l.i]? else none) with
      | some e => 0 ≤ e.fd && e.revents.pollout && (d.clients.find e.fd).any fun s =>
          ((d.clients.slot s).output.flush now results clientWriteBudgetPerLoop).2.2 = .failed
      | none => false
    | _ => false
  | _ => false

/-- **A text for the client of a slot did not fit into its queue**, and it was closed. -/
def Overflowed (d d' : Daemon) (s : SlotId) : Prop :=
  ∃ es es' conn text lost inRead,
    d'.log = es ++ .closed conn (d.clients.slot s).fd lost inRead ::
      .addressed conn (d.clients.slot s).fd text :: es' ++ d.log ∧
    clientOutputQueueSize < lost.length + text.length

/-- **What the client of a slot did to be closed.** -/
inductive Removal (env : Env) (d d' : Daemon) (s : SlotId) : Label → Prop
  /-- It is its turn in the service loop, and it fails to be written to; or it has closed its
  side, or fails to be read. -/
  | served (l : ServiceLoop) (e : PollEntry) (results : List SendResult) (now : ℕ)
      (read : ReadResult) (hpc : d.pc = .serve l) (hentry : l.snap.entries[l.i]? = some e)
      (hfd : e.fd = (d.clients.slot s).fd)
      (hfault : d.flushFails (.service results now read) = true ∨ read = .eof ∨ read = .error) :
      Removal env d d' s (.service results now read)
  /-- It takes nothing. -/
  | stalled (revents : List Revents) (now : ℕ) (h : Daemon.stalled now (d.clients.slot s) = true) :
      Removal env d d' s (.pollReturned revents now)
  /-- It takes too little. -/
  | overflowed (label : Label) (h : d.Overflowed d' s) : Removal env d d' s label
  /-- It is an OpenRemote client that has sent its command. -/
  | finished (l : ServiceLoop) (r : Reading) (hpc : d.pc = .encode l r)
      (hfd : r.fd = (d.clients.slot s).fd) (hor : d.or20client env r.fd = true) :
      Removal env d d' s .byte

theorem delClient_of_ne {fd : ℤ} {s : SlotId} (h : (d.clients.slot s).fd ≠ fd) :
    (d.delClient fd).clients.slot s = d.clients.slot s := by
  rw [delClient]
  split
  · rfl
  next t ht =>
    refine d.closeSlot_of_ne ?_
    rintro rfl
    exact h (Clients.fd_of_find ht)

theorem delClient_log (d : Daemon) (fd : ℤ) : ∃ es, (d.delClient fd).log = es ++ d.log := by
  rw [delClient]
  split
  · exact ⟨[], rfl⟩
  · exact ⟨[_], rfl⟩

/-- **Clients are told something**, and those whose queues overflow are closed. -/
structure Spoken (d a : Daemon) : Prop where
  log : ∃ es, a.log = es ++ d.log
  slots : ∀ s, (a.clients.slot s).fd = (d.clients.slot s).fd ∨ d.Overflowed a s

theorem Overflowed.grow {a b : Daemon} {s : SlotId} (h : d.Overflowed a s)
    (hlog : ∃ es, b.log = es ++ a.log) : d.Overflowed b s := by
  obtain ⟨es, es', conn, text, lost, inRead, heq, hlt⟩ := h
  obtain ⟨es₁, hes₁⟩ := hlog
  exact ⟨es₁ ++ es, es', conn, text, lost, inRead, by rw [hes₁, heq]; simp, hlt⟩

/-- The tables stay, and the log grows. -/
theorem Spoken.same {a b : Daemon} (h : d.Spoken a)
    (hfd : ∀ s, (b.clients.slot s).fd = (a.clients.slot s).fd)
    (hlog : ∃ es, b.log = es ++ a.log) : d.Spoken b := by
  obtain ⟨es, hes⟩ := h.log
  obtain ⟨es', hes'⟩ := hlog
  refine ⟨⟨es' ++ es, by rw [hes', hes, List.append_assoc]⟩, fun s => ?_⟩
  rw [hfd]
  exact (h.slots s).imp_right fun hover => hover.grow ⟨es', hes'⟩

theorem spoken_refl (d : Daemon) : d.Spoken d := ⟨⟨[], rfl⟩, fun _ => Or.inl rfl⟩

theorem Spoken.sendAll {a : Daemon} (h : d.Spoken a) (fd : ℤ) (bytes : Bytes) :
    d.Spoken (a.sendAll env fd bytes).1 := by
  rw [Daemon.sendAll]
  split
  · exact h.same (fun _ => rfl) ⟨[_], rfl⟩
  · exact h.same (fun _ => rfl) ⟨[_], rfl⟩

/-- **A text joins a queue, or closes the client whose queue it does not fit.** -/
theorem Spoken.queueClientBytes {a : Daemon} (h : d.Spoken a) (fd : ℤ) (bytes : Bytes) :
    d.Spoken (a.queueClientBytes env fd bytes).1 := by
  rw [Daemon.queueClientBytes]
  split
  · exact h
  have haddressed : d.Spoken (a.record (.addressed (a.connAt fd) fd bytes)) :=
    h.same (fun _ => rfl) ⟨[_], rfl⟩
  rw [enqueueBytes]
  split
  · exact haddressed.sendAll fd bytes
  next t ht =>
    have hslot : (a.clients.slot t).fd = fd := Clients.fd_of_find ht
    split
    next output _ =>
      exact haddressed.same (fun s => setOutput_fd _ t s output) ⟨[_], rfl⟩
    next hnone =>
      have hspace : clientOutputQueueSize - (a.clients.slot t).output.len < bytes.length :=
        ClientOutput.enqueue_eq_none_iff.mp hnone
      have hdel : (a.record (.addressed (a.connAt fd) fd bytes)).delClient fd =
          (a.record (.addressed (a.connAt fd) fd bytes)).closeSlot t := by
        rw [delClient, ht]
      subst hslot
      rw [hdel]
      obtain ⟨es, hes⟩ := h.log
      let closing : List Ev := [.closed (a.connAt (a.clients.slot t).fd) (a.clients.slot t).fd
        (a.clients.slot t).output.contents ((a.connAt (a.clients.slot t).fd).isSome &&
          a.connAt (a.clients.slot t).fd == a.reader),
        .addressed (a.connAt (a.clients.slot t).fd) (a.clients.slot t).fd bytes]
      have hlog : ((a.record (.addressed (a.connAt (a.clients.slot t).fd) (a.clients.slot t).fd
          bytes)).closeSlot t).log = closing ++ a.log := rfl
      refine ⟨⟨closing ++ es, by rw [hlog, hes, List.append_assoc]⟩, fun s => ?_⟩
      rcases eq_or_ne s t with rfl | hne
      · rcases h.slots s with hsame | hover
        · right
          refine ⟨[], es, _, bytes, _, _, by rw [hlog, hes, ← hsame]; rfl, ?_⟩
          have hlen : (a.clients.slot s).output.contents.length =
              (a.clients.slot s).output.len := Ring.length_window ..
          rw [hlen]
          omega
        · exact Or.inr (hover.grow ⟨closing, hlog⟩)
      · rw [(a.record _).closeSlot_of_ne hne]
        exact (h.slots s).imp_right fun hover => hover.grow ⟨closing, hlog⟩

/-- What queueing keeps. -/
theorem queueing_spoken (env : Env) (d : Daemon) : Queueing env d.Spoken where
  x10 := fun _ _ h => h.same (fun _ => rfl) ⟨[], rfl⟩
  stamp := fun _ h => h.same (fun _ => rfl) ⟨[], rfl⟩
  write := fun _ _ h => h.same (fun _ => rfl) ⟨[], rfl⟩
  queue := fun _ fd bytes _ h => h.queueClientBytes fd bytes

/-- **A command** closes nobody but those whose queues overflow. -/
theorem Spoken.processcommandline {a : Daemon} (h : d.Spoken a) (hneg : a.descs (-1) = none)
    {fd : ℤ} (hfd : fd ≠ -1) (line : Bytes) : d.Spoken (a.processcommandline env fd line) := by
  by_cases hp : IsPolicyRequest line
  · rw [processcommandline_policy_eq hp]
    refine Spoken.sendAll ?_ fd domainPolicy
    exact h.same (fun _ => rfl) ⟨[_], rfl⟩
  · exact (queueing_spoken env d).processcommandline hneg hfd hp h

/-- **A packet** closes nobody else either. -/
theorem spoken_decode (hneg : d.descs (-1) = none) (data : Bytes) :
    d.Spoken (d.decode env data) := by
  have hbuf : d.Spoken { d with intrInBuf := memcpy d.intrInBuf data } :=
    (spoken_refl d).same (fun _ => rfl) ⟨[], rfl⟩
  exact (queueing_spoken env d).decode hneg data hbuf

/-- **A flush** closes its client if it fails. -/
theorem flushClientOutput_fd {s t : SlotId} (results : List SendResult) (now : ℕ) :
    ((d.flushClientOutput t results now).clients.slot s).fd = (d.clients.slot s).fd ∨
      ((d.clients.slot s).fd = (d.clients.slot t).fd ∧
        ((d.clients.slot t).output.flush now results clientWriteBudgetPerLoop).2.2 = .failed) := by
  have hsame : ∀ output : ClientOutput, ((d.setOutput t output).clients.slot s).fd =
      (d.clients.slot s).fd := fun output => setOutput_fd d t s output
  simp only [flushClientOutput]
  generalize (d.clients.slot t).output.flush now results clientWriteBudgetPerLoop = r
  have hsent : ∀ b : Daemon, b = (if (d.clients.slot t).output.len = 0 then d.setOutput t r.1
      else (d.setOutput t r.1).record (.sent (d.connAt (d.clients.slot t).fd) (d.clients.slot t).fd
        r.2.1 (r.2.2 = .kept))) → (b.clients.slot s).fd = (d.clients.slot s).fd := by
    rintro b rfl
    split
    · exact hsame r.1
    · exact hsame r.1
  split
  next hfailed =>
    by_cases hfd : (d.clients.slot s).fd = (d.clients.slot t).fd
    · exact Or.inr ⟨hfd, hfailed⟩
    · left
      have hb := hsent _ rfl
      rw [delClient_of_ne]
      · exact hb
      · intro heq
        exact hfd (hb.symm.trans heq)
  · exact Or.inl (hsent _ rfl)

/-- **A turn of the service loop** closes the client of its record only, and only if it fails. -/
theorem doService_removal {l : ServiceLoop} (hpc : d.pc = .serve l) {results : List SendResult}
    {now : ℕ} {read : ReadResult} (hs : d.doService l results now read = some d') {s : SlotId}
    (hgone : (d'.clients.slot s).fd ≠ (d.clients.slot s).fd) :
    Removal env d d' s (.service results now read) := by
  obtain ⟨hi, e, he, ⟨_, rfl⟩ | ⟨hpos, d₁, flushed, rfl, _, hcase⟩⟩ := doService_cases hs
  · exact absurd rfl hgone
  by_cases hout : ((if e.revents.pollout then d.doPollout e results now else d).clients.slot s).fd =
      (d.clients.slot s).fd
  · -- the client was still there when its socket was read
    rcases hcase with ⟨_, _, rfl⟩ | ⟨_, ⟨_, hread⟩ | ⟨_, rfl⟩⟩
    · exact absurd hout hgone
    · generalize (if e.revents.pollout then d.doPollout e results now else d) = d₁ at hread hout
      have hclosed : (d'.clients.slot s).fd ≠ (d₁.clients.slot s).fd := fun heq =>
        hgone (heq.trans hout)
      have hdel : d' = ((d₁.servicing e).delClient e.fd).counted l ⟨l.i, false, flushed, true⟩ →
          e.fd = (d.clients.slot s).fd := by
        rintro rfl
        by_contra hne
        have hkept : ((d₁.servicing e).delClient e.fd).clients.slot s = d₁.clients.slot s :=
          delClient_of_ne (d := d₁.servicing e) fun heq => hne (heq.symm.trans hout)
        rw [counted_clients, hkept] at hclosed
        exact hclosed rfl
      cases read with
      | error =>
        simp only [doPollin, readOk, if_true] at hread
        exact .served l e results now .error hpc he (hdel (Option.some.inj hread).symm)
          (Or.inr (Or.inr rfl))
      | eof =>
        rcases doPollin_eq hread with heq | heq | ⟨t, bytes, _, heq⟩
        · exact .served l e results now .eof hpc he (hdel heq) (Or.inr (Or.inl rfl))
        · rw [heq, counted_clients] at hclosed
          exact absurd rfl hclosed
        · rw [heq] at hclosed
          exact absurd rfl hclosed
      | data bytes =>
        simp only [doPollin] at hread
        split at hread
        · split at hread
          · obtain rfl := Option.some.inj hread
            rw [counted_clients] at hclosed
            exact absurd rfl hclosed
          · obtain rfl := Option.some.inj hread
            exact absurd rfl hclosed
        · cases hread
    · exact absurd hout hgone
  · -- its queue was flushed
    split at hout
    next hpollout =>
      rcases doPollout_eq d e results now with ⟨_, heq⟩ | ⟨t, hfound, heq⟩
      · rw [heq] at hout
        exact absurd rfl hout
      · rw [heq] at hout
        have hslot : (d.clients.slot t).fd = e.fd := Clients.fd_of_find hfound
        obtain ⟨hfd, hfailed⟩ :=
          (flushClientOutput_fd (d := d.servicing e) results now).resolve_left hout
        refine .served l e results now read hpc he (hslot.symm.trans hfd.symm) (Or.inl ?_)
        have hfailed' : ((d.clients.slot t).output.flush now results
            clientWriteBudgetPerLoop).2.2 = .failed := hfailed
        simp [flushFails, hpc, hi, he, hpos, hpollout, hfound, hfailed']
    · exact absurd rfl hout

/-- **A line** closes its client if that is an OpenRemote client, and clients whose queues
overflow. -/
theorem runLine_removal (ht : d.Tables env) {l : ServiceLoop} {r : Reading}
    (hpc : d.pc = .encode l r) {b : UInt8} {rest line : Bytes}
    (hs : d' = (d.afterByte l r b rest).runLine env r line) {s : SlotId}
    (hgone : (d'.clients.slot s).fd ≠ (d.clients.slot s).fd) :
    Removal env d d' s .byte := by
  have hfd := ht.reading l r hpc
  have hafter := ht.afterByte hpc b rest
  let a := (d.afterByte l r b rest).record (.command r.conn r.fd line)
  have hspoken : d.Spoken a :=
    (spoken_refl d).same (fun t => setState_fd d r.slot t _) ⟨[_, _], rfl⟩
  have hline : d.Spoken (a.processcommandline env r.fd line) :=
    hspoken.processcommandline hafter.descs hfd line
  have hmoves : Moves env _ a (a.processcommandline env r.fd line) :=
    processcommandline_moves (d := a) hafter.descs hafter.wf hfd line
  have hrun : (d.afterByte l r b rest).runLine env r line =
      if (a.processcommandline env r.fd line).or20client env r.fd then
        (a.processcommandline env r.fd line).delClient r.fd
      else a.processcommandline env r.fd line := rfl
  rw [hrun] at hs
  split at hs
  next hor =>
    rcases hline.slots s with hsame | hover
    · refine .finished l r hpc ?_ ?_
      · by_contra hne
        rw [hs, delClient_of_ne fun heq => hne (heq.symm.trans hsame)] at hgone
        exact hgone hsame
      · -- only an open connection is that of an OpenRemote client
        rcases (hmoves.quiet (hafter.record _)).descs r.fd with heq | ⟨hnone, _⟩
        · rw [or20client, heq] at hor
          exact hor
        · rw [or20client, hnone] at hor
          cases hor
    · exact .overflowed .byte (hover.grow (hs ▸ delClient_log _ r.fd))
  · rcases hline.slots s with hsame | hover
    · rw [hs] at hgone
      exact absurd hsame hgone
    · exact .overflowed .byte (hs ▸ hover)

/-- **Who is closed has given the reason.** -/
theorem removal (ht : d.Tables env) (hs : d.step env label = some d') {s : SlotId}
    (hlive : (d.clients.slot s).fd ≠ -1) (hgone : (d'.clients.slot s).fd ≠ (d.clients.slot s).fd) :
    Removal env d d' s label := by
  rcases step_case hs with hi | ⟨usb, now, pc, _, _, ⟨revents, rfl⟩, _⟩ |
    ⟨usb, usb', data, _, heq⟩ | ⟨fd, desc, _, _, _, rfl⟩ | ⟨main, xml, or20, hpc, _⟩ |
    ⟨snap, nready, kind, fd, nonblocking, hpc, _, _, rfl⟩ |
    ⟨l, results, now, read, rfl, hpc, hturn⟩ | ⟨l, r, rfl, hpc, hb⟩ | ⟨l, r, hpc, he⟩
  · rw [hi.clients] at hgone
    exact absurd rfl hgone
  · refine .stalled revents now ?_
    by_contra hst
    rw [pollReturned_slot ht hs s, if_neg hst] at hgone
    exact hgone rfl
  · have husb : d.Spoken { d with usb := usb } := (spoken_refl d).same (fun _ => rfl) ⟨[], rfl⟩
    have hneg : ({ d with usb := usb } : Daemon).descs (-1) = none := ht.descs
    have hspoken : Spoken { d with usb := usb } d' := by
      rw [heq]
      exact (spoken_decode hneg data).same (fun _ => rfl) ⟨[], rfl⟩
    exact .overflowed label ((hspoken.slots s).resolve_left hgone)
  · exact absurd rfl hgone
  · exact absurd (ht.starting (by rw [hpc]; rfl) s) hlive
  · have hrun : (d.addAccepted env kind fd nonblocking).pc.stage = .running := by
      rw [addAccepted_pc, hpc]
      rfl
    rw [(idle_afterAccept hrun snap nready kind).clients] at hgone
    rcases addAccepted_cases env d kind fd nonblocking with ⟨t, hfree, heq⟩ | heq
    · rw [heq] at hgone
      have hne : s ≠ t := by
        rintro rfl
        exact hlive (Clients.firstFree_spec hfree).2
      have hother : (d.clients.take t fd).slot s = d.clients.slot s :=
        Clients.set_slot_of_ne d.clients _ hne
      exact absurd (congrArg Slot.fd hother) hgone
    · rw [heq] at hgone
      exact absurd rfl hgone
  · exact doService_removal hpc hturn hgone
  · obtain ⟨b, rest, _, ⟨_, rfl⟩ | ⟨line, _, heq⟩⟩ := doByte_cases hb
    · exact absurd (setState_fd d r.slot s _) hgone
    · exact runLine_removal ht hpc heq hgone
  · obtain ⟨_, rfl⟩ := doEncoded_eq he
    rw [counted_clients] at hgone
    exact absurd (setState_fd d r.slot s _) hgone

end Daemon

/-! ### The process -/

open Daemon

/-- **The process.** -/
inductive Host
  /-- The daemon runs in it, or has come to its end. -/
  | running (d : Daemon)
  /-- A signal has terminated it. -/
  | killed

/-- **A step of the process.** -/
structure HostLabel where
  label : Label
  /-- The `send()` at which the flush of a turn failed found its peer gone. -/
  peerGone : Bool

namespace Host

/-- The process as it is started. -/
def start (env : Env) : Host := .running (initial env)

/-- No signal has terminated it. -/
def alive : Host → Bool
  | .running _ => true
  | .killed => false

/-- **One step of the process**: `send_all` asks for no signal, and `flush_client_output` does
not. -/
def step (env : Env) : Host → HostLabel → Option Host
  | .running d, a => (d.step env a.label).map fun d' =>
      if a.peerGone && d.flushFails a.label then .killed else .running d'
  | .killed, _ => none

/-- What the process has done so far. -/
abbrev Steps := List (Host × HostLabel × Host)

/-- **The faults of clients are contained.** -/
structure Contained (env : Env) (p : Host × Steps) : Prop where
  alive : p.1.alive = true
  /-- The main loop has ended for a reason that is none of the clients'. -/
  ended : ∀ d, p.1 = .running d → d.isOver → ∃ d₀ a d₁, (.running d₀, a, .running d₁) ∈ p.2 ∧
    (Stopping d₁ a.label ∨ StartupFailed d₀ d₁)
  /-- Whoever was closed gave the reason himself. -/
  removed : ∀ d₀ a d₁, (.running d₀, a, .running d₁) ∈ p.2 → ∀ s, (d₀.clients.slot s).fd ≠ -1 →
    (d₁.clients.slot s).fd ≠ (d₀.clients.slot s).fd → Removal env d₀ d₁ s a.label

/-- **No flush finds its peer gone.** -/
def PeersThere (p : Host × Steps) (a : HostLabel) : Prop :=
  match p.1 with
  | .running d => a.peerGone = true → d.flushFails a.label = false
  | .killed => True

variable {env : Env}

/-- A step of the process in which it lives is a step of the daemon. -/
theorem step_running {d d' : Daemon} {a : HostLabel}
    (h : step env (.running d) a = some (.running d')) : d.step env a.label = some d' := by
  obtain ⟨d₁, hd₁, heq⟩ := Option.map_eq_some_iff.mp h
  split at heq
  · cases heq
  · obtain rfl := Host.running.inj heq
    exact hd₁

/-- The daemon of a process that lives is in a reachable state. -/
theorem reachable {h : Host} (hrun : Transition.Run (step env) Transition.Free (start env) h)
    {d : Daemon} (hd : h = .running d) : Reachable env d := by
  induction hrun generalizing d with
  | refl =>
    obtain rfl := Host.running.inj hd
    exact ReflTransGen.refl
  | @tail u v hu hst ih =>
    obtain ⟨a, _, ha⟩ := hst
    subst hd
    cases u with
    | killed => cases ha
    | running d₀ => exact ReflTransGen.tail (ih rfl) ⟨a.label, trivial, step_running ha⟩

/-- The steps that were written down, when the process is started. -/
def unwritten (env : Env) : Host × Steps := (start env, [])

/-- **A daemon that nothing has asked to stop runs.** -/
theorem ended_of_run {p : Host × Steps} (h : Transition.Run (Transition.watch (step env)
    Transition.trace) Transition.Free (unwritten env) p) {d : Daemon} (hd : p.1 = .running d) :
    (∃ d₀ a d₁, (.running d₀, a, .running d₁) ∈ p.2 ∧
      (Stopping d₁ a.label ∨ StartupFailed d₀ d₁)) ∨ d.Running := by
  induction h generalizing d with
  | refl =>
    obtain rfl := Host.running.inj hd
    exact Or.inr ⟨rfl, rfl, rfl, nofun⟩
  | @tail u v hu hst ih =>
    obtain ⟨a, _, ha⟩ := hst
    obtain ⟨hs, hobs⟩ := Transition.watch_eq_some.mp ha
    cases hu₁ : u.1 with
    | killed =>
      rw [hu₁] at hs
      cases hs
    | running d₀ =>
      rw [hu₁, hd] at hs hobs
      rcases ih hu₁ with ⟨e₀, b, e₁, hmem, hcause⟩ | hrunning
      · exact Or.inl ⟨e₀, b, e₁, hobs ▸ List.mem_cons_of_mem _ hmem, hcause⟩
      · have hreach : Reachable env d₀ := reachable (Transition.Run.unwatched hu) hu₁
        rcases hrunning.step (Reachable.tables hreach) (step_running hs) with hcause | hrunning'
        · exact Or.inl ⟨d₀, a, d, hobs ▸ List.mem_cons_self, hcause⟩
        · exact Or.inr hrunning'

/-- **Only clients that gave the reason were closed.** -/
theorem removed_of_run {p : Host × Steps} (h : Transition.Run (Transition.watch (step env)
    Transition.trace) Transition.Free (unwritten env) p) {d₀ d₁ : Daemon} {a : HostLabel}
    (hmem : (.running d₀, a, .running d₁) ∈ p.2) {s : SlotId}
    (hlive : (d₀.clients.slot s).fd ≠ -1)
    (hgone : (d₁.clients.slot s).fd ≠ (d₀.clients.slot s).fd) : Removal env d₀ d₁ s a.label := by
  have hsteps : ∀ x ∈ p.2, ∀ e₀ e₁, x.1 = .running e₀ → x.2.2 = .running e₁ →
      e₀.Tables env ∧ e₀.step env x.2.1.label = some e₁ := by
    refine Transition.Run.traced (P := fun u b v => ∀ e₀ e₁, u = .running e₀ → v = .running e₁ →
      e₀.Tables env ∧ e₀.step env b.label = some e₁) h fun u b v hu hs e₀ e₁ hu₀ hv₁ => ?_
    subst hu₀ hv₁
    exact ⟨Reachable.tables (reachable hu rfl), step_running hs⟩
  obtain ⟨ht, hs⟩ := hsteps _ hmem d₀ d₁ rfl rfl
  exact removal ht hs hlive hgone

/-- **A process that lives has found every peer there.** -/
theorem peersThere_of_alive {p q : Host × Steps} {a : HostLabel}
    (ha : Transition.watch (step env) Transition.trace p a = some q) (hq : q.1.alive = true) :
    PeersThere p a ∧ p.1.alive = true := by
  obtain ⟨hs, _⟩ := Transition.watch_eq_some.mp ha
  rw [PeersThere]
  cases hp : p.1 with
  | killed =>
    rw [hp] at hs
    cases hs
  | running d =>
    refine ⟨fun hpeer => ?_, rfl⟩
    rw [hp] at hs
    obtain ⟨d', _, heq⟩ := Option.map_eq_some_iff.mp hs
    rw [hpeer, Bool.true_and] at heq
    split at heq
    · rw [← heq] at hq
      cases hq
    next hflush => exact Bool.eq_false_iff.mpr hflush

/-- A process whose flushes find their peers lives on. -/
theorem alive_of_peersThere {p q : Host × Steps} {a : HostLabel}
    (ha : Transition.watch (step env) Transition.trace p a = some q) (hok : PeersThere p a)
    (hp : p.1.alive = true) : q.1.alive = true := by
  obtain ⟨hs, _⟩ := Transition.watch_eq_some.mp ha
  rw [PeersThere] at hok
  cases hd : p.1 with
  | killed =>
    rw [hd] at hp
    cases hp
  | running d =>
    rw [hd] at hs hok
    obtain ⟨d', _, heq⟩ := Option.map_eq_some_iff.mp hs
    have hkept : ¬(a.peerGone && d.flushFails a.label) = true := by
      intro hboth
      rw [Bool.and_eq_true] at hboth
      exact absurd (hok hboth.1) (by simp [hboth.2])
    rw [if_neg hkept] at heq
    rw [← heq]
    rfl

end Host

end Mochad
