import Mochad.Core.Tables

/-!
# One iteration of the main loop

An iteration lays out `Pollfds`, polls, lets libusb handle its events, and goes through the
listeners and the clients. What was laid out stays as it is; what it is about does not:
clients are closed, descriptors are opened, and libusb changes what it wants polled.

`Daemon.Flow` says what a step does to the iteration: where it leads, and which of these
things happen. `Daemon.doService_cases` takes a turn of the service loop apart.
-/

namespace Mochad

/-- From the call of `poll()` to the end of the service loop. -/
def Pc.iterating : Pc → Bool
  | .polling _ _ => true
  | .events _ _ => true
  | .listen _ _ _ => true
  | .serve _ => true
  | .encode _ _ => true
  | _ => false

/-- The service loop is to do something about a record. -/
def PollEntry.ready (e : PollEntry) : Bool :=
  e.revents.pollout || (e.revents.pollin || e.revents.pollerr)

/-- A record after `poll()` is one that was laid out, with what was reported. -/
theorem Snapshot.getElem_report {snap : Snapshot} {revents : List Revents} {i : ℕ} {e : PollEntry}
    (he : (snap.report revents).entries[i]? = some e) :
    ∃ old r, snap.entries[i]? = some old ∧ revents[i]? = some r ∧
      e = { old with revents := r } := by
  have hzip : (snap.entries.zipWith (fun e r => ({ e with revents := r } : PollEntry)) revents)[i]? =
      some e := he
  rw [List.getElem?_zipWith] at hzip
  cases hold : snap.entries[i]? with
  | none => simp [hold] at hzip
  | some old =>
    cases hrev : revents[i]? with
    | none => simp [hold, hrev] at hzip
    | some r =>
      rw [hold, hrev] at hzip
      exact ⟨old, r, rfl, rfl, (Option.some.inj hzip).symm⟩

namespace Daemon

variable {env : Env} {d d' : Daemon}

/-! ### What the iteration does not notice -/

/-- **Connections may be closed**, and clients be answered. -/
structure Quiet (d d' : Daemon) : Prop where
  descs : ∀ fd, d'.descs fd = d.descs fd ∨ (d'.descs fd = none ∧ ∃ c, d.connAt fd = some c)
  usbPollfds : d'.usbPollfds = d.usbPollfds
  log : ∃ es, d'.log = es ++ d.log ∧ ∀ e ∈ es, e.isNote = false

theorem Quiet.refl (d : Daemon) : d.Quiet d :=
  ⟨fun _ => Or.inl rfl, rfl, [], rfl, fun _ he => nomatch he⟩

theorem Quiet.trans {d₁ : Daemon} (h : d.Quiet d₁) (h' : d₁.Quiet d') : d.Quiet d' := by
  obtain ⟨es, hes, hnote⟩ := h.log
  obtain ⟨es', hes', hnote'⟩ := h'.log
  refine ⟨fun fd => ?_, h'.usbPollfds.trans h.usbPollfds, es' ++ es, ?_, fun e he => ?_⟩
  · rcases h'.descs fd with hfd' | ⟨hnone, c, hc⟩
    · rcases h.descs fd with hfd | ⟨hnone, hconn⟩
      · exact Or.inl (hfd'.trans hfd)
      · exact Or.inr ⟨hfd'.trans hnone, hconn⟩
    · rcases h.descs fd with hfd | ⟨_, hconn⟩
      · refine Or.inr ⟨hnone, c, ?_⟩
        rw [← hc, connAt, connAt, hfd]
      · exact Or.inr ⟨hnone, hconn⟩
  · rw [hes', hes, List.append_assoc]
  · rcases List.mem_append.mp he with he | he
    · exact hnote' e he
    · exact hnote e he

/-- The same descriptors, and an event that is no note. -/
theorem quiet_of_record {e : Ev} (hdescs : d'.descs = d.descs)
    (husb : d'.usbPollfds = d.usbPollfds) (hlog : d'.log = e :: d.log) (he : e.isNote = false) :
    d.Quiet d' :=
  ⟨fun _ => Or.inl (congrFun hdescs _), husb, [e], hlog, fun _ hx => by rwa [List.mem_singleton.mp hx]⟩

/-- The same descriptors and the same log. -/
theorem quiet_of_same (hdescs : d'.descs = d.descs) (husb : d'.usbPollfds = d.usbPollfds)
    (hlog : d'.log = d.log) : d.Quiet d' :=
  ⟨fun _ => Or.inl (congrFun hdescs _), husb, [], hlog, fun _ he => nomatch he⟩

/-- **An elementary change** closes connections only. -/
theorem Move.quiet {cause : Cause} (ht : d.Tables env) (h : Move env cause d d') : d.Quiet d' := by
  cases h with
  | x10 | stamp | write | output => exact quiet_of_same rfl rfl rfl
  | addressed | queued | flushed => exact quiet_of_record rfl rfl rfl rfl
  | close s hs _ =>
    obtain ⟨c, _, hc⟩ := ht.connAt hs
    refine ⟨fun fd => ?_, rfl, [_], rfl, fun _ he => by rw [List.mem_singleton.mp he]; rfl⟩
    rcases eq_or_ne fd (d.clients.slot s).fd with rfl | hne
    · exact Or.inr ⟨Function.update_self .., c, hc⟩
    · exact Or.inl (Function.update_of_ne hne ..)
  | send fd bytes _ =>
    rw [sendAll]
    split
    · exact quiet_of_record rfl rfl rfl rfl
    · exact quiet_of_record rfl rfl rfl rfl

theorem Moves.quiet {cause : Cause} (ht : d.Tables env) (h : Moves env cause d d') :
    d.Quiet d' := by
  have hboth : d'.Tables env ∧ d.Quiet d' :=
    Moves.invariant (P := fun a => a.Tables env ∧ d.Quiet a) h ⟨ht, Quiet.refl d⟩
      fun _ _ ha hm => ⟨ha.1.move hm, ha.2.trans (hm.quiet ha.1)⟩
  exact hboth.2

/-! ### What a step does to the iteration -/

/-- **What a step does to the iteration.** -/
inductive Flow (env : Env) (d : Daemon) (label : Label) (d' : Daemon) : Prop
  /-- Nothing; and where libusb is not called, no descriptor changes. -/
  | same (hq : d.Quiet d') (hpc : d'.pc = d.pc) (hlib : d'.descs = d.descs ∨ d.inLibusb = true)
  /-- A read goes on. -/
  | byte (l : ServiceLoop) (r r' : Reading) (hq : d.Quiet d') (hpc : d.pc = .encode l r)
      (hpc' : d'.pc = .encode l r') (hvisit : r'.visit = r.visit)
  /-- A descriptor is opened by another part of the process. -/
  | opened (fd : ℤ) (hlabel : label = .otherOpened fd) (hfree : lowestFree d.descs fd = true)
      (h : d' = { d with descs := Function.update d.descs fd (some .other) })
  /-- A descriptor is closed by another part of the process. -/
  | closed (fd : ℤ) (hother : d.descs fd = some .other) (husb : ∀ p ∈ d.usbPollfds, p.fd ≠ fd)
      (h : d' = { d with descs := Function.update d.descs fd none })
  /-- libusb wants a descriptor polled. -/
  | added (p : Pollfd) (hlib : d.inLibusb = true) (hother : d.descs p.fd = some .other)
      (h : d' = { d with usbPollfds := d.usbPollfds ++ [p] })
  /-- libusb wants a descriptor polled no more. -/
  | removed (fd : ℤ) (hlib : d.inLibusb = true) (h : d' = d.doPollfdRemoved fd)
  /-- There is no iteration, or it ends with `poll()`. -/
  | outside (hpc : d.pc.iterating = false ∨ ∃ snap timeout, d.pc = .polling snap timeout)
      (hpc' : d'.pc.iterating = false) (husb : d'.usbPollfds = d.usbPollfds)
      (hlog : d'.log = d.log)
      (hdescs : ∀ fd, d'.descs fd = d.descs fd ∨
        (0 ≤ fd ∧ d.descs fd = none ∧ ∃ port, d'.descs fd = some (.listener port)))
  /-- An iteration begins. -/
  | layOut (timeout : ℤ) (hpc : d.pc = .top) (hpc' : d'.pc = .polling d.layout timeout)
      (husb : d'.usbPollfds = d.usbPollfds) (hlog : d'.log = d.log) (hdescs : d'.descs = d.descs)
  /-- `poll()` returns. -/
  | polled (snap : Snapshot) (timeout : ℤ) (revents : List Revents)
      (hpc : d.pc = .polling snap timeout) (hlength : revents.length = snap.entries.length)
      (hok : (List.zipWith reventsOk snap.entries revents).all id = true)
      (hpc' : d'.pc = .events (snap.report revents) (revents.filter Revents.any).length)
      (hq : d.Quiet d')
  /-- libusb has handled its events. -/
  | handled (snap : Snapshot) (nready : ℕ) (hpc : d.pc = .events snap nready)
      (h : d' = d.doHandled env snap nready)
  /-- A connection is accepted. -/
  | accepted (snap : Snapshot) (nready : ℤ) (kind : Kind) (fd : ℤ) (nonblocking : Bool)
      (hlabel : label = .accept fd nonblocking) (hpc : d.pc = .listen snap nready kind)
      (hready : d.listenerReady snap kind = true) (hfree : lowestFree d.descs fd = true)
      (h : d' = (d.addAccepted env kind fd nonblocking).afterAccept snap nready kind)
  /-- `accept()` fails. -/
  | refused (snap : Snapshot) (nready : ℤ) (kind : Kind) (hpc : d.pc = .listen snap nready kind)
      (hready : d.listenerReady snap kind = true) (h : d' = d.afterAccept snap nready kind)
  /-- A listener is passed over. -/
  | passed (snap : Snapshot) (nready : ℤ) (kind : Kind) (hpc : d.pc = .listen snap nready kind)
      (h : d' = d.afterListener snap nready kind)
  /-- A turn of the service loop. -/
  | service (l : ServiceLoop) (results : List SendResult) (now : ℕ) (read : ReadResult)
      (hpc : d.pc = .serve l) (h : d.doService l results now read = some d')
  /-- The service loop ends. -/
  | served (l : ServiceLoop) (hpc : d.pc = .serve l) (hend : l.snap.npollfds ≤ l.i)
      (h : d' = d.iterate l.snap (some (l.start, l.visits)))
  /-- A read ends. -/
  | encoded (l : ServiceLoop) (r : Reading) (hpc : d.pc = .encode l r)
      (h : d.doEncoded l r = some d')

/-- libusb is called within an iteration, or after the main loop. -/
theorem inLibusb_cases (h : d.inLibusb = true) :
    (∃ snap nready, d.pc = .events snap nready) ∨ ∃ maxEvents, d.pc = .draining maxEvents := by
  rw [inLibusb] at h
  split at h
  next snap nready hpc => exact Or.inl ⟨snap, nready, hpc⟩
  next maxEvents hpc => exact Or.inr ⟨maxEvents, hpc⟩
  · cases h

/-- `disconnect_stalled_clients` closes connections only. -/
theorem doPollReturned_flow (ht : d.Tables env) {snap : Snapshot} {timeout : ℤ}
    (hpc : d.pc = .polling snap timeout) {revents : List Revents} {now : ℕ}
    (h : d.doPollReturned snap timeout revents now = some d') {label : Label} :
    Flow env d label d' := by
  simp only [doPollReturned] at h
  split at h
  next hok =>
    have hpolled : (d.usbRecord (.pollReturned (revents.filter Revents.any).length)).Tables env :=
      ht.congr ht.wf (fun _ => rfl) rfl rfl ht.reading id
    have hmoves : Moves env .loop _ _ := disconnectStalledClients_moves
      (d := d.usbRecord (.pollReturned (revents.filter Revents.any).length)) now
    have hquiet := hmoves.quiet hpolled
    generalize Daemon.disconnectStalledClients _ now = a at h hquiet
    obtain rfl := Option.some.inj h
    have hbefore : d.Quiet (d.usbRecord (.pollReturned (revents.filter Revents.any).length)) :=
      quiet_of_same rfl rfl rfl
    have hafter : a.Quiet { a with
        pc := .events (snap.report revents) (revents.filter Revents.any).length } :=
      quiet_of_same rfl rfl rfl
    exact .polled snap timeout revents hpc hok.1 hok.2.1 rfl ((hbefore.trans hquiet).trans hafter)
  · cases h

/-- A packet is decoded between the two parts of its callback. -/
theorem doIntrIn_flow (ht : d.Tables env) (hlib : d.inLibusb = true) {status : TransferStatus} {data : Bytes}
    {signal : Bool} (h : d.doIntrIn env status data signal = some d') {label : Label} :
    Flow env d label d' := by
  simp only [doIntrIn] at h
  split at h
  · split at h
    · have htables : ∀ usb buf, ({ d with usb := usb, intrInBuf := buf } : Daemon).Tables env :=
        fun _ _ => ht.congr ht.wf (fun _ => rfl) rfl rfl ht.reading id
      let d₁ : Daemon := { d with usb := d.usb.intrInBegin env status data }
      have hmoves : Moves env .loop { d₁ with intrInBuf := memcpy d₁.intrInBuf data }
          (d₁.decode env data) := decode_moves (d := d₁) ht.descs ht.wf data
      have hquiet := hmoves.quiet (htables _ _)
      have hpc := hmoves.pc_eq
      generalize Daemon.decode env _ data = a at h hquiet hpc
      obtain rfl := Option.some.inj h
      refine .same (Quiet.trans ?_ (hquiet.trans ?_)) hpc (Or.inr hlib)
      · exact quiet_of_same rfl rfl rfl
      · exact quiet_of_same rfl rfl rfl
    · obtain rfl := Option.some.inj h
      exact .same (quiet_of_same rfl rfl rfl) rfl (Or.inl rfl)
  · cases h

/-- A byte is taken, and the line that it completes is executed. -/
theorem doByte_flow (ht : d.Tables env) {l : ServiceLoop} {r : Reading}
    (hpc : d.pc = .encode l r) (h : d.doByte env l r = some d') {label : Label} :
    Flow env d label d' := by
  obtain ⟨b, rest, _, ⟨_, rfl⟩ | ⟨line, _, rfl⟩⟩ := doByte_cases h
  · exact .byte l r _ (quiet_of_record rfl rfl rfl rfl) hpc rfl rfl
  · have hafter : (d.afterByte l r b rest).Tables env := ht.afterByte hpc b rest
    have hmoves : Moves env _ _ _ :=
      runLine_moves hafter.descs hafter.wf (ht.reading l r hpc) line
    have htaken : d.Quiet (d.afterByte l r b rest) := quiet_of_record rfl rfl rfl rfl
    have hcommand : (d.afterByte l r b rest).Quiet
        ((d.afterByte l r b rest).record (.command r.conn r.fd line)) :=
      quiet_of_record rfl rfl rfl rfl
    exact .byte l r _ ((htaken.trans hcommand).trans (hmoves.quiet (hafter.record _))) hpc
      hmoves.pc_eq rfl

/-- The listeners are created. -/
theorem doCreateListeners_flow {main xml or20 : ℤ} (hpc : d.pc = .initialised)
    (h : d.doCreateListeners env main xml or20 = some d') {label : Label} :
    Flow env d label d' := by
  have hopen : ∀ descs enabled fd port, listenerOk descs enabled fd = true → ∀ x,
      openListener descs fd port x = descs x ∨
        (0 ≤ x ∧ descs x = none ∧ openListener descs fd port x = some (.listener port)) := by
    intro descs enabled fd port hok x
    rw [openListener]
    split
    · exact Or.inl rfl
    next hpos =>
      rcases eq_or_ne x fd with rfl | hne
      · refine Or.inr ⟨not_lt.mp hpos, ?_, Function.update_self ..⟩
        simp only [listenerOk, Bool.or_eq_true, Bool.and_eq_true, decide_eq_true_eq] at hok
        rcases hok with rfl | ⟨_, hfree⟩
        · omega
        · exact (lowestFree_spec hfree).2
      · exact Or.inl (Function.update_of_ne hne ..)
  have hthree : ∀ descs : ℤ → Option Desc, ∀ descs' : ℤ → Option Desc,
      ∀ descs'' : ℤ → Option Desc, ∀ x,
      (descs x = d.descs x ∨
        (0 ≤ x ∧ d.descs x = none ∧ ∃ port, descs x = some (.listener port))) →
      (descs' x = descs x ∨ (0 ≤ x ∧ descs x = none ∧ ∃ port, descs' x = some (.listener port))) →
      (descs'' x = descs' x ∨
        (0 ≤ x ∧ descs' x = none ∧ ∃ port, descs'' x = some (.listener port))) →
      descs'' x = d.descs x ∨
        (0 ≤ x ∧ d.descs x = none ∧ ∃ port, descs'' x = some (.listener port)) := by
    intro descs descs' descs'' x h₁ h₂ h₃
    grind
  simp only [doCreateListeners] at h
  split at h
  next hok =>
    simp only [Bool.and_eq_true] at hok
    have hdescs := fun x => hthree _ _ _ x
      ((hopen d.descs true main env.config.serverPort hok.1.1 x).imp_right fun hx => ⟨hx.1, hx.2.1, _, hx.2.2⟩)
      ((hopen _ _ xml env.config.xmlPort hok.1.2 x).imp_right fun hx => ⟨hx.1, hx.2.1, _, hx.2.2⟩)
      ((hopen _ _ or20 env.config.openremotePort hok.2 x).imp_right fun hx => ⟨hx.1, hx.2.1, _, hx.2.2⟩)
    have hpc₀ : d.pc.iterating = false := by rw [hpc]; rfl
    split at h
    · obtain rfl := Option.some.inj h
      exact .outside (Or.inl hpc₀) rfl rfl rfl hdescs
    · obtain rfl := Option.some.inj h
      exact .outside (Or.inl hpc₀) rfl rfl rfl hdescs
  · cases h

/-- **Every step does one of these things.** -/
theorem step_flow (ht : d.Tables env) {label : Label} (h : d.step env label = some d') :
    Flow env d label d' := by
  have hkept : d'.descs = d.descs → ∀ fd, d'.descs fd = d.descs fd ∨
      (0 ≤ fd ∧ d.descs fd = none ∧ ∃ port, d'.descs fd = some (.listener port)) :=
    fun heq fd => Or.inl (congrFun heq fd)
  cases label with
  | signal =>
    simp only [step] at h
    split at h
    · obtain rfl := Option.some.inj h
      exact .same (quiet_of_same rfl rfl rfl) rfl (Or.inl rfl)
    · cases h
  | otherOpened fd =>
    simp only [step, doOtherOpened] at h
    split at h
    next hfree =>
      obtain rfl := Option.some.inj h
      exact .opened fd rfl hfree rfl
    · cases h
  | otherClosed fd =>
    simp only [step, doOtherClosed] at h
    split at h
    next hold =>
      obtain rfl := Option.some.inj h
      exact .closed fd hold.1 hold.2 rfl
    · cases h
  | startTransfers =>
    simp only [step] at h
    split at h
    next hpc =>
      obtain rfl := Option.some.inj h
      refine .outside (Or.inl (by rw [hpc]; rfl)) ?_ rfl rfl (hkept rfl)
      simp only [doStartTransfers]
      split
      · rfl
      · rfl
    · cases h
  | initcm1Xa =>
    simp only [step] at h
    split at h
    next hpc =>
      obtain rfl := Option.some.inj h
      exact .outside (Or.inl (by rw [hpc]; rfl)) rfl rfl rfl (hkept rfl)
    · cases h
  | createListeners main xml or20 =>
    simp only [step] at h
    split at h
    next hpc => exact doCreateListeners_flow hpc h
    · cases h
  | layOut usbTimeout =>
    simp only [step] at h
    split at h
    next hpc =>
      obtain rfl := Option.some.inj h
      have hpc₀ : d.pc.iterating = false := by rw [hpc]; rfl
      simp only [doLayOut] at hkept ⊢
      split
      · exact .outside (Or.inl hpc₀) rfl rfl rfl (fun _ => Or.inl rfl)
      split
      · exact .outside (Or.inl hpc₀) rfl rfl rfl (fun _ => Or.inl rfl)
      · exact .layOut _ hpc rfl rfl rfl rfl
    · cases h
  | layOutFailed =>
    simp only [step, doLayOutFailed] at h
    split at h
    next hpc =>
      split at h
      · obtain rfl := Option.some.inj h
        exact .outside (Or.inl (by rw [hpc]; rfl)) rfl rfl rfl (hkept rfl)
      · cases h
    · cases h
  | pollInterrupted | pollFailed =>
    simp only [step, doPollFailed] at h
    split at h
    next snap timeout hpc =>
      obtain rfl := Option.some.inj h
      exact .outside (Or.inr ⟨snap, timeout, hpc⟩) rfl rfl rfl (hkept rfl)
    · cases h
  | pollReturned revents now =>
    simp only [step] at h
    split at h
    next hpc => exact doPollReturned_flow ht hpc h
    · cases h
  | intrOut status =>
    simp only [step, doIntrOut] at h
    split at h
    · split at h
      · obtain rfl := Option.some.inj h
        exact .same (quiet_of_same rfl rfl rfl) rfl (Or.inl rfl)
      · cases h
    · cases h
  | intrIn status data signal =>
    simp only [step] at h
    split at h
    next hlib => exact doIntrIn_flow ht hlib h
    · cases h
  | pollfdAdded p ok =>
    simp only [step, doPollfdAdded] at h
    split at h
    next hlib =>
      split at h
      next hother =>
        split at h
        · obtain rfl := Option.some.inj h
          exact .added p hlib hother rfl
        · obtain rfl := Option.some.inj h
          exact .same (quiet_of_same rfl rfl rfl) rfl (Or.inl rfl)
      · cases h
    · cases h
  | pollfdRemoved fd =>
    simp only [step] at h
    split at h
    next hlib =>
      obtain rfl := Option.some.inj h
      exact .removed fd hlib rfl
    · cases h
  | handled =>
    simp only [step] at h
    split at h
    next snap nready hpc =>
      obtain rfl := Option.some.inj h
      exact .handled snap nready hpc rfl
    · cases h
  | accept fd nonblocking =>
    simp only [step, doAccept] at h
    split at h
    next snap nready kind hpc =>
      split at h
      next hok =>
        obtain rfl := Option.some.inj h
        rw [Bool.and_eq_true] at hok
        exact .accepted snap nready kind fd nonblocking rfl hpc hok.1 hok.2 rfl
      · cases h
    · cases h
  | acceptFailed =>
    simp only [step, doAcceptFailed] at h
    split at h
    next snap nready kind hpc =>
      split at h
      next hready =>
        obtain rfl := Option.some.inj h
        exact .refused snap nready kind hpc hready rfl
      · cases h
    · cases h
  | notReady =>
    simp only [step, doNotReady] at h
    split at h
    next snap nready kind hpc =>
      split at h
      · cases h
      · obtain rfl := Option.some.inj h
        exact .passed snap nready kind hpc rfl
    · cases h
  | service results now read =>
    simp only [step] at h
    split at h
    next l hpc => exact .service l results now read hpc h
    · cases h
  | served =>
    simp only [step, doServed] at h
    split at h
    next l hpc =>
      split at h
      · cases h
      next hend =>
        obtain rfl := Option.some.inj h
        exact .served l hpc (not_lt.mp hend) rfl
    · cases h
  | byte =>
    simp only [step] at h
    split at h
    next l r hpc => exact doByte_flow ht hpc h
    · cases h
  | encoded =>
    simp only [step] at h
    split at h
    next l r hpc => exact .encoded l r hpc h
    · cases h
  | cancel result =>
    simp only [step] at h
    split at h
    next hpc =>
      obtain ⟨io, _, rfl⟩ := doCancelOut_eq h
      exact .outside (Or.inl (by rw [hpc]; rfl)) rfl rfl rfl (hkept rfl)
    next hpc =>
      obtain ⟨io, _, rfl⟩ := doCancelIn_eq h
      exact .outside (Or.inl (by rw [hpc]; rfl)) rfl rfl rfl (hkept rfl)
    · cases h
  | drainTurn =>
    simp only [step] at h
    split at h
    next maxEvents hpc =>
      obtain rfl := Option.some.inj h
      have hpc₀ : d.pc.iterating = false := by rw [hpc]; rfl
      simp only [doDrainTurn] at hkept ⊢
      split
      · exact .outside (Or.inl hpc₀) rfl rfl rfl (fun _ => Or.inl rfl)
      · exact .outside (Or.inl hpc₀) rfl rfl rfl (fun _ => Or.inl rfl)
    · cases h
  | drained result =>
    simp only [step] at h
    split at h
    next maxEvents hpc =>
      obtain rfl := Option.some.inj h
      have hpc₀ : d.pc.iterating = false := by rw [hpc]; rfl
      simp only [doDrained] at hkept ⊢
      split
      · exact .outside (Or.inl hpc₀) rfl rfl rfl (fun _ => Or.inl rfl)
      · exact .outside (Or.inl hpc₀) rfl rfl rfl (fun _ => Or.inl rfl)
    · cases h

/-! ### A turn of the service loop -/

/-- An event that is a note was there before. -/
theorem Quiet.mem_of_note (h : d.Quiet d') {e : Ev} (he : e ∈ d'.log) (hnote : e.isNote = true) :
    e ∈ d.log := by
  obtain ⟨es, hes, hnot⟩ := h.log
  rw [hes] at he
  rcases List.mem_append.mp he with he | he
  · rw [hnot e he] at hnote
    cases hnote
  · exact he

/-- A read is counted, and may be the last. -/
theorem counted_cases (d : Daemon) (l : ServiceLoop) (v : Visit) :
    (l.nready - 1 ≤ 0 ∧ d.counted l v = d.iterate l.snap (some (l.start, v :: l.visits))) ∨
      (0 < l.nready - 1 ∧
        d.counted l v = { d with pc := .serve { l.next v with nready := l.nready - 1 } }) := by
  simp only [counted]
  split
  next hlast => exact Or.inl ⟨hlast, rfl⟩
  next hmore => exact Or.inr ⟨not_le.mp hmore, rfl⟩

theorem counted_clients (d : Daemon) (l : ServiceLoop) (v : Visit) :
    (d.counted l v).clients = d.clients := by
  rcases counted_cases d l v with ⟨_, heq⟩ | ⟨_, heq⟩
  · rw [heq]
    rfl
  · rw [heq]

/-- A listener that was ready is counted, and may be the last. -/
theorem afterAccept_cases (d : Daemon) (snap : Snapshot) (nready : ℤ) (kind : Kind) :
    (nready - 1 ≤ 0 ∧ d.afterAccept snap nready kind = d.iterate snap none) ∨
      (0 < nready - 1 ∧
        d.afterAccept snap nready kind = d.afterListener snap (nready - 1) kind) := by
  rw [afterAccept]
  split
  next hlast => exact Or.inl ⟨hlast, rfl⟩
  next hmore => exact Or.inr ⟨not_le.mp hmore, rfl⟩

/-- The service loop is at the record of this descriptor. -/
def servicing (d : Daemon) (e : PollEntry) : Daemon :=
  d.record (.serviced e.fd e.owner (d.connAt e.fd))

/-- **The part of a turn that writes**: the client is gone, or its queue is flushed. -/
theorem doPollout_eq (d : Daemon) (e : PollEntry) (results : List SendResult) (now : ℕ) :
    (d.clients.find e.fd = none ∧ d.doPollout e results now = d) ∨
      ∃ s, d.clients.find e.fd = some s ∧
        d.doPollout e results now = (d.servicing e).flushClientOutput s results now := by
  rw [doPollout]
  split
  next hnone => exact Or.inl ⟨hnone, rfl⟩
  next s hs => exact Or.inr ⟨s, hs, rfl⟩

/-- It closes connections only. -/
theorem doPollout_cases (ht : d.Tables env) (e : PollEntry) (hfd : e.fd ≠ -1)
    (results : List SendResult) (now : ℕ) :
    ((d.clients.find e.fd = none ∧ d.doPollout e results now = d) ∨
      (d.servicing e).Quiet (d.doPollout e results now)) ∧
        (d.doPollout e results now).Tables env ∧ (d.doPollout e results now).pc = d.pc := by
  rcases doPollout_eq d e results now with ⟨hnone, heq⟩ | ⟨s, hs, heq⟩
  · rw [heq]
    exact ⟨Or.inl ⟨hnone, rfl⟩, ht, rfl⟩
  · have hlive : ((d.servicing e).clients.slot s).fd ≠ -1 := by
      have hslot : (d.clients.slot s).fd = e.fd := Clients.fd_of_find hs
      exact fun h => hfd (hslot ▸ h)
    have hmoves : Moves env .loop (d.servicing e) _ := flushClientOutput_moves hlive results now
    rw [heq]
    exact ⟨Or.inr (hmoves.quiet (ht.record _)), (ht.record _).moves hmoves, hmoves.pc_eq⟩

/-- **The part of a turn that reads**: the client is closed, or it is gone, or what was read is
about to be processed. -/
theorem doPollin_eq {l : ServiceLoop} {e : PollEntry} {v : Visit} {read : ReadResult}
    (h : d.doPollin l e v read = some d') :
    d' = ((d.servicing e).delClient e.fd).counted l v ∨ d' = (d.servicing e).counted l v ∨
      ∃ s bytes, d.clients.find e.fd = some s ∧
        d' = { (d.servicing e).record (.received (d.connAt e.fd) e.fd bytes) with
          pc := .encode l
            ⟨e.fd, s, d.connAt e.fd, (d.clients.slot s).state.remlen, bytes, v⟩ } := by
  simp only [doPollin] at h
  split at h
  · split at h
    · exact Or.inl (Option.some.inj h).symm
    · exact Or.inl (Option.some.inj h).symm
    next bytes _ =>
      split at h
      · exact Or.inr (Or.inl (Option.some.inj h).symm)
      next s hs => exact Or.inr (Or.inr ⟨s, bytes, hs, (Option.some.inj h).symm⟩)
  · cases h

/-- It closes connections only, and then ends the turn or begins a read. -/
theorem doPollin_cases (ht : d.Tables env) {l : ServiceLoop} {e : PollEntry} (hfd : e.fd ≠ -1)
    {v : Visit} {read : ReadResult} (h : d.doPollin l e v read = some d') :
    ∃ d₁, (d.servicing e).Quiet d₁ ∧ d₁.pc = d.pc ∧
      (d' = d₁.counted l v ∨ ∃ r : Reading, r.visit = v ∧ d' = { d₁ with pc := .encode l r }) := by
  rcases doPollin_eq h with rfl | rfl | ⟨s, bytes, _, rfl⟩
  · have hmoves : Moves env .loop (d.servicing e) _ := delClient_moves hfd (Or.inl rfl)
    exact ⟨_, hmoves.quiet (ht.record _), hmoves.pc_eq, Or.inl rfl⟩
  · exact ⟨_, Quiet.refl _, rfl, Or.inl rfl⟩
  · have hreceived : (d.servicing e).Quiet
        ((d.servicing e).record (.received (d.connAt e.fd) e.fd bytes)) :=
      quiet_of_record rfl rfl rfl rfl
    exact ⟨_, hreceived, rfl, Or.inr ⟨_, rfl, rfl⟩⟩

/-- **A turn of the service loop**: the record is passed over, or its client is written to, and
then found to be gone, or read, or left. -/
theorem doService_cases {l : ServiceLoop} {results : List SendResult} {now : ℕ}
    {read : ReadResult} (h : d.doService l results now read = some d') :
    l.i < l.snap.npollfds ∧ ∃ e, l.snap.entries[l.i]? = some e ∧
      ((e.fd < 0 ∧ d' = { d with pc := .serve (l.next ⟨l.i, false, false, false⟩) }) ∨
        (0 ≤ e.fd ∧ ∃ d₁ flushed,
          d₁ = (if e.revents.pollout then d.doPollout e results now else d) ∧
          flushed = (e.revents.pollout && (d.clients.find e.fd).isSome) ∧
          ((e.revents.pollout = true ∧ d₁.clients.find e.fd = none ∧
              d' = { d₁ with pc := .serve (l.next ⟨l.i, true, flushed, false⟩) }) ∨
            ((e.revents.pollout = true → d₁.clients.find e.fd ≠ none) ∧
              (((e.revents.pollin || e.revents.pollerr) = true ∧
                  d₁.doPollin l e ⟨l.i, false, flushed, true⟩ read = some d') ∨
                ((e.revents.pollin || e.revents.pollerr) = false ∧
                  d' = { d₁ with pc := .serve (l.next ⟨l.i, false, flushed, false⟩) })))))) := by
  simp only [doService] at h
  split at h
  · cases h
  next e he =>
    have hi : l.i < l.snap.npollfds ∧ l.snap.entries[l.i]? = some e := by
      split at he
      next hi => exact ⟨hi, he⟩
      · cases he
    refine ⟨hi.1, e, hi.2, ?_⟩
    split at h
    next hneg => exact Or.inl ⟨hneg, (Option.some.inj h).symm⟩
    next hpos =>
      refine Or.inr ⟨not_lt.mp hpos, _, _, rfl, rfl, ?_⟩
      generalize (if e.revents.pollout then d.doPollout e results now else d) = d₁ at h ⊢
      split at h
      next hgone =>
        rw [Bool.and_eq_true, Option.isNone_iff_eq_none] at hgone
        exact Or.inl ⟨hgone.1, hgone.2, (Option.some.inj h).symm⟩
      next hthere =>
        refine Or.inr ⟨fun hout hnone => hthere ?_, ?_⟩
        · rw [hnone, hout]
          rfl
        · split at h
          next hin => exact Or.inl ⟨hin, h⟩
          next hin => exact Or.inr ⟨Bool.eq_false_iff.mpr hin, (Option.some.inj h).symm⟩

end Daemon

end Mochad
