import Mochad.Core.Moves

/-!
# The kinds of steps

`Daemon.step` has a label for every answer of the system. As far as clients are
concerned there are seven kinds of steps, `Daemon.StepKind`, and `Daemon.step_kind`
says which label is of which kind: most are calm, that is made of elementary changes
that send nothing past the queues; the others open or close a descriptor that is no
connection, create the listeners, accept a connection, begin a read, take a byte of it,
or end it.

The two hypotheses of an induction over a run – nobody owns descriptor `-1`, and a read
is processed for a descriptor – are shown here with it (`Daemon.Addressable`).
-/

namespace Mochad

namespace Daemon

variable {env : Env} {d d' : Daemon}

open Relation (ReflTransGen)

/-- No descriptor in use is `-1`. -/
structure Addressable (d : Daemon) : Prop where
  descs : d.descs (-1) = none
  reading : ∀ l r, d.pc = .encode l r → r.fd ≠ -1

/-- **The kinds of steps.** -/
inductive StepKind (env : Env) (d d' : Daemon) : Prop
  /-- Nothing is read or accepted. -/
  | calm (h : Calm env d d')
  /-- A descriptor that is no connection is opened or closed. -/
  | desc (fd : ℤ) (desc : Option Desc) (hold : ∀ c p, d.descs fd ≠ some (.conn c p))
      (hnew : ∀ c p, desc ≠ some (.conn c p)) (hneg : fd = -1 → desc = none)
      (h : d' = { d with descs := Function.update d.descs fd desc })
  /-- The listeners are created. -/
  | listeners (main xml or20 : ℤ) (hpc : d.pc = .initialised)
      (h : d.doCreateListeners env main xml or20 = some d')
  /-- A connection is accepted. -/
  | accept (snap : Snapshot) (nready : ℤ) (kind : Kind) (fd : ℤ) (nonblocking : Bool)
      (hpc : d.pc = .listen snap nready kind) (hready : d.listenerReady snap kind = true)
      (hfree : lowestFree d.descs fd = true)
      (h : d' = (d.addAccepted env kind fd nonblocking).afterAccept snap nready kind)
  /-- A read begins. -/
  | received (d₁ : Daemon) (l : ServiceLoop) (r : Reading) (hpc : d.pc = .serve l)
      (hcalm : Calm env d d₁) (hpc₁ : d₁.pc = d.pc) (hfd : r.fd ≠ -1)
      (hslot : d₁.clients.find r.fd = some r.slot) (hconn : r.conn = d₁.connAt r.fd)
      (hrem : r.remptr = (d₁.clients.slot r.slot).state.remlen)
      (h : d' = { d₁.record (.received r.conn r.fd r.rest) with pc := .encode l r })
  /-- A byte of a read is taken. -/
  | byte (l : ServiceLoop) (r : Reading) (hpc : d.pc = .encode l r)
      (h : d.doByte env l r = some d')
  /-- A read ends. -/
  | encoded (l : ServiceLoop) (r : Reading) (hpc : d.pc = .encode l r)
      (h : d.doEncoded l r = some d')

/-- **What a step does**, where it does something to clients. -/
inductive StepCase (env : Env) (d : Daemon) (label : Label) (d' : Daemon) : Prop
  /-- Nothing. -/
  | idle (h : Idle d d')
  /-- Stalled clients are closed after `poll()`. -/
  | polled (usb : Usb) (now : ℕ) (pc : Pc) (hpc : d.pc.stage = .running) (hpc' : pc.stage = .running)
      (hlabel : ∃ revents, label = .pollReturned revents now)
      (h : d' = { ({ d with usb := usb } : Daemon).disconnectStalledClients now with pc := pc })
  /-- A packet is decoded. -/
  | packet (usb usb' : Usb) (data : Bytes) (hlen : data.length ≤ 8)
      (h : d' = { Daemon.decode env { d with usb := usb } data with usb := usb' })
  /-- A descriptor that is no connection is opened or closed. -/
  | desc (fd : ℤ) (desc : Option Desc) (hold : ∀ c p, d.descs fd ≠ some (.conn c p))
      (hnew : ∀ c p, desc ≠ some (.conn c p)) (hneg : fd = -1 → desc = none)
      (h : d' = { d with descs := Function.update d.descs fd desc })
  /-- The listeners are created. -/
  | listeners (main xml or20 : ℤ) (hpc : d.pc = .initialised)
      (h : d.doCreateListeners env main xml or20 = some d')
  /-- A connection is accepted. -/
  | accept (snap : Snapshot) (nready : ℤ) (kind : Kind) (fd : ℤ) (nonblocking : Bool)
      (hpc : d.pc = .listen snap nready kind) (hready : d.listenerReady snap kind = true)
      (hfree : lowestFree d.descs fd = true)
      (h : d' = (d.addAccepted env kind fd nonblocking).afterAccept snap nready kind)
  /-- A turn of the service loop. -/
  | service (l : ServiceLoop) (results : List SendResult) (now : ℕ) (read : ReadResult)
      (hlabel : label = .service results now read) (hpc : d.pc = .serve l)
      (h : d.doService l results now read = some d')
  /-- A byte of a read is taken. -/
  | byte (l : ServiceLoop) (r : Reading) (hlabel : label = .byte) (hpc : d.pc = .encode l r)
      (h : d.doByte env l r = some d')
  /-- A read ends. -/
  | encoded (l : ServiceLoop) (r : Reading) (hpc : d.pc = .encode l r)
      (h : d.doEncoded l r = some d')

/-- The part of a turn of the service loop that writes. -/
theorem doPollout_calm (e : PollEntry) (hfd : e.fd ≠ -1) (results : List SendResult) (now : ℕ) :
    Calm env d (d.doPollout e results now) ∧ (d.doPollout e results now).pc = d.pc := by
  rw [doPollout]
  split
  · exact ⟨ReflTransGen.refl, rfl⟩
  next s hs =>
    have hlive : ((d.record (.serviced e.fd e.owner (d.connAt e.fd))).clients.slot s).fd ≠ -1 := by
      have hslot : (d.clients.slot s).fd = e.fd := Clients.fd_of_find hs
      exact fun h => hfd (hslot ▸ h)
    have hmoves : Moves env .loop _ _ := flushClientOutput_moves hlive results now
    exact ⟨(idle_serviced _ _ _).calm.trans hmoves.calm, hmoves.pc_eq⟩

/-- The part that reads: the client is closed, or its bytes are processed. -/
theorem doPollin_kind {d₁ : Daemon} (hcalm : Calm env d d₁) (hsame : d₁.pc = d.pc)
    {l : ServiceLoop} (hpc : d.pc = .serve l) {e : PollEntry} (hfd : e.fd ≠ -1) {v : Visit}
    {read : ReadResult} (h : d₁.doPollin l e v read = some d') : StepKind env d d' := by
  have hrun : ∀ fd owner conn, (d₁.record (.serviced fd owner conn)).pc.stage = .running := by
    intro fd owner conn
    show d₁.pc.stage = .running
    rw [hsame, hpc]
    rfl
  have hclosed : Calm env d
      (((d₁.record (.serviced e.fd e.owner (d₁.connAt e.fd))).delClient e.fd).counted l v) := by
    have hmoves : Moves env .loop (d₁.record (.serviced e.fd e.owner (d₁.connAt e.fd))) _ :=
      delClient_moves hfd (Or.inl rfl)
    have hrun' := hrun e.fd e.owner (d₁.connAt e.fd)
    rw [← hmoves.pc_eq] at hrun'
    exact ((hcalm.trans (idle_serviced _ _ _).calm).trans hmoves.calm).trans
      (idle_counted hrun' l v).calm
  simp only [doPollin] at h
  split at h
  · split at h
    · obtain rfl := Option.some.inj h
      exact .calm hclosed
    · obtain rfl := Option.some.inj h
      exact .calm hclosed
    next bytes _ =>
      split at h
      · obtain rfl := Option.some.inj h
        exact .calm ((hcalm.trans (idle_serviced _ _ _).calm).trans
          (idle_counted (hrun _ _ _) l v).calm)
      next s hs =>
        obtain rfl := Option.some.inj h
        exact .received (d₁.record (.serviced e.fd e.owner (d₁.connAt e.fd))) l
          ⟨e.fd, s, d₁.connAt e.fd, (d₁.clients.slot s).state.remlen, bytes, v⟩ hpc
          (hcalm.trans (idle_serviced _ _ _).calm) hsame hfd hs rfl rfl rfl
  · cases h

/-- **One turn of the service loop.** -/
theorem doService_kind {l : ServiceLoop} (hpc : d.pc = .serve l) {results : List SendResult}
    {now : ℕ} {read : ReadResult} (h : d.doService l results now read = some d') :
    StepKind env d d' := by
  have hrun : d.pc.stage = .running := by
    rw [hpc]
    rfl
  simp only [doService] at h
  split at h
  · cases h
  next e _ =>
    split at h
    · obtain rfl := Option.some.inj h
      exact .calm (idle_serve hrun _).calm
    next hneg =>
      have hfd : e.fd ≠ -1 := by omega
      have hout : Calm env d (if e.revents.pollout then d.doPollout e results now else d) ∧
          (if e.revents.pollout then d.doPollout e results now else d).pc = d.pc := by
        split
        · exact doPollout_calm e hfd results now
        · exact ⟨ReflTransGen.refl, rfl⟩
      generalize (if e.revents.pollout then d.doPollout e results now else d) = d₁ at h hout
      have hrun₁ : d₁.pc.stage = .running := by rw [hout.2, hrun]
      split at h
      · obtain rfl := Option.some.inj h
        exact .calm (hout.1.trans (idle_serve hrun₁ _).calm)
      split at h
      · exact doPollin_kind hout.1 hout.2 hpc hfd h
      · obtain rfl := Option.some.inj h
        exact .calm (hout.1.trans (idle_serve hrun₁ _).calm)

/-- The output callback, and both parts of the input callback, leave clients alone. -/
theorem idle_usb (usb : Usb) : Idle d { d with usb := usb } := idle_of_same rfl rfl rfl rfl rfl rfl

/-- `poll()` returns, and stalled clients are closed. -/
theorem doPollReturned_case {snap : Snapshot} {timeout : ℤ} (hpc : d.pc = .polling snap timeout)
    {revents : List Revents} {now : ℕ} (h : d.doPollReturned snap timeout revents now = some d') :
    StepCase env d (.pollReturned revents now) d' := by
  simp only [doPollReturned] at h
  split at h
  · exact .polled _ now (.events (snap.report revents) (revents.filter Revents.any).length)
      (by rw [hpc]; rfl) rfl ⟨revents, rfl⟩ (Option.some.inj h).symm
  · cases h

/-- A packet is decoded between the two parts of its callback. -/
theorem doIntrIn_case {status : TransferStatus} {data : Bytes} {signal : Bool}
    (h : d.doIntrIn env status data signal = some d') {label : Label} :
    StepCase env d label d' := by
  simp only [doIntrIn] at h
  split at h
  next hok =>
    split at h
    · exact .packet _ _ data hok.2.1 (Option.some.inj h).symm
    · obtain rfl := Option.some.inj h
      exact .idle (idle_usb _)
  · cases h

theorem polled_calm (usb : Usb) (now : ℕ) {pc : Pc} (hpc : d.pc.stage = .running)
    (hpc' : pc.stage = .running) :
    Calm env d { ({ d with usb := usb } : Daemon).disconnectStalledClients now with pc := pc } := by
  have hmoves : Moves env .loop { d with usb := usb } _ := disconnectStalledClients_moves now
  have hsame := hmoves.pc_eq
  generalize Daemon.disconnectStalledClients _ now = a at hmoves hsame ⊢
  have hidle : Idle a { a with pc := pc } :=
    idle_of_pc rfl rfl rfl rfl rfl (by simp [hsame, hpc]) (by simp [hpc']) (by simp [hpc'])
  exact ((idle_usb usb).calm.trans hmoves.calm).trans hidle.calm

theorem decode_calm (hneg : d.descs (-1) = none) (hwf : d.clients.Wf) (data : Bytes) :
    Calm env d (d.decode env data) := by
  have hidle : Idle d { d with intrInBuf := memcpy d.intrInBuf data } :=
    idle_of_same rfl rfl rfl rfl rfl rfl
  exact hidle.calm.trans (Moves.calm (decode_moves hneg hwf data))

theorem packet_calm (hneg : d.descs (-1) = none) (hwf : d.clients.Wf) (usb usb' : Usb)
    (data : Bytes) : Calm env d { Daemon.decode env { d with usb := usb } data with usb := usb' } := by
  have hdecoded : Calm env d (Daemon.decode env { d with usb := usb } data) :=
    (idle_usb usb).calm.trans (decode_calm (d := { d with usb := usb }) hneg hwf data)
  exact hdecoded.trans (idle_usb usb').calm

/-- What cancelling a transfer leaves alone. -/
def outSide (io : Transfers) : ℕ × (Bool × Bool × Bool × Bool) × List UsbEvent :=
  (io.doExit, (io.intrOutCompleted, io.outOwned, io.x10AckReceived, io.x10AckTimedOut), io.history)

/-- **Cancelling a transfer** changes some flags of the transfers only. -/
theorem doCancelOut_eq {result : ℤ} (h : d.doCancelOut result = some d') :
    ∃ io, outSide io = outSide d.usb.io ∧
      d' = { d with usb := { d.usb with io := io }, pc := .cancelIn } := by
  simp only [doCancelOut] at h
  split at h
  · exact ⟨_, rfl, (Option.some.inj h).symm⟩
  split at h
  · exact ⟨{ d.usb.io with intrOutSubmitted := false, intrOutCanceling := false }, rfl,
      (Option.some.inj h).symm⟩
  split at h
  · exact ⟨_, rfl, (Option.some.inj h).symm⟩
  split at h
  · exact ⟨{ d.usb.io with intrOutCanceling := true, outCancelRequested := true }, rfl,
      (Option.some.inj h).symm⟩
  · cases h

theorem doCancelIn_eq {result : ℤ} (h : d.doCancelIn result = some d') :
    ∃ io, outSide io = outSide d.usb.io ∧
      d' = { d with usb := { d.usb with io := io }, pc := .drain 100 } := by
  simp only [doCancelIn] at h
  split at h
  · exact ⟨_, rfl, (Option.some.inj h).symm⟩
  split at h
  · exact ⟨{ d.usb.io with intrInSubmitted := false, intrInCanceling := false }, rfl,
      (Option.some.inj h).symm⟩
  split at h
  · exact ⟨_, rfl, (Option.some.inj h).symm⟩
  split at h
  · exact ⟨{ d.usb.io with intrInCanceling := true, inCancelRequested := true }, rfl,
      (Option.some.inj h).symm⟩
  · cases h

/-- A line is executed by elementary changes, on behalf of its sender. -/
theorem runLine_moves (hneg : d.descs (-1) = none) (hwf : d.clients.Wf) {r : Reading}
    (hfd : r.fd ≠ -1) (line : Bytes) :
    Moves env (causeOf r.fd line) (d.record (.command r.conn r.fd line)) (d.runLine env r line) := by
  have hrun : Moves env (causeOf r.fd line) (d.record (.command r.conn r.fd line)) _ :=
    processcommandline_moves (d := d.record (.command r.conn r.fd line)) hneg hwf hfd line
  rw [runLine]
  split
  · exact hrun.trans (delClient_moves hfd (Or.inr (Or.inl (causeOf_for.mpr rfl))))
  · exact hrun

/-- The daemon when a byte has been taken, and the line that it completes has not been
executed. -/
def afterByte (d : Daemon) (l : ServiceLoop) (r : Reading) (b : UInt8) (rest : Bytes) : Daemon :=
  let e := encodeByte (d.clients.slot r.slot).state r.remptr b
  { (d.setState r.slot e.1).record (.consumed r.conn b) with
    pc := .encode l { r with remptr := e.2.1, rest := rest } }

/-- **A byte is taken**, and the line that it completes, if any, is executed. -/
theorem doByte_cases {l : ServiceLoop} {r : Reading} (h : d.doByte env l r = some d') :
    ∃ b rest, r.rest = b :: rest ∧
      (((encodeByte (d.clients.slot r.slot).state r.remptr b).2.2 = none ∧
          d' = d.afterByte l r b rest) ∨
        ∃ line, (encodeByte (d.clients.slot r.slot).state r.remptr b).2.2 = some line ∧
          d' = (d.afterByte l r b rest).runLine env r line) := by
  simp only [doByte] at h
  split at h
  · cases h
  next b rest hrest =>
    refine ⟨b, rest, hrest, ?_⟩
    have h' := (Option.some.inj h).symm
    cases hline : (encodeByte (d.clients.slot r.slot).state r.remptr b).2.2 with
    | none =>
      rw [hline] at h'
      exact Or.inl ⟨rfl, h'⟩
    | some line =>
      rw [hline] at h'
      exact Or.inr ⟨line, rfl, h'⟩

/-- **A read ends.** -/
theorem doEncoded_eq {l : ServiceLoop} {r : Reading} (h : d.doEncoded l r = some d') :
    r.rest = [] ∧ d' = (d.setState r.slot
      { (d.clients.slot r.slot).state with remlen := r.remptr }).counted l r.visit := by
  rw [doEncoded] at h
  split at h
  next hrest => exact ⟨hrest, (Option.some.inj h).symm⟩
  · cases h

/-- **Every step does one of these things.** -/
theorem step_case {label : Label} (h : d.step env label = some d') : StepCase env d label d' := by
  have hother : ∀ fd, d.descs fd = none ∨ d.descs fd = some .other →
      ∀ c p, d.descs fd ≠ some (.conn c p) := by
    rintro fd (hfd | hfd) c p hcon
    · rw [hfd] at hcon
      cases hcon
    · rw [hfd] at hcon
      cases hcon
  cases label with
  | signal =>
    simp only [step] at h
    split at h
    · obtain rfl := Option.some.inj h
      exact .idle (idle_usb _)
    · cases h
  | otherOpened fd =>
    simp only [step, doOtherOpened] at h
    split at h
    next hfree =>
      obtain rfl := Option.some.inj h
      obtain ⟨hpos, hnone⟩ := lowestFree_spec hfree
      exact .desc fd (some .other) (hother fd (Or.inl hnone)) (by simp) (by omega) rfl
    · cases h
  | otherClosed fd =>
    simp only [step, doOtherClosed] at h
    split at h
    next hold =>
      obtain rfl := Option.some.inj h
      exact .desc fd none (hother fd (Or.inr hold.1)) (by simp) (fun _ => rfl) rfl
    · cases h
  | startTransfers =>
    simp only [step] at h
    split at h
    next hpc =>
      obtain rfl := Option.some.inj h
      refine .idle ?_
      simp only [doStartTransfers]
      refine idle_of_pc rfl rfl rfl rfl rfl (by simp [hpc, Pc.stage]) ?_ ?_
      · dsimp only
        split
        · simp [Pc.stage]
        · simp [Pc.stage]
      · simp [hpc, Pc.stage]
    · cases h
  | initcm1Xa =>
    simp only [step] at h
    split at h
    next hpc =>
      obtain rfl := Option.some.inj h
      exact .idle ((idle_of_pc rfl rfl rfl rfl rfl (by simp [hpc, Pc.stage])
        (by simp [doInitcm1Xa, Pc.stage]) (by simp [hpc, Pc.stage])))
    · cases h
  | createListeners main xml or20 =>
    simp only [step] at h
    split at h
    next hpc => exact .listeners main xml or20 hpc h
    · cases h
  | layOut usbTimeout =>
    simp only [step] at h
    split at h
    next hpc =>
      obtain rfl := Option.some.inj h
      refine .idle ?_
      simp only [doLayOut]
      split
      · exact idle_of_pc rfl rfl rfl rfl rfl (by simp [hpc, Pc.stage]) (by simp [Pc.stage])
          (by simp [Pc.stage])
      split
      · exact idle_of_pc rfl rfl rfl rfl rfl (by simp [hpc, Pc.stage]) (by simp [Pc.stage])
          (by simp [Pc.stage])
      · exact idle_of_pc rfl rfl rfl rfl rfl (by simp [hpc, Pc.stage]) (by simp [Pc.stage])
          (by simp [Pc.stage])
    · cases h
  | layOutFailed =>
    simp only [step, doLayOutFailed] at h
    split at h
    next hpc =>
      split at h
      · obtain rfl := Option.some.inj h
        exact .idle ((idle_of_pc rfl rfl rfl rfl rfl (by simp [hpc, Pc.stage])
          (by simp [Pc.stage]) (by simp [Pc.stage])))
      · cases h
    · cases h
  | pollInterrupted =>
    simp only [step, doPollFailed] at h
    split at h
    next hpc =>
      obtain rfl := Option.some.inj h
      exact .idle ((idle_of_pc rfl rfl rfl rfl rfl (by simp [hpc, Pc.stage])
        (by simp [Pc.stage]) (by simp [Pc.stage])))
    · cases h
  | pollFailed =>
    simp only [step, doPollFailed] at h
    split at h
    next hpc =>
      obtain rfl := Option.some.inj h
      exact .idle ((idle_of_pc rfl rfl rfl rfl rfl (by simp [hpc, Pc.stage])
        (by simp [Pc.stage]) (by simp [Pc.stage])))
    · cases h
  | pollReturned revents now =>
    simp only [step] at h
    split at h
    next hpc => exact doPollReturned_case hpc h
    · cases h
  | intrOut status =>
    simp only [step, doIntrOut] at h
    split at h
    · split at h
      · obtain rfl := Option.some.inj h
        exact .idle (idle_usb _)
      · cases h
    · cases h
  | intrIn status data signal =>
    simp only [step] at h
    split at h
    · exact doIntrIn_case h
    · cases h
  | pollfdAdded p ok =>
    simp only [step, doPollfdAdded] at h
    split at h
    · split at h
      · split at h
        · obtain rfl := Option.some.inj h
          exact .idle ((idle_of_same rfl rfl rfl rfl rfl rfl))
        · obtain rfl := Option.some.inj h
          exact .idle ((idle_of_same rfl rfl rfl rfl rfl rfl))
      · cases h
    · cases h
  | pollfdRemoved fd =>
    simp only [step] at h
    split at h
    · obtain rfl := Option.some.inj h
      exact .idle ((idle_of_same rfl rfl rfl rfl rfl rfl))
    · cases h
  | handled =>
    simp only [step] at h
    split at h
    next hpc =>
      obtain rfl := Option.some.inj h
      rw [doHandled]
      split
      · have hrun : ({ d with usb := d.usb.ackTimeout env } : Daemon).pc.stage = .running := by
          simp [hpc, Pc.stage]
        have hi := idle_iterate hrun
        exact .idle ⟨(hi _ _).clients, (hi _ _).descs, (hi _ _).nextConn, (hi _ _).listenfd,
          (hi _ _).log, (hi _ _).pc⟩
      · exact .idle ((idle_of_pc rfl rfl rfl rfl rfl (by simp [hpc, Pc.stage])
          (by simp [Pc.stage]) (by simp [Pc.stage])))
    · cases h
  | accept fd nonblocking =>
    simp only [step, doAccept] at h
    split at h
    next snap nready kind hpc =>
      split at h
      next hok =>
        obtain rfl := Option.some.inj h
        rw [Bool.and_eq_true] at hok
        exact .accept snap nready kind fd nonblocking hpc hok.1 hok.2 rfl
      · cases h
    · cases h
  | acceptFailed =>
    simp only [step, doAcceptFailed] at h
    split at h
    next hpc =>
      split at h
      · obtain rfl := Option.some.inj h
        exact .idle (idle_afterAccept (by rw [hpc]; rfl) _ _ _)
      · cases h
    · cases h
  | notReady =>
    simp only [step, doNotReady] at h
    split at h
    next hpc =>
      split at h
      · cases h
      · obtain rfl := Option.some.inj h
        exact .idle (idle_afterListener (by rw [hpc]; rfl) _ _ _)
    · cases h
  | service results now read =>
    simp only [step] at h
    split at h
    next l hpc => exact .service l results now read rfl hpc h
    · cases h
  | served =>
    simp only [step, doServed] at h
    split at h
    next hpc =>
      split at h
      · cases h
      · obtain rfl := Option.some.inj h
        exact .idle (idle_iterate (by rw [hpc]; rfl) _ _)
    · cases h
  | byte =>
    simp only [step] at h
    split at h
    next l r hpc => exact .byte l r rfl hpc h
    · cases h
  | encoded =>
    simp only [step] at h
    split at h
    next l r hpc => exact .encoded l r hpc h
    · cases h
  | cancel result =>
    simp only [step] at h
    split at h
    next hpc =>
      obtain ⟨io, _, rfl⟩ := doCancelOut_eq h
      exact .idle ((idle_of_pc rfl rfl rfl rfl rfl (by simp [hpc, Pc.stage])
        (by simp [Pc.stage]) (by simp [Pc.stage])))
    next hpc =>
      obtain ⟨io, _, rfl⟩ := doCancelIn_eq h
      exact .idle ((idle_of_pc rfl rfl rfl rfl rfl (by simp [hpc, Pc.stage])
        (by simp [Pc.stage]) (by simp [Pc.stage])))
    · cases h
  | drainTurn =>
    simp only [step] at h
    split at h
    next hpc =>
      obtain rfl := Option.some.inj h
      refine .idle ?_
      simp only [doDrainTurn]
      split
      · exact idle_of_pc rfl rfl rfl rfl rfl (by simp [hpc, Pc.stage]) (by simp [Pc.stage])
          (by simp [Pc.stage])
      · exact idle_of_pc rfl rfl rfl rfl rfl (by simp [hpc, Pc.stage]) (by simp [Pc.stage])
          (by simp [Pc.stage])
    · cases h
  | drained result =>
    simp only [step] at h
    split at h
    next hpc =>
      obtain rfl := Option.some.inj h
      refine .idle ?_
      rw [doDrained]
      split
      · exact idle_of_pc rfl rfl rfl rfl rfl (by simp [hpc, Pc.stage]) (by simp [Pc.stage])
          (by simp [Pc.stage])
      · exact idle_of_pc rfl rfl rfl rfl rfl (by simp [hpc, Pc.stage]) (by simp [Pc.stage])
          (by simp [Pc.stage])
    · cases h

/-- **Every step is of one of the kinds.** -/
theorem step_kind (hneg : d.descs (-1) = none) (hwf : d.clients.Wf) {label : Label}
    (h : d.step env label = some d') : StepKind env d d' := by
  rcases step_case h with hi | ⟨usb, now, pc, hpc, hpc', _, rfl⟩ | ⟨usb, usb', data, _, rfl⟩ |
    ⟨fd, desc, hold, hnew, hneg', heq⟩ | ⟨main, xml, or20, hpc, hl⟩ |
    ⟨snap, nready, kind, fd, nonblocking, hpc, hready, hfree, heq⟩ |
    ⟨l, results, now, read, _, hpc, hs⟩ | ⟨l, r, _, hpc, hb⟩ | ⟨l, r, hpc, he⟩
  · exact .calm hi.calm
  · exact .calm (polled_calm usb now hpc hpc')
  · exact .calm (packet_calm hneg hwf usb usb' data)
  · exact .desc fd desc hold hnew hneg' heq
  · exact .listeners main xml or20 hpc hl
  · exact .accept snap nready kind fd nonblocking hpc hready hfree heq
  · exact doService_kind hpc hs
  · exact .byte l r hpc hb
  · exact .encoded l r hpc he

/-- While a read is processed, nothing else is done for clients. -/
theorem step_reading {l : ServiceLoop} {r : Reading} (hpc : d.pc = .encode l r) {label : Label}
    (h : d.step env label = some d') :
    Idle d d' ∨ (∃ fd desc, (∀ c p, d.descs fd ≠ some (.conn c p)) ∧
        (∀ c p, desc ≠ some (.conn c p)) ∧
          d' = { d with descs := Function.update d.descs fd desc }) ∨
      (label = .byte ∧ d.doByte env l r = some d') ∨ d.doEncoded l r = some d' := by
  cases label with
  | signal =>
    simp only [step, handlesSignals, hpc, if_true] at h
    obtain rfl := Option.some.inj h
    exact Or.inl (idle_usb _)
  | otherOpened fd =>
    simp only [step, doOtherOpened] at h
    split at h
    next hfree =>
      obtain rfl := Option.some.inj h
      refine Or.inr (Or.inl ⟨fd, some .other, fun c p hc => ?_, by simp, rfl⟩)
      rw [(lowestFree_spec hfree).2] at hc
      cases hc
    · cases h
  | otherClosed fd =>
    simp only [step, doOtherClosed] at h
    split at h
    next hold =>
      obtain rfl := Option.some.inj h
      refine Or.inr (Or.inl ⟨fd, none, fun c p hc => ?_, by simp, rfl⟩)
      rw [hold.1] at hc
      cases hc
    · cases h
  | byte =>
    simp only [step, hpc] at h
    exact Or.inr (Or.inr (Or.inl ⟨rfl, h⟩))
  | encoded =>
    simp only [step, hpc] at h
    exact Or.inr (Or.inr (Or.inr h))
  | _ => simp [step, inLibusb, hpc] at h

end Daemon

end Mochad
