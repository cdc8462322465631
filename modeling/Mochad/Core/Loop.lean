import Mochad.Core.Daemon
import Mochad.Library.Transition

/-!
# The main loop

`mydaemon` from `start_transfers` on, as a machine whose labels are the answers of the
operating system and of libusb. One iteration of the loop lays out `Pollfds`, calls
`poll()`, lets libusb handle its events – in any order, with any notifications about
its descriptors – and then serves the listeners and the clients one by one. A read is
processed byte by byte. After the loop the transfers are cancelled and their callbacks
are waited for.

A label is refused when the system cannot give that answer: a callback needs a transfer
that libusb holds, and reports a cancellation only if one was asked for; a descriptor
that libusb wants polled is open, and is closed only after libusb wants it polled no
more; `accept()` returns the lowest free descriptor; a closed descriptor cannot be read;
and `poll()` reports on a descriptor only what it was asked for or an error, and returns
0 only if it had a timeout.

Each label has its own function, and `Daemon.step` only tells which one applies.
-/

namespace Mochad

/-- What `read()` answers. -/
inductive ReadResult
  | error
  | eof
  | data (bytes : Bytes)
  deriving DecidableEq

/-- **The answers of the system.** -/
inductive Label
  /-- A signal arrives. -/
  | signal
  /-- `start_transfers` is called. -/
  | startTransfers
  /-- `initcm1Xa` is called. -/
  | initcm1Xa
  /-- The listeners are created; `-1` if one cannot be. -/
  | createListeners (main xml or20 : ℤ)
  /-- libusb, or another part of the process, opens a descriptor. -/
  | otherOpened (fd : ℤ)
  /-- It closes one. -/
  | otherClosed (fd : ℤ)
  /-- `Pollfds` is laid out, and `poll()` is called; libusb may have a timeout of its own. -/
  | layOut (usbTimeout : Option ℕ)
  /-- `Pollfds` cannot be made large enough. -/
  | layOutFailed
  /-- `poll()` is interrupted. -/
  | pollInterrupted
  /-- `poll()` fails. -/
  | pollFailed
  /-- `poll()` returns, at a time. -/
  | pollReturned (revents : List Revents) (now : ℕ)
  /-- The callback of the output transfer. -/
  | intrOut (status : TransferStatus)
  /-- The callback of the input transfer, during which a signal may arrive. -/
  | intrIn (status : TransferStatus) (data : Bytes) (signal : Bool)
  /-- libusb wants a descriptor polled; the record may not be allocated. -/
  | pollfdAdded (p : Pollfd) (ok : Bool)
  /-- libusb wants a descriptor polled no more. -/
  | pollfdRemoved (fd : ℤ)
  /-- libusb has handled its events. -/
  | handled
  /-- `accept()` returns a connection, and the socket can be set nonblocking or not. -/
  | accept (fd : ℤ) (nonblocking : Bool)
  /-- `accept()` fails. -/
  | acceptFailed
  /-- The listener has no connection. -/
  | notReady
  /-- One turn of the service loop: what `send()` answers, at what time, and what `read()`
  answers. -/
  | service (results : List SendResult) (now : ℕ) (read : ReadResult)
  /-- The service loop is at its end. -/
  | served
  /-- One turn of `cm15a_encode_with_state`. -/
  | byte
  /-- `cm15a_encode_with_state` is at its end. -/
  | encoded
  /-- `libusb_cancel_transfer` answers. -/
  | cancel (result : ℤ)
  /-- `drain_cancelled_transfers` looks whether a transfer is active. -/
  | drainTurn
  /-- `libusb_handle_events` returns. -/
  | drained (result : ℤ)

namespace Daemon

variable (env : Env)

/-! ### Startup -/

/-- `initcm19abinary`. -/
def initcm19abinary : List Bytes :=
  [[0x80, 0x05, 0x1b, 0x14, 0x28, 0x20, 0x24, 0x29], [0x83, 0x03],
    [0x84, 0x37, 0x02, 0x60, 0x00, 0x00, 0x00, 0x00],
    [0x80, 0x01, 0x00, 0x14, 0x20, 0x24, 0x28, 0x29], [0x83, 0x02, 0x0f],
    [0x83, 0x37, 0x02, 0x60, 0x00, 0x00, 0x00, 0x00], [0x20, 0x34, 0xcb, 0x58, 0xa7],
    [0x80, 0x05, 0x01, 0x14, 0x20, 0x24, 0x28, 0x29]]

/-- `start_transfers`. -/
def doStartTransfers (d : Daemon) : Daemon :=
  let (io, r) := d.usb.io.startTransfers env
  { d with
    usb := { d.usb with io := io }
    pc := if r < 0 then .stopped else .transferring }

/-- `initcm1Xa`: the records for a CM15A are disabled. -/
def doInitcm1Xa (d : Daemon) : Daemon :=
  { d with
    usb := if env.cm19a then
        initcm19abinary.foldl (fun u buf => (u.x10Write env buf).1) d.usb
      else d.usb
    pc := .initialised }

/-- The descriptor that the next call to open one returns. -/
def lowestFree (descs : ℤ → Option Desc) (fd : ℤ) : Bool :=
  0 ≤ fd && (descs fd).isNone && (List.range fd.toNat).all fun (n : ℕ) => (descs n).isSome

theorem lowestFree_spec {descs : ℤ → Option Desc} {fd : ℤ} (h : lowestFree descs fd = true) :
    0 ≤ fd ∧ descs fd = none := by
  simp only [lowestFree, Bool.and_eq_true, decide_eq_true_eq] at h
  exact ⟨h.1.1, by simpa using h.1.2⟩

/-- A listener is created, or not. -/
def openListener (descs : ℤ → Option Desc) (fd : ℤ) (port : ℕ) : ℤ → Option Desc :=
  if fd < 0 then descs else Function.update descs fd (some (.listener port))

/-- `create_listener` may have created it. -/
def listenerOk (descs : ℤ → Option Desc) (enabled : Bool) (fd : ℤ) : Bool :=
  fd = -1 || (enabled && lowestFree descs fd)

/-- The listeners are created, and `init_client` is called. -/
def doCreateListeners (d : Daemon) (main xml or20 : ℤ) : Option Daemon :=
  let c := env.config
  let descs₁ := openListener d.descs main c.serverPort
  let descs₂ := openListener descs₁ xml c.xmlPort
  let descs₃ := openListener descs₂ or20 c.openremotePort
  if listenerOk d.descs true main && listenerOk descs₁ c.xmlEnabled xml &&
      listenerOk descs₂ c.openremoteEnabled or20 then
    let fds : Kind → ℤ := fun
      | .main => main
      | .xml => xml
      | .or20 => or20
    if main < 0 || (c.xmlEnabled && xml < 0) || (c.openremoteEnabled && or20 < 0) then
      some { d with listenfd := fds, descs := descs₃, pc := .stopped }
    else some { d with listenfd := fds, descs := descs₃, clients := .initial, pc := .top }
  else none

/-! ### Poll -/

/-- The record of a listener. -/
def listenerEntry (d : Daemon) (kind : Kind) : PollEntry :=
  ⟨⟨d.listenfd kind, 0 ≤ d.listenfd kind, false⟩, .none, .listener⟩

/-- The record of a client. -/
def clientEntry (d : Daemon) (s : SlotId) : PollEntry :=
  let v := d.clients.slot s
  ⟨⟨v.fd, true, 0 < v.output.len⟩, .none, .client (d.connAt v.fd)⟩

/-- `copy_clients`. -/
def copyClients (d : Daemon) : List PollEntry := d.clients.occupied.map d.clientEntry

/-- **`Pollfds`**: the listeners, the descriptors of libusb, and the clients. -/
def layout (d : Daemon) : Snapshot where
  entries := [.main, .xml, .or20].map d.listenerEntry ++
    d.usbPollfds.map (fun p => ⟨p, .none, .usb⟩) ++ d.copyClients
  npollfds := 3 + d.usbPollfds.length + d.clients.total
  nusb := d.usbPollfds.length

/-- `combined_poll_timeout_ms`. -/
def combinedPollTimeoutMs (x10Timeout : ℤ) (usbTimeout : Option ℕ) : ℤ :=
  match usbTimeout with
  | none => x10Timeout
  | some t => if x10Timeout < 0 then t else if t < x10Timeout then t else x10Timeout

/-- The daemon is to stop. -/
def stop (d : Daemon) (n : ℕ) : Daemon :=
  { d with usb := { d.usb with io := { d.usb.io with doExit := n } } }

/-- An event of the USB history. -/
def usbRecord (d : Daemon) (e : UsbEvent) : Daemon :=
  { d with usb := { d.usb with io := d.usb.io.record e } }

/-- The head of the loop. -/
def doLayOut (d : Daemon) (usbTimeout : Option ℕ) : Daemon :=
  if d.usb.io.doExit ≠ 0 then { d with pc := .cancelOut }
  else if d.usbPollfdError then { d.stop 2 with pc := .cancelOut }
  else
    { d.usbRecord .pollStarted with
      pc := .polling d.layout (combinedPollTimeoutMs d.usb.queue.pollTimeOut usbTimeout) }

/-- The head of the loop, when `Pollfds` cannot be made large enough. -/
def doLayOutFailed (d : Daemon) : Option Daemon :=
  if d.usb.io.doExit = 0 ∧ d.usbPollfdError = false then some { d.stop 2 with pc := .cancelOut }
  else none

/-- What `poll()` may report on a record. -/
def reventsOk (e : PollEntry) (r : Revents) : Bool :=
  if e.fd < 0 then r = .none else (!r.pollin || e.pollin) && (!r.pollout || e.pollout)

/-- A client whose socket has taken nothing for too long. -/
def stalled (now : ℕ) (v : Slot) : Bool :=
  v.fd ≠ -1 && 0 < v.output.len && v.output.stalledSince ≠ 0 &&
    v.output.stalledSince + clientStalledTimeoutSeconds ≤ now

/-- `disconnect_stalled_clients`. -/
def disconnectStalledClients (d : Daemon) (now : ℕ) : Daemon :=
  Clients.slotOrder.foldl (fun d s =>
    if stalled now (d.clients.slot s) then d.delClient (d.clients.slot s).fd else d) d

/-- `poll()` returns. -/
def doPollReturned (d : Daemon) (snap : Snapshot) (timeout : ℤ) (revents : List Revents)
    (now : ℕ) : Option Daemon :=
  let nready := (revents.filter Revents.any).length
  if revents.length = snap.entries.length ∧
      (List.zipWith reventsOk snap.entries revents).all id ∧ (nready = 0 → 0 ≤ timeout) then
    some { (d.usbRecord (.pollReturned nready)).disconnectStalledClients now with
      pc := .events (snap.report revents) nready }
  else none

/-- `poll()` fails; an interrupted call is made again. -/
def doPollFailed (d : Daemon) (interrupted : Bool) : Daemon :=
  if interrupted then { d.usbRecord (.pollReturned (-1)) with pc := .top }
  else { (d.usbRecord (.pollReturned (-1))).stop 2 with pc := .cancelOut }

/-! ### libusb -/

/-- The output callback is called. -/
def doIntrOut (d : Daemon) (status : TransferStatus) : Option Daemon :=
  if d.usb.io.outOwned ∧ (status = .cancelled → d.usb.io.outCancelRequested = true) then
    some { d with usb := d.usb.intrOutCb env status }
  else none

/-- What the input callback makes of a packet. -/
def decode (d : Daemon) (data : Bytes) : Daemon :=
  let buf := memcpy d.intrInBuf data
  let d := { d with intrInBuf := buf }
  d.runX10 env (cm15aDecode env
    (fun fd line => do let _ ← Mochad.processcommandline (d.ctx env) fd line) (-1)
    (Memory.ofBytes buf env.stack) data.length)

/-- The input callback is called. -/
def doIntrIn (d : Daemon) (status : TransferStatus) (data : Bytes) (signal : Bool) :
    Option Daemon :=
  if d.usb.io.inOwned ∧ data.length ≤ 8 ∧
      (status = .cancelled → d.usb.io.inCancelRequested = true) then
    let d := { d with usb := d.usb.intrInBegin env status data }
    if status = .completed then
      let d := d.decode env data
      some { d with usb := d.usb.intrInEnd env signal }
    else some d
  else none

/-- `usb_pollfd_added`. -/
def doPollfdAdded (d : Daemon) (p : Pollfd) (ok : Bool) : Option Daemon :=
  if d.descs p.fd = some .other then
    if ok then some { d with usbPollfds := d.usbPollfds ++ [p] }
    else some { d with usbPollfdError := true }
  else none

/-- `usb_pollfd_removed`. -/
def doPollfdRemoved (d : Daemon) (fd : ℤ) : Daemon :=
  { d with usbPollfds := d.usbPollfds.eraseP fun p => p.fd = fd }

/-- An iteration ends. -/
def iterate (d : Daemon) (snap : Snapshot) (loop : Option (ℕ × List Visit)) : Daemon :=
  { d.record (.iterated snap loop) with pc := .top }

/-- libusb has handled its events: if `poll()` timed out, so has the acknowledgement. -/
def doHandled (d : Daemon) (snap : Snapshot) (nready : ℕ) : Daemon :=
  if nready = 0 then { d with usb := d.usb.ackTimeout env }.iterate snap none
  else { d with pc := .listen snap nready .main }

/-! ### Listeners -/

/-- The listener of a kind has a connection. -/
def listenerReady (d : Daemon) (snap : Snapshot) (kind : Kind) : Bool :=
  (kind = .main || 0 ≤ d.listenfd kind) &&
    (snap.entries[kind.index]?.elim false fun e => e.revents.pollin)

/-- After a listener comes the next one, and then the service loop. -/
def afterListener (d : Daemon) (snap : Snapshot) (nready : ℤ) : Kind → Daemon
  | .main => { d with pc := .listen snap nready .xml }
  | .xml => { d with pc := .listen snap nready .or20 }
  | .or20 =>
      { d with pc := .serve ⟨snap, nready, 3 + d.usbPollfds.length, d.usbPollfds.length, []⟩ }

/-- A listener that was ready is counted. -/
def afterAccept (d : Daemon) (snap : Snapshot) (nready : ℤ) (kind : Kind) : Daemon :=
  if nready - 1 ≤ 0 then d.iterate snap none else d.afterListener snap (nready - 1) kind

/-- A connection is given a slot, or closed. -/
def addAccepted (d : Daemon) (kind : Kind) (fd : ℤ) (nonblocking : Bool) : Daemon :=
  match d.clients.add kind fd nonblocking with
  | some clients =>
      { d with
        clients := clients
        descs := Function.update d.descs fd (some (.conn d.nextConn (kind.port env.config)))
        nextConn := d.nextConn + 1
        log := .accepted d.nextConn fd kind :: d.log }
  | none =>
      { d with nextConn := d.nextConn + 1, log := .turnedAway d.nextConn fd :: d.log }

/-- **A connection is given the first free slot of its table, or closed.** -/
theorem addAccepted_cases (d : Daemon) (kind : Kind) (fd : ℤ) (nonblocking : Bool) :
    (∃ s, d.clients.firstFree kind = some s ∧ d.addAccepted env kind fd nonblocking =
        { d with
          clients := d.clients.take s fd
          descs := Function.update d.descs fd (some (.conn d.nextConn (kind.port env.config)))
          nextConn := d.nextConn + 1
          log := .accepted d.nextConn fd kind :: d.log }) ∨
      d.addAccepted env kind fd nonblocking =
        { d with nextConn := d.nextConn + 1, log := .turnedAway d.nextConn fd :: d.log } := by
  simp only [addAccepted, Clients.add]
  cases d.clients.firstFree kind with
  | none => exact Or.inr rfl
  | some s =>
    cases nonblocking with
    | false => exact Or.inr rfl
    | true => exact Or.inl ⟨s, rfl, rfl⟩

@[simp] theorem addAccepted_pc (d : Daemon) (kind : Kind) (fd : ℤ) (nonblocking : Bool) :
    (d.addAccepted env kind fd nonblocking).pc = d.pc := by
  rcases addAccepted_cases env d kind fd nonblocking with ⟨s, _, heq⟩ | heq
  · rw [heq]
  · rw [heq]

/-- `accept()` returns a connection. -/
def doAccept (d : Daemon) (snap : Snapshot) (nready : ℤ) (kind : Kind) (fd : ℤ)
    (nonblocking : Bool) : Option Daemon :=
  if d.listenerReady snap kind && lowestFree d.descs fd then
    some ((d.addAccepted env kind fd nonblocking).afterAccept snap nready kind)
  else none

/-- `accept()` fails. -/
def doAcceptFailed (d : Daemon) (snap : Snapshot) (nready : ℤ) (kind : Kind) : Option Daemon :=
  if d.listenerReady snap kind then some (d.afterAccept snap nready kind) else none

/-- The listener is passed over. -/
def doNotReady (d : Daemon) (snap : Snapshot) (nready : ℤ) (kind : Kind) : Option Daemon :=
  if d.listenerReady snap kind then none else some (d.afterListener snap nready kind)

/-! ### The service loop -/

/-- A turn that read a socket is counted, and may be the last. -/
def counted (d : Daemon) (l : ServiceLoop) (v : Visit) : Daemon :=
  let l := { l.next v with nready := l.nready - 1 }
  if l.nready ≤ 0 then d.iterate l.snap (some (l.start, l.visits)) else { d with pc := .serve l }

/-- `flush_client_output`, of a slot. -/
def flushClientOutput (d : Daemon) (s : SlotId) (results : List SendResult) (now : ℕ) : Daemon :=
  let v := d.clients.slot s
  let r := v.output.flush now results clientWriteBudgetPerLoop
  let d := d.setOutput s r.1
  let d := if v.output.len = 0 then d
    else d.record (.sent (d.connAt v.fd) v.fd r.2.1 (r.2.2 = .kept))
  if r.2.2 = .failed then d.delClient v.fd else d

/-- The part of a turn that writes. -/
def doPollout (d : Daemon) (e : PollEntry) (results : List SendResult) (now : ℕ) : Daemon :=
  match d.clients.find e.fd with
  | none => d
  | some s =>
      (d.record (.serviced e.fd e.owner (d.connAt e.fd))).flushClientOutput s results now

/-- A closed descriptor cannot be read, and no more is read than there is room for. -/
def readOk (d : Daemon) (fd : ℤ) : ReadResult → Bool
  | .error => true
  | .eof => (d.descs fd).isSome
  | .data bytes => (d.descs fd).isSome && bytes ≠ [] && bytes.length ≤ 1024

/-- The part of a turn that reads. -/
def doPollin (d : Daemon) (l : ServiceLoop) (e : PollEntry) (v : Visit) (read : ReadResult) :
    Option Daemon :=
  let conn := d.connAt e.fd
  if d.readOk e.fd read then
    let d := d.record (.serviced e.fd e.owner conn)
    match read with
    | .error => some ((d.delClient e.fd).counted l v)
    | .eof => some ((d.delClient e.fd).counted l v)
    | .data bytes =>
        match d.clients.find e.fd with
        | none => some (d.counted l v)
        | some s =>
            let r : Reading :=
              ⟨e.fd, s, conn, (d.clients.slot s).state.remlen, bytes, v⟩
            some { d.record (.received conn e.fd bytes) with pc := .encode l r }
  else none

/-- **One turn of the service loop.** -/
def doService (d : Daemon) (l : ServiceLoop) (results : List SendResult) (now : ℕ)
    (read : ReadResult) : Option Daemon :=
  match (if l.i < l.snap.npollfds then l.snap.entries[l.i]? else none) with
  | none => none
  | some e =>
      if e.fd < 0 then some { d with pc := .serve (l.next ⟨l.i, false, false, false⟩) }
      else
        let here := (d.clients.find e.fd).isSome
        let flushed := e.revents.pollout && here
        let d := if e.revents.pollout then d.doPollout e results now else d
        if e.revents.pollout && (d.clients.find e.fd).isNone then
          some { d with pc := .serve (l.next ⟨l.i, true, flushed, false⟩) }
        else if e.revents.pollin || e.revents.pollerr then
          d.doPollin l e ⟨l.i, false, flushed, true⟩ read
        else some { d with pc := .serve (l.next ⟨l.i, false, flushed, false⟩) }

/-- The loop is at its end. -/
def doServed (d : Daemon) (l : ServiceLoop) : Option Daemon :=
  if l.i < l.snap.npollfds then none else some (d.iterate l.snap (some (l.start, l.visits)))

/-! ### One read -/

/-- The splitter's state is stored. -/
def setState (d : Daemon) (s : SlotId) (state : EncodeState) : Daemon :=
  { d with clients := d.clients.set s { d.clients.slot s with state := state } }

theorem setState_self (d : Daemon) (s : SlotId) (state : EncodeState) :
    (d.setState s state).clients.slot s = { d.clients.slot s with state := state } :=
  Clients.set_slot_self ..

theorem setState_of_ne (d : Daemon) {s t : SlotId} (state : EncodeState) (h : t ≠ s) :
    (d.setState s state).clients.slot t = d.clients.slot t :=
  Clients.set_slot_of_ne d.clients _ h

@[simp] theorem setState_fd (d : Daemon) (s t : SlotId) (state : EncodeState) :
    ((d.setState s state).clients.slot t).fd = (d.clients.slot t).fd := by
  rcases eq_or_ne t s with rfl | hne
  · rw [setState_self]
  · rw [setState_of_ne d state hne]

@[simp] theorem setState_output (d : Daemon) (s t : SlotId) (state : EncodeState) :
    ((d.setState s state).clients.slot t).output = (d.clients.slot t).output := by
  rcases eq_or_ne t s with rfl | hne
  · rw [setState_self]
  · rw [setState_of_ne d state hne]

/-- A line is executed, and an OpenRemote client is closed after it. -/
def runLine (d : Daemon) (r : Reading) (line : Bytes) : Daemon :=
  let d := (d.record (.command r.conn r.fd line)).processcommandline env r.fd line
  if d.or20client env r.fd then d.delClient r.fd else d

/-- **One turn of `cm15a_encode_with_state`.** The state that it works on is the one
that it was called with, whatever has become of the slot. -/
def doByte (d : Daemon) (l : ServiceLoop) (r : Reading) : Option Daemon :=
  match r.rest with
  | [] => none
  | b :: rest =>
      let (state, remptr, line) := encodeByte (d.clients.slot r.slot).state r.remptr b
      let r' := { r with remptr := remptr, rest := rest }
      let d := { (d.setState r.slot state).record (.consumed r.conn b) with pc := .encode l r' }
      some (match line with
        | none => d
        | some line => d.runLine env r' line)

/-- The end of a read: the index becomes the length, and the turn is counted. -/
def doEncoded (d : Daemon) (l : ServiceLoop) (r : Reading) : Option Daemon :=
  match r.rest with
  | [] =>
      let state := (d.clients.slot r.slot).state
      some ((d.setState r.slot { state with remlen := r.remptr }).counted l r.visit)
  | _ :: _ => none

/-! ### Shutdown -/

/-- `LIBUSB_ERROR_NOT_FOUND`. -/
def libusbErrorNotFound : ℤ := -5

/-- `cancel_transfer_if_active`, for the output transfer. -/
def doCancelOut (d : Daemon) (result : ℤ) : Option Daemon :=
  let io := d.usb.io
  let next (io : Transfers) : Daemon := { d with usb := { d.usb with io := io }, pc := .cancelIn }
  if !io.intrOutTransfer || !(io.intrOutSubmitted || io.intrOutCanceling) then some (next io)
  else if result = libusbErrorNotFound then
    some (next { io with intrOutSubmitted := false, intrOutCanceling := false })
  else if result < 0 then some (next io)
  else if io.outOwned then
    some (next { io with intrOutCanceling := true, outCancelRequested := true })
  else none

/-- `cancel_transfer_if_active`, for the input transfer. -/
def doCancelIn (d : Daemon) (result : ℤ) : Option Daemon :=
  let io := d.usb.io
  let next (io : Transfers) : Daemon := { d with usb := { d.usb with io := io }, pc := .drain 100 }
  if !io.intrInTransfer || !(io.intrInSubmitted || io.intrInCanceling) then some (next io)
  else if result = libusbErrorNotFound then
    some (next { io with intrInSubmitted := false, intrInCanceling := false })
  else if result < 0 then some (next io)
  else if io.inOwned then
    some (next { io with intrInCanceling := true, inCancelRequested := true })
  else none

/-- The condition of the loop of `drain_cancelled_transfers`. -/
def doDrainTurn (d : Daemon) (maxEvents : ℕ) : Daemon :=
  let io := d.usb.io
  if maxEvents = 0 ∨ !(io.intrInSubmitted || io.intrInCanceling || io.intrOutSubmitted ||
      io.intrOutCanceling) then { d with pc := .stopped }
  else { d with pc := .draining (maxEvents - 1) }

/-- `LIBUSB_ERROR_INTERRUPTED`. -/
def libusbErrorInterrupted : ℤ := -10

/-- `libusb_handle_events` returns. -/
def doDrained (d : Daemon) (maxEvents : ℕ) (result : ℤ) : Daemon :=
  if result < 0 ∧ result ≠ libusbErrorInterrupted then { d with pc := .stopped }
  else { d with pc := .drain maxEvents }

/-! ### The machine -/

/-- The process has installed its signal handlers and has not ended. -/
def handlesSignals (d : Daemon) : Bool :=
  match d.pc with
  | .allocated => false
  | .stopped => false
  | _ => true

/-- libusb is called, so that it may call back. -/
def inLibusb (d : Daemon) : Bool :=
  match d.pc with
  | .events _ _ => true
  | .draining _ => true
  | _ => false

/-- A descriptor is opened by another part of the process. -/
def doOtherOpened (d : Daemon) (fd : ℤ) : Option Daemon :=
  if lowestFree d.descs fd then some { d with descs := Function.update d.descs fd (some .other) }
  else none

/-- A descriptor is closed by another part of the process. -/
def doOtherClosed (d : Daemon) (fd : ℤ) : Option Daemon :=
  if d.descs fd = some .other ∧ ∀ p ∈ d.usbPollfds, p.fd ≠ fd then
    some { d with descs := Function.update d.descs fd none }
  else none

/-- **One step of the daemon.** -/
def step (d : Daemon) : Label → Option Daemon
  | .signal => if d.handlesSignals then some (d.stop 1) else none
  | .otherOpened fd => d.doOtherOpened fd
  | .otherClosed fd => d.doOtherClosed fd
  | .startTransfers => match d.pc with
    | .allocated => some (d.doStartTransfers env)
    | _ => none
  | .initcm1Xa => match d.pc with
    | .transferring => some (d.doInitcm1Xa env)
    | _ => none
  | .createListeners main xml or20 => match d.pc with
    | .initialised => d.doCreateListeners env main xml or20
    | _ => none
  | .layOut usbTimeout => match d.pc with
    | .top => some (d.doLayOut usbTimeout)
    | _ => none
  | .layOutFailed => match d.pc with
    | .top => d.doLayOutFailed
    | _ => none
  | .pollInterrupted => match d.pc with
    | .polling _ _ => some (d.doPollFailed true)
    | _ => none
  | .pollFailed => match d.pc with
    | .polling _ _ => some (d.doPollFailed false)
    | _ => none
  | .pollReturned revents now => match d.pc with
    | .polling snap timeout => d.doPollReturned snap timeout revents now
    | _ => none
  | .intrOut status => if d.inLibusb then d.doIntrOut env status else none
  | .intrIn status data signal => if d.inLibusb then d.doIntrIn env status data signal else none
  | .pollfdAdded p ok => if d.inLibusb then d.doPollfdAdded p ok else none
  | .pollfdRemoved fd => if d.inLibusb then some (d.doPollfdRemoved fd) else none
  | .handled => match d.pc with
    | .events snap nready => some (d.doHandled env snap nready)
    | _ => none
  | .accept fd nonblocking => match d.pc with
    | .listen snap nready kind => d.doAccept env snap nready kind fd nonblocking
    | _ => none
  | .acceptFailed => match d.pc with
    | .listen snap nready kind => d.doAcceptFailed snap nready kind
    | _ => none
  | .notReady => match d.pc with
    | .listen snap nready kind => d.doNotReady snap nready kind
    | _ => none
  | .service results now read => match d.pc with
    | .serve l => d.doService l results now read
    | _ => none
  | .served => match d.pc with
    | .serve l => d.doServed l
    | _ => none
  | .byte => match d.pc with
    | .encode l r => d.doByte env l r
    | _ => none
  | .encoded => match d.pc with
    | .encode l r => d.doEncoded l r
    | _ => none
  | .cancel result => match d.pc with
    | .cancelOut => d.doCancelOut result
    | .cancelIn => d.doCancelIn result
    | _ => none
  | .drainTurn => match d.pc with
    | .drain maxEvents => some (d.doDrainTurn maxEvents)
    | _ => none
  | .drained result => match d.pc with
    | .draining maxEvents => some (d.doDrained maxEvents result)
    | _ => none

/-- **A reachable state.** -/
def Reachable (d : Daemon) : Prop :=
  Transition.Run (step env) Transition.Free (initial env) d

/-! ### How a run begins -/

/-- Startup, and a first `poll()` in which the listener of a kind is ready; libusb is
about to be called. -/
def firstPoll (kind : Kind) : List Label :=
  [.startTransfers, .initcm1Xa, .createListeners 3 4 5, .layOut none,
    .pollReturned ([.main, .xml, .or20].map fun k =>
      if k = kind then ⟨true, false, false, false⟩ else .none) 0]

/-- After it a client of that kind is accepted. -/
def connect (kind : Kind) : List Label :=
  firstPoll kind ++ .handled :: List.replicate kind.index .notReady ++ [.accept 6 true]

/-- `poll()` reports on one client, and the service loop begins. -/
def pollClient (r : Revents) : List Label :=
  [.layOut none, .pollReturned [.none, .none, .none, r] 0, .handled, .notReady, .notReady, .notReady]

/-- It reads these bytes. -/
def readClient (bytes : Bytes) : List Label :=
  pollClient ⟨true, false, false, false⟩ ++ [.service [] 0 (.data bytes)]

end Daemon

end Mochad
