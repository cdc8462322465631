import Mochad.Core.Clients
import Mochad.Usb.Transfers
import Mochad.X10.Encode

/-!
# The daemon's state

Everything the running daemon keeps – the X10 side, the USB side, the client tables,
the descriptors that libusb wants polled – together with where it is in its main loop,
and with the operating system's view: which descriptors are open, and what they are.

A descriptor number says nothing about which connection it is, since the number of a
closed connection is given to the next one. So every connection that `accept()`
returns has an identity of its own here, and the log, which nothing in the daemon
reads, names connections by it. The log lists the newest event first.

The second half of the module is how the X10 side's calls are carried out: replies and
events are queued, a client whose queue overflows is closed, and packets go to the
controller.
-/

namespace Mochad

/-- What an open descriptor is. -/
inductive Desc
  /-- A connection, with its identity and its local port. -/
  | conn (id : ℕ) (port : ℕ)
  /-- A listening socket, with its port. -/
  | listener (port : ℕ)
  /-- Anything else. -/
  | other
  deriving DecidableEq

/-- A descriptor that is polled, and for what. -/
structure Pollfd where
  fd : ℤ
  pollin : Bool
  pollout : Bool
  deriving DecidableEq

/-- The `revents` of one descriptor. -/
structure Revents where
  pollin : Bool
  pollout : Bool
  pollerr : Bool
  /-- Another bit, such as `POLLHUP`. -/
  other : Bool
  deriving DecidableEq

/-- Nothing happened. -/
def Revents.none : Revents := ⟨false, false, false, false⟩

/-- Some bit is set. -/
def Revents.any (r : Revents) : Bool := r.pollin || r.pollout || r.pollerr || r.other

/-- What a record of `Pollfds` was laid out for. -/
inductive Owner
  | listener
  | usb
  | client (conn : Option ℕ)
  deriving DecidableEq

/-- A record of `Pollfds`. -/
structure PollEntry extends Pollfd where
  revents : Revents
  owner : Owner
  deriving DecidableEq

/-- **`Pollfds`**, as it was laid out for one `poll()`. -/
structure Snapshot where
  entries : List PollEntry
  npollfds : ℕ
  /-- `NUsbPollfds` at the time. -/
  nusb : ℕ
  deriving DecidableEq

/-- The snapshot with what `poll()` reports. -/
def Snapshot.report (snap : Snapshot) (revents : List Revents) : Snapshot :=
  { snap with entries := snap.entries.zipWith (fun e r => { e with revents := r }) revents }

/-- What the body of the service loop did for one record. -/
structure Visit where
  index : ℕ
  /-- The client was gone. -/
  gone : Bool
  /-- The queue was flushed. -/
  flushed : Bool
  /-- The socket was read. -/
  read : Bool
  deriving DecidableEq

/-- The local variables of the service loop. -/
structure ServiceLoop where
  snap : Snapshot
  nready : ℤ
  i : ℕ
  /-- `NUsbPollfds` when the loop began. -/
  start : ℕ
  /-- The records that the loop has been at. -/
  visits : List Visit

/-- The next turn of the loop, and what this one did. -/
def ServiceLoop.next (l : ServiceLoop) (v : Visit) : ServiceLoop :=
  { l with i := l.i + 1, visits := v :: l.visits }

/-- The local variables of `cm15a_encode_with_state`, and whose bytes it is at. -/
structure Reading where
  fd : ℤ
  slot : SlotId
  conn : Option ℕ
  remptr : ℕ
  rest : Bytes
  /-- What the service loop has done for the record. -/
  visit : Visit

/-- Where the daemon is. -/
inductive Pc
  /-- Before `start_transfers`. -/
  | allocated
  /-- Before `initcm1Xa`. -/
  | transferring
  /-- Before the listeners are created. -/
  | initialised
  /-- At the head of the main loop. -/
  | top
  /-- In `poll()`. -/
  | polling (snap : Snapshot) (timeout : ℤ)
  /-- In `libusb_handle_events_timeout()`. -/
  | events (snap : Snapshot) (nready : ℕ)
  /-- At the listener of a kind. -/
  | listen (snap : Snapshot) (nready : ℤ) (kind : Kind)
  /-- In the service loop. -/
  | serve (loop : ServiceLoop)
  /-- In `cm15a_encode_with_state`. -/
  | encode (loop : ServiceLoop) (reading : Reading)
  /-- Cancelling the output transfer. -/
  | cancelOut
  /-- Cancelling the input transfer. -/
  | cancelIn
  /-- In `drain_cancelled_transfers`, with so many turns left. -/
  | drain (maxEvents : ℕ)
  /-- In `libusb_handle_events()`, called from there. -/
  | draining (maxEvents : ℕ)
  /-- After the loop, or after a startup that failed. -/
  | stopped

/-- **What happens to clients.** -/
inductive Ev
  /-- A connection was accepted and given a slot. -/
  | accepted (conn : ℕ) (fd : ℤ) (kind : Kind)
  /-- A connection was accepted and closed at once. -/
  | turnedAway (conn : ℕ) (fd : ℤ)
  /-- `read()` returned bytes of a client. -/
  | received (conn : Option ℕ) (fd : ℤ) (bytes : Bytes)
  /-- The splitter took a byte. -/
  | consumed (conn : Option ℕ) (byte : UInt8)
  /-- A line was passed to `processcommandline`. -/
  | command (conn : Option ℕ) (fd : ℤ) (line : Bytes)
  /-- A text was addressed to a descriptor. -/
  | addressed (conn : Option ℕ) (fd : ℤ) (bytes : Bytes)
  /-- A text joined the queue of a client. -/
  | queued (conn : Option ℕ) (fd : ℤ) (bytes : Bytes)
  /-- `send()` was called: the bytes that the socket took, and whether without an error. -/
  | sent (conn : Option ℕ) (fd : ℤ) (bytes : Bytes) (ok : Bool)
  /-- A client was closed, with these bytes still in its queue, and possibly while one of
  its own reads was being processed. -/
  | closed (conn : Option ℕ) (fd : ℤ) (lost : Bytes) (inRead : Bool)
  /-- The service loop flushed or read a descriptor: whose it was when the record was laid
  out, and whose it is. -/
  | serviced (fd : ℤ) (owner : Owner) (conn : Option ℕ)
  /-- An iteration of the main loop ended, with what the service loop did if it was
  reached. -/
  | iterated (snap : Snapshot) (loop : Option (ℕ × List Visit))
  deriving DecidableEq

/-- **The daemon.** -/
structure Daemon where
  x10 : X10State
  usb : Usb
  clients : Clients
  /-- `UsbPollfds`, whose length is `NUsbPollfds`. -/
  usbPollfds : List Pollfd
  /-- `UsbPollfdError` is negative. -/
  usbPollfdError : Bool
  intrInBuf : Bytes
  /-- `listenfd`, `flashxmlfd` and `or20fd`. -/
  listenfd : Kind → ℤ
  pc : Pc
  /-- The open descriptors. -/
  descs : ℤ → Option Desc
  /-- The identity of the next connection. -/
  nextConn : ℕ
  /-- How many timestamps and how many direct replies there were. -/
  stampReads : ℕ
  directSends : ℕ
  log : List Ev

/-- The port of a kind's listener. -/
def Kind.port (config : MochadConfig) : Kind → ℕ
  | .main => config.serverPort
  | .xml => config.xmlPort
  | .or20 => config.openremotePort

/-- The place of a kind's listener in `Pollfds`. -/
def Kind.index : Kind → ℕ
  | .main => 0
  | .xml => 1
  | .or20 => 2

namespace Daemon

/-- The X10 side at startup. -/
def x10Initial : X10State :=
  huaSecInit
    { houseUnitState := fun _ _ => 0
      houseUnitSelected := fun _ _ => 0
      houseUnitDim := fun _ _ => 0
      x10protostate := fun _ => 0
      x10sensors := []
      rfToPl16 := 0xFFFF
      rfToRf16 := 0
      dups := dupsInit
      timemsReads := 0
      timeReads := 0 }

/-- **After `alloc_transfers`**, with the descriptors that the process has open; those of
libusb are among them. -/
def initial (env : Env) : Daemon where
  x10 := x10Initial
  usb := .initial
  clients := .initial
  usbPollfds := env.usbPollfds.map fun p => ⟨p.1, p.2.1, p.2.2⟩
  usbPollfdError := false
  intrInBuf := List.replicate 8 0
  listenfd := fun _ => -1
  pc := .allocated
  descs := fun fd =>
    if 0 ≤ fd ∧ (env.inherited fd.toNat ∨ fd ∈ env.usbPollfds.map (·.1)) then some .other else none
  nextConn := 0
  stampReads := 0
  directSends := 0
  log := []

/-- The connection that a descriptor is. -/
def connAt (d : Daemon) (fd : ℤ) : Option ℕ :=
  match d.descs fd with
  | some (.conn id _) => some id
  | _ => none

/-- `or20client`: the local port is compared with the configured one. -/
def or20client (env : Env) (d : Daemon) (fd : ℤ) : Bool :=
  match d.descs fd with
  | some (.conn _ port) => port = env.config.openremotePort
  | some (.listener port) => port = env.config.openremotePort
  | _ => false

/-- The connection whose read is being processed. -/
def reader (d : Daemon) : Option ℕ :=
  match d.pc with
  | .encode _ reading => reading.conn
  | _ => none

/-- One more event. -/
def record (d : Daemon) (e : Ev) : Daemon := { d with log := e :: d.log }

/-! ### Closing and queueing -/

/-- The client of a slot is closed. -/
def closeSlot (d : Daemon) (s : SlotId) : Daemon :=
  let fd := (d.clients.slot s).fd
  { d with
    clients := d.clients.free s
    descs := Function.update d.descs fd none
    log := .closed (d.connAt fd) fd (d.clients.slot s).output.contents
      ((d.connAt fd).isSome && d.connAt fd == d.reader) :: d.log }

theorem closeSlot_self (d : Daemon) (s : SlotId) :
    (d.closeSlot s).clients.slot s = Clients.Slot.freed (d.clients.slot s) :=
  Clients.set_slot_self ..

@[simp] theorem closeSlot_fd (d : Daemon) (s : SlotId) : ((d.closeSlot s).clients.slot s).fd = -1 :=
  congrArg Slot.fd (d.closeSlot_self s)

theorem closeSlot_of_ne (d : Daemon) {s t : SlotId} (h : t ≠ s) :
    (d.closeSlot s).clients.slot t = d.clients.slot t := Clients.set_slot_of_ne d.clients _ h

/-- `del_client`. -/
def delClient (d : Daemon) (fd : ℤ) : Daemon :=
  match d.clients.find fd with
  | none => d
  | some s => d.closeSlot s

/-- `send_all`. A descriptor that is no connection takes nothing. -/
def sendAll (env : Env) (d : Daemon) (fd : ℤ) (bytes : Bytes) : Daemon × ℤ :=
  match d.connAt fd with
  | none => (d.record (.sent none fd [] false), -1)
  | some c =>
      let r := sendAllImpl (env.sends d.directSends) bytes
      ({ d with
          directSends := d.directSends + 1
          log := .sent (some c) fd r.1 r.2 :: d.log }, if r.2 then bytes.length else -1)

/-- The queue of a slot is replaced. -/
def setOutput (d : Daemon) (s : SlotId) (output : ClientOutput) : Daemon :=
  { d with clients := d.clients.set s { d.clients.slot s with output := output } }

theorem setOutput_self (d : Daemon) (s : SlotId) (output : ClientOutput) :
    (d.setOutput s output).clients.slot s = { d.clients.slot s with output := output } :=
  Clients.set_slot_self ..

theorem setOutput_of_ne (d : Daemon) {s t : SlotId} (output : ClientOutput) (h : t ≠ s) :
    (d.setOutput s output).clients.slot t = d.clients.slot t :=
  Clients.set_slot_of_ne d.clients _ h

@[simp] theorem setOutput_fd (d : Daemon) (s t : SlotId) (output : ClientOutput) :
    ((d.setOutput s output).clients.slot t).fd = (d.clients.slot t).fd := by
  rcases eq_or_ne t s with rfl | hne
  · rw [setOutput_self]
  · rw [setOutput_of_ne d output hne]

/-- `queue_client_bytes`, for a text that is not empty. -/
def enqueueBytes (env : Env) (d : Daemon) (fd : ℤ) (bytes : Bytes) : Daemon × ℤ :=
  match d.clients.find fd with
  | none => d.sendAll env fd bytes
  | some s =>
      match (d.clients.slot s).output.enqueue bytes with
      | some output => ((d.setOutput s output).record (.queued (d.connAt fd) fd bytes), bytes.length)
      | none => (d.delClient fd, -1)

/-- `queue_client_bytes`. -/
def queueClientBytes (env : Env) (d : Daemon) (fd : ℤ) (bytes : Bytes) : Daemon × ℤ :=
  if bytes = [] then (d, 0)
  else (d.record (.addressed (d.connAt fd) fd bytes)).enqueueBytes env fd bytes

/-! ### Printing -/

/-- `statusprintf`. -/
def statusprintf (env : Env) (d : Daemon) (fd : ℤ) (text : Bytes) : Daemon × ℤ :=
  d.queueClientBytes env fd (formatBounded 1024 text)

/-- A line with its timestamp, in a buffer of 1024 bytes. -/
def stampedLine (env : Env) (reads : ℕ) (body : Bytes) : Bytes :=
  let stamp := strftime (env.localtime (env.stampTime reads))
  stamp ++ formatBounded (1024 - stamp.length) body

/-- A final newline becomes a NUL. -/
def nulTerminated (line : Bytes) : Bytes :=
  if line.getLast? = some 0x0a then line.dropLast ++ [0] else line

theorem stampedLine_ne_nil (env : Env) (reads : ℕ) (body : Bytes) :
    stampedLine env reads body ≠ [] :=
  List.append_ne_nil_of_left_ne_nil (strftime_ne_nil _) _

theorem nulTerminated_ne_nil {line : Bytes} (h : line ≠ []) : nulTerminated line ≠ [] := by
  rw [nulTerminated]
  split
  · simp
  · exact h

/-- A line for every client of a table. -/
def toAll (env : Env) (kind : Kind) (line : Bytes) (d : Daemon) : Daemon :=
  (List.finRange maxCliSockets).foldl (fun d i =>
    let fd := (d.clients.slot (kind, i)).fd
    if 0 < fd then (d.queueClientBytes env fd line).1 else d) d

/-- `sockprintf`. -/
def sockprintf (env : Env) (d : Daemon) (fd : ℤ) (body : Bytes) : Daemon :=
  let line := stampedLine env d.stampReads body
  let d := { d with stampReads := d.stampReads + 1 }
  if fd = -1 then toAll env .xml (nulTerminated line) (toAll env .main line d)
  else (d.queueClientBytes env fd (if d.clients.xmlclient fd then nulTerminated line else line)).1

/-! ### The calls of the X10 side -/

/-- One call. -/
def perform (env : Env) (d : Daemon) : Effect → Daemon
  | .sockprintf fd body => d.sockprintf env fd body
  | .statusprintf fd text => (d.statusprintf env fd text).1
  | .sendAll fd bytes =>
      ((d.record (.addressed (d.connAt fd) fd bytes)).sendAll env fd bytes).1
  | .x10Write buf => { d with usb := (d.usb.x10Write env buf).1 }

/-- The calls of one X10 function, in order. -/
def performAll (env : Env) (d : Daemon) (es : List Effect) : Daemon := es.foldl (perform env) d

/-- `controller_model`. -/
def controllerModel (env : Env) (d : Daemon) : Bytes :=
  if !d.usb.io.devh then ascii "none" else if env.cm19a then ascii "CM19A" else ascii "CM15A"

/-- `fill_diag_runtime`. The endpoints were found before the transfers were allocated. -/
def diagRuntime (env : Env) (d : Daemon) : DiagRuntime where
  usbConnected := d.usb.io.devh
  controller := d.controllerModel env
  endpointsReady := true
  transfersReady := d.usb.io.intrInTransfer && d.usb.io.intrOutTransfer &&
    d.usb.io.intrInSubmitted && !d.usb.io.intrInCanceling && !d.usb.io.intrOutCanceling
  clientsMain := d.clients.count .main
  clientsXml := d.clients.count .xml
  clientsOpenremote := d.clients.count .or20
  usbOutCompleted := d.usb.io.usbOutCompletedCount
  usbAckReceived := d.usb.io.usbAckReceivedCount
  usbAckTimeout := d.usb.io.usbAckTimeoutCount
  usbUnexpectedOneByte := d.usb.io.usbUnexpectedOneByteCount
  maxClients := maxCliSockets
  nextClientId := d.clients.nextClientId.toNat

/-- What the interpreter sees of the daemon. -/
def ctx (env : Env) (d : Daemon) : Ctx where
  env := env
  or20client := d.or20client env
  queueResult := fun fd text => (d.statusprintf env fd text).2
  runtime := d.diagRuntime env

/-- **An X10 function is run**, and its calls are carried out. -/
def runX10 {α : Type} (env : Env) (d : Daemon) (m : X10M α) : Daemon :=
  performAll env { d with x10 := (m d.x10).state } (m d.x10).effects

/-- `processcommandline`, on the daemon. -/
def processcommandline (env : Env) (d : Daemon) (fd : ℤ) (line : Bytes) : Daemon :=
  d.runX10 env (Mochad.processcommandline (d.ctx env) fd line)

end Daemon

end Mochad
