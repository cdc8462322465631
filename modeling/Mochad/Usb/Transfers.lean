import Mochad.Env
import Mochad.Usb.X10Write

/-!
# The two USB transfers

The daemon keeps one interrupt transfer submitted for input, and submits another one
for each packet that it sends. Both belong to libusb while they are submitted, and
each submission is answered by one callback. After a packet was sent, a CM15A answers
with a byte `0x55` when the power line has taken it; only then, or when it has been
waited for long enough, may the next packet go.

`Transfers` is the state of the transfers: the daemon's own flags, and what they are
meant to reflect – whether libusb holds a transfer, and whether it was asked to cancel
it. The history lists what has happened, the newest first; nothing reads it.

`Usb` adds the queue of packets. The operations on it are the callbacks, the timeout
of the main loop, and `x10_write`.
-/

namespace Mochad

/-- `enum libusb_transfer_status`. -/
inductive TransferStatus
  | completed
  | error
  | timedOut
  | cancelled
  | stall
  | noDevice
  | overflow
  deriving DecidableEq, Repr

/-- What happens to the transfers, and the polls in between. -/
inductive UsbEvent
  /-- A packet was submitted. -/
  | outSubmit (buf : Bytes)
  /-- libusb refused a packet. -/
  | outSubmitFailed (buf : Bytes)
  /-- `write_usb` had no transfer or no device (`-ENODEV`). -/
  | outUnavailable
  /-- `write_usb` found the transfer active (`-EBUSY`). -/
  | outBusy
  /-- `write_usb` found the packet too long (`-EINVAL`). -/
  | outTooLong
  /-- `IntrOutBuf` was written while libusb held the transfer. -/
  | outOverwritten
  /-- The callback of the output transfer. -/
  | outDone (status : TransferStatus)
  /-- The callback of the input transfer, with the bytes received. -/
  | inDone (status : TransferStatus) (data : Bytes)
  /-- The input transfer was submitted, or libusb refused it. -/
  | inSubmit (ok : Bool)
  /-- A call of `poll()` began. -/
  | pollStarted
  /-- The call returned. -/
  | pollReturned (nready : ℤ)
  deriving DecidableEq

/-- **The transfers.** -/
structure Transfers where
  intrOutSubmitted : Bool
  intrOutCanceling : Bool
  intrOutCompleted : Bool
  intrInSubmitted : Bool
  intrInCanceling : Bool
  x10AckReceived : Bool
  x10AckTimedOut : Bool
  usbOutCompletedCount : ℕ
  usbAckReceivedCount : ℕ
  usbAckTimeoutCount : ℕ
  usbUnexpectedOneByteCount : ℕ
  /-- `Do_exit`: 1 after a signal, 2 after a USB or poll error. -/
  doExit : ℕ
  /-- `Devh` is not null. -/
  devh : Bool
  /-- `IntrOut_transfer` is not null. -/
  intrOutTransfer : Bool
  /-- `IntrIn_transfer` is not null. -/
  intrInTransfer : Bool
  intrOutBuf : Bytes
  /-- libusb holds the output transfer. -/
  outOwned : Bool
  /-- libusb holds the input transfer. -/
  inOwned : Bool
  /-- libusb was asked to cancel the output transfer it holds. -/
  outCancelRequested : Bool
  /-- libusb was asked to cancel the input transfer it holds. -/
  inCancelRequested : Bool
  /-- How often `libusb_submit_transfer` was called for each. -/
  submitOutCalls : ℕ
  submitInCalls : ℕ
  /-- What has happened, the newest first. -/
  history : List UsbEvent

/-- The packets and the transfers. -/
structure Usb where
  queue : X10Queue
  io : Transfers

namespace Transfers

/-- After `alloc_transfers`. -/
def initial : Transfers where
  intrOutSubmitted := false
  intrOutCanceling := false
  intrOutCompleted := true
  intrInSubmitted := false
  intrInCanceling := false
  x10AckReceived := false
  x10AckTimedOut := false
  usbOutCompletedCount := 0
  usbAckReceivedCount := 0
  usbAckTimeoutCount := 0
  usbUnexpectedOneByteCount := 0
  doExit := 0
  devh := true
  intrOutTransfer := true
  intrInTransfer := true
  intrOutBuf := List.replicate 8 0
  outOwned := false
  inOwned := false
  outCancelRequested := false
  inCancelRequested := false
  submitOutCalls := 0
  submitInCalls := 0
  history := []

/-- One more event. -/
def record (t : Transfers) (e : UsbEvent) : Transfers := { t with history := e :: t.history }

/-- `libusb_submit_transfer` for the input transfer, and the flag that follows. -/
def submitIn (env : Env) (t : Transfers) : Transfers × ℤ :=
  let r := env.submitIn t.submitInCalls
  if r < 0 then
    ({ t with submitInCalls := t.submitInCalls + 1, history := .inSubmit false :: t.history }, r)
  else
    ({ t with
        submitInCalls := t.submitInCalls + 1
        intrInSubmitted := true
        inOwned := true
        history := .inSubmit true :: t.history }, 0)

/-- `start_transfers`. -/
def startTransfers (env : Env) (t : Transfers) : Transfers × ℤ :=
  if t.intrInSubmitted then (t, -16)
  else
    let (t, r) := t.submitIn env
    if r < 0 then (t, r) else ({ t with intrInCanceling := false }, 0)

/-- `write_usb`. -/
def writeUsb (env : Env) (t : Transfers) (buf : Bytes) : Transfers × ℤ :=
  if !t.intrOutTransfer || !t.devh then (t.record .outUnavailable, -19)
  else if t.intrOutSubmitted || t.intrOutCanceling then (t.record .outBusy, -16)
  else if 8 < buf.length then (t.record .outTooLong, -22)
  else
    let r := env.submitOut t.submitOutCalls
    let t := { t with
      intrOutBuf := memcpy t.intrOutBuf buf
      history := if t.outOwned then .outOverwritten :: t.history else t.history
      intrOutCompleted := false
      x10AckReceived := false
      x10AckTimedOut := false
      submitOutCalls := t.submitOutCalls + 1 }
    if r < 0 then
      ({ t with
          intrOutCompleted := true
          history := .outSubmitFailed buf :: t.history }, r)
    else
      ({ t with
          intrOutSubmitted := true
          intrOutCanceling := false
          outOwned := true
          outCancelRequested := false
          history := .outSubmit buf :: t.history }, 0)

/-- What released a packet is not kept for the next. -/
def spent (t : Transfers) : Transfers := { t with x10AckReceived := false, x10AckTimedOut := false }

end Transfers

namespace Usb

/-- At startup, before `start_transfers`. -/
def initial : Usb := ⟨.initial, .initial⟩

variable (env : Env)

/-- `x10_write`, with `write_usb`. -/
def x10Write (u : Usb) (buf : Bytes) : Usb × ℤ :=
  let ((queue, io), r) := u.queue.x10Write (Transfers.writeUsb env) u.io buf
  (⟨queue, io⟩, r)

/-- `send_next_x10out`, with `write_usb`. -/
def sendNextX10out (u : Usb) : Usb :=
  let ((queue, io), _) := u.queue.sendNextX10out (Transfers.writeUsb env) u.io
  ⟨queue, io⟩

/-- The next packet may go, and the flags that said so are spent. -/
def release (u : Usb) : Usb := sendNextX10out env ⟨u.queue, u.io.spent⟩

/-- `maybe_finish_x10_transmit`. -/
def maybeFinishX10Transmit (u : Usb) : Usb :=
  if !u.io.intrOutCompleted then u
  else if env.cm19a then u.release env
  else if !u.io.x10AckReceived && !u.io.x10AckTimedOut then u
  else u.release env

/-- `IntrOut_cb`. -/
def intrOutCb (u : Usb) (status : TransferStatus) : Usb :=
  let io := { u.io with
    outOwned := false
    outCancelRequested := false
    intrOutSubmitted := false
    intrOutCanceling := false
    intrOutCompleted := true
    history := .outDone status :: u.io.history }
  match status with
  | .completed =>
      maybeFinishX10Transmit env
        { u with io := { io with usbOutCompletedCount := io.usbOutCompletedCount + 1 } }
  | .cancelled => { u with io := io }
  | _ => { u with io := { io with doExit := 2 } }

/-- `IntrIn_cb`, up to the decoding of the packet: what it does with the acknowledgement
that a CM15A sends. -/
def intrInBegin (u : Usb) (status : TransferStatus) (data : Bytes) : Usb :=
  let io := { u.io with
    inOwned := false
    inCancelRequested := false
    intrInSubmitted := false
    intrInCanceling := false
    history := .inDone status data :: u.io.history }
  match status with
  | .completed =>
      if data = [0x55] then
        maybeFinishX10Transmit env
          { u with
            io := { io with
              x10AckReceived := true
              usbAckReceivedCount := io.usbAckReceivedCount + 1 } }
      else if data.length = 1 then
        { u with
          io := { io with usbUnexpectedOneByteCount := io.usbUnexpectedOneByteCount + 1 } }
      else { u with io := io }
  | .cancelled => { u with io := io }
  | _ => { u with io := { io with doExit := 2 } }

/-- `IntrIn_cb`, after the decoding: the transfer is submitted again. A signal may have
come in the meantime. -/
def intrInEnd (u : Usb) (signal : Bool) : Usb :=
  let io := if signal then { u.io with doExit := 1 } else u.io
  if io.doExit ≠ 0 then { u with io := io }
  else
    let (io, r) := io.submitIn env
    if r < 0 then { u with io := { io with doExit := 2 } } else { u with io := io }

/-- The timeout branch of the main loop, after the callbacks. -/
def ackTimeout (u : Usb) : Usb :=
  maybeFinishX10Transmit env
    { u with
      io := { u.io with
        x10AckTimedOut := true
        usbAckTimeoutCount := u.io.usbAckTimeoutCount + 1 } }

end Usb

end Mochad
