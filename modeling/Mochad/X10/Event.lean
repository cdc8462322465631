import Mochad.X10.State

/-!
# Events

The typed events of `mochad_event.c`, the one-line text that each is reported with,
and their dispatch. An event says only what its kind prints; the other fields keep
the zeros that `memset` leaves.
-/

namespace Mochad

/-- `mochad_event_direction_t`. -/
inductive Direction
  | rx
  | tx
  deriving DecidableEq, Repr

/-- `mochad_event_transport_t`. -/
inductive Transport
  | pl
  | rf
  | rfsec
  | rfcam
  deriving DecidableEq, Repr

/-- `mochad_event_detail_t`. -/
inductive Detail
  | houseUnit
  | house
  | rfsecShort
  | rfsecLong
  | rfcam
  deriving DecidableEq, Repr

/-- `mochad_event_t`. A string pointer that may be null is an optional string. -/
structure MochadEvent where
  direction : Direction
  transport : Transport
  detail : Detail
  house : UInt8 := 0
  unit : ℤ := 0
  function : Option Bytes := none
  hasLevel : Bool := false
  level : ℤ := 0
  hasExtendedData : Bool := false
  extendedData : ℕ := 0
  extendedCommand : ℕ := 0
  securityShortAddr : ℕ := 0
  securityLongAddr : UInt8 × UInt8 × UInt8 := (0, 0, 0)
  cameraCommand : Option Bytes := none

/-- `direction_label`. -/
def directionLabel : Direction → Bytes
  | .tx => ascii "Tx"
  | .rx => ascii "Rx"

/-- `transport_label`. -/
def transportLabel : Transport → Bytes
  | .pl => ascii "PL"
  | .rf => ascii "RF"
  | .rfsec => ascii "RFSEC"
  | .rfcam => ascii "RFCAM"

/-- The text of an event, before it is known whether a buffer holds it. -/
def legacyBody (event : MochadEvent) : Bytes :=
  let head := directionLabel event.direction ++ ascii " " ++ transportLabel event.transport
  let houseUnit := ascii " HouseUnit: " ++ [event.house] ++ fmtInt event.unit
  let house := ascii " House: " ++ [event.house]
  let func := ascii " Func: " ++ fmtStr event.function
  match event.detail with
  | .houseUnit =>
      if event.hasExtendedData then
        head ++ houseUnit ++ func ++ ascii " Data: " ++ fmtHex2 event.extendedData ++
          ascii " Command: " ++ fmtHex2 event.extendedCommand
      else if event.function = none then head ++ houseUnit
      else head ++ houseUnit ++ func
  | .house =>
      if event.hasLevel then head ++ house ++ func ++ ascii "(" ++ fmtInt event.level ++ ascii ")"
      else head ++ house ++ func
  | .rfsecShort => head ++ ascii " Addr: 0x" ++ fmtHex2 event.securityShortAddr ++ func
  | .rfsecLong =>
      head ++ ascii " Addr: " ++ fmtHex2 event.securityLongAddr.1.toNat ++ ascii ":" ++
        fmtHex2 event.securityLongAddr.2.1.toNat ++ ascii ":" ++
        fmtHex2 event.securityLongAddr.2.2.toNat ++ func
  | .rfcam => head ++ ascii " " ++ fmtStr event.cameraCommand

/-- `mochad_event_format_legacy_body`: nothing if the buffer is too small. -/
def mochadEventFormatLegacyBody (event : MochadEvent) (bufferLen : ℕ) : Option Bytes :=
  checkedSnprintf bufferLen (legacyBody event)

/-- `mochad_dispatch_event`. -/
def mochadDispatchEvent (fd : ℤ) (event : MochadEvent) : X10M Unit :=
  match mochadEventFormatLegacyBody event 256 with
  | none => pure ()
  | some body => sockprintf fd (body ++ ascii "\n")

theorem mochadDispatchEvent_state (fd : ℤ) (event : MochadEvent) (s : X10State) :
    (mochadDispatchEvent fd event s).state = s := by
  rw [mochadDispatchEvent]
  cases mochadEventFormatLegacyBody event 256 with
  | none => rfl
  | some body => rfl

/-- **What an event names prints.** -/
structure MochadEvent.Spelled (event : MochadEvent) : Prop where
  house : event.detail = .houseUnit ∨ event.detail = .house → 0x20 ≤ event.house
  function : Printable (fmtStr event.function)
  camera : Printable (fmtStr event.cameraCommand)

/-- **The text of an event prints**, if what it names does. -/
theorem printable_legacyBody {event : MochadEvent} (h : event.Spelled) :
    Printable (legacyBody event) := by
  obtain ⟨hhouse, hfunction, hcamera⟩ := h
  have hdirection : Printable (directionLabel event.direction) := by
    cases event.direction with
    | rx | tx => decide
  have htransport : Printable (transportLabel event.transport) := by
    cases event.transport with
    | pl | rf | rfsec | rfcam => decide
  have hfixed : Printable (ascii " ") ∧ Printable (ascii " HouseUnit: ") ∧
      Printable (ascii " House: ") ∧ Printable (ascii " Func: ") ∧ Printable (ascii " Data: ") ∧
      Printable (ascii " Command: ") ∧ Printable (ascii "(") ∧ Printable (ascii ")") ∧
      Printable (ascii " Addr: 0x") ∧ Printable (ascii " Addr: ") ∧ Printable (ascii ":") := by
    decide
  rw [legacyBody]
  cases hdetail : event.detail with
  | houseUnit =>
    have hletter := hhouse (Or.inl hdetail)
    dsimp only
    split_ifs
    · simp [hdirection, htransport, hletter, hfunction, hfixed]
    · simp [hdirection, htransport, hletter, hfixed]
    · simp [hdirection, htransport, hletter, hfunction, hfixed]
  | house =>
    have hletter := hhouse (Or.inr hdetail)
    dsimp only
    split_ifs
    · simp [hdirection, htransport, hletter, hfunction, hfixed]
    · simp [hdirection, htransport, hletter, hfunction, hfixed]
  | rfsecShort => simp [hdirection, htransport, hfunction, hfixed]
  | rfsecLong => simp [hdirection, htransport, hfunction, hfixed]
  | rfcam => simp [hdirection, htransport, hcamera, hfixed]

example :
    legacyBody
      { direction := .rx, transport := .pl, detail := .house, house := 0x41,
        function := some (ascii "Dim"), hasLevel := true, level := 7 } =
      ascii "Rx PL House: A Func: Dim(7)" := by decide

end Mochad
