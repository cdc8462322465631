import Mochad.Env
import Mochad.X10.Tables

/-!
# Device and sensor state

The arrays of `x10state.c`: what was selected, switched and dimmed per house and
unit, and the table of security sensors; with them the other globals of the X10 side
– the two relay masks and the duplicate filter's table.

Everything the X10 side does outside its own state goes through four functions:
`sockprintf`, `statusprintf`, `send_all` and `x10_write`. None of their results is
looked at there (a diagnostic command returns that of its only `statusprintf`, as its
last act), so an X10 function is a state transformer that lists the calls it makes,
in order, as `Effect`s. `X10M` is the monad of such functions. The daemon carries the
effects out.

Arrays are indexed by the integers that the source computes, unguarded, so that an
index outside `0..15` would be visible.
-/

namespace Mochad

/-- An entry of the sensor table, `x10secsensor_t`. -/
structure X10Secsensor where
  secaddr : ℕ
  lastupdate : ℕ
  secaddr8 : Bool
  sensorstatus : UInt8
  deriving DecidableEq

/-- An entry of the duplicate filter's table, `struct dup_entry`. -/
structure DupEntry where
  timems : ℕ
  rfCommand : Bytes
  rfCmdLen : ℕ
  deriving DecidableEq

/-- A 16 by 16 array of bytes, `houseunitaddrs_t`. -/
abbrev Houseunitaddrs := ℤ → ℤ → UInt8

/-- **The globals of the X10 side**, and how many times it has read each clock. -/
structure X10State where
  houseUnitState : Houseunitaddrs
  houseUnitSelected : Houseunitaddrs
  houseUnitDim : Houseunitaddrs
  x10protostate : ℤ → ℤ
  /-- The first `X10sensorcount` entries of `X10sensors`. -/
  x10sensors : List X10Secsensor
  rfToPl16 : UInt16
  rfToRf16 : UInt16
  dups : List DupEntry
  timemsReads : ℕ
  timeReads : ℕ

/-- A call that the X10 side makes into the rest of the daemon. -/
inductive Effect
  /-- A line with a timestamp; to every main and XML client if `fd = -1`. -/
  | sockprintf (fd : ℤ) (body : Bytes)
  /-- A reply without a timestamp. -/
  | statusprintf (fd : ℤ) (text : Bytes)
  /-- A reply that bypasses the output queue. -/
  | sendAll (fd : ℤ) (bytes : Bytes)
  /-- A packet for the controller. -/
  | x10Write (buf : Bytes)
  deriving DecidableEq

/-! ### State transformers that list their calls -/

/-- What an X10 function leaves: its value, the state, and the calls it made. -/
structure Outcome (α : Type) where
  value : α
  state : X10State
  effects : List Effect

/-- **An X10 function.** -/
def X10M (α : Type) : Type := X10State → Outcome α

namespace X10M

variable {α β : Type}

instance : Monad X10M where
  pure a := fun s => ⟨a, s, []⟩
  bind m f := fun s =>
    let o := m s
    let o' := f o.value o.state
    ⟨o'.value, o'.state, o.effects ++ o'.effects⟩

/-- One call. -/
def call (e : Effect) : X10M Unit := fun s => ⟨(), s, [e]⟩

/-- The value of a function of the state. -/
def gets (f : X10State → α) : X10M α := fun s => ⟨f s, s, []⟩

/-- An update of the state. -/
def modify (f : X10State → X10State) : X10M Unit := fun s => ⟨(), f s, []⟩

@[simp] theorem pure_apply (a : α) (s : X10State) : (pure a : X10M α) s = ⟨a, s, []⟩ := rfl

@[simp] theorem call_apply (e : Effect) (s : X10State) : call e s = ⟨(), s, [e]⟩ := rfl

@[simp] theorem gets_apply (f : X10State → α) (s : X10State) : gets f s = ⟨f s, s, []⟩ := rfl

@[simp] theorem modify_apply (f : X10State → X10State) (s : X10State) :
    modify f s = ⟨(), f s, []⟩ := rfl

/-- **The calls of a sequence** are those of its parts, in order. -/
@[simp] theorem bind_apply (m : X10M α) (f : α → X10M β) (s : X10State) :
    (m >>= f) s = ⟨(f (m s).value (m s).state).value, (f (m s).value (m s).state).state,
      (m s).effects ++ (f (m s).value (m s).state).effects⟩ := rfl

theorem bind_pure (m : X10M α) : m >>= pure = m := by
  funext s
  show (⟨(m s).value, (m s).state, (m s).effects ++ []⟩ : Outcome α) = m s
  rw [List.append_nil]

instance : LawfulMonad X10M :=
  LawfulMonad.mk' X10M (fun m => bind_pure m) (fun _ _ => rfl) fun m f g => by
    funext s
    simp only [bind_apply, List.append_assoc]

end X10M

open X10M (call gets modify)

/-- `sockprintf`, with the formatted body of the line. -/
def sockprintf (fd : ℤ) (body : Bytes) : X10M Unit := call (.sockprintf fd body)

/-- `statusprintf`, with the formatted text. -/
def statusprintf (fd : ℤ) (text : Bytes) : X10M Unit := call (.statusprintf fd text)

/-- `send_all`. -/
def sendAll (fd : ℤ) (bytes : Bytes) : X10M Unit := call (.sendAll fd bytes)

/-- `x10_write`. -/
def x10Write (buf : Bytes) : X10M Unit := call (.x10Write buf)

/-- A reading of `time(NULL)`. -/
def timeNow (env : Env) : X10M ℕ := do
  let n ← gets (·.timeReads)
  modify fun s => { s with timeReads := n + 1 }
  pure (env.time n)

/-! ### Devices -/

/-- A write to one cell. -/
def Houseunitaddrs.set (a : Houseunitaddrs) (house unit : ℤ) (v : UInt8) : Houseunitaddrs :=
  Function.update a house (Function.update (a house) unit v)

/-- The unit numbers of a house. -/
def units : List ℕ := List.range 16

/-- `hua_sec_init`, the state at startup of the device and sensor tables. -/
def huaSecInit (s : X10State) : X10State :=
  { s with
    houseUnitState := fun _ _ => 0
    houseUnitSelected := fun _ _ => 0
    houseUnitDim := fun _ _ => 0
    x10protostate := fun _ => 0
    x10sensors := [] }

/-- `hua_init`. -/
def huaInit (house : ℤ) (s : X10State) : X10State :=
  { s with houseUnitSelected := Function.update s.houseUnitSelected house fun _ => 0 }

/-- `hua_getstatus`. -/
def huaGetstatus (s : X10State) (house unit : ℤ) : UInt8 := s.houseUnitState house unit

/-- `hua_getstatus_xdim`. -/
def huaGetstatusXdim (s : X10State) (house unit : ℤ) : UInt8 := s.houseUnitDim house unit

/-- `hua_setstatus_xdim`. -/
def huaSetstatusXdim (house unit : ℤ) (xdim : UInt8) (s : X10State) : X10State :=
  let s := huaInit house s
  { s with
    houseUnitSelected := s.houseUnitSelected.set house unit 0x31
    x10protostate := Function.update s.x10protostate house 1
    houseUnitDim := s.houseUnitDim.set house unit xdim
    houseUnitState := s.houseUnitState.set house unit (if 0 < xdim then 0x31 else 0x30) }

/-- `hua_add`. -/
def huaAdd (house unit : ℤ) (s : X10State) : X10State :=
  if s.x10protostate house = 0 then
    { s with houseUnitSelected := s.houseUnitSelected.set house unit 0x31 }
  else if s.x10protostate house = 1 then
    let s := huaInit house s
    { s with
      houseUnitSelected := s.houseUnitSelected.set house unit 0x31
      x10protostate := Function.update s.x10protostate house 0 }
  else s

/-- One unit's state and dim level after an On or Off. -/
def huaSwitch (house : ℤ) (func : UInt8) (s : X10State) (u : ℕ) : X10State :=
  { s with
    houseUnitState := s.houseUnitState.set house u func
    houseUnitDim := s.houseUnitDim.set house u (if func = 0x31 then 63 else 0) }

/-- `hua_func_all`. -/
def huaFuncAll (house : ℤ) (func : UInt8) (s : X10State) : X10State :=
  units.foldl (huaSwitch house func)
    { s with x10protostate := Function.update s.x10protostate house 1 }

/-- `hua_func_all_on`. -/
def huaFuncAllOn (house : ℤ) : X10State → X10State := huaFuncAll house 0x31

/-- `hua_func_all_off`. -/
def huaFuncAllOff (house : ℤ) : X10State → X10State := huaFuncAll house 0x30

/-- `hua_func`. -/
def huaFunc (house : ℤ) (func : UInt8) (s : X10State) : X10State :=
  units.foldl (fun s (u : ℕ) => if s.houseUnitSelected house u ≠ 0 then huaSwitch house func s u else s)
    { s with x10protostate := Function.update s.x10protostate house 1 }

/-- `hua_func_on`. -/
def huaFuncOn (house : ℤ) : X10State → X10State := huaFunc house 0x31

/-- `hua_func_off`. -/
def huaFuncOff (house : ℤ) : X10State → X10State := huaFunc house 0x30

/-! ### Security sensors -/

/-- The size of `X10sensors`. -/
def maxSensors : ℕ := 512

/-- The update of the first sensor with an address, if there is one. -/
def updateSensor (addr now : ℕ) (status : UInt8) : List X10Secsensor → Option (List X10Secsensor)
  | [] => none
  | sen :: sens =>
      if addr = sen.secaddr then
        some ({ sen with sensorstatus := status, lastupdate := now } :: sens)
      else (updateSensor addr now status sens).map (sen :: ·)

/-- `hua_sec_event`. -/
def huaSecEvent (env : Env) (secaddr : UInt8 × UInt8 × UInt8) (funcint : UInt8)
    (secaddr8 : Bool) : X10M Unit := do
  let secaddr32 := secaddr.1.toNat * 65536 + secaddr.2.1.toNat * 256 + secaddr.2.2.toNat
  let sensors ← gets (·.x10sensors)
  -- the clock is read on both paths that store an entry, and not when the table is full
  if (updateSensor secaddr32 0 funcint sensors).isSome then
    let now ← timeNow env
    modify fun s =>
      { s with x10sensors := (updateSensor secaddr32 now funcint sensors).getD sensors }
  else if maxSensors ≤ sensors.length + 1 then
    pure ()
  else
    let now ← timeNow env
    modify fun s => { s with x10sensors := sensors ++ [⟨secaddr32, now, secaddr8, funcint⟩] }

/-- The status bytes that `hua_getstatus_sec` takes for an alert, or for a normal, of a
sensor with a long address. -/
def longStatus (status : UInt8) : Option ℤ :=
  if status ∈ [0x00, 0x01, 0x04, 0x05, 0x0C, 0x0D] then some 1
  else if status ∈ [0x80, 0x81, 0x84, 0x85, 0x8C, 0x8D] then some 0
  else none

/-- The same for a short address. -/
def shortStatus (status : UInt8) : Option ℤ :=
  if status = 0x04 then some 1 else if status = 0x84 then some 0 else none

/-- `hua_getstatus_sec`. A match whose status byte says neither lets the scan go on. -/
def huaGetstatusSec (s : X10State) (rf8bitaddr : Bool) (rfaddr : ℕ) : ℤ :=
  (s.x10sensors.findSome? fun sen =>
    if rf8bitaddr && sen.secaddr8 && rfaddr = sen.secaddr then shortStatus sen.sensorstatus
    else if !rf8bitaddr && !sen.secaddr8 && rfaddr = sen.secaddr then longStatus sen.sensorstatus
    else none).getD (-1)

/-- `cmpX10sensor`: a difference of two `unsigned long`s, returned as an `int`. -/
def cmpX10sensor (sen₁ sen₂ : X10Secsensor) : ℤ :=
  Int.bmod ((sen₁.secaddr : ℤ) - sen₂.secaddr) (2 ^ 32)

/-! ### Printing the state -/

/-- `sockprintf` of one house's devices, if it has any to show. -/
def showHouse (fd : ℤ) (house : ℕ) (items : List Bytes) : X10M Unit :=
  if items = [] then pure ()
  else sockprintf fd (ascii "House " ++ [(0x41 + house).toUInt8] ++ ascii ": " ++
    List.intercalate (ascii ",") items ++ ascii "\n\r")

/-- `hua_show`. -/
def huaShow (env : Env) (fd : ℤ) : X10M Unit := do
  sockprintf fd (ascii "Device selected\n\r")
  let selected ← gets (·.houseUnitSelected)
  units.forM fun h => showHouse fd h
    ((units.filter fun (u : ℕ) => selected h u ≠ 0).map fun u => fmtNat (u + 1))
  sockprintf fd (ascii "Device status\n\r")
  let status ← gets (·.houseUnitState)
  units.forM fun h => showHouse fd h
    ((units.filter fun (u : ℕ) => status h u ≠ 0).map fun u =>
      fmtNat (u + 1) ++ ascii "=" ++ [status h u])
  sockprintf fd (ascii "Security sensor status\n\r")
  modify fun s =>
    { s with x10sensors := s.x10sensors.insertionSort fun a b => cmpX10sensor a b ≤ 0 }
  let sensors ← gets (·.x10sensors)
  sensors.forM fun sen => do
    let now ← timeNow env
    let deltat : ℤ := (now : ℤ) - sen.lastupdate
    let mins := deltat.tdiv 60
    let message := if sen.secaddr8 then findSecRemoteKeyName sen.sensorstatus
      else findSecEventName sen.sensorstatus
    sockprintf fd (ascii "Sensor addr: " ++ fmtPad 16 6 sen.secaddr ++ ascii " Last: " ++
      fmtInt2 mins ++ ascii ":" ++ fmtInt2 (deltat - mins * 60) ++ ascii " " ++ fmtStr message ++
      ascii " \n\r")
  sockprintf fd (ascii "End status\n\r")

end Mochad
