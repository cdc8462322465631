import Mochad.X10.Event

/-!
# Decoding

`decode.c`: what a packet from the controller – or one that the encoder has made to
look like one – does to the tables, and which events it is reported with.

A packet is a memory and a length, since the decoders read at fixed offsets: what
they find past the length is what the buffer held before, and is not ruled out here.

A received radio frame may be *relayed*: repeated as radio, and sent on as a
power-line command. The second is a call back into the command interpreter, which is
a parameter here (`relay`).
-/

namespace Mochad

open X10M (gets modify)

variable (env : Env)

/-- `_hexdump`, into a buffer that holds a hundred bytes. -/
def hexdumpText (bs : Bytes) : Bytes := (bs.take 100).flatMap fun b => fmtHex2 b.toNat ++ [0x20]

theorem length_fmtHex2 : ∀ b : UInt8, (fmtHex2 b.toNat).length = 2 := forall_byte (by decide +kernel)

theorem printable_hexdumpText (bs : Bytes) : Printable (hexdumpText bs) := by
  intro c hc
  obtain ⟨b, _, hb⟩ := List.mem_flatMap.mp hc
  have hone : Printable (fmtHex2 b.toNat ++ [0x20]) := by simp
  exact hone c hb

/-- A hundred bytes take three characters each. -/
theorem length_hexdumpText (bs : Bytes) : (hexdumpText bs).length ≤ 300 := by
  have hthree : ∀ bs : Bytes,
      (bs.flatMap fun b => fmtHex2 b.toNat ++ [0x20]).length = 3 * bs.length := by
    intro bs
    induction bs with
    | nil => rfl
    | cons b bs ih =>
      rw [List.flatMap_cons, List.length_append, ih, List.length_append, length_fmtHex2,
        List.length_singleton, List.length_cons]
      omega
  rw [hexdumpText, hthree, List.length_take]
  omega

/-- `sockhexdump`. -/
def sockhexdump (fd : ℤ) (buf : Memory) (len : ℕ) : X10M Unit :=
  sockprintf fd (hexdumpText (buf.take len) ++ ascii "\n")

/-- `mh_sockhexdump`. -/
def mhSockhexdump (fd : ℤ) (buf : Memory) (len : ℕ) : X10M Unit :=
  sockprintf fd (ascii "Raw data received: " ++ hexdumpText (buf.take len) ++ ascii "\n")

/-! ### Events of a packet -/

/-- `pl_direction`. -/
def plDirection (marker : UInt8) : Direction := if marker = 0x5a then .rx else .tx

/-- `rf_direction`. -/
def rfDirection (marker : UInt8) : Direction := if marker = 0x5d then .rx else .tx

/-- `dispatch_pl_houseunit`. -/
def dispatchPlHouseunit (fd : ℤ) (marker house : UInt8) (unit : ℤ) (function : Option Bytes) :
    X10M Unit :=
  mochadDispatchEvent fd
    { direction := plDirection marker, transport := .pl, detail := .houseUnit, house := house,
      unit := unit, function := function }

/-- `dispatch_pl_house`. -/
def dispatchPlHouse (fd : ℤ) (marker house : UInt8) (function : Option Bytes) : X10M Unit :=
  mochadDispatchEvent fd
    { direction := plDirection marker, transport := .pl, detail := .house, house := house,
      function := function }

/-- `dispatch_pl_house_level`. -/
def dispatchPlHouseLevel (fd : ℤ) (marker house : UInt8) (function : Option Bytes) (level : ℤ) :
    X10M Unit :=
  mochadDispatchEvent fd
    { direction := plDirection marker, transport := .pl, detail := .house, house := house,
      function := function, hasLevel := true, level := level }

/-- `dispatch_pl_extended`. -/
def dispatchPlExtended (fd : ℤ) (marker house : UInt8) (unit : ℤ) (function : Option Bytes)
    (data command : ℕ) : X10M Unit :=
  mochadDispatchEvent fd
    { direction := plDirection marker, transport := .pl, detail := .houseUnit, house := house,
      unit := unit, function := function, hasExtendedData := true, extendedData := data,
      extendedCommand := command }

/-- `dispatch_rf_houseunit`. -/
def dispatchRfHouseunit (fd : ℤ) (marker house : UInt8) (unit : ℤ) (function : Option Bytes) :
    X10M Unit :=
  mochadDispatchEvent fd
    { direction := rfDirection marker, transport := .rf, detail := .houseUnit, house := house,
      unit := unit, function := function }

/-- `dispatch_rf_house`. -/
def dispatchRfHouse (fd : ℤ) (marker house : UInt8) (function : Option Bytes) : X10M Unit :=
  mochadDispatchEvent fd
    { direction := rfDirection marker, transport := .rf, detail := .house, house := house,
      function := function }

/-- `dispatch_rfsec_short`. -/
def dispatchRfsecShort (fd : ℤ) (marker : UInt8) (address : ℕ) (function : Option Bytes) :
    X10M Unit :=
  mochadDispatchEvent fd
    { direction := rfDirection marker, transport := .rfsec, detail := .rfsecShort,
      securityShortAddr := address, function := function }

/-- `dispatch_rfsec_long`. -/
def dispatchRfsecLong (fd : ℤ) (marker : UInt8) (address : UInt8 × UInt8 × UInt8)
    (function : Option Bytes) : X10M Unit :=
  mochadDispatchEvent fd
    { direction := rfDirection marker, transport := .rfsec, detail := .rfsecLong,
      securityLongAddr := address, function := function }

/-- `dispatch_rfcam`. -/
def dispatchRfcam (fd : ℤ) (marker : UInt8) (command : Bytes) : X10M Unit :=
  mochadDispatchEvent fd
    { direction := rfDirection marker, transport := .rfcam, detail := .rfcam,
      cameraCommand := some command }

/-! ### Power line -/

/-- The name of a function code. -/
def funcnameAt (func : ℕ) : Option Bytes := funcname[func]?

theorem printable_funcnameAt (func : ℕ) : Printable (fmtStr (funcnameAt func)) := by
  have hall : ∀ name ∈ funcname, Printable name := by decide
  exact printable_fmtStr fun t ht => hall t (List.mem_of_getElem? ht)

/-- A house letter as an index into the tables. -/
def houseIndex (housechar : UInt8) : ℤ := housechar.toNat - 0x41

/-- What a house function does to the device tables. -/
def applyHouseFunc (house : ℤ) (func : ℕ) : X10M Unit :=
  if func = 0 ∨ func = 6 then modify (huaFuncAllOff house)
  else if func = 1 then modify (huaFuncAllOn house)
  else if func = 2 ∨ func = 13 then modify (huaFuncOn house)
  else if func = 3 ∨ func = 14 then modify (huaFuncOff house)
  else pure ()

/-- `cm15a_decode_plc`. -/
def cm15aDecodePlc (fd : ℤ) (buf : Memory) (len : ℕ) : X10M Unit :=
  if len < 4 then pure ()
  else if 8 < len then pure ()
  else if buf 2 = 0x00 then
    if buf 1 ≠ 2 then pure ()
    else do
      let (housechar, unitint) := hucDecode (buf 3)
      modify (huaAdd (houseIndex housechar) (unitint - 1))
      dispatchPlHouseunit fd (buf 0) housechar unitint none
  else if buf 2 = 0x01 then
    if buf 1 ≠ 2 then pure ()
    else do
      let (housechar, funcint) := hfcDecode (buf 3)
      applyHouseFunc (houseIndex housechar) funcint
      dispatchPlHouse fd (buf 0) housechar (funcnameAt funcint)
  else if buf 2 = 0x02 then
    if buf 1 ≠ 3 then pure ()
    else
      -- the fourth byte is read whether or not the packet has one
      let dims := ((buf 3 &&& 0xF8) >>> 3).toNat
      let (housechar, funcint) := hfcDecode (buf 4)
      dispatchPlHouseLevel fd (buf 0) housechar (funcnameAt funcint) dims
  else if buf 2 = 0x07 then
    if len ≠ 7 then pure ()
    else do
      let (housechar, funcint) := hfcDecode (buf 3)
      let unitint := ucDecode (buf 4)
      dispatchPlExtended fd (buf 0) housechar unitint (funcnameAt funcint) (buf 5).toNat
        (buf 6).toNat
      modify (huaSetstatusXdim (houseIndex housechar) (unitint - 1) (buf 5))
  else if buf 2 = 0x08 then
    if len ≠ 7 then pure ()
    else do
      let (housechar, funcint) := hfcDecode (buf 6)
      let unitint := ucDecode (buf 5)
      dispatchPlExtended fd (buf 0) housechar unitint (funcnameAt funcint) (buf 4).toNat
        (buf 3).toNat
      modify (huaSetstatusXdim (houseIndex housechar) (unitint - 1) (buf 4))
  else pure ()

/-! ### The duplicate filter -/

/-- `get_timems`. The product is computed in `time_t`, before it is widened. -/
def getTimems : X10M ℕ := do
  let n ← gets (·.timemsReads)
  modify fun s => { s with timemsReads := n + 1 }
  let ts := env.clockMonotonic n
  pure ((Int.bmod (ts.tvSec * 1000) (2 ^ env.timeWidth) + ts.tvNsec.tdiv 1000000) % 2 ^ 64).toNat

/-- `DUP_TIME`. -/
def dupTime : ℕ := 650

/-- The table at startup: sixteen unused entries. -/
def dupsInit : List DupEntry := List.replicate 16 ⟨0, List.replicate 16 0, 0⟩

/-- What the scan of the table ends with. -/
inductive DupScan
  /-- The command is at this entry, whose time is over. -/
  | expired (i : ℕ)
  /-- The command is in the table. -/
  | present
  /-- The command is not in the table, whose first unused entry is this one. -/
  | absent (firstunused : Option ℕ)

/-- **The scan of the table**, from entry `i` on: entries whose time is over are marked
unused, up to the entry where the command is found. -/
def dupScan (timems : ℕ) (cmd : Bytes) : ℕ → Option ℕ → List DupEntry → List DupEntry × DupScan
  | _, firstunused, [] => ([], .absent firstunused)
  | i, firstunused, p :: ps =>
      if p.rfCmdLen ≠ 0 then
        if p.rfCmdLen = cmd.length ∧ p.rfCommand.take cmd.length = cmd then
          (p :: ps, if p.timems < timems then .expired i else .present)
        else if p.timems < timems then
          let r := dupScan timems cmd (i + 1) (firstunused.or (some i)) ps
          ({ p with rfCmdLen := 0 } :: r.1, r.2)
        else
          let r := dupScan timems cmd (i + 1) firstunused ps
          (p :: r.1, r.2)
      else
        let r := dupScan timems cmd (i + 1) (firstunused.or (some i)) ps
        (p :: r.1, r.2)

/-- The first of the entries closest to expiring. -/
def closestToExpiring (dups : List DupEntry) : ℕ :=
  (dups.zipIdx.foldl (fun best (p : DupEntry × ℕ) =>
    match best with
    | none => some p
    | some b => if p.1.timems < b.1.timems then some p else some b) none).elim 0 (·.2)

/-- `dup_filter`: whether the frame is to be discarded. -/
def dupFilter (cmd : Bytes) : X10M Bool := do
  let timems ← getTimems env
  let dups ← gets (·.dups)
  let (dups, found) := dupScan timems cmd 0 none dups
  match found with
  | .present =>
      modify fun s => { s with dups := dups }
      pure true
  | .expired i =>
      let now ← getTimems env
      modify fun s =>
        { s with dups := dups.modify i fun p => { p with timems := (now + dupTime) % 2 ^ 64 } }
      pure false
  | .absent firstunused =>
      let addIndex := firstunused.getD (closestToExpiring dups)
      let now ← getTimems env
      modify fun s => { s with dups := dups.modify addIndex fun p =>
        ⟨(now + dupTime) % 2 ^ 64, memcpy p.rfCommand cmd, cmd.length⟩ }
      pure false

/-! ### Radio -/

/-- The address and the function of a security frame with a long address, or why it has
none (`secaf_decode`). -/
def secafDecode (buf : Memory) (len : ℕ) : Except ℤ ((UInt8 × UInt8 × UInt8) × UInt8) :=
  if len < 8 then .error (-1)
  else if buf 2 ^^^ buf 3 ≠ 0x0f ∨ buf 4 ^^^ buf 5 ≠ 0xff then .error (-1)
  else if oddParity (buf 6 ^^^ buf 7) then .error (-2)
  else .ok ((buf 2, buf 6, buf 7), buf 4)

/-- `repeatRF`. -/
def repeatRF (fd : ℤ) (buf : Memory) (len : ℕ) : X10M Unit := do
  let mask ← gets (·.rfToRf16)
  if mask ≠ 0 then
    sockprintf fd (ascii "RfToRf repeat\n")
    let tx := (buf.copy 0 [0xEB]).take len
    x10Write (if env.cm19a then tx.drop 1 else tx)
  else pure ()

/-- Whether the radio frames of a house are sent on to the power line. -/
def relayed (s : X10State) (housechar : UInt8) : Bool :=
  !env.cm19a && (s.rfToPl16 &&& (1 <<< (housechar - 0x41).toUInt16)) ≠ 0

/-- The extra markers in front of a radio frame are skipped while the frame is too
long. -/
def trimMarkers : Memory → ℕ → Memory × ℕ
  | buf, 0 => (buf, 0)
  | buf, len + 1 =>
      if 8 < len + 1 ∧ buf 1 = 0x5D then trimMarkers (fun i => buf (i + 1)) len
      else (buf, len + 1)

variable (relay : ℤ → Bytes → X10M Unit)

/-- A frame that is not taken for a command, with what is said about it. -/
def rejectRf (fd : ℤ) (buf : Memory) (len : ℕ) (why : Bytes) : X10M Unit := do
  sockprintf fd why
  sockhexdump fd buf len

/-- The camera frames of `cm15a_decode_rf`. -/
def decodeRfCamera (fd : ℤ) (buf : Memory) (len : ℕ) : X10M Unit :=
  match findCamRemoteName (fun i => buf (i + 1)) (len - 1) with
  | none => rejectRf fd buf len (ascii "Unknown RF camera command\n")
  | some command => do
      if ← dupFilter env (buf.take len) then pure ()
      else
        dispatchRfcam fd (buf 0) command
        repeatRF env fd buf len

/-- The security frames with a short address. -/
def decodeRfShort (fd : ℤ) (buf : Memory) (len : ℕ) : X10M Unit :=
  if buf 4 ^^^ buf 5 ≠ 0xff then rejectRf fd buf len (ascii "Invalid checksum\n")
  else do
    if ← dupFilter env (buf.take len) then pure ()
    else
      huaSecEvent env (0, 0, buf 2) (buf 4) true
      dispatchRfsecShort fd (buf 0) (buf 2).toNat (findSecRemoteKeyName (buf 4))
      repeatRF env fd buf len

/-- A house's Dim or Bright. -/
def decodeRfDim (fd : ℤ) (buf : Memory) (len : ℕ) (housechar : UInt8) (name : Option Bytes) :
    X10M Unit := do
  dispatchRfHouse fd (buf 0) housechar name
  repeatRF env fd buf len
  let on ← gets fun s => relayed env s housechar
  if on then relay fd (ascii "PL " ++ [housechar] ++ ascii " " ++ fmtStr name) else pure ()

/-- A unit's On or Off. -/
def decodeRfSwitch (fd : ℤ) (buf : Memory) (len : ℕ) (housechar : UInt8) (unitint : ℕ)
    (off : Bool) (name : Option Bytes) : X10M Unit := do
  modify (huaAdd (houseIndex housechar) ((unitint : ℤ) - 1))
  modify (if off then huaFuncOff (houseIndex housechar) else huaFuncOn (houseIndex housechar))
  dispatchRfHouseunit fd (buf 0) housechar unitint name
  repeatRF env fd buf len
  let on ← gets fun s => relayed env s housechar
  if on then
    relay fd (ascii "PL " ++ [housechar] ++ fmtNat unitint ++ ascii " " ++ fmtStr name)
  else pure ()

/-- The standard frames of `cm15a_decode_rf`. Which of them carry a security code shows
in the check byte of the third byte. -/
def decodeRfStandard (fd : ℤ) (buf : Memory) (len : ℕ) : X10M Unit :=
  let chksum := buf 2 ^^^ buf 3
  if chksum = 0x0f then decodeRfShort env fd buf len
  else if chksum = 0xff then
    -- the controller itself uses 0xfb for the units from 9 to 16
    if buf 4 ^^^ buf 5 ≠ 0xff ∧ buf 4 ^^^ buf 5 ≠ 0xfb then
      rejectRf fd buf len (ascii "Invalid checksum\n")
    else do
      if ← dupFilter env (buf.take len) then pure ()
      else
        let (housechar, unitint, funcint) := hufcDecode (buf 2) (buf 4)
        let name := funcnameAt (funcint + 2)
        if 1 < funcint then decodeRfDim env relay fd buf len housechar name
        else decodeRfSwitch env relay fd buf len housechar unitint (funcint ≠ 0) name
  else rejectRf fd buf len (ascii "Invalid checksum 0x" ++ fmtHex2 chksum.toNat ++ ascii "\n")

/-- The security frames with a long address. -/
def decodeRfLong (fd : ℤ) (buf : Memory) (len : ℕ) : X10M Unit :=
  match secafDecode buf len with
  | .ok (secaddr, funcint) => do
      if ← dupFilter env (buf.take len) then pure ()
      else
        huaSecEvent env secaddr funcint false
        dispatchRfsecLong fd (buf 0) secaddr (findSecEventName funcint)
        repeatRF env fd buf len
  | .error rc =>
      if rc = -1 then sockprintf fd (ascii "Invalid checksum\n")
      else if rc = -2 then sockprintf fd (ascii "Invalid parity\n")
      else rejectRf fd buf len (ascii "???\n")

/-- `cm15a_decode_rf`. -/
def cm15aDecodeRf (fd : ℤ) (buf₀ : Memory) (len₀ : ℕ) : X10M Unit :=
  let (buf, len) := trimMarkers buf₀ len₀
  if len < 5 then rejectRf fd buf len (ascii "too short " ++ fmtNat len ++ ascii "\n")
  else if 8 < len then rejectRf fd buf len (ascii "too long " ++ fmtNat len ++ ascii "\n")
  else if buf 1 = 0x14 then decodeRfCamera env fd buf len
  else if buf 1 = 0x20 then decodeRfStandard env relay fd buf len
  else if buf 1 = 0x29 then decodeRfLong env fd buf len
  else rejectRf fd buf len (ascii "Not supported " ++ fmtHex2 (buf 1).toNat ++ ascii "\n")

/-! ### Packets from the controller -/

/-- `setClock`. -/
def setClock : X10M Unit := do
  let t ← timeNow env
  let tm := env.localtime t
  x10Write [0x9b, tm.tmSec.toUInt8, (tm.tmMin + 60 * (tm.tmHour % 2)).toUInt8,
    (tm.tmHour / 2).toUInt8, tm.tmYday.toUInt8,
    (2 ^ tm.tmWday).toUInt8 ||| (if tm.tmYday.testBit 8 then 0x80 else 0), 0x60, 0x00]

/-- What `cm15a_decode` makes of a packet, by its first byte. -/
def decodePacket (fd : ℤ) (p : Memory) (len : ℕ) : X10M Unit := do
  if env.config.rawData then mhSockhexdump fd p len else pure ()
  if p 0 = 0xa5 then setClock env
  else if p 0 = 0x5a then cm15aDecodePlc fd p len
  else if p 0 = 0x5d then cm15aDecodeRf env relay fd p len
  else pure ()

/-- **The decoder**, `cm15a_decode`. A packet from a CM19A is given the marker that a
CM15A puts in front of radio frames; the local array it is copied to is uninitialised
past the copy. -/
def cm15aDecode (fd : ℤ) (buf : Memory) (len : ℕ) : X10M Unit :=
  if len < 4 then pure ()
  else if env.cm19a then
    if 8 < len then pure ()
    else decodePacket env relay fd (Memory.ofBytes (0x5d :: buf.take len) env.stack) (len + 1)
  else decodePacket env relay fd buf len

end Mochad
