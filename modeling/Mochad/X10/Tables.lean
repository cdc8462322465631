import Mochad.Bytes

/-!
# The tables of the X10 protocol

House and unit codes, function names, and the names of security events and remote
keys: the constant tables of `decode.c` and `encode.c`, with the lookups that only
read them.
-/

namespace Mochad

/-- An entry of a constant table. An index outside the table reads nothing. -/
def tableAt (table : List UInt8) (i : ℤ) : UInt8 := if 0 ≤ i then table.getD i.toNat 0 else 0

/-! ### decode.c -/

/-- `HouseUnitTable`: the house letter of a power-line code. Its position in the
alphabet, counted from one, is the unit of the same code. -/
def houseUnitTable : List UInt8 := ascii "MECKOGAINFDLPHBJ"

/-- `HouseUnitTableRF`: the house letter of a radio code. -/
def houseUnitTableRF : List UInt8 := ascii "MNOPCDABEFGHKLIJ"

/-- `Funcname`. -/
def funcname : List Bytes :=
  [ascii "All units off", ascii "All lights on", ascii "On", ascii "Off", ascii "Dim",
    ascii "Bright", ascii "All lights off", ascii "Ext code 1, data, control",
    ascii "Hail request", ascii "Hail ack", ascii "Ext code 3, security msg", ascii "Unused",
    ascii "Ext code 2, meter read, DSM", ascii "Status on", ascii "Status off",
    ascii "Status request"]

/-- The house letter and the unit number of a house/unit code (`huc_decode`). -/
def hucDecode (houseunit : UInt8) : UInt8 × ℤ :=
  (tableAt houseUnitTable ((houseunit &&& 0xf0) >>> 4).toNat,
    ((tableAt houseUnitTable (houseunit &&& 0x0f).toNat).toNat : ℤ) - 0x41 + 1)

/-- The house letter and the function of a house/function code (`hfc_decode`). -/
def hfcDecode (housefunc : UInt8) : UInt8 × ℕ :=
  (tableAt houseUnitTable ((housefunc &&& 0xf0) >>> 4).toNat, (housefunc &&& 0x0f).toNat)

/-- The unit number of a unit code (`uc_decode`). -/
def ucDecode (unit : UInt8) : ℤ :=
  ((tableAt houseUnitTable (unit &&& 0x0f).toNat).toNat : ℤ) - 0x41 + 1

/-- The house letter, unit number and function of a standard radio frame
(`hufc_decode`): functions are 0 for On, 1 for Off, 2 for Dim and 3 for Bright, and the
last two have no unit. -/
def hufcDecode (houseunit unitfunc : UInt8) : UInt8 × ℕ × ℕ :=
  let housechar := tableAt houseUnitTableRF ((houseunit &&& 0xf0) >>> 4).toNat
  if unitfunc = 0x88 then (housechar, 0, 3)
  else if unitfunc = 0x98 then (housechar, 0, 2)
  else
    let unitint := ((houseunit &&& 0x04) <<< 1) ||| ((unitfunc &&& 0x40) >>> 4) |||
      ((unitfunc &&& 0x08) >>> 2) ||| ((unitfunc &&& 0x10) >>> 4)
    (housechar, unitint.toNat + 1, ((unitfunc &&& 0x20) >>> 5).toNat)

/-- `SecEventNames`: the events of sensors with a long address. -/
def secEventNames : List (UInt8 × Bytes) :=
  [(0x0C, ascii "Motion_alert_MS10A"), (0x8C, ascii "Motion_normal_MS10A"),
    (0x0D, ascii "Motion_alert_low_MS10A"), (0x8D, ascii "Motion_normal_low_MS10A"),
    (0x04, ascii "Contact_alert_min_DS10A"), (0x84, ascii "Contact_normal_min_DS10A"),
    (0x44, ascii "Contact_alert_min_tamper_DS12A"),
    (0xC4, ascii "Contact_normal_min_tamper_DS12A"),
    (0x00, ascii "Contact_alert_max_DS10A"), (0x80, ascii "Contact_normal_max_DS10A"),
    (0x40, ascii "Contact_alert_max_tamper_DS12A"),
    (0xC0, ascii "Contact_normal_max_tamper_DS12A"),
    (0x01, ascii "Contact_alert_min_low_DS10A"), (0x81, ascii "Contact_normal_min_low_DS10A"),
    (0x05, ascii "Contact_alert_max_low_DS10A"), (0x85, ascii "Contact_normal_max_low_DS10A"),
    (0x06, ascii "Arm_KR10A"), (0x86, ascii "Disarm_KR10A"), (0x46, ascii "Lights_On_KR10A"),
    (0xC6, ascii "Lights_Off_KR10A"), (0x26, ascii "Panic_KR10A"), (0x03, ascii "Panic_KR15A")]

/-- `SecRemoteKeyNames`: the keys of remotes with an 8-bit address. -/
def secRemoteKeyNames : List (UInt8 × Bytes) :=
  [(0x0E, ascii "Arm_Home_min_SH624"), (0x06, ascii "Arm_Away_min_SH624"),
    (0x0A, ascii "Arm_Home_max_SH624"), (0x02, ascii "Arm_Away_max_SH624"),
    (0x82, ascii "Disarm_SH624"), (0x22, ascii "Panic_SH624"), (0x42, ascii "Lights_On_SH624"),
    (0xC2, ascii "Lights_Off_SH624"), (0x04, ascii "Motion_alert_SP554A"),
    (0x84, ascii "Motion_normal_SP554A"), (0x0C, ascii "Motion_alert_Home_Away_SP554A"),
    (0x8C, ascii "Motion_normal_Home_Away_SP554A")]

/-- The first entry of a name table for a function byte. -/
def findName (table : List (UInt8 × Bytes)) (funct : UInt8) : Option Bytes :=
  (table.find? fun e => e.1 = funct).map (·.2)

/-- `findSecEventName`. -/
def findSecEventName (secev : UInt8) : Option Bytes := findName secEventNames secev

/-- `findSecRemoteKeyName`. -/
def findSecRemoteKeyName (secev : UInt8) : Option Bytes := findName secRemoteKeyNames secev

/-- `RFCAMKeyCodes`, from key code `0x54` on. -/
def rfcamKeyCodes : List (Option Bytes) :=
  [some (ascii "CAMPRESET5"), some (ascii "CAMEDITPRESET5"), some (ascii "CAMPRESET6"),
    some (ascii "CAMEDITPRESET6"), some (ascii "CAMPRESET7"), some (ascii "CAMEDITPRESET7"),
    some (ascii "CAMPRESET8"), some (ascii "CAMEDITPRESET8"), some (ascii "CAMPRESET9"),
    some (ascii "CAMEDITPRESET9"), none, none, some (ascii "CAMLEFT"), some (ascii "CAMRIGHT"),
    some (ascii "CAMUP"), some (ascii "CAMDOWN"), some (ascii "CAMPRESET1"),
    some (ascii "CAMEDITPRESET1"), some (ascii "CAMPRESET2"), some (ascii "CAMEDITPRESET2"),
    some (ascii "CAMPRESET3"), some (ascii "CAMEDITPRESET3"), some (ascii "CAMPRESET4"),
    some (ascii "CAMEDITPRESET4"), some (ascii "CAMCENTER"), none, some (ascii "CAMSWEEP")]

/-- The name of a camera frame's key (`findCamRemoteName`). The frame starts at its
type byte, and `commandlen` counts from there. -/
def findCamRemoteName (camcommand : Memory) (commandlen : ℕ) : Option Bytes :=
  let checksum := camcommand 1
  let keycode := camcommand 2
  let housecode := (camcommand 3 >>> 4) &&& 0x0f
  if commandlen < 4 ∨ camcommand 0 ≠ 0x14 then none
  else if checksum ≠ (housecode <<< 4) + (keycode - 0x2B) then none
  else if keycode < 0x54 then none
  else (rfcamKeyCodes.getD (keycode.toNat - 0x54) none).map fun name =>
    tableAt houseUnitTableRF housecode.toNat :: 0x20 :: name

/-- The key code of a camera key (`findCamRemoteCommand`). -/
def findCamRemoteCommand (keyname : Bytes) : Option UInt8 :=
  (rfcamKeyCodes.findIdx? fun name => name = some keyname).map fun i => (i + 0x54).toUInt8

/-- Odd parity of a byte (`Paritytable`). -/
def oddParity (b : UInt8) : Bool :=
  (((List.range 8).filter fun i => b.toNat.testBit i).length % 2) = 1

/-! ### encode.c -/

/-- `x10housecode`: the power-line code of a house, and of a unit. -/
def x10housecode : List UInt8 :=
  [0x06, 0x0e, 0x02, 0x0a, 0x01, 0x09, 0x05, 0x0d, 0x07, 0x0f, 0x03, 0x0b, 0x00, 0x08, 0x04, 0x0c]

/-- `x10housecoderf`: the radio code of a house. -/
def x10housecoderf : List UInt8 :=
  [0x06, 0x07, 0x04, 0x05, 0x08, 0x09, 0x0a, 0x0b, 0x0e, 0x0f, 0x0c, 0x0d, 0x00, 0x01, 0x02, 0x03]

/-- `funccommands`: the function tokens, in the order of their codes. -/
def funccommands : List Bytes :=
  [ascii "ALL_UNITS_OFF", ascii "ALL_LIGHTS_ON", ascii "ON", ascii "OFF", ascii "DIM",
    ascii "BRIGHT", ascii "ALL_LIGHTS_OFF", ascii "EXTENDED_CODE_1", ascii "HAIL_REQUEST",
    ascii "HAIL_ACK", ascii "EXTENDED_CODE_3", ascii "UNUSED", ascii "EXTENDED_CODE_2",
    ascii "STATUS_ON", ascii "STATUS_OFF", ascii "STATUS_REQUEST", ascii "XDIM"]

/-- `SecEventNameslongaddr`. -/
def secEventNameslongaddr : List (UInt8 × Bytes) :=
  [(0x0C, ascii "MOTION_ALERT"), (0x8C, ascii "MOTION_NORMAL"), (0x0D, ascii "MOTION_ALERT_LOW"),
    (0x8D, ascii "MOTION_NORMAL_LOW"), (0x04, ascii "CONTACT_ALERT_MIN"),
    (0x84, ascii "CONTACT_NORMAL_MIN"), (0x00, ascii "CONTACT_ALERT_MAX"),
    (0x80, ascii "CONTACT_NORMAL_MAX"), (0x01, ascii "CONTACT_ALERT_MIN_LOW"),
    (0x81, ascii "CONTACT_NORMAL_MIN_LOW"), (0x05, ascii "CONTACT_ALERT_MAX_LOW"),
    (0x85, ascii "CONTACT_NORMAL_MAX_LOW"), (0x06, ascii "ARM"), (0x86, ascii "DISARM"),
    (0x46, ascii "LIGHTS_ON"), (0xC6, ascii "LIGHTS_OFF"), (0x26, ascii "PANIC")]

/-- `SecRemoteKeyNames8bitaddr`. -/
def secRemoteKeyNames8bitaddr : List (UInt8 × Bytes) :=
  [(0x06, ascii "ARM"), (0x0E, ascii "ARM_HOME_MIN"), (0x06, ascii "ARM_AWAY_MIN"),
    (0x0A, ascii "ARM_HOME_MAX"), (0x02, ascii "ARM_AWAY_MAX"), (0x82, ascii "DISARM"),
    (0x22, ascii "PANIC"), (0x42, ascii "LIGHTS_ON"), (0xC2, ascii "LIGHTS_OFF")]

/-- The first entry of a name table with a name. -/
def findFunct (table : List (UInt8 × Bytes)) (name : Bytes) : Option UInt8 :=
  (table.find? fun e => e.2 = name).map (·.1)

/-- `ishouse`. -/
def ishouse (h : UInt8) : Bool := 0x41 ≤ h && h ≤ 0x50

/-! ### The texts of the tables -/

/-- A name of a table prints, if all of them do. -/
theorem printable_findName {table : List (UInt8 × Bytes)} (h : ∀ e ∈ table, Printable e.2)
    (funct : UInt8) : Printable (fmtStr (findName table funct)) := by
  refine printable_fmtStr fun t ht => ?_
  obtain ⟨e, he, rfl⟩ := Option.map_eq_some_iff.mp ht
  exact h e (List.mem_of_find?_eq_some he)

theorem printable_secEventName (secev : UInt8) : Printable (fmtStr (findSecEventName secev)) :=
  printable_findName (by decide) secev

theorem printable_secRemoteKeyName (secev : UInt8) :
    Printable (fmtStr (findSecRemoteKeyName secev)) := printable_findName (by decide) secev

theorem printable_houseUnitTableRF (i : UInt8) (hi : i ≤ 0x0f) :
    0x20 ≤ tableAt houseUnitTableRF i.toNat := by
  revert i
  exact forall_byte (by decide +kernel)

theorem printable_camRemoteName {camcommand : Memory} {commandlen : ℕ} {name : Bytes}
    (h : findCamRemoteName camcommand commandlen = some name) : Printable name := by
  have hnibble : ∀ b : UInt8, (b >>> 4) &&& 0x0f ≤ 0x0f := forall_byte (by decide +kernel)
  have hkeys : ∀ key ∈ rfcamKeyCodes, Printable (key.getD []) := by decide
  simp only [findCamRemoteName] at h
  split at h
  · cases h
  split at h
  · cases h
  split at h
  · cases h
  obtain ⟨key, hkey, rfl⟩ := Option.map_eq_some_iff.mp h
  have hmem : some key ∈ rfcamKeyCodes := by
    rw [List.getD_eq_getElem?_getD] at hkey
    cases hget : rfcamKeyCodes[(camcommand 2).toNat - 0x54]? with
    | none =>
      rw [hget] at hkey
      cases hkey
    | some entry =>
      rw [hget, Option.getD_some] at hkey
      exact hkey ▸ List.mem_of_getElem? hget
  exact printable_cons.mpr ⟨printable_houseUnitTableRF _ (hnibble _),
    printable_cons.mpr ⟨by decide, hkeys _ hmem⟩⟩

/-- The letters of the power-line tables print. -/
theorem printable_hucDecode : ∀ houseunit, 0x20 ≤ (hucDecode houseunit).1 :=
  forall_byte (by decide +kernel)

theorem printable_hfcDecode : ∀ housefunc, 0x20 ≤ (hfcDecode housefunc).1 :=
  forall_byte (by decide +kernel)

example : hucDecode 0x66 = (0x41, 1) := by decide

example : hufcDecode 0x64 0x00 = (0x41, 9, 0) := by decide

end Mochad
