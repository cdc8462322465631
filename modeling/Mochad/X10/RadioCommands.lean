import Mochad.X10.Packets
import Mochad.X10.Radio

/-!
# Radio commands

`RF`, `RFSEC` and `RFCAM` make a frame from what the line names, hand it to the radio
decoder, so that it is reported as an event, and then to the controller. The encoder and the
decoder are two pieces of code; here they are compared, command by command.

They disagree in two places. A Dim or Bright frame has no room for a unit, so a unit that the
line names is neither sent nor reported; and a security address of three bytes is sent with
whatever parity it has, whereas the decoder wants its last two bytes to be even.
-/

namespace Mochad

open X10M (Emits gets modify)

/-! ### What a line names -/

/-- The letter of a house. -/
def houseChar (house : ℤ) : UInt8 := (house + 0x41).toNat.toUInt8

theorem houseIndex_houseChar {house : ℤ} (hh : IsUnit house) :
    houseIndex (houseChar house) = house := by
  have hall : ∀ h : Fin 16, houseIndex (houseChar h) = h := by decide
  obtain ⟨h, hh', rfl⟩ := isUnit_iff.mp hh
  exact hall ⟨h, List.mem_range.mp hh'⟩

/-- **What a radio command names.** -/
inductive RadioCommand
  /-- A house, a unit, or `-1` if there is none, and a function. -/
  | device (house unit func : ℤ)
  | short (address : ℕ) (function : UInt8)
  | long (address : ℕ) (function : UInt8)
  | camera (house : ℤ) (keyname : Bytes)
  deriving DecidableEq

/-- The radio command of a name and its arguments, and the arguments that are left. -/
def radioCommandOf (command : Command) (tokens : List Bytes) :
    Option (RadioCommand × List Bytes) :=
  match command with
  | .rf =>
      let ((house, unit), tokens) := getdeviceaddr tokens
      let (func, tokens) := getfunc tokens
      if house < 0 ∨ rfFuncByte unit func = none then none
      else some (.device house unit func, tokens)
  | .rfsec =>
      match getrfaddr tokens with
      | (none, _) => none
      | (some (rf8bitaddr, rfaddr), tokens) =>
          let (func, tokens) := getrffunc rf8bitaddr tokens
          if func < 0 then none
          else if rf8bitaddr then some (.short rfaddr (lowByte func), tokens)
          else some (.long rfaddr (lowByte func), tokens)
  | .rfcam =>
      let ((house, _), tokens) := getdeviceaddr tokens
      match nextToken tokens with
      | (none, _) => none
      | (some keyname, tokens) =>
          if house < 0 ∨ findCamRemoteCommand keyname = none then none
          else some (.camera house keyname, tokens)
  | _ => none

/-- The radio command of a line. -/
def radioCommand (line : Bytes) : Option (RadioCommand × List Bytes) :=
  (commandOfLine line).bind fun a => radioCommandOf a.1 a.2

namespace RadioCommand

/-- The frame that is made of a command. -/
def frame : RadioCommand → Bytes
  | device house unit func =>
      let hu := houseByte x10housecoderf house ((lowByte unit &&& 0x08) >>> 1)
      let fb := (rfFuncByte unit func).getD 0
      [0xeb, 0x20, hu, ~~~hu, fb, ~~~fb]
  | short address function =>
      [0xEB, 0x20, address.toUInt8, address.toUInt8 ^^^ 0x0f, function, ~~~function]
  | long address function =>
      let addr1 := (address / 65536).toUInt8
      [0xEB, 0x29, addr1, addr1 ^^^ 0x0f, function, ~~~function, (address / 256).toUInt8,
        address.toUInt8]
  | camera house keyname =>
      let h := tableAt x10housecoderf house <<< 4
      let key := (findCamRemoteCommand keyname).getD 0
      [0xeb, 0x14, h + (key - 0x2B), key, h]

/-- **The event that names all that the command names.** -/
def event : RadioCommand → MochadEvent
  | device house unit func =>
      { direction := .tx, transport := .rf, detail := if 0 ≤ unit then .houseUnit else .house,
        house := houseChar house, unit := unit + 1, function := funcnameAt func.toNat }
  | short address function =>
      { direction := .tx, transport := .rfsec, detail := .rfsecShort,
        securityShortAddr := address, function := findSecRemoteKeyName function }
  | long address function =>
      { direction := .tx, transport := .rfsec, detail := .rfsecLong,
        securityLongAddr := ((address / 65536).toUInt8, (address / 256).toUInt8, address.toUInt8),
        function := findSecEventName function }
  | camera house keyname =>
      { direction := .tx, transport := .rfcam, detail := .rfcam,
        cameraCommand := some (houseChar house :: 0x20 :: keyname) }

/-- **Its frame has room for all that it names**: no unit goes with Dim or Bright. -/
def Carried : RadioCommand → Prop
  | device _ unit func => 0 ≤ unit → func = 2 ∨ func = 3
  | _ => True

/-- **Its frame passes the decoder's checks**: the parity of a long address is even. -/
def Checked : RadioCommand → Prop
  | long address _ => oddParity ((address / 256).toUInt8 ^^^ address.toUInt8) = false
  | _ => True

/-- What the decoder reads back, if it does. -/
def readBack : RadioCommand → RfFrame
  | device house unit func =>
      if func < 4 then .switch (houseChar house) (unit.toNat + 1) (func - 2).toNat
      else .dim (houseChar house) (func - 2).toNat
  | short address function => .short address.toUInt8 function
  | long address function =>
      .long ((address / 65536).toUInt8, (address / 256).toUInt8, address.toUInt8) function
  | camera house keyname => .camera (houseChar house :: 0x20 :: keyname)

/-- What the arguments of a command can be. -/
def Valid : RadioCommand → Prop
  | device house unit func => IsUnit house ∧
      ((func = 2 ∨ func = 3) ∧ IsUnit unit ∨ (func = 4 ∨ func = 5) ∧ (unit = -1 ∨ IsUnit unit))
  | short address _ => address < 256
  | long _ _ => True
  | camera house keyname => IsUnit house ∧ findCamRemoteCommand keyname ≠ none

end RadioCommand

/-- A short address is a byte. -/
theorem getrfaddr_bounds {tokens rest : List Bytes} {rfaddr : ℕ}
    (h : getrfaddr tokens = (some (true, rfaddr), rest)) : rfaddr < 256 := by
  simp only [getrfaddr, nextToken, Prod.mk.injEq] at h
  obtain ⟨haddr, -⟩ := h
  split at haddr
  · cases haddr
  split at haddr
  · split at haddr
    · cases haddr
    split at haddr
    · cases haddr
    · simp only [Option.some.injEq, Prod.mk.injEq, true_and] at haddr
      omega
  · obtain ⟨_, _, hlong⟩ := Option.map_eq_some_iff.mp haddr
    simp at hlong

theorem rfFuncByte_bounds {unit func : ℤ} (h : rfFuncByte unit func ≠ none) :
    (func = 2 ∨ func = 3) ∧ ¬unit < 0 ∨ (func = 4 ∨ func = 5) := by
  simp only [rfFuncByte] at h
  split at h
  · split at h
    · exact absurd rfl h
    · omega
  split at h
  · split at h
    · exact absurd rfl h
    · omega
  split at h
  · omega
  split at h
  · omega
  · exact absurd rfl h

/-- **The arguments of a command are what they can be.** -/
theorem radioCommandOf_valid {command : Command} {tokens rest : List Bytes} {cmd : RadioCommand}
    (h : radioCommandOf command tokens = some (cmd, rest)) : cmd.Valid := by
  rw [radioCommandOf.eq_def] at h
  split at h
  · rcases haddr : getdeviceaddr tokens with ⟨⟨house, unit⟩, tokens'⟩
    simp only [haddr] at h
    split at h
    · cases h
    next hok =>
      obtain ⟨rfl, -⟩ := Prod.mk.inj (Option.some.inj h)
      obtain ⟨hhouse, hfunc⟩ := not_or.mp hok
      obtain ⟨hh, hu⟩ := getdeviceaddr_bounds haddr hhouse
      refine ⟨hh, ?_⟩
      rcases rfFuncByte_bounds hfunc with ⟨hf, hunit⟩ | hf
      · exact Or.inl ⟨hf, hu.resolve_left (by omega)⟩
      · exact Or.inr ⟨hf, hu⟩
  · split at h
    · cases h
    next rf8bitaddr rfaddr tokens' haddr =>
      rcases hfunc : getrffunc rf8bitaddr tokens' with ⟨func, tokens''⟩
      simp only [hfunc] at h
      split at h
      · cases h
      split at h
      next hshort =>
        obtain ⟨rfl, -⟩ := Prod.mk.inj (Option.some.inj h)
        rw [hshort] at haddr
        exact getrfaddr_bounds haddr
      · obtain ⟨rfl, -⟩ := Prod.mk.inj (Option.some.inj h)
        trivial
  · rcases haddr : getdeviceaddr tokens with ⟨⟨house, unit⟩, tokens'⟩
    simp only [haddr] at h
    split at h
    · cases h
    · split at h
      · cases h
      next hok =>
        obtain ⟨rfl, -⟩ := Prod.mk.inj (Option.some.inj h)
        obtain ⟨hhouse, hkey⟩ := not_or.mp hok
        exact ⟨(getdeviceaddr_bounds haddr hhouse).1, hkey⟩
  · cases h

/-! ### What a line does -/

variable {c : Ctx} {relay : ℤ → Bytes → X10M Unit} {fd : ℤ}

/-- **A radio command makes its frame.** -/
theorem runCommand_of_radioCommandOf {command : Command} {tokens rest : List Bytes}
    {cmd : RadioCommand} (h : radioCommandOf command tokens = some (cmd, rest)) :
    runCommand c relay fd command tokens = (do
      or20ok c fd
      rfTx c.env relay cmd.frame
      pure (.rest rest)) := by
  rw [radioCommandOf.eq_def] at h
  split at h
  · rcases haddr : getdeviceaddr tokens with ⟨⟨house, unit⟩, tokens'⟩
    rcases hfunc : getfunc tokens' with ⟨func, tokens''⟩
    simp only [haddr, hfunc] at h
    split at h
    · cases h
    next hok =>
      obtain ⟨rfl, rfl⟩ := Prod.mk.inj (Option.some.inj h)
      obtain ⟨hhouse, hbyte⟩ := not_or.mp hok
      have hneg : ¬func < 0 := by
        rcases rfFuncByte_bounds hbyte with ⟨hf, _⟩ | hf
        · omega
        · omega
      obtain ⟨fb, hfb⟩ := Option.ne_none_iff_exists'.mp hbyte
      simp only [runCommand, rfCommand, haddr, hfunc, if_neg hhouse, if_neg hneg,
        rfTxHouseunitfunc, hfb, RadioCommand.frame, Option.getD_some]
  · split at h
    · cases h
    next rf8bitaddr rfaddr tokens' haddr =>
      rcases hfunc : getrffunc rf8bitaddr tokens' with ⟨func, tokens''⟩
      simp only [hfunc] at h
      split at h
      · cases h
      next hneg =>
        split at h
        next hshort =>
          obtain ⟨rfl, rfl⟩ := Prod.mk.inj (Option.some.inj h)
          simp only [runCommand, rfsecCommand, haddr, hfunc, if_neg hneg, rfsecTx, if_pos hshort,
            RadioCommand.frame]
        next hlong =>
          obtain ⟨rfl, rfl⟩ := Prod.mk.inj (Option.some.inj h)
          simp only [runCommand, rfsecCommand, haddr, hfunc, if_neg hneg, rfsecTx, if_neg hlong,
            RadioCommand.frame]
  · rcases haddr : getdeviceaddr tokens with ⟨⟨house, unit⟩, tokens'⟩
    rcases hkey : nextToken tokens' with ⟨parm, tokens''⟩
    simp only [haddr, hkey] at h
    cases parm with
    | none => cases h
    | some keyname =>
      dsimp only at h
      split at h
      · cases h
      next hok =>
        obtain ⟨rfl, rfl⟩ := Prod.mk.inj (Option.some.inj h)
        obtain ⟨hhouse, hname⟩ := not_or.mp hok
        obtain ⟨key, hcode⟩ := Option.ne_none_iff_exists'.mp hname
        simp only [runCommand, rfcamCommand, haddr, hkey, if_neg hhouse, hcode,
          RadioCommand.frame, Option.getD_some]
  · cases h

/-- The key of a camera that is refused is named. -/
def refuseKey (fd : ℤ) : Option Bytes → X10M Unit
  | none => pure ()
  | some arg => sockprintf fd (ascii "Invalid command " ++ arg ++ ascii "\n\r")

/-- **Any other line of these commands makes none.** -/
theorem runCommand_of_radioCommandOf_eq_none (c : Ctx) (relay : ℤ → Bytes → X10M Unit) (fd : ℤ)
    {command : Command} {tokens : List Bytes}
    (hcommand : command = .rf ∨ command = .rfsec ∨ command = .rfcam)
    (h : radioCommandOf command tokens = none) :
    ∃ key flow, runCommand c relay fd command tokens = (do
      or20ok c fd
      refuseKey fd key
      pure flow) := by
  rcases hcommand with rfl | rfl | rfl
  · rcases haddr : getdeviceaddr tokens with ⟨⟨house, unit⟩, tokens'⟩
    rcases hfunc : getfunc tokens' with ⟨func, tokens''⟩
    simp only [radioCommandOf, haddr, hfunc, ite_eq_left_iff, reduceCtorEq, imp_false, not_not] at h
    simp only [runCommand, rfCommand, haddr, hfunc]
    by_cases hhouse : house < 0
    · exact ⟨none, .ret (-1), by rw [if_pos hhouse]; rfl⟩
    by_cases hneg : func < 0
    · exact ⟨none, .ret (-1), by rw [if_neg hhouse, if_pos hneg]; rfl⟩
    · refine ⟨none, .rest tokens'', ?_⟩
      rw [if_neg hhouse, if_neg hneg]
      simp only [rfTxHouseunitfunc, h.resolve_left hhouse, ite_self]
      rfl
  · rcases haddr : getrfaddr tokens with ⟨address, tokens'⟩
    simp only [runCommand, rfsecCommand, haddr]
    simp only [radioCommandOf, haddr] at h
    cases address with
    | none => exact ⟨none, .ret (-1), rfl⟩
    | some address =>
      obtain ⟨rf8bitaddr, rfaddr⟩ := address
      rcases hfunc : getrffunc rf8bitaddr tokens' with ⟨func, tokens''⟩
      simp only [hfunc] at h ⊢
      split at h
      next hneg =>
        simp only [if_pos hneg]
        exact ⟨none, .ret (-1), rfl⟩
      · split at h
        · cases h
        · cases h
  · rcases haddr : getdeviceaddr tokens with ⟨⟨house, unit⟩, tokens'⟩
    rcases hkey : nextToken tokens' with ⟨parm, tokens''⟩
    simp only [radioCommandOf, haddr, hkey] at h
    simp only [runCommand, rfcamCommand, haddr, hkey]
    by_cases hhouse : house < 0
    · exact ⟨none, .ret (-1), by rw [if_pos hhouse]; rfl⟩
    · rw [if_neg hhouse]
      cases parm with
      | none => exact ⟨none, .ret (-1), rfl⟩
      | some keyname =>
        simp only [hhouse, false_or, ite_eq_left_iff, reduceCtorEq, imp_false, not_not] at h
        simp only [h]
        exact ⟨some keyname, .rest tokens'', rfl⟩

/-- **Any other line of these commands has no effect.** -/
theorem inert_of_radioCommandOf_eq_none {command : Command} {tokens : List Bytes}
    (hcommand : command = .rf ∨ command = .rfsec ∨ command = .rfcam)
    (h : radioCommandOf command tokens = none) :
    Inert (runCommand c relay fd command tokens) := by
  obtain ⟨key, flow, hrun⟩ := runCommand_of_radioCommandOf_eq_none c relay fd hcommand h
  rw [hrun]
  refine (Inert.or20ok c fd).bind fun _ => Inert.bind ?_ fun _ => Inert.pure _
  cases key with
  | none => exact Inert.pure _
  | some arg => exact Inert.sockprintf _ _

/-! ### What its own decoder makes of a frame -/

theorem xor_not : ∀ b : UInt8, b ^^^ ~~~b = 0xff := forall_byte (by decide +kernel)

theorem xor_xor_self (b v : UInt8) : b ^^^ (b ^^^ v) = v := by
  rw [← UInt8.xor_assoc, UInt8.xor_self, UInt8.zero_xor]

theorem Memory.take_ofBytes (bs : Bytes) (rest : Memory) :
    (Memory.ofBytes bs rest).take bs.length = bs := by
  refine List.ext_getElem (by simp [Memory.take]) fun i hi hi' => ?_
  simp [Memory.take, Memory.ofBytes, hi']

/-- A frame with standard check bytes. -/
theorem rfFrame_standard (hu fb : UInt8) (rest : Memory) :
    rfFrame (Memory.ofBytes [0xeb, 0x20, hu, ~~~hu, fb, ~~~fb] rest) 6 =
      let (housechar, unit, func) := hufcDecode hu fb
      some (if 1 < func then .dim housechar func else .switch housechar unit func) := by
  show (if hu ^^^ ~~~hu = 0x0f then _ else if hu ^^^ ~~~hu = 0xff then
    (if fb ^^^ ~~~fb ≠ 0xff ∧ fb ^^^ ~~~fb ≠ 0xfb then _ else _) else _) = _
  rw [xor_not, xor_not]
  rfl

theorem rfFrame_of_long {buf : Memory} (hbuf : buf 1 = 0x29) : rfFrame buf 8 =
    match secafDecode buf 8 with
    | .ok (secaddr, funcint) => some (.long secaddr funcint)
    | .error _ => none := by
  rw [rfFrame, if_neg (by decide), if_neg (by rw [hbuf]; decide), if_neg (by rw [hbuf]; decide)]
  exact if_pos hbuf

theorem rfFrame_short (address function : UInt8) (rest : Memory) :
    rfFrame (Memory.ofBytes [0xEB, 0x20, address, address ^^^ 0x0f, function, ~~~function] rest) 6 =
      some (.short address function) := by
  show (if address ^^^ (address ^^^ 0x0f) = 0x0f then
    (if function ^^^ ~~~function ≠ 0xff then _ else _) else _) = _
  rw [xor_not, xor_xor_self]
  rfl

/-- A security frame with a long address, which has a parity to keep. -/
theorem secafDecode_long (a₁ a₂ a₃ function : UInt8) (rest : Memory) :
    secafDecode (Memory.ofBytes [0xEB, 0x29, a₁, a₁ ^^^ 0x0f, function, ~~~function, a₂, a₃] rest) 8 =
      if oddParity (a₂ ^^^ a₃) then .error (-2) else .ok ((a₁, a₂, a₃), function) := by
  show (if a₁ ^^^ (a₁ ^^^ 0x0f) ≠ 0x0f ∨ function ^^^ ~~~function ≠ 0xff then _ else _) = _
  rw [xor_not, xor_xor_self]
  rfl

/-- The house and the function that a standard frame is made of are read back, and its unit if it
is an On or an Off. -/
theorem hufcDecode_switch {house unit : ℤ} (hh : IsUnit house) (hu : IsUnit unit) (off : Bool) :
    hufcDecode (houseByte x10housecoderf house ((lowByte unit &&& 0x08) >>> 1))
        ((rfFuncByte unit (if off then 3 else 2)).getD 0) =
      (houseChar house, unit.toNat + 1, off.toNat) := by
  have hall : ∀ h u : Fin 16, ∀ off : Bool,
      hufcDecode (houseByte x10housecoderf h ((lowByte u &&& 0x08) >>> 1))
          ((rfFuncByte u (if off then 3 else 2)).getD 0) = (houseChar h, u.val + 1, off.toNat) := by
    decide +kernel
  obtain ⟨h, hh', rfl⟩ := isUnit_iff.mp hh
  obtain ⟨u, hu', rfl⟩ := isUnit_iff.mp hu
  exact hall ⟨h, List.mem_range.mp hh'⟩ ⟨u, List.mem_range.mp hu'⟩ off

theorem hufcDecode_dim {house unit : ℤ} (hh : IsUnit house) (hu : unit = -1 ∨ IsUnit unit)
    (bright : Bool) :
    hufcDecode (houseByte x10housecoderf house ((lowByte unit &&& 0x08) >>> 1))
        ((rfFuncByte unit (if bright then 5 else 4)).getD 0) =
      (houseChar house, 0, bright.toNat + 2) := by
  have hnone : ∀ h : Fin 16, ∀ bright : Bool,
      hufcDecode (houseByte x10housecoderf h ((lowByte (-1) &&& 0x08) >>> 1))
          ((rfFuncByte (-1) (if bright then 5 else 4)).getD 0) =
        (houseChar h, 0, bright.toNat + 2) := by
    decide +kernel
  have hsome : ∀ h u : Fin 16, ∀ bright : Bool,
      hufcDecode (houseByte x10housecoderf h ((lowByte u &&& 0x08) >>> 1))
          ((rfFuncByte u (if bright then 5 else 4)).getD 0) =
        (houseChar h, 0, bright.toNat + 2) := by
    decide +kernel
  obtain ⟨h, hh', rfl⟩ := isUnit_iff.mp hh
  rcases hu with rfl | hu
  · exact hnone ⟨h, List.mem_range.mp hh'⟩ bright
  · obtain ⟨u, hu', rfl⟩ := isUnit_iff.mp hu
    exact hsome ⟨h, List.mem_range.mp hh'⟩ ⟨u, List.mem_range.mp hu'⟩ bright

/-- The key of a camera is read back. -/
theorem findCamRemoteName_camera {house : ℤ} (hh : IsUnit house) {keyname : Bytes} {key : UInt8}
    (hkey : findCamRemoteCommand keyname = some key) (rest : Memory) :
    rfFrame (Memory.ofBytes [0xeb, 0x14, (tableAt x10housecoderf house <<< 4) + (key - 0x2B), key,
        tableAt x10housecoderf house <<< 4] rest) 5 =
      some (.camera (houseChar house :: 0x20 :: keyname)) := by
  have hhouse : ∀ h : Fin 16,
      (((tableAt x10housecoderf h <<< 4) >>> 4) &&& 0x0f) <<< 4 = tableAt x10housecoderf h <<< 4 ∧
        tableAt houseUnitTableRF
          (((tableAt x10housecoderf h <<< 4) >>> 4) &&& 0x0f).toNat = houseChar h := by
    decide +kernel
  obtain ⟨h, hh', rfl⟩ := isUnit_iff.mp hh
  obtain ⟨hbyte, hletter⟩ := hhouse ⟨h, List.mem_range.mp hh'⟩
  obtain ⟨i, hfound, hcode⟩ := Option.map_eq_some_iff.mp hkey
  obtain ⟨hi, hname, -⟩ := List.findIdx?_eq_some_iff_getElem.mp hfound
  have hindex : ∀ i : Fin 27, ¬(i + 0x54 : ℕ).toUInt8 < 0x54 ∧
      (i + 0x54 : ℕ).toUInt8.toNat - 0x54 = i := by
    decide
  obtain ⟨hlow, hback⟩ := hindex ⟨i, hi⟩
  simp only [hcode] at hlow hback
  have hentry : rfcamKeyCodes.getD (key.toNat - 0x54) none = some keyname := by
    rw [hback, List.getD_eq_getElem?_getD, List.getElem?_eq_getElem hi, Option.getD_some]
    exact of_decide_eq_true hname
  generalize tableAt x10housecoderf h <<< 4 = byte at hbyte hletter
  show Option.map RfFrame.camera (if byte + (key - 0x2B) ≠
    ((byte >>> (4 : UInt8) &&& 0x0f) <<< (4 : UInt8)) + (key - 0x2B) then none
    else if key < 0x54 then none else Option.map _ (rfcamKeyCodes.getD (key.toNat - 0x54) none)) = _
  rw [hbyte, if_neg (not_not.mpr rfl), if_neg hlow, hentry]
  exact congrArg (fun letter => some (RfFrame.camera (letter :: 0x20 :: keyname))) hletter

/-- **A frame that passes the checks is read back.** -/
theorem rfFrame_frame {cmd : RadioCommand} (hvalid : cmd.Valid) (hchecked : cmd.Checked)
    (rest : Memory) :
    rfFrame (Memory.ofBytes cmd.frame rest) cmd.frame.length = some cmd.readBack := by
  cases cmd with
  | device house unit func =>
    obtain ⟨hh, hfunc⟩ := hvalid
    refine (rfFrame_standard _ _ rest).trans ?_
    rcases hfunc with ⟨rfl | rfl, hu⟩ | ⟨rfl | rfl, hu⟩
    · rw [show (2 : ℤ) = if false then 3 else 2 from rfl, hufcDecode_switch hh hu]
      rfl
    · rw [show (3 : ℤ) = if true then 3 else 2 from rfl, hufcDecode_switch hh hu]
      rfl
    · rw [show (4 : ℤ) = if false then 5 else 4 from rfl, hufcDecode_dim hh hu]
      rfl
    · rw [show (5 : ℤ) = if true then 5 else 4 from rfl, hufcDecode_dim hh hu]
      rfl
  | short address function => exact rfFrame_short _ _ rest
  | long address function =>
    have hsec := secafDecode_long (address / 65536).toUInt8 (address / 256).toUInt8 address.toUInt8
      function rest
    rw [if_neg (by rw [hchecked]; decide)] at hsec
    refine (rfFrame_of_long rfl).trans ?_
    rw [RadioCommand.frame, hsec]
    rfl
  | camera house keyname =>
    obtain ⟨hh, hkey⟩ := hvalid
    obtain ⟨key, hcode⟩ := Option.ne_none_iff_exists'.mp hkey
    have hread := findCamRemoteName_camera hh hcode rest
    simp only [RadioCommand.frame, hcode, Option.getD_some]
    exact hread

/-- **What is reported is what the command names**, if the frame carries it all. -/
theorem event_readBack {cmd : RadioCommand} (hvalid : cmd.Valid) (hcarried : cmd.Carried) :
    cmd.readBack.event 0xeb = cmd.event := by
  cases cmd with
  | device house unit func =>
    obtain ⟨hh, hfunc⟩ := hvalid
    rcases hfunc with ⟨hf, hu⟩ | ⟨hf, hu⟩
    · have hnonneg : 0 ≤ unit := hu.1
      have hunit : ((unit.toNat + 1 : ℕ) : ℤ) = unit + 1 := by omega
      rcases hf with rfl | rfl
      · simp only [RadioCommand.readBack, RadioCommand.event, RfFrame.event, if_pos hnonneg]
        rw [← hunit]
        rfl
      · simp only [RadioCommand.readBack, RadioCommand.event, RfFrame.event, if_pos hnonneg]
        rw [← hunit]
        rfl
    · have hnone : unit = -1 := by
        rcases hu with hnone | hsome
        · exact hnone
        · have hfunc := hcarried hsome.1
          omega
      subst hnone
      rcases hf with rfl | rfl
      · rfl
      · rfl
  | short address function =>
    have haddr : address.toUInt8.toNat = address := Nat.mod_eq_of_lt hvalid
    simp only [RadioCommand.readBack, RadioCommand.event, RfFrame.event, haddr]
    rfl
  | long address function => rfl
  | camera house keyname => rfl

/-- A unit that goes with Dim or Bright is not reported. -/
theorem legacyBody_readBack_ne {cmd : RadioCommand} (hvalid : cmd.Valid) (hcarried : ¬cmd.Carried) :
    legacyBody (cmd.readBack.event 0xeb) ≠ legacyBody cmd.event := by
  cases cmd with
  | device house unit func =>
    simp only [RadioCommand.Carried, Classical.not_imp, not_or] at hcarried
    obtain ⟨hnonneg, htwo, hthree⟩ := hcarried
    have hdim : ¬func < 4 := by
      obtain ⟨hh, ⟨hf, _⟩ | ⟨hf, _⟩⟩ := hvalid
      · omega
      · omega
    -- the texts part after "House"
    have hread : (legacyBody ((RadioCommand.device house unit func).readBack.event 0xeb)).take 12 =
        ascii "Tx RF House:" := by
      rw [RadioCommand.readBack, if_neg hdim]
      rfl
    have hnamed : (legacyBody (RadioCommand.device house unit func).event).take 12 =
        ascii "Tx RF HouseU" := by
      rw [RadioCommand.event, if_pos hnonneg]
      simp only [legacyBody, Bool.false_eq_true, if_false]
      split
      · rfl
      · rfl
    intro heq
    rw [heq, hnamed] at hread
    exact absurd hread (by decide)
  | short | long | camera => exact absurd trivial hcarried

/-! ### The texts of radio events -/

/-- The names of functions are short. -/
theorem length_names (function : UInt8) : (fmtStr (findSecRemoteKeyName function)).length < 40 ∧
    (fmtStr (findSecEventName function)).length < 40 := by
  revert function
  exact forall_byte (by decide +kernel)

/-- **The text of what is read back fits the buffer.** -/
theorem length_legacyBody_readBack {cmd : RadioCommand} (hvalid : cmd.Valid) :
    (legacyBody (cmd.readBack.event 0xeb)).length < 256 := by
  cases cmd with
  | device house unit func =>
    obtain ⟨hh, hfunc⟩ := hvalid
    obtain ⟨h, hh', rfl⟩ := isUnit_iff.mp hh
    have hswitch : ∀ h u : Fin 16, ∀ off : Bool, (legacyBody
        ((RfFrame.switch (houseChar h) (u + 1) off.toNat).event 0xeb)).length < 256 := by
      decide +kernel
    have hdim : ∀ h : Fin 16, ∀ bright : Bool, (legacyBody
        ((RfFrame.dim (houseChar h) (bright.toNat + 2)).event 0xeb)).length < 256 := by
      decide +kernel
    rcases hfunc with ⟨hf, hu⟩ | ⟨hf, hu⟩
    · obtain ⟨u, hu', rfl⟩ := isUnit_iff.mp hu
      rcases hf with rfl | rfl
      · exact hswitch ⟨h, List.mem_range.mp hh'⟩ ⟨u, List.mem_range.mp hu'⟩ false
      · exact hswitch ⟨h, List.mem_range.mp hh'⟩ ⟨u, List.mem_range.mp hu'⟩ true
    · rcases hf with rfl | rfl
      · exact hdim ⟨h, List.mem_range.mp hh'⟩ false
      · exact hdim ⟨h, List.mem_range.mp hh'⟩ true
  | short address function =>
    have hname := (length_names function).1
    have haddr := length_fmtHex2 address.toUInt8
    simp only [legacyBody, RadioCommand.readBack, RfFrame.event, List.length_append, haddr]
    have hfixed : (directionLabel (rfDirection 0xeb)).length + (ascii " ").length +
        (transportLabel .rfsec).length + (ascii " Addr: 0x").length + (ascii " Func: ").length ≤ 40 := by
      decide
    omega
  | long address function =>
    have hname := (length_names function).2
    simp only [legacyBody, RadioCommand.readBack, RfFrame.event, List.length_append, length_fmtHex2]
    have hfixed : (directionLabel (rfDirection 0xeb)).length + (ascii " ").length +
        (transportLabel .rfsec).length + (ascii " Addr: ").length + (ascii ":").length +
        (ascii ":").length + (ascii " Func: ").length ≤ 40 := by
      decide
    omega
  | camera house keyname =>
    obtain ⟨key, hcode⟩ := Option.ne_none_iff_exists'.mp hvalid.2
    obtain ⟨i, hfound, -⟩ := Option.map_eq_some_iff.mp hcode
    obtain ⟨hi, hname, -⟩ := List.findIdx?_eq_some_iff_getElem.mp hfound
    have hkeys : ∀ name ∈ rfcamKeyCodes, (name.getD []).length < 40 := by decide
    have hlength := hkeys _ (List.getElem_mem hi)
    rw [of_decide_eq_true hname, Option.getD_some] at hlength
    simp only [legacyBody, RadioCommand.readBack, RfFrame.event, List.length_append, fmtStr,
      List.length_cons]
    have hfixed : (directionLabel (rfDirection 0xeb)).length + (ascii " ").length +
        (transportLabel .rfcam).length + (ascii " ").length ≤ 40 := by
      decide
    omega

/-! ### The events of a command -/

/-- The transmitted radio events among the lines that are printed to all. -/
def radioEvents (es : List Effect) : List Bytes :=
  es.filterMap fun e =>
    match e with
    | .sockprintf fd text => if fd = -1 ∧ ascii "Tx RF" <+: text then some text else none
    | _ => none

@[simp] theorem radioEvents_append (es es' : List Effect) :
    radioEvents (es ++ es') = radioEvents es ++ radioEvents es' := List.filterMap_append

/-- A call that reports no transmitted radio event. -/
def Effect.OffAir (e : Effect) : Prop := radioEvents [e] = []

theorem radioEvents_eq_nil {α : Type} {m : X10M α} (h : Emits Effect.OffAir m) (s : X10State) :
    radioEvents (m s).effects = [] := by
  refine List.filterMap_eq_nil_iff.mpr fun e he => ?_
  exact List.filterMap_eq_nil_iff.mp (h s e he) e (List.mem_singleton_self e)

theorem offAir_sockprintf {fd : ℤ} {text : Bytes} (h : ¬ascii "Tx RF" <+: text) :
    Effect.OffAir (.sockprintf fd text) := by
  simp only [Effect.OffAir, radioEvents, List.filterMap_cons, h, and_false, if_false,
    List.filterMap_nil]

theorem offAir_or20ok (c : Ctx) (fd : ℤ) : Emits Effect.OffAir (or20ok c fd) :=
  Emits.ite (Emits.call rfl) (Emits.pure _)

/-- The text of an event begins with its direction and its transport. -/
theorem legacyBody_head (e : MochadEvent) : ∃ rest, legacyBody e =
    directionLabel e.direction ++ ascii " " ++ transportLabel e.transport ++ rest := by
  simp only [legacyBody, List.append_assoc]
  cases e.detail with
  | houseUnit =>
    dsimp only
    split_ifs
    all_goals exact ⟨_, rfl⟩
  | house =>
    dsimp only
    split_ifs
    all_goals exact ⟨_, rfl⟩
  | rfsecShort | rfsecLong | rfcam => exact ⟨_, rfl⟩

/-- An event of the power line. -/
theorem offAir_dispatch {e : MochadEvent} (h : e.transport = .pl) :
    Emits Effect.OffAir (mochadDispatchEvent fd e) := by
  rw [mochadDispatchEvent, mochadEventFormatLegacyBody, checkedSnprintf]
  obtain ⟨rest, hbody⟩ := legacyBody_head e
  split
  · exact Emits.pure _
  next body hformat =>
    refine Emits.call (offAir_sockprintf fun hprefix => ?_)
    split at hformat
    · obtain rfl := Option.some.inj hformat
      rw [hbody, h, List.append_assoc] at hprefix
      have htake := List.prefix_iff_eq_take.mp hprefix
      cases hd : e.direction with
      | rx =>
        rw [hd] at htake
        have hsame : ascii "Tx RF" = ascii "Rx PL" := htake
        exact absurd hsame (by decide)
      | tx =>
        rw [hd] at htake
        have hsame : ascii "Tx RF" = ascii "Tx PL" := htake
        exact absurd hsame (by decide)
    · cases hformat

/-- **What is relayed** is not radio. -/
theorem offAir_processDepth (c : Ctx) {line : Bytes} (h : IsPl line) :
    Emits Effect.OffAir (processDepth c 1 (-1) line) := by
  have hinvalid : ∀ why, Effect.OffAir (.sockprintf (-1) (ascii "Invalid command: " ++ why)) := by
    refine fun why => offAir_sockprintf fun hprefix => ?_
    have hsame : ascii "Tx RF" = ascii "Inval" := List.prefix_iff_eq_take.mp hprefix
    exact absurd hsame (by decide)
  exact emits_processWith_pl_of (emits_decodePlc_of fun _ h _ => offAir_dispatch h) (fun _ => rfl) c
    (offAir_or20ok c (-1)) hinvalid _ h

/-- What a command leaves is none of the radio's business. -/
theorem offAir_finish (fd : ℤ) (flow : Flow) : Emits Effect.OffAir (finish fd flow) := by
  rw [finish.eq_def]
  split
  · exact Emits.pure _
  · exact Emits.pure _
  · exact Emits.bind (Emits.call (offAir_sockprintf (by decide))) fun _ => Emits.pure _

/-- What a frame is sent on as is a power-line command. -/
theorem RfFrame.isPl_line {frame : RfFrame} {housechar : UInt8} {line : Bytes}
    (h : frame.line = some (housechar, line)) : IsPl line := by
  cases frame with
  | camera | short | long => cases h
  | dim housechar func =>
    obtain ⟨-, rfl⟩ := Prod.mk.inj (Option.some.inj h)
    exact ⟨[housechar] ++ ascii " " ++ fmtStr (funcnameAt (func + 2)), by simp only [List.append_assoc]⟩
  | switch housechar unit func =>
    obtain ⟨-, rfl⟩ := Prod.mk.inj (Option.some.inj h)
    exact ⟨[housechar] ++ fmtNat unit ++ ascii " " ++ fmtStr (funcnameAt (func + 2)),
      by simp only [List.append_assoc]⟩

/-- **What a frame that is acted upon calls.** -/
theorem emits_sendOn {P : Effect → Prop} (env : Env) (frame : RfFrame)
    (hrelay : ∀ line, IsPl line → Emits P (relay fd line)) :
    Emits P (frame.sendOn env relay fd) := by
  rw [RfFrame.sendOn]
  cases hline : frame.line with
  | none => exact Emits.pure _
  | some a =>
    obtain ⟨house, line⟩ := a
    exact (Emits.gets _).bind fun on => Emits.ite (hrelay line (RfFrame.isPl_line hline)) (Emits.pure _)

theorem emits_update {P : Effect → Prop} (env : Env) (frame : RfFrame) :
    Emits P (frame.update env) := by
  cases frame with
  | camera | dim => exact Emits.pure _
  | short address function => exact emits_huaSecEvent env _ _ _
  | long address function => exact emits_huaSecEvent env _ _ _
  | switch housechar unit func => exact (Emits.modify _).bind fun _ => Emits.modify _

theorem emits_repeatRF_of {P : Effect → Prop} (env : Env)
    (hsaid : P (.sockprintf fd (ascii "RfToRf repeat\n"))) (hwrite : ∀ buf, P (.x10Write buf))
    (buf : Memory) (len : ℕ) : Emits P (repeatRF env fd buf len) := by
  refine (Emits.gets _).bind fun mask => Emits.ite ?_ (Emits.pure _)
  exact Emits.bind (Emits.call hsaid) fun _ => Emits.call (hwrite _)

/-- **A frame that is acted upon is reported once.** -/
theorem radioEvents_act {env : Env} {frame : RfFrame} {buf : Memory} {len : ℕ}
    (hrelay : ∀ line, IsPl line → Emits Effect.OffAir (relay (-1) line))
    (hmarker : buf 0 = 0xeb) (hlen : (legacyBody (frame.event 0xeb)).length < 256) (s : X10State) :
    radioEvents (frame.act env relay (-1) buf len s).effects =
      [legacyBody (frame.event 0xeb) ++ ascii "\n"] := by
  have hair : ascii "Tx RF" <+: legacyBody (frame.event 0xeb) ++ ascii "\n" := by
    obtain ⟨rest, hbody⟩ := legacyBody_head (frame.event 0xeb)
    rw [hbody, List.append_assoc]
    cases frame
    all_goals exact ⟨_, rfl⟩
  have hdispatch : mochadDispatchEvent (-1) (frame.event 0xeb) =
      sockprintf (-1) (legacyBody (frame.event 0xeb) ++ ascii "\n") := by
    rw [mochadDispatchEvent, mochadEventFormatLegacyBody, checkedSnprintf, if_pos hlen]
  have hrepeat : Emits Effect.OffAir (repeatRF env (-1) buf len) :=
    emits_repeatRF_of env (offAir_sockprintf (by decide)) (fun _ => rfl) buf len
  simp only [RfFrame.act, hmarker, hdispatch, X10M.bind_apply, radioEvents_append,
    radioEvents_eq_nil (emits_update env frame), radioEvents_eq_nil hrepeat,
    radioEvents_eq_nil (emits_sendOn env frame hrelay), List.nil_append, List.append_nil]
  simp only [sockprintf, X10M.call_apply, radioEvents, List.filterMap_cons, hair, and_self,
    if_true, List.filterMap_nil]

/-! ### Encoder and decoder -/

/-- **A radio command**, as a whole. -/
theorem processcommandline_radio {line : Bytes} {command : Command} {tokens rest : List Bytes}
    {cmd : RadioCommand} (hline : commandOfLine line = some (command, tokens))
    (hcmd : radioCommandOf command tokens = some (cmd, rest)) :
    processcommandline c fd line = (do
      or20ok c fd
      rfTx c.env (relayTo c) cmd.frame
      finish fd (.rest rest)) := by
  simp only [processcommandline_of_line hline, runCommand_of_radioCommandOf hcmd, bind_assoc,
    pure_bind]

theorem trimMarkers_of_le {buf : Memory} {len : ℕ} (h : len ≤ 8) :
    trimMarkers buf len = (buf, len) := by
  cases len with
  | zero => rfl
  | succ len => rw [trimMarkers, if_neg fun hlong => absurd hlong.1 (by omega)]

theorem RadioCommand.length_frame (cmd : RadioCommand) : cmd.frame.length ≤ 8 := by
  cases cmd
  all_goals simp [RadioCommand.frame]

theorem RadioCommand.marker_frame (cmd : RadioCommand) (rest : Memory) :
    Memory.ofBytes cmd.frame rest 0 = 0xeb := by
  cases cmd
  all_goals rfl

/-- A frame that is not held back is reported once, as what the decoder reads back. -/
theorem radioEvents_decodeRf {cmd : RadioCommand} (hvalid : cmd.Valid) (hchecked : cmd.Checked)
    {s : X10State} (hheld : heldBack c.env cmd.frame s = false) :
    radioEvents (cm15aDecodeRf c.env (relayTo c) (-1) (Memory.ofBytes cmd.frame c.env.stack)
        cmd.frame.length s).effects =
      [legacyBody (cmd.readBack.event 0xeb) ++ ascii "\n"] := by
  have hrelay : ∀ line, IsPl line → Emits Effect.OffAir (relayTo c (-1) line) :=
    fun line hpl => (offAir_processDepth c hpl).bind fun _ => Emits.pure _
  obtain ⟨dups, n, happly⟩ := cm15aDecodeRf_apply c.env (relayTo c) (-1)
    (trimMarkers_of_le cmd.length_frame) (rfFrame_frame hvalid hchecked c.env.stack) s
  rw [happly, Memory.take_ofBytes, hheld, if_neg (by decide)]
  exact radioEvents_act hrelay (cmd.marker_frame _) (length_legacyBody_readBack hvalid) _

/-- A frame that does not pass the checks is rejected. -/
theorem decodeRf_unchecked {cmd : RadioCommand} (hchecked : ¬cmd.Checked) (s : X10State) :
    rfFrame (Memory.ofBytes cmd.frame c.env.stack) cmd.frame.length = none ∧
      (cm15aDecodeRf c.env (relayTo c) (-1) (Memory.ofBytes cmd.frame c.env.stack)
        cmd.frame.length s).effects = [.sockprintf (-1) (ascii "Invalid parity\n")] := by
  cases cmd with
  | long address function =>
    have hsec := secafDecode_long (address / 65536).toUInt8 (address / 256).toUInt8 address.toUInt8
      function c.env.stack
    rw [if_pos (by simpa [RadioCommand.Checked] using hchecked)] at hsec
    constructor
    · refine (rfFrame_of_long rfl).trans ?_
      rw [RadioCommand.frame, hsec]
    · have hlong : cm15aDecodeRf c.env (relayTo c) (-1)
          (Memory.ofBytes (RadioCommand.long address function).frame c.env.stack) 8 =
          decodeRfLong c.env (-1)
            (Memory.ofBytes (RadioCommand.long address function).frame c.env.stack) 8 := by
        simp only [cm15aDecodeRf, trimMarkers_of_le (le_refl 8)]
        rfl
      show (cm15aDecodeRf _ _ _ _ 8 s).effects = _
      rw [hlong, decodeRfLong, RadioCommand.frame, hsec]
      rfl
  | device | short | camera => exact absurd trivial hchecked

/-- **The radio events of a command.** -/
theorem radioEvents_radio {line : Bytes} {command : Command} {tokens rest : List Bytes}
    {cmd : RadioCommand} (hline : commandOfLine line = some (command, tokens))
    (hcmd : radioCommandOf command tokens = some (cmd, rest)) (s : X10State) :
    radioEvents (processcommandline c fd line s).effects =
      radioEvents (cm15aDecodeRf c.env (relayTo c) (-1) (Memory.ofBytes cmd.frame c.env.stack)
        cmd.frame.length s).effects := by
  rw [processcommandline_radio hline hcmd]
  simp only [X10M.bind_apply, radioEvents_append, rfTx, or20ok_state, radioEvents_eq_nil (offAir_or20ok c fd),
    radioEvents_eq_nil (offAir_finish fd _), List.nil_append, List.append_nil]
  exact List.append_right_eq_self.mpr rfl

/-- A line of one of the radio commands that sends a frame names a radio command. -/
theorem exists_radioCommand {line : Bytes} {command : Command} {tokens : List Bytes}
    (hline : commandOfLine line = some (command, tokens))
    (hradio : command = .rf ∨ command = .rfsec ∨ command = .rfcam) {s : X10State}
    (hsent : ∃ buf, Effect.x10Write buf ∈ (processcommandline c fd line s).effects) :
    ∃ cmd rest, radioCommandOf command tokens = some (cmd, rest) := by
  by_contra hnone
  have hnone' : radioCommandOf command tokens = none := by
    refine Option.eq_none_iff_forall_ne_some.mpr fun a ha => ?_
    exact hnone ⟨a.1, a.2, ha⟩
  obtain ⟨buf, hbuf⟩ := hsent
  have hinert : Inert (processcommandline c fd line) := by
    rw [processcommandline_of_line hline]
    exact (inert_of_radioCommandOf_eq_none hradio hnone').bind (Inert.finish fd)
  exact absurd (hinert.sends s _ hbuf) (by simp [Effect.NotSent, Effect.packet])

/-- **Encoder and decoder agree on a command exactly if its frame passes the decoder's checks and
has room for all that the command names**, when the frame is not held back: the decoder accepts the
frame that the controller is handed, and reports it once, as the event that names the command. -/
theorem radio_command_iff {line : Bytes} {command : Command} {tokens : List Bytes}
    (hline : commandOfLine line = some (command, tokens))
    (hradio : command = .rf ∨ command = .rfsec ∨ command = .rfcam) {s : X10State}
    (hsent : ∃ buf, Effect.x10Write buf ∈ (processcommandline c fd line s).effects) :
    ∃ cmd rest, radioCommandOf command tokens = some (cmd, rest) ∧
      Effect.x10Write (if c.env.cm19a then cmd.frame.drop 1 else cmd.frame) ∈
        (processcommandline c fd line s).effects ∧
      (heldBack c.env cmd.frame s = false →
        ((rfFrame (Memory.ofBytes cmd.frame c.env.stack) cmd.frame.length ≠ none ∧
            radioEvents (processcommandline c fd line s).effects =
              [legacyBody cmd.event ++ ascii "\n"]) ↔
          cmd.Checked ∧ cmd.Carried)) := by
  obtain ⟨cmd, rest, hcmd⟩ := exists_radioCommand hline hradio hsent
  have hvalid := radioCommandOf_valid hcmd
  refine ⟨cmd, rest, hcmd, ?_, fun hheld => ?_⟩
  · rw [processcommandline_radio hline hcmd]
    simp only [X10M.bind_apply, rfTx]
    refine List.mem_append_right _ (List.mem_append_left _ (List.mem_append_right _ ?_))
    exact List.mem_singleton_self _
  rw [radioEvents_radio hline hcmd]
  constructor
  · rintro ⟨haccepted, hevents⟩
    have hchecked : cmd.Checked := by
      by_contra hchecked
      exact haccepted (decodeRf_unchecked hchecked s).1
    refine ⟨hchecked, ?_⟩
    by_contra hcarried
    rw [radioEvents_decodeRf hvalid hchecked hheld] at hevents
    have htexts := List.append_cancel_right (List.singleton_inj.mp hevents)
    exact legacyBody_readBack_ne hvalid hcarried htexts
  · rintro ⟨hchecked, hcarried⟩
    constructor
    · rw [rfFrame_frame hvalid hchecked]
      exact Option.some_ne_none _
    · rw [radioEvents_decodeRf hvalid hchecked hheld, event_readBack hvalid hcarried]

/-- What the interpreter sees of a daemon without clients. -/
def Ctx.idle (env : Env) : Ctx :=
  ⟨env, fun _ => false, fun _ _ => 0, ⟨false, [], false, false, 0, 0, 0, 0, 0, 0, 0, 0, 0⟩⟩

/-- A command that is read back. -/
theorem radio_command_a1_on : radioEvents (processcommandline
    (.idle (.plain mochadConfigDefaults true)) 4 (ascii "rf a1 on") .idle).effects =
      [legacyBody (RadioCommand.device 0 0 2).event ++ ascii "\n"] := by
  obtain ⟨cmd, rest, hcmd, _, hagree⟩ :=
    @radio_command_iff (.idle (.plain mochadConfigDefaults true)) 4 (ascii "rf a1 on") .rf
      [ascii "A1", ascii "ON"] (by decide +kernel) (Or.inl rfl) .idle
      ⟨[0x20, 0x60, 0x9f, 0x00, 0xff], by decide +kernel⟩
  rw [show radioCommandOf .rf [ascii "A1", ascii "ON"] = some (.device 0 0 2, []) by
    decide +kernel] at hcmd
  obtain ⟨rfl, rfl⟩ := Prod.mk.inj (Option.some.inj hcmd)
  exact ((hagree (by decide +kernel)).mpr ⟨trivial, fun _ => Or.inl rfl⟩).2

/-- **A frame can be sent that the decoder rejects**: its address has odd parity. -/
theorem radio_command_rejected : ¬ ∀ c fd line command tokens s,
    commandOfLine line = some (command, tokens) →
      command = .rf ∨ command = .rfsec ∨ command = .rfcam →
        (∃ buf, Effect.x10Write buf ∈ (processcommandline c fd line s).effects) →
          ∃ cmd rest, radioCommandOf command tokens = some (cmd, rest) ∧
            (heldBack c.env cmd.frame s = false →
              rfFrame (Memory.ofBytes cmd.frame c.env.stack) cmd.frame.length ≠ none ∧
                radioEvents (processcommandline c fd line s).effects =
                  [legacyBody cmd.event ++ ascii "\n"]) := by
  intro hall
  obtain ⟨cmd, rest, hcmd, hagree⟩ := hall (.idle (.plain mochadConfigDefaults true)) 4
    (ascii "rfsec 000001 arm") .rfsec [ascii "000001", ascii "ARM"] .idle (by decide +kernel)
    (Or.inr (Or.inl rfl)) ⟨[0x29, 0x00, 0x0f, 0x06, 0xf9, 0x00, 0x01], by decide +kernel⟩
  rw [show radioCommandOf .rfsec [ascii "000001", ascii "ARM"] = some (.long 1 0x06, []) by
    decide +kernel] at hcmd
  obtain ⟨rfl, -⟩ := Prod.mk.inj (Option.some.inj hcmd)
  have hodd : ¬(RadioCommand.long 1 0x06).Checked :=
    (by decide : ¬oddParity ((1 / 256 : ℕ).toUInt8 ^^^ (1 : ℕ).toUInt8) = false)
  exact (hagree rfl).1
    (decodeRf_unchecked (c := .idle (.plain mochadConfigDefaults true)) hodd .idle).1

end Mochad
