import Mochad.X10.Arguments

/-!
# Power-line commands

A power-line command is a sequence of messages (`PlMessage`): the address of a unit, and then a
function. For each the encoder makes a buffer as if it had been received, which the decoder reports,
and from it the packet for the controller, which has other bytes in another order. Both say the same
message: the event names it (`PlMessage.event`), and it can be read from the packet through the
decoder's tables (`readPacket`).
-/

namespace Mochad

open X10M (Emits gets modify)

/-! ### Messages -/

/-- **What is said on the power line.** -/
inductive PlMessage
  | address (house unit : ℤ)
  | function (house func : ℤ)
  | level (house func dims : ℤ)
  | extended (house unit func data command : ℤ)
  deriving DecidableEq

namespace PlMessage

/-- The event that names a message. -/
def event : PlMessage → MochadEvent
  | address house unit =>
      { direction := .tx, transport := .pl, detail := .houseUnit, house := houseChar house,
        unit := unit + 1, function := none }
  | function house func =>
      { direction := .tx, transport := .pl, detail := .house, house := houseChar house,
        function := funcnameAt func.toNat }
  | level house func dims =>
      { direction := .tx, transport := .pl, detail := .house, house := houseChar house,
        function := funcnameAt func.toNat, hasLevel := true, level := dims }
  | extended house unit func data command =>
      { direction := .tx, transport := .pl, detail := .houseUnit, house := houseChar house,
        unit := unit + 1, function := funcnameAt func.toNat, hasExtendedData := true,
        extendedData := data.toNat, extendedCommand := command.toNat }

/-- The packet that is sent for a message. -/
def wire : PlMessage → Bytes
  | address house unit => houseunitPacket house unit
  | function house func => [0x06, houseByte x10housecode house (lowByte func)]
  | level house func dims =>
      [0x06, houseByte x10housecode house (lowByte func), 0x06 ||| lowByte ((dims % 32) * 8)]
  | extended house unit func data command =>
      [0x07, houseByte x10housecode house (lowByte func), tableAt x10housecode unit, lowByte data,
        lowByte command]

/-- **A message that can be said.** -/
def Proper : PlMessage → Prop
  | address house unit => IsUnit house ∧ IsUnit unit
  | function house func => IsUnit house ∧ IsUnit func
  | level house func dims => IsUnit house ∧ IsUnit func ∧ 0 ≤ dims ∧ dims < 32
  | extended house unit func data command => IsUnit house ∧ IsUnit unit ∧ IsUnit func ∧
      (0 ≤ data ∧ data < 2 ^ 8) ∧ 0 ≤ command ∧ command < 2 ^ 8

end PlMessage

/-- **What a packet says**, through the tables of the decoder. -/
def readPacket : Bytes → Option PlMessage
  | [0x04, hu] =>
      let (housechar, unitint) := hucDecode hu
      some (.address (houseIndex housechar) (unitint - 1))
  | [0x06, hf] =>
      let (housechar, funcint) := hfcDecode hf
      some (.function (houseIndex housechar) funcint)
  | [0x06, hf, dims] =>
      let (housechar, funcint) := hfcDecode hf
      some (.level (houseIndex housechar) funcint ((dims &&& 0xF8) >>> 3).toNat)
  | [0x07, hf, unit, data, command] =>
      let (housechar, funcint) := hfcDecode hf
      some (.extended (houseIndex housechar) (ucDecode unit - 1) funcint data.toNat command.toNat)
  | _ => none

/-! ### Tables and their inverses -/

theorem IsUnit.exists_fin {u : ℤ} (h : IsUnit u) : ∃ n : Fin 16, ((n : ℕ) : ℤ) = u := by
  obtain ⟨n, hn, rfl⟩ := isUnit_iff.mp h
  exact ⟨⟨n, List.mem_range.mp hn⟩, rfl⟩

theorem hucDecode_houseByte {house unit : ℤ} (hh : IsUnit house) (hu : IsUnit unit) :
    hucDecode (houseByte x10housecode house (tableAt x10housecode unit)) =
      (houseChar house, unit + 1) := by
  have hall : ∀ h u : Fin 16,
      hucDecode (houseByte x10housecode (h : ℕ) (tableAt x10housecode (u : ℕ))) =
        (houseChar (h : ℕ), ((u : ℕ) : ℤ) + 1) := by decide +kernel
  obtain ⟨h, rfl⟩ := hh.exists_fin
  obtain ⟨u, rfl⟩ := hu.exists_fin
  exact hall h u

theorem hfcDecode_houseByte {house func : ℤ} (hh : IsUnit house) (hf : IsUnit func) :
    hfcDecode (houseByte x10housecode house (lowByte func)) = (houseChar house, func.toNat) := by
  have hall : ∀ h f : Fin 16,
      hfcDecode (houseByte x10housecode (h : ℕ) (lowByte (f : ℕ))) =
        (houseChar (h : ℕ), ((f : ℕ) : ℤ).toNat) := by decide +kernel
  obtain ⟨h, rfl⟩ := hh.exists_fin
  obtain ⟨f, rfl⟩ := hf.exists_fin
  exact hall h f

theorem ucDecode_code {unit : ℤ} (hu : IsUnit unit) :
    ucDecode (tableAt x10housecode unit) = unit + 1 := by
  have hall : ∀ u : Fin 16, ucDecode (tableAt x10housecode (u : ℕ)) = ((u : ℕ) : ℤ) + 1 := by
    decide +kernel
  obtain ⟨u, rfl⟩ := hu.exists_fin
  exact hall u

/-- The level is in the high bits of its byte, whatever the low ones are. -/
theorem level_bits {level : ℤ} (h : 0 ≤ level ∧ level < 32) :
    ((((0x06 : UInt8) ||| lowByte ((level % 32) * 8)) &&& 0xF8) >>> 3).toNat = level.toNat ∧
      (((lowByte ((level % 32) * 8) ||| 0x01) &&& 0xF8) >>> 3).toNat = level.toNat := by
  have hall : ∀ n : Fin 32,
      ((((0x06 : UInt8) ||| lowByte ((((n : ℕ) : ℤ) % 32) * 8)) &&& 0xF8) >>> 3).toNat = n ∧
        (((lowByte ((((n : ℕ) : ℤ) % 32) * 8) ||| 0x01) &&& 0xF8) >>> 3).toNat = n := by
    decide +kernel
  have hlevel := hall ⟨level.toNat, by omega⟩
  rwa [show (((⟨level.toNat, by omega⟩ : Fin 32) : ℕ) : ℤ) = level by simp; omega] at hlevel

/-- **The packet of a message says it.** -/
theorem PlMessage.Proper.readPacket_wire {m : PlMessage} (h : m.Proper) :
    readPacket m.wire = some m := by
  cases m with
  | address house unit =>
    obtain ⟨hh, hu⟩ := h
    simp only [PlMessage.wire, houseunitPacket, readPacket, hucDecode_houseByte hh hu,
      houseIndex_houseChar hh, Int.add_sub_cancel]
  | function house func =>
    obtain ⟨hh, hf⟩ := h
    simp only [PlMessage.wire, readPacket, hfcDecode_houseByte hh hf, houseIndex_houseChar hh,
      Int.toNat_of_nonneg hf.1]
  | level house func dims =>
    obtain ⟨hh, hf, hlevel⟩ := h
    simp only [PlMessage.wire, readPacket, hfcDecode_houseByte hh hf, houseIndex_houseChar hh,
      Int.toNat_of_nonneg hf.1, (level_bits hlevel).1, Int.toNat_of_nonneg hlevel.1]
  | extended house unit func data command =>
    obtain ⟨hh, hu, hf, hdata, hcommand⟩ := h
    simp only [PlMessage.wire, readPacket, hfcDecode_houseByte hh hf, houseIndex_houseChar hh,
      Int.toNat_of_nonneg hf.1, ucDecode_code hu, Int.add_sub_cancel, toNat_lowByte hdata,
      toNat_lowByte hcommand]

/-! ### What is sent, and what is reported -/

/-- An event that fits the buffer is one line. -/
theorem dispatch_eq {e : MochadEvent} (h : (legacyBody e).length < 256) (fd : ℤ) :
    mochadDispatchEvent fd e = sockprintf fd (legacyBody e ++ ascii "\n") := by
  rw [mochadDispatchEvent, mochadEventFormatLegacyBody, checkedSnprintf, if_pos h]

/-- The name of a function is short. -/
theorem length_funcnameAt (func : ℕ) : (fmtStr (funcnameAt func)).length ≤ 40 := by
  have hall : ∀ name ∈ funcname, name.length ≤ 40 := by decide
  rw [funcnameAt]
  cases hfunc : funcname[func]? with
  | none => decide
  | some name => exact hall name (List.mem_of_getElem? hfunc)

/-- The digits of a byte. -/
theorem length_fmtHex2_byte {n : ℤ} (h : 0 ≤ n ∧ n < 2 ^ 8) : (fmtHex2 n.toNat).length = 2 := by
  have hbyte := length_fmtHex2 (lowByte n)
  rwa [show (lowByte n).toNat = n.toNat by have := toNat_lowByte h; omega] at hbyte

/-- The event of a message fits the buffer. -/
theorem PlMessage.Proper.length_event {m : PlMessage} (h : m.Proper) :
    (legacyBody m.event).length < 256 := by
  have hunit : ∀ {unit : ℤ}, IsUnit unit → (fmtInt (unit + 1)).length ≤ 2 := by
    intro unit hu
    have hall : ∀ u : Fin 16, (fmtInt (((u : ℕ) : ℤ) + 1)).length ≤ 2 := by decide
    obtain ⟨u, rfl⟩ := hu.exists_fin
    exact hall u
  have hfixed : ((directionLabel .tx).length ≤ 2 ∧ (transportLabel .pl).length ≤ 2) ∧
      ((ascii " ").length ≤ 1 ∧ (ascii " HouseUnit: ").length ≤ 20 ∧ (ascii " House: ").length ≤ 20) ∧
      ((ascii " Func: ").length ≤ 20 ∧ (ascii " Data: ").length ≤ 20) ∧
      (ascii " Command: ").length ≤ 20 ∧ (ascii "(").length ≤ 1 ∧ (ascii ")").length ≤ 1 := by
    decide
  cases m with
  | address house unit =>
    have hnumber := hunit h.2
    simp only [legacyBody, PlMessage.event, if_true, if_false, Bool.false_eq_true,
      List.length_append, List.length_singleton]
    omega
  | function house func =>
    have hname := length_funcnameAt func.toNat
    simp only [legacyBody, PlMessage.event, if_false, Bool.false_eq_true, List.length_append,
      List.length_singleton]
    omega
  | level house func dims =>
    have hname := length_funcnameAt func.toNat
    have hnumber : (fmtInt dims).length ≤ 2 := by
      have hall : ∀ n : Fin 32, (fmtInt ((n : ℕ) : ℤ)).length ≤ 2 := by decide
      have hdims := hall ⟨dims.toNat, by have := h.2.2; omega⟩
      rwa [show (((⟨dims.toNat, _⟩ : Fin 32) : ℕ) : ℤ) = dims from Int.toNat_of_nonneg h.2.2.1]
        at hdims
    simp only [legacyBody, PlMessage.event, if_true, List.length_append, List.length_singleton]
    omega
  | extended house unit func data command =>
    have hname := length_funcnameAt func.toNat
    obtain ⟨-, hu, -, hdata, hcommand⟩ := h
    have hnumber := hunit hu
    simp only [legacyBody, PlMessage.event, if_true, List.length_append, List.length_singleton,
      length_fmtHex2_byte hdata, length_fmtHex2_byte hcommand]
    omega

/-- What a message calls. -/
def PlMessage.calls (m : PlMessage) : List Effect :=
  [.sockprintf (-1) (legacyBody m.event ++ ascii "\n"), .x10Write m.wire]

section

variable (env : Env) (s : X10State)

theorem decodePlc_address (fd : ℤ) (hu : UInt8) (stack : Memory) :
    cm15aDecodePlc fd (Memory.ofBytes [0x00, 0x02, 0x00, hu] stack) 4 = (do
      modify (huaAdd (houseIndex (hucDecode hu).1) ((hucDecode hu).2 - 1))
      dispatchPlHouseunit fd 0x00 (hucDecode hu).1 (hucDecode hu).2 none) := rfl

theorem decodePlc_function (fd : ℤ) (hf : UInt8) (stack : Memory) :
    cm15aDecodePlc fd (Memory.ofBytes [0x00, 0x02, 0x01, hf] stack) 4 = (do
      applyHouseFunc (houseIndex (hfcDecode hf).1) (hfcDecode hf).2
      dispatchPlHouse fd 0x00 (hfcDecode hf).1 (funcnameAt (hfcDecode hf).2)) := rfl

theorem decodePlc_level (fd : ℤ) (dims hf : UInt8) (stack : Memory) :
    cm15aDecodePlc fd (Memory.ofBytes [0x00, 0x03, 0x02, dims, hf] stack) 5 =
      dispatchPlHouseLevel fd 0x00 (hfcDecode hf).1 (funcnameAt (hfcDecode hf).2)
        ((dims &&& 0xF8) >>> 3).toNat := rfl

theorem decodePlc_extended (fd : ℤ) (hf unit data command : UInt8) (stack : Memory) :
    cm15aDecodePlc fd (Memory.ofBytes [0x00, 0x05, 0x07, hf, unit, data, command] stack) 7 = (do
      dispatchPlExtended fd 0x00 (hfcDecode hf).1 (ucDecode unit) (funcnameAt (hfcDecode hf).2)
        data.toNat command.toNat
      modify (huaSetstatusXdim (houseIndex (hfcDecode hf).1) (ucDecode unit - 1) data)) := rfl

/-- A report and a packet. What is reported does not depend on the tables, which may have changed
by then. -/
theorem effects_said {m : PlMessage} (h : m.Proper) {decode : X10M Unit} {t : X10State}
    (hdecode : (decode s).effects = (mochadDispatchEvent (-1) m.event t).effects) :
    ((do decode; x10Write m.wire : X10M Unit) s).effects = m.calls := by
  rw [X10M.bind_apply, hdecode, dispatch_eq h.length_event]
  rfl

theorem effects_plTxHouseunit {house unit : ℤ} (hh : IsUnit house) (hu : IsUnit unit) :
    (plTxHouseunit env house unit s).effects = (PlMessage.address house unit).calls := by
  refine effects_said s (m := .address house unit) (t := huaAdd house unit s) ⟨hh, hu⟩ ?_
  rw [decodePlc_address, hucDecode_houseByte hh hu, houseIndex_houseChar hh, Int.add_sub_cancel]
  rfl

theorem effects_plTxExtendedCode1 {house unit command subcmd param : ℤ} (hh : IsUnit house)
    (hu : IsUnit unit) (hcommand : 0 ≤ command ∧ command < 16) (hsubcmd : 0 ≤ subcmd ∧ subcmd < 16)
    (hparam : 0 ≤ param ∧ param < 2 ^ 8) :
    (plTxExtendedCode1 env house unit command subcmd param s).effects =
      (PlMessage.extended house unit 7 param (command * 16 + subcmd)).calls := by
  have hboth : (lowByte command <<< 4) ||| (lowByte subcmd &&& 0x0F) =
      lowByte (command * 16 + subcmd) := by
    have hall : ∀ c d : Fin 16, (lowByte (c : ℕ) <<< 4) ||| (lowByte (d : ℕ) &&& 0x0F) =
        lowByte (((c : ℕ) : ℤ) * 16 + (d : ℕ)) := by decide +kernel
    obtain ⟨c, rfl⟩ := IsUnit.exists_fin hcommand
    obtain ⟨d, rfl⟩ := IsUnit.exists_fin hsubcmd
    exact hall c d
  have hproper : (PlMessage.extended house unit 7 param (command * 16 + subcmd)).Proper :=
    ⟨hh, hu, by decide, hparam, by omega, by omega⟩
  rw [plTxExtendedCode1, hboth]
  refine effects_said s (t := s) hproper ?_
  rw [decodePlc_extended, show houseByte x10housecode house 0x7 =
    houseByte x10housecode house (lowByte 7) from rfl, hfcDecode_houseByte hh (by decide),
    ucDecode_code hu]
  show (mochadDispatchEvent _ _ s).effects ++ _ = _
  rw [show (lowByte param).toNat = param.toNat by have := toNat_lowByte hparam; omega,
    show (lowByte (command * 16 + subcmd)).toNat = (command * 16 + subcmd).toNat by
      have := toNat_lowByte (n := command * 16 + subcmd) (by omega)
      omega]
  exact List.append_nil _

/-- A house function is applied without a call. -/
theorem effects_applyHouseFunc (house : ℤ) (func : ℕ) : (applyHouseFunc house func s).effects = [] := by
  rw [applyHouseFunc]
  split_ifs
  all_goals rfl

end

/-- The message of a function other than an extended one. -/
def housefuncMessage (house func param : ℤ) : PlMessage :=
  if func = 4 ∨ func = 5 then .level house func param else .function house func

theorem effects_plTxHousefunc (env : Env) (s : X10State) {house func param : ℤ} (hh : IsUnit house)
    (hf : IsUnit func) (hparam : func = 4 ∨ func = 5 → 0 ≤ param ∧ param < 32) :
    (plTxHousefunc env house func param s).effects = (housefuncMessage house func param).calls := by
  have hxdim : func ≠ 16 := by
    rintro rfl
    exact absurd hf.2 (by decide)
  rw [plTxHousefunc, housefuncMessage]
  by_cases hdim : func = 4 ∨ func = 5
  · rw [if_pos hdim, if_pos hdim]
    refine effects_said s (m := .level house func param) (t := s) ⟨hh, hf, hparam hdim⟩ ?_
    rw [decodePlc_level, hfcDecode_houseByte hh hf, (level_bits (hparam hdim)).2,
      Int.toNat_of_nonneg (hparam hdim).1]
    rfl
  · rw [if_neg hdim, if_neg hxdim, if_neg hdim]
    refine effects_said s (m := .function house func)
      (t := (applyHouseFunc house func.toNat s).state) ⟨hh, hf⟩ ?_
    rw [decodePlc_function, hfcDecode_houseByte hh hf, X10M.bind_apply, effects_applyHouseFunc]
    rw [List.nil_append, houseIndex_houseChar hh]
    rfl

/-! ### Commands and their messages -/

/-- What a function token says. -/
theorem getfunc_le {tokens rest : List Bytes} {func : ℤ} (h : getfunc tokens = (func, rest)) :
    func ≤ 16 := by
  have hlength : funccommands.length = 17 := by decide
  obtain ⟨rfl, -⟩ := Prod.mk.inj h
  cases hfind : tokens.head?.bind fun t => funccommands.findIdx? (· = t) with
  | none => decide
  | some i =>
    obtain ⟨token, -, hi⟩ := Option.bind_eq_some_iff.mp hfind
    have hlt := (List.findIdx?_eq_some_iff_getElem.mp hi).choose
    show ((i : ℕ) : ℤ) ≤ 16
    omega

namespace PlCommand

/-- A command of the houses, units and functions that there are. -/
def Valid : PlCommand → Prop
  | select house unit => IsUnit house ∧ IsUnit unit
  | toHouse house func _ => IsUnit house ∧ IsUnit func
  | toUnit house unit func _ => IsUnit house ∧ IsUnit unit ∧ IsUnit func
  | extended house unit _ _ _ => IsUnit house ∧ IsUnit unit

/-- **The numbers of a command fit the wire.** -/
def InRange : PlCommand → Prop
  | select _ _ => True
  | toHouse _ func param => func = 4 ∨ func = 5 → 0 ≤ param ∧ param < 32
  | toUnit _ _ func param => func = 4 ∨ func = 5 → 0 ≤ param ∧ param < 32
  | extended _ _ command subcmd param =>
      (0 ≤ command ∧ command < 16) ∧ (0 ≤ subcmd ∧ subcmd < 16) ∧ 0 ≤ param ∧ param < 2 ^ 8

/-- **What a command says.** -/
def messages : PlCommand → List PlMessage
  | select house unit => [.address house unit]
  | toHouse house func param => [housefuncMessage house func param]
  | toUnit house unit func param => [.address house unit, housefuncMessage house func param]
  | extended house unit command subcmd param =>
      [.extended house unit 7 param (command * 16 + subcmd)]

theorem proper_housefuncMessage {house func param : ℤ} (hh : IsUnit house) (hf : IsUnit func)
    (hparam : func = 4 ∨ func = 5 → 0 ≤ param ∧ param < 32) :
    (housefuncMessage house func param).Proper := by
  rw [housefuncMessage]
  split
  next hdim => exact ⟨hh, hf, hparam hdim⟩
  next hdim => exact ⟨hh, hf⟩

/-- What a command says can be said. -/
theorem proper_messages {cmd : PlCommand} (hvalid : cmd.Valid) (hrange : cmd.InRange) :
    ∀ m ∈ cmd.messages, m.Proper := by
  cases cmd with
  | select house unit => exact List.forall_mem_singleton.mpr hvalid
  | toHouse house func param =>
    exact List.forall_mem_singleton.mpr (proper_housefuncMessage hvalid.1 hvalid.2 hrange)
  | toUnit house unit func param =>
    obtain ⟨hh, hu, hf⟩ := hvalid
    exact List.forall_mem_cons.mpr
      ⟨⟨hh, hu⟩, List.forall_mem_singleton.mpr (proper_housefuncMessage hh hf hrange)⟩
  | extended house unit command subcmd param =>
    obtain ⟨hcommand, hsubcmd, hparam⟩ := hrange
    exact List.forall_mem_singleton.mpr
      ⟨hvalid.1, hvalid.2, by decide, hparam, by omega, by omega⟩

/-- **A command is sent message by message.** -/
theorem effects_send {cmd : PlCommand} (hvalid : cmd.Valid) (hrange : cmd.InRange) (env : Env)
    (s : X10State) : (cmd.send env s).effects = cmd.messages.flatMap PlMessage.calls := by
  cases cmd with
  | select house unit =>
    rw [send, effects_plTxHouseunit env s hvalid.1 hvalid.2]
    rfl
  | toHouse house func param =>
    rw [send, effects_plTxHousefunc env s hvalid.1 hvalid.2 hrange, messages, List.flatMap_singleton]
  | toUnit house unit func param =>
    obtain ⟨hh, hu, hf⟩ := hvalid
    rw [send, X10M.bind_apply, effects_plTxHouseunit env s hh hu,
      effects_plTxHousefunc env _ hh hf hrange, messages, List.flatMap_cons, List.flatMap_singleton]
  | extended house unit command subcmd param =>
    obtain ⟨hcommand, hsubcmd, hparam⟩ := hrange
    rw [send, effects_plTxExtendedCode1 env s hvalid.1 hvalid.2 hcommand hsubcmd hparam]
    rfl

end PlCommand

/-- **The function of a message**, for a house or one of its units. -/
def PlMessage.Applies (house unit func : ℤ) : PlMessage → Prop
  | address _ _ => False
  | function h f => h = house ∧ f = func
  | level h f _ => h = house ∧ f = func
  | extended h u f _ _ => h = house ∧ u = unit ∧ f = func

/-- **How a command is made up**: a unit is addressed first, if there is one and the function does
not name it, and one function follows. -/
structure PlCommand.Shape (cmd : PlCommand) (house unit func : ℤ) : Prop where
  valid : cmd.Valid
  messages : 0 ≤ func → ∃ m : PlMessage, m.Applies house unit (if func = 16 then 7 else func) ∧
    cmd.messages = (if 0 ≤ unit ∧ func ≠ 7 ∧ func ≠ 16 then [.address house unit] else []) ++ [m]
  first : unit < 0 → ∃ func param, cmd = .toHouse house func param
  select : func < 0 → cmd = .select house unit

theorem applies_housefuncMessage (house unit func param : ℤ) :
    (housefuncMessage house func param).Applies house unit func := by
  rw [housefuncMessage]
  split_ifs
  all_goals exact ⟨rfl, rfl⟩

/-- The command of a line is made up so. -/
theorem shape_of_plCommandOf {tokens rest rest' rest'' : List Bytes} {house unit func : ℤ}
    {cmd : PlCommand} (haddr : getdeviceaddr tokens = ((house, unit), rest))
    (hfunc : getfunc rest = (func, rest')) (h : plCommandOf tokens = some (cmd, rest'')) :
    cmd.Shape house unit func := by
  have hle := getfunc_le hfunc
  simp only [plCommandOf, haddr, hfunc] at h
  split at h
  · cases h
  next hhouse =>
    obtain ⟨hh, hu⟩ := getdeviceaddr_bounds haddr hhouse
    split at h
    next hunit =>
      split at h
      · cases h
      next hok =>
        obtain ⟨hnonneg, hxdim⟩ := not_or.mp hok
        have hf : IsUnit func := ⟨by omega, by omega⟩
        have hshape : ∀ param, (PlCommand.toHouse house func param).Shape house unit func :=
          fun param => ⟨⟨hh, hf⟩, fun _ => ⟨housefuncMessage house func param, by
            rw [if_neg hxdim]
            exact applies_housefuncMessage _ _ _ _, by rw [if_neg (by omega)]; rfl⟩,
            fun _ => ⟨_, _, rfl⟩, fun hneg => absurd hneg hnonneg⟩
        split at h
        all_goals
          obtain ⟨rfl, -⟩ := Prod.mk.inj (Option.some.inj h)
          exact hshape _
    next hunit =>
      have hu : IsUnit unit := hu.resolve_left (by omega)
      have hextended : ∀ command subcmd param : ℤ, func = 7 ∨ func = 16 →
          (PlCommand.extended house unit command subcmd param).Shape house unit func := by
        intro command subcmd param hext
        refine ⟨⟨hh, hu⟩, fun _ => ⟨.extended house unit 7 param (command * 16 + subcmd),
          ⟨rfl, rfl, ?_⟩, ?_⟩, fun hneg => absurd hneg hunit, fun hneg => by omega⟩
        · split
          · rfl
          · omega
        · rw [if_neg (by omega)]
          rfl
      have htoUnit : ∀ param, ¬func < 0 → func ≠ 16 → func ≠ 7 →
          (PlCommand.toUnit house unit func param).Shape house unit func := by
        intro param hnonneg hxdim hext
        refine ⟨⟨hh, hu, by omega, by omega⟩, fun _ => ⟨housefuncMessage house func param, ?_, ?_⟩,
          fun hneg => absurd hneg hunit, fun hneg => absurd hneg hnonneg⟩
        · rw [if_neg hxdim]
          exact applies_housefuncMessage _ _ _ _
        · rw [if_pos ⟨by omega, hext, hxdim⟩]
          rfl
      split at h
      next hneg =>
        obtain ⟨rfl, -⟩ := Prod.mk.inj (Option.some.inj h)
        exact ⟨⟨hh, hu⟩, fun hnonneg => absurd hneg (by omega), fun hneg => absurd hneg hunit,
          fun _ => rfl⟩
      next hneg =>
        split at h
        next hxdim =>
          obtain ⟨rfl, -⟩ := Prod.mk.inj (Option.some.inj h)
          exact hextended _ _ _ (Or.inr hxdim)
        next hxdim =>
          split at h
          next hdim =>
            obtain ⟨rfl, -⟩ := Prod.mk.inj (Option.some.inj h)
            exact htoUnit _ hneg hxdim (by omega)
          next hdim =>
            split at h
            next hext =>
              obtain ⟨rfl, -⟩ := Prod.mk.inj (Option.some.inj h)
              exact hextended _ _ _ (Or.inl hext)
            next hext =>
              obtain ⟨rfl, -⟩ := Prod.mk.inj (Option.some.inj h)
              exact htoUnit _ hneg hxdim hext

/-- A line is accepted if nothing is left over, and nothing was refused. -/
theorem flow_of_finish_eq_zero {fd : ℤ} {flow : Flow} {s : X10State}
    (h : (finish fd flow s).value = 0) : flow = .ret 0 ∨ flow = .rest [] := by
  cases flow with
  | ret value => exact Or.inl (congrArg Flow.ret h)
  | rest tokens =>
    cases tokens with
    | nil => exact Or.inr rfl
    | cons token tokens => cases h

/-- A command that ends so has a function. -/
theorem PlCommand.flow_done {cmd : PlCommand} {left : List Bytes}
    (h : cmd.flow left = .ret 0 ∨ cmd.flow left = .rest []) :
    left = [] ∧ ∀ house unit, cmd ≠ .select house unit := by
  cases cmd with
  | select house unit =>
    obtain h | h := h
    all_goals cases h
  | toHouse | toUnit | extended =>
    obtain h | h := h
    · cases h
    · cases h
      exact ⟨rfl, fun _ _ => PlCommand.noConfusion⟩

/-- A house function does not begin as the address of a unit does. -/
theorem head_housefuncPacket (house func param : ℤ) :
    (housefuncPacket house func param).head? = some 0x06 := by
  rw [housefuncPacket]
  split_ifs
  all_goals rfl

/-- The answer to an OpenRemote client. -/
def or20reply (c : Ctx) (fd : ℤ) : List Effect :=
  if c.or20client fd then [.statusprintf fd (ascii "ok\n\r")] else []

/-- **A power-line command is reported and sent message by message.** A line that is not refused
addresses a unit, if it names one and its function does not carry it, and then says one function.
If its numbers fit the wire, each message is reported, and a packet follows from which the message
can be read. A line that names a house alone addresses no unit. -/
theorem pl_messages (c : Ctx) (fd : ℤ) (s : X10State) {line : Bytes}
    {tokens rest rest' : List Bytes} {house unit func : ℤ}
    (hline : commandOfLine line = some (.pl, tokens))
    (haddr : getdeviceaddr tokens = ((house, unit), rest)) (hfunc : getfunc rest = (func, rest')) :
    ((processcommandline c fd line s).value = 0 →
      ∃ cmd m, plCommandOf tokens = some (cmd, []) ∧
        m.Applies house unit (if func = 16 then 7 else func) ∧
        cmd.messages =
          (if 0 ≤ unit ∧ func ≠ 7 ∧ func ≠ 16 then [.address house unit] else []) ++ [m] ∧
        (cmd.InRange →
          (∀ message ∈ cmd.messages, readPacket message.wire = some message) ∧
          (processcommandline c fd line s).effects =
            or20reply c fd ++ cmd.messages.flatMap PlMessage.calls)) ∧
      (unit < 0 → ∀ packet ∈ packets (processcommandline c fd line s).effects,
        packet.head? ≠ some 0x04) := by
  cases hcmd : plCommandOf tokens with
  | none =>
    obtain ⟨hnone, hvalue⟩ := pl_refused c fd hline hcmd s
    rw [hvalue, hnone]
    exact ⟨fun h => absurd h (by decide), fun _ _ hmem => absurd hmem List.not_mem_nil⟩
  | some parsed =>
    obtain ⟨cmd, left⟩ := parsed
    have hshape := shape_of_plCommandOf haddr hfunc hcmd
    obtain ⟨hplain, hrun⟩ := plCommand_of_plCommandOf c fd hcmd
    have hline' : processcommandline c fd line s =
        ((do or20ok c fd; cmd.send c.env; pure (cmd.flow left)) >>= finish fd : X10M ℤ) s := by
      rw [processcommandline_of_line hline, ← hrun]
      rfl
    constructor
    · intro hzero
      rw [hline'] at hzero ⊢
      obtain ⟨rfl, hselect⟩ := PlCommand.flow_done (flow_of_finish_eq_zero hzero)
      have hnonneg : 0 ≤ func := by
        by_contra hneg
        exact hselect house unit (hshape.select (by omega))
      obtain ⟨m, happlies, hmessages⟩ := hshape.messages hnonneg
      refine ⟨cmd, m, rfl, happlies, hmessages, fun hrange => ⟨fun message hmem =>
        (PlCommand.proper_messages hshape.valid hrange message hmem).readPacket_wire, ?_⟩⟩
      have hor : (or20ok c fd s).effects = or20reply c fd := by
        rw [or20ok, or20reply]
        split_ifs
        all_goals rfl
      have hflow : cmd.flow [] = .rest [] := by
        cases cmd with
        | select h u => exact absurd rfl (hselect h u)
        | toHouse | toUnit | extended => rfl
      simp only [hflow, X10M.bind_apply, hor,
        PlCommand.effects_send hshape.valid hrange]
      simp only [X10M.pure_apply, finish, List.append_nil]
    · intro hunit packet hmem
      obtain ⟨func', param, rfl⟩ := hshape.first hunit
      rw [packets_pl hline hcmd, PlCommand.sent, List.mem_singleton] at hmem
      rw [hmem, head_housefuncPacket]
      decide

/-- The messages of a dim. -/
theorem pl_messages_dim :
    (∀ message ∈ (PlCommand.toUnit 0 0 4 5).messages, readPacket message.wire = some message) ∧
      (processcommandline (.idle (.plain mochadConfigDefaults true)) 4 (ascii "pl a1 dim 5")
        .idle).effects = (PlCommand.toUnit 0 0 4 5).messages.flatMap PlMessage.calls := by
  have hline : commandOfLine (ascii "pl a1 dim 5") =
      some (.pl, [ascii "A1", ascii "DIM", ascii "5"]) := by decide
  have haddr : getdeviceaddr [ascii "A1", ascii "DIM", ascii "5"] =
      ((0, 0), [ascii "DIM", ascii "5"]) := by decide
  have hfunc : getfunc [ascii "DIM", ascii "5"] = (4, [ascii "5"]) := by decide
  obtain ⟨cmd, m, hcmd, -, -, hall⟩ :=
    (pl_messages (.idle (.plain mochadConfigDefaults true)) 4 .idle hline haddr hfunc).1
      (by decide +kernel)
  have hdim : plCommandOf [ascii "A1", ascii "DIM", ascii "5"] =
      some (PlCommand.toUnit 0 0 4 5, []) := by decide
  obtain ⟨rfl, -⟩ := Prod.mk.inj (Option.some.inj (hdim.symm.trans hcmd))
  exact hall fun _ => by decide

end Mochad
