import Mochad.Numerals
import Mochad.X10.Insulation
import Mochad.X10.Reports

/-!
# Reading the lines of events

A program that watches the daemon has nothing but lines. `readEvent` takes a line apart at its
colons and makes an event of the fields, and `readEvent_legacyBody` says that this undoes the
formatting: of a *readable* event, whose names have neither a colon nor a parenthesis in them, all
that its format prints is recovered.

All events are readable (`readable_events`), and fill in nothing that is not printed. So what is
reported can be recovered from the lines that are printed, event by event (`events_read_back`).
-/

namespace Mochad

open X10M (Emits)

/-! ### The reader -/

/-- The direction and the transport that a text begins with, and what is after them. -/
def readHead (text : Bytes) : Option (Direction × Transport × Bytes) :=
  [Direction.rx, .tx].findSome? fun d => [Transport.pl, .rf, .rfsec, .rfcam].findSome? fun t =>
    (text.dropPrefix? (directionLabel d ++ ascii " " ++ transportLabel t ++ ascii " ")).map
      fun rest => (d, t, rest)

/-- The name that a text has for a string which may not be there. -/
def readName (text : Bytes) : Option Bytes := if text = ascii "(null)" then none else some text

/-- The text in front of a label at the end of a field, and behind a blank at its front. -/
def readField (field label : Bytes) : Option Bytes :=
  (field.dropPrefix? (ascii " ")).bind (·.dropSuffix? label)

/-- A house and a unit. -/
def readUnit : Bytes → Option (UInt8 × ℤ)
  | [] => none
  | house :: number => some (house, signedValue number)

/-- A house. -/
def readHouse : Bytes → Option UInt8
  | [house] => some house
  | _ => none

/-- The event of a house's function, which may have a level in parentheses. -/
def readHouseFunction (d : Direction) (t : Transport) (house : UInt8) (function : Bytes) : MochadEvent :=
  let name := function.takeWhile (· ≠ 0x28)
  let event : MochadEvent :=
    { direction := d, transport := t, detail := .house, house := house, function := readName name }
  match function.dropWhile (· ≠ 0x28) with
  | [] => event
  | _ :: level => { event with hasLevel := true, level := signedValue level.dropLast }

/-- **The event of a line.** -/
def readEvent (line : Bytes) : Option MochadEvent :=
  match line.splitOn 0x3a with
  | [all] =>
      (readHead all).map fun (d, t, command) =>
        { direction := d, transport := t, detail := .rfcam, cameraCommand := readName command }
  | [label, device] =>
      (readHead label).bind fun (d, t, _) => (readField device []).bind fun device =>
        (readUnit device).map fun (house, unit) =>
          { direction := d, transport := t, detail := .houseUnit, house := house, unit := unit }
  | [label, subject, function] =>
      (readHead label).bind fun (d, t, kind) =>
        (readField subject (ascii " Func")).bind fun subject =>
        (readField function []).bind fun function =>
          if kind = ascii "HouseUnit" then
            (readUnit subject).map fun (house, unit) =>
              { direction := d, transport := t, detail := .houseUnit, house := house, unit := unit,
                function := readName function }
          else if kind = ascii "House" then
            (readHouse subject).map fun house => readHouseFunction d t house function
          else
            (subject.dropPrefix? (ascii "0x")).map fun address =>
              { direction := d, transport := t, detail := .rfsecShort,
                securityShortAddr := digitsValue 16 address, function := readName function }
  | [label, a, b, c, last] =>
      (readHead label).bind fun (d, t, kind) =>
        if kind = ascii "HouseUnit" then
          (readField a (ascii " Func")).bind fun device => (readUnit device).bind fun (house, unit) =>
            (readField b (ascii " Data")).bind fun function =>
              (readField c (ascii " Command")).bind fun data =>
                (readField last []).map fun command =>
                  { direction := d, transport := t, detail := .houseUnit, house := house, unit := unit,
                    function := readName function, hasExtendedData := true,
                    extendedData := digitsValue 16 data, extendedCommand := digitsValue 16 command }
        else
          (readField a []).bind fun a => (c.dropSuffix? (ascii " Func")).bind fun c =>
            (readField last []).map fun function =>
              { direction := d, transport := t, detail := .rfsecLong,
                securityLongAddr := ((digitsValue 16 a).toUInt8, (digitsValue 16 b).toUInt8,
                  (digitsValue 16 c).toUInt8),
                function := readName function }
  | _ => none

/-! ### What is recovered -/

/-- **What the format of an event prints**, with nothing else filled in. -/
def MochadEvent.printed (event : MochadEvent) : MochadEvent :=
  let blank : MochadEvent :=
    { direction := event.direction, transport := event.transport, detail := event.detail }
  match event.detail with
  | .houseUnit =>
      if event.hasExtendedData then
        { blank with house := event.house, unit := event.unit, function := event.function,
                     hasExtendedData := true, extendedData := event.extendedData,
                     extendedCommand := event.extendedCommand }
      else { blank with house := event.house, unit := event.unit, function := event.function }
  | .house =>
      if event.hasLevel then
        { blank with house := event.house, function := event.function, hasLevel := true,
                     level := event.level }
      else { blank with house := event.house, function := event.function }
  | .rfsecShort =>
      { blank with securityShortAddr := event.securityShortAddr, function := event.function }
  | .rfsecLong =>
      { blank with securityLongAddr := event.securityLongAddr, function := event.function }
  | .rfcam => { blank with cameraCommand := event.cameraCommand }

/-- A name that can be told from what is around it. -/
structure ReadableName (name : Bytes) : Prop where
  colon : 0x3a ∉ name
  parenthesis : 0x28 ∉ name

instance (name : Bytes) : Decidable (ReadableName name) :=
  decidable_of_iff (0x3a ∉ name ∧ 0x28 ∉ name) ⟨fun h => ⟨h.1, h.2⟩, fun h => ⟨h.1, h.2⟩⟩

/-- **An event that can be read back.** -/
structure MochadEvent.Readable (event : MochadEvent) : Prop where
  house : event.house ≠ 0x3a
  function : ∀ name, event.function = some name → ReadableName name
  camera : ∀ command, event.cameraCommand = some command → ReadableName command
  /-- A house is reported with a function, and so is extended data. -/
  named : event.detail = .house ∨ event.hasExtendedData = true → event.function ≠ none

theorem readHead_append (d : Direction) (t : Transport) (rest : Bytes) :
    readHead (directionLabel d ++ ascii " " ++ transportLabel t ++ ascii " " ++ rest) =
      some (d, t, rest) := by
  cases d with
  | rx | tx =>
    cases t with
    | pl | rf | rfsec | rfcam =>
      simp [readHead, List.dropPrefix?, ascii, directionLabel, transportLabel]

theorem readField_append (text label : Bytes) :
    readField (0x20 :: (text ++ label)) label = some text := by
  have hblank : (0x20 :: (text ++ label)).dropPrefix? (ascii " ") = some (text ++ label) :=
    @List.dropPrefix?_append_of_beq UInt8 _ [0x20] (ascii " ") (text ++ label) rfl
  rw [readField, hblank, Option.bind_some]
  exact List.dropSuffix?_eq_some_iff.mpr ⟨label, rfl, beq_self_eq_true label⟩

theorem readField_nil (text : Bytes) : readField (0x20 :: text) [] = some text := by
  have h := readField_append text []
  rwa [List.append_nil] at h

/-- **A string that may not be there is read back.** -/
theorem readName_fmtStr {name : Option Bytes} (h : ∀ text, name = some text → ReadableName text) :
    readName (fmtStr name) = name := by
  cases name with
  | none => rfl
  | some text =>
    refine if_neg ?_
    rintro rfl
    exact absurd (h _ rfl).parenthesis (by decide)

theorem ReadableName.read {text : Bytes} (h : ReadableName text) : readName text = some text := by
  have hread : readName (fmtStr (some text)) = some text :=
    readName_fmtStr fun _ htext => Option.some.inj htext ▸ h
  exact hread

theorem colon_not_mem_fmtStr {name : Option Bytes}
    (h : ∀ text, name = some text → ReadableName text) : 0x3a ∉ fmtStr name := by
  cases name with
  | none => decide
  | some text => exact (h text rfl).colon

/-- A line of fields is taken apart. -/
theorem splitOn_fields {fields : List Bytes} (hne : fields ≠ []) (h : ∀ f ∈ fields, 0x3a ∉ f) :
    (List.intercalate [0x3a] fields).splitOn 0x3a = fields :=
  List.splitOn_intercalate 0x3a h hne

/-- What stands in front of the first colon. -/
def eventLabel (d : Direction) (t : Transport) (kind : Bytes) : Bytes :=
  directionLabel d ++ ascii " " ++ transportLabel t ++ ascii " " ++ kind

theorem readHead_eventLabel (d : Direction) (t : Transport) (kind : Bytes) :
    readHead (eventLabel d t kind) = some (d, t, kind) := readHead_append d t kind

theorem colon_not_mem_eventLabel (d : Direction) (t : Transport) {kind : Bytes} (h : 0x3a ∉ kind) :
    0x3a ∉ eventLabel d t kind := by
  have hlabels : 0x3a ∉ directionLabel d ++ ascii " " ++ transportLabel t ++ ascii " " := by
    cases d with
    | rx | tx =>
      cases t with
      | pl | rf | rfsec | rfcam => decide
  exact fun hmem => (List.mem_append.mp hmem).elim hlabels h

section Fields

variable (d : Direction) (t : Transport) {house : UInt8} {unit level : ℤ} {name : Option Bytes}

theorem colon_not_mem_hex (n : ℕ) : 0x3a ∉ fmtHex2 n := not_mem_fmtHex2 (by decide) n

theorem colon_not_mem_int (n : ℤ) : 0x3a ∉ fmtInt n := not_mem_fmtInt (by decide) (by decide) n

/-- A unit's address. -/
theorem readEvent_device (hhouse : house ≠ 0x3a) :
    readEvent (eventLabel d t (ascii "HouseUnit") ++ ascii ": " ++ [house] ++ fmtInt unit) =
      some { direction := d, transport := t, detail := .houseUnit, house := house,
             unit := unit } := by
  have hfields : eventLabel d t (ascii "HouseUnit") ++ ascii ": " ++ [house] ++ fmtInt unit =
      List.intercalate [0x3a]
        [eventLabel d t (ascii "HouseUnit"), 0x20 :: (house :: fmtInt unit)] := by
    simp [ascii, List.intercalate]
  rw [readEvent, hfields, splitOn_fields (by simp)]
  · simp only [readHead_eventLabel, readField_nil, readUnit, signedValue_fmtInt, Option.bind_some,
      Option.map_some]
  · simp [colon_not_mem_eventLabel, colon_not_mem_int, hhouse.symm, ascii]

/-- A function of a unit. -/
theorem readEvent_deviceFunction (hhouse : house ≠ 0x3a)
    (hname : ∀ text, name = some text → ReadableName text) :
    readEvent (eventLabel d t (ascii "HouseUnit") ++ ascii ": " ++ [house] ++ fmtInt unit ++
      ascii " Func: " ++ fmtStr name) =
      some { direction := d, transport := t, detail := .houseUnit, house := house, unit := unit,
             function := name } := by
  have hfields : eventLabel d t (ascii "HouseUnit") ++ ascii ": " ++ [house] ++ fmtInt unit ++
      ascii " Func: " ++ fmtStr name = List.intercalate [0x3a] [eventLabel d t (ascii "HouseUnit"),
        0x20 :: ((house :: fmtInt unit) ++ ascii " Func"), 0x20 :: fmtStr name] := by
    simp [ascii, List.intercalate]
  rw [readEvent, hfields, splitOn_fields (by simp)]
  · simp only [readHead_eventLabel, readField_append, readField_nil, readUnit, signedValue_fmtInt,
      readName_fmtStr hname, Option.bind_some, Option.map_some, if_true]
  · simp [colon_not_mem_eventLabel, colon_not_mem_int, colon_not_mem_fmtStr hname, hhouse.symm, ascii]

/-- Extended data for a unit. -/
theorem readEvent_extended (hhouse : house ≠ 0x3a) (data command : ℕ)
    (hname : ∀ text, name = some text → ReadableName text) :
    readEvent (eventLabel d t (ascii "HouseUnit") ++ ascii ": " ++ [house] ++ fmtInt unit ++
      ascii " Func: " ++ fmtStr name ++ ascii " Data: " ++ fmtHex2 data ++ ascii " Command: " ++
      fmtHex2 command) =
      some { direction := d, transport := t, detail := .houseUnit, house := house, unit := unit,
             function := name, hasExtendedData := true, extendedData := data,
             extendedCommand := command } := by
  have hfields : eventLabel d t (ascii "HouseUnit") ++ ascii ": " ++ [house] ++ fmtInt unit ++
      ascii " Func: " ++ fmtStr name ++ ascii " Data: " ++ fmtHex2 data ++ ascii " Command: " ++
      fmtHex2 command = List.intercalate [0x3a] [eventLabel d t (ascii "HouseUnit"),
        0x20 :: ((house :: fmtInt unit) ++ ascii " Func"), 0x20 :: (fmtStr name ++ ascii " Data"),
        0x20 :: (fmtHex2 data ++ ascii " Command"), 0x20 :: fmtHex2 command] := by
    simp [ascii, List.intercalate]
  rw [readEvent, hfields, splitOn_fields (by simp)]
  · simp only [readHead_eventLabel, readField_append, readField_nil, readUnit, signedValue_fmtInt,
      readName_fmtStr hname, digitsValue_fmtHex2, Option.bind_some, Option.map_some, if_true]
  · simp [colon_not_mem_eventLabel, colon_not_mem_int, colon_not_mem_hex,
      colon_not_mem_fmtStr hname, hhouse.symm, ascii]

/-- The fields of a house's function. -/
theorem readEvent_house (hhouse : house ≠ 0x3a) {function : Bytes} (hcolon : 0x3a ∉ function) :
    readEvent (eventLabel d t (ascii "House") ++ ascii ": " ++ [house] ++ ascii " Func: " ++
      function) =
      some (readHouseFunction d t house function) := by
  have hfields : eventLabel d t (ascii "House") ++ ascii ": " ++ [house] ++ ascii " Func: " ++
      function = List.intercalate [0x3a] [eventLabel d t (ascii "House"),
        0x20 :: ([house] ++ ascii " Func"), 0x20 :: function] := by
    simp [ascii, List.intercalate]
  have hkind : ascii "House" ≠ ascii "HouseUnit" := by decide
  rw [readEvent, hfields, splitOn_fields (by simp)]
  · simp only [readHead_eventLabel, readField_append, readField_nil, readHouse, Option.bind_some,
      Option.map_some, if_neg hkind, if_true]
  · simp [colon_not_mem_eventLabel, hcolon, hhouse.symm, ascii]

/-- Where the first parenthesis of a text is. -/
theorem takeWhile_parenthesis {name : Bytes} (h : 0x28 ∉ name) (rest : Bytes) :
    (name ++ 0x28 :: rest).takeWhile (· ≠ 0x28) = name ∧
      (name ++ 0x28 :: rest).dropWhile (· ≠ 0x28) = 0x28 :: rest := by
  have hall : ∀ b ∈ name, decide (b ≠ 0x28) = true :=
    fun b hb => decide_eq_true fun heq => h (heq ▸ hb)
  rw [List.takeWhile_append_of_pos hall, List.dropWhile_append_of_pos hall]
  simp

theorem takeWhile_no_parenthesis {name : Bytes} (h : 0x28 ∉ name) :
    name.takeWhile (· ≠ 0x28) = name ∧ name.dropWhile (· ≠ 0x28) = [] := by
  have hall : ∀ b ∈ name, decide (b ≠ 0x28) = true :=
    fun b hb => decide_eq_true fun heq => h (heq ▸ hb)
  rw [List.takeWhile_eq_self_iff.mpr hall, List.dropWhile_eq_nil_iff.mpr hall]
  exact ⟨rfl, rfl⟩

/-- A function of a house. -/
theorem readEvent_houseFunction (hhouse : house ≠ 0x3a) {text : Bytes} (htext : ReadableName text) :
    readEvent (eventLabel d t (ascii "House") ++ ascii ": " ++ [house] ++ ascii " Func: " ++ text) =
      some { direction := d, transport := t, detail := .house, house := house,
             function := some text } := by
  have hname := htext.read
  obtain ⟨htake, hdrop⟩ := takeWhile_no_parenthesis htext.parenthesis
  rw [readEvent_house d t hhouse htext.colon, readHouseFunction, htake, hdrop, hname]

/-- A function of a house, with a level. -/
theorem readEvent_houseLevel (hhouse : house ≠ 0x3a) {text : Bytes} (htext : ReadableName text)
    (level : ℤ) :
    readEvent (eventLabel d t (ascii "House") ++ ascii ": " ++ [house] ++ ascii " Func: " ++ text ++
      ascii "(" ++ fmtInt level ++ ascii ")") =
      some { direction := d, transport := t, detail := .house, house := house,
             function := some text, hasLevel := true, level := level } := by
  have hname := htext.read
  have hcolon : 0x3a ∉ text ++ 0x28 :: (fmtInt level ++ [0x29]) := by
    simp [htext.colon, colon_not_mem_int]
  have hlevel : (fmtInt level ++ [0x29]).dropLast = fmtInt level := List.dropLast_concat
  obtain ⟨htake, hdrop⟩ := takeWhile_parenthesis htext.parenthesis (fmtInt level ++ [0x29])
  have hread := readEvent_house d t hhouse hcolon
  rw [readHouseFunction, htake, hdrop, hname] at hread
  simp only [hlevel, signedValue_fmtInt] at hread
  rw [← hread]
  simp [ascii]

/-- A security frame with a short address. -/
theorem readEvent_short (address : ℕ) (hname : ∀ text, name = some text → ReadableName text) :
    readEvent (eventLabel d t (ascii "Addr") ++ ascii ": 0x" ++ fmtHex2 address ++ ascii " Func: " ++
      fmtStr name) =
      some { direction := d, transport := t, detail := .rfsecShort, securityShortAddr := address,
             function := name } := by
  have hfields : eventLabel d t (ascii "Addr") ++ ascii ": 0x" ++ fmtHex2 address ++
      ascii " Func: " ++ fmtStr name = List.intercalate [0x3a] [eventLabel d t (ascii "Addr"),
        0x20 :: ((ascii "0x" ++ fmtHex2 address) ++ ascii " Func"), 0x20 :: fmtStr name] := by
    simp [ascii, List.intercalate]
  have hunit : ascii "Addr" ≠ ascii "HouseUnit" := by decide
  have hhouse : ascii "Addr" ≠ ascii "House" := by decide
  have hfront : (ascii "0x" ++ fmtHex2 address).dropPrefix? (ascii "0x") = some (fmtHex2 address) :=
    List.dropPrefix?_append_of_beq _ (beq_self_eq_true _)
  rw [readEvent, hfields, splitOn_fields (by simp)]
  · simp only [readHead_eventLabel, readField_append, readField_nil, if_neg hunit, if_neg hhouse,
      hfront, readName_fmtStr hname, digitsValue_fmtHex2, Option.bind_some, Option.map_some]
  · simp [colon_not_mem_eventLabel, colon_not_mem_hex, colon_not_mem_fmtStr hname, ascii]

/-- A security frame with a long address. -/
theorem readEvent_long (address : UInt8 × UInt8 × UInt8)
    (hname : ∀ text, name = some text → ReadableName text) :
    readEvent (eventLabel d t (ascii "Addr") ++ ascii ": " ++ fmtHex2 address.1.toNat ++ ascii ":" ++
      fmtHex2 address.2.1.toNat ++ ascii ":" ++ fmtHex2 address.2.2.toNat ++ ascii " Func: " ++
      fmtStr name) =
      some { direction := d, transport := t, detail := .rfsecLong, securityLongAddr := address,
             function := name } := by
  have hfields : eventLabel d t (ascii "Addr") ++ ascii ": " ++ fmtHex2 address.1.toNat ++
      ascii ":" ++ fmtHex2 address.2.1.toNat ++ ascii ":" ++ fmtHex2 address.2.2.toNat ++
      ascii " Func: " ++ fmtStr name = List.intercalate [0x3a] [eventLabel d t (ascii "Addr"),
        0x20 :: fmtHex2 address.1.toNat, fmtHex2 address.2.1.toNat,
        fmtHex2 address.2.2.toNat ++ ascii " Func", 0x20 :: fmtStr name] := by
    simp [ascii, List.intercalate]
  have hunit : ascii "Addr" ≠ ascii "HouseUnit" := by decide
  have hsuffix : (fmtHex2 address.2.2.toNat ++ ascii " Func").dropSuffix? (ascii " Func") =
      some (fmtHex2 address.2.2.toNat) :=
    List.dropSuffix?_eq_some_iff.mpr ⟨_, rfl, beq_self_eq_true _⟩
  rw [readEvent, hfields, splitOn_fields (by simp)]
  · simp only [readHead_eventLabel, readField_nil, if_neg hunit, hsuffix, readName_fmtStr hname,
      digitsValue_fmtHex2, UInt8.ofNat_toNat, Option.bind_some, Option.map_some]
  · simp [colon_not_mem_eventLabel, colon_not_mem_hex, colon_not_mem_fmtStr hname, ascii]

/-- A camera's command. -/
theorem readEvent_camera (hname : ∀ text, name = some text → ReadableName text) :
    readEvent (eventLabel d t (fmtStr name)) =
      some { direction := d, transport := t, detail := .rfcam, cameraCommand := name } := by
  have hcolon := colon_not_mem_eventLabel d t (colon_not_mem_fmtStr hname)
  rw [readEvent, List.splitOn_eq_singleton hcolon]
  simp only [readHead_eventLabel, readName_fmtStr hname, Option.map_some]

end Fields

/-- **Formatting is undone by reading**: what is printed of a readable event is recovered. -/
theorem readEvent_legacyBody {event : MochadEvent} (h : event.Readable) :
    readEvent (legacyBody event) = some event.printed := by
  have hlabel : ∀ kind label : Bytes, label = ascii " " ++ kind →
      directionLabel event.direction ++ ascii " " ++ transportLabel event.transport ++ label =
        eventLabel event.direction event.transport kind := by
    rintro kind label rfl
    simp [eventLabel]
  rw [legacyBody, MochadEvent.printed]
  cases hdetail : event.detail with
  | houseUnit =>
    have hunit := hlabel (ascii "HouseUnit") (ascii " HouseUnit") (by decide)
    dsimp only
    by_cases hextended : event.hasExtendedData = true
    · rw [if_pos hextended, if_pos hextended,
        ← readEvent_extended event.direction event.transport h.house _ _ h.function, ← hunit]
      simp [ascii]
    rw [if_neg hextended, if_neg hextended]
    by_cases hnone : event.function = none
    · rw [if_pos hnone, hnone, ← readEvent_device event.direction event.transport h.house, ← hunit]
      simp [ascii]
    · rw [if_neg hnone,
        ← readEvent_deviceFunction event.direction event.transport h.house h.function, ← hunit]
      simp [ascii]
  | house =>
    have hhouse := hlabel (ascii "House") (ascii " House") (by decide)
    obtain ⟨text, htext⟩ := Option.ne_none_iff_exists'.mp (h.named (Or.inl hdetail))
    have hreadable := h.function text htext
    dsimp only
    rw [htext]
    by_cases hlevel : event.hasLevel = true
    · rw [if_pos hlevel, if_pos hlevel,
        ← readEvent_houseLevel event.direction event.transport h.house hreadable, ← hhouse]
      simp [ascii, fmtStr]
    · rw [if_neg hlevel, if_neg hlevel,
        ← readEvent_houseFunction event.direction event.transport h.house hreadable, ← hhouse]
      simp [ascii, fmtStr]
  | rfsecShort =>
    have haddr := hlabel (ascii "Addr") (ascii " Addr") (by decide)
    dsimp only
    rw [← readEvent_short event.direction event.transport _ h.function, ← haddr]
    simp [ascii]
  | rfsecLong =>
    have haddr := hlabel (ascii "Addr") (ascii " Addr") (by decide)
    dsimp only
    rw [← readEvent_long event.direction event.transport _ h.function, ← haddr]
    simp [ascii]
  | rfcam =>
    dsimp only
    rw [← readEvent_camera event.direction event.transport h.camera, eventLabel]

/-! ### What is reported is readable -/

/-- **An event that its line determines.** -/
def MochadEvent.ReadBack (event : MochadEvent) : Prop := readEvent (legacyBody event) = some event

theorem MochadEvent.Readable.readBack {event : MochadEvent} (h : event.Readable)
    (hprinted : event.printed = event) : event.ReadBack :=
  (readEvent_legacyBody h).trans (congrArg some hprinted)

/-- Lines determine all of these events. -/
def AllReadBack (events : List MochadEvent) : Prop := ∀ e ∈ events, e.ReadBack

namespace AllReadBack

variable {events events' : List MochadEvent}

theorem nil : AllReadBack [] := fun _ h => absurd h List.not_mem_nil

theorem singleton {event : MochadEvent} (h : event.ReadBack) : AllReadBack [event] :=
  List.forall_mem_singleton.mpr h

theorem append (h : AllReadBack events) (h' : AllReadBack events') :
    AllReadBack (events ++ events') :=
  List.forall_mem_append.mpr ⟨h, h'⟩

theorem ite {p : Prop} [Decidable p] (h : AllReadBack events) (h' : AllReadBack events') :
    AllReadBack (if p then events else events') := by
  split
  · exact h
  · exact h'

end AllReadBack

/-- A name of a table can be read, if all of them can. -/
theorem readableName_findName {table : List (UInt8 × Bytes)} (h : ∀ e ∈ table, ReadableName e.2)
    {funct : UInt8} {name : Bytes} (hname : findName table funct = some name) :
    ReadableName name := by
  obtain ⟨e, he, rfl⟩ := Option.map_eq_some_iff.mp hname
  exact h e (List.mem_of_find?_eq_some he)

theorem readableName_funcnameAt {func : ℕ} {name : Bytes} (h : funcnameAt func = some name) :
    ReadableName name := by
  have hall : ∀ name ∈ funcname, ReadableName name := by decide
  exact hall name (List.mem_of_getElem? h)

/-- The letters of the power-line tables are not colons. -/
theorem hucDecode_ne_colon : ∀ houseunit, (hucDecode houseunit).1 ≠ 0x3a :=
  forall_byte (by decide +kernel)

theorem hfcDecode_ne_colon : ∀ housefunc, (hfcDecode housefunc).1 ≠ 0x3a :=
  forall_byte (by decide +kernel)

/-- The name of a camera's key. -/
theorem readableName_camRemoteName {camcommand : Memory} {commandlen : ℕ} {name : Bytes}
    (h : findCamRemoteName camcommand commandlen = some name) : ReadableName name := by
  have hnibble : ∀ b : UInt8, tableAt houseUnitTableRF ((b >>> 4) &&& 0x0f).toNat ≠ 0x3a ∧
      tableAt houseUnitTableRF ((b >>> 4) &&& 0x0f).toNat ≠ 0x28 := forall_byte (by decide +kernel)
  have hkeys : ∀ key ∈ rfcamKeyCodes, ReadableName (key.getD []) := by decide
  simp only [findCamRemoteName] at h
  split at h
  · cases h
  split at h
  · cases h
  split at h
  · cases h
  obtain ⟨key, hkey, rfl⟩ := Option.map_eq_some_iff.mp h
  have hreadable : ReadableName key := by
    rw [List.getD_eq_getElem?_getD] at hkey
    cases hget : rfcamKeyCodes[(camcommand 2).toNat - 0x54]? with
    | none =>
      rw [hget] at hkey
      cases hkey
    | some entry =>
      rw [hget, Option.getD_some] at hkey
      exact hkeys (some key) (hkey ▸ List.mem_of_getElem? hget)
  obtain ⟨hcolon, hparenthesis⟩ := hnibble (camcommand 3)
  constructor
  · exact List.not_mem_cons_of_ne_of_not_mem hcolon.symm
      (List.not_mem_cons_of_ne_of_not_mem (by decide) hreadable.colon)
  · exact List.not_mem_cons_of_ne_of_not_mem hparenthesis.symm
      (List.not_mem_cons_of_ne_of_not_mem (by decide) hreadable.parenthesis)

/-- The key that an accepted camera frame names. -/
theorem camera_of_frame {buf : Memory} {len : ℕ} {command : Bytes}
    (h : rfFrame buf len = some (.camera command)) :
    findCamRemoteName (fun i => buf (i + 1)) (len - 1) = some command := by
  rw [rfFrame] at h
  split at h
  · cases h
  split at h
  · obtain ⟨name, hname, hsame⟩ := Option.map_eq_some_iff.mp h
    exact RfFrame.camera.inj hsame ▸ hname
  split at h
  · split at h
    · split at h
      · cases h
      · cases h
    split at h
    · split at h
      · cases h
      · rcases hufcDecode (buf 2) (buf 4) with ⟨housechar, unit, func⟩
        dsimp only at h
        split at h
        · cases h
        · cases h
    · cases h
  split at h
  · cases hsec : secafDecode buf len with
    | error e =>
      rw [hsec] at h
      cases h
    | ok a =>
      rw [hsec] at h
      cases h
  · cases h

/-- **The event of an accepted frame is determined by its line.** -/
theorem readBack_event {buf : Memory} {len : ℕ} {frame : RfFrame}
    (h : rfFrame buf len = some frame) (marker : UInt8) : (frame.event marker).ReadBack := by
  have hnamed := named_of_frame h
  have hletter : ∀ {house : ℤ}, IsUnit house → houseChar house ≠ 0x3a := by
    intro house hhouse
    have hall : ∀ n : Fin 16, houseChar (n : ℕ) ≠ 0x3a := by decide
    obtain ⟨n, rfl⟩ := IsUnit.exists_fin hhouse
    exact hall n
  have hzero : (0 : UInt8) ≠ 0x3a := by decide
  have hnone : ∀ text : Bytes, (none : Option Bytes) = some text → ReadableName text := by
    rintro text ⟨⟩
  cases frame with
  | camera command =>
    refine MochadEvent.Readable.readBack ⟨hzero, hnone, ?_, ?_⟩ rfl
    · rintro text ⟨⟩
      exact readableName_camRemoteName (camera_of_frame h)
    · rintro (hdetail | hextended)
      · cases hdetail
      · cases hextended
  | short address function =>
    refine MochadEvent.Readable.readBack ⟨hzero, fun text ht => ?_, hnone, ?_⟩ rfl
    · have hall : ∀ e ∈ secRemoteKeyNames, ReadableName e.2 := by decide
      exact readableName_findName hall ht
    · rintro (hdetail | hextended)
      · cases hdetail
      · cases hextended
  | long address function =>
    refine MochadEvent.Readable.readBack ⟨hzero, fun text ht => ?_, hnone, ?_⟩ rfl
    · have hall : ∀ e ∈ secEventNames, ReadableName e.2 := by decide
      exact readableName_findName hall ht
    · rintro (hdetail | hextended)
      · cases hdetail
      · cases hextended
  | dim housechar func =>
    obtain ⟨house, hhouse, rfl, hfunc⟩ := hnamed
    refine MochadEvent.Readable.readBack ⟨hletter hhouse, fun text ht => ?_, hnone, fun _ => ?_⟩ rfl
    · exact readableName_funcnameAt ht
    · obtain rfl | rfl := hfunc
      · exact Option.some_ne_none (ascii "Dim")
      · exact Option.some_ne_none (ascii "Bright")
  | switch housechar unit func =>
    obtain ⟨house, u, hhouse, -, rfl, -, -⟩ := hnamed
    refine MochadEvent.Readable.readBack ⟨hletter hhouse, fun text ht => ?_, hnone, ?_⟩ rfl
    · exact readableName_funcnameAt ht
    · rintro (hdetail | hextended)
      · cases hdetail
      · cases hextended

/-- **What the power line reports is determined by its lines.** -/
theorem readBack_plcEvents (buf : Memory) (len : ℕ) : AllReadBack (plcEvents buf len) := by
  have hnone : ∀ text : Bytes, (none : Option Bytes) = some text → ReadableName text := by
    rintro text ⟨⟩
  have hname : ∀ func : ℕ, ∀ text, funcnameAt func = some text → ReadableName text :=
    fun func text ht => readableName_funcnameAt ht
  have hthere : ∀ hf : UInt8, funcnameAt (hfcDecode hf).2 ≠ none :=
    forall_byte (by decide +kernel)
  refine AllReadBack.ite .nil (AllReadBack.ite .nil (AllReadBack.ite (AllReadBack.ite .nil ?_)
    (AllReadBack.ite (AllReadBack.ite .nil ?_) (AllReadBack.ite (AllReadBack.ite .nil ?_)
    (AllReadBack.ite (AllReadBack.ite .nil ?_) (AllReadBack.ite (AllReadBack.ite .nil ?_) .nil))))))
  · refine .singleton (MochadEvent.Readable.readBack ⟨hucDecode_ne_colon _, hnone, hnone, ?_⟩ rfl)
    rintro (hdetail | hextended)
    · cases hdetail
    · cases hextended
  · exact .singleton (MochadEvent.Readable.readBack
      ⟨hfcDecode_ne_colon _, hname _, hnone, fun _ => hthere _⟩ rfl)
  · exact .singleton (MochadEvent.Readable.readBack
      ⟨hfcDecode_ne_colon _, hname _, hnone, fun _ => hthere _⟩ rfl)
  · exact .singleton (MochadEvent.Readable.readBack
      ⟨hfcDecode_ne_colon _, hname _, hnone, fun _ => hthere _⟩ rfl)
  · exact .singleton (MochadEvent.Readable.readBack
      ⟨hfcDecode_ne_colon _, hname _, hnone, fun _ => hthere _⟩ rfl)

theorem readBack_plEvents (env : Env) (cmd : PlCommand) : AllReadBack (cmd.events env) := by
  have hunit : ∀ house unit, AllReadBack (plTxHouseunitEvents env house unit) :=
    fun house unit => readBack_plcEvents _ 4
  have hfunc : ∀ house func param, AllReadBack (plTxHousefuncEvents env house func param) :=
    fun house func param => AllReadBack.ite (readBack_plcEvents _ 5)
      (AllReadBack.ite (readBack_plcEvents _ 7) (readBack_plcEvents _ 4))
  have hextended : ∀ house unit command subcmd param,
      AllReadBack (plTxExtendedCode1Events env house unit command subcmd param) :=
    fun house unit command subcmd param => readBack_plcEvents _ 7
  cases cmd with
  | select house unit => exact hunit house unit
  | toHouse house func param => exact hfunc house func param
  | toUnit house unit func param => exact (hunit house unit).append (hfunc house func param)
  | extended house unit command subcmd param => exact hextended house unit command subcmd param

theorem readBack_rfEvents (env : Env) (s : X10State) (buf₀ : Memory) (len₀ : ℕ) :
    AllReadBack (rfEvents env s buf₀ len₀) := by
  rw [rfEvents]
  rcases trimMarkers buf₀ len₀ with ⟨buf, len⟩
  dsimp only
  cases hframe : rfFrame buf len with
  | none => exact .nil
  | some frame =>
    refine AllReadBack.ite .nil (List.forall_mem_cons.mpr ⟨readBack_event hframe _, ?_⟩)
    rw [RfFrame.relayedEvents]
    cases frame.plCommand with
    | none => exact AllReadBack.nil
    | some a => exact AllReadBack.ite (readBack_plEvents env a.2) .nil

theorem readBack_packetEvents (env : Env) (s : X10State) (buf : Memory) (len : ℕ) :
    AllReadBack (packetEvents env s buf len) := by
  rw [packetEvents]
  cases seenPacket env buf len with
  | none => exact .nil
  | some a =>
    have hrf := readBack_rfEvents env s a.1 a.2
    exact .ite .nil (.ite (readBack_plcEvents a.1 a.2) (.ite hrf .nil))

theorem readBack_commandEvents (c : Ctx) (s : X10State) (line : Bytes) :
    AllReadBack (commandEvents c s line) := by
  rw [commandEvents]
  cases commandOfLine line with
  | none => exact .nil
  | some a =>
    refine AllReadBack.ite ?_ ?_
    · rw [plEvents]
      cases plCommandOf a.2 with
      | none => exact .nil
      | some cmd => exact readBack_plEvents c.env cmd.1
    · cases radioCommandOf a.1 a.2 with
      | none => exact .nil
      | some cmd => exact readBack_rfEvents c.env s _ _

/-! ### Reading what is printed -/

/-- **What is heard in the lines that are printed**, without their newlines. -/
def heardEvents (es : List Effect) : List MochadEvent :=
  es.filterMap fun e =>
    match e with
    | .sockprintf _ text => readEvent text.dropLast
    | _ => none

theorem readHead_directed {text : Bytes} (h : ¬Directed text) : readHead text = none := by
  have hfront : ∀ d t, text.dropPrefix? (directionLabel d ++ ascii " " ++ transportLabel t ++
      ascii " ") = none := by
    intro d t
    cases hdrop : text.dropPrefix?
        (directionLabel d ++ ascii " " ++ transportLabel t ++ ascii " ") with
    | none => rfl
    | some rest =>
      obtain ⟨front, rfl, hfront⟩ := List.dropPrefix?_eq_some_iff.mp hdrop
      obtain rfl := eq_of_beq hfront
      refine absurd ?_ h
      rw [List.append_assoc, List.append_assoc]
      cases d with
      | rx => exact Or.inl ⟨_, rfl⟩
      | tx => exact Or.inr ⟨_, rfl⟩
  refine List.findSome?_eq_none_iff.mpr fun d _ => List.findSome?_eq_none_iff.mpr fun t _ => ?_
  rw [hfront d t, Option.map_none]

/-- **A line that does not begin with a direction is no event.** -/
theorem readEvent_undirected {text : Bytes} (h : ¬Directed text) : readEvent text = none := by
  have hfirst : ∀ {first : Bytes} {rest : List Bytes}, text.splitOn 0x3a = first :: rest →
      readHead first = none := by
    intro first rest hsplit
    refine readHead_directed fun hdirected => h ?_
    -- the text is its fields again, so it begins with the first of them
    have hfront : first <+: text := by
      have hjoin : List.intercalate [0x3a] (text.splitOn 0x3a) = text :=
        List.intercalate_splitOn 0x3a
      rw [hsplit] at hjoin
      rw [← hjoin]
      cases rest with
      | nil => simp [List.intercalate]
      | cons second rest =>
        exact List.prefix_append first ([0x3a] ++ List.intercalate [0x3a] (second :: rest))
    exact hdirected.imp (·.trans hfront) (·.trans hfront)
  rw [readEvent]
  split
  next all hsplit => rw [hfirst hsplit, Option.map_none]
  next hsplit => rw [hfirst hsplit, Option.bind_none]
  next hsplit => rw [hfirst hsplit, Option.bind_none]
  next hsplit => rw [hfirst hsplit, Option.bind_none]
  · rfl

/-- **What is heard is what is reported**, if its lines determine it. -/
theorem Reports.heard {α : Type} {m : X10M α} {s : X10State} {events : List MochadEvent}
    (h : Reports m s events) (hfits : ∀ e ∈ events, (legacyBody e).length < 256)
    (hback : AllReadBack events) : heardEvents (m s).effects = events := by
  have hlines : heardEvents (m s).effects =
      (eventLines (m s).effects).filterMap fun text => readEvent text.dropLast := by
    rw [heardEvents, eventLines, List.filterMap_filterMap]
    refine List.filterMap_congr fun e _ => ?_
    cases e with
    | sockprintf fd text =>
      dsimp only
      split_ifs with hdirected
      · rfl
      · refine readEvent_undirected fun hdrop => hdirected ?_
        exact hdrop.imp (·.trans (List.dropLast_prefix text)) (·.trans (List.dropLast_prefix text))
    | statusprintf | sendAll | x10Write => rfl
  rw [hlines, show eventLines (m s).effects = dispatched events from h, dispatched,
    List.filterMap_filterMap]
  clear h hlines
  induction events with
  | nil => rfl
  | cons e events ih =>
    have hread : (mochadEventFormatLegacyBody e 256).map (· ++ ascii "\n") =
        some (legacyBody e ++ ascii "\n") := by
      rw [mochadEventFormatLegacyBody, checkedSnprintf, if_pos (hfits e List.mem_cons_self),
        Option.map_some]
    have hline : readEvent (legacyBody e ++ ascii "\n").dropLast = some e := by
      rw [show ascii "\n" = [0x0a] from rfl, List.dropLast_concat]
      exact hback e List.mem_cons_self
    rw [List.filterMap_cons, hread, Option.bind_some, hline,
      ih (fun e' he => hfits e' (List.mem_cons_of_mem e he))
        (fun e' he => hback e' (List.mem_cons_of_mem e he))]

/-- What is heard of a packet. -/
theorem heard_decodeWith (c : Ctx) (buf : Memory) (len : ℕ) (s : X10State) :
    heardEvents (decodeWith c buf len s).effects = packetEvents c.env s buf len :=
  Reports.heard (reports_cm15aDecode (reportsPl_processDepth c 1) buf len s)
    (fits_packetEvents c.env s buf len) (readBack_packetEvents c.env s buf len)

/-- What is heard of a command line. -/
theorem heard_processcommandline (c : Ctx) (fd : ℤ) (line : Bytes) (s : X10State) :
    heardEvents (processcommandline c fd line s).effects = commandEvents c s line :=
  (reports_processcommandline c fd line s).heard
    (fun e he => (whole_commandEvents c s line e he).fits) (readBack_commandEvents c s line)

/-- **The lines that are printed give back the events**: of a packet, whatever it is, and of a
command line. What is read in the lines, one by one and nothing else known, is the list of events
that were reported, with all their fields; and no other line is taken for an event. -/
theorem events_read_back (c : Ctx) (fd : ℤ) (s : X10State) :
    (∀ buf len, heardEvents (decodeWith c buf len s).effects = packetEvents c.env s buf len) ∧
      ∀ line, heardEvents (processcommandline c fd line s).effects = commandEvents c s line :=
  ⟨fun buf len => heard_decodeWith c buf len s, fun line => heard_processcommandline c fd line s⟩

end Mochad
