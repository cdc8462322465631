import Mochad.Core.X10Side
import Mochad.Numerals
import Mochad.X10.TableBounds

/-!
# The report of the devices

A client that sends `st` is told which units are selected and the state of every unit, house by
house, between headings; a house with nothing to tell is left out. `readSelected` and `readState`
are how a client reads the lines, behind their stamps, and what they read is what the tables have,
of every unit of every house (`st_read_back`).
-/

namespace Mochad

open X10M (gets modify)

/-! ### How a client reads -/

/-- The lines that are printed to a descriptor. -/
def printedTo (fd : ℤ) (es : List Effect) : List Bytes :=
  es.filterMap fun
    | .sockprintf fd' body => if fd' = fd then some body else none
    | _ => none

/-- The lines between two headings. -/
def partOf (first last : Bytes) (lines : List Bytes) : List Bytes :=
  (lines.dropWhile (· ≠ first)).tail.takeWhile (· ≠ last)

/-- A house by its letter. -/
def houseLetter (house : ℕ) : UInt8 := (0x41 + house).toUInt8

/-- **What a line says of a house**: its letter, and the items after it. -/
def readHouseLine (line : Bytes) : Option (UInt8 × List Bytes) :=
  (line.dropPrefix? (ascii "House ")).bind fun rest => rest.head?.bind fun letter =>
    (rest.tail.dropPrefix? (ascii ": ")).bind fun text =>
      (text.dropSuffix? (ascii "\n\r")).map fun items => (letter, items.splitOn 0x2c)

/-- The items of a line, if it is about a house. -/
def readItems (house : ℕ) (line : Bytes) : Option (List Bytes) :=
  (readHouseLine line).bind fun p => if p.1 = houseLetter house then some p.2 else none

/-- The items of a house in a part of the report. -/
def itemsOf (lines : List Bytes) (house : ℕ) : List Bytes :=
  (lines.findSome? (readItems house)).getD []

/-- **Whether a unit is selected**, as the lines of the report say. -/
def readSelected (lines : List Bytes) (house unit : ℕ) : Bool :=
  (itemsOf (partOf (ascii "Device selected\n\r") (ascii "Device status\n\r") lines) house).any
    fun item => digitsValue 10 item = unit + 1

/-- The state of a unit, if an item is about it. -/
def readItem (unit : ℕ) (item : Bytes) : Option UInt8 :=
  match item.splitOn 0x3d with
  | [number, [state]] => if digitsValue 10 number = unit + 1 then some state else none
  | _ => none

/-- **The state of a unit**, as the lines of the report say. -/
def readState (lines : List Bytes) (house unit : ℕ) : Option UInt8 :=
  (itemsOf (partOf (ascii "Device status\n\r") (ascii "Security sensor status\n\r") lines)
    house).findSome? (readItem unit)

/-! ### The lines of a part -/

/-- The line of a house. -/
def houseLine (house : ℕ) (items : List Bytes) : Bytes :=
  ascii "House " ++ [houseLetter house] ++ ascii ": " ++ List.intercalate (ascii ",") items ++
    ascii "\n\r"

/-- The lines of the houses that have something to tell. -/
def houseLines (items : ℕ → List Bytes) : List Bytes :=
  (units.filter fun h => items h ≠ []).map fun h => houseLine h (items h)

theorem houseLetter_inj : ∀ h ∈ units, ∀ h' ∈ units, houseLetter h = houseLetter h' → h = h' := by
  decide

theorem readHouseLine_houseLine (house : ℕ) {items : List Bytes} (hne : items ≠ [])
    (h : ∀ item ∈ items, 0x2c ∉ item) :
    readHouseLine (houseLine house items) = some (houseLetter house, items) := by
  have hfirst : (houseLine house items).dropPrefix? (ascii "House ") =
      some (houseLetter house :: (ascii ": " ++
        (List.intercalate (ascii ",") items ++ ascii "\n\r"))) := by
    have hline : houseLine house items = ascii "House " ++ (houseLetter house :: (ascii ": " ++
        (List.intercalate (ascii ",") items ++ ascii "\n\r"))) := by
      simp [houseLine]
    rw [hline]
    exact List.dropPrefix?_append_of_beq _ (beq_self_eq_true _)
  have hcolon : (ascii ": " ++ (List.intercalate (ascii ",") items ++ ascii "\n\r")).dropPrefix?
      (ascii ": ") = some (List.intercalate (ascii ",") items ++ ascii "\n\r") :=
    List.dropPrefix?_append_of_beq _ (beq_self_eq_true _)
  have hend : (List.intercalate (ascii ",") items ++ ascii "\n\r").dropSuffix? (ascii "\n\r") =
      some (List.intercalate (ascii ",") items) :=
    List.dropSuffix?_eq_some_iff.mpr ⟨_, rfl, beq_self_eq_true _⟩
  rw [readHouseLine, hfirst, Option.bind_some, List.head?_cons, Option.bind_some, List.tail_cons,
    hcolon, Option.bind_some, hend, Option.map_some]
  exact congrArg (fun items => some (houseLetter house, items))
    (List.splitOn_intercalate 0x2c h hne)

/-- A search finds what only one place has. -/
theorem search_unique {α β : Type*} {l : List α} {f : α → Option β} {a : α} (ha : a ∈ l)
    (hother : ∀ b ∈ l, b ≠ a → f b = none) : l.findSome? f = f a := by
  cases hfound : l.findSome? f with
  | none => exact (List.findSome?_eq_none_iff.mp hfound a ha).symm
  | some x =>
    obtain ⟨b, hb, hx⟩ := List.exists_of_findSome?_eq_some hfound
    by_cases hba : b = a
    · rw [← hba, hx]
    · rw [hother b hb hba] at hx
      cases hx

/-- **The items of a house are read**, none if it is left out. -/
theorem itemsOf_houseLines {items : ℕ → List Bytes}
    (h : ∀ house, ∀ item ∈ items house, 0x2c ∉ item) {house : ℕ} (hhouse : house ∈ units) :
    itemsOf (houseLines items) house = items house := by
  have hread : ∀ h' ∈ units.filter fun h => items h ≠ [],
      readItems house (houseLine h' (items h')) = if h' = house then some (items h') else none := by
    intro h' hmem
    obtain ⟨hunit, hne⟩ := List.mem_filter.mp hmem
    rw [readItems, readHouseLine_houseLine h' (of_decide_eq_true hne) (h h'), Option.bind_some]
    by_cases hsame : h' = house
    · rw [if_pos hsame, if_pos (congrArg houseLetter hsame)]
    · rw [if_neg hsame, if_neg fun hletter => hsame (houseLetter_inj h' hunit house hhouse hletter)]
  rw [itemsOf, houseLines, List.findSome?_map]
  by_cases hnil : items house = []
  · have hnone : (units.filter fun h => items h ≠ []).findSome?
        (readItems house ∘ fun h => houseLine h (items h)) = none := by
      refine List.findSome?_eq_none_iff.mpr fun h' hmem => ?_
      have hne : items h' ≠ [] := of_decide_eq_true (List.mem_filter.mp hmem).2
      have hother : h' ≠ house := fun hsame => hne (by rw [hsame, hnil])
      exact (hread h' hmem).trans (if_neg hother)
    rw [hnone, hnil]
    rfl
  · have hmem : house ∈ units.filter fun h => items h ≠ [] :=
      List.mem_filter.mpr ⟨hhouse, decide_eq_true hnil⟩
    have hfound : (units.filter fun h => items h ≠ []).findSome?
        (readItems house ∘ fun h => houseLine h (items h)) = some (items house) :=
      (search_unique hmem fun h' hmem' hne => (hread h' hmem').trans (if_neg hne)).trans
        ((hread house hmem).trans (if_pos rfl))
    rw [hfound]
    rfl

/-- The lines between two headings are found. -/
theorem partOf_append {first last : Bytes} {before lines : List Bytes} (hbefore : first ∉ before)
    (hlines : last ∉ lines) (rest : List Bytes) :
    partOf first last (before ++ first :: (lines ++ last :: rest)) = lines := by
  have hdrop : (before ++ first :: (lines ++ last :: rest)).dropWhile (· ≠ first) =
      first :: (lines ++ last :: rest) := by
    have hpass : ∀ l ∈ before, decide (l ≠ first) = true := by
      intro l hl
      refine decide_eq_true ?_
      rintro rfl
      exact hbefore hl
    rw [List.dropWhile_append_of_pos hpass, List.dropWhile_cons_of_neg (by simp)]
  have hkeep : ∀ l ∈ lines, decide (l ≠ last) = true := by
    intro l hl
    refine decide_eq_true ?_
    rintro rfl
    exact hlines hl
  rw [partOf, hdrop, List.tail_cons, List.takeWhile_append_of_pos hkeep,
    List.takeWhile_cons_of_neg (by simp), List.append_nil]

/-- A heading is not the line of a house. -/
theorem not_mem_houseLines {heading : Bytes} (h : heading.head? ≠ some 0x48)
    (items : ℕ → List Bytes) : heading ∉ houseLines items := by
  intro hmem
  obtain ⟨house, _, rfl⟩ := List.mem_map.mp hmem
  exact h rfl

/-! ### The report -/

/-- The units of a house that are selected. -/
def selectedItems (s : X10State) (house : ℕ) : List Bytes :=
  (units.filter fun (u : ℕ) => s.houseUnitSelected house u ≠ 0).map fun u => fmtNat (u + 1)

/-- The units of a house that have a state. -/
def stateItems (s : X10State) (house : ℕ) : List Bytes :=
  (units.filter fun (u : ℕ) => s.houseUnitState house u ≠ 0).map fun u =>
    fmtNat (u + 1) ++ ascii "=" ++ [s.houseUnitState house u]

theorem forM_showHouse (fd : ℤ) (items : ℕ → List Bytes) (s : X10State) :
    (units.forM fun h => showHouse fd h (items h)) s =
      ⟨⟨⟩, s, (houseLines items).map (.sockprintf fd)⟩ := by
  have hall : ∀ l : List ℕ, (l.forM fun h => showHouse fd h (items h)) s =
      ⟨⟨⟩, s, ((l.filter fun h => items h ≠ []).map fun h => houseLine h (items h)).map
        (.sockprintf fd)⟩ := by
    intro l
    induction l with
    | nil => rfl
    | cons h l ih =>
      show (showHouse fd h (items h) >>= fun _ => l.forM fun h => showHouse fd h (items h)) s = _
      rw [X10M.bind_apply]
      by_cases hnil : items h = []
      · have hnothing : showHouse fd h (items h) = pure () := if_pos hnil
        rw [hnothing, List.filter_cons_of_neg (by simp [hnil])]
        simp only [X10M.pure_apply, ih, List.nil_append]
      · have hline : showHouse fd h (items h) = sockprintf fd (houseLine h (items h)) := if_neg hnil
        rw [hline, List.filter_cons_of_pos (by simp [hnil])]
        simp only [sockprintf, X10M.call_apply, ih]
        rfl
  exact hall units

/-- **The report**, as far as the sensors. -/
theorem effects_huaShow (env : Env) (fd : ℤ) (s : X10State) : ∃ sensors,
    (huaShow env fd s).effects =
      .sockprintf fd (ascii "Device selected\n\r") ::
        ((houseLines (selectedItems s)).map (.sockprintf fd) ++
          .sockprintf fd (ascii "Device status\n\r") ::
            ((houseLines (stateItems s)).map (.sockprintf fd) ++
              .sockprintf fd (ascii "Security sensor status\n\r") :: sensors)) := by
  obtain ⟨sensors, hsensors⟩ : ∃ sensors : X10M Unit, huaShow env fd = (do
      sockprintf fd (ascii "Device selected\n\r")
      let s ← gets id
      units.forM fun h => showHouse fd h (selectedItems s h)
      sockprintf fd (ascii "Device status\n\r")
      let s ← gets id
      units.forM fun h => showHouse fd h (stateItems s h)
      sockprintf fd (ascii "Security sensor status\n\r")
      sensors) := ⟨_, rfl⟩
  rw [hsensors]
  simp only [X10M.bind_apply, sockprintf, X10M.call_apply, X10M.gets_apply, id_eq, forM_showHouse,
    List.nil_append, List.cons_append]
  exact ⟨_, rfl⟩

theorem printedTo_cons (fd : ℤ) (body : Bytes) (es : List Effect) :
    printedTo fd (.sockprintf fd body :: es) = body :: printedTo fd es := by
  simp [printedTo]

theorem printedTo_append (fd : ℤ) (lines : List Bytes) (es : List Effect) :
    printedTo fd (lines.map (.sockprintf fd) ++ es) = lines ++ printedTo fd es := by
  induction lines with
  | nil => rfl
  | cons line lines ih => rw [List.map_cons, List.cons_append, printedTo_cons, ih, List.cons_append]

/-- An item of the selection names its unit. -/
theorem any_selectedItems (s : X10State) (house : ℕ) {unit : ℕ} (hunit : unit ∈ units) :
    ((selectedItems s house).any fun item => digitsValue 10 item = unit + 1) =
      decide (s.houseUnitSelected house unit ≠ 0) := by
  rw [selectedItems, Bool.eq_iff_iff, List.any_eq_true, decide_eq_true_iff]
  constructor
  · rintro ⟨item, hitem, hvalue⟩
    obtain ⟨u, hu, rfl⟩ := List.mem_map.mp hitem
    have hsame : u = unit := by
      have hnumber := of_decide_eq_true hvalue
      rw [digitsValue_fmtNat] at hnumber
      omega
    exact hsame ▸ of_decide_eq_true (List.mem_filter.mp hu).2
  · intro hselected
    have hmem : unit ∈ units.filter fun (u : ℕ) => s.houseUnitSelected house u ≠ 0 :=
      List.mem_filter.mpr ⟨hunit, decide_eq_true hselected⟩
    refine ⟨_, List.mem_map.mpr ⟨unit, hmem, rfl⟩, ?_⟩
    rw [digitsValue_fmtNat]
    exact decide_eq_true rfl

/-- An item of the state names its unit, and has the state. -/
theorem readItem_stateItem (unit u : ℕ) {state : UInt8} (hstate : state ≠ 0x3d) :
    readItem unit (fmtNat (u + 1) ++ ascii "=" ++ [state]) =
      if u = unit then some state else none := by
  have hno : 0x3d ∉ fmtNat (u + 1) := not_mem_fmtNat (by decide) (u + 1)
  have hfields : ∀ field ∈ [fmtNat (u + 1), [state]], 0x3d ∉ field := by
    refine List.forall_mem_cons.mpr ⟨hno, List.forall_mem_singleton.mpr fun h => ?_⟩
    exact hstate (List.mem_singleton.mp h).symm
  have hsplit : (fmtNat (u + 1) ++ ascii "=" ++ [state]).splitOn 0x3d =
      [fmtNat (u + 1), [state]] := by
    have hjoin : fmtNat (u + 1) ++ ascii "=" ++ [state] =
        List.intercalate [0x3d] [fmtNat (u + 1), [state]] := by
      simp [List.intercalate, ascii]
    rw [hjoin]
    exact List.splitOn_intercalate 0x3d hfields (by simp)
  simp only [readItem, hsplit, digitsValue_fmtNat, Nat.add_right_cancel_iff]

/-- The state of a unit is found among the items of its house. -/
theorem search_stateItems {s : X10State} (hs : DevicesValid s) (house : ℕ) {unit : ℕ}
    (hunit : unit ∈ units) :
    (stateItems s house).findSome? (readItem unit) =
      if s.houseUnitState house unit = 0 then none else some (s.houseUnitState house unit) := by
  have hread : ∀ u : ℕ, readItem unit (fmtNat (u + 1) ++ ascii "=" ++ [s.houseUnitState house u]) =
      if u = unit then some (s.houseUnitState house u) else none := by
    intro u
    refine readItem_stateItem unit u ?_
    rcases hs.state house u with hstate | hstate | hstate
    all_goals
      rw [hstate]
      decide
  rw [stateItems, List.findSome?_map]
  split
  next hzero =>
    refine List.findSome?_eq_none_iff.mpr fun u hu => ?_
    have hne := of_decide_eq_true (List.mem_filter.mp hu).2
    refine (hread u).trans (if_neg fun hsame => hne ?_)
    rw [hsame, hzero]
  next hne =>
    have hmem : unit ∈ units.filter fun (u : ℕ) => s.houseUnitState house u ≠ 0 :=
      List.mem_filter.mpr ⟨hunit, decide_eq_true hne⟩
    exact (search_unique hmem fun u _ hother => (hread u).trans (if_neg hother)).trans
      ((hread unit).trans (if_pos rfl))

theorem comma_not_mem_items {s : X10State} (hs : DevicesValid s) (house : ℕ) :
    (∀ item ∈ selectedItems s house, 0x2c ∉ item) ∧ ∀ item ∈ stateItems s house, 0x2c ∉ item := by
  refine ⟨fun item hitem => ?_, fun item hitem => ?_⟩
  · obtain ⟨u, _, rfl⟩ := List.mem_map.mp hitem
    exact not_mem_fmtNat (by decide) (u + 1)
  · obtain ⟨u, _, rfl⟩ := List.mem_map.mp hitem
    have hstate : (0x2c : UInt8) ≠ s.houseUnitState house u := by
      rcases hs.state house u with hstate | hstate | hstate
      all_goals
        rw [hstate]
        decide
    have hno : 0x2c ∉ fmtNat (u + 1) := not_mem_fmtNat (by decide) (u + 1)
    simp [hno, hstate, ascii]

/-- **What a client reads of a report is what the tables have.** -/
theorem huaShow_read_back (env : Env) (fd : ℤ) {s : X10State} (hs : DevicesValid s) {house unit : ℕ}
    (hhouse : house ∈ units) (hunit : unit ∈ units) (es : List Effect) :
    readSelected (printedTo fd ((huaShow env fd s).effects ++ es)) house unit =
        decide (s.houseUnitSelected house unit ≠ 0) ∧
      readState (printedTo fd ((huaShow env fd s).effects ++ es)) house unit =
        if s.houseUnitState house unit = 0 then none else some (s.houseUnitState house unit) := by
  obtain ⟨sensors, heffects⟩ := effects_huaShow env fd s
  rw [heffects, List.cons_append, List.append_assoc, List.cons_append, List.append_assoc,
    List.cons_append, printedTo_cons, printedTo_append, printedTo_cons, printedTo_append,
    printedTo_cons]
  have hnostatus : ∀ items, ascii "Device status\n\r" ∉ houseLines items :=
    not_mem_houseLines (by decide)
  have hnosensors : ∀ items, ascii "Security sensor status\n\r" ∉ houseLines items :=
    not_mem_houseLines (by decide)
  constructor
  · rw [readSelected]
    refine (congrArg
      (fun lines => (itemsOf lines house).any fun item => digitsValue 10 item = unit + 1)
      (@partOf_append _ _ [] _ List.not_mem_nil (hnostatus (selectedItems s)) _)).trans ?_
    rw [itemsOf_houseLines (fun house => (comma_not_mem_items hs house).1) hhouse,
      any_selectedItems s house hunit]
  · -- the first part stands before the second
    have hbefore : ascii "Device status\n\r" ∉
        ascii "Device selected\n\r" :: houseLines (selectedItems s) :=
      List.not_mem_cons_of_ne_of_not_mem (by decide) (hnostatus _)
    rw [readState]
    refine (congrArg (fun lines => (itemsOf lines house).findSome? (readItem unit))
      (@partOf_append _ _ (ascii "Device selected\n\r" :: houseLines (selectedItems s)) _ hbefore
        (hnosensors (stateItems s)) _)).trans ?_
    rw [itemsOf_houseLines (fun house => (comma_not_mem_items hs house).2) hhouse,
      search_stateItems hs house hunit]

namespace Daemon

variable {env : Env} {d : Daemon}

/-- **A client that asks for the state is told it**: in every reachable state, and for every unit of
every house, the lines that answer `st` are read as what the tables have. -/
theorem st_read_back (hd : Reachable env d) {line : Bytes}
    (hline : commandOfLine line = some (.st, [])) (fd : ℤ) {house unit : ℕ} (hhouse : house < 16)
    (hunit : unit < 16) :
    readSelected (printedTo fd
        (Mochad.processcommandline (d.ctx env) fd line d.x10).effects) house unit =
        decide (d.x10.houseUnitSelected house unit ≠ 0) ∧
      readState (printedTo fd
        (Mochad.processcommandline (d.ctx env) fd line d.x10).effects) house unit =
        if d.x10.houseUnitState house unit = 0 then none
        else some (d.x10.houseUnitState house unit) := by
  obtain ⟨inputs, hinputs⟩ := hd.inputs
  have hvalid : DevicesValid d.x10 := by
    rw [hinputs]
    exact (tablesValid_run _ inputs).toDevicesValid
  have heffects : (Mochad.processcommandline (d.ctx env) fd line d.x10).effects =
      (huaShow env fd d.x10).effects ++ [] := by
    rw [processcommandline_of_line hline]
    show ((huaShow env fd d.x10).effects ++ []) ++ [] = _
    rw [List.append_nil]
  rw [heffects]
  exact huaShow_read_back env fd hvalid (List.mem_range.mpr hhouse) (List.mem_range.mpr hunit) []

/-- A client has switched A1 on. -/
theorem st_read_back_a1 : ∃ d, Reachable (.plain mochadConfigDefaults false) d ∧
    readState (printedTo 4 (Mochad.processcommandline (d.ctx (.plain mochadConfigDefaults false)) 4
      (ascii "st") d.x10).effects) 0 0 = some 0x31 := by
  obtain ⟨d, hreach, hstate⟩ : ∃ d, Reachable (.plain mochadConfigDefaults false) d ∧
      d.x10.houseUnitState 0 0 = 0x31 :=
    Transition.exists_run_of_exec (connect .main ++ readClient (ascii "pl a1 on\n") ++
      List.replicate 9 .byte) (by decide +kernel)
  have hread := (st_read_back hreach
    (show commandOfLine (ascii "st") = some (.st, []) by decide +kernel) 4
    (by decide : 0 < 16) (by decide : 0 < 16)).2
  refine ⟨d, hreach, hread.trans ?_⟩
  show (if d.x10.houseUnitState 0 0 = 0 then none else some (d.x10.houseUnitState 0 0)) = _
  rw [hstate]
  rfl

end Daemon

end Mochad
