import Mathlib.Data.List.Basic

/-!
# Texts in JSON

A value in JSON on one line, without blanks and without escapes: a bare word, which stands for a
number or a truth value, a text, an array or an object. `Json.read` reads such a line, and
`Json.read_render` says that it reads a value as it was printed, if the words and texts of the value
have none but their own characters (`Json.Value.Wf`). So a line is no more than one value.
-/

namespace Json

/-! ### Values -/

mutual

/-- **A value.** -/
inductive Value
  | bare (word : List UInt8)
  | text (body : List UInt8)
  | array (items : Items)
  | object (members : Members)

/-- The items of an array. -/
inductive Items
  | last (item : Value)
  | more (item : Value) (items : Items)

/-- The members of an object, each with its name. -/
inductive Members
  | last (name : List UInt8) (value : Value)
  | more (name : List UInt8) (value : Value) (members : Members)

end

/-- A character of a bare word: a small letter, a digit or a sign. -/
def bareChar (b : UInt8) : Bool :=
  (0x61 ≤ b && b ≤ 0x7a) || (0x30 ≤ b && b ≤ 0x39) || b == 0x2d

/-- A character that stands for itself in a text. -/
def plainChar (b : UInt8) : Bool := 0x20 ≤ b && b != 0x22 && b != 0x5c

/-- A text in quotes. -/
def quoted (body : List UInt8) : List UInt8 := 0x22 :: (body ++ [0x22])

mutual

/-- **A value as it is printed.** -/
def Value.render : Value → List UInt8
  | .bare word => word
  | .text body => quoted body
  | .array items => 0x5b :: items.render
  | .object members => 0x7b :: members.render

/-- The items, and the bracket after them. -/
def Items.render : Items → List UInt8
  | .last item => item.render ++ [0x5d]
  | .more item items => item.render ++ 0x2c :: items.render

/-- The members, and the brace after them. -/
def Members.render : Members → List UInt8
  | .last name value => quoted name ++ 0x3a :: (value.render ++ [0x7d])
  | .more name value members => quoted name ++ 0x3a :: (value.render ++ 0x2c :: members.render)

end

mutual

/-- **A value that needs no escapes.** -/
def Value.Wf : Value → Prop
  | .bare word => word ≠ [] ∧ ∀ b ∈ word, bareChar b = true
  | .text body => ∀ b ∈ body, plainChar b = true
  | .array items => items.Wf
  | .object members => members.Wf

def Items.Wf : Items → Prop
  | .last item => item.Wf
  | .more item items => item.Wf ∧ items.Wf

def Members.Wf : Members → Prop
  | .last name value => (∀ b ∈ name, plainChar b = true) ∧ value.Wf
  | .more name value members => (∀ b ∈ name, plainChar b = true) ∧ value.Wf ∧ members.Wf

end

/-! ### The reader -/

/-- A text in quotes, and what is after it. -/
def readText (text : List UInt8) : Option (List UInt8 × List UInt8) :=
  if text.head? = some 0x22 ∧ (text.tail.dropWhile plainChar).head? = some 0x22 then
    some (text.tail.takeWhile plainChar, (text.tail.dropWhile plainChar).tail)
  else none

mutual

/-- A value, and what is after it. Each turn is shorter than the text that is left. -/
def readValue : ℕ → List UInt8 → Option (Value × List UInt8)
  | 0, _ => none
  | fuel + 1, text =>
    if text.head? = some 0x5b then
      (readItems fuel text.tail).map fun p => (.array p.1, p.2)
    else if text.head? = some 0x7b then
      (readMembers fuel text.tail).map fun p => (.object p.1, p.2)
    else if text.head? = some 0x22 then
      (readText text).map fun p => (.text p.1, p.2)
    else if text.takeWhile bareChar = [] then none
    else some (.bare (text.takeWhile bareChar), text.dropWhile bareChar)

def readItems : ℕ → List UInt8 → Option (Items × List UInt8)
  | 0, _ => none
  | fuel + 1, text =>
    (readValue fuel text).bind fun p =>
      if p.2.head? = some 0x2c then
        (readItems fuel p.2.tail).map fun q => (.more p.1 q.1, q.2)
      else if p.2.head? = some 0x5d then some (.last p.1, p.2.tail)
      else none

def readMembers : ℕ → List UInt8 → Option (Members × List UInt8)
  | 0, _ => none
  | fuel + 1, text =>
    (readText text).bind fun n =>
      if n.2.head? = some 0x3a then
        (readValue fuel n.2.tail).bind fun p =>
          if p.2.head? = some 0x2c then
            (readMembers fuel p.2.tail).map fun q => (.more n.1 p.1 q.1, q.2)
          else if p.2.head? = some 0x7d then some (.last n.1 p.1, p.2.tail)
          else none
      else none

end

/-- **The value that a line is**, and nothing after it. -/
def read (line : List UInt8) : Option Value :=
  (readValue line.length line).bind fun p => if p.2 = [] then some p.1 else none

/-! ### What is printed is read -/

mutual

/-- The turns that a value takes. -/
def Value.turns : Value → ℕ
  | .bare _ | .text _ => 1
  | .array items => items.turns + 1
  | .object members => members.turns + 1

def Items.turns : Items → ℕ
  | .last item => item.turns + 1
  | .more item items => item.turns + items.turns + 1

def Members.turns : Members → ℕ
  | .last _ value => value.turns + 1
  | .more _ value members => value.turns + members.turns + 1

end

/-- What ends a bare word that is in front. -/
def Ends (rest : List UInt8) : Prop := ∀ b ∈ rest.head?, bareChar b = false

/-- **A value is read**, whatever follows. -/
def Value.Reads (v : Value) : Prop :=
  v.Wf → ∀ fuel rest, v.turns ≤ fuel → Ends rest →
    readValue fuel (v.render ++ rest) = some (v, rest)

def Items.Reads (items : Items) : Prop :=
  items.Wf → ∀ fuel rest, items.turns ≤ fuel →
    readItems fuel (items.render ++ rest) = some (items, rest)

def Members.Reads (members : Members) : Prop :=
  members.Wf → ∀ fuel rest, members.turns ≤ fuel →
    readMembers fuel (members.render ++ rest) = some (members, rest)

theorem ends_cons {b : UInt8} (h : bareChar b = false) (rest : List UInt8) : Ends (b :: rest) := by
  intro b' hb'
  obtain rfl := Option.some.inj hb'
  exact h

/-- A text is read up to its quote. -/
theorem readText_quoted {body : List UInt8} (h : ∀ b ∈ body, plainChar b = true)
    (rest : List UInt8) : readText (quoted body ++ rest) = some (body, rest) := by
  have hline : quoted body ++ rest = 0x22 :: (body ++ 0x22 :: rest) := by
    simp [quoted]
  have htake : (body ++ 0x22 :: rest).takeWhile plainChar = body := by
    rw [List.takeWhile_append_of_pos h, List.takeWhile_cons_of_neg (by decide), List.append_nil]
  have hdrop : (body ++ 0x22 :: rest).dropWhile plainChar = 0x22 :: rest := by
    rw [List.dropWhile_append_of_pos h, List.dropWhile_cons_of_neg (by decide)]
  rw [hline, readText, List.tail_cons, htake, hdrop]
  exact if_pos ⟨rfl, rfl⟩

theorem reads_bare (word : List UInt8) : (Value.bare word).Reads := by
  rintro ⟨hne, hword⟩ (_ | fuel) rest hfuel hends
  · exact absurd hfuel (by simp [Value.turns])
  have htake : (word ++ rest).takeWhile bareChar = word := by
    rw [List.takeWhile_append_of_pos hword]
    cases rest with
    | nil => exact List.append_nil word
    | cons b rest =>
      rw [List.takeWhile_cons_of_neg (by rw [hends b rfl]; decide), List.append_nil]
  have hdrop : (word ++ rest).dropWhile bareChar = rest := by
    rw [List.dropWhile_append_of_pos hword]
    cases rest with
    | nil => rfl
    | cons b rest => exact List.dropWhile_cons_of_neg (by rw [hends b rfl]; decide)
  -- a word does not begin like the other values
  have hfirst : ∀ b, bareChar b = false → (word ++ rest).head? ≠ some b := by
    intro b hb hhead
    cases word with
    | nil => exact hne rfl
    | cons first word =>
      obtain rfl := Option.some.inj hhead
      rw [hword _ List.mem_cons_self] at hb
      cases hb
  rw [Value.render, readValue, if_neg (hfirst _ (by decide)), if_neg (hfirst _ (by decide)),
    if_neg (hfirst _ (by decide)), htake, if_neg hne, hdrop]

theorem reads_text (body : List UInt8) : (Value.text body).Reads := by
  rintro hbody (_ | fuel) rest hfuel -
  · exact absurd hfuel (by simp [Value.turns])
  have hhead : ∀ b, b ≠ 0x22 → (quoted body ++ rest).head? ≠ some b := by
    intro b hb hhead
    exact hb (Option.some.inj hhead).symm
  rw [Value.render, readValue, if_neg (hhead _ (by decide)), if_neg (hhead _ (by decide)),
    if_pos (show (quoted body ++ rest).head? = some 0x22 from rfl), readText_quoted hbody,
    Option.map_some]

theorem reads_array (items : Items) (h : items.Reads) : (Value.array items).Reads := by
  rintro hwf (_ | fuel) rest hfuel -
  · exact absurd hfuel (by simp [Value.turns])
  rw [Value.turns, Nat.succ_le_succ_iff] at hfuel
  rw [Value.render, List.cons_append, readValue, List.head?_cons, if_pos rfl, List.tail_cons,
    h hwf fuel rest hfuel, Option.map_some]

theorem reads_object (members : Members) (h : members.Reads) : (Value.object members).Reads := by
  rintro hwf (_ | fuel) rest hfuel -
  · exact absurd hfuel (by simp [Value.turns])
  have hnot : some (0x7b : UInt8) ≠ some 0x5b := by decide
  rw [Value.turns, Nat.succ_le_succ_iff] at hfuel
  rw [Value.render, List.cons_append, readValue, List.head?_cons, if_neg hnot, if_pos rfl,
    List.tail_cons, h hwf fuel rest hfuel, Option.map_some]

theorem reads_lastItem (item : Value) (h : item.Reads) : (Items.last item).Reads := by
  rintro hwf (_ | fuel) rest hfuel
  · exact absurd hfuel (by simp [Items.turns])
  rw [Items.turns, Nat.succ_le_succ_iff] at hfuel
  have hitem := h hwf fuel (0x5d :: rest) hfuel (ends_cons (by decide) rest)
  rw [Items.render, List.append_assoc, List.singleton_append, readItems, hitem, Option.bind_some]
  rfl

theorem reads_moreItems (item : Value) (items : Items) (h : item.Reads) (h' : items.Reads) :
    (Items.more item items).Reads := by
  rintro ⟨hwf, hwf'⟩ (_ | fuel) rest hfuel
  · exact absurd hfuel (by simp [Items.turns])
  rw [Items.turns, Nat.succ_le_succ_iff] at hfuel
  have hitem := h hwf fuel (0x2c :: (items.render ++ rest)) (by omega) (ends_cons (by decide) _)
  rw [Items.render, List.append_assoc, List.cons_append, readItems, hitem, Option.bind_some]
  dsimp only
  rw [List.head?_cons, if_pos rfl, List.tail_cons, h' hwf' fuel rest (by omega), Option.map_some]

theorem reads_lastMember (name : List UInt8) (value : Value) (h : value.Reads) :
    (Members.last name value).Reads := by
  rintro ⟨hname, hwf⟩ (_ | fuel) rest hfuel
  · exact absurd hfuel (by simp [Members.turns])
  rw [Members.turns, Nat.succ_le_succ_iff] at hfuel
  have hvalue := h hwf fuel (0x7d :: rest) hfuel (ends_cons (by decide) rest)
  have htext := readText_quoted hname (0x3a :: (value.render ++ 0x7d :: rest))
  rw [Members.render, List.append_assoc, List.cons_append, List.append_assoc,
    List.singleton_append, readMembers, htext, Option.bind_some]
  dsimp only
  rw [List.head?_cons, if_pos rfl, List.tail_cons, hvalue, Option.bind_some]
  rfl

theorem reads_moreMembers (name : List UInt8) (value : Value) (members : Members)
    (h : value.Reads) (h' : members.Reads) : (Members.more name value members).Reads := by
  rintro ⟨hname, hwf, hwf'⟩ (_ | fuel) rest hfuel
  · exact absurd hfuel (by simp [Members.turns])
  rw [Members.turns, Nat.succ_le_succ_iff] at hfuel
  have hvalue := h hwf fuel (0x2c :: (members.render ++ rest)) (by omega)
    (ends_cons (by decide) _)
  have htext := readText_quoted hname (0x3a :: (value.render ++ 0x2c :: (members.render ++ rest)))
  rw [Members.render, List.append_assoc, List.cons_append, List.append_assoc, List.cons_append,
    readMembers, htext, Option.bind_some]
  dsimp only
  rw [List.head?_cons, if_pos rfl, List.tail_cons, hvalue, Option.bind_some]
  dsimp only
  rw [List.head?_cons, if_pos rfl, List.tail_cons, h' hwf' fuel rest (by omega), Option.map_some]

/-- **Values are read as they are printed.** -/
theorem Value.reads (v : Value) : v.Reads :=
  @Value.rec Value.Reads Items.Reads Members.Reads reads_bare reads_text reads_array reads_object
    reads_lastItem reads_moreItems reads_lastMember reads_moreMembers v

/-- A line is long enough for the turns of its value. -/
theorem Value.turns_le (v : Value) : v.Wf → v.turns ≤ v.render.length := by
  refine @Value.rec (fun v => v.Wf → v.turns ≤ v.render.length)
    (fun items => items.Wf → items.turns ≤ items.render.length)
    (fun members => members.Wf → members.turns ≤ members.render.length)
    ?bare ?text ?array ?object ?lastItem ?moreItems ?lastMember ?moreMembers v
  case bare => exact fun word h => List.length_pos_iff.mpr h.1
  case text => exact fun body _ => Nat.succ_pos _
  case array => exact fun items ih h => Nat.succ_le_succ (ih h)
  case object => exact fun members ih h => Nat.succ_le_succ (ih h)
  case lastItem =>
    intro item ih h
    have hitem := ih h
    simp only [Items.turns, Items.render, List.length_append, List.length_singleton]
    omega
  case moreItems =>
    intro item items ih ih' h
    have hitem := ih h.1
    have hitems := ih' h.2
    simp only [Items.turns, Items.render, List.length_append, List.length_cons]
    omega
  case lastMember =>
    intro name value ih h
    have hvalue := ih h.2
    simp only [Members.turns, Members.render, List.length_append, List.length_cons]
    omega
  case moreMembers =>
    intro name value members ih ih' h
    have hvalue := ih h.2.1
    have hmembers := ih' h.2.2
    simp only [Members.turns, Members.render, List.length_append, List.length_cons]
    omega

/-- **A line is read as the value that it was printed for.** -/
theorem read_render {v : Value} (h : v.Wf) : read v.render = some v := by
  have hends : Ends [] := fun b hb => absurd hb (by simp)
  have hread := v.reads h v.render.length [] (v.turns_le h) hends
  rw [List.append_nil] at hread
  rw [read, hread, Option.bind_some]
  exact if_pos rfl

/-! ### Values from lists -/

/-- The items of a list that is not empty. -/
def Items.ofList (first : Value) : List Value → Items
  | [] => .last first
  | item :: items => .more first (ofList item items)

/-- The members of a list that is not empty. -/
def Members.ofList (first : List UInt8 × Value) : List (List UInt8 × Value) → Members
  | [] => .last first.1 first.2
  | member :: members => .more first.1 first.2 (ofList member members)

theorem Items.render_ofList (first : Value) (items : List Value) :
    (Items.ofList first items).render =
      List.intercalate [0x2c] ((first :: items).map Value.render) ++ [0x5d] := by
  induction items generalizing first with
  | nil => simp [ofList, render, List.intercalate]
  | cons item items ih => simp [ofList, render, ih, List.intercalate]

theorem Members.render_ofList (first : List UInt8 × Value) (members : List (List UInt8 × Value)) :
    (Members.ofList first members).render =
      List.intercalate [0x2c]
        ((first :: members).map fun m => quoted m.1 ++ 0x3a :: m.2.render) ++ [0x7d] := by
  induction members generalizing first with
  | nil => simp [ofList, render, List.intercalate]
  | cons member members ih => simp [ofList, render, ih, List.intercalate]

theorem Items.wf_ofList (first : Value) (items : List Value) :
    (Items.ofList first items).Wf ↔ ∀ v ∈ first :: items, v.Wf := by
  induction items generalizing first with
  | nil => simp [ofList, Wf]
  | cons item items ih => rw [ofList, Wf, ih, List.forall_mem_cons (l := item :: items)]

theorem Members.wf_ofList (first : List UInt8 × Value) (members : List (List UInt8 × Value)) :
    (Members.ofList first members).Wf ↔
      ∀ m ∈ first :: members, (∀ b ∈ m.1, plainChar b = true) ∧ m.2.Wf := by
  induction members generalizing first with
  | nil => simp [ofList, Wf]
  | cons member members ih =>
    rw [ofList, Wf, ih, List.forall_mem_cons (l := member :: members), and_assoc]

end Json
