import Mochad.Settings.Precedence

/-!
# The lines of the config file

`load_config_file` takes for a line what one call of `fgets` reads, which is a piece of 511 bytes
where a line is longer than that. A piece is parsed by itself, and counted as a line.

What the lines of the file are meant to come to is a `FileReading`: the entries, each with the place
where its line starts, up to the first line that is rejected, and the place and the number of that
line. An entry that the buffer does not hold is one that is rejected (`heldGiven`). The pieces come
to the same exactly if no long line shows (`byLines_iff`): what a line has after its first 511
bytes is blank, piece by piece, and where a line is rejected, its first piece is, and no line
before it has a second one.
-/

namespace Mochad

open Layers

/-- **What a line of the config file gives**, if the buffer of `load_config_file` holds its
entry. -/
def heldGiven (line : Bytes) : Option (List Setting) :=
  if 512 ≤ (lineText line).length then none else lineGiven line

/-- What reading the lines comes to. -/
structure FileReading where
  /-- The entries, each with the place in the file where its line starts. -/
  applied : List (ℕ × List Setting)
  /-- The line that is rejected: where it starts, and its number. -/
  rejected : Option (ℕ × ℕ)

/-- Reading lines one after the other, from a place in the file and a number on. -/
def readLines : ℕ → ℕ → List Bytes → FileReading
  | _, _, [] => ⟨[], none⟩
  | start, number, line :: lines =>
      match heldGiven line with
      | none => ⟨[], some (start, number)⟩
      | some given =>
          let r := readLines (start + line.length) (number + 1) lines
          if lineText line = [] then r else ⟨(start, given) :: r.applied, r.rejected⟩

/-- **What `load_config_file` reads**: the pieces of `fgets`. -/
def readPieces (content : Bytes) : FileReading := readLines 0 1 (fgetsPieces 512 [] content)

/-- **What the file gives**: its physical lines. -/
def readPhysical (content : Bytes) : FileReading := readLines 0 1 (physicalLines content)

/-- The error names the line. -/
def NamesLine (error : Bytes) (number : ℕ) : Prop :=
  ∃ detail, let text := ascii "invalid config file line " ++ fmtNat number ++ ascii ": " ++ detail
    error = text ∨ error = formatBounded 256 text

/-- **What is loaded is what was read**: the assignments in order, or the error of the line that is
rejected. -/
def FileReading.LoadedAs (r : FileReading) (config : LoadedConfig)
    (result : Except Bytes LoadedConfig) :
    Prop :=
  match r.rejected with
  | none => ∃ config', result = .ok config' ∧
      config'.get = assign (r.applied.flatMap (·.2)) config.get
  | some (_, number) => ∃ error, result = .error error ∧ NamesLine error number

/-- The pieces of a line after its first. -/
def furtherPieces (line : Bytes) : List Bytes := fgetsPieces 512 [] (line.drop 511)

/-- **A line does not show that it is cut**: nothing is read of it after its first piece, and if it
is rejected, so is that piece. -/
def CutHidden (line : Bytes) : Prop :=
  if heldGiven line = none then heldGiven (line.take 511) = none
  else ∀ piece ∈ furtherPieces line, lineText piece = []

/-- **No long line shows**, up to the line that is rejected. Lines that are cut are counted too
often, so that there is none of them before a line that is rejected. -/
def LongLinesHidden (content : Bytes) : Prop :=
  ∀ before line after, physicalLines content = before ++ line :: after →
    (∀ line ∈ before, heldGiven line ≠ none) →
      CutHidden line ∧ (heldGiven line = none → ∀ line ∈ before, line.length ≤ 511)

/-! ### Blank ends -/

/-- White space at the end of a text is not part of it. -/
theorem trim_append {text space : Bytes} (hspace : ∀ b ∈ space, isspace b = true) :
    trim (text ++ space) = trim text := by
  have hreverse : ∀ t : Bytes, (t ++ space).rdropWhile isspace = t.rdropWhile isspace := by
    intro t
    have hnil : space.reverse.dropWhile isspace = [] := by
      rw [List.dropWhile_eq_nil_iff]
      exact fun b hb => hspace b (List.mem_reverse.mp hb)
    rw [List.rdropWhile, List.reverse_append, List.dropWhile_append, hnil]
    rfl
  rw [trim, trim, List.dropWhile_append]
  split
  next hempty =>
    rw [List.isEmpty_iff.mp hempty, List.dropWhile_eq_nil_iff.mpr hspace]
  · exact hreverse _

/-- A text is blank if it is white space. -/
theorem trim_eq_nil_iff {text : Bytes} : trim text = [] ↔ ∀ b ∈ text, isspace b = true := by
  rw [trim, List.rdropWhile_eq_nil_iff]
  refine ⟨fun h => ?_, fun h b hb => h b ((List.dropWhile_sublist _).subset hb)⟩
  cases hdrop : text.dropWhile isspace with
  | nil => exact List.dropWhile_eq_nil_iff.mp hdrop
  | cons b rest =>
    have hnot := List.head?_dropWhile_not isspace text
    rw [hdrop] at hnot h
    exact absurd (h b List.mem_cons_self) (by simpa using hnot)

/-- A text up to its comment. -/
def uncommented (line : Bytes) : Bytes := (cstring line).takeWhile (· ≠ 0x23)

theorem uncommented_eq (line : Bytes) :
    uncommented line = line.takeWhile fun b => b ≠ 0 ∧ b ≠ 0x23 := by
  rw [uncommented, cstring]
  induction line with
  | nil => rfl
  | cons b line ih =>
    by_cases hnul : b = 0
    · simp [hnul]
    · by_cases hhash : b = 0x23
      · simp [hhash]
      · simpa [hnul, hhash] using ih

/-- A text goes on until its comment, which may be in its first part. -/
theorem uncommented_append (a b : Bytes) :
    uncommented (a ++ b) = uncommented a ∨
      uncommented (a ++ b) = uncommented a ++ uncommented b := by
  rw [uncommented_eq, uncommented_eq, uncommented_eq, List.takeWhile_append]
  split
  next hwhole =>
    rw [(List.takeWhile_sublist _).eq_of_length hwhole]
    exact Or.inr rfl
  · exact Or.inl rfl

/-- **What follows a text does not show** if it is blank, piece by piece. -/
theorem lineText_append (text : Bytes) {pieces : List Bytes}
    (hblank : ∀ piece ∈ pieces, lineText piece = []) :
    lineText (text ++ pieces.flatten) = lineText text := by
  have hspace : ∀ b ∈ uncommented pieces.flatten, isspace b = true := by
    induction pieces with
    | nil => nofun
    | cons piece pieces ih =>
      rw [List.forall_mem_cons] at hblank
      have hpiece := trim_eq_nil_iff.mp hblank.1
      have hrest := ih hblank.2
      rw [List.flatten_cons]
      rcases uncommented_append piece pieces.flatten with h | h
      · rw [h]
        exact hpiece
      · rw [h]
        intro b hb
        rcases List.mem_append.mp hb with hb | hb
        · exact hpiece b hb
        · exact hrest b hb
  show trim (uncommented _) = trim (uncommented _)
  rcases uncommented_append text pieces.flatten with h | h
  · rw [h]
  · rw [h, trim_append hspace]

theorem heldGiven_congr {line line' : Bytes} (h : lineText line = lineText line') :
    heldGiven line = heldGiven line' := by
  rw [heldGiven, heldGiven, lineGiven, lineGiven, h]

theorem heldGiven_of_blank {line : Bytes} (h : lineText line = []) : heldGiven line = some [] := by
  simp [heldGiven, lineGiven, h]

/-- The buffer holds the entry of a piece. -/
theorem heldGiven_of_short {line : Bytes} (h : line.length < 512) :
    heldGiven line = lineGiven line := by
  have htext : (lineText line).length ≤ line.length :=
    calc (lineText line).length
        ≤ ((uncommented line).dropWhile isspace).length := (List.rdropWhile_prefix _ _).length_le
      _ ≤ (uncommented line).length := (List.dropWhile_sublist _).length_le
      _ ≤ line.length := by
          rw [uncommented_eq]
          exact (List.takeWhile_sublist _).length_le
  rw [heldGiven, if_neg (by omega)]

/-! ### Pieces -/

section Pieces

variable {size : ℕ}

theorem fgetsPieces_break {b : UInt8} {taken : Bytes} (rest : Bytes)
    (h : b = 0x0a ∨ size ≤ (taken ++ [b]).length + 1) :
    fgetsPieces size taken (b :: rest) = (taken ++ [b]) :: fgetsPieces size [] rest := by
  rw [fgetsPieces]
  exact if_pos h

theorem fgetsPieces_on {b : UInt8} {taken : Bytes} (rest : Bytes)
    (h : ¬(b = 0x0a ∨ size ≤ (taken ++ [b]).length + 1)) :
    fgetsPieces size taken (b :: rest) = fgetsPieces size (taken ++ [b]) rest := by
  rw [fgetsPieces]
  exact if_neg h

/-- **The pieces of a text are the pieces of its lines.** -/
theorem fgetsPieces_lines (bs taken : Bytes) :
    fgetsPieces size taken bs =
      match physicalLines bs with
      | [] => fgetsPieces size taken []
      | line :: lines => fgetsPieces size taken line ++ lines.flatMap (fgetsPieces size []) := by
  induction bs generalizing taken with
  | nil => rfl
  | cons b rest ih =>
    have hrest : fgetsPieces size [] rest = (physicalLines rest).flatMap (fgetsPieces size []) := by
      rw [ih]
      cases physicalLines rest with
      | nil => rfl
      | cons line lines => rfl
    rw [physicalLines]
    by_cases hb : b = 0x0a
    · rw [if_pos hb, fgetsPieces_break rest (Or.inl hb), hrest]
      dsimp only
      rw [fgetsPieces_break [] (Or.inl hb)]
      rfl
    · rw [if_neg hb]
      by_cases hfull : size ≤ (taken ++ [b]).length + 1
      · rw [fgetsPieces_break rest (Or.inr hfull), hrest]
        cases physicalLines rest with
        | nil =>
          dsimp only
          rw [fgetsPieces_break [] (Or.inr hfull)]
          rfl
        | cons line lines =>
          dsimp only
          rw [fgetsPieces_break line (Or.inr hfull)]
          rfl
      · rw [fgetsPieces_on rest (by simp only [hb, hfull]; decide), ih]
        cases physicalLines rest with
        | nil =>
          dsimp only
          rw [fgetsPieces_on [] (by simp only [hb, hfull]; decide)]
          exact (List.append_nil _).symm
        | cons line lines =>
          dsimp only
          rw [fgetsPieces_on line (by simp only [hb, hfull]; decide)]

theorem fgetsPieces_eq_flatMap (bs : Bytes) :
    fgetsPieces size [] bs = (physicalLines bs).flatMap (fgetsPieces size []) := by
  rw [fgetsPieces_lines]
  cases physicalLines bs with
  | nil => rfl
  | cons line lines => rfl

/-- The pieces are the text. -/
theorem flatten_fgetsPieces (bs taken : Bytes) :
    (fgetsPieces size taken bs).flatten = taken ++ bs := by
  induction bs generalizing taken with
  | nil =>
    rw [fgetsPieces]
    split
    next h => simp [h]
    · simp
  | cons b rest ih =>
    rw [fgetsPieces]
    split
    · simp [ih]
    · simp [ih]

/-- A line breaks only at its end. -/
def NoBreak (line : Bytes) : Prop := line ≠ [] ∧ ∀ b ∈ line.dropLast, b ≠ 0x0a

theorem noBreak_of_mem {bs line : Bytes} (h : line ∈ physicalLines bs) : NoBreak line := by
  induction bs generalizing line with
  | nil => cases h
  | cons b rest ih =>
    rw [physicalLines] at h
    split at h
    · rcases List.mem_cons.mp h with rfl | h
      · exact ⟨by simp, by rintro _ ⟨⟩⟩
      · exact ih h
    next hb =>
      split at h
      · rw [List.mem_singleton.mp h]
        exact ⟨by simp, by rintro _ ⟨⟩⟩
      next first lines hlines =>
        rw [hlines] at ih
        rcases List.mem_cons.mp h with rfl | h
        · obtain ⟨hne, hnot⟩ := ih List.mem_cons_self
          refine ⟨by simp, ?_⟩
          rw [List.dropLast_cons_of_ne_nil hne, List.forall_mem_cons]
          exact ⟨hb, hnot⟩
        · exact ih (List.mem_cons_of_mem _ h)

/-- **The first piece of a line is as much of it as the buffer holds.** -/
theorem fgetsPieces_of_noBreak {line taken : Bytes} (hline : NoBreak line)
    (hroom : taken.length + 1 < size) :
    fgetsPieces size taken line = (taken ++ line).take (size - 1) ::
      fgetsPieces size [] ((taken ++ line).drop (size - 1)) := by
  induction line generalizing taken with
  | nil => exact absurd rfl hline.1
  | cons b rest ih =>
    rw [List.append_cons]
    by_cases hrest : rest = []
    · subst hrest
      have hall : (taken ++ [b] ++ []).take (size - 1) = taken ++ [b] := by
        rw [List.append_nil, List.take_of_length_le]
        rw [List.length_append, List.length_singleton]
        omega
      have hnone : (taken ++ [b] ++ []).drop (size - 1) = [] := by
        rw [List.append_nil, List.drop_of_length_le]
        rw [List.length_append, List.length_singleton]
        omega
      rw [hall, hnone]
      by_cases hbreak : b = 0x0a ∨ size ≤ (taken ++ [b]).length + 1
      · exact fgetsPieces_break [] hbreak
      · rw [fgetsPieces_on [] hbreak, fgetsPieces, if_neg (by simp)]
        rfl
    · obtain ⟨-, hnot⟩ := hline
      rw [List.dropLast_cons_of_ne_nil hrest, List.forall_mem_cons] at hnot
      by_cases hfull : size ≤ (taken ++ [b]).length + 1
      · have hlen : (taken ++ [b]).length = size - 1 := by
          rw [List.length_append, List.length_singleton] at hfull ⊢
          omega
        rw [fgetsPieces_break rest (Or.inr hfull), List.take_left' hlen, List.drop_left' hlen]
      · rw [fgetsPieces_on rest (by simp only [hnot.1, hfull]; decide)]
        exact ih ⟨hrest, hnot.2⟩ (Nat.not_le.mp hfull)

/-- **The pieces of a line of the file.** -/
theorem fgetsPieces_of_mem {content line : Bytes} (h : line ∈ physicalLines content) :
    fgetsPieces 512 [] line = line.take 511 :: fgetsPieces 512 [] (line.drop 511) :=
  fgetsPieces_of_noBreak (noBreak_of_mem h) (by decide)

end Pieces

/-! ### What reading comes to -/

section Readings

variable {start number : ℕ} {line : Bytes} {lines pieces : List Bytes}

/-- A reading with the entry of one more line before it. -/
def FileReading.after (start : ℕ) (line : Bytes) (given : List Setting) (r : FileReading) :
    FileReading :=
  if lineText line = [] then r else ⟨(start, given) :: r.applied, r.rejected⟩

theorem FileReading.after_inj {given : List Setting} {r r' : FileReading} :
    r.after start line given = r'.after start line given ↔ r = r' := by
  rw [FileReading.after, FileReading.after]
  split
  · exact Iff.rfl
  · obtain ⟨applied, rejected⟩ := r
    obtain ⟨applied', rejected'⟩ := r'
    simp

theorem FileReading.rejected_after {given : List Setting} {r : FileReading} :
    (r.after start line given).rejected = r.rejected := by
  rw [FileReading.after]
  split <;> rfl

theorem FileReading.mem_applied_after {given : List Setting} {r : FileReading} {e : ℕ × List Setting} :
    e ∈ (r.after start line given).applied ↔
      (lineText line ≠ [] ∧ e = (start, given)) ∨ e ∈ r.applied := by
  rw [FileReading.after]
  split
  next h => simp [h]
  next h => simp [h]

theorem readLines_rejected (lines : List Bytes) (h : heldGiven line = none) :
    readLines start number (line :: lines) = ⟨[], some (start, number)⟩ := by
  rw [readLines, h]

theorem readLines_given {given : List Setting} (lines : List Bytes)
    (h : heldGiven line = some given) :
    readLines start number (line :: lines) =
      (readLines (start + line.length) (number + 1) lines).after start line given := by
  rw [readLines, h]
  rfl

/-- Blank pieces are passed over. -/
theorem readLines_blank (lines : List Bytes) (hblank : ∀ piece ∈ pieces, lineText piece = []) :
    readLines start number (pieces ++ lines) =
      readLines (start + pieces.flatten.length) (number + pieces.length) lines := by
  induction pieces generalizing start number with
  | nil => rfl
  | cons piece pieces ih =>
    rw [List.forall_mem_cons] at hblank
    rw [List.cons_append, readLines_given _ (heldGiven_of_blank hblank.1), FileReading.after,
      if_pos hblank.1, ih hblank.2, List.flatten_cons, List.length_append, List.length_cons]
    congr 1
    · omega
    · omega

/-- What a reading has to tell comes from the place where it starts, or after it. -/
theorem le_of_readLines (lines : List Bytes) :
    (∀ e ∈ (readLines start number lines).applied, start ≤ e.1) ∧
      ∀ at_ ∈ (readLines start number lines).rejected, start ≤ at_.1 := by
  induction lines generalizing start number with
  | nil => exact ⟨nofun, nofun⟩
  | cons line lines ih =>
    cases hgiven : heldGiven line with
    | none =>
      rw [readLines_rejected lines hgiven]
      refine ⟨nofun, ?_⟩
      rintro at_ ⟨⟩
      exact le_refl _
    | some given =>
      obtain ⟨happlied, hrejected⟩ := @ih (start + line.length) (number + 1)
      rw [readLines_given lines hgiven, FileReading.rejected_after]
      refine ⟨fun e he => ?_, fun at_ hat => (Nat.le_add_right _ _).trans (hrejected at_ hat)⟩
      rcases FileReading.mem_applied_after.mp he with ⟨-, rfl⟩ | he
      · exact le_refl _
      · exact (Nat.le_add_right _ _).trans (happlied e he)

/-- **Pieces that are not blank show.** -/
theorem shown_of_readLines (lines : List Bytes) (hshown : ¬∀ piece ∈ pieces, lineText piece = []) :
    (∃ e ∈ (readLines start number (pieces ++ lines)).applied,
        e.1 < start + pieces.flatten.length) ∨
      ∃ at_ ∈ (readLines start number (pieces ++ lines)).rejected,
        at_.1 < start + pieces.flatten.length := by
  induction pieces generalizing start number with
  | nil => exact absurd nofun hshown
  | cons piece pieces ih =>
    rw [List.cons_append, List.flatten_cons, List.length_append]
    by_cases hblank : lineText piece = []
    · rw [List.forall_mem_cons, not_and] at hshown
      rw [readLines_given _ (heldGiven_of_blank hblank), FileReading.after, if_pos hblank,
        ← Nat.add_assoc]
      exact ih (hshown hblank)
    · have hlong : 0 < piece.length := by
        refine List.length_pos_iff.mpr ?_
        rintro rfl
        exact hblank rfl
      cases hgiven : heldGiven piece with
      | none =>
        rw [readLines_rejected _ hgiven]
        refine Or.inr ⟨_, rfl, ?_⟩
        dsimp only
        omega
      | some given =>
        rw [readLines_given _ hgiven]
        refine Or.inl ⟨(start, given), FileReading.mem_applied_after.mpr (Or.inl ⟨hblank, rfl⟩), ?_⟩
        dsimp only
        omega

end Readings

/-! ### Reading by lines and by pieces -/

/-- What holds where a list is split holds at its head and in its tail. -/
theorem forall_split_cons {α : Type} {P : List α → α → Prop} {x : α} {xs : List α} :
    (∀ before y after, x :: xs = before ++ y :: after → P before y) ↔
      P [] x ∧ ∀ before y after, xs = before ++ y :: after → P (x :: before) y := by
  constructor
  · intro h
    refine ⟨h [] x xs rfl, ?_⟩
    rintro before y after rfl
    exact h (x :: before) y after rfl
  · rintro ⟨hhead, htail⟩ before y after heq
    cases before with
    | nil =>
      obtain ⟨rfl, -⟩ := List.cons.inj heq
      exact hhead
    | cons x' before =>
      obtain ⟨rfl, hrest⟩ := List.cons.inj heq
      exact htail before y after hrest

theorem furtherPieces_eq_nil_iff {line : Bytes} : furtherPieces line = [] ↔ line.length ≤ 511 := by
  have hflat : (furtherPieces line).flatten = line.drop 511 := flatten_fgetsPieces _ _
  constructor
  · intro h
    rw [h] at hflat
    exact List.drop_eq_nil_iff.mp hflat.symm
  · intro h
    rw [furtherPieces, List.drop_of_length_le h]
    rfl

/-- Where the two readings agree about lines in a row, from different numbers on. -/
theorem readLines_pieces_iff (lines : List Bytes) (hlines : ∀ line ∈ lines, line ≠ [] ∧
      fgetsPieces 512 [] line = line.take 511 :: furtherPieces line)
    {start n m : ℕ} (hle : m ≤ n) :
    readLines start n (lines.flatMap (fgetsPieces 512 [])) = readLines start m lines ↔
      ∀ before line after, lines = before ++ line :: after →
        (∀ l ∈ before, heldGiven l ≠ none) →
          CutHidden line ∧
            (heldGiven line = none → m = n ∧ ∀ l ∈ before, l.length ≤ 511) := by
  induction lines generalizing start n m with
  | nil =>
    refine iff_of_true rfl ?_
    intro before line after heq
    simp at heq
  | cons line lines ih =>
    rw [List.forall_mem_cons] at hlines
    obtain ⟨⟨hne, hpieces⟩, hlines⟩ := hlines
    have hsplit : line.take 511 ++ (furtherPieces line).flatten = line := by
      rw [furtherPieces, flatten_fgetsPieces, List.nil_append, List.take_append_drop]
    have hlength : (line.take 511).length + (furtherPieces line).flatten.length = line.length := by
      rw [← List.length_append, hsplit]
    have hpos : 0 < (line.take 511).length := by
      have := List.length_pos_iff.mpr hne
      rw [List.length_take]
      omega
    rw [forall_split_cons, List.flatMap_cons, hpieces, List.cons_append]
    cases hgiven : heldGiven line with
    | none =>
      rw [readLines_rejected lines hgiven]
      have hdone : ∀ before, ¬∀ l ∈ line :: before, heldGiven l ≠ none :=
        fun _ h => h line List.mem_cons_self hgiven
      cases hfirst : heldGiven (line.take 511) with
      | none =>
        rw [readLines_rejected _ hfirst]
        simp only [FileReading.mk.injEq, true_and, Option.some.injEq, Prod.mk.injEq]
        constructor
        · rintro rfl
          refine ⟨fun _ => ⟨?_, fun _ => ⟨rfl, nofun⟩⟩, fun _ _ _ _ h => absurd h (hdone _)⟩
          rw [CutHidden, if_pos hgiven]
          exact hfirst
        · rintro ⟨h, -⟩
          exact ((h nofun).2 trivial).1.symm
      | some given =>
        rw [readLines_given _ hfirst]
        refine iff_of_false (fun heq => ?_) fun h => ?_
        · -- the first piece is not rejected, and what follows it is further on
          have hrejected := congrArg FileReading.rejected heq
          rw [FileReading.rejected_after] at hrejected
          have := (le_of_readLines _).2 _ hrejected
          dsimp only at this
          omega
        · have hcut := (h.1 nofun).1
          rw [CutHidden, if_pos hgiven, hfirst] at hcut
          cases hcut
    | some given =>
      rw [readLines_given lines hgiven]
      have hcut : CutHidden line ↔ ∀ piece ∈ furtherPieces line, lineText piece = [] := by
        rw [CutHidden, if_neg (by rw [hgiven]; nofun)]
      by_cases hblank : ∀ piece ∈ furtherPieces line, lineText piece = []
      · have htext : lineText (line.take 511) = lineText line := by
          rw [← lineText_append (line.take 511) hblank, hsplit]
        have hfirst : heldGiven (line.take 511) = some given := by
          rw [heldGiven_congr htext, hgiven]
        have hafter : ∀ r : FileReading,
            r.after start (line.take 511) given = r.after start line given := by
          intro r
          rw [FileReading.after, FileReading.after, htext]
        rw [readLines_given _ hfirst, hafter, FileReading.after_inj, readLines_blank _ hblank,
          Nat.add_assoc, hlength, ih hlines (by omega)]
        have hcount : ∀ before : List Bytes,
            (m + 1 = n + 1 + (furtherPieces line).length ∧ ∀ l ∈ before, l.length ≤ 511) ↔
              (m = n ∧ ∀ l ∈ line :: before, l.length ≤ 511) := by
          intro before
          rw [List.forall_mem_cons, ← @furtherPieces_eq_nil_iff line,
            ← List.length_eq_zero_iff, ← and_assoc]
          refine and_congr_left fun _ => ?_
          omega
        have hhere : ∀ before, (∀ l ∈ line :: before, heldGiven l ≠ none) ↔
            ∀ l ∈ before, heldGiven l ≠ none := by
          intro before
          rw [List.forall_mem_cons, hgiven]
          exact and_iff_right nofun
        simp only [hcount, hhere]
        exact (and_iff_right fun _ => ⟨hcut.mpr hblank, nofun⟩).symm
      · refine iff_of_false (fun heq => ?_) fun h => hblank (hcut.mp (h.1 nofun).1)
        cases hfirst : heldGiven (line.take 511) with
        | none =>
          have hrejected := congrArg FileReading.rejected heq
          rw [readLines_rejected _ hfirst, FileReading.rejected_after] at hrejected
          have := (le_of_readLines lines).2 _ hrejected.symm
          dsimp only at this
          omega
        | some given' =>
          rw [readLines_given _ hfirst] at heq
          rcases @shown_of_readLines (start + (line.take 511).length) (n + 1) _
            (lines.flatMap (fgetsPieces 512 [])) hblank with ⟨e, he, hlt⟩ | ⟨at_, hat, hlt⟩
          · have hfrom := (le_of_readLines _).1 e he
            have hmem : e ∈ ((readLines (start + line.length) (m + 1) lines).after start line
                given).applied := by
              rw [← heq]
              exact FileReading.mem_applied_after.mpr (Or.inr he)
            rcases FileReading.mem_applied_after.mp hmem with ⟨-, rfl⟩ | hmem
            · dsimp only at hfrom
              omega
            · have := (le_of_readLines lines).1 e hmem
              omega
          · have hrejected := congrArg FileReading.rejected heq
            rw [FileReading.rejected_after, FileReading.rejected_after] at hrejected
            rw [hrejected] at hat
            have := (le_of_readLines lines).2 at_ hat
            omega

/-- **The pieces come to what the lines come to exactly if no long line shows.** -/
theorem readPieces_eq_iff (content : Bytes) :
    readPieces content = readPhysical content ↔ LongLinesHidden content := by
  rw [readPieces, readPhysical, fgetsPieces_eq_flatMap,
    readLines_pieces_iff _ (fun line h => ⟨(noBreak_of_mem h).1, fgetsPieces_of_mem h⟩) le_rfl]
  simp only [true_and, LongLinesHidden]

/-! ### What is loaded -/

/-- A line that is rejected ends the loading, with an error that names it. -/
theorem loadLines_rejected (errorLen number : ℕ) {line : Bytes} (lines : List Bytes)
    (config : LoadedConfig) (h : lineGiven line = none) :
    ∃ error, loadLines errorLen number (line :: lines) config = .error error ∧
      NamesLine error number := by
  rw [lineGiven] at h
  rw [loadLines]
  by_cases htext : lineText line = []
  · simp [htext] at h
  · by_cases hequals : 0x3d ∉ lineText line
    · simp only [htext, hequals, if_false, if_true, not_false_eq_true]
      refine ⟨_, rfl, ascii "expected key=value", Or.inl ?_⟩
      rw [List.append_assoc (_ ++ _)]
      rfl
    · simp only [htext, hequals, if_false] at h ⊢
      have hassigns := applyKeyValue_assigns (trim ((lineText line).takeWhile (· ≠ 0x3d)))
        (trim ((lineText line).dropWhile (· ≠ 0x3d)).tail) config
      rw [h] at hassigns
      cases happly : applyKeyValue (trim ((lineText line).takeWhile (· ≠ 0x3d)))
        (trim ((lineText line).dropWhile (· ≠ 0x3d)).tail) config with
      | ok config' =>
        rw [happly] at hassigns
        cases hassigns
      | error error => exact ⟨_, rfl, _, Or.inr rfl⟩

/-- A line that is not rejected makes its assignments, and the loading goes on. -/
theorem loadLines_given (errorLen number : ℕ) {line : Bytes} (lines : List Bytes)
    (config : LoadedConfig) {given : List Setting} (h : lineGiven line = some given) :
    ∃ config', config'.get = assign given config.get ∧
      loadLines errorLen number (line :: lines) config =
        loadLines errorLen (number + 1) lines config' := by
  rw [lineGiven] at h
  by_cases htext : lineText line = []
  · obtain rfl : [] = given := by simpa [htext] using h
    refine ⟨config, rfl, ?_⟩
    rw [loadLines]
    simp only [htext, if_true]
  · by_cases hequals : 0x3d ∉ lineText line
    · simp [htext, hequals] at h
    · simp only [htext, hequals, if_false] at h
      obtain ⟨config', happly, hget⟩ := (applyKeyValue_assigns _ _).exists_ok h config
      refine ⟨config', hget, ?_⟩
      rw [loadLines]
      simp only [htext, hequals, if_false, happly]
      rfl

/-- **`load_config_file` loads what it reads.** -/
theorem loadLines_loadedAs (errorLen : ℕ) {lines : List Bytes}
    (hshort : ∀ line ∈ lines, line.length < 512) (start number : ℕ) (config : LoadedConfig) :
    (readLines start number lines).LoadedAs config (loadLines errorLen number lines config) := by
  induction lines generalizing start number config with
  | nil => exact ⟨config, rfl, rfl⟩
  | cons line lines ih =>
    rw [List.forall_mem_cons] at hshort
    have hgiven := heldGiven_of_short hshort.1
    cases hline : lineGiven line with
    | none =>
      rw [readLines_rejected lines (hgiven.trans hline)]
      exact loadLines_rejected errorLen number lines config hline
    | some given =>
      obtain ⟨config', hget, hload⟩ := loadLines_given errorLen number lines config hline
      have hrest := ih hshort.2 (start + line.length) (number + 1) config'
      rw [readLines_given lines (hgiven.trans hline), hload]
      rw [FileReading.LoadedAs] at hrest ⊢
      rw [FileReading.rejected_after]
      split at hrest
      next hnone =>
        obtain ⟨config'', hok, hassign⟩ := hrest
        refine ⟨config'', hok, ?_⟩
        rw [hassign, hget, ← assign_append, FileReading.after]
        split
        next htext =>
          obtain rfl : given = [] := by simpa [lineGiven, htext] using hline.symm
          rfl
        · rfl
      · exact hrest

/-- The pieces fit the buffer. -/
theorem length_of_mem_fgetsPieces {size : ℕ} {bs taken piece : Bytes}
    (hroom : taken.length + 1 < size) (h : piece ∈ fgetsPieces size taken bs) : piece.length < size := by
  induction bs generalizing taken with
  | nil =>
    rw [fgetsPieces] at h
    split at h
    · cases h
    · rw [List.mem_singleton.mp h]
      omega
  | cons b rest ih =>
    by_cases hbreak : b = 0x0a ∨ size ≤ (taken ++ [b]).length + 1
    · rw [fgetsPieces_break rest hbreak] at h
      rcases List.mem_cons.mp h with rfl | h
      · rw [List.length_append, List.length_singleton]
        exact hroom
      · exact ih (by rw [List.length_nil]; omega) h
    · rw [fgetsPieces_on rest hbreak] at h
      exact ih (by omega) h

/-- **The config file is read by its physical lines exactly if no long line shows.** -/
theorem byLines_iff (errorLen : ℕ) (b : UInt8) (path content : Bytes) (config : LoadedConfig) :
    (readPieces content).LoadedAs config
        (loadConfigFile errorLen (fun _ => .ok ⟨content, false⟩) (b :: path) config) ∧
      (readPieces content = readPhysical content ↔ LongLinesHidden content) := by
  refine ⟨?_, readPieces_eq_iff content⟩
  have hlines := loadLines_loadedAs errorLen
    (fun _ h => length_of_mem_fgetsPieces (by decide) h : ∀ piece ∈ fgetsPieces 512 [] content, _)
    0 1 config
  have hload : loadConfigFile errorLen (fun _ => .ok ⟨content, false⟩) (b :: path) config =
      loadLines errorLen 1 (fgetsPieces 512 [] content) config := by
    show (loadLines errorLen 1 (fgetsPieces 512 [] content) config >>= fun config => _) = _
    cases loadLines errorLen 1 (fgetsPieces 512 [] content) config <;> rfl
  rw [hload]
  exact hlines

/-- A comment whose end is a piece of its own. -/
def longComment : Bytes := ascii "#" ++ List.replicate 510 0x2d ++ ascii "port=1\n"

/-- **What stands in a comment is assigned.** -/
theorem comment_assigned : readPieces longComment ≠ readPhysical longComment := by
  intro h
  have hcount := congrArg (fun r : FileReading => r.applied.length) h
  exact absurd hcount (by decide +kernel)

end Mochad
