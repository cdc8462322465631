import Mathlib

/-!
# Bytes, C strings and printf conversions

The daemon's texts are byte strings. A C string is the list of its bytes before the
terminating NUL, and a buffer is a memory `ℕ → UInt8` read at offsets, so that a
function handed a pointer and a length can be seen to look past the length.

The printf conversions the daemon uses are `%d`, `%0*d`, `%02X` and its wider
variants, `%s` and `%c`; each is a function to bytes here and a format string is
their concatenation.
-/

namespace Mochad

/-- A string of bytes. -/
abbrev Bytes := List UInt8

/-- A region of memory, read at offsets from a pointer. -/
abbrev Memory := ℕ → UInt8

/-- The bytes of an ASCII text. -/
def ascii (s : String) : Bytes := s.toList.map fun c => c.toNat.toUInt8

/-- The memory a local array occupies: its bytes, and then whatever the stack holds
there. -/
def Memory.ofBytes (bs : Bytes) (rest : Memory) : Memory :=
  fun i => if h : i < bs.length then bs.get ⟨i, h⟩ else rest i

/-- The first `n` bytes of a memory. -/
def Memory.take (m : Memory) (n : ℕ) : Bytes := (List.range n).map m

/-- `memcpy` into the front of a fixed buffer: the bytes past the copy stay. -/
def memcpy (dst src : Bytes) : Bytes := src ++ dst.drop src.length

/-- `memcpy` to an offset of a memory. -/
def Memory.copy (m : Memory) (off : ℕ) (src : Bytes) : Memory :=
  fun i => if h : off ≤ i ∧ i - off < src.length then src.get ⟨i - off, h.2⟩ else m i

/-- The C string at the front of a buffer: what stands before the first NUL. -/
def cstring (bs : Bytes) : Bytes := bs.takeWhile (· ≠ 0)

/-- A property of bytes can be checked byte by byte. -/
theorem forall_byte {p : UInt8 → Prop} (h : ∀ n : Fin 256, p (UInt8.ofNat n)) (b : UInt8) : p b := by
  have hb := h ⟨b.toNat, b.toNat_lt⟩
  rwa [UInt8.ofNat_toNat] at hb

/-! ### Character classes of the C locale -/

/-- `islower`. -/
def islower (b : UInt8) : Bool := 0x61 ≤ b && b ≤ 0x7a

/-- `toupper`. -/
def toupper (b : UInt8) : UInt8 := if islower b then b - 0x20 else b

/-- `isspace`: blank, tab, newline, vertical tab, form feed, carriage return. -/
def isspace (b : UInt8) : Bool := b == 0x20 || (0x09 ≤ b && b ≤ 0x0d)

/-- `isdigit`. -/
def isdigit (b : UInt8) : Bool := 0x30 ≤ b && b ≤ 0x39

/-- `isxdigit`. -/
def isxdigit (b : UInt8) : Bool :=
  isdigit b || (0x41 ≤ b && b ≤ 0x46) || (0x61 ≤ b && b ≤ 0x66)

/-- The value of a hexadecimal digit. -/
def xdigitVal (b : UInt8) : ℕ :=
  if isdigit b then b.toNat - 0x30 else if b ≤ 0x46 then b.toNat - 0x37 else b.toNat - 0x57

/-! ### Conversions -/

/-- The digit characters, in upper case. -/
def digitChar (d : ℕ) : UInt8 := (if d < 10 then 0x30 + d else 0x37 + d).toUInt8

/-- The digits of a number in a base, least significant first; `fuel` bounds their
number. -/
def digitsAux (base : ℕ) : ℕ → ℕ → Bytes
  | 0, _ => []
  | fuel + 1, n =>
      digitChar (n % base) :: (if n / base = 0 then [] else digitsAux base fuel (n / base))

/-- The digits of a number in a base. A number has no more digits than its value
plus one. -/
def digits (base n : ℕ) : Bytes := (digitsAux base (n + 1) n).reverse

/-- Padding to a width with zeros. -/
def zeroPad (width : ℕ) (bs : Bytes) : Bytes := List.replicate (width - bs.length) 0x30 ++ bs

/-- `%u`. -/
def fmtNat (n : ℕ) : Bytes := digits 10 n

/-- `%d`. -/
def fmtInt : ℤ → Bytes
  | Int.ofNat n => fmtNat n
  | Int.negSucc n => 0x2d :: fmtNat (n + 1)

/-- `%02d`, `%06X` and so on: a width padded with zeros, in a base. -/
def fmtPad (base width n : ℕ) : Bytes := zeroPad width (digits base n)

/-- `%02d`, which counts the sign in the width. -/
def fmtInt2 : ℤ → Bytes
  | Int.ofNat n => fmtPad 10 2 n
  | Int.negSucc n => 0x2d :: fmtPad 10 1 (n + 1)

/-- `%02X`. -/
def fmtHex2 (n : ℕ) : Bytes := fmtPad 16 2 n

/-- `%s`. The C library prints a null pointer as a fixed text. -/
def fmtStr : Option Bytes → Bytes
  | some s => s
  | none => ascii "(null)"

theorem digits_ne_nil (base n : ℕ) : digits base n ≠ [] := by simp [digits, digitsAux]

/-- A text printed into a buffer of `size` bytes keeps its terminator and so loses
what does not fit (`format_bounded`). -/
def formatBounded (size : ℕ) (text : Bytes) : Bytes := text.take (size - 1)

example : fmtNat 1099 = ascii "1099" := by decide

example : fmtPad 16 6 0x7FCA = ascii "007FCA" := by decide

/-! ### Printable texts -/

/-- A text of characters that print: no control character, and no NUL. -/
def Printable (bs : Bytes) : Prop := ∀ b ∈ bs, 0x20 ≤ b

/-- What holds of every byte of a text is decided byte by byte. -/
instance decidableForallMem {p : UInt8 → Prop} [DecidablePred p] (bs : Bytes) :
    Decidable (∀ b ∈ bs, p b) := List.decidableBAll p bs

instance (bs : Bytes) : Decidable (Printable bs) := inferInstanceAs (Decidable (∀ b ∈ bs, 0x20 ≤ b))

@[simp] theorem printable_append {as bs : Bytes} :
    Printable (as ++ bs) ↔ Printable as ∧ Printable bs := List.forall_mem_append

@[simp] theorem printable_cons {b : UInt8} {bs : Bytes} :
    Printable (b :: bs) ↔ 0x20 ≤ b ∧ Printable bs := List.forall_mem_cons

@[simp] theorem printable_nil : Printable [] := nofun

/-- What is so of every digit character is so of all the digits of a number. -/
theorem forall_mem_digits {P : UInt8 → Prop} {base : ℕ} (hbase : 0 < base) (hsmall : base ≤ 16)
    (hchar : ∀ d : Fin 16, P (digitChar d)) (n : ℕ) : ∀ b ∈ digits base n, P b := by
  have haux : ∀ fuel n, ∀ b ∈ digitsAux base fuel n, P b := by
    intro fuel
    induction fuel with
    | zero => exact fun _ _ h => absurd h List.not_mem_nil
    | succ fuel ih =>
      intro n
      refine List.forall_mem_cons.mpr ⟨hchar ⟨n % base, ?_⟩, ?_⟩
      · exact Nat.lt_of_lt_of_le (Nat.mod_lt _ hbase) hsmall
      · split
        · exact fun _ h => absurd h List.not_mem_nil
        · exact ih _
  exact fun b hb => haux _ _ b (List.mem_reverse.mp hb)

theorem printable_digits {base : ℕ} (hbase : 0 < base) (hsmall : base ≤ 16) (n : ℕ) :
    Printable (digits base n) :=
  forall_mem_digits hbase hsmall (by decide) n

@[simp] theorem printable_fmtNat (n : ℕ) : Printable (fmtNat n) :=
  printable_digits (by decide) (by decide) n

@[simp] theorem printable_fmtInt (n : ℤ) : Printable (fmtInt n) := by
  cases n with
  | ofNat n => exact printable_fmtNat n
  | negSucc n => exact printable_cons.mpr ⟨by decide, printable_fmtNat _⟩

theorem printable_fmtPad {base : ℕ} (hbase : 0 < base) (hsmall : base ≤ 16) (width n : ℕ) :
    Printable (fmtPad base width n) := by
  refine printable_append.mpr ⟨fun b hb => ?_, printable_digits hbase hsmall n⟩
  rw [List.eq_of_mem_replicate hb]
  decide

@[simp] theorem printable_fmtHex2 (n : ℕ) : Printable (fmtHex2 n) :=
  printable_fmtPad (by decide) (by decide) 2 n

/-- A string prints if it does when there is one. -/
theorem printable_fmtStr {s : Option Bytes} (h : ∀ t, s = some t → Printable t) :
    Printable (fmtStr s) := by
  cases s with
  | none => exact (by decide : Printable (ascii "(null)"))
  | some t => exact h t rfl

/-- A number below a power of its base has no more digits than the exponent. -/
theorem length_digits_le {base n k : ℕ} (hk : 0 < k) (h : n < base ^ k) :
    (digits base n).length ≤ k := by
  suffices haux : ∀ k fuel n, 0 < k → n < base ^ k → (digitsAux base fuel n).length ≤ k by
    rw [digits, List.length_reverse]
    exact haux k (n + 1) n hk h
  clear hk h
  intro k
  induction k with
  | zero => exact fun _ _ hk => absurd hk (Nat.lt_irrefl 0)
  | succ k ih =>
    intro fuel n _ h
    cases fuel with
    | zero => exact Nat.zero_le _
    | succ fuel =>
      rw [digitsAux, List.length_cons]
      split
      · simp
      next hmore =>
        have hless : n / base < base ^ k := Nat.div_lt_of_lt_mul (by rwa [Nat.pow_succ'] at h)
        have hpos : 0 < k := by
          rcases Nat.eq_zero_or_pos k with rfl | hpos
          · exact absurd (Nat.lt_one_iff.mp hless) hmore
          · exact hpos
        exact Nat.succ_le_succ (ih fuel _ hpos hless)

theorem length_digitsAux (base fuel n : ℕ) : (digitsAux base fuel n).length ≤ fuel := by
  induction fuel generalizing n with
  | zero => exact Nat.le_refl 0
  | succ fuel ih =>
    rw [digitsAux, List.length_cons]
    split
    · simp
    · exact Nat.succ_le_succ (ih _)

/-- A number has no more digits than its value plus one. -/
theorem length_fmtNat (n : ℕ) : (fmtNat n).length ≤ n + 1 := by
  rw [fmtNat, digits, List.length_reverse]
  exact length_digitsAux 10 (n + 1) n

end Mochad
