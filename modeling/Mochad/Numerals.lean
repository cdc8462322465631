import Mochad.Bytes

/-!
# Numbers read back

What the conversions of `printf` make of a number can be read again: the digits of a number in a
base have its value, with zeros in front of them or without, and a sign is a sign.
-/

namespace Mochad

/-- **The value of a string of digits** in a base. -/
def digitsValue (base : ℕ) (text : Bytes) : ℕ := text.foldl (fun n b => n * base + xdigitVal b) 0

/-- A number with or without a minus sign. -/
def signedValue : Bytes → ℤ
  | 0x2d :: text => -(digitsValue 10 text : ℤ)
  | text => digitsValue 10 text

variable {base : ℕ}

theorem xdigitVal_digitChar : ∀ d : Fin 16, xdigitVal (digitChar d) = d := by decide

theorem digitsValue_append (text : Bytes) (b : UInt8) :
    digitsValue base (text ++ [b]) = digitsValue base text * base + xdigitVal b := by
  rw [digitsValue, List.foldl_append]
  rfl

/-- Zeros in front change nothing. -/
theorem digitsValue_replicate (k : ℕ) (text : Bytes) :
    digitsValue base (List.replicate k 0x30 ++ text) = digitsValue base text := by
  induction k with
  | zero => rfl
  | succ k ih =>
    rw [List.replicate_succ, List.cons_append, digitsValue, List.foldl_cons,
      show 0 * base + xdigitVal 0x30 = 0 by rw [Nat.zero_mul]; rfl]
    exact ih

/-- **The digits of a number have its value.** -/
theorem digitsValue_digits (hbase : 2 ≤ base) (hsmall : base ≤ 16) (n : ℕ) :
    digitsValue base (digits base n) = n := by
  -- the digits are made from the last one on, so each turn leaves a quotient to be read
  suffices haux : ∀ fuel n, n < fuel → digitsValue base (digitsAux base fuel n).reverse = n from
    haux (n + 1) n (Nat.lt_succ_self n)
  intro fuel
  induction fuel with
  | zero => exact fun n hn => absurd hn (Nat.not_lt_zero n)
  | succ fuel ih =>
    intro n hn
    have hdigit : xdigitVal (digitChar (n % base)) = n % base :=
      xdigitVal_digitChar ⟨n % base, (Nat.mod_lt n (by omega)).trans_le hsmall⟩
    rw [digitsAux, List.reverse_cons, digitsValue_append, hdigit]
    split
    next hzero =>
      have hlast := Nat.div_add_mod n base
      rw [hzero, Nat.mul_zero] at hlast
      show 0 * base + n % base = n
      rw [Nat.zero_mul, hlast]
    next hmore =>
      have hless : n / base < fuel := by
        have hpos : 0 < n := Nat.pos_of_ne_zero fun h => hmore (by rw [h, Nat.zero_div])
        have := Nat.div_lt_self hpos hbase
        omega
      rw [ih _ hless, Nat.mul_comm]
      exact Nat.div_add_mod n base

theorem digitsValue_fmtPad (hbase : 2 ≤ base) (hsmall : base ≤ 16) (width n : ℕ) :
    digitsValue base (fmtPad base width n) = n := by
  rw [fmtPad, zeroPad, digitsValue_replicate]
  exact digitsValue_digits hbase hsmall n

@[simp] theorem digitsValue_fmtNat (n : ℕ) : digitsValue 10 (fmtNat n) = n :=
  digitsValue_digits (by decide) (by decide) n

@[simp] theorem digitsValue_fmtHex2 (n : ℕ) : digitsValue 16 (fmtHex2 n) = n :=
  digitsValue_fmtPad (by decide) (by decide) 2 n

/-- What is so of the decimal digits is so of the digits of a number. -/
theorem forall_mem_fmtNat {P : UInt8 → Prop} (hchar : ∀ d : Fin 10, P (digitChar d)) (n : ℕ) :
    ∀ b ∈ fmtNat n, P b := by
  have haux : ∀ fuel n, ∀ b ∈ digitsAux 10 fuel n, P b := by
    intro fuel
    induction fuel with
    | zero => exact fun _ _ h => absurd h List.not_mem_nil
    | succ fuel ih =>
      intro n
      refine List.forall_mem_cons.mpr ⟨hchar ⟨n % 10, Nat.mod_lt n (by decide)⟩, ?_⟩
      split
      · exact fun _ h => absurd h List.not_mem_nil
      · exact ih _
  exact fun b hb => haux _ _ b (List.mem_reverse.mp hb)

theorem isdigit_fmtNat (n : ℕ) : ∀ b ∈ fmtNat n, isdigit b = true := forall_mem_fmtNat (by decide) n

/-- **A number keeps its sign.** -/
@[simp] theorem signedValue_fmtInt (n : ℤ) : signedValue (fmtInt n) = n := by
  cases n with
  | ofNat n =>
    have hdigits := isdigit_fmtNat n
    have hvalue := digitsValue_fmtNat n
    rw [fmtInt]
    generalize fmtNat n = text at hdigits hvalue
    rw [signedValue.eq_def]
    split
    next rest => exact absurd (hdigits 0x2d List.mem_cons_self) (by decide)
    next => rw [hvalue]; rfl
  | negSucc n =>
    show -(digitsValue 10 (fmtNat (n + 1)) : ℤ) = _
    rw [digitsValue_fmtNat]
    rfl

/-- A number has nothing but digits. -/
theorem not_mem_fmtNat {b : UInt8} (hdigit : ∀ d : Fin 10, digitChar d ≠ b) (n : ℕ) :
    b ∉ fmtNat n := fun h => forall_mem_fmtNat (P := fun x => x ≠ b) hdigit n b h rfl

/-- A text without a character that is no digit, sign or letter of one. -/
theorem not_mem_fmtInt {b : UInt8} (hdigit : ∀ d : Fin 10, digitChar d ≠ b) (hsign : 0x2d ≠ b)
    (n : ℤ) : b ∉ fmtInt n := by
  cases n with
  | ofNat n => exact not_mem_fmtNat hdigit n
  | negSucc n =>
    rintro (_ | ⟨_, hb⟩)
    · exact hsign rfl
    · exact not_mem_fmtNat hdigit (n + 1) hb

theorem not_mem_fmtHex2 {b : UInt8} (hdigit : ∀ d : Fin 16, digitChar d ≠ b) (n : ℕ) :
    b ∉ fmtHex2 n := by
  intro hb
  have hall : ∀ x ∈ digits 16 n, x ≠ b := forall_mem_digits (by decide) (by decide) hdigit n
  rcases List.mem_append.mp hb with hzero | hb
  · exact hdigit 0 (List.eq_of_mem_replicate hzero).symm
  · exact hall b hb rfl

end Mochad
