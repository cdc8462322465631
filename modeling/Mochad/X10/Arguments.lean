import Mochad.X10.RadioCommands

/-!
# Numeric arguments

Dim, Bright, an extended dim and an extended code are sent with numbers that the line gives.
Each number has a field in the packet, of four, five or eight bits, and a default for when it
is absent.

All of them are read by `getparam`, which takes any number of eight bits, and whose `-1` stands
for a number that is absent and for one that is malformed alike. So a number that does not fit
is cut to its field, and one that is malformed is taken for its default.
-/

namespace Mochad

/-! ### Functions with numbers -/

/-- **The functions that are given numbers.** -/
inductive NumericFunc
  | dim
  | bright
  | xdim
  | extendedCode1
  deriving DecidableEq, Repr

/-- A number in a packet: the bits of its field, and its default. -/
structure NumberField where
  width : ℕ
  default : ℤ

namespace NumberField

/-- What an argument says: its number, or the default if there is no argument. -/
def written (field : NumberField) : Option Bytes → Option ℤ
  | none => some field.default
  | some text => strtol text

/-- The numbers that a field holds. -/
def Holds (field : NumberField) (n : ℤ) : Prop := 0 ≤ n ∧ n < 2 ^ field.width

/-- **An argument fits its field**: it is absent, or a decimal integer that the field holds. -/
def Fits (field : NumberField) : Option Bytes → Prop
  | none => True
  | some text => ∃ n, strtol text = some n ∧ field.Holds n

/-- An argument fits exactly if it says a number that the field holds. -/
theorem fits_iff {field : NumberField} (h : field.Holds field.default) (arg : Option Bytes) :
    field.Fits arg ↔ ∃ n, field.written arg = some n ∧ field.Holds n := by
  cases arg with
  | none => exact iff_of_true trivial ⟨field.default, rfl, h⟩
  | some text => exact Iff.rfl

/-- A number that fits is the one that is read. -/
theorem getparamOr_of_fits {field : NumberField} (h : field.Holds field.default)
    (hwidth : field.width ≤ 8) {tokens : List Bytes} (hfits : field.Fits tokens.head?) :
    field.written tokens.head? = some (getparamOr field.default tokens).1 ∧
      field.Holds (getparamOr field.default tokens).1 := by
  cases tokens with
  | nil => exact ⟨rfl, h⟩
  | cons text tokens =>
    obtain ⟨n, hn, hpos, hlt⟩ := hfits
    have hbyte : n < 2 ^ 8 := lt_of_lt_of_le hlt (by exact_mod_cast Nat.pow_le_pow_right (by decide) hwidth)
    have hparse : parseDecimalInt text 0 255 = some n := by
      rw [parseDecimalInt, hn]
      exact if_neg (by omega)
    have hread : (getparamOr field.default (text :: tokens)).1 = n := by
      simp only [getparamOr, getparam, nextToken, List.head?_cons, Option.bind_some, hparse,
        Option.getD_some]
      exact if_neg (by omega)
    rw [hread]
    exact ⟨hn, hpos, hlt⟩

end NumberField

namespace NumericFunc

/-- The code of the function. -/
def code : NumericFunc → ℤ
  | dim => 4
  | bright => 5
  | xdim => 16
  | extendedCode1 => 7

/-- The function of a code. -/
def ofCode (func : ℤ) : Option NumericFunc := [dim, bright, xdim, extendedCode1].find? (·.code = func)

/-- Its numbers, in the order of the arguments. -/
def fields : NumericFunc → List NumberField
  | dim | bright => [⟨5, 1⟩]
  | xdim => [⟨8, 1⟩]
  | extendedCode1 => [⟨4, 0⟩, ⟨4, 0⟩, ⟨8, 0⟩]

/-- **The numbers that a packet carries**, where its fields are. -/
def carried : NumericFunc → Bytes → Option (List ℤ)
  | dim, [_, _, b] | bright, [_, _, b] => some [((b >>> 3).toNat : ℤ)]
  | xdim, [_, _, _, data, _] => some [(data.toNat : ℤ)]
  | extendedCode1, [_, _, _, data, b] =>
      some [((b >>> 4).toNat : ℤ), ((b &&& 0x0f).toNat : ℤ), (data.toNat : ℤ)]
  | _, _ => none

/-- The numbers that the arguments say. -/
def written (f : NumericFunc) (args : List Bytes) : List (Option ℤ) :=
  f.fields.zipIdx.map fun a => a.1.written args[a.2]?

/-- Every argument fits its field. -/
def Fit (f : NumericFunc) (args : List Bytes) : Prop :=
  ∀ a ∈ f.fields.zipIdx, a.1.Fits args[a.2]?

/-- Every default fits its field. -/
theorem holds_default {f : NumericFunc} {field : NumberField} (h : field ∈ f.fields) :
    field.Holds field.default ∧ field.width ≤ 8 := by
  cases f
  all_goals
    simp only [fields, List.mem_cons, List.not_mem_nil, or_false] at h
    rcases h with rfl | rfl | rfl
    all_goals exact ⟨⟨by decide, by decide⟩, by decide⟩

/-- **Whatever a packet carries, its fields hold.** -/
theorem carried_holds {f : NumericFunc} {buf : Bytes} {values : List ℤ}
    (h : f.carried buf = some values) :
    values.length = f.fields.length ∧ ∀ a ∈ f.fields.zipIdx, ∀ n, values[a.2]? = some n → a.1.Holds n := by
  have hbyte : ∀ b : UInt8, ((b.toNat : ℤ)) < 2 ^ 8 ∧ ((b >>> 3).toNat : ℤ) < 2 ^ 5 ∧
      ((b >>> 4).toNat : ℤ) < 2 ^ 4 ∧ ((b &&& 0x0f).toNat : ℤ) < 2 ^ 4 :=
    forall_byte (by decide +kernel)
  rw [carried.eq_def] at h
  split at h
  · obtain rfl := Option.some.inj h
    refine ⟨rfl, fun a ha n hn => ?_⟩
    simp only [fields, List.zipIdx_cons, List.zipIdx_nil, List.mem_singleton] at ha
    subst ha
    obtain rfl := Option.some.inj hn
    exact ⟨Int.natCast_nonneg _, (hbyte _).2.1⟩
  · obtain rfl := Option.some.inj h
    refine ⟨rfl, fun a ha n hn => ?_⟩
    simp only [fields, List.zipIdx_cons, List.zipIdx_nil, List.mem_singleton] at ha
    subst ha
    obtain rfl := Option.some.inj hn
    exact ⟨Int.natCast_nonneg _, (hbyte _).2.1⟩
  · obtain rfl := Option.some.inj h
    refine ⟨rfl, fun a ha n hn => ?_⟩
    simp only [fields, List.zipIdx_cons, List.zipIdx_nil, List.mem_singleton] at ha
    subst ha
    obtain rfl := Option.some.inj hn
    exact ⟨Int.natCast_nonneg _, (hbyte _).1⟩
  · obtain rfl := Option.some.inj h
    refine ⟨rfl, fun a ha n hn => ?_⟩
    simp only [fields, List.zipIdx_cons, List.zipIdx_nil, List.mem_cons, List.not_mem_nil,
      or_false] at ha
    rcases ha with rfl | rfl | rfl
    · obtain rfl := Option.some.inj hn
      exact ⟨Int.natCast_nonneg _, (hbyte _).2.2.1⟩
    · obtain rfl := Option.some.inj hn
      exact ⟨Int.natCast_nonneg _, (hbyte _).2.2.2⟩
    · obtain rfl := Option.some.inj hn
      exact ⟨Int.natCast_nonneg _, (hbyte _).1⟩
  · cases h

/-- So arguments that say what a packet carries fit. -/
theorem fit_of_carried {f : NumericFunc} {args : List Bytes} {buf : Bytes} {values : List ℤ}
    (hcarried : f.carried buf = some values) (hwritten : f.written args = values.map some) :
    f.Fit args := by
  obtain ⟨-, hholds⟩ := carried_holds hcarried
  rintro ⟨field, i⟩ ha
  have hfield : f.fields[i]? = some field := List.mem_zipIdx_iff_getElem?.mp ha
  have hat : (f.written args)[i]? = some (field.written args[i]?) := by
    simp [written, hfield]
  rw [hwritten, List.getElem?_map] at hat
  obtain ⟨n, hn, hsame⟩ := Option.map_eq_some_iff.mp hat
  exact (NumberField.fits_iff (holds_default (List.mem_of_getElem? hfield)).1 _).mpr
    ⟨n, hsame.symm, hholds _ ha n hn⟩

end NumericFunc

/-! ### Lines with numbers -/

/-- The address, the function and the arguments of a power-line command with numbers. -/
def numericOf (line : Bytes) : Option ((ℤ × ℤ) × NumericFunc × List Bytes) :=
  match words (strupper line) with
  | [] => none
  | name :: tokens =>
      if name = ascii "PL" then
        let (addr, tokens) := getdeviceaddr tokens
        let (func, args) := getfunc tokens
        (NumericFunc.ofCode func).map fun f => (addr, f, args)
      else none

/-- There are more words than a command can have. -/
def TooManyWords (line : Bytes) : Prop := maxCommandTokens < (words (strupper line)).length

/-- **The numbers of a line are sent exactly, or the line is refused.** -/
structure SentExactly (f : NumericFunc) (args : List Bytes) (o : Outcome ℤ) : Prop where
  /-- If anything is sent, then its last packet carries the numbers that are written. -/
  exact : packets o.effects ≠ [] → ∃ buf values, (packets o.effects).getLast? = some buf ∧
    f.carried buf = some values ∧ f.written args = values.map some
  /-- An argument that does not fit makes the command fail, and nothing is sent. -/
  refused : ¬f.Fit args → o.value < 0 ∧ packets o.effects = []

variable {c : Ctx} {fd : ℤ} {line : Bytes} {s : X10State} {house unit : ℤ} {f : NumericFunc}
  {args : List Bytes}

/-- What is refused is not sent. -/
theorem SentExactly.of_refused {o : Outcome ℤ} (hvalue : o.value = -1) (hsent : packets o.effects = []) :
    SentExactly f args o :=
  ⟨fun hne => absurd hsent hne, fun _ => ⟨by omega, hsent⟩⟩

/-- A line with too many words is refused. -/
theorem tooMany_refused (c : Ctx) (fd : ℤ) (h : TooManyWords line) (s : X10State) :
    packets (processcommandline c fd line s).effects = [] ∧
      (processcommandline c fd line s).value = -1 := by
  have hpolicy : strupper line ≠ policyRequest := by
    intro hpolicy
    rw [TooManyWords, hpolicy] at h
    exact absurd h (by decide)
  have htokens : tokenizeCommand (strupper line) = none := if_pos h
  simp only [processcommandline, processDepth, processWith, if_neg hpolicy, htokens]
  exact ⟨rfl, rfl⟩

/-- A line with numbers, as a command. -/
theorem commandOfLine_numeric (h : numericOf line = some ((house, unit), f, args))
    (hfew : ¬TooManyWords line) : ∃ tokens tokens', commandOfLine line = some (.pl, tokens) ∧
      getdeviceaddr tokens = ((house, unit), tokens') ∧ getfunc tokens' = (f.code, args) := by
  have htokens : tokenizeCommand (strupper line) = some (words (strupper line)) := if_neg hfew
  rw [numericOf] at h
  rw [commandOfLine, htokens]
  split at h
  · cases h
  next name tokens hwords =>
    rw [hwords]
    split at h
    next hname =>
      rcases haddr : getdeviceaddr tokens with ⟨addr, tokens'⟩
      rcases hfunc : getfunc tokens' with ⟨func, args'⟩
      simp only [haddr, hfunc] at h
      obtain ⟨f', hf, heq⟩ := Option.map_eq_some_iff.mp h
      simp only [Prod.mk.injEq] at heq
      obtain ⟨rfl, rfl, rfl⟩ := heq
      have hcode : f'.code = func := by simpa using List.find?_some hf
      refine ⟨tokens, tokens', ?_, haddr, by rw [hfunc, hcode]⟩
      subst hname
      simp only [show commandOf (ascii "PL") = some .pl by decide, Option.map_some]
    · cases h

/-- A level is in the upper five bits of its byte. -/
theorem level_carried {n : ℤ} (hn : 0 ≤ n ∧ n < 2 ^ 5) :
    (((0x06 ||| lowByte ((n % 32) * 8)) >>> 3).toNat : ℤ) = n := by
  have hall : ∀ n : Fin 32, (((0x06 ||| lowByte (((n : ℤ) % 32) * 8)) >>> 3).toNat : ℤ) = n := by decide
  obtain ⟨m, rfl⟩ := Int.eq_ofNat_of_zero_le hn.1
  exact hall ⟨m, by omega⟩

theorem toNat_lowByte {n : ℤ} (hn : 0 ≤ n ∧ n < 2 ^ 8) : ((lowByte n).toNat : ℤ) = n := by
  have hall : ∀ n : Fin 256, ((lowByte n).toNat : ℤ) = n := by decide +kernel
  obtain ⟨m, rfl⟩ := Int.eq_ofNat_of_zero_le hn.1
  exact hall ⟨m, by omega⟩

/-- A command and its sub-command are the two halves of their byte. -/
theorem halves_carried {command subcmd : ℤ} (hc : 0 ≤ command ∧ command < 2 ^ 4)
    (hs : 0 ≤ subcmd ∧ subcmd < 2 ^ 4) :
    ((((lowByte command <<< 4) ||| (lowByte subcmd &&& 0x0F)) >>> 4).toNat : ℤ) = command ∧
      ((((lowByte command <<< 4) ||| (lowByte subcmd &&& 0x0F)) &&& 0x0f).toNat : ℤ) = subcmd := by
  have hall : ∀ c s : Fin 16,
      ((((lowByte c <<< 4) ||| (lowByte s &&& 0x0F)) >>> 4).toNat : ℤ) = c ∧
        ((((lowByte c <<< 4) ||| (lowByte s &&& 0x0F)) &&& 0x0f).toNat : ℤ) = s := by
    decide +kernel
  obtain ⟨m, rfl⟩ := Int.eq_ofNat_of_zero_le hc.1
  obtain ⟨n, rfl⟩ := Int.eq_ofNat_of_zero_le hs.1
  exact hall ⟨m, by omega⟩ ⟨n, by omega⟩

/-- Numbers that fit are read as they are written. -/
theorem read_of_fit (hfit : f.Fit args) {a : NumberField × ℕ} (ha : a ∈ f.fields.zipIdx) :
    a.1.written args[a.2]? = some (getparamOr a.1.default (args.drop a.2)).1 ∧
      a.1.Holds (getparamOr a.1.default (args.drop a.2)).1 := by
  have hfield := NumericFunc.holds_default
    (List.mem_of_getElem? (List.mem_zipIdx_iff_getElem?.mp ha))
  have hhead : args[a.2]? = (args.drop a.2).head? := by rw [List.head?_drop]
  have hfits := hfit a ha
  rw [hhead] at hfits ⊢
  exact NumberField.getparamOr_of_fits hfield.1 hfield.2 hfits

section

variable {tokens tokens' : List Bytes} (haddr : getdeviceaddr tokens = ((house, unit), tokens'))
  (hfunc : getfunc tokens' = (f.code, args)) (hhouse : ¬house < 0)

include haddr hfunc hhouse

/-- A level, with a unit or without one. -/
theorem sent_level (hf : f = .dim ∨ f = .bright) (hfit : f.Fit args) :
    ∃ cmd rest buf values, plCommandOf tokens = some (cmd, rest) ∧ cmd.sent.getLast? = some buf ∧
      f.carried buf = some values ∧ f.written args = values.map some := by
  have hfields : f.fields = [⟨5, 1⟩] := by
    rcases hf with rfl | rfl
    all_goals rfl
  have hcode : f.code = 4 ∨ f.code = 5 := by
    rcases hf with rfl | rfl
    · exact Or.inl rfl
    · exact Or.inr rfl
  obtain ⟨hwritten, hholds⟩ := read_of_fit (a := (⟨5, 1⟩, 0)) hfit (by simp [hfields])
  rw [List.drop_zero] at hwritten hholds
  have hcarried : f.carried (housefuncPacket house f.code (getparamOr 1 args).1) =
      some [(getparamOr 1 args).1] := by
    have hlevel := congrArg (fun n => some [n]) (level_carried hholds)
    rw [housefuncPacket, if_pos hcode]
    rcases hf with rfl | rfl
    · exact hlevel
    · exact hlevel
  have hwritten' : f.written args = [(getparamOr 1 args).1].map some := by
    rw [NumericFunc.written, hfields]
    exact congrArg (fun n => [n]) hwritten
  by_cases hunit : unit < 0
  · refine ⟨.toHouse house f.code (getparamOr 1 args).1, args.tail, _, _, ?_, rfl, hcarried, hwritten'⟩
    simp only [plCommandOf, haddr, hfunc, if_neg hhouse, if_pos hunit, if_pos hcode]
    rw [if_neg (by omega)]
    rfl
  · refine ⟨.toUnit house unit f.code (getparamOr 1 args).1, args.tail, _, _, ?_, rfl, hcarried,
      hwritten'⟩
    simp only [plCommandOf, haddr, hfunc, if_neg hhouse, if_neg hunit, if_pos hcode]
    rw [if_neg (by omega), if_neg (by omega)]
    rfl

/-- An extended dim. -/
theorem sent_xdim (hf : f = .xdim) (hunit : ¬unit < 0) (hfit : f.Fit args) :
    ∃ cmd rest buf values, plCommandOf tokens = some (cmd, rest) ∧ cmd.sent.getLast? = some buf ∧
      f.carried buf = some values ∧ f.written args = values.map some := by
  subst hf
  obtain ⟨hwritten, hholds⟩ := read_of_fit (a := (⟨8, 1⟩, 0)) hfit (List.mem_singleton_self _)
  rw [List.drop_zero] at hwritten hholds
  have hfunc' : getfunc tokens' = (16, args) := hfunc
  refine ⟨.extended house unit 3 1 (getparamOr 1 args).1, args.tail, _, [(getparamOr 1 args).1], ?_,
    rfl, congrArg (fun n => some [n]) (toNat_lowByte hholds), congrArg (fun n => [n]) hwritten⟩
  simp only [plCommandOf, haddr, hfunc', if_neg hhouse, if_neg hunit]
  rfl

/-- An extended code. -/
theorem sent_extendedCode1 (hf : f = .extendedCode1) (hunit : ¬unit < 0) (hfit : f.Fit args) :
    ∃ cmd rest buf values, plCommandOf tokens = some (cmd, rest) ∧ cmd.sent.getLast? = some buf ∧
      f.carried buf = some values ∧ f.written args = values.map some := by
  subst hf
  obtain ⟨hwritten₁, hholds₁⟩ := read_of_fit (a := (⟨4, 0⟩, 0)) hfit (by simp [NumericFunc.fields])
  obtain ⟨hwritten₂, hholds₂⟩ := read_of_fit (a := (⟨4, 0⟩, 1)) hfit (by simp [NumericFunc.fields])
  obtain ⟨hwritten₃, hholds₃⟩ := read_of_fit (a := (⟨8, 0⟩, 2)) hfit (by simp [NumericFunc.fields])
  have htail : ∀ n, (args.drop n).tail = args.drop (n + 1) := fun n => List.tail_drop
  have hfunc' : getfunc tokens' = (7, args) := hfunc
  obtain ⟨hcommand, hsubcmd⟩ := halves_carried hholds₁ hholds₂
  refine ⟨.extended house unit (getparamOr 0 (args.drop 0)).1 (getparamOr 0 (args.drop 1)).1
    (getparamOr 0 (args.drop 2)).1, args.drop 3, _, [(getparamOr 0 (args.drop 0)).1,
    (getparamOr 0 (args.drop 1)).1, (getparamOr 0 (args.drop 2)).1], ?_, rfl, ?_, ?_⟩
  · simp only [plCommandOf, haddr, hfunc', if_neg hhouse, if_neg hunit]
    rw [← htail 2, ← htail 1, ← htail 0]
    rfl
  · exact congrArg some (congrArg₂ _ hcommand (congrArg₂ _ hsubcmd
      (congrArg₂ _ (toNat_lowByte hholds₃) rfl)))
  · simp only [NumericFunc.written, NumericFunc.fields, List.zipIdx_cons, List.zipIdx_nil,
      List.map_cons, List.map_nil]
    exact congrArg₂ _ hwritten₁ (congrArg₂ _ hwritten₂ (congrArg₂ _ hwritten₃ rfl))

end

/-! ### Every line with numbers -/

/-- The line has what its function needs: a house, and a unit as well unless a level goes to the
house. -/
def Addressed (addr : ℤ × ℤ) (f : NumericFunc) : Prop :=
  0 ≤ addr.1 ∧ (0 ≤ addr.2 ∨ f = .dim ∨ f = .bright)

/-- The line is not carried out: it has too many words, no house, or an extended dim and no
unit. -/
def NotCarriedOut (line : Bytes) (addr : ℤ × ℤ) (f : NumericFunc) : Prop :=
  TooManyWords line ∨ addr.1 < 0 ∨ (addr.2 < 0 ∧ f = .xdim)

/-- **The numbers of a line are sent exactly, or refused, exactly if they all fit** and the packet
has room for them, or the line is not carried out at all. -/
theorem numbers_exact_iff {addr : ℤ × ℤ} (hline : numericOf line = some (addr, f, args)) :
    SentExactly f args (processcommandline c fd line s) ↔
      NotCarriedOut line addr f ∨ (f.Fit args ∧ Addressed addr f) := by
  obtain ⟨house, unit⟩ := addr
  by_cases hmany : TooManyWords line
  · obtain ⟨hsent, hvalue⟩ := tooMany_refused c fd hmany s
    exact iff_of_true (.of_refused hvalue hsent) (Or.inl (Or.inl hmany))
  obtain ⟨tokens, tokens', hpl, haddr, hfunc⟩ := commandOfLine_numeric hline hmany
  by_cases hhouse : house < 0
  · have hnone : plCommandOf tokens = none := by
      simp only [plCommandOf, haddr, if_pos hhouse]
    obtain ⟨hsent, hvalue⟩ := pl_refused c fd hpl hnone s
    exact iff_of_true (.of_refused hvalue hsent) (Or.inl (Or.inr (Or.inl hhouse)))
  by_cases hxdim : unit < 0 ∧ f = .xdim
  · have hnone : plCommandOf tokens = none := by
      have hfunc' : getfunc tokens' = (16, args) := by rw [hfunc, hxdim.2]; rfl
      simp only [plCommandOf, haddr, hfunc', if_neg hhouse, if_pos hxdim.1]
      rfl
    obtain ⟨hsent, hvalue⟩ := pl_refused c fd hpl hnone s
    exact iff_of_true (.of_refused hvalue hsent) (Or.inl (Or.inr (Or.inr hxdim)))
  have hcarriedOut : ¬NotCarriedOut line (house, unit) f := by
    rintro (hnot | hnot | hnot)
    · exact hmany hnot
    · exact hhouse hnot
    · exact hxdim hnot
  have hsome : ∃ cmd rest, plCommandOf tokens = some (cmd, rest) ∧
      (cmd.sent.getLast?.bind f.carried ≠ none → 0 ≤ unit ∨ f = .dim ∨ f = .bright) := by
    simp only [plCommandOf, haddr, hfunc, if_neg hhouse]
    by_cases hunit : unit < 0
    · rw [if_pos hunit]
      cases f with
      | dim => exact ⟨_, _, rfl, fun _ => Or.inr (Or.inl rfl)⟩
      | bright => exact ⟨_, _, rfl, fun _ => Or.inr (Or.inr rfl)⟩
      | xdim => exact absurd ⟨hunit, rfl⟩ hxdim
      | extendedCode1 => exact ⟨_, _, rfl, fun hne => absurd rfl hne⟩
    · rw [if_neg hunit]
      cases f
      all_goals exact ⟨_, _, rfl, fun _ => Or.inl (not_lt.mp hunit)⟩
  constructor
  · intro hexact
    refine Or.inr ?_
    obtain ⟨cmd, rest, hcmd, hroom⟩ := hsome
    have hsent : packets (processcommandline c fd line s).effects = cmd.sent := packets_pl hpl hcmd s
    obtain ⟨buf, values, hbuf, hcarried, hwritten⟩ := hexact.exact (by rw [hsent]; exact cmd.sent_ne_nil)
    rw [hsent] at hbuf
    exact ⟨NumericFunc.fit_of_carried hcarried hwritten, not_lt.mp hhouse,
      hroom (by rw [hbuf, Option.bind_some, hcarried]; exact Option.some_ne_none _)⟩
  · rintro (hnot | ⟨hfit, -, hunit⟩)
    · exact absurd hnot hcarriedOut
    · obtain ⟨cmd, rest, buf, values, hcmd, hbuf, hcarried, hwritten⟩ :
          ∃ cmd rest buf values, plCommandOf tokens = some (cmd, rest) ∧ cmd.sent.getLast? = some buf ∧
            f.carried buf = some values ∧ f.written args = values.map some := by
        by_cases hlevel : f = .dim ∨ f = .bright
        · exact sent_level haddr hfunc hhouse hlevel hfit
        have hunit' : ¬unit < 0 := not_lt.mpr (hunit.resolve_right hlevel)
        cases f with
        | dim | bright => exact absurd (by simp) hlevel
        | xdim => exact sent_xdim haddr hfunc hhouse rfl hunit' hfit
        | extendedCode1 => exact sent_extendedCode1 haddr hfunc hhouse rfl hunit' hfit
      refine ⟨fun _ => ⟨buf, values, ?_, hcarried, hwritten⟩, fun hnot => absurd hfit hnot⟩
      rw [packets_pl hpl hcmd s, hbuf]

/-- A level that fits is sent exactly. -/
theorem numbers_exact_five :
    SentExactly .dim [ascii "5"]
      (processcommandline (.idle (.plain mochadConfigDefaults false)) 4 (ascii "pl a1 dim 5") .idle) := by
  have hline : numericOf (ascii "pl a1 dim 5") = some ((0, 0), .dim, [ascii "5"]) := by
    decide +kernel
  refine (numbers_exact_iff hline).mpr (Or.inr ⟨?_, by decide, Or.inl (by decide)⟩)
  have hfits : (⟨5, 1⟩ : NumberField).Fits (some (ascii "5")) :=
    ⟨5, by decide +kernel, by decide, by decide⟩
  simpa [NumericFunc.Fit, NumericFunc.fields] using hfits

/-- **A level of 40 is sent as 8.** -/
theorem level_cut : ¬ ∀ c fd line s addr f args, numericOf line = some (addr, f, args) →
    SentExactly f args (processcommandline c fd line s) := by
  intro hall
  have hsent := hall (.idle (.plain mochadConfigDefaults false)) 4 (ascii "pl a1 dim 40") .idle
    (0, 0) .dim [ascii "40"] (by decide +kernel)
  have hpackets : packets (processcommandline (.idle (.plain mochadConfigDefaults false)) 4
      (ascii "pl a1 dim 40") .idle).effects = [[0x04, 0x66], [0x06, 0x64, 0x46]] := by
    decide +kernel
  obtain ⟨buf, values, hbuf, hcarried, hwritten⟩ := hsent.exact (by rw [hpackets]; decide)
  rw [hpackets] at hbuf
  obtain rfl : [0x06, 0x64, 0x46] = buf := Option.some.inj hbuf
  obtain rfl : [8] = values := Option.some.inj hcarried
  exact absurd hwritten (by decide)

end Mochad
