import Mochad.Core.Acceptance
import Mochad.X10.Arguments
import Mochad.X10.Markers

/-!
# Passing bytes through

`PT` hands its arguments to the controller as they are. What it takes is a grammar: one to eight
words, each a number in hexadecimal, with or without `0X` in front, and not above `0xFF`
(`PassesThrough`). `gethexdata` and `parse_hex_ulong` read just that (`gethexdata_eq_some_iff`), so
that a line is passed through exactly if it is in the grammar (`passed_through_iff`). The numbers that are
shown of a packet as raw data are in it (`dump_sent_again`).
-/

namespace Mochad

/-- **A number in hexadecimal**, with or without `0X` in front. -/
def HexNumber (token : Bytes) (n : ℕ) : Prop :=
  ∃ digits : Bytes, digits ≠ [] ∧ (∀ d ∈ digits, isxdigit d = true) ∧
    (token = digits ∨ token = ascii "0X" ++ digits) ∧
    Nat.ofDigits 16 (digits.map xdigitVal).reverse = n

/-- A number that is a byte. -/
def HexByte (token : Bytes) (b : UInt8) : Prop := HexNumber token b.toNat

/-- **The arguments of `PT`, and the bytes that they name.** -/
structure PassesThrough (args : List Bytes) (bs : Bytes) : Prop where
  some : 1 ≤ args.length
  room : args.length ≤ 8
  bytes : List.Forall₂ HexByte args bs

/-- The digits are read from the left. -/
theorem foldl_xdigitVal (digits : Bytes) :
    digits.foldl (fun n b => n * 16 + xdigitVal b) 0 =
      Nat.ofDigits 16 (digits.map xdigitVal).reverse := by
  rw [Nat.ofDigits_eq_foldr, List.foldr_reverse, List.foldl_map]
  congr 1
  funext n b
  rw [Nat.add_comm, Nat.mul_comm]
  rfl

/-- **`parse_hex_ulong` reads the numbers**, and nothing else. -/
theorem parseHexUlong_eq_some_iff {token : Bytes} {n : ℕ} :
    parseHexUlong token none = some n ↔ HexNumber token n := by
  have hread : ∀ p : Bytes, p = (if token.take 2 = ascii "0X" then token.drop 2 else token) →
      (parseHexUlong token none = some n ↔ p ≠ [] ∧ (∀ d ∈ p, isxdigit d = true) ∧
        Nat.ofDigits 16 (p.map xdigitVal).reverse = n) := by
    rintro p hp
    have htoken : p ≠ [] → token ≠ [] := by
      rintro hne rfl
      exact hne (by rw [hp]; rfl)
    simp only [parseHexUlong, ← hp, foldl_xdigitVal]
    by_cases hnil : p = []
    · simp [hnil]
    · by_cases hall : p.all isxdigit = true
      · have hdigits := List.all_eq_true.mp hall
        rw [if_neg (by simp [htoken hnil, hall]), if_neg (by simp), if_neg hnil,
          Option.some.injEq]
        exact ⟨fun h => ⟨hnil, hdigits, h⟩, fun h => h.2.2⟩
      · have hdigits : ¬∀ d ∈ p, isxdigit d = true := fun h => hall (List.all_eq_true.mpr h)
        simp only [htoken hnil, hall, hdigits]
        simp
  rw [hread _ rfl]
  constructor
  · rintro ⟨hne, hdigits, hvalue⟩
    refine ⟨_, hne, hdigits, ?_, hvalue⟩
    split
    next hmarked => exact Or.inr (by rw [← hmarked, List.take_append_drop])
    · exact Or.inl rfl
  · rintro ⟨ds, hne, hdigits, rfl | rfl, hvalue⟩
    · -- an `X` is no digit
      have hno : token.take 2 ≠ ascii "0X" := by
        intro hpre
        have hX : (0x58 : UInt8) ∈ token := List.mem_of_mem_take (i := 2) (by rw [hpre]; decide)
        exact absurd (hdigits _ hX) (by decide)
      rw [if_neg hno]
      exact ⟨hne, hdigits, hvalue⟩
    · have hpre : (ascii "0X" ++ ds).take 2 = ascii "0X" := List.take_left' rfl
      have hrest : (ascii "0X" ++ ds).drop 2 = ds := List.drop_left' rfl
      rw [if_pos hpre, hrest]
      exact ⟨hne, hdigits, hvalue⟩

/-- **`gethexdata` reads bytes**, as many as there is room for. -/
theorem gethexdata_eq_some_iff {room : ℕ} {tokens : List Bytes} {bs : Bytes} :
    (gethexdata room tokens).1 = some bs ↔
      tokens.length ≤ room ∧ List.Forall₂ HexByte tokens bs := by
  induction tokens generalizing room bs with
  | nil =>
    rw [gethexdata]
    constructor
    · rintro ⟨⟩
      exact ⟨Nat.zero_le _, .nil⟩
    · rintro ⟨_, ⟨⟩⟩
      rfl
  | cons token tokens ih =>
    cases room with
    | zero => simp [gethexdata]
    | succ room =>
      rw [List.forall₂_cons_left_iff, List.length_cons, Nat.succ_le_succ_iff, gethexdata]
      constructor
      · intro h
        split at h
        · cases h
        next n hn =>
          split at h
          · cases h
          next hle =>
            obtain ⟨bs', hbs', rfl⟩ := Option.map_eq_some_iff.mp h
            obtain ⟨hlen, hall⟩ := ih.mp hbs'
            have hbyte : HexByte token n.toUInt8 := by
              have hsame : n.toUInt8.toNat = n := by
                rw [UInt8.toNat_ofNat']
                omega
              rw [HexByte, hsame]
              exact parseHexUlong_eq_some_iff.mp hn
            exact ⟨hlen, _, _, hbyte, hall, rfl⟩
      · rintro ⟨hlen, b, bs', hb, hall, rfl⟩
        have hlt := b.toNat_lt
        rw [parseHexUlong_eq_some_iff.mpr hb]
        dsimp only
        rw [if_neg (by omega), ih.mpr ⟨hlen, hall⟩]
        simp

variable {c : Ctx} {fd : ℤ} {line : Bytes} {args : List Bytes} {s : X10State}

/-- A line with `PT` in front, and not too many words. -/
theorem commandOfLine_pt (hline : words (strupper line) = ascii "PT" :: args)
    (hroom : args.length < 16) : commandOfLine line = some (.pt, args) := by
  have hfew : ¬maxCommandTokens < (words (strupper line)).length := by
    rw [hline, List.length_cons, maxCommandTokens]
    omega
  have hname : commandOf (ascii "PT") = some .pt := by decide
  rw [commandOfLine, tokenizeCommand, if_neg hfew, hline]
  simp only [hname]
  rfl

/-- Arguments that are no bytes, or none, are refused. -/
theorem pt_refused (hline : commandOfLine line = some (.pt, args))
    (hdata : (gethexdata 8 args).1 = none ∨ (gethexdata 8 args).1 = some []) :
    packets (processcommandline c fd line s).effects = [] ∧
      (processcommandline c fd line s).value < 0 := by
  have hrun : ptCommand c fd args = (do or20ok c fd; pure (.ret (-1))) := by
    rcases hbytes : gethexdata 8 args with ⟨data, rest⟩
    rw [hbytes] at hdata
    rcases hdata with rfl | rfl
    all_goals simp only [ptCommand, hbytes]
  refine ⟨?_, ?_⟩
  · rw [(pt_spec hline c fd s).1]
    rcases hdata with hnone | hnil
    · rw [hnone]
    · rw [hnil]
  · rw [processcommandline_of_line hline, value_bind_finish]
    have hvalue : (runCommand c (relayTo c) fd .pt args s).value = .ret (-1) := by
      show (ptCommand c fd args s).value = _
      rw [hrun]
      rfl
    rw [hvalue]
    decide

/-- **A line `PT` is passed through exactly if it is in the grammar**: its bytes are written once;
and otherwise nothing is written, and the line is refused. -/
theorem passed_through_iff (c : Ctx) (fd : ℤ) (line : Bytes) (s : X10State) (args : List Bytes)
    (hline : words (strupper line) = ascii "PT" :: args) :
    (∀ bs, packets (processcommandline c fd line s).effects = [bs] ↔ PassesThrough args bs) ∧
      ((¬∃ bs, PassesThrough args bs) →
        packets (processcommandline c fd line s).effects = [] ∧
          (processcommandline c fd line s).value < 0) := by
  by_cases hmany : TooManyWords line
  · obtain ⟨hnone, hvalue⟩ := tooMany_refused c fd hmany s
    have hlong : 8 < args.length := by
      rw [TooManyWords, hline, List.length_cons, maxCommandTokens] at hmany
      omega
    rw [hnone, hvalue]
    refine ⟨fun bs => ⟨by rintro ⟨⟩, fun h => ?_⟩, fun _ => ⟨rfl, by decide⟩⟩
    exact absurd h.room (not_le.mpr hlong)
  · have hroom : args.length < 16 := by
      rw [TooManyWords, hline, List.length_cons, maxCommandTokens] at hmany
      omega
    have hcommand := commandOfLine_pt hline hroom
    have hpackets := (pt_spec hcommand c fd s).1
    have hread : ∀ bs, PassesThrough args bs ↔
        (gethexdata 8 args).1 = some bs ∧ bs ≠ [] := by
      intro bs
      rw [gethexdata_eq_some_iff]
      constructor
      · rintro ⟨hsome, hroom, hall⟩
        refine ⟨⟨hroom, hall⟩, ?_⟩
        rintro rfl
        rw [hall.length_eq] at hsome
        exact absurd hsome (by decide)
      · rintro ⟨⟨hroom, hall⟩, hne⟩
        refine ⟨?_, hroom, hall⟩
        rw [hall.length_eq]
        exact List.length_pos_iff.mpr hne
    refine ⟨fun bs => ?_, fun hnot => pt_refused hcommand ?_⟩
    · rw [hpackets, hread]
      split
      next hnone => simp [hnone]
      next hnil =>
        rw [hnil]
        simp only [Option.some.injEq]
        constructor
        · rintro ⟨⟩
        · rintro ⟨rfl, hne⟩
          exact absurd rfl hne
      next data hne hdata =>
        rw [hdata]
        simp only [List.cons.injEq, Option.some.injEq, and_true]
        refine ⟨fun heq => ⟨heq, ?_⟩, fun h => h.1⟩
        rintro rfl
        exact hne heq
    · cases hdata : (gethexdata 8 args).1 with
      | none => exact Or.inl rfl
      | some data =>
        by_cases hnil : data = []
        · exact Or.inr (by rw [hnil])
        · exact absurd ⟨data, (hread data).mpr ⟨hdata, hnil⟩⟩ hnot

/-- Two bytes are passed through. -/
theorem passed_through_two :
    packets (processcommandline (.idle (.plain mochadConfigDefaults true)) 6
      (ascii "pt 0xff 1") .idle).effects = [[0xff, 0x01]] := by
  obtain ⟨hpassed, _⟩ := passed_through_iff (.idle (.plain mochadConfigDefaults true)) 6
    (ascii "pt 0xff 1") .idle [ascii "0XFF", ascii "1"] (by decide +kernel)
  have hff : HexByte (ascii "0XFF") 0xff :=
    ⟨ascii "FF", by decide, by decide, Or.inr (by decide), by decide⟩
  have hone : HexByte (ascii "1") 0x01 :=
    ⟨ascii "1", by decide, by decide, Or.inl rfl, by decide⟩
  exact (hpassed [0xff, 0x01]).mpr ⟨by decide, by decide, .cons hff (.cons hone .nil)⟩

/-! ### What is shown can be sent

If raw data is asked for, each packet that is decoded is shown as numbers in hexadecimal. They are
in the grammar of `PT`, and name the bytes of the packet: what a client sees of a controller, it can
send to one. A packet from a CM19A is shown with the marker that the decoder puts in front. -/

/-- **The packet that the decoder sees.** -/
def seen (cm19a : Bool) (buf : Memory) (len : ℕ) : Bytes :=
  if cm19a then 0x5d :: buf.take len else buf.take len

/-- A byte is shown in upper case, without spaces. -/
theorem plain_fmtHex2 : ∀ b : UInt8, fmtHex2 b.toNat ≠ [] ∧
    ∀ d ∈ fmtHex2 b.toNat, toupper d = d ∧ isspace d = false :=
  forall_byte (by decide +kernel)

/-- A byte is read as it is shown. -/
theorem hexByte_fmtHex2 (b : UInt8) : HexByte (fmtHex2 b.toNat) b := by
  have hread : ∀ b : UInt8, parseHexUlong (fmtHex2 b.toNat) none = some b.toNat :=
    forall_byte (by decide +kernel)
  exact parseHexUlong_eq_some_iff.mp (hread b)

theorem strupper_hexdumpText (bs : Bytes) : strupper (hexdumpText bs) = hexdumpText bs := by
  have hupper : ∀ d ∈ hexdumpText bs, toupper d = id d := by
    intro d hd
    obtain ⟨b, _, hb⟩ := List.mem_flatMap.mp hd
    rcases List.mem_append.mp hb with hdigit | hspace
    · exact ((plain_fmtHex2 b).2 d hdigit).1
    · rw [List.mem_singleton.mp hspace]
      rfl
  rw [strupper, List.map_congr_left hupper, List.map_id]

/-- **The words of a dump** are the bytes that it has room for. -/
theorem words_hexdumpText (bs : Bytes) :
    words (hexdumpText bs) = (bs.take 100).map fun b => fmtHex2 b.toNat := by
  have hdump : hexdumpText bs =
      (((bs.take 100).map fun b => fmtHex2 b.toNat).map fun word => word ++ [0x20]).flatten := by
    rw [hexdumpText, List.flatMap_def, List.map_map]
    rfl
  have hwhole : ∀ word ∈ (bs.take 100).map (fun b => fmtHex2 b.toNat), ∀ d ∈ word,
      isspace d = false := by
    intro word hword d hd
    obtain ⟨b, _, rfl⟩ := List.mem_map.mp hword
    exact ((plain_fmtHex2 b).2 d hd).2
  have hsome : ∀ word ∈ (bs.take 100).map (fun b => fmtHex2 b.toNat),
      decide (word ≠ []) = true := by
    intro word hword
    obtain ⟨b, _, rfl⟩ := List.mem_map.mp hword
    exact decide_eq_true (plain_fmtHex2 b).1
  rw [words, hdump, Framing.splitOnP_terminated (by decide) hwhole, List.filter_append,
    List.filter_eq_self.mpr hsome]
  exact List.append_nil _

theorem words_pt (bs : Bytes) : words (strupper (ascii "PT " ++ hexdumpText bs)) =
    ascii "PT" :: (bs.take 100).map fun b => fmtHex2 b.toNat := by
  have hpt : ∀ b ∈ ascii "PT", isspace b = false := by decide
  have hsplit := List.splitOnP_append_cons_of_forall_mem hpt 0x20 (by decide) (hexdumpText bs)
  have hfirst : words (ascii "PT" ++ 0x20 :: hexdumpText bs) =
      ascii "PT" :: words (hexdumpText bs) := by
    rw [words, hsplit]
    rfl
  have hupper : strupper (ascii "PT ") = ascii "PT " := by decide
  rw [strupper_append, strupper_hexdumpText, hupper, ← words_hexdumpText]
  exact hfirst

/-- **A dump is taken back** by `PT`, if the bytes are one to eight. -/
theorem pt_hexdumpText (c : Ctx) (fd : ℤ) (bs : Bytes) (s : X10State) :
    if 1 ≤ bs.length ∧ bs.length ≤ 8 then
      packets (processcommandline c fd (ascii "PT " ++ hexdumpText bs) s).effects = [bs]
    else
      packets (processcommandline c fd (ascii "PT " ++ hexdumpText bs) s).effects = [] ∧
        (processcommandline c fd (ascii "PT " ++ hexdumpText bs) s).value < 0 := by
  have hwords := words_pt bs
  have hcount : (bs.take 100).length = min 100 bs.length := List.length_take
  split
  next hfits =>
    have hwhole : bs.take 100 = bs := List.take_of_length_le (by omega)
    rw [hwhole] at hwords
    have hline := commandOfLine_pt hwords (by rw [List.length_map]; omega)
    have hread : (gethexdata 8 (bs.map fun b => fmtHex2 b.toNat)).1 = some bs := by
      refine gethexdata_eq_some_iff.mpr ⟨by rw [List.length_map]; exact hfits.2, ?_⟩
      rw [List.forall₂_map_left_iff]
      exact List.forall₂_same.mpr fun b _ => hexByte_fmtHex2 b
    rw [(pt_spec hline c fd s).1, hread]
    cases bs with
    | nil => exact absurd hfits.1 (by decide)
    | cons b bs => rfl
  next hout =>
    by_cases hmany : TooManyWords (ascii "PT " ++ hexdumpText bs)
    · obtain ⟨hnone, hvalue⟩ := tooMany_refused c fd hmany s
      rw [hnone, hvalue]
      exact ⟨rfl, by decide⟩
    · have hroom : ((bs.take 100).map fun b => fmtHex2 b.toNat).length < 16 := by
        rw [TooManyWords, hwords, List.length_cons, maxCommandTokens] at hmany
        omega
      refine pt_refused (commandOfLine_pt hwords hroom) ?_
      by_cases hnil : bs = []
      · exact Or.inr (by rw [hnil]; rfl)
      · -- nine bytes are one too many
        have hsome := List.length_pos_iff.mpr hnil
        refine Or.inl (Option.eq_none_iff_forall_ne_some.mpr fun data hdata => ?_)
        have hlen := (gethexdata_eq_some_iff.mp hdata).1
        rw [List.length_map, hcount] at hlen
        omega

/-- If raw data is asked for, a packet is shown before anything else comes of it. -/
theorem decodePacket_dump {env : Env} (hraw : env.config.rawData = true)
    (relay : ℤ → Bytes → X10M Unit) (fd : ℤ) (p : Memory) (len : ℕ) (s : X10State) :
    ∃ rest, (decodePacket env relay fd p len s).effects =
      .sockprintf fd (ascii "Raw data received: " ++ hexdumpText (p.take len) ++ ascii "\n") ::
        rest := by
  rw [decodePacket_eq, if_pos hraw, X10M.bind_apply]
  exact ⟨_, rfl⟩

theorem decodeWith_dump {c : Ctx} (hraw : c.env.config.rawData = true) (buf : Memory) {len : ℕ}
    (hlen : 4 ≤ len) (hlong : c.env.cm19a = true → len ≤ 8) (s : X10State) :
    ∃ rest, (decodeWith c buf len s).effects =
      .sockprintf (-1) (ascii "Raw data received: " ++ hexdumpText (seen c.env.cm19a buf len) ++
        ascii "\n") :: rest := by
  rw [decodeWith, cm15aDecode, if_neg (not_lt.mpr hlen)]
  cases hcm : c.env.cm19a with
  | false => exact decodePacket_dump hraw _ _ _ _ s
  | true =>
    have hlength : (0x5d :: buf.take len).length = len + 1 := by
      simp [Memory.take]
    -- the array that the packet is copied to holds the marker and the packet
    have htake := take_ofBytes (0x5d :: buf.take len) c.env.stack
    rw [hlength] at htake
    have hdump := fun relay => decodePacket_dump hraw relay (-1)
      (Memory.ofBytes (0x5d :: buf.take len) c.env.stack) (len + 1) s
    rw [htake] at hdump
    rw [if_pos rfl, if_neg (not_lt.mpr (hlong hcm)), seen, if_pos rfl]
    exact hdump _

/-- **What is shown of a packet can be sent**: a client that puts `PT` in front of the dump has the
packet written as the decoder saw it, if that is at most eight bytes; and is refused otherwise. -/
theorem dump_sent_again {c : Ctx} (hraw : c.env.config.rawData = true) (buf : Memory) {len : ℕ}
    (hlen : 4 ≤ len) (hlong : c.env.cm19a = true → len ≤ 8) (s : X10State) :
    ∃ dump rest, (decodeWith c buf len s).effects =
        .sockprintf (-1) (ascii "Raw data received: " ++ dump ++ ascii "\n") :: rest ∧
      ∀ (c' : Ctx) (fd : ℤ) (t : X10State),
        if (seen c.env.cm19a buf len).length ≤ 8 then
          packets (processcommandline c' fd (ascii "PT " ++ dump) t).effects =
            [seen c.env.cm19a buf len]
        else
          packets (processcommandline c' fd (ascii "PT " ++ dump) t).effects = [] ∧
            (processcommandline c' fd (ascii "PT " ++ dump) t).value < 0 := by
  obtain ⟨rest, hdump⟩ := decodeWith_dump hraw buf hlen hlong s
  refine ⟨_, rest, hdump, fun c' fd t => ?_⟩
  have hback := pt_hexdumpText c' fd (seen c.env.cm19a buf len) t
  have hsome : 1 ≤ (seen c.env.cm19a buf len).length := by
    rw [seen]
    split
    · exact Nat.succ_pos _
    · simp only [Memory.take, List.length_map, List.length_range]
      omega
  simpa only [hsome, true_and] using hback

/-- The power line selects A1. -/
theorem dump_sent_again_a1 :
    ∃ dump rest,
      (decodeWith (.idle (.plain { mochadConfigDefaults with rawData := true } false))
        (.ofBytes [0x5a, 0x02, 0x00, 0x66] fun _ => 0) 4 .idle).effects =
        .sockprintf (-1) (ascii "Raw data received: " ++ dump ++ ascii "\n") :: rest ∧
      ∀ (c : Ctx) (fd : ℤ) (t : X10State),
        packets (processcommandline c fd (ascii "PT " ++ dump) t).effects =
          [[0x5a, 0x02, 0x00, 0x66]] := by
  obtain ⟨dump, rest, hdump, hback⟩ :=
    dump_sent_again (c := .idle (.plain { mochadConfigDefaults with rawData := true } false)) rfl
      (.ofBytes [0x5a, 0x02, 0x00, 0x66] fun _ => 0) (by decide : 4 ≤ 4) (by decide) .idle
  exact ⟨dump, rest, hdump, fun c fd t => hback c fd t⟩

end Mochad
