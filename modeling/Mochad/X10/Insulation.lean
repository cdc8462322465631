import Mochad.X10.RadioCommands

/-!
# What the decoder looks at

A packet is a pointer and a length, and behind the length the buffer holds what an earlier
transfer left there; a packet from a CM19A is copied to an uninitialised array first. The
decoder must not look at either (`Agree` says that two buffers differ only there).

It does in two places. A dim packet of four bytes has no fourth byte after its type, and a
standard radio frame of five bytes has no check byte; both are read all the same. Everywhere
else the length is checked before the bytes are read (`decode_insulated_iff`).
-/

namespace Mochad

open X10M (Emits gets modify)

/-- **Two buffers agree** on so many bytes. -/
def Agree (len : ℕ) (buf buf' : Memory) : Prop := ∀ i < len, buf i = buf' i

/-- The same surroundings, with other bytes on the stack. -/
def Env.withStack (env : Env) (stack : Memory) : Env := { env with stack := stack }

/-- The same interpreter, with other bytes on the stack. -/
def Ctx.withStack (c : Ctx) (stack : Memory) : Ctx := { c with env := c.env.withStack stack }

theorem Agree.take_eq {len : ℕ} {buf buf' : Memory} (h : Agree len buf buf') :
    buf.take len = buf'.take len :=
  List.map_congr_left fun i hi => h i (List.mem_range.mp hi)

theorem Agree.copy {len : ℕ} {buf buf' : Memory} (h : Agree len buf buf') (off : ℕ) (src : Bytes) :
    Agree len (buf.copy off src) (buf'.copy off src) := by
  intro i hi
  simp only [Memory.copy]
  split
  · rfl
  · exact h i hi

theorem agree_ofBytes (bs : Bytes) (rest rest' : Memory) :
    Agree bs.length (Memory.ofBytes bs rest) (Memory.ofBytes bs rest') := by
  intro i hi
  rw [Memory.ofBytes, Memory.ofBytes, dif_pos hi, dif_pos hi]

/-! ### Packets off the power line -/

/-- A dim packet that ends before the byte which names its house. -/
def DimCut (buf : Memory) (len : ℕ) : Prop := len = 4 ∧ buf 1 = 3 ∧ buf 2 = 0x02

theorem decodePlc_agree (fd : ℤ) {buf buf' : Memory} {len : ℕ} (h : Agree len buf buf')
    (hcut : ¬DimCut buf len) : cm15aDecodePlc fd buf len = cm15aDecodePlc fd buf' len := by
  by_cases hshort : len < 4
  · rw [cm15aDecodePlc, cm15aDecodePlc, if_pos hshort, if_pos hshort]
  by_cases hlong : 8 < len
  · rw [cm15aDecodePlc, cm15aDecodePlc, if_neg hshort, if_neg hshort, if_pos hlong, if_pos hlong]
  have h0 := h 0 (by omega)
  have h1 := h 1 (by omega)
  have h2 := h 2 (by omega)
  have h3 := h 3 (by omega)
  by_cases hfour : len = 4
  · -- the extended packets are too short, and so is the dim packet
    have hseven : len ≠ 7 := by omega
    have hdim : ¬(buf' 1 = 3 ∧ buf' 2 = 0x02) := by
      rw [← h1, ← h2]
      exact fun hdim => hcut ⟨hfour, hdim⟩
    simp only [cm15aDecodePlc, h0, h1, h2, h3, if_pos hseven]
    by_cases htwo : buf' 2 = 0x02
    · have hone : buf' 1 ≠ 3 := fun hone => hdim ⟨hone, htwo⟩
      simp only [if_pos hone]
    · simp only [if_neg htwo]
  · have h4 := h 4 (by omega)
    by_cases hseven : len = 7
    · have h5 := h 5 (by omega)
      have h6 := h 6 (by omega)
      simp only [cm15aDecodePlc, h0, h1, h2, h3, h4, h5, h6]
    · have hseven' : len ≠ 7 := hseven
      simp only [cm15aDecodePlc, h0, h1, h2, h3, h4, if_pos hseven']

/-! ### Commands do not look at the stack -/

section Commands

variable (c : Ctx) (stack : Memory)

/-- A packet that is made on the stack. -/
theorem decodePlc_ofBytes (bs : Bytes) (rest rest' : Memory)
    (hcut : ¬DimCut (Memory.ofBytes bs rest) bs.length) :
    cm15aDecodePlc (-1) (Memory.ofBytes bs rest) bs.length =
      cm15aDecodePlc (-1) (Memory.ofBytes bs rest') bs.length :=
  decodePlc_agree (-1) (agree_ofBytes bs rest rest') hcut

theorem plTxHouseunit_withStack (env : Env) :
    plTxHouseunit (env.withStack stack) = plTxHouseunit env := by
  funext house unit
  have hdecode := decodePlc_ofBytes
    [0x00, 0x02, 0x00, houseByte x10housecode house (tableAt x10housecode unit)] stack env.stack
    fun hcut => absurd (show (0x02 : UInt8) = 3 from hcut.2.1) (by decide)
  exact congrArg (fun decode => decode >>= fun _ => x10Write _) hdecode

theorem plTxExtendedCode1_withStack (env : Env) :
    plTxExtendedCode1 (env.withStack stack) = plTxExtendedCode1 env := by
  funext house unit command subcmd param
  have hdecode := decodePlc_ofBytes
    [0x00, 0x05, 0x07, houseByte x10housecode house 0x7, tableAt x10housecode unit, lowByte param,
      (lowByte command <<< 4) ||| (lowByte subcmd &&& 0x0F)] stack env.stack
    fun hcut => absurd (show 7 = 4 from hcut.1) (by decide)
  exact congrArg (fun decode => decode >>= fun _ => x10Write _) hdecode

theorem plTxHousefunc_withStack (env : Env) :
    plTxHousefunc (env.withStack stack) = plTxHousefunc env := by
  funext house func param
  have hdim := decodePlc_ofBytes
    [0x00, 0x03, 0x02, lowByte ((param % 32) * 8) ||| 0x01, houseByte x10housecode house (lowByte func)]
    stack env.stack fun hcut => absurd (show 5 = 4 from hcut.1) (by decide)
  have hxdim := decodePlc_ofBytes
    [0x00, 0x05, 0x07, houseByte x10housecode house 0x7, 0x02, lowByte param, 0x31]
    stack env.stack fun hcut => absurd (show 7 = 4 from hcut.1) (by decide)
  have hplain := decodePlc_ofBytes
    [0x00, 0x02, 0x01, houseByte x10housecode house (lowByte func)] stack env.stack
    fun hcut => absurd (show (0x02 : UInt8) = 3 from hcut.2.1) (by decide)
  rw [plTxHousefunc, plTxHousefunc]
  split_ifs
  · exact congrArg (fun decode => decode >>= fun _ => x10Write _) hdim
  · exact congrArg (fun decode => decode >>= fun _ => x10Write _) hxdim
  · exact congrArg (fun decode => decode >>= fun _ => x10Write _) hplain

/-- **A relayed line does not look at the stack.** -/
theorem processcommandline_withStack (fd : ℤ) {line : Bytes} (h : IsPl line) :
    processcommandline (c.withStack stack) fd line = processcommandline c fd line := by
  have hhouse : plHouse (c.withStack stack) = plHouse c := by
    funext house tokens
    simp only [plHouse, Ctx.withStack, plTxHousefunc_withStack]
  have hunit : plUnit (c.withStack stack) = plUnit c := by
    funext house unit tokens
    simp only [plUnit, Ctx.withStack, plTxHousefunc_withStack, plTxHouseunit_withStack,
      plTxExtendedCode1_withStack]
  have hcommand : plCommand (c.withStack stack) fd = plCommand c fd := by
    funext tokens
    simp only [plCommand, hhouse, hunit]
    rfl
  refine (processWith_eq_pl (c.withStack stack) _ fd h).trans ?_
  rw [hcommand]
  exact (processWith_eq_pl c _ fd h).symm

end Commands

/-! ### Radio frames -/

/-- A standard frame that ends before its last check byte. -/
def FrameCut (buf : Memory) (len : ℕ) : Prop :=
  len = 5 ∧ buf 1 = 0x20 ∧ (buf 2 ^^^ buf 3 = 0x0f ∨ buf 2 ^^^ buf 3 = 0xff)

section Radio

variable (env : Env) (relay : ℤ → Bytes → X10M Unit) (fd : ℤ) {buf buf' : Memory} {len : ℕ}

/-- Markers are skipped alike. -/
theorem trimMarkers_agree (h : Agree len buf buf') :
    (trimMarkers buf len).2 = (trimMarkers buf' len).2 ∧
      Agree (trimMarkers buf len).2 (trimMarkers buf len).1 (trimMarkers buf' len).1 := by
  induction len generalizing buf buf' with
  | zero => exact ⟨rfl, h⟩
  | succ len ih =>
    rw [trimMarkers, trimMarkers]
    by_cases hlong : 8 < len + 1
    · rw [← h 1 (by omega)]
      split
      · exact ih fun i hi => h (i + 1) (by omega)
      · exact ⟨rfl, h⟩
    · rw [if_neg fun htrim => hlong htrim.1, if_neg fun htrim => hlong htrim.1]
      exact ⟨rfl, h⟩

theorem rejectRf_agree (h : Agree len buf buf') : rejectRf fd buf len = rejectRf fd buf' len := by
  funext why
  rw [rejectRf, rejectRf, sockhexdump, sockhexdump, h.take_eq]

theorem repeatRF_agree (h : Agree len buf buf') :
    repeatRF env fd buf len = repeatRF env fd buf' len := by
  rw [repeatRF, repeatRF, (h.copy 0 [0xEB]).take_eq]

/-- The key of a camera is in the first four bytes. -/
theorem findCamRemoteName_agree (h : Agree 4 buf buf') (commandlen : ℕ) :
    findCamRemoteName buf commandlen = findCamRemoteName buf' commandlen := by
  simp only [findCamRemoteName, h 0 (by decide), h 1 (by decide), h 2 (by decide), h 3 (by decide)]

/-- A frame with a long address is only looked at if it is long enough. -/
theorem secafDecode_agree (h : Agree len buf buf') : secafDecode buf len = secafDecode buf' len := by
  by_cases hshort : len < 8
  · rw [secafDecode, secafDecode, if_pos hshort, if_pos hshort]
  · simp only [secafDecode, h 2 (by omega), h 3 (by omega), h 4 (by omega), h 5 (by omega),
      h 6 (by omega), h 7 (by omega)]

theorem decodeRfCamera_agree (h : Agree len buf buf') (hlen : 5 ≤ len) :
    decodeRfCamera env fd buf len = decodeRfCamera env fd buf' len := by
  have hcamera : Agree 4 (fun i => buf (i + 1)) fun i => buf' (i + 1) :=
    fun i hi => h (i + 1) (by omega)
  simp only [decodeRfCamera, findCamRemoteName_agree hcamera, h.take_eq, h 0 (by omega),
    rejectRf_agree fd h, repeatRF_agree env fd h]

theorem decodeRfLong_agree (h : Agree len buf buf') (hlen : 5 ≤ len) :
    decodeRfLong env fd buf len = decodeRfLong env fd buf' len := by
  simp only [decodeRfLong, secafDecode_agree h, h.take_eq, h 0 (by omega), rejectRf_agree fd h,
    repeatRF_agree env fd h]

theorem decodeRfStandard_agree (h : Agree len buf buf') (hlen : 5 ≤ len) (htype : buf 1 = 0x20)
    (hcut : ¬FrameCut buf len) :
    decodeRfStandard env relay fd buf len = decodeRfStandard env relay fd buf' len := by
  have h0 := h 0 (by omega)
  have h2 := h 2 (by omega)
  have h3 := h 3 (by omega)
  have h4 := h 4 (by omega)
  by_cases hfive : len = 5
  · -- neither check byte is looked at: the frame is rejected first
    have hcheck : ¬(buf 2 ^^^ buf 3 = 0x0f ∨ buf 2 ^^^ buf 3 = 0xff) :=
      fun hcheck => hcut ⟨hfive, htype, hcheck⟩
    obtain ⟨hshort, hstandard⟩ := not_or.mp hcheck
    rw [decodeRfStandard, decodeRfStandard, ← h2, ← h3]
    simp only [if_neg hshort, if_neg hstandard, rejectRf_agree fd h]
  · have h5 := h 5 (by omega)
    simp only [decodeRfStandard, decodeRfShort, decodeRfDim, decodeRfSwitch, h0, h2, h3, h4, h5,
      h.take_eq, rejectRf_agree fd h, repeatRF_agree env fd h]

/-- **A radio frame** is looked at within its length, unless it ends before its check byte. -/
theorem decodeRf_agree (h : Agree len buf buf')
    (hcut : ¬FrameCut (trimMarkers buf len).1 (trimMarkers buf len).2) :
    cm15aDecodeRf env relay fd buf len = cm15aDecodeRf env relay fd buf' len := by
  obtain ⟨hlen, hagree⟩ := trimMarkers_agree h
  rw [cm15aDecodeRf, cm15aDecodeRf]
  generalize trimMarkers buf len = t at hcut hlen hagree
  generalize trimMarkers buf' len = t' at hlen hagree
  obtain ⟨b, n⟩ := t
  obtain ⟨b', n'⟩ := t'
  obtain rfl : n = n' := hlen
  dsimp only at hcut hagree ⊢
  rw [rejectRf_agree fd hagree]
  by_cases hshort : n < 5
  · rw [if_pos hshort, if_pos hshort]
  · rw [if_neg hshort, if_neg hshort, ← hagree 1 (by omega), decodeRfCamera_agree env fd hagree (by omega),
      decodeRfLong_agree env fd hagree (by omega)]
    by_cases htype : b 1 = 0x20
    · rw [decodeRfStandard_agree env relay fd hagree (by omega) htype hcut]
    · simp only [if_neg htype]

end Radio

/-! ### Packets from the controller -/

/-- `cm15a_decode`, as the controller's packets are given to it. -/
def decodeWith (c : Ctx) (buf : Memory) (len : ℕ) : X10M Unit :=
  cm15aDecode c.env (fun fd line => do let _ ← processcommandline c fd line) (-1) buf len

/-- **A packet that the decoder looks past the end of.** A CM19A leaves out the first byte. -/
def ReadsPast (cm19a : Bool) (buf : Memory) (len : ℕ) : Prop :=
  if cm19a then len = 4 ∧ buf 0 = 0x20 ∧ (buf 1 ^^^ buf 2 = 0x0f ∨ buf 1 ^^^ buf 2 = 0xff)
  else buf 0 = 0x5a ∧ DimCut buf len ∨ buf 0 = 0x5d ∧ FrameCut buf len

/-- Skipping markers does not make a frame too short. -/
theorem le_trimMarkers {buf : Memory} {len : ℕ} (h : 8 < len) : 8 ≤ (trimMarkers buf len).2 := by
  induction len generalizing buf with
  | zero => omega
  | succ len ih =>
    rw [trimMarkers]
    split
    · by_cases hnext : 8 < len
      · exact ih hnext
      · have height : len = 8 := by omega
        rw [height, trimMarkers_of_le (le_refl 8)]
    · show 8 ≤ len + 1
      omega

theorem frameCut_trimMarkers {buf : Memory} {len : ℕ}
    (h : FrameCut (trimMarkers buf len).1 (trimMarkers buf len).2) : FrameCut buf len := by
  by_cases hlong : 8 < len
  · have hle : 8 ≤ (trimMarkers buf len).2 := le_trimMarkers hlong
    have hfive := h.1
    omega
  · rwa [trimMarkers_of_le (not_lt.mp hlong)] at h

theorem decodePacket_agree (env : Env) (relay : ℤ → Bytes → X10M Unit) (fd : ℤ) {p p' : Memory}
    {len : ℕ} (h : Agree len p p') (hlen : 4 ≤ len) (hdim : ¬(p 0 = 0x5a ∧ DimCut p len))
    (hframe : ¬(p 0 = 0x5d ∧ FrameCut p len)) :
    decodePacket env relay fd p len = decodePacket env relay fd p' len := by
  have hdump : mhSockhexdump fd p len = mhSockhexdump fd p' len := by
    rw [mhSockhexdump, mhSockhexdump, h.take_eq]
  have hplc : p 0 = 0x5a → cm15aDecodePlc fd p len = cm15aDecodePlc fd p' len :=
    fun hplc => decodePlc_agree fd h fun hcut => hdim ⟨hplc, hcut⟩
  have hrf : p 0 = 0x5d → cm15aDecodeRf env relay fd p len = cm15aDecodeRf env relay fd p' len :=
    fun hrf => decodeRf_agree env relay fd h fun hcut => hframe ⟨hrf, frameCut_trimMarkers hcut⟩
  have hkind : (if p 0 = 0xa5 then setClock env
      else if p 0 = 0x5a then cm15aDecodePlc fd p len
      else if p 0 = 0x5d then cm15aDecodeRf env relay fd p len
      else pure ()) =
      (if p 0 = 0xa5 then setClock env
      else if p 0 = 0x5a then cm15aDecodePlc fd p' len
      else if p 0 = 0x5d then cm15aDecodeRf env relay fd p' len
      else pure ()) := by
    split_ifs with _ h5a h5d
    · rfl
    · exact hplc h5a
    · exact hrf h5d
    · rfl
  simp only [decodePacket, hdump, ← h 0 (by omega), hkind]

/-- The radio decoder has nothing on the stack. -/
theorem cm15aDecodeRf_withStack (env : Env) (stack : Memory) (relay : ℤ → Bytes → X10M Unit) :
    cm15aDecodeRf (env.withStack stack) relay = cm15aDecodeRf env relay := by
  have hdup : dupFilter (env.withStack stack) = dupFilter env := rfl
  have hsec : huaSecEvent (env.withStack stack) = huaSecEvent env := rfl
  have hrepeat : repeatRF (env.withStack stack) = repeatRF env := rfl
  have hrelayed : relayed (env.withStack stack) = relayed env := rfl
  funext fd buf len
  simp only [cm15aDecodeRf, decodeRfCamera, decodeRfStandard, decodeRfShort, decodeRfDim,
    decodeRfSwitch, decodeRfLong, hdup, hsec, hrepeat, hrelayed]

/-- The stack is not looked at for a packet that is given. -/
theorem decodePacket_withStack (c : Ctx) (stack : Memory) (fd : ℤ) (p : Memory) (len : ℕ) :
    decodePacket (c.withStack stack).env
        (fun fd line => do let _ ← processcommandline (c.withStack stack) fd line) fd p len =
      decodePacket c.env (fun fd line => do let _ ← processcommandline c fd line) fd p len := by
  have hrelay : cm15aDecodeRf (c.withStack stack).env
      (fun fd line => do let _ ← processcommandline (c.withStack stack) fd line) =
        cm15aDecodeRf c.env (fun fd line => do let _ ← processcommandline c fd line) := by
    refine (cm15aDecodeRf_withStack c.env stack _).trans ?_
    refine cm15aDecodeRf_congr c.env fun fd line hpl => ?_
    rw [processcommandline_withStack c stack fd hpl]
  have hclock : setClock (c.withStack stack).env = setClock c.env := rfl
  have hconfig : (c.withStack stack).env.config = c.env.config := rfl
  simp only [decodePacket, hrelay, hclock, hconfig]

theorem decodeWith_cm15a {c : Ctx} (hcm : c.env.cm19a = false) (stack buf : Memory) {len : ℕ}
    (hlen : 4 ≤ len) : decodeWith (c.withStack stack) buf len =
      decodePacket c.env (fun fd line => do let _ ← processcommandline c fd line) (-1) buf len := by
  have hcm' : (c.withStack stack).env.cm19a = false := hcm
  simp only [decodeWith, cm15aDecode, if_neg (not_lt.mpr hlen), hcm', Bool.false_eq_true, if_false,
    decodePacket_withStack]

theorem decodeWith_cm19a {c : Ctx} (hcm : c.env.cm19a = true) (stack buf : Memory) {len : ℕ}
    (hlen : 4 ≤ len) (hlong : ¬8 < len) : decodeWith (c.withStack stack) buf len =
      decodePacket c.env (fun fd line => do let _ ← processcommandline c fd line) (-1)
        (Memory.ofBytes (0x5d :: buf.take len) stack) (len + 1) := by
  have hcm' : (c.withStack stack).env.cm19a = true := hcm
  simp only [decodeWith, cm15aDecode, if_neg (not_lt.mpr hlen), hcm', if_true, if_neg hlong,
    decodePacket_withStack]
  rfl

/-- **Every other packet is looked at within its length**, whatever is left on the stack. -/
theorem decodeWith_agree (c : Ctx) (stack : Memory) {buf buf' : Memory} {len : ℕ}
    (h : Agree len buf buf') (hpast : ¬ReadsPast c.env.cm19a buf len) :
    decodeWith (c.withStack stack) buf' len = decodeWith c buf len := by
  by_cases hshort : len < 4
  · rw [decodeWith, decodeWith, cm15aDecode, cm15aDecode, if_pos hshort, if_pos hshort]
  have hlen : 4 ≤ len := not_lt.mp hshort
  rw [show decodeWith c buf len = decodeWith (c.withStack c.env.stack) buf len from rfl]
  rw [ReadsPast] at hpast
  cases hcm : c.env.cm19a with
  | false =>
    rw [hcm, if_neg Bool.false_ne_true] at hpast
    obtain ⟨hdim, hframe⟩ := not_or.mp hpast
    rw [decodeWith_cm15a hcm _ _ hlen, decodeWith_cm15a hcm _ _ hlen]
    exact (decodePacket_agree _ _ _ h hlen hdim hframe).symm
  | true =>
    rw [hcm, if_pos rfl] at hpast
    by_cases hlong : 8 < len
    · have hcm' : ∀ st, (c.withStack st).env.cm19a = true := fun _ => hcm
      simp only [decodeWith, cm15aDecode, if_neg hshort, hcm', if_true, if_pos hlong]
    rw [decodeWith_cm19a hcm _ _ hlen hlong, decodeWith_cm19a hcm _ _ hlen hlong, ← h.take_eq]
    have hlength : (0x5d :: buf.take len).length = len + 1 := by simp [Memory.take]
    have hagree := agree_ofBytes (0x5d :: buf.take len) c.env.stack stack
    rw [hlength] at hagree
    refine (decodePacket_agree _ _ _ hagree (by omega) (fun hplc => ?_) fun hcut => ?_).symm
    · exact absurd (show (0x5d : UInt8) = 0x5a from hplc.1) (by decide)
    · obtain ⟨-, hfive, hcut⟩ := hcut
      obtain rfl : len = 4 := by omega
      exact hpast ⟨rfl, hcut⟩

/-! ### What lies past the end shows -/

/-- What is printed when a check byte is wrong. -/
def rejection : Effect := .sockprintf (-1) (ascii "Invalid checksum\n")

/-- Nothing else is said like that. -/
theorem unrejected_of_head {text : Bytes} {fd : ℤ} (h : text.take 10 ≠ ascii "Invalid ch") :
    Effect.sockprintf fd text ≠ rejection := by
  intro heq
  obtain ⟨-, rfl⟩ := Effect.sockprintf.inj heq
  exact h (by decide)

theorem unrejected_dispatch (fd : ℤ) (e : MochadEvent) :
    Emits (· ≠ rejection) (mochadDispatchEvent fd e) := by
  rw [mochadDispatchEvent, mochadEventFormatLegacyBody, checkedSnprintf]
  obtain ⟨rest, hbody⟩ := legacyBody_head e
  split
  · exact Emits.pure _
  next body hformat =>
    split at hformat
    · obtain rfl := Option.some.inj hformat
      refine Emits.call (unrejected_of_head fun htake => ?_)
      have hfirst := congrArg List.head? htake
      rw [hbody] at hfirst
      cases hd : e.direction with
      | rx =>
        rw [hd] at hfirst
        exact absurd (show some (0x52 : UInt8) = some 0x49 from hfirst) (by decide)
      | tx =>
        rw [hd] at hfirst
        exact absurd (show some (0x54 : UInt8) = some 0x49 from hfirst) (by decide)
    · cases hformat

theorem unrejected_relay (c : Ctx) {line : Bytes} (h : IsPl line) :
    Emits (· ≠ rejection) (do let _ ← processcommandline c (-1) line) := by
  have hok : Emits (· ≠ rejection) (or20ok c (-1)) :=
    Emits.ite (Emits.call (by rintro ⟨⟩)) (Emits.pure _)
  have hinvalid : ∀ why,
      Effect.sockprintf (-1) (ascii "Invalid command: " ++ why) ≠ rejection := by
    refine fun why => unrejected_of_head fun htake => ?_
    exact absurd (show ascii "Invalid co" = ascii "Invalid ch" from htake) (by decide)
  refine Emits.bind ?_ fun _ => Emits.pure _
  exact emits_processWith_pl_of (emits_decodePlc_of fun e _ _ => unrejected_dispatch (-1) e)
    (fun _ => by rintro ⟨⟩) c hok hinvalid _ h

/-- A cut frame whose last check byte turns out right is accepted. -/
theorem rfFrame_cut {p : Memory} (htype : p 1 = 0x20)
    (hcheck : p 2 ^^^ p 3 = 0x0f ∨ p 2 ^^^ p 3 = 0xff) (hlast : p 5 = ~~~p 4) :
    ∃ frame, rfFrame p 5 = some frame := by
  rw [rfFrame, if_neg (by decide), htype, if_neg (by decide), if_pos rfl, hlast, xor_not]
  rcases hcheck with hcheck | hcheck
  · rw [hcheck]
    exact ⟨_, rfl⟩
  · rw [hcheck]
    exact ⟨_, rfl⟩

/-- One whose last check byte turns out wrong is rejected. -/
theorem decodeRf_cut (env : Env) (relay : ℤ → Bytes → X10M Unit) {p : Memory} (htype : p 1 = 0x20)
    (hcheck : p 2 ^^^ p 3 = 0x0f ∨ p 2 ^^^ p 3 = 0xff) (hlast : p 5 = p 4) :
    cm15aDecodeRf env relay (-1) p 5 = rejectRf (-1) p 5 (ascii "Invalid checksum\n") := by
  simp only [cm15aDecodeRf, trimMarkers_of_le (show 5 ≤ 8 by decide), htype, decodeRfStandard,
    decodeRfShort, hlast, UInt8.xor_self]
  rcases hcheck with hcheck | hcheck
  · rw [hcheck]
    rfl
  · rw [hcheck]
    rfl

theorem decodePacket_eq (env : Env) (relay : ℤ → Bytes → X10M Unit) (fd : ℤ) (p : Memory) (len : ℕ) :
    decodePacket env relay fd p len =
      (if env.config.rawData then mhSockhexdump fd p len else pure ()) >>= fun _ =>
        if p 0 = 0xa5 then setClock env
        else if p 0 = 0x5a then cm15aDecodePlc fd p len
        else if p 0 = 0x5d then cm15aDecodeRf env relay fd p len
        else pure () := by
  by_cases hraw : env.config.rawData = true
  · simp only [decodePacket, if_pos hraw]
  · simp only [decodePacket, if_neg hraw, pure_bind]

/-- **The byte behind a cut frame decides whether it is rejected.** -/
theorem rejection_cut (c : Ctx) {p : Memory} (hmarker : p 0 = 0x5d) (htype : p 1 = 0x20)
    (hcheck : p 2 ^^^ p 3 = 0x0f ∨ p 2 ^^^ p 3 = 0xff) (s : X10State) :
    (p 5 = ~~~p 4 → rejection ∉ (decodePacket c.env
      (fun fd line => do let _ ← processcommandline c fd line) (-1) p 5 s).effects) ∧
    (p 5 = p 4 → rejection ∈ (decodePacket c.env
      (fun fd line => do let _ ← processcommandline c fd line) (-1) p 5 s).effects) := by
  have hdump : Emits (· ≠ rejection)
      (if c.env.config.rawData then mhSockhexdump (-1) p 5 else pure ()) := by
    refine Emits.ite (Emits.call (unrejected_of_head fun htake => ?_)) (Emits.pure _)
    exact absurd (show ascii "Raw data r" = ascii "Invalid ch" from htake) (by decide)
  rw [decodePacket_eq, hmarker, if_neg (show ¬(0x5d : UInt8) = 0xa5 by decide),
    if_neg (show ¬(0x5d : UInt8) = 0x5a by decide), if_pos (show (0x5d : UInt8) = 0x5d from rfl)]
  constructor
  · intro hlast
    obtain ⟨frame, hframe⟩ := rfFrame_cut htype hcheck hlast
    have hact : Emits (· ≠ rejection) (frame.act c.env
        (fun fd line => do let _ ← processcommandline c fd line) (-1) p 5) := by
      refine (emits_update c.env frame).bind fun _ => (unrejected_dispatch (-1) _).bind fun _ =>
        Emits.bind ?_ fun _ => emits_sendOn c.env frame fun line hpl => unrejected_relay c hpl
      refine emits_repeatRF_of c.env (unrejected_of_head (by decide)) (fun _ => ?_) p 5
      rintro ⟨⟩
    have hdecode : Emits (· ≠ rejection) (cm15aDecodeRf c.env
        (fun fd line => do let _ ← processcommandline c fd line) (-1) p 5) := by
      intro t e he
      obtain ⟨dups, n, happly⟩ := cm15aDecodeRf_apply c.env
        (fun fd line => do let _ ← processcommandline c fd line) (-1)
        (trimMarkers_of_le (show 5 ≤ 8 by decide)) hframe t
      rw [happly] at he
      split at he
      · cases he
      · exact hact _ e he
    exact fun hmem => (hdump.bind fun _ => hdecode) s _ hmem rfl
  · intro hlast
    rw [decodeRf_cut _ _ htype hcheck hlast]
    exact List.mem_append_right _ (List.mem_cons_self ..)

/-- The event of a dim packet. -/
def dimEvent (p : Memory) : MochadEvent :=
  { direction := plDirection (p 0), transport := .pl, detail := .house,
    house := (hfcDecode (p 4)).1, function := funcnameAt (hfcDecode (p 4)).2, hasLevel := true,
    level := ((p 3 &&& 0xF8) >>> 3).toNat }

/-- It fits its buffer. -/
theorem length_dimEvent (p : Memory) : (legacyBody (dimEvent p)).length < 256 := by
  have hlevel : ∀ b : UInt8, (fmtInt ((b &&& 0xF8) >>> 3).toNat).length ≤ 2 :=
    forall_byte (by decide +kernel)
  have hname : ∀ b : UInt8, (fmtStr (funcnameAt (hfcDecode b).2)).length < 40 :=
    forall_byte (by decide +kernel)
  have hhead : ∀ d : Direction, (directionLabel d).length = 2 := by
    rintro (_ | _)
    · rfl
    · rfl
  simp only [legacyBody, dimEvent, if_true, List.length_append, List.length_singleton, hhead]
  have hfixed : (ascii " ").length + (transportLabel .pl).length + (ascii " House: ").length +
      (ascii " Func: ").length + (ascii "(").length + (ascii ")").length ≤ 30 := by
    decide
  have hp3 := hlevel (p 3)
  have hp4 := hname (p 4)
  omega

/-- **The byte behind a cut dim packet is reported** as its house. -/
theorem decodePlc_dim {p : Memory} (hcode : p 1 = 3) (htype : p 2 = 0x02) (s : X10State) :
    (cm15aDecodePlc (-1) p 4 s).effects =
      [.sockprintf (-1) (legacyBody (dimEvent p) ++ ascii "\n")] := by
  have hdispatch : cm15aDecodePlc (-1) p 4 = mochadDispatchEvent (-1) (dimEvent p) := by
    rw [cm15aDecodePlc, htype, hcode]
    rfl
  rw [hdispatch, mochadDispatchEvent, mochadEventFormatLegacyBody, checkedSnprintf,
    if_pos (length_dimEvent p)]
  rfl

/-- It is the last thing that is said. -/
theorem getLast_decodePacket_dim (env : Env) (relay : ℤ → Bytes → X10M Unit) {p : Memory}
    (hmarker : p 0 = 0x5a) (hcode : p 1 = 3) (htype : p 2 = 0x02) (s : X10State) :
    (decodePacket env relay (-1) p 4 s).effects.getLast? =
      some (.sockprintf (-1) (legacyBody (dimEvent p) ++ ascii "\n")) := by
  rw [decodePacket_eq, hmarker, if_neg (show ¬(0x5a : UInt8) = 0xa5 by decide),
    if_pos (show (0x5a : UInt8) = 0x5a from rfl)]
  simp only [X10M.bind_apply, decodePlc_dim hcode htype, List.getLast?_concat]

theorem getElem_dimEvent (p : Memory) :
    (legacyBody (dimEvent p) ++ ascii "\n")[13]? = some (hfcDecode (p 4)).1 := by
  rw [dimEvent]
  cases plDirection (p 0)
  · rfl
  · rfl

theorem agree_update (buf : Memory) (len : ℕ) (v : UInt8) :
    Agree len buf (Function.update buf len v) :=
  fun _ hi => (Function.update_of_ne (ne_of_lt hi) ..).symm

/-- **A packet that is not insulated**: what is behind it, or on the stack, shows. -/
theorem differs_of_readsPast (c : Ctx) {buf : Memory} {len : ℕ} (s : X10State)
    (hpast : ReadsPast c.env.cm19a buf len) : ¬ ∀ buf' stack, Agree len buf buf' →
      decodeWith (c.withStack stack) buf' len s = decodeWith c buf len s := by
  intro hall
  rw [ReadsPast] at hpast
  cases hcm : c.env.cm19a with
  | true =>
    rw [hcm, if_pos rfl] at hpast
    obtain ⟨rfl, htype, hcheck⟩ := hpast
    -- the check byte is read from the stack
    have hstack : ∀ v : UInt8, decodePacket c.env
        (fun fd line => do let _ ← processcommandline c fd line) (-1)
        (Memory.ofBytes (0x5d :: buf.take 4) fun _ => v) 5 s = decodeWith c buf 4 s := by
      intro v
      rw [← hall buf (fun _ => v) fun _ _ => rfl, decodeWith_cm19a hcm _ _ (by decide) (by decide)]
    have hright := (rejection_cut c (p := Memory.ofBytes (0x5d :: buf.take 4) fun _ => ~~~buf 3)
      rfl htype hcheck s).1 rfl
    have hwrong := (rejection_cut c (p := Memory.ofBytes (0x5d :: buf.take 4) fun _ => buf 3)
      rfl htype hcheck s).2 rfl
    rw [hstack] at hright hwrong
    exact hright hwrong
  | false =>
    rw [hcm, if_neg Bool.false_ne_true] at hpast
    have hbehind : ∀ v : UInt8, 4 ≤ len → decodePacket c.env
        (fun fd line => do let _ ← processcommandline c fd line) (-1) (Function.update buf len v) len s =
          decodeWith c buf len s := by
      intro v hlen
      rw [← hall _ c.env.stack (agree_update buf len v), decodeWith_cm15a hcm _ _ hlen]
    rcases hpast with ⟨hmarker, rfl, hcode, htype⟩ | ⟨hmarker, rfl, htype, hcheck⟩
    · -- the house of a dim packet is read from behind it
      have hlast : ∀ v : UInt8, (decodeWith c buf 4 s).effects.getLast? =
          some (.sockprintf (-1) (legacyBody (dimEvent (Function.update buf 4 v)) ++ ascii "\n")) := by
        intro v
        rw [← hbehind v (by decide)]
        exact getLast_decodePacket_dim c.env _ (p := Function.update buf 4 v) hmarker hcode htype s
      have htexts := (hlast 0x00).symm.trans (hlast 0x10)
      rw [Option.some.injEq, Effect.sockprintf.injEq] at htexts
      have hhouses := congrArg (fun text => text[13]?) htexts.2
      simp only [getElem_dimEvent, Function.update_self] at hhouses
      exact absurd hhouses (by decide)
    · -- the check byte is read from behind the frame
      have hright := (rejection_cut c (p := Function.update buf 5 (~~~buf 4)) hmarker htype hcheck
        s).1 rfl
      have hwrong := (rejection_cut c (p := Function.update buf 5 (buf 4)) hmarker htype hcheck s).2 rfl
      rw [hbehind _ (by decide)] at hright hwrong
      exact hright hwrong

/-- **The decoder looks at a packet within its length exactly if it is not one of these**: two
buffers that agree so far have the same effect, with whatever is left on the stack. -/
theorem decode_insulated_iff (c : Ctx) (buf : Memory) (len : ℕ) (s : X10State) :
    (∀ buf' stack, Agree len buf buf' →
        decodeWith (c.withStack stack) buf' len s = decodeWith c buf len s) ↔
      ¬ReadsPast c.env.cm19a buf len := by
  constructor
  · exact fun hall hpast => differs_of_readsPast c s hpast hall
  · intro hpast buf' stack hagree
    rw [decodeWith_agree c stack hagree hpast]

end Mochad
