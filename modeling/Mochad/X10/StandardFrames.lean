import Mochad.X10.Relay

/-!
# What a standard frame carries

`rf_tx_houseunitfunc` builds the second and the fourth byte of a standard frame from a house, a unit
and a function. `hufc_decode` takes them apart again, by the bits that it looks at (`Carries`): four
for the house and one for the unit in the second byte, and the unit and the function in the fourth
byte, unless that is one of the two for Dim and Bright. The other bits are not looked at, so that a
frame which nobody builds is taken for the one that has those bits clear.

What is reported, recorded and sent on is what the frame carries (`standard_frame_read`).
-/

namespace Mochad

open X10M (Emits Preserves gets modify)

/-! ### The bits that are looked at -/

/-- **A house, a unit and a function are carried by two bytes**, as far as the decoder looks at
them. -/
structure Carries (house unit func : ℤ) (hu fb : UInt8) : Prop where
  valid : (RadioCommand.device house unit func).Valid
  second : hu &&& (0xf4 : UInt8) = houseByte x10housecoderf house ((lowByte unit &&& 0x08) >>> 1)
  fourth : some (if func < 4 then fb &&& 0x78 else fb) = rfFuncByte unit func

/-- The four bits of a house, and the letter that is read from them. -/
theorem houseByte_letter (hu : UInt8) : ∃ house : Fin 16,
    tableAt houseUnitTableRF ((hu &&& 0xf0) >>> 4).toNat = houseChar (house : ℕ) ∧
      ∀ low, houseByte x10housecoderf (house : ℕ) low = (hu &&& 0xf0) ||| low := by
  have hletter : ∀ n : Fin 16, ∃ house : Fin 16,
      tableAt houseUnitTableRF (n : ℕ) = houseChar (house : ℕ) ∧
        tableAt x10housecoderf (house : ℕ) <<< 4 = n.val.toUInt8 <<< 4 := by
    decide +kernel
  have hshift : ((hu &&& 0xf0) >>> 4).toNat.toUInt8 <<< 4 = hu &&& 0xf0 := by
    revert hu
    exact forall_byte (by decide +kernel)
  obtain ⟨house, hchar, hcode⟩ := hletter ⟨_, shift_lt hu⟩
  refine ⟨house, hchar, fun low => ?_⟩
  rw [houseByte, hcode, hshift]

/-- The unit that two bytes carry. -/
def unitBits (hu fb : UInt8) : UInt8 :=
  ((hu &&& 0x04) <<< 1) ||| ((fb &&& 0x40) >>> 4) ||| ((fb &&& 0x08) >>> 2) ||| ((fb &&& 0x10) >>> 4)

/-- The bits of a unit, and of On and Off. -/
theorem rfFuncByte_unitBits (hu fb : UInt8) :
    rfFuncByte (unitBits hu fb).toNat (((fb &&& 0x20) >>> 5).toNat + 2) = some (fb &&& 0x78) ∧
      (lowByte (unitBits hu fb).toNat &&& 0x08) >>> 1 = hu &&& 0x04 := by
  have hbit : hu &&& 0x04 = 0 ∨ hu &&& 0x04 = 0x04 := by
    revert hu
    exact forall_byte (by decide +kernel)
  rw [unitBits]
  obtain hbit | hbit := hbit
  · rw [hbit]
    revert fb
    exact forall_byte (by decide +kernel)
  · rw [hbit]
    revert fb
    exact forall_byte (by decide +kernel)

/-- The bits of a house and of a unit. -/
theorem houseBits (hu : UInt8) : (hu &&& 0xf0) ||| (hu &&& 0x04) = hu &&& 0xf4 := by
  revert hu
  exact forall_byte (by decide +kernel)

/-- **What is read from two bytes is carried by them.** -/
theorem carries_hufcDecode (hu fb : UInt8) : ∃ house unit func : ℤ, Carries house unit func hu fb ∧
    (let (housechar, unit, func) := hufcDecode hu fb
      if 1 < func then RfFrame.dim housechar func else .switch housechar unit func) =
        (RadioCommand.device house unit func).readBack := by
  obtain ⟨house, hchar, hcode⟩ := houseByte_letter hu
  have hh : IsUnit (house : ℕ) := isUnit_iff.mpr ⟨house, List.mem_range.mpr house.isLt, rfl⟩
  -- Dim and Bright carry the first unit, or the ninth
  have hninth : IsUnit (((hu &&& 0x04) <<< 1).toNat : ℤ) ∧
      (lowByte ((hu &&& 0x04) <<< 1).toNat &&& 0x08) >>> 1 = hu &&& 0x04 := by
    clear hchar hcode
    revert hu
    exact forall_byte (by decide +kernel)
  have hsecond : ∀ unit : ℤ, (lowByte unit &&& 0x08) >>> 1 = hu &&& 0x04 →
      hu &&& (0xf4 : UInt8) = houseByte x10housecoderf (house : ℕ) ((lowByte unit &&& 0x08) >>> 1) :=
    fun unit hunit => by rw [hcode, hunit, houseBits]
  by_cases hbright : fb = 0x88
  · refine ⟨(house : ℕ), ((hu &&& 0x04) <<< 1).toNat, 5,
      ⟨⟨hh, Or.inr ⟨Or.inr rfl, Or.inr hninth.1⟩⟩, hsecond _ hninth.2, ?_⟩, ?_⟩
    · rw [hbright]
      rfl
    · rw [hufcDecode, if_pos hbright, hchar]
      rfl
  by_cases hdim : fb = 0x98
  · refine ⟨(house : ℕ), ((hu &&& 0x04) <<< 1).toNat, 4,
      ⟨⟨hh, Or.inr ⟨Or.inl rfl, Or.inr hninth.1⟩⟩, hsecond _ hninth.2, ?_⟩, ?_⟩
    · rw [hdim]
      rfl
    · rw [hufcDecode, if_neg hbright, if_pos hdim, hchar]
      rfl
  · obtain ⟨hfunc, hunit⟩ := rfFuncByte_unitBits hu fb
    have hlt : (unitBits hu fb).toNat < 16 := unitBits_lt hu fb
    have hbit : ((fb &&& 0x20) >>> 5).toNat < 2 := by
      clear hfunc hunit hlt hbright hdim
      revert fb
      exact forall_byte (by decide +kernel)
    refine ⟨(house : ℕ), (unitBits hu fb).toNat, ((fb &&& 0x20) >>> 5).toNat + 2,
      ⟨⟨hh, Or.inl ⟨by omega, isUnit_iff.mpr ⟨_, List.mem_range.mpr hlt, rfl⟩⟩⟩, hsecond _ hunit, ?_⟩, ?_⟩
    · rw [hfunc, if_pos (by omega)]
    · rw [hufcDecode, if_neg hbright, if_neg hdim, hchar]
      dsimp only
      rw [if_neg (by omega), RadioCommand.readBack, if_pos (by omega)]
      rw [unitBits]
      congr 1
      omega

/-- **The encoder's bytes** are the frame's as far as they are looked at, and the frame's own exactly
if the other bits are clear. -/
theorem Carries.encoded {house unit func : ℤ} {hu fb : UInt8} (h : Carries house unit func hu fb)
    (env : Env) : ∃ b₂ b₄ : UInt8,
      (∀ relay, rfTxHouseunitfunc env relay house unit func =
        rfTx env relay [0xeb, 0x20, b₂, ~~~b₂, b₄, ~~~b₄]) ∧
      hu &&& 0xf4 = b₂ ∧ (if func < 4 then fb &&& 0x78 else fb) = b₄ ∧
      (hu = b₂ ∧ fb = b₄ ↔ hu &&& 0x0b = 0 ∧ (func < 4 → fb &&& 0x87 = 0)) := by
  have hnonneg : ¬house < 0 := not_lt.mpr h.valid.1.1
  have hclear₂ : hu = hu &&& 0xf4 ↔ hu &&& 0x0b = 0 := by
    have hbyte : ∀ b : UInt8, b = b &&& 0xf4 ↔ b &&& 0x0b = 0 := forall_byte (by decide +kernel)
    exact hbyte hu
  have hclear₄ : fb = fb &&& 0x78 ↔ fb &&& 0x87 = 0 := by
    have hbyte : ∀ b : UInt8, b = b &&& 0x78 ↔ b &&& 0x87 = 0 := forall_byte (by decide +kernel)
    exact hbyte fb
  refine ⟨hu &&& 0xf4, if func < 4 then fb &&& 0x78 else fb, fun relay => ?_, rfl, rfl, ?_⟩
  · rw [rfTxHouseunitfunc, if_neg hnonneg, ← h.second]
    dsimp only
    rw [← h.fourth]
  · rw [hclear₂]
    by_cases hfunc : func < 4
    · rw [if_pos hfunc, hclear₄]
      simp only [hfunc, true_imp_iff]
    · rw [if_neg hfunc]
      simp only [hfunc, false_imp_iff]

/-! ### The lines of standard events -/

/-- **The standard radio events** among the lines that are printed to all. -/
def standardEvents (es : List Effect) : List Bytes :=
  es.filterMap fun e =>
    match e with
    | .sockprintf fd text =>
        if fd = -1 ∧ (ascii "Rx RF " <+: text ∨ ascii "Tx RF " <+: text) then some text else none
    | _ => none

/-- A call that reports no standard radio event. -/
def Effect.Nonstandard (e : Effect) : Prop := standardEvents [e] = []

theorem standardEvents_eq_nil {α : Type} {m : X10M α} (h : Emits Effect.Nonstandard m)
    (s : X10State) : standardEvents (m s).effects = [] := by
  refine List.filterMap_eq_nil_iff.mpr fun e he => ?_
  exact List.filterMap_eq_nil_iff.mp (h s e he) e (List.mem_singleton_self e)

theorem nonstandard_sockprintf {fd : ℤ} {text : Bytes}
    (h : ¬(ascii "Rx RF " <+: text ∨ ascii "Tx RF " <+: text)) :
    Effect.Nonstandard (.sockprintf fd text) := by
  simp only [Effect.Nonstandard, standardEvents, List.filterMap_cons, h, and_false, if_false,
    List.filterMap_nil]

theorem Undirected.nonstandard {text : Bytes} (h : Undirected text) (fd : ℤ) :
    Effect.Nonstandard (.sockprintf fd text) := by
  refine nonstandard_sockprintf ?_
  rintro (⟨rest, rfl⟩ | ⟨rest, rfl⟩)
  · exact absurd h (by simp [Undirected, ascii])
  · exact absurd h (by simp [Undirected, ascii])

/-- A text that begins with the direction and the transport of another event. -/
theorem nonstandard_head {d : Direction} {t : Transport} (h : t ≠ .rf) (rest : Bytes) :
    ¬(ascii "Rx RF " <+: directionLabel d ++ ascii " " ++ transportLabel t ++ rest ∨
      ascii "Tx RF " <+: directionLabel d ++ ascii " " ++ transportLabel t ++ rest) := by
  have hsix : ∀ text : Bytes, (ascii "Rx RF " <+: text ∨ ascii "Tx RF " <+: text) →
      text[4]? = some 0x46 ∧ text[5]? = some 0x20 := by
    rintro text (⟨rest, rfl⟩ | ⟨rest, rfl⟩)
    · exact ⟨rfl, rfl⟩
    · exact ⟨rfl, rfl⟩
  intro hbegins
  obtain ⟨hfifth, hsixth⟩ := hsix _ hbegins
  cases t with
  | rf => exact h rfl
  | pl =>
    cases d with
    | rx => exact absurd (Option.some.inj hfifth) (by decide)
    | tx => exact absurd (Option.some.inj hfifth) (by decide)
  | rfsec =>
    cases d with
    | rx => exact absurd (Option.some.inj hsixth) (by decide)
    | tx => exact absurd (Option.some.inj hsixth) (by decide)
  | rfcam =>
    cases d with
    | rx => exact absurd (Option.some.inj hsixth) (by decide)
    | tx => exact absurd (Option.some.inj hsixth) (by decide)

/-- An event of another transport. -/
theorem nonstandard_dispatch {e : MochadEvent} (h : e.transport ≠ .rf) :
    Emits Effect.Nonstandard (mochadDispatchEvent (-1) e) := by
  obtain ⟨rest, hbody⟩ := legacyBody_head e
  rw [mochadDispatchEvent, mochadEventFormatLegacyBody, checkedSnprintf]
  split
  · exact Emits.pure _
  next body hformat =>
    split at hformat
    · obtain rfl := Option.some.inj hformat
      refine Emits.call (nonstandard_sockprintf ?_)
      rw [hbody, List.append_assoc]
      exact nonstandard_head h _
    · cases hformat

/-- What is sent on is announced as an event of the power line. -/
theorem nonstandard_processDepth (c : Ctx) (n : ℕ) {line : Bytes} (h : IsPl line) :
    Emits Effect.Nonstandard (processDepth c (n + 1) (-1) line) := by
  have hok : Emits Effect.Nonstandard (or20ok c (-1)) := Emits.ite (Emits.call rfl) (Emits.pure _)
  have hinvalid : ∀ why, Effect.Nonstandard (.sockprintf (-1) (ascii "Invalid command: " ++ why)) :=
    fun why => Undirected.nonstandard (Undirected.append (by decide) why) (-1)
  exact emits_processWith_pl_of (emits_decodePlc_of fun _ h _ => nonstandard_dispatch (by rw [h]; decide))
    (fun _ => rfl) c hok hinvalid _ h

theorem undirected_hexdump (bs : Bytes) : Undirected (hexdumpText bs ++ ascii "\n") := by
  cases bs with
  | nil => decide
  | cons b bs =>
    have hdigit : ∀ b : UInt8, Undirected (fmtHex2 b.toNat) := forall_byte (by decide +kernel)
    have hcons : hexdumpText (b :: bs) =
        fmtHex2 b.toNat ++ ([0x20] ++ (bs.take 99).flatMap fun b => fmtHex2 b.toNat ++ [0x20]) := by
      simp [hexdumpText]
    rw [hcons, List.append_assoc]
    exact (hdigit b).append _

/-- **A frame that is rejected** is no standard event. -/
theorem nonstandard_rejected {env : Env} {relay : ℤ → Bytes → X10M Unit} {buf buf₀ : Memory}
    {len len₀ : ℕ} (htrim : trimMarkers buf₀ len₀ = (buf, len)) (hframe : rfFrame buf len = none) :
    Emits Effect.Nonstandard (cm15aDecodeRf env relay (-1) buf₀ len₀) := by
  have hcomplains : Complains (-1) buf len (cm15aDecodeRf env relay (-1) buf₀ len₀) :=
    complains_of_rejected htrim hframe
  obtain ⟨why, -, hwhy, -, heq | heq⟩ := hcomplains
  · rw [heq]
    exact (Emits.call ((hwhy.append _).nonstandard _)).bind fun _ =>
      Emits.call ((undirected_hexdump _).nonstandard _)
  · rw [heq]
    exact Emits.call ((hwhy.append _).nonstandard _)

/-! ### What becomes of a packet -/

/-- A frame of a camera or of a sensor. -/
def RfFrame.Other : RfFrame → Prop
  | dim _ _ => False
  | switch _ _ _ => False
  | _ => True

theorem devices_update {frame : RfFrame} (h : frame.Other) (env : Env) (s : X10State) :
    (frame.update env s).state.devices = s.devices := by
  have hsec : ∀ address function short,
      Preserves (fun t => t.devices = s.devices) (huaSecEvent env address function short) := by
    intro address function short
    have hmodify : ∀ f : X10State → X10State, (∀ t, (f t).devices = t.devices) →
        Preserves (fun t => t.devices = s.devices) (modify f) := fun f hf t ht => (hf t).trans ht
    have htime : Preserves (fun t => t.devices = s.devices) (timeNow env) :=
      (Preserves.gets _).bind fun _ => (hmodify _ (by intro; rfl)).bind fun _ => Preserves.pure _
    refine (Preserves.gets _).bind fun sensors => ?_
    split_ifs
    · exact htime.bind fun _ => hmodify _ (by intro; rfl)
    · exact Preserves.pure _
    · exact htime.bind fun _ => hmodify _ (by intro; rfl)
  cases frame with
  | camera command => rfl
  | short address function => exact hsec _ _ _ s rfl
  | long address function => exact hsec _ _ _ s rfl
  | dim | switch => exact absurd h id

variable {env : Env} {relay : ℤ → Bytes → X10M Unit} {frame : RfFrame} {buf : Memory} {len : ℕ}

/-- **A frame of a camera or of a sensor** is no standard event, switches nothing, and is not sent
on. -/
theorem RfFrame.Other.act (h : frame.Other) (s : X10State) :
    standardEvents (frame.act env relay (-1) buf len s).effects = [] ∧
      (frame.act env relay (-1) buf len s).state.devices = s.devices ∧
      ∀ relay', frame.act env relay' (-1) buf len s = frame.act env relay (-1) buf len s := by
  have hline : frame.line = none := by
    cases frame with
    | camera | short | long => rfl
    | dim | switch => exact absurd h id
  have hother : (frame.event (buf 0)).transport ≠ .rf := by
    cases frame with
    | camera | short | long => exact fun htransport => by cases htransport
    | dim | switch => exact absurd h id
  have hsend : ∀ relay', frame.sendOn env relay' (-1) = pure () := fun relay' => by
    rw [RfFrame.sendOn, hline]
  have hrepeat : Emits Effect.Nonstandard (repeatRF env (-1) buf len) :=
    emits_repeatRF_of env (nonstandard_sockprintf (by decide)) (fun _ => rfl) buf len
  refine ⟨standardEvents_eq_nil ?_ s, ?_, fun relay' => ?_⟩
  · refine (emits_update env frame).bind fun _ => (nonstandard_dispatch hother).bind fun _ =>
      hrepeat.bind fun _ => ?_
    rw [hsend]
    exact Emits.pure _
  · simp only [RfFrame.act, X10M.bind_apply, hsend, X10M.pure_apply, repeatRF_state,
      mochadDispatchEvent_state, devices_update h]
  · simp only [RfFrame.act, hsend]

/-- An accepted frame is one of the others, or is read from its second and its fourth byte. -/
theorem other_or_standard (h : rfFrame buf len = some frame) : frame.Other ∨
    frame = (let (housechar, unit, func) := hufcDecode (buf 2) (buf 4)
      if 1 < func then RfFrame.dim housechar func else .switch housechar unit func) := by
  rw [rfFrame] at h
  split at h
  · cases h
  split at h
  · obtain ⟨_, _, rfl⟩ := Option.map_eq_some_iff.mp h
    exact Or.inl trivial
  split at h
  · split at h
    · split at h
      · cases h
      · obtain rfl := Option.some.inj h
        exact Or.inl trivial
    split at h
    · split at h
      · cases h
      · exact Or.inr (Option.some.inj h).symm
    · cases h
  split at h
  · cases hsec : secafDecode buf len with
    | error e =>
      rw [hsec] at h
      cases h
    | ok a =>
      rw [hsec] at h
      obtain rfl := Option.some.inj h
      exact Or.inl trivial
  · cases h

/-- The direction of an event is two letters. -/
theorem length_legacyBody_direction (e : MochadEvent) (d : Direction) :
    (legacyBody { e with direction := d }).length = (legacyBody e).length := by
  have hdirection : (directionLabel d).length = (directionLabel e.direction).length := by
    have htwo : ∀ d : Direction, (directionLabel d).length = 2 := fun d => by cases d <;> rfl
    rw [htwo, htwo]
  simp only [legacyBody]
  cases e.detail with
  | houseUnit =>
    dsimp only
    split_ifs
    all_goals simp only [List.length_append, hdirection]
  | house =>
    dsimp only
    split_ifs
    all_goals simp only [List.length_append, hdirection]
  | rfsecShort | rfsecLong | rfcam => simp only [List.length_append, hdirection]

/-- The event of a standard frame has room. -/
theorem length_standardEvent {house unit func : ℤ} (h : (RadioCommand.device house unit func).Valid)
    (marker : UInt8) :
    (legacyBody ((RadioCommand.device house unit func).readBack.event marker)).length < 256 := by
  have hmarker : ∀ frame : RfFrame, frame.event marker =
      { frame.event 0xeb with direction := rfDirection marker } := fun frame => by
    cases frame <;> rfl
  rw [hmarker, length_legacyBody_direction]
  exact length_legacyBody_readBack h

/-- The text of the event of a house or a unit. -/
theorem legacyBody_house {e : MochadEvent} (h : e.detail = .houseUnit ∨ e.detail = .house) :
    ∃ rest, legacyBody e =
      directionLabel e.direction ++ ascii " " ++ transportLabel e.transport ++ ascii " " ++ rest := by
  simp only [legacyBody, List.append_assoc]
  obtain h | h := h
  · rw [h]
    dsimp only
    split_ifs
    all_goals exact ⟨_, rfl⟩
  · rw [h]
    dsimp only
    split_ifs
    all_goals exact ⟨_, rfl⟩

/-- **A standard frame that is acted upon is reported once.** -/
theorem standardEvents_act {house unit func : ℤ}
    (h : (RadioCommand.device house unit func).Valid)
    (hrelay : ∀ line, IsPl line → Emits Effect.Nonstandard (relay (-1) line)) (s : X10State) :
    standardEvents
        ((RadioCommand.device house unit func).readBack.act env relay (-1) buf len s).effects =
      [legacyBody ((RadioCommand.device house unit func).readBack.event (buf 0)) ++ ascii "\n"] := by
  have hlen := length_standardEvent h (buf 0)
  have htransport : ((RadioCommand.device house unit func).readBack.event (buf 0)).transport = .rf := by
    rw [RadioCommand.readBack]
    split
    · rfl
    · rfl
  have hrepeat : Emits Effect.Nonstandard (repeatRF env (-1) buf len) :=
    emits_repeatRF_of env (nonstandard_sockprintf (by decide)) (fun _ => rfl) buf len
  have hdetail : ((RadioCommand.device house unit func).readBack.event (buf 0)).detail = .houseUnit ∨
      ((RadioCommand.device house unit func).readBack.event (buf 0)).detail = .house := by
    rw [RadioCommand.readBack]
    split
    · exact Or.inl rfl
    · exact Or.inr rfl
  generalize (RadioCommand.device house unit func).readBack = frame at hlen htransport hdetail ⊢
  have hbegins : ascii "Rx RF " <+: legacyBody (frame.event (buf 0)) ++ ascii "\n" ∨
      ascii "Tx RF " <+: legacyBody (frame.event (buf 0)) ++ ascii "\n" := by
    obtain ⟨rest, hbody⟩ := legacyBody_house hdetail
    rw [hbody, htransport, List.append_assoc]
    cases (frame.event (buf 0)).direction with
    | rx => exact Or.inl ⟨_, rfl⟩
    | tx => exact Or.inr ⟨_, rfl⟩
  have hdispatch : mochadDispatchEvent (-1) (frame.event (buf 0)) =
      sockprintf (-1) (legacyBody (frame.event (buf 0)) ++ ascii "\n") := by
    rw [mochadDispatchEvent, mochadEventFormatLegacyBody, checkedSnprintf, if_pos hlen]
  have happend : ∀ es es', standardEvents (es ++ es') = standardEvents es ++ standardEvents es' :=
    fun _ _ => List.filterMap_append
  simp only [RfFrame.act, hdispatch, X10M.bind_apply, happend,
    standardEvents_eq_nil (emits_update env frame), standardEvents_eq_nil hrepeat,
    standardEvents_eq_nil (emits_sendOn env frame hrelay), List.nil_append, List.append_nil]
  simp only [sockprintf, X10M.call_apply, standardEvents, List.filterMap_cons, hbegins, and_self,
    if_true, List.filterMap_nil]

/-- A frame that is rejected is not sent on. -/
theorem relay_rejected {buf₀ : Memory} {len₀ : ℕ} (htrim : trimMarkers buf₀ len₀ = (buf, len))
    (hframe : rfFrame buf len = none) (relay' : ℤ → Bytes → X10M Unit) :
    cm15aDecodeRf env relay' (-1) buf₀ len₀ = cm15aDecodeRf env relay (-1) buf₀ len₀ := by
  rw [cm15aDecodeRf, cm15aDecodeRf, htrim]
  dsimp only
  split_ifs with hshort hlong hcamera hstandard hsecurity
  · rfl
  · rfl
  · rfl
  · rw [rfFrame, if_neg (not_or.mpr ⟨hshort, hlong⟩), if_neg hcamera, if_pos hstandard] at hframe
    rw [decodeRfStandard, decodeRfStandard]
    split at hframe
    next hsum => rw [if_pos hsum, if_pos hsum]
    next hsum =>
      rw [if_neg hsum, if_neg hsum]
      split at hframe
      next hsum' =>
        split at hframe
        next hbad => rw [if_pos hsum', if_pos hsum', if_pos hbad, if_pos hbad]
        · cases hframe
      next hsum' => rw [if_neg hsum', if_neg hsum']
  · rfl
  · rfl

/-- A frame that is rejected switches nothing. -/
theorem state_rejected {buf₀ : Memory} {len₀ : ℕ} (htrim : trimMarkers buf₀ len₀ = (buf, len))
    (hframe : rfFrame buf len = none) (s : X10State) :
    (cm15aDecodeRf env relay (-1) buf₀ len₀ s).state = s := by
  have hcomplains : Complains (-1) buf len (cm15aDecodeRf env relay (-1) buf₀ len₀) :=
    complains_of_rejected htrim hframe
  obtain ⟨why, -, -, -, heq | heq⟩ := hcomplains
  · rw [heq]
    rfl
  · rw [heq]
    rfl

/-- **What is reported, recorded and sent on is what the frame carries.** A packet that reports a
standard radio event has the bits of the bytes that `rf_tx_houseunitfunc` builds for the house, the
unit and the function, as far as `hufc_decode` looks at them, and is built by it exactly if the other
bits are clear. A packet that reports none switches nothing and is not sent on. -/
theorem standard_frame_read (c : Ctx) (buf₀ : Memory) (len₀ : ℕ) (s : X10State) {buf : Memory}
    {len : ℕ} (htrim : trimMarkers buf₀ len₀ = (buf, len)) :
    let relay := fun fd line => do let _ ← processcommandline c fd line
    let o := cm15aDecodeRf c.env relay (-1) buf₀ len₀ s
    (standardEvents o.effects = [] ∧ o.state.devices = s.devices ∧
        ∀ relay', cm15aDecodeRf c.env relay' (-1) buf₀ len₀ s = o) ∨
      ∃ (house unit func : ℤ) (b₂ b₄ : UInt8) (dups : List DupEntry) (reads : ℕ),
        (∀ relay, rfTxHouseunitfunc c.env relay house unit func =
          rfTx c.env relay [0xeb, 0x20, b₂, ~~~b₂, b₄, ~~~b₄]) ∧
        buf 2 &&& 0xf4 = b₂ ∧ (if func < 4 then buf 4 &&& 0x78 else buf 4) = b₄ ∧
        (buf 2 = b₂ ∧ buf 4 = b₄ ↔ buf 2 &&& 0x0b = 0 ∧ (func < 4 → buf 4 &&& 0x87 = 0)) ∧
        standardEvents o.effects =
          [legacyBody ((RadioCommand.device house unit func).readBack.event (buf 0)) ++ ascii "\n"] ∧
        o = (RadioCommand.device house unit func).readBack.act c.env relay (-1) buf len
          { s with dups := dups, timemsReads := reads } := by
  intro relay o
  cases hframe : rfFrame buf len with
  | none =>
    exact Or.inl ⟨standardEvents_eq_nil (nonstandard_rejected htrim hframe) s,
      congrArg X10State.devices (state_rejected htrim hframe s),
      fun relay' => congrFun (relay_rejected htrim hframe relay') s⟩
  | some frame =>
    obtain ⟨dups, reads, hdup⟩ : ∃ dups reads, dupFilter c.env (buf.take len) s =
        ⟨heldBack c.env (buf.take len) s, { s with dups := dups, timemsReads := reads }, []⟩ :=
      dupFilter_spec (buf.take len) s
    have happly : ∀ relay', cm15aDecodeRf c.env relay' (-1) buf₀ len₀ s =
        if heldBack c.env (buf.take len) s then
          ⟨(), { s with dups := dups, timemsReads := reads }, []⟩
        else frame.act c.env relay' (-1) buf len { s with dups := dups, timemsReads := reads } := by
      intro relay'
      rw [cm15aDecodeRf_of_frame htrim hframe, X10M.bind_apply, hdup]
      split
      · rfl
      · rfl
    have ho : o = cm15aDecodeRf c.env relay (-1) buf₀ len₀ s := rfl
    rw [happly relay] at ho
    cases hheld : heldBack c.env (buf.take len) s with
    | true =>
      rw [hheld, if_pos rfl] at ho
      refine Or.inl ⟨by rw [ho]; rfl, by rw [ho]; rfl, fun relay' => ?_⟩
      rw [happly relay', hheld, if_pos rfl, ho]
    | false =>
      rw [hheld, if_neg Bool.false_ne_true] at ho
      have hrelay : ∀ line, IsPl line → Emits Effect.Nonstandard (relay (-1) line) :=
        fun line hpl => (nonstandard_processDepth c 1 hpl).bind fun _ => Emits.pure _
      obtain hother | hstandard := other_or_standard hframe
      · obtain ⟨hevents, hdevices, hsame⟩ := @RfFrame.Other.act c.env relay frame buf len hother
          { s with dups := dups, timemsReads := reads }
        refine Or.inl ⟨ho ▸ hevents, ho ▸ hdevices, fun relay' => ?_⟩
        rw [happly relay', hheld, if_neg Bool.false_ne_true, ho, hsame]
      · obtain ⟨house, unit, func, hcarries, hread⟩ := carries_hufcDecode (buf 2) (buf 4)
        obtain ⟨b₂, b₄, hbuilt, hsecond, hfourth, hexact⟩ := hcarries.encoded c.env
        rw [hread] at hstandard
        subst hstandard
        exact Or.inr ⟨house, unit, func, b₂, b₄, dups, reads, hbuilt, hsecond, hfourth, hexact,
          ho ▸ standardEvents_act hcarries.valid hrelay _, ho⟩

/-- The frame of A1's On is built by the encoder. -/
theorem standard_frame_a1_on : ∃ house unit func : ℤ, ∀ relay,
    rfTxHouseunitfunc (.plain mochadConfigDefaults false) relay house unit func =
      rfTx (.plain mochadConfigDefaults false) relay [0xeb, 0x20, 0x60, 0x9f, 0x00, 0xff] := by
  have htrim : trimMarkers (Memory.ofBytes [0x5d, 0x20, 0x60, 0x9f, 0x00, 0xff] fun _ => 0) 6 =
      (Memory.ofBytes [0x5d, 0x20, 0x60, 0x9f, 0x00, 0xff] fun _ => 0, 6) := rfl
  obtain ⟨hnone, -⟩ | ⟨house, unit, func, b₂, b₄, _, _, hbuilt, -, -, hexact, -⟩ :=
    standard_frame_read (.idle (.plain mochadConfigDefaults false))
      (Memory.ofBytes [0x5d, 0x20, 0x60, 0x9f, 0x00, 0xff] fun _ => 0) 6 .idle htrim
  · have hevents : standardEvents (cm15aDecodeRf (Env.plain mochadConfigDefaults false)
        (fun fd line => do
          let _ ← processcommandline (.idle (.plain mochadConfigDefaults false)) fd line) (-1)
        (Memory.ofBytes [0x5d, 0x20, 0x60, 0x9f, 0x00, 0xff] fun _ => 0) 6 .idle).effects ≠ [] := by
      decide +kernel
    exact absurd hnone hevents
  · obtain ⟨hsecond, hfourth⟩ := hexact.mpr ⟨by decide, fun _ => by decide⟩
    refine ⟨house, unit, func, fun relay => ?_⟩
    rw [show b₂ = 0x60 from hsecond.symm, show b₄ = 0x00 from hfourth.symm] at hbuilt
    exact hbuilt relay

/-- **A frame that nobody builds is taken for A1's On**: it is reported, recorded and sent on. -/
theorem standard_frame_unbuilt :
    (let o := cm15aDecodeRf (Env.plain mochadConfigDefaults false)
        (fun fd line => do
          let _ ← processcommandline (.idle (.plain mochadConfigDefaults false)) fd line) (-1)
        (Memory.ofBytes [0x5d, 0x20, 0x60, 0x9f, 0x80, 0x7f] fun _ => 0) 6 .idle
     standardEvents o.effects = [ascii "Rx RF HouseUnit: A1 Func: On\n"] ∧
        o.state.houseUnitState 0 0 = 0x31 ∧ packets o.effects = [[0x04, 0x66], [0x06, 0x62]]) ∧
      ∀ unit func, rfFuncByte unit func ≠ some 0x80 := by
  refine ⟨by decide +kernel, fun unit func h => ?_⟩
  have hon : ∀ b : UInt8,
      ¬((b &&& 0x04) <<< 4) ||| ((b &&& 0x02) <<< 2) ||| ((b &&& 0x01) <<< 4) = 0x80 :=
    forall_byte (by decide +kernel)
  have hoff : ∀ b : UInt8,
      ¬(0x20 : UInt8) ||| (((b &&& 0x04) <<< 4) ||| ((b &&& 0x02) <<< 2) ||| ((b &&& 0x01) <<< 4)) = 0x80 :=
    forall_byte (by decide +kernel)
  simp only [rfFuncByte] at h
  split_ifs at h
  · exact hoff _ (Option.some.inj h)
  · exact hon _ (Option.some.inj h)
  · exact absurd (Option.some.inj h) (by decide)
  · exact absurd (Option.some.inj h) (by decide)

end Mochad
