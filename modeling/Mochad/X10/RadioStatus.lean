import Mochad.X10.Groups
import Mochad.X10.RadioCommands

/-!
# The status after a radio command

`RF` with On or Off switches its unit in the tables as a side effect of handing the frame to
the radio decoder. So the tables follow what is sent only as long as the decoder acts upon
the frame: one that the duplicate filter holds back is sent all the same.

An On or Off whose house is relayed is decoded a second time, as a power-line command; it
switches the same unit to the same state.
-/

namespace Mochad

open X10M (gets modify)

variable {c : Ctx} {fd : ℤ}

/-! ### What a command leaves in the tables -/

/-- What an On or an Off leaves a unit in. -/
def statusOf (off : Bool) : UInt8 := if off then 0x30 else 0x31

/-- The power-line command of a unit, when it is relayed. -/
def plLine (house unit : ℤ) (off : Bool) : Bytes :=
  ascii "PL " ++ [houseChar house] ++ fmtNat (unit.toNat + 1) ++ ascii " " ++
    fmtStr (funcnameAt (off.toNat + 2))

/-- It names the unit. -/
theorem plLine_parse {house unit : ℤ} (hh : IsUnit house) (hu : IsUnit unit) (off : Bool) :
    ∃ tokens, tokenizeCommand (strupper (plLine house unit off)) = some tokens ∧
      getdeviceaddr tokens.tail = ((house, unit), tokens.tail.tail) ∧
      getfunc tokens.tail.tail = (if off then 3 else 2, []) := by
  have hall : ∀ h u : Fin 16, ∀ off : Bool,
      let tokens := words (strupper (plLine h u off))
      tokenizeCommand (strupper (plLine h u off)) = some tokens ∧
        getdeviceaddr tokens.tail = (((h.val : ℤ), (u.val : ℤ)), tokens.tail.tail) ∧
        getfunc tokens.tail.tail = (if off then 3 else 2, []) := by
    decide +kernel
  obtain ⟨h, hh', rfl⟩ := isUnit_iff.mp hh
  obtain ⟨u, hu', rfl⟩ := isUnit_iff.mp hu
  exact ⟨_, hall ⟨h, List.mem_range.mp hh'⟩ ⟨u, List.mem_range.mp hu'⟩ off⟩

/-- A unit is addressed on the power line. -/
theorem plTxHouseunit_state {house unit : ℤ} (hh : IsUnit house) (hu : IsUnit unit) (env : Env)
    (s : X10State) : (plTxHouseunit env house unit s).state = huaAdd house unit s := by
  have hall : ∀ h u : Fin 16,
      let huc := hucDecode (houseByte x10housecode h (tableAt x10housecode u))
      houseIndex huc.1 = h ∧ huc.2 - 1 = u := by
    decide +kernel
  have hpacket : ∀ b rest, plPacket (Memory.ofBytes [0x00, 0x02, 0x00, b] rest) 4 =
      some (.address (houseIndex (hucDecode b).1) ((hucDecode b).2 - 1)) := fun _ _ => rfl
  obtain ⟨h, hh', rfl⟩ := isUnit_iff.mp hh
  obtain ⟨u, hu', rfl⟩ := isUnit_iff.mp hu
  obtain ⟨hhouse, hunit⟩ := hall ⟨h, List.mem_range.mp hh'⟩ ⟨u, List.mem_range.mp hu'⟩
  simp only [plTxHouseunit, X10M.bind_apply, cm15aDecodePlc_state, hpacket, Option.elim,
    PlPacket.apply]
  rw [hhouse, hunit]
  rfl

/-- On and Off, as house functions. -/
theorem applyHouseFunc_switch (house : ℤ) (off : Bool) :
    applyHouseFunc house (if off then 3 else 2) = modify (huaFunc house (statusOf off)) := by
  rw [applyHouseFunc]
  cases off with
  | false =>
    rw [if_neg (by decide), if_neg (by decide), if_pos (by decide), huaFuncOn]
    rfl
  | true =>
    rw [if_neg (by decide), if_neg (by decide), if_neg (by decide), if_pos (by decide), huaFuncOff]
    rfl

/-- A house is switched on the power line. -/
theorem plTxHousefunc_state {house : ℤ} (hh : IsUnit house) (off : Bool) (env : Env)
    (s : X10State) : (plTxHousefunc env house (if off then 3 else 2) 0 s).state =
      huaFunc house (statusOf off) s := by
  have hall : ∀ h : Fin 16, ∀ off : Bool,
      let hfc := hfcDecode (houseByte x10housecode h (lowByte (if off then 3 else 2)))
      houseIndex hfc.1 = h ∧ hfc.2 = if off then 3 else 2 := by
    decide +kernel
  have hplain : plTxHousefunc env house (if off then 3 else 2) 0 = (do
      cm15aDecodePlc (-1) (Memory.ofBytes
        [0x00, 0x02, 0x01, houseByte x10housecode house (lowByte (if off then 3 else 2))] env.stack) 4
      x10Write [0x06, houseByte x10housecode house (lowByte (if off then 3 else 2))]) := by
    cases off
    · rfl
    · rfl
  have hpacket : ∀ b rest, plPacket (Memory.ofBytes [0x00, 0x02, 0x01, b] rest) 4 =
      some (.function (houseIndex (hfcDecode b).1) (hfcDecode b).2) := fun _ _ => rfl
  obtain ⟨h, hh', rfl⟩ := isUnit_iff.mp hh
  obtain ⟨hhouse, hcode⟩ := hall ⟨h, List.mem_range.mp hh'⟩ off
  simp only [hplain, X10M.bind_apply, cm15aDecodePlc_state, hpacket, Option.elim, PlPacket.apply]
  rw [hhouse, hcode, applyHouseFunc_switch]
  simp only [x10Write, X10M.call_apply, X10M.modify_apply]

/-- **A unit that is added and switched has its new state.** -/
theorem status_huaFunc_huaAdd (house : ℤ) {unit : ℤ} {s : X10State} (hs : ProtoSettled s)
    (hu : IsUnit unit) (func : UInt8) :
    (huaFunc house func (huaAdd house unit s)).houseUnitState house unit = func := by
  refine (huaFunc_switched house func _).state unit ?_
  rw [selection_huaAdd hs hu]
  split
  · rfl
  · exact Set.mem_insert unit _

/-- **A relayed command switches its unit.** -/
theorem relayTo_plLine {house unit : ℤ} (hh : IsUnit house) (hu : IsUnit unit) (off : Bool)
    {s : X10State} (hs : ProtoSettled s) :
    (relayTo c (-1) (plLine house unit off) s).state.houseUnitState house unit = statusOf off := by
  obtain ⟨tokens, htokens, haddr, hfunc⟩ := plLine_parse hh hu off
  have hpl : IsPl (plLine house unit off) :=
    ⟨[houseChar house] ++ fmtNat (unit.toNat + 1) ++ ascii " " ++ fmtStr (funcnameAt (off.toNat + 2)),
      by simp only [plLine, List.append_assoc]⟩
  have hcode : ∀ off : Bool, ¬(if off then 3 else 2 : ℤ) < 0 ∧ (if off then 3 else 2 : ℤ) ≠ 16 ∧
      ¬((if off then 3 else 2 : ℤ) = 4 ∨ (if off then 3 else 2 : ℤ) = 5) ∧
      (if off then 3 else 2 : ℤ) ≠ 7 := by
    decide
  obtain ⟨hneg, hxdim, hdim, hext⟩ := hcode off
  have hrun : processDepth c 1 (-1) (plLine house unit off) = (do
      or20ok c (-1)
      plTxHouseunit c.env house unit
      plTxHousefunc c.env house (if off then 3 else 2) 0
      finish (-1) (.rest [])) := by
    refine (processWith_eq_pl c _ (-1) hpl).trans ?_
    simp only [htokens, plCommand, haddr, hfunc, if_neg (not_lt.mpr hh.1), if_neg (not_lt.mpr hu.1),
      plUnit, if_neg hneg, if_neg hxdim, if_neg hdim, if_neg hext, bind_assoc, pure_bind]
  have hstate : (relayTo c (-1) (plLine house unit off) s).state =
      huaFunc house (statusOf off) (huaAdd house unit s) := by
    simp only [relayTo, hrun, X10M.bind_apply, or20ok_state, plTxHouseunit_state hh hu,
      plTxHousefunc_state hh, finish, X10M.pure_apply]
  rw [hstate, status_huaFunc_huaAdd house hs hu]

/-- **A frame that is acted upon switches its unit**, whether or not it is relayed. -/
theorem act_switch_status {house unit : ℤ} (hh : IsUnit house) (hu : IsUnit unit) (off : Bool)
    {s : X10State} (hs : ProtoSettled s) (buf : Memory) (len : ℕ) :
    ((RfFrame.switch (houseChar house) (unit.toNat + 1) off.toNat).act c.env (relayTo c) (-1) buf len
      s).state.houseUnitState house unit = statusOf off := by
  have hhouse := houseIndex_houseChar hh
  have hunit : ((unit.toNat + 1 : ℕ) : ℤ) - 1 = unit := by
    have hnonneg := hu.1
    omega
  have hfunc : (if off.toNat ≠ 0 then (0x30 : UInt8) else 0x31) = statusOf off := by
    cases off
    · rfl
    · rfl
  have hsettled : ProtoSettled (huaFunc house (statusOf off) (huaAdd house unit s)) :=
    stable_protoSettled.func _ _ _ (stable_protoSettled.add _ _ _ hs)
  have hstatus := status_huaFunc_huaAdd house hs hu (statusOf off)
  have hupdate : ((RfFrame.switch (houseChar house) (unit.toNat + 1) off.toNat).update c.env s).state =
      huaFunc house (statusOf off) (huaAdd house unit s) := by
    simp only [RfFrame.update, X10M.bind_apply, X10M.modify_apply, hhouse, hunit, hfunc]
  simp only [RfFrame.act, X10M.bind_apply, mochadDispatchEvent_state, repeatRF_state, hupdate]
  generalize huaFunc house (statusOf off) (huaAdd house unit s) = t at hsettled hstatus
  show ((if relayed c.env t (houseChar house) then relayTo c (-1) (plLine house unit off)
    else pure ()) t).state.houseUnitState house unit = _
  cases relayed c.env t (houseChar house) with
  | false => exact hstatus
  | true => exact relayTo_plLine hh hu off hsettled

/-- **The status of a unit follows its command exactly if the frame is not held back**: then it is
switched, and the command is reported once. -/
theorem status_follows_iff {line : Bytes} {tokens rest : List Bytes} {house unit : ℤ} {off : Bool}
    (hline : commandOfLine line = some (.rf, tokens))
    (hcmd : radioCommandOf .rf tokens =
      some (.device house unit (if off then 3 else 2), rest))
    {s : X10State} (hs : ProtoSettled s) :
    (huaGetstatus (processcommandline c fd line s).state house unit = statusOf off ∧
        radioEvents (processcommandline c fd line s).effects =
          [legacyBody (RadioCommand.device house unit (if off then 3 else 2)).event ++ ascii "\n"]) ↔
      heldBack c.env (RadioCommand.device house unit (if off then 3 else 2)).frame s = false := by
  have hvalid := radioCommandOf_valid hcmd
  have hu : IsUnit unit := by
    obtain ⟨_, ⟨_, hu⟩ | ⟨hf, _⟩⟩ := hvalid
    · exact hu
    · cases off
      · exact absurd hf (by decide)
      · exact absurd hf (by decide)
  have hcarried : (RadioCommand.device house unit (if off then 3 else 2)).Carried := by
    intro _
    cases off
    · exact Or.inl rfl
    · exact Or.inr rfl
  rw [radioEvents_radio hline hcmd]
  constructor
  · rintro ⟨-, hevents⟩
    by_contra hheld
    rw [Bool.not_eq_false] at hheld
    obtain ⟨dups, n, happly⟩ := cm15aDecodeRf_apply c.env (relayTo c) (-1)
      (trimMarkers_of_le (RadioCommand.length_frame _)) (rfFrame_frame hvalid trivial c.env.stack) s
    rw [happly, Memory.take_ofBytes, hheld, if_pos rfl] at hevents
    exact absurd hevents (by simp [radioEvents])
  · intro hheld
    refine ⟨?_, by rw [radioEvents_decodeRf hvalid trivial hheld, event_readBack hvalid hcarried]⟩
    have hstate : (processcommandline c fd line s).state =
        (cm15aDecodeRf c.env (relayTo c) (-1) (Memory.ofBytes
          (RadioCommand.device house unit (if off then 3 else 2)).frame c.env.stack) 6 s).state := by
      rw [processcommandline_radio hline hcmd]
      simp only [X10M.bind_apply, rfTx, or20ok_state, finish_state, x10Write, X10M.call_apply]
      rfl
    obtain ⟨dups, n, happly⟩ := cm15aDecodeRf_apply c.env (relayTo c) (-1)
      (trimMarkers_of_le (RadioCommand.length_frame _)) (rfFrame_frame hvalid trivial c.env.stack) s
    rw [Memory.take_ofBytes, hheld, if_neg Bool.false_ne_true] at happly
    have hread : (RadioCommand.device house unit (if off then 3 else 2)).readBack =
        .switch (houseChar house) (unit.toNat + 1) off.toNat := by
      cases off
      · rfl
      · rfl
    have hsettled : ProtoSettled { s with dups := dups, timemsReads := n } := fun h => hs h
    rw [huaGetstatus, hstate, show 6 = (RadioCommand.device house unit
      (if off then 3 else 2)).frame.length from rfl, happly, hread]
    exact act_switch_status hvalid.1 hu off hsettled _ _

end Mochad
