import Mochad.X10.Devices
import Mochad.X10.Encode

/-!
# Runs that go alike

The interpreter and the decoder read the device tables only at the indices of a house and a unit,
and change them by a handful of functions only, which they give such indices too. This is said for
all relations between states at once (`Uniform`): if the functions, at indices that there are, take
related states to related states, and what is read of two related states at such indices is the
same, then so does the interpreter and the decoder as a whole. They return the same, call the same,
and end in related states (`Respects`).

A property that is kept is the case of a state that is related to itself (`Stable`).
-/

namespace Mochad

/-- The device tables. -/
def X10State.devices (s : X10State) :
    (Houseunitaddrs × Houseunitaddrs) × Houseunitaddrs × (ℤ → ℤ) :=
  ((s.houseUnitState, s.houseUnitDim), s.houseUnitSelected, s.x10protostate)

/-- Everything else. -/
def X10State.rest (s : X10State) : List X10Secsensor × (UInt16 × UInt16) × List DupEntry × ℕ × ℕ :=
  (s.x10sensors, (s.rfToPl16, s.rfToRf16), s.dups, s.timemsReads, s.timeReads)

theorem X10State.ext_devices {s t : X10State} (hdev : s.devices = t.devices) (hrest : s.rest = t.rest) :
    s = t := by
  cases s
  cases t
  simp only [X10State.devices, X10State.rest, Prod.mk.injEq] at hdev hrest
  obtain ⟨⟨rfl, rfl⟩, rfl, rfl⟩ := hdev
  obtain ⟨rfl, ⟨rfl, rfl⟩, rfl, rfl, rfl⟩ := hrest
  rfl

namespace X10M

variable {α β : Type} {R : X10State → X10State → Prop}

/-- **From related states a function goes alike.** -/
structure Alike (R : X10State → X10State → Prop) (o o' : Outcome α) : Prop where
  value : o.value = o'.value
  effects : o.effects = o'.effects
  state : R o.state o'.state

/-- **A function respects a relation**: from related states it goes alike. -/
def Respects (R : X10State → X10State → Prop) (m : X10M α) : Prop :=
  ∀ s t, R s t → Alike R (m s) (m t)

namespace Respects

theorem pure (a : α) : Respects R (Pure.pure a : X10M α) := fun _ _ h => ⟨rfl, rfl, h⟩

theorem call (e : Effect) : Respects R (call e) := fun _ _ h => ⟨rfl, rfl, h⟩

theorem gets {f : X10State → α} (hf : ∀ s t, R s t → f s = f t) : Respects R (gets f) :=
  fun s t h => ⟨hf s t h, rfl, h⟩

theorem modify {f : X10State → X10State} (hf : ∀ s t, R s t → R (f s) (f t)) :
    Respects R (modify f) :=
  fun s t h => ⟨rfl, rfl, hf s t h⟩

theorem bind {m : X10M α} {f : α → X10M β} (hm : Respects R m) (hf : ∀ a, Respects R (f a)) :
    Respects R (m >>= f) := by
  intro s t h
  obtain ⟨hvalue, heffects, hstate⟩ := hm s t h
  have hrest := hf (m t).value (m s).state (m t).state hstate
  rw [← hvalue] at hrest
  refine ⟨?_, ?_, ?_⟩
  · show (f (m s).value (m s).state).value = (f (m t).value (m t).state).value
    rw [← hvalue]
    exact hrest.value
  · show (m s).effects ++ (f (m s).value (m s).state).effects =
      (m t).effects ++ (f (m t).value (m t).state).effects
    rw [← hvalue, heffects, hrest.effects]
  · show R (f (m s).value (m s).state).state (f (m t).value (m t).state).state
    rw [← hvalue]
    exact hrest.state

/-- What is read may differ where what is done with it does not. -/
theorem gets_bind {f : X10State → α} {k : α → X10M β} (hf : ∀ s t, R s t → k (f s) = k (f t))
    (hk : ∀ a, Respects R (k a)) : Respects R (X10M.gets f >>= k) := by
  intro s t h
  show Alike R (k (f s) s) (k (f t) t)
  rw [hf s t h]
  exact hk (f t) s t h

theorem ite {p : Prop} [Decidable p] {m n : X10M α} (hm : Respects R m) (hn : Respects R n) :
    Respects R (if p then m else n) := by
  split
  · exact hm
  · exact hn

theorem forM {l : List β} {f : β → X10M PUnit} (hf : ∀ b, Respects R (f b)) :
    Respects R (l.forM f) := by
  induction l with
  | nil => exact pure _
  | cons b l ih => exact (hf b).bind fun _ => ih

end Respects

/-- What is done for each of a list depends on what is done for its members. -/
theorem forM_congr {l : List β} {f g : β → X10M PUnit} (h : ∀ b ∈ l, f b = g b) :
    l.forM f = l.forM g := by
  induction l with
  | nil => rfl
  | cons b l ih =>
    show (f b >>= fun _ => l.forM f) = (g b >>= fun _ => l.forM g)
    rw [h b List.mem_cons_self, ih fun b' hb' => h b' (List.mem_cons_of_mem b hb')]

end X10M

open X10M (Respects gets modify forM_congr)

section

variable {R : X10State → X10State → Prop}

/-! ### What looks at no table -/

theorem respects_dispatch (fd : ℤ) (event : MochadEvent) :
    Respects R (mochadDispatchEvent fd event) := by
  rw [mochadDispatchEvent]
  cases mochadEventFormatLegacyBody event 256 with
  | none => exact Respects.pure _
  | some body => exact Respects.call _

theorem respects_rejectRf (fd : ℤ) (buf : Memory) (len : ℕ) (why : Bytes) :
    Respects R (rejectRf fd buf len why) :=
  Respects.bind (Respects.call _) fun _ => Respects.call _

theorem respects_or20ok (c : Ctx) (fd : ℤ) : Respects R (or20ok c fd) :=
  Respects.ite (Respects.call _) (Respects.pure _)

theorem respects_finish (fd : ℤ) (flow : Flow) : Respects R (finish fd flow) := by
  rw [finish.eq_def]
  split
  · exact Respects.pure _
  · exact Respects.pure _
  · exact Respects.bind (Respects.call _) fun _ => Respects.pure _

end

/-! ### Houses and units that are read from packets -/

theorem isUnit_house_hucDecode : ∀ hu, IsUnit (houseIndex (hucDecode hu).1) :=
  forall_byte (by decide +kernel)

theorem isUnit_hucDecode : ∀ hu, IsUnit ((hucDecode hu).2 - 1) := forall_byte (by decide +kernel)

theorem isUnit_house_hfcDecode : ∀ hf, IsUnit (houseIndex (hfcDecode hf).1) :=
  forall_byte (by decide +kernel)

theorem isUnit_ucDecode : ∀ unit, IsUnit (ucDecode unit - 1) := forall_byte (by decide +kernel)

/-- The house of a standard radio frame. -/
theorem isUnit_house_hufcDecode (hu fb : UInt8) : IsUnit (houseIndex (hufcDecode hu fb).1) := by
  have hhouse : IsUnit (houseIndex (tableAt houseUnitTableRF ((hu &&& 0xf0) >>> 4).toNat)) := by
    revert hu
    exact forall_byte (by decide +kernel)
  rw [hufcDecode]
  split_ifs
  all_goals exact hhouse

/-- A unit's bits, two bytes apart, make a number below 16. -/
theorem unitBits_lt (hu fb : UInt8) :
    (((hu &&& 0x04) <<< 1) ||| ((fb &&& 0x40) >>> 4) ||| ((fb &&& 0x08) >>> 2) |||
      ((fb &&& 0x10) >>> 4)).toNat < 16 := by
  have hhigh : ∀ b : UInt8, ((b &&& 0x04) <<< 1).toNat < 2 ^ 4 := forall_byte (by decide +kernel)
  have hlow : ∀ b : UInt8, ((b &&& 0x40) >>> 4).toNat < 2 ^ 4 ∧ ((b &&& 0x08) >>> 2).toNat < 2 ^ 4 ∧
      ((b &&& 0x10) >>> 4).toNat < 2 ^ 4 := forall_byte (by decide +kernel)
  obtain ⟨htwo, hone, hzero⟩ := hlow fb
  rw [UInt8.toNat_or, UInt8.toNat_or, UInt8.toNat_or]
  exact Nat.or_lt_two_pow (Nat.or_lt_two_pow (Nat.or_lt_two_pow (hhigh hu) htwo) hone) hzero

/-- The units that radio frames name are units. -/
theorem isUnit_hufcDecode {hu fb house : UInt8} {unit func : ℕ}
    (h : hufcDecode hu fb = (house, unit, func)) (hfunc : ¬1 < func) :
    IsUnit ((unit : ℤ) - 1) := by
  simp only [hufcDecode] at h
  split at h
  · simp only [Prod.mk.injEq] at h
    omega
  split at h
  · simp only [Prod.mk.injEq] at h
    omega
  · simp only [Prod.mk.injEq] at h
    obtain ⟨_, rfl, _⟩ := h
    have hlt := unitBits_lt hu fb
    simp only [IsUnit]
    omega

/-! ### Houses and units that are read from lines -/

/-- What a device address can be. -/
theorem getdeviceaddr_bounds {tokens rest : List Bytes} {house unit : ℤ}
    (h : getdeviceaddr tokens = ((house, unit), rest)) (hhouse : ¬house < 0) :
    IsUnit house ∧ (unit = -1 ∨ IsUnit unit) := by
  have hletter : ∀ b : UInt8, ishouse b = true → IsUnit (houseIndex b) :=
    forall_byte (by decide +kernel)
  simp only [getdeviceaddr, nextToken, Prod.mk.injEq] at h
  obtain ⟨haddr, -⟩ := h
  split at haddr
  · simp only [Prod.mk.injEq] at haddr
    omega
  · simp only [Prod.mk.injEq] at haddr
    omega
  next b t hparm =>
    split at haddr
    · simp only [Prod.mk.injEq] at haddr
      omega
    next hok =>
      have hb : ishouse b = true := by simpa using (not_or.mp hok).2
      split at haddr
      · obtain ⟨rfl, rfl⟩ := Prod.mk.inj haddr
        exact ⟨hletter b hb, Or.inl rfl⟩
      · split at haddr
        · simp only [Prod.mk.injEq] at haddr
          omega
        next parsed hparsed =>
          obtain ⟨rfl, rfl⟩ := Prod.mk.inj haddr
          refine ⟨hletter b hb, Or.inr ?_⟩
          simp only [parseDecimalInt] at hparsed
          split at hparsed
          · cases hparsed
          · split at hparsed
            · cases hparsed
            · obtain rfl := Option.some.inj hparsed
              simp only [IsUnit]
              omega

/-! ### What switches devices -/

/-- **A relation that switching devices keeps**, at a house and a unit that there are. -/
structure SwitchUniform (R : X10State → X10State → Prop) : Prop where
  add : ∀ house unit, IsUnit house → IsUnit unit → ∀ s t, R s t →
    R (huaAdd house unit s) (huaAdd house unit t)
  func : ∀ house f, IsUnit house → f = 0x30 ∨ f = 0x31 → ∀ s t, R s t →
    R (huaFunc house f s) (huaFunc house f t)
  funcAll : ∀ house f, IsUnit house → f = 0x30 ∨ f = 0x31 → ∀ s t, R s t →
    R (huaFuncAll house f s) (huaFuncAll house f t)
  xdim : ∀ house unit, IsUnit house → IsUnit unit → ∀ level s t, R s t →
    R (huaSetstatusXdim house unit level s) (huaSetstatusXdim house unit level t)

namespace SwitchUniform

variable {R : X10State → X10State → Prop} (h : SwitchUniform R)

include h

/-- The devices of a house are switched. -/
theorem applyHouseFunc {house : ℤ} (hhouse : IsUnit house) (code : ℕ) :
    Respects R (applyHouseFunc house code) := by
  have hoff : Respects R (modify (huaFuncAllOff house)) := by
    rw [show huaFuncAllOff house = huaFuncAll house 0x30 from rfl]
    exact Respects.modify (h.funcAll house 0x30 hhouse (Or.inl rfl))
  have hon : Respects R (modify (huaFuncAllOn house)) := by
    rw [show huaFuncAllOn house = huaFuncAll house 0x31 from rfl]
    exact Respects.modify (h.funcAll house 0x31 hhouse (Or.inr rfl))
  have hsome : Respects R (modify (huaFuncOn house)) := by
    rw [show huaFuncOn house = huaFunc house 0x31 from rfl]
    exact Respects.modify (h.func house 0x31 hhouse (Or.inr rfl))
  have hnone : Respects R (modify (huaFuncOff house)) := by
    rw [show huaFuncOff house = huaFunc house 0x30 from rfl]
    exact Respects.modify (h.func house 0x30 hhouse (Or.inl rfl))
  exact Respects.ite hoff (Respects.ite hon (Respects.ite hsome
    (Respects.ite hnone (Respects.pure _))))

/-- **A packet off the power line.** -/
theorem decodePlc (fd : ℤ) (buf : Memory) (len : ℕ) : Respects R (cm15aDecodePlc fd buf len) := by
  refine Respects.ite (Respects.pure _) (Respects.ite (Respects.pure _)
    (Respects.ite (Respects.ite (Respects.pure _) ?_)
    (Respects.ite (Respects.ite (Respects.pure _) ?_)
    (Respects.ite (Respects.ite (Respects.pure _) ?_)
    (Respects.ite (Respects.ite (Respects.pure _) ?_)
    (Respects.ite (Respects.ite (Respects.pure _) ?_) (Respects.pure _)))))))
  · exact (Respects.modify (h.add _ _ (isUnit_house_hucDecode (buf 3)) (isUnit_hucDecode (buf 3)))).bind
      fun _ => respects_dispatch _ _
  · exact (h.applyHouseFunc (isUnit_house_hfcDecode (buf 3)) _).bind fun _ => respects_dispatch _ _
  · exact respects_dispatch _ _
  · exact Respects.bind (respects_dispatch _ _) fun _ =>
      Respects.modify (h.xdim _ _ (isUnit_house_hfcDecode (buf 3)) (isUnit_ucDecode (buf 4)) _)
  · exact Respects.bind (respects_dispatch _ _) fun _ =>
      Respects.modify (h.xdim _ _ (isUnit_house_hfcDecode (buf 6)) (isUnit_ucDecode (buf 5)) _)

/-- **A power-line command.** -/
theorem plCommand (c : Ctx) (fd : ℤ) (tokens : List Bytes) : Respects R (plCommand c fd tokens) := by
  have hunit : ∀ house unit, Respects R (plTxHouseunit c.env house unit) :=
    fun house unit => (h.decodePlc _ _ _).bind fun _ => Respects.call _
  have hext : ∀ house unit command subcmd param,
      Respects R (plTxExtendedCode1 c.env house unit command subcmd param) :=
    fun _ _ _ _ _ => (h.decodePlc _ _ _).bind fun _ => Respects.call _
  have hfunc : ∀ house func param, Respects R (plTxHousefunc c.env house func param) := by
    intro house func param
    rw [plTxHousefunc]
    split_ifs
    all_goals exact (h.decodePlc _ _ _).bind fun _ => Respects.call _
  refine (respects_or20ok c fd).bind fun _ => Respects.ite (Respects.pure _) (Respects.ite ?_ ?_)
  · exact Respects.ite (Respects.pure _) (Respects.ite
      ((hfunc _ _ _).bind fun _ => Respects.pure _) ((hfunc _ _ _).bind fun _ => Respects.pure _))
  · refine Respects.ite ((hunit _ _).bind fun _ => Respects.pure _) (Respects.ite
      ((hext _ _ _ _ _).bind fun _ => Respects.pure _) (Respects.ite ?_ (Respects.ite
      ((hext _ _ _ _ _).bind fun _ => Respects.pure _) ?_)))
    · exact (hunit _ _).bind fun _ => (hfunc _ _ _).bind fun _ => Respects.pure _
    · exact (hunit _ _).bind fun _ => (hfunc _ _ _).bind fun _ => Respects.pure _

end SwitchUniform

/-- **A relation that all functions of the device tables keep**, and whose states have the same
devices and agree about everything else. -/
structure Uniform (R : X10State → X10State → Prop) extends SwitchUniform R where
  rest : ∀ s t, R s t → s.rest = t.rest
  frame : ∀ s t s' t', R s t → s'.devices = s.devices → t'.devices = t.devices →
    s'.rest = t'.rest → R s' t'
  init : ∀ s t, R s t → R (huaSecInit s) (huaSecInit t)
  cell : ∀ s t, R s t → ∀ house unit, IsUnit house → IsUnit unit →
    s.houseUnitState house unit = t.houseUnitState house unit ∧
      s.houseUnitDim house unit = t.houseUnitDim house unit ∧
      s.houseUnitSelected house unit = t.houseUnitSelected house unit

namespace Uniform

variable {R : X10State → X10State → Prop} (h : Uniform R) (env : Env) {relay : ℤ → Bytes → X10M Unit}

include h

/-- What looks at no device. -/
theorem gets {α : Type} {f : X10State → α} (hf : ∀ s t : X10State, s.rest = t.rest → f s = f t) :
    Respects R (X10M.gets f) :=
  Respects.gets fun s t hR => hf s t (h.rest s t hR)

/-- What leaves the device tables alone. -/
theorem modify_frame {f : X10State → X10State} (hdev : ∀ s, (f s).devices = s.devices)
    (hrest : ∀ s t : X10State, s.rest = t.rest → (f s).rest = (f t).rest) : Respects R (modify f) :=
  Respects.modify fun s t hR =>
    h.frame s t (f s) (f t) hR (hdev s) (hdev t) (hrest s t (h.rest s t hR))

/-! ### The decoder -/

theorem timeNow : Respects R (timeNow env) :=
  (h.gets (by simp_all [X10State.rest])).bind fun _ => (h.modify_frame (by intro; rfl) (by simp_all [X10State.rest])).bind fun _ => Respects.pure _

theorem dupFilter (cmd : Bytes) : Respects R (dupFilter env cmd) := by
  have htime : Respects R (getTimems env) :=
    (h.gets (by simp_all [X10State.rest])).bind fun _ => (h.modify_frame (by intro; rfl) (by simp_all [X10State.rest])).bind fun _ => Respects.pure _
  refine htime.bind fun timems => (h.gets (by simp_all [X10State.rest])).bind fun dups => ?_
  split
  split
  · exact (h.modify_frame (by intro; rfl) (by simp_all [X10State.rest])).bind fun _ => Respects.pure _
  · exact htime.bind fun _ => (h.modify_frame (by intro; rfl) (by simp_all [X10State.rest])).bind fun _ => Respects.pure _
  · exact htime.bind fun _ => (h.modify_frame (by intro; rfl) (by simp_all [X10State.rest])).bind fun _ => Respects.pure _

theorem secEvent (secaddr : UInt8 × UInt8 × UInt8) (funcint : UInt8) (secaddr8 : Bool) :
    Respects R (huaSecEvent env secaddr funcint secaddr8) := by
  refine (h.gets (by simp_all [X10State.rest])).bind fun sensors => ?_
  split_ifs
  · exact (h.timeNow env).bind fun _ => h.modify_frame (by intro; rfl) (by simp_all [X10State.rest])
  · exact Respects.pure _
  · exact (h.timeNow env).bind fun _ => h.modify_frame (by intro; rfl) (by simp_all [X10State.rest])

theorem repeatRF (fd : ℤ) (buf : Memory) (len : ℕ) : Respects R (repeatRF env fd buf len) := by
  refine (h.gets (by simp_all [X10State.rest])).bind fun mask => Respects.ite ?_ (Respects.pure _)
  exact Respects.bind (Respects.call _) fun _ => Respects.call _

/-- **A radio frame**, if what it relays keeps the property. -/
theorem decodeRf (hrelay : ∀ fd line, IsPl line → Respects R (relay fd line)) (fd : ℤ)
    (buf : Memory) (len : ℕ) : Respects R (cm15aDecodeRf env relay fd buf len) := by
  have hdup : ∀ {cmd : Bytes} {m : X10M Unit}, Respects R m →
      Respects R (do if ← Mochad.dupFilter env cmd then pure () else m) :=
    fun hm => (h.dupFilter env _).bind fun _ => Respects.ite (Respects.pure _) hm
  have hdim : ∀ buf len housechar name,
      Respects R (decodeRfDim env relay fd buf len housechar name) := by
    intro buf len housechar name
    refine Respects.bind (respects_dispatch _ _) fun _ => (h.repeatRF env _ _ _).bind fun _ =>
      (h.gets (by simp_all [X10State.rest, relayed])).bind fun on => Respects.ite
        (hrelay _ _ ⟨[housechar] ++ ascii " " ++ fmtStr name, ?_⟩) (Respects.pure _)
    simp
  have hswitch : ∀ buf len housechar (unitint : ℕ) off name, IsUnit (houseIndex housechar) →
      IsUnit ((unitint : ℤ) - 1) →
      Respects R (decodeRfSwitch env relay fd buf len housechar unitint off name) := by
    intro buf len housechar unitint off name hhouse hunit
    have hfunc : Respects R (modify
        (if off then huaFuncOff (houseIndex housechar) else huaFuncOn (houseIndex housechar))) := by
      cases off with
      | true => exact Respects.modify (h.func (houseIndex housechar) 0x30 hhouse (Or.inl rfl))
      | false => exact Respects.modify (h.func (houseIndex housechar) 0x31 hhouse (Or.inr rfl))
    refine Respects.bind (Respects.modify (h.add _ _ hhouse hunit)) fun _ => hfunc.bind fun _ =>
      Respects.bind (respects_dispatch _ _) fun _ => (h.repeatRF env _ _ _).bind fun _ =>
      (h.gets (by simp_all [X10State.rest, relayed])).bind fun on => Respects.ite
        (hrelay _ _ ⟨[housechar] ++ fmtNat unitint ++ ascii " " ++ fmtStr name, ?_⟩)
        (Respects.pure _)
    simp
  have hshort : ∀ buf len, Respects R (decodeRfShort env fd buf len) := by
    intro buf len
    refine Respects.ite (respects_rejectRf _ _ _ _) (hdup ?_)
    exact (h.secEvent env _ _ _).bind fun _ => Respects.bind (respects_dispatch _ _) fun _ =>
      h.repeatRF env _ _ _
  have hstandard : ∀ buf len, Respects R (decodeRfStandard env relay fd buf len) := by
    intro buf len
    refine Respects.ite (hshort _ _) (Respects.ite (Respects.ite (respects_rejectRf _ _ _ _)
      (hdup ?_)) (respects_rejectRf _ _ _ _))
    show Respects R (if 1 < (hufcDecode (buf 2) (buf 4)).2.2 then _ else _)
    split
    · exact hdim _ _ _ _
    next hswitched =>
      exact hswitch _ _ _ _ _ _ (isUnit_house_hufcDecode _ _) (isUnit_hufcDecode rfl hswitched)
  have hcamera : ∀ buf len, Respects R (decodeRfCamera env fd buf len) := by
    intro buf len
    rw [decodeRfCamera]
    split
    · exact respects_rejectRf _ _ _ _
    · exact hdup (Respects.bind (respects_dispatch _ _) fun _ => h.repeatRF env _ _ _)
  have hlong : ∀ buf len, Respects R (decodeRfLong env fd buf len) := by
    intro buf len
    rw [decodeRfLong]
    split
    · exact hdup ((h.secEvent env _ _ _).bind fun _ => Respects.bind (respects_dispatch _ _) fun _ =>
        h.repeatRF env _ _ _)
    · exact Respects.ite (Respects.call _) (Respects.ite (Respects.call _)
        (respects_rejectRf _ _ _ _))
  exact Respects.ite (respects_rejectRf _ _ _ _) (Respects.ite (respects_rejectRf _ _ _ _)
    (Respects.ite (hcamera _ _) (Respects.ite (hstandard _ _)
    (Respects.ite (hlong _ _) (respects_rejectRf _ _ _ _)))))

/-- **A packet from the controller.** -/
theorem decode (hrelay : ∀ fd line, IsPl line → Respects R (relay fd line)) (fd : ℤ)
    (buf : Memory) (len : ℕ) : Respects R (cm15aDecode env relay fd buf len) := by
  have hclock : Respects R (setClock env) :=
    Respects.bind (h.timeNow env) fun _ => Respects.call _
  have hpacket : ∀ p len, Respects R (decodePacket env relay fd p len) := by
    intro p len
    have hframe : Respects R
        (if p 0 = 0xa5 then setClock env
          else if p 0 = 0x5a then cm15aDecodePlc fd p len
          else if p 0 = 0x5d then cm15aDecodeRf env relay fd p len
          else pure ()) :=
      Respects.ite hclock (Respects.ite (h.toSwitchUniform.decodePlc _ _ _)
        (Respects.ite (h.decodeRf env hrelay _ _ _) (Respects.pure _)))
    exact Respects.ite (Respects.bind (Respects.call _) fun _ => hframe) hframe
  exact Respects.ite (Respects.pure _)
    (Respects.ite (Respects.ite (Respects.pure _) (hpacket _ _)) (hpacket _ _))

/-! ### Commands -/

variable (c : Ctx) (fd : ℤ)

theorem rfTx (hrelay : ∀ fd line, IsPl line → Respects R (relay fd line)) (buf : Bytes) :
    Respects R (rfTx c.env relay buf) :=
  (h.decodeRf _ hrelay _ _ _).bind fun _ => Respects.call _

theorem uptimeSeconds : Respects R (uptimeSeconds c.env) :=
  Respects.ite (Respects.pure _) ((h.timeNow _).bind fun _ => Respects.pure _)

/-- **Showing the state** reads the cells of the houses and units that there are. -/
theorem huaShow : Respects R (huaShow c.env fd) := by
  have hhouse : ∀ house items, Respects R (showHouse fd house items) :=
    fun house items => Respects.ite (Respects.pure _) (Respects.call _)
  have hunit : ∀ n ∈ units, IsUnit (n : ℕ) := fun n hn => isUnit_iff.mpr ⟨n, hn, rfl⟩
  refine Respects.bind (Respects.call _) fun _ => Respects.gets_bind (fun s t hR => ?_) fun selected =>
    (Respects.forM fun _ => hhouse _ _).bind fun _ => Respects.bind (Respects.call _) fun _ =>
    Respects.gets_bind (fun s t hR => ?_) fun status =>
    (Respects.forM fun _ => hhouse _ _).bind fun _ => Respects.bind (Respects.call _) fun _ =>
    (h.modify_frame (by intro; rfl) (by simp_all [X10State.rest])).bind fun _ =>
    (h.gets (by simp_all [X10State.rest])).bind fun _ => (Respects.forM fun _ => ?_).bind fun _ =>
    Respects.call _
  · refine congrArg (· >>= _) (forM_congr fun n hn => ?_)
    rw [List.filter_congr fun u hu => by rw [(h.cell s t hR n u (hunit n hn) (hunit u hu)).2.2]]
  · refine congrArg (· >>= _) (forM_congr fun n hn => ?_)
    rw [List.filter_congr fun u hu => by rw [(h.cell s t hR n u (hunit n hn) (hunit u hu)).1]]
    congr 1
    refine List.map_congr_left fun u hu => ?_
    rw [(h.cell s t hR n u (hunit n hn) (hunit u (List.mem_of_mem_filter hu))).1]
  · exact (h.timeNow _).bind fun _ => Respects.call _

/-- **One command.** -/
theorem runCommand (hrelay : ∀ fd line, IsPl line → Respects R (relay fd line))
    (command : Command) (tokens : List Bytes) :
    Respects R (runCommand c relay fd command tokens) := by
  have hok : Respects R (or20ok c fd) := respects_or20ok c fd
  have hrf := h.rfTx c hrelay
  have hsend : ∀ json, Respects R (sendDiagJson c fd json) :=
    fun json => Respects.bind (Respects.call _) fun _ => Respects.pure _
  have hdiag : ∀ {m : X10M ℤ}, Respects R m → Respects R (diagCommand m) :=
    fun hm => hm.bind fun _ => Respects.pure _
  have hprint : ∀ text, Respects R (printCommand fd text) :=
    fun _ => Respects.bind (Respects.call _) fun _ => Respects.pure _
  cases command with
  | hello | capabilities | config | version => exact hdiag (hsend _)
  | health | clients => exact hdiag ((h.uptimeSeconds c).bind fun _ => hsend _)
  | pl => exact h.toSwitchUniform.plCommand c fd tokens
  | rf =>
    have hfunc : ∀ house unit func,
        Respects R (rfTxHouseunitfunc c.env relay house unit func) := by
      intro house unit func
      refine Respects.ite (Respects.pure _) ?_
      dsimp only
      split
      · exact Respects.pure _
      · exact hrf _
    exact hok.bind fun _ => Respects.ite (Respects.pure _) (Respects.ite (Respects.pure _)
      ((hfunc _ _ _).bind fun _ => Respects.pure _))
  | rfsec =>
    refine hok.bind fun _ => ?_
    split
    · exact Respects.pure _
    · exact Respects.ite (Respects.pure _)
        ((Respects.ite (hrf _) (hrf _)).bind fun _ => Respects.pure _)
  | rfcam =>
    refine hok.bind fun _ => Respects.ite (Respects.pure _) ?_
    split
    · exact Respects.pure _
    split
    · exact (hrf _).bind fun _ => Respects.pure _
    · exact Respects.bind (Respects.call _) fun _ => Respects.pure _
  | pt =>
    refine hok.bind fun _ => ?_
    split
    · exact Respects.pure _
    · exact Respects.pure _
    · exact Respects.bind (Respects.call _) fun _ => Respects.pure _
  | rftopl =>
    exact hok.bind fun _ => (h.modify_frame (by intro; rfl) (by simp_all [X10State.rest])).bind fun _ =>
      Respects.bind (Respects.call _) fun _ => Respects.pure _
  | rftorf =>
    have hreply : Respects R (rftorfReply fd) := (h.gets (by simp_all [X10State.rest])).bind fun _ => Respects.call _
    refine hok.bind fun _ => ?_
    split
    · exact hreply.bind fun _ => Respects.pure _
    split
    · exact Respects.pure _
    · exact (h.modify_frame (by intro; rfl) (by simp_all [X10State.rest])).bind fun _ => hreply.bind fun _ => Respects.pure _
  | st =>
    exact Respects.ite ((Respects.modify h.init).bind fun _ => Respects.pure _)
      ((h.huaShow c fd).bind fun _ => Respects.pure _)
  | info | quit | help | question => exact hprint _
  | hex =>
    simp only [Mochad.runCommand, hexCommand]
    split
    · exact Respects.pure _
    · exact Respects.bind (Respects.call _) fun _ => Respects.pure _
  | getstatus =>
    rcases haddr : getdeviceaddr tokens with ⟨⟨house, unit⟩, args⟩
    simp only [Mochad.runCommand, getstatusCommand, haddr]
    split
    next hok =>
      obtain ⟨hhouse, hunit⟩ := getdeviceaddr_bounds haddr (Int.not_lt.mpr hok.1)
      have hunit : IsUnit unit := hunit.resolve_left (by omega)
      split
      · exact Respects.ite ((Respects.gets fun s t hR => (h.cell s t hR _ _ hhouse hunit).2.1).bind fun _ =>
          Respects.bind (Respects.call _) fun _ => Respects.pure _)
          (Respects.bind (Respects.call _) fun _ => Respects.pure _)
      · exact (Respects.gets fun s t hR => (h.cell s t hR _ _ hhouse hunit).1).bind fun _ =>
          Respects.bind (Respects.call _) fun _ => Respects.pure _
    · exact Respects.pure _
  | getstatussec =>
    simp only [Mochad.runCommand, getstatussecCommand]
    split
    · exact Respects.pure _
    · exact (h.gets (by simp_all [X10State.rest, huaGetstatusSec])).bind fun _ => Respects.bind (Respects.call _) fun _ =>
        Respects.pure _

/-- A line, if what the decoder relays keeps the property. -/
theorem processWith (hrelay : ∀ fd line, IsPl line → Respects R (relay fd line)) (line : Bytes) :
    Respects R (processWith c relay fd line) := by
  simp only [Mochad.processWith]
  split
  · exact Respects.bind (Respects.call _) fun _ => Respects.pure _
  split
  · exact Respects.bind (Respects.call _) fun _ => Respects.pure _
  · rw [processTokens.eq_def]
    split
    · exact Respects.pure _
    split
    · exact Respects.pure _
    · exact (h.runCommand c fd hrelay _ _).bind fun flow => respects_finish fd flow

/-- **A line.** -/
theorem processcommandline (line : Bytes) : Respects R (processcommandline c fd line) := by
  have hdepth : ∀ n fd line, Respects R (processDepth c n fd line) := by
    intro n
    induction n with
    | zero => exact fun _ _ => Respects.pure _
    | succ n ih =>
      exact fun fd line => h.processWith c fd (fun fd line _ => (ih fd line).bind fun _ =>
        Respects.pure _) line
  exact hdepth 2 fd line

end Uniform

end Mochad
