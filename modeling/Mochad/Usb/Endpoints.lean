import Mathlib

/-!
# The endpoints of a controller

`mochad_select_interrupt_endpoints` looks for the one interrupt endpoint of each direction in a
tree of interfaces, settings and endpoints: three loops, which write the outputs at every endpoint
that would do, and count. What they amount to is two lists, of the endpoints that would do
(`ConfigDescriptor.candidates`): the counters are their lengths, and the outputs come from their
last elements (`Selection.Collected`). The loops only ever extend the two lists, so that what does
not enter them has no part in the result (`select_exact`).
-/

namespace Mochad

/-- `EINVAL`. -/
def errnoInval : ℤ := 22

/-- `ENODEV`. -/
def errnoNodev : ℤ := 19

/-- `struct libusb_endpoint_descriptor`, as far as it is read. -/
structure EndpointDescriptor where
  bEndpointAddress : UInt8
  bmAttributes : UInt8
  wMaxPacketSize : UInt16
  deriving DecidableEq, Repr

/-- `struct libusb_interface_descriptor`, as far as it is read: one alternate setting, with its
`bNumEndpoints` endpoints. -/
structure InterfaceDescriptor where
  bInterfaceNumber : UInt8
  bAlternateSetting : UInt8
  endpoint : List EndpointDescriptor
  deriving DecidableEq, Repr

/-- `struct libusb_interface`: its `num_altsetting` alternate settings. -/
structure LibusbInterface where
  altsetting : List InterfaceDescriptor
  deriving DecidableEq, Repr

/-- `struct libusb_config_descriptor`, as far as it is read: its `bNumInterfaces` interfaces. -/
structure ConfigDescriptor where
  interface : List LibusbInterface
  deriving DecidableEq, Repr

namespace EndpointDescriptor

/-- The size of a packet: the other bits of the field are no part of it. -/
def packetSize (endpoint : EndpointDescriptor) : ℕ := (endpoint.wMaxPacketSize &&& 0x07ff).toNat

/-- `LIBUSB_TRANSFER_TYPE_INTERRUPT`. -/
def isInterrupt (endpoint : EndpointDescriptor) : Bool := endpoint.bmAttributes &&& 3 == 3

/-- `LIBUSB_ENDPOINT_IN`. -/
def isIn (endpoint : EndpointDescriptor) : Bool := endpoint.bEndpointAddress &&& 0x80 != 0

end EndpointDescriptor

/-- Where the outputs go: whether each of the pointers is there. -/
structure OutPointers where
  inEndpoint : Bool
  outEndpoint : Bool
  inPacketSize : Bool
  outPacketSize : Bool
  deriving DecidableEq, Repr

/-- The four outputs. -/
structure Endpoints where
  inEndpoint : UInt8
  outEndpoint : UInt8
  inPacketSize : ℕ
  outPacketSize : ℕ
  deriving DecidableEq, Repr

/-- What the loops carry along: the outputs, and the local variables. A descriptor has fewer than
`2 ^ 16` bytes, so that the counters stay far below the bounds of an `int`. -/
structure Selection where
  outputs : Endpoints
  foundInterface : Bool
  foundAltsetting : Bool
  inCount : ℕ
  outCount : ℕ
  deriving DecidableEq, Repr

section Loops

variable (interfaceNumber alternateSetting : ℤ) (minInPacketSize minOutPacketSize : ℕ)

/-- The loop over the endpoints, one step. -/
def Selection.endpointStep (s : Selection) (endpoint : EndpointDescriptor) : Selection :=
  if !endpoint.isInterrupt then s
  else if endpoint.isIn then
    if endpoint.packetSize < minInPacketSize then s
    else
      { s with
        outputs := { s.outputs with
          inEndpoint := endpoint.bEndpointAddress
          inPacketSize := endpoint.packetSize }
        inCount := s.inCount + 1 }
  else
    if endpoint.packetSize < minOutPacketSize then s
    else
      { s with
        outputs := { s.outputs with
          outEndpoint := endpoint.bEndpointAddress
          outPacketSize := endpoint.packetSize }
        outCount := s.outCount + 1 }

/-- The loop over the alternate settings, one step. -/
def Selection.altsettingStep (s : Selection) (alt : InterfaceDescriptor) : Selection :=
  if (alt.bInterfaceNumber.toNat : ℤ) ≠ interfaceNumber then s
  else if (alt.bAlternateSetting.toNat : ℤ) ≠ alternateSetting then
    { s with foundInterface := true }
  else
    alt.endpoint.foldl (endpointStep minInPacketSize minOutPacketSize)
      { s with foundInterface := true, foundAltsetting := true }

/-- The loop over the interfaces, one step. -/
def Selection.interfaceStep (s : Selection) (iface : LibusbInterface) : Selection :=
  iface.altsetting.foldl
    (altsettingStep interfaceNumber alternateSetting minInPacketSize minOutPacketSize) s

end Loops

/-- `mochad_select_interrupt_endpoints`: what it returns, and what it writes to the outputs, if it
writes to them. -/
def mochadSelectInterruptEndpoints (config : Option ConfigDescriptor)
    (interfaceNumber alternateSetting : ℤ) (minInPacketSize minOutPacketSize : ℕ)
    (out : OutPointers) : ℤ × Option Endpoints :=
  if !out.inEndpoint || !out.outEndpoint || !out.inPacketSize || !out.outPacketSize then
    (-errnoInval, none)
  else
    match config with
    | none => (-errnoInval, some ⟨0, 0, 0, 0⟩)
    | some config =>
        if interfaceNumber < 0 ∨ alternateSetting < 0 then (-errnoInval, some ⟨0, 0, 0, 0⟩)
        else
          let s := config.interface.foldl
            (Selection.interfaceStep interfaceNumber alternateSetting minInPacketSize
              minOutPacketSize)
            ⟨⟨0, 0, 0, 0⟩, false, false, 0, 0⟩
          if !s.foundInterface || !s.foundAltsetting then (-errnoNodev, some s.outputs)
          else if s.inCount ≠ 1 ∨ s.outCount ≠ 1 then (-errnoNodev, some s.outputs)
          else (0, some s.outputs)

/-! ### What would do -/

/-- An interrupt endpoint of that direction, with room for packets of that size. -/
def EndpointDescriptor.Suits (isIn : Bool) (minPacketSize : ℕ) (endpoint : EndpointDescriptor) :
    Bool :=
  endpoint.isInterrupt && endpoint.isIn == isIn && decide (minPacketSize ≤ endpoint.packetSize)

/-- The alternate setting that is asked for. -/
def InterfaceDescriptor.Matches (interfaceNumber alternateSetting : ℕ)
    (alt : InterfaceDescriptor) : Bool :=
  alt.bInterfaceNumber.toNat == interfaceNumber && alt.bAlternateSetting.toNat == alternateSetting

/-- **The endpoints that would do**, over all settings that are asked for. -/
def ConfigDescriptor.candidates (config : ConfigDescriptor)
    (interfaceNumber alternateSetting : ℕ) (isIn : Bool) (minPacketSize : ℕ) :
    List EndpointDescriptor :=
  ((config.interface.flatMap LibusbInterface.altsetting).filter
    (InterfaceDescriptor.Matches interfaceNumber alternateSetting)).flatMap
      fun alt => alt.endpoint.filter (EndpointDescriptor.Suits isIn minPacketSize)

/-- The address of the last one. -/
def lastAddress (endpoints : List EndpointDescriptor) : UInt8 :=
  (endpoints.getLast?.map EndpointDescriptor.bEndpointAddress).getD 0

/-- The packet size of the last one. -/
def lastPacketSize (endpoints : List EndpointDescriptor) : ℕ :=
  (endpoints.getLast?.map EndpointDescriptor.packetSize).getD 0

@[simp] theorem lastAddress_append (endpoints : List EndpointDescriptor)
    (endpoint : EndpointDescriptor) :
    lastAddress (endpoints ++ [endpoint]) = endpoint.bEndpointAddress := by
  simp [lastAddress]

@[simp] theorem lastPacketSize_append (endpoints : List EndpointDescriptor)
    (endpoint : EndpointDescriptor) :
    lastPacketSize (endpoints ++ [endpoint]) = endpoint.packetSize := by
  simp [lastPacketSize]

/-- **What the loops hold once they have passed these endpoints.** -/
structure Selection.Collected (s : Selection) (ins outs : List EndpointDescriptor) : Prop where
  inCount : s.inCount = ins.length
  outCount : s.outCount = outs.length
  outputs : s.outputs = ⟨lastAddress ins, lastAddress outs, lastPacketSize ins, lastPacketSize outs⟩
  found : ins ++ outs ≠ [] → s.foundInterface = true ∧ s.foundAltsetting = true

/-- A loop collects what its steps collect. -/
theorem foldl_collects {σ α β γ : Type} {P : σ → List β → List γ → Prop} {f : σ → α → σ}
    {g : α → List β} {h : α → List γ}
    (hstep : ∀ s bs cs x, P s bs cs → P (f s x) (bs ++ g x) (cs ++ h x)) (xs : List α) {s : σ}
    {bs : List β} {cs : List γ} (hs : P s bs cs) :
    P (xs.foldl f s) (bs ++ xs.flatMap g) (cs ++ xs.flatMap h) := by
  induction xs generalizing s bs cs with
  | nil => simpa using hs
  | cons x xs ih =>
    have := ih (hstep s bs cs x hs)
    simpa only [List.foldl_cons, List.flatMap_cons, List.append_assoc] using this

theorem flatMap_filter_singleton {α : Type} (p : α → Bool) (xs : List α) :
    (xs.flatMap fun x => [x].filter p) = xs.filter p := by
  rw [← List.filter_flatMap, List.flatMap_singleton']

section Steps

variable {interfaceNumber alternateSetting minIn minOut : ℕ} {s : Selection}
  {ins outs : List EndpointDescriptor}

/-- **An endpoint enters at most one of the two lists**, and only if it would do. -/
theorem Selection.Collected.endpointStep
    (hfound : s.foundInterface = true ∧ s.foundAltsetting = true) (hs : s.Collected ins outs)
    (endpoint : EndpointDescriptor) :
    (s.endpointStep minIn minOut endpoint).Collected
      (ins ++ [endpoint].filter (EndpointDescriptor.Suits true minIn))
      (outs ++ [endpoint].filter (EndpointDescriptor.Suits false minOut)) := by
  obtain ⟨hin, hout, houtputs, -⟩ := hs
  have hsame : s.Collected (ins ++ []) (outs ++ []) := by
    rw [List.append_nil, List.append_nil]
    exact ⟨hin, hout, houtputs, fun _ => hfound⟩
  simp only [Selection.endpointStep, EndpointDescriptor.Suits, List.filter_cons, List.filter_nil]
  by_cases hinterrupt : endpoint.isInterrupt = true
  · by_cases hdir : endpoint.isIn = true
    · by_cases hsize : endpoint.packetSize < minIn
      · simpa [hinterrupt, hdir, hsize, Nat.not_le.mpr hsize] using hsame
      · simp only [hinterrupt, hdir, hsize, Nat.not_lt.mp hsize]
        refine ⟨by simp [hin], by simp [hout], ?_, fun _ => by simpa using hfound⟩
        simp [houtputs]
    · rw [Bool.not_eq_true] at hdir
      by_cases hsize : endpoint.packetSize < minOut
      · simpa [hinterrupt, hdir, hsize, Nat.not_le.mpr hsize] using hsame
      · simp only [hinterrupt, hdir, hsize, Nat.not_lt.mp hsize]
        refine ⟨by simp [hin], by simp [hout], ?_, fun _ => by simpa using hfound⟩
        simp [houtputs]
  · simpa [hinterrupt] using hsame

theorem Selection.found_endpointStep (endpoint : EndpointDescriptor) :
    (s.endpointStep minIn minOut endpoint).foundInterface = s.foundInterface ∧
      (s.endpointStep minIn minOut endpoint).foundAltsetting = s.foundAltsetting := by
  rw [Selection.endpointStep]
  split
  · exact ⟨rfl, rfl⟩
  · split
    all_goals split
    all_goals exact ⟨rfl, rfl⟩

/-- **A setting adds its endpoints that would do**, if it is asked for. -/
theorem Selection.Collected.altsettingStep (hs : s.Collected ins outs) (alt : InterfaceDescriptor) :
    (s.altsettingStep interfaceNumber alternateSetting minIn minOut alt).Collected
      (ins ++ ([alt].filter (InterfaceDescriptor.Matches interfaceNumber alternateSetting)).flatMap
        fun alt => alt.endpoint.filter (EndpointDescriptor.Suits true minIn))
      (outs ++ ([alt].filter (InterfaceDescriptor.Matches interfaceNumber alternateSetting)).flatMap
        fun alt => alt.endpoint.filter (EndpointDescriptor.Suits false minOut)) := by
  have hnumber : ((alt.bInterfaceNumber.toNat : ℤ) ≠ interfaceNumber) ↔
      ¬alt.bInterfaceNumber.toNat = interfaceNumber := by
    rw [ne_eq, Int.ofNat_inj]
  have hsetting : ((alt.bAlternateSetting.toNat : ℤ) ≠ alternateSetting) ↔
      ¬alt.bAlternateSetting.toNat = alternateSetting := by
    rw [ne_eq, Int.ofNat_inj]
  rw [Selection.altsettingStep]
  simp only [hnumber, hsetting, InterfaceDescriptor.Matches, List.filter_cons, List.filter_nil]
  by_cases hif : alt.bInterfaceNumber.toNat = interfaceNumber
  · by_cases halt : alt.bAlternateSetting.toNat = alternateSetting
    · let P : Selection → List EndpointDescriptor → List EndpointDescriptor → Prop :=
        fun s ins outs => s.Collected ins outs ∧ s.foundInterface = true ∧ s.foundAltsetting = true
      have hstep : ∀ s ins outs endpoint, P s ins outs →
          P (s.endpointStep minIn minOut endpoint)
            (ins ++ [endpoint].filter (EndpointDescriptor.Suits true minIn))
            (outs ++ [endpoint].filter (EndpointDescriptor.Suits false minOut)) := by
        rintro s ins outs endpoint ⟨hcollected, hfound⟩
        refine ⟨hcollected.endpointStep hfound endpoint, ?_⟩
        rwa [(Selection.found_endpointStep endpoint).1, (Selection.found_endpointStep endpoint).2]
      have hstart : P { s with foundInterface := true, foundAltsetting := true } ins outs :=
        ⟨⟨hs.inCount, hs.outCount, hs.outputs, fun _ => ⟨rfl, rfl⟩⟩, rfl, rfl⟩
      have hall := (foldl_collects hstep alt.endpoint hstart).1
      rw [flatMap_filter_singleton, flatMap_filter_singleton] at hall
      simpa [hif, halt] using hall
    · have hthis : (Selection.mk s.outputs true s.foundAltsetting s.inCount s.outCount).Collected
          ins outs :=
        ⟨hs.inCount, hs.outCount, hs.outputs, fun hne => ⟨rfl, (hs.found hne).2⟩⟩
      simpa [hif, halt] using hthis
  · simpa [hif] using hs

end Steps

section Result

variable (config : ConfigDescriptor) (interfaceNumber alternateSetting minIn minOut : ℕ)

/-- **What the loops hold in the end.** -/
theorem ConfigDescriptor.collected :
    (config.interface.foldl
      (Selection.interfaceStep interfaceNumber alternateSetting minIn minOut)
      ⟨⟨0, 0, 0, 0⟩, false, false, 0, 0⟩).Collected
      (config.candidates interfaceNumber alternateSetting true minIn)
      (config.candidates interfaceNumber alternateSetting false minOut) := by
  have hstart : (Selection.mk ⟨0, 0, 0, 0⟩ false false 0 0).Collected [] [] :=
    ⟨rfl, rfl, rfl, fun h => absurd rfl h⟩
  have hall := foldl_collects
    (fun s ins outs alt (hs : Selection.Collected s ins outs) =>
      show (s.altsettingStep interfaceNumber alternateSetting minIn minOut alt).Collected _ _ from
        hs.altsettingStep alt)
    (config.interface.flatMap LibusbInterface.altsetting) hstart
  have hflat : ∀ (isIn : Bool) (min : ℕ),
      (config.interface.flatMap LibusbInterface.altsetting).flatMap (fun alt =>
        ([alt].filter (InterfaceDescriptor.Matches interfaceNumber alternateSetting)).flatMap
          fun alt => alt.endpoint.filter (EndpointDescriptor.Suits isIn min)) =
      config.candidates interfaceNumber alternateSetting isIn min := by
    intro isIn min
    rw [← List.flatMap_assoc, flatMap_filter_singleton, ConfigDescriptor.candidates]
  rw [hflat, hflat, List.foldl_flatMap] at hall
  exact hall

/-- **What the function returns, from the two lists.** -/
theorem mochadSelectInterruptEndpoints_eq :
    let ins := config.candidates interfaceNumber alternateSetting true minIn
    let outs := config.candidates interfaceNumber alternateSetting false minOut
    mochadSelectInterruptEndpoints (some config) interfaceNumber alternateSetting minIn minOut
        ⟨true, true, true, true⟩ =
      (if ins.length = 1 ∧ outs.length = 1 then 0 else -errnoNodev,
        some ⟨lastAddress ins, lastAddress outs, lastPacketSize ins, lastPacketSize outs⟩) := by
  intro ins outs
  have hcollected := config.collected interfaceNumber alternateSetting minIn minOut
  have hnumbers : ¬((interfaceNumber : ℤ) < 0 ∨ (alternateSetting : ℤ) < 0) := by omega
  rw [mochadSelectInterruptEndpoints]
  dsimp only
  rw [if_neg (by decide), if_neg hnumbers]
  generalize config.interface.foldl
    (Selection.interfaceStep interfaceNumber alternateSetting minIn minOut)
    ⟨⟨0, 0, 0, 0⟩, false, false, 0, 0⟩ = s at hcollected
  obtain ⟨hin, hout, houtputs, hfound⟩ : s.Collected ins outs := hcollected
  by_cases hone : ins.length = 1 ∧ outs.length = 1
  · obtain ⟨hif, halt⟩ := hfound fun hnil => by
      have hlen := congrArg List.length hnil
      rw [List.length_append, List.length_nil] at hlen
      omega
    rw [if_pos hone, if_neg (by simp [hif, halt]), if_neg (by omega), houtputs]
  · have hcount : s.inCount ≠ 1 ∨ s.outCount ≠ 1 := by omega
    rw [if_neg hone, if_pos hcount, ite_self, houtputs]

/-- **Endpoint selection is exact**: there is one endpoint of each direction that would do, or the
selection fails; and what enters neither list has no part in the result. -/
theorem select_exact (config : ConfigDescriptor)
    (interfaceNumber alternateSetting minIn minOut : ℕ) :
    let select := fun config => mochadSelectInterruptEndpoints (some config) interfaceNumber
      alternateSetting minIn minOut ⟨true, true, true, true⟩
    let candidates := fun (config : ConfigDescriptor) isIn min =>
      config.candidates interfaceNumber alternateSetting isIn min
    ((select config).1 = 0 ↔
      ∃ i o, candidates config true minIn = [i] ∧ candidates config false minOut = [o]) ∧
    (∀ i o, candidates config true minIn = [i] → candidates config false minOut = [o] →
      (select config).2 =
        some ⟨i.bEndpointAddress, o.bEndpointAddress, i.packetSize, o.packetSize⟩) ∧
    (∀ other, candidates other true minIn = candidates config true minIn →
      candidates other false minOut = candidates config false minOut →
        select other = select config) := by
  intro select candidates
  have hselect := fun config => mochadSelectInterruptEndpoints_eq config interfaceNumber
    alternateSetting minIn minOut
  refine ⟨?_, ?_, ?_⟩
  · simp only [select, candidates, hselect]
    constructor
    · intro h
      split at h
      next hone =>
        obtain ⟨i, hi⟩ := List.length_eq_one_iff.mp hone.1
        obtain ⟨o, ho⟩ := List.length_eq_one_iff.mp hone.2
        exact ⟨i, o, hi, ho⟩
      · exact absurd h (by decide)
    · rintro ⟨i, o, hi, ho⟩
      exact if_pos ⟨List.length_eq_one_iff.mpr ⟨i, hi⟩, List.length_eq_one_iff.mpr ⟨o, ho⟩⟩
  · intro i o hi ho
    simp only [candidates] at hi ho
    simp only [select, hselect, hi, ho]
    rfl
  · intro other hin hout
    simp only [candidates] at hin hout
    simp only [select, hselect, hin, hout]

end Result

/-- A controller with one endpoint of each direction. -/
example : mochadSelectInterruptEndpoints
    (some ⟨[⟨[⟨0, 0, [⟨0x81, 3, 8⟩, ⟨0x02, 3, 8⟩]⟩]⟩]⟩) 0 0 8 8 ⟨true, true, true, true⟩ =
      (0, some ⟨0x81, 0x02, 8, 8⟩) := by decide

end Mochad
