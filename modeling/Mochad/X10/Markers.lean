import Mochad.X10.Insulation

/-!
# Extra markers

Some radio packets come with the marker twice. The decoder skips an extra marker only while the
packet is longer than the longest frame (`trimMarkers_marked`), so that a frame of eight bytes is
decoded as if it came without, and a shorter frame keeps its markers and is rejected: the byte behind
the first marker is not the type of a frame.

A packet from a CM15A is never longer than that, so that only a CM19A, whose packets are given a
marker of their own, has a packet with a marker that is skipped.
-/

namespace Mochad

variable {f : Bytes} {n : ℕ}

/-- A frame with so many extra markers. -/
def marked (n : ℕ) (f : Bytes) : Bytes := List.replicate n 0x5d ++ f

@[simp] theorem length_marked : (marked n f).length = n + f.length := by simp [marked]

/-- **A frame that may come with extra markers**: the byte behind its marker is not a marker. -/
structure Markable (f : Bytes) : Prop where
  length : 5 ≤ f.length ∧ f.length ≤ 8
  marker : f[0]? = some 0x5d
  type : f[1]? ≠ some 0x5d

instance (f : Bytes) : Decidable (Markable f) :=
  decidable_of_iff ((5 ≤ f.length ∧ f.length ≤ 8) ∧ f[0]? = some 0x5d ∧ f[1]? ≠ some 0x5d)
    ⟨fun h => ⟨h.1, h.2.1, h.2.2⟩, fun h => ⟨h.length, h.marker, h.type⟩⟩

theorem Memory.ofBytes_of_getElem? {bs : Bytes} {rest : Memory} {i : ℕ} {b : UInt8}
    (h : bs[i]? = some b) : Memory.ofBytes bs rest i = b := by
  obtain ⟨hi, hb⟩ := List.getElem?_eq_some_iff.mp h
  rw [Memory.ofBytes, dif_pos hi]
  exact hb

/-- The byte behind the first marker is a marker, if there are two. -/
theorem Markable.marked_one (h : Markable f) (hn : 0 < n) : (marked n f)[1]? = some 0x5d := by
  cases n with
  | zero => exact absurd hn (Nat.lt_irrefl 0)
  | succ n =>
    cases n with
    | zero => exact h.marker
    | succ n => rfl

theorem marked_zero_get (h : Markable f) : (marked n f)[0]? = some 0x5d := by
  cases n with
  | zero => exact h.marker
  | succ n => rfl

/-- A byte less. -/
theorem ofBytes_tail (b : UInt8) (bs : Bytes) (rest : Memory) :
    (fun i => Memory.ofBytes (b :: bs) rest (i + 1)) = Memory.ofBytes bs fun i => rest (i + 1) := by
  funext i
  simp only [Memory.ofBytes]
  by_cases hi : i < bs.length
  · rw [dif_pos (by simpa using hi), dif_pos hi]
    rfl
  · rw [dif_neg (by simpa using hi), dif_neg hi]

/-- **How many markers stay**: as many as there is room for in the longest frame. -/
theorem trimMarkers_marked (h : Markable f) (n : ℕ) (rest : Memory) :
    ∃ rest', trimMarkers (Memory.ofBytes (marked n f) rest) (n + f.length) =
      (Memory.ofBytes (marked (min n (8 - f.length)) f) rest', min n (8 - f.length) + f.length) := by
  have hmax := h.length.2
  induction n generalizing rest with
  | zero =>
    refine ⟨rest, ?_⟩
    rw [Nat.zero_min, trimMarkers_of_le (by omega)]
  | succ n ih =>
    by_cases hlong : 8 < n + 1 + f.length
    · obtain ⟨rest', htrim⟩ := ih fun i => rest (i + 1)
      have hone : Memory.ofBytes (marked (n + 1) f) rest 1 = 0x5d :=
        Memory.ofBytes_of_getElem? (h.marked_one n.succ_pos)
      refine ⟨rest', ?_⟩
      rw [show n + 1 + f.length = n + f.length + 1 by omega, trimMarkers,
        if_pos ⟨by omega, hone⟩, show min (n + 1) (8 - f.length) = min n (8 - f.length) by omega,
        ← htrim, ← ofBytes_tail 0x5d (marked n f) rest]
      rfl
    · refine ⟨rest, ?_⟩
      rw [trimMarkers_of_le (by omega), Nat.min_eq_left (by omega)]

section

variable (env : Env) (relay : ℤ → Bytes → X10M Unit) (fd : ℤ)

/-- **Before a frame of eight bytes every marker is skipped.** -/
theorem decodeRf_marked_full (h : Markable f) (hfull : f.length = 8) (n : ℕ) (rest rest' : Memory) :
    cm15aDecodeRf env relay fd (Memory.ofBytes (marked n f) rest) (n + f.length) =
      cm15aDecodeRf env relay fd (Memory.ofBytes f rest') f.length := by
  obtain ⟨rest₁, htrim⟩ := trimMarkers_marked h n rest
  have hnone : min n (8 - f.length) = 0 := by omega
  rw [hnone, Nat.zero_add] at htrim
  have hbare : trimMarkers (Memory.ofBytes f rest₁) f.length = (Memory.ofBytes f rest₁, f.length) :=
    trimMarkers_of_le h.length.2
  have hskip : cm15aDecodeRf env relay fd (Memory.ofBytes (marked n f) rest) (n + f.length) =
      cm15aDecodeRf env relay fd (Memory.ofBytes f rest₁) f.length := by
    rw [cm15aDecodeRf, cm15aDecodeRf, htrim, hbare]
    rfl
  rw [hskip]
  refine decodeRf_agree env relay fd (agree_ofBytes f rest₁ rest') fun hcut => ?_
  rw [hbare] at hcut
  have hfive : f.length = 5 := hcut.1
  omega

/-- **Before a shorter frame a marker stays**, and the packet is rejected. -/
theorem decodeRf_marked_short (h : Markable f) (hshort : f.length < 8) (hn : 0 < n) (rest : Memory) :
    ∃ rest', cm15aDecodeRf env relay fd (Memory.ofBytes (marked n f) rest) (n + f.length) =
      rejectRf fd (Memory.ofBytes (marked (min n (8 - f.length)) f) rest')
        (min n (8 - f.length) + f.length) (ascii "Not supported 5D\n") := by
  obtain ⟨rest', htrim⟩ := trimMarkers_marked h n rest
  have hmin := h.length.1
  have hstays : 0 < min n (8 - f.length) := by omega
  have hone : Memory.ofBytes (marked (min n (8 - f.length)) f) rest' 1 = 0x5d :=
    Memory.ofBytes_of_getElem? (h.marked_one hstays)
  refine ⟨rest', ?_⟩
  rw [cm15aDecodeRf, htrim]
  dsimp only
  rw [if_neg (by omega), if_neg (by omega), hone, if_neg (by decide), if_neg (by decide),
    if_neg (by decide)]
  rfl

end

/-! ### Packets from the controller -/

/-- What a controller sends of a packet: a CM19A leaves out the first marker. -/
def fromController (cm19a : Bool) (packet : Bytes) : Bytes := if cm19a then packet.drop 1 else packet

/-- A packet from a controller, in a buffer. -/
def received (c : Ctx) (packet : Bytes) (rest : Memory) : X10M Unit :=
  decodeWith c (Memory.ofBytes (fromController c.env.cm19a packet) rest)
    (fromController c.env.cm19a packet).length

/-- What is printed of every packet, if raw data is asked for. -/
def rawDump (c : Ctx) (packet : Bytes) : List Effect :=
  if c.env.config.rawData then
    [.sockprintf (-1) (ascii "Raw data received: " ++ hexdumpText packet ++ ascii "\n")]
  else []

theorem take_ofBytes (bs : Bytes) (rest : Memory) : (Memory.ofBytes bs rest).take bs.length = bs := by
  refine List.ext_getElem (by simp [Memory.take]) fun i hi hi' => ?_
  simp [Memory.take, Memory.ofBytes, hi']

/-- **A packet with the marker in front is a radio frame**, from either controller. -/
theorem received_apply (c : Ctx) {packet : Bytes} (hlen : 5 ≤ packet.length)
    (hmarker : packet[0]? = some 0x5d) (hoccurs : (fromController c.env.cm19a packet).length ≤ 8)
    (rest : Memory) : ∃ rest', ∀ s,
      (received c packet rest s).state = (cm15aDecodeRf c.env
        (fun fd line => do let _ ← processcommandline c fd line) (-1)
          (Memory.ofBytes packet rest') packet.length s).state ∧
      (received c packet rest s).effects = rawDump c packet ++ (cm15aDecodeRf c.env
        (fun fd line => do let _ ← processcommandline c fd line) (-1)
          (Memory.ofBytes packet rest') packet.length s).effects := by
  have hpacket : ∃ rest', received c packet rest = decodePacket c.env
      (fun fd line => do let _ ← processcommandline c fd line) (-1)
        (Memory.ofBytes packet rest') packet.length := by
    rw [received]
    cases hcm : c.env.cm19a with
    | false =>
      refine ⟨rest, ?_⟩
      exact decodeWith_cm15a hcm c.env.stack _ (show 4 ≤ packet.length by omega)
    | true =>
      rw [hcm] at hoccurs
      have hdrop : (fromController true packet).length + 1 = packet.length := by
        rw [fromController, if_pos rfl, List.length_drop]
        omega
      have hwhole : 0x5d :: fromController true packet = packet := by
        cases packet with
        | nil => cases hmarker
        | cons b bs =>
          obtain rfl : b = 0x5d := by simpa using hmarker
          rfl
      refine ⟨c.env.stack, ?_⟩
      refine (decodeWith_cm19a hcm c.env.stack _ (by omega) (not_lt.mpr hoccurs)).trans ?_
      rw [take_ofBytes, hwhole, hdrop]
  obtain ⟨rest', hpacket⟩ := hpacket
  have hfirst : Memory.ofBytes packet rest' 0 = 0x5d := Memory.ofBytes_of_getElem? hmarker
  refine ⟨rest', fun s => ?_⟩
  rw [hpacket, decodePacket_eq, hfirst, if_neg (show ¬(0x5d : UInt8) = 0xa5 by decide),
    if_neg (show ¬(0x5d : UInt8) = 0x5a by decide), if_pos (show (0x5d : UInt8) = 0x5d from rfl),
    X10M.bind_apply, rawDump, mhSockhexdump, take_ofBytes]
  split
  · exact ⟨rfl, rfl⟩
  · exact ⟨rfl, rfl⟩

end Mochad
