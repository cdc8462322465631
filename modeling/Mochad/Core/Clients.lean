import Mochad.Core.Output
import Mochad.X10.Lines

/-!
# The client tables

Three tables of 32 slots, one for each kind of client. A slot holds the descriptor of a
client, or `-1`; the identity that the log knows it by; its unfinished command line;
and its output queue.

Every lookup by descriptor scans the tables in the same order – slot by slot, and in
each the main, the XML and the OpenRemote table – so there is one lookup here, `find`,
and what the source looks up is a field of the slot it finds.

`Clients.Wf` is what makes the lookups mean what they say: no two slots hold the same
descriptor, and the counters count.
-/

namespace Mochad

/-- The kinds of clients. -/
inductive Kind
  | main
  | xml
  | or20
  deriving DecidableEq, Repr

/-- `MAXCLISOCKETS`. -/
def maxCliSockets : ℕ := 32

instance : NeZero maxCliSockets := ⟨by decide⟩

/-- A place in the tables. -/
abbrev SlotId := Kind × Fin maxCliSockets

/-- What the tables hold at one place. -/
structure Slot where
  fd : ℤ
  id : UInt32
  state : EncodeState
  output : ClientOutput

/-- **The client tables.** -/
structure Clients where
  slot : SlotId → Slot
  /-- `NClients`, `NxmlClients` and `Nor20Clients`. -/
  count : Kind → ℕ
  nextClientId : UInt32

namespace Clients

/-- The order of every scan. -/
def slotOrder : List SlotId :=
  (List.finRange maxCliSockets).flatMap fun i => [(.main, i), (.xml, i), (.or20, i)]

/-- `init_client`, with the arrays as they are at startup. -/
def initial : Clients where
  slot := fun _ => ⟨-1, 0, EncodeState.zero.init, ClientOutput.zero.init⟩
  count := fun _ => 0
  nextClientId := 1

/-- **The first slot with a descriptor.** -/
def find (c : Clients) (fd : ℤ) : Option SlotId :=
  slotOrder.find? fun s => (c.slot s).fd = fd

/-- `xmlclient`. -/
def xmlclient (c : Clients) (fd : ℤ) : Bool :=
  (List.finRange maxCliSockets).any fun i => fd = (c.slot (.xml, i)).fd

/-- An update of one slot. -/
def set (c : Clients) (s : SlotId) (v : Slot) : Clients :=
  { c with slot := Function.update c.slot s v }

@[simp] theorem set_slot_self (c : Clients) (s : SlotId) (v : Slot) : (c.set s v).slot s = v :=
  Function.update_self ..

theorem set_slot_of_ne (c : Clients) {s t : SlotId} (v : Slot) (h : t ≠ s) :
    (c.set s v).slot t = c.slot t := Function.update_of_ne h ..

@[simp] theorem set_count (c : Clients) (s : SlotId) (v : Slot) : (c.set s v).count = c.count := rfl

/-- A slot without a client. -/
def Slot.freed (v : Slot) : Slot := ⟨-1, 0, v.state.init, v.output.init⟩

/-- The slot of a client that has just been accepted. -/
def Slot.taken (v : Slot) (fd : ℤ) (id : UInt32) : Slot := ⟨fd, id, v.state.init, v.output.init⟩

/-- What `del_client` does to the tables at a slot. -/
def free (c : Clients) (s : SlotId) : Clients :=
  { c.set s (Slot.freed (c.slot s)) with
    count := Function.update c.count s.1 (c.count s.1 - 1) }

/-- `next_client_id`. -/
def nextId (c : Clients) : UInt32 := if c.nextClientId = 0 then 1 else c.nextClientId

/-- The first free slot of a table. -/
def firstFree (c : Clients) (kind : Kind) : Option SlotId :=
  ((List.finRange maxCliSockets).find? fun i => (c.slot (kind, i)).fd = -1).map fun i => (kind, i)

/-- A slot is given to a client. -/
def take (c : Clients) (s : SlotId) (fd : ℤ) : Clients :=
  { c.set s (Slot.taken (c.slot s) fd c.nextId) with
    count := Function.update c.count s.1 (c.count s.1 + 1)
    nextClientId := c.nextId + 1 }

/-- `add_client`, `add_xmlclient` and `add_or20client`: nothing if the table is full, or
if the socket cannot be set nonblocking. -/
def add (c : Clients) (kind : Kind) (fd : ℤ) (nonblocking : Bool) : Option Clients :=
  match c.firstFree kind with
  | none => none
  | some s => if nonblocking then some (c.take s fd) else none

/-- The slots with a client, in the order in which `copy_clients` lists them. -/
def occupied (c : Clients) : List SlotId := slotOrder.filter fun s => (c.slot s).fd ≠ -1

/-- `NClients + NxmlClients + Nor20Clients`. -/
def total (c : Clients) : ℕ := c.count .main + c.count .xml + c.count .or20

/-! ### Scans -/

theorem mem_slotOrder (s : SlotId) : s ∈ slotOrder := by
  obtain ⟨kind, i⟩ := s
  rw [slotOrder, List.mem_flatMap]
  refine ⟨i, List.mem_finRange i, ?_⟩
  cases kind <;> simp

theorem nodup_slotOrder : slotOrder.Nodup := by decide

theorem find_eq_none_iff {c : Clients} {fd : ℤ} :
    c.find fd = none ↔ ∀ s, (c.slot s).fd ≠ fd := by
  rw [find, List.find?_eq_none]
  exact ⟨fun h s => by simpa using h s (mem_slotOrder s), fun h s _ => by simpa using h s⟩

theorem fd_of_find {c : Clients} {fd : ℤ} {s : SlotId} (h : c.find fd = some s) :
    (c.slot s).fd = fd := by simpa using List.find?_some h

theorem firstFree_spec {c : Clients} {kind : Kind} {s : SlotId} (h : c.firstFree kind = some s) :
    s.1 = kind ∧ (c.slot s).fd = -1 := by
  rw [firstFree, Option.map_eq_some_iff] at h
  obtain ⟨i, hi, rfl⟩ := h
  exact ⟨rfl, by simpa using List.find?_some hi⟩

/-! ### Counting -/

/-- How many slots of a table hold a client. -/
def population (c : Clients) (kind : Kind) : ℕ :=
  slotOrder.countP fun s => s.1 = kind ∧ (c.slot s).fd ≠ -1

/-- **The tables are well formed**: a descriptor is held once, and the counters count. -/
structure Wf (c : Clients) : Prop where
  distinct : ∀ s t, (c.slot s).fd ≠ -1 → (c.slot s).fd = (c.slot t).fd → s = t
  counts : ∀ kind, c.count kind = c.population kind

theorem initial_wf : initial.Wf := by
  refine ⟨fun s _ h _ => absurd rfl h, fun kind => ?_⟩
  simp [initial, population]

/-- Of two properties that differ at one place only, the one that has the place counts
one more. -/
theorem countP_succ {α : Type*} [DecidableEq α] {p q : α → Bool} {l : List α} (hl : l.Nodup) {a : α}
    (ha : a ∈ l) (hp : p a = false) (hq : q a = true) (h : ∀ b, b ≠ a → q b = p b) :
    l.countP q = l.countP p + 1 := by
  induction l with
  | nil => cases ha
  | cons b l ih =>
    obtain ⟨hb, hl'⟩ := List.nodup_cons.mp hl
    rw [List.countP_cons, List.countP_cons]
    rcases eq_or_ne b a with rfl | hne
    · have hsame : l.countP q = l.countP p :=
        List.countP_congr fun x hx => by rw [h x fun heq => hb (heq ▸ hx)]
      rw [hsame, hp, hq]
      simp
    · rw [h b hne, ih hl' ((List.mem_cons.mp ha).resolve_left hne.symm)]
      omega

/-- A lookup finds the slot that holds the descriptor. -/
theorem Wf.find_eq {c : Clients} (h : c.Wf) {s : SlotId} (hs : (c.slot s).fd ≠ -1) :
    c.find (c.slot s).fd = some s := by
  cases hf : c.find (c.slot s).fd with
  | none => exact absurd rfl (find_eq_none_iff.mp hf s)
  | some t => rw [h.distinct s t hs (fd_of_find hf).symm]

/-- As many slots are listed as the counters say. -/
theorem Wf.length_occupied {c : Clients} (h : c.Wf) : c.occupied.length = c.total := by
  have hsplit : ∀ l : List SlotId, (l.filter fun s => (c.slot s).fd ≠ -1).length =
      l.countP (fun s => s.1 = Kind.main ∧ (c.slot s).fd ≠ -1) +
        l.countP (fun s => s.1 = Kind.xml ∧ (c.slot s).fd ≠ -1) +
        l.countP (fun s => s.1 = Kind.or20 ∧ (c.slot s).fd ≠ -1) := by
    intro l
    induction l with
    | nil => rfl
    | cons s l ih =>
      obtain ⟨kind, i⟩ := s
      simp only [List.filter_cons, List.countP_cons]
      by_cases hfd : (c.slot (kind, i)).fd ≠ -1
      · rw [if_pos (by simpa using hfd), List.length_cons, ih]
        cases kind <;> simp [hfd] <;> omega
      · rw [if_neg (by simpa using hfd), ih]
        cases kind <;> simp [hfd]
  rw [occupied, hsplit, total, h.counts, h.counts, h.counts]
  rfl

/-- Nothing that lookups see changes when a slot keeps its descriptor. -/
theorem Wf.set {c : Clients} (h : c.Wf) {s : SlotId} {v : Slot} (hv : v.fd = (c.slot s).fd) :
    (c.set s v).Wf := by
  have hfd : ∀ t, ((c.set s v).slot t).fd = (c.slot t).fd := by
    intro t
    rcases eq_or_ne t s with rfl | hne
    · rw [set_slot_self, hv]
    · rw [set_slot_of_ne c v hne]
  refine ⟨fun t u ht htu => h.distinct t u (hfd t ▸ ht) ?_, fun kind => ?_⟩
  · rw [← hfd t, ← hfd u, htu]
  · rw [set_count, h.counts, population, population]
    simp only [hfd]

/-- **Deleting a client** keeps the tables well formed. -/
theorem Wf.free {c : Clients} (h : c.Wf) {s : SlotId} (hs : (c.slot s).fd ≠ -1) :
    (c.free s).Wf := by
  have hself : ((c.free s).slot s).fd = -1 := congrArg Slot.fd (set_slot_self ..)
  have hother : ∀ t, t ≠ s → (c.free s).slot t = c.slot t := fun t ht => set_slot_of_ne c _ ht
  refine ⟨fun t u ht htu => ?_, fun kind => ?_⟩
  · have hts : t ≠ s := fun heq => ht (heq ▸ hself)
    have hus : u ≠ s := fun heq => ht (htu.trans (heq ▸ hself))
    rw [hother t hts] at ht htu
    rw [hother u hus] at htu
    exact h.distinct t u ht htu
  · show Function.update c.count s.1 (c.count s.1 - 1) kind = _
    rcases eq_or_ne kind s.1 with rfl | hk
    · have hcount : c.population s.1 = (c.free s).population s.1 + 1 := by
        refine countP_succ nodup_slotOrder (mem_slotOrder s) ?_ ?_ fun t ht => ?_
        · simp [hself]
        · simp [hs]
        · rw [hother t ht]
      rw [Function.update_self, h.counts, hcount, Nat.add_sub_cancel]
    · rw [Function.update_of_ne hk, h.counts, population, population]
      refine List.countP_congr fun t _ => ?_
      rcases eq_or_ne t s with rfl | ht
      · simp [hk.symm]
      · rw [hother t ht]

/-- **Accepting a client** keeps the tables well formed, if its descriptor is new. -/
theorem Wf.take {c : Clients} (h : c.Wf) {s : SlotId} (hs : (c.slot s).fd = -1) {fd : ℤ}
    (hfd : fd ≠ -1) (hnew : ∀ t, (c.slot t).fd ≠ fd) : (c.take s fd).Wf := by
  have hself : ((c.take s fd).slot s).fd = fd := congrArg Slot.fd (set_slot_self ..)
  have hother : ∀ t, t ≠ s → (c.take s fd).slot t = c.slot t := fun t ht => set_slot_of_ne c _ ht
  refine ⟨fun t u ht htu => ?_, fun kind => ?_⟩
  · rcases eq_or_ne t s with rfl | hts
    · rcases eq_or_ne u t with rfl | hus
      · rfl
      · rw [hself, hother u hus] at htu
        exact absurd htu.symm (hnew u)
    · rcases eq_or_ne u s with rfl | hus
      · rw [hother t hts, hself] at htu
        exact absurd htu (hnew t)
      · rw [hother t hts] at ht htu
        rw [hother u hus] at htu
        exact h.distinct t u ht htu
  · show Function.update c.count s.1 (c.count s.1 + 1) kind = _
    rcases eq_or_ne kind s.1 with rfl | hk
    · have hcount : (c.take s fd).population s.1 = c.population s.1 + 1 := by
        refine countP_succ nodup_slotOrder (mem_slotOrder s) ?_ ?_ fun t ht => ?_
        · simp [hs]
        · simp [hself, hfd]
        · rw [hother t ht]
      rw [Function.update_self, h.counts, hcount]
    · rw [Function.update_of_ne hk, h.counts, population, population]
      refine List.countP_congr fun t _ => ?_
      rcases eq_or_ne t s with rfl | ht
      · simp [hk.symm]
      · rw [hother t ht]

end Clients

end Mochad
