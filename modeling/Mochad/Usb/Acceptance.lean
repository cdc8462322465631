import Mochad.Usb.Transfers

/-!
# Packets that are taken

A command may write several packets in a row, and none of its callers looks at what `x10_write`
returns. `Usb.fifo` is the packets that libusb was handed and then those that wait, so that a
packet is taken exactly if it joins at the back.

* `writeAll_eq_iff` – all packets are taken: the ring has room for them, and if nothing is under
  way the first one is submitted;
* `writeAll_refused_iff` – none is: the ring is full, or every attempt to submit fails.
-/

namespace Mochad

/-! ### The ring -/

namespace X10Queue

/-- The ring holds one packet less than it has slots. -/
def capacity : ℕ := outptrsSize - 1

theorem length_queued (q : X10Queue) : q.queued.length = q.count := by
  rw [queued, List.length_map, Ring.length_window]

theorem length_queued_le (q : X10Queue) : q.queued.length ≤ capacity := by
  rw [length_queued]
  exact Nat.le_sub_one_of_lt q.count_lt

/-- The ring is full. -/
theorem nextIndex_eq_iff (q : X10Queue) :
    nextIndex q.outtail = q.outhead ↔ q.queued.length = capacity := by
  have hnext := q.nextIndex_outtail
  have hcount := q.count_lt
  have hhead := q.outhead.2
  rw [Subtype.ext_iff, hnext, length_queued]
  simp only [capacity, outptrsSize] at *
  omega

/-- **A packet joins exactly if the ring is not full.** -/
theorem addX10out_cases (q : X10Queue) {buf : Bytes} (hlen : buf.length ≤ outdataSize) :
    (q.queued.length < capacity ∧ (q.addX10out buf).1.queued = q.queued ++ [buf] ∧
        (q.addX10out buf).1.outbusy = q.outbusy ∧ (q.addX10out buf).1.pollTimeOut = q.pollTimeOut) ∨
      (q.queued.length = capacity ∧ (q.addX10out buf).1 = q) := by
  have hfull := q.nextIndex_eq_iff
  by_cases h : nextIndex q.outtail = q.outhead
  · refine Or.inr ⟨hfull.mp h, ?_⟩
    rw [addX10out, if_neg (Nat.not_lt.mpr hlen), if_pos h]
  · refine Or.inl ⟨lt_of_le_of_ne q.length_queued_le (mt hfull.mpr h), ?_⟩
    rcases q.queued_addX10out buf with hrefused | ⟨-, hqueued, -, hbusy, htimeout⟩
    · rw [addX10out, if_neg (Nat.not_lt.mpr hlen), if_neg h] at hrefused
      exact absurd (congrArg Prod.snd hrefused) (by simp only; omega)
    · exact ⟨hqueued, hbusy, htimeout⟩

end X10Queue

/-! ### Submitting -/

/-- The packet of an event, if one was submitted. -/
def UsbEvent.sentPacket : UsbEvent → Option Bytes
  | .outSubmit buf => some buf
  | _ => none

namespace Transfers

/-- The packets that libusb was handed, in order. -/
def sentPackets (t : Transfers) : List Bytes := (t.history.filterMap UsbEvent.sentPacket).reverse

/-- `write_usb` calls libusb. -/
def ready (t : Transfers) : Bool :=
  t.intrOutTransfer && t.devh && !t.intrOutSubmitted && !t.intrOutCanceling

/-- The next packet is submitted. -/
def Takes (env : Env) (t : Transfers) : Prop :=
  t.ready = true ∧ 0 ≤ env.submitOut t.submitOutCalls

/-- **What `write_usb` does with a packet**: it hands it to libusb, or fails, and is as ready as
before. -/
theorem writeUsb_spec (env : Env) (t : Transfers) {buf : Bytes} (hlen : buf.length ≤ outdataSize) :
    (t.Takes env ∧ 0 ≤ (t.writeUsb env buf).2 ∧
        (t.writeUsb env buf).1.sentPackets = t.sentPackets ++ [buf]) ∨
      (¬t.Takes env ∧ (t.writeUsb env buf).2 < 0 ∧
        (t.writeUsb env buf).1.sentPackets = t.sentPackets ∧
        (t.writeUsb env buf).1.ready = t.ready ∧
        (t.ready = true →
          (t.writeUsb env buf).1.submitOutCalls = t.submitOutCalls + 1)) := by
  have hlen' : ¬8 < buf.length := Nat.not_lt.mpr hlen
  simp only [writeUsb, Takes]
  split
  next h =>
    have hready : t.ready = false := by
      simp only [ready]
      cases hi : t.intrOutTransfer <;> cases hd : t.devh <;> simp_all
    exact Or.inr ⟨by simp [hready], (by decide : (-19 : ℤ) < 0), rfl, rfl, by simp [hready]⟩
  next h =>
    split
    next hbusy =>
      have hready : t.ready = false := by
        simp only [ready]
        cases hi : t.intrOutSubmitted <;> cases hd : t.intrOutCanceling <;> simp_all
      exact Or.inr ⟨by simp [hready], (by decide : (-16 : ℤ) < 0), rfl, rfl, by simp [hready]⟩
    next hbusy =>
      have hready : t.ready = true := by
        simp only [Bool.or_eq_true, Bool.not_eq_true', not_or, Bool.not_eq_false, Bool.not_eq_true]
          at h hbusy
        simp [ready, h.1, h.2, hbusy.1, hbusy.2]
      have hkept : (if t.outOwned then UsbEvent.outOverwritten :: t.history else t.history).filterMap
          UsbEvent.sentPacket = t.history.filterMap UsbEvent.sentPacket := by
        split
        · rfl
        · rfl
      split
      next hneg =>
        refine Or.inr ⟨fun htakes => absurd htakes.2 (not_le.mpr hneg), hneg, ?_, rfl, fun _ => rfl⟩
        exact congrArg List.reverse hkept
      next hpos =>
        refine Or.inl ⟨⟨hready, not_lt.mp hpos⟩, le_refl 0, ?_⟩
        show (buf :: List.filterMap UsbEvent.sentPacket _).reverse = _
        rw [hkept, List.reverse_cons]
        rfl

end Transfers

/-! ### Packets in a row -/

namespace Usb

/-- **The packets that were taken**: those that libusb was handed, and those that wait. -/
def fifo (u : Usb) : List Bytes := u.io.sentPackets ++ u.queue.queued

/-- Packets are written one after the other. -/
def writeAll (env : Env) (u : Usb) (ps : List Bytes) : Usb :=
  ps.foldl (fun u buf => (u.x10Write env buf).1) u

/-- So many packets more find room. -/
def room (u : Usb) : ℕ := X10Queue.capacity - u.queue.queued.length

/-- An attempt to submit is successful, if so many have failed before it. -/
def TakesAfter (env : Env) (u : Usb) (i : ℕ) : Prop :=
  u.io.ready = true ∧ 0 ≤ env.submitOut (u.io.submitOutCalls + i)

/-- **All of so many packets are taken.** -/
def TakesAll (env : Env) (u : Usb) (n : ℕ) : Prop :=
  n = 0 ∨ if u.queue.outbusy then n ≤ u.room else u.TakesAfter env 0 ∧ n ≤ X10Queue.capacity + 1

/-- **None of so many packets is taken.** -/
def TakesNone (env : Env) (u : Usb) (n : ℕ) : Prop :=
  if u.queue.outbusy then u.room = 0 else ∀ i < n, ¬u.TakesAfter env i

section

variable (env : Env) {u : Usb}

/-- **While a packet is under way**, the next one joins if there is room. -/
theorem x10Write_busy (hq : u.queue.Ok) (hbusy : u.queue.outbusy = true) {buf : Bytes}
    (hlen : buf.length ≤ outdataSize) :
    (0 < u.room ∧ (u.x10Write env buf).1.fifo = u.fifo ++ [buf] ∧
        (u.x10Write env buf).1.queue.Ok ∧ (u.x10Write env buf).1.queue.outbusy = true ∧
        (u.x10Write env buf).1.room + 1 = u.room) ∨
      (u.room = 0 ∧ (u.x10Write env buf).1 = u) := by
  have hwrite : (u.x10Write env buf).1 = ⟨(u.queue.addX10out buf).1, u.io⟩ := by
    rw [x10Write, X10Queue.x10Write, if_neg (Nat.not_lt.mpr hlen), if_pos hbusy]
  have hle := u.queue.length_queued_le
  rw [hwrite]
  rcases u.queue.addX10out_cases hlen with ⟨hlt, hqueued, hb, htimeout⟩ | ⟨hfull, hsame⟩
  · refine Or.inl ⟨Nat.sub_pos_of_lt hlt, ?_, ⟨fun h => ?_, fun _ => ?_⟩, hb.trans hbusy, ?_⟩
    · rw [fifo, hqueued, ← List.append_assoc]
      rfl
    · rw [hb, hbusy] at h
      cases h
    · rw [htimeout, hq.busy hbusy]
    · simp only [room, hqueued, List.length_append, List.length_singleton]
      omega
  · refine Or.inr ⟨?_, ?_⟩
    · rw [room, hfull, Nat.sub_self]
    · rw [hsame]

/-- **While nothing is under way**, the next packet is submitted, or all stays as it was. -/
theorem x10Write_idle (hq : u.queue.Ok) (hidle : u.queue.outbusy = false) {buf : Bytes}
    (hlen : buf.length ≤ outdataSize) :
    (u.TakesAfter env 0 ∧ (u.x10Write env buf).1.fifo = u.fifo ++ [buf] ∧
        (u.x10Write env buf).1.queue.Ok ∧ (u.x10Write env buf).1.queue.outbusy = true ∧
        (u.x10Write env buf).1.room = X10Queue.capacity) ∨
      (¬u.TakesAfter env 0 ∧ (u.x10Write env buf).1.fifo = u.fifo ∧
        (u.x10Write env buf).1.queue = u.queue ∧
        ∀ i, (u.x10Write env buf).1.TakesAfter env i ↔ u.TakesAfter env (i + 1)) := by
  have hnil : u.queue.queued = [] := u.queue.queued_eq_nil_iff.mpr (hq.idle hidle).1
  have hbusy : ¬u.queue.outbusy = true := by simp [hidle]
  have hlen' : ¬outdataSize < buf.length := Nat.not_lt.mpr hlen
  rcases u.io.writeUsb_spec env hlen with ⟨htakes, hr, hsent⟩ | ⟨hnot, hr, hsent, hready, hcalls⟩
  · have hwrite : (u.x10Write env buf).1 =
        ⟨{ u.queue with outbusy := true, pollTimeOut := 2 * 1000 }, (u.io.writeUsb env buf).1⟩ := by
      simp only [x10Write, X10Queue.x10Write, if_neg hlen', if_neg hbusy, if_neg (not_lt.mpr hr)]
    have hsame : X10Queue.queued { u.queue with outbusy := true, pollTimeOut := 2 * 1000 } = [] := hnil
    rw [hwrite]
    refine Or.inl ⟨htakes, ?_, u.queue.armed_ok, rfl, ?_⟩
    · rw [fifo, fifo, hsame, hsent, hnil, List.append_nil, List.append_nil]
    · rw [room, hsame]
      rfl
  · have hwrite : (u.x10Write env buf).1 = ⟨u.queue, (u.io.writeUsb env buf).1⟩ := by
      simp only [x10Write, X10Queue.x10Write, if_neg hlen', if_neg hbusy, if_pos hr,
        hq.set_idle hidle]
    rw [hwrite]
    refine Or.inr ⟨hnot, ?_, rfl, fun i => ?_⟩
    · rw [fifo, hsent, fifo]
    · simp only [TakesAfter, hready]
      refine and_congr_right fun h => ?_
      rw [hcalls h, Nat.add_right_comm, Nat.add_assoc]

/-- Packets written while one is under way join as far as there is room. -/
theorem fifo_writeAll_busy (hq : u.queue.Ok) (hbusy : u.queue.outbusy = true) {ps : List Bytes}
    (hlen : ∀ p ∈ ps, p.length ≤ outdataSize) :
    (u.writeAll env ps).fifo = u.fifo ++ ps.take u.room := by
  induction ps generalizing u with
  | nil => simp [writeAll]
  | cons p ps ih =>
    have hp := hlen p List.mem_cons_self
    have hps : ∀ q ∈ ps, q.length ≤ outdataSize := fun q hmem => hlen q (List.mem_cons_of_mem p hmem)
    show ((u.x10Write env p).1.writeAll env ps).fifo = _
    rcases x10Write_busy env hq hbusy hp with ⟨-, hfifo, hq', hbusy', hroom⟩ | ⟨hfull, hsame⟩
    · rw [ih hq' hbusy' hps, hfifo, ← hroom, List.take_succ_cons, List.append_assoc]
      rfl
    · rw [hsame, ih hq hbusy hps, hfull, List.take_zero, List.take_zero]

/-- They take up the room that there is. -/
theorem room_writeAll_busy (hq : u.queue.Ok) (hbusy : u.queue.outbusy = true) {ps : List Bytes}
    (hlen : ∀ p ∈ ps, p.length ≤ outdataSize) :
    (u.writeAll env ps).queue.Ok ∧ (u.writeAll env ps).queue.outbusy = true ∧
      (u.writeAll env ps).room = u.room - ps.length := by
  induction ps generalizing u with
  | nil => exact ⟨hq, hbusy, rfl⟩
  | cons p ps ih =>
    have hp := hlen p List.mem_cons_self
    have hps : ∀ q ∈ ps, q.length ≤ outdataSize := fun q hmem => hlen q (List.mem_cons_of_mem p hmem)
    have hroom : (p :: ps).length = ps.length + 1 := rfl
    rcases x10Write_busy env hq hbusy hp with ⟨-, -, hq', hbusy', hless⟩ | ⟨hfull, hsame⟩
    · obtain ⟨hq'', hbusy'', hrest⟩ := ih hq' hbusy' hps
      exact ⟨hq'', hbusy'', hrest.trans (by omega)⟩
    · obtain ⟨hq'', hbusy'', hrest⟩ := ih hq hbusy hps
      have hwrite : u.writeAll env (p :: ps) = u.writeAll env ps :=
        congrArg (fun u => u.writeAll env ps) hsame
      rw [hwrite]
      exact ⟨hq'', hbusy'', hrest.trans (by omega)⟩

/-- Packets written while nothing is under way are lost up to the first that is submitted; after
it they join as far as there is room. -/
theorem fifo_writeAll_idle (hq : u.queue.Ok) (hidle : u.queue.outbusy = false) {ps : List Bytes}
    (hlen : ∀ p ∈ ps, p.length ≤ outdataSize) :
    ∃ k ≤ ps.length, (∀ i < k, ¬u.TakesAfter env i) ∧ (k < ps.length → u.TakesAfter env k) ∧
      (u.writeAll env ps).fifo = u.fifo ++ (ps.drop k).take (X10Queue.capacity + 1) := by
  induction ps generalizing u with
  | nil => exact ⟨0, le_refl 0, fun i hi => absurd hi (Nat.not_lt_zero i),
      fun h => absurd h (Nat.lt_irrefl 0), by simp [writeAll]⟩
  | cons p ps ih =>
    have hp := hlen p List.mem_cons_self
    have hps : ∀ q ∈ ps, q.length ≤ outdataSize := fun q hmem => hlen q (List.mem_cons_of_mem p hmem)
    rcases x10Write_idle env hq hidle hp with
      ⟨htakes, hfifo, hq', hbusy', hroom⟩ | ⟨hnot, hfifo, hqueue, hafter⟩
    · refine ⟨0, Nat.zero_le _, fun i hi => absurd hi (Nat.not_lt_zero i), fun _ => htakes, ?_⟩
      show ((u.x10Write env p).1.writeAll env ps).fifo = _
      rw [fifo_writeAll_busy env hq' hbusy' hps, hfifo, hroom, List.drop_zero, List.take_succ_cons,
        List.append_assoc]
      rfl
    · obtain ⟨k, hk, hfail, htakes, hrest⟩ := ih (hqueue ▸ hq) (hqueue ▸ hidle) hps
      refine ⟨k + 1, Nat.succ_le_succ hk, fun i hi => ?_, fun h => ?_, ?_⟩
      · cases i with
        | zero => exact hnot
        | succ i => exact mt (hafter i).mpr (hfail i (Nat.lt_of_succ_lt_succ hi))
      · exact (hafter k).mp (htakes (Nat.lt_of_succ_lt_succ h))
      · show ((u.x10Write env p).1.writeAll env ps).fifo = _
        rw [hrest, hfifo, List.drop_succ_cons]

/-- **All packets are taken**, adjacent and in order, exactly if there is room for them and the
first one can be submitted. -/
theorem writeAll_eq_iff (hq : u.queue.Ok) {ps : List Bytes}
    (hlen : ∀ p ∈ ps, p.length ≤ outdataSize) :
    (u.writeAll env ps).fifo = u.fifo ++ ps ↔ u.TakesAll env ps.length := by
  rw [TakesAll]
  cases hbusy : u.queue.outbusy with
  | true =>
    rw [fifo_writeAll_busy env hq hbusy hlen, if_pos rfl, List.append_cancel_left_eq]
    constructor
    · intro heq
      have hlength := congrArg List.length heq
      rw [List.length_take] at hlength
      exact Or.inr (by omega)
    · rintro (h0 | hroom)
      · rw [List.eq_nil_of_length_eq_zero h0, List.take_nil]
      · exact List.take_of_length_le hroom
  | false =>
    obtain ⟨k, hk, hfail, htakes, hfifo⟩ := fifo_writeAll_idle env hq hbusy hlen
    rw [hfifo, if_neg (by decide), List.append_cancel_left_eq]
    constructor
    · intro heq
      have hlength := congrArg List.length heq
      rw [List.length_take, List.length_drop] at hlength
      rcases Nat.eq_zero_or_pos ps.length with h0 | hpos
      · exact Or.inl h0
      · obtain rfl : k = 0 := by omega
        exact Or.inr ⟨htakes hpos, by omega⟩
    · rintro (h0 | ⟨hfirst, hroom⟩)
      · rw [List.eq_nil_of_length_eq_zero h0, List.drop_nil, List.take_nil]
      · have hk0 : k = 0 := by
          by_contra hne
          exact hfail 0 (Nat.pos_of_ne_zero hne) hfirst
        rw [hk0, List.drop_zero, List.take_of_length_le hroom]

/-- **No packet is taken** exactly if there is no room, or no attempt to submit one succeeds. -/
theorem writeAll_refused_iff (hq : u.queue.Ok) {ps : List Bytes} (hps : ps ≠ [])
    (hlen : ∀ p ∈ ps, p.length ≤ outdataSize) :
    (u.writeAll env ps).fifo = u.fifo ↔ u.TakesNone env ps.length := by
  have hpos : 0 < ps.length := List.length_pos_iff.mpr hps
  rw [TakesNone]
  cases hbusy : u.queue.outbusy with
  | true =>
    rw [fifo_writeAll_busy env hq hbusy hlen, if_pos rfl, List.append_right_eq_self, List.take_eq_nil_iff]
    simp [hps]
  | false =>
    obtain ⟨k, hk, hfail, htakes, hfifo⟩ := fifo_writeAll_idle env hq hbusy hlen
    rw [hfifo, if_neg (by decide), List.append_right_eq_self, List.take_eq_nil_iff,
      List.drop_eq_nil_iff]
    constructor
    · rintro (hcap | hall)
      · exact absurd hcap (Nat.succ_ne_zero _)
      · exact fun i hi => hfail i (lt_of_lt_of_le hi hall)
    · intro hnone
      refine Or.inr (not_lt.mp fun hlt => ?_)
      exact hnone k hlt (htakes hlt)

end

end Usb

end Mochad
