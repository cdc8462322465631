import Mochad.Bytes
import Mochad.Library.Framing

/-!
# Command lines out of reads

`cm15a_encode_with_state` cuts what a client sends into lines. It keeps the unfinished
line between reads in a `cm15a_encode_state`: an array of eighty bytes, how many of
them are in use, and whether it is dropping the rest of a line that was too long.

Here is the cutting alone: `encodeByte` is one turn of the loop, up to the line that
it completes, and `cm15aEncodeWithState` one call in which nothing happens to the
state from outside. The daemon's loop, where a command may close the connection, is
made of the same `encodeByte`.

The cutting is that of `Framing`, for a capacity of 79: the last byte of the array is
kept for the terminator (`encodeByte_frame`, `lines_encodeReads`). From there come

* `encodeReads_flatten` – the cut of the stream into reads is invisible;
* `remlen_encodeReads`, `short_of_mem_encodeReads` – the bounds on what is kept and
  on what is passed on;
* `encodeReads_eq_shortLines_iff` – exactly when every short line is passed on.
-/

namespace Mochad

/-- The bytes that end a line. -/
def isDelim (b : UInt8) : Bool := b == 0x0a || b == 0x0d || b == 0x00

/-- `sizeof(state->remainder)`. -/
def remainderSize : ℕ := 80

/-- The longest text the array is meant to hold, less its terminator. -/
def lineCap : ℕ := remainderSize - 1

/-- **`cm15a_encode_state_t`.** -/
structure EncodeState where
  remainder : Bytes
  remlen : ℕ
  discarding : Bool
  /-- The array has its size. -/
  length_remainder : remainder.length = remainderSize

namespace EncodeState

/-- A write into the array. -/
def put (st : EncodeState) (i : ℕ) (b : UInt8) : EncodeState :=
  { st with
    remainder := st.remainder.set i b
    length_remainder := by rw [List.length_set, st.length_remainder] }

@[simp] theorem put_remainder (st : EncodeState) (i : ℕ) (b : UInt8) :
    (st.put i b).remainder = st.remainder.set i b := rfl

@[simp] theorem put_remlen (st : EncodeState) (i : ℕ) (b : UInt8) :
    (st.put i b).remlen = st.remlen := rfl

@[simp] theorem put_discarding (st : EncodeState) (i : ℕ) (b : UInt8) :
    (st.put i b).discarding = st.discarding := rfl

/-- The state of a table that was never written. -/
def zero : EncodeState := ⟨List.replicate remainderSize 0, 0, false, List.length_replicate⟩

/-- `cm15a_encode_state_init`. -/
def init (st : EncodeState) : EncodeState := { st.put 0 0 with remlen := 0, discarding := false }

@[simp] theorem init_remlen (st : EncodeState) : st.init.remlen = 0 := rfl

@[simp] theorem init_discarding (st : EncodeState) : st.init.discarding = false := rfl

end EncodeState

/-- **One turn of the loop**: the state, the index that the next byte goes to
(`remptr`), and the line that the byte completes. -/
def encodeByte (st : EncodeState) (remptr : ℕ) (b : UInt8) : EncodeState × ℕ × Option Bytes :=
  if st.discarding then ({ st with discarding := !isDelim b }, remptr, none)
  else if lineCap ≤ remptr then
    -- the room is asked for before it is known whether the byte needs any
    ({ st.put 0 0 with remlen := 0, discarding := true }, 0, none)
  else if isDelim b then
    let st := (st.put remptr b).put remptr 0
    let line := cstring st.remainder
    (st, 0, if line = [] then none else some line)
  else (st.put remptr b, remptr + 1, none)

/-- The loop over the bytes of a read. -/
def encodeBytes : EncodeState → ℕ → Bytes → EncodeState × ℕ × List Bytes
  | st, remptr, [] => (st, remptr, [])
  | st, remptr, b :: buf =>
      let r := encodeByte st remptr b
      let r' := encodeBytes r.1 r.2.1 buf
      (r'.1, r'.2.1, r.2.2.toList ++ r'.2.2)

/-- **One call of `cm15a_encode_with_state`**, and the lines it passes on. -/
def cm15aEncodeWithState (st : EncodeState) (buf : Bytes) : EncodeState × List Bytes :=
  let r := encodeBytes st st.remlen buf
  ({ r.1 with remlen := r.2.1 }, r.2.2)

/-- The calls for the reads of one connection, in order. -/
def encodeReads : EncodeState → List Bytes → EncodeState × List Bytes
  | st, [] => (st, [])
  | st, buf :: bufs =>
      let r := cm15aEncodeWithState st buf
      let r' := encodeReads r.1 bufs
      (r'.1, r.2 ++ r'.2)

/-! ### The loop is a framing -/

/-- The unfinished line that a state and an index stand for. -/
def frameOf (st : EncodeState) (remptr : ℕ) : Framing.Frame UInt8 :=
  if st.discarding then .discarding else .filling (st.remainder.take remptr)

/-- The loop's invariant: the index is in the array, and what is in use has no
delimiter. -/
structure Holds (st : EncodeState) (remptr : ℕ) : Prop where
  le : remptr ≤ lineCap
  zero_of_discarding : st.discarding = true → remptr = 0
  text : ∀ b ∈ st.remainder.take remptr, isDelim b = false

theorem holds_zero (st : EncodeState) : Holds st 0 :=
  ⟨Nat.zero_le _, fun _ => rfl, by simp⟩

/-- The line that a delimiter ends is what is in use. -/
theorem cstring_put {st : EncodeState} {remptr : ℕ} (h : Holds st remptr) (b : UInt8) :
    cstring ((st.put remptr b).put remptr 0).remainder = st.remainder.take remptr := by
  have hlt : remptr < st.remainder.length := by
    have hle := h.le
    rw [st.length_remainder]
    simp only [lineCap, remainderSize] at *
    omega
  have hsplit : ((st.put remptr b).put remptr 0).remainder =
      st.remainder.take remptr ++ 0 :: st.remainder.drop (remptr + 1) := by
    simp only [EncodeState.put_remainder, List.set_set]
    exact List.set_eq_take_append_cons_drop.trans (if_pos hlt)
  have htext : ∀ c ∈ st.remainder.take remptr, c ≠ 0 := by
    intro c hc h0
    have hd := h.text c hc
    rw [h0] at hd
    exact absurd hd (by decide)
  rw [cstring, hsplit, List.takeWhile_append_of_pos fun c hc => by simpa using htext c hc]
  simp

/-- **One turn of the loop is one step of the framing**, and keeps the invariant. -/
theorem encodeByte_frame {st : EncodeState} {remptr : ℕ} (h : Holds st remptr) (b : UInt8) :
    (frameOf (encodeByte st remptr b).1 (encodeByte st remptr b).2.1,
        (encodeByte st remptr b).2.2) = Framing.step isDelim lineCap (frameOf st remptr) b ∧
      Holds (encodeByte st remptr b).1 (encodeByte st remptr b).2.1 := by
  have hlen : (st.remainder.take remptr).length = remptr := by
    have hle := h.le
    rw [List.length_take, st.length_remainder]
    simp only [lineCap, remainderSize] at *
    omega
  by_cases hdisc : st.discarding = true
  · obtain rfl := h.zero_of_discarding hdisc
    rw [encodeByte, if_pos hdisc, frameOf, frameOf, if_pos hdisc, Framing.step]
    refine ⟨?_, holds_zero _⟩
    cases hb : isDelim b <;> simp [Framing.Frame.start]
  · rw [encodeByte, if_neg hdisc, show frameOf st remptr = .filling (st.remainder.take remptr) from
      if_neg hdisc, Framing.step, hlen]
    by_cases hcap : lineCap ≤ remptr
    · rw [if_pos hcap, if_pos hcap]
      exact ⟨rfl, holds_zero _⟩
    · rw [if_neg hcap, if_neg hcap]
      by_cases hb : isDelim b = true
      · rw [if_pos hb, if_pos hb]
        refine ⟨?_, holds_zero _⟩
        have hdisc' : ((st.put remptr b).put remptr 0).discarding ≠ true := hdisc
        simp only [cstring_put h b, frameOf, if_neg hdisc', List.take_zero, Framing.Frame.start,
          List.isEmpty_iff]
      · rw [if_neg hb, if_neg hb]
        -- the byte goes just past what is in use
        have htake : (st.put remptr b).remainder.take (remptr + 1) =
            st.remainder.take remptr ++ [b] := by
          have hlt : remptr < st.remainder.length := by
            rw [st.length_remainder]
            simp only [lineCap, remainderSize] at *
            omega
          rw [EncodeState.put_remainder, List.take_add_one, List.take_set_of_le (Nat.le_refl _),
            List.getElem?_set_self hlt]
          rfl
        refine ⟨?_, ⟨Nat.lt_of_not_le hcap, fun hd => absurd hd hdisc, fun c hc => ?_⟩⟩
        · simp only [frameOf, EncodeState.put_discarding, if_neg hdisc, htake]
        · rw [htake] at hc
          rcases List.mem_append.mp hc with hc | hc
          · exact h.text c hc
          · rw [List.mem_singleton.mp hc]
            simpa using hb

theorem encodeBytes_frame {st : EncodeState} {remptr : ℕ} (h : Holds st remptr) (buf : Bytes) :
    (frameOf (encodeBytes st remptr buf).1 (encodeBytes st remptr buf).2.1,
        (encodeBytes st remptr buf).2.2) = Framing.run isDelim lineCap (frameOf st remptr) buf ∧
      Holds (encodeBytes st remptr buf).1 (encodeBytes st remptr buf).2.1 := by
  induction buf generalizing st remptr with
  | nil => exact ⟨rfl, h⟩
  | cons b buf ih =>
    obtain ⟨hstep, hholds⟩ := encodeByte_frame h b
    obtain ⟨hrun, hholds'⟩ := ih hholds
    refine ⟨?_, hholds'⟩
    rw [Framing.run_cons, ← hstep, ← hrun]
    rfl

/-- The invariant between reads. -/
def EncodeState.Ok (st : EncodeState) : Prop := Holds st st.remlen

/-- The unfinished line between reads. -/
def EncodeState.frame (st : EncodeState) : Framing.Frame UInt8 := frameOf st st.remlen

theorem EncodeState.init_ok (st : EncodeState) : st.init.Ok := holds_zero _

theorem EncodeState.init_frame (st : EncodeState) : st.init.frame = Framing.Frame.start := by
  simp [EncodeState.frame, frameOf, Framing.Frame.start]

/-- **One call is a run of the framing**, and keeps the invariant. -/
theorem cm15aEncodeWithState_frame {st : EncodeState} (h : st.Ok) (buf : Bytes) :
    ((cm15aEncodeWithState st buf).1.frame, (cm15aEncodeWithState st buf).2) =
        Framing.run isDelim lineCap st.frame buf ∧ (cm15aEncodeWithState st buf).1.Ok := by
  obtain ⟨hrun, hholds⟩ := encodeBytes_frame h buf
  exact ⟨hrun, ⟨hholds.le, hholds.zero_of_discarding, hholds.text⟩⟩

theorem encodeReads_frame {st : EncodeState} (h : st.Ok) (bufs : List Bytes) :
    ((encodeReads st bufs).1.frame, (encodeReads st bufs).2) =
        Framing.run isDelim lineCap st.frame bufs.flatten ∧ (encodeReads st bufs).1.Ok := by
  induction bufs generalizing st with
  | nil => exact ⟨rfl, h⟩
  | cons buf bufs ih =>
    obtain ⟨hrun, hok⟩ := cm15aEncodeWithState_frame h buf
    obtain ⟨hrun', hok'⟩ := ih hok
    refine ⟨?_, hok'⟩
    rw [List.flatten_cons, Framing.run_append, ← hrun, ← hrun']
    rfl

/-- **The lines of a connection** are those of its stream. -/
theorem lines_encodeReads {st : EncodeState} (h : st.Ok) (bufs : List Bytes) :
    (encodeReads st bufs).2 = Framing.lines isDelim lineCap st.frame bufs.flatten :=
  congrArg Prod.snd (encodeReads_frame h bufs).1

/-! ### The cut of the stream into reads -/

theorem encodeBytes_append (st : EncodeState) (remptr : ℕ) (a b : Bytes) :
    encodeBytes st remptr (a ++ b) =
      ((encodeBytes (encodeBytes st remptr a).1 (encodeBytes st remptr a).2.1 b).1,
        (encodeBytes (encodeBytes st remptr a).1 (encodeBytes st remptr a).2.1 b).2.1,
        (encodeBytes st remptr a).2.2 ++
          (encodeBytes (encodeBytes st remptr a).1 (encodeBytes st remptr a).2.1 b).2.2) := by
  induction a generalizing st remptr with
  | nil => rfl
  | cons x a ih => simp [encodeBytes, ih]

/-- The loop carries its own index: what `remlen` was when it began is not looked at
again. -/
theorem encodeByte_remlen (st : EncodeState) (n remptr : ℕ) (b : UInt8) :
    ∃ m, encodeByte { st with remlen := n } remptr b =
      ({ (encodeByte st remptr b).1 with remlen := m }, (encodeByte st remptr b).2) := by
  simp only [encodeByte]
  split
  · exact ⟨n, rfl⟩
  split
  · exact ⟨0, rfl⟩
  split
  · exact ⟨n, rfl⟩
  · exact ⟨n, rfl⟩

theorem encodeBytes_remlen (st : EncodeState) (n remptr : ℕ) (buf : Bytes) :
    ∃ m, encodeBytes { st with remlen := n } remptr buf =
      ({ (encodeBytes st remptr buf).1 with remlen := m }, (encodeBytes st remptr buf).2) := by
  induction buf generalizing st n remptr with
  | nil => exact ⟨n, rfl⟩
  | cons b buf ih =>
    obtain ⟨m, hm⟩ := encodeByte_remlen st n remptr b
    obtain ⟨k, hk⟩ := ih (encodeByte st remptr b).1 m (encodeByte st remptr b).2.1
    refine ⟨k, ?_⟩
    simp only [encodeBytes, hm, hk]

/-- **Two reads do what one read of both does**: the same state is left, down to the
last byte of the array, and the same lines are passed on. -/
theorem cm15aEncodeWithState_append (st : EncodeState) (a b : Bytes) :
    cm15aEncodeWithState st (a ++ b) =
      ((cm15aEncodeWithState (cm15aEncodeWithState st a).1 b).1,
        (cm15aEncodeWithState st a).2 ++
          (cm15aEncodeWithState (cm15aEncodeWithState st a).1 b).2) := by
  obtain ⟨m, hm⟩ := encodeBytes_remlen (encodeBytes st st.remlen a).1
    (encodeBytes st st.remlen a).2.1 (encodeBytes st st.remlen a).2.1 b
  simp only [cm15aEncodeWithState, encodeBytes_append, hm]

/-- **The cut of a stream into reads is invisible.** -/
theorem encodeReads_flatten (st : EncodeState) {bufs bufs' : List Bytes}
    (h : bufs.flatten = bufs'.flatten) : encodeReads st bufs = encodeReads st bufs' := by
  have hone : ∀ (bufs : List Bytes) (st : EncodeState),
      encodeReads st bufs = cm15aEncodeWithState st bufs.flatten := by
    intro bufs
    induction bufs with
    | nil => intro st; rfl
    | cons buf bufs ih =>
      intro st
      rw [List.flatten_cons, cm15aEncodeWithState_append, ← ih]
      rfl
  rw [hone, hone, h]

/-! ### Bounds -/

/-- **The length of the unfinished line** never reaches the last byte of the array. -/
theorem remlen_encodeReads {st : EncodeState} (h : st.Ok) (bufs : List Bytes) :
    (encodeReads st bufs).1.remlen ≤ 79 := (encodeReads_frame h bufs).2.le

theorem frame_ok {st : EncodeState} (h : st.Ok) : st.frame.Ok isDelim lineCap := by
  rw [EncodeState.frame, frameOf]
  split
  · trivial
  · refine ⟨?_, h.text⟩
    rw [List.length_take]
    exact le_trans (Nat.min_le_left _ _) h.le

/-- **Every line passed on is nonempty, at most 78 bytes long, and free of
delimiters.** -/
theorem short_of_mem_encodeReads {st : EncodeState} (h : st.Ok) {bufs : List Bytes} {line : Bytes}
    (hmem : line ∈ (encodeReads st bufs).2) :
    line ≠ [] ∧ line.length ≤ 78 ∧ ∀ b ∈ line, isDelim b = false := by
  rw [lines_encodeReads h] at hmem
  obtain ⟨hne, hlt, htext⟩ := Framing.mem_lines (frame_ok h) hmem
  have hlt' : line.length < 79 := hlt
  exact ⟨hne, by omega, htext⟩

/-! ### Which lines are passed on -/

/-- The lines of a stream that the interpreter is to see: those that are not empty and
leave room for the terminator in the array and for one byte more. -/
def shortLines (stream : Bytes) : List Bytes :=
  (Framing.records isDelim stream).filter fun l => decide (l ≠ [] ∧ l.length ≤ 78)

/-- **Exactly when every short line is passed on**, and nothing else: when the line
after a line of 79 bytes – one that is itself read, and does not come after another
such line – is empty or too long anyway. -/
theorem encodeReads_eq_shortLines_iff (st : EncodeState) (reads : List Bytes) :
    (encodeReads st.init reads).2 = shortLines reads.flatten ↔
      Framing.Spared 79 false (Framing.records isDelim reads.flatten) := by
  have hshort : shortLines reads.flatten = (Framing.records isDelim reads.flatten).filter
      fun l => decide (l ≠ [] ∧ l.length < lineCap) := by
    refine List.filter_congr fun l _ => decide_eq_decide.mpr (and_congr_right fun _ => ?_)
    exact (Nat.lt_succ_iff (n := 78)).symm
  rw [hshort, lines_encodeReads st.init_ok, st.init_frame]
  exact Framing.lines_eq_filter_iff reads.flatten

/-- A line of 79 bytes, and a short line after it. -/
def overlongThenShort : Bytes := List.replicate 79 0x61 ++ ascii "\nhello\n"

/-- The short line is not passed on, although only the line before it is too long. -/
theorem shortLine_swallowed :
    ¬∀ (st : EncodeState) (reads : List Bytes),
      (encodeReads st.init reads).2 = shortLines reads.flatten := by
  intro h
  have hpassed : (encodeReads EncodeState.zero.init [overlongThenShort]).2 = [] := by
    decide +kernel
  have hshort : shortLines [overlongThenShort].flatten = [ascii "hello"] := by decide +kernel
  have hcon := (h EncodeState.zero [overlongThenShort]).symm.trans hpassed
  rw [hshort] at hcon
  cases hcon

end Mochad
