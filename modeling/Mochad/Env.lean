import Mochad.Config

/-!
# What the daemon cannot decide

Everything that the operating system, libusb and the clocks answer, gathered in one
record. The answers to the calls of one kind are indexed by how many such calls have
been made, so a statement about every `Env` is a statement about every sequence of
answers.
-/

namespace Mochad

/-- The fields of `struct tm` that the daemon prints or sends. -/
structure Tm where
  tmSec : ℕ
  tmMin : ℕ
  tmHour : ℕ
  tmMday : ℕ
  tmMon : ℕ
  tmWday : ℕ
  tmYday : ℕ

/-- `struct timespec`. -/
structure Timespec where
  tvSec : ℤ
  tvNsec : ℤ

/-- What one `send()` call answers. -/
inductive SendResult
  /-- The socket took that many bytes. -/
  | taken (n : ℕ)
  /-- `EINTR`. -/
  | eintr
  /-- `EAGAIN` or `EWOULDBLOCK`. -/
  | eagain
  /-- Any other error. -/
  | failed
  deriving DecidableEq, Repr

/-- The daemon's surroundings. -/
structure Env where
  /-- The loaded configuration, `MochadConfig`. -/
  config : MochadConfig
  /-- `Cm19a`, settled when the controller is opened. -/
  cm19a : Bool
  /-- The width of `time_t`, in bits. -/
  timeWidth : ℕ
  /-- The readings of `CLOCK_MONOTONIC`. -/
  clockMonotonic : ℕ → Timespec
  /-- The readings of `time(NULL)` that the X10 state makes. -/
  time : ℕ → ℕ
  /-- The readings of `time(NULL)` that the timestamps make. -/
  stampTime : ℕ → ℕ
  /-- `localtime_r`. -/
  localtime : ℕ → Tm
  /-- `StartTime`. -/
  startTime : ℕ
  /-- What uninitialised stack bytes hold. -/
  stack : Memory
  /-- The results of submitting the OUT transfer. -/
  submitOut : ℕ → ℤ
  /-- The results of submitting the IN transfer. -/
  submitIn : ℕ → ℤ
  /-- The answers of `send()` to each direct reply; past the list it fails. -/
  sends : ℕ → List SendResult
  /-- The descriptors that the process has open before the listeners are created. -/
  inherited : ℕ → Bool
  /-- `libusb_get_pollfds`: the descriptors, and whether each is polled for input and for
  output. -/
  usbPollfds : List (ℤ × Bool × Bool)

/-- Surroundings in which every submission succeeds, the clocks stand still, and no socket
takes a direct reply. -/
def Env.plain (config : MochadConfig) (cm19a : Bool) : Env where
  config := config
  cm19a := cm19a
  timeWidth := 64
  clockMonotonic := fun _ => ⟨0, 0⟩
  time := fun _ => 0
  stampTime := fun _ => 0
  localtime := fun _ => ⟨0, 0, 0, 1, 0, 4, 0⟩
  startTime := 0
  stack := fun _ => 0
  submitOut := fun _ => 0
  submitIn := fun _ => 0
  sends := fun _ => []
  inherited := fun fd => fd < 3
  usbPollfds := []

/-- The two-digit fields of `strftime`. -/
def fmt2 (n : ℕ) : Bytes := fmtPad 10 2 n

/-- `strftime` with `"%m/%d %T "`, the prefix of every timestamped line. -/
def strftime (tm : Tm) : Bytes :=
  fmt2 (tm.tmMon + 1) ++ ascii "/" ++ fmt2 tm.tmMday ++ ascii " " ++ fmt2 tm.tmHour ++
    ascii ":" ++ fmt2 tm.tmMin ++ ascii ":" ++ fmt2 tm.tmSec ++ ascii " "

/-- The ranges of the fields of a `struct tm`, as `localtime_r` fills it in. -/
structure Tm.InRange (tm : Tm) : Prop where
  sec : tm.tmSec ≤ 60
  min : tm.tmMin < 60
  hour : tm.tmHour < 24
  mday : tm.tmMday ≤ 31
  mon : tm.tmMon < 12

/-- `localtime_r` fills in fields that are in range. -/
def Env.TimesInRange (env : Env) : Prop := ∀ t, (env.localtime t).InRange

theorem length_fmt2 {n : ℕ} (h : n < 100) : (fmt2 n).length = 2 := by
  have hall : ∀ n : Fin 100, (fmt2 n).length = 2 := by decide +kernel
  exact hall ⟨n, h⟩

/-- **The prefix of every line** has fifteen bytes. -/
theorem length_strftime {tm : Tm} (h : tm.InRange) : (strftime tm).length = 15 := by
  obtain ⟨hsec, hmin, hhour, hmday, hmon⟩ := h
  have hslash : (ascii "/").length = 1 ∧ (ascii " ").length = 1 ∧ (ascii ":").length = 1 := by decide
  simp only [strftime, List.length_append]
  rw [length_fmt2 (by omega), length_fmt2 (by omega), length_fmt2 (by omega),
    length_fmt2 (by omega), length_fmt2 (by omega), hslash.1, hslash.2.1, hslash.2.2]

theorem strftime_ne_nil (tm : Tm) : strftime tm ≠ [] :=
  List.append_ne_nil_of_right_ne_nil _ (by decide)

end Mochad
