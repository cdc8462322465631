import Mochad.X10.Announcements
import Mochad.X10.Lines
import Mochad.X10.Rejection

/-!
# Which lines are answered

A line is answered to its sender in one of three ways: an OpenRemote client is told that a
transmitting command was read, a command has something to say itself, and arguments that are left
over are complained about. `Replied` says of a line whether any of them applies: a line that is not
`Replied` prints at most to all (`emits_of_not_replied`), and every other line makes an answer that
ends in a carriage return, or in a newline that nobody replaces (`ragged_of_replied`).
-/

namespace Mochad

open X10M (Emits gets modify)

/-! ### Calls that are always made -/

namespace X10M

variable {α β : Type} {P : Effect → Prop}

/-- Whatever the state, a function makes a call with a property. -/
def Calls (P : Effect → Prop) (m : X10M α) : Prop := ∀ s, ∃ e ∈ (m s).effects, P e

theorem Calls.call {e : Effect} (h : P e) : Calls P (call e) :=
  fun _ => ⟨e, List.mem_singleton_self e, h⟩

theorem Calls.bind_left {m : X10M α} (h : Calls P m) (f : α → X10M β) : Calls P (m >>= f) := by
  intro s
  obtain ⟨e, he, hp⟩ := h s
  exact ⟨e, List.mem_append_left _ he, hp⟩

theorem Calls.bind_right (m : X10M α) {f : α → X10M β} (h : ∀ a, Calls P (f a)) :
    Calls P (m >>= f) := by
  intro s
  obtain ⟨e, he, hp⟩ := h (m s).value (m s).state
  exact ⟨e, List.mem_append_right _ he, hp⟩

end X10M

open X10M (Calls)

/-! ### Answers -/

/-- **An answer that ends neither in a newline nor in a NUL**, or whose newline follows a carriage
return. -/
def Effect.Ragged (fd : ℤ) : Effect → Prop
  | .sockprintf f body => f = fd ∧ ∃ text, text.length ≤ 900 ∧
      (body = text ++ ascii "\n\r" ∨ body = text ++ ascii "\r\n")
  | .statusprintf f text => f = fd ∧ text ≠ [] ∧ (formatBounded 1024 text).getLast? ≠ some 0
  | _ => False

theorem getLast_append_ne {text last : Bytes} {b : UInt8} (hlast : last.getLast? = some b)
    (hb : b ≠ 0) : (text ++ last).getLast? ≠ some 0 := by
  rw [List.getLast?_append, hlast, Option.some_or]
  exact fun h => hb (Option.some.inj h)

theorem ragged_status (fd : ℤ) (text : Bytes) (h : text.length ≤ 900) :
    (Effect.statusprintf fd (text ++ ascii "\n\r")).Ragged fd := by
  have htwo : (ascii "\n\r").length = 2 := rfl
  refine ⟨rfl, List.append_ne_nil_of_right_ne_nil _ (by decide), ?_⟩
  rw [formatBounded, List.take_of_length_le (by rw [List.length_append]; omega)]
  exact getLast_append_ne (b := 0x0d) (by decide) (by decide)

/-- The text of a diagnostic reply is cut to its buffer, in which it ends in a newline or a brace. -/
theorem ragged_diag (fd : ℤ) (json : Option Bytes) :
    (∀ j, json = some j → j.length < diagBufferSize ∧ j.getLast? = some 0x7d) →
    (Effect.statusprintf fd (match json with
      | none => jsonObject [("ok", jsonBool false),
          ("error", jsonString (ascii "diagnostic output too large"))] ++ ascii "\n"
      | some json => json ++ ascii "\n")).Ragged fd := by
  intro hjson
  refine ⟨rfl, diagText_ne_nil json, ?_⟩
  cases json with
  | none => decide
  | some j =>
    obtain ⟨hlen, hlast⟩ := hjson j rfl
    have hone : (ascii "\n").length = 1 := rfl
    dsimp only
    rw [diagBufferSize] at hlen
    rw [formatBounded]
    by_cases hfits : j.length < 1023
    · rw [List.take_of_length_le (by rw [List.length_append]; omega)]
      exact getLast_append_ne (b := 0x0a) (by decide) (by decide)
    · rw [List.take_append_of_le_length (by omega), List.take_of_length_le (by omega), hlast]
      decide

theorem getLast_jsonObject (members : List (String × Bytes)) :
    (jsonObject members).getLast? = some 0x7d := by
  rw [jsonObject, List.getLast?_append]
  rfl

/-- A JSON object that fits the buffer. -/
theorem checked_jsonObject (members : List (String × Bytes)) (j : Bytes)
    (h : checkedSnprintf diagBufferSize (jsonObject members) = some j) :
    j.length < diagBufferSize ∧ j.getLast? = some 0x7d := by
  rw [checkedSnprintf] at h
  split at h
  next hlen =>
    obtain rfl := Option.some.inj h
    exact ⟨hlen, getLast_jsonObject members⟩
  · cases h

/-! ### Lines -/

/-- The commands that an OpenRemote client is told of. -/
def Command.acknowledged : Command → Bool
  | .pl | .rf | .rfsec | .rfcam | .pt | .rftopl | .rftorf => true
  | _ => false

/-- Whether a command has something to say to its sender itself. -/
def Command.speaks (command : Command) (tokens : List Bytes) : Bool :=
  match command with
  | .pl | .rf | .rfsec | .pt => false
  | .rfcam =>
      let ((house, _), tokens) := getdeviceaddr tokens
      0 ≤ house && (nextToken tokens).1.any fun keyname => findCamRemoteCommand keyname = none
  | .rftorf => (nextToken tokens).1.all fun arg => parseDecimalInt arg 0 65535 ≠ none
  | .st => (nextToken tokens).1 ≠ some (ascii "0")
  | .hex => tokens ≠ []
  | .getstatus => 0 ≤ (getdeviceaddr tokens).1.1 && 0 ≤ (getdeviceaddr tokens).1.2
  | .getstatussec => (getrfaddr tokens).1 ≠ none
  | _ => true

/-- The arguments that are left over once a command is read. -/
def leftArguments (command : Command) (tokens : List Bytes) : List Bytes :=
  match command with
  | .pl =>
      match plCommandOf tokens with
      | none => []
      | some (.select _ _, _) => []
      | some (_, rest) => rest
  | .rf =>
      let ((house, _), tokens) := getdeviceaddr tokens
      let (func, tokens) := getfunc tokens
      if house < 0 ∨ func < 0 then [] else tokens
  | .rfsec =>
      match getrfaddr tokens with
      | (none, _) => []
      | (some (rf8bitaddr, _), tokens) =>
          let (func, tokens) := getrffunc rf8bitaddr tokens
          if func < 0 then [] else tokens
  | .rfcam =>
      let ((house, _), tokens) := getdeviceaddr tokens
      if house < 0 then [] else (nextToken tokens).2
  | .st => (nextToken tokens).2
  | _ => []

/-- Whether a client is answered to these tokens. -/
def repliedTokens (or20 : Bool) : Option (List Bytes) → Bool
  | none => true
  | some [] => false
  | some (name :: tokens) =>
      match commandOf name with
      | none => false
      | some command => or20 && command.acknowledged || command.speaks tokens ||
          leftArguments command tokens ≠ []

/-- **The lines that are answered**, to a client that is an OpenRemote client or not. -/
def Replied (or20 : Bool) (line : Bytes) : Prop :=
  repliedTokens or20 (tokenizeCommand (strupper line)) = true

instance (or20 : Bool) (line : Bytes) : Decidable (Replied or20 line) :=
  inferInstanceAs (Decidable (_ = _))

example : ¬Replied false (ascii "pl a1 on") ∧ Replied false (ascii "pl a1 on x") ∧
    Replied true (ascii "pl a1 on") ∧ ¬Replied false (ascii "st 0") ∧
    Replied false (ascii "getstatus a1") := by decide

section

variable {c : Ctx} {relay : ℤ → Bytes → X10M Unit} {fd : ℤ}

/-! ### Commands with nothing to say -/

/-- What a command tells an OpenRemote client. -/
def acknowledge (c : Ctx) (fd : ℤ) (command : Command) : X10M Unit :=
  if command.acknowledged then or20ok c fd else pure ()

/-- **What a command without an answer of its own does**: it tells an OpenRemote client that it was
read, does what it is for, and leaves the arguments that are left over. -/
def Mute (c : Ctx) (fd : ℤ) (command : Command) (tokens : List Bytes) (run : X10M Flow) : Prop :=
  ∃ (m : X10M Unit) (flow : Flow),
    run = (do acknowledge c fd command; m; pure flow) ∧ Emits (Effect.PrintsTo (-1)) m ∧
      (flow = .rest (leftArguments command tokens) ∨
        leftArguments command tokens = [] ∧ ∃ value, flow = .ret value)

theorem Mute.refused {command : Command} {tokens : List Bytes} {run : X10M Flow}
    (hleft : leftArguments command tokens = [])
    (hrun : run = (do acknowledge c fd command; pure (.ret (-1)))) :
    Mute c fd command tokens run :=
  ⟨pure (), .ret (-1), by rw [hrun]; rfl, Emits.pure _, Or.inr ⟨hleft, _, rfl⟩⟩

theorem Mute.done {command : Command} {tokens rest : List Bytes} {run : X10M Flow} {m : X10M Unit}
    (hm : Emits (Effect.PrintsTo (-1)) m) (hleft : leftArguments command tokens = rest)
    (hrun : run = (do acknowledge c fd command; m; pure (.rest rest))) :
    Mute c fd command tokens run :=
  ⟨m, .rest rest, hrun, hm, Or.inl (by rw [hleft])⟩

variable (c) (fd)

theorem mute_pl (tokens : List Bytes) : Mute c fd .pl tokens (plCommand c fd tokens) := by
  cases hcmd : plCommandOf tokens with
  | none =>
    exact Mute.refused (by simp only [leftArguments, hcmd]) (plCommand_of_plCommandOf_eq_none hcmd)
  | some a =>
    obtain ⟨cmd, rest⟩ := a
    obtain ⟨-, hrun⟩ := plCommand_of_plCommandOf c fd hcmd
    have hsend : Emits (Effect.PrintsTo (-1)) (cmd.send c.env) :=
      emits_send emits_decodePlc (fun _ => trivial) c.env cmd
    refine ⟨cmd.send c.env, cmd.flow rest, hrun, hsend, ?_⟩
    cases cmd with
    | select house unit => exact Or.inr ⟨by simp only [leftArguments, hcmd], _, rfl⟩
    | toHouse | toUnit | extended => exact Or.inl (by simp only [leftArguments, hcmd]; rfl)

variable (hrelay : ∀ line, IsPl line → Emits (Effect.PrintsTo (-1)) (relay (-1) line))

include hrelay

theorem mute_rf (tokens : List Bytes) : Mute c fd .rf tokens (rfCommand c relay fd tokens) := by
  rcases haddr : getdeviceaddr tokens with ⟨⟨house, unit⟩, tokens'⟩
  rcases hfunc : getfunc tokens' with ⟨func, tokens''⟩
  have hleft : leftArguments .rf tokens = if house < 0 ∨ func < 0 then [] else tokens'' := by
    simp only [leftArguments, haddr, hfunc]
  simp only [rfCommand, haddr, hfunc]
  by_cases hhouse : house < 0
  · refine Mute.refused (by rw [hleft, if_pos (Or.inl hhouse)]) ?_
    simp only [if_pos hhouse]
    rfl
  by_cases hneg : func < 0
  · refine Mute.refused (by rw [hleft, if_pos (Or.inr hneg)]) ?_
    simp only [if_neg hhouse, if_pos hneg]
    rfl
  have hframe : Emits (Effect.PrintsTo (-1)) (rfTxHouseunitfunc c.env relay house unit func) := by
    refine Emits.ite (Emits.pure _) ?_
    dsimp only
    split
    · exact Emits.pure _
    · exact emits_rfTx c hrelay _
  refine Mute.done hframe (by rw [hleft, if_neg (not_or.mpr ⟨hhouse, hneg⟩)]) ?_
  simp only [if_neg hhouse, if_neg hneg]
  rfl

theorem mute_rfsec (tokens : List Bytes) :
    Mute c fd .rfsec tokens (rfsecCommand c relay fd tokens) := by
  rcases haddr : getrfaddr tokens with ⟨addr, tokens'⟩
  cases addr with
  | none =>
    refine Mute.refused (by simp only [leftArguments, haddr]) ?_
    simp only [rfsecCommand, haddr]
    rfl
  | some a =>
    obtain ⟨rf8bitaddr, rfaddr⟩ := a
    rcases hfunc : getrffunc rf8bitaddr tokens' with ⟨func, tokens''⟩
    have hleft : leftArguments .rfsec tokens = if func < 0 then [] else tokens'' := by
      simp only [leftArguments, haddr, hfunc]
    simp only [rfsecCommand, haddr, hfunc]
    by_cases hneg : func < 0
    · refine Mute.refused (by rw [hleft, if_pos hneg]) ?_
      simp only [if_pos hneg]
      rfl
    have hframe : Emits (Effect.PrintsTo (-1))
        (rfsecTx c.env relay rf8bitaddr rfaddr (lowByte func)) :=
      Emits.ite (emits_rfTx c hrelay _) (emits_rfTx c hrelay _)
    refine Mute.done hframe (by rw [hleft, if_neg hneg]) ?_
    simp only [if_neg hneg]
    rfl

theorem mute_rfcam {tokens : List Bytes} (h : Command.rfcam.speaks tokens = false) :
    Mute c fd .rfcam tokens (rfcamCommand c relay fd tokens) := by
  rcases haddr : getdeviceaddr tokens with ⟨⟨house, unit⟩, tokens'⟩
  have hleft : leftArguments .rfcam tokens = if house < 0 then [] else tokens'.tail := by
    simp only [leftArguments, haddr, nextToken]
  simp only [Command.speaks, haddr, nextToken] at h
  simp only [rfcamCommand, haddr, nextToken]
  by_cases hhouse : house < 0
  · refine Mute.refused (by rw [hleft, if_pos hhouse]) ?_
    simp only [if_pos hhouse]
    rfl
  have hpos : 0 ≤ house := not_lt.mp hhouse
  rw [if_neg hhouse] at hleft
  cases tokens' with
  | nil =>
    refine Mute.refused (by rw [hleft]; rfl) ?_
    simp only [if_neg hhouse]
    rfl
  | cons keyname tokens'' =>
    simp only [hpos, decide_true, Bool.true_and, List.head?_cons, Option.any_some,
      decide_eq_false_iff_not] at h
    obtain ⟨key, hkey⟩ := Option.ne_none_iff_exists'.mp h
    refine Mute.done (emits_rfTx c hrelay [0xeb, 0x14, (tableAt x10housecoderf house <<< 4) +
      (key - 0x2B), key, tableAt x10housecoderf house <<< 4]) hleft ?_
    simp only [if_neg hhouse, List.head?_cons, hkey]
    rfl

omit hrelay

theorem mute_pt (tokens : List Bytes) : Mute c fd .pt tokens (ptCommand c fd tokens) := by
  rcases hdata : gethexdata 8 tokens with ⟨data, rest⟩
  simp only [ptCommand, hdata]
  cases data with
  | none => exact Mute.refused rfl rfl
  | some bytes =>
    cases bytes with
    | nil => exact Mute.refused rfl rfl
    | cons b bs =>
      obtain rfl := gethexdata_rest hdata
      exact Mute.done (emits_x10Write (b :: bs)) rfl rfl

include hrelay

/-- **A command without an answer of its own.** -/
theorem mute_of_not_speaks {command : Command} {tokens : List Bytes}
    (h : command.speaks tokens = false) :
    Mute c fd command tokens (runCommand c relay fd command tokens) := by
  cases command with
  | pl => exact mute_pl c fd tokens
  | rf => exact mute_rf c fd hrelay tokens
  | rfsec => exact mute_rfsec c fd hrelay tokens
  | rfcam => exact mute_rfcam c fd hrelay h
  | pt => exact mute_pt c fd tokens
  | rftorf =>
    cases tokens with
    | nil => cases h
    | cons arg rest =>
      simp only [Command.speaks, nextToken, List.head?_cons, Option.all_some,
        decide_eq_false_iff_not, ne_eq, not_not] at h
      refine Mute.refused rfl ?_
      simp only [runCommand, rftorfCommand, nextToken, List.head?_cons, h]
      rfl
  | st =>
    simp only [Command.speaks, decide_eq_false_iff_not, ne_eq, not_not] at h
    refine Mute.done (m := modify huaSecInit) (Emits.modify _) rfl ?_
    simp only [runCommand, stCommand, if_pos h]
    rfl
  | hex =>
    simp only [Command.speaks, decide_eq_false_iff_not, ne_eq, not_not] at h
    subst h
    exact Mute.refused rfl rfl
  | getstatus =>
    have hneg : ¬(0 ≤ (getdeviceaddr tokens).1.1 ∧ 0 ≤ (getdeviceaddr tokens).1.2) := by
      simpa [Command.speaks] using h
    refine Mute.refused rfl ?_
    simp only [runCommand, getstatusCommand, if_neg hneg]
    rfl
  | getstatussec =>
    simp only [Command.speaks, decide_eq_false_iff_not, ne_eq, not_not] at h
    refine Mute.refused rfl ?_
    simp only [runCommand, getstatussecCommand]
    split
    · rfl
    next heq =>
      rw [heq] at h
      cases h
  | hello | capabilities | health | clients | config | version | rftopl | info | quit | help
  | question => cases h

omit hrelay

/-! ### Commands with something to say -/

variable {fd}

theorem ragged_sock {body : Bytes} (text : Bytes) (h : text.length ≤ 900)
    (hbody : body = text ++ ascii "\n\r" ∨ body = text ++ ascii "\r\n") :
    (Effect.sockprintf fd body).Ragged fd := ⟨rfl, text, h, hbody⟩

/-- A diagnostic reply. -/
theorem calls_diag {json : Option Bytes}
    (hjson : ∀ j, json = some j → j.length < diagBufferSize ∧ j.getLast? = some 0x7d) :
    Calls (Effect.Ragged fd) (diagCommand (sendDiagJson c fd json)) :=
  ((Calls.call (ragged_diag fd json hjson)).bind_left _).bind_left _

/-- **A command with an answer of its own.** -/
theorem calls_of_speaks {command : Command} {tokens : List Bytes}
    (h : command.speaks tokens = true) (hshort : ∀ t ∈ tokens, t.length ≤ lineCap) :
    Calls (Effect.Ragged fd) (runCommand c relay fd command tokens) := by
  have hprint : ∀ text : Bytes, text.length ≤ 900 →
      Calls (Effect.Ragged fd) (printCommand fd (text ++ ascii "\r\n")) := fun text htext =>
    (Calls.call (ragged_sock _ htext (Or.inr rfl))).bind_left _
  have hmask : ∀ mask : UInt16, (fmtPad 16 4 mask.toNat).length ≤ 800 := by
    intro mask
    have hdigits : (digits 16 mask.toNat).length ≤ 4 := length_digits_le (by decide) mask.toNat_lt
    rw [fmtPad, zeroPad, List.length_append, List.length_replicate]
    omega
  have hcap : lineCap = 79 := rfl
  cases command with
  | hello => exact calls_diag c fun j => checked_jsonObject _ j
  | capabilities => exact calls_diag c fun j => checked_jsonObject _ j
  | config => exact calls_diag c fun j => checked_jsonObject _ j
  | version => exact calls_diag c fun j => checked_jsonObject _ j
  | health =>
    refine Calls.bind_left (Calls.bind_right _ fun uptime => ?_) _
    exact (Calls.call (ragged_diag fd _ fun j => checked_jsonObject _ j)).bind_left _
  | clients =>
    refine Calls.bind_left (Calls.bind_right _ fun uptime => ?_) _
    exact (Calls.call (ragged_diag fd _ fun j => checked_jsonObject _ j)).bind_left _
  | rfcam =>
    have hsublist : (getdeviceaddr tokens).2 = tokens.tail := rfl
    rcases haddr : getdeviceaddr tokens with ⟨⟨house, unit⟩, tokens'⟩
    rw [haddr] at hsublist
    simp only [Command.speaks, haddr, nextToken, Bool.and_eq_true, decide_eq_true_eq] at h
    obtain ⟨hpos, hkey⟩ := h
    simp only [runCommand, rfcamCommand, haddr, nextToken, if_neg (not_lt.mpr hpos)]
    refine Calls.bind_right _ fun _ => ?_
    cases tokens' with
    | nil => cases hkey
    | cons keyname tokens'' =>
      have hnone : findCamRemoteCommand keyname = none := by
        simpa only [List.head?_cons, Option.any_some, decide_eq_true_eq] using hkey
      have hmem : keyname ∈ tokens := List.mem_of_mem_tail (by rw [← hsublist]; simp)
      have hlen := hshort keyname hmem
      have hhead : (ascii "Invalid command ").length = 16 := rfl
      simp only [List.head?_cons, hnone]
      refine (Calls.call (ragged_sock (ascii "Invalid command " ++ keyname) ?_
        (Or.inl rfl))).bind_left _
      rw [List.length_append]
      omega
  | rftopl =>
    have hhead : (ascii "RfToPl ").length = 7 := rfl
    have hlen := hmask (gethousecodes tokens).1
    have htext : (ascii "RfToPl " ++ fmtPad 16 4 (gethousecodes tokens).1.toNat).length ≤ 900 := by
      rw [List.length_append]
      omega
    exact Calls.bind_right _ fun _ => Calls.bind_right _ fun _ =>
      (Calls.call (ragged_sock _ htext (Or.inl rfl))).bind_left _
  | rftorf =>
    have hreply : Calls (Effect.Ragged fd) (rftorfReply fd) := by
      have hhead : (ascii "RfToRf ").length = 7 := rfl
      refine Calls.bind_right _ fun mask => Calls.call
        (ragged_sock (ascii "RfToRf " ++ fmtPad 16 4 mask.toNat) ?_ (Or.inl rfl))
      have hlen := hmask mask
      rw [List.length_append]
      omega
    simp only [Command.speaks, nextToken] at h
    refine Calls.bind_right _ fun _ => ?_
    cases tokens with
    | nil => exact hreply.bind_left _
    | cons arg rest =>
      simp only [List.head?_cons, Option.all_some, decide_eq_true_eq] at h
      obtain ⟨value, hvalue⟩ := Option.ne_none_iff_exists'.mp h
      simp only [nextToken, List.head?_cons, hvalue]
      exact Calls.bind_right _ fun _ => hreply.bind_left _
  | st =>
    simp only [Command.speaks, decide_eq_true_eq] at h
    simp only [runCommand, stCommand, if_neg h]
    refine Calls.bind_left (Calls.bind_left (Calls.call ?_) _) _
    exact ragged_sock (ascii "Device selected") (by decide) (Or.inl rfl)
  | info => exact hprint (ascii "Info") (by decide)
  | quit => exact hprint (ascii "Quit") (by decide)
  | help => exact hprint (ascii "Help") (by decide)
  | question => exact hprint (ascii "Help ?") (by decide)
  | hex =>
    cases tokens with
    | nil => cases h
    | cons arg rest =>
      have hlen := hshort arg List.mem_cons_self
      have hhead : (ascii "Hex ").length = 4 := rfl
      refine (Calls.call (ragged_sock (ascii "Hex " ++ arg) ?_ (Or.inr rfl))).bind_left _
      rw [List.length_append]
      omega
  | getstatus =>
    have hpos : 0 ≤ (getdeviceaddr tokens).1.1 ∧ 0 ≤ (getdeviceaddr tokens).1.2 := by
      simpa [Command.speaks] using h
    have hlevel : ∀ xdim : UInt8, (fmtNat xdim.toNat).length ≤ 900 :=
      fun xdim => (length_digits_le (k := 3) (by decide)
        (lt_trans xdim.toNat_lt (by decide))).trans (by decide)
    have honoff : ∀ status : UInt8,
        (if status = 0x31 then ascii "on" else ascii "off").length ≤ 900 := by
      intro status
      split
      · decide
      · decide
    simp only [runCommand, getstatusCommand, if_pos hpos]
    split
    · split
      · exact Calls.bind_right _ fun xdim =>
          (Calls.call (ragged_status fd _ (hlevel xdim))).bind_left _
      · exact (Calls.call (ragged_status fd (ascii "-1") (by decide))).bind_left _
    · exact Calls.bind_right _ fun status =>
        (Calls.call (ragged_status fd _ (honoff status))).bind_left _
  | getstatussec =>
    simp only [Command.speaks, decide_eq_true_eq] at h
    have honoff : ∀ status : ℤ, (if status = 1 then ascii "on" else ascii "off").length ≤ 900 := by
      intro status
      split
      · decide
      · decide
    simp only [runCommand, getstatussecCommand]
    split
    next heq =>
      rw [heq] at h
      exact absurd rfl h
    · exact Calls.bind_right _ fun status =>
        (Calls.call (ragged_status fd _ (honoff status))).bind_left _
  | pl | rf | rfsec | pt => cases h

/-! ### Lines -/

theorem length_le_of_mem_splitOnP {p : UInt8 → Bool} {line w : Bytes} (h : w ∈ line.splitOnP p) :
    w.length ≤ line.length := by
  induction line generalizing w with
  | nil =>
    rw [List.splitOnP_nil, List.mem_singleton] at h
    rw [h]
  | cons b line ih =>
    rw [List.splitOnP_cons_eq_if_modifyHead] at h
    split at h
    · rcases List.mem_cons.mp h with rfl | h
      · exact Nat.zero_le _
      · exact (ih h).trans (Nat.le_succ _)
    · cases hsplit : line.splitOnP p with
      | nil => exact absurd hsplit (List.splitOnP_ne_nil p line)
      | cons first others =>
        rw [hsplit] at h ih
        rcases List.mem_cons.mp h with rfl | h
        · exact Nat.succ_le_succ (ih List.mem_cons_self)
        · exact (ih (List.mem_cons_of_mem _ h)).trans (Nat.le_succ _)

/-- The tokens of a line are no longer than the line. -/
theorem length_le_of_mem_tokens {line t : Bytes} {tokens : List Bytes}
    (h : tokenizeCommand (strupper line) = some tokens) (ht : t ∈ tokens) :
    t.length ≤ line.length := by
  rw [tokenizeCommand] at h
  split at h
  · cases h
  · obtain rfl := Option.some.inj h
    have hlen := length_le_of_mem_splitOnP (List.mem_of_mem_filter ht)
    rwa [strupper, List.length_map] at hlen

variable (fd)

/-- **A line that is not answered** prints at most to all. -/
theorem emits_of_not_replied {line : Bytes} (hneg : c.or20client (-1) = false)
    (hp : ¬IsPolicyRequest line) (h : ¬Replied (c.or20client fd) line) :
    Emits (Effect.PrintsTo (-1)) (processcommandline c fd line) := by
  have hrelay : ∀ line, IsPl line → Emits (Effect.PrintsTo (-1)) (relayTo c (-1) line) :=
    fun _ hline => (emits_relayed c hneg 1 hline).bind fun _ => Emits.pure _
  have hne : strupper line ≠ policyRequest := hp
  simp only [Replied, Bool.not_eq_true] at h
  simp only [processcommandline, processDepth, processWith, if_neg hne]
  cases htokens : tokenizeCommand (strupper line) with
  | none =>
    rw [htokens] at h
    cases h
  | some tokens =>
    rw [htokens] at h
    cases tokens with
    | nil => exact Emits.pure _
    | cons name tokens =>
      simp only [repliedTokens] at h
      simp only [processTokens]
      cases hname : commandOf name with
      | none => exact Emits.pure _
      | some command =>
        simp only [hname, Bool.or_eq_false_iff, decide_eq_false_iff_not, not_not] at h
        obtain ⟨⟨hor, hspeaks⟩, hleft⟩ := h
        obtain ⟨m, flow, hrun, hm, hflow⟩ := mute_of_not_speaks c fd hrelay hspeaks
        have hack : acknowledge c fd command = pure () := by
          rw [acknowledge, or20ok]
          rcases Bool.and_eq_false_iff.mp hor with hor | hack
          · rw [hor]
            simp
          · rw [hack]
            simp
        have hfinish : Emits (Effect.PrintsTo (-1)) (finish fd flow) := by
          rcases hflow with rfl | ⟨-, value, rfl⟩
          · rw [hleft]
            exact Emits.pure _
          · exact Emits.pure _
        have heq : runCommand c (relayTo c) fd command tokens >>= finish fd =
            (do m; finish fd flow) := by
          rw [hrun, hack]
          simp only [bind_assoc, pure_bind]
        show Emits _ (runCommand c (relayTo c) fd command tokens >>= finish fd)
        rw [heq]
        exact hm.bind fun _ => hfinish

/-- **A line that is answered** gets an answer that is ragged. -/
theorem ragged_of_replied {line : Bytes} (hneg : c.or20client (-1) = false)
    (hlen : line.length ≤ lineCap) (h : Replied (c.or20client fd) line) :
    Calls (Effect.Ragged fd) (processcommandline c fd line) := by
  have hrelay : ∀ line, IsPl line → Emits (Effect.PrintsTo (-1)) (relayTo c (-1) line) :=
    fun _ hline => (emits_relayed c hneg 1 hline).bind fun _ => Emits.pure _
  have hne : strupper line ≠ policyRequest := by
    intro hpolicy
    rw [Replied, hpolicy] at h
    revert h
    cases c.or20client fd with
    | true | false => decide
  simp only [Replied] at h
  simp only [processcommandline, processDepth, processWith, if_neg hne]
  cases htokens : tokenizeCommand (strupper line) with
  | none =>
    refine (Calls.call ?_).bind_left _
    exact ragged_sock (ascii "Invalid command: too many arguments") (by decide) (Or.inl rfl)
  | some tokens =>
    rw [htokens] at h
    cases tokens with
    | nil => cases h
    | cons name tokens =>
      have hshort : ∀ t ∈ tokens, t.length ≤ lineCap := fun t ht =>
        (length_le_of_mem_tokens htokens (List.mem_cons_of_mem _ ht)).trans hlen
      simp only [repliedTokens] at h
      simp only [processTokens]
      cases hname : commandOf name with
      | none => simp only [hname, Bool.false_eq_true] at h
      | some command =>
        simp only [hname] at h
        show Calls _ (runCommand c (relayTo c) fd command tokens >>= finish fd)
        cases hspeaks : command.speaks tokens with
        | true => exact (calls_of_speaks c hspeaks hshort).bind_left _
        | false =>
          obtain ⟨m, flow, hrun, -, hflow⟩ := mute_of_not_speaks c fd hrelay hspeaks
          rw [hrun]
          simp only [bind_assoc, pure_bind]
          rw [hspeaks, Bool.or_false, Bool.or_eq_true] at h
          rcases h with hor | hleft
          · -- the client is told that the command was read
            obtain ⟨hor, hack⟩ := Bool.and_eq_true_iff.mp hor
            have htold : acknowledge c fd command = statusprintf fd (ascii "ok\n\r") := by
              rw [acknowledge, if_pos hack, or20ok, if_pos hor]
            rw [htold]
            refine (Calls.call ?_).bind_left _
            exact ragged_status fd (ascii "ok") (by decide)
          · -- an argument is left
            have hsome : leftArguments command tokens ≠ [] := of_decide_eq_true hleft
            have hrest := hflow.resolve_right fun h => hsome h.1
            obtain ⟨arg, rest, hargs⟩ := List.exists_cons_of_ne_nil hsome
            rw [hrest, hargs]
            refine Calls.bind_right _ fun _ => Calls.bind_right _ fun _ => ?_
            refine (Calls.call ?_).bind_left _
            exact ragged_sock (ascii "Invalid command: unexpected argument") (by decide)
              (Or.inl rfl)

end

end Mochad
