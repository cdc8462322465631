import Mochad.X10.Replies
import Mochad.X10.Stable

/-!
# The packets of a command

What a command is for is the packets that it hands to the controller. A function that hands
on none, and leaves the tables and the relay masks alone, is *inert* (`Inert`): reports and
answers are all that it makes.

A line that begins with `PL` is read as a `PlCommand` (`plCommandOf`), which says what is
sent; the arguments that are left over say only whether the line is complained about
afterwards.
-/

namespace Mochad

open X10M (Emits Preserves gets modify)

/-! ### Packets -/

namespace Effect

/-- The packet of a call, if it is one. -/
def packet : Effect → Option Bytes
  | .x10Write buf => some buf
  | _ => none

/-- No packet is sent. -/
def NotSent (e : Effect) : Prop := e.packet = none

end Effect

/-- **The packets among the calls**, in order. -/
def packets (es : List Effect) : List Bytes := es.filterMap Effect.packet

@[simp] theorem packets_nil : packets [] = [] := rfl

@[simp] theorem packets_append (es es' : List Effect) :
    packets (es ++ es') = packets es ++ packets es' := List.filterMap_append

theorem mem_packets {es : List Effect} {buf : Bytes} :
    buf ∈ packets es ↔ Effect.x10Write buf ∈ es := by
  rw [packets, List.mem_filterMap]
  constructor
  · rintro ⟨e, he, hbuf⟩
    cases e with
    | x10Write b => rwa [← Option.some.inj hbuf]
    | sockprintf | statusprintf | sendAll => cases hbuf
  · exact fun h => ⟨_, h, rfl⟩

theorem packets_eq_nil {α : Type} {m : X10M α} (h : Emits Effect.NotSent m) (s : X10State) :
    packets (m s).effects = [] :=
  List.filterMap_eq_nil_iff.mpr fun e he => h s e he

theorem notSent_dispatch (fd : ℤ) (e : MochadEvent) : Emits Effect.NotSent (mochadDispatchEvent fd e) := by
  rw [mochadDispatchEvent]
  split
  · exact Emits.pure _
  · exact Emits.call rfl

theorem notSent_decodePlc (fd : ℤ) (buf : Memory) (len : ℕ) :
    Emits Effect.NotSent (cm15aDecodePlc fd buf len) :=
  emits_decodePlc_of (fun e _ _ => notSent_dispatch fd e) buf len

theorem notSent_or20ok (c : Ctx) (fd : ℤ) : Emits Effect.NotSent (or20ok c fd) :=
  Emits.ite (Emits.call rfl) (Emits.pure _)

theorem notSent_finish (fd : ℤ) (flow : Flow) : Emits Effect.NotSent (finish fd flow) := by
  rw [finish.eq_def]
  split
  · exact Emits.pure _
  · exact Emits.pure _
  · exact Emits.bind (Emits.call rfl) fun _ => Emits.pure _

theorem packets_bind_finish {fd : ℤ} (m : X10M Flow) (s : X10State) :
    packets ((m >>= finish fd) s).effects = packets (m s).effects := by
  rw [X10M.bind_apply, packets_append, packets_eq_nil (notSent_finish fd _), List.append_nil]

/-! ### Lines -/

/-- The name and the arguments of a line. -/
def commandOfLine (line : Bytes) : Option (Command × List Bytes) :=
  match tokenizeCommand (strupper line) with
  | some (name :: tokens) => (commandOf name).map fun command => (command, tokens)
  | _ => none

section

variable {c : Ctx} {relay : ℤ → Bytes → X10M Unit} {fd : ℤ}

/-- The policy request is not a command. -/
theorem commandOfLine_ne_policy {line : Bytes} {a : Command × List Bytes}
    (h : commandOfLine line = some a) : strupper line ≠ policyRequest := by
  intro hpolicy
  rw [commandOfLine, hpolicy, show tokenizeCommand policyRequest = some [policyRequest] by decide] at h
  exact absurd h (by simp [show commandOf policyRequest = none by decide])

theorem processWith_commandOfLine {line : Bytes} {command : Command} {tokens : List Bytes}
    (h : commandOfLine line = some (command, tokens)) :
    processWith c relay fd line = runCommand c relay fd command tokens >>= finish fd := by
  rw [processWith, if_neg (commandOfLine_ne_policy h)]
  rw [commandOfLine] at h
  split at h
  next name tokens' htokens =>
    obtain ⟨command', hcommand, hpair⟩ := Option.map_eq_some_iff.mp h
    obtain ⟨rfl, rfl⟩ := Prod.mk.inj hpair
    simp only [htokens, processTokens, hcommand]
  · cases h

/-- What the decoder relays to, while a command is executed. -/
def relayTo (c : Ctx) (fd : ℤ) (line : Bytes) : X10M Unit := do
  let _ ← processDepth c 1 fd line

theorem processcommandline_of_line {line : Bytes} {command : Command} {tokens : List Bytes}
    (h : commandOfLine line = some (command, tokens)) :
    processcommandline c fd line = runCommand c (relayTo c) fd command tokens >>= finish fd :=
  processWith_commandOfLine h

end

/-! ### Functions without an effect -/

/-- The tables and the relay masks. -/
def X10State.tables (s : X10State) :
    ((Houseunitaddrs × Houseunitaddrs) × Houseunitaddrs × (ℤ → ℤ)) × List X10Secsensor ×
      UInt16 × UInt16 :=
  (s.devices, s.x10sensors, s.rfToPl16, s.rfToRf16)

/-- **A function without an effect**: it sends no packet, and keeps the tables and the masks. -/
structure Inert {α : Type} (m : X10M α) : Prop where
  sends : Emits Effect.NotSent m
  keeps : ∀ s, (m s).state.tables = s.tables

namespace Inert

variable {α β : Type}

theorem pure (a : α) : Inert (Pure.pure a : X10M α) := ⟨Emits.pure a, fun _ => rfl⟩

theorem gets (f : X10State → α) : Inert (X10M.gets f) := ⟨Emits.gets f, fun _ => rfl⟩

theorem modify {f : X10State → X10State} (hf : ∀ s, (f s).tables = s.tables) :
    Inert (X10M.modify f) := ⟨Emits.modify f, hf⟩

theorem sockprintf (fd : ℤ) (body : Bytes) : Inert (sockprintf fd body) :=
  ⟨Emits.call rfl, fun _ => rfl⟩

theorem statusprintf (fd : ℤ) (text : Bytes) : Inert (statusprintf fd text) :=
  ⟨Emits.call rfl, fun _ => rfl⟩

theorem sendAll (fd : ℤ) (bytes : Bytes) : Inert (sendAll fd bytes) :=
  ⟨Emits.call rfl, fun _ => rfl⟩

theorem bind {m : X10M α} {f : α → X10M β} (hm : Inert m) (hf : ∀ a, Inert (f a)) :
    Inert (m >>= f) :=
  ⟨hm.sends.bind fun a => (hf a).sends, fun s => ((hf _).keeps _).trans (hm.keeps s)⟩

theorem ite {p : Prop} [Decidable p] {m n : X10M α} (hm : Inert m) (hn : Inert n) :
    Inert (if p then m else n) := by
  split
  · exact hm
  · exact hn

theorem timeNow (env : Env) : Inert (timeNow env) :=
  (gets _).bind fun _ => (modify (by intro; rfl)).bind fun _ => pure _

theorem or20ok (c : Ctx) (fd : ℤ) : Inert (or20ok c fd) := ite (statusprintf _ _) (pure _)

theorem finish (fd : ℤ) (flow : Flow) : Inert (finish fd flow) := by
  rw [finish.eq_def]
  split
  · exact pure _
  · exact pure _
  · exact (sockprintf _ _).bind fun _ => pure _

theorem sendDiagJson (c : Ctx) (fd : ℤ) (json : Option Bytes) : Inert (sendDiagJson c fd json) :=
  (statusprintf _ _).bind fun _ => pure _

theorem uptimeSeconds (env : Env) : Inert (uptimeSeconds env) :=
  ite (pure _) ((timeNow env).bind fun _ => pure _)

theorem printCommand (fd : ℤ) (text : Bytes) : Inert (printCommand fd text) :=
  (sockprintf _ _).bind fun _ => pure _

theorem diagCommand {diag : X10M ℤ} (h : Inert diag) : Inert (diagCommand diag) :=
  h.bind fun _ => pure _

end Inert

/-! ### Printing the state -/

/-- What `qsort` leaves. -/
def sortSensors (s : X10State) : X10State :=
  { s with x10sensors := s.x10sensors.insertionSort fun a b => cmpX10sensor a b ≤ 0 }

/-- The part of `hua_show` before the table of sensors is sorted. -/
def showDevices (fd : ℤ) : X10M Unit := do
  sockprintf fd (ascii "Device selected\n\r")
  let selected ← gets (·.houseUnitSelected)
  units.forM fun h => showHouse fd h
    ((units.filter fun (u : ℕ) => selected h u ≠ 0).map fun u => fmtNat (u + 1))
  sockprintf fd (ascii "Device status\n\r")
  let status ← gets (·.houseUnitState)
  units.forM fun h => showHouse fd h
    ((units.filter fun (u : ℕ) => status h u ≠ 0).map fun u =>
      fmtNat (u + 1) ++ ascii "=" ++ [status h u])
  sockprintf fd (ascii "Security sensor status\n\r")

/-- The line of one sensor. -/
def showSensor (env : Env) (fd : ℤ) (sen : X10Secsensor) : X10M Unit := do
  let now ← timeNow env
  let deltat : ℤ := (now : ℤ) - sen.lastupdate
  let mins := deltat.tdiv 60
  let message := if sen.secaddr8 then findSecRemoteKeyName sen.sensorstatus
    else findSecEventName sen.sensorstatus
  sockprintf fd (ascii "Sensor addr: " ++ fmtPad 16 6 sen.secaddr ++ ascii " Last: " ++
    fmtInt2 mins ++ ascii ":" ++ fmtInt2 (deltat - mins * 60) ++ ascii " " ++ fmtStr message ++
    ascii " \n\r")

/-- **Showing the state** sorts the table of sensors in between. -/
theorem huaShow_eq (env : Env) (fd : ℤ) : huaShow env fd = (do
    showDevices fd
    modify sortSensors
    let sensors ← gets (·.x10sensors)
    sensors.forM (showSensor env fd)
    sockprintf fd (ascii "End status\n\r")) := by
  simp only [huaShow, showDevices, bind_assoc]
  rfl

namespace Inert

theorem forM {β : Type} {l : List β} {f : β → X10M PUnit} (hf : ∀ b, Inert (f b)) :
    Inert (l.forM f) := by
  induction l with
  | nil => exact pure _
  | cons b l ih => exact (hf b).bind fun _ => ih

theorem showDevices (fd : ℤ) : Inert (showDevices fd) := by
  have hhouse : ∀ house items, Inert (showHouse fd house items) :=
    fun house items => ite (pure _) (sockprintf _ _)
  exact (sockprintf _ _).bind fun _ => (gets _).bind fun _ => (forM fun _ => hhouse _ _).bind fun _ =>
    (sockprintf _ _).bind fun _ => (gets _).bind fun _ => (forM fun _ => hhouse _ _).bind fun _ =>
    sockprintf _ _

theorem showSensor (env : Env) (fd : ℤ) (sen : X10Secsensor) : Inert (showSensor env fd sen) :=
  (timeNow env).bind fun _ => sockprintf _ _

/-- What is shown of the sensors. -/
theorem showSensors (env : Env) (fd : ℤ) : Inert (do
    let sensors ← X10M.gets (·.x10sensors)
    sensors.forM (Mochad.showSensor env fd)
    Mochad.sockprintf fd (ascii "End status\n\r")) :=
  (gets _).bind fun _ => (forM fun _ => showSensor env fd _).bind fun _ => sockprintf _ _

end Inert

/-- An update between two functions without an effect. -/
theorem tables_modify {α β : Type} {m : X10M α} {n : X10M β} (hm : Inert m) (hn : Inert n)
    {f : X10State → X10State} (hf : ∀ s t, t.tables = s.tables → (f t).tables = (f s).tables)
    (s : X10State) : ((do let _ ← m; modify f; n) s).state.tables = (f s).tables :=
  (hn.keeps _).trans (hf _ _ (hm.keeps s))

/-- **Showing the state** sends nothing, and sorts the table of sensors. -/
theorem huaShow_spec (env : Env) (fd : ℤ) (s : X10State) :
    packets (huaShow env fd s).effects = [] ∧
      (huaShow env fd s).state.tables = (sortSensors s).tables := by
  have hdevices := Inert.showDevices fd
  have hsensors := Inert.showSensors env fd
  rw [huaShow_eq]
  refine ⟨packets_eq_nil (hdevices.sends.bind fun _ => (Emits.modify _).bind fun _ =>
    hsensors.sends) s, tables_modify hdevices hsensors (fun s t h => ?_) s⟩
  simp only [X10State.tables, Prod.mk.injEq] at h
  obtain ⟨hdev, hsen, hpl, hrf⟩ := h
  have hframe : ∀ t : X10State, (sortSensors t).devices = t.devices := fun _ => rfl
  simp only [X10State.tables, hframe, hdev]
  simp only [sortSensors, hsen, hpl, hrf]

/-! ### Power-line commands -/

/-- The bytes that a unit is addressed with. -/
def houseunitPacket (house unit : ℤ) : Bytes :=
  [0x04, houseByte x10housecode house (tableAt x10housecode unit)]

/-- The bytes of an extended code. -/
def extendedPacket (house unit command subcmd param : ℤ) : Bytes :=
  [0x07, houseByte x10housecode house 0x7, tableAt x10housecode unit, lowByte param,
    (lowByte command <<< 4) ||| (lowByte subcmd &&& 0x0F)]

/-- The bytes of a function other than an extended one. -/
def housefuncPacket (house func param : ℤ) : Bytes :=
  if func = 4 ∨ func = 5 then
    [0x06, houseByte x10housecode house (lowByte func), 0x06 ||| lowByte ((param % 32) * 8)]
  else [0x06, houseByte x10housecode house (lowByte func)]

section

variable (env : Env) (s : X10State)

theorem packets_plTxHouseunit (house unit : ℤ) :
    packets (plTxHouseunit env house unit s).effects = [houseunitPacket house unit] := by
  simp only [plTxHouseunit, X10M.bind_apply, packets_append, packets_eq_nil (notSent_decodePlc _ _ _)]
  rfl

theorem packets_plTxExtendedCode1 (house unit command subcmd param : ℤ) :
    packets (plTxExtendedCode1 env house unit command subcmd param s).effects =
      [extendedPacket house unit command subcmd param] := by
  simp only [plTxExtendedCode1, X10M.bind_apply, packets_append,
    packets_eq_nil (notSent_decodePlc _ _ _)]
  rfl

theorem packets_plTxHousefunc {house func param : ℤ} (hfunc : func ≠ 16) :
    packets (plTxHousefunc env house func param s).effects = [housefuncPacket house func param] := by
  rw [plTxHousefunc, housefuncPacket]
  by_cases hdim : func = 4 ∨ func = 5
  · simp only [if_pos hdim, X10M.bind_apply, packets_append, packets_eq_nil (notSent_decodePlc _ _ _)]
    rfl
  · simp only [if_neg hdim, if_neg hfunc, X10M.bind_apply, packets_append,
      packets_eq_nil (notSent_decodePlc _ _ _)]
    rfl

end

/-- **What a power-line command sends.** -/
inductive PlCommand
  /-- A unit is addressed, and no function follows. -/
  | select (house unit : ℤ)
  /-- A function of the units that are addressed. -/
  | toHouse (house func param : ℤ)
  /-- A unit, and then a function. -/
  | toUnit (house unit func param : ℤ)
  | extended (house unit command subcmd param : ℤ)
  deriving DecidableEq

/-- The power-line command of the arguments, and the arguments that are left. -/
def plCommandOf (tokens : List Bytes) : Option (PlCommand × List Bytes) :=
  let ((house, unit), tokens) := getdeviceaddr tokens
  let (func, tokens) := getfunc tokens
  if house < 0 then none
  else if unit < 0 then
    if func < 0 ∨ func = 16 then none
    else if func = 4 ∨ func = 5 then
      let (param, tokens) := getparamOr 1 tokens
      some (.toHouse house func param, tokens)
    else some (.toHouse house func 0, tokens)
  else if func < 0 then some (.select house unit, tokens)
  else if func = 16 then
    let (param, tokens) := getparamOr 1 tokens
    some (.extended house unit 3 1 param, tokens)
  else if func = 4 ∨ func = 5 then
    let (param, tokens) := getparamOr 1 tokens
    some (.toUnit house unit func param, tokens)
  else if func = 7 then
    let (extcommand, tokens) := getparamOr 0 tokens
    let (subcmd, tokens) := getparamOr 0 tokens
    let (data, tokens) := getparamOr 0 tokens
    some (.extended house unit extcommand subcmd data, tokens)
  else some (.toUnit house unit func 0, tokens)

namespace PlCommand

/-- It is sent. -/
def send (env : Env) : PlCommand → X10M Unit
  | select house unit => plTxHouseunit env house unit
  | toHouse house func param => plTxHousefunc env house func param
  | toUnit house unit func param => do
      plTxHouseunit env house unit
      plTxHousefunc env house func param
  | extended house unit command subcmd param =>
      plTxExtendedCode1 env house unit command subcmd param

/-- Its packets. -/
def sent : PlCommand → List Bytes
  | select house unit => [houseunitPacket house unit]
  | toHouse house func param => [housefuncPacket house func param]
  | toUnit house unit func param => [houseunitPacket house unit, housefuncPacket house func param]
  | extended house unit command subcmd param => [extendedPacket house unit command subcmd param]

/-- A unit without a function is refused, though it is sent. -/
def flow (rest : List Bytes) : PlCommand → Flow
  | select _ _ => .ret (-1)
  | _ => .rest rest

/-- Its function is not an extended dim. -/
def Plain : PlCommand → Prop
  | toHouse _ func _ => func ≠ 16
  | toUnit _ _ func _ => func ≠ 16
  | _ => True

theorem packets_send {cmd : PlCommand} (h : cmd.Plain) (env : Env) (s : X10State) :
    packets (cmd.send env s).effects = cmd.sent := by
  cases cmd with
  | select house unit => exact packets_plTxHouseunit env s house unit
  | toHouse house func param => exact packets_plTxHousefunc env s h
  | toUnit house unit func param =>
    simp only [send, X10M.bind_apply, packets_append, packets_plTxHouseunit,
      packets_plTxHousefunc env _ h]
    rfl
  | extended house unit command subcmd param => exact packets_plTxExtendedCode1 env s _ _ _ _ _

theorem sent_ne_nil (cmd : PlCommand) : cmd.sent ≠ [] := by
  cases cmd
  all_goals exact List.cons_ne_nil _ _

end PlCommand

variable {c : Ctx} {fd : ℤ} {tokens rest : List Bytes} {cmd : PlCommand}

/-- **A power-line command is sent**, whatever arguments are left. -/
theorem plCommand_of_plCommandOf (c : Ctx) (fd : ℤ) (h : plCommandOf tokens = some (cmd, rest)) :
    cmd.Plain ∧ plCommand c fd tokens = (do
      or20ok c fd
      cmd.send c.env
      pure (cmd.flow rest)) := by
  rcases haddr : getdeviceaddr tokens with ⟨⟨house, unit⟩, tokens'⟩
  rcases hfunc : getfunc tokens' with ⟨func, tokens''⟩
  simp only [plCommandOf, haddr, hfunc] at h
  simp only [plCommand, haddr, plHouse, plUnit, hfunc]
  split at h
  · cases h
  next hhouse =>
    rw [if_neg hhouse]
    split at h
    next hunit =>
      rw [if_pos hunit]
      split at h
      · cases h
      next hok =>
        rw [if_neg hok]
        obtain ⟨-, hxdim⟩ := not_or.mp hok
        split at h
        next hdim =>
          rw [if_pos hdim]
          obtain ⟨rfl, rfl⟩ := Prod.mk.inj (Option.some.inj h)
          exact ⟨hxdim, rfl⟩
        next hdim =>
          rw [if_neg hdim]
          obtain ⟨rfl, rfl⟩ := Prod.mk.inj (Option.some.inj h)
          exact ⟨hxdim, rfl⟩
    next hunit =>
      rw [if_neg hunit]
      split at h
      next hneg =>
        rw [if_pos hneg]
        obtain ⟨rfl, rfl⟩ := Prod.mk.inj (Option.some.inj h)
        exact ⟨trivial, rfl⟩
      next hneg =>
        rw [if_neg hneg]
        split at h
        next hxdim =>
          rw [if_pos hxdim]
          obtain ⟨rfl, rfl⟩ := Prod.mk.inj (Option.some.inj h)
          exact ⟨trivial, rfl⟩
        next hxdim =>
          rw [if_neg hxdim]
          split at h
          next hdim =>
            rw [if_pos hdim]
            obtain ⟨rfl, rfl⟩ := Prod.mk.inj (Option.some.inj h)
            exact ⟨hxdim, by simp only [PlCommand.send, PlCommand.flow, bind_assoc]⟩
          next hdim =>
            rw [if_neg hdim]
            split at h
            next hext =>
              rw [if_pos hext]
              obtain ⟨rfl, rfl⟩ := Prod.mk.inj (Option.some.inj h)
              exact ⟨trivial, rfl⟩
            next hext =>
              rw [if_neg hext]
              obtain ⟨rfl, rfl⟩ := Prod.mk.inj (Option.some.inj h)
              exact ⟨hxdim, by simp only [PlCommand.send, PlCommand.flow, bind_assoc]⟩

/-- **Any other line of this command sends nothing**, and is refused. -/
theorem plCommand_of_plCommandOf_eq_none (h : plCommandOf tokens = none) :
    plCommand c fd tokens = (do
      or20ok c fd
      pure (.ret (-1))) := by
  rcases haddr : getdeviceaddr tokens with ⟨⟨house, unit⟩, tokens'⟩
  rcases hfunc : getfunc tokens' with ⟨func, tokens''⟩
  simp only [plCommandOf, haddr, hfunc] at h
  simp only [plCommand, haddr, plHouse, hfunc]
  split at h
  next hhouse => rw [if_pos hhouse]
  next hhouse =>
    rw [if_neg hhouse]
    split at h
    next hunit =>
      rw [if_pos hunit]
      split at h
      next hok => rw [if_pos hok]
      · split_ifs at h
    · split_ifs at h

/-- **The packets of a power-line command.** -/
theorem packets_pl {line : Bytes} (hline : commandOfLine line = some (.pl, tokens))
    (hcmd : plCommandOf tokens = some (cmd, rest)) (s : X10State) :
    packets (processcommandline c fd line s).effects = cmd.sent := by
  obtain ⟨hplain, hrun⟩ := plCommand_of_plCommandOf c fd hcmd
  rw [processcommandline_of_line hline, packets_bind_finish]
  show packets (plCommand c fd tokens s).effects = _
  rw [hrun, X10M.bind_apply, packets_append, packets_eq_nil (notSent_or20ok c fd), List.nil_append,
    X10M.bind_apply, packets_append, PlCommand.packets_send hplain]
  exact List.append_nil _

/-- A power-line command that is refused. -/
theorem pl_refused (c : Ctx) (fd : ℤ) {line : Bytes} (hline : commandOfLine line = some (.pl, tokens))
    (hcmd : plCommandOf tokens = none) (s : X10State) :
    packets (processcommandline c fd line s).effects = [] ∧
      (processcommandline c fd line s).value = -1 := by
  rw [processcommandline_of_line hline]
  have hrun : runCommand c (relayTo c) fd .pl tokens = (do or20ok c fd; pure (.ret (-1))) :=
    plCommand_of_plCommandOf_eq_none hcmd
  rw [hrun]
  refine ⟨?_, rfl⟩
  rw [packets_bind_finish, X10M.bind_apply, packets_append, packets_eq_nil (notSent_or20ok c fd)]
  rfl

end Mochad
