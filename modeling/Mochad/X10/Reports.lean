import Mochad.X10.PowerLine
import Mochad.X10.Sensors
import Mochad.X10.StandardFrames

/-!
# Reports

What a packet or a command is reported as is a list of events, which the dispatching functions fill
in from the tables of names. `packetEvents` and `commandEvents` are these lists, function by
function as the events are filled in, and `Reports` compares them with what is printed: the lines
that begin with the direction of an event are the texts of the events, in order.

An event is reported as a whole (`MochadEvent.Whole`) if every string that its format prints is
there and the text fits the buffer of `mochad_dispatch_event`. Everything is, with one exception:
the function of a security frame that is in no table (`reported_whole`).
-/

namespace Mochad

open X10M (Emits gets modify)

/-! ### What is reported -/

/-- A text that begins with the direction of an event. -/
def Directed (text : Bytes) : Prop := ascii "Rx " <+: text ∨ ascii "Tx " <+: text

instance (text : Bytes) : Decidable (Directed text) :=
  inferInstanceAs (Decidable (ascii "Rx " <+: text ∨ ascii "Tx " <+: text))

/-- **The lines of events** among what is printed. -/
def eventLines (es : List Effect) : List Bytes :=
  es.filterMap fun e =>
    match e with
    | .sockprintf _ text => if Directed text then some text else none
    | _ => none

/-- The line of each event that the buffer of `mochad_dispatch_event` holds. -/
def dispatched (events : List MochadEvent) : List Bytes :=
  events.filterMap fun e => (mochadEventFormatLegacyBody e 256).map (· ++ ascii "\n")

/-- **A function passes on these events**, and reports no others. -/
def Reports {α : Type} (m : X10M α) (s : X10State) (events : List MochadEvent) : Prop :=
  eventLines (m s).effects = dispatched events

/-- A call that reports no event. -/
def Effect.Unreported (e : Effect) : Prop := eventLines [e] = []

theorem unreported_sockprintf {text : Bytes} (h : ¬Directed text) (fd : ℤ) :
    Effect.Unreported (.sockprintf fd text) := by
  simp [Effect.Unreported, eventLines, h]

theorem Undirected.not_directed {text : Bytes} (h : Undirected text) : ¬Directed text := by
  rintro (⟨rest, rfl⟩ | ⟨rest, rfl⟩)
  · exact absurd h (by simp [Undirected, ascii])
  · exact absurd h (by simp [Undirected, ascii])

theorem Undirected.unreported {text : Bytes} (h : Undirected text) (fd : ℤ) :
    Effect.Unreported (.sockprintf fd text) :=
  unreported_sockprintf h.not_directed fd

/-- The text of an event is directed. -/
theorem directed_legacyBody (e : MochadEvent) : Directed (legacyBody e ++ ascii "\n") := by
  obtain ⟨rest, hbody⟩ := legacyBody_head e
  rw [hbody, List.append_assoc, List.append_assoc]
  cases e.direction with
  | rx => exact Or.inl ⟨_, rfl⟩
  | tx => exact Or.inr ⟨_, rfl⟩

namespace Reports

variable {α β : Type} {m : X10M α} {s : X10State} {events events' : List MochadEvent}

theorem quiet (h : Emits Effect.Unreported m) (s : X10State) : Reports m s [] := by
  refine List.filterMap_eq_nil_iff.mpr fun e he => ?_
  exact List.filterMap_eq_nil_iff.mp (h s e he) e (List.mem_singleton_self e)

theorem dispatch (fd : ℤ) (e : MochadEvent) (s : X10State) :
    Reports (mochadDispatchEvent fd e) s [e] := by
  rw [Reports, mochadDispatchEvent, dispatched, List.filterMap_cons, List.filterMap_nil]
  cases hbody : mochadEventFormatLegacyBody e 256 with
  | none => rfl
  | some body =>
    have hdirected : Directed (body ++ ascii "\n") := by
      rw [mochadEventFormatLegacyBody, checkedSnprintf] at hbody
      split at hbody
      · obtain rfl := Option.some.inj hbody
        exact directed_legacyBody e
      · cases hbody
    show eventLines [.sockprintf fd (body ++ ascii "\n")] = _
    simp [eventLines, hdirected]

theorem bind {f : α → X10M β} (hm : Reports m s events)
    (hf : Reports (f (m s).value) (m s).state events') : Reports (m >>= f) s (events ++ events') := by
  rw [Reports, dispatched] at hm hf ⊢
  rw [X10M.bind_apply, List.filterMap_append, ← hm, ← hf]
  exact List.filterMap_append

theorem bind_quiet {f : α → X10M β} (hm : Reports m s events)
    (hf : ∀ a, Emits Effect.Unreported (f a)) : Reports (m >>= f) s events := by
  have := hm.bind (quiet (hf _) _)
  rwa [List.append_nil] at this

theorem quiet_bind {f : α → X10M β} (hm : Emits Effect.Unreported m)
    (hf : Reports (f (m s).value) (m s).state events) : Reports (m >>= f) s events :=
  (quiet hm s).bind hf

theorem ite {p : Prop} [Decidable p] {n : X10M α} (hm : Reports m s events)
    (hn : Reports n s events') :
    Reports (if p then m else n) s (if p then events else events') := by
  split
  · exact hm
  · exact hn

end Reports

/-! ### Whole events -/

/-- **Every string that the format of an event prints is there.** Only the bare address of a unit
has a form without a function. -/
def MochadEvent.Complete (event : MochadEvent) : Prop :=
  match event.detail with
  | .houseUnit => event.hasExtendedData = true → event.function ≠ none
  | .house | .rfsecShort | .rfsecLong => event.function ≠ none
  | .rfcam => event.cameraCommand ≠ none

/-- **An event is reported as a whole**: its text is defined, and the buffer holds it. -/
structure MochadEvent.Whole (event : MochadEvent) : Prop where
  complete : event.Complete
  fits : (legacyBody event).length < 256

/-- All events are reported as a whole. -/
def AllWhole (events : List MochadEvent) : Prop := ∀ e ∈ events, e.Whole

namespace AllWhole

theorem nil : AllWhole [] := fun _ h => absurd h List.not_mem_nil

theorem singleton {event : MochadEvent} (hcomplete : event.Complete)
    (hfits : (legacyBody event).length < 256) : AllWhole [event] :=
  List.forall_mem_singleton.mpr ⟨hcomplete, hfits⟩

theorem ite {p : Prop} [Decidable p] {events events' : List MochadEvent} (h : AllWhole events)
    (h' : AllWhole events') : AllWhole (if p then events else events') := by
  split
  · exact h
  · exact h'

end AllWhole

/-! ### The power line -/

section PowerLine

variable (marker house : UInt8) (unit : ℤ) (function : Option Bytes)

/-- The event that `dispatch_pl_houseunit` fills in. -/
def plHouseunitEvent : MochadEvent where
  direction := plDirection marker
  transport := .pl
  detail := .houseUnit
  house := house
  unit := unit
  function := function

/-- The event that `dispatch_pl_house` fills in. -/
def plHouseEvent : MochadEvent where
  direction := plDirection marker
  transport := .pl
  detail := .house
  house := house
  function := function

/-- The event that `dispatch_pl_house_level` fills in. -/
def plHouseLevelEvent (level : ℤ) : MochadEvent where
  direction := plDirection marker
  transport := .pl
  detail := .house
  house := house
  function := function
  hasLevel := true
  level := level

/-- The event that `dispatch_pl_extended` fills in. -/
def plExtendedEvent (data command : ℕ) : MochadEvent where
  direction := plDirection marker
  transport := .pl
  detail := .houseUnit
  house := house
  unit := unit
  function := function
  hasExtendedData := true
  extendedData := data
  extendedCommand := command

variable {marker house unit function}

theorem length_labels (d : Direction) (t : Transport) :
    (directionLabel d).length = 2 ∧ (transportLabel t).length ≤ 5 := by
  cases d
  all_goals
    cases t
    all_goals decide

/-- The texts between the fields of an event. -/
theorem length_between : (ascii " ").length = 1 ∧ ((ascii " HouseUnit: ").length = 12 ∧
    (ascii " House: ").length = 8) ∧ ((ascii " Func: ").length = 7 ∧
    (ascii " Data: ").length = 7) ∧ ((ascii " Command: ").length = 10 ∧
    (ascii "(").length = 1 ∧ (ascii ")").length = 1) ∧ ((ascii " Addr: 0x").length = 9 ∧
    (ascii " Addr: ").length = 7 ∧ (ascii ":").length = 1) := by
  decide

theorem whole_plHouseunitEvent (hunit : (fmtInt unit).length ≤ 2) :
    AllWhole [plHouseunitEvent marker house unit none] := by
  have hlabels := length_labels (plDirection marker) .pl
  have hfixed := length_between
  refine AllWhole.singleton nofun ?_
  simp only [legacyBody, plHouseunitEvent, if_true, if_false, Bool.false_eq_true,
    List.length_append, List.length_singleton]
  omega

theorem whole_plHouseEvent (hfunction : function ≠ none) (hname : (fmtStr function).length ≤ 40) :
    AllWhole [plHouseEvent marker house function] := by
  have hlabels := length_labels (plDirection marker) .pl
  have hfixed := length_between
  refine AllWhole.singleton hfunction ?_
  simp only [legacyBody, plHouseEvent, if_false, Bool.false_eq_true, List.length_append,
    List.length_singleton]
  omega

theorem whole_plHouseLevelEvent {level : ℤ} (hfunction : function ≠ none)
    (hname : (fmtStr function).length ≤ 40) (hlevel : (fmtInt level).length ≤ 2) :
    AllWhole [plHouseLevelEvent marker house function level] := by
  have hlabels := length_labels (plDirection marker) .pl
  have hfixed := length_between
  refine AllWhole.singleton hfunction ?_
  simp only [legacyBody, plHouseLevelEvent, if_true, List.length_append, List.length_singleton]
  omega

theorem whole_plExtendedEvent (data command : UInt8) (hfunction : function ≠ none)
    (hname : (fmtStr function).length ≤ 40) (hunit : (fmtInt unit).length ≤ 2) :
    AllWhole [plExtendedEvent marker house unit function data.toNat command.toNat] := by
  have hlabels := length_labels (plDirection marker) .pl
  have hfixed := length_between
  refine AllWhole.singleton (fun _ => hfunction) ?_
  simp only [legacyBody, plExtendedEvent, if_true, List.length_append, List.length_singleton,
    length_fmtHex2]
  omega

/-- The event that `cm15a_decode_plc` passes on. -/
def plcEvents (buf : Memory) (len : ℕ) : List MochadEvent :=
  if len < 4 then []
  else if 8 < len then []
  else if buf 2 = 0x00 then
    if buf 1 ≠ 2 then []
    else [plHouseunitEvent (buf 0) (hucDecode (buf 3)).1 (hucDecode (buf 3)).2 none]
  else if buf 2 = 0x01 then
    if buf 1 ≠ 2 then []
    else [plHouseEvent (buf 0) (hfcDecode (buf 3)).1 (funcnameAt (hfcDecode (buf 3)).2)]
  else if buf 2 = 0x02 then
    if buf 1 ≠ 3 then []
    else [plHouseLevelEvent (buf 0) (hfcDecode (buf 4)).1 (funcnameAt (hfcDecode (buf 4)).2)
      ((buf 3 &&& 0xF8) >>> 3).toNat]
  else if buf 2 = 0x07 then
    if len ≠ 7 then []
    else [plExtendedEvent (buf 0) (hfcDecode (buf 3)).1 (ucDecode (buf 4))
      (funcnameAt (hfcDecode (buf 3)).2) (buf 5).toNat (buf 6).toNat]
  else if buf 2 = 0x08 then
    if len ≠ 7 then []
    else [plExtendedEvent (buf 0) (hfcDecode (buf 6)).1 (ucDecode (buf 5))
      (funcnameAt (hfcDecode (buf 6)).2) (buf 4).toNat (buf 3).toNat]
  else []

theorem reports_decodePlc (fd : ℤ) (buf : Memory) (len : ℕ) (s : X10State) :
    Reports (cm15aDecodePlc fd buf len) s (plcEvents buf len) := by
  have hquiet : ∀ s, Reports (pure () : X10M Unit) s [] := Reports.quiet (Emits.pure _)
  have happly : ∀ house func, Emits Effect.Unreported (applyHouseFunc house func) :=
    fun house func => Emits.ite (Emits.modify _) (Emits.ite (Emits.modify _)
      (Emits.ite (Emits.modify _) (Emits.ite (Emits.modify _) (Emits.pure _))))
  refine Reports.ite (hquiet s) (Reports.ite (hquiet s)
    (Reports.ite (Reports.ite (hquiet s) ?_) (Reports.ite (Reports.ite (hquiet s) ?_)
    (Reports.ite (Reports.ite (hquiet s) ?_) (Reports.ite (Reports.ite (hquiet s) ?_)
    (Reports.ite (Reports.ite (hquiet s) ?_) (hquiet s)))))))
  · exact Reports.quiet_bind (Emits.modify _) (Reports.dispatch fd
      (plHouseunitEvent (buf 0) (hucDecode (buf 3)).1 (hucDecode (buf 3)).2 none) _)
  · exact Reports.quiet_bind (happly _ _) (Reports.dispatch fd
      (plHouseEvent (buf 0) (hfcDecode (buf 3)).1 (funcnameAt (hfcDecode (buf 3)).2)) _)
  · exact Reports.dispatch fd (plHouseLevelEvent (buf 0) (hfcDecode (buf 4)).1
      (funcnameAt (hfcDecode (buf 4)).2) ((buf 3 &&& 0xF8) >>> 3).toNat) _
  · exact (Reports.dispatch fd (plExtendedEvent (buf 0) (hfcDecode (buf 3)).1 (ucDecode (buf 4))
      (funcnameAt (hfcDecode (buf 3)).2) (buf 5).toNat (buf 6).toNat) _).bind_quiet
        fun _ => Emits.modify _
  · exact (Reports.dispatch fd (plExtendedEvent (buf 0) (hfcDecode (buf 6)).1 (ucDecode (buf 5))
      (funcnameAt (hfcDecode (buf 6)).2) (buf 4).toNat (buf 3).toNat) _).bind_quiet
        fun _ => Emits.modify _

/-- **What the power line reports is whole**, whatever the packet. -/
theorem whole_plcEvents (buf : Memory) (len : ℕ) : AllWhole (plcEvents buf len) := by
  have hname : ∀ hf : UInt8, funcnameAt (hfcDecode hf).2 ≠ none := by
    refine forall_byte ?_
    decide +kernel
  have hunit : ∀ {unit : ℤ}, IsUnit (unit - 1) → (fmtInt unit).length ≤ 2 := by
    intro unit hu
    have hall : ∀ u : Fin 16, (fmtInt (((u : ℕ) : ℤ) + 1)).length ≤ 2 := by decide
    obtain ⟨u, hu'⟩ := IsUnit.exists_fin hu
    rw [show unit = ((u : ℕ) : ℤ) + 1 by omega]
    exact hall u
  have hdims : ∀ b : UInt8, (fmtInt (((b &&& 0xF8) >>> 3).toNat : ℤ)).length ≤ 2 :=
    forall_byte (by decide +kernel)
  refine AllWhole.ite .nil (AllWhole.ite .nil (AllWhole.ite (AllWhole.ite .nil ?_)
    (AllWhole.ite (AllWhole.ite .nil ?_) (AllWhole.ite (AllWhole.ite .nil ?_)
    (AllWhole.ite (AllWhole.ite .nil ?_) (AllWhole.ite (AllWhole.ite .nil ?_) .nil))))))
  · exact whole_plHouseunitEvent (hunit (isUnit_hucDecode _))
  · exact whole_plHouseEvent (hname _) (length_funcnameAt _)
  · exact whole_plHouseLevelEvent (hname _) (length_funcnameAt _) (hdims _)
  · exact whole_plExtendedEvent _ _ (hname _) (length_funcnameAt _) (hunit (isUnit_ucDecode _))
  · exact whole_plExtendedEvent _ _ (hname _) (length_funcnameAt _) (hunit (isUnit_ucDecode _))

end PowerLine

/-! ### Power-line commands -/

section PowerLineCommands

variable (env : Env)

/-- The events of `pl_tx_houseunit`. -/
def plTxHouseunitEvents (house unit : ℤ) : List MochadEvent :=
  plcEvents (Memory.ofBytes [0x00, 0x02, 0x00,
    houseByte x10housecode house (tableAt x10housecode unit)] env.stack) 4

/-- The events of `pl_tx_extended_code_1`. -/
def plTxExtendedCode1Events (house unit command subcmd param : ℤ) : List MochadEvent :=
  plcEvents (Memory.ofBytes [0x00, 0x05, 0x07, houseByte x10housecode house 0x7,
    tableAt x10housecode unit, lowByte param,
    (lowByte command <<< 4) ||| (lowByte subcmd &&& 0x0F)] env.stack) 7

/-- The events of `pl_tx_housefunc`. -/
def plTxHousefuncEvents (house func param : ℤ) : List MochadEvent :=
  if func = 4 ∨ func = 5 then
    plcEvents (Memory.ofBytes [0x00, 0x03, 0x02, lowByte ((param % 32) * 8) ||| 0x01,
      houseByte x10housecode house (lowByte func)] env.stack) 5
  else if func = 16 then
    plcEvents (Memory.ofBytes [0x00, 0x05, 0x07, houseByte x10housecode house 0x7, 0x02,
      lowByte param, 0x31] env.stack) 7
  else
    plcEvents (Memory.ofBytes [0x00, 0x02, 0x01, houseByte x10housecode house (lowByte func)]
      env.stack) 4

/-- **The events of a power-line command**: those of its packets. -/
def PlCommand.events : PlCommand → List MochadEvent
  | select house unit => plTxHouseunitEvents env house unit
  | toHouse house func param => plTxHousefuncEvents env house func param
  | toUnit house unit func param =>
      plTxHouseunitEvents env house unit ++ plTxHousefuncEvents env house func param
  | extended house unit command subcmd param =>
      plTxExtendedCode1Events env house unit command subcmd param

theorem quiet_x10Write (buf : Bytes) : Emits Effect.Unreported (x10Write buf) := Emits.call rfl

theorem reports_plTxHouseunit (house unit : ℤ) (s : X10State) :
    Reports (plTxHouseunit env house unit) s (plTxHouseunitEvents env house unit) :=
  (reports_decodePlc (-1) _ 4 s).bind_quiet fun _ => quiet_x10Write _

theorem reports_plTxHousefunc (house func param : ℤ) (s : X10State) :
    Reports (plTxHousefunc env house func param) s (plTxHousefuncEvents env house func param) :=
  Reports.ite ((reports_decodePlc (-1) _ 5 s).bind_quiet fun _ => quiet_x10Write _)
    (Reports.ite ((reports_decodePlc (-1) _ 7 s).bind_quiet fun _ => quiet_x10Write _)
      ((reports_decodePlc (-1) _ 4 s).bind_quiet fun _ => quiet_x10Write _))

theorem reports_send (cmd : PlCommand) (s : X10State) :
    Reports (cmd.send env) s (cmd.events env) := by
  cases cmd with
  | select house unit => exact reports_plTxHouseunit env house unit s
  | toHouse house func param => exact reports_plTxHousefunc env house func param s
  | toUnit house unit func param =>
    exact (reports_plTxHouseunit env house unit s).bind (reports_plTxHousefunc env house func param _)
  | extended house unit command subcmd param =>
    exact (reports_decodePlc (-1) _ 7 s).bind_quiet fun _ => quiet_x10Write _

/-- **What a power-line command reports is whole.** -/
theorem whole_events (cmd : PlCommand) : AllWhole (cmd.events env) := by
  have hunit : ∀ house unit, AllWhole (plTxHouseunitEvents env house unit) :=
    fun house unit => whole_plcEvents _ 4
  have hfunc : ∀ house func param, AllWhole (plTxHousefuncEvents env house func param) :=
    fun house func param => AllWhole.ite (whole_plcEvents _ 5) (AllWhole.ite (whole_plcEvents _ 7)
      (whole_plcEvents _ 4))
  cases cmd with
  | select house unit => exact hunit house unit
  | toHouse house func param => exact hfunc house func param
  | toUnit house unit func param =>
    exact List.forall_mem_append.mpr ⟨hunit house unit, hfunc house func param⟩
  | extended house unit command subcmd param =>
    exact show AllWhole (plTxExtendedCode1Events env house unit command subcmd param) from
      whole_plcEvents _ 7

variable {env} {c : Ctx} {fd : ℤ}

theorem quiet_or20ok : Emits Effect.Unreported (or20ok c fd) :=
  Emits.ite (Emits.call rfl) (Emits.pure _)

/-- A fixed text. -/
theorem quiet_fixed {text : Bytes} (h : Undirected text) :
    Emits Effect.Unreported (sockprintf fd text) := Emits.call (h.unreported fd)

theorem quiet_finish (flow : Flow) : Emits Effect.Unreported (finish fd flow) := by
  rw [finish.eq_def]
  split
  · exact Emits.pure _
  · exact Emits.pure _
  · exact (quiet_fixed (by decide)).bind fun _ => Emits.pure _

/-- The events of the command `PL`. -/
def plEvents (env : Env) (tokens : List Bytes) : List MochadEvent :=
  match plCommandOf tokens with
  | some (cmd, _) => cmd.events env
  | none => []

theorem reports_plCommand (tokens : List Bytes) (s : X10State) :
    Reports (plCommand c fd tokens) s (plEvents c.env tokens) := by
  rw [plEvents]
  cases hcmd : plCommandOf tokens with
  | none =>
    rw [plCommand_of_plCommandOf_eq_none hcmd]
    exact Reports.quiet (quiet_or20ok.bind fun _ => Emits.pure _) s
  | some a =>
    obtain ⟨cmd, rest⟩ := a
    rw [(plCommand_of_plCommandOf c fd hcmd).2]
    exact Reports.quiet_bind quiet_or20ok
      ((reports_send c.env cmd _).bind_quiet fun _ => Emits.pure _)

/-- What a relay reports of a power-line line. -/
def ReportsPl (env : Env) (relay : ℤ → Bytes → X10M Unit) : Prop :=
  ∀ fd line tokens cmd s, IsPl line → tokenizeCommand (strupper line) = some tokens →
    plCommandOf tokens.tail = some (cmd, []) → Reports (relay fd line) s (cmd.events env)

theorem reportsPl_processDepth (c : Ctx) (n : ℕ) :
    ReportsPl c.env (fun fd line => do let _ ← processDepth c (n + 1) fd line) := by
  intro fd line tokens cmd s hpl htokens hcmd
  have hprocess : processDepth c (n + 1) fd line = plCommand c fd tokens.tail >>= finish fd := by
    refine (processWith_eq_pl c _ fd hpl).trans ?_
    simp only [htokens]
  have hreports : Reports (plCommand c fd tokens.tail) s (plEvents c.env tokens.tail) :=
    reports_plCommand tokens.tail s
  rw [plEvents, hcmd] at hreports
  change Reports (processDepth c (n + 1) fd line >>= fun _ => pure ()) s _
  rw [hprocess]
  exact (hreports.bind_quiet quiet_finish).bind_quiet fun _ => Emits.pure _

end PowerLineCommands

/-! ### Radio frames -/

/-- **A security frame whose function is in no table.** -/
def RfFrame.Unnamed : RfFrame → Prop
  | short _ function => findSecRemoteKeyName function = none
  | long _ function => findSecEventName function = none
  | _ => False

/-- The events of what a frame is sent on as. -/
def RfFrame.relayedEvents (env : Env) (s : X10State) (frame : RfFrame) : List MochadEvent :=
  match frame.plCommand with
  | none => []
  | some (housechar, cmd) => if relayed env s housechar then cmd.events env else []

/-- **The events of `cm15a_decode_rf`**: that of an accepted frame that is not held back, and those
of what it is sent on as. -/
def rfEvents (env : Env) (s : X10State) (buf₀ : Memory) (len₀ : ℕ) : List MochadEvent :=
  let (buf, len) := trimMarkers buf₀ len₀
  match rfFrame buf len with
  | none => []
  | some frame =>
      if heldBack env (buf.take len) s then []
      else frame.event (buf 0) :: frame.relayedEvents env s

section Radio

variable {env : Env} {relay : ℤ → Bytes → X10M Unit} {fd : ℤ} {buf : Memory} {len : ℕ}
  {frame : RfFrame}

theorem whole_relayedEvents (env : Env) (s : X10State) (frame : RfFrame) :
    AllWhole (frame.relayedEvents env s) := by
  rw [RfFrame.relayedEvents]
  split
  · exact AllWhole.nil
  · exact AllWhole.ite (whole_events env _) .nil

theorem SameMasks.relayedEvents {s s' : X10State} (h : SameMasks s s') (env : Env)
    (frame : RfFrame) : frame.relayedEvents env s' = frame.relayedEvents env s := by
  simp only [RfFrame.relayedEvents, relayed, h.1]
  rfl

/-- The name of a camera's key is short. -/
theorem length_camRemoteName {camcommand : Memory} {commandlen : ℕ} {name : Bytes}
    (h : findCamRemoteName camcommand commandlen = some name) : name.length < 40 := by
  have hkeys : ∀ key ∈ rfcamKeyCodes, (key.getD []).length < 38 := by decide
  simp only [findCamRemoteName] at h
  split at h
  · cases h
  split at h
  · cases h
  split at h
  · cases h
  obtain ⟨key, hkey, rfl⟩ := Option.map_eq_some_iff.mp h
  have hshort : key.length < 38 := by
    rw [List.getD_eq_getElem?_getD] at hkey
    cases hget : rfcamKeyCodes[(camcommand 2).toNat - 0x54]? with
    | none =>
      rw [hget] at hkey
      cases hkey
    | some name =>
      rw [hget] at hkey
      obtain rfl : name = some key := hkey
      exact hkeys _ (List.mem_of_getElem? hget)
  simp only [List.length_cons]
  omega

/-- An accepted frame of a camera has a short name. -/
theorem length_camera (h : rfFrame buf len = some frame) {command : Bytes}
    (hcamera : frame = .camera command) : command.length < 40 := by
  rcases other_or_standard h with hother | hstandard
  · subst hcamera
    rw [rfFrame] at h
    split at h
    · cases h
    split at h
    · obtain ⟨name, hname, hsame⟩ := Option.map_eq_some_iff.mp h
      obtain rfl := RfFrame.camera.inj hsame
      exact length_camRemoteName hname
    split at h
    · split at h
      · split at h
        · cases h
        · cases h
      split at h
      · split at h
        · cases h
        · dsimp only at h
          split at h
          · cases h
          · cases h
      · cases h
    split at h
    · split at h
      · cases h
      · cases h
    · cases h
  · rw [hcamera] at hstandard
    dsimp only at hstandard
    split at hstandard
    · cases hstandard
    · cases hstandard

/-- The length of the text of a unit's event. -/
theorem length_houseUnit (event : MochadEvent) (hdetail : event.detail = .houseUnit)
    (hplain : event.hasExtendedData = false) : (legacyBody event).length ≤
      28 + (fmtInt event.unit).length + (fmtStr event.function).length := by
  have hlabels := length_labels event.direction event.transport
  have hfixed := length_between
  rw [legacyBody, hdetail]
  dsimp only
  rw [if_neg (by rw [hplain]; decide)]
  split_ifs
  · simp only [List.length_append, List.length_singleton]
    omega
  · simp only [List.length_append, List.length_singleton]
    omega

/-- **The text of an accepted frame fits the buffer.** -/
theorem fits_event (h : rfFrame buf len = some frame) (marker : UInt8) :
    (legacyBody (frame.event marker)).length < 256 := by
  have hnamed := named_of_frame h
  have hfixed := length_between
  cases frame with
  | camera command =>
    have hlabels := length_labels (rfDirection marker) .rfcam
    have hshort := length_camera h rfl
    simp only [legacyBody, RfFrame.event, fmtStr, List.length_append]
    omega
  | short address function =>
    have hlabels := length_labels (rfDirection marker) .rfsec
    have hname := (length_names function).1
    simp only [legacyBody, RfFrame.event, List.length_append, length_fmtHex2]
    omega
  | long address function =>
    have hlabels := length_labels (rfDirection marker) .rfsec
    have hname := (length_names function).2
    simp only [legacyBody, RfFrame.event, List.length_append, length_fmtHex2]
    omega
  | dim housechar func =>
    have hlabels := length_labels (rfDirection marker) .rf
    have hname := length_funcnameAt (func + 2)
    simp only [legacyBody, RfFrame.event, Bool.false_eq_true, if_false, List.length_append,
      List.length_singleton]
    omega
  | switch housechar unit func =>
    have hlabels := length_labels (rfDirection marker) .rf
    have hname := length_funcnameAt (func + 2)
    obtain ⟨house, u, -, hu, -, rfl, -⟩ := hnamed
    have hunit : (fmtInt ((u.toNat + 1 : ℕ) : ℤ)).length ≤ 2 := by
      have hall : ∀ n : Fin 16, (fmtInt (((n : ℕ) + 1 : ℕ) : ℤ)).length ≤ 2 := by decide
      obtain ⟨n, rfl⟩ := IsUnit.exists_fin hu
      exact hall n
    have hlength :=
      length_houseUnit ((RfFrame.switch housechar (u.toNat + 1) func).event marker) rfl rfl
    refine hlength.trans_lt ?_
    show 28 + (fmtInt ((u.toNat + 1 : ℕ) : ℤ)).length + (fmtStr (funcnameAt (func + 2))).length < 256
    omega

/-- **The event of an accepted frame is complete** unless the frame is unnamed. -/
theorem complete_event (h : rfFrame buf len = some frame) (marker : UInt8) :
    (frame.event marker).Complete ↔ ¬frame.Unnamed := by
  have hnamed := named_of_frame h
  cases frame with
  | camera command => exact iff_of_true (Option.some_ne_none command) id
  | short address function => exact Iff.rfl
  | long address function => exact Iff.rfl
  | switch housechar unit func => exact iff_of_true nofun id
  | dim housechar func =>
    refine iff_of_true ?_ id
    obtain ⟨house, -, -, rfl | rfl⟩ := hnamed
    · exact Option.some_ne_none (ascii "Dim")
    · exact Option.some_ne_none (ascii "Bright")

theorem reports_sendOn (hnamed : frame.Named) (hrelay : ReportsPl env relay) (s : X10State) :
    Reports (frame.sendOn env relay fd) s (frame.relayedEvents env s) := by
  rw [RfFrame.sendOn, RfFrame.relayedEvents]
  cases hline : frame.line with
  | none =>
    cases frame with
    | camera | short | long => exact Reports.quiet (Emits.pure _) s
    | dim | switch => cases hline
  | some a =>
    obtain ⟨housechar, line⟩ := a
    obtain ⟨hpl, tokens, cmd, htokens, hcmd, hcommand⟩ := line_of_named hnamed hline
    rw [hcommand]
    have hbranch := (hrelay fd line tokens cmd s hpl htokens hcmd).ite (p := relayed env s housechar)
      (Reports.quiet (Emits.pure ()) s)
    exact Reports.quiet_bind (Emits.gets _) hbranch

/-- **A frame that is acted upon reports its event**, and those of what it is sent on as. -/
theorem reports_act (hnamed : frame.Named) (hrelay : ReportsPl env relay) (s : X10State) :
    Reports (frame.act env relay fd buf len) s
      (frame.event (buf 0) :: frame.relayedEvents env s) := by
  have hrepeat : Emits Effect.Unreported (repeatRF env fd buf len) :=
    emits_repeatRF_of env (unreported_sockprintf (by decide) fd) (fun _ => rfl) buf len
  have hsend : Reports (frame.sendOn env relay fd) (frame.update env s).state
      (frame.relayedEvents env (frame.update env s).state) := reports_sendOn hnamed hrelay _
  rw [(update_masks env frame s).relayedEvents] at hsend
  refine Reports.quiet_bind (emits_update env frame) ((Reports.dispatch fd (frame.event (buf 0))
    (frame.update env s).state).bind (Reports.quiet_bind hrepeat ?_))
  rw [repeatRF_state, mochadDispatchEvent_state]
  exact hsend

/-- A frame that is rejected is complained about. -/
theorem unreported_rejected {buf₀ : Memory} {len₀ : ℕ} (htrim : trimMarkers buf₀ len₀ = (buf, len))
    (hframe : rfFrame buf len = none) :
    Emits Effect.Unreported (cm15aDecodeRf env relay fd buf₀ len₀) := by
  have hcomplains : Complains fd buf len (cm15aDecodeRf env relay fd buf₀ len₀) :=
    complains_of_rejected htrim hframe
  obtain ⟨why, -, hwhy, -, heq | heq⟩ := hcomplains
  · rw [heq]
    exact (Emits.call ((hwhy.append _).unreported fd)).bind fun _ =>
      Emits.call ((undirected_hexdump _).unreported fd)
  · rw [heq]
    exact Emits.call ((hwhy.append _).unreported fd)

/-- **What `cm15a_decode_rf` reports.** -/
theorem reports_decodeRf (hrelay : ReportsPl env relay) (buf₀ : Memory) (len₀ : ℕ) (s : X10State) :
    Reports (cm15aDecodeRf env relay fd buf₀ len₀) s (rfEvents env s buf₀ len₀) := by
  rcases htrim : trimMarkers buf₀ len₀ with ⟨p, n⟩
  rw [rfEvents, htrim]
  dsimp only
  cases hframe : rfFrame p n with
  | none => exact Reports.quiet (unreported_rejected htrim hframe) s
  | some frame =>
    obtain ⟨dups, reads, happly⟩ := cm15aDecodeRf_apply env relay fd htrim hframe s
    have hmasks : SameMasks s { s with dups := dups, timemsReads := reads } := ⟨rfl, rfl⟩
    have hact : Reports (frame.act env relay fd p n) { s with dups := dups, timemsReads := reads } _ :=
      reports_act (named_of_frame hframe) hrelay _
    rw [hmasks.relayedEvents] at hact
    dsimp only
    rw [Reports, happly]
    cases heldBack env (p.take n) s with
    | true => rfl
    | false => exact hact

end Radio

/-! ### Packets -/

/-- What `cm15a_decode` looks at: a packet of a CM19A is copied behind a marker. -/
def seenPacket (env : Env) (buf : Memory) (len : ℕ) : Option (Memory × ℕ) :=
  if len < 4 then none
  else if env.cm19a then
    if 8 < len then none else some (Memory.ofBytes (0x5d :: buf.take len) env.stack, len + 1)
  else some (buf, len)

/-- **The events of a packet.** -/
def packetEvents (env : Env) (s : X10State) (buf : Memory) (len : ℕ) : List MochadEvent :=
  match seenPacket env buf len with
  | none => []
  | some (p, n) =>
      if p 0 = 0xa5 then []
      else if p 0 = 0x5a then plcEvents p n
      else if p 0 = 0x5d then rfEvents env s p n
      else []

/-- **The frame of a packet** that is accepted, and not held back. -/
def packetFrame (env : Env) (s : X10State) (buf : Memory) (len : ℕ) : Option RfFrame :=
  match seenPacket env buf len with
  | none => none
  | some (p, n) => if p 0 = 0x5d then acceptedFrame env s p n else none

section Packets

variable {c : Ctx} {relay : ℤ → Bytes → X10M Unit} {fd : ℤ}

theorem reports_decodePacket (hrelay : ReportsPl env relay) (p : Memory) (n : ℕ) (s : X10State) :
    Reports (decodePacket env relay fd p n) s
      (if p 0 = 0xa5 then []
      else if p 0 = 0x5a then plcEvents p n
      else if p 0 = 0x5d then rfEvents env s p n
      else []) := by
  have hraw : Emits Effect.Unreported (mhSockhexdump fd p n) := by
    refine Emits.call (unreported_sockprintf ?_ fd)
    rintro (⟨rest, h⟩ | ⟨rest, h⟩)
    · simp [ascii] at h
    · simp [ascii] at h
  have hclock : Emits Effect.Unreported (setClock env) :=
    (emits_timeNow env).bind fun _ => quiet_x10Write _
  have hrest : Reports (if p 0 = 0xa5 then setClock env
      else if p 0 = 0x5a then cm15aDecodePlc fd p n
      else if p 0 = 0x5d then cm15aDecodeRf env relay fd p n
      else pure ()) s _ :=
    (Reports.quiet hclock s).ite ((reports_decodePlc fd p n s).ite
      ((reports_decodeRf hrelay p n s).ite (Reports.quiet (Emits.pure ()) s)))
  rw [decodePacket]
  split
  · exact Reports.quiet_bind hraw hrest
  · exact hrest

/-- **What a packet reports.** -/
theorem reports_cm15aDecode (hrelay : ReportsPl env relay) (buf : Memory) (len : ℕ)
    (s : X10State) : Reports (cm15aDecode env relay fd buf len) s (packetEvents env s buf len) := by
  have hnothing : Reports (pure () : X10M Unit) s [] := Reports.quiet (Emits.pure _) s
  rw [cm15aDecode, packetEvents, seenPacket]
  split_ifs
  · exact hnothing
  · exact hnothing
  · exact reports_decodePacket hrelay _ _ s
  · exact reports_decodePacket hrelay _ _ s

/-- No event of a frame that comes in is dropped. -/
theorem fits_rfEvents (env : Env) (s : X10State) (buf₀ : Memory) (len₀ : ℕ) :
    ∀ e ∈ rfEvents env s buf₀ len₀, (legacyBody e).length < 256 := by
  rw [rfEvents]
  rcases trimMarkers buf₀ len₀ with ⟨buf, len⟩
  dsimp only
  cases hframe : rfFrame buf len with
  | none => exact fun e he => (AllWhole.nil e he).fits
  | some frame =>
    dsimp only
    split
    · exact fun e he => (AllWhole.nil e he).fits
    · exact List.forall_mem_cons.mpr ⟨fits_event hframe _,
        fun e he => (whole_relayedEvents env s frame e he).fits⟩

/-- **No event of a packet is dropped.** -/
theorem fits_packetEvents (env : Env) (s : X10State) (buf : Memory) (len : ℕ) :
    ∀ e ∈ packetEvents env s buf len, (legacyBody e).length < 256 := by
  have hnil : ∀ e ∈ ([] : List MochadEvent), (legacyBody e).length < 256 :=
    fun e he => (AllWhole.nil e he).fits
  rw [packetEvents]
  split
  · exact hnil
  split_ifs
  · exact hnil
  · exact fun e he => (whole_plcEvents _ _ e he).fits
  · exact fits_rfEvents env s _ _
  · exact hnil

/-- The event of a frame that comes in is whole unless the frame is unnamed, and so are those of
what it is sent on as. -/
theorem whole_rfEvents (env : Env) (s : X10State) (buf₀ : Memory) (len₀ : ℕ) :
    AllWhole (rfEvents env s buf₀ len₀) ↔
      ∀ frame, acceptedFrame env s buf₀ len₀ = some frame → ¬frame.Unnamed := by
  rw [rfEvents, acceptedFrame]
  rcases trimMarkers buf₀ len₀ with ⟨buf, len⟩
  dsimp only
  cases hframe : rfFrame buf len with
  | none => exact iff_of_true AllWhole.nil (by simp)
  | some frame =>
    dsimp only
    split
    · exact iff_of_true AllWhole.nil (by simp)
    · constructor
      · rintro h _ ⟨⟩
        exact (complete_event hframe _).mp (h _ List.mem_cons_self).complete
      · intro h
        exact List.forall_mem_cons.mpr ⟨⟨(complete_event hframe _).mpr (h frame rfl),
          fits_event hframe _⟩, whole_relayedEvents env s frame⟩

/-- **The events of a packet are whole** unless it is an unnamed frame. -/
theorem whole_packetEvents (env : Env) (s : X10State) (buf : Memory) (len : ℕ) :
    AllWhole (packetEvents env s buf len) ↔
      ∀ frame, packetFrame env s buf len = some frame → ¬frame.Unnamed := by
  rw [packetEvents, packetFrame]
  cases seenPacket env buf len with
  | none => exact iff_of_true AllWhole.nil nofun
  | some a =>
    obtain ⟨p, n⟩ := a
    dsimp only
    by_cases hradio : p 0 = 0x5d
    · rw [if_neg (by rw [hradio]; decide), if_neg (by rw [hradio]; decide), if_pos hradio,
        if_pos hradio]
      exact whole_rfEvents env s p n
    · rw [if_neg hradio, if_neg hradio]
      exact iff_of_true (AllWhole.ite .nil (AllWhole.ite (whole_plcEvents p n) .nil)) nofun

end Packets

/-! ### Command lines -/

/-- **The events of a command line.** -/
def commandEvents (c : Ctx) (s : X10State) (line : Bytes) : List MochadEvent :=
  match commandOfLine line with
  | none => []
  | some (command, tokens) =>
      if command = .pl then plEvents c.env tokens
      else
        match radioCommandOf command tokens with
        | none => []
        | some (cmd, _) =>
            rfEvents c.env s (Memory.ofBytes cmd.frame c.env.stack) cmd.frame.length

section Commands

variable {c : Ctx} {relay : ℤ → Bytes → X10M Unit} {fd : ℤ}

/-- A fixed text and what follows it. -/
theorem quiet_sockprintf {text : Bytes} (h : Undirected text) (more : Bytes) :
    Emits Effect.Unreported (sockprintf fd (text ++ more)) := quiet_fixed (h.append more)

/-- The replies about a relay mask. -/
theorem quiet_mask {text : Bytes} (h : text.take 2 = ascii "Rf") (more : Bytes) :
    Emits Effect.Unreported (sockprintf fd (text ++ more)) := by
  refine Emits.call (unreported_sockprintf ?_ fd)
  obtain ⟨rest, rfl⟩ : ∃ rest, text = ascii "Rf" ++ rest :=
    ⟨text.drop 2, by rw [← h, List.take_append_drop]⟩
  rintro (⟨tail, heq⟩ | ⟨tail, heq⟩)
  · simp [ascii] at heq
  · simp [ascii] at heq

theorem quiet_huaShow (env : Env) : Emits Effect.Unreported (huaShow env fd) := by
  have hhouse : ∀ house items, Emits Effect.Unreported (showHouse fd house items) := by
    refine fun house items => Emits.ite (Emits.pure _) ?_
    simp only [List.append_assoc]
    exact quiet_sockprintf (by decide) _
  refine (quiet_fixed (by decide)).bind fun _ => (Emits.gets _).bind fun _ =>
    (Emits.forM fun _ => hhouse _ _).bind fun _ => (quiet_fixed (by decide)).bind fun _ =>
    (Emits.gets _).bind fun _ => (Emits.forM fun _ => hhouse _ _).bind fun _ =>
    (quiet_fixed (by decide)).bind fun _ => (Emits.modify _).bind fun _ => (Emits.gets _).bind fun _ =>
    (Emits.forM fun _ => ?_).bind fun _ => quiet_fixed (by decide)
  refine (emits_timeNow _).bind fun _ => ?_
  simp only [List.append_assoc]
  exact quiet_sockprintf (by decide) _

/-- A radio command that makes no frame reports nothing. -/
theorem quiet_of_radioCommandOf_eq_none {command : Command} {tokens : List Bytes}
    (hcommand : command = .rf ∨ command = .rfsec ∨ command = .rfcam)
    (h : radioCommandOf command tokens = none) :
    Emits Effect.Unreported (runCommand c relay fd command tokens) := by
  obtain ⟨key, flow, hrun⟩ := runCommand_of_radioCommandOf_eq_none c relay fd hcommand h
  rw [hrun]
  refine quiet_or20ok.bind fun _ => Emits.bind ?_ fun _ => Emits.pure _
  cases key with
  | none => exact Emits.pure _
  | some arg =>
    rw [refuseKey, List.append_assoc]
    exact quiet_sockprintf (by decide) _

/-- **The other commands report nothing.** -/
theorem quiet_runCommand {command : Command} (hpl : command ≠ .pl)
    (hradio : ¬(command = .rf ∨ command = .rfsec ∨ command = .rfcam)) (tokens : List Bytes) :
    Emits Effect.Unreported (runCommand c relay fd command tokens) := by
  have hjson : ∀ json, Emits Effect.Unreported (sendDiagJson c fd json) :=
    fun _ => Emits.bind (Emits.call rfl) fun _ => Emits.pure _
  have hdiag : ∀ {m : X10M ℤ}, Emits Effect.Unreported m → Emits Effect.Unreported (diagCommand m) :=
    fun hm => hm.bind fun _ => Emits.pure _
  have hprint : ∀ text, Undirected text → Emits Effect.Unreported (printCommand fd text) :=
    fun _ h => (quiet_fixed h).bind fun _ => Emits.pure _
  have hshown : ∀ text, Emits Effect.Unreported (statusprintf fd text) := fun _ => Emits.call rfl
  cases command with
  | hello | capabilities | config | version => exact hdiag (hjson _)
  | health | clients => exact hdiag ((emits_uptimeSeconds c).bind fun _ => hjson _)
  | pl => exact absurd rfl hpl
  | rf | rfsec | rfcam => exact absurd (by simp) hradio
  | pt =>
    refine quiet_or20ok.bind fun _ => ?_
    split
    · exact Emits.pure _
    · exact Emits.pure _
    · exact (quiet_x10Write _).bind fun _ => Emits.pure _
  | rftopl =>
    refine quiet_or20ok.bind fun _ => (Emits.modify _).bind fun _ => Emits.bind ?_ fun _ =>
      Emits.pure _
    rw [List.append_assoc]
    exact quiet_mask rfl _
  | rftorf =>
    have hmask : Emits Effect.Unreported (rftorfReply fd) := by
      refine (Emits.gets _).bind fun _ => ?_
      rw [List.append_assoc]
      exact quiet_mask rfl _
    refine quiet_or20ok.bind fun _ => ?_
    split
    · exact hmask.bind fun _ => Emits.pure _
    split
    · exact Emits.pure _
    · exact (Emits.modify _).bind fun _ => hmask.bind fun _ => Emits.pure _
  | st =>
    exact Emits.ite ((Emits.modify _).bind fun _ => Emits.pure _)
      ((quiet_huaShow c.env).bind fun _ => Emits.pure _)
  | info | quit | help | question => exact hprint _ (by decide)
  | hex =>
    simp only [runCommand, hexCommand]
    split
    · exact Emits.pure _
    · rw [List.append_assoc]
      exact (quiet_sockprintf (by decide) _).bind fun _ => Emits.pure _
  | getstatus =>
    refine Emits.ite ?_ (Emits.pure _)
    dsimp only
    split
    · exact Emits.ite ((Emits.gets _).bind fun _ => (hshown _).bind fun _ => Emits.pure _)
        ((hshown _).bind fun _ => Emits.pure _)
    · exact (Emits.gets _).bind fun _ => (hshown _).bind fun _ => Emits.pure _
  | getstatussec =>
    simp only [runCommand, getstatussecCommand]
    split
    · exact Emits.pure _
    · exact (Emits.gets _).bind fun _ => (hshown _).bind fun _ => Emits.pure _

/-- A line that names no command reports nothing. -/
theorem quiet_of_commandOfLine_eq_none {line : Bytes} (h : commandOfLine line = none) :
    Emits Effect.Unreported (processcommandline c fd line) := by
  simp only [processcommandline, processDepth, processWith]
  split
  · exact Emits.bind (Emits.call rfl) fun _ => Emits.pure _
  rw [commandOfLine] at h
  split
  · exact (quiet_fixed (by decide)).bind fun _ => Emits.pure _
  next tokens htokens =>
    rw [htokens] at h
    cases tokens with
    | nil => exact Emits.pure _
    | cons name tokens =>
      have hname : commandOf name = none := Option.map_eq_none_iff.mp h
      simp only [processTokens, hname]
      exact Emits.pure _

/-- **What a command line reports.** -/
theorem reports_processcommandline (c : Ctx) (fd : ℤ) (line : Bytes) (s : X10State) :
    Reports (processcommandline c fd line) s (commandEvents c s line) := by
  rw [commandEvents]
  cases hline : commandOfLine line with
  | none => exact Reports.quiet (quiet_of_commandOfLine_eq_none hline) s
  | some a =>
    obtain ⟨command, tokens⟩ := a
    dsimp only
    by_cases hpl : command = .pl
    · subst hpl
      rw [if_pos rfl, processcommandline_of_line hline]
      exact (reports_plCommand tokens s).bind_quiet quiet_finish
    rw [if_neg hpl]
    cases hcmd : radioCommandOf command tokens with
    | none =>
      rw [processcommandline_of_line hline]
      refine Reports.quiet (Emits.bind ?_ quiet_finish) s
      by_cases hradio : command = .rf ∨ command = .rfsec ∨ command = .rfcam
      · exact quiet_of_radioCommandOf_eq_none hradio hcmd
      · exact quiet_runCommand hpl hradio tokens
    | some a =>
      obtain ⟨cmd, rest⟩ := a
      have hrelay : ReportsPl c.env (relayTo c) := reportsPl_processDepth c 0
      have hframe : Reports (cm15aDecodeRf c.env (relayTo c) (-1)
          (Memory.ofBytes cmd.frame c.env.stack) cmd.frame.length) s _ :=
        reports_decodeRf hrelay _ _ s
      rw [processcommandline_radio hline hcmd]
      refine Reports.quiet_bind quiet_or20ok ?_
      rw [or20ok_state]
      exact (hframe.bind_quiet fun _ => quiet_x10Write _).bind_quiet fun _ => quiet_finish _

/-- A function of security is in its table. -/
theorem getrffunc_mem {rf8bitaddr : Bool} {tokens rest : List Bytes} {func : ℤ}
    (h : getrffunc rf8bitaddr tokens = (func, rest)) (hok : ¬func < 0) :
    ∃ e ∈ (if rf8bitaddr then secRemoteKeyNames8bitaddr else secEventNameslongaddr),
      func = e.1.toNat := by
  simp only [getrffunc, Prod.mk.injEq] at h
  obtain ⟨rfl, -⟩ := h
  cases hfound : (nextToken tokens).1.bind
      (findFunct (if rf8bitaddr then secRemoteKeyNames8bitaddr else secEventNameslongaddr)) with
  | none =>
    rw [hfound] at hok
    exact absurd (by decide) hok
  | some code =>
    obtain ⟨name, -, hname⟩ := Option.bind_eq_some_iff.mp hfound
    obtain ⟨e, he, rfl⟩ := Option.map_eq_some_iff.mp hname
    exact ⟨e, List.mem_of_find?_eq_some he, rfl⟩

/-- **The function of a security command has a name.** -/
theorem named_of_radioCommandOf {command : Command} {tokens rest : List Bytes} {cmd : RadioCommand}
    (h : radioCommandOf command tokens = some (cmd, rest)) : ¬cmd.readBack.Unnamed := by
  have hshort : ∀ e ∈ secRemoteKeyNames8bitaddr,
      findSecRemoteKeyName (lowByte e.1.toNat) ≠ none := by
    decide +kernel
  have hlong : ∀ e ∈ secEventNameslongaddr, findSecEventName (lowByte e.1.toNat) ≠ none := by
    decide +kernel
  rw [radioCommandOf.eq_def] at h
  split at h
  · rcases haddr : getdeviceaddr tokens with ⟨⟨house, unit⟩, tokens'⟩
    simp only [haddr] at h
    split at h
    · cases h
    · obtain ⟨rfl, -⟩ := Prod.mk.inj (Option.some.inj h)
      rw [RadioCommand.readBack]
      split
      · exact id
      · exact id
  · split at h
    · cases h
    next rf8bitaddr rfaddr tokens' haddr =>
      rcases hfunc : getrffunc rf8bitaddr tokens' with ⟨func, tokens''⟩
      simp only [hfunc] at h
      split at h
      · cases h
      next hok =>
        obtain ⟨e, he, rfl⟩ := getrffunc_mem hfunc hok
        split at h
        next haddr8 =>
          obtain ⟨rfl, -⟩ := Prod.mk.inj (Option.some.inj h)
          rw [if_pos haddr8] at he
          exact hshort e he
        next haddr8 =>
          obtain ⟨rfl, -⟩ := Prod.mk.inj (Option.some.inj h)
          rw [if_neg haddr8] at he
          exact hlong e he
  · rcases haddr : getdeviceaddr tokens with ⟨⟨house, unit⟩, tokens'⟩
    simp only [haddr] at h
    split at h
    · cases h
    · split at h
      · cases h
      · obtain ⟨rfl, -⟩ := Prod.mk.inj (Option.some.inj h)
        exact id
  · cases h

/-- **What a command line reports is whole.** -/
theorem whole_commandEvents (c : Ctx) (s : X10State) (line : Bytes) :
    AllWhole (commandEvents c s line) := by
  rw [commandEvents]
  split
  · exact AllWhole.nil
  next command tokens hline =>
    refine AllWhole.ite ?_ ?_
    · rw [plEvents]
      split
      · exact whole_events c.env _
      · exact AllWhole.nil
    · split
      · exact AllWhole.nil
      next cmd rest hcmd =>
        refine (whole_rfEvents c.env s _ _).mpr fun frame hframe => ?_
        rw [acceptedFrame, trimMarkers_of_le cmd.length_frame] at hframe
        dsimp only at hframe
        split at hframe
        · cases hframe
        by_cases hchecked : cmd.Checked
        · rw [rfFrame_frame (radioCommandOf_valid hcmd) hchecked] at hframe
          obtain rfl := Option.some.inj hframe
          exact named_of_radioCommandOf hcmd
        · rw [(decodeRf_unchecked hchecked s).1] at hframe
          cases hframe

/-- **Every event is reported as a whole, but for the frames of security that are unnamed.** What a
packet or a command line reports is its events, and none of them is dropped. The strings that they
print are all there, except for the function of an accepted security frame that is in no table;
the commands make no such frame. -/
theorem reported_whole (c : Ctx) (fd : ℤ) (s : X10State) :
    (let relay := fun fd line => do let _ ← processcommandline c fd line
     ∀ buf len, Reports (cm15aDecode c.env relay fd buf len) s (packetEvents c.env s buf len) ∧
       (∀ e ∈ packetEvents c.env s buf len, (legacyBody e).length < 256) ∧
       (AllWhole (packetEvents c.env s buf len) ↔
         ∀ frame, packetFrame c.env s buf len = some frame → ¬frame.Unnamed)) ∧
      ∀ line, Reports (processcommandline c fd line) s (commandEvents c s line) ∧
        AllWhole (commandEvents c s line) := by
  refine ⟨fun buf len => ⟨?_, fits_packetEvents c.env s buf len, whole_packetEvents c.env s buf len⟩,
    fun line => ⟨reports_processcommandline c fd line s, whole_commandEvents c s line⟩⟩
  exact reports_cm15aDecode (reportsPl_processDepth c 1) buf len s

/-- A frame of a remote whose function is in no table. -/
theorem reported_unnamed :
    let env := Env.plain mochadConfigDefaults false
    let buf := Memory.ofBytes [0x5d, 0x20, 0xe2, 0xed, 0x00, 0xff] fun _ => 0
    eventLines (cm15aDecode env
        (fun fd line => do let _ ← processcommandline (.idle env) fd line) (-1) buf 6 .idle).effects =
      [ascii "Rx RFSEC Addr: 0xE2 Func: (null)\n"] ∧
      ¬AllWhole (packetEvents env .idle buf 6) := by
  refine ⟨by decide +kernel, fun h => ?_⟩
  have hframe : packetFrame (.plain mochadConfigDefaults false) .idle
      (Memory.ofBytes [0x5d, 0x20, 0xe2, 0xed, 0x00, 0xff] fun _ => 0) 6 = some (.short 0xe2 0x00) := by
    decide +kernel
  have hnone : findSecRemoteKeyName 0x00 = none := by decide
  exact (whole_packetEvents _ _ _ _).mp h _ hframe hnone

end Commands

end Mochad
