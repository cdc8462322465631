import Mochad.Core.Daemon
import Mochad.Library.Json
import Mochad.Numerals
import Mochad.Settings.Sources
import Mochad.X10.Packets

/-!
# Diagnostic replies

The diagnostic commands are answered in JSON, on one line. `diagReport` is what the answer to each
of them is to say, as a value; the formats of the code print these values (`effects_diagnostic`),
and a program that reads the line has the value again (`diagnostics_read_back`). An answer for which
the buffer is too small is an error that says so, and is in JSON as well.

The configuration is printed in the same way, and two valid configurations that are printed alike
are the same for the daemon: they differ in no more than what `main` alone reads
(`config_of_snprintJson`).
-/

namespace Mochad

/-! ### What the answers say -/

/-- A truth value. -/
def boolValue (b : Bool) : Json.Value := .bare (jsonBool b)

/-- A number. -/
def numberValue (n : ℕ) : Json.Value := .bare (fmtNat n)

/-- An object, its members in the order given. -/
def objectValue (first : String × Json.Value) (members : List (String × Json.Value)) :
    Json.Value :=
  .object (.ofList (ascii first.1, first.2) (members.map fun m => (ascii m.1, m.2)))

/-- An array of texts. -/
def textsValue (first : String) (texts : List String) : Json.Value :=
  .array (.ofList (.text (ascii first)) (texts.map fun t => .text (ascii t)))

/-- A listener. -/
def listenerValue (enabled : Bool) (port : ℕ) : Json.Value :=
  objectValue ("enabled", boolValue enabled) [("port", numberValue port)]

/-- The listeners. -/
def listenersValue (config : MochadConfig) : Json.Value :=
  objectValue ("main", listenerValue true config.serverPort)
    [("xml", listenerValue config.xmlEnabled config.xmlPort),
      ("openremote", listenerValue config.openremoteEnabled config.openremotePort)]

/-- The configuration. -/
def configValue (config : MochadConfig) : Json.Value :=
  objectValue ("ok", boolValue true) [("bind_address", .text config.bindAddress),
    ("foreground", boolValue config.foreground), ("raw_data", boolValue config.rawData),
    ("dual_stack", .text (mochadConfigDualStackName config.dualStack)),
    ("log_level", .text (mochadConfigLogLevelName config.logLevel)),
    ("listeners", listenersValue config)]

/-- An answer that does not fit. -/
def tooLargeValue : Json.Value :=
  objectValue ("ok", boolValue false) [("error", .text (ascii "diagnostic output too large"))]

/-- **What a diagnostic command is answered.** -/
def diagReport (c : Ctx) (uptime : ℕ) : Command → Option Json.Value
  | .hello => some (objectValue ("ok", boolValue true) [("name", .text (ascii "mochad-redux")),
      ("daemon", .text (ascii "mochad-redux")), ("version", .text mochadReduxVersion),
      ("upstream_base", .text mochadUpstreamBase), ("diagnostics", boolValue true)])
  | .capabilities => some (objectValue ("ok", boolValue true)
      [("commands", textsValue "hello" ["capabilities", "health", "clients", "config", "version"]),
      ("legacy_commands", textsValue "pl"
        ["rf", "rfsec", "rfcam", "pt", "rftopl", "rftorf", "st", "getstatus", "getstatussec"]),
      ("json", boolValue true), ("single_line", boolValue true),
      ("raw_data", boolValue c.env.config.rawData)])
  | .health => some (objectValue ("ok", boolValue true) [("name", .text (ascii "mochad-redux")),
      ("version", .text mochadReduxVersion), ("upstream_base", .text mochadUpstreamBase),
      ("uptime_seconds", numberValue uptime), ("usb_connected", boolValue c.runtime.usbConnected),
      ("controller", .text c.runtime.controller),
      ("endpoints_ready", boolValue c.runtime.endpointsReady),
      ("transfers_ready", boolValue c.runtime.transfersReady),
      ("clients_total",
        numberValue (c.runtime.clientsMain + c.runtime.clientsXml + c.runtime.clientsOpenremote)),
      ("usb_tx", objectValue ("out_completed", numberValue c.runtime.usbOutCompleted)
        [("ack_received", numberValue c.runtime.usbAckReceived),
        ("ack_timeout", numberValue c.runtime.usbAckTimeout),
        ("unexpected_one_byte", numberValue c.runtime.usbUnexpectedOneByte)]),
      ("bind_address", .text c.env.config.bindAddress),
      ("listeners", listenersValue c.env.config)])
  | .clients => some (objectValue ("ok", boolValue true)
      [("clients", objectValue ("main", numberValue c.runtime.clientsMain)
        [("xml", numberValue c.runtime.clientsXml),
        ("openremote", numberValue c.runtime.clientsOpenremote),
        ("total", numberValue
          (c.runtime.clientsMain + c.runtime.clientsXml + c.runtime.clientsOpenremote))]),
      ("max_clients", numberValue c.runtime.maxClients),
      ("next_client_id", numberValue c.runtime.nextClientId)])
  | .config => some (configValue c.env.config)
  | .version => some (objectValue ("ok", boolValue true) [("name", .text (ascii "mochad-redux")),
      ("daemon", .text (ascii "mochad-redux")), ("version", .text mochadReduxVersion),
      ("upstream_base", .text mochadUpstreamBase)])
  | _ => none

/-- What is said of it in the buffer that there is. -/
def fittingReport (v : Json.Value) : Json.Value :=
  if v.render.length < diagBufferSize then v else tooLargeValue

/-! ### The formats print these values -/

theorem render_objectValue (first : String × Json.Value) (members : List (String × Json.Value)) :
    (objectValue first members).render =
      jsonObject ((first :: members).map fun m => (m.1, m.2.render)) := by
  rw [objectValue, Json.Value.render, Json.Members.render_ofList, jsonObject]
  simp [jsonString, Json.quoted, List.map_map, Function.comp_def]

theorem render_textsValue (first : String) (texts : List String) :
    (textsValue first texts).render = jsonArray (first :: texts) := by
  rw [textsValue, Json.Value.render, Json.Items.render_ofList, jsonArray]
  simp [jsonString, Json.Value.render, Json.quoted, List.map_map, Function.comp_def]

theorem render_listenersValue (config : MochadConfig) :
    (listenersValue config).render = jsonListeners config := by
  rw [listenersValue, render_objectValue]
  simp only [listenerValue, List.map_cons, render_objectValue, List.map_nil]
  rfl

/-- **`mochad_config_snprint_json` prints the configuration.** -/
theorem mochadConfigSnprintJson_eq (size : ℕ) (config : MochadConfig) :
    mochadConfigSnprintJson size config = checkedSnprintf size (configValue config).render := by
  rw [configValue, render_objectValue]
  simp only [List.map_cons, List.map_nil, render_listenersValue]
  rfl

variable {c : Ctx} {fd : ℤ} {line : Bytes} {command : Command} {tokens : List Bytes}
  {s : X10State} {v : Json.Value}

/-- A diagnostic answer is one text. -/
theorem effects_sendDiagJson (c : Ctx) (fd : ℤ) (v : Json.Value) (s : X10State) :
    (sendDiagJson c fd (checkedSnprintf diagBufferSize v.render) s).effects =
      [.statusprintf fd ((fittingReport v).render ++ ascii "\n")] := by
  rw [checkedSnprintf, fittingReport]
  split
  · rfl
  · rw [tooLargeValue, render_objectValue]
    rfl

theorem effects_uptimeSeconds (env : Env) (s : X10State) : (uptimeSeconds env s).effects = [] := by
  rw [uptimeSeconds]
  split
  · rfl
  · rfl

/-- Nothing is added to what a diagnostic command prints. -/
theorem effects_diagCommand (diag : X10M ℤ) :
    ((diagCommand diag >>= finish fd) s).effects = (diag s).effects := by
  show ((diag s).effects ++ []) ++ [] = (diag s).effects
  rw [List.append_nil, List.append_nil]

/-- A command that answers with a value prints it, and no more. -/
theorem effects_answer (c : Ctx) {diag : X10M ℤ} (s' : X10State) (h : (diag s).effects =
    (sendDiagJson c fd (checkedSnprintf diagBufferSize v.render) s').effects) :
    ((diagCommand diag >>= finish fd) s).effects =
      [.statusprintf fd ((fittingReport v).render ++ ascii "\n")] :=
  (effects_diagCommand diag).trans (h.trans (effects_sendDiagJson c fd v s'))

/-- **The formats of the diagnostic answers print what they are to say.** -/
theorem effects_diagnostic (hline : commandOfLine line = some (command, tokens))
    (hreport : diagReport c (uptimeSeconds c.env s).value command = some v) :
    (processcommandline c fd line s).effects =
      [.statusprintf fd ((fittingReport v).render ++ ascii "\n")] := by
  rw [processcommandline_of_line hline]
  cases command with
  | hello =>
    obtain rfl := Option.some.inj hreport
    refine effects_answer c s ?_
    rw [render_objectValue]
    rfl
  | capabilities =>
    obtain rfl := Option.some.inj hreport
    refine effects_answer c s ?_
    rw [render_objectValue]
    simp only [List.map_cons, List.map_nil, render_textsValue]
    rfl
  | health =>
    obtain rfl := Option.some.inj hreport
    -- the clock is read before the answer is made
    refine effects_answer c (uptimeSeconds c.env s).state ?_
    rw [mochadDiagHealth, X10M.bind_apply, effects_uptimeSeconds, List.nil_append,
      render_objectValue]
    simp only [List.map_cons, List.map_nil, render_objectValue, render_listenersValue]
    rfl
  | clients =>
    obtain rfl := Option.some.inj hreport
    refine effects_answer c (uptimeSeconds c.env s).state ?_
    rw [mochadDiagClients, X10M.bind_apply, effects_uptimeSeconds, List.nil_append,
      render_objectValue]
    simp only [List.map_cons, List.map_nil, render_objectValue]
    rfl
  | config =>
    obtain rfl := Option.some.inj hreport
    refine effects_answer c s ?_
    rw [mochadDiagConfig, mochadConfigSnprintJson_eq]
  | version =>
    obtain rfl := Option.some.inj hreport
    refine effects_answer c s ?_
    rw [render_objectValue]
    rfl
  | _ => cases hreport

/-! ### They need no escapes -/

/-- A text that stands for itself in quotes. -/
def Plain (text : Bytes) : Prop := ∀ b ∈ text, Json.plainChar b = true

instance (text : Bytes) : Decidable (Plain text) :=
  inferInstanceAs (Decidable (∀ b ∈ text, Json.plainChar b = true))

theorem wf_text {text : Bytes} (h : Plain text) : (Json.Value.text text).Wf := h

theorem wf_boolValue (b : Bool) : (boolValue b).Wf := by
  cases b
  · exact ⟨by decide, by decide⟩
  · exact ⟨by decide, by decide⟩

theorem wf_numberValue (n : ℕ) : (numberValue n).Wf :=
  ⟨digits_ne_nil 10 n, forall_mem_fmtNat (P := fun b => Json.bareChar b = true) (by decide) n⟩

/-- An object needs no escapes if its names and its values need none. -/
theorem wf_objectValue {first : String × Json.Value} {members : List (String × Json.Value)}
    (hnames : ∀ name ∈ (first :: members).map Prod.fst, Plain (ascii name))
    (hvalues : ∀ value ∈ (first :: members).map Prod.snd, value.Wf) :
    (objectValue first members).Wf := by
  refine (Json.Members.wf_ofList _ _).mpr fun m hm => ?_
  have hmember : ∃ m' ∈ first :: members, (ascii m'.1, m'.2) = m := by
    rcases List.mem_cons.mp hm with rfl | hm
    · exact ⟨first, List.mem_cons_self, rfl⟩
    · obtain ⟨m', hm', rfl⟩ := List.mem_map.mp hm
      exact ⟨m', List.mem_cons_of_mem _ hm', rfl⟩
  obtain ⟨m', hm', rfl⟩ := hmember
  exact ⟨hnames _ (List.mem_map_of_mem hm'), hvalues _ (List.mem_map_of_mem hm')⟩

theorem wf_textsValue {first : String} {texts : List String}
    (h : ∀ text ∈ first :: texts, Plain (ascii text)) : (textsValue first texts).Wf := by
  refine (Json.Items.wf_ofList _ _).mpr fun item hitem => ?_
  rcases List.mem_cons.mp hitem with rfl | hitem
  · exact h first List.mem_cons_self
  · obtain ⟨text, htext, rfl⟩ := List.mem_map.mp hitem
    exact h text (List.mem_cons_of_mem _ htext)

theorem wf_listenerValue (enabled : Bool) (port : ℕ) : (listenerValue enabled port).Wf :=
  wf_objectValue (show ∀ name ∈ ["enabled", "port"], _ by decide)
    (List.forall_mem_cons.mpr ⟨wf_boolValue enabled, List.forall_mem_singleton.mpr
      (wf_numberValue port)⟩)

theorem wf_listenersValue (config : MochadConfig) : (listenersValue config).Wf := by
  refine wf_objectValue (show ∀ name ∈ ["main", "xml", "openremote"], _ by decide) ?_
  simp only [List.map_cons, List.map_nil, List.forall_mem_cons, wf_listenerValue, true_and]
  exact List.forall_mem_nil _

theorem wf_tooLargeValue : tooLargeValue.Wf := by
  refine wf_objectValue (show ∀ name ∈ ["ok", "error"], _ by decide) ?_
  simp only [List.map_cons, List.map_nil, List.forall_mem_cons, wf_boolValue, true_and]
  exact ⟨wf_text (by decide), List.forall_mem_nil _⟩

theorem plain_dualStackName (policy : DualStackPolicy) :
    Plain (mochadConfigDualStackName policy) := by
  cases policy
  all_goals decide

theorem plain_logLevelName (level : ℤ) : Plain (mochadConfigLogLevelName level) := by
  rw [mochadConfigLogLevelName]
  split_ifs
  all_goals decide

theorem wf_configValue {config : MochadConfig} (hbind : Plain config.bindAddress) :
    (configValue config).Wf := by
  refine wf_objectValue (show ∀ name ∈ ["ok", "bind_address", "foreground", "raw_data",
    "dual_stack", "log_level", "listeners"], _ by decide) ?_
  simp [wf_boolValue, wf_listenersValue, wf_text hbind, wf_text (plain_dualStackName _),
    wf_text (plain_logLevelName _)]

/-- **No answer needs escapes**, if the address to bind needs none. -/
theorem wf_diagReport (hbind : Plain c.env.config.bindAddress)
    (hcontroller : Plain c.runtime.controller) {uptime : ℕ}
    (h : diagReport c uptime command = some v) : v.Wf := by
  have hname : (Json.Value.text (ascii "mochad-redux")).Wf := wf_text (by decide)
  have hversion : (Json.Value.text mochadReduxVersion).Wf := wf_text (by decide)
  have hbase : (Json.Value.text mochadUpstreamBase).Wf := wf_text (by decide)
  cases command with
  | hello =>
    obtain rfl := Option.some.inj h
    refine wf_objectValue (show ∀ name ∈
      ["ok", "name", "daemon", "version", "upstream_base", "diagnostics"], _ by decide) ?_
    simp [wf_boolValue, hname, hversion, hbase]
  | capabilities =>
    obtain rfl := Option.some.inj h
    refine wf_objectValue (show ∀ name ∈
      ["ok", "commands", "legacy_commands", "json", "single_line", "raw_data"], _ by decide) ?_
    have hcommands := wf_textsValue (show ∀ text ∈
      ["hello", "capabilities", "health", "clients", "config", "version"], _ by decide)
    have hlegacy := wf_textsValue (show ∀ text ∈ ["pl", "rf", "rfsec", "rfcam", "pt", "rftopl",
      "rftorf", "st", "getstatus", "getstatussec"], _ by decide)
    simp [wf_boolValue, hcommands, hlegacy]
  | health =>
    obtain rfl := Option.some.inj h
    refine wf_objectValue (show ∀ name ∈ ["ok", "name", "version", "upstream_base",
      "uptime_seconds", "usb_connected", "controller", "endpoints_ready", "transfers_ready",
      "clients_total", "usb_tx", "bind_address", "listeners"], _ by decide) ?_
    have htx : (objectValue ("out_completed", numberValue c.runtime.usbOutCompleted)
        [("ack_received", numberValue c.runtime.usbAckReceived),
        ("ack_timeout", numberValue c.runtime.usbAckTimeout),
        ("unexpected_one_byte", numberValue c.runtime.usbUnexpectedOneByte)]).Wf :=
      wf_objectValue (show ∀ name ∈
        ["out_completed", "ack_received", "ack_timeout", "unexpected_one_byte"], _ by decide)
        (by simp [wf_numberValue])
    simp [wf_boolValue, wf_numberValue, wf_listenersValue, hname, hversion, hbase, htx,
      wf_text hbind, wf_text hcontroller]
  | clients =>
    obtain rfl := Option.some.inj h
    refine wf_objectValue (show ∀ name ∈ ["ok", "clients", "max_clients", "next_client_id"], _
      by decide) ?_
    have hclients : ∀ total, (objectValue ("main", numberValue c.runtime.clientsMain)
        [("xml", numberValue c.runtime.clientsXml),
        ("openremote", numberValue c.runtime.clientsOpenremote),
        ("total", numberValue total)]).Wf := fun total =>
      wf_objectValue (show ∀ name ∈ ["main", "xml", "openremote", "total"], _ by decide)
        (by simp [wf_numberValue])
    simp [wf_boolValue, wf_numberValue, hclients]
  | config =>
    obtain rfl := Option.some.inj h
    exact wf_configValue hbind
  | version =>
    obtain rfl := Option.some.inj h
    refine wf_objectValue (show ∀ name ∈
      ["ok", "name", "daemon", "version", "upstream_base"], _ by decide) ?_
    simp [wf_boolValue, hname, hversion, hbase]
  | _ => cases h

/-! ### The configuration is known -/

theorem boolValue_inj {b b' : Bool} (h : boolValue b = boolValue b') : b = b' := by
  have hall : ∀ b b' : Bool, jsonBool b = jsonBool b' → b = b' := by decide
  exact hall b b' (Json.Value.bare.inj h)

theorem numberValue_inj {n n' : ℕ} (h : numberValue n = numberValue n') : n = n' := by
  have hword : fmtNat n = fmtNat n' := Json.Value.bare.inj h
  rw [← digitsValue_fmtNat n, hword, digitsValue_fmtNat]

theorem dualStackName_inj {policy policy' : DualStackPolicy}
    (h : mochadConfigDualStackName policy = mochadConfigDualStackName policy') :
    policy = policy' := by
  cases policy
  all_goals
    cases policy'
    all_goals first
      | rfl
      | exact absurd h (by decide)

/-- The levels of `syslog` have names of their own. -/
theorem logLevelName_inj {level level' : ℤ} (hlevel : logEmerg ≤ level ∧ level ≤ logDebug)
    (hlevel' : logEmerg ≤ level' ∧ level' ≤ logDebug)
    (h : mochadConfigLogLevelName level = mochadConfigLogLevelName level') : level = level' := by
  have hall : ∀ l l' : Fin 8,
      mochadConfigLogLevelName (l : ℕ) = mochadConfigLogLevelName (l' : ℕ) → l = l' := by decide
  rw [logEmerg, logDebug] at hlevel hlevel'
  obtain ⟨l, rfl⟩ := Int.eq_ofNat_of_zero_le hlevel.1
  obtain ⟨l', rfl⟩ := Int.eq_ofNat_of_zero_le hlevel'.1
  have hsame := hall ⟨l, by omega⟩ ⟨l', by omega⟩ h
  rw [Fin.mk.injEq] at hsame
  rw [hsame]

theorem listenerValue_inj {enabled enabled' : Bool} {port port' : ℕ}
    (h : listenerValue enabled port = listenerValue enabled' port') :
    enabled = enabled' ∧ port = port' := by
  simp only [listenerValue, objectValue, List.map_cons, List.map_nil, Json.Members.ofList,
    Json.Value.object.injEq, Json.Members.more.injEq, Json.Members.last.injEq, true_and] at h
  exact ⟨boolValue_inj h.1, numberValue_inj h.2⟩

theorem level_of_validate {getaddrinfo : Bytes → Port → Bool} {config : MochadConfig}
    (h : mochadConfigValidate getaddrinfo config = .ok ()) :
    logEmerg ≤ config.logLevel ∧ config.logLevel ≤ logDebug := by
  simp only [mochadConfigValidate] at h
  split at h
  · cases h
  split at h
  · cases h
  split at h
  · cases h
  split at h
  · cases h
  next hlevel => omega

/-- **What the daemon runs with is known from what is printed of it**: two valid configurations that
are printed alike, in whatever buffers, differ in no more than the fields that only `main` reads,
which are not printed. -/
theorem config_of_snprintJson {getaddrinfo : Bytes → Port → Bool}
    {config config' : LoadedConfig}
    (hvalid : mochadConfigValidate getaddrinfo config.toMochadConfig = .ok ())
    (hvalid' : mochadConfigValidate getaddrinfo config'.toMochadConfig = .ok ())
    (hbind : Plain config.bindAddress) (hbind' : Plain config'.bindAddress) {size size' : ℕ}
    {text : Bytes} (h : mochadConfigSnprintJson size config.toMochadConfig = some text)
    (h' : mochadConfigSnprintJson size' config'.toMochadConfig = some text) :
    config.toMochadConfig = config'.toMochadConfig := by
  generalize config.toMochadConfig = config at hvalid hbind h ⊢
  generalize config'.toMochadConfig = config' at hvalid' hbind' h' ⊢
  have hread : ∀ {size : ℕ} {config : MochadConfig}, Plain config.bindAddress →
      mochadConfigSnprintJson size config = some text →
        Json.read text = some (configValue config) := by
    intro size config hbind h
    rw [mochadConfigSnprintJson_eq, checkedSnprintf] at h
    split at h
    · obtain rfl := Option.some.inj h
      exact Json.read_render (wf_configValue hbind)
    · cases h
  have hsame : configValue config = configValue config' :=
    Option.some.inj ((hread hbind h).symm.trans (hread hbind' h'))
  simp only [configValue, listenersValue, objectValue, List.map_cons, List.map_nil,
    Json.Members.ofList, Json.Value.object.injEq, Json.Members.more.injEq,
    Json.Members.last.injEq, Json.Value.text.injEq, true_and] at hsame
  -- the values are alike member by member
  obtain ⟨haddress, hforeground, hraw, hdual, hlevel, hmain, hxml, hor⟩ := hsame
  have hports := (listenerValue_inj hmain).2
  obtain ⟨hxmlEnabled, hxmlPort⟩ := listenerValue_inj hxml
  obtain ⟨horEnabled, horPort⟩ := listenerValue_inj hor
  have hname := logLevelName_inj (level_of_validate hvalid) (level_of_validate hvalid') hlevel
  cases config
  cases config'
  simp only [MochadConfig.mk.injEq]
  exact ⟨haddress, Subtype.ext hports, Subtype.ext hxmlPort, Subtype.ext horPort, hxmlEnabled,
    horEnabled, boolValue_inj hforeground, boolValue_inj hraw, dualStackName_inj hdual, hname⟩

/-- Whether raw data is shown can be seen. -/
theorem config_of_snprintJson_raw :
    mochadConfigSnprintJson 1024 loadedConfigDefaults.toMochadConfig ≠
      mochadConfigSnprintJson 1024 { loadedConfigDefaults with rawData := true }.toMochadConfig := by
  intro hsame
  obtain ⟨text, htext⟩ :
      ∃ text, mochadConfigSnprintJson 1024 loadedConfigDefaults.toMochadConfig = some text :=
    Option.isSome_iff_exists.mp (by decide +kernel)
  have hconfig := @config_of_snprintJson (fun _ _ => true) loadedConfigDefaults
    { loadedConfigDefaults with rawData := true } rfl rfl (by decide) (by decide) _ _ text htext
    (hsame ▸ htext)
  exact absurd (congrArg MochadConfig.rawData hconfig) (by decide)

/-! ### What is read -/

namespace Daemon

theorem plain_controllerModel (env : Env) (d : Daemon) : Plain (d.controllerModel env) := by
  rw [controllerModel]
  split_ifs
  all_goals decide

/-- **A diagnostic answer is read as what it says**: whatever the daemon has done, and whoever asks,
the answer is one line, and what is in front of its end is read as the value that the command is to
be answered – or as an error, if there was no room for that. -/
theorem diagnostics_read_back {env : Env} (hbind : Plain env.config.bindAddress) (d : Daemon)
    (fd : ℤ) {line : Bytes} {command : Command} {tokens : List Bytes} {v : Json.Value}
    (hline : commandOfLine line = some (command, tokens))
    (hreport : diagReport (d.ctx env) (uptimeSeconds env d.x10).value command = some v) :
    ∃ text, (Mochad.processcommandline (d.ctx env) fd line d.x10).effects =
        [.statusprintf fd (text ++ ascii "\n")] ∧
      Json.read text = some (fittingReport v) := by
  have hwf : (fittingReport v).Wf := by
    rw [fittingReport]
    split
    · exact wf_diagReport hbind (plain_controllerModel env d) hreport
    · exact wf_tooLargeValue
  exact ⟨_, effects_diagnostic hline hreport, Json.read_render hwf⟩

/-- The daemon is asked for its version. -/
theorem diagnostics_read_back_version : ∃ text,
    (Mochad.processcommandline ((initial (.plain mochadConfigDefaults false)).ctx
      (.plain mochadConfigDefaults false)) 4 (ascii "version")
        (initial (.plain mochadConfigDefaults false)).x10).effects =
        [.statusprintf 4 (text ++ ascii "\n")] ∧
      Json.read text = some (objectValue ("ok", boolValue true)
        [("name", .text (ascii "mochad-redux")), ("daemon", .text (ascii "mochad-redux")),
        ("version", .text (ascii "0.5.0")), ("upstream_base", .text (ascii "mochad 0.1.18"))]) := by
  obtain ⟨text, htext, hread⟩ :=
    @diagnostics_read_back (.plain mochadConfigDefaults false) (by decide)
      (initial (.plain mochadConfigDefaults false)) 4 _ _ _ _
      (show commandOfLine (ascii "version") = some (.version, []) by decide +kernel) rfl
  rw [fittingReport, if_pos (by decide +kernel)] at hread
  exact ⟨text, htext, hread⟩

end Daemon

end Mochad
