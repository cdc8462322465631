import Mochad.Settings.Sources

/-!
# Precedence of the layers

What a config file, the environment and the command line give is a list of assignments each
(`fileGiven`, `environmentGiven`, `cliGiven`), or nothing if some entry is malformed, unknown or
invalid. The loaded configuration is meant to be the defaults under these assignments in order, so
that each field has the value of its last assignment (`LayeredLoad`).

Each layer of the program makes the assignments that its text gives. What can go wrong is the
choice of the file: `find_config_file_arg` takes every argument `--config` for the option, also one
that `apply_cli` takes for the argument of `--bind`. So the layers are as they are meant to be
exactly if the file that is found is the one that the options select, or the configuration is to be
refused with either (`layeredLoad_iff`).
-/

namespace Mochad

open Layers

/-! ### What the layers give -/

/-- **The physical lines** of a text, each with its newline. -/
def physicalLines : Bytes → List Bytes
  | [] => []
  | b :: rest =>
      if b = 0x0a then [b] :: physicalLines rest
      else
        match physicalLines rest with
        | [] => [[b]]
        | line :: lines => (b :: line) :: lines

/-- **What a line of the config file gives**: nothing if it is blank or a comment, and else the
assignment of the key before its first `=` and the value after it. -/
def lineGiven (line : Bytes) : Option (List Setting) :=
  let text := lineText line
  if text = [] then some []
  else if 0x3d ∉ text then none
  else entry (trim (text.takeWhile (· ≠ 0x3d))) (trim (text.dropWhile (· ≠ 0x3d)).tail)

/-- What a config file gives. -/
def fileGiven (content : Bytes) : Option (List Setting) := each lineGiven (physicalLines content)

/-- What a variable gives. One that is empty gives nothing. -/
def variableGiven (getenv : Bytes → Option Bytes) (row : Bytes × Bytes) : Option (List Setting) :=
  match getenv row.1 with
  | none | some [] => some []
  | some value => entry row.2 value

/-- What the environment gives. -/
def environmentGiven (getenv : Bytes → Option Bytes) : Option (List Setting) :=
  each (variableGiven getenv) environmentVariables

/-- What the options of the command line give, `--config` aside. -/
def cliGiven : List Bytes → Option (List Setting)
  | [] => some []
  | [arg] =>
      match cliOption arg with
      | some (.flag setting) => some [setting]
      | _ => none
  | arg :: value :: args =>
      match cliOption arg with
      | none => none
      | some (.flag setting) => both (some [setting]) (cliGiven (value :: args))
      | some .config => cliGiven args
      | some (.keyed key) => both (entry key value) (cliGiven args)

/-- The arguments of the options `--config`. -/
def configArguments : List Bytes → Option (List Bytes)
  | [] => some []
  | [arg] =>
      match cliOption arg with
      | some (.flag _) => some []
      | _ => none
  | arg :: value :: args =>
      match cliOption arg with
      | none => none
      | some (.flag _) => configArguments (value :: args)
      | some .config =>
          (copyString 512 value).toOption.bind fun path => (configArguments args).map (path :: ·)
      | some (.keyed _) => configArguments args

namespace ConfigSources

variable (sources : ConfigSources)

/-- The path that `MOCHAD_CONFIG` gives. -/
def configVariable : Option (List Bytes) :=
  match sources.getenv (ascii "MOCHAD_CONFIG") with
  | none | some [] => some []
  | some envPath => (copyString 512 envPath).toOption.map ([·])

/-- **The config file that is selected**: the last one, of `MOCHAD_CONFIG` and the options
`--config` from left to right. It is the empty path if none is, and there is no selection if one of
them is malformed. -/
def selectedFile : Option Bytes :=
  sources.configVariable.bind fun fromVariable =>
    (configArguments sources.argv).map fun fromOptions =>
      (fromVariable ++ fromOptions).getLast?.getD []

/-- The file that `find_config_file_arg` finds. -/
def foundFile : Option Bytes := (findConfigFileArg sources).toOption

/-- What is in a file, if it is readable. -/
def readGiven (path : Bytes) : Option (List Setting) :=
  match sources.fopen path with
  | .error _ => none
  | .ok file => if file.ferror then none else fileGiven file.content

/-- What the layer of the config file gives: the file itself, and what is in it. -/
def fileLayer (path : Bytes) : Option (List Setting) :=
  if path = [] then some [] else both (some [⟨.configFile, path⟩]) (sources.readGiven path)

/-- **All that is given**, in order, when a file is read. -/
def givenWith (file : Option Bytes) : Option (List Setting) :=
  file.bind fun path =>
    both (sources.fileLayer path) (both (environmentGiven sources.getenv) (cliGiven sources.argv))

/-- The configuration that assignments leave of the defaults. -/
def assigned (given : List Setting) : LoadedConfig :=
  LoadedConfig.ofFields (assign given loadedConfigDefaults.get)

/-- With this file everything is readable, well-formed, known and valid, and the resulting
configuration passes validation. -/
def Fine (file : Option Bytes) : Prop :=
  ∃ given, sources.givenWith file = some given ∧
    mochadConfigValidate sources.getaddrinfo (assigned given).toMochadConfig = .ok ()

/-- **The configuration is acceptable**: it is with the file that is selected. -/
def Acceptable : Prop := sources.Fine sources.selectedFile

/-- The physical lines of a file fit the buffer of `load_config_file`, which has room for 511
bytes. -/
def FileFits (path : Bytes) : Prop :=
  ∀ file, sources.fopen path = .ok file → ∀ line ∈ physicalLines file.content, line.length < 512

end ConfigSources

/-- A layer changes no field that it does not mention. -/
def LeavesUnmentioned (layer : LoadedConfig → Except Bytes LoadedConfig)
    (given : Option (List Setting)) : Prop :=
  ∀ config config', layer config = .ok config' → ∀ f, (∀ as, given = some as → ¬Mentions as f) →
    config'.get f = config.get f

/-- **Loading in layers.** -/
structure LayeredLoad (errorLen : ℕ) (sources : ConfigSources) : Prop where
  /-- Loading succeeds exactly if the configuration is acceptable. -/
  succeeds : (∃ config, mochadConfigLoad errorLen sources = .ok config) ↔ sources.Acceptable
  /-- Each field then has the value of its last assignment, or its default. -/
  last : ∀ config, mochadConfigLoad errorLen sources = .ok config →
    ∃ given, sources.givenWith sources.selectedFile = some given ∧
      ∀ f, config.get f = (last f given).getD (loadedConfigDefaults.get f)
  /-- No layer changes a field that it does not mention. -/
  file : ∀ path, sources.foundFile = some path →
    LeavesUnmentioned (loadFile errorLen sources path) (sources.fileLayer path)
  environment : LeavesUnmentioned (applyEnvironment errorLen sources.getenv)
    (environmentGiven sources.getenv)
  cli : LeavesUnmentioned (applyCli sources.argv) (cliGiven sources.argv)

/-! ### The config file -/

/-- The lines of a text whose first line has been begun. -/
def resumed (taken : Bytes) : List Bytes → List Bytes
  | [] => if taken = [] then [] else [taken]
  | line :: lines => (taken ++ line) :: lines

@[simp] theorem resumed_nil (lines : List Bytes) : resumed [] lines = lines := by
  cases lines <;> rfl

theorem resumed_append (taken : Bytes) (b : UInt8) (lines : List Bytes) :
    resumed (taken ++ [b]) lines =
      resumed taken (match lines with | [] => [[b]] | line :: lines => (b :: line) :: lines) := by
  cases lines with
  | nil => simp [resumed]
  | cons line lines => simp [resumed]

/-- A text that is not empty has a first line, which begins as the text does. -/
theorem physicalLines_cons (b : UInt8) (rest : Bytes) :
    ∃ line lines, physicalLines (b :: rest) = (b :: line) :: lines := by
  rw [physicalLines]
  split
  · exact ⟨_, _, rfl⟩
  · split
    · exact ⟨_, _, rfl⟩
    · exact ⟨_, _, rfl⟩

/-- **What `fgets` reads are the physical lines**, if these fit the buffer. -/
theorem fgetsPieces_eq {size : ℕ} (bs taken : Bytes)
    (hfits : ∀ line ∈ resumed taken (physicalLines bs), line.length < size) :
    fgetsPieces size taken bs = resumed taken (physicalLines bs) := by
  induction bs generalizing taken with
  | nil => rfl
  | cons b rest ih =>
    rw [fgetsPieces, physicalLines] at *
    by_cases hb : b = 0x0a
    · rw [if_pos hb] at hfits
      have hrest : ∀ line ∈ resumed [] (physicalLines rest), line.length < size := by
        intro line hline
        rw [resumed_nil] at hline
        exact hfits line (List.mem_cons_of_mem _ hline)
      simp only [hb, true_or, if_true, ih [] hrest, resumed_nil]
      rfl
    · rw [if_neg hb] at hfits ⊢
      rw [← resumed_append] at hfits ⊢
      by_cases hfull : size ≤ (taken ++ [b]).length + 1
      · -- A line that fills the buffer is the last one, and has no newline.
        have hlast : rest = [] := by
          cases rest with
          | nil => rfl
          | cons c rest =>
            obtain ⟨line, lines, hlines⟩ := physicalLines_cons c rest
            rw [hlines] at hfits
            have hfirst := hfits _ List.mem_cons_self
            rw [List.length_append, List.length_cons] at hfirst
            omega
        subst hlast
        simp [fgetsPieces, physicalLines, resumed]
      · simp only [hb, hfull, false_or, if_false]
        exact ih (taken ++ [b]) hfits

theorem loadLines_assigns (errorLen : ℕ) (lines : List Bytes) (lineNumber : ℕ) :
    Assigns LoadedConfig.get (loadLines errorLen lineNumber lines) (each lineGiven lines) := by
  induction lines generalizing lineNumber with
  | nil => exact Assigns.keep
  | cons line lines ih =>
    intro config
    rw [loadLines, each]
    by_cases htext : lineText line = []
    · have hgiven : lineGiven line = some [] := by simp [lineGiven, htext]
      rw [hgiven]
      simp only [htext, if_true]
      exact (Assigns.keep.seq (ih (lineNumber + 1))) config
    by_cases hequals : 0x3d ∉ lineText line
    · have hgiven : lineGiven line = none := by simp [lineGiven, htext, hequals]
      rw [hgiven]
      simp only [htext, hequals, if_false, if_true, not_false_eq_true]
      exact Assigns.fail (fun _ => _) config
    · have hgiven : lineGiven line = entry (trim ((lineText line).takeWhile (· ≠ 0x3d)))
          (trim ((lineText line).dropWhile (· ≠ 0x3d)).tail) := by
        simp [lineGiven, htext, hequals]
      rw [hgiven]
      simp only [htext, hequals, if_false]
      exact (((applyKeyValue_assigns _ _).mapError _).seq (ih (lineNumber + 1))) config

theorem loadConfigFile_assigns {sources : ConfigSources} {path : Bytes} (hpath : path ≠ [])
    (hfits : sources.FileFits path) (errorLen : ℕ) :
    Assigns LoadedConfig.get (loadConfigFile errorLen sources.fopen path)
      (sources.readGiven path) := by
  intro config
  rw [loadConfigFile, if_neg hpath, ConfigSources.readGiven]
  cases hopen : sources.fopen path with
  | error strerror => rfl
  | ok file =>
    have hpieces : fgetsPieces 512 [] file.content = physicalLines file.content := by
      rw [fgetsPieces_eq _ _ (by rw [resumed_nil]; exact hfits file hopen), resumed_nil]
    have hlines := loadLines_assigns errorLen (fgetsPieces 512 [] file.content) 1
    rw [hpieces] at hlines
    simp only [hpieces]
    cases file.ferror with
    | true =>
      have hboth : both (fileGiven file.content) none = none := by
        cases fileGiven file.content <;> rfl
      have hfail := hlines.seq (Assigns.fail fun _ => ascii "error reading config file " ++ path)
      exact (hfail config).trans (congrArg _ hboth)
    | false =>
      have hboth : both (fileGiven file.content) (some []) = fileGiven file.content := by
        cases fileGiven file.content <;> simp [both]
      exact ((hlines.seq Assigns.keep) config).trans (congrArg _ hboth)

theorem copyString_of_length {size : ℕ} {text : Bytes} (hne : text ≠ [])
    (hlength : text.length < size) : copyString size text = .ok text := by
  rw [copyString, if_neg hne, if_neg (Nat.not_le.mpr hlength)]

theorem length_of_copyString {size : ℕ} {text text' : Bytes}
    (h : copyString size text = .ok text') : text' = text ∧ text ≠ [] ∧ text.length < size := by
  rw [copyString] at h
  split at h
  · cases h
  next hne =>
    split at h
    · cases h
    next hlength => exact ⟨(Except.ok.inj h).symm, hne, Nat.not_le.mp hlength⟩

theorem loadFile_assigns {sources : ConfigSources} {path : Bytes} (hpath : path.length < 512)
    (hfits : sources.FileFits path) (errorLen : ℕ) :
    Assigns LoadedConfig.get (loadFile errorLen sources path) (sources.fileLayer path) := by
  intro config
  rw [loadFile, ConfigSources.fileLayer]
  by_cases hnone : path = []
  · rw [if_pos hnone, if_pos hnone]
    rfl
  · rw [if_neg hnone, if_neg hnone, copyString_of_length hnone hpath]
    have hset : Assigns LoadedConfig.get
        (fun config => (.ok (config.set ⟨.configFile, path⟩) : Except Bytes LoadedConfig))
        (some [⟨.configFile, path⟩]) :=
      Assigns.set fun config => LoadedConfig.get_set config _
    exact (hset.seq (loadConfigFile_assigns hnone hfits errorLen)) config

/-! ### The environment and the command line -/

theorem applyEnvironment_assigns (errorLen : ℕ) (getenv : Bytes → Option Bytes) :
    Assigns LoadedConfig.get (applyEnvironment errorLen getenv) (environmentGiven getenv) := by
  refine Assigns.foldlM (fun row config => ?_) environmentVariables
  rw [applyEnvValue, variableGiven]
  rcases getenv row.1 with _ | _ | ⟨b, bs⟩
  · rfl
  · rfl
  · exact (applyKeyValue_assigns _ _).mapError _ config

theorem applyCli_assigns (argv : List Bytes) :
    Assigns LoadedConfig.get (applyCli argv) (cliGiven argv) := by
  have hset : ∀ setting, Assigns LoadedConfig.get
      (fun config => (.ok (config.set setting) : Except Bytes LoadedConfig)) (some [setting]) :=
    fun setting => Assigns.set fun config => LoadedConfig.get_set config setting
  induction argv using cliGiven.induct with
  | case1 => exact Assigns.keep
  | case2 arg setting harg =>
    intro config
    simp only [applyCli, cliGiven, harg]
    exact hset setting config
  | case3 arg harg =>
    intro config
    simp only [applyCli, cliGiven]
    rcases hoption : cliOption arg with _ | _ | setting | key
    · rfl
    · rfl
    · exact absurd hoption (harg setting)
    · rfl
  | case4 arg value args harg =>
    intro config
    simp only [applyCli, cliGiven, harg]
    rfl
  | case5 arg value args setting harg ih =>
    intro config
    simp only [applyCli, cliGiven, harg]
    exact ((hset setting).seq ih) config
  | case6 arg value args harg ih =>
    intro config
    simp only [applyCli, cliGiven, harg]
    exact ih config
  | case7 arg value args key harg ih =>
    intro config
    simp only [applyCli, cliGiven, harg]
    exact ((applyKeyValue_assigns key value).seq ih) config

/-! ### The field of the config file -/

theorem entry_not_mentions {rawKey rawValue : Bytes} {as : List Setting}
    (h : entry rawKey rawValue = some as) : ¬Mentions as .configFile := by
  rw [entry] at h
  split at h
  · obtain ⟨f, -, h⟩ := Option.bind_eq_some_iff.mp h
    obtain ⟨v, hv, rfl⟩ := Option.map_eq_some_iff.mp h
    rintro ⟨a, ha, hf⟩
    rw [List.mem_singleton.mp ha] at hf
    obtain rfl : f = .configFile := hf
    cases hv
  · cases h

theorem readGiven_not_mentions {sources : ConfigSources} {path : Bytes} {as : List Setting}
    (h : sources.readGiven path = some as) : ¬Mentions as .configFile := by
  have hline : ∀ line bs, lineGiven line = some bs → ¬Mentions bs .configFile := by
    intro line bs hbs
    simp only [lineGiven] at hbs
    split at hbs
    · obtain rfl := Option.some.inj hbs
      exact not_mentions_nil _
    · split at hbs
      · cases hbs
      · exact entry_not_mentions hbs
  rw [ConfigSources.readGiven] at h
  split at h
  · cases h
  · split at h
    · cases h
    · exact not_mentions_each hline _ h

theorem environmentGiven_not_mentions {getenv : Bytes → Option Bytes} {as : List Setting}
    (h : environmentGiven getenv = some as) : ¬Mentions as .configFile := by
  refine not_mentions_each (fun row bs hbs => ?_) _ h
  rw [variableGiven] at hbs
  split at hbs
  · obtain rfl := Option.some.inj hbs
    exact not_mentions_nil _
  · obtain rfl := Option.some.inj hbs
    exact not_mentions_nil _
  · exact entry_not_mentions hbs

/-- No option sets the field by itself. -/
theorem ne_configFile_of_flag {arg : Bytes} {setting : Setting}
    (h : cliOption arg = some (.flag setting)) : setting.1 ≠ .configFile := by
  have hrows : ∀ row ∈ cliOptions, ∀ setting, row.2 = .flag setting →
      setting.1 ≠ .configFile := by
    simp [cliOptions]
  obtain ⟨row, hrow, hsetting⟩ := Option.map_eq_some_iff.mp h
  exact hrows row (List.mem_of_find?_eq_some hrow) setting hsetting

theorem cliGiven_not_mentions {argv : List Bytes} {as : List Setting}
    (h : cliGiven argv = some as) : ¬Mentions as .configFile := by
  have hflag : ∀ {arg setting}, cliOption arg = some (.flag setting) →
      ∀ bs, some [setting] = some bs → ¬Mentions bs .configFile := by
    rintro arg setting harg bs hbs ⟨a, ha, hf⟩
    obtain rfl := Option.some.inj hbs
    exact ne_configFile_of_flag harg (List.mem_singleton.mp ha ▸ hf)
  induction argv using cliGiven.induct generalizing as with
  | case1 =>
    obtain rfl := Option.some.inj h
    exact not_mentions_nil _
  | case2 arg setting harg =>
    simp only [cliGiven, harg] at h
    exact hflag harg as h
  | case3 arg harg =>
    simp only [cliGiven] at h
    cases h
  | case4 arg value args harg =>
    simp only [cliGiven, harg] at h
    cases h
  | case5 arg value args setting harg ih =>
    simp only [cliGiven, harg] at h
    exact not_mentions_both (hflag harg) (fun _ => ih) h
  | case6 arg value args harg ih =>
    simp only [cliGiven, harg] at h
    exact ih h
  | case7 arg value args key harg ih =>
    simp only [cliGiven, harg] at h
    exact not_mentions_both (fun _ => entry_not_mentions) (fun _ => ih) h

/-! ### The whole of it -/

/-- A result that is checked. -/
theorem checked_ok {α ε : Type} {result : Except ε α} (check : α → Except ε Unit) {a : α} :
    (result >>= fun a => check a >>= fun _ => .ok a) = .ok a ↔
      result = .ok a ∧ check a = .ok () := by
  cases result with
  | error e => exact iff_of_false nofun fun h => nomatch h.1
  | ok a' =>
    change (check a' >>= fun _ => Except.ok a') = .ok a ↔ Except.ok a' = .ok a ∧ check a = .ok ()
    cases hcheck : check a' with
    | error e =>
      refine iff_of_false nofun ?_
      rintro ⟨ha, hok⟩
      rw [← Except.ok.inj ha, hcheck] at hok
      cases hok
    | ok u =>
      refine ⟨fun h => ?_, fun h => h.1⟩
      have ha : a' = a := Except.ok.inj h
      exact ⟨congrArg _ ha, ha ▸ hcheck⟩

namespace ConfigSources

variable {sources : ConfigSources}

/-- Everything that is applied once the file is found makes the assignments that are given with
that file. -/
theorem loadFound_ok {path : Bytes} (hpath : path.length < 512) (hfits : sources.FileFits path)
    (errorLen : ℕ) (config : LoadedConfig) :
    loadFound errorLen sources path = .ok config ↔
      ∃ given, sources.givenWith (some path) = some given ∧ assigned given = config ∧
        mochadConfigValidate sources.getaddrinfo config.toMochadConfig = .ok () := by
  have hlayers : Assigns LoadedConfig.get _ (sources.givenWith (some path)) :=
    (loadFile_assigns hpath hfits errorLen).seq
      ((applyEnvironment_assigns errorLen sources.getenv).seq (applyCli_assigns sources.argv))
  have hrun : loadFound errorLen sources path = .ok config ↔
      (loadFile errorLen sources path loadedConfigDefaults >>= fun config =>
          applyEnvironment errorLen sources.getenv config >>= applyCli sources.argv) = .ok config ∧
        mochadConfigValidate sources.getaddrinfo config.toMochadConfig = .ok () := by
    refine Iff.trans ?_ (checked_ok fun config : LoadedConfig =>
      mochadConfigValidate sources.getaddrinfo config.toMochadConfig)
    simp only [loadFound, bind_assoc]
    exact Iff.rfl
  rw [hrun]
  constructor
  · rintro ⟨happlied, hvalid⟩
    obtain ⟨given, hgiven, hview⟩ := hlayers.ok happlied
    exact ⟨given, hgiven, by rw [assigned, ← hview, LoadedConfig.ofFields_get], hvalid⟩
  · rintro ⟨given, hgiven, rfl, hvalid⟩
    obtain ⟨config, happlied, hview⟩ := hlayers.exists_ok hgiven loadedConfigDefaults
    have hconfig : config = assigned given := by
      rw [assigned, ← hview, LoadedConfig.ofFields_get]
    exact ⟨hconfig ▸ happlied, hvalid⟩

/-- The file that is found is a path that fits its buffer. -/
theorem length_findConfigArgs {path path' : Bytes} {args : List Bytes} (hpath : path.length < 512)
    (h : findConfigArgs path args = .ok path') : path'.length < 512 := by
  induction path, args using findConfigArgs.induct with
  | case1 path => exact Except.ok.inj h ▸ hpath
  | case2 path =>
    rw [findConfigArgs, if_pos rfl] at h
    cases h
  | case3 path arg harg =>
    rw [findConfigArgs, if_neg harg] at h
    exact Except.ok.inj h ▸ hpath
  | case4 path value args ih =>
    rw [findConfigArgs, if_pos rfl] at h
    cases hcopy : copyString 512 value with
    | error e =>
      rw [hcopy] at h
      cases h
    | ok copied =>
      rw [hcopy] at h
      obtain ⟨rfl, -, hlength⟩ := length_of_copyString hcopy
      exact ih _ hlength h
  | case5 path arg value args harg ih =>
    rw [findConfigArgs, if_neg harg] at h
    exact ih hpath h

/-- `find_config_file_arg` starts from the file that `MOCHAD_CONFIG` gives. -/
theorem foundFile_eq (sources : ConfigSources) :
    sources.foundFile = sources.configVariable.bind fun fromVariable =>
      (findConfigArgs (fromVariable.getLast?.getD []) sources.argv).toOption := by
  rw [foundFile, findConfigFileArg, configVariable]
  rcases sources.getenv (ascii "MOCHAD_CONFIG") with _ | _ | ⟨b, bs⟩
  · rfl
  · rfl
  · change (copyString 512 (b :: bs) >>= fun path => findConfigArgs path sources.argv).toOption =
      ((copyString 512 (b :: bs)).toOption.map ([·])).bind fun fromVariable =>
        (findConfigArgs (fromVariable.getLast?.getD []) sources.argv).toOption
    cases copyString 512 (b :: bs) with
    | error e => rfl
    | ok path => rfl

theorem length_configVariable {fromVariable : List Bytes}
    (h : sources.configVariable = some fromVariable) :
    (fromVariable.getLast?.getD []).length < 512 := by
  rw [configVariable] at h
  split at h
  · obtain rfl := Option.some.inj h
    decide
  · obtain rfl := Option.some.inj h
    decide
  next envPath _ _ =>
    cases hcopy : copyString 512 envPath with
    | error e =>
      rw [hcopy] at h
      cases h
    | ok path =>
      rw [hcopy] at h
      obtain rfl := Option.some.inj h
      obtain ⟨rfl, -, hlength⟩ := length_of_copyString hcopy
      exact hlength

theorem length_foundFile {path : Bytes} (h : sources.foundFile = some path) :
    path.length < 512 := by
  rw [foundFile_eq, Option.bind_eq_some_iff] at h
  obtain ⟨fromVariable, hvariable, hfound⟩ := h
  cases hargs : findConfigArgs (fromVariable.getLast?.getD []) sources.argv with
  | error e =>
    rw [hargs] at hfound
    cases hfound
  | ok found =>
    rw [hargs] at hfound
    obtain rfl := Option.some.inj hfound
    exact length_findConfigArgs (length_configVariable hvariable) hargs

/-- **What is loaded**: the defaults under all that is given with the file that is found, if this
is fine. -/
theorem load_ok (errorLen : ℕ)
    (hfits : ∀ path, sources.foundFile = some path → sources.FileFits path)
    (config : LoadedConfig) :
    mochadConfigLoad errorLen sources = .ok config ↔
      ∃ given, sources.givenWith sources.foundFile = some given ∧ assigned given = config ∧
        mochadConfigValidate sources.getaddrinfo config.toMochadConfig = .ok () := by
  have hok : mochadConfigLoad errorLen sources = .ok config ↔
      (findConfigFileArg sources >>= loadFound errorLen sources) = .ok config := by
    rw [mochadConfigLoad]
    cases findConfigFileArg sources >>= loadFound errorLen sources with
    | error e => exact iff_of_false nofun nofun
    | ok config => exact Iff.rfl
  rw [hok]
  cases hfound : findConfigFileArg sources with
  | error e =>
    have hnone : sources.foundFile = none := by rw [foundFile, hfound]; rfl
    rw [hnone]
    exact iff_of_false nofun nofun
  | ok path =>
    have hsome : sources.foundFile = some path := by rw [foundFile, hfound]; rfl
    rw [hsome]
    exact loadFound_ok (length_foundFile hsome) (hfits path hsome) errorLen config

/-- The field of the config file is the file that was given. -/
theorem configFile_assigned {path : Bytes} {given : List Setting}
    (h : sources.givenWith (some path) = some given) : (assigned given).configFile = path := by
  obtain ⟨fromFile, hfile, others, hothers, rfl⟩ := both_eq_some.mp h
  have hrest : ¬Mentions others .configFile :=
    not_mentions_both (fun _ => environmentGiven_not_mentions) (fun _ => cliGiven_not_mentions)
      hothers
  change assign (fromFile ++ others) loadedConfigDefaults.get .configFile = path
  rw [assign_append, assign_of_not_mentions hrest]
  rw [fileLayer] at hfile
  split at hfile
  next hnone =>
    obtain rfl := Option.some.inj hfile
    exact hnone.symm
  · obtain ⟨_, hpath, lines, hlines, rfl⟩ := both_eq_some.mp hfile
    obtain rfl := Option.some.inj hpath
    rw [assign_append, assign_of_not_mentions (readGiven_not_mentions hlines)]
    rfl

end ConfigSources

/-! ### The layers as they are meant to be -/

theorem assigned_get (given : List Setting) (f : ConfigField) :
    (ConfigSources.assigned given).get f =
      (last f given).getD (loadedConfigDefaults.get f) := by
  rw [ConfigSources.assigned, LoadedConfig.get_ofFields, assign_apply]

/-- **Configuration layering**: loading does what the layers say exactly if the file that is found
is the one that the options select, or the configuration is to be refused with either. -/
theorem layeredLoad_iff (errorLen : ℕ) (sources : ConfigSources)
    (hfits : ∀ path, sources.foundFile = some path → sources.FileFits path) :
    LayeredLoad errorLen sources ↔
      sources.foundFile = sources.selectedFile ∨
        ¬sources.Fine sources.foundFile ∧ ¬sources.Fine sources.selectedFile := by
  have hload := ConfigSources.load_ok errorLen hfits
  have hfine : (∃ config, mochadConfigLoad errorLen sources = .ok config) ↔
      sources.Fine sources.foundFile := by
    constructor
    · rintro ⟨config, hok⟩
      obtain ⟨given, hgiven, rfl, hvalid⟩ := (hload config).mp hok
      exact ⟨given, hgiven, hvalid⟩
    · rintro ⟨given, hgiven, hvalid⟩
      exact ⟨_, (hload _).mpr ⟨given, hgiven, rfl, hvalid⟩⟩
  -- Loading sets the field of the config file to the file that is found.
  have hsame : LayeredLoad errorLen sources → sources.Fine sources.foundFile →
      sources.foundFile = sources.selectedFile := by
    intro h hfound
    obtain ⟨config, hok⟩ := hfine.mpr hfound
    obtain ⟨given, hgiven, rfl, -⟩ := (hload config).mp hok
    obtain ⟨given', hgiven', hlast⟩ := h.last _ hok
    cases hpath : sources.foundFile with
    | none =>
      rw [hpath] at hgiven
      cases hgiven
    | some path =>
      cases hpath' : sources.selectedFile with
      | none =>
        rw [hpath'] at hgiven'
        cases hgiven'
      | some path' =>
        rw [hpath] at hgiven
        rw [hpath'] at hgiven'
        have hfield := hlast .configFile
        rw [← assigned_get given'] at hfield
        rw [← ConfigSources.configFile_assigned hgiven,
          ← ConfigSources.configFile_assigned hgiven']
        exact congrArg some hfield
  constructor
  · intro h
    by_cases hpath : sources.foundFile = sources.selectedFile
    · exact .inl hpath
    · exact .inr ⟨fun hfound => hpath (hsame h hfound),
        fun hselected => hpath (hsame h (hfine.mp (h.succeeds.mpr hselected)))⟩
  · intro h
    refine ⟨?_, ?_, fun path hpath config config' hok f => ?_, fun config config' hok f => ?_,
      fun config config' hok f => ?_⟩
    · rw [hfine, ConfigSources.Acceptable]
      rcases h with h | ⟨hfound, hselected⟩
      · rw [h]
      · exact iff_of_false hfound hselected
    · intro config hok
      rcases h with h | ⟨hfound, -⟩
      · obtain ⟨given, hgiven, rfl, -⟩ := (hload config).mp hok
        exact ⟨given, h ▸ hgiven, assigned_get given⟩
      · exact absurd (hfine.mp ⟨config, hok⟩) hfound
    · exact (loadFile_assigns (ConfigSources.length_foundFile hpath) (hfits path hpath)
        errorLen).frame hok
    · exact (applyEnvironment_assigns errorLen sources.getenv).frame hok
    · exact (applyCli_assigns sources.argv).frame hok

/-- The sources of a test of precedence: a file, a variable and an option set the port. -/
def precedenceSources : ConfigSources where
  argv := [ascii "--config", ascii "mochad.conf", ascii "--port", ascii "1400"]
  getenv := fun name => if name = ascii "MOCHAD_PORT" then some (ascii "1300") else none
  fopen := fun _ => .ok ⟨ascii "Main-Port = '1200' # of the file\nxml_enabled=off\n", false⟩
  getaddrinfo := fun address _ => address = ascii "0.0.0.0"

theorem layeredLoad_precedence : LayeredLoad 256 precedenceSources ∧
    (mochadConfigLoad 256 precedenceSources).toOption.map
      (fun config => ((config.serverPort : ℕ), config.xmlEnabled)) = some (1400, false) := by
  refine ⟨(layeredLoad_iff 256 precedenceSources ?_).mpr (.inl (by decide +kernel)),
    by decide +kernel⟩
  intro path _ file hopen
  obtain rfl := Except.ok.inj hopen
  decide +kernel

/-! ### Where the file is found that is selected -/

theorem findConfigArgs_cons {arg : Bytes} (harg : arg ≠ ascii "--config") (path : Bytes)
    (args : List Bytes) : findConfigArgs path (arg :: args) = findConfigArgs path args := by
  cases args with
  | nil => rw [findConfigArgs, findConfigArgs, if_neg harg]
  | cons value args => rw [findConfigArgs, if_neg harg]

theorem cliOption_config_iff {arg : Bytes} :
    cliOption arg = some .config ↔ arg = ascii "--config" := by
  constructor
  · intro h
    have hrows : ∀ row ∈ cliOptions, row.2 = .config → row.1 = ascii "--config" := by
      simp [cliOptions]
    obtain ⟨row, hrow, hconfig⟩ := Option.map_eq_some_iff.mp h
    have harg : arg = row.1 := by simpa using List.find?_some hrow
    rw [harg]
    exact hrows row (List.mem_of_find?_eq_some hrow) hconfig
  · rintro rfl
    rfl

/-- `--config` is the value of no key but the bind address. -/
theorem entry_config {arg key : Bytes} {as : List Setting}
    (harg : cliOption arg = some (.keyed key)) (h : entry key (ascii "--config") = some as) :
    as = [⟨.bindAddress, ascii "--config"⟩] := by
  have hkey : key ∈ [ascii "bind", ascii "port", ascii "xml_port", ascii "openremote_port",
      ascii "dual_stack", ascii "log_level"] := by
    have hrows : ∀ row ∈ cliOptions, ∀ key, row.2 = .keyed key → key ∈ [ascii "bind", ascii "port",
        ascii "xml_port", ascii "openremote_port", ascii "dual_stack", ascii "log_level"] := by
      simp [cliOptions]
    obtain ⟨row, hrow, hkeyed⟩ := Option.map_eq_some_iff.mp harg
    exact hrows row (List.mem_of_find?_eq_some hrow) key hkeyed
  have hothers : ∀ key ∈ [ascii "port", ascii "xml_port", ascii "openremote_port",
      ascii "dual_stack", ascii "log_level"], (entry key (ascii "--config")).isNone := by
    decide +kernel
  rcases List.mem_cons.mp hkey with rfl | hkey
  · exact (Option.some.inj h).symm
  · have hnone := hothers key hkey
    rw [h] at hnone
    cases hnone

theorem findConfigArgs_eq {argv : List Bytes} {as : List Setting} (hcli : cliGiven argv = some as)
    (hbind : (⟨.bindAddress, ascii "--config"⟩ : Setting) ∉ as) (path : Bytes) :
    (findConfigArgs path argv).toOption =
      (configArguments argv).map fun files => files.getLast?.getD path := by
  have hconfig : ∀ {arg option}, cliOption arg = some option → option ≠ .config →
      arg ≠ ascii "--config" := by
    rintro arg option harg hoption rfl
    exact hoption (Option.some.inj (harg.symm.trans (cliOption_config_iff.mpr rfl)))
  induction argv using cliGiven.induct generalizing as path with
  | case1 => rfl
  | case2 arg setting harg =>
    rw [findConfigArgs_cons (hconfig harg nofun)]
    simp only [configArguments, harg]
    rfl
  | case3 arg harg =>
    simp only [cliGiven] at hcli
    cases hcli
  | case4 arg value args harg =>
    simp only [cliGiven, harg] at hcli
    cases hcli
  | case5 arg value args setting harg ih =>
    simp only [cliGiven, harg] at hcli
    obtain ⟨_, -, bs, hbs, rfl⟩ := both_eq_some.mp hcli
    rw [findConfigArgs_cons (hconfig harg nofun)]
    simp only [configArguments, harg]
    exact ih hbs (fun h => hbind (List.mem_append_right _ h)) path
  | case6 arg value args harg ih =>
    simp only [cliGiven, harg] at hcli
    simp only [configArguments, harg]
    rw [findConfigArgs, if_pos (cliOption_config_iff.mp harg)]
    cases copyString 512 value with
    | error e => rfl
    | ok file =>
      change (findConfigArgs file args).toOption = _
      rw [ih hcli hbind file]
      cases configArguments args with
      | none => rfl
      | some files => cases files <;> rfl
  | case7 arg value args key harg ih =>
    simp only [cliGiven, harg] at hcli
    obtain ⟨bs, hentry, bs', hbs', rfl⟩ := both_eq_some.mp hcli
    have hvalue : value ≠ ascii "--config" := by
      rintro rfl
      refine hbind (List.mem_append_left _ ?_)
      rw [entry_config harg hentry]
      exact List.mem_singleton_self _
    rw [findConfigArgs_cons (hconfig harg nofun), findConfigArgs_cons hvalue]
    simp only [configArguments, harg]
    exact ih hbs' (fun h => hbind (List.mem_append_right _ h)) path

/-- **The file that is found is the one that the options select** where no address to bind to is
given as `--config`. -/
theorem foundFile_eq_selectedFile {sources : ConfigSources} {as : List Setting}
    (hcli : cliGiven sources.argv = some as)
    (hbind : (⟨.bindAddress, ascii "--config"⟩ : Setting) ∉ as) :
    sources.foundFile = sources.selectedFile := by
  rw [ConfigSources.foundFile_eq, ConfigSources.selectedFile]
  congr 1
  funext fromVariable
  rw [findConfigArgs_eq hcli hbind]
  congr 1
  funext fromOptions
  rw [List.getLast?_append]
  cases fromOptions.getLast? <;> rfl

/-! ### A file that is not selected -/

/-- Sources without files or environment, where the addresses in use are numeric. -/
def bareSources (argv : List Bytes) : ConfigSources where
  argv := argv
  getenv := fun _ => none
  fopen := fun _ => .error (ascii "No such file or directory")
  getaddrinfo := fun address _ => address = ascii "0.0.0.0" ∨ address = ascii "127.0.0.1"

/-- **An address that is overridden later can select a file**: with the arguments
`--bind --config --bind 127.0.0.1` no file is selected and all is acceptable, but loading fails for
want of a file `--bind`. -/
theorem config_as_address :
    ¬LayeredLoad 256 (bareSources
      [ascii "--bind", ascii "--config", ascii "--bind", ascii "127.0.0.1"]) := by
  intro h
  have hfails : (mochadConfigLoad 256 (bareSources
      [ascii "--bind", ascii "--config", ascii "--bind", ascii "127.0.0.1"])).toBool = false := by
    decide +kernel
  have hfine : (bareSources
      [ascii "--bind", ascii "--config", ascii "--bind", ascii "127.0.0.1"]).Acceptable :=
    ⟨_, rfl, by rfl⟩
  obtain ⟨config, hok⟩ := h.succeeds.mpr hfine
  rw [hok] at hfails
  cases hfails

end Mochad
