import Mochad.Setup.Tool

/-!
# What the setup tool touches

Most functions of the setup tool only look at files and print (`Same`). The files that `render` makes
are its own (`Alike`): they stand under names that no other function works on. What is left are the
functions that write: `removeState`, `writeState` and the parts of `installManaged` and
`removeManaged` that a dry run leaves out.
-/

namespace Mochad

namespace Setup

open Script

/-! ### Frames -/

/-- No file was changed. -/
def Same (w w' : World) : Prop := w'.files = w.files

/-- **No file was changed** but those that `render` makes. -/
def Alike (w w' : World) : Prop := ∀ q, ¬RenderName q → w'.files q = w.files q

instance : IsPreorder World Same where
  refl _ := rfl
  trans _ _ _ h h' := h'.trans h

instance : IsPreorder World Alike where
  refl _ _ _ := rfl
  trans _ _ _ h h' q hq := (h' q hq).trans (h q hq)

section Frames

variable {w w' : World}

theorem Same.alike (h : Same w w') : Alike w w' := fun q _ => congrFun h q

theorem Same.node (h : Same w w') : w'.node = w.node := by
  funext q
  rw [World.node, World.node, h]

theorem Same.content (h : Same w w') : w'.content = w.content := by
  funext q
  rw [World.content, World.content, h.node]

end Frames

/-! ### Names -/

theorem basename_append {dir base : Path} (h : 0x2f ∉ base) : basename (dir ++ 0x2f :: base) = base := by
  have hall : ∀ b ∈ base.reverse, (b ≠ 0x2f : Bool) = true := by
    intro b hb
    exact decide_eq_true fun heq => h (heq ▸ List.mem_reverse.mp hb)
  rw [basename, List.rtakeWhile, List.reverse_append, List.reverse_cons, List.append_assoc,
    List.takeWhile_append_of_pos hall]
  simp

/-- A name whose last component begins in another way is not the name of a file of `render`. -/
theorem not_renderName {dir base : Path} (h : 0x2f ∉ base)
    (hother : ¬ascii "mochad-redux-render." <+: base) : ¬RenderName (dir ++ 0x2f :: base) := by
  rwa [RenderName, basename_append h]

/-- What every name of `resolve_paths` begins with. -/
def Options.root (o : Options) : Path :=
  if o.ROOT = ascii "/" then []
  else if o.ROOT.getLast? = some 0x2f then o.ROOT.dropLast else o.ROOT

theorem rootPath_eq (o : Options) (path : Path) : rootPath o path = o.root ++ path := by
  rw [rootPath, Options.root]
  split
  · rfl
  · rfl

/-- **What the tool administers**: the unit, the rule, the configuration and the state. -/
def Paths.administered (p : Paths) : List Path :=
  [p.SYSTEMD_DEST, p.UDEV_DEST, p.CONFIG_DEST, p.STATE_FILE]

/-- The names under the root of what the tool administers. -/
def administeredNames : List Bytes :=
  [ascii "/etc/systemd/system/mochad.service",
    ascii "/etc/udev/rules.d/91-usb-x10-controllers.rules", ascii "/etc/mochad-redux/mochad.conf",
    ascii "/var/lib/mochad-redux/managed-files"]

section Names

variable (t : Tools) (o : Options)

theorem administered_eq : (resolvePaths t o).administered = administeredNames.map (o.root ++ ·) := by
  simp only [resolvePaths, Paths.administered, administeredNames, rootPath_eq, List.append_assoc,
    List.map_cons, List.map_nil]
  rfl

/-- What is administered stands under four names, none of which leads to another. -/
theorem eq_of_administered_leads {q q' : Path} (hq : q ∈ (resolvePaths t o).administered)
    (hq' : q' ∈ (resolvePaths t o).administered) (h : q <+: q') : q = q' := by
  rw [administered_eq] at hq hq'
  obtain ⟨name, hname, rfl⟩ := List.mem_map.mp hq
  obtain ⟨name', hname', rfl⟩ := List.mem_map.mp hq'
  have hall : ∀ a ∈ administeredNames, ∀ b ∈ administeredNames, a <+: b → a = b := by decide +kernel
  rw [List.prefix_append_right_inj] at h
  rw [hall name hname name' hname' h]

theorem not_renderName_administered {q : Path} (hq : q ∈ (resolvePaths t o).administered) :
    ¬RenderName q := by
  rw [administered_eq] at hq
  obtain ⟨name, hname, rfl⟩ := List.mem_map.mp hq
  have hall : ∀ a ∈ administeredNames, ∃ k, a = a.take k ++ 0x2f :: a.drop (k + 1) ∧
      0x2f ∉ a.drop (k + 1) ∧ ¬ascii "mochad-redux-render." <+: a.drop (k + 1) := by
    rw [administeredNames]
    refine List.forall_mem_cons.mpr ⟨⟨19, by decide +kernel⟩, List.forall_mem_cons.mpr
      ⟨⟨17, by decide +kernel⟩, List.forall_mem_cons.mpr ⟨⟨17, by decide +kernel⟩,
      List.forall_mem_singleton.mpr ⟨21, by decide +kernel⟩⟩⟩⟩
  obtain ⟨k, hsplit, hslash, hother⟩ := hall name hname
  rw [hsplit, ← List.append_assoc]
  exact not_renderName hslash hother

theorem administered_ne_nil {q : Path} (hq : q ∈ (resolvePaths t o).administered) : q ≠ [] := by
  rw [administered_eq] at hq
  obtain ⟨name, hname, rfl⟩ := List.mem_map.mp hq
  have hall : ∀ a ∈ administeredNames, a ≠ [] := by decide +kernel
  exact List.append_ne_nil_of_right_ne_nil _ (hall name hname)

/-- The four names are different. -/
theorem administered_nodup : (resolvePaths t o).administered.Nodup := by
  rw [administered_eq]
  exact List.Nodup.map (fun _ _ h => List.append_cancel_left h) (by decide +kernel)

/-- The state is written to a file beside it. -/
theorem stateTmp_ne {q : Path} (hq : q ∈ (resolvePaths t o).administered) :
    stateTmp t (resolvePaths t o) ≠ q := by
  rintro rfl
  have hstate : (resolvePaths t o).STATE_FILE ∈ (resolvePaths t o).administered := by
    simp [Paths.administered]
  have heq := eq_of_administered_leads t o hstate hq ⟨ascii ".tmp." ++ fmtNat t.pid,
    (List.append_assoc _ _ _).symm⟩
  have hlength := congrArg List.length heq
  simp [stateTmp, ascii] at hlength

theorem not_renderName_stateTmp : ¬RenderName (stateTmp t (resolvePaths t o)) := by
  have heq : stateTmp t (resolvePaths t o) = (o.root ++ ascii "/var/lib/mochad-redux") ++
      0x2f :: (ascii "managed-files.tmp." ++ fmtNat t.pid) := by
    simp [stateTmp, resolvePaths, rootPath_eq, ascii]
  rw [heq]
  refine not_renderName (fun h => ?_) fun h => ?_
  · rcases List.mem_append.mp h with h | h
    · revert h
      decide +kernel
    · exact forall_mem_digits (P := (· ≠ 0x2f)) (by decide) (by decide) (by decide) t.pid _ h rfl
  · obtain ⟨rest, h⟩ := h
    have hsecond := congrArg (fun bs : Bytes => bs[1]?) h
    simp [ascii] at hsecond

end Names

section Commands

variable {w : World} {ok : Unit → World → Prop} {okAny : α → World → Prop}
  {exits : Exit → World → Prop} {m : Shell Bool} {line : Bytes}

@[simp] theorem ends_check : Ends (check m) w ok exits ↔
    Ends m w (fun b w' => if b then ok () w' else exits .failed w') exits := by
  rw [check, ends_bind]
  refine iff_of_eq (congrArg (Ends m w · exits) (funext fun b => funext fun w' => ?_))
  cases b with
  | true => rfl
  | false => rfl

@[simp] theorem ends_print : Ends (print line) w ok exits ↔ ok () (w.print line) := Iff.rfl

@[simp] theorem ends_log : Ends (log line) w ok exits ↔ ok () (w.print line) := Iff.rfl

@[simp] theorem ends_die : Ends (die line : Shell α) w okAny exits ↔
    exits (.died line) (w.print (ascii "mochad-redux-setup: " ++ line)) := Iff.rfl

theorem keeps_check {R : World → World → Prop} (h : Keeps R m) : Keeps R (check m) := by
  intro w
  refine ends_after.mp (ends_check.mpr (h.ends.mono (fun b w' hw => ?_) fun _ _ hw => hw))
  cases b with
  | true => exact hw
  | false => exact hw

theorem keeps_print : Keeps Same (print line) := fun _ => rfl

theorem keeps_log : Keeps Same (log line) := fun _ => rfl

theorem keeps_die : Keeps Same (die line : Shell α) := fun _ => rfl

theorem keeps_when {b : Bool} {step : Shell Unit} (h : Keeps Same step) :
    Keeps Same (when b step) :=
  .ite h (.pure ())

end Commands

section Keeping

variable (t : Tools) (o : Options) (p : Paths)

theorem keeps_host (words : List Bytes) : Keeps Same (host t words) := fun _ => rfl

theorem keeps_run {words : List Bytes} {command : Shell Bool} (h : Keeps Same command) :
    Keeps Same (run o words command) :=
  keeps_log.bind fun _ => keeps_when (keeps_check h)

theorem keeps_run_of_dry (hdry : o.DRY_RUN = true) {words : List Bytes} {command : Shell Bool} :
    Keeps Same (run o words command) := by
  rw [run, hdry]
  exact keeps_log.bind fun _ => .pure ()

theorem keeps_runHost (words : List Bytes) : Keeps Same (runHost t o words) :=
  keeps_run o (keeps_host t words)

theorem keeps_sha256 (path : Path) : Keeps Same (sha256 t path) := by
  refine Keeps.get.bind fun w => ?_
  split
  · exact keeps_die
  · split
    · exact .pure _
    · exact .throw _

theorem keeps_stateHash (path : Path) : Keeps Same (stateHash t p path) := by
  refine Keeps.get.bind fun w => ?_
  split
  · exact .pure _
  · exact .pure _

theorem keeps_orFail (a : Option α) : Keeps Same (orFail a) := by
  cases a with
  | some a => exact .pure a
  | none => exact .throw _

/-! ### Before the command -/

theorem keeps_readOptions (args : List Bytes) : Keeps Same (readOptions o args) := by
  fun_induction readOptions o args with
  | case1 o => exact .pure o
  | case2 o arg rest o' hflag ih => exact ih
  | case3 o arg hflag set hvalued => exact keeps_die
  | case4 o arg hflag set hvalued value rest ih => exact ih
  | case5 o arg rest hflag hvalued hhelp => exact keeps_print.bind fun _ => .throw _
  | case6 o arg rest hflag hvalued hhelp => exact keeps_die

theorem keeps_prepare (args : List Bytes) : Keeps Same (prepare t args) := by
  have hread : Keeps Same (readArguments t args) := by
    cases args with
    | nil => exact keeps_print.bind fun _ => .throw _
    | cons arg rest =>
      rw [readArguments]
      cases command arg with
      | none => exact keeps_print.bind fun _ => .throw _
      | some c => exact (keeps_readOptions _ _).bind fun _ => .pure _
  have hname : ∀ what name, Keeps Same (validateName what name) :=
    fun what name => .ite keeps_die (.pure ())
  refine hread.bind fun given => Keeps.bind ?_ fun _ => Keeps.bind ?_ fun _ => .pure given
  · exact (hname _ _).bind fun _ => (hname _ _).bind fun _ => (hname _ _).bind fun _ =>
      (keeps_when keeps_die).bind fun _ => (keeps_when keeps_die).bind fun _ =>
        keeps_when keeps_die
  · exact .ite (.pure ()) (keeps_when keeps_die)

/-! ### The host, and reports -/

theorem keeps_ensureIdentities : Keeps Same (ensureIdentities t o) := by
  have hrun := keeps_runHost t o
  exact .ite keeps_log ((keeps_host t _).bind fun known => (keeps_when (hrun _)).bind fun _ =>
    (keeps_host t _).bind fun known' => (keeps_when (hrun _)).bind fun _ =>
      (keeps_host t _).bind fun known'' => .ite (hrun _) (hrun _))

theorem keeps_reloadServices : Keeps Same (reloadServices t o) := by
  have hrun := keeps_runHost t o
  exact (keeps_when ((hrun _).bind fun _ => (keeps_when (hrun _)).bind fun _ =>
    (keeps_when (hrun _)).bind fun _ => keeps_when (hrun _))).bind fun _ => keeps_when (hrun _)

theorem keeps_cmdVerify : Keeps Same (cmdVerify t p) := by
  have hfile : ∀ destination, Keeps Same (verifyFile t p destination) := fun destination =>
    Keeps.get.bind fun w => .ite keeps_log ((keeps_stateHash t p _).bind fun recorded =>
      .ite keeps_log ((keeps_sha256 t _).subshell.bind fun actual => .ite keeps_log keeps_log))
  exact (hfile _).bind fun _ => (hfile _).bind fun _ => Keeps.get.bind fun w =>
    .ite keeps_log keeps_log

theorem keeps_cmdStatus : Keeps Same (cmdStatus t o p) :=
  keeps_log.bind fun _ => keeps_log.bind fun _ => keeps_log.bind fun _ => keeps_log.bind fun _ =>
    keeps_when ((keeps_host t _).bind fun _ => .pure ())

end Keeping

/-! ### The files of `render` -/

section Render

variable (t : Tools) (o : Options) (p : Paths) {path : Path} {text : Bytes}

/-- What `render` writes. -/
def rendered (template : Bytes) : Bytes := t.sed (sedCommands o p) template ++ managedLine

/-- The files of `render` are no others. -/
def OfRender (path : Path) : Prop := path = [] ∨ RenderName path

theorem ends_redirect {w : World} {ok : Bool → World → Prop} {exits : Exit → World → Prop} :
    Ends (redirect path text) w ok exits ↔
      if path = [] ∨ w.node path = some .dir then ok false w
      else ok true (w.put path (some (.file text))) := by
  rw [redirect, ends_bind, ends_get]
  split
  · rfl
  · rfl

theorem alike_put {w : World} (h : RenderName path) (node : Option Node) :
    Alike w (w.put path node) := by
  intro q hq
  refine if_neg fun heq => hq ?_
  rwa [heq]

theorem keeps_rm (h : OfRender path) : Keeps Alike (rm path) := by
  intro w
  refine ends_after.mp ?_
  rw [rm, ends_bind, ends_get]
  have hw : Alike w w := refl w
  rcases h with rfl | h
  · exact hw
  · split
    · exact hw
    · exact hw
    · exact alike_put h _

theorem Alike.node {w w' : World} (h : Alike w w') {q : Path} (hq : ¬RenderName q) :
    w'.node q = w.node q := by
  rw [World.node, World.node, h q hq]

theorem Alike.content {w w' : World} (h : Alike w w') {q : Path} (hq : ¬RenderName q) :
    w'.content q = w.content q := by
  rw [World.content, World.content, h.node hq]

/-- **What `render` leaves** is its own file, with the text of the template. -/
theorem ends_render {source : Path} (hsource : ¬RenderName source) (w : World) :
    Ends (render t o p source) w
      (fun tmp w' => Alike w w' ∧ OfRender tmp ∧ tmp = (t.mktemp w.files).getD [] ∧
        (tmp ≠ [] → ∃ template, w.content source = some template ∧
          w'.node tmp = some (.file (rendered t o p template))))
      fun _ w' => Alike w w' := by
  have hmktemp : Ends (mktemp t) w (fun tmp w' => Alike w w' ∧ OfRender tmp ∧
      tmp = (t.mktemp w.files).getD [] ∧ (tmp ≠ [] → w'.node tmp = some (.file [])))
      fun _ w' => Alike w w' := by
    rw [mktemp, ends_bind, ends_get]
    cases htmp : t.mktemp w.files with
    | none => exact ⟨refl w, Or.inl rfl, rfl, fun h => absurd rfl h⟩
    | some tmp =>
      have hname := t.mktemp_name w.files tmp htmp
      refine ⟨alike_put hname _, Or.inr hname, rfl, fun h => ?_⟩
      rw [node_of_ne_nil h, files_put, if_pos rfl]
  rw [render, ends_bind]
  refine hmktemp.mono (fun tmp w' h => ?_) fun _ _ h => h
  obtain ⟨halike, hof, htmp, hmade⟩ := h
  rw [ends_bind, ends_get]
  cases hcontent : w'.content source with
  | none => exact halike
  | some template =>
    rw [halike.content hsource] at hcontent
    dsimp only
    rw [ends_bind, ends_redirect]
    by_cases hnil : tmp = []
    · rw [hnil] at hof htmp ⊢
      rw [if_pos (Or.inl rfl), ends_bind, append, ends_bind, ends_get, ends_redirect,
        if_pos (Or.inl rfl), ends_pure]
      exact ⟨halike, hof, htmp, fun h => absurd rfl h⟩
    · have hname := hof.resolve_left hnil
      have hnode : w'.node tmp ≠ some .dir := by
        rw [hmade hnil]
        nofun
      have hwritten : ∀ text, (w'.put tmp (some (.file text))).node tmp = some (.file text) := by
        intro text
        rw [node_of_ne_nil hnil, files_put, if_pos rfl]
      rw [if_neg (not_or.mpr ⟨hnil, hnode⟩), ends_bind, append, ends_bind, ends_get, ends_redirect,
        if_neg (not_or.mpr ⟨hnil, by rw [hwritten]; nofun⟩), ends_pure, World.content, hwritten]
      refine ⟨fun q hq => ?_, hof, htmp, fun _ => ⟨template, hcontent, ?_⟩⟩
      · rw [alike_put hname _ q hq, alike_put hname _ q hq, halike q hq]
      · rw [node_of_ne_nil hnil, files_put, if_pos rfl]
        rfl

/-- The templates have names of their own. -/
theorem not_renderName_source (base : Bytes) (hslash : 0x2f ∉ base)
    (hother : ¬ascii "mochad-redux-render." <+: base) :
    ¬RenderName ((resolvePaths t o).TEMPLATE_DIR ++ 0x2f :: base) :=
  not_renderName hslash hother

end Render

/-! ### Records and checksums -/

section Records

variable (t : Tools) (o : Options) (p : Paths)

/-- What `sha256` prints. -/
def hashAt (w : World) (path : Path) : Option Bytes :=
  t.hashTool.bind fun tool => (w.content path).map (t.checksum tool path)

/-- What `state_hash` prints. -/
def recordOf (w : World) (path : Path) : Bytes :=
  match w.content p.STATE_FILE with
  | some text => recordedIn t path text
  | none => []

/-- **A file is the tool's own**: it has the checksum that its record has. -/
def Managed (w : World) (path : Path) : Prop :=
  recordOf t p w path ≠ [] ∧ hashAt t w path = some (recordOf t p w path)

theorem ends_subshell_sha256 {w : World} {path : Path} {ok : Option Bytes → World → Prop}
    {exits : Exit → World → Prop} (h : ∀ w', Same w w' → ok (hashAt t w path) w') :
    Ends (subshell (sha256 t path)) w ok exits := by
  rw [ends_subshell, sha256, ends_bind, ends_get]
  rw [hashAt] at h
  cases htool : t.hashTool with
  | none =>
    rw [htool] at h
    exact h _ rfl
  | some tool =>
    rw [htool] at h
    dsimp only
    cases hcontent : w.content path with
    | none =>
      rw [hcontent] at h
      exact h _ rfl
    | some content =>
      rw [hcontent] at h
      exact h _ rfl

theorem ends_stateHash {w : World} {path : Path} {ok : Bytes → World → Prop}
    {exits : Exit → World → Prop} :
    Ends (stateHash t p path) w ok exits ↔ ok (recordOf t p w path) w := by
  rw [stateHash, ends_bind, ends_get, recordOf]
  cases w.content p.STATE_FILE with
  | none => rfl
  | some text => rfl

variable {t p}

theorem Alike.hashAt {w w' : World} (h : Alike w w') {q : Path} (hq : ¬RenderName q) :
    hashAt t w' q = hashAt t w q := by
  rw [Setup.hashAt, Setup.hashAt, h.content hq]

theorem Alike.recordOf {w w' : World} (h : Alike w w') (hstate : ¬RenderName p.STATE_FILE)
    (q : Path) : recordOf t p w' q = recordOf t p w q := by
  rw [Setup.recordOf, Setup.recordOf, h.content hstate]

theorem Alike.managed {w w' : World} (h : Alike w w') (hstate : ¬RenderName p.STATE_FILE)
    {q : Path} (hq : ¬RenderName q) : Managed t p w' q ↔ Managed t p w q := by
  rw [Managed, Managed, h.hashAt hq, h.recordOf hstate]

end Records

end Setup

end Mochad
