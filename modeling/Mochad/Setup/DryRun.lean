import Mochad.Setup.Removal

/-!
# Dry runs

A dry run is meant to leave everything as it is. `install`, `verify` and `status` do: they only make
the files of `render`, which stand elsewhere. `remove` and `purge` do, too, but where they come to a
file that is not there: its record is dropped from the state file all the same
(`dryRun_pure_iff`).
-/

namespace Mochad

namespace Setup

open Script

variable (t : Tools) (o : Options) (p : Paths)

section Parts

variable {o}

theorem keeps_mayReplace {tmp : Path} (htmp : OfRender tmp) (path : Path) (recorded : Bytes) :
    Keeps Alike (mayReplace t o tmp path recorded) := by
  have hrm : Keeps Alike (check (rm tmp)) := keeps_check (keeps_rm htmp)
  have hquiet : ∀ {α : Type} {m : Shell α}, Keeps Same m → Keeps Alike m := fun h =>
    h.mono fun _ _ => Same.alike
  refine Keeps.get.bind fun w => .ite (.pure ()) ?_
  refine (hquiet (keeps_sha256 t path).subshell).bind fun actual =>
    (hquiet (keeps_orFail actual)).bind fun actual => .ite (.ite (.pure ()) ?_) (.pure ())
  exact hrm.bind fun _ => hquiet keeps_die

/-- A dry run of `install_managed` only makes files of `render`. -/
theorem keeps_installManaged_of_dry (hdry : o.DRY_RUN = true) {source : Path}
    (hsource : ¬RenderName source) (path : Path) :
    Keeps Alike (installManaged t o p source path) := by
  have hquiet : ∀ {α : Type} {m : Shell α}, Keeps Same m → Keeps Alike m := fun h =>
    h.mono fun _ _ => Same.alike
  refine Keeps.bind_of (P := fun tmp => ∀ path, tmp = some path → OfRender path) (fun w => ?_)
    fun tmp htmp => ?_
  · rw [ends_subshell]
    refine (ends_render t o p hsource w).mono (fun tmp w' h => ⟨h.1, ?_⟩) fun _ w' h => ⟨h, nofun⟩
    rintro path ⟨⟩
    exact h.2.1
  · cases tmp with
    | none => exact Keeps.bind_of (P := fun _ => False) (fun w _ _ => rfl) fun _ h => h.elim
    | some tmp =>
      have hof := htmp tmp rfl
      refine Keeps.bind_of (P := (· = tmp)) (fun w => ⟨refl w, rfl⟩) ?_
      rintro _ rfl
      refine (hquiet (keeps_sha256 t _).subshell).bind fun desired =>
        (hquiet (keeps_stateHash t p path)).bind fun recorded =>
          (keeps_mayReplace t hof path recorded).bind fun _ => ?_
      rw [if_pos hdry]
      exact (hquiet keeps_log).bind fun _ => keeps_check (keeps_rm hof)

theorem keeps_installConfig_of_dry (hdry : o.DRY_RUN = true) : Keeps Same (installConfig o p) := by
  refine Keeps.get.bind fun w => .ite keeps_log ?_
  rw [if_pos hdry]
  exact keeps_log

end Parts

/-- **There is no record to drop** of a file that is not there: no record begins with its name, the
state file ends with a newline, and its copy takes no other file's place. -/
def DropsNothing (w : World) (path : Path) : Prop :=
  w.node path = none → ∀ text, w.content p.STATE_FILE = some text →
    w.node (stateTmp t p) ≠ some .dir →
      (∀ r ∈ awkRecords text, firstField r ≠ t.awkValue path) ∧ Terminated text ∧
        w.node (stateTmp t p) = none

/-- The removal of the unit and of the rule drops no record. It only comes to the rule after the
unit. -/
def RemovalDropsNothing (w : World) : Prop :=
  (o.WITH_SYSTEMD = true → DropsNothing t p w p.SYSTEMD_DEST) ∧
    (o.WITH_UDEV = true → (o.WITH_SYSTEMD = true → Proceeds t o p w p.SYSTEMD_DEST) →
      DropsNothing t p w p.UDEV_DEST)

/-! ### The records of a dry run -/

section Records

variable {t o p} {w : World} {path : Path}

/-- A copy of the state file changes nothing, exactly if it drops nothing. -/
theorem dropped_eq_iff (hstate : p.STATE_FILE ≠ []) {text : Bytes}
    (hcontent : w.content p.STATE_FILE = some text) :
    dropped t p w path = w.files ↔
      otherRecords t path text = text ∧ w.node (stateTmp t p) = none := by
  have htmp : stateTmp t p ≠ [] := List.append_ne_nil_of_left_ne_nil
    (List.append_ne_nil_of_left_ne_nil hstate _) _
  have hne : stateTmp t p ≠ p.STATE_FILE := by
    intro heq
    have hlength := congrArg List.length heq
    simp [stateTmp, ascii] at hlength
  have hfile : w.files p.STATE_FILE = some (.file text) := by
    rw [← node_of_ne_nil hstate, node_of_content hcontent]
  rw [node_of_ne_nil htmp]
  constructor
  · intro h
    have hat := congrFun h p.STATE_FILE
    have hat' := congrFun h (stateTmp t p)
    rw [dropped, if_pos rfl, hcontent, hfile] at hat
    rw [dropped, if_neg hne, if_pos rfl] at hat'
    exact ⟨Node.file.inj (Option.some.inj hat), hat'.symm⟩
  · rintro ⟨htext, hnone⟩
    funext q
    rw [dropped]
    split
    case isTrue hq => rw [hq, hcontent, hfile, Option.map_some, htext]
    case isFalse hq =>
      split
      case isTrue hq' => rw [hq', hnone]
      case isFalse => rfl

theorem dropsNothing_iff (hstate : p.STATE_FILE ≠ []) :
    DropsNothing t p w path ↔
      (StateWritable t p w → w.node path = none → dropped t p w path = w.files) := by
  constructor
  · rintro h ⟨hcontent, hdir⟩ hnode
    obtain ⟨text, htext⟩ := Option.ne_none_iff_exists'.mp hcontent
    obtain ⟨hnone, hterminated, htmp⟩ := h hnode text htext hdir
    exact (dropped_eq_iff hstate htext).mpr
      ⟨(otherRecords_eq_iff t path text).mpr ⟨hnone, hterminated⟩, htmp⟩
  · intro h hnode text htext hdir
    have hwritable : StateWritable t p w := ⟨by rw [htext]; nofun, hdir⟩
    obtain ⟨hrecords, htmp⟩ := (dropped_eq_iff hstate htext).mp (h hwritable hnode)
    obtain ⟨hnone, hterminated⟩ := (otherRecords_eq_iff t path text).mp hrecords
    exact ⟨hnone, hterminated, htmp⟩

/-- What a dry run leaves, where it comes to the end of a removal, is what it found exactly if there
is nothing to drop. -/
theorem dryLeft_eq_iff (hstate : p.STATE_FILE ≠ []) (hproceeds : Proceeds t o p w path) :
    dryLeft t p w path = w.files ↔ DropsNothing t p w path := by
  rw [dropsNothing_iff hstate, dryLeft]
  rw [Proceeds] at hproceeds
  by_cases hnode : w.node path = none
  · rw [if_pos hnode] at hproceeds ⊢
    exact ⟨fun h _ _ => h, fun h => h hproceeds hnode⟩
  · rw [if_neg hnode]
    exact iff_of_true rfl fun _ h => absurd h hnode

/-- Where the removal does not come to its end, there is nothing to drop, either. -/
theorem dropsNothing_of_not_proceeds (hstate : p.STATE_FILE ≠ [])
    (h : ¬Proceeds t o p w path) : DropsNothing t p w path := by
  refine (dropsNothing_iff hstate).mpr fun hwritable hnode => absurd ?_ h
  rwa [Proceeds, if_pos hnode]

end Records

/-! ### A dry run of `remove` -/

section Removal

variable {t o p} {w w' : World} {path : Path}

theorem Same.proceeds (h : Same w w') : Proceeds t o p w' path ↔ Proceeds t o p w path := by
  rw [Proceeds, Proceeds, StateWritable, StateWritable, Allowed, Allowed, Managed, Managed, hashAt,
    hashAt, recordOf, recordOf, h.node, h.content]

theorem Same.dropsNothing (h : Same w w') : DropsNothing t p w' path ↔ DropsNothing t p w path := by
  rw [DropsNothing, DropsNothing, h.node, h.content]

theorem Same.removalDropsNothing (h : Same w w') :
    RemovalDropsNothing t o p w' ↔ RemovalDropsNothing t o p w := by
  rw [RemovalDropsNothing, RemovalDropsNothing, h.dropsNothing, h.dropsNothing, h.proceeds]

/-- A part that touches nothing makes no difference. -/
theorem alike_bind_iff {m : Shell Unit} {f : Unit → Shell Unit} (hf : ∀ a, Keeps Same (f a))
    {w₁ : World} : Alike w (after (m >>= f) w₁) ↔ Alike w (after m w₁) := by
  rw [after_bind, after]
  cases m w₁ with
  | ok a w₂ => exact forall_congr' fun q => imp_congr_right fun _ => by rw [congrFun (hf a w₂) q]
  | error e w₂ => rfl

/-- What one removal of a dry run leaves. -/
theorem ends_removal_of_dry (hdry : o.DRY_RUN = true) (hstate : p.STATE_FILE ≠ [])
    (hstatePath : p.STATE_FILE ≠ path) (htmpPath : stateTmp t p ≠ path) (b : Bool) (w : World) :
    Ends (when b (removeManaged t o p path)) w
      (fun _ w' => (b = true → Proceeds t o p w path) ∧
        w'.files = if b then dryLeft t p w path else w.files)
      fun _ w' => b = true ∧ ¬Proceeds t o p w path ∧ Same w w' := by
  cases b with
  | false => exact ⟨nofun, rfl⟩
  | true =>
    exact (ends_removeManaged hstate hstatePath htmpPath).mono
      (fun _ w' h => ⟨fun _ => h.proceeds, h.dry (Or.inr hdry)⟩)
      fun e w' h => ⟨rfl, h.1 (Or.inl hdry)⟩

/-- The copy of the state file is none of the files of `render`. -/
theorem alike_iff_of_dropped (hstate : ¬RenderName p.STATE_FILE) (htmp : ¬RenderName (stateTmp t p))
    (h : w'.files = dropped t p w path) : Alike w w' ↔ dropped t p w path = w.files := by
  rw [← h]
  refine ⟨fun halike => funext fun q => ?_, Same.alike⟩
  by_cases hq : q = p.STATE_FILE ∨ q = stateTmp t p
  · rcases hq with rfl | rfl
    · exact halike _ hstate
    · exact halike _ htmp
  · obtain ⟨hq, hq'⟩ := not_or.mp hq
    rw [h, dropped, if_neg hq, if_neg hq']

/-- What one copy of the state file has changed, a second one does not bring back. -/
theorem dropped_eq_of_alike (hstate : p.STATE_FILE ≠ []) (hstateName : ¬RenderName p.STATE_FILE)
    (htmpName : ¬RenderName (stateTmp t p)) {w₁ : World} {path' : Path}
    (hwritable : StateWritable t p w) (h₁ : w₁.files = dropped t p w path)
    (h' : w'.files = w₁.files ∨ w'.files = dropped t p w₁ path') (halike : Alike w w') :
    dropped t p w path = w.files := by
  rcases h' with h' | h'
  · exact (alike_iff_of_dropped hstateName htmpName (h'.trans h₁)).mp halike
  · obtain ⟨text, htext⟩ := Option.ne_none_iff_exists'.mp hwritable.1
    have hne : stateTmp t p ≠ p.STATE_FILE := by
      intro heq
      have hlength := congrArg List.length heq
      simp [stateTmp, ascii] at hlength
    have htext₁ : w₁.content p.STATE_FILE = some (otherRecords t path text) := by
      rw [World.content, node_of_ne_nil hstate, h₁, dropped, if_pos rfl, htext]
      rfl
    have hfile := halike p.STATE_FILE hstateName
    have htmp := halike (stateTmp t p) htmpName
    rw [h', dropped, if_pos rfl, htext₁, ← node_of_ne_nil hstate, node_of_content htext] at hfile
    rw [h', dropped, if_neg hne, if_pos rfl] at htmp
    refine (dropped_eq_iff hstate htext).mpr ⟨otherRecords_eq_of_otherRecords
      (Node.file.inj (Option.some.inj hfile)), ?_⟩
    rw [World.node, ← htmp, ite_self]

/-- **A dry run of `remove`** leaves everything as it is exactly if it drops no record. -/
theorem alike_cmdRemove_iff (hdry : o.DRY_RUN = true) (w : World) :
    Alike w (after (cmdRemove t o (resolvePaths t o)) w) ↔
      RemovalDropsNothing t o (resolvePaths t o) w := by
  have hmem : ∀ q ∈ [(resolvePaths t o).SYSTEMD_DEST, (resolvePaths t o).UDEV_DEST,
      (resolvePaths t o).STATE_FILE], q ∈ (resolvePaths t o).administered := by
    simp [Paths.administered]
  have hnodup := administered_nodup t o
  generalize hp : resolvePaths t o = p at hmem hnodup ⊢
  have hstate : p.STATE_FILE ≠ [] := by
    rw [← hp] at hmem ⊢
    exact administered_ne_nil t o (hmem _ (by simp))
  have hstateName : ¬RenderName p.STATE_FILE := by
    rw [← hp] at hmem ⊢
    exact not_renderName_administered t o (hmem _ (by simp))
  have htmpName : ¬RenderName (stateTmp t p) := by
    rw [← hp]
    exact not_renderName_stateTmp t o
  have htmp : ∀ q ∈ [p.SYSTEMD_DEST, p.UDEV_DEST, p.STATE_FILE], stateTmp t p ≠ q := by
    rw [← hp] at hmem ⊢
    exact fun q hq => stateTmp_ne t o (hmem q hq)
  simp only [Paths.administered, List.nodup_cons, List.mem_cons, List.not_mem_nil, or_false,
    not_or] at hnodup
  have hrule := fun w => ends_removal_of_dry (t := t) hdry hstate (Ne.symm hnodup.2.1.2)
    (htmp p.UDEV_DEST (by simp)) o.WITH_UDEV w
  have hunit := ends_removal_of_dry (t := t) hdry hstate (Ne.symm hnodup.1.2.2)
    (htmp p.SYSTEMD_DEST (by simp)) o.WITH_SYSTEMD w
  have htail : Keeps Same (do
      reloadServices t o
      log (ascii "[INFO] configuration and identities were preserved")) :=
    (keeps_reloadServices t o).bind fun _ => keeps_log
  refine (ends_after (P := fun w' => Alike w w' ↔ RemovalDropsNothing t o p w)).mp ?_
  rw [cmdRemove, ends_bind]
  refine hunit.mono (fun _ w₁ h => ?_) fun e w₁ h => ?_
  · obtain ⟨hproceeds, h₁⟩ := h
    rw [ends_bind]
    -- what the removal of the rule leaves, whether it comes to its end or not
    suffices h₂ : ∀ w₂, (Same w₁ w₂ ∧ (o.WITH_UDEV = true → DropsNothing t p w₁ p.UDEV_DEST)) ∨
        (o.WITH_UDEV = true ∧ Proceeds t o p w₁ p.UDEV_DEST ∧
          w₂.files = dryLeft t p w₁ p.UDEV_DEST) →
        (Alike w w₂ ↔ RemovalDropsNothing t o p w) by
      refine (hrule w₁).mono (fun _ w₂ hw₂ => ?_) fun e w₂ hw₂ => ?_
      · refine htail.ends.mono (fun _ w₃ h₃ => h₂ w₃ ?_) fun _ w₃ h₃ => h₂ w₃ ?_
        all_goals
          cases hudev : o.WITH_UDEV with
          | false =>
            rw [hudev] at hw₂
            exact Or.inl ⟨h₃.trans hw₂.2, by rintro ⟨⟩⟩
          | true =>
            rw [hudev] at hw₂
            exact Or.inr ⟨rfl, hw₂.1 rfl, h₃.trans hw₂.2⟩
      · exact h₂ w₂ (Or.inl ⟨hw₂.2.2, fun _ => dropsNothing_of_not_proceeds hstate hw₂.2.1⟩)
    intro w₂ h₂
    by_cases hfirst : o.WITH_SYSTEMD = true → DropsNothing t p w p.SYSTEMD_DEST
    · have hsame : Same w w₁ := by
        rw [Same, h₁]
        split
        case isTrue hsys => exact (dryLeft_eq_iff hstate (hproceeds hsys)).mpr (hfirst hsys)
        case isFalse => rfl
      have hsecond : Alike w w₂ ↔ (o.WITH_UDEV = true → DropsNothing t p w p.UDEV_DEST) := by
        rcases h₂ with ⟨hsame', hdrops⟩ | ⟨hudev, hproceeds', h₂⟩
        · exact iff_of_true (Same.alike (hsame'.trans hsame))
            fun hudev => hsame.dropsNothing.mp (hdrops hudev)
        · rw [← hsame.dropsNothing, ← dryLeft_eq_iff hstate hproceeds', forall_prop_of_true hudev]
          rw [dryLeft] at h₂ ⊢
          have hfrom : Alike w w₂ ↔ Alike w₁ w₂ :=
            forall_congr' fun q => imp_congr_right fun _ => by rw [congrFun hsame q]
          by_cases hnode : w₁.node p.UDEV_DEST = none
          · rw [if_pos hnode] at h₂ ⊢
            exact hfrom.trans (alike_iff_of_dropped hstateName htmpName h₂)
          · rw [if_neg hnode] at h₂ ⊢
            exact iff_of_true (hfrom.mpr (Same.alike h₂)) rfl
      rw [hsecond]
      exact ⟨fun h => ⟨hfirst, fun hudev _ => h hudev⟩, fun h hudev => h.2 hudev hproceeds⟩
    · refine iff_of_false (fun halike => hfirst fun hsys => ?_) fun h => hfirst h.1
      rw [if_pos hsys, dryLeft] at h₁
      refine (dropsNothing_iff hstate).mpr fun hwritable hnode => ?_
      rw [if_pos hnode] at h₁
      refine @dropped_eq_of_alike t p w w₂ p.SYSTEMD_DEST hstate hstateName htmpName w₁
        p.UDEV_DEST hwritable h₁ ?_ halike
      rcases h₂ with ⟨hsame', -⟩ | ⟨-, -, h₂⟩
      · exact Or.inl hsame'
      · rw [dryLeft] at h₂
        split at h₂
        · exact Or.inr h₂
        · exact Or.inl h₂
  · obtain ⟨hsys, hnot, hsame⟩ := h
    exact iff_of_true hsame.alike
      ⟨fun _ => dropsNothing_of_not_proceeds hstate hnot, fun _ h => absurd (h hsys) hnot⟩

end Removal

/-! ### Dry runs of all commands -/

/-- **A dry run leaves everything as it is**, exactly if it is none of `remove` or `purge`, or these
drop no record: a file that is not there has no record in a state file that can be rewritten, and
that file ends with a newline. -/
theorem dryRun_pure_iff (t : Tools) (args : List Bytes) (w : World)
    (hdry : ∀ c o w', prepare t args w = .ok (c, o) w' → o.DRY_RUN = true) :
    Alike w (after (setupTool t args) w) ↔
      ∀ c o w', prepare t args w = .ok (c, o) w' → c = .remove ∨ c = .purge →
        RemovalDropsNothing t o (resolvePaths t o) w := by
  have hprepare := (keeps_prepare t args).ends (w := w)
  rw [setupTool, ← ends_after (P := fun w' => Alike w w'), ends_bind, Ends]
  rw [Ends] at hprepare
  cases hgiven : prepare t args w with
  | error e w' =>
    rw [hgiven] at hprepare
    exact iff_of_true (Same.alike hprepare) (by rintro _ _ _ ⟨⟩)
  | ok given w₁ =>
    obtain ⟨c, o⟩ := given
    rw [hgiven] at hprepare
    have hsame : Same w w₁ := hprepare
    have hdryRun := hdry c o w₁ hgiven
    have hcommand : Alike w (after (runCommand t o (resolvePaths t o) c) w₁) ↔
        (c = .remove ∨ c = .purge → RemovalDropsNothing t o (resolvePaths t o) w) := by
      have hquiet : ∀ {m : Shell Unit}, Keeps Same m → Keeps Alike m := fun h =>
        h.mono fun _ _ => Same.alike
      have hkeeps : ∀ {m : Shell Unit}, Keeps Alike m → Alike w (after m w₁) := fun h =>
        IsTrans.trans _ _ _ hsame.alike (h w₁)
      have hremove : Alike w (after (cmdRemove t o (resolvePaths t o)) w₁) ↔
          RemovalDropsNothing t o (resolvePaths t o) w := by
        rw [← hsame.removalDropsNothing, ← alike_cmdRemove_iff hdryRun]
        exact forall_congr' fun q => imp_congr_right fun _ => by rw [congrFun hsame q]
      cases c with
      | install =>
        refine iff_of_true (hkeeps ?_) fun h => absurd h (not_or.mpr ⟨by rintro ⟨⟩, by rintro ⟨⟩⟩)
        refine (hquiet (keeps_ensureIdentities t o)).bind fun _ =>
          Keeps.bind (.ite ?_ (.pure ())) fun _ => Keeps.bind (.ite ?_ (.pure ())) fun _ =>
            (hquiet (keeps_installConfig_of_dry _ hdryRun)).bind fun _ =>
              hquiet (keeps_reloadServices t o)
        · refine keeps_installManaged_of_dry t _ hdryRun ?_ _
          exact not_renderName_source t o (ascii "mochad.service.in") (by decide +kernel)
            (by decide +kernel)
        · refine keeps_installManaged_of_dry t _ hdryRun ?_ _
          exact not_renderName_source t o (ascii "91-usb-x10-controllers.rules.in")
            (by decide +kernel) (by decide +kernel)
      | verify =>
        exact iff_of_true (hkeeps (hquiet (keeps_cmdVerify t _)))
          fun h => absurd h (not_or.mpr ⟨by rintro ⟨⟩, by rintro ⟨⟩⟩)
      | status =>
        exact iff_of_true (hkeeps (hquiet (keeps_cmdStatus t o _)))
          fun h => absurd h (not_or.mpr ⟨by rintro ⟨⟩, by rintro ⟨⟩⟩)
      | remove => exact hremove.trans ⟨fun h _ => h, fun h => h (Or.inl rfl)⟩
      | purge =>
        rw [forall_prop_of_true (Or.inr rfl), ← hremove, runCommand, cmdPurge]
        refine alike_bind_iff fun _ => (keeps_when keeps_die).bind fun _ => Keeps.get.bind fun w =>
          (keeps_when (keeps_run_of_dry o hdryRun)).bind fun _ => keeps_when ?_
        exact (keeps_when keeps_die).bind fun _ => keeps_die
    rw [← ends_after (P := fun w' => Alike w w')] at hcommand
    refine hcommand.trans ⟨?_, fun h => h c o w₁ rfl⟩
    rintro h c o w' ⟨⟩
    exact h

/-- The text of a unit, and of one that was edited. -/
def unitText : Bytes := ascii "[Unit]\n"

def editedText : Bytes := ascii "[Unit]\n#\n"

/-- The text of a rule. -/
def ruleText : Bytes := ascii "#\n"

/-- What `sha256sum` prints of these texts. -/
def checksums : List (Bytes × Bytes) :=
  [(unitText, ascii "ae6c63cff33bcfa3b6a2d6d0c9dd19521dedaa351146b1a642d2bfc9cf5a1e1f"),
    (editedText, ascii "0c4b6b8ee4122502706c5efd5180de45186d078fe6de851b64e00b6414af793b"),
    (ruleText, ascii "32c4858e22cc2c967b42150fa550562a2c839c2cebcaab91cabdf6f4da020022")]

/-- A host with the programs of the tool. -/
def Tools.plain : Tools where
  configuredPrefix := ascii "/usr/local"
  configuredBindir := ascii "/usr/local/bin"
  configuredPkgdatadir := ascii "/usr/local/share/mochad-redux"
  commandV _ := true
  checksum _ _ content := (checksums.lookup content).getD []
  sed _ content := content
  awkValue value := value
  mktemp _ := some (ascii "/tmp/mochad-redux-render.a1B2c3")
  mktemp_name _ _ h := by
    obtain rfl := Option.some.inj h
    exact (by decide +kernel : RenderName (ascii "/tmp/mochad-redux-render.a1B2c3"))
  succeeds _ _ := true
  uid := 0
  pid := 4711

/-- The files of a list. -/
def World.ofFiles (nodes : List (Path × Node)) : World where
  files q := (nodes.find? (·.1 = q)).map (·.2)
  printed := []
  ran := []

/-- A state file with a record of the unit, and nothing else. -/
def leftover : World :=
  .ofFiles [(ascii "/var/lib/mochad-redux/managed-files",
    .file (ascii "/etc/systemd/system/mochad.service|0\n"))]

/-- A host with a unit of that text and the rule, and with the records of the unit and the rule that
were installed. -/
def installedWith (unit : Bytes) : World :=
  .ofFiles [(ascii "/etc/systemd/system/mochad.service", .file unit),
    (ascii "/etc/udev/rules.d/91-usb-x10-controllers.rules", .file ruleText),
    (ascii "/var/lib/mochad-redux/managed-files", .file
      (ascii "/etc/systemd/system/mochad.service|" ++
        ascii "ae6c63cff33bcfa3b6a2d6d0c9dd19521dedaa351146b1a642d2bfc9cf5a1e1f\n" ++
        ascii "/etc/udev/rules.d/91-usb-x10-controllers.rules|" ++
        ascii "32c4858e22cc2c967b42150fa550562a2c839c2cebcaab91cabdf6f4da020022\n"))]

theorem prepare_plain (w : World) :
    prepare Tools.plain [ascii "remove", ascii "--dry-run"] w =
      .ok (.remove, { PREFIX := ascii "/usr/local", DRY_RUN := true }) w :=
  rfl

/-- A dry run of `remove` leaves a unit and a rule alone that are as they were installed, with their
records. -/
theorem dryRun_pure_installed :
    Alike (installedWith unitText)
      (after (setupTool Tools.plain [ascii "remove", ascii "--dry-run"])
        (installedWith unitText)) := by
  refine (dryRun_pure_iff Tools.plain [ascii "remove", ascii "--dry-run"]
    (installedWith unitText) fun c o w' hgiven => ?_).mpr fun c o w' hgiven _ => ?_
  · rw [prepare_plain] at hgiven
    obtain ⟨rfl, rfl⟩ := Prod.mk.inj (EStateM.Result.ok.inj hgiven).1
    rfl
  · rw [prepare_plain] at hgiven
    obtain ⟨rfl, rfl⟩ := Prod.mk.inj (EStateM.Result.ok.inj hgiven).1
    exact ⟨fun _ hnone => absurd hnone (by decide +kernel),
      fun _ _ hnone => absurd hnone (by decide +kernel)⟩

/-- A dry run drops the record of a unit that is not there. -/
theorem dryRun_drops_record : ¬∀ (t : Tools) (args : List Bytes) (w : World),
    (∀ c o w', prepare t args w = .ok (c, o) w' → o.DRY_RUN = true) →
      Alike w (after (setupTool t args) w) := by
  intro h
  have hstate := h Tools.plain [ascii "remove", ascii "--dry-run"] leftover
    (fun c o w' hgiven => by
      rw [prepare_plain] at hgiven
      obtain ⟨rfl, rfl⟩ := Prod.mk.inj (EStateM.Result.ok.inj hgiven).1
      rfl)
    (ascii "/var/lib/mochad-redux/managed-files") (by decide +kernel)
  exact absurd hstate (by decide +kernel)

end Setup

end Mochad
