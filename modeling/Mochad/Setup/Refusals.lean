import Mochad.Setup.DryRun
import Mochad.Setup.Installation

/-!
# Refusals

The tool refuses to replace or to remove a file that is not its own, and to purge without `--force`.
It looks at a file only when it comes to it, so what stands before it has been done by then: the
unit was installed or removed where the rule is refused, and both were removed where a purge is. A
refused run has touched nothing exactly if these steps had nothing to do (`refused_untouched_iff`).
-/

namespace Mochad

namespace Setup

open Script

/-! ### Steps with nothing to do -/

section Idle

variable (t : Tools) (o : Options) (p : Paths)

/-- **What the tool administers** was not touched. -/
def Untouched (w w' : World) : Prop := ∀ q ∈ p.administered, w'.files q = w.files q

/-- What stands under a name is not the tool's own. -/
def Blocked (w : World) (path : Path) : Prop := w.node path ≠ none ∧ ¬Managed t p w path

/-- **A removal has nothing to do**: the file is there in a dry run, or it is not there, and the
state file is its own copy without the records of it. -/
def RemovalIdle (w : World) (path : Path) : Prop :=
  if w.node path = none then
    ∀ text, w.content p.STATE_FILE = some text →
      (∀ r ∈ awkRecords text, firstField r ≠ t.awkValue path) ∧ Terminated text
  else o.DRY_RUN = true

/-- **An installation has nothing to do**: it is a dry run, or the file has the text that is rendered
for it and the record of it is the last line of the state file, and the only one. -/
def InstallIdle (w : World) (source path : Path) : Prop :=
  o.DRY_RUN = true ∨ ∃ template, w.content source = some template ∧
    w.content path = some (rendered t o p template) ∧
    w.content p.STATE_FILE = some (newState t p w path (desiredHash t o p w template))

/-- The template of the unit. -/
def Paths.unitSource (p : Paths) : Path := p.TEMPLATE_DIR ++ ascii "/mochad.service.in"

/-- **What a command does before it refuses has nothing to do.** -/
def IdleBefore (w : World) : Command → Prop
  | .install => o.WITH_SYSTEMD = true → ¬Blocked t p w p.SYSTEMD_DEST →
      InstallIdle t o p w p.unitSource p.SYSTEMD_DEST
  | .remove => o.WITH_SYSTEMD = true → ¬Blocked t p w p.SYSTEMD_DEST →
      RemovalIdle t o p w p.SYSTEMD_DEST
  | .purge => (o.WITH_SYSTEMD = true ∧ Blocked t p w p.SYSTEMD_DEST) ∨
      ((o.WITH_SYSTEMD = true → RemovalIdle t o p w p.SYSTEMD_DEST) ∧
        (o.WITH_UDEV = true → ¬Blocked t p w p.UDEV_DEST → RemovalIdle t o p w p.UDEV_DEST))
  | .verify => True
  | .status => True

variable {t o p} {w w' : World} {path : Path}

theorem Same.untouched (h : Same w w') : Untouched p w w' := fun q _ => congrFun h q

theorem Untouched.trans {w'' : World} (h : Untouched p w w') (h' : Untouched p w' w'') :
    Untouched p w w'' := fun q hq => (h' q hq).trans (h q hq)

/-- What is not touched afterwards makes no difference. -/
theorem untouched_congr {w'' : World} (h : Untouched p w' w'') :
    Untouched p w w'' ↔ Untouched p w w' :=
  forall₂_congr fun q hq => by rw [h q hq]

theorem Same.idleBefore (h : Same w w') (c : Command) :
    IdleBefore t o p w' c ↔ IdleBefore t o p w c := by
  have hmanaged : ∀ path, Managed t p w' path ↔ Managed t p w path := by
    intro path
    rw [Managed, Managed, hashAt, hashAt, recordOf, recordOf, h.content]
  cases c with
  | verify => rfl
  | status => rfl
  | install =>
    simp only [IdleBefore, Blocked, InstallIdle, newState, desiredHash, hmanaged, h.node, h.content,
      show w'.files = w.files from h]
  | remove => simp only [IdleBefore, Blocked, RemovalIdle, hmanaged, h.node, h.content]
  | purge => simp only [IdleBefore, Blocked, RemovalIdle, hmanaged, h.node, h.content]

section Transfer

variable (h : Untouched p w w') (hstate : p.STATE_FILE ∈ p.administered)
  (hpath : path ∈ p.administered)

include h hstate hpath

theorem Untouched.blocked : Blocked t p w' path ↔ Blocked t p w path := by
  have hmanaged : Managed t p w' path ↔ Managed t p w path := by
    rw [Managed, Managed, hashAt, hashAt, recordOf, recordOf, content_congr (h _ hstate),
      content_congr (h _ hpath)]
  rw [Blocked, Blocked, hmanaged, node_congr (h _ hpath)]

theorem Untouched.removalIdle : RemovalIdle t o p w' path ↔ RemovalIdle t o p w path := by
  rw [RemovalIdle, RemovalIdle, content_congr (h _ hstate), node_congr (h _ hpath)]

end Transfer

end Idle

/-! ### Removals -/

section Removals

variable {t : Tools} {o : Options} {w w₁ w₂ : World} {path : Path}

/-- A step of `remove`, if it is not left out. -/
def RemovalStep (t : Tools) (o : Options) (p : Paths) (b : Bool) (path : Path) (w w' : World) :
    Prop :=
  if b = true then Removed t o p path w w' else Same w w'

/-- The names that a removal is about. -/
def Removable (p : Paths) (path : Path) : Prop := path ∈ p.administered ∧ path ≠ p.STATE_FILE

theorem Removed.not_blocked {p : Paths} (hforce : o.FORCE = false) (h : Removed t o p path w w₁) :
    ¬Blocked t p w path := by
  rintro ⟨hnode, hnot⟩
  have := h.proceeds
  rw [Proceeds, if_neg hnode, Allowed, hforce] at this
  exact hnot (this.2.resolve_left (by rintro ⟨⟩))

/-- A removal of a file that is not there leaves the copy of the state file. -/
theorem Removed.state {p : Paths} (h : Removed t o p path w w₁) (hnode : w.node path = none) :
    ∃ text, w.content p.STATE_FILE = some text ∧
      w₁.files p.STATE_FILE = some (.file (otherRecords t path text)) := by
  have hproceeds := h.proceeds
  rw [Proceeds, if_pos hnode] at hproceeds
  obtain ⟨text, htext⟩ := Option.ne_none_iff_exists'.mp hproceeds.1
  refine ⟨text, htext, ?_⟩
  rw [h.dry (Or.inl hnode), dryLeft, if_pos hnode, dropped, if_pos rfl, htext]
  rfl

theorem files_of_content {q : Path} (hq : q ≠ []) {text : Bytes} (h : w.content q = some text) :
    w.files q = some (.file text) := by
  rw [← node_of_ne_nil hq, node_of_content h]

/-- **A removal touches nothing** exactly if it has nothing to do. -/
theorem untouched_of_removed_iff (hpath : Removable (resolvePaths t o) path)
    (h : Removed t o (resolvePaths t o) path w w₁) :
    Untouched (resolvePaths t o) w w₁ ↔ RemovalIdle t o (resolvePaths t o) w path := by
  have hstate : (resolvePaths t o).STATE_FILE ∈ (resolvePaths t o).administered := by
    simp [Paths.administered]
  have hnil := administered_ne_nil t o hstate
  have htmp := fun q hq => (stateTmp_ne t o (q := q) hq).symm
  rw [RemovalIdle]
  by_cases hnode : w.node path = none
  · rw [if_pos hnode]
    obtain ⟨text, htext, hfile⟩ := h.state hnode
    have hrest : ∀ q ∈ (resolvePaths t o).administered, q ≠ (resolvePaths t o).STATE_FILE →
        w₁.files q = w.files q := fun q hq hne => by
      rw [h.dry (Or.inl hnode), dryLeft_apply hne (htmp q hq)]
    simp only [htext, Option.some.injEq, forall_eq', ← otherRecords_eq_iff]
    constructor
    · intro hsame
      have := hsame _ hstate
      rw [hfile, files_of_content hnil htext] at this
      exact Node.file.inj (Option.some.inj this)
    · intro hkept q hq
      by_cases hqstate : q = (resolvePaths t o).STATE_FILE
      · rw [hqstate, hfile, files_of_content hnil htext, hkept]
      · exact hrest q hq hqstate
  · rw [if_neg hnode]
    cases hdry : o.DRY_RUN with
    | true =>
      refine iff_of_true (fun q hq => ?_) rfl
      rw [h.dry (Or.inr hdry), dryLeft, if_neg hnode]
    | false =>
      refine iff_of_false (fun hsame => hnode ?_) (by rintro ⟨⟩)
      have hgone := h.gone hnode hdry
      rw [hsame path hpath.1] at hgone
      rw [World.node, hgone, ite_self]

theorem untouched_of_step_iff (hpath : Removable (resolvePaths t o) path) {b : Bool}
    (h : RemovalStep t o (resolvePaths t o) b path w w₁) :
    Untouched (resolvePaths t o) w w₁ ↔ (b = true → RemovalIdle t o (resolvePaths t o) w path) := by
  rw [RemovalStep] at h
  cases b with
  | false => exact iff_of_true (Same.untouched h) nofun
  | true => exact (untouched_of_removed_iff hpath h).trans ⟨fun h _ => h, fun h => h rfl⟩

/-- **What one removal has touched, another one does not bring back.** -/
theorem untouched_first {path' : Path} (hpath : Removable (resolvePaths t o) path)
    (hpath' : Removable (resolvePaths t o) path') (hne : path ≠ path') {b b' : Bool}
    (h : RemovalStep t o (resolvePaths t o) b path w w₁)
    (h' : RemovalStep t o (resolvePaths t o) b' path' w₁ w₂)
    (hsame : Untouched (resolvePaths t o) w w₂) : Untouched (resolvePaths t o) w w₁ := by
  have hstate : (resolvePaths t o).STATE_FILE ∈ (resolvePaths t o).administered := by
    simp [Paths.administered]
  have hnil := administered_ne_nil t o hstate
  refine (untouched_of_step_iff hpath h).mpr fun hb => ?_
  rw [RemovalStep, if_pos hb] at h
  have hframe : ∀ q ∈ (resolvePaths t o).administered, q ≠ path' →
      q ≠ (resolvePaths t o).STATE_FILE → w₂.files q = w₁.files q := by
    intro q hq hqpath hqstate
    rw [RemovalStep] at h'
    split at h'
    · exact h'.frame q hqpath hqstate (stateTmp_ne t o hq).symm
    · exact congrFun h' q
  rw [RemovalIdle]
  by_cases hnode : w.node path = none
  · rw [if_pos hnode]
    obtain ⟨text, htext, hfile⟩ := h.state hnode
    simp only [htext, Option.some.injEq, forall_eq', ← otherRecords_eq_iff]
    have hfinal := hsame _ hstate
    rw [files_of_content hnil htext] at hfinal
    have hunchanged : w₂.files (resolvePaths t o).STATE_FILE =
        w₁.files (resolvePaths t o).STATE_FILE → otherRecords t path text = text := by
      intro heq
      rw [heq, hfile] at hfinal
      exact Node.file.inj (Option.some.inj hfinal)
    rw [RemovalStep] at h'
    split at h'
    case isFalse => exact hunchanged (congrFun h' _)
    case isTrue =>
      by_cases hnode' : w₁.node path' = none
      · obtain ⟨text', htext', hfile'⟩ := h'.state hnode'
        have heq : text' = otherRecords t path text := by
          rw [files_of_content hnil htext'] at hfile
          exact Node.file.inj (Option.some.inj hfile)
        rw [hfile', heq] at hfinal
        exact otherRecords_eq_of_otherRecords (Node.file.inj (Option.some.inj hfinal))
      · cases hdry : o.DRY_RUN with
        | true =>
          refine hunchanged ?_
          rw [h'.dry (Or.inr hdry), dryLeft, if_neg hnode']
        | false =>
          refine absurd ?_ hnode'
          have hgone := h'.gone hnode' hdry
          rw [hsame path' hpath'.1] at hgone
          rw [World.node, h.frame path' hne.symm hpath'.2 (stateTmp_ne t o hpath'.1).symm, hgone,
            ite_self]
  · rw [if_neg hnode]
    by_contra hdry
    have hgone := h.gone hnode (Bool.not_eq_true _ ▸ hdry)
    rw [← hframe path hpath.1 hne hpath.2, hsame path hpath.1] at hgone
    refine hnode ?_
    rw [World.node, hgone, ite_self]

end Removals

/-! ### Parts that do not refuse -/

section Failures

variable (t : Tools) (o : Options)

theorem exits_host (words : List Bytes) : ExitsWith (fun _ => False) (host t words) :=
  ExitsWith.get.bind fun _ => (ExitsWith.modify _).bind fun _ => .pure _

theorem exits_print (line : Bytes) : ExitsWith (· = .failed) (print line) := ExitsWith.modify _

theorem exits_when {b : Bool} {step : Shell Unit} (h : ExitsWith (· = .failed) step) :
    ExitsWith (· = .failed) (when b step) :=
  .ite h (.pure ())

theorem exits_runHost (words : List Bytes) : ExitsWith (· = .failed) (runHost t o words) :=
  (exits_print _).bind fun _ => exits_when (exits_check (exits_host t words))

theorem exits_ensureIdentities : ExitsWith (· = .failed) (ensureIdentities t o) := by
  have hrun := exits_runHost t o
  have hhost : ∀ words, ExitsWith (· = .failed) (host t words) := fun words w =>
    (exits_host t words w).mono (fun _ _ h => h) fun _ _ h => h.elim
  exact .ite (exits_print _) ((hhost _).bind fun _ => (exits_when (hrun _)).bind fun _ =>
    (hhost _).bind fun _ => (exits_when (hrun _)).bind fun _ =>
      (hhost _).bind fun _ => .ite (hrun _) (hrun _))

theorem exits_reloadServices : ExitsWith (· = .failed) (reloadServices t o) := by
  have hrun := exits_runHost t o
  exact (exits_when ((hrun _).bind fun _ => (exits_when (hrun _)).bind fun _ =>
    (exits_when (hrun _)).bind fun _ => exits_when (hrun _))).bind fun _ => exits_when (hrun _)

theorem exits_installConfig (p : Paths) : ExitsWith (· = .failed) (installConfig o p) := by
  have hmkdir : ExitsWith (fun _ => False) (mkdirP p.ETC_DIR) := fun w =>
    (ends_makeDirectories _ w).mono (fun _ _ _ => trivial) fun _ _ h => h
  have hinstall : ∀ source destination, ExitsWith (fun _ => False)
      (install0644 source destination) := by
    intro source destination
    refine ExitsWith.get.bind fun w => ?_
    dsimp only
    split
    · exact .pure _
    · exact .ite (.pure _) ((ExitsWith.modify _).bind fun _ => .pure _)
  exact ExitsWith.get.bind fun w => .ite (exits_print _) (.ite (exits_print _)
    ((exits_check hmkdir).bind fun _ => exits_check (hinstall _ _)))

end Failures

/-! ### Refused commands -/

section Commands

variable {t : Tools} {o : Options} {w : World}

theorem removable_unit (t : Tools) (o : Options) :
    Removable (resolvePaths t o) (resolvePaths t o).SYSTEMD_DEST := by
  have hnodup := administered_nodup t o
  simp only [Paths.administered, List.nodup_cons, List.mem_cons, List.not_mem_nil, or_false,
    not_or] at hnodup
  exact ⟨by simp [Paths.administered], hnodup.1.2.2⟩

theorem removable_rule (t : Tools) (o : Options) :
    Removable (resolvePaths t o) (resolvePaths t o).UDEV_DEST := by
  have hnodup := administered_nodup t o
  simp only [Paths.administered, List.nodup_cons, List.mem_cons, List.not_mem_nil, or_false,
    not_or] at hnodup
  exact ⟨by simp [Paths.administered], hnodup.2.1.2⟩

theorem unit_ne_rule (t : Tools) (o : Options) :
    (resolvePaths t o).SYSTEMD_DEST ≠ (resolvePaths t o).UDEV_DEST := by
  have hnodup := administered_nodup t o
  simp only [Paths.administered, List.nodup_cons, List.mem_cons, List.not_mem_nil, or_false,
    not_or] at hnodup
  exact hnodup.1.1

theorem ends_removalStep {path : Path} (hpath : Removable (resolvePaths t o) path) (b : Bool) :
    Ends (when b (removeManaged t o (resolvePaths t o) path)) w
      (fun _ w' => RemovalStep t o (resolvePaths t o) b path w w')
      fun e w' => e.Refusal → b = true ∧ Blocked t (resolvePaths t o) w path ∧ Same w w' := by
  have hstate : (resolvePaths t o).STATE_FILE ∈ (resolvePaths t o).administered := by
    simp [Paths.administered]
  cases b with
  | false => exact rfl
  | true =>
    refine (ends_removeManaged (administered_ne_nil t o hstate) hpath.2.symm
      (stateTmp_ne t o hpath.1)).mono (fun _ w' h => h) fun e w' h hrefusal => ?_
    obtain ⟨hnode, hnot, hsame⟩ := h.2 hrefusal
    exact ⟨rfl, ⟨hnode, hnot⟩, hsame⟩

/-- **How `remove` ends**: after both steps, or refused at one of them. -/
theorem ends_cmdRemove : Ends (cmdRemove t o (resolvePaths t o)) w
    (fun _ w' => ∃ w₁ w₂,
      RemovalStep t o (resolvePaths t o) o.WITH_SYSTEMD (resolvePaths t o).SYSTEMD_DEST w w₁ ∧
      RemovalStep t o (resolvePaths t o) o.WITH_UDEV (resolvePaths t o).UDEV_DEST w₁ w₂ ∧
      Same w₂ w')
    fun e w' => e.Refusal →
      (o.WITH_SYSTEMD = true ∧ Blocked t (resolvePaths t o) w (resolvePaths t o).SYSTEMD_DEST ∧
        Same w w') ∨
      ∃ w₁,
        RemovalStep t o (resolvePaths t o) o.WITH_SYSTEMD (resolvePaths t o).SYSTEMD_DEST w w₁ ∧
        Blocked t (resolvePaths t o) w₁ (resolvePaths t o).UDEV_DEST ∧ Same w₁ w' := by
  rw [cmdRemove, ends_bind]
  refine (ends_removalStep (removable_unit t o) _).mono (fun _ w₁ h₁ => ?_) fun e w₁ h hrefusal =>
    Or.inl (h hrefusal)
  rw [ends_bind]
  refine (ends_removalStep (removable_rule t o) _).mono (fun _ w₂ h₂ => ?_) fun e w₂ h hrefusal =>
    Or.inr ⟨w₁, h₁, (h hrefusal).2⟩
  have hkeeps : Keeps Same (do
      reloadServices t o
      log (ascii "[INFO] configuration and identities were preserved")) :=
    (keeps_reloadServices t o).bind fun _ => keeps_log
  have hexits : ExitsWith (· = .failed) (do
      reloadServices t o
      log (ascii "[INFO] configuration and identities were preserved")) :=
    (exits_reloadServices t o).bind fun _ => exits_print _
  refine (hkeeps.ends.and (hexits w₂)).mono (fun _ w₃ h => ⟨w₁, w₂, h₁, h₂, h.1⟩)
    fun e w₃ h hrefusal => ?_
  rw [h.2] at hrefusal
  exact absurd hrefusal Exit.not_refusal_failed

/-- **How `install` is refused**: at the unit, or at the rule after the unit was installed. -/
theorem ends_cmdInstall (hforce : o.FORCE = false) : Ends (cmdInstall t o (resolvePaths t o)) w
    (fun _ _ => True)
    fun e w' => e.Refusal → ∃ w₀, Same w w₀ ∧
      ((o.WITH_SYSTEMD = true ∧ Blocked t (resolvePaths t o) w₀ (resolvePaths t o).SYSTEMD_DEST ∧
        Alike w₀ w') ∨
      ∃ w₁, (if o.WITH_SYSTEMD = true then
          Installed t o (resolvePaths t o).unitSource (resolvePaths t o).SYSTEMD_DEST w₀ w₁
        else Same w₀ w₁) ∧ Alike w₁ w') := by
  have hunit : ∀ w₀, Ends (when o.WITH_SYSTEMD (installManaged t o (resolvePaths t o)
      (resolvePaths t o).unitSource (resolvePaths t o).SYSTEMD_DEST)) w₀
      (fun _ w₁ => if o.WITH_SYSTEMD = true then
        Installed t o (resolvePaths t o).unitSource (resolvePaths t o).SYSTEMD_DEST w₀ w₁
        else Same w₀ w₁)
      fun e w' => e.Refusal → o.WITH_SYSTEMD = true ∧
        Blocked t (resolvePaths t o) w₀ (resolvePaths t o).SYSTEMD_DEST ∧ Alike w₀ w' := by
    intro w₀
    cases o.WITH_SYSTEMD with
    | false => exact rfl
    | true =>
      have hsource := not_renderName_source t o (ascii "mochad.service.in") (by decide +kernel)
        (by decide +kernel)
      refine (ends_installManaged hforce hsource (removable_unit t o).1 (removable_unit t o).2
        w₀).mono (fun _ w₁ h => h) fun e w' h hrefusal => ?_
      obtain ⟨hnode, hnot, halike⟩ := h hrefusal
      exact ⟨rfl, ⟨hnode, hnot⟩, halike⟩
  have hrule : ∀ w₁, Ends (when o.WITH_UDEV (installManaged t o (resolvePaths t o)
      ((resolvePaths t o).TEMPLATE_DIR ++ ascii "/91-usb-x10-controllers.rules.in")
      (resolvePaths t o).UDEV_DEST)) w₁ (fun _ _ => True)
      fun e w' => e.Refusal → Alike w₁ w' := by
    intro w₁
    cases o.WITH_UDEV with
    | false => trivial
    | true =>
      have hsource := not_renderName_source t o (ascii "91-usb-x10-controllers.rules.in")
        (by decide +kernel) (by decide +kernel)
      exact (ends_installManaged hforce hsource (removable_rule t o).1 (removable_rule t o).2
        w₁).mono (fun _ _ _ => trivial) fun e w' h hrefusal => (h hrefusal).2.2
  have hfailed : ∀ {e : Exit} {q : Prop}, e = .failed → e.Refusal → q := fun he hrefusal =>
    absurd (he ▸ hrefusal) Exit.not_refusal_failed
  rw [cmdInstall, ends_bind]
  refine ((keeps_ensureIdentities t o).ends.and (exits_ensureIdentities t o w)).mono
    (fun _ w₀ h₀ => ?_) fun e w' h => hfailed h.2
  rw [ends_bind]
  refine (hunit w₀).mono (fun _ w₁ h₁ => ?_) fun e w' h hrefusal =>
    ⟨w₀, h₀.1, Or.inl (h hrefusal)⟩
  rw [ends_bind]
  refine (hrule w₁).mono (fun _ w₂ _ => ?_) fun e w' h hrefusal =>
    ⟨w₀, h₀.1, Or.inr ⟨w₁, h₁, h hrefusal⟩⟩
  exact ((exits_installConfig o _).bind fun _ => exits_reloadServices t o) w₂ |>.mono
    (fun _ _ _ => trivial) fun e w' h => hfailed h

/-- An installation touches nothing exactly if it has nothing to do. -/
theorem untouched_of_installed_iff {source path : Path}
    (hpath : Removable (resolvePaths t o) path) {w₁ : World}
    (h : Installed t o source path w w₁) :
    Untouched (resolvePaths t o) w w₁ ↔ InstallIdle t o (resolvePaths t o) w source path := by
  have hstate : (resolvePaths t o).STATE_FILE ∈ (resolvePaths t o).administered := by
    simp [Paths.administered]
  have hnil := administered_ne_nil t o hstate
  have hnil' := administered_ne_nil t o hpath.1
  rw [InstallIdle]
  cases hdry : o.DRY_RUN with
  | true =>
    exact iff_of_true (fun q hq => h.dry hdry q (not_renderName_administered t o hq)) (Or.inl rfl)
  | false =>
    obtain ⟨template, htemplate, hfile, hnew⟩ := h.written hdry
    constructor
    · intro hsame
      have hwas := hsame path hpath.1
      rw [hfile] at hwas
      have hnode : w.node path = some (.file (rendered t o (resolvePaths t o) template)) := by
        rw [node_of_ne_nil hnil', ← hwas]
      have hmanaged := h.managed (by rw [hnode]; rintro ⟨⟩)
      -- there is a record, so there is a state file
      obtain ⟨text, htext⟩ : ∃ text, w.content (resolvePaths t o).STATE_FILE = some text := by
        refine Option.ne_none_iff_exists'.mp fun hnone => hmanaged.1 ?_
        rw [recordOf, hnone]
      have hwritten := hnew (by rw [node_of_content htext]; rintro ⟨⟩)
      rw [hsame _ hstate, files_of_content hnil htext] at hwritten
      refine Or.inr ⟨template, htemplate, by rw [World.content, hnode], ?_⟩
      rw [htext, Node.file.inj (Option.some.inj hwritten)]
    · rintro (h' | ⟨template', htemplate', hcontent, htext⟩)
      · cases h'
      obtain rfl := Option.some.inj (htemplate.symm.trans htemplate')
      have hwritten := hnew (by rw [node_of_content htext]; rintro ⟨⟩)
      intro q hq
      by_cases hqpath : q = path
      · rw [hqpath, hfile, files_of_content hnil' hcontent]
      by_cases hqstate : q = (resolvePaths t o).STATE_FILE
      · rw [hqstate, hwritten, files_of_content hnil htext]
      · exact h.frame q hq hqpath hqstate

/-- **A refused command** has touched nothing exactly if what it did before had nothing to do. -/
theorem ends_runCommand (hforce : o.FORCE = false) (c : Command) :
    Ends (runCommand t o (resolvePaths t o) c) w (fun _ _ => True)
      fun e w' => e.Refusal →
        (Untouched (resolvePaths t o) w w' ↔ IdleBefore t o (resolvePaths t o) w c) := by
  have hstate : (resolvePaths t o).STATE_FILE ∈ (resolvePaths t o).administered := by
    simp [Paths.administered]
  have halike : ∀ {w w' : World}, Alike w w' → Untouched (resolvePaths t o) w w' := fun h q hq =>
    h q (not_renderName_administered t o hq)
  have hnotBlocked : ∀ {b path w w₁}, RemovalStep t o (resolvePaths t o) b path w w₁ →
      b = true → ¬Blocked t (resolvePaths t o) w path := by
    intro b path w w₁ h hb
    rw [RemovalStep, if_pos hb] at h
    exact h.not_blocked hforce
  cases c with
  | verify =>
    exact (keeps_cmdVerify t _).ends.mono (fun _ _ _ => trivial) fun e w' h _ =>
      iff_of_true (Same.untouched h) trivial
  | status =>
    exact (keeps_cmdStatus t o _).ends.mono (fun _ _ _ => trivial) fun e w' h _ =>
      iff_of_true (Same.untouched h) trivial
  | install =>
    refine (ends_cmdInstall hforce).mono (fun _ _ h => h) fun e w' h hrefusal => ?_
    obtain ⟨w₀, hsame, h⟩ := h hrefusal
    rw [← hsame.idleBefore]
    have hfrom : Untouched (resolvePaths t o) w w' ↔ Untouched (resolvePaths t o) w₀ w' :=
      forall₂_congr fun q _ => by rw [congrFun hsame q]
    rw [hfrom]
    rcases h with ⟨_, hblocked, hunit⟩ | ⟨w₁, hstep, hrest⟩
    · exact iff_of_true (halike hunit) fun _ hnot => absurd hblocked hnot
    · rw [untouched_congr (halike hrest), IdleBefore]
      split at hstep
      case isTrue hsys =>
        have hnot : ¬Blocked t (resolvePaths t o) w₀ (resolvePaths t o).SYSTEMD_DEST :=
          fun h => h.2 (hstep.managed h.1)
        exact (untouched_of_installed_iff (removable_unit t o) hstep).trans
          ⟨fun h _ _ => h, fun h => h hsys hnot⟩
      case isFalse hsys => exact iff_of_true (Same.untouched hstep) fun h => absurd h hsys
  | remove =>
    refine ends_cmdRemove.mono (fun _ _ _ => trivial) fun e w' h hrefusal => ?_
    rcases h hrefusal with ⟨_, hblocked, hsame⟩ | ⟨w₁, hstep, -, hsame⟩
    · exact iff_of_true hsame.untouched fun _ hnot => absurd hblocked hnot
    · rw [untouched_congr hsame.untouched, untouched_of_step_iff (removable_unit t o) hstep]
      exact ⟨fun h hsys _ => h hsys, fun h hsys => h hsys (hnotBlocked hstep hsys)⟩
  | purge =>
    -- what a removal of the unit that touches nothing says of the rule
    have hmoved : ∀ {w₁}, RemovalStep t o (resolvePaths t o) o.WITH_SYSTEMD
        (resolvePaths t o).SYSTEMD_DEST w w₁ →
        (o.WITH_SYSTEMD = true →
          RemovalIdle t o (resolvePaths t o) w (resolvePaths t o).SYSTEMD_DEST) →
        (Blocked t (resolvePaths t o) w₁ (resolvePaths t o).UDEV_DEST ↔
          Blocked t (resolvePaths t o) w (resolvePaths t o).UDEV_DEST) ∧
        (RemovalIdle t o (resolvePaths t o) w₁ (resolvePaths t o).UDEV_DEST ↔
          RemovalIdle t o (resolvePaths t o) w (resolvePaths t o).UDEV_DEST) := by
      intro w₁ hstep hidle
      have hsame := (untouched_of_step_iff (removable_unit t o) hstep).mpr hidle
      exact ⟨hsame.blocked hstate (removable_rule t o).1,
        hsame.removalIdle hstate (removable_rule t o).1⟩
    have hpassed : ∀ {w₁}, RemovalStep t o (resolvePaths t o) o.WITH_SYSTEMD
        (resolvePaths t o).SYSTEMD_DEST w w₁ →
        (IdleBefore t o (resolvePaths t o) w .purge ↔
          (o.WITH_SYSTEMD = true →
            RemovalIdle t o (resolvePaths t o) w (resolvePaths t o).SYSTEMD_DEST) ∧
          (o.WITH_UDEV = true → ¬Blocked t (resolvePaths t o) w (resolvePaths t o).UDEV_DEST →
            RemovalIdle t o (resolvePaths t o) w (resolvePaths t o).UDEV_DEST)) := by
      intro w₁ hstep
      exact or_iff_right fun h => hnotBlocked hstep h.1 h.2
    rw [runCommand, cmdPurge, ends_bind]
    refine ends_cmdRemove.mono (fun _ w₃ h => ?_) fun e w' h hrefusal => ?_
    · obtain ⟨w₁, w₂, h₁, h₂, hsame⟩ := h
      rw [hforce, ends_bind]
      show Exit.Refusal _ → (Untouched _ _ (w₃.print _) ↔ _)
      intro _
      have hlast : Untouched (resolvePaths t o) w (w₃.print
          (ascii "mochad-redux-setup: " ++ ascii "purge requires --force")) ↔
          Untouched (resolvePaths t o) w w₂ := untouched_congr hsame.untouched
      rw [hlast, hpassed h₁]
      have hsecond := untouched_of_step_iff (removable_rule t o) h₂
      constructor
      · intro hall
        have hfirst := untouched_first (removable_unit t o) (removable_rule t o)
          (unit_ne_rule t o) h₁ h₂ hall
        have hidle := (untouched_of_step_iff (removable_unit t o) h₁).mp hfirst
        refine ⟨hidle, fun hudev _ => (hmoved h₁ hidle).2.mp (hsecond.mp ?_ hudev)⟩
        exact fun q hq => by rw [hall q hq, hfirst q hq]
      · rintro ⟨hidle, hidle'⟩
        refine ((untouched_of_step_iff (removable_unit t o) h₁).mpr hidle).trans
          (hsecond.mpr fun hudev => ?_)
        have hnot := fun h => hnotBlocked h₂ hudev ((hmoved h₁ hidle).1.mpr h)
        exact (hmoved h₁ hidle).2.mpr (hidle' hudev hnot)
    · rcases h hrefusal with ⟨hsys, hblocked, hsame⟩ | ⟨w₁, hstep, hblocked, hsame⟩
      · exact iff_of_true hsame.untouched (Or.inl ⟨hsys, hblocked⟩)
      · rw [untouched_congr hsame.untouched, untouched_of_step_iff (removable_unit t o) hstep,
          hpassed hstep]
        exact ⟨fun hidle => ⟨hidle, fun _ hnot => absurd ((hmoved hstep hidle).1.mp hblocked) hnot⟩,
          fun h => h.1⟩

end Commands

/-- **A refused run changes nothing** of what the tool administers, exactly if what it did before it
refused had nothing to do. -/
theorem refused_untouched_iff {t : Tools} {args : List Bytes} {c : Command} {o : Options}
    {e : Exit} {w w₁ w' : World} (hgiven : prepare t args w = .ok (c, o) w₁)
    (hforce : o.FORCE = false) (hrefused : setupTool t args w = .error e w') (he : e.Refusal) :
    Untouched (resolvePaths t o) w w' ↔ IdleBefore t o (resolvePaths t o) w c := by
  have hsame : Same w w₁ := by
    have := (keeps_prepare t args).ends (w := w)
    rwa [Ends, hgiven] at this
  have hcommand := ends_runCommand (w := w₁) (t := t) hforce c
  have hrun : setupTool t args w = runCommand t o (resolvePaths t o) c w₁ := by
    show EStateM.bind _ _ w = _
    rw [EStateM.bind, hgiven]
  rw [Ends, ← hrun, hrefused] at hcommand
  have hfrom : Untouched (resolvePaths t o) w w' ↔ Untouched (resolvePaths t o) w₁ w' :=
    forall₂_congr fun q _ => by rw [congrFun hsame q]
  rw [hfrom, hcommand he, hsame.idleBefore]

theorem prepare_purge (w : World) :
    prepare Tools.plain [ascii "purge"] w = .ok (.purge, { PREFIX := ascii "/usr/local" }) w :=
  rfl

/-- What `purge` says without `--force`. -/
def purgeRefusal : Exit := .died (ascii "purge requires --force")

theorem refusal_purgeRefusal : purgeRefusal.Refusal :=
  ⟨ascii "purge requires --force", rfl, Or.inr rfl⟩

/-- What `remove` says of a unit that is not as it was installed. -/
def removeRefusal : Exit := .died (ascii "refusing to remove unmanaged or modified file: " ++
  ascii "/etc/systemd/system/mochad.service")

theorem prepare_remove (w : World) :
    prepare Tools.plain [ascii "remove"] w = .ok (.remove, { PREFIX := ascii "/usr/local" }) w :=
  rfl

/-- The removal of a unit that was edited is refused, and changes nothing. -/
theorem refused_untouched_edited :
    ∃ w', setupTool Tools.plain [ascii "remove"] (installedWith editedText) =
        .error removeRefusal w' ∧
      Untouched (resolvePaths Tools.plain { PREFIX := ascii "/usr/local" })
        (installedWith editedText) w' := by
  obtain ⟨w', hrefused⟩ : ∃ w', setupTool Tools.plain [ascii "remove"] (installedWith editedText) =
      .error removeRefusal w' := ⟨_, rfl⟩
  have hblocked : Blocked Tools.plain (resolvePaths Tools.plain { PREFIX := ascii "/usr/local" })
      (installedWith editedText)
      (resolvePaths Tools.plain { PREFIX := ascii "/usr/local" }).SYSTEMD_DEST :=
    ⟨by decide +kernel, fun hmanaged => absurd hmanaged.2 (by decide +kernel)⟩
  exact ⟨w', hrefused, (refused_untouched_iff (prepare_remove _) rfl hrefused
    ⟨_, rfl, Or.inl ⟨_, rfl⟩⟩).mpr fun _ hnot => absurd hblocked hnot⟩

/-- A purge drops the record of the unit before it is refused. -/
theorem refused_drops_record : ¬∀ (t : Tools) (args : List Bytes) (c : Command) (o : Options)
    (e : Exit) (w w₁ w' : World), prepare t args w = .ok (c, o) w₁ → o.FORCE = false →
      setupTool t args w = .error e w' → e.Refusal → Untouched (resolvePaths t o) w w' := by
  intro h
  obtain ⟨w', hrefused⟩ : ∃ w', setupTool Tools.plain [ascii "purge"] leftover =
      .error purgeRefusal w' := ⟨_, rfl⟩
  have hstate := h Tools.plain [ascii "purge"] .purge { PREFIX := ascii "/usr/local" } purgeRefusal
    leftover leftover w' (prepare_purge leftover) rfl hrefused refusal_purgeRefusal
    (ascii "/var/lib/mochad-redux/managed-files") (by decide +kernel)
  have hafter : w' = after (setupTool Tools.plain [ascii "purge"]) leftover := by
    rw [after, hrefused]
  rw [hafter] at hstate
  exact absurd hstate (by decide +kernel)

end Setup

end Mochad
