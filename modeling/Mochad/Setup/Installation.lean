import Mochad.Setup.Removal

/-!
# Installing a managed file

`install_managed` renders a template, looks at the file that it is to replace, and refuses before it
touches anything (`ends_installManaged`). Otherwise it makes the directories, puts the file there and
appends its record to the state file, of which it drops the records that the file had.

The names that the tool administers do not lead through each other, so the directories that are made
on the way stand under none of them.
-/

namespace Mochad

namespace Setup

open Script

/-! ### Directories -/

theorem directories_lead {q : Path} (read path : Bytes) (h : q ∈ directories read path) :
    q <+: read ++ path ∧ q ≠ [] := by
  fun_induction directories read path with
  | case1 read hread => cases h
  | case2 read hread =>
    obtain rfl := List.mem_singleton.mp h
    rw [List.append_nil]
    exact ⟨List.prefix_refl q, fun hnil => hread (Or.inl hnil)⟩
  | case3 read b rest hcut ih =>
    rcases List.mem_cons.mp h with rfl | h
    · exact ⟨List.prefix_append _ _, hcut.2.1⟩
    · have := ih h
      rwa [List.append_assoc, List.singleton_append] at this
  | case4 read b rest hcut ih =>
    have := ih h
    rwa [List.append_assoc, List.singleton_append] at this

/-- The directories of a name lead to it. -/
theorem prefix_of_mem_dirname {q path : Path} (h : q ∈ directories [] (dirname path)) :
    q <+: path ∧ q.length < path.length := by
  rw [dirname] at h
  split at h
  case isTrue =>
    rw [show directories [] (ascii "/") = [] by decide] at h
    cases h
  case isFalse hne =>
    have hq := (directories_lead _ _ h).1
    rw [List.nil_append] at hq
    have hle := List.rdropWhile_prefix (p := fun b : UInt8 => decide (b ≠ 0x2f)) (l := path)
    have hlast := List.rdropWhile_last_not (fun b : UInt8 => decide (b ≠ 0x2f)) path
    generalize path.rdropWhile (fun b => decide (b ≠ 0x2f)) = dir at hne hq hle hlast
    have hle' := List.rdropWhile_prefix (p := fun b : UInt8 => decide (b = 0x2f)) (l := dir)
    have hlast' := List.rdropWhile_last_not (fun b : UInt8 => decide (b = 0x2f)) dir hne
    have hleads := hq.trans (hle'.trans hle)
    refine ⟨hleads, lt_of_le_of_ne hleads.length_le fun hlength => ?_⟩
    -- otherwise nothing is dropped, but the last character is a slash or it is not
    have hwhole : dir.rdropWhile (fun b => decide (b = 0x2f)) = dir := by
      refine hle'.eq_of_length (le_antisymm hle'.length_le ?_)
      exact hle.length_le.trans (hlength ▸ hq.length_le)
    have hdir : dir ≠ [] := hwhole ▸ hne
    have hlasts := List.getLast_congr hne hdir hwhole
    rw [hlasts, decide_eq_true_eq] at hlast'
    exact hlast hdir (decide_eq_true hlast')

section Administered

variable (t : Tools) (o : Options) {q path : Path}

theorem not_mem_dirname (hq : q ∈ (resolvePaths t o).administered)
    (hpath : path ∈ (resolvePaths t o).administered) : q ∉ directories [] (dirname path) := by
  intro h
  obtain ⟨hle, hlt⟩ := prefix_of_mem_dirname h
  obtain rfl := eq_of_administered_leads t o hq hpath hle
  exact lt_irrefl _ hlt

theorem not_mem_stateDir (hq : q ∈ (resolvePaths t o).administered) :
    q ∉ directories [] (resolvePaths t o).STATE_DIR := by
  intro h
  have hstate : (resolvePaths t o).STATE_DIR <+: (resolvePaths t o).STATE_FILE :=
    List.prefix_append _ _
  have hq' := (directories_lead _ _ h).1
  rw [List.nil_append] at hq'
  have heq := eq_of_administered_leads t o hq (by simp [Paths.administered])
    (hq'.trans hstate)
  have hlength : (resolvePaths t o).STATE_FILE.length ≤ (resolvePaths t o).STATE_DIR.length :=
    heq ▸ hq'.length_le
  have hfile : (resolvePaths t o).STATE_FILE =
      (resolvePaths t o).STATE_DIR ++ ascii "/managed-files" := rfl
  have hpos : 0 < (ascii "/managed-files").length := by decide
  rw [hfile, List.length_append] at hlength
  omega

end Administered

/-! ### Commands -/

section Commands

variable {w : World}

/-- `mkdir -p` only makes directories that are not there. -/
theorem ends_makeDirectories (paths : List Path) (w : World) :
    Ends (makeDirectories paths) w
      (fun _ w' => ∀ q, q ∉ paths ∨ w.node q ≠ none → w'.files q = w.files q) fun _ _ => False := by
  induction paths generalizing w with
  | nil => exact fun _ _ => rfl
  | cons path paths ih =>
    rw [makeDirectories, ends_bind, ends_get]
    have hrest : ∀ q, q ∉ path :: paths ∨ w.node q ≠ none → q ∉ paths ∨ w.node q ≠ none :=
      fun q => Or.imp_left fun h hmem => h (List.mem_cons_of_mem _ hmem)
    cases hnode : w.node path with
    | none =>
      dsimp only
      rw [ends_bind, ends_modify]
      refine (ih _).mono (fun _ w' h q hq => ?_) fun _ _ h => h
      have hne : q ≠ path := by
        rintro rfl
        rcases hq with hq | hq
        · exact hq List.mem_cons_self
        · exact hq hnode
      have hput : (w.put path (some .dir)).files q = w.files q := if_neg hne
      refine (h q ((hrest q hq).imp_right fun hq => ?_)).trans hput
      rwa [World.node, hput]
    | some node =>
      cases node with
      | dir => exact (ih w).mono (fun _ w' h q hq => h q (hrest q hq)) fun _ _ h => h
      | file content => exact fun _ _ => rfl

theorem ends_mkdirP (path : Path) : Ends (check (mkdirP path)) w
    (fun _ w' => ∀ q, q ∉ directories [] path ∨ w.node q ≠ none → w'.files q = w.files q)
    fun e _ => e = .failed := by
  rw [ends_check]
  refine (ends_makeDirectories _ w).mono (fun b w' h => ?_) fun _ _ h => h.elim
  cases b with
  | true => exact h
  | false => rfl

/-- `install` puts the content of a file under a name that is no directory. -/
theorem ends_install0644 {source destination : Path} (h : w.node destination ≠ some .dir) :
    Ends (check (install0644 source destination)) w
      (fun _ w' => ∃ content, w.content source = some content ∧
        w'.files = (w.put destination (some (.file content))).files)
      fun e _ => e = .failed := by
  rw [ends_check, install0644, ends_bind, ends_get, target, if_neg h]
  dsimp only
  cases hcontent : w.content source with
  | none => rfl
  | some content =>
    dsimp only
    split
    · rfl
    · exact ⟨content, rfl, rfl⟩

theorem node_congr {w w' : World} {q : Path} (h : w'.files q = w.files q) :
    w'.node q = w.node q := by
  rw [World.node, World.node, h]

theorem content_congr {w w' : World} {q : Path} (h : w'.files q = w.files q) :
    w'.content q = w.content q := by
  rw [World.content, World.content, node_congr h]

end Commands

/-! ### The state file -/

section State

variable (t : Tools) (o : Options)

/-- The text that `write_state` leaves: the records of the other files, and the new one. -/
def newState (p : Paths) (w : World) (path : Path) (hash : Bytes) : Bytes :=
  (match w.content p.STATE_FILE with
    | some text => otherRecords t path text
    | none => []) ++ path ++ ascii "|" ++ hash ++ ascii "\n"

theorem ends_writeState (path : Path) (hash : Bytes) (w : World) :
    Ends (writeState t (resolvePaths t o) path hash) w
      (fun _ w' => (∀ q ∈ (resolvePaths t o).administered, q ≠ (resolvePaths t o).STATE_FILE →
          w'.files q = w.files q) ∧
        (w.node (resolvePaths t o).STATE_FILE ≠ some .dir →
          w'.files (resolvePaths t o).STATE_FILE =
            some (.file (newState t (resolvePaths t o) w path hash))))
      fun e _ => e = .failed := by
  have hmem : (resolvePaths t o).STATE_FILE ∈ (resolvePaths t o).administered := by
    simp [Paths.administered]
  have hstate := administered_ne_nil t o hmem
  have hne := stateTmp_ne t o hmem
  have htmp : stateTmp t (resolvePaths t o) ≠ [] :=
    List.append_ne_nil_of_left_ne_nil (List.append_ne_nil_of_left_ne_nil hstate _) _
  rw [writeState, ends_bind]
  refine (ends_mkdirP _).mono (fun _ w₁ h₁ => ?_) fun _ _ h => h
  have hsame : ∀ q ∈ (resolvePaths t o).administered, w₁.files q = w.files q := fun q hq =>
    h₁ q (Or.inl (not_mem_stateDir t o hq))
  have hnew : newState t (resolvePaths t o) w₁ path hash =
      newState t (resolvePaths t o) w path hash := by
    rw [newState, newState, content_congr (hsame _ hmem)]
  have hnode := node_congr (hsame _ hmem)
  rw [ends_bind, ends_get, ← hnew, ← hnode]
  show Ends (do
    check (redirect (stateTmp t (resolvePaths t o)) (newState t (resolvePaths t o) w₁ path hash))
    check (mv (stateTmp t (resolvePaths t o)) (resolvePaths t o).STATE_FILE)) w₁ _ _
  generalize newState t (resolvePaths t o) w₁ path hash = text
  rw [ends_bind, ends_check, ends_redirect]
  split
  case isTrue => rfl
  case isFalse =>
    rw [if_pos rfl, ends_check, mv, ends_bind, ends_get]
    have hwritten : (w₁.put (stateTmp t (resolvePaths t o)) (some (.file text))).node
        (stateTmp t (resolvePaths t o)) = some (.file text) := by
      rw [node_of_ne_nil htmp, files_put, if_pos rfl]
    have hstateNode : (w₁.put (stateTmp t (resolvePaths t o)) (some (.file text))).node
        (resolvePaths t o).STATE_FILE = w₁.node (resolvePaths t o).STATE_FILE :=
      node_congr (if_neg hne.symm)
    rw [hwritten]
    dsimp only
    split
    case isTrue => rfl
    case isFalse =>
      refine ⟨fun q hq hqstate => ?_, fun hdir => ?_⟩
      · have htarget : q ≠ target (w₁.put (stateTmp t (resolvePaths t o)) (some (.file text)))
            (stateTmp t (resolvePaths t o)) (resolvePaths t o).STATE_FILE := by
          rw [target]
          split
          · rintro rfl
            refine hqstate (eq_of_administered_leads t o hmem hq ?_).symm
            exact (List.prefix_append _ _).trans (List.prefix_append _ _)
          · exact hqstate
        rw [files_put, if_neg htarget, files_put, if_neg (stateTmp_ne t o hq).symm, files_put,
          if_neg (stateTmp_ne t o hq).symm, hsame q hq]
      · rw [target, hstateNode, if_neg hdir, files_put, if_pos rfl]

end State

/-! ### The file and its record -/

section Installation

variable (t : Tools) (o : Options)

theorem exits_check {m : Shell Bool} (h : ExitsWith (fun _ => False) m) :
    ExitsWith (· = .failed) (check m) := by
  refine fun w => ends_check.mpr ((h w).mono (fun b w' _ => ?_) fun _ _ h => h.elim)
  cases b with
  | true => trivial
  | false => rfl

theorem exits_rm (path : Path) : ExitsWith (· = .failed) (check (rm path)) := by
  refine exits_check (ExitsWith.get.bind fun w => ?_)
  split
  · exact .pure _
  · exact .pure _
  · exact (ExitsWith.modify _).bind fun _ => .pure _

variable {t o} {p : Paths} {w : World} {path : Path}

theorem Managed.content (h : Managed t p w path) : ∃ content, w.content path = some content := by
  have hhash : hashAt t w path ≠ none := by
    rw [h.2]
    nofun
  refine Option.ne_none_iff_exists'.mp fun hnone => hhash ?_
  rw [hashAt, hnone]
  cases t.hashTool with
  | none => rfl
  | some tool => rfl

theorem Managed.node_ne_dir (h : Managed t p w path) : w.node path ≠ some .dir := by
  obtain ⟨content, hcontent⟩ := h.content
  rw [node_of_content hcontent]
  nofun

/-- The check of `install_managed`, without `--force`. -/
theorem ends_mayReplace (hforce : o.FORCE = false) {tmp : Path} (htmp : OfRender tmp) :
    Ends (mayReplace t o tmp path (recordOf t p w path)) w
      (fun _ w' => Same w w' ∧ (w.node path ≠ none → Managed t p w path))
      fun e w' => e.Refusal → w.node path ≠ none ∧ ¬Managed t p w path ∧ Alike w w' := by
  rw [mayReplace, ends_bind, ends_get]
  by_cases hnode : w.node path = none
  · rw [if_pos hnode]
    exact ⟨rfl, fun h => absurd hnode h⟩
  · rw [if_neg hnode, ends_bind]
    refine ends_subshell_sha256 t fun w₁ hsame => ?_
    cases hhash : hashAt t w path with
    | none => exact fun h => absurd h Exit.not_refusal_failed
    | some actual =>
      rw [orFail, ends_bind, ends_pure]
      have hmanaged : Managed t p w path ↔
          ¬(recordOf t p w path = [] ∨ actual ≠ recordOf t p w path) := by
        rw [Managed, hhash, Option.some.injEq, not_or, ne_eq, not_not]
      rw [hmanaged, hforce]
      split
      case isTrue hforeign =>
        rw [if_neg Bool.false_ne_true, ends_bind]
        refine ((keeps_check (keeps_rm htmp)).ends.and (exits_rm tmp w₁)).mono
          (fun _ w₂ h _ => ?_) fun e w₂ h hrefusal => ?_
        · exact ⟨hnode, not_not.mpr hforeign, IsTrans.trans _ _ _ hsame.alike h.1⟩
        · rw [h.2] at hrefusal
          exact absurd hrefusal Exit.not_refusal_failed
      case isFalse hforeign => exact ⟨hsame, fun _ => hforeign⟩

/-- The checksum that `install_managed` records. -/
def desiredHash (t : Tools) (o : Options) (p : Paths) (w : World) (template : Bytes) : Bytes :=
  match t.hashTool with
  | some tool => t.checksum tool ((t.mktemp w.files).getD []) (rendered t o p template)
  | none => []

/-- **What an installation has done** that has come to its end. -/
structure Installed (t : Tools) (o : Options) (source path : Path) (w w' : World) : Prop where
  managed : w.node path ≠ none → Managed t (resolvePaths t o) w path
  dry : o.DRY_RUN = true → Alike w w'
  frame : ∀ q ∈ (resolvePaths t o).administered, q ≠ path → q ≠ (resolvePaths t o).STATE_FILE →
    w'.files q = w.files q
  written : o.DRY_RUN = false → ∃ template, w.content source = some template ∧
    w'.files path = some (.file (rendered t o (resolvePaths t o) template)) ∧
    (w.node (resolvePaths t o).STATE_FILE ≠ some .dir →
      w'.files (resolvePaths t o).STATE_FILE = some (.file (newState t (resolvePaths t o) w path
        (desiredHash t o (resolvePaths t o) w template))))

/-- **What `install_managed` does**: it touches nothing where it refuses. -/
theorem ends_installManaged (hforce : o.FORCE = false) {source : Path}
    (hsource : ¬RenderName source) (hpath : path ∈ (resolvePaths t o).administered)
    (hpathState : path ≠ (resolvePaths t o).STATE_FILE) (w : World) :
    Ends (installManaged t o (resolvePaths t o) source path) w
      (fun _ w' => Installed t o source path w w')
      fun e w' => e.Refusal → w.node path ≠ none ∧ ¬Managed t (resolvePaths t o) w path ∧
        Alike w w' := by
  have hstate : (resolvePaths t o).STATE_FILE ∈ (resolvePaths t o).administered := by
    simp [Paths.administered]
  have hname := fun q hq => not_renderName_administered t o (q := q) hq
  generalize hp : resolvePaths t o = p at hpath hpathState hstate hname
  rw [installManaged, ends_bind, ends_subshell]
  refine (ends_render t o p hsource w).mono (fun tmp w₁ h => ?_)
    fun _ _ _ h => absurd h Exit.not_refusal_failed
  obtain ⟨halike, hof, htmp, hmade⟩ := h
  rw [ends_bind, orFail, ends_pure, ends_bind]
  refine ends_subshell_sha256 t fun w₂ hsame => ?_
  rw [ends_bind, ends_stateHash, ends_bind]
  have halike₂ : Alike w w₂ := IsTrans.trans _ _ _ halike hsame.alike
  have hmanaged := halike₂.managed (t := t) (hname _ hstate) (hname _ hpath)
  have hnode := halike₂.node (hname _ hpath)
  refine (ends_mayReplace (p := p) hforce hof).mono (fun _ w₃ h => ?_)
    fun e w₃ h hrefusal => ?_
  · obtain ⟨hsame', hallowed⟩ := h
    rw [hnode, hmanaged] at hallowed
    have halike₃ : Alike w w₃ := IsTrans.trans _ _ _ halike₂ hsame'.alike
    cases hdry : o.DRY_RUN with
    | true =>
      rw [if_pos rfl, ends_bind, ends_log]
      refine ((keeps_check (keeps_rm hof)).ends.and (exits_rm tmp _)).mono (fun _ w₄ h => ?_)
        fun e w₄ h hrefusal => ?_
      · have halike₄ : Alike w w₄ := IsTrans.trans _ _ _ halike₃ h.1
        exact ⟨hp ▸ hallowed, fun _ => halike₄, fun q hq _ _ => halike₄ q (hname q (hp ▸ hq)),
          fun h => absurd (hdry.symm.trans h) (by rintro ⟨⟩)⟩
      · rw [h.2] at hrefusal
        exact absurd hrefusal Exit.not_refusal_failed
    | false =>
      rw [if_neg Bool.false_ne_true, ends_bind]
      refine (ends_mkdirP _).mono (fun _ w₄ h₄ => ?_) fun e w₄ he hrefusal =>
        absurd (he ▸ hrefusal) Exit.not_refusal_failed
      have hsame₄ : ∀ q ∈ p.administered, w₄.files q = w.files q := by
        intro q hq
        rw [h₄ q (Or.inl ?_), halike₃ q (hname q hq)]
        rw [← hp] at hq hpath
        exact not_mem_dirname t o hq hpath
      have hdir : w₄.node path ≠ some .dir := by
        rw [node_congr (hsame₄ path hpath)]
        by_cases hnone : w.node path = none
        · rw [hnone]
          rintro ⟨⟩
        · exact (hallowed hnone).node_ne_dir
      rw [ends_bind]
      refine (ends_install0644 hdir).mono (fun _ w₅ h₅ => ?_) fun e w₅ he hrefusal =>
        absurd (he ▸ hrefusal) Exit.not_refusal_failed
      obtain ⟨content, hcontent, h₅⟩ := h₅
      rw [ends_bind]
      refine ((keeps_check (keeps_rm hof)).ends.and (exits_rm tmp w₅)).mono (fun _ w₆ h₆ => ?_)
        fun e w₆ h hrefusal => ?_
      · have hsame₆ : ∀ q ∈ p.administered, w₆.files q =
            if q = path then some (.file content) else w.files q := by
          intro q hq
          rw [h₆.1 q (hname q hq), h₅, files_put, hsame₄ q hq]
        have hne : tmp ≠ [] := by
          rintro rfl
          cases hcontent
        obtain ⟨template, htemplate, hnodeTmp⟩ := hmade hne
        have htmp₄ : w₄.node tmp = some (.file (rendered t o p template)) := by
          have htmp₃ : w₃.node tmp = some (.file (rendered t o p template)) := by
            rw [hsame'.node, hsame.node, hnodeTmp]
          rw [node_congr (h₄ tmp (Or.inr (by rw [htmp₃]; rintro ⟨⟩))), htmp₃]
        obtain rfl : content = rendered t o p template := by
          rw [World.content, htmp₄] at hcontent
          exact (Option.some.inj hcontent).symm
        have hdesired : (hashAt t w₁ tmp).getD [] = desiredHash t o p w template := by
          rw [hashAt, desiredHash, ← htmp, World.content, hnodeTmp]
          cases t.hashTool with
          | none => rfl
          | some tool => rfl
        have hstate₆ : w₆.files p.STATE_FILE = w.files p.STATE_FILE := by
          rw [hsame₆ _ hstate, if_neg hpathState.symm]
        have hnew : newState t p w₆ path (desiredHash t o p w template) =
            newState t p w path (desiredHash t o p w template) := by
          rw [newState, newState, content_congr hstate₆]
        rw [hdesired]
        have hwrite := ends_writeState t o path (desiredHash t o p w template) w₆
        rw [hp, hnew, node_congr hstate₆] at hwrite
        refine hwrite.mono (fun _ w₇ h₇ => ?_) fun e w₇ he hrefusal =>
          absurd (he ▸ hrefusal) Exit.not_refusal_failed
        refine ⟨hp ▸ hallowed, fun h => absurd (hdry.symm.trans h) (by rintro ⟨⟩),
          fun q hq hqpath hqstate => ?_, fun _ => ⟨template, htemplate, ?_, hp ▸ h₇.2⟩⟩
        · rw [hp] at hq hqstate
          rw [h₇.1 q hq hqstate, hsame₆ q hq, if_neg hqpath]
        · rw [hp, h₇.1 path hpath hpathState, hsame₆ path hpath, if_pos rfl]
      · rw [h.2] at hrefusal
        exact absurd hrefusal Exit.not_refusal_failed
  · obtain ⟨hne, hnot, hrest⟩ := h hrefusal
    rw [hnode] at hne
    rw [hmanaged] at hnot
    exact ⟨hne, hnot, IsTrans.trans _ _ _ halike₂ hrest⟩

end Installation

end Setup

end Mochad
