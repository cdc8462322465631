import Mochad.Setup.Effects

/-!
# Removing a managed file

`remove_managed` goes one of two ways. A file that is there is removed with its record, and a dry run
leaves both out. A file that is not there has its record dropped, and there a dry run makes no
difference (`ends_removeManaged`).

Dropping the records of a file copies the state file without them. The copy ends with a newline in
any case, so a state file is what its copy is if there are no such records and it ends with a
newline, and what one copy has changed another one does not bring back
(`otherRecords_eq_of_otherRecords`).
-/

namespace Mochad

namespace Setup

open Script

/-! ### Records -/

theorem not_mem_of_mem_awkRecords {text record : Bytes} (h : record ∈ awkRecords text) :
    0x0a ∉ record := by
  fun_induction awkRecords text generalizing record with
  | case1 => cases h
  | case2 rest ih =>
    rcases List.mem_cons.mp h with rfl | h
    · exact List.not_mem_nil
    · exact ih h
  | case3 b rest hb hrecords ih =>
    obtain rfl := List.mem_singleton.mp h
    exact fun hmem => hb (List.mem_singleton.mp hmem).symm
  | case4 b rest hb first records hrecords ih =>
    rw [hrecords] at ih
    rcases List.mem_cons.mp h with rfl | h
    · rintro (_ | ⟨_, hmem⟩)
      · exact hb rfl
      · exact ih List.mem_cons_self hmem
    · exact ih (List.mem_cons_of_mem _ h)

theorem awkRecords_append {record : Bytes} (h : 0x0a ∉ record) (text : Bytes) :
    awkRecords (record ++ 0x0a :: text) = record :: awkRecords text := by
  induction record with
  | nil => rw [List.nil_append, awkRecords, if_pos rfl]
  | cons b record ih =>
    have hb : b ≠ 0x0a := fun hb => h (hb ▸ List.mem_cons_self)
    rw [List.cons_append, awkRecords, if_neg hb, ih fun hmem => h (List.mem_cons_of_mem b hmem)]

/-- What is printed record by record is read as these records. -/
theorem awkRecords_flatMap {records : List Bytes} (h : ∀ r ∈ records, 0x0a ∉ r) :
    awkRecords (records.flatMap (· ++ [0x0a])) = records := by
  induction records with
  | nil => rfl
  | cons r records ih =>
    rw [List.forall_mem_cons] at h
    rw [List.flatMap_cons, List.append_assoc, List.singleton_append, awkRecords_append h.1, ih h.2]

/-- A text ends with a newline, if there is anything in it. -/
def Terminated (text : Bytes) : Prop := text = [] ∨ text.getLast? = some 0x0a

instance (text : Bytes) : Decidable (Terminated text) :=
  inferInstanceAs (Decidable (text = [] ∨ text.getLast? = some 0x0a))

theorem terminated_cons {b : UInt8} {text : Bytes} (h : text ≠ []) :
    Terminated (b :: text) ↔ Terminated text := by
  obtain ⟨b', text', rfl⟩ := List.exists_cons_of_ne_nil h
  rw [Terminated, Terminated, List.getLast?_cons_cons]
  simp

theorem terminated_flatMap (records : List Bytes) :
    Terminated (records.flatMap (· ++ [0x0a])) := by
  induction records with
  | nil => exact Or.inl rfl
  | cons r records ih =>
    rw [List.flatMap_cons]
    rcases ih with h | h
    · rw [h, List.append_nil]
      exact Or.inr List.getLast?_concat
    · refine Or.inr ?_
      rw [List.getLast?_append, h]
      rfl

/-- Reading the records and printing them gives a text back that ends with a newline. -/
theorem flatMap_awkRecords {text : Bytes} (h : Terminated text) :
    (awkRecords text).flatMap (· ++ [0x0a]) = text := by
  fun_induction awkRecords text with
  | case1 => rfl
  | case2 rest ih =>
    have hrest : Terminated rest := by
      by_cases hnil : rest = []
      · exact Or.inl hnil
      · exact (terminated_cons hnil).mp h
    rw [List.flatMap_cons, ih hrest]
    rfl
  | case3 b rest hb hrecords ih =>
    cases rest with
    | nil => exact absurd (Option.some.inj (h.resolve_left nofun)) hb
    | cons b' rest =>
      have htext := ih ((terminated_cons (List.cons_ne_nil b' rest)).mp h)
      rw [hrecords] at htext
      cases htext
  | case4 b rest hb first records hrecords ih =>
    have hne : rest ≠ [] := by
      rintro rfl
      cases hrecords
    have htext := ih ((terminated_cons hne).mp h)
    rw [hrecords, List.flatMap_cons] at htext
    rw [List.flatMap_cons, List.cons_append, List.cons_append, htext]

section Copies

variable (t : Tools) (target target' : Path) (text : Bytes)

theorem awkRecords_otherRecords : awkRecords (otherRecords t target text) =
    (awkRecords text).filter fun r => firstField r ≠ t.awkValue target :=
  awkRecords_flatMap fun _ hr => not_mem_of_mem_awkRecords (List.mem_of_mem_filter hr)

/-- **A copy is what it was**, exactly if there is nothing to drop, and no newline to add. -/
theorem otherRecords_eq_iff : otherRecords t target text = text ↔
    (∀ r ∈ awkRecords text, firstField r ≠ t.awkValue target) ∧ Terminated text := by
  constructor
  · intro h
    have hrecords := congrArg awkRecords h
    rw [awkRecords_otherRecords, List.filter_eq_self] at hrecords
    refine ⟨fun r hr => of_decide_eq_true (hrecords r hr), ?_⟩
    rw [← h]
    exact terminated_flatMap _
  · rintro ⟨hnone, hterminated⟩
    rw [otherRecords, List.filter_eq_self.mpr fun r hr => decide_eq_true (hnone r hr),
      flatMap_awkRecords hterminated]

variable {t target target' text}

/-- **Two copies change as much as the first of them**, if they change nothing. -/
theorem otherRecords_eq_of_otherRecords
    (h : otherRecords t target' (otherRecords t target text) = text) :
    otherRecords t target text = text := by
  have hrecords := congrArg awkRecords h
  rw [awkRecords_otherRecords, awkRecords_otherRecords] at hrecords
  refine (otherRecords_eq_iff t target text).mpr ⟨fun r hr => ?_, ?_⟩
  · rw [← hrecords] at hr
    exact of_decide_eq_true (List.mem_filter.mp (List.mem_of_mem_filter hr)).2
  · rw [← h]
    exact terminated_flatMap _

end Copies

/-! ### The state file -/

section State

variable (t : Tools) (p : Paths)

/-- `remove_state` can write the state file anew. -/
def StateWritable (w : World) : Prop :=
  w.content p.STATE_FILE ≠ none ∧ w.node (stateTmp t p) ≠ some .dir

/-- The files without the records of a name. -/
def dropped (w : World) (path : Path) : Files := fun q =>
  if q = p.STATE_FILE then
    (w.content p.STATE_FILE).map fun text => .file (otherRecords t path text)
  else if q = stateTmp t p then none
  else w.files q

variable {t p} {w : World}

theorem node_of_content {q : Path} {text : Bytes} (h : w.content q = some text) :
    w.node q = some (.file text) := by
  rw [World.content] at h
  split at h
  next content hnode => rw [hnode, Option.some.inj h]
  next => cases h

theorem ends_removeState (hstate : p.STATE_FILE ≠ []) (path : Path) :
    Ends (check (removeState t p path)) w
      (fun _ w' => StateWritable t p w ∧ w'.files = dropped t p w path)
      fun e w' => e = .failed ∧ ¬StateWritable t p w ∧ w' = w := by
  have htmp : stateTmp t p ≠ [] := List.append_ne_nil_of_left_ne_nil
    (List.append_ne_nil_of_left_ne_nil hstate _) _
  have hne : p.STATE_FILE ≠ stateTmp t p := by
    intro heq
    have hlength := congrArg List.length heq
    simp [stateTmp, ascii] at hlength
  rw [ends_check, removeState, ends_bind, ends_get]
  cases hcontent : w.content p.STATE_FILE with
  | none => exact ⟨rfl, fun h => h.1 hcontent, rfl⟩
  | some text =>
    dsimp only
    rw [ends_bind, ends_check, ends_redirect]
    by_cases hdir : w.node (stateTmp t p) = some .dir
    · rw [if_pos (Or.inr hdir)]
      exact ⟨rfl, fun h => h.2 hdir, rfl⟩
    · rw [if_neg (not_or.mpr ⟨htmp, hdir⟩)]
      have hnode := node_of_content hcontent
      have hkept : ∀ node, (w.put (stateTmp t p) node).node p.STATE_FILE = some (.file text) := by
        intro node
        rw [node_of_ne_nil hstate, files_put, if_neg hne, ← node_of_ne_nil hstate, hnode]
      have hwritten : ∀ node, (w.put (stateTmp t p) node).node (stateTmp t p) = node := by
        intro node
        rw [node_of_ne_nil htmp, files_put, if_pos rfl]
      rw [if_pos rfl, ends_bind, ends_check, mv, ends_bind, ends_get, target, hkept, hwritten,
        if_neg (by rintro ⟨⟩)]
      dsimp only
      rw [if_neg (not_or.mpr ⟨hne, by rw [hkept]; rintro ⟨⟩⟩)]
      refine ⟨⟨by rw [hcontent]; rintro ⟨⟩, hdir⟩, funext fun q => ?_⟩
      rw [files_put, files_put, files_put, dropped, hcontent]
      by_cases hq : q = p.STATE_FILE
      · rw [if_pos hq, if_pos hq]
        rfl
      · rw [if_neg hq, if_neg hq]
        by_cases hq' : q = stateTmp t p
        · rw [if_pos hq', if_pos hq']
        · rw [if_neg hq', if_neg hq', if_neg hq']

end State

/-! ### Permission -/

/-- The script refuses: what stands under a name is not its own, or it lacks `--force`. -/
def Exit.Refusal (e : Exit) : Prop :=
  ∃ message, e = .died message ∧
    (ascii "refusing to " <+: message ∨ message = ascii "purge requires --force")

theorem Exit.not_refusal_failed : ¬Exit.Refusal .failed := by
  rintro ⟨message, h, -⟩
  cases h

section Permission

variable (t : Tools) (o : Options) (p : Paths)

/-- What stands under a name may be touched. -/
def Allowed (w : World) (path : Path) : Prop :=
  hashAt t w path ≠ none ∧ (o.FORCE = true ∨ Managed t p w path)

variable {t o p} {w : World}

theorem ends_mayRemove (path : Path) :
    Ends (mayRemove t o path (recordOf t p w path)) w
      (fun _ w' => Same w w' ∧ Allowed t o p w path)
      fun e w' => Same w w' ∧ ¬Allowed t o p w path ∧ (e.Refusal → ¬Managed t p w path) := by
  rw [mayRemove, ends_bind]
  refine ends_subshell_sha256 t fun w' hsame => ?_
  cases hhash : hashAt t w path with
  | none =>
    exact ⟨hsame, fun h => h.1 hhash, fun h => absurd h Exit.not_refusal_failed⟩
  | some actual =>
    rw [orFail, ends_bind, ends_pure]
    have hmanaged : Managed t p w path ↔
        ¬(recordOf t p w path = [] ∨ actual ≠ recordOf t p w path) := by
      rw [Managed, hhash, Option.some.injEq, not_or, ne_eq, not_not]
    have hallowed : Allowed t o p w path ↔ (o.FORCE = true ∨ Managed t p w path) := by
      rw [Allowed, hhash]
      exact and_iff_right (by rintro ⟨⟩)
    rw [hallowed, hmanaged]
    split
    case isTrue hforeign =>
      split
      case isTrue hforce => exact ⟨hsame, Or.inl hforce⟩
      case isFalse hforce =>
        exact ⟨hsame, not_or.mpr ⟨hforce, not_not.mpr hforeign⟩, fun _ => not_not.mpr hforeign⟩
    case isFalse hforeign => exact ⟨hsame, Or.inr hforeign⟩

end Permission

/-! ### The file and its record -/

section Removal

variable (t : Tools) (o : Options) (p : Paths)

/-- The removal of a file comes to its end. -/
def Proceeds (w : World) (path : Path) : Prop :=
  if w.node path = none then StateWritable t p w else Allowed t o p w path

/-- What a dry run makes of the files. -/
def dryLeft (w : World) (path : Path) : Files :=
  if w.node path = none then dropped t p w path else w.files

variable {t o p} {w : World}

/-- **What a removal has done** that has come to its end. -/
structure Removed (t : Tools) (o : Options) (p : Paths) (path : Path) (w w' : World) : Prop where
  proceeds : Proceeds t o p w path
  dry : w.node path = none ∨ o.DRY_RUN = true → w'.files = dryLeft t p w path
  gone : w.node path ≠ none → o.DRY_RUN = false → w'.files path = none
  frame : ∀ q, q ≠ path → q ≠ p.STATE_FILE → q ≠ stateTmp t p → w'.files q = w.files q

theorem dryLeft_apply {path q : Path} (hstate : q ≠ p.STATE_FILE) (htmp : q ≠ stateTmp t p) :
    dryLeft t p w path q = w.files q := by
  rw [dryLeft]
  split
  · rw [dropped, if_neg hstate, if_neg htmp]
  · rfl

/-- **What `remove_managed` does**: it touches nothing where it refuses, and it drops the record of a
file that is not there, also in a dry run. -/
theorem ends_removeManaged (hstate : p.STATE_FILE ≠ []) {path : Path}
    (hstatePath : p.STATE_FILE ≠ path) (htmpPath : stateTmp t p ≠ path) :
    Ends (removeManaged t o p path) w (fun _ w' => Removed t o p path w w')
      fun e w' => (o.DRY_RUN = true ∨ w.node path = none → ¬Proceeds t o p w path ∧ Same w w') ∧
        (e.Refusal → w.node path ≠ none ∧ ¬Managed t p w path ∧ Same w w') := by
  rw [removeManaged, ends_bind, ends_stateHash, ends_bind, ends_get]
  by_cases hnode : w.node path = none
  · rw [if_pos hnode]
    refine (ends_removeState hstate path).mono (fun _ w' h => ?_) fun e w' h => ?_
    · have hleft : w'.files = dryLeft t p w path := by rw [dryLeft, if_pos hnode, h.2]
      refine ⟨by rw [Proceeds, if_pos hnode]; exact h.1, fun _ => hleft,
        fun hne => absurd hnode hne, fun q _ hstate htmp => ?_⟩
      rw [hleft, dryLeft_apply hstate htmp]
    · obtain ⟨rfl, hnot, rfl⟩ := h
      rw [Proceeds, if_pos hnode]
      exact ⟨fun _ => ⟨hnot, rfl⟩, fun h => absurd h Exit.not_refusal_failed⟩
  · rw [if_neg hnode, ends_bind]
    refine (ends_mayRemove path).mono (fun _ w₁ h => ?_) fun e w' h => ?_
    · obtain ⟨hsame, hallowed⟩ := h
      have hproceeds : Proceeds t o p w path := by rwa [Proceeds, if_neg hnode]
      rw [ends_bind, run, ends_bind, ends_log]
      cases hdry : o.DRY_RUN with
      | true =>
        have hleft : w₁.files = dryLeft t p w path := by
          rw [dryLeft, if_neg hnode]
          exact hsame
        exact ⟨hproceeds, fun _ => hleft, fun _ h => absurd (hdry.symm.trans h) (by rintro ⟨⟩),
          fun q _ _ _ => congrFun hsame q⟩
      | false =>
        have hnot : ¬(o.DRY_RUN = true ∨ w.node path = none) := by
          rw [hdry]
          exact not_or.mpr ⟨by rintro ⟨⟩, hnode⟩
        rw [hdry] at hnot
        show Ends (check (rm path)) _ _ _
        rw [ends_check, rm, ends_bind, ends_get, node_print]
        have hnode₁ : w₁.node path = w.node path := by rw [World.node, World.node, hsame]
        rw [hnode₁]
        cases hthere : w.node path with
        | none => exact absurd hthere hnode
        | some node =>
          rw [hthere] at hnot
          cases node with
          | dir =>
            exact ⟨fun h => absurd h hnot, fun h => absurd h Exit.not_refusal_failed⟩
          | file content =>
            show Ends (check (removeState t p path)) _ _ _
            refine (ends_removeState hstate path).mono (fun _ w' h => ?_) fun e w' h => ?_
            · refine ⟨hproceeds, fun h => absurd h.symm ?_, fun _ _ => ?_, fun q hq hs ht => ?_⟩
              · rw [hthere, hdry]
                exact hnot
              · rw [h.2, dropped, if_neg hstatePath.symm, if_neg htmpPath.symm, files_put,
                  if_pos rfl]
              · rw [h.2, dropped, if_neg hs, if_neg ht, files_put, if_neg hq]
                exact congrFun hsame q
            · obtain ⟨rfl, -, -⟩ := h
              exact ⟨fun h => absurd h hnot, fun h => absurd h Exit.not_refusal_failed⟩
    · rw [Proceeds, if_neg hnode]
      exact ⟨fun _ => ⟨h.2.1, h.1⟩, fun hrefusal => ⟨hnode, h.2.2 hrefusal, h.1⟩⟩

end Removal

end Setup

end Mochad
