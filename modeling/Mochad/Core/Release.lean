import Mochad.Core.Process

/-!
# Nothing is closed under a transfer

`libusb_close` may be called only when libusb holds no transfer any more, and when both
have been freed (`Transfers.Released`). The drain sees to that if its steps are orderly.
But a startup step that fails after `start_transfers` leads to the cleanup without a
drain, while the input transfer is under way (`Process.closed_under_transfer`).
-/

namespace Mochad

namespace Transfers

/-- **Neither transfer is active, libusb holds neither, and both have been freed.** -/
structure Released (t : Transfers) : Prop where
  inactive : Daemon.Inactive t
  inOwned : t.inOwned = false
  outOwned : t.outOwned = false
  inFreed : t.intrInTransfer = false
  outFreed : t.intrOutTransfer = false

theorem released_unallocated (devh : Bool) : (unallocated devh).Released :=
  ⟨⟨rfl, rfl⟩, rfl, rfl, rfl, rfl⟩

/-- libusb holds no transfer that is not active. -/
theorem Marked.not_owned {t : Transfers} (h : t.Marked) (hidle : Daemon.Inactive t) :
    t.inOwned = false ∧ t.outOwned = false := by
  constructor
  · by_contra ho
    have hactive := h.input (by simpa using ho)
    rw [hidle.1] at hactive
    cases hactive
  · by_contra ho
    have hactive := h.output (by simpa using ho)
    rw [hidle.2] at hactive
    cases hactive

/-- **A transfer that is not active is freed.** -/
theorem Marked.released {t : Transfers} (h : t.Marked) (hidle : Daemon.Inactive t) :
    t.freeTransfersIfInactive.Released := by
  obtain ⟨hin, hout⟩ := h.not_owned hidle
  refine ⟨hidle, hin, hout, ?_, ?_⟩
  · rw [freeTransfersIfInactive, hidle.1, Bool.and_false]
  · rw [freeTransfersIfInactive, hidle.2, Bool.and_false]

end Transfers

namespace Process

variable {env : Env} {p p' : Process} {label : ProcessLabel}

/-- **An orderly step**: nothing fails after `start_transfers`, and the daemon's own steps are
orderly. -/
def Orderly (env : Env) (p : Process) : ProcessLabel → Prop
  | .initializeUsbPollfdsFailed _ => False
  | .daemon label => match p with
    | .running _ _ d => d.Orderly env label
    | _ => True
  | _ => True

instance (env : Env) (p : Process) (label : ProcessLabel) : Decidable (Orderly env p label) := by
  delta Orderly
  rcases label with ⟨⟩
  case initializeUsbPollfdsFailed => exact instDecidableFalse
  case daemon label => rcases p with ⟨⟩ <;> dsimp only <;> infer_instance
  all_goals exact instDecidableTrue

/-- The drain does not end before the callbacks of the cancellations that were asked for. -/
def CallsBack (p : Process) : ProcessLabel → Prop
  | .daemon .drainTurn => match p with
    | .running _ _ d => match d.pc with
      | .drain 0 => Daemon.CalledBack d.usb.io
      | _ => True
    | _ => True
  | .daemon (.drained result) => match p with
    | .running _ _ d =>
        result < 0 ∧ result ≠ Daemon.libusbErrorInterrupted → Daemon.CalledBack d.usb.io
    | _ => True
  | _ => True

instance (p : Process) (label : ProcessLabel) : Decidable (CallsBack p label) := by
  delta CallsBack
  rcases label with ⟨⟩
  case daemon label =>
    rcases label with ⟨⟩
    case drainTurn =>
      rcases p with ⟨⟩
      case running _ _ d =>
        dsimp only
        rcases d.pc with ⟨⟩
        case drain maxEvents =>
          rcases maxEvents with ⟨⟩
          · exact inferInstanceAs (Decidable (Daemon.CalledBack _))
          · exact instDecidableTrue
        all_goals exact instDecidableTrue
      all_goals exact instDecidableTrue
    case drained result => rcases p with ⟨⟩ <;> dsimp only <;> infer_instance
    all_goals exact instDecidableTrue
  all_goals exact instDecidableTrue

/-- **What is known of the transfers** on the way to the end. -/
def Quiescent (env : Env) : Process → Prop
  | .running _ _ d => d.Reachable env ∧ d.Tidy
  | .deinit c => c.io.Marked ∧ Daemon.Inactive c.io
  | .releasing c => c.io.Released
  | .reattaching c => c.io.Released
  | .out c _ => c.io.Released
  | _ => True

theorem tidy_initial (env : Env) : (Daemon.initial env).Tidy where
  marked := ⟨fun h => (nomatch h), fun h => (nomatch h)⟩
  fresh := fun _ => ⟨rfl, rfl⟩
  outAsked := fun h => (nomatch h)
  inAsked := fun h => (nomatch h)
  stopped := fun h => (nomatch h)

/-- What was never allocated is not active. -/
theorem quiescent_unallocated (devh : Bool) (r : ℤ) (reattach : Bool) (reason : Reason) :
    (Process.deinit ⟨.unallocated devh, r, reattach, reason⟩).Quiescent env :=
  ⟨⟨fun h => (nomatch h), fun h => (nomatch h)⟩, (Transfers.released_unallocated devh).inactive⟩

/-- **A step of the daemon.** -/
theorem Quiescent.daemon {reattach : Bool} {loopEnd : Option ℕ} {d : Daemon} {label : Label}
    (hrun : d.Reachable env) (htidy : d.Tidy) (hok : d.Orderly env label)
    (hs : doDaemon env reattach loopEnd d label = some p') : p'.Quiescent env := by
  obtain ⟨d', hd', hcase⟩ := doDaemon_cases hs
  have htidy' : d'.Tidy := htidy.step hrun hok hd'
  rcases hcase with ⟨hpc, rfl⟩ | ⟨_, _, rfl⟩
  · exact ⟨htidy'.marked, htidy'.stopped hpc⟩
  · exact ⟨Relation.ReflTransGen.tail hrun ⟨label, trivial, hd'⟩, htidy'⟩

/-- **Every orderly step of the process.** -/
theorem Quiescent.step (h : p.Quiescent env) (hok : p.Orderly env label)
    (hs : p.step env label = some p') : p'.Quiescent env := by
  cases label with
  | libusbInit r =>
    simp only [Process.step] at hs
    split at hs
    · obtain rfl := Option.some.inj hs
      rw [doLibusbInit]
      split
      · trivial
      · trivial
    · cases hs
  | findCm15a r found reattach =>
    simp only [Process.step] at hs
    split at hs
    · split at hs
      · cases hs
      · obtain rfl := Option.some.inj hs
        rw [doFindCm15a]
        split
        · exact Transfers.released_unallocated found
        · trivial
    · cases hs
  | getEndpointAddress r =>
    simp only [Process.step] at hs
    split at hs
    · obtain rfl := Option.some.inj hs
      rw [doGetEndpointAddress]
      split
      · exact quiescent_unallocated true r _ _
      · trivial
    · cases hs
  | allocTransfers input output =>
    simp only [Process.step] at hs
    split at hs
    · obtain rfl := Option.some.inj hs
      rw [doAllocTransfers]
      split
      · exact ⟨Relation.ReflTransGen.refl, tidy_initial env⟩
      · exact quiescent_unallocated true enomem _ _
    · cases hs
  | daemon label =>
    simp only [Process.step] at hs
    split at hs
    · exact Quiescent.daemon h.1 h.2 hok hs
    · cases hs
  | initializeUsbPollfdsFailed r => exact hok.elim
  | freeTransfers =>
    simp only [Process.step] at hs
    split at hs
    · obtain rfl := Option.some.inj hs
      have hreleased := Transfers.Marked.released h.1 h.2
      simp only [doFreeTransfers]
      split
      · exact hreleased
      · exact hreleased
    · cases hs
  | releaseInterface r =>
    simp only [Process.step] at hs
    split at hs
    · obtain rfl := Option.some.inj hs
      simp only [doReleaseInterface]
      split
      · exact h
      · exact h
    · cases hs
  | attachKernelDriver r =>
    simp only [Process.step] at hs
    split at hs
    · obtain rfl := Option.some.inj hs
      exact h
    · cases hs
  | close =>
    simp only [Process.step] at hs
    split at hs
    · obtain rfl := Option.some.inj hs
      trivial
    · cases hs

/-- **`libusb_close` is reached only when both transfers are inactive and freed**, in every run
whose steps are orderly. -/
theorem released_at_close {c : Cleanup} {results : List ℤ}
    (h : Transition.Run (step env) (Orderly env) .starting (.out c results)) : c.io.Released := by
  have hout : (Process.out c results).Quiescent env :=
    Transition.Run.invariant h trivial fun _ _ _ hi hok hs => hi.step hok hs
  exact hout

/-- A signal ends the main loop, both cancellations are taken, and both are called back. -/
theorem released_at_close_signal : ∃ c : Cleanup,
    Transition.Run (step (.plain mochadConfigDefaults false))
      (Orderly (.plain mochadConfigDefaults false)) .starting (.out c [0]) ∧
        c.reason = .loop 1 ∧ c.io.Released := by
  have hreach : ∃ p, Transition.Run (step (.plain mochadConfigDefaults false))
      (Orderly (.plain mochadConfigDefaults false)) .starting p ∧
        ∃ c, p = .out c [0] ∧ c.reason = .loop 1 :=
    Transition.exists_run_of_exec (startup ++ [.daemon .initcm1Xa,
      .daemon (.createListeners 3 4 5), .daemon .signal, .daemon (.layOut none),
      .daemon (.cancel 0), .daemon (.cancel 0), .daemon .drainTurn,
      .daemon (.intrIn .cancelled [] false), .daemon (.drained 0), .daemon .drainTurn,
      .freeTransfers, .releaseInterface 0]) ⟨_, rfl, _, rfl, rfl⟩
  obtain ⟨_, hrun, c, rfl, hreason⟩ := hreach
  exact ⟨c, hrun, hreason, released_at_close hrun⟩

/-- **The handle can be closed under a transfer**, although no callback is missing: the
descriptors of libusb cannot be had, and the input transfer has just been submitted. -/
theorem closed_under_transfer : ¬ ∀ env c results,
    Transition.Run (step env) CallsBack .starting (.out c results) → c.io.Released := by
  have hreach : ∃ p, Transition.Run (step (.plain mochadConfigDefaults false)) CallsBack .starting p ∧
      ∃ c, p = .out c [0] ∧ c.io.inOwned = true :=
    Transition.exists_run_of_exec (startup ++ [.initializeUsbPollfdsFailed (-12), .freeTransfers,
      .releaseInterface 0]) ⟨_, rfl, _, rfl, rfl⟩
  obtain ⟨_, hrun, c, rfl, howned⟩ := hreach
  intro hall
  have hfree := (hall _ c [0] hrun).inOwned
  rw [howned] at hfree
  cases hfree

end Process

end Mochad
