import Mochad.Core.Drain

/-!
# The process

`mydaemon` as a whole: libusb is initialised, the controller is opened, its endpoints
are found, the transfers are allocated; then the daemon runs (`Daemon.step`); and
whatever ends it leads to the cleanup, at the label `out_deinit`, or at `out` if there
is no controller to release.

One variable, `r`, holds the result of the step that failed, and then those of the
cleanup calls, and its absolute value is returned. So a cleanup call that succeeds hides
the failure before it (`Process.status_ne_zero_iff`).
-/

namespace Mochad

/-- A startup step that can fail after `libusb_init`. -/
inductive StartupStep
  | controller
  | endpoints
  | transfers
  | pollfds
  | listeners
  deriving DecidableEq

/-- Why the daemon stops. -/
inductive Reason
  /-- A startup step failed. -/
  | failed (step : StartupStep)
  /-- The main loop ended, with this `Do_exit`. -/
  | loop (doExit : ℕ)
  deriving DecidableEq

/-- The daemon stops because of a failure. -/
def Reason.isFailure : Reason → Bool
  | .failed _ => true
  | .loop doExit => doExit = 2

/-- **What the cleanup works on**: the transfers, `r`, and `Reattach`. -/
structure Cleanup where
  io : Transfers
  r : ℤ
  reattach : Bool
  reason : Reason

/-- **Where the process is.** -/
inductive Process
  /-- Before `libusb_init`. -/
  | starting
  /-- Before `find_cm15a`. -/
  | finding
  /-- Before `get_endpoint_address`. -/
  | opened (reattach : Bool)
  /-- Before `alloc_transfers`; `do_init` does nothing. -/
  | allocating (reattach : Bool)
  /-- From `start_transfers` to the end of the drain; the `Do_exit` with which the main loop
  ended, if it has. -/
  | running (reattach : Bool) (loopEnd : Option ℕ) (d : Daemon)
  /-- At `out_deinit`. -/
  | deinit (c : Cleanup)
  /-- Before `libusb_release_interface`. -/
  | releasing (c : Cleanup)
  /-- Before `libusb_attach_kernel_driver`. -/
  | reattaching (c : Cleanup)
  /-- At `out`, before `libusb_close`; the results of the cleanup calls, the last first. -/
  | out (c : Cleanup) (results : List ℤ)
  /-- `mydaemon` has returned this, or without a cleanup if libusb could not be used. -/
  | returned (ending : Option (Cleanup × List ℤ)) (status : ℤ)

/-- What the system answers. -/
inductive ProcessLabel
  | libusbInit (r : ℤ)
  /-- `find_cm15a`: whether the controller could be opened, and whether a kernel driver was
  detached. -/
  | findCm15a (r : ℤ) (opened reattach : Bool)
  | getEndpointAddress (r : ℤ)
  /-- `alloc_transfers`: which of the two there is memory for. -/
  | allocTransfers (input output : Bool)
  | daemon (label : Label)
  /-- `initialize_usb_pollfds` fails. -/
  | initializeUsbPollfdsFailed (r : ℤ)
  /-- The listeners are closed, and the transfers freed. -/
  | freeTransfers
  | releaseInterface (r : ℤ)
  | attachKernelDriver (r : ℤ)
  /-- `libusb_close` and `libusb_exit`. -/
  | close

namespace Transfers

/-- Before `alloc_transfers`. -/
def unallocated (devh : Bool) : Transfers :=
  { initial with devh := devh, intrInTransfer := false, intrOutTransfer := false }

/-- `free_transfer_if_inactive`, for both. -/
def freeTransfersIfInactive (t : Transfers) : Transfers :=
  { t with
    intrInTransfer := t.intrInTransfer && t.inActive
    intrOutTransfer := t.intrOutTransfer && t.outActive }

end Transfers

namespace Process

section

variable (env : Env)

/-- `ENOMEM`, negated. -/
def enomem : ℤ := -12

/-- `libusb_init`. -/
def doLibusbInit (r : ℤ) : Process := if r < 0 then .returned none 1 else .finding

/-- `find_cm15a`. -/
def doFindCm15a (r : ℤ) (found reattach : Bool) : Process :=
  if r < 0 then .out ⟨.unallocated found, r, reattach, .failed .controller⟩ [] else .opened reattach

/-- `get_endpoint_address`. -/
def doGetEndpointAddress (reattach : Bool) (r : ℤ) : Process :=
  if r < 0 then .deinit ⟨.unallocated true, r, reattach, .failed .endpoints⟩ else .allocating reattach

/-- `alloc_transfers`, which frees the first transfer if it cannot have the second. -/
def doAllocTransfers (reattach input output : Bool) : Process :=
  if input && output then .running reattach none (.initial env)
  else .deinit ⟨.unallocated true, enomem, reattach, .failed .transfers⟩

/-- What `r` is when the daemon stops, and why it does. -/
def ended (d d' : Daemon) (loopEnd : Option ℕ) : ℤ × Reason :=
  match d.pc with
  | .allocated => ((d.usb.io.startTransfers env).2, .failed .transfers)
  -- `r` is the result of `initialize_usb_pollfds`
  | .initialised => (0, .failed .listeners)
  | _ => (if d'.usb.io.doExit = 1 then 0 else 1, .loop (loopEnd.getD d'.usb.io.doExit))

/-- A step of the daemon. -/
def doDaemon (reattach : Bool) (loopEnd : Option ℕ) (d : Daemon) (label : Label) :
    Option Process :=
  (d.step env label).map fun d' =>
    match d'.pc with
    | .stopped =>
        .deinit ⟨d'.usb.io, (ended env d d' loopEnd).1, reattach, (ended env d d' loopEnd).2⟩
    | .cancelOut => .running reattach (some (loopEnd.getD d'.usb.io.doExit)) d'
    | _ => .running reattach loopEnd d'

/-- `initialize_usb_pollfds` fails, after `start_transfers`. -/
def doInitializeUsbPollfdsFailed (reattach : Bool) (d : Daemon) (r : ℤ) : Option Process :=
  match d.pc with
  | .transferring =>
      if r < 0 then some (.deinit ⟨d.usb.io, r, reattach, .failed .pollfds⟩) else none
  | _ => none

/-- The part of the cleanup that frees. -/
def doFreeTransfers (c : Cleanup) : Process :=
  let c := { c with io := c.io.freeTransfersIfInactive }
  if c.io.devh then .releasing c else .out c []

/-- `libusb_release_interface`, whose result becomes `r`. -/
def doReleaseInterface (c : Cleanup) (r : ℤ) : Process :=
  let c := { c with r := r }
  if c.reattach then .reattaching c else .out c [r]

/-- `libusb_attach_kernel_driver`, whose result becomes `r`. -/
def doAttachKernelDriver (c : Cleanup) (r : ℤ) : Process := .out { c with r := r } [r, c.r]

/-- **One step of the process.** -/
def step (p : Process) : ProcessLabel → Option Process
  | .libusbInit r => match p with
    | .starting => some (doLibusbInit r)
    | _ => none
  | .findCm15a r found reattach => match p with
    | .finding => if 0 ≤ r && !found then none else some (doFindCm15a r found reattach)
    | _ => none
  | .getEndpointAddress r => match p with
    | .opened reattach => some (doGetEndpointAddress reattach r)
    | _ => none
  | .allocTransfers input output => match p with
    | .allocating reattach => some (doAllocTransfers env reattach input output)
    | _ => none
  | .daemon label => match p with
    | .running reattach loopEnd d => doDaemon env reattach loopEnd d label
    | _ => none
  | .initializeUsbPollfdsFailed r => match p with
    | .running reattach _ d => doInitializeUsbPollfdsFailed reattach d r
    | _ => none
  | .freeTransfers => match p with
    | .deinit c => some (doFreeTransfers c)
    | _ => none
  | .releaseInterface r => match p with
    | .releasing c => some (doReleaseInterface c r)
    | _ => none
  | .attachKernelDriver r => match p with
    | .reattaching c => some (doAttachKernelDriver c r)
    | _ => none
  | .close => match p with
    | .out c results => some (.returned (some (c, results)) |c.r|)
    | _ => none

/-- **A run of `mydaemon`.** -/
def Reachable (p : Process) : Prop :=
  Transition.Run (step env) Transition.Free .starting p

end

variable {env : Env} {p p' : Process} {label : ProcessLabel}

/-! ### The exit status -/

/-- What the cleanup has made of `r`: it is the result of the last cleanup call, unless the
controller was not found. -/
def Overwritten (c : Cleanup) (results : List ℤ) : Prop :=
  (c.reason = .failed .controller ∧ c.r < 0 ∧ results = []) ∨
    (c.reason ≠ .failed .controller ∧ results.head? = some c.r)

/-- **What is known of `r`** on the way to the end. -/
def Accounted (env : Env) : Process → Prop
  | .running _ _ d => d.Reachable env
  | .deinit c => c.io.devh = true ∧ c.reason ≠ .failed .controller
  | .releasing c => c.reason ≠ .failed .controller
  | .reattaching c => c.reason ≠ .failed .controller
  | .out c results => Overwritten c results
  | .returned (some (c, results)) status => status = |c.r| ∧ Overwritten c results
  | _ => True

/-- Whatever stops the daemon, the controller was found. -/
theorem ended_reason (d d' : Daemon) (loopEnd : Option ℕ) :
    (ended env d d' loopEnd).2 ≠ .failed .controller := by
  rw [ended]
  split
  · simp
  · simp
  · simp

/-- A step of the daemon leads to the cleanup, or on. -/
theorem doDaemon_cases {reattach : Bool} {loopEnd : Option ℕ} {d : Daemon} {label : Label}
    (h : doDaemon env reattach loopEnd d label = some p') :
    ∃ d', d.step env label = some d' ∧
      ((d'.pc = .stopped ∧ p' = .deinit ⟨d'.usb.io, (ended env d d' loopEnd).1, reattach,
          (ended env d d' loopEnd).2⟩) ∨
        (d'.pc ≠ .stopped ∧ ∃ loopEnd', p' = .running reattach loopEnd' d')) := by
  obtain ⟨d', hd', rfl⟩ := Option.map_eq_some_iff.mp h
  refine ⟨d', hd', ?_⟩
  split
  next hpc => exact Or.inl ⟨hpc, rfl⟩
  next hpc => exact Or.inr ⟨by simp [hpc], _, rfl⟩
  next hpc _ => exact Or.inr ⟨hpc, _, rfl⟩

/-- **Every step of the process.** -/
theorem Accounted.step (h : p.Accounted env) (hs : p.step env label = some p') :
    p'.Accounted env := by
  cases label with
  | libusbInit r =>
    simp only [Process.step] at hs
    split at hs
    · obtain rfl := Option.some.inj hs
      rw [doLibusbInit]
      split
      · trivial
      · trivial
    · cases hs
  | findCm15a r found reattach =>
    simp only [Process.step] at hs
    split at hs
    · split at hs
      · cases hs
      · obtain rfl := Option.some.inj hs
        rw [doFindCm15a]
        split
        next hneg => exact Or.inl ⟨rfl, hneg, rfl⟩
        · trivial
    · cases hs
  | getEndpointAddress r =>
    simp only [Process.step] at hs
    split at hs
    · obtain rfl := Option.some.inj hs
      rw [doGetEndpointAddress]
      split
      · exact ⟨rfl, by simp⟩
      · trivial
    · cases hs
  | allocTransfers input output =>
    simp only [Process.step] at hs
    split at hs
    · obtain rfl := Option.some.inj hs
      rw [doAllocTransfers]
      split
      · exact Relation.ReflTransGen.refl
      · exact ⟨rfl, by simp⟩
    · cases hs
  | daemon label =>
    simp only [Process.step] at hs
    split at hs
    · obtain ⟨d', hd', ⟨_, rfl⟩ | ⟨_, _, rfl⟩⟩ := doDaemon_cases hs
      · have hrun : d'.Reachable env := Relation.ReflTransGen.tail h ⟨label, trivial, hd'⟩
        exact ⟨congrArg Prod.fst (Daemon.Reachable.held hrun), ended_reason _ _ _⟩
      · exact Relation.ReflTransGen.tail h ⟨label, trivial, hd'⟩
    · cases hs
  | initializeUsbPollfdsFailed r =>
    simp only [Process.step, doInitializeUsbPollfdsFailed] at hs
    split at hs
    · split at hs
      · split at hs
        · obtain rfl := Option.some.inj hs
          exact ⟨congrArg Prod.fst (Daemon.Reachable.held h), by simp⟩
        · cases hs
      · cases hs
    · cases hs
  | freeTransfers =>
    simp only [Process.step] at hs
    split at hs
    · obtain rfl := Option.some.inj hs
      simp only [doFreeTransfers]
      split
      · exact h.2
      next hdev => exact absurd h.1 hdev
    · cases hs
  | releaseInterface r =>
    simp only [Process.step] at hs
    split at hs
    · obtain rfl := Option.some.inj hs
      simp only [doReleaseInterface]
      split
      · exact h
      · exact Or.inr ⟨h, rfl⟩
    · cases hs
  | attachKernelDriver r =>
    simp only [Process.step] at hs
    split at hs
    · obtain rfl := Option.some.inj hs
      exact Or.inr ⟨h, rfl⟩
    · cases hs
  | close =>
    simp only [Process.step] at hs
    split at hs
    · obtain rfl := Option.some.inj hs
      exact ⟨rfl, h⟩
    · cases hs

/-- **After a failure the exit status is not zero exactly if the controller was not found, or
the last cleanup call failed too.** -/
theorem status_ne_zero_iff {c : Cleanup} {results : List ℤ} {status : ℤ}
    (h : Reachable env (.returned (some (c, results)) status)) (_hf : c.reason.isFailure = true) :
    status ≠ 0 ↔ c.reason = .failed .controller ∨ ∃ r, results.head? = some r ∧ r ≠ 0 := by
  have hacc : (Process.returned (some (c, results)) status).Accounted env :=
    Transition.Run.invariant h trivial fun _ _ _ hi _ hs => hi.step hs
  obtain ⟨rfl, hover⟩ := hacc
  rcases hover with ⟨hreason, hneg, _⟩ | ⟨hreason, hhead⟩
  · exact iff_of_true (abs_ne_zero.mpr hneg.ne) (Or.inl hreason)
  · rw [abs_ne_zero]
    constructor
    · exact fun hr => Or.inr ⟨c.r, hhead, hr⟩
    · rintro (hcontroller | ⟨r, hr, hne⟩)
      · exact absurd hcontroller hreason
      · rw [hhead] at hr
        obtain rfl := Option.some.inj hr
        exact hne

/-- Startup, up to `start_transfers`. -/
def startup : List ProcessLabel :=
  [.libusbInit 0, .findCm15a 0 true false, .getEndpointAddress 0, .allocTransfers true true,
    .daemon .startTransfers]

/-- The descriptors of libusb cannot be had, and the interface cannot be released. -/
theorem status_ne_zero_release : ∃ c : Cleanup, ∃ status : ℤ,
    Reachable (.plain mochadConfigDefaults false) (.returned (some (c, [-99])) status) ∧
      c.reason = .failed .pollfds ∧ status ≠ 0 := by
  have hreach : ∃ p, Reachable (.plain mochadConfigDefaults false) p ∧
      ∃ c, p = .returned (some (c, [-99])) 99 ∧ c.reason = .failed .pollfds :=
    Transition.exists_run_of_exec (startup ++ [.initializeUsbPollfdsFailed (-12), .freeTransfers,
      .releaseInterface (-99), .close]) ⟨_, rfl, _, rfl, rfl⟩
  obtain ⟨_, hrun, c, rfl, hreason⟩ := hreach
  have hf : c.reason.isFailure = true := by
    rw [hreason]
    rfl
  exact ⟨c, 99, hrun, hreason, (status_ne_zero_iff hrun hf).mpr (Or.inr ⟨-99, rfl, by decide⟩)⟩

/-- **A failure can end with the exit status 0**: the listener of the server cannot be created,
and the interface is released. -/
theorem failure_hidden : ¬ ∀ env c results status,
    Reachable env (.returned (some (c, results)) status) → c.reason.isFailure = true →
      status ≠ 0 := by
  have hreach : ∃ p, Reachable (.plain mochadConfigDefaults false) p ∧
      ∃ c, p = .returned (some (c, [0])) 0 ∧ c.reason = .failed .listeners :=
    Transition.exists_run_of_exec (startup ++ [.daemon .initcm1Xa,
      .daemon (.createListeners (-1) (-1) (-1)), .freeTransfers, .releaseInterface 0, .close])
      ⟨_, rfl, _, rfl, rfl⟩
  obtain ⟨_, hrun, c, rfl, hreason⟩ := hreach
  intro hall
  refine hall _ c [0] 0 hrun ?_ rfl
  rw [hreason]
  rfl

end Process

end Mochad
