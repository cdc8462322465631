import Mochad.Core.Shutdown

/-!
# Both transfers end

A transfer that libusb holds is marked active (`Transfers.Marked`), and stays so until its
callback, or until libusb says that it does not know it. So when the drain has seen the
callbacks that were asked for, neither transfer is active and libusb holds neither, if
every step was orderly (`Daemon.Orderly`): no cancellation failed, and no callback
submitted anything.
-/

namespace Mochad

namespace Transfers

/-- The flags of both transfers, whether libusb holds them, and what is allocated. -/
def core (t : Transfers) : (Bool × Bool × Bool) × (Bool × Bool × Bool) × (Bool × Bool × Bool) :=
  (t.held, (t.inOwned, t.intrInSubmitted, t.intrInCanceling),
    (t.outOwned, t.intrOutSubmitted, t.intrOutCanceling))

/-- **A property of the transfers that their owners keep**: it is about the flags, and
submitting and ending a transfer keep it. -/
structure Stable (env : Env) (P : Transfers → Prop) : Prop where
  frame : ∀ t t', P t → t'.core = t.core → P t'
  write : ∀ t buf, P t → P (t.writeUsb env buf).1
  outDone : ∀ t, P t → P { t with
    outOwned := false, intrOutSubmitted := false, intrOutCanceling := false }
  inDone : ∀ t, P t → P { t with
    inOwned := false, intrInSubmitted := false, intrInCanceling := false }
  inSubmit : ∀ t b, P t → P { t with
    inOwned := true, intrInSubmitted := true, intrInCanceling := b }

variable {env : Env} {P : Transfers → Prop} {u : Usb} {t : Transfers}

theorem Stable.maybeFinish (h : Stable env P) (hu : P u.io) :
    P (u.maybeFinishX10Transmit env).io :=
  Usb.maybeFinish_keeps h.write (fun t ht => h.frame t t.spent ht rfl) hu

theorem Stable.intrOutCb (h : Stable env P) (hu : P u.io) (status : TransferStatus) :
    P (u.intrOutCb env status).io := by
  have hdone := h.outDone _ hu
  cases status with
  | completed => exact h.maybeFinish (h.frame _ _ hdone rfl)
  | cancelled | error | timedOut | stall | noDevice | overflow => exact h.frame _ _ hdone rfl

theorem Stable.intrInBegin (h : Stable env P) (hu : P u.io) (status : TransferStatus)
    (data : Bytes) : P (u.intrInBegin env status data).io := by
  have hdone := h.inDone _ hu
  cases status with
  | completed =>
    simp only [Usb.intrInBegin]
    split
    · exact h.maybeFinish (h.frame _ _ hdone rfl)
    split
    · exact h.frame _ _ hdone rfl
    · exact h.frame _ _ hdone rfl
  | cancelled | error | timedOut | stall | noDevice | overflow => exact h.frame _ _ hdone rfl

theorem Stable.intrInEnd (h : Stable env P) (hu : P u.io) (signal : Bool) :
    P (u.intrInEnd env signal).io := by
  rcases Usb.intrInEnd_cases env u signal with ⟨n, calls, hs, _, _, heq⟩ | ⟨_, _, heq⟩
  · rw [heq]
    exact h.frame _ _ hu rfl
  · rw [heq]
    exact h.frame _ _ (h.inSubmit _ u.io.intrInCanceling hu) rfl

theorem Stable.startTransfers (h : Stable env P) (ht : P t) : P (t.startTransfers env).1 := by
  by_cases hsub : t.intrInSubmitted = true
  · simpa [Transfers.startTransfers, hsub] using ht
  · by_cases hr : env.submitIn t.submitInCalls < 0
    · refine h.frame t _ ht ?_
      simp [Transfers.startTransfers, Transfers.submitIn, hsub, hr, core, held]
    · refine h.frame _ _ (h.inSubmit t false ht) ?_
      simp [Transfers.startTransfers, Transfers.submitIn, hsub, hr, core, held]

/-- What is allocated stays so. -/
theorem stable_held (env : Env) (k : Bool × Bool × Bool) : Stable env fun t => t.held = k where
  frame := fun _ _ ht hcore => (congrArg Prod.fst hcore).trans ht
  write := fun t buf ht => (writeUsb_held env t buf).trans ht
  outDone := fun _ ht => ht
  inDone := fun _ ht => ht
  inSubmit := fun _ _ ht => ht

/-- **A transfer that libusb holds stays marked.** -/
theorem stable_marked (env : Env) : Stable env Marked where
  frame := fun t t' ht hcore => by
    simp only [core, Prod.mk.injEq] at hcore
    obtain ⟨_, ⟨hin, his, hic⟩, hout, hos, hoc⟩ := hcore
    refine ⟨fun ho => ?_, fun ho => ?_⟩
    · rw [inActive, his, hic]
      exact ht.input (hin ▸ ho)
    · rw [outActive, hos, hoc]
      exact ht.output (hout ▸ ho)
  write := fun _ buf ht => ht.writeUsb buf
  outDone := fun _ ht => ⟨ht.input, fun ho => (nomatch ho)⟩
  inDone := fun _ ht => ⟨fun ho => (nomatch ho), ht.output⟩
  inSubmit := fun _ _ ht => ⟨fun _ => rfl, ht.output⟩

end Transfers

namespace Daemon

variable {env : Env} {d d' : Daemon} {label : Label}

/-- **What the transfers' owners keep, every step keeps**, if cancelling does. -/
theorem stable_step {P : Transfers → Prop} (h : Transfers.Stable env P) (ht : d.Tables env)
    (hcancel : ∀ io, Cancelling d label io → P d.usb.io → P io) (hd : P d.usb.io)
    (hs : d.step env label = some d') : P d'.usb.io := by
  rcases usb_kind ht hs with ⟨hw, _⟩ | ⟨n, es, _, _, heq, _⟩ | ⟨_, _, _, _, heq⟩ |
    ⟨_, _, _, _, heq⟩ | ⟨_, _, _, nready, _, _, hw⟩ | ⟨_, heq, _⟩ | ⟨status, _, _, _, _, heq, _⟩ |
    ⟨status, data, _, _, _, _, _, hcase⟩ | ⟨_, _, _, _, heq⟩ |
    ⟨_, _, _, _, _, _, _, heq⟩ | ⟨io, _, _, _, hc, _, heq⟩
  · exact hw.keeps h.write hd
  · rw [heq]
    exact h.frame _ _ hd rfl
  · rw [heq]
    exact h.frame _ _ hd rfl
  · rw [heq]
    exact h.frame _ _ hd rfl
  · exact hw.keeps h.write (h.frame _ _ hd rfl)
  · rw [heq]
    exact h.startTransfers hd
  · rw [heq]
    exact h.intrOutCb hd status
  · have hbegin := h.intrInBegin hd status data
    rcases hcase with ⟨rfl, u, signal, hw, heq⟩ | ⟨_, heq⟩
    · rw [heq]
      exact h.intrInEnd (hw.keeps h.write hbegin) signal
    · rw [heq]
      exact hbegin
  · rw [heq]
    exact h.maybeFinish (h.frame _ _ hd rfl)
  · rw [heq]
    exact hd
  · rw [heq]
    exact hcancel io hc hd

/-- **The controller is open, and both transfers are allocated.** -/
theorem Reachable.held (h : Reachable env d) : d.usb.io.held = (true, true, true) := by
  induction h with
  | refl => rfl
  | tail hr hab ih =>
    obtain ⟨label, _, hs⟩ := hab
    refine stable_step (Transfers.stable_held env _) (Reachable.tables hr) (fun io hc hu => ?_) ih hs
    cases hc with
    | kept | outGone | outAsked | inGone | inAsked => exact hu

/-! ### Both transfers end -/

/-- No transfer that libusb was asked to cancel is still to be called back. -/
def CalledBack (io : Transfers) : Prop :=
  (io.outOwned && io.outCancelRequested) = false ∧ (io.inOwned && io.inCancelRequested) = false

instance (io : Transfers) : Decidable (CalledBack io) := inferInstanceAs (Decidable (_ ∧ _))

/-- `libusb_cancel_transfer` takes the cancellation, or libusb knows the transfer no more. -/
def CancelOk (active owned : Bool) (result : ℤ) : Prop :=
  active = true → 0 ≤ result ∨ (result = libusbErrorNotFound ∧ owned = false)

instance (active owned : Bool) (result : ℤ) : Decidable (CancelOk active owned result) :=
  inferInstanceAs (Decidable (_ → _))

/-- **An orderly step**: no enabled listener is missing, no cancellation fails, no callback of
the shutdown submits anything, and the drain does not end before the cancellations that were
asked for. -/
def Orderly (env : Env) (d : Daemon) : Label → Prop
  | .createListeners main xml or20 => ¬(main < 0 ∨ (env.config.xmlEnabled = true ∧ xml < 0) ∨
      (env.config.openremoteEnabled = true ∧ or20 < 0))
  | .cancel result => match d.pc with
    | .cancelOut => CancelOk d.usb.io.outActive d.usb.io.outOwned result
    | .cancelIn => CancelOk d.usb.io.inActive d.usb.io.inOwned result
    | _ => True
  | .drainTurn => match d.pc with
    | .drain 0 => CalledBack d.usb.io
    | _ => True
  | .drained result => result < 0 ∧ result ≠ libusbErrorInterrupted → CalledBack d.usb.io
  | label => d.pc.exiting = true → d.Muted env label

instance (env : Env) (d : Daemon) (label : Label) : Decidable (Orderly env d label) := by
  delta Orderly
  rcases label with ⟨⟩
  case cancel result => dsimp only; rcases d.pc with ⟨⟩ <;> dsimp only <;> infer_instance
  case drainTurn =>
    dsimp only
    rcases d.pc with ⟨⟩
    case drain maxEvents =>
      rcases maxEvents with ⟨⟩
      · exact inferInstanceAs (Decidable (CalledBack _))
      · exact instDecidableTrue
    all_goals exact instDecidableTrue
  all_goals dsimp only; infer_instance

/-- The output transfer is active only while its cancellation is under way. -/
def OutAsked (io : Transfers) : Prop :=
  io.outActive = true → io.outOwned = true ∧ io.outCancelRequested = true

/-- The input transfer is active only while its cancellation is under way. -/
def InAsked (io : Transfers) : Prop :=
  io.inActive = true → io.inOwned = true ∧ io.inCancelRequested = true

/-- Neither transfer is active. -/
def Inactive (io : Transfers) : Prop := io.inActive = false ∧ io.outActive = false

/-- **What is known of the transfers** at each place. -/
structure Tidy (d : Daemon) : Prop where
  marked : d.usb.io.Marked
  fresh : d.pc = .allocated → Inactive d.usb.io
  outAsked : d.pc.exiting = true → d.pc ≠ .cancelOut → OutAsked d.usb.io
  inAsked : d.pc.exiting = true → d.pc ≠ .cancelOut → d.pc ≠ .cancelIn → InAsked d.usb.io
  stopped : d.pc = .stopped → Inactive d.usb.io

theorem inactive_of_calledBack {io : Transfers} (h : CalledBack io) (hout : OutAsked io)
    (hin : InAsked io) : Inactive io := by
  refine ⟨?_, ?_⟩
  · by_contra ha
    obtain ⟨howned, hasked⟩ := hin (by simpa using ha)
    have hback := h.2
    rw [howned, hasked] at hback
    cases hback
  · by_contra ha
    obtain ⟨howned, hasked⟩ := hout (by simpa using ha)
    have hback := h.1
    rw [howned, hasked] at hback
    cases hback

/-- The flags say whether a transfer is active, and whether its cancellation is under way. -/
theorem asked_of_flags {io t : Transfers} (h : io.flags = t.flags) :
    (OutAsked t → OutAsked io) ∧ (InAsked t → InAsked io) ∧ (Inactive t → Inactive io) ∧
      (t.Marked → io.Marked) := by
  simp only [Transfers.flags, Prod.mk.injEq] at h
  obtain ⟨⟨hos, hoc, hoo, hor⟩, ⟨his, hic, hio, hir⟩, _⟩ := h
  have hout : io.outActive = t.outActive := by rw [Transfers.outActive, hos, hoc]; rfl
  have hin : io.inActive = t.inActive := by rw [Transfers.inActive, his, hic]; rfl
  refine ⟨fun ht ha => ?_, fun ht ha => ?_, fun ht => ⟨hin.trans ht.1, hout.trans ht.2⟩,
    fun ht => ⟨fun ho => hin.trans (ht.input (hio ▸ ho)), fun ho => hout.trans (ht.output (hoo ▸ ho))⟩⟩
  · rw [hoo, hor]
    exact ht (hout ▸ ha)
  · rw [hio, hir]
    exact ht (hin ▸ ha)

/-- **A callback of the shutdown.** -/
theorem Tidy.callback (h : d.Tidy) (hpc : d'.pc = d.pc) {t : Transfers}
    (ht : t ∈ [d.usb.io, d.usb.io.outEnded, d.usb.io.inEnded])
    (hflags : d'.usb.io.flags = t.flags) : d'.Tidy := by
  obtain ⟨hout, hin, hinactive, hmarked⟩ := asked_of_flags hflags
  simp only [List.mem_cons, List.not_mem_nil, or_false] at ht
  rcases ht with rfl | rfl | rfl
  · exact ⟨hmarked h.marked, fun hp => hinactive (h.fresh (hpc ▸ hp)),
      fun he hne => hout (h.outAsked (hpc ▸ he) (hpc ▸ hne)),
      fun he hne hne' => hin (h.inAsked (hpc ▸ he) (hpc ▸ hne) (hpc ▸ hne')),
      fun hp => hinactive (h.stopped (hpc ▸ hp))⟩
  · exact ⟨hmarked ⟨h.marked.input, fun ho => (nomatch ho)⟩,
      fun hp => hinactive ⟨(h.fresh (hpc ▸ hp)).1, rfl⟩,
      fun _ _ => hout fun ha => (nomatch ha),
      fun he hne hne' => hin (h.inAsked (hpc ▸ he) (hpc ▸ hne) (hpc ▸ hne')),
      fun hp => hinactive ⟨(h.stopped (hpc ▸ hp)).1, rfl⟩⟩
  · exact ⟨hmarked ⟨fun ho => (nomatch ho), h.marked.output⟩,
      fun hp => hinactive ⟨rfl, (h.fresh (hpc ▸ hp)).2⟩,
      fun he hne => hout (h.outAsked (hpc ▸ he) (hpc ▸ hne)),
      fun _ _ _ => hin fun ha => (nomatch ha),
      fun hp => hinactive ⟨rfl, (h.stopped (hpc ▸ hp)).2⟩⟩

/-- **The output transfer is cancelled.** -/
theorem Tidy.cancelOut (h : d.Tidy) (hheld : d.usb.io.held = (true, true, true)) {result : ℤ}
    (hok : CancelOk d.usb.io.outActive d.usb.io.outOwned result)
    (hs : d.doCancelOut result = some d') : d'.Tidy := by
  have htransfer : d.usb.io.intrOutTransfer = true := congrArg (fun t => t.2.2) hheld
  have hnext : ∀ io : Transfers, io.Marked → OutAsked io →
      Tidy { d with usb := { d.usb with io := io }, pc := .cancelIn } :=
    fun io hm ho => ⟨hm, fun hp => (by cases hp), fun _ _ => ho, fun _ _ hne => absurd rfl hne,
      fun hp => (by cases hp)⟩
  simp only [doCancelOut] at hs
  split at hs
  next hidle =>
    obtain rfl := Option.some.inj hs
    refine hnext d.usb.io h.marked fun ha => ?_
    rw [htransfer] at hidle
    have hnot : d.usb.io.outActive = false := by simpa [Transfers.outActive] using hidle
    rw [hnot] at ha
    cases ha
  next hidle =>
    have hactive : d.usb.io.outActive = true := by
      rw [htransfer] at hidle
      simpa [Transfers.outActive, or_iff_not_imp_left] using hidle
    split at hs
    next hgone =>
      obtain rfl := Option.some.inj hs
      refine hnext _ ⟨h.marked.input, fun ho => ?_⟩ fun ha => by cases ha
      rcases hok hactive with hpos | ⟨_, howned⟩
      · rw [hgone, libusbErrorNotFound] at hpos
        omega
      · have hown : d.usb.io.outOwned = true := ho
        rw [howned] at hown
        cases hown
    next hgone =>
      split at hs
      next hneg =>
        rcases hok hactive with hpos | ⟨heq, _⟩
        · omega
        · exact absurd heq hgone
      split at hs
      next howned =>
        obtain rfl := Option.some.inj hs
        exact hnext _ ⟨h.marked.input, fun _ => by simp [Transfers.outActive]⟩
          fun _ => ⟨howned, rfl⟩
      · cases hs

/-- **The input transfer is cancelled.** -/
theorem Tidy.cancelIn (h : d.Tidy) (hpc : d.pc = .cancelIn)
    (hheld : d.usb.io.held = (true, true, true)) {result : ℤ}
    (hok : CancelOk d.usb.io.inActive d.usb.io.inOwned result)
    (hs : d.doCancelIn result = some d') : d'.Tidy := by
  have htransfer : d.usb.io.intrInTransfer = true := congrArg (fun t => t.2.1) hheld
  have hout : OutAsked d.usb.io := h.outAsked (by rw [hpc]; rfl) (by simp [hpc])
  have hnext : ∀ io : Transfers, io.Marked → OutAsked io → InAsked io →
      Tidy { d with usb := { d.usb with io := io }, pc := .drain 100 } :=
    fun io hm ho hi => ⟨hm, fun hp => (by cases hp), fun _ _ => ho, fun _ _ _ => hi,
      fun hp => (by cases hp)⟩
  simp only [doCancelIn] at hs
  split at hs
  next hidle =>
    obtain rfl := Option.some.inj hs
    refine hnext d.usb.io h.marked hout fun ha => ?_
    rw [htransfer] at hidle
    have hnot : d.usb.io.inActive = false := by simpa [Transfers.inActive] using hidle
    rw [hnot] at ha
    cases ha
  next hidle =>
    have hactive : d.usb.io.inActive = true := by
      rw [htransfer] at hidle
      simpa [Transfers.inActive, or_iff_not_imp_left] using hidle
    split at hs
    next hgone =>
      obtain rfl := Option.some.inj hs
      refine hnext _ ⟨fun ho => ?_, h.marked.output⟩ hout fun ha => by cases ha
      rcases hok hactive with hpos | ⟨_, howned⟩
      · rw [hgone, libusbErrorNotFound] at hpos
        omega
      · have hown : d.usb.io.inOwned = true := ho
        rw [howned] at hown
        cases hown
    next hgone =>
      split at hs
      next hneg =>
        rcases hok hactive with hpos | ⟨heq, _⟩
        · omega
        · exact absurd heq hgone
      split at hs
      next howned =>
        obtain rfl := Option.some.inj hs
        exact hnext _ ⟨fun _ => by simp [Transfers.inActive], h.marked.output⟩ hout
          fun _ => ⟨howned, rfl⟩
      · cases hs

/-- The drain goes on, or is over. -/
theorem Tidy.drain (h : d.Tidy) (hpc : d.pc.exiting = true) (hne : d.pc ≠ .cancelOut)
    (hne' : d.pc ≠ .cancelIn) {pc : Pc} (hpc' : pc.exiting = true ∨
      (pc = .stopped ∧ (CalledBack d.usb.io ∨ Inactive d.usb.io))) (hnew : pc ≠ .allocated) :
    Tidy { d with pc := pc } := by
  have hout := h.outAsked hpc hne
  have hin := h.inAsked hpc hne hne'
  refine ⟨h.marked, fun hp => absurd hp hnew, fun _ _ => hout, fun _ _ _ => hin, fun hp => ?_⟩
  rcases hpc' with hexit | ⟨_, hback | hidle⟩
  · have hstop : pc = .stopped := hp
    rw [hstop] at hexit
    cases hexit
  · exact inactive_of_calledBack hback hout hin
  · exact hidle

/-- **Every orderly step of the shutdown.** -/
theorem Tidy.shutdown (h : d.Tidy) (hheld : d.usb.io.held = (true, true, true))
    (hok : d.Orderly env label) (hlabel : label.ofShutdown = true)
    (hs : d.step env label = some d') : d'.Tidy := by
  cases label with
  | cancel result =>
    simp only [Daemon.step] at hs
    split at hs
    next hpc =>
      simp only [Orderly, hpc] at hok
      exact h.cancelOut hheld hok hs
    next hpc =>
      simp only [Orderly, hpc] at hok
      exact h.cancelIn hpc hheld hok hs
    · cases hs
  | drainTurn =>
    simp only [Daemon.step] at hs
    split at hs
    next maxEvents hpc =>
      obtain rfl := Option.some.inj hs
      simp only [doDrainTurn]
      split
      next hover =>
        refine h.drain (by rw [hpc]; rfl) (by simp [hpc]) (by simp [hpc]) (Or.inr ⟨rfl, ?_⟩) (by simp)
        rcases hover with rfl | hidle
        · simp only [Orderly, hpc] at hok
          exact Or.inl hok
        · right
          simpa [Inactive, Transfers.inActive, Transfers.outActive, and_assoc] using hidle
      · exact h.drain (by rw [hpc]; rfl) (by simp [hpc]) (by simp [hpc]) (Or.inl rfl) (by simp)
    · cases hs
  | drained result =>
    simp only [Daemon.step] at hs
    split at hs
    next maxEvents hpc =>
      obtain rfl := Option.some.inj hs
      rw [doDrained]
      split
      next hfail =>
        exact h.drain (by rw [hpc]; rfl) (by simp [hpc]) (by simp [hpc])
          (Or.inr ⟨rfl, Or.inl (hok hfail)⟩) (by simp)
      · exact h.drain (by rw [hpc]; rfl) (by simp [hpc]) (by simp [hpc]) (Or.inl rfl) (by simp)
    · cases hs
  | _ => cases hlabel

theorem Orderly.muted (hok : d.Orderly env label) (hexit : d.pc.exiting = true)
    (hlabel : label.ofShutdown = false) : d.Muted env label := by
  cases label with
  | createListeners main xml or20 => trivial
  | cancel result => cases hlabel
  | drainTurn => cases hlabel
  | drained result => cases hlabel
  | _ => exact hok hexit

/-- At a place of the main loop, or at its end. -/
theorem tidy_of_pc (hm : d.usb.io.Marked) (hpc : d.pc.plain = true ∨ d.pc = .cancelOut ∨
    (d.pc.exiting = false ∧ d.pc ≠ .allocated ∧ d.pc ≠ .stopped)) : d.Tidy := by
  have hplace : d.pc ≠ .allocated ∧ d.pc ≠ .stopped ∧ (d.pc.exiting = true → d.pc = .cancelOut) := by
    rcases hpc with hplain | hpc | ⟨hexit, hne, hne'⟩
    · refine ⟨fun hp => ?_, fun hp => ?_, fun hp => ?_⟩
      · rw [hp] at hplain
        cases hplain
      · rw [hp] at hplain
        cases hplain
      · cases hpc : d.pc with
        | cancelOut => rfl
        | cancelIn | drain | draining =>
          rw [hpc] at hplain
          cases hplain
        | _ =>
          rw [hpc] at hp
          cases hp
    · exact ⟨by simp [hpc], by simp [hpc], fun _ => hpc⟩
    · exact ⟨hne, hne', fun hp => by rw [hexit] at hp; cases hp⟩
  obtain ⟨hne, hne', himp⟩ := hplace
  exact ⟨hm, fun hp => absurd hp hne, fun he hc => absurd (himp he) hc,
    fun he hc _ => absurd (himp he) hc, fun hp => absurd hp hne'⟩

/-- The transfer cannot be started. -/
theorem startTransfers_inactive {t : Transfers} (h : Inactive t)
    (hr : (t.startTransfers env).2 < 0) : Inactive (t.startTransfers env).1 := by
  have hsub : t.intrInSubmitted = false := by
    have hin := h.1
    simp only [Transfers.inActive, Bool.or_eq_false_iff] at hin
    exact hin.1
  by_cases hneg : env.submitIn t.submitInCalls < 0
  · have hflags : (t.startTransfers env).1.inActive = t.inActive ∧
        (t.startTransfers env).1.outActive = t.outActive := by
      simp [Transfers.startTransfers, Transfers.submitIn, hsub, hneg, Transfers.inActive,
        Transfers.outActive]
    exact ⟨hflags.1.trans h.1, hflags.2.trans h.2⟩
  · simp [Transfers.startTransfers, Transfers.submitIn, hsub, hneg] at hr

/-- **Every orderly step.** -/
theorem Tidy.step (h : d.Tidy) (hd : Reachable env d) (hok : d.Orderly env label)
    (hs : d.step env label = some d') : d'.Tidy := by
  have ht := Reachable.tables hd
  by_cases hlabel : label.ofShutdown = true
  · exact h.shutdown (Reachable.held hd) hok hlabel hs
  have hlabel' : label.ofShutdown = false := by simpa using hlabel
  by_cases hexit : d.pc.exiting = true
  · have hending : d.Ending := ⟨Or.inl hexit, (Reachable.agreement hd).exiting hexit⟩
    rcases (hending.step ht (hok.muted hexit hlabel') hs).2 with ⟨hpc, t, hmem, hflags⟩ | ⟨hl, _⟩
    · exact h.callback hpc hmem hflags
    · exact absurd hl hlabel
  have hmarked : d'.usb.io.Marked := by
    refine stable_step (Transfers.stable_marked env) ht (fun io hc hm => ?_) h.marked hs
    cases hc with
    | kept => exact hm
    | outGone hpc _ =>
      rw [hpc] at hexit
      exact absurd rfl hexit
    | outAsked _ => exact ⟨hm.input, fun _ => by simp [Transfers.outActive]⟩
    | inGone hpc _ =>
      rw [hpc] at hexit
      exact absurd rfl hexit
    | inAsked _ => exact ⟨fun _ => by simp [Transfers.inActive], hm.output⟩
  have hevents : d.inLibusb = true → d'.pc = d.pc →
      d'.pc.exiting = false ∧ d'.pc ≠ .allocated ∧ d'.pc ≠ .stopped := by
    intro hlib hpc
    have hstarted := started_of_inLibusb hlib
    rw [hpc]
    refine ⟨by simpa using hexit, fun hp => ?_, fun hp => ?_⟩
    · rw [hp] at hstarted
      cases hstarted
    · rw [hp] at hstarted
      cases hstarted
  rcases usb_kind ht hs with ⟨_, ⟨husb, hpc⟩ | ⟨_, _, hplain⟩⟩ |
    ⟨n, es, _, _, heq, ⟨_, hpc⟩ | ⟨_, _, hpc⟩⟩ | ⟨_, _, _, hpc', _⟩ | ⟨_, _, _, hpc', _⟩ |
    ⟨_, _, _, _, _, hpc', _⟩ | ⟨hpc, heq, hpc'⟩ | ⟨_, _, _, _, hlib, _, hpc⟩ |
    ⟨_, _, _, _, hlib, _, hpc, _⟩ | ⟨_, _, _, hpc', _⟩ | ⟨main, xml, or20, rfl, _, _, hfail, _⟩ |
    ⟨_, hpc, _⟩
  · refine ⟨hmarked, fun hp => ?_, fun he => absurd (hpc ▸ he) hexit,
      fun he => absurd (hpc ▸ he) hexit, fun hp => ?_⟩
    · rw [husb]
      exact h.fresh (hpc ▸ hp)
    · rw [husb]
      exact h.stopped (hpc ▸ hp)
  · exact tidy_of_pc hmarked (Or.inl hplain)
  · refine ⟨hmarked, fun hp => ?_, fun he => absurd (hpc ▸ he) hexit,
      fun he => absurd (hpc ▸ he) hexit, fun hp => ?_⟩
    · rw [heq]
      exact h.fresh (hpc ▸ hp)
    · rw [heq]
      exact h.stopped (hpc ▸ hp)
  · exact tidy_of_pc hmarked (Or.inr (Or.inl hpc))
  · exact tidy_of_pc hmarked (Or.inr (Or.inr (by simp [hpc', Pc.exiting])))
  · exact tidy_of_pc hmarked (Or.inr (Or.inr (by simp [hpc', Pc.exiting])))
  · exact tidy_of_pc hmarked (Or.inr (Or.inr (by simp [hpc', Pc.exiting])))
  · by_cases hr : (d.usb.io.startTransfers env).2 < 0
    · rw [if_pos hr] at hpc'
      have hidle : Inactive d'.usb.io := by
        rw [heq]
        exact startTransfers_inactive (h.fresh hpc) hr
      exact ⟨hmarked, fun _ => hidle, fun he => (by rw [hpc'] at he; cases he),
        fun he => (by rw [hpc'] at he; cases he), fun _ => hidle⟩
    · rw [if_neg hr] at hpc'
      exact tidy_of_pc hmarked (Or.inl (by rw [hpc']; rfl))
  · exact tidy_of_pc hmarked (Or.inr (Or.inr (hevents hlib hpc)))
  · exact tidy_of_pc hmarked (Or.inr (Or.inr (hevents hlib hpc)))
  · exact tidy_of_pc hmarked (Or.inl (by rw [hpc']; rfl))
  · exact absurd hfail hok
  · exact absurd hpc hexit

end Daemon

end Mochad
