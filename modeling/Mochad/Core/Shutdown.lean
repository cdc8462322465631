import Mochad.Core.Agreement

/-!
# Shutting down

After the main loop each transfer is cancelled, and libusb is called until neither is
active. The callbacks are those of the running daemon, so that one of them may submit a
transfer again: the output transfer may complete after all, or be acknowledged, and a
packet may wait; or a packet that comes in may be answered.

`Daemon.Muted` is what a callback must meet for nothing to be submitted then, and
`Daemon.no_submission` says that this is enough.
-/

namespace Mochad

namespace Transfers

/-- How often `libusb_submit_transfer` was called. -/
def submitCalls (t : Transfers) : ℕ × ℕ := (t.submitOutCalls, t.submitInCalls)

/-- The flags of both transfers, whether libusb holds them and was asked to cancel them, and how
often they were submitted. -/
def flags (t : Transfers) : (Bool × Bool × Bool × Bool) × (Bool × Bool × Bool × Bool) × ℕ × ℕ :=
  ((t.intrOutSubmitted, t.intrOutCanceling, t.outOwned, t.outCancelRequested),
    (t.intrInSubmitted, t.intrInCanceling, t.inOwned, t.inCancelRequested), t.submitCalls)

/-- The output transfer is the daemon's again. -/
def outEnded (t : Transfers) : Transfers :=
  { t with
    outOwned := false
    outCancelRequested := false
    intrOutSubmitted := false
    intrOutCanceling := false }

/-- The input transfer is the daemon's again. -/
def inEnded (t : Transfers) : Transfers :=
  { t with
    inOwned := false
    inCancelRequested := false
    intrInSubmitted := false
    intrInCanceling := false }

/-- What is allocated and opened at startup. -/
def held (t : Transfers) : Bool × Bool × Bool := (t.devh, t.intrInTransfer, t.intrOutTransfer)

/-- `transfer_is_active`, for the input transfer. -/
def inActive (t : Transfers) : Bool := t.intrInSubmitted || t.intrInCanceling

/-- `transfer_is_active`, for the output transfer. -/
def outActive (t : Transfers) : Bool := t.intrOutSubmitted || t.intrOutCanceling

/-- **A transfer that libusb holds is marked active.** -/
structure Marked (t : Transfers) : Prop where
  input : t.inOwned = true → t.inActive = true
  output : t.outOwned = true → t.outActive = true

/-- **What `write_usb` can do**: nothing but record why, or call `libusb_submit_transfer`. -/
theorem writeUsb_cases (env : Env) (t : Transfers) (buf : Bytes) :
    (∃ e, (t.writeUsb env buf).1 = t.record e) ∨ (t.outActive = false ∧
      (t.writeUsb env buf).1.held = t.held ∧ (t.writeUsb env buf).1.inSide = t.inSide ∧
        ((t.writeUsb env buf).1.outOwned = true → (t.writeUsb env buf).1.outActive = true ∨
          t.outOwned = true)) := by
  simp only [writeUsb]
  split
  · exact Or.inl ⟨_, rfl⟩
  split
  · exact Or.inl ⟨_, rfl⟩
  next hactive =>
    split
    · exact Or.inl ⟨_, rfl⟩
    have hidle : t.outActive = false := by simpa [outActive] using hactive
    split
    · exact Or.inr ⟨hidle, rfl, rfl, fun h => Or.inr h⟩
    · exact Or.inr ⟨hidle, rfl, rfl, fun _ => Or.inl rfl⟩

theorem writeUsb_held (env : Env) (t : Transfers) (buf : Bytes) :
    (t.writeUsb env buf).1.held = t.held := by
  rcases writeUsb_cases env t buf with ⟨e, he⟩ | ⟨_, hheld, _⟩
  · rw [he]
    rfl
  · exact hheld

/-- **Submitting keeps the marks.** -/
theorem Marked.writeUsb {env : Env} {t : Transfers} (h : t.Marked) (buf : Bytes) :
    (t.writeUsb env buf).1.Marked := by
  rcases writeUsb_cases env t buf with ⟨e, he⟩ | ⟨hidle, _, hin, hout⟩
  · rw [he]
    exact ⟨h.input, h.output⟩
  · simp only [inSide, Prod.mk.injEq] at hin
    obtain ⟨⟨hsub, hcan, hown, _⟩, _⟩ := hin
    refine ⟨fun ho => ?_, fun ho => ?_⟩
    · rw [inActive, hsub, hcan]
      exact h.input (hown ▸ ho)
    · rcases hout ho with hactive | howned
      · exact hactive
      · rw [h.output howned] at hidle
        cases hidle

end Transfers

namespace Usb

variable {env : Env} {u u' : Usb} {P : Transfers → Prop}

/-- What `write_usb` keeps, `x10_write` keeps. -/
theorem x10Write_keeps (hwrite : ∀ t buf, P t → P (t.writeUsb env buf).1) (h : P u.io)
    (buf : Bytes) : P (u.x10Write env buf).1.io := by
  simp only [x10Write, X10Queue.x10Write]
  split
  · exact h
  split
  · exact h
  split
  · exact hwrite u.io buf h
  · exact hwrite u.io buf h

theorem Writes.keeps (hw : u.Writes env u') (hwrite : ∀ t buf, P t → P (t.writeUsb env buf).1)
    (h : P u.io) : P u'.io := by
  induction hw with
  | refl => exact h
  | tail _ hb ih =>
    obtain ⟨buf, rfl⟩ := hb
    exact x10Write_keeps hwrite ih buf

/-- What `write_usb` keeps, and does not depend on the acknowledgement,
`maybe_finish_x10_transmit` keeps. -/
theorem maybeFinish_keeps (hwrite : ∀ t buf, P t → P (t.writeUsb env buf).1)
    (hspent : ∀ t, P t → P t.spent) (h : P u.io) : P (u.maybeFinishX10Transmit env).io := by
  have hrelease : P (u.release env).io := by
    simp only [release, sendNextX10out, X10Queue.sendNextX10out]
    split
    · split
      · exact hspent _ h
      split
      · exact hwrite _ _ (hspent _ h)
      · exact hwrite _ _ (hspent _ h)
    · exact hspent _ h
  rw [maybeFinishX10Transmit]
  split
  · exact h
  split
  · exact hrelease
  split
  · exact h
  · exact hrelease

/-- `maybe_finish_x10_transmit` goes on to the next packet. -/
def finishing (env : Env) (u : Usb) : Bool :=
  u.io.intrOutCompleted && (env.cm19a || u.io.x10AckReceived || u.io.x10AckTimedOut)

/-- A packet waits for the one that is under way. -/
def waits (u : Usb) : Bool := u.queue.outbusy && u.queue.outhead ≠ u.queue.outtail

theorem maybeFinish_eq (env : Env) (u : Usb) :
    u.maybeFinishX10Transmit env = if u.finishing env then u.release env else u := by
  rw [maybeFinishX10Transmit, finishing]
  cases u.io.intrOutCompleted with
  | false => rfl
  | true =>
    cases env.cm19a with
    | true => rfl
    | false => cases u.io.x10AckReceived <;> cases u.io.x10AckTimedOut <;> rfl

/-- **Nothing is submitted** if no packet waits. -/
theorem release_io_of_not_waits (h : u.waits = false) : (u.release env).io = u.io.spent := by
  simp only [waits, Bool.and_eq_false_iff, decide_eq_false_iff_not, not_not] at h
  simp only [release, sendNextX10out, X10Queue.sendNextX10out]
  rcases h with hb | hempty
  · rw [if_neg (by rw [hb]; decide)]
  · split
    · rfl
    · rfl

theorem maybeFinish_flags (h : u.finishing env = true → u.waits = false) :
    (u.maybeFinishX10Transmit env).io.flags = u.io.flags := by
  rw [maybeFinish_eq]
  split
  next hf =>
    rw [release_io_of_not_waits (h hf)]
    rfl
  · rfl

/-- The daemon stays told to stop. -/
theorem maybeFinish_doExit (env : Env) (u : Usb) :
    (u.maybeFinishX10Transmit env).io.doExit = u.io.doExit :=
  doExit_of_inSide (maybeFinish_inSide env u)

theorem intrInEnd_of_exit (h : u.io.doExit ≠ 0) (signal : Bool) :
    (u.intrInEnd env signal).io.flags = u.io.flags ∧
      (u.intrInEnd env signal).io.doExit ≠ 0 := by
  rcases intrInEnd_cases env u signal with ⟨n, calls, hs, hn, _, heq⟩ | ⟨h0, _⟩
  · cases signal with
    | true => exact ⟨rfl, Nat.succ_ne_zero 0⟩
    | false => simp [intrInEnd, h]
  · exact absurd h0 h

end Usb

namespace Daemon

variable {env : Env} {d d' : Daemon} {label : Label}

/-! ### Calls that write no packet -/

/-- The call writes a packet. -/
def writesPacket : Effect → Bool
  | .x10Write _ => true
  | _ => false

/-- **Calls reach the transfers only if they write a packet, and the queue is idle.** -/
theorem performAll_io {es : List Effect}
    (h : d.usb.queue.outbusy = true ∨ ∀ e ∈ es, writesPacket e = false) :
    (d.performAll env es).usb.io = d.usb.io := by
  induction es generalizing d with
  | nil => rfl
  | cons e es ih =>
    have hsame : (d.perform env e).usb = d.usb →
        (d.performAll env (e :: es)).usb.io = d.usb.io := by
      intro heq
      rw [← heq]
      exact ih (d := d.perform env e)
        (heq ▸ h.imp_right fun hnone x hx => hnone x (List.mem_cons_of_mem _ hx))
    cases e with
    | sockprintf fd body => exact hsame (congrArg Prod.snd (sockprintf_sides env d fd body))
    | statusprintf fd text => exact hsame (congrArg Prod.snd (queueClientBytes_sides env d fd _))
    | sendAll fd bytes => exact hsame (congrArg Prod.snd (sendAll_sides env _ fd bytes))
    | x10Write buf =>
      rcases h with hb | hnone
      · have hwrite : (d.perform env (.x10Write buf)).usb.io = d.usb.io ∧
            (d.perform env (.x10Write buf)).usb.queue.outbusy = true := by
          simp only [perform, Usb.x10Write, X10Queue.x10Write, hb]
          split
          · exact ⟨rfl, hb⟩
          · refine ⟨rfl, ?_⟩
            simp only [if_true, X10Queue.addX10out]
            split_ifs
            · exact hb
            · exact hb
        rw [← hwrite.1]
        exact ih (d := d.perform env (.x10Write buf)) (Or.inl hwrite.2)
      · exact absurd (hnone _ List.mem_cons_self) (by simp [writesPacket])

/-! ### No packet after the main loop -/

/-- The calls that the decoder makes for a packet that comes in. -/
def decodeCalls (env : Env) (d : Daemon) (data : Bytes) : List Effect :=
  let buf := memcpy d.intrInBuf data
  let d := { d with intrInBuf := buf }
  (cm15aDecode env (fun fd line => do let _ ← Mochad.processcommandline (d.ctx env) fd line) (-1)
    (Memory.ofBytes buf env.stack) data.length d.x10).effects

/-- **A packet is decoded**, and nothing is written, unless it has to wait. -/
theorem decode_io {data : Bytes} (h : d.usb.queue.outbusy = true ∨
    ∀ e ∈ decodeCalls env d data, writesPacket e = false) :
    (d.decode env data).usb.io = d.usb.io := by
  rw [decodeCalls] at h
  rw [decode, runX10]
  generalize cm15aDecode env _ (-1) _ data.length d.x10 = o at h ⊢
  exact performAll_io (d := { d with intrInBuf := _, x10 := _ }) h

/-- A packet that is too short is not looked at. -/
theorem decodeCalls_of_short {data : Bytes} (h : data.length < 4) : decodeCalls env d data = [] := by
  rw [decodeCalls, cm15aDecode, if_pos h]
  rfl

/-- **A callback that submits nothing**: if the output transfer has completed, or is
acknowledged, no packet waits for it; and a packet that comes in is not answered, unless the
answer has to wait. -/
def Muted (env : Env) (d : Daemon) : Label → Prop
  | .intrOut .completed =>
      (env.cm19a || d.usb.io.x10AckReceived || d.usb.io.x10AckTimedOut) = true →
        d.usb.waits = false
  | .intrIn .completed data _ =>
      (data = [0x55] → d.usb.io.intrOutCompleted = true → d.usb.waits = false) ∧
        (d.usb.queue.outbusy = true ∨ ∀ e ∈ decodeCalls env
          { d with usb := d.usb.intrInBegin env .completed data } data, writesPacket e = false)
  | _ => True

instance (env : Env) (d : Daemon) (label : Label) : Decidable (Muted env d label) := by
  unfold Muted
  split <;> infer_instance

/-- **The output callback.** -/
theorem intrOutCb_flags {status : TransferStatus} (hok : d.Muted env (.intrOut status)) :
    (d.usb.intrOutCb env status).io.flags = d.usb.io.outEnded.flags := by
  cases status with
  | completed =>
    refine (Usb.maybeFinish_flags fun hf => ?_).trans rfl
    exact hok (by simpa [Usb.finishing] using hf)
  | cancelled | error | timedOut | stall | noDevice | overflow => rfl

theorem intrOutCb_doExit {status : TransferStatus} (h : d.usb.io.doExit ≠ 0) :
    (d.usb.intrOutCb env status).io.doExit ≠ 0 := by
  cases status with
  | completed => exact (Usb.maybeFinish_doExit env _).trans_ne h
  | cancelled => exact h
  | error | timedOut | stall | noDevice | overflow => exact Nat.succ_ne_zero 1

/-- What a packet that comes in does first leaves the queue busy, unless it is the
acknowledgement. -/
theorem intrInBegin_queue {data : Bytes} (hdata : data ≠ [0x55]) :
    (d.usb.intrInBegin env .completed data).queue = d.usb.queue := by
  simp only [Usb.intrInBegin, if_neg hdata]
  split
  · rfl
  · rfl

/-- **A packet that comes in.** -/
theorem decode_muted {data : Bytes} {signal : Bool}
    (hok : d.Muted env (.intrIn .completed data signal)) :
    (Daemon.decode env { d with usb := d.usb.intrInBegin env .completed data } data).usb.io =
      (d.usb.intrInBegin env .completed data).io := by
  refine decode_io (d := { d with usb := d.usb.intrInBegin env .completed data }) ?_
  by_cases hdata : data = [0x55]
  · right
    rw [decodeCalls_of_short (by rw [hdata]; decide)]
    exact fun _ he => nomatch he
  · exact hok.2.imp (fun hb => (congrArg X10Queue.outbusy (intrInBegin_queue hdata)).trans hb) id

theorem intrInBegin_flags {status : TransferStatus} {data : Bytes} {signal : Bool}
    (hok : d.Muted env (.intrIn status data signal)) :
    (d.usb.intrInBegin env status data).io.flags = d.usb.io.inEnded.flags := by
  cases status with
  | completed =>
    simp only [Usb.intrInBegin]
    split
    next hdata =>
      have hacked : ∀ io : Transfers, io.intrOutCompleted = d.usb.io.intrOutCompleted →
          (Usb.maybeFinishX10Transmit env { d.usb with io := io }).io.flags = io.flags := by
        intro io hio
        refine Usb.maybeFinish_flags fun hf => hok.1 hdata ?_
        simp only [Usb.finishing, Bool.and_eq_true] at hf
        exact hio ▸ hf.1
      exact hacked _ rfl
    split
    · rfl
    · rfl
  | cancelled | error | timedOut | stall | noDevice | overflow => rfl

theorem intrInBegin_doExit {status : TransferStatus} {data : Bytes} (h : d.usb.io.doExit ≠ 0) :
    (d.usb.intrInBegin env status data).io.doExit ≠ 0 := by
  cases status with
  | completed =>
    simp only [Usb.intrInBegin]
    split
    · exact (Usb.maybeFinish_doExit env _).trans_ne h
    split
    · exact h
    · exact h
  | cancelled => exact h
  | error | timedOut | stall | noDevice | overflow => exact Nat.succ_ne_zero 1

/-- What the input callback leaves: a packet is decoded between its two parts. -/
theorem doIntrIn_usb {status : TransferStatus} {data : Bytes} {signal : Bool}
    (h : d.doIntrIn env status data signal = some d') :
    (status = .completed ∧ ∃ a, a = Daemon.decode env
        { d with usb := d.usb.intrInBegin env .completed data } data ∧
          d'.usb = a.usb.intrInEnd env signal) ∨
      (status ≠ .completed ∧ d'.usb = d.usb.intrInBegin env status data) := by
  simp only [doIntrIn] at h
  split at h
  · split at h
    next hst =>
      subst hst
      obtain rfl := Option.some.inj h
      exact Or.inl ⟨rfl, _, rfl, rfl⟩
    next hst =>
      obtain rfl := Option.some.inj h
      exact Or.inr ⟨hst, rfl⟩
  · cases h

/-- **The end of the run**: the transfers are being cancelled, or were, and the daemon is to
stop. -/
structure Ending (d : Daemon) : Prop where
  place : d.pc.exiting = true ∨ d.pc = .stopped
  exit : d.usb.io.doExit ≠ 0

theorem Ending.not_at (h : d.Ending) {pc : Pc} (hpc : d.pc = pc) (hexit : pc.exiting = false)
    (hstop : pc ≠ .stopped) : False := by
  rcases h.place with hp | hp
  · rw [← hpc, hp] at hexit
    cases hexit
  · exact hstop (hpc ▸ hp)

/-- **What a step of the shutdown does to the flags**, if it is muted: a transfer ends, or is
cancelled. -/
theorem Ending.step (h : d.Ending) (ht : d.Tables env) (hok : d.Muted env label)
    (hs : d.step env label = some d') :
    d'.Ending ∧ ((d'.pc = d.pc ∧ ∃ t ∈ [d.usb.io, d.usb.io.outEnded, d.usb.io.inEnded],
        d'.usb.io.flags = t.flags) ∨
      (label.ofShutdown = true ∧ Cancelling d label d'.usb.io)) := by
  rcases usb_kind ht hs with ⟨_, ⟨husb, hpc⟩ | ⟨hst, hex, _⟩⟩ |
    ⟨n, es, hn, _, heq, ⟨_, hpc⟩ | ⟨hst, hex, _⟩⟩ | ⟨snap, timeout, hpc, _, _⟩ |
    ⟨snap, timeout, hpc, _, _⟩ | ⟨snap, _, timeout, _, hpc, _, _⟩ | ⟨hpc, _, _⟩ |
    ⟨status, rfl, _, _, _, heq, hpc⟩ | ⟨status, data, _, _, hlib, ⟨signal, rfl⟩, hpc, _⟩ |
    ⟨snap, _, hpc, _, _⟩ | ⟨_, _, _, _, hpc, _, _, _⟩ | ⟨io, _, hpc, hsame, hcancel, hlabel, heq⟩
  · exact ⟨⟨hpc ▸ h.place, husb ▸ h.exit⟩, Or.inl ⟨hpc, d.usb.io, by simp, by rw [husb]⟩⟩
  · rcases h.place with hp | hp
    · rw [hp] at hex
      cases hex
    · rw [hp] at hst
      cases hst
  · exact ⟨⟨hpc ▸ h.place, by rw [heq]; exact hn⟩,
      Or.inl ⟨hpc, d.usb.io, by simp, by rw [heq]; rfl⟩⟩
  · rcases h.place with hp | hp
    · rw [hp] at hex
      cases hex
    · rw [hp] at hst
      cases hst
  · exact (h.not_at hpc rfl (by simp)).elim
  · exact (h.not_at hpc rfl (by simp)).elim
  · exact (h.not_at hpc rfl (by simp)).elim
  · exact (h.not_at hpc rfl (by simp)).elim
  · have hexit : (d.usb.intrOutCb env status).io.doExit ≠ 0 := intrOutCb_doExit h.exit
    exact ⟨⟨hpc ▸ h.place, heq ▸ hexit⟩,
      Or.inl ⟨hpc, d.usb.io.outEnded, by simp, heq ▸ intrOutCb_flags hok⟩⟩
  · have hcallback : d.doIntrIn env status data signal = some d' := by
      simp only [Daemon.step, if_pos hlib] at hs
      exact hs
    have hbegin : (d.usb.intrInBegin env status data).io.doExit ≠ 0 := intrInBegin_doExit h.exit
    have hended : (d.usb.intrInBegin env status data).io.flags = d.usb.io.inEnded.flags :=
      intrInBegin_flags hok
    rcases doIntrIn_usb hcallback with ⟨rfl, a, ha, heq⟩ | ⟨_, heq⟩
    · -- the packet is decoded, but the transfer is not submitted again
      have hio : a.usb.io = (d.usb.intrInBegin env .completed data).io := by
        rw [ha]
        exact decode_muted hok
      have hexit : a.usb.io.doExit ≠ 0 := hio ▸ hbegin
      obtain ⟨hflags, hexit'⟩ : (a.usb.intrInEnd env signal).io.flags = a.usb.io.flags ∧
          (a.usb.intrInEnd env signal).io.doExit ≠ 0 := Usb.intrInEnd_of_exit hexit signal
      refine ⟨⟨hpc ▸ h.place, heq ▸ hexit'⟩, Or.inl ⟨hpc, d.usb.io.inEnded, by simp, ?_⟩⟩
      rw [heq, hflags, hio, hended]
    · exact ⟨⟨hpc ▸ h.place, heq ▸ hbegin⟩,
        Or.inl ⟨hpc, d.usb.io.inEnded, by simp, heq ▸ hended⟩⟩
  · exact (h.not_at hpc rfl (by simp)).elim
  · exact (h.not_at hpc rfl (by simp)).elim
  · have hexit : io.doExit ≠ 0 := (congrArg Prod.fst hsame).trans_ne h.exit
    exact ⟨⟨hpc, heq ▸ hexit⟩, Or.inr ⟨hlabel, by rw [heq]; exact hcancel⟩⟩

theorem Ending.submitCalls (h : d.Ending) (ht : d.Tables env) (hok : d.Muted env label)
    (hs : d.step env label = some d') : d'.usb.io.submitCalls = d.usb.io.submitCalls := by
  rcases (h.step ht hok hs).2 with ⟨_, t, hmem, hflags⟩ | ⟨_, hc⟩
  · have hcalls : d'.usb.io.submitCalls = t.submitCalls := congrArg (fun f => f.2.2) hflags
    simp only [List.mem_cons, List.not_mem_nil, or_false] at hmem
    rcases hmem with rfl | rfl | rfl
    · exact hcalls
    · exact hcalls
    · exact hcalls
  · generalize d'.usb.io = io at hc ⊢
    cases hc with
    | kept | outGone | outAsked | inGone | inAsked => rfl

/-- **Nothing is submitted once the shutdown has begun**, in every run all of whose callbacks
are muted. -/
theorem no_submission (h : Reachable env d) (hpc : d.pc.exiting = true)
    (hrun : Transition.Run (step env) (Muted env) d d') :
    d'.usb.io.submitCalls = d.usb.io.submitCalls := by
  have hend : d'.Ending ∧ d'.usb.io.submitCalls = d.usb.io.submitCalls := by
    induction hrun with
    | refl => exact ⟨⟨Or.inl hpc, (Reachable.agreement h).exiting hpc⟩, rfl⟩
    | tail hu hab ih =>
      obtain ⟨label, hok, hs⟩ := hab
      have ht := Reachable.tables (Relation.ReflTransGen.trans h (Transition.Run.free hu))
      exact ⟨(ih.1.step ht hok hs).1, (ih.1.submitCalls ht hok hs).trans ih.2⟩
  exact hend.2

/-- The main loop is over before its first poll. -/
def stopAtOnce : List Label :=
  [.startTransfers, .initcm1Xa, .createListeners 3 4 5, .signal, .layOut none]

/-- A CM15A that has sent nothing is shut down. -/
theorem no_submission_idle : ∃ d d' : Daemon, Reachable (.plain mochadConfigDefaults false) d ∧
    d.pc.exiting = true ∧
      Transition.Run (step (.plain mochadConfigDefaults false))
        (Muted (.plain mochadConfigDefaults false)) d d' ∧
      d'.usb.io.inOwned = false ∧ d'.usb.io.submitCalls = d.usb.io.submitCalls := by
  have hreach : ∃ d, Reachable (.plain mochadConfigDefaults false) d ∧ (d.pc.exiting = true ∧
      ∃ d' ∈ Transition.exec (step (.plain mochadConfigDefaults false))
        (Muted (.plain mochadConfigDefaults false)) d [.cancel 0, .cancel 0, .drainTurn,
          .intrIn .cancelled [] false, .drained 0, .drainTurn], d'.usb.io.inOwned = false) :=
    Transition.exists_run_of_exec stopAtOnce (by decide +kernel)
  obtain ⟨d, hd, hpc, d', hexec, howned⟩ := hreach
  have hrun := Transition.run_of_exec hexec
  exact ⟨d, d', hd, hpc, hrun, howned, no_submission hd hpc hrun⟩

/-- **A packet can be submitted during the shutdown**: the first packet of a CM19A completes
although it was to be cancelled, and the second one follows. -/
theorem submission_in_shutdown : ¬ ∀ env d d', Reachable env d → d.pc.exiting = true →
    Transition.Run (step env) Transition.Free d d' →
      d'.usb.io.submitCalls = d.usb.io.submitCalls := by
  have hreach : ∃ d, Reachable (.plain mochadConfigDefaults true) d ∧ (d.pc.exiting = true ∧
      d.usb.io.submitCalls = (1, 1) ∧
        ∃ d' ∈ Transition.exec (step (.plain mochadConfigDefaults true)) Transition.Free d
          [.cancel 0, .cancel 0, .drainTurn, .intrOut .completed],
            d'.usb.io.submitCalls = (2, 1)) :=
    Transition.exists_run_of_exec stopAtOnce (by decide +kernel)
  obtain ⟨d, hd, hpc, hbefore, d', hrun, hafter⟩ := hreach
  intro hall
  have hsame := hall _ d d' hd hpc (Transition.run_of_exec hrun)
  rw [hbefore, hafter] at hsame
  exact absurd hsame (by decide)

end Daemon

end Mochad
