import Mochad.Core.InOrder
import Mochad.Core.Slots

/-!
# Clients that take nothing

After each `poll()` the clients are closed that have taken nothing for 30 seconds. The time runs
from `stalledSince`, which is set when `send()` refuses, and cleared when it takes something. But
`send()` is called only for a client that `poll()` reports as writable: the time of a client
whose socket never becomes so does not run, and it stays.

`Watch` is an observer of the daemon. It keeps the time that was read last, and for every slot whose
client has output waiting, what that time was when the output began to wait, or the socket last took
a byte, and the time at which `send()` refused for the first time since it last took a byte of the
queue. After each `poll()` it lists the clients that were overlooked, and those that were wronged.
None is ever wronged; and the runs in which none is overlooked are those whose steps all meet
`Daemon.TriedInTime` (`Daemon.stalled_found_iff`).
-/

namespace Mochad

/-! ### The clock of a queue -/

/-- The time that a field holds in which 0 is no time. -/
def clockOf (t : ℕ) : Option ℕ := if t = 0 then none else some t

namespace ClientOutput

/-- The clock of a queue that the socket refused to take from. -/
theorem clockOf_stalled (q : ClientOutput) (now : ℕ) :
    clockOf (if q.stalledSince = 0 then { q with stalledSince := now } else q).stalledSince =
      (clockOf q.stalledSince).or (clockOf now) := by
  by_cases h : q.stalledSince = 0
  · simp [clockOf, h]
  · simp [clockOf, h]

/-- **What a flush does to the clock.** Where nothing waits any more, it is cleared; where the
socket refused, it runs since the first refusal after the last byte that was taken. -/
theorem clockOf_flush (now : ℕ) (results : List SendResult) (budget : ℕ) (q : ClientOutput)
    (hbudget : q.len < budget) (hq : q.len = 0 → q.stalledSince = 0) :
    ((q.flush now results budget).1.len = 0 → (q.flush now results budget).1.stalledSince = 0) ∧
    ((q.flush now results budget).2.2 = .kept → (q.flush now results budget).1.len ≠ 0 →
      clockOf (q.flush now results budget).1.stalledSince =
        if (q.flush now results budget).2.1 = [] then (clockOf q.stalledSince).or (clockOf now)
        else clockOf now) := by
  have hlen : ∀ q : ClientOutput,
      (if q.stalledSince = 0 then { q with stalledSince := now } else q).len = q.len := by
    intro q
    split
    · rfl
    · rfl
  fun_induction flush now results budget q with
  | case1 results budget q hend =>
    have hempty : q.len = 0 := by omega
    exact ⟨fun _ => hq hempty, fun _ hne => absurd hempty hne⟩
  | case2 budget q hend =>
    refine ⟨fun hzero => ?_, fun _ _ => ?_⟩
    · rw [hlen] at hzero
      exact absurd (Or.inl hzero) hend
    · exact clockOf_stalled q now
  | case3 budget q _ results ih => exact ih hbudget hq
  | case4 budget q hend =>
    refine ⟨fun hzero => ?_, fun _ _ => ?_⟩
    · rw [hlen] at hzero
      exact absurd (Or.inl hzero) hend
    · exact clockOf_stalled q now
  | case5 budget q hend =>
    exact ⟨fun hzero => absurd (Or.inl hzero) hend, by rintro ⟨⟩⟩
  | case6 budget q hend =>
    refine ⟨fun hzero => ?_, fun _ _ => ?_⟩
    · rw [hlen] at hzero
      exact absurd (Or.inl hzero) hend
    · exact clockOf_stalled q now
  | case7 budget q hend n results written hwritten r ih =>
    have hle : written ≤ q.len := by
      have hpeek : q.peek.length ≤ q.len := by simp [peek]
      exact ((Nat.min_le_right ..).trans (Nat.min_le_left ..)).trans hpeek
    have hrest : (consume { q with stalledSince := 0 } written).len = q.len - written := by
      rw [consume]
      split
      next hall => exact (Nat.sub_eq_zero_of_le hall).symm
      · rfl
    have hzero : (consume { q with stalledSince := 0 } written).stalledSince = 0 := by
      rw [consume]
      split
      · rfl
      · rfl
    obtain ⟨hcleared, hrefused⟩ := ih (by omega) fun _ => hzero
    refine ⟨hcleared, fun hkept hne => ?_⟩
    have htaken : q.peek.take written ++ r.2.1 ≠ [] := by
      have hpos : (q.peek.take written).length ≠ 0 := by
        have hpeek : written ≤ q.peek.length := (Nat.min_le_right ..).trans (Nat.min_le_left ..)
        rw [List.length_take]
        omega
      exact fun hnil => hpos (by rw [(List.append_eq_nil_iff.mp hnil).1]; rfl)
    rw [if_neg htaken]
    refine (hrefused hkept hne).trans ?_
    rw [hzero]
    split
    · rfl
    · rfl

end ClientOutput

/-- What `send()` took on this descriptor, if it was called. -/
def Ev.sentOn (fd : ℤ) : Ev → Option Bytes
  | .sent _ f bytes _ => if f = fd then some bytes else none
  | _ => none

/-- **A slot that is not flushed**: its client stays, with the same clock and no less waiting, or
goes. -/
structure Slot.Grown (v v' : Slot) : Prop where
  fd : v'.fd = v.fd
  clock : v'.output.stalledSince = v.output.stalledSince
  len : v.output.len ≤ v'.output.len
  vacant : v.fd = -1 → v'.output.len = v.output.len
  fits : v.output.len ≤ clientOutputQueueSize → v'.output.len ≤ clientOutputQueueSize

/-- A slot that its client has left. -/
structure Slot.Left (v : Slot) : Prop where
  fd : v.fd = -1
  clock : v.output.stalledSince = 0
  len : v.output.len = 0

theorem Slot.Grown.refl (v : Slot) : v.Grown v := ⟨rfl, rfl, le_rfl, fun _ => rfl, fun h => h⟩

theorem Slot.Grown.trans {v v' v'' : Slot} (h : v.Grown v') (h' : v'.Grown v'') : v.Grown v'' :=
  ⟨h'.fd.trans h.fd, h'.clock.trans h.clock, h.len.trans h'.len,
    fun hv => (h'.vacant (h.fd.trans hv)).trans (h.vacant hv), fun hv => h'.fits (h.fits hv)⟩

theorem Slot.Left.grown {v v' : Slot} (h : v.Left) (h' : v.Grown v') : v'.Left :=
  ⟨h'.fd.trans h.fd, h'.clock.trans h.clock, (h'.vacant h.fd).trans h.len⟩

theorem Slot.left_freed (v : Slot) : (Clients.Slot.freed v).Left := ⟨rfl, rfl, rfl⟩

/-- **What is known about the output that waits** for the client of a slot. -/
structure Wait where
  /-- The last time that had been read when it began to wait, or the socket last took a byte. -/
  since : ℕ
  /-- When `send()` first refused since it last took a byte of the queue; 0 is no time. -/
  refused : Option ℕ

/-- **What an observer keeps**: the time that was read last, how long output waits for each slot,
and the slots whose clients were overlooked, or wronged, after a `poll()`. -/
structure Watch where
  clock : ℕ
  waits : SlotId → Wait
  overlooked : List SlotId
  wronged : List SlotId

/-- **The clock of a slot is what the observer sees.** -/
structure Slot.Clocked (v : Slot) (w : Wait) : Prop where
  fits : v.output.len ≤ clientOutputQueueSize
  vacant : v.fd = -1 → v.output.len = 0
  idle : v.output.len = 0 → v.output.stalledSince = 0
  refused : w.refused = clockOf v.output.stalledSince

namespace Daemon

variable {env : Env} {d d' : Daemon}

/-- No slot is flushed or filled. -/
def Growing (d d' : Daemon) : Prop :=
  ∀ s, (d.clients.slot s).Grown (d'.clients.slot s) ∨ (d'.clients.slot s).Left

theorem growing_of_clients (h : d'.clients = d.clients) : d.Growing d' := fun s => by
  rw [h]
  exact Or.inl (Slot.Grown.refl _)

theorem Growing.trans {d₁ : Daemon} (h : d.Growing d₁) (h' : d₁.Growing d') : d.Growing d' := by
  intro s
  rcases h' s with hgrown | hleft
  · rcases h s with hbefore | hbefore
    · exact Or.inl (hbefore.trans hgrown)
    · exact Or.inr (hbefore.grown hgrown)
  · exact Or.inr hleft

theorem growing_delClient (d : Daemon) (fd : ℤ) : d.Growing (d.delClient fd) := by
  rw [delClient]
  split
  · exact growing_of_clients rfl
  next t _ =>
    intro s
    rcases eq_or_ne s t with rfl | hne
    · rw [closeSlot_self]
      exact Or.inr (Slot.left_freed _)
    · rw [d.closeSlot_of_ne hne]
      exact Or.inl (Slot.Grown.refl _)

theorem growing_sendAll (env : Env) (d : Daemon) (fd : ℤ) (bytes : Bytes) :
    d.Growing (d.sendAll env fd bytes).1 := by
  rw [sendAll]
  split
  · exact growing_of_clients rfl
  · exact growing_of_clients rfl

/-- **A text joins a queue**, or closes its client. -/
theorem growing_queueClientBytes (d : Daemon) {fd : ℤ} (hfd : fd ≠ -1) (bytes : Bytes) :
    d.Growing (d.queueClientBytes env fd bytes).1 := by
  rw [queueClientBytes]
  split
  · exact growing_of_clients rfl
  have haddressed : d.Growing (d.record (.addressed (d.connAt fd) fd bytes)) :=
    growing_of_clients rfl
  refine haddressed.trans ?_
  generalize d.record (.addressed (d.connAt fd) fd bytes) = a
  rw [enqueueBytes]
  split
  · exact growing_sendAll env a fd bytes
  next t ht =>
    split
    next output henq =>
      intro s
      show (a.clients.slot s).Grown ((a.setOutput t output).clients.slot s) ∨ _
      rcases eq_or_ne s t with rfl | hne
      · obtain ⟨hlen, hfits⟩ := ClientOutput.len_enqueue henq
        have hclock : output.stalledSince = (a.clients.slot s).output.stalledSince := by
          simp only [ClientOutput.enqueue] at henq
          split at henq
          · cases henq
          · obtain rfl := Option.some.inj henq
            rfl
        rw [setOutput_self]
        refine Or.inl ⟨rfl, hclock, ?_, fun hneg => ?_, hfits⟩
        · show _ ≤ output.len
          omega
        · exact absurd ((Clients.fd_of_find ht).symm.trans hneg) hfd
      · rw [setOutput_of_ne a output hne]
        exact Or.inl (Slot.Grown.refl _)
    · exact growing_delClient a fd

/-- What queueing keeps. -/
theorem queueing_growing (env : Env) (d : Daemon) : Queueing env d.Growing where
  x10 := fun _ _ h => h
  stamp := fun _ h => h
  write := fun _ _ h => h
  queue := fun a _ bytes hfd h => h.trans (growing_queueClientBytes a hfd bytes)

theorem growing_disconnectStalledClients (d : Daemon) (now : ℕ) :
    d.Growing (d.disconnectStalledClients now) := by
  rw [disconnectStalledClients]
  induction Clients.slotOrder generalizing d with
  | nil => exact growing_of_clients rfl
  | cons s ss ih =>
    rw [List.foldl_cons]
    refine Growing.trans ?_ (ih _)
    split
    · exact growing_delClient d _
    · exact growing_of_clients rfl

theorem growing_setState (d : Daemon) (t : SlotId) (state : EncodeState) :
    d.Growing (d.setState t state) := by
  intro s
  have hout : ((d.setState t state).clients.slot s).output = (d.clients.slot s).output :=
    setState_output d t s state
  refine Or.inl ⟨setState_fd d t s state, ?_, ?_, fun _ => ?_, fun h => ?_⟩
  · rw [hout]
  · rw [hout]
  · rw [hout]
  · rwa [hout]

/-- **A packet is decoded.** -/
theorem growing_decode (hneg : d.descs (-1) = none) (data : Bytes) :
    d.Growing (d.decode env data) := by
  have hbuf : d.Growing { d with intrInBuf := memcpy d.intrInBuf data } := growing_of_clients rfl
  exact (queueing_growing env d).decode hneg data hbuf

/-- **A line is executed.** -/
theorem growing_processcommandline (hneg : d.descs (-1) = none) {fd : ℤ} (hfd : fd ≠ -1)
    (line : Bytes) : d.Growing (d.processcommandline env fd line) := by
  have hself : d.Growing d := growing_of_clients rfl
  by_cases hp : IsPolicyRequest line
  · rw [processcommandline_policy_eq hp]
    have haddressed : ∀ x, d.Growing (({ d with x10 := x } : Daemon).record
        (.addressed (d.connAt fd) fd domainPolicy)) := fun _ => growing_of_clients rfl
    exact (haddressed _).trans (growing_sendAll env _ fd domainPolicy)
  · exact (queueing_growing env d).processcommandline hneg hfd hp hself

theorem growing_runLine (hneg : d.descs (-1) = none) {r : Reading} (hfd : r.fd ≠ -1)
    (line : Bytes) : d.Growing (d.runLine env r line) := by
  have hcommand : d.Growing (d.record (.command r.conn r.fd line)) := growing_of_clients rfl
  have hneg' : (d.record (.command r.conn r.fd line)).descs (-1) = none := hneg
  rw [runLine]
  generalize d.record (.command r.conn r.fd line) = a at hcommand hneg' ⊢
  have hline := hcommand.trans (growing_processcommandline hneg' hfd line : a.Growing (a.processcommandline env r.fd line))
  split
  · exact hline.trans (growing_delClient _ _)
  · exact hline

/-- **Only a turn of the service loop flushes a queue, and only `accept()` fills a slot.** -/
theorem step_growing (ht : d.Tables env) {label : Label} (hs : d.step env label = some d')
    (hlabel : ∀ results now read, label ≠ .service results now read) (s : SlotId) :
    ((d.clients.slot s).Grown (d'.clients.slot s) ∨ (d'.clients.slot s).Left) ∨
      ((d.clients.slot s).fd = -1 ∧ (d'.clients.slot s).Fresh) := by
  have hgrowing : d.Growing d' → _ ∨ ((d.clients.slot s).fd = -1 ∧ (d'.clients.slot s).Fresh) :=
    fun h => Or.inl (h s)
  rcases step_case hs with hi | ⟨usb, now, pc, _, _, _, rfl⟩ | ⟨usb, usb', data, _, rfl⟩ |
    ⟨fd, desc, _, _, _, rfl⟩ | ⟨main, xml, or20, hpc, hl⟩ |
    ⟨snap, nready, kind, fd, nb, hpc, _, _, rfl⟩ | ⟨l, results, now, read, rfl, _, _⟩ |
    ⟨l, r, _, hpc, hb⟩ | ⟨l, r, hpc, he⟩
  · exact hgrowing (growing_of_clients hi.clients)
  · have hpolled : d.Growing { d with usb := usb } := growing_of_clients rfl
    have hpc : ∀ a : Daemon, a.Growing { a with pc := pc } := fun _ => growing_of_clients rfl
    exact hgrowing ((hpolled.trans (growing_disconnectStalledClients _ now)).trans (hpc _))
  · have husb : ∀ (a : Daemon) (u : Usb), a.Growing { a with usb := u } :=
      fun _ _ => growing_of_clients rfl
    have hdecoded : ∀ a : Daemon, a.descs (-1) = none → a.Growing (a.decode env data) :=
      fun _ hneg => growing_decode hneg data
    exact hgrowing (((husb d usb).trans (hdecoded _ ht.descs)).trans (husb _ usb'))
  · exact hgrowing (growing_of_clients rfl)
  · simp only [doCreateListeners] at hl
    split at hl
    · split at hl
      · obtain rfl := Option.some.inj hl
        exact hgrowing (growing_of_clients rfl)
      · obtain rfl := Option.some.inj hl
        exact Or.inl (Or.inr ⟨rfl, rfl, rfl⟩)
    · cases hl
  · have hrun : (d.addAccepted env kind fd nb).pc.stage = .running := by
      rw [addAccepted_pc, hpc]
      rfl
    rw [(idle_afterAccept hrun snap nready kind).clients]
    rcases addAccepted_cases env d kind fd nb with ⟨t, htfree, heq⟩ | heq
    · rw [heq]
      show ((d.clients.slot s).Grown ((d.clients.take t fd).slot s) ∨
        ((d.clients.take t fd).slot s).Left) ∨ _ ∧ ((d.clients.take t fd).slot s).Fresh
      rcases eq_or_ne s t with rfl | hne
      · have hself : (d.clients.take s fd).slot s = Clients.Slot.taken (d.clients.slot s) fd
          d.clients.nextId := Clients.set_slot_self ..
        rw [hself]
        exact Or.inr ⟨(Clients.firstFree_spec htfree).2, Clients.Slot.fresh_taken _ _ _⟩
      · have hother : (d.clients.take t fd).slot s = d.clients.slot s :=
          Clients.set_slot_of_ne d.clients _ hne
        rw [hother]
        exact Or.inl (Or.inl (Slot.Grown.refl _))
    · rw [heq]
      exact Or.inl (Or.inl (Slot.Grown.refl _))
  · exact absurd rfl (hlabel results now read)
  · obtain ⟨b, rest, _, hcase⟩ := doByte_cases hb
    have hafter : d.Growing (d.afterByte l r b rest) := growing_setState d r.slot _
    rcases hcase with ⟨_, rfl⟩ | ⟨line, _, rfl⟩
    · exact hgrowing hafter
    · exact hgrowing (hafter.trans (growing_runLine (ht.afterByte hpc b rest).descs
        (ht.reading l r hpc) line))
  · obtain ⟨_, rfl⟩ := doEncoded_eq he
    have hcounted : ∀ a : Daemon, (a.counted l r.visit).clients = a.clients := by
      intro a
      simp only [counted]
      split
      · rfl
      · rfl
    exact hgrowing ((growing_setState d r.slot _).trans (growing_of_clients (hcounted _)))

/-! ### What a turn of the service loop sends -/

/-- What a step added to the log. -/
def newEvents (d d' : Daemon) : List Ev := d'.log.take (d'.log.length - d.log.length)

theorem newEvents_eq {es : List Ev} (h : d'.log = es ++ d.log) : newEvents d d' = es := by
  rw [newEvents, h, List.length_append, Nat.add_sub_cancel, List.take_left]

/-- What `send()` took on the descriptor of a slot in a step, call by call. -/
def sends (d d' : Daemon) (s : SlotId) : List Bytes :=
  (newEvents d d').filterMap (Ev.sentOn (d.clients.slot s).fd)

/-- A client has output waiting. -/
def pending (d : Daemon) (s : SlotId) : Bool :=
  (d.clients.slot s).fd ≠ -1 && 0 < (d.clients.slot s).output.len

theorem pending_iff {s : SlotId} : d.pending s = true ↔
    (d.clients.slot s).fd ≠ -1 ∧ (d.clients.slot s).output.len ≠ 0 := by
  rw [pending, Bool.and_eq_true, decide_eq_true_eq, decide_eq_true_eq, Nat.pos_iff_ne_zero]

/-- **Nothing is sent**, and no queue changes, but that clients may be closed. -/
structure Untouched (d d' : Daemon) : Prop where
  slots : ∀ s, d'.clients.slot s = d.clients.slot s ∨ (d'.clients.slot s).Left
  log : ∃ es, d'.log = es ++ d.log ∧ ∀ e ∈ es, ∀ fd, e.sentOn fd = none

theorem Untouched.trans {d₁ : Daemon} (h : d.Untouched d₁) (h' : d₁.Untouched d') :
    d.Untouched d' := by
  obtain ⟨es, hes, hnone⟩ := h.log
  obtain ⟨es', hes', hnone'⟩ := h'.log
  refine ⟨fun s => ?_, es' ++ es, by rw [hes', hes, List.append_assoc], fun e he => ?_⟩
  · rcases h'.slots s with heq | hleft
    · rw [heq]
      exact h.slots s
    · exact Or.inr hleft
  · rcases List.mem_append.mp he with he | he
    · exact hnone' e he
    · exact hnone e he

theorem untouched_of_same (hclients : d'.clients = d.clients) (hlog : d'.log = d.log) :
    d.Untouched d' := ⟨fun s => Or.inl (by rw [hclients]), [], hlog, fun _ he => nomatch he⟩

theorem untouched_of_cons (hclients : d'.clients = d.clients) {e : Ev}
    (hlog : d'.log = e :: d.log) (he : ∀ fd, e.sentOn fd = none) : d.Untouched d' :=
  ⟨fun s => Or.inl (by rw [hclients]), [e], hlog, fun x hx => by rwa [List.mem_singleton.mp hx]⟩

theorem untouched_delClient (d : Daemon) (fd : ℤ) : d.Untouched (d.delClient fd) := by
  rw [delClient]
  split
  · exact untouched_of_same rfl rfl
  next t _ =>
    refine ⟨fun s => ?_, [_], rfl, fun e he fd => by rw [List.mem_singleton.mp he]; rfl⟩
    rcases eq_or_ne s t with rfl | hne
    · rw [closeSlot_self]
      exact Or.inr (Slot.left_freed _)
    · exact Or.inl (d.closeSlot_of_ne hne)

theorem untouched_counted (d : Daemon) (l : ServiceLoop) (v : Visit) :
    d.Untouched (d.counted l v) := by
  rcases counted_cases d l v with ⟨_, heq⟩ | ⟨_, heq⟩
  · rw [heq]
    exact untouched_of_cons rfl rfl fun _ => rfl
  · rw [heq]
    exact untouched_of_same rfl rfl

/-- **The part of a turn that reads** sends nothing. -/
theorem untouched_doPollin {l : ServiceLoop} {e : PollEntry} {v : Visit} {read : ReadResult}
    (h : d.doPollin l e v read = some d') : d.Untouched d' := by
  have hservicing : d.Untouched (d.servicing e) := untouched_of_cons rfl rfl fun _ => rfl
  rcases doPollin_eq h with rfl | rfl | ⟨s, bytes, _, rfl⟩
  · exact (hservicing.trans (untouched_delClient _ e.fd)).trans (untouched_counted _ l v)
  · exact hservicing.trans (untouched_counted _ l v)
  · have hreceived : (d.servicing e).Untouched
        ((d.servicing e).record (.received (d.connAt e.fd) e.fd bytes)) :=
      untouched_of_cons rfl rfl fun _ => rfl
    exact hservicing.trans (hreceived.trans (untouched_of_same rfl rfl))

theorem sends_of_untouched (h : d.Untouched d') (s : SlotId) : d.sends d' s = [] := by
  obtain ⟨es, hes, hnone⟩ := h.log
  rw [sends, newEvents_eq hes, List.filterMap_eq_nil_iff]
  exact fun e he => hnone e he _

/-- One call of `send()`, and nothing else. -/
theorem sends_of_sent {d₁ d₂ : Daemon} (h₁ : d.Untouched d₁) {conn : Option ℕ} {fd : ℤ}
    {bytes : Bytes} {ok : Bool} (hlog : d₂.log = .sent conn fd bytes ok :: d₁.log)
    (h₂ : d₂.Untouched d') (s : SlotId) :
    d.sends d' s = if fd = (d.clients.slot s).fd then [bytes] else [] := by
  obtain ⟨es₁, hes₁, hnone₁⟩ := h₁.log
  obtain ⟨es₂, hes₂, hnone₂⟩ := h₂.log
  have hes : d'.log = (es₂ ++ .sent conn fd bytes ok :: es₁) ++ d.log := by
    rw [hes₂, hlog, hes₁, List.append_assoc, List.cons_append]
  have hsilent : ∀ {es : List Ev}, (∀ e ∈ es, ∀ fd, e.sentOn fd = none) →
      es.filterMap (Ev.sentOn (d.clients.slot s).fd) = [] := fun hes =>
    List.filterMap_eq_nil_iff.mpr fun e he => hes e he _
  rw [sends, newEvents_eq hes, List.filterMap_append, hsilent hnone₂, List.nil_append]
  have hon : Ev.sentOn (d.clients.slot s).fd (.sent conn fd bytes ok) =
      if fd = (d.clients.slot s).fd then some bytes else none := rfl
  by_cases hfd : fd = (d.clients.slot s).fd
  · rw [if_pos hfd] at hon ⊢
    rw [List.filterMap_cons_some hon, hsilent hnone₁]
  · rw [if_neg hfd] at hon ⊢
    rw [List.filterMap_cons_none hon, hsilent hnone₁]

/-- How a slot is after a turn of the service loop in which `send()` was called for it. -/
structure Flushed (d d' : Daemon) (results : List SendResult) (now : ℕ) (s : SlotId) : Prop where
  live : (d.clients.slot s).fd ≠ -1
  pending : (d.clients.slot s).output.len ≠ 0
  sends : d.sends d' s =
    [((d.clients.slot s).output.flush now results clientWriteBudgetPerLoop).2.1]
  slot : (((d.clients.slot s).output.flush now results clientWriteBudgetPerLoop).2.2 = .kept ∧
      (d'.clients.slot s).fd = (d.clients.slot s).fd ∧ (d'.clients.slot s).output =
        ((d.clients.slot s).output.flush now results clientWriteBudgetPerLoop).1) ∨
    (d'.clients.slot s).Left

/-- Where nothing waits, a flush does nothing. -/
theorem flushClientOutput_of_empty {t : SlotId} (hempty : (d.clients.slot t).output.len = 0)
    (results : List SendResult) (now : ℕ) :
    d.flushClientOutput t results now = d.setOutput t (d.clients.slot t).output := by
  have hflush : (d.clients.slot t).output.flush now results clientWriteBudgetPerLoop =
      ((d.clients.slot t).output, [], .kept) := by
    rw [ClientOutput.flush, if_pos (Or.inl hempty)]
  simp only [flushClientOutput, hflush, if_pos hempty]
  rfl

/-- Where something waits, it is sent as far as the socket takes it. -/
theorem flushClientOutput_of_pending {t : SlotId} (hne : (d.clients.slot t).output.len ≠ 0)
    (results : List SendResult) (now : ℕ) {r : ClientOutput × Bytes × ClientOutput.FlushEnd}
    (hr : r = (d.clients.slot t).output.flush now results clientWriteBudgetPerLoop) :
    ∃ d₁ : Daemon, d₁.clients = (d.setOutput t r.1).clients ∧
      d₁.log = .sent (d.connAt (d.clients.slot t).fd) (d.clients.slot t).fd r.2.1
        (r.2.2 = .kept) :: d.log ∧
      d.flushClientOutput t results now =
        if r.2.2 = .failed then d₁.delClient (d.clients.slot t).fd else d₁ := by
  refine ⟨(d.setOutput t r.1).record (.sent (d.connAt (d.clients.slot t).fd)
    (d.clients.slot t).fd r.2.1 (r.2.2 = .kept)), rfl, rfl, ?_⟩
  simp only [flushClientOutput, if_neg hne, ← hr]
  rfl

/-- **A flush**, and what follows it in the turn. -/
theorem flushClientOutput_slot (ht : d.Tables env) {e : PollEntry} {t : SlotId}
    (hlive : (d.clients.slot t).fd ≠ -1) (results : List SendResult) (now : ℕ)
    (h : ((d.servicing e).flushClientOutput t results now).Untouched d') (s : SlotId) :
    (d.sends d' s = [] ∧
      (d'.clients.slot s = d.clients.slot s ∨ (d'.clients.slot s).Left)) ∨
    d.Flushed d' results now s := by
  have hservicing : d.Untouched (d.servicing e) := untouched_of_cons rfl rfl fun _ => rfl
  by_cases hempty : (d.clients.slot t).output.len = 0
  · have hsame : (d.servicing e).Untouched
        ((d.servicing e).setOutput t (d.clients.slot t).output) := by
      refine ⟨fun s => Or.inl ?_, [], rfl, fun _ he => nomatch he⟩
      rcases eq_or_ne s t with rfl | hne
      · exact setOutput_self (d.servicing e) s _
      · exact setOutput_of_ne (d.servicing e) _ hne
    rw [flushClientOutput_of_empty (d := d.servicing e) hempty] at h
    have hall := (hservicing.trans hsame).trans h
    exact Or.inl ⟨sends_of_untouched hall s, hall.slots s⟩
  · obtain ⟨d₁, hclients, hlog, heq⟩ := flushClientOutput_of_pending (d := d.servicing e) hempty
      results now rfl
    have hself : d₁.clients.slot t = { d.clients.slot t with output :=
        ((d.clients.slot t).output.flush now results clientWriteBudgetPerLoop).1 } := by
      rw [hclients]
      exact setOutput_self (d.servicing e) t _
    have hother : ∀ s, s ≠ t → d₁.clients.slot s = d.clients.slot s := by
      intro s hne
      rw [hclients]
      exact setOutput_of_ne (d.servicing e) _ hne
    have hafter : d₁.Untouched d' := by
      refine Untouched.trans ?_ h
      rw [heq]
      split
      · exact untouched_delClient d₁ _
      · exact untouched_of_same rfl rfl
    have hsends := sends_of_sent hservicing hlog hafter s
    rcases eq_or_ne s t with rfl | hne
    · refine Or.inr ⟨hlive, hempty, hsends.trans (if_pos rfl), ?_⟩
      rcases hafter.slots s with hslot | hleft
      · cases hend : ((d.clients.slot s).output.flush now results clientWriteBudgetPerLoop).2.2 with
        | kept =>
          rw [hslot, hself]
          exact Or.inl ⟨rfl, rfl, rfl⟩
        | failed =>
          -- the client was closed at once
          have hclosed : ((d₁.delClient (d.clients.slot s).fd).clients.slot s).Left := by
            have hwf : d₁.clients.Wf := by
              rw [hclients]
              exact ht.wf.set rfl
            have hfd : (d₁.clients.slot s).fd = (d.clients.slot s).fd := by rw [hself]
            have hfind := hwf.find_eq (hfd.symm ▸ hlive)
            rw [hfd] at hfind
            simp only [delClient, hfind, closeSlot_self]
            exact Slot.left_freed _
          rw [show (d.servicing e).flushClientOutput s results now = _ from heq.trans (if_pos hend)] at h
          rcases h.slots s with hslot' | hleft
          · exact Or.inr (hslot' ▸ hclosed)
          · exact Or.inr hleft
      · exact Or.inr hleft
    · have hfd : (d.clients.slot t).fd ≠ (d.clients.slot s).fd := fun heq =>
        hne (ht.wf.distinct t s hlive heq).symm
      refine Or.inl ⟨hsends.trans (if_neg hfd), ?_⟩
      rw [← hother s hne]
      exact hafter.slots s

/-- **A slot in a turn of the service loop**: `send()` is not called for it, or its queue is
flushed. -/
theorem doService_slot (ht : d.Tables env) {l : ServiceLoop} {results : List SendResult} {now : ℕ}
    {read : ReadResult} (hs : d.doService l results now read = some d') (s : SlotId) :
    (d.sends d' s = [] ∧
      (d'.clients.slot s = d.clients.slot s ∨ (d'.clients.slot s).Left)) ∨
    d.Flushed d' results now s := by
  have hquiet : d.Untouched d' → d.sends d' s = [] ∧
      (d'.clients.slot s = d.clients.slot s ∨ (d'.clients.slot s).Left) := fun h =>
    ⟨sends_of_untouched h s, h.slots s⟩
  obtain ⟨_, e, _, ⟨_, rfl⟩ | ⟨hpos, d₁, flushed, rfl, _, hcase⟩⟩ := doService_cases hs
  · exact Or.inl (hquiet (untouched_of_same rfl rfl))
  have hafter : (if e.revents.pollout then d.doPollout e results now else d).Untouched d' := by
    rcases hcase with ⟨_, _, rfl⟩ | ⟨_, ⟨_, hread⟩ | ⟨_, rfl⟩⟩
    · exact untouched_of_same rfl rfl
    · exact untouched_doPollin hread
    · exact untouched_of_same rfl rfl
  split at hafter
  · rcases doPollout_eq d e results now with ⟨_, heq⟩ | ⟨t, hfound, heq⟩
    · rw [heq] at hafter
      exact Or.inl (hquiet hafter)
    · have hlive : (d.clients.slot t).fd ≠ -1 := by
        rw [Clients.fd_of_find hfound]
        omega
      rw [heq] at hafter
      exact flushClientOutput_slot ht hlive results now hafter s
  · exact Or.inl (hquiet hafter)

/-! ### Who is closed after a poll -/

/-- **`disconnect_stalled_clients` closes the stalled clients**, and no others. -/
theorem disconnectStalledClients_slot (hwf : d.clients.Wf) (now : ℕ) (s : SlotId) :
    (d.disconnectStalledClients now).clients.slot s =
      if stalled now (d.clients.slot s) then Clients.Slot.freed (d.clients.slot s)
      else d.clients.slot s := by
  have hall : ∀ ss : List SlotId, ss.Nodup → ∀ a : Daemon, a.clients.Wf →
      (ss.foldl (fun d s => if stalled now (d.clients.slot s) then
        d.delClient (d.clients.slot s).fd else d) a).clients.slot s =
        if s ∈ ss ∧ stalled now (a.clients.slot s) = true then Clients.Slot.freed (a.clients.slot s)
        else a.clients.slot s := by
    intro ss hss
    induction ss with
    | nil =>
      intro a _
      simp
    | cons t ss ih =>
      intro a ha
      obtain ⟨ht, hss'⟩ := List.nodup_cons.mp hss
      rw [List.foldl_cons]
      by_cases hst : stalled now (a.clients.slot t) = true
      · have hlive : (a.clients.slot t).fd ≠ -1 := fun hneg => by simp [stalled, hneg] at hst
        have hclosed : a.delClient (a.clients.slot t).fd = a.closeSlot t := by
          rw [delClient, ha.find_eq hlive]
        rw [if_pos hst, hclosed, ih hss' _ (ha.free hlive)]
        rcases eq_or_ne s t with rfl | hne
        · rw [if_neg fun h => ht h.1, if_pos ⟨List.mem_cons_self, hst⟩, closeSlot_self]
        · rw [a.closeSlot_of_ne hne]
          simp [List.mem_cons, hne]
      · rw [if_neg hst, ih hss' a ha]
        rcases eq_or_ne s t with rfl | hne
        · rw [if_neg fun h => ht h.1, if_neg fun h => hst h.2]
        · simp [List.mem_cons, hne]
  rw [disconnectStalledClients, hall Clients.slotOrder Clients.nodup_slotOrder d hwf]
  simp [Clients.mem_slotOrder]

/-! ### The observer -/

/-- The time that a step reads: after `poll()`, and when `send()` refuses. -/
def timeRead (d : Daemon) (label : Label) (d' : Daemon) : Option ℕ :=
  match label with
  | .pollReturned _ now => some now
  | .service _ now _ =>
      if Clients.slotOrder.any fun s => d'.pending s && d.sends d' s ≠ [] then some now else none
  | _ => none

/-- **The wait of a slot after a step**, and the time that was read last. A wait begins where
nothing waited before, and begins anew with a byte that the socket takes; a byte of the queue also
forgets the refusal. -/
def waitAfter (d : Daemon) (label : Label) (d' : Daemon) (clock : ℕ) (s : SlotId) (w : Wait) :
    Wait :=
  let taken := (d.sends d' s).any (· ≠ [])
  if d'.pending s then
    { since := if d.pending s && !taken then w.since else clock
      refused := match label with
        | .service _ now _ => if d.sends d' s = [] then w.refused
            else if taken then clockOf now else w.refused.or (clockOf now)
        | _ => w.refused }
  else ⟨clock, none⟩

/-- A time is long enough ago. -/
def late (now t : ℕ) : Bool := t + clientStalledTimeoutSeconds ≤ now

/-- **The observer.** After a `poll()` it looks for clients who are still there although output
has waited for 30 seconds, and for clients who are not although it had not. -/
def observe (d : Daemon) (label : Label) (d' : Daemon) (w : Watch) : Watch where
  clock := (d.timeRead label d').getD w.clock
  waits := fun s => d.waitAfter label d' ((d.timeRead label d').getD w.clock) s (w.waits s)
  overlooked := match label with
    | .pollReturned _ now => (Clients.slotOrder.filter fun s =>
        d'.pending s && late now (w.waits s).since) ++ w.overlooked
    | _ => w.overlooked
  wronged := match label with
    | .pollReturned _ now => (Clients.slotOrder.filter fun s =>
        (d.clients.slot s).fd ≠ -1 && (d'.clients.slot s).fd = -1 &&
          !(w.waits s).refused.any (late now)) ++ w.wronged
    | _ => w.wronged

/-- **Every client is tried in time**: when `poll()` returns and output has waited for a client
for 30 seconds, `send()` has refused to take it at least 30 seconds before. -/
def TriedInTime (p : Daemon × Watch) : Label → Prop
  | .pollReturned _ now => ∀ s, p.1.pending s = true →
      late now (p.2.waits s).since = true → (p.2.waits s).refused.any (late now) = true
  | _ => True

/-- The observer at the beginning. -/
def unwatched : Watch := ⟨0, fun _ => ⟨0, none⟩, [], []⟩

/-- Where nothing waits, nothing has been refused. -/
theorem clocked_of_not_pending {s : SlotId} {w : Wait} (hfits : (d'.clients.slot s).output.len ≤
      clientOutputQueueSize) (hvacant : (d'.clients.slot s).fd = -1 →
      (d'.clients.slot s).output.len = 0) (hidle : (d'.clients.slot s).output.len = 0 →
      (d'.clients.slot s).output.stalledSince = 0) (label : Label) (clock : ℕ)
    (hnot : d'.pending s = false) :
    (d'.clients.slot s).Clocked (d.waitAfter label d' clock s w) := by
  refine ⟨hfits, hvacant, hidle, ?_⟩
  have hempty : (d'.clients.slot s).output.len = 0 := by
    by_contra hne
    exact absurd (pending_iff.mpr ⟨fun hneg => hne (hvacant hneg), hne⟩) (by simp [hnot])
  simp only [waitAfter, hnot, hidle hempty]
  rfl

theorem clocked_of_left {s : SlotId} {w : Wait} (h : (d'.clients.slot s).Left) (label : Label)
    (clock : ℕ) :
    (d'.clients.slot s).Clocked (d.waitAfter label d' clock s w) :=
  clocked_of_not_pending (by rw [h.len]; exact Nat.zero_le _) (fun _ => h.len) (fun _ => h.clock)
    label clock (by simp [pending, h.fd])

/-- **A step that is no turn of the service loop** leaves the clocks alone. -/
theorem clocked_step (ht : d.Tables env) {label : Label} (hs : d.step env label = some d')
    (hlabel : ∀ results now read, label ≠ .service results now read) {s : SlotId} {w : Wait}
    (hw : (d.clients.slot s).Clocked w) (clock : ℕ) :
    (d'.clients.slot s).Clocked (d.waitAfter label d' clock s w) := by
  rcases step_growing ht hs hlabel s with (hgrown | hleft) | ⟨_, hfresh⟩
  · have hvacant : (d'.clients.slot s).fd = -1 → (d'.clients.slot s).output.len = 0 := fun hneg =>
      (hgrown.vacant (hgrown.fd.symm.trans hneg)).trans (hw.vacant (hgrown.fd.symm.trans hneg))
    have hidle : (d'.clients.slot s).output.len = 0 →
        (d'.clients.slot s).output.stalledSince = 0 := fun hempty =>
      hgrown.clock.trans (hw.idle (Nat.le_zero.mp (hempty ▸ hgrown.len)))
    by_cases hpending : d'.pending s = true
    · refine ⟨hgrown.fits hw.fits, hvacant, hidle, ?_⟩
      have hkept : (d.waitAfter label d' clock s w).refused = w.refused := by
        simp only [waitAfter, hpending, if_true]
      rw [hkept, hgrown.clock, hw.refused]
    · exact clocked_of_not_pending (hgrown.fits hw.fits) hvacant hidle label clock
        (Bool.eq_false_iff.mpr hpending)
  · exact clocked_of_left hleft label clock
  · have hempty := (ClientOutput.contents_eq_nil_iff _).mp hfresh.output
    refine clocked_of_not_pending (by rw [hempty]; exact Nat.zero_le _) (fun _ => hempty)
      (fun _ => hfresh.stalled) label clock ?_
    simp [pending, hempty]

/-- **A turn of the service loop** sets the clocks as the observer does. -/
theorem clocked_service (ht : d.Tables env) {l : ServiceLoop} {results : List SendResult} {now : ℕ}
    {read : ReadResult} (hs : d.doService l results now read = some d') {s : SlotId} {w : Wait}
    (hw : (d.clients.slot s).Clocked w) (clock : ℕ) :
    (d'.clients.slot s).Clocked (d.waitAfter (.service results now read) d' clock s w) := by
  rcases doService_slot ht hs s with ⟨hnone, heq | hleft⟩ | hflushed
  · by_cases hpending : d'.pending s = true
    · have hkept : (d.waitAfter (.service results now read) d' clock s w).refused = w.refused := by
        simp only [waitAfter, hpending, if_true, hnone]
      rw [heq]
      exact ⟨hw.fits, hw.vacant, hw.idle, hkept.trans hw.refused⟩
    · refine clocked_of_not_pending ?_ ?_ ?_ _ clock (Bool.eq_false_iff.mpr hpending)
      · rw [heq]
        exact hw.fits
      · rw [heq]
        exact hw.vacant
      · rw [heq]
        exact hw.idle
  · exact clocked_of_left hleft _ clock
  · rcases hflushed.slot with ⟨hkept, hfd, hout⟩ | hleft
    · have hlen := ClientOutput.len_flush now results clientWriteBudgetPerLoop
        (d.clients.slot s).output
      have hbudget : (d.clients.slot s).output.len < clientWriteBudgetPerLoop :=
        hw.fits.trans_lt (by decide)
      obtain ⟨hcleared, hrefused⟩ := ClientOutput.clockOf_flush now results
        clientWriteBudgetPerLoop _ hbudget hw.idle
      have hsends := hflushed.sends
      generalize (d.clients.slot s).output.flush now results clientWriteBudgetPerLoop = r
        at hkept hout hlen hcleared hrefused hsends
      have hfits : (d'.clients.slot s).output.len ≤ clientOutputQueueSize := by
        rw [hout]
        exact hlen.trans hw.fits
      have hvacant : (d'.clients.slot s).fd = -1 → (d'.clients.slot s).output.len = 0 :=
        fun hneg => absurd (hfd.symm.trans hneg) hflushed.live
      have hidle : (d'.clients.slot s).output.len = 0 →
          (d'.clients.slot s).output.stalledSince = 0 := by
        rw [hout]
        exact hcleared
      by_cases hpending : d'.pending s = true
      · refine ⟨hfits, hvacant, hidle, ?_⟩
        have hne : r.1.len ≠ 0 := hout ▸ (pending_iff.mp hpending).2
        have hafter : (d.waitAfter (.service results now read) d' clock s w).refused =
            if r.2.1 = [] then w.refused.or (clockOf now) else clockOf now := by
          simp only [waitAfter, hpending, if_true, hsends]
          by_cases hnil : r.2.1 = []
          · simp [hnil]
          · simp [hnil]
        rw [hafter, hout, hrefused hkept hne, hw.refused]
      · exact clocked_of_not_pending hfits hvacant hidle _ clock (Bool.eq_false_iff.mpr hpending)
    · exact clocked_of_left hleft _ clock

/-- **The clocks are what the observer sees**, in every run. -/
theorem clocked_of_run {p : Daemon × Watch} (h : Transition.Run (Transition.watch (step env) observe)
    Transition.Free (initial env, unwatched) p) :
    ∀ s, (p.1.clients.slot s).Clocked (p.2.waits s) := by
  induction h with
  | refl => exact fun s => ⟨Nat.zero_le _, fun _ => rfl, fun _ => rfl, rfl⟩
  | tail hu hst ih =>
    intro s
    obtain ⟨label, _, hs⟩ := hst
    obtain ⟨hstep, hobs⟩ := Transition.watch_eq_some.mp hs
    have ht := Reachable.tables (Transition.Run.unwatched hu)
    rw [hobs]
    by_cases hlabel : ∃ results now read, label = .service results now read
    · obtain ⟨results, now, read, rfl⟩ := hlabel
      simp only [step] at hstep
      split at hstep
      · exact clocked_service ht hstep (ih s) _
      · cases hstep
    · exact clocked_step ht hstep (fun results now read heq => hlabel ⟨results, now, read, heq⟩)
        (ih s) _

/-! ### After a poll -/

/-- After `poll()` the stalled clients are gone, and the others as they were. -/
theorem pollReturned_slot (ht : d.Tables env) {revents : List Revents} {now : ℕ}
    (hs : d.step env (.pollReturned revents now) = some d') (s : SlotId) :
    d'.clients.slot s = if stalled now (d.clients.slot s) then
      Clients.Slot.freed (d.clients.slot s) else d.clients.slot s := by
  simp only [step, doPollReturned] at hs
  split at hs
  · split at hs
    · have hslot := disconnectStalledClients_slot
        (d := d.usbRecord (.pollReturned (revents.filter Revents.any).length)) ht.wf now s
      generalize Daemon.disconnectStalledClients _ now = a at hs hslot
      obtain rfl := Option.some.inj hs
      exact hslot
    · cases hs
  · cases hs

/-- A client has stalled if output waits for it and `send()` has refused long ago. -/
theorem stalled_iff {s : SlotId} {w : Wait} (hw : (d.clients.slot s).Clocked w) (now : ℕ) :
    stalled now (d.clients.slot s) = true ↔
      d.pending s = true ∧ w.refused.any (late now) = true := by
  rw [pending_iff, hw.refused, clockOf]
  by_cases hclock : (d.clients.slot s).output.stalledSince = 0
  · simp [stalled, hclock]
  · simp [stalled, hclock, late, Nat.pos_iff_ne_zero]

/-- **Nobody is wronged**: who is closed after a `poll()` has refused long ago. -/
theorem observe_wronged (ht : d.Tables env) {w : Watch}
    (hw : ∀ s, (d.clients.slot s).Clocked (w.waits s)) {label : Label}
    (hs : d.step env label = some d') : (observe d label d' w).wronged = w.wronged := by
  cases label with
  | pollReturned revents now =>
    show List.filter _ _ ++ w.wronged = w.wronged
    rw [List.filter_eq_nil_iff.mpr, List.nil_append]
    intro s _
    rw [pollReturned_slot ht hs s]
    by_cases hst : stalled now (d.clients.slot s) = true
    · simp [((stalled_iff (hw s) now).mp hst).2]
    · by_cases hfd : (d.clients.slot s).fd = -1
      · simp [hfd]
      · simp [hst, hfd]
  | _ => rfl

/-- **Somebody is overlooked** just when he was not tried in time. -/
theorem observe_overlooked (ht : d.Tables env) {w : Watch}
    (hw : ∀ s, (d.clients.slot s).Clocked (w.waits s)) {label : Label}
    (hs : d.step env label = some d') :
    (observe d label d' w).overlooked = [] ↔ w.overlooked = [] ∧ TriedInTime (d, w) label := by
  cases label with
  | pollReturned revents now =>
    show List.filter _ _ ++ w.overlooked = [] ↔ _ ∧ ∀ s, _
    rw [List.append_eq_nil_iff, and_comm, List.filter_eq_nil_iff]
    refine and_congr Iff.rfl ⟨fun h s hpending hlate => ?_, fun h s _ => ?_⟩
    · by_contra hrefused
      have hst : stalled now (d.clients.slot s) ≠ true := fun hst =>
        hrefused ((stalled_iff (hw s) now).mp hst).2
      have hsame : d'.clients.slot s = d.clients.slot s := by
        rw [pollReturned_slot ht hs s, if_neg hst]
      have hpending' : d'.pending s = true := by rwa [pending, hsame]
      exact h s (Clients.mem_slotOrder s) (by rw [hpending', hlate]; rfl)
    · intro hover
      rw [Bool.and_eq_true] at hover
      obtain ⟨hpending', hlate⟩ := hover
      by_cases hst : stalled now (d.clients.slot s) = true
      · rw [pending, pollReturned_slot ht hs s, if_pos hst] at hpending'
        cases hpending'
      · have hsame : d'.clients.slot s = d.clients.slot s := by
          rw [pollReturned_slot ht hs s, if_neg hst]
        rw [pending, hsame] at hpending'
        exact hst ((stalled_iff (hw s) now).mpr ⟨hpending', h s hpending' hlate⟩)
  | _ => exact (and_iff_left trivial).symm

/-- **Stalled clients are found if they are tried in time.** No client is ever closed for a stall
without having taken nothing for 30 seconds; and the states that are reached without overlooking
a client for whom output has waited for 30 seconds, and whose socket has taken nothing, are
those that are reached by trying every client in time. -/
theorem stalled_found_iff (p : Daemon × Watch) :
    (Transition.Run (Transition.watch (step env) observe) Transition.Free
      (initial env, unwatched) p → p.2.wronged = []) ∧
    (Transition.Run (Transition.watch (step env) observe) TriedInTime (initial env, unwatched) p ↔
      Transition.Run (Transition.watch (step env) observe) Transition.Free
        (initial env, unwatched) p ∧ p.2.overlooked = []) := by
  constructor
  · intro h
    induction h with
    | refl => rfl
    | tail hu hst ih =>
      obtain ⟨label, _, hs⟩ := hst
      obtain ⟨hstep, hobs⟩ := Transition.watch_eq_some.mp hs
      rw [hobs, observe_wronged (Reachable.tables (Transition.Run.unwatched hu))
        (clocked_of_run hu) hstep, ih]
  · refine Transition.run_iff_clean (fun w : Watch => w.overlooked = []) rfl
      fun u label v hu hs => ?_
    obtain ⟨hstep, hobs⟩ := Transition.watch_eq_some.mp hs
    rw [hobs]
    exact observe_overlooked (Reachable.tables (Transition.Run.unwatched hu)) (clocked_of_run hu)
      hstep

/-- `poll()` reports that the main listener is ready, at a time; `accept()` fails. -/
def idlePoll (now : ℕ) : List Label :=
  [.layOut none, .pollReturned [⟨true, false, false, false⟩, .none, .none, .none] now, .handled,
    .acceptFailed]

/-- **A client is overlooked.** Its command is answered at time 0, and when `poll()` returns at time
30 it is because of the main listener; the socket of the client cannot be written. -/
theorem stalled_overlooked : ¬ ∀ env p,
    Transition.Run (Transition.watch (step env) observe) Transition.Free (initial env, unwatched) p →
      p.2.overlooked = [] := by
  intro hall
  obtain ⟨p, hrun, hover⟩ : ∃ p, Transition.Run
      (Transition.watch (step (.plain mochadConfigDefaults false)) observe) Transition.Free
      (initial (.plain mochadConfigDefaults false), unwatched) p ∧
        p.2.overlooked = [(.main, 0)] :=
    Transition.exists_run_of_exec (connect .main ++ readClient (ascii "pl a1 on\n") ++
      List.replicate 9 .byte ++ .encoded :: idlePoll 30) (by decide +kernel)
  rw [hall _ p hrun] at hover
  cases hover

end Daemon

end Mochad
