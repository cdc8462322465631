import Mochad.Core.Reads

/-!
# What an OpenRemote client is told

An OpenRemote client sends one line and is closed. What it is answered joins its output
queue, as for any other client, and the queue is emptied by the main loop; but the client
is closed before the main loop goes on, so that the answer is thrown away with the queue.

So a line of such a client is answered as it should be exactly if there is nothing to
answer (`Daemon.answered_iff`): `Unanswered` lists these lines. The request for a policy is
one of them, since its answer goes past the queue.

The queue of an OpenRemote client is empty between its lines (`Daemon.Unqueued`): lines for
all go to the other two tables.
-/

namespace Mochad

/-- The bytes that were addressed to a connection. -/
def Ev.addressedTo (c : ℕ) : Ev → Bytes
  | .addressed conn _ bytes => if conn = some c then bytes else []
  | _ => []

/-- The bytes of a connection that `send()` took. -/
def Ev.sentTo (c : ℕ) : Ev → Bytes
  | .sent conn _ bytes _ => if conn = some c then bytes else []
  | _ => []

/-- A connection is addressed, is sent something or is closed. -/
def Ev.about (c : ℕ) : Ev → Bool
  | .addressed conn _ _ => conn = some c
  | .sent conn _ _ _ => conn = some c
  | .closed conn _ _ _ => conn = some c
  | _ => false

/-- A connection is sent something. -/
def Ev.isSent : Ev → Bool
  | .sent conn _ _ _ => conn.isSome
  | _ => false

/-- **What was addressed to a connection**, in order. -/
abbrev addressedTo (c : ℕ) (log : List Ev) : Bytes := Trace.collect (Ev.addressedTo c) log

/-- **What was sent to it.** -/
abbrev sentTo (c : ℕ) (log : List Ev) : Bytes := Trace.collect (Ev.sentTo c) log

/-- **A connection was answered**: what was addressed to it was sent, unless `send()` failed,
and nothing was thrown away when it was closed. -/
def Answered (c : ℕ) (log : List Ev) : Prop :=
  (addressedTo c log = sentTo c log ∨ ∃ fd bytes, .sent (some c) fd bytes false ∈ log) ∧
    ∀ fd lost inRead, .closed (some c) fd lost inRead ∈ log → lost = []

namespace Daemon

variable {env : Env} {d d' : Daemon}

/-! ### The queues are empty -/

/-- **Nothing waits for an OpenRemote client.** -/
def Unqueued (d : Daemon) : Prop :=
  ∀ s : SlotId, s.1 = .or20 → (d.clients.slot s).fd ≠ -1 → (d.clients.slot s).output.len = 0

/-- The same, but for the client of a descriptor. -/
def UnqueuedBut (fd : ℤ) (d : Daemon) : Prop :=
  ∀ s : SlotId, s.1 = .or20 → (d.clients.slot s).fd ≠ -1 → (d.clients.slot s).fd ≠ fd →
    (d.clients.slot s).output.len = 0

/-- Slots that keep their descriptor and their queue. -/
theorem UnqueuedBut.congr {fd : ℤ} (h : d.UnqueuedBut fd)
    (hfd : ∀ s, (d'.clients.slot s).fd = (d.clients.slot s).fd)
    (hout : ∀ s, (d'.clients.slot s).output = (d.clients.slot s).output) : d'.UnqueuedBut fd := by
  intro s hs
  rw [hfd, hout]
  exact h s hs

/-- **Only the sender's queue may grow.** -/
theorem UnqueuedBut.move {cause : Cause} {fd : ℤ} (h : d.UnqueuedBut fd)
    (hcause : ∀ x, cause.For x → x = fd) (hm : Move env cause d d') : d'.UnqueuedBut fd := by
  cases hm with
  | x10 | stamp | write | addressed | queued | flushed => exact h
  | output s output hs hwho =>
    intro t ht hlive hne
    rw [setOutput_fd] at hlive hne
    rcases eq_or_ne t s with rfl | hts
    · rw [setOutput_self]
      rcases hwho with hwho | hwho | hlen
      · exact absurd (hcause _ hwho) hne
      · exact absurd ht hwho
      · exact Nat.le_zero.mp (hlen.trans (h t ht hlive hne).le)
    · rw [setOutput_of_ne d output hts]
      exact h t ht hlive hne
  | close s hs _ =>
    intro t ht hlive hne
    rcases eq_or_ne t s with rfl | hts
    · exact absurd (d.closeSlot_fd t) hlive
    · rw [d.closeSlot_of_ne hts] at hlive hne ⊢
      exact h t ht hlive hne
  | send fd bytes _ =>
    rw [sendAll]
    split
    · exact h
    · exact h

theorem UnqueuedBut.moves {cause : Cause} {fd : ℤ} (h : d.UnqueuedBut fd)
    (hcause : ∀ x, cause.For x → x = fd) (hm : Moves env cause d d') : d'.UnqueuedBut fd :=
  Moves.invariant (P := UnqueuedBut fd) hm h fun _ _ ha hab => ha.move hcause hab

theorem unqueued_iff : d.Unqueued ↔ d.UnqueuedBut (-1) :=
  ⟨fun h s hs hlive _ => h s hs hlive, fun h s hs hlive => h s hs hlive hlive⟩

theorem Unqueued.idle (h : d.Unqueued) (hi : Idle d d') : d'.Unqueued := by
  intro s
  rw [hi.clients]
  exact h s

theorem Unqueued.calm (h : d.Unqueued) (hc : Calm env d d') : d'.Unqueued := by
  induction hc with
  | refl => exact h
  | tail _ hab ih =>
    rcases hab with hi | hm
    · exact ih.idle hi
    · refine unqueued_iff.mpr ((unqueued_iff.mp ih).move (fun x hx => ?_) hm)
      rcases hx with hx | hx
      · cases hx
      · cases hx

/-- The daemon knows its OpenRemote clients by their port. -/
theorem Tables.or20client (ht : d.Tables env) {s : SlotId} (hs : (d.clients.slot s).fd ≠ -1)
    (hkind : s.1 = .or20) : d.or20client env (d.clients.slot s).fd = true := by
  obtain ⟨c, _, hdesc⟩ := ht.conn s hs
  rw [Daemon.or20client, hdesc, hkind]
  exact decide_eq_true rfl

/-- **An OpenRemote client is closed after its line.** -/
theorem runLine_closed (ht : d.Tables env) {r : Reading} (hfd : r.fd ≠ -1) (line : Bytes)
    {s : SlotId} (hkind : s.1 = .or20) : ((d.runLine env r line).clients.slot s).fd ≠ r.fd := by
  have hmoves : Moves env (causeOf r.fd line) (d.record (.command r.conn r.fd line)) _ :=
    processcommandline_moves (d := d.record (.command r.conn r.fd line)) ht.descs ht.wf hfd line
  have ht' := (ht.record (.command r.conn r.fd line)).moves hmoves
  rw [runLine]
  generalize Daemon.processcommandline env (d.record (.command r.conn r.fd line)) r.fd line = a at ht'
  by_cases hs : (a.clients.slot s).fd = r.fd
  · have hlive : (a.clients.slot s).fd ≠ -1 := hs ▸ hfd
    have hor := ht'.or20client hlive hkind
    have hfind := ht'.wf.find_eq hlive
    rw [hs] at hor hfind
    rw [if_pos hor, delClient, hfind]
    show ((a.closeSlot s).clients.slot s).fd ≠ r.fd
    rw [closeSlot_fd]
    exact hfd.symm
  · split
    · rw [delClient]
      split
      · exact hs
      next t _ =>
        rcases eq_or_ne s t with rfl | hst
        · rw [closeSlot_fd]
          exact hfd.symm
        · rw [a.closeSlot_of_ne hst]
          exact hs
    · exact hs

/-- **Every step keeps the queues empty.** -/
theorem Unqueued.step (h : d.Unqueued) (ht : d.Tables env) {label : Label}
    (hs : d.step env label = some d') : d'.Unqueued := by
  rcases step_kind ht.descs ht.wf hs with hc | ⟨fd, desc, _, _, _, rfl⟩ |
    ⟨main, xml, or20, hpc, hl⟩ | ⟨snap, nready, kind, fd, nb, hpc, hready, hfree, rfl⟩ |
    ⟨d₁, l, r, hpc, hc, hpc₁, hfd, hslot, hconn, hrem, rfl⟩ | ⟨l, r, hpc, hb⟩ | ⟨l, r, hpc, he⟩
  · exact h.calm hc
  · exact h
  · simp only [doCreateListeners] at hl
    split at hl
    · split at hl
      · obtain rfl := Option.some.inj hl
        exact h
      · obtain rfl := Option.some.inj hl
        intro s _ hs
        exact absurd rfl hs
    · cases hl
  · have hadded : (d.addAccepted env kind fd nb).Unqueued := by
      rcases addAccepted_cases env d kind fd nb with ⟨s, _, heq⟩ | heq
      · rw [heq]
        intro t ht hlive
        have hlive' : ((d.clients.take s fd).slot t).fd ≠ -1 := hlive
        show ((d.clients.take s fd).slot t).output.len = 0
        rcases eq_or_ne t s with rfl | hts
        · exact congrArg (fun v : Slot => v.output.len) (Clients.set_slot_self ..)
        · rw [show (d.clients.take s fd).slot t = d.clients.slot t from
            Clients.set_slot_of_ne d.clients _ hts] at hlive' ⊢
          exact h t ht hlive'
      · rw [heq]
        exact h
    have hrun : (d.addAccepted env kind fd nb).pc.stage = .running := by
      rw [addAccepted_pc, hpc]
      rfl
    exact hadded.idle (idle_afterAccept hrun snap nready kind)
  · have hcalm : d₁.Unqueued := h.calm hc
    exact hcalm
  · obtain ⟨b, rest, _, hcase⟩ := doByte_cases hb
    have hafter : (d.afterByte l r b rest).Unqueued :=
      unqueued_iff.mpr ((unqueued_iff.mp h).congr (fun t => setState_fd d r.slot t _)
        fun t => setState_output d r.slot t _)
    rcases hcase with ⟨_, rfl⟩ | ⟨line, _, rfl⟩
    · exact hafter
    · have htables : (d.afterByte l r b rest).Tables env := ht.afterByte hpc b rest
      have hfd : r.fd ≠ -1 := ht.reading l r hpc
      have hbut : ((d.afterByte l r b rest).record (.command r.conn r.fd line)).UnqueuedBut r.fd :=
        fun t hkind hlive _ => hafter t hkind hlive
      have hmoves : Moves env (causeOf r.fd line) _ _ :=
        runLine_moves htables.descs htables.wf hfd line
      have hrun := hbut.moves (fun x hx => causeOf_for.mp hx) hmoves
      intro s hkind hlive
      exact hrun s hkind hlive (runLine_closed htables hfd line hkind)
  · obtain ⟨_, rfl⟩ := doEncoded_eq he
    generalize EncodeState.mk _ _ _ _ = state
    have hstored : (d.setState r.slot state).Unqueued :=
      unqueued_iff.mpr ((unqueued_iff.mp h).congr (fun t => setState_fd d r.slot t _)
        fun t => setState_output d r.slot t _)
    simp only [counted]
    split
    · exact hstored
    · exact hstored

/-- **In every reachable state nothing waits for an OpenRemote client.** -/
theorem Reachable.unqueued (h : Reachable env d) : d.Unqueued := by
  have hinit : (initial env).Unqueued := fun _ _ hs => absurd rfl hs
  exact Transition.Run.invariant_along h hinit fun _ _ _ hr hi _ hs =>
    hi.step (Reachable.tables hr) hs

/-! ### A line that is not answered -/

/-- **An OpenRemote client is there**, with nothing in its queue. -/
structure Waiting (env : Env) (s : SlotId) (c : ℕ) (fd : ℤ) (d : Daemon) : Prop where
  tables : d.Tables env
  slot : (d.clients.slot s).fd = fd
  conn : d.connAt fd = some c
  empty : (d.clients.slot s).output.len = 0

/-- No other descriptor is its connection. -/
theorem Tables.connAt_unique (ht : d.Tables env) {fd fd' : ℤ} {c : ℕ} (h : d.connAt fd = some c)
    (h' : d.connAt fd' = some c) : fd = fd' := by
  obtain ⟨p, hp⟩ := connAt_eq_some.mp h
  obtain ⟨p', hp'⟩ := connAt_eq_some.mp h'
  exact ht.ids fd fd' c p p' hp hp'

variable {s : SlotId} {c : ℕ} {fd : ℤ}

theorem Waiting.live (h : d.Waiting env s c fd) : fd ≠ -1 := by
  rintro rfl
  have hconn := h.conn
  rw [h.tables.connAt_neg] at hconn
  cases hconn

/-- **What others are told does not concern it.** -/
theorem Waiting.move {cause : Cause} (h : d.Waiting env s c fd) (hkind : s.1 = .or20)
    (hloop : cause ≠ .loop) (hcause : ¬cause.For fd) (hm : Move env cause d d') :
    d'.Waiting env s c fd ∧ ∃ es, d'.log = es ++ d.log ∧ ∀ e ∈ es, e.about c = false := by
  have ht' := h.tables.move hm
  have hother : ∀ x, cause.For x → d.connAt x ≠ some c := fun x hx hc =>
    hcause (h.tables.connAt_unique h.conn hc ▸ hx)
  have hone : ∀ {a : Daemon} {e : Ev}, a.log = e :: d.log → e.about c = false →
      ∃ es, a.log = es ++ d.log ∧ ∀ e ∈ es, e.about c = false := fun hlog he =>
    ⟨[_], hlog, fun _ hx => by rw [List.mem_singleton.mp hx, he]⟩
  cases hm with
  | x10 | stamp | write =>
    exact ⟨⟨ht', h.slot, h.conn, h.empty⟩, [], rfl, fun _ he => nomatch he⟩
  | addressed x bytes hwho =>
    refine ⟨⟨ht', h.slot, h.conn, h.empty⟩, hone rfl (decide_eq_false fun hc => ?_)⟩
    rcases hwho with hwho | ⟨t, ht, hne⟩
    · exact hother x hwho hc
    · obtain rfl := h.tables.connAt_unique h.conn hc
      have hst := h.tables.wf.distinct s t (h.slot.symm ▸ h.live)
        (h.slot.trans (Clients.fd_of_find ht).symm)
      exact hne (hst ▸ hkind)
  | output t output hs hwho =>
    refine ⟨⟨ht', (setOutput_fd d t s output).trans h.slot, h.conn, ?_⟩, [], rfl,
      fun _ he => nomatch he⟩
    rcases eq_or_ne s t with rfl | hst
    · rw [setOutput_self]
      rcases hwho with hwho | hwho | hlen
      · exact absurd (h.slot ▸ hwho) hcause
      · exact absurd hkind hwho
      · exact Nat.le_zero.mp (hlen.trans h.empty.le)
    · rw [setOutput_of_ne d output hst]
      exact h.empty
  | queued t bytes hs =>
    exact ⟨⟨ht', h.slot, h.conn, h.empty⟩, hone rfl rfl⟩
  | flushed t bytes ok hs hwho => exact absurd hwho hloop
  | close t hs hwho =>
    have hst : s ≠ t := by
      rintro rfl
      rcases hwho with hwho | hwho | hwho
      · exact hloop hwho
      · exact hcause (h.slot ▸ hwho)
      · exact hwho hkind
    have hfd : (d.clients.slot t).fd ≠ fd := fun heq =>
      hst (h.tables.wf.distinct t s hs (heq.trans h.slot.symm)).symm
    refine ⟨⟨ht', ?_, ?_, ?_⟩, hone rfl (decide_eq_false fun hc => ?_)⟩
    · rw [d.closeSlot_of_ne hst, h.slot]
    · obtain ⟨p, hp⟩ := connAt_eq_some.mp h.conn
      exact connAt_eq_some.mpr ⟨p, (Function.update_of_ne hfd.symm ..).trans hp⟩
    · rw [d.closeSlot_of_ne hst, h.empty]
    · exact hfd (h.tables.connAt_unique hc h.conn)
  | send x bytes hwho =>
    have hx : cause.For x := hwho.imp And.left id
    have hne := hother x hx
    rw [sendAll] at ht' ⊢
    split
    next hnone => 
      rw [hnone] at ht'
      exact ⟨⟨ht', h.slot, h.conn, h.empty⟩, hone rfl rfl⟩
    next c' hsome =>
      rw [hsome] at ht'
      refine ⟨⟨ht', h.slot, h.conn, h.empty⟩, hone rfl (decide_eq_false fun hc => ?_)⟩
      exact hne (hsome.trans hc)

theorem Waiting.moves {cause : Cause} (h : d.Waiting env s c fd) (hkind : s.1 = .or20)
    (hloop : cause ≠ .loop) (hcause : ¬cause.For fd) (hm : Moves env cause d d') :
    d'.Waiting env s c fd ∧ ∃ es, d'.log = es ++ d.log ∧ ∀ e ∈ es, e.about c = false := by
  refine Moves.invariant (P := fun a => a.Waiting env s c fd ∧
      ∃ es, a.log = es ++ d.log ∧ ∀ e ∈ es, e.about c = false) hm
    ⟨h, [], rfl, fun _ he => nomatch he⟩ fun a b ha hab => ?_
  obtain ⟨hwait, es, hes, habout⟩ := ha
  obtain ⟨hwait', es', hes', habout'⟩ := hwait.move hkind hloop hcause hab
  refine ⟨hwait', es' ++ es, by rw [hes', hes, List.append_assoc], fun e he => ?_⟩
  rcases List.mem_append.mp he with he | he
  · exact habout' e he
  · exact habout e he

/-! ### A line that is answered -/

/-- **Until it is closed a client is sent nothing**: its answers are queued. -/
theorem Moves.unsent (ht : d.Tables env) (hm : Moves env (.command fd) d d') :
    ∃ es, d'.log = es ++ d.log ∧ ∀ e ∈ es, e.isSent = false := by
  refine (Moves.invariant (P := fun a => a.Tables env ∧
      ∃ es, a.log = es ++ d.log ∧ ∀ e ∈ es, e.isSent = false) hm
    ⟨ht, [], rfl, fun _ he => nomatch he⟩ fun a b ha hab => ?_).2
  obtain ⟨hta, es, hes, hsent⟩ := ha
  refine ⟨hta.move hab, ?_⟩
  have hone : ∀ {e : Ev} {l : List Ev}, l = e :: a.log → e.isSent = false →
      ∃ es, l = es ++ d.log ∧ ∀ e ∈ es, e.isSent = false := by
    rintro e l rfl he
    refine ⟨e :: es, by rw [hes]; rfl, fun x hx => ?_⟩
    rcases List.mem_cons.mp hx with rfl | hx
    · exact he
    · exact hsent x hx
  cases hab with
  | x10 | stamp | write | output => exact ⟨es, hes, hsent⟩
  | addressed | queued | close => exact hone rfl rfl
  | flushed t bytes ok hs hwho => cases hwho
  | send x bytes hwho =>
    obtain ⟨hx, hnone⟩ := hwho.resolve_right (by simp)
    -- the sender is gone, so that its descriptor is no connection
    have hconn : a.connAt x = none := by
      cases hc : a.connAt x with
      | none => rfl
      | some c =>
        obtain ⟨p, hp⟩ := connAt_eq_some.mp hc
        obtain ⟨t, ht⟩ := hta.slot x c p hp
        exact absurd ht (Clients.find_eq_none_iff.mp hnone t)
    simp only [sendAll, hconn]
    exact hone rfl rfl

/-- An answer to a client that is there is addressed to it. -/
theorem Waiting.perform (h : d.Waiting env s c fd) {e : Effect} (he : e.RepliesTo fd) :
    ∃ bytes es, bytes ≠ [] ∧ (d.perform env e).Tables env ∧
      (d.perform env e).log = es ++ .addressed (some c) fd bytes :: d.log ∧
        ∀ e ∈ es, e.isSent = false := by
  have hfind : ∀ a : Daemon, a.clients = d.clients → a.clients.find fd = some s := by
    intro a ha
    have hlive : (d.clients.slot s).fd ≠ -1 := h.slot.symm ▸ h.live
    rw [ha, ← h.slot]
    exact h.tables.wf.find_eq hlive
  have hqueue : ∀ (a : Daemon) (bytes : Bytes), a.Tables env → a.clients = d.clients →
      a.connAt fd = some c → a.log = d.log → bytes ≠ [] →
      (a.queueClientBytes env fd bytes).1.Tables env ∧
        ∃ es, (a.queueClientBytes env fd bytes).1.log =
          es ++ .addressed (some c) fd bytes :: d.log ∧ ∀ e ∈ es, e.isSent = false := by
    intro a bytes hta hclients hconn hlog hne
    rw [queueClientBytes, if_neg hne, hconn]
    have hmoves : Moves env (.command fd) (a.record (.addressed (some c) fd bytes)) _ :=
      enqueueBytes_moves (d := a.record _) h.live (hfind _ hclients) (Or.inl (Or.inl rfl)) bytes
    obtain ⟨es, hes, hsent⟩ := hmoves.unsent (hta.record _)
    refine ⟨(hta.record _).moves hmoves, es, hes.trans ?_, hsent⟩
    rw [← hlog]
    rfl
  cases e with
  | sockprintf f body =>
    obtain rfl : f = fd := he
    have hline : (if d.clients.xmlclient f then nulTerminated (stampedLine env d.stampReads body)
        else stampedLine env d.stampReads body) ≠ [] := by
      split
      · exact nulTerminated_ne_nil (stampedLine_ne_nil env d.stampReads body)
      · exact stampedLine_ne_nil env d.stampReads body
    have hstamp : Tables env { d with stampReads := d.stampReads + 1 } :=
      h.tables.congr h.tables.wf (fun _ => rfl) rfl rfl h.tables.reading id
    obtain ⟨hta, es, hes, hsent⟩ := hqueue { d with stampReads := d.stampReads + 1 } _ hstamp rfl
      h.conn rfl hline
    rw [Daemon.perform, sockprintf, if_neg h.live]
    exact ⟨_, es, hline, hta, hes, hsent⟩
  | statusprintf f text =>
    obtain ⟨rfl, htext⟩ := he
    have hne : formatBounded 1024 text ≠ [] := by simpa [formatBounded] using htext
    obtain ⟨hta, es, hes, hsent⟩ := hqueue d _ h.tables rfl h.conn rfl hne
    exact ⟨_, es, hne, hta, hes, hsent⟩
  | x10Write buf => exact he.elim
  | sendAll f bytes => exact he.elim

/-- **A command that answers** addresses its sender, and sends it nothing. -/
theorem Waiting.performAll (h : d.Waiting env s c fd) (hkind : s.1 = .or20) {es : List Effect}
    (hes : ∀ e ∈ es, e.For fd) (hex : ∃ e ∈ es, e.RepliesTo fd) :
    ∃ log, (d.performAll env es).log = log ++ d.log ∧
      (∃ bytes, bytes ≠ [] ∧ .addressed (some c) fd bytes ∈ log) ∧ ∀ e ∈ log, e.isSent = false := by
  induction es generalizing d with
  | nil =>
    obtain ⟨e, he, _⟩ := hex
    cases he
  | cons e es ih =>
    have hrest : ∀ x ∈ es, x.For fd := fun x hx => hes x (List.mem_cons_of_mem _ hx)
    by_cases he : e.RepliesTo fd
    · -- the first answer: what comes after it is queued or lost
      obtain ⟨bytes, log, hne, hta, hlog, hsent⟩ := h.perform he
      have hmoves : Moves env (.command fd) (d.perform env e) _ :=
        performAll_moves hta.wf h.live hrest
      obtain ⟨log', hlog', hsent'⟩ := hmoves.unsent hta
      refine ⟨log' ++ (log ++ [.addressed (some c) fd bytes]), ?_, ⟨bytes, hne, by simp⟩, ?_⟩
      · show (Daemon.performAll env (d.perform env e) es).log = _
        rw [hlog', hlog]
        simp
      · simp only [List.mem_append, List.mem_singleton]
        rintro x (hx | hx | rfl)
        · exact hsent' x hx
        · exact hsent x hx
        · rfl
    · have hall : ∀ x ∈ [e], x.PrintsTo (-1) := by
        rintro x hx
        rw [List.mem_singleton.mp hx]
        exact (hes e List.mem_cons_self).resolve_left he
      have hother : ¬(Cause.command (-1)).For fd := by
        rintro (hx | hx)
        · exact h.live (Cause.command.inj hx).symm
        · cases hx
      have hmoves : Moves env (.command (-1)) d (d.performAll env [e]) :=
        performAll_moves_of_all h.tables.wf hall
      obtain ⟨hwait, log, hlog, _⟩ := h.moves hkind (by simp) hother hmoves
      obtain ⟨log₁, hlog₁, hsent⟩ := hmoves.unsent h.tables
      have hex' : ∃ x ∈ es, x.RepliesTo fd := by
        obtain ⟨x, hx, hr⟩ := hex
        rcases List.mem_cons.mp hx with rfl | hx
        · exact absurd hr he
        · exact ⟨x, hx, hr⟩
      obtain ⟨log', hlog', ⟨bytes, hne, hmem⟩, hsent'⟩ := ih hwait hrest hex'
      refine ⟨log' ++ log₁, ?_, ⟨bytes, hne, List.mem_append_left _ hmem⟩, ?_⟩
      · show (Daemon.performAll env (d.performAll env [e]) es).log = _
        rw [hlog', hlog₁, List.append_assoc]
      · rintro x hx
        rcases List.mem_append.mp hx with hx | hx
        · exact hsent' x hx
        · exact hsent x hx

/-! ### A line of an OpenRemote client -/

/-- Who is not addressed is answered. -/
theorem answered_of_silent {log : List Ev} (h : ∀ e ∈ log, e.about c = false) : Answered c log := by
  refine ⟨Or.inl ?_, fun fd lost inRead he => ?_⟩
  · rw [addressedTo, sentTo, Trace.collect_eq_nil, Trace.collect_eq_nil]
    · intro e he
      have habout := h e he
      cases e with
      | sent conn fd bytes ok => exact if_neg (of_decide_eq_false habout)
      | _ => rfl
    · intro e he
      have habout := h e he
      cases e with
      | addressed conn fd bytes => exact if_neg (of_decide_eq_false habout)
      | _ => rfl
  · exact absurd rfl (of_decide_eq_false (h _ he))

/-- A close with an empty queue loses nothing. -/
theorem answered_closed {log : List Ev} (h : Answered c log) (fd : ℤ) (inRead : Bool) :
    Answered c (.closed (some c) fd [] inRead :: log) := by
  obtain ⟨hsent, hlost⟩ := h
  refine ⟨?_, fun x lost b he => ?_⟩
  · rw [addressedTo, sentTo, Trace.collect_cons_of_nil rfl, Trace.collect_cons_of_nil rfl]
    exact hsent.imp_right fun ⟨x, bytes, he⟩ => ⟨x, bytes, List.mem_cons_of_mem _ he⟩
  · rcases List.mem_cons.mp he with heq | he
    · cases heq
      rfl
    · exact hlost x lost b he

/-- The policy is sent at once, or `send()` fails. -/
theorem answered_policy (fd : ℤ) {results : List SendResult} {text : Bytes} :
    Answered c [.sent (some c) fd (sendAllImpl results text).1 (sendAllImpl results text).2,
      .addressed (some c) fd text] := by
  refine ⟨?_, by simp⟩
  cases hok : (sendAllImpl results text).2 with
  | true =>
    refine Or.inl ?_
    simp [addressedTo, sentTo, Trace.collect_cons, Ev.addressedTo, Ev.sentTo, sendAllImpl_ok hok]
  | false => exact Or.inr ⟨fd, _, List.mem_cons_self⟩

/-- Who is addressed and sent nothing is not answered. -/
theorem not_answered {log : List Ev} {bytes : Bytes} (hne : bytes ≠ [])
    (hmem : .addressed (some c) fd bytes ∈ log) (hsent : ∀ e ∈ log, e.isSent = false) :
    ¬Answered c log := by
  rintro ⟨heq | ⟨x, b, he⟩, _⟩
  · have hnone : sentTo c log = [] := by
      refine Trace.collect_eq_nil fun e he => ?_
      have hs := hsent e he
      cases e with
      | sent conn x b ok =>
        rw [Ev.isSent, Option.isSome_eq_false_iff, Option.isNone_iff_eq_none] at hs
        rw [hs]
        rfl
      | _ => rfl
    rw [hnone] at heq
    refine Trace.collect_ne_nil hmem ?_ heq
    simpa [Ev.addressedTo] using hne
  · exact absurd (hsent _ he) (by simp [Ev.isSent])

/-- A client that waits is closed, and loses nothing. -/
theorem Waiting.closeAfter (h : d.Waiting env s c fd) (hkind : s.1 = .or20) :
    ∃ inRead, (if d.or20client env fd then d.delClient fd else d).log =
      .closed (some c) fd [] inRead :: d.log := by
  have hlive : (d.clients.slot s).fd ≠ -1 := h.slot.symm ▸ h.live
  have hor := h.tables.or20client hlive hkind
  have hfind := h.tables.wf.find_eq hlive
  have hempty : (d.clients.slot s).output.contents = [] :=
    (ClientOutput.contents_eq_nil_iff _).mpr h.empty
  rw [h.slot] at hor hfind
  obtain ⟨inRead, hlog⟩ : ∃ inRead, (d.closeSlot s).log = .closed (d.connAt (d.clients.slot s).fd)
      (d.clients.slot s).fd (d.clients.slot s).output.contents inRead :: d.log := ⟨_, rfl⟩
  rw [hempty, h.slot, h.conn] at hlog
  rw [if_pos hor, delClient, hfind]
  exact ⟨inRead, hlog⟩

/-- **What a line leaves in the log**: the command, its answers, and the close. -/
theorem Waiting.runLine (h : d.Waiting env s c fd) (hkind : s.1 = .or20) {r : Reading}
    (hr : r.fd = fd) (line : Bytes) :
    ∃ log, (d.runLine env r line).log = log ++ .command r.conn r.fd line :: d.log ∧
      (Answered c log ↔ Unanswered line) := by
  subst hr
  have hrec : (d.record (.command r.conn r.fd line)).Waiting env s c r.fd :=
    ⟨h.tables.record _, h.slot, h.conn, h.empty⟩
  rw [Daemon.runLine]
  show ∃ log, _ = log ++ (d.record (.command r.conn r.fd line)).log ∧ _
  generalize d.record (.command r.conn r.fd line) = a at hrec
  have hor : (a.ctx env).or20client r.fd = true := by
    have hlive : (a.clients.slot s).fd ≠ -1 := hrec.slot.symm ▸ hrec.live
    rw [← hrec.slot]
    exact hrec.tables.or20client hlive hkind
  let m := Mochad.processcommandline (a.ctx env) r.fd line
  have hstate : Daemon.Waiting env s c r.fd { a with x10 := (m a.x10).state } :=
    ⟨hrec.tables.congr hrec.tables.wf (fun _ => rfl) rfl rfl hrec.tables.reading id, hrec.slot,
      hrec.conn, hrec.empty⟩
  by_cases hu : Unanswered line
  · suffices hanswered : ∃ log, (a.processcommandline env r.fd line).Waiting env s c r.fd ∧
        (a.processcommandline env r.fd line).log = log ++ a.log ∧ Answered c log by
      obtain ⟨log, hwait, hlog, hans⟩ := hanswered
      obtain ⟨inRead, hclosed⟩ := hwait.closeAfter hkind
      exact ⟨_ :: log, by rw [hclosed, hlog]; rfl, iff_of_true (answered_closed hans _ _) hu⟩
    by_cases hp : IsPolicyRequest line
    · rw [processcommandline_policy_eq hp, hrec.conn]
      have hconn : (Daemon.record { a with x10 := (m a.x10).state }
          (.addressed (some c) r.fd domainPolicy)).connAt r.fd = some c := hrec.conn
      simp only [sendAll, m, hconn]
      exact ⟨_, ⟨hrec.tables.congr hrec.tables.wf (fun _ => rfl) rfl rfl hrec.tables.reading id,
        hrec.slot, hrec.conn, hrec.empty⟩, rfl, answered_policy r.fd⟩
    · have hall : ∀ e ∈ (m a.x10).effects, e.PrintsTo (-1) :=
        emits_processcommandline_unanswered (a.ctx env) r.fd hu hp a.x10
      have hother : ¬(Cause.command (-1)).For r.fd := by
        rintro (hx | hx)
        · exact hrec.live (Cause.command.inj hx).symm
        · cases hx
      have hmoves : Moves env (.command (-1)) _ (a.processcommandline env r.fd line) :=
        performAll_moves_of_all hstate.tables.wf hall
      obtain ⟨hwait, log, hlog, habout⟩ := hstate.moves hkind (by simp) hother hmoves
      exact ⟨log, hwait, hlog, answered_of_silent habout⟩
  · have hp : ¬IsPolicyRequest line := fun hp => hu (Or.inl hp)
    have hes : ∀ e ∈ (m a.x10).effects, e.For r.fd :=
      emits_processcommandline (a.ctx env) r.fd (or20client_neg hrec.tables.descs) hp a.x10
    have hex := answers_processcommandline (a.ctx env) r.fd hor hu a.x10
    obtain ⟨log, hlog, ⟨bytes, hne, hmem⟩, hsent⟩ := hstate.performAll hkind hes hex
    have hrun : Moves env (.command r.fd) _ (a.processcommandline env r.fd line) :=
      performAll_moves hstate.tables.wf hrec.live hes
    have hdel : Moves env (.command r.fd) (a.processcommandline env r.fd line)
        (if (a.processcommandline env r.fd line).or20client env r.fd then
          (a.processcommandline env r.fd line).delClient r.fd
        else a.processcommandline env r.fd line) := by
      split
      · exact delClient_moves hrec.live (Or.inr (Or.inl (Or.inl rfl)))
      · exact Relation.ReflTransGen.refl
    obtain ⟨log', hlog', hsent'⟩ := hdel.unsent (hstate.tables.moves hrun)
    have hlog₁ : (a.processcommandline env r.fd line).log = log ++ a.log := hlog
    refine ⟨log' ++ log, by rw [hlog', hlog₁, List.append_assoc], iff_of_false ?_ hu⟩
    refine not_answered hne (List.mem_append_right _ hmem) fun e he => ?_
    rcases List.mem_append.mp he with he | he
    · exact hsent' e he
    · exact hsent e he

/-- The command itself answers nobody. -/
theorem answered_append {log es : List Ev} (hes : ∀ e ∈ es, e.isReply = false) :
    Answered c (log ++ es) ↔ Answered c log := by
  have hnone : ∀ e ∈ es, e.addressedTo c = [] ∧ e.sentTo c = [] := by
    intro e he
    have hr := hes e he
    cases e with
    | addressed | queued | sent | closed => cases hr
    | _ => exact ⟨rfl, rfl⟩
  have haddressed : addressedTo c (log ++ es) = addressedTo c log := by
    rw [addressedTo, Trace.collect_append, Trace.collect_eq_nil fun e he => (hnone e he).1]
    rfl
  have hsent : sentTo c (log ++ es) = sentTo c log := by
    rw [sentTo, Trace.collect_append, Trace.collect_eq_nil fun e he => (hnone e he).2]
    rfl
  have hmem : ∀ e : Ev, e.isReply = true → (e ∈ log ++ es ↔ e ∈ log) := by
    intro e hr
    rw [List.mem_append, or_iff_left]
    intro he
    rw [hes e he] at hr
    cases hr
  rw [Answered, Answered, haddressed, hsent]
  simp only [hmem (.sent _ _ _ _) rfl, hmem (.closed _ _ _ _) rfl]

/-- **A line of an OpenRemote client that is there is answered as it should be exactly if it
draws no answer.** -/
theorem answered_iff (h : Reachable env d) (hstep : d.step env .byte = some d') {es : List Ev}
    (hlog : d'.log = es ++ d.log) {conn : Option ℕ} {line : Bytes}
    (hcmd : .command conn fd line ∈ es) (hs : (d.clients.slot s).fd = fd) (hkind : s.1 = .or20)
    (hc : d.connAt fd = some c) : Answered c es ↔ Unanswered line := by
  have ht := Reachable.tables h
  simp only [step] at hstep
  split at hstep
  next l r hpc =>
    obtain ⟨b, rest, _, ⟨_, rfl⟩ | ⟨line', hline, rfl⟩⟩ := doByte_cases hstep
    · have hsum : [.consumed r.conn b] ++ d.log = es ++ d.log := hlog
      rw [← List.append_cancel_right hsum] at hcmd
      cases List.mem_singleton.mp hcmd
    · have hafter := ht.afterByte hpc b rest
      have hfd' := ht.reading l r hpc
      have hmoves : Moves env _ _ _ := runLine_moves hafter.descs hafter.wf hfd' line'
      obtain ⟨log', hlog', hreply⟩ := hmoves.log
      have hsum : es ++ d.log =
          (log' ++ [.command r.conn r.fd line', .consumed r.conn b]) ++ d.log := by
        rw [← hlog, hlog', List.append_assoc]
        rfl
      have hfull := List.append_cancel_right hsum
      -- the command is the one that the byte completes
      have hline' : Ev.command conn fd line = .command r.conn r.fd line' := by
        rw [hfull, List.mem_append] at hcmd
        rcases hcmd with hcmd | hcmd
        · exact absurd (hreply _ hcmd) (by simp [Ev.isReply])
        · simpa using hcmd
      obtain ⟨_, rfl, rfl⟩ := Ev.command.inj hline'
      have hlive : (d.clients.slot s).fd ≠ -1 := hs.symm ▸ hfd'
      have hwait : (d.afterByte l r b rest).Waiting env s c r.fd := by
        refine ⟨hafter, (setState_fd d r.slot s _).trans hs, hc, ?_⟩
        exact (congrArg ClientOutput.len (setState_output d r.slot s _)).trans
          (Reachable.unqueued h s hkind hlive)
      obtain ⟨log, hlog₁, hans⟩ := hwait.runLine hkind rfl line
      have heq : log = log' := List.append_cancel_right (hlog₁.symm.trans hlog')
      rw [hfull, answered_append (by simp [Ev.isReply]), ← heq]
      exact hans
  · cases hstep

/-- The policy fits into one `send()`. -/
def policyEnv : Env :=
  { Env.plain mochadConfigDefaults false with sends := fun _ => [.taken domainPolicy.length] }

/-- The request for a policy is answered before the client is closed. -/
theorem answered_iff_policy : ∃ d d' es, Reachable policyEnv d ∧
    d.step policyEnv .byte = some d' ∧ d'.log = es ++ d.log ∧
      .command (some 0) 6 (ascii "<policy-file-request/>") ∈ es ∧ sentTo 0 es = domainPolicy ∧
        Answered 0 es := by
  let es : List Ev := [.closed (some 0) 6 [] true, .sent (some 0) 6 domainPolicy true,
    .addressed (some 0) 6 domainPolicy, .command (some 0) 6 (ascii "<policy-file-request/>"),
    .consumed (some 0) 0x0a]
  have hreach : ∃ d, Reachable policyEnv d ∧
      ((d.clients.slot (.or20, 0)).fd = 6 ∧ d.connAt 6 = some 0 ∧
        ∃ d' ∈ d.step policyEnv .byte, d'.log = es ++ d.log) :=
    Transition.exists_run_of_exec (connect .or20 ++ readClient (ascii "<policy-file-request/>\n") ++
      List.replicate 22 .byte) (by decide +kernel)
  obtain ⟨d, hd, hs, hc, d', hstep, hlog⟩ := hreach
  have hcmd : Ev.command (some 0) 6 (ascii "<policy-file-request/>") ∈ es := by simp [es]
  exact ⟨d, d', es, hd, hstep, hlog, hcmd, by decide +kernel,
    (answered_iff hd hstep hlog hcmd hs rfl hc).mpr (by decide)⟩

/-- **An answer can be thrown away**: the state of a unit is asked for, and the reply is in
the queue when the client is closed. -/
theorem answer_thrown_away :
    ¬ ∀ env d d' es conn fd line s c, Reachable env d → d.step env .byte = some d' →
      d'.log = es ++ d.log → .command conn fd line ∈ es → (d.clients.slot s).fd = fd →
      s.1 = .or20 → d.connAt fd = some c → Answered c es := by
  have hreach : ∃ d, Reachable (.plain mochadConfigDefaults false) d ∧
      ((d.clients.slot (.or20, 0)).fd = 6 ∧ d.connAt 6 = some 0 ∧
        ∃ d' ∈ d.step (.plain mochadConfigDefaults false) .byte, d'.log =
          [.closed (some 0) 6 (ascii "off\n\r") true, .queued (some 0) 6 (ascii "off\n\r"),
            .addressed (some 0) 6 (ascii "off\n\r"), .command (some 0) 6 (ascii "getstatus a1"),
            .consumed (some 0) 0x0a] ++ d.log) :=
    Transition.exists_run_of_exec (connect .or20 ++ readClient (ascii "getstatus a1\n") ++
      List.replicate 12 .byte) (by decide +kernel)
  obtain ⟨d, hd, hs, hc, d', hstep, hlog⟩ := hreach
  intro hall
  have hans := hall _ d d' _ (some 0) 6 (ascii "getstatus a1") _ 0 hd hstep hlog (by simp) hs rfl hc
  exact absurd (hans.2 6 (ascii "off\n\r") true (by simp)) (by decide)

end Daemon

end Mochad
