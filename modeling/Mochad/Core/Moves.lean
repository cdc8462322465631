import Mochad.Core.Loop
import Mochad.X10.Replies

/-!
# What a step is made of

Replies, broadcasts, flushes and closings all come down to a few elementary changes of
the tables and the log, `Daemon.Move`: a text is addressed to a descriptor, the queue of
a live client changes, a live client is closed, a text is sent past the queues. What may
be done depends on whose line is executed, if any, so this is a parameter.

An invariant of the tables and the log is then shown for each `Move`, and for the steps
that do something else – accepting a client, reading a socket, taking a byte
(`Daemon.step_kind`). Everything else that a step does is `Daemon.Idle` as far as clients
are concerned.
-/

namespace Mochad

/-- An event that says how a client is answered. -/
def Ev.isReply : Ev → Bool
  | .addressed _ _ _ => true
  | .queued _ _ _ => true
  | .sent _ _ _ _ => true
  | .closed _ _ _ _ => true
  | _ => false

/-- An event that says what the main loop did. -/
def Ev.isNote : Ev → Bool
  | .serviced _ _ _ => true
  | .iterated _ _ => true
  | _ => false

/-- The stages of the daemon, as far as clients are concerned. -/
inductive Stage
  /-- Before the main loop. -/
  | starting
  /-- A read is being processed. -/
  | reading
  | running
  deriving DecidableEq

/-- The stage of a place in the program. -/
def Pc.stage : Pc → Stage
  | .allocated => .starting
  | .transferring => .starting
  | .initialised => .starting
  | .encode _ _ => .reading
  | _ => .running

namespace Daemon

/-- On whose behalf something is done. -/
inductive Cause
  /-- The main loop's own. -/
  | loop
  /-- The command of the client of a descriptor. -/
  | command (fd : ℤ)
  /-- Its request for a policy. -/
  | policy (fd : ℤ)

/-- It is the client of this descriptor whose line is executed. -/
def Cause.For (cause : Cause) (fd : ℤ) : Prop := cause = .command fd ∨ cause = .policy fd

/-- **One elementary change**, and what may cause it. An OpenRemote client is answered and
closed on its own behalf only, but for what the main loop does; only the main loop flushes;
and past the queues goes what is addressed to a sender that is gone, and the policy. -/
inductive Move (env : Env) (cause : Cause) : Daemon → Daemon → Prop
  | x10 (d : Daemon) (x10 : X10State) : Move env cause d { d with x10 := x10 }
  | stamp (d : Daemon) : Move env cause d { d with stampReads := d.stampReads + 1 }
  | write (d : Daemon) (buf : Bytes) :
      Move env cause d { d with usb := (d.usb.x10Write env buf).1 }
  | addressed (d : Daemon) (fd : ℤ) (bytes : Bytes)
      (h : cause.For fd ∨ ∃ s, d.clients.find fd = some s ∧ s.1 ≠ .or20) :
      Move env cause d (d.record (.addressed (d.connAt fd) fd bytes))
  | output (d : Daemon) (s : SlotId) (output : ClientOutput) (hs : (d.clients.slot s).fd ≠ -1)
      (h : cause.For (d.clients.slot s).fd ∨ s.1 ≠ .or20 ∨
        output.len ≤ (d.clients.slot s).output.len) :
      Move env cause d (d.setOutput s output)
  | queued (d : Daemon) (s : SlotId) (bytes : Bytes) (hs : (d.clients.slot s).fd ≠ -1) :
      Move env cause d
        (d.record (.queued (d.connAt (d.clients.slot s).fd) (d.clients.slot s).fd bytes))
  | flushed (d : Daemon) (s : SlotId) (bytes : Bytes) (ok : Bool)
      (hs : (d.clients.slot s).fd ≠ -1) (h : cause = .loop) :
      Move env cause d
        (d.record (.sent (d.connAt (d.clients.slot s).fd) (d.clients.slot s).fd bytes ok))
  | close (d : Daemon) (s : SlotId) (hs : (d.clients.slot s).fd ≠ -1)
      (h : cause = .loop ∨ cause.For (d.clients.slot s).fd ∨ s.1 ≠ .or20) :
      Move env cause d (d.closeSlot s)
  | send (d : Daemon) (fd : ℤ) (bytes : Bytes)
      (h : (cause = .command fd ∧ d.clients.find fd = none) ∨ cause = .policy fd) :
      Move env cause d (d.sendAll env fd bytes).1

/-- A sequence of elementary changes. -/
abbrev Moves (env : Env) (cause : Cause) : Daemon → Daemon → Prop :=
  Relation.ReflTransGen (Move env cause)

variable {env : Env} {cause : Cause} {d d' : Daemon}

open Relation (ReflTransGen)

/-- What every elementary change preserves, a sequence of them does. -/
theorem Moves.invariant {P : Daemon → Prop} (h : Moves env cause d d') (h0 : P d)
    (hmove : ∀ a b, P a → Move env cause a b → P b) : P d' := by
  induction h with
  | refl => exact h0
  | tail _ hm ih => exact hmove _ _ ih hm

theorem Move.wf (h : Move env cause d d') (hwf : d.clients.Wf) : d'.clients.Wf := by
  cases h with
  | x10 | stamp | write | addressed | queued | flushed => exact hwf
  | output s output hs => exact hwf.set rfl
  | close s hs => exact hwf.free hs
  | send fd bytes _ =>
    rw [sendAll]
    split
    · exact hwf
    · exact hwf

theorem Moves.wf (h : Moves env cause d d') (hwf : d.clients.Wf) : d'.clients.Wf :=
  Moves.invariant (P := fun a => a.clients.Wf) h hwf fun _ _ ha hm => hm.wf ha

/-! ### What is made of them -/

theorem delClient_moves {fd : ℤ} (hfd : fd ≠ -1)
    (h : cause = .loop ∨ cause.For fd ∨ ∃ s, d.clients.find fd = some s ∧ s.1 ≠ .or20) :
    Moves env cause d (d.delClient fd) := by
  rw [delClient]
  split
  · exact ReflTransGen.refl
  next s hs =>
    have hslot := Clients.fd_of_find hs
    have hlive : (d.clients.slot s).fd ≠ -1 := by rwa [hslot]
    refine ReflTransGen.single (.close d s hlive ?_)
    rcases h with h | h | ⟨t, ht, hkind⟩
    · exact Or.inl h
    · exact Or.inr (Or.inl (hslot.symm ▸ h))
    · obtain rfl := Option.some.inj (hs.symm.trans ht)
      exact Or.inr (Or.inr hkind)

/-- A text for a live client joins its queue, or closes it. -/
theorem enqueueBytes_moves {fd : ℤ} (hfd : fd ≠ -1) {s : SlotId}
    (hs : d.clients.find fd = some s) (hcause : cause.For fd ∨ s.1 ≠ .or20) (bytes : Bytes) :
    Moves env cause d (d.enqueueBytes env fd bytes).1 := by
  have hslot := Clients.fd_of_find hs
  have hlive : (d.clients.slot s).fd ≠ -1 := by rwa [hslot]
  simp only [enqueueBytes, hs]
  split
  next output _ =>
    have hsame : ((d.setOutput s output).clients.slot s).fd = fd := by
      rw [setOutput_fd, hslot]
    have hmove : Move env cause (d.setOutput s output) _ := .queued _ s bytes (by rwa [hsame])
    rw [hsame] at hmove
    exact (ReflTransGen.single (.output d s output hlive
      (hslot.symm ▸ hcause.imp_right Or.inl))).tail hmove
  · exact delClient_moves hfd (Or.inr (hcause.imp_right fun hkind => ⟨s, hs, hkind⟩))

theorem queueClientBytes_moves_of_live {fd : ℤ} (hfd : fd ≠ -1) {s : SlotId}
    (hs : d.clients.find fd = some s) (hcause : cause.For fd ∨ s.1 ≠ .or20) (bytes : Bytes) :
    Moves env cause d (d.queueClientBytes env fd bytes).1 := by
  rw [queueClientBytes]
  split
  · exact ReflTransGen.refl
  · have hfound : (d.record (.addressed (d.connAt fd) fd bytes)).clients.find fd = some s := hs
    exact ReflTransGen.head (.addressed d fd bytes (hcause.imp_right fun hkind => ⟨s, hs, hkind⟩))
      (enqueueBytes_moves hfd hfound hcause bytes)

/-- A text for the sender. -/
theorem queueClientBytes_moves {fd : ℤ} (hfd : fd ≠ -1) (bytes : Bytes) :
    Moves env (.command fd) d (d.queueClientBytes env fd bytes).1 := by
  have hcause : (Cause.command fd).For fd := Or.inl rfl
  cases hs : d.clients.find fd with
  | some s => exact queueClientBytes_moves_of_live hfd hs (Or.inl hcause) bytes
  | none =>
    have hnone : (d.record (.addressed (d.connAt fd) fd bytes)).clients.find fd = none := hs
    rw [queueClientBytes]
    split
    · exact ReflTransGen.refl
    · refine ReflTransGen.head (.addressed d fd bytes (Or.inl hcause)) (ReflTransGen.single ?_)
      simp only [enqueueBytes, hnone]
      exact .send _ fd bytes (Or.inl ⟨rfl, hnone⟩)

/-- **A line for all** reaches the live clients of a table. -/
theorem toAll_moves (hwf : d.clients.Wf) {kind : Kind} (hkind : kind ≠ .or20) (line : Bytes) :
    Moves env cause d (d.toAll env kind line) := by
  rw [toAll]
  induction List.finRange maxCliSockets generalizing d with
  | nil => exact ReflTransGen.refl
  | cons i is ih =>
    rw [List.foldl_cons]
    have hone : Moves env cause d (if 0 < (d.clients.slot (kind, i)).fd then
        (d.queueClientBytes env (d.clients.slot (kind, i)).fd line).1 else d) := by
      split
      next hpos =>
        have hfd : (d.clients.slot (kind, i)).fd ≠ -1 := by omega
        exact queueClientBytes_moves_of_live hfd (hwf.find_eq hfd) (Or.inr hkind) line
      · exact ReflTransGen.refl
    exact hone.trans (ih (hone.wf hwf))

/-- **Printing to all** sends nothing past the queues. -/
theorem sockprintf_all_moves (hwf : d.clients.Wf) (body : Bytes) :
    Moves env cause d (d.sockprintf env (-1) body) := by
  rw [sockprintf, if_pos rfl]
  have hmain : Moves env cause { d with stampReads := d.stampReads + 1 }
      (toAll env .main (stampedLine env d.stampReads body)
        { d with stampReads := d.stampReads + 1 }) :=
    toAll_moves (d := { d with stampReads := d.stampReads + 1 }) hwf (by decide) _
  exact ReflTransGen.head (.stamp d) (hmain.trans (toAll_moves (hmain.wf hwf) (by decide) _))

theorem sockprintf_moves {fd : ℤ} (hfd : fd ≠ -1) (body : Bytes) :
    Moves env (.command fd) d (d.sockprintf env fd body) := by
  rw [sockprintf, if_neg hfd]
  exact ReflTransGen.head (.stamp d) (queueClientBytes_moves hfd _)

/-- Calls that print to all and send packets. -/
theorem performAll_moves_of_all (hwf : d.clients.Wf) {es : List Effect}
    (hes : ∀ e ∈ es, e.PrintsTo (-1)) : Moves env cause d (d.performAll env es) := by
  induction es generalizing d with
  | nil => exact ReflTransGen.refl
  | cons e es ih =>
    have hone : Moves env cause d (d.perform env e) := by
      have he := hes e List.mem_cons_self
      cases e with
      | sockprintf fd body =>
        obtain rfl : fd = -1 := he
        exact sockprintf_all_moves hwf body
      | x10Write buf => exact ReflTransGen.single (.write d buf)
      | statusprintf fd text => exact he.elim
      | sendAll fd bytes => exact he.elim
    exact hone.trans (ih (hone.wf hwf) fun x hx => hes x (List.mem_cons_of_mem _ hx))

/-- The calls of a command. -/
theorem performAll_moves (hwf : d.clients.Wf) {fd : ℤ} (hfd : fd ≠ -1) {es : List Effect}
    (hes : ∀ e ∈ es, e.For fd) : Moves env (.command fd) d (d.performAll env es) := by
  induction es generalizing d with
  | nil => exact ReflTransGen.refl
  | cons e es ih =>
    have hone : Moves env (.command fd) d (d.perform env e) := by
      rcases hes e List.mem_cons_self with he | he
      · cases e with
        | sockprintf f body =>
          obtain rfl : f = fd := he
          exact sockprintf_moves hfd body
        | statusprintf f text =>
          obtain ⟨rfl, _⟩ := he
          exact queueClientBytes_moves hfd _
        | x10Write buf => exact he.elim
        | sendAll f bytes => exact he.elim
      · have hall : ∀ x ∈ [e], x.PrintsTo (-1) := fun x hx => by rwa [List.mem_singleton.mp hx]
        exact performAll_moves_of_all hwf hall
    exact hone.trans (ih (hone.wf hwf) fun x hx => hes x (List.mem_cons_of_mem _ hx))

/-- An interpreter without a sender is not that of an OpenRemote client. -/
theorem or20client_neg (h : d.descs (-1) = none) : (d.ctx env).or20client (-1) = false := by
  simp only [ctx, or20client, h]

/-- On whose behalf a line is executed. -/
def causeOf (fd : ℤ) (line : Bytes) : Cause :=
  if IsPolicyRequest line then .policy fd else .command fd

theorem causeOf_for {fd x : ℤ} {line : Bytes} : (causeOf fd line).For x ↔ x = fd := by
  rw [causeOf]
  split
  · simp [Cause.For, eq_comm]
  · simp [Cause.For, eq_comm]

/-- The request for a policy is answered past the queue. -/
theorem processcommandline_policy_eq {fd : ℤ} {line : Bytes} (h : IsPolicyRequest line) :
    d.processcommandline env fd line =
      (({ d with x10 := (Mochad.processcommandline (d.ctx env) fd line d.x10).state }.record
        (.addressed (d.connAt fd) fd domainPolicy)).sendAll env fd domainPolicy).1 := by
  rw [processcommandline, runX10, processcommandline_policy (d.ctx env) fd h]
  rfl

/-- **A command**, on behalf of its sender. -/
theorem processcommandline_moves (h : d.descs (-1) = none) (hwf : d.clients.Wf) {fd : ℤ}
    (hfd : fd ≠ -1) (line : Bytes) :
    Moves env (causeOf fd line) d (d.processcommandline env fd line) := by
  by_cases hp : IsPolicyRequest line
  · rw [causeOf, if_pos hp, processcommandline_policy_eq hp]
    exact ((ReflTransGen.single (.x10 d _)).tail (.addressed _ fd domainPolicy
      (Or.inl (Or.inr rfl)))).tail (.send _ fd domainPolicy (Or.inr rfl))
  · let m := Mochad.processcommandline (d.ctx env) fd line
    have hcalls : ∀ e ∈ (m d.x10).effects, e.For fd :=
      emits_processcommandline (d.ctx env) fd (or20client_neg h) hp d.x10
    have hperform : Moves env (.command fd) { d with x10 := (m d.x10).state } _ :=
      performAll_moves (d := { d with x10 := (m d.x10).state }) hwf hfd hcalls
    rw [causeOf, if_neg hp]
    exact ReflTransGen.head (.x10 d _) hperform

/-- **A packet**, which has no sender. -/
theorem decode_moves (h : d.descs (-1) = none) (hwf : d.clients.Wf) (data : Bytes) :
    Moves env cause { d with intrInBuf := memcpy d.intrInBuf data } (d.decode env data) := by
  let d₁ : Daemon := { d with intrInBuf := memcpy d.intrInBuf data }
  have hor : (d₁.ctx env).or20client (-1) = false := or20client_neg (d := d₁) h
  have hrelay : ∀ line, IsPl line → X10M.Emits (Effect.PrintsTo (-1))
      (do let _ ← Mochad.processcommandline (d₁.ctx env) (-1) line) := fun line hline =>
    X10M.Emits.bind (emits_relayed (d₁.ctx env) hor 2 hline) fun _ => X10M.Emits.pure _
  refine ReflTransGen.head (.x10 d₁ _) (performAll_moves_of_all (d := { d₁ with x10 := _ }) hwf
    fun e he => ?_)
  exact emits_decode env hrelay _ _ _ e he

theorem disconnectStalledClients_moves (now : ℕ) :
    Moves env .loop d (d.disconnectStalledClients now) := by
  rw [disconnectStalledClients]
  generalize Clients.slotOrder = ss
  induction ss generalizing d with
  | nil => exact ReflTransGen.refl
  | cons s ss ih =>
    rw [List.foldl_cons]
    refine ReflTransGen.trans ?_ ih
    split
    next hst =>
      refine delClient_moves (fun hfd => ?_) (Or.inl rfl)
      simp [stalled, hfd] at hst
    · exact ReflTransGen.refl

/-- **A flush** of a live client. -/
theorem flushClientOutput_moves {s : SlotId} (hs : (d.clients.slot s).fd ≠ -1)
    (results : List SendResult) (now : ℕ) :
    Moves env .loop d (d.flushClientOutput s results now) := by
  have hdel : ∀ (a : Daemon) (e : ClientOutput.FlushEnd), Moves env .loop a
      (if e = .failed then a.delClient (d.clients.slot s).fd else a) := by
    intro a e
    split
    · exact delClient_moves hs (Or.inl rfl)
    · exact ReflTransGen.refl
  have hlen := ClientOutput.len_flush now results clientWriteBudgetPerLoop (d.clients.slot s).output
  rw [flushClientOutput]
  generalize (d.clients.slot s).output.flush now results clientWriteBudgetPerLoop = r at hlen ⊢
  refine ReflTransGen.head (.output d s r.1 hs (Or.inr (Or.inr hlen)))
    (ReflTransGen.trans ?_ (hdel _ r.2.2))
  split
  · exact ReflTransGen.refl
  · have hmove : Move env .loop (d.setOutput s r.1) _ :=
      .flushed _ s r.2.1 (r.2.2 = .kept) (by rwa [setOutput_fd]) rfl
    rw [setOutput_fd] at hmove
    exact ReflTransGen.single hmove

/-! ### Steps without clients -/

/-- **Nothing happens to clients**, and no read begins or ends. -/
structure Idle (d d' : Daemon) : Prop where
  clients : d'.clients = d.clients
  descs : d'.descs = d.descs
  nextConn : d'.nextConn = d.nextConn
  listenfd : d'.listenfd = d.listenfd
  log : ∃ es, d'.log = es ++ d.log ∧ ∀ e ∈ es, e.isNote = true
  pc : d'.pc = d.pc ∨ (d.pc.stage ≠ .reading ∧ d'.pc.stage ≠ .reading ∧
    (d'.pc.stage = .starting → d.pc.stage = .starting))

/-- Elementary changes, none of which sends past the queues, and other things in between. -/
abbrev Calm (env : Env) : Daemon → Daemon → Prop :=
  ReflTransGen fun a b => Idle a b ∨ Move env .loop a b

theorem Idle.calm (h : Idle d d') : Calm env d d' := ReflTransGen.single (Or.inl h)

theorem Moves.calm (h : Moves env .loop d d') : Calm env d d' :=
  ReflTransGen.mono (fun _ _ => Or.inr) _ _ h

/-- The main loop goes on, or the daemon stops. -/
theorem idle_of_pc (hclients : d'.clients = d.clients) (hdescs : d'.descs = d.descs)
    (hconn : d'.nextConn = d.nextConn) (hlisten : d'.listenfd = d.listenfd)
    (hlog : d'.log = d.log) (hpc : d.pc.stage ≠ .reading) (hpc' : d'.pc.stage ≠ .reading)
    (hstart : d'.pc.stage = .starting → d.pc.stage = .starting) : Idle d d' :=
  ⟨hclients, hdescs, hconn, hlisten, ⟨[], hlog, fun _ he => nomatch he⟩,
    Or.inr ⟨hpc, hpc', hstart⟩⟩

/-- The program is where it was. -/
theorem idle_of_same (hclients : d'.clients = d.clients) (hdescs : d'.descs = d.descs)
    (hconn : d'.nextConn = d.nextConn) (hlisten : d'.listenfd = d.listenfd)
    (hlog : d'.log = d.log) (hpc : d'.pc = d.pc) : Idle d d' :=
  ⟨hclients, hdescs, hconn, hlisten, ⟨[], hlog, fun _ he => nomatch he⟩, Or.inl hpc⟩

/-- An iteration ends. -/
theorem idle_iterate (hpc : d.pc.stage = .running) (snap : Snapshot)
    (loop : Option (ℕ × List Visit)) : Idle d (d.iterate snap loop) :=
  ⟨rfl, rfl, rfl, rfl, ⟨[_], rfl, fun _ he => by rw [List.mem_singleton.mp he]; rfl⟩,
    Or.inr ⟨by simp [hpc], by simp [iterate, Pc.stage], by simp [iterate, Pc.stage]⟩⟩

/-- The service loop is at a record. -/
theorem idle_serviced (fd : ℤ) (owner : Owner) (conn : Option ℕ) :
    Idle d (d.record (.serviced fd owner conn)) :=
  ⟨rfl, rfl, rfl, rfl, ⟨[_], rfl, fun _ he => by rw [List.mem_singleton.mp he]; rfl⟩, Or.inl rfl⟩

/-- The service loop goes on. -/
theorem idle_serve (hpc : d.pc.stage = .running) (l : ServiceLoop) :
    Idle d { d with pc := .serve l } :=
  idle_of_pc rfl rfl rfl rfl rfl (by simp [hpc]) (by simp [Pc.stage]) (by simp [Pc.stage])

theorem idle_counted (hpc : d.pc.stage = .running) (l : ServiceLoop) (v : Visit) :
    Idle d (d.counted l v) := by
  simp only [counted]
  split
  · exact idle_iterate hpc _ _
  · exact idle_serve hpc _

theorem idle_afterListener (hpc : d.pc.stage = .running) (snap : Snapshot) (nready : ℤ)
    (kind : Kind) : Idle d (d.afterListener snap nready kind) := by
  cases kind with
  | main | xml =>
    exact idle_of_pc rfl rfl rfl rfl rfl (by simp [hpc]) (by simp [afterListener, Pc.stage])
      (by simp [afterListener, Pc.stage])
  | or20 => exact idle_serve hpc _

theorem idle_afterAccept (hpc : d.pc.stage = .running) (snap : Snapshot) (nready : ℤ)
    (kind : Kind) : Idle d (d.afterAccept snap nready kind) := by
  rw [afterAccept]
  split
  · exact idle_iterate hpc _ _
  · exact idle_afterListener hpc _ _ _

/-! ### Frame -/

/-- What elementary changes leave alone. -/
def frame (d : Daemon) : (Pc × ℕ × (Kind → ℤ)) × List Pollfd × Bool × Bytes :=
  ((d.pc, d.nextConn, d.listenfd), d.usbPollfds, d.usbPollfdError, d.intrInBuf)

theorem Move.frame_eq (h : Move env cause d d') : d'.frame = d.frame := by
  cases h with
  | send fd bytes _ =>
    rw [sendAll]
    split
    · rfl
    · rfl
  | _ => rfl

theorem Moves.frame_eq (h : Moves env cause d d') : d'.frame = d.frame :=
  Moves.invariant (P := fun a => a.frame = d.frame) h rfl
    fun _ _ ha hm => hm.frame_eq.trans ha

/-- No slot is given to a client. -/
theorem Move.fd (h : Move env cause d d') (s : SlotId) :
    (d'.clients.slot s).fd = (d.clients.slot s).fd ∨ (d'.clients.slot s).fd = -1 := by
  cases h with
  | x10 | stamp | write | addressed | queued | flushed => exact Or.inl rfl
  | output t output hs _ => exact Or.inl (setOutput_fd d t s output)
  | close t hs _ =>
    rcases eq_or_ne s t with rfl | hst
    · exact Or.inr (closeSlot_fd d s)
    · exact Or.inl (congrArg Slot.fd (d.closeSlot_of_ne hst))
  | send fd bytes _ =>
    rw [sendAll]
    split
    · exact Or.inl rfl
    · exact Or.inl rfl

/-- The log only grows, by what is said to clients. -/
theorem Move.log (h : Move env cause d d') :
    ∃ es, d'.log = es ++ d.log ∧ ∀ e ∈ es, e.isReply = true := by
  have hone : ∀ {a : Daemon} {e : Ev}, a.log = e :: d.log → e.isReply = true →
      ∃ es, a.log = es ++ d.log ∧ ∀ e ∈ es, e.isReply = true := fun hlog he =>
    ⟨[_], hlog, fun _ hx => by rw [List.mem_singleton.mp hx, he]⟩
  cases h with
  | x10 | stamp | write | output => exact ⟨[], rfl, fun _ he => nomatch he⟩
  | addressed | queued | flushed | close => exact hone rfl rfl
  | send fd bytes _ =>
    rw [sendAll]
    split
    · exact hone rfl rfl
    · exact hone rfl rfl

theorem Moves.log (h : Moves env cause d d') :
    ∃ es, d'.log = es ++ d.log ∧ ∀ e ∈ es, e.isReply = true := by
  refine Moves.invariant (P := fun a => ∃ es, a.log = es ++ d.log ∧ ∀ e ∈ es, e.isReply = true) h
    ⟨[], rfl, fun _ he => nomatch he⟩ fun a b ha hm => ?_
  obtain ⟨es, hes, hreply⟩ := ha
  obtain ⟨es', hes', hreply'⟩ := hm.log
  refine ⟨es' ++ es, by rw [hes', hes, List.append_assoc], fun e he => ?_⟩
  rcases List.mem_append.mp he with he | he
  · exact hreply' e he
  · exact hreply e he

theorem Moves.pc_eq (h : Moves env cause d d') : d'.pc = d.pc :=
  congrArg (fun f => f.1.1) h.frame_eq

/-! ### The two sides -/

/-- The X10 side and the USB side, which closing and queueing leave alone. -/
def sides (d : Daemon) : X10State × Usb := (d.x10, d.usb)

theorem delClient_sides (d : Daemon) (fd : ℤ) : (d.delClient fd).sides = d.sides := by
  rw [delClient]
  split
  · rfl
  · rfl

theorem sendAll_sides (env : Env) (d : Daemon) (fd : ℤ) (bytes : Bytes) :
    (d.sendAll env fd bytes).1.sides = d.sides := by
  rw [sendAll]
  split
  · rfl
  · rfl

theorem queueClientBytes_sides (env : Env) (d : Daemon) (fd : ℤ) (bytes : Bytes) :
    (d.queueClientBytes env fd bytes).1.sides = d.sides := by
  rw [queueClientBytes]
  split
  · rfl
  rw [enqueueBytes]
  split
  · exact sendAll_sides env _ fd bytes
  split
  · rfl
  · exact delClient_sides _ fd

theorem toAll_sides (env : Env) (kind : Kind) (line : Bytes) (d : Daemon) :
    (d.toAll env kind line).sides = d.sides := by
  rw [toAll]
  induction List.finRange maxCliSockets generalizing d with
  | nil => rfl
  | cons i is ih =>
    rw [List.foldl_cons, ih]
    dsimp only
    split
    · exact queueClientBytes_sides env d _ line
    · rfl

theorem sockprintf_sides (env : Env) (d : Daemon) (fd : ℤ) (body : Bytes) :
    (d.sockprintf env fd body).sides = d.sides := by
  rw [sockprintf]
  split
  · exact (toAll_sides env _ _ _).trans (toAll_sides env _ _ _)
  · exact queueClientBytes_sides env _ fd _

/-- A call changes the X10 side only through the functions that make it. -/
theorem performAll_x10 (env : Env) (d : Daemon) (es : List Effect) :
    (d.performAll env es).x10 = d.x10 := by
  induction es generalizing d with
  | nil => rfl
  | cons e es ih =>
    refine (ih (d.perform env e)).trans ?_
    cases e with
    | sockprintf fd body => exact congrArg Prod.fst (sockprintf_sides env d fd body)
    | statusprintf fd text => exact congrArg Prod.fst (queueClientBytes_sides env d fd _)
    | sendAll fd bytes => exact congrArg Prod.fst (sendAll_sides env _ fd bytes)
    | x10Write buf => rfl

theorem disconnectStalledClients_sides (d : Daemon) (now : ℕ) :
    (d.disconnectStalledClients now).sides = d.sides := by
  rw [disconnectStalledClients]
  induction Clients.slotOrder generalizing d with
  | nil => rfl
  | cons s ss ih =>
    rw [List.foldl_cons, ih]
    split
    · exact delClient_sides d _
    · rfl

theorem flushClientOutput_sides (d : Daemon) (s : SlotId) (results : List SendResult) (now : ℕ) :
    (d.flushClientOutput s results now).sides = d.sides := by
  simp only [flushClientOutput]
  split
  · rw [delClient_sides]
    split
    · rfl
    · rfl
  · split
    · rfl
    · rfl

end Daemon

end Mochad
