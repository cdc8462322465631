import Mochad.Core.Iteration
import Mochad.Core.Kinds
import Mochad.Library.Trace

/-!
# Texts that join queues

Which texts join the queue of a client, and at whose instance. A text joins a queue while a packet
is decoded or a line is executed, and at no other time (`Daemon.step_talk`); and then it is one of
the texts that a call of the X10 side makes (`Daemon.Offers`).

So a property of queued texts, which may look at what was logged before, is shown for the texts of
the calls (`Daemon.texts_performAll`).
-/

namespace Mochad

/-- A text joins a queue. -/
def Ev.isQueued : Ev → Bool
  | .queued _ _ _ => true
  | _ => false

/-- A property of the texts that join queues, as a property of events. -/
def Ev.Text (Q : Option ℕ → ℤ → Bytes → List Ev → Prop) : Ev → List Ev → Prop
  | .queued conn fd bytes, older => Q conn fd bytes older
  | _, _ => True

/-- **Every text that joined a queue has a property.** -/
abbrev Texts (Q : Option ℕ → ℤ → Bytes → List Ev → Prop) (log : List Ev) : Prop :=
  Trace.Each (Ev.Text Q) log

variable {Q : Option ℕ → ℤ → Bytes → List Ev → Prop}

theorem Ev.text_of_not_queued {e : Ev} (he : e.isQueued = false) (older : List Ev) :
    e.Text Q older := by
  cases e with
  | queued => cases he
  | _ => trivial

theorem Texts.append {log es : List Ev} (h : Texts Q log) (hes : ∀ e ∈ es, e.isQueued = false) :
    Texts Q (es ++ log) :=
  Trace.Each.append h fun e he older => Ev.text_of_not_queued (hes e he) older

theorem Texts.cons {log : List Ev} {e : Ev} (h : Texts Q log) (he : e.isQueued = false) :
    Texts Q (e :: log) := Trace.each_cons.mpr ⟨Ev.text_of_not_queued he log, h⟩

theorem Texts.of_queued {log older : List Ev} (h : Texts Q log) {conn : Option ℕ} {fd : ℤ}
    {bytes : Bytes} (hq : .queued conn fd bytes :: older <:+ log) : Q conn fd bytes older :=
  h (.queued conn fd bytes) older hq

namespace Daemon

variable {env : Env} {d d' : Daemon}

/-! ### When no text joins a queue -/

/-- **No text joins a queue.** -/
def Mum (d d' : Daemon) : Prop := ∃ es, d'.log = es ++ d.log ∧ ∀ e ∈ es, e.isQueued = false

theorem mum_of_log (h : d'.log = d.log) : d.Mum d' := ⟨[], h, nofun⟩

theorem mum_of_cons {e : Ev} (h : d'.log = e :: d.log) (he : e.isQueued = false) : d.Mum d' :=
  ⟨[e], h, fun x hx => by rwa [List.mem_singleton.mp hx]⟩

theorem Mum.trans {d₁ : Daemon} (h : d.Mum d₁) (h' : d₁.Mum d') : d.Mum d' := by
  obtain ⟨es, hes, hnot⟩ := h
  obtain ⟨es', hes', hnot'⟩ := h'
  refine ⟨es' ++ es, by rw [hes', hes, List.append_assoc], fun e he => ?_⟩
  rcases List.mem_append.mp he with he | he
  · exact hnot' e he
  · exact hnot e he

theorem Mum.texts (h : d.Mum d') (hd : Texts Q d.log) : Texts Q d'.log := by
  obtain ⟨es, hes, hnot⟩ := h
  rw [hes]
  exact hd.append hnot

theorem mum_delClient (d : Daemon) (fd : ℤ) : d.Mum (d.delClient fd) := by
  rw [delClient]
  split
  · exact mum_of_log rfl
  · exact mum_of_cons rfl rfl

theorem mum_sendAll (env : Env) (d : Daemon) (fd : ℤ) (bytes : Bytes) :
    d.Mum (d.sendAll env fd bytes).1 := by
  rw [sendAll]
  split
  · exact mum_of_cons rfl rfl
  · exact mum_of_cons rfl rfl

theorem mum_disconnectStalledClients (d : Daemon) (now : ℕ) :
    d.Mum (d.disconnectStalledClients now) := by
  rw [disconnectStalledClients]
  induction Clients.slotOrder generalizing d with
  | nil => exact mum_of_log rfl
  | cons s ss ih =>
    rw [List.foldl_cons]
    refine Mum.trans ?_ (ih _)
    split
    · exact mum_delClient d _
    · exact mum_of_log rfl

theorem mum_flushClientOutput (d : Daemon) (s : SlotId) (results : List SendResult) (now : ℕ) :
    d.Mum (d.flushClientOutput s results now) := by
  have hdel : ∀ (a : Daemon) (e : ClientOutput.FlushEnd),
      a.Mum (if e = .failed then a.delClient (d.clients.slot s).fd else a) := by
    intro a e
    split
    · exact mum_delClient a _
    · exact mum_of_log rfl
  rw [flushClientOutput]
  generalize (d.clients.slot s).output.flush now results clientWriteBudgetPerLoop = r
  refine Mum.trans ?_ (hdel _ r.2.2)
  split
  · exact mum_of_log rfl
  · exact mum_of_cons rfl rfl

theorem mum_counted (d : Daemon) (l : ServiceLoop) (v : Visit) : d.Mum (d.counted l v) := by
  rcases counted_cases d l v with ⟨_, heq⟩ | ⟨_, heq⟩
  · rw [heq]
    exact mum_of_cons rfl rfl
  · rw [heq]
    exact mum_of_log rfl

theorem mum_doService {l : ServiceLoop} {results : List SendResult} {now : ℕ} {read : ReadResult}
    (h : d.doService l results now read = some d') : d.Mum d' := by
  obtain ⟨_, e, _, ⟨_, rfl⟩ | ⟨_, d₁, flushed, hd₁, _, hcase⟩⟩ := doService_cases h
  · exact mum_of_log rfl
  have hservicing : ∀ a : Daemon, a.Mum (a.servicing e) := fun _ => mum_of_cons rfl rfl
  have hout : d.Mum d₁ := by
    rw [hd₁]
    split
    · rcases doPollout_eq d e results now with ⟨_, heq⟩ | ⟨s, _, heq⟩
      · rw [heq]
        exact mum_of_log rfl
      · rw [heq]
        exact (hservicing d).trans (mum_flushClientOutput _ s results now)
    · exact mum_of_log rfl
  rcases hcase with ⟨_, _, rfl⟩ | ⟨_, ⟨_, hread⟩ | ⟨_, rfl⟩⟩
  · exact hout
  · refine hout.trans ((hservicing d₁).trans ?_)
    rcases doPollin_eq hread with rfl | rfl | ⟨s, bytes, _, rfl⟩
    · exact (mum_delClient _ e.fd).trans (mum_counted _ l _)
    · exact mum_counted _ l _
    · exact mum_of_cons rfl rfl
  · exact hout

/-- **What a step has to do with queued texts.** -/
inductive Talk (env : Env) (d : Daemon) (label : Label) (d' : Daemon) : Prop
  /-- Nothing. -/
  | mum (h : d.Mum d')
  /-- A packet is decoded. -/
  | packet (usb usb' : Usb) (data : Bytes) (hlen : data.length ≤ 8)
      (h : d' = { Daemon.decode env { d with usb := usb } data with usb := usb' })
  /-- A byte completes a line. -/
  | line (l : ServiceLoop) (r : Reading) (b : UInt8) (rest line : Bytes) (hlabel : label = .byte)
      (hpc : d.pc = .encode l r) (hrest : r.rest = b :: rest)
      (hline : (encodeByte (d.clients.slot r.slot).state r.remptr b).2.2 = some line)
      (h : d' = (d.afterByte l r b rest).runLine env r line)

/-- **A text joins a queue while a packet is decoded or a line is executed.** -/
theorem step_talk {label : Label} (hs : d.step env label = some d') : Talk env d label d' := by
  rcases step_case hs with hi | ⟨usb, now, pc, _, _, _, rfl⟩ | ⟨usb, usb', data, hlen, rfl⟩ |
    ⟨fd, desc, _, _, _, rfl⟩ | ⟨main, xml, or20, hpc, hl⟩ |
    ⟨snap, nready, kind, fd, nb, _, _, _, rfl⟩ | ⟨l, results, now, read, _, _, hserve⟩ |
    ⟨l, r, hlabel, hpc, hb⟩ | ⟨l, r, _, he⟩
  · obtain ⟨es, hes, hnotes⟩ := hi.log
    refine .mum ⟨es, hes, fun e he => ?_⟩
    have hn := hnotes e he
    cases e with
    | queued => cases hn
    | _ => rfl
  · have hclosed := mum_disconnectStalledClients { d with usb := usb } now
    generalize Daemon.disconnectStalledClients _ now = a at hclosed ⊢
    exact .mum hclosed
  · exact .packet usb usb' data hlen rfl
  · exact .mum (mum_of_log rfl)
  · refine .mum (mum_of_log ?_)
    simp only [doCreateListeners] at hl
    split at hl
    · split at hl
      · obtain rfl := Option.some.inj hl
        rfl
      · obtain rfl := Option.some.inj hl
        rfl
    · cases hl
  · have hadded : d.Mum (d.addAccepted env kind fd nb) := by
      rcases addAccepted_cases env d kind fd nb with ⟨s, _, heq⟩ | heq
      · rw [heq]
        exact mum_of_cons rfl rfl
      · rw [heq]
        exact mum_of_cons rfl rfl
    refine .mum (hadded.trans ?_)
    rcases afterAccept_cases (d.addAccepted env kind fd nb) snap nready kind with
      ⟨_, heq⟩ | ⟨_, heq⟩
    · rw [heq]
      exact mum_of_cons rfl rfl
    · rw [heq]
      cases kind with
      | main | xml | or20 => exact mum_of_log rfl
  · exact .mum (mum_doService hserve)
  · obtain ⟨b, rest, hrest, ⟨_, rfl⟩ | ⟨line, hline, rfl⟩⟩ := doByte_cases hb
    · exact .mum (mum_of_cons rfl rfl)
    · exact .line l r b rest line hlabel hpc hrest hline rfl
  · obtain ⟨_, rfl⟩ := doEncoded_eq he
    generalize EncodeState.mk _ _ _ _ = state
    have hstored : d.Mum (d.setState r.slot state) := mum_of_log rfl
    exact .mum (hstored.trans (mum_counted _ l _))

/-! ### The texts of a call -/

/-- **The texts that a call has for descriptors.** -/
inductive Offers (env : Env) (d : Daemon) : Effect → ℤ → Bytes → Prop
  | main (body : Bytes) (reads : ℕ) (i : Fin maxCliSockets)
      (hpos : 0 < (d.clients.slot (.main, i)).fd) :
      Offers env d (.sockprintf (-1) body) (d.clients.slot (.main, i)).fd
        (stampedLine env reads body)
  | xml (body : Bytes) (reads : ℕ) (i : Fin maxCliSockets)
      (hpos : 0 < (d.clients.slot (.xml, i)).fd) :
      Offers env d (.sockprintf (-1) body) (d.clients.slot (.xml, i)).fd
        (nulTerminated (stampedLine env reads body))
  | reply (fd : ℤ) (body : Bytes) (reads : ℕ) (hfd : fd ≠ -1) :
      Offers env d (.sockprintf fd body) fd
        (if d.clients.xmlclient fd then nulTerminated (stampedLine env reads body)
          else stampedLine env reads body)
  | status (fd : ℤ) (text : Bytes) : Offers env d (.statusprintf fd text) fd (formatBounded 1024 text)

/-- The calls that a cause makes: what prints to all, and answers to the sender. -/
def Cause.Makes (cause : Cause) (e : Effect) : Prop :=
  e.PrintsTo (-1) ∨ ∃ fd, fd ≠ -1 ∧ cause = .command fd ∧ e.RepliesTo fd

theorem Cause.makes_of_for {fd : ℤ} (hfd : fd ≠ -1) {e : Effect} (he : e.For fd) :
    (Cause.command fd).Makes e := by
  rcases he with he | he
  · exact Or.inr ⟨fd, hfd, rfl, he⟩
  · exact Or.inl he

/-- A text joins the queue of its client, or the client is gone. -/
theorem texts_queueClientBytes (h : Texts Q d.log) {fd : ℤ} {bytes : Bytes}
    (hq : Q (d.connAt fd) fd bytes (.addressed (d.connAt fd) fd bytes :: d.log)) :
    Texts Q (d.queueClientBytes env fd bytes).1.log := by
  rw [queueClientBytes]
  split
  · exact h
  have haddressed : Texts Q (d.record (.addressed (d.connAt fd) fd bytes)).log := h.cons rfl
  rw [enqueueBytes]
  split
  · exact (mum_sendAll env _ fd bytes).texts haddressed
  · split
    · exact Trace.each_cons.mpr ⟨hq, haddressed⟩
    · exact (mum_delClient _ fd).texts haddressed

variable {cause : Cause}

/-- What has been done so far for a cause, and the texts up to there. -/
abbrev TextsSoFar (env : Env) (cause : Cause) (Q : Option ℕ → ℤ → Bytes → List Ev → Prop)
    (d a : Daemon) : Prop := Moves env cause d a ∧ Texts Q a.log

/-- One more text. -/
theorem TextsSoFar.queue {a : Daemon} (h : TextsSoFar env cause Q d a) {fd : ℤ} {bytes : Bytes}
    (hm : Moves env cause a (a.queueClientBytes env fd bytes).1)
    (hq : Q (a.connAt fd) fd bytes (.addressed (a.connAt fd) fd bytes :: a.log)) :
    TextsSoFar env cause Q d (a.queueClientBytes env fd bytes).1 :=
  ⟨h.1.trans hm, texts_queueClientBytes h.2 hq⟩

/-- **A line for a table.** -/
theorem TextsSoFar.toAll (hwf : d.clients.Wf) {a : Daemon} (h : TextsSoFar env cause Q d a)
    {kind : Kind} (hkind : kind ≠ .or20) {line : Bytes}
    (hq : ∀ b : Daemon, Moves env cause d b → ∀ i, 0 < (b.clients.slot (kind, i)).fd →
      Q (b.connAt (b.clients.slot (kind, i)).fd) (b.clients.slot (kind, i)).fd line
        (.addressed (b.connAt (b.clients.slot (kind, i)).fd) (b.clients.slot (kind, i)).fd line ::
          b.log)) :
    TextsSoFar env cause Q d (a.toAll env kind line) := by
  rw [Daemon.toAll]
  induction List.finRange maxCliSockets generalizing a with
  | nil => exact h
  | cons i is ih =>
    rw [List.foldl_cons]
    refine ih ?_
    dsimp only
    split
    next hpos =>
      have hfd : (a.clients.slot (kind, i)).fd ≠ -1 := by omega
      exact h.queue (queueClientBytes_moves_of_live hfd ((h.1.wf hwf).find_eq hfd) (Or.inr hkind) line)
        (hq a h.1 i hpos)
    · exact h

/-- **One call.** -/
theorem TextsSoFar.perform (hwf : d.clients.Wf) {a : Daemon} (h : TextsSoFar env cause Q d a)
    {e : Effect} (he : cause.Makes e)
    (hq : ∀ b : Daemon, Moves env cause d b → ∀ fd bytes, Offers env b e fd bytes →
      Q (b.connAt fd) fd bytes (.addressed (b.connAt fd) fd bytes :: b.log)) :
    TextsSoFar env cause Q d (a.perform env e) := by
  have hstamp : TextsSoFar env cause Q d { a with stampReads := a.stampReads + 1 } :=
    ⟨h.1.tail (.stamp a), h.2⟩
  rcases he with he | ⟨fd, hfd, rfl, he⟩
  · cases e with
    | sockprintf f body =>
      obtain rfl : f = -1 := he
      have hmain : TextsSoFar env cause Q d (Daemon.toAll env .main (stampedLine env a.stampReads body)
          { a with stampReads := a.stampReads + 1 }) :=
        TextsSoFar.toAll hwf hstamp (by decide)
          fun b hb i hpos => hq b hb _ _ (.main body a.stampReads i hpos)
      rw [Daemon.perform, sockprintf, if_pos rfl]
      exact TextsSoFar.toAll hwf hmain (by decide)
        fun b hb i hpos => hq b hb _ _ (.xml body a.stampReads i hpos)
    | x10Write buf => exact ⟨h.1.tail (.write a buf), h.2⟩
    | statusprintf f text => exact he.elim
    | sendAll f bytes => exact he.elim
  · cases e with
    | sockprintf f body =>
      obtain rfl : f = fd := he
      rw [Daemon.perform, sockprintf, if_neg hfd]
      exact hstamp.queue (queueClientBytes_moves hfd _) (hq _ hstamp.1 f _ (.reply f body _ hfd))
    | statusprintf f text =>
      obtain ⟨rfl, _⟩ := he
      exact h.queue (queueClientBytes_moves hfd _) (hq a h.1 f _ (.status f text))
    | x10Write buf => exact he.elim
    | sendAll f bytes => exact he.elim

/-- **The calls of an X10 function** queue the texts that they have. -/
theorem texts_performAll (hwf : d.clients.Wf) {es : List Effect} (hes : ∀ e ∈ es, cause.Makes e)
    (hq : ∀ e ∈ es, ∀ b : Daemon, Moves env cause d b → ∀ fd bytes, Offers env b e fd bytes →
      Q (b.connAt fd) fd bytes (.addressed (b.connAt fd) fd bytes :: b.log))
    (h : Texts Q d.log) : Texts Q (d.performAll env es).log := by
  suffices hall : ∀ a, TextsSoFar env cause Q d a → TextsSoFar env cause Q d (a.performAll env es) from
    (hall d ⟨Relation.ReflTransGen.refl, h⟩).2
  induction es with
  | nil => exact fun _ ha => ha
  | cons e es ih =>
    intro a ha
    have hone := ha.perform hwf (hes e List.mem_cons_self) (hq e List.mem_cons_self)
    exact ih (fun x hx => hes x (List.mem_cons_of_mem _ hx))
      (fun x hx => hq x (List.mem_cons_of_mem _ hx)) _ hone

/-- **A line** that is no request for a policy. -/
theorem texts_processcommandline (ht : d.Tables env) {fd : ℤ} (hfd : fd ≠ -1) {line : Bytes}
    (hline : ¬IsPolicyRequest line)
    (hq : ∀ e ∈ (Mochad.processcommandline (d.ctx env) fd line d.x10).effects, ∀ b : Daemon,
      Moves env (.command fd) d b → ∀ x bytes, Offers env b e x bytes →
        Q (b.connAt x) x bytes (.addressed (b.connAt x) x bytes :: b.log))
    (h : Texts Q d.log) : Texts Q (d.processcommandline env fd line).log := by
  let m := Mochad.processcommandline (d.ctx env) fd line
  have hcalls : ∀ e ∈ (m d.x10).effects, (Cause.command fd).Makes e := fun e he =>
    Cause.makes_of_for hfd
      (emits_processcommandline (d.ctx env) fd (or20client_neg ht.descs) hline d.x10 e he)
  exact texts_performAll (d := { d with x10 := (m d.x10).state }) ht.wf hcalls
    (fun e he b hb => hq e he b (Relation.ReflTransGen.head (.x10 d _) hb)) h

/-- **A line**, and what is done after it. -/
theorem texts_runLine (ht : d.Tables env) {r : Reading} (hfd : r.fd ≠ -1) {line : Bytes}
    (hq : ¬IsPolicyRequest line →
      ∀ e ∈ (Mochad.processcommandline ((d.record (.command r.conn r.fd line)).ctx env) r.fd line
        d.x10).effects, ∀ b : Daemon,
          Moves env (.command r.fd) (d.record (.command r.conn r.fd line)) b →
            ∀ x bytes, Offers env b e x bytes →
            Q (b.connAt x) x bytes (.addressed (b.connAt x) x bytes :: b.log))
    (h : Texts Q d.log) : Texts Q (d.runLine env r line).log := by
  have hcommand : Texts Q (d.record (.command r.conn r.fd line)).log := h.cons rfl
  have hrun : Texts Q ((d.record (.command r.conn r.fd line)).processcommandline env r.fd line).log := by
    by_cases hp : IsPolicyRequest line
    · rw [processcommandline_policy_eq hp]
      generalize d.record (.command r.conn r.fd line) = a at hcommand
      have haddressed : ∀ x conn, Texts Q
          (Daemon.record { a with x10 := x } (.addressed conn r.fd domainPolicy)).log :=
        fun _ _ => hcommand.cons rfl
      exact (mum_sendAll env _ r.fd domainPolicy).texts (haddressed _ _)
    · exact texts_processcommandline (ht.record _) hfd hp (hq hp) hcommand
  rw [runLine]
  split
  · exact (mum_delClient _ r.fd).texts hrun
  · exact hrun

/-- The calls that a packet makes. -/
def packetCalls (env : Env) (d : Daemon) (data : Bytes) : List Effect :=
  (cm15aDecode env (fun fd line => do let _ ← Mochad.processcommandline (d.ctx env) fd line) (-1)
    (Memory.ofBytes d.intrInBuf env.stack) data.length d.x10).effects

/-- A packet is printed to all. -/
theorem packetCalls_all (ht : d.Tables env) (data : Bytes) :
    ∀ e ∈ packetCalls env d data, e.PrintsTo (-1) := by
  have hor : (d.ctx env).or20client (-1) = false := or20client_neg ht.descs
  have hrelay : ∀ line, IsPl line → X10M.Emits (Effect.PrintsTo (-1))
      (do let _ ← Mochad.processcommandline (d.ctx env) (-1) line) := fun line hline =>
    X10M.Emits.bind (emits_relayed (d.ctx env) hor 2 hline) fun _ => X10M.Emits.pure _
  exact emits_decode env hrelay _ _ _

/-- **A packet.** -/
theorem texts_decode (ht : d.Tables env) (data : Bytes)
    (hq : ∀ e ∈ packetCalls env { d with intrInBuf := memcpy d.intrInBuf data } data, ∀ b : Daemon,
      Moves env .loop { d with intrInBuf := memcpy d.intrInBuf data } b →
        ∀ x bytes, Offers env b e x bytes →
          Q (b.connAt x) x bytes (.addressed (b.connAt x) x bytes :: b.log))
    (h : Texts Q d.log) : Texts Q (d.decode env data).log := by
  let d₁ : Daemon := { d with intrInBuf := memcpy d.intrInBuf data }
  have ht₁ : d₁.Tables env := ht.congr ht.wf (fun _ => rfl) rfl rfl ht.reading id
  have hcalls : ∀ e ∈ packetCalls env d₁ data, Cause.loop.Makes e := fun e he =>
    Or.inl (packetCalls_all ht₁ data e he)
  exact texts_performAll (d := { d₁ with x10 := _ }) ht.wf hcalls
    (fun e he b hb => hq e he b (Relation.ReflTransGen.head (.x10 d₁ _) hb)) h

end Daemon

end Mochad
