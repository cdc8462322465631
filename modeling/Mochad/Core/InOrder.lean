import Mochad.Core.Iteration
import Mochad.Core.OpenRemote

/-!
# In which order a client is told

What is addressed to a client joins its queue, and the queue is sent from the front, so that
the client gets the texts in the order in which they were addressed to it. But one text does not
join the queue: the policy is sent at once, past what waits, and as much of it as the socket takes.

`Daemon.Ordered` is the invariant: what was addressed to a client that is there is what was sent
to it, followed by what waits. It is lost only by a request for a policy. `Daemon.PolicyWhole` is
what such a request must meet: nothing waits, and the socket takes the whole policy; or the client
is one that is closed after its line, and either nothing waits or nothing is taken.

A function that answers clients does so by queueing texts, so that what queueing keeps is kept by
all of them (`Daemon.Queueing`).
-/

namespace Mochad

namespace Daemon

variable {env : Env} {d d' : Daemon}

/-! ### What queueing keeps -/

/-- **A property that queueing a text keeps**, and what does not concern clients. -/
structure Queueing (env : Env) (P : Daemon → Prop) : Prop where
  x10 : ∀ d x, P d → P { d with x10 := x }
  stamp : ∀ d, P d → P { d with stampReads := d.stampReads + 1 }
  write : ∀ d buf, P d → P { d with usb := (d.usb.x10Write env buf).1 }
  queue : ∀ d fd bytes, fd ≠ -1 → P d → P (d.queueClientBytes env fd bytes).1

namespace Queueing

variable {P : Daemon → Prop}

theorem toAll (hP : Queueing env P) (kind : Kind) (line : Bytes) (h : P d) :
    P (d.toAll env kind line) := by
  rw [Daemon.toAll]
  induction List.finRange maxCliSockets generalizing d with
  | nil => exact h
  | cons i is ih =>
    rw [List.foldl_cons]
    refine ih ?_
    dsimp only
    split
    next hpos => exact hP.queue d _ line (by omega) h
    · exact h

theorem sockprintf (hP : Queueing env P) (fd : ℤ) (body : Bytes) (h : P d) :
    P (d.sockprintf env fd body) := by
  rw [Daemon.sockprintf]
  split
  · exact hP.toAll _ _ (hP.toAll _ _ (hP.stamp d h))
  next hfd => exact hP.queue _ fd _ hfd (hP.stamp d h)

theorem performAll (hP : Queueing env P) {fd : ℤ} (hfd : fd ≠ -1) {es : List Effect}
    (hes : ∀ e ∈ es, e.For fd) (h : P d) : P (d.performAll env es) := by
  induction es generalizing d with
  | nil => exact h
  | cons e es ih =>
    refine ih (fun x hx => hes x (List.mem_cons_of_mem _ hx)) ?_
    have he := hes e List.mem_cons_self
    cases e with
    | sockprintf f body => exact hP.sockprintf f body h
    | statusprintf f text =>
      have hf : f ≠ -1 := by
        rcases he with ⟨rfl, _⟩ | he
        · exact hfd
        · exact he.elim
      exact hP.queue d f _ hf h
    | sendAll f bytes => exact (he.elim id id).elim
    | x10Write buf => exact hP.write d buf h

/-- **A command** that is no request for a policy. -/
theorem processcommandline (hP : Queueing env P) (hneg : d.descs (-1) = none) {fd : ℤ}
    (hfd : fd ≠ -1) {line : Bytes} (hline : ¬IsPolicyRequest line) (h : P d) :
    P (d.processcommandline env fd line) :=
  hP.performAll hfd (emits_processcommandline (d.ctx env) fd (or20client_neg hneg) hline d.x10)
    (hP.x10 d _ h)

/-- **A packet.** -/
theorem decode (hP : Queueing env P) (hneg : d.descs (-1) = none) (data : Bytes)
    (h : P { d with intrInBuf := memcpy d.intrInBuf data }) : P (d.decode env data) := by
  let d₁ : Daemon := { d with intrInBuf := memcpy d.intrInBuf data }
  have hor : (d₁.ctx env).or20client (-1) = false := or20client_neg (d := d₁) hneg
  have hrelay : ∀ line, IsPl line → X10M.Emits (Effect.PrintsTo (-1))
      (do let _ ← Mochad.processcommandline (d₁.ctx env) (-1) line) := fun line hline =>
    X10M.Emits.bind (emits_relayed (d₁.ctx env) hor 2 hline) fun _ => X10M.Emits.pure _
  have hfor : ∀ e : Effect, e.PrintsTo (-1) → e.For 0 := fun _ he => Or.inr he
  exact hP.performAll (by decide) (fun e he => hfor e (emits_decode env hrelay _ _ _ e he))
    (hP.x10 d₁ _ h)

end Queueing

/-! ### The invariant -/

/-- **Every client gets its texts in order**, but that more was addressed to the client of this
descriptor than was sent to it and waits. -/
structure OrderedBut (env : Env) (fd : ℤ) (d : Daemon) : Prop where
  tables : d.Tables env
  fits : ∀ s, (d.clients.slot s).output.len ≤ clientOutputQueueSize
  unborn : ∀ c, d.nextConn ≤ c → addressedTo c d.log = []
  sent : ∀ c, sentTo c d.log <+: addressedTo c d.log
  waits : ∀ c s, (d.clients.slot s).fd ≠ fd → d.connAt (d.clients.slot s).fd = some c →
    addressedTo c d.log = sentTo c d.log ++ (d.clients.slot s).output.contents

/-- **Every client gets its texts in order.** -/
abbrev Ordered (env : Env) (d : Daemon) : Prop := OrderedBut env (-1) d

variable {fd : ℤ}

theorem OrderedBut.weaken (h : d.Ordered env) (fd : ℤ) : d.OrderedBut env fd := by
  refine ⟨h.tables, h.fits, h.unborn, h.sent, fun c s _ hc => h.waits c s (fun hneg => ?_) hc⟩
  rw [hneg, h.tables.connAt_neg] at hc
  cases hc

/-- No client has the descriptor. -/
theorem OrderedBut.ordered (h : d.OrderedBut env fd) (hfd : d.connAt fd = none) :
    d.Ordered env := by
  refine ⟨h.tables, h.fits, h.unborn, h.sent, fun c s _ hc => h.waits c s (fun heq => ?_) hc⟩
  rw [heq, hfd] at hc
  cases hc

/-- What is said is nothing that is addressed or sent to a client. -/
theorem collect_silent {es log : List Ev}
    (hes : ∀ e ∈ es, ∀ c, e.addressedTo c = [] ∧ e.sentTo c = []) (c : ℕ) :
    addressedTo c (es ++ log) = addressedTo c log ∧ sentTo c (es ++ log) = sentTo c log :=
  ⟨Trace.collect_append_of_nil fun e he => (hes e he c).1,
    Trace.collect_append_of_nil fun e he => (hes e he c).2⟩

theorem silent_of_not_reply {e : Ev} (he : e.isReply = false) (c : ℕ) :
    e.addressedTo c = [] ∧ e.sentTo c = [] := by
  cases e with
  | addressed | queued | sent | closed => cases he
  | _ => exact ⟨rfl, rfl⟩

/-- **Nothing changes** that concerns descriptors, queues, or what clients are told. -/
theorem OrderedBut.congr (h : d.OrderedBut env fd) (ht : d'.Tables env)
    (hfd : ∀ s, (d'.clients.slot s).fd = (d.clients.slot s).fd)
    (hout : ∀ s, (d'.clients.slot s).output = (d.clients.slot s).output)
    (hdescs : d'.descs = d.descs) (hnext : d'.nextConn = d.nextConn)
    (hlog : ∃ es, d'.log = es ++ d.log ∧ ∀ e ∈ es, ∀ c, e.addressedTo c = [] ∧ e.sentTo c = []) :
    d'.OrderedBut env fd := by
  obtain ⟨es, hes, hsilent⟩ := hlog
  have hsame : ∀ c, addressedTo c d'.log = addressedTo c d.log ∧
      sentTo c d'.log = sentTo c d.log := by
    intro c
    rw [hes]
    exact collect_silent hsilent c
  refine ⟨ht, fun s => ?_, fun c hc => ?_, fun c => ?_, fun c s hs hc => ?_⟩
  · rw [hout]
    exact h.fits s
  · rw [(hsame c).1]
    exact h.unborn c (hnext ▸ hc)
  · rw [(hsame c).1, (hsame c).2]
    exact h.sent c
  · rw [hfd] at hs hc
    rw [connAt, hdescs] at hc
    rw [(hsame c).1, (hsame c).2, hout]
    exact h.waits c s hs hc

/-- Only what is no business of clients changes. -/
theorem OrderedBut.same (h : d.OrderedBut env fd) (ht : d'.Tables env)
    (hclients : d'.clients = d.clients) (hdescs : d'.descs = d.descs)
    (hnext : d'.nextConn = d.nextConn)
    (hlog : ∃ es, d'.log = es ++ d.log ∧ ∀ e ∈ es, e.isReply = false) : d'.OrderedBut env fd := by
  obtain ⟨es, hes, hnot⟩ := hlog
  exact h.congr ht (fun s => by rw [hclients]) (fun s => by rw [hclients]) hdescs hnext
    ⟨es, hes, fun e he => silent_of_not_reply (hnot e he)⟩

theorem Ordered.idle (h : d.Ordered env) (hi : Idle d d') : d'.Ordered env := by
  obtain ⟨es, hes, hnote⟩ := hi.log
  refine h.same (h.tables.idle hi) hi.clients hi.descs hi.nextConn ⟨es, hes, fun e he => ?_⟩
  have hn := hnote e he
  cases e with
  | addressed | queued | sent | closed => cases hn
  | _ => rfl

/-! ### Queueing -/

/-- A connection that is open was accepted. -/
theorem Tables.conn_lt (ht : d.Tables env) {c : ℕ} (hc : d.connAt fd = some c) :
    c < d.nextConn := by
  obtain ⟨p, hp⟩ := connAt_eq_some.mp hc
  obtain ⟨s, hs⟩ := ht.slot fd c p hp
  have hlive : (d.clients.slot s).fd ≠ -1 := by
    intro hneg
    rw [← hs, hneg, ht.connAt_neg] at hc
    cases hc
  obtain ⟨c', hlt, hc'⟩ := ht.connAt hlive
  rw [hs, hc] at hc'
  obtain rfl := Option.some.inj hc'
  exact hlt

theorem addressedTo_addressed (c : ℕ) (fd : ℤ) (conn : Option ℕ) (bytes : Bytes) (log : List Ev) :
    addressedTo c (.addressed conn fd bytes :: log) =
      addressedTo c log ++ if conn = some c then bytes else [] := Trace.collect_cons

theorem sentTo_sent (c : ℕ) (fd : ℤ) (conn : Option ℕ) (bytes : Bytes) (ok : Bool) (log : List Ev) :
    sentTo c (.sent conn fd bytes ok :: log) =
      sentTo c log ++ if conn = some c then bytes else [] := Trace.collect_cons

/-- **A text is addressed to a client**, which has not got it yet. -/
theorem Ordered.addressed (h : d.Ordered env) (fd : ℤ) (bytes : Bytes) :
    (d.record (.addressed (d.connAt fd) fd bytes)).OrderedBut env fd := by
  have hlog : (d.record (.addressed (d.connAt fd) fd bytes)).log =
      .addressed (d.connAt fd) fd bytes :: d.log := rfl
  have hsent : ∀ c, sentTo c (.addressed (d.connAt fd) fd bytes :: d.log) = sentTo c d.log :=
    fun c => Trace.collect_cons_of_nil rfl
  refine ⟨h.tables.record _, h.fits, fun c hc => ?_, fun c => ?_, fun c s hs hc => ?_⟩
  · have hne : d.connAt fd ≠ some c := fun heq =>
      absurd (h.tables.conn_lt heq) (not_lt.mpr hc)
    rw [hlog, addressedTo_addressed, if_neg hne, h.unborn c hc]
    rfl
  · rw [hlog, addressedTo_addressed, hsent]
    exact (h.sent c).trans (List.prefix_append _ _)
  · have hc' : d.connAt (d.clients.slot s).fd = some c := hc
    have hne : d.connAt fd ≠ some c := fun heq => hs (h.tables.connAt_unique hc' heq)
    rw [hlog, addressedTo_addressed, hsent, if_neg hne, List.append_nil]
    exact (OrderedBut.weaken h fd).waits c s hs hc'

/-- **A client is closed**, so that it gets nothing more. -/
theorem OrderedBut.closeSlot {s : SlotId} (h : d.OrderedBut env (d.clients.slot s).fd)
    (hs : (d.clients.slot s).fd ≠ -1) : (d.closeSlot s).Ordered env := by
  have hlog : ∀ c, addressedTo c (d.closeSlot s).log = addressedTo c d.log ∧
      sentTo c (d.closeSlot s).log = sentTo c d.log := fun c =>
    ⟨Trace.collect_cons_of_nil rfl, Trace.collect_cons_of_nil rfl⟩
  refine ⟨h.tables.closeSlot hs, fun t => ?_, fun c hc => ?_, fun c => ?_, fun c t _ hc => ?_⟩
  · rcases eq_or_ne t s with rfl | hts
    · rw [closeSlot_self]
      exact Nat.zero_le _
    · rw [d.closeSlot_of_ne hts]
      exact h.fits t
  · rw [(hlog c).1]
    exact h.unborn c hc
  · rw [(hlog c).1, (hlog c).2]
    exact h.sent c
  · obtain ⟨hts, hc'⟩ := h.tables.connAt_closeSlot hs hc
    have hne : (d.clients.slot t).fd ≠ (d.clients.slot s).fd := fun heq =>
      hts (h.tables.wf.distinct s t hs heq.symm).symm
    rw [(hlog c).1, (hlog c).2, d.closeSlot_of_ne hts]
    exact h.waits c t hne hc'

theorem Tables.connAt_of_find (ht : d.Tables env) (hnone : d.clients.find fd = none) :
    d.connAt fd = none := by
  by_contra hconn
  obtain ⟨c, hc⟩ := Option.ne_none_iff_exists'.mp hconn
  obtain ⟨p, hp⟩ := connAt_eq_some.mp hc
  obtain ⟨s, hs⟩ := ht.slot fd c p hp
  exact Clients.find_eq_none_iff.mp hnone s hs

theorem OrderedBut.delClient (h : d.OrderedBut env fd) (hfd : fd ≠ -1) :
    (d.delClient fd).Ordered env := by
  rw [Daemon.delClient]
  split
  next hnone => exact h.ordered (h.tables.connAt_of_find hnone)
  next s hs =>
    have hslot := Clients.fd_of_find hs
    exact OrderedBut.closeSlot (hslot.symm ▸ h) (hslot.symm ▸ hfd)

/-- **A queue is replaced** by what still waits of what was addressed to its client. -/
theorem OrderedBut.setOutput {s : SlotId} (h : d.OrderedBut env (d.clients.slot s).fd)
    {output : ClientOutput} (hlen : output.len ≤ clientOutputQueueSize)
    (hwaits : ∀ c, d.connAt (d.clients.slot s).fd = some c →
      addressedTo c d.log = sentTo c d.log ++ output.contents) :
    (d.setOutput s output).Ordered env := by
  have ht : (d.setOutput s output).Tables env :=
    h.tables.congr (h.tables.wf.set rfl) (fun t => setOutput_fd d s t output) rfl rfl
      h.tables.reading id
  refine ⟨ht, fun t => ?_, h.unborn, h.sent, fun c t _ hc => ?_⟩
  · rcases eq_or_ne t s with rfl | hts
    · rw [setOutput_self]
      exact hlen
    · rw [setOutput_of_ne d output hts]
      exact h.fits t
  · rw [setOutput_fd] at hc
    have hc' : d.connAt (d.clients.slot t).fd = some c := hc
    rcases eq_or_ne t s with rfl | hts
    · rw [setOutput_self]
      exact hwaits c hc'
    · have hne : (d.clients.slot t).fd ≠ (d.clients.slot s).fd := by
        intro heq
        exact hts (h.tables.slot_unique hc' (heq ▸ hc'))
      rw [setOutput_of_ne d output hts]
      exact h.waits c t hne hc'

/-- What is sent to nobody. -/
theorem OrderedBut.sendAll_none (h : d.OrderedBut env fd) (hconn : d.connAt fd = none)
    (bytes : Bytes) : (d.sendAll env fd bytes).1.Ordered env := by
  rw [sendAll, hconn]
  refine (h.ordered hconn).congr (h.tables.record _) (fun _ => rfl) (fun _ => rfl) rfl rfl
    ⟨[_], rfl, fun e he c => ?_⟩
  rw [List.mem_singleton.mp he]
  exact ⟨rfl, rfl⟩

/-- **A text is queued.** -/
theorem Ordered.queueClientBytes (h : d.Ordered env) (hfd : fd ≠ -1) (bytes : Bytes) :
    (d.queueClientBytes env fd bytes).1.Ordered env := by
  rw [Daemon.queueClientBytes]
  split
  · exact h
  have haddressed := Ordered.addressed h fd bytes
  rw [enqueueBytes]
  split
  next hnone =>
    -- the client is gone, and the text goes nowhere
    have hconn : d.connAt fd = none := h.tables.connAt_of_find hnone
    have hsame : (d.record (.addressed (d.connAt fd) fd bytes)).connAt fd = none := hconn
    exact haddressed.sendAll_none hsame bytes
  next s hs =>
    have hslot : (d.clients.slot s).fd = fd := Clients.fd_of_find hs
    split
    next output hout =>
      let d₁ := d.record (.addressed (d.connAt fd) fd bytes)
      have hset : (d₁.setOutput s output).Ordered env := by
        have hbut : d₁.OrderedBut env (d₁.clients.slot s).fd := hslot.symm ▸ haddressed
        refine hbut.setOutput ((ClientOutput.len_enqueue hout).2 (h.fits s)) fun c hc => ?_
        have hc' : d.connAt fd = some c := hslot ▸ hc
        have hold := h.waits c s (hslot.symm ▸ hfd) hc
        have hcontents := ClientOutput.contents_enqueue (h.fits s) hout
        have hsent : sentTo c d₁.log = sentTo c d.log := Trace.collect_cons_of_nil rfl
        have haddr : addressedTo c d₁.log = addressedTo c d.log ++ bytes := by
          have hcons := addressedTo_addressed c fd (d.connAt fd) bytes d.log
          rwa [if_pos hc'] at hcons
        rw [haddr, hsent, hold, hcontents, List.append_assoc]
      refine hset.congr (hset.tables.record _) (fun _ => rfl) (fun _ => rfl) rfl rfl
        ⟨[_], rfl, fun e he c => ?_⟩
      rw [List.mem_singleton.mp he]
      exact ⟨rfl, rfl⟩
    · exact haddressed.delClient hfd

/-- **Queueing keeps the order.** -/
theorem queueing_ordered (env : Env) : Queueing env (Ordered env) := by
  have hsame : ∀ {a b : Daemon}, a.Ordered env → b.clients = a.clients → b.descs = a.descs →
      b.nextConn = a.nextConn → b.pc = a.pc → b.log = a.log → b.Ordered env := by
    intro a b ha hclients hdescs hnext hpc hlog
    have ht : b.Tables env := ha.tables.congr (hclients ▸ ha.tables.wf) (fun s => by rw [hclients])
      hdescs hnext (fun l r hp => ha.tables.reading l r (hpc ▸ hp)) (fun hp => hpc ▸ hp)
    exact ha.same ht hclients hdescs hnext ⟨[], hlog, nofun⟩
  exact
    { x10 := fun _ _ h => hsame h rfl rfl rfl rfl rfl
      stamp := fun _ h => hsame h rfl rfl rfl rfl rfl
      write := fun _ _ h => hsame h rfl rfl rfl rfl rfl
      queue := fun _ _ bytes hfd h => Ordered.queueClientBytes h hfd bytes }

/-! ### The main loop -/

/-- **Stalled clients are closed.** -/
theorem Ordered.disconnectStalledClients (h : d.Ordered env) (now : ℕ) :
    (d.disconnectStalledClients now).Ordered env := by
  rw [Daemon.disconnectStalledClients]
  induction Clients.slotOrder generalizing d with
  | nil => exact h
  | cons s ss ih =>
    rw [List.foldl_cons]
    refine ih ?_
    split
    next hst =>
      refine (OrderedBut.weaken h _).delClient fun hfd => ?_
      simp [stalled, hfd] at hst
    · exact h

/-- **The front of a queue is sent.** -/
theorem Ordered.took (h : d.Ordered env) {s : SlotId} (hs : (d.clients.slot s).fd ≠ -1)
    {output : ClientOutput} {bytes : Bytes} (hlen : output.len ≤ clientOutputQueueSize)
    (hcontents : bytes ++ output.contents = (d.clients.slot s).output.contents) (ok : Bool) :
    ((d.setOutput s output).record
      (.sent (d.connAt (d.clients.slot s).fd) (d.clients.slot s).fd bytes ok)).Ordered env := by
  let d₁ : Daemon := (d.setOutput s output).record
    (.sent (d.connAt (d.clients.slot s).fd) (d.clients.slot s).fd bytes ok)
  have haddressed : ∀ c, addressedTo c d₁.log = addressedTo c d.log := fun c =>
    Trace.collect_cons_of_nil rfl
  have hsent : ∀ c, sentTo c d₁.log = sentTo c d.log ++
      if d.connAt (d.clients.slot s).fd = some c then bytes else [] := fun c => sentTo_sent ..
  have hfront : ∀ c, d.connAt (d.clients.slot s).fd = some c →
      addressedTo c d₁.log = sentTo c d₁.log ++ output.contents := by
    intro c hc
    rw [haddressed, hsent, if_pos hc, h.waits c s hs hc, List.append_assoc, hcontents]
  have ht : d₁.Tables env := (h.tables.congr (h.tables.wf.set rfl)
    (fun t => setOutput_fd d s t output) rfl rfl h.tables.reading id : (d.setOutput s output).Tables
      env).record _
  refine ⟨ht, fun t => ?_, fun c hc => ?_, fun c => ?_, fun c t hlive hc => ?_⟩
  · show ((d.setOutput s output).clients.slot t).output.len ≤ clientOutputQueueSize
    rcases eq_or_ne t s with rfl | hts
    · rw [setOutput_self]
      exact hlen
    · rw [setOutput_of_ne d output hts]
      exact h.fits t
  · rw [haddressed]
    exact h.unborn c hc
  · by_cases hc : d.connAt (d.clients.slot s).fd = some c
    · exact ⟨_, (hfront c hc).symm⟩
    · rw [haddressed, hsent, if_neg hc, List.append_nil]
      exact h.sent c
  · have hc' : d.connAt (d.clients.slot t).fd = some c := by
      have hfd : ((d.setOutput s output).clients.slot t).fd = (d.clients.slot t).fd :=
        setOutput_fd d s t output
      rw [← hfd]
      exact hc
    have hlive' : (d.clients.slot t).fd ≠ -1 := by
      rintro hneg
      rw [hneg, h.tables.connAt_neg] at hc'
      cases hc'
    show addressedTo c d₁.log =
      sentTo c d₁.log ++ ((d.setOutput s output).clients.slot t).output.contents
    rcases eq_or_ne t s with rfl | hts
    · rw [setOutput_self]
      exact hfront c hc'
    · have hne : d.connAt (d.clients.slot s).fd ≠ some c := fun heq =>
        hts (h.tables.slot_unique hc' heq)
      rw [haddressed, hsent, if_neg hne, List.append_nil, setOutput_of_ne d output hts]
      exact h.waits c t hlive' hc'

/-- **A flush** sends from the front of the queue. -/
theorem Ordered.flushClientOutput (h : d.Ordered env) {s : SlotId}
    (hs : (d.clients.slot s).fd ≠ -1) (results : List SendResult) (now : ℕ) :
    (d.flushClientOutput s results now).Ordered env := by
  have hdel : ∀ a : Daemon, a.Ordered env → ∀ e : ClientOutput.FlushEnd,
      (if e = .failed then a.delClient (d.clients.slot s).fd else a).Ordered env := by
    intro a ha e
    split
    · exact (OrderedBut.weaken ha _).delClient hs
    · exact ha
  have hlen := ClientOutput.len_flush now results clientWriteBudgetPerLoop (d.clients.slot s).output
  have hcontents := ClientOutput.contents_flush now results clientWriteBudgetPerLoop
    (d.clients.slot s).output
  rw [Daemon.flushClientOutput]
  generalize (d.clients.slot s).output.flush now results clientWriteBudgetPerLoop = r
    at hlen hcontents ⊢
  have hfits : r.1.len ≤ clientOutputQueueSize := hlen.trans (h.fits s)
  refine hdel _ ?_ r.2.2
  split
  next hempty =>
    have hnil := (ClientOutput.contents_eq_nil_iff _).mpr hempty
    refine OrderedBut.setOutput (OrderedBut.weaken h _) hfits fun c hc => ?_
    rw [h.waits c s hs hc, hnil, (List.append_eq_nil_iff.mp (hcontents.trans hnil)).2]
  · exact Ordered.took h hs hfits hcontents _

/-- The service loop goes on, or ends. -/
theorem Ordered.counted (h : d.Ordered env) (hrun : d.pc.stage = .running) (l : ServiceLoop)
    (v : Visit) : (d.counted l v).Ordered env := Ordered.idle h (idle_counted hrun l v)

/-- **A turn of the service loop.** -/
theorem Ordered.service (h : d.Ordered env) {l : ServiceLoop} (hpc : d.pc = .serve l)
    {results : List SendResult} {now : ℕ} {read : ReadResult}
    (hs : d.doService l results now read = some d') : d'.Ordered env := by
  have hserve : ∀ a : Daemon, a.Ordered env → a.pc = d.pc → ∀ l',
      ({ a with pc := .serve l' } : Daemon).Ordered env := fun a ha hp l' =>
    Ordered.idle ha (idle_serve (by rw [hp, hpc]; rfl) l')
  have hservicing : ∀ (a : Daemon) (e : PollEntry), a.Ordered env → (a.servicing e).Ordered env :=
    fun a e ha => Ordered.idle ha (idle_serviced _ _ _)
  obtain ⟨_, e, _, hcase⟩ := doService_cases hs
  rcases hcase with ⟨_, rfl⟩ | ⟨hpos, d₁, flushed, rfl, _, hcase⟩
  · exact hserve d h rfl _
  have hfd : e.fd ≠ -1 := by omega
  have hout : (if e.revents.pollout then d.doPollout e results now else d).Ordered env ∧
      (if e.revents.pollout then d.doPollout e results now else d).pc = d.pc := by
    split
    · refine ⟨?_, (doPollout_cases h.tables e hfd results now).2.2⟩
      rcases doPollout_eq d e results now with ⟨_, heq⟩ | ⟨s, hfound, heq⟩
      · rw [heq]
        exact h
      · have hlive : ((d.servicing e).clients.slot s).fd ≠ -1 := by
          have hslot : (d.clients.slot s).fd = e.fd := Clients.fd_of_find hfound
          exact fun hneg => hfd (hslot ▸ hneg)
        rw [heq]
        exact Ordered.flushClientOutput (hservicing d e h) hlive results now
    · exact ⟨h, rfl⟩
  generalize (if e.revents.pollout then d.doPollout e results now else d) = d₁ at hcase hout
  obtain ⟨ho, hp⟩ := hout
  rcases hcase with ⟨_, _, rfl⟩ | ⟨_, ⟨_, hread⟩ | ⟨_, rfl⟩⟩
  · exact hserve d₁ ho hp _
  · have hbegun := hservicing d₁ e ho
    have hrun : (d₁.servicing e).pc.stage = .running := by
      show d₁.pc.stage = .running
      rw [hp, hpc]
      rfl
    rcases doPollin_eq hread with rfl | rfl | ⟨s, bytes, _, rfl⟩
    · have hmoves : Moves env .loop (d₁.servicing e) _ := delClient_moves hfd (Or.inl rfl)
      have hrun' := hrun
      rw [← hmoves.pc_eq] at hrun'
      exact Ordered.counted ((OrderedBut.weaken hbegun _).delClient hfd) hrun' l _
    · exact Ordered.counted hbegun hrun l _
    · refine hbegun.same (hbegun.tables.congr hbegun.tables.wf (fun _ => rfl) rfl rfl ?_ nofun) rfl
        rfl rfl ⟨[_], rfl, fun x hx => by rw [List.mem_singleton.mp hx]; rfl⟩
      intro l' r' hp'
      obtain ⟨_, rfl⟩ := Pc.encode.inj hp'
      exact hfd
  · exact hserve d₁ ho hp _

/-- **A connection is accepted**, and nothing has been said to it. -/
theorem Ordered.addAccepted (h : d.Ordered env) (hpc : d.pc.stage = .running) {fd : ℤ}
    (hfree : lowestFree d.descs fd = true) (kind : Kind) (nonblocking : Bool) :
    (d.addAccepted env kind fd nonblocking).Ordered env := by
  have ht := h.tables.addAccepted hpc hfree kind nonblocking
  rcases addAccepted_cases env d kind fd nonblocking with ⟨s, hs, heq⟩ | heq
  · rw [heq] at ht ⊢
    have hlog : ∀ c, addressedTo c (.accepted d.nextConn fd kind :: d.log) = addressedTo c d.log ∧
        sentTo c (.accepted d.nextConn fd kind :: d.log) = sentTo c d.log := fun c =>
      ⟨Trace.collect_cons_of_nil rfl, Trace.collect_cons_of_nil rfl⟩
    have hself : (d.clients.take s fd).slot s = Clients.Slot.taken (d.clients.slot s) fd _ :=
      Clients.set_slot_self ..
    have hother : ∀ t, t ≠ s → (d.clients.take s fd).slot t = d.clients.slot t :=
      fun t hts => Clients.set_slot_of_ne d.clients _ hts
    refine ⟨ht, fun t => ?_, fun c hc => ?_, fun c => ?_, fun c t hlive hc => ?_⟩
    · show ((d.clients.take s fd).slot t).output.len ≤ clientOutputQueueSize
      rcases eq_or_ne t s with rfl | hts
      · rw [hself]
        exact Nat.zero_le _
      · rw [hother t hts]
        exact h.fits t
    · rw [(hlog c).1]
      exact h.unborn c ((Nat.le_succ _).trans hc)
    · rw [(hlog c).1, (hlog c).2]
      exact h.sent c
    · have hlive' : ((d.clients.take s fd).slot t).fd ≠ -1 := hlive
      obtain ⟨p, hp⟩ := connAt_eq_some.mp hc
      have hdesc : Function.update d.descs fd (some (.conn d.nextConn (kind.port env.config)))
          ((d.clients.take s fd).slot t).fd = some (.conn c p) := hp
      show addressedTo c (_ :: d.log) =
        sentTo c (_ :: d.log) ++ ((d.clients.take s fd).slot t).output.contents
      rw [(hlog c).1, (hlog c).2]
      rcases eq_or_ne t s with rfl | hts
      · have hfd : ((d.clients.take t fd).slot t).fd = fd := congrArg Slot.fd hself
        rw [hfd, Function.update_self] at hdesc
        obtain ⟨rfl, _⟩ := Desc.conn.inj (Option.some.inj hdesc)
        have hnone := h.unborn d.nextConn le_rfl
        have hnil : sentTo d.nextConn d.log = [] := List.prefix_nil.mp (hnone ▸ h.sent d.nextConn)
        rw [hself, hnone, hnil]
        rfl
      · rw [hother t hts] at hdesc hlive' ⊢
        have hne : (d.clients.slot t).fd ≠ fd := by
          rintro hcon
          obtain ⟨c', _, hc'⟩ := h.tables.conn t hlive'
          rw [hcon, (lowestFree_spec hfree).2] at hc'
          cases hc'
        rw [Function.update_of_ne hne] at hdesc
        exact h.waits c t hlive' (connAt_eq_some.mpr ⟨p, hdesc⟩)
  · rw [heq] at ht ⊢
    refine ⟨ht, h.fits, fun c hc => ?_, fun c => ?_, fun c s hs hc => ?_⟩
    · exact (Trace.collect_cons_of_nil rfl).trans (h.unborn c ((Nat.le_succ _).trans hc))
    · have hsent := h.sent c
      rwa [← show sentTo c (.turnedAway d.nextConn fd :: d.log) = sentTo c d.log from
        Trace.collect_cons_of_nil rfl, ← show addressedTo c (.turnedAway d.nextConn fd :: d.log) =
          addressedTo c d.log from Trace.collect_cons_of_nil rfl] at hsent
    · have hwaits := h.waits c s hs hc
      rwa [← show sentTo c (.turnedAway d.nextConn fd :: d.log) = sentTo c d.log from
        Trace.collect_cons_of_nil rfl, ← show addressedTo c (.turnedAway d.nextConn fd :: d.log) =
          addressedTo c d.log from Trace.collect_cons_of_nil rfl] at hwaits

/-! ### The policy -/

/-- How much of the policy the socket takes. -/
def policyTaken (env : Env) (d : Daemon) : ℕ :=
  SendResult.total (env.sends d.directSends) domainPolicy.length

/-- **The policy does not break the order**: its client is gone; or nothing waits for it, and its
socket takes the whole policy; or it is closed afterwards, and nothing waits or nothing is taken. -/
def PolicyFits (env : Env) (d : Daemon) (fd : ℤ) : Prop :=
  match d.clients.find fd with
  | none => True
  | some s => ((d.clients.slot s).output.len = 0 ∧ domainPolicy.length ≤ d.policyTaken env) ∨
      (d.or20client env fd = true ∧
        ((d.clients.slot s).output.len = 0 ∨ d.policyTaken env = 0))

/-- **No step breaks the order**: only a byte that completes a request for a policy may. -/
def PolicyWhole (env : Env) (d : Daemon) : Label → Prop
  | .byte => match d.pc with
    | .encode _ r => match r.rest with
      | b :: _ => match (encodeByte (d.clients.slot r.slot).state r.remptr b).2.2 with
        | some line => IsPolicyRequest line → d.PolicyFits env r.fd
        | none => True
      | [] => True
    | _ => True
  | _ => True

/-- Descriptors, queues and the count of direct replies are all that matters. -/
theorem PolicyFits.congr (h : d.PolicyFits env fd)
    (hfd : ∀ s, (d'.clients.slot s).fd = (d.clients.slot s).fd)
    (hout : ∀ s, (d'.clients.slot s).output = (d.clients.slot s).output)
    (hdescs : d'.descs = d.descs) (hsends : d'.directSends = d.directSends) :
    d'.PolicyFits env fd := by
  have hor : d'.or20client env fd = d.or20client env fd := by rw [or20client, or20client, hdescs]
  have htaken : d'.policyTaken env = d.policyTaken env := by rw [policyTaken, policyTaken, hsends]
  rw [PolicyFits] at h ⊢
  rw [find_congr hfd, htaken, hor]
  split
  · trivial
  next s hs =>
    rw [hs] at h
    rw [hout]
    exact h

instance (env : Env) (d : Daemon) (fd : ℤ) : Decidable (d.PolicyFits env fd) := by
  unfold PolicyFits
  split
  · infer_instance
  · infer_instance

instance (env : Env) (d : Daemon) (label : Label) : Decidable (d.PolicyWhole env label) := by
  delta PolicyWhole
  rcases label with ⟨⟩
  case byte =>
    dsimp only
    rcases d.pc with ⟨⟩
    case encode _ r =>
      dsimp only
      rcases r.rest with ⟨⟩
      case nil => exact instDecidableTrue
      case cons b rest =>
        dsimp only
        rcases (encodeByte (d.clients.slot r.slot).state r.remptr b).2.2 with ⟨⟩
        case none => exact instDecidableTrue
        case some line => dsimp only; infer_instance
    all_goals exact instDecidableTrue
  all_goals exact instDecidableTrue

/-- The policy is addressed to a client, and so much of it is sent at once. -/
theorem Ordered.sentPast (h : d.Ordered env) {s : SlotId} (hslot : (d.clients.slot s).fd = fd)
    (hfd : fd ≠ -1) {c : ℕ} (hc : d.connAt fd = some c) {text taken : Bytes} (ok : Bool)
    (htaken : taken <+: text) (hnext : (d.clients.slot s).output.contents = [] ∨ taken = []) :
    ({ d.record (.addressed (d.connAt fd) fd text) with
      directSends := d.directSends + 1
      log := .sent (some c) fd taken ok :: .addressed (d.connAt fd) fd text :: d.log } :
        Daemon).OrderedBut env fd := by
  have hbut := Ordered.addressed h fd text
  let log₁ : List Ev := .addressed (d.connAt fd) fd text :: d.log
  have haddressed : ∀ x, addressedTo x (.sent (some c) fd taken ok :: log₁) = addressedTo x log₁ :=
    fun x => Trace.collect_cons_of_nil rfl
  have hsent : ∀ x, sentTo x (.sent (some c) fd taken ok :: log₁) =
      sentTo x d.log ++ if some c = some x then taken else [] := fun x => by
    rw [sentTo_sent]
    exact congrArg (· ++ _) (Trace.collect_cons_of_nil rfl)
  have hold := h.waits c s (hslot.symm ▸ hfd) (hslot.symm ▸ hc)
  refine ⟨hbut.tables.congr hbut.tables.wf (fun _ => rfl) rfl rfl hbut.tables.reading id, hbut.fits,
    fun x hx => (haddressed x).trans (hbut.unborn x hx), fun x => ?_, fun x t ht hx => ?_⟩
  · show sentTo x (.sent (some c) fd taken ok :: log₁) <+:
      addressedTo x (.sent (some c) fd taken ok :: log₁)
    rw [haddressed, hsent]
    rcases eq_or_ne c x with rfl | hne
    · rw [if_pos rfl, addressedTo_addressed, if_pos hc, hold]
      rcases hnext with hnil | hnil
      · rw [hnil, List.append_nil]
        exact (List.prefix_append_right_inj _).mpr htaken
      · rw [hnil, List.append_nil, List.append_assoc]
        exact List.prefix_append _ _
    · rw [if_neg fun heq => hne (Option.some.inj heq), List.append_nil]
      exact (h.sent x).trans (addressedTo_addressed x fd _ _ _ ▸ List.prefix_append _ _)
  · have hx' : d.connAt (d.clients.slot t).fd = some x := hx
    have hne : c ≠ x := by
      rintro rfl
      exact ht (h.tables.connAt_unique hx' hc)
    show addressedTo x (.sent (some c) fd taken ok :: log₁) =
      sentTo x (.sent (some c) fd taken ok :: log₁) ++ _
    rw [haddressed, hsent, if_neg fun heq => hne (Option.some.inj heq), List.append_nil]
    exact (hbut.waits x t ht hx).trans (congrArg (· ++ _) (Trace.collect_cons_of_nil rfl))

/-- A whole text is sent while nothing waits. -/
theorem Ordered.sentWhole (h : d.Ordered env) {s : SlotId} (hslot : (d.clients.slot s).fd = fd)
    {c : ℕ} (hc : d.connAt fd = some c) {text taken : Bytes} (ok : Bool) (hwhole : taken = text)
    (hempty : (d.clients.slot s).output.contents = []) {d₁ : Daemon}
    (hbut : d₁.OrderedBut env fd) (hclients : d₁.clients = d.clients) (hdescs : d₁.descs = d.descs)
    (hlog : d₁.log = .sent (some c) fd taken ok :: .addressed (d.connAt fd) fd text :: d.log) :
    d₁.Ordered env := by
  refine ⟨hbut.tables, hbut.fits, hbut.unborn, hbut.sent, fun x t ht hx => ?_⟩
  by_cases htfd : (d₁.clients.slot t).fd = fd
  · rw [connAt, hdescs, htfd] at hx
    obtain rfl : c = x := Option.some.inj (hc.symm.trans hx)
    rw [hclients] at ht htfd ⊢
    obtain rfl : t = s := h.tables.wf.distinct t s ht (htfd.trans hslot.symm)
    have hold := h.waits c t ht (htfd.symm ▸ hc)
    have haddressed : addressedTo c d₁.log = addressedTo c d.log ++ text := by
      have hcons := addressedTo_addressed c fd (d.connAt fd) text d.log
      rw [if_pos hc] at hcons
      rw [hlog]
      exact (Trace.collect_cons_of_nil rfl).trans hcons
    have hsent : sentTo c d₁.log = sentTo c d.log ++ taken := by
      rw [hlog, sentTo_sent, if_pos rfl]
      exact congrArg (· ++ _) (Trace.collect_cons_of_nil rfl)
    rw [haddressed, hsent, hold, hempty, hwhole, List.append_nil, List.append_nil]
  · exact hbut.waits x t htfd hx

/-- **A request for a policy that fits** keeps the order. -/
theorem Ordered.policy (h : d.Ordered env) (hfd : fd ≠ -1) (hfits : d.PolicyFits env fd)
    {d₁ : Daemon}
    (hd₁ : d₁ = ((d.record (.addressed (d.connAt fd) fd domainPolicy)).sendAll env fd domainPolicy).1) :
    (if d₁.or20client env fd then d₁.delClient fd else d₁).Ordered env := by
  have hdone : ∀ a : Daemon, a.Ordered env →
      (if a.or20client env fd then a.delClient fd else a).Ordered env := by
    intro a ha
    split
    · exact (OrderedBut.weaken ha fd).delClient hfd
    · exact ha
  rw [PolicyFits] at hfits
  cases hconn : d.connAt fd with
  | none =>
    rw [hd₁]
    have hsame : (d.record (.addressed (d.connAt fd) fd domainPolicy)).connAt fd = none := hconn
    exact hdone _ ((Ordered.addressed h fd domainPolicy).sendAll_none hsame domainPolicy)
  | some c =>
    obtain ⟨p, hp⟩ := connAt_eq_some.mp hconn
    obtain ⟨s, hslot⟩ := h.tables.slot fd c p hp
    have hlive : (d.clients.slot s).fd ≠ -1 := hslot.symm ▸ hfd
    have hfind : d.clients.find fd = some s := hslot ▸ h.tables.wf.find_eq hlive
    rw [hfind] at hfits
    let r := sendAllImpl (env.sends d.directSends) domainPolicy
    have hr : r.1 = domainPolicy.take (d.policyTaken env) := sendAllImpl_eq _ _
    have htaken : r.1 <+: domainPolicy := hr ▸ List.take_prefix _ _
    have hempty := ClientOutput.contents_eq_nil_iff (d.clients.slot s).output
    let d₂ : Daemon := { d.record (.addressed (d.connAt fd) fd domainPolicy) with
      directSends := d.directSends + 1
      log := .sent (some c) fd r.1 r.2 :: .addressed (d.connAt fd) fd domainPolicy :: d.log }
    have heq : d₁ = d₂ := by
      have hsame : (d.record (.addressed (d.connAt fd) fd domainPolicy)).connAt fd = some c := hconn
      rw [hd₁, sendAll, hsame]
      rfl
    have hor : d₂.or20client env fd = d.or20client env fd := rfl
    rw [heq]
    rcases hfits with ⟨hnone, hall⟩ | ⟨hor20, hnext⟩
    · -- nothing waits, and the whole policy is sent
      have hbut : d₂.OrderedBut env fd :=
        Ordered.sentPast h hslot hfd hconn r.2 htaken (Or.inl (hempty.mpr hnone))
      have hwhole : r.1 = domainPolicy := by rw [hr, List.take_of_length_le hall]
      exact hdone d₂ (Ordered.sentWhole h hslot hconn r.2 hwhole (hempty.mpr hnone) hbut rfl rfl
        rfl)
    · -- the client is closed at once
      have hbut : d₂.OrderedBut env fd := by
        refine Ordered.sentPast h hslot hfd hconn r.2 htaken (hnext.imp hempty.mpr fun h0 => ?_)
        rw [hr, h0, List.take_zero]
      rw [hor, if_pos hor20]
      exact hbut.delClient hfd

/-! ### Steps -/

/-- The splitter's state is no business of the order. -/
theorem Ordered.afterByte (h : d.Ordered env) {l : ServiceLoop} {r : Reading}
    (hpc : d.pc = .encode l r) (b : UInt8) (rest : Bytes) :
    (d.afterByte l r b rest).Ordered env := by
  refine h.congr (h.tables.afterByte hpc b rest) (fun t => setState_fd d r.slot t _)
    (fun t => setState_output d r.slot t _) rfl rfl ⟨[_], rfl, fun e he c => ?_⟩
  rw [List.mem_singleton.mp he]
  exact ⟨rfl, rfl⟩

/-- **A line is executed**, and keeps the order unless it asks for a policy that does not fit. -/
theorem Ordered.runLine (h : d.Ordered env) {r : Reading} (hfd : r.fd ≠ -1) {line : Bytes}
    (hok : IsPolicyRequest line → d.PolicyFits env r.fd) : (d.runLine env r line).Ordered env := by
  have hcommand : (d.record (.command r.conn r.fd line)).Ordered env :=
    h.same (h.tables.record _) rfl rfl rfl ⟨[_], rfl, fun e he => by
      rw [List.mem_singleton.mp he]
      rfl⟩
  by_cases hp : IsPolicyRequest line
  · let x := (Mochad.processcommandline ((d.record (.command r.conn r.fd line)).ctx env) r.fd line
      d.x10).state
    have hx10 := (queueing_ordered env).x10 _ x hcommand
    have hfits : ({ d.record (.command r.conn r.fd line) with x10 := x } : Daemon).PolicyFits env
        r.fd := (hok hp).congr (fun _ => rfl) (fun _ => rfl) rfl rfl
    rw [Daemon.runLine]
    exact Ordered.policy hx10 hfd hfits (processcommandline_policy_eq hp)
  · have hrun := (queueing_ordered env).processcommandline hcommand.tables.descs hfd hp hcommand
    rw [Daemon.runLine]
    split
    · exact (OrderedBut.weaken hrun _).delClient hfd
    · exact hrun

/-- **A byte is taken.** -/
theorem Ordered.byte (h : d.Ordered env) {l : ServiceLoop} {r : Reading}
    (hpc : d.pc = .encode l r) (hok : d.PolicyWhole env .byte)
    (hb : d.doByte env l r = some d') : d'.Ordered env := by
  obtain ⟨b, rest, hrest, ⟨_, rfl⟩ | ⟨line, hline, rfl⟩⟩ := doByte_cases hb
  · exact Ordered.afterByte h hpc b rest
  · refine Ordered.runLine (Ordered.afterByte h hpc b rest) (h.tables.reading l r hpc) fun hp => ?_
    simp only [PolicyWhole, hpc, hrest, hline] at hok
    exact (hok hp).congr (fun t => setState_fd d r.slot t _) (fun t => setState_output d r.slot t _)
      rfl rfl

/-- **Every step keeps the order**, but for a request for a policy that does not fit. -/
theorem Ordered.step (h : d.Ordered env) {label : Label} (hok : d.PolicyWhole env label)
    (hs : d.step env label = some d') : d'.Ordered env := by
  have hgoto : ∀ {a : Daemon} {pc : Pc}, a.Ordered env → ({ a with pc := pc } : Daemon).Tables env →
      ({ a with pc := pc } : Daemon).Ordered env := fun ha ht =>
    ha.same ht rfl rfl rfl ⟨[], rfl, by simp⟩
  have ht' := h.tables.step hs
  rcases step_case hs with hi | ⟨usb, now, pc, _, _, _, rfl⟩ | ⟨usb, usb', data, _, rfl⟩ |
    ⟨fd, desc, hold, hnew, _, rfl⟩ | ⟨main, xml, or20, hpc, hl⟩ |
    ⟨snap, nready, kind, fd, nonblocking, hpc, _, hfree, rfl⟩ |
    ⟨l, results, now, read, _, hpc, hs⟩ | ⟨l, r, rfl, hpc, hb⟩ | ⟨l, r, hpc, he⟩
  · exact Ordered.idle h hi
  · have husb := Ordered.idle h (idle_usb usb)
    exact hgoto (Ordered.disconnectStalledClients husb now) ht'
  · let d₁ : Daemon := { d with usb := usb }
    have hbuf : ({ d₁ with intrInBuf := memcpy d₁.intrInBuf data } : Daemon).Ordered env :=
      Ordered.idle h (idle_of_same rfl rfl rfl rfl rfl rfl)
    have hneg : d₁.descs (-1) = none := h.tables.descs
    have hdecoded : (d₁.decode env data).Ordered env := (queueing_ordered env).decode hneg data hbuf
    exact Ordered.idle hdecoded (idle_usb usb')
  · refine ⟨ht', h.fits, h.unborn, h.sent, fun c s hs hc => h.waits c s hs ?_⟩
    obtain ⟨p, hp⟩ := connAt_eq_some.mp hc
    have hp' : Function.update d.descs fd desc (d.clients.slot s).fd = some (.conn c p) := hp
    rcases eq_or_ne (d.clients.slot s).fd fd with heq | hne
    · rw [heq, Function.update_self] at hp'
      exact absurd hp' (hnew c p)
    · rw [Function.update_of_ne hne] at hp'
      exact connAt_eq_some.mpr ⟨p, hp'⟩
  · simp only [doCreateListeners] at hl
    split at hl
    · -- there is no client yet
      have hfree : ∀ s, (d.clients.slot s).fd = -1 := h.tables.starting (by rw [hpc]; rfl)
      split at hl
      · obtain rfl := Option.some.inj hl
        exact ⟨ht', h.fits, h.unborn, h.sent, fun c s hs _ => absurd (hfree s) hs⟩
      · obtain rfl := Option.some.inj hl
        exact ⟨ht', fun _ => Nat.zero_le _, h.unborn, h.sent, fun c s hs _ => absurd rfl hs⟩
    · cases hl
  · have hrun : d.pc.stage = .running := by rw [hpc]; rfl
    have hadded := Ordered.addAccepted h hrun hfree kind nonblocking
    rw [← addAccepted_pc env d kind fd nonblocking] at hrun
    exact Ordered.idle hadded (idle_afterAccept hrun snap nready kind)
  · exact Ordered.service h hpc hs
  · exact Ordered.byte h hpc hok hb
  · obtain ⟨_, rfl⟩ := doEncoded_eq he
    have hstate : ∀ state, (d.setState r.slot state).Ordered env := fun state => by
      have ht : (d.setState r.slot state).Tables env := h.tables.congr (h.tables.wf.set rfl)
        (fun t => setState_fd d r.slot t state) rfl rfl h.tables.reading id
      exact h.congr ht (fun t => setState_fd d r.slot t state)
        (fun t => setState_output d r.slot t state) rfl rfl ⟨[], rfl, by simp⟩
    rcases counted_cases (d.setState r.slot { (d.clients.slot r.slot).state with remlen := r.remptr })
      l r.visit with ⟨_, heq⟩ | ⟨_, heq⟩
    · rw [heq] at ht' ⊢
      exact (hstate _).same ht' rfl rfl rfl ⟨[_], rfl, fun e he => by
        rw [List.mem_singleton.mp he]
        rfl⟩
    · rw [heq] at ht' ⊢
      exact hgoto (hstate _) ht'

theorem initial_ordered (env : Env) : (initial env).Ordered env where
  tables := initial_tables env
  fits := fun _ => Nat.zero_le _
  unborn := fun _ _ => rfl
  sent := fun _ => List.prefix_rfl
  waits := fun _ _ hs _ => absurd rfl hs

/-- **What was sent to a connection is a beginning of what was addressed to it**, in every run in
which no request for a policy breaks the order. -/
theorem sent_in_order (h : Transition.Run (step env) (PolicyWhole env) (initial env) d) (c : ℕ) :
    sentTo c d.log <+: addressedTo c d.log := by
  have hordered : d.Ordered env := Transition.Run.invariant h (initial_ordered env)
    fun _ _ _ hi hok hs => Ordered.step hi hok hs
  exact hordered.sent c

/-- Surroundings in which sockets take a direct reply. -/
def takingEnv : Env := { Env.plain mochadConfigDefaults false with sends := fun _ => [.taken 1024] }

/-- A main client asks for the policy, and gets it. -/
theorem sent_in_order_policy : ∃ d, Transition.Run (step takingEnv) (PolicyWhole takingEnv)
    (initial takingEnv) d ∧ sentTo 0 d.log = domainPolicy ∧
      sentTo 0 d.log <+: addressedTo 0 d.log := by
  obtain ⟨d, hrun, hsent⟩ : ∃ d, Transition.Run (step takingEnv) (PolicyWhole takingEnv)
      (initial takingEnv) d ∧ sentTo 0 d.log = domainPolicy :=
    Transition.exists_run_of_exec (connect .main ++
      readClient (ascii "<policy-file-request/>\n") ++ List.replicate 23 .byte) (by decide +kernel)
  exact ⟨d, hrun, hsent, sent_in_order hrun 0⟩

/-- **The policy can overtake a reply**: the client asks for a state first, and the reply to that
waits while the policy is sent. -/
theorem policy_overtakes :
    ¬ ∀ env d c, Reachable env d → sentTo c d.log <+: addressedTo c d.log := by
  intro hall
  obtain ⟨d, hrun, hnot⟩ : ∃ d, Reachable takingEnv d ∧
      ¬ sentTo 0 d.log <+: addressedTo 0 d.log :=
    Transition.exists_run_of_exec (connect .main ++
      readClient (ascii "getstatus a1\n<policy-file-request/>\n") ++ List.replicate 36 .byte)
      (by decide +kernel)
  exact hnot (hall takingEnv d 0 hrun)

end Daemon

end Mochad
