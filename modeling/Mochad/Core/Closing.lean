import Mochad.Core.Broadcast
import Mochad.Core.OpenRemote

/-!
# After a client is closed

`del_client` may be called from deep inside a command: an answer does not fit into the queue, or
the command was that of an OpenRemote client. The loop of `cm15a_encode_with_state` does not look
whether it was. It goes on with the rest of the read, at a descriptor that is closed, and so do the
functions that print more than one line.

Nothing reaches anybody: no connection has the number until `accept()` returns it (`Spent`,
`Daemon.unheard_of_spent`). But lines are executed for a client that is gone, and `send()` is called
with its number. `Daemon.TakesLeave` is the condition under which neither happens: a line that
closes its client is the last of its read, and the answer that did not fit is the last of its line.
Then an OpenRemote client has its first line executed and no other, in however many pieces it sends
them (`Daemon.nothing_after_close`).
-/

namespace Mochad

/-! ### Numbers of closed clients -/

/-- **A client with this descriptor was closed**, and `accept()` has not returned it since. -/
def Spent (fd : ℤ) : List Ev → Prop
  | [] => False
  | .closed _ x _ _ :: older => x = fd ∨ Spent fd older
  | .accepted _ x _ :: older => x ≠ fd ∧ Spent fd older
  | .turnedAway _ x :: older => x ≠ fd ∧ Spent fd older
  | _ :: older => Spent fd older

/-- Nobody is closed, and nobody accepted. -/
def Ev.isInner : Ev → Bool
  | .closed _ _ _ _ => false
  | .accepted _ _ _ => false
  | .turnedAway _ _ => false
  | _ => true

/-- A line is executed, or `send()` is called. -/
def Ev.isAct : Ev → Bool
  | .command _ _ _ => true
  | .sent _ _ _ _ => true
  | _ => false

/-- **What is done for a client is done while it is there.** -/
def Ev.InTime : Ev → List Ev → Prop
  | .command _ fd _, older => ¬Spent fd older
  | .sent _ fd _ _, older => ¬Spent fd older
  | _, _ => True

/-- **What `send()` takes is for a client that is there.** -/
def Ev.Heard : Ev → List Ev → Prop
  | .sent _ fd bytes _, older => bytes = [] ∨ ¬Spent fd older
  | _, _ => True

theorem spent_cons {fd : ℤ} {e : Ev} {log : List Ev} (he : e.isInner = true) :
    Spent fd (e :: log) ↔ Spent fd log := by
  cases e with
  | closed | accepted | turnedAway => cases he
  | _ => exact Iff.rfl

theorem spent_append {fd : ℤ} {es log : List Ev} (hes : ∀ e ∈ es, e.isInner = true) :
    Spent fd (es ++ log) ↔ Spent fd log := by
  induction es with
  | nil => exact Iff.rfl
  | cons e es ih =>
    rw [List.cons_append, spent_cons (hes e List.mem_cons_self)]
    exact ih fun x hx => hes x (List.mem_cons_of_mem _ hx)

theorem Ev.inTime_of_not_act {e : Ev} (he : e.isAct = false) (older : List Ev) : e.InTime older := by
  cases e with
  | command | sent => cases he
  | _ => trivial

/-- **A property of events** that those have in which nothing is done, and those in which something
is sent to a client that is there. -/
structure Timely (P : Ev → List Ev → Prop) : Prop where
  quiet : ∀ e older, e.isAct = false → P e older
  live : ∀ conn fd bytes ok older, ¬Spent fd older → P (.sent conn fd bytes ok) older

theorem timely_inTime : Timely Ev.InTime where
  quiet := fun _ older he => Ev.inTime_of_not_act he older
  live := fun _ _ _ _ _ h => h

theorem timely_heard : Timely Ev.Heard where
  quiet := fun e _ he => by
    cases e with
    | sent => cases he
    | _ => trivial
  live := fun _ _ _ _ _ h => Or.inr h

theorem Ev.inner_of_note {e : Ev} (he : e.isNote = true) : e.isInner = true ∧ e.isAct = false := by
  cases e with
  | serviced | iterated => exact ⟨rfl, rfl⟩
  | _ => cases he

/-! ### What a line prints -/

/-- **How much of the queue of a client a call takes**: what is printed to it, and what is printed
to all clients of its kind. -/
def Effect.load (env : Env) (kind : Kind) (fd : ℤ) (reads : ℕ) : Effect → ℕ
  | .sockprintf x body =>
      if x = fd ∨ (x = -1 ∧ kind ≠ .or20 ∧ 0 < fd) then (Daemon.stampedLine env reads body).length
      else 0
  | .statusprintf x text => if x = fd then (formatBounded 1024 text).length else 0
  | _ => 0

/-- How often a call reads the clock. -/
def Effect.stamps : Effect → ℕ
  | .sockprintf _ _ => 1
  | _ => 0

/-- **The calls after the first that does not fit** into a queue with so much room. -/
def afterOverflow (env : Env) (kind : Kind) (fd : ℤ) : ℕ → ℕ → List Effect → Option (List Effect)
  | _, _, [] => none
  | room, reads, e :: es =>
      if room < e.load env kind fd reads then some es
      else afterOverflow env kind fd (room - e.load env kind fd reads) (reads + e.stamps) es

namespace Daemon

variable {env : Env} {d d' : Daemon}

/-- The listeners are created when there is no client yet. -/
theorem vacant_of_listeners (ht : d.Tables env) (hpc : d.pc = .initialised) {main xml or20 : ℤ}
    (hl : d.doCreateListeners env main xml or20 = some d') :
    (∀ s, (d'.clients.slot s).fd = -1) ∧ d'.log = d.log ∧ d'.pc.stage ≠ .reading := by
  have hfree : ∀ s, (d.clients.slot s).fd = -1 := ht.starting (by rw [hpc]; rfl)
  simp only [doCreateListeners] at hl
  split at hl
  · split at hl
    · obtain rfl := Option.some.inj hl
      exact ⟨hfree, rfl, by simp [Pc.stage]⟩
    · obtain rfl := Option.some.inj hl
      exact ⟨fun _ => rfl, rfl, by simp [Pc.stage]⟩
  · cases hl

/-! ### Every number in use -/

/-- **No client that is there has the number of one that was closed**, and every event so far has
a property. -/
structure Living (P : Ev → List Ev → Prop) (d : Daemon) : Prop where
  live : ∀ s, (d.clients.slot s).fd ≠ -1 → ¬Spent (d.clients.slot s).fd d.log
  events : Trace.Each P d.log

namespace Living

variable {P : Ev → List Ev → Prop}

/-- Slots keep their descriptors, or lose them, and the log is the same. -/
theorem same (h : d.Living P)
    (hfd : ∀ s, (d'.clients.slot s).fd = (d.clients.slot s).fd ∨ (d'.clients.slot s).fd = -1)
    (hlog : d'.log = d.log) : d'.Living P := by
  refine ⟨fun s hs => ?_, hlog ▸ h.events⟩
  have heq := (hfd s).resolve_right hs
  rw [heq] at hs ⊢
  rw [hlog]
  exact h.live s hs

/-- One more event, which closes and accepts nobody. -/
theorem one (h : d.Living P) {e : Ev} (hfd : ∀ s, (d'.clients.slot s).fd = (d.clients.slot s).fd)
    (hlog : d'.log = e :: d.log) (he : e.isInner = true) (hP : P e d.log) : d'.Living P := by
  refine ⟨fun s hs => ?_, ?_⟩
  · rw [hfd] at hs ⊢
    rw [hlog, spent_cons he]
    exact h.live s hs
  · rw [hlog]
    exact Trace.each_cons.mpr ⟨hP, h.events⟩

theorem record (h : d.Living P) {e : Ev} (he : e.isInner = true) (hP : P e d.log) :
    (d.record e).Living P := h.one (fun _ => rfl) rfl he hP

/-- **A client is closed**, and no other client has its number. -/
theorem closeSlot (hP : Timely P) (hwf : d.clients.Wf) (h : d.Living P) (s : SlotId) :
    (d.closeSlot s).Living P := by
  refine ⟨fun t ht => ?_, Trace.each_cons.mpr ⟨hP.quiet _ _ rfl, h.events⟩⟩
  have hne : t ≠ s := fun heq => ht (heq ▸ d.closeSlot_fd s)
  rw [d.closeSlot_of_ne hne] at ht ⊢
  rintro (heq | hspent)
  · exact hne (hwf.distinct t s ht heq.symm)
  · exact h.live t ht hspent

/-- **What is sent** is sent to a client that is there, or it is sent to nobody. -/
theorem sendAll (hP : Timely P) (ht : d.Tables env) (h : d.Living P) {fd : ℤ} (bytes : Bytes)
    (hgone : d.connAt fd = none → P (.sent none fd [] false) d.log) :
    (d.sendAll env fd bytes).1.Living P := by
  rw [Daemon.sendAll]
  split
  next hnone => exact h.record rfl (hgone hnone)
  next c hsome =>
    refine h.one (fun _ => rfl) rfl rfl (hP.live _ _ _ _ _ ?_)
    obtain ⟨p, hp⟩ := connAt_eq_some.mp hsome
    obtain ⟨s, rfl⟩ := ht.slot fd c p hp
    refine h.live s fun hneg => ?_
    rw [hneg, ht.connAt_neg] at hsome
    cases hsome

/-- **An elementary change.** -/
theorem move {cause : Cause} (hP : Timely P) (ht : d.Tables env) (h : d.Living P)
    (hm : Move env cause d d')
    (hgone : ∀ fd, cause.For fd → d.connAt fd = none → P (.sent none fd [] false) d.log) :
    d'.Living P := by
  cases hm with
  | x10 | stamp | write => exact h.same (fun _ => Or.inl rfl) rfl
  | addressed | queued => exact h.record rfl (hP.quiet _ _ rfl)
  | output s output hs _ => exact h.same (fun t => Or.inl (setOutput_fd d s t output)) rfl
  | flushed s bytes ok hs _ => exact h.record rfl (hP.live _ _ _ _ _ (h.live s hs))
  | close s _ _ => exact h.closeSlot hP ht.wf s
  | send fd bytes hwho => exact h.sendAll hP ht bytes (hgone fd (hwho.imp And.left id))

/-- **What the main loop does for clients.** -/
theorem moves (hP : Timely P) (ht : d.Tables env) (h : d.Living P) (hm : Moves env .loop d d') :
    d'.Living P := by
  have hloop : ∀ fd, ¬Cause.loop.For fd := by
    rintro fd (hcause | hcause)
    · cases hcause
    · cases hcause
  have hboth : d'.Tables env ∧ d'.Living P :=
    Moves.invariant (P := fun a => a.Tables env ∧ a.Living P) hm ⟨ht, h⟩ fun _ _ ha hab =>
      ⟨ha.1.move hab, ha.2.move hP ha.1 hab fun fd hfor => absurd hfor (hloop fd)⟩
  exact hboth.2

theorem idle (hP : Timely P) (h : d.Living P) (hi : Idle d d') : d'.Living P := by
  obtain ⟨es, hlog, hnotes⟩ := hi.log
  refine ⟨fun s hs => ?_, ?_⟩
  · rw [hi.clients] at hs ⊢
    rw [hlog, spent_append fun e he => (Ev.inner_of_note (hnotes e he)).1]
    exact h.live s hs
  · rw [hlog]
    exact h.events.append fun e he older => hP.quiet e older (Ev.inner_of_note (hnotes e he)).2

theorem calm (hP : Timely P) (ht : d.Tables env) (h : d.Living P) (hc : Calm env d d') :
    d'.Living P := by
  have hboth : d'.Tables env ∧ d'.Living P := by
    induction hc with
    | refl => exact ⟨ht, h⟩
    | tail _ hab ih =>
      rcases hab with hi | hm
      · exact ⟨ih.1.idle hi, ih.2.idle hP hi⟩
      · exact ⟨ih.1.move hm, ih.2.moves hP ih.1 (Relation.ReflTransGen.single hm)⟩
  exact hboth.2

/-- **The listeners are created**, when there is no client yet. -/
theorem listeners (ht : d.Tables env) (h : d.Living P) (hpc : d.pc = .initialised)
    {main xml or20 : ℤ} (hl : d.doCreateListeners env main xml or20 = some d') : d'.Living P := by
  obtain ⟨hnone, hlog, _⟩ := vacant_of_listeners ht hpc hl
  exact ⟨fun s hs => absurd (hnone s) hs, hlog ▸ h.events⟩

/-- **A connection is accepted**: its number is in use again. -/
theorem accept (hP : Timely P) (h : d.Living P) (kind : Kind) (fd : ℤ) (nonblocking : Bool) :
    (d.addAccepted env kind fd nonblocking).Living P := by
  rcases addAccepted_cases env d kind fd nonblocking with ⟨s, _, heq⟩ | heq
  · rw [heq]
    refine ⟨fun t ht => ?_, Trace.each_cons.mpr ⟨hP.quiet _ _ rfl, h.events⟩⟩
    rcases eq_or_ne t s with rfl | hne
    · have hself : (d.clients.take t fd).slot t =
          Clients.Slot.taken (d.clients.slot t) fd d.clients.nextId := Clients.set_slot_self ..
      show ¬Spent ((d.clients.take t fd).slot t).fd _
      rw [hself]
      exact fun hspent => hspent.1 rfl
    · have hother : (d.clients.take s fd).slot t = d.clients.slot t :=
        Clients.set_slot_of_ne d.clients _ hne
      have ht' : ((d.clients.take s fd).slot t).fd ≠ -1 := ht
      show ¬Spent ((d.clients.take s fd).slot t).fd _
      rw [hother] at ht' ⊢
      exact fun hspent => h.live t ht' hspent.2
  · rw [heq]
    refine ⟨fun t ht hspent => h.live t ht hspent.2, Trace.each_cons.mpr ⟨hP.quiet _ _ rfl, h.events⟩⟩

theorem afterByte (hP : Timely P) (h : d.Living P) (l : ServiceLoop) (r : Reading) (b : UInt8)
    (rest : Bytes) : (d.afterByte l r b rest).Living P :=
  h.one (fun s => setState_fd d r.slot s _) rfl rfl (hP.quiet _ _ rfl)

theorem encoded (hP : Timely P) (h : d.Living P) (s : SlotId) (state : EncodeState) (l : ServiceLoop)
    (v : Visit) : ((d.setState s state).counted l v).Living P := by
  have hstored : (d.setState s state).Living P := h.same (fun t => Or.inl (setState_fd d s t state)) rfl
  rcases counted_cases (d.setState s state) l v with ⟨_, heq⟩ | ⟨_, heq⟩
  · rw [heq]
    exact hstored.one (fun _ => rfl) rfl rfl (hP.quiet _ _ rfl)
  · rw [heq]
    exact hstored.same (fun _ => Or.inl rfl) rfl

end Living

theorem heard_kept (env : Env) : Kept env (Living Ev.Heard) where
  idle := fun _ h hi => h.idle timely_heard hi
  move := fun ht h hm => h.move timely_heard ht hm fun _ _ _ => Or.inl rfl
  desc := fun _ h _ _ => h.same (fun _ => Or.inl rfl) rfl
  listeners := fun ht h hpc hl => h.listeners ht hpc hl
  accept := fun nonblocking _ h _ _ _ => h.accept timely_heard _ _ nonblocking
  received := fun _ h _ _ _ => h.one (fun _ => rfl) rfl rfl trivial
  byte := fun {_ l r} b rest _ h _ => h.afterByte timely_heard l r b rest
  command := fun _ _ h _ => h.record rfl trivial
  encoded := fun {_ l r} state _ h _ => h.encoded timely_heard r.slot state l r.visit

/-- **No byte is sent to a number whose client is closed.** -/
theorem unheard_of_spent (h : Reachable env d) : Trace.Each Ev.Heard d.log :=
  ((heard_kept env).reachable ⟨fun _ hs => absurd rfl hs, Trace.each_nil⟩ h).events

/-! ### One line for each OpenRemote client -/

/-- **An OpenRemote client has one line executed**, and is there no longer. -/
def OneLine (d : Daemon) : Prop :=
  ∀ c, CameFrom .or20 c d.log → commandsOf c d.log = [] ∨
    ((commandsOf c d.log).length = 1 ∧ ∀ fd, d.connAt fd ≠ some c)

/-- Answers are no lines. -/
theorem commands_of_replies {es log : List Ev} (h : ∀ e ∈ es, e.isReply = true) {c : ℕ} :
    commandsOf c (es ++ log) = commandsOf c log := by
  refine Trace.collect_append_of_nil fun e he => ?_
  have hr := h e he
  cases e with
  | command => cases hr
  | _ => rfl

namespace OneLine

/-- Connections go, and no line is executed. -/
theorem congr (h : d.OneLine) (hconn : ∀ fd c, d'.connAt fd = some c → d.connAt fd = some c)
    (hcame : ∀ c, CameFrom .or20 c d'.log → CameFrom .or20 c d.log)
    (hlog : ∀ c, commandsOf c d'.log = commandsOf c d.log) : d'.OneLine := by
  intro c hc
  rw [hlog]
  exact (h c (hcame c hc)).imp_right fun hone => ⟨hone.1, fun fd hfd => hone.2 fd (hconn fd c hfd)⟩

/-- One more event, which is no line and accepts nobody. -/
theorem one (h : d.OneLine) {e : Ev} (hdescs : d'.descs = d.descs) (hlog : d'.log = e :: d.log)
    (hcame : ∀ c, ¬Ev.accepts c .or20 e) (he : ∀ c, e.commandOf c = []) : d'.OneLine := by
  refine h.congr (fun fd c hfd => ?_) (fun c hc => ?_) fun c => ?_
  · rwa [connAt, hdescs] at hfd
  · rw [hlog] at hc
    exact (cameFrom_cons (hcame c)).mp hc
  · rw [hlog]
    exact Trace.collect_cons_of_nil (he c)

theorem moves {cause : Cause} (ht : d.Tables env) (h : d.OneLine) (hm : Moves env cause d d') :
    d'.OneLine := by
  obtain ⟨es, hes, hreply⟩ := hm.log
  refine h.congr (fun fd c hfd => ?_) (fun c hc => ?_) fun c => ?_
  · obtain ⟨p, hp⟩ := connAt_eq_some.mp hfd
    rcases (hm.quiet ht).descs fd with heq | ⟨hnone, _⟩
    · exact connAt_eq_some.mpr ⟨p, heq ▸ hp⟩
    · rw [hnone] at hp
      cases hp
  · rw [hes] at hc
    exact (cameFrom_append es fun e he => Ev.not_accepts_of_reply (hreply e he) c .or20).mp hc
  · rw [hes, commands_of_replies hreply]

theorem idle (h : d.OneLine) (hi : Idle d d') : d'.OneLine := by
  obtain ⟨es, hes, hnote⟩ := hi.log
  refine h.congr (fun fd c hfd => ?_) (fun c hc => ?_) fun c => ?_
  · rwa [connAt, hi.descs] at hfd
  · rw [hes] at hc
    exact (cameFrom_append es fun e he => Ev.not_accepts_of_note (hnote e he) c .or20).mp hc
  · rw [hes]
    exact Trace.collect_append_of_nil fun e he => (Ev.mute c (Ev.isMute_of_note (hnote e he))).1

theorem calm (ht : d.Tables env) (h : d.OneLine) (hc : Calm env d d') : d'.OneLine := by
  have hboth : d'.Tables env ∧ d'.OneLine := by
    induction hc with
    | refl => exact ⟨ht, h⟩
    | tail _ hab ih =>
      rcases hab with hi | hm
      · exact ⟨ih.1.idle hi, ih.2.idle hi⟩
      · exact ⟨ih.1.move hm, ih.2.moves ih.1 (Relation.ReflTransGen.single hm)⟩
  exact hboth.2

/-- A descriptor that is no connection is opened or closed. -/
theorem desc (h : d.OneLine) {fd : ℤ} {desc : Option Desc}
    (hnew : ∀ c p, desc ≠ some (.conn c p)) :
    OneLine { d with descs := Function.update d.descs fd desc } := by
  refine h.congr (fun x c hx => ?_) (fun _ => id) fun _ => rfl
  obtain ⟨p, hp⟩ := connAt_eq_some.mp hx
  have hupd : Function.update d.descs fd desc x = some (.conn c p) := hp
  rw [Function.update_apply] at hupd
  split at hupd
  · exact absurd hupd (hnew c p)
  · exact connAt_eq_some.mpr ⟨p, hupd⟩

theorem listeners (ht : d.Tables env) (h : d.OneLine) (hpc : d.pc = .initialised)
    {main xml or20 : ℤ} (hl : d.doCreateListeners env main xml or20 = some d') : d'.OneLine := by
  have ht' := ht.createListeners hpc hl
  obtain ⟨hnone, hlog, _⟩ := vacant_of_listeners ht hpc hl
  refine h.congr (fun fd c hfd => ?_) (fun c hc => hlog ▸ hc) fun c => by rw [hlog]
  obtain ⟨p, hp⟩ := connAt_eq_some.mp hfd
  obtain ⟨s, rfl⟩ := ht'.slot fd c p hp
  rw [hnone s, ht'.connAt_neg] at hfd
  cases hfd

/-- **A connection is accepted**, which has sent nothing. -/
theorem accept (h : d.OneLine) (hf : d.Framed) (kind : Kind) {fd : ℤ}
    (nonblocking : Bool) : (d.addAccepted env kind fd nonblocking).OneLine := by
  rcases addAccepted_cases env d kind fd nonblocking with ⟨s, _, heq⟩ | heq
  · rw [heq]
    intro c hc
    have hcommands : commandsOf c (.accepted d.nextConn fd kind :: d.log) = commandsOf c d.log :=
      Trace.collect_cons_of_nil rfl
    rcases eq_or_ne c d.nextConn with rfl | hne
    · left
      have hnil := hf.fresh d.nextConn (Nat.le_refl _)
      rw [hf.bytes] at hnil
      show commandsOf d.nextConn (.accepted d.nextConn fd kind :: d.log) = []
      rw [hcommands, hf.lines, (List.append_eq_nil_iff.mp hnil).1]
      rfl
    · have hother : ¬Ev.accepts c .or20 (.accepted d.nextConn fd kind) := fun hacc => hne hacc.1.symm
      have hold : CameFrom .or20 c d.log := (cameFrom_cons hother).mp hc
      show commandsOf c (.accepted d.nextConn fd kind :: d.log) = [] ∨
        (commandsOf c (.accepted d.nextConn fd kind :: d.log)).length = 1 ∧ _
      rw [hcommands]
      refine (h c hold).imp_right fun hone => ⟨hone.1, fun x hx => ?_⟩
      obtain ⟨p, hp⟩ := connAt_eq_some.mp hx
      have hupd : Function.update d.descs fd (some (.conn d.nextConn (kind.port env.config))) x =
        some (.conn c p) := hp
      rw [Function.update_apply] at hupd
      split at hupd
      · cases hupd
        exact hne rfl
      · exact hone.2 x (connAt_eq_some.mpr ⟨p, hupd⟩)
  · rw [heq]
    exact h.one rfl rfl (fun _ => id) fun _ => rfl

end OneLine

/-! ### Room for the answers -/

/-- **What a client is told** takes so much of its queue, or is too much for it. -/
theorem told_space {v : Slot} (hfits : v.output.len ≤ clientOutputQueueSize) (text : Bytes) :
    (text.length ≤ v.output.space → (Slot.told text v).fd = v.fd ∧
        (Slot.told text v).output.len ≤ clientOutputQueueSize ∧
        (Slot.told text v).output.space = v.output.space - text.length) ∧
      (v.output.space < text.length → (Slot.told text v).fd = -1) := by
  rw [Slot.told]
  cases henq : v.output.enqueue text with
  | some output =>
    obtain ⟨hlen, hcap⟩ := ClientOutput.len_enqueue henq
    refine ⟨fun _ => ⟨rfl, hcap hfits, ?_⟩, fun hfull => ?_⟩
    · show clientOutputQueueSize - output.len = clientOutputQueueSize - v.output.len - text.length
      omega
    · rw [ClientOutput.enqueue_eq_none_iff.mpr hfull] at henq
      cases henq
  | none =>
    exact ⟨fun hroom => absurd (ClientOutput.enqueue_eq_none_iff.mp henq) (not_lt.mpr hroom),
      fun _ => rfl⟩

theorem length_nulTerminated (line : Bytes) : (nulTerminated line).length = line.length := by
  rw [nulTerminated]
  split
  next hlast =>
    have hne : line ≠ [] := by
      rintro rfl
      cases hlast
    have hpos := List.length_pos_of_ne_nil hne
    rw [List.length_append, List.length_dropLast, List.length_singleton]
    omega
  · rfl

/-- **The client of a slot is told so much by a step**, or is closed by it. -/
structure Loads (d d' : Daemon) (s : SlotId) (load : ℕ) : Prop where
  fits : load ≤ (d.clients.slot s).output.space → (d'.clients.slot s).fd = (d.clients.slot s).fd ∧
    (d'.clients.slot s).output.len ≤ clientOutputQueueSize ∧
    (d'.clients.slot s).output.space = (d.clients.slot s).output.space - load
  full : (d.clients.slot s).output.space < load → (d'.clients.slot s).fd = -1

theorem loads_of_told {s : SlotId} (hfits : (d.clients.slot s).output.len ≤ clientOutputQueueSize)
    {text : Bytes} (hslot : d'.clients.slot s = (d.clients.slot s).told text) :
    d.Loads d' s text.length := by
  obtain ⟨hroom, hfull⟩ := told_space hfits text
  rw [← hslot] at hroom hfull
  exact ⟨hroom, hfull⟩

theorem loads_of_same {s : SlotId} (hfits : (d.clients.slot s).output.len ≤ clientOutputQueueSize)
    (hslot : d'.clients.slot s = d.clients.slot s) : d.Loads d' s 0 := by
  refine ⟨fun _ => ?_, fun hfull => absurd hfull (Nat.not_lt_zero _)⟩
  rw [hslot]
  exact ⟨rfl, hfits, rfl⟩

/-- **A text for a client that is there.** -/
theorem Living.queueClientBytes {P : Ev → List Ev → Prop} (hP : Timely P) (ht : d.Tables env)
    (h : d.Living P) {s : SlotId} (hs : (d.clients.slot s).fd ≠ -1) (bytes : Bytes) :
    (d.queueClientBytes env (d.clients.slot s).fd bytes).1.Living P := by
  have hfind := ht.wf.find_eq hs
  rw [Daemon.queueClientBytes]
  split
  · exact h
  have hrec : (d.record (.addressed (d.connAt (d.clients.slot s).fd) (d.clients.slot s).fd
      bytes)).Living P := h.record rfl (hP.quiet _ _ rfl)
  have hfound : (d.record (.addressed (d.connAt (d.clients.slot s).fd) (d.clients.slot s).fd
      bytes)).clients.find (d.clients.slot s).fd = some s := hfind
  have hwf : (d.record (.addressed (d.connAt (d.clients.slot s).fd) (d.clients.slot s).fd
      bytes)).clients.Wf := ht.wf
  generalize d.record _ = a at hrec hfound hwf
  simp only [enqueueBytes, hfound]
  split
  next output _ =>
    have hset : (a.setOutput s output).Living P :=
      hrec.same (fun t => Or.inl (setOutput_fd a s t output)) rfl
    exact hset.record rfl (hP.quiet _ _ rfl)
  · show (a.delClient _).Living P
    rw [delClient, hfound]
    exact hrec.closeSlot hP hwf s

theorem queueClientBytes_stampReads (env : Env) (d : Daemon) (fd : ℤ) (bytes : Bytes) :
    (d.queueClientBytes env fd bytes).1.stampReads = d.stampReads := by
  rw [Daemon.queueClientBytes]
  split
  · rfl
  · simp only [enqueueBytes]
    split
    · rw [sendAll]
      split
      · rfl
      · rfl
    · split
      · rfl
      · rw [delClient]
        split
        · rfl
        · rfl

theorem toAll_stampReads (env : Env) (kind : Kind) (line : Bytes) (d : Daemon) :
    (d.toAll env kind line).stampReads = d.stampReads := by
  rw [toAll]
  induction List.finRange maxCliSockets generalizing d with
  | nil => rfl
  | cons i is ih =>
    rw [List.foldl_cons, ih]
    dsimp only
    split
    · exact queueClientBytes_stampReads env d _ line
    · rfl

/-- **A text for a client that is there** joins its queue, or closes it. -/
theorem Living.addressed {P : Ev → List Ev → Prop} (hP : Timely P) (ht : d.Tables env)
    (h : d.Living P) {s : SlotId} (hs : (d.clients.slot s).fd ≠ -1)
    (hfits : (d.clients.slot s).output.len ≤ clientOutputQueueSize) (text : Bytes) :
    (d.queueClientBytes env (d.clients.slot s).fd text).1.Living P ∧
      d.Loads (d.queueClientBytes env (d.clients.slot s).fd text).1 s text.length := by
  refine ⟨h.queueClientBytes hP ht hs text, ?_⟩
  rcases eq_or_ne text [] with rfl | hne
  · exact loads_of_same hfits rfl
  · have hslot : (d.queueClientBytes env (d.clients.slot s).fd text).1.clients.slot s = _ :=
      queueClientBytes_slot ht.wf hs hne s
    rw [if_pos rfl] at hslot
    exact loads_of_told hfits hslot

/-- **A line for a client that is there.** -/
theorem Living.sockprintf {P : Ev → List Ev → Prop} (hP : Timely P) (ht : d.Tables env)
    (h : d.Living P) {s : SlotId} (hs : (d.clients.slot s).fd ≠ -1)
    (hfits : (d.clients.slot s).output.len ≤ clientOutputQueueSize) (body : Bytes) :
    (d.sockprintf env (d.clients.slot s).fd body).Living P ∧
      d.Loads (d.sockprintf env (d.clients.slot s).fd body) s
        (stampedLine env d.stampReads body).length := by
  have hboth : ∀ a : Daemon, a.Tables env → a.Living P → a.clients = d.clients → ∀ text : Bytes,
      (a.queueClientBytes env (d.clients.slot s).fd text).1.Living P ∧
        d.Loads (a.queueClientBytes env (d.clients.slot s).fd text).1 s text.length := by
    intro a hta ha hclients text
    rw [← hclients] at hs hfits ⊢
    obtain ⟨hliving, hfit, hfull⟩ := ha.addressed hP hta hs hfits text
    exact ⟨hliving, hclients ▸ hfit, hclients ▸ hfull⟩
  have hstamp : Move env .loop d { d with stampReads := d.stampReads + 1 } := .stamp d
  have hstamped := hboth _ (ht.move hstamp) (h.same (fun _ => Or.inl rfl) rfl) rfl
  rw [Daemon.sockprintf, if_neg hs]
  split
  · rw [← length_nulTerminated]
    exact hstamped _
  · exact hstamped _

/-- **A line for all**, as a client has it that is there. -/
theorem Living.sockprintf_all {P : Ev → List Ev → Prop} (hP : Timely P) (ht : d.Tables env)
    (h : d.Living P) {s : SlotId} (hs : (d.clients.slot s).fd ≠ -1)
    (hfits : (d.clients.slot s).output.len ≤ clientOutputQueueSize) (body : Bytes) :
    (d.sockprintf env (-1) body).Living P ∧
      d.Loads (d.sockprintf env (-1) body) s
        ((Effect.sockprintf (-1) body).load env s.1 (d.clients.slot s).fd d.stampReads) := by
  refine ⟨h.moves hP ht (sockprintf_all_moves ht.wf body), ?_⟩
  have hslot := sockprintf_all_slot env ht.wf body s
  rw [Effect.load]
  by_cases hpos : 0 < (d.clients.slot s).fd
  · rw [if_pos hpos] at hslot
    obtain ⟨kind, i⟩ := s
    cases kind with
    | main =>
      rw [if_pos (Or.inr ⟨rfl, by simp, hpos⟩)]
      exact loads_of_told hfits hslot
    | xml =>
      rw [if_pos (Or.inr ⟨rfl, by simp, hpos⟩), ← length_nulTerminated]
      exact loads_of_told hfits hslot
    | or20 =>
      rw [if_neg (by simp [hs.symm])]
      exact loads_of_same hfits hslot
  · rw [if_neg hpos] at hslot
    rw [if_neg (by simp [hs.symm, hpos])]
    exact loads_of_same hfits hslot

theorem sockprintf_stampReads (env : Env) (d : Daemon) (fd : ℤ) (body : Bytes) :
    (d.sockprintf env fd body).stampReads = d.stampReads + 1 := by
  rw [Daemon.sockprintf]
  split
  · rw [toAll_stampReads, toAll_stampReads]
  · rw [queueClientBytes_stampReads]

/-- **One call of a line**, while its sender is there. -/
theorem Living.perform {P : Ev → List Ev → Prop} (hP : Timely P) (ht : d.Tables env)
    (h : d.Living P) {s : SlotId} (hs : (d.clients.slot s).fd ≠ -1)
    (hfits : (d.clients.slot s).output.len ≤ clientOutputQueueSize) {e : Effect}
    (he : e.For (d.clients.slot s).fd) :
    (d.perform env e).Living P ∧
      d.Loads (d.perform env e) s (e.load env s.1 (d.clients.slot s).fd d.stampReads) ∧
      (d.perform env e).stampReads = d.stampReads + e.stamps := by
  cases e with
  | sockprintf x body =>
    refine and_assoc.mp ⟨?_, sockprintf_stampReads env d x body⟩
    by_cases hx : x = -1
    · rw [hx]
      exact h.sockprintf_all hP ht hs hfits body
    · have hself : x = (d.clients.slot s).fd := he.resolve_right hx
      rw [hself, Effect.load, if_pos (Or.inl rfl)]
      exact h.sockprintf hP ht hs hfits body
  | statusprintf x text =>
    have hself : x = (d.clients.slot s).fd := (he.resolve_right id).1
    refine and_assoc.mp ⟨?_, queueClientBytes_stampReads env d x _⟩
    rw [hself, Effect.load, if_pos rfl]
    exact h.addressed hP ht hs hfits _
  | x10Write buf => exact ⟨h.same (fun _ => Or.inl rfl) rfl, loads_of_same hfits rfl, rfl⟩
  | sendAll x bytes => exact absurd he (by simp [Effect.For, Effect.RepliesTo, Effect.PrintsTo])

/-- **The calls of a line**: they keep their sender if all fits, and are in time if none of those
that are left is an answer. -/
theorem Living.performAll {P : Ev → List Ev → Prop} (hP : Timely P) (ht : d.Tables env)
    (h : d.Living P) {s : SlotId} (hs : (d.clients.slot s).fd ≠ -1)
    (hfits : (d.clients.slot s).output.len ≤ clientOutputQueueSize) {es : List Effect}
    (hes : ∀ e ∈ es, e.For (d.clients.slot s).fd)
    (hleft : ∀ left, afterOverflow env s.1 (d.clients.slot s).fd (d.clients.slot s).output.space
      d.stampReads es = some left → ∀ e ∈ left, ¬e.RepliesTo (d.clients.slot s).fd) :
    (d.performAll env es).Living P ∧
      (afterOverflow env s.1 (d.clients.slot s).fd (d.clients.slot s).output.space d.stampReads es =
        none → ((d.performAll env es).clients.slot s).fd = (d.clients.slot s).fd) := by
  induction es generalizing d with
  | nil => exact ⟨h, fun _ => rfl⟩
  | cons e es ih =>
    have he := hes e List.mem_cons_self
    have hrest : ∀ x ∈ es, x.For (d.clients.slot s).fd := fun x hx =>
      hes x (List.mem_cons_of_mem _ hx)
    obtain ⟨hliving, hloads, hreads⟩ := h.perform hP ht hs hfits he
    have hone : ∀ x ∈ [e], x.For (d.clients.slot s).fd := fun x hx => by
      rwa [List.mem_singleton.mp hx]
    have hmoves : Moves env (.command (d.clients.slot s).fd) d (d.performAll env [e]) :=
      performAll_moves ht.wf hs hone
    have hta : (d.perform env e).Tables env := ht.moves hmoves
    rw [afterOverflow] at hleft ⊢
    show Living P ((d.perform env e).performAll env es) ∧
      (_ → (((d.perform env e).performAll env es).clients.slot s).fd = _)
    split
    next hfull =>
      -- the sender is gone, and the rest is for all
      have hall : ∀ x ∈ es, x.PrintsTo (-1) := fun x hx =>
        (hrest x hx).resolve_left (hleft es (if_pos hfull) x hx)
      exact ⟨hliving.moves hP hta (performAll_moves_of_all hta.wf hall), fun hnone => nomatch hnone⟩
    next hroom =>
      obtain ⟨hfd, hcap, hspace⟩ := hloads.fits (not_lt.mp hroom)
      rw [if_neg hroom] at hleft
      rw [← hspace, ← hreads, ← hfd] at hleft ⊢
      exact ih hta hliving (hfd ▸ hs) hcap (hfd ▸ hrest) hleft

/-! ### Lines that take leave -/

/-- **The calls of a line that are left over** when its answers have become too much for the queue
of its sender. -/
def leftOver (env : Env) (d : Daemon) (r : Reading) (line : Bytes) : Option (List Effect) :=
  afterOverflow env r.slot.1 r.fd (d.clients.slot r.slot).output.space d.stampReads
    (Mochad.processcommandline (d.ctx env) r.fd line d.x10).effects

/-- **A line that closes its client is the last of its read**, and no answer is left over. -/
def Leaves (env : Env) (d : Daemon) (r : Reading) (line rest : Bytes) : Prop :=
  match d.leftOver env r line with
  | none => d.or20client env r.fd = true → Framing.lines isDelim lineCap .start rest = []
  | some left => Framing.lines isDelim lineCap .start rest = [] ∧ ∀ e ∈ left, ¬e.RepliesTo r.fd

/-- **A step at which a client may be closed, but nothing is done for it later**: only a byte that
completes a line of a client that is there can be another. -/
def TakesLeave (env : Env) (d : Daemon) : Label → Prop
  | .byte => match d.pc with
    | .encode l r => match r.rest with
      | b :: rest => match (encodeByte (d.clients.slot r.slot).state r.remptr b).2.2 with
        | some line => (d.clients.slot r.slot).fd = r.fd →
            ((d.afterByte l r b rest).record (.command r.conn r.fd line)).Leaves env r line rest
        | none => True
      | [] => True
    | _ => True
  | _ => True

/-- What is known of the byte that completes a line. -/
theorem TakesLeave.leaves (h : d.TakesLeave env .byte) {l : ServiceLoop} {r : Reading}
    (hpc : d.pc = .encode l r) {b : UInt8} {rest line : Bytes} (hrest : r.rest = b :: rest)
    (hline : (encodeByte (d.clients.slot r.slot).state r.remptr b).2.2 = some line)
    (hslot : (d.clients.slot r.slot).fd = r.fd) :
    ((d.afterByte l r b rest).record (.command r.conn r.fd line)).Leaves env r line rest := by
  simp only [TakesLeave, hpc, hrest, hline] at h
  exact h hslot

theorem Living.delClient {P : Ev → List Ev → Prop} (hP : Timely P) (hwf : d.clients.Wf)
    (h : d.Living P) (fd : ℤ) : (d.delClient fd).Living P := by
  rw [Daemon.delClient]
  split
  · exact h
  next s _ => exact h.closeSlot hP hwf s

/-- **A command of a client that is there.** -/
theorem Living.processcommandline (ht : d.Tables env) (h : d.Living Ev.InTime) {r : Reading}
    (hslot : (d.clients.slot r.slot).fd = r.fd) (hfd : r.fd ≠ -1)
    (hfits : (d.clients.slot r.slot).output.len ≤ clientOutputQueueSize) {line : Bytes}
    (hleft : ∀ left, d.leftOver env r line = some left → ∀ e ∈ left, ¬e.RepliesTo r.fd) :
    (d.processcommandline env r.fd line).Living Ev.InTime ∧ (d.leftOver env r line = none →
      ((d.processcommandline env r.fd line).clients.slot r.slot).fd = r.fd) := by
  have hx10 : ∀ x10, Daemon.Tables env { d with x10 := x10 } := fun x10 =>
    by
    have hmove : Move env .loop d { d with x10 := x10 } := .x10 d x10
    exact ht.move hmove
  have hliving : ∀ x10, Daemon.Living Ev.InTime { d with x10 := x10 } := fun x10 =>
    h.same (fun _ => Or.inl rfl) rfl
  have hlive : (d.clients.slot r.slot).fd ≠ -1 := hslot ▸ hfd
  by_cases hp : IsPolicyRequest line
  · obtain ⟨c, _, hc⟩ := ht.connAt hlive
    rw [processcommandline_policy_eq hp]
    generalize (Mochad.processcommandline (d.ctx env) r.fd line d.x10).state = x10
    have haddressed : Living Ev.InTime (Daemon.record { d with x10 := x10 }
        (.addressed (d.connAt r.fd) r.fd domainPolicy)) := (hliving x10).record rfl trivial
    refine ⟨haddressed.sendAll timely_inTime ((hx10 x10).record _) _ fun hnone => ?_, fun _ => ?_⟩
    · rw [← hslot] at hnone
      exact absurd (hc.symm.trans hnone) (by simp)
    · rw [Daemon.sendAll]
      split
      · exact hslot
      · exact hslot
  · have hcalls := emits_processcommandline (d.ctx env) r.fd (or20client_neg ht.descs) hp d.x10
    rw [leftOver] at hleft ⊢
    rw [Daemon.processcommandline, runX10]
    generalize Mochad.processcommandline (d.ctx env) r.fd line d.x10 = m at hleft hcalls ⊢
    rw [← hslot] at hleft hcalls ⊢
    exact (hliving m.state).performAll timely_inTime (hx10 m.state) hlive hfits hcalls hleft

/-- **A line of a client that is there**, which stays or has no other line in this read. -/
theorem Living.runLine (ht : d.Tables env) (h : d.Living Ev.InTime) {r : Reading}
    (hslot : (d.clients.slot r.slot).fd = r.fd) (hfd : r.fd ≠ -1)
    (hfits : (d.clients.slot r.slot).output.len ≤ clientOutputQueueSize) {line rest : Bytes}
    (hleaves : (d.record (.command r.conn r.fd line)).Leaves env r line rest) :
    (d.runLine env r line).Living Ev.InTime ∧
      (((d.runLine env r line).clients.slot r.slot).fd = r.fd ∨
        Framing.lines isDelim lineCap .start rest = []) := by
  have hrec : (d.record (.command r.conn r.fd line)).Living Ev.InTime := by
    refine h.record rfl ?_
    rw [← hslot]
    exact h.live r.slot (hslot ▸ hfd)
  have htrec := ht.record (.command r.conn r.fd line)
  rw [Daemon.runLine]
  have hslot' : ((d.record (.command r.conn r.fd line)).clients.slot r.slot).fd = r.fd := hslot
  have hfits' : ((d.record (.command r.conn r.fd line)).clients.slot r.slot).output.len ≤
    clientOutputQueueSize := hfits
  generalize d.record (.command r.conn r.fd line) = a at hrec htrec hleaves hslot' hfits'
  have hmoves : Moves env (causeOf r.fd line) a (a.processcommandline env r.fd line) :=
    processcommandline_moves htrec.descs htrec.wf hfd line
  have hleft : ∀ left, a.leftOver env r line = some left → ∀ e ∈ left, ¬e.RepliesTo r.fd := by
    intro left hsome
    rw [Leaves, hsome] at hleaves
    exact hleaves.2
  obtain ⟨hliving, hstays⟩ := hrec.processcommandline htrec hslot' hfd hfits' hleft
  split
  next hor =>
    refine ⟨hliving.delClient timely_inTime (hmoves.wf htrec.wf) r.fd, Or.inr ?_⟩
    rw [Leaves] at hleaves
    split at hleaves
    · -- it was an OpenRemote client before
      refine hleaves ?_
      rcases (hmoves.quiet htrec).descs r.fd with heq | ⟨hnone, _⟩
      · rwa [or20client, heq] at hor
      · rw [or20client, hnone] at hor
        cases hor
    · exact hleaves.1
  next =>
    refine ⟨hliving, ?_⟩
    rw [Leaves] at hleaves
    split at hleaves
    next hnone => exact Or.inl (hstays hnone)
    · exact Or.inr hleaves.1

/-! ### The invariant -/

/-- **A client that is gone has no other line in its read**: what is done for clients is done while
they are there. -/
structure Parted (d : Daemon) : Prop where
  living : d.Living Ev.InTime
  one : d.OneLine
  reading : ∀ l r, d.pc = .encode l r → (d.clients.slot r.slot).fd = r.fd ∨
    Framing.lines isDelim lineCap (frameOf (d.clients.slot r.slot).state r.remptr) r.rest = []

/-- **A line is executed** for a connection that is there, and for no other. -/
theorem OneLine.runLine (hr : Reachable env d) (h : d.OneLine) {l : ServiceLoop} {r : Reading}
    (hpc : d.pc = .encode l r) (hslot : (d.clients.slot r.slot).fd = r.fd) (b : UInt8)
    (rest line : Bytes) : ((d.afterByte l r b rest).runLine env r line).OneLine := by
  have ht := Reachable.tables hr
  have hk := Reachable.known hr
  obtain ⟨c, hc, _⟩ := (Reachable.framed hr).reading l r hpc
  have hfd := ht.reading l r hpc
  have hafter := ht.afterByte hpc b rest
  have hmoves : Moves env _ _ _ := runLine_moves hafter.descs hafter.wf hfd line
  have hquiet := hmoves.quiet (hafter.record _)
  have hconn : ∀ fd c', ((d.afterByte l r b rest).runLine env r line).connAt fd = some c' →
      d.connAt fd = some c' := by
    intro fd c' hfd'
    obtain ⟨p, hp⟩ := connAt_eq_some.mp hfd'
    rcases hquiet.descs fd with heq | ⟨hnone, _⟩
    · exact connAt_eq_some.mpr ⟨p, heq ▸ hp⟩
    · rw [hnone] at hp
      cases hp
  obtain ⟨es, hes, hreply⟩ := hmoves.log
  have hlog : ((d.afterByte l r b rest).runLine env r line).log =
    es ++ (byteEvents r b (some line) ++ d.log) := hes
  have hcommands : ∀ c', commandsOf c' ((d.afterByte l r b rest).runLine env r line).log =
      commandsOf c' d.log ++ if c' = c then [line] else [] := by
    intro c'
    rw [hlog, commands_of_replies hreply]
    exact (collect_byteEvents hc b (some line) d.log c').1
  intro c' hcame'
  have hcame : CameFrom .or20 c' d.log := by
    rw [hlog] at hcame'
    have hold := (cameFrom_append es fun e he => Ev.not_accepts_of_reply (hreply e he) c' .or20).mp
      hcame'
    refine (cameFrom_append _ fun e he => ?_).mp hold
    simp only [byteEvents, Option.map_some, Option.toList_some, List.singleton_append,
      List.mem_cons, List.not_mem_nil, or_false] at he
    rcases he with rfl | rfl
    · exact id
    · exact id
  have hlive : (d.clients.slot r.slot).fd ≠ -1 := hslot ▸ hfd
  obtain ⟨c₀, _, hat⟩ := ht.connAt hlive
  rw [hslot] at hat
  have hat' : d.connAt r.fd = some c := by
    rcases hk.reader l r hpc with ⟨_, hsame⟩ | hnone
    · rw [hsame, hc]
    · rw [hnone] at hat
      cases hat
  rw [hcommands]
  by_cases hcc : c' = c
  · subst hcc
    rw [if_pos rfl]
    right
    have hnil : commandsOf c' d.log = [] :=
      (h c' hcame).resolve_right fun hone => hone.2 r.fd hat'
    refine ⟨by rw [hnil]; rfl, fun fd hfd' => ?_⟩
    -- it is an OpenRemote client, and these are closed
    obtain rfl := ht.connAt_unique hat' (hconn fd c' hfd')
    have hkind : r.slot.1 = .or20 := (hk.kind r.slot c' (hslot ▸ hat') .or20 hcame).symm
    have hclosed := runLine_closed hafter hfd line hkind
    have hafterfd : (((d.afterByte l r b rest).record (.command r.conn r.fd line)).clients.slot
        r.slot).fd = r.fd := (setState_fd d r.slot r.slot _).trans hslot
    have hneg := (Moves.fd hmoves r.slot).resolve_left fun heq => hclosed (heq.trans hafterfd)
    have hdesc := descs_of_closed (hafter.record _) hmoves (hafterfd ▸ hfd) hneg
    rw [hafterfd] at hdesc
    rw [connAt, hdesc] at hfd'
    cases hfd'
  · rw [if_neg hcc, List.append_nil]
    exact (h c' hcame).imp_right fun hone => ⟨hone.1, fun fd hfd' => hone.2 fd (hconn fd c' hfd')⟩

/-- **A byte is taken**, and the line that it completes takes leave. -/
theorem Parted.byte (hr : Reachable env d) (h : d.Parted) (hok : d.TakesLeave env .byte)
    {l : ServiceLoop} {r : Reading} (hpc : d.pc = .encode l r)
    (hb : d.doByte env l r = some d') : d'.Parted := by
  have ht := Reachable.tables hr
  obtain ⟨_, _, _, hkeeps, _⟩ := (Reachable.framed hr).reading l r hpc
  obtain ⟨b, rest, hrest, hcase⟩ := doByte_cases hb
  have hafter := ht.afterByte hpc b rest
  have hself : (d.afterByte l r b rest).clients.slot r.slot = { d.clients.slot r.slot with
      state := (encodeByte (d.clients.slot r.slot).state r.remptr b).1 } :=
    setState_self d r.slot _
  have hstep := (encodeByte_frame hkeeps.1 b).1
  have hlines : Framing.lines isDelim lineCap (frameOf (d.clients.slot r.slot).state r.remptr)
      r.rest = (encodeByte (d.clients.slot r.slot).state r.remptr b).2.2.toList ++
        Framing.lines isDelim lineCap (frameOf (encodeByte (d.clients.slot r.slot).state r.remptr
          b).1 (encodeByte (d.clients.slot r.slot).state r.remptr b).2.1) rest := by
    rw [hrest, Framing.lines, Framing.run_cons, ← hstep]
    rfl
  rcases hcase with ⟨hnone, rfl⟩ | ⟨line, hline, rfl⟩
  · refine ⟨h.living.afterByte timely_inTime l r b rest, h.one.one rfl rfl (fun _ => id)
      fun _ => rfl, fun l' r' hp => ?_⟩
    obtain ⟨rfl, rfl⟩ := Pc.encode.inj hp
    show ((d.afterByte l r b rest).clients.slot r.slot).fd = r.fd ∨ Framing.lines isDelim lineCap
      (frameOf ((d.afterByte l r b rest).clients.slot r.slot).state _) rest = []
    rw [hself]
    refine (h.reading l r hpc).imp_right fun hnil => ?_
    rw [hlines] at hnil
    exact (List.append_eq_nil_iff.mp hnil).2
  · -- a client with a line left is there
    have hslot : (d.clients.slot r.slot).fd = r.fd := by
      refine (h.reading l r hpc).resolve_right fun hnil => ?_
      rw [hlines, hline] at hnil
      cases hnil
    have hfd := ht.reading l r hpc
    have hslot' : ((d.afterByte l r b rest).clients.slot r.slot).fd = r.fd :=
      (setState_fd d r.slot r.slot _).trans hslot
    have hfits : ((d.afterByte l r b rest).clients.slot r.slot).output.len ≤
        clientOutputQueueSize := by
      rw [hself]
      exact (Reachable.sound hr).fits r.slot
    have hleaves := hok.leaves hpc hrest hline hslot
    obtain ⟨hliving, hcase⟩ := (h.living.afterByte timely_inTime l r b rest).runLine hafter hslot'
      hfd hfits hleaves
    obtain ⟨_, hdone⟩ := (Reachable.framed hr).line ht hpc hrest hline
    refine ⟨hliving, h.one.runLine hr hpc hslot b rest line, fun l' r' hp => ?_⟩
    have hpc' : ((d.afterByte l r b rest).runLine env r line).pc =
        (d.afterByte l r b rest).pc := by
      have hmoves : Moves env _ _ _ := runLine_moves hafter.descs hafter.wf hfd line
      exact hmoves.pc_eq
    obtain ⟨hzero, hdisc⟩ := hdone l' r' hp
    obtain ⟨_, rfl⟩ := Pc.encode.inj (hpc'.symm.trans hp)
    refine hcase.imp id fun hnil => ?_
    have hstart : ∀ st : EncodeState, st.discarding = false → frameOf st 0 = .start := by
      intro st hst
      simp [frameOf, hst, Framing.Frame.start]
    rw [hzero, hstart _ hdisc]
    exact hnil

/-- A read ends. -/
theorem Parted.encoded (h : d.Parted) {l : ServiceLoop} {r : Reading}
    (he : d.doEncoded l r = some d') : d'.Parted := by
  obtain ⟨_, rfl⟩ := doEncoded_eq he
  generalize EncodeState.mk _ _ _ _ = state
  refine ⟨h.living.encoded timely_inTime r.slot state l r.visit, ?_, fun l' r' hp => ?_⟩
  · rcases counted_cases (d.setState r.slot state) l r.visit with ⟨_, heq⟩ | ⟨_, heq⟩
    · rw [heq]
      exact h.one.one rfl rfl (fun _ => id) fun _ => rfl
    · rw [heq]
      exact h.one
  · rcases counted_cases (d.setState r.slot state) l r.visit with ⟨_, heq⟩ | ⟨_, heq⟩
    · rw [heq] at hp
      cases hp
    · rw [heq] at hp
      cases hp

/-- What does not end in a read. -/
theorem Parted.of_stage (hliving : d.Living Ev.InTime) (hone : d.OneLine)
    (hstage : d.pc.stage ≠ .reading) : d.Parted := by
  refine ⟨hliving, hone, fun l r hp => ?_⟩
  rw [hp] at hstage
  exact absurd rfl hstage

/-- **Every step that takes leave** keeps it. -/
theorem Parted.step (hr : Reachable env d) (h : d.Parted) {label : Label}
    (hok : d.TakesLeave env label) (hs : d.step env label = some d') : d'.Parted := by
  have ht := Reachable.tables hr
  have hf := Reachable.framed hr
  by_cases hstage : d.pc.stage = .reading
  · obtain ⟨l, r, hpc⟩ : ∃ l r, d.pc = .encode l r := by
      cases hpc : d.pc with
      | encode l r => exact ⟨l, r, rfl⟩
      | _ => rw [hpc] at hstage; cases hstage
    rcases step_reading hpc hs with hi | ⟨fd, desc, _, hnew, rfl⟩ | ⟨rfl, hb⟩ | he
    · refine ⟨h.living.idle timely_inTime hi, h.one.idle hi, fun l' r' hp => ?_⟩
      rcases hi.pc with hsame | ⟨hne, _⟩
      · rw [hi.clients]
        exact h.reading l' r' (hsame ▸ hp)
      · exact absurd hstage hne
    · exact ⟨h.living.same (fun _ => Or.inl rfl) rfl, h.one.desc hnew, h.reading⟩
    · exact h.byte hr hok hpc hb
    · exact h.encoded he
  · rcases step_kind ht.descs ht.wf hs with hc | ⟨fd, desc, _, hnew, _, rfl⟩ |
      ⟨main, xml, or20, hpc, hl⟩ | ⟨snap, nready, kind, fd, nb, hpc, hready, hfree, rfl⟩ |
      ⟨d₁, l, r, hpc, hc, hpc₁, hfd, hslot, hconn, hrem, rfl⟩ | ⟨l, r, hpc, _⟩ | ⟨l, r, hpc, _⟩
    · exact .of_stage (h.living.calm timely_inTime ht hc) (h.one.calm ht hc)
        (hf.calm ht hstage hc).2
    · exact .of_stage (h.living.same (fun _ => Or.inl rfl) rfl) (h.one.desc hnew) hstage
    · exact .of_stage (h.living.listeners ht hpc hl) (h.one.listeners ht hpc hl)
        (vacant_of_listeners ht hpc hl).2.2
    · have hrun : (d.addAccepted env kind fd nb).pc.stage = .running := by
        rw [addAccepted_pc, hpc]
        rfl
      have hi := idle_afterAccept hrun snap nready kind
      refine .of_stage ((h.living.accept timely_inTime kind fd nb).idle timely_inTime hi)
        ((h.one.accept hf kind nb).idle hi) ?_
      rcases hi.pc with hsame | ⟨_, hne, _⟩
      · rw [hsame, hrun]
        nofun
      · exact hne
    · have hliving := h.living.calm timely_inTime ht hc
      have hone := h.one.calm ht hc
      refine ⟨hliving.one (fun _ => rfl) rfl rfl trivial,
        hone.one rfl rfl (fun _ => id) fun _ => rfl, fun l' r' hp => ?_⟩
      obtain ⟨rfl, rfl⟩ := Pc.encode.inj hp
      exact Or.inl (Clients.fd_of_find hslot)
    · rw [hpc] at hstage
      exact absurd rfl hstage
    · rw [hpc] at hstage
      exact absurd rfl hstage

theorem initial_parted (env : Env) : (initial env).Parted where
  living := ⟨fun _ hs => absurd rfl hs, Trace.each_nil⟩
  one := fun _ _ => Or.inl rfl
  reading := fun _ _ hp => nomatch hp

/-- **In every run whose closing lines take leave.** -/
theorem parted_of_run (h : Transition.Run (step env) (TakesLeave env) (initial env) d) : d.Parted :=
  Transition.Run.invariant_along h (initial_parted env) fun _ _ _ hr hi hok hs =>
    hi.step hr.free hok hs

/-- **Nothing is done for a client that is closed**; and an OpenRemote client has the first of its
lines executed and no other, in however many pieces it has sent them and whatever it sends later. -/
structure PartsWell (d : Daemon) : Prop where
  inTime : Trace.Each Ev.InTime d.log
  first : ∀ c, CameFrom .or20 c d.log → d.reader ≠ some c →
    commandsOf c d.log = (Framing.lines isDelim lineCap .start (receivedOf c d.log)).take 1
  later : ∀ c, CameFrom .or20 c d.log → d.reader ≠ some c → commandsOf c d.log ≠ [] → ∀ more,
    commandsOf c d.log = (Framing.lines isDelim lineCap .start (receivedOf c d.log ++ more)).take 1

instance (fd : ℤ) (e : Effect) : Decidable (e.RepliesTo fd) := by
  unfold Effect.RepliesTo
  split
  · infer_instance
  · infer_instance
  · infer_instance

instance (env : Env) (d : Daemon) (r : Reading) (line rest : Bytes) :
    Decidable (d.Leaves env r line rest) := by
  unfold Leaves
  split
  · infer_instance
  · infer_instance

instance (env : Env) (d : Daemon) (label : Label) : Decidable (d.TakesLeave env label) := by
  delta TakesLeave
  rcases label with ⟨⟩
  case byte =>
    dsimp only
    rcases d.pc with ⟨⟩
    case encode _ r =>
      dsimp only
      rcases r.rest with ⟨⟩
      case nil => exact instDecidableTrue
      case cons b rest =>
        dsimp only
        rcases (encodeByte (d.clients.slot r.slot).state r.remptr b).2.2 with ⟨⟩
        case none => exact instDecidableTrue
        case some line => dsimp only; infer_instance
    all_goals exact instDecidableTrue
  all_goals exact instDecidableTrue

/-- The lines of an OpenRemote client are its first one. -/
theorem Parted.commands (hr : Reachable env d) (h : d.Parted) {c : ℕ}
    (hcame : CameFrom .or20 c d.log) (hread : d.reader ≠ some c) (more : Bytes)
    (hmore : commandsOf c d.log ≠ [] ∨ more = []) : commandsOf c d.log =
      (Framing.lines isDelim lineCap .start (receivedOf c d.log ++ more)).take 1 := by
  have hframed := Reachable.framed hr
  have hlines := hframed.lines c
  have hreceived := hframed.bytes c
  rw [pendingOf_of_reader hread, List.append_nil] at hreceived
  have hall : Framing.lines isDelim lineCap .start (receivedOf c d.log ++ more) =
      commandsOf c d.log ++ Framing.lines isDelim lineCap
        (Framing.run isDelim lineCap .start (receivedOf c d.log)).1 more := by
    rw [Framing.lines, Framing.run_append, hlines, hreceived]
    rfl
  rw [hall]
  rcases h.one c hcame with hnil | ⟨hone, _⟩
  · rcases hmore with hne | rfl
    · exact absurd hnil hne
    · rw [hnil]
      rfl
  · rw [List.take_append_of_le_length hone.ge, List.take_of_length_le hone.le]

/-- **No byte is ever sent to the number of a closed client; and where every line that closes its
client takes leave, nothing is done for it at all**, no line executed and no `send()` called. -/
theorem nothing_after_close (env : Env) (d : Daemon) :
    (Reachable env d → Trace.Each Ev.Heard d.log) ∧
      (Transition.Run (step env) (TakesLeave env) (initial env) d → d.PartsWell) := by
  refine ⟨unheard_of_spent, fun hrun => ?_⟩
  have hparted := parted_of_run hrun
  refine ⟨hparted.living.events, fun c hcame hread => ?_, fun c hcame hread hne more =>
    hparted.commands hrun.free hcame hread more (Or.inl hne)⟩
  have hfirst := hparted.commands hrun.free hcame hread [] (Or.inr rfl)
  rwa [List.append_nil] at hfirst

/-- An OpenRemote client that sends one line. -/
theorem nothing_after_close_line : ∃ d,
    Transition.Run (step (.plain mochadConfigDefaults false))
      (TakesLeave (.plain mochadConfigDefaults false)) (initial (.plain mochadConfigDefaults false))
      d ∧ commandsOf 0 d.log = [ascii "x"] ∧ Trace.Each Ev.Heard d.log ∧ d.PartsWell := by
  obtain ⟨d, hrun, hcommands⟩ : ∃ d, Transition.Run (step (.plain mochadConfigDefaults false))
      (TakesLeave (.plain mochadConfigDefaults false)) (initial (.plain mochadConfigDefaults false))
      d ∧ commandsOf 0 d.log = [ascii "x"] :=
    Transition.exists_run_of_exec (connect .or20 ++ readClient (ascii "x\n") ++
      [.byte, .byte, .encoded]) (by decide +kernel)
  exact ⟨d, hrun, hcommands, (nothing_after_close _ d).1 hrun.free,
    (nothing_after_close _ d).2 hrun⟩

/-- **Two lines in one read**: the second is executed for a client that is closed, and `send()` is
called for its answer. -/
theorem line_after_close : ¬ ∀ env d, Reachable env d → d.PartsWell := by
  intro hall
  obtain ⟨d, hr, hcame, hread, htwo⟩ : ∃ d, Reachable (.plain mochadConfigDefaults false) d ∧
      .accepted 0 6 .or20 ∈ d.log ∧ d.reader ≠ some 0 ∧
        commandsOf 0 d.log = [ascii "x", ascii "getstatus a1"] :=
    Transition.exists_run_of_exec (connect .or20 ++ readClient (ascii "x\ngetstatus a1\n") ++
      List.replicate 15 .byte ++ [.encoded]) (by decide +kernel)
  have hfirst := (hall _ d hr).first 0 ⟨_, hcame, rfl, rfl⟩ hread
  have hlen := congrArg List.length (htwo.symm.trans hfirst)
  rw [List.length_take] at hlen
  simp at hlen
  omega

end Daemon

end Mochad
