import Mochad.Core.X10Side
import Mochad.Core.XmlFraming
import Mochad.X10.Mirror

/-!
# Observers

A client of the main or of the XML port is an observer: it reads the lines that are printed to all,
among the answers to what it sends itself. `heardBy` is what a connection has read so far, if it
reads each message that joins its queue by itself (`readMessage`).

Every observer hears the same, in the same order, while it is connected, whatever else happens in
between – clients that come and go, answers to lines, stalled queues. And what it hears accounts for
all that is done to the devices, so that it can keep a mirror of them (`observers_in_step`).
-/

namespace Mochad

open X10M (Emits gets modify)

/-! ### Reading messages -/

/-- **An event that is read in a message**: in a line with a stamp, which has its slash in the third
place, behind the stamp and without what ends the line. -/
def readMessage (message : Bytes) : Option MochadEvent :=
  if message.dropLast[2]? = some 0x2f then readEvent (message.dropLast.drop 15) else none

theorem readEvent_nil : readEvent [] = none := readEvent_undirected (by decide)

/-- A text behind a stamp. -/
theorem readMessage_stamped {stamp : Bytes} (hlen : stamp.length = 15)
    (hslash : stamp[2]? = some 0x2f) (body : Bytes) :
    readMessage (stamp ++ body) = readEvent body.dropLast := by
  rw [readMessage]
  -- without a body, the end of the line would be taken from the stamp
  rcases List.eq_nil_or_concat body with rfl | ⟨front, b, rfl⟩
  · have hdrop : (stamp ++ []).dropLast.drop 15 = [] := by
      refine List.drop_eq_nil_of_le ?_
      rw [List.length_dropLast, List.append_nil]
      omega
    rw [hdrop, List.dropLast_nil, readEvent_nil, ite_self]
  · rw [List.concat_eq_append, ← List.append_assoc, List.dropLast_concat, List.dropLast_concat,
      if_pos, ← hlen, List.drop_left]
    rwa [List.getElem?_append_left (by omega)]

/-- **What is read does not depend on how a line ends.** -/
theorem readMessage_nulTerminated (line : Bytes) :
    readMessage (Daemon.nulTerminated line) = readMessage line := by
  have hsame : (Daemon.nulTerminated line).dropLast = line.dropLast := by
    rw [Daemon.nulTerminated]
    split
    · exact List.dropLast_concat
    · rfl
  rw [readMessage, readMessage, hsame]

/-- A stamp has its slash in the third place. -/
theorem slash_strftime {tm : Tm} (h : tm.InRange) : (strftime tm)[2]? = some 0x2f := by
  have hmon := h.mon
  have hlen : (fmt2 (tm.tmMon + 1)).length = 2 := length_fmt2 (by omega)
  have hstamp : strftime tm = fmt2 (tm.tmMon + 1) ++
      (0x2f :: (fmt2 tm.tmMday ++ ascii " " ++ fmt2 tm.tmHour ++ ascii ":" ++ fmt2 tm.tmMin ++
        ascii ":" ++ fmt2 tm.tmSec ++ ascii " ")) := by
    simp [strftime, ascii]
  rw [hstamp, List.getElem?_append_right (by omega), hlen]
  rfl

/-- **A line with its stamp** is read as its text, as far as that fits. -/
theorem readMessage_stampedLine {env : Env} (htimes : env.TimesInRange) (reads : ℕ) (body : Bytes) :
    readMessage (Daemon.stampedLine env reads body) =
      readEvent (formatBounded 1009 body).dropLast := by
  have hlen := length_strftime (htimes (env.stampTime reads))
  rw [Daemon.stampedLine, readMessage_stamped hlen (slash_strftime (htimes _)), hlen]

theorem heardEvents_append (es es' : List Effect) :
    heardEvents (es ++ es') = heardEvents es ++ heardEvents es' := by
  rw [heardEvents, heardEvents, heardEvents, List.filterMap_append]

/-- The messages that joined the queue of a connection, from the first. -/
def messagesTo (c : ℕ) (log : List Ev) : List Bytes := Trace.collect (Ev.messageTo c) log

/-- **What a connection has heard.** -/
def heardBy (c : ℕ) (log : List Ev) : List MochadEvent := (messagesTo c log).filterMap readMessage

/-- What joins no queue is no message. -/
theorem messagesTo_append {es : List Ev} (hes : ∀ e ∈ es, e.isQueued = false) (c : ℕ)
    (log : List Ev) : messagesTo c (es ++ log) = messagesTo c log := by
  refine Trace.collect_append_of_nil fun e he => ?_
  have hnot := hes e he
  cases e with
  | queued => cases hnot
  | _ => rfl

theorem messagesTo_cons {e : Ev} (he : e.isQueued = false) (c : ℕ) (log : List Ev) :
    messagesTo c (e :: log) = messagesTo c log := by
  have hone : ∀ x ∈ [e], x.isQueued = false := fun x hx => by rwa [List.mem_singleton.mp hx]
  exact messagesTo_append hone c log

/-- A message. -/
theorem messagesTo_queued (conn : Option ℕ) (fd : ℤ) (bytes : Bytes) (c : ℕ) (log : List Ev) :
    messagesTo c (.queued conn fd bytes :: log) =
      messagesTo c log ++ if conn = some c then [bytes] else [] := by
  rw [messagesTo, Trace.collect_cons]
  cases conn with
  | none => rfl
  | some conn => simp only [Ev.messageTo, Option.some.injEq, messagesTo]

/-! ### Answers -/

/-- What begins with a direction is printed to all. -/
def Effect.Public : Effect → Prop
  | .sockprintf fd body => Directed body → fd = -1
  | _ => True

/-- What is printed without a stamp does not look as if it had one. -/
def Effect.Stampless : Effect → Prop
  | .statusprintf _ text => StatusText text
  | _ => True

section

variable {c : Ctx} {fd : ℤ}

theorem Effect.PrintsTo.public {e : Effect} (h : e.PrintsTo (-1)) : e.Public := by
  cases e with
  | sockprintf => exact fun _ => h
  | statusprintf | sendAll | x10Write => trivial

theorem Effect.Unreported.public {e : Effect} (h : e.Unreported) : e.Public := by
  cases e with
  | sockprintf fd body =>
    intro hdirected
    simp [Effect.Unreported, eventLines, hdirected] at h
  | statusprintf | sendAll | x10Write => trivial

/-- **Events are printed to all**, by whatever line. -/
theorem public_processcommandline (hor : c.or20client (-1) = false) (line : Bytes) :
    Emits Effect.Public (processcommandline c fd line) := by
  have hquiet : ∀ {α : Type} {m : X10M α}, Emits Effect.Unreported m → Emits Effect.Public m :=
    fun hm => hm.mono fun _ => Effect.Unreported.public
  have hall : ∀ {α : Type} {m : X10M α}, Emits (Effect.PrintsTo (-1)) m → Emits Effect.Public m :=
    fun hm => hm.mono fun _ => Effect.PrintsTo.public
  have hok : Emits Effect.Public (or20ok c fd) := hquiet quiet_or20ok
  have hfinish : ∀ flow, Emits Effect.Public (finish fd flow) :=
    fun flow => hquiet (quiet_finish flow)
  cases hline : commandOfLine line with
  | none => exact hquiet (quiet_of_commandOfLine_eq_none hline)
  | some a =>
    obtain ⟨command, tokens⟩ := a
    by_cases hpl : command = .pl
    · subst hpl
      rw [processcommandline_of_line hline]
      exact (hok.bind fun _ => emits_plBody (fun buf len => hall (emits_decodePlc buf len))
        (fun _ => trivial) c tokens).bind hfinish
    by_cases hradio : command = .rf ∨ command = .rfsec ∨ command = .rfcam
    · cases hcmd : radioCommandOf command tokens with
      | none =>
        rw [processcommandline_of_line hline]
        exact (hquiet (quiet_of_radioCommandOf_eq_none hradio hcmd)).bind hfinish
      | some a =>
        have hrelay : ∀ line, IsPl line → Emits (Effect.PrintsTo (-1)) (relayTo c (-1) line) :=
          fun line hpl => (emits_relayed c hor 1 hpl).bind fun _ => Emits.pure _
        obtain ⟨cmd, rest⟩ := a
        rw [processcommandline_radio hline hcmd]
        exact hok.bind fun _ => (hall (emits_rfTx c hrelay _)).bind fun _ => hfinish _
    · rw [processcommandline_of_line hline]
      exact (hquiet (quiet_runCommand hpl hradio tokens)).bind hfinish

theorem Effect.PrintsTo.stampless {e : Effect} (h : e.PrintsTo (-1)) : e.Stampless := by
  cases e with
  | statusprintf => exact h.elim
  | sockprintf | sendAll | x10Write => trivial

/-- **What has no stamp does not look as if it had one.** -/
theorem stampless_processcommandline (hor : c.or20client (-1) = false) {line : Bytes}
    (h : ¬IsPolicyRequest line) : Emits Effect.Stampless (processcommandline c fd line) := by
  have hrelay : ∀ line, IsPl line → Emits (Effect.PrintsTo (-1)) (relayTo c (-1) line) :=
    fun line hpl => (emits_relayed c hor 1 hpl).bind fun _ => Emits.pure _
  exact emits_processWith_of c fd (fun _ => trivial)
    (emits_runCommand_of (fun _ => trivial) (fun _ htext => htext)
      (fun buf len => (emits_decodePlc buf len).mono fun _ => Effect.PrintsTo.stampless)
      (fun _ => trivial)
      (fun buf _ => (emits_rfTx c hrelay buf).mono fun _ => Effect.PrintsTo.stampless)) h

end

namespace Daemon

variable {env : Env} {d d' a a' : Daemon}

theorem Mum.messagesTo_eq (h : d.Mum d') (c : ℕ) : messagesTo c d'.log = messagesTo c d.log := by
  obtain ⟨es, hes, hnot⟩ := h
  rw [hes, messagesTo_append hnot]

/-! ### Connections that stay -/

/-- **Whoever is connected later was there before**, if it is not new since then. -/
structure Stays (d a : Daemon) : Prop where
  next : d.nextConn ≤ a.nextConn
  slot : ∀ s c, c < d.nextConn → a.connAt (a.clients.slot s).fd = some c →
    (a.clients.slot s).fd = (d.clients.slot s).fd ∧ d.connAt (d.clients.slot s).fd = some c

theorem Stays.refl (d : Daemon) : d.Stays d := ⟨le_rfl, fun _ _ _ h => ⟨rfl, h⟩⟩

theorem Stays.trans (h : d.Stays a) (h' : a.Stays d') : d.Stays d' where
  next := h.next.trans h'.next
  slot s c hc hs := by
    obtain ⟨hfd', hconn'⟩ := h'.slot s c (hc.trans_le h.next) hs
    obtain ⟨hfd, hconn⟩ := h.slot s c hc hconn'
    exact ⟨hfd'.trans hfd, hconn⟩

theorem Stays.congr (h : d.Stays a) (hnext : a'.nextConn = a.nextConn)
    (hconn : ∀ s c, a'.connAt (a'.clients.slot s).fd = some c →
      (a'.clients.slot s).fd = (a.clients.slot s).fd ∧ a.connAt (a.clients.slot s).fd = some c) :
    d.Stays a' where
  next := hnext ▸ h.next
  slot s c hc hs := by
    obtain ⟨hfd, hold⟩ := hconn s c hs
    obtain ⟨hfd', hold'⟩ := h.slot s c hc hold
    exact ⟨hfd.trans hfd', hold'⟩

/-- Slots keep their descriptors, and descriptors what they are. -/
theorem Stays.same (h : d.Stays a) (hnext : a'.nextConn = a.nextConn) (hdescs : a'.descs = a.descs)
    (hfd : ∀ s, (a'.clients.slot s).fd = (a.clients.slot s).fd) : d.Stays a' := by
  refine h.congr hnext fun s c hs => ⟨hfd s, ?_⟩
  rw [connAt, hdescs, hfd] at hs
  exact hs

/-- A connection that is accepted is new. -/
theorem Stays.accept (h : d.Stays a) (ht : a.Tables env) {kind : Kind} {fd : ℤ} (nonblocking : Bool)
    (hfree : lowestFree a.descs fd = true) : d.Stays (a.addAccepted env kind fd nonblocking) := by
  obtain ⟨hpos, hnone⟩ := lowestFree_spec hfree
  rcases addAccepted_cases env a kind fd nonblocking with ⟨s, hs, heq⟩ | heq
  · rw [heq]
    have hself : (a.clients.take s fd).slot s = Clients.Slot.taken (a.clients.slot s) fd _ :=
      Clients.set_slot_self ..
    have hother : ∀ t, t ≠ s → (a.clients.take s fd).slot t = a.clients.slot t :=
      fun t hts => Clients.set_slot_of_ne a.clients _ hts
    refine ⟨h.next.trans (Nat.le_succ _), fun t c hlt hc => ?_⟩
    obtain ⟨p, hp⟩ := connAt_eq_some.mp hc
    have hdesc : Function.update a.descs fd (some (.conn a.nextConn (kind.port env.config)))
        ((a.clients.take s fd).slot t).fd = some (.conn c p) := hp
    rcases eq_or_ne t s with rfl | hts
    · -- the number of the connection is a new one
      have hfd : ((a.clients.take t fd).slot t).fd = fd := congrArg Slot.fd hself
      rw [hfd, Function.update_self] at hdesc
      obtain ⟨rfl, _⟩ := Desc.conn.inj (Option.some.inj hdesc)
      exact absurd hlt (Nat.not_lt.mpr h.next)
    · -- the others do not have the descriptor, which was free
      rw [hother t hts] at hdesc
      have hne : (a.clients.slot t).fd ≠ fd := by
        rintro hcon
        obtain ⟨c', _, hc'⟩ := ht.conn t (by omega)
        rw [hcon, hnone] at hc'
        cases hc'
      rw [Function.update_of_ne hne] at hdesc
      obtain ⟨hfd, hold⟩ := h.slot t c hlt (connAt_eq_some.mpr ⟨p, hdesc⟩)
      exact ⟨(congrArg Slot.fd (hother t hts)).trans hfd, hold⟩
  · rw [heq]
    exact ⟨h.next.trans (Nat.le_succ _), h.slot⟩

/-- **Every step keeps this.** -/
theorem stays_kept (env : Env) (d : Daemon) : Kept env d.Stays where
  idle := fun _ h hi => h.same hi.nextConn hi.descs fun s => by rw [hi.clients]
  move := fun {cause a a'} ht h hm => by
    cases hm with
    | x10 | stamp | write | addressed | queued | flushed => exact h.same rfl rfl fun _ => rfl
    | output s output hs _ => exact h.same rfl rfl fun t => setOutput_fd a s t output
    | close s hs _ =>
      refine h.congr rfl fun t c hc => ?_
      obtain ⟨hts, hold⟩ := ht.connAt_closeSlot hs hc
      exact ⟨congrArg Slot.fd (a.closeSlot_of_ne hts), hold⟩
    | send fd bytes _ =>
      rw [sendAll]
      split
      · exact h.same rfl rfl fun _ => rfl
      · exact h.same rfl rfl fun _ => rfl
  desc := fun {a fd desc} _ h hold hnew => by
    refine h.congr rfl fun s c hc => ⟨rfl, ?_⟩
    obtain ⟨p, hp⟩ := connAt_eq_some.mp hc
    refine connAt_eq_some.mpr ⟨p, ?_⟩
    by_cases hfd : (a.clients.slot s).fd = fd
    · have hupdated : Function.update a.descs fd desc (a.clients.slot s).fd = some (.conn c p) := hp
      rw [hfd, Function.update_self] at hupdated
      exact absurd hupdated (hnew c p)
    · exact (Function.update_of_ne hfd ..).symm.trans hp
  listeners := fun {a a' main xml or20} ht h hpc hl => by
    have htables := ht.createListeners hpc hl
    -- there are no clients yet
    have hempty : ∀ s, (a'.clients.slot s).fd = -1 ∧ a'.nextConn = a.nextConn := by
      intro s
      simp only [doCreateListeners] at hl
      split at hl
      · split at hl
        · obtain rfl := Option.some.inj hl
          exact ⟨ht.starting (by rw [hpc]; rfl) s, rfl⟩
        · obtain rfl := Option.some.inj hl
          exact ⟨rfl, rfl⟩
      · cases hl
    refine h.congr (hempty (.main, 0)).2 fun s c hc => ?_
    rw [(hempty s).1, htables.connAt_neg] at hc
    cases hc
  accept := fun nonblocking ht h _ _ hfree => h.accept ht nonblocking hfree
  received := fun _ h _ _ _ => h.same rfl rfl fun _ => rfl
  byte := fun {a l r} b rest _ h _ => h.same rfl rfl fun t => setState_fd a r.slot t _
  command := fun _ _ h _ => h.same rfl rfl fun _ => rfl
  encoded := fun {a l r} state _ h _ => by
    have hfd : ∀ t, ((a.setState r.slot state).clients.slot t).fd = (a.clients.slot t).fd :=
      fun t => setState_fd a r.slot t state
    simp only [counted]
    split
    · exact h.same rfl rfl hfd
    · exact h.same rfl rfl hfd

/-- What is done for a cause. -/
theorem Moves.stays {cause : Cause} (ht : d.Tables env) (hm : Moves env cause d d') : d.Stays d' :=
  (stays_kept env d).moves ht (Stays.refl d) hm

/-! ### Messages -/

/-- **A client that listens.** -/
structure Listens (d : Daemon) (s : SlotId) (c : ℕ) : Prop where
  fd : 0 < (d.clients.slot s).fd
  conn : d.connAt (d.clients.slot s).fd = some c

theorem Listens.before {s : SlotId} {c : ℕ} (h : d'.Listens s c) (hstays : d.Stays d')
    (hc : c < d.nextConn) : d.Listens s c := by
  obtain ⟨hfd, hconn⟩ := hstays.slot s c hc h.conn
  exact ⟨hfd ▸ h.fd, hconn⟩

/-- **What joins the queues of those who keep listening**, slot by slot. -/
structure Tells (d d' : Daemon) (texts : SlotId → List Bytes) : Prop extends Stays d d' where
  messages : ∀ s c, c < d.nextConn → d'.Listens s c →
    messagesTo c d'.log = messagesTo c d.log ++ texts s

theorem Mum.tells (h : d.Mum d') (hstays : d.Stays d') : d.Tells d' fun _ => [] :=
  ⟨hstays, fun _ c _ _ => (h.messagesTo_eq c).trans (List.append_nil _).symm⟩

/-- **Messages in turn.** -/
theorem Tells.trans {texts texts' : SlotId → List Bytes} (h : d.Tells a texts)
    (h' : a.Tells d' texts') : d.Tells d' fun s => texts s ++ texts' s := by
  refine ⟨h.toStays.trans h'.toStays, fun s c hc hs => ?_⟩
  have hca : c < a.nextConn := hc.trans_le h.next
  rw [h'.messages s c hca hs, h.messages s c hc (hs.before h'.toStays hca), List.append_assoc]

/-- **A text for a client** joins its queue, if the client is still there afterwards. -/
theorem queueClientBytes_tells (ht : d.Tables env) {t : SlotId} (hlive : (d.clients.slot t).fd ≠ -1)
    {text : Bytes} (htext : text ≠ [])
    (hstays : d.Stays (d.queueClientBytes env (d.clients.slot t).fd text).1) :
    d.Tells (d.queueClientBytes env (d.clients.slot t).fd text).1 fun s =>
      if s = t then [text] else [] := by
  refine ⟨hstays, fun s c hc hs => ?_⟩
  have hhere := hs.conn
  have hfind := ht.wf.find_eq hlive
  rw [queueClientBytes, if_neg htext] at hhere ⊢
  generalize hfd : (d.clients.slot t).fd = fd at hfind hhere ⊢
  have hta : (d.record (.addressed (d.connAt fd) fd text)).Tables env := ht.record _
  have hfound : (d.record (.addressed (d.connAt fd) fd text)).clients.find fd = some t := hfind
  have hlog : messagesTo c (d.record (.addressed (d.connAt fd) fd text)).log = messagesTo c d.log :=
    messagesTo_cons rfl c _
  have hslot : ((d.record (.addressed (d.connAt fd) fd text)).clients.slot t).fd = fd := hfd
  rw [← hlog]
  generalize d.record (.addressed (d.connAt fd) fd text) = a at hta hfound hslot hhere
  simp only [enqueueBytes, hfound] at hhere ⊢
  cases henq : (a.clients.slot t).output.enqueue text with
  | some output =>
    simp only [henq] at hhere ⊢
    have hconn : a.connAt (a.clients.slot s).fd = some c := by
      have hset : a.connAt ((a.setOutput t output).clients.slot s).fd = some c := hhere
      rwa [setOutput_fd] at hset
    show messagesTo c (.queued (a.connAt fd) fd text :: a.log) = _
    rw [messagesTo_queued]
    by_cases hst : s = t
    · rw [if_pos hst, if_pos (by rw [← hslot, ← hst]; exact hconn)]
    · rw [if_neg hst, if_neg]
      intro hcon
      rw [← hslot] at hcon
      exact hst (hta.slot_unique hconn hcon)
  | none =>
    simp only [henq] at hhere ⊢
    have hdel : a.delClient fd = a.closeSlot t := by rw [delClient, hfound]
    rw [hdel] at hhere ⊢
    have hne : s ≠ t := (hta.connAt_closeSlot (by rw [hslot, ← hfd]; exact hlive) hhere).1
    rw [if_neg hne, List.append_nil]
    exact messagesTo_cons rfl c _

/-- **An answer** joins the queue of its client, or no queue. -/
theorem reply_tells (ht : d.Tables env) {fd : ℤ} (hfd : fd ≠ -1) {text : Bytes}
    (htext : text ≠ []) : ∃ texts, d.Tells (d.queueClientBytes env fd text).1 texts ∧
      ∀ s, texts s = [text] ∨ texts s = [] := by
  have hstays : d.Stays (d.queueClientBytes env fd text).1 :=
    Moves.stays ht (queueClientBytes_moves hfd text)
  cases hfind : d.clients.find fd with
  | some t =>
    have hslot := Clients.fd_of_find hfind
    have htells := queueClientBytes_tells (t := t) ht (by rwa [hslot]) htext
    rw [hslot] at htells
    refine ⟨_, htells hstays, fun s => ?_⟩
    split_ifs
    · exact Or.inl rfl
    · exact Or.inr rfl
  | none =>
    refine ⟨fun _ => [], Mum.tells ?_ hstays, fun _ => Or.inr rfl⟩
    rw [queueClientBytes, if_neg htext]
    have hfound : (d.record (.addressed (d.connAt fd) fd text)).clients.find fd = none := hfind
    have haddressed : d.Mum (d.record (.addressed (d.connAt fd) fd text)) := mum_of_cons rfl rfl
    simp only [enqueueBytes, hfound]
    exact haddressed.trans (mum_sendAll env _ fd text)

/-- One of a list. -/
theorem flatMap_one {ι α : Type} [DecidableEq ι] {is : List ι} (his : is.Nodup) {j : ι}
    (hj : j ∈ is) (x : α) : (is.flatMap fun i => if j = i then [x] else []) = [x] := by
  induction is with
  | nil => cases hj
  | cons i is ih =>
    obtain ⟨hi, his⟩ := List.nodup_cons.mp his
    rw [List.flatMap_cons]
    by_cases hji : j = i
    · have hrest : (is.flatMap fun k => if j = k then [x] else []) = [] := by
        refine List.flatMap_eq_nil_iff.mpr fun k hk => if_neg ?_
        rintro rfl
        exact hi (hji ▸ hk)
      rw [if_pos hji, hrest, List.append_nil]
    · rw [if_neg hji, List.nil_append, ih his ((List.mem_cons.mp hj).resolve_left hji)]

/-- **A line for a table** is a message to each of its clients. -/
theorem toAll_tells (ht : d.Tables env) {kind : Kind} (hkind : kind ≠ .or20) {line : Bytes}
    (hline : line ≠ []) :
    d.Tells (d.toAll env kind line) fun s => if s.1 = kind then [line] else [] := by
  have hall : ∀ is : List (Fin maxCliSockets), ∀ a : Daemon, a.Tables env →
      a.Tells (is.foldl (fun d i =>
        let fd := (d.clients.slot (kind, i)).fd
        if 0 < fd then (d.queueClientBytes env fd line).1 else d) a)
        fun s => is.flatMap fun i => if s = (kind, i) then [line] else [] := by
    intro is
    induction is with
    | nil => exact fun a _ => Mum.tells (mum_of_log rfl) (Stays.refl a)
    | cons i is ih =>
      intro a ha
      rw [List.foldl_cons]
      simp only [List.flatMap_cons]
      refine Tells.trans (a := if 0 < (a.clients.slot (kind, i)).fd then
        (a.queueClientBytes env (a.clients.slot (kind, i)).fd line).1 else a) ?_ (ih _ ?_)
      · split
        next hpos =>
          have hlive : (a.clients.slot (kind, i)).fd ≠ -1 := by omega
          have hm : Moves env .loop a _ :=
            queueClientBytes_moves_of_live hlive (ha.wf.find_eq hlive) (Or.inr hkind) line
          exact queueClientBytes_tells ha hlive hline (Moves.stays ha hm)
        next hneg =>
          -- there is no client in this slot
          refine ⟨Stays.refl a, fun s c _ hs => ?_⟩
          rw [if_neg, List.append_nil]
          rintro rfl
          exact hneg hs.fd
      · split
        next hpos =>
          have hlive : (a.clients.slot (kind, i)).fd ≠ -1 := by omega
          have hm : Moves env .loop a _ :=
            queueClientBytes_moves_of_live hlive (ha.wf.find_eq hlive) (Or.inr hkind) line
          exact ha.moves hm
        · exact ha
  have htells := hall (List.finRange maxCliSockets) d ht
  refine ⟨htells.toStays, fun s c hc hs => (htells.messages s c hc hs).trans ?_⟩
  refine congrArg _ ?_
  split
  next hs =>
    have hslot : ∀ i, s = (kind, i) ↔ s.2 = i := by
      intro i
      rw [← hs, Prod.ext_iff]
      simp
    simp only [hslot]
    exact flatMap_one (List.nodup_finRange _) (List.mem_finRange s.2) line
  next hs =>
    refine List.flatMap_eq_nil_iff.mpr fun i _ => if_neg ?_
    rintro rfl
    exact hs rfl

/-! ### What is heard -/

/-- **All observers hear the same.** -/
structure Hears (d d' : Daemon) (events : List MochadEvent) : Prop extends Stays d d' where
  heard : ∀ s c, s.1 ≠ .or20 → c < d.nextConn → d'.Listens s c →
    heardBy c d'.log = heardBy c d.log ++ events

theorem Tells.hears {texts : SlotId → List Bytes} (h : d.Tells d' texts) {events : List MochadEvent}
    (hread : ∀ s, s.1 ≠ .or20 → (texts s).filterMap readMessage = events) : d.Hears d' events where
  toStays := h.toStays
  heard s c hkind hc hs := by
    rw [heardBy, h.messages s c hc hs, List.filterMap_append, hread s hkind, heardBy]

theorem Mum.hears (h : d.Mum d') (hstays : d.Stays d') : d.Hears d' [] :=
  (h.tells hstays).hears fun _ _ => rfl

/-- **Events in turn.** -/
theorem Hears.trans {events events' : List MochadEvent} (h : d.Hears a events)
    (h' : a.Hears d' events') : d.Hears d' (events ++ events') where
  toStays := h.toStays.trans h'.toStays
  heard s c hkind hc hs := by
    have hca : c < a.nextConn := hc.trans_le h.next
    rw [h'.heard s c hkind hca hs, h.heard s c hkind hc (hs.before h'.toStays hca),
      List.append_assoc]

/-- A line for all is heard by all observers. -/
theorem hears_all (htimes : env.TimesInRange) (ht : d.Tables env) {body : Bytes}
    (hlegible : (Effect.sockprintf (-1) body).Legible) :
    d.Hears (d.sockprintf env (-1) body) (heardEvents [.sockprintf (-1) body]) := by
  obtain ⟨line, hbody, -, hlen⟩ := hlegible body rfl
  have hread : readMessage (stampedLine env d.stampReads body) = readEvent body.dropLast := by
    rw [readMessage_stampedLine htimes, formatBounded, List.take_of_length_le]
    rw [hbody, List.length_append]
    have hone : (ascii "\n").length = 1 := rfl
    omega
  have hstamp : d.Mum { d with stampReads := d.stampReads + 1 } := mum_of_log rfl
  have hmove : Moves env .loop d { d with stampReads := d.stampReads + 1 } :=
    Relation.ReflTransGen.single (.stamp d)
  have hstart := hstamp.tells (Moves.stays ht hmove)
  have htables := ht.moves hmove
  have hline := stampedLine_ne_nil env d.stampReads body
  have hmain := toAll_tells htables (by decide : Kind.main ≠ .or20) hline
  have hmainMoves : Moves env .loop _ _ :=
    toAll_moves htables.wf (by decide : Kind.main ≠ .or20) (stampedLine env d.stampReads body)
  have hxml := toAll_tells (htables.moves hmainMoves) (by decide : Kind.xml ≠ .or20)
    (nulTerminated_ne_nil hline)
  rw [sockprintf, if_pos rfl]
  refine ((hstart.trans hmain).trans hxml).hears fun s hkind => ?_
  obtain ⟨kind, i⟩ := s
  have hheard : heardEvents [.sockprintf (-1) body] = (readEvent body.dropLast).toList := by
    simp only [heardEvents, List.filterMap_cons, List.filterMap_nil]
    cases readEvent body.dropLast with
    | none => rfl
    | some e => rfl
  rw [hheard]
  cases kind with
  | main =>
    simp only [List.nil_append, if_true, reduceCtorEq, if_false, List.append_nil,
      List.filterMap_cons, List.filterMap_nil, hread]
    cases readEvent body.dropLast with
    | none => rfl
    | some e => rfl
  | xml =>
    simp only [List.nil_append, if_true, reduceCtorEq, if_false, readMessage_nulTerminated,
      List.filterMap_cons, List.filterMap_nil, hread]
    cases readEvent body.dropLast with
    | none => rfl
    | some e => rfl
  | or20 => exact absurd rfl hkind

/-- **One call.** -/
theorem hears_perform (htimes : env.TimesInRange) (ht : d.Tables env) {cause : Cause} {e : Effect}
    (he : cause.Makes e) (hlegible : e.Legible) (hpublic : e.Public) (hstampless : e.Stampless) :
    d.Hears (d.perform env e) (heardEvents [e]) := by
  cases e with
  | sockprintf fd body =>
    by_cases hfd : fd = -1
    · subst hfd
      exact hears_all htimes ht hlegible
    · -- what is answered is no event
      have hundirected : ¬Directed body := fun hdirected => hfd (hpublic hdirected)
      have hfront : ∀ text, text <+: body → readEvent text = none := fun text htext =>
        readEvent_undirected fun hdirected =>
          hundirected (hdirected.imp (·.trans htext) (·.trans htext))
      have hline : readMessage (stampedLine env d.stampReads body) = none := by
        rw [readMessage_stampedLine htimes, formatBounded]
        exact hfront _ ((List.dropLast_prefix _).trans (List.take_prefix _ _))
      have hread : readMessage (if d.clients.xmlclient fd then
          nulTerminated (stampedLine env d.stampReads body)
          else stampedLine env d.stampReads body) = none := by
        split
        · rw [readMessage_nulTerminated, hline]
        · exact hline
      have hsome : (if d.clients.xmlclient fd then
          nulTerminated (stampedLine env d.stampReads body)
          else stampedLine env d.stampReads body) ≠ [] := by
        split
        · exact nulTerminated_ne_nil (stampedLine_ne_nil env _ body)
        · exact stampedLine_ne_nil env _ body
      have hnone : heardEvents [.sockprintf fd body] = [] := by
        simp [heardEvents, hfront _ (List.dropLast_prefix body)]
      have hmove : Moves env .loop d { d with stampReads := d.stampReads + 1 } :=
        Relation.ReflTransGen.single (.stamp d)
      have hstamp : d.Tells { d with stampReads := d.stampReads + 1 } fun _ => [] :=
        Mum.tells (mum_of_log rfl) (Moves.stays ht hmove)
      obtain ⟨texts, htells, hone⟩ := reply_tells (ht.moves hmove) hfd hsome
      rw [hnone, perform, sockprintf, if_neg hfd]
      refine (hstamp.trans htells).hears fun s _ => ?_
      rcases hone s with heq | heq
      · rw [heq, List.nil_append, List.filterMap_cons, hread, List.filterMap_nil]
      · rw [heq]
        rfl
  | statusprintf fd text =>
    have hstatus : StatusText text := hstampless
    have hfd : fd ≠ -1 := by
      rcases he with hall | ⟨f, hf, -, rfl, -⟩
      · exact hall.elim
      · exact hf
    have hsome : formatBounded 1024 text ≠ [] := by
      rw [formatBounded, Ne, List.take_eq_nil_iff]
      exact fun hnil => hstatus.1 (hnil.resolve_left (by decide))
    have hread : readMessage (formatBounded 1024 text) = none := by
      have hfront : ∀ front, front <+: text → front[2]? ≠ some 0x2f := by
        rintro front ⟨rest, rfl⟩ hslash
        refine hstatus.2 ?_
        rw [List.getElem?_append_left (List.getElem?_eq_some_iff.mp hslash).1, hslash]
      exact if_neg (hfront _ ((List.dropLast_prefix _).trans (List.take_prefix _ _)))
    obtain ⟨texts, htells, hone⟩ := reply_tells ht hfd hsome
    refine htells.hears fun s _ => ?_
    rcases hone s with heq | heq
    · rw [heq, List.filterMap_cons, hread, List.filterMap_nil]
      rfl
    · rw [heq]
      rfl
  | sendAll fd bytes =>
    rcases he with hall | ⟨f, hf, -, hreply⟩
    · exact hall.elim
    · exact hreply.elim
  | x10Write buf =>
    have hmove : Moves env .loop d (d.perform env (.x10Write buf)) :=
      Relation.ReflTransGen.single (.write d buf)
    exact Mum.hears (mum_of_log rfl) (Moves.stays ht hmove)

/-- **The calls of one X10 function.** -/
theorem hears_performAll (htimes : env.TimesInRange) {cause : Cause} {es : List Effect}
    (ht : d.Tables env)
    (hes : ∀ e ∈ es, cause.Makes e ∧ e.Legible ∧ e.Public ∧ e.Stampless) :
    d.Hears (d.performAll env es) (heardEvents es) := by
  induction es generalizing d with
  | nil => exact Mum.hears (mum_of_log rfl) (Stays.refl d)
  | cons e es ih =>
    obtain ⟨hmakes, hlegible, hpublic, hstampless⟩ := hes e List.mem_cons_self
    have hmoves : Moves env cause d (d.performAll env [e]) := by
      rcases hmakes with hall | ⟨fd, hfd, rfl, hreply⟩
      · exact performAll_moves_of_all ht.wf fun x hx => by rwa [List.mem_singleton.mp hx]
      · exact performAll_moves ht.wf hfd fun x hx => by
          rw [List.mem_singleton.mp hx]
          exact Or.inl hreply
    have hrest := ih (ht.moves hmoves) fun x hx => hes x (List.mem_cons_of_mem e hx)
    have hcons : heardEvents (e :: es) = heardEvents [e] ++ heardEvents es :=
      heardEvents_append [e] es
    rw [hcons]
    exact (hears_perform htimes ht hmakes hlegible hpublic hstampless).trans hrest

/-! ### Steps -/

/-- **What is heard of a step**: all observers hear the same events, which account for what becomes
of the devices, and who is new has heard nothing yet. -/
structure Announces (d d' : Daemon) (accounted : Prop) (events : List MochadEvent) : Prop
    extends Hears d d' events where
  accounts : accounted → Replica.Accounts Mirrors Mirror.hear d.x10 d'.x10 events
  unborn : ∀ c, d.nextConn ≤ c → messagesTo c d'.log = []

/-- **Nothing has been said to who is not there yet.** -/
def Unborn (d : Daemon) : Prop := ∀ c, d.nextConn ≤ c → messagesTo c d.log = []

theorem Unborn.mum (h : d.Unborn) (hmum : d.Mum d') (hnext : d.nextConn ≤ d'.nextConn) :
    d'.Unborn :=
  fun c hc => (hmum.messagesTo_eq c).trans (h c (hnext.trans hc))

theorem unborn_kept (env : Env) : Kept env Unborn where
  idle := fun {a a'} _ h hi => by
    obtain ⟨es, hes, hnotes⟩ := hi.log
    refine h.mum ⟨es, hes, fun e he => ?_⟩ hi.nextConn.ge
    have hnote := hnotes e he
    cases e with
    | queued => cases hnote
    | _ => rfl
  move := fun {cause a a'} ht h hm => by
    cases hm with
    | x10 | stamp | write | output => exact h.mum (mum_of_log rfl) le_rfl
    | addressed | flushed | close => exact h.mum (mum_of_cons rfl rfl) le_rfl
    | send fd bytes _ =>
      refine h.mum (mum_sendAll env a fd bytes) ?_
      rw [sendAll]
      split
      · exact le_rfl
      · exact le_rfl
    | queued s bytes hs =>
      intro c hc
      obtain ⟨c', hlt, hconn⟩ := ht.conn s hs
      have hat : a.connAt (a.clients.slot s).fd = some c' := connAt_eq_some.mpr ⟨_, hconn⟩
      -- the queue is that of a connection which has been there
      have hne : a.connAt (a.clients.slot s).fd ≠ some c := by
        rw [hat]
        rintro hcon
        obtain rfl := Option.some.inj hcon
        exact absurd hlt (Nat.not_lt.mpr hc)
      show messagesTo c (.queued _ _ bytes :: a.log) = []
      rw [messagesTo_queued, if_neg hne, List.append_nil]
      exact h c hc
  desc := fun _ h _ _ => h.mum (mum_of_log rfl) le_rfl
  listeners := fun {a a' main xml or20} _ h _ hl => by
    simp only [doCreateListeners] at hl
    split at hl
    · split at hl
      · obtain rfl := Option.some.inj hl
        exact h.mum (mum_of_log rfl) le_rfl
      · obtain rfl := Option.some.inj hl
        exact h.mum (mum_of_log rfl) le_rfl
    · cases hl
  accept := fun {a snap nready kind fd} nonblocking _ h _ _ _ => by
    rcases addAccepted_cases env a kind fd nonblocking with ⟨s, _, heq⟩ | heq
    · rw [heq]
      exact h.mum (mum_of_cons rfl rfl) (Nat.le_succ _)
    · rw [heq]
      exact h.mum (mum_of_cons rfl rfl) (Nat.le_succ _)
  received := fun _ h _ _ _ => h.mum (mum_of_cons rfl rfl) le_rfl
  byte := fun _ _ _ h _ => h.mum (mum_of_cons rfl rfl) le_rfl
  command := fun _ _ h _ => h.mum (mum_of_cons rfl rfl) le_rfl
  encoded := fun {a l r} state _ h _ => by
    have hstored : a.Mum (a.setState r.slot state) := mum_of_log rfl
    refine h.mum (hstored.trans (mum_counted _ l r.visit)) ?_
    simp only [counted]
    split
    · exact le_rfl
    · exact le_rfl

/-- A step in which nothing is said, and nothing is done to the devices. -/
theorem Mum.announces (h : d.Mum d') (hstays : d.Stays d') (hunborn : d.Unborn)
    (hx10 : d'.x10 = d.x10) (accounted : Prop) : d.Announces d' accounted [] where
  toHears := h.hears hstays
  accounts _ := by
    rw [hx10]
    exact Replica.Accounts.refl d.x10
  unborn c hc := (h.messagesTo_eq c).trans (hunborn c hc)

/-- **A packet from the controller.** -/
theorem announces_decode (htimes : env.TimesInRange) (ht : d.Tables env) (hunborn : d.Unborn)
    {data : Bytes} (hlen : data.length ≤ 8) :
    ∃ events, d.Announces (d.decode env data) True events := by
  let d₁ : Daemon := { d with intrInBuf := memcpy d.intrInBuf data }
  have ht₁ : d₁.Tables env := ht.congr ht.wf (fun _ => rfl) rfl rfl ht.reading id
  let m := decodeWith (d₁.ctx env) (Memory.ofBytes d₁.intrInBuf env.stack) data.length
  have hcalls : ∀ e ∈ (m d.x10).effects,
      Cause.loop.Makes e ∧ e.Legible ∧ e.Public ∧ e.Stampless := by
    intro e he
    have hall : e.PrintsTo (-1) := packetCalls_all ht₁ data e he
    exact ⟨Or.inl hall, legible_decode (relaysLegibly_processDepth _ 2) hlen _ e he, hall.public,
      hall.stampless⟩
  let d₂ : Daemon := { d₁ with x10 := (m d.x10).state }
  have ht₂ : d₂.Tables env := ht₁.congr ht.wf (fun _ => rfl) rfl rfl ht.reading id
  have hstart : d.Hears d₂ [] :=
    Mum.hears (mum_of_log rfl) ((Stays.refl d).same rfl rfl fun _ => rfl)
  have hears : d.Hears (d.decode env data) (heardEvents (m d.x10).effects) :=
    hstart.trans (hears_performAll htimes ht₂ hcalls)
  have hmoves : Moves env .loop d₁ (d.decode env data) := decode_moves ht.descs ht.wf data
  have hnext : (d.decode env data).nextConn = d.nextConn := congrArg (·.1.2.1) hmoves.frame_eq
  have hstate : (d.decode env data).x10 = (m d.x10).state := performAll_x10 env _ _
  have hd₁ : d₁.Unborn := hunborn.mum (mum_of_log rfl) le_rfl
  refine ⟨_, hears, fun _ => ?_, fun c hc => ?_⟩
  · rw [hstate, heard_decodeWith]
    exact follows_cm15aDecode (followsPl_processDepth _ 1) _ _ d.x10
  · exact (unborn_kept env).moves ht₁ hd₁ hmoves c (hnext ▸ hc)

/-- **A line**, which is executed. -/
theorem announces_runLine (htimes : env.TimesInRange) (ht : d.Tables env) (hunborn : d.Unborn)
    {r : Reading} (hfd : r.fd ≠ -1) (line : Bytes) :
    ∃ events, d.Announces (d.runLine env r line) (¬ClearsTables line) events := by
  let a := d.record (.command r.conn r.fd line)
  have hta : a.Tables env := ht.record _
  have hua : a.Unborn := hunborn.mum (mum_of_cons rfl rfl) le_rfl
  have hstart : d.Hears a [] :=
    Mum.hears (mum_of_cons rfl rfl) ((Stays.refl d).same rfl rfl fun _ => rfl)
  have hmoves : Moves env (causeOf r.fd line) a (d.runLine env r line) :=
    runLine_moves ht.descs ht.wf hfd line
  have hnext : (d.runLine env r line).nextConn = d.nextConn := congrArg (·.1.2.1) hmoves.frame_eq
  have hor : (a.ctx env).or20client (-1) = false := or20client_neg hta.descs
  let m := Mochad.processcommandline (a.ctx env) r.fd line
  have hrun : a.Hears (a.processcommandline env r.fd line) (heardEvents (m d.x10).effects) := by
    by_cases hp : IsPolicyRequest line
    · -- the policy is sent at once, past the queues
      have hpolicy : heardEvents (m d.x10).effects = [] := by
        rw [show (m d.x10).effects = _ from processcommandline_policy _ r.fd hp d.x10]
        rfl
      have hstays : a.Stays (a.processcommandline env r.fd line) :=
        Moves.stays hta (processcommandline_moves hta.descs hta.wf hfd line)
      rw [hpolicy]
      refine Mum.hears ?_ hstays
      rw [processcommandline_policy_eq hp]
      have haddressed : ∀ x conn, a.Mum
          (Daemon.record { a with x10 := x } (.addressed conn r.fd domainPolicy)) :=
        fun _ _ => mum_of_cons rfl rfl
      exact (haddressed _ _).trans (mum_sendAll env _ r.fd domainPolicy)
    · have hcalls : ∀ e ∈ (m d.x10).effects,
          (Cause.command r.fd).Makes e ∧ e.Legible ∧ e.Public ∧ e.Stampless := fun e he =>
        ⟨Cause.makes_of_for hfd (emits_processcommandline _ r.fd hor hp d.x10 e he),
          legible_processcommandline _ hfd hp d.x10 e he,
          public_processcommandline hor line d.x10 e he,
          stampless_processcommandline hor hp d.x10 e he⟩
      have ht₂ : Daemon.Tables env { a with x10 := (m d.x10).state } :=
        hta.congr hta.wf (fun _ => rfl) rfl rfl hta.reading id
      have hx10 : a.Hears { a with x10 := (m d.x10).state } [] :=
        Mum.hears (mum_of_log rfl) ((Stays.refl a).same rfl rfl fun _ => rfl)
      exact hx10.trans (hears_performAll htimes ht₂ hcalls)
  have htb : (a.processcommandline env r.fd line).Tables env :=
    hta.moves (processcommandline_moves hta.descs hta.wf hfd line)
  have hdel : (a.processcommandline env r.fd line).Hears (d.runLine env r line) [] := by
    rw [runLine]
    split
    · exact Mum.hears (mum_delClient _ r.fd)
        (Moves.stays htb (delClient_moves hfd (Or.inl rfl) : Moves env .loop _ _))
    · exact Mum.hears (mum_of_log rfl) (Stays.refl _)
  refine ⟨heardEvents (m d.x10).effects, ⟨?_, fun hclear => ?_, fun c hc => ?_⟩⟩
  · have hears := (hstart.trans hrun).trans hdel
    rwa [List.nil_append, List.append_nil] at hears
  · rw [heard_processcommandline, runLine_state]
    exact follows_processcommandline _ r.fd hclear d.x10
  · exact (unborn_kept env).moves hta hua hmoves c (hnext ▸ hc)

/-- The library changes hands around a packet. -/
theorem announces_packet (htimes : env.TimesInRange) (ht : d.Tables env) (hunborn : d.Unborn)
    (usb usb' : Usb) {data : Bytes} (hlen : data.length ≤ 8) (accounted : Prop) :
    ∃ events, d.Announces { Daemon.decode env { d with usb := usb } data with usb := usb' }
      accounted events := by
  have ht₁ : Daemon.Tables env { d with usb := usb } := ht.idle (idle_usb usb)
  obtain ⟨events, h⟩ := announces_decode (d := { d with usb := usb }) htimes ht₁ hunborn hlen
  exact ⟨events, ⟨⟨⟨h.next, h.slot⟩, fun s c hkind hc hs => h.heard s c hkind hc ⟨hs.fd, hs.conn⟩⟩,
    fun _ => h.accounts trivial, h.unborn⟩⟩

/-- The line that a step completes. -/
def completedLine (d : Daemon) : Label → Option Bytes
  | .byte => match d.pc with
    | .encode _ r => r.rest.head?.bind fun b =>
        (encodeByte (d.clients.slot r.slot).state r.remptr b).2.2
    | _ => none
  | _ => none

/-- **No line clears the device tables.** -/
def KeepsTables (d : Daemon) (label : Label) : Prop :=
  ∀ line ∈ d.completedLine label, ¬ClearsTables line

instance (d : Daemon) (label : Label) : Decidable (d.KeepsTables label) :=
  inferInstanceAs (Decidable (∀ line ∈ d.completedLine label, ¬ClearsTables line))

/-- **Every step is announced.** -/
theorem announces_step (htimes : env.TimesInRange) (hd : Reachable env d) {label : Label}
    (hs : d.step env label = some d') : ∃ events, d.Announces d' (d.KeepsTables label) events := by
  have ht := Reachable.tables hd
  have hunborn : d.Unborn := (unborn_kept env).reachable (fun _ _ => rfl) hd
  have hstays : d.Stays d' := (stays_kept env d).step ht (Stays.refl d) hs
  -- the devices change with a line that is complete, and with a packet
  by_cases hbyte : label = .byte
  · subst hbyte
    have hkeeps : ∀ {l : ServiceLoop} {r : Reading} {b : UInt8} {rest line : Bytes},
        d.pc = .encode l r → r.rest = b :: rest →
          (encodeByte (d.clients.slot r.slot).state r.remptr b).2.2 = some line →
            d.KeepsTables .byte → ¬ClearsTables line := by
      intro l r b rest line hpc hrest hline hkeeps
      refine hkeeps line ?_
      simp only [completedLine, hpc, hrest, List.head?_cons, Option.bind_some, hline,
        Option.mem_def]
    simp only [step] at hs
    split at hs
    next l r hpc =>
      obtain ⟨b, rest, hrest, ⟨_, rfl⟩ | ⟨line, hline, rfl⟩⟩ := doByte_cases hs
      · exact ⟨[], Mum.announces (mum_of_cons rfl rfl) hstays hunborn rfl _⟩
      · have hafter : d.Stays (d.afterByte l r b rest) :=
          (stays_kept env d).byte b rest ht (Stays.refl d) hpc
        have hstart : d.Hears (d.afterByte l r b rest) [] :=
          Mum.hears (mum_of_cons rfl rfl) hafter
        obtain ⟨events, h⟩ := announces_runLine htimes (ht.afterByte hpc b rest)
          ((unborn_kept env).byte b rest ht hunborn hpc) (ht.reading l r hpc) line
        exact ⟨events, ⟨hstart.trans h.toHears,
          fun hok => h.accounts (hkeeps hpc hrest hline hok), h.unborn⟩⟩
    · cases hs
  by_cases hintr : ∃ status data signal, label = .intrIn status data signal
  · obtain ⟨status, data, signal, rfl⟩ := hintr
    simp only [step] at hs
    split at hs
    · simp only [doIntrIn] at hs
      split at hs
      next hok =>
        split at hs
        · obtain rfl := Option.some.inj hs
          exact announces_packet htimes ht hunborn _ _ hok.2.1 _
        · obtain rfl := Option.some.inj hs
          refine ⟨[], Mum.announces ?_ hstays hunborn ?_ _⟩
          · exact mum_of_log rfl
          · rfl
      · cases hs
    · cases hs
  · have hx10 : d'.x10 = d.x10 :=
      x10_still hbyte (fun status data signal h => hintr ⟨status, data, signal, h⟩) hs
    rcases step_talk hs with hmum | ⟨usb, usb', data, hlen, rfl⟩ | ⟨_, _, _, _, _, hlabel, _⟩
    · exact ⟨[], Mum.announces hmum hstays hunborn hx10 _⟩
    · exact announces_packet htimes ht hunborn usb usb' hlen _
    · exact absurd hlabel hbyte

/-! ### Runs -/

/-- **Whoever listens hears all that is done to the devices.** For every run in which no line clears
the device tables, from any reachable state, there is one list of events that accounts for all that
the run does to the devices: a mirror that showed them before, and has heard the events, shows them
after. Every client of the main and the XML port that was connected before the run, and still is,
has heard just these events in the run, in their order; and one that has connected since has heard
an end of them. -/
theorem observers_in_step (htimes : env.TimesInRange) (hd : Reachable env d)
    (hrun : Transition.Run (step env) KeepsTables d d') :
    ∃ events, Replica.Accounts Mirrors Mirror.hear d.x10 d'.x10 events ∧
      ∀ s c, s.1 ≠ .or20 → d'.Listens s c →
        (c < d.nextConn → heardBy c d'.log = heardBy c d.log ++ events) ∧
          (d.nextConn ≤ c → heardBy c d'.log <:+ events) := by
  suffices hall : d.nextConn ≤ d'.nextConn ∧ ∃ events,
      Replica.Accounts Mirrors Mirror.hear d.x10 d'.x10 events ∧
        ∀ s c, s.1 ≠ .or20 → d'.Listens s c →
          (c < d.nextConn → heardBy c d'.log = heardBy c d.log ++ events) ∧
            (d.nextConn ≤ c → heardBy c d'.log <:+ events) from hall.2
  induction hrun with
  | refl =>
    have hunborn : d.Unborn := (unborn_kept env).reachable (fun _ _ => rfl) hd
    refine ⟨le_rfl, [], Replica.Accounts.refl d.x10, fun s c _ _ => ⟨fun _ => ?_, fun hc => ?_⟩⟩
    · rw [List.append_nil]
    · rw [heardBy, hunborn c hc]
      exact List.suffix_rfl
  | @tail a b hda hst ih =>
    obtain ⟨label, hok, hs⟩ := hst
    obtain ⟨hnext, events, haccounts, hheard⟩ := ih
    have hreach : Reachable env a := Relation.ReflTransGen.trans hd (Transition.Run.free hda)
    obtain ⟨more, h⟩ := announces_step htimes hreach hs
    refine ⟨hnext.trans h.next, events ++ more, haccounts.trans (h.accounts hok),
      fun s c hkind hl => ⟨fun hc => ?_, fun hc => ?_⟩⟩
    · have hca : c < a.nextConn := hc.trans_le hnext
      rw [h.heard s c hkind hca hl, (hheard s c hkind (hl.before h.toStays hca)).1 hc,
        List.append_assoc]
    · by_cases hca : c < a.nextConn
      · obtain ⟨front, hfront⟩ := (hheard s c hkind (hl.before h.toStays hca)).2 hc
        refine ⟨front, ?_⟩
        rw [h.heard s c hkind hca hl, ← List.append_assoc, hfront]
      · -- it is connected since this step
        rw [heardBy, h.unborn c (Nat.not_lt.mp hca)]
        exact List.nil_suffix

/-- A client connects, and switches A1 on. -/
theorem observers_in_step_one : ∃ d, Transition.Run (step (.plain mochadConfigDefaults false))
    KeepsTables (initial (.plain mochadConfigDefaults false)) d ∧ heardBy 0 d.log ≠ [] ∧
      ∃ events, Replica.Accounts Mirrors Mirror.hear x10Initial d.x10 events ∧
        heardBy 0 d.log <:+ events := by
  obtain ⟨d, hd, hheard, hfd, hconn⟩ : ∃ d,
      Transition.Run (step (.plain mochadConfigDefaults false)) KeepsTables
        (initial (.plain mochadConfigDefaults false)) d ∧ heardBy 0 d.log ≠ [] ∧
      0 < (d.clients.slot (.main, 0)).fd ∧ d.connAt (d.clients.slot (.main, 0)).fd = some 0 :=
    Transition.exists_run_of_exec (connect .main ++ readClient (ascii "pl a1 on\n") ++
      List.replicate 9 .byte) (by decide +kernel)
  obtain ⟨events, haccounts, hall⟩ :=
    observers_in_step (plain_timesInRange mochadConfigDefaults false) Relation.ReflTransGen.refl hd
  exact ⟨d, hd, hheard, events, haccounts,
    (hall (.main, 0) 0 (by decide) ⟨hfd, hconn⟩).2 (Nat.zero_le _)⟩

end Daemon

end Mochad
