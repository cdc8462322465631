import Mochad.Core.Tables

/-!
# Which table a connection is in

A connection stays in the table of the listener that accepted it (`Daemon.Known`): the log says
which listener that was, and the tables say where the connection is. The same invariant says where
the client is whose read is being processed: still at the descriptor that was read, or nobody is.

An invariant of steps is shown part by part: for the elementary changes, for a connection that is
accepted, for a read that begins, for a byte of it, and for its end (`Daemon.Kept`).
-/

namespace Mochad

/-- The event says that a connection was accepted by a listener. -/
def Ev.accepts (c : ℕ) (kind : Kind) : Ev → Prop
  | .accepted conn _ k => conn = c ∧ k = kind
  | _ => False

/-- **A connection came from a listener.** -/
def CameFrom (kind : Kind) (c : ℕ) (log : List Ev) : Prop := ∃ e ∈ log, Ev.accepts c kind e

theorem cameFrom_append {kind : Kind} {c : ℕ} (es : List Ev) {log : List Ev}
    (hes : ∀ e ∈ es, ¬Ev.accepts c kind e) : CameFrom kind c (es ++ log) ↔ CameFrom kind c log := by
  constructor
  · rintro ⟨e, he, hacc⟩
    rcases List.mem_append.mp he with he | he
    · exact absurd hacc (hes e he)
    · exact ⟨e, he, hacc⟩
  · rintro ⟨e, he, hacc⟩
    exact ⟨e, List.mem_append_right _ he, hacc⟩

theorem cameFrom_cons {kind : Kind} {c : ℕ} {e : Ev} {log : List Ev} (he : ¬Ev.accepts c kind e) :
    CameFrom kind c (e :: log) ↔ CameFrom kind c log :=
  cameFrom_append [e] fun x hx => by rwa [List.mem_singleton.mp hx]

/-- What is said to clients accepts none. -/
theorem Ev.not_accepts_of_reply {e : Ev} (he : e.isReply = true) (c : ℕ) (kind : Kind) :
    ¬e.accepts c kind := by
  cases e with
  | accepted => cases he
  | _ => exact id

theorem Ev.not_accepts_of_note {e : Ev} (he : e.isNote = true) (c : ℕ) (kind : Kind) :
    ¬e.accepts c kind := by
  cases e with
  | accepted => cases he
  | _ => exact id

namespace Daemon

variable {env : Env} {d d' : Daemon}

/-! ### Invariants, part by part -/

/-- **A property that every part of a step keeps.** -/
structure Kept (env : Env) (P : Daemon → Prop) : Prop where
  idle : ∀ {d d'}, d.Tables env → P d → Idle d d' → P d'
  move : ∀ {cause d d'}, d.Tables env → P d → Move env cause d d' → P d'
  desc : ∀ {d fd desc}, d.Tables env → P d → (∀ c p, d.descs fd ≠ some (.conn c p)) →
    (∀ c p, desc ≠ some (.conn c p)) → P { d with descs := Function.update d.descs fd desc }
  listeners : ∀ {d d' main xml or20}, d.Tables env → P d → d.pc = .initialised →
    d.doCreateListeners env main xml or20 = some d' → P d'
  accept : ∀ {d snap nready kind fd} nonblocking, d.Tables env → P d →
    d.pc = .listen snap nready kind → d.listenerReady snap kind = true →
    lowestFree d.descs fd = true → P (d.addAccepted env kind fd nonblocking)
  received : ∀ {d l r}, d.Tables env → P d → d.pc = .serve l → d.clients.find r.fd = some r.slot →
    r.conn = d.connAt r.fd → P { d.record (.received r.conn r.fd r.rest) with pc := .encode l r }
  byte : ∀ {d l r} b rest, d.Tables env → P d → d.pc = .encode l r → P (d.afterByte l r b rest)
  command : ∀ {d l r} line, d.Tables env → P d → d.pc = .encode l r →
    P (d.record (.command r.conn r.fd line))
  encoded : ∀ {d l r} state, d.Tables env → P d → d.pc = .encode l r →
    P ((d.setState r.slot state).counted l r.visit)

namespace Kept

variable {P : Daemon → Prop}

theorem moves (hP : Kept env P) {cause : Cause} (ht : d.Tables env) (h : P d)
    (hm : Moves env cause d d') : P d' := by
  have hboth : d'.Tables env ∧ P d' :=
    Moves.invariant (P := fun a => a.Tables env ∧ P a) hm ⟨ht, h⟩
      fun _ _ ha hab => ⟨ha.1.move hab, hP.move ha.1 ha.2 hab⟩
  exact hboth.2

theorem calm (hP : Kept env P) (ht : d.Tables env) (h : P d) (hc : Calm env d d') : P d' := by
  have hboth : d'.Tables env ∧ P d' := by
    induction hc with
    | refl => exact ⟨ht, h⟩
    | tail _ hab ih =>
      rcases hab with hi | hm
      · exact ⟨ih.1.idle hi, hP.idle ih.1 ih.2 hi⟩
      · exact ⟨ih.1.move hm, hP.move ih.1 ih.2 hm⟩
  exact hboth.2

/-- **Every step keeps it.** -/
theorem step (hP : Kept env P) (ht : d.Tables env) (h : P d) {label : Label}
    (hs : d.step env label = some d') : P d' := by
  rcases step_kind ht.descs ht.wf hs with hc | ⟨fd, desc, hold, hnew, _, rfl⟩ |
    ⟨main, xml, or20, hpc, hl⟩ | ⟨snap, nready, kind, fd, nb, hpc, hready, hfree, rfl⟩ |
    ⟨d₁, l, r, hpc, hc, hpc₁, _, hslot, hconn, _, rfl⟩ | ⟨l, r, hpc, hb⟩ | ⟨l, r, hpc, he⟩
  · exact hP.calm ht h hc
  · exact hP.desc ht h hold hnew
  · exact hP.listeners ht h hpc hl
  · have hrun : (d.addAccepted env kind fd nb).pc.stage = .running := by
      rw [addAccepted_pc, hpc]
      rfl
    have hta := ht.addAccepted (by rw [hpc]; rfl) hfree kind nb
    exact hP.idle hta (hP.accept nb ht h hpc hready hfree) (idle_afterAccept hrun snap nready kind)
  · exact hP.received (ht.calm hc) (hP.calm ht h hc) (hpc₁.trans hpc) hslot hconn
  · obtain ⟨b, rest, _, hcase⟩ := doByte_cases hb
    have hafter : (d.afterByte l r b rest).Tables env := ht.afterByte hpc b rest
    have hbyte : P (d.afterByte l r b rest) := hP.byte b rest ht h hpc
    rcases hcase with ⟨_, rfl⟩ | ⟨line, _, rfl⟩
    · exact hbyte
    · have hcommand : P ((d.afterByte l r b rest).record (.command r.conn r.fd line)) :=
        hP.command (r := { r with remptr := _, rest := rest }) line hafter hbyte rfl
      exact hP.moves (hafter.record _) hcommand
        (runLine_moves hafter.descs hafter.wf (ht.reading l r hpc) line)
  · obtain ⟨_, rfl⟩ := doEncoded_eq he
    exact hP.encoded _ ht h hpc

/-- **It holds in every reachable state.** -/
theorem reachable (hP : Kept env P) (hinit : P (initial env)) (h : Reachable env d) : P d :=
  Transition.Run.invariant_along h hinit fun _ _ _ hr hi _ hs =>
    hP.step (Reachable.tables hr) hi hs

end Kept

/-! ### The invariant -/

/-- **Every connection is in the table of its listener**, and the client that is being read is at
its descriptor, or is gone. -/
structure Known (d : Daemon) : Prop where
  born : ∀ kind c, CameFrom kind c d.log → c < d.nextConn
  kind : ∀ s c, d.connAt (d.clients.slot s).fd = some c → ∀ kind, CameFrom kind c d.log → kind = s.1
  reader : ∀ l r, d.pc = .encode l r →
    (d.clients.find r.fd = some r.slot ∧ d.connAt r.fd = r.conn) ∨ d.connAt r.fd = none

/-- Connections stay where they are, or go. -/
theorem Known.congr (h : d.Known)
    (hconn : ∀ s c, d'.connAt (d'.clients.slot s).fd = some c →
      d.connAt (d.clients.slot s).fd = some c)
    (hnext : d'.nextConn = d.nextConn)
    (hlog : ∀ kind c, CameFrom kind c d'.log → CameFrom kind c d.log)
    (hread : ∀ l r, d'.pc = .encode l r →
      (d'.clients.find r.fd = some r.slot ∧ d'.connAt r.fd = r.conn) ∨ d'.connAt r.fd = none) :
    d'.Known where
  born := fun kind c hc => hnext ▸ h.born kind c (hlog kind c hc)
  kind := fun s c hs kind hc => h.kind s c (hconn s c hs) kind (hlog kind c hc)
  reader := hread

/-- Slots keep their descriptors, and the log grows by events that accept nobody. -/
theorem Known.same (h : d.Known) (es : List Ev)
    (hfd : ∀ s, (d'.clients.slot s).fd = (d.clients.slot s).fd)
    (hdescs : d'.descs = d.descs) (hnext : d'.nextConn = d.nextConn)
    (hlog : d'.log = es ++ d.log) (hes : ∀ e ∈ es, ∀ c kind, ¬Ev.accepts c kind e)
    (hpc : ∀ l r, d'.pc = .encode l r →
      ∃ l₀ r₀, d.pc = .encode l₀ r₀ ∧ r.fd = r₀.fd ∧ r.slot = r₀.slot ∧ r.conn = r₀.conn) :
    d'.Known := by
  have hconn : ∀ fd, d'.connAt fd = d.connAt fd := fun fd => by rw [connAt, connAt, hdescs]
  refine h.congr (fun s c hc => ?_) hnext (fun kind c hc => ?_) fun l r hp => ?_
  · rwa [hfd, hconn] at hc
  · rw [hlog] at hc
    exact (cameFrom_append es fun e he => hes e he c kind).mp hc
  · obtain ⟨l₀, r₀, hp₀, hrfd, hrslot, hrconn⟩ := hpc l r hp
    rw [hconn, find_congr hfd, hrfd, hrslot, hrconn]
    exact h.reader l₀ r₀ hp₀

/-- **A client is closed.** -/
theorem Known.closeSlot (h : d.Known) (ht : d.Tables env) {s : SlotId}
    (hs : (d.clients.slot s).fd ≠ -1) : (d.closeSlot s).Known := by
  refine h.congr (fun t c hc => (ht.connAt_closeSlot hs hc).2) rfl
    (fun kind c hc => (cameFrom_cons (by exact id)).mp hc) fun l r hp => ?_
  have hdesc : ∀ fd, (d.closeSlot s).descs fd =
      if fd = (d.clients.slot s).fd then none else d.descs fd := fun fd => Function.update_apply ..
  by_cases hfd : r.fd = (d.clients.slot s).fd
  · right
    rw [connAt, hdesc, if_pos hfd]
  · have hconn : (d.closeSlot s).connAt r.fd = d.connAt r.fd := by
      rw [connAt, connAt, hdesc, if_neg hfd]
    rw [hconn]
    rcases h.reader l r hp with ⟨hfind, hc⟩ | hnone
    · refine Or.inl ⟨?_, hc⟩
      have hslot := Clients.fd_of_find hfind
      have hne : r.slot ≠ s := fun heq => hfd (by rw [← hslot, heq])
      have hlive : ((d.closeSlot s).clients.slot r.slot).fd = r.fd := by
        rw [d.closeSlot_of_ne hne, hslot]
      have hneg : r.fd ≠ -1 := ht.reading l r hp
      have hfound := (ht.closeSlot hs).wf.find_eq (hlive.symm ▸ hneg)
      rwa [hlive] at hfound
    · exact Or.inr hnone

theorem known_kept (env : Env) : Kept env Known where
  idle := fun {d d'} _ h hi => by
    obtain ⟨es, hlog, hnotes⟩ := hi.log
    refine h.same es (fun s => by rw [hi.clients]) hi.descs hi.nextConn hlog
      (fun e he c kind => Ev.not_accepts_of_note (hnotes e he) c kind) fun l r hp => ?_
    rcases hi.pc with hpc | ⟨_, hne, _⟩
    · exact ⟨l, r, hpc ▸ hp, rfl, rfl, rfl⟩
    · rw [hp] at hne
      exact absurd rfl hne
  move := fun {cause d d'} ht h hm => by
    cases hm with
    | x10 | stamp | write =>
      exact h.same [] (fun _ => rfl) rfl rfl rfl (by simp)
        fun l r hp => ⟨l, r, hp, rfl, rfl, rfl⟩
    | addressed | queued | flushed =>
      exact h.same [_] (fun _ => rfl) rfl rfl rfl
        (fun e he c kind => by rw [List.mem_singleton.mp he]; exact id)
        fun l r hp => ⟨l, r, hp, rfl, rfl, rfl⟩
    | output s output hs _ =>
      exact h.same [] (fun t => setOutput_fd d s t output) rfl rfl rfl (by simp)
        fun l r hp => ⟨l, r, hp, rfl, rfl, rfl⟩
    | close s hs _ => exact h.closeSlot ht hs
    | send fd bytes _ =>
      rw [sendAll]
      split
      all_goals
        exact h.same [_] (fun _ => rfl) rfl rfl rfl
          (fun e he c kind => by rw [List.mem_singleton.mp he]; exact id)
          fun l r hp => ⟨l, r, hp, rfl, rfl, rfl⟩
  desc := fun {d fd desc} _ h hold hnew => by
    have hdescs : ∀ x c p, Function.update d.descs fd desc x = some (.conn c p) ↔
        d.descs x = some (.conn c p) := by
      intro x c p
      rcases eq_or_ne x fd with rfl | hx
      · rw [Function.update_self]
        exact iff_of_false (hnew c p) (hold c p)
      · rw [Function.update_of_ne hx]
    have hkept : ∀ x, Daemon.connAt { d with descs := Function.update d.descs fd desc } x =
        d.connAt x := by
      intro x
      refine Option.ext fun c => ?_
      rw [connAt_eq_some, connAt_eq_some]
      exact exists_congr (hdescs x c)
    refine h.congr (fun s c hc => (hkept _).symm.trans hc) rfl (fun _ _ => id) fun l r hp => ?_
    rw [hkept]
    exact h.reader l r hp
  listeners := fun {d d' main xml or20} ht h hpc hl => by
    have htables := ht.createListeners hpc hl
    have hempty : ∀ s, (d'.clients.slot s).fd = -1 := by
      intro s
      by_contra hne
      obtain ⟨c, hlt, hc⟩ := htables.conn s hne
      simp only [doCreateListeners] at hl
      split at hl
      · split at hl
        · obtain rfl := Option.some.inj hl
          exact hne (ht.starting (by rw [hpc]; rfl) s)
        · obtain rfl := Option.some.inj hl
          exact hne rfl
      · cases hl
    obtain ⟨hlog, hnext, hread⟩ : d'.log = d.log ∧ d'.nextConn = d.nextConn ∧
        ∀ l r, d'.pc ≠ .encode l r := by
      simp only [doCreateListeners] at hl
      split at hl
      · split at hl
        · obtain rfl := Option.some.inj hl
          exact ⟨rfl, rfl, by rintro _ _ ⟨⟩⟩
        · obtain rfl := Option.some.inj hl
          exact ⟨rfl, rfl, by rintro _ _ ⟨⟩⟩
      · cases hl
    refine h.congr (fun s c hc => ?_) hnext (fun kind c hc => hlog ▸ hc)
      fun l r hp => absurd hp (hread l r)
    rw [hempty, htables.connAt_neg] at hc
    cases hc
  accept := fun {d snap nready kind fd} nb ht h hpc _ hfree => by
    have hread : ∀ l r, d.pc ≠ .encode l r := fun l r hp => by
      rw [hpc] at hp
      cases hp
    obtain ⟨hpos, hnone⟩ := lowestFree_spec hfree
    rcases addAccepted_cases env d kind fd nb with ⟨s, hs, heq⟩ | heq
    · obtain ⟨hkind, hempty⟩ := Clients.firstFree_spec hs
      rw [heq]
      have hself : (d.clients.take s fd).slot s = Clients.Slot.taken (d.clients.slot s) fd _ :=
        Clients.set_slot_self ..
      have hother : ∀ t, t ≠ s → (d.clients.take s fd).slot t = d.clients.slot t :=
        fun t hts => Clients.set_slot_of_ne d.clients _ hts
      have hcame : ∀ k c, CameFrom k c (.accepted d.nextConn fd kind :: d.log) →
          (c = d.nextConn ∧ k = kind) ∨ CameFrom k c d.log := by
        rintro k c ⟨e, he, hacc⟩
        rcases List.mem_cons.mp he with rfl | he
        · exact Or.inl ⟨hacc.1.symm, hacc.2.symm⟩
        · exact Or.inr ⟨e, he, hacc⟩
      refine ⟨fun k c hc => ?_, fun t c hc k hcame' => ?_, fun l r hp => absurd hp (hread l r)⟩
      · show c < d.nextConn + 1
        rcases hcame k c hc with ⟨rfl, _⟩ | hold
        · exact Nat.lt_succ_self _
        · exact (h.born k c hold).trans (Nat.lt_succ_self _)
      · obtain ⟨p, hp⟩ := connAt_eq_some.mp hc
        have hdesc : Function.update d.descs fd (some (.conn d.nextConn (kind.port env.config)))
            ((d.clients.take s fd).slot t).fd = some (.conn c p) := hp
        rcases eq_or_ne t s with rfl | hts
        · have hfd : ((d.clients.take t fd).slot t).fd = fd := congrArg Slot.fd hself
          rw [hfd, Function.update_self] at hdesc
          obtain ⟨rfl, _⟩ := Desc.conn.inj (Option.some.inj hdesc)
          rcases hcame k _ hcame' with ⟨_, rfl⟩ | hold
          · exact hkind.symm
          · exact absurd (h.born k _ hold) (Nat.lt_irrefl _)
        · rw [hother t hts] at hdesc
          have hne : (d.clients.slot t).fd ≠ fd := by
            rintro hcon
            obtain ⟨c', _, hc'⟩ := ht.conn t (by omega)
            rw [hcon, hnone] at hc'
            cases hc'
          rw [Function.update_of_ne hne] at hdesc
          have hc' : d.connAt (d.clients.slot t).fd = some c := connAt_eq_some.mpr ⟨p, hdesc⟩
          have hlive : (d.clients.slot t).fd ≠ -1 := by
            rintro hneg
            rw [hneg, ht.connAt_neg] at hc'
            cases hc'
          obtain ⟨c', hlt, hc''⟩ := ht.connAt hlive
          obtain rfl := Option.some.inj (hc''.symm.trans hc')
          rcases hcame k _ hcame' with ⟨rfl, _⟩ | hold
          · exact absurd hlt (Nat.lt_irrefl _)
          · exact h.kind t _ hc' k hold
    · rw [heq]
      have hcame : ∀ k c, CameFrom k c (.turnedAway d.nextConn fd :: d.log) → CameFrom k c d.log :=
        fun k c hc => (cameFrom_cons (by exact id)).mp hc
      exact ⟨fun k c hc => (h.born k c (hcame k c hc)).trans (Nat.lt_succ_self _),
        fun t c hc k hk => h.kind t c hc k (hcame k c hk), fun l r hp => absurd hp (hread l r)⟩
  received := fun {d l r} _ h _ hfind hconn => by
    refine h.congr (fun _ _ => id) rfl (fun kind c hc => (cameFrom_cons (by exact id)).mp hc)
      fun l' r' hp => ?_
    obtain ⟨_, rfl⟩ := Pc.encode.inj hp
    exact Or.inl ⟨hfind, hconn.symm⟩
  byte := fun {d l r} b rest _ h hpc => by
    refine h.same [.consumed r.conn b] (fun t => setState_fd d r.slot t _) rfl rfl rfl
      (fun e he c kind => by rw [List.mem_singleton.mp he]; exact id) fun l' r' hp => ?_
    obtain ⟨_, rfl⟩ := Pc.encode.inj hp
    exact ⟨l, r, hpc, rfl, rfl, rfl⟩
  command := fun {d l r} line _ h _ =>
    h.same [.command r.conn r.fd line] (fun _ => rfl) rfl rfl rfl
      (fun e he c kind => by rw [List.mem_singleton.mp he]; exact id)
      fun l' r' hp => ⟨l', r', hp, rfl, rfl, rfl⟩
  encoded := fun {d l r} state _ h _ => by
    have hfd : ∀ t, ((d.setState r.slot state).clients.slot t).fd = (d.clients.slot t).fd :=
      fun t => setState_fd d r.slot t state
    simp only [counted]
    split
    · exact h.same [_] hfd rfl rfl rfl
        (fun e he c kind => by rw [List.mem_singleton.mp he]; exact id) fun _ _ hp => by cases hp
    · exact h.same [] hfd rfl rfl rfl (by simp) fun _ _ hp => by cases hp

/-- **In every reachable state.** -/
theorem Reachable.known (h : Reachable env d) : d.Known := by
  refine (known_kept env).reachable ⟨?_, ?_, fun _ _ hp => nomatch hp⟩ h
  · rintro kind c ⟨e, he, _⟩
    cases he
  · rintro s c _ kind ⟨e, he, _⟩
    cases he

end Daemon

end Mochad
