import Mochad.Core.Tables

/-!
# The client tables over a whole run

The counters count, by `Clients.Wf`. Here is what else holds in every reachable state
(`client_tables`): a connection that `accept()` has returned is held by one slot, or has been closed
once; a slot without a client has no identity and nothing in its queue; a slot that is given to a
client is as good as new; and `copy_clients` writes as many records as were made room for.

That a connection is closed once is a matter of counting (`closings`): a client is closed when its
slot is freed, and a slot is freed when it holds the client's descriptor, which no other slot does.
-/

namespace Mochad

/-- The event closes a connection. -/
def Ev.closes (c : ℕ) : Ev → Bool
  | .closed conn _ _ _ => conn = some c
  | .turnedAway conn _ => conn = c
  | _ => false

/-- How often a connection was closed. -/
def closings (c : ℕ) (log : List Ev) : ℕ := log.countP (Ev.closes c)

/-- Events that close nothing are not counted. -/
theorem closings_append {c : ℕ} {es log : List Ev} (h : ∀ e ∈ es, e.closes c = false) :
    closings c (es ++ log) = closings c log := by
  rw [closings, List.countP_append, List.countP_eq_zero.mpr, Nat.zero_add, closings]
  intro e he
  simp [h e he]

theorem closings_cons {c : ℕ} {e : Ev} {log : List Ev} (h : e.closes c = false) :
    closings c (e :: log) = closings c log :=
  closings_append fun x hx => by rwa [List.mem_singleton.mp hx]

/-! ### The capacity of `Pollfds` -/

/-- A capacity is doubled until it is enough. -/
def doubled (needed capacity : ℕ) : ℕ :=
  if 0 < capacity ∧ capacity < needed then doubled needed (capacity * 2) else capacity
termination_by needed - capacity

/-- `ensure_pollfd_capacity`, unless the allocation fails. -/
def ensurePollfdCapacity (capacity needed : ℕ) : ℕ :=
  if needed ≤ capacity then capacity
  else doubled needed (if capacity ≠ 0 then capacity else 8)

theorem le_doubled {needed capacity : ℕ} (h : 0 < capacity) : needed ≤ doubled needed capacity := by
  induction capacity using doubled.induct needed with
  | case1 capacity hless ih =>
    rw [doubled, if_pos hless]
    exact ih (by omega)
  | case2 capacity henough =>
    rw [doubled, if_neg henough]
    omega

/-- **There is room for what is needed.** -/
theorem le_ensurePollfdCapacity (capacity needed : ℕ) :
    needed ≤ ensurePollfdCapacity capacity needed := by
  rw [ensurePollfdCapacity]
  split
  next h => exact h
  · refine le_doubled ?_
    split
    · omega
    · decide

/-- **A slot as a new client finds it**: no line is begun, none is dropped, and nothing waits. -/
structure Slot.Fresh (v : Slot) : Prop where
  remlen : v.state.remlen = 0
  discarding : v.state.discarding = false
  line : cstring v.state.remainder = []
  output : v.output.contents = []
  stalled : v.output.stalledSince = 0

theorem EncodeState.cstring_init (st : EncodeState) : cstring st.init.remainder = [] := by
  obtain ⟨b, bs, hrem⟩ := List.exists_cons_of_ne_nil (l := st.remainder) (by
    intro hnil
    have hlen := st.length_remainder
    rw [hnil] at hlen
    cases hlen)
  show cstring (st.remainder.set 0 0) = []
  rw [hrem]
  rfl

theorem Clients.Slot.fresh_taken (v : Slot) (fd : ℤ) (id : UInt32) : (Slot.taken v fd id).Fresh :=
  ⟨rfl, rfl, v.state.cstring_init, rfl, rfl⟩

namespace Daemon

variable {env : Env} {d d' : Daemon}

theorem connAt_congr {fd : ℤ} (h : d'.descs fd = d.descs fd) : d'.connAt fd = d.connAt fd := by
  rw [connAt, connAt, h]

/-- **What the slots and the log agree on.** -/
structure Accounted (d : Daemon) : Prop where
  vacant : ∀ s, (d.clients.slot s).fd = -1 →
    (d.clients.slot s).id = 0 ∧ (d.clients.slot s).output.len = 0
  held : ∀ s c, d.connAt (d.clients.slot s).fd = some c → closings c d.log = 0
  gone : ∀ c < d.nextConn, (∀ s, d.connAt (d.clients.slot s).fd ≠ some c) → closings c d.log = 1
  unborn : ∀ c, d.nextConn ≤ c → closings c d.log = 0

/-- The slots, the connections and what was closed are as they were. -/
theorem Accounted.congr (h : d.Accounted)
    (hfd : ∀ s, (d'.clients.slot s).fd = (d.clients.slot s).fd)
    (hvacant : ∀ s, (d.clients.slot s).fd = -1 →
      (d'.clients.slot s).id = 0 ∧ (d'.clients.slot s).output.len = 0)
    (hconn : ∀ s, d'.connAt (d.clients.slot s).fd = d.connAt (d.clients.slot s).fd)
    (hnext : d'.nextConn = d.nextConn) (hlog : ∀ c, closings c d'.log = closings c d.log) :
    d'.Accounted where
  vacant := fun s hs => hvacant s ((hfd s).symm.trans hs)
  held := fun s c hc => by
    rw [hfd, hconn] at hc
    rw [hlog]
    exact h.held s c hc
  gone := fun c hc hnone => by
    rw [hlog]
    refine h.gone c (hnext ▸ hc) fun s => ?_
    rw [← hconn, ← hfd]
    exact hnone s
  unborn := fun c hc => by
    rw [hlog]
    exact h.unborn c (hnext ▸ hc)

/-- Only the log grows, by events that close nothing. -/
theorem Accounted.grow (h : d.Accounted) (hclients : d'.clients = d.clients)
    (hdescs : d'.descs = d.descs) (hnext : d'.nextConn = d.nextConn) {es : List Ev}
    (hlog : d'.log = es ++ d.log) (hes : ∀ c, ∀ e ∈ es, e.closes c = false) : d'.Accounted := by
  refine h.congr (fun s => by rw [hclients]) (fun s hs => ?_)
    (fun s => connAt_congr (congrFun hdescs _)) hnext fun c => ?_
  · rw [hclients]
    exact h.vacant s hs
  · rw [hlog, closings_append (hes c)]

/-- One more event. -/
theorem Accounted.cons (h : d.Accounted) (hclients : d'.clients = d.clients)
    (hdescs : d'.descs = d.descs) (hnext : d'.nextConn = d.nextConn) {e : Ev}
    (hlog : d'.log = e :: d.log) (he : ∀ c, e.closes c = false) : d'.Accounted :=
  h.grow hclients hdescs hnext (hlog.trans List.singleton_append.symm) fun c x hx => by
    rw [List.mem_singleton.mp hx, he]

/-- The log is as it was. -/
theorem Accounted.same (h : d.Accounted) (hclients : d'.clients = d.clients)
    (hdescs : d'.descs = d.descs) (hnext : d'.nextConn = d.nextConn) (hlog : d'.log = d.log) :
    d'.Accounted :=
  h.grow hclients hdescs hnext (hlog.trans (List.nil_append _).symm) fun _ _ he => nomatch he

/-- **A client is closed**: its connection is gone, and was not closed before. -/
theorem Accounted.closeSlot (h : d.Accounted) (ht : d.Tables env) {s : SlotId}
    (hs : (d.clients.slot s).fd ≠ -1) : (d.closeSlot s).Accounted := by
  obtain ⟨c₀, hlt, hc₀⟩ := ht.connAt hs
  have hclosings : ∀ c, closings c (d.closeSlot s).log =
      closings c d.log + if c = c₀ then 1 else 0 := by
    intro c
    show closings c (.closed (d.connAt (d.clients.slot s).fd) _ _ _ :: d.log) = _
    rw [closings, List.countP_cons, hc₀, closings]
    by_cases heq : c = c₀
    · simp [Ev.closes, heq]
    · simp [Ev.closes, heq, Ne.symm heq]
  have hother : ∀ t, t ≠ s → (d.closeSlot s).clients.slot t = d.clients.slot t :=
    fun t ht => d.closeSlot_of_ne ht
  have hstays : ∀ t, t ≠ s → (d.closeSlot s).connAt ((d.closeSlot s).clients.slot t).fd =
      d.connAt (d.clients.slot t).fd := by
    intro t hts
    have hne : (d.clients.slot t).fd ≠ (d.clients.slot s).fd :=
      fun heq => hts (ht.wf.distinct s t hs heq.symm).symm
    have hdesc : (d.closeSlot s).descs (d.clients.slot t).fd = d.descs (d.clients.slot t).fd :=
      Function.update_of_ne hne ..
    rw [hother t hts]
    exact connAt_congr hdesc
  refine ⟨fun t htfd => ?_, fun t c hc => ?_, fun c hc hnone => ?_, fun c hc => ?_⟩
  · rcases eq_or_ne t s with rfl | hts
    · rw [d.closeSlot_self t]
      exact ⟨rfl, rfl⟩
    · rw [hother t hts] at htfd ⊢
      exact h.vacant t htfd
  · obtain ⟨hts, hct⟩ := ht.connAt_closeSlot hs hc
    have hne : c ≠ c₀ := fun heq => hts (ht.slot_unique hct (heq ▸ hc₀))
    rw [hclosings, if_neg hne, h.held t c hct]
  · rw [hclosings]
    by_cases heq : c = c₀
    · rw [if_pos heq, heq, h.held s c₀ hc₀]
    · rw [if_neg heq]
      refine h.gone c hc fun t => ?_
      rcases eq_or_ne t s with rfl | hts
      · rw [hc₀]
        exact fun hsome => heq (Option.some.inj hsome).symm
      · rw [← hstays t hts]
        exact hnone t
  · have hne : c ≠ c₀ := fun heq => absurd (heq ▸ hc) (Nat.not_le.mpr hlt)
    rw [hclosings, if_neg hne]
    exact h.unborn c hc

theorem Accounted.move {cause : Cause} (h : d.Accounted) (ht : d.Tables env)
    (hm : Move env cause d d') : d'.Accounted := by
  cases hm with
  | x10 x => exact h.same rfl rfl rfl rfl
  | stamp => exact h.same rfl rfl rfl rfl
  | write buf => exact h.same rfl rfl rfl rfl
  | addressed fd bytes _ =>
    exact h.cons rfl rfl rfl rfl fun _ => rfl
  | queued s bytes hs =>
    exact h.cons rfl rfl rfl rfl fun _ => rfl
  | flushed s bytes ok hs _ =>
    exact h.cons rfl rfl rfl rfl fun _ => rfl
  | output s output hs _ =>
    refine h.congr (fun t => setOutput_fd d s t output) (fun t htfd => ?_) (fun _ => rfl) rfl
      fun _ => rfl
    have hts : t ≠ s := fun heq => hs (heq ▸ htfd)
    rw [setOutput_of_ne d output hts]
    exact h.vacant t htfd
  | close s hs _ => exact h.closeSlot ht hs
  | send fd bytes _ =>
    rw [sendAll]
    split
    · exact h.cons rfl rfl rfl rfl fun _ => rfl
    · exact h.cons rfl rfl rfl rfl fun _ => rfl

theorem Accounted.idle (h : d.Accounted) (hi : Idle d d') : d'.Accounted := by
  obtain ⟨es, hlog, hnotes⟩ := hi.log
  refine h.grow hi.clients hi.descs hi.nextConn hlog fun c e he => ?_
  have hnote := hnotes e he
  cases e with
  | closed | turnedAway => cases hnote
  | _ => rfl

/-- Elementary changes, and other things in between, keep both. -/
theorem Accounted.calm (h : d.Accounted) (ht : d.Tables env) (hc : Calm env d d') :
    d'.Accounted := by
  have hboth : d'.Tables env ∧ d'.Accounted := by
    induction hc with
    | refl => exact ⟨ht, h⟩
    | tail _ hab ih =>
      rcases hab with hi | hm
      · exact ⟨ih.1.idle hi, ih.2.idle hi⟩
      · exact ⟨ih.1.move hm, ih.2.move ih.1 hm⟩
  exact hboth.2

theorem Accounted.moves {cause : Cause} (h : d.Accounted) (ht : d.Tables env)
    (hm : Moves env cause d d') : d'.Accounted := by
  have hboth : d'.Tables env ∧ d'.Accounted :=
    Moves.invariant (P := fun a => a.Tables env ∧ a.Accounted) hm ⟨ht, h⟩
      fun _ _ ha hab => ⟨ha.1.move hab, ha.2.move ha.1 hab⟩
  exact hboth.2

/-- **A connection is accepted**: it is held by its slot, or was closed. -/
theorem Accounted.addAccepted (h : d.Accounted) (ht : d.Tables env) {fd : ℤ}
    (hfree : lowestFree d.descs fd = true) (kind : Kind) (nonblocking : Bool) :
    (d.addAccepted env kind fd nonblocking).Accounted := by
  obtain ⟨hpos, hnone⟩ := lowestFree_spec hfree
  have hold : ∀ s c, d.connAt (d.clients.slot s).fd = some c → c < d.nextConn := by
    intro s c hc
    have hs : (d.clients.slot s).fd ≠ -1 := by
      intro hneg
      rw [hneg, ht.connAt_neg] at hc
      cases hc
    obtain ⟨c', hlt, hc'⟩ := ht.connAt hs
    obtain rfl := Option.some.inj (hc'.symm.trans hc)
    exact hlt
  rcases addAccepted_cases env d kind fd nonblocking with ⟨s, hs, heq⟩ | heq
  · have hempty := (Clients.firstFree_spec hs).2
    have hself : (d.clients.take s fd).slot s = Clients.Slot.taken (d.clients.slot s) fd
      d.clients.nextId := Clients.set_slot_self ..
    have hother : ∀ t, t ≠ s → (d.clients.take s fd).slot t = d.clients.slot t :=
      fun t hts => Clients.set_slot_of_ne d.clients _ hts
    have hnew : ∀ t, (d.clients.slot t).fd ≠ fd := by
      rintro t htfd
      obtain ⟨c, _, hdesc⟩ := ht.conn t (by omega)
      rw [htfd, hnone] at hdesc
      cases hdesc
    have hlog : ∀ c, closings c (.accepted d.nextConn fd kind :: d.log) = closings c d.log :=
      fun _ => closings_cons rfl
    -- the connection of a slot: the new one, or the one that it had
    have hconnSelf : (d.addAccepted env kind fd nonblocking).connAt
        ((d.addAccepted env kind fd nonblocking).clients.slot s).fd = some d.nextConn := by
      rw [heq, connAt_eq_some]
      refine ⟨kind.port env.config, ?_⟩
      show Function.update d.descs fd _ ((d.clients.take s fd).slot s).fd = _
      rw [hself]
      exact Function.update_self ..
    have hconnOther : ∀ t, t ≠ s → (d.addAccepted env kind fd nonblocking).connAt
        ((d.addAccepted env kind fd nonblocking).clients.slot t).fd =
          d.connAt (d.clients.slot t).fd := by
      intro t hts
      rw [heq]
      have hdesc : Function.update d.descs fd (some (.conn d.nextConn (kind.port env.config)))
          (d.clients.slot t).fd = d.descs (d.clients.slot t).fd := Function.update_of_ne (hnew t) ..
      show Daemon.connAt _ ((d.clients.take s fd).slot t).fd = _
      rw [hother t hts]
      exact connAt_congr hdesc
    have hclients : (d.addAccepted env kind fd nonblocking).clients = d.clients.take s fd := by
      rw [heq]
    have hcount : ∀ c,
        closings c (d.addAccepted env kind fd nonblocking).log = closings c d.log := by
      intro c
      rw [heq]
      exact hlog c
    have hnext : (d.addAccepted env kind fd nonblocking).nextConn = d.nextConn + 1 := by rw [heq]
    generalize d.addAccepted env kind fd nonblocking = a
      at hconnSelf hconnOther hclients hcount hnext
    refine ⟨fun t htfd => ?_, fun t c hc => ?_, fun c hc hgone => ?_, fun c hc => ?_⟩
    · rw [hclients] at htfd ⊢
      rcases eq_or_ne t s with rfl | hts
      · rw [hself] at htfd
        exact absurd htfd (by show fd ≠ -1; omega)
      · rw [hother t hts] at htfd ⊢
        exact h.vacant t htfd
    · rw [hcount]
      rcases eq_or_ne t s with rfl | hts
      · obtain rfl := Option.some.inj (hconnSelf.symm.trans hc)
        exact h.unborn _ le_rfl
      · rw [hconnOther t hts] at hc
        exact h.held t c hc
    · rw [hcount]
      have hne : c ≠ d.nextConn := fun heq => hgone s (heq ▸ hconnSelf)
      refine h.gone c (by omega) fun t => ?_
      rcases eq_or_ne t s with rfl | hts
      · rw [hempty, ht.connAt_neg]
        exact nofun
      · rw [← hconnOther t hts]
        exact hgone t
    · rw [hcount]
      exact h.unborn c (by omega)
  · have hcount : ∀ c, closings c (.turnedAway d.nextConn fd :: d.log) =
        closings c d.log + if c = d.nextConn then 1 else 0 := by
      intro c
      rw [closings, List.countP_cons, closings]
      by_cases hc : c = d.nextConn
      · simp [Ev.closes, hc]
      · simp [Ev.closes, hc, Ne.symm hc]
    rw [heq]
    refine ⟨h.vacant, fun t c hc => ?_, fun c hc hgone => ?_, fun c hc => ?_⟩
    · show closings c (.turnedAway d.nextConn fd :: d.log) = 0
      have hlt := hold t c hc
      rw [hcount, if_neg (by omega)]
      exact h.held t c hc
    · show closings c (.turnedAway d.nextConn fd :: d.log) = 1
      rw [hcount]
      by_cases hlast : c = d.nextConn
      · rw [if_pos hlast, hlast, h.unborn _ le_rfl]
      · have hlt : c < d.nextConn + 1 := hc
        rw [if_neg hlast]
        exact h.gone c (by omega) hgone
    · show closings c (.turnedAway d.nextConn fd :: d.log) = 0
      have hle : d.nextConn + 1 ≤ c := hc
      rw [hcount, if_neg (by omega)]
      exact h.unborn c (by omega)

/-- The splitter's state is no business of the accounts. -/
theorem Accounted.setState (h : d.Accounted) (s : SlotId) (state : EncodeState) :
    (d.setState s state).Accounted := by
  refine h.congr (fun t => setState_fd d s t state) (fun t htfd => ?_) (fun _ => rfl) rfl
    fun _ => rfl
  have hid : ((d.setState s state).clients.slot t).id = (d.clients.slot t).id := by
    rcases eq_or_ne t s with rfl | hne
    · rw [setState_self]
    · rw [setState_of_ne d state hne]
  rw [setState_output, hid]
  exact h.vacant t htfd

theorem Accounted.afterByte (h : d.Accounted) (l : ServiceLoop) (r : Reading) (b : UInt8)
    (rest : Bytes) : (d.afterByte l r b rest).Accounted :=
  (h.setState r.slot _).cons (e := .consumed r.conn b) rfl rfl rfl rfl fun _ => rfl

/-- **Every step keeps the accounts.** -/
theorem Accounted.step (h : d.Accounted) (ht : d.Tables env) {label : Label}
    (hs : d.step env label = some d') : d'.Accounted := by
  rcases step_kind ht.descs ht.wf hs with hc | ⟨fd, desc, hold, hnew, _, rfl⟩ |
    ⟨main, xml, or20, hpc, hl⟩ | ⟨snap, nready, kind, fd, nb, hpc, _, hfree, rfl⟩ |
    ⟨d₁, l, r, _, hc, _, _, _, _, _, rfl⟩ | ⟨l, r, hpc, hb⟩ | ⟨l, r, hpc, he⟩
  · exact h.calm ht hc
  · refine h.congr (fun _ => rfl) h.vacant (fun s => ?_) rfl fun _ => rfl
    rcases eq_or_ne (d.clients.slot s).fd fd with hfd | hfd
    · have hnone : ∀ {a : Daemon}, (∀ c p, a.descs fd ≠ some (.conn c p)) → a.connAt fd = none := by
        intro a ha
        rw [connAt]
        split
        next c p hdesc => exact absurd hdesc (ha c p)
        · rfl
      rw [hfd, hnone hold, hnone]
      show ∀ c p, Function.update d.descs fd desc fd ≠ _
      rw [Function.update_self]
      exact hnew
    · have hdesc : Function.update d.descs fd desc (d.clients.slot s).fd =
          d.descs (d.clients.slot s).fd := Function.update_of_ne hfd ..
      exact connAt_congr hdesc
  · -- there is no client yet
    have hempty : ∀ s, (d.clients.slot s).fd = -1 := ht.starting (by rw [hpc]; rfl)
    have htables := ht.createListeners hpc hl
    simp only [doCreateListeners] at hl
    split at hl
    · split at hl
      · obtain rfl := Option.some.inj hl
        exact h.congr (fun _ => rfl) h.vacant
          (fun s => by rw [hempty, ht.connAt_neg, htables.connAt_neg]) rfl fun _ => rfl
      · obtain rfl := Option.some.inj hl
        exact h.congr (fun s => (hempty s).symm) (fun _ _ => ⟨rfl, rfl⟩)
          (fun s => by rw [hempty, ht.connAt_neg, htables.connAt_neg]) rfl fun _ => rfl
    · cases hl
  · have hrun : d.pc.stage = .running := by rw [hpc]; rfl
    rw [← addAccepted_pc env d kind fd nb] at hrun
    exact (h.addAccepted ht hfree kind nb).idle (idle_afterAccept hrun snap nready kind)
  · exact (h.calm ht hc).cons rfl rfl rfl rfl fun _ => rfl
  · obtain ⟨b, rest, _, hcase⟩ := doByte_cases hb
    have htables : (d.afterByte l r b rest).Tables env := ht.afterByte hpc b rest
    rcases hcase with ⟨_, rfl⟩ | ⟨line, _, rfl⟩
    · exact h.afterByte l r b rest
    · have hcommand : ((d.afterByte l r b rest).record (.command r.conn r.fd line)).Accounted :=
        (h.afterByte l r b rest).cons rfl rfl rfl rfl fun _ => rfl
      exact hcommand.moves (htables.record _)
        (runLine_moves htables.descs htables.wf (ht.reading l r hpc) line)
  · obtain ⟨_, rfl⟩ := doEncoded_eq he
    generalize EncodeState.mk _ _ _ _ = state
    simp only [counted]
    split
    · exact (h.setState r.slot state).cons rfl rfl rfl rfl fun _ => rfl
    · exact (h.setState r.slot state).same rfl rfl rfl rfl

theorem initial_accounted (env : Env) : (initial env).Accounted where
  vacant := fun _ _ => ⟨rfl, rfl⟩
  held := fun _ _ _ => rfl
  gone := fun _ hc => absurd hc (Nat.not_lt_zero _)
  unborn := fun _ _ => rfl

/-- **In every reachable state the slots and the log agree.** -/
theorem Reachable.accounted (h : Reachable env d) : d.Accounted :=
  Transition.Run.invariant_along h (initial_accounted env) fun _ _ _ hrun ha _ hs =>
    ha.step (Reachable.tables hrun) hs

/-! ### Slots that are given to a client -/

/-- Elementary changes, and what is calm, give no slot to a client. -/
theorem Moves.fd {cause : Cause} (h : Moves env cause d d') (s : SlotId) :
    (d'.clients.slot s).fd = (d.clients.slot s).fd ∨ (d'.clients.slot s).fd = -1 := by
  induction h with
  | refl => exact Or.inl rfl
  | tail _ hm ih =>
    rcases hm.fd s with heq | heq
    · rw [heq]
      exact ih
    · exact Or.inr heq

theorem Calm.fd (h : Calm env d d') (s : SlotId) :
    (d'.clients.slot s).fd = (d.clients.slot s).fd ∨ (d'.clients.slot s).fd = -1 := by
  induction h with
  | refl => exact Or.inl rfl
  | tail _ hab ih =>
    rcases hab with hi | hm
    · rw [hi.clients]
      exact ih
    · rcases hm.fd s with heq | heq
      · rw [heq]
        exact ih
      · exact Or.inr heq

/-- **A slot is filled by accepting a client**, who finds it as good as new. -/
theorem fresh_of_filled (ht : d.Tables env) {label : Label} (hs : d.step env label = some d')
    {s : SlotId} (hempty : (d.clients.slot s).fd = -1) (hfilled : (d'.clients.slot s).fd ≠ -1) :
    (d'.clients.slot s).Fresh := by
  have hvacant : ∀ {a : Daemon}, ((d'.clients.slot s).fd = (a.clients.slot s).fd ∨
      (d'.clients.slot s).fd = -1) → (a.clients.slot s).fd = -1 → (d'.clients.slot s).Fresh := by
    rintro a (heq | heq) ha
    · exact absurd (heq.trans ha) hfilled
    · exact absurd heq hfilled
  rcases step_kind ht.descs ht.wf hs with hc | ⟨fd, desc, _, _, _, rfl⟩ |
    ⟨main, xml, or20, hpc, hl⟩ | ⟨snap, nready, kind, fd, nb, hpc, _, hfree, rfl⟩ |
    ⟨d₁, l, r, _, hc, _, _, _, _, _, rfl⟩ | ⟨l, r, hpc, hb⟩ | ⟨l, r, hpc, he⟩
  · exact hvacant (hc.fd s) hempty
  · exact hvacant (Or.inl rfl) hempty
  · have hall := (ht.createListeners hpc hl).starting
    simp only [doCreateListeners] at hl
    split at hl
    · split at hl
      · obtain rfl := Option.some.inj hl
        exact absurd hempty hfilled
      · obtain rfl := Option.some.inj hl
        exact absurd rfl hfilled
    · cases hl
  · have hrun : (d.addAccepted env kind fd nb).pc.stage = .running := by
      rw [addAccepted_pc, hpc]
      rfl
    have hclients := (idle_afterAccept hrun snap nready kind).clients
    rw [hclients] at hfilled ⊢
    rcases addAccepted_cases env d kind fd nb with ⟨t, ht', heq⟩ | heq
    · rw [heq] at hfilled ⊢
      rcases eq_or_ne s t with rfl | hne
      · have hself : (d.clients.take s fd).slot s = Clients.Slot.taken (d.clients.slot s) fd
          d.clients.nextId := Clients.set_slot_self ..
        show ((d.clients.take s fd).slot s).Fresh
        rw [hself]
        exact Clients.Slot.fresh_taken _ _ _
      · have hother : (d.clients.take t fd).slot s = d.clients.slot s :=
          Clients.set_slot_of_ne d.clients _ hne
        exact absurd (hother ▸ hempty) hfilled
    · rw [heq] at hfilled
      exact absurd hempty hfilled
  · exact hvacant (hc.fd s) hempty
  · obtain ⟨b, rest, _, hcase⟩ := doByte_cases hb
    have hafter : ((d.afterByte l r b rest).clients.slot s).fd = -1 :=
      (setState_fd d r.slot s _).trans hempty
    rcases hcase with ⟨_, rfl⟩ | ⟨line, _, rfl⟩
    · exact absurd hafter hfilled
    · have htables : (d.afterByte l r b rest).Tables env := ht.afterByte hpc b rest
      have hmoves : Moves env _ _ _ :=
        runLine_moves htables.descs htables.wf (ht.reading l r hpc) line
      exact hvacant (Moves.fd hmoves s) hafter
  · obtain ⟨_, rfl⟩ := doEncoded_eq he
    have hafter : ∀ state, ((d.setState r.slot state).clients.slot s).fd = -1 :=
      fun state => (setState_fd d r.slot s state).trans hempty
    have hcounted : ∀ a : Daemon, (a.counted l r.visit).clients = a.clients := by
      intro a
      simp only [counted]
      split
      · rfl
      · rfl
    rw [hcounted] at hfilled
    exact absurd (hafter _) hfilled

/-- **The client tables, in every reachable state.** The counters count; a connection is in
one slot and was not closed, or is in none and was closed once; a vacant slot has no
identity and an empty queue; the next step fills a slot that is as good as new; and
`copy_clients` writes as many records as there are clients, within the capacity that the
head of the loop has made sure of, whatever it was before. -/
theorem client_tables (h : Reachable env d) :
    (∀ kind, d.clients.count kind = d.clients.population kind) ∧
    (∀ c < d.nextConn,
      ((∃! s, d.connAt (d.clients.slot s).fd = some c) ∧ closings c d.log = 0) ∨
        ((∀ s, d.connAt (d.clients.slot s).fd ≠ some c) ∧ closings c d.log = 1)) ∧
    (∀ s, (d.clients.slot s).fd = -1 →
      (d.clients.slot s).id = 0 ∧ (d.clients.slot s).output.contents = []) ∧
    (∀ label d', d.step env label = some d' → ∀ s, (d.clients.slot s).fd = -1 →
      (d'.clients.slot s).fd ≠ -1 → (d'.clients.slot s).Fresh) ∧
    d.copyClients.length = d.clients.total ∧
      ∀ capacity, 3 + d.usbPollfds.length + d.copyClients.length ≤
        ensurePollfdCapacity capacity d.layout.npollfds := by
  have ht := h.tables
  have ha := h.accounted
  have hlength : d.copyClients.length = d.clients.total := by
    rw [copyClients, List.length_map, ht.wf.length_occupied]
  refine ⟨ht.wf.counts, fun c hc => ?_, fun s hs => ?_, fun label d' hs s hempty hfilled => ?_,
    hlength, fun capacity => ?_⟩
  · by_cases hheld : ∃ s, d.connAt (d.clients.slot s).fd = some c
    · obtain ⟨s, hs⟩ := hheld
      exact Or.inl ⟨⟨s, hs, fun t htc => ht.slot_unique htc hs⟩, ha.held s c hs⟩
    · rw [not_exists] at hheld
      exact Or.inr ⟨hheld, ha.gone c hc hheld⟩
  · obtain ⟨hid, hlen⟩ := ha.vacant s hs
    exact ⟨hid, (ClientOutput.contents_eq_nil_iff _).mpr hlen⟩
  · exact fresh_of_filled ht hs hempty hfilled
  · rw [hlength]
    exact le_ensurePollfdCapacity capacity _

/-- A client connects, and is closed at the end of its stream. -/
theorem client_tables_on : ∃ d, Reachable (.plain mochadConfigDefaults false) d ∧
    d.nextConn = 1 ∧ (∀ s, d.connAt (d.clients.slot s).fd ≠ some 0) ∧ closings 0 d.log = 1 := by
  obtain ⟨d, hrun, hnext, hone⟩ : ∃ d, Reachable (.plain mochadConfigDefaults false) d ∧
      d.nextConn = 1 ∧ closings 0 d.log = 1 :=
    Transition.exists_run_of_exec
      (connect .main ++ pollClient ⟨true, false, false, false⟩ ++ [.service [] 0 .eof])
      (by decide +kernel)
  refine ⟨d, hrun, hnext, ?_⟩
  rcases (client_tables hrun).2.1 0 (by omega) with ⟨_, hzero⟩ | hgone
  · rw [hone] at hzero
    cases hzero
  · exact hgone

end Daemon

end Mochad
