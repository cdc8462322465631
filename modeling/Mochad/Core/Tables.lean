import Mochad.Core.Steps

/-!
# Descriptors and connections

The tables know clients by descriptor; the log knows connections by identity. In every
reachable state the two agree (`Daemon.Tables`): a descriptor in a table is an open
connection, on the port of its table's listener; every open connection is in a table;
and no connection is open twice.
-/

namespace Mochad

namespace Daemon

/-- **The tables hold the open connections.** -/
structure Tables (env : Env) (d : Daemon) : Prop extends Addressable d where
  wf : d.clients.Wf
  conn : ∀ s, (d.clients.slot s).fd ≠ -1 → ∃ c, c < d.nextConn ∧
    d.descs (d.clients.slot s).fd = some (.conn c (s.1.port env.config))
  slot : ∀ fd c p, d.descs fd = some (.conn c p) → ∃ s, (d.clients.slot s).fd = fd
  ids : ∀ fd fd' c p p', d.descs fd = some (.conn c p) → d.descs fd' = some (.conn c p') → fd = fd'
  starting : d.pc.stage = .starting → ∀ s, (d.clients.slot s).fd = -1

variable {env : Env} {d d' : Daemon}

/-- The tables look at descriptors only. -/
theorem Tables.congr (h : d.Tables env) (hwf : d'.clients.Wf)
    (hfd : ∀ s, (d'.clients.slot s).fd = (d.clients.slot s).fd) (hdescs : d'.descs = d.descs)
    (hnext : d'.nextConn = d.nextConn)
    (hread : ∀ l r, d'.pc = .encode l r → r.fd ≠ -1)
    (hstart : d'.pc.stage = .starting → d.pc.stage = .starting) : d'.Tables env where
  descs := hdescs ▸ h.descs
  reading := hread
  wf := hwf
  conn := fun s hs => by
    rw [hfd] at hs ⊢
    rw [hdescs, hnext]
    exact h.conn s hs
  slot := fun fd c p hc => by
    obtain ⟨s, hs⟩ := h.slot fd c p (hdescs ▸ hc)
    exact ⟨s, (hfd s).trans hs⟩
  ids := hdescs ▸ h.ids
  starting := fun hp s => (hfd s).trans (h.starting (hstart hp) s)

theorem Tables.record (h : d.Tables env) (e : Ev) : (d.record e).Tables env :=
  h.congr h.wf (fun _ => rfl) rfl rfl h.reading id

/-- A lookup sees descriptors only. -/
theorem find_congr {c c' : Clients} (h : ∀ s, (c'.slot s).fd = (c.slot s).fd) (fd : ℤ) :
    c'.find fd = c.find fd := by
  rw [Clients.find, Clients.find]
  congr 1
  funext s
  rw [h s]

/-- A descriptor of a table is a connection. -/
theorem Tables.connAt (h : d.Tables env) {s : SlotId} (hs : (d.clients.slot s).fd ≠ -1) :
    ∃ c, c < d.nextConn ∧ d.connAt (d.clients.slot s).fd = some c := by
  obtain ⟨c, hc, hdesc⟩ := h.conn s hs
  refine ⟨c, hc, ?_⟩
  rw [Daemon.connAt, hdesc]

theorem connAt_eq_some {fd : ℤ} {c : ℕ} : d.connAt fd = some c ↔ ∃ p, d.descs fd = some (.conn c p) := by
  rw [connAt]
  split
  next id p hdesc =>
    rw [hdesc]
    constructor
    · rintro h
      obtain rfl := Option.some.inj h
      exact ⟨p, rfl⟩
    · rintro ⟨p', h⟩
      cases h
      rfl
  next hne =>
    constructor
    · rintro ⟨⟩
    · rintro ⟨p, h⟩
      exact absurd h (hne c p)

/-- The slot of no client is that of no connection. -/
theorem Tables.connAt_neg (ht : d.Tables env) : d.connAt (-1) = none := by
  rw [Daemon.connAt, ht.descs]

/-- A connection has one slot. -/
theorem Tables.slot_unique (ht : d.Tables env) {s t : SlotId} {c : ℕ}
    (hs : d.connAt (d.clients.slot s).fd = some c) (ht' : d.connAt (d.clients.slot t).fd = some c) :
    s = t := by
  obtain ⟨p, hp⟩ := connAt_eq_some.mp hs
  obtain ⟨p', hp'⟩ := connAt_eq_some.mp ht'
  refine ht.wf.distinct s t (fun hneg => ?_) (ht.ids _ _ c p p' hp hp')
  rw [hneg, ht.connAt_neg] at hs
  cases hs

/-- A connection that is still there after a client was closed is another one. -/
theorem Tables.connAt_closeSlot (ht : d.Tables env) {s t : SlotId}
    (hs : (d.clients.slot s).fd ≠ -1) {c : ℕ}
    (hc : (d.closeSlot s).connAt ((d.closeSlot s).clients.slot t).fd = some c) :
    t ≠ s ∧ d.connAt (d.clients.slot t).fd = some c := by
  have hself := d.closeSlot_fd s
  obtain ⟨p, hp⟩ := connAt_eq_some.mp hc
  have hdesc : Function.update d.descs (d.clients.slot s).fd none
      ((d.closeSlot s).clients.slot t).fd = some (.conn c p) := hp
  have hts : t ≠ s := by
    rintro rfl
    rw [hself, Function.update_of_ne hs.symm, ht.descs] at hdesc
    cases hdesc
  have hother : (d.closeSlot s).clients.slot t = d.clients.slot t := d.closeSlot_of_ne hts
  refine ⟨hts, connAt_eq_some.mpr ⟨p, ?_⟩⟩
  rw [hother, Function.update_apply] at hdesc
  split at hdesc
  · cases hdesc
  · exact hdesc

/-- **A client is closed.** -/
theorem Tables.closeSlot (h : d.Tables env) {s : SlotId} (hs : (d.clients.slot s).fd ≠ -1) :
    (d.closeSlot s).Tables env := by
  have hself := d.closeSlot_fd s
  have hother : ∀ t, t ≠ s → (d.closeSlot s).clients.slot t = d.clients.slot t :=
    fun t ht => d.closeSlot_of_ne ht
  have hne : ∀ t, t ≠ s → (d.clients.slot t).fd ≠ (d.clients.slot s).fd :=
    fun t ht heq => ht (h.wf.distinct s t hs heq.symm).symm
  have hdesc : ∀ fd, (d.closeSlot s).descs fd =
      if fd = (d.clients.slot s).fd then none else d.descs fd := fun fd => Function.update_apply ..
  refine ⟨⟨?_, h.reading⟩, h.wf.free hs, fun t ht => ?_, fun fd c p hc => ?_,
    fun fd fd' c p p' hc hc' => ?_, fun hp => absurd (h.starting hp s) hs⟩
  · rw [hdesc]
    split
    · rfl
    · exact h.descs
  · have hts : t ≠ s := fun heq => ht (heq ▸ hself)
    rw [hother t hts] at ht ⊢
    obtain ⟨c, hc, hdt⟩ := h.conn t ht
    exact ⟨c, hc, by rw [hdesc, if_neg (hne t hts), hdt]⟩
  · rw [hdesc] at hc
    split at hc
    · cases hc
    next hfd =>
      obtain ⟨t, ht⟩ := h.slot fd c p hc
      have hts : t ≠ s := fun heq => hfd (by rw [← ht, heq])
      exact ⟨t, by rw [hother t hts, ht]⟩
  · rw [hdesc] at hc hc'
    split at hc
    · cases hc
    split at hc'
    · cases hc'
    · exact h.ids fd fd' c p p' hc hc'

theorem Tables.move {cause : Cause} (h : d.Tables env) (hm : Move env cause d d') :
    d'.Tables env := by
  cases hm with
  | x10 x => exact h.congr h.wf (fun _ => rfl) rfl rfl h.reading id
  | stamp => exact h.congr h.wf (fun _ => rfl) rfl rfl h.reading id
  | write buf => exact h.congr h.wf (fun _ => rfl) rfl rfl h.reading id
  | addressed fd bytes _ => exact h.congr h.wf (fun _ => rfl) rfl rfl h.reading id
  | queued s bytes hs => exact h.congr h.wf (fun _ => rfl) rfl rfl h.reading id
  | flushed s bytes ok hs _ => exact h.congr h.wf (fun _ => rfl) rfl rfl h.reading id
  | output s output hs _ =>
    exact h.congr (h.wf.set rfl) (fun t => setOutput_fd d s t output) rfl rfl h.reading id
  | close s hs _ => exact h.closeSlot hs
  | send fd bytes _ =>
    rw [sendAll]
    split
    · exact h.congr h.wf (fun _ => rfl) rfl rfl h.reading id
    · exact h.congr h.wf (fun _ => rfl) rfl rfl h.reading id

theorem Tables.moves {cause : Cause} (h : d.Tables env) (hm : Moves env cause d d') :
    d'.Tables env := Moves.invariant hm h fun _ _ ha hab => ha.move hab

theorem Tables.idle (h : d.Tables env) (hi : Idle d d') : d'.Tables env := by
  refine h.congr (hi.clients ▸ h.wf) (fun s => by rw [hi.clients]) hi.descs hi.nextConn ?_ ?_
  · intro l r hpc
    rcases hi.pc with heq | ⟨_, hne, _⟩
    · exact h.reading l r (heq ▸ hpc)
    · rw [hpc] at hne
      exact absurd rfl hne
  · intro hp
    rcases hi.pc with heq | ⟨_, _, hst⟩
    · rwa [heq] at hp
    · exact hst hp

theorem Tables.calm (h : d.Tables env) (hc : Calm env d d') : d'.Tables env := by
  induction hc with
  | refl => exact h
  | tail _ hab ih =>
    rcases hab with hi | hm
    · exact ih.idle hi
    · exact ih.move hm

/-- **A connection is accepted** on a descriptor that was free. -/
theorem Tables.addAccepted (h : d.Tables env) (hpc : d.pc.stage = .running) {fd : ℤ}
    (hfree : lowestFree d.descs fd = true) (kind : Kind) (nonblocking : Bool) :
    (d.addAccepted env kind fd nonblocking).Tables env := by
  obtain ⟨hpos, hnone⟩ := lowestFree_spec hfree
  have hread : ∀ l r, d.pc = .encode l r → r.fd ≠ -1 := h.reading
  rcases addAccepted_cases env d kind fd nonblocking with ⟨s, hs, heq⟩ | heq
  · obtain ⟨hkind, hempty⟩ := Clients.firstFree_spec hs
    have hne : fd ≠ -1 := by omega
    have hnew : ∀ t, (d.clients.slot t).fd ≠ fd := by
      rintro t ht
      obtain ⟨c, _, hdesc⟩ := h.conn t (ht ▸ hne)
      rw [ht, hnone] at hdesc
      cases hdesc
    have hself : ((d.clients.take s fd).slot s).fd = fd := congrArg Slot.fd (Clients.set_slot_self ..)
    have hother : ∀ t, t ≠ s → (d.clients.take s fd).slot t = d.clients.slot t :=
      fun t ht => Clients.set_slot_of_ne d.clients _ ht
    rw [heq]
    refine ⟨⟨?_, hread⟩, h.wf.take hempty hne hnew, fun t ht => ?_, fun fd' c p hc => ?_,
      fun fd₁ fd₂ c p p' hc hc' => ?_, fun hp => ?_⟩
    · exact (Function.update_of_ne hne.symm ..).trans h.descs
    · rcases eq_or_ne t s with rfl | hts
      · refine ⟨d.nextConn, Nat.lt_succ_self _, ?_⟩
        show Function.update d.descs fd _ ((d.clients.take t fd).slot t).fd = _
        rw [hself, Function.update_self, hkind]
      · show ∃ c, c < d.nextConn + 1 ∧ Function.update d.descs fd _ _ = _
        have ht' : (d.clients.slot t).fd ≠ -1 := by
          rw [← hother t hts]
          exact ht
        obtain ⟨c, hc, hdesc⟩ := h.conn t ht'
        refine ⟨c, Nat.lt_succ_of_lt hc, ?_⟩
        rw [hother t hts, Function.update_of_ne (hnew t), hdesc]
    · show ∃ t, ((d.clients.take s fd).slot t).fd = fd'
      rcases eq_or_ne fd' fd with rfl | hfd
      · exact ⟨s, hself⟩
      · have hold : d.descs fd' = some (.conn c p) := (Function.update_of_ne hfd ..).symm.trans hc
        obtain ⟨t, ht⟩ := h.slot fd' c p hold
        have hts : t ≠ s := by
          rintro rfl
          rw [hempty] at ht
          rw [← ht, h.descs] at hold
          cases hold
        exact ⟨t, by rw [hother t hts, ht]⟩
    · have hnext : ∀ fd' c p, d.descs fd' = some (.conn c p) → c < d.nextConn := by
        intro fd' c p hc
        obtain ⟨t, ht⟩ := h.slot fd' c p hc
        have htne : (d.clients.slot t).fd ≠ -1 := by
          intro hcon
          rw [← ht, hcon, h.descs] at hc
          cases hc
        obtain ⟨c', hc', hdesc⟩ := h.conn t htne
        rw [ht, hc] at hdesc
        cases hdesc
        exact hc'
      have hold : ∀ x c p, x ≠ fd → Function.update d.descs fd
          (some (.conn d.nextConn (kind.port env.config))) x = some (.conn c p) →
          d.descs x = some (.conn c p) :=
        fun x c p hx hc => (Function.update_of_ne hx ..).symm.trans hc
      have hlast : ∀ c p, Function.update d.descs fd
          (some (.conn d.nextConn (kind.port env.config))) fd = some (.conn c p) →
          c = d.nextConn := by
        intro c p hc
        rw [Function.update_self] at hc
        cases hc
        rfl
      rcases eq_or_ne fd₁ fd with rfl | h₁
      · rcases eq_or_ne fd₂ fd₁ with rfl | h₂
        · rfl
        · have := hnext _ _ _ (hold _ _ _ h₂ hc')
          rw [hlast _ _ hc] at this
          exact absurd this (Nat.lt_irrefl _)
      · rcases eq_or_ne fd₂ fd with rfl | h₂
        · have := hnext _ _ _ (hold _ _ _ h₁ hc)
          rw [hlast _ _ hc'] at this
          exact absurd this (Nat.lt_irrefl _)
        · exact h.ids fd₁ fd₂ c p p' (hold _ _ _ h₁ hc) (hold _ _ _ h₂ hc')
    · rw [show ({ d with
          clients := d.clients.take s fd
          descs := Function.update d.descs fd (some (.conn d.nextConn (kind.port env.config)))
          nextConn := d.nextConn + 1
          log := .accepted d.nextConn fd kind :: d.log } : Daemon).pc = d.pc from rfl, hpc] at hp
      cases hp
  · rw [heq]
    refine ⟨⟨h.descs, hread⟩, h.wf, fun t ht => ?_, h.slot, h.ids, h.starting⟩
    obtain ⟨c, hc, hdesc⟩ := h.conn t ht
    exact ⟨c, Nat.lt_succ_of_lt hc, hdesc⟩

/-- **The listeners are created**, when there is no client yet. -/
theorem Tables.createListeners (h : d.Tables env) (hpc : d.pc = .initialised) {main xml or20 : ℤ}
    (hl : d.doCreateListeners env main xml or20 = some d') : d'.Tables env := by
  have hfree : ∀ s, (d.clients.slot s).fd = -1 := h.starting (by rw [hpc]; rfl)
  have hnone : ∀ fd c p, d.descs fd ≠ some (.conn c p) := by
    intro fd c p hc
    obtain ⟨s, hs⟩ := h.slot fd c p hc
    rw [← hs, hfree s, h.descs] at hc
    cases hc
  have hopen : ∀ (descs : ℤ → Option Desc) (fd : ℤ) (port : ℕ),
      descs (-1) = none → (∀ x c p, descs x ≠ some (.conn c p)) →
      openListener descs fd port (-1) = none ∧
        ∀ x c p, openListener descs fd port x ≠ some (.conn c p) := by
    intro descs fd port hneg hconn
    rw [openListener]
    split
    · exact ⟨hneg, hconn⟩
    · refine ⟨?_, fun x c p hx => ?_⟩
      · rw [Function.update_of_ne (by omega), hneg]
      · rcases eq_or_ne x fd with rfl | hne
        · rw [Function.update_self] at hx
          cases hx
        · rw [Function.update_of_ne hne] at hx
          exact hconn x c p hx
  obtain ⟨h₁, c₁⟩ := hopen d.descs main env.config.serverPort h.descs hnone
  obtain ⟨h₂, c₂⟩ := hopen _ xml env.config.xmlPort h₁ c₁
  obtain ⟨h₃, c₃⟩ := hopen _ or20 env.config.openremotePort h₂ c₂
  simp only [doCreateListeners] at hl
  split at hl
  · split at hl
    · obtain rfl := Option.some.inj hl
      exact ⟨⟨h₃, fun l r hp => (nomatch hp)⟩, h.wf, fun s hs => absurd (hfree s) hs,
        fun fd c p hc => absurd hc (c₃ fd c p), fun fd _ c p _ hc => absurd hc (c₃ fd c p),
        fun hp => (nomatch hp)⟩
    · obtain rfl := Option.some.inj hl
      exact ⟨⟨h₃, fun l r hp => (nomatch hp)⟩, Clients.initial_wf, fun s hs => absurd rfl hs,
        fun fd c p hc => absurd hc (c₃ fd c p), fun fd _ c p _ hc => absurd hc (c₃ fd c p),
        fun hp => (nomatch hp)⟩
  · cases hl

/-- **A byte is taken**: the splitter's state is no business of the tables. -/
theorem Tables.afterByte (h : d.Tables env) {l : ServiceLoop} {r : Reading}
    (hpc : d.pc = .encode l r) (b : UInt8) (rest : Bytes) : (d.afterByte l r b rest).Tables env := by
  refine h.congr (h.wf.set rfl) (fun t => setState_fd d r.slot t _) rfl rfl (fun l' r' hp => ?_)
    (fun hp => nomatch hp)
  obtain ⟨rfl, rfl⟩ := Pc.encode.inj hp
  exact h.reading l r hpc

/-- **Every step keeps the tables.** -/
theorem Tables.step (h : d.Tables env) {label : Label} (hs : d.step env label = some d') :
    d'.Tables env := by
  rcases step_kind h.descs h.wf hs with hc | ⟨fd, desc, hold, hnew, hneg, rfl⟩ |
    ⟨main, xml, or20, hpc, hl⟩ | ⟨snap, nready, kind, fd, nb, hpc, hready, hfree, rfl⟩ |
    ⟨d₁, l, r, hpc, hc, hpc₁, hfd, hslot, hconn, hrem, rfl⟩ | ⟨l, r, hpc, hb⟩ | ⟨l, r, hpc, he⟩
  · exact h.calm hc
  · -- the descriptor is no connection, before or after
    have hkept : ∀ x c p, Function.update d.descs fd desc x = some (.conn c p) ↔
        d.descs x = some (.conn c p) := by
      intro x c p
      rcases eq_or_ne x fd with rfl | hx
      · rw [Function.update_self]
        exact iff_of_false (hnew c p) (hold c p)
      · rw [Function.update_of_ne hx]
    refine ⟨⟨?_, h.reading⟩, h.wf, fun s hs => ?_, fun x c p hx => h.slot x c p ((hkept x c p).mp hx),
      fun x y c p p' hx hy => h.ids x y c p p' ((hkept x c p).mp hx) ((hkept y c p').mp hy),
      h.starting⟩
    · rcases eq_or_ne fd (-1) with rfl | hx
      · show Function.update d.descs (-1) desc (-1) = none
        rw [Function.update_self, hneg rfl]
      · exact (Function.update_of_ne hx.symm ..).trans h.descs
    · obtain ⟨c, hc, hdesc⟩ := h.conn s hs
      exact ⟨c, hc, (hkept _ c _).mpr hdesc⟩
  · exact h.createListeners hpc hl
  · have hrun : d.pc.stage = .running := by rw [hpc]; rfl
    rw [← addAccepted_pc env d kind fd nb] at hrun
    exact (h.addAccepted (by rw [hpc]; rfl) hfree kind nb).idle
      (idle_afterAccept hrun snap nready kind)
  · refine (h.calm hc).congr (h.calm hc).wf (fun _ => rfl) rfl rfl (fun l' r' hp => ?_)
      (fun hp => by cases hp)
    obtain ⟨rfl, rfl⟩ := Pc.encode.inj hp
    exact hfd
  · obtain ⟨b, rest, _, hcase⟩ := doByte_cases hb
    have hafter : (d.afterByte l r b rest).Tables env := h.afterByte hpc b rest
    rcases hcase with ⟨_, rfl⟩ | ⟨line, _, rfl⟩
    · exact hafter
    · exact (hafter.record _).moves
        (runLine_moves hafter.descs hafter.wf (h.reading l r hpc) line)
  · obtain ⟨_, rfl⟩ := doEncoded_eq he
    have hstate : ∀ state, (d.setState r.slot state).Tables env := fun state =>
      h.congr (h.wf.set rfl) (fun t => setState_fd d r.slot t state) rfl rfl h.reading id
    generalize EncodeState.mk _ _ _ _ = state
    have hs := hstate state
    simp only [counted]
    split
    · exact hs.congr hs.wf (fun _ => rfl) rfl rfl (fun _ _ hp => by cases hp)
        (fun hp => by cases hp)
    · exact hs.congr hs.wf (fun _ => rfl) rfl rfl (fun _ _ hp => by cases hp)
        (fun hp => by cases hp)

theorem initial_tables (env : Env) : (initial env).Tables env where
  descs := rfl
  reading := fun _ _ hp => nomatch hp
  wf := Clients.initial_wf
  conn := fun s hs => absurd rfl hs
  slot := fun fd c p hc => by
    simp only [initial] at hc
    split at hc
    · cases hc
    · cases hc
  ids := fun fd _ c p _ hc => by
    simp only [initial] at hc
    split at hc
    · cases hc
    · cases hc
  starting := fun _ _ => rfl

/-- **In every reachable state the tables hold the open connections.** -/
theorem Reachable.tables (h : Reachable env d) : d.Tables env :=
  Transition.Run.invariant h (initial_tables env) fun _ _ _ hi _ hs => hi.step hs

end Daemon

end Mochad
