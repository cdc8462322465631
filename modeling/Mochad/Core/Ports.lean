import Mochad.Core.Tables

/-!
# Telling OpenRemote clients by their port

The tables say which listener a client came from. The interpreter does not ask them: for
it a client is an OpenRemote client if its local port is the configured one
(`Daemon.or20client`).

The two agree when the listeners have different ports (`Daemon.or20client_agrees_iff`). But
validation compares the ports of enabled listeners only, so that the port of a disabled
OpenRemote listener may be that of another one, whose clients are then taken for
OpenRemote clients.
-/

namespace Mochad

/-- The listener of a kind is enabled. -/
def Kind.enabled (config : MochadConfig) : Kind → Bool
  | .main => true
  | .xml => config.xmlEnabled
  | .or20 => config.openremoteEnabled

/-- The port of OpenRemote is that of no other listener that is enabled. -/
def PortApart (config : MochadConfig) : Prop :=
  config.openremoteEnabled = true ∨ (config.openremotePort ≠ config.serverPort ∧
    (config.xmlEnabled = true → config.openremotePort ≠ config.xmlPort))

namespace Daemon

variable {env : Env} {d d' : Daemon}

/-- **Clients come from enabled listeners.** -/
structure Listening (env : Env) (d : Daemon) : Prop where
  listenfd : ∀ kind, 0 ≤ d.listenfd kind → kind.enabled env.config = true
  slot : ∀ s, (d.clients.slot s).fd ≠ -1 → s.1.enabled env.config = true

theorem Listening.move {cause : Cause} (h : d.Listening env) (hm : Move env cause d d') :
    d'.Listening env := by
  have hlisten : d'.listenfd = d.listenfd := congrArg (fun f => f.1.2.2) hm.frame_eq
  refine ⟨hlisten ▸ h.listenfd, fun s hs => ?_⟩
  rcases hm.fd s with hfd | hfd
  · exact h.slot s (hfd ▸ hs)
  · exact absurd hfd hs

theorem Listening.idle (h : d.Listening env) (hi : Idle d d') : d'.Listening env := by
  refine ⟨hi.listenfd ▸ h.listenfd, fun s hs => ?_⟩
  rw [hi.clients] at hs
  exact h.slot s hs

theorem Listening.calm (h : d.Listening env) (hc : Calm env d d') : d'.Listening env := by
  induction hc with
  | refl => exact h
  | tail _ hab ih =>
    rcases hab with hi | hm
    · exact ih.idle hi
    · exact ih.move hm

/-- A slot that keeps its descriptor. -/
theorem Listening.congr (h : d.Listening env) (hlisten : d'.listenfd = d.listenfd)
    (hfd : ∀ s, (d'.clients.slot s).fd = (d.clients.slot s).fd) : d'.Listening env := by
  refine ⟨hlisten ▸ h.listenfd, fun s hs => ?_⟩
  rw [hfd] at hs
  exact h.slot s hs

/-- **A client is accepted** by a listener that is there. -/
theorem Listening.addAccepted (h : d.Listening env) {snap : Snapshot} {kind : Kind}
    (hready : d.listenerReady snap kind = true) (fd : ℤ) (nonblocking : Bool) :
    (d.addAccepted env kind fd nonblocking).Listening env := by
  have henabled : kind.enabled env.config = true := by
    simp only [listenerReady, Bool.and_eq_true, Bool.or_eq_true, decide_eq_true_eq] at hready
    rcases hready.1 with rfl | hpos
    · rfl
    · exact h.listenfd kind hpos
  rcases addAccepted_cases env d kind fd nonblocking with ⟨s, hs, heq⟩ | heq
  · obtain ⟨hkind, _⟩ := Clients.firstFree_spec hs
    rw [heq]
    refine ⟨h.listenfd, fun t ht => ?_⟩
    rcases eq_or_ne t s with rfl | hts
    · rw [hkind]
      exact henabled
    · have hother : (d.clients.take s fd).slot t = d.clients.slot t :=
        Clients.set_slot_of_ne d.clients _ hts
      have hlive : ((d.clients.take s fd).slot t).fd ≠ -1 := ht
      rw [hother] at hlive
      exact h.slot t hlive
  · rw [heq]
    exact h.congr rfl fun _ => rfl

/-- **The listeners are created**, if they are enabled. -/
theorem Listening.createListeners (h : d.Listening env) {main xml or20 : ℤ}
    (hl : d.doCreateListeners env main xml or20 = some d') : d'.Listening env := by
  have hopen : ∀ descs enabled fd, listenerOk descs enabled fd = true → 0 ≤ fd →
      enabled = true := by
    intro descs enabled fd hok hpos
    simp only [listenerOk, Bool.or_eq_true, Bool.and_eq_true, decide_eq_true_eq] at hok
    rcases hok with rfl | hok
    · exact absurd hpos (by decide)
    · exact hok.1
  simp only [doCreateListeners] at hl
  split at hl
  next hok =>
    simp only [Bool.and_eq_true] at hok
    have hkinds : ∀ kind : Kind, 0 ≤ (match kind with
        | .main => main
        | .xml => xml
        | .or20 => or20) → kind.enabled env.config = true := by
      intro kind hpos
      cases kind with
      | main => rfl
      | xml => exact hopen _ _ _ hok.1.2 hpos
      | or20 => exact hopen _ _ _ hok.2 hpos
    split at hl
    · obtain rfl := Option.some.inj hl
      exact ⟨hkinds, h.slot⟩
    · obtain rfl := Option.some.inj hl
      exact ⟨hkinds, fun s hs => absurd rfl hs⟩
  · cases hl

/-- **Every step keeps it so.** -/
theorem Listening.step (h : d.Listening env) (ht : d.Tables env) {label : Label}
    (hs : d.step env label = some d') : d'.Listening env := by
  rcases step_kind ht.descs ht.wf hs with hc | ⟨fd, desc, _, _, _, rfl⟩ |
    ⟨main, xml, or20, hpc, hl⟩ | ⟨snap, nready, kind, fd, nb, hpc, hready, hfree, rfl⟩ |
    ⟨d₁, l, r, hpc, hc, hpc₁, hfd, hslot, hconn, hrem, rfl⟩ | ⟨l, r, hpc, hb⟩ | ⟨l, r, hpc, he⟩
  · exact h.calm hc
  · exact h.congr rfl fun _ => rfl
  · exact h.createListeners hl
  · have hrun : (d.addAccepted env kind fd nb).pc.stage = .running := by
      rw [addAccepted_pc, hpc]
      rfl
    exact (h.addAccepted hready fd nb).idle (idle_afterAccept hrun snap nready kind)
  · exact (h.calm hc).congr rfl fun _ => rfl
  · obtain ⟨b, rest, _, ⟨_, rfl⟩ | ⟨line, _, rfl⟩⟩ := doByte_cases hb
    · exact h.congr rfl fun t => setState_fd d r.slot t _
    · have hafter := ht.afterByte hpc b rest
      have hmoves : Moves env _ _ _ := runLine_moves hafter.descs hafter.wf (ht.reading l r hpc) line
      have hcommand : ((d.afterByte l r b rest).record (.command r.conn r.fd line)).Listening env :=
        h.congr rfl fun t => setState_fd d r.slot t _
      exact Moves.invariant (P := Listening env) hmoves hcommand fun _ _ ha hab => ha.move hab
  · obtain ⟨_, rfl⟩ := doEncoded_eq he
    generalize EncodeState.mk _ _ _ _ = state
    simp only [counted]
    split
    · exact h.congr rfl fun t => setState_fd d r.slot t state
    · exact h.congr rfl fun t => setState_fd d r.slot t state

theorem Reachable.listening (h : Reachable env d) : d.Listening env := by
  have hinit : (initial env).Listening env :=
    ⟨fun _ hpos => absurd hpos (by simp [initial]), fun _ hs => absurd rfl hs⟩
  exact Transition.Run.invariant_along h hinit fun _ _ _ hr hi _ hs =>
    hi.step (Reachable.tables hr) hs

/-- **The port of a client says what its table says**, when the ports are apart. -/
theorem or20client_iff (h : Reachable env d)
    {getaddrinfo : Bytes → Port → Bool} (hv : mochadConfigValidate getaddrinfo env.config = .ok ())
    (hports : PortApart env.config) {s : SlotId} (hs : (d.clients.slot s).fd ≠ -1) :
    d.or20client env (d.clients.slot s).fd = true ↔ s.1 = .or20 := by
  obtain ⟨c, _, hdesc⟩ := (Reachable.tables h).conn s hs
  have henabled := (Reachable.listening h).slot s hs
  obtain ⟨hmx, hmo, hxo⟩ := ports_of_validate hv
  have hport : d.or20client env (d.clients.slot s).fd = true ↔
      s.1.port env.config = env.config.openremotePort := by
    rw [or20client, hdesc]
    exact decide_eq_true_iff
  rw [hport]
  obtain ⟨kind, i⟩ := s
  cases kind with
  | main =>
    refine iff_of_false (fun heq => ?_) (by simp)
    have hsame : env.config.serverPort = env.config.openremotePort := Subtype.ext heq
    rcases hports with ho | ⟨hne, _⟩
    · exact hmo ho hsame
    · exact hne hsame.symm
  | xml =>
    refine iff_of_false (fun heq => ?_) (by simp)
    have hsame : env.config.xmlPort = env.config.openremotePort := Subtype.ext heq
    rcases hports with ho | ⟨_, hne⟩
    · exact hxo henabled ho hsame
    · exact hne henabled hsame.symm
  | or20 => exact iff_of_true rfl rfl

/-! ### A client of any listener -/

/-- Where there is no client, none has stalled. -/
theorem disconnectStalledClients_of_initial (hd : d.clients = .initial) (now : ℕ) :
    d.disconnectStalledClients now = d := by
  rw [disconnectStalledClients]
  generalize Clients.slotOrder = ss
  induction ss with
  | nil => rfl
  | cons s ss ih =>
    have hnot : stalled now (d.clients.slot s) = false := by
      rw [hd]
      rfl
    rw [List.foldl_cons, hnot]
    exact ih

theorem occupied_initial : Clients.initial.occupied = [] := by decide

/-- `Pollfds` then lists the listeners only. -/
theorem layout_of_initial (husb : d.usbPollfds = []) (hclients : d.clients = .initial) :
    d.layout = ⟨[.main, .xml, .or20].map d.listenerEntry, 3, 0⟩ := by
  have htotal : Clients.initial.total = 0 := rfl
  rw [layout, copyClients, husb, hclients, occupied_initial, htotal]
  rfl

/-- What `poll()` reports when the listener of a kind is ready. -/
def readyAt (kind : Kind) : List Revents :=
  [.main, .xml, .or20].map fun k => if k = kind then ⟨true, false, false, false⟩ else .none

/-- The listener that is ready is found ready, and no other. -/
theorem listenerReady_readyAt {snap : Snapshot}
    (hsnap : snap.entries = [.main, .xml, .or20].map d.listenerEntry) {kind : Kind}
    (hlisten : 0 ≤ d.listenfd kind) {a : Daemon} (ha : a.listenfd = d.listenfd) (k : Kind) :
    a.listenerReady (snap.report (readyAt kind)) k = decide (k = kind) := by
  have hentries : (snap.report (readyAt kind)).entries =
      [.main, .xml, .or20].map fun k : Kind => { d.listenerEntry k with
        revents := if k = kind then ⟨true, false, false, false⟩ else .none } := by
    rw [Snapshot.report, hsnap, readyAt]
    rfl
  rw [listenerReady, hentries, ha]
  rcases eq_or_ne k kind with rfl | hne
  · cases k <;> simp [Kind.index, hlisten]
  · cases k <;> simp [Kind.index, hne, Revents.none]

/-- A listener that is passed over. -/
theorem notReady_step {snap : Snapshot} {nready : ℤ} {kind : Kind}
    (hpc : d.pc = .listen snap nready kind) (h : d.listenerReady snap kind = false) :
    Transition.Step (step env) Transition.Free d (d.afterListener snap nready kind) := by
  refine ⟨.notReady, trivial, ?_⟩
  simp only [step, hpc, doNotReady, h]
  rfl

/-- The first client. -/
theorem accept_step {snap : Snapshot} {kind : Kind} (hpc : d.pc = .listen snap 1 kind)
    (h : d.listenerReady snap kind = true) (hclients : d.clients = .initial) {fd : ℤ}
    (hfree : lowestFree d.descs fd = true) :
    ∃ d', Transition.Step (step env) Transition.Free d d' ∧
      (d'.clients.slot (kind, 0)).fd = fd ∧
        d'.descs fd = some (.conn d.nextConn (kind.port env.config)) := by
  have hfirst : Clients.initial.firstFree kind = some (kind, 0) := by cases kind <;> rfl
  have hadd : d.clients.add kind fd true = some (d.clients.take (kind, 0) fd) := by
    rw [Clients.add, hclients, hfirst]
    rfl
  refine ⟨(d.addAccepted env kind fd true).afterAccept snap 1 kind, ⟨.accept fd true, trivial, ?_⟩,
    ?_, ?_⟩
  · simp only [step, hpc, doAccept, h, hfree]
    rfl
  · rw [afterAccept, addAccepted, hadd]
    exact congrArg Slot.fd (Clients.set_slot_self ..)
  · rw [afterAccept, addAccepted, hadd]
    exact Function.update_self ..

/-- **A daemon without clients can accept one** from any of its listeners. -/
theorem accept_first (hpc : d.pc = .top) (hexit : d.usb.io.doExit = 0)
    (herr : d.usbPollfdError = false) (husb : d.usbPollfds = []) (hclients : d.clients = .initial)
    {kind : Kind} (hlisten : 0 ≤ d.listenfd kind) {fd : ℤ} (hfree : lowestFree d.descs fd = true) :
    ∃ d', Transition.Run (step env) Transition.Free d d' ∧ (d'.clients.slot (kind, 0)).fd = fd ∧
      d'.descs fd = some (.conn d.nextConn (kind.port env.config)) := by
  let snap : Snapshot := ⟨[.main, .xml, .or20].map d.listenerEntry, 3, 0⟩
  let d₁ : Daemon := { d.usbRecord .pollStarted with
    pc := .polling snap (combinedPollTimeoutMs d.usb.queue.pollTimeOut none) }
  let d₂ : Daemon := { d₁.usbRecord (.pollReturned 1) with
    pc := .events (snap.report (readyAt kind)) 1 }
  have hlayOut : d.step env (.layOut none) = some d₁ := by
    simp only [step, hpc, doLayOut, hexit, herr, layout_of_initial husb hclients]
    rfl
  have hpolled : d₁.step env (.pollReturned (readyAt kind) 0) = some d₂ := by
    have hnready : ((readyAt kind).filter Revents.any).length = 1 := by cases kind <;> rfl
    have hok : (List.zipWith reventsOk snap.entries (readyAt kind)).all id = true := by
      cases kind <;> simp [snap, readyAt, reventsOk, listenerEntry, Revents.none, hlisten]
    have hlength : (readyAt kind).length = snap.entries.length := rfl
    have hstays : (d₁.usbRecord (.pollReturned 1)).disconnectStalledClients 0 =
        d₁.usbRecord (.pollReturned 1) :=
      disconnectStalledClients_of_initial (d := d₁.usbRecord (.pollReturned 1)) hclients 0
    simp only [step, d₁, doPollReturned, hnready]
    rw [if_pos ⟨hlength, hok, fun h0 => absurd h0 one_ne_zero⟩]
    exact congrArg (fun e : Daemon => some { e with
      pc := .events (snap.report (readyAt kind)) 1 }) hstays
  let d₃ : Daemon := { d₂ with pc := .listen (snap.report (readyAt kind)) 1 .main }
  have hhandled : d₂.step env .handled = some d₃ := by
    simp only [step, d₂, doHandled]
    rfl
  have hstart : Transition.Run (step env) Transition.Free d d₃ :=
    ((Relation.ReflTransGen.single ⟨_, trivial, hlayOut⟩).tail ⟨_, trivial, hpolled⟩).tail
      ⟨_, trivial, hhandled⟩
  have hready : ∀ a : Daemon, a.listenfd = d.listenfd → ∀ k,
      a.listenerReady (snap.report (readyAt kind)) k = decide (k = kind) :=
    fun a ha k => listenerReady_readyAt rfl hlisten ha k
  -- the listeners before that one are passed over
  obtain ⟨a, hrun, hpca, hlistena, hclientsa, hdescs, hnext⟩ :
      ∃ a, Transition.Run (step env) Transition.Free d a ∧
        a.pc = .listen (snap.report (readyAt kind)) 1 kind ∧ a.listenfd = d.listenfd ∧
        a.clients = .initial ∧ a.descs = d.descs ∧ a.nextConn = d.nextConn := by
    cases kind with
    | main => exact ⟨_, hstart, rfl, rfl, hclients, rfl, rfl⟩
    | xml =>
      have hmain : Transition.Step (step env) Transition.Free d₃ _ :=
        notReady_step rfl (hready d₃ rfl .main)
      exact ⟨_, hstart.tail hmain, rfl, rfl, hclients, rfl, rfl⟩
    | or20 =>
      have hmain : Transition.Step (step env) Transition.Free d₃ (d₃.afterListener _ 1 .main) :=
        notReady_step rfl (hready d₃ rfl .main)
      have hxml : Transition.Step (step env) Transition.Free (d₃.afterListener _ 1 .main) _ :=
        notReady_step rfl (hready _ rfl .xml)
      exact ⟨_, (hstart.tail hmain).tail hxml, rfl, rfl, hclients, rfl, rfl⟩
  obtain ⟨d', hstep, hfd, hdesc⟩ := accept_step hpca ((hready a hlistena kind).trans (by simp))
    hclientsa (hdescs ▸ hfree : lowestFree a.descs fd = true)
  exact ⟨d', hrun.tail hstep, hfd, hnext ▸ hdesc⟩

/-- A daemon before its first iteration, if OpenRemote is disabled. -/
theorem exists_started (config : MochadConfig) (hor20 : config.openremoteEnabled = false) :
    ∃ d, Reachable (.plain config false) d ∧ (d.pc = .top ∧ d.usb.io.doExit = 0 ∧
      d.usbPollfdError = false ∧ d.usbPollfds = [] ∧ d.clients = .initial ∧
      0 ≤ d.listenfd .main ∧ (config.xmlEnabled = true → 0 ≤ d.listenfd .xml) ∧
      ∃ fd, lowestFree d.descs fd = true) := by
  obtain ⟨_, _, _, _, xml, or20, _, _, _, _⟩ := config
  obtain rfl : or20 = false := hor20
  have hmain : (0 : ℤ) ≤ 3 := by decide
  have hxml : (0 : ℤ) ≤ 4 := by decide
  cases xml with
  | false =>
    exact Transition.exists_run_of_exec [.startTransfers, .initcm1Xa, .createListeners 3 (-1) (-1)]
      ⟨_, rfl, rfl, rfl, rfl, rfl, rfl, hmain, nofun, 4, rfl⟩
  | true =>
    exact Transition.exists_run_of_exec [.startTransfers, .initcm1Xa, .createListeners 3 4 (-1)]
      ⟨_, rfl, rfl, rfl, rfl, rfl, rfl, hmain, fun _ => hxml, 5, rfl⟩

/-- **A client of another listener** that has OpenRemote's port is taken for an
OpenRemote client. -/
theorem exists_mistaken (config : MochadConfig) (hor20 : config.openremoteEnabled = false)
    (kind : Kind) (henabled : kind.enabled config = true)
    (hport : kind.port config = config.openremotePort) :
    ∃ d, Reachable (.plain config false) d ∧ (d.clients.slot (kind, 0)).fd ≠ -1 ∧
      d.or20client (.plain config false) (d.clients.slot (kind, 0)).fd = true ∧ kind ≠ .or20 := by
  obtain ⟨d, hd, hpc, hexit, herr, husb, hclients, hmain, hxml, fd, hfree⟩ :=
    exists_started config hor20
  have hlisten : 0 ≤ d.listenfd kind ∧ kind ≠ .or20 := by
    cases kind with
    | main => exact ⟨hmain, by simp⟩
    | xml => exact ⟨hxml henabled, by simp⟩
    | or20 => exact absurd (hor20.symm.trans henabled) (by simp)
  obtain ⟨d', hrun, hfd, hdesc⟩ := accept_first hpc hexit herr husb hclients hlisten.1 hfree
  refine ⟨d', Relation.ReflTransGen.trans hd hrun, ?_, ?_, hlisten.2⟩
  · have hpos := (lowestFree_spec hfree).1
    rw [hfd]
    omega
  · rw [hfd, or20client, hdesc]
    exact decide_eq_true hport

/-- **The port and the table of every client agree exactly if the ports are apart.** -/
theorem or20client_agrees_iff {getaddrinfo : Bytes → Port → Bool} {config : MochadConfig}
    (hv : mochadConfigValidate getaddrinfo config = .ok ()) :
    (∀ env d s, env.config = config → Reachable env d → (d.clients.slot s).fd ≠ -1 →
      (d.or20client env (d.clients.slot s).fd = true ↔ s.1 = .or20)) ↔ PortApart config := by
  constructor
  · intro hall
    have hagree : ∀ kind : Kind, kind.enabled config = true → config.openremoteEnabled = false →
        kind.port config ≠ config.openremotePort := by
      intro kind henabled hor20 hport
      obtain ⟨d, hd, hlive, hor, hkind⟩ := exists_mistaken config hor20 kind henabled hport
      exact hkind ((hall _ d _ rfl hd hlive).mp hor)
    by_cases hor20 : config.openremoteEnabled = true
    · exact Or.inl hor20
    · have hoff := Bool.eq_false_iff.mpr hor20
      refine Or.inr ⟨fun heq => ?_, fun hx heq => ?_⟩
      · exact hagree .main rfl hoff (congrArg Subtype.val heq.symm)
      · exact hagree .xml hx hoff (congrArg Subtype.val heq.symm)
  · rintro hports env d s rfl hd hlive
    exact or20client_iff hd hv hports hlive

/-- The default ports are apart, so that every client is taken for what it is. -/
theorem or20client_agrees_defaults :
    PortApart mochadConfigDefaults ∧
      ∀ env d s, env.config = mochadConfigDefaults → Reachable env d →
        (d.clients.slot s).fd ≠ -1 →
          (d.or20client env (d.clients.slot s).fd = true ↔ s.1 = .or20) := by
  have hports : PortApart mochadConfigDefaults := Or.inl rfl
  exact ⟨hports,
    (@or20client_agrees_iff (fun _ _ => true) mochadConfigDefaults rfl).mpr hports⟩

/-- **A client of the main listener can be taken for an OpenRemote client**: OpenRemote is
disabled, and its port is the server's. -/
theorem main_client_mistaken :
    ¬ ∀ getaddrinfo config, mochadConfigValidate getaddrinfo config = .ok () →
      ∀ env d s, env.config = config → Reachable env d → (d.clients.slot s).fd ≠ -1 →
        (d.or20client env (d.clients.slot s).fd = true ↔ s.1 = .or20) := by
  intro hall
  let config : MochadConfig :=
    { mochadConfigDefaults with openremoteEnabled := false, openremotePort := ⟨1099, by decide⟩ }
  obtain ⟨d, hd, hlive, hor, hkind⟩ := exists_mistaken config rfl .main rfl rfl
  exact hkind ((hall (fun _ _ => true) config rfl _ d _ rfl hd hlive).mp hor)

end Daemon

end Mochad
