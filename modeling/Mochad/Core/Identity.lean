import Mochad.Core.Iteration

/-!
# Whose descriptor it is

`Pollfds` names connections by descriptor, and the service loop acts on it at the end of the
iteration. By then a client may have been closed – for stalling, or because its queue
overflowed while libusb handled its events – and `accept()` may have returned its number for
another connection, which is then taken for the client that was polled.

`Daemon.KeepsNumbers` is what a step must meet for this not to happen: the number of a record
that was reported on, and that the service loop has not come to yet, is not given away. In
every run of such steps the service loop acts on the connection that was polled, or on a
closed descriptor (`Daemon.identified`).
-/

namespace Mochad

/-- A record that was laid out for a client. -/
def Owner.isClient : Owner → Bool
  | .client _ => true
  | _ => false

namespace Daemon

/-- **The records that the service loop may still come to.** -/
def ahead (d : Daemon) : List PollEntry :=
  match d.pc with
  | .events snap _ => snap.entries.drop 3
  | .listen snap _ _ => snap.entries.drop (3 + d.usbPollfds.length)
  | .serve l => l.snap.entries.drop l.i
  | .encode l _ => l.snap.entries.drop (l.i + 1)
  | _ => []

/-- **The descriptor of a record is what it was laid out for.** -/
def Held (d : Daemon) (e : PollEntry) : Prop :=
  match e.owner with
  | .client conn => ∃ c, conn = some c ∧ d.connAt e.fd = some c
  | _ => d.connAt e.fd = none

/-- **It still is, or it is closed.** -/
def Fits (d : Daemon) (e : PollEntry) : Prop :=
  d.Held e ∨ (e.owner.isClient = true ∧ d.descs e.fd = none)

/-- **No number of a record that is still to be served is given away.** A connection that is
turned away is closed at once. -/
def KeepsNumbers (d : Daemon) : Label → Prop
  | .accept fd nonblocking => match d.pc with
    | .listen _ _ kind => (d.clients.add kind fd nonblocking).isNone = true ∨
        ∀ e ∈ d.ahead, e.ready = true → e.fd ≠ fd
    | _ => True
  | .otherOpened fd => ∀ e ∈ d.ahead, e.ready = true → e.owner.isClient = true → e.fd ≠ fd
  | _ => True

variable {env : Env} {d d' : Daemon} {e : PollEntry}

instance (d : Daemon) (label : Label) : Decidable (d.KeepsNumbers label) := by
  unfold KeepsNumbers
  split
  · split
    · infer_instance
    · infer_instance
  · infer_instance
  · infer_instance

/-! ### Descriptors that stay what they are -/

/-- Where the descriptor is the same. -/
theorem Held.congr (h : d.Held e) (heq : d'.descs e.fd = d.descs e.fd) : d'.Held e := by
  have hconn : d'.connAt e.fd = d.connAt e.fd := by rw [connAt, connAt, heq]
  rw [Held] at h ⊢
  split
  next conn howner =>
    rw [howner] at h
    rwa [hconn]
  next hnot =>
    split at h
    next conn howner => exact absurd howner (hnot conn)
    next => exact hconn.trans h

theorem Fits.congr (h : d.Fits e) (heq : d'.descs e.fd = d.descs e.fd) : d'.Fits e := by
  rcases h with hheld | ⟨howner, hnone⟩
  · exact Or.inl (hheld.congr heq)
  · exact Or.inr ⟨howner, heq.trans hnone⟩

/-- Where the descriptor is no connection before and after. -/
theorem Held.of_connAt (h : d.Held e) (hbefore : d.connAt e.fd = none)
    (hafter : d'.connAt e.fd = none) : d'.Held e := by
  rw [Held] at h ⊢
  split
  next conn howner =>
    rw [howner] at h
    obtain ⟨c, _, hc⟩ := h
    rw [hbefore] at hc
    cases hc
  · exact hafter

/-- Closing a connection leaves a record fitting. -/
theorem Held.fits (h : d.Held e) (hdescs : d'.descs e.fd = d.descs e.fd ∨ d'.descs e.fd = none) :
    d'.Fits e := by
  rcases hdescs with heq | hnone
  · exact Or.inl (h.congr heq)
  · by_cases howner : e.owner.isClient = true
    · exact Or.inr ⟨howner, hnone⟩
    · refine Or.inl ?_
      rw [Held]
      split
      next conn hclient =>
        rw [hclient] at howner
        exact absurd rfl howner
      · rw [connAt, hnone]

theorem Fits.of_closed (h : d.Fits e)
    (hdescs : d'.descs e.fd = d.descs e.fd ∨ d'.descs e.fd = none) : d'.Fits e := by
  rcases h with hheld | ⟨howner, hnone⟩
  · exact hheld.fits hdescs
  · refine Or.inr ⟨howner, ?_⟩
    rcases hdescs with heq | hnone'
    · exact heq.trans hnone
    · exact hnone'

theorem Fits.quiet (h : d.Fits e) (hq : d.Quiet d') : d'.Fits e :=
  h.of_closed ((hq.descs e.fd).imp_right And.left)

/-- **What the service loop acts on** is the connection that was polled, or none. -/
theorem Fits.owner (h : d.Fits e) :
    d.connAt e.fd = none ∨ e.owner = .client (d.connAt e.fd) := by
  rcases h with hheld | ⟨_, hnone⟩
  · rw [Held] at hheld
    split at hheld
    next conn howner =>
      obtain ⟨c, rfl, hc⟩ := hheld
      exact Or.inr (howner.trans (congrArg Owner.client hc.symm))
    · exact Or.inl hheld
  · exact Or.inl (by rw [connAt, hnone])

/-! ### The invariant -/

/-- A descriptor that libusb wants polled is its own. -/
def UsbOwned (d : Daemon) (p : Pollfd) : Prop :=
  d.descs p.fd = some .other ∨ (p.fd < 0 ∧ d.descs p.fd = none)

variable {p : Pollfd}

theorem UsbOwned.connAt (h : d.UsbOwned p) : d.connAt p.fd = none := by
  rcases h with hother | ⟨_, hnone⟩
  · rw [Daemon.connAt, hother]
  · rw [Daemon.connAt, hnone]

theorem UsbOwned.congr (h : d.UsbOwned p) (heq : d'.descs p.fd = d.descs p.fd) :
    d'.UsbOwned p := by
  rwa [UsbOwned, heq]

theorem UsbOwned.quiet (h : d.UsbOwned p) (hq : d.Quiet d') : d'.UsbOwned p := by
  rcases hq.descs p.fd with heq | ⟨_, c, hc⟩
  · exact h.congr heq
  · rw [h.connAt] at hc
    cases hc

/-- It is not a number that is free. -/
theorem UsbOwned.ne_of_free (h : d.UsbOwned p) {fd : ℤ} (hpos : 0 ≤ fd)
    (hnone : d.descs fd = none) : p.fd ≠ fd := by
  rintro rfl
  rcases h with hother | ⟨hneg, _⟩
  · rw [hnone] at hother
    cases hother
  · omega

/-- **Records and connections agree.** -/
structure Identified (d : Daemon) : Prop where
  usb : ∀ p ∈ d.usbPollfds, d.UsbOwned p
  polling : ∀ snap timeout, d.pc = .polling snap timeout → ∀ e ∈ snap.entries.drop 3, d.Held e
  ahead : ∀ e ∈ d.ahead, e.ready = true → d.Fits e
  log : ∀ fd owner conn, Ev.serviced fd owner conn ∈ d.log → conn = none ∨ owner = .client conn

/-- The program goes where no more records are ahead. -/
theorem Identified.quiet (h : d.Identified) (hq : d.Quiet d')
    (hpc : ∀ snap timeout, d'.pc ≠ .polling snap timeout) (hahead : ∀ e ∈ d'.ahead, e ∈ d.ahead) :
    d'.Identified where
  usb := fun p hp => (h.usb p (hq.usbPollfds ▸ hp)).quiet hq
  polling := fun snap timeout hp => absurd hp (hpc snap timeout)
  ahead := fun e he hready => (h.ahead e (hahead e he) hready).quiet hq
  log := fun fd owner conn he => h.log fd owner conn (hq.mem_of_note he rfl)

/-- An event is recorded. -/
theorem Identified.record (h : d.Identified) {ev : Ev}
    (hev : ∀ fd owner conn, ev = .serviced fd owner conn → conn = none ∨ owner = .client conn) :
    (d.record ev).Identified := by
  refine ⟨h.usb, h.polling, h.ahead, fun fd owner conn he => ?_⟩
  rcases List.mem_cons.mp he with heq | he
  · exact hev fd owner conn heq.symm
  · exact h.log fd owner conn he

/-- The program goes where no more records are ahead, and nothing else happens. -/
theorem Identified.goto (h : d.Identified) {pc : Pc}
    (hpc : ∀ snap timeout, pc ≠ .polling snap timeout)
    (hahead : ∀ e ∈ ({ d with pc := pc } : Daemon).ahead, e ∈ d.ahead) :
    ({ d with pc := pc } : Daemon).Identified :=
  h.quiet (quiet_of_same rfl rfl rfl) hpc hahead

theorem Identified.iterate (h : d.Identified) (snap : Snapshot)
    (loop : Option (ℕ × List Visit)) : (d.iterate snap loop).Identified := by
  have hrecord : (d.record (.iterated snap loop)).Identified :=
    h.record fun _ _ _ heq => nomatch heq
  exact hrecord.goto (fun _ _ hp => nomatch hp) fun _ he => nomatch he

theorem afterListener_ahead {snap : Snapshot} {nready : ℤ} {kind : Kind} (n : ℤ)
    (hpc : d.pc = .listen snap nready kind) :
    (d.afterListener snap n kind).ahead = d.ahead := by
  rw [ahead, ahead, hpc]
  cases kind with
  | main | xml | or20 => rfl

theorem Identified.afterListener (h : d.Identified) {snap : Snapshot} {nready : ℤ} {kind : Kind}
    (n : ℤ) (hpc : d.pc = .listen snap nready kind) : (d.afterListener snap n kind).Identified := by
  have hahead := afterListener_ahead n hpc
  cases kind with
  | main | xml | or20 => exact h.goto (fun _ _ hp => nomatch hp) fun _ he => hahead ▸ he

theorem Identified.afterAccept (h : d.Identified) {snap : Snapshot} {nready : ℤ} {kind : Kind}
    (hpc : d.pc = .listen snap nready kind) : (d.afterAccept snap nready kind).Identified := by
  rcases afterAccept_cases d snap nready kind with ⟨_, heq⟩ | ⟨_, heq⟩
  · rw [heq]
    exact h.iterate snap none
  · rw [heq]
    exact h.afterListener _ hpc

/-- A read is counted: the next record is ahead. -/
theorem Identified.counted (h : d.Identified) {l : ServiceLoop}
    (hahead : ∀ e ∈ l.snap.entries.drop (l.i + 1), e ∈ d.ahead) (v : Visit) :
    (d.counted l v).Identified := by
  rcases counted_cases d l v with ⟨_, heq⟩ | ⟨_, heq⟩
  · rw [heq]
    exact h.iterate _ _
  · rw [heq]
    exact h.goto (fun _ _ hp => nomatch hp) hahead

/-! ### Steps -/

/-- **A connection is accepted** on a number that no record ahead has. -/
theorem Identified.addAccepted (h : d.Identified) {snap : Snapshot} {nready : ℤ} {kind : Kind}
    (hpc : d.pc = .listen snap nready kind) {fd : ℤ} (hfree : lowestFree d.descs fd = true)
    {nonblocking : Bool} (hok : d.KeepsNumbers (.accept fd nonblocking)) :
    (d.addAccepted env kind fd nonblocking).Identified := by
  obtain ⟨hpos, hnone⟩ := lowestFree_spec hfree
  have hpoll : ∀ snap' timeout, d.pc ≠ .polling snap' timeout := by
    intro snap' timeout hp
    rw [hpc] at hp
    cases hp
  have hgiven : (d.clients.add kind fd nonblocking).isNone = true ∨
      ∀ e ∈ d.ahead, e.ready = true → e.fd ≠ fd := by
    rw [KeepsNumbers, hpc] at hok
    exact hok
  simp only [Daemon.addAccepted]
  cases hadd : d.clients.add kind fd nonblocking with
  | none =>
    refine ⟨h.usb, fun _ _ hp => absurd hp (hpoll _ _), h.ahead, fun f owner conn he => ?_⟩
    exact h.log f owner conn ((List.mem_cons.mp he).resolve_left fun heq => by cases heq)
  | some clients =>
    have hnew : ∀ e ∈ d.ahead, e.ready = true → e.fd ≠ fd := by
      rw [hadd] at hgiven
      exact hgiven.resolve_left fun hcon => by cases hcon
    refine ⟨fun p hp => ?_, fun _ _ hp => absurd hp (hpoll _ _), fun e he hready => ?_,
      fun f owner conn he => ?_⟩
    · exact (h.usb p hp).congr (Function.update_of_ne ((h.usb p hp).ne_of_free hpos hnone) ..)
    · exact (h.ahead e he hready).congr (Function.update_of_ne (hnew e he hready) ..)
    · exact h.log f owner conn ((List.mem_cons.mp he).resolve_left fun heq => by cases heq)

/-- **`Pollfds` is laid out** for the connections that there are. -/
theorem layout_held (ht : d.Tables env) (husb : ∀ p ∈ d.usbPollfds, d.UsbOwned p) :
    ∀ e ∈ d.layout.entries.drop 3, d.Held e := by
  intro e he
  have hentries : d.layout.entries.drop 3 =
      d.usbPollfds.map (fun p => ⟨p, .none, .usb⟩) ++ d.copyClients := rfl
  rw [hentries, List.mem_append, List.mem_map, copyClients, List.mem_map] at he
  rcases he with ⟨p, hp, rfl⟩ | ⟨s, hs, rfl⟩
  · exact (husb p hp).connAt
  · have hlive : (d.clients.slot s).fd ≠ -1 := by simpa using (List.mem_filter.mp hs).2
    obtain ⟨c, _, hc⟩ := ht.connAt hlive
    exact ⟨c, hc, hc⟩

/-- What `poll()` reports changes no descriptor and no owner. -/
theorem held_of_report {snap : Snapshot} {revents : List Revents}
    (h : ∀ e ∈ snap.entries.drop 3, d.Held e) :
    ∀ e ∈ (snap.report revents).entries.drop 3, d.Held e := by
  intro e he
  obtain ⟨i, hi⟩ := List.mem_iff_getElem?.mp he
  rw [List.getElem?_drop] at hi
  obtain ⟨old, r, hold, _, rfl⟩ := Snapshot.getElem_report hi
  have hmem : old ∈ snap.entries.drop 3 :=
    List.mem_iff_getElem?.mpr ⟨i, by rw [List.getElem?_drop, hold]⟩
  exact h old hmem

/-- **A turn of the service loop.** -/
theorem Identified.service (h : d.Identified) (ht : d.Tables env) {l : ServiceLoop}
    (hpc : d.pc = .serve l) {results : List SendResult} {now : ℕ} {read : ReadResult}
    (hs : d.doService l results now read = some d') : d'.Identified := by
  obtain ⟨_, e, he, hcase⟩ := doService_cases hs
  have hahead : ∀ a : Daemon, a.pc = d.pc → a.ahead = l.snap.entries.drop l.i := by
    intro a ha
    rw [Daemon.ahead, ha, hpc]
  have hnext : ∀ x ∈ l.snap.entries.drop (l.i + 1), x ∈ l.snap.entries.drop l.i := by
    intro x hx
    rw [← List.drop_drop] at hx
    exact List.mem_of_mem_drop hx
  have hmem : e ∈ l.snap.entries.drop l.i :=
    List.mem_iff_getElem?.mpr ⟨0, by rw [List.getElem?_drop, Nat.add_zero, he]⟩
  have hpoll : ∀ a : Daemon, a.pc = d.pc → ∀ snap timeout, a.pc ≠ .polling snap timeout := by
    intro a ha snap timeout hp
    rw [ha, hpc] at hp
    cases hp
  -- the loop goes on with the next record
  have hgoto : ∀ a : Daemon, a.Identified → a.pc = d.pc → ∀ v : Visit,
      ({ a with pc := .serve (l.next v) } : Daemon).Identified := fun a ha hp v =>
    ha.goto (fun _ _ hcon => nomatch hcon) fun x hx => hahead a hp ▸ hnext x hx
  -- a record that is acted on fits
  have hservicing : ∀ a : Daemon, a.Identified → a.pc = d.pc → e.ready = true →
      (a.servicing e).Identified := by
    intro a ha hp hready
    have hfits := ha.ahead e (hahead a hp ▸ hmem) hready
    refine ha.record fun fd owner conn heq => ?_
    obtain ⟨_, rfl, rfl⟩ := Ev.serviced.inj heq
    exact hfits.owner
  rcases hcase with ⟨_, rfl⟩ | ⟨hpos, d₁, flushed, rfl, _, hcase⟩
  · exact hgoto d h rfl _
  have hfd : e.fd ≠ -1 := by omega
  have hout : (if e.revents.pollout then d.doPollout e results now else d).Identified ∧
      (if e.revents.pollout then d.doPollout e results now else d).Tables env ∧
        (if e.revents.pollout then d.doPollout e results now else d).pc = d.pc := by
    split
    next hpollout =>
      obtain ⟨hcase, htables, hp⟩ := doPollout_cases ht e hfd results now
      refine ⟨?_, htables, hp⟩
      rcases hcase with ⟨_, heq⟩ | hq
      · rw [heq]
        exact h
      · have hready : e.ready = true := by rw [PollEntry.ready, hpollout, Bool.true_or]
        refine (hservicing d h rfl hready).quiet hq (hpoll _ hp) fun x hx => ?_
        rw [hahead _ hp] at hx
        rwa [hahead (d.servicing e) rfl]
    · exact ⟨h, ht, rfl⟩
  generalize (if e.revents.pollout then d.doPollout e results now else d) = d₁ at hcase hout
  obtain ⟨hid, htables, hp⟩ := hout
  rcases hcase with ⟨_, _, rfl⟩ | ⟨_, ⟨hin, hread⟩ | ⟨_, rfl⟩⟩
  · exact hgoto d₁ hid hp _
  · have hready : e.ready = true := by rw [PollEntry.ready, hin, Bool.or_true]
    obtain ⟨d₂, hq, hp₂, hend⟩ := doPollin_cases htables hfd hread
    have hid₂ : d₂.Identified := by
      refine (hservicing d₁ hid hp hready).quiet hq (hpoll _ (hp₂.trans hp)) fun x hx => ?_
      rw [hahead d₂ (hp₂.trans hp)] at hx
      rwa [hahead (d₁.servicing e) hp]
    rcases hend with rfl | ⟨r, _, rfl⟩
    · exact hid₂.counted (fun x hx => hahead d₂ (hp₂.trans hp) ▸ hnext x hx) _
    · exact hid₂.goto (fun _ _ hcon => nomatch hcon)
        fun x hx => hahead d₂ (hp₂.trans hp) ▸ hnext x hx
  · exact hgoto d₁ hid hp _

/-- A descriptor is opened or closed by another part of the process. -/
theorem Identified.update (h : d.Identified) {fd : ℤ} {desc : Option Desc}
    (husb : ∀ p ∈ d.usbPollfds, p.fd ≠ fd)
    (hbefore : d.connAt fd = none) (hafter : ∀ c p, desc ≠ some (.conn c p))
    (hahead : desc = none ∨ ∀ e ∈ d.ahead, e.ready = true → e.owner.isClient = true → e.fd ≠ fd) :
    ({ d with descs := Function.update d.descs fd desc } : Daemon).Identified := by
  have hconn : ({ d with descs := Function.update d.descs fd desc } : Daemon).connAt fd = none := by
    rw [connAt]
    split
    next c p hdesc => exact absurd ((Function.update_self ..).symm.trans hdesc) (hafter c p)
    · rfl
  have hheld : ∀ e, d.Held e →
      ({ d with descs := Function.update d.descs fd desc } : Daemon).Held e := by
    intro e he
    rcases eq_or_ne e.fd fd with heq | hne
    · exact he.of_connAt (heq ▸ hbefore) (heq ▸ hconn)
    · exact he.congr (Function.update_of_ne hne ..)
  refine ⟨fun p hp => (h.usb p hp).congr (Function.update_of_ne (husb p hp) ..),
    fun snap timeout hp e he => hheld e (h.polling snap timeout hp e he),
    fun e he hready => ?_, h.log⟩
  rcases h.ahead e he hready with hold | ⟨howner, hnone⟩
  · exact Or.inl (hheld e hold)
  · refine Or.inr ⟨howner, ?_⟩
    rcases hahead with rfl | hnew
    · rcases eq_or_ne e.fd fd with heq | hne
      · exact heq ▸ Function.update_self ..
      · exact (Function.update_of_ne hne ..).trans hnone
    · exact (Function.update_of_ne (hnew e he hready howner) ..).trans hnone

/-- **Every step that keeps numbers keeps records and connections in agreement.** -/
theorem Identified.step (h : d.Identified) (ht : d.Tables env) {label : Label}
    (hok : d.KeepsNumbers label) (hs : d.step env label = some d') : d'.Identified := by
  rcases step_flow ht hs with ⟨hq, hpc, hlib⟩ | ⟨l, r, r', hq, hpc, hpc', _⟩ |
    ⟨fd, rfl, hfree, rfl⟩ | ⟨fd, hother, husb, rfl⟩ | ⟨p, hlib, hother, rfl⟩ | ⟨fd, hlib, rfl⟩ |
    ⟨_, hpc', husb, hlog, hdescs⟩ | ⟨timeout, hpc, hpc', husb, hlog, hdescs⟩ |
    ⟨snap, timeout, revents, hpc, _, _, hpc', hq⟩ | ⟨snap, nready, hpc, rfl⟩ |
    ⟨snap, nready, kind, fd, nonblocking, rfl, hpc, _, hfree, rfl⟩ |
    ⟨snap, nready, kind, hpc, _, rfl⟩ | ⟨snap, nready, kind, hpc, rfl⟩ |
    ⟨l, results, now, read, hpc, hs⟩ | ⟨l, hpc, _, rfl⟩ | ⟨l, r, hpc, he⟩
  · have hsame : d'.ahead = d.ahead := by rw [Daemon.ahead, Daemon.ahead, hpc, hq.usbPollfds]
    by_cases hpoll : ∃ snap timeout, d.pc = .polling snap timeout
    · -- nothing is closed while `poll()` waits
      obtain ⟨snap, timeout, hp⟩ := hpoll
      have hdescs : d'.descs = d.descs := by
        refine hlib.resolve_right fun hcon => ?_
        rw [inLibusb, hp] at hcon
        cases hcon
      refine ⟨fun p hp' => ?_, fun snap' timeout' hp' e he => ?_, fun e he hready => ?_,
        fun fd owner conn he => h.log fd owner conn (hq.mem_of_note he rfl)⟩
      · exact (h.usb p (hq.usbPollfds ▸ hp')).quiet hq
      · exact (h.polling snap' timeout' (hpc ▸ hp') e he).congr (congrFun hdescs _)
      · exact (h.ahead e (hsame ▸ he) hready).quiet hq
    · exact h.quiet hq (fun snap timeout hp => hpoll ⟨snap, timeout, hpc ▸ hp⟩)
        fun e he => hsame ▸ he
  · refine h.quiet hq (fun _ _ hp => by rw [hpc'] at hp; cases hp) fun e he => ?_
    rw [Daemon.ahead, hpc'] at he
    rwa [Daemon.ahead, hpc]
  · obtain ⟨hpos, hnone⟩ := lowestFree_spec hfree
    exact h.update (fun p hp => (h.usb p hp).ne_of_free hpos hnone) (by rw [connAt, hnone])
      (fun _ _ heq => by cases heq) (Or.inr hok)
  · exact h.update husb (by rw [connAt, hother]) (fun _ _ heq => by cases heq) (Or.inl rfl)
  · have hahead : ({ d with usbPollfds := d.usbPollfds ++ [p] } : Daemon).ahead = d.ahead := by
      rcases inLibusb_cases hlib with ⟨snap, nready, hpc⟩ | ⟨maxEvents, hpc⟩
      · rw [Daemon.ahead, Daemon.ahead, hpc]
      · rw [Daemon.ahead, Daemon.ahead, hpc]
    refine ⟨fun q hq => ?_, h.polling, fun e he hready => h.ahead e (hahead ▸ he) hready, h.log⟩
    rcases List.mem_append.mp hq with hq | hq
    · exact h.usb q hq
    · rw [List.mem_singleton.mp hq]
      exact Or.inl hother
  · have hahead : (d.doPollfdRemoved fd).ahead = d.ahead := by
      rcases inLibusb_cases hlib with ⟨snap, nready, hpc⟩ | ⟨maxEvents, hpc⟩
      · rw [Daemon.ahead, Daemon.ahead, doPollfdRemoved, hpc]
      · rw [Daemon.ahead, Daemon.ahead, doPollfdRemoved, hpc]
    exact ⟨fun q hq => h.usb q (List.mem_of_mem_eraseP hq), h.polling,
      fun e he hready => h.ahead e (hahead ▸ he) hready, h.log⟩
  · -- outside of an iteration no record is ahead
    refine ⟨fun p hp => ?_, fun snap timeout hp => ?_, fun e he => ?_, hlog ▸ h.log⟩
    · have howned := h.usb p (husb ▸ hp)
      rcases hdescs p.fd with heq | ⟨hpos, hnone, _⟩
      · exact howned.congr heq
      · exact absurd rfl (howned.ne_of_free hpos hnone)
    · rw [hp] at hpc'
      cases hpc'
    · rw [Daemon.ahead] at he
      split at he
      next hp =>
        rw [hp] at hpc'
        cases hpc'
      next hp =>
        rw [hp] at hpc'
        cases hpc'
      next hp =>
        rw [hp] at hpc'
        cases hpc'
      next hp =>
        rw [hp] at hpc'
        cases hpc'
      · cases he
  · refine ⟨fun p hp => ?_, fun snap timeout' hp e he => ?_, fun e he => ?_, hlog ▸ h.log⟩
    · exact (h.usb p (husb ▸ hp)).congr (congrFun hdescs _)
    · rw [hpc'] at hp
      obtain ⟨rfl, _⟩ := Pc.polling.inj hp
      exact (layout_held ht h.usb e he).congr (congrFun hdescs _)
    · rw [Daemon.ahead, hpc'] at he
      cases he
  · refine ⟨fun p hp => ?_, fun _ _ hp => (by cases hpc'.symm.trans hp), fun e he _ => ?_,
      fun fd owner conn he => h.log fd owner conn (hq.mem_of_note he rfl)⟩
    · exact (h.usb p (hq.usbPollfds ▸ hp)).quiet hq
    · rw [Daemon.ahead, hpc'] at he
      have hheld := held_of_report (h.polling snap timeout hpc) e he
      exact hheld.fits ((hq.descs e.fd).imp_right And.left)
  · rw [doHandled]
    split
    · have husb : ({ d with usb := d.usb.ackTimeout env } : Daemon).Identified :=
        ⟨h.usb, h.polling, h.ahead, h.log⟩
      exact husb.iterate snap none
    · refine h.goto (fun _ _ hp => by cases hp) fun e he => ?_
      rw [Daemon.ahead, hpc]
      have hdrop : e ∈ snap.entries.drop (3 + d.usbPollfds.length) := he
      rw [← List.drop_drop] at hdrop
      exact List.mem_of_mem_drop hdrop
  · have hadded : (d.addAccepted env kind fd nonblocking).Identified := h.addAccepted hpc hfree hok
    exact hadded.afterAccept ((addAccepted_pc env d kind fd nonblocking).trans hpc)
  · exact h.afterAccept hpc
  · exact h.afterListener nready hpc
  · exact h.service ht hpc hs
  · exact h.iterate _ _
  · obtain ⟨_, rfl⟩ := doEncoded_eq he
    have hstate : ∀ state, (d.setState r.slot state).Identified := fun state =>
      ⟨h.usb, h.polling, h.ahead, h.log⟩
    refine (hstate _).counted (fun e he => ?_) _
    show e ∈ d.ahead
    rwa [Daemon.ahead, hpc]

theorem initial_identified (env : Env) : (initial env).Identified where
  usb := fun p hp => by
    obtain ⟨q, hq, rfl⟩ := List.mem_map.mp hp
    by_cases hpos : 0 ≤ q.1
    · exact Or.inl (if_pos ⟨hpos, Or.inr (List.mem_map_of_mem hq)⟩)
    · exact Or.inr ⟨not_le.mp hpos, if_neg fun hcon => hpos hcon.1⟩
  polling := fun _ _ hp => nomatch hp
  ahead := fun _ he => nomatch he
  log := fun _ _ _ he => nomatch he

/-- **In a run that gives no number away too early, poll results are applied to the connections
that were polled**: at its turn the descriptor of a record is still what it was laid out for, or
closed; and no other connection was ever read, written to or closed. -/
theorem serviced_as_polled (h : Transition.Run (step env) KeepsNumbers (initial env) d) :
    (∀ l e, d.pc = .serve l → l.snap.entries[l.i]? = some e → e.ready = true → d.Fits e) ∧
      ∀ fd owner conn, Ev.serviced fd owner conn ∈ d.log → conn = none ∨ owner = .client conn := by
  have hid : d.Identified := Transition.Run.invariant_along h (initial_identified env)
    fun _ _ _ hr hi hok hs => hi.step (Reachable.tables hr.free) hok hs
  refine ⟨fun l e hpc he hready => hid.ahead e ?_ hready, hid.log⟩
  rw [ahead, hpc]
  exact List.mem_iff_getElem?.mpr ⟨0, by rw [List.getElem?_drop, Nat.add_zero, he]⟩

/-- A client is polled and read. -/
theorem serviced_as_polled_first :
    ∃ d, Transition.Run (step (.plain mochadConfigDefaults false)) KeepsNumbers
        (initial (.plain mochadConfigDefaults false)) d ∧
      Ev.serviced 6 (.client (some 0)) (some 0) ∈ d.log ∧
        ∀ fd owner conn, Ev.serviced fd owner conn ∈ d.log → conn = none ∨ owner = .client conn := by
  obtain ⟨d, hrun, hmem⟩ : ∃ d, Transition.Run (step (.plain mochadConfigDefaults false))
      KeepsNumbers (initial (.plain mochadConfigDefaults false)) d ∧
        Ev.serviced 6 (.client (some 0)) (some 0) ∈ d.log :=
    Transition.exists_run_of_exec (connect .main ++ readClient (ascii "st")) (by decide +kernel)
  exact ⟨d, hrun, hmem, (serviced_as_polled hrun).2⟩

/-- A client asks for the status, its socket takes nothing for a minute, and then both it and
the main listener are ready. -/
def stallClient : List Label :=
  connect .main ++ readClient (ascii "st\n") ++ List.replicate 3 .byte ++ [.encoded] ++
    pollClient ⟨false, true, false, false⟩ ++ [.service [.eagain] 1 .error, .served, .layOut none,
      .pollReturned [⟨true, false, false, false⟩, .none, .none, ⟨true, false, false, false⟩] 61]

/-- **A client that was accepted in the same iteration can be read**: a stalled client was closed,
and its number was free again. -/
theorem serviced_other : ¬ ∀ env d, Reachable env d → ∀ fd owner conn,
    Ev.serviced fd owner conn ∈ d.log → conn = none ∨ owner = .client conn := by
  intro hall
  obtain ⟨d, hrun, hmem⟩ : ∃ d, Reachable (.plain mochadConfigDefaults false) d ∧
      Ev.serviced 6 (.client (some 0)) (some 1) ∈ d.log :=
    Transition.exists_run_of_exec (stallClient ++ [.handled, .accept 6 true, .notReady, .notReady,
      .service [] 61 .error]) (by decide +kernel)
  rcases hall _ d hrun 6 _ _ hmem with hnone | howner
  · cases hnone
  · cases howner

end Daemon

end Mochad
