import Mochad.Core.Identity

/-!
# What the service loop comes to

The service loop begins where the clients were laid out, which it computes from the number of
libusb's descriptors, and it ends when `nready` says that nothing is left that `poll()` reported
on. The number may have changed since `Pollfds` was laid out; then the loop begins elsewhere.

The counter is right: each listener that is ready and each record that is read was reported on,
and is counted once, so that at least as many are left as `nready` says (`LoopOk`). So the loop
serves every client that is ready exactly if it begins at the first client
(`Daemon.iteration_served_iff`).
-/

namespace Mochad

/-! ### Records -/

/-- How many records `poll()` reported on. -/
def reported (entries : List PollEntry) : ℕ := entries.countP fun e => e.revents.any

/-- The places of the clients in `Pollfds`. -/
def Snapshot.clientIndices (snap : Snapshot) : List ℕ :=
  List.range' (3 + snap.nusb) (snap.npollfds - (3 + snap.nusb))

/-- What is to be done for a record was done, or its client was gone. -/
def Visit.Handles (v : Visit) (e : PollEntry) : Prop :=
  v.gone = true ∨ ((e.revents.pollout = true → v.flushed = true) ∧
    ((e.revents.pollin || e.revents.pollerr) = true → v.read = true))

/-- **The service loop examined records of clients only**, from the first one on, and did what
was to be done for all of them. -/
structure Snapshot.Served (snap : Snapshot) (visits : List Visit) : Prop where
  examined : visits.reverse.map Visit.index <+: snap.clientIndices
  first : snap.clientIndices ≠ [] → visits ≠ []
  ready : ∀ i e, snap.entries[i]? = some e → e.owner.isClient = true → e.ready = true →
    ∃ v ∈ visits, v.index = i ∧ v.Handles e

/-- The same for an iteration, which may end before the service loop; then no client is ready. -/
def Snapshot.ServedBy (snap : Snapshot) : Option (ℕ × List Visit) → Prop
  | none => ∀ e ∈ snap.entries, e.owner.isClient = true → e.ready = false
  | some (_, visits) => snap.Served visits

/-- **The number of libusb's descriptors is what it was**, or there is no client and it has
grown. -/
def Snapshot.Unmoved (snap : Snapshot) : Option (ℕ × List Visit) → Prop
  | none => True
  | some (start, _) => start = snap.nusb ∨ (snap.clientIndices = [] ∧ snap.nusb ≤ start)

/-- `Pollfds` as it is laid out. -/
structure Snapshot.LaidOut (snap : Snapshot) : Prop where
  length : snap.entries.length = snap.npollfds
  usb : 3 + snap.nusb ≤ snap.npollfds
  client : ∀ i e, snap.entries[i]? = some e → (e.owner.isClient = true ↔ 3 + snap.nusb ≤ i)

/-- `Pollfds` after `poll()`. -/
structure Snapshot.Polled (snap : Snapshot) : Prop extends LaidOut snap where
  negative : ∀ e ∈ snap.entries, e.fd < 0 → e.revents.any = false

theorem PollEntry.any_of_ready {e : PollEntry} (h : e.ready = true) : e.revents.any = true := by
  simp only [ready, Bool.or_eq_true] at h
  simp only [Revents.any, Bool.or_eq_true]
  tauto

/-- One record less is left. -/
theorem reported_drop {entries : List PollEntry} {i : ℕ} {e : PollEntry}
    (he : entries[i]? = some e) :
    reported (entries.drop i) =
      reported (entries.drop (i + 1)) + if e.revents.any = true then 1 else 0 := by
  obtain ⟨hi, rfl⟩ := List.getElem?_eq_some_iff.mp he
  rw [reported, List.drop_eq_getElem_cons hi, List.countP_cons]
  rfl

/-- No record is left. -/
theorem any_eq_false_of_reported {entries : List PollEntry} {i j : ℕ} {e : PollEntry}
    (h : reported (entries.drop i) = 0) (hij : i ≤ j) (he : entries[j]? = some e) :
    e.revents.any = false := by
  have hmem : e ∈ entries.drop i := by
    refine List.mem_iff_getElem?.mpr ⟨j - i, ?_⟩
    rw [List.getElem?_drop, Nat.add_sub_cancel' hij, he]
  rw [reported, List.countP_eq_zero] at h
  exact Bool.eq_false_iff.mpr (h e hmem)

/-! ### What `poll()` reports -/

/-- **What `poll()` reports** is what it counts. -/
theorem reported_report {snap : Snapshot} {revents : List Revents}
    (hlength : revents.length = snap.entries.length) :
    reported (snap.report revents).entries = (revents.filter Revents.any).length := by
  have hmap : (snap.report revents).entries.map PollEntry.revents = revents := by
    refine List.ext_getElem? fun i => ?_
    have hentries : (snap.report revents).entries =
        snap.entries.zipWith (fun e r => ({ e with revents := r } : PollEntry)) revents := rfl
    rw [List.getElem?_map, hentries, List.getElem?_zipWith]
    rcases lt_or_ge i revents.length with hlt | hge
    · rw [List.getElem?_eq_getElem hlt, List.getElem?_eq_getElem (hlength ▸ hlt)]
      rfl
    · rw [List.getElem?_eq_none hge, List.getElem?_eq_none (hlength ▸ hge)]
      rfl
  rw [← List.countP_eq_length_filter, reported]
  conv_rhs => rw [← hmap, List.countP_map]
  rfl

theorem Snapshot.LaidOut.report {snap : Snapshot} (h : snap.LaidOut) {revents : List Revents}
    (hlength : revents.length = snap.entries.length)
    (hok : (List.zipWith Daemon.reventsOk snap.entries revents).all id = true) :
    (snap.report revents).Polled where
  length := by
    have hzip : (snap.report revents).entries.length = min snap.entries.length revents.length :=
      List.length_zipWith
    rw [hzip, hlength, Nat.min_self]
    exact h.length
  usb := h.usb
  client := fun i e he => by
    obtain ⟨old, r, hold, _, rfl⟩ := Snapshot.getElem_report he
    exact h.client i old hold
  negative := fun e he hneg => by
    obtain ⟨i, hi⟩ := List.mem_iff_getElem?.mp he
    obtain ⟨old, r, hold, hrev, rfl⟩ := Snapshot.getElem_report hi
    have hmem : Daemon.reventsOk old r ∈ List.zipWith Daemon.reventsOk snap.entries revents := by
      refine List.mem_iff_getElem?.mpr ⟨i, ?_⟩
      rw [List.getElem?_zipWith, hold, hrev]
    have hrok : Daemon.reventsOk old r = true := List.all_eq_true.mp hok _ hmem
    have hfd : old.fd < 0 := hneg
    rw [Daemon.reventsOk, if_pos hfd] at hrok
    rw [of_decide_eq_true hrok]
    rfl

/-! ### The loop -/

/-- **The service loop before a turn**: what it was at, one record after the other, and at most
`nready` records are left. -/
structure LoopOk (l : ServiceLoop) : Prop where
  polled : l.snap.Polled
  left : (reported (l.snap.entries.drop l.i) : ℤ) ≤ l.nready
  more : 0 < l.nready
  start : 3 + l.start ≤ l.i
  within : l.i ≤ l.snap.npollfds ∨ l.visits = []
  indices : l.visits.reverse.map Visit.index = List.range' (3 + l.start) (l.i - (3 + l.start))
  handled : ∀ v ∈ l.visits, ∀ e, l.snap.entries[v.index]? = some e → e.ready = true → v.Handles e

/-- **The service loop at its end.** -/
structure LoopEnded (snap : Snapshot) (start : ℕ) (visits : List Visit) : Prop where
  polled : snap.Polled
  left : reported (snap.entries.drop (3 + start + visits.length)) = 0
  within : 3 + start + visits.length ≤ snap.npollfds ∨ visits = []
  turns : visits ≠ [] ∨ snap.npollfds ≤ 3 + start
  indices : visits.reverse.map Visit.index = List.range' (3 + start) visits.length
  handled : ∀ v ∈ visits, ∀ e, snap.entries[v.index]? = some e → e.ready = true → v.Handles e

/-- What a turn did for its record. -/
structure TurnOk (l : ServiceLoop) (v : Visit) : Prop where
  inside : l.i < l.snap.npollfds
  index : v.index = l.i
  handled : ∀ e, l.snap.entries[l.i]? = some e → e.ready = true → v.Handles e

namespace LoopOk

variable {l : ServiceLoop} {v : Visit}

theorem length_visits (h : LoopOk l) : l.visits.length = l.i - (3 + l.start) := by
  have hlen := congrArg List.length h.indices
  simpa using hlen

theorem next_indices (h : LoopOk l) (hv : v.index = l.i) :
    (l.next v).visits.reverse.map Visit.index =
      List.range' (3 + l.start) (l.i + 1 - (3 + l.start)) := by
  have hstart := h.start
  have hsucc : l.i + 1 - (3 + l.start) = (l.i - (3 + l.start)) + 1 := by omega
  have hlast : 3 + l.start + 1 * (l.i - (3 + l.start)) = l.i := by omega
  simp only [ServiceLoop.next, List.reverse_cons, List.map_append, List.map_cons, List.map_nil]
  rw [h.indices, hv, hsucc, List.range'_concat, hlast]

theorem next_handled (h : LoopOk l) (hv : TurnOk l v) : ∀ w ∈ (l.next v).visits, ∀ e,
    l.snap.entries[w.index]? = some e → e.ready = true → w.Handles e := by
  intro w hw e he hready
  rcases List.mem_cons.mp hw with rfl | hw
  · rw [hv.index] at he
    exact hv.handled e he hready
  · exact h.handled w hw e he hready

/-- What is left after a turn. -/
theorem left_next (h : LoopOk l) {e : PollEntry} (he : l.snap.entries[l.i]? = some e) :
    ((reported (l.snap.entries.drop (l.i + 1)) + if e.revents.any = true then 1 else 0 : ℕ) : ℤ) ≤
      l.nready := by
  rw [← reported_drop he]
  exact h.left

/-- **A turn that is not counted.** -/
theorem next (h : LoopOk l) (hv : TurnOk l v) : LoopOk (l.next v) where
  polled := h.polled
  left := by
    have hi : l.i < l.snap.entries.length := by
      rw [h.polled.length]
      exact hv.inside
    have hleft := h.left_next (List.getElem?_eq_getElem hi)
    show (reported (l.snap.entries.drop (l.i + 1)) : ℤ) ≤ l.nready
    split at hleft
    · omega
    · omega
  more := h.more
  start := Nat.le_succ_of_le h.start
  within := Or.inl hv.inside
  indices := h.next_indices hv.index
  handled := h.next_handled hv

/-- **A turn that is counted**, and is not the last. -/
theorem next_counted (h : LoopOk l) (hv : TurnOk l v) {e : PollEntry}
    (he : l.snap.entries[l.i]? = some e) (hany : e.revents.any = true) (hmore : 0 < l.nready - 1) :
    LoopOk { l.next v with nready := l.nready - 1 } where
  polled := h.polled
  left := by
    have hleft := h.left_next he
    rw [if_pos hany] at hleft
    show (reported (l.snap.entries.drop (l.i + 1)) : ℤ) ≤ l.nready - 1
    omega
  more := hmore
  start := Nat.le_succ_of_le h.start
  within := Or.inl hv.inside
  indices := h.next_indices hv.index
  handled := h.next_handled hv

/-- **The last turn**: nothing is left that was reported on. -/
theorem last (h : LoopOk l) (hv : TurnOk l v) {e : PollEntry}
    (he : l.snap.entries[l.i]? = some e) (hany : e.revents.any = true) (hlast : l.nready - 1 ≤ 0) :
    LoopEnded l.snap l.start (v :: l.visits) := by
  have hlen : 3 + l.start + (v :: l.visits).length = l.i + 1 := by
    have hstart := h.start
    have hlength := h.length_visits
    rw [List.length_cons]
    omega
  have hleft := h.left_next he
  rw [if_pos hany] at hleft
  refine ⟨h.polled, ?_, Or.inl ?_, Or.inl (List.cons_ne_nil _ _), ?_, h.next_handled hv⟩
  · rw [hlen]
    omega
  · rw [hlen]
    exact hv.inside
  · have hcount : (v :: l.visits).length = l.i + 1 - (3 + l.start) := by omega
    rw [hcount]
    exact h.next_indices hv.index

/-- **The loop has come to the end of `Pollfds`.** -/
theorem done (h : LoopOk l) (hend : l.snap.npollfds ≤ l.i) :
    LoopEnded l.snap l.start l.visits := by
  have hlen : 3 + l.start + l.visits.length = l.i := by
    have hstart := h.start
    have hlength := h.length_visits
    omega
  refine ⟨h.polled, ?_, hlen.symm ▸ h.within, ?_, ?_, h.handled⟩
  · have hnil : l.snap.entries.drop l.i = [] := by
      rw [List.drop_eq_nil_iff, h.polled.length]
      exact hend
    rw [hlen, hnil]
    rfl
  · rcases h.within with hle | hnil
    · by_cases hv : l.visits = []
      · rw [hv] at hlen
        exact Or.inr (hend.trans (le_of_eq hlen.symm))
      · exact Or.inl hv
    · rw [hnil] at hlen
      exact Or.inr (hend.trans (le_of_eq hlen.symm))
  · rw [h.length_visits]
    exact h.indices

end LoopOk

/-- **The clients are served exactly if the loop begins at the first of them.** -/
theorem LoopEnded.served_iff {snap : Snapshot} {start : ℕ} {visits : List Visit}
    (h : LoopEnded snap start visits) :
    snap.Served visits ↔ snap.Unmoved (some (start, visits)) := by
  have hlen := h.polled.length
  have husb := h.polled.usb
  have hclients : snap.clientIndices = [] ↔ snap.npollfds = 3 + snap.nusb := by
    rw [Snapshot.clientIndices, List.range'_eq_nil_iff]
    omega
  constructor
  · intro hs
    by_cases hnil : snap.clientIndices = []
    · -- no record is a client's, so that none was examined
      refine Or.inr ⟨hnil, ?_⟩
      have hexamined := hs.examined
      rw [hnil, List.prefix_nil, List.map_eq_nil_iff, List.reverse_eq_nil_iff] at hexamined
      have hsome := h.turns.resolve_left fun hne => hne hexamined
      have hlast := hclients.mp hnil
      omega
    · -- the first record that was examined is the first client's
      refine Or.inl ?_
      have hexamined := hs.examined
      obtain ⟨m, hm⟩ : ∃ m, snap.npollfds - (3 + snap.nusb) = m + 1 :=
        Nat.exists_eq_succ_of_ne_zero fun h0 => hnil (by rw [Snapshot.clientIndices, h0]; rfl)
      obtain ⟨n, hn⟩ : ∃ n, visits.length = n + 1 := Nat.exists_eq_succ_of_ne_zero fun h0 =>
        hs.first hnil (List.length_eq_zero_iff.mp h0)
      rw [h.indices, Snapshot.clientIndices, hm, hn, List.range'_succ, List.range'_succ,
        List.cons_prefix_cons] at hexamined
      omega
  · intro hu
    rcases hu with rfl | ⟨hnil, hle⟩
    · refine ⟨?_, fun hne => ?_, fun i e he howner hready => ?_⟩
      · rw [h.indices, Snapshot.clientIndices]
        have hcount : visits.length ≤ snap.npollfds - (3 + snap.nusb) := by
          rcases h.within with hle | hnil
          · omega
          · simp [hnil]
        exact ⟨List.range' (3 + snap.nusb + visits.length)
          (snap.npollfds - (3 + snap.nusb) - visits.length), by
            rw [List.range'_append_1, Nat.add_sub_cancel' hcount]⟩
      · refine h.turns.resolve_right fun hle => hne (hclients.mpr ?_)
        omega
      · have hi : 3 + snap.nusb ≤ i := (h.polled.client i e he).mp howner
        have hbefore : i < 3 + snap.nusb + visits.length := by
          by_contra hafter
          have hnone := any_eq_false_of_reported h.left (not_lt.mp hafter) he
          rw [PollEntry.any_of_ready hready] at hnone
          cases hnone
        have hmem : i ∈ visits.reverse.map Visit.index := by
          rw [h.indices, List.mem_range'_1]
          exact ⟨hi, hbefore⟩
        obtain ⟨v, hv, rfl⟩ := List.mem_map.mp hmem
        rw [List.mem_reverse] at hv
        exact ⟨v, hv, rfl, h.handled v hv e he hready⟩
    · have hvisits : visits = [] := by
        rcases h.within with hin | hin
        · have hlast := hclients.mp hnil
          exact List.length_eq_zero_iff.mp (by omega)
        · exact hin
      subst hvisits
      refine ⟨List.nil_prefix, fun hne => absurd hnil hne, fun i e he howner _ => ?_⟩
      have hi : 3 + snap.nusb ≤ i := (h.polled.client i e he).mp howner
      obtain ⟨hlt, _⟩ := List.getElem?_eq_some_iff.mp he
      have hlast := hclients.mp hnil
      omega

namespace Daemon

variable {env : Env} {d d' : Daemon}

/-- What an iteration that has ended did. -/
def IterationOk (snap : Snapshot) : Option (ℕ × List Visit) → Prop
  | none => ∀ e ∈ snap.entries, e.owner.isClient = true → e.ready = false
  | some (start, visits) => LoopEnded snap start visits

/-- **The counter is right** wherever the daemon is. -/
def AtOk (pc : Pc) : Prop :=
  match pc with
  | .polling snap _ => snap.LaidOut
  | .events snap nready => snap.Polled ∧ reported snap.entries = nready
  | .listen snap nready kind => snap.Polled ∧
      (reported (snap.entries.drop kind.index) : ℤ) ≤ nready ∧ 0 < nready
  | .serve l => LoopOk l
  | .encode l r => LoopOk l ∧ TurnOk l r.visit ∧
      ∃ e, l.snap.entries[l.i]? = some e ∧ e.revents.any = true
  | _ => True

theorem atOk_of_outside {pc : Pc} (h : pc.iterating = false) : AtOk pc := by
  cases pc with
  | polling | events | listen | serve | encode => cases h
  | _ => trivial

/-- **The counter is right, and was in every iteration.** -/
structure Counting (d : Daemon) : Prop where
  now : AtOk d.pc
  log : ∀ snap loop, Ev.iterated snap loop ∈ d.log → IterationOk snap loop

/-- The log says nothing new of iterations. -/
theorem Counting.quiet (h : d.Counting) (hq : d.Quiet d') (hnow : AtOk d'.pc) : d'.Counting :=
  ⟨hnow, fun snap loop he => h.log snap loop (hq.mem_of_note he rfl)⟩

theorem Counting.goto (h : d.Counting) {pc : Pc} (hnow : AtOk pc) :
    ({ d with pc := pc } : Daemon).Counting := ⟨hnow, h.log⟩

theorem Counting.servicing (h : d.Counting) (e : PollEntry) : (d.servicing e).Counting :=
  ⟨h.now, fun snap loop he => h.log snap loop ((List.mem_cons.mp he).resolve_left nofun)⟩

/-- **An iteration ends.** -/
theorem Counting.iterate (h : d.Counting) {snap : Snapshot} {loop : Option (ℕ × List Visit)}
    (hok : IterationOk snap loop) : (d.iterate snap loop).Counting := by
  refine ⟨trivial, fun snap' loop' he => ?_⟩
  rcases List.mem_cons.mp he with heq | he
  · obtain ⟨rfl, rfl⟩ := Ev.iterated.inj heq
    exact hok
  · exact h.log snap' loop' he

/-! ### Listeners -/

/-- Where no record is left that was reported on, no client is ready. -/
theorem iterationOk_none {snap : Snapshot} (hsnap : snap.Polled) {i : ℕ} (hi : i ≤ 3)
    (hleft : reported (snap.entries.drop i) = 0) : IterationOk snap none := by
  intro e he howner
  obtain ⟨j, hj⟩ := List.mem_iff_getElem?.mp he
  have hplace : 3 + snap.nusb ≤ j := (hsnap.client j e hj).mp howner
  have hnone : e.revents.any = false := any_eq_false_of_reported hleft (by omega) hj
  by_contra hready
  rw [PollEntry.any_of_ready (Bool.eq_true_of_not_eq_false hready)] at hnone
  cases hnone

/-- After a listener comes the next one, or the service loop. -/
theorem Counting.afterListener (h : d.Counting) {snap : Snapshot} (hsnap : snap.Polled) {n : ℤ}
    {kind : Kind} (hleft : (reported (snap.entries.drop (kind.index + 1)) : ℤ) ≤ n)
    (hmore : 0 < n) : (d.afterListener snap n kind).Counting := by
  cases kind with
  | main | xml => exact h.goto ⟨hsnap, hleft, hmore⟩
  | or20 =>
    refine h.goto ⟨hsnap, ?_, hmore, le_refl _, Or.inr rfl, ?_, fun v hv => nomatch hv⟩
    · -- records of libusb that are passed over only make the rest smaller
      have hdrop : snap.entries.drop (3 + d.usbPollfds.length) =
          (snap.entries.drop 3).drop d.usbPollfds.length := List.drop_drop.symm
      have hle : reported (snap.entries.drop (3 + d.usbPollfds.length)) ≤
          reported (snap.entries.drop 3) := by
        rw [hdrop]
        exact (List.drop_sublist _ _).countP_le
      have hthree : (reported (snap.entries.drop 3) : ℤ) ≤ n := hleft
      show (reported (snap.entries.drop (3 + d.usbPollfds.length)) : ℤ) ≤ n
      omega
    · simp

theorem Counting.afterAccept (h : d.Counting) {snap : Snapshot} (hsnap : snap.Polled) {n : ℤ}
    {kind : Kind} (hleft : (reported (snap.entries.drop (kind.index + 1)) : ℤ) ≤ n - 1) :
    (d.afterAccept snap n kind).Counting := by
  rcases afterAccept_cases d snap n kind with ⟨hlast, heq⟩ | ⟨hmore, heq⟩
  · rw [heq]
    have hindex : kind.index + 1 ≤ 3 := by cases kind <;> decide
    exact h.iterate (iterationOk_none hsnap hindex (by omega))
  · rw [heq]
    exact h.afterListener hsnap hleft hmore

/-- A listener that is ready was reported on. -/
theorem reported_listenerReady {snap : Snapshot} {kind : Kind} {n : ℤ}
    (hready : d.listenerReady snap kind = true)
    (hleft : (reported (snap.entries.drop kind.index) : ℤ) ≤ n) :
    (reported (snap.entries.drop (kind.index + 1)) : ℤ) ≤ n - 1 := by
  simp only [listenerReady, Bool.and_eq_true] at hready
  obtain ⟨_, hpollin⟩ := hready
  cases he : snap.entries[kind.index]? with
  | none => simp [he] at hpollin
  | some e =>
    have hin : e.revents.pollin = true := by simpa [he] using hpollin
    have hany : e.revents.any = true := by simp [Revents.any, hin]
    rw [reported_drop he, if_pos hany] at hleft
    push_cast at hleft
    omega

theorem reported_succ_le (entries : List PollEntry) (i : ℕ) :
    reported (entries.drop (i + 1)) ≤ reported (entries.drop i) := by
  rw [← List.drop_drop]
  exact (List.drop_sublist _ _).countP_le

/-! ### `Pollfds` -/

/-- **`Pollfds` is laid out** with the clients behind everything else. -/
theorem layout_laidOut (ht : d.Tables env) : d.layout.LaidOut := by
  have hclients : d.copyClients.length = d.clients.total := by
    rw [copyClients, List.length_map, ht.wf.length_occupied]
  have hfront : ([.main, .xml, .or20].map d.listenerEntry ++
      d.usbPollfds.map (fun p => (⟨p, .none, .usb⟩ : PollEntry))).length =
        3 + d.usbPollfds.length := by
    simp
    omega
  refine ⟨?_, Nat.le_add_right _ _, fun i e he => ?_⟩
  · rw [layout, List.length_append, hfront, hclients]
  · have hentries : d.layout.entries = ([.main, .xml, .or20].map d.listenerEntry ++
        d.usbPollfds.map (fun p => (⟨p, .none, .usb⟩ : PollEntry))) ++ d.copyClients := rfl
    rw [hentries] at he
    show e.owner.isClient = true ↔ 3 + d.usbPollfds.length ≤ i
    rcases lt_or_ge i (3 + d.usbPollfds.length) with hlt | hge
    · refine iff_of_false ?_ (not_le.mpr hlt)
      rw [List.getElem?_append_left (by rw [hfront]; exact hlt)] at he
      have hmem := List.mem_of_getElem? he
      rcases List.mem_append.mp hmem with hmem | hmem
      · obtain ⟨kind, _, rfl⟩ := List.mem_map.mp hmem
        rintro ⟨⟩
      · obtain ⟨p, _, rfl⟩ := List.mem_map.mp hmem
        rintro ⟨⟩
    · refine iff_of_true ?_ hge
      rw [List.getElem?_append_right (by rw [hfront]; exact hge)] at he
      obtain ⟨s, _, rfl⟩ := List.mem_map.mp (List.mem_of_getElem? he)
      rfl

/-! ### Steps -/

/-- **A turn of the service loop** does what is to be done for its record. -/
theorem Counting.service (h : d.Counting) (ht : d.Tables env) {l : ServiceLoop}
    (hpc : d.pc = .serve l) {results : List SendResult} {now : ℕ} {read : ReadResult}
    (hs : d.doService l results now read = some d') : d'.Counting := by
  have hl : LoopOk l := by
    have hnow := h.now
    rwa [hpc] at hnow
  obtain ⟨hi, e, he, hcase⟩ := doService_cases hs
  have hturn : ∀ v : Visit, v.index = l.i → (e.ready = true → v.Handles e) → TurnOk l v :=
    fun v hv hh => ⟨hi, hv, fun e' he' => Option.some.inj (he.symm.trans he') ▸ hh⟩
  rcases hcase with ⟨hneg, rfl⟩ | ⟨hpos, d₁, flushed, rfl, hflushed, hcase⟩
  · -- nothing is reported on a record that is not polled
    refine h.goto (hl.next (hturn _ rfl fun hready => ?_))
    have hnone := hl.polled.negative e (List.mem_of_getElem? he) hneg
    rw [PollEntry.any_of_ready hready] at hnone
    cases hnone
  have hfd : e.fd ≠ -1 := by omega
  have hout : (if e.revents.pollout then d.doPollout e results now else d).Counting ∧
      (if e.revents.pollout then d.doPollout e results now else d).Tables env := by
    split
    · obtain ⟨hcase, htables, hp⟩ := doPollout_cases ht e hfd results now
      refine ⟨?_, htables⟩
      rcases hcase with ⟨_, heq⟩ | hq
      · rw [heq]
        exact h
      · exact (h.servicing e).quiet hq (hp ▸ h.now)
    · exact ⟨h, ht⟩
  -- where the client is still there, it was there to be flushed
  have hthere : (e.revents.pollout = true →
      (if e.revents.pollout then d.doPollout e results now else d).clients.find e.fd ≠ none) →
      e.revents.pollout = true → flushed = true := by
    intro hfound hpollout
    have hfound := hfound hpollout
    rw [if_pos hpollout] at hfound
    rw [hflushed, hpollout, Bool.true_and, Option.isSome_iff_ne_none]
    intro hnone
    refine hfound ?_
    rw [doPollout, hnone]
    exact hnone
  generalize (if e.revents.pollout then d.doPollout e results now else d) = d₁ at hcase hout hthere
  obtain ⟨hc, htables⟩ := hout
  rcases hcase with ⟨_, _, rfl⟩ | ⟨hfound, ⟨hin, hread⟩ | ⟨hout, rfl⟩⟩
  · exact hc.goto (hl.next (hturn _ rfl fun _ => Or.inl rfl))
  · have hok : TurnOk l ⟨l.i, false, flushed, true⟩ :=
      hturn _ rfl fun _ => Or.inr ⟨hthere hfound, fun _ => rfl⟩
    have hany : e.revents.any = true :=
      PollEntry.any_of_ready (by rw [PollEntry.ready, hin, Bool.or_true])
    obtain ⟨d₂, hq, hp₂, hend⟩ := doPollin_cases htables hfd hread
    have hc₂ : d₂.Counting := (hc.servicing e).quiet hq (hp₂ ▸ hc.now)
    rcases hend with rfl | ⟨r, hvisit, rfl⟩
    · rcases counted_cases d₂ l ⟨l.i, false, flushed, true⟩ with ⟨hlast, heq⟩ | ⟨hmore, heq⟩
      · rw [heq]
        exact hc₂.iterate (hl.last hok he hany hlast)
      · rw [heq]
        exact hc₂.goto (hl.next_counted hok he hany hmore)
    · refine hc₂.goto ⟨hl, ?_, e, he, hany⟩
      rwa [hvisit]
  · refine hc.goto (hl.next (hturn _ rfl fun _ => Or.inr ⟨hthere hfound, fun hin => ?_⟩))
    rw [hout] at hin
    cases hin

/-- **Every step keeps the counter right.** -/
theorem Counting.step (h : d.Counting) (ht : d.Tables env) {label : Label}
    (hs : d.step env label = some d') : d'.Counting := by
  have hnow := h.now
  rcases step_flow ht hs with ⟨hq, hpc, _⟩ | ⟨l, r, r', hq, hpc, hpc', hvisit⟩ |
    ⟨fd, _, _, rfl⟩ | ⟨fd, _, _, rfl⟩ | ⟨p, _, _, rfl⟩ | ⟨fd, _, rfl⟩ |
    ⟨_, hpc', _, hlog, _⟩ | ⟨timeout, _, hpc', _, hlog, _⟩ |
    ⟨snap, timeout, revents, hpc, hlength, hok, hpc', hq⟩ | ⟨snap, nready, hpc, rfl⟩ |
    ⟨snap, nready, kind, fd, nonblocking, _, hpc, hready, _, rfl⟩ |
    ⟨snap, nready, kind, hpc, hready, rfl⟩ | ⟨snap, nready, kind, hpc, rfl⟩ |
    ⟨l, results, now, read, hpc, hs⟩ | ⟨l, hpc, hend, rfl⟩ | ⟨l, r, hpc, he⟩
  · exact h.quiet hq (hpc ▸ hnow)
  · rw [hpc] at hnow
    refine h.quiet hq ?_
    rw [hpc', AtOk, hvisit]
    exact hnow
  · exact ⟨hnow, h.log⟩
  · exact ⟨hnow, h.log⟩
  · exact ⟨hnow, h.log⟩
  · exact ⟨hnow, h.log⟩
  · exact ⟨atOk_of_outside hpc', hlog ▸ h.log⟩
  · exact ⟨by rw [hpc']; exact layout_laidOut ht, hlog ▸ h.log⟩
  · rw [hpc] at hnow
    refine h.quiet hq ?_
    rw [hpc']
    exact ⟨hnow.report hlength hok, reported_report hlength⟩
  · rw [hpc] at hnow
    obtain ⟨hsnap, hcount⟩ := hnow
    rw [doHandled]
    split
    next hzero =>
      have husb : ({ d with usb := d.usb.ackTimeout env } : Daemon).Counting := ⟨h.now, h.log⟩
      exact husb.iterate (iterationOk_none hsnap (Nat.zero_le 3) (hcount.trans hzero))
    next hsome =>
      refine h.goto ⟨hsnap, ?_, by omega⟩
      show (reported snap.entries : ℤ) ≤ nready
      omega
  · rw [hpc] at hnow
    obtain ⟨hsnap, hleft, _⟩ := hnow
    have hadded : (d.addAccepted env kind fd nonblocking).Counting := by
      refine ⟨by rw [addAccepted_pc]; exact h.now, fun snap' loop he => h.log snap' loop ?_⟩
      rcases addAccepted_cases env d kind fd nonblocking with ⟨s, _, heq⟩ | heq
      · rw [heq] at he
        exact (List.mem_cons.mp he).resolve_left (by rintro ⟨⟩)
      · rw [heq] at he
        exact (List.mem_cons.mp he).resolve_left (by rintro ⟨⟩)
    exact hadded.afterAccept hsnap (reported_listenerReady hready hleft)
  · rw [hpc] at hnow
    exact h.afterAccept hnow.1 (reported_listenerReady hready hnow.2.1)
  · rw [hpc] at hnow
    obtain ⟨hsnap, hleft, hmore⟩ := hnow
    have hless := reported_succ_le snap.entries kind.index
    exact h.afterListener hsnap (by omega) hmore
  · exact h.service ht hpc hs
  · rw [hpc] at hnow
    exact h.iterate (hnow.done hend)
  · rw [hpc] at hnow
    obtain ⟨hl, hok, e, hentry, hany⟩ := hnow
    obtain ⟨_, rfl⟩ := doEncoded_eq he
    have hstate : ∀ state, (d.setState r.slot state).Counting := fun state => ⟨h.now, h.log⟩
    rcases counted_cases (d.setState r.slot { (d.clients.slot r.slot).state with remlen := r.remptr })
      l r.visit with ⟨hlast, heq⟩ | ⟨hmore, heq⟩
    · rw [heq]
      exact (hstate _).iterate (hl.last hok hentry hany hlast)
    · rw [heq]
      exact (hstate _).goto (hl.next_counted hok hentry hany hmore)

theorem Reachable.counting (h : Reachable env d) : d.Counting :=
  Transition.Run.invariant_along h ⟨trivial, fun _ _ he => nomatch he⟩
    fun _ _ _ hr hi _ hs => hi.step (Reachable.tables hr) hs

/-- **In every iteration the clients that are ready are served, and no other record is examined,
exactly if the service loop begins where they were laid out.** -/
theorem iteration_served_iff (h : Reachable env d) {snap : Snapshot} {loop : Option (ℕ × List Visit)}
    (hend : Ev.iterated snap loop ∈ d.log) : snap.ServedBy loop ↔ snap.Unmoved loop := by
  have hok := h.counting.log snap loop hend
  cases loop with
  | none => exact iff_of_true hok trivial
  | some ended => exact hok.served_iff

/-- What `Pollfds` was in an iteration that began with one client and no descriptor of libusb. -/
def oneClient (r : Revents) : Snapshot where
  entries := [⟨⟨3, true, false⟩, .none, .listener⟩, ⟨⟨4, true, false⟩, .none, .listener⟩,
    ⟨⟨5, true, false⟩, .none, .listener⟩, ⟨⟨6, true, false⟩, r, .client (some 0)⟩]
  npollfds := 4
  nusb := 0

/-- A client is ready, and is read. -/
theorem served_one : ∃ d, Reachable (.plain mochadConfigDefaults false) d ∧
    (oneClient ⟨true, false, false, false⟩).ServedBy (some (0, [⟨3, false, false, true⟩])) := by
  obtain ⟨d, hd, hmem⟩ : ∃ d, Reachable (.plain mochadConfigDefaults false) d ∧
      Ev.iterated (oneClient ⟨true, false, false, false⟩) (some (0, [⟨3, false, false, true⟩])) ∈
        d.log :=
    Transition.exists_run_of_exec (connect .main ++ readClient (ascii "s") ++ [.byte, .encoded])
      (by decide +kernel)
  exact ⟨d, hd, (iteration_served_iff hd hmem).mpr (Or.inl rfl)⟩

/-- **A client that is ready can be passed over**: libusb wants one more descriptor polled, and
the loop begins behind the client. -/
theorem client_skipped : ¬ ∀ env d snap loop, Reachable env d →
    Ev.iterated snap loop ∈ d.log → snap.ServedBy loop := by
  intro hall
  obtain ⟨d, hd, hmem⟩ : ∃ d, Reachable (.plain mochadConfigDefaults false) d ∧
      Ev.iterated (oneClient ⟨true, false, false, false⟩) (some (1, [])) ∈ d.log :=
    Transition.exists_run_of_exec (connect .main ++ [.layOut none,
      .pollReturned [.none, .none, .none, ⟨true, false, false, false⟩] 0, .otherOpened 7,
      .pollfdAdded ⟨7, true, false⟩ true, .handled, .notReady, .notReady, .notReady, .served])
      (by decide +kernel)
  have hserved : (oneClient ⟨true, false, false, false⟩).Served [] := hall _ d _ _ hd hmem
  have hsome : (oneClient ⟨true, false, false, false⟩).clientIndices ≠ [] := by decide
  exact hserved.first hsome rfl

end Daemon

end Mochad
