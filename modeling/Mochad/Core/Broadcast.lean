import Mochad.Core.Stall
import Mochad.Core.Texts

/-!
# Lines for all

An event is a line for every main and every XML client. The line is queued for one client after
the other, by descriptor, and a client whose queue is too full for it is closed on the way. What
happens to a client depends on its own slot only (`Daemon.sockprintf_all_slot`): either the whole
line joins its queue, or it is closed; and OpenRemote clients are passed over.

What joins the queue of an OpenRemote client is an answer to the line that it sent, and joins it
while that line is executed (`OwnText`).
-/

namespace Mochad

/-- **The slot of a client for which a text was queued.** -/
def Slot.told (text : Bytes) (v : Slot) : Slot :=
  match v.output.enqueue text with
  | some output => { v with output := output }
  | none => Clients.Slot.freed v

/-- A line of a connection is being executed, and the clients have been answered since. -/
def DuringCommand (c : ℕ) (fd : ℤ) (log : List Ev) : Prop :=
  ∃ es line older, log = es ++ .command (some c) fd line :: older ∧ ∀ e ∈ es, e.isReply = true

/-- **A text for an OpenRemote client** is an answer to its own line. -/
def OwnText (conn : Option ℕ) (fd : ℤ) (_bytes : Bytes) (older : List Ev) : Prop :=
  ∀ c, conn = some c → CameFrom .or20 c older → DuringCommand c fd older

namespace Daemon

variable {env : Env} {d d' : Daemon}

/-! ### One line for all -/

/-- **A text for a client** is the business of its slot only. -/
theorem queueClientBytes_slot (hwf : d.clients.Wf) {s : SlotId} (hs : (d.clients.slot s).fd ≠ -1)
    {text : Bytes} (htext : text ≠ []) (t : SlotId) :
    (d.queueClientBytes env (d.clients.slot s).fd text).1.clients.slot t =
      if t = s then (d.clients.slot s).told text else d.clients.slot t := by
  have hfind := hwf.find_eq hs
  rw [queueClientBytes, if_neg htext]
  generalize hfd : (d.clients.slot s).fd = fd at hfind
  have hfound : (d.record (.addressed (d.connAt fd) fd text)).clients.find fd = some s := hfind
  have hslot : (d.record (.addressed (d.connAt fd) fd text)).clients.slot = d.clients.slot := rfl
  generalize d.record (.addressed (d.connAt fd) fd text) = a at hfound hslot
  rw [← hslot]
  simp only [enqueueBytes, hfound, Slot.told]
  cases (a.clients.slot s).output.enqueue text with
  | some output =>
    show (a.setOutput s output).clients.slot t = _
    split
    next hts => rw [hts, setOutput_self]
    next hts => exact setOutput_of_ne a output hts
  | none =>
    have hdel : a.delClient fd = a.closeSlot s := by rw [delClient, hfound]
    show (a.delClient fd).clients.slot t = _
    rw [hdel]
    split
    next hts =>
      rw [hts]
      exact a.closeSlot_self s
    next hts => exact a.closeSlot_of_ne hts

/-- **A line for a table** is queued for every client of it. -/
theorem toAll_slot (hwf : d.clients.Wf) {kind : Kind} (hkind : kind ≠ .or20) {line : Bytes}
    (hline : line ≠ []) (s : SlotId) :
    (d.toAll env kind line).clients.slot s =
      if s.1 = kind ∧ 0 < (d.clients.slot s).fd then (d.clients.slot s).told line
      else d.clients.slot s := by
  suffices hlist : ∀ is : List (Fin maxCliSockets), is.Nodup → ∀ a : Daemon, a.clients.Wf →
      (is.foldl (fun d i =>
        let fd := (d.clients.slot (kind, i)).fd
        if 0 < fd then (d.queueClientBytes env fd line).1 else d) a).clients.slot s =
        if s.1 = kind ∧ s.2 ∈ is ∧ 0 < (a.clients.slot s).fd then (a.clients.slot s).told line
        else a.clients.slot s by
    rw [toAll, hlist _ (List.nodup_finRange _) d hwf]
    simp only [List.mem_finRange, true_and]
  intro is
  induction is with
  | nil => simp
  | cons i is ih =>
    intro hnodup a ha
    obtain ⟨hi, his⟩ := List.nodup_cons.mp hnodup
    rw [List.foldl_cons]
    dsimp only
    -- the clients before this one are passed by from now on
    have hone : ∀ b : Daemon, b.clients.Wf →
        (b.clients.slot s = if s = (kind, i) ∧ 0 < (a.clients.slot s).fd then
          (a.clients.slot s).told line else a.clients.slot s) →
        (is.foldl (fun d i =>
          let fd := (d.clients.slot (kind, i)).fd
          if 0 < fd then (d.queueClientBytes env fd line).1 else d) b).clients.slot s =
          if s.1 = kind ∧ s.2 ∈ i :: is ∧ 0 < (a.clients.slot s).fd then
            (a.clients.slot s).told line else a.clients.slot s := by
      intro b hb hslot
      rw [ih his b hb]
      by_cases hs : s = (kind, i)
      · subst hs
        rw [if_neg (fun h => hi h.2.1), hslot]
        simp
      · rw [if_neg (fun h => hs h.1)] at hslot
        have hmem : s.1 = kind → (s.2 ∈ i :: is ↔ s.2 ∈ is) := by
          rintro hk
          rw [List.mem_cons, or_iff_right]
          rintro rfl
          exact hs (Prod.ext hk rfl)
        rw [hslot]
        by_cases hk : s.1 = kind
        · simp only [hk, hmem hk, true_and]
        · simp only [hk, false_and]
    split
    next hpos =>
      have hlive : (a.clients.slot (kind, i)).fd ≠ -1 := by omega
      have hmoves : Moves env .loop a _ :=
        queueClientBytes_moves_of_live hlive (ha.find_eq hlive) (Or.inr hkind) line
      refine hone _ (hmoves.wf ha) ?_
      rw [queueClientBytes_slot ha hlive hline]
      by_cases hs : s = (kind, i)
      · subst hs
        rw [if_pos rfl, if_pos ⟨rfl, hpos⟩]
      · rw [if_neg hs, if_neg fun h => hs h.1]
    next hneg =>
      refine hone a ha ?_
      rw [if_neg]
      rintro ⟨rfl, hpos⟩
      exact hneg hpos

/-- **A line for all.** -/
theorem sockprintf_all_slot (env : Env) (hwf : d.clients.Wf) (body : Bytes) (s : SlotId) :
    (d.sockprintf env (-1) body).clients.slot s =
      if 0 < (d.clients.slot s).fd then
        match s.1 with
        | .main => (d.clients.slot s).told (stampedLine env d.stampReads body)
        | .xml => (d.clients.slot s).told (nulTerminated (stampedLine env d.stampReads body))
        | .or20 => d.clients.slot s
      else d.clients.slot s := by
  have hline := stampedLine_ne_nil env d.stampReads body
  have hxml := nulTerminated_ne_nil hline
  rw [sockprintf, if_pos rfl]
  generalize stampedLine env d.stampReads body = line at hline hxml
  have hwf₁ : Clients.Wf (Daemon.clients { d with stampReads := d.stampReads + 1 }) := hwf
  have hslot₁ : (Daemon.clients { d with stampReads := d.stampReads + 1 }).slot = d.clients.slot :=
    rfl
  generalize ({ d with stampReads := d.stampReads + 1 } : Daemon) = a at hwf₁ hslot₁
  have hmain : Moves env .loop a (a.toAll env .main line) := toAll_moves hwf₁ (by decide) line
  rw [toAll_slot (hmain.wf hwf₁) (by decide) hxml, toAll_slot hwf₁ (by decide) hline, ← hslot₁]
  obtain ⟨kind, i⟩ := s
  cases kind with
  | main | xml | or20 => simp

/-- **What becomes of a client that is told something**: the whole text joins its queue, or there
is no room for it and the client is closed. -/
inductive Told (d d' : Daemon) (s : SlotId) (text : Bytes) : Prop
  | appended (hfits : text.length ≤ (d.clients.slot s).output.space)
      (hslot : d'.clients.slot s = { d.clients.slot s with output := (d'.clients.slot s).output })
      (hdesc : d'.descs (d.clients.slot s).fd = d.descs (d.clients.slot s).fd)
      (hcontents : (d'.clients.slot s).output.contents =
        (d.clients.slot s).output.contents ++ text)
  | disconnected (hfull : (d.clients.slot s).output.space < text.length)
      (hslot : (d'.clients.slot s).fd = -1) (hdesc : d'.descs (d.clients.slot s).fd = none)

/-- **What becomes of a client that is told nothing.** -/
structure Spared (d d' : Daemon) (s : SlotId) : Prop where
  slot : d'.clients.slot s = d.clients.slot s
  desc : d'.descs (d.clients.slot s).fd = d.descs (d.clients.slot s).fd

/-- A client that keeps its descriptor keeps its connection. -/
theorem descs_of_kept {cause : Cause} (ht : d.Tables env) (hm : Moves env cause d d') {s : SlotId}
    (hs : (d.clients.slot s).fd ≠ -1) (hkept : (d'.clients.slot s).fd = (d.clients.slot s).fd) :
    d'.descs (d.clients.slot s).fd = d.descs (d.clients.slot s).fd := by
  rcases (hm.quiet ht).descs (d.clients.slot s).fd with heq | ⟨hnone, _⟩
  · exact heq
  · obtain ⟨c, _, hc⟩ := (ht.moves hm).conn s (by rwa [hkept])
    rw [hkept, hnone] at hc
    cases hc

/-- A client that loses its slot loses its connection. -/
theorem descs_of_closed {cause : Cause} (ht : d.Tables env) (hm : Moves env cause d d') {s : SlotId}
    (hs : (d.clients.slot s).fd ≠ -1) (hclosed : (d'.clients.slot s).fd = -1) :
    d'.descs (d.clients.slot s).fd = none := by
  rcases (hm.quiet ht).descs (d.clients.slot s).fd with heq | ⟨hnone, _⟩
  · obtain ⟨c, _, hc⟩ := ht.conn s hs
    obtain ⟨t, htfd⟩ := (ht.moves hm).slot _ c _ (heq.trans hc)
    have hfd : ∀ u, (d'.clients.slot u).fd = (d.clients.slot u).fd ∨ (d'.clients.slot u).fd = -1 := by
      intro u
      refine Moves.invariant (P := fun a => (a.clients.slot u).fd = (d.clients.slot u).fd ∨
        (a.clients.slot u).fd = -1) hm (Or.inl rfl) fun a b ha hab => ?_
      rcases hab.fd u with hsame | hneg
      · exact hsame ▸ ha
      · exact Or.inr hneg
    rcases hfd t with hsame | hneg
    · -- no other slot has the descriptor
      obtain rfl := ht.wf.distinct s t hs (htfd.symm.trans hsame)
      exact absurd (htfd.symm.trans hclosed) hs
    · exact absurd (htfd.symm.trans hneg) hs
  · exact hnone

theorem told_of_slot {cause : Cause} (ht : d.Tables env) (hm : Moves env cause d d') {s : SlotId}
    (hs : (d.clients.slot s).fd ≠ -1)
    (hfits : (d.clients.slot s).output.len ≤ clientOutputQueueSize) {text : Bytes}
    (hslot : d'.clients.slot s = (d.clients.slot s).told text) : d.Told d' s text := by
  rw [Slot.told] at hslot
  cases henq : (d.clients.slot s).output.enqueue text with
  | some output =>
    have hroom : text.length ≤ (d.clients.slot s).output.space := by
      by_contra hless
      rw [ClientOutput.enqueue_eq_none_iff.mpr (not_le.mp hless)] at henq
      cases henq
    rw [henq] at hslot
    refine .appended hroom ?_ (descs_of_kept ht hm hs ?_) ?_
    · rw [hslot]
    · rw [hslot]
    · rw [hslot]
      exact ClientOutput.contents_enqueue hfits henq
  | none =>
    rw [henq] at hslot
    have hclosed : (d'.clients.slot s).fd = -1 := congrArg Slot.fd hslot
    exact .disconnected (ClientOutput.enqueue_eq_none_iff.mp henq) hclosed
      (descs_of_closed ht hm hs hclosed)

/-- **What holds at any time**: the tables hold the open connections, and no queue is overfull. -/
structure Sound (env : Env) (d : Daemon) : Prop extends Tables env d where
  fits : ∀ s, (d.clients.slot s).output.len ≤ clientOutputQueueSize

theorem Reachable.sound (h : Reachable env d) : d.Sound env := by
  obtain ⟨w, hw⟩ := Transition.Run.watched h observe unwatched
  exact ⟨Reachable.tables h, fun s => (clocked_of_run hw s).fits⟩

/-- A line that ends in a newline, where it fits its buffer. -/
theorem stampedLine_eq (htimes : env.TimesInRange) (reads : ℕ) {body : Bytes}
    (hbody : body.length ≤ 1000) : stampedLine env reads (body ++ ascii "\n") =
      strftime (env.localtime (env.stampTime reads)) ++ body ++ [0x0a] := by
  have hlen := length_strftime (htimes (env.stampTime reads))
  rw [stampedLine, hlen, formatBounded, List.take_of_length_le, ← List.append_assoc]
  · rfl
  · rw [List.length_append]
    have hone : (ascii "\n").length = 1 := rfl
    omega

theorem nulTerminated_newline (line : Bytes) : nulTerminated (line ++ [0x0a]) = line ++ [0] := by
  rw [nulTerminated, if_pos (by simp), List.dropLast_concat]

/-! ### What joins the queue of an OpenRemote client -/

/-- What is printed to all is no text for an OpenRemote client. -/
theorem ownText_of_all (h : d.Known) {e : Effect} (he : e.PrintsTo (-1)) {fd : ℤ} {bytes : Bytes}
    (ho : Offers env d e fd bytes) :
    OwnText (d.connAt fd) fd bytes (.addressed (d.connAt fd) fd bytes :: d.log) := by
  have hkind : ∀ s : SlotId, s.1 ≠ .or20 → ∀ text,
      OwnText (d.connAt (d.clients.slot s).fd) (d.clients.slot s).fd text
        (.addressed (d.connAt (d.clients.slot s).fd) (d.clients.slot s).fd text :: d.log) := by
    intro s hs text c hc hcame
    exact absurd (h.kind s c hc .or20 ((cameFrom_cons (by exact id)).mp hcame)).symm hs
  cases ho with
  | main body reads i hpos => exact hkind (.main, i) (by simp) _
  | xml body reads i hpos => exact hkind (.xml, i) (by simp) _
  | reply f body reads hfd => exact absurd he hfd
  | status f text => exact he.elim

/-- **An answer to the client whose line is executed.** -/
theorem ownText_of_line (ht : d.Tables env) (hk : d.Known) {l : ServiceLoop} {r : Reading}
    (hpc : d.pc = .encode l r) {line : Bytes} {b : Daemon}
    (hb : Moves env (.command r.fd) (d.record (.command r.conn r.fd line)) b) {e : Effect}
    (he : e.For r.fd) {fd : ℤ} {bytes : Bytes} (ho : Offers env b e fd bytes) :
    OwnText (b.connAt fd) fd bytes (.addressed (b.connAt fd) fd bytes :: b.log) := by
  have htc := ht.record (.command r.conn r.fd line)
  have hkc : (d.record (.command r.conn r.fd line)).Known :=
    (known_kept env).command line ht hk hpc
  have hkb : b.Known := (known_kept env).moves htc hkc hb
  rcases he with he | he
  · -- the sender is answered, as the connection that it was when it was read
    obtain rfl : fd = r.fd := by
      cases ho with
      | main | xml => exact absurd (htc.reading l r hpc) (by rw [show r.fd = -1 from he.symm]; simp)
      | reply => exact he
      | status => exact he.1
    intro c hc _
    have hconn : b.connAt r.fd = r.conn := by
      rcases hkb.reader l r (hb.pc_eq.trans hpc) with ⟨_, hsame⟩ | hnone
      · exact hsame
      · rw [hnone] at hc
        cases hc
    obtain ⟨es, hes, hreply⟩ := hb.log
    refine ⟨.addressed (b.connAt r.fd) r.fd bytes :: es, line, d.log, ?_, fun x hx => ?_⟩
    · rw [hes, ← hc, hconn]
      rfl
    · rcases List.mem_cons.mp hx with rfl | hx
      · rfl
      · exact hreply x hx
  · exact ownText_of_all hkb he ho

theorem texts_own_step (ht : d.Tables env) (hk : d.Known) (h : Texts OwnText d.log) {label : Label}
    (hs : d.step env label = some d') : Texts OwnText d'.log := by
  rcases step_talk hs with hmum | ⟨usb, usb', data, _, rfl⟩ | ⟨l, r, b, rest, line, _, hpc, _, _, rfl⟩
  · exact hmum.texts h
  · have ht₁ : Daemon.Tables env { d with usb := usb } := ht.idle (idle_usb usb)
    have hk₁ : ∀ buf, Daemon.Known { d with usb := usb, intrInBuf := buf } := fun buf =>
      hk.same [] (fun _ => rfl) rfl rfl rfl nofun fun l r hp => ⟨l, r, hp, rfl, rfl, rfl⟩
    have ht₂ : ∀ buf, Daemon.Tables env { d with usb := usb, intrInBuf := buf } := fun buf =>
      ht.congr ht.wf (fun _ => rfl) rfl rfl ht.reading id
    refine texts_decode (d := { d with usb := usb }) ht₁ data (fun e he a ha x bytes ho => ?_) h
    have hall : e.PrintsTo (-1) := packetCalls_all (ht₂ _) data e he
    exact ownText_of_all ((known_kept env).moves (ht₂ _) (hk₁ _) ha) hall ho
  · have hafter : (d.afterByte l r b rest).Tables env := ht.afterByte hpc b rest
    have hknown : (d.afterByte l r b rest).Known := (known_kept env).byte b rest ht hk hpc
    have htexts : Texts OwnText (d.afterByte l r b rest).log := h.cons rfl
    obtain ⟨r', hpc', hfd, hconn⟩ : ∃ r', (d.afterByte l r b rest).pc = .encode l r' ∧
        r'.fd = r.fd ∧ r'.conn = r.conn := ⟨_, rfl, rfl, rfl⟩
    generalize d.afterByte l r b rest = a at hafter hknown htexts hpc'
    refine texts_runLine hafter (ht.reading l r hpc) (fun hp e he a' ha x bytes ho => ?_) htexts
    have hneg : (a.record (.command r.conn r.fd line)).descs (-1) = none := hafter.descs
    have hfor := emits_processcommandline _ r.fd (or20client_neg hneg) hp _ e he
    rw [← hfd, ← hconn] at ha
    exact ownText_of_line hafter hknown hpc' ha (hfd.symm ▸ hfor) ho

theorem Reachable.texts_own (h : Reachable env d) : Texts OwnText d.log := by
  induction h with
  | refl => exact Trace.each_nil
  | tail hr hst ih =>
    obtain ⟨label, _, hs⟩ := hst
    exact texts_own_step (Reachable.tables hr) (Reachable.known hr) ih hs

theorem runX10_sockprintf (fd : ℤ) (body : Bytes) :
    d.runX10 env (Mochad.sockprintf fd body) = d.sockprintf env fd body := rfl

/-- **An event is a line for every main and every XML client, and none of its business for the
others.** Whatever clients there are, each of the first two kinds gets the whole line, or is closed
because it has no room for it, whatever becomes of the others; and what joins the queue of an
OpenRemote client answers its own line. -/
theorem broadcast_isolated (htimes : env.TimesInRange) :
    (∀ d : Daemon, d.Sound env → ∀ event body, mochadEventFormatLegacyBody event 256 = some body →
      ∀ s, 0 < (d.clients.slot s).fd →
        match s.1 with
        | .main => d.Told (d.runX10 env (mochadDispatchEvent (-1) event)) s
            (strftime (env.localtime (env.stampTime d.stampReads)) ++ body ++ [0x0a])
        | .xml => d.Told (d.runX10 env (mochadDispatchEvent (-1) event)) s
            (strftime (env.localtime (env.stampTime d.stampReads)) ++ body ++ [0])
        | .or20 => d.Spared (d.runX10 env (mochadDispatchEvent (-1) event)) s) ∧
      ∀ d : Daemon, Reachable env d → d.Sound env ∧ ∀ c fd bytes older,
        .queued (some c) fd bytes :: older <:+ d.log → CameFrom .or20 c older →
          DuringCommand c fd older := by
  refine ⟨fun d hd event body hbody s hs => ?_, fun d hd => ⟨Reachable.sound hd, ?_⟩⟩
  · have hlen : body.length ≤ 1000 := by
      simp only [mochadEventFormatLegacyBody, checkedSnprintf] at hbody
      split at hbody
      · obtain rfl := Option.some.inj hbody
        omega
      · cases hbody
    have hrun : d.runX10 env (mochadDispatchEvent (-1) event) =
        d.sockprintf env (-1) (body ++ ascii "\n") := by
      rw [mochadDispatchEvent, hbody, ← runX10_sockprintf]
    have hline := stampedLine_eq htimes d.stampReads hlen
    have hlive : (d.clients.slot s).fd ≠ -1 := by omega
    have hmoves : Moves env .loop d (d.sockprintf env (-1) (body ++ ascii "\n")) :=
      sockprintf_all_moves hd.wf _
    have hslot := sockprintf_all_slot env hd.wf (body ++ ascii "\n") s
    rw [if_pos hs, hline, nulTerminated_newline] at hslot
    rw [hrun]
    obtain ⟨kind, i⟩ := s
    cases kind with
    | main => exact told_of_slot hd.toTables hmoves hlive (hd.fits _) hslot
    | xml => exact told_of_slot hd.toTables hmoves hlive (hd.fits _) hslot
    | or20 => exact ⟨hslot, descs_of_kept hd.toTables hmoves hlive (congrArg Slot.fd hslot)⟩
  · intro c fd bytes older hq hcame
    exact (Reachable.texts_own hd).of_queued hq c rfl hcame

/-- The first of January, at midnight. -/
theorem plain_timesInRange (config : MochadConfig) (cm19a : Bool) :
    (Env.plain config cm19a).TimesInRange := fun _ => by
  constructor <;> simp [Env.plain]

/-- A Dim, off the power line. -/
def dimEvent : MochadEvent :=
  { direction := .rx, transport := .pl, detail := .house, house := 0x41,
    function := some (ascii "Dim"), hasLevel := true, level := 7 }

/-- A main client is told of it. -/
theorem broadcast_isolated_one : ∃ d, Reachable (.plain mochadConfigDefaults false) d ∧
    d.Told (d.runX10 (.plain mochadConfigDefaults false) (mochadDispatchEvent (-1) dimEvent))
      (.main, 0) (ascii "01/01 00:00:00 Rx PL House: A Func: Dim(7)\n") := by
  obtain ⟨d, hd, hfd⟩ : ∃ d, Reachable (.plain mochadConfigDefaults false) d ∧
      (d.clients.slot (.main, 0)).fd = 6 :=
    Transition.exists_run_of_exec (connect .main) (by decide +kernel)
  have hline : strftime ⟨0, 0, 0, 1, 0, 4, 0⟩ ++ ascii "Rx PL House: A Func: Dim(7)" ++ [0x0a] =
      ascii "01/01 00:00:00 Rx PL House: A Func: Dim(7)\n" := by decide +kernel
  have htold := (broadcast_isolated (plain_timesInRange mochadConfigDefaults false)).1 d
    (Reachable.sound hd) dimEvent (ascii "Rx PL House: A Func: Dim(7)") (by decide) (.main, 0)
    (by rw [hfd]; decide)
  rw [← hline]
  exact ⟨d, hd, htold⟩

end Daemon

end Mochad
