import Mochad.Core.Broadcast
import Mochad.X10.Answers

/-!
# Messages for XML clients

An XML client reads messages that end in a NUL. `sockprintf` makes one by putting a NUL in the
place of a final newline, and so every line that is printed to all is framed (`framed_of_legible`).
But `statusprintf` puts none, and the answers that `sockprintf` prints to a sender end in a newline
and a carriage return, in one order or the other: no answer to an XML client is framed
(`not_framed_of_ragged`).

`Daemon.XmlUnanswered` is what a step must meet for all messages to be framed: no XML client sends
a line that is answered.
-/

namespace Mochad

/-- **A message for an XML client**: a text without line ends at its end, and then the one NUL. -/
def XmlFramed (message : Bytes) : Prop :=
  ∃ body, message = body ++ [0] ∧ (0 : UInt8) ∉ body ∧ body.getLast? ≠ some 0x0a ∧
    body.getLast? ≠ some 0x0d

/-- A listener accepted an XML client. -/
def Ev.acceptsXml (c : ℕ) : Ev → Bool
  | .accepted conn _ kind => conn = c ∧ kind = .xml
  | _ => false

/-- The message that an event has for a connection. -/
def Ev.messageTo (c : ℕ) : Ev → List Bytes
  | .queued (some conn) _ bytes => if conn = c then [bytes] else []
  | _ => []

/-- **The messages for an XML client**, from the first. -/
def xmlMessages (c : ℕ) (log : List Ev) : List Bytes :=
  Trace.collect (Ev.messageTo c) (Trace.gap (Ev.acceptsXml c) log)

/-- **A text for an XML client is framed.** -/
def XmlText (conn : Option ℕ) (_fd : ℤ) (bytes : Bytes) (older : List Ev) : Prop :=
  ∀ c, conn = some c → CameFrom .xml c older → XmlFramed bytes

theorem marked_acceptsXml {c : ℕ} {log : List Ev} :
    Trace.Marked (Ev.acceptsXml c) log ↔ CameFrom .xml c log := by
  have hsame : ∀ e : Ev, e.acceptsXml c = true ↔ e.accepts c .xml := by
    intro e
    cases e with
    | accepted conn fd kind => simp [Ev.acceptsXml, Ev.accepts]
    | _ => simp [Ev.acceptsXml, Ev.accepts]
  simp only [Trace.Marked, CameFrom, hsame]

/-- Every message for an XML client is one of its texts. -/
theorem framed_of_mem_xmlMessages {c : ℕ} {log : List Ev} (h : Texts XmlText log)
    (hcame : CameFrom .xml c log) {m : Bytes} (hm : m ∈ xmlMessages c log) : XmlFramed m := by
  obtain ⟨e, he, hmessage⟩ := Trace.mem_collect.mp hm
  obtain ⟨older, hsuffix, hmarked⟩ := Trace.suffix_of_mem_gap (marked_acceptsXml.mpr hcame) he
  cases e with
  | queued conn fd bytes =>
    cases conn with
    | none => cases hmessage
    | some conn =>
      simp only [Ev.messageTo] at hmessage
      split at hmessage
      next hconn =>
        rw [List.mem_singleton.mp hmessage]
        exact h.of_queued hsuffix c (by rw [hconn]) (marked_acceptsXml.mp hmarked)
      · cases hmessage
  | _ => cases hmessage

/-- **A reader that cuts at NULs gets the messages back.** -/
theorem splitOnP_of_framed {messages : List Bytes} (h : ∀ m ∈ messages, XmlFramed m) :
    messages.flatten.splitOnP (· = 0) = messages.map List.dropLast ++ [[]] := by
  have hdrop : ∀ m ∈ messages, m.dropLast ++ [0] = m ∧ ∀ a ∈ m.dropLast, (a = 0) = False := by
    intro m hm
    obtain ⟨body, rfl, hzero, -⟩ := h m hm
    rw [List.dropLast_concat]
    exact ⟨rfl, fun a ha => eq_false fun h0 => hzero (h0 ▸ ha)⟩
  have hmap : (messages.map List.dropLast).map (fun body => body ++ [0]) = messages := by
    rw [List.map_map]
    exact (List.map_congr_left fun m hm => (hdrop m hm).1).trans (List.map_id messages)
  have hsplit : (((messages.map List.dropLast).map fun body => body ++ [0]).flatten).splitOnP
      (fun a : UInt8 => decide (a = 0)) = messages.map List.dropLast ++ [[]] := by
    refine Framing.splitOnP_terminated (by decide) fun body hbody a ha => ?_
    obtain ⟨m, hm, rfl⟩ := List.mem_map.mp hbody
    simp [(hdrop m hm).2 a ha]
  rwa [hmap] at hsplit

/-! ### What is framed, and what is not -/

namespace Daemon

variable {env : Env} {d d' : Daemon}

theorem printable_strftime (tm : Tm) : Printable (strftime tm) := by
  have hfixed : Printable (ascii "/") ∧ Printable (ascii " ") ∧ Printable (ascii ":") := by decide
  have htwo : ∀ n, Printable (fmt2 n) := fun n => printable_fmtPad (by decide) (by decide) 2 n
  simp [strftime, hfixed, htwo]

theorem framed_of_legible (htimes : env.TimesInRange) {e : Effect} (h : e.Legible)
    {body : Bytes} (he : e = .sockprintf (-1) body) (reads : ℕ) :
    XmlFramed (nulTerminated (stampedLine env reads body)) := by
  obtain ⟨line, rfl, hprint, hlen⟩ := h body he
  have hall : Printable (strftime (env.localtime (env.stampTime reads)) ++ line) :=
    printable_append.mpr ⟨printable_strftime _, hprint⟩
  rw [stampedLine_eq htimes reads hlen, nulTerminated_newline]
  generalize strftime (env.localtime (env.stampTime reads)) ++ line = text at hall
  have hlast : ∀ b : UInt8, b < 0x20 → text.getLast? ≠ some b := fun b hb hlast =>
    absurd (hall b (List.mem_of_getLast? hlast)) (UInt8.not_le.mpr hb)
  exact ⟨text, rfl, fun h0 => absurd (hall 0 h0) (by decide), hlast 0x0a (by decide),
    hlast 0x0d (by decide)⟩

/-- What does not end in a NUL is not framed. -/
theorem not_framed_of_getLast {bytes : Bytes} (h : bytes.getLast? ≠ some 0) : ¬XmlFramed bytes := by
  rintro ⟨body, rfl, -⟩
  exact h List.getLast?_concat

/-- A line that fits its buffer is printed as it is. -/
theorem stampedLine_of_le (htimes : env.TimesInRange) (reads : ℕ) {body : Bytes}
    (h : body.length ≤ 1000) :
    stampedLine env reads body = strftime (env.localtime (env.stampTime reads)) ++ body := by
  have hlen := length_strftime (htimes (env.stampTime reads))
  rw [stampedLine, hlen, formatBounded, List.take_of_length_le (by omega)]

/-- **A ragged answer is not framed.** -/
theorem not_framed_of_ragged (htimes : env.TimesInRange) {fd : ℤ}
    (hfd : fd ≠ -1) (hxml : d.clients.xmlclient fd = true) {e : Effect} (h : e.Ragged fd) :
    ∃ bytes, Offers env d e fd bytes ∧ ¬XmlFramed bytes := by
  cases e with
  | sockprintf f body =>
    obtain ⟨rfl, text, hlen, hbody⟩ := h
    have htwo : (ascii "\n\r").length = 2 ∧ (ascii "\r\n").length = 2 := ⟨rfl, rfl⟩
    have hshort : body.length ≤ 1000 := by
      rcases hbody with rfl | rfl
      · rw [List.length_append]
        omega
      · rw [List.length_append]
        omega
    have hoffer : Offers env d (.sockprintf f body) f
        (if d.clients.xmlclient f then nulTerminated (stampedLine env 0 body)
          else stampedLine env 0 body) := .reply f body 0 hfd
    rw [if_pos hxml, stampedLine_of_le htimes 0 hshort] at hoffer
    refine ⟨_, hoffer, ?_⟩
    generalize strftime (env.localtime (env.stampTime 0)) = stamp
    rcases hbody with rfl | rfl
    · -- the carriage return is last, and stays
      have hlast : (stamp ++ (text ++ ascii "\n\r")).getLast? = some 0x0d := by
        rw [← List.append_assoc, List.getLast?_append]
        rfl
      rw [nulTerminated, if_neg (by rw [hlast]; decide)]
      exact not_framed_of_getLast (by rw [hlast]; decide)
    · -- the newline goes, and the carriage return before it stays
      have hline : stamp ++ (text ++ ascii "\r\n") = stamp ++ text ++ [0x0d] ++ [0x0a] := by
        simp [ascii]
      rw [hline, nulTerminated_newline]
      rintro ⟨body, heq, -, -, hreturn⟩
      obtain ⟨rfl, -⟩ := List.append_inj' heq rfl
      exact hreturn List.getLast?_concat
  | statusprintf f text =>
    obtain ⟨rfl, -, hlast⟩ := h
    exact ⟨_, .status f text, not_framed_of_getLast hlast⟩
  | sendAll | x10Write => exact h.elim

/-- **A call that prints to all** has framed messages for XML clients. -/
theorem framed_of_offer (htimes : env.TimesInRange) (hwf : d.clients.Wf) {e : Effect}
    (hlegible : e.Legible) (hall : e.PrintsTo (-1)) {fd : ℤ} {bytes : Bytes}
    (ho : Offers env d e fd bytes) (hxml : d.clients.xmlclient fd = true) : XmlFramed bytes := by
  cases ho with
  | main body reads i hpos =>
    obtain ⟨j, -, hj⟩ := List.any_eq_true.mp hxml
    have hslot : ((.main, i) : SlotId) = (.xml, j) := by
      refine hwf.distinct _ _ ?_ (of_decide_eq_true hj)
      omega
    cases hslot
  | xml body reads i hpos => exact framed_of_legible htimes hlegible rfl reads
  | reply f body reads hfd => exact absurd hall hfd
  | status f text => exact hall.elim

/-! ### Runs -/

/-- **No XML client sends a line that is answered.** -/
def XmlUnanswered (env : Env) (d : Daemon) : Label → Prop
  | .byte => match d.pc with
    | .encode _ r => match r.rest with
      | b :: _ => match (encodeByte (d.clients.slot r.slot).state r.remptr b).2.2 with
        | some line => r.slot.1 = .xml → ¬Replied (d.or20client env r.fd) line
        | none => True
      | [] => True
    | _ => True
  | _ => True

instance (env : Env) (d : Daemon) (label : Label) : Decidable (d.XmlUnanswered env label) := by
  delta XmlUnanswered
  rcases label with ⟨⟩
  case byte =>
    dsimp only
    rcases d.pc with ⟨⟩
    case encode _ r =>
      dsimp only
      rcases r.rest with ⟨⟩
      case nil => exact instDecidableTrue
      case cons b rest =>
        dsimp only
        rcases (encodeByte (d.clients.slot r.slot).state r.remptr b).2.2 with ⟨⟩
        case none => exact instDecidableTrue
        case some line => dsimp only; infer_instance
    all_goals exact instDecidableTrue
  all_goals exact instDecidableTrue

/-- What is printed to all is framed for the XML clients. -/
theorem xmlText_of_all (htimes : env.TimesInRange) (h : d.Known) (hwf : d.clients.Wf) {e : Effect}
    (hlegible : e.Legible) (hall : e.PrintsTo (-1)) {fd : ℤ} {bytes : Bytes}
    (ho : Offers env d e fd bytes) :
    XmlText (d.connAt fd) fd bytes (.addressed (d.connAt fd) fd bytes :: d.log) := by
  intro c hc hcame
  refine framed_of_offer htimes hwf hlegible hall ho ?_
  have hkind : ∀ s, fd = (d.clients.slot s).fd → s.1 = .xml := by
    rintro s rfl
    exact (h.kind s c hc .xml ((cameFrom_cons (by exact id)).mp hcame)).symm
  cases ho with
  | main body reads i hpos => exact absurd (hkind (.main, i) rfl) (by simp)
  | xml body reads i hpos =>
    exact List.any_eq_true.mpr ⟨i, List.mem_finRange i, decide_eq_true rfl⟩
  | reply f body reads hfd => exact absurd hall hfd
  | status f text => exact hall.elim

/-- **A line** that is not answered, if the client is an XML client. -/
theorem xmlText_of_line (htimes : env.TimesInRange) (ht : d.Tables env) (hk : d.Known)
    {l : ServiceLoop} {r : Reading} (hpc : d.pc = .encode l r) {line : Bytes}
    (hp : ¬IsPolicyRequest line) (hquiet : r.slot.1 = .xml → ¬Replied (d.or20client env r.fd) line)
    {b : Daemon} (hb : Moves env (.command r.fd) (d.record (.command r.conn r.fd line)) b)
    {e : Effect}
    (he : e ∈ (Mochad.processcommandline ((d.record (.command r.conn r.fd line)).ctx env) r.fd line
      d.x10).effects) {fd : ℤ} {bytes : Bytes} (ho : Offers env b e fd bytes) :
    XmlText (b.connAt fd) fd bytes (.addressed (b.connAt fd) fd bytes :: b.log) := by
  have htc := ht.record (.command r.conn r.fd line)
  have hkc : (d.record (.command r.conn r.fd line)).Known :=
    (known_kept env).command line ht hk hpc
  have hkb : b.Known := (known_kept env).moves htc hkc hb
  have htb : b.Tables env := htc.moves hb
  have hneg : (d.record (.command r.conn r.fd line)).descs (-1) = none := htc.descs
  have hfd : r.fd ≠ -1 := ht.reading l r hpc
  have hlegible := legible_processcommandline _ hfd hp d.x10 e he
  rcases emits_processcommandline _ r.fd (or20client_neg hneg) hp d.x10 e he with hreply | hall
  · -- the sender is answered, so it is no XML client
    obtain rfl : fd = r.fd := by
      cases ho with
      | main | xml => exact absurd hreply.symm hfd
      | reply => exact hreply
      | status => exact hreply.1
    intro c hc hcame
    have hkind : r.slot.1 = .xml := by
      rcases hkb.reader l r (hb.pc_eq.trans hpc) with ⟨hfind, _⟩ | hnone
      · have hslot := Clients.fd_of_find hfind
        rw [← hslot] at hc
        exact (hkb.kind r.slot c hc .xml ((cameFrom_cons (by exact id)).mp hcame)).symm
      · rw [hnone] at hc
        cases hc
    have hprints := emits_of_not_replied _ r.fd (or20client_neg hneg) hp (hquiet hkind) d.x10 e he
    cases e with
    | sockprintf f body => exact absurd (hreply.symm.trans hprints) hfd
    | statusprintf => exact hprints.elim
    | sendAll | x10Write => exact hreply.elim
  · exact xmlText_of_all htimes hkb htb.wf hlegible hall ho

theorem texts_xml_step (htimes : env.TimesInRange) (ht : d.Tables env) (hk : d.Known)
    (h : Texts XmlText d.log) {label : Label} (hok : d.XmlUnanswered env label)
    (hs : d.step env label = some d') : Texts XmlText d'.log := by
  rcases step_talk hs with hmum | ⟨usb, usb', data, hlen, rfl⟩ |
    ⟨l, r, b, rest, line, rfl, hpc, hrest, hline, rfl⟩
  · exact hmum.texts h
  · have ht₁ : Daemon.Tables env { d with usb := usb } := ht.idle (idle_usb usb)
    have hk₂ : ∀ buf, Daemon.Known { d with usb := usb, intrInBuf := buf } := fun buf =>
      hk.same [] (fun _ => rfl) rfl rfl rfl nofun fun l r hp => ⟨l, r, hp, rfl, rfl, rfl⟩
    have ht₂ : ∀ buf, Daemon.Tables env { d with usb := usb, intrInBuf := buf } := fun buf =>
      ht.congr ht.wf (fun _ => rfl) rfl rfl ht.reading id
    refine texts_decode (d := { d with usb := usb }) ht₁ data (fun e he a ha x bytes ho => ?_) h
    have hall : e.PrintsTo (-1) := packetCalls_all (ht₂ _) data e he
    have hlegible : e.Legible := legible_decode (relaysLegibly_processDepth _ 2) hlen _ e he
    exact xmlText_of_all htimes ((known_kept env).moves (ht₂ _) (hk₂ _) ha) (ht₂ _ |>.moves ha).wf
      hlegible hall ho
  · simp only [XmlUnanswered, hpc, hrest, hline] at hok
    have hafter : (d.afterByte l r b rest).Tables env := ht.afterByte hpc b rest
    have hknown : (d.afterByte l r b rest).Known := (known_kept env).byte b rest ht hk hpc
    have htexts : Texts XmlText (d.afterByte l r b rest).log := h.cons rfl
    have hor : (d.afterByte l r b rest).or20client env r.fd = d.or20client env r.fd := rfl
    obtain ⟨r', hpc', hfd, hconn, hslot⟩ : ∃ r', (d.afterByte l r b rest).pc = .encode l r' ∧
        r'.fd = r.fd ∧ r'.conn = r.conn ∧ r'.slot = r.slot := ⟨_, rfl, rfl, rfl, rfl⟩
    generalize d.afterByte l r b rest = a at hafter hknown htexts hpc' hor
    refine texts_runLine hafter (ht.reading l r hpc) (fun hp e he a' ha x bytes ho => ?_) htexts
    rw [← hfd, ← hconn] at ha he
    rw [← hor, ← hslot, ← hfd] at hok
    exact xmlText_of_line htimes hafter hknown hpc' hp hok ha he ho

/-- **In every run in which no XML client is answered.** -/
theorem texts_xml (htimes : env.TimesInRange)
    (h : Transition.Run (step env) (XmlUnanswered env) (initial env) d) : Texts XmlText d.log := by
  induction h with
  | refl => exact Trace.each_nil
  | tail hr hst ih =>
    obtain ⟨label, hok, hs⟩ := hst
    have hreach : Reachable env _ := Transition.Run.free hr
    exact texts_xml_step htimes (Reachable.tables hreach) (Reachable.known hreach) ih hok hs

/-- **Messages for XML clients are framed as long as none of them is answered.** In every run in
which no XML client sends a line that is answered, each of them gets messages that end in their
only NUL, without a line end before it, so that a reader which cuts at NULs gets them back. And a
line that an XML client sends in any reachable state offers it framed messages only, if and only if
it is not answered. -/
theorem xml_framed (htimes : env.TimesInRange) :
    (∀ d : Daemon, Transition.Run (step env) (XmlUnanswered env) (initial env) d →
      ∀ c, CameFrom .xml c d.log → (∀ m ∈ xmlMessages c d.log, XmlFramed m) ∧
        (xmlMessages c d.log).flatten.splitOnP (· = 0) =
          (xmlMessages c d.log).map List.dropLast ++ [[]]) ∧
      ∀ d : Daemon, Reachable env d → ∀ fd, fd ≠ -1 → d.clients.xmlclient fd = true →
        ∀ line : Bytes, line.length ≤ lineCap →
          ((∀ e ∈ (Mochad.processcommandline (d.ctx env) fd line d.x10).effects, ∀ bytes,
            Offers env d e fd bytes → XmlFramed bytes) ↔ ¬Replied (d.or20client env fd) line) := by
  constructor
  · intro d hd c hc
    have hframed : ∀ m ∈ xmlMessages c d.log, XmlFramed m := fun m hm =>
      framed_of_mem_xmlMessages (texts_xml htimes hd) hc hm
    exact ⟨hframed, splitOnP_of_framed hframed⟩
  · intro d hd fd hfd hxml line hlen
    have ht := Reachable.tables hd
    have hneg : (d.ctx env).or20client (-1) = false := or20client_neg ht.descs
    constructor
    · intro hall hreplied
      obtain ⟨e, he, hragged⟩ := ragged_of_replied (d.ctx env) fd hneg hlen hreplied d.x10
      obtain ⟨bytes, ho, hnot⟩ := not_framed_of_ragged htimes hfd hxml hragged
      exact hnot (hall e he bytes ho)
    · intro hquiet e he bytes ho
      by_cases hp : IsPolicyRequest line
      · -- the policy is sent past the queue
        rw [processcommandline_policy (d.ctx env) fd hp, List.mem_singleton] at he
        rw [he] at ho
        cases ho
      · have hprints := emits_of_not_replied (d.ctx env) fd hneg hp hquiet d.x10 e he
        have hlegible := legible_processcommandline (d.ctx env) hfd hp d.x10 e he
        exact framed_of_offer htimes ht.wf hlegible hprints ho hxml

/-- An XML client is told of an event. -/
theorem xml_framed_one : ∃ d, Transition.Run (step (.plain mochadConfigDefaults false))
    (XmlUnanswered (.plain mochadConfigDefaults false)) (initial (.plain mochadConfigDefaults false)) d ∧
    xmlMessages 0 d.log = [ascii "01/01 00:00:00 Tx PL House: A Func: On" ++ [0]] ∧
      ∀ m ∈ xmlMessages 0 d.log, XmlFramed m := by
  obtain ⟨d, hd, hcame, hmessages⟩ : ∃ d, Transition.Run (step (.plain mochadConfigDefaults false))
      (XmlUnanswered (.plain mochadConfigDefaults false))
      (initial (.plain mochadConfigDefaults false)) d ∧
      d.log.any (Ev.acceptsXml 0) = true ∧
      xmlMessages 0 d.log = [ascii "01/01 00:00:00 Tx PL House: A Func: On" ++ [0]] :=
    Transition.exists_run_of_exec (connect .xml ++ readClient (ascii "pl a on\n") ++
      List.replicate 8 .byte) (by decide +kernel)
  exact ⟨d, hd, hmessages,
    ((xml_framed (plain_timesInRange mochadConfigDefaults false)).1 d hd 0
      (marked_acceptsXml.mp (List.any_eq_true.mp hcame))).1⟩

/-- **An answer to an XML client is not framed**: it asks for a status. -/
theorem xml_not_framed : ¬ ∀ env : Env, env.TimesInRange → ∀ d, Reachable env d →
    ∀ c, CameFrom .xml c d.log → ∀ m ∈ xmlMessages c d.log, XmlFramed m := by
  intro hall
  obtain ⟨d, hd, hcame, hmessages⟩ : ∃ d, Reachable (.plain mochadConfigDefaults false) d ∧
      d.log.any (Ev.acceptsXml 0) = true ∧ xmlMessages 0 d.log = [ascii "off\n\r"] :=
    Transition.exists_run_of_exec (connect .xml ++ readClient (ascii "getstatus a1\n") ++
      List.replicate 13 .byte) (by decide +kernel)
  obtain ⟨body, hbody, -⟩ := hall _ (plain_timesInRange mochadConfigDefaults false) d hd 0
    (marked_acceptsXml.mp (List.any_eq_true.mp hcame)) (ascii "off\n\r") (by rw [hmessages]; simp)
  exact absurd (congrArg List.getLast? hbody) (by simp [ascii])

end Daemon

end Mochad
