import Mochad.Core.Tables
import Mochad.Library.Trace

/-!
# The lines of a connection

What a connection sends is read in pieces, and each piece byte by byte. Whatever the other
clients do meanwhile, and whoever had the slot before, the lines that are executed for a
connection are those of its own bytes (`Daemon.Framed`, `Daemon.commands_of_bytes`).

The state between two reads is kept in the slot, and the index while a read is processed
is not. A client may be closed by a line of its own, and then its slot is reset under the
loop: but a line has just ended, so that this leaves the state where it was.
-/

namespace Mochad

namespace Ev

/-- The line that was executed for a connection. -/
def commandOf (c : ℕ) : Ev → List Bytes
  | .command conn _ line => if conn = some c then [line] else []
  | _ => []

/-- The byte that was taken from what a connection sent. -/
def consumedOf (c : ℕ) : Ev → Bytes
  | .consumed conn b => if conn = some c then [b] else []
  | _ => []

/-- The bytes that were read from a connection. -/
def receivedOf (c : ℕ) : Ev → Bytes
  | .received conn _ bytes => if conn = some c then bytes else []
  | _ => []

/-- Nothing is read and nothing executed. -/
def isMute : Ev → Bool
  | .command _ _ _ => false
  | .consumed _ _ => false
  | .received _ _ _ => false
  | _ => true

theorem isMute_of_note {e : Ev} (h : e.isNote = true) : e.isMute = true := by
  cases e with
  | serviced | iterated => rfl
  | _ => cases h

theorem mute (c : ℕ) {e : Ev} (h : e.isMute = true) :
    e.commandOf c = [] ∧ e.consumedOf c = [] ∧ e.receivedOf c = [] := by
  cases e with
  | received | consumed | command => cases h
  | _ => exact ⟨rfl, rfl, rfl⟩

end Ev

/-- **The lines executed for a connection.** -/
abbrev commandsOf (c : ℕ) (log : List Ev) : List Bytes := Trace.collect (Ev.commandOf c) log

/-- **The bytes of a connection** that the loop has taken. -/
abbrev consumedOf (c : ℕ) (log : List Ev) : Bytes := Trace.collect (Ev.consumedOf c) log

/-- **The bytes of a connection** that were read. -/
abbrev receivedOf (c : ℕ) (log : List Ev) : Bytes := Trace.collect (Ev.receivedOf c) log

/-- What is said in between does not matter. -/
theorem collect_mute {es : List Ev} (log : List Ev) (h : ∀ e ∈ es, e.isMute = true) (c : ℕ) :
    commandsOf c (es ++ log) = commandsOf c log ∧ consumedOf c (es ++ log) = consumedOf c log ∧
      receivedOf c (es ++ log) = receivedOf c log :=
  ⟨Trace.collect_append_of_nil fun e he => (Ev.mute c (h e he)).1,
    Trace.collect_append_of_nil fun e he => (Ev.mute c (h e he)).2.1,
    Trace.collect_append_of_nil fun e he => (Ev.mute c (h e he)).2.2⟩

/-- The framing of a connection's bytes. -/
abbrev framing (bytes : Bytes) : Framing.Frame UInt8 × List Bytes :=
  Framing.run isDelim lineCap .start bytes

/-- A state and an index are those after some bytes. -/
def Keeps (st : EncodeState) (remptr : ℕ) (bytes : Bytes) : Prop :=
  Holds st remptr ∧ frameOf st remptr = (framing bytes).1

theorem keeps_init (st : EncodeState) : Keeps st.init 0 [] := ⟨st.init_ok, st.init_frame⟩

/-- A reset in front of a line changes nothing. -/
theorem Keeps.reset {st : EncodeState} {bytes : Bytes} (h : Keeps st 0 bytes)
    (hdisc : st.discarding = false) : Keeps st.init 0 bytes := by
  refine ⟨st.init_ok, ?_⟩
  rw [← h.2]
  simp [frameOf, hdisc]

/-- **One more byte.** -/
theorem Keeps.step {st : EncodeState} {remptr : ℕ} {bytes : Bytes} (h : Keeps st remptr bytes)
    (b : UInt8) :
    Keeps (encodeByte st remptr b).1 (encodeByte st remptr b).2.1 (bytes ++ [b]) ∧
      (framing (bytes ++ [b])).2 = (framing bytes).2 ++ (encodeByte st remptr b).2.2.toList := by
  obtain ⟨hstep, hholds⟩ := encodeByte_frame h.1 b
  rw [h.2] at hstep
  have hone : Framing.run isDelim lineCap (framing bytes).1 [b] =
      (frameOf (encodeByte st remptr b).1 (encodeByte st remptr b).2.1,
        (encodeByte st remptr b).2.2.toList) := by
    rw [Framing.run_cons, ← hstep]
    simp
  refine ⟨⟨hholds, ?_⟩, ?_⟩
  · rw [framing, Framing.run_append, hone]
  · rw [framing, Framing.run_append, hone]

/-- A line ends in front of the next one. -/
theorem encodeByte_line {st : EncodeState} {remptr : ℕ} {b : UInt8} {line : Bytes}
    (h : (encodeByte st remptr b).2.2 = some line) :
    (encodeByte st remptr b).2.1 = 0 ∧ (encodeByte st remptr b).1.discarding = false := by
  simp only [encodeByte] at h ⊢
  split at h
  · cases h
  next hdisc =>
    rw [if_neg hdisc]
    split at h
    · cases h
    next hcap =>
      rw [if_neg hcap]
      split at h
      next hb =>
        rw [if_pos hb]
        exact ⟨rfl, by simpa using hdisc⟩
      · cases h

/-- What is kept of a length only gets less within a read. -/
theorem encodeByte_remlen_le (st : EncodeState) (remptr : ℕ) (b : UInt8) :
    (encodeByte st remptr b).1.remlen ≤ st.remlen := by
  simp only [encodeByte]
  split
  · exact Nat.le_refl _
  split
  · exact Nat.zero_le _
  split
  · exact Nat.le_refl _
  · exact Nat.le_refl _

namespace Daemon

/-- The bytes of a connection that were read and not yet taken. -/
def pendingOf (d : Daemon) (c : ℕ) : Bytes :=
  match d.pc with
  | .encode _ r => if r.conn = some c then r.rest else []
  | _ => []

/-- **Every connection's bytes are framed on their own.** -/
structure Framed (d : Daemon) : Prop where
  lines : ∀ c, commandsOf c d.log = (framing (consumedOf c d.log)).2
  bytes : ∀ c, receivedOf c d.log = consumedOf c d.log ++ d.pendingOf c
  fresh : ∀ c, d.nextConn ≤ c → receivedOf c d.log = []
  remlen : ∀ s, (d.clients.slot s).state.remlen ≤ lineCap
  slot : ∀ s c, d.connAt (d.clients.slot s).fd = some c → (∀ l r, d.pc = .encode l r → r.slot ≠ s) →
    Keeps (d.clients.slot s).state (d.clients.slot s).state.remlen (consumedOf c d.log)
  reading : ∀ l r, d.pc = .encode l r → ∃ c, r.conn = some c ∧ c < d.nextConn ∧
    Keeps (d.clients.slot r.slot).state r.remptr (consumedOf c d.log) ∧
      ∀ s c', d.connAt (d.clients.slot s).fd = some c' → (s = r.slot ↔ c' = c)

/-- If a read is being processed, it is in front of a line. -/
def LineDone (d : Daemon) : Prop :=
  ∀ l r, d.pc = .encode l r → r.remptr = 0 ∧ (d.clients.slot r.slot).state.discarding = false

variable {env : Env} {d d' : Daemon}

theorem pendingOf_eq_nil (h : d.pc.stage ≠ .reading) (c : ℕ) : d.pendingOf c = [] := by
  rw [pendingOf]
  split
  next hpc =>
    rw [hpc] at h
    exact absurd rfl h
  · rfl

theorem pendingOf_of_reader {c : ℕ} (h : d.reader ≠ some c) : d.pendingOf c = [] := by
  rw [reader] at h
  rw [pendingOf]
  split
  next hpc =>
    rw [hpc] at h
    exact if_neg h
  · rfl

theorem lineDone_of_stage (h : d.pc.stage ≠ .reading) : d.LineDone := by
  intro l r hpc
  rw [hpc] at h
  exact absurd rfl h

/-- What is said to clients, and what the main loop notes, does not matter. -/
theorem Framed.congr (h : d.Framed)
    (hstate : ∀ s, (d'.clients.slot s).state = (d.clients.slot s).state)
    (hconn : ∀ s c, d'.connAt (d'.clients.slot s).fd = some c →
      d.connAt (d.clients.slot s).fd = some c)
    (hnext : d.nextConn ≤ d'.nextConn)
    (hlog : ∃ es, d'.log = es ++ d.log ∧ ∀ e ∈ es, e.isMute = true)
    (hpc : d'.pc = d.pc ∨ (d.pc.stage ≠ .reading ∧ d'.pc.stage ≠ .reading)) : d'.Framed := by
  obtain ⟨es, hes, hmute⟩ := hlog
  have hsame := collect_mute d.log hmute
  have hpending : ∀ c, d'.pendingOf c = d.pendingOf c := by
    intro c
    rcases hpc with hpc | ⟨hpc, hpc'⟩
    · rw [pendingOf, pendingOf, hpc]
    · rw [pendingOf_eq_nil hpc, pendingOf_eq_nil hpc']
  have hread : ∀ l r, d'.pc = .encode l r → d.pc = .encode l r := by
    intro l r hp
    rcases hpc with hpc | ⟨_, hpc'⟩
    · exact hpc ▸ hp
    · rw [hp] at hpc'
      exact absurd rfl hpc'
  refine ⟨fun c => ?_, fun c => ?_, fun c hc => ?_, fun s => ?_, fun s c hs hp => ?_,
    fun l r hp => ?_⟩
  · rw [hes, (hsame c).1, (hsame c).2.1, h.lines]
  · rw [hes, (hsame c).2.2, (hsame c).2.1, hpending, h.bytes]
  · rw [hes, (hsame c).2.2, h.fresh c (hnext.trans hc)]
  · rw [hstate]
    exact h.remlen s
  · rw [hstate, hes, (hsame c).2.1]
    refine h.slot s c (hconn s c hs) fun l r hpold => ?_
    rcases hpc with hpc | ⟨hpc, _⟩
    · exact hp l r (hpc ▸ hpold)
    · rw [hpold] at hpc
      exact absurd rfl hpc
  · obtain ⟨c, hc, hlt, hkeeps, hown⟩ := h.reading l r (hread l r hp)
    refine ⟨c, hc, hlt.trans_le hnext, ?_, fun s c' hc' => hown s c' (hconn s c' hc')⟩
    rw [hstate, hes, (hsame c).2.1]
    exact hkeeps

theorem Framed.record (h : d.Framed) {e : Ev} (he : e.isMute = true) : (d.record e).Framed :=
  h.congr (fun _ => rfl) (fun _ _ => id) (Nat.le_refl _)
    ⟨[e], rfl, fun x hx => by rw [List.mem_singleton.mp hx, he]⟩ (Or.inl rfl)

/-- **A client is closed**, between two lines if it is being read. -/
theorem Framed.closeSlot (h : d.Framed) (ht : d.Tables env) (hl : d.LineDone) {s : SlotId}
    (hs : (d.clients.slot s).fd ≠ -1) : (d.closeSlot s).Framed ∧ (d.closeSlot s).LineDone := by
  have hself := d.closeSlot_self s
  have hother : ∀ t, t ≠ s → (d.closeSlot s).clients.slot t = d.clients.slot t :=
    fun t ht => d.closeSlot_of_ne ht
  have hconn : ∀ t c, (d.closeSlot s).connAt ((d.closeSlot s).clients.slot t).fd = some c →
      t ≠ s ∧ d.connAt (d.clients.slot t).fd = some c := fun t c => ht.connAt_closeSlot hs
  have hclosed : ∃ e, (d.closeSlot s).log = [e] ++ d.log ∧ ∀ x ∈ [e], x.isMute = true :=
    ⟨_, rfl, fun x hx => by rw [List.mem_singleton.mp hx]; rfl⟩
  obtain ⟨e, hlog, hmute⟩ := hclosed
  have hsame := collect_mute d.log hmute
  refine ⟨⟨fun c => ?_, fun c => ?_, fun c hc => ?_, fun t => ?_, fun t c hc hp => ?_,
    fun l r hp => ?_⟩, fun l r hp => ?_⟩
  · rw [hlog, (hsame c).1, (hsame c).2.1, h.lines]
  · rw [hlog, (hsame c).2.2, (hsame c).2.1, h.bytes]
    rfl
  · rw [hlog, (hsame c).2.2, h.fresh c hc]
  · rcases eq_or_ne t s with rfl | hts
    · rw [hself]
      exact Nat.zero_le _
    · rw [hother t hts]
      exact h.remlen t
  · obtain ⟨hts, hold⟩ := hconn t c hc
    rw [hother t hts, hlog, (hsame c).2.1]
    exact h.slot t c hold hp
  · obtain ⟨c, hc, hlt, hkeeps, hown⟩ := h.reading l r hp
    refine ⟨c, hc, hlt, ?_, fun t c' hc' => hown t c' (hconn t c' hc').2⟩
    rw [hlog, (hsame c).2.1]
    rcases eq_or_ne r.slot s with hrs | hrs
    · obtain ⟨h0, hdisc⟩ := hl l r hp
      rw [h0] at hkeeps ⊢
      rw [hrs, hself]
      rw [hrs] at hkeeps hdisc
      exact hkeeps.reset hdisc
    · rw [hother _ hrs]
      exact hkeeps
  · obtain ⟨h0, hdisc⟩ := hl l r hp
    refine ⟨h0, ?_⟩
    rcases eq_or_ne r.slot s with hrs | hrs
    · rw [hrs, hself]
      rfl
    · rw [hother _ hrs]
      exact hdisc

/-- **What is said to clients** leaves the lines as they are. -/
theorem Framed.move {cause : Cause} (h : d.Framed) (ht : d.Tables env) (hl : d.LineDone)
    (hm : Move env cause d d') : d'.Framed ∧ d'.LineDone := by
  have hsame : ∀ {a : Daemon} {e : Ev}, a.clients = d.clients → a.descs = d.descs →
      a.nextConn = d.nextConn → a.pc = d.pc → a.log = e :: d.log → e.isMute = true →
      a.Framed ∧ a.LineDone := by
    intro a e hclients hdescs hnext hpc hlog he
    refine ⟨h.congr (fun s => by rw [hclients]) (fun s c hc => ?_) hnext.ge ⟨[e], hlog, ?_⟩
      (Or.inl hpc), fun l r hp => ?_⟩
    · rw [Daemon.connAt, hdescs, hclients] at hc
      exact hc
    · intro x hx
      rw [List.mem_singleton.mp hx, he]
    · rw [hclients]
      exact hl l r (hpc ▸ hp)
  cases hm with
  | x10 | stamp | write =>
    exact ⟨h.congr (fun _ => rfl) (fun _ _ => id) (Nat.le_refl _)
      ⟨[], rfl, fun _ he => (by cases he)⟩ (Or.inl rfl), hl⟩
  | addressed | queued | flushed => exact hsame rfl rfl rfl rfl rfl rfl
  | output s output hs _ =>
    have hstate : ∀ t, ((d.setOutput s output).clients.slot t).state = (d.clients.slot t).state := by
      intro t
      rcases eq_or_ne t s with rfl | hne
      · rw [setOutput_self]
      · rw [setOutput_of_ne d output hne]
    refine ⟨h.congr hstate (fun t c hc => ?_) (Nat.le_refl _) ⟨[], rfl, fun _ he => (by cases he)⟩
      (Or.inl rfl), fun l r hp => ?_⟩
    · rw [setOutput_fd] at hc
      exact hc
    · rw [hstate]
      exact hl l r hp
  | close s hs _ => exact h.closeSlot ht hl hs
  | send fd bytes _ =>
    rw [sendAll]
    split
    · exact hsame rfl rfl rfl rfl rfl rfl
    · exact hsame rfl rfl rfl rfl rfl rfl

theorem Framed.moves {cause : Cause} (h : d.Framed) (ht : d.Tables env) (hl : d.LineDone)
    (hm : Moves env cause d d') : d'.Framed ∧ d'.LineDone :=
  (Moves.invariant (P := fun a => a.Tables env ∧ a.Framed ∧ a.LineDone) hm ⟨ht, h, hl⟩
    fun _ _ hi hab => ⟨hi.1.move hab, hi.2.1.move hi.1 hi.2.2 hab⟩).2

theorem Framed.idle (h : d.Framed) (hi : Idle d d') : d'.Framed := by
  obtain ⟨es, hes, hnote⟩ := hi.log
  refine h.congr (fun s => by rw [hi.clients]) (fun s c hc => ?_) hi.nextConn.ge
    ⟨es, hes, fun e he => Ev.isMute_of_note (hnote e he)⟩ ?_
  · rw [Daemon.connAt, hi.descs, hi.clients] at hc
    exact hc
  · rcases hi.pc with hpc | ⟨hpc, hpc', _⟩
    · exact Or.inl hpc
    · exact Or.inr ⟨hpc, hpc'⟩

/-- **What the main loop does between two reads.** -/
theorem Framed.calm (h : d.Framed) (ht : d.Tables env) (hpc : d.pc.stage ≠ .reading)
    (hc : Calm env d d') : d'.Framed ∧ d'.pc.stage ≠ .reading := by
  induction hc with
  | refl => exact ⟨h, hpc⟩
  | tail hab hbc ih =>
    obtain ⟨hb, hstage⟩ := ih
    rcases hbc with hi | hm
    · refine ⟨hb.idle hi, ?_⟩
      rcases hi.pc with hsame | ⟨_, hne, _⟩
      · rwa [hsame]
      · exact hne
    · refine ⟨(hb.move (ht.calm hab) (lineDone_of_stage hstage) hm).1, ?_⟩
      have hsame : _ = _ := congrArg (fun f => f.1.1) hm.frame_eq
      exact fun hcon => hstage (by rw [← hcon]; exact congrArg Pc.stage hsame.symm)

/-- **A read begins.** -/
theorem Framed.received (h : d.Framed) (ht : d.Tables env) {l : ServiceLoop} {r : Reading}
    (hpc : d.pc.stage ≠ .reading) (hfd : r.fd ≠ -1) (hslot : d.clients.find r.fd = some r.slot)
    (hconn : r.conn = d.connAt r.fd) (hrem : r.remptr = (d.clients.slot r.slot).state.remlen)
    (hclients : d'.clients = d.clients) (hdescs : d'.descs = d.descs)
    (hnext : d'.nextConn = d.nextConn) (hlog : d'.log = .received r.conn r.fd r.rest :: d.log)
    (hpc' : d'.pc = .encode l r) : d'.Framed := by
  have hfd' : (d.clients.slot r.slot).fd = r.fd := Clients.fd_of_find hslot
  have hlive : (d.clients.slot r.slot).fd ≠ -1 := by rwa [hfd']
  obtain ⟨c, hlt, hcat⟩ := ht.connAt hlive
  have hc : r.conn = some c := by rw [hconn, ← hfd', hcat]
  have hnone : ∀ l' r', d.pc ≠ .encode l' r' := by
    rintro l' r' hp
    rw [hp] at hpc
    exact hpc rfl
  have hcommands : ∀ c', commandsOf c' d'.log = commandsOf c' d.log := fun c' =>
    hlog ▸ Trace.collect_cons_of_nil rfl
  have hconsumed : ∀ c', consumedOf c' d'.log = consumedOf c' d.log := fun c' =>
    hlog ▸ Trace.collect_cons_of_nil rfl
  have hreceived : ∀ c', receivedOf c' d'.log =
      receivedOf c' d.log ++ if r.conn = some c' then r.rest else [] := fun c' => by
    rw [hlog]
    rfl
  have hconnAt : ∀ s, d'.connAt (d'.clients.slot s).fd = d.connAt (d.clients.slot s).fd := by
    intro s
    rw [Daemon.connAt, Daemon.connAt, hdescs, hclients]
  refine ⟨fun c' => ?_, fun c' => ?_, fun c' hc' => ?_, fun s => ?_, fun s c' hs _ => ?_,
    fun l' r' hp => ?_⟩
  · rw [hcommands, hconsumed, h.lines]
  · rw [hreceived, hconsumed, h.bytes, pendingOf_eq_nil hpc, List.append_nil, pendingOf, hpc']
  · rw [hnext] at hc'
    have hne : r.conn ≠ some c' := by
      rw [hc]
      rintro heq
      obtain rfl := Option.some.inj heq
      omega
    rw [hreceived, if_neg hne, h.fresh c' hc']
    rfl
  · rw [hclients]
    exact h.remlen s
  · rw [hclients, hconsumed]
    exact h.slot s c' (hconnAt s ▸ hs) fun l r hp => absurd hp (hnone l r)
  · rw [hpc'] at hp
    obtain ⟨rfl, rfl⟩ := Pc.encode.inj hp
    refine ⟨c, hc, hnext ▸ hlt, ?_, fun s c' hs => ?_⟩
    · rw [hrem, hclients, hconsumed]
      exact h.slot r.slot c hcat fun l r hp => absurd hp (hnone l r)
    · rw [hconnAt] at hs
      constructor
      · rintro rfl
        rw [hcat] at hs
        exact (Option.some.inj hs).symm
      · rintro rfl
        exact ht.slot_unique hs hcat

/-- What a byte adds to the log: itself, and the line that it completes. -/
def byteEvents (r : Reading) (b : UInt8) (line : Option Bytes) : List Ev :=
  (line.map (Ev.command r.conn r.fd)).toList ++ [.consumed r.conn b]

theorem collect_byteEvents {r : Reading} {c : ℕ} (hc : r.conn = some c) (b : UInt8)
    (line : Option Bytes) (log : List Ev) (c' : ℕ) :
    commandsOf c' (byteEvents r b line ++ log) =
        commandsOf c' log ++ (if c' = c then line.toList else []) ∧
      consumedOf c' (byteEvents r b line ++ log) =
        consumedOf c' log ++ (if c' = c then [b] else []) ∧
      receivedOf c' (byteEvents r b line ++ log) = receivedOf c' log := by
  cases line with
  | none =>
    simp [byteEvents, Trace.collect_cons, Ev.commandOf, Ev.consumedOf, Ev.receivedOf, hc, eq_comm]
  | some line =>
    simp [byteEvents, Trace.collect_cons, Ev.commandOf, Ev.consumedOf, Ev.receivedOf, hc, eq_comm]

/-- **A byte is taken**, and the line that it completes is to be executed. -/
theorem Framed.afterByte (h : d.Framed) {l : ServiceLoop} {r : Reading} (hpc : d.pc = .encode l r)
    {b : UInt8} {rest : Bytes} (hrest : r.rest = b :: rest) {line : Option Bytes}
    (hline : (encodeByte (d.clients.slot r.slot).state r.remptr b).2.2 = line) :
    Framed { d.afterByte l r b rest with log := byteEvents r b line ++ d.log } := by
  obtain ⟨c, hc, hlt, hkeeps, hown⟩ := h.reading l r hpc
  obtain ⟨hkeeps', hlines⟩ := hkeeps.step b
  have hself : (d.afterByte l r b rest).clients.slot r.slot = { d.clients.slot r.slot with
      state := (encodeByte (d.clients.slot r.slot).state r.remptr b).1 } :=
    setState_self d r.slot _
  have hother : ∀ t, t ≠ r.slot →
      (d.afterByte l r b rest).clients.slot t = d.clients.slot t :=
    fun t ht => setState_of_ne d _ ht
  have hfd : ∀ t, ((d.afterByte l r b rest).clients.slot t).fd = (d.clients.slot t).fd :=
    fun t => setState_fd d r.slot t _
  have hlog := collect_byteEvents hc b line d.log
  have hpending : ∀ c', Daemon.pendingOf
      { d.afterByte l r b rest with log := byteEvents r b line ++ d.log } c' =
        if c' = c then rest else [] := by
    intro c'
    simp only [pendingOf, Daemon.afterByte, hc, Option.some.injEq, eq_comm]
  refine ⟨fun c' => ?_, fun c' => ?_, fun c' hc' => ?_, fun s => ?_, fun s c' hs hp => ?_,
    fun l' r' hp => ?_⟩
  · rw [(hlog c').1, (hlog c').2.1, h.lines]
    split
    next heq => rw [heq, hlines, hline]
    · simp
  · rw [(hlog c').2.2, (hlog c').2.1, hpending, h.bytes, pendingOf, hpc]
    simp only [hc, Option.some.injEq, eq_comm]
    split
    · rw [hrest]
      simp
    · simp
  · rw [(hlog c').2.2]
    exact h.fresh c' hc'
  · rcases eq_or_ne s r.slot with rfl | hne
    · show ((d.afterByte l r b rest).clients.slot r.slot).state.remlen ≤ _
      rw [hself]
      exact (encodeByte_remlen_le _ _ _).trans (h.remlen r.slot)
    · show ((d.afterByte l r b rest).clients.slot s).state.remlen ≤ _
      rw [hother s hne]
      exact h.remlen s
  · have hne : s ≠ r.slot := fun heq => hp l _ rfl heq.symm
    have hold : d.connAt (d.clients.slot s).fd = some c' := hfd s ▸ hs
    have hcc : c' ≠ c := fun heq => hne ((hown s c' hold).mpr heq)
    show Keeps ((d.afterByte l r b rest).clients.slot s).state _ _
    rw [(hlog c').2.1, if_neg hcc, List.append_nil, hother s hne]
    refine h.slot s c' hold fun l' r' hp' => ?_
    rw [hpc] at hp'
    obtain ⟨_, rfl⟩ := Pc.encode.inj hp'
    exact hne.symm
  · obtain ⟨rfl, rfl⟩ := Pc.encode.inj hp
    refine ⟨c, hc, hlt, ?_, fun s c' hs => hown s c' (hfd s ▸ hs)⟩
    show Keeps ((d.afterByte l r b rest).clients.slot r.slot).state _ _
    rw [(hlog c).2.1, if_pos rfl, hself]
    exact hkeeps'

/-- **A line is executed**, and what follows it begins a new one. -/
theorem Framed.line (h : d.Framed) (ht : d.Tables env) {l : ServiceLoop} {r : Reading}
    (hpc : d.pc = .encode l r) {b : UInt8} {rest line : Bytes} (hrest : r.rest = b :: rest)
    (hline : (encodeByte (d.clients.slot r.slot).state r.remptr b).2.2 = some line) :
    ((d.afterByte l r b rest).runLine env r line).Framed ∧
      ((d.afterByte l r b rest).runLine env r line).LineDone := by
  have hframed : Framed ((d.afterByte l r b rest).record (.command r.conn r.fd line)) :=
    h.afterByte hpc hrest hline
  have hafter := ht.afterByte hpc b rest
  have hdone : ((d.afterByte l r b rest).record (.command r.conn r.fd line)).LineDone := by
    rintro l' r' hp
    obtain ⟨rfl, rfl⟩ := Pc.encode.inj hp
    have hself : (d.afterByte l r b rest).clients.slot r.slot = { d.clients.slot r.slot with
        state := (encodeByte (d.clients.slot r.slot).state r.remptr b).1 } :=
      setState_self d r.slot _
    refine ⟨(encodeByte_line hline).1, ?_⟩
    show ((d.afterByte l r b rest).clients.slot r.slot).state.discarding = false
    rw [hself]
    exact (encodeByte_line hline).2
  exact hframed.moves (hafter.record _) hdone
    (runLine_moves hafter.descs hafter.wf (ht.reading l r hpc) line)

/-- **A byte is taken**, and the line that it completes is executed. -/
theorem Framed.byte (h : d.Framed) (ht : d.Tables env) {l : ServiceLoop} {r : Reading}
    (hpc : d.pc = .encode l r) (hb : d.doByte env l r = some d') : d'.Framed := by
  obtain ⟨b, rest, hrest, ⟨hnone, rfl⟩ | ⟨line, hline, rfl⟩⟩ := doByte_cases hb
  · exact h.afterByte hpc hrest hnone
  · exact (h.line ht hpc hrest hline).1

/-- **A read ends**, and its index is stored. -/
theorem Framed.encoded (h : d.Framed) {l : ServiceLoop} {r : Reading}
    (hpc : d.pc = .encode l r) (he : d.doEncoded l r = some d') : d'.Framed := by
  obtain ⟨c, hc, hlt, hkeeps, hown⟩ := h.reading l r hpc
  obtain ⟨hrest, rfl⟩ := doEncoded_eq he
  have hstored : ∀ a : Daemon, a.clients = (d.setState r.slot
      { (d.clients.slot r.slot).state with remlen := r.remptr }).clients → a.descs = d.descs →
      a.nextConn = d.nextConn → (∃ es, a.log = es ++ d.log ∧ ∀ e ∈ es, e.isMute = true) →
      a.pc.stage ≠ .reading → a.Framed := by
    intro a hclients hdescs hnext hlog hstage
    obtain ⟨es, hes, hmute⟩ := hlog
    have hself : a.clients.slot r.slot = { d.clients.slot r.slot with
        state := { (d.clients.slot r.slot).state with remlen := r.remptr } } := by
      rw [hclients]
      exact setState_self d r.slot _
    have hother : ∀ t, t ≠ r.slot → a.clients.slot t = d.clients.slot t := by
      rintro t ht
      rw [hclients]
      exact setState_of_ne d _ ht
    have hconn : ∀ s, a.connAt (a.clients.slot s).fd = d.connAt (d.clients.slot s).fd := by
      intro s
      rw [Daemon.connAt, Daemon.connAt, hdescs, hclients, setState_fd]
    have hsame := collect_mute d.log hmute
    refine ⟨fun c' => ?_, fun c' => ?_, fun c' hc' => ?_, fun s => ?_, fun s c' hs _ => ?_,
      fun l' r' hp => ?_⟩
    · rw [hes, (hsame c').1, (hsame c').2.1, h.lines]
    · rw [hes, (hsame c').2.2, (hsame c').2.1, h.bytes, pendingOf_eq_nil hstage, pendingOf, hpc]
      simp [hrest]
    · rw [hes, (hsame c').2.2, h.fresh c' (hnext ▸ hc')]
    · rcases eq_or_ne s r.slot with rfl | hne
      · rw [hself]
        exact hkeeps.1.le
      · rw [hother s hne]
        exact h.remlen s
    · rw [hconn] at hs
      rw [hes, (hsame c').2.1]
      rcases eq_or_ne s r.slot with rfl | hne
      · obtain rfl := (hown r.slot c' hs).mp rfl
        rw [hself]
        exact ⟨⟨hkeeps.1.le, hkeeps.1.zero_of_discarding, hkeeps.1.text⟩, hkeeps.2⟩
      · rw [hother s hne]
        refine h.slot s c' hs fun l' r' hp => ?_
        rw [hpc] at hp
        obtain ⟨_, rfl⟩ := Pc.encode.inj hp
        exact hne.symm
    · rw [hp] at hstage
      exact absurd rfl hstage
  simp only [counted]
  split
  · exact hstored _ rfl rfl rfl
      ⟨[_], rfl, fun e he => by rw [List.mem_singleton.mp he]; rfl⟩ (by simp [iterate, Pc.stage])
  · exact hstored _ rfl rfl rfl ⟨[], rfl, fun _ he => (by cases he)⟩ (by simp [Pc.stage])

/-- **A connection is accepted**, and its slot is reset. -/
theorem Framed.addAccepted (h : d.Framed) (ht : d.Tables env) (hpc : d.pc.stage = .running)
    {fd : ℤ} (hfree : lowestFree d.descs fd = true) (kind : Kind) (nonblocking : Bool) :
    (d.addAccepted env kind fd nonblocking).Framed := by
  obtain ⟨hpos, hnone⟩ := lowestFree_spec hfree
  have hstage : d.pc.stage ≠ .reading := by simp [hpc]
  have hread : ∀ l r, d.pc ≠ .encode l r := by
    rintro l r hp
    rw [hp] at hstage
    exact hstage rfl
  rcases addAccepted_cases env d kind fd nonblocking with ⟨s, hs, heq⟩ | heq
  · rw [heq]
    have hself : (d.clients.take s fd).slot s = Clients.Slot.taken (d.clients.slot s) fd
        d.clients.nextId := Clients.set_slot_self ..
    have hother : ∀ t, t ≠ s → (d.clients.take s fd).slot t = d.clients.slot t :=
      fun t ht => Clients.set_slot_of_ne d.clients _ ht
    have hmute : ∀ e ∈ [Ev.accepted d.nextConn fd kind], e.isMute = true := by
      rintro e he
      rw [List.mem_singleton.mp he]
      rfl
    have hlog : ∀ c, commandsOf c (.accepted d.nextConn fd kind :: d.log) = commandsOf c d.log ∧
        consumedOf c (.accepted d.nextConn fd kind :: d.log) = consumedOf c d.log ∧
        receivedOf c (.accepted d.nextConn fd kind :: d.log) = receivedOf c d.log :=
      collect_mute d.log hmute
    refine ⟨fun c => ?_, fun c => ?_, fun c hc => ?_, fun t => ?_, fun t c htc hp => ?_,
      fun l r hp => absurd hp (hread l r)⟩
    · rw [(hlog c).1, (hlog c).2.1, h.lines]
    · rw [(hlog c).2.2, (hlog c).2.1, h.bytes]
      rfl
    · rw [(hlog c).2.2, h.fresh c (Nat.le_of_succ_le hc)]
    · show ((d.clients.take s fd).slot t).state.remlen ≤ _
      rcases eq_or_ne t s with rfl | hts
      · rw [hself]
        exact Nat.zero_le _
      · rw [hother t hts]
        exact h.remlen t
    · show Keeps ((d.clients.take s fd).slot t).state _ _
      rw [(hlog c).2.1]
      obtain ⟨p, hdesc⟩ := connAt_eq_some.mp htc
      have hupd : Function.update d.descs fd (some (.conn d.nextConn (kind.port env.config)))
          ((d.clients.take s fd).slot t).fd = some (.conn c p) := hdesc
      rcases eq_or_ne t s with rfl | hts
      · rw [hself] at hupd ⊢
        have hlast : d.nextConn = c := by
          rw [show (Clients.Slot.taken (d.clients.slot t) fd d.clients.nextId).fd = fd from rfl,
            Function.update_self] at hupd
          cases hupd
          rfl
        have hempty : consumedOf c d.log = [] := by
          have hnil := h.fresh c hlast.le
          rw [h.bytes] at hnil
          exact (List.append_eq_nil_iff.mp hnil).1
        rw [hempty]
        exact keeps_init _
      · rw [hother t hts] at hupd ⊢
        have hold : d.connAt (d.clients.slot t).fd = some c := by
          rw [Function.update_apply] at hupd
          split at hupd
          next hfd =>
            obtain ⟨c', _, hc'⟩ := ht.conn t (by omega)
            rw [hfd, hnone] at hc'
            cases hc'
          · exact connAt_eq_some.mpr ⟨p, hupd⟩
        exact h.slot t c hold fun l r hp' => absurd hp' (hread l r)
  · rw [heq]
    exact h.congr (fun _ => rfl) (fun _ _ => id) (Nat.le_succ _)
      ⟨[_], rfl, fun e he => by rw [List.mem_singleton.mp he]; rfl⟩ (Or.inl rfl)

/-- **The listeners are created**, when there is no client yet. -/
theorem Framed.createListeners (h : d.Framed) (ht : d.Tables env) (hpc : d.pc = .initialised)
    {main xml or20 : ℤ} (hl : d.doCreateListeners env main xml or20 = some d') : d'.Framed := by
  have ht' := ht.createListeners hpc hl
  have hfree : ∀ s, (d.clients.slot s).fd = -1 := ht.starting (by rw [hpc]; rfl)
  have hstage : d.pc.stage ≠ .reading := by simp [hpc, Pc.stage]
  simp only [doCreateListeners] at hl
  split at hl
  · split at hl
    · obtain rfl := Option.some.inj hl
      refine h.congr (fun _ => rfl) (fun s c hc => ?_) (Nat.le_refl _)
        ⟨[], rfl, fun _ he => (by cases he)⟩ (Or.inr ⟨hstage, by simp [Pc.stage]⟩)
      rw [show _ = (-1 : ℤ) from hfree s, ht'.connAt_neg] at hc
      cases hc
    · obtain rfl := Option.some.inj hl
      have hbytes : ∀ c, receivedOf c d.log = consumedOf c d.log := by
        intro c
        rw [h.bytes, pendingOf_eq_nil hstage, List.append_nil]
      refine ⟨h.lines, fun c => ?_, h.fresh, fun s => Nat.zero_le _, fun s c hc => ?_,
        fun l r hp => (by cases hp)⟩
      · exact (hbytes c).trans (List.append_nil _).symm
      · cases hc.symm.trans ht'.connAt_neg
  · cases hl

/-- **Every step keeps the framing** of every connection. -/
theorem Framed.step (h : d.Framed) (ht : d.Tables env) {label : Label}
    (hs : d.step env label = some d') : d'.Framed := by
  -- a descriptor that is no connection is opened or closed
  have hdesc : ∀ fd desc, (∀ c p, desc ≠ some (.conn c p)) →
      Framed { d with descs := Function.update d.descs fd desc } := by
    intro fd desc hnew
    refine h.congr (fun _ => rfl) (fun s c hc => ?_) (Nat.le_refl _)
      ⟨[], rfl, fun _ he => nomatch he⟩ (Or.inl rfl)
    obtain ⟨p, hp⟩ := connAt_eq_some.mp hc
    have hupd : Function.update d.descs fd desc (d.clients.slot s).fd = some (.conn c p) := hp
    rw [Function.update_apply] at hupd
    split at hupd
    · exact absurd hupd (hnew c p)
    · exact connAt_eq_some.mpr ⟨p, hupd⟩
  by_cases hstage : d.pc.stage = .reading
  · obtain ⟨l, r, hpc⟩ : ∃ l r, d.pc = .encode l r := by
      cases hpc : d.pc with
      | encode l r => exact ⟨l, r, rfl⟩
      | _ => rw [hpc] at hstage; cases hstage
    rcases step_reading hpc hs with hi | ⟨fd, desc, _, hnew, rfl⟩ | ⟨_, hb⟩ | he
    · exact h.idle hi
    · exact hdesc fd desc hnew
    · exact h.byte ht hpc hb
    · exact h.encoded hpc he
  · rcases step_kind ht.descs ht.wf hs with hc | ⟨fd, desc, _, hnew, _, rfl⟩ |
      ⟨main, xml, or20, hpc, hl⟩ | ⟨snap, nready, kind, fd, nb, hpc, hready, hfree, rfl⟩ |
      ⟨d₁, l, r, hpc, hc, hpc₁, hfd, hslot, hconn, hrem, rfl⟩ | ⟨l, r, hpc, _⟩ | ⟨l, r, hpc, _⟩
    · exact (h.calm ht hstage hc).1
    · exact hdesc fd desc hnew
    · exact h.createListeners ht hpc hl
    · have hrun : d.pc.stage = .running := by rw [hpc]; rfl
      rw [← addAccepted_pc env d kind fd nb] at hrun
      exact (h.addAccepted ht (by rw [hpc]; rfl) hfree kind nb).idle
        (idle_afterAccept hrun snap nready kind)
    · have h₁ := h.calm ht hstage hc
      exact h₁.1.received (ht.calm hc) h₁.2 hfd hslot hconn hrem rfl rfl rfl rfl rfl
    · rw [hpc] at hstage
      exact absurd rfl hstage
    · rw [hpc] at hstage
      exact absurd rfl hstage

theorem initial_framed (env : Env) : (initial env).Framed where
  lines := fun _ => rfl
  bytes := fun _ => rfl
  fresh := fun _ _ => rfl
  remlen := fun _ => Nat.zero_le _
  slot := fun s c hs _ => by
    rw [show ((initial env).clients.slot s).fd = -1 from rfl, (initial_tables env).connAt_neg] at hs
    cases hs
  reading := fun _ _ hp => nomatch hp

/-- **In every reachable state every connection's bytes are framed on their own.** -/
theorem Reachable.framed (h : Reachable env d) : d.Framed :=
  Transition.Run.invariant_along h (initial_framed env) fun _ _ _ hr hi _ hs =>
    hi.step (Reachable.tables hr) hs

/-- **The lines that are executed for a connection are those of its own bytes**, of all of
them when none of its reads is being processed; what its slot keeps is what they left
unfinished; no line is empty or longer than 78 bytes, or holds a delimiter; no slot keeps
more than 79 bytes; and two reads do what one read of both does. -/
theorem commands_of_bytes (h : Reachable env d) (c : ℕ) :
    (∃ rest, receivedOf c d.log = consumedOf c d.log ++ rest ∧ (d.reader ≠ some c → rest = [])) ∧
      commandsOf c d.log = Framing.lines isDelim lineCap .start (consumedOf c d.log) ∧
      (∀ s, d.connAt (d.clients.slot s).fd = some c → d.reader ≠ some c →
        (d.clients.slot s).state.frame =
          (Framing.run isDelim lineCap .start (receivedOf c d.log)).1) ∧
      (∀ line ∈ commandsOf c d.log,
        line ≠ [] ∧ line.length ≤ 78 ∧ ∀ b ∈ line, isDelim b = false) ∧
      (∀ s, (d.clients.slot s).state.remlen ≤ 79) ∧
      ∀ st a b, cm15aEncodeWithState st (a ++ b) =
        ((cm15aEncodeWithState (cm15aEncodeWithState st a).1 b).1,
          (cm15aEncodeWithState st a).2 ++
            (cm15aEncodeWithState (cm15aEncodeWithState st a).1 b).2) := by
  have hframed := Reachable.framed h
  refine ⟨⟨_, hframed.bytes c, pendingOf_of_reader⟩, hframed.lines c, fun s hs hne => ?_, fun line hline => ?_,
    hframed.remlen, fun st a b => cm15aEncodeWithState_append st a b⟩
  · rw [hframed.bytes c, pendingOf_of_reader hne, List.append_nil]
    refine (hframed.slot s c hs fun l r hpc hrs => ?_).2
    obtain ⟨c', hc', _, _, hown⟩ := hframed.reading l r hpc
    obtain rfl := (hown s c hs).mp hrs.symm
    exact hne (by rw [reader, hpc]; exact hc')
  · rw [hframed.lines c] at hline
    obtain ⟨hne, hlen, hdelim⟩ := Framing.mem_lines Framing.start_ok hline
    exact ⟨hne, Nat.le_of_lt_succ hlen, hdelim⟩

/-- Two lines of a main client, the second of which comes in two reads. -/
theorem commands_of_bytes_split :
    ∃ d, Reachable (.plain mochadConfigDefaults false) d ∧
      receivedOf 0 d.log = ascii "a\nbc\n" ∧ commandsOf 0 d.log = [ascii "a", ascii "bc"] := by
  have hreach : ∃ d, Reachable (.plain mochadConfigDefaults false) d ∧
      (receivedOf 0 d.log = ascii "a\nbc\n" ∧ d.reader = none) :=
    Transition.exists_run_of_exec (connect .main ++
      readClient (ascii "a\nb") ++ [.byte, .byte, .byte, .encoded] ++
      readClient (ascii "c\n") ++ [.byte, .byte, .encoded]) (by decide +kernel)
  obtain ⟨d, hd, hbytes, hreader⟩ := hreach
  obtain ⟨⟨rest, hsplit, hrest⟩, hlines, _⟩ := commands_of_bytes hd 0
  rw [hrest (by simp [hreader]), List.append_nil] at hsplit
  refine ⟨d, hd, hbytes, ?_⟩
  rw [hlines, ← hsplit, hbytes]
  decide

end Daemon

end Mochad
