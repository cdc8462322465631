import Mochad.X10.Reports
import Mochad.X10.TableBounds

/-!
# What is reported of a sensor, and what is answered

A security frame is reported by the name of its function, and what is answered about its sensor is
worked out from the function again. The names tell an alert from a normal for every function that a
motion or a contact sensor has; the answers know fewer functions (`Known`): none with the tamper bit
for a long address, and not those of Home/Away for a short one.

So a sensor is answered about as it was reported exactly if its row is its own, and the last function
in that row is one that the answers know (`Told`).
-/

namespace Mochad

open X10M (Emits gets)

/-! ### Names -/

/-- **The name that a function is reported by**, of a sensor of a kind. -/
def secName (short : Bool) (function : UInt8) : Option Bytes :=
  if short then findSecRemoteKeyName function else findSecEventName function

/-- A security frame is reported by that name. -/
theorem event_function {frame : RfFrame} {e : Sighting} (h : frame.sighting = some e) (marker : UInt8) :
    (frame.event marker).function = secName e.tag e.value := by
  cases frame with
  | camera | dim | switch => cases h
  | short address function =>
    obtain rfl := Option.some.inj h
    rfl
  | long address function =>
    obtain rfl := Option.some.inj h
    rfl

/-- **A security frame is reported as this**: one line is printed to all, and in it the function is
named. -/
def X10Input.ReportedAs (s : X10State) (i : X10Input) (e : Sighting) : Prop :=
  ∃ event : MochadEvent, eventLines (i.effects s) = [legacyBody event ++ ascii "\n"] ∧
    event.transport = .rfsec ∧ event.function = secName e.tag e.value

/-- A security frame that is acted upon reports its event, and is sent on as nothing. -/
theorem reports_decodeRf_sighting {env : Env} {relay : ℤ → Bytes → X10M Unit} {fd : ℤ}
    {s : X10State} {e : Sighting} {buf₀ : Memory} {len₀ : ℕ}
    (h : (acceptedFrame env s buf₀ len₀).bind RfFrame.sighting = some e) :
    ∃ event : MochadEvent, Reports (cm15aDecodeRf env relay fd buf₀ len₀) s [event] ∧
      (legacyBody event).length < 256 ∧ event.transport = .rfsec ∧
        event.function = secName e.tag e.value := by
  obtain ⟨frame, haccepted, hsighting⟩ := Option.bind_eq_some_iff.mp h
  rcases htrim : trimMarkers buf₀ len₀ with ⟨buf, len⟩
  rw [acceptedFrame, htrim] at haccepted
  dsimp only at haccepted
  split at haccepted
  · cases haccepted
  next hheld =>
    refine ⟨frame.event (buf 0), ?_, fits_event haccepted (buf 0), ?_, event_function hsighting _⟩
    · obtain ⟨dups, reads, happly⟩ := cm15aDecodeRf_apply env relay fd htrim haccepted s
      rw [if_neg hheld] at happly
      have hrepeat : Emits Effect.Unreported (repeatRF env fd buf len) :=
        emits_repeatRF_of env (unreported_sockprintf (by decide) fd) (fun _ => rfl) buf len
      have hsend : Emits Effect.Unreported (frame.sendOn env relay fd) := by
        cases frame with
        | camera | dim | switch => cases hsighting
        | short | long => exact Emits.pure _
      have hact : Reports (frame.act env relay fd buf len)
          { s with dups := dups, timemsReads := reads } [frame.event (buf 0)] :=
        Reports.quiet_bind (emits_update env frame)
          ((Reports.dispatch fd _ _).bind_quiet fun _ => hrepeat.bind fun _ => hsend)
      rw [Reports, happly]
      exact hact
    · cases frame with
      | camera | dim | switch => cases hsighting
      | short | long => rfl

/-- **Every security frame that is acted upon is reported so.** -/
theorem reported_of_seen {s : X10State} {i : X10Input} {e : Sighting} (h : i.seen s = some e) :
    i.ReportedAs s e := by
  have hone : ∀ event : MochadEvent, (legacyBody event).length < 256 →
      dispatched [event] = [legacyBody event ++ ascii "\n"] := by
    intro event hfits
    have htext : mochadEventFormatLegacyBody event 256 = some (legacyBody event) := if_pos hfits
    rw [dispatched, List.filterMap_cons, htext]
    rfl
  obtain ⟨⟨env, p, n⟩, hradio, hseen⟩ := Option.bind_eq_some_iff.mp h
  cases i with
  | line c fd text =>
    obtain ⟨⟨cmd, rest⟩, hcmd, hframe⟩ := Option.map_eq_some_iff.mp hradio
    obtain ⟨⟨command, tokens⟩, hline, hof⟩ := Option.bind_eq_some_iff.mp hcmd
    obtain ⟨rfl, rfl, rfl⟩ : c.env = env ∧ Memory.ofBytes cmd.frame c.env.stack = p ∧
        cmd.frame.length = n := by simpa using hframe
    obtain ⟨event, hreports, hfits, htransport, hfunction⟩ :=
      @reports_decodeRf_sighting _ (relayTo c) (-1) _ _ _ _ hseen
    refine ⟨event, ?_, htransport, hfunction⟩
    rw [← hone event hfits]
    show Reports (processcommandline c fd text) s [event]
    rw [processcommandline_radio hline hof]
    refine Reports.quiet_bind quiet_or20ok ?_
    rw [or20ok_state]
    exact (hreports.bind_quiet fun _ => quiet_x10Write _).bind_quiet fun _ => quiet_finish _
  | packet env' c buf len =>
    obtain ⟨hlook, rfl, hmarker⟩ : seenPacket env' buf len = some (p, n) ∧ env' = env ∧
        p 0 = 0x5d := by
      simp only [X10Input.radio] at hradio
      rw [seenPacket]
      split_ifs at hradio ⊢
      · obtain ⟨rfl, rfl, rfl⟩ : env' = env ∧ Memory.ofBytes (0x5d :: buf.take len) env'.stack = p ∧
          len + 1 = n := by simpa using hradio
        exact ⟨rfl, rfl, rfl⟩
      next hmarker =>
        obtain ⟨rfl, rfl, rfl⟩ : env' = env ∧ buf = p ∧ len = n := by simpa using hradio
        exact ⟨rfl, rfl, hmarker⟩
    obtain ⟨event, hreports, hfits, htransport, hfunction⟩ :=
      @reports_decodeRf_sighting _ (fun fd line => do let _ ← processcommandline c fd line) (-1)
        _ _ _ _ hseen
    have hpacket : cm15aDecode env' (fun fd line => do let _ ← processcommandline c fd line) (-1)
        buf len = decodePacket env' (fun fd line => do let _ ← processcommandline c fd line) (-1)
          p n := by
      rw [seenPacket] at hlook
      rw [cm15aDecode]
      split_ifs at hlook ⊢
      all_goals
        obtain ⟨rfl, rfl⟩ := Prod.mk.inj (Option.some.inj hlook)
        rfl
    refine ⟨event, ?_, htransport, hfunction⟩
    rw [← hone event hfits]
    show Reports (cm15aDecode env' _ (-1) buf len) s [event]
    have hclock : p 0 ≠ 0xa5 := by rw [hmarker]; decide
    have hplc : p 0 ≠ 0x5a := by rw [hmarker]; decide
    rw [hpacket, decodePacket, if_neg hclock, if_neg hplc, if_pos hmarker]
    split
    · refine Reports.quiet_bind (Emits.call (unreported_sockprintf ?_ (-1))) hreports
      rintro (⟨rest, h⟩ | ⟨rest, h⟩)
      · simp [ascii] at h
      · simp [ascii] at h
    · exact hreports

/-- The name of an alert: one of its words says so. -/
def IsAlert (name : Option Bytes) : Prop :=
  name.any fun text => (text.splitOn 0x5f).contains (ascii "alert")

/-- The name of a normal. -/
def IsNormal (name : Option Bytes) : Prop :=
  name.any fun text => (text.splitOn 0x5f).contains (ascii "normal")

instance (name : Option Bytes) : Decidable (IsAlert name) := inferInstanceAs (Decidable (_ = true))

instance (name : Option Bytes) : Decidable (IsNormal name) := inferInstanceAs (Decidable (_ = true))

/-- **A function that the answers know**: it is not one of a tampered contact, or of Home/Away. -/
def Known (short : Bool) (function : UInt8) : Prop :=
  if short then function ≠ 0x0C ∧ function ≠ 0x8C else function &&& (0x40 : UInt8) = 0

instance (short : Bool) (function : UInt8) : Decidable (Known short function) := by
  unfold Known
  infer_instance

/-- The answer that a function stands for. -/
def secStatus (short : Bool) (function : UInt8) : Option ℤ :=
  if short then shortStatus function else longStatus function

/-- The names of the functions of a kind. -/
def secNames (short : Bool) : List (UInt8 × Bytes) :=
  if short then secRemoteKeyNames else secEventNames

theorem secName_cases (short : Bool) (function : UInt8) :
    (secName short function = none ∧ secStatus short function = none) ∨
      ∃ text, secName short function = some text ∧ (function, text) ∈ secNames short := by
  have hname : secName short function = findName (secNames short) function := by
    cases short with
    | true => rfl
    | false => rfl
  have hfound : ∀ function, secStatus short function ≠ none →
      ∃ row ∈ secNames short, row.1 = function := by
    cases short with
    | true => exact forall_byte (by decide +kernel)
    | false => exact forall_byte (by decide +kernel)
  rw [hname, findName]
  cases hrow : (secNames short).find? fun row => row.1 = function with
  | none =>
    refine Or.inl ⟨rfl, ?_⟩
    by_contra hsome
    obtain ⟨row, hmem, hfunct⟩ := hfound function hsome
    exact List.find?_eq_none.mp hrow row hmem (by simpa using hfunct)
  | some row =>
    have hfunct : row.1 = function := by simpa using List.find?_some hrow
    exact Or.inr ⟨row.2, rfl, hfunct ▸ List.mem_of_find?_eq_some hrow⟩

/-- **The answers are the known alerts and normals**, and no name is both. -/
theorem secStatus_secName (short : Bool) (function : UInt8) :
    (secStatus short function = some 1 ↔ IsAlert (secName short function) ∧ Known short function) ∧
      (secStatus short function = some 0 ↔
        IsNormal (secName short function) ∧ Known short function) ∧
      ¬(IsAlert (secName short function) ∧ IsNormal (secName short function)) := by
  obtain ⟨hname, hstatus⟩ | ⟨text, hname, hmem⟩ := secName_cases short function
  · rw [hname, hstatus]
    simp [IsAlert, IsNormal]
  · have hall : ∀ row ∈ secNames short,
        (secStatus short row.1 = some 1 ↔ IsAlert (some row.2) ∧ Known short row.1) ∧
          (secStatus short row.1 = some 0 ↔ IsNormal (some row.2) ∧ Known short row.1) ∧
          ¬(IsAlert (some row.2) ∧ IsNormal (some row.2)) := by
      cases short with
      | true => decide +kernel
      | false => decide +kernel
    rw [hname]
    exact hall _ hmem

/-! ### Answers -/

/-- A line that asks about a sensor. -/
def AsksAbout (short : Bool) (addr : ℕ) (line : Bytes) : Prop :=
  ∃ tokens, commandOfLine line = some (.getstatussec, tokens) ∧
    getrfaddr tokens = (some (short, addr), [])

/-- What is answered. -/
theorem effects_getstatussec (c : Ctx) (fd : ℤ) {short : Bool} {addr : ℕ} {line : Bytes}
    (h : AsksAbout short addr line) (s : X10State) :
    (processcommandline c fd line s).effects =
      [.statusprintf fd
        ((if huaGetstatusSec s short addr = 1 then ascii "on" else ascii "off") ++ ascii "\n\r")] := by
  obtain ⟨tokens, hline, haddr⟩ := h
  have hrun : runCommand c (relayTo c) fd .getstatussec tokens = (do
      let status ← gets fun s => huaGetstatusSec s short addr
      statusprintf fd ((if status = 1 then ascii "on" else ascii "off") ++ ascii "\n\r")
      pure (.rest [])) := by
    rw [runCommand, getstatussecCommand, haddr]
  rw [processcommandline_of_line hline, hrun]
  rfl

/-- **What the table tells**, as far as there was room. -/
theorem huaGetstatusSec_within {s : X10State} {seen : List Sighting}
    (h : TableKeepsWithin s.x10sensors seen) (short : Bool) (addr : ℕ) :
    huaGetstatusSec s short addr =
      ((Register.keptWithin (maxSensors - 1) seen addr).bind (kindStatus short)).getD (-1) := by
  rw [huaGetstatusSec_scan, h.findSome?_eq addr (kindStatus short)]

/-- **An answer agrees with the report** of the sensor's last frame. -/
def Agrees (c : Ctx) (fd : ℤ) (line : Bytes) (w : Watched) (short : Bool) (addr : ℕ) : Prop :=
  ∀ function ∈ Register.last w.seen short addr,
    (IsAlert (secName short function) →
      (processcommandline c fd line w.x10).effects = [.statusprintf fd (ascii "on\n\r")]) ∧
    (IsNormal (secName short function) → huaGetstatusSec w.x10 short addr = 0)

/-- **A sensor's row tells its last frame**: there was room for it when its number was first seen,
and that was as one of its kind; and the last function under the number is one that the answers
know, and means for this kind what the sensor's own last function means. -/
def Told (seen : List Sighting) (short : Bool) (addr : ℕ) (function : UInt8) : Prop :=
  ∃ latest, Register.keptWithin (maxSensors - 1) seen addr = some (short, latest) ∧
    Known short latest ∧
    (IsAlert (secName short latest) ↔ IsAlert (secName short function)) ∧
    (IsNormal (secName short latest) ↔ IsNormal (secName short function))

/-- Whether the row tells an alert, or a normal, that was reported. -/
theorem told_iff {seen : List Sighting} {short : Bool} {addr : ℕ} {function : UInt8} :
    ((IsAlert (secName short function) →
        ((Register.keptWithin (maxSensors - 1) seen addr).bind (kindStatus short)).getD (-1) = 1) ∧
      (IsNormal (secName short function) →
        ((Register.keptWithin (maxSensors - 1) seen addr).bind (kindStatus short)).getD (-1) = 0)) ↔
      (IsAlert (secName short function) ∨ IsNormal (secName short function) →
        Told seen short addr function) := by
  have hrow : ∀ {answer : ℤ}, answer ≠ -1 →
      (((Register.keptWithin (maxSensors - 1) seen addr).bind (kindStatus short)).getD (-1) = answer ↔
        ∃ latest, Register.keptWithin (maxSensors - 1) seen addr = some (short, latest) ∧
          secStatus short latest = some answer) := by
    intro answer hanswer
    cases hkept : Register.keptWithin (maxSensors - 1) seen addr with
    | none => simp [Ne.symm hanswer]
    | some row =>
      obtain ⟨tag, latest⟩ := row
      by_cases htag : tag = short
      · subst htag
        cases hstatus : secStatus tag latest with
        | none =>
          have hnone : kindStatus tag (tag, latest) = none := (if_pos rfl).trans hstatus
          simp [hnone, hstatus, Ne.symm hanswer]
        | some status =>
          have hsome : kindStatus tag (tag, latest) = some status := (if_pos rfl).trans hstatus
          simp [hsome, hstatus]
      · simp [kindStatus, htag, Ne.symm hanswer]
  obtain ⟨-, -, hexclusive⟩ := secStatus_secName short function
  rw [hrow (by decide), hrow (by decide)]
  constructor
  · rintro ⟨halert, hnormal⟩ (h | h)
    · obtain ⟨latest, hkept, hstatus⟩ := halert h
      obtain ⟨hone, -, hboth⟩ := secStatus_secName short latest
      obtain ⟨hlatest, hknown⟩ := hone.mp hstatus
      exact ⟨latest, hkept, hknown, iff_of_true hlatest h,
        iff_of_false (fun hn => hboth ⟨hlatest, hn⟩) fun hn => hexclusive ⟨h, hn⟩⟩
    · obtain ⟨latest, hkept, hstatus⟩ := hnormal h
      obtain ⟨-, hzero, hboth⟩ := secStatus_secName short latest
      obtain ⟨hlatest, hknown⟩ := hzero.mp hstatus
      exact ⟨latest, hkept, hknown, iff_of_false (fun ha => hboth ⟨ha, hlatest⟩) fun ha =>
        hexclusive ⟨ha, h⟩, iff_of_true hlatest h⟩
  · intro htold
    constructor
    · intro h
      obtain ⟨latest, hkept, hknown, halert, -⟩ := htold (Or.inl h)
      exact ⟨latest, hkept, (secStatus_secName short latest).1.mpr ⟨halert.mpr h, hknown⟩⟩
    · intro h
      obtain ⟨latest, hkept, hknown, -, hnormal⟩ := htold (Or.inr h)
      exact ⟨latest, hkept, (secStatus_secName short latest).2.1.mpr ⟨hnormal.mpr h, hknown⟩⟩

/-- **A sensor is answered about as it was reported exactly if its row tells its last frame**,
whatever lines and packets came in since the table was empty. Each frame was reported to all when it
came in, with the name of its function. -/
theorem status_agrees_iff (c : Ctx) (fd : ℤ) {short : Bool} {addr : ℕ} {line : Bytes}
    (hask : AsksAbout short addr line) {s : X10State} (hempty : s.x10sensors = [])
    {inputs : List X10Input} (hclear : ∀ i ∈ inputs, ¬i.ClearsSensors) :
    (∀ t i e, X10Input.seen t i = some e → i.ReportedAs t e) ∧
    (Agrees c fd line (Watched.run ⟨s, []⟩ inputs) short addr ↔
      ∀ function ∈ Register.last (Watched.run ⟨s, []⟩ inputs).seen short addr,
        IsAlert (secName short function) ∨ IsNormal (secName short function) →
          Told (Watched.run ⟨s, []⟩ inputs).seen short addr function) := by
  refine ⟨fun t i e h => reported_of_seen h, ?_⟩
  have hkept := Watched.keepsWithin_run (w := ⟨s, []⟩) (tableKeepsWithin_nil hempty) hclear
  generalize Watched.run ⟨s, []⟩ inputs = w at hkept ⊢
  have hon : ([.statusprintf fd ((if huaGetstatusSec w.x10 short addr = 1 then ascii "on"
      else ascii "off") ++ ascii "\n\r")] : List Effect) = [.statusprintf fd (ascii "on\n\r")] ↔
      huaGetstatusSec w.x10 short addr = 1 := by
    split
    next h => exact iff_of_true rfl h
    next h => exact iff_of_false (fun heq => by cases heq) h
  refine forall₂_congr fun function _ => ?_
  rw [effects_getstatussec c fd hask, hon, huaGetstatusSec_within hkept, ← told_iff]

/-- A frame of the sensor `000003`. -/
def contactFrame (function : UInt8) : List X10Input :=
  let env := Env.plain mochadConfigDefaults false
  [.packet env (.idle env)
    (Memory.ofBytes [0x5d, 0x29, 0x00, 0x0f, function, ~~~function, 0x00, 0x03] 0) 8]

/-- A contact that is open. -/
theorem status_agrees_contact :
    Agrees (.idle (.plain mochadConfigDefaults false)) 4 (ascii "getstatussec 000003")
      (Watched.run ⟨.idle, []⟩ (contactFrame 0x04)) false 3 := by
  have hseen : (Watched.run ⟨.idle, []⟩ (contactFrame 0x04)).seen = [⟨false, 3, 0x04⟩] := by
    decide +kernel
  refine (status_agrees_iff _ 4 ⟨[ascii "000003"], by decide, by decide⟩ rfl ?_).2.mpr ?_
  · rintro i hi
    rw [List.mem_singleton.mp hi]
    exact id
  · rw [hseen]
    rintro function hlast -
    obtain rfl : 0x04 = function := Option.some.inj hlast
    exact ⟨0x04, by decide, by decide, Iff.rfl, Iff.rfl⟩

/-- **A door is open and its cover is off, and the answer is that it is closed.** -/
theorem tampered_unanswered : ¬ ∀ (c : Ctx) (fd : ℤ) (short : Bool) (addr : ℕ) (line : Bytes)
    (s : X10State) (inputs : List X10Input), AsksAbout short addr line → s.x10sensors = [] →
    (∀ i ∈ inputs, ¬i.ClearsSensors) → Agrees c fd line (Watched.run ⟨s, []⟩ inputs) short addr := by
  intro hall
  have hseen : Register.last (Watched.run ⟨.idle, []⟩ (contactFrame 0x44)).seen false 3 = some 0x44 := by
    decide +kernel
  have hagrees := hall (.idle (.plain mochadConfigDefaults false)) 4 false 3
    (ascii "getstatussec 000003") .idle (contactFrame 0x44)
    ⟨[ascii "000003"], by decide, by decide⟩ rfl ?_ 0x44 hseen
  · have hoff : (processcommandline (.idle (.plain mochadConfigDefaults false)) 4
        (ascii "getstatussec 000003") (Watched.run ⟨.idle, []⟩ (contactFrame 0x44)).x10).effects =
          [.statusprintf 4 (ascii "off\n\r")] := by decide +kernel
    have hon := hagrees.1 (by decide)
    rw [hoff] at hon
    cases hon
  · rintro i hi
    rw [List.mem_singleton.mp hi]
    exact id

end Mochad
