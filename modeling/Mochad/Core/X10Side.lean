import Mochad.Core.Tables
import Mochad.X10.Insulation
import Mochad.X10.RadioStatus
import Mochad.X10.Sensors

/-!
# What a step does to the X10 side

Only a command and a packet from the controller change the X10 side of the daemon
(`Daemon.x10_step`). So what the functions of the device tables keep is so in every
reachable state.
-/

namespace Mochad

namespace Daemon

variable {env : Env} {d d' : Daemon} {label : Label}

open X10M (Preserves)

/-- **How the X10 side changes** in a step. -/
inductive X10Step (env : Env) (s : X10State) : X10State → Prop
  | same : X10Step env s s
  | command (c : Ctx) (fd : ℤ) (line : Bytes) :
      X10Step env s (Mochad.processcommandline c fd line s).state
  | packet (c : Ctx) (buf : Memory) (len : ℕ) :
      X10Step env s (cm15aDecode env
        (fun fd line => do let _ ← Mochad.processcommandline c fd line) (-1) buf len s).state

theorem counted_x10 (d : Daemon) (l : ServiceLoop) (v : Visit) : (d.counted l v).x10 = d.x10 := by
  simp only [counted]
  split
  · rfl
  · rfl

theorem afterListener_x10 (d : Daemon) (snap : Snapshot) (nready : ℤ) (kind : Kind) :
    (d.afterListener snap nready kind).x10 = d.x10 := by
  cases kind with
  | main | xml | or20 => rfl

theorem afterAccept_x10 (d : Daemon) (snap : Snapshot) (nready : ℤ) (kind : Kind) :
    (d.afterAccept snap nready kind).x10 = d.x10 := by
  rw [afterAccept]
  split
  · rfl
  · exact afterListener_x10 d snap _ kind

theorem doPollin_x10 {l : ServiceLoop} {e : PollEntry} {v : Visit} {read : ReadResult}
    (h : d.doPollin l e v read = some d') : d'.x10 = d.x10 := by
  have hclosed : ∀ a : Daemon, a.x10 = d.x10 → ((a.delClient e.fd).counted l v).x10 = d.x10 :=
    fun a ha => (counted_x10 _ l v).trans ((congrArg Prod.fst (delClient_sides a e.fd)).trans ha)
  simp only [doPollin] at h
  split at h
  · split at h
    · obtain rfl := Option.some.inj h
      exact hclosed _ rfl
    · obtain rfl := Option.some.inj h
      exact hclosed _ rfl
    · split at h
      · obtain rfl := Option.some.inj h
        exact counted_x10 _ l v
      · obtain rfl := Option.some.inj h
        rfl
  · cases h

/-- **One turn of the service loop.** -/
theorem doService_x10 {l : ServiceLoop} {results : List SendResult} {now : ℕ} {read : ReadResult}
    (h : d.doService l results now read = some d') : d'.x10 = d.x10 := by
  have hout : ∀ e : PollEntry, (d.doPollout e results now).x10 = d.x10 := by
    intro e
    rw [doPollout]
    split
    · rfl
    · exact congrArg Prod.fst (flushClientOutput_sides _ _ results now)
  simp only [doService] at h
  split at h
  · cases h
  next e _ =>
    split at h
    · obtain rfl := Option.some.inj h
      rfl
    · have hd₁ : (if e.revents.pollout then d.doPollout e results now else d).x10 = d.x10 := by
        split
        · exact hout e
        · rfl
      generalize (if e.revents.pollout then d.doPollout e results now else d) = d₁ at h hd₁
      split at h
      · obtain rfl := Option.some.inj h
        exact hd₁
      split at h
      · exact (doPollin_x10 h).trans hd₁
      · obtain rfl := Option.some.inj h
        exact hd₁

theorem addAccepted_x10 (d : Daemon) (kind : Kind) (fd : ℤ) (nonblocking : Bool) :
    (d.addAccepted env kind fd nonblocking).x10 = d.x10 := by
  rcases addAccepted_cases env d kind fd nonblocking with ⟨s, _, heq⟩ | heq
  · rw [heq]
  · rw [heq]

/-- A line is executed. -/
theorem runLine_state (d : Daemon) (r : Reading) (line : Bytes) :
    (d.runLine env r line).x10 = (Mochad.processcommandline
      ((d.record (.command r.conn r.fd line)).ctx env) r.fd line d.x10).state := by
  have hrun : ((d.record (.command r.conn r.fd line)).processcommandline env r.fd line).x10 =
      (Mochad.processcommandline ((d.record (.command r.conn r.fd line)).ctx env) r.fd line
        d.x10).state := performAll_x10 env _ _
  have hline : (d.runLine env r line).x10 =
      ((d.record (.command r.conn r.fd line)).processcommandline env r.fd line).x10 := by
    rw [runLine]
    split
    · exact congrArg Prod.fst (delClient_sides _ r.fd)
    · rfl
  rw [hline, hrun]

theorem runLine_x10 (d : Daemon) (r : Reading) (line : Bytes) :
    X10Step env d.x10 (d.runLine env r line).x10 := by
  rw [runLine_state]
  exact .command _ r.fd line

/-- **A step without a byte and without a packet** leaves the X10 side alone. -/
theorem x10_still (hbyte : label ≠ .byte)
    (hintr : ∀ status data signal, label ≠ .intrIn status data signal)
    (h : d.step env label = some d') : d'.x10 = d.x10 := by
  cases label with
  | byte => exact absurd rfl hbyte
  | intrIn status data signal => exact absurd rfl (hintr status data signal)
  | service results now read =>
    simp only [step] at h
    split at h
    · exact doService_x10 h
    · cases h
  | pollReturned revents now =>
    simp only [step] at h
    split at h
    · simp only [doPollReturned] at h
      split at h
      · have hstalled := disconnectStalledClients_sides
          (d.usbRecord (.pollReturned (revents.filter Revents.any).length)) now
        generalize Daemon.disconnectStalledClients _ now = a at h hstalled
        obtain rfl := Option.some.inj h
        exact congrArg Prod.fst hstalled
      · cases h
    · cases h
  | accept fd nonblocking =>
    simp only [step, doAccept] at h
    split at h
    · split at h
      · obtain rfl := Option.some.inj h
        exact (afterAccept_x10 _ _ _ _).trans (addAccepted_x10 d _ fd nonblocking)
      · cases h
    · cases h
  | acceptFailed =>
    simp only [step, doAcceptFailed] at h
    split at h
    · split at h
      · obtain rfl := Option.some.inj h
        exact afterAccept_x10 _ _ _ _
      · cases h
    · cases h
  | notReady =>
    simp only [step, doNotReady] at h
    split at h
    · split at h
      · cases h
      · obtain rfl := Option.some.inj h
        exact afterListener_x10 _ _ _ _
    · cases h
  | encoded =>
    simp only [step] at h
    split at h
    · obtain ⟨_, rfl⟩ := doEncoded_eq h
      exact counted_x10 _ _ _
    · cases h
  | createListeners main xml or20 =>
    simp only [step] at h
    split at h
    · simp only [doCreateListeners] at h
      split at h
      · split at h
        · obtain rfl := Option.some.inj h
          rfl
        · obtain rfl := Option.some.inj h
          rfl
      · cases h
    · cases h
  | cancel result =>
    simp only [step] at h
    split at h
    · obtain ⟨io, _, rfl⟩ := doCancelOut_eq h
      rfl
    · obtain ⟨io, _, rfl⟩ := doCancelIn_eq h
      rfl
    · cases h
  | signal =>
    simp only [step] at h
    split at h
    · obtain rfl := Option.some.inj h
      rfl
    · cases h
  | otherOpened fd | otherClosed fd =>
    simp only [step, doOtherOpened, doOtherClosed] at h
    split at h
    · obtain rfl := Option.some.inj h
      rfl
    · cases h
  | layOutFailed | intrOut status =>
    simp only [step, doLayOutFailed, doIntrOut] at h
    split at h
    · split at h
      · obtain rfl := Option.some.inj h
        rfl
      · cases h
    · cases h
  | served =>
    simp only [step, doServed] at h
    split at h
    · split at h
      · cases h
      · obtain rfl := Option.some.inj h
        rfl
    · cases h
  | pollfdAdded p ok =>
    simp only [step, doPollfdAdded] at h
    split at h
    · split at h
      · split at h
        · obtain rfl := Option.some.inj h
          rfl
        · obtain rfl := Option.some.inj h
          rfl
      · cases h
    · cases h
  | layOut usbTimeout =>
    simp only [step] at h
    split at h
    · obtain rfl := Option.some.inj h
      simp only [doLayOut]
      split
      · rfl
      split
      · rfl
      · rfl
    · cases h
  | handled | drainTurn | drained result =>
    simp only [step] at h
    split at h
    · obtain rfl := Option.some.inj h
      simp only [doHandled, doDrainTurn, doDrained]
      split
      · rfl
      · rfl
    · cases h
  | startTransfers | initcm1Xa | pollInterrupted | pollFailed | pollfdRemoved fd =>
    simp only [step] at h
    split at h
    · obtain rfl := Option.some.inj h
      rfl
    · cases h

/-- **The X10 side changes by commands and packets only.** -/
theorem x10_step (h : d.step env label = some d') : X10Step env d.x10 d'.x10 := by
  have hstill : label ≠ .byte → (∀ status data signal, label ≠ .intrIn status data signal) →
      X10Step env d.x10 d'.x10 := fun hbyte hintr => x10_still hbyte hintr h ▸ .same
  cases label with
  | byte =>
    simp only [step] at h
    split at h
    next l r hpc =>
      obtain ⟨b, rest, _, ⟨_, rfl⟩ | ⟨line, _, rfl⟩⟩ := doByte_cases h
      · exact .same
      · exact runLine_x10 (d.afterByte l r b rest) r line
    · cases h
  | intrIn status data signal =>
    simp only [step] at h
    split at h
    · simp only [doIntrIn] at h
      split at h
      · split at h
        · obtain rfl := Option.some.inj h
          refine (performAll_x10 env _ _).symm ▸ ?_
          exact .packet _ _ _
        · obtain rfl := Option.some.inj h
          exact .same
      · cases h
    · cases h
  | _ => exact hstill (by rintro ⟨⟩) (by rintro _ _ _ ⟨⟩)

/-- **What the interpreter and the decoder keep, the daemon does.** -/
theorem Reachable.x10 (h : Reachable env d) {P : X10State → Prop} (hP : Stable P)
    (h0 : P x10Initial) : P d.x10 := by
  have hstep : ∀ {s s' : X10State}, P s → X10Step env s s' → P s' := by
    intro s s' hs hx
    cases hx with
    | same => exact hs
    | command c fd line => exact hP.processcommandline c fd line s hs
    | packet c buf len =>
      refine hP.decode env (fun fd line _ => ?_) (-1) buf len s hs
      exact (hP.processcommandline c fd line).bind fun _ => Preserves.pure _
  induction h with
  | refl => exact h0
  | tail _ hab ih =>
    obtain ⟨label, _, hs⟩ := hab
    exact hstep ih (x10_step hs)

theorem Reachable.protoSettled (h : Reachable env d) : ProtoSettled d.x10 :=
  Reachable.x10 h stable_protoSettled fun _ => Or.inl rfl

/-- **The X10 side is what lines and packets have made of it.** -/
theorem Reachable.inputs (h : Reachable env d) :
    ∃ inputs, d.x10 = (Watched.run ⟨x10Initial, []⟩ inputs).x10 := by
  have hone : ∀ (inputs : List X10Input) (i : X10Input),
      i.run (Watched.run ⟨x10Initial, []⟩ inputs).x10 =
        (Watched.run ⟨x10Initial, []⟩ (inputs ++ [i])).x10 := by
    intro inputs i
    rw [Watched.run, Watched.run, List.foldl_append]
    rfl
  have hstep : ∀ {s s' : X10State}, X10Step env s s' →
      s' = s ∨ ∃ i : X10Input, s' = i.run s := by
    intro s s' hx
    cases hx with
    | same => exact Or.inl rfl
    | command c fd line => exact Or.inr ⟨.line c fd line, rfl⟩
    | packet c buf len => exact Or.inr ⟨.packet env c buf len, rfl⟩
  induction h with
  | refl => exact ⟨[], rfl⟩
  | tail _ hab ih =>
    obtain ⟨label, _, hs⟩ := hab
    obtain ⟨inputs, hinputs⟩ := ih
    rcases hstep (x10_step hs) with hsame | ⟨i, hi⟩
    · exact ⟨inputs, hsame.trans hinputs⟩
    · exact ⟨inputs ++ [i], hi.trans (by rw [hinputs, hone])⟩

/-! ### Switching by radio -/

/-- **A unit is switched alone by radio exactly if the group of its house is spent**, in every
reachable state. -/
theorem switched_alone_iff {relay : ℤ → Bytes → X10M Unit} {fd : ℤ} {buf₀ buf : Memory}
    {len₀ len : ℕ} {house : UInt8} {unit func : ℕ} (hd : Reachable env d)
    (htrim : trimMarkers buf₀ len₀ = (buf, len))
    (hframe : rfFrame buf len = some (.switch house unit func))
    (hheld : heldBack env (buf.take len) d.x10 = false)
    (hrelay : relayed env d.x10 house = false) :
    OnlyUnit (houseIndex house) ((unit : ℤ) - 1) (rfSwitchesTo func) d.x10
        (cm15aDecodeRf env relay fd buf₀ len₀ d.x10).state ↔
      GroupSpent (houseIndex house) ((unit : ℤ) - 1) (rfSwitchesTo func) d.x10 :=
  decodeRf_switch_iff hd.protoSettled htrim hframe hheld hrelay

/-- The frame that switches A1 on. -/
def frameA1On : Memory := Memory.ofBytes [0x5d, 0x20, 0x60, 0x9f, 0x00, 0xff] 0

theorem frameA1On_trim : trimMarkers frameA1On 6 = (frameA1On, 6) := by
  simp [trimMarkers]

theorem frameA1On_frame : rfFrame frameA1On 6 = some (.switch 0x41 1 0) := by decide

/-- A1 is switched on alone after A2 was addressed and switched on, which ends its group. -/
theorem switched_alone_spent : ∃ d, Reachable (.plain mochadConfigDefaults true) d ∧
    d.x10.houseUnitSelected 0 1 = 0x31 ∧
      OnlyUnit 0 0 0x31 d.x10
        (cm15aDecodeRf (.plain mochadConfigDefaults true) (fun _ _ => pure ()) (-1) frameA1On 6
          d.x10).state := by
  have hreach : ∃ d, Reachable (.plain mochadConfigDefaults true) d ∧
      (d.x10.x10protostate 0 = 1 ∧ d.x10.houseUnitSelected 0 1 = 0x31 ∧
        heldBack (.plain mochadConfigDefaults true) (frameA1On.take 6) d.x10 = false) :=
    Transition.exists_run_of_exec
      (connect .main ++ readClient (ascii "pl a2 on\n") ++ List.replicate 9 .byte)
      (by decide +kernel)
  obtain ⟨d, hd, hproto, hsel, hheld⟩ := hreach
  exact ⟨d, hd, hsel,
    (switched_alone_iff hd frameA1On_trim frameA1On_frame hheld rfl).mpr (Or.inl hproto)⟩

/-- **Another unit can be switched with it**: A2 was addressed on the power line. -/
theorem switched_together : ¬ ∀ env d relay fd buf₀ len₀ buf len house unit func,
    Reachable env d → trimMarkers buf₀ len₀ = (buf, len) →
      rfFrame buf len = some (.switch house unit func) →
        heldBack env (buf.take len) d.x10 = false → relayed env d.x10 house = false →
          OnlyUnit (houseIndex house) ((unit : ℤ) - 1) (rfSwitchesTo func) d.x10
            (cm15aDecodeRf env relay fd buf₀ len₀ d.x10).state := by
  have hreach : ∃ d, Reachable (.plain mochadConfigDefaults true) d ∧
      (d.x10.x10protostate 0 = 0 ∧ d.x10.houseUnitSelected 0 1 = 0x31 ∧
        d.x10.houseUnitState 0 1 = 0 ∧
        heldBack (.plain mochadConfigDefaults true) (frameA1On.take 6) d.x10 = false) :=
    Transition.exists_run_of_exec
      (connect .main ++ readClient (ascii "pl a2\n") ++ List.replicate 6 .byte) (by decide +kernel)
  obtain ⟨d, hd, hproto, hsel, hstate, hheld⟩ := hreach
  intro hall
  have honly := hall _ d (fun _ _ => pure ()) (-1) frameA1On 6 frameA1On 6 0x41 1 0 hd
    frameA1On_trim frameA1On_frame hheld rfl
  rcases (decodeRf_switch_iff hd.protoSettled frameA1On_trim frameA1On_frame hheld rfl).mp honly
    with hone | hspent
  · rw [show houseIndex 0x41 = 0 from rfl, hproto] at hone
    exact absurd hone (by decide)
  · have hon := (hspent 1 (by decide) (by decide) (by
      rw [show houseIndex 0x41 = 0 from rfl, hsel]
      decide)).1
    rw [show houseIndex 0x41 = 0 from rfl, hstate] at hon
    exact absurd hon (by decide)

/-! ### The status of a unit -/

/-- **The status of a unit follows a radio command exactly if its frame is not held back**, in
every reachable state. -/
theorem status_follows_command_iff {fd : ℤ} {line : Bytes} {tokens rest : List Bytes}
    {house unit : ℤ} {off : Bool} (hd : Reachable env d)
    (hline : commandOfLine line = some (.rf, tokens))
    (hcmd : radioCommandOf .rf tokens = some (.device house unit (if off then 3 else 2), rest)) :
    (huaGetstatus (Mochad.processcommandline (d.ctx env) fd line d.x10).state house unit =
          statusOf off ∧
        radioEvents (Mochad.processcommandline (d.ctx env) fd line d.x10).effects =
          [legacyBody (RadioCommand.device house unit (if off then 3 else 2)).event ++ ascii "\n"]) ↔
      heldBack env (RadioCommand.device house unit (if off then 3 else 2)).frame d.x10 = false :=
  status_follows_iff hline hcmd hd.protoSettled

/-- The first command of all is followed. -/
theorem status_follows_first :
    huaGetstatus (Mochad.processcommandline ((initial (.plain mochadConfigDefaults true)).ctx
          (.plain mochadConfigDefaults true)) 4 (ascii "rf a1 on") x10Initial).state 0 0 = 0x31 ∧
      radioEvents (Mochad.processcommandline ((initial (.plain mochadConfigDefaults true)).ctx
          (.plain mochadConfigDefaults true)) 4 (ascii "rf a1 on") x10Initial).effects =
        [legacyBody (RadioCommand.device 0 0 2).event ++ ascii "\n"] :=
  (status_follows_command_iff (d := .initial _) Relation.ReflTransGen.refl
    (show commandOfLine (ascii "rf a1 on") = some (.rf, [ascii "A1", ascii "ON"]) by decide +kernel)
    (show radioCommandOf .rf [ascii "A1", ascii "ON"] =
      some (.device 0 0 (if false then 3 else 2), []) by decide +kernel)).mpr (by decide +kernel)

/-- **The status can be another than the last command's**: On is sent again within the time of the
duplicate filter, after an Off. -/
theorem status_not_followed : ¬ ∀ env d fd line tokens rest house unit off,
    Reachable env d → commandOfLine line = some (.rf, tokens) →
      radioCommandOf .rf tokens = some (.device house unit (if off then 3 else 2), rest) →
        huaGetstatus (Mochad.processcommandline (d.ctx env) fd line d.x10).state house unit =
            statusOf off ∧
          radioEvents (Mochad.processcommandline (d.ctx env) fd line d.x10).effects =
            [legacyBody (RadioCommand.device house unit (if off then 3 else 2)).event ++
              ascii "\n"] := by
  have hreach : ∃ d, Reachable (.plain mochadConfigDefaults true) d ∧
      huaGetstatus (Mochad.processcommandline (d.ctx (.plain mochadConfigDefaults true)) 4
        (ascii "rf a1 on") d.x10).state 0 0 = 0x30 :=
    Transition.exists_run_of_exec
      (connect .main ++ readClient (ascii "rf a1 on\nrf a1 off\n") ++ List.replicate 19 .byte)
      (by decide +kernel)
  obtain ⟨d, hd, hstatus⟩ := hreach
  intro hall
  have hfollows := (hall _ d 4 (ascii "rf a1 on") [ascii "A1", ascii "ON"] [] 0 0 false hd
    (by decide +kernel) (by decide +kernel)).1
  rw [hstatus] at hfollows
  exact absurd hfollows (by decide)

/-! ### What lies behind a packet -/

/-- **What an earlier transfer left behind a packet can show**: a dim packet of four bytes. -/
theorem leftover_shows : ¬ ∀ env d buf buf' len stack, Reachable env d → Agree len buf buf' →
    decodeWith ((d.ctx env).withStack stack) buf' len d.x10 =
      decodeWith (d.ctx env) buf len d.x10 := by
  intro hall
  have hsame := hall (.plain mochadConfigDefaults false) (.initial _)
    (Memory.ofBytes [0x5a, 0x03, 0x02, 0x09, 0x64] 0)
    (Memory.ofBytes [0x5a, 0x03, 0x02, 0x09, 0xe4] 0) 4 0 Relation.ReflTransGen.refl
    (show ∀ i < 4, _ = _ by decide)
  have heffects := congrArg Outcome.effects hsame
  exact absurd heffects (by decide +kernel)

end Daemon

end Mochad
