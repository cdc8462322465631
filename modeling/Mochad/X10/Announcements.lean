import Mochad.X10.Relay

/-!
# Announcements

What is printed to all clients – events, raw packets, complaints about radio frames – is a line of
characters that print, followed by a newline, and short enough for the buffer that it is printed
into (`Effect.Legible`). So it is for every packet (`legible_decode`), and for every line that a
client sends (`legible_processcommandline`), whatever is answered to the client itself.
-/

namespace Mochad

open X10M (Emits gets modify)

/-- **What is printed to all is one line**, of characters that print. -/
def Effect.Legible (e : Effect) : Prop :=
  ∀ text, e = .sockprintf (-1) text →
    ∃ line, text = line ++ ascii "\n" ∧ Printable line ∧ line.length ≤ 1000

theorem legible_line (fd : ℤ) {line : Bytes} (hprint : Printable line) (hlen : line.length ≤ 1000) :
    (Effect.sockprintf fd (line ++ ascii "\n")).Legible := by
  intro text htext
  obtain ⟨_, rfl⟩ := Effect.sockprintf.inj htext
  exact ⟨line, rfl, hprint, hlen⟩

theorem legible_reply {fd : ℤ} (hfd : fd ≠ -1) (body : Bytes) :
    (Effect.sockprintf fd body).Legible := fun _ htext =>
  absurd (Effect.sockprintf.inj htext).1 hfd

theorem legible_status (fd : ℤ) (text : Bytes) : (Effect.statusprintf fd text).Legible :=
  fun _ htext => Effect.noConfusion htext

theorem legible_write (buf : Bytes) : (Effect.x10Write buf).Legible :=
  fun _ htext => Effect.noConfusion htext

section

variable {env : Env} {fd : ℤ} {buf : Memory} {len : ℕ} {relay : ℤ → Bytes → X10M Unit}

/-! ### Power line -/

/-- An event fits a buffer of 256 bytes, or it is not printed. -/
theorem legible_dispatch {e : MochadEvent} (h : e.Spelled) :
    Emits Effect.Legible (mochadDispatchEvent fd e) := by
  rw [mochadDispatchEvent, mochadEventFormatLegacyBody, checkedSnprintf]
  split
  · exact Emits.pure _
  next body hbody =>
    split at hbody
    next hfits =>
      obtain rfl := Option.some.inj hbody
      exact Emits.call (legible_line fd (printable_legacyBody h) (by omega))
    · cases hbody

theorem legible_decodePlc : Emits Effect.Legible (cm15aDecodePlc fd buf len) :=
  emits_decodePlc_of (fun _ _ h => legible_dispatch h) buf len

/-- What a power-line command calls. -/
theorem emits_send {P : Effect → Prop} (hplc : ∀ buf len, Emits P (cm15aDecodePlc (-1) buf len))
    (hwrite : ∀ buf, P (.x10Write buf)) (env : Env) (cmd : PlCommand) : Emits P (cmd.send env) := by
  cases cmd with
  | select house unit => exact emits_plTxHouseunit hplc hwrite env house unit
  | toHouse house func param => exact emits_plTxHousefunc hplc hwrite env house func param
  | toUnit house unit func param =>
    exact (emits_plTxHouseunit hplc hwrite env house unit).bind fun _ =>
      emits_plTxHousefunc hplc hwrite env house func param
  | extended house unit command subcmd param =>
    exact emits_plTxExtendedCode1 hplc hwrite env house unit command subcmd param

/-! ### Radio -/

theorem printable_hufcDecode (houseunit unitfunc : UInt8) :
    0x20 ≤ (hufcDecode houseunit unitfunc).1 := by
  have hletter : ∀ b : UInt8, (0x20 : UInt8) ≤ tableAt houseUnitTableRF ((b &&& 0xf0) >>> 4).toNat :=
    forall_byte (by decide +kernel)
  rw [hufcDecode]
  split_ifs
  · exact hletter _
  · exact hletter _
  · exact hletter _

/-- An event that names a house and a function can be spelled. -/
theorem spelled_standard (houseunit unitfunc marker : UInt8) :
    (RfFrame.event marker (let (housechar, unit, func) := hufcDecode houseunit unitfunc
      if 1 < func then .dim housechar func else .switch housechar unit func)).Spelled := by
  have hletter := printable_hufcDecode houseunit unitfunc
  have hnothing : Printable (fmtStr none) := by decide
  generalize hufcDecode houseunit unitfunc = a at hletter ⊢
  obtain ⟨housechar, unit, func⟩ := a
  dsimp only
  split
  · exact ⟨fun _ => hletter, printable_funcnameAt _, hnothing⟩
  · exact ⟨fun _ => hletter, printable_funcnameAt _, hnothing⟩

/-- **The event of an accepted frame** can be spelled. -/
theorem spelled_of_frame {frame : RfFrame} (h : rfFrame buf len = some frame) (marker : UInt8) :
    (frame.event marker).Spelled := by
  have hnothing : Printable (fmtStr none) := by decide
  rw [rfFrame] at h
  split at h
  · cases h
  split at h
  · obtain ⟨command, hname, rfl⟩ := Option.map_eq_some_iff.mp h
    exact ⟨by simp [RfFrame.event], hnothing, printable_camRemoteName hname⟩
  split at h
  · split at h
    · split at h
      · cases h
      · obtain rfl := Option.some.inj h
        exact ⟨by simp [RfFrame.event], printable_secRemoteKeyName _, hnothing⟩
    split at h
    · split at h
      · cases h
      · obtain rfl := Option.some.inj h
        exact spelled_standard (buf 2) (buf 4) marker
    · cases h
  split at h
  · cases hsec : secafDecode buf len with
    | error e =>
      rw [hsec] at h
      cases h
    | ok a =>
      rw [hsec] at h
      obtain rfl := Option.some.inj h
      exact ⟨by simp [RfFrame.event], printable_secEventName _, hnothing⟩
  · cases h

/-- What relays the equivalent commands of frames announces them. -/
def RelaysLegibly (relay : ℤ → Bytes → X10M Unit) : Prop :=
  ∀ fd line tokens cmd, IsPl line → tokenizeCommand (strupper line) = some tokens →
    plCommandOf tokens.tail = some (cmd, []) → Emits Effect.Legible (relay fd line)

theorem relaysLegibly_processDepth (c : Ctx) (n : ℕ) :
    RelaysLegibly (fun fd line => do let _ ← processDepth c n fd line) := by
  intro fd line tokens cmd hpl htokens hcmd
  refine Emits.bind ?_ fun _ => Emits.pure _
  cases n with
  | zero => exact Emits.pure _
  | succ n =>
    have hprocess : processDepth c (n + 1) fd line = plCommand c fd tokens.tail >>= finish fd := by
      refine (processWith_eq_pl c _ fd hpl).trans ?_
      simp only [htokens]
    obtain ⟨-, hrun⟩ := plCommand_of_plCommandOf c fd hcmd
    have hfinish : Emits Effect.Legible (finish fd (cmd.flow [])) := by
      cases cmd with
      | select | toHouse | toUnit | extended => exact Emits.pure _
    have hsend : Emits Effect.Legible (cmd.send c.env) :=
      emits_send (fun _ _ => legible_decodePlc) legible_write c.env cmd
    have heq : plCommand c fd tokens.tail >>= finish fd = (do
        or20ok c fd
        cmd.send c.env
        finish fd (cmd.flow [])) := by
      rw [hrun]
      simp only [bind_assoc, pure_bind]
    rw [hprocess, heq]
    exact (emits_or20ok fun text _ => legible_status fd text).bind fun _ => hsend.bind fun _ => hfinish

/-- What is done for an accepted frame. -/
theorem legible_act (hrelay : RelaysLegibly relay) {frame : RfFrame}
    (h : rfFrame buf len = some frame) (buf' : Memory) (len' : ℕ) :
    Emits Effect.Legible (frame.act env relay fd buf' len') := by
  have hrepeat : Emits Effect.Legible (repeatRF env fd buf' len') := by
    refine (Emits.gets _).bind fun mask => Emits.ite ?_ (Emits.pure _)
    have hline : (Effect.sockprintf fd (ascii "RfToRf repeat" ++ ascii "\n")).Legible :=
      legible_line fd (by decide) (by decide)
    exact Emits.bind (Emits.call hline) fun _ => Emits.call (legible_write _)
  have hsendOn : Emits Effect.Legible (frame.sendOn env relay fd) := by
    rw [RfFrame.sendOn]
    cases hline : frame.line with
    | none => exact Emits.pure _
    | some a =>
      obtain ⟨housechar, line⟩ := a
      obtain ⟨hpl, tokens, cmd, htokens, hcmd, -⟩ := line_of_named (named_of_frame h) hline
      exact (Emits.gets _).bind fun on =>
        Emits.ite (hrelay fd line tokens cmd hpl htokens hcmd) (Emits.pure _)
  exact (emits_update env frame).bind fun _ => (legible_dispatch (spelled_of_frame h _)).bind fun _ =>
    hrepeat.bind fun _ => hsendOn

theorem trimMarkers_le (buf : Memory) (len : ℕ) : (trimMarkers buf len).2 ≤ len := by
  induction len generalizing buf with
  | zero => exact le_rfl
  | succ len ih =>
    rw [trimMarkers]
    split
    · exact (ih _).trans (Nat.le_succ len)
    · exact le_rfl

/-- A line of bytes. -/
theorem legible_hexdump (fd : ℤ) (head : Bytes) (hprint : Printable head) (hlen : head.length ≤ 30)
    (bs : Bytes) : (Effect.sockprintf fd (head ++ hexdumpText bs ++ ascii "\n")).Legible := by
  have hbytes := length_hexdumpText bs
  refine legible_line fd (printable_append.mpr ⟨hprint, printable_hexdumpText bs⟩) ?_
  rw [List.length_append]
  omega

/-- **A radio frame**, whatever becomes of it. -/
theorem legible_decodeRf (hrelay : RelaysLegibly relay) (hlen : len ≤ 900) :
    Emits Effect.Legible (cm15aDecodeRf env relay fd buf len) := by
  have hless := trimMarkers_le buf len
  rcases htrim : trimMarkers buf len with ⟨p, n⟩
  rw [htrim] at hless
  cases hframe : rfFrame p n with
  | some frame =>
    rw [cm15aDecodeRf_of_frame htrim hframe]
    exact (emits_dupFilter env _).bind fun _ =>
      Emits.ite (Emits.pure _) (legible_act hrelay hframe p n)
  | none =>
    have hcomplains : Complains fd p n (cm15aDecodeRf env relay fd buf len) :=
      complains_of_rejected htrim hframe
    obtain ⟨why, hprint, -, hwhy, heq | heq⟩ := hcomplains
    · rw [heq]
      exact Emits.bind (Emits.call (legible_line fd hprint (by omega))) fun _ =>
        Emits.call (legible_hexdump fd [] (by decide) (by decide) _)
    · rw [heq]
      exact Emits.call (legible_line fd hprint (by omega))

/-- **A packet from the controller** is announced. -/
theorem legible_decode (hrelay : RelaysLegibly relay) (hlen : len ≤ 8) :
    Emits Effect.Legible (cm15aDecode env relay fd buf len) := by
  have hpacket : ∀ p n, n ≤ 9 → Emits Effect.Legible (decodePacket env relay fd p n) := by
    intro p n hn
    have hraw : Emits Effect.Legible (mhSockhexdump fd p n) :=
      Emits.call (legible_hexdump fd (ascii "Raw data received: ") (by decide) (by decide) _)
    have hframe : Emits Effect.Legible
        (if p 0 = 0xa5 then setClock env
          else if p 0 = 0x5a then cm15aDecodePlc fd p n
          else if p 0 = 0x5d then cm15aDecodeRf env relay fd p n
          else pure ()) :=
      Emits.ite ((emits_timeNow env).bind fun _ => Emits.call (legible_write _))
        (Emits.ite legible_decodePlc
          (Emits.ite (legible_decodeRf hrelay (by omega)) (Emits.pure _)))
    exact Emits.ite (hraw.bind fun _ => hframe) hframe
  exact Emits.ite (Emits.pure _) (Emits.ite (Emits.ite (Emits.pure _) (hpacket _ _ (by omega)))
    (hpacket _ _ (by omega)))

end

/-! ### Commands -/

/-- **A line of a client** prints to all what it announces, whatever it answers. -/
theorem legible_processcommandline (c : Ctx) {fd : ℤ} (hfd : fd ≠ -1) {line : Bytes}
    (h : ¬IsPolicyRequest line) : Emits Effect.Legible (processcommandline c fd line) := by
  have hrf : ∀ buf : Bytes, buf.length ≤ 8 → Emits Effect.Legible (rfTx c.env (relayTo c) buf) :=
    fun buf hbuf => (legible_decodeRf (relaysLegibly_processDepth c 1) (by omega)).bind fun _ =>
      Emits.call (legible_write _)
  exact emits_processWith_of c fd (legible_reply hfd)
    (emits_runCommand_of (legible_reply hfd) (fun text _ => legible_status fd text)
      (fun _ _ => legible_decodePlc) legible_write hrf) h

end Mochad
