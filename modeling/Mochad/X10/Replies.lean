import Mochad.X10.Encode

/-!
# Who is answered

What the X10 side says goes to one of two places. The decoder prints to every client,
and so does a command when it reports the packet that it sends; a command's own
answers go to its sender. So the calls of a command are answers to its sender,
printing to all, and packets (`processcommandline_emits`) – except the policy request,
whose only call bypasses the output queue.

Not every line is answered. `Unanswered` lists the lines that are not, and
`answers_processcommandline` says that an OpenRemote client is answered on every other
line.
-/

namespace Mochad

namespace Effect

/-- Nothing is printed but to one descriptor. -/
def PrintsTo (fd : ℤ) : Effect → Prop
  | .sockprintf f _ => f = fd
  | .x10Write _ => True
  | _ => False

/-- An answer to a descriptor, through its output queue. -/
def RepliesTo (fd : ℤ) : Effect → Prop
  | .sockprintf f _ => f = fd
  | .statusprintf f text => f = fd ∧ text ≠ []
  | _ => False

/-- A call of a command: an answer to its sender, or a call that prints to all. -/
def For (fd : ℤ) (e : Effect) : Prop := e.RepliesTo fd ∨ e.PrintsTo (-1)

end Effect

/-- **A text that has no stamp**: a stamp has its slash in the third place. -/
def StatusText (text : Bytes) : Prop := text ≠ [] ∧ text[2]? ≠ some 0x2f

instance (text : Bytes) : Decidable (StatusText text) := inferInstanceAs (Decidable (_ ∧ _))

/-- Digits are no slashes. -/
theorem statusText_number (n : ℕ) : StatusText (fmtNat n ++ ascii "\n\r") := by
  have hdigits : ∀ b ∈ fmtNat n, b ≠ 0x2f := forall_mem_digits (by decide) (by decide) (by decide) n
  have hslash : 0x2f ∉ fmtNat n ++ ascii "\n\r" := fun hmem =>
    (List.mem_append.mp hmem).elim (fun hdigit => hdigits _ hdigit rfl) (by decide)
  exact ⟨by simp [ascii], fun hget => hslash (List.mem_of_getElem? hget)⟩

/-- An object that says how it went. -/
theorem statusText_object (value : Bytes) (members : List (String × Bytes)) :
    StatusText (jsonObject (("ok", value) :: members) ++ ascii "\n") := by
  have hthird : (jsonObject (("ok", value) :: members) ++ ascii "\n")[2]? = some 0x6f := by
    cases members with
    | nil => simp [jsonObject, jsonString, ascii, List.intercalate]
    | cons member members => simp [jsonObject, jsonString, ascii, List.intercalate]
  exact ⟨by simp [ascii], by simp [hthird]⟩

namespace X10M

variable {α β : Type} {P : Effect → Prop}

/-- Every call that a function makes has a property. -/
def Emits (P : Effect → Prop) (m : X10M α) : Prop := ∀ s, ∀ e ∈ (m s).effects, P e

theorem Emits.pure (a : α) : Emits P (Pure.pure a : X10M α) := fun _ _ h => nomatch h

theorem Emits.gets (f : X10State → α) : Emits P (gets f) := fun _ _ h => nomatch h

theorem Emits.modify (f : X10State → X10State) : Emits P (modify f) := fun _ _ h => nomatch h

theorem Emits.call {e : Effect} (h : P e) : Emits P (call e) := by
  intro s x hx
  rw [List.mem_singleton.mp hx]
  exact h

theorem Emits.bind {m : X10M α} {f : α → X10M β} (hm : Emits P m) (hf : ∀ a, Emits P (f a)) :
    Emits P (m >>= f) := by
  intro s e he
  rcases List.mem_append.mp he with he | he
  · exact hm s e he
  · exact hf _ _ e he

theorem Emits.ite {p : Prop} [Decidable p] {m n : X10M α} (hm : Emits P m) (hn : Emits P n) :
    Emits P (if p then m else n) := by
  split
  · exact hm
  · exact hn

theorem Emits.mono {Q : Effect → Prop} {m : X10M α} (hm : Emits P m) (h : ∀ e, P e → Q e) :
    Emits Q m := fun s e he => h e (hm s e he)

theorem Emits.forM {l : List β} {f : β → X10M PUnit} (hf : ∀ b, Emits P (f b)) :
    Emits P (l.forM f) := by
  induction l with
  | nil => exact Emits.pure _
  | cons b l ih => exact (hf b).bind fun _ => ih

/-- Whatever the state, a function answers a descriptor. -/
def Answers (fd : ℤ) (m : X10M α) : Prop := ∀ s, ∃ e ∈ (m s).effects, e.RepliesTo fd

theorem Answers.bind_left {fd : ℤ} {m : X10M α} (h : Answers fd m) (f : α → X10M β) :
    Answers fd (m >>= f) := by
  intro s
  obtain ⟨e, he, hr⟩ := h s
  exact ⟨e, List.mem_append_left _ he, hr⟩

theorem Answers.bind_right {fd : ℤ} (m : X10M α) {f : α → X10M β} (h : ∀ a, Answers fd (f a)) :
    Answers fd (m >>= f) := by
  intro s
  obtain ⟨e, he, hr⟩ := h (m s).value (m s).state
  exact ⟨e, List.mem_append_right _ he, hr⟩

theorem answers_sockprintf (fd : ℤ) (body : Bytes) : Answers fd (sockprintf fd body) :=
  fun _ => ⟨_, List.mem_singleton_self _, rfl⟩

theorem answers_statusprintf (fd : ℤ) {text : Bytes} (h : text ≠ []) :
    Answers fd (statusprintf fd text) :=
  fun _ => ⟨_, List.mem_singleton_self _, rfl, h⟩

end X10M

open X10M (Emits Answers gets modify)

/-! ### The decoder -/

section Decoder

variable (env : Env) {fd : ℤ}

theorem emits_sockprintf (body : Bytes) : Emits (Effect.PrintsTo fd) (sockprintf fd body) :=
  Emits.call rfl

theorem emits_x10Write (buf : Bytes) : Emits (Effect.PrintsTo fd) (x10Write buf) :=
  Emits.call trivial

theorem emits_timeNow {P : Effect → Prop} : Emits P (timeNow env) :=
  (Emits.gets _).bind fun _ => (Emits.modify _).bind fun _ => Emits.pure _

theorem emits_dispatch (e : MochadEvent) :
    Emits (Effect.PrintsTo fd) (mochadDispatchEvent fd e) := by
  rw [mochadDispatchEvent]
  split
  · exact Emits.pure _
  · exact emits_sockprintf _

theorem emits_rejectRf (buf : Memory) (len : ℕ) (why : Bytes) :
    Emits (Effect.PrintsTo fd) (rejectRf fd buf len why) :=
  (emits_sockprintf _).bind fun _ => emits_sockprintf _

/-- What a packet off the power line calls: it is reported. -/
theorem emits_decodePlc_of {P : Effect → Prop}
    (hdispatch : ∀ e : MochadEvent, e.transport = .pl → e.Spelled →
      Emits P (mochadDispatchEvent fd e))
    (buf : Memory) (len : ℕ) : Emits P (cm15aDecodePlc fd buf len) := by
  have happly : ∀ house func, Emits P (applyHouseFunc house func) := by
    intro house func
    rw [applyHouseFunc]
    exact Emits.ite (Emits.modify _) (Emits.ite (Emits.modify _)
      (Emits.ite (Emits.modify _) (Emits.ite (Emits.modify _) (Emits.pure _))))
  have hnothing : Printable (fmtStr none) := by decide
  refine Emits.ite (Emits.pure _) (Emits.ite (Emits.pure _)
    (Emits.ite (Emits.ite (Emits.pure _) ?_) (Emits.ite (Emits.ite (Emits.pure _) ?_)
    (Emits.ite (Emits.ite (Emits.pure _) ?_) (Emits.ite (Emits.ite (Emits.pure _) ?_)
    (Emits.ite (Emits.ite (Emits.pure _) ?_) (Emits.pure _)))))))
  · exact (Emits.modify _).bind fun _ =>
      hdispatch _ rfl ⟨fun _ => printable_hucDecode _, hnothing, hnothing⟩
  · exact (happly _ _).bind fun _ =>
      hdispatch _ rfl ⟨fun _ => printable_hfcDecode _, printable_funcnameAt _, hnothing⟩
  · exact hdispatch _ rfl ⟨fun _ => printable_hfcDecode _, printable_funcnameAt _, hnothing⟩
  · refine Emits.bind (hdispatch _ rfl ?_) fun _ => Emits.modify _
    exact ⟨fun _ => printable_hfcDecode _, printable_funcnameAt _, hnothing⟩
  · refine Emits.bind (hdispatch _ rfl ?_) fun _ => Emits.modify _
    exact ⟨fun _ => printable_hfcDecode _, printable_funcnameAt _, hnothing⟩

/-- A packet off the power line is reported. -/
theorem emits_decodePlc (buf : Memory) (len : ℕ) :
    Emits (Effect.PrintsTo fd) (cm15aDecodePlc fd buf len) :=
  emits_decodePlc_of (fun e _ _ => emits_dispatch e) buf len

theorem emits_dupFilter {P : Effect → Prop} (cmd : Bytes) : Emits P (dupFilter env cmd) := by
  have htime : Emits P (getTimems env) :=
    (Emits.gets _).bind fun _ => (Emits.modify _).bind fun _ => Emits.pure _
  refine htime.bind fun timems => (Emits.gets _).bind fun dups => ?_
  split
  split
  · exact (Emits.modify _).bind fun _ => Emits.pure _
  · exact htime.bind fun _ => (Emits.modify _).bind fun _ => Emits.pure _
  · exact htime.bind fun _ => (Emits.modify _).bind fun _ => Emits.pure _

theorem emits_huaSecEvent {P : Effect → Prop} (secaddr : UInt8 × UInt8 × UInt8) (funcint : UInt8)
    (secaddr8 : Bool) : Emits P (huaSecEvent env secaddr funcint secaddr8) := by
  refine (Emits.gets _).bind fun sensors => ?_
  split_ifs
  · exact (emits_timeNow env).bind fun _ => Emits.modify _
  · exact Emits.pure _
  · exact (emits_timeNow env).bind fun _ => Emits.modify _

theorem emits_repeatRF (buf : Memory) (len : ℕ) :
    Emits (Effect.PrintsTo fd) (repeatRF env fd buf len) := by
  refine (Emits.gets _).bind fun mask => Emits.ite ?_ (Emits.pure _)
  exact (emits_sockprintf _).bind fun _ => emits_x10Write _

variable {relay : ℤ → Bytes → X10M Unit}

/-- **A radio frame is reported**, if what it relays is. -/
theorem emits_decodeRf (hrelay : ∀ line, IsPl line → Emits (Effect.PrintsTo fd) (relay fd line))
    (buf : Memory) (len : ℕ) : Emits (Effect.PrintsTo fd) (cm15aDecodeRf env relay fd buf len) := by
  have hdup : ∀ {cmd : Bytes} {m : X10M Unit}, Emits (Effect.PrintsTo fd) m →
      Emits (Effect.PrintsTo fd) (do if ← dupFilter env cmd then pure () else m) :=
    fun hm => (emits_dupFilter env _).bind fun _ => Emits.ite (Emits.pure _) hm
  have hdim : ∀ buf len housechar name,
      Emits (Effect.PrintsTo fd) (decodeRfDim env relay fd buf len housechar name) := by
    intro buf len housechar name
    refine (emits_dispatch _).bind fun _ => (emits_repeatRF env _ _).bind fun _ =>
      (Emits.gets _).bind fun on => Emits.ite (hrelay _ ⟨[housechar] ++ ascii " " ++ fmtStr name, ?_⟩)
        (Emits.pure _)
    simp
  have hswitch : ∀ buf len housechar unitint off name,
      Emits (Effect.PrintsTo fd) (decodeRfSwitch env relay fd buf len housechar unitint off name) := by
    intro buf len housechar unitint off name
    refine (Emits.modify _).bind fun _ => (Emits.modify _).bind fun _ =>
      (emits_dispatch _).bind fun _ => (emits_repeatRF env _ _).bind fun _ =>
      (Emits.gets _).bind fun on => Emits.ite
        (hrelay _ ⟨[housechar] ++ fmtNat unitint ++ ascii " " ++ fmtStr name, ?_⟩) (Emits.pure _)
    simp
  have hshort : ∀ buf len, Emits (Effect.PrintsTo fd) (decodeRfShort env fd buf len) := by
    intro buf len
    refine Emits.ite (emits_rejectRf _ _ _) (hdup ?_)
    exact (emits_huaSecEvent env _ _ _).bind fun _ => (emits_dispatch _).bind fun _ =>
      emits_repeatRF env _ _
  have hstandard : ∀ buf len, Emits (Effect.PrintsTo fd) (decodeRfStandard env relay fd buf len) := by
    intro buf len
    refine Emits.ite (hshort _ _) (Emits.ite (Emits.ite (emits_rejectRf _ _ _) (hdup ?_))
      (emits_rejectRf _ _ _))
    exact Emits.ite (hdim _ _ _ _) (hswitch _ _ _ _ _ _)
  have hcamera : ∀ buf len, Emits (Effect.PrintsTo fd) (decodeRfCamera env fd buf len) := by
    intro buf len
    rw [decodeRfCamera]
    split
    · exact emits_rejectRf _ _ _
    · exact hdup ((emits_dispatch _).bind fun _ => emits_repeatRF env _ _)
  have hlong : ∀ buf len, Emits (Effect.PrintsTo fd) (decodeRfLong env fd buf len) := by
    intro buf len
    rw [decodeRfLong]
    split
    · exact hdup ((emits_huaSecEvent env _ _ _).bind fun _ => (emits_dispatch _).bind fun _ =>
        emits_repeatRF env _ _)
    · exact Emits.ite (emits_sockprintf _) (Emits.ite (emits_sockprintf _) (emits_rejectRf _ _ _))
  exact Emits.ite (emits_rejectRf _ _ _) (Emits.ite (emits_rejectRf _ _ _) (Emits.ite (hcamera _ _)
    (Emits.ite (hstandard _ _) (Emits.ite (hlong _ _) (emits_rejectRf _ _ _)))))

/-- **A packet from the controller is reported.** -/
theorem emits_decode (hrelay : ∀ line, IsPl line → Emits (Effect.PrintsTo fd) (relay fd line))
    (buf : Memory) (len : ℕ) : Emits (Effect.PrintsTo fd) (cm15aDecode env relay fd buf len) := by
  have hclock : Emits (Effect.PrintsTo fd) (setClock env) :=
    (emits_timeNow env).bind fun _ => emits_x10Write _
  have hpacket : ∀ p len, Emits (Effect.PrintsTo fd) (decodePacket env relay fd p len) := by
    intro p len
    have hframe : Emits (Effect.PrintsTo fd)
        (if p 0 = 0xa5 then setClock env
          else if p 0 = 0x5a then cm15aDecodePlc fd p len
          else if p 0 = 0x5d then cm15aDecodeRf env relay fd p len
          else pure ()) :=
      Emits.ite hclock (Emits.ite (emits_decodePlc _ _)
        (Emits.ite (emits_decodeRf env hrelay _ _) (Emits.pure _)))
    exact Emits.ite ((emits_sockprintf _).bind fun _ => hframe) hframe
  exact Emits.ite (Emits.pure _) (Emits.ite (Emits.ite (Emits.pure _) (hpacket _ _)) (hpacket _ _))

end Decoder

/-! ### Power-line commands -/

section PowerLine

variable {P : Effect → Prop} (hplc : ∀ buf len, Emits P (cm15aDecodePlc (-1) buf len))
  (hwrite : ∀ buf, P (.x10Write buf)) (env : Env)

include hplc hwrite

/-- What is sent to the power line is decoded, and handed to the controller. -/
theorem emits_plTxHouseunit (house unit : ℤ) : Emits P (plTxHouseunit env house unit) :=
  (hplc _ _).bind fun _ => Emits.call (hwrite _)

theorem emits_plTxExtendedCode1 (house unit command subcmd param : ℤ) :
    Emits P (plTxExtendedCode1 env house unit command subcmd param) :=
  (hplc _ _).bind fun _ => Emits.call (hwrite _)

theorem emits_plTxHousefunc (house func param : ℤ) : Emits P (plTxHousefunc env house func param) := by
  rw [plTxHousefunc]
  split_ifs
  all_goals exact (hplc _ _).bind fun _ => Emits.call (hwrite _)

variable (c : Ctx)

/-- A power-line command. -/
theorem emits_plHouse (house : ℤ) (tokens : List Bytes) : Emits P (plHouse c house tokens) := by
  have hfunc := emits_plTxHousefunc hplc hwrite c.env
  exact Emits.ite (Emits.pure _) (Emits.ite ((hfunc _ _ _).bind fun _ => Emits.pure _)
    ((hfunc _ _ _).bind fun _ => Emits.pure _))

theorem emits_plUnit (house unit : ℤ) (tokens : List Bytes) : Emits P (plUnit c house unit tokens) := by
  have hunit := emits_plTxHouseunit hplc hwrite c.env
  have hfunc := emits_plTxHousefunc hplc hwrite c.env
  have hext := emits_plTxExtendedCode1 hplc hwrite c.env
  refine Emits.ite ((hunit _ _).bind fun _ => Emits.pure _) (Emits.ite
    ((hext _ _ _ _ _).bind fun _ => Emits.pure _) (Emits.ite ?_ (Emits.ite
    ((hext _ _ _ _ _).bind fun _ => Emits.pure _) ?_)))
  · exact (hunit _ _).bind fun _ => (hfunc _ _ _).bind fun _ => Emits.pure _
  · exact (hunit _ _).bind fun _ => (hfunc _ _ _).bind fun _ => Emits.pure _

/-- What `PL` does after it has answered. -/
theorem emits_plBody (tokens : List Bytes) :
    Emits P
      (let ((house, unit), tokens) := getdeviceaddr tokens
        if house < 0 then pure (.ret (-1))
        else if unit < 0 then plHouse c house tokens
        else plUnit c house unit tokens) :=
  Emits.ite (Emits.pure _)
    (Emits.ite (emits_plHouse hplc hwrite c _ _) (emits_plUnit hplc hwrite c _ _ _))

/-- **A relayed line**, whose sender is nobody. -/
theorem emits_processWith_pl_of (hok : Emits P (or20ok c (-1)))
    (hinvalid : ∀ why, P (.sockprintf (-1) (ascii "Invalid command: " ++ why)))
    (relay : ℤ → Bytes → X10M Unit) {line : Bytes} (h : IsPl line) :
    Emits P (processWith c relay (-1) line) := by
  rw [processWith_eq_pl c relay (-1) h]
  split
  · exact Emits.bind (Emits.call (hinvalid (ascii "too many arguments\n\r"))) fun _ => Emits.pure _
  · refine Emits.bind (hok.bind fun _ => emits_plBody hplc hwrite c _) fun flow => ?_
    rw [finish.eq_def]
    split
    · exact Emits.pure _
    · exact Emits.pure _
    · exact Emits.bind (Emits.call (hinvalid (ascii "unexpected argument\n\r"))) fun _ => Emits.pure _

omit hplc hwrite

/-- **A relayed line is reported to all**, and nobody is answered: it has no sender. -/
theorem emits_processWith_pl (hor : c.or20client (-1) = false) (relay : ℤ → Bytes → X10M Unit)
    {line : Bytes} (h : IsPl line) :
    Emits (Effect.PrintsTo (-1)) (processWith c relay (-1) line) := by
  refine emits_processWith_pl_of emits_decodePlc (fun _ => trivial) c ?_ (fun _ => rfl) relay h
  rw [or20ok, if_neg (by simp [hor])]
  exact Emits.pure _

end PowerLine

/-! ### Commands -/

section Commands

variable (c : Ctx) {relay : ℤ → Bytes → X10M Unit} (fd : ℤ)

theorem emits_rfTx (hrelay : ∀ line, IsPl line → Emits (Effect.PrintsTo (-1)) (relay (-1) line))
    (buf : Bytes) : Emits (Effect.PrintsTo (-1)) (rfTx c.env relay buf) :=
  (emits_decodeRf _ hrelay _ _).bind fun _ => emits_x10Write _

/-- A diagnostic reply is never empty. -/
theorem diagText_ne_nil (json : Option Bytes) :
    (match json with
      | none => jsonObject [("ok", jsonBool false),
          ("error", jsonString (ascii "diagnostic output too large"))] ++ ascii "\n"
      | some json => json ++ ascii "\n") ≠ [] := by
  cases json with
  | none => decide
  | some json => simp [ascii]

theorem answers_sendDiagJson (json : Option Bytes) : Answers fd (sendDiagJson c fd json) :=
  (X10M.answers_statusprintf fd (diagText_ne_nil json)).bind_left _

theorem emits_uptimeSeconds {P : Effect → Prop} : Emits P (uptimeSeconds c.env) :=
  Emits.ite (Emits.pure _) ((emits_timeNow _).bind fun _ => Emits.pure _)

section

variable {c} {fd} {P : Effect → Prop} (hreply : ∀ body, P (.sockprintf fd body))
  (hstatus : ∀ text, StatusText text → P (.statusprintf fd text))

include hstatus

theorem emits_or20ok : Emits P (or20ok c fd) :=
  Emits.ite (Emits.call (hstatus _ (by decide))) (Emits.pure _)

theorem emits_sendDiagJson (size : ℕ) (value : Bytes) (members : List (String × Bytes)) :
    Emits P (sendDiagJson c fd (checkedSnprintf size (jsonObject (("ok", value) :: members)))) := by
  refine Emits.bind (Emits.call (hstatus _ ?_)) fun _ => Emits.pure _
  rw [checkedSnprintf]
  split_ifs
  · exact statusText_object value members
  · exact statusText_object _ _

include hreply

omit hstatus in
theorem emits_huaShow : Emits P (huaShow c.env fd) := by
  have hsaid : ∀ body, Emits P (sockprintf fd body) := fun body => Emits.call (hreply body)
  have hhouse : ∀ house items, Emits P (showHouse fd house items) :=
    fun house items => Emits.ite (Emits.pure _) (hsaid _)
  refine (hsaid _).bind fun _ => (Emits.gets _).bind fun _ =>
    (Emits.forM fun _ => hhouse _ _).bind fun _ => (hsaid _).bind fun _ =>
    (Emits.gets _).bind fun _ => (Emits.forM fun _ => hhouse _ _).bind fun _ =>
    (hsaid _).bind fun _ => (Emits.modify _).bind fun _ => (Emits.gets _).bind fun _ =>
    (Emits.forM fun _ => ?_).bind fun _ => hsaid _
  exact (emits_timeNow _).bind fun _ => hsaid _

/-- **What one command calls**: answers to its sender, what its packets call, and what its radio
frames do. -/
theorem emits_runCommand_of (hplc : ∀ buf len, Emits P (cm15aDecodePlc (-1) buf len))
    (hwrite : ∀ buf, P (.x10Write buf))
    (hrf : ∀ buf, buf.length ≤ 8 → Emits P (rfTx c.env relay buf)) (command : Command)
    (tokens : List Bytes) : Emits P (runCommand c relay fd command tokens) := by
  have hok : Emits P (or20ok c fd) := emits_or20ok hstatus
  have hjson : ∀ size value members, Emits P (sendDiagJson c fd
      (checkedSnprintf size (jsonObject (("ok", value) :: members)))) := emits_sendDiagJson hstatus
  have hsaid : ∀ body, Emits P (sockprintf fd body) := fun body => Emits.call (hreply body)
  have hshown : ∀ text, StatusText text → Emits P (statusprintf fd text) :=
    fun text htext => Emits.call (hstatus text htext)
  have hswitch : ∀ on : Prop, [Decidable on] →
      StatusText ((if on then ascii "on" else ascii "off") ++ ascii "\n\r") := by
    intro on _
    split
    · decide
    · decide
  have hdiag : ∀ {m : X10M ℤ}, Emits P m → Emits P (diagCommand m) :=
    fun hm => hm.bind fun _ => Emits.pure _
  have hprint : ∀ text, Emits P (printCommand fd text) :=
    fun _ => (hsaid _).bind fun _ => Emits.pure _
  cases command with
  | hello => exact hdiag (hjson _ _ _)
  | capabilities => exact hdiag (hjson _ _ _)
  | health => exact hdiag ((emits_uptimeSeconds c).bind fun _ => hjson _ _ _)
  | clients => exact hdiag ((emits_uptimeSeconds c).bind fun _ => hjson _ _ _)
  | config => exact hdiag (hjson _ _ _)
  | version => exact hdiag (hjson _ _ _)
  | pl => exact hok.bind fun _ => emits_plBody hplc hwrite c tokens
  | rf =>
    have hfunc : ∀ house unit func, Emits P (rfTxHouseunitfunc c.env relay house unit func) := by
      intro house unit func
      refine Emits.ite (Emits.pure _) ?_
      dsimp only
      split
      · exact Emits.pure _
      · exact hrf _ (by simp)
    exact hok.bind fun _ => Emits.ite (Emits.pure _) (Emits.ite (Emits.pure _)
      ((hfunc _ _ _).bind fun _ => Emits.pure _))
  | rfsec =>
    refine hok.bind fun _ => ?_
    split
    · exact Emits.pure _
    · refine Emits.ite (Emits.pure _) (Emits.bind (Emits.ite ?_ ?_) fun _ => Emits.pure _)
      · exact hrf _ (by simp)
      · exact hrf _ (by simp)
  | rfcam =>
    refine hok.bind fun _ => Emits.ite (Emits.pure _) ?_
    split
    · exact Emits.pure _
    split
    · exact (hrf _ (by simp)).bind fun _ => Emits.pure _
    · exact (hsaid _).bind fun _ => Emits.pure _
  | pt =>
    refine hok.bind fun _ => ?_
    split
    · exact Emits.pure _
    · exact Emits.pure _
    · exact Emits.bind (Emits.call (hwrite _)) fun _ => Emits.pure _
  | rftopl =>
    exact hok.bind fun _ => (Emits.modify _).bind fun _ => (hsaid _).bind fun _ => Emits.pure _
  | rftorf =>
    have hmask : Emits P (rftorfReply fd) := (Emits.gets _).bind fun _ => hsaid _
    refine hok.bind fun _ => ?_
    split
    · exact hmask.bind fun _ => Emits.pure _
    split
    · exact Emits.pure _
    · exact (Emits.modify _).bind fun _ => hmask.bind fun _ => Emits.pure _
  | st =>
    exact Emits.ite ((Emits.modify _).bind fun _ => Emits.pure _)
      ((emits_huaShow hreply).bind fun _ => Emits.pure _)
  | info => exact hprint _
  | quit => exact hprint _
  | help => exact hprint _
  | question => exact hprint _
  | hex =>
    simp only [runCommand, hexCommand]
    split
    · exact Emits.pure _
    · exact (hsaid _).bind fun _ => Emits.pure _
  | getstatus =>
    refine Emits.ite ?_ (Emits.pure _)
    dsimp only
    split
    · refine Emits.ite ((Emits.gets _).bind fun _ => ?_) ((hshown _ (by decide)).bind fun _ =>
        Emits.pure _)
      exact (hshown _ (statusText_number _)).bind fun _ => Emits.pure _
    · refine (Emits.gets _).bind fun _ => ?_
      exact (hshown _ (hswitch _)).bind fun _ => Emits.pure _
  | getstatussec =>
    simp only [runCommand, getstatussecCommand]
    split
    · exact Emits.pure _
    · refine (Emits.gets _).bind fun _ => ?_
      exact (hshown _ (hswitch _)).bind fun _ => Emits.pure _

omit hstatus in
theorem emits_finish_of (flow : Flow) : Emits P (finish fd flow) := by
  rw [finish.eq_def]
  split
  · exact Emits.pure _
  · exact Emits.pure _
  · exact Emits.bind (Emits.call (hreply _)) fun _ => Emits.pure _

end

/-- **One command** answers its sender, prints to all and sends packets. -/
theorem emits_runCommand
    (hrelay : ∀ line, IsPl line → Emits (Effect.PrintsTo (-1)) (relay (-1) line))
    (command : Command) (tokens : List Bytes) :
    Emits (Effect.For fd) (runCommand c relay fd command tokens) :=
  emits_runCommand_of (fun _ => Or.inl rfl) (fun _ htext => Or.inl ⟨rfl, htext.1⟩)
    (fun buf len => (emits_decodePlc buf len).mono fun _ => Or.inr) (fun _ => Or.inr trivial)
    (fun buf _ => (emits_rfTx c hrelay buf).mono fun _ => Or.inr) command tokens

/-- The request for a policy is the one line that is answered past the queue. -/
def IsPolicyRequest (line : Bytes) : Prop := strupper line = policyRequest

instance (line : Bytes) : Decidable (IsPolicyRequest line) := inferInstanceAs (Decidable (_ = _))

theorem processWith_policy {line : Bytes} (h : IsPolicyRequest line) (s : X10State) :
    processWith c relay fd line s = ⟨0, s, [.sendAll fd domainPolicy]⟩ := by
  have h' : strupper line = policyRequest := h
  simp only [processWith, if_pos h']
  rfl

/-- **What a line calls** that is no request for a policy. -/
theorem emits_processWith_of {P : Effect → Prop} (hreply : ∀ body, P (.sockprintf fd body))
    (hrun : ∀ command tokens, Emits P (runCommand c relay fd command tokens)) {line : Bytes}
    (h : ¬IsPolicyRequest line) : Emits P (processWith c relay fd line) := by
  have h' : strupper line ≠ policyRequest := h
  simp only [processWith, if_neg h']
  split
  · exact Emits.bind (Emits.call (hreply _)) fun _ => Emits.pure _
  next tokens _ =>
    rw [processTokens.eq_def]
    split
    · exact Emits.pure _
    split
    · exact Emits.pure _
    · exact (hrun _ _).bind fun flow => emits_finish_of hreply flow

theorem emits_processWith
    (hrelay : ∀ line, IsPl line → Emits (Effect.PrintsTo (-1)) (relay (-1) line)) {line : Bytes}
    (h : ¬IsPolicyRequest line) : Emits (Effect.For fd) (processWith c relay fd line) :=
  emits_processWith_of c fd (fun _ => Or.inl rfl) (emits_runCommand c fd hrelay) h

/-- What the decoder hears back from the interpreter is printed to all. -/
theorem emits_relayed (hor : c.or20client (-1) = false) (n : ℕ) {line : Bytes} (h : IsPl line) :
    Emits (Effect.PrintsTo (-1)) (processDepth c n (-1) line) := by
  cases n with
  | zero => exact Emits.pure _
  | succ n => exact emits_processWith_pl c hor _ h

/-- **The interpreter** answers its sender, prints to all and sends packets. -/
theorem emits_processcommandline (hor : c.or20client (-1) = false) {line : Bytes}
    (h : ¬IsPolicyRequest line) : Emits (Effect.For fd) (processcommandline c fd line) :=
  emits_processWith c fd
    (fun _ hline => (emits_relayed c hor 1 hline).bind fun _ => Emits.pure _) h

/-- The request for a policy has one call. -/
theorem processcommandline_policy {line : Bytes} (h : IsPolicyRequest line) (s : X10State) :
    (processcommandline c fd line s).effects = [.sendAll fd domainPolicy] := by
  rw [processcommandline, processDepth, processWith_policy c fd h]

/-! ### Lines without an answer -/

/-- Whether an OpenRemote client gets no queued answer to these tokens. -/
def unansweredTokens : Option (List Bytes) → Bool
  | none => false
  | some [] => true
  | some (name :: tokens) =>
      match commandOf name with
      | none => true
      | some .st => tokens = [ascii "0"]
      | some .hex => tokens = []
      | some .getstatus => (getdeviceaddr tokens).1.1 < 0 || (getdeviceaddr tokens).1.2 < 0
      | some .getstatussec => (getrfaddr tokens).1 = none
      | some _ => false

/-- **The lines that an OpenRemote client gets no queued answer to.** -/
def Unanswered (line : Bytes) : Prop :=
  IsPolicyRequest line ∨ unansweredTokens (tokenizeCommand (strupper line)) = true

instance (line : Bytes) : Decidable (Unanswered line) := inferInstanceAs (Decidable (_ ∨ _))

example : Unanswered (ascii "getstatus z9") ∧ ¬Unanswered (ascii "getstatus a1") := by decide

/-- A command that gets no answer. -/
theorem emits_runCommand_unanswered {name : Bytes} {tokens : List Bytes} {command : Command}
    (hname : commandOf name = some command)
    (h : unansweredTokens (some (name :: tokens)) = true) :
    Emits (Effect.PrintsTo (-1)) (runCommand c relay fd command tokens >>= finish fd) := by
  have hret : Emits (Effect.PrintsTo (-1)) ((pure (.ret (-1)) : X10M Flow) >>= finish fd) :=
    fun _ _ he => by cases he
  simp only [unansweredTokens, hname] at h
  cases command with
  | st =>
    obtain rfl : tokens = [ascii "0"] := of_decide_eq_true h
    have hst : runCommand c relay fd .st [ascii "0"] =
        (modify huaSecInit >>= fun _ => pure (.rest [])) := by
      simp [runCommand, stCommand, nextToken]
    rw [hst]
    exact fun _ _ he => by cases he
  | hex =>
    obtain rfl : tokens = [] := of_decide_eq_true h
    exact hret
  | getstatus =>
    have hneg : ¬(0 ≤ (getdeviceaddr tokens).1.1 ∧ 0 ≤ (getdeviceaddr tokens).1.2) := by
      simp only [Bool.or_eq_true, decide_eq_true_eq] at h
      omega
    simp only [runCommand, getstatusCommand, if_neg hneg]
    exact hret
  | getstatussec =>
    have hnone : (getrfaddr tokens).1 = none := of_decide_eq_true h
    simp only [runCommand, getstatussecCommand]
    split
    · exact hret
    next heq =>
      rw [heq] at hnone
      cases hnone
  | hello | capabilities | health | clients | config | version | pl | rf | rfsec | rfcam | pt
  | rftopl | rftorf | info | quit | help | question => cases h

/-- Every other command answers. -/
theorem answers_runCommand (hor : c.or20client fd = true) {name : Bytes} {tokens : List Bytes}
    {command : Command} (hname : commandOf name = some command)
    (h : unansweredTokens (some (name :: tokens)) = false) :
    Answers fd (runCommand c relay fd command tokens >>= finish fd) := by
  have hok : Answers fd (or20ok c fd) := by
    rw [or20ok, if_pos hor]
    exact X10M.answers_statusprintf fd (by decide)
  have hprint : ∀ text, Answers fd (printCommand fd text) :=
    fun _ => (X10M.answers_sockprintf fd _).bind_left _
  simp only [unansweredTokens, hname] at h
  cases command with
  | hello | capabilities | config | version =>
    exact ((answers_sendDiagJson c fd _).bind_left _).bind_left _
  | health | clients =>
    exact (Answers.bind_left (Answers.bind_right _ fun _ => answers_sendDiagJson c fd _) _).bind_left _
  | pl | rf | rfsec | rfcam | pt | rftopl | rftorf => exact (hok.bind_left _).bind_left _
  | info | quit | help | question => exact (hprint _).bind_left _
  | st =>
    have hne : tokens ≠ [ascii "0"] := of_decide_eq_false h
    by_cases harg : tokens.head? = some (ascii "0")
    · -- the argument is `0`, and there is another one, which is complained about
      obtain ⟨arg, rest, rfl⟩ : ∃ arg rest, tokens = ascii "0" :: arg :: rest := by
        cases tokens with
        | nil => cases harg
        | cons t ts =>
          obtain rfl := Option.some.inj harg
          cases ts with
          | nil => exact absurd rfl hne
          | cons t' ts => exact ⟨t', ts, rfl⟩
      have hst : runCommand c relay fd .st (ascii "0" :: arg :: rest) =
          (modify huaSecInit >>= fun _ => pure (.rest (arg :: rest))) := by
        simp [runCommand, stCommand, nextToken]
      rw [hst]
      exact fun s => ⟨.sockprintf fd (ascii "Invalid command: unexpected argument\n\r"),
        List.mem_singleton_self _, rfl⟩
    · have hst : runCommand c relay fd .st tokens =
          (huaShow c.env fd >>= fun _ => pure (.rest tokens.tail)) := if_neg harg
      rw [hst]
      exact (((X10M.answers_sockprintf fd _).bind_left _).bind_left _).bind_left _
  | hex =>
    obtain ⟨arg, rest, rfl⟩ := List.exists_cons_of_ne_nil (of_decide_eq_false h)
    exact ((X10M.answers_sockprintf fd _).bind_left _).bind_left _
  | getstatus =>
    have hpos : 0 ≤ (getdeviceaddr tokens).1.1 ∧ 0 ≤ (getdeviceaddr tokens).1.2 := by
      simp only [Bool.or_eq_false_iff, decide_eq_false_iff_not] at h
      omega
    refine Answers.bind_left ?_ _
    simp only [runCommand, getstatusCommand, if_pos hpos]
    split
    · split
      · exact Answers.bind_right _ fun _ =>
          (X10M.answers_statusprintf fd (by simp [ascii])).bind_left _
      · exact (X10M.answers_statusprintf fd (by decide)).bind_left _
    · exact Answers.bind_right _ fun _ =>
        (X10M.answers_statusprintf fd (by simp [ascii])).bind_left _
  | getstatussec =>
    have hsome : (getrfaddr tokens).1 ≠ none := of_decide_eq_false h
    refine Answers.bind_left ?_ _
    simp only [runCommand, getstatussecCommand]
    split
    next heq =>
      rw [heq] at hsome
      exact absurd rfl hsome
    · exact Answers.bind_right _ fun _ =>
        (X10M.answers_statusprintf fd (by simp [ascii])).bind_left _

/-- **A line without an answer** is one that at most prints to all. -/
theorem emits_processcommandline_unanswered {line : Bytes}
    (h : Unanswered line) (hp : ¬IsPolicyRequest line) :
    Emits (Effect.PrintsTo (-1)) (processcommandline c fd line) := by
  have htokens := h.resolve_left hp
  have hne : strupper line ≠ policyRequest := hp
  simp only [processcommandline, processDepth, processWith, if_neg hne]
  split
  next hnone =>
    rw [hnone] at htokens
    cases htokens
  next tokens hsome =>
    rw [hsome] at htokens
    cases tokens with
    | nil => exact Emits.pure _
    | cons name tokens =>
      simp only [processTokens]
      split
      · exact Emits.pure _
      next command hname => exact emits_runCommand_unanswered c fd hname htokens

/-- **An OpenRemote client is answered on every other line.** -/
theorem answers_processcommandline (hor : c.or20client fd = true) {line : Bytes}
    (h : ¬Unanswered line) : Answers fd (processcommandline c fd line) := by
  have hne : strupper line ≠ policyRequest := fun hp => h (Or.inl hp)
  have htokens : ¬unansweredTokens (tokenizeCommand (strupper line)) = true :=
    fun ht => h (Or.inr ht)
  simp only [processcommandline, processDepth, processWith, if_neg hne]
  split
  · exact (X10M.answers_sockprintf fd _).bind_left _
  next tokens hsome =>
    rw [hsome] at htokens
    cases tokens with
    | nil => exact absurd rfl htokens
    | cons name tokens =>
      simp only [processTokens]
      split
      next hnone => exact absurd (by simp [unansweredTokens, hnone]) htokens
      next command hname =>
        exact answers_runCommand c fd hor hname (Bool.eq_false_iff.mpr htokens)

end Commands

end Mochad
