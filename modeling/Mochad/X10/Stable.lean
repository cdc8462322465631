import Mochad.X10.Uniform

/-!
# What the device tables keep

Commands and packets change the device tables through a handful of functions only. So a
property of the tables that these keep (`Stable`) is kept by the interpreter and by the
decoder as a whole. The one that is used here is that a protocol state is 0 or 1
(`ProtoSettled`).
-/

namespace Mochad

/-- **A property of the device tables that their functions keep.** -/
structure Stable (P : X10State → Prop) : Prop where
  frame : ∀ s s', P s → s'.devices = s.devices → P s'
  add : ∀ house unit s, P s → P (huaAdd house unit s)
  func : ∀ house f s, P s → P (huaFunc house f s)
  funcAll : ∀ house f s, P s → P (huaFuncAll house f s)
  xdim : ∀ house unit level s, P s → P (huaSetstatusXdim house unit level s)
  init : ∀ s, P s → P (huaSecInit s)

namespace X10M

variable {α β : Type} {P : X10State → Prop}

/-- A function keeps a property of the state. -/
def Preserves (P : X10State → Prop) (m : X10M α) : Prop := ∀ s, P s → P (m s).state

theorem Preserves.pure (a : α) : Preserves P (Pure.pure a : X10M α) := fun _ h => h

theorem Preserves.gets (f : X10State → α) : Preserves P (gets f) := fun _ h => h

theorem Preserves.call (e : Effect) : Preserves P (call e) := fun _ h => h

theorem Preserves.modify {f : X10State → X10State} (hf : ∀ s, P s → P (f s)) :
    Preserves P (modify f) := hf

theorem Preserves.bind {m : X10M α} {f : α → X10M β} (hm : Preserves P m)
    (hf : ∀ a, Preserves P (f a)) : Preserves P (m >>= f) :=
  fun s h => hf _ _ (hm s h)

theorem Preserves.ite {p : Prop} [Decidable p] {m n : X10M α} (hm : Preserves P m)
    (hn : Preserves P n) : Preserves P (if p then m else n) := by
  split
  · exact hm
  · exact hn

theorem Preserves.forM {l : List β} {f : β → X10M PUnit} (hf : ∀ b, Preserves P (f b)) :
    Preserves P (l.forM f) := by
  induction l with
  | nil => exact Preserves.pure _
  | cons b l ih => exact (hf b).bind fun _ => ih

end X10M

open X10M (Preserves Respects)

section

variable {P : X10State → Prop}

/-! ### What leaves the tables alone -/

theorem preserves_dispatch (fd : ℤ) (event : MochadEvent) :
    Preserves P (mochadDispatchEvent fd event) := by
  rw [mochadDispatchEvent]
  cases mochadEventFormatLegacyBody event 256 with
  | none => exact Preserves.pure _
  | some body => exact Preserves.call _

theorem preserves_repeatRF (env : Env) (fd : ℤ) (buf : Memory) (len : ℕ) :
    Preserves P (repeatRF env fd buf len) := by
  refine (Preserves.gets _).bind fun mask => Preserves.ite ?_ (Preserves.pure _)
  exact Preserves.bind (Preserves.call _) fun _ => Preserves.call _

theorem preserves_or20ok (c : Ctx) (fd : ℤ) : Preserves P (or20ok c fd) :=
  Preserves.ite (Preserves.call _) (Preserves.pure _)

theorem preserves_finish (fd : ℤ) (flow : Flow) : Preserves P (finish fd flow) := by
  rw [finish.eq_def]
  split
  · exact Preserves.pure _
  · exact Preserves.pure _
  · exact Preserves.bind (Preserves.call _) fun _ => Preserves.pure _

theorem or20ok_state (c : Ctx) (fd : ℤ) (s : X10State) : (or20ok c fd s).state = s :=
  preserves_or20ok (P := (· = s)) c fd s rfl

theorem finish_state (fd : ℤ) (flow : Flow) (s : X10State) : (finish fd flow s).state = s :=
  preserves_finish (P := (· = s)) fd flow s rfl

end

/-! ### What switches devices -/

/-- **A property that switching devices keeps.** -/
structure SwitchStable (P : X10State → Prop) : Prop where
  add : ∀ house unit s, P s → P (huaAdd house unit s)
  func : ∀ house f s, P s → P (huaFunc house f s)
  funcAll : ∀ house f s, P s → P (huaFuncAll house f s)
  xdim : ∀ house unit level s, P s → P (huaSetstatusXdim house unit level s)

theorem Stable.switchStable {P : X10State → Prop} (h : Stable P) : SwitchStable P :=
  ⟨h.add, h.func, h.funcAll, h.xdim⟩

/-! ### What is kept -/

/-- A state with a property is related to itself. -/
def Itself (P : X10State → Prop) (s t : X10State) : Prop := s = t ∧ P s

namespace X10M

variable {α : Type} {P : X10State → Prop}

/-- **A function keeps a property exactly if it respects it.** -/
theorem respects_itself_iff {m : X10M α} : Respects (Itself P) m ↔ Preserves P m := by
  constructor
  · exact fun h s hs => (h s s ⟨rfl, hs⟩).state.2
  · rintro h s t ⟨rfl, hs⟩
    exact ⟨rfl, rfl, rfl, h s hs⟩

end X10M

open X10M (respects_itself_iff)

namespace SwitchStable

variable {P : X10State → Prop} (h : SwitchStable P)

include h

theorem uniform : SwitchUniform (Itself P) where
  add house unit _ _ s _ hst := ⟨congrArg _ hst.1, h.add house unit s hst.2⟩
  func house f _ _ s _ hst := ⟨congrArg _ hst.1, h.func house f s hst.2⟩
  funcAll house f _ _ s _ hst := ⟨congrArg _ hst.1, h.funcAll house f s hst.2⟩
  xdim house unit _ _ level s _ hst := ⟨congrArg _ hst.1, h.xdim house unit level s hst.2⟩

/-- **A packet off the power line.** -/
theorem decodePlc (fd : ℤ) (buf : Memory) (len : ℕ) : Preserves P (cm15aDecodePlc fd buf len) :=
  respects_itself_iff.mp (h.uniform.decodePlc fd buf len)

/-- **A power-line command.** -/
theorem plCommand (c : Ctx) (fd : ℤ) (tokens : List Bytes) : Preserves P (plCommand c fd tokens) :=
  respects_itself_iff.mp (h.uniform.plCommand c fd tokens)

end SwitchStable

namespace Stable

variable {P : X10State → Prop} (h : Stable P)

include h

theorem uniform : Uniform (Itself P) where
  toSwitchUniform := h.switchStable.uniform
  rest s t hst := congrArg _ hst.1
  frame s t s' t' hst hs ht hrest := by
    obtain ⟨rfl, hP⟩ := hst
    exact ⟨X10State.ext_devices (hs.trans ht.symm) hrest, h.frame s s' hP hs⟩
  init s t hst := ⟨congrArg _ hst.1, h.init s hst.2⟩
  cell s t hst house unit _ _ := by
    obtain ⟨rfl, -⟩ := hst
    exact ⟨rfl, rfl, rfl⟩

/-- **A packet from the controller.** -/
theorem decode (env : Env) {relay : ℤ → Bytes → X10M Unit}
    (hrelay : ∀ fd line, IsPl line → Preserves P (relay fd line)) (fd : ℤ) (buf : Memory) (len : ℕ) :
    Preserves P (cm15aDecode env relay fd buf len) :=
  respects_itself_iff.mp (h.uniform.decode env
    (fun fd line hline => respects_itself_iff.mpr (hrelay fd line hline)) fd buf len)

/-- **A line.** -/
theorem processcommandline (c : Ctx) (fd : ℤ) (line : Bytes) :
    Preserves P (processcommandline c fd line) :=
  respects_itself_iff.mp (h.uniform.processcommandline c fd line)

end Stable

/-! ### Protocol states -/

/-- **Every protocol state is 0 or 1.** -/
def ProtoSettled (s : X10State) : Prop := ∀ house, s.x10protostate house = 0 ∨ s.x10protostate house = 1

/-- A state is set. -/
theorem ProtoSettled.update {s s' : X10State} (h : ProtoSettled s) {house : ℤ} {v : ℤ} (hv : v = 0 ∨ v = 1)
    (hs : s'.x10protostate = Function.update s.x10protostate house v) : ProtoSettled s' := by
  intro x
  rw [hs, Function.update_apply]
  split
  · exact hv
  · exact h x

theorem stable_protoSettled : Stable ProtoSettled where
  frame s s' hs heq := by
    intro house
    rw [show s'.x10protostate = s.x10protostate from congrArg (fun t => t.2.2) heq]
    exact hs house
  add house unit s hs := by
    rw [huaAdd]
    split
    · exact hs
    split
    · exact hs.update (Or.inl rfl) rfl
    · exact hs
  func house f s hs := hs.update (Or.inr rfl) (huaFunc_selected house f s).2
  funcAll house f s hs := hs.update (Or.inr rfl) (huaFuncAll_selected house f s).2
  xdim house unit level s hs := hs.update (Or.inr rfl) rfl
  init s hs := fun _ => Or.inl rfl

end Mochad
