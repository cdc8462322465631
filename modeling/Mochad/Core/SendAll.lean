import Mochad.Core.Output

/-!
# Handing a buffer over

`send_all_impl` offers what is left of a buffer until the sender has taken it all, tries again
where a signal interrupted it, and gives up at an answer of zero and at any other error. Two
numbers run along, the place in the buffer and how much is left of it, and every promise of the
loop is that they stay in step. `Contiguous` says so about the calls that it makes: each offers
the rest of the buffer from the place where the one before has stopped. What was taken is then a
prefix of the buffer (`takenBytes_eq`), whatever the sender answers.
-/

namespace Mochad

/-- One call of the sender: the place in the buffer, how much is offered from there, and the
answer. -/
structure SendCall where
  cursor : ℕ
  remaining : ℕ
  result : SendResult
  deriving DecidableEq

namespace SendCall

/-- The bytes that the call offers. -/
def offered (buffer : Bytes) (call : SendCall) : Bytes :=
  (buffer.drop call.cursor).take call.remaining

/-- How many of them the sender took. -/
def count (call : SendCall) : ℕ :=
  match call.result with
  | .taken written => written
  | _ => 0

/-- The bytes that the sender took. -/
def took (buffer : Bytes) (call : SendCall) : Bytes := (call.offered buffer).take call.count

/-- The sender takes no more than it is offered. -/
def Honest (call : SendCall) : Prop := call.count ≤ call.remaining

instance (call : SendCall) : Decidable call.Honest :=
  inferInstanceAs (Decidable (call.count ≤ call.remaining))

/-- The answers that `send_all_impl` gives up at: zero, and an error other than `EINTR`. -/
def Refused (call : SendCall) : Prop :=
  call.result = .taken 0 ∨ call.result = .eagain ∨ call.result = .failed

end SendCall

/-- `INT_MAX`. -/
def sendMax : ℕ := 2 ^ 31 - 1

/-- **The loop of `send_all_impl`**, over the answers of the sender: the calls that it makes, and
what it returns, if the answers suffice for it to return. -/
def sendLoop (length : ℕ) : List SendResult → ℕ → ℕ → List SendCall × Option ℤ
  | results, cursor, remaining =>
      if remaining = 0 then ([], some length)
      else
        match results with
        | [] => ([], none)
        | .taken written :: results =>
            if written = 0 then ([⟨cursor, remaining, .taken written⟩], some (-1))
            else
              -- the count that is left is a `size_t`
              let r := sendLoop length results (cursor + written)
                ((remaining + 2 ^ 64 - written) % 2 ^ 64)
              (⟨cursor, remaining, .taken written⟩ :: r.1, r.2)
        | .eintr :: results =>
            let r := sendLoop length results cursor remaining
            (⟨cursor, remaining, .eintr⟩ :: r.1, r.2)
        | result :: _ => ([⟨cursor, remaining, result⟩], some (-1))

/-- `send_all_impl`, for a buffer of that length. -/
def sendCalls (length : ℕ) (results : List SendResult) : List SendCall × Option ℤ :=
  if sendMax < length then ([], some (-1)) else sendLoop length results 0 length

/-- How many bytes the calls have handed over. -/
def takenCount (calls : List SendCall) : ℕ := (calls.map SendCall.count).sum

/-- The bytes that the calls have handed over. -/
def takenBytes (buffer : Bytes) (calls : List SendCall) : Bytes :=
  calls.flatMap (SendCall.took buffer)

/-! ### Calls that follow each other -/

/-- **The calls follow each other**: each offers what is left, from the place where the one
before has stopped. -/
def Contiguous : ℕ → ℕ → List SendCall → Prop
  | _, _, [] => True
  | cursor, remaining, call :: calls =>
      call.cursor = cursor ∧ call.remaining = remaining ∧ 0 < remaining ∧
        call.count ≤ remaining ∧
        Contiguous (cursor + call.count) (remaining - call.count) calls

section Calls

variable {buffer : Bytes} {cursor remaining : ℕ} {calls : List SendCall}

theorem takenCount_cons (call : SendCall) (calls : List SendCall) :
    takenCount (call :: calls) = call.count + takenCount calls := by
  rw [takenCount, List.map_cons, List.sum_cons, takenCount]

theorem takenBytes_cons (call : SendCall) (calls : List SendCall) :
    takenBytes buffer (call :: calls) = call.took buffer ++ takenBytes buffer calls :=
  List.flatMap_cons

/-- No more is taken than there was. -/
theorem Contiguous.takenCount_le (h : Contiguous cursor remaining calls) :
    takenCount calls ≤ remaining := by
  induction calls generalizing cursor remaining with
  | nil => exact Nat.zero_le _
  | cons call calls ih =>
    obtain ⟨-, -, -, hcount, hrest⟩ := h
    have := ih hrest
    rw [takenCount_cons]
    omega

/-- What follows the first calls follows them. -/
theorem Contiguous.suffix {before after : List SendCall}
    (h : Contiguous cursor remaining (before ++ after)) :
    Contiguous (cursor + takenCount before) (remaining - takenCount before) after := by
  induction before generalizing cursor remaining with
  | nil => exact h
  | cons call before ih =>
    obtain ⟨-, -, -, -, hrest⟩ := h
    have := ih hrest
    rwa [Nat.add_assoc, Nat.sub_sub, ← takenCount_cons] at this

/-- The first calls follow each other. -/
theorem Contiguous.take {before after : List SendCall}
    (h : Contiguous cursor remaining (before ++ after)) : Contiguous cursor remaining before := by
  induction before generalizing cursor remaining with
  | nil => trivial
  | cons call before ih =>
    obtain ⟨hcursor, hremaining, hpos, hcount, hrest⟩ := h
    exact ⟨hcursor, hremaining, hpos, hcount, ih hrest⟩

/-- **Each call offers the buffer from where the calls before it have stopped**: no byte is
offered again, and none is passed over. -/
theorem Contiguous.offered {before after : List SendCall} {call : SendCall}
    (h : Contiguous 0 buffer.length (before ++ call :: after)) :
    call.offered buffer = buffer.drop (takenCount before) ∧ call.offered buffer ≠ [] := by
  obtain ⟨hcursor, hremaining, hpos, -, -⟩ := h.suffix
  have hall : call.offered buffer = buffer.drop (takenCount before) := by
    rw [SendCall.offered, hcursor, hremaining, Nat.zero_add]
    exact List.take_of_length_le (le_of_eq List.length_drop)
  refine ⟨hall, fun hnil => ?_⟩
  have hlen := congrArg List.length (hall.symm.trans hnil)
  rw [List.length_drop, List.length_nil] at hlen
  exact absurd hlen hpos.ne'

/-- **What was taken is the beginning of what there was.** -/
theorem takenBytes_eq (h : Contiguous cursor remaining calls)
    (hlen : buffer.length = cursor + remaining) :
    takenBytes buffer calls = (buffer.drop cursor).take (takenCount calls) := by
  induction calls generalizing cursor remaining with
  | nil => rfl
  | cons call calls ih =>
    obtain ⟨hcursor, hremaining, -, hcount, hrest⟩ := h
    have hnext := ih hrest (by omega)
    have htook : call.took buffer = (buffer.drop cursor).take call.count := by
      rw [SendCall.took, SendCall.offered, hcursor, hremaining, List.take_take,
        Nat.min_eq_left hcount]
    calc takenBytes buffer (call :: calls)
        = call.took buffer ++ takenBytes buffer calls := takenBytes_cons call calls
      _ = (buffer.drop cursor).take call.count ++
            ((buffer.drop cursor).drop call.count).take (takenCount calls) := by
          rw [htook, hnext, List.drop_drop]
      _ = (buffer.drop cursor).take (takenCount (call :: calls)) := by
          rw [takenCount_cons, List.take_add]

end Calls

/-! ### The loop -/

section Loop

variable {length cursor remaining : ℕ} {results : List SendResult}

/-- Taking away from a `size_t` what it holds. -/
theorem sizeT_sub {remaining written : ℕ} (hle : written ≤ remaining) (hfits : remaining < 2 ^ 64) :
    (remaining + 2 ^ 64 - written) % 2 ^ 64 = remaining - written := by
  omega

/-- **The loop keeps its two numbers in step.** -/
theorem contiguous_sendLoop (hfits : remaining < 2 ^ 64)
    (hhonest : ∀ call ∈ (sendLoop length results cursor remaining).1, call.Honest) :
    Contiguous cursor remaining (sendLoop length results cursor remaining).1 := by
  fun_induction sendLoop length results cursor remaining with
  | case1 => trivial
  | case2 => trivial
  | case3 cursor remaining hpos => exact ⟨rfl, rfl, by omega, Nat.zero_le _, trivial⟩
  | case4 cursor remaining hpos written results hwritten r ih =>
    rw [List.forall_mem_cons] at hhonest
    have hle : written ≤ remaining := hhonest.1
    have hrest := ih (by omega) hhonest.2
    rw [sizeT_sub hle hfits] at hrest
    have hsame : r.1 = (sendLoop length results (cursor + written) (remaining - written)).1 := by
      rw [← sizeT_sub hle hfits]
    refine ⟨rfl, rfl, by omega, hle, ?_⟩
    rw [hsame]
    exact hrest
  | case5 cursor remaining hpos results r ih =>
    rw [List.forall_mem_cons] at hhonest
    exact ⟨rfl, rfl, by omega, Nat.zero_le _, ih hfits hhonest.2⟩
  | case6 cursor remaining hpos result results htaken =>
    have hzero : SendCall.count ⟨cursor, remaining, result⟩ = 0 := by
      cases result with
      | taken written => exact absurd rfl (htaken written)
      | _ => rfl
    exact ⟨rfl, rfl, by omega, hzero ▸ Nat.zero_le _, trivial⟩

/-- **The sender is asked**: the answers of the calls are the first ones it has. -/
theorem results_sendLoop :
    (sendLoop length results cursor remaining).1.map SendCall.result <+: results := by
  fun_induction sendLoop length results cursor remaining with
  | case1 => exact List.nil_prefix
  | case2 => exact List.nil_prefix
  | case3 cursor remaining hpos results => exact List.prefix_append [_] results
  | case4 cursor remaining hpos written results hwritten r ih =>
    exact (List.prefix_cons_inj _).mpr ih
  | case5 cursor remaining hpos results r ih => exact (List.prefix_cons_inj _).mpr ih
  | case6 cursor remaining hpos result results => exact List.prefix_append [_] results

/-- **How the calls end**: with everything taken, at an answer that the loop gives up at, or with
the answers used up. -/
inductive SendEnds (length remaining : ℕ) (results : List SendResult) :
    List SendCall × Option ℤ → Prop
  | whole {calls : List SendCall} (htaken : takenCount calls = remaining)
      (hnone : ∀ call ∈ calls, ¬call.Refused) :
      SendEnds length remaining results (calls, some length)
  | refused {calls : List SendCall} (htaken : takenCount calls < remaining)
      (hsome : ∃ call ∈ calls, call.Refused) :
      SendEnds length remaining results (calls, some (-1))
  | used {calls : List SendCall} (htaken : takenCount calls < remaining)
      (hnone : ∀ call ∈ calls, ¬call.Refused) (hused : calls.map SendCall.result = results) :
      SendEnds length remaining results (calls, none)

/-- A call that the loop does not give up at leaves the ending to the calls after it. -/
theorem SendEnds.cons {call : SendCall} {r : List SendCall × Option ℤ} (hnot : ¬call.Refused)
    (hcount : call.count ≤ remaining) (h : SendEnds length (remaining - call.count) results r) :
    SendEnds length remaining (call.result :: results) (call :: r.1, r.2) := by
  have hsum : ∀ calls, takenCount (call :: calls) = call.count + takenCount calls :=
    takenCount_cons call
  cases h with
  | whole htaken hnone =>
    exact .whole (by rw [hsum]; dsimp only; omega) (List.forall_mem_cons.mpr ⟨hnot, hnone⟩)
  | refused htaken hsome =>
    obtain ⟨other, hmem, href⟩ := hsome
    exact .refused (by rw [hsum]; dsimp only; omega) ⟨other, List.mem_cons_of_mem _ hmem, href⟩
  | used htaken hnone hused =>
    exact .used (by rw [hsum]; dsimp only; omega) (List.forall_mem_cons.mpr ⟨hnot, hnone⟩)
      (by rw [List.map_cons, hused])

theorem sendEnds_sendLoop (hfits : remaining < 2 ^ 64)
    (hhonest : ∀ call ∈ (sendLoop length results cursor remaining).1, call.Honest) :
    SendEnds length remaining results (sendLoop length results cursor remaining) := by
  fun_induction sendLoop length results cursor remaining with
  | case1 => exact .whole rfl nofun
  | case2 cursor remaining hpos => exact .used (Nat.pos_of_ne_zero hpos) nofun rfl
  | case3 cursor remaining hpos =>
    exact .refused (Nat.pos_of_ne_zero hpos) ⟨_, List.mem_singleton_self _, Or.inl rfl⟩
  | case4 cursor remaining hpos written results hwritten r ih =>
    rw [List.forall_mem_cons] at hhonest
    have hle : written ≤ remaining := hhonest.1
    have hrest := ih (by omega) hhonest.2
    rw [show SendEnds length ((remaining + 2 ^ 64 - written) % 2 ^ 64) results =
      SendEnds length (remaining - written) results by rw [sizeT_sub hle hfits]] at hrest
    refine @SendEnds.cons _ _ _ ⟨cursor, remaining, .taken written⟩ _ ?_ hle hrest
    rintro (h | h | h)
    · exact hwritten (SendResult.taken.inj h)
    · cases h
    · cases h
  | case5 cursor remaining hpos results r ih =>
    rw [List.forall_mem_cons] at hhonest
    refine @SendEnds.cons _ _ _ ⟨cursor, remaining, .eintr⟩ _ ?_ (Nat.zero_le _)
      (ih hfits hhonest.2)
    rintro (h | h | h)
    all_goals cases h
  | case6 cursor remaining hpos result results htaken heintr =>
    have hrefused : SendCall.Refused ⟨cursor, remaining, result⟩ := by
      cases result with
      | taken written => exact absurd rfl (htaken written)
      | eintr => exact absurd rfl heintr
      | eagain => exact Or.inr (Or.inl rfl)
      | failed => exact Or.inr (Or.inr rfl)
    have hzero : takenCount [⟨cursor, remaining, result⟩] = 0 := by
      cases result with
      | taken written => exact absurd rfl (htaken written)
      | _ => rfl
    exact .refused (hzero ▸ Nat.pos_of_ne_zero hpos) ⟨_, List.mem_singleton_self _, hrefused⟩

end Loop

/-! ### The function -/

section Delivery

variable {buffer : Bytes} {results : List SendResult}

/-- Calls that the loop does not give up at take something, unless they are interrupted. -/
theorem answers_le_takenCount {calls : List SendCall} (hnone : ∀ call ∈ calls, ¬call.Refused) :
    ((calls.map SendCall.result).filter (· ≠ .eintr)).length ≤ takenCount calls := by
  induction calls with
  | nil => exact Nat.zero_le _
  | cons call calls ih =>
    rw [List.forall_mem_cons] at hnone
    have hrest := ih hnone.2
    rw [List.map_cons, takenCount_cons]
    by_cases heintr : call.result = .eintr
    · rw [List.filter_cons_of_neg (by simp [heintr])]
      omega
    · have hpos : 0 < call.count := by
        refine Nat.pos_of_ne_zero fun hzero => hnone.1 ?_
        rw [SendCall.count] at hzero
        rw [SendCall.Refused]
        cases hresult : call.result with
        | taken written =>
          rw [hresult] at hzero
          exact Or.inl (congrArg _ hzero)
        | eintr => exact absurd hresult heintr
        | eagain => exact Or.inr (Or.inl rfl)
        | failed => exact Or.inr (Or.inr rfl)
      rw [List.filter_cons_of_pos (by simp [heintr]), List.length_cons]
      omega

/-- What the daemon counts on is what the loop does. -/
theorem sendAllImpl_eq_sendLoop {length cursor remaining : ℕ}
    (hlen : buffer.length = cursor + remaining) (hfits : remaining < 2 ^ 64)
    (hhonest : ∀ call ∈ (sendLoop length results cursor remaining).1, call.Honest) :
    sendAllImpl results (buffer.drop cursor) =
      (takenBytes buffer (sendLoop length results cursor remaining).1,
        decide ((sendLoop length results cursor remaining).2 = some (length : ℤ))) := by
  have hcons : ∀ {cursor remaining : ℕ}, buffer.length = cursor + remaining → remaining ≠ 0 →
      ∃ b bs, buffer.drop cursor = b :: bs := by
    intro cursor remaining hlen hpos
    refine List.exists_cons_of_ne_nil fun hnil => hpos ?_
    have := congrArg List.length hnil
    rw [List.length_drop, List.length_nil] at this
    omega
  have hnone : (-1 : ℤ) ≠ length := by omega
  fun_induction sendLoop length results cursor remaining with
  | case1 results cursor =>
    rw [List.drop_of_length_le (by omega)]
    simp [sendAllImpl, takenBytes]
  | case2 cursor remaining hpos =>
    obtain ⟨b, bs, hdrop⟩ := hcons hlen hpos
    rw [hdrop]
    simp [sendAllImpl, takenBytes]
  | case3 cursor remaining hpos results =>
    obtain ⟨b, bs, hdrop⟩ := hcons hlen hpos
    rw [hdrop]
    simp [sendAllImpl, takenBytes, SendCall.took, SendCall.count, hnone]
  | case4 cursor remaining hpos written results hwritten r ih =>
    rw [List.forall_mem_cons] at hhonest
    have hle : written ≤ remaining := hhonest.1
    have hleft := sizeT_sub hle hfits
    have hrest := ih (by omega) (by omega) hhonest.2
    obtain ⟨b, bs, hdrop⟩ := hcons hlen hpos
    have hmin : min written (b :: bs).length = written := by
      rw [← hdrop, List.length_drop]
      omega
    have htook : SendCall.took buffer ⟨cursor, remaining, .taken written⟩ =
        (b :: bs).take written := by
      rw [SendCall.took, SendCall.offered, hdrop, List.take_take]
      exact congrArg (List.take · _) (Nat.min_eq_left hle)
    rw [← List.drop_drop, hdrop] at hrest
    rw [hdrop, sendAllImpl, hmin]
    dsimp only
    rw [if_neg hwritten, hrest, takenBytes_cons, htook]
    rintro ⟨⟩
  | case5 cursor remaining hpos results r ih =>
    rw [List.forall_mem_cons] at hhonest
    obtain ⟨b, bs, hdrop⟩ := hcons hlen hpos
    have hrest := ih hlen hfits hhonest.2
    rw [hdrop] at hrest ⊢
    have hstep : sendAllImpl (.eintr :: results) (b :: bs) = sendAllImpl results (b :: bs) := rfl
    rw [hstep, hrest]
    rfl
  | case6 cursor remaining hpos result results htaken heintr =>
    obtain ⟨b, bs, hdrop⟩ := hcons hlen hpos
    rw [hdrop]
    cases result with
    | taken written => exact absurd rfl (htaken written)
    | eintr => exact absurd rfl heintr
    | eagain => simp [sendAllImpl, takenBytes, SendCall.took, SendCall.count, hnone]
    | failed => simp [sendAllImpl, takenBytes, SendCall.took, SendCall.count, hnone]

/-- **The daemon's `send_all` is this loop.** -/
theorem sendAllImpl_eq_sendCalls (hlength : buffer.length ≤ sendMax)
    (hhonest : ∀ call ∈ (sendCalls buffer.length results).1, call.Honest) :
    sendAllImpl results buffer =
      (takenBytes buffer (sendCalls buffer.length results).1,
        decide ((sendCalls buffer.length results).2 = some (buffer.length : ℤ))) := by
  have hloop : sendCalls buffer.length results = sendLoop buffer.length results 0 buffer.length :=
    if_neg (not_lt.mpr hlength)
  rw [hloop] at hhonest ⊢
  exact sendAllImpl_eq_sendLoop (Nat.zero_add _).symm (lt_of_le_of_lt hlength (by decide)) hhonest

end Delivery

end Mochad
