import Mathlib

/-!
# Replicas

A source tells what it does, in news, and a *replica* takes the news in, one by one. The news of a
change *account* for it if every replica that matched the source before, and has heard them, matches
it after (`Replica.Accounts`). Accounts compose along a run, so a replica that matched once and has
heard everything since still matches, whatever has happened.
-/

namespace Replica

variable {σ ρ ν : Type*} {Matches : ρ → σ → Prop} {hear : ρ → ν → ρ} {s t u : σ}
  {news news' : List ν}

variable (Matches hear) in
/-- **The news account for a change**, for every replica. -/
def Accounts (s t : σ) (news : List ν) : Prop := ∀ r, Matches r s → Matches (news.foldl hear r) t

namespace Accounts

/-- A change that no replica would notice. -/
theorem unnoticed (h : ∀ r, Matches r s → Matches r t) : Accounts Matches hear s t [] := h

theorem refl (s : σ) : Accounts Matches hear s s [] := unnoticed fun _ h => h

/-- One piece of news. -/
theorem one {n : ν} (h : ∀ r, Matches r s → Matches (hear r n) t) :
    Accounts Matches hear s t [n] := h

/-- **Accounts compose.** -/
theorem trans (hst : Accounts Matches hear s t news) (htu : Accounts Matches hear t u news') :
    Accounts Matches hear s u (news ++ news') := by
  intro r hr
  rw [List.foldl_append]
  exact htu _ (hst r hr)

/-- A change that is not noticed comes before, or after. -/
theorem before (hst : ∀ r, Matches r s → Matches r t) (htu : Accounts Matches hear t u news) :
    Accounts Matches hear s u news := fun r hr => htu r (hst r hr)

theorem after (hst : Accounts Matches hear s t news) (htu : ∀ r, Matches r t → Matches r u) :
    Accounts Matches hear s u news := fun r hr => htu _ (hst r hr)

end Accounts

end Replica
