import Mathlib

/-!
# Circular windows

The contents of a circular buffer: `n` consecutive cells of a memory, starting at
`start` and counted modulo the capacity. Both a ring with a count and a ring with a
sacrificial slot read their contents this way; what differs is only how they
compute `start` and `n`.

* `Ring.window_succ` – the front of a nonempty window;
* `Ring.window_push` – writing the cell just past a window that does not fill the
  ring extends it at the back and alters nothing in front.
-/

namespace Ring

variable {α : Type*}

/-- The `n` cells from `start` on, modulo `cap`. -/
def window (cells : ℕ → α) (start cap n : ℕ) : List α :=
  (List.range n).map fun k => cells ((start + k) % cap)

variable {cells cells' : ℕ → α} {start cap n : ℕ}

@[simp] theorem window_zero : window cells start cap 0 = [] := rfl

@[simp] theorem length_window : (window cells start cap n).length = n := by simp [window]

/-- **The front of a nonempty window**, and what is left behind it. -/
theorem window_succ :
    window cells start cap (n + 1) = cells (start % cap) :: window cells (start + 1) cap n := by
  simp only [window, List.range_succ_eq_map, List.map_cons, List.map_map, Nat.add_zero]
  refine congrArg _ (List.map_congr_left fun k _ => ?_)
  simp only [Function.comp_apply, Nat.succ_eq_add_one]
  congr 2
  omega

/-- The back of a nonempty window. -/
theorem window_snoc :
    window cells start cap (n + 1) = window cells start cap n ++ [cells ((start + n) % cap)] := by
  simp [window, List.range_succ]

/-- **The front of a window is dropped** by starting later. -/
theorem window_drop {k : ℕ} :
    (window cells start cap n).drop k = window cells (start + k) cap (n - k) := by
  refine List.ext_getElem (by simp) fun i _ _ => ?_
  simp [window, Nat.add_assoc]

/-- A window only reads its own cells. -/
theorem window_congr (h : ∀ k < n, cells ((start + k) % cap) = cells' ((start + k) % cap)) :
    window cells start cap n = window cells' start cap n :=
  List.map_congr_left fun k hk => h k (List.mem_range.mp hk)

/-- A window only depends on its start modulo the capacity. -/
theorem window_mod : window cells (start % cap) cap n = window cells start cap n := by
  refine List.map_congr_left fun k _ => ?_
  rw [Nat.mod_add_mod]

/-- The cell just past a window that does not fill the ring is none of its cells. -/
theorem mod_ne_of_lt {k : ℕ} (hk : k < n) (hn : n < cap) :
    (start + k) % cap ≠ (start + n) % cap := by
  intro h
  have hmod : k % cap = n % cap := Nat.ModEq.add_left_cancel' start h
  rw [Nat.mod_eq_of_lt (hk.trans hn), Nat.mod_eq_of_lt hn] at hmod
  omega

/-- **Writing past a window that does not fill the ring** extends it at the back. -/
theorem window_push (hn : n < cap) (v : α) :
    window (Function.update cells ((start + n) % cap) v) start cap (n + 1)
      = window cells start cap n ++ [v] := by
  rw [window_snoc, Function.update_self]
  refine congrArg (· ++ [v]) (window_congr fun k hk => ?_)
  exact Function.update_of_ne (mod_ne_of_lt hk hn) _ _

end Ring
