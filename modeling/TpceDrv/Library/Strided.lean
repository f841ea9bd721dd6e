import Mathlib.Algebra.Order.Ring.Nat
import Mathlib.Order.Interval.Set.Basic

namespace TpceDrv.Library.Strided

/-- `n` words of `w` positions, each starting `s` words after the one before it -/
def positions (w s a n : ℕ) : Set ℕ := {b | ∃ j < n, ∃ i < w, b = a + j * s * w + i}

variable {w s a n : ℕ}

theorem positions_zero : positions w s a 0 = ∅ := by
  ext b
  simp [positions]

theorem positions_subset_Ico (hw : 0 < w) {lo hi : ℕ} :
    positions w s a n ⊆ Set.Ico lo hi ↔ n = 0 ∨ (lo ≤ a ∧ a + (n - 1) * s * w + w ≤ hi) := by
  constructor
  · intro h
    by_cases hn : n = 0
    · exact .inl hn
    · have hfirst : a ∈ positions w s a n := ⟨0, Nat.pos_of_ne_zero hn, 0, hw, by simp⟩
      have hlast : a + (n - 1) * s * w + (w - 1) ∈ positions w s a n :=
        ⟨n - 1, by omega, w - 1, by omega, rfl⟩
      have hlo := (h hfirst).1
      have hhi := (h hlast).2
      exact .inr ⟨hlo, by omega⟩
  · rintro (rfl | ⟨hlo, hhi⟩)
    · rw [positions_zero]
      exact Set.empty_subset _
    · rintro b ⟨j, hj, i, hi', rfl⟩
      have hle : j * s * w ≤ (n - 1) * s * w :=
        Nat.mul_le_mul_right w (Nat.mul_le_mul_right s (by omega))
      exact ⟨by omega, by omega⟩

/-- Where the words of such a run start, in order -/
def starts (w s a n : ℕ) : List ℕ := (List.range n).map fun j => a + j * s * w

@[simp] theorem length_starts (w s a n : ℕ) : (starts w s a n).length = n := by simp [starts]

theorem starts_add (w s a m n : ℕ) : starts w s a (m + n) = starts w s a m ++ starts w s (a + m * s * w) n := by
  simp [starts, List.range_add, Function.comp_def, Nat.add_mul, Nat.add_assoc]

theorem starts_inj {b : ℕ} (hn : 0 < n) : starts w s a n = starts w s b n ↔ a = b := by
  refine ⟨fun h => ?_, congrArg (starts w s · n)⟩
  have hfirst := congrArg (·[0]?) h
  simpa [starts, hn] using hfirst

end TpceDrv.Library.Strided
