import Mathlib.Algebra.Order.Ring.Nat

namespace TpceDrv.Library.Windows

/-- The `l` positions from `a` on lie in one window of `B`: no multiple of `B`
is strictly between the two ends. -/
def Within (B a l : ℕ) : Prop := ∀ j, ¬(a < j * B ∧ j * B < a + l)

variable {B : ℕ}

theorem within_iff (hB : 0 < B) (a l : ℕ) : Within B a l ↔ a % B + l ≤ B := by
  have hdiv := Nat.div_add_mod a B
  have hmod := Nat.mod_lt a hB
  constructor
  · intro h
    by_contra hlong
    have hnext : (a / B + 1) * B = B * (a / B) + B := by rw [Nat.succ_mul, Nat.mul_comm]
    exact h (a / B + 1) ⟨by omega, by omega⟩
  · rintro h j ⟨hlo, hhi⟩
    have hj : a / B + 1 ≤ j := by
      by_contra hlt
      have hle := Nat.mul_le_mul_right B (Nat.le_of_lt_succ (Nat.not_le.mp hlt))
      rw [Nat.mul_comm (a / B)] at hle
      omega
    have hle := Nat.mul_le_mul_right B hj
    rw [Nat.succ_mul, Nat.mul_comm (a / B)] at hle
    omega

theorem within_mod (hB : 0 < B) {M : ℕ} (hM : B ∣ M) (a l : ℕ) : Within B (a % M) l ↔ Within B a l := by
  rw [within_iff hB, within_iff hB, Nat.mod_mod_of_dvd a hM]

/-- Pieces of `L` positions, cut from `a` on, stay within windows when every
window that starts inside starts between two pieces. -/
theorem within_pieces {L : ℕ} (hL : 0 < L) (a n : ℕ) :
    (∀ k, k * L < n → Within B (a + k * L) (min L (n - k * L))) ↔
      ∀ j, a < j * B → j * B < a + n → L ∣ j * B - a := by
  constructor
  · intro h j hlo hhi
    have hdiv := Nat.div_add_mod (j * B - a) L
    have hmod := Nat.mod_lt (j * B - a) hL
    rw [Nat.mul_comm] at hdiv
    refine Nat.dvd_of_mod_eq_zero (by_contra fun hne => ?_)
    exact h ((j * B - a) / L) (by omega) j ⟨by omega, by omega⟩
  · rintro h k hk j ⟨hlo, hhi⟩
    obtain ⟨q, hq⟩ := h j (by omega) (by omega)
    rw [Nat.mul_comm L q] at hq
    have hmore : k < q := by
      by_contra hle
      have := Nat.mul_le_mul_right L (Nat.not_lt.mp hle)
      omega
    have hless : q < k + 1 := by
      by_contra hle
      have := Nat.mul_le_mul_right L (Nat.not_lt.mp hle)
      rw [Nat.succ_mul] at this
      omega
    omega

end TpceDrv.Library.Windows
