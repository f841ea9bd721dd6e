import Mathlib.Algebra.GCDMonoid.Multiset
import Mathlib.Algebra.GCDMonoid.Nat
import Mathlib.Data.Nat.Fib.Basic

namespace TpceDrv.Library.Euclid

section Skipping

variable {α : Type} [CommMonoidWithZero α] [GCDMonoid α] [DecidableEq α]

/-- The gcd of a list, added up in `res`. An element equal to the one in front of it,
which is `prev` for the first, is skipped. -/
def gcdSkipping (res prev : α) : List α → α
  | [] => res
  | x :: xs => if prev = x then gcdSkipping res prev xs else gcdSkipping (gcd res x) x xs

/-- A skipped element is divided by what is added up so far, as its equal in front
of it was. -/
theorem dvd_gcdSkipping {res prev d : α} (hprev : res ∣ prev) (xs : List α) :
    d ∣ gcdSkipping res prev xs ↔ d ∣ res ∧ ∀ x ∈ xs, d ∣ x := by
  induction xs generalizing res prev with
  | nil => simp [gcdSkipping]
  | cons x xs ih =>
      rw [gcdSkipping, List.forall_mem_cons]
      split
      · rename_i heq
        rw [ih hprev]
        exact and_congr_right fun hres => (and_iff_right (heq ▸ hres.trans hprev)).symm
      · rw [ih (gcd_dvd_right res x), dvd_gcd_iff, and_assoc]

theorem dvd_gcdSkipping_head {d : α} (x : α) (xs : List α) :
    d ∣ gcdSkipping x x xs ↔ ∀ y ∈ x :: xs, d ∣ y := by
  rw [dvd_gcdSkipping (dvd_refl x), List.forall_mem_cons]

end Skipping

theorem gcdSkipping_eq_gcd (x : ℕ) (xs : List ℕ) :
    gcdSkipping x x xs = Multiset.gcd ((x :: xs : List ℕ) : Multiset ℕ) := by
  apply Nat.dvd_antisymm
  · rw [Multiset.dvd_gcd]
    exact (dvd_gcdSkipping_head x xs).mp (Nat.dvd_refl _)
  · rw [dvd_gcdSkipping_head]
    exact fun y hy => Multiset.dvd_gcd.mp (Nat.dvd_refl _) y (Multiset.mem_coe.mpr hy)

/-- `step` for as long as it has a successor, `n` rounds at most -/
def loop {S : Type} (step : S → Option S) : ℕ → S → Option S
  | 0, s => if (step s).isNone then some s else none
  | n + 1, s =>
      match step s with
      | none => some s
      | some s' => loop step n s'

theorem loop_of_none {S : Type} {step : S → Option S} {s : S} (h : step s = none) (n : ℕ) :
    loop step n s = some s := by
  cases n with
  | zero => simp [loop, h]
  | succ n => simp [loop, h]

theorem loop_of_some {S : Type} {step : S → Option S} {s s' : S} (h : step s = some s') (n : ℕ) :
    loop step (n + 1) s = loop step n s' := by
  simp [loop, h]

/-- The rounds of `while (b > 0) (a, b) = (b, a % b)` -/
def rounds (a b : ℕ) : ℕ := if _h : 0 < b then rounds b (a % b) + 1 else 0
termination_by b
decreasing_by exact Nat.mod_lt a _h

theorem rounds_zero (a : ℕ) : rounds a 0 = 0 := by
  rw [rounds, dif_neg (Nat.lt_irrefl 0)]

theorem rounds_pos {a b : ℕ} (hb : 0 < b) : rounds a b = rounds b (a % b) + 1 := by
  rw [rounds, dif_pos hb]

theorem mod_add_le {b r : ℕ} (h : r ≤ b) : b % r + r ≤ b := by
  rcases Nat.eq_zero_or_pos r with rfl | hr
  · rw [Nat.mod_zero, Nat.add_zero]
  · have hdiv : r ≤ r * (b / r) := Nat.le_mul_of_pos_right r (Nat.div_pos h hr)
    have hsum := Nat.div_add_mod b r
    omega

/-- One round brings the divisor under the next smaller Fibonacci number, or the
two next rounds bring it under the second next. -/
theorem rounds_le {n a b : ℕ} (h : b < Nat.fib (n + 2)) : rounds a b ≤ n := by
  induction n using Nat.twoStepInduction generalizing a b with
  | zero =>
      obtain rfl : b = 0 := Nat.lt_one_iff.mp h
      rw [rounds_zero]
  | one =>
      have hb : b ≤ 1 := Nat.lt_succ_iff.mp h
      rcases Nat.le_one_iff_eq_zero_or_eq_one.mp hb with rfl | rfl
      · rw [rounds_zero]
        exact Nat.zero_le 1
      · rw [rounds_pos Nat.one_pos, Nat.mod_one, rounds_zero]
  | more n ih ih' =>
      rcases Nat.eq_zero_or_pos b with rfl | hb
      · rw [rounds_zero]
        exact Nat.zero_le _
      · rw [rounds_pos hb]
        by_cases hr : a % b < Nat.fib (n + 3)
        · exact Nat.succ_le_succ (ih' hr)
        · have hfib : Nat.fib (n + 2 + 2) = Nat.fib (n + 2) + Nat.fib (n + 3) := Nat.fib_add_two
          have hpos : 0 < Nat.fib (n + 3) := Nat.fib_pos.mpr (Nat.succ_pos _)
          have hrpos : 0 < a % b := Nat.lt_of_lt_of_le hpos (Nat.not_lt.mp hr)
          have hrest : b % (a % b) + a % b ≤ b := mod_add_le (Nat.mod_lt a hb).le
          rw [rounds_pos hrpos]
          exact Nat.succ_le_succ (Nat.succ_le_succ (ih (by omega)))

end TpceDrv.Library.Euclid
