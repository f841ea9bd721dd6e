import Mathlib.Algebra.Order.Ring.Nat

namespace TpceDrv.Library.Rings

/-- The slots of a ring of `n` that `m` steps from position `w` on visit -/
def visits (n w m : ℕ) : List ℕ := (List.range' w m).map (· % n)

/-- The steps from slot `w` to slot `w'` of a ring of `n` -/
def distance (n w w' : ℕ) : ℕ := if w' < w then w' + n - w else w' - w

variable {n : ℕ}

@[simp] theorem visits_zero (n w : ℕ) : visits n w 0 = [] := rfl

@[simp] theorem visits_succ (n w m : ℕ) : visits n w (m + 1) = w % n :: visits n (w + 1) m := by
  rw [visits, List.range'_succ, List.map_cons, visits]

@[simp] theorem length_visits (n w m : ℕ) : (visits n w m).length = m := by
  rw [visits, List.length_map, List.length_range']

theorem visits_append (n w m m' : ℕ) : visits n w m ++ visits n (w + m) m' = visits n w (m + m') := by
  rw [visits, visits, visits, ← List.map_append, List.range'_append_1]

theorem visits_congr {w w' : ℕ} (h : w % n = w' % n) (m : ℕ) : visits n w m = visits n w' m := by
  induction m generalizing w w' with
  | zero => rfl
  | succ m ih =>
      have hnext : (w + 1) % n = (w' + 1) % n := by rw [Nat.add_mod, h, ← Nat.add_mod]
      rw [visits_succ, visits_succ, h, ih hnext]

theorem lt_of_mem_visits (hn : 0 < n) {w m i : ℕ} (h : i ∈ visits n w m) : i < n := by
  obtain ⟨j, -, rfl⟩ := List.mem_map.mp h
  exact Nat.mod_lt j hn

theorem distance_lt {w w' : ℕ} (hw' : w' < n) : distance n w w' < n := by
  simp only [distance]
  split
  · omega
  · omega

theorem distance_mod {k a : ℕ} (ha : a < n) : distance n (k % n) ((k + a) % n) = a := by
  have hk := Nat.mod_lt k (Nat.zero_lt_of_lt ha)
  rw [Nat.add_mod, Nat.mod_eq_of_lt ha, distance]
  by_cases hlap : k % n + a < n
  · rw [Nat.mod_eq_of_lt hlap, if_neg (by omega)]
    omega
  · rw [Nat.mod_eq_sub_mod (Nat.not_lt.mp hlap), Nat.mod_eq_of_lt (by omega), if_pos (by omega)]
    omega

/-- The distance leads from the one slot to the other. -/
theorem add_distance_mod {w w' : ℕ} (hw : w < n) (hw' : w' < n) : (w + distance n w w') % n = w' := by
  simp only [distance]
  split
  · have hlap : w + (w' + n - w) = w' + n := by omega
    rw [hlap, Nat.add_mod_right, Nat.mod_eq_of_lt hw']
  · have hsame : w + (w' - w) = w' := by omega
    rw [hsame, Nat.mod_eq_of_lt hw']

end TpceDrv.Library.Rings
