import Mathlib.Algebra.Group.Action.Defs
import Mathlib.Algebra.Order.BigOperators.Group.List
import Mathlib.Algebra.Order.Ring.Nat

namespace TpceDrv.Library.Cuts

/-- The lengths of the pieces when `n` units are cut greedily into pieces of
at most `L`. -/
def cut (L n : Nat) : List Nat := List.replicate (n / L) L ++ if n % L = 0 then [] else [n % L]

@[simp] theorem cut_zero (L : Nat) : cut L 0 = [] := by simp [cut]

theorem cut_step {L n : Nat} (hL : 0 < L) (hn : 0 < n) :
    cut L n = min L n :: cut L (n - min L n) := by
  by_cases h : L ≤ n
  · rw [Nat.min_eq_left h]
    have hdiv : n / L = (n - L) / L + 1 := by rw [Nat.div_eq_sub_div hL h]
    have hmod : n % L = (n - L) % L := Nat.mod_eq_sub_mod h
    simp only [cut, hdiv, hmod, List.replicate_succ, List.cons_append]
  · have h' : n < L := Nat.lt_of_not_le h
    simp [cut, Nat.min_eq_right h'.le, Nat.div_eq_of_lt h', Nat.mod_eq_of_lt h', hn.ne']

theorem cut_of_dvd {L n : Nat} (h : L ∣ n) : cut L n = List.replicate (n / L) L := by
  simp [cut, Nat.mod_eq_zero_of_dvd h]

theorem cut_mul {L : Nat} (hL : 0 < L) (m : Nat) : cut L (m * L) = List.replicate m L := by
  rw [cut_of_dvd (Nat.dvd_mul_left L m), Nat.mul_div_cancel m hL]

@[simp] theorem sum_cut (L n : Nat) : (cut L n).sum = n := by
  have h := Nat.div_add_mod n L
  rw [Nat.mul_comm] at h
  by_cases hr : n % L = 0
  · simpa [cut, hr] using h
  · simpa [cut, hr] using h

theorem length_cut {L : Nat} (hL : 0 < L) (n : Nat) : (cut L n).length = (n + L - 1) / L := by
  have h := Nat.div_add_mod n L
  have hlt := Nat.mod_lt n hL
  by_cases hr : n % L = 0
  · have hd : (n + L - 1) / L = n / L := by
      rw [show n + L - 1 = L - 1 + L * (n / L) by omega, Nat.add_mul_div_left _ _ hL,
        Nat.div_eq_of_lt (by omega), Nat.zero_add]
    simp [cut, hr, hd]
  · have hd : (n + L - 1) / L = n / L + 1 := by
      rw [show n + L - 1 = n % L - 1 + L * (n / L + 1) by rw [Nat.mul_add]; omega,
        Nat.add_mul_div_left _ _ hL, Nat.div_eq_of_lt (by omega), Nat.zero_add]
    simp [cut, hr, hd]

theorem mem_cut {L n l : Nat} (hL : 0 < L) (h : l ∈ cut L n) : 0 < l ∧ l ≤ L := by
  have hlt := Nat.mod_lt n hL
  rcases List.mem_append.mp h with h | h
  · rw [(List.mem_replicate.mp h).2]
    exact ⟨hL, Nat.le_refl L⟩
  · by_cases hr : n % L = 0
    · simp [hr] at h
    · obtain rfl : l = n % L := by simpa [hr] using h
      exact ⟨Nat.pos_of_ne_zero hr, hlt.le⟩

theorem dvd_of_mem_cut {w L n l : Nat} (hL : w ∣ L) (hn : w ∣ n) (h : l ∈ cut L n) : w ∣ l := by
  rcases List.mem_append.mp h with h | h
  · rwa [(List.mem_replicate.mp h).2]
  · by_cases hr : n % L = 0
    · simp [hr] at h
    · obtain rfl : l = n % L := by simpa [hr] using h
      exact (Nat.dvd_mod_iff hL).mpr hn

theorem take_cut {L m n : Nat} (hL : 0 < L) (h : m < (cut L n).length) :
    (cut L n).take m = cut L (m * L) := by
  have hm : m ≤ n / L := by
    by_cases hr : n % L = 0
    · simp only [cut, hr, if_true, List.append_nil, List.length_replicate] at h
      exact h.le
    · simp only [cut, hr, if_false, List.length_append, List.length_replicate,
        List.length_singleton] at h
      exact Nat.le_of_lt_succ h
  rw [cut_mul hL, cut, List.take_append_of_le_length (by simpa using hm), List.take_replicate,
    Nat.min_eq_left hm]

/-- The positions from `lo` to `hi` in each of the segments of the given sizes, which
lie one after the other from `base` on: where they start and where they stop. -/
def spans (lo hi : ℕ) : ℕ → List ℕ → List (ℕ × ℕ)
  | _, [] => []
  | base, size :: sizes => (max lo base, min hi (base + size)) :: spans lo hi (base + size) sizes

def overlaps (lo hi base : ℕ) (sizes : List ℕ) : List ℕ := (spans lo hi base sizes).map fun s => s.2 - s.1

@[simp] theorem overlaps_cons (lo hi base size : ℕ) (sizes : List ℕ) : overlaps lo hi base (size :: sizes) =
    (min hi (base + size) - max lo base) :: overlaps lo hi (base + size) sizes := rfl

theorem overlaps_append (lo hi base : ℕ) (sizes rest : List ℕ) : overlaps lo hi base (sizes ++ rest) =
    overlaps lo hi base sizes ++ overlaps lo hi (base + sizes.sum) rest := by
  induction sizes generalizing base with
  | nil => simp [overlaps, spans]
  | cons size sizes ih =>
      rw [List.cons_append, overlaps_cons, overlaps_cons, ih, List.sum_cons, Nat.add_assoc, List.cons_append]

theorem overlaps_before {lo hi base : ℕ} {sizes : List ℕ} (h : base + sizes.sum ≤ lo) :
    overlaps lo hi base sizes = List.replicate sizes.length 0 := by
  induction sizes generalizing base with
  | nil => rfl
  | cons size sizes ih =>
      rw [List.sum_cons] at h
      rw [overlaps_cons, ih (by omega), show min hi (base + size) - max lo base = 0 by omega]
      rfl

theorem overlaps_after {lo hi base : ℕ} (sizes : List ℕ) (h : hi ≤ max lo base) :
    overlaps lo hi base sizes = List.replicate sizes.length 0 := by
  induction sizes generalizing base with
  | nil => rfl
  | cons size sizes ih =>
      rw [overlaps_cons, ih (by omega), show min hi (base + size) - max lo base = 0 by omega]
      rfl

theorem overlaps_dvd {w lo hi base : ℕ} {sizes : List ℕ} (hlo : w ∣ lo) (hhi : w ∣ hi) (hbase : w ∣ base)
    (hsizes : ∀ size ∈ sizes, w ∣ size) : ∀ n ∈ overlaps lo hi base sizes, w ∣ n := by
  induction sizes generalizing base with
  | nil => exact fun n hn => absurd hn List.not_mem_nil
  | cons size sizes ih =>
      obtain ⟨hsize, hrest⟩ := List.forall_mem_cons.mp hsizes
      have hend := Nat.dvd_add hbase hsize
      rw [overlaps_cons]
      refine List.forall_mem_cons.mpr ⟨Nat.dvd_sub ?_ ?_, ih hend hrest⟩
      · rcases Nat.le_total hi (base + size) with h | h
        · rwa [Nat.min_eq_left h]
        · rwa [Nat.min_eq_right h]
      · rcases Nat.le_total lo base with h | h
        · rwa [Nat.max_eq_right h]
        · rwa [Nat.max_eq_left h]

variable {A : Type} [AddAction ℕ A]

/-- Pieces of the given lengths laid out one after the other from `a` on. -/
def layout (a : A) : List ℕ → List (A × ℕ)
  | [] => []
  | l :: ls => (a, l) :: layout (l +ᵥ a) ls

@[simp] theorem length_layout (a : A) (ls : List ℕ) : (layout a ls).length = ls.length := by
  induction ls generalizing a with
  | nil => rfl
  | cons l ls ih => simp [layout, ih]

theorem take_layout (a : A) (ls : List ℕ) (m : ℕ) :
    (layout a ls).take m = layout a (ls.take m) := by
  induction ls generalizing a m with
  | nil => simp [layout]
  | cons l ls ih =>
      cases m with
      | zero => rfl
      | succ m => simp [layout, ih]

@[simp] theorem map_snd_layout (a : A) (ls : List ℕ) : (layout a ls).map Prod.snd = ls := by
  induction ls generalizing a with
  | nil => rfl
  | cons l ls ih => simp [layout, ih]

theorem layout_append (a : A) (ls ms : List ℕ) : layout a (ls ++ ms) = layout a ls ++ layout (ls.sum +ᵥ a) ms := by
  induction ls generalizing a with
  | nil => rw [List.sum_nil, zero_vadd]; rfl
  | cons l ls ih => rw [List.cons_append, layout, layout, ih, List.sum_cons, Nat.add_comm, add_vadd, List.cons_append]

theorem snd_mem_layout {a : A} {ls : List ℕ} {p : A × ℕ} (h : p ∈ layout a ls) : p.2 ∈ ls := by
  have hmem := List.mem_map_of_mem (f := Prod.snd) h
  rwa [map_snd_layout] at hmem

theorem mem_layout_cut {L : ℕ} (hL : 0 < L) {n : ℕ} {a x : A} {l : ℕ} :
    (x, l) ∈ layout a (cut L n) ↔ ∃ k, k * L < n ∧ x = (k * L) +ᵥ a ∧ l = min L (n - k * L) := by
  induction n using Nat.strongRecOn generalizing a with
  | ind n ih =>
    by_cases hn : n = 0
    · subst n
      simp [layout]
    · have hpos : 0 < n := Nat.pos_of_ne_zero hn
      rw [cut_step hL hpos, layout, List.mem_cons, Prod.mk.injEq, ih _ (by omega)]
      constructor
      · rintro (⟨rfl, rfl⟩ | ⟨k, hk, rfl, rfl⟩)
        · exact ⟨0, by simpa using hpos, by simp, by simp⟩
        · have hmin : min L n = L := by
            by_contra hne
            have : min L n = n := by omega
            omega
          have hsucc : (k + 1) * L = k * L + L := Nat.succ_mul k L
          refine ⟨k + 1, by omega, ?_, by omega⟩
          rw [hsucc, hmin, add_vadd]
      · rintro ⟨k, hk, rfl, rfl⟩
        cases k with
        | zero => exact .inl ⟨by simp, by simp⟩
        | succ k =>
            have hsucc : (k + 1) * L = k * L + L := Nat.succ_mul k L
            have hmin : min L n = L := by omega
            refine .inr ⟨k, by omega, ?_, by omega⟩
            rw [hsucc, hmin, add_vadd]

/-- The byte positions `pos` to `pos + p.2` of the concatenated segments lie
in one segment, and `p.1` is where that segment has position `pos`. -/
def Inside (segs : List (A × ℕ)) (pos : ℕ) (p : A × ℕ) : Prop :=
  ∃ pre base size post, segs = pre ++ (base, size) :: post ∧ (pre.map Prod.snd).sum ≤ pos ∧
    pos + p.2 ≤ (pre.map Prod.snd).sum + size ∧ p.1 = (pos - (pre.map Prod.snd).sum) +ᵥ base

/-- The pieces are non-empty and cover the positions from `pos` to `stop` of
the concatenated segments in order, each within one segment. -/
def Tiles (segs : List (A × ℕ)) (pos stop : ℕ) : List (A × ℕ) → Prop
  | [] => pos = stop
  | p :: ps => 0 < p.2 ∧ Inside segs pos p ∧ Tiles segs (pos + p.2) stop ps

theorem Tiles.sum {segs : List (A × ℕ)} {pos stop : ℕ} {ps : List (A × ℕ)}
    (h : Tiles segs pos stop ps) : pos + (ps.map Prod.snd).sum = stop := by
  induction ps generalizing pos with
  | nil => simpa [Tiles] using h
  | cons p ps ih =>
      have := ih h.2.2
      simp only [List.map_cons, List.sum_cons]
      omega

theorem Tiles.inside {segs : List (A × ℕ)} {pos stop : ℕ} {ps : List (A × ℕ)} {p : A × ℕ}
    (h : Tiles segs pos stop ps) (hp : p ∈ ps) : ∃ start, Inside segs start p := by
  induction ps generalizing pos with
  | nil => cases hp
  | cons q ps ih =>
      rcases List.mem_cons.mp hp with rfl | hp
      · exact ⟨pos, h.2.1⟩
      · exact ih h.2.2 hp

theorem Tiles.append {segs : List (A × ℕ)} {pos mid stop : ℕ} {ps qs : List (A × ℕ)}
    (hp : Tiles segs pos mid ps) (hq : Tiles segs mid stop qs) : Tiles segs pos stop (ps ++ qs) := by
  induction ps generalizing pos with
  | nil =>
      obtain rfl : pos = mid := hp
      exact hq
  | cons p ps ih => exact ⟨hp.1, hp.2.1, ih hp.2.2⟩

theorem tiles_layout {segs pre post : List (A × ℕ)} {base : A} {size skip : ℕ} {ls : List ℕ}
    (hs : segs = pre ++ (base, size) :: post) (hfit : skip + ls.sum ≤ size)
    (hpos : ∀ l ∈ ls, 0 < l) :
    Tiles segs ((pre.map Prod.snd).sum + skip) ((pre.map Prod.snd).sum + skip + ls.sum)
      (layout (skip +ᵥ base) ls) := by
  induction ls generalizing skip with
  | nil => exact rfl
  | cons l ls ih =>
      simp only [List.sum_cons] at hfit ⊢
      have ht := @ih (skip + l) (by omega) fun x hx => hpos x (List.mem_cons_of_mem l hx)
      refine ⟨hpos l List.mem_cons_self, ⟨pre, base, size, post, hs, by omega, ?_, ?_⟩, ?_⟩
      · show _ + l ≤ _
        omega
      · simp
      · rw [← add_vadd, Nat.add_comm l skip]
        convert ht using 1
        all_goals first | rfl | omega

end TpceDrv.Library.Cuts
