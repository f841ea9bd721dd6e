import Mathlib.Data.List.Nodup
import Mathlib.Logic.Function.Basic
import TpceDrv.Library.Cuts

namespace TpceDrv.Library.Moves

open Cuts

variable {A S B : Type}

/-- What memory holds after the moves, each from its source to its place -/
def moved [DecidableEq A] (source : S → B) : List (A × S) → (A → B) → A → B
  | [], mem => mem
  | (a, s) :: moves, mem => moved source moves (Function.update mem a (source s))

theorem moved_elsewhere [DecidableEq A] (source : S → B) {moves : List (A × S)} {a : A}
    (h : a ∉ moves.map Prod.fst) (mem : A → B) : moved source moves mem a = mem a := by
  induction moves generalizing mem with
  | nil => rfl
  | cons move moves ih =>
      rw [List.map_cons, List.mem_cons, not_or] at h
      exact (ih h.2 _).trans (Function.update_of_ne h.1 ..)

/-- Moves to different places all last. -/
theorem moved_at [DecidableEq A] (source : S → B) {moves : List (A × S)} {a : A} {s : S}
    (hnodup : (moves.map Prod.fst).Nodup) (h : (a, s) ∈ moves) (mem : A → B) :
    moved source moves mem a = source s := by
  induction moves generalizing mem with
  | nil => cases h
  | cons move moves ih =>
      obtain ⟨hnew, hnodup⟩ := List.nodup_cons.mp hnodup
      rcases List.mem_cons.mp h with rfl | h
      · exact (moved_elsewhere source hnew _).trans (Function.update_self ..)
      · exact ih hnodup h _

variable [AddAction ℕ A]

def stretch (p : A × ℕ) : List A := (List.range p.2).map (· +ᵥ p.1)

/-- The positions of the pieces, one after the other -/
def places (ps : List (A × ℕ)) : List A := ps.flatMap stretch

theorem length_stretch (p : A × ℕ) : (stretch p).length = p.2 := by
  rw [stretch, List.length_map, List.length_range]

theorem length_places (ps : List (A × ℕ)) : (places ps).length = (ps.map Prod.snd).sum := by
  rw [places, List.length_flatMap]
  exact congrArg List.sum (List.map_congr_left fun p _ => length_stretch p)

theorem stretch_add (a : A) (m n : ℕ) : stretch (a, m + n) = stretch (a, m) ++ stretch (m +ᵥ a, n) := by
  simp only [stretch]
  rw [List.range_add, List.map_append, List.map_map]
  refine congrArg _ (List.map_congr_left fun i _ => ?_)
  rw [Function.comp_apply, Nat.add_comm, add_vadd]

theorem stretch_of_inside {segs : List (A × ℕ)} {pos : ℕ} {p : A × ℕ} (h : Inside segs pos p) :
    stretch p = ((places segs).drop pos).take p.2 := by
  obtain ⟨pre, base, size, post, rfl, hstart, hfit, haddr⟩ := h
  obtain ⟨skip, rfl⟩ := Nat.exists_eq_add_of_le hstart
  rw [Nat.add_sub_cancel_left] at haddr
  obtain ⟨rest, rfl⟩ := Nat.exists_eq_add_of_le (show skip + p.2 ≤ size by omega)
  have hsegs : places (pre ++ (base, skip + p.2 + rest) :: post) =
      (places pre ++ stretch (base, skip)) ++
        (stretch p ++ (stretch ((skip + p.2) +ᵥ base, rest) ++ places post)) := by
    have hpiece : p = (skip +ᵥ base, p.2) := Prod.ext haddr rfl
    rw [places, List.flatMap_append, List.flatMap_cons, stretch_add, stretch_add, ← hpiece]
    simp only [places, List.append_assoc]
  have hlen : (places pre ++ stretch (base, skip)).length = (pre.map Prod.snd).sum + skip := by
    rw [List.length_append, length_places, length_stretch]
  rw [hsegs, List.drop_left' hlen, List.take_left' (length_stretch p)]

/-- What is tiled is covered position by position. -/
theorem places_of_tiles {segs ps : List (A × ℕ)} {pos stop : ℕ} (h : Tiles segs pos stop ps) :
    places ps = ((places segs).drop pos).take (stop - pos) := by
  induction ps generalizing pos with
  | nil =>
      obtain rfl : pos = stop := h
      rw [Nat.sub_self, List.take_zero]
      rfl
  | cons p ps ih =>
      obtain ⟨-, hinside, hrest⟩ := h
      have hsum := hrest.sum
      have hsplit : stop - pos = p.2 + (stop - (pos + p.2)) := by omega
      rw [hsplit, List.take_add, List.drop_drop, ← stretch_of_inside hinside, ← ih hrest]
      rfl

end TpceDrv.Library.Moves
