import Mathlib.Logic.Function.Basic

namespace TpceDrv.Library.PointwiseFold

variable {σ ι α : Type} [DecidableEq ι]

/-- A loop over distinct indices whose body at `i` changes only the entry `i`
of what is seen of the state, as a function of that entry alone. -/
theorem view_foldl (view : σ → ι → α) (step : σ → ι → σ) (g : ι → α → α)
    (hstep : ∀ s i, view (step s i) = Function.update (view s) i (g i (view s i)))
    (l : List ι) (hl : l.Nodup) (s : σ) (j : ι) :
    view (l.foldl step s) j = if j ∈ l then g j (view s j) else view s j := by
  induction l generalizing s with
  | nil => simp
  | cons i l ih =>
      obtain ⟨hi, hl⟩ := List.nodup_cons.mp hl
      rw [List.foldl_cons, ih hl, hstep]
      by_cases hj : j = i
      · subst j
        simp [hi]
      · simp [hj]

end TpceDrv.Library.PointwiseFold
