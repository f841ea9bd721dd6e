import TpceDrv.Library.Runs
import Mathlib.Algebra.Order.Group.Nat

namespace TpceDrv.Library.Drains

open Runs

variable {S O : Type} {step : S → O → Option S} {K : S → Prop} {μ : S → ℕ}

/-- What every step spends bounds the length of a run. -/
theorem length_le_measure (hkeep : ∀ s o s', K s → step s o = some s' → K s')
    (hless : ∀ s o s', K s → step s o = some s' → μ s' < μ s) {s t : S} {os : List O} (hs : K s)
    (hr : run step s os = some t) : os.length + μ t ≤ μ s := by
  induction os generalizing s with
  | nil =>
      cases hr
      exact (Nat.zero_add _).le
  | cons o os ih =>
      obtain ⟨s', hn, hr⟩ := Option.bind_eq_some_iff.mp hr
      have hlt := hless s o s' hs hn
      have hle := ih (hkeep s o s' hs hn) hr
      rw [List.length_cons]
      omega

end TpceDrv.Library.Drains
