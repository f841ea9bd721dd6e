import Mathlib.Algebra.Order.Ring.Nat

namespace TpceDrv.Library.Walks

variable {A B : Type} {read : A → Option B} {next : B → A} {addr : ℕ → A} {node : ℕ → B} {n : ℕ}

/-- The node that a walk along the `next` pointers reads in step `i`, as long
as every read before has given one -/
def visit (read : A → Option B) (next : B → A) (start : A) : ℕ → Option B
  | 0 => read start
  | i + 1 => (visit read next start i).bind fun b => read (next b)

theorem visit_succ {start : A} {i : ℕ} {b : B} (h : visit read next start i = some b) :
    visit read next start (i + 1) = read (next b) := by
  rw [visit, h, Option.bind_some]

theorem visit_of_reads (hnext : ∀ i, i + 1 < n → next (node i) = addr (i + 1))
    (hread : ∀ i < n, read (addr i) = some (node i)) {i : ℕ} (hi : i < n) :
    visit read next (addr 0) i = some (node i) := by
  induction i with
  | zero => exact hread 0 hi
  | succ i ih =>
      rw [visit_succ (ih (by omega)), hnext i hi]
      exact hread (i + 1) hi

/-- Along nodes that point to each other's addresses the walk visits the nodes
exactly when each is found under its address. -/
theorem visits_iff (read : A → Option B) (hnext : ∀ i, i + 1 < n → next (node i) = addr (i + 1)) :
    (∀ i < n, visit read next (addr 0) i = some (node i)) ↔ ∀ i < n, read (addr i) = some (node i) := by
  refine ⟨fun h i hi => ?_, fun hread i => visit_of_reads hnext hread⟩
  cases i with
  | zero => exact h 0 hi
  | succ i =>
      rw [← hnext i hi, ← visit_succ (h i (by omega))]
      exact h (i + 1) hi

end TpceDrv.Library.Walks
