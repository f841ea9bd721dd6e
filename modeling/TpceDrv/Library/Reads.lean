import Mathlib.Logic.Basic

namespace TpceDrv.Library.Reads

variable {F : Type} {V : F → Type} {α β : Type}

/-- A computation that reads fields of a shared record, one at a time -/
inductive Prog (F : Type) (V : F → Type) (α : Type)
  | done (a : α)
  | read (f : F) (next : V f → Prog F V α)

def Prog.bind : Prog F V α → (α → Prog F V β) → Prog F V β
  | .done a, g => g a
  | .read f next, g => .read f fun v => (next v).bind g

instance : Monad (Prog F V) where
  pure := .done
  bind := .bind

def get (f : F) : Prog F V (V f) := .read f .done

/-- The result when nothing changes the record -/
def Prog.eval (σ : (f : F) → V f) : Prog F V α → α
  | .done a => a
  | .read f next => (next (σ f)).eval σ

/-- The fields that are then read, in this order -/
def Prog.fields (σ : (f : F) → V f) : Prog F V α → List F
  | .done _ => []
  | .read f next => f :: (next (σ f)).fields σ

variable {σ view view' : (f : F) → V f}

@[simp] theorem eval_pure (σ : (f : F) → V f) (a : α) : (pure a : Prog F V α).eval σ = a := rfl

@[simp] theorem eval_get (σ : (f : F) → V f) (f : F) : (get f : Prog F V (V f)).eval σ = σ f := rfl

@[simp] theorem eval_bind (σ : (f : F) → V f) (p : Prog F V α) (g : α → Prog F V β) :
    (p >>= g).eval σ = (g (p.eval σ)).eval σ := by
  induction p with
  | done a => rfl
  | read f next ih => exact ih (σ f)

@[simp] theorem eval_ite (σ : (f : F) → V f) (P : Prop) [Decidable P] (p q : Prog F V α) :
    (if P then p else q).eval σ = if P then p.eval σ else q.eval σ := by
  split
  · rfl
  · rfl

/-- All that is still to be read has the values of `σ`. -/
def Intact (σ view : (f : F) → V f) (p : Prog F V α) : Prop := ∀ f ∈ p.fields σ, view f = σ f

theorem Intact.refl (σ : (f : F) → V f) (p : Prog F V α) : Intact σ σ p := fun _ _ => rfl

theorem Intact.value {f : F} {next : V f → Prog F V α} (h : Intact σ view (.read f next)) : view f = σ f :=
  h f List.mem_cons_self

theorem Intact.step {f : F} {next : V f → Prog F V α} (h : Intact σ view (.read f next)) :
    Intact σ view (next (view f)) := by
  rw [h.value]
  exact fun f' hf' => h f' (List.mem_cons_of_mem _ hf')

theorem eval_step {f : F} {next : V f → Prog F V α} (h : Intact σ view (.read f next)) :
    (next (view f)).eval σ = (Prog.read f next).eval σ := by
  rw [h.value]
  rfl

theorem Intact.change {p : Prog F V α} (h : Intact σ view p) (hsame : ∀ f ∈ p.fields σ, view' f = view f) :
    Intact σ view' p := fun f hf => (hsame f hf).trans (h f hf)

end TpceDrv.Library.Reads
