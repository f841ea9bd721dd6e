import Mathlib.Control.Monad.Writer
import TpceDrv.Library.Holdings

namespace TpceDrv.Library.Traces

open Holdings

/-- A computation that may fail, with the trace of what it does on the way -/
abbrev Traced (τ ε α : Type) := WriterT (List τ) (Except ε) α

variable {τ ε α β κ : Type}

def emits (t : List τ) : Traced τ ε Unit := WriterT.mk (.ok ((), t))

def emit (e : τ) : Traced τ ε Unit := emits [e]

def lift (x : Except ε α) : Traced τ ε α := WriterT.mk (x.map fun a => (a, []))

/-- The computation without its trace -/
def erase (m : Traced τ ε α) : Except ε α := m.run.map Prod.fst

@[simp] theorem ok_bind (a : α) (f : α → Except ε β) : (Except.ok a >>= f) = f a := rfl

theorem run_bind_eq_ok {m : Traced τ ε α} {f : α → Traced τ ε β} {b : β} {t : List τ} :
    (m >>= f).run = .ok (b, t) ↔
      ∃ a t₁ t₂, m.run = .ok (a, t₁) ∧ (f a).run = .ok (b, t₂) ∧ t = t₁ ++ t₂ := by
  change (m.run >>= fun p => (fun q => (q.1, p.2 ++ q.2)) <$> (f p.1).run) = _ ↔ _
  cases hm : m.run with
  | error e => simp [bind, Except.bind]
  | ok p =>
      cases hf : (f p.1).run with
      | error e =>
          refine iff_of_false (by simp [bind, Except.bind, hf]) ?_
          rintro ⟨a, t₁, t₂, ha, hb, -⟩
          cases ha
          cases hf.symm.trans hb
      | ok q =>
          constructor
          · intro h
            simp only [bind, Except.bind, hf] at h
            cases h
            exact ⟨p.1, p.2, q.2, rfl, hf, rfl⟩
          · rintro ⟨a, t₁, t₂, ha, hb, rfl⟩
            cases ha
            cases hf.symm.trans hb
            simp only [bind, Except.bind, hf]
            rfl

theorem run_pure_eq_ok {a b : α} {t : List τ} :
    (pure a : Traced τ ε α).run = .ok (b, t) ↔ b = a ∧ t = [] := by
  change Except.ok (a, []) = Except.ok (b, t) ↔ _
  simp [eq_comm]

theorem run_emits_eq_ok {t u : List τ} : (emits t : Traced τ ε Unit).run = .ok ((), u) ↔ u = t := by
  change Except.ok ((), t) = Except.ok ((), u) ↔ _
  simp [eq_comm]

theorem run_lift_eq_ok {x : Except ε α} {a : α} {t : List τ} :
    (lift x : Traced τ ε α).run = .ok (a, t) ↔ x = .ok a ∧ t = [] := by
  cases x with
  | error e => simp [lift, Except.map]
  | ok b => simp [lift, Except.map, eq_comm]

@[simp] theorem erase_pure (a : α) : erase (pure a : Traced τ ε α) = pure a := rfl

@[simp] theorem erase_lift (x : Except ε α) : erase (lift x : Traced τ ε α) = x := by
  cases x with
  | error e => rfl
  | ok a => rfl

@[simp] theorem erase_bind (m : Traced τ ε α) (f : α → Traced τ ε β) :
    erase (m >>= f) = erase m >>= fun a => erase (f a) := by
  change (m.run >>= fun p => (fun q => (q.1, p.2 ++ q.2)) <$> (f p.1).run).map Prod.fst = _
  simp only [erase]
  cases m.run with
  | error e => rfl
  | ok p =>
      change (Except.map _ (f p.1).run).map Prod.fst = (f p.1).run.map Prod.fst
      cases (f p.1).run with
      | error e => rfl
      | ok q => rfl

@[simp] theorem erase_emits (t : List τ) : erase (emits t : Traced τ ε Unit) = .ok () := rfl

@[simp] theorem erase_emit (e : τ) : erase (emit e : Traced τ ε Unit) = .ok () := rfl

@[simp] theorem erase_ite (p : Prop) [Decidable p] (m n : Traced τ ε α) :
    erase (if p then m else n) = if p then erase m else erase n := by
  split
  · rfl
  · rfl

theorem erase_ok {m : Traced τ ε α} {a : α} {t : List τ} (h : m.run = .ok (a, t)) : erase m = .ok a := by
  rw [erase, h]
  rfl

theorem erase_error {m : Traced τ ε α} {e : ε} (h : m.run = .error e) : erase m = .error e := by
  rw [erase, h]
  rfl

/-- The computation with each entry of its trace under another name -/
def retag {σ : Type} (f : τ → σ) (m : Traced τ ε α) : Traced σ ε α := WriterT.mk (m.run.map fun p => (p.1, p.2.map f))

theorem run_retag_eq_ok {σ : Type} {f : τ → σ} {m : Traced τ ε α} {a : α} {u : List σ} :
    (retag f m).run = .ok (a, u) ↔ ∃ t, m.run = .ok (a, t) ∧ u = t.map f := by
  change m.run.map _ = _ ↔ _
  cases m.run with
  | error e => simp [Except.map]
  | ok p =>
      obtain ⟨b, t⟩ := p
      simp [Except.map, eq_comm]

@[simp] theorem erase_retag {σ : Type} (f : τ → σ) (m : Traced τ ε α) : erase (retag f m) = erase m := by
  change (m.run.map _).map Prod.fst = m.run.map Prod.fst
  cases m.run with
  | error e => rfl
  | ok p => rfl

/-- The computation with its failures under other names -/
def adapt {ε' : Type} (f : ε → ε') (m : Traced τ ε α) : Traced τ ε' α := WriterT.mk (m.run.mapError f)

theorem run_adapt_eq_ok {ε' : Type} {f : ε → ε'} {m : Traced τ ε α} {a : α} {t : List τ} :
    (adapt f m).run = .ok (a, t) ↔ m.run = .ok (a, t) := by
  change m.run.mapError f = _ ↔ _
  cases m.run with
  | error e => simp [Except.mapError]
  | ok p => simp [Except.mapError]

/-- The computation does not fail. -/
def Returns (m : Traced τ ε α) : Prop := ∃ a t, m.run = .ok (a, t)

theorem returns_iff {m : Traced τ ε α} : Returns m ↔ ∃ a, erase m = .ok a := by
  constructor
  · rintro ⟨a, t, h⟩
    exact ⟨a, erase_ok h⟩
  · rintro ⟨a, h⟩
    cases hrun : m.run with
    | error e => cases (erase_error hrun).symm.trans h
    | ok p => exact ⟨p.1, p.2, hrun⟩

@[simp] theorem returns_pure (a : α) : Returns (Pure.pure a : Traced τ ε α) := ⟨a, [], rfl⟩

@[simp] theorem returns_emit (e : τ) : Returns (emit e : Traced τ ε Unit) := ⟨(), [e], rfl⟩

theorem Returns.bind {m : Traced τ ε α} {f : α → Traced τ ε β} (hm : Returns m)
    (hf : ∀ a, erase m = .ok a → Returns (f a)) : Returns (m >>= f) := by
  obtain ⟨a, t, ha⟩ := hm
  obtain ⟨b, u, hb⟩ := hf a (erase_ok ha)
  exact ⟨b, t ++ u, run_bind_eq_ok.mpr ⟨a, t, u, ha, hb, rfl⟩⟩

@[simp] theorem returns_bind_pure {m : Traced τ ε α} {f : α → β} :
    Returns (m >>= fun a => Pure.pure (f a)) ↔ Returns m := by
  constructor
  · rintro ⟨b, t, h⟩
    obtain ⟨a, u, -, ha, -⟩ := run_bind_eq_ok.mp h
    exact ⟨a, u, ha⟩
  · exact fun h => h.bind fun _ _ => returns_pure _

@[simp] theorem returns_emit_bind {e : τ} {f : Unit → Traced τ ε β} : Returns (emit e >>= f) ↔ Returns (f ()) := by
  constructor
  · rintro ⟨b, t, h⟩
    obtain ⟨a, -, u, -, hb, -⟩ := run_bind_eq_ok.mp h
    exact ⟨b, u, hb⟩
  · intro h
    exact (returns_emit e).bind fun _ _ => h

@[simp] theorem returns_ite {p : Prop} [Decidable p] {m n : Traced τ ε α} :
    Returns (if p then m else n) ↔ (p → Returns m) ∧ (¬p → Returns n) := by
  by_cases h : p
  · simp [h]
  · simp [h]

theorem Returns.adapt {ε' : Type} {f : ε → ε'} {m : Traced τ ε α} (hm : Returns m) : Returns (adapt f m) := by
  obtain ⟨a, t, ha⟩ := hm
  exact ⟨a, t, run_adapt_eq_ok.mpr ha⟩

/-- Every trace that the computation can leave behind has the property. -/
def Leaves (P : List τ → Prop) (m : Traced τ ε α) : Prop := ∀ a t, m.run = .ok (a, t) → P t

/-- A property of traces that goes over to their concatenation -/
structure Additive (P : List τ → Prop) : Prop where
  nil : P []
  append : ∀ t u, P t → P u → P (t ++ u)

section
variable {P : List τ → Prop} {m n : Traced τ ε α} {f : α → Traced τ ε β}

theorem Leaves.pure (h : Additive P) (a : α) : Leaves P (Pure.pure a : Traced τ ε α) := by
  intro b t ht
  obtain ⟨-, rfl⟩ := run_pure_eq_ok.mp ht
  exact h.nil

theorem Leaves.lift (h : Additive P) (x : Except ε α) : Leaves P (lift x : Traced τ ε α) := by
  intro b t ht
  obtain ⟨-, rfl⟩ := run_lift_eq_ok.mp ht
  exact h.nil

theorem Leaves.emits {t : List τ} (h : P t) : Leaves P (emits t : Traced τ ε Unit) := by
  intro b u hu
  obtain rfl := run_emits_eq_ok.mp hu
  exact h

theorem Leaves.bind (h : Additive P) (hm : Leaves P m) (hf : ∀ a, Leaves P (f a)) : Leaves P (m >>= f) := by
  intro b t ht
  obtain ⟨a, t₁, t₂, ha, hb, rfl⟩ := run_bind_eq_ok.mp ht
  exact h.append t₁ t₂ (hm a t₁ ha) (hf a b t₂ hb)

theorem Leaves.ite {p : Prop} [Decidable p] (hm : p → Leaves P m) (hn : ¬p → Leaves P n) :
    Leaves P (if p then m else n) := by
  split
  · rename_i h
    exact hm h
  · rename_i h
    exact hn h

end

theorem additive_heldAfter [DecidableEq κ] (held : Finset κ) :
    Additive fun t : List (Access κ) => heldAfter held t = some held where
  nil := rfl
  append := fun _ _ ht hu => (heldAfter_append_of ht).trans hu

section
variable [DecidableEq κ] (view : τ → Option (Access κ))

/-- Whenever the computation returns, it has acquired and released in order, and
its value and what is then held are as stated. -/
def Ends (held : Finset κ) (m : Traced τ ε α) (Q : α → Finset κ → Prop) : Prop :=
  ∀ a t, m.run = .ok (a, t) → ∃ held', heldAfter held (t.filterMap view) = some held' ∧ Q a held'

variable {view} {held held' : Finset κ} {m n : Traced τ ε α} {f : α → Traced τ ε β} {g : Unit → Traced τ ε β}
  {k : κ} {e : τ} {R : α → Finset κ → Prop} {Q : β → Finset κ → Prop}

/-- What a computation has acquired under its own names, it has acquired under others
beside what is held already. -/
theorem Ends.retag {ι : Type} [DecidableEq ι] {n : ι → κ} (hn : Function.Injective n) (hfree : ∀ i, n i ∉ held)
    {own : Finset ι} {m : Traced (Access ι) ε α} {Q : α → Finset ι → Prop} (h : Ends some own m Q) :
    Ends some (held ∪ own.image n) (Traces.retag (.map n) m) fun a held' =>
      ∃ own', held' = held ∪ own'.image n ∧ Q a own' := by
  intro a u hu
  obtain ⟨t, ht, rfl⟩ := run_retag_eq_ok.mp hu
  obtain ⟨own', hown, hQ⟩ := h a t ht
  rw [List.filterMap_some] at hown
  rw [List.filterMap_some]
  exact ⟨_, heldAfter_map hn hfree hown, own', rfl, hQ⟩

theorem Ends.emitted {R : Unit → Finset κ → Prop} {t : List τ} (ht : heldAfter held (t.filterMap view) = some held')
    (h : R () held') : Ends view held (Traces.emits t : Traced τ ε Unit) R := by
  intro b u hu
  obtain rfl := run_emits_eq_ok.mp hu
  exact ⟨held', ht, h⟩

theorem Ends.acquired {R : Unit → Finset κ → Prop} (hview : view e = some (.acquire k)) (hk : k ∉ held)
    (h : R () (insert k held)) : Ends view held (emit e : Traced τ ε Unit) R := by
  apply Ends.emitted _ h
  rw [List.filterMap_cons_some hview, heldAfter_acquire hk]
  rfl

theorem Ends.released {R : Unit → Finset κ → Prop} (hview : view e = some (.release k)) (hk : k ∈ held)
    (h : R () (held.erase k)) : Ends view held (emit e : Traced τ ε Unit) R := by
  apply Ends.emitted _ h
  rw [List.filterMap_cons_some hview, heldAfter_release hk]
  rfl

/-- What the computation returns is what it returns without the trace. -/
theorem Ends.erased (h : Ends view held m R) : Ends view held m fun a held' => R a held' ∧ erase m = .ok a := by
  intro a t ht
  obtain ⟨held', hheld, ha⟩ := h a t ht
  exact ⟨held', hheld, ha, erase_ok ht⟩

theorem Ends.mono {R' : α → Finset κ → Prop} (h : Ends view held m R) (hR : ∀ a held', R a held' → R' a held') :
    Ends view held m R' := by
  intro a t ht
  obtain ⟨held', hheld, ha⟩ := h a t ht
  exact ⟨held', hheld, hR a held' ha⟩

theorem Ends.adapt {ε' : Type} {f : ε → ε'} (h : Ends view held m R) : Ends view held (adapt f m) R := by
  intro a t ht
  exact h a t (run_adapt_eq_ok.mp ht)

theorem Returns.after {view : τ → Option (Access κ)} (hm : Returns m) (hends : Ends view held m R)
    (hf : ∀ a held', R a held' → Returns (f a)) : Returns (m >>= f) := by
  obtain ⟨a, t, ha⟩ := hm
  obtain ⟨held', -, hR⟩ := hends a t ha
  exact Returns.bind ⟨a, t, ha⟩ fun b hb => Except.ok.inj ((erase_ok ha).symm.trans hb) ▸ hf a held' hR

/-- A computation that only uses what is held ends as it does without the trace. -/
theorem Leaves.ends {P : List τ → Prop} (h : Leaves P m)
    (hP : ∀ t, P t → heldAfter held (t.filterMap view) = some held) :
    Ends view held m fun a held' => held' = held ∧ erase m = .ok a :=
  fun a t ht => ⟨held, hP t (h a t ht), rfl, erase_ok ht⟩

theorem Ends.pure {a : α} (h : R a held) : Ends view held (Pure.pure a : Traced τ ε α) R := by
  intro b t ht
  obtain ⟨rfl, rfl⟩ := run_pure_eq_ok.mp ht
  exact ⟨held, rfl, h⟩

theorem Ends.bind (hm : Ends view held m R) (hf : ∀ a held', R a held' → Ends view held' (f a) Q) :
    Ends view held (m >>= f) Q := by
  intro b t ht
  obtain ⟨a, t₁, t₂, ha, hb, rfl⟩ := run_bind_eq_ok.mp ht
  obtain ⟨held₁, h₁, hR⟩ := hm a t₁ ha
  rw [List.filterMap_append, heldAfter_append_of h₁]
  exact hf a held₁ hR b t₂ hb

theorem Ends.lift {x : Except ε α} (h : ∀ a, x = .ok a → R a held) :
    Ends view held (Traces.lift x : Traced τ ε α) R := by
  intro a t ht
  obtain ⟨ha, rfl⟩ := run_lift_eq_ok.mp ht
  exact ⟨held, rfl, h a ha⟩

theorem Ends.lift_bind {x : Except ε α} (h : ∀ a, x = .ok a → Ends view held (f a) Q) :
    Ends view held (Traces.lift x >>= f) Q := by
  apply (Ends.lift (R := fun a held' => x = .ok a ∧ held' = held) fun a ha => ⟨ha, rfl⟩).bind
  rintro a _ ⟨ha, rfl⟩
  exact h a ha

theorem Ends.ite {p : Prop} [Decidable p] (hm : p → Ends view held m R) (hn : ¬p → Ends view held n R) :
    Ends view held (if p then m else n) R := by
  split
  · rename_i h
    exact hm h
  · rename_i h
    exact hn h

theorem Ends.emits {t : List τ} (ht : heldAfter held (t.filterMap view) = some held') (h : Ends view held' (g ()) Q) :
    Ends view held (Traces.emits t >>= g) Q := by
  intro b u hu
  obtain ⟨a, t₁, t₂, ha, hb, rfl⟩ := run_bind_eq_ok.mp hu
  obtain rfl := run_emits_eq_ok.mp ha
  rw [List.filterMap_append, heldAfter_append_of ht]
  exact h b t₂ hb

theorem Ends.acquire (hview : view e = some (.acquire k)) (hk : k ∉ held)
    (h : Ends view (insert k held) (g ()) Q) : Ends view held (emit e >>= g) Q := by
  apply Ends.emits _ h
  rw [List.filterMap_cons_some hview, heldAfter_acquire hk]
  rfl

theorem Ends.release (hview : view e = some (.release k)) (hk : k ∈ held)
    (h : Ends view (held.erase k) (g ()) Q) : Ends view held (emit e >>= g) Q := by
  apply Ends.emits _ h
  rw [List.filterMap_cons_some hview, heldAfter_release hk]
  rfl

end

end TpceDrv.Library.Traces
