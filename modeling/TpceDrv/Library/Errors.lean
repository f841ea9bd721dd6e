namespace TpceDrv.Library.Errors

variable {ε α β : Type} {P Q : ε → Prop}

/-- Every error that the computation can end with has the property. -/
def Raises (P : ε → Prop) (x : Except ε α) : Prop := ∀ e, x = .error e → P e

theorem Raises.ok (a : α) : Raises P (Except.ok a) := fun _ h => by cases h

theorem Raises.pure (a : α) : Raises P (Pure.pure a : Except ε α) := Raises.ok a

theorem Raises.error {e : ε} (h : P e) : Raises P (Except.error e : Except ε α) := by
  intro e' he
  cases he
  exact h

theorem Raises.bind {x : Except ε α} {f : α → Except ε β} (hx : Raises P x) (hf : ∀ a, x = .ok a → Raises P (f a)) :
    Raises P (x >>= f) := by
  cases x with
  | error e =>
      intro e' he
      cases he
      exact hx e rfl
  | ok a => exact hf a rfl

theorem Raises.ite {p : Prop} [Decidable p] {x y : Except ε α} (hx : p → Raises P x) (hy : ¬p → Raises P y) :
    Raises P (if p then x else y) := by
  split
  · rename_i h
    exact hx h
  · rename_i h
    exact hy h

theorem Raises.mono {x : Except ε α} (h : Raises P x) (hPQ : ∀ e, P e → Q e) : Raises Q x :=
  fun e he => hPQ e (h e he)

/-- What can come out of the computation: an error of the one kind, or a value of
the other -/
structure Yields (P : ε → Prop) (R : α → Prop) (x : Except ε α) : Prop where
  raises : Raises P x
  returns : ∀ a, x = .ok a → R a

section
variable {R : α → Prop} {S : β → Prop}

theorem Yields.ok {a : α} (h : R a) : Yields P R (Except.ok a : Except ε α) :=
  ⟨Raises.ok a, fun b hb => by cases hb; exact h⟩

theorem Yields.pure {a : α} (h : R a) : Yields P R (Pure.pure a : Except ε α) := Yields.ok h

theorem Yields.error {e : ε} (h : P e) : Yields P R (Except.error e : Except ε α) :=
  ⟨Raises.error h, fun b hb => by cases hb⟩

theorem Yields.bind {x : Except ε α} {f : α → Except ε β} (hx : Yields P R x)
    (hf : ∀ a, x = .ok a → R a → Yields P S (f a)) : Yields P S (x >>= f) := by
  cases x with
  | error e =>
      exact ⟨fun e' he' => by cases he'; exact hx.raises e rfl, fun b hb => by cases hb⟩
  | ok a => exact hf a rfl (hx.returns a rfl)

theorem Yields.ite {p : Prop} [Decidable p] {x y : Except ε α} (hx : p → Yields P R x) (hy : ¬p → Yields P R y) :
    Yields P R (if p then x else y) := by
  split
  · rename_i h
    exact hx h
  · rename_i h
    exact hy h

theorem Yields.mono {R' : α → Prop} {x : Except ε α} (h : Yields P R x) (hR : ∀ a, R a → R' a) : Yields P R' x :=
  ⟨h.raises, fun a ha => hR a (h.returns a ha)⟩

end

/-- The one computation is the other, unless it ends before in an error of the kind. -/
def Curtails (P : ε → Prop) (x y : Except ε α) : Prop := x = y ∨ ∃ e, P e ∧ x = .error e

section
variable {x y : Except ε α} {f g : α → Except ε β}

theorem Curtails.refl (P : ε → Prop) (x : Except ε α) : Curtails P x x := .inl rfl

theorem Curtails.of_eq (h : x = y) : Curtails P x y := .inl h

theorem Curtails.error {e : ε} (h : P e) (y : Except ε α) : Curtails P (.error e) y := .inr ⟨e, h, rfl⟩

theorem Curtails.bind (h : Curtails P x y) (hf : ∀ a, y = .ok a → Curtails P (f a) (g a)) :
    Curtails P (x >>= f) (y >>= g) := by
  obtain rfl | ⟨e, he, rfl⟩ := h
  · cases x with
    | error e => exact .refl P _
    | ok a => exact hf a rfl
  · exact .error he _

theorem Curtails.ite {p : Prop} [Decidable p] {x' y' : Except ε α} (hx : Curtails P x x') (hy : Curtails P y y') :
    Curtails P (if p then x else y) (if p then x' else y') := by
  split
  · exact hx
  · exact hy

theorem Curtails.map (h : Curtails P x y) (k : α → β) : Curtails P (x.map k) (y.map k) := by
  obtain rfl | ⟨e, he, rfl⟩ := h
  · exact .refl P _
  · exact .error he _

/-- The one computation stands behind the map `k` of its values. -/
theorem Curtails.map_bind {γ δ : Type} {y : Except ε γ} {k : α → γ} (hx : Curtails P (x.map k) y) {h : β → δ}
    {g : γ → Except ε δ} (hf : ∀ a, Curtails P ((f a).map h) (g (k a))) :
    Curtails P ((x >>= f).map h) (y >>= g) := by
  cases x with
  | error e =>
      obtain rfl | ⟨e', he, herror⟩ := hx
      · exact .refl P _
      · cases herror
        exact .error he _
  | ok a =>
      obtain rfl | ⟨e', -, herror⟩ := hx
      · exact hf a
      · cases herror

theorem Curtails.map_ite {p : Prop} [Decidable p] {x' : Except ε α} {y y' : Except ε β} {k : α → β}
    (hx : Curtails P (x.map k) y) (hx' : Curtails P (x'.map k) y') :
    Curtails P ((if p then x else x').map k) (if p then y else y') := by
  split
  · exact hx
  · exact hx'

/-- What the one returns, the other returns. -/
theorem Curtails.returns {a : α} (h : Curtails P x y) (hx : x = .ok a) : y = .ok a := by
  obtain rfl | ⟨e, -, rfl⟩ := h
  · exact hx
  · cases hx

theorem Curtails.raises (h : Curtails P x y) (hPQ : ∀ e, P e → Q e) (hy : Raises Q y) : Raises Q x := by
  obtain rfl | ⟨e, he, rfl⟩ := h
  · exact hy
  · exact .error (hPQ e he)

end

end TpceDrv.Library.Errors
