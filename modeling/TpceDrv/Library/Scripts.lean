import Mathlib.Data.Int.Notation
import Mathlib.Logic.Basic

namespace TpceDrv.Library.Scripts

variable {ε α σ : Type} {perform : α → σ → Except ε (ℤ × σ)} {as : List α} {s t : σ}

/-- Actions in turn, up to the first one with a status other than 0 -/
def performAll (perform : α → σ → Except ε (ℤ × σ)) : List α → σ → Except ε (ℤ × σ)
  | [], s => pure (0, s)
  | a :: rest, s => do
      let (err, s) ← perform a s
      if err ≠ 0 then pure (err, s) else performAll perform rest s

theorem performAll_cons (a : α) (rest : List α) (s : σ) : performAll perform (a :: rest) s =
    perform a s >>= fun r => if r.1 ≠ 0 then pure r else performAll perform rest r.2 := rfl

theorem performAll_single (a : α) (s : σ) : performAll perform [a] s = perform a s := by
  simp only [performAll]
  cases perform a s with
  | error e => rfl
  | ok r =>
      change (if r.1 ≠ 0 then pure (r.1, r.2) else pure (0, r.2)) = Except.ok r
      split
      · rfl
      · rename_i hzero
        rw [← not_ne_iff.mp hzero]
        rfl

theorem performAll_append (as bs : List α) (s : σ) : performAll perform (as ++ bs) s =
    performAll perform as s >>= fun r => if r.1 ≠ 0 then pure r else performAll perform bs r.2 := by
  induction as generalizing s with
  | nil => rfl
  | cons a as ih =>
      simp only [List.cons_append, performAll]
      cases perform a s with
      | error e => rfl
      | ok r =>
          change (if r.1 ≠ 0 then _ else _) = (if r.1 ≠ 0 then _ else _) >>= _
          split
          · rename_i hne
            exact (if_pos hne).symm
          · exact ih r.2

theorem performAll_cons_ok {a : α} {r : ℤ × σ} : performAll perform (a :: as) s = .ok r ↔
    ∃ u, perform a s = .ok u ∧ (u.1 ≠ 0 ∧ u = r ∨ u.1 = 0 ∧ performAll perform as u.2 = .ok r) := by
  rw [performAll_cons]
  cases perform a s with
  | error e => exact iff_of_false (fun h => nomatch h) fun ⟨u, hu, _⟩ => nomatch hu
  | ok u =>
      change (if u.1 ≠ 0 then pure u else performAll perform as u.2) = .ok r ↔ _
      constructor
      · intro h
        refine ⟨u, rfl, ?_⟩
        by_cases hzero : u.1 = 0
        · rw [if_neg (not_not.mpr hzero)] at h
          exact .inr ⟨hzero, h⟩
        · rw [if_pos hzero] at h
          exact .inl ⟨hzero, Except.ok.inj h⟩
      · rintro ⟨_, ⟨⟩, ⟨hne, rfl⟩ | ⟨hzero, h⟩⟩
        · exact if_pos hne
        · exact (if_neg (not_not.mpr hzero)).trans h

/-- The rule for a script: what holds of the actions that remain and the state holds
again behind each action, and the result follows where the script ends. -/
theorem performAll_rule {I : List α → σ → Prop} {Q : ℤ × σ → Prop} (hnil : ∀ s, I [] s → Q (0, s))
    (hstep : ∀ a rest s, I (a :: rest) s → ∃ r, perform a s = .ok r ∧ (r.1 ≠ 0 → Q r) ∧ (r.1 = 0 → I rest r.2))
    (h : I as s) : ∃ r, performAll perform as s = .ok r ∧ Q r := by
  induction as generalizing s with
  | nil => exact ⟨(0, s), rfl, hnil s h⟩
  | cons a rest ih =>
      obtain ⟨r, hr, hstop, hon⟩ := hstep a rest s h
      by_cases hzero : r.1 = 0
      · obtain ⟨r', hr', hQ⟩ := ih (hon hzero)
        exact ⟨r', performAll_cons_ok.mpr ⟨r, hr, .inr ⟨hzero, hr'⟩⟩, hQ⟩
      · exact ⟨r, performAll_cons_ok.mpr ⟨r, hr, .inl ⟨hzero, rfl⟩⟩, hstop hzero⟩

/-- The rule for two runs of one script that stop at the same action -/
theorem performAll_lockstep {R : List α → σ → σ → Prop} {Q : ℤ × σ → ℤ × σ → Prop}
    (hnil : ∀ s t, R [] s t → Q (0, s) (0, t))
    (hstep : ∀ a rest s t, R (a :: rest) s t → ∃ r u, perform a s = .ok r ∧ perform a t = .ok u ∧ r.1 = u.1 ∧
      (r.1 ≠ 0 → Q r u) ∧ (r.1 = 0 → R rest r.2 u.2))
    (h : R as s t) : ∃ r u, performAll perform as s = .ok r ∧ performAll perform as t = .ok u ∧ Q r u := by
  induction as generalizing s t with
  | nil => exact ⟨(0, s), (0, t), rfl, rfl, hnil s t h⟩
  | cons a rest ih =>
      obtain ⟨r, u, hr, hu, heq, hstop, hon⟩ := hstep a rest s t h
      by_cases hzero : r.1 = 0
      · obtain ⟨r', u', hr', hu', hQ⟩ := ih (hon hzero)
        exact ⟨r', u', performAll_cons_ok.mpr ⟨r, hr, .inr ⟨hzero, hr'⟩⟩,
          performAll_cons_ok.mpr ⟨u, hu, .inr ⟨heq ▸ hzero, hu'⟩⟩, hQ⟩
      · exact ⟨r, u, performAll_cons_ok.mpr ⟨r, hr, .inl ⟨hzero, rfl⟩⟩,
          performAll_cons_ok.mpr ⟨u, hu, .inl ⟨heq ▸ hzero, rfl⟩⟩, hstop hzero⟩

end TpceDrv.Library.Scripts
