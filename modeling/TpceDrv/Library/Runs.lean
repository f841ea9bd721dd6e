import Mathlib.Logic.Relation

namespace TpceDrv.Library.Runs

variable {S O : Type} (step : S → O → Option S)

def run (s : S) : List O → Option S
  | [] => some s
  | o :: os => (step s o).bind fun s' => run s' os

/-- `I` holds in every state that the run visits, the first one included. -/
def Always (I : S → Prop) (s : S) : List O → Prop
  | [] => I s
  | o :: os => I s ∧ ∀ s', step s o = some s' → Always I s' os

/-- Every step that the run takes meets `P` in the state where it is taken.
A step without a successor ends the run and owes nothing. -/
def Along (P : S → O → Prop) (s : S) : List O → Prop
  | [] => True
  | o :: os => ∀ s', step s o = some s' → P s o ∧ Along P s' os

variable {step}

theorem run_total (f : S → O → S) (s : S) (os : List O) :
    run (fun s o => some (f s o)) s os = some (os.foldl f s) := by
  induction os generalizing s with
  | nil => rfl
  | cons o os ih => exact ih (f s o)

theorem run_append (s : S) (os os' : List O) :
    run step s (os ++ os') = (run step s os).bind fun t => run step t os' := by
  induction os generalizing s with
  | nil => rfl
  | cons o os ih =>
      rw [List.cons_append, run, run]
      cases step s o with
      | none => rfl
      | some t => exact ih t

instance Along.decidable {P : S → O → Prop} [∀ s o, Decidable (P s o)] :
    ∀ s os, Decidable (Along step P s os)
  | _, [] => .isTrue True.intro
  | s, o :: os =>
      match h : step s o with
      | none => .isTrue fun s' hn => absurd (h.symm.trans hn) (Option.some_ne_none s').symm
      | some s' =>
          have : Decidable (Along step P s' os) := Along.decidable s' os
          decidable_of_iff (P s o ∧ Along step P s' os)
            ⟨fun hp _ hn => Option.some.inj (h.symm.trans hn) ▸ hp, fun hp => hp s' h⟩

instance Always.decidable {I : S → Prop} [∀ s, Decidable (I s)] : ∀ s os, Decidable (Always step I s os)
  | s, [] => inferInstanceAs (Decidable (I s))
  | s, o :: os =>
      match h : step s o with
      | none => decidable_of_iff (I s)
          ⟨fun hi => ⟨hi, fun s' hn => absurd (h.symm.trans hn) (Option.some_ne_none s').symm⟩, And.left⟩
      | some s' =>
          have : Decidable (Always step I s' os) := Always.decidable s' os
          decidable_of_iff (I s ∧ Always step I s' os)
            ⟨fun hi => ⟨hi.1, fun _ hn => Option.some.inj (h.symm.trans hn) ▸ hi.2⟩, fun hi => ⟨hi.1, hi.2 s' h⟩⟩

theorem Always.head {I : S → Prop} {s : S} {os : List O} (h : Always step I s os) : I s := by
  cases os with
  | nil => exact h
  | cons o os => exact h.1

/-- `Always` speaks of the states reached by the prefixes of the run. -/
theorem always_iff_prefix {I : S → Prop} {s : S} {os : List O} :
    Always step I s os ↔ ∀ pre post, os = pre ++ post → ∀ s', run step s pre = some s' → I s' := by
  induction os generalizing s with
  | nil =>
      constructor
      · intro h pre post he s' hs
        obtain ⟨rfl, rfl⟩ : pre = [] ∧ post = [] := by simpa using he.symm
        cases hs
        exact h
      · intro h
        exact h [] [] rfl s rfl
  | cons o os ih =>
      constructor
      · intro h pre post he s' hs
        cases pre with
        | nil => cases hs; exact h.1
        | cons o' pre =>
            obtain ⟨rfl, rfl⟩ : o = o' ∧ os = pre ++ post := by simpa using he
            cases hn : step s o with
            | none => simp [run, hn] at hs
            | some t =>
                simp only [run, hn, Option.bind_some] at hs
                exact ih.mp (h.2 t hn) pre post rfl s' hs
      · intro h
        refine ⟨h [] _ rfl s rfl, fun t hn => ih.mpr fun pre post he s' hs => ?_⟩
        exact h (o :: pre) post (by simp [he]) s' (by simpa [run, hn] using hs)

/-- The invariant rule: what every admitted step preserves holds all along
an admitted run. -/
theorem always_of_along {K : S → Prop} {P : S → O → Prop}
    (hpres : ∀ s o s', K s → P s o → step s o = some s' → K s') {s : S} {os : List O}
    (hs : K s) (h : Along step P s os) : Always step K s os := by
  induction os generalizing s with
  | nil => exact hs
  | cons o os ih =>
      refine ⟨hs, fun s' hn => ?_⟩
      obtain ⟨hp, ht⟩ := h s' hn
      exact ih (hpres s o s' hs hp hn) ht

theorem always_of_step {K : S → Prop} (hpres : ∀ s o s', K s → step s o = some s' → K s') {s : S} (hs : K s)
    (os : List O) : Always step K s os := by
  induction os generalizing s with
  | nil => exact hs
  | cons o os ih => exact ⟨hs, fun s' hn => ih (hpres s o s' hs hn)⟩

/-- What holds where an admitted run ends -/
theorem holds_after_along {K : S → Prop} {P : S → O → Prop}
    (hpres : ∀ s o s', K s → P s o → step s o = some s' → K s') {s t : S} {os : List O}
    (hs : K s) (h : Along step P s os) (hr : run step s os = some t) : K t :=
  always_iff_prefix.mp (always_of_along hpres hs h) os [] (List.append_nil os).symm t hr

theorem along_append {P : S → O → Prop} {s : S} {os os' : List O} :
    Along step P s (os ++ os') ↔ Along step P s os ∧ ∀ t, run step s os = some t → Along step P t os' := by
  induction os generalizing s with
  | nil =>
      constructor
      · exact fun h => ⟨True.intro, fun t ht => Option.some.inj ht ▸ h⟩
      · exact fun h => h.2 s rfl
  | cons o os ih =>
      constructor
      · intro h
        refine ⟨fun s' hn => ⟨(h s' hn).1, (ih.mp (h s' hn).2).1⟩, fun t ht => ?_⟩
        obtain ⟨s', hn, hr⟩ := Option.bind_eq_some_iff.mp ht
        exact (ih.mp (h s' hn).2).2 t hr
      · rintro ⟨h, hrest⟩ s' hn
        refine ⟨(h s' hn).1, ih.mpr ⟨(h s' hn).2, fun t ht => hrest t ?_⟩⟩
        rw [run, hn]
        exact ht

theorem along_of_forall {P : S → O → Prop} {s : S} {os : List O} (h : ∀ o ∈ os, ∀ s, P s o) :
    Along step P s os := by
  induction os generalizing s with
  | nil => exact True.intro
  | cons o os ih =>
      exact fun s' _ => ⟨h o List.mem_cons_self s, ih fun o' ho => h o' (List.mem_cons_of_mem o ho)⟩

theorem Along.and {P Q : S → O → Prop} {s : S} {os : List O} (hp : Along step P s os) (hq : Along step Q s os) :
    Along step (fun s o => P s o ∧ Q s o) s os := by
  induction os generalizing s with
  | nil => exact True.intro
  | cons o os ih =>
      intro s' hn
      exact ⟨⟨(hp s' hn).1, (hq s' hn).1⟩, ih (hp s' hn).2 (hq s' hn).2⟩

theorem Along.mono {P Q : S → O → Prop} (hPQ : ∀ s o, P s o → Q s o) {s : S} {os : List O}
    (h : Along step P s os) : Along step Q s os := by
  induction os generalizing s with
  | nil => exact True.intro
  | cons o os ih =>
      intro s' hn
      exact ⟨hPQ s o (h s' hn).1, ih (h s' hn).2⟩

theorem Always.mono {I J : S → Prop} (hIJ : ∀ s, I s → J s) {s : S} {os : List O}
    (h : Always step I s os) : Always step J s os := by
  induction os generalizing s with
  | nil => exact hIJ s h
  | cons o os ih => exact ⟨hIJ s h.1, fun s' hn => ih (h.2 s' hn)⟩

/-- The exact condition for an invariant along a run. A stronger invariant
`K` is kept by the steps that meet `P`, and a step that breaks `P` shows at
once in the state it leads to. -/
theorem always_iff_along {K I : S → Prop} {P : S → O → Prop} (hKI : ∀ s, K s → I s)
    (hpres : ∀ s o s', K s → P s o → step s o = some s' → K s')
    (hshow : ∀ s o s', K s → step s o = some s' → I s' → P s o)
    {s : S} (os : List O) (hs : K s) : Always step I s os ↔ Along step P s os := by
  refine ⟨fun h => ?_, fun h => (always_of_along hpres hs h).mono hKI⟩
  induction os generalizing s with
  | nil => exact True.intro
  | cons o os ih =>
      intro s' hn
      have hp := hshow s o s' hs hn (h.2 s' hn).head
      exact ⟨hp, ih (hpres s o s' hs hp hn) (h.2 s' hn)⟩

theorem along_congr {K : S → Prop} {P Q : S → O → Prop}
    (hpres : ∀ s o s', K s → step s o = some s' → K s') (hPQ : ∀ s o, K s → (P s o ↔ Q s o))
    {s : S} (os : List O) (hs : K s) : Along step P s os ↔ Along step Q s os := by
  induction os generalizing s with
  | nil => exact Iff.rfl
  | cons o os ih =>
      refine forall_congr' fun s' => forall_congr' fun hn => ?_
      exact and_congr (hPQ s o hs) (ih (hpres s o s' hs hn))

theorem Along.at_step {P : S → O → Prop} {s t u : S} {o : O} {os pre post : List O}
    (h : Along step P s os) (he : os = pre ++ o :: post) (hr : run step s pre = some t)
    (hn : step t o = some u) : P t o := by
  subst he
  induction pre generalizing s with
  | nil =>
      cases hr
      exact (h u hn).1
  | cons o' pre ih =>
      cases hs : step s o' with
      | none => simp [run, hs] at hr
      | some s' =>
          simp only [run, hs, Option.bind_some] at hr
          exact ih hr (h s' hs).2

end TpceDrv.Library.Runs
