import Mathlib.Data.Finset.Basic
import Mathlib.Data.Finset.Dedup
import Mathlib.Data.Finset.Erase
import Mathlib.Data.Finset.Image
import Mathlib.Data.Finset.SDiff
import Mathlib.Data.Finset.Lattice.Lemmas
import Mathlib.Tactic.Tauto

namespace TpceDrv.Library.Holdings

/-- What a computation does with the things it has to hold -/
inductive Access (κ : Type)
  | acquire (k : κ)
  | use (k : κ)
  | release (k : κ)
  deriving DecidableEq

variable {κ : Type} [DecidableEq κ]

/-- What is held behind a trace. There is nothing behind one that acquires what is
held, or uses or releases what is not. -/
def heldAfter : Finset κ → List (Access κ) → Option (Finset κ)
  | held, [] => some held
  | held, .acquire k :: t => if k ∈ held then none else heldAfter (insert k held) t
  | held, .use k :: t => if k ∈ held then heldAfter held t else none
  | held, .release k :: t => if k ∈ held then heldAfter (held.erase k) t else none

variable {held held' : Finset κ} {k : κ} {t u : List (Access κ)}

theorem heldAfter_acquire (h : k ∉ held) : heldAfter held (.acquire k :: t) = heldAfter (insert k held) t :=
  if_neg h

theorem heldAfter_use (h : k ∈ held) : heldAfter held (.use k :: t) = heldAfter held t := if_pos h

theorem heldAfter_release (h : k ∈ held) : heldAfter held (.release k :: t) = heldAfter (held.erase k) t :=
  if_pos h

theorem heldAfter_append (held : Finset κ) (t u : List (Access κ)) :
    heldAfter held (t ++ u) = (heldAfter held t).bind fun held' => heldAfter held' u := by
  induction t generalizing held with
  | nil => rfl
  | cons e t ih =>
      cases e with
      | acquire k | use k | release k =>
          simp only [List.cons_append, heldAfter]
          split
          · first | rfl | apply ih
          · first | rfl | apply ih

theorem heldAfter_append_of (h : heldAfter held t = some held') :
    heldAfter held (t ++ u) = heldAfter held' u := by
  rw [heldAfter_append, h]
  rfl

/-- Using what is held changes nothing. -/
theorem heldAfter_uses (h : ∀ e ∈ t, ∃ k ∈ held, e = .use k) : heldAfter held t = some held := by
  induction t with
  | nil => rfl
  | cons e t ih =>
      obtain ⟨k, hk, rfl⟩ := h e List.mem_cons_self
      rw [heldAfter_use hk]
      apply ih
      intro e he
      exact h e (List.mem_cons_of_mem _ he)

theorem heldAfter_acquires {ks : List κ} (hnodup : ks.Nodup) (hfresh : ∀ k ∈ ks, k ∉ held) :
    heldAfter held (ks.map .acquire) = some (held ∪ ks.toFinset) := by
  induction ks generalizing held with
  | nil => simp [heldAfter]
  | cons k ks ih =>
      obtain ⟨hk, hks⟩ := List.nodup_cons.mp hnodup
      rw [List.map_cons, heldAfter_acquire (hfresh k List.mem_cons_self), ih hks]
      · congr 1
        ext x
        simp only [Finset.mem_union, Finset.mem_insert, List.mem_toFinset, List.mem_cons]
        tauto
      · intro x hx hmem
        rcases Finset.mem_insert.mp hmem with rfl | hmem
        · exact hk hx
        · exact hfresh x (List.mem_cons_of_mem _ hx) hmem

theorem heldAfter_releases {ks : List κ} (hnodup : ks.Nodup) (hheld : ∀ k ∈ ks, k ∈ held) :
    heldAfter held (ks.map .release) = some (held \ ks.toFinset) := by
  induction ks generalizing held with
  | nil => simp [heldAfter]
  | cons k ks ih =>
      obtain ⟨hk, hks⟩ := List.nodup_cons.mp hnodup
      rw [List.map_cons, heldAfter_release (hheld k List.mem_cons_self), ih hks]
      · congr 1
        ext x
        simp only [Finset.mem_sdiff, Finset.mem_erase, List.mem_toFinset, List.mem_cons]
        tauto
      · intro x hx
        refine Finset.mem_erase.mpr ⟨?_, hheld x (List.mem_cons_of_mem _ hx)⟩
        rintro rfl
        exact hk hx

/-- Everything is acquired as often as it is released and left over. -/
theorem count_of_heldAfter (h : heldAfter held t = some held') (k : κ) :
    t.count (.acquire k) + (if k ∈ held then 1 else 0) =
      t.count (.release k) + (if k ∈ held' then 1 else 0) := by
  induction t generalizing held with
  | nil =>
      cases h
      rfl
  | cons e t ih =>
      cases e with
      | acquire j =>
          simp only [heldAfter] at h
          split at h
          · cases h
          · rename_i hj
            have hcount := ih h
            by_cases hk : j = k
            · subst hk
              simp [hj] at hcount ⊢
              omega
            · have hne : k ≠ j := fun heq => hk heq.symm
              simpa [List.count_cons, hk, hne] using hcount
      | use j =>
          simp only [heldAfter] at h
          split at h
          · simpa [List.count_cons] using ih h
          · cases h
      | release j =>
          simp only [heldAfter] at h
          split at h
          · rename_i hj
            have hcount := ih h
            by_cases hk : j = k
            · subst hk
              simp [hj] at hcount ⊢
              omega
            · have hne : k ≠ j := fun heq => hk heq.symm
              simpa [List.count_cons, hk, hne] using hcount
          · cases h

/-- The same access to a thing under its name among others -/
def Access.map {ι : Type} (f : ι → κ) : Access ι → Access κ
  | .acquire i => .acquire (f i)
  | .use i => .use (f i)
  | .release i => .release (f i)

/-- A trace does under other names what it does by itself, beside things that have
none of these names. -/
theorem heldAfter_map {ι : Type} [DecidableEq ι] {f : ι → κ} (hf : Function.Injective f) {own own' : Finset ι}
    {t : List (Access ι)} (hfree : ∀ i, f i ∉ held) (h : heldAfter own t = some own') :
    heldAfter (held ∪ own.image f) (t.map (.map f)) = some (held ∪ own'.image f) := by
  have hmem : ∀ {s : Finset ι} {i : ι}, f i ∈ held ∪ s.image f ↔ i ∈ s := by
    intro s i
    rw [Finset.mem_union, Finset.mem_image]
    constructor
    · rintro (hi | ⟨j, hj, heq⟩)
      · exact absurd hi (hfree i)
      · exact hf heq ▸ hj
    · exact fun hi => .inr ⟨i, hi, rfl⟩
  induction t generalizing own with
  | nil =>
      cases h
      rfl
  | cons e t ih =>
      cases e with
      | acquire i =>
          by_cases hi : i ∈ own
          · rw [heldAfter, if_pos hi] at h
            cases h
          · rw [heldAfter_acquire hi] at h
            rw [List.map_cons, Access.map, heldAfter_acquire (mt hmem.mp hi), ← ih h, Finset.image_insert,
              Finset.union_insert]
      | use i =>
          by_cases hi : i ∈ own
          · rw [heldAfter_use hi] at h
            rw [List.map_cons, Access.map, heldAfter_use (hmem.mpr hi), ih h]
          · rw [heldAfter, if_neg hi] at h
            cases h
      | release i =>
          by_cases hi : i ∈ own
          · rw [heldAfter_release hi] at h
            have herase : (held ∪ own.image f).erase (f i) = held ∪ (own.erase i).image f := by
              rw [Finset.erase_union_distrib, Finset.erase_eq_of_notMem (hfree i), Finset.image_erase hf]
            rw [List.map_cons, Access.map, heldAfter_release (hmem.mpr hi), herase, ih h]
          · rw [heldAfter, if_neg hi] at h
            cases h

end TpceDrv.Library.Holdings
