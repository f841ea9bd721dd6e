import TpceDrv.Library.Traces

namespace TpceDrv.Library.Stacks

open Holdings Traces

variable {τ ε κ β : Type} [DecidableEq κ] {held : Finset κ} {ks ks' : List κ} {k : κ}

/-- What is held below, with the list on top of it, the last one that was acquired first -/
def stacked (ks : List κ) (held : Finset κ) : Finset κ := ks.foldr insert held

/-- The list goes on top of what is held. -/
structure Apart (held : Finset κ) (ks : List κ) : Prop where
  nodup : ks.Nodup
  fresh : ∀ k ∈ ks, k ∉ held

theorem mem_stacked : k ∈ stacked ks held ↔ k ∈ ks ∨ k ∈ held := by
  induction ks with
  | nil => simp [stacked]
  | cons k' ks ih =>
      change k ∈ insert k' (stacked ks held) ↔ _
      rw [Finset.mem_insert, ih, List.mem_cons, or_assoc]

theorem stacked_append : stacked (ks ++ ks') held = stacked ks (stacked ks' held) := List.foldr_append

theorem Apart.head (h : Apart held (k :: ks)) : k ∉ stacked ks held := by
  rw [mem_stacked]
  rintro (hk | hk)
  · exact (List.nodup_cons.mp h.nodup).1 hk
  · exact h.fresh k List.mem_cons_self hk

omit [DecidableEq κ] in
theorem Apart.tail (h : Apart held (k :: ks)) : Apart held ks :=
  ⟨(List.nodup_cons.mp h.nodup).2, fun k' hk' => h.fresh k' (List.mem_cons_of_mem k hk')⟩

omit [DecidableEq κ] in
theorem Apart.below (h : Apart held (ks ++ ks')) : Apart held ks' :=
  ⟨(List.nodup_append.mp h.nodup).2.1, fun k hk => h.fresh k (List.mem_append_right ks hk)⟩

theorem Apart.above (h : Apart held (ks ++ ks')) : Apart (stacked ks' held) ks := by
  obtain ⟨hnodup, -, hdisjoint⟩ := List.nodup_append.mp h.nodup
  refine ⟨hnodup, fun k hk => ?_⟩
  rw [mem_stacked]
  rintro (hk' | hk')
  · exact hdisjoint k hk k hk' rfl
  · exact h.fresh k (List.mem_append_left ks' hk) hk'

/-- What is held can be seen as a list of it on top of the rest. -/
theorem exists_stacked (hnodup : ks.Nodup) (hheld : ∀ k ∈ ks, k ∈ held) :
    ∃ rest, held = stacked ks rest ∧ Apart rest ks ∧ ∀ k, k ∈ rest ↔ k ∈ held ∧ k ∉ ks := by
  have hmem : ∀ k, k ∈ held \ ks.toFinset ↔ k ∈ held ∧ k ∉ ks := by simp
  refine ⟨held \ ks.toFinset, ?_, ⟨hnodup, fun k hk hrest => ((hmem k).mp hrest).2 hk⟩, hmem⟩
  ext k
  rw [mem_stacked, hmem]
  constructor
  · intro hk
    by_cases htop : k ∈ ks
    · exact .inl htop
    · exact .inr ⟨hk, htop⟩
  · rintro (hk | hk)
    · exact hheld k hk
    · exact hk.1

section
variable {view : τ → Option (Access κ)} {e : τ} {g : Unit → Traced τ ε β} {Q : β → Finset κ → Prop}

/-- One more goes on top. -/
theorem push (h : Apart held (k :: ks)) (hview : view e = some (.acquire k))
    (hrest : Ends view (stacked (k :: ks) held) (g ()) Q) : Ends view (stacked ks held) (emit e >>= g) Q :=
  Ends.acquire hview h.head hrest

/-- The top one is given back first. -/
theorem pop (h : Apart held (k :: ks)) (hview : view e = some (.release k))
    (hrest : Ends view (stacked ks held) (g ()) Q) : Ends view (stacked (k :: ks) held) (emit e >>= g) Q := by
  have htop : k ∈ stacked (k :: ks) held := mem_stacked.mpr (.inl List.mem_cons_self)
  have hbelow : (stacked (k :: ks) held).erase k = stacked ks held := Finset.erase_insert h.head
  have hgiven : Ends view ((stacked (k :: ks) held).erase k) (g ()) Q := by
    rw [hbelow]
    exact hrest
  exact Ends.release hview htop hgiven

end

end TpceDrv.Library.Stacks
