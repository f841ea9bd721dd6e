import TpceDrv.Mapping

namespace TpceDrv.RangeIndexing

open Mapping

/-- `SG_MAX_SINGLE_ALLOC`, the slots of one block -/
def sgMaxSingleAlloc : ℕ := 128

/-- The blocks in which the kernel stores a scatterlist. A block that is not the
last one has a link in its last slot. -/
def sgAllocTable (entries : List Scatterlist) : SgList :=
  if entries.length ≤ sgMaxSingleAlloc then .last entries
  else .chain (entries.take (sgMaxSingleAlloc - 1)) (sgAllocTable (entries.drop (sgMaxSingleAlloc - 1)))
termination_by entries.length
decreasing_by
  simp only [sgMaxSingleAlloc, List.length_drop] at *
  omega

/-- A table with its DMA segments in the first entries -/
structure MappedTable (sgt : SgTable) (entries : List Scatterlist) : Prop where
  blocks : sgt.sgl = sgAllocTable entries
  mapped : sgt.nents ≤ entries.length
  segments : ∀ sg ∈ entries.take sgt.nents, sg.dmaLength ≠ 0

/-- The entry that the planner and the generator read at each index is the one
that the walk over the segments visits. -/
def IndexedAsWalked (sgt : SgTable) : Prop := ∀ i < sgt.nents, sgt.sgl.slots[i]? = sgt.dmaEntries[i]?

theorem walk_sgAllocTable (entries : List Scatterlist) : (sgAllocTable entries).walk = entries := by
  induction entries using sgAllocTable.induct with
  | case1 entries h => rw [sgAllocTable, if_pos h, SgList.walk]
  | case2 entries h ih => rw [sgAllocTable, if_neg h, SgList.walk, ih, List.take_append_drop]

theorem slots_of_short {entries : List Scatterlist} (h : entries.length ≤ sgMaxSingleAlloc) :
    (sgAllocTable entries).slots = entries := by
  rw [sgAllocTable, if_pos h, SgList.slots]

theorem slots_of_long {entries : List Scatterlist} (h : ¬ entries.length ≤ sgMaxSingleAlloc) :
    (sgAllocTable entries).slots = entries.take (sgMaxSingleAlloc - 1) ++ [⟨0, 0, 0⟩] := by
  rw [sgAllocTable, if_neg h, SgList.slots]

theorem dmaEntries_getElem? {sgt : SgTable} {entries : List Scatterlist} (h : MappedTable sgt entries)
    {i : ℕ} (hi : i < sgt.nents) : sgt.dmaEntries[i]? = entries[i]? := by
  rw [SgTable.dmaEntries, List.getElem?_take_of_lt hi, h.blocks, walk_sgAllocTable]

/-- The first block is all that indexing reaches: the two orders agree exactly
when the list has one block or the segments end in front of the first link. -/
theorem indexed_as_walked_iff {sgt : SgTable} {entries : List Scatterlist} (h : MappedTable sgt entries) :
    IndexedAsWalked sgt ↔ entries.length ≤ sgMaxSingleAlloc ∨ sgt.nents ≤ sgMaxSingleAlloc - 1 := by
  constructor
  · intro hagree
    by_contra hmany
    obtain ⟨hlong, hnents⟩ := not_or.mp hmany
    have hlink : sgMaxSingleAlloc - 1 < sgt.nents := Nat.not_le.mp hnents
    have hlen : sgMaxSingleAlloc - 1 < entries.length := Nat.lt_of_lt_of_le hlink h.mapped
    have hread := hagree (sgMaxSingleAlloc - 1) hlink
    rw [dmaEntries_getElem? h hlink, h.blocks, slots_of_long hlong,
      List.getElem?_append_right (by rw [List.length_take]; omega), List.length_take,
      Nat.min_eq_left hlen.le, Nat.sub_self, List.getElem?_cons_zero, List.getElem?_eq_getElem hlen] at hread
    have hentry := h.segments _ (List.mem_take_iff_getElem.mpr ⟨_, lt_min hlink hlen, rfl⟩)
    rw [← Option.some.inj hread] at hentry
    exact hentry rfl
  · rintro hfew i hi
    rw [dmaEntries_getElem? h hi, h.blocks]
    by_cases hshort : entries.length ≤ sgMaxSingleAlloc
    · rw [slots_of_short hshort]
    · have hfew := hfew.resolve_left hshort
      rw [slots_of_long hshort, List.getElem?_append_left (by rw [List.length_take]; omega),
        List.getElem?_take_of_lt (by omega)]

def scatteredPages (n : ℕ) : SgTable :=
  ⟨sgAllocTable (List.replicate n ⟨0x100000#64, 4096#32, 0⟩), n⟩

theorem mapped_scatteredPages (n : ℕ) :
    MappedTable (scatteredPages n) (List.replicate n ⟨0x100000#64, 4096#32, 0⟩) where
  blocks := rfl
  mapped := by rw [List.length_replicate]; exact Nat.le_refl n
  segments sg hsg := by
    rw [(List.mem_replicate.mp (List.mem_of_mem_take hsg)).2]
    decide

theorem indexed_one_block : IndexedAsWalked (scatteredPages 128) :=
  (indexed_as_walked_iff (mapped_scatteredPages 128)).mpr (.inl (by rw [List.length_replicate]; exact le_rfl))

/-- The 128th of 129 segments is behind the link, where indexing reads the link
itself. -/
theorem link_read_as_segment : ¬IndexedAsWalked (scatteredPages 129) := by
  intro h
  have hread := h 127 (by decide)
  rw [dmaEntries_getElem? (mapped_scatteredPages 129) (by decide), (mapped_scatteredPages 129).blocks,
    slots_of_long (by rw [List.length_replicate]; decide)] at hread
  revert hread
  decide

end TpceDrv.RangeIndexing
