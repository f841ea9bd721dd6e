import TpceDrv.ChannelSteps
import TpceDrv.RoundTrip
import Mathlib.Data.Fintype.Basic
import Mathlib.Data.Finset.Card

namespace TpceDrv.PageSlots

open Descriptor DmaParams DmaInfo PageTable PageTableMap Translation RoundTrip ChannelControl ChannelSteps

variable {channel : U8} {table : AlteraPciePageTable} {known : Finset U64} {st : RwLookup} {p : U64}

def freeSlots (table : AlteraPciePageTable) : ℕ :=
  ((Finset.univ : Finset (Fin 16)).filter fun i => slots table i = none).card

/-- The pages of a transfer that take a slot, where some have one and the last one
to get one was `currPage`. That page takes none until the next one does. -/
def newPages (known : Finset U64) (currPage : U64) (pages : List U64) : Finset U64 :=
  (pages.dropWhile fun p => p = currPage ∨ p ∈ known).toFinset \ known

/-- There is a slot for the page of the descriptor buffer, and then one for each new
page of the transfer. `curr_page` starts out as 0. -/
def Fits (table : AlteraPciePageTable) (channel : U8) (descBusAddr : U64) (pages : List U64) : Prop :=
  (newPages (insert (pageOf descBusAddr) (knownPages table channel).toFinset) 0 pages).card + 1 ≤ freeSlots table

instance (table : AlteraPciePageTable) (channel : U8) (descBusAddr : U64) (pages : List U64) :
    Decidable (Fits table channel descBusAddr pages) := inferInstanceAs (Decidable (_ ≤ _))

theorem freeSlots_store {i : Fin 16} (hfree : slots table i = none) (v : U64) (channel : U8) :
    freeSlots (table.store i v channel) + 1 = freeSlots table := by
  have herase : (Finset.univ.filter fun j => slots (table.store i v channel) j = none) =
      (Finset.univ.filter fun j => slots table j = none).erase i := by
    ext j
    rw [Finset.mem_filter, Finset.mem_erase, Finset.mem_filter, slots_store]
    by_cases hj : j = i
    · simp [hj]
    · simp [hj]
  rw [freeSlots, herase]
  exact Finset.card_erase_add_one (Finset.mem_filter.mpr ⟨Finset.mem_univ i, hfree⟩)

theorem freeSlots_eq_zero : freeSlots table = 0 ↔ ∀ i, slots table i ≠ none := by
  rw [freeSlots, Finset.card_eq_zero, Finset.filter_eq_empty_iff]
  exact ⟨fun h i => h (Finset.mem_univ i), fun h i _ => h i⟩

/-- The pages for which the channel has slots -/
def Knows (channel : U8) (known : Finset U64) (table : AlteraPciePageTable) : Prop :=
  ∀ q, q ∈ known ↔ ∃ i, slots table i = some (q, channel)

theorem knows_start (table : AlteraPciePageTable) (channel : U8) :
    Knows channel (knownPages table channel).toFinset table :=
  fun _ => List.mem_toFinset.trans mem_knownPages

theorem Knows.store (h : Knows channel known table) {i : Fin 16} (hfree : slots table i = none) (p : U64) :
    Knows channel (insert p known) (table.store i p channel) := by
  intro q
  rw [Finset.mem_insert, h q, slots_store]
  constructor
  · rintro (rfl | ⟨j, hj⟩)
    · exact ⟨i, Function.update_self ..⟩
    · have hne : j ≠ i := fun hji => Option.some_ne_none _ ((hji ▸ hj).symm.trans hfree)
      exact ⟨j, (Function.update_of_ne hne ..).trans hj⟩
  · rintro ⟨j, hj⟩
    by_cases hji : j = i
    · rw [hji, Function.update_self] at hj
      exact .inl (Prod.mk.inj (Option.some.inj hj)).1.symm
    · exact .inr ⟨j, (Function.update_of_ne hji ..).symm.trans hj⟩

/-- The allocation takes a free slot, or fails on a full table. -/
theorem alloc_room (table : AlteraPciePageTable) (p : U64) (channel : U8) :
    (freeSlots table = 0 ∧ (pciePageAlloc table p channel).slot = -1) ∨
      ∃ i : Fin 16, slots table i = none ∧ (pciePageAlloc table p channel).slot = i ∧
        (pciePageAlloc table p channel).table = table.store i p channel := by
  obtain ⟨i, hfree, heq⟩ | ⟨hfull, heq⟩ := pciePageAlloc_spec table p channel
  · exact .inr ⟨i, hfree, by rw [heq], by rw [heq]⟩
  · exact .inl ⟨freeSlots_eq_zero.mpr hfull, by rw [heq]⟩

theorem lookup_known (hc : channel ≠ uint8Max) (hknows : Knows channel known st.table)
    (hp : p = st.currPage ∨ p ∈ known) :
    ∃ slot, lookupPage channel st p = .ok { st with slot := slot } := by
  by_cases hcurr : st.currPage = p
  · exact ⟨st.slot, by rw [lookupPage, if_neg (not_not.mpr hcurr)]⟩
  obtain ⟨i, hi⟩ := (hknows p).mp (hp.resolve_left (Ne.symm hcurr))
  obtain ⟨j, hfound, -⟩ | ⟨-, hnone⟩ := pciePageFindValue_spec st.table p hc
  · refine ⟨j, ?_⟩
    rw [lookupPage, if_pos hcurr, hfound]
    exact if_neg (by omega)
  · exact absurd hi (hnone i)

theorem lookup_new (hc : channel ≠ uint8Max) (hknows : Knows channel known st.table) (hcurr : p ≠ st.currPage)
    (hp : p ∉ known) :
    (freeSlots st.table = 0 ∧ ∃ table, lookupPage channel st p = .error table) ∨
      ∃ st', lookupPage channel st p = .ok st' ∧ Knows channel (insert p known) st'.table ∧
        st'.currPage = p ∧ freeSlots st'.table + 1 = freeSlots st.table := by
  have hfind : pciePageFindValue st.table p channel = -1 := by
    obtain ⟨i, -, hi⟩ | ⟨hnone, -⟩ := pciePageFindValue_spec st.table p hc
    · exact absurd ((hknows p).mpr ⟨i, hi⟩) hp
    · exact hnone
  simp only [lookupPage, if_pos (Ne.symm hcurr), if_pos hfind]
  obtain ⟨hfull, hslot⟩ | ⟨i, hfree, hslot, htable⟩ := alloc_room st.table p channel
  · exact .inl ⟨hfull, _, if_pos hslot⟩
  · refine .inr ⟨_, if_neg (by omega), ?_⟩
    rw [htable]
    exact ⟨hknows.store hfree p, rfl, freeSlots_store hfree p channel⟩

theorem translateRwLoop_ok {desc : TpceDmaDescriptor} {rest : List TpceDmaDescriptor} {st' : RwLookup}
    (h : lookupPage channel st (pageOf (tpceDescGetWrite desc)) = .ok st') :
    (translateRwLoop channel st (desc :: rest)).1 = (translateRwLoop channel st' rest).1 := by
  simp only [translateRwLoop, h]

theorem translateRwLoop_error {desc : TpceDmaDescriptor} {rest : List TpceDmaDescriptor} {table : AlteraPciePageTable}
    (h : lookupPage channel st (pageOf (tpceDescGetWrite desc)) = .error table) :
    (translateRwLoop channel st (desc :: rest)).1 = false := by
  simp only [translateRwLoop, h]

theorem card_new_cons (hp : p ∉ known) (pages : List U64) :
    ((p :: pages).toFinset \ known).card = (pages.toFinset \ insert p known).card + 1 := by
  have hinsert : (p :: pages).toFinset \ known = insert p (pages.toFinset \ insert p known) := by
    ext q
    by_cases hq : q = p
    · simp [hq, hp]
    · simp [hq]
  rw [hinsert, Finset.card_insert_of_notMem (by simp)]

theorem newPages_known {q : U64} (hp : p = q ∨ p ∈ known) (pages : List U64) :
    newPages known q (p :: pages) = newPages known q pages := by
  rw [newPages, newPages, List.dropWhile_cons_of_pos (by simpa using hp)]

theorem newPages_of_mem {q : U64} (hq : q ∈ known) (pages : List U64) :
    newPages known q pages = pages.toFinset \ known := by
  induction pages with
  | nil => rfl
  | cons p pages ih =>
      by_cases hp : p ∈ known
      · rw [newPages_known (.inr hp), ih, List.toFinset_cons, Finset.insert_sdiff_of_mem _ hp]
      · have hne : p ≠ q := fun h => hp (h ▸ hq)
        rw [newPages, List.dropWhile_cons_of_neg (by simp [hp, hne])]

/-- The loop reaches its end exactly if there are enough slots. -/
theorem translateRwLoop_done (hc : channel ≠ uint8Max) (hknows : Knows channel known st.table)
    (descs : List TpceDmaDescriptor) :
    (translateRwLoop channel st descs).1 = true ↔
      (newPages known st.currPage (descs.map fun d => pageOf (tpceDescGetWrite d))).card ≤
        freeSlots st.table := by
  induction descs generalizing st known with
  | nil =>
      have hnone : newPages known st.currPage [] = ∅ := Finset.empty_sdiff known
      rw [List.map_nil, hnone]
      exact iff_of_true rfl (Nat.zero_le _)
  | cons desc rest ih =>
      rw [List.map_cons]
      by_cases hp : pageOf (tpceDescGetWrite desc) = st.currPage ∨ pageOf (tpceDescGetWrite desc) ∈ known
      · obtain ⟨slot, hlook⟩ := lookup_known hc hknows hp
        rw [translateRwLoop_ok hlook, newPages_known hp]
        exact ih hknows
      · obtain ⟨hcurr, hnew⟩ := not_or.mp hp
        have hcard := card_new_cons hnew (rest.map fun d => pageOf (tpceDescGetWrite d))
        rw [newPages, List.dropWhile_cons_of_neg (by simp [hcurr, hnew]), hcard]
        obtain ⟨hfull, t, hlook⟩ | ⟨st', hlook, hknows', hcurr', hfree⟩ := lookup_new hc hknows hcurr hnew
        · rw [translateRwLoop_error hlook, hfull]
          exact iff_of_false Bool.false_ne_true (Nat.not_succ_le_zero _)
        · rw [translateRwLoop_ok hlook, ih hknows', hcurr', newPages_of_mem (Finset.mem_insert_self ..)]
          omega

theorem enospc_neg : -Errno.enospc < 0 := by decide

theorem linkAddr_room (table : AlteraPciePageTable) (info : TpceDmaInfo) :
    (freeSlots table = 0 ∧ (translateDescriptorLinkAddr table info).1 < 0) ∨
      ∃ i : Fin 16, slots table i = none ∧ (translateDescriptorLinkAddr table info).1 = 0 ∧
        (translateDescriptorLinkAddr table info).2.1 =
          table.store i (pageOf info.descBusAddr) info.params.channel := by
  simp only [translateDescriptorLinkAddr]
  obtain ⟨hfull, hslot⟩ | ⟨i, hfree, hslot, htable⟩ :=
    alloc_room table (info.descBusAddr &&& alteraAddrTranslationMask64) info.params.channel
  · rw [if_pos hslot]
    exact .inl ⟨hfull, enospc_neg⟩
  · have hneg : ¬(pciePageAlloc table (info.descBusAddr &&& alteraAddrTranslationMask64)
        info.params.channel).slot = -1 := by omega
    rw [if_neg hneg]
    exact .inr ⟨i, hfree, rfl, htable⟩

theorem rwAddr_nonneg {slot : ℤ} {info : TpceDmaInfo} :
    0 ≤ (translateDescriptorRwAddr slot table info).1 ↔ info.params.direction = tpceDmaFromDevice ∧
      (translateRwLoop info.params.channel ⟨table, 0, slot, 0⟩
        (info.descDma.take (info.descActive / descriptorSize).toNat)).1 = true := by
  simp only [translateDescriptorRwAddr]
  split
  · rename_i hdir
    split
    · rename_i hdone
      exact iff_of_true (Int.natCast_nonneg _) ⟨hdir, hdone⟩
    · rename_i hdone
      exact iff_of_false (Int.not_le.mpr enospc_neg) fun h => hdone h.2
  · rename_i hdir
    have hfails : ∀ err : ℤ, err < 0 → (0 ≤ err ↔ info.params.direction = tpceDmaFromDevice ∧
        (translateRwLoop info.params.channel ⟨table, 0, slot, 0⟩
          (info.descDma.take (info.descActive / descriptorSize).toNat)).1 = true) :=
      fun err herr => iff_of_false (Int.not_le.mpr herr) fun h => hdir h.1
    split
    · exact hfails (-Errno.enosys) (by decide)
    · exact hfails (-Errno.einval) (by decide)

/-- A start is translated exactly if it reads from the device and there are slots for
it. -/
theorem translates_iff {env : InitEnv} {info : TpceDmaInfo} (hc : info.params.channel ≠ uint8Max) :
    Translates env table info ↔ info.params.direction = tpceDmaFromDevice ∧
      Fits table info.params.channel info.descBusAddr (activePages info) := by
  simp only [Translates, Fits]
  obtain ⟨hfull, hneg⟩ | ⟨i, hfree, hzero, htable⟩ := linkAddr_room table info
  · exact iff_of_false (fun h => by omega) fun h => by omega
  have hinfo := linkAddr_eq table info
  generalize translateDescriptorLinkAddr table info = link at *
  have hknows := (knows_start table info.params.channel).store hfree (pageOf info.descBusAddr)
  rw [← htable] at hknows
  have hroom := freeSlots_store hfree (pageOf info.descBusAddr) info.params.channel
  rw [← htable] at hroom
  have hdone := @translateRwLoop_done _ _ ⟨link.2.1, 0, env.slot, 0⟩ hc hknows
    (info.descDma.take (info.descActive / descriptorSize).toNat)
  rw [hzero, hinfo, rwAddr_nonneg]
  dsimp only
  rw [hdone]
  refine (and_iff_right (le_refl 0)).trans (and_congr_right fun _ => ?_)
  change (newPages _ 0 (activePages info)).card ≤ freeSlots link.2.1 ↔ _
  omega

end TpceDrv.PageSlots
