import TpceDrv.MappedRanges

namespace TpceDrv.TransferParts

open Descriptor Mapping DmaParams Generation Reach Planning MappedRanges Library.Cuts

/-- How many bytes of the transfer are in each range -/
def partLengths (params : TpceDmaTransferParams) (mapInfo : TpceDmaMapInfo) : List ℕ :=
  overlaps params.mapOffset.toNat (params.mapOffset.toNat + params.bytesTotal.toNat) 0
    ((ranges mapInfo).map rangeBytes)

/-- The lengths of the pieces of at most 256 KiB that the parts of the transfer are
cut into -/
def pieceLengths (params : TpceDmaTransferParams) (mapInfo : TpceDmaMapInfo) : List ℕ :=
  (partLengths params mapInfo).flatMap (cut 262144)

/-- The number of the pieces, where a part of more than `2 ^ 32 - 262144` bytes counts
as none -/
def countedPieces (params : TpceDmaTransferParams) (mapInfo : TpceDmaMapInfo) : ℕ :=
  ((partLengths params mapInfo).map fun n => (n + 262143) % 2 ^ 32 / 262144).sum

variable {params : TpceDmaTransferParams} {mapInfo : TpceDmaMapInfo}

theorem touchedParts_overlaps {lo hi base : ℕ} {skip total : U32} (slots : List Scatterlist)
    (hle : ∀ sg rest, slots = sg :: rest → skip.toNat ≤ rangeBytes sg)
    (hskip : base + skip.toNat = max lo base) (htotal : total.toNat = hi - max lo base) :
    ∃ m, overlaps lo hi base (slots.map rangeBytes) =
      (touchedParts skip total slots).map Prod.snd ++ List.replicate m 0 := by
  induction slots generalizing base skip total with
  | nil => exact ⟨0, rfl⟩
  | cons sg rest ih =>
      rw [touchedParts]
      split
      · have hsg := hle sg rest rfl
        have hmin := toNat_tpceMin (tpceDmaMapRangeSize sg - skip) total
        rw [BitVec.toNat_sub_of_le (BitVec.le_def.mpr hsg)] at hmin
        have hpart : (tpceMin (tpceDmaMapRangeSize sg - skip) total).toNat =
            min hi (base + rangeBytes sg) - max lo base := by
          unfold rangeBytes at hsg ⊢
          omega
        have hrest : (total - tpceMin (tpceDmaMapRangeSize sg - skip) total).toNat =
            hi - max lo (base + rangeBytes sg) := by
          rw [BitVec.toNat_sub_of_le (BitVec.le_def.mpr (by omega)), hpart]
          omega
        have hzero : (0 : U32).toNat = 0 := rfl
        obtain ⟨m, hm⟩ := @ih (base + rangeBytes sg) 0 _ (fun _ _ _ => Nat.zero_le _) (by omega) hrest
        refine ⟨m, ?_⟩
        rw [List.map_cons, overlaps_cons, hm, List.map_cons, hpart, List.cons_append]
      · rename_i hz
        have hz : total.toNat = 0 := congrArg BitVec.toNat (eq_zero_of_not_pos hz)
        have hnone : hi ≤ max lo base := by omega
        refine ⟨((sg :: rest).map rangeBytes).length, ?_⟩
        rw [overlaps_after _ hnone]
        rfl

/-- The ranges that the transfer does not reach hold none of its bytes. -/
theorem partLengths_eq (params : TpceDmaTransferParams)
    (hidx : tpceDmaMapNumRanges mapInfo ≤ mapInfo.sgt.sgl.slots.length) :
    ∃ k m, partLengths params mapInfo = List.replicate k 0 ++
      ((partsFrom params mapInfo (ranges mapInfo)).map Prod.snd ++ List.replicate m 0) := by
  obtain ⟨k, rem, hskip, -, hsum, hlt⟩ := skipOffset_ranges hidx params.mapOffset
  have hbase : (((ranges mapInfo).take k).map rangeBytes).sum + rem.toNat =
      max params.mapOffset.toNat (((ranges mapInfo).take k).map rangeBytes).sum := by omega
  have htotal : params.bytesTotal.toNat = params.mapOffset.toNat + params.bytesTotal.toNat -
      max params.mapOffset.toNat (((ranges mapInfo).take k).map rangeBytes).sum := by omega
  obtain ⟨m, hm⟩ := touchedParts_overlaps ((ranges mapInfo).drop k) (fun sg rest h => (hlt sg rest h).le) hbase htotal
  refine ⟨((ranges mapInfo).take k).length, m, ?_⟩
  rw [partsFrom_eq hskip, ← hm, partLengths]
  conv_lhs => rw [← List.take_append_drop k (ranges mapInfo), List.map_append, overlaps_append, Nat.zero_add]
  rw [overlaps_before (by omega), List.length_map]

theorem flatMap_partLengths {α : Type} {f : ℕ → List α} (hf : f 0 = [])
    (hidx : tpceDmaMapNumRanges mapInfo ≤ mapInfo.sgt.sgl.slots.length) :
    (partLengths params mapInfo).flatMap f =
      ((partsFrom params mapInfo (ranges mapInfo)).map Prod.snd).flatMap f := by
  have hzeros : ∀ k, (List.replicate k 0).flatMap f = [] := fun k =>
    List.flatMap_eq_nil_iff.mpr fun n hn => by rw [(List.mem_replicate.mp hn).2, hf]
  obtain ⟨k, m, hparts⟩ := partLengths_eq params hidx
  rw [hparts, List.flatMap_append, List.flatMap_append, hzeros, hzeros, List.nil_append, List.append_nil]

theorem sum_partLengths {f : ℕ → ℕ} (hf : f 0 = 0)
    (hidx : tpceDmaMapNumRanges mapInfo ≤ mapInfo.sgt.sgl.slots.length) :
    ((partLengths params mapInfo).map f).sum =
      ((partsFrom params mapInfo (ranges mapInfo)).map fun p => f p.2).sum := by
  have hzeros : ∀ k, ((List.replicate k 0).map f).sum = 0 := fun k => by
    rw [List.map_replicate, hf]
    simp
  obtain ⟨k, m, hparts⟩ := partLengths_eq params hidx
  rw [hparts, List.map_append, List.map_append, List.sum_append, List.sum_append, hzeros, hzeros, Nat.zero_add,
    Nat.add_zero, List.map_map]
  rfl

theorem add_262144_sub_one (n : ℕ) : n + 262144 - 1 = n + 262143 := by omega

/-- The number of pieces of at most 256 KiB -/
theorem length_cut_flexible (n : ℕ) : (cut 262144 n).length = (n + 262143) / 262144 := by
  rw [length_cut (by decide), add_262144_sub_one]

theorem pieceLength_flexible (hflex : params.bytesPerDescriptor = 0) : pieceLength params = 262144 := by
  simp [pieceLength, hflex]

theorem plannedCount_flexible (hflex : params.bytesPerDescriptor = 0)
    (hidx : tpceDmaMapNumRanges mapInfo ≤ mapInfo.sgt.sgl.slots.length) :
    plannedCount params mapInfo = countedPieces params mapInfo := by
  rw [countedPieces, sum_partLengths (by decide) hidx]
  simp only [plannedCount, hflex, if_true, pieceLength_flexible hflex]
  split
  · rename_i hnone
    obtain ⟨k, rem, hskip, hk, -⟩ := skipOffset_ranges hidx params.mapOffset
    have hnil : ranges mapInfo = [] := by rw [ranges, hnone, List.take_zero]
    rw [partsFrom_eq hskip, hnil, List.drop_nil]
    rfl
  · simp only [plannedPieces, add_262144_sub_one]
    rfl

theorem sum_pieceLengths (hmap : Sized mapInfo)
    (hfit : params.mapOffset.toNat + params.bytesTotal.toNat ≤ mapInfo.size.toNat) :
    (pieceLengths params mapInfo).sum = params.bytesTotal.toNat := by
  have hsum : List.sum ∘ cut 262144 = id := funext (sum_cut 262144)
  rw [← (partsFrom_tiles hmap hfit).1, pieceLengths, List.flatMap_def, List.sum_flatten, List.map_map, hsum]
  exact sum_partLengths rfl hmap.indexed

theorem countedPieces_le (params : TpceDmaTransferParams) (mapInfo : TpceDmaMapInfo) :
    countedPieces params mapInfo ≤ (pieceLengths params mapInfo).length := by
  rw [countedPieces, pieceLengths, List.length_flatMap]
  refine List.sum_le_sum fun n _ => ?_
  rw [length_cut_flexible]
  exact Nat.div_le_div_right (Nat.mod_le _ _)

/-- Only a part of almost 4 GiB is not counted. -/
theorem countedPieces_eq_iff : countedPieces params mapInfo = (pieceLengths params mapInfo).length ↔
    ∀ n ∈ partLengths params mapInfo, n + 262143 < 2 ^ 32 := by
  rw [countedPieces, pieceLengths, List.length_flatMap]
  simp only [length_cut_flexible]
  generalize partLengths params mapInfo = parts
  constructor
  · intro heq
    by_contra hall
    obtain ⟨n, hn, hbig⟩ : ∃ n ∈ parts, ¬n + 262143 < 2 ^ 32 := by simpa using hall
    have hlt := List.sum_lt_sum (l := parts) (fun n => (n + 262143) % 2 ^ 32 / 262144) (fun n => (n + 262143) / 262144)
      (fun m _ => Nat.div_le_div_right (Nat.mod_le _ _)) ⟨n, hn, by omega⟩
    omega
  · intro hall
    refine congrArg List.sum (List.map_congr_left fun n hn => ?_)
    rw [Nat.mod_eq_of_lt (hall n hn)]

theorem zeroed_getElem? {ds zeroed : List TpceDmaDescriptor} {num i : ℕ} (h : zeroDescriptors ds num = .ok zeroed)
    (hi : i < num) : zeroed[i]? = some default := by
  simp only [zeroDescriptors] at h
  split at h
  · cases h
  · cases h
    rw [List.getElem?_append_left (by rwa [List.length_replicate]), List.getElem?_replicate, if_pos hi]

theorem map_snd_pieces (L : ℕ) (parts : List (U64 × ℕ)) :
    (pieces L parts).map Prod.snd = (parts.map Prod.snd).flatMap (cut L) := by
  induction parts with
  | nil => rfl
  | cons p parts ih => rw [pieces_cons, List.map_append, ih, List.map_cons, List.flatMap_cons, map_snd_layout]

theorem pieces_of_isPrefix (L : ℕ) {ps qs : List (U64 × ℕ)} (h : ps <+: qs) : pieces L ps <+: pieces L qs := by
  obtain ⟨rs, rfl⟩ := h
  exact ⟨pieces L rs, by simp [pieces]⟩

theorem partsFrom_ranges (params : TpceDmaTransferParams) (mapInfo : TpceDmaMapInfo) :
    partsFrom params mapInfo (ranges mapInfo) <+: partsFrom params mapInfo mapInfo.sgt.sgl.slots := by
  simp only [partsFrom]
  split
  · rw [ranges, List.drop_take]
    exact touchedParts_take _ _ _ _
  · exact List.prefix_refl []

theorem plannedCount_le (mapInfo : TpceDmaMapInfo) (hflex : params.bytesPerDescriptor = 0) :
    plannedCount params mapInfo ≤ (pieces 262144 (partsFrom params mapInfo (ranges mapInfo))).length := by
  rw [length_pieces (by decide)]
  simp only [plannedCount, hflex, if_true, pieceLength_flexible hflex]
  split
  · exact Nat.zero_le _
  · exact plannedPieces_le _ _

theorem generated_indexed {ds out : List TpceDmaDescriptor} {maxDescriptors : U32} {ret : ℤ}
    (h : tpceGenerateDescriptors params mapInfo ds maxDescriptors = .ok (ret, out)) (hret : 0 < ret) :
    tpceDmaMapNumRanges mapInfo ≤ mapInfo.sgt.sgl.slots.length := by
  obtain ⟨rfl, -⟩ := tpceGenerateDescriptors_reach h hret.le
  obtain ⟨plan, hplan, -⟩ := bind_eq_ok.mp h
  obtain ⟨hnum, hcases⟩ := createDescriptorPlan_cases hplan
  rcases hcases with hz | ⟨-, hidx, -⟩
  · rw [hz] at hnum
    have hzero : (0 : U32).toNat = 0 := rfl
    omega
  · exact hidx

/-- The descriptors of flexible length are the first pieces of the parts of the
transfer, as many as are planned. -/
theorem generated_flexible (hflex : params.bytesPerDescriptor = 0) {ds out : List TpceDmaDescriptor}
    {maxDescriptors : U32} {ret : ℤ}
    (h : tpceGenerateDescriptors params mapInfo ds maxDescriptors = .ok (ret, out)) (hret : 0 ≤ ret) :
    ret = plannedCount params mapInfo ∧ (out.take ret.toNat).map (hostInterval params.direction) =
      (pieces 262144 (partsFrom params mapInfo (ranges mapInfo))).take ret.toNat := by
  obtain ⟨rfl, -, hmap, -⟩ := tpceGenerateDescriptors_reach h hret
  have hfixed : fixedLength params = false := by simp [fixedLength, hflex]
  refine ⟨rfl, ?_⟩
  rw [Int.toNat_natCast, hmap, requestReach, hfixed, pieceLength_flexible hflex, pieces_reach_flexible (by decide)]
  obtain ⟨rest, hrest⟩ := pieces_of_isPrefix 262144 (partsFrom_ranges params mapInfo)
  rw [← hrest, List.take_append_of_le_length (plannedCount_le mapInfo hflex)]

theorem generated_lengths (hflex : params.bytesPerDescriptor = 0)
    (hidx : tpceDmaMapNumRanges mapInfo ≤ mapInfo.sgt.sgl.slots.length) {ds out : List TpceDmaDescriptor}
    {maxDescriptors : U32} {ret : ℤ}
    (h : tpceGenerateDescriptors params mapInfo ds maxDescriptors = .ok (ret, out)) (hret : 0 ≤ ret) :
    (out.take ret.toNat).map (fun d => d.transferLength.toNat) = (pieceLengths params mapInfo).take ret.toNat := by
  obtain ⟨-, hmap⟩ := generated_flexible hflex h hret
  have hsnd := congrArg (List.map Prod.snd) hmap
  rw [List.map_map, List.map_take, List.map_take, map_snd_pieces, ← flatMap_partLengths (cut_zero _) hidx] at hsnd
  rw [List.map_take]
  exact hsnd

end TpceDrv.TransferParts
