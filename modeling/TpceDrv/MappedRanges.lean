import TpceDrv.Planning

namespace TpceDrv.MappedRanges

open Descriptor Mapping DmaParams Generation Reach Planning Library.Cuts

/-- The ranges of a mapping, as indexing reads them. -/
def ranges (mapInfo : TpceDmaMapInfo) : List Scatterlist :=
  mapInfo.sgt.sgl.slots.take (tpceDmaMapNumRanges mapInfo)

def segment (sg : Scatterlist) : U64 × ℕ := (tpceDmaMapRangeAddr sg, rangeBytes sg)

/-- The mapping as one run of bytes: bus address and size of each range. -/
def segments (mapInfo : TpceDmaMapInfo) : List (U64 × ℕ) := (ranges mapInfo).map segment

/-- A non-empty list of non-zero ranges whose sizes sum to the mapping size. -/
structure Ranged (mapInfo : TpceDmaMapInfo) : Prop where
  nonempty : tpceDmaMapNumRanges mapInfo ≠ 0
  indexed : tpceDmaMapNumRanges mapInfo ≤ mapInfo.sgt.sgl.slots.length
  positive : ∀ sg ∈ ranges mapInfo, 0 < rangeBytes sg
  total : ((ranges mapInfo).map rangeBytes).sum = mapInfo.size.toNat

/-- Ranges of any sizes that sum to the mapping size -/
structure Sized (mapInfo : TpceDmaMapInfo) : Prop where
  indexed : tpceDmaMapNumRanges mapInfo ≤ mapInfo.sgt.sgl.slots.length
  total : ((ranges mapInfo).map rangeBytes).sum = mapInfo.size.toNat

theorem Ranged.sized {mapInfo : TpceDmaMapInfo} (hmap : Ranged mapInfo) : Sized mapInfo :=
  ⟨hmap.indexed, hmap.total⟩

theorem Sized.nonempty {mapInfo : TpceDmaMapInfo} (hmap : Sized mapInfo) (hpos : 0 < mapInfo.size.toNat) :
    tpceDmaMapNumRanges mapInfo ≠ 0 := by
  intro hnone
  have htotal := hmap.total
  rw [ranges, hnone, List.take_zero] at htotal
  simp only [List.map_nil, List.sum_nil] at htotal
  omega

/-- A mapping of a user buffer in a flat table, as it is after locking. -/
def userMapping (slots : List Scatterlist) (size : U32) (direction : U8) : TpceDmaMapInfo where
  obj := 0
  owner := some 0
  bufUsr := true
  id := 2
  size := size
  numPages := 1
  direction := direction
  activeChannel := tpceMapInactive
  sgt := ⟨.last slots, slots.length⟩

/-- The mapping with nothing in memory behind its last range. -/
def onlyRanges (mapInfo : TpceDmaMapInfo) : TpceDmaMapInfo :=
  { mapInfo with sgt := ⟨.last (ranges mapInfo), mapInfo.sgt.nents⟩ }

@[simp] theorem onlyRanges_slots (mapInfo : TpceDmaMapInfo) :
    (onlyRanges mapInfo).sgt.sgl.slots = ranges mapInfo := rfl

@[simp] theorem onlyRanges_numRanges (mapInfo : TpceDmaMapInfo) :
    tpceDmaMapNumRanges (onlyRanges mapInfo) = tpceDmaMapNumRanges mapInfo := rfl

/-- The generator returns `r`, and does so without a read past the last
range. -/
def GeneratesWithin (params : TpceDmaTransferParams) (mapInfo : TpceDmaMapInfo)
    (descriptors : List TpceDmaDescriptor) (maxDescriptors : U32)
    (r : Int × List TpceDmaDescriptor) : Prop :=
  tpceGenerateDescriptors params mapInfo descriptors maxDescriptors = .ok r ∧
    tpceGenerateDescriptors params (onlyRanges mapInfo) descriptors maxDescriptors = .ok r

theorem gcdSizes_take (n i : ℕ) (slots : List Scatterlist) (res prev : U32) :
    gcdSizes n i (slots.take n) res prev = gcdSizes n i slots res prev := by
  induction n generalizing i slots res prev with
  | zero => rfl
  | succ n ih =>
      cases slots with
      | nil => rfl
      | cons sg rest => simp only [List.take_succ_cons, gcdSizes, ih]

theorem skipOffset_take (n i : ℕ) (slots : List Scatterlist) (off : U32) :
    skipOffset n i (slots.take n) off = skipOffset n i slots off := by
  induction n generalizing i slots off with
  | zero => rfl
  | succ n ih =>
      cases slots with
      | nil => rfl
      | cons sg rest => simp only [List.take_succ_cons, skipOffset, ih]

theorem countDescriptors_take (maxTransfer : U32) (offIdx : ℕ) (offRem : U32) (n i : ℕ)
    (slots : List Scatterlist) (rem num : U32) :
    countDescriptors maxTransfer offIdx offRem n i (slots.take n) rem num =
      countDescriptors maxTransfer offIdx offRem n i slots rem num := by
  induction n generalizing i slots rem num with
  | zero => rfl
  | succ n ih =>
      cases slots with
      | nil => rfl
      | cons sg rest => simp only [List.take_succ_cons, countDescriptors, ih]

theorem gcdDmaPageSizes_onlyRanges (mapInfo : TpceDmaMapInfo) :
    gcdDmaPageSizes (onlyRanges mapInfo) = gcdDmaPageSizes mapInfo := by
  simp only [gcdDmaPageSizes]
  rw [onlyRanges_slots, onlyRanges_numRanges, ranges]
  generalize mapInfo.sgt.sgl.slots = slots
  cases tpceDmaMapNumRanges mapInfo with
  | zero => rfl
  | succ n =>
      cases slots with
      | nil => rfl
      | cons sg rest => exact gcdSizes_take n 1 rest _ _

theorem createDescriptorPlan_onlyRanges (mapInfo : TpceDmaMapInfo) (params : TpceDmaTransferParams) :
    createDescriptorPlan (onlyRanges mapInfo) params = createDescriptorPlan mapInfo params := by
  simp only [createDescriptorPlan]
  rw [gcdDmaPageSizes_onlyRanges, onlyRanges_slots, onlyRanges_numRanges, ranges]
  simp only [skipOffset_take, List.drop_take, countDescriptors_take]

theorem fillRanges_append {params : TpceDmaTransferParams} {chInfo : TpceDmaChannelInfo}
    {plan : DescriptorPlan} {mapIdx descIdx : ℕ} {slots : List Scatterlist} {dev rem : U32}
    {buf out : List TpceDmaDescriptor} (extra : List Scatterlist)
    (h : fillRanges params chInfo plan mapIdx slots descIdx dev rem buf = .ok out) :
    fillRanges params chInfo plan mapIdx (slots ++ extra) descIdx dev rem buf = .ok out := by
  induction slots generalizing mapIdx descIdx dev rem buf out with
  | nil =>
      simp only [fillRanges] at h
      split at h
      · cases h
      · rename_i hstop
        cases extra with
        | nil => rw [List.nil_append, fillRanges, if_neg hstop, ← h]
        | cons sg rest => rw [List.nil_append, fillRanges, if_neg hstop, ← h]
  | cons sg rest ih =>
      simp only [fillRanges] at h
      rw [List.cons_append, fillRanges]
      split at h
      · rename_i hgo
        obtain ⟨page, hpage, h⟩ := bind_eq_ok.mp h
        obtain ⟨tail, htail, h⟩ := bind_eq_ok.mp h
        rw [if_pos hgo]
        exact bind_eq_ok.mpr ⟨page, hpage, bind_eq_ok.mpr ⟨tail, ih htail, h⟩⟩
      · rename_i hstop
        rw [if_neg hstop, ← h]

theorem generatesWithin {params : TpceDmaTransferParams} {mapInfo : TpceDmaMapInfo}
    {ds : List TpceDmaDescriptor} {maxDescriptors : U32} {r : Int × List TpceDmaDescriptor}
    (hidx : ∀ plan, createDescriptorPlan mapInfo params = .ok plan →
      plan.startingIdx ≤ (ranges mapInfo).length)
    (h : tpceGenerateDescriptors params (onlyRanges mapInfo) ds maxDescriptors = .ok r) :
    GeneratesWithin params mapInfo ds maxDescriptors r := by
  refine ⟨?_, h⟩
  obtain ⟨plan, hplan, h⟩ := bind_eq_ok.mp h
  rw [createDescriptorPlan_onlyRanges] at hplan
  refine bind_eq_ok.mpr ⟨plan, hplan, ?_⟩
  split at h
  · rename_i hmax
    rw [if_pos hmax]
    exact h
  · rename_i hmax
    rw [if_neg hmax]
    split at h
    · rename_i hz
      rw [if_pos hz]
      exact h
    · rename_i hz
      rw [if_neg hz]
      obtain ⟨chInfo, hch, h⟩ := bind_eq_ok.mp h
      obtain ⟨zeroed, hzero, h⟩ := bind_eq_ok.mp h
      obtain ⟨filled, hfill, h⟩ := bind_eq_ok.mp h
      refine bind_eq_ok.mpr ⟨chInfo, hch, bind_eq_ok.mpr ⟨zeroed, hzero, bind_eq_ok.mpr ⟨filled, ?_, h⟩⟩⟩
      have happ := fillRanges_append (mapInfo.sgt.sgl.slots.drop (tpceDmaMapNumRanges mapInfo)) hfill
      have hslots : (onlyRanges mapInfo).sgt.sgl.slots.drop plan.startingIdx ++
          mapInfo.sgt.sgl.slots.drop (tpceDmaMapNumRanges mapInfo) =
            mapInfo.sgt.sgl.slots.drop plan.startingIdx := by
        rw [onlyRanges_slots, ← List.drop_append_of_le_length (hidx plan hplan)]
        exact congrArg _ (List.take_append_drop _ _)
      rw [hslots] at happ
      exact happ

theorem tiles_touchedParts {L : ℕ} (hL : 0 < L) (skip total : U32) (pre slots : List Scatterlist)
    (hskip : ∀ sg rest, slots = sg :: rest → skip.toNat ≤ rangeBytes sg)
    (hfit : skip.toNat + total.toNat ≤ (slots.map rangeBytes).sum) :
    ((touchedParts skip total slots).map Prod.snd).sum = total.toNat ∧
      Tiles ((pre ++ slots).map segment) ((pre.map rangeBytes).sum + skip.toNat)
        ((pre.map rangeBytes).sum + skip.toNat + total.toNat)
        (pieces L (touchedParts skip total slots)) := by
  induction slots generalizing pre skip total with
  | nil =>
      have hz : total = 0 := BitVec.eq_of_toNat_eq (by simp at hfit ⊢; omega)
      subst hz
      exact ⟨rfl, rfl⟩
  | cons sg rest ih =>
      by_cases hpos : total > 0
      · have hle := hskip sg rest rfl
        rw [List.map_cons, List.sum_cons] at hfit
        have hmin := toNat_tpceMin (tpceDmaMapRangeSize sg - skip) total
        rw [BitVec.toNat_sub_of_le (BitVec.le_def.mpr hle)] at hmin
        have hsub := BitVec.toNat_sub_of_le (x := total)
          (y := tpceMin (tpceDmaMapRangeSize sg - skip) total) (BitVec.le_def.mpr (by omega))
        rw [touchedParts, if_pos hpos, pieces_cons, List.map_cons, List.sum_cons]
        have hbase : (pre.map segment).map Prod.snd = pre.map rangeBytes := by
          simp only [List.map_map]
          rfl
        have hhead := tiles_layout (show (pre ++ sg :: rest).map segment =
            pre.map segment ++ (tpceDmaMapRangeAddr sg, rangeBytes sg) :: rest.map segment by
              rw [List.map_append]; rfl)
          (show skip.toNat + (cut L (tpceMin (tpceDmaMapRangeSize sg - skip) total).toNat).sum ≤ _ by
            rw [sum_cut, hmin]; unfold rangeBytes at hle ⊢; omega)
          (fun l hl => (mem_cut hL hl).1)
        rw [hbase, sum_cut, vadd_toNat] at hhead
        generalize tpceMin (tpceDmaMapRangeSize sg - skip) total = part at *
        by_cases hdone : total - part = 0
        · have hz : part.toNat = total.toNat := by
            have := congrArg BitVec.toNat hdone
            rw [hsub] at this
            simp at this
            omega
          rw [hdone, touchedParts_zero, ← hz]
          exact ⟨rfl, hhead.append rfl⟩
        · have hnz : 0 < (total - part).toNat := BitVec.lt_def.mp (ne_zero_iff_pos.mp hdone)
          have hpart : skip.toNat + part.toNat = rangeBytes sg := by
            simp only [rangeBytes] at hle ⊢
            omega
          have hzero : (0 : U32).toNat = 0 := rfl
          obtain ⟨hsum, hrest⟩ := ih 0 (total - part) (pre ++ [sg])
            (fun _ _ _ => Nat.zero_le _) (by rw [hzero]; omega)
          have hsg : ((pre ++ [sg]).map rangeBytes).sum = (pre.map rangeBytes).sum + rangeBytes sg := by
            simp
          rw [hsg, List.append_assoc, List.singleton_append, hzero, Nat.add_zero] at hrest
          have hstart : (pre.map rangeBytes).sum + skip.toNat + part.toNat =
              (pre.map rangeBytes).sum + rangeBytes sg := by omega
          have hstop : (pre.map rangeBytes).sum + rangeBytes sg + (total - part).toNat =
              (pre.map rangeBytes).sum + skip.toNat + total.toNat := by omega
          refine ⟨by omega, hhead.append ?_⟩
          rw [hstart, ← hstop]
          exact hrest
      · have hz := eq_zero_of_not_pos hpos
        subst hz
        exact ⟨rfl, rfl⟩

theorem mem_pieces {L : ℕ} (hL : 0 < L) {parts : List (U64 × ℕ)} {p : U64 × ℕ}
    (h : p ∈ pieces L parts) : 0 < p.2 ∧ p.2 ≤ L := by
  obtain ⟨s, -, hp⟩ := List.mem_flatMap.mp h
  exact mem_cut hL (snd_mem_layout hp)

theorem drop_mapIdx_of_eq {α : Type} {f : ℕ → α → α} {n : ℕ} (h : ∀ i a, n ≤ i → f i a = a)
    (l : List α) : (l.mapIdx f).drop n = l.drop n := by
  apply List.ext_getElem
  · simp
  · intro i h₁ h₂
    simp [h]

theorem fillControlFlags_ge (params : TpceDmaTransferParams) (chInfo : TpceDmaChannelInfo)
    {plan : DescriptorPlan} (hpos : 0 < plan.numDescriptors.toNat) (i : ℕ) (desc : TpceDmaDescriptor)
    (hi : plan.numDescriptors.toNat ≤ i) : fillControlFlags params chInfo plan i desc = desc := by
  simp only [fillControlFlags, fillControlFlagsDefault, fillControlFlagsStream]
  rw [if_neg (show ¬ i < plan.numDescriptors.toNat - 1 by omega),
    if_neg (show ¬ i = plan.numDescriptors.toNat - 1 by omega),
    if_neg (show ¬ i < plan.numDescriptors.toNat by omega)]
  split_ifs
  all_goals rfl

theorem fillOtherFields_ge (params : TpceDmaTransferParams) (chInfo : TpceDmaChannelInfo)
    {plan : DescriptorPlan} (i : ℕ) (desc : TpceDmaDescriptor)
    (hi : plan.numDescriptors.toNat ≤ i) : fillOtherFields params chInfo plan i desc = desc :=
  if_neg (Nat.not_lt.mpr hi)

theorem createDescriptorPlan_exists {params : TpceDmaTransferParams} {mapInfo : TpceDmaMapInfo}
    {chInfo : TpceDmaChannelInfo} (hch : channelInfo params.channel = .ok chInfo)
    (hidx : tpceDmaMapNumRanges mapInfo ≤ mapInfo.sgt.sgl.slots.length) :
    ∃ plan, createDescriptorPlan mapInfo params = .ok plan := by
  obtain ⟨g, hg⟩ := gcdDmaPageSizes_exists hidx
  obtain ⟨k, rem, hskip, -, -, -⟩ := skipOffset_spec 0 params.mapOffset hidx
  by_cases hne : tpceDmaMapNumRanges mapInfo = 0
  · exact ⟨{}, bind_eq_ok.mpr ⟨chInfo, hch, if_pos hne⟩⟩
  · obtain ⟨num, hnum⟩ : ∃ num, (if params.bytesPerDescriptor = 0 then
        countDescriptors chInfo.maxTransfer (0 + k) rem (tpceDmaMapNumRanges mapInfo - (0 + k)) (0 + k)
          (mapInfo.sgt.sgl.slots.drop (0 + k)) params.bytesTotal 0
        else pure (params.bytesTotal / params.bytesPerDescriptor) : Except Fault U32) = .ok num := by
      split
      · have hmax := channelInfo_maxTransfer hch
        exact ⟨_, countDescriptors_eq (by rw [hmax]; decide) (Nat.le_refl _)
          (by rw [List.length_drop]; omega)⟩
      · exact ⟨_, rfl⟩
    exact ⟨_, bind_eq_ok.mpr ⟨chInfo, hch, (if_neg hne).trans (bind_eq_ok.mpr ⟨g, hg,
      bind_eq_ok.mpr ⟨_, hskip, bind_eq_ok.mpr ⟨num, hnum, rfl⟩⟩⟩)⟩⟩

theorem skipOffset_ranges {mapInfo : TpceDmaMapInfo}
    (hidx : tpceDmaMapNumRanges mapInfo ≤ mapInfo.sgt.sgl.slots.length) (off : U32) :
    ∃ k rem, skipOffset (tpceDmaMapNumRanges mapInfo) 0 mapInfo.sgt.sgl.slots off = .ok (k, rem) ∧
      k ≤ (ranges mapInfo).length ∧
      (((ranges mapInfo).take k).map rangeBytes).sum + rem.toNat = off.toNat ∧
      ∀ sg rest, (ranges mapInfo).drop k = sg :: rest → rem.toNat < rangeBytes sg := by
  obtain ⟨k, rem, hskip, hk, hsum, hlt⟩ := skipOffset_spec 0 off hidx
  rw [Nat.zero_add] at hskip
  refine ⟨k, rem, hskip, ?_, ?_, fun sg rest hdrop => ?_⟩
  · rw [ranges, List.length_take]
    omega
  · rw [ranges, List.take_take, Nat.min_eq_left hk]
    exact hsum
  · rw [ranges, List.drop_take] at hdrop
    cases hn : tpceDmaMapNumRanges mapInfo - k with
    | zero => simp [hn] at hdrop
    | succ n =>
        cases hslots : mapInfo.sgt.sgl.slots.drop k with
        | nil => simp [hslots] at hdrop
        | cons sg' rest' =>
            rw [hn, hslots, List.take_succ_cons] at hdrop
            obtain rfl : sg' = sg := (List.cons.inj hdrop).1
            exact hlt sg' rest' (by omega) hslots

theorem Sized.sum_drop {mapInfo : TpceDmaMapInfo} (hmap : Sized mapInfo) (k : ℕ) :
    (((ranges mapInfo).take k).map rangeBytes).sum + (((ranges mapInfo).drop k).map rangeBytes).sum =
      mapInfo.size.toNat := by
  rw [← hmap.total, ← List.sum_append, ← List.map_append, List.take_append_drop]

/-- A transfer inside the mapping goes through parts of its ranges that tile
it once they are cut. -/
theorem partsFrom_tiles {params : TpceDmaTransferParams} {mapInfo : TpceDmaMapInfo}
    (hmap : Sized mapInfo)
    (hfit : params.mapOffset.toNat + params.bytesTotal.toNat ≤ mapInfo.size.toNat) :
    ((partsFrom params mapInfo (ranges mapInfo)).map Prod.snd).sum = params.bytesTotal.toNat ∧
      Tiles (segments mapInfo) params.mapOffset.toNat
        (params.mapOffset.toNat + params.bytesTotal.toNat)
        (pieces (pieceLength params) (partsFrom params mapInfo (ranges mapInfo))) := by
  obtain ⟨k, rem, hskip, -, hsum, hlt⟩ := skipOffset_ranges hmap.indexed params.mapOffset
  have hsplit := hmap.sum_drop k
  have htiles := tiles_touchedParts (pieceLength_pos params) rem params.bytesTotal
    ((ranges mapInfo).take k) ((ranges mapInfo).drop k)
    (fun sg rest hdrop => (hlt sg rest hdrop).le) (by omega)
  rw [List.take_append_drop, hsum] at htiles
  rw [partsFrom_eq hskip]
  exact htiles

theorem generate_regular {params : TpceDmaTransferParams} {mapInfo : TpceDmaMapInfo}
    {chInfo : TpceDmaChannelInfo} (hmap : Ranged mapInfo)
    (hch : channelInfo params.channel = .ok chInfo) (hpos : 0 < params.bytesTotal.toNat)
    (hfit : params.mapOffset.toNat + params.bytesTotal.toNat ≤ mapInfo.size.toNat)
    (hreg : ∀ p ∈ partsFrom params mapInfo (ranges mapInfo),
      Regular (pieceLength params) (fixedLength params) p.2)
    (hcount : plannedCount params mapInfo =
      pieceCount (pieceLength params) (partsFrom params mapInfo (ranges mapInfo))) :
    ∃ plan, createDescriptorPlan mapInfo params = .ok plan ∧
      plan.numDescriptors.toNat = plannedCount params mapInfo ∧ 0 < plan.numDescriptors.toNat ∧
      ∀ maxDescriptors ds, plan.numDescriptors ≤ maxDescriptors →
        plan.numDescriptors.toNat ≤ ds.length →
        ∃ out, GeneratesWithin params mapInfo ds maxDescriptors (plan.numDescriptors.toInt, out) ∧
          out.length = ds.length ∧
          out.drop plan.numDescriptors.toNat = ds.drop plan.numDescriptors.toNat ∧
          (out.take plan.numDescriptors.toNat).map (hostInterval params.direction) =
            pieces (pieceLength params) (partsFrom params mapInfo (ranges mapInfo)) := by
  obtain ⟨plan, hplan⟩ := createDescriptorPlan_exists hch hmap.indexed
  obtain ⟨hnum, hcases⟩ := createDescriptorPlan_cases hplan
  obtain ⟨hsum, htiles⟩ := partsFrom_tiles hmap.sized hfit
  have hL := pieceLength_pos params
  have hn : 0 < plan.numDescriptors.toNat := by
    rw [hnum, hcount, ← length_pieces hL]
    refine List.length_pos_iff.mpr fun hnil => ?_
    rw [hnil] at htiles
    have : params.mapOffset.toNat = params.mapOffset.toNat + params.bytesTotal.toNat := htiles
    omega
  have hz : ¬ plan.numDescriptors = 0 := fun h => by simp [h] at hn
  obtain ⟨hne, -, hskip⟩ := hcases.resolve_left hz
  have hstart : plan.startingIdx ≤ (ranges mapInfo).length := by
    obtain ⟨k, rem, hskip', hk, -⟩ := skipOffset_ranges hmap.indexed params.mapOffset
    rw [hskip'] at hskip
    simp only [Except.ok.injEq, Prod.mk.injEq] at hskip
    rw [← hskip.1]
    exact hk
  refine ⟨plan, hplan, hnum, hn, fun maxDescriptors ds hmax hlen => ?_⟩
  have hstep := stepLength_eq hch
  rw [partsFrom_eq hskip] at hreg hcount hsum ⊢
  obtain ⟨written, hfill, hw⟩ := fillRanges_regular plan ((ranges mapInfo).drop plan.startingIdx)
    plan.startingIdx 0 params.deviceAddr params.bytesTotal
    (List.replicate plan.numDescriptors.toNat default ++ ds.drop plan.numDescriptors.toNat)
    (hstep ▸ hL) (Nat.le_refl _) (if_pos rfl) (hstep ▸ hreg) hsum
    (by rw [hstep, Nat.zero_add, hnum, hcount])
    (by rw [hstep, ← hcount, ← hnum, List.length_append, List.length_replicate]; omega)
  rw [hstep] at hw
  have hwlen : written.length = plan.numDescriptors.toNat := by
    have := congrArg List.length hw
    rw [List.length_map, length_pieces hL] at this
    omega
  have hzero : zeroDescriptors ds plan.numDescriptors.toNat =
      .ok (List.replicate plan.numDescriptors.toNat default ++ ds.drop plan.numDescriptors.toNat) :=
    if_neg (Nat.not_lt.mpr hlen)
  rw [hwlen, List.drop_left' List.length_replicate] at hfill
  have hgen : tpceGenerateDescriptors params (onlyRanges mapInfo) ds maxDescriptors =
      .ok (plan.numDescriptors.toInt, ((written ++ ds.drop plan.numDescriptors.toNat).mapIdx
        (fillControlFlags params chInfo plan)).mapIdx (fillOtherFields params chInfo plan)) := by
    refine bind_eq_ok.mpr ⟨plan, (createDescriptorPlan_onlyRanges mapInfo params).trans hplan, ?_⟩
    rw [if_neg (BitVec.not_lt.mpr hmax), if_neg hz]
    exact bind_eq_ok.mpr ⟨chInfo, hch, bind_eq_ok.mpr ⟨_, hzero, bind_eq_ok.mpr ⟨_, hfill, rfl⟩⟩⟩
  refine ⟨_, generatesWithin (fun p hp => ?_) hgen, ?_, ?_, ?_⟩
  · rw [hplan] at hp
    cases hp
    exact hstart
  · rw [List.length_mapIdx, List.length_mapIdx, List.length_append, hwlen, List.length_drop]
    omega
  · rw [drop_mapIdx_of_eq (fillOtherFields_ge params chInfo),
      drop_mapIdx_of_eq (fillControlFlags_ge params chInfo hn), List.drop_left' hwlen]
  · rw [List.map_take, map_mapIdx_of_eq (hostInterval_fillOtherFields params chInfo plan _),
      map_mapIdx_of_eq (hostInterval_fillControlFlags params chInfo plan _), ← List.map_take,
      List.take_left' hwlen, hw]

end TpceDrv.MappedRanges
