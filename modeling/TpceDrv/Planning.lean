import TpceDrv.Reach
import TpceDrv.Library.Euclid

namespace TpceDrv.Planning

open Descriptor Mapping DmaParams Generation Reach Library.Cuts Library.Euclid

def rangeBytes (sg : Scatterlist) : ℕ := (tpceDmaMapRangeSize sg).toNat

theorem gcdSizes_spec {n i : ℕ} {slots : List Scatterlist} {res prev r : U32}
    (h : gcdSizes n i slots res prev = .ok r) :
    n ≤ slots.length ∧ r.toNat = gcdSkipping res.toNat prev.toNat ((slots.take n).map rangeBytes) := by
  induction n generalizing i slots res prev with
  | zero =>
      cases h
      exact ⟨Nat.zero_le _, rfl⟩
  | succ n ih =>
      cases slots with
      | nil => cases h
      | cons sg rest =>
          have hprev : prev.toNat = rangeBytes sg ↔ prev = tpceDmaMapRangeSize sg := BitVec.toNat_inj
          rw [List.take_succ_cons, List.map_cons, gcdSkipping, List.length_cons]
          simp only [gcdSizes] at h
          split at h
          · obtain ⟨hlen, hr⟩ := ih h
            rw [if_pos (hprev.mpr ‹_›)]
            exact ⟨Nat.succ_le_succ hlen, hr⟩
          · obtain ⟨hlen, hr⟩ := ih h
            rw [if_neg (mt hprev.mp ‹_›)]
            rw [gcd_toNat] at hr
            exact ⟨Nat.succ_le_succ hlen, hr⟩

theorem gcdSizes_exists {n i : ℕ} {slots : List Scatterlist} {res prev : U32} (hn : n ≤ slots.length) :
    ∃ r, gcdSizes n i slots res prev = .ok r := by
  induction n generalizing i slots res prev with
  | zero => exact ⟨res, rfl⟩
  | succ n ih =>
      cases slots with
      | nil => simp at hn
      | cons sg rest =>
          have hn' : n ≤ rest.length := by simpa using hn
          simp only [gcdSizes]
          split
          · exact ih hn'
          · exact ih hn'

/-- The loop has read all of the ranges, and what it has computed is the gcd of their sizes. -/
theorem gcdDmaPageSizes_toNat {mapInfo : TpceDmaMapInfo} {r : U32}
    (h : gcdDmaPageSizes mapInfo = .ok r) (hne : tpceDmaMapNumRanges mapInfo ≠ 0) :
    tpceDmaMapNumRanges mapInfo ≤ mapInfo.sgt.sgl.slots.length ∧
      r.toNat = Multiset.gcd
        ((mapInfo.sgt.sgl.slots.take (tpceDmaMapNumRanges mapInfo)).map rangeBytes : Multiset ℕ) := by
  simp only [gcdDmaPageSizes] at h
  generalize tpceDmaMapNumRanges mapInfo = n at *
  generalize mapInfo.sgt.sgl.slots = slots at *
  cases n with
  | zero => exact absurd rfl hne
  | succ n =>
      cases slots with
      | nil => cases h
      | cons sg rest =>
          obtain ⟨hlen, hr⟩ := gcdSizes_spec h
          refine ⟨Nat.succ_le_succ hlen, ?_⟩
          rw [hr, List.take_succ_cons, List.map_cons]
          exact gcdSkipping_eq_gcd _ _

/-- A divisor of the computed gcd divides every range, and the loop has read
all of them. -/
theorem gcdDmaPageSizes_spec {mapInfo : TpceDmaMapInfo} {r : U32}
    (h : gcdDmaPageSizes mapInfo = .ok r) (hne : tpceDmaMapNumRanges mapInfo ≠ 0) :
    tpceDmaMapNumRanges mapInfo ≤ mapInfo.sgt.sgl.slots.length ∧ ∀ d, d ∣ r.toNat ↔
      ∀ sg ∈ mapInfo.sgt.sgl.slots.take (tpceDmaMapNumRanges mapInfo), d ∣ rangeBytes sg := by
  obtain ⟨hlen, hr⟩ := gcdDmaPageSizes_toNat h hne
  refine ⟨hlen, fun d => ?_⟩
  rw [hr, Multiset.dvd_gcd]
  exact List.forall_mem_map

theorem gcdDmaPageSizes_exists {mapInfo : TpceDmaMapInfo}
    (h : tpceDmaMapNumRanges mapInfo ≤ mapInfo.sgt.sgl.slots.length) :
    ∃ r, gcdDmaPageSizes mapInfo = .ok r := by
  simp only [gcdDmaPageSizes]
  generalize tpceDmaMapNumRanges mapInfo = n at *
  generalize mapInfo.sgt.sgl.slots = slots at *
  cases n with
  | zero => exact ⟨0, rfl⟩
  | succ n =>
      cases slots with
      | nil => simp at h
      | cons sg rest => exact gcdSizes_exists (by simpa using h)

/-- The pieces that the planning loop counts. Its rounding up wraps on a part
of more than `2 ^ 32 - L` bytes. -/
def plannedPieces (L : ℕ) (parts : List (U64 × ℕ)) : ℕ :=
  (parts.map fun p => (p.2 + L - 1) % 2 ^ 32 / L).sum

@[simp] theorem plannedPieces_cons (L : ℕ) (p : U64 × ℕ) (parts : List (U64 × ℕ)) :
    plannedPieces L (p :: parts) = (p.2 + L - 1) % 2 ^ 32 / L + plannedPieces L parts := rfl

theorem plannedPieces_le (L : ℕ) (parts : List (U64 × ℕ)) : plannedPieces L parts ≤ pieceCount L parts := by
  induction parts with
  | nil => exact Nat.le_refl _
  | cons p parts ih =>
      have := Nat.div_le_div_right (c := L) (Nat.mod_le (p.2 + L - 1) (2 ^ 32))
      rw [plannedPieces_cons, pieceCount_cons]
      omega

theorem plannedPieces_eq {L : ℕ} {parts : List (U64 × ℕ)} (h : ∀ p ∈ parts, p.2 + L - 1 < 2 ^ 32) :
    plannedPieces L parts = pieceCount L parts := by
  induction parts with
  | nil => rfl
  | cons p parts ih =>
      rw [plannedPieces_cons, pieceCount_cons, ih fun q hq => h q (List.mem_cons_of_mem p hq),
        Nat.mod_eq_of_lt (h p List.mem_cons_self)]

theorem pieceCount_le_sum {L : ℕ} (hL : 0 < L) (parts : List (U64 × ℕ)) :
    pieceCount L parts ≤ (parts.map Prod.snd).sum := by
  induction parts with
  | nil => exact Nat.le_refl _
  | cons p parts ih =>
      have hceil : (p.2 + L - 1) / L ≤ p.2 := by
        refine Nat.le_of_lt_succ ((Nat.div_lt_iff_lt_mul hL).mpr ?_)
        have := Nat.le_mul_of_pos_right p.2 hL
        rw [Nat.succ_mul]
        omega
      rw [pieceCount_cons, List.map_cons, List.sum_cons]
      omega

theorem sum_touchedParts_le (skip total : U32) (slots : List Scatterlist) :
    ((touchedParts skip total slots).map Prod.snd).sum ≤ total.toNat := by
  induction slots generalizing skip total with
  | nil => exact Nat.zero_le _
  | cons sg rest ih =>
      simp only [touchedParts]
      split
      · have hmin := toNat_tpceMin (tpceDmaMapRangeSize sg - skip) total
        have hsub := BitVec.toNat_sub_of_le (x := total)
          (y := tpceMin (tpceDmaMapRangeSize sg - skip) total) (BitVec.le_def.mpr (by omega))
        have hrest := ih 0 (total - tpceMin (tpceDmaMapRangeSize sg - skip) total)
        simp only [List.map_cons, List.sum_cons]
        omega
      · exact Nat.zero_le _

theorem plannedPieces_touchedParts_lt {L : ℕ} (hL : 0 < L) (skip total : U32) (slots : List Scatterlist) :
    plannedPieces L (touchedParts skip total slots) < 2 ^ 32 :=
  calc plannedPieces L (touchedParts skip total slots)
      ≤ pieceCount L (touchedParts skip total slots) := plannedPieces_le L _
    _ ≤ ((touchedParts skip total slots).map Prod.snd).sum := pieceCount_le_sum hL _
    _ ≤ total.toNat := sum_touchedParts_le skip total slots
    _ < 2 ^ 32 := total.isLt

theorem touchedParts_take (skip total : U32) (slots : List Scatterlist) (k : ℕ) :
    touchedParts skip total (slots.take k) <+: touchedParts skip total slots := by
  induction slots generalizing skip total k with
  | nil => simp
  | cons sg rest ih =>
      cases k with
      | zero => exact List.nil_prefix
      | succ k =>
          rw [List.take_succ_cons, touchedParts, touchedParts]
          split
          · exact List.prefix_cons_inj _ |>.mpr (ih _ _ k)
          · exact List.prefix_refl []

theorem pieceCount_le_of_isPrefix {L : ℕ} {ps qs : List (U64 × ℕ)} (h : ps <+: qs) :
    pieceCount L ps ≤ pieceCount L qs := by
  obtain ⟨rs, rfl⟩ := h
  simp [pieceCount]

theorem tpceMin_comm (a b : U32) : tpceMin a b = tpceMin b a :=
  BitVec.eq_of_toNat_eq (by rw [toNat_tpceMin, toNat_tpceMin, Nat.min_comm])

theorem divRoundUp_toNat {d : U32} (hd : 0 < d.toNat) (n : U32) :
    (divRoundUp n d).toNat = (n.toNat + d.toNat - 1) % 2 ^ 32 / d.toNat := by
  have hn := n.isLt
  have hlt := d.isLt
  rw [divRoundUp, BitVec.toNat_udiv]
  congr 1
  bv_omega

theorem countDescriptors_eq {maxTransfer : U32} (hmax : 0 < maxTransfer.toNat) {offIdx i n : ℕ}
    {offRem rem num : U32} {slots : List Scatterlist} (hi : offIdx ≤ i) (hn : n ≤ slots.length) :
    countDescriptors maxTransfer offIdx offRem n i slots rem num =
      .ok (num + BitVec.ofNat 32 (plannedPieces maxTransfer.toNat
        (touchedParts (if i = offIdx then offRem else 0) rem (slots.take n)))) := by
  induction n generalizing i slots rem num with
  | zero => simp [countDescriptors, touchedParts, plannedPieces]
  | succ n ih =>
      cases slots with
      | nil => simp at hn
      | cons sg rest =>
          rw [countDescriptors, List.take_succ_cons, touchedParts]
          split
          · have hnext : i + 1 ≠ offIdx := by omega
            simp only [ih (Nat.le_succ_of_le hi) (by simpa using hn), if_neg hnext,
              tpceMin_comm rem, plannedPieces_cons, ← divRoundUp_toNat hmax, BitVec.ofNat_add,
              BitVec.ofNat_toNat, BitVec.setWidth_eq, BitVec.add_assoc]
          · simp [plannedPieces]

theorem skipOffset_spec {n : ℕ} {slots : List Scatterlist} (i : ℕ) (off : U32) (hn : n ≤ slots.length) :
    ∃ k rem, skipOffset n i slots off = .ok (i + k, rem) ∧ k ≤ n ∧
      ((slots.take k).map rangeBytes).sum + rem.toNat = off.toNat ∧
      ∀ sg rest, k < n → slots.drop k = sg :: rest → rem.toNat < rangeBytes sg := by
  induction n generalizing i slots off with
  | zero => exact ⟨0, off, rfl, Nat.le_refl 0, by simp, fun _ _ h => absurd h (Nat.lt_irrefl 0)⟩
  | succ n ih =>
      cases slots with
      | nil => simp at hn
      | cons sg rest =>
          rw [skipOffset]
          split
          · rename_i hge
            obtain ⟨k, rem, hok, hk, hsum, hlt⟩ := ih (i + 1)
              (off - tpceDmaMapRangeSize sg) (by simpa using hn)
            have hsub := BitVec.toNat_sub_of_le hge
            have hle := BitVec.le_def.mp hge
            refine ⟨k + 1, rem, by rw [hok, Nat.add_assoc, Nat.add_comm 1], by omega, ?_, ?_⟩
            · simp only [List.take_succ_cons, List.map_cons, List.sum_cons]
              show (tpceDmaMapRangeSize sg).toNat + _ + _ = _
              omega
            · intro sg' rest' hk' hdrop
              exact hlt sg' rest' (by omega) hdrop
          · rename_i hlt
            refine ⟨0, off, rfl, by omega, by simp, fun sg' rest' _ hdrop => ?_⟩
            obtain rfl : sg = sg' := (List.cons.inj hdrop).1
            exact BitVec.not_le.mp hlt

/-- The parts of the given ranges that the request goes through. -/
def partsFrom (params : TpceDmaTransferParams) (mapInfo : TpceDmaMapInfo) (slots : List Scatterlist) :
    List (U64 × ℕ) :=
  match skipOffset (tpceDmaMapNumRanges mapInfo) 0 mapInfo.sgt.sgl.slots params.mapOffset with
  | .ok (offIdx, offRem) => touchedParts offRem params.bytesTotal (slots.drop offIdx)
  | .error _ => []

def pieceLength (params : TpceDmaTransferParams) : ℕ :=
  if params.bytesPerDescriptor > 0 then params.bytesPerDescriptor.toNat else 262144

/-- The number of descriptors of a request, in terms of its parts. -/
def plannedCount (params : TpceDmaTransferParams) (mapInfo : TpceDmaMapInfo) : ℕ :=
  let nents := tpceDmaMapNumRanges mapInfo
  if nents = 0 then 0
  else if params.bytesPerDescriptor = 0 then
    plannedPieces (pieceLength params) (partsFrom params mapInfo (mapInfo.sgt.sgl.slots.take nents))
  else params.bytesTotal.toNat / params.bytesPerDescriptor.toNat

/-- The stretches of memory that the descriptors of a request cover. -/
def requestReach (params : TpceDmaTransferParams) (mapInfo : TpceDmaMapInfo) : List (U64 × ℕ) :=
  reach (pieceLength params) (fixedLength params) (plannedCount params mapInfo)
    (partsFrom params mapInfo mapInfo.sgt.sgl.slots)

theorem stepLength_eq {params : TpceDmaTransferParams} {chInfo : TpceDmaChannelInfo}
    (h : channelInfo params.channel = .ok chInfo) : stepLength params chInfo = pieceLength params := by
  rw [stepLength, pieceLength, channelInfo_maxTransfer h]
  rfl

theorem pieceLength_pos (params : TpceDmaTransferParams) : 0 < pieceLength params := by
  simp only [pieceLength]
  split
  · rename_i h
    exact BitVec.lt_def.mp h
  · decide

theorem ne_zero_iff_pos {n : U32} : ¬ n = 0 ↔ n > 0 :=
  ⟨fun h => Decidable.byContradiction fun hn => h (eq_zero_of_not_pos hn), fun h hn => by
    subst hn
    exact absurd h (by decide)⟩

theorem createDescriptorPlan_cases {mapInfo : TpceDmaMapInfo} {params : TpceDmaTransferParams}
    {plan : DescriptorPlan} (h : createDescriptorPlan mapInfo params = .ok plan) :
    plan.numDescriptors.toNat = plannedCount params mapInfo ∧
      (plan.numDescriptors = 0 ∨
        tpceDmaMapNumRanges mapInfo ≠ 0 ∧
        tpceDmaMapNumRanges mapInfo ≤ mapInfo.sgt.sgl.slots.length ∧
        skipOffset (tpceDmaMapNumRanges mapInfo) 0 mapInfo.sgt.sgl.slots params.mapOffset =
          .ok (plan.startingIdx, plan.startingOffset)) := by
  obtain ⟨chInfo, hch, h⟩ := bind_eq_ok.mp h
  dsimp only at h
  split at h
  · rename_i hz
    cases h
    exact ⟨by simp [plannedCount, hz], .inl rfl⟩
  · rename_i hne
    obtain ⟨g, hg, h⟩ := bind_eq_ok.mp h
    obtain ⟨⟨offIdx, offRem⟩, hskip, h⟩ := bind_eq_ok.mp h
    obtain ⟨num, hnum, h⟩ := bind_eq_ok.mp h
    cases h
    have hlen := (gcdDmaPageSizes_spec hg hne).1
    refine ⟨?_, .inr ⟨hne, hlen, hskip⟩⟩
    simp only [plannedCount, hne, if_false]
    split at hnum
    · rename_i hb
      have hmax := channelInfo_maxTransfer hch
      have hoff : (if offIdx = offIdx then offRem else 0) = offRem := if_pos rfl
      rw [countDescriptors_eq (by rw [hmax]; decide) (Nat.le_refl offIdx)
        (by rw [List.length_drop]; omega), hoff] at hnum
      cases hnum
      rw [if_pos hb, partsFrom, hskip]
      dsimp only
      rw [List.drop_take, hmax, pieceLength, if_neg (by rw [hb]; decide)]
      show (0#32 + BitVec.ofNat 32 (plannedPieces 262144 _)).toNat = _
      rw [BitVec.zero_add, BitVec.toNat_ofNat]
      exact Nat.mod_eq_of_lt (plannedPieces_touchedParts_lt (by decide) _ _ _)
    · rename_i hb
      cases hnum
      rw [if_neg hb, BitVec.toNat_udiv]

theorem createDescriptorPlan_start {mapInfo : TpceDmaMapInfo} {params : TpceDmaTransferParams}
    {plan : DescriptorPlan} (h : createDescriptorPlan mapInfo params = .ok plan)
    (hne : tpceDmaMapNumRanges mapInfo ≠ 0) :
    skipOffset (tpceDmaMapNumRanges mapInfo) 0 mapInfo.sgt.sgl.slots params.mapOffset =
      .ok (plan.startingIdx, plan.startingOffset) := by
  obtain ⟨chInfo, -, h⟩ := bind_eq_ok.mp h
  dsimp only at h
  rw [if_neg hne] at h
  obtain ⟨g, -, h⟩ := bind_eq_ok.mp h
  obtain ⟨⟨offIdx, offRem⟩, hskip, h⟩ := bind_eq_ok.mp h
  obtain ⟨num, -, h⟩ := bind_eq_ok.mp h
  cases h
  exact hskip

theorem map_mapIdx_of_eq {α β : Type} {g : α → β} {f : ℕ → α → α} (h : ∀ i a, g (f i a) = g a)
    (l : List α) : (l.mapIdx f).map g = l.map g := by
  apply List.ext_getElem
  · simp
  · intro i h₁ h₂
    simp [h]

theorem hostInterval_orControl (direction : U8) (desc : TpceDmaDescriptor) (flags : U32) :
    hostInterval direction (orControl desc flags) = hostInterval direction desc := rfl

theorem hostInterval_fillControlFlags (params : TpceDmaTransferParams) (chInfo : TpceDmaChannelInfo)
    (plan : DescriptorPlan) (direction : U8) (i : ℕ) (desc : TpceDmaDescriptor) :
    hostInterval direction (fillControlFlags params chInfo plan i desc) = hostInterval direction desc := by
  unfold fillControlFlags fillControlFlagsDefault fillControlFlagsStream
  split_ifs
  all_goals simp only [hostInterval_orControl]
  split_ifs
  all_goals simp only [hostInterval_orControl]

theorem hostInterval_fillOtherFields (params : TpceDmaTransferParams) (chInfo : TpceDmaChannelInfo)
    (plan : DescriptorPlan) (direction : U8) (i : ℕ) (desc : TpceDmaDescriptor) :
    hostInterval direction (fillOtherFields params chInfo plan i desc) = hostInterval direction desc := by
  simp only [fillOtherFields]
  split
  · rfl
  · rfl

theorem covered_plan {params : TpceDmaTransferParams} {mapInfo : TpceDmaMapInfo}
    (hne : tpceDmaMapNumRanges mapInfo ≠ 0) {offIdx : ℕ} {offRem : U32}
    (hskip : skipOffset (tpceDmaMapNumRanges mapInfo) 0 mapInfo.sgt.sgl.slots params.mapOffset =
      .ok (offIdx, offRem)) :
    Covered (pieceLength params) (fixedLength params) (plannedCount params mapInfo)
      params.bytesTotal.toNat
      (touchedParts offRem params.bytesTotal (mapInfo.sgt.sgl.slots.drop offIdx)) := by
  by_cases hb : params.bytesPerDescriptor = 0
  · have hf : fixedLength params = false := by simp [fixedLength, hb]
    simp only [plannedCount, hne, hb, if_false, if_true, partsFrom, hskip, hf]
    rw [List.drop_take]
    exact (plannedPieces_le _ _).trans (pieceCount_le_of_isPrefix (touchedParts_take _ _ _ _))
  · have hpos := ne_zero_iff_pos.mp hb
    have hf : fixedLength params = true := by simpa [fixedLength] using hpos
    simp only [plannedCount, hne, hb, if_false, hf, pieceLength, hpos, if_true]
    exact Nat.div_mul_le_self _ _

theorem partsFrom_eq {params : TpceDmaTransferParams} {mapInfo : TpceDmaMapInfo} {offIdx : ℕ}
    {offRem : U32} (hskip : skipOffset (tpceDmaMapNumRanges mapInfo) 0 mapInfo.sgt.sgl.slots
      params.mapOffset = .ok (offIdx, offRem)) (slots : List Scatterlist) :
    partsFrom params mapInfo slots = touchedParts offRem params.bytesTotal (slots.drop offIdx) := by
  rw [partsFrom, hskip]

theorem toInt_of_nonneg {n : U32} (h : 0 ≤ n.toInt) : n.toInt = n.toNat := by
  have hcond := BitVec.toInt_eq_toNat_cond n
  have hlt := n.isLt
  split at hcond
  · exact hcond
  · omega

theorem tpceGenerateDescriptors_reach {params : TpceDmaTransferParams} {mapInfo : TpceDmaMapInfo}
    {ds out : List TpceDmaDescriptor} {maxDescriptors : U32} {ret : Int}
    (h : tpceGenerateDescriptors params mapInfo ds maxDescriptors = .ok (ret, out)) (hret : 0 ≤ ret) :
    ret = plannedCount params mapInfo ∧ plannedCount params mapInfo ≤ maxDescriptors.toNat ∧
      (out.take (plannedCount params mapInfo)).map (hostInterval params.direction) =
        pieces (pieceLength params) (requestReach params mapInfo) ∧
      ∀ d ∈ out.take (plannedCount params mapInfo),
        d.readStride = params.readStride ∧ d.writeStride = params.writeStride := by
  obtain ⟨plan, hplan, h⟩ := bind_eq_ok.mp h
  obtain ⟨hnum, hcases⟩ := createDescriptorPlan_cases hplan
  split at h
  · cases h
    exact absurd hret (by decide)
  · rename_i hmax
    rw [← hnum]
    have hle := BitVec.le_def.mp (BitVec.not_lt.mp hmax)
    split at h
    · rename_i hz
      cases h
      simp only [requestReach, ← hnum, hz]
      exact ⟨rfl, Nat.zero_le _, by simp [pieces_reach_zero (pieceLength_pos params)], by simp⟩
    · rename_i hz
      obtain ⟨chInfo, hch, h⟩ := bind_eq_ok.mp h
      obtain ⟨zeroed, -, h⟩ := bind_eq_ok.mp h
      obtain ⟨filled, hfill, h⟩ := bind_eq_ok.mp h
      cases h
      obtain ⟨hne, -, hskip⟩ := hcases.resolve_left hz
      have hL : 0 < stepLength params chInfo := by
        rw [stepLength_eq hch]
        exact pieceLength_pos params
      have hreach := fillRanges_reach hL (Nat.le_refl _) rfl
        (by rw [if_pos rfl, stepLength_eq hch, hnum]; exact covered_plan hne hskip) hfill
      rw [if_pos rfl, stepLength_eq hch, Nat.sub_zero] at hreach
      refine ⟨?_, hle, ?_, ?_⟩
      · exact toInt_of_nonneg hret
      · rw [List.map_take, map_mapIdx_of_eq (hostInterval_fillOtherFields params chInfo plan _),
          map_mapIdx_of_eq (hostInterval_fillControlFlags params chInfo plan _), ← List.map_take,
          hreach, requestReach, partsFrom_eq hskip, hnum]
      · intro d hd
        obtain ⟨i, hi, rfl⟩ := List.mem_take_iff_getElem.mp hd
        rw [List.getElem_mapIdx, fillOtherFields, if_pos (by omega)]
        exact ⟨rfl, rfl⟩

theorem zeroDescriptors_ok {ds zeroed : List TpceDmaDescriptor} {num : ℕ} (h : zeroDescriptors ds num = .ok zeroed) :
    num ≤ ds.length ∧ zeroed.length = ds.length := by
  simp only [zeroDescriptors] at h
  split at h
  · cases h
  · cases h
    rw [List.length_append, List.length_replicate, List.length_drop]
    omega

theorem tpceGenerateDescriptors_length {params : TpceDmaTransferParams} {mapInfo : TpceDmaMapInfo}
    {ds out : List TpceDmaDescriptor} {maxDescriptors : U32} {ret : Int}
    (h : tpceGenerateDescriptors params mapInfo ds maxDescriptors = .ok (ret, out)) :
    out.length = ds.length ∧ (0 ≤ ret → plannedCount params mapInfo ≤ out.length) := by
  obtain ⟨plan, hplan, h⟩ := bind_eq_ok.mp h
  obtain ⟨hnum, -⟩ := createDescriptorPlan_cases hplan
  split at h
  · cases h
    exact ⟨rfl, fun hret => absurd hret (by decide)⟩
  split at h
  · rename_i hz
    cases h
    rw [← hnum, hz]
    exact ⟨rfl, fun _ => Nat.zero_le _⟩
  · obtain ⟨chInfo, hch, h⟩ := bind_eq_ok.mp h
    obtain ⟨zeroed, hzero, h⟩ := bind_eq_ok.mp h
    obtain ⟨filled, hfill, h⟩ := bind_eq_ok.mp h
    cases h
    have hL : 0 < stepLength params chInfo := stepLength_eq hch ▸ pieceLength_pos params
    rw [List.length_mapIdx, List.length_mapIdx, length_fillRanges hL hfill, ← hnum]
    obtain ⟨hroom, hlength⟩ := zeroDescriptors_ok hzero
    exact ⟨hlength, fun _ => hlength ▸ hroom⟩

end TpceDrv.Planning
