import TpceDrv.FlexibleGeneration

namespace TpceDrv.FixedGeneration

open Descriptor Mapping DmaParams Generation Reach Planning MappedRanges FlexibleGeneration Library.Cuts

/-- A validated request for descriptors of a given length, for a transfer
inside the mapping. -/
structure FixedRequest (params : TpceDmaTransferParams) (mapInfo : TpceDmaMapInfo) : Prop where
  fixed : 0 < params.bytesPerDescriptor.toNat
  positive : 0 < params.bytesTotal.toNat
  validated : tpceValidateDmaParams params mapInfo = .ok 0
  inside : params.mapOffset.toNat + params.bytesTotal.toNat ≤ mapInfo.size.toNat

/-- With the capacity that is computed for the request, exactly
`bytes_total / bytes_per_descriptor` descriptors are written and they cover
the transfer. -/
def GeneratedFixed (params : TpceDmaTransferParams) (mapInfo : TpceDmaMapInfo) : Prop :=
  ∀ ds : List TpceDmaDescriptor,
    params.bytesTotal.toNat / params.bytesPerDescriptor.toNat ≤ ds.length →
    ∃ out, GeneratesWithin params mapInfo ds (tpceMaxDescriptorsNeeded params)
        (((params.bytesTotal.toNat / params.bytesPerDescriptor.toNat : ℕ) : Int), out) ∧
      Partition params mapInfo (params.bytesTotal.toNat / params.bytesPerDescriptor.toNat) ds out

/-- The transfer lies inside the range with index `k` for some `k`. -/
def InOneRange (params : TpceDmaTransferParams) (mapInfo : TpceDmaMapInfo) : Prop :=
  ∃ k, (((ranges mapInfo).take k).map rangeBytes).sum ≤ params.mapOffset.toNat ∧
    params.mapOffset.toNat + params.bytesTotal.toNat ≤
      (((ranges mapInfo).take (k + 1)).map rangeBytes).sum

/-- The divisibility that the validator leaves out. -/
def EvenlyCut (params : TpceDmaTransferParams) (mapInfo : TpceDmaMapInfo) : Prop :=
  params.bytesPerDescriptor.toNat ∣ params.bytesTotal.toNat ∧
    (params.bytesPerDescriptor.toNat ∣ params.mapOffset.toNat ∨ InOneRange params mapInfo)

variable {params : TpceDmaTransferParams} {mapInfo : TpceDmaMapInfo}

theorem FixedRequest.pieceLength_eq (hreq : FixedRequest params mapInfo) :
    pieceLength params = params.bytesPerDescriptor.toNat :=
  if_pos (gt_zero_of_toNat hreq.fixed)

theorem FixedRequest.fixedLength_eq (hreq : FixedRequest params mapInfo) : fixedLength params = true :=
  decide_eq_true (BitVec.lt_def.mpr hreq.fixed)

theorem FixedRequest.plannedCount_eq (hmap : Ranged mapInfo) (hreq : FixedRequest params mapInfo) :
    plannedCount params mapInfo = params.bytesTotal.toNat / params.bytesPerDescriptor.toNat := by
  have hb : ¬ params.bytesPerDescriptor = 0 := ne_zero_iff_pos.mpr (BitVec.lt_def.mpr hreq.fixed)
  simp only [plannedCount, hmap.nonempty, hb, if_false]

theorem bytesPerDescriptorBad_eq_false_iff (hmap : Ranged mapInfo) {chInfo : TpceDmaChannelInfo}
    (hpos : 0 < params.bytesPerDescriptor.toNat) :
    bytesPerDescriptorBad params mapInfo chInfo = .ok false ↔
      params.bytesPerDescriptor % chInfo.dataWidth = 0 ∧ params.bytesPerDescriptor ≤ chInfo.maxTransfer ∧
        ∀ sg ∈ ranges mapInfo, params.bytesPerDescriptor.toNat ∣ rangeBytes sg := by
  obtain ⟨g, hg⟩ := gcdDmaPageSizes_exists hmap.indexed
  have hdvd := (gcdDmaPageSizes_spec hg hmap.nonempty).2 params.bytesPerDescriptor.toNat
  rw [bytesPerDescriptorBad, if_pos (gt_zero_of_toNat hpos), hg]
  simp only [bind, Except.bind, pure, Except.pure, Except.ok.injEq, Bool.or_eq_false_iff,
    decide_eq_false_iff_not, ne_eq, Decidable.not_not]
  rw [and_assoc, umod_eq_zero_iff (n := g), hdvd, gt_iff_lt, BitVec.not_lt]
  rfl

theorem bytesPerDescriptor_checked (hmap : Ranged mapInfo) {chInfo : TpceDmaChannelInfo}
    (hpos : 0 < params.bytesPerDescriptor.toNat)
    (h : bytesPerDescriptorBad params mapInfo chInfo = .ok false) :
    params.bytesPerDescriptor % chInfo.dataWidth = 0 ∧
      ∀ sg ∈ ranges mapInfo, params.bytesPerDescriptor.toNat ∣ rangeBytes sg := by
  obtain ⟨haligned, -, hranges⟩ := (bytesPerDescriptorBad_eq_false_iff hmap hpos).mp h
  exact ⟨haligned, hranges⟩

theorem FixedRequest.two_le (hmap : Ranged mapInfo) (hreq : FixedRequest params mapInfo) :
    2 ≤ params.bytesPerDescriptor.toNat := by
  obtain ⟨chInfo, hv⟩ := validated_of_zero hreq.validated
  have hmod := congrArg BitVec.toNat (bytesPerDescriptor_checked hmap hreq.fixed hv.bpd).1
  have hpos := hreq.fixed
  rw [BitVec.toNat_umod] at hmod
  rcases channelInfo_dataWidth hv.channel with hw | hw
  · rw [hw] at hmod
    have := Nat.le_of_dvd hpos (Nat.dvd_of_mod_eq_zero hmod)
    have h8 : (8#32).toNat = 8 := rfl
    omega
  · rw [hw] at hmod
    have := Nat.le_of_dvd hpos (Nat.dvd_of_mod_eq_zero hmod)
    have h2 : (2#32).toNat = 2 := rfl
    omega

theorem FixedRequest.dvd_range (hmap : Ranged mapInfo) (hreq : FixedRequest params mapInfo) :
    ∀ sg ∈ ranges mapInfo, params.bytesPerDescriptor.toNat ∣ rangeBytes sg := by
  obtain ⟨chInfo, hv⟩ := validated_of_zero hreq.validated
  exact (bytesPerDescriptor_checked hmap hreq.fixed hv.bpd).2

theorem dvd_sum_rangeBytes {b : ℕ} {slots : List Scatterlist} (h : ∀ sg ∈ slots, b ∣ rangeBytes sg) :
    b ∣ (slots.map rangeBytes).sum := by
  induction slots with
  | nil => exact Nat.dvd_zero b
  | cons sg rest ih =>
      rw [List.map_cons, List.sum_cons]
      exact Nat.dvd_add (h sg List.mem_cons_self) (ih fun s hs => h s (List.mem_cons_of_mem sg hs))

theorem touchedParts_dvd {b : ℕ} {slots : List Scatterlist} {skip total : U32}
    (hskip : b ∣ skip.toNat) (htotal : b ∣ total.toNat) (hslots : ∀ sg ∈ slots, b ∣ rangeBytes sg)
    (hle : ∀ sg rest, slots = sg :: rest → skip.toNat ≤ rangeBytes sg) :
    ∀ p ∈ touchedParts skip total slots, b ∣ p.2 := by
  induction slots generalizing skip total with
  | nil => simp [touchedParts]
  | cons sg rest ih =>
      rw [touchedParts]
      split
      · have hsg := hle sg rest rfl
        have hmin := toNat_tpceMin (tpceDmaMapRangeSize sg - skip) total
        rw [BitVec.toNat_sub_of_le (BitVec.le_def.mpr hsg)] at hmin
        have hpart : b ∣ (tpceMin (tpceDmaMapRangeSize sg - skip) total).toNat := by
          rw [hmin]
          rcases Nat.le_total ((tpceDmaMapRangeSize sg).toNat - skip.toNat) total.toNat with h | h
          · rw [Nat.min_eq_left h]
            exact Nat.dvd_sub (hslots sg List.mem_cons_self) hskip
          · rw [Nat.min_eq_right h]
            exact htotal
        refine List.forall_mem_cons.mpr ⟨hpart, ih (Nat.dvd_zero b) ?_
          (fun s hs => hslots s (List.mem_cons_of_mem sg hs)) fun _ _ _ => Nat.zero_le _⟩
        rw [BitVec.toNat_sub_of_le (BitVec.le_def.mpr (by omega))]
        exact Nat.dvd_sub htotal hpart
      · simp

theorem pieceCount_mul {b : ℕ} (hb : 0 < b) {parts : List (U64 × ℕ)} (h : ∀ p ∈ parts, b ∣ p.2) :
    pieceCount b parts * b = (parts.map Prod.snd).sum := by
  induction parts with
  | nil => exact Nat.zero_mul b
  | cons p parts ih =>
      have hp := h p List.mem_cons_self
      rw [pieceCount_cons, Nat.add_mul, ih fun q hq => h q (List.mem_cons_of_mem p hq), ← length_cut hb,
        cut_of_dvd hp, List.length_replicate, Nat.div_mul_cancel hp]
      rfl

theorem start_spec (hmap : Ranged mapInfo) (hreq : FixedRequest params mapInfo) :
    ∃ k rem sg rest, skipOffset (tpceDmaMapNumRanges mapInfo) 0 mapInfo.sgt.sgl.slots params.mapOffset =
        .ok (k, rem) ∧ (ranges mapInfo).drop k = sg :: rest ∧
      (((ranges mapInfo).take k).map rangeBytes).sum + rem.toNat = params.mapOffset.toNat ∧
      rem.toNat < rangeBytes sg := by
  obtain ⟨k, rem, hskip, -, hsum, hlt⟩ := skipOffset_ranges hmap.indexed params.mapOffset
  have hsplit := hmap.sized.sum_drop k
  have hpos := hreq.positive
  have hfit := hreq.inside
  cases hdrop : (ranges mapInfo).drop k with
  | nil =>
      rw [hdrop] at hsplit
      simp only [List.map_nil, List.sum_nil] at hsplit
      omega
  | cons sg rest => exact ⟨k, rem, sg, rest, hskip, hdrop, hsum, hlt sg rest hdrop⟩

theorem sum_take_mono (slots : List Scatterlist) {a b : ℕ} (h : a ≤ b) :
    ((slots.take a).map rangeBytes).sum ≤ ((slots.take b).map rangeBytes).sum := by
  obtain ⟨j, rfl⟩ := Nat.exists_eq_add_of_le h
  rw [List.take_add, List.map_append, List.sum_append]
  exact Nat.le_add_right _ _

theorem sum_take_succ {slots rest : List Scatterlist} {k : ℕ} {sg : Scatterlist}
    (h : slots.drop k = sg :: rest) : ((slots.take (k + 1)).map rangeBytes).sum =
      ((slots.take k).map rangeBytes).sum + rangeBytes sg := by
  rw [List.take_add, h, List.map_append, List.sum_append]
  rfl

theorem part_toNat {sg : Scatterlist} {rem : U32} (total : U32) (h : rem.toNat < rangeBytes sg) :
    (tpceMin (tpceDmaMapRangeSize sg - rem) total).toNat = min (rangeBytes sg - rem.toNat) total.toNat := by
  rw [toNat_tpceMin, BitVec.toNat_sub_of_le (BitVec.le_def.mpr (Nat.le_of_lt h))]
  rfl

theorem dvd_start (hmap : Ranged mapInfo) (hreq : FixedRequest params mapInfo) {k rem : ℕ}
    (hsum : (((ranges mapInfo).take k).map rangeBytes).sum + rem = params.mapOffset.toNat) :
    params.bytesPerDescriptor.toNat ∣ rem ↔
      params.bytesPerDescriptor.toNat ∣ params.mapOffset.toNat := by
  have hd := dvd_sum_rangeBytes fun sg hsg =>
    hreq.dvd_range hmap sg (List.mem_of_mem_take (i := k) hsg)
  rw [← hsum]
  exact (Nat.dvd_add_right hd).symm

theorem parts_dvd_of_evenlyCut (hmap : Ranged mapInfo) (hreq : FixedRequest params mapInfo)
    (hcut : EvenlyCut params mapInfo) :
    ∀ p ∈ partsFrom params mapInfo (ranges mapInfo), params.bytesPerDescriptor.toNat ∣ p.2 := by
  obtain ⟨k, rem, sg, rest, hskip, hdrop, hsum, hlt⟩ := start_spec hmap hreq
  rw [partsFrom_eq hskip, hdrop]
  rcases hcut.2 with hoff | ⟨j, hlow, hhigh⟩
  · refine touchedParts_dvd ((dvd_start hmap hreq hsum).mpr hoff) hcut.1 ?_ ?_
    · intro s hs
      exact hreq.dvd_range hmap s (List.mem_of_mem_drop (i := k) (hdrop ▸ hs))
    · intro s rest' heq
      cases heq
      exact hlt.le
  · have hnext := sum_take_succ hdrop
    have hj : j ≤ k := by
      by_contra hj
      have := sum_take_mono (ranges mapInfo) (show k + 1 ≤ j by omega)
      omega
    have hend := sum_take_mono (ranges mapInfo) (show j + 1 ≤ k + 1 by omega)
    have hpart := part_toNat params.bytesTotal hlt
    have hall : (tpceMin (tpceDmaMapRangeSize sg - rem) params.bytesTotal).toNat =
        params.bytesTotal.toNat := by omega
    rw [touchedParts, if_pos (gt_zero_of_toNat hreq.positive), BitVec.eq_of_toNat_eq hall]
    dsimp only
    rw [BitVec.sub_self]
    intro p hp
    rcases List.mem_cons.mp hp with rfl | hp
    · exact hcut.1
    · rw [show (0#32 : U32) = 0 from rfl, touchedParts_zero] at hp
      cases hp

theorem needed_ge {n : ℕ} (hfixed : params.bytesPerDescriptor > 0)
    (hn : n = params.bytesTotal.toNat / params.bytesPerDescriptor.toNat) (hlt : n < 2 ^ 31) :
    n ≤ (tpceMaxDescriptorsNeeded params).toNat := by
  have hdiv : (params.bytesTotal / params.bytesPerDescriptor).toNat = n := by
    rw [BitVec.toNat_udiv, hn]
  rw [tpceMaxDescriptorsNeeded, if_pos hfixed]
  split
  · rw [BitVec.toNat_add, hdiv]
    have hone : (1 : U32).toNat = 1 := rfl
    omega
  · omega

theorem generatedFixed_of_evenlyCut (hmap : Ranged mapInfo) (hreq : FixedRequest params mapInfo)
    (hcut : EvenlyCut params mapInfo) : GeneratedFixed params mapInfo := by
  obtain ⟨chInfo, hv⟩ := validated_of_zero hreq.validated
  have hdvd := parts_dvd_of_evenlyCut hmap hreq hcut
  obtain ⟨hsum, htiles⟩ := partsFrom_tiles hmap.sized hreq.inside
  have hlen := hreq.pieceLength_eq
  have hcount : plannedCount params mapInfo =
      pieceCount (pieceLength params) (partsFrom params mapInfo (ranges mapInfo)) := by
    rw [hreq.plannedCount_eq hmap, hlen]
    apply Nat.div_eq_of_eq_mul_left hreq.fixed
    rw [pieceCount_mul hreq.fixed hdvd, hsum]
  obtain ⟨plan, hplan, hnum, hpos, hgen⟩ := generate_regular hmap hv.channel hreq.positive
    hreq.inside (fun p hp _ => by rw [hlen]; exact hdvd p hp) hcount
  rw [hreq.plannedCount_eq hmap] at hnum
  have hsmall : plan.numDescriptors.toNat < 2 ^ 31 := by
    have htwo := hreq.two_le hmap
    have hlt := params.bytesTotal.isLt
    rw [hnum, Nat.div_lt_iff_lt_mul hreq.fixed]
    omega
  intro ds hds
  obtain ⟨out, hok, hlength, hdrop, hhost⟩ := hgen (tpceMaxDescriptorsNeeded params) ds
    (BitVec.le_def.mpr (needed_ge (gt_zero_of_toNat hreq.fixed) hnum hsmall)) (hnum ▸ hds)
  have hret : plan.numDescriptors.toInt = (plan.numDescriptors.toNat : Int) := by
    rw [BitVec.toInt_eq_toNat_cond, if_pos (by omega)]
  rw [hret] at hok
  rw [← hnum]
  exact ⟨out, hok, hlength, hdrop, hhost ▸ htiles⟩

/-- A first part that the length does not divide is overrun: the generation
can only end if the buffer takes more than `2 ^ 32` bytes of pieces. -/
theorem first_part_regular {chInfo : TpceDmaChannelInfo} (hL : 0 < stepLength params chInfo)
    {plan : DescriptorPlan} {sg : Scatterlist} {rest : List Scatterlist} {dev rem : U32}
    {buf out : List TpceDmaDescriptor} (hrem : rem > 0) (hnum : 0 < plan.numDescriptors.toNat)
    (hbuf : buf.length * stepLength params chInfo < 2 ^ 32)
    (h : fillRanges params chInfo plan plan.startingIdx (sg :: rest) 0 dev rem buf = .ok out) :
    Regular (stepLength params chInfo) (fixedLength params)
      (tpceMin (tpceDmaMapRangeSize sg - plan.startingOffset) rem).toNat := by
  rw [fillRanges, if_pos ⟨hnum, hrem⟩, if_pos rfl] at h
  obtain ⟨page, hpage, -⟩ := bind_eq_ok.mp h
  obtain ⟨lens, hcut, -, hlen, -⟩ := fillPage_cut hL hpage
  by_contra hr
  have hf : fixedLength params = true := by
    by_contra hf
    exact hr fun ht => absurd ht hf
  rw [hf] at hcut
  obtain ⟨k, rfl, hbig⟩ := (pageCut_irregular fun hd => hr fun _ => hd).mp hcut
  rw [List.length_replicate] at hlen
  have := Nat.mul_le_mul_right (stepLength params chInfo) (show k ≤ buf.length by omega)
  omega

theorem generate_filled {ds out : List TpceDmaDescriptor} {maxDescriptors : U32} {ret : Int}
    (h : tpceGenerateDescriptors params mapInfo ds maxDescriptors = .ok (ret, out)) (hret : 0 < ret) :
    ∃ plan chInfo zeroed filled, createDescriptorPlan mapInfo params = .ok plan ∧
      0 < plan.numDescriptors.toNat ∧ channelInfo params.channel = .ok chInfo ∧
      zeroed.length = ds.length ∧ fillAddresses params chInfo mapInfo zeroed plan = .ok filled := by
  obtain ⟨plan, hplan, h⟩ := bind_eq_ok.mp h
  split at h
  · cases h
    exact absurd hret (by decide)
  · split at h
    · cases h
      exact absurd hret (by decide)
    · rename_i hz
      obtain ⟨chInfo, hch, h⟩ := bind_eq_ok.mp h
      obtain ⟨zeroed, hzero, h⟩ := bind_eq_ok.mp h
      obtain ⟨filled, hfill, -⟩ := bind_eq_ok.mp h
      refine ⟨plan, chInfo, zeroed, filled, hplan, BitVec.lt_def.mp (ne_zero_iff_pos.mp hz), hch, ?_,
        hfill⟩
      simp only [zeroDescriptors] at hzero
      split at hzero
      · cases hzero
      · cases hzero
        rw [List.length_append, List.length_replicate, List.length_drop]
        omega

theorem length_of_mem_pieces {L : ℕ} (hL : 0 < L) {m : ℕ} {parts : List (U64 × ℕ)} {p : U64 × ℕ}
    (h : p ∈ pieces L (reach L true m parts)) : p.2 = L := by
  induction parts generalizing m with
  | nil => cases h
  | cons part parts ih =>
      simp only [reach] at h
      split at h
      · rename_i hr
        rw [pieces_cons, cut_of_dvd (hr.1 rfl)] at h
        rcases List.mem_append.mp h with h | h
        · exact (List.mem_replicate.mp (snd_mem_layout h)).2
        · exact ih h
      · rw [pieces_cons, cut_mul hL] at h
        rcases List.mem_append.mp h with h | h
        · exact (List.mem_replicate.mp (snd_mem_layout h)).2
        · cases h

theorem sum_of_const {L : ℕ} {ps : List (U64 × ℕ)} (h : ∀ p ∈ ps, p.2 = L) :
    (ps.map Prod.snd).sum = ps.length * L := by
  rw [List.map_congr_left h, List.map_const', List.sum_replicate, smul_eq_mul]

theorem evenlyCut_of_generatedFixed (hmap : Ranged mapInfo) (hreq : FixedRequest params mapInfo)
    (hgen : GeneratedFixed params mapInfo) : EvenlyCut params mapInfo := by
  obtain ⟨out, hok, hpart⟩ := hgen (List.replicate _ default) (by rw [List.length_replicate])
  have hlen := hreq.pieceLength_eq
  have hbpos := hreq.fixed
  obtain ⟨-, -, hhost, -⟩ := tpceGenerateDescriptors_reach hok.1 (Int.natCast_nonneg _)
  have hsum := hpart.tiles.sum
  have hlength := hpart.length
  rw [List.length_replicate] at hlength
  rw [hreq.plannedCount_eq hmap, requestReach, hreq.fixedLength_eq] at hhost
  rw [hhost, sum_of_const fun p hp => length_of_mem_pieces (pieceLength_pos params) hp, ← hhost,
    List.length_map, List.length_take, hlength, Nat.min_self, hlen] at hsum
  have htotal : params.bytesTotal.toNat / params.bytesPerDescriptor.toNat *
      params.bytesPerDescriptor.toNat = params.bytesTotal.toNat := by omega
  refine ⟨Nat.dvd_of_mod_eq_zero ?_, ?_⟩
  · have := Nat.div_add_mod params.bytesTotal.toNat params.bytesPerDescriptor.toNat
    rw [Nat.mul_comm] at this
    omega
  · have hcount : 0 < params.bytesTotal.toNat / params.bytesPerDescriptor.toNat := by
      refine Nat.pos_of_ne_zero fun hz => ?_
      have := hreq.positive
      rw [hz, Nat.zero_mul] at htotal
      omega
    obtain ⟨plan, chInfo, zeroed, filled, hplan, hnum, hch, hzeroed, hfill⟩ :=
      generate_filled hok.2 (by omega)
    rw [createDescriptorPlan_onlyRanges] at hplan
    obtain ⟨-, hcases⟩ := createDescriptorPlan_cases hplan
    obtain ⟨-, -, hskip'⟩ := hcases.resolve_left fun hz => by simp [hz] at hnum
    obtain ⟨k, rem, sg, rest, hskip, hdrop, hoff, hlt⟩ := start_spec hmap hreq
    rw [hskip] at hskip'
    simp only [Except.ok.injEq, Prod.mk.injEq] at hskip'
    have hstep := stepLength_eq hch
    rw [fillAddresses, onlyRanges_slots, ← hskip'.1, hdrop, hskip'.1] at hfill
    have hreg := first_part_regular (by rw [hstep, hlen]; exact hbpos)
      (gt_zero_of_toNat hreq.positive) hnum (by
        rw [hstep, hlen, hzeroed, List.length_replicate, htotal]
        exact params.bytesTotal.isLt) hfill hreq.fixedLength_eq
    rw [hstep, hlen, ← hskip'.2, part_toNat _ hlt] at hreg
    rcases Nat.le_total (rangeBytes sg - rem.toNat) params.bytesTotal.toNat with hle | hle
    · left
      rw [Nat.min_eq_left hle] at hreg
      have hsg := hreq.dvd_range hmap sg (List.mem_of_mem_drop (i := k) (by rw [hdrop]; simp))
      exact (dvd_start hmap hreq hoff).mp
        ((Nat.dvd_sub_iff_right (Nat.le_of_lt hlt) hsg).mp hreg)
    · right
      have hnext := sum_take_succ hdrop
      exact ⟨k, by omega, by omega⟩

/-- A validated request is generated as it should be exactly when the length
divides the total and, unless the transfer stays in one range, the offset. -/
theorem fixed_generation_iff (hmap : Ranged mapInfo) (hreq : FixedRequest params mapInfo) :
    GeneratedFixed params mapInfo ↔ EvenlyCut params mapInfo :=
  ⟨evenlyCut_of_generatedFixed hmap hreq, generatedFixed_of_evenlyCut hmap hreq⟩

def twoPages : TpceDmaMapInfo :=
  userMapping [⟨0x100000, 4096, 0⟩, ⟨0x200000, 4096, 0⟩] 8192 tpceDmaFromDevice

def kilobytePieces (mapOffset : U32) : TpceDmaTransferParams :=
  { wholeTransfer 4096 with mapOffset := mapOffset, bytesPerDescriptor := 1024 }

theorem fixed_generation_across_pages : GeneratedFixed (kilobytePieces 1024) twoPages :=
  (fixed_generation_iff ⟨by decide, by decide, by decide, by decide⟩
    ⟨by decide, by decide, by decide, by decide⟩).mpr ⟨by decide, .inl (by decide)⟩

/-- At offset 8 the first page has 4088 bytes left, which pieces of 1024 bytes
do not divide: the fill runs past the four planned descriptors. -/
theorem offset_eight_runs_away : Ranged twoPages ∧ FixedRequest (kilobytePieces 8) twoPages ∧
    tpceGenerateDescriptors (kilobytePieces 8) twoPages (List.replicate 4 default)
      (tpceMaxDescriptorsNeeded (kilobytePieces 8)) = .error (.descriptorIndex 4) ∧
    ¬ GeneratedFixed (kilobytePieces 8) twoPages := by
  have hfault : tpceGenerateDescriptors (kilobytePieces 8) twoPages (List.replicate 4 default)
      (tpceMaxDescriptorsNeeded (kilobytePieces 8)) = .error (.descriptorIndex 4) := by decide
  refine ⟨⟨by decide, by decide, by decide, by decide⟩, ⟨by decide, by decide, by decide, by decide⟩,
    hfault, fun h => ?_⟩
  obtain ⟨out, hok, -⟩ := h (List.replicate 4 default) (by decide)
  cases hfault.symm.trans hok.1

end TpceDrv.FixedGeneration
