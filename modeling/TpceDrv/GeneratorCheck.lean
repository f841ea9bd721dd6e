import TpceDrv.DescriptorCheck
import TpceDrv.FlexibleGeneration

namespace TpceDrv.GeneratorCheck

open Descriptor Mapping DmaParams DescriptorCheck Generation Reach Planning MappedRanges FlexibleGeneration
open Library.Cuts

variable {params : TpceDmaTransferParams} {mapInfo : TpceDmaMapInfo}

/-- A user buffer at any page offset, locked into a flat table -/
structure LockedBuffer (mapInfo : TpceDmaMapInfo) : Prop where
  flat : ∃ slots, mapInfo.sgt = ⟨.last slots, slots.length⟩
  positive : ∀ sg ∈ mapInfo.sgt.dmaEntries, 0 < sg.dmaLength.toNat
  offset : ∀ sg ∈ mapInfo.sgt.dmaEntries, sg.offset.toNat < pageSize
  bounded : ∀ sg ∈ mapInfo.sgt.dmaEntries,
    sg.dmaAddress.toNat + sg.offset.toNat + sg.dmaLength.toNat < 2 ^ 64
  total : (mapInfo.sgt.dmaEntries.map rangeBytes).sum = mapInfo.size.toNat

/-- Accepted parameters of a transfer inside the mapping that leave the lengths
of the descriptors to the generator -/
structure FlexibleTransfer (params : TpceDmaTransferParams) (mapInfo : TpceDmaMapInfo) : Prop where
  accepted : tpceValidateDmaParams params mapInfo = .ok 0
  flexible : params.bytesPerDescriptor = 0
  positive : 0 < params.bytesTotal.toNat
  inside : params.mapOffset.toNat + params.bytesTotal.toNat ≤ mapInfo.size.toNat

/-- Every array that the generator returns passes the check on the mapping. -/
def GeneratedPass (params : TpceDmaTransferParams) (mapInfo : TpceDmaMapInfo) : Prop :=
  ∀ maxDescriptors ds ret out,
    tpceGenerateDescriptors params mapInfo ds maxDescriptors = .ok (ret, out) → 0 ≤ ret →
      tpceValidateDescMem mapInfo out ret.toNat (params.direction = tpceDmaToDevice) = 0

/-- Cut into pieces of 256 KiB, the stretches that the request covers lie in the
entries. A stretch starts at the page offset of its entry, and the entry does
not. A count that an `int` does not hold is never returned. -/
def PiecesInEntries (params : TpceDmaTransferParams) (mapInfo : TpceDmaMapInfo) : Prop :=
  plannedCount params mapInfo < 2 ^ 31 →
    ∀ s ∈ requestReach params mapInfo, ∀ k, k * pieceLength params < s.2 →
      ∃ sg ∈ mapInfo.sgt.dmaEntries,
        InEntry ((k * pieceLength params) +ᵥ s.1) (min (pieceLength params) (s.2 - k * pieceLength params)) sg

theorem LockedBuffer.ranges_eq (hmap : LockedBuffer mapInfo) : ranges mapInfo = mapInfo.sgt.dmaEntries := by
  obtain ⟨slots, hslots⟩ := hmap.flat
  rw [ranges, tpceDmaMapNumRanges, hslots, SgTable.dmaEntries, SgList.slots, SgList.walk]

theorem LockedBuffer.ranged (hmap : LockedBuffer mapInfo) (hreq : FlexibleTransfer params mapInfo) :
    Ranged mapInfo := by
  obtain ⟨slots, hslots⟩ := hmap.flat
  refine ⟨fun hnone => ?_, ?_, fun sg hsg => hmap.positive sg (hmap.ranges_eq ▸ hsg), ?_⟩
  · have htotal := hmap.total
    rw [← hmap.ranges_eq, ranges, hnone] at htotal
    have hzero : mapInfo.size.toNat = 0 := htotal.symm
    have hpositive := hreq.positive
    have hinside := hreq.inside
    omega
  · rw [tpceDmaMapNumRanges, hslots]
    exact Nat.le_refl _
  · rw [hmap.ranges_eq]
    exact hmap.total

theorem FlexibleTransfer.fixedLength_eq (hreq : FlexibleTransfer params mapInfo) :
    fixedLength params = false := by
  simp [fixedLength, hreq.flexible]

theorem FlexibleTransfer.direction (hreq : FlexibleTransfer params mapInfo) :
    params.direction = tpceDmaToDevice ∨ params.direction = tpceDmaFromDevice := by
  obtain ⟨chInfo, hvalid⟩ := validated_of_zero hreq.accepted
  have hdir := hvalid.direction
  simp only [validDirection, Bool.and_eq_true, Bool.or_eq_true, decide_eq_true_eq] at hdir
  exact hdir.1.symm

theorem fillRanges_flexible {chInfo : TpceDmaChannelInfo} (hflex : fixedLength params = false)
    (hL : 0 < stepLength params chInfo) (plan : DescriptorPlan) (slots : List Scatterlist)
    (mapIdx descIdx : ℕ) (dev rem : U32) (buf : List TpceDmaDescriptor) {skip : U32}
    (hidx : plan.startingIdx ≤ mapIdx)
    (hskip : (if mapIdx = plan.startingIdx then plan.startingOffset else 0) = skip)
    (hsum : ((touchedParts skip rem slots).map Prod.snd).sum = rem.toNat)
    (hbuf : pieceCount (stepLength params chInfo) (touchedParts skip rem slots) ≤ buf.length) :
    ∃ out, fillRanges params chInfo plan mapIdx slots descIdx dev rem buf = .ok out := by
  induction slots generalizing mapIdx descIdx dev rem skip buf with
  | nil =>
      have hz : rem = 0 := BitVec.eq_of_toNat_eq (by simpa [touchedParts] using hsum.symm)
      subst hz
      exact ⟨buf, by simp [fillRanges]⟩
  | cons sg rest ih =>
      by_cases hgo : descIdx < plan.numDescriptors.toNat ∧ rem > 0
      · rw [touchedParts, if_pos hgo.2] at hsum hbuf
        rw [pieceCount_cons] at hbuf
        rw [List.map_cons, List.sum_cons] at hsum
        dsimp only at hsum hbuf
        have hle := toNat_tpceMin (tpceDmaMapRangeSize sg - skip) rem
        have hclen := length_cut hL (tpceMin (tpceDmaMapRangeSize sg - skip) rem).toNat
        have hregular : Regular (stepLength params chInfo) (fixedLength params)
            (tpceMin (tpceDmaMapRangeSize sg - skip) rem).toNat :=
          fun hfixed => absurd (hflex.symm.trans hfixed) Bool.false_ne_true
        obtain ⟨page, hpage⟩ := fillPage_regular hL buf descIdx
          (tpceDmaMapRangeAddr sg + skip.setWidth 64) dev rem hregular (by omega)
        obtain ⟨lens, hcut, hmap, hlen, hrest⟩ := fillPage_cut hL hpage
        obtain rfl := (pageCut_regular hregular).mp hcut
        have hsub : (rem - tpceMin (tpceDmaMapRangeSize sg - skip) rem).toNat =
            rem.toNat - (tpceMin (tpceDmaMapRangeSize sg - skip) rem).toNat :=
          BitVec.toNat_sub_of_le (BitVec.le_def.mpr (by omega))
        obtain ⟨out, hout⟩ := ih (mapIdx + 1) (descIdx + page.written.length) page.deviceAddr
          page.bytesRem page.unwritten (by omega) (if_neg (by omega))
          (by rw [hrest, hsub]; omega) (by rw [hrest]; omega)
        refine ⟨page.written ++ out, ?_⟩
        simp only [fillRanges]
        rw [if_pos hgo]
        simp only [hskip, hpage, hout, bind, Except.bind, pure, Except.pure]
      · exact ⟨buf, if_neg hgo⟩

theorem generated_exists (hmap : LockedBuffer mapInfo) (hreq : FlexibleTransfer params mapInfo)
    (hsmall : plannedCount params mapInfo < 2 ^ 31) :
    ∃ maxDescriptors ds out,
      tpceGenerateDescriptors params mapInfo ds maxDescriptors = .ok ((plannedCount params mapInfo : ℤ), out) := by
  have hranged := hmap.ranged hreq
  obtain ⟨chInfo, hvalid⟩ := validated_of_zero hreq.accepted
  obtain ⟨plan, hplan⟩ := createDescriptorPlan_exists hvalid.channel hranged.indexed
  obtain ⟨hnum, hcases⟩ := createDescriptorPlan_cases hplan
  by_cases hz : plan.numDescriptors = 0
  · refine ⟨plan.numDescriptors, [], [], bind_eq_ok.mpr ⟨plan, hplan, ?_⟩⟩
    rw [if_neg (BitVec.lt_irrefl _), if_pos hz, ← hnum, hz]
    rfl
  obtain ⟨hne, -, hskip⟩ := hcases.resolve_left hz
  obtain ⟨hsum, -⟩ := partsFrom_tiles hranged.sized hreq.inside
  have hflat : mapInfo.sgt.sgl.slots = ranges mapInfo := by
    obtain ⟨slots, hslots⟩ := hmap.flat
    rw [ranges, tpceDmaMapNumRanges, hslots, SgList.slots, List.take_length]
  rw [partsFrom_eq hskip, ← hflat] at hsum
  have hL : 0 < stepLength params chInfo := stepLength_eq hvalid.channel ▸ pieceLength_pos params
  obtain ⟨ds, hlen⟩ : ∃ ds : List TpceDmaDescriptor, ds.length = plan.numDescriptors.toNat +
      pieceCount (stepLength params chInfo) (touchedParts plan.startingOffset params.bytesTotal
        (mapInfo.sgt.sgl.slots.drop plan.startingIdx)) := ⟨List.replicate _ default, List.length_replicate⟩
  have hzeroed : zeroDescriptors ds plan.numDescriptors.toNat =
      .ok (List.replicate plan.numDescriptors.toNat default ++ ds.drop plan.numDescriptors.toNat) :=
    if_neg (by omega)
  obtain ⟨out, hout⟩ := fillRanges_flexible hreq.fixedLength_eq hL plan
    (mapInfo.sgt.sgl.slots.drop plan.startingIdx) plan.startingIdx 0 params.deviceAddr params.bytesTotal
    (List.replicate plan.numDescriptors.toNat default ++ ds.drop plan.numDescriptors.toNat)
    (Nat.le_refl _) (if_pos rfl) hsum
    (by rw [List.length_append, List.length_drop, List.length_replicate]; omega)
  have hcount : (plannedCount params mapInfo : ℤ) = plan.numDescriptors.toInt := by
    rw [BitVec.toInt_eq_toNat_cond, if_pos (by omega), hnum]
  rw [hcount]
  refine ⟨plan.numDescriptors, ds, (out.mapIdx (fillControlFlags params chInfo plan)).mapIdx
    (fillOtherFields params chInfo plan), bind_eq_ok.mpr ⟨plan, hplan, ?_⟩⟩
  rw [if_neg (BitVec.lt_irrefl _), if_neg hz]
  exact bind_eq_ok.mpr ⟨chInfo, hvalid.channel, bind_eq_ok.mpr ⟨_, hzeroed, bind_eq_ok.mpr ⟨out, hout, rfl⟩⟩⟩

theorem generated_lt {maxDescriptors : U32} {ds out : List TpceDmaDescriptor} {ret : Int}
    (h : tpceGenerateDescriptors params mapInfo ds maxDescriptors = .ok (ret, out)) : ret < 2 ^ 31 := by
  obtain ⟨plan, -, h⟩ := bind_eq_ok.mp h
  split at h
  · cases h
    decide
  split at h
  · cases h
    decide
  · obtain ⟨_, -, h⟩ := bind_eq_ok.mp h
    obtain ⟨_, -, h⟩ := bind_eq_ok.mp h
    obtain ⟨_, -, h⟩ := bind_eq_ok.mp h
    cases h
    exact BitVec.toInt_lt

theorem returned_pass_iff (hreq : FlexibleTransfer params mapInfo) {maxDescriptors : U32}
    {ds out : List TpceDmaDescriptor} {ret : Int}
    (h : tpceGenerateDescriptors params mapInfo ds maxDescriptors = .ok (ret, out)) (hret : 0 ≤ ret) :
    tpceValidateDescMem mapInfo out ret.toNat (params.direction = tpceDmaToDevice) = 0 ↔
      ∀ s ∈ requestReach params mapInfo, ∀ k, k * pieceLength params < s.2 →
        ∃ sg ∈ mapInfo.sgt.dmaEntries,
          InEntry ((k * pieceLength params) +ᵥ s.1) (min (pieceLength params) (s.2 - k * pieceLength params)) sg := by
  obtain ⟨rfl, -, hintervals, -⟩ := tpceGenerateDescriptors_reach h hret
  have hL := pieceLength_pos params
  rw [tpceValidateDescMem_iff, Int.toNat_natCast]
  rw [← forall_mem_pieces (P := fun a l => ∃ sg ∈ mapInfo.sgt.dmaEntries, InEntry a l sg) hL, ← hintervals,
    List.forall_mem_map]
  refine forall₂_congr fun desc hdesc => ?_
  have hmem : hostInterval params.direction desc ∈ pieces (pieceLength params) (requestReach params mapInfo) :=
    hintervals ▸ List.mem_map_of_mem hdesc
  have hpos : 0 < desc.transferLength.toNat := (mem_pieces hL hmem).1
  rw [hostAddr_eq_checkedAddr hreq.direction]
  constructor
  · rintro ⟨-, -, hin⟩
    exact hin
  · rintro ⟨sg, hsg, hin⟩
    have hin' : InEntry (hostAddr params.direction desc) desc.transferLength.toNat sg := hin
    exact ⟨fun hz => by simp [hz] at hpos, by have := hin'.2; omega, sg, hsg, hin⟩

/-- The generator and the check agree on a mapping exactly when the page offsets
leave the pieces inside the entries. -/
theorem generated_pass_iff (hmap : LockedBuffer mapInfo) (hreq : FlexibleTransfer params mapInfo) :
    GeneratedPass params mapInfo ↔ PiecesInEntries params mapInfo := by
  constructor
  · intro hpass hsmall
    obtain ⟨maxDescriptors, ds, out, hgen⟩ := generated_exists hmap hreq hsmall
    have hret : (0 : ℤ) ≤ plannedCount params mapInfo := Int.natCast_nonneg _
    exact (returned_pass_iff hreq hgen hret).mp (hpass maxDescriptors ds _ out hgen hret)
  · intro hin maxDescriptors ds ret out hgen hret
    obtain ⟨hcount, -⟩ := tpceGenerateDescriptors_reach hgen hret
    have hlt := generated_lt hgen
    exact (returned_pass_iff hreq hgen hret).mpr (hin (by omega))

/-- Buffers that start on a page agree. -/
theorem pass_of_page_aligned (hmap : LockedBuffer mapInfo) (hreq : FlexibleTransfer params mapInfo)
    (haligned : ∀ sg ∈ mapInfo.sgt.dmaEntries, sg.offset = 0) : GeneratedPass params mapInfo := by
  apply (generated_pass_iff hmap hreq).mpr
  intro _
  obtain ⟨-, htiles⟩ := partsFrom_tiles (hmap.ranged hreq).sized hreq.inside
  have hL := pieceLength_pos params
  have hslots : mapInfo.sgt.sgl.slots = ranges mapInfo := by
    obtain ⟨slots, hslots⟩ := hmap.flat
    rw [ranges, tpceDmaMapNumRanges, hslots, SgList.slots, List.take_length]
  apply (forall_mem_pieces (P := fun a l => ∃ sg ∈ mapInfo.sgt.dmaEntries, InEntry a l sg) hL).mp
  intro p hp
  rw [requestReach, hslots, hreq.fixedLength_eq, pieces_reach_flexible hL] at hp
  obtain ⟨start, pre, base, size, post, hsegs, hlo, hhi, hstart⟩ := htiles.inside (List.mem_of_mem_take hp)
  have hseg : (base, size) ∈ segments mapInfo := hsegs ▸ List.mem_append_right pre List.mem_cons_self
  obtain ⟨sg, hsg, heq⟩ := List.mem_map.mp hseg
  rw [hmap.ranges_eq] at hsg
  obtain ⟨rfl, rfl⟩ := Prod.mk.inj heq
  have hbase : tpceDmaMapRangeAddr sg = sg.dmaAddress := by
    rw [tpceDmaMapRangeAddr, haligned sg hsg]
    exact BitVec.add_zero _
  have hbounded := hmap.bounded sg hsg
  have hsize : rangeBytes sg = sg.dmaLength.toNat := rfl
  rw [hsize] at hhi
  refine ⟨sg, hsg, ?_⟩
  have haddr : p.1.toNat = sg.dmaAddress.toNat + (start - (pre.map Prod.snd).sum) := by
    rw [hstart, hbase]
    change (sg.dmaAddress + BitVec.ofNat 64 _).toNat = _
    rw [BitVec.toNat_add, BitVec.toNat_ofNat, Nat.add_mod_mod]
    exact Nat.mod_eq_of_lt (by omega)
  exact ⟨by omega, by omega, by omega⟩

def offsetPage : TpceDmaMapInfo := userMapping [⟨0x100040#64, 4032#32, 64#32⟩] 4032#32 tpceDmaFromDevice

theorem locked_offsetPage : LockedBuffer offsetPage where
  flat := ⟨_, rfl⟩
  positive := by decide
  offset := by decide
  bounded := by decide
  total := by decide

theorem flexible_offsetPage : FlexibleTransfer (wholeTransfer 4032#32) offsetPage where
  accepted := by decide +kernel
  flexible := rfl
  positive := by decide
  inside := by decide

/-- A transfer that ends 64 bytes in front of the end -/
theorem short_transfer_passes : GeneratedPass (wholeTransfer 3968#32) offsetPage := by
  apply (generated_pass_iff locked_offsetPage ⟨by decide +kernel, rfl, by decide, by decide⟩).mpr
  intro _ s hs k hk
  have hreach : requestReach (wholeTransfer 3968#32) offsetPage = [(0x100080#64, 3968)] := by decide +kernel
  have hL : pieceLength (wholeTransfer 3968#32) = 262144 := rfl
  rw [hreach] at hs
  obtain rfl := List.mem_singleton.mp hs
  rw [hL] at hk
  obtain rfl : k = 0 := by
    dsimp only at hk
    omega
  exact ⟨⟨0x100040#64, 4032#32, 64#32⟩, List.mem_singleton_self _, by rw [hL]; decide, by rw [hL]; decide, by decide⟩

/-- The descriptor starts another 64 bytes behind the start of the entry and
ends behind its end. -/
theorem page_offset_fails_check : LockedBuffer offsetPage ∧ FlexibleTransfer (wholeTransfer 4032#32) offsetPage ∧
    ¬GeneratedPass (wholeTransfer 4032#32) offsetPage := by
  refine ⟨locked_offsetPage, flexible_offsetPage, fun hpass => ?_⟩
  have hcheck : (tpceGenerateDescriptors (wholeTransfer 4032#32) offsetPage [default] 1#32).toOption.map
      (fun r => (r.1, tpceValidateDescMem offsetPage r.2 r.1.toNat false)) = some (1, -4) := by
    decide +kernel
  obtain ⟨⟨ret, out⟩, hgen, heq⟩ := Option.map_eq_some_iff.mp hcheck
  obtain ⟨rfl, hrejected⟩ := Prod.mk.inj heq
  exact absurd (hrejected.symm.trans (hpass 1#32 [default] 1 out (toOption_eq_some.mp hgen) (by decide)))
    (by decide)

end TpceDrv.GeneratorCheck
