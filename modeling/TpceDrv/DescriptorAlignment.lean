import Mathlib.Algebra.BigOperators.Ring.List
import Mathlib.Data.Nat.ModEq
import TpceDrv.FixedGeneration
import TpceDrv.LockUserBuffer
import TpceDrv.RangeIndexing
import TpceDrv.TransferParts

namespace TpceDrv.DescriptorAlignment

open Descriptor Mapping DmaParams Generation Reach Planning MappedRanges FixedGeneration RangeIndexing TransferParts
open Device Requests RequestSteps LockUserBuffer Library.Cuts

/-- The segments of a page-locked buffer: pages at aligned bus addresses, of which the
first one is used from the offset of the buffer on, and only the last one not up to
its end. -/
structure PageSegments (bufferInfo : TpceDmaBufIn) (sgt : SgTable) : Prop where
  table : ∃ entries, sgt.sgl = sgAllocTable entries ∧ sgt.nents ≤ entries.length
  addresses : ∀ sg ∈ sgt.dmaEntries, pageSize ∣ sg.dmaAddress.toNat
  first : ∀ sg ∈ sgt.dmaEntries.head?, sg.offset = pageOffset bufferInfo
  others : ∀ sg ∈ sgt.dmaEntries.tail, sg.offset = 0
  ends : ∀ sg ∈ sgt.dmaEntries.dropLast, pageSize ∣ sg.offset.toNat + rangeBytes sg

/-- The lengths and host addresses are multiples of the data width. -/
def Aligned (direction : U8) (chInfo : TpceDmaChannelInfo) (descs : List TpceDmaDescriptor) : Prop :=
  ∀ desc ∈ descs, chInfo.dataWidth.toNat ∣ desc.transferLength.toNat ∧
    chInfo.dataWidth.toNat ∣ (hostAddr direction desc).toNat

variable {env : LockEnv} {dev dev' : TpceDev} {bufferInfo : TpceDmaBufIn} {mapInfo : TpceDmaMapInfo}
  {params : TpceDmaTransferParams} {chInfo : TpceDmaChannelInfo} {w : ℕ}

theorem dvd_add_iff (hw : w ∣ 64) (a b : U64) : w ∣ (a + b).toNat ↔ w ∣ a.toNat + b.toNat := by
  rw [BitVec.toNat_add, Nat.dvd_mod_iff (hw.trans (by decide))]

/-- Indexing reads the segments, up to the link of a chained table. -/
theorem ranges_cases (hpages : PageSegments bufferInfo mapInfo.sgt) :
    ranges mapInfo = mapInfo.sgt.dmaEntries ∨
      ranges mapInfo = mapInfo.sgt.dmaEntries.take 127 ++ [⟨0, 0, 0⟩] ∧ 127 < mapInfo.sgt.dmaEntries.length := by
  obtain ⟨entries, hsgl, hnents⟩ := hpages.table
  rw [ranges, tpceDmaMapNumRanges, SgTable.dmaEntries, hsgl, walk_sgAllocTable]
  by_cases hshort : entries.length ≤ sgMaxSingleAlloc
  · exact .inl (by rw [slots_of_short hshort])
  · rw [slots_of_long hshort]
    have hlen : (entries.take (sgMaxSingleAlloc - 1)).length = 127 := by
      simp only [sgMaxSingleAlloc, List.length_take] at hshort ⊢
      omega
    rcases Nat.lt_or_ge 127 mapInfo.sgt.nents with hmany | hfew
    · refine .inr ⟨?_, by rw [List.length_take]; omega⟩
      rw [List.take_of_length_le (by rw [List.length_append, hlen, List.length_singleton]; omega), List.take_take,
        Nat.min_eq_left (by omega)]
      rfl
    · refine .inl ?_
      rw [List.take_append_of_le_length (by omega), List.take_take, Nat.min_eq_left]
      simp only [sgMaxSingleAlloc]
      omega

theorem rangeAddr_modEq (hw : w ∣ 64) {sg : Scatterlist} (haddr : pageSize ∣ sg.dmaAddress.toNat) :
    (tpceDmaMapRangeAddr sg).toNat ≡ sg.offset.toNat [MOD w] := by
  have hbase : sg.dmaAddress.toNat ≡ 0 [MOD w] :=
    Nat.modEq_zero_iff_dvd.mpr ((hw.trans (show 64 ∣ pageSize by decide)).trans haddr)
  have hoff : (sg.offset.setWidth 64).toNat = sg.offset.toNat := by
    rw [BitVec.toNat_setWidth]
    omega
  calc (tpceDmaMapRangeAddr sg).toNat
      ≡ sg.dmaAddress.toNat + sg.offset.toNat [MOD w] := by
        rw [tpceDmaMapRangeAddr, BitVec.toNat_add, hoff]
        exact Nat.ModEq.of_dvd (hw.trans (by decide)) (Nat.mod_modEq _ _)
    _ ≡ 0 + sg.offset.toNat [MOD w] := hbase.add_right _
    _ = sg.offset.toNat := Nat.zero_add _

/-- The segments continue the buffer from page to page. -/
theorem segment_address (hw : w ∣ 64) (hpages : PageSegments bufferInfo mapInfo.sgt) {k : ℕ} {sg : Scatterlist}
    (hsg : mapInfo.sgt.dmaEntries[k]? = some sg) : (tpceDmaMapRangeAddr sg).toNat ≡
      (pageOffset bufferInfo).toNat + ((mapInfo.sgt.dmaEntries.take k).map rangeBytes).sum [MOD w] := by
  have hpage : w ∣ pageSize := hw.trans (by decide)
  refine (rangeAddr_modEq hw (hpages.addresses sg (List.mem_of_getElem? hsg))).trans ?_
  have hfirst := hpages.first
  have hothers := hpages.others
  have hends := hpages.ends
  generalize mapInfo.sgt.dmaEntries = entries at *
  cases entries with
  | nil => simp at hsg
  | cons e rest =>
      have he := hfirst e rfl
      cases k with
      | zero =>
          obtain rfl : e = sg := by simpa using hsg
          rw [he]
          exact Nat.ModEq.refl _
      | succ k =>
          rw [List.getElem?_cons_succ] at hsg
          have hk : k < rest.length := (List.getElem?_eq_some_iff.mp hsg).1
          have hne : rest ≠ [] := List.ne_nil_of_length_pos (by omega)
          rw [List.dropLast_cons_of_ne_nil hne, List.forall_mem_cons, he] at hends
          have hzero : sg.offset = 0 := hothers sg (List.mem_of_getElem? hsg)
          have hsizes : w ∣ ((rest.take k).map rangeBytes).sum := by
            refine List.dvd_sum fun n hn => ?_
            obtain ⟨sg', hsg', rfl⟩ := List.mem_map.mp hn
            have hlast : sg' ∈ rest.dropLast := by
              rw [List.dropLast_eq_take]
              exact List.take_subset_take_left _ (by omega) hsg'
            have hend := hends.2 sg' hlast
            rw [hothers sg' (List.mem_of_mem_take hsg')] at hend
            exact hpage.trans (by simpa using hend)
          rw [hzero, List.take_succ_cons, List.map_cons, List.sum_cons, ← Nat.add_assoc]
          exact (Nat.modEq_zero_iff_dvd.mpr (Nat.dvd_add (hpage.trans hends.1) hsizes)).symm

theorem segment_offset (hpages : PageSegments bufferInfo mapInfo.sgt) (hbuf : w ∣ (pageOffset bufferInfo).toNat) :
    ∀ sg ∈ mapInfo.sgt.dmaEntries, w ∣ sg.offset.toNat := by
  have hfirst := hpages.first
  have hothers := hpages.others
  intro sg hsg
  generalize mapInfo.sgt.dmaEntries = entries at *
  cases entries with
  | nil => cases hsg
  | cons e rest =>
      rcases List.mem_cons.mp hsg with rfl | hrest
      · rw [hfirst sg rfl]
        exact hbuf
      · rw [hothers sg hrest]
        exact Nat.dvd_zero w

/-- The segments of a buffer at a multiple of the data width hold whole words. -/
theorem segment_words (hw : w ∣ 64) (hpages : PageSegments bufferInfo mapInfo.sgt)
    (hbuf : w ∣ (pageOffset bufferInfo).toNat) (htotal : w ∣ totalLength mapInfo.sgt) :
    ∀ sg ∈ mapInfo.sgt.dmaEntries, w ∣ rangeBytes sg := by
  have hoffset := segment_offset hpages hbuf
  have hends := hpages.ends
  have hsum : totalLength mapInfo.sgt = (mapInfo.sgt.dmaEntries.map rangeBytes).sum := rfl
  rw [hsum] at htotal
  intro sg hsg
  generalize mapInfo.sgt.dmaEntries = entries at *
  have hinit : ∀ sg ∈ entries.dropLast, w ∣ rangeBytes sg := fun sg hsg =>
    (Nat.dvd_add_right (hoffset sg (List.mem_of_mem_dropLast hsg))).mp
      ((hw.trans (show 64 ∣ pageSize by decide)).trans (hends sg hsg))
  have hne := List.ne_nil_of_mem hsg
  rw [← List.dropLast_append_getLast hne] at hsg htotal
  rcases List.mem_append.mp hsg with hsg | hsg
  · exact hinit sg hsg
  · obtain rfl := List.mem_singleton.mp hsg
    rw [List.map_append, List.sum_append, List.map_singleton, List.sum_singleton] at htotal
    refine (Nat.dvd_add_right (List.dvd_sum fun n hn => ?_)).mp htotal
    obtain ⟨sg', hsg', rfl⟩ := List.mem_map.mp hn
    exact hinit sg' hsg'

/-- The ranges that indexing reads hold whole words at multiples of the width. -/
theorem range_words (hw : w ∣ 64) (hpages : PageSegments bufferInfo mapInfo.sgt)
    (hbuf : w ∣ (pageOffset bufferInfo).toNat) (htotal : w ∣ totalLength mapInfo.sgt) :
    ∀ sg ∈ ranges mapInfo, w ∣ rangeBytes sg ∧ w ∣ (tpceDmaMapRangeAddr sg).toNat := by
  have hsegment : ∀ sg ∈ mapInfo.sgt.dmaEntries, w ∣ rangeBytes sg ∧ w ∣ (tpceDmaMapRangeAddr sg).toNat :=
    fun sg hsg => ⟨segment_words hw hpages hbuf htotal sg hsg,
      ((rangeAddr_modEq hw (hpages.addresses sg hsg)).dvd_iff (Nat.dvd_refl w)).mpr (segment_offset hpages hbuf sg hsg)⟩
  intro sg hsg
  rcases ranges_cases hpages with hall | ⟨hlink, -⟩
  · exact hsegment sg (hall ▸ hsg)
  · rw [hlink] at hsg
    rcases List.mem_append.mp hsg with hsg | hsg
    · exact hsegment sg (List.mem_of_mem_take hsg)
    · obtain rfl := List.mem_singleton.mp hsg
      exact ⟨Nat.dvd_zero w, Nat.dvd_zero w⟩

theorem touchedParts_addresses (hw : w ∣ 64) {slots : List Scatterlist} {skip : U32} (total : U32)
    (hskip : w ∣ skip.toNat) (hslots : ∀ sg ∈ slots, w ∣ (tpceDmaMapRangeAddr sg).toNat) :
    ∀ p ∈ touchedParts skip total slots, w ∣ p.1.toNat := by
  induction slots generalizing skip total with
  | nil => simp [touchedParts]
  | cons sg rest ih =>
      obtain ⟨hsg, hrest⟩ := List.forall_mem_cons.mp hslots
      rw [touchedParts]
      split
      · refine List.forall_mem_cons.mpr ⟨?_, ih _ (Nat.dvd_zero w) hrest⟩
        have hsmall : (skip.setWidth 64).toNat = skip.toNat := by
          rw [BitVec.toNat_setWidth]
          omega
        exact (dvd_add_iff hw _ _).mpr (Nat.dvd_add hsg (hsmall ▸ hskip))
      · simp

theorem pieces_words (hw : w ∣ 64) {parts : List (U64 × ℕ)} (haddr : ∀ p ∈ parts, w ∣ p.1.toNat)
    (hlen : ∀ p ∈ parts, w ∣ p.2) : ∀ p ∈ pieces 262144 parts, w ∣ p.1.toNat ∧ w ∣ p.2 := by
  have hL : w ∣ 262144 := hw.trans (by decide)
  rw [forall_mem_pieces (P := fun a l => w ∣ a.toNat ∧ w ∣ l) (by decide)]
  intro s hs k hk
  have hshift : w ∣ k * 262144 := hL.mul_left k
  constructor
  · show w ∣ (s.1 + BitVec.ofNat 64 (k * 262144)).toNat
    rw [dvd_add_iff hw, BitVec.toNat_ofNat]
    exact Nat.dvd_add (haddr s hs) ((Nat.dvd_mod_iff (hw.trans (by decide))).mpr hshift)
  · rcases Nat.le_total 262144 (s.2 - k * 262144) with hle | hle
    · rwa [Nat.min_eq_left hle]
    · rw [Nat.min_eq_right hle]
      exact Nat.dvd_sub (hlen s hs) hshift

/-- The first descriptor is where the transfer starts. -/
theorem generated_first (hflex : params.bytesPerDescriptor = 0) {ds out : List TpceDmaDescriptor}
    {maxDescriptors : U32} {ret : ℤ}
    (h : tpceGenerateDescriptors params mapInfo ds maxDescriptors = .ok (ret, out)) (hret : 0 < ret) :
    ∃ desc ∈ out.take ret.toNat, ∃ (k : ℕ) (sg : Scatterlist) (rem : U32), (ranges mapInfo)[k]? = some sg ∧
      (((ranges mapInfo).take k).map rangeBytes).sum + rem.toNat = params.mapOffset.toNat ∧
      rem.toNat < rangeBytes sg ∧ hostAddr params.direction desc = tpceDmaMapRangeAddr sg + rem.setWidth 64 := by
  obtain ⟨k, rem, hskip, -, hsum, hlt⟩ := skipOffset_ranges (generated_indexed h hret) params.mapOffset
  obtain ⟨hcount, hmap⟩ := generated_flexible hflex h hret.le
  have hle : ret.toNat ≤ (pieces 262144 (partsFrom params mapInfo (ranges mapInfo))).length := by
    have := plannedCount_le mapInfo hflex
    omega
  rw [partsFrom_eq hskip] at hmap hle
  cases hdrop : (ranges mapInfo).drop k with
  | nil =>
      rw [hdrop] at hle
      have hnil : (pieces 262144 (touchedParts rem params.bytesTotal [])).length = 0 := rfl
      omega
  | cons sg rest =>
      have hrem := hlt sg rest hdrop
      have htotal : params.bytesTotal > 0 := by
        by_contra hz
        rw [eq_zero_of_not_pos hz, touchedParts_zero] at hle
        have hnil : (pieces 262144 []).length = 0 := rfl
        omega
      have hpart : 0 < (tpceMin (tpceDmaMapRangeSize sg - rem) params.bytesTotal).toNat := by
        rw [toNat_tpceMin, BitVec.toNat_sub_of_le (BitVec.le_def.mpr hrem.le)]
        have hpos : 0 < params.bytesTotal.toNat := BitVec.lt_def.mp htotal
        unfold rangeBytes at hrem
        omega
      rw [hdrop, touchedParts, if_pos htotal, pieces_cons, cut_step (by decide) hpart, layout, List.cons_append] at hmap
      obtain ⟨n, hn⟩ : ∃ n, ret.toNat = n + 1 := ⟨ret.toNat - 1, by omega⟩
      rw [hn, List.take_succ_cons] at hmap
      obtain ⟨desc, descs, hdescs, hdesc, -⟩ := List.map_eq_cons_iff.mp hmap
      refine ⟨desc, ?_, k, sg, rem, ?_, hsum, hrem, congrArg Prod.fst hdesc⟩
      · rw [hn, hdescs]
        exact List.mem_cons_self
      · have hget := congrArg (·[0]?) hdrop
        simpa [List.getElem?_drop] using hget

/-- Up to where a range holds bytes, the ranges are the segments. -/
theorem segment_of_range (hpages : PageSegments bufferInfo mapInfo.sgt) {k : ℕ} {sg : Scatterlist}
    (hsg : (ranges mapInfo)[k]? = some sg) (hpos : 0 < rangeBytes sg) :
    mapInfo.sgt.dmaEntries[k]? = some sg ∧ (ranges mapInfo).take k = mapInfo.sgt.dmaEntries.take k := by
  rcases ranges_cases hpages with hall | ⟨hlink, hlen⟩
  · rw [hall] at hsg ⊢
    exact ⟨hsg, rfl⟩
  · have hfirst : (mapInfo.sgt.dmaEntries.take 127).length = 127 := by
      rw [List.length_take]
      omega
    rw [hlink] at hsg ⊢
    rcases Nat.lt_or_ge k 127 with hk | hk
    · rw [List.getElem?_append_left (by omega), List.getElem?_take_of_lt hk] at hsg
      rw [List.take_append_of_le_length (by omega), List.take_take, Nat.min_eq_left hk.le]
      exact ⟨hsg, rfl⟩
    · rw [List.getElem?_append_right (by omega)] at hsg
      obtain rfl := List.mem_singleton.mp (List.mem_of_getElem? hsg)
      exact absurd hpos (Nat.lt_irrefl 0)

theorem pageOffset_eq (bufferInfo : TpceDmaBufIn) : (pageOffset bufferInfo).toNat = bufferInfo.buf.toNat % 4096 := by
  have hand : bufferInfo.buf.toNat &&& 4095 = bufferInfo.buf.toNat % 4096 := Nat.and_two_pow_sub_one_eq_mod _ 12
  rw [pageOffset, BitVec.toNat_setWidth, BitVec.toNat_and]
  show (bufferInfo.buf.toNat &&& 4095) % 2 ^ 32 = _
  omega

theorem lockUserBuffer_size {p : MapPtr} (h : Requests.tpceDmaLockUserBuffer env dev bufferInfo = (p, dev'))
    (hptr : ∃ obj, p = .ptr obj) : 64 ∣ bufferInfo.size.toNat := by
  obtain ⟨obj, rfl⟩ := hptr
  simp only [Requests.tpceDmaLockUserBuffer] at h
  split at h
  · cases h
  · rename_i hsize
    have hmod := congrArg BitVec.toNat (not_not.mp hsize)
    rw [BitVec.toNat_umod] at hmod
    exact Nat.dvd_of_mod_eq_zero hmod

/-- An accepted transfer inside the mapping of a user buffer that has been locked -/
structure LockedTransfer (env : LockEnv) (dev : TpceDev) (bufferInfo : TpceDmaBufIn)
    (params : TpceDmaTransferParams) (mapInfo : TpceDmaMapInfo) : Prop where
  kernel : KernelCovers env bufferInfo
  pages : PageSegments bufferInfo env.sgt
  locked : ∃ obj dev', Requests.tpceDmaLockUserBuffer env dev bufferInfo = (.ptr obj, dev') ∧
    dev'.mapInfos obj = some mapInfo
  accepted : tpceValidateDmaParams params mapInfo = .ok 0
  flexible : params.bytesPerDescriptor = 0
  inside : params.mapOffset.toNat + params.bytesTotal.toNat ≤ mapInfo.size.toNat

theorem LockedTransfer.mapping (hreq : LockedTransfer env dev bufferInfo params mapInfo) :
    mapInfo.sgt = env.sgt ∧ 64 ∣ bufferInfo.size.toNat := by
  obtain ⟨obj, dev', hlock, hm⟩ := hreq.locked
  refine ⟨?_, lockUserBuffer_size hlock ⟨obj, rfl⟩⟩
  rcases lockUserBuffer_cases hlock with ⟨-, hno⟩ | ⟨id, -, hobj, rfl⟩
  · exact absurd rfl (hno obj)
  · cases hobj
    have hself : (dev.setMapInfo dev.nextObj (lockedMapInfo env dev bufferInfo id)).mapInfos dev.nextObj =
        some (lockedMapInfo env dev bufferInfo id) := Function.update_self ..
    obtain rfl := Option.some.inj (hself.symm.trans hm)
    rfl

theorem LockedTransfer.totalLength_dvd (hreq : LockedTransfer env dev bufferInfo params mapInfo) (hw : w ∣ 64)
    (hbuf : w ∣ (pageOffset bufferInfo).toNat) : w ∣ totalLength mapInfo.sgt := by
  obtain ⟨hsgt, hsize⟩ := hreq.mapping
  have hpage : w ∣ numPages bufferInfo * pageSize := (hw.trans (show 64 ∣ pageSize by decide)).mul_left _
  rw [hsgt, hreq.kernel.table]
  rcases Nat.le_total bufferInfo.size.toNat (numPages bufferInfo * pageSize - (pageOffset bufferInfo).toNat) with h | h
  · rw [Nat.min_eq_left h]
    exact hw.trans hsize
  · rw [Nat.min_eq_right h]
    exact Nat.dvd_sub hpage hbuf

/-- The first descriptor shows where the buffer starts. -/
theorem buffer_of_aligned (hreq : LockedTransfer env dev bufferInfo params mapInfo)
    (hch : channelInfo params.channel = .ok chInfo) {ds out : List TpceDmaDescriptor} {maxDescriptors : U32} {ret : ℤ}
    (h : tpceGenerateDescriptors params mapInfo ds maxDescriptors = .ok (ret, out)) (hret : 0 < ret)
    (hall : Aligned params.direction chInfo (out.take ret.toNat)) :
    chInfo.dataWidth.toNat ∣ (pageOffset bufferInfo).toNat := by
  have hw := channelInfo_dataWidth_dvd hch
  have hpages : PageSegments bufferInfo mapInfo.sgt := hreq.mapping.1 ▸ hreq.pages
  obtain ⟨hoffset, -⟩ := validated_dvd hreq.accepted hch
  obtain ⟨desc, hdesc, k, sg, rem, hsg, hsum, hrem, haddr⟩ := generated_first hreq.flexible h hret
  obtain ⟨hentry, htake⟩ := segment_of_range hpages hsg (by omega)
  have hsmall : (rem.setWidth 64).toNat = rem.toNat := by
    rw [BitVec.toNat_setWidth]
    omega
  have hstart := (hall desc hdesc).2
  rw [haddr, dvd_add_iff hw, hsmall] at hstart
  have hcongr := (segment_address hw hpages hentry).add_right rem.toNat
  rw [← htake, Nat.add_assoc, hsum] at hcongr
  exact (Nat.dvd_add_left hoffset).mp ((hcongr.dvd_iff (Nat.dvd_refl _)).mp hstart)

theorem aligned_of_buffer (hreq : LockedTransfer env dev bufferInfo params mapInfo)
    (hch : channelInfo params.channel = .ok chInfo) {ds out : List TpceDmaDescriptor} {maxDescriptors : U32} {ret : ℤ}
    (h : tpceGenerateDescriptors params mapInfo ds maxDescriptors = .ok (ret, out)) (hret : 0 < ret)
    (hbuf : chInfo.dataWidth.toNat ∣ (pageOffset bufferInfo).toNat) :
    Aligned params.direction chInfo (out.take ret.toNat) := by
  have hw := channelInfo_dataWidth_dvd hch
  have hpages : PageSegments bufferInfo mapInfo.sgt := hreq.mapping.1 ▸ hreq.pages
  obtain ⟨hoffset, htotal⟩ := validated_dvd hreq.accepted hch
  have hwords := range_words hw hpages hbuf (hreq.totalLength_dvd hw hbuf)
  obtain ⟨k, rem, hskip, -, hsum, hlt⟩ := skipOffset_ranges (generated_indexed h hret) params.mapOffset
  have hrem : chInfo.dataWidth.toNat ∣ rem.toNat := by
    refine (Nat.dvd_add_right (List.dvd_sum fun n hn => ?_)).mp (hsum ▸ hoffset)
    obtain ⟨sg, hsg, rfl⟩ := List.mem_map.mp hn
    exact (hwords sg (List.mem_of_mem_take hsg)).1
  have hparts := pieces_words hw
    (touchedParts_addresses hw params.bytesTotal hrem fun sg hsg => (hwords sg (List.mem_of_mem_drop hsg)).2)
    (touchedParts_dvd hrem htotal (fun sg hsg => (hwords sg (List.mem_of_mem_drop hsg)).1)
      fun sg rest hdrop => (hlt sg rest hdrop).le)
  obtain ⟨-, hmap⟩ := generated_flexible hreq.flexible h hret.le
  rw [partsFrom_eq hskip] at hmap
  intro desc hdesc
  have hmem := List.mem_map_of_mem (f := hostInterval params.direction) hdesc
  rw [hmap] at hmem
  exact (hparts _ (List.mem_of_mem_take hmem)).symm

/-- The descriptors are aligned exactly when the buffer is, which nothing checks. -/
theorem descriptors_aligned_iff (hreq : LockedTransfer env dev bufferInfo params mapInfo)
    (hch : channelInfo params.channel = .ok chInfo) {ds out : List TpceDmaDescriptor} {maxDescriptors : U32} {ret : ℤ}
    (h : tpceGenerateDescriptors params mapInfo ds maxDescriptors = .ok (ret, out)) (hret : 0 < ret) :
    Aligned params.direction chInfo (out.take ret.toNat) ↔ chInfo.dataWidth.toNat ∣ bufferInfo.buf.toNat := by
  have hpage : chInfo.dataWidth.toNat ∣ bufferInfo.buf.toNat ↔
      chInfo.dataWidth.toNat ∣ (pageOffset bufferInfo).toNat := by
    rw [pageOffset_eq, Nat.dvd_mod_iff ((channelInfo_dataWidth_dvd hch).trans (by decide))]
  rw [hpage]
  exact ⟨buffer_of_aligned hreq hch h hret, aligned_of_buffer hreq hch h hret⟩

/-- A buffer of 64 bytes at the given page offset, in at most two pages -/
def cachelineAt (offset : U64) : TpceDmaBufIn := ⟨0x7f0000001000#64 + offset, 64#32, 0, 0, tpceDmaFromDevice⟩

def lockEnv (pagesPinned : ℤ) (segments : List Scatterlist) : LockEnv :=
  ⟨true, pagesPinned, 0, 0, ⟨.last segments, segments.length⟩, true, true, true⟩

def wholeBuffer : TpceDmaTransferParams where
  mapOffset := 0
  deviceAddr := 0
  bytesTotal := 64
  bytesPerDescriptor := 0
  readStride := 0
  writeStride := 0
  channel := 0
  transferMode := tpceDmaModeDefault
  direction := tpceDmaFromDevice
  interruptInterval := 0
  burstCount := 0

/-- The mapping of such a buffer on a fresh device, behind that of the driver -/
def lockedCacheline (env : LockEnv) (offset : U64) : TpceDmaMapInfo :=
  lockedMapInfo env freshDevice (cachelineAt offset) 2

theorem locked_cacheline {env : LockEnv} {offset : U64}
    (hptr : (Requests.tpceDmaLockUserBuffer env freshDevice (cachelineAt offset)).1 = .ptr 1) :
    ∃ obj dev', Requests.tpceDmaLockUserBuffer env freshDevice (cachelineAt offset) = (.ptr obj, dev') ∧
      dev'.mapInfos obj = some (lockedCacheline env offset) := by
  rcases lockUserBuffer_cases (p := .ptr 1) (Prod.ext hptr rfl) with ⟨-, hno⟩ | ⟨id, hfree, -, hdev⟩
  · exact absurd rfl (hno 1)
  · have hid : xaFreeId freshDevice = some 2 := by decide
    obtain rfl := Option.some.inj (hid.symm.trans hfree)
    refine ⟨1, _, Prod.ext hptr rfl, ?_⟩
    rw [hdev]
    rfl

def alignedEnv : LockEnv := lockEnv 1 [⟨0x10000, 64, 64⟩]

theorem locked_aligned :
    LockedTransfer alignedEnv freshDevice (cachelineAt 64) wholeBuffer (lockedCacheline alignedEnv 64) where
  kernel := ⟨by decide, by decide⟩
  pages := ⟨⟨[⟨0x10000, 64, 64⟩], by rw [sgAllocTable, if_pos (by decide)]; rfl, by decide⟩, by decide, by decide,
    by decide, by decide⟩
  locked := locked_cacheline (by decide)
  accepted := by decide
  flexible := rfl
  inside := by decide

def writeDescriptor (device host length : U32) (number : U16) (control : U32) : TpceDmaDescriptor :=
  { readAddressLow := device, writeAddressLow := host, transferLength := length, sequenceNumber := number,
    control := control }

theorem aligned_buffer_aligned : Aligned wholeBuffer.direction ⟨8#32, 262144#32, 0#32, 32#8, false, false⟩
      [writeDescriptor 0 0x10040 64 0 0x4000] ↔ (8#32).toNat ∣ (cachelineAt 64).buf.toNat :=
  have hgen : tpceGenerateDescriptors wholeBuffer (lockedCacheline alignedEnv 64) [default] 1 =
      .ok (1, [writeDescriptor 0 0x10040 64 0 0x4000]) := by decide
  descriptors_aligned_iff locked_aligned rfl hgen (by decide)

def straddlingEnv : LockEnv := lockEnv 2 [⟨0x10000, 4, 4092⟩, ⟨0x20000, 60, 0⟩]

/-- A buffer that starts four bytes in front of a page end is locked, and its first
descriptor is for four bytes. -/
theorem straddling_buffer_misaligned :
    LockedTransfer straddlingEnv freshDevice (cachelineAt 0xffc) wholeBuffer (lockedCacheline straddlingEnv 0xffc) ∧
    tpceGenerateDescriptors wholeBuffer (lockedCacheline straddlingEnv 0xffc) [default, default] 2 =
      .ok (2, [writeDescriptor 0 0x10ffc 4 0 0x1000000, writeDescriptor 4 0x20000 60 1 0x4000]) ∧
    ¬Aligned wholeBuffer.direction ⟨8#32, 262144#32, 0#32, 32#8, false, false⟩
      [writeDescriptor 0 0x10ffc 4 0 0x1000000, writeDescriptor 4 0x20000 60 1 0x4000] := by
  refine ⟨⟨⟨by decide, by decide⟩, ?_, locked_cacheline (by decide), by decide, rfl, by decide⟩, by decide, ?_⟩
  · exact ⟨⟨[⟨0x10000, 4, 4092⟩, ⟨0x20000, 60, 0⟩], by rw [sgAllocTable, if_pos (by decide)]; rfl, by decide⟩, by decide,
      by decide, by decide, by decide⟩
  · intro h
    exact absurd (h _ List.mem_cons_self).1 (by decide)

end TpceDrv.DescriptorAlignment
