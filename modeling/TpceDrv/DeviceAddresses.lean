import Mathlib.Algebra.BigOperators.Ring.List
import Mathlib.Data.Nat.ModEq
import TpceDrv.Library.Strided
import TpceDrv.TransferParts

namespace TpceDrv.DeviceAddresses

open Descriptor Mapping DmaParams Generation Reach Planning MappedRanges TransferParts
open Library.Cuts Library.Strided

/-- What a descriptor reads: the address and the length -/
def readInterval (desc : TpceDmaDescriptor) : U64 × ℕ := (tpceDescGetRead desc, desc.transferLength.toNat)

/-- The device addresses of the words of `w` bytes that a descriptor reads -/
def wordsRead (w : ℕ) (desc : TpceDmaDescriptor) : List ℕ :=
  starts w desc.readStride.toNat (tpceDescGetRead desc).toNat (desc.transferLength.toNat / w)

def deviceSide (p : U32 × ℕ) : U64 × ℕ := (p.1.setWidth 64, p.2)

variable {params : TpceDmaTransferParams} {mapInfo : TpceDmaMapInfo} {chInfo : TpceDmaChannelInfo}
  {plan : DescriptorPlan}

theorem readInterval_setAddresses (hdir : params.direction = tpceDmaFromDevice) (hmm : chInfo.hasStreamRead = false)
    (bus : U64) (dev len : U32) (desc : TpceDmaDescriptor) :
    readInterval { setAddresses params chInfo bus dev desc with transferLength := len } =
      deviceSide (dev, len.toNat) := by
  simp only [readInterval, setAddresses, if_pos hdir, hmm, deviceSide, Prod.mk.injEq, and_true]
  show combine 0 dev = _
  simp [combine]

/-- One page: each descriptor reads from where the one before it stops. -/
theorem fillPage_device (hdir : params.direction = tpceDmaFromDevice) (hmm : chInfo.hasStreamRead = false)
    {descIdx : ℕ} {n dev rem : U32} {bus : U64} {buf : List TpceDmaDescriptor} {page : PageFill}
    (h : fillPage params chInfo descIdx n bus dev rem buf = .ok page) :
    ∃ lens, page.written.map readInterval = (layout dev lens).map deviceSide ∧ page.deviceAddr = lens.sum +ᵥ dev := by
  induction buf generalizing descIdx n dev rem bus page with
  | nil =>
      simp only [fillPage] at h
      split at h
      · cases h
      · cases h
        exact ⟨[], rfl, (zero_vadd ℕ dev).symm⟩
  | cons desc buf ih =>
      simp only [fillPage] at h
      split at h
      · obtain ⟨tail, htail, h⟩ := bind_eq_ok.mp h
        cases h
        obtain ⟨lens, hmap, hdev⟩ := ih htail
        refine ⟨(getTransferLength params chInfo n).toNat :: lens, ?_, ?_⟩
        · rw [List.map_cons, readInterval_setAddresses hdir hmm, hmap, layout, List.map_cons, vadd_toNat, BitVec.setWidth_eq]
        · rw [hdev, List.sum_cons, Nat.add_comm, add_vadd, vadd_toNat, BitVec.setWidth_eq]
      · cases h
        exact ⟨[], rfl, (zero_vadd ℕ dev).symm⟩

/-- The descriptors up to some index are written in that way, and the rest of the
buffer is as it was. -/
theorem fillRanges_device (hdir : params.direction = tpceDmaFromDevice) (hmm : chInfo.hasStreamRead = false)
    {slots : List Scatterlist} {mapIdx descIdx : ℕ} {dev rem : U32} {buf out : List TpceDmaDescriptor}
    (h : fillRanges params chInfo plan mapIdx slots descIdx dev rem buf = .ok out) :
    ∃ k lens, out.drop k = buf.drop k ∧ (out.take k).map readInterval = (layout dev lens).map deviceSide := by
  induction slots generalizing mapIdx descIdx dev rem buf out with
  | nil =>
      simp only [fillRanges] at h
      split at h
      · cases h
      · cases h
        exact ⟨0, [], rfl, rfl⟩
  | cons sg rest ih =>
      simp only [fillRanges] at h
      split at h
      · obtain ⟨page, hpage, h⟩ := bind_eq_ok.mp h
        obtain ⟨tail, htail, h⟩ := bind_eq_ok.mp h
        cases h
        obtain ⟨lens, hmap, hdev⟩ := fillPage_device hdir hmm hpage
        obtain ⟨k, lens', hdrop, htake⟩ := ih htail
        refine ⟨page.written.length + k, lens ++ lens', ?_, ?_⟩
        · rw [List.drop_length_add_append, hdrop, fillPage_unwritten hpage, List.drop_drop]
        · rw [List.take_length_add_append, List.map_append, hmap, htake, layout_append, List.map_append, hdev]
      · cases h
        exact ⟨0, [], rfl, rfl⟩

theorem readInterval_orControl (desc : TpceDmaDescriptor) (flags : U32) :
    readInterval (orControl desc flags) = readInterval desc := rfl

theorem readInterval_fillControlFlags (i : ℕ) (desc : TpceDmaDescriptor) :
    readInterval (fillControlFlags params chInfo plan i desc) = readInterval desc := by
  unfold fillControlFlags fillControlFlagsDefault fillControlFlagsStream
  split_ifs
  all_goals simp only [readInterval_orControl]
  split_ifs
  all_goals simp only [readInterval_orControl]

theorem readInterval_fillOtherFields (i : ℕ) (desc : TpceDmaDescriptor) :
    readInterval (fillOtherFields params chInfo plan i desc) = readInterval desc := by
  simp only [fillOtherFields]
  split
  · rfl
  · rfl

def readLength (desc : TpceDmaDescriptor) : ℕ := desc.transferLength.toNat

theorem generated_positive (hflex : params.bytesPerDescriptor = 0) {ds out : List TpceDmaDescriptor}
    {maxDescriptors : U32} {ret : ℤ}
    (h : tpceGenerateDescriptors params mapInfo ds maxDescriptors = .ok (ret, out)) (hret : 0 ≤ ret) :
    ∀ desc ∈ out.take ret.toNat, 0 < readLength desc := by
  intro desc hdesc
  have hmem := List.mem_map_of_mem (f := hostInterval params.direction) hdesc
  rw [(generated_flexible hflex h hret).2] at hmem
  exact (mem_pieces (by decide) (List.mem_of_mem_take hmem)).1

/-- The descriptors read one after the other from the device address on. -/
theorem generated_device (hdir : params.direction = tpceDmaFromDevice)
    (hch : channelInfo params.channel = .ok chInfo) (hmm : chInfo.hasStreamRead = false)
    (hflex : params.bytesPerDescriptor = 0) {ds out : List TpceDmaDescriptor} {maxDescriptors : U32} {ret : ℤ}
    (h : tpceGenerateDescriptors params mapInfo ds maxDescriptors = .ok (ret, out)) (hret : 0 ≤ ret) :
    (out.take ret.toNat).map readInterval =
      (layout params.deviceAddr ((out.take ret.toNat).map readLength)).map deviceSide := by
  have hpositive := generated_positive hflex h hret
  obtain ⟨plan, -, h⟩ := bind_eq_ok.mp h
  split at h
  · cases h
    exact absurd hret (by decide)
  split at h
  · cases h
    rfl
  obtain ⟨chInfo', hch', h⟩ := bind_eq_ok.mp h
  obtain rfl := Except.ok.inj (hch.symm.trans hch')
  obtain ⟨zeroed, hzeroed, h⟩ := bind_eq_ok.mp h
  obtain ⟨filled, hfill, h⟩ := bind_eq_ok.mp h
  cases h
  have hnum : plan.numDescriptors.toInt.toNat = plan.numDescriptors.toNat := by
    rw [toInt_of_nonneg hret, Int.toNat_natCast]
  rw [hnum] at hpositive ⊢
  obtain ⟨k, lens, hdrop, htake⟩ := fillRanges_device hdir hmm hfill
  have hread : ∀ n, ((((filled.mapIdx (fillControlFlags params chInfo plan)).mapIdx
      (fillOtherFields params chInfo plan)).take n).map readInterval) = (filled.take n).map readInterval := by
    intro n
    rw [List.map_take, map_mapIdx_of_eq readInterval_fillOtherFields, map_mapIdx_of_eq readInterval_fillControlFlags,
      List.map_take]
  have hle : plan.numDescriptors.toNat ≤ k := by
    by_contra hlt
    have hk := Nat.not_le.mp hlt
    have hblank : filled[k]? = some default := by
      have hfirst := congrArg (·[0]?) hdrop
      simp only [List.getElem?_drop, Nat.add_zero] at hfirst
      rw [hfirst, zeroed_getElem? hzeroed hk]
    have hunread : readInterval default ∈ (filled.take plan.numDescriptors.toNat).map readInterval :=
      List.mem_map_of_mem (List.mem_of_getElem? ((List.getElem?_take_of_lt hk).trans hblank))
    rw [← hread] at hunread
    obtain ⟨desc, hdesc, heq⟩ := List.mem_map.mp hunread
    exact absurd (congrArg Prod.snd heq) (hpositive desc hdesc).ne'
  have hlayout := congrArg (List.take plan.numDescriptors.toNat) htake
  rw [← List.map_take, List.take_take, Nat.min_eq_left hle, ← hread, ← List.map_take, take_layout] at hlayout
  have hlens := congrArg (List.map Prod.snd) hlayout
  rw [List.map_map, List.map_map] at hlens
  have hsnd : (layout params.deviceAddr (lens.take plan.numDescriptors.toNat)).map (Prod.snd ∘ deviceSide) =
      lens.take plan.numDescriptors.toNat := map_snd_layout _ _
  rw [hsnd] at hlens
  rw [hlayout, ← hlens]
  rfl

/-- Runs of the given lengths that are read one after the other, the first one from
`a` on, read what one run with stride `s` reads from `e` on. -/
def Continues (s : ℕ) : U32 → ℕ → List ℕ → Prop
  | _, _, [] => True
  | a, e, l :: ls => a.toNat = e ∧ Continues s (l +ᵥ a) (e + l * s) ls

theorem starts_layout_iff {w s : ℕ} (hw : 0 < w) {lens : List ℕ} (hpos : ∀ l ∈ lens, 0 < l)
    (hdvd : ∀ l ∈ lens, w ∣ l) (a : U32) (e : ℕ) :
    (layout a lens).flatMap (fun p => starts w s p.1.toNat (p.2 / w)) = starts w s e (lens.sum / w) ↔
      Continues s a e lens := by
  induction lens generalizing a e with
  | nil => simp [layout, starts, Continues]
  | cons l ls ih =>
      obtain ⟨hl, hls⟩ := List.forall_mem_cons.mp hpos
      obtain ⟨hdl, hdls⟩ := List.forall_mem_cons.mp hdvd
      have hcount : 0 < l / w := Nat.div_pos (Nat.le_of_dvd hl hdl) hw
      have hnext : l / w * s * w = l * s := by
        rw [Nat.mul_right_comm, Nat.div_mul_cancel hdl]
      rw [layout, List.flatMap_cons, List.sum_cons, Nat.add_div_of_dvd_right hdl, starts_add, hnext, Continues,
        ← ih hls hdls]
      constructor
      · intro h
        obtain ⟨hfirst, hrest⟩ := List.append_inj h (by rw [length_starts, length_starts])
        exact ⟨(starts_inj hcount).mp hfirst, hrest⟩
      · rintro ⟨rfl, hrest⟩
        rw [hrest]

theorem length_layout_starts {w s : ℕ} {lens : List ℕ} (hdvd : ∀ l ∈ lens, w ∣ l) (a : U32) :
    ((layout a lens).flatMap fun p => starts w s p.1.toNat (p.2 / w)).length = lens.sum / w := by
  induction lens generalizing a with
  | nil => simp [layout]
  | cons l ls ih =>
      obtain ⟨hdl, hdls⟩ := List.forall_mem_cons.mp hdvd
      rw [layout, List.flatMap_cons, List.length_append, ih hdls, length_starts, List.sum_cons,
        Nat.add_div_of_dvd_right hdl]

/-- The first ones of several runs are not all of them. -/
theorem starts_layout_take_ne {w s n : ℕ} (hw : 0 < w) {lens : List ℕ} (hpos : ∀ l ∈ lens, 0 < l)
    (hdvd : ∀ l ∈ lens, w ∣ l) (hless : n < lens.length) (a : U32) (e : ℕ) :
    (layout a (lens.take n)).flatMap (fun p => starts w s p.1.toNat (p.2 / w)) ≠ starts w s e (lens.sum / w) := by
  intro heq
  have hlength := congrArg List.length heq
  rw [length_layout_starts (fun l hl => hdvd l (List.mem_of_mem_take hl)), length_starts] at hlength
  have htake : w ∣ (lens.take n).sum := List.dvd_sum fun l hl => hdvd l (List.mem_of_mem_take hl)
  have hmem := List.getElem_mem hless
  have hword : 0 < lens[n] / w := Nat.div_pos (Nat.le_of_dvd (hpos _ hmem) (hdvd _ hmem)) hw
  have hsplit := congrArg List.sum (List.take_append_drop n lens)
  rw [List.sum_append, List.drop_eq_getElem_cons hless, List.sum_cons] at hsplit
  rw [← hsplit, Nat.add_div_of_dvd_right htake, Nat.add_div_of_dvd_right (hdvd _ hmem)] at hlength
  exact hword.ne' (Nat.add_eq_zero_iff.mp (Nat.left_eq_add.mp hlength)).1

/-- Since the address advances by the length of a run, the next run continues it only
without a stride. -/
theorem continues_iff {s : ℕ} (hs : 1 ≤ s) {lens : List ℕ} (hpos : ∀ l ∈ lens, 0 < l) (a : U32) :
    Continues s a a.toNat lens ↔ lens.length ≤ 1 ∨ s = 1 ∧ a.toNat + lens.dropLast.sum < 2 ^ 32 := by
  induction lens generalizing a with
  | nil => simp [Continues]
  | cons l ls ih =>
      cases ls with
      | nil => simp [Continues]
      | cons l' ls =>
          obtain ⟨hl, hls⟩ := List.forall_mem_cons.mp hpos
          have hnext := toNat_vadd l a
          have hlong : ¬(l :: l' :: ls).length ≤ 1 := by simp
          rw [Continues, and_iff_right rfl, or_iff_right hlong, List.dropLast_cons_of_ne_nil (by simp), List.sum_cons]
          constructor
          · intro h
            have heq : (l +ᵥ a).toNat = a.toNat + l * s := h.1
            have hmul : l ≤ l * s := Nat.le_mul_of_pos_right l hs
            have hsame : l * s = l := by omega
            have hone : s = 1 := Nat.eq_of_mul_eq_mul_left hl (by rw [hsame, Nat.mul_one])
            rw [← heq] at h
            rcases (ih hls _).mp h with hshort | ⟨-, hlt⟩
            · obtain rfl : ls = [] := by simpa using hshort
              exact ⟨hone, by simp; omega⟩
            · exact ⟨hone, by omega⟩
          · rintro ⟨rfl, hlt⟩
            have heq : (l +ᵥ a).toNat = a.toNat + l * 1 := by omega
            rw [← heq, ih hls]
            exact .inr ⟨rfl, by omega⟩

/-- An accepted transfer from the device over the striding channel, into ranges that
hold whole words -/
structure StridedRead (params : TpceDmaTransferParams) (mapInfo : TpceDmaMapInfo)
    (chInfo : TpceDmaChannelInfo) : Prop where
  accepted : tpceValidateDmaParams params mapInfo = .ok 0
  striding : params.channel = 1
  channel : channelInfo params.channel = .ok chInfo
  fromDevice : params.direction = tpceDmaFromDevice
  flexible : params.bytesPerDescriptor = 0
  readStride : 1 ≤ params.readStride.toNat
  writeStride : params.writeStride = 1
  sized : Sized mapInfo
  words : ∀ sg ∈ ranges mapInfo, chInfo.dataWidth.toNat ∣ rangeBytes sg
  inside : params.mapOffset.toNat + params.bytesTotal.toNat ≤ mapInfo.size.toNat

/-- The descriptors read the words that one transfer of the whole length reads, in
its order. -/
def ReadsInOrder (params : TpceDmaTransferParams) (chInfo : TpceDmaChannelInfo)
    (descs : List TpceDmaDescriptor) : Prop :=
  descs.flatMap (wordsRead chInfo.dataWidth.toNat) = starts chInfo.dataWidth.toNat params.readStride.toNat
    params.deviceAddr.toNat (params.bytesTotal.toNat / chInfo.dataWidth.toNat)

theorem StridedRead.info (hreq : StridedRead params mapInfo chInfo) :
    chInfo.dataWidth = 2#32 ∧ chInfo.hasStreamRead = false := by
  have hch := hreq.channel
  rw [hreq.striding] at hch
  obtain rfl := Except.ok.inj hch
  exact ⟨rfl, rfl⟩

theorem StridedRead.dvd_pieces (hreq : StridedRead params mapInfo chInfo) :
    ∀ l ∈ pieceLengths params mapInfo, chInfo.dataWidth.toNat ∣ l := by
  obtain ⟨hoffset, htotal⟩ := validated_dvd hreq.accepted hreq.channel
  intro l hl
  obtain ⟨n, hn, hl⟩ := List.mem_flatMap.mp hl
  refine dvd_of_mem_cut (by rw [hreq.info.1]; decide) ?_ hl
  refine overlaps_dvd hoffset (Nat.dvd_add hoffset htotal) (Nat.dvd_zero _) (fun size hsize => ?_) n hn
  obtain ⟨sg, hsg, rfl⟩ := List.mem_map.mp hsize
  exact hreq.words sg hsg

theorem flatMap_wordsRead {w s : ℕ} {descs : List TpceDmaDescriptor} {dev : U32}
    (hread : descs.map readInterval = (layout dev (descs.map readLength)).map deviceSide)
    (hstride : ∀ desc ∈ descs, desc.readStride.toNat = s) :
    descs.flatMap (wordsRead w) =
      (layout dev (descs.map readLength)).flatMap fun p => starts w s p.1.toNat (p.2 / w) := by
  have hwords : descs.flatMap (wordsRead w) =
      (descs.map readInterval).flatMap fun p => starts w s p.1.toNat (p.2 / w) := by
    rw [List.flatMap_map]
    refine List.flatMap_congr fun desc hdesc => ?_
    rw [wordsRead, hstride desc hdesc]
    rfl
  rw [hwords, hread, List.flatMap_map]
  refine List.flatMap_congr fun p _ => ?_
  have hsmall : (p.1.setWidth 64).toNat = p.1.toNat := by
    rw [BitVec.toNat_setWidth]
    omega
  rw [deviceSide, hsmall]

/-- The device side does not depend on the ranges exactly when no part of the transfer
is too long to be counted, and the pieces are one, or read without a stride from
addresses of 32 bits. -/
theorem reads_in_order_iff (hreq : StridedRead params mapInfo chInfo) {ds out : List TpceDmaDescriptor}
    {maxDescriptors : U32} {ret : ℤ}
    (h : tpceGenerateDescriptors params mapInfo ds maxDescriptors = .ok (ret, out)) (hret : 0 ≤ ret) :
    ReadsInOrder params chInfo (out.take ret.toNat) ↔
      (∀ n ∈ partLengths params mapInfo, n + 262143 < 2 ^ 32) ∧ ((pieceLengths params mapInfo).length ≤ 1 ∨
        params.readStride.toNat = 1 ∧
          params.deviceAddr.toNat + (pieceLengths params mapInfo).dropLast.sum < 2 ^ 32) := by
  have hlens : (out.take ret.toNat).map readLength = (pieceLengths params mapInfo).take ret.toNat :=
    generated_lengths hreq.flexible hreq.sized.indexed h hret
  have hread := generated_device hreq.fromDevice hreq.channel hreq.info.2 hreq.flexible h hret
  obtain ⟨hcount, -, -, hstrides⟩ := tpceGenerateDescriptors_reach h hret
  rw [plannedCount_flexible hreq.flexible hreq.sized.indexed] at hcount hstrides
  have hn : ret.toNat = countedPieces params mapInfo := by omega
  have hw : 0 < chInfo.dataWidth.toNat := by
    rw [hreq.info.1]
    decide
  have hpos : ∀ l ∈ pieceLengths params mapInfo, 0 < l := fun l hl => by
    obtain ⟨n, -, hl⟩ := List.mem_flatMap.mp hl
    exact (mem_cut (by decide) hl).1
  have hsum := sum_pieceLengths hreq.sized hreq.inside
  have hdvd := hreq.dvd_pieces
  rw [ReadsInOrder, flatMap_wordsRead hread (fun desc hdesc => by rw [(hstrides desc (hn ▸ hdesc)).1]), hlens,
    ← countedPieces_eq_iff, ← hn]
  by_cases hall : ret.toNat = (pieceLengths params mapInfo).length
  · rw [and_iff_right hall, hall, List.take_length, ← hsum, starts_layout_iff hw hpos hdvd,
      continues_iff hreq.readStride hpos]
  · have hle := countedPieces_le params mapInfo
    have hmissing := starts_layout_take_ne (s := params.readStride.toNat) (n := ret.toNat) hw hpos hdvd (by omega)
      params.deviceAddr params.deviceAddr.toNat
    rw [hsum] at hmissing
    exact iff_of_false hmissing fun hand => hall hand.1

/-- The samples of two pages, every `stride`-th of them -/
def sampled (stride : U16) (total : U32) : TpceDmaTransferParams where
  mapOffset := 0
  deviceAddr := 0
  bytesTotal := total
  bytesPerDescriptor := 0
  readStride := stride
  writeStride := 1
  channel := 1
  transferMode := tpceDmaModeDefault
  direction := tpceDmaFromDevice
  interruptInterval := 0
  burstCount := 0

/-- A buffer of 64 bytes in front of the end of a page and 64 bytes behind it -/
def acrossPageEnd : TpceDmaMapInfo := userMapping [⟨0x100000, 64, 4032⟩, ⟨0x200000, 64, 0⟩] 128 tpceDmaFromDevice

def samples : TpceDmaChannelInfo := ⟨2#32, 262144#32, 32768#32, 0#8, false, false⟩

theorem stridedRead_sampled {stride : U16} {total : U32}
    (h : tpceValidateDmaParams (sampled stride total) acrossPageEnd = .ok 0) (hstride : 1 ≤ stride.toNat)
    (htotal : total.toNat ≤ 128) : StridedRead (sampled stride total) acrossPageEnd samples where
  accepted := h
  striding := rfl
  channel := rfl
  fromDevice := rfl
  flexible := rfl
  readStride := hstride
  writeStride := rfl
  sized := ⟨by decide, by decide⟩
  words := by decide
  inside := by
    show 0 + total.toNat ≤ 128
    omega

def sampleDescriptor (device host : U32) (number : U16) (stride : U16) (control : U32) : TpceDmaDescriptor :=
  { readAddressLow := device, writeAddressLow := host, transferLength := 64, sequenceNumber := number,
    readStride := stride, writeStride := 1, control := control }

theorem one_piece_in_order : ReadsInOrder (sampled 2 64) samples [sampleDescriptor 0 0x100fc0 0 2 0x4000] ↔
    (∀ n ∈ partLengths (sampled 2 64) acrossPageEnd, n + 262143 < 2 ^ 32) ∧
      ((pieceLengths (sampled 2 64) acrossPageEnd).length ≤ 1 ∨ (sampled 2 64).readStride.toNat = 1 ∧
        (sampled 2 64).deviceAddr.toNat + (pieceLengths (sampled 2 64) acrossPageEnd).dropLast.sum < 2 ^ 32) :=
  have hgen : tpceGenerateDescriptors (sampled 2 64) acrossPageEnd [default] 1 =
      .ok (1, [sampleDescriptor 0 0x100fc0 0 2 0x4000]) := by decide
  reads_in_order_iff (stridedRead_sampled (by decide) (by decide) (by decide)) hgen (by decide)

/-- The second descriptor reads from byte 64 on, where the samples of the first one end
at byte 128. -/
theorem second_piece_rereads : StridedRead (sampled 2 128) acrossPageEnd samples ∧
    tpceGenerateDescriptors (sampled 2 128) acrossPageEnd [default, default] 2 =
      .ok (2, [sampleDescriptor 0 0x100fc0 0 2 0x1000000, sampleDescriptor 64 0x200000 1 2 0x4000]) ∧
    ¬ReadsInOrder (sampled 2 128) samples
      [sampleDescriptor 0 0x100fc0 0 2 0x1000000, sampleDescriptor 64 0x200000 1 2 0x4000] :=
  ⟨stridedRead_sampled (by decide) (by decide) (by decide), by decide, by unfold ReadsInOrder; decide⟩

end TpceDrv.DeviceAddresses
