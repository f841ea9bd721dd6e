import TpceDrv.GeneratorCheck
import TpceDrv.Library.Windows
import TpceDrv.TransferParts

namespace TpceDrv.CountBound

open Descriptor Mapping DmaParams Generation Reach Planning MappedRanges GeneratorCheck TransferParts
open Library.Cuts Library.Windows

/-- The mapping of a buffer that starts `pageOff` bytes into a page. Every range but
the last ends where a page ends. -/
structure PageLocked (mapInfo : TpceDmaMapInfo) (pageOff : ℕ) : Prop where
  offset : pageOff < pageSize
  sized : Sized mapInfo
  boundaries : ∀ pre size post, (ranges mapInfo).map rangeBytes = pre ++ size :: post → post ≠ [] →
    pageSize ∣ pageOff + (pre.sum + size)

/-- The planned count is at most what the buffer is allocated for, so that the
generator never finds it too small. -/
def CountBounded (params : TpceDmaTransferParams) (mapInfo : TpceDmaMapInfo) : Prop :=
  ∃ plan, createDescriptorPlan mapInfo params = .ok plan ∧
    plan.numDescriptors.toNat ≤ (tpceMaxDescriptorsNeeded params).toNat ∧
    ∀ ds out, tpceGenerateDescriptors params mapInfo ds (tpceMaxDescriptorsNeeded params) ≠
      .ok (-tpceErrDescBuf, out)

/-- The stretches of the transfer in the ranges, as positions in the mapping -/
def transferSpans (params : TpceDmaTransferParams) (mapInfo : TpceDmaMapInfo) : List (ℕ × ℕ) :=
  spans params.mapOffset.toNat (params.mapOffset.toNat + params.bytesTotal.toNat) 0 ((ranges mapInfo).map rangeBytes)

/-- The pages that hold the positions from `start` to `stop` -/
def pages (start stop : ℕ) : ℕ := if start < stop then (stop - 1) / pageSize - start / pageSize + 1 else 0

variable {params : TpceDmaTransferParams} {mapInfo : TpceDmaMapInfo} {pageOff : ℕ}

theorem pages_empty {start stop : ℕ} (h : stop ≤ start) : pages start stop = 0 := if_neg (Nat.not_lt.mpr h)

theorem pages_add {start mid stop : ℕ} (hstart : start ≤ mid) (hstop : mid ≤ stop) (hmid : pageSize ∣ mid) :
    pages start mid + pages mid stop = pages start stop := by
  obtain ⟨k, hk⟩ := hmid
  rcases Nat.eq_or_lt_of_le hstart with rfl | hlt
  · rw [pages_empty le_rfl, Nat.zero_add]
  rcases Nat.eq_or_lt_of_le hstop with rfl | hlt'
  · rw [pages_empty le_rfl, Nat.add_zero]
  rw [pages, pages, pages, if_pos hlt, if_pos hlt', if_pos (hlt.trans hlt')]
  simp only [pageSize] at hk ⊢
  omega

theorem pages_spans {lo hi base : ℕ} {sizes : List ℕ} (hstop : hi ≤ base + sizes.sum)
    (hends : ∀ pre size post, sizes = pre ++ size :: post → post ≠ [] →
      pageSize ∣ pageOff + (base + (pre.sum + size))) :
    ((spans lo hi base sizes).map fun s => pages (pageOff + s.1) (pageOff + s.2)).sum =
      pages (pageOff + max lo base) (pageOff + hi) := by
  induction sizes generalizing base with
  | nil =>
      rw [List.sum_nil] at hstop
      rw [pages_empty (by omega)]
      rfl
  | cons size sizes ih =>
      rw [List.sum_cons] at hstop
      rw [spans, List.map_cons, List.sum_cons]
      by_cases hlast : sizes = []
      · subst hlast
        simp only [List.sum_nil] at hstop
        rw [Nat.min_eq_left (by omega)]
        simp [spans]
      · have hend := hends [] size sizes rfl hlast
        rw [List.sum_nil, Nat.zero_add] at hend
        rw [ih (by omega) fun pre size' post heq hne => by
          have := hends (size :: pre) size' post (by rw [heq, List.cons_append]) hne
          rwa [List.sum_cons, Nat.add_assoc, ← Nat.add_assoc base] at this]
        rcases Nat.le_total hi (base + size) with hle | hle
        · have hnone : pages (pageOff + max lo (base + size)) (pageOff + hi) = 0 := pages_empty (by omega)
          rw [Nat.min_eq_left hle, hnone, Nat.add_zero]
        · rw [Nat.min_eq_right hle]
          rcases Nat.le_total lo (base + size) with hlo | hlo
          · rw [Nat.max_eq_right hlo, pages_add (by omega) (by omega) hend]
          · have hnone : pages (pageOff + max lo base) (pageOff + (base + size)) = 0 := pages_empty (by omega)
            rw [hnone, Nat.zero_add]
            congr 2
            omega

/-- The number of descriptors that are planned for a stretch -/
def plannedFor (s : ℕ × ℕ) : ℕ := (s.2 - s.1 + 262143) % 2 ^ 32 / 262144

/-- A stretch is cut into fewer pieces than it has pages, unless it is in one page. -/
theorem plannedFor_lt {s : ℕ × ℕ} (h : ¬Within pageSize (pageOff + s.1) (s.2 - s.1)) :
    plannedFor s < pages (pageOff + s.1) (pageOff + s.2) := by
  rw [within_iff (by decide)] at h
  simp only [pageSize] at h
  rw [plannedFor, pages, if_pos (by omega)]
  simp only [pageSize]
  omega

theorem plannedFor_eq {s : ℕ × ℕ} (h : Within pageSize (pageOff + s.1) (s.2 - s.1)) :
    plannedFor s = pages (pageOff + s.1) (pageOff + s.2) := by
  rw [within_iff (by decide)] at h
  simp only [pageSize] at h
  rcases Nat.lt_or_ge s.1 s.2 with hlt | hge
  · rw [plannedFor, pages, if_pos (by omega)]
    simp only [pageSize]
    omega
  · rw [plannedFor, pages_empty (by omega)]
    omega

/-- A stretch of the transfer that goes on over the end of a page -/
def CrossesPage (params : TpceDmaTransferParams) (mapInfo : TpceDmaMapInfo) (pageOff : ℕ) : Prop :=
  ∃ s ∈ transferSpans params mapInfo, ¬Within pageSize (pageOff + s.1) (s.2 - s.1)

theorem plannedCount_spans (hflex : params.bytesPerDescriptor = 0) (hmap : Sized mapInfo) :
    plannedCount params mapInfo = ((transferSpans params mapInfo).map plannedFor).sum := by
  rw [plannedCount_flexible hflex hmap.indexed, countedPieces, partLengths, overlaps, List.map_map]
  rfl

theorem pages_transfer (hmap : PageLocked mapInfo pageOff) (hreq : FlexibleTransfer params mapInfo) :
    ((transferSpans params mapInfo).map fun s => pages (pageOff + s.1) (pageOff + s.2)).sum =
      ((pageOff + params.mapOffset.toNat) % pageSize + params.bytesTotal.toNat + 4095) / pageSize := by
  have hpos := hreq.positive
  have hinside := hreq.inside
  have htotal := hmap.sized.total
  rw [transferSpans, pages_spans (by omega) (by simpa using hmap.boundaries), Nat.max_eq_left (Nat.zero_le _), pages,
    if_pos (by omega)]
  simp only [pageSize]
  omega

theorem plannedCount_lt (hmap : PageLocked mapInfo pageOff) (hreq : FlexibleTransfer params mapInfo)
    (hcross : CrossesPage params mapInfo pageOff) : plannedCount params mapInfo <
      ((pageOff + params.mapOffset.toNat) % pageSize + params.bytesTotal.toNat + 4095) / pageSize := by
  rw [plannedCount_spans hreq.flexible hmap.sized, ← pages_transfer hmap hreq]
  obtain ⟨s, hs, hout⟩ := hcross
  refine List.sum_lt_sum _ _ (fun t _ => ?_) ⟨s, hs, plannedFor_lt hout⟩
  by_cases hin : Within pageSize (pageOff + t.1) (t.2 - t.1)
  · exact (plannedFor_eq hin).le
  · exact (plannedFor_lt hin).le

theorem plannedCount_eq (hmap : PageLocked mapInfo pageOff) (hreq : FlexibleTransfer params mapInfo)
    (hcross : ¬CrossesPage params mapInfo pageOff) : plannedCount params mapInfo =
      ((pageOff + params.mapOffset.toNat) % pageSize + params.bytesTotal.toNat + 4095) / pageSize := by
  rw [plannedCount_spans hreq.flexible hmap.sized, ← pages_transfer hmap hreq]
  refine congrArg List.sum (List.map_congr_left fun s hs => plannedFor_eq ?_)
  by_contra hout
  exact hcross ⟨s, hs, hout⟩

theorem tpceMaxDescriptorsNeeded_flexible (hflex : params.bytesPerDescriptor = 0) :
    (tpceMaxDescriptorsNeeded params).toNat = (params.bytesTotal.toNat + 4095) / pageSize +
      if params.transferMode = tpceDmaModeDefault then 1 else 0 := by
  have hlt := params.bytesTotal.isLt
  have hzero : ¬params.bytesPerDescriptor > 0 := by rw [hflex]; decide
  simp only [tpceMaxDescriptorsNeeded, if_neg hzero, pageSize]
  split
  · rw [BitVec.toNat_add, BitVec.toNat_ofNat]
    show ((params.bytesTotal.toNat + 4096 - 1) / 4096 % 2 ^ 32 + 1) % 2 ^ 32 = _
    omega
  · rw [BitVec.toNat_ofNat]
    omega

theorem countBounded_iff_le {chInfo : TpceDmaChannelInfo} (hch : channelInfo params.channel = .ok chInfo)
    (hflex : params.bytesPerDescriptor = 0) (hidx : tpceDmaMapNumRanges mapInfo ≤ mapInfo.sgt.sgl.slots.length) :
    CountBounded params mapInfo ↔ plannedCount params mapInfo ≤ (tpceMaxDescriptorsNeeded params).toNat := by
  obtain ⟨plan, hplan⟩ := createDescriptorPlan_exists hch hidx
  have hnum := (createDescriptorPlan_cases hplan).1
  constructor
  · rintro ⟨plan', hplan', hle, -⟩
    obtain rfl := Except.ok.inj (hplan.symm.trans hplan')
    rwa [hnum] at hle
  · intro hle
    refine ⟨plan, hplan, hnum ▸ hle, fun ds out h => ?_⟩
    have hmax := tpceMaxDescriptorsNeeded_flexible hflex
    have hlt := params.bytesTotal.isLt
    obtain ⟨plan', hplan', h⟩ := bind_eq_ok.mp h
    obtain rfl := Except.ok.inj (hplan.symm.trans hplan')
    have hroom : ¬plan.numDescriptors > tpceMaxDescriptorsNeeded params :=
      BitVec.not_lt.mpr (BitVec.le_def.mpr (hnum ▸ hle))
    rw [if_neg hroom] at h
    split at h
    · cases h
    · obtain ⟨_, -, h⟩ := bind_eq_ok.mp h
      obtain ⟨_, -, h⟩ := bind_eq_ok.mp h
      obtain ⟨_, -, h⟩ := bind_eq_ok.mp h
      have hret : plan.numDescriptors.toInt = -tpceErrDescBuf := congrArg Prod.fst (Except.ok.inj h)
      have hsmall : (tpceMaxDescriptorsNeeded params).toNat ≤ 2 ^ 20 + 1 := by
        rw [hmax]
        simp only [pageSize]
        split
        · omega
        · omega
      have herr : -tpceErrDescBuf = -3 := rfl
      rw [BitVec.toInt_eq_toNat_cond, if_pos (by omega)] at hret
      omega

/-- The bound holds except in stream mode where each stretch of the transfer is in one
page and they are in more pages than the bytes need. -/
theorem count_bounded_iff (hmap : PageLocked mapInfo pageOff) (hreq : FlexibleTransfer params mapInfo) :
    CountBounded params mapInfo ↔ params.transferMode = tpceDmaModeDefault ∨ CrossesPage params mapInfo pageOff ∨
      ((pageOff + params.mapOffset.toNat) % pageSize + params.bytesTotal.toNat + 4095) / pageSize ≤
        (params.bytesTotal.toNat + 4095) / pageSize := by
  obtain ⟨chInfo, hvalid⟩ := validated_of_zero hreq.accepted
  rw [countBounded_iff_le hvalid.channel hreq.flexible hmap.sized.indexed,
    tpceMaxDescriptorsNeeded_flexible hreq.flexible]
  have hmore : ((pageOff + params.mapOffset.toNat) % pageSize + params.bytesTotal.toNat + 4095) / pageSize ≤
      (params.bytesTotal.toNat + 4095) / pageSize + 1 := by
    simp only [pageSize]
    omega
  by_cases hcross : CrossesPage params mapInfo pageOff
  · have hlt := plannedCount_lt hmap hreq hcross
    exact iff_of_true (by omega) (.inr (.inl hcross))
  · rw [plannedCount_eq hmap hreq hcross, or_iff_right hcross]
    by_cases hmode : params.transferMode = tpceDmaModeDefault
    · rw [if_pos hmode]
      exact iff_of_true hmore (.inl hmode)
    · rw [if_neg hmode, or_iff_right hmode]
      exact Iff.rfl

/-- The first page of a buffer that starts in the middle of one -/
def acrossPages (mode : U8) : TpceDmaTransferParams where
  mapOffset := 0
  deviceAddr := 0
  bytesTotal := 4096
  bytesPerDescriptor := 0
  readStride := 0
  writeStride := 0
  channel := 0
  transferMode := mode
  direction := tpceDmaFromDevice
  interruptInterval := 0
  burstCount := 0

def halfPages : TpceDmaMapInfo := userMapping [⟨0x100000, 2048, 2048⟩, ⟨0x200000, 2048, 0⟩] 4096 tpceDmaFromDevice

theorem pageLocked_halfPages : PageLocked halfPages 2048 where
  offset := by decide
  sized := ⟨by decide, by decide⟩
  boundaries := by
    intro pre size post heq hne
    have hsizes : (ranges halfPages).map rangeBytes = [2048, 2048] := by decide
    rw [hsizes] at heq
    rcases pre with _ | ⟨a, _ | ⟨b, pre⟩⟩
    · obtain ⟨rfl, -⟩ := List.cons.inj heq
      decide
    · obtain ⟨-, heq⟩ := List.cons.inj heq
      obtain ⟨-, rfl⟩ := List.cons.inj heq
      exact absurd rfl hne
    · simp at heq

theorem flexible_acrossPages {mode : U8} (h : tpceValidateDmaParams (acrossPages mode) halfPages = .ok 0) :
    FlexibleTransfer (acrossPages mode) halfPages where
  accepted := h
  flexible := rfl
  positive := Nat.succ_pos _
  inside := le_refl 4096

theorem default_count_bounded : CountBounded (acrossPages tpceDmaModeDefault) halfPages ↔
    (acrossPages tpceDmaModeDefault).transferMode = tpceDmaModeDefault ∨
      CrossesPage (acrossPages tpceDmaModeDefault) halfPages 2048 ∨
      ((2048 + (acrossPages tpceDmaModeDefault).mapOffset.toNat) % pageSize +
        (acrossPages tpceDmaModeDefault).bytesTotal.toNat + 4095) / pageSize ≤
          ((acrossPages tpceDmaModeDefault).bytesTotal.toNat + 4095) / pageSize :=
  count_bounded_iff pageLocked_halfPages (flexible_acrossPages (by decide))

/-- A stream of 4096 bytes over two pages has room for one descriptor. -/
theorem stream_count_exceeded : PageLocked halfPages 2048 ∧
    FlexibleTransfer (acrossPages tpceDmaModeStream) halfPages ∧
    ¬CountBounded (acrossPages tpceDmaModeStream) halfPages := by
  refine ⟨pageLocked_halfPages, flexible_acrossPages (by decide), ?_⟩
  rintro ⟨plan, -, -, hroom⟩
  exact hroom [] [] (by decide)

end TpceDrv.CountBound
