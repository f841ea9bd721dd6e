import TpceDrv.MappedRanges

namespace TpceDrv.ValidatedRange

open Descriptor Mapping DmaParams Generation Planning MappedRanges

/-- The transfer lies in the mapping. On ranges that add up to the mapping, the
plan starts in one of them, and from there on they hold the transfer. -/
structure KeepsInside (params : TpceDmaTransferParams) (mapInfo : TpceDmaMapInfo) : Prop where
  inside : params.mapOffset.toNat + params.bytesTotal.toNat ≤ mapInfo.size.toNat
  planned : Sized mapInfo → 0 < params.bytesTotal.toNat →
    ∃ plan sg rest, createDescriptorPlan mapInfo params = .ok plan ∧
      (ranges mapInfo).drop plan.startingIdx = sg :: rest ∧ plan.startingOffset.toNat < rangeBytes sg ∧
      params.bytesTotal.toNat ≤ rangeBytes sg - plan.startingOffset.toNat + (rest.map rangeBytes).sum

variable {params : TpceDmaTransferParams} {mapInfo : TpceDmaMapInfo}

theorem planned_inside {chInfo : TpceDmaChannelInfo} (hmap : Sized mapInfo)
    (hch : channelInfo params.channel = .ok chInfo) (hpos : 0 < params.bytesTotal.toNat)
    (hfit : params.mapOffset.toNat + params.bytesTotal.toNat ≤ mapInfo.size.toNat) :
    ∃ plan sg rest, createDescriptorPlan mapInfo params = .ok plan ∧
      (ranges mapInfo).drop plan.startingIdx = sg :: rest ∧ plan.startingOffset.toNat < rangeBytes sg ∧
      params.bytesTotal.toNat ≤ rangeBytes sg - plan.startingOffset.toNat + (rest.map rangeBytes).sum := by
  obtain ⟨plan, hplan⟩ := createDescriptorPlan_exists hch hmap.indexed
  have hstart := createDescriptorPlan_start hplan (hmap.nonempty (by omega))
  obtain ⟨k, rem, hskip, -, hsum, hlt⟩ := skipOffset_ranges hmap.indexed params.mapOffset
  have heq := Except.ok.inj (hskip.symm.trans hstart)
  obtain ⟨rfl, rfl⟩ := Prod.mk.inj heq
  have hsplit := hmap.sum_drop plan.startingIdx
  cases hdrop : (ranges mapInfo).drop plan.startingIdx with
  | nil =>
      rw [hdrop] at hsplit
      simp only [List.map_nil, List.sum_nil] at hsplit
      omega
  | cons sg rest =>
      have hin := hlt sg rest hdrop
      rw [hdrop, List.map_cons, List.sum_cons] at hsplit
      exact ⟨plan, sg, rest, hplan, hdrop, hin, by omega⟩

/-- The check keeps a transfer inside exactly when its 32-bit sum does not wrap
around. -/
theorem validated_inside_iff (hvalid : tpceValidateDmaParams params mapInfo = .ok 0) :
    KeepsInside params mapInfo ↔ params.mapOffset.toNat + params.bytesTotal.toNat < 2 ^ 32 := by
  obtain ⟨chInfo, hv⟩ := validated_of_zero hvalid
  constructor
  · intro hin
    exact Nat.lt_of_le_of_lt hin.inside mapInfo.size.isLt
  · intro hlt
    have hfits := BitVec.le_def.mp hv.fits
    rw [BitVec.toNat_add, Nat.mod_eq_of_lt (by omega)] at hfits
    have hinside : params.mapOffset.toNat + params.bytesTotal.toNat ≤ mapInfo.size.toNat := by omega
    exact ⟨hinside, fun hmap hpos => planned_inside hmap hv.channel hpos hinside⟩

def transferFrom (offset total : U32) : TpceDmaTransferParams where
  mapOffset := offset
  deviceAddr := 0
  bytesTotal := total
  bytesPerDescriptor := 0
  readStride := 0
  writeStride := 0
  channel := 0
  transferMode := tpceDmaModeDefault
  direction := tpceDmaFromDevice
  interruptInterval := 0
  burstCount := 0

def twoPages : TpceDmaMapInfo := userMapping [⟨0x100000, 8192, 0⟩] 8192 tpceDmaFromDevice

theorem second_page_inside : tpceValidateDmaParams (transferFrom 4096 4096) twoPages = .ok 0 ∧
    (KeepsInside (transferFrom 4096 4096) twoPages ↔
      (transferFrom 4096 4096).mapOffset.toNat + (transferFrom 4096 4096).bytesTotal.toNat < 2 ^ 32) :=
  ⟨by decide, validated_inside_iff (by decide)⟩

/-- Almost 4 GiB from the second page on are accepted. -/
theorem wrapping_total_accepted : tpceValidateDmaParams (transferFrom 4096 0xfffff000) twoPages = .ok 0 ∧
    ¬KeepsInside (transferFrom 4096 0xfffff000) twoPages := by
  refine ⟨by decide, fun hin => ?_⟩
  have hle := hin.inside
  exact absurd hle (by decide)

end TpceDrv.ValidatedRange
