import TpceDrv.FixedGeneration

namespace TpceDrv.FilledParams

open Descriptor Mapping DmaParams Reach Planning MappedRanges FixedGeneration

/-- What a call returns, the structure behind `params` after it, and whether its
`TPCE_ASSERT` has warned -/
structure Filled where
  status : Int
  params : Option TpceDmaTransferParams
  warned : Bool
  deriving DecidableEq, Repr

/-- The parameters that a call writes for a channel -/
def filledParams (bytesPerDescriptor : U32) (transferMode interruptInterval : U8) (mapInfo : TpceDmaMapInfo)
    (channel : U8) (chInfo : TpceDmaChannelInfo) : TpceDmaTransferParams where
  mapOffset := 0
  deviceAddr := 0
  bytesTotal := mapInfo.size
  bytesPerDescriptor := bytesPerDescriptor
  readStride := if chInfo.maxStride ≠ 0 then 1 else 0
  writeStride := if chInfo.maxStride ≠ 0 then 1 else 0
  channel := channel
  transferMode := transferMode
  direction := tpceDmaFromDevice
  interruptInterval := interruptInterval
  burstCount := chInfo.maxBurst

/-- What the two functions do with the values in which they differ. A null
pointer is `none`. -/
def fillDmaParams (bytesPerDescriptor : U32) (transferMode interruptInterval : U8) (mapInfo : Option TpceDmaMapInfo)
    (channel : U8) (params : Option TpceDmaTransferParams) : Except Fault Filled :=
  match mapInfo, params with
  | some mapInfo, some _ =>
      if !validChannel channel then pure ⟨-tpceErrInvalidChn, params, false⟩
      else do
        let chInfo ← channelInfo channel
        let params := filledParams bytesPerDescriptor transferMode interruptInterval mapInfo channel chInfo
        let res ← tpceValidateDmaParams params mapInfo
        pure ⟨0, some params, res ≠ 0⟩
  | _, _ => pure ⟨-tpceErrNullPtr, params, false⟩

/-- The mode is the zero of the `memset`. -/
def tpceFillDefaultDmaParams : Option TpceDmaMapInfo → U8 → Option TpceDmaTransferParams → Except Fault Filled :=
  fillDmaParams 0 0 0

def tpceFillStreamingDmaParams : Option TpceDmaMapInfo → U8 → Option TpceDmaTransferParams → Except Fault Filled :=
  fillDmaParams 1024 tpceDmaModeStream 4

/-- What a call that returns 0 has filled in passes the validator. -/
def FillsValid (fill : Option TpceDmaMapInfo → U8 → Option TpceDmaTransferParams → Except Fault Filled)
    (mapInfo : TpceDmaMapInfo) (channel : U8) : Prop :=
  ∀ params out, fill (some mapInfo) channel params = .ok out → out.status = 0 →
    ∃ filled, out.params = some filled ∧ tpceValidateDmaParams filled mapInfo = .ok 0

/-- The mappings that the parameters are meant for -/
structure Receives (mapInfo : TpceDmaMapInfo) : Prop where
  ranged : Ranged mapInfo
  size : 64 ∣ mapInfo.size.toNat
  direction : mapInfo.direction = tpceDmaBidirectional ∨ mapInfo.direction = tpceDmaFromDevice

variable {mapInfo : TpceDmaMapInfo} {channel : U8} {chInfo : TpceDmaChannelInfo} {bytesPerDescriptor : U32}
  {transferMode interruptInterval : U8} {params : Option TpceDmaTransferParams} {out : Filled}

theorem info_of_validChannel (h : validChannel channel = true) : ∃ chInfo, channelInfo channel = .ok chInfo :=
  channelInfo_exists (of_decide_eq_true h)

/-- A call that returns 0 has written the parameters of its channel, and its
assertion warns exactly when they do not pass. -/
theorem filled_of_status
    (h : fillDmaParams bytesPerDescriptor transferMode interruptInterval (some mapInfo) channel params = .ok out)
    (hstatus : out.status = 0) : ∃ chInfo res, channelInfo channel = .ok chInfo ∧
      out.params = some (filledParams bytesPerDescriptor transferMode interruptInterval mapInfo channel chInfo) ∧
      tpceValidateDmaParams (filledParams bytesPerDescriptor transferMode interruptInterval mapInfo channel chInfo)
        mapInfo = .ok res ∧ (out.warned = true ↔ res ≠ 0) := by
  cases params with
  | none =>
      cases h
      exact absurd hstatus (show -tpceErrNullPtr ≠ 0 by decide)
  | some before =>
      rw [fillDmaParams] at h
      split at h
      · cases h
        exact absurd hstatus (show -tpceErrInvalidChn ≠ 0 by decide)
      · obtain ⟨chInfo, hch, h⟩ := bind_eq_ok.mp h
        obtain ⟨res, hres, h⟩ := bind_eq_ok.mp h
        cases h
        exact ⟨chInfo, res, hch, rfl, hres, decide_eq_true_iff⟩

theorem fill_of_info (hch : channelInfo channel = .ok chInfo) {res : ℤ}
    (hres : tpceValidateDmaParams
      (filledParams bytesPerDescriptor transferMode interruptInterval mapInfo channel chInfo) mapInfo = .ok res)
    (before : TpceDmaTransferParams) :
    fillDmaParams bytesPerDescriptor transferMode interruptInterval (some mapInfo) channel (some before) =
      .ok ⟨0, some (filledParams bytesPerDescriptor transferMode interruptInterval mapInfo channel chInfo),
        res ≠ 0⟩ := by
  rw [fillDmaParams, validChannel_of_info hch]
  exact bind_eq_ok.mpr ⟨chInfo, hch, bind_eq_ok.mpr ⟨res, hres, rfl⟩⟩

theorem validate_filled (hmap : Receives mapInfo) (hch : channelInfo channel = .ok chInfo)
    (bytesPerDescriptor : U32) (transferMode interruptInterval : U8) :
    ∃ res, tpceValidateDmaParams
      (filledParams bytesPerDescriptor transferMode interruptInterval mapInfo channel chInfo) mapInfo = .ok res := by
  generalize hfilled : filledParams bytesPerDescriptor transferMode interruptInterval mapInfo channel chInfo = filled
  have hinfo : channelInfo filled.channel = .ok chInfo := hfilled ▸ hch
  obtain ⟨g, hg⟩ := gcdDmaPageSizes_exists hmap.ranged.indexed
  obtain ⟨bad, hbad⟩ : ∃ bad, bytesPerDescriptorBad filled mapInfo chInfo = .ok bad := by
    rw [bytesPerDescriptorBad, hg]
    split
    · exact ⟨_, rfl⟩
    · exact ⟨_, rfl⟩
  obtain ⟨res, hres, -⟩ := validate_of_info hinfo hbad
  exact ⟨_, hres⟩

/-- The calls fill in what passes exactly when it passes for the channel's own
entry in the table. -/
theorem fillsValid_iff (hmap : Receives mapInfo) :
    FillsValid (fillDmaParams bytesPerDescriptor transferMode interruptInterval) mapInfo channel ↔
      ∀ chInfo, channelInfo channel = .ok chInfo → tpceValidateDmaParams
        (filledParams bytesPerDescriptor transferMode interruptInterval mapInfo channel chInfo) mapInfo = .ok 0 := by
  constructor
  · intro hfills chInfo hch
    obtain ⟨res, hres⟩ := validate_filled hmap hch bytesPerDescriptor transferMode interruptInterval
    obtain ⟨filled, hfilled, hvalid⟩ := hfills _ _ (fill_of_info hch hres
      (filledParams bytesPerDescriptor transferMode interruptInterval mapInfo channel chInfo)) rfl
    rwa [Option.some.inj hfilled]
  · intro hvalid params out hfill hstatus
    obtain ⟨chInfo, -, hch, hfilled, -, -⟩ := filled_of_status hfill hstatus
    exact ⟨_, hfilled, hvalid chInfo hch⟩

/-- A stride of 1 where the channel has strides, and of 0 where it has none -/
theorem filled_stride_le (maxStride : U32) : (if maxStride ≠ 0 then 1#16 else 0#16).toNat ≤ maxStride.toNat := by
  split
  · exact BitVec.lt_def.mp (ne_zero_iff_pos.mp ‹_›)
  · exact Nat.zero_le _

theorem Receives.validDirection (hmap : Receives mapInfo) : validDirection tpceDmaFromDevice mapInfo = true := by
  rw [DmaParams.validDirection, Bool.and_eq_true, Bool.or_eq_true, Bool.or_eq_true]
  exact ⟨.inl rfl, hmap.direction.imp decide_eq_true decide_eq_true⟩

/-- Of the checks, only those of `bytes_per_descriptor`, of the mode and of the interval depend
on the values in which the two functions differ. -/
theorem filled_valid_iff (hmap : Receives mapInfo) (hch : channelInfo channel = .ok chInfo)
    (hmode : transferMode = tpceDmaModeDefault ∨ transferMode = tpceDmaModeStream) :
    tpceValidateDmaParams
        (filledParams bytesPerDescriptor transferMode interruptInterval mapInfo channel chInfo) mapInfo = .ok 0 ↔
      bytesPerDescriptorBad
          (filledParams bytesPerDescriptor transferMode interruptInterval mapInfo channel chInfo) mapInfo chInfo =
        .ok false ∧
      (interruptInterval > 0 →
        checkedDescriptors
          (filledParams bytesPerDescriptor transferMode interruptInterval mapInfo channel chInfo) mapInfo %
            interruptInterval.setWidth 32 = 0) := by
  rw [validate_eq_zero_iff]
  constructor
  · rintro ⟨chInfo', hv, hinterval⟩
    obtain rfl := Except.ok.inj (hch.symm.trans hv.channel)
    exact ⟨hv.bpd, hinterval⟩
  · rintro ⟨hbpd, hinterval⟩
    refine ⟨chInfo, ⟨hch, ?_, BitVec.zero_umod, BitVec.zero_umod, ?_, ?_, hbpd, ?_, hmode, ?_, ?_⟩, hinterval⟩
    · exact BitVec.le_def.mpr (Nat.zero_le _)
    · exact umod_eq_zero_iff.mpr ((channelInfo_dataWidth_dvd hch).trans hmap.size)
    · exact (BitVec.add_zero mapInfo.size).symm ▸ BitVec.le_refl _
    · exact max_le (filled_stride_le chInfo.maxStride) (filled_stride_le chInfo.maxStride)
    · exact hmap.validDirection
    · exact BitVec.le_refl _

theorem default_fills_valid (hmap : Receives mapInfo) (channel : U8) :
    FillsValid tpceFillDefaultDmaParams mapInfo channel := by
  refine (fillsValid_iff hmap).mpr fun chInfo hch => ?_
  refine (filled_valid_iff hmap hch (.inl rfl)).mpr ⟨rfl, fun hpos => ?_⟩
  exact absurd hpos (show ¬ 0#8 > 0#8 by decide)

/-- Four descriptors of 1024 bytes an interrupt -/
theorem streaming_interval_iff {size : ℕ} (h : 1024 ∣ size) : size / 1024 % 4 = 0 ↔ 4096 ∣ size := by
  rw [← Nat.dvd_iff_mod_eq_zero, Nat.dvd_div_iff_mul_dvd h]

theorem streaming_valid_iff (hmap : Receives mapInfo) (hch : channelInfo channel = .ok chInfo) :
    tpceValidateDmaParams (filledParams 1024 tpceDmaModeStream 4 mapInfo channel chInfo) mapInfo = .ok 0 ↔
      (∀ sg ∈ ranges mapInfo, 1024 ∣ rangeBytes sg) ∧ 4096 ∣ mapInfo.size.toNat := by
  have hwidth : 1024#32 % chInfo.dataWidth = 0 :=
    umod_eq_zero_iff.mpr ((channelInfo_dataWidth_dvd hch).trans (by decide))
  have hlength : 1024#32 ≤ chInfo.maxTransfer := by
    rw [channelInfo_maxTransfer hch]
    decide
  rw [filled_valid_iff hmap hch (.inr rfl),
    bytesPerDescriptorBad_eq_false_iff hmap.ranged (show 0 < (1024#32).toNat by decide)]
  change (1024#32 % chInfo.dataWidth = 0 ∧ 1024#32 ≤ chInfo.maxTransfer ∧
    ∀ sg ∈ ranges mapInfo, 1024 ∣ rangeBytes sg) ∧ (4#8 > 0#8 → mapInfo.size / 1024#32 % 4#32 = 0) ↔ _
  rw [and_iff_right hwidth, and_iff_right hlength, forall_prop_of_true (show 4#8 > 0#8 by decide)]
  refine and_congr_right fun hranges => ?_
  have hsize : 1024 ∣ mapInfo.size.toNat := hmap.ranged.total ▸ dvd_sum_rangeBytes hranges
  rw [umod_eq_zero_iff, BitVec.toNat_udiv, ← streaming_interval_iff hsize, Nat.dvd_iff_mod_eq_zero]
  rfl

/-- The default parameters always pass. Those of a stream pass for the mappings whose
ranges are cut into whole descriptors, with a multiple of four of them. -/
theorem fills_valid_iff (hmap : Receives mapInfo) (channel : U8) :
    FillsValid tpceFillDefaultDmaParams mapInfo channel ∧ FillsValid tpceFillStreamingDmaParams mapInfo channel ↔
      (validChannel channel = true →
        (∀ sg ∈ ranges mapInfo, 1024 ∣ rangeBytes sg) ∧ 4096 ∣ mapInfo.size.toNat) := by
  rw [and_iff_right (default_fills_valid hmap channel), tpceFillStreamingDmaParams, fillsValid_iff hmap]
  constructor
  · intro hvalid hchannel
    obtain ⟨chInfo, hch⟩ := info_of_validChannel hchannel
    exact (streaming_valid_iff hmap hch).mp (hvalid chInfo hch)
  · intro heven chInfo hch
    exact (streaming_valid_iff hmap hch).mpr (heven (validChannel_of_info hch))

/-- A buffer of a whole page -/
def onePage : TpceDmaMapInfo := userMapping [⟨0x100000, 4096, 0⟩] 4096 tpceDmaFromDevice

/-- A buffer of 64 bytes -/
def oneLine : TpceDmaMapInfo := userMapping [⟨0x100000, 64, 0⟩] 64 tpceDmaFromDevice

theorem receives_onePage : Receives onePage where
  ranged := ⟨by decide, by decide, by decide, by decide⟩
  size := by decide
  direction := .inr rfl

theorem receives_oneLine : Receives oneLine where
  ranged := ⟨by decide, by decide, by decide, by decide⟩
  size := by decide
  direction := .inr rfl

theorem onePage_fills_valid : FillsValid tpceFillDefaultDmaParams onePage 0 ∧
    FillsValid tpceFillStreamingDmaParams onePage 0 :=
  (fills_valid_iff receives_onePage 0).mpr fun _ => ⟨by decide, by decide⟩

/-- The parameters that a stream into 64 bytes is filled with -/
def streamIntoLine : TpceDmaTransferParams where
  mapOffset := 0
  deviceAddr := 0
  bytesTotal := 64
  bytesPerDescriptor := 1024
  readStride := 0
  writeStride := 0
  channel := 0
  transferMode := tpceDmaModeStream
  direction := tpceDmaFromDevice
  interruptInterval := 4
  burstCount := 32

theorem oneLine_fills_invalid : Receives oneLine ∧
    tpceFillStreamingDmaParams (some oneLine) 0 (some streamIntoLine) = .ok ⟨0, some streamIntoLine, true⟩ ∧
    tpceValidateDmaParams streamIntoLine oneLine = .ok 8 ∧
    ¬(FillsValid tpceFillDefaultDmaParams oneLine 0 ∧ FillsValid tpceFillStreamingDmaParams oneLine 0) := by
  have hres : tpceValidateDmaParams streamIntoLine oneLine = .ok 8 := rfl
  have hfill : tpceFillStreamingDmaParams (some oneLine) 0 (some streamIntoLine) =
      .ok ⟨0, some streamIntoLine, true⟩ := rfl
  refine ⟨receives_oneLine, hfill, hres, fun hvalid => ?_⟩
  obtain ⟨filled, hfilled, hzero⟩ := hvalid.2 _ _ hfill rfl
  rw [← Option.some.inj hfilled, hres] at hzero
  exact absurd (Except.ok.inj hzero) (by decide)

end TpceDrv.FilledParams
