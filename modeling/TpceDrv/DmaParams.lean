import TpceDrv.Descriptor
import TpceDrv.Mapping

namespace TpceDrv.DmaParams

open Descriptor Mapping

structure TpceDmaTransferParams where
  mapOffset : U32
  deviceAddr : U32
  bytesTotal : U32
  bytesPerDescriptor : U32
  readStride : U16
  writeStride : U16
  channel : U8
  transferMode : U8
  direction : U8
  interruptInterval : U8
  burstCount : U8
  deriving DecidableEq, Repr

def pageSize : Nat := 4096

/-- Euclid's algorithm -/
def gcd (a b : U32) : U32 :=
  if _h : b > 0 then gcd b (a % b) else a
termination_by b.toNat
decreasing_by
  have hb : 0 < b.toNat := by simpa using BitVec.lt_def.mp _h
  simpa using Nat.mod_lt a.toNat hb

/-- The loop of `gcd_dma_page_sizes` over the ranges from index `i` on, which
skips a size equal to its predecessor. -/
def gcdSizes : Nat → Nat → List Scatterlist → U32 → U32 → Except Fault U32
  | 0, _, _, res, _ => .ok res
  | _ + 1, i, [], _, _ => .error (.rangeIndex i)
  | n + 1, i, sg :: rest, res, prev =>
      let curr := tpceDmaMapRangeSize sg
      if prev = curr then gcdSizes n (i + 1) rest res prev
      else gcdSizes n (i + 1) rest (gcd res curr) curr

def gcdDmaPageSizes (mapInfo : TpceDmaMapInfo) : Except Fault U32 :=
  match tpceDmaMapNumRanges mapInfo, mapInfo.sgt.sgl.slots with
  | 0, _ => .ok 0
  | _ + 1, [] => .error (.rangeIndex 0)
  | n + 1, sg :: rest => gcdSizes n 1 rest (tpceDmaMapRangeSize sg) (tpceDmaMapRangeSize sg)

def validDirection (dmaDirection : U8) (mapInfo : TpceDmaMapInfo) : Bool :=
  (dmaDirection = tpceDmaFromDevice || dmaDirection = tpceDmaToDevice) &&
    (mapInfo.direction = tpceDmaBidirectional || mapInfo.direction = dmaDirection)

def validChannel (ch : U8) : Bool := ch.toNat < tpceDmaNumChannels

/-- `TPCE_DIV_ROUND_UP` on 32-bit operands -/
def divRoundUp (n d : U32) : U32 := (n + d - 1) / d

/-- Here `PAGE_SIZE` is a 64-bit constant, so that the rounding does not
wrap. -/
def tpceMaxDescriptorsNeeded (params : TpceDmaTransferParams) : U32 :=
  let ndesc : U32 :=
    if params.bytesPerDescriptor > 0 then params.bytesTotal / params.bytesPerDescriptor
    else BitVec.ofNat 32 ((params.bytesTotal.toNat + pageSize - 1) / pageSize)
  if params.transferMode = tpceDmaModeDefault then ndesc + 1 else ndesc

/-- `if (bad) res |= 1 << bit` -/
def paramFlag (bad : Bool) (bit : Fin 32) : U32 := if bad then 1#32 <<< bit.val else 0

def bytesPerDescriptorBad (params : TpceDmaTransferParams) (mapInfo : TpceDmaMapInfo)
    (ch : TpceDmaChannelInfo) : Except Fault Bool :=
  if params.bytesPerDescriptor > 0 then do
    let gcd ← gcdDmaPageSizes mapInfo
    pure (params.bytesPerDescriptor % ch.dataWidth ≠ 0 ||
      params.bytesPerDescriptor > ch.maxTransfer || gcd % params.bytesPerDescriptor ≠ 0)
  else pure false

/-- Zero, a positive bit set of the offending parameters, or a negative
error. -/
def tpceValidateDmaParams (params : TpceDmaTransferParams) (mapInfo : TpceDmaMapInfo) :
    Except Fault Int :=
  if !validChannel params.channel then pure (-tpceErrInvalidChn) else do
    let ch ← channelInfo params.channel
    let bpdBad ← bytesPerDescriptorBad params mapInfo ch
    let numDescriptors : U32 :=
      if params.bytesPerDescriptor ≠ 0 then params.bytesTotal / params.bytesPerDescriptor
      else BitVec.ofNat 32 (tpceDmaMapNumRanges mapInfo)
    let res :=
      paramFlag (params.mapOffset > mapInfo.size || params.mapOffset % ch.dataWidth ≠ 0) 0 |||
      paramFlag (params.deviceAddr % ch.dataWidth ≠ 0) 1 |||
      paramFlag (params.bytesTotal % ch.dataWidth ≠ 0 ||
        params.bytesTotal + params.mapOffset > mapInfo.size) 2 |||
      paramFlag bpdBad 3 |||
      paramFlag (max params.readStride.toNat params.writeStride.toNat > ch.maxStride.toNat) 4 |||
      paramFlag (params.transferMode ≠ tpceDmaModeDefault &&
        params.transferMode ≠ tpceDmaModeStream) 5 |||
      paramFlag (!validDirection params.direction mapInfo) 6 |||
      paramFlag (params.interruptInterval > 0 &&
        numDescriptors % params.interruptInterval.setWidth 32 ≠ 0) 7 |||
      paramFlag (params.burstCount > ch.maxBurst) 8
    pure res.toNat

theorem gcd_toNat (a b : U32) : (gcd a b).toNat = Nat.gcd a.toNat b.toNat := by
  induction a, b using gcd.induct with
  | case1 a b h ih =>
      have hb : 0 < b.toNat := by simpa using BitVec.lt_def.mp h
      rw [gcd, dif_pos h, ih, BitVec.toNat_umod, Nat.gcd_comm a.toNat, Nat.gcd_rec b.toNat a.toNat,
        Nat.gcd_comm]
  | case2 a b h =>
      have hb : b.toNat = 0 := by
        have := mt BitVec.lt_def.mpr h
        simpa using this
      rw [gcd, dif_neg h, hb, Nat.gcd_zero_right]

theorem paramFlag_eq_zero {bad : Bool} {bit : Fin 32} : paramFlag bad bit = 0#32 ↔ bad = false := by
  cases bad with
  | false => simp [paramFlag]
  | true =>
      simp only [paramFlag, if_true, reduceCtorEq, iff_false]
      intro h
      have := congrArg (BitVec.getLsbD · bit) h
      simp [← BitVec.twoPow_eq] at this

theorem umod_eq_zero_iff {n w : U32} : n % w = 0 ↔ w.toNat ∣ n.toNat := by
  rw [← BitVec.toNat_inj, BitVec.toNat_umod]
  exact Nat.dvd_iff_mod_eq_zero.symm

/-- What the validator has checked when it returns 0. -/
structure Validated (params : TpceDmaTransferParams) (mapInfo : TpceDmaMapInfo)
    (ch : TpceDmaChannelInfo) : Prop where
  channel : channelInfo params.channel = .ok ch
  offset : params.mapOffset ≤ mapInfo.size
  offsetAligned : params.mapOffset % ch.dataWidth = 0
  deviceAligned : params.deviceAddr % ch.dataWidth = 0
  totalAligned : params.bytesTotal % ch.dataWidth = 0
  fits : params.bytesTotal + params.mapOffset ≤ mapInfo.size
  bpd : bytesPerDescriptorBad params mapInfo ch = .ok false
  strides : max params.readStride.toNat params.writeStride.toNat ≤ ch.maxStride.toNat
  mode : params.transferMode = tpceDmaModeDefault ∨ params.transferMode = tpceDmaModeStream
  direction : validDirection params.direction mapInfo = true
  burst : params.burstCount ≤ ch.maxBurst

/-- The number that the validator divides by the interrupt interval -/
def checkedDescriptors (params : TpceDmaTransferParams) (mapInfo : TpceDmaMapInfo) : U32 :=
  if params.bytesPerDescriptor = 0 then BitVec.ofNat 32 (tpceDmaMapNumRanges mapInfo)
  else params.bytesTotal / params.bytesPerDescriptor

theorem validChannel_of_info {channel : U8} {ch : TpceDmaChannelInfo} (h : channelInfo channel = .ok ch) :
    validChannel channel = true := by
  simp only [channelInfo] at h
  split at h
  · exact decide_eq_true (List.getElem?_eq_some_iff.mp ‹_›).1
  · cases h

/-- With its reads of the two tables done, the validator returns a bit set, which is
empty exactly for the parameters that pass all of its checks. -/
theorem validate_of_info {params : TpceDmaTransferParams} {mapInfo : TpceDmaMapInfo} {ch : TpceDmaChannelInfo}
    {bad : Bool} (hch : channelInfo params.channel = .ok ch)
    (hbpd : bytesPerDescriptorBad params mapInfo ch = .ok bad) :
    ∃ res : U32, tpceValidateDmaParams params mapInfo = .ok res.toNat ∧
      (res = 0 ↔ Validated params mapInfo ch ∧ (params.interruptInterval > 0 →
        checkedDescriptors params mapInfo % params.interruptInterval.setWidth 32 = 0)) := by
  refine ⟨?res, ?eq, ?iff⟩
  case eq =>
      simp only [tpceValidateDmaParams, validChannel_of_info hch, hch, hbpd, bind, Except.bind, Bool.not_true,
        Bool.false_eq_true, if_false]
      rfl
  change _ = 0#32 ↔ _
  simp only [BitVec.or_eq_zero_iff, paramFlag_eq_zero, Bool.or_eq_false_iff, Bool.and_eq_false_iff,
    decide_eq_false_iff_not, Bool.not_eq_false', ne_eq, Decidable.not_not, ite_not]
  constructor
  · rintro ⟨⟨⟨⟨⟨⟨⟨⟨⟨h0, h0'⟩, h1⟩, h2, h2'⟩, h3⟩, h4⟩, h5⟩, h6⟩, h7⟩, h8⟩
    subst h3
    exact ⟨⟨hch, BitVec.not_lt.mp h0, h0', h1, h2, BitVec.not_lt.mp h2', hbpd,
      Nat.not_lt.mp h4, h5, h6, BitVec.not_lt.mp h8⟩, fun hpos => h7.resolve_left (not_not.mpr hpos)⟩
  · rintro ⟨hv, hinterval⟩
    exact ⟨⟨⟨⟨⟨⟨⟨⟨⟨BitVec.not_lt.mpr hv.offset, hv.offsetAligned⟩, hv.deviceAligned⟩, hv.totalAligned,
      BitVec.not_lt.mpr hv.fits⟩, Except.ok.inj (hbpd.symm.trans hv.bpd)⟩, Nat.not_lt.mpr hv.strides⟩, hv.mode⟩,
      hv.direction⟩, (Classical.em _).symm.imp_right hinterval⟩, BitVec.not_lt.mpr hv.burst⟩

/-- The validator accepts exactly the parameters that pass all of its checks. -/
theorem validate_eq_zero_iff {params : TpceDmaTransferParams} {mapInfo : TpceDmaMapInfo} :
    tpceValidateDmaParams params mapInfo = .ok 0 ↔ ∃ ch, Validated params mapInfo ch ∧
      (params.interruptInterval > 0 →
        checkedDescriptors params mapInfo % params.interruptInterval.setWidth 32 = 0) := by
  constructor
  · intro h
    obtain ⟨ch, bad, hch, hbpd⟩ : ∃ ch bad, channelInfo params.channel = .ok ch ∧
        bytesPerDescriptorBad params mapInfo ch = .ok bad := by
      rw [tpceValidateDmaParams] at h
      split at h
      · cases h
      · obtain ⟨ch, hch, h⟩ := bind_eq_ok.mp h
        obtain ⟨bad, hbpd, -⟩ := bind_eq_ok.mp h
        exact ⟨ch, bad, hch, hbpd⟩
    obtain ⟨res, hres, hzero⟩ := validate_of_info hch hbpd
    refine ⟨ch, hzero.mp (BitVec.eq_of_toNat_eq ?_)⟩
    exact Int.natCast_eq_zero.mp (Except.ok.inj (hres.symm.trans h))
  · rintro ⟨ch, hchecked⟩
    obtain ⟨res, hres, hzero⟩ := validate_of_info hchecked.1.channel hchecked.1.bpd
    rw [hres, hzero.mpr hchecked]
    rfl

theorem checked_of_zero {params : TpceDmaTransferParams} {mapInfo : TpceDmaMapInfo}
    (h : tpceValidateDmaParams params mapInfo = .ok 0) : ∃ ch, Validated params mapInfo ch ∧
      (params.interruptInterval > 0 →
        checkedDescriptors params mapInfo % params.interruptInterval.setWidth 32 = 0) :=
  validate_eq_zero_iff.mp h

theorem validated_of_zero {params : TpceDmaTransferParams} {mapInfo : TpceDmaMapInfo}
    (h : tpceValidateDmaParams params mapInfo = .ok 0) : ∃ ch, Validated params mapInfo ch := by
  obtain ⟨ch, hvalid, -⟩ := checked_of_zero h
  exact ⟨ch, hvalid⟩

theorem validated_dvd {params : TpceDmaTransferParams} {mapInfo : TpceDmaMapInfo} {ch : TpceDmaChannelInfo}
    (h : tpceValidateDmaParams params mapInfo = .ok 0) (hch : channelInfo params.channel = .ok ch) :
    ch.dataWidth.toNat ∣ params.mapOffset.toNat ∧ ch.dataWidth.toNat ∣ params.bytesTotal.toNat := by
  obtain ⟨ch', hvalid⟩ := validated_of_zero h
  obtain rfl := Except.ok.inj (hch.symm.trans hvalid.channel)
  exact ⟨umod_eq_zero_iff.mp hvalid.offsetAligned, umod_eq_zero_iff.mp hvalid.totalAligned⟩

end TpceDrv.DmaParams
