import TpceDrv.DmaParams

namespace TpceDrv.Generation

open Descriptor Mapping DmaParams

def tpceMin (a b : U32) : U32 := if a > b then b else a

theorem toNat_tpceMin (a b : U32) : (tpceMin a b).toNat = min a.toNat b.toNat := by
  simp only [tpceMin]
  split
  · rename_i h
    exact (Nat.min_eq_right (Nat.le_of_lt (BitVec.lt_def.mp h))).symm
  · rename_i h
    exact (Nat.min_eq_left (BitVec.not_lt.mp h)).symm

structure DescriptorPlan where
  gcdPageSizes : U32 := 0
  numDescriptors : U32 := 0
  startingIdx : Nat := 0
  startingOffset : U32 := 0

/-- The first loop of `create_descriptor_plan`: the range in which the
transfer starts and the offset into it. -/
def skipOffset : Nat → Nat → List Scatterlist → U32 → Except Fault (Nat × U32)
  | 0, offIdx, _, offRem => .ok (offIdx, offRem)
  | _ + 1, offIdx, [], _ => .error (.rangeIndex offIdx)
  | n + 1, offIdx, sg :: rest, offRem =>
      let size := tpceDmaMapRangeSize sg
      if offRem ≥ size then skipOffset n (offIdx + 1) rest (offRem - size)
      else .ok (offIdx, offRem)

/-- The second loop of `create_descriptor_plan`, over the ranges from index
`i` on. -/
def countDescriptors (maxTransfer : U32) (offIdx : Nat) (offRem : U32) :
    Nat → Nat → List Scatterlist → U32 → U32 → Except Fault U32
  | 0, _, _, _, numDesc => .ok numDesc
  | _ + 1, i, [], bytesRem, numDesc =>
      if bytesRem > 0 then .error (.rangeIndex i) else .ok numDesc
  | n + 1, i, sg :: rest, bytesRem, numDesc =>
      if bytesRem > 0 then
        let bytesInPage := tpceDmaMapRangeSize sg - if i = offIdx then offRem else 0
        let pageBytes := tpceMin bytesRem bytesInPage
        countDescriptors maxTransfer offIdx offRem n (i + 1) rest (bytesRem - pageBytes)
          (numDesc + divRoundUp pageBytes maxTransfer)
      else .ok numDesc

def createDescriptorPlan (mapInfo : TpceDmaMapInfo) (params : TpceDmaTransferParams) :
    Except Fault DescriptorPlan := do
  let chInfo ← channelInfo params.channel
  let dmaPages := tpceDmaMapNumRanges mapInfo
  if dmaPages = 0 then pure {} else
    let gcd ← gcdDmaPageSizes mapInfo
    let (offIdx, offRem) ← skipOffset dmaPages 0 mapInfo.sgt.sgl.slots params.mapOffset
    let numDesc ←
      (if params.bytesPerDescriptor = 0 then
        countDescriptors chInfo.maxTransfer offIdx offRem (dmaPages - offIdx) offIdx
          (mapInfo.sgt.sgl.slots.drop offIdx) params.bytesTotal 0
      else pure (params.bytesTotal / params.bytesPerDescriptor))
    pure ⟨gcd, numDesc, offIdx, offRem⟩

def getTransferLength (params : TpceDmaTransferParams) (chInfo : TpceDmaChannelInfo)
    (bytesInPageRem : U32) : U32 :=
  if params.bytesPerDescriptor > 0 then params.bytesPerDescriptor
  else tpceMin bytesInPageRem chInfo.maxTransfer

def setAddresses (params : TpceDmaTransferParams) (chInfo : TpceDmaChannelInfo) (busAddr : U64)
    (deviceAddr : U32) (desc : TpceDmaDescriptor) : TpceDmaDescriptor :=
  if params.direction = tpceDmaFromDevice then
    tpceDescSetWrite64 (tpceDescSetRead32 desc (if chInfo.hasStreamRead then 0 else deviceAddr)) busAddr
  else
    tpceDescSetWrite32 (tpceDescSetRead64 desc busAddr) (if chInfo.hasStreamWrite then 0 else deviceAddr)

/-- What the inner loop of `fill_addresses` leaves: the descriptors it has
written, the part of the buffer behind them and the running counters. -/
structure PageFill where
  written : List TpceDmaDescriptor
  unwritten : List TpceDmaDescriptor
  deviceAddr : U32
  bytesRem : U32

/-- The inner loop of `fill_addresses`. It runs over the rest of the buffer,
and past its end the write of the source is out of bounds. -/
def fillPage (params : TpceDmaTransferParams) (chInfo : TpceDmaChannelInfo) :
    Nat → U32 → U64 → U32 → U32 → List TpceDmaDescriptor → Except Fault PageFill
  | descIdx, bytesInPageRem, _, deviceAddr, bytesRem, [] =>
      if bytesInPageRem > 0 then .error (.descriptorIndex descIdx)
      else .ok ⟨[], [], deviceAddr, bytesRem⟩
  | descIdx, bytesInPageRem, busAddr, deviceAddr, bytesRem, desc :: buf =>
      if bytesInPageRem > 0 then do
        let length := getTransferLength params chInfo bytesInPageRem
        let page ← fillPage params chInfo (descIdx + 1) (bytesInPageRem - length)
          (busAddr + length.setWidth 64) (deviceAddr + length) (bytesRem - length) buf
        let desc := { setAddresses params chInfo busAddr deviceAddr desc with transferLength := length }
        pure { page with written := desc :: page.written }
      else .ok ⟨[], desc :: buf, deviceAddr, bytesRem⟩

/-- The outer loop of `fill_addresses` over the ranges from `mapIdx` on, with
the buffer from `descIdx` on. -/
def fillRanges (params : TpceDmaTransferParams) (chInfo : TpceDmaChannelInfo)
    (plan : DescriptorPlan) :
    Nat → List Scatterlist → Nat → U32 → U32 → List TpceDmaDescriptor →
      Except Fault (List TpceDmaDescriptor)
  | mapIdx, [], descIdx, _, bytesRem, buf =>
      if descIdx < plan.numDescriptors.toNat ∧ bytesRem > 0 then .error (.rangeIndex mapIdx)
      else .ok buf
  | mapIdx, sg :: rest, descIdx, deviceAddr, bytesRem, buf =>
      if descIdx < plan.numDescriptors.toNat ∧ bytesRem > 0 then do
        let pageOffset := if mapIdx = plan.startingIdx then plan.startingOffset else 0
        let bytesInPageRem := tpceMin (tpceDmaMapRangeSize sg - pageOffset) bytesRem
        let busAddr := tpceDmaMapRangeAddr sg + pageOffset.setWidth 64
        let page ← fillPage params chInfo descIdx bytesInPageRem busAddr deviceAddr bytesRem buf
        let tail ← fillRanges params chInfo plan (mapIdx + 1) rest (descIdx + page.written.length)
          page.deviceAddr page.bytesRem page.unwritten
        pure (page.written ++ tail)
      else .ok buf

def fillAddresses (params : TpceDmaTransferParams) (chInfo : TpceDmaChannelInfo)
    (mapInfo : TpceDmaMapInfo) (descriptors : List TpceDmaDescriptor) (plan : DescriptorPlan) :
    Except Fault (List TpceDmaDescriptor) :=
  fillRanges params chInfo plan plan.startingIdx (mapInfo.sgt.sgl.slots.drop plan.startingIdx) 0
    params.deviceAddr params.bytesTotal descriptors

def orControl (desc : TpceDmaDescriptor) (flags : U32) : TpceDmaDescriptor :=
  { desc with control := desc.control ||| flags }

def earlyDone (chInfo : TpceDmaChannelInfo) : U32 :=
  if chInfo.hasStreamRead then 0 else earlyDoneEnableMask

def fillControlFlagsDefault (chInfo : TpceDmaChannelInfo) (plan : DescriptorPlan)
    (i : Nat) (desc : TpceDmaDescriptor) : TpceDmaDescriptor :=
  if i < plan.numDescriptors.toNat - 1 then orControl desc (earlyDone chInfo)
  else if i = plan.numDescriptors.toNat - 1 then orControl desc transferCompleteIrqMask
  else desc

def fillControlFlagsStream (params : TpceDmaTransferParams) (chInfo : TpceDmaChannelInfo)
    (plan : DescriptorPlan) (i : Nat) (desc : TpceDmaDescriptor) : TpceDmaDescriptor :=
  let interval := params.interruptInterval.toNat
  if i < plan.numDescriptors.toNat then
    let desc :=
      if interval > 0 ∧ i % interval = interval - 1 then orControl desc transferCompleteIrqMask
      else desc
    orControl desc (earlyDone chInfo)
  else desc

/-- One descriptor's share of the loops of `fill_control_flags`. -/
def fillControlFlags (params : TpceDmaTransferParams) (chInfo : TpceDmaChannelInfo)
    (plan : DescriptorPlan) (i : Nat) (desc : TpceDmaDescriptor) : TpceDmaDescriptor :=
  if params.transferMode = tpceDmaModeDefault then fillControlFlagsDefault chInfo plan i desc
  else if params.transferMode = tpceDmaModeStream then
    fillControlFlagsStream params chInfo plan i desc
  else desc

/-- One descriptor's share of the loop of `fill_other_fields`. -/
def fillOtherFields (params : TpceDmaTransferParams) (chInfo : TpceDmaChannelInfo)
    (plan : DescriptorPlan) (i : Nat) (desc : TpceDmaDescriptor) : TpceDmaDescriptor :=
  if i < plan.numDescriptors.toNat then
    { desc with
      sequenceNumber := BitVec.ofNat 16 i
      readStride := params.readStride
      writeStride := params.writeStride
      readBurstCount := if chInfo.hasStreamRead then 0 else params.burstCount
      writeBurstCount := if chInfo.hasStreamWrite then 0 else params.burstCount }
  else desc

/-- `memset(descriptors, 0, num * sizeof(tpce_dma_descriptor))` -/
def zeroDescriptors (descriptors : List TpceDmaDescriptor) (num : Nat) :
    Except Fault (List TpceDmaDescriptor) :=
  if descriptors.length < num then .error (.descriptorIndex descriptors.length)
  else .ok (List.replicate num default ++ descriptors.drop num)

/-- The result is the count converted to a signed `int`, and the buffer. -/
def tpceGenerateDescriptors (params : TpceDmaTransferParams) (mapInfo : TpceDmaMapInfo)
    (descriptors : List TpceDmaDescriptor) (maxDescriptors : U32) :
    Except Fault (Int × List TpceDmaDescriptor) := do
  let plan ← createDescriptorPlan mapInfo params
  if plan.numDescriptors > maxDescriptors then pure (-tpceErrDescBuf, descriptors)
  else if plan.numDescriptors = 0 then pure (0, descriptors)
  else
    let chInfo ← channelInfo params.channel
    let zeroed ← zeroDescriptors descriptors plan.numDescriptors.toNat
    let filled ← fillAddresses params chInfo mapInfo zeroed plan
    let flagged := filled.mapIdx (fillControlFlags params chInfo plan)
    pure (plan.numDescriptors.toInt, flagged.mapIdx (fillOtherFields params chInfo plan))

end TpceDrv.Generation
