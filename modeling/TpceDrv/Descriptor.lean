import TpceDrv.Words

namespace TpceDrv.Descriptor

def tpceDmaBidirectional : U8 := 0#8
def tpceDmaToDevice : U8 := 1#8
def tpceDmaFromDevice : U8 := 2#8

def tpceDmaModeDefault : U8 := 0#8
def tpceDmaModeStream : U8 := 1#8

def tpceErrNullPtr : Int := 1
def tpceErrInvalidChn : Int := 2
def tpceErrDescBuf : Int := 3
def tpceErrInvalidDesc : Int := 4

/-- `sizeof(tpce_dma_descriptor)` -/
def descriptorSize : U32 := 64#32

def transferCompleteIrqMask : U32 := 1#32 <<< 14
def earlyDoneEnableMask : U32 := 1#32 <<< 24
def ownByHwSetMask : U32 := 1#32 <<< 30

/-- The fields of the prefetcher's extended descriptor that the driver reads
or writes. The structure of zero bytes is the default value. -/
structure TpceDmaDescriptor where
  readAddressLow : U32 := 0
  writeAddressLow : U32 := 0
  transferLength : U32 := 0
  nextDescPtrLow : U32 := 0
  sequenceNumber : U16 := 0
  readBurstCount : U8 := 0
  writeBurstCount : U8 := 0
  readStride : U16 := 0
  writeStride : U16 := 0
  readAddressHigh : U32 := 0
  writeAddressHigh : U32 := 0
  nextDescPtrHigh : U32 := 0
  control : U32 := 0
  deriving DecidableEq, Repr

instance : Inhabited TpceDmaDescriptor := ⟨{}⟩

def tpceDescSetWrite32 (desc : TpceDmaDescriptor) (val : U32) : TpceDmaDescriptor :=
  { desc with writeAddressLow := val, writeAddressHigh := 0 }

def tpceDescSetWrite64 (desc : TpceDmaDescriptor) (val : U64) : TpceDmaDescriptor :=
  { desc with writeAddressLow := val.setWidth 32, writeAddressHigh := (val >>> 32).setWidth 32 }

def tpceDescSetRead32 (desc : TpceDmaDescriptor) (val : U32) : TpceDmaDescriptor :=
  { desc with readAddressLow := val, readAddressHigh := 0 }

def tpceDescSetRead64 (desc : TpceDmaDescriptor) (val : U64) : TpceDmaDescriptor :=
  { desc with readAddressLow := val.setWidth 32, readAddressHigh := (val >>> 32).setWidth 32 }

def combine (high low : U32) : U64 := (high.setWidth 64 <<< 32) ||| low.setWidth 64

def tpceDescGetWrite (desc : TpceDmaDescriptor) : U64 :=
  combine desc.writeAddressHigh desc.writeAddressLow

def tpceDescGetRead (desc : TpceDmaDescriptor) : U64 :=
  combine desc.readAddressHigh desc.readAddressLow

/-- The host side of a transfer, on the side where `fill_addresses` puts the
bus address. -/
def hostAddr (direction : U8) (desc : TpceDmaDescriptor) : U64 :=
  if direction = tpceDmaFromDevice then tpceDescGetWrite desc else tpceDescGetRead desc

def hostInterval (direction : U8) (desc : TpceDmaDescriptor) : U64 × Nat :=
  (hostAddr direction desc, desc.transferLength.toNat)

theorem combine_split (val : U64) : combine ((val >>> 32).setWidth 32) (val.setWidth 32) = val := by
  apply BitVec.eq_of_getLsbD_eq
  intro i hi
  by_cases h : i < 32
  · simp [combine, h, hi]
  · have h' : i - 32 < 32 := by omega
    simp [combine, h, hi, h', show 32 + (i - 32) = i by omega]

structure TpceDmaChannelInfo where
  dataWidth : U32
  maxTransfer : U32
  maxStride : U32
  maxBurst : U8
  hasStreamRead : Bool
  hasStreamWrite : Bool

def tpceDmaChannelInfoTable : List TpceDmaChannelInfo :=
  [⟨8#32, 262144#32, 0#32, 32#8, false, false⟩,
    ⟨2#32, 262144#32, 32768#32, 0#8, false, false⟩,
    ⟨8#32, 262144#32, 0#32, 32#8, true, false⟩]

/-- `tpce_dma_channel_info_table[channel]`, undefined past the third entry. -/
def channelInfo (channel : U8) : Except Fault TpceDmaChannelInfo :=
  match tpceDmaChannelInfoTable[channel.toNat]? with
  | some info => .ok info
  | none => .error (.channelIndex channel)

theorem channelInfo_mem {channel : U8} {info : TpceDmaChannelInfo}
    (h : channelInfo channel = .ok info) : info ∈ tpceDmaChannelInfoTable := by
  simp only [channelInfo] at h
  split at h
  · cases h
    exact List.mem_of_getElem? ‹_›
  · cases h

theorem channelInfo_exists {channel : U8} (h : channel.toNat < 3) :
    ∃ info, channelInfo channel = .ok info := by
  have hlen : channel.toNat < tpceDmaChannelInfoTable.length := h
  exact ⟨tpceDmaChannelInfoTable[channel.toNat], by simp [channelInfo, hlen]⟩

theorem channelInfo_maxTransfer {channel : U8} {info : TpceDmaChannelInfo}
    (h : channelInfo channel = .ok info) : info.maxTransfer = 262144#32 := by
  have hm := channelInfo_mem h
  simp only [tpceDmaChannelInfoTable, List.mem_cons, List.not_mem_nil, or_false] at hm
  rcases hm with rfl | rfl | rfl <;> rfl

theorem channelInfo_dataWidth {channel : U8} {info : TpceDmaChannelInfo}
    (h : channelInfo channel = .ok info) : info.dataWidth = 8#32 ∨ info.dataWidth = 2#32 := by
  have hm := channelInfo_mem h
  simp only [tpceDmaChannelInfoTable, List.mem_cons, List.not_mem_nil, or_false] at hm
  rcases hm with rfl | rfl | rfl <;> simp

theorem channelInfo_dataWidth_dvd {channel : U8} {info : TpceDmaChannelInfo}
    (h : channelInfo channel = .ok info) : info.dataWidth.toNat ∣ 64 := by
  rcases channelInfo_dataWidth h with hw | hw
  · rw [hw]
    decide
  · rw [hw]
    decide

end TpceDrv.Descriptor
