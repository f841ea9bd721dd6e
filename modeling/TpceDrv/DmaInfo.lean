import TpceDrv.DmaParams

namespace TpceDrv.DmaInfo

open Descriptor DmaParams

inductive TpceDmaChannelState
  | idle
  | initialized
  | running
  | complete
  | error
  deriving DecidableEq, Repr

/-- The page that is shared with user space. -/
structure TpceDmaStreamState where
  produced : U64
  consumed : U64
  deriving DecidableEq, Repr

structure InternalDmaStreamInfo where
  state : Option TpceDmaStreamState
  stateRefs : Nat
  irqCnt : U64
  writeSeqNum : U32
  numDescMask : U32
  deriving DecidableEq, Repr

/-- Per-channel data. `mapInfo` holds the address of the mapping in use; the
buffers `desc` and `descDma` are empty lists while they are not allocated. -/
structure TpceDmaInfo where
  params : TpceDmaTransferParams
  streamInfo : InternalDmaStreamInfo
  mapInfo : Option Nat
  desc : List TpceDmaDescriptor
  descDma : List TpceDmaDescriptor
  descBusAddr : U64
  descBusAddrTranslated : U32
  descCapacity : U32
  descSize : U32
  descActive : U32
  state : TpceDmaChannelState

def TpceDmaInfo.zero : TpceDmaInfo where
  params := ⟨0, 0, 0, 0, 0, 0, 0, 0, 0, 0, 0⟩
  streamInfo := ⟨none, 0, 0, 0, 0⟩
  mapInfo := none
  desc := []
  descDma := []
  descBusAddr := 0
  descBusAddrTranslated := 0
  descCapacity := 0
  descSize := 0
  descActive := 0
  state := .idle

/-- The descriptors that the last initialisation has made active. -/
def TpceDmaInfo.active (info : TpceDmaInfo) : List TpceDmaDescriptor :=
  info.desc.take (info.descActive / descriptorSize).toNat

end TpceDrv.DmaInfo
