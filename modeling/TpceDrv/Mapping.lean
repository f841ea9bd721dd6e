import TpceDrv.Words

namespace TpceDrv.Mapping

structure Scatterlist where
  dmaAddress : U64
  dmaLength : U32
  offset : U32 := 0
  deriving DecidableEq, Repr

/-- A scatterlist in memory: blocks of slots, where a block that is not the
last one ends in a link slot to the next. -/
inductive SgList
  | last (slots : List Scatterlist)
  | chain (slots : List Scatterlist) (next : SgList)
  deriving DecidableEq

/-- The slots that plain indexing `sgl[i]` reaches. The link slot of a chained
block carries no address and no length. -/
def SgList.slots : SgList → List Scatterlist
  | .last slots => slots
  | .chain slots _ => slots ++ [⟨0, 0, 0⟩]

/-- The entries in the order of `sg_next`, which follows the links. -/
def SgList.walk : SgList → List Scatterlist
  | .last slots => slots
  | .chain slots next => slots ++ next.walk

structure SgTable where
  sgl : SgList
  nents : Nat
  deriving DecidableEq

/-- The entries that `for_each_sgtable_dma_sg` visits. -/
def SgTable.dmaEntries (sgt : SgTable) : List Scatterlist := sgt.sgl.walk.take sgt.nents

/-- A registered mapping. `obj` stands for the address of the structure;
`active_channel` is a signed byte with the sentinel -1. -/
structure TpceDmaMapInfo where
  obj : Nat
  owner : Option Nat
  bufUsr : Bool
  id : U32
  size : U32
  numPages : U32
  direction : U8
  activeChannel : Int
  sgt : SgTable
  deriving DecidableEq

def tpceMapInactive : Int := -1

def mappingIsBusy (info : TpceDmaMapInfo) : Bool :=
  if info.activeChannel > tpceDmaNumChannels ∨ info.activeChannel < tpceMapInactive then false
  else 0 ≤ info.activeChannel

def tpceDmaMapNumRanges (mapInfo : TpceDmaMapInfo) : Nat := mapInfo.sgt.nents

/-- `sg_dma_address(&sgl[i]) + sgl[i].offset` -/
def tpceDmaMapRangeAddr (sg : Scatterlist) : U64 := sg.dmaAddress + sg.offset.setWidth 64

def tpceDmaMapRangeSize (sg : Scatterlist) : U32 := sg.dmaLength

end TpceDrv.Mapping
