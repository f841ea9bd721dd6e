import TpceDrv.DmaInfo
import TpceDrv.PageTable

namespace TpceDrv.Translation

open Descriptor DmaParams DmaInfo PageTable

def translateDescriptorLinkAddr (pageTable : AlteraPciePageTable) (info : TpceDmaInfo) :
    Int × AlteraPciePageTable × TpceDmaInfo :=
  let pageAddr := info.descBusAddr &&& alteraAddrTranslationMask64
  let pageOffset := info.descBusAddr &&& ~~~alteraAddrTranslationMask64
  let alloc := pciePageAlloc pageTable pageAddr info.params.channel
  if alloc.slot = -1 then (-Errno.enospc, alloc.table, info)
  else
    (0, alloc.table, { info with
      descBusAddrTranslated :=
        (BitVec.ofInt 32 alloc.slot <<< alteraAddrPageSize) ||| pageOffset.setWidth 32 })

/-- The local variables that `translate_descriptor_rw_addr` carries from one
descriptor to the next, with the table. -/
structure RwLookup where
  table : AlteraPciePageTable
  currPage : U64
  slot : Int
  usedEntries : Nat

/-- The lookup in front of one descriptor's translation. It fails with the
table as the failed allocation leaves it. -/
def lookupPage (channel : U8) (st : RwLookup) (pageAddr : U64) : Except AlteraPciePageTable RwLookup :=
  if st.currPage ≠ pageAddr then
    let slot := pciePageFindValue st.table pageAddr channel
    if slot = -1 then
      let alloc := pciePageAlloc st.table pageAddr channel
      if alloc.slot = -1 then .error alloc.table
      else .ok ⟨alloc.table, pageAddr, alloc.slot, st.usedEntries + 1⟩
    else .ok { st with slot := slot }
  else .ok st

def pageOf (addr : U64) : U64 := addr &&& alteraAddrTranslationMask64

/-- The loop over the active descriptors: whether it reached the end, its
variables and the descriptors. -/
def translateRwLoop (channel : U8) :
    RwLookup → List TpceDmaDescriptor → Bool × RwLookup × List TpceDmaDescriptor
  | st, [] => (true, st, [])
  | st, desc :: rest =>
      let combinedAddr := tpceDescGetWrite desc
      match lookupPage channel st (pageOf combinedAddr) with
      | .error table => (false, { st with table := table }, desc :: rest)
      | .ok st =>
          let desc := { desc with
            writeAddressLow := pcieTranslateAddr64 combinedAddr st.slot
            writeAddressHigh := 0 }
          let (done, st, rest) := translateRwLoop channel st rest
          (done, st, desc :: rest)

theorem length_translateRwLoop (channel : U8) (st : RwLookup) (descs : List TpceDmaDescriptor) :
    (translateRwLoop channel st descs).2.2.length = descs.length := by
  induction descs generalizing st with
  | nil => rfl
  | cons desc rest ih =>
      simp only [translateRwLoop]
      split
      · rfl
      · exact congrArg (· + 1) (ih _)

/-- `slot₀` is what the uninitialised variable `slot` happens to hold. -/
def translateDescriptorRwAddr (slot₀ : Int) (pageTable : AlteraPciePageTable) (info : TpceDmaInfo) :
    Int × AlteraPciePageTable × TpceDmaInfo :=
  let activeDescriptors := (info.descActive / descriptorSize).toNat
  let channel := info.params.channel
  if info.params.direction = tpceDmaFromDevice then
    let (done, st, descs) :=
      translateRwLoop channel ⟨pageTable, 0, slot₀, 0⟩ (info.descDma.take activeDescriptors)
    let info := { info with descDma := descs ++ info.descDma.drop activeDescriptors }
    if done then (st.usedEntries, st.table, info)
    else (-Errno.enospc, pciePageFreeByChannelId st.table channel, info)
  else if info.params.direction = tpceDmaToDevice then (-Errno.enosys, pageTable, info)
  else (-Errno.einval, pageTable, info)

def alteraPcieAvalonAddrTranslationLower : Nat := 0x1000
def alteraPcieAvalonAddrTranslationUpper : Nat := 0x1004
def pageTableSpaceBit : U32 := 1#32

/-- Writes to BAR2 registers: offset and value, oldest first. -/
abbrev MmioWrites := List (Nat × U32)

def setPageTranslationRegs (pageTable : AlteraPciePageTable) (channel : U8) : MmioWrites :=
  (List.finRange 16).flatMap fun i =>
    if pciePageActive pageTable i channel then
      let tblLo := ((pageTable.pages i).setWidth 32 &&& alteraAddrTranslationMask) ||| pageTableSpaceBit
      let tblHi := (pageTable.pages i >>> 32).setWidth 32
      [(alteraPcieAvalonAddrTranslationLower + 8 * i.val, tblLo),
        (alteraPcieAvalonAddrTranslationUpper + 8 * i.val, tblHi)]
    else []

end TpceDrv.Translation
