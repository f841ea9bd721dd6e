import TpceDrv.Words

namespace TpceDrv.PageTable

def alteraAddrPageSize : Nat := 18
def alteraAddrPageSizeBytes : Nat := 1 <<< 18
def alteraAddrTranslationMask64 : U64 := 0xfffffffffffc0000#64
def alteraAddrTranslationMask : U32 := 0xfffc0000#32

structure AlteraPciePageTable where
  pages : Fin 16 → U64
  activeChannel : Fin 16 → U8
  usedMask : U16

/-- The table inside a zero-allocated device structure. -/
def AlteraPciePageTable.empty : AlteraPciePageTable := ⟨fun _ => 0, fun _ => 0, 0⟩

/-- One plus the index of the least significant set bit, 0 for the zero word. -/
def builtinFfs {w : Nat} (x : BitVec w) : Nat := ((List.range w).find? x.getLsbD).elim 0 (· + 1)

def findFirstZeroU16 (mask : U16) : Int :=
  let inverted := ~~~mask
  if inverted = 0 then -1 else (builtinFfs inverted : Int) - 1

/-- What one allocation returns and leaves, with the array indices it stores
to. A store outside the arrays hits what lies around them: it is recorded in
`accesses`, and `PageTableFaults` ends the run there. -/
structure PageAlloc where
  slot : Int
  table : AlteraPciePageTable
  accesses : List Int

/-- The stores to the table. One outside the arrays leaves these as they are. -/
def AlteraPciePageTable.store (table : AlteraPciePageTable) (slot : Int) (value : U64)
    (channelId : U8) : AlteraPciePageTable :=
  if h : 0 ≤ slot ∧ slot < 16 then
    let i : Fin 16 := ⟨slot.toNat, by omega⟩
    ⟨Function.update table.pages i value, Function.update table.activeChannel i channelId,
      table.usedMask ||| (1#16 <<< i.val)⟩
  else table

def pciePageAlloc (table : AlteraPciePageTable) (value : U64) (channelId : U8) : PageAlloc :=
  let slot := findFirstZeroU16 table.usedMask
  if slot ≥ 16 then ⟨-1, table, []⟩
  else ⟨slot, table.store slot value channelId, [slot, slot]⟩

/-- `table->used_mask & (1u << slot)` -/
def AlteraPciePageTable.used (table : AlteraPciePageTable) (slot : Fin 16) : Bool :=
  table.usedMask &&& (1#16 <<< slot.val) ≠ 0

def pciePageFree (table : AlteraPciePageTable) (slot : Fin 16) : AlteraPciePageTable :=
  ⟨Function.update table.pages slot 0, Function.update table.activeChannel slot 0,
    table.usedMask &&& ~~~(1#16 <<< slot.val)⟩

def AlteraPciePageTable.skips (table : AlteraPciePageTable) (channelId : U8) (slot : Fin 16) :
    Bool :=
  !table.used slot || (channelId ≠ uint8Max && table.activeChannel slot ≠ channelId)

def pciePageFreeByChannelId (table : AlteraPciePageTable) (channelId : U8) :
    AlteraPciePageTable :=
  (List.finRange 16).foldl
    (fun t slot => if t.skips channelId slot then t else pciePageFree t slot) table

def pciePageFindValue (table : AlteraPciePageTable) (value : U64) (channelId : U8) : Int :=
  ((List.finRange 16).find? fun slot =>
    !table.skips channelId slot && table.pages slot = value).elim (-1) (fun slot => slot.val)

def pciePageActive (table : AlteraPciePageTable) (slot : Fin 16) (channelId : U8) : Bool :=
  table.used slot && table.activeChannel slot = channelId

def pcieTranslateAddr64 (busAddr : U64) (slot : Int) : U32 :=
  if slot < 0 ∨ slot > 16 then 0
  else
    let offset : U32 := (busAddr &&& ~~~alteraAddrTranslationMask64).setWidth 32
    (BitVec.ofInt 32 slot <<< alteraAddrPageSize) ||| offset

end TpceDrv.PageTable
