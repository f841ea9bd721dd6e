import TpceDrv.LockUserBuffer

namespace TpceDrv.Resources

open Descriptor DmaParams DmaInfo Mapping Device Requests LockUserBuffer Library.Holdings Library.Traces

/-- What belongs to a mapping. A driver buffer has pages of its own, and the kernel's
view of them. -/
inductive MapPart
  | locked (r : Resource)
  | allocPages (order : ℕ)
  | vmap
  deriving DecidableEq

/-- What the driver acquires for a device, from its probe to its removal -/
inductive Item
  | tpceDev
  | ioBuffer
  | minor
  | tableEntry
  | drvdata
  | pciDevice
  | pciRegions
  | bar (i : Fin 2)
  | irqVectors
  | irq
  | cdev
  | device
  | mapping (obj : ℕ) (part : MapPart)
  | desc (c : Channel)
  | descDma (c : Channel)
  | streamState (c : Channel)
  | fileCtx (file : ℕ)
  deriving DecidableEq

abbrev Owning (ε α : Type) := Traced (Access Item) ε α

variable {ε : Type}

/-- The parts go in the order of the list. -/
def releaseParts (obj : ℕ) (parts : List MapPart) : Owning ε Unit :=
  emits (parts.map fun part => .release (.mapping obj part))

/-- The answers to the steps of `tpce_dma_alloc_buffer` -/
structure BufferEnv where
  kvzallocOk : Bool
  pagesOk : Bool
  vmapOk : Bool
  sgAlloc : ℤ
  dmaMap : ℤ
  xaOk : Bool
  sgt : SgTable

def dmaNone : U8 := 3#8

def ilog2 (n : U32) : ℕ := Nat.log2 n.toNat

/-- The parts of a driver buffer, in the order in which they are given back -/
def driverParts (numPages : U32) : List MapPart :=
  [.locked .dmaMapping, .locked .sgTable, .vmap, .allocPages (ilog2 numPages), .locked .mapInfo]

/-- The pages that are pinned for a user buffer -/
def pinsOf (mapInfo : TpceDmaMapInfo) : Pins := ⟨gupFlags mapInfo.direction, mapInfo.numPages.toNat⟩

def userParts (mapInfo : TpceDmaMapInfo) : List MapPart :=
  [.locked .dmaMapping, .locked .sgTable] ++ (pages (pinsOf mapInfo)).map .locked ++ [.locked .mapInfo]

/-- `buf_drv` is set in the mappings without an owner. -/
def isDriverBuf (mapInfo : TpceDmaMapInfo) : Bool := mapInfo.owner.isNone

/-- What is acquired for a mapping -/
def mapParts (mapInfo : TpceDmaMapInfo) : List MapPart :=
  if isDriverBuf mapInfo then driverParts mapInfo.numPages else userParts mapInfo

def xaInsert (dev : TpceDev) (id : U32) (ok : Bool) : ℤ :=
  if dev.dmaMappings id ≠ none then -Errno.ebusy else if !ok then -Errno.enomem else 0

def xaAlloc (dev : TpceDev) (ok : Bool) : ℤ × U32 :=
  match xaFreeId dev, ok with
  | none, _ => (-Errno.ebusy, 0)
  | some _, false => (-Errno.enomem, 0)
  | some id, true => (0, id)

def allocatedMapInfo (env : BufferEnv) (dev : TpceDev) (size : U32) (dir : U8) (id : U32) : TpceDmaMapInfo where
  obj := dev.nextObj
  owner := none
  bufUsr := false
  id := id
  size := size
  numPages := size >>> 12
  direction := dir
  activeChannel := tpceMapInactive
  sgt := env.sgt

/-- The labels at the end of the function, each with the ones below it -/
def errorAlloc (obj : ℕ) (err : MapPtr) : Owning ε MapPtr := do
  emit (.release (.mapping obj (.locked .mapInfo)))
  pure err

def errorVmap (obj order : ℕ) (err : MapPtr) : Owning ε MapPtr := do
  emit (.release (.mapping obj (.allocPages order)))
  errorAlloc obj err

def errorSgt (obj order : ℕ) (err : MapPtr) : Owning ε MapPtr := do
  emit (.release (.mapping obj .vmap))
  errorVmap obj order err

def errorMap (obj order : ℕ) (err : MapPtr) : Owning ε MapPtr := do
  emit (.release (.mapping obj (.locked .sgTable)))
  errorSgt obj order err

def errorXa (obj order : ℕ) (err : MapPtr) : Owning ε MapPtr := do
  emit (.release (.mapping obj (.locked .dmaMapping)))
  errorMap obj order err

def tpceDmaAllocBuffer (env : BufferEnv) (dev : TpceDev) (size : U32) (dir : U8) (fixedId : U32) :
    Owning ε (MapPtr × TpceDev) :=
  let failing (m : Owning ε MapPtr) : Owning ε (MapPtr × TpceDev) := do
    let err ← m
    pure (err, dev)
  let obj := dev.nextObj
  let numPages := size >>> 12
  let order := ilog2 numPages
  if dir = dmaNone then pure (.err (-Errno.einval), dev)
  else if size = 0 ∨ size.toNat % pageSize ≠ 0 then pure (.err (-Errno.einval), dev)
  else if !isPowerOf2 numPages then pure (.err (-Errno.einval), dev)
  else if !env.kvzallocOk then pure (.err (-Errno.enomem), dev)
  else do
    emit (.acquire (.mapping obj (.locked .mapInfo)))
    if !env.pagesOk then failing (errorAlloc obj (.err (-Errno.enomem)))
    else do
      emit (.acquire (.mapping obj (.allocPages order)))
      if !env.vmapOk then failing (errorVmap obj order (.err (-Errno.eio)))
      else do
        emit (.acquire (.mapping obj .vmap))
        if env.sgAlloc ≠ 0 then failing (errorSgt obj order (.err env.sgAlloc))
        else do
          emit (.acquire (.mapping obj (.locked .sgTable)))
          if env.dmaMap ≠ 0 then failing (errorMap obj order (.err env.dmaMap))
          else do
            emit (.acquire (.mapping obj (.locked .dmaMapping)))
            let (ret, id) := if fixedId ≠ 0 then (xaInsert dev fixedId env.xaOk, fixedId) else xaAlloc dev env.xaOk
            if ret < 0 then failing (errorXa obj order (.err ret))
            else
              pure (.ptr obj, { dev.setMapInfo obj (allocatedMapInfo env dev size dir id) with
                dmaMappings := Function.update dev.dmaMappings id (some obj)
                nextObj := obj + 1 })

def tpceDmaFreeBuffer (dev : TpceDev) (obj : ℕ) : Owning Fault TpceDev := do
  let mapInfo ← lift (dev.mapInfo obj)
  releaseParts obj (driverParts mapInfo.numPages)
  lift (Requests.tpceDmaUnlockUserBuffer dev obj)

def tpceDmaUnlockUserBuffer (dev : TpceDev) (obj : ℕ) : Owning Fault TpceDev := do
  let mapInfo ← lift (dev.mapInfo obj)
  releaseParts obj (userParts mapInfo)
  lift (Requests.tpceDmaUnlockUserBuffer dev obj)

/-- A mapping that is of neither kind keeps its parts. The table that knows it goes with
`xa_destroy`, and nothing finds it from then on. -/
def tpceDmaFreeMapping (dev : TpceDev) (obj : ℕ) : Owning Fault TpceDev := do
  let mapInfo ← lift (dev.mapInfo obj)
  if mapInfo.bufUsr then tpceDmaUnlockUserBuffer dev obj
  else if isDriverBuf mapInfo then tpceDmaFreeBuffer dev obj
  else lift (Requests.tpceDmaUnlockUserBuffer dev obj)

section
variable {dev : TpceDev} {obj : ℕ} {mapInfo : TpceDmaMapInfo} {held : Finset Item} {parts : List MapPart}

theorem erase_unlockUserBuffer (dev : TpceDev) (obj : ℕ) :
    erase (tpceDmaUnlockUserBuffer dev obj) = Requests.tpceDmaUnlockUserBuffer dev obj := by
  simp only [tpceDmaUnlockUserBuffer, releaseParts, erase_bind, erase_lift, erase_emits, ok_bind,
    Requests.tpceDmaUnlockUserBuffer]
  cases dev.mapInfo obj with
  | error e => rfl
  | ok mapInfo => rfl

theorem erase_freeBuffer (dev : TpceDev) (obj : ℕ) :
    erase (tpceDmaFreeBuffer dev obj) = Requests.tpceDmaUnlockUserBuffer dev obj := by
  simp only [tpceDmaFreeBuffer, releaseParts, erase_bind, erase_lift, erase_emits, ok_bind,
    Requests.tpceDmaUnlockUserBuffer]
  cases dev.mapInfo obj with
  | error e => rfl
  | ok mapInfo => rfl

/-- Whatever it gives back, the function takes the mapping off the table. -/
theorem erase_freeMapping (dev : TpceDev) (obj : ℕ) :
    erase (tpceDmaFreeMapping dev obj) = Requests.tpceDmaUnlockUserBuffer dev obj := by
  simp only [tpceDmaFreeMapping, erase_bind, erase_lift, erase_ite, erase_unlockUserBuffer, erase_freeBuffer, ite_self]
  simp only [Requests.tpceDmaUnlockUserBuffer]
  cases dev.mapInfo obj with
  | error e => rfl
  | ok mapInfo => rfl

theorem nodup_driverParts (numPages : U32) : (driverParts numPages).Nodup := by
  simp [driverParts]

theorem nodup_userParts (mapInfo : TpceDmaMapInfo) : (userParts mapInfo).Nodup := by
  have hpages : ((pages (pinsOf mapInfo)).map MapPart.locked).Nodup :=
    (nodup_pages _).map fun _ _ h => MapPart.locked.inj h
  have hfree : ∀ r ∈ pages (pinsOf mapInfo), r ≠ .dmaMapping ∧ r ≠ .sgTable ∧ r ≠ .mapInfo := by
    intro r hr
    obtain ⟨i, -, rfl⟩ := List.mem_map.mp hr
    simp
  simp only [userParts, List.nodup_append, hpages, List.nodup_cons, List.mem_cons, List.mem_append, List.mem_map]
  grind

theorem nodup_mapParts (mapInfo : TpceDmaMapInfo) : (mapParts mapInfo).Nodup := by
  rw [mapParts]
  split
  · exact nodup_driverParts _
  · exact nodup_userParts _

theorem mapping_injective (obj : ℕ) : Function.Injective (Item.mapping obj) := fun _ _ h => (Item.mapping.inj h).2

theorem nodup_mapping (hnodup : parts.Nodup) (obj : ℕ) : (parts.map (Item.mapping obj)).Nodup :=
  hnodup.map (mapping_injective obj)

end

end TpceDrv.Resources
