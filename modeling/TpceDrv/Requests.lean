import TpceDrv.ChannelControl

namespace TpceDrv.Requests

open Descriptor DmaParams DmaInfo Mapping PageTable Device ChannelControl

def tpceMaxDescriptorsSize : U32 := 16384#32
def tpceMsgdmaPrefetchExtendedDesc : U8 := 4#8
def tpceDmaDriverBufferId : U32 := 1#32
def tpceDmaDriverBufferSize : U32 := 0x100000#32
def tpceDmaMapIdMax : Nat := 31
def tpceCachelineSize : U32 := 64#32

def xaLoad (dev : TpceDev) (id : U32) : Option TpceDmaMapInfo :=
  (dev.dmaMappings id).bind dev.mapInfos

/-- `fileCtx` is `none` for the requests that the driver makes itself. -/
def validateDmaRequest (dev : TpceDev) (req : TpceDmaRequest) (fileCtx : Option Nat) : Int :=
  if h : req.params.channel.toNat < 3 then
    match xaLoad dev req.id with
    | none => -Errno.einval
    | some mapInfo =>
        if mapInfo.owner ≠ none ∧ mapInfo.owner ≠ fileCtx then -Errno.einval
        else if mapInfo.direction ≠ tpceDmaBidirectional ∧ req.params.direction ≠ mapInfo.direction then
          -Errno.einval
        else if (dev.dmaInfo ⟨req.params.channel.toNat, h⟩).state ≠ .idle then -Errno.ebusy
        else if req.params.direction ≠ tpceDmaToDevice ∧ req.params.direction ≠ tpceDmaFromDevice then
          -Errno.einval
        else if req.descriptors ≠ 0 ∧ req.descriptorsSize > tpceMaxDescriptorsSize then -Errno.emsgsize
        else if req.descriptors ≠ 0 ∧ req.descriptorsType ≠ tpceMsgdmaPrefetchExtendedDesc then
          -Errno.einval
        else if req.descriptors ≠ 0 ∧ req.descriptorsSize % descriptorSize ≠ 0 then -Errno.einval
        else 0
  else -Errno.einval

/-- What a call returns, or that the caller now waits for the completion. -/
inductive Outcome
  | returned (status : Int)
  | waits
  deriving DecidableEq, Repr

/-- `dma_execute` as far as the wait for a default transfer. -/
def dmaExecute (env : InitEnv) (dev : TpceDev) (req : TpceDmaRequest) :
    Except Fault (Outcome × TpceDev) :=
  if h : req.params.channel.toNat < 3 then do
    let c : Channel := ⟨req.params.channel.toNat, h⟩
    let (err, dev) ← initDmaInfo env dev c req
    if err < 0 then pure (.returned err, dev)
    else
      let (err, dev) := dmaDispatch env dev c
      if err < 0 then do
        let dev ← resetDmaInfo dev c
        pure (.returned err, dev)
      else if (dev.dmaInfo c).params.transferMode = tpceDmaModeStream then pure (.returned 0, dev)
      else pure (.waits, { dev with waiting := some c })
  else pure (.returned (-Errno.einval), dev)

/-- How `tpce_dma_wait_until_completed` ends. -/
inductive WaitEnd
  | completed
  | timeout
  | interrupted
  deriving DecidableEq, Repr

def WaitEnd.status : WaitEnd → Int
  | .completed => 0
  | .timeout => -Errno.etimedout
  | .interrupted => -Errno.erestartsys

/-- The rest of `dma_execute` behind the wait. -/
def finishWait (dev : TpceDev) (c : Channel) (w : WaitEnd) : Except Fault (Outcome × TpceDev) := do
  let dev ← resetDmaInfo { dev with waiting := none } c
  pure (.returned w.status, dev)

def iocDmaExecute (env : InitEnv) (dev : TpceDev) (file : Nat) (req : TpceDmaRequest) :
    Except Fault (Outcome × TpceDev) :=
  let err := validateDmaRequest dev req (some file)
  if err ≠ 0 then pure (.returned err, dev) else dmaExecute env dev req

/-- The arguments of `read_kernel_dma_buffer` -/
structure KernelRead where
  deviceAddr : U32
  bytesTotal : U32
  readStride : U16
  writeStride : U16
  channel : U8
  burstCount : U8

def KernelRead.request (r : KernelRead) (chInfo : TpceDmaChannelInfo) : TpceDmaRequest where
  id := tpceDmaDriverBufferId
  params :=
    { mapOffset := 0
      deviceAddr := r.deviceAddr
      bytesTotal := r.bytesTotal
      bytesPerDescriptor := 0
      readStride := if chInfo.maxStride ≠ 0 then r.readStride else 0
      writeStride := if chInfo.maxStride ≠ 0 then r.writeStride else 0
      channel := r.channel
      transferMode := tpceDmaModeDefault
      direction := tpceDmaFromDevice
      interruptInterval := 0
      burstCount := if chInfo.maxBurst ≠ 0 then r.burstCount else 0 }
  descriptors := 0
  descriptorsSize := 0
  descriptorsType := 0

def readKernelDmaBuffer (env : InitEnv) (dev : TpceDev) (r : KernelRead) :
    Except Fault (Outcome × TpceDev) :=
  if r.channel.toNat ≥ tpceDmaNumChannels then pure (.returned (-Errno.einval), dev)
  else if r.bytesTotal > tpceDmaDriverBufferSize then pure (.returned (-Errno.einval), dev)
  else do
    let chInfo ← channelInfo r.channel
    let req := r.request chInfo
    let err := validateDmaRequest dev req none
    if err ≠ 0 then pure (.returned err, dev) else dmaExecute env dev req

/-- Whether a channel has the mapping in use for a transfer. -/
def inUse (dev : TpceDev) (obj : Nat) : Bool :=
  (List.finRange 3).any fun c =>
    (dev.dmaInfo c).mapInfo = some obj &&
      ((dev.dmaInfo c).state = .initialized || (dev.dmaInfo c).state = .running)

/-- Erases the mapping from the table and frees it. A driver buffer goes the
same way. -/
def tpceDmaUnlockUserBuffer (dev : TpceDev) (obj : Nat) : Except Fault TpceDev := do
  let mapInfo ← dev.mapInfo obj
  pure { dev with
    dmaMappings := Function.update dev.dmaMappings mapInfo.id none
    mapInfos := Function.update dev.mapInfos obj none
    unmappedInUse := dev.unmappedInUse || inUse dev obj }

def tpceSafeDmaUnmap (dev : TpceDev) (obj : Nat) : Except Fault TpceDev := do
  let mapInfo ← dev.mapInfo obj
  let dev ←
    (if mappingIsBusy mapInfo then do
      let c ← channelOf mapInfo.activeChannel
      resetDmaInfo (tpceDmaAbort dev c) c
    else pure dev)
  tpceDmaUnlockUserBuffer dev obj

def listDel (dev : TpceDev) (file obj : Nat) : TpceDev :=
  { dev with
    dmaMapSublist := Function.update dev.dmaMapSublist file ((dev.dmaMapSublist file).erase obj) }

def iocUnlockDmaBuffer (dev : TpceDev) (file : Nat) (id : U32) : Except Fault (Outcome × TpceDev) :=
  match dev.dmaMappings id with
  | none => pure (.returned (-Errno.einval), dev)
  | some obj => do
      let mapInfo ← dev.mapInfo obj
      if mapInfo.owner ≠ some file then pure (.returned (-Errno.eperm), dev)
      else do
        let dev ← tpceSafeDmaUnmap (listDel dev file obj) obj
        pure (.returned 0, dev)

structure TpceDmaBufIn where
  buf : U64
  size : U32
  ranges : U64
  rangesSize : U32
  direction : U8

/-- The results of the kernel calls that lock a buffer. -/
structure LockEnv where
  kvzallocOk : Bool
  pagesPinned : Int
  sgAlloc : Int
  dmaMap : Int
  sgt : SgTable
  rangesAllocOk : Bool
  copyOk : Bool
  xaAllocOk : Bool

/-- A pointer, an error pointer or NULL -/
inductive MapPtr
  | ptr (obj : Nat)
  | err (e : Int)
  | null
  deriving DecidableEq, Repr

/-- `sizeof(tpce_dma_range)` -/
def rangeStructSize : U32 := 16#32

def copyDmaPageInfo (env : LockEnv) (bufferInfo : TpceDmaBufIn) : Int :=
  if bufferInfo.ranges = 0 then 0
  else if env.sgt.nents > (bufferInfo.rangesSize / rangeStructSize).toNat then -Errno.enobufs
  else if !env.rangesAllocOk then -Errno.enomem
  else if !env.copyOk then -Errno.efault
  else 0

/-- The lowest free id that `xa_alloc` finds between 1 and
`TPCE_DMA_MAP_ID_MAX`. -/
def xaFreeId (dev : TpceDev) : Option U32 :=
  ((List.range' 1 tpceDmaMapIdMax).map (BitVec.ofNat 32)).find? fun id => dev.dmaMappings id = none

def numPages (bufferInfo : TpceDmaBufIn) : Nat :=
  let pageOffset : U32 := (bufferInfo.buf &&& 0xfff#64).setWidth 32
  ((pageOffset + bufferInfo.size).toNat + pageSize - 1) / pageSize

def lockedMapInfo (env : LockEnv) (dev : TpceDev) (bufferInfo : TpceDmaBufIn) (id : U32) :
    TpceDmaMapInfo where
  obj := dev.nextObj
  owner := none
  bufUsr := bufferInfo.buf ≠ 0
  id := id
  size := bufferInfo.size
  numPages := BitVec.ofInt 32 env.pagesPinned
  direction := bufferInfo.direction
  activeChannel := tpceMapInactive
  sgt := env.sgt

/-- A failing step releases what the steps before it have acquired. The error
pointer of a failed table is never set. -/
def tpceDmaLockUserBuffer (env : LockEnv) (dev : TpceDev) (bufferInfo : TpceDmaBufIn) :
    MapPtr × TpceDev :=
  if bufferInfo.size % tpceCachelineSize ≠ 0 then (.err (-Errno.einval), dev)
  else if !env.kvzallocOk then (.err (-Errno.enomem), dev)
  else if env.pagesPinned < 0 then (.err env.pagesPinned, dev)
  else if env.pagesPinned < numPages bufferInfo then (.err (-Errno.efault), dev)
  else if env.sgAlloc ≠ 0 then (.null, dev)
  else if env.dmaMap ≠ 0 then (.err env.dmaMap, dev)
  else if copyDmaPageInfo env bufferInfo < 0 then (.err (copyDmaPageInfo env bufferInfo), dev)
  else
    match xaFreeId dev, env.xaAllocOk with
    | none, _ => (.err (-Errno.ebusy), dev)
    | some _, false => (.err (-Errno.enomem), dev)
    | some id, true =>
        (.ptr dev.nextObj, { dev.setMapInfo dev.nextObj (lockedMapInfo env dev bufferInfo id) with
          dmaMappings := Function.update dev.dmaMappings id (some dev.nextObj)
          nextObj := dev.nextObj + 1 })

def iocLockDmaBuffer (env : LockEnv) (dev : TpceDev) (file : Nat) (bufferInfo : TpceDmaBufIn) :
    Except Fault (Outcome × TpceDev) :=
  match tpceDmaLockUserBuffer env dev bufferInfo with
  | (.err e, dev) => pure (.returned e, dev)
  | (.null, _) => .error .nullPointer
  | (.ptr obj, dev) => do
      let mapInfo ← dev.mapInfo obj
      pure (.returned 0, { dev.setMapInfo obj { mapInfo with owner := some file } with
        dmaMapSublist := Function.update dev.dmaMapSublist file (dev.dmaMapSublist file ++ [obj]) })

def iocDmaCancel (dev : TpceDev) (channel : U32) : Except Fault (Outcome × TpceDev) :=
  if h : channel.toNat < 3 then do
    let c : Channel := ⟨channel.toNat, h⟩
    let dev ← resetDmaInfo (tpceDmaAbort dev c) c
    pure (.returned 0, dev)
  else pure (.returned (-Errno.einval), dev)

/-- The loop of `tpce_release` over the mappings of the file. -/
def releaseMappings (file : Nat) : TpceDev → List Nat → Except Fault TpceDev
  | dev, [] => pure dev
  | dev, obj :: rest => do
      let dev ← tpceSafeDmaUnmap (listDel dev file obj) obj
      releaseMappings file dev rest

def tpceRelease (dev : TpceDev) (file : Nat) : Except Fault (Outcome × TpceDev) := do
  let dev ← releaseMappings file dev (dev.dmaMapSublist file)
  pure (.returned 0, { dev with files := dev.files.erase file })

structure MmapEnv where
  killed : Bool
  vmallocOk : Bool
  remap : Int

/-- The reference that a mapping of the stream page takes -/
def mmapStreamInfo (vmallocOk : Bool) (info : TpceDmaInfo) : Int × TpceDmaInfo :=
  match info.streamInfo.state with
  | none => tpceInitStreamInfo vmallocOk info
  | some _ => (0, incStreamRefs info)

/-- `tpce_mmap` at the stream offset of a channel, with a size of one page. Two
of its error paths return without unlocking `tpce->mutex`. -/
def tpceMmap (env : MmapEnv) (dev : TpceDev) (c : Channel) : Outcome × TpceDev :=
  if env.killed then (.returned (-Errno.eintr), dev)
  else if dev.goingAway then (.returned (-Errno.enodev), { dev with mutexLeaked := true })
  else
    let (err, info) := mmapStreamInfo env.vmallocOk (dev.dmaInfo c)
    if err ≠ 0 then (.returned err, { dev.setInfo c info with mutexLeaked := true })
    else if env.remap ≠ 0 then (.returned env.remap, dev.setInfo c (tpceFreeStreamInfo info))
    else (.returned 0, { dev.setInfo c info with vmas := Function.update dev.vmas c (dev.vmas c + 1) })

def vmaStreamInfoOpen (dev : TpceDev) (c : Channel) : TpceDev :=
  { dev.setInfo c (incStreamRefs (dev.dmaInfo c)) with
    vmas := Function.update dev.vmas c (dev.vmas c + 1) }

def vmaStreamInfoClose (dev : TpceDev) (c : Channel) : TpceDev :=
  { dev.setInfo c (tpceFreeStreamInfo (dev.dmaInfo c)) with
    vmas := Function.update dev.vmas c (dev.vmas c - 1) }

def freeDescriptorsMem (info : TpceDmaInfo) : TpceDmaInfo :=
  { info with
    desc := [], descDma := [], descBusAddr := 0, descBusAddrTranslated := 0, descSize := 0
    descCapacity := 0 }

/-- `tpce_dma_free_descriptors_mem` -/
def tpceDmaFreeDescriptorsMem (dev : TpceDev) (c : Channel) : TpceDev :=
  let dev := if (dev.dmaInfo c).state = .running then tpceDmaAbort dev c else dev
  dev.setInfo c (freeDescriptorsMem (dev.dmaInfo c))

def resetChannels : TpceDev → List Channel → Except Fault TpceDev
  | dev, [] => pure dev
  | dev, c :: rest => do
      let dev ← resetDmaInfo dev c
      resetChannels dev rest

/-- `if (entry->owner) list_del(&entry->file_ctx_node)` -/
def listDelOwner (dev : TpceDev) (mapInfo : TpceDmaMapInfo) (obj : Nat) : TpceDev :=
  match mapInfo.owner with
  | some file => listDel dev file obj
  | none => dev

/-- The loop of `tpce_dma_free` over the registered mappings. -/
def freeMappings : TpceDev → List U32 → Except Fault TpceDev
  | dev, [] => pure dev
  | dev, id :: rest =>
      match dev.dmaMappings id with
      | none => freeMappings dev rest
      | some obj => do
          let mapInfo ← dev.mapInfo obj
          let dev ← tpceDmaUnlockUserBuffer (listDelOwner dev mapInfo obj) obj
          freeMappings dev rest

/-- `tpce_dma_free`; ids above `TPCE_DMA_MAP_ID_MAX` are never given out. -/
def tpceDmaFree (dev : TpceDev) : Except Fault TpceDev := do
  let dev ← freeMappings dev ((List.range (tpceDmaMapIdMax + 1)).map (BitVec.ofNat 32))
  pure ((List.finRange 3).foldl tpceDmaFreeDescriptorsMem dev)

/-- `tpce_device_remove` behind the point where the interrupts are off and
`going_away` is set. -/
def finishRemove (dev : TpceDev) : Except Fault (Outcome × TpceDev) := do
  let dev ← resetChannels dev (List.finRange 3)
  let dev ← tpceDmaFree dev
  pure (.returned 0, dev)

end TpceDrv.Requests
