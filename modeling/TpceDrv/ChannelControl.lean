import TpceDrv.Device
import TpceDrv.DescriptorCheck
import TpceDrv.Generation
import TpceDrv.Translation

namespace TpceDrv.ChannelControl

open Descriptor DmaParams DmaInfo Mapping PageTable Device DescriptorCheck Generation Translation

/-- What the environment answers while a request is set up: the allocations,
the user memory behind `req->descriptors` and whether it can be copied, and
what the uninitialised `slot` of the translation holds. -/
structure InitEnv where
  kvzallocOk : Bool
  dmaAllocCoherent : Option U64
  copyOk : Bool
  userDesc : Nat → TpceDmaDescriptor
  vmallocOk : Bool
  slot : Int

def InitEnv.granted : InitEnv := ⟨true, some 0x200000#64, true, fun _ => {}, true, 0⟩

def tpceDmaHasTerminatingDescriptor (params : TpceDmaTransferParams) : Bool :=
  params.transferMode ≠ tpceDmaModeStream

def tpceDmaAllocDescriptorsMem (env : InitEnv) (info : TpceDmaInfo) (size : U32) : Int × TpceDmaInfo :=
  if size = 0 ∨ size.toNat > 2 ^ 31 - 1 then (-Errno.einval, info)
  else if size ≤ info.descCapacity then (0, { info with descSize := size })
  else
    let info :=
      if info.descDma.isEmpty then info
      else { info with
        desc := [], descDma := [], descBusAddr := 0, descBusAddrTranslated := 0, descSize := 0
        descCapacity := 0 }
    let buffer := List.replicate (size / descriptorSize).toNat default
    match env.kvzallocOk, env.dmaAllocCoherent with
    | true, some newBusAddr =>
        (0, { info with
          desc := buffer, descDma := buffer, descBusAddr := newBusAddr, descBusAddrTranslated := 0
          descSize := size, descCapacity := size })
    | _, _ => (-Errno.enomem, info)

/-- The branch of `init_dma_info` for descriptors from user space -/
def takeUserDesc (env : InitEnv) (mapInfo : TpceDmaMapInfo) (req : TpceDmaRequest)
    (info : TpceDmaInfo) : Int × TpceDmaInfo :=
  if !env.copyOk then (-Errno.eio, info)
  else
    let ndesc := (req.descriptorsSize / descriptorSize).toNat
    let info := { info with desc := (List.range ndesc).map env.userDesc ++ info.desc.drop ndesc }
    let checkReadAddr := req.params.direction = tpceDmaToDevice
    if tpceValidateDescMem mapInfo info.desc ndesc checkReadAddr ≠ 0 then (-Errno.einval, info)
    else (0, { info with descActive := req.descriptorsSize })

/-- The branch of `init_dma_info` that generates the descriptors -/
def generateDesc (mapInfo : TpceDmaMapInfo) (params : TpceDmaTransferParams) (descAllocSize : U32)
    (info : TpceDmaInfo) : Except Fault (Int × TpceDmaInfo) := do
  let err ← tpceValidateDmaParams params mapInfo
  if err > 0 then pure (-Errno.einval, info)
  else if err = -tpceErrInvalidChn then pure (-Errno.einval, info)
  else if err < 0 then pure (-Errno.eio, info)
  else
    let (ret, desc) ← tpceGenerateDescriptors params mapInfo info.desc (descAllocSize / descriptorSize)
    let info := { info with desc := desc }
    if ret < 0 then pure (-Errno.einval, info)
    else
      let count := BitVec.ofInt 32 ret
      let descSize := if tpceDmaHasTerminatingDescriptor params then (count + 1) * descriptorSize
        else count * descriptorSize
      pure (0, { info with descSize := descSize, descActive := count * descriptorSize })

def descAllocSize (req : TpceDmaRequest) : U32 :=
  if req.descriptors ≠ 0 then req.descriptorsSize
  else tpceMaxDescriptorsNeeded req.params * descriptorSize

/-- `memcpy(desc_dma, desc, desc_size)` -/
def copyToDma (info : TpceDmaInfo) : Except Fault TpceDmaInfo :=
  let n := (info.descSize / descriptorSize).toNat
  if info.descSize > info.descCapacity then
    .error (.bufferOverflow info.descSize.toNat info.descCapacity.toNat)
  else .ok { info with descDma := info.desc.take n ++ info.descDma.drop n }

/-- Everything in `init_dma_info` up to the stream data -/
def prepareDesc (env : InitEnv) (mapInfo : TpceDmaMapInfo) (req : TpceDmaRequest)
    (info : TpceDmaInfo) : Except Fault (Int × TpceDmaInfo) := do
  let size := if tpceDmaHasTerminatingDescriptor req.params then descAllocSize req + descriptorSize
    else descAllocSize req
  let (err, info) := tpceDmaAllocDescriptorsMem env info size
  if err ≠ 0 then pure (err, info)
  else
    let (err, info) ←
      (if req.descriptors ≠ 0 then pure (takeUserDesc env mapInfo req info)
      else generateDesc mapInfo req.params (descAllocSize req) info)
    if err ≠ 0 then pure (err, info)
    else
      let info ← copyToDma info
      pure (0, info)

/-- `init_dma_info` for the channel that the request names. -/
def initDmaInfo (env : InitEnv) (dev : TpceDev) (c : Channel) (req : TpceDmaRequest) :
    Except Fault (Int × TpceDev) := do
  match dev.dmaMappings req.id with
  | none => pure (-Errno.eio, dev)
  | some obj =>
      let mapInfo ← dev.mapInfo obj
      let (err, info) ← prepareDesc env mapInfo req (dev.dmaInfo c)
      if err ≠ 0 then pure (err, dev.setInfo c info)
      else
        let (err, info) :=
          if req.params.transferMode = tpceDmaModeStream then tpceInitStreamInfo env.vmallocOk info
          else (0, info)
        if err ≠ 0 then pure (err, dev.setInfo c info)
        else
          let info := { info with params := req.params, mapInfo := some obj, state := .initialized }
          pure (c.val, (dev.setInfo c info).setMapInfo obj { mapInfo with activeChannel := c.val })

/-- The controller registers are left out. -/
def tpceDmaAbort (dev : TpceDev) (c : Channel) : TpceDev :=
  let dev := disableStreamIrq dev c
  let info := dev.dmaInfo c
  if info.state ≠ .running then dev else dev.setInfo c { info with state := .error }

/-- `if (info->map_info)` of `reset_dma_info` -/
def releaseMapInfo (dev : TpceDev) (c : Channel) : Except Fault TpceDev :=
  let info := dev.dmaInfo c
  match info.mapInfo with
  | none => pure dev
  | some obj => do
      let mapInfo ← dev.mapInfo obj
      pure ((dev.setMapInfo obj { mapInfo with activeChannel := tpceMapInactive }).setInfo c
        { info with mapInfo := none })

def resetDmaInfo (dev : TpceDev) (c : Channel) : Except Fault TpceDev :=
  let state := (dev.dmaInfo c).state
  if state = .idle then pure dev
  else do
    let dev := if state = .running then tpceDmaAbort dev c else dev
    let dev := { dev with pageTable := pciePageFreeByChannelId dev.pageTable c.id }
    let dev ← releaseMapInfo dev c
    let info := dev.dmaInfo c
    let info := if info.params.transferMode = tpceDmaModeStream then tpceFreeStreamInfo info else info
    pure (dev.setInfo c { info with descSize := 0, state := .idle })

def setNextDescPtr (desc : TpceDmaDescriptor) (val : U64) : TpceDmaDescriptor :=
  { desc with nextDescPtrLow := val.setWidth 32, nextDescPtrHigh := (val >>> 32).setWidth 32 }

def linkDesc (desc : TpceDmaDescriptor) (next : U32) : TpceDmaDescriptor :=
  orControl (setNextDescPtr desc (next.setWidth 64)) ownByHwSetMask

/-- `next` is the address behind `desc_bus_addr_translated` that the i-th
descriptor points to. Without any descriptor the source writes in front of the
buffer, and the model drops that write. -/
def buildDescriptorLinks (info : TpceDmaInfo) : TpceDmaInfo :=
  let numDescriptors := (info.descSize / descriptorSize).toNat
  let link := fun (i : Nat) (desc : TpceDmaDescriptor) =>
    let next := info.descBusAddrTranslated + descriptorSize * BitVec.ofNat 32 (i + 1)
    if i + 1 < numDescriptors then linkDesc desc next
    else if i + 1 = numDescriptors then
      if info.params.transferMode = tpceDmaModeStream then linkDesc desc info.descBusAddrTranslated
      else default
    else desc
  { info with descDma := info.descDma.mapIdx link }

/-- The controller registers are left out. -/
def dmaStart (env : InitEnv) (dev : TpceDev) (c : Channel) : Int × TpceDev :=
  let info := dev.dmaInfo c
  if info.state ≠ .initialized then (-Errno.efault, dev)
  else
    let (ret, table, info) := translateDescriptorLinkAddr dev.pageTable info
    if ret < 0 then (ret, { dev with pageTable := table })
    else
      let (ret, table, info) := translateDescriptorRwAddr env.slot table info
      if ret < 0 then
        (ret, { dev with pageTable := pciePageFreeByChannelId table info.params.channel }.setInfo c
          { info with state := .error })
      else (0, { dev with pageTable := table }.setInfo c (buildDescriptorLinks info))

def setRunning (dev : TpceDev) (c : Channel) : TpceDev :=
  dev.setInfo c { dev.dmaInfo c with state := .running }

def tpceDmaStart (env : InitEnv) (dev : TpceDev) (c : Channel) : Int × TpceDev :=
  let (ret, dev) := dmaStart env dev c
  if ret ≠ 0 then (ret, dev) else (0, setRunning dev c)

def tpceDmaStreamStart (env : InitEnv) (dev : TpceDev) (c : Channel) : Int × TpceDev :=
  let (ret, dev) := dmaStart env (enableStreamIrq dev c) c
  if ret ≠ 0 then (ret, dev) else (0, setRunning dev c)

def dmaDispatch (env : InitEnv) (dev : TpceDev) (c : Channel) : Int × TpceDev :=
  let mode := (dev.dmaInfo c).params.transferMode
  if mode = tpceDmaModeDefault then tpceDmaStart env dev c
  else if mode = tpceDmaModeStream then tpceDmaStreamStart env dev c
  else (-Errno.einval, dev)

/-- The access is to the mapping's table, for the cache. -/
def tpceDmaSyncForCpu (dev : TpceDev) (obj : Nat) : Except Fault Unit := do
  let _ ← dev.mapInfo obj

def tpceDmaCompletion (dev : TpceDev) (c : Channel) : Except Fault TpceDev :=
  let info := dev.dmaInfo c
  if info.params.transferMode = tpceDmaModeStream then pure dev
  else if info.state = .running then do
    match info.mapInfo with
    | some obj => if info.params.direction = tpceDmaFromDevice then tpceDmaSyncForCpu dev obj
    | none => pure ()
    pure (dev.setInfo c { info with state := .complete })
  else pure dev

end TpceDrv.ChannelControl
