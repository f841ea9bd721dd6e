import TpceDrv.Controller
import TpceDrv.PageTableFaults
import TpceDrv.Resources

namespace TpceDrv.Ownership

open Descriptor DmaParams DmaInfo Mapping PageTable Device ChannelControl Requests Driver Resources
open LockUserBuffer Library.Holdings Library.Traces

variable {ε : Type}

/-- `kvfree` of the buffer of a channel, which may be NULL -/
def freeDesc (c : Channel) (info : TpceDmaInfo) : Owning ε Unit :=
  if info.desc.isEmpty then pure () else emit (.release (.desc c))

def freeDescDma (c : Channel) (info : TpceDmaInfo) : Owning ε Unit :=
  if info.descDma.isEmpty then pure () else emit (.release (.descDma c))

/-- Both buffers of a channel go, the coherent one first. -/
def freeBuffers (c : Channel) (info : TpceDmaInfo) : Owning ε Unit := do
  freeDescDma c info
  freeDesc c info

def tpceDmaAllocDescriptorsMem (env : InitEnv) (c : Channel) (info : TpceDmaInfo) (size : U32) :
    Owning ε (ℤ × TpceDmaInfo) :=
  if size = 0 ∨ size.toNat > 2 ^ 31 - 1 then pure (-Errno.einval, info)
  else if size ≤ info.descCapacity then pure (0, { info with descSize := size })
  else do
    let info ←
      (if info.descDma.isEmpty then pure info
      else do
        freeBuffers c info
        pure (freeDescriptorsMem info))
    let buffer := List.replicate (size / descriptorSize).toNat default
    if !env.kvzallocOk then pure (-Errno.enomem, info)
    else do
      emit (.acquire (.desc c))
      match env.dmaAllocCoherent with
      | none => do
          emit (.release (.desc c))
          pure (-Errno.enomem, info)
      | some newBusAddr => do
          emit (.acquire (.descDma c))
          pure (0, { info with
            desc := buffer, descDma := buffer, descBusAddr := newBusAddr, descBusAddrTranslated := 0
            descSize := size, descCapacity := size })

def tpceInitStreamInfo (vmallocOk : Bool) (c : Channel) (info : TpceDmaInfo) : Owning ε (ℤ × TpceDmaInfo) := do
  if info.streamInfo.state = none ∧ vmallocOk then emit (.acquire (.streamState c)) else pure ()
  pure (Device.tpceInitStreamInfo vmallocOk info)

/-- The page may already be NULL where the last reference goes. -/
def tpceFreeStreamInfo (c : Channel) (info : TpceDmaInfo) : Owning ε TpceDmaInfo := do
  if (refcountDecAndTest info.streamInfo.stateRefs).2 ∧ info.streamInfo.state ≠ none then
    emit (.release (.streamState c))
  else pure ()
  pure (Device.tpceFreeStreamInfo info)

/-- Everything in `init_dma_info` up to the stream data -/
def prepareDesc (env : InitEnv) (mapInfo : TpceDmaMapInfo) (req : TpceDmaRequest) (c : Channel) (info : TpceDmaInfo) :
    Owning Fault (ℤ × TpceDmaInfo) := do
  let size := if tpceDmaHasTerminatingDescriptor req.params then descAllocSize req + descriptorSize
    else descAllocSize req
  let (err, info) ← tpceDmaAllocDescriptorsMem env c info size
  if err ≠ 0 then pure (err, info)
  else lift do
    let (err, info) ←
      (if req.descriptors ≠ 0 then pure (takeUserDesc env mapInfo req info)
      else generateDesc mapInfo req.params (descAllocSize req) info)
    if err ≠ 0 then pure (err, info)
    else
      let info ← copyToDma info
      pure (0, info)

def initDmaInfo (env : InitEnv) (dev : TpceDev) (c : Channel) (req : TpceDmaRequest) : Owning Fault (ℤ × TpceDev) :=
  match dev.dmaMappings req.id with
  | none => pure (-Errno.eio, dev)
  | some obj => do
      let mapInfo ← lift (dev.mapInfo obj)
      let (err, info) ← prepareDesc env mapInfo req c (dev.dmaInfo c)
      if err ≠ 0 then pure (err, dev.setInfo c info)
      else do
        let (err, info) ←
          (if req.params.transferMode = tpceDmaModeStream then tpceInitStreamInfo env.vmallocOk c info
          else pure (0, info))
        if err ≠ 0 then pure (err, dev.setInfo c info)
        else
          let info := { info with params := req.params, mapInfo := some obj, state := .initialized }
          pure (c.val, (dev.setInfo c info).setMapInfo obj { mapInfo with activeChannel := c.val })

def resetDmaInfo (dev : TpceDev) (c : Channel) : Owning Fault TpceDev :=
  let state := (dev.dmaInfo c).state
  if state = .idle then pure dev
  else do
    let dev := if state = .running then tpceDmaAbort dev c else dev
    let dev := { dev with pageTable := pciePageFreeByChannelId dev.pageTable c.id }
    let dev ← lift (releaseMapInfo dev c)
    let info := dev.dmaInfo c
    let info ← (if info.params.transferMode = tpceDmaModeStream then tpceFreeStreamInfo c info else pure info)
    pure (dev.setInfo c { info with descSize := 0, state := .idle })

/-- A store outside the page table ends the request. -/
def dmaExecute (env : InitEnv) (dev : TpceDev) (req : TpceDmaRequest) : Owning Fault (Outcome × TpceDev) :=
  if h : req.params.channel.toNat < 3 then do
    let c : Channel := ⟨req.params.channel.toNat, h⟩
    let (err, dev) ← initDmaInfo env dev c req
    if err < 0 then pure (.returned err, dev)
    else do
      let (err, dev) ← lift (PageTableFaults.dmaDispatch env dev c)
      if err < 0 then do
        let dev ← resetDmaInfo dev c
        pure (.returned err, dev)
      else if (dev.dmaInfo c).params.transferMode = tpceDmaModeStream then pure (.returned 0, dev)
      else pure (.waits, { dev with waiting := some c })
  else pure (.returned (-Errno.einval), dev)

def finishWait (dev : TpceDev) (c : Channel) (w : WaitEnd) : Owning Fault (Outcome × TpceDev) := do
  let dev ← resetDmaInfo { dev with waiting := none } c
  pure (.returned w.status, dev)

def iocDmaExecute (env : InitEnv) (dev : TpceDev) (file : ℕ) (req : TpceDmaRequest) :
    Owning Fault (Outcome × TpceDev) :=
  let err := validateDmaRequest dev req (some file)
  if err ≠ 0 then pure (.returned err, dev) else dmaExecute env dev req

def readKernelDmaBuffer (env : InitEnv) (dev : TpceDev) (r : KernelRead) : Owning Fault (Outcome × TpceDev) :=
  if r.channel.toNat ≥ tpceDmaNumChannels then pure (.returned (-Errno.einval), dev)
  else if r.bytesTotal > tpceDmaDriverBufferSize then pure (.returned (-Errno.einval), dev)
  else do
    let chInfo ← lift (channelInfo r.channel)
    let req := r.request chInfo
    let err := validateDmaRequest dev req none
    if err ≠ 0 then pure (.returned err, dev) else dmaExecute env dev req

def tpceSafeDmaUnmap (dev : TpceDev) (obj : ℕ) : Owning Fault TpceDev := do
  let mapInfo ← lift (dev.mapInfo obj)
  let dev ←
    (if mappingIsBusy mapInfo then do
      let c ← lift (channelOf mapInfo.activeChannel)
      resetDmaInfo (tpceDmaAbort dev c) c
    else pure dev)
  Resources.tpceDmaUnlockUserBuffer dev obj

def iocUnlockDmaBuffer (dev : TpceDev) (file : ℕ) (id : U32) : Owning Fault (Outcome × TpceDev) :=
  match dev.dmaMappings id with
  | none => pure (.returned (-Errno.einval), dev)
  | some obj => do
      let mapInfo ← lift (dev.mapInfo obj)
      if mapInfo.owner ≠ some file then pure (.returned (-Errno.eperm), dev)
      else do
        let dev ← tpceSafeDmaUnmap (listDel dev file obj) obj
        pure (.returned 0, dev)

/-- The parts of the mapping that is made belong to the next structure. -/
def tpceDmaLockUserBuffer (env : LockEnv) (dev : TpceDev) (bufferInfo : TpceDmaBufIn) :
    Owning Fault (MapPtr × TpceDev) :=
  retag (.map fun r => .mapping dev.nextObj (.locked r)) (LockUserBuffer.tpceDmaLockUserBuffer env dev bufferInfo)

def iocLockDmaBuffer (env : LockEnv) (dev : TpceDev) (file : ℕ) (bufferInfo : TpceDmaBufIn) :
    Owning Fault (Outcome × TpceDev) := do
  let (ptr, dev) ← tpceDmaLockUserBuffer env dev bufferInfo
  match ptr with
  | .err e => pure (.returned e, dev)
  | .null => lift (.error .nullPointer)
  | .ptr obj => do
      let mapInfo ← lift (dev.mapInfo obj)
      pure (.returned 0, { dev.setMapInfo obj { mapInfo with owner := some file } with
        dmaMapSublist := Function.update dev.dmaMapSublist file (dev.dmaMapSublist file ++ [obj]) })

def iocDmaCancel (dev : TpceDev) (channel : U32) : Owning Fault (Outcome × TpceDev) :=
  if h : channel.toNat < 3 then do
    let c : Channel := ⟨channel.toNat, h⟩
    let dev ← resetDmaInfo (tpceDmaAbort dev c) c
    pure (.returned 0, dev)
  else pure (.returned (-Errno.einval), dev)

def releaseMappings (file : ℕ) : TpceDev → List ℕ → Owning Fault TpceDev
  | dev, [] => pure dev
  | dev, obj :: rest => do
      let dev ← tpceSafeDmaUnmap (listDel dev file obj) obj
      releaseMappings file dev rest

def tpceRelease (dev : TpceDev) (file : ℕ) : Owning Fault (Outcome × TpceDev) := do
  let dev ← releaseMappings file dev (dev.dmaMapSublist file)
  pure (.returned 0, { dev with files := dev.files.erase file })

def mmapStreamInfo (vmallocOk : Bool) (c : Channel) (info : TpceDmaInfo) : Owning ε (ℤ × TpceDmaInfo) :=
  match info.streamInfo.state with
  | none => tpceInitStreamInfo vmallocOk c info
  | some _ => pure (0, incStreamRefs info)

def tpceMmap (env : MmapEnv) (dev : TpceDev) (c : Channel) : Owning ε (Outcome × TpceDev) :=
  if env.killed then pure (.returned (-Errno.eintr), dev)
  else if dev.goingAway then pure (.returned (-Errno.enodev), { dev with mutexLeaked := true })
  else do
    let (err, info) ← mmapStreamInfo env.vmallocOk c (dev.dmaInfo c)
    if err ≠ 0 then pure (.returned err, { dev.setInfo c info with mutexLeaked := true })
    else if env.remap ≠ 0 then do
      let info ← tpceFreeStreamInfo c info
      pure (.returned env.remap, dev.setInfo c info)
    else pure (.returned 0, { dev.setInfo c info with vmas := Function.update dev.vmas c (dev.vmas c + 1) })

def vmaStreamInfoClose (dev : TpceDev) (c : Channel) : Owning ε TpceDev := do
  let info ← tpceFreeStreamInfo c (dev.dmaInfo c)
  pure { dev.setInfo c info with vmas := Function.update dev.vmas c (dev.vmas c - 1) }

def tpceDmaFreeDescriptorsMem (dev : TpceDev) (c : Channel) : Owning ε TpceDev := do
  let dev := if (dev.dmaInfo c).state = .running then tpceDmaAbort dev c else dev
  freeBuffers c (dev.dmaInfo c)
  pure (dev.setInfo c (freeDescriptorsMem (dev.dmaInfo c)))

def resetChannels : TpceDev → List Channel → Owning Fault TpceDev
  | dev, [] => pure dev
  | dev, c :: rest => do
      let dev ← resetDmaInfo dev c
      resetChannels dev rest

/-- The loop of `tpce_dma_free` over the registered mappings -/
def freeMappings : TpceDev → List U32 → Owning Fault TpceDev
  | dev, [] => pure dev
  | dev, id :: rest =>
      match dev.dmaMappings id with
      | none => freeMappings dev rest
      | some obj => do
          let mapInfo ← lift (dev.mapInfo obj)
          let dev ← tpceDmaFreeMapping (listDelOwner dev mapInfo obj) obj
          freeMappings dev rest

def freeDescriptors : TpceDev → List Channel → Owning ε TpceDev
  | dev, [] => pure dev
  | dev, c :: rest => do
      let dev ← tpceDmaFreeDescriptorsMem dev c
      freeDescriptors dev rest

def tpceDmaFree (dev : TpceDev) : Owning Fault TpceDev := do
  let dev ← freeMappings dev ((List.range (tpceDmaMapIdMax + 1)).map (BitVec.ofNat 32))
  freeDescriptors dev (List.finRange 3)

def finishRemove (dev : TpceDev) : Owning Fault (Outcome × TpceDev) := do
  let dev ← resetChannels dev (List.finRange 3)
  let dev ← tpceDmaFree dev
  pure (.returned 0, dev)

/-- The other calls acquire and give back nothing. -/
def perform (dev : TpceDev) (op : Op) : Owning Fault (Outcome × TpceDev) :=
  if op.ioctlFile.isSome && dev.goingAway then pure (.returned (-Errno.enodev), dev)
  else
    match op with
    | .lockBuffer file env bufferInfo => iocLockDmaBuffer env dev file bufferInfo
    | .unlockBuffer file id => iocUnlockDmaBuffer dev file id
    | .execute file env req => iocDmaExecute env dev file req
    | .kernelRead _ env r => readKernelDmaBuffer env dev r
    | .cancel _ channel => iocDmaCancel dev channel
    | .wake w =>
        match dev.waiting with
        | some c => finishWait dev c w
        | none => pure (.returned 0, dev)
    | .release file => tpceRelease dev file
    | .mmap _ env c => tpceMmap env dev c
    | .vmaClose c => do
        let dev ← vmaStreamInfoClose dev c
        pure (.returned 0, dev)
    | .remove => finishRemove dev
    | op => lift (Driver.perform dev op)

@[simp] theorem erase_freeBuffers (c : Channel) (info : TpceDmaInfo) :
    erase (freeBuffers c info : Owning ε Unit) = .ok () := by
  simp only [freeBuffers, freeDesc, freeDescDma, erase_bind, erase_ite, erase_emit, erase_pure]
  split
  · split
    · rfl
    · rfl
  · split
    · rfl
    · rfl

@[simp] theorem erase_allocDescriptorsMem (env : InitEnv) (c : Channel) (info : TpceDmaInfo) (size : U32) :
    erase (tpceDmaAllocDescriptorsMem env c info size : Owning ε _) =
      .ok (ChannelControl.tpceDmaAllocDescriptorsMem env info size) := by
  simp only [tpceDmaAllocDescriptorsMem, ChannelControl.tpceDmaAllocDescriptorsMem, erase_ite, erase_pure]
  by_cases hrange : size = 0 ∨ size.toNat > 2 ^ 31 - 1
  · rw [if_pos hrange, if_pos hrange]
    rfl
  rw [if_neg hrange, if_neg hrange]
  by_cases hfits : size ≤ info.descCapacity
  · rw [if_pos hfits, if_pos hfits]
    rfl
  rw [if_neg hfits, if_neg hfits, erase_bind, erase_ite]
  simp only [erase_bind, erase_freeBuffers, ok_bind, erase_pure, erase_ite, erase_emit]
  cases hempty : info.descDma.isEmpty <;> cases env.kvzallocOk <;> cases env.dmaAllocCoherent <;> rfl

@[simp] theorem erase_initStreamInfo (vmallocOk : Bool) (c : Channel) (info : TpceDmaInfo) :
    erase (tpceInitStreamInfo vmallocOk c info : Owning ε _) = .ok (Device.tpceInitStreamInfo vmallocOk info) := by
  simp only [tpceInitStreamInfo, erase_bind, erase_ite, erase_emit, erase_pure]
  split
  · rfl
  · rfl

@[simp] theorem erase_freeStreamInfo (c : Channel) (info : TpceDmaInfo) :
    erase (tpceFreeStreamInfo c info : Owning ε _) = .ok (Device.tpceFreeStreamInfo info) := by
  simp only [tpceFreeStreamInfo, erase_bind, erase_ite, erase_emit, erase_pure]
  split
  · rfl
  · rfl

@[simp] theorem erase_prepareDesc (env : InitEnv) (mapInfo : TpceDmaMapInfo) (req : TpceDmaRequest) (c : Channel)
    (info : TpceDmaInfo) :
    erase (prepareDesc env mapInfo req c info) = ChannelControl.prepareDesc env mapInfo req info := by
  simp only [prepareDesc, ChannelControl.prepareDesc, erase_bind, erase_allocDescriptorsMem, ok_bind, erase_ite,
    erase_pure, erase_lift]

@[simp] theorem erase_initDmaInfo (env : InitEnv) (dev : TpceDev) (c : Channel) (req : TpceDmaRequest) :
    erase (initDmaInfo env dev c req) = ChannelControl.initDmaInfo env dev c req := by
  simp only [initDmaInfo, ChannelControl.initDmaInfo]
  cases dev.dmaMappings req.id with
  | none => rfl
  | some obj =>
      simp only [erase_bind, erase_lift, erase_prepareDesc, erase_ite, erase_pure, erase_initStreamInfo]
      apply congrArg
      funext mapInfo
      apply congrArg
      funext r
      obtain ⟨err, info⟩ := r
      by_cases herr : err ≠ 0
      · simp only [if_pos herr]
      simp only [if_neg herr]
      by_cases hstream : req.params.transferMode = tpceDmaModeStream
      · simp only [if_pos hstream, ok_bind]
      · simp only [if_neg hstream]
        rfl

@[simp] theorem erase_resetDmaInfo (dev : TpceDev) (c : Channel) :
    erase (resetDmaInfo dev c) = ChannelControl.resetDmaInfo dev c := by
  simp only [resetDmaInfo, ChannelControl.resetDmaInfo, erase_ite, erase_pure, erase_bind, erase_lift,
    erase_freeStreamInfo]
  split
  · rfl
  apply congrArg
  funext dev'
  split
  · rfl
  · rfl

@[simp] theorem erase_dmaExecute (env : InitEnv) (dev : TpceDev) (req : TpceDmaRequest) :
    erase (dmaExecute env dev req) = PageTableFaults.dmaExecute env dev req := by
  simp only [dmaExecute, PageTableFaults.dmaExecute]
  split
  · simp only [erase_bind, erase_initDmaInfo, erase_ite, erase_pure, erase_lift, erase_resetDmaInfo]
  · rfl

@[simp] theorem erase_finishWait (dev : TpceDev) (c : Channel) (w : WaitEnd) :
    erase (finishWait dev c w) = Requests.finishWait dev c w := by
  simp only [finishWait, Requests.finishWait, erase_bind, erase_resetDmaInfo, erase_pure]

@[simp] theorem erase_safeDmaUnmap (dev : TpceDev) (obj : ℕ) :
    erase (tpceSafeDmaUnmap dev obj) = Requests.tpceSafeDmaUnmap dev obj := by
  simp only [tpceSafeDmaUnmap, Requests.tpceSafeDmaUnmap, erase_bind, erase_lift, erase_ite, erase_pure,
    erase_resetDmaInfo, erase_unlockUserBuffer]

theorem erase_unlockDmaBuffer (dev : TpceDev) (file : ℕ) (id : U32) :
    erase (iocUnlockDmaBuffer dev file id) = Requests.iocUnlockDmaBuffer dev file id := by
  simp only [iocUnlockDmaBuffer, Requests.iocUnlockDmaBuffer]
  cases dev.dmaMappings id with
  | none => rfl
  | some obj => simp only [erase_bind, erase_lift, erase_ite, erase_pure, erase_safeDmaUnmap]

theorem erase_lockDmaBuffer (env : LockEnv) (dev : TpceDev) (file : ℕ) (bufferInfo : TpceDmaBufIn) :
    erase (iocLockDmaBuffer env dev file bufferInfo) = Requests.iocLockDmaBuffer env dev file bufferInfo := by
  simp only [iocLockDmaBuffer, Requests.iocLockDmaBuffer, tpceDmaLockUserBuffer, erase_bind, erase_retag,
    LockUserBuffer.erase_lockUserBuffer, ok_bind]
  cases Requests.tpceDmaLockUserBuffer env dev bufferInfo with
  | mk ptr dev' =>
      cases ptr with
      | err e => rfl
      | null => rfl
      | ptr obj => simp only [erase_bind, erase_lift, erase_pure]

theorem erase_dmaCancel (dev : TpceDev) (channel : U32) :
    erase (iocDmaCancel dev channel) = Requests.iocDmaCancel dev channel := by
  simp only [iocDmaCancel, Requests.iocDmaCancel]
  split
  · simp only [erase_bind, erase_resetDmaInfo, erase_pure]
  · rfl

theorem erase_releaseMappings (file : ℕ) (dev : TpceDev) (objs : List ℕ) :
    erase (releaseMappings file dev objs) = Requests.releaseMappings file dev objs := by
  induction objs generalizing dev with
  | nil => rfl
  | cons obj objs ih => simp only [releaseMappings, Requests.releaseMappings, erase_bind, erase_safeDmaUnmap, ih]

theorem erase_mmap (env : MmapEnv) (dev : TpceDev) (c : Channel) :
    erase (tpceMmap env dev c : Owning ε _) = .ok (Requests.tpceMmap env dev c) := by
  have hstream : erase (mmapStreamInfo env.vmallocOk c (dev.dmaInfo c) : Owning ε _) =
      .ok (Requests.mmapStreamInfo env.vmallocOk (dev.dmaInfo c)) := by
    simp only [mmapStreamInfo, Requests.mmapStreamInfo]
    cases (dev.dmaInfo c).streamInfo.state with
    | none => exact erase_initStreamInfo _ _ _
    | some state => rfl
  simp only [tpceMmap, Requests.tpceMmap, erase_ite, erase_pure, erase_bind, hstream, ok_bind, erase_freeStreamInfo]
  split
  · rfl
  split
  · rfl
  split
  · rfl
  split
  · rfl
  · rfl

theorem erase_freeMappings (dev : TpceDev) (ids : List U32) :
    erase (freeMappings dev ids) = Requests.freeMappings dev ids := by
  induction ids generalizing dev with
  | nil => rfl
  | cons id ids ih =>
      simp only [freeMappings, Requests.freeMappings]
      cases dev.dmaMappings id with
      | none => exact ih dev
      | some obj => simp only [erase_bind, erase_lift, erase_freeMapping, ih]

theorem erase_freeDescriptors (dev : TpceDev) (cs : List Channel) :
    erase (freeDescriptors dev cs : Owning ε _) = .ok (cs.foldl Requests.tpceDmaFreeDescriptorsMem dev) := by
  induction cs generalizing dev with
  | nil => rfl
  | cons c cs ih =>
      simp only [freeDescriptors, tpceDmaFreeDescriptorsMem, erase_bind, erase_freeBuffers, ok_bind,
        erase_pure, pure_bind, ih, List.foldl_cons]
      rfl

theorem erase_resetChannels (dev : TpceDev) (cs : List Channel) :
    erase (resetChannels dev cs) = Requests.resetChannels dev cs := by
  induction cs generalizing dev with
  | nil => rfl
  | cons c cs ih => simp only [resetChannels, Requests.resetChannels, erase_bind, erase_resetDmaInfo, ih]

theorem erase_dmaFree (dev : TpceDev) : erase (tpceDmaFree dev) = Requests.tpceDmaFree dev := by
  simp only [tpceDmaFree, Requests.tpceDmaFree, erase_bind, erase_freeMappings, erase_freeDescriptors]
  rfl

theorem erase_finishRemove (dev : TpceDev) : erase (finishRemove dev) = Requests.finishRemove dev := by
  simp only [finishRemove, Requests.finishRemove, erase_bind, erase_resetChannels, erase_dmaFree, erase_pure]

/-- Without the trace this is the call of the driver's model. -/
theorem erase_perform (dev : TpceDev) (op : Op) : erase (perform dev op) = PageTableFaults.perform dev op := by
  cases op with
  | execute file env req =>
      simp only [perform, PageTableFaults.perform, iocDmaExecute, PageTableFaults.iocDmaExecute, erase_ite, erase_pure,
        erase_dmaExecute]
      rfl
  | kernelRead file env r =>
      simp only [perform, PageTableFaults.perform, readKernelDmaBuffer, PageTableFaults.readKernelDmaBuffer, erase_ite,
        erase_pure, erase_bind, erase_lift, erase_dmaExecute]
      rfl
  | lockBuffer file env bufferInfo =>
      rw [perform, erase_ite, erase_lockDmaBuffer]
      rfl
  | unlockBuffer file id =>
      rw [perform, erase_ite, erase_unlockDmaBuffer]
      rfl
  | cancel file channel =>
      rw [perform, erase_ite, erase_dmaCancel]
      rfl
  | wake w =>
      simp only [perform, PageTableFaults.perform, Driver.perform]
      cases hw : dev.waiting with
      | none => rfl
      | some c => exact erase_finishWait dev c w
  | release file =>
      have hrelease : erase (tpceRelease dev file) = Requests.tpceRelease dev file := by
        simp only [tpceRelease, Requests.tpceRelease, erase_bind, erase_releaseMappings, erase_pure]
      exact hrelease
  | mmap file env c => exact erase_mmap env dev c
  | vmaClose c =>
      simp only [perform, vmaStreamInfoClose, erase_ite, erase_bind, erase_freeStreamInfo, ok_bind, erase_pure, pure_bind]
      rfl
  | remove => exact erase_finishRemove dev
  | openFile => exact erase_lift (Driver.perform dev .openFile)
  | dmaWork c => exact erase_lift (Driver.perform dev (.dmaWork c))
  | vmaOpen c => exact erase_lift (Driver.perform dev (.vmaOpen c))
  | goAway => exact erase_lift (Driver.perform dev .goAway)

end TpceDrv.Ownership
