import TpceDrv.TracedIoctl

namespace TpceDrv.Controller

open Descriptor DmaParams DmaInfo Mapping PageTable Device Translation ChannelControl ChannelSteps Requests Driver
open TracedIoctl Library.Traces

def tpceDmaCsr (channel : U8) (reg : ℕ) : ℕ := 0x4000 + channel.toNat * 0x2000 + reg
def tpceDmaPrefetcherCsr (channel : U8) (reg : ℕ) : ℕ := 0x5000 + channel.toNat * 0x2000 + reg

def alteraMsgdmaCsrControlReg : ℕ := 0x4
def alteraMsgdmaCsrResetMask : U32 := 0x2#32
def altMsgdmaPrefetcherControlReg : ℕ := 0x0
def altMsgdmaPrefetcherNextDescriptorPtrLowReg : ℕ := 0x4
def altMsgdmaPrefetcherNextDescriptorPtrHighReg : ℕ := 0x8
def prefetcherCtrlRunSetMask : U32 := 0x1#32
def prefetcherCtrlResetSetMask : U32 := 0x4#32
def prefetcherCtrlGlobalIntrEnSetMask : U32 := 0x8#32
def prefetcherCtrlParkModeSetMask : U32 := 0x10#32

/-- For each reset of one call, whether the prefetcher clears the reset bit before the
polling ends. No two of them find the same channel of the same device. What the
dispatcher answers changes nothing. -/
abbrev Polls := TpceDev → Channel → Bool

/-- A computation that writes to the registers of BAR2 -/
abbrev Bus (α : Type) := Traced (ℕ × U32) Fault α

def controlValue (params : TpceDmaTransferParams) : U32 :=
  if params.transferMode = tpceDmaModeStream then prefetcherCtrlGlobalIntrEnSetMask ||| prefetcherCtrlParkModeSetMask
  else prefetcherCtrlGlobalIntrEnSetMask

def startDmaController (info : TpceDmaInfo) : MmioWrites :=
  let channel := info.params.channel
  let prefetcherCsr := tpceDmaPrefetcherCsr channel altMsgdmaPrefetcherControlReg
  let val := controlValue info.params
  [(tpceDmaCsr channel alteraMsgdmaCsrControlReg, 0),
    (tpceDmaPrefetcherCsr channel altMsgdmaPrefetcherNextDescriptorPtrLowReg, info.descBusAddrTranslated),
    (tpceDmaPrefetcherCsr channel altMsgdmaPrefetcherNextDescriptorPtrHighReg, 0),
    (prefetcherCsr, val),
    (prefetcherCsr, val ||| prefetcherCtrlRunSetMask)]

/-- The prefetcher is reset first, and the dispatcher only behind it. -/
def resetDmaController (cleared : Bool) (info : TpceDmaInfo) : MmioWrites :=
  let channel := info.params.channel
  (tpceDmaPrefetcherCsr channel altMsgdmaPrefetcherControlReg, prefetcherCtrlResetSetMask) ::
    if cleared then [(tpceDmaCsr channel alteraMsgdmaCsrControlReg, alteraMsgdmaCsrResetMask)] else []

def tpceDmaAbort (polls : Polls) (dev : TpceDev) (c : Channel) : Bus TpceDev := do
  emits (resetDmaController (polls dev c) (dev.dmaInfo c))
  pure (ChannelControl.tpceDmaAbort dev c)

/-- A running channel is aborted first, and the rest of the function finds it so. -/
def resetDmaInfo (polls : Polls) (dev : TpceDev) (c : Channel) : Bus TpceDev := do
  let dev ← (if (dev.dmaInfo c).state = .running then tpceDmaAbort polls dev c else pure dev)
  lift (ChannelControl.resetDmaInfo dev c)

def dmaStart (env : InitEnv) (dev : TpceDev) (c : Channel) : Bus (Int × TpceDev) := do
  let (ret, dev) := ChannelControl.dmaStart env dev c
  if ret ≠ 0 then pure (ret, dev)
  else do
    emits (setPageTranslationRegs dev.pageTable (dev.dmaInfo c).params.channel)
    emits (startDmaController (dev.dmaInfo c))
    pure (0, dev)

def tpceDmaStart (env : InitEnv) (dev : TpceDev) (c : Channel) : Bus (Int × TpceDev) := do
  let (ret, dev) ← dmaStart env dev c
  if ret ≠ 0 then pure (ret, dev) else pure (0, setRunning dev c)

def tpceDmaStreamStart (env : InitEnv) (dev : TpceDev) (c : Channel) : Bus (Int × TpceDev) := do
  let (ret, dev) ← dmaStart env (enableStreamIrq dev c) c
  if ret ≠ 0 then pure (ret, dev) else pure (0, setRunning dev c)

def dmaDispatch (env : InitEnv) (dev : TpceDev) (c : Channel) : Bus (Int × TpceDev) :=
  let mode := (dev.dmaInfo c).params.transferMode
  if mode = tpceDmaModeDefault then tpceDmaStart env dev c
  else if mode = tpceDmaModeStream then tpceDmaStreamStart env dev c
  else pure (-Errno.einval, dev)

/-- `dma_execute` as far as the wait for a default transfer. -/
def dmaExecute (polls : Polls) (env : InitEnv) (dev : TpceDev) (req : TpceDmaRequest) : Bus (Outcome × TpceDev) :=
  if h : req.params.channel.toNat < 3 then do
    let c : Channel := ⟨req.params.channel.toNat, h⟩
    let (err, dev) ← lift (initDmaInfo env dev c req)
    if err < 0 then pure (.returned err, dev)
    else do
      let (err, dev) ← dmaDispatch env dev c
      if err < 0 then do
        let dev ← resetDmaInfo polls dev c
        pure (.returned err, dev)
      else if (dev.dmaInfo c).params.transferMode = tpceDmaModeStream then pure (.returned 0, dev)
      else pure (.waits, { dev with waiting := some c })
  else pure (.returned (-Errno.einval), dev)

def finishWait (polls : Polls) (dev : TpceDev) (c : Channel) (w : WaitEnd) : Bus (Outcome × TpceDev) := do
  let dev ← resetDmaInfo polls { dev with waiting := none } c
  pure (.returned w.status, dev)

/-- The rest of `dma_execute`, with what happens during the wait -/
def dmaExecuteToEnd (polls : Polls) (env : InitEnv) (wait : RequestAtomicity.Wait) (dev : TpceDev)
    (req : TpceDmaRequest) : Bus (Outcome × TpceDev) := do
  let (out, dev) ← dmaExecute polls env dev req
  match out, dev.waiting with
  | .waits, some c => do
      let dev ← lift (if wait.completion then tpceDmaCompletion dev c else pure dev)
      finishWait polls dev c wait.ending
  | _, _ => pure (out, dev)

/-- The accesses of userspace to a register go past these functions. -/
def busOps (polls : Polls) : TracedOps (ℕ × U32) where
  abortReset := fun dev c => do
    let dev ← tpceDmaAbort polls dev c
    resetDmaInfo polls dev c
  dmaExecute := fun env waiting dev req => dmaExecuteToEnd polls env waiting.wait dev req
  barRead := fun k regInfo s => lift (IoctlCommands.iocBarRead k regInfo s)
  barWrite := fun k regInfo s => lift (IoctlCommands.iocBarWrite k regInfo s)

def iocDmaExecute (polls : Polls) (env : InitEnv) (dev : TpceDev) (file : ℕ) (req : TpceDmaRequest) :
    Bus (Outcome × TpceDev) :=
  let err := validateDmaRequest dev req (some file)
  if err ≠ 0 then pure (.returned err, dev) else dmaExecute polls env dev req

def readKernelDmaBuffer (polls : Polls) (env : InitEnv) (dev : TpceDev) (r : KernelRead) : Bus (Outcome × TpceDev) :=
  if r.channel.toNat ≥ tpceDmaNumChannels then pure (.returned (-Errno.einval), dev)
  else if r.bytesTotal > tpceDmaDriverBufferSize then pure (.returned (-Errno.einval), dev)
  else do
    let chInfo ← lift (channelInfo r.channel)
    let req := r.request chInfo
    let err := validateDmaRequest dev req none
    if err ≠ 0 then pure (.returned err, dev) else dmaExecute polls env dev req

def tpceRelease (polls : Polls) (dev : TpceDev) (file : ℕ) : Bus (Outcome × TpceDev) := do
  let dev ← TracedIoctl.releaseMappings (busOps polls) file dev (dev.dmaMapSublist file)
  pure (.returned 0, { dev with files := dev.files.erase file })

def resetChannels (polls : Polls) : TpceDev → List Channel → Bus TpceDev
  | dev, [] => pure dev
  | dev, c :: rest => do
      let dev ← resetDmaInfo polls dev c
      resetChannels polls dev rest

def tpceDmaFreeDescriptorsMem (polls : Polls) (dev : TpceDev) (c : Channel) : Bus TpceDev := do
  let dev ← (if (dev.dmaInfo c).state = .running then tpceDmaAbort polls dev c else pure dev)
  pure (dev.setInfo c (freeDescriptorsMem (dev.dmaInfo c)))

def freeDescriptors (polls : Polls) : TpceDev → List Channel → Bus TpceDev
  | dev, [] => pure dev
  | dev, c :: rest => do
      let dev ← tpceDmaFreeDescriptorsMem polls dev c
      freeDescriptors polls dev rest

def tpceDmaFree (polls : Polls) (dev : TpceDev) : Bus TpceDev := do
  let dev ← lift (freeMappings dev ((List.range (tpceDmaMapIdMax + 1)).map (BitVec.ofNat 32)))
  freeDescriptors polls dev (List.finRange 3)

def finishRemove (polls : Polls) (dev : TpceDev) : Bus (Outcome × TpceDev) := do
  let dev ← resetChannels polls dev (List.finRange 3)
  let dev ← tpceDmaFree polls dev
  pure (.returned 0, dev)

/-- The other calls write to none of these registers. -/
def perform (polls : Polls) (dev : TpceDev) (op : Op) : Bus (Outcome × TpceDev) :=
  if op.ioctlFile.isSome && dev.goingAway then pure (.returned (-Errno.enodev), dev)
  else
    match op with
    | .unlockBuffer file id => TracedIoctl.iocUnlockDmaBuffer (busOps polls) dev file id
    | .execute file env req => iocDmaExecute polls env dev file req
    | .kernelRead _ env r => readKernelDmaBuffer polls env dev r
    | .cancel _ channel => TracedIoctl.iocDmaCancel (busOps polls) dev channel
    | .wake w =>
        match dev.waiting with
        | some c => finishWait polls dev c w
        | none => pure (.returned 0, dev)
    | .release file => tpceRelease polls dev file
    | .remove => finishRemove polls dev
    | op => lift (Driver.perform dev op)

section
variable (polls : Polls)

@[simp] theorem erase_abort (dev : TpceDev) (c : Channel) :
    erase (tpceDmaAbort polls dev c) = .ok (ChannelControl.tpceDmaAbort dev c) := by
  simp only [tpceDmaAbort, erase_bind, erase_emits, ok_bind, erase_pure]
  rfl

/-- The reset of a running channel goes on with what its abort leaves. -/
theorem resetDmaInfo_abort {dev : TpceDev} {c : Channel} (h : (dev.dmaInfo c).state = .running) :
    ChannelControl.resetDmaInfo (ChannelControl.tpceDmaAbort dev c) c = ChannelControl.resetDmaInfo dev c := by
  have hstate : ((ChannelControl.tpceDmaAbort dev c).dmaInfo c).state = .error := by
    rw [abort_eq, setInfo_dmaInfo]
    simp only [abortedState, if_pos h]
  unfold ChannelControl.resetDmaInfo
  dsimp only
  rw [hstate, h, if_neg (by simp), if_neg (by simp), if_neg (by simp), if_pos rfl]

@[simp] theorem erase_resetDmaInfo (dev : TpceDev) (c : Channel) :
    erase (resetDmaInfo polls dev c) = ChannelControl.resetDmaInfo dev c := by
  simp only [resetDmaInfo]
  by_cases h : (dev.dmaInfo c).state = .running
  · rw [if_pos h, erase_bind, erase_abort, ok_bind, erase_lift, resetDmaInfo_abort h]
  · rw [if_neg h, erase_bind, erase_pure]
    exact erase_lift _

@[simp] theorem erase_dmaStart (env : InitEnv) (dev : TpceDev) (c : Channel) :
    erase (dmaStart env dev c) = .ok (ChannelControl.dmaStart env dev c) := by
  simp only [dmaStart]
  cases h : ChannelControl.dmaStart env dev c with
  | mk ret dev' =>
      by_cases hret : ret ≠ 0
      · simp only [if_pos hret]
        rfl
      · obtain rfl := not_not.mp hret
        rfl

@[simp] theorem erase_dmaDispatch (env : InitEnv) (dev : TpceDev) (c : Channel) :
    erase (dmaDispatch env dev c) = .ok (ChannelControl.dmaDispatch env dev c) := by
  simp only [dmaDispatch, ChannelControl.dmaDispatch, erase_ite]
  by_cases hdefault : (dev.dmaInfo c).params.transferMode = tpceDmaModeDefault
  · rw [if_pos hdefault, if_pos hdefault]
    simp only [tpceDmaStart, ChannelControl.tpceDmaStart, erase_bind, erase_dmaStart, ok_bind, erase_ite, erase_pure]
    split
    · rfl
    · rfl
  rw [if_neg hdefault, if_neg hdefault]
  by_cases hstream : (dev.dmaInfo c).params.transferMode = tpceDmaModeStream
  · rw [if_pos hstream, if_pos hstream]
    simp only [tpceDmaStreamStart, ChannelControl.tpceDmaStreamStart, erase_bind, erase_dmaStart, ok_bind, erase_ite,
      erase_pure]
    split
    · rfl
    · rfl
  · rw [if_neg hstream, if_neg hstream]
    rfl

@[simp] theorem erase_dmaExecute (env : InitEnv) (dev : TpceDev) (req : TpceDmaRequest) :
    erase (dmaExecute polls env dev req) = Requests.dmaExecute env dev req := by
  simp only [dmaExecute, Requests.dmaExecute]
  split
  · rename_i hc
    simp only [erase_bind, erase_lift]
    cases initDmaInfo env dev ⟨req.params.channel.toNat, hc⟩ req with
    | error e => rfl
    | ok init =>
        simp only [ok_bind, erase_ite, erase_bind, erase_dmaDispatch, erase_resetDmaInfo, erase_pure]
  · rfl

@[simp] theorem erase_finishWait (dev : TpceDev) (c : Channel) (w : WaitEnd) :
    erase (finishWait polls dev c w) = Requests.finishWait dev c w := by
  simp only [finishWait, Requests.finishWait, erase_bind, erase_resetDmaInfo, erase_pure]

/-- Without the registers these are the functions of the driver's model. -/
theorem busOps_faithful : (busOps polls).Faithful fun _ => False where
  abortReset := fun dev c => by simp only [busOps, erase_bind, erase_abort, ok_bind, erase_resetDmaInfo]
  dmaExecute := fun env waiting dev req => by
    apply Library.Errors.Curtails.of_eq
    simp only [busOps, dmaExecuteToEnd, RequestAtomicity.dmaExecuteToEnd, erase_bind, erase_dmaExecute]
    apply congrArg
    funext r
    obtain ⟨out, dev⟩ := r
    cases out with
    | returned status => rfl
    | waits =>
        cases hwaiting : dev.waiting with
        | none => rfl
        | some c => simp only [erase_bind, erase_lift, erase_finishWait]
  barRead := fun _ _ _ => erase_lift _
  barWrite := fun _ _ _ => erase_lift _

theorem erase_resetChannels (dev : TpceDev) (cs : List Channel) :
    erase (resetChannels polls dev cs) = Requests.resetChannels dev cs := by
  induction cs generalizing dev with
  | nil => rfl
  | cons c cs ih => simp only [resetChannels, Requests.resetChannels, erase_bind, erase_resetDmaInfo, ih]

theorem erase_freeDescriptors (dev : TpceDev) (cs : List Channel) :
    erase (freeDescriptors polls dev cs) = .ok (cs.foldl Requests.tpceDmaFreeDescriptorsMem dev) := by
  induction cs generalizing dev with
  | nil => rfl
  | cons c cs ih =>
      have hfree : erase (tpceDmaFreeDescriptorsMem polls dev c) = .ok (Requests.tpceDmaFreeDescriptorsMem dev c) := by
        simp only [tpceDmaFreeDescriptorsMem, Requests.tpceDmaFreeDescriptorsMem, erase_bind, erase_ite, erase_abort,
          erase_pure]
        split
        · rfl
        · rfl
      simp only [freeDescriptors, erase_bind, hfree, ok_bind, ih, List.foldl_cons]

theorem erase_finishRemove (dev : TpceDev) : erase (finishRemove polls dev) = Requests.finishRemove dev := by
  simp only [finishRemove, Requests.finishRemove, tpceDmaFree, Requests.tpceDmaFree, erase_bind, erase_resetChannels,
    erase_lift, erase_freeDescriptors, erase_pure]
  rfl

/-- A call does to the driver's data what it does in the model without registers. -/
theorem erase_perform (dev : TpceDev) (op : Op) : erase (perform polls dev op) = Driver.perform dev op := by
  have hops := busOps_faithful polls
  simp only [perform, Driver.perform]
  by_cases haway : (op.ioctlFile.isSome && dev.goingAway) = true
  · rw [if_pos haway, if_pos haway]
    rfl
  rw [if_neg haway, if_neg haway]
  cases op with
  | unlockBuffer file id => exact erase_unlockDmaBuffer hops dev file id
  | execute file env req =>
      simp only [iocDmaExecute, Requests.iocDmaExecute, erase_ite, erase_pure, erase_dmaExecute]
  | kernelRead file env r =>
      simp only [readKernelDmaBuffer, Requests.readKernelDmaBuffer, erase_ite, erase_pure, erase_bind, erase_lift,
        erase_dmaExecute]
  | cancel file channel => exact erase_dmaCancel hops dev channel
  | wake w =>
      cases hw : dev.waiting with
      | none => rfl
      | some c => exact erase_finishWait polls dev c w
  | release file => simp only [tpceRelease, Requests.tpceRelease, erase_bind, erase_releaseMappings hops, erase_pure]
  | remove => exact erase_finishRemove polls dev
  | _ => exact (erase_lift _).trans (if_neg haway)

end

end TpceDrv.Controller
