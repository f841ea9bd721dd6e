import TpceDrv.TracedIoctl

namespace TpceDrv.Locking

open DmaInfo Mapping Device ChannelControl RequestAtomicity UserStructs TracedIoctl
open Library.Buffers Library.Holdings Library.Traces
open Requests hiding releaseMappings
open IoctlCommands hiding tpceDispatchIoc
open Ioctl (storedSize bufferSize tpceIobufferSize)

/-- `tpce->mutex` and the mutexes of the channels -/
inductive Lock
  | tpce
  | channel (c : Channel)
  deriving DecidableEq

abbrev Mutexed (ε α : Type) := Traced (Access Lock) ε α

variable {ε α : Type}

/-- `mutex_lock` and `mutex_unlock` around a part of a function -/
def locked (lock : Lock) (m : Mutexed ε α) : Mutexed ε α := do
  emit (.acquire lock)
  let a ← m
  emit (.release lock)
  pure a

def tpceDmaStateLocked (dev : TpceDev) (c : Channel) : Mutexed ε TpceDmaChannelState :=
  locked (.channel c) (pure (dev.dmaInfo c).state)

/-- The condition of the wait is evaluated any number of times. -/
def tpceDmaWaitUntilCompleted (dev : TpceDev) (c : Channel) : ℕ → Mutexed ε Unit
  | 0 => pure ()
  | polls + 1 => do
      let _ ← tpceDmaStateLocked dev c
      tpceDmaWaitUntilCompleted dev c polls

def dmaExecute (env : InitEnv) (waiting : Waiting) (dev : TpceDev) (req : TpceDmaRequest) :
    Mutexed Fault (Outcome × TpceDev) :=
  if h : req.params.channel.toNat < 3 then do
    let c : Channel := ⟨req.params.channel.toNat, h⟩
    emit (.acquire (.channel c))
    let (err, dev) ← lift (initDmaInfo env dev c req)
    if err < 0 then do
      emit (.release (.channel c))
      pure (.returned err, dev)
    else do
      let (err, dev) := dmaDispatch env dev c
      emit (.release (.channel c))
      if err < 0 then do
        let dev ← locked (.channel c) (lift (resetDmaInfo dev c))
        pure (.returned err, dev)
      else if (dev.dmaInfo c).params.transferMode = Descriptor.tpceDmaModeStream then pure (.returned 0, dev)
      else do
        let dev := { dev with waiting := some c }
        tpceDmaWaitUntilCompleted dev c waiting.polls
        let dev ← lift (if waiting.wait.completion then tpceDmaCompletion dev c else pure dev)
        let dev ← locked (.channel c) (lift (resetDmaInfo { dev with waiting := none } c))
        pure (.returned waiting.wait.ending.status, dev)
  else pure (.returned (-Errno.einval), dev)

/-- The channel's mutex is held from the abort to the end of the reset. -/
def lockingOps : TracedOps (Access Lock) where
  abortReset := fun dev c => locked (.channel c) (lift (resetDmaInfo (tpceDmaAbort dev c) c))
  dmaExecute := dmaExecute
  barRead := fun k regInfo s => lift (iocBarRead k regInfo s)
  barWrite := fun k regInfo s => lift (iocBarWrite k regInfo s)

def ioctlDmaStatus (env : CopyEnv) (call : UserCall) (s : IoDev) : Mutexed IoctlFault IoctlResult :=
  let length := call.iodata.inSize.toNat
  let missed := min env.inMissed length
  if length > tpceIobufferSize then lift (.error (.ioBuffer length))
  else
    let b := copyIn s.ioBuffer call.input length missed
    let s := { s with ioBuffer := b }
    if missed ≠ 0 then pure ⟨-Errno.efault, [], [], s⟩
    else if h : (u32At b 0).toNat < 3 then do
      let state ← tpceDmaStateLocked s.dev ⟨(u32At b 0).toNat, h⟩
      let (status, output) := env.toUser (u32Bytes (stateCode state))
      pure ⟨status, [], output, s⟩
    else pure ⟨-Errno.einval, [], [], s⟩

/-- Every way through the function ends at the label `cleanup`. -/
def ioctlDispatched (k : Kernel) (polls : List Call → ℕ) (env : CopyEnv) (call : UserCall) (s : IoDev) :
    Mutexed IoctlFault IoctlResult :=
  let length := call.iodata.inSize.toNat
  let missed := min env.inMissed length
  if env.killed then pure ⟨-Errno.eintr, [], [], s⟩
  else
    locked .tpce
      (if s.dev.goingAway then pure ⟨-Errno.enodev, [], [], s⟩
      else if localBuffer call.iodata && !env.kvzallocOk then pure ⟨-Errno.enomem, [], [], s⟩
      else if length > bufferSize (storedSize call.iodata) then lift (.error (.ioBuffer length))
      else
        let b := copyIn (startBuffer call.iodata s) call.input length missed
        if missed ≠ 0 then pure ⟨-Errno.efault, [], [], { s with ioBuffer := keepBuffer call.iodata s b }⟩
        else do
          let reply ← tpceDispatchIoc lockingOps k polls call.file call.cmd (storedSize call.iodata) b ⟨s.dev, []⟩
          pure (finishIoctl env call.iodata b s reply))

def tpceIoctl (k : Kernel) (polls : List Call → ℕ) (env : CopyEnv) (call : UserCall) (s : IoDev) :
    Mutexed IoctlFault IoctlResult :=
  if !env.argOk then pure ⟨-Errno.efault, [], [], s⟩
  else
    match call.cmd with
    | .event => pure (ioctlEvent env s)
    | .dmaStatus => ioctlDmaStatus env call s
    | _ => ioctlDispatched k polls env call s

def tpceRelease (dev : TpceDev) (file : ℕ) : Mutexed Fault (Outcome × TpceDev) := do
  let dev ← locked .tpce (releaseMappings lockingOps file dev (dev.dmaMapSublist file))
  pure (.returned 0, { dev with files := dev.files.erase file })

def tpceMmapBar0Off : U64 := 0x00#64
def tpceMmapBar2Off : U64 := 0x02#64
def tpceMmapDma0StreamOff : U64 := 0x10#64
def tpceMmapDma1StreamOff : U64 := 0x11#64
def tpceMmapDma2StreamOff : U64 := 0x12#64

/-- The part of `tpce_mmap` for the page of a stream. The two returns in front of
the unlock leave the mutex locked. -/
def mmapStream (env : MmapEnv) (dev : TpceDev) (c : Channel) : Mutexed Fault (Outcome × TpceDev) :=
  if env.killed then pure (.returned (-Errno.eintr), dev)
  else do
    emit (.acquire .tpce)
    if dev.goingAway then pure (.returned (-Errno.enodev), { dev with mutexLeaked := true })
    else do
      let (err, info) := mmapStreamInfo env.vmallocOk (dev.dmaInfo c)
      if err ≠ 0 then pure (.returned err, { dev.setInfo c info with mutexLeaked := true })
      else do
        emit (.release .tpce)
        if env.remap ≠ 0 then pure (.returned env.remap, dev.setInfo c (tpceFreeStreamInfo info))
        else pure (.returned 0, { dev.setInfo c info with vmas := Function.update dev.vmas c (dev.vmas c + 1) })

def tpceMmap (env : MmapEnv) (dev : TpceDev) (off size : U64) : Mutexed Fault (Outcome × TpceDev) :=
  if off = tpceMmapBar0Off ∨ off = tpceMmapBar2Off then pure (.returned (-Errno.enosys), dev)
  else if off = tpceMmapDma0StreamOff ∨ off = tpceMmapDma1StreamOff ∨ off = tpceMmapDma2StreamOff then
    if size.toNat ≠ DmaParams.pageSize then pure (.returned (-Errno.einval), dev)
    else if h : (off &&& 0xf#64).toNat < 3 then mmapStream env dev ⟨(off &&& 0xf#64).toNat, h⟩
    else pure (.returned (-Errno.einval), dev)
  else pure (.returned (-Errno.einval), dev)

def vmaStreamInfoClose (dev : TpceDev) (c : Channel) : Mutexed Fault TpceDev :=
  locked .tpce (pure (Requests.vmaStreamInfoClose dev c))

def tpceDmaWork (dev : TpceDev) (c : Channel) : Mutexed Fault TpceDev :=
  locked (.channel c) (lift (tpceDmaCompletion dev c))

/-- What other threads do to the device while its removal holds no lock -/
structure Meanwhile where
  beforeReset : TpceDev → TpceDev
  beforeFree : TpceDev → TpceDev

def tpceDeviceRemove (meanwhile : Meanwhile) (dev : TpceDev) : Mutexed Fault TpceDev := do
  let dev ← locked .tpce (pure { dev with goingAway := true })
  let dev ← locked .tpce (lift (resetChannels (meanwhile.beforeReset dev) (List.finRange 3)))
  lift (tpceDmaFree (meanwhile.beforeFree dev))

@[simp] theorem erase_locked (lock : Lock) (m : Mutexed ε α) : erase (locked lock m) = erase m := by
  simp only [locked, erase_bind, erase_emit, erase_pure, ok_bind]
  cases erase m with
  | error e => rfl
  | ok a => rfl

@[simp] theorem erase_wait (dev : TpceDev) (c : Channel) (polls : ℕ) :
    erase (tpceDmaWaitUntilCompleted dev c polls : Mutexed ε Unit) = .ok () := by
  induction polls with
  | zero => rfl
  | succ polls ih =>
      simp only [tpceDmaWaitUntilCompleted, tpceDmaStateLocked, erase_bind, erase_locked, erase_pure]
      exact ih

/-- Without the locks this is the function of the driver's model, to its end. -/
@[simp] theorem erase_dmaExecute (env : InitEnv) (waiting : Waiting) (dev : TpceDev) (req : TpceDmaRequest) :
    erase (dmaExecute env waiting dev req) = dmaExecuteToEnd env waiting.wait dev req := by
  simp only [dmaExecute, dmaExecuteToEnd, Requests.dmaExecute]
  split
  · rename_i hc
    simp only [erase_bind, erase_emit, erase_lift, ok_bind, erase_ite, erase_pure, erase_locked, erase_wait]
    cases initDmaInfo env dev ⟨req.params.channel.toNat, hc⟩ req with
    | error e => rfl
    | ok init =>
        obtain ⟨err, dev₁⟩ := init
        simp only [ok_bind]
        split
        · rfl
        split
        · cases resetDmaInfo (dmaDispatch env dev₁ ⟨req.params.channel.toNat, hc⟩).2 ⟨req.params.channel.toNat, hc⟩ with
          | error e => rfl
          | ok dev₃ => rfl
        split
        · rfl
        · rfl
  · rfl

theorem lockingOps_faithful : lockingOps.Faithful fun _ => False where
  abortReset := fun dev c => by simp only [lockingOps, erase_locked, erase_lift]
  dmaExecute := fun env waiting dev req => .of_eq (erase_dmaExecute env waiting dev req)
  barRead := fun _ _ _ => erase_lift _
  barWrite := fun _ _ _ => erase_lift _

theorem erase_dmaStatus (env : CopyEnv) (call : UserCall) (s : IoDev) :
    erase (ioctlDmaStatus env call s) = IoctlCommands.ioctlDmaStatus env call s := by
  simp only [ioctlDmaStatus, IoctlCommands.ioctlDmaStatus, tpceDmaStateLocked, erase_ite, erase_lift, erase_pure]
  split
  · rfl
  split
  · rfl
  split
  · simp only [erase_bind, erase_locked, erase_pure]
    rfl
  · rfl

theorem erase_dispatched (k : Kernel) (polls : List Call → ℕ) (env : CopyEnv) (call : UserCall) (s : IoDev) :
    erase (ioctlDispatched k polls env call s) = IoctlCommands.ioctlDispatched k env call s := by
  have hdispatch := fun b => handed_false
    (erase_dispatch lockingOps_faithful k polls call.file call.cmd (storedSize call.iodata) b ⟨s.dev, []⟩)
  simp only [ioctlDispatched, IoctlCommands.ioctlDispatched, erase_ite, erase_locked, erase_lift, erase_pure,
    erase_bind, hdispatch]

/-- Without the locks this is the handler of the driver's model. -/
theorem erase_ioctl (k : Kernel) (polls : List Call → ℕ) (env : CopyEnv) (call : UserCall) (s : IoDev) :
    erase (tpceIoctl k polls env call s) = IoctlCommands.tpceIoctl k env call s := by
  simp only [tpceIoctl, IoctlCommands.tpceIoctl, erase_ite, erase_pure]
  split
  · rfl
  cases call.cmd with
  | event => rfl
  | dmaStatus => exact erase_dmaStatus env call s
  | _ => exact erase_dispatched k polls env call s

theorem erase_release (dev : TpceDev) (file : ℕ) : erase (tpceRelease dev file) = Requests.tpceRelease dev file := by
  simp only [tpceRelease, Requests.tpceRelease, erase_bind, erase_locked, erase_releaseMappings lockingOps_faithful,
    erase_pure]

theorem erase_mmapStream (env : MmapEnv) (dev : TpceDev) (c : Channel) :
    erase (mmapStream env dev c) = .ok (Requests.tpceMmap env dev c) := by
  simp only [mmapStream, Requests.tpceMmap, erase_ite, erase_bind, erase_emit, erase_pure, ok_bind]
  split
  · rfl
  split
  · rfl
  split
  · rfl
  split
  · rfl
  · rfl

theorem erase_remove (meanwhile : Meanwhile) (dev : TpceDev) :
    erase (tpceDeviceRemove meanwhile dev) = (do
      let dev ← resetChannels (meanwhile.beforeReset { dev with goingAway := true }) (List.finRange 3)
      tpceDmaFree (meanwhile.beforeFree dev)) := by
  simp only [tpceDeviceRemove, erase_bind, erase_locked, erase_pure, erase_lift]
  rfl

end TpceDrv.Locking
