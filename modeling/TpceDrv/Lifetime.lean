import TpceDrv.Driver
import TpceDrv.Locking
import TpceDrv.PageTableFaults
import TpceDrv.TracedIoctl

namespace TpceDrv.Lifetime

open DmaInfo Mapping Device ChannelControl RequestAtomicity UserStructs TracedIoctl
open Library.Buffers Library.Errors Library.Holdings Library.Traces
open PageTableFaults (FullTable)
open Requests hiding releaseMappings resetChannels
open IoctlCommands hiding tpceDispatchIoc orFault
open Ioctl (storedSize bufferSize)
open Locking (tpceMmapBar0Off tpceMmapBar2Off tpceMmapDma0StreamOff tpceMmapDma1StreamOff tpceMmapDma2StreamOff)

/-- What the removal of a device and the last release free -/
inductive Object
  | tpceDev
  | ioBuffer
  | bar0
  | bar2
  deriving DecidableEq

def objects : Finset Object := {.tpceDev, .ioBuffer, .bar0, .bar2}

/-- A read or a write, or the end of an object -/
inductive Touch
  | use (k : Object)
  | free (k : Object)
  deriving DecidableEq

def Touch.access : Touch → Option (Access Object)
  | .use k => some (.use k)
  | .free k => some (.release k)

abbrev Touching (ε α : Type) := Traced Touch ε α

variable {ε α : Type}

def touch (k : Object) : Touching ε Unit := emit (.use k)

def touchIf (p : Prop) [Decidable p] (k : Object) : Touching ε Unit := if p then touch k else pure ()

/-- `tpce->pci_bars[addrSpace]` -/
def barObject (bar : Fin 2) : Object := if bar.val = 0 then .bar0 else .bar2

/-- `tpce_dma_abort` resets the controller, whether the channel runs or not. -/
def tpceDmaAbort (dev : TpceDev) (c : Channel) : Touching ε TpceDev := do
  touch .bar2
  pure (ChannelControl.tpceDmaAbort dev c)

/-- A running channel is aborted first. -/
def resetDmaInfo (dev : TpceDev) (c : Channel) : Touching Fault TpceDev := do
  touchIf ((dev.dmaInfo c).state = .running) .bar2
  lift (ChannelControl.resetDmaInfo dev c)

/-- The controller is started once the descriptors are translated, which ends at a
store outside the page table. -/
def dmaDispatch (env : InitEnv) (dev : TpceDev) (c : Channel) : Touching Fault (ℤ × TpceDev) := do
  let started ← lift (PageTableFaults.dmaDispatch env dev c)
  touchIf (started.1 = 0) .bar2
  pure started

def dmaExecute (env : InitEnv) (waiting : Waiting) (dev : TpceDev) (req : TpceDmaRequest) :
    Touching Fault (Outcome × TpceDev) :=
  if h : req.params.channel.toNat < 3 then do
    let c : Channel := ⟨req.params.channel.toNat, h⟩
    let (err, dev) ← lift (initDmaInfo env dev c req)
    if err < 0 then pure (.returned err, dev)
    else do
      let (err, dev) ← dmaDispatch env dev c
      if err < 0 then do
        let dev ← resetDmaInfo dev c
        pure (.returned err, dev)
      else if (dev.dmaInfo c).params.transferMode = Descriptor.tpceDmaModeStream then pure (.returned 0, dev)
      else do
        let dev := { dev with waiting := some c }
        let dev ← lift (if waiting.wait.completion then tpceDmaCompletion dev c else pure dev)
        let dev ← resetDmaInfo { dev with waiting := none } c
        pure (.returned waiting.wait.ending.status, dev)
  else pure (.returned (-Errno.einval), dev)

def iocBarRead (k : Kernel) (regInfo : TPciDevReg) (s : Session) : Touching IoctlFault (U32 × Session) :=
  if h : regInfo.addrSpace.toNat < tpceNumBars then
    let bar : Fin 2 := ⟨regInfo.addrSpace.toNat, h⟩
    if regInfo.offset.setWidth 64 > k.barSize bar then pure (0, s)
    else
      match accessBytes regInfo.size with
      | some bytes => do
          touch (barObject bar)
          let s := s.ask (.ioread bytes bar regInfo.offset)
          pure (lowBytes bytes (k.ioread s.calls), s)
      | none => pure (0, s)
  else lift (.error (.barIndex regInfo.addrSpace))

def iocBarWrite (k : Kernel) (regInfo : TPciDevReg) (s : Session) : Touching IoctlFault Reply :=
  if h : regInfo.addrSpace.toNat < tpceNumBars then
    let bar : Fin 2 := ⟨regInfo.addrSpace.toNat, h⟩
    if regInfo.offset.setWidth 64 > k.barSize bar then pure ⟨-Errno.einval, [], s⟩
    else
      match accessBytes regInfo.size with
      | some bytes => do
          touch (barObject bar)
          pure ⟨0, [], s.ask (.iowrite bytes bar regInfo.offset (lowBytes bytes regInfo.data))⟩
      | none => pure ⟨0, [], s⟩
  else lift (.error (.barIndex regInfo.addrSpace))

def touchingOps : TracedOps Touch where
  abortReset := fun dev c => do
    let dev ← tpceDmaAbort dev c
    resetDmaInfo dev c
  dmaExecute := dmaExecute
  barRead := iocBarRead
  barWrite := iocBarWrite

/-- The input goes through the shared buffer, whatever has become of it. -/
def ioctlDmaStatus (env : CopyEnv) (call : UserCall) (s : IoDev) : Touching IoctlFault IoctlResult := do
  touch .ioBuffer
  lift (IoctlCommands.ioctlDmaStatus env call s)

/-- The copies and the command itself use the buffer of the command, which is the
shared one unless the command got one of its own. -/
def ioctlDispatched (k : Kernel) (env : CopyEnv) (call : UserCall) (s : IoDev) : Touching IoctlFault IoctlResult :=
  let length := call.iodata.inSize.toNat
  let missed := min env.inMissed length
  if env.killed then pure ⟨-Errno.eintr, [], [], s⟩
  else if s.dev.goingAway then pure ⟨-Errno.enodev, [], [], s⟩
  else if localBuffer call.iodata && !env.kvzallocOk then pure ⟨-Errno.enomem, [], [], s⟩
  else do
    touchIf (localBuffer call.iodata = false) .ioBuffer
    if length > bufferSize (storedSize call.iodata) then lift (.error (.ioBuffer length))
    else
      let b := copyIn (startBuffer call.iodata s) call.input length missed
      if missed ≠ 0 then pure ⟨-Errno.efault, [], [], { s with ioBuffer := keepBuffer call.iodata s b }⟩
      else do
        let reply ← tpceDispatchIoc touchingOps k (fun _ => 0) call.file call.cmd (storedSize call.iodata) b ⟨s.dev, []⟩
        pure (finishIoctl env call.iodata b s reply)

/-- `tpce_dev` is used as soon as the argument is copied. -/
def tpceIoctl (k : Kernel) (env : CopyEnv) (call : UserCall) (s : IoDev) : Touching IoctlFault IoctlResult :=
  if !env.argOk then pure ⟨-Errno.efault, [], [], s⟩
  else do
    touch .tpceDev
    match call.cmd with
    | .event => pure (ioctlEvent env s)
    | .dmaStatus => ioctlDmaStatus env call s
    | _ => ioctlDispatched k env call s

/-- The channel of the stream page that an area would map -/
def streamChannel (off size : U64) : Except ℤ Channel :=
  if off = tpceMmapBar0Off ∨ off = tpceMmapBar2Off then .error (-Errno.enosys)
  else if off = tpceMmapDma0StreamOff ∨ off = tpceMmapDma1StreamOff ∨ off = tpceMmapDma2StreamOff then
    if size.toNat ≠ DmaParams.pageSize then .error (-Errno.einval)
    else if h : (off &&& 0xf#64).toNat < 3 then .ok ⟨(off &&& 0xf#64).toNat, h⟩
    else .error (-Errno.einval)
  else .error (-Errno.einval)

/-- One device, the reference count of its `tpce_dev`, whether it is in
`tpce_devices`, the areas that each file has on the stream pages, and what has been
done with its objects so far. -/
structure World where
  io : IoDev
  listed : Bool
  refs : ℕ
  areas : ℕ → Channel → ℕ
  trace : List Touch

def World.setDev (w : World) (dev : TpceDev) : World := { w with io := { w.io with dev := dev } }

def World.addArea (w : World) (file : ℕ) (c : Channel) : World :=
  { w with areas := fun f c' => if f = file ∧ c' = c then w.areas f c' + 1 else w.areas f c' }

def World.removeArea (w : World) (file : ℕ) (c : Channel) : World :=
  { w with areas := fun f c' => if f = file ∧ c' = c then w.areas f c' - 1 else w.areas f c' }

def World.init (sgt : SgTable) : World := ⟨⟨TpceDev.init sgt, 0, fun _ => 0⟩, true, 1, fun _ _ => 0, []⟩

/-- `refcount_dec_and_test` with the `kfree` behind it -/
def putTpceDev (w : World) : Touching ε World := do
  touch .tpceDev
  if (refcountDecAndTest w.refs).2 then emit (.free .tpceDev) else pure ()
  pure { w with refs := (refcountDecAndTest w.refs).1 }

/-- `kzallocOk` tells whether there is memory for the file's context. -/
def tpceOpen (kzallocOk : Bool) (w : World) : Touching ε (ℤ × World) :=
  if !w.listed then pure (-Errno.enodev, w)
  else do
    touch .tpceDev
    if w.io.dev.goingAway then pure (-Errno.enodev, w)
    else if !kzallocOk then pure (-Errno.enomem, w)
    else pure (0, { w.setDev (Driver.tpceOpen w.io.dev).2 with refs := refcountInc w.refs })

def tpceRelease (w : World) (file : ℕ) : Touching Fault (ℤ × World) := do
  touch .tpceDev
  let dev ← releaseMappings touchingOps file w.io.dev (w.io.dev.dmaMapSublist file)
  let w ← putTpceDev (w.setDev { dev with files := dev.files.erase file })
  pure (0, w)

def ioctl (k : Kernel) (env : CopyEnv) (call : UserCall) (w : World) : Touching IoctlFault (ℤ × World) := do
  let result ← tpceIoctl k env call w.io
  pure (result.status, { w with io := result.after })

/-- A successful call leaves an area to the file. -/
def tpceMmap (file : ℕ) (env : MmapEnv) (off size : U64) (w : World) : Touching ε (ℤ × World) := do
  touch .tpceDev
  match streamChannel off size with
  | .error err => pure (err, w)
  | .ok c =>
      let (out, dev) := Requests.tpceMmap env w.io.dev c
      if returnCode out = 0 then pure (0, (w.setDev dev).addArea file c) else pure (returnCode out, w.setDev dev)

/-- The flag of a pending event is left out. -/
def tpcePoll (w : World) : Touching ε (ℤ × World) := do
  touch .tpceDev
  pure (0, w)

def vmaStreamInfoOpen (file : ℕ) (c : Channel) (w : World) : Touching ε (ℤ × World) := do
  touch .tpceDev
  pure (0, (w.setDev (Requests.vmaStreamInfoOpen w.io.dev c)).addArea file c)

def vmaStreamInfoClose (file : ℕ) (c : Channel) (w : World) : Touching ε (ℤ × World) := do
  touch .tpceDev
  pure (0, (w.setDev (Requests.vmaStreamInfoClose w.io.dev c)).removeArea file c)

def tpceDmaWork (c : Channel) (w : World) : Touching Fault (ℤ × World) := do
  touch .tpceDev
  let dev ← lift (tpceDmaCompletion w.io.dev c)
  pure (0, w.setDev dev)

def resetChannels : TpceDev → List Channel → Touching Fault TpceDev
  | dev, [] => pure dev
  | dev, c :: rest => do
      let dev ← resetDmaInfo dev c
      resetChannels dev rest

/-- The loop of `tpce_dma_free` over the channels, which aborts one that runs -/
def freeDescriptors : TpceDev → List Channel → Touching Fault TpceDev
  | dev, [] => pure dev
  | dev, c :: rest => do
      touchIf ((dev.dmaInfo c).state = .running) .bar2
      freeDescriptors (tpceDmaFreeDescriptorsMem dev c) rest

def tpceDmaFree (dev : TpceDev) : Touching Fault TpceDev := do
  let dev ← lift (freeMappings dev ((List.range (tpceDmaMapIdMax + 1)).map (BitVec.ofNat 32)))
  freeDescriptors dev (List.finRange 3)

/-- The removal between two other calls -/
def tpceDeviceRemove (w : World) : Touching Fault (ℤ × World) := do
  touch .tpceDev
  let dev := { w.io.dev with goingAway := true }
  touch .bar2
  let dev ← resetChannels dev (List.finRange 3)
  let dev ← tpceDmaFree dev
  emit (.free .bar0)
  emit (.free .bar2)
  emit (.free .ioBuffer)
  let w ← putTpceDev { w.setDev dev with listed := false }
  pure (0, w)

/-- The calls on the files of the device, the work of a channel and the removal -/
inductive Event
  | openFile (kzallocOk : Bool)
  | ioctl (k : Kernel) (env : CopyEnv) (call : UserCall)
  | mmap (file : ℕ) (env : MmapEnv) (off size : U64)
  | poll (file : ℕ)
  | vmaOpen (file : ℕ) (c : Channel)
  | vmaClose (file : ℕ) (c : Channel)
  | release (file : ℕ)
  | dmaWork (c : Channel)
  | remove

/-- Whether the call can come and return now. One that takes `tpce->mutex` hangs
once the mutex is never unlocked again. A file is released when its last area is
gone, and the removal ends the work. -/
def enabled (w : World) : Event → Bool
  | .openFile _ => true
  | .ioctl _ env call => w.io.dev.files.contains call.file && (!takesMutex env call || !w.io.dev.mutexLeaked)
  | .mmap file env off size => w.io.dev.files.contains file &&
      (env.killed || !(streamChannel off size).toBool || !w.io.dev.mutexLeaked)
  | .poll file => w.io.dev.files.contains file
  | .vmaOpen file c => 0 < w.areas file c
  | .vmaClose file c => 0 < w.areas file c && !w.io.dev.mutexLeaked
  | .release file =>
      w.io.dev.files.contains file && (List.finRange 3).all (fun c => w.areas file c = 0) && !w.io.dev.mutexLeaked
  | .dmaWork _ => w.listed
  | .remove => w.listed && !w.io.dev.mutexLeaked

def perform (w : World) : Event → Touching IoctlFault (ℤ × World)
  | .openFile kzallocOk => tpceOpen kzallocOk w
  | .ioctl k env call => ioctl k env call w
  | .mmap file env off size => tpceMmap file env off size w
  | .poll _ => tpcePoll w
  | .vmaOpen file c => vmaStreamInfoOpen file c w
  | .vmaClose file c => vmaStreamInfoClose file c w
  | .release file => orFault (tpceRelease w file)
  | .dmaWork c => orFault (tpceDmaWork c w)
  | .remove => orFault (tpceDeviceRemove w)

/-- One call that the driver survives -/
def step (w : World) (event : Event) : Option World :=
  if enabled w event then (perform w event).run.toOption.map fun r => { r.1.2 with trace := w.trace ++ r.2 } else none

@[simp] theorem erase_touch (k : Object) : erase (touch k : Touching ε Unit) = .ok () := rfl

@[simp] theorem erase_touchIf (p : Prop) [Decidable p] (k : Object) :
    erase (touchIf p k : Touching ε Unit) = .ok () := by
  rw [touchIf, erase_ite]
  split
  · rfl
  · rfl

@[simp] theorem erase_resetDmaInfo (dev : TpceDev) (c : Channel) :
    erase (resetDmaInfo dev c) = ChannelControl.resetDmaInfo dev c := by
  simp only [resetDmaInfo, erase_bind, erase_touchIf, erase_lift, ok_bind]

theorem erase_dmaExecute (env : InitEnv) (waiting : Waiting) (dev : TpceDev) (req : TpceDmaRequest) :
    erase (dmaExecute env waiting dev req) = PageTableFaults.dmaExecute env dev req >>= settle waiting.wait := by
  simp only [dmaExecute, PageTableFaults.dmaExecute]
  split
  · rename_i hc
    simp only [erase_bind, erase_lift, erase_ite, erase_pure, dmaDispatch, erase_touchIf, ok_bind, erase_resetDmaInfo]
    cases initDmaInfo env dev ⟨req.params.channel.toNat, hc⟩ req with
    | error e => rfl
    | ok init =>
        obtain ⟨err, dev₁⟩ := init
        simp only [ok_bind]
        split
        · rfl
        cases PageTableFaults.dmaDispatch env dev₁ ⟨req.params.channel.toNat, hc⟩ with
        | error e => rfl
        | ok started =>
            simp only [ok_bind, pure_bind]
            split
            · cases ChannelControl.resetDmaInfo started.2 ⟨req.params.channel.toNat, hc⟩ with
              | error e => rfl
              | ok dev₃ => rfl
            split
            · rfl
            · rfl
  · rfl

/-- Without the accesses this is the function of the driver's model, to its end, up to
a store outside the page table. -/
theorem dmaExecute_curtails (env : InitEnv) (waiting : Waiting) (dev : TpceDev) (req : TpceDmaRequest) :
    Curtails FullTable (erase (dmaExecute env waiting dev req)) (dmaExecuteToEnd env waiting.wait dev req) := by
  rw [erase_dmaExecute, execute_settle]
  exact (PageTableFaults.dmaExecute_curtails env dev req).bind fun _ _ => .refl _ _

theorem erase_barRead (k : Kernel) (regInfo : TPciDevReg) (s : Session) :
    erase (iocBarRead k regInfo s) = IoctlCommands.iocBarRead k regInfo s := by
  simp only [iocBarRead, IoctlCommands.iocBarRead]
  split
  · rw [erase_ite]
    split
    · rfl
    · cases accessBytes regInfo.size with
      | none => rfl
      | some bytes => rfl
  · rfl

theorem erase_barWrite (k : Kernel) (regInfo : TPciDevReg) (s : Session) :
    erase (iocBarWrite k regInfo s) = IoctlCommands.iocBarWrite k regInfo s := by
  simp only [iocBarWrite, IoctlCommands.iocBarWrite]
  split
  · rw [erase_ite]
    split
    · rfl
    · cases accessBytes regInfo.size with
      | none => rfl
      | some bytes => rfl
  · rfl

theorem touchingOps_faithful : touchingOps.Faithful FullTable where
  abortReset := fun dev c => by
    simp only [touchingOps, tpceDmaAbort, erase_bind, erase_touch, ok_bind, erase_pure, erase_resetDmaInfo, pure_bind]
  dmaExecute := dmaExecute_curtails
  barRead := erase_barRead
  barWrite := erase_barWrite

theorem dispatched_curtails (k : Kernel) (env : CopyEnv) (call : UserCall) (s : IoDev) :
    Curtails (Handed FullTable) (erase (ioctlDispatched k env call s)) (IoctlCommands.ioctlDispatched k env call s) := by
  simp only [ioctlDispatched, IoctlCommands.ioctlDispatched, erase_ite, erase_lift, erase_pure, erase_bind,
    erase_touchIf, ok_bind]
  refine Curtails.ite (.refl _ _) (Curtails.ite (.refl _ _) (Curtails.ite (.refl _ _) (Curtails.ite (.refl _ _) ?_)))
  refine Curtails.ite (.refl _ _) ?_
  exact (erase_dispatch touchingOps_faithful k _ call.file call.cmd _ _ _).bind fun _ _ => .refl _ _

/-- Without the accesses this is the handler of the driver's model, up to a store
outside the page table. -/
theorem ioctl_curtails (k : Kernel) (env : CopyEnv) (call : UserCall) (s : IoDev) :
    Curtails (Handed FullTable) (erase (tpceIoctl k env call s)) (IoctlCommands.tpceIoctl k env call s) := by
  simp only [tpceIoctl, IoctlCommands.tpceIoctl, erase_ite, erase_pure, erase_bind, erase_touch, ok_bind]
  refine Curtails.ite (.refl _ _) ?_
  cases call.cmd with
  | event => exact .refl _ _
  | dmaStatus =>
      simp only [ioctlDmaStatus, erase_bind, erase_touch, ok_bind, erase_lift]
      exact .refl _ _
  | _ => exact dispatched_curtails k env call s

theorem erase_resetChannels (dev : TpceDev) (cs : List Channel) :
    erase (resetChannels dev cs) = Requests.resetChannels dev cs := by
  induction cs generalizing dev with
  | nil => rfl
  | cons c cs ih => simp only [resetChannels, Requests.resetChannels, erase_bind, erase_resetDmaInfo, ih]

theorem erase_freeDescriptors (dev : TpceDev) (cs : List Channel) :
    erase (freeDescriptors dev cs) = .ok (cs.foldl tpceDmaFreeDescriptorsMem dev) := by
  induction cs generalizing dev with
  | nil => rfl
  | cons c cs ih => simp only [freeDescriptors, erase_bind, erase_touchIf, ok_bind, ih, List.foldl_cons]

theorem erase_dmaFree (dev : TpceDev) : erase (tpceDmaFree dev) = Requests.tpceDmaFree dev := by
  simp only [tpceDmaFree, Requests.tpceDmaFree, erase_bind, erase_lift, erase_freeDescriptors]
  rfl

end TpceDrv.Lifetime
