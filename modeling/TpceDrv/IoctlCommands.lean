import TpceDrv.Ioctl
import TpceDrv.LegacyRead
import TpceDrv.RequestAtomicity

namespace TpceDrv.IoctlCommands

open Descriptor DmaInfo Mapping Device ChannelControl Requests RequestAtomicity UserStructs LegacyRead
open Library.Buffers
open Ioctl (TpceIoc IoctlData storedSize bufferSize tpceIobufferSize pciDevRegSize pciConfRegSize dmaBufInSize
  dmaBufOutSize dmaMapIdSize dmaRequestDataSize dmaTpceDataReadSize dmaRequestSize u32Size noneSize)

def tpceNumBars : Nat := 2

/-- What a command asks of the device, of the kernel and of the functions below
it -/
inductive Call
  | ioread (bytes : Nat) (bar : Fin 2) (offset : U32)
  | iowrite (bytes : Nat) (bar : Fin 2) (offset data : U32)
  | configRead (bytes : Nat) (offset : U32)
  | configWrite (bytes : Nat) (offset data : U32)
  | lockUserBuffer (bufferInfo : TpceDmaBufIn)
  | readKernelDmaBuffer (read : KernelRead)
  | copyToUser (dst : U64) (offset length : U32)
  | executeRequest (req : TpceDmaRequest)

/-- The sizes of the BARs, and what the device and the kernel answer to the last
of a list of calls. -/
structure Kernel where
  barSize : Fin 2 → U64
  ioread : List Call → U32
  configRead : List Call → U32
  lock : List Call → LockEnv
  init : List Call → InitEnv
  wait : List Call → Wait
  missed : List Call → Nat

structure Session where
  dev : TpceDev
  calls : List Call

inductive IoctlFault
  | driver (fault : Fault)
  | barIndex (addrSpace : U32)
  | ioBuffer (length : Nat)
  deriving DecidableEq, Repr

/-- The status of a command, and what it has written to the start of
`io_buffer` -/
structure Reply where
  status : Int
  written : List Byte
  session : Session

def Session.ask (s : Session) (call : Call) : Session := { s with calls := s.calls ++ [call] }

def orFault {α : Type} (x : Except Fault α) : Except IoctlFault α := x.mapError .driver

/-- The caller has waited to the end. -/
def returnCode : Outcome → Int
  | .returned status => status
  | .waits => 0

/-- A register size that can be accessed -/
def accessBytes (size : U32) : Option Nat :=
  if size = 1 ∨ size = 2 ∨ size = 4 then some size.toNat else none

/-- The low bytes of a value -/
def lowBytes (bytes : Nat) (v : U32) : U32 := (v.setWidth (8 * bytes)).setWidth 32

def iocBarRead (k : Kernel) (regInfo : TPciDevReg) (s : Session) : Except IoctlFault (U32 × Session) :=
  if h : regInfo.addrSpace.toNat < tpceNumBars then
    let bar : Fin 2 := ⟨regInfo.addrSpace.toNat, h⟩
    if regInfo.offset.setWidth 64 > k.barSize bar then pure (0, s)
    else
      match accessBytes regInfo.size with
      | some bytes =>
          let s := s.ask (.ioread bytes bar regInfo.offset)
          pure (lowBytes bytes (k.ioread s.calls), s)
      | none => pure (0, s)
  else .error (.barIndex regInfo.addrSpace)

def iocBarWrite (k : Kernel) (regInfo : TPciDevReg) (s : Session) : Except IoctlFault Reply :=
  if h : regInfo.addrSpace.toNat < tpceNumBars then
    let bar : Fin 2 := ⟨regInfo.addrSpace.toNat, h⟩
    if regInfo.offset.setWidth 64 > k.barSize bar then pure ⟨-Errno.einval, [], s⟩
    else
      match accessBytes regInfo.size with
      | some bytes => pure ⟨0, [], s.ask (.iowrite bytes bar regInfo.offset (lowBytes bytes regInfo.data))⟩
      | none => pure ⟨0, [], s⟩
  else .error (.barIndex regInfo.addrSpace)

def iocConfigReadwrite (k : Kernel) (confreg : TPciConfReg) (s : Session) : Reply :=
  match accessBytes confreg.size with
  | none => ⟨-Errno.einval, [], s⟩
  | some bytes =>
      if confreg.isWrite ≠ 0 then
        ⟨0, [], s.ask (.configWrite bytes confreg.offset (lowBytes bytes confreg.data))⟩
      else
        let s := s.ask (.configRead bytes confreg.offset)
        ⟨0, u32Bytes (lowBytes bytes (k.configRead s.calls)), s⟩

theorem iocConfigReadwrite_dev (k : Kernel) (confreg : TPciConfReg) (s : Session) :
    (iocConfigReadwrite k confreg s).session.dev = s.dev := by
  simp only [iocConfigReadwrite]
  split
  · rfl
  · split
    · rfl
    · rfl

/-- `dma_execute` to its end, from what it returns in front of the wait -/
def settle (wait : Wait) (r : Outcome × TpceDev) : Except Fault (Outcome × TpceDev) :=
  match r.1, r.2.waiting with
  | .waits, some c => do
      let dev ← (if wait.completion then tpceDmaCompletion r.2 c else pure r.2)
      finishWait dev c wait.ending
  | _, _ => pure r

def sessionOps (k : Kernel) : LegacyOps Session where
  readKernelDmaBuffer := fun read s => do
    let s := s.ask (.readKernelDmaBuffer read)
    let r ← readKernelDmaBuffer (k.init s.calls) s.dev read
    let (out, dev) ← settle (k.wait s.calls) r
    pure (returnCode out, { s with dev := dev })
  hasKernelDma := fun s => (xaLoad s.dev tpceDmaDriverBufferId).isSome
  copyToUser := fun dst offset length s =>
    let s := s.ask (.copyToUser dst offset length)
    (k.missed s.calls, s)

def lockCommand (k : Kernel) (file : Nat) (bufferInfo : TpceDmaBufIn) (s : Session) : Except Fault Reply := do
  let s := s.ask (.lockUserBuffer bufferInfo)
  let (out, dev) ← iocLockDmaBuffer (k.lock s.calls) s.dev file bufferInfo
  let written :=
    match returnCode out, dev.mapInfos s.dev.nextObj with
    | 0, some mapInfo => dmaBufOut mapInfo.id (BitVec.ofNat 32 mapInfo.sgt.nents)
    | _, _ => []
  pure ⟨returnCode out, written, { s with dev := dev }⟩

def unlockCommand (file : Nat) (id : U32) (s : Session) : Except Fault Reply := do
  let (out, dev) ← iocUnlockDmaBuffer s.dev file id
  pure ⟨returnCode out, [], { s with dev := dev }⟩

def executeCommand (k : Kernel) (file : Nat) (req : TpceDmaRequest) (s : Session) : Except Fault Reply :=
  let err := validateDmaRequest s.dev req (some file)
  if err ≠ 0 then pure ⟨err, [], s⟩
  else do
    let s := s.ask (.executeRequest req)
    let (out, dev) ← dmaExecuteToEnd (k.init s.calls) (k.wait s.calls) s.dev req
    pure ⟨returnCode out, [], { s with dev := dev }⟩

def cancelCommand (channel : U32) (s : Session) : Except Fault Reply := do
  let (out, dev) ← iocDmaCancel s.dev channel
  pure ⟨returnCode out, [], { s with dev := dev }⟩

def legacyCommand (r : Except Fault (Int × Session)) : Except Fault Reply := do
  let (err, s) ← r
  pure ⟨err, [], s⟩

/-- The macro `validate_size` in front of a command's function -/
def validateSize (size : U32) (inType outType : Nat) (s : Session) (body : Except IoctlFault Reply) :
    Except IoctlFault Reply :=
  if size.toNat < inType ∨ size.toNat < outType then pure ⟨-Errno.einval, [], s⟩ else body

def tpceDispatchIoc (k : Kernel) (file : Nat) (ioc : TpceIoc) (size : U32) (b : Bytes) (s : Session) :
    Except IoctlFault Reply :=
  match ioc with
  | .pciBarRead => validateSize size pciDevRegSize u32Size s do
      let (v, s) ← iocBarRead k (pciDevReg b) s
      pure ⟨0, u32Bytes v, s⟩
  | .pciBarWrite => validateSize size pciDevRegSize noneSize s (iocBarWrite k (pciDevReg b) s)
  | .pciBarBlockRead => pure ⟨-Errno.enosys, [], s⟩
  | .pciBarBlockWrite => pure ⟨-Errno.enosys, [], s⟩
  | .event => pure ⟨-Errno.eio, [], s⟩
  | .dmaGetAndLockSgl =>
      validateSize size dmaBufInSize dmaBufOutSize s (orFault (lockCommand k file (dmaBufIn b) s))
  | .dmaFreeSgl => validateSize size dmaMapIdSize noneSize s (orFault (unlockCommand file (u32At b 0) s))
  | .dmaFlush => pure ⟨-Errno.enosys, [], s⟩
  | .dmaRead => validateSize size dmaRequestDataSize noneSize s
      (orFault (legacyCommand (iocDmaReadRequest (sessionOps k) (dmaRequestData b) s)))
  | .dmaWrite => validateSize size dmaRequestDataSize noneSize s (pure ⟨-Errno.enosys, [], s⟩)
  | .rwConfigspace => validateSize size pciConfRegSize u32Size s (pure (iocConfigReadwrite k (pciConfReg b) s))
  | .getIntstat => pure ⟨-Errno.enotty, [], s⟩
  | .dmaRead2 => validateSize size dmaTpceDataReadSize noneSize s
      (orFault (legacyCommand (iocDmaReadRequestA (sessionOps k) (dmaTpceDataRead b) s)))
  | .dmaExecute => validateSize size dmaRequestSize noneSize s (orFault (executeCommand k file (dmaRequest b) s))
  | .dmaCancel => validateSize size u32Size noneSize s (orFault (cancelCommand (u32At b 0) s))
  | .dmaStatus => pure ⟨-Errno.eio, [], s⟩
  | .unknown _ => pure ⟨-Errno.enotty, [], s⟩

/-- The driver's data of one device with the pending events and the shared
`io_buffer` -/
structure IoDev where
  dev : TpceDev
  events : U32
  ioBuffer : Bytes

/-- One ioctl: the file, the command, its argument and the memory behind
`in_buffer` -/
structure UserCall where
  file : Nat
  cmd : TpceIoc
  iodata : IoctlData
  input : Bytes

/-- What the user memory, the lock and the allocator answer, and what lies in
kernel memory behind the buffer. -/
structure CopyEnv where
  argOk : Bool
  inMissed : Nat
  outMissed : Nat
  killed : Bool
  kvzallocOk : Bool
  behind : Bytes

/-- The bytes that reach `out_buffer`, and the state after the call -/
structure IoctlResult where
  status : Int
  calls : List Call
  output : List Byte
  after : IoDev

/-- `tpce_dma_channel_state` as a number -/
def stateCode : TpceDmaChannelState → U32
  | .idle => 0
  | .initialized => 1
  | .running => 3
  | .complete => 4
  | .error => 5

/-- `copy_to_user` of these bytes to `out_buffer` -/
def CopyEnv.toUser (env : CopyEnv) (bytes : List Byte) : Int × List Byte :=
  let missed := min env.outMissed bytes.length
  (if missed ≠ 0 then -Errno.efault else 0, bytes.take (bytes.length - missed))

def ioctlEvent (env : CopyEnv) (s : IoDev) : IoctlResult :=
  let (status, output) := env.toUser (u32Bytes s.events)
  ⟨status, [], output, { s with events := 0 }⟩

/-- `TPCE_IOC_DMA_STATUS` takes its input through the shared buffer, without the
lock. -/
def ioctlDmaStatus (env : CopyEnv) (call : UserCall) (s : IoDev) : Except IoctlFault IoctlResult :=
  let length := call.iodata.inSize.toNat
  let missed := min env.inMissed length
  if length > tpceIobufferSize then .error (.ioBuffer length)
  else
    let b := copyIn s.ioBuffer call.input length missed
    let s := { s with ioBuffer := b }
    if missed ≠ 0 then pure ⟨-Errno.efault, [], [], s⟩
    else if h : (u32At b 0).toNat < 3 then
      let (status, output) := env.toUser (u32Bytes (stateCode (s.dev.dmaInfo ⟨(u32At b 0).toNat, h⟩).state))
      pure ⟨status, [], output, s⟩
    else pure ⟨-Errno.einval, [], [], s⟩

/-- Whether a command gets a buffer of its own -/
def localBuffer (iodata : IoctlData) : Bool := (storedSize iodata).toNat > tpceIobufferSize

/-- `iodata_drv.io_buffer` in front of the copies -/
def startBuffer (iodata : IoctlData) (s : IoDev) : Bytes :=
  if localBuffer iodata then fun _ => 0 else s.ioBuffer

/-- The shared buffer once the command has used its buffer -/
def keepBuffer (iodata : IoctlData) (s : IoDev) (b : Bytes) : Bytes :=
  if localBuffer iodata then s.ioBuffer else b

/-- The end of `tpce_ioctl` behind the dispatcher -/
def finishIoctl (env : CopyEnv) (iodata : IoctlData) (b : Bytes) (s : IoDev) (reply : Reply) : IoctlResult :=
  let b := overlay reply.written b
  let after : IoDev := ⟨reply.session.dev, s.events, keepBuffer iodata s b⟩
  if reply.status = 0 ∧ iodata.outSize > 0 then
    let (status, output) := env.toUser (copyOut b env.behind (bufferSize (storedSize iodata)) iodata.outSize.toNat)
    ⟨status, reply.session.calls, output, after⟩
  else ⟨reply.status, reply.session.calls, [], after⟩

/-- The rest of `tpce_ioctl` for the commands of the dispatcher -/
def ioctlDispatched (k : Kernel) (env : CopyEnv) (call : UserCall) (s : IoDev) : Except IoctlFault IoctlResult :=
  let length := call.iodata.inSize.toNat
  let missed := min env.inMissed length
  if env.killed then pure ⟨-Errno.eintr, [], [], s⟩
  else if s.dev.goingAway then pure ⟨-Errno.enodev, [], [], s⟩
  else if localBuffer call.iodata && !env.kvzallocOk then pure ⟨-Errno.enomem, [], [], s⟩
  else if length > bufferSize (storedSize call.iodata) then .error (.ioBuffer length)
  else
    let b := copyIn (startBuffer call.iodata s) call.input length missed
    if missed ≠ 0 then pure ⟨-Errno.efault, [], [], { s with ioBuffer := keepBuffer call.iodata s b }⟩
    else do
      let reply ← tpceDispatchIoc k call.file call.cmd (storedSize call.iodata) b ⟨s.dev, []⟩
      pure (finishIoctl env call.iodata b s reply)

def tpceIoctl (k : Kernel) (env : CopyEnv) (call : UserCall) (s : IoDev) : Except IoctlFault IoctlResult :=
  if !env.argOk then pure ⟨-Errno.efault, [], [], s⟩
  else
    match call.cmd with
    | .event => pure (ioctlEvent env s)
    | .dmaStatus => ioctlDmaStatus env call s
    | _ => ioctlDispatched k env call s

/-- Whether the call gets `tpce->mutex` -/
def takesMutex (env : CopyEnv) (call : UserCall) : Bool :=
  env.argOk && !env.killed && call.cmd ≠ .event && call.cmd ≠ .dmaStatus

end TpceDrv.IoctlCommands
