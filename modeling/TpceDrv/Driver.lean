import TpceDrv.Requests
import TpceDrv.Library.Runs

namespace TpceDrv.Driver

open DmaInfo Mapping Device ChannelControl Requests

/-- The entry points of the driver, with the answers of the environment. The
ones of a file go through `tpce_ioctl`. -/
inductive Op
  | openFile
  | lockBuffer (file : Nat) (env : LockEnv) (bufferInfo : TpceDmaBufIn)
  | unlockBuffer (file : Nat) (id : U32)
  | execute (file : Nat) (env : InitEnv) (req : TpceDmaRequest)
  | kernelRead (file : Nat) (env : InitEnv) (r : KernelRead)
  | cancel (file : Nat) (channel : U32)
  | wake (w : WaitEnd)
  | dmaWork (c : Channel)
  | release (file : Nat)
  | mmap (file : Nat) (env : MmapEnv) (c : Channel)
  | vmaOpen (c : Channel)
  | vmaClose (c : Channel)
  | goAway
  | remove

/-- The file behind an ioctl -/
def Op.ioctlFile : Op → Option Nat
  | .lockBuffer file _ _ | .unlockBuffer file _ | .execute file _ _ | .kernelRead file _ _
  | .cancel file _ => some file
  | _ => none

def mutexFree (dev : TpceDev) : Bool := dev.waiting.isNone && !dev.mutexLeaked

/-- Whether the call can happen now: the file is open, the area mapped, and
`tpce->mutex` free where the call takes it. A waiter sees its condition. -/
def enabled (dev : TpceDev) : Op → Bool
  | .openFile | .dmaWork _ => true
  | .lockBuffer file _ _ | .unlockBuffer file _ | .execute file _ _ | .kernelRead file _ _
  | .cancel file _ | .release file | .mmap file _ _ => mutexFree dev && dev.files.contains file
  | .wake w => dev.waiting.any fun c => w ≠ .completed || (dev.dmaInfo c).state ≠ .running
  | .vmaOpen c => 0 < dev.vmas c
  | .vmaClose c => mutexFree dev && 0 < dev.vmas c
  | .goAway => mutexFree dev
  | .remove => mutexFree dev && dev.goingAway

/-- The request that a call hands to `dma_execute` once it is validated. -/
def validatedRequest (dev : TpceDev) : Op → Option (InitEnv × TpceDmaRequest)
  | .execute file env req => if validateDmaRequest dev req (some file) = 0 then some (env, req) else none
  | .kernelRead _ env r =>
      match Descriptor.channelInfo r.channel with
      | .error _ => none
      | .ok chInfo =>
          if r.bytesTotal ≤ tpceDmaDriverBufferSize ∧ validateDmaRequest dev (r.request chInfo) none = 0 then
            some (env, r.request chInfo)
          else none
  | _ => none

def tpceOpen (dev : TpceDev) : Outcome × TpceDev :=
  if dev.goingAway then (.returned (-Errno.enodev), dev)
  else (.returned 0, { dev with files := dev.nextFile :: dev.files, nextFile := dev.nextFile + 1 })

def perform (dev : TpceDev) (op : Op) : Except Fault (Outcome × TpceDev) :=
  if op.ioctlFile.isSome && dev.goingAway then .ok (.returned (-Errno.enodev), dev)
  else
    match op with
    | .openFile => .ok (tpceOpen dev)
    | .lockBuffer file env bufferInfo => iocLockDmaBuffer env dev file bufferInfo
    | .unlockBuffer file id => iocUnlockDmaBuffer dev file id
    | .execute file env req => iocDmaExecute env dev file req
    | .kernelRead _ env r => readKernelDmaBuffer env dev r
    | .cancel _ channel => iocDmaCancel dev channel
    | .wake w =>
        match dev.waiting with
        | some c => finishWait dev c w
        | none => .ok (.returned 0, dev)
    | .dmaWork c => (tpceDmaCompletion dev c).map fun dev => (.returned 0, dev)
    | .release file => tpceRelease dev file
    | .mmap _ env c => .ok (tpceMmap env dev c)
    | .vmaOpen c => .ok (.returned 0, vmaStreamInfoOpen dev c)
    | .vmaClose c => .ok (.returned 0, vmaStreamInfoClose dev c)
    | .goAway => .ok (.returned 0, { dev with goingAway := true })
    | .remove => finishRemove dev

/-- One call that the driver survives. -/
def step (dev : TpceDev) (op : Op) : Option TpceDev :=
  if enabled dev op then (perform dev op).toOption.map Prod.snd else none

theorem step_eq_some {dev dev' : TpceDev} {op : Op} :
    step dev op = some dev' ↔ enabled dev op = true ∧ ∃ out, perform dev op = .ok (out, dev') := by
  simp only [step]
  split
  · rename_i h
    cases perform dev op with
    | error e => simp [Except.toOption]
    | ok r => simp [Except.toOption, h, Prod.ext_iff]
  · rename_i h
    simp [h]

theorem kernelRead_eq {env : InitEnv} {dev : TpceDev} {file : Nat} {r : KernelRead} :
    ∃ err, readKernelDmaBuffer env dev r =
      match validatedRequest dev (.kernelRead file env r) with
      | some (env, req) => dmaExecute env dev req
      | none => .ok (.returned err, dev) := by
  simp only [readKernelDmaBuffer, validatedRequest]
  by_cases hch : r.channel.toNat ≥ tpceDmaNumChannels
  · have herr : Descriptor.channelInfo r.channel = .error (.channelIndex r.channel) := by
      simp only [Descriptor.channelInfo]
      rw [List.getElem?_eq_none (by exact hch)]
    exact ⟨-Errno.einval, by simp only [if_pos hch, herr]; rfl⟩
  · rw [if_neg hch]
    obtain ⟨chInfo, hinfo⟩ := Descriptor.channelInfo_exists (Nat.not_le.mp hch)
    simp only [hinfo]
    by_cases hsize : r.bytesTotal > tpceDmaDriverBufferSize
    · have hno : ¬(r.bytesTotal ≤ tpceDmaDriverBufferSize ∧
          validateDmaRequest dev (r.request chInfo) none = 0) := fun h => BitVec.not_lt.mpr h.1 hsize
      exact ⟨_, by rw [if_pos hsize, if_neg hno]; rfl⟩
    · rw [if_neg hsize]
      by_cases hval : validateDmaRequest dev (r.request chInfo) none = 0
      · refine ⟨0, ?_⟩
        rw [if_pos ⟨BitVec.not_lt.mp hsize, hval⟩]
        simp [bind, Except.bind, hval]
      · refine ⟨validateDmaRequest dev (r.request chInfo) none, ?_⟩
        rw [if_neg fun h => hval h.2]
        simp [bind, Except.bind, hval, pure, Except.pure]

theorem execute_eq {env : InitEnv} {dev : TpceDev} {file : Nat} {req : TpceDmaRequest} :
    ∃ err, iocDmaExecute env dev file req =
      match validatedRequest dev (.execute file env req) with
      | some (env, req) => dmaExecute env dev req
      | none => .ok (.returned err, dev) := by
  refine ⟨validateDmaRequest dev req (some file), ?_⟩
  simp only [iocDmaExecute, validatedRequest]
  by_cases h : validateDmaRequest dev req (some file) = 0
  · simp [h]
  · simp [h, pure, Except.pure]

end TpceDrv.Driver
