import TpceDrv.IoctlCommands
import Mathlib.Data.List.GetD

namespace TpceDrv.NonInterference

open Descriptor DmaInfo Mapping Device ChannelControl Requests RequestAtomicity UserStructs LegacyRead IoctlCommands
open Library.Buffers
open Ioctl (TpceIoc IoctlData Succeeds storedSize bufferSize bufferSize_ge storedSize_toNat validateSize_eq_zero
  tpceIobufferSize)

variable {k : Kernel} {env : CopyEnv} {file : ℕ} {cmd : TpceIoc} {iodata : IoctlData} {size : U32}
variable {b b' : Bytes} {s : Session} {reply : Reply}

/-- All of a call that its caller and the rest of the driver can tell -/
structure Observation where
  status : Int
  calls : List Call
  output : List Byte
  dev : TpceDev
  events : U32

def observe (r : IoctlResult) : Observation := ⟨r.status, r.calls, r.output, r.after.dev, r.after.events⟩

def observed (r : Except IoctlFault IoctlResult) : Except IoctlFault Observation := r.map observe

/-- The input does not overrun its buffer. -/
def Contained {α : Type} (r : Except IoctlFault α) : Prop := ∀ n, r ≠ .error (.ioBuffer n)

/-- Both runs are the same, and the input stays in its buffer. -/
def Unaffected (r r' : Except IoctlFault IoctlResult) : Prop := observed r = observed r' ∧ Contained r

/-- What an earlier call has left in the shared buffer changes nothing. -/
def NonInterfering (cmd : TpceIoc) (iodata : IoctlData) : Prop :=
  ∀ k env file input dev events (b b' : Bytes),
    Unaffected (tpceIoctl k env ⟨file, cmd, iodata, input⟩ ⟨dev, events, b⟩)
      (tpceIoctl k env ⟨file, cmd, iodata, input⟩ ⟨dev, events, b'⟩)

/-- The caller supplies what the command reads and copies back. -/
def InputCovers (cmd : TpceIoc) (iodata : IoctlData) : Prop :=
  match cmd with
  | .event => True
  | .dmaStatus => 4 ≤ iodata.inSize.toNat ∧ iodata.inSize.toNat ≤ tpceIobufferSize
  | cmd => iodata.inSize.toNat ≤ bufferSize (storedSize iodata) ∧
      (localBuffer iodata = true ∨ min iodata.outSize.toNat tpceIobufferSize ≤ iodata.inSize.toNat ∨
        ¬Succeeds cmd (storedSize iodata))

theorem inputCovers_iff (hevent : cmd ≠ .event) (hstatus : cmd ≠ .dmaStatus) : InputCovers cmd iodata ↔
    iodata.inSize.toNat ≤ bufferSize (storedSize iodata) ∧
      (localBuffer iodata = true ∨ min iodata.outSize.toNat tpceIobufferSize ≤ iodata.inSize.toNat ∨
        ¬Succeeds cmd (storedSize iodata)) := by
  cases cmd with
  | event => exact absurd rfl hevent
  | dmaStatus => exact absurd rfl hstatus
  | _ => exact Iff.rfl

instance (cmd : TpceIoc) (size : U32) : Decidable (Succeeds cmd size) :=
  inferInstanceAs (Decidable (Ioctl.tpceDispatchIoc 0 cmd size = 0))

/-- The bytes of its input that a command reads -/
def readSize : TpceIoc → ℕ
  | .pciBarRead => 16
  | .pciBarWrite => 16
  | .dmaGetAndLockSgl => 29
  | .dmaFreeSgl => 4
  | .dmaRead => 22
  | .rwConfigspace => 13
  | .dmaRead2 => 81
  | .dmaExecute => 53
  | .dmaCancel => 4
  | _ => 0

theorem validateSize_of_fits {inType outType : ℕ} (h : Ioctl.validateSize size inType outType 0 = 0)
    (body : Except IoctlFault Reply) : validateSize size inType outType s body = body :=
  if_neg (validateSize_eq_zero.mp h).1

theorem validateSize_of_short {inType outType : ℕ} (h : Ioctl.validateSize size inType outType 0 ≠ 0)
    (body : Except IoctlFault Reply) : validateSize size inType outType s body = .ok ⟨-Errno.einval, [], s⟩ := by
  apply if_pos
  by_contra hfits
  exact h (validateSize_eq_zero.mpr ⟨hfits, rfl⟩)

theorem le_of_fits {inType outType n : ℕ} (h : Ioctl.validateSize size inType outType 0 = 0) (hn : n ≤ inType) :
    n ≤ size.toNat := by
  have hfits := (validateSize_eq_zero.mp h).1
  omega

/-- A command whose size is too small, or that is not implemented, does
nothing. -/
theorem dispatch_rejected (h : ¬Succeeds cmd size) :
    ∃ err < 0, ∀ b, tpceDispatchIoc k file cmd size b s = .ok ⟨err, [], s⟩ := by
  have hshort : ∀ inType outType (body : Bytes → Except IoctlFault Reply),
      Ioctl.validateSize size inType outType 0 ≠ 0 →
        ∃ err < 0, ∀ b, validateSize size inType outType s (body b) = .ok ⟨err, [], s⟩ :=
    fun _ _ body hbad => ⟨-Errno.einval, by decide, fun b => validateSize_of_short hbad (body b)⟩
  cases cmd with
  | pciBarRead | pciBarWrite | dmaGetAndLockSgl | dmaFreeSgl | dmaRead | rwConfigspace | dmaRead2 | dmaExecute
  | dmaCancel => exact hshort _ _ _ h
  | pciBarBlockRead | pciBarBlockWrite | dmaFlush => exact ⟨-Errno.enosys, by decide, fun _ => rfl⟩
  | event | dmaStatus => exact ⟨-Errno.eio, by decide, fun _ => rfl⟩
  | getIntstat | unknown ioc => exact ⟨-Errno.enotty, by decide, fun _ => rfl⟩
  | dmaWrite =>
      by_cases hsize : size.toNat < Ioctl.dmaRequestDataSize ∨ size.toNat < Ioctl.noneSize
      · exact ⟨-Errno.einval, by decide, fun _ => if_pos hsize⟩
      · exact ⟨-Errno.enosys, by decide, fun _ => if_neg hsize⟩

theorem readSize_le (h : Succeeds cmd size) : readSize cmd ≤ size.toNat := by
  cases cmd with
  | pciBarRead | pciBarWrite | dmaGetAndLockSgl | dmaFreeSgl | dmaRead | rwConfigspace | dmaRead2 | dmaExecute
  | dmaCancel => exact le_of_fits h (by decide)
  | _ => exact Nat.zero_le _

theorem dispatch_congr (h : AgreeBelow (readSize cmd) b b') :
    tpceDispatchIoc k file cmd size b s = tpceDispatchIoc k file cmd size b' s := by
  cases cmd with
  | pciBarRead => simp only [tpceDispatchIoc, pciDevReg_congr h]
  | pciBarWrite => simp only [tpceDispatchIoc, pciDevReg_congr h]
  | dmaGetAndLockSgl => simp only [tpceDispatchIoc, dmaBufIn_congr h]
  | dmaFreeSgl => simp only [tpceDispatchIoc, u32At_congr h 0 (Nat.le_refl 4)]
  | dmaRead => simp only [tpceDispatchIoc, dmaRequestData_congr h]
  | rwConfigspace => simp only [tpceDispatchIoc, pciConfReg_congr h]
  | dmaRead2 => simp only [tpceDispatchIoc, dmaTpceDataRead_congr h]
  | dmaExecute => simp only [tpceDispatchIoc, dmaRequest_congr h]
  | dmaCancel => simp only [tpceDispatchIoc, u32At_congr h 0 (Nat.le_refl 4)]
  | _ => rfl

theorem dispatch_size (h : Succeeds cmd size) :
    tpceDispatchIoc k file cmd size b s = tpceDispatchIoc k file cmd 128#32 b s := by
  cases cmd with
  | pciBarRead | pciBarWrite | dmaGetAndLockSgl | dmaFreeSgl | dmaRead | rwConfigspace | dmaRead2 | dmaExecute
  | dmaCancel => exact validateSize_of_fits h _
  | dmaWrite => exact validateSize_of_fits (validateSize_eq_zero.mpr ⟨(validateSize_eq_zero.mp h).1, rfl⟩) _
  | _ => rfl

theorem observe_finish {n : ℕ} {dev : TpceDev} {events : U32} {c c' : Bytes} (h : AgreeBelow n b b')
    (hout : reply.status = 0 → min iodata.outSize.toNat (bufferSize (storedSize iodata)) ≤ n) :
    observe (finishIoctl env iodata b ⟨dev, events, c⟩ reply) =
      observe (finishIoctl env iodata b' ⟨dev, events, c'⟩ reply) := by
  simp only [finishIoctl]
  split
  · rename_i hok
    rw [(h.overlay reply.written).copyOut (hout hok.1)]
    rfl
  · rfl

/-- Two starting contents that agree where the command reads and copies back
give the same run. -/
theorem dispatched_congr {n : ℕ} {call : UserCall} {dev : TpceDev} {events : U32} {c c' : Bytes}
    (h : AgreeBelow n
      (copyIn (startBuffer call.iodata ⟨dev, events, c⟩) call.input call.iodata.inSize.toNat
        (min env.inMissed call.iodata.inSize.toNat))
      (copyIn (startBuffer call.iodata ⟨dev, events, c'⟩) call.input call.iodata.inSize.toNat
        (min env.inMissed call.iodata.inSize.toNat)))
    (hread : Succeeds call.cmd (storedSize call.iodata) → readSize call.cmd ≤ n)
    (hout : Succeeds call.cmd (storedSize call.iodata) →
      min call.iodata.outSize.toNat (bufferSize (storedSize call.iodata)) ≤ n) :
    observed (ioctlDispatched k env call ⟨dev, events, c⟩) =
      observed (ioctlDispatched k env call ⟨dev, events, c'⟩) := by
  simp only [ioctlDispatched]
  split
  · rfl
  split
  · rfl
  split
  · rfl
  split
  · rfl
  split
  · rfl
  by_cases hok : Succeeds call.cmd (storedSize call.iodata)
  · rw [dispatch_congr (h.mono (hread hok))]
    cases tpceDispatchIoc k call.file call.cmd (storedSize call.iodata) _ ⟨dev, []⟩ with
    | error fault => rfl
    | ok reply => exact congrArg Except.ok (observe_finish h fun _ => hout hok)
  · obtain ⟨err, hneg, hdispatch⟩ := dispatch_rejected hok
    rw [hdispatch, hdispatch]
    refine congrArg Except.ok (observe_finish h fun hzero => ?_)
    have hzero : err = 0 := hzero
    omega

theorem localBuffer_eq_false : localBuffer iodata = false ↔ (storedSize iodata).toNat ≤ tpceIobufferSize := by
  simp only [localBuffer]
  rw [decide_eq_false_iff_not, Nat.not_lt]

theorem bufferSize_shared (h : localBuffer iodata = false) :
    bufferSize (storedSize iodata) = tpceIobufferSize := if_neg (Nat.not_lt.mpr (localBuffer_eq_false.mp h))

/-- The size of a command in the shared buffer is in the part that its caller
supplies, as soon as the output is. -/
theorem storedSize_le (hshared : localBuffer iodata = false)
    (hout : min iodata.outSize.toNat tpceIobufferSize ≤ iodata.inSize.toNat) :
    (storedSize iodata).toNat ≤ iodata.inSize.toNat := by
  have hsize := storedSize_toNat iodata
  have hle := localBuffer_eq_false.mp hshared
  have hmod := Nat.mod_le (max iodata.inSize.toNat iodata.outSize.toNat) (2 ^ 32)
  omega

theorem dispatched_unaffected {call : UserCall} {dev : TpceDev} {events : U32} {c c' : Bytes}
    (hcovers : localBuffer call.iodata = true ∨
      min call.iodata.outSize.toNat tpceIobufferSize ≤ call.iodata.inSize.toNat ∨
        ¬Succeeds call.cmd (storedSize call.iodata)) :
    observed (ioctlDispatched k env call ⟨dev, events, c⟩) =
      observed (ioctlDispatched k env call ⟨dev, events, c'⟩) := by
  cases hlocal : localBuffer call.iodata with
  | true =>
      have hstart : ∀ c, startBuffer call.iodata ⟨dev, events, c⟩ = fun _ => 0 := fun c => if_pos hlocal
      refine dispatched_congr (n := max (readSize call.cmd) (bufferSize (storedSize call.iodata))) ?_
        (fun _ => Nat.le_max_left _ _) fun _ => (Nat.min_le_right _ _).trans (Nat.le_max_right _ _)
      rw [hstart, hstart]
      exact .refl _ _
  | false =>
      have hstart : ∀ c, startBuffer call.iodata ⟨dev, events, c⟩ = c := fun c => if_neg (by simp [hlocal])
      refine dispatched_congr (n := call.iodata.inSize.toNat) ?_ (fun hok => ?_) fun hok => ?_
      · rw [hstart, hstart]
        exact copyIn_agree c c' call.input _ _
      · have hout := (hcovers.resolve_left (by simp [hlocal])).resolve_right (not_not.mpr hok)
        exact (readSize_le hok).trans (storedSize_le hlocal hout)
      · rw [bufferSize_shared hlocal]
        exact (hcovers.resolve_left (by simp [hlocal])).resolve_right (not_not.mpr hok)

theorem contained_pure {α : Type} (a : α) : Contained (pure a) := by
  intro n h
  cases h

theorem Contained.bind {α β : Type} {x : Except IoctlFault α} {f : α → Except IoctlFault β} (hx : Contained x)
    (hf : ∀ a, Contained (f a)) : Contained (x >>= f) := by
  cases x with
  | error fault => exact fun n h => hx n (congrArg Except.error (Except.error.inj h))
  | ok a => exact hf a

theorem contained_orFault {α : Type} (x : Except Fault α) : Contained (orFault x) := by
  cases x with
  | error fault => exact fun n h => IoctlFault.noConfusion (Except.error.inj h)
  | ok a => exact contained_pure a

theorem contained_validateSize {inType outType : ℕ} {body : Except IoctlFault Reply} (h : Contained body) :
    Contained (validateSize size inType outType s body) := by
  simp only [validateSize]
  split
  · exact contained_pure _
  · exact h

theorem contained_barIndex {α : Type} (addrSpace : U32) :
    Contained (.error (.barIndex addrSpace) : Except IoctlFault α) :=
  fun _ h => IoctlFault.noConfusion (Except.error.inj h)

theorem contained_iocBarRead (regInfo : TPciDevReg) : Contained (iocBarRead k regInfo s) := by
  simp only [iocBarRead]
  split
  · split
    · exact contained_pure _
    · split
      · exact contained_pure _
      · exact contained_pure _
  · exact contained_barIndex _

theorem contained_iocBarWrite (regInfo : TPciDevReg) : Contained (iocBarWrite k regInfo s) := by
  simp only [iocBarWrite]
  split
  · split
    · exact contained_pure _
    · split
      · exact contained_pure _
      · exact contained_pure _
  · exact contained_barIndex _

theorem contained_dispatch : Contained (tpceDispatchIoc k file cmd size b s) := by
  cases cmd with
  | pciBarRead => exact contained_validateSize ((contained_iocBarRead _).bind fun _ => contained_pure _)
  | pciBarWrite => exact contained_validateSize (contained_iocBarWrite _)
  | dmaWrite | rwConfigspace => exact contained_validateSize (contained_pure _)
  | dmaGetAndLockSgl | dmaFreeSgl | dmaRead | dmaRead2 | dmaExecute | dmaCancel =>
      exact contained_validateSize (contained_orFault _)
  | _ => exact contained_pure _

theorem contained_dispatched {call : UserCall} {dev : IoDev}
    (hin : call.iodata.inSize.toNat ≤ bufferSize (storedSize call.iodata)) :
    Contained (ioctlDispatched k env call dev) := by
  simp only [ioctlDispatched]
  split
  · exact contained_pure _
  split
  · exact contained_pure _
  split
  · exact contained_pure _
  rw [if_neg (Nat.not_lt.mpr hin)]
  split
  · exact contained_pure _
  · exact contained_dispatch.bind fun _ => contained_pure _

theorem status_after {call : UserCall} {dev : IoDev} {result : IoctlResult}
    (h : ioctlDmaStatus env call dev = .ok result) : call.iodata.inSize.toNat ≤ tpceIobufferSize ∧
      result.after = ⟨dev.dev, dev.events, copyIn dev.ioBuffer call.input call.iodata.inSize.toNat
        (min env.inMissed call.iodata.inSize.toNat)⟩ := by
  simp only [ioctlDmaStatus] at h
  split at h
  · cases h
  rename_i hfits
  refine ⟨Nat.not_lt.mp hfits, ?_⟩
  split at h
  · cases h
    rfl
  split at h
  · cases h
    rfl
  · cases h
    rfl

theorem contained_status {call : UserCall} {dev : IoDev} (hmax : call.iodata.inSize.toNat ≤ tpceIobufferSize) :
    Contained (ioctlDmaStatus env call dev) := by
  simp only [ioctlDmaStatus, if_neg (Nat.not_lt.mpr hmax)]
  split
  · exact contained_pure _
  split
  · exact contained_pure _
  · exact contained_pure _

theorem status_unaffected {call : UserCall} {dev : TpceDev} {events : U32} {c c' : Bytes}
    (hmin : 4 ≤ call.iodata.inSize.toNat) (hmax : call.iodata.inSize.toNat ≤ tpceIobufferSize) :
    Unaffected (ioctlDmaStatus env call ⟨dev, events, c⟩) (ioctlDmaStatus env call ⟨dev, events, c'⟩) := by
  refine ⟨?_, contained_status hmax⟩
  have hagree := copyIn_agree c c' call.input call.iodata.inSize.toNat (min env.inMissed call.iodata.inSize.toNat)
  have hchannel := u32At_congr hagree 0 hmin
  simp only [ioctlDmaStatus, if_neg (Nat.not_lt.mpr hmax), hchannel]
  split
  · rfl
  split
  · rfl
  · rfl

theorem tpceIoctl_dispatched {call : UserCall} {dev : IoDev} (hevent : call.cmd ≠ .event)
    (hstatus : call.cmd ≠ .dmaStatus) : tpceIoctl k env call dev =
      if !env.argOk then pure ⟨-Errno.efault, [], [], dev⟩ else ioctlDispatched k env call dev := by
  obtain ⟨file, cmd, iodata, input⟩ := call
  cases cmd with
  | event => exact absurd rfl hevent
  | dmaStatus => exact absurd rfl hstatus
  | _ => rfl

/-- The sizes that fit the buffers keep every input inside. -/
theorem contained_of_fits {input : Bytes} {dev : IoDev} (h : Ioctl.FitsBuffers cmd iodata) :
    Contained (tpceIoctl k env ⟨file, cmd, iodata, input⟩ dev) := by
  by_cases hevent : cmd = .event
  · subst hevent
    simp only [tpceIoctl]
    split
    · exact contained_pure _
    · exact contained_pure _
  by_cases hstatus : cmd = .dmaStatus
  · subst hstatus
    simp only [tpceIoctl]
    split
    · exact contained_pure _
    · exact contained_status h
  rw [tpceIoctl_dispatched hevent hstatus]
  split
  · exact contained_pure _
  · have hfits : (iodata.inSize.toNat < 2 ^ 32 ∧ iodata.outSize.toNat < 2 ^ 32) ∨
        (iodata.inSize.toNat ≤ bufferSize (storedSize iodata) ∧ ¬Succeeds cmd (storedSize iodata)) := by
      cases cmd with
      | event => exact absurd rfl hevent
      | dmaStatus => exact absurd rfl hstatus
      | _ => exact h
    exact contained_dispatched ((Ioctl.fits_iff iodata _).mpr hfits).1

theorem nonInterfering_of_covers (h : InputCovers cmd iodata) : NonInterfering cmd iodata := by
  intro k env file input dev events b b'
  by_cases hevent : cmd = .event
  · subst hevent
    simp only [tpceIoctl]
    split
    · exact ⟨rfl, contained_pure _⟩
    · exact ⟨rfl, contained_pure _⟩
  by_cases hstatus : cmd = .dmaStatus
  · subst hstatus
    simp only [tpceIoctl]
    split
    · exact ⟨rfl, contained_pure _⟩
    · exact status_unaffected h.1 h.2
  obtain ⟨hin, hcovers⟩ := (inputCovers_iff hevent hstatus).mp h
  rw [tpceIoctl_dispatched hevent hstatus, tpceIoctl_dispatched hevent hstatus]
  split
  · exact ⟨rfl, contained_pure _⟩
  · exact ⟨dispatched_unaffected hcovers, contained_dispatched hin⟩

def lockGranted : LockEnv := ⟨true, 1, 0, 0, ⟨.last [⟨0x10000#64, 64#32, 0⟩], 1⟩, true, true, true⟩

def grantingKernel : Kernel where
  barSize := fun _ => 0x10000#64
  ioread := fun _ => 0
  configRead := fun _ => 0
  lock := fun _ => lockGranted
  init := fun _ => .granted
  wait := fun _ => ⟨true, .completed⟩
  missed := fun _ => 0

def copyAll : CopyEnv := ⟨true, 0, 0, false, true, fun _ => 0⟩

/-- The fresh device with a mapping that file 0 has locked -/
def lockedDevice : TpceDev := { freshDevice with
  dmaMappings := Function.update freshDevice.dmaMappings 2 (some 1)
  mapInfos := Function.update freshDevice.mapInfos 1 (some
    { driverBuffer lockGranted.sgt with obj := 1, owner := some 0, bufUsr := true, id := 2, size := 64, numPages := 1 })
  nextObj := 2
  dmaMapSublist := fun file => if file = 0 then [1] else []
  files := [0]
  nextFile := 1 }

def ofList (l : List Byte) : Bytes := fun i => l.getD i 0

/-- An input for each command that makes it succeed -/
def validInput : TpceIoc → Bytes
  | .dmaGetAndLockSgl => ofList [0, 0, 1, 0, 0, 0, 0, 0, 64]
  | .dmaFreeSgl => ofList [2]
  | .dmaRead => ofList [0, 0, 0, 0, 0, 0, 0, 0, 64]
  | .rwConfigspace => ofList [0, 0, 0, 0, 0, 0, 0, 0, 4]
  | .dmaExecute => ofList [1, 0, 0, 0, 0, 0, 0, 0, 0, 0, 0, 0, 0, 0, 0, 0, 0, 16, 0, 0, 0, 0, 0, 0, 0, 0, 0, 0, 0, 0, 2]
  | _ => fun _ => 0

theorem answered_of_run {r : Except IoctlFault Reply} {n : ℕ}
    (h : r.toOption.map (fun reply => (reply.status, decide (reply.written.length < n))) = some (0, true)) :
    ∃ reply, r = .ok reply ∧ reply.status = 0 ∧ reply.written.length < n := by
  obtain ⟨reply, hrun, heq⟩ := Option.map_eq_some_iff.mp h
  obtain ⟨hstatus, hlength⟩ := Prod.mk.inj heq
  exact ⟨reply, toOption_eq_some.mp hrun, hstatus, of_decide_eq_true hlength⟩

theorem answered (h : Succeeds cmd size) : ∃ reply,
    tpceDispatchIoc grantingKernel 0 cmd size (validInput cmd) ⟨lockedDevice, []⟩ = .ok reply ∧
      reply.status = 0 ∧ reply.written.length < readSize cmd := by
  rw [dispatch_size h]
  cases cmd with
  | pciBarRead | pciBarWrite | dmaGetAndLockSgl | dmaFreeSgl | dmaRead | rwConfigspace | dmaRead2 | dmaExecute
  | dmaCancel => exact answered_of_run (by decide +kernel)
  | dmaWrite => exact absurd (validateSize_eq_zero.mp h).2 (by decide)
  | _ => exact absurd h (by simp only [Succeeds, Ioctl.tpceDispatchIoc]; decide)

/-- One byte that the caller does not supply is either read by the command, and
makes it fail, or left in the buffer. -/
theorem perturbed {p : ℕ} (h : Succeeds cmd size) (hp : size.toNat ≤ p + 1) :
    (tpceDispatchIoc grantingKernel 0 cmd size (Function.update (validInput cmd) p (validInput cmd p + 1))
        ⟨lockedDevice, []⟩ =
      tpceDispatchIoc grantingKernel 0 cmd size (validInput cmd) ⟨lockedDevice, []⟩) ∨
      ∃ reply, tpceDispatchIoc grantingKernel 0 cmd size
        (Function.update (validInput cmd) p (validInput cmd p + 1)) ⟨lockedDevice, []⟩ = .ok reply ∧
          reply.status < 0 := by
  have hunread : readSize cmd ≤ p → tpceDispatchIoc grantingKernel 0 cmd size
      (Function.update (validInput cmd) p (validInput cmd p + 1)) ⟨lockedDevice, []⟩ =
        tpceDispatchIoc grantingKernel 0 cmd size (validInput cmd) ⟨lockedDevice, []⟩ :=
    fun hle => dispatch_congr (agreeBelow_update _ _ hle)
  have hpadded : ∀ inType outType, Ioctl.validateSize size inType outType 0 = 0 → readSize cmd + 1 ≤ inType →
      readSize cmd ≤ p := by
    intro inType outType hfits hle
    have hsize := le_of_fits hfits hle
    omega
  cases cmd with
  | pciBarRead | pciBarWrite | dmaGetAndLockSgl | dmaRead | rwConfigspace | dmaRead2 | dmaExecute =>
      exact .inl (hunread (hpadded _ _ h (by decide)))
  | dmaFreeSgl | dmaCancel =>
      by_cases hread : 4 ≤ p
      · exact .inl (hunread hread)
      · have hsize : 4 ≤ size.toNat := readSize_le h
        obtain rfl : p = 3 := by omega
        rw [dispatch_size h]
        exact .inr ⟨⟨-Errno.einval, [], ⟨lockedDevice, []⟩⟩, rfl, by decide⟩
  | _ => exact .inl (hunread (Nat.zero_le _))

theorem dispatched_copyAll (call : UserCall) {events : U32} (hlocal : localBuffer call.iodata = false)
    (hin : call.iodata.inSize.toNat ≤ bufferSize (storedSize call.iodata))
    (hinput : AgreeBelow call.iodata.inSize.toNat b call.input) :
    ioctlDispatched grantingKernel copyAll call ⟨lockedDevice, events, b⟩ =
      (tpceDispatchIoc grantingKernel call.file call.cmd (storedSize call.iodata) b ⟨lockedDevice, []⟩).map
        (finishIoctl copyAll call.iodata b ⟨lockedDevice, events, b⟩) := by
  have hmissed : min copyAll.inMissed call.iodata.inSize.toNat = 0 := Nat.zero_min _
  have hstart : startBuffer call.iodata ⟨lockedDevice, events, b⟩ = b := if_neg (by simp [hlocal])
  simp only [ioctlDispatched, hmissed, hstart, copyIn_same hinput, hlocal]
  rw [if_neg (by decide), if_neg (by decide), if_neg (by simp), if_neg (Nat.not_lt.mpr hin), if_neg (by simp)]
  rfl

theorem toUser_copyAll (bytes : List Byte) : copyAll.toUser bytes = (0, bytes) := by
  have hmissed : min copyAll.outMissed bytes.length = 0 := Nat.zero_min _
  simp only [CopyEnv.toUser, hmissed]
  rw [if_neg (by decide), Nat.sub_zero, List.take_length]

theorem finish_copyAll {dev : IoDev} (hout : iodata.outSize > 0) (hstatus : reply.status = 0) :
    (observe (finishIoctl copyAll iodata b dev reply)).status = 0 ∧
      (observe (finishIoctl copyAll iodata b dev reply)).output =
        copyOut (overlay reply.written b) copyAll.behind (bufferSize (storedSize iodata)) iodata.outSize.toNat := by
  simp only [finishIoctl]
  rw [if_pos ⟨hstatus, hout⟩, toUser_copyAll]
  exact ⟨rfl, rfl⟩

theorem dispatched_of_read (h : 0 < readSize cmd) : cmd ≠ .event ∧ cmd ≠ .dmaStatus := by
  constructor
  · rintro rfl
    exact absurd h (by decide)
  · rintro rfl
    exact absurd h (by decide)

theorem outputs_differ {p : ℕ} {dev dev' : IoDev} (hout : p < iodata.outSize.toNat)
    (hcap : p < bufferSize (storedSize iodata)) (hwritten : reply.written.length ≤ p) (hne : b p ≠ b' p)
    (hstatus : reply.status = 0) :
    observe (finishIoctl copyAll iodata b dev reply) ≠ observe (finishIoctl copyAll iodata b' dev' reply) := by
  intro h
  have hpos : iodata.outSize > 0 := BitVec.lt_def.mpr (Nat.zero_lt_of_lt hout)
  have houtput := congrArg Observation.output h
  rw [(finish_copyAll hpos hstatus).2, (finish_copyAll hpos hstatus).2] at houtput
  have hbyte := congrArg (fun output : List Byte => output[p]?) houtput
  rw [copyOut_getElem? hout hcap, copyOut_getElem? hout hcap, overlay_of_le hwritten, overlay_of_le hwritten] at hbyte
  exact hne (Option.some.inj hbyte)

theorem statuses_differ {dev dev' : IoDev} {reply' : Reply} (hout : iodata.outSize > 0) (hstatus : reply.status = 0)
    (hneg : reply'.status < 0) :
    observe (finishIoctl copyAll iodata b dev reply) ≠ observe (finishIoctl copyAll iodata b' dev' reply') := by
  intro h
  have hobserved := congrArg Observation.status h
  rw [(finish_copyAll hout hstatus).1] at hobserved
  simp only [observe, finishIoctl] at hobserved
  rw [if_neg (fun hzero => by omega)] at hobserved
  dsimp only at hobserved
  omega

theorem ioctl_copyAll {b : Bytes} (hread : 0 < readSize cmd) (hlocal : localBuffer iodata = false)
    (hin : iodata.inSize.toNat ≤ bufferSize (storedSize iodata))
    (hinput : AgreeBelow iodata.inSize.toNat b (validInput cmd)) :
    tpceIoctl grantingKernel copyAll ⟨0, cmd, iodata, validInput cmd⟩ ⟨lockedDevice, 0, b⟩ =
      (tpceDispatchIoc grantingKernel 0 cmd (storedSize iodata) b ⟨lockedDevice, []⟩).map
        (finishIoctl copyAll iodata b ⟨lockedDevice, 0, b⟩) := by
  obtain ⟨hevent, hstatus⟩ := dispatched_of_read hread
  rw [tpceIoctl_dispatched hevent hstatus, if_neg (by decide)]
  exact dispatched_copyAll ⟨0, cmd, iodata, validInput cmd⟩ hlocal hin hinput

/-- A byte of the output that the caller has not supplied shows what was left
there. -/
theorem leaks_of_uncovered (hok : Succeeds cmd (storedSize iodata)) (hlocal : localBuffer iodata = false)
    (hin : iodata.inSize.toNat ≤ bufferSize (storedSize iodata))
    (hless : iodata.inSize.toNat < min iodata.outSize.toNat tpceIobufferSize) : ¬NonInterfering cmd iodata := by
  intro h
  obtain ⟨p, hp⟩ : ∃ p, min iodata.outSize.toNat tpceIobufferSize = p + 1 := ⟨_, (Nat.succ_pred (by omega)).symm⟩
  have hsize : (storedSize iodata).toNat ≤ p + 1 := by
    have hstored := storedSize_toNat iodata
    have hle := localBuffer_eq_false.mp hlocal
    have hmod := Nat.mod_le (max iodata.inSize.toNat iodata.outSize.toNat) (2 ^ 32)
    omega
  obtain ⟨reply, hreply, hstatus, hwritten⟩ := answered hok
  have hread := readSize_le hok
  have hpos := Nat.zero_lt_of_lt hwritten
  have hagree : AgreeBelow iodata.inSize.toNat (Function.update (validInput cmd) p (validInput cmd p + 1))
      (validInput cmd) := agreeBelow_update _ _ (by omega)
  have hrun := (h grantingKernel copyAll 0 (validInput cmd) lockedDevice 0 (validInput cmd)
    (Function.update (validInput cmd) p (validInput cmd p + 1))).1
  rw [ioctl_copyAll hpos hlocal hin (.refl _ _), ioctl_copyAll hpos hlocal hin hagree, hreply] at hrun
  rcases perturbed hok hsize with heq | ⟨reply', hreply', hneg⟩
  · rw [heq, hreply] at hrun
    have hcap : p < bufferSize (storedSize iodata) := by
      rw [bufferSize_shared hlocal]
      omega
    refine outputs_differ (p := p) (by omega) hcap (by omega) ?_ hstatus (Except.ok.inj hrun)
    rw [Function.update_self]
    simp
  · rw [hreply'] at hrun
    have hpos : 0 < iodata.outSize.toNat := by omega
    have hout : iodata.outSize > 0 := BitVec.lt_def.mpr hpos
    exact statuses_differ hout hstatus hneg (Except.ok.inj hrun)

theorem dispatched_overrun (call : UserCall) {dev : IoDev}
    (hin : bufferSize (storedSize call.iodata) < call.iodata.inSize.toNat) (hgoing : dev.dev.goingAway = false) :
    ioctlDispatched k copyAll call dev = .error (.ioBuffer call.iodata.inSize.toNat) := by
  simp only [ioctlDispatched]
  rw [if_neg (by decide), if_neg (by simp [hgoing]), if_neg (by simp [copyAll]), if_pos hin]

theorem status_overrun (call : UserCall) {dev : IoDev} (hin : tpceIobufferSize < call.iodata.inSize.toNat) :
    ioctlDmaStatus env call dev = .error (.ioBuffer call.iodata.inSize.toNat) := by
  simp only [ioctlDmaStatus]
  rw [if_pos hin]

theorem status_copyAll {b : Bytes} (hin : iodata.inSize.toNat ≤ tpceIobufferSize)
    (hinput : AgreeBelow iodata.inSize.toNat b fun _ => 0) :
    (observed (tpceIoctl grantingKernel copyAll ⟨0, .dmaStatus, iodata, fun _ => 0⟩
        ⟨lockedDevice, 0, b⟩)).toOption.map Observation.status =
      some (if (u32At b 0).toNat < 3 then 0 else -Errno.einval) := by
  have hmissed : min copyAll.inMissed iodata.inSize.toNat = 0 := Nat.zero_min _
  simp only [tpceIoctl, ioctlDmaStatus, hmissed, copyIn_same hinput]
  rw [if_neg (by decide), if_neg (Nat.not_lt.mpr hin), if_neg (by decide)]
  split
  · rw [toUser_copyAll]
    rfl
  · rfl

/-- The status command takes the rest of the channel number from an earlier
call. -/
theorem status_leaks (hin : iodata.inSize.toNat < 4) : ¬NonInterfering .dmaStatus iodata := by
  intro h
  have hfits : iodata.inSize.toNat ≤ tpceIobufferSize := by
    rw [tpceIobufferSize]
    omega
  have hrun := (h grantingKernel copyAll 0 (fun _ => 0) lockedDevice 0 (fun _ => 0)
    (Function.update (fun _ => 0) 3 1)).1
  have hstatus := congrArg (fun r => r.toOption.map Observation.status) hrun
  rw [status_copyAll hfits (.refl _ _), status_copyAll hfits (agreeBelow_update _ _ (by omega))] at hstatus
  exact absurd hstatus (by decide)

theorem covers_of_nonInterfering (h : NonInterfering cmd iodata) : InputCovers cmd iodata := by
  by_cases hevent : cmd = .event
  · subst hevent
    exact True.intro
  have hrun := (h grantingKernel copyAll 0 (fun _ => 0) lockedDevice 0 (fun _ => 0) (fun _ => 0)).2
  by_cases hstatus : cmd = .dmaStatus
  · subst hstatus
    refine ⟨?_, ?_⟩
    · by_contra hless
      exact status_leaks (Nat.not_le.mp hless) h
    · by_contra hmore
      exact hrun _ (status_overrun ⟨0, .dmaStatus, iodata, fun _ => 0⟩ (Nat.not_le.mp hmore))
  have hin : iodata.inSize.toNat ≤ bufferSize (storedSize iodata) := by
    by_contra hmore
    rw [tpceIoctl_dispatched hevent hstatus, if_neg (by decide)] at hrun
    exact hrun _ (dispatched_overrun ⟨0, cmd, iodata, fun _ => 0⟩ (Nat.not_le.mp hmore) rfl)
  refine (inputCovers_iff hevent hstatus).mpr ⟨hin, ?_⟩
  by_contra hbad
  rw [not_or, not_or, not_not, Nat.not_le] at hbad
  exact leaks_of_uncovered hbad.2.2 (eq_false_of_ne_true hbad.1) hin hbad.2.1 h

/-- Exactly the calls that supply what is read and copied back are independent
of the earlier ones. -/
theorem nonInterfering_iff (cmd : TpceIoc) (iodata : IoctlData) : NonInterfering cmd iodata ↔ InputCovers cmd iodata :=
  ⟨covers_of_nonInterfering, nonInterfering_of_covers⟩

/-- 24 bytes in and 128 out: the register read copies 104 old bytes back. -/
theorem old_bytes_copied_out : ¬NonInterfering .pciBarRead ⟨0x10000#64, 24#64, 0x20000#64, 128#64⟩ :=
  leaks_of_uncovered (by decide) (by decide) (by decide) (by decide)

end TpceDrv.NonInterference
