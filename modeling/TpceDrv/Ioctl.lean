import TpceDrv.Words

namespace TpceDrv.Ioctl

inductive TpceIoc
  | pciBarRead
  | pciBarWrite
  | pciBarBlockRead
  | pciBarBlockWrite
  | event
  | dmaGetAndLockSgl
  | dmaFreeSgl
  | dmaFlush
  | dmaRead
  | dmaWrite
  | rwConfigspace
  | getIntstat
  | dmaRead2
  | dmaExecute
  | dmaCancel
  | dmaStatus
  | unknown (ioc : U32)
  deriving DecidableEq, Repr

structure IoctlData where
  inBuffer : U64
  inSize : U64
  outBuffer : U64
  outSize : U64

/-- `sizeof(ioctl_data)` and of the structures behind the commands -/
def ioctlDataSize : Nat := 32
def pciDevRegSize : Nat := 24
def pciConfRegSize : Nat := 16
def dmaBufInSize : Nat := 32
def dmaBufOutSize : Nat := 8
def dmaMapIdSize : Nat := 4
def dmaRequestDataSize : Nat := 24
def dmaTpceDataReadSize : Nat := 88
def dmaRequestSize : Nat := 64
def u32Size : Nat := 4
def noneSize : Nat := 0

/-- A copy from or to user memory: the size of the kernel buffer and the
length. -/
structure UserCopy where
  bufferSize : Nat
  length : Nat
  deriving DecidableEq, Repr

def UserCopy.InBounds (copy : UserCopy) : Prop := copy.length ≤ copy.bufferSize

instance (copy : UserCopy) : Decidable copy.InBounds :=
  inferInstanceAs (Decidable (copy.length ≤ copy.bufferSize))

/-- What the user memory, the lock, the allocator and the device answer.
`handler` is what the function of the command returns once it is called. -/
structure IoctlEnv where
  argOk : Bool
  inOk : Bool
  outOk : Bool
  killed : Bool
  goingAway : Bool
  kvzallocOk : Bool
  statusChannel : U32
  handler : Int

def tpceIobufferSize : Nat := 128

/-- The macro `validate_size` in front of a command's function -/
def validateSize (size : U32) (inType outType : Nat) (status : Int) : Int :=
  if size.toNat < inType ∨ size.toNat < outType then -Errno.einval else status

def tpceDispatchIoc (handler : Int) (ioc : TpceIoc) (size : U32) : Int :=
  match ioc with
  | .pciBarRead => validateSize size pciDevRegSize u32Size 0
  | .pciBarWrite => validateSize size pciDevRegSize noneSize handler
  | .pciBarBlockRead => -Errno.enosys
  | .pciBarBlockWrite => -Errno.enosys
  | .event => -Errno.eio
  | .dmaGetAndLockSgl => validateSize size dmaBufInSize dmaBufOutSize handler
  | .dmaFreeSgl => validateSize size dmaMapIdSize noneSize handler
  | .dmaFlush => -Errno.enosys
  | .dmaRead => validateSize size dmaRequestDataSize noneSize handler
  | .dmaWrite => validateSize size dmaRequestDataSize noneSize (-Errno.enosys)
  | .rwConfigspace => validateSize size pciConfRegSize u32Size handler
  | .getIntstat => -Errno.enotty
  | .dmaRead2 => validateSize size dmaTpceDataReadSize noneSize handler
  | .dmaExecute => validateSize size dmaRequestSize noneSize handler
  | .dmaCancel => validateSize size u32Size noneSize handler
  | .dmaStatus => -Errno.eio
  | .unknown _ => -Errno.enotty

/-- `iodata_drv.size`, the larger one of two 64-bit sizes in 32 bits -/
def storedSize (iodata : IoctlData) : U32 :=
  (if iodata.inSize > iodata.outSize then iodata.inSize else iodata.outSize).setWidth 32

/-- The size of the buffer that `iodata_drv.io_buffer` points to -/
def bufferSize (size : U32) : Nat := if size.toNat > tpceIobufferSize then size.toNat else tpceIobufferSize

/-- `TPCE_IOC_EVENT`; the events are in a local variable. -/
def ioctlEvent (env : IoctlEnv) : Int × List UserCopy :=
  (if env.outOk then 0 else -Errno.efault, [⟨u32Size, u32Size⟩])

/-- `TPCE_IOC_DMA_STATUS` -/
def ioctlDmaStatus (env : IoctlEnv) (iodata : IoctlData) : Int × List UserCopy :=
  let input : UserCopy := ⟨tpceIobufferSize, iodata.inSize.toNat⟩
  if !env.inOk then (-Errno.efault, [input])
  else if env.statusChannel.toNat ≥ tpceDmaNumChannels then (-Errno.einval, [input])
  else (if env.outOk then 0 else -Errno.efault, [input, ⟨u32Size, u32Size⟩])

/-- The rest of `tpce_ioctl` for the commands of the dispatcher -/
def ioctlDispatched (env : IoctlEnv) (cmd : TpceIoc) (iodata : IoctlData) : Int × List UserCopy :=
  let size := storedSize iodata
  let input : List UserCopy :=
    if iodata.inSize > 0 then [⟨bufferSize size, iodata.inSize.toNat⟩] else []
  let output : List UserCopy := [⟨bufferSize size, iodata.outSize.toNat⟩]
  if env.killed then (-Errno.eintr, [])
  else if env.goingAway then (-Errno.enodev, [])
  else if size.toNat > tpceIobufferSize ∧ !env.kvzallocOk then (-Errno.enomem, [])
  else if iodata.inSize > 0 ∧ !env.inOk then (-Errno.efault, input)
  else
    let status := tpceDispatchIoc env.handler cmd size
    if status = 0 ∧ iodata.outSize > 0 then (if env.outOk then 0 else -Errno.efault, input ++ output)
    else (status, input)

/-- The status and the copies that were made or tried -/
def tpceIoctl (env : IoctlEnv) (cmd : TpceIoc) (iodata : IoctlData) : Int × List UserCopy :=
  let arg : UserCopy := ⟨ioctlDataSize, ioctlDataSize⟩
  if !env.argOk then (-Errno.efault, [arg])
  else
    let (status, copies) :=
      match cmd with
      | .event => ioctlEvent env
      | .dmaStatus => ioctlDmaStatus env iodata
      | cmd => ioctlDispatched env cmd iodata
    (status, arg :: copies)

/-- Whatever the environment answers, no copy leaves its kernel buffer. -/
def CopiesInBounds (cmd : TpceIoc) (iodata : IoctlData) : Prop :=
  ∀ env, ∀ copy ∈ (tpceIoctl env cmd iodata).2, copy.InBounds

/-- Whether the dispatcher returns 0 for a buffer of this size, once the
command's own function does -/
def Succeeds (cmd : TpceIoc) (size : U32) : Prop := tpceDispatchIoc 0 cmd size = 0

/-- The sizes that are safe for a command -/
def FitsBuffers (cmd : TpceIoc) (iodata : IoctlData) : Prop :=
  match cmd with
  | .event => True
  | .dmaStatus => iodata.inSize.toNat ≤ tpceIobufferSize
  | cmd => (iodata.inSize.toNat < 2 ^ 32 ∧ iodata.outSize.toNat < 2 ^ 32) ∨
      (iodata.inSize.toNat ≤ bufferSize (storedSize iodata) ∧ ¬Succeeds cmd (storedSize iodata))

theorem storedSize_toNat (iodata : IoctlData) :
    (storedSize iodata).toNat = max iodata.inSize.toNat iodata.outSize.toNat % 2 ^ 32 := by
  simp only [storedSize]
  rw [BitVec.toNat_setWidth]
  split
  · rename_i h
    rw [Nat.max_eq_left (Nat.le_of_lt (BitVec.lt_def.mp h))]
  · rename_i h
    rw [Nat.max_eq_right (Nat.le_of_not_lt fun hlt => h (BitVec.lt_def.mpr hlt))]

theorem bufferSize_lt (size : U32) : bufferSize size < 2 ^ 32 := by
  have hlt := size.isLt
  simp only [bufferSize]
  split
  · exact hlt
  · decide

theorem bufferSize_ge (size : U32) : size.toNat ≤ bufferSize size := by
  simp only [bufferSize]
  split
  · exact Nat.le_refl _
  · rename_i h
    exact Nat.le_of_not_lt h

theorem fits_iff (iodata : IoctlData) (P : Prop) :
    (iodata.inSize.toNat ≤ bufferSize (storedSize iodata) ∧
        (P → iodata.outSize.toNat ≤ bufferSize (storedSize iodata))) ↔
      (iodata.inSize.toNat < 2 ^ 32 ∧ iodata.outSize.toNat < 2 ^ 32) ∨
        (iodata.inSize.toNat ≤ bufferSize (storedSize iodata) ∧ ¬P) := by
  have hlt := bufferSize_lt (storedSize iodata)
  have hge := bufferSize_ge (storedSize iodata)
  have hsize := storedSize_toNat iodata
  constructor
  · rintro ⟨hin, hout⟩
    by_cases hp : P
    · exact .inl ⟨by omega, by have := hout hp; omega⟩
    · exact .inr ⟨hin, hp⟩
  · rintro (⟨hin, hout⟩ | ⟨hin, hp⟩)
    · exact ⟨by omega, fun _ => by omega⟩
    · exact ⟨hin, fun h => absurd h hp⟩

theorem validateSize_eq_zero {size : U32} {inType outType : Nat} {status : Int} :
    validateSize size inType outType status = 0 ↔
      ¬(size.toNat < inType ∨ size.toNat < outType) ∧ status = 0 := by
  simp only [validateSize]
  split
  · rename_i h
    exact iff_of_false (by decide) fun hok => hok.1 h
  · rename_i h
    exact ⟨fun h0 => ⟨h, h0⟩, And.right⟩

theorem succeeds_of_zero {handler : Int} {cmd : TpceIoc} {size : U32}
    (h : tpceDispatchIoc handler cmd size = 0) : Succeeds cmd size := by
  simp only [Succeeds]
  cases cmd with
  | pciBarRead => exact h
  | pciBarWrite => exact validateSize_eq_zero.mpr ⟨(validateSize_eq_zero.mp h).1, rfl⟩
  | pciBarBlockRead => exact h
  | pciBarBlockWrite => exact h
  | event => exact h
  | dmaGetAndLockSgl => exact validateSize_eq_zero.mpr ⟨(validateSize_eq_zero.mp h).1, rfl⟩
  | dmaFreeSgl => exact validateSize_eq_zero.mpr ⟨(validateSize_eq_zero.mp h).1, rfl⟩
  | dmaFlush => exact h
  | dmaRead => exact validateSize_eq_zero.mpr ⟨(validateSize_eq_zero.mp h).1, rfl⟩
  | dmaWrite => exact h
  | rwConfigspace => exact validateSize_eq_zero.mpr ⟨(validateSize_eq_zero.mp h).1, rfl⟩
  | getIntstat => exact h
  | dmaRead2 => exact validateSize_eq_zero.mpr ⟨(validateSize_eq_zero.mp h).1, rfl⟩
  | dmaExecute => exact validateSize_eq_zero.mpr ⟨(validateSize_eq_zero.mp h).1, rfl⟩
  | dmaCancel => exact validateSize_eq_zero.mpr ⟨(validateSize_eq_zero.mp h).1, rfl⟩
  | dmaStatus => exact h
  | unknown ioc => exact h

/-- Nothing fails. -/
def IoctlEnv.obliging : IoctlEnv := ⟨true, true, true, false, false, true, 0, 0⟩

theorem copies_dispatched (cmd : TpceIoc) (iodata : IoctlData) :
    (∀ env, ∀ copy ∈ (ioctlDispatched env cmd iodata).2, copy.InBounds) ↔
      iodata.inSize.toNat ≤ bufferSize (storedSize iodata) ∧
        (Succeeds cmd (storedSize iodata) → iodata.outSize.toNat ≤ bufferSize (storedSize iodata)) := by
  have hpos : ∀ x : U64, x > 0 ↔ x.toNat ≠ 0 := fun x => by
    rw [gt_iff_lt, BitVec.lt_def]
    exact Nat.pos_iff_ne_zero
  constructor
  · intro h
    have hcopies := h .obliging
    simp only [ioctlDispatched] at hcopies
    simp only [IoctlEnv.obliging, Bool.false_eq_true, Bool.not_true, and_false, if_false, if_true] at hcopies
    constructor
    · by_cases hin : iodata.inSize > 0
      · have hmem := hcopies ⟨bufferSize (storedSize iodata), iodata.inSize.toNat⟩
        apply hmem
        split
        · simp
        · simp
      · have hzero := not_not.mp (mt (hpos _).mpr hin)
        omega
    · intro hok
      by_cases hout : iodata.outSize > 0
      · apply hcopies ⟨bufferSize (storedSize iodata), iodata.outSize.toNat⟩
        rw [if_pos ⟨hok, hout⟩]
        exact List.mem_append_right _ (List.mem_singleton_self _)
      · have hzero := not_not.mp (mt (hpos _).mpr hout)
        omega
  · rintro ⟨hin, hout⟩ env copy hcopy
    have hinput : ∀ copy ∈ (if iodata.inSize > 0 then
        [UserCopy.mk (bufferSize (storedSize iodata)) iodata.inSize.toNat] else []), copy.InBounds := by
      intro copy hcopy
      split at hcopy
      · obtain rfl := List.mem_singleton.mp hcopy
        exact hin
      · cases hcopy
    simp only [ioctlDispatched] at hcopy
    split at hcopy
    · cases hcopy
    split at hcopy
    · cases hcopy
    split at hcopy
    · cases hcopy
    split at hcopy
    · exact hinput copy hcopy
    split at hcopy
    · rename_i hok
      rcases List.mem_append.mp hcopy with hcopy | hcopy
      · exact hinput copy hcopy
      · obtain rfl := List.mem_singleton.mp hcopy
        exact hout (succeeds_of_zero hok.1)
    · exact hinput copy hcopy

theorem copies_status (iodata : IoctlData) :
    (∀ env, ∀ copy ∈ (ioctlDmaStatus env iodata).2, copy.InBounds) ↔
      iodata.inSize.toNat ≤ tpceIobufferSize := by
  constructor
  · intro h
    exact h .obliging ⟨tpceIobufferSize, iodata.inSize.toNat⟩ List.mem_cons_self
  · intro hin env copy hcopy
    have hstatus : copy = ⟨tpceIobufferSize, iodata.inSize.toNat⟩ ∨ copy = ⟨u32Size, u32Size⟩ := by
      simp only [ioctlDmaStatus] at hcopy
      split at hcopy
      · exact .inl (List.mem_singleton.mp hcopy)
      split at hcopy
      · exact .inl (List.mem_singleton.mp hcopy)
      · simpa using hcopy
    rcases hstatus with rfl | rfl
    · exact hin
    · exact Nat.le_refl u32Size

theorem copies_ioctl (cmd : TpceIoc) (iodata : IoctlData) (body : IoctlEnv → Int × List UserCopy)
    (hbody : ∀ env, tpceIoctl env cmd iodata =
      if !env.argOk then (-Errno.efault, [⟨ioctlDataSize, ioctlDataSize⟩])
      else ((body env).1, ⟨ioctlDataSize, ioctlDataSize⟩ :: (body env).2))
    (hirrelevant : ∀ env, body { env with argOk := true } = body env) :
    CopiesInBounds cmd iodata ↔ ∀ env, ∀ copy ∈ (body env).2, copy.InBounds := by
  constructor
  · intro h env copy hcopy
    apply h { env with argOk := true } copy
    rw [hbody, hirrelevant]
    exact List.mem_cons_of_mem _ hcopy
  · intro h env copy hcopy
    rw [hbody] at hcopy
    split at hcopy
    · obtain rfl := List.mem_singleton.mp hcopy
      exact Nat.le_refl ioctlDataSize
    · rcases List.mem_cons.mp hcopy with rfl | hcopy
      · exact Nat.le_refl ioctlDataSize
      · exact h env copy hcopy

/-- Exactly the sizes that fit keep every copy in its buffer. -/
theorem copies_in_bounds_iff (cmd : TpceIoc) (iodata : IoctlData) :
    CopiesInBounds cmd iodata ↔ FitsBuffers cmd iodata := by
  have hdispatched : ∀ cmd, cmd ≠ .event → cmd ≠ .dmaStatus →
      (CopiesInBounds cmd iodata ↔ FitsBuffers cmd iodata) := by
    intro cmd hevent hstatus
    have hcopies := copies_ioctl cmd iodata (fun env => ioctlDispatched env cmd iodata)
      (fun env => by cases cmd <;> first | rfl | exact absurd rfl hevent | exact absurd rfl hstatus)
      fun _ => rfl
    rw [hcopies, copies_dispatched, fits_iff]
    cases cmd <;> first | rfl | exact absurd rfl hevent | exact absurd rfl hstatus
  cases cmd with
  | event =>
      apply (copies_ioctl .event iodata (fun env => ioctlEvent env) (fun _ => rfl) fun _ => rfl).trans
      refine iff_of_true (fun env copy hcopy => ?_) True.intro
      obtain rfl := List.mem_singleton.mp hcopy
      exact Nat.le_refl u32Size
  | dmaStatus =>
      exact (copies_ioctl .dmaStatus iodata (fun env => ioctlDmaStatus env iodata) (fun _ => rfl)
        fun _ => rfl).trans (copies_status iodata)
  | _ => exact hdispatched _ TpceIoc.noConfusion TpceIoc.noConfusion

/-- The status command copies any length into the 128 bytes, and a length of
2^32 is stored as 0 for the others. -/
theorem long_input_overflows : ¬CopiesInBounds .dmaStatus ⟨0x10000#64, 129#64, 0x20000#64, 4#64⟩ ∧
    ¬CopiesInBounds .dmaCancel ⟨0x10000#64, 0x100000000#64, 0x20000#64, 0#64⟩ := by
  constructor
  · intro h
    exact absurd (h .obliging ⟨tpceIobufferSize, 129⟩ (by decide)) (by decide)
  · intro h
    exact absurd (h .obliging ⟨tpceIobufferSize, 0x100000000⟩ (by decide)) (by decide)

end TpceDrv.Ioctl
