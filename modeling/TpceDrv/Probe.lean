import TpceDrv.BarAccess
import TpceDrv.OwnershipCalls

namespace TpceDrv.Probe

open Descriptor DmaInfo Mapping Device Requests Resources IoctlCommands BarAccess Library.Holdings Library.Traces

variable {ε : Type}

/-- What a probe stops at: a fault of the driver, or an error pointer that is followed -/
inductive ProbeFault
  | fault (f : Fault)
  | errPtr (e : ℤ)
  deriving DecidableEq, Repr

abbrev Bars := Fin 2 → PciBarInfo

/-- Where `pci_bars` keeps BAR 0 and BAR 2 -/
abbrev bar0 : Fin 2 := ⟨0, Nat.two_pos⟩

abbrev bar2 : Fin 2 := ⟨1, Nat.one_lt_two⟩

theorem bar0_or_bar2 : ∀ i : Fin 2, i = bar0 ∨ i = bar2
  | ⟨0, _⟩ => .inl rfl
  | ⟨1, _⟩ => .inr rfl

/-- The answers of the PCI core. What `ioremap` cannot map is at 0. -/
structure PciEnv where
  deviceCountResource : ℕ
  enableDevice : ℤ
  requestRegions : ℤ
  resourceStart : ℕ → U64
  resourceLen : ℕ → U64
  ioremap : U64 → U64 → U64
  allocIrqVectors : ℤ
  requestIrq : ℤ

def mapPciBar (env : PciEnv) (bars : Bars) (resource mempos : ℕ) : Owning ε (ℤ × Bars) :=
  if h : mempos < tpceNumBars ∧ resource < env.deviceCountResource then
    let i : Fin 2 := ⟨mempos, h.1⟩
    let paddr := env.resourceStart resource
    let size := env.resourceLen resource
    let vaddr := env.ioremap paddr size
    if paddr = 0 ∨ size = 0 then pure (-Errno.enomem, Function.update bars i ⟨size, (bars i).vaddr⟩)
    else if vaddr = 0 then pure (-Errno.enomem, Function.update bars i ⟨size, 0⟩)
    else do
      emit (.acquire (.bar i))
      pure (0, Function.update bars i ⟨size, vaddr⟩)
  else pure (-Errno.einval, bars)

def iounmap (bars : Bars) (i : Fin 2) : Owning ε Unit :=
  if (bars i).vaddr ≠ 0 then emit (.release (.bar i)) else pure ()

def errorRegions (err : ℤ) : Owning ε ℤ := do
  emit (.release .pciDevice)
  pure err

def errorBar0 (err : ℤ) : Owning ε ℤ := do
  emit (.release .pciRegions)
  errorRegions err

def errorBar2 (bars : Bars) (err : ℤ) : Owning ε ℤ := do
  iounmap bars bar0
  errorBar0 err

def errorIrq (bars : Bars) (err : ℤ) : Owning ε ℤ := do
  iounmap bars bar2
  errorBar2 bars err

def errorRequestIrq (bars : Bars) (err : ℤ) : Owning ε ℤ := do
  emit (.release .irqVectors)
  errorIrq bars err

def tpcePciInit (env : PciEnv) (bars : Bars) : Owning ε (ℤ × Bars) :=
  let failing (bars : Bars) (m : Owning ε ℤ) : Owning ε (ℤ × Bars) := do
    let err ← m
    pure (err, bars)
  if env.enableDevice ≠ 0 then pure (env.enableDevice, bars)
  else do
    emit (.acquire .pciDevice)
    if env.requestRegions ≠ 0 then failing bars (errorRegions env.requestRegions)
    else do
      emit (.acquire .pciRegions)
      let (err, bars) ← mapPciBar env bars 0 0
      if err ≠ 0 then failing bars (errorBar0 err)
      else do
        let (err, bars) ← mapPciBar env bars 2 1
        if err ≠ 0 then failing bars (errorBar2 bars err)
        else if env.allocIrqVectors < 0 then failing bars (errorIrq bars env.allocIrqVectors)
        else do
          emit (.acquire .irqVectors)
          if env.requestIrq ≠ 0 then failing bars (errorRequestIrq bars env.requestIrq)
          else do
            emit (.acquire .irq)
            pure (0, bars)

def tpcePciFree (bars : Bars) : Owning ε Unit := do
  emit (.release .irq)
  emit (.release .irqVectors)
  iounmap bars bar0
  iounmap bars bar2
  emit (.release .pciRegions)
  emit (.release .pciDevice)

/-- `setMask` is the answer of `dma_set_mask_and_coherent`. -/
def tpceDmaInit (setMask : ℤ) (env : BufferEnv) (dev : TpceDev) : Owning ε (ℤ × TpceDev) :=
  if setMask ≠ 0 then pure (setMask, dev)
  else do
    let (ptr, dev) ← tpceDmaAllocBuffer env { dev with dmaMappings := fun _ => none } tpceDmaDriverBufferSize
      tpceDmaBidirectional tpceDmaDriverBufferId
    match ptr with
    | .err e => pure (e, dev)
    | _ => pure (0, dev)

/-- What `device_create` returns -/
inductive DevicePtr
  | ptr
  | err (e : ℤ)
  | null
  deriving DecidableEq, Repr

structure ProbeEnv where
  kzallocDevOk : Bool
  kzallocIoBufferOk : Bool
  freeMinor : ℤ
  pci : PciEnv
  setMask : ℤ
  buffer : BufferEnv
  cdevAdd : ℤ
  deviceCreate : DevicePtr

/-- What the driver data of the PCI device refer to, with the references to it -/
structure Board where
  dev : TpceDev
  pciBars : Bars
  minor : ℤ
  refs : ℕ

/-- `tpce_dev` as `kzalloc` leaves it -/
def zeroDev : TpceDev where
  dmaMappings := fun _ => none
  mapInfos := fun _ => none
  nextObj := 0
  dmaMapSublist := fun _ => []
  files := []
  nextFile := 0
  pageTable := .empty
  dmaInfo := fun _ => .zero
  fastIrqMask := 0
  goingAway := false
  vmas := fun _ => 0
  waiting := none
  mutexLeaked := false
  unmappedInUse := false

def zeroBars : Bars := fun _ => ⟨0, 0⟩

def errorAlloc1 (ret : ℤ) : Owning ε ℤ := pure (if ret = 0 then -Errno.eio else ret)

def errorAlloc2 (ret : ℤ) : Owning ε ℤ := do
  emit (.release .tpceDev)
  errorAlloc1 ret

def errorIda (ret : ℤ) : Owning ε ℤ := do
  emit (.release .ioBuffer)
  errorAlloc2 ret

def errorPciInit (ret : ℤ) : Owning ε ℤ := do
  emit (.release .drvdata)
  emit (.release .tableEntry)
  emit (.release .minor)
  errorIda ret

def errorDmaInit (bars : Bars) (ret : ℤ) : Owning ε ℤ := do
  tpcePciFree bars
  errorPciInit ret

def errorCdevAdd (dev : TpceDev) (bars : Bars) (ret : ℤ) : Owning Fault ℤ := do
  let _ ← Ownership.tpceDmaFree dev
  errorDmaInit bars ret

def errorDeviceCreate (dev : TpceDev) (bars : Bars) (ret : ℤ) : Owning Fault ℤ := do
  emit (.release .cdev)
  errorCdevAdd dev bars ret

/-- `ret` is still 0 where no minor is free, and where `tpce_dma_init` fails. The answer
of `device_create_file` counts for nothing. -/
def tpceDeviceInit (env : ProbeEnv) : Owning ProbeFault (ℤ × Option Board) :=
  let failing (m : Owning Fault ℤ) : Owning ProbeFault (ℤ × Option Board) := do
    let ret ← adapt .fault m
    pure (ret, none)
  if !env.kzallocDevOk then failing (errorAlloc1 (-Errno.enomem))
  else do
    emit (.acquire .tpceDev)
    if !env.kzallocIoBufferOk then failing (errorAlloc2 (-Errno.enomem))
    else do
      emit (.acquire .ioBuffer)
      if env.freeMinor < 0 then failing (errorIda 0)
      else do
        emit (.acquire .minor)
        emit (.acquire .tableEntry)
        emit (.acquire .drvdata)
        let (ret, bars) ← tpcePciInit env.pci zeroBars
        if ret ≠ 0 then failing (errorPciInit ret)
        else do
          let (err, dev) ← tpceDmaInit env.setMask env.buffer zeroDev
          if err ≠ 0 then failing (errorDmaInit bars ret)
          else if env.cdevAdd ≠ 0 then failing (errorCdevAdd dev bars env.cdevAdd)
          else do
            emit (.acquire .cdev)
            match env.deviceCreate with
            | .null => failing (errorDeviceCreate dev bars 0)
            | .err e => lift (.error (.errPtr e))
            | .ptr => do
                emit (.acquire .device)
                pure (0, some ⟨dev, bars, env.freeMinor, 1⟩)

end TpceDrv.Probe
