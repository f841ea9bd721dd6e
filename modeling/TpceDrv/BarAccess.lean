import TpceDrv.IoctlCommands

namespace TpceDrv.BarAccess

open UserStructs IoctlCommands

/-- `pci_bar_info` without the bus address, which no access uses -/
structure PciBarInfo where
  size : U64
  vaddr : U64
  deriving DecidableEq, Repr

/-- `tpce->pci_bars`, and the entries that an index past its end finds in the memory
behind it. Where it finds `none`, nothing is mapped. -/
structure BarTable where
  pciBars : Fin 2 → PciBarInfo
  behind : U32 → Option PciBarInfo

/-- `&tpce->pci_bars[addrSpace]` -/
def BarTable.entry (bars : BarTable) (addrSpace : U32) : Option PciBarInfo :=
  if h : addrSpace.toNat < tpceNumBars then some (bars.pciBars ⟨addrSpace.toNat, h⟩) else bars.behind addrSpace

/-- A register access of one, two or four bytes -/
inductive RegAccess
  | ioread (bytes : ℕ) (ioAddr : U64)
  | iowrite (bytes : ℕ) (ioAddr : U64) (data : U32)
  deriving DecidableEq, Repr

def RegAccess.bytes : RegAccess → ℕ
  | .ioread bytes _ => bytes
  | .iowrite bytes _ _ => bytes

def RegAccess.ioAddr : RegAccess → U64
  | .ioread _ ioAddr => ioAddr
  | .iowrite _ ioAddr _ => ioAddr

/-- A register access behind the check of its offset: what is returned, and the accesses
that are made. A refused offset returns `refused`, another size `unsupported`. -/
def barAccess {α : Type} (bars : BarTable) (regInfo : TPciDevReg) (refused unsupported : α)
    (perform : ℕ → U64 → α × List RegAccess) : Except IoctlFault (α × List RegAccess) :=
  match bars.entry regInfo.addrSpace with
  | none => .error (.barIndex regInfo.addrSpace)
  | some bar =>
      if regInfo.offset.setWidth 64 > bar.size then pure (refused, [])
      else
        match accessBytes regInfo.size with
        | some bytes => pure (perform bytes (bar.vaddr + regInfo.offset.setWidth 64))
        | none => pure (unsupported, [])

/-- The device answers `input`. -/
def iocBarRead (bars : BarTable) (input : U32) (regInfo : TPciDevReg) : Except IoctlFault (U32 × List RegAccess) :=
  barAccess bars regInfo 0 0 fun bytes ioAddr => (lowBytes bytes input, [.ioread bytes ioAddr])

def iocBarWrite (bars : BarTable) (regInfo : TPciDevReg) : Except IoctlFault (ℤ × List RegAccess) :=
  barAccess bars regInfo (-Errno.einval) 0 fun bytes ioAddr =>
    (0, [.iowrite bytes ioAddr (lowBytes bytes regInfo.data)])

/-- The accesses of a call. One that stops at the table has made none. -/
def accesses {α : Type} : Except IoctlFault (α × List RegAccess) → List RegAccess
  | .ok (_, made) => made
  | .error _ => []

/-- The access starts at the offset in the BAR of the call and ends inside it. -/
def InsideBar (bars : BarTable) (regInfo : TPciDevReg) (access : RegAccess) : Prop :=
  ∃ bar : Fin 2, regInfo.addrSpace.toNat = bar ∧
    access.ioAddr = (bars.pciBars bar).vaddr + regInfo.offset.setWidth 64 ∧
    regInfo.offset.toNat + access.bytes ≤ (bars.pciBars bar).size.toNat

/-- The call has no access, for one of the two reasons that the code checks. -/
def NoAccess (bars : BarTable) (regInfo : TPciDevReg) : Prop :=
  accessBytes regInfo.size = none ∨
    ∀ bar, bars.entry regInfo.addrSpace = some bar → bar.size.toNat < regInfo.offset.toNat

/-- The register that the call names lies in a BAR of the device. -/
def RegisterInBar (bars : BarTable) (regInfo : TPciDevReg) : Prop :=
  ∃ bar : Fin 2, regInfo.addrSpace.toNat = bar ∧
    regInfo.offset.toNat + regInfo.size.toNat ≤ (bars.pciBars bar).size.toNat

variable {bars : BarTable} {regInfo : TPciDevReg} {made : List RegAccess} {addrSpace : U32} {bar : Fin 2}

theorem entry_of_bar (h : addrSpace.toNat = bar) : bars.entry addrSpace = some (bars.pciBars bar) := by
  rw [BarTable.entry, dif_pos (h ▸ bar.isLt)]
  exact congrArg (fun i => some (bars.pciBars i)) (Fin.ext h)

theorem accessBytes_eq {size : U32} {bytes : ℕ} (h : accessBytes size = some bytes) : bytes = size.toNat := by
  rw [accessBytes] at h
  split at h
  · exact (Option.some.inj h).symm
  · cases h

theorem toNat_offset (offset : U32) : (offset.setWidth 64).toNat = offset.toNat :=
  BitVec.toNat_setWidth_of_le (by decide)

theorem not_noAccess (h : ¬NoAccess bars regInfo) : accessBytes regInfo.size = some regInfo.size.toNat ∧
    ∃ bar, bars.entry regInfo.addrSpace = some bar ∧ ¬regInfo.offset.setWidth 64 > bar.size := by
  rw [NoAccess, not_or] at h
  obtain ⟨hsize, hentry⟩ := h
  obtain ⟨bar, hbar⟩ := not_forall.mp hentry
  obtain ⟨hbar, hle⟩ := Classical.not_imp.mp hbar
  obtain ⟨bytes, hbytes⟩ := Option.ne_none_iff_exists'.mp hsize
  refine ⟨accessBytes_eq hbytes ▸ hbytes, bar, hbar, ?_⟩
  rwa [gt_iff_lt, BitVec.lt_def, toNat_offset]

/-- What the two functions have in common: no access, or one of the size and at the
offset that the caller gives. -/
structure Performs (bars : BarTable) (regInfo : TPciDevReg) (made : List RegAccess) : Prop where
  none : NoAccess bars regInfo → made = []
  one : ∀ bar, bars.entry regInfo.addrSpace = some bar → ¬NoAccess bars regInfo →
    ∃ access, made = [access] ∧ access.bytes = regInfo.size.toNat ∧
      access.ioAddr = bar.vaddr + regInfo.offset.setWidth 64

theorem Performs.contained_iff (h : Performs bars regInfo made) :
    (∀ access ∈ made, InsideBar bars regInfo access) ↔ NoAccess bars regInfo ∨ RegisterInBar bars regInfo := by
  by_cases hno : NoAccess bars regInfo
  · rw [h.none hno]
    exact iff_of_true (List.forall_mem_nil _) (.inl hno)
  · obtain ⟨-, entry, hentry, -⟩ := not_noAccess hno
    obtain ⟨access, hmade, hbytes, hioAddr⟩ := h.one entry hentry hno
    rw [hmade, List.forall_mem_singleton, or_iff_right hno]
    constructor
    · rintro ⟨bar, haddr, -, hle⟩
      exact ⟨bar, haddr, hbytes ▸ hle⟩
    · rintro ⟨bar, haddr, hle⟩
      obtain rfl := Option.some.inj (hentry.symm.trans (entry_of_bar haddr))
      exact ⟨bar, haddr, hioAddr, hbytes ▸ hle⟩

section Cases

variable {α : Type} {refused unsupported : α} {perform : ℕ → U64 → α × List RegAccess} {entry : PciBarInfo}

theorem barAccess_past (hentry : bars.entry regInfo.addrSpace = some entry)
    (hpast : regInfo.offset.setWidth 64 > entry.size) :
    barAccess bars regInfo refused unsupported perform = .ok (refused, []) := by
  rw [barAccess, hentry]
  exact if_pos hpast

theorem barAccess_unsupported (hentry : bars.entry regInfo.addrSpace = some entry)
    (hfits : ¬regInfo.offset.setWidth 64 > entry.size) (hsize : accessBytes regInfo.size = none) :
    barAccess bars regInfo refused unsupported perform = .ok (unsupported, []) := by
  rw [barAccess, hentry]
  simp only [if_neg hfits, hsize]
  rfl

theorem barAccess_made (hentry : bars.entry regInfo.addrSpace = some entry)
    (hfits : ¬regInfo.offset.setWidth 64 > entry.size) {bytes : ℕ} (hsize : accessBytes regInfo.size = some bytes) :
    barAccess bars regInfo refused unsupported perform =
      .ok (perform bytes (entry.vaddr + regInfo.offset.setWidth 64)) := by
  rw [barAccess, hentry]
  simp only [if_neg hfits, hsize]
  rfl

theorem barAccess_performs (hperform : ∀ bytes ioAddr, ∃ access, (perform bytes ioAddr).2 = [access] ∧
    access.bytes = bytes ∧ access.ioAddr = ioAddr) :
    Performs bars regInfo (accesses (barAccess bars regInfo refused unsupported perform)) where
  none hno := by
    cases hentry : bars.entry regInfo.addrSpace with
    | none =>
        rw [barAccess, hentry]
        rfl
    | some entry =>
        by_cases hpast : regInfo.offset.setWidth 64 > entry.size
        · rw [barAccess_past hentry hpast, accesses]
        · have hsize : accessBytes regInfo.size = none := by
            refine hno.resolve_right fun hsmall => hpast ?_
            rw [gt_iff_lt, BitVec.lt_def, toNat_offset]
            exact hsmall entry hentry
          rw [barAccess_unsupported hentry hpast hsize, accesses]
  one entry hentry hno := by
    obtain ⟨hsize, entry', hentry', hfits⟩ := not_noAccess hno
    obtain rfl := Option.some.inj (hentry.symm.trans hentry')
    obtain ⟨access, hmade, haccess⟩ := hperform regInfo.size.toNat (entry.vaddr + regInfo.offset.setWidth 64)
    rw [barAccess_made hentry hfits hsize]
    exact ⟨access, hmade, haccess⟩

end Cases

theorem iocBarRead_performs (bars : BarTable) (input : U32) (regInfo : TPciDevReg) :
    Performs bars regInfo (accesses (iocBarRead bars input regInfo)) :=
  barAccess_performs fun bytes ioAddr => ⟨.ioread bytes ioAddr, rfl, rfl, rfl⟩

theorem iocBarWrite_performs (bars : BarTable) (regInfo : TPciDevReg) :
    Performs bars regInfo (accesses (iocBarWrite bars regInfo)) :=
  barAccess_performs fun bytes ioAddr => ⟨.iowrite bytes ioAddr (lowBytes bytes regInfo.data), rfl, rfl, rfl⟩

/-- The access of a call in the model of the commands, which knows the BARs by their
index -/
def callAccess (bars : BarTable) : Call → Option RegAccess
  | .ioread bytes bar offset => some (.ioread bytes ((bars.pciBars bar).vaddr + offset.setWidth 64))
  | .iowrite bytes bar offset data => some (.iowrite bytes ((bars.pciBars bar).vaddr + offset.setWidth 64) data)
  | _ => none

/-- Where the model of the commands does not stop at the index, it makes the same
access and returns the same value. -/
theorem iocBarRead_command {k : Kernel} (hsizes : ∀ bar, k.barSize bar = (bars.pciBars bar).size) {s s' : Session}
    {v : U32} (h : IoctlCommands.iocBarRead k regInfo s = .ok (v, s')) : ∃ calls, s'.calls = s.calls ++ calls ∧
      iocBarRead bars (k.ioread s'.calls) regInfo = .ok (v, calls.filterMap (callAccess bars)) := by
  rw [IoctlCommands.iocBarRead] at h
  by_cases haddr : regInfo.addrSpace.toNat < tpceNumBars
  · rw [dif_pos haddr] at h
    simp only [hsizes] at h
    have hentry : bars.entry regInfo.addrSpace = some (bars.pciBars ⟨_, haddr⟩) := entry_of_bar rfl
    split at h
    · cases h
      exact ⟨[], (List.append_nil _).symm, barAccess_past hentry ‹_›⟩
    · split at h
      · cases h
        exact ⟨_, rfl, barAccess_made hentry ‹_› ‹_›⟩
      · cases h
        exact ⟨[], (List.append_nil _).symm, barAccess_unsupported hentry ‹_› ‹_›⟩
  · rw [dif_neg haddr] at h
    cases h

theorem iocBarWrite_command {k : Kernel} (hsizes : ∀ bar, k.barSize bar = (bars.pciBars bar).size) {s : Session}
    {reply : Reply} (h : IoctlCommands.iocBarWrite k regInfo s = .ok reply) :
    ∃ calls, reply.session.calls = s.calls ++ calls ∧
      iocBarWrite bars regInfo = .ok (reply.status, calls.filterMap (callAccess bars)) := by
  rw [IoctlCommands.iocBarWrite] at h
  by_cases haddr : regInfo.addrSpace.toNat < tpceNumBars
  · rw [dif_pos haddr] at h
    simp only [hsizes] at h
    have hentry : bars.entry regInfo.addrSpace = some (bars.pciBars ⟨_, haddr⟩) := entry_of_bar rfl
    split at h
    · cases h
      exact ⟨[], (List.append_nil _).symm, barAccess_past hentry ‹_›⟩
    · split at h
      · cases h
        exact ⟨_, rfl, barAccess_made hentry ‹_› ‹_›⟩
      · cases h
        exact ⟨[], (List.append_nil _).symm, barAccess_unsupported hentry ‹_› ‹_›⟩
  · rw [dif_neg haddr] at h
    cases h

/-- The accesses of both functions stay inside the BAR exactly when the code makes none,
or when it is the register that is inside: neither the index nor the last byte is checked. -/
theorem accesses_inside_iff (bars : BarTable) (input : U32) (regInfo : TPciDevReg) :
    ((∀ access ∈ accesses (iocBarRead bars input regInfo), InsideBar bars regInfo access) ↔
        NoAccess bars regInfo ∨ RegisterInBar bars regInfo) ∧
      ((∀ access ∈ accesses (iocBarWrite bars regInfo), InsideBar bars regInfo access) ↔
        NoAccess bars regInfo ∨ RegisterInBar bars regInfo) :=
  ⟨(iocBarRead_performs bars input regInfo).contained_iff, (iocBarWrite_performs bars regInfo).contained_iff⟩

/-- Two BARs of 4096 bytes, and an entry behind the table that reads as a large one -/
def twoBars : BarTable where
  pciBars := fun bar => if bar = 0 then ⟨4096, 0xffffc90000000000⟩ else ⟨4096, 0xffffc90000100000⟩
  behind := fun addrSpace => if addrSpace = 2 then some ⟨0x100000000, 0xffff888000000000⟩ else none

/-- Four bytes at the end of the first BAR -/
def atEnd : TPciDevReg where
  offset := 4096
  addrSpace := 0
  size := 4
  data := 7

/-- Four bytes of `BAR_4`, for which the table has no entry -/
def inBar4 : TPciDevReg where
  offset := 0
  addrSpace := 2
  size := 4
  data := 7

theorem accesses_escape :
    ¬(∀ access ∈ accesses (iocBarRead twoBars 0 atEnd), InsideBar twoBars atEnd access) ∧
      ¬(∀ access ∈ accesses (iocBarWrite twoBars atEnd), InsideBar twoBars atEnd access) ∧
      ¬(∀ access ∈ accesses (iocBarRead twoBars 0 inBar4), InsideBar twoBars inBar4 access) ∧
      ¬(∀ access ∈ accesses (iocBarWrite twoBars inBar4), InsideBar twoBars inBar4 access) := by
  refine ⟨fun h => ?_, fun h => ?_, fun h => ?_, fun h => ?_⟩
  · obtain ⟨bar, haddr, -, hle⟩ := h (.ioread 4 0xffffc90000001000) (by decide)
    revert bar
    decide
  · obtain ⟨bar, haddr, -, hle⟩ := h (.iowrite 4 0xffffc90000001000 7) (by decide)
    revert bar
    decide
  · obtain ⟨bar, haddr, -, -⟩ := h (.ioread 4 0xffff888000000000) (by decide)
    revert bar
    decide
  · obtain ⟨bar, haddr, -, -⟩ := h (.iowrite 4 0xffff888000000000 7) (by decide)
    revert bar
    decide

end TpceDrv.BarAccess
