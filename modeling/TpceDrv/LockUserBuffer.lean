import TpceDrv.Library.Traces
import TpceDrv.RequestSteps
import Mathlib.Algebra.BigOperators.Group.List.Basic
import Mathlib.Data.Finset.Basic
import Mathlib.Tactic.SplitIfs

namespace TpceDrv.LockUserBuffer

open Descriptor Mapping Device Requests RequestSteps Library.Holdings Library.Traces

/-- The flags of `pin_user_pages` -/
inductive GupFlag
  | longterm
  | write
  deriving DecidableEq

/-- `gup_flags` -/
def gupFlags (direction : U8) : List GupFlag :=
  if direction = tpceDmaFromDevice ∨ direction = tpceDmaBidirectional then [.longterm, .write] else [.longterm]

/-- What `tpce_dma_lock_user_buffer` has to give back. A page is pinned with flags. -/
inductive Resource
  | mapInfo
  | page (flags : List GupFlag) (i : ℕ)
  | sgTable
  | dmaMapping
  | tempRanges
  deriving DecidableEq

abbrev Locking (α : Type) := Traced (Access Resource) Fault α

/-- The flags and the number of the pages that are pinned -/
structure Pins where
  flags : List GupFlag
  count : ℕ

def pages (pins : Pins) : List Resource := (List.range pins.count).map (.page pins.flags)

def pinUserPages (pins : Pins) : Locking Unit := emits ((pages pins).map .acquire)

def unpinUserPages (pins : Pins) : Locking Unit := emits ((pages pins).map .release)

/-- The labels at the end of the function, each with the ones below it -/
def errorPin (err : MapPtr) : Locking MapPtr := do
  emit (.release .mapInfo)
  pure err

def errorSgt (pins : Pins) (err : MapPtr) : Locking MapPtr := do
  unpinUserPages pins
  errorPin err

def errorMap (pins : Pins) (err : MapPtr) : Locking MapPtr := do
  emit (.release .sgTable)
  errorSgt pins err

def errorCopyUsr (pins : Pins) (err : MapPtr) : Locking MapPtr := do
  emit (.release .dmaMapping)
  errorMap pins err

def copyDmaPageInfo (env : LockEnv) (bufferInfo : TpceDmaBufIn) : Locking ℤ :=
  if bufferInfo.ranges = 0 then pure 0
  else if env.sgt.nents > (bufferInfo.rangesSize / rangeStructSize).toNat then pure (-Errno.enobufs)
  else if !env.rangesAllocOk then pure (-Errno.enomem)
  else do
    emit (.acquire .tempRanges)
    let ret : ℤ := if !env.copyOk then -Errno.efault else 0
    emit (.release .tempRanges)
    pure ret

/-- `err` is NULL until a failing step sets it. -/
def tpceDmaLockUserBuffer (env : LockEnv) (dev : TpceDev) (bufferInfo : TpceDmaBufIn) :
    Locking (MapPtr × TpceDev) :=
  let failing (m : Locking MapPtr) : Locking (MapPtr × TpceDev) := do
    let err ← m
    pure (err, dev)
  if bufferInfo.size % tpceCachelineSize ≠ 0 then pure (.err (-Errno.einval), dev)
  else if !env.kvzallocOk then pure (.err (-Errno.enomem), dev)
  else do
    emit (.acquire .mapInfo)
    if env.pagesPinned < 0 then failing (errorPin (.err env.pagesPinned))
    else do
      let flags := gupFlags bufferInfo.direction
      pinUserPages ⟨flags, env.pagesPinned.toNat⟩
      let pins : Pins := ⟨flags, (BitVec.ofInt 32 env.pagesPinned).toNat⟩
      if env.pagesPinned < numPages bufferInfo then failing (errorSgt pins (.err (-Errno.efault)))
      else if env.sgAlloc ≠ 0 then failing (errorSgt pins .null)
      else do
        emit (.acquire .sgTable)
        if env.dmaMap ≠ 0 then failing (errorMap pins (.err env.dmaMap))
        else do
          emit (.acquire .dmaMapping)
          let ret ← copyDmaPageInfo env bufferInfo
          if ret < 0 then failing (errorCopyUsr pins (.err ret))
          else
            match xaFreeId dev, env.xaAllocOk with
            | none, _ => failing (errorCopyUsr pins (.err (-Errno.ebusy)))
            | some _, false => failing (errorCopyUsr pins (.err (-Errno.enomem)))
            | some id, true =>
                pure (.ptr dev.nextObj, { dev.setMapInfo dev.nextObj (lockedMapInfo env dev bufferInfo id) with
                  dmaMappings := Function.update dev.dmaMappings id (some dev.nextObj)
                  nextObj := dev.nextObj + 1 })

@[simp] theorem erase_errorPin (err : MapPtr) : erase (errorPin err) = .ok err := rfl

@[simp] theorem erase_errorSgt (pins : Pins) (err : MapPtr) : erase (errorSgt pins err) = .ok err := by
  simp [errorSgt, unpinUserPages]

@[simp] theorem erase_errorMap (pins : Pins) (err : MapPtr) : erase (errorMap pins err) = .ok err := by
  simp [errorMap]

@[simp] theorem erase_errorCopyUsr (pins : Pins) (err : MapPtr) : erase (errorCopyUsr pins err) = .ok err := by
  simp [errorCopyUsr]

@[simp] theorem erase_copyDmaPageInfo (env : LockEnv) (bufferInfo : TpceDmaBufIn) :
    erase (copyDmaPageInfo env bufferInfo) = .ok (Requests.copyDmaPageInfo env bufferInfo) := by
  simp only [copyDmaPageInfo, Requests.copyDmaPageInfo, erase_ite]
  split_ifs
  all_goals rfl

/-- Without the resources this is the function of the driver's model. -/
theorem erase_lockUserBuffer (env : LockEnv) (dev : TpceDev) (bufferInfo : TpceDmaBufIn) :
    erase (tpceDmaLockUserBuffer env dev bufferInfo) = .ok (Requests.tpceDmaLockUserBuffer env dev bufferInfo) := by
  simp only [tpceDmaLockUserBuffer, Requests.tpceDmaLockUserBuffer, pinUserPages, erase_ite, erase_bind, erase_pure,
    erase_emit, erase_emits, erase_errorPin, erase_errorSgt, erase_errorMap, erase_copyDmaPageInfo, ok_bind]
  split_ifs
  all_goals try rfl
  cases xaFreeId dev with
  | none => rfl
  | some id =>
      cases env.xaAllocOk with
      | false => rfl
      | true => rfl

/-- `IS_ERR`: the last 4095 addresses are errors. -/
def isErr : MapPtr → Bool
  | .err e => -4095 ≤ e && e < 0
  | .ptr _ => false
  | .null => false

/-- What the kernel's functions return: `pin_user_pages` never pins more than it is
asked for, and errors are error numbers. -/
structure KernelResults (env : LockEnv) (bufferInfo : TpceDmaBufIn) : Prop where
  pinned : env.pagesPinned ≤ numPages bufferInfo
  pinError : -4095 ≤ env.pagesPinned
  mapError : env.dmaMap ≠ 0 → -4095 ≤ env.dmaMap ∧ env.dmaMap < 0

def pinnedPages (pins : Pins) : Finset Resource := insert .mapInfo (pages pins).toFinset

/-- The resources of a mapping -/
def acquired (pins : Pins) : Finset Resource := insert .dmaMapping (insert .sgTable (pinnedPages pins))

/-- The mapping is new and registered under an id that was free, and nothing else is
changed in the registry. -/
structure RegisteredAs (dev : TpceDev) (obj : ℕ) (dev' : TpceDev) : Prop where
  registered : ∃ m, dev'.Registered obj m ∧ dev.dmaMappings m.id = none ∧
    ∀ id, id ≠ m.id → dev'.dmaMappings id = dev.dmaMappings id
  others : ∀ obj', obj' ≠ obj → dev'.mapInfos obj' = dev.mapInfos obj'

/-- The result of the function and the resources that it still has -/
def Finished (dev : TpceDev) (pins : Pins) (r : MapPtr × TpceDev) (held : Finset Resource) : Prop :=
  match r.1 with
  | .ptr obj => RegisteredAs dev obj r.2 ∧ held = acquired pins
  | .err e => isErr (.err e) = true ∧ r.2 = dev ∧ held = ∅
  | .null => r.2 = dev ∧ held = ∅

/-- The pages of a buffer that is locked -/
def bufferPins (env : LockEnv) (bufferInfo : TpceDmaBufIn) : Pins :=
  ⟨gupFlags bufferInfo.direction, env.pagesPinned.toNat⟩

/-- The buffer is locked or refused as the caller expects it: a registered mapping
with all its resources, or an error pointer with everything given back. -/
def Handled (env : LockEnv) (dev : TpceDev) (bufferInfo : TpceDmaBufIn) : Prop :=
  ∃ r t held, (tpceDmaLockUserBuffer env dev bufferInfo).run = .ok (r, t) ∧ heldAfter ∅ t = some held ∧
    Finished dev (bufferPins env bufferInfo) r held ∧ r.1 ≠ .null

/-- `sg_alloc_table_from_pages` is called and fails. -/
def TableBuildFails (env : LockEnv) (bufferInfo : TpceDmaBufIn) : Prop :=
  bufferInfo.size % tpceCachelineSize = 0 ∧ env.kvzallocOk = true ∧ 0 ≤ env.pagesPinned ∧
    numPages bufferInfo ≤ env.pagesPinned ∧ env.sgAlloc ≠ 0

variable {env : LockEnv} {dev : TpceDev} {bufferInfo : TpceDmaBufIn} {pins : Pins}

theorem numPages_le (bufferInfo : TpceDmaBufIn) : numPages bufferInfo ≤ 2 ^ 20 := by
  have hlt := ((bufferInfo.buf &&& 0xfff#64).setWidth 32 + bufferInfo.size).isLt
  simp only [numPages, DmaParams.pageSize]
  omega

theorem KernelResults.recorded (h : KernelResults env bufferInfo) (hpin : ¬env.pagesPinned < 0) :
    (BitVec.ofInt 32 env.pagesPinned).toNat = env.pagesPinned.toNat := by
  have hle := numPages_le bufferInfo
  have hpinned := h.pinned
  rw [BitVec.toNat_ofInt]
  omega

theorem nodup_pages (pins : Pins) : (pages pins).Nodup :=
  List.Nodup.map (fun i j h => by injection h) List.nodup_range

theorem mapInfo_notMem_pages (pins : Pins) : Resource.mapInfo ∉ pages pins := by simp [pages]

theorem sgTable_notMem (pins : Pins) : Resource.sgTable ∉ pinnedPages pins := by simp [pinnedPages, pages]

theorem dmaMapping_notMem (pins : Pins) : Resource.dmaMapping ∉ insert Resource.sgTable (pinnedPages pins) := by
  simp [pinnedPages, pages]

theorem tempRanges_notMem (pins : Pins) : Resource.tempRanges ∉ acquired pins := by
  simp [acquired, pinnedPages, pages]

theorem errorPin_ends (err : MapPtr) : Ends some {.mapInfo} (errorPin err) fun r held => r = err ∧ held = ∅ := by
  apply Ends.release rfl (Finset.mem_singleton_self _)
  exact Ends.pure ⟨rfl, Finset.erase_singleton _⟩

theorem errorSgt_ends (pins : Pins) (err : MapPtr) :
    Ends some (pinnedPages pins) (errorSgt pins err) fun r held => r = err ∧ held = ∅ := by
  have hpages : heldAfter (pinnedPages pins) (((pages pins).map .release).filterMap some) = some {.mapInfo} := by
    rw [List.filterMap_some, heldAfter_releases (nodup_pages pins)]
    · congr 1
      ext x
      have hmap := mapInfo_notMem_pages pins
      simp only [pinnedPages, Finset.mem_sdiff, Finset.mem_insert, List.mem_toFinset, Finset.mem_singleton]
      constructor
      · tauto
      · rintro rfl
        exact ⟨.inl rfl, hmap⟩
    · intro x hx
      exact Finset.mem_insert_of_mem (List.mem_toFinset.mpr hx)
  exact Ends.emits hpages (errorPin_ends err)

theorem errorMap_ends (pins : Pins) (err : MapPtr) :
    Ends some (insert .sgTable (pinnedPages pins)) (errorMap pins err) fun r held => r = err ∧ held = ∅ := by
  apply Ends.release rfl (Finset.mem_insert_self _ _)
  rw [Finset.erase_insert (sgTable_notMem pins)]
  exact errorSgt_ends pins err

theorem errorCopyUsr_ends (pins : Pins) (err : MapPtr) :
    Ends some (acquired pins) (errorCopyUsr pins err) fun r held => r = err ∧ held = ∅ := by
  apply Ends.release rfl (Finset.mem_insert_self _ _)
  rw [Finset.erase_insert (dmaMapping_notMem pins)]
  exact errorMap_ends pins err

theorem copyDmaPageInfo_ends (env : LockEnv) (bufferInfo : TpceDmaBufIn) (pins : Pins) :
    Ends some (acquired pins) (copyDmaPageInfo env bufferInfo) fun ret held =>
      (ret < 0 → -4095 ≤ ret) ∧ held = acquired pins := by
  apply Ends.ite
  · exact fun _ => Ends.pure ⟨by decide, rfl⟩
  intro _
  apply Ends.ite
  · exact fun _ => Ends.pure ⟨by decide, rfl⟩
  intro _
  apply Ends.ite
  · exact fun _ => Ends.pure ⟨by decide, rfl⟩
  intro _
  apply Ends.acquire rfl (tempRanges_notMem pins)
  apply Ends.release rfl (Finset.mem_insert_self _ _)
  rw [Finset.erase_insert (tempRanges_notMem pins)]
  refine Ends.pure ⟨?_, rfl⟩
  split
  · decide
  · decide

theorem failing_ends {m : Locking MapPtr} {err : MapPtr} {held : Finset Resource}
    (hm : Ends some held m fun r held' => r = err ∧ held' = ∅) (h : Finished dev pins (err, dev) ∅) :
    Ends some held (do let err ← m; pure (err, dev)) (Finished dev pins) := by
  apply hm.bind
  rintro _ _ ⟨rfl, rfl⟩
  exact Ends.pure h

theorem finished_err {e : ℤ} (h : -4095 ≤ e ∧ e < 0) : Finished dev pins (.err e, dev) ∅ := by
  refine ⟨?_, rfl, rfl⟩
  simp only [isErr, Bool.and_eq_true, decide_eq_true_eq]
  exact h

theorem finished_ptr {id : U32} (hid : xaFreeId dev = some id) :
    Finished dev pins (.ptr dev.nextObj, { dev.setMapInfo dev.nextObj (lockedMapInfo env dev bufferInfo id) with
      dmaMappings := Function.update dev.dmaMappings id (some dev.nextObj)
      nextObj := dev.nextObj + 1 }) (acquired pins) := by
  refine ⟨⟨⟨lockedMapInfo env dev bufferInfo id, ⟨?_, ?_⟩, xaFreeId_free hid, ?_⟩, ?_⟩, rfl⟩
  · exact Function.update_self ..
  · exact Function.update_self ..
  · exact fun id' hne => Function.update_of_ne hne ..
  · exact fun obj' hne => Function.update_of_ne hne ..

/-- Each label gives back exactly what the steps in front of it have acquired. -/
theorem lockUserBuffer_ends (h : KernelResults env bufferInfo) :
    Ends some ∅ (tpceDmaLockUserBuffer env dev bufferInfo) (Finished dev (bufferPins env bufferInfo)) := by
  apply Ends.ite
  · exact fun _ => Ends.pure (finished_err (by decide))
  intro _
  apply Ends.ite
  · exact fun _ => Ends.pure (finished_err (by decide))
  intro _
  apply Ends.acquire rfl (Finset.notMem_empty _)
  apply Ends.ite
  · exact fun hneg => failing_ends (errorPin_ends _) (finished_err ⟨h.pinError, hneg⟩)
  intro hpin
  have hpages : heldAfter {.mapInfo} (((pages (bufferPins env bufferInfo)).map .acquire).filterMap some) =
      some (pinnedPages (bufferPins env bufferInfo)) := by
    rw [List.filterMap_some, heldAfter_acquires (nodup_pages _)]
    · rfl
    · intro k hk hmem
      obtain rfl := Finset.mem_singleton.mp hmem
      exact mapInfo_notMem_pages _ hk
  apply Ends.emits hpages
  rw [h.recorded hpin]
  apply Ends.ite
  · exact fun _ => failing_ends (errorSgt_ends _ _) (finished_err (by decide))
  intro _
  apply Ends.ite
  · exact fun _ => failing_ends (errorSgt_ends _ _) ⟨rfl, rfl⟩
  intro _
  apply Ends.acquire rfl (sgTable_notMem _)
  apply Ends.ite
  · exact fun hmap => failing_ends (errorMap_ends _ _) (finished_err (h.mapError hmap))
  intro _
  apply Ends.acquire rfl (dmaMapping_notMem _)
  apply (copyDmaPageInfo_ends env bufferInfo _).bind
  rintro ret _ ⟨hret, rfl⟩
  apply Ends.ite
  · exact fun hneg => failing_ends (errorCopyUsr_ends _ _) (finished_err ⟨hret hneg, hneg⟩)
  intro _
  cases hid : xaFreeId dev with
  | none => exact failing_ends (errorCopyUsr_ends _ _) (finished_err (by decide))
  | some id =>
      cases env.xaAllocOk with
      | false => exact failing_ends (errorCopyUsr_ends _ _) (finished_err (by decide))
      | true => exact Ends.pure (finished_ptr hid)

theorem lockUserBuffer_null :
    (Requests.tpceDmaLockUserBuffer env dev bufferInfo).1 = .null ↔ TableBuildFails env bufferInfo := by
  simp only [Requests.tpceDmaLockUserBuffer]
  split_ifs with hsize halloc hneg hpart hsg hmap hcopy
  · exact iff_of_false not_false fun h => hsize h.1
  · exact iff_of_false not_false fun h => by simp [h.2.1] at halloc
  · exact iff_of_false not_false fun h => Int.not_lt.mpr h.2.2.1 hneg
  · exact iff_of_false not_false fun h => Int.not_lt.mpr h.2.2.2.1 hpart
  · exact iff_of_true rfl
      ⟨not_not.mp hsize, by simpa using halloc, Int.not_lt.mp hneg, Int.not_lt.mp hpart, hsg⟩
  · exact iff_of_false not_false fun h => hsg h.2.2.2.2
  · exact iff_of_false not_false fun h => hsg h.2.2.2.2
  · refine iff_of_false ?_ fun h => hsg h.2.2.2.2
    cases xaFreeId dev with
    | none => exact MapPtr.noConfusion
    | some id =>
        cases env.xaAllocOk with
        | false => exact MapPtr.noConfusion
        | true => exact MapPtr.noConfusion

theorem run_fst {r : MapPtr × TpceDev} {t : List (Access Resource)}
    (hrun : (tpceDmaLockUserBuffer env dev bufferInfo).run = .ok (r, t)) :
    r = Requests.tpceDmaLockUserBuffer env dev bufferInfo := by
  have herase := erase_lockUserBuffer env dev bufferInfo
  simp only [erase, hrun] at herase
  exact Except.ok.inj herase

theorem not_handled (h : (Requests.tpceDmaLockUserBuffer env dev bufferInfo).1 = .null) :
    ¬Handled env dev bufferInfo := by
  rintro ⟨r, t, held, hrun, -, -, hnull⟩
  exact hnull ((congrArg Prod.fst (run_fst hrun)).trans h)

/-- Locking fails as the caller expects it, except where the table cannot be built:
the error pointer is then NULL. -/
theorem lock_handled_iff (h : KernelResults env bufferInfo) :
    Handled env dev bufferInfo ↔ ¬TableBuildFails env bufferInfo := by
  rw [← @lockUserBuffer_null env dev bufferInfo]
  refine ⟨fun hhandled hnull => not_handled hnull hhandled, fun hnull => ?_⟩
  cases hrun : (tpceDmaLockUserBuffer env dev bufferInfo).run with
  | error e =>
      have herase := erase_lockUserBuffer env dev bufferInfo
      simp only [erase, hrun] at herase
      cases herase
  | ok r =>
      obtain ⟨held, hheld, hfin⟩ := lockUserBuffer_ends h r.1 r.2 hrun
      rw [List.filterMap_some] at hheld
      exact ⟨r.1, r.2, held, hrun, hheld, hfin, run_fst hrun ▸ hnull⟩

/-- A buffer of one page, and the kernel's answers to it but for the table -/
def pageBuffer : TpceDmaBufIn := ⟨0x1000#64, 4096#32, 0, 0, 2#8⟩

def tableEnv (sgAlloc : ℤ) : LockEnv := ⟨true, 1, sgAlloc, 0, ⟨.last [⟨0x10000#64, 4096#32, 0⟩], 1⟩, true, true, true⟩

theorem tableEnv_results (sgAlloc : ℤ) : KernelResults (tableEnv sgAlloc) pageBuffer :=
  ⟨show (1 : ℤ) ≤ (numPages pageBuffer : ℤ) by decide, show (-4095 : ℤ) ≤ 1 by decide, fun h => absurd rfl h⟩

theorem lock_page_handled :
    Handled (tableEnv 0) freshDevice pageBuffer ↔ ¬TableBuildFails (tableEnv 0) pageBuffer :=
  lock_handled_iff (tableEnv_results 0)

/-- The caller takes the NULL for a mapping. -/
theorem table_failure_unhandled : KernelResults (tableEnv (-12)) pageBuffer ∧
    ¬Handled (tableEnv (-12)) freshDevice pageBuffer ∧
    (iocLockDmaBuffer (tableEnv (-12)) freshDevice 0 pageBuffer).map Prod.fst = .error .nullPointer :=
  ⟨tableEnv_results (-12), not_handled (by decide), by decide⟩

/-- `page_offset` -/
def pageOffset (bufferInfo : TpceDmaBufIn) : U32 := (bufferInfo.buf &&& 0xfff#64).setWidth 32

def totalLength (sgt : SgTable) : ℕ := (sgt.dmaEntries.map fun sg => sg.dmaLength.toNat).sum

/-- The kernel pins the pages it is asked for, the table covers the buffer as far as
they go, and the mapping keeps its length. -/
structure KernelCovers (env : LockEnv) (bufferInfo : TpceDmaBufIn) : Prop where
  pinned : env.pagesPinned = numPages bufferInfo
  table : totalLength env.sgt = min bufferInfo.size.toNat
    (numPages bufferInfo * DmaParams.pageSize - (pageOffset bufferInfo).toNat)

/-- The pages hold the whole buffer, and so do the ranges. -/
structure Covered (bufferInfo : TpceDmaBufIn) (m : TpceDmaMapInfo) : Prop where
  pages : (pageOffset bufferInfo).toNat + bufferInfo.size.toNat ≤ m.numPages.toNat * DmaParams.pageSize
  length : totalLength m.sgt = m.size.toNat

theorem pageOffset_lt (bufferInfo : TpceDmaBufIn) : (pageOffset bufferInfo).toNat < 4096 := by
  simp only [pageOffset, BitVec.toNat_setWidth, BitVec.toNat_and]
  have hle : bufferInfo.buf.toNat &&& (0xfff#64).toNat ≤ (0xfff#64).toNat := Nat.and_le_right
  have hval : (0xfff#64).toNat = 4095 := rfl
  omega

theorem numPages_eq (bufferInfo : TpceDmaBufIn) : numPages bufferInfo =
    (((pageOffset bufferInfo).toNat + bufferInfo.size.toNat) % 2 ^ 32 + 4095) / 4096 := by
  simp only [numPages, pageOffset, DmaParams.pageSize, BitVec.toNat_add]
  rfl

/-- The pages that are asked for hold the buffer unless the 32-bit sum of its offset
and its size wraps around. -/
theorem numPages_holds_iff (bufferInfo : TpceDmaBufIn) :
    (pageOffset bufferInfo).toNat + bufferInfo.size.toNat ≤ numPages bufferInfo * DmaParams.pageSize ↔
      (pageOffset bufferInfo).toNat + bufferInfo.size.toNat < 2 ^ 32 := by
  have hoff := pageOffset_lt bufferInfo
  have hsize := bufferInfo.size.isLt
  rw [numPages_eq, DmaParams.pageSize]
  omega

/-- A locked buffer is covered exactly when the sum of its offset and its size is a
32-bit number. -/
theorem locked_covered_iff {obj : ℕ} {dev' : TpceDev} (hkernel : KernelCovers env bufferInfo)
    (hlock : Requests.tpceDmaLockUserBuffer env dev bufferInfo = (.ptr obj, dev')) :
    (∃ m, dev'.mapInfos obj = some m ∧ Covered bufferInfo m) ↔
      (pageOffset bufferInfo).toNat + bufferInfo.size.toNat < 2 ^ 32 := by
  rcases lockUserBuffer_cases hlock with ⟨-, hno⟩ | ⟨id, -, hobj, rfl⟩
  · exact absurd rfl (hno obj)
  cases hobj
  have hm : (dev.setMapInfo dev.nextObj (lockedMapInfo env dev bufferInfo id)).mapInfos dev.nextObj =
      some (lockedMapInfo env dev bufferInfo id) := Function.update_self ..
  have hpages : (lockedMapInfo env dev bufferInfo id).numPages.toNat = numPages bufferInfo := by
    have hle := numPages_le bufferInfo
    simp only [lockedMapInfo, hkernel.pinned, BitVec.toNat_ofInt]
    omega
  rw [← numPages_holds_iff]
  constructor
  · rintro ⟨m, hm', hcovered⟩
    obtain rfl := Option.some.inj (hm.symm.trans hm')
    rw [← hpages]
    exact hcovered.pages
  · intro hfits
    refine ⟨_, hm, hpages ▸ hfits, ?_⟩
    have htable := hkernel.table
    simp only [lockedMapInfo]
    omega

theorem page_covered :
    (∃ m, (Requests.tpceDmaLockUserBuffer (tableEnv 0) freshDevice pageBuffer).2.mapInfos 1 = some m ∧
      Covered pageBuffer m) ↔ (pageOffset pageBuffer).toNat + pageBuffer.size.toNat < 2 ^ 32 :=
  have hkernel : KernelCovers (tableEnv 0) pageBuffer := ⟨by decide, by decide⟩
  have hlock : Requests.tpceDmaLockUserBuffer (tableEnv 0) freshDevice pageBuffer =
      (.ptr 1, (Requests.tpceDmaLockUserBuffer (tableEnv 0) freshDevice pageBuffer).2) := Prod.ext (by decide) rfl
  locked_covered_iff hkernel hlock

/-- A buffer whose offset and size add up to 64 more than 2^32, and its one page -/
def wrappingBuffer : TpceDmaBufIn := ⟨0x7f0000000fc0#64, 0xfffff080#32, 0, 0, 2#8⟩

def wrappingEnv : LockEnv := ⟨true, 1, 0, 0, ⟨.last [⟨0x10fc0#64, 64#32, 0⟩], 1⟩, true, true, true⟩

/-- Locked as a mapping of almost 4 GiB, it has 64 bytes. -/
theorem wrapping_uncovered : KernelCovers wrappingEnv wrappingBuffer ∧
    (Requests.tpceDmaLockUserBuffer wrappingEnv freshDevice wrappingBuffer).1 = .ptr 1 ∧
    ¬∃ m, (Requests.tpceDmaLockUserBuffer wrappingEnv freshDevice wrappingBuffer).2.mapInfos 1 = some m ∧
      Covered wrappingBuffer m := by
  refine ⟨⟨by decide, by decide⟩, by decide, ?_⟩
  rintro ⟨m, hm, hcovered⟩
  have hlength : totalLength m.sgt = 64 ∧ m.size = 0xfffff080#32 := by
    obtain rfl := Option.some.inj hm
    decide
  have := hcovered.length
  rw [hlength.1, hlength.2] at this
  exact absurd this (by decide)

end TpceDrv.LockUserBuffer
