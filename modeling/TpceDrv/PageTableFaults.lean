import TpceDrv.ChannelSteps
import TpceDrv.Driver
import TpceDrv.Library.Errors
import TpceDrv.PageTableMap

namespace TpceDrv.PageTableFaults

open Descriptor DmaParams DmaInfo Mapping Device PageTable PageTableMap Library.Errors
open Translation hiding translateDescriptorLinkAddr lookupPage translateRwLoop translateDescriptorRwAddr
open ChannelControl hiding dmaStart tpceDmaStart tpceDmaStreamStart dmaDispatch
open Requests hiding dmaExecute iocDmaExecute readKernelDmaBuffer
open Driver hiding perform step

/-- `pcie_page_alloc` up to its first store outside `pages` and
`active_channel`. What such a store hits is no longer the table's. -/
def pciePageAlloc (table : AlteraPciePageTable) (value : U64) (channelId : U8) : Except Fault PageAlloc :=
  let alloc := PageTable.pciePageAlloc table value channelId
  match alloc.accesses.find? fun slot => slot < 0 || 16 ≤ slot with
  | some slot => .error (.pageTable slot)
  | none => .ok alloc

def translateDescriptorLinkAddr (pageTable : AlteraPciePageTable) (info : TpceDmaInfo) :
    Except Fault (Int × AlteraPciePageTable × TpceDmaInfo) := do
  let pageAddr := info.descBusAddr &&& alteraAddrTranslationMask64
  let pageOffset := info.descBusAddr &&& ~~~alteraAddrTranslationMask64
  let alloc ← pciePageAlloc pageTable pageAddr info.params.channel
  if alloc.slot = -1 then pure (-Errno.enospc, alloc.table, info)
  else
    pure (0, alloc.table, { info with
      descBusAddrTranslated :=
        (BitVec.ofInt 32 alloc.slot <<< alteraAddrPageSize) ||| pageOffset.setWidth 32 })

def lookupPage (channel : U8) (st : RwLookup) (pageAddr : U64) :
    Except Fault (Except AlteraPciePageTable RwLookup) :=
  if st.currPage ≠ pageAddr then
    let slot := pciePageFindValue st.table pageAddr channel
    if slot = -1 then do
      let alloc ← pciePageAlloc st.table pageAddr channel
      if alloc.slot = -1 then pure (.error alloc.table)
      else pure (.ok ⟨alloc.table, pageAddr, alloc.slot, st.usedEntries + 1⟩)
    else pure (.ok { st with slot := slot })
  else pure (.ok st)

def translateRwLoop (channel : U8) :
    RwLookup → List TpceDmaDescriptor → Except Fault (Bool × RwLookup × List TpceDmaDescriptor)
  | st, [] => pure (true, st, [])
  | st, desc :: rest => do
      let combinedAddr := tpceDescGetWrite desc
      match ← lookupPage channel st (pageOf combinedAddr) with
      | .error table => pure (false, { st with table := table }, desc :: rest)
      | .ok st =>
          let desc := { desc with
            writeAddressLow := pcieTranslateAddr64 combinedAddr st.slot
            writeAddressHigh := 0 }
          let (done, st, rest) ← translateRwLoop channel st rest
          pure (done, st, desc :: rest)

def translateDescriptorRwAddr (slot₀ : Int) (pageTable : AlteraPciePageTable) (info : TpceDmaInfo) :
    Except Fault (Int × AlteraPciePageTable × TpceDmaInfo) := do
  let activeDescriptors := (info.descActive / descriptorSize).toNat
  let channel := info.params.channel
  if info.params.direction = tpceDmaFromDevice then
    let (done, st, descs) ←
      translateRwLoop channel ⟨pageTable, 0, slot₀, 0⟩ (info.descDma.take activeDescriptors)
    let info := { info with descDma := descs ++ info.descDma.drop activeDescriptors }
    if done then pure ((st.usedEntries : Int), st.table, info)
    else pure (-Errno.enospc, pciePageFreeByChannelId st.table channel, info)
  else if info.params.direction = tpceDmaToDevice then pure (-Errno.enosys, pageTable, info)
  else pure (-Errno.einval, pageTable, info)

def dmaStart (env : InitEnv) (dev : TpceDev) (c : Channel) : Except Fault (Int × TpceDev) := do
  let info := dev.dmaInfo c
  if info.state ≠ .initialized then pure (-Errno.efault, dev)
  else
    let (ret, table, info) ← translateDescriptorLinkAddr dev.pageTable info
    if ret < 0 then pure (ret, { dev with pageTable := table })
    else
      let (ret, table, info) ← translateDescriptorRwAddr env.slot table info
      if ret < 0 then
        pure (ret, { dev with pageTable := pciePageFreeByChannelId table info.params.channel }.setInfo c
          { info with state := .error })
      else pure (0, { dev with pageTable := table }.setInfo c (buildDescriptorLinks info))

def tpceDmaStart (env : InitEnv) (dev : TpceDev) (c : Channel) : Except Fault (Int × TpceDev) := do
  let (ret, dev) ← dmaStart env dev c
  if ret ≠ 0 then pure (ret, dev) else pure (0, setRunning dev c)

def tpceDmaStreamStart (env : InitEnv) (dev : TpceDev) (c : Channel) : Except Fault (Int × TpceDev) := do
  let (ret, dev) ← dmaStart env (enableStreamIrq dev c) c
  if ret ≠ 0 then pure (ret, dev) else pure (0, setRunning dev c)

def dmaDispatch (env : InitEnv) (dev : TpceDev) (c : Channel) : Except Fault (Int × TpceDev) :=
  let mode := (dev.dmaInfo c).params.transferMode
  if mode = tpceDmaModeDefault then tpceDmaStart env dev c
  else if mode = tpceDmaModeStream then tpceDmaStreamStart env dev c
  else pure (-Errno.einval, dev)

def dmaExecute (env : InitEnv) (dev : TpceDev) (req : TpceDmaRequest) : Except Fault (Outcome × TpceDev) :=
  if h : req.params.channel.toNat < 3 then do
    let c : Channel := ⟨req.params.channel.toNat, h⟩
    let (err, dev) ← initDmaInfo env dev c req
    if err < 0 then pure (.returned err, dev)
    else
      let (err, dev) ← dmaDispatch env dev c
      if err < 0 then do
        let dev ← resetDmaInfo dev c
        pure (.returned err, dev)
      else if (dev.dmaInfo c).params.transferMode = tpceDmaModeStream then pure (.returned 0, dev)
      else pure (.waits, { dev with waiting := some c })
  else pure (.returned (-Errno.einval), dev)

def iocDmaExecute (env : InitEnv) (dev : TpceDev) (file : Nat) (req : TpceDmaRequest) :
    Except Fault (Outcome × TpceDev) :=
  let err := validateDmaRequest dev req (some file)
  if err ≠ 0 then pure (.returned err, dev) else dmaExecute env dev req

def readKernelDmaBuffer (env : InitEnv) (dev : TpceDev) (r : KernelRead) :
    Except Fault (Outcome × TpceDev) :=
  if r.channel.toNat ≥ tpceDmaNumChannels then pure (.returned (-Errno.einval), dev)
  else if r.bytesTotal > tpceDmaDriverBufferSize then pure (.returned (-Errno.einval), dev)
  else do
    let chInfo ← channelInfo r.channel
    let req := r.request chInfo
    let err := validateDmaRequest dev req none
    if err ≠ 0 then pure (.returned err, dev) else dmaExecute env dev req

/-- The calls of `Driver.perform`, of which those with a request can end at the
page table -/
def perform (dev : TpceDev) (op : Op) : Except Fault (Outcome × TpceDev) :=
  match op with
  | .execute file env req =>
      if dev.goingAway then .ok (.returned (-Errno.enodev), dev) else iocDmaExecute env dev file req
  | .kernelRead _ env r =>
      if dev.goingAway then .ok (.returned (-Errno.enodev), dev) else readKernelDmaBuffer env dev r
  | op => Driver.perform dev op

/-- One call that the driver survives. -/
def step (dev : TpceDev) (op : Op) : Option TpceDev :=
  if enabled dev op then (perform dev op).toOption.map Prod.snd else none

/-- The store to `pages[-1]`, in front of the table -/
def FullTable (e : Fault) : Prop := e = .pageTable (-1)

/-- What a function returns, but for the fault if it has met a full table -/
def pastTable (full : Prop) [Decidable full] {α : Type} (a : α) : Except Fault α :=
  if full then .error (.pageTable (-1)) else .ok a

section
variable {α β : Type} {full : Prop} [Decidable full] {a : α}

theorem pastTable_curtails : Curtails FullTable (pastTable full a) (.ok a) := by
  have hfull : FullTable (.pageTable (-1)) := rfl
  simp only [pastTable]
  split
  · exact .error hfull _
  · exact .refl _ _

theorem pastTable_full (h : full) : pastTable full a = .error (.pageTable (-1)) := if_pos h

theorem pastTable_room (h : ¬full) : pastTable full a = .ok a := if_neg h

end

variable {env : InitEnv} {dev dev' : TpceDev} {c : Channel} {op : Op}

theorem enospc_ne : ¬(0 : Int) = -Errno.enospc := by decide

/-- A full table is exactly where the allocation returns -1. -/
theorem pciePageAlloc_eq (table : AlteraPciePageTable) (value : U64) (channelId : U8) :
    pciePageAlloc table value channelId =
      pastTable ((PageTable.pciePageAlloc table value channelId).slot = -1)
        (PageTable.pciePageAlloc table value channelId) := by
  obtain ⟨i, -, heq⟩ | ⟨-, heq⟩ := pciePageAlloc_spec table value channelId
  · have hslot : ¬(i : Int) = -1 := by omega
    have hinside : ∀ slot ∈ [(i : Int), i], ¬((slot < 0 || 16 ≤ slot) = true) := by
      intro slot hmem
      simp only [List.mem_cons, List.not_mem_nil, or_false, or_self] at hmem
      simp only [Bool.or_eq_true, decide_eq_true_eq]
      omega
    simp only [pciePageAlloc, heq, pastTable_room hslot, List.find?_eq_none.mpr hinside]
  · simp only [pciePageAlloc, heq]
    rfl

theorem translateDescriptorLinkAddr_eq (table : AlteraPciePageTable) (info : TpceDmaInfo) :
    translateDescriptorLinkAddr table info =
      pastTable ((Translation.translateDescriptorLinkAddr table info).1 = -Errno.enospc)
        (Translation.translateDescriptorLinkAddr table info) := by
  simp only [translateDescriptorLinkAddr, Translation.translateDescriptorLinkAddr, pciePageAlloc_eq]
  split
  · rename_i hfull
    rw [pastTable_full hfull, pastTable_full rfl]
    rfl
  · rename_i hroom
    rw [pastTable_room hroom, pastTable_room enospc_ne]
    exact if_neg hroom

theorem lookupPage_eq (channel : U8) (st : RwLookup) (p : U64) :
    lookupPage channel st p =
      match Translation.lookupPage channel st p with
      | .error _ => .error (.pageTable (-1))
      | .ok st => .ok (.ok st) := by
  simp only [lookupPage, Translation.lookupPage, pciePageAlloc_eq]
  by_cases hpage : st.currPage ≠ p
  · rw [if_pos hpage, if_pos hpage]
    by_cases hfound : pciePageFindValue st.table p channel = -1
    · rw [if_pos hfound, if_pos hfound]
      by_cases hfull : (PageTable.pciePageAlloc st.table p channel).slot = -1
      · rw [pastTable_full hfull, if_pos hfull]
        rfl
      · rw [pastTable_room hfull, if_neg hfull]
        exact if_neg hfull
    · rw [if_neg hfound, if_neg hfound]
      rfl
  · rw [if_neg hpage, if_neg hpage]
    rfl

theorem translateRwLoop_eq (channel : U8) (st : RwLookup) (descs : List TpceDmaDescriptor) :
    translateRwLoop channel st descs =
      pastTable ((Translation.translateRwLoop channel st descs).1 = false)
        (Translation.translateRwLoop channel st descs) := by
  induction descs generalizing st with
  | nil => rfl
  | cons desc rest ih =>
      obtain ⟨looked, hlook⟩ : ∃ looked, Translation.lookupPage channel st (pageOf (tpceDescGetWrite desc)) = looked :=
        ⟨_, rfl⟩
      simp only [translateRwLoop, Translation.translateRwLoop, lookupPage_eq, hlook]
      cases looked with
      | error table => rfl
      | ok st' =>
          change (translateRwLoop channel st' rest >>= _) = _
          rw [ih]
          by_cases hdone : (Translation.translateRwLoop channel st' rest).1 = false
          · rw [pastTable_full hdone, pastTable_full hdone]
            rfl
          · rw [pastTable_room hdone, pastTable_room hdone]
            rfl

theorem translateDescriptorRwAddr_eq (slot₀ : Int) (table : AlteraPciePageTable) (info : TpceDmaInfo) :
    translateDescriptorRwAddr slot₀ table info =
      pastTable ((Translation.translateDescriptorRwAddr slot₀ table info).1 = -Errno.enospc)
        (Translation.translateDescriptorRwAddr slot₀ table info) := by
  simp only [translateDescriptorRwAddr, Translation.translateDescriptorRwAddr, translateRwLoop_eq]
  split
  · by_cases hdone : (Translation.translateRwLoop info.params.channel ⟨table, 0, slot₀, 0⟩
        (info.descDma.take (info.descActive / descriptorSize).toNat)).1 = false
    · rw [pastTable_full hdone, if_neg (by rw [hdone]; exact Bool.false_ne_true), pastTable_full rfl]
      rfl
    · have hreached := Bool.eq_true_of_not_eq_false hdone
      have hcount : ∀ n : ℕ, ¬(n : ℤ) = -Errno.enospc := fun n hn => by
        simp only [Errno.enospc] at hn
        omega
      rw [pastTable_room hdone, if_pos hreached, pastTable_room (hcount _)]
      exact if_pos hreached
  · split
    · rfl
    · rfl

theorem dmaStart_eq (env : InitEnv) (dev : TpceDev) (c : Channel) :
    dmaStart env dev c =
      pastTable ((ChannelControl.dmaStart env dev c).1 = -Errno.enospc) (ChannelControl.dmaStart env dev c) := by
  simp only [dmaStart, ChannelControl.dmaStart, translateDescriptorLinkAddr_eq, translateDescriptorRwAddr_eq]
  split
  · rfl
  by_cases hlink : (Translation.translateDescriptorLinkAddr dev.pageTable (dev.dmaInfo c)).1 = -Errno.enospc
  · rw [pastTable_full hlink, if_pos (by rw [hlink]; decide), pastTable_full hlink]
    rfl
  rw [pastTable_room hlink]
  by_cases hneg : (Translation.translateDescriptorLinkAddr dev.pageTable (dev.dmaInfo c)).1 < 0
  · rw [if_pos hneg, pastTable_room hlink]
    exact if_pos hneg
  rw [if_neg hneg]
  refine (if_neg hneg).trans ?_
  generalize Translation.translateDescriptorRwAddr env.slot _ _ = rw
  by_cases hrw : rw.1 = -Errno.enospc
  · rw [pastTable_full hrw, if_pos (by rw [hrw]; decide), pastTable_full hrw]
    rfl
  rw [pastTable_room hrw]
  by_cases hneg : rw.1 < 0
  · rw [if_pos hneg, pastTable_room hrw]
    exact if_pos hneg
  · rw [if_neg hneg, pastTable_room enospc_ne]
    exact if_neg hneg

/-- What follows a start that succeeds changes nothing about a start that does not. -/
theorem started_eq {start : Int × TpceDev} {f : TpceDev → TpceDev} :
    (pastTable (start.1 = -Errno.enospc) start >>= fun r => if r.1 ≠ 0 then pure r else pure (0, f r.2)) =
      pastTable ((if start.1 ≠ 0 then start else (0, f start.2)).1 = -Errno.enospc)
        (if start.1 ≠ 0 then start else (0, f start.2)) := by
  by_cases hfull : start.1 = -Errno.enospc
  · have hret : start.1 ≠ 0 := fun h => enospc_ne (h.symm.trans hfull)
    simp only [if_pos hret]
    rw [pastTable_full hfull]
    rfl
  · rw [pastTable_room hfull]
    by_cases hret : start.1 ≠ 0
    · simp only [if_pos hret]
      rw [pastTable_room hfull]
      exact if_pos hret
    · simp only [if_neg hret]
      rw [pastTable_room enospc_ne]
      exact if_neg hret

/-- A dispatch fails with -ENOSPC in the model of the total table exactly where
it ends at the table here. -/
theorem dmaDispatch_eq (env : InitEnv) (dev : TpceDev) (c : Channel) :
    dmaDispatch env dev c =
      pastTable ((ChannelControl.dmaDispatch env dev c).1 = -Errno.enospc) (ChannelControl.dmaDispatch env dev c) := by
  simp only [dmaDispatch, ChannelControl.dmaDispatch]
  split
  · simp only [tpceDmaStart, ChannelControl.tpceDmaStart, dmaStart_eq]
    exact started_eq (f := fun dev => setRunning dev c)
  split
  · simp only [tpceDmaStreamStart, ChannelControl.tpceDmaStreamStart, dmaStart_eq]
    exact started_eq (f := fun dev => setRunning dev c)
  · rfl

theorem dmaDispatch_curtails (env : InitEnv) (dev : TpceDev) (c : Channel) :
    Curtails FullTable (dmaDispatch env dev c) (.ok (ChannelControl.dmaDispatch env dev c)) := by
  rw [dmaDispatch_eq]
  exact pastTable_curtails

/-- A start that succeeds has not met a full table. -/
theorem dmaDispatch_of_started (h : (ChannelControl.dmaDispatch env dev c).1 = 0) :
    dmaDispatch env dev c = .ok (ChannelControl.dmaDispatch env dev c) := by
  rw [dmaDispatch_eq, pastTable_room (by rw [h]; exact enospc_ne)]

theorem dmaExecute_curtails (env : InitEnv) (dev : TpceDev) (req : TpceDmaRequest) :
    Curtails FullTable (dmaExecute env dev req) (Requests.dmaExecute env dev req) := by
  simp only [dmaExecute, Requests.dmaExecute]
  split
  · rename_i hc
    refine (Curtails.refl _ _).bind fun init _ => Curtails.ite (.refl _ _) ?_
    exact (dmaDispatch_curtails env init.2 ⟨req.params.channel.toNat, hc⟩).bind fun _ _ => .refl _ _
  · exact .refl _ _

theorem iocDmaExecute_curtails (env : InitEnv) (dev : TpceDev) (file : Nat) (req : TpceDmaRequest) :
    Curtails FullTable (iocDmaExecute env dev file req) (Requests.iocDmaExecute env dev file req) :=
  Curtails.ite (.refl _ _) (dmaExecute_curtails env dev req)

theorem readKernelDmaBuffer_curtails (env : InitEnv) (dev : TpceDev) (r : KernelRead) :
    Curtails FullTable (readKernelDmaBuffer env dev r) (Requests.readKernelDmaBuffer env dev r) := by
  refine Curtails.ite (.refl _ _) (Curtails.ite (.refl _ _) ?_)
  exact (Curtails.refl _ _).bind fun chInfo _ => Curtails.ite (.refl _ _) (dmaExecute_curtails env dev _)

theorem perform_curtails (dev : TpceDev) (op : Op) :
    Curtails FullTable (perform dev op) (Driver.perform dev op) := by
  cases op with
  | execute file env req => exact Curtails.ite (.refl _ _) (iocDmaExecute_curtails env dev file req)
  | kernelRead file env r => exact Curtails.ite (.refl _ _) (readKernelDmaBuffer_curtails env dev r)
  | _ => exact .refl _ _

/-- Each step is one of the driver with a total table, so what holds in every run
of that one holds in every run here. -/
theorem step_refines (h : step dev op = some dev') : Driver.step dev op = some dev' := by
  simp only [step, Driver.step] at h ⊢
  split at h
  · rename_i henabled
    rw [if_pos henabled]
    obtain ⟨r, hperform, rfl⟩ := Option.map_eq_some_iff.mp h
    rw [(perform_curtails dev op).returns (toOption_eq_some.mp hperform)]
    rfl
  · cases h

end TpceDrv.PageTableFaults
