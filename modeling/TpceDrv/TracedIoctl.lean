import TpceDrv.IoctlCommands
import TpceDrv.Library.Traces

namespace TpceDrv.TracedIoctl

open DmaInfo Mapping Device ChannelControl Requests RequestAtomicity UserStructs LegacyRead IoctlCommands
open Library.Buffers Library.Errors Library.Holdings Library.Traces
open Ioctl (TpceIoc dmaMapIdSize dmaRequestDataSize dmaTpceDataReadSize dmaRequestSize pciDevRegSize u32Size noneSize)

variable {τ α : Type} {P : List τ → Prop}

/-- How a wait passes, and how often its condition is evaluated -/
structure Waiting where
  wait : Wait
  polls : ℕ

/-- The functions below the commands that a trace follows: `tpce_dma_abort` with
`reset_dma_info` behind it, the execution of a request and the accesses to a
register. -/
structure TracedOps (τ : Type) where
  abortReset : TpceDev → Channel → Traced τ Fault TpceDev
  dmaExecute : InitEnv → Waiting → TpceDev → TpceDmaRequest → Traced τ Fault (Outcome × TpceDev)
  barRead : Kernel → TPciDevReg → Session → Traced τ IoctlFault (U32 × Session)
  barWrite : Kernel → TPciDevReg → Session → Traced τ IoctlFault Reply

variable (ops : TracedOps τ)

def tpceSafeDmaUnmap (dev : TpceDev) (obj : ℕ) : Traced τ Fault TpceDev := do
  let mapInfo ← lift (dev.mapInfo obj)
  let dev ←
    (if mappingIsBusy mapInfo then do
      let c ← lift (channelOf mapInfo.activeChannel)
      ops.abortReset dev c
    else pure dev)
  lift (tpceDmaUnlockUserBuffer dev obj)

def iocUnlockDmaBuffer (dev : TpceDev) (file : ℕ) (id : U32) : Traced τ Fault (Outcome × TpceDev) :=
  match dev.dmaMappings id with
  | none => pure (.returned (-Errno.einval), dev)
  | some obj => do
      let mapInfo ← lift (dev.mapInfo obj)
      if mapInfo.owner ≠ some file then pure (.returned (-Errno.eperm), dev)
      else do
        let dev ← tpceSafeDmaUnmap ops (listDel dev file obj) obj
        pure (.returned 0, dev)

def iocDmaCancel (dev : TpceDev) (channel : U32) : Traced τ Fault (Outcome × TpceDev) :=
  if h : channel.toNat < 3 then do
    let dev ← ops.abortReset dev ⟨channel.toNat, h⟩
    pure (.returned 0, dev)
  else pure (.returned (-Errno.einval), dev)

def releaseMappings (file : ℕ) : TpceDev → List ℕ → Traced τ Fault TpceDev
  | dev, [] => pure dev
  | dev, obj :: rest => do
      let dev ← tpceSafeDmaUnmap ops (listDel dev file obj) obj
      releaseMappings file dev rest

def readKernelDmaBuffer (env : InitEnv) (waiting : Waiting) (dev : TpceDev) (r : KernelRead) :
    Traced τ Fault (Outcome × TpceDev) :=
  if r.channel.toNat ≥ tpceDmaNumChannels then pure (.returned (-Errno.einval), dev)
  else if r.bytesTotal > tpceDmaDriverBufferSize then pure (.returned (-Errno.einval), dev)
  else do
    let chInfo ← lift (Descriptor.channelInfo r.channel)
    let req := r.request chInfo
    let err := validateDmaRequest dev req none
    if err ≠ 0 then pure (.returned err, dev) else ops.dmaExecute env waiting dev req

/-- The operations of the legacy reads, which leave their trace in a list -/
def tracedReads (k : Kernel) (polls : List Call → ℕ) : LegacyOps (Session × List τ) where
  readKernelDmaBuffer := fun read st => do
    let s := st.1.ask (.readKernelDmaBuffer read)
    let ((out, dev), t) ← (readKernelDmaBuffer ops (k.init s.calls) ⟨k.wait s.calls, polls s.calls⟩ s.dev read).run
    pure (returnCode out, { s with dev := dev }, st.2 ++ t)
  hasKernelDma := fun st => (sessionOps k).hasKernelDma st.1
  copyToUser := fun dst offset length st =>
    let (missed, s) := (sessionOps k).copyToUser dst offset length st.1
    (missed, s, st.2)

def legacyCommand (r : Except Fault (ℤ × Session × List τ)) : Traced τ Fault Reply :=
  WriterT.mk (r.map fun p => (⟨p.1, [], p.2.1⟩, p.2.2))

def unlockCommand (file : ℕ) (id : U32) (s : Session) : Traced τ Fault Reply := do
  let (out, dev) ← iocUnlockDmaBuffer ops s.dev file id
  pure ⟨returnCode out, [], { s with dev := dev }⟩

def executeCommand (k : Kernel) (polls : List Call → ℕ) (file : ℕ) (req : TpceDmaRequest) (s : Session) :
    Traced τ Fault Reply :=
  let err := validateDmaRequest s.dev req (some file)
  if err ≠ 0 then pure ⟨err, [], s⟩
  else do
    let s := s.ask (.executeRequest req)
    let (out, dev) ← ops.dmaExecute (k.init s.calls) ⟨k.wait s.calls, polls s.calls⟩ s.dev req
    pure ⟨returnCode out, [], { s with dev := dev }⟩

def cancelCommand (channel : U32) (s : Session) : Traced τ Fault Reply := do
  let (out, dev) ← iocDmaCancel ops s.dev channel
  pure ⟨returnCode out, [], { s with dev := dev }⟩

def orFault (m : Traced τ Fault α) : Traced τ IoctlFault α := WriterT.mk (IoctlCommands.orFault m.run)

def validateSize (size : U32) (inType outType : ℕ) (s : Session) (body : Traced τ IoctlFault Reply) :
    Traced τ IoctlFault Reply :=
  if size.toNat < inType ∨ size.toNat < outType then pure ⟨-Errno.einval, [], s⟩ else body

/-- The other commands do nothing that a trace follows. -/
def tpceDispatchIoc (k : Kernel) (polls : List Call → ℕ) (file : ℕ) (ioc : TpceIoc) (size : U32) (b : Bytes)
    (s : Session) : Traced τ IoctlFault Reply :=
  match ioc with
  | .pciBarRead => validateSize size pciDevRegSize u32Size s do
      let (v, s) ← ops.barRead k (pciDevReg b) s
      pure ⟨0, u32Bytes v, s⟩
  | .pciBarWrite => validateSize size pciDevRegSize noneSize s (ops.barWrite k (pciDevReg b) s)
  | .dmaFreeSgl => validateSize size dmaMapIdSize noneSize s (orFault (unlockCommand ops file (u32At b 0) s))
  | .dmaRead => validateSize size dmaRequestDataSize noneSize s
      (orFault (legacyCommand (iocDmaReadRequest (tracedReads ops k polls) (dmaRequestData b) (s, []))))
  | .dmaRead2 => validateSize size dmaTpceDataReadSize noneSize s
      (orFault (legacyCommand (iocDmaReadRequestA (tracedReads ops k polls) (dmaTpceDataRead b) (s, []))))
  | .dmaExecute => validateSize size dmaRequestSize noneSize s
      (orFault (executeCommand ops k polls file (dmaRequest b) s))
  | .dmaCancel => validateSize size u32Size noneSize s (orFault (cancelCommand ops (u32At b 0) s))
  | ioc => lift (IoctlCommands.tpceDispatchIoc k file ioc size b s)

/-- The commands with a request, which can end at the page table -/
def makesRequest : TpceIoc → Bool
  | .dmaRead => true
  | .dmaRead2 => true
  | .dmaExecute => true
  | _ => false

/-- Without the trace the functions are those of the driver's model. A request may
end before, where `stops` allows it. -/
structure TracedOps.Faithful (stops : Fault → Prop) (ops : TracedOps τ) : Prop where
  abortReset : ∀ dev c, erase (ops.abortReset dev c) = resetDmaInfo (tpceDmaAbort dev c) c
  dmaExecute : ∀ env waiting dev req, Curtails stops (erase (ops.dmaExecute env waiting dev req))
    (dmaExecuteToEnd env waiting.wait dev req)
  barRead : ∀ k regInfo s, erase (ops.barRead k regInfo s) = iocBarRead k regInfo s
  barWrite : ∀ k regInfo s, erase (ops.barWrite k regInfo s) = iocBarWrite k regInfo s

theorem execute_settle (env : InitEnv) (wait : Wait) (dev : TpceDev) (req : TpceDmaRequest) :
    dmaExecuteToEnd env wait dev req = Requests.dmaExecute env dev req >>= settle wait := rfl

theorem erase_legacyCommand (r : Except Fault (ℤ × Session × List τ)) :
    erase (legacyCommand r) = IoctlCommands.legacyCommand (r.map (Prod.map id Prod.fst)) := by
  cases r with
  | error e => rfl
  | ok p => rfl

theorem erase_orFault (m : Traced τ Fault α) : erase (orFault m) = IoctlCommands.orFault (erase m) := by
  simp only [erase, orFault, IoctlCommands.orFault]
  cases m.run with
  | error e => rfl
  | ok p => rfl

theorem erase_validateSize (size : U32) (inType outType : ℕ) (s : Session) (body : Traced τ IoctlFault Reply) :
    erase (validateSize size inType outType s body) =
      IoctlCommands.validateSize size inType outType s (erase body) := by
  simp only [validateSize, IoctlCommands.validateSize, erase_ite, erase_pure]

/-- The commands hand the faults of the driver on. -/
def Handed (stops : Fault → Prop) (e : IoctlFault) : Prop := ∃ fault, stops fault ∧ e = .driver fault

theorem orFault_curtails {stops : Fault → Prop} {x y : Except Fault α} (h : Curtails stops x y) :
    Curtails (Handed stops) (IoctlCommands.orFault x) (IoctlCommands.orFault y) := by
  obtain rfl | ⟨e, he, rfl⟩ := h
  · exact .refl _ _
  · exact .error ⟨e, he, rfl⟩ _

theorem handed_false {x y : Except IoctlFault α} (h : Curtails (Handed fun _ => False) x y) : x = y := by
  obtain rfl | ⟨e, ⟨fault, hfault, -⟩, -⟩ := h
  · rfl
  · exact hfault.elim

theorem erase_legacy {stops : Fault → Prop} {r : Except Fault (ℤ × Session × List τ)} {r' : Except Fault (ℤ × Session)}
    (hr : Curtails stops (r.map (Prod.map id Prod.fst)) r') :
    Curtails (Handed stops) (erase (orFault (legacyCommand r)))
      (IoctlCommands.orFault (IoctlCommands.legacyCommand r')) := by
  rw [erase_orFault, erase_legacyCommand]
  exact orFault_curtails (hr.map _)

section
variable {stops : Fault → Prop} {ops : TracedOps τ} (h : ops.Faithful stops)
include h

theorem erase_safeDmaUnmap (dev : TpceDev) (obj : ℕ) :
    erase (tpceSafeDmaUnmap ops dev obj) = Requests.tpceSafeDmaUnmap dev obj := by
  simp only [tpceSafeDmaUnmap, Requests.tpceSafeDmaUnmap, erase_bind, erase_lift, erase_ite, h.abortReset, erase_pure]

theorem erase_unlockDmaBuffer (dev : TpceDev) (file : ℕ) (id : U32) :
    erase (iocUnlockDmaBuffer ops dev file id) = Requests.iocUnlockDmaBuffer dev file id := by
  simp only [iocUnlockDmaBuffer, Requests.iocUnlockDmaBuffer]
  cases dev.dmaMappings id with
  | none => rfl
  | some obj => simp only [erase_bind, erase_lift, erase_ite, erase_safeDmaUnmap h, erase_pure]

theorem erase_dmaCancel (dev : TpceDev) (channel : U32) :
    erase (iocDmaCancel ops dev channel) = Requests.iocDmaCancel dev channel := by
  simp only [iocDmaCancel, Requests.iocDmaCancel]
  split
  · simp only [erase_bind, h.abortReset, erase_pure]
  · rfl

theorem erase_releaseMappings (file : ℕ) (dev : TpceDev) (objs : List ℕ) :
    erase (releaseMappings ops file dev objs) = Requests.releaseMappings file dev objs := by
  induction objs generalizing dev with
  | nil => rfl
  | cons obj objs ih =>
      simp only [releaseMappings, Requests.releaseMappings, erase_bind, erase_safeDmaUnmap h, ih]

theorem erase_readKernelDmaBuffer (env : InitEnv) (waiting : Waiting) (dev : TpceDev) (r : KernelRead) :
    Curtails stops (erase (readKernelDmaBuffer ops env waiting dev r))
      (Requests.readKernelDmaBuffer env dev r >>= settle waiting.wait) := by
  simp only [readKernelDmaBuffer, Requests.readKernelDmaBuffer]
  split
  · exact .refl _ _
  split
  · exact .refl _ _
  simp only [erase_bind, erase_lift]
  cases Descriptor.channelInfo r.channel with
  | error e => exact .refl _ _
  | ok chInfo =>
      simp only [ok_bind, erase_ite, erase_pure]
      split
      · exact .refl _ _
      · exact h.dmaExecute env waiting dev _

theorem tracedReads_map (k : Kernel) (polls : List Call → ℕ) :
    OpsMap stops Prod.fst (tracedReads ops k polls) (sessionOps k) where
  read := fun r st => by
    have herase := erase_readKernelDmaBuffer h (k.init (st.1.ask (.readKernelDmaBuffer r)).calls)
      ⟨k.wait (st.1.ask (.readKernelDmaBuffer r)).calls, polls (st.1.ask (.readKernelDmaBuffer r)).calls⟩
      (st.1.ask (.readKernelDmaBuffer r)).dev r
    simp only [tracedReads, sessionOps]
    rw [← bind_assoc]
    exact herase.map_bind fun p => .refl _ _
  kernelDma := fun _ => rfl
  copy := fun _ _ _ _ => rfl

theorem erase_dispatch_of_plain {ioc : TpceIoc} (hioc : makesRequest ioc = false) (k : Kernel) (polls : List Call → ℕ)
    (file : ℕ) (size : U32) (b : Bytes) (s : Session) :
    erase (tpceDispatchIoc ops k polls file ioc size b s) = IoctlCommands.tpceDispatchIoc k file ioc size b s := by
  cases ioc with
  | pciBarRead =>
      simp only [tpceDispatchIoc, IoctlCommands.tpceDispatchIoc, erase_validateSize, erase_bind, h.barRead, erase_pure]
  | pciBarWrite => simp only [tpceDispatchIoc, IoctlCommands.tpceDispatchIoc, erase_validateSize, h.barWrite]
  | dmaFreeSgl =>
      simp only [tpceDispatchIoc, IoctlCommands.tpceDispatchIoc, erase_validateSize, erase_orFault, unlockCommand,
        IoctlCommands.unlockCommand, erase_bind, erase_unlockDmaBuffer h, erase_pure]
  | dmaCancel =>
      simp only [tpceDispatchIoc, IoctlCommands.tpceDispatchIoc, erase_validateSize, erase_orFault, cancelCommand,
        IoctlCommands.cancelCommand, erase_bind, erase_dmaCancel h, erase_pure]
  | dmaRead => cases hioc
  | dmaRead2 => cases hioc
  | dmaExecute => cases hioc
  | _ => exact erase_lift _

theorem erase_dispatch (k : Kernel) (polls : List Call → ℕ) (file : ℕ) (ioc : TpceIoc) (size : U32) (b : Bytes)
    (s : Session) : Curtails (Handed stops) (erase (tpceDispatchIoc ops k polls file ioc size b s))
      (IoctlCommands.tpceDispatchIoc k file ioc size b s) := by
  cases hioc : makesRequest ioc with
  | false => exact .of_eq (erase_dispatch_of_plain h hioc k polls file size b s)
  | true =>
      cases ioc with
      | dmaRead =>
          simp only [tpceDispatchIoc, IoctlCommands.tpceDispatchIoc, erase_validateSize]
          exact Curtails.ite (.refl _ _) (erase_legacy ((tracedReads_map h k polls).iocDmaReadRequest _ _))
      | dmaRead2 =>
          simp only [tpceDispatchIoc, IoctlCommands.tpceDispatchIoc, erase_validateSize]
          exact Curtails.ite (.refl _ _) (erase_legacy ((tracedReads_map h k polls).iocDmaReadRequestA _ _))
      | dmaExecute =>
          simp only [tpceDispatchIoc, IoctlCommands.tpceDispatchIoc, erase_validateSize, erase_orFault, executeCommand,
            IoctlCommands.executeCommand, erase_ite, erase_bind, erase_pure]
          refine Curtails.ite (.refl _ _) (orFault_curtails (Curtails.ite (.refl _ _) ?_))
          exact (h.dmaExecute _ _ _ _).bind fun _ _ => .refl _ _
      | _ => cases hioc

end

/-- The functions leave traces of the kind only. -/
structure TracedOps.Leave (ops : TracedOps τ) (P : List τ → Prop) : Prop where
  abortReset : ∀ dev c, Leaves P (ops.abortReset dev c)
  dmaExecute : ∀ env waiting dev req, Leaves P (ops.dmaExecute env waiting dev req)
  barRead : ∀ k regInfo s, Leaves P (ops.barRead k regInfo s)
  barWrite : ∀ k regInfo s, Leaves P (ops.barWrite k regInfo s)

theorem legacyCommand_leaves {r : Except Fault (ℤ × Session × List τ)}
    (h : ∀ ret st, r = .ok (ret, st) → P st.2) :
    Leaves P (legacyCommand r) := by
  intro reply t hrun
  cases r with
  | error e => cases hrun
  | ok p =>
      cases hrun
      exact h p.1 p.2 rfl

theorem run_orFault {m : Traced τ Fault α} {p : α × List τ} (h : (orFault m).run = .ok p) : m.run = .ok p := by
  simp only [orFault, IoctlCommands.orFault] at h
  cases hm : m.run with
  | error e =>
      rw [hm] at h
      cases h
  | ok q =>
      rw [hm] at h
      cases h
      rfl

theorem orFault_leaves {m : Traced τ Fault α} (hm : Leaves P m) : Leaves P (orFault m) :=
  fun a t hrun => hm a t (run_orFault hrun)

theorem orFault_ends {κ : Type} [DecidableEq κ] {view : τ → Option (Access κ)} {held : Finset κ} {m : Traced τ Fault α}
    {Q : α → Finset κ → Prop} (hm : Ends view held m Q) : Ends view held (orFault m) Q :=
  fun a t hrun => hm a t (run_orFault hrun)

theorem validateSize_leaves {size : U32} {inType outType : ℕ} {s : Session} {body : Traced τ IoctlFault Reply}
    (hP : Additive P) (h : Leaves P body) : Leaves P (validateSize size inType outType s body) :=
  Leaves.ite (fun _ => Leaves.pure hP _) fun _ => h

section
variable {ops : TracedOps τ} (hP : Additive P) (h : ops.Leave P)
include hP h

theorem safeDmaUnmap_leaves (dev : TpceDev) (obj : ℕ) : Leaves P (tpceSafeDmaUnmap ops dev obj) := by
  refine (Leaves.lift hP _).bind hP fun m => Leaves.bind hP ?_ fun dev₁ => Leaves.lift hP _
  refine Leaves.ite (fun _ => ?_) fun _ => Leaves.pure hP _
  exact (Leaves.lift hP _).bind hP fun c => h.abortReset dev c

theorem unlockDmaBuffer_leaves (dev : TpceDev) (file : ℕ) (id : U32) :
    Leaves P (iocUnlockDmaBuffer ops dev file id) := by
  simp only [iocUnlockDmaBuffer]
  split
  · exact Leaves.pure hP _
  · refine (Leaves.lift hP _).bind hP fun m => Leaves.ite (fun _ => Leaves.pure hP _) fun _ => ?_
    exact (safeDmaUnmap_leaves hP h _ _).bind hP fun _ => Leaves.pure hP _

theorem dmaCancel_leaves (dev : TpceDev) (channel : U32) : Leaves P (iocDmaCancel ops dev channel) := by
  simp only [iocDmaCancel]
  split
  · exact (h.abortReset dev _).bind hP fun _ => Leaves.pure hP _
  · exact Leaves.pure hP _

theorem releaseMappings_leaves (file : ℕ) (dev : TpceDev) (objs : List ℕ) :
    Leaves P (releaseMappings ops file dev objs) := by
  induction objs generalizing dev with
  | nil => exact Leaves.pure hP _
  | cons obj objs ih => exact (safeDmaUnmap_leaves hP h _ _).bind hP fun dev₁ => ih dev₁

theorem readKernelDmaBuffer_leaves (env : InitEnv) (waiting : Waiting) (dev : TpceDev) (r : KernelRead) :
    Leaves P (readKernelDmaBuffer ops env waiting dev r) := by
  refine Leaves.ite (fun _ => Leaves.pure hP _) fun _ => Leaves.ite (fun _ => Leaves.pure hP _) fun _ => ?_
  refine (Leaves.lift hP _).bind hP fun chInfo => Leaves.ite (fun _ => Leaves.pure hP _) fun _ => ?_
  exact h.dmaExecute env waiting dev _

theorem tracedReads_keep (k : Kernel) (polls : List Call → ℕ) :
    OpsKeep (tracedReads ops k polls) fun st => P st.2 where
  read := fun r st ret st' hrun hst => by
    obtain ⟨⟨⟨out, dev⟩, t⟩, hread, hrun⟩ := bind_eq_ok.mp hrun
    cases hrun
    exact hP.append _ t hst (readKernelDmaBuffer_leaves hP h _ _ _ _ _ _ hread)
  copy := fun _ _ _ _ hst => hst

theorem dispatch_leaves (k : Kernel) (polls : List Call → ℕ) (file : ℕ) (ioc : TpceIoc) (size : U32) (b : Bytes)
    (s : Session) : Leaves P (tpceDispatchIoc ops k polls file ioc size b s) := by
  cases ioc with
  | pciBarRead =>
      apply validateSize_leaves hP
      exact (h.barRead k _ s).bind hP fun _ => Leaves.pure hP _
  | pciBarWrite => exact validateSize_leaves hP (h.barWrite k _ s)
  | dmaFreeSgl =>
      apply validateSize_leaves hP (orFault_leaves _)
      exact (unlockDmaBuffer_leaves hP h _ _ _).bind hP fun _ => Leaves.pure hP _
  | dmaRead =>
      apply validateSize_leaves hP (orFault_leaves (legacyCommand_leaves _))
      exact fun ret st hrun => (tracedReads_keep hP h k polls).iocDmaReadRequest hrun hP.nil
  | dmaRead2 =>
      apply validateSize_leaves hP (orFault_leaves (legacyCommand_leaves _))
      exact fun ret st hrun => (tracedReads_keep hP h k polls).iocDmaReadRequestA hrun hP.nil
  | dmaExecute =>
      apply validateSize_leaves hP (orFault_leaves _)
      refine Leaves.ite (fun _ => Leaves.pure hP _) fun _ => ?_
      exact (h.dmaExecute _ _ _ _).bind hP fun _ => Leaves.pure hP _
  | dmaCancel =>
      apply validateSize_leaves hP (orFault_leaves _)
      exact (dmaCancel_leaves hP h _ _).bind hP fun _ => Leaves.pure hP _
  | _ => exact Leaves.lift hP _

end

end TpceDrv.TracedIoctl
