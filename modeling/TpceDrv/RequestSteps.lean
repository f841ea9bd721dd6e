import TpceDrv.ChannelSteps
import TpceDrv.Driver

namespace TpceDrv.RequestSteps

open Descriptor DmaParams DmaInfo Mapping PageTable Device ChannelControl ChannelSteps Requests Driver

variable {env : InitEnv} {dev dev' : TpceDev} {c : Channel} {req : TpceDmaRequest}

theorem abortedState_idle {state : TpceDmaChannelState} : abortedState state = .idle ↔ state = .idle := by
  cases state <;> simp [abortedState]

/-- What `validate_dma_request` has checked when it returns 0. -/
structure ValidRequest (dev : TpceDev) (req : TpceDmaRequest) (fileCtx : Option Nat) (c : Channel)
    (mapInfo : TpceDmaMapInfo) : Prop where
  channel : c.val = req.params.channel.toNat
  loaded : xaLoad dev req.id = some mapInfo
  owner : mapInfo.owner = none ∨ mapInfo.owner = fileCtx
  compatible : mapInfo.direction = tpceDmaBidirectional ∨ req.params.direction = mapInfo.direction
  idle : (dev.dmaInfo c).state = .idle
  direction : req.params.direction = tpceDmaToDevice ∨ req.params.direction = tpceDmaFromDevice
  size : req.descriptors ≠ 0 → req.descriptorsSize ≤ tpceMaxDescriptorsSize
  aligned : req.descriptors ≠ 0 → req.descriptorsSize % descriptorSize = 0

theorem validateDmaRequest_valid {fileCtx : Option Nat} (h : validateDmaRequest dev req fileCtx = 0) :
    ∃ c mapInfo, ValidRequest dev req fileCtx c mapInfo := by
  simp only [validateDmaRequest] at h
  split at h
  · rename_i hch
    split at h
    · cases h
    rename_i mapInfo hload
    split at h
    · cases h
    rename_i howner
    split at h
    · cases h
    rename_i hdir
    split at h
    · cases h
    rename_i hidle
    split at h
    · cases h
    rename_i hdir'
    split at h
    · cases h
    rename_i hsize
    split at h
    · cases h
    split at h
    · cases h
    rename_i halign
    refine ⟨⟨_, hch⟩, mapInfo, rfl, hload, ?_, ?_, not_not.mp hidle, ?_, fun hne => ?_, fun hne => ?_⟩
    · by_cases h0 : mapInfo.owner = none
      · exact .inl h0
      · exact .inr (not_not.mp fun h1 => howner ⟨h0, h1⟩)
    · by_cases h0 : mapInfo.direction = tpceDmaBidirectional
      · exact .inl h0
      · exact .inr (not_not.mp fun h1 => hdir ⟨h0, h1⟩)
    · by_cases h0 : req.params.direction = tpceDmaToDevice
      · exact .inl h0
      · exact .inr (not_not.mp fun h1 => hdir' ⟨h0, h1⟩)
    · exact BitVec.not_lt.mp fun hlt => hsize ⟨hne, hlt⟩
    · exact not_not.mp fun h1 => halign ⟨hne, h1⟩
  · cases h

theorem validateDmaRequest_nonpos (dev : TpceDev) (req : TpceDmaRequest) (fileCtx : Option ℕ) :
    validateDmaRequest dev req fileCtx ≤ 0 := by
  have hite : ∀ (p : Prop) [Decidable p] (x y : ℤ), x ≤ 0 → y ≤ 0 → (if p then x else y) ≤ 0 := by
    intro p _ x y hx hy
    split
    · exact hx
    · exact hy
  have heinval : -Errno.einval ≤ 0 := by decide
  have hebusy : -Errno.ebusy ≤ 0 := by decide
  have hemsgsize : -Errno.emsgsize ≤ 0 := by decide
  rw [validateDmaRequest]
  split
  · split
    · exact heinval
    · exact hite _ _ _ heinval (hite _ _ _ heinval (hite _ _ _ hebusy (hite _ _ _ heinval
        (hite _ _ _ hemsgsize (hite _ _ _ heinval (hite _ _ _ heinval le_rfl))))))
  · exact heinval

theorem validatedRequest_valid {op : Op} (h : validatedRequest dev op = some (env, req)) :
    ∃ fileCtx c mapInfo, ValidRequest dev req fileCtx c mapInfo := by
  cases op with
  | execute file env' req' =>
      simp only [validatedRequest] at h
      split at h
      · rename_i hval
        cases h
        exact ⟨some file, validateDmaRequest_valid hval⟩
      · cases h
  | kernelRead file env' r =>
      simp only [validatedRequest] at h
      split at h
      · cases h
      · split at h
        · rename_i hval
          cases h
          exact ⟨none, validateDmaRequest_valid hval.2⟩
        · cases h
  | _ => cases h

/-- The state in front of the wait, when the start of the channel succeeds or
fails. -/
structure Started (dev : TpceDev) (c : Channel) (table : AlteraPciePageTable) (info : TpceDmaInfo)
    (dev' : TpceDev) : Prop where
  same : SameTransfer (dev.dmaInfo c) info
  size : info.descSize = (dev.dmaInfo c).descSize
  dispatched : ∃ env, (dmaDispatch env dev c).2 = dev'
  result : dev' = { dev with pageTable := table, fastIrqMask := startMask dev c }.setInfo c info

/-- How `dma_execute` can end in front of the wait: refused while it is set
up, failed in the start and reset, or running. -/
inductive Executed (env : InitEnv) (dev : TpceDev) (c : Channel) (req : TpceDmaRequest) : TpceDev → Prop
  | refused (ret : ℤ) (info : TpceDmaInfo)
      (refusal : initDmaInfo env dev c req = .ok (ret, dev.setInfo c info)) (negative : ret < 0)
      (same : SameTransfer (dev.dmaInfo c) info) (state : info.state = (dev.dmaInfo c).state) :
      Executed env dev c req (dev.setInfo c info)
  | failed (obj : Nat) (mapInfo : TpceDmaMapInfo) (prep info info₂ : TpceDmaInfo)
      (table : AlteraPciePageTable) (dev₁ dev₂ dev' : TpceDev)
      (accepted : Initialized env dev c req obj mapInfo prep info dev₁)
      (start : (dmaDispatch env dev₁ c).1 ≠ 0) (started : Started dev₁ c table info₂ dev₂)
      (state : info₂.state = .initialized ∨ info₂.state = .error)
      (reset : resetDmaInfo dev₂ c = .ok dev') : Executed env dev c req dev'
  | running (obj : Nat) (mapInfo : TpceDmaMapInfo) (prep info info₂ : TpceDmaInfo)
      (table : AlteraPciePageTable) (dev₁ dev₂ : TpceDev)
      (accepted : Initialized env dev c req obj mapInfo prep info dev₁)
      (start : (dmaDispatch env dev₁ c).1 = 0) (started : Started dev₁ c table info₂ dev₂)
      (state : info₂.state = .running) : Executed env dev c req { dev₂ with
        waiting := if req.params.transferMode = tpceDmaModeStream then dev₂.waiting else some c }

theorem initialized_info {obj : ℕ} {m : TpceDmaMapInfo} {prep info : TpceDmaInfo}
    (hacc : Initialized env dev c req obj m prep info dev') : dev'.dmaInfo c = initializedInfo info req obj := by
  rw [hacc.result]
  exact setInfo_dmaInfo dev c _

theorem initialized_others {obj : ℕ} {m : TpceDmaMapInfo} {prep info : TpceDmaInfo} {c' : Channel}
    (hacc : Initialized env dev c req obj m prep info dev') (hc : c' ≠ c) : dev'.dmaInfo c' = dev.dmaInfo c' := by
  rw [hacc.result]
  exact setInfo_dmaInfo_ne dev _ hc

theorem initialized_state {obj : ℕ} {m : TpceDmaMapInfo} {prep info : TpceDmaInfo}
    (hacc : Initialized env dev c req obj m prep info dev') : (dev'.dmaInfo c).state = .initialized :=
  congrArg TpceDmaInfo.state (initialized_info hacc)

theorem initialized_params {obj : ℕ} {m : TpceDmaMapInfo} {prep info : TpceDmaInfo}
    (hacc : Initialized env dev c req obj m prep info dev') : (dev'.dmaInfo c).params = req.params :=
  congrArg TpceDmaInfo.params (initialized_info hacc)

theorem xaLoad_of_initialized {obj : ℕ} {m : TpceDmaMapInfo} {prep info : TpceDmaInfo}
    (hacc : Initialized env dev c req obj m prep info dev') : xaLoad dev req.id = some m := by
  simp only [xaLoad]
  rw [hacc.mapping]
  exact hacc.live

theorem dmaExecute_cases {out : Outcome} (hc : c.val = req.params.channel.toNat)
    (h : dmaExecute env dev req = .ok (out, dev')) : Executed env dev c req dev' := by
  simp only [dmaExecute] at h
  have hlt : req.params.channel.toNat < 3 := hc ▸ c.isLt
  obtain rfl : c = ⟨req.params.channel.toNat, hlt⟩ := Fin.ext hc
  rw [dif_pos hlt] at h
  obtain ⟨⟨err, dev₁⟩, hinit, h⟩ := bind_eq_ok.mp h
  dsimp only at h
  rcases initDmaInfo_cases hinit with ⟨hneg, info, ⟨hsame, hstate⟩, rfl⟩ | ⟨rfl, obj, mapInfo, prep, info, hacc⟩
  · rw [if_pos hneg] at h
    cases h
    exact .refused _ info hinit hneg hsame hstate
  · rw [if_neg (by simp)] at h
    have hstate₁ : dev₁.dmaInfo ⟨req.params.channel.toNat, hlt⟩ = initializedInfo info req obj := by
      rw [hacc.result]
      exact setInfo_dmaInfo ..
    cases hdisp : dmaDispatch env dev₁ ⟨req.params.channel.toNat, hlt⟩ with
    | mk ret dev₂ =>
        obtain ⟨table, info₂, hres, hsame, hsize, hend⟩ := dmaDispatch_spec (by rw [hstate₁]; rfl) hdisp
        have hdispatched : ∃ env, (dmaDispatch env dev₁ ⟨req.params.channel.toNat, hlt⟩).2 = dev₂ :=
          ⟨env, congrArg Prod.snd hdisp⟩
        simp only [hdisp] at h
        rcases hend with ⟨hneg, hst⟩ | ⟨rfl, hst⟩
        · rw [if_pos hneg] at h
          obtain ⟨dev₃, hreset, h⟩ := bind_eq_ok.mp h
          cases h
          exact .failed obj mapInfo prep info info₂ table dev₁ dev₂ _ hacc
            (by rw [hdisp]; exact Int.ne_of_lt hneg) ⟨hsame, hsize, hdispatched, hres⟩ hst hreset
        · rw [if_neg (by simp)] at h
          have hparams : (dev₂.dmaInfo ⟨req.params.channel.toNat, hlt⟩).params = req.params := by
            rw [hres, setInfo_dmaInfo, hsame.params, hstate₁]
            rfl
          have hrun := Executed.running obj mapInfo prep info info₂ table dev₁ dev₂ hacc
            (by rw [hdisp]) ⟨hsame, hsize, hdispatched, hres⟩ hst
          rw [hparams] at h
          split at h
          · rename_i hmode
            cases h
            rw [if_pos hmode] at hrun
            exact hrun
          · rename_i hmode
            cases h
            rw [if_neg hmode] at hrun
            exact hrun

/-- The calls that come with a request to `dma_execute` -/
def IsRequest (op : Op) : Prop :=
  (∃ file env req, op = .execute file env req) ∨ ∃ file env r, op = .kernelRead file env r

theorem isRequest_of_validated {op : Op} (h : validatedRequest dev op = some (env, req)) : IsRequest op := by
  cases op with
  | execute file env' req' => exact .inl ⟨file, env', req', rfl⟩
  | kernelRead file env' r => exact .inr ⟨file, env', r, rfl⟩
  | _ => cases h

theorem request_cases {out : Outcome} {op : Op} (hop : IsRequest op) (h : perform dev op = .ok (out, dev')) :
    ((dev.goingAway = true ∨ validatedRequest dev op = none) ∧ dev' = dev) ∨
      (dev.goingAway = false ∧ ∃ env req, validatedRequest dev op = some (env, req) ∧
        dmaExecute env dev req = .ok (out, dev')) := by
  have hfile : op.ioctlFile.isSome = true := by
    rcases hop with ⟨file, env, req, rfl⟩ | ⟨file, env, r, rfl⟩ <;> rfl
  simp only [perform] at h
  rw [hfile, Bool.true_and] at h
  split at h
  · rename_i haway
    cases h
    exact .inl ⟨.inl haway, rfl⟩
  · rename_i haway
    have haway : dev.goingAway = false := by simpa using haway
    rcases hop with ⟨file, env, req, rfl⟩ | ⟨file, env, r, rfl⟩
    · obtain ⟨err, heq⟩ := @execute_eq env dev file req
      simp only [heq] at h
      cases hv : validatedRequest dev (.execute file env req) with
      | none =>
          rw [hv] at h
          cases h
          exact .inl ⟨.inr rfl, rfl⟩
      | some r =>
          rw [hv] at h
          exact .inr ⟨haway, r.1, r.2, rfl, h⟩
    · obtain ⟨err, heq⟩ := @kernelRead_eq env dev file r
      simp only [heq] at h
      cases hv : validatedRequest dev (.kernelRead file env r) with
      | none =>
          rw [hv] at h
          cases h
          exact .inl ⟨.inr rfl, rfl⟩
      | some r =>
          rw [hv] at h
          exact .inr ⟨haway, r.1, r.2, rfl, h⟩

theorem unlockUserBuffer_spec {obj : Nat} (h : tpceDmaUnlockUserBuffer dev obj = .ok dev') :
    ∃ m, dev.mapInfos obj = some m ∧ dev' = { dev with
      dmaMappings := Function.update dev.dmaMappings m.id none
      mapInfos := Function.update dev.mapInfos obj none
      unmappedInUse := dev.unmappedInUse || inUse dev obj } := by
  obtain ⟨m, hm, h⟩ := bind_eq_ok.mp h
  cases h
  exact ⟨m, mapInfo_eq_ok.mp hm, rfl⟩

theorem safeDmaUnmap_cases {obj : Nat} (h : tpceSafeDmaUnmap dev obj = .ok dev') :
    ∃ m, dev.mapInfos obj = some m ∧
      ((mappingIsBusy m = false ∧ tpceDmaUnlockUserBuffer dev obj = .ok dev') ∨
        ∃ c dev₁, mappingIsBusy m = true ∧ channelOf m.activeChannel = .ok c ∧
          resetDmaInfo (tpceDmaAbort dev c) c = .ok dev₁ ∧
            tpceDmaUnlockUserBuffer dev₁ obj = .ok dev') := by
  obtain ⟨m, hm, h⟩ := bind_eq_ok.mp h
  obtain ⟨dev₁, hreset, h⟩ := bind_eq_ok.mp h
  refine ⟨m, mapInfo_eq_ok.mp hm, ?_⟩
  split at hreset
  · rename_i hbusy
    obtain ⟨c, hc, hreset⟩ := bind_eq_ok.mp hreset
    exact .inr ⟨c, dev₁, hbusy, hc, hreset, h⟩
  · rename_i hbusy
    cases hreset
    exact .inl ⟨by simpa using hbusy, h⟩

theorem resetDmaInfo_frame (h : resetDmaInfo dev c = .ok dev') :
    (dev'.dmaInfo c).state = .idle ∧ (∀ c', c' ≠ c → dev'.dmaInfo c' = dev.dmaInfo c') ∧
      dev'.waiting = dev.waiting := by
  rcases resetDmaInfo_spec h with ⟨hidle, rfl⟩ | ⟨-, -, rfl⟩
  · exact ⟨hidle, fun _ _ => rfl, rfl⟩
  · refine ⟨?_, fun c' hne => Function.update_of_ne hne .., rfl⟩
    simp [resetInfo]

theorem abort_frame (dev : TpceDev) (c : Channel) :
    (∀ c', c' ≠ c → (tpceDmaAbort dev c).dmaInfo c' = dev.dmaInfo c') ∧
      (tpceDmaAbort dev c).waiting = dev.waiting := by
  rw [abort_eq]
  exact ⟨fun c' hne => setInfo_dmaInfo_ne _ _ hne, rfl⟩

theorem cancel_cases {out : Outcome} {channel : U32} (h : iocDmaCancel dev channel = .ok (out, dev')) :
    dev' = dev ∨ ∃ c, resetDmaInfo (tpceDmaAbort dev c) c = .ok dev' := by
  simp only [iocDmaCancel] at h
  split at h
  · obtain ⟨dev₁, hreset, h⟩ := bind_eq_ok.mp h
    cases h
    exact .inr ⟨_, hreset⟩
  · cases h
    exact .inl rfl

theorem unlockBuffer_cases {out : Outcome} {file : Nat} {id : U32}
    (h : iocUnlockDmaBuffer dev file id = .ok (out, dev')) :
    dev' = dev ∨ ∃ obj, tpceSafeDmaUnmap (listDel dev file obj) obj = .ok dev' := by
  simp only [iocUnlockDmaBuffer] at h
  split at h
  · cases h
    exact .inl rfl
  · rename_i obj hobj
    obtain ⟨m, hm, h⟩ := bind_eq_ok.mp h
    split at h
    · cases h
      exact .inl rfl
    · obtain ⟨dev₁, hunmap, h⟩ := bind_eq_ok.mp h
      cases h
      exact .inr ⟨obj, hunmap⟩

theorem completion_cases (h : tpceDmaCompletion dev c = .ok dev') :
    dev' = dev ∨ ((dev.dmaInfo c).params.transferMode ≠ tpceDmaModeStream ∧
      (dev.dmaInfo c).state = .running ∧
      dev' = dev.setInfo c { dev.dmaInfo c with state := .complete }) := by
  simp only [tpceDmaCompletion] at h
  split at h
  · cases h
    exact .inl rfl
  · rename_i hmode
    split at h
    · rename_i hrun
      refine .inr ⟨hmode, hrun, ?_⟩
      split at h
      · split at h
        · obtain ⟨u, -, h⟩ := bind_eq_ok.mp h
          exact (Except.ok.inj h).symm
        · exact (Except.ok.inj h).symm
      · exact (Except.ok.inj h).symm
    · cases h
      exact .inl rfl

theorem lockUserBuffer_cases {p : MapPtr} {lockEnv : LockEnv} {bufferInfo : TpceDmaBufIn}
    (h : tpceDmaLockUserBuffer lockEnv dev bufferInfo = (p, dev')) :
    (dev' = dev ∧ ∀ obj, p ≠ .ptr obj) ∨ ∃ id, xaFreeId dev = some id ∧ p = .ptr dev.nextObj ∧
      dev' = { dev.setMapInfo dev.nextObj (lockedMapInfo lockEnv dev bufferInfo id) with
        dmaMappings := Function.update dev.dmaMappings id (some dev.nextObj)
        nextObj := dev.nextObj + 1 } := by
  simp only [tpceDmaLockUserBuffer] at h
  split_ifs at h
  case neg =>
      split at h
      · cases h
        exact .inl ⟨rfl, fun _ => MapPtr.noConfusion⟩
      · cases h
        exact .inl ⟨rfl, fun _ => MapPtr.noConfusion⟩
      · rename_i id hid _
        cases h
        exact .inr ⟨id, hid, rfl, rfl⟩
  all_goals
    cases h
    exact .inl ⟨rfl, fun _ => MapPtr.noConfusion⟩

theorem lockBuffer_cases {out : Outcome} {file : Nat} {lockEnv : LockEnv} {bufferInfo : TpceDmaBufIn}
    (h : iocLockDmaBuffer lockEnv dev file bufferInfo = .ok (out, dev')) :
    dev' = dev ∨ ∃ id, xaFreeId dev = some id ∧ dev' = { dev with
      mapInfos := Function.update dev.mapInfos dev.nextObj
        (some { lockedMapInfo lockEnv dev bufferInfo id with owner := some file })
      dmaMappings := Function.update dev.dmaMappings id (some dev.nextObj)
      nextObj := dev.nextObj + 1
      dmaMapSublist := Function.update dev.dmaMapSublist file
        (dev.dmaMapSublist file ++ [dev.nextObj]) } := by
  simp only [iocLockDmaBuffer] at h
  split at h
  · rename_i e dev₁ hlock
    cases h
    rcases lockUserBuffer_cases hlock with ⟨rfl, -⟩ | ⟨-, -, hp, -⟩
    · exact .inl rfl
    · cases hp
  · cases h
  · rename_i obj dev₁ hlock
    rcases lockUserBuffer_cases hlock with ⟨-, hp⟩ | ⟨id, hid, hp, rfl⟩
    · exact absurd rfl (hp obj)
    · cases hp
      obtain ⟨m, hm, h⟩ := bind_eq_ok.mp h
      cases h
      have hm := mapInfo_eq_ok.mp hm
      simp only [TpceDev.setMapInfo, Function.update_self, Option.some.injEq] at hm
      subst hm
      exact .inr ⟨id, hid, by simp [TpceDev.setMapInfo]⟩

/-- The counts of the stream page after one more reference -/
def referenced (stream : InternalDmaStreamInfo) : Nat :=
  if stream.state = none then 1 else refcountInc stream.stateRefs

theorem mmapStreamInfo_spec {vmallocOk : Bool} {info info' : TpceDmaInfo} {err : Int}
    (h : mmapStreamInfo vmallocOk info = (err, info')) :
    (err < 0 ∧ info' = info) ∨ (err = 0 ∧ info' = { info with streamInfo := info'.streamInfo } ∧
      info'.streamInfo.state ≠ none ∧ info'.streamInfo.stateRefs = referenced info.streamInfo) := by
  simp only [mmapStreamInfo] at h
  split at h
  · rcases initStreamInfo_spec h with hfail | ⟨rfl, hstate, hrefs, heq⟩
    · exact .inl hfail
    · exact .inr ⟨rfl, heq, by rw [hstate]; exact Option.some_ne_none _, hrefs⟩
  · rename_i s hsome
    cases h
    have hlive : info.streamInfo.state ≠ none := by
      rw [hsome]
      exact Option.some_ne_none s
    exact .inr ⟨rfl, rfl, hlive, (if_neg hlive).symm⟩

theorem mmap_cases {mmapEnv : MmapEnv} {out : Outcome} (h : tpceMmap mmapEnv dev c = (out, dev')) :
    dev' = dev ∨ dev' = { dev with mutexLeaked := true } ∨
      ∃ info, mmapStreamInfo mmapEnv.vmallocOk (dev.dmaInfo c) = (0, info) ∧
        (dev' = dev.setInfo c (tpceFreeStreamInfo info) ∨
          dev' = { dev.setInfo c info with vmas := Function.update dev.vmas c (dev.vmas c + 1) }) := by
  simp only [tpceMmap] at h
  split at h
  · cases h
    exact .inl rfl
  split at h
  · cases h
    exact .inr (.inl rfl)
  cases href : mmapStreamInfo mmapEnv.vmallocOk (dev.dmaInfo c) with
  | mk err info =>
      simp only [href] at h
      rcases mmapStreamInfo_spec href with ⟨hneg, rfl⟩ | ⟨rfl, -⟩
      · rw [if_pos (Int.ne_of_lt hneg)] at h
        cases h
        exact .inr (.inl (by rw [setInfo_self]))
      · rw [if_neg (by simp)] at h
        refine .inr (.inr ⟨info, rfl, ?_⟩)
        split at h
        · cases h
          exact .inl rfl
        · cases h
          exact .inr rfl

theorem xaFreeId_free {id : U32} (h : xaFreeId dev = some id) : dev.dmaMappings id = none := by
  simpa using List.find?_some h

end TpceDrv.RequestSteps
