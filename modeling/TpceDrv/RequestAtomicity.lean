import TpceDrv.SlotFrames
import TpceDrv.StreamRefs

namespace TpceDrv.RequestAtomicity

open Descriptor DmaParams DmaInfo Mapping PageTable PageTableMap Device ChannelControl ChannelSteps SlotFrames
open Requests Driver RequestSteps Effects Teardown StreamRefs Library

variable {env : InitEnv} {dev dev' dev₁ dev₂ dev₃ : TpceDev} {c c' : Channel} {req : TpceDmaRequest}
variable {info info₂ : TpceDmaInfo} {obj : ℕ} {m : TpceDmaMapInfo} {prep : TpceDmaInfo}

/-- How the wait for a default transfer passes: whether the work of its
interrupt runs meanwhile, and the end. -/
structure Wait where
  completion : Bool
  ending : WaitEnd

/-- `dma_execute` up to its return -/
def dmaExecuteToEnd (env : InitEnv) (wait : Wait) (dev : TpceDev) (req : TpceDmaRequest) :
    Except Fault (Outcome × TpceDev) := do
  let (out, dev) ← dmaExecute env dev req
  match out, dev.waiting with
  | .waits, some c => do
      let dev ← (if wait.completion then tpceDmaCompletion dev c else pure dev)
      finishWait dev c wait.ending
  | _, _ => pure (out, dev)

/-- An idle channel holds neither a mapping nor a slot. -/
structure CleanAt (dev : TpceDev) (c : Channel) : Prop where
  idle : (dev.dmaInfo c).state = .idle ↔ (dev.dmaInfo c).mapInfo = none
  untagged : (dev.dmaInfo c).state = .idle → ∀ i v, slots dev.pageTable i ≠ some (v, c.id)

def Clean (dev : TpceDev) : Prop := ∀ c, CleanAt dev c

theorem id_inj (h : c.id = c'.id) : c = c' := by
  revert c c'
  decide

theorem CleanAt.congr (h : CleanAt dev c)
    (hstate : (dev'.dmaInfo c).state = .idle ↔ (dev.dmaInfo c).state = .idle)
    (hmap : (dev'.dmaInfo c).mapInfo = (dev.dmaInfo c).mapInfo)
    (hslots : ∀ i v, slots dev'.pageTable i = some (v, c.id) ↔ slots dev.pageTable i = some (v, c.id)) :
    CleanAt dev' c := by
  refine ⟨?_, fun hidle i v hslot => ?_⟩
  · rw [hstate, hmap]
    exact h.idle
  · exact h.untagged (hstate.mp hidle) i v ((hslots i v).mp hslot)

theorem Clean.elsewhere (h : Clean dev) (hinfo : dev'.dmaInfo = dev.dmaInfo)
    (htable : dev'.pageTable = dev.pageTable) : Clean dev' := by
  intro c
  apply (h c).congr
  · rw [hinfo]
  · rw [hinfo]
  · rw [htable]
    exact fun _ _ => Iff.rfl

theorem Clean.update (h : Clean dev) (c : Channel) (hothers : ∀ c', c' ≠ c → dev'.dmaInfo c' = dev.dmaInfo c')
    (hslots : SameOthers c.id dev.pageTable dev'.pageTable) (hself : CleanAt dev' c) : Clean dev' := by
  intro c'
  by_cases hc : c' = c
  · subst hc
    exact hself
  · apply (h c').congr
    · rw [hothers c' hc]
    · rw [hothers c' hc]
    · exact fun i v => hslots i v c'.id fun hid => hc (id_inj hid)

theorem Clean.setInfo (h : Clean dev) (c : Channel) (info : TpceDmaInfo)
    (hstate : info.state = .idle ↔ (dev.dmaInfo c).state = .idle)
    (hmap : info.mapInfo = (dev.dmaInfo c).mapInfo) : Clean (dev.setInfo c info) := by
  apply h.update c (fun c' hc => setInfo_dmaInfo_ne dev info hc) (.refl c.id dev.pageTable)
  apply (h c).congr
  · rw [setInfo_dmaInfo]
    exact hstate
  · rw [setInfo_dmaInfo]
    exact hmap
  · exact fun _ _ => Iff.rfl

theorem Clean.abort (h : Clean dev) (c : Channel) : Clean (tpceDmaAbort dev c) := by
  have habort := h.setInfo c { dev.dmaInfo c with state := abortedState (dev.dmaInfo c).state } abortedState_idle rfl
  rw [abort_eq]
  exact habort.elsewhere rfl rfl

theorem cleared_of_reset (hreset : resetDmaInfo dev c = .ok dev') (hbusy : (dev.dmaInfo c).state ≠ .idle) :
    (dev'.dmaInfo c).state = .idle ∧ (dev'.dmaInfo c).mapInfo = none ∧
      (∀ i v, slots dev'.pageTable i ≠ some (v, c.id)) ∧ SameOthers c.id dev.pageTable dev'.pageTable ∧
      (dev'.dmaInfo c).streamInfo = (resetInfo (dev.dmaInfo c)).streamInfo := by
  obtain ⟨hidle, -⟩ | ⟨-, -, rfl⟩ := resetDmaInfo_spec hreset
  · exact absurd hidle hbusy
  have hinfo : Function.update dev.dmaInfo c (resetInfo (dev.dmaInfo c)) c = resetInfo (dev.dmaInfo c) :=
    Function.update_self ..
  refine ⟨?_, ?_, fun i v hslot => ?_, sameOthers_free dev.pageTable c.id_ne_uint8Max, ?_⟩
  · dsimp only
    rw [hinfo]
    rfl
  · dsimp only
    rw [hinfo]
    rfl
  · dsimp only at hslot
    rw [slots_freeByChannelId _ c.id_ne_uint8Max, Option.filter_eq_some_iff] at hslot
    exact of_decide_eq_true hslot.2 rfl
  · dsimp only
    rw [hinfo]

theorem Clean.reset (h : Clean dev) (hreset : resetDmaInfo dev c = .ok dev') : Clean dev' := by
  by_cases hidle : (dev.dmaInfo c).state = .idle
  · obtain ⟨-, rfl⟩ | ⟨hbusy, -⟩ := resetDmaInfo_spec hreset
    · exact h
    · exact absurd hidle hbusy
  · obtain ⟨hstate, hmap, huntagged, hothers, -⟩ := cleared_of_reset hreset hidle
    exact h.update c (resetDmaInfo_frame hreset).2.1 hothers ⟨iff_of_true hstate hmap, fun _ => huntagged⟩

theorem clean_of_tearsDown (hdown : TearsDown dev dev') (h : Clean dev) : Clean dev' := by
  cases hdown with
  | reset c _ hreset => exact h.reset hreset
  | cancel c _ hreset => exact (h.abort c).reset hreset
  | elsewhere _ hsame => exact h.elsewhere hsame.dmaInfo hsame.pageTable
  | buffers c idle => exact h.setInfo c _ Iff.rfl rfl

theorem clean_of_tornDown (hdown : TornDown dev dev') (h : Clean dev) : Clean dev' :=
  hdown.keeps h fun _ _ => clean_of_tearsDown

theorem channel_id (hc : c.val = req.params.channel.toNat) : req.params.channel = c.id := by
  apply BitVec.eq_of_toNat_eq
  have hlt := c.isLt
  rw [← hc, Channel.id, BitVec.toNat_ofNat, Nat.mod_eq_of_lt (by omega)]

theorem Started.slots (hc : c.val = req.params.channel.toNat)
    (hacc : Initialized env dev c req obj m prep info dev₁) {table : AlteraPciePageTable}
    (hs : Started dev₁ c table info₂ dev₂) : SameOthers c.id dev.pageTable dev₂.pageTable := by
  have hparams := initialized_params hacc
  have hchannel : (dev₁.dmaInfo c).params.channel = c.id := by rw [hparams, channel_id hc]
  obtain ⟨env', hdispatch⟩ := hs.dispatched
  have hothers := sameOthers_dispatch env' dev₁ c (by rw [hchannel]; exact c.id_ne_uint8Max)
  have htable : dev₁.pageTable = dev.pageTable := by rw [hacc.result]; rfl
  rw [hdispatch, hchannel, htable] at hothers
  exact hothers

theorem Clean.started (h : Clean dev) (hc : c.val = req.params.channel.toNat)
    (hacc : Initialized env dev c req obj m prep info dev₁) {table : AlteraPciePageTable}
    (hs : Started dev₁ c table info₂ dev₂) (hbusy : info₂.state ≠ .idle) : Clean dev₂ := by
  have hslots := Started.slots hc hacc hs
  have hinfo : dev₂.dmaInfo c = info₂ := by rw [hs.result, setInfo_dmaInfo]
  refine h.update c (fun c' hne => ?_) hslots ⟨?_, fun hidle => absurd (hinfo ▸ hidle) hbusy⟩
  · have hothers := initialized_others hacc hne
    rw [hs.result]
    exact (setInfo_dmaInfo_ne _ _ hne).trans hothers
  · rw [hinfo, hs.same.mapInfo, initialized_info hacc]
    exact iff_of_false hbusy (Option.some_ne_none obj)

theorem Clean.execute (h : Clean dev) (hc : c.val = req.params.channel.toNat)
    (hexec : Executed env dev c req dev') : Clean dev' := by
  cases hexec with
  | refused ret info refusal negative same state => exact h.setInfo c info (by rw [state]) same.mapInfo
  | failed obj m prep info info₂ table dev₁ dev₂ _ accepted start started state reset =>
      apply (h.started hc accepted started ?_).reset reset
      rcases state with hst | hst
      · simp [hst]
      · simp [hst]
  | running obj m prep info info₂ table dev₁ dev₂ accepted start started state =>
      exact (h.started hc accepted started (by simp [state])).elsewhere rfl rfl

theorem Clean.stream (h : Clean dev) (c : Channel) (info : TpceDmaInfo)
    (hinfo : info = { dev.dmaInfo c with streamInfo := info.streamInfo }) : Clean (dev.setInfo c info) := by
  apply h.setInfo c
  · rw [hinfo]
  · rw [hinfo]

theorem step_clean {op : Op} (h : Clean dev) (hstep : step dev op = some dev') : Clean dev' := by
  cases step_effect hstep with
  | nothing => exact h
  | opened => exact h.elsewhere rfl rfl
  | locked file lockEnv bufferInfo id free => exact h.elsewhere rfl rfl
  | unlocked file id obj _ unmap => exact clean_of_tornDown (tornDown_unlisted unmap) h
  | executed _ env req fileCtx c m _ present mutex validated valid execute => exact h.execute valid.channel execute
  | cancelled file channel c _ reset => exact (h.abort c).reset reset
  | woken w c _ waiting reset =>
      have hwoken : Clean { dev with waiting := none } := h.elsewhere rfl rfl
      exact hwoken.reset reset
  | completed c mode running =>
      refine h.setInfo c _ (iff_of_false TpceDmaChannelState.noConfusion ?_) rfl
      rw [running]
      exact TpceDmaChannelState.noConfusion
  | released file dev₁ release => exact (clean_of_tornDown (tornDown_release release) h).elsewhere rfl rfl
  | leaked file env c => exact h.elsewhere rfl rfl
  | returned file env c info stream =>
      obtain ⟨-, hinfo, -⟩ := (mmapStreamInfo_spec stream).resolve_left fun h => absurd h.1 (by decide)
      apply h.stream c
      rw [hinfo]
      rfl
  | mapped file env c info stream =>
      obtain ⟨-, hinfo, -⟩ := (mmapStreamInfo_spec stream).resolve_left fun h => absurd h.1 (by decide)
      exact (h.stream c info hinfo).elsewhere rfl rfl
  | vmaOpened c area => exact (h.stream c (incStreamRefs (dev.dmaInfo c)) rfl).elsewhere rfl rfl
  | vmaClosed c area => exact (h.stream c (tpceFreeStreamInfo (dev.dmaInfo c)) rfl).elsewhere rfl rfl
  | wentAway => exact h.elsewhere rfl rfl
  | removed out _ remove => exact clean_of_tornDown (tornDown_remove remove) h

theorem clean_init (sgt : SgTable) : Clean (TpceDev.init sgt) := by
  refine fun c => ⟨iff_of_true rfl rfl, fun _ i v => ?_⟩
  have hempty : slots AlteraPciePageTable.empty i = none := by
    revert i
    decide
  exact fun hslot => Option.some_ne_none _ (hslot.symm.trans hempty)

/-- `refs'` are `n` references more than `refs`. -/
def Exactly (n refs refs' : ℕ) : Prop := refs' = refs + n

/-- The same, unless the count saturates -/
def UnlessSaturated (n refs refs' : ℕ) : Prop := Exactly n refs refs' ∨ (2 ^ 31 - 1 ≤ refs ∧ refs' = refcountSaturated)

/-- Nothing of the request is left. -/
structure RolledBack (counted : ℕ → ℕ → ℕ → Prop) (dev dev' : TpceDev) (c : Channel) : Prop where
  idle : (dev'.dmaInfo c).state = .idle
  unmapped : (dev'.dmaInfo c).mapInfo = none
  untagged : ∀ i v, slots dev'.pageTable i ≠ some (v, c.id)
  others : SameOthers c.id dev.pageTable dev'.pageTable
  refs : counted 0 (dev.dmaInfo c).streamInfo.stateRefs (dev'.dmaInfo c).streamInfo.stateRefs

structure StreamStarted (counted : ℕ → ℕ → ℕ → Prop) (dev dev' : TpceDev) (c : Channel) : Prop where
  running : (dev'.dmaInfo c).state = .running
  refs : counted 1 (dev.dmaInfo c).streamInfo.stateRefs (dev'.dmaInfo c).streamInfo.stateRefs

/-- Whatever request is executed and however it ends: only the success of a
stream leaves something behind. -/
def RequestsAtomic (counted : ℕ → ℕ → ℕ → Prop) (dev : TpceDev) : Prop :=
  ∀ env wait req fileCtx (c : Channel) out dev', c.val = req.params.channel.toNat →
    validateDmaRequest dev req fileCtx = 0 → dmaExecuteToEnd env wait dev req = .ok (out, dev') →
      ∃ ret, out = .returned ret ∧
        if ret = 0 ∧ req.params.transferMode = tpceDmaModeStream then StreamStarted counted dev dev' c
        else RolledBack counted dev dev' c

/-- A channel is idle exactly while it has no mapping, and every request is all
or nothing. -/
def Lifecycle (counted : ℕ → ℕ → ℕ → Prop) (dev : TpceDev) : Prop :=
  (∀ c, (dev.dmaInfo c).state = .idle ↔ (dev.dmaInfo c).mapInfo = none) ∧ RequestsAtomic counted dev

theorem referenced_counted {few : Prop} {n : ℕ} {stream : InternalDmaStreamInfo} (h : RefsOn few n stream) :
    UnlessSaturated 1 stream.stateRefs (referenced stream) := by
  rw [referenced]
  split
  · rename_i hnone
    exact .inl (by rw [Exactly, h.live.mp hnone])
  · rename_i hsome
    have hpos : stream.stateRefs ≠ 0 := mt h.live.mpr hsome
    rw [refcountInc]
    split
    · rename_i hmany
      exact .inr ⟨hmany.resolve_left hpos, rfl⟩
    · exact .inl rfl

theorem UnlessSaturated.dec {refs refs' : ℕ} (h : UnlessSaturated 1 refs refs') :
    UnlessSaturated 0 refs (refcountDecAndTest refs').1 := by
  rw [refcountDecAndTest]
  rcases h with hexact | ⟨hmany, rfl⟩
  · rw [Exactly] at hexact
    split
    · exact .inr ⟨by omega, rfl⟩
    · exact .inl (by rw [Exactly]; dsimp only; omega)
  · rw [if_pos (.inr (by decide))]
    exact .inr ⟨hmany, rfl⟩

theorem Started.refs {few : Prop} {n : ℕ} (hrefs : RefsOn few n (dev.dmaInfo c).streamInfo)
    (hacc : Initialized env dev c req obj m prep info dev₁) {table : AlteraPciePageTable}
    (hs : Started dev₁ c table info₂ dev₂) :
    (dev₂.dmaInfo c).params = req.params ∧
      UnlessSaturated (if req.params.transferMode = tpceDmaModeStream then 1 else 0)
        (dev.dmaInfo c).streamInfo.stateRefs (dev₂.dmaInfo c).streamInfo.stateRefs := by
  have hinfo : dev₂.dmaInfo c = info₂ := by rw [hs.result, setInfo_dmaInfo]
  rw [hinfo, hs.same.params, hs.same.streamInfo, initialized_info hacc]
  refine ⟨rfl, ?_⟩
  split
  · rename_i hmode
    obtain ⟨hneg, -⟩ | ⟨-, -, hcount, -⟩ := initStreamInfo_spec (hacc.stream hmode)
    · omega
    have hcounted := referenced_counted hrefs
    rw [hacc.same.streamInfo] at hcount
    rw [referenced, ← hcount] at hcounted
    exact hcounted
  · rename_i hmode
    have hstream : info.streamInfo = (dev.dmaInfo c).streamInfo := by
      rw [hacc.plain hmode]
      exact hacc.same.streamInfo
    exact .inl (congrArg InternalDmaStreamInfo.stateRefs hstream)

theorem rolledBack_of_reset {few : Prop} {n : ℕ} (hc : c.val = req.params.channel.toNat)
    (hrefs : RefsOn few n (dev.dmaInfo c).streamInfo)
    (hacc : Initialized env dev c req obj m prep info dev₁) {table : AlteraPciePageTable}
    (hs : Started dev₁ c table info₂ dev₂)
    (hslots : dev₃.pageTable = dev₂.pageTable) (hparams : (dev₃.dmaInfo c).params = (dev₂.dmaInfo c).params)
    (hstream : (dev₃.dmaInfo c).streamInfo = (dev₂.dmaInfo c).streamInfo) (hbusy' : (dev₃.dmaInfo c).state ≠ .idle)
    (hreset : resetDmaInfo dev₃ c = .ok dev') : RolledBack UnlessSaturated dev dev' c := by
  obtain ⟨hidle, hmap, huntagged, hothers, hfreed⟩ := cleared_of_reset hreset hbusy'
  obtain ⟨hreq, hcounted⟩ := Started.refs hrefs hacc hs
  rw [hslots] at hothers
  refine ⟨hidle, hmap, huntagged, (Started.slots hc hacc hs).trans hothers, ?_⟩
  rw [hfreed, resetInfo, hparams, hreq]
  split
  · rename_i hmode
    rw [if_pos hmode] at hcounted
    have hdec := hcounted.dec
    rw [← hstream] at hdec
    exact hdec
  · rename_i hmode
    rw [if_neg hmode, ← hstream] at hcounted
    exact hcounted

/-- What `dma_execute` returns in front of the wait, and the state of the
channel then -/
theorem dmaExecute_outcome {out : Outcome} (hc : c.val = req.params.channel.toNat)
    (hidle : (dev.dmaInfo c).state = .idle) (h : dmaExecute env dev req = .ok (out, dev')) :
    (∃ ret, ret < 0 ∧ out = .returned ret ∧ (dev'.dmaInfo c).state = .idle) ∨
      ((dev'.dmaInfo c).state = .running ∧
        ((req.params.transferMode = tpceDmaModeStream ∧ out = .returned 0) ∨
          (req.params.transferMode ≠ tpceDmaModeStream ∧ out = .waits ∧ dev'.waiting = some c))) := by
  simp only [dmaExecute] at h
  have hlt : req.params.channel.toNat < 3 := hc ▸ c.isLt
  obtain rfl : c = ⟨req.params.channel.toNat, hlt⟩ := Fin.ext hc
  rw [dif_pos hlt] at h
  obtain ⟨⟨err, dev₁⟩, hinit, h⟩ := bind_eq_ok.mp h
  dsimp only at h
  rcases initDmaInfo_cases hinit with ⟨hneg, info, ⟨-, hstate⟩, rfl⟩ | ⟨rfl, obj, m, prep, info, hacc⟩
  · rw [if_pos hneg] at h
    cases h
    refine .inl ⟨err, hneg, rfl, ?_⟩
    rw [setInfo_dmaInfo]
    exact hstate.trans hidle
  rw [if_neg (by simp)] at h
  cases hdisp : dmaDispatch env dev₁ ⟨req.params.channel.toNat, hlt⟩ with
  | mk ret dev₂ =>
      obtain ⟨table, info₂, hres, hsame, -, hend⟩ := dmaDispatch_spec (initialized_state hacc) hdisp
      have hinfo : dev₂.dmaInfo ⟨req.params.channel.toNat, hlt⟩ = info₂ := by rw [hres, setInfo_dmaInfo]
      have hparams : (dev₂.dmaInfo ⟨req.params.channel.toNat, hlt⟩).params = req.params := by
        rw [hinfo]
        exact hsame.params.trans (initialized_params hacc)
      simp only [hdisp] at h
      rcases hend with ⟨hneg, hst⟩ | ⟨rfl, hst⟩
      · rw [if_pos hneg] at h
        obtain ⟨dev₃, hreset, h⟩ := bind_eq_ok.mp h
        cases h
        exact .inl ⟨ret, hneg, rfl, (resetDmaInfo_frame hreset).1⟩
      · rw [if_neg (by simp), hparams] at h
        split at h
        · rename_i hmode
          cases h
          exact .inr ⟨hinfo ▸ hst, .inl ⟨hmode, rfl⟩⟩
        · rename_i hmode
          cases h
          exact .inr ⟨hinfo ▸ hst, .inr ⟨hmode, rfl, rfl⟩⟩

/-- A request that leaves its channel running has been accepted and started. -/
theorem started_of_running (hidle : (dev.dmaInfo c).state = .idle) (hexec : Executed env dev c req dev')
    (hrun : (dev'.dmaInfo c).state = .running) :
    ∃ obj m prep info info₂ table dev₁ dev₂, Initialized env dev c req obj m prep info dev₁ ∧
      (dmaDispatch env dev₁ c).1 = 0 ∧ Started dev₁ c table info₂ dev₂ ∧ dev'.pageTable = dev₂.pageTable ∧
        dev'.dmaInfo = dev₂.dmaInfo := by
  cases hexec with
  | refused ret info refusal negative same state =>
      rw [setInfo_dmaInfo, state, hidle] at hrun
      cases hrun
  | failed obj m prep info info₂ table dev₁ dev₂ _ accepted start started state reset =>
      rw [(resetDmaInfo_frame reset).1] at hrun
      cases hrun
  | running obj m prep info info₂ table dev₁ dev₂ accepted start started state =>
      exact ⟨obj, m, prep, info, info₂, table, dev₁, dev₂, accepted, start, started, rfl, rfl⟩

theorem rolledBack_of_idle {few : Prop} {n : ℕ} (hc : c.val = req.params.channel.toNat) (hclean : CleanAt dev c)
    (hrefs : RefsOn few n (dev.dmaInfo c).streamInfo) (hidle : (dev.dmaInfo c).state = .idle)
    (hexec : Executed env dev c req dev') (hend : (dev'.dmaInfo c).state = .idle) :
    RolledBack UnlessSaturated dev dev' c := by
  cases hexec with
  | refused ret info refusal negative same state =>
      refine ⟨hend, ?_, hclean.untagged hidle, .refl c.id dev.pageTable, .inl ?_⟩
      · rw [setInfo_dmaInfo, same.mapInfo]
        exact hclean.idle.mp hidle
      · rw [setInfo_dmaInfo, same.streamInfo]
        rfl
  | failed obj m prep info info₂ table dev₁ dev₂ _ accepted start started state reset =>
      have hinfo : dev₂.dmaInfo c = info₂ := by rw [started.result, setInfo_dmaInfo]
      refine rolledBack_of_reset hc hrefs accepted started rfl rfl rfl ?_ reset
      rw [hinfo]
      rcases state with hst | hst
      · simp [hst]
      · simp [hst]
  | running obj m prep info info₂ table dev₁ dev₂ accepted start started state =>
      have hinfo : dev₂.dmaInfo c = info₂ := by rw [started.result, setInfo_dmaInfo]
      have hrun : (dev₂.dmaInfo c).state = .running := hinfo ▸ state
      cases hrun.symm.trans hend

theorem wait_cases {wait : Wait} {out : Outcome} (hrun : (dev.dmaInfo c).state = .running)
    (h : (do
      let dev ← (if wait.completion then tpceDmaCompletion dev c else pure dev)
      finishWait dev c wait.ending) = .ok (out, dev')) :
    out = .returned wait.ending.status ∧ ∃ dev₃, resetDmaInfo dev₃ c = .ok dev' ∧
      dev₃.pageTable = dev.pageTable ∧ (dev₃.dmaInfo c).params = (dev.dmaInfo c).params ∧
        (dev₃.dmaInfo c).streamInfo = (dev.dmaInfo c).streamInfo ∧ (dev₃.dmaInfo c).state ≠ .idle := by
  obtain ⟨dev₂, hwork, h⟩ := bind_eq_ok.mp h
  obtain ⟨dev₃, hreset, h⟩ := bind_eq_ok.mp h
  cases h
  refine ⟨rfl, { dev₂ with waiting := none }, hreset, ?_⟩
  split at hwork
  · rcases completion_cases hwork with rfl | ⟨-, -, rfl⟩
    · exact ⟨rfl, rfl, rfl, by simp [hrun]⟩
    · exact ⟨rfl, by simp, by simp, by simp⟩
  · cases hwork
    exact ⟨rfl, rfl, rfl, by simp [hrun]⟩

theorem requestsAtomic {few : Prop} (hclean : Clean dev) (hrefs : Referenced few dev) :
    RequestsAtomic UnlessSaturated dev := by
  intro env wait req fileCtx c out dev' hc hval h
  obtain ⟨c', m, hvalid⟩ := validateDmaRequest_valid hval
  obtain rfl : c' = c := Fin.ext (hvalid.channel.trans hc.symm)
  obtain ⟨⟨out₁, dev₁⟩, hexecute, h⟩ := bind_eq_ok.mp h
  have hexec := dmaExecute_cases hc hexecute
  rcases dmaExecute_outcome hc hvalid.idle hexecute with
    ⟨ret, hneg, rfl, hidle⟩ | ⟨hrun, ⟨hmode, rfl⟩ | ⟨hmode, rfl, hwait⟩⟩
  · cases h
    refine ⟨ret, rfl, ?_⟩
    rw [if_neg fun hok => by omega]
    exact rolledBack_of_idle hc (hclean c') (hrefs c') hvalid.idle hexec hidle
  · cases h
    obtain ⟨obj, m', prep, info, info₂, table, dev₂, dev₃, hacc, -, hs, -, hinfo⟩ :=
      started_of_running hvalid.idle hexec hrun
    have hcounted := (Started.refs (hrefs c') hacc hs).2
    rw [if_pos hmode, ← hinfo] at hcounted
    exact ⟨0, rfl, by rw [if_pos ⟨rfl, hmode⟩]; exact ⟨hrun, hcounted⟩⟩
  · obtain ⟨obj, m', prep, info, info₂, table, dev₂, dev₃, hacc, -, hs, htable, hinfo⟩ :=
      started_of_running hvalid.idle hexec hrun
    simp only [hwait] at h
    obtain ⟨rfl, dev₄, hreset, hslots, hparams, hstream, hbusy⟩ := wait_cases hrun h
    rw [hinfo] at hparams hstream
    refine ⟨_, rfl, ?_⟩
    rw [if_neg fun hok => hmode hok.2]
    exact rolledBack_of_reset hc (hrefs c') hacc hs (hslots.trans htable) hparams hstream hbusy hreset

theorem requests_atomic (sgt : SgTable) (ops : List Op) :
    Runs.Always step (Lifecycle UnlessSaturated) (TpceDev.init sgt) ops := by
  have halways : Runs.Always step (fun dev => Clean dev ∧ Referenced False dev) (TpceDev.init sgt) ops :=
    Runs.always_of_step
      (fun _ _ _ h hstep => ⟨step_clean h.1 hstep, step_referenced h.2 (fun hf => hf.elim) hstep⟩)
      ⟨clean_init sgt, referenced_init sgt False⟩ ops
  exact halways.mono fun _ h => ⟨fun c => (h.1 c).idle, requestsAtomic h.1 h.2⟩

def streamFromDevice : TpceDmaRequest where
  id := 1
  params := ⟨0, 0, 4096, 0, 0, 0, 0, tpceDmaModeStream, tpceDmaFromDevice, 0, 0⟩
  descriptors := 0
  descriptorsSize := 0
  descriptorsType := 0

theorem stream_saturates {m : ℕ} (hm : m = 2 ^ 31 - 2) :
    ¬Runs.Always step (Lifecycle Exactly) freshDevice (duplications 0 m) := by
  intro h
  obtain ⟨-, hatomic⟩ := Runs.always_iff_prefix.mp h _ [] (List.append_nil _).symm _ (run_duplications (by omega))
  have hone : 1 + m = 2147483647 ∧ m + 1 = 2147483647 := by omega
  rw [hone.1, hone.2] at hatomic
  have hexec : (dmaExecuteToEnd .granted ⟨false, .completed⟩ (withAreas (mappedDevice 0) 0 2147483647 2147483647)
      streamFromDevice).toOption.map (fun r => (r.1, (r.2.dmaInfo 0).streamInfo.stateRefs)) =
        some (.returned 0, refcountSaturated) := by
    decide +kernel
  obtain ⟨⟨out, dev'⟩, hrun, heq⟩ := Option.map_eq_some_iff.mp hexec
  obtain ⟨rfl, hsaturated⟩ := Prod.mk.inj heq
  obtain ⟨ret, hret, hstarted⟩ := hatomic .granted ⟨false, .completed⟩ streamFromDevice none 0 _ dev' rfl
    (by decide +kernel) (toOption_eq_some.mp hrun)
  cases hret
  rw [if_pos ⟨rfl, rfl⟩] at hstarted
  have hrefs := hstarted.refs
  rw [hsaturated] at hrefs
  have hrefs : refcountSaturated = 2147483647 + 1 := hrefs
  exact absurd hrefs (by decide)

/-- With 2^31 - 1 areas on its stream page the start of a stream saturates the
count. -/
theorem stream_behind_many_areas :
    ¬Runs.Always step (Lifecycle Exactly) freshDevice (duplications 0 (2 ^ 31 - 2)) :=
  stream_saturates rfl

end TpceDrv.RequestAtomicity
