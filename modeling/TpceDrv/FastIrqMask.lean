import TpceDrv.PageTableFaults
import TpceDrv.StreamRefs
import TpceDrv.StreamStarts
import TpceDrv.Library.BitMask

namespace TpceDrv.FastIrqMask

open Descriptor DmaParams DmaInfo Mapping Device Translation Planning ChannelControl ChannelSteps
open Requests Driver RequestSteps Effects Teardown StreamRefs StreamStarts ActiveDescriptors Library

variable {env : InitEnv} {dev dev' : TpceDev} {c : Channel} {req : TpceDmaRequest}
variable {info info' : TpceDmaInfo} {masked : Bool}

/-- A channel whose interrupt goes to the stream handler runs a stream, with a
live state and at least one descriptor. -/
def MaskSound (dev : TpceDev) : Prop :=
  ∀ c, streamIrq dev.fastIrqMask c = true →
    (dev.dmaInfo c).params.transferMode = tpceDmaModeStream ∧ (dev.dmaInfo c).state = .running ∧
      (dev.dmaInfo c).streamInfo.state ≠ none ∧ descriptorSize ≤ (dev.dmaInfo c).descSize

def irqBit : Channel → ℕ
  | 0 => 0
  | 1 => 8
  | 2 => 10

theorem irqBit_lt (c : Channel) : irqBit c < 32 := by
  revert c
  decide

theorem irqBit_inj (c c' : Channel) : irqBit c = irqBit c' ↔ c = c' := by
  revert c c'
  decide

theorem tpceIrqDma_eq (c : Channel) : tpceIrqDma c = 1#32 <<< irqBit c := by
  revert c
  decide

theorem streamIrq_eq (mask : U32) (c : Channel) : streamIrq mask c = mask.getLsbD (irqBit c) := by
  rw [Bool.eq_iff_iff, streamIrq, decide_eq_true_iff, tpceIrqDma_eq]
  exact BitMask.and_one_shiftLeft_ne_zero mask (irqBit c)

theorem streamIrq_set (mask : U32) (c c' : Channel) :
    streamIrq (mask ||| tpceIrqDma c) c' = (streamIrq mask c' || decide (c' = c)) := by
  rw [streamIrq_eq, streamIrq_eq, tpceIrqDma_eq, BitMask.getLsbD_or_one_shiftLeft _ (irqBit_lt c')]
  simp only [irqBit_inj]

theorem streamIrq_clear (mask : U32) (c c' : Channel) :
    streamIrq (mask &&& ~~~tpceIrqDma c) c' = (streamIrq mask c' && !decide (c' = c)) := by
  rw [streamIrq_eq, streamIrq_eq, tpceIrqDma_eq, BitMask.getLsbD_andNot_one_shiftLeft _ (irqBit_lt c')]
  simp only [irqBit_inj]

/-- One channel, with its bit of the mask -/
def StreamAt (masked : Bool) (info : TpceDmaInfo) : Prop :=
  masked = true → info.params.transferMode = tpceDmaModeStream ∧ info.state = .running ∧
    descriptorSize ≤ info.descSize

def Masked (dev : TpceDev) : Prop := ∀ c, StreamAt (streamIrq dev.fastIrqMask c) (dev.dmaInfo c)

/-- A stream holds a reference, so that its state is live. -/
theorem Masked.sound (h : Masked dev) (hrefs : Referenced False dev) : MaskSound dev := by
  intro c hmask
  obtain ⟨hmode, hrun, hsize⟩ := h c hmask
  have href : streamRef (dev.dmaInfo c) = 1 := if_pos ⟨hmode, by rw [hrun]; decide⟩
  have hpos := (hrefs c).pos (by rw [holders, href]; exact Nat.succ_ne_zero _)
  exact ⟨hmode, hrun, mt (hrefs c).live.mp hpos, hsize⟩

theorem StreamAt.congr (h : StreamAt masked info) (hparams : info'.params = info.params)
    (hstate : info'.state = info.state) (hsize : info.state = .running → info'.descSize = info.descSize) :
    StreamAt masked info' := by
  intro hm
  obtain ⟨hmode, hrun, hle⟩ := h hm
  rw [hparams, hstate, hsize hrun]
  exact ⟨hmode, hrun, hle⟩

theorem StreamAt.unmasked (h : StreamAt masked info) (hstate : info.state ≠ .running) : masked = false :=
  Bool.eq_false_iff.mpr fun hm => hstate (h hm).2.1

theorem streamAt_of_unmasked (h : masked = false) : StreamAt masked info :=
  fun hm => absurd (h.symm.trans hm) Bool.false_ne_true

theorem Masked.update (h : Masked dev) (c : Channel)
    (hothers : ∀ c', c' ≠ c → dev'.dmaInfo c' = dev.dmaInfo c' ∧
      streamIrq dev'.fastIrqMask c' = streamIrq dev.fastIrqMask c')
    (hself : StreamAt (streamIrq dev'.fastIrqMask c) (dev'.dmaInfo c)) : Masked dev' := by
  intro c'
  by_cases hc : c' = c
  · subst hc
    exact hself
  · obtain ⟨hinfo, hmask⟩ := hothers c' hc
    rw [hinfo, hmask]
    exact h c'

theorem Masked.congr (h : Masked dev) (hinfo : dev'.dmaInfo = dev.dmaInfo)
    (hmask : dev'.fastIrqMask = dev.fastIrqMask) : Masked dev' := by
  intro c
  rw [hinfo, hmask]
  exact h c

theorem Masked.setInfo (h : Masked dev) (c : Channel) (info : TpceDmaInfo)
    (hself : StreamAt (streamIrq dev.fastIrqMask c) info) : Masked (dev.setInfo c info) := by
  apply h.update c fun c' hc => ⟨setInfo_dmaInfo_ne dev info hc, rfl⟩
  rw [setInfo_dmaInfo]
  exact hself

theorem Masked.stream (h : Masked dev) (c : Channel) (info : TpceDmaInfo)
    (hinfo : info = { dev.dmaInfo c with streamInfo := info.streamInfo }) : Masked (dev.setInfo c info) := by
  apply h.setInfo c _
  rw [hinfo]
  exact h c

theorem streamIrq_clear_ne (mask : U32) {c c' : Channel} (h : c' ≠ c) :
    streamIrq (mask &&& ~~~tpceIrqDma c) c' = streamIrq mask c' := by
  rw [streamIrq_clear, decide_eq_false h, Bool.not_false, Bool.and_true]

theorem streamIrq_clear_self (mask : U32) (c : Channel) :
    streamIrq (mask &&& ~~~tpceIrqDma c) c = false := by
  rw [streamIrq_clear, decide_eq_true rfl, Bool.not_true, Bool.and_false]

theorem Masked.abort (h : Masked dev) (c : Channel) : Masked (tpceDmaAbort dev c) := by
  rw [abort_eq]
  refine h.update c (fun c' hc => ⟨setInfo_dmaInfo_ne _ _ hc, streamIrq_clear_ne dev.fastIrqMask hc⟩) ?_
  exact streamAt_of_unmasked (streamIrq_clear_self dev.fastIrqMask c)

theorem Masked.reset (h : Masked dev) (hreset : resetDmaInfo dev c = .ok dev') : Masked dev' := by
  rcases resetDmaInfo_spec hreset with ⟨-, rfl⟩ | ⟨hidle, -, rfl⟩
  · exact h
  have hmask : streamIrq (resetMask dev c) c = false := by
    simp only [resetMask]
    split
    · exact streamIrq_clear_self dev.fastIrqMask c
    · exact (h c).unmasked ‹_›
  refine h.update c (fun c' hc => ⟨Function.update_of_ne hc .., ?_⟩) (streamAt_of_unmasked hmask)
  dsimp only [resetMask]
  split
  · exact streamIrq_clear_ne dev.fastIrqMask hc
  · rfl

theorem masked_of_tearsDown (hdown : TearsDown dev dev') (h : Masked dev) : Masked dev' := by
  cases hdown with
  | reset c _ hreset => exact h.reset hreset
  | cancel c _ hreset => exact (h.abort c).reset hreset
  | elsewhere _ hsame => exact h.congr hsame.dmaInfo hsame.fastIrqMask
  | buffers c idle =>
      apply h.setInfo c _
      exact streamAt_of_unmasked ((h c).unmasked (by rw [idle]; decide))

theorem masked_of_tornDown (hdown : TornDown dev dev') (h : Masked dev) : Masked dev' :=
  hdown.keeps h fun _ _ => masked_of_tearsDown

theorem Masked.accept {obj : ℕ} {m : TpceDmaMapInfo} {prep info : TpceDmaInfo} (h : Masked dev)
    (hidle : (dev.dmaInfo c).state = .idle) (hacc : Initialized env dev c req obj m prep info dev') :
    Masked dev' := by
  have hunmasked := (h c).unmasked (by rw [hidle]; decide)
  have haccepted := h.setInfo c (initializedInfo info req obj) (streamAt_of_unmasked hunmasked)
  rw [hacc.result]
  exact haccepted.congr rfl rfl

theorem Masked.start {table : PageTable.AlteraPciePageTable} (h : Masked dev)
    (hs : Started dev c table info dev') (hold : (dev.dmaInfo c).state = .initialized)
    (hstream : (dev.dmaInfo c).params.transferMode = tpceDmaModeStream →
      info.state = .running ∧ descriptorSize ≤ info.descSize) : Masked dev' := by
  have hunmasked := (h c).unmasked (by rw [hold]; decide)
  rw [hs.result]
  refine h.update c (fun c' hne => ⟨setInfo_dmaInfo_ne _ _ hne, ?_⟩) ?_
  · change streamIrq (startMask dev c) c' = _
    simp only [startMask]
    split
    · rw [streamIrq_set, decide_eq_false hne, Bool.or_false]
    · rfl
  · rw [setInfo_dmaInfo]
    intro hm
    have hmode : (dev.dmaInfo c).params.transferMode = tpceDmaModeStream := by
      by_contra hmode
      have hsame : startMask dev c = dev.fastIrqMask := if_neg hmode
      have hm : streamIrq (startMask dev c) c = true := hm
      rw [hsame, hunmasked] at hm
      exact Bool.false_ne_true hm
    exact ⟨hs.same.params ▸ hmode, hstream hmode⟩

/-- The call brings a valid stream request that can be set up. -/
structure BringsStream (dev : TpceDev) (op : Op) (env : InitEnv) (req : TpceDmaRequest) (c : Channel)
    (mapInfo : TpceDmaMapInfo) : Prop where
  present : dev.goingAway = false
  validated : validatedRequest dev op = some (env, req)
  channel : c.val = req.params.channel.toNat
  mapping : xaLoad dev req.id = some mapInfo
  mode : req.params.transferMode = tpceDmaModeStream
  setsUp : SetsUp env dev c req mapInfo

/-- Every stream request that is set up has a descriptor, reads from the device and
finds slots for its descriptor buffer and its pages. -/
def StreamsStart (dev : TpceDev) (op : Op) : Prop :=
  ∀ env req c m, BringsStream dev op env req c m →
    (req.descriptors = 0 → plannedCount req.params m ≠ 0) ∧ TableTakes env dev c req m

theorem BringsStream.valid {op : Op} {m : TpceDmaMapInfo} (h : BringsStream dev op env req c m) :
    ∃ fileCtx, ValidRequest dev req fileCtx c m := by
  obtain ⟨fileCtx, c', m', hvalid⟩ := validatedRequest_valid h.validated
  obtain rfl : c' = c := Fin.ext (hvalid.channel.trans h.channel.symm)
  obtain rfl : m' = m := Option.some.inj (hvalid.loaded.symm.trans h.mapping)
  exact ⟨fileCtx, hvalid⟩

theorem BringsStream.accepted {op : Op} {m : TpceDmaMapInfo} (h : BringsStream dev op env req c m) :
    Accepted dev op env req c := by
  obtain ⟨fileCtx, hvalid⟩ := h.valid
  obtain ⟨dev₁, hinit⟩ := (setsUp_iff hvalid h.mode).mpr h.setsUp
  exact ⟨h.present, h.validated, h.channel, c.val, dev₁, hinit, by omega⟩

theorem initialized_descSize {fileCtx : Option ℕ} {obj : ℕ} {m m' : TpceDmaMapInfo} {prep : TpceDmaInfo}
    (hvalid : ValidRequest dev req fileCtx c m') (hacc : Initialized env dev c req obj m prep info dev')
    (hmode : req.params.transferMode = tpceDmaModeStream) :
    descriptorSize ≤ (dev'.dmaInfo c).descSize ↔ (req.descriptors = 0 → plannedCount req.params m ≠ 0) := by
  have hlast : tpceDmaHasTerminatingDescriptor req.params = false := by
    simp [tpceDmaHasTerminatingDescriptor, hmode]
  have hsize : (dev'.dmaInfo c).descSize = prep.descSize := by
    obtain ⟨hneg, -⟩ | ⟨-, -, -, hinfo⟩ := initStreamInfo_spec (hacc.stream hmode)
    · omega
    · have hinfo : info.descSize = prep.descSize := by rw [hinfo]
      rw [hacc.result, ← hinfo]
      have hset := congrArg TpceDmaInfo.descSize (setInfo_dmaInfo dev c (initializedInfo info req obj))
      exact hset
  rw [hsize, BitVec.le_def]
  change 64 ≤ _ ↔ _
  rcases prepared_cases hacc.prepared hvalid.direction with ⟨huser, hsupplied⟩ | ⟨hnull, hgenerated⟩
  · obtain ⟨heq, hne⟩ := hsupplied.size hlast
    have haligned : req.descriptorsSize.toNat % 64 = 0 := congrArg BitVec.toNat (hvalid.aligned huser)
    have hpos : req.descriptorsSize.toNat ≠ 0 := fun h => hne (BitVec.eq_of_toNat_eq h)
    refine iff_of_true ?_ fun hnull => absurd hnull huser
    rw [heq]
    omega
  · rw [hgenerated.size hlast]
    refine ⟨fun hle _ => by omega, fun h => ?_⟩
    have hpos := Nat.pos_of_ne_zero (h hnull)
    omega

theorem Masked.execute {fileCtx : Option ℕ} {m' : TpceDmaMapInfo} (h : Masked dev)
    (hvalid : ValidRequest dev req fileCtx c m')
    (hstream : req.params.transferMode = tpceDmaModeStream → SetsUp env dev c req m' →
      (req.descriptors = 0 → plannedCount req.params m' ≠ 0) ∧ TableTakes env dev c req m')
    (hexec : Executed env dev c req dev') : Masked dev' := by
  cases hexec with
  | refused ret info refusal negative same state =>
      refine h.setInfo c info ((h c).congr same.params state fun hrun => ?_)
      rw [hvalid.idle] at hrun
      cases hrun
  | failed obj m prep info info₂ table dev₁ dev₂ _ accepted start started state reset =>
      have hinit := initialized_state accepted
      refine ((h.accept hvalid.idle accepted).start started hinit fun hmode => ?_).reset reset
      have hmode' := initialized_params accepted ▸ hmode
      obtain rfl := Option.some.inj ((xaLoad_of_initialized accepted).symm.trans hvalid.loaded)
      obtain ⟨-, htakes⟩ := hstream hmode' ((setsUp_iff hvalid hmode').mp ⟨dev₁, accepted.accepted⟩)
      have htranslates := (stream_translates_iff accepted hvalid.channel hmode').mpr htakes
      exact absurd ((streamDispatch_eq_zero hinit hmode).mpr htranslates) start
  | running obj m prep info info₂ table dev₁ dev₂ accepted start started state =>
      have hinit := initialized_state accepted
      have hrun := (h.accept hvalid.idle accepted).start started hinit fun hmode => ?_
      · exact hrun.congr rfl rfl
      · have hmode' := initialized_params accepted ▸ hmode
        obtain rfl := Option.some.inj ((xaLoad_of_initialized accepted).symm.trans hvalid.loaded)
        obtain ⟨hplanned, -⟩ := hstream hmode' ((setsUp_iff hvalid hmode').mp ⟨dev₁, accepted.accepted⟩)
        exact ⟨state, started.size ▸ (initialized_descSize hvalid accepted hmode').mpr hplanned⟩

theorem step_masked {op : Op} (h : Masked dev) (hstreams : StreamsStart dev op)
    (hstep : step dev op = some dev') : Masked dev' := by
  cases step_effect hstep with
  | nothing => exact h
  | opened => exact h.congr rfl rfl
  | locked file lockEnv bufferInfo id free => exact h.congr rfl rfl
  | unlocked file id obj _ unmap => exact masked_of_tornDown (tornDown_unlisted unmap) h
  | executed _ env req fileCtx c m _ present mutex validated valid execute =>
      exact h.execute valid (fun hmode hsetsUp => hstreams env req c m
        ⟨present, validated, valid.channel, valid.loaded, hmode, hsetsUp⟩) execute
  | cancelled file channel c _ reset => exact (h.abort c).reset reset
  | woken w c _ waiting reset =>
      have hwoken : Masked { dev with waiting := none } := h.congr rfl rfl
      exact hwoken.reset reset
  | completed c mode running =>
      apply h.setInfo c _
      exact streamAt_of_unmasked (Bool.eq_false_iff.mpr fun hm => mode (h c hm).1)
  | released file dev₁ release => exact (masked_of_tornDown (tornDown_release release) h).congr rfl rfl
  | leaked file env c => exact h.congr rfl rfl
  | returned file env c info stream =>
      obtain ⟨-, hinfo, -⟩ := (mmapStreamInfo_spec stream).resolve_left fun h => absurd h.1 (by decide)
      apply h.stream c _
      rw [hinfo]
      rfl
  | mapped file env c info stream =>
      obtain ⟨-, hinfo, -⟩ := (mmapStreamInfo_spec stream).resolve_left fun h => absurd h.1 (by decide)
      exact (h.stream c info hinfo).congr rfl rfl
  | vmaOpened c area => exact (h.stream c (incStreamRefs (dev.dmaInfo c)) rfl).congr rfl rfl
  | vmaClosed c area => exact (h.stream c (tpceFreeStreamInfo (dev.dmaInfo c)) rfl).congr rfl rfl
  | wentAway => exact h.congr rfl rfl
  | removed out _ remove => exact masked_of_tornDown (tornDown_remove remove) h

/-- A stream that fails to start, or starts without a descriptor, shows in the
mask at once. -/
theorem streamsStart_of_sound {op : Op} (hstep : step dev op = some dev')
    (hsound : MaskSound dev') : StreamsStart dev op := by
  intro env req c m₁ hbrings
  have hmode := hbrings.mode
  have hacc := hbrings.accepted
  obtain ⟨fileCtx, hvalid⟩ := hbrings.valid
  obtain ⟨-, -, hexec⟩ := hacc.executed hstep
  have hset : ∀ {obj m prep info info₂ table dev₁ dev₂}, Initialized env dev c req obj m prep info dev₁ →
      Started dev₁ c table info₂ dev₂ → streamIrq dev₂.fastIrqMask c = true := by
    intro obj m prep info info₂ table dev₁ dev₂ accepted started
    have hmask : dev₂.fastIrqMask = dev₁.fastIrqMask ||| tpceIrqDma c := by
      rw [started.result]
      exact if_pos (by rw [initialized_params accepted]; exact hmode)
    rw [hmask, streamIrq_set, decide_eq_true rfl, Bool.or_true]
  cases hexec with
  | refused ret info refusal negative same state =>
      obtain ⟨ret', dev₁, hinit, hret⟩ := hacc.init
      obtain ⟨rfl, -⟩ := Prod.mk.inj (Except.ok.inj (refusal.symm.trans hinit))
      omega
  | failed obj m prep info info₂ table dev₁ dev₂ _ accepted start started state reset =>
      have hinfo : dev₂.dmaInfo c = info₂ := by rw [started.result, setInfo_dmaInfo]
      obtain ⟨hidle, -⟩ | ⟨-, -, hres⟩ := resetDmaInfo_spec reset
      · rw [hinfo] at hidle
        rcases state with hst | hst
        · simp [hst] at hidle
        · simp [hst] at hidle
      · -- The bit stays set, since the channel is not running when it is reset.
        have hmask : dev'.fastIrqMask = dev₂.fastIrqMask := by
          rw [hres]
          apply if_neg
          rcases state with hst | hst
          · simp [hinfo, hst]
          · simp [hinfo, hst]
        obtain ⟨-, hrun, -⟩ := hsound c (hmask ▸ hset accepted started)
        rw [(resetDmaInfo_frame reset).1] at hrun
        cases hrun
  | running obj m prep info info₂ table dev₁ dev₂ accepted start started state =>
      have hinit := initialized_state accepted
      have hmask := hset accepted started
      obtain ⟨-, -, -, hsize⟩ := hsound c hmask
      have hinfo : dev₂.dmaInfo c = info₂ := by rw [started.result, setInfo_dmaInfo]
      have hsize : descriptorSize ≤ info₂.descSize := hinfo ▸ hsize
      rw [started.size] at hsize
      obtain rfl := Option.some.inj ((xaLoad_of_initialized accepted).symm.trans hbrings.mapping)
      have htranslates := (streamDispatch_eq_zero hinit (initialized_params accepted ▸ hmode)).mp start
      exact ⟨(initialized_descSize hvalid accepted hmode).mp hsize,
        (stream_translates_iff accepted hvalid.channel hmode).mp htranslates⟩

theorem masked_init (sgt : SgTable) : Masked (TpceDev.init sgt) := by
  have hzero : (0#32).getLsbD = fun _ => false := by
    funext i
    simp
  intro c
  apply streamAt_of_unmasked
  rw [streamIrq_eq]
  exact congrFun hzero _

/-- A stream to the device out of the driver buffer -/
def streamToDevice : TpceDmaRequest where
  id := 1
  params := ⟨0, 0, 4096, 0, 0, 0, 0, tpceDmaModeStream, tpceDmaToDevice, 0, 0⟩
  descriptors := 0
  descriptorsSize := 0
  descriptorsType := 0

end TpceDrv.FastIrqMask
