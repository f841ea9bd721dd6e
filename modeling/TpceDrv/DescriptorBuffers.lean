import TpceDrv.ActiveDescriptors
import TpceDrv.Effects
import TpceDrv.Teardown

namespace TpceDrv.DescriptorBuffers

open Descriptor DmaParams DmaInfo Mapping Device Generation Planning ChannelControl ChannelSteps Requests
open Driver RequestSteps ActiveDescriptors Effects Teardown

variable {env : InitEnv} {dev dev' : TpceDev} {c : Channel} {req : TpceDmaRequest} {mapInfo : TpceDmaMapInfo}
variable {info info' : TpceDmaInfo} {placed : ℕ → U64 → Prop} {err : ℤ}

/-- Both buffers of a channel have its capacity, and the coherent one is where
the allocator places one of that size. -/
structure Buffered (placed : ℕ → U64 → Prop) (info : TpceDmaInfo) : Prop where
  desc : info.desc.length * 64 = info.descCapacity.toNat
  descDma : info.descDma.length * 64 = info.descCapacity.toNat
  bounded : info.descCapacity.toNat < 2 ^ 31
  address : placed info.descCapacity.toNat info.descBusAddr

theorem buffered_none (hzero : placed 0 0) (hdesc : info.desc = []) (hdescDma : info.descDma = [])
    (hcapacity : info.descCapacity = 0) (haddr : info.descBusAddr = 0) : Buffered placed info := by
  refine ⟨?_, ?_, ?_, ?_⟩
  · rw [hdesc, hcapacity]
    rfl
  · rw [hdescDma, hcapacity]
    rfl
  · rw [hcapacity]
    decide
  · rw [hcapacity, haddr]
    exact hzero

/-- The buffers are the same ones, whatever is in them. -/
structure SameBuffers (info info' : TpceDmaInfo) : Prop where
  desc : info'.desc.length = info.desc.length
  descDma : info'.descDma.length = info.descDma.length
  capacity : info'.descCapacity = info.descCapacity
  busAddr : info'.descBusAddr = info.descBusAddr

theorem Buffered.congr (h : Buffered placed info) (hsame : SameBuffers info info') : Buffered placed info' := by
  refine ⟨?_, ?_, ?_, ?_⟩
  · rw [hsame.desc, hsame.capacity, h.desc]
  · rw [hsame.descDma, hsame.capacity, h.descDma]
  · rw [hsame.capacity]
    exact h.bounded
  · rw [hsame.capacity, hsame.busAddr]
    exact h.address

/-- The size that `init_dma_info` asks for -/
def allocSize (req : TpceDmaRequest) : U32 :=
  if tpceDmaHasTerminatingDescriptor req.params then descAllocSize req + descriptorSize else descAllocSize req

/-- An allocation for the request is placed as it should be. -/
def PlacedFor (placed : ℕ → U64 → Prop) (env : InitEnv) (req : TpceDmaRequest) : Prop :=
  ∀ addr, env.dmaAllocCoherent = some addr → placed (allocSize req).toNat addr

theorem toNat_div_descriptorSize (size : U32) : (size / descriptorSize).toNat = size.toNat / 64 :=
  BitVec.toNat_udiv

theorem allocDescriptorsMem_buffered {size : U32} (h : tpceDmaAllocDescriptorsMem env info size = (err, info'))
    (hbuf : Buffered placed info) (hzero : placed 0 0) (hsize : size.toNat % 64 = 0)
    (hplaced : ∀ addr, env.dmaAllocCoherent = some addr → placed size.toNat addr) :
    Buffered placed info' ∧
      (err = 0 → info'.descSize = size ∧ size ≤ info'.descCapacity ∧ size.toNat ≠ 0) := by
  simp only [tpceDmaAllocDescriptorsMem] at h
  split at h
  · cases h
    exact ⟨hbuf, fun h => by cases h⟩
  rename_i hrange
  obtain ⟨hne, hmax⟩ := not_or.mp hrange
  have hpos : size.toNat ≠ 0 := fun h0 => hne (BitVec.eq_of_toNat_eq h0)
  split at h
  · rename_i hfits
    cases h
    exact ⟨hbuf.congr ⟨rfl, rfl, rfl, rfl⟩, fun _ => ⟨rfl, hfits, hpos⟩⟩
  split at h
  · rename_i addr _ haddr
    have hlen : (size / descriptorSize).toNat * 64 = size.toNat := by
      rw [toNat_div_descriptorSize]
      omega
    have hnew : Buffered placed info' ∧ info'.descSize = size ∧ info'.descCapacity = size := by
      cases h
      exact ⟨⟨by rw [List.length_replicate, hlen], by rw [List.length_replicate, hlen], by dsimp only; omega,
        hplaced addr haddr⟩, rfl, rfl⟩
    exact ⟨hnew.1, fun _ => ⟨hnew.2.1, by rw [hnew.2.2]; exact BitVec.le_refl size, hpos⟩⟩
  · cases h
    refine ⟨?_, fun h => by cases h⟩
    split
    · exact hbuf
    · exact buffered_none hzero rfl rfl rfl rfl

theorem takeUserDesc_buffers (h : takeUserDesc env mapInfo req info = (err, info')) (hbuf : Buffered placed info)
    (hfits : req.descriptorsSize ≤ info.descCapacity) : SameBuffers info info' := by
  have hle := BitVec.le_def.mp hfits
  have hdesc := hbuf.desc
  have hlen : ((List.range (req.descriptorsSize / descriptorSize).toNat).map env.userDesc ++
      info.desc.drop (req.descriptorsSize / descriptorSize).toNat).length = info.desc.length := by
    rw [List.length_append, List.length_map, List.length_range, List.length_drop, toNat_div_descriptorSize]
    omega
  simp only [takeUserDesc] at h
  split at h
  · cases h
    exact ⟨rfl, rfl, rfl, rfl⟩
  split at h
  · cases h
    exact ⟨hlen, rfl, rfl, rfl⟩
  · cases h
    exact ⟨hlen, rfl, rfl, rfl⟩

theorem takeUserDesc_active (h : takeUserDesc env mapInfo req info = (0, info')) :
    info'.descActive = req.descriptorsSize := by
  simp only [takeUserDesc] at h
  split at h
  · cases h
  split at h
  · cases h
  · cases h
    rfl

theorem generateDesc_buffers {params : TpceDmaTransferParams} {size : U32}
    (h : generateDesc mapInfo params size info = .ok (err, info')) : SameBuffers info info' := by
  obtain ⟨verr, -, h⟩ := bind_eq_ok.mp h
  split at h
  · cases h
    exact ⟨rfl, rfl, rfl, rfl⟩
  split at h
  · cases h
    exact ⟨rfl, rfl, rfl, rfl⟩
  split at h
  · cases h
    exact ⟨rfl, rfl, rfl, rfl⟩
  obtain ⟨⟨ret, desc⟩, hgen, h⟩ := bind_eq_ok.mp h
  have hlen := (tpceGenerateDescriptors_length hgen).1
  dsimp only at h
  split at h
  · cases h
    exact ⟨hlen, rfl, rfl, rfl⟩
  · cases h
    exact ⟨hlen, rfl, rfl, rfl⟩

theorem copyToDma_buffers (h : copyToDma info = .ok info') (hbuf : Buffered placed info) :
    SameBuffers info info' ∧ info'.descSize ≤ info'.descCapacity ∧ info'.descActive = info.descActive := by
  simp only [copyToDma] at h
  split at h
  · cases h
  rename_i hfits
  cases h
  refine ⟨⟨rfl, ?_, rfl, rfl⟩, BitVec.not_lt.mp hfits, rfl⟩
  have hle := BitVec.le_def.mp (BitVec.not_lt.mp hfits)
  have hdesc := hbuf.desc
  have hdescDma := hbuf.descDma
  dsimp only
  rw [List.length_append, List.length_take, List.length_drop, toNat_div_descriptorSize]
  omega

/-- The sizes that `init_dma_info` sets: the active descriptors and, except
for a stream, the terminating one, all inside the buffer -/
structure Sized (params : TpceDmaTransferParams) (info : TpceDmaInfo) : Prop where
  active : info.descActive.toNat % 64 = 0
  size : info.descSize.toNat =
    info.descActive.toNat + if tpceDmaHasTerminatingDescriptor params then 64 else 0
  fits : info.descSize ≤ info.descCapacity

/-- What `validate_dma_request` has checked of the descriptors from user space -/
def SuppliedSize (req : TpceDmaRequest) : Prop :=
  req.descriptors ≠ 0 → req.descriptorsSize ≤ tpceMaxDescriptorsSize ∧ req.descriptorsSize % descriptorSize = 0

theorem descAllocSize_mod (hreq : SuppliedSize req) : (descAllocSize req).toNat % 64 = 0 := by
  rw [descAllocSize]
  split
  · rename_i huser
    have hmod := congrArg BitVec.toNat (hreq huser).2
    rw [BitVec.toNat_umod] at hmod
    exact hmod
  · have hmul : (tpceMaxDescriptorsNeeded req.params * descriptorSize).toNat =
        (tpceMaxDescriptorsNeeded req.params).toNat * 64 % 2 ^ 32 := BitVec.toNat_mul ..
    omega

/-- The sum does not wrap unless it becomes zero. -/
theorem allocSize_toNat (hreq : SuppliedSize req) :
    (allocSize req).toNat % 64 = 0 ∧ ((allocSize req).toNat ≠ 0 → (allocSize req).toNat =
      (descAllocSize req).toNat + if tpceDmaHasTerminatingDescriptor req.params then 64 else 0) := by
  have hmod := descAllocSize_mod hreq
  have hlt := (descAllocSize req).isLt
  have hadd : (descAllocSize req + descriptorSize).toNat = ((descAllocSize req).toNat + 64) % 2 ^ 32 :=
    BitVec.toNat_add ..
  rw [allocSize]
  split
  · exact ⟨by omega, fun hne => by omega⟩
  · exact ⟨hmod, fun _ => rfl⟩

theorem generateDesc_sized {params : TpceDmaTransferParams} {size : U32}
    (h : generateDesc mapInfo params size info = .ok (0, info'))
    (hroom : size.toNat + 64 < 2 ^ 32) : info'.descActive.toNat % 64 = 0 ∧ info'.descActive ≤ size ∧
      info'.descSize.toNat = info'.descActive.toNat + if tpceDmaHasTerminatingDescriptor params then 64 else 0 := by
  obtain ⟨-, ret, desc, hgen, hret, rfl⟩ := generateDesc_ok h
  obtain ⟨rfl, hmax, -⟩ := tpceGenerateDescriptors_reach hgen hret
  rw [toNat_div_descriptorSize] at hmax
  have hcount : (BitVec.ofInt 32 (plannedCount params mapInfo)).toNat = plannedCount params mapInfo := by
    rw [BitVec.ofInt_natCast, BitVec.toNat_ofNat, Nat.mod_eq_of_lt (by omega)]
  have hactive : (BitVec.ofInt 32 (plannedCount params mapInfo) * descriptorSize).toNat =
      plannedCount params mapInfo * 64 := by
    rw [BitVec.toNat_mul, hcount]
    exact Nat.mod_eq_of_lt (show plannedCount params mapInfo * 64 < 2 ^ 32 by omega)
  have hlast : ((BitVec.ofInt 32 (plannedCount params mapInfo) + 1) * descriptorSize).toNat =
      plannedCount params mapInfo * 64 + 64 := by
    have hone : (1 : U32).toNat = 1 := rfl
    have hsize : descriptorSize.toNat = 64 := rfl
    rw [BitVec.toNat_mul, BitVec.toNat_add, hcount, hone, hsize]
    omega
  dsimp only
  rw [BitVec.le_def, hactive]
  refine ⟨Nat.mul_mod_left _ 64, by omega, ?_⟩
  split
  · exact hlast
  · exact hactive

/-- Filling the buffer leaves the sizes that the copy for the device relies on. -/
theorem filled_sized {buf filled : TpceDmaInfo} (hbuf : Buffered placed buf) (hsize : buf.descSize = allocSize req)
    (hfits : allocSize req ≤ buf.descCapacity) (hne : (allocSize req).toNat ≠ 0) (hreq : SuppliedSize req)
    (hfill : (if req.descriptors ≠ 0 then pure (takeUserDesc env mapInfo req buf)
      else generateDesc mapInfo req.params (descAllocSize req) buf) = .ok (err, filled)) :
    SameBuffers buf filled ∧ (err = 0 → Sized req.params filled) := by
  have hsum := (allocSize_toNat hreq).2 hne
  have hle := BitVec.le_def.mp hfits
  have hbound := hbuf.bounded
  split at hfill
  · rename_i huser
    have hdesc : descAllocSize req = req.descriptorsSize := if_pos huser
    have htake := Except.ok.inj hfill
    have hsame := takeUserDesc_buffers htake hbuf (BitVec.le_def.mpr (by rw [← hdesc]; omega))
    refine ⟨hsame, fun hzero => ?_⟩
    subst hzero
    have hactive : filled.descActive = descAllocSize req := (takeUserDesc_active htake).trans hdesc.symm
    have hkept : filled.descSize = allocSize req := (takeUserDesc_spec htake).2.2.trans hsize
    refine ⟨?_, ?_, ?_⟩
    · rw [hactive]
      exact descAllocSize_mod hreq
    · rw [hkept, hactive]
      exact hsum
    · rw [hkept, hsame.capacity]
      exact hfits
  · have hsame := generateDesc_buffers hfill
    refine ⟨hsame, fun hzero => ?_⟩
    subst hzero
    obtain ⟨hmod, hroom, htotal⟩ := generateDesc_sized hfill (by omega)
    have hroom := BitVec.le_def.mp hroom
    refine ⟨hmod, htotal, BitVec.le_def.mpr ?_⟩
    rw [hsame.capacity]
    omega

theorem prepareDesc_buffered (h : prepareDesc env mapInfo req info = .ok (err, info'))
    (hbuf : Buffered placed info) (hzero : placed 0 0) (hplaced : PlacedFor placed env req)
    (hreq : SuppliedSize req) : Buffered placed info' ∧ (err = 0 → Sized req.params info') := by
  simp only [prepareDesc] at h
  cases halloc : tpceDmaAllocDescriptorsMem env info (allocSize req) with
  | mk err₁ buf =>
      obtain ⟨hbuf₁, halloced⟩ := allocDescriptorsMem_buffered halloc hbuf hzero (allocSize_toNat hreq).1 hplaced
      rw [allocSize] at halloc
      simp only [halloc] at h
      split at h
      · rename_i hne
        cases h
        exact ⟨hbuf₁, fun h => absurd h hne⟩
      rename_i hok
      obtain ⟨hsize, hfits, hne⟩ := halloced (not_not.mp hok)
      obtain ⟨⟨err₂, filled⟩, hfill, h⟩ := bind_eq_ok.mp h
      obtain ⟨hsame, hsized⟩ := filled_sized hbuf₁ hsize hfits hne hreq hfill
      dsimp only at h
      split at h
      · rename_i hne₂
        cases h
        exact ⟨hbuf₁.congr hsame, fun h => absurd h hne₂⟩
      rename_i hok₂
      obtain ⟨out, hcopy, h⟩ := bind_eq_ok.mp h
      cases h
      obtain ⟨hsame', hfits', hactive'⟩ := copyToDma_buffers hcopy (hbuf₁.congr hsame)
      obtain ⟨hmod₂, hsum₂, -⟩ := hsized (not_not.mp hok₂)
      have hsize' := (copyToDma_spec hcopy).2
      refine ⟨(hbuf₁.congr hsame).congr hsame', fun _ => ⟨?_, ?_, hfits'⟩⟩
      · rw [hactive']
        exact hmod₂
      · rw [hactive', hsize']
        exact hsum₂

theorem initStreamInfo_same {vmallocOk : Bool} (h : tpceInitStreamInfo vmallocOk info = (err, info')) :
    info' = { info with streamInfo := info'.streamInfo } := by
  rcases initStreamInfo_spec h with ⟨-, rfl⟩ | ⟨-, -, -, hinfo⟩
  · rfl
  · exact hinfo

theorem initDmaInfo_buffered {ret : ℤ} (h : initDmaInfo env dev c req = .ok (ret, dev'))
    (hbuf : Buffered placed (dev.dmaInfo c)) (hzero : placed 0 0) (hplaced : PlacedFor placed env req)
    (hreq : SuppliedSize req) :
    Buffered placed (dev'.dmaInfo c) ∧ (0 ≤ ret → Sized req.params (dev'.dmaInfo c)) := by
  simp only [initDmaInfo] at h
  split at h
  · cases h
    exact ⟨hbuf, fun hret => absurd hret (by decide)⟩
  rename_i obj hobj
  obtain ⟨m, -, h⟩ := bind_eq_ok.mp h
  obtain ⟨⟨err, prep⟩, hprep, h⟩ := bind_eq_ok.mp h
  obtain ⟨hbuf₁, hsized⟩ := prepareDesc_buffered hprep hbuf hzero hplaced hreq
  obtain ⟨-, hle, -⟩ := prepareDesc_spec hprep
  dsimp only at h
  split at h
  · rename_i hne
    cases h
    rw [setInfo_dmaInfo]
    exact ⟨hbuf₁, fun hret => absurd (Int.le_antisymm hle hret) hne⟩
  rename_i hok
  have hsized := hsized (not_not.mp hok)
  cases hstream : (if req.params.transferMode = tpceDmaModeStream then tpceInitStreamInfo env.vmallocOk prep
      else (0, prep)) with
  | mk err₂ info =>
      have hsame : info = { prep with streamInfo := info.streamInfo } := by
        split at hstream
        · exact initStreamInfo_same hstream
        · cases hstream
          rfl
      have hneg : err₂ ≤ 0 := by
        split at hstream
        · rcases initStreamInfo_spec hstream with ⟨hneg, -⟩ | ⟨rfl, -⟩
          · exact Int.le_of_lt hneg
          · exact Int.le_refl 0
        · cases hstream
          exact Int.le_refl 0
      simp only [hstream] at h
      split at h
      · rename_i hne
        cases h
        rw [setInfo_dmaInfo, hsame]
        exact ⟨hbuf₁.congr ⟨rfl, rfl, rfl, rfl⟩, fun hret => absurd (Int.le_antisymm hneg hret) hne⟩
      · cases h
        have hinfo := setInfo_dmaInfo dev c (initializedInfo info req obj)
        have hbuffered : Buffered placed (initializedInfo info req obj) := by
          rw [initializedInfo, hsame]
          exact hbuf₁.congr ⟨rfl, rfl, rfl, rfl⟩
        have hsizes : Sized req.params (initializedInfo info req obj) := by
          rw [initializedInfo, hsame]
          exact ⟨hsized.active, hsized.size, hsized.fits⟩
        rw [← hinfo] at hbuffered hsizes
        exact ⟨hbuffered, fun _ => hsizes⟩

theorem dispatch_buffers (env : InitEnv) (dev : TpceDev) (c : Channel) :
    SameBuffers (dev.dmaInfo c) ((dmaDispatch env dev c).2.dmaInfo c) := by
  obtain ⟨descDma, translated, state, hinfo, hlen⟩ := dmaDispatch_info env dev c
  rw [hinfo]
  exact ⟨rfl, hlen, rfl, rfl⟩

def AllBuffered (placed : ℕ → U64 → Prop) (dev : TpceDev) : Prop := ∀ c, Buffered placed (dev.dmaInfo c)

theorem AllBuffered.congr (h : AllBuffered placed dev) (hinfo : dev'.dmaInfo = dev.dmaInfo) :
    AllBuffered placed dev' := by
  intro c
  rw [hinfo]
  exact h c

theorem AllBuffered.update (h : AllBuffered placed dev) (c : Channel)
    (hothers : ∀ c', c' ≠ c → dev'.dmaInfo c' = dev.dmaInfo c') (hself : Buffered placed (dev'.dmaInfo c)) :
    AllBuffered placed dev' := by
  intro c'
  by_cases hc : c' = c
  · subst hc
    exact hself
  · rw [hothers c' hc]
    exact h c'

theorem AllBuffered.setInfo (h : AllBuffered placed dev) (c : Channel) (info : TpceDmaInfo)
    (hself : Buffered placed info) :
    AllBuffered placed (dev.setInfo c info) := by
  apply h.update c fun c' hc => setInfo_dmaInfo_ne dev info hc
  rw [setInfo_dmaInfo]
  exact hself

theorem AllBuffered.stream (h : AllBuffered placed dev) (c : Channel) (info : TpceDmaInfo)
    (hinfo : info = { dev.dmaInfo c with streamInfo := info.streamInfo }) :
    AllBuffered placed (dev.setInfo c info) := by
  apply h.setInfo c info
  rw [hinfo]
  exact (h c).congr ⟨rfl, rfl, rfl, rfl⟩

theorem resetInfo_buffers (info : TpceDmaInfo) : SameBuffers info (resetInfo info) := by
  simp only [resetInfo]
  split
  · exact ⟨rfl, rfl, rfl, rfl⟩
  · exact ⟨rfl, rfl, rfl, rfl⟩

theorem AllBuffered.reset (h : AllBuffered placed dev) (hreset : resetDmaInfo dev c = .ok dev') :
    AllBuffered placed dev' := by
  obtain ⟨-, rfl⟩ | ⟨-, -, rfl⟩ := resetDmaInfo_spec hreset
  · exact h
  · refine h.update c (fun c' hc => Function.update_of_ne hc ..) ?_
    dsimp only
    rw [Function.update_self]
    exact (h c).congr (resetInfo_buffers _)

theorem AllBuffered.abort (h : AllBuffered placed dev) (c : Channel) : AllBuffered placed (tpceDmaAbort dev c) := by
  have habort := h.setInfo c { dev.dmaInfo c with state := abortedState (dev.dmaInfo c).state }
    ((h c).congr ⟨rfl, rfl, rfl, rfl⟩)
  rw [abort_eq]
  exact habort.congr rfl

theorem buffered_of_tearsDown (hzero : placed 0 0) (hdown : TearsDown dev dev') (h : AllBuffered placed dev) :
    AllBuffered placed dev' := by
  cases hdown with
  | reset c _ hreset => exact h.reset hreset
  | cancel c _ hreset => exact (h.abort c).reset hreset
  | elsewhere _ hsame => exact h.congr hsame.dmaInfo
  | buffers c idle => exact h.setInfo c _ (buffered_none hzero rfl rfl rfl rfl)

theorem buffered_of_tornDown (hzero : placed 0 0) (hdown : TornDown dev dev') (h : AllBuffered placed dev) :
    AllBuffered placed dev' :=
  hdown.keeps h fun _ _ => buffered_of_tearsDown hzero

theorem ValidRequest.suppliedSize {fileCtx : Option ℕ} (h : ValidRequest dev req fileCtx c mapInfo) :
    SuppliedSize req :=
  fun huser => ⟨h.size huser, h.aligned huser⟩

theorem AllBuffered.started {obj : ℕ} {m : TpceDmaMapInfo} {prep info₂ : TpceDmaInfo} {dev₁ dev₂ : TpceDev}
    {table : PageTable.AlteraPciePageTable} (h : AllBuffered placed dev) (hzero : placed 0 0)
    (hplaced : PlacedFor placed env req) (hreq : SuppliedSize req)
    (hacc : Initialized env dev c req obj m prep info dev₁) (hs : Started dev₁ c table info₂ dev₂) :
    AllBuffered placed dev₂ := by
  obtain ⟨hbuf, -⟩ := initDmaInfo_buffered hacc.accepted (h c) hzero hplaced hreq
  obtain ⟨env', hdispatch⟩ := hs.dispatched
  have hsame := dispatch_buffers env' dev₁ c
  rw [hdispatch] at hsame
  refine h.update c (fun c' hc => ?_) (hbuf.congr hsame)
  have hothers : dev₁.dmaInfo c' = dev.dmaInfo c' := by
    rw [hacc.result]
    exact setInfo_dmaInfo_ne dev _ hc
  rw [hs.result]
  exact (setInfo_dmaInfo_ne _ _ hc).trans hothers

theorem AllBuffered.execute (h : AllBuffered placed dev) (hzero : placed 0 0) (hplaced : PlacedFor placed env req)
    (hreq : SuppliedSize req) (hexec : Executed env dev c req dev') : AllBuffered placed dev' := by
  cases hexec with
  | refused ret info refusal negative same state =>
      obtain ⟨hbuf, -⟩ := initDmaInfo_buffered refusal (h c) hzero hplaced hreq
      rw [setInfo_dmaInfo] at hbuf
      exact h.setInfo c info hbuf
  | failed obj m prep info info₂ table dev₁ dev₂ _ accepted start started state reset =>
      exact (h.started hzero hplaced hreq accepted started).reset reset
  | running obj m prep info info₂ table dev₁ dev₂ accepted start started state =>
      exact (h.started hzero hplaced hreq accepted started).congr rfl

/-- The allocation behind a call is placed as it should be. -/
def Places (placed : ℕ → U64 → Prop) (dev : TpceDev) (op : Op) : Prop :=
  ∀ env req, validatedRequest dev op = some (env, req) → PlacedFor placed env req

theorem step_buffered {op : Op} (hzero : placed 0 0) (h : AllBuffered placed dev) (hplaces : Places placed dev op)
    (hstep : step dev op = some dev') : AllBuffered placed dev' := by
  cases step_effect hstep with
  | nothing => exact h
  | opened => exact h.congr rfl
  | locked file lockEnv bufferInfo id free => exact h.congr rfl
  | unlocked file id obj _ unmap => exact buffered_of_tornDown hzero (tornDown_unlisted unmap) h
  | executed _ env req fileCtx c m _ present mutex validated valid execute =>
      exact h.execute hzero (hplaces env req validated) (ValidRequest.suppliedSize valid) execute
  | cancelled file channel c _ reset => exact (h.abort c).reset reset
  | woken w c _ waiting reset =>
      have hwoken : AllBuffered placed { dev with waiting := none } := h.congr rfl
      exact hwoken.reset reset
  | completed c mode running => exact h.setInfo c _ ((h c).congr ⟨rfl, rfl, rfl, rfl⟩)
  | released file dev₁ release => exact (buffered_of_tornDown hzero (tornDown_release release) h).congr rfl
  | leaked file env c => exact h.congr rfl
  | returned file env c info stream =>
      obtain ⟨-, hinfo, -⟩ := (mmapStreamInfo_spec stream).resolve_left fun h => absurd h.1 (by decide)
      apply h.stream c _
      rw [hinfo]
      rfl
  | mapped file env c info stream =>
      obtain ⟨-, hinfo, -⟩ := (mmapStreamInfo_spec stream).resolve_left fun h => absurd h.1 (by decide)
      exact (h.stream c info hinfo).congr rfl
  | vmaOpened c area => exact (h.stream c (incStreamRefs (dev.dmaInfo c)) rfl).congr rfl
  | vmaClosed c area => exact (h.stream c (tpceFreeStreamInfo (dev.dmaInfo c)) rfl).congr rfl
  | wentAway => exact h.congr rfl
  | removed out _ remove => exact buffered_of_tornDown hzero (tornDown_remove remove) h

theorem buffered_init (sgt : SgTable) (hzero : placed 0 0) : AllBuffered placed (TpceDev.init sgt) :=
  fun _ => buffered_none hzero rfl rfl rfl rfl

/-- The buffers are as they should be in every run in which the allocator
places them so. -/
theorem run_buffered (sgt : SgTable) {ops : List Op} (hzero : placed 0 0)
    (hplaces : Library.Runs.Along step (Places placed) (TpceDev.init sgt) ops) :
    Library.Runs.Always step (AllBuffered placed) (TpceDev.init sgt) ops :=
  Library.Runs.always_of_along (fun _ _ _ h hp hstep => step_buffered hzero h hp hstep) (buffered_init sgt hzero)
    hplaces

end TpceDrv.DescriptorBuffers
