import TpceDrv.ChannelControl

namespace TpceDrv.ChannelSteps

open Descriptor DmaParams DmaInfo Mapping PageTable Device DescriptorCheck Generation Translation
open ChannelControl

variable {env : InitEnv} {dev dev' : TpceDev} {c : Channel} {req : TpceDmaRequest} {info info' : TpceDmaInfo}

structure SameTransfer (info info' : TpceDmaInfo) : Prop where
  params : info'.params = info.params
  streamInfo : info'.streamInfo = info.streamInfo
  mapInfo : info'.mapInfo = info.mapInfo

theorem SameTransfer.refl (info : TpceDmaInfo) : SameTransfer info info := ⟨rfl, rfl, rfl⟩

theorem SameTransfer.trans {info'' : TpceDmaInfo} (h : SameTransfer info info')
    (h' : SameTransfer info' info'') : SameTransfer info info'' :=
  ⟨h'.params.trans h.params, h'.streamInfo.trans h.streamInfo, h'.mapInfo.trans h.mapInfo⟩

@[simp] theorem setInfo_self (dev : TpceDev) (c : Channel) : dev.setInfo c (dev.dmaInfo c) = dev := by
  simp [TpceDev.setInfo]

@[simp] theorem setInfo_setInfo (dev : TpceDev) (c : Channel) (info info' : TpceDmaInfo) :
    (dev.setInfo c info).setInfo c info' = dev.setInfo c info' := by
  simp [TpceDev.setInfo]

theorem allocDescriptorsMem_spec {size : U32} {err : Int}
    (h : tpceDmaAllocDescriptorsMem env info size = (err, info')) :
    (SameTransfer info info' ∧ info'.state = info.state) ∧ err ≤ 0 ∧
      (err = 0 → info'.descSize = size ∧ size ≠ 0) := by
  unfold tpceDmaAllocDescriptorsMem at h
  split at h
  · cases h
    exact ⟨⟨.refl info, rfl⟩, by decide, fun h => by cases h⟩
  · rename_i hsize
    split at h
    · cases h
      exact ⟨⟨⟨rfl, rfl, rfl⟩, rfl⟩, by decide, fun _ => ⟨rfl, fun h => hsize (.inl h)⟩⟩
    · dsimp only at h
      split at h
      · cases h
        refine ⟨?_, by decide, fun _ => ⟨rfl, fun h => hsize (.inl h)⟩⟩
        split
        · exact ⟨⟨rfl, rfl, rfl⟩, rfl⟩
        · exact ⟨⟨rfl, rfl, rfl⟩, rfl⟩
      · cases h
        refine ⟨?_, by decide, fun h => by cases h⟩
        split
        · exact ⟨⟨rfl, rfl, rfl⟩, rfl⟩
        · exact ⟨⟨rfl, rfl, rfl⟩, rfl⟩

theorem takeUserDesc_spec {mapInfo : TpceDmaMapInfo} {err : Int}
    (h : takeUserDesc env mapInfo req info = (err, info')) :
    (SameTransfer info info' ∧ info'.state = info.state) ∧ err ≤ 0 ∧ info'.descSize = info.descSize := by
  unfold takeUserDesc at h
  split at h
  · cases h
    exact ⟨⟨.refl info, rfl⟩, by decide, rfl⟩
  · dsimp only at h
    split at h
    · cases h
      exact ⟨⟨⟨rfl, rfl, rfl⟩, rfl⟩, by decide, rfl⟩
    · cases h
      exact ⟨⟨⟨rfl, rfl, rfl⟩, rfl⟩, by decide, rfl⟩

theorem generateDesc_spec {mapInfo : TpceDmaMapInfo} {params : TpceDmaTransferParams} {size : U32}
    {err : Int} (h : generateDesc mapInfo params size info = .ok (err, info')) :
    (SameTransfer info info' ∧ info'.state = info.state) ∧ err ≤ 0 := by
  obtain ⟨verr, -, h⟩ := bind_eq_ok.mp h
  split at h
  · cases h
    exact ⟨⟨.refl info, rfl⟩, by decide⟩
  split at h
  · cases h
    exact ⟨⟨.refl info, rfl⟩, by decide⟩
  split at h
  · cases h
    exact ⟨⟨.refl info, rfl⟩, by decide⟩
  obtain ⟨⟨ret, desc⟩, -, h⟩ := bind_eq_ok.mp h
  dsimp only at h
  split at h
  · cases h
    exact ⟨⟨⟨rfl, rfl, rfl⟩, rfl⟩, by decide⟩
  · cases h
    exact ⟨⟨⟨rfl, rfl, rfl⟩, rfl⟩, by decide⟩

theorem copyToDma_spec (h : copyToDma info = .ok info') :
    (SameTransfer info info' ∧ info'.state = info.state) ∧ info'.descSize = info.descSize := by
  simp only [copyToDma] at h
  split at h
  · cases h
  · cases h
    exact ⟨⟨⟨rfl, rfl, rfl⟩, rfl⟩, rfl⟩

/-- How the descriptors come into an accepted buffer. -/
inductive Prepared (env : InitEnv) (mapInfo : TpceDmaMapInfo) (req : TpceDmaRequest)
    (info : TpceDmaInfo) : TpceDmaInfo → Prop
  | user (buf filled out : TpceDmaInfo) (huser : req.descriptors ≠ 0)
      (halloc : tpceDmaAllocDescriptorsMem env info
        (if tpceDmaHasTerminatingDescriptor req.params then descAllocSize req + descriptorSize
          else descAllocSize req) = (0, buf))
      (htake : takeUserDesc env mapInfo req buf = (0, filled)) (hcopy : copyToDma filled = .ok out) :
      Prepared env mapInfo req info out
  | generated (buf filled out : TpceDmaInfo) (hnull : req.descriptors = 0)
      (halloc : tpceDmaAllocDescriptorsMem env info
        (if tpceDmaHasTerminatingDescriptor req.params then descAllocSize req + descriptorSize
          else descAllocSize req) = (0, buf))
      (hgen : generateDesc mapInfo req.params (descAllocSize req) buf = .ok (0, filled))
      (hcopy : copyToDma filled = .ok out) : Prepared env mapInfo req info out

theorem prepareDesc_spec {mapInfo : TpceDmaMapInfo} {err : Int}
    (h : prepareDesc env mapInfo req info = .ok (err, info')) :
    (SameTransfer info info' ∧ info'.state = info.state) ∧ err ≤ 0 ∧
      (err = 0 → Prepared env mapInfo req info info') := by
  simp only [prepareDesc] at h
  cases halloc : tpceDmaAllocDescriptorsMem env info
      (if tpceDmaHasTerminatingDescriptor req.params then descAllocSize req + descriptorSize
        else descAllocSize req) with
  | mk err₁ buf =>
      obtain ⟨⟨hsame₁, hst₁⟩, hle₁, -⟩ := allocDescriptorsMem_spec halloc
      simp only [halloc] at h
      split at h
      · rename_i hne
        cases h
        exact ⟨⟨hsame₁, hst₁⟩, hle₁, fun h => absurd h hne⟩
      rename_i hzero
      obtain rfl : err₁ = 0 := not_not.mp hzero
      obtain ⟨⟨err₂, filled⟩, hfill, h⟩ := bind_eq_ok.mp h
      have hspec : (SameTransfer buf filled ∧ filled.state = buf.state) ∧ err₂ ≤ 0 := by
        split at hfill
        · obtain ⟨hs, hle, -⟩ := takeUserDesc_spec (Except.ok.inj hfill)
          exact ⟨hs, hle⟩
        · exact generateDesc_spec hfill
      obtain ⟨⟨hsame₂, hst₂⟩, hle₂⟩ := hspec
      dsimp only at h
      split at h
      · rename_i hne
        cases h
        exact ⟨⟨hsame₁.trans hsame₂, hst₂.trans hst₁⟩, hle₂, fun h => absurd h hne⟩
      rename_i hzero₂
      obtain rfl : err₂ = 0 := not_not.mp hzero₂
      obtain ⟨out, hcopy, h⟩ := bind_eq_ok.mp h
      cases h
      obtain ⟨⟨hsame₃, hst₃⟩, -⟩ := copyToDma_spec hcopy
      refine ⟨⟨(hsame₁.trans hsame₂).trans hsame₃, hst₃.trans (hst₂.trans hst₁)⟩, le_refl 0, fun _ => ?_⟩
      split at hfill
      · exact .user buf filled _ ‹_› halloc (Except.ok.inj hfill) hcopy
      · exact .generated buf filled _ (not_not.mp ‹_›) halloc hfill hcopy

/-- The channel data that an accepted request leaves, from the prepared ones. -/
def initializedInfo (info : TpceDmaInfo) (req : TpceDmaRequest) (obj : Nat) : TpceDmaInfo :=
  { info with params := req.params, mapInfo := some obj, state := .initialized }

/-- What an accepted request leaves. -/
structure Initialized (env : InitEnv) (dev : TpceDev) (c : Channel) (req : TpceDmaRequest)
    (obj : Nat) (mapInfo : TpceDmaMapInfo) (prep info : TpceDmaInfo) (dev' : TpceDev) : Prop where
  accepted : initDmaInfo env dev c req = .ok (c.val, dev')
  mapping : dev.dmaMappings req.id = some obj
  live : dev.mapInfos obj = some mapInfo
  prepared : Prepared env mapInfo req (dev.dmaInfo c) prep
  same : SameTransfer (dev.dmaInfo c) prep
  state : prep.state = (dev.dmaInfo c).state
  stream : req.params.transferMode = tpceDmaModeStream → tpceInitStreamInfo env.vmallocOk prep = (0, info)
  plain : req.params.transferMode ≠ tpceDmaModeStream → info = prep
  result : dev' = (dev.setInfo c (initializedInfo info req obj)).setMapInfo obj
    { mapInfo with activeChannel := c.val }

theorem initStreamInfo_spec {vmallocOk : Bool} {err : Int}
    (h : tpceInitStreamInfo vmallocOk info = (err, info')) :
    (err < 0 ∧ info' = info) ∨ (err = 0 ∧ info'.streamInfo.state = some ⟨0, 0⟩ ∧
      info'.streamInfo.stateRefs =
        (if info.streamInfo.state = none then 1 else refcountInc info.streamInfo.stateRefs) ∧
      info' = { info with streamInfo := info'.streamInfo }) := by
  simp only [tpceInitStreamInfo] at h
  split at h
  · rename_i hnone
    split at h
    · cases h
      exact .inr ⟨rfl, rfl, by rw [if_pos hnone], rfl⟩
    · cases h
      exact .inl ⟨by decide, rfl⟩
  · rename_i hsome
    cases h
    exact .inr ⟨rfl, rfl, (if_neg (by rw [hsome]; simp)).symm, rfl⟩

theorem initDmaInfo_cases {ret : Int} (h : initDmaInfo env dev c req = .ok (ret, dev')) :
    (ret < 0 ∧ ∃ info', (SameTransfer (dev.dmaInfo c) info' ∧ info'.state = (dev.dmaInfo c).state) ∧
      dev' = dev.setInfo c info') ∨
    (ret = c.val ∧ ∃ obj mapInfo prep info, Initialized env dev c req obj mapInfo prep info dev') := by
  have haccepted := h
  simp only [initDmaInfo] at h
  split at h
  · cases h
    exact .inl ⟨by decide, dev.dmaInfo c, ⟨.refl _, rfl⟩, (setInfo_self dev c).symm⟩
  rename_i obj hobj
  obtain ⟨mapInfo, hlive, h⟩ := bind_eq_ok.mp h
  obtain ⟨⟨err, prep⟩, hprep, h⟩ := bind_eq_ok.mp h
  obtain ⟨⟨hsame, hstate⟩, hle, hok⟩ := prepareDesc_spec hprep
  dsimp only at h
  split at h
  · rename_i hne
    cases h
    exact .inl ⟨lt_of_le_of_ne hle hne, prep, ⟨hsame, hstate⟩, rfl⟩
  rename_i hzero
  have hprepared := hok (not_not.mp hzero)
  by_cases hmode : req.params.transferMode = tpceDmaModeStream
  · simp only [if_pos hmode] at h
    cases hinit : tpceInitStreamInfo env.vmallocOk prep with
    | mk err₂ info =>
        simp only [hinit] at h
        rcases initStreamInfo_spec hinit with ⟨hneg, rfl⟩ | ⟨rfl, -⟩
        · rw [if_pos (Int.ne_of_lt hneg)] at h
          cases h
          exact .inl ⟨hneg, info, ⟨hsame, hstate⟩, rfl⟩
        · rw [if_neg (by simp)] at h
          cases h
          exact .inr ⟨rfl, obj, mapInfo, prep, info, haccepted, hobj, mapInfo_eq_ok.mp hlive, hprepared, hsame,
            hstate, fun _ => hinit, fun h => absurd hmode h, rfl⟩
  · simp only [if_neg hmode] at h
    rw [if_neg (by simp)] at h
    cases h
    exact .inr ⟨rfl, obj, mapInfo, prep, prep, haccepted, hobj, mapInfo_eq_ok.mp hlive, hprepared, hsame,
      hstate, fun h => absurd h hmode, fun _ => rfl, rfl⟩

theorem linkAddr_eq (table : AlteraPciePageTable) (info : TpceDmaInfo) :
    (translateDescriptorLinkAddr table info).2.2 = { info with
      descBusAddrTranslated := (translateDescriptorLinkAddr table info).2.2.descBusAddrTranslated } := by
  simp only [translateDescriptorLinkAddr]
  split
  · rfl
  · rfl

theorem rwAddr_eq (slot : ℤ) (table : AlteraPciePageTable) (info : TpceDmaInfo) :
    (translateDescriptorRwAddr slot table info).2.2 = { info with
      descDma := (translateDescriptorRwAddr slot table info).2.2.descDma } := by
  simp only [translateDescriptorRwAddr]
  split
  · split
    · rfl
    · rfl
  · split
    · rfl
    · rfl

theorem linkAddr_spec {table table' : AlteraPciePageTable} {ret : Int}
    (h : translateDescriptorLinkAddr table info = (ret, table', info')) :
    (SameTransfer info info' ∧ info'.state = info.state ∧ info'.descSize = info.descSize) ∧ ret ≤ 0 := by
  simp only [translateDescriptorLinkAddr] at h
  split at h
  · cases h
    exact ⟨⟨.refl info, rfl, rfl⟩, by decide⟩
  · cases h
    exact ⟨⟨⟨rfl, rfl, rfl⟩, rfl, rfl⟩, by decide⟩

theorem rwAddr_spec {slot : Int} {table table' : AlteraPciePageTable} {ret : Int}
    (h : translateDescriptorRwAddr slot table info = (ret, table', info')) :
    SameTransfer info info' ∧ info'.state = info.state ∧ info'.descSize = info.descSize := by
  simp only [translateDescriptorRwAddr] at h
  split at h
  · split at h
    · cases h
      exact ⟨⟨rfl, rfl, rfl⟩, rfl, rfl⟩
    · cases h
      exact ⟨⟨rfl, rfl, rfl⟩, rfl, rfl⟩
  · split at h
    · cases h
      exact ⟨.refl info, rfl, rfl⟩
    · cases h
      exact ⟨.refl info, rfl, rfl⟩

/-- Starting a channel touches the page table and the channel's own data. -/
theorem dmaStart_spec {ret : Int} (hinit : (dev.dmaInfo c).state = .initialized)
    (h : dmaStart env dev c = (ret, dev')) :
    ∃ table info', dev' = { dev with pageTable := table }.setInfo c info' ∧
      SameTransfer (dev.dmaInfo c) info' ∧ info'.descSize = (dev.dmaInfo c).descSize ∧
      ((ret < 0 ∧ (info'.state = .initialized ∨ info'.state = .error)) ∨
        (ret = 0 ∧ info'.state = .initialized)) := by
  simp only [dmaStart] at h
  rw [if_neg (not_not.mpr hinit)] at h
  cases hlink : translateDescriptorLinkAddr dev.pageTable (dev.dmaInfo c) with
  | mk ret₁ r₁ =>
      obtain ⟨table₁, info₁⟩ := r₁
      obtain ⟨⟨hsame₁, hst₁, hsize₁⟩, -⟩ := linkAddr_spec hlink
      simp only [hlink] at h
      split at h
      · rename_i hneg
        cases h
        exact ⟨table₁, dev.dmaInfo c, by simp [TpceDev.setInfo], .refl _, rfl, .inl ⟨hneg, .inl hinit⟩⟩
      cases hrw : translateDescriptorRwAddr env.slot table₁ info₁ with
      | mk ret₂ r₂ =>
          obtain ⟨table₂, info₂⟩ := r₂
          obtain ⟨hsame₂, hst₂, hsize₂⟩ := rwAddr_spec hrw
          simp only [hrw] at h
          split at h
          · rename_i hneg
            cases h
            exact ⟨_, _, rfl, hsame₁.trans ⟨hsame₂.params, hsame₂.streamInfo, hsame₂.mapInfo⟩,
              hsize₂.trans hsize₁, .inl ⟨hneg, .inr rfl⟩⟩
          · cases h
            exact ⟨_, _, rfl, hsame₁.trans ⟨hsame₂.params, hsame₂.streamInfo, hsame₂.mapInfo⟩,
              hsize₂.trans hsize₁, .inr ⟨rfl, hst₂.trans (hst₁.trans hinit)⟩⟩

/-- Both translations of `dma_start` succeed: the page table has room for the
descriptor buffer, the request reads from the device and there is room for the
pages of its descriptors. -/
def Translates (env : InitEnv) (table : AlteraPciePageTable) (info : TpceDmaInfo) : Prop :=
  let link := translateDescriptorLinkAddr table info
  0 ≤ link.1 ∧ 0 ≤ (translateDescriptorRwAddr env.slot link.2.1 link.2.2).1

theorem dmaStart_eq_zero (hinit : (dev.dmaInfo c).state = .initialized) :
    (dmaStart env dev c).1 = 0 ↔ Translates env dev.pageTable (dev.dmaInfo c) := by
  simp only [dmaStart, Translates]
  rw [if_neg (not_not.mpr hinit)]
  cases hlink : translateDescriptorLinkAddr dev.pageTable (dev.dmaInfo c) with
  | mk ret₁ r₁ =>
      dsimp only
      split
      · dsimp only
        omega
      cases hrw : translateDescriptorRwAddr env.slot r₁.1 r₁.2 with
      | mk ret₂ r₂ =>
          dsimp only
          split
          · dsimp only
            omega
          · dsimp only
            omega

theorem streamDispatch_eq_zero (hinit : (dev.dmaInfo c).state = .initialized)
    (hmode : (dev.dmaInfo c).params.transferMode = tpceDmaModeStream) :
    (dmaDispatch env dev c).1 = 0 ↔ Translates env dev.pageTable (dev.dmaInfo c) := by
  have hstream : ((enableStreamIrq dev c).dmaInfo c).state = .initialized := hinit
  have hstart : (dmaStart env (enableStreamIrq dev c) c).1 = 0 ↔
      Translates env dev.pageTable (dev.dmaInfo c) := dmaStart_eq_zero hstream
  simp only [dmaDispatch]
  rw [if_neg (by rw [hmode]; decide), if_pos hmode, ← hstart]
  simp only [tpceDmaStreamStart]
  by_cases h : (dmaStart env (enableStreamIrq dev c) c).1 = 0
  · simp [h]
  · simp [h]

theorem defaultDispatch_eq_zero (hinit : (dev.dmaInfo c).state = .initialized)
    (hmode : (dev.dmaInfo c).params.transferMode = tpceDmaModeDefault) :
    (dmaDispatch env dev c).1 = 0 ↔ Translates env dev.pageTable (dev.dmaInfo c) := by
  simp only [dmaDispatch]
  rw [if_pos hmode, ← dmaStart_eq_zero hinit]
  simp only [tpceDmaStart]
  by_cases h : (dmaStart env dev c).1 = 0
  · simp [h]
  · simp [h]

def startMask (dev : TpceDev) (c : Channel) : U32 :=
  if (dev.dmaInfo c).params.transferMode = tpceDmaModeStream then dev.fastIrqMask ||| tpceIrqDma c
  else dev.fastIrqMask

/-- Dispatching an initialised channel runs it, or fails and leaves the mask
as it is during the start. -/
theorem dmaDispatch_spec {ret : Int} (hinit : (dev.dmaInfo c).state = .initialized)
    (h : dmaDispatch env dev c = (ret, dev')) :
    ∃ table info', dev' = { dev with pageTable := table, fastIrqMask := startMask dev c }.setInfo c info' ∧
      SameTransfer (dev.dmaInfo c) info' ∧ info'.descSize = (dev.dmaInfo c).descSize ∧
      ((ret < 0 ∧ (info'.state = .initialized ∨ info'.state = .error)) ∨
        (ret = 0 ∧ info'.state = .running)) := by
  simp only [dmaDispatch] at h
  split at h
  · rename_i hmode
    have hmask : startMask dev c = dev.fastIrqMask := if_neg (by rw [hmode]; decide)
    simp only [tpceDmaStart] at h
    cases hstart : dmaStart env dev c with
    | mk ret₁ dev₁ =>
        obtain ⟨table, info', rfl, hsame, hsize, hres⟩ := dmaStart_spec hinit hstart
        simp only [hstart] at h
        rw [hmask]
        rcases hres with ⟨hneg, hst⟩ | ⟨rfl, hst⟩
        · rw [if_pos (Int.ne_of_lt hneg)] at h
          cases h
          exact ⟨table, info', rfl, hsame, hsize, .inl ⟨hneg, hst⟩⟩
        · rw [if_neg (by simp)] at h
          cases h
          exact ⟨table, { info' with state := .running }, by simp [setRunning],
            ⟨hsame.params, hsame.streamInfo, hsame.mapInfo⟩, hsize, .inr ⟨rfl, rfl⟩⟩
  · split at h
    · rename_i hmode
      have hmask : startMask dev c = dev.fastIrqMask ||| tpceIrqDma c := if_pos hmode
      simp only [tpceDmaStreamStart] at h
      cases hstart : dmaStart env (enableStreamIrq dev c) c with
      | mk ret₁ dev₁ =>
          have hstream : ((enableStreamIrq dev c).dmaInfo c).state = .initialized := hinit
          obtain ⟨table, info', rfl, hsame, hsize, hres⟩ := dmaStart_spec hstream hstart
          simp only [hstart] at h
          rw [hmask]
          rcases hres with ⟨hneg, hst⟩ | ⟨rfl, hst⟩
          · rw [if_pos (Int.ne_of_lt hneg)] at h
            cases h
            exact ⟨table, info', rfl, hsame, hsize, .inl ⟨hneg, hst⟩⟩
          · rw [if_neg (by simp)] at h
            cases h
            exact ⟨table, { info' with state := .running }, by simp [setRunning, enableStreamIrq],
              ⟨hsame.params, hsame.streamInfo, hsame.mapInfo⟩, hsize, .inr ⟨rfl, rfl⟩⟩
    · rename_i hmode
      cases h
      have hmask : startMask dev c = dev.fastIrqMask := if_neg hmode
      rw [hmask]
      exact ⟨dev.pageTable, dev.dmaInfo c, by simp, .refl _, rfl, .inl ⟨by decide, .inl hinit⟩⟩

theorem rwAddr_length (slot : ℤ) (table : AlteraPciePageTable) (info : TpceDmaInfo) :
    (translateDescriptorRwAddr slot table info).2.2.descDma.length = info.descDma.length := by
  simp only [translateDescriptorRwAddr]
  split
  · have hloop := length_translateRwLoop info.params.channel ⟨table, 0, slot, 0⟩
      (info.descDma.take (info.descActive / descriptorSize).toNat)
    split
    · rw [List.length_append, hloop, ← List.length_append, List.take_append_drop]
    · rw [List.length_append, hloop, ← List.length_append, List.take_append_drop]
  · split
    · rfl
    · rfl

/-- The start rewrites the copy of the descriptors and not the buffer that the
interrupt handler reads. -/
theorem dmaStart_info (env : InitEnv) (dev : TpceDev) (c : Channel) :
    ∃ descDma translated state, (dmaStart env dev c).2.dmaInfo c = { dev.dmaInfo c with
      descDma := descDma, descBusAddrTranslated := translated, state := state } ∧
        descDma.length = (dev.dmaInfo c).descDma.length := by
  have hlink := linkAddr_eq dev.pageTable (dev.dmaInfo c)
  simp only [dmaStart]
  split
  · exact ⟨_, _, _, rfl, rfl⟩
  cases hlinked : translateDescriptorLinkAddr dev.pageTable (dev.dmaInfo c) with
  | mk ret₁ r₁ =>
      obtain ⟨table₁, info₁⟩ := r₁
      rw [hlinked] at hlink
      have hrw := rwAddr_eq env.slot table₁ info₁
      have hlen := rwAddr_length env.slot table₁ info₁
      dsimp only
      split
      · exact ⟨_, _, _, rfl, rfl⟩
      cases htranslated : translateDescriptorRwAddr env.slot table₁ info₁ with
      | mk ret₂ r₂ =>
          obtain ⟨table₂, info₂⟩ := r₂
          rw [htranslated] at hrw hlen
          dsimp only at hlink hrw hlen ⊢
          rw [hlink] at hlen
          split
          · refine ⟨info₂.descDma, info₁.descBusAddrTranslated, .error, ?_, hlen⟩
            rw [setInfo_dmaInfo, hrw, hlink]
          · refine ⟨(buildDescriptorLinks info₂).descDma, info₁.descBusAddrTranslated, (dev.dmaInfo c).state, ?_, ?_⟩
            · rw [setInfo_dmaInfo, hrw, hlink]
              rfl
            · rw [buildDescriptorLinks, List.length_mapIdx, hlen]

theorem setRunning_info (dev : TpceDev) (c : Channel) :
    (setRunning dev c).dmaInfo c = { dev.dmaInfo c with state := .running } :=
  setInfo_dmaInfo dev c { dev.dmaInfo c with state := .running }

theorem dmaDispatch_info (env : InitEnv) (dev : TpceDev) (c : Channel) :
    ∃ descDma translated state, (dmaDispatch env dev c).2.dmaInfo c = { dev.dmaInfo c with
      descDma := descDma, descBusAddrTranslated := translated, state := state } ∧
        descDma.length = (dev.dmaInfo c).descDma.length := by
  simp only [dmaDispatch]
  split
  · obtain ⟨descDma, translated, state, hinfo, hlen⟩ := dmaStart_info env dev c
    simp only [tpceDmaStart]
    split
    · exact ⟨descDma, translated, state, hinfo, hlen⟩
    · exact ⟨descDma, translated, .running, by rw [setRunning_info, hinfo], hlen⟩
  split
  · obtain ⟨descDma, translated, state, hinfo, hlen⟩ := dmaStart_info env (enableStreamIrq dev c) c
    simp only [tpceDmaStreamStart]
    split
    · exact ⟨descDma, translated, state, hinfo, hlen⟩
    · exact ⟨descDma, translated, .running, by rw [setRunning_info, hinfo]; rfl, hlen⟩
  · exact ⟨_, _, _, rfl, rfl⟩

def abortedState (state : TpceDmaChannelState) : TpceDmaChannelState :=
  if state = .running then .error else state

theorem abort_eq (dev : TpceDev) (c : Channel) :
    tpceDmaAbort dev c = { dev with fastIrqMask := dev.fastIrqMask &&& ~~~tpceIrqDma c }.setInfo c
      { dev.dmaInfo c with state := abortedState (dev.dmaInfo c).state } := by
  unfold tpceDmaAbort disableStreamIrq abortedState
  dsimp only
  split
  · simp [TpceDev.setInfo]
  · rename_i h
    rw [if_pos (not_not.mp h)]

def resetInfo (info : TpceDmaInfo) : TpceDmaInfo :=
  let info := if info.params.transferMode = tpceDmaModeStream then tpceFreeStreamInfo info else info
  { info with mapInfo := none, descSize := 0, state := .idle }

def releasedInfos (mapInfos : Nat → Option TpceDmaMapInfo) : Option Nat → Nat → Option TpceDmaMapInfo
  | none => mapInfos
  | some obj => Function.update mapInfos obj
      ((mapInfos obj).map fun m => { m with activeChannel := tpceMapInactive })

def resetMask (dev : TpceDev) (c : Channel) : U32 :=
  if (dev.dmaInfo c).state = .running then dev.fastIrqMask &&& ~~~tpceIrqDma c else dev.fastIrqMask

/-- Resetting a channel that is not idle. A mapping that it still points to
has to be in memory. -/
theorem resetDmaInfo_spec (h : resetDmaInfo dev c = .ok dev') :
    ((dev.dmaInfo c).state = .idle ∧ dev' = dev) ∨
    ((dev.dmaInfo c).state ≠ .idle ∧
      (∀ obj, (dev.dmaInfo c).mapInfo = some obj → ∃ m, dev.mapInfos obj = some m) ∧
      dev' = { dev with
        pageTable := pciePageFreeByChannelId dev.pageTable c.id
        fastIrqMask := resetMask dev c
        mapInfos := releasedInfos dev.mapInfos (dev.dmaInfo c).mapInfo
        dmaInfo := Function.update dev.dmaInfo c (resetInfo (dev.dmaInfo c)) }) := by
  simp only [resetDmaInfo] at h
  split at h
  · rename_i hidle
    cases h
    exact .inl ⟨hidle, rfl⟩
  rename_i hidle
  refine .inr ⟨hidle, ?_⟩
  have habort : (if (dev.dmaInfo c).state = .running then tpceDmaAbort dev c else dev) =
      { dev with fastIrqMask := resetMask dev c }.setInfo c
        { dev.dmaInfo c with state := abortedState (dev.dmaInfo c).state } := by
    simp only [resetMask]
    split
    · exact abort_eq dev c
    · rename_i hrun
      simp [TpceDev.setInfo, abortedState, hrun]
  rw [habort] at h
  obtain ⟨dev₁, hrel, h⟩ := bind_eq_ok.mp h
  simp only [releaseMapInfo] at hrel
  simp only [TpceDev.setInfo, Function.update_self] at hrel
  cases hobj : (dev.dmaInfo c).mapInfo with
  | none =>
      simp only [hobj] at hrel
      cases hrel
      cases h
      refine ⟨fun obj hsome => (Option.some_ne_none obj hsome.symm).elim, ?_⟩
      by_cases hmode : (dev.dmaInfo c).params.transferMode = tpceDmaModeStream
      · simp [TpceDev.setInfo, resetInfo, releasedInfos, tpceFreeStreamInfo, hmode]
      · simp [TpceDev.setInfo, resetInfo, releasedInfos, hmode]
  | some obj =>
      simp only [hobj] at hrel
      obtain ⟨m, hm, hrel⟩ := bind_eq_ok.mp hrel
      have hm : dev.mapInfos obj = some m := mapInfo_eq_ok.mp hm
      cases hrel
      cases h
      refine ⟨fun o ho => ⟨m, Option.some.inj ho ▸ hm⟩, ?_⟩
      by_cases hmode : (dev.dmaInfo c).params.transferMode = tpceDmaModeStream
      · simp [TpceDev.setInfo, TpceDev.setMapInfo, resetInfo, releasedInfos, tpceFreeStreamInfo, hm, hmode]
      · simp [TpceDev.setInfo, TpceDev.setMapInfo, resetInfo, releasedInfos, hm, hmode]

end TpceDrv.ChannelSteps
