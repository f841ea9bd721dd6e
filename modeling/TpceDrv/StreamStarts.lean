import TpceDrv.ActiveDescriptors
import TpceDrv.GeneratorEnds
import TpceDrv.PageSlots

namespace TpceDrv.StreamStarts

open Descriptor DmaParams DmaInfo Mapping Device DescriptorCheck Generation Planning Translation RoundTrip PageSlots
open ChannelControl ChannelSteps Requests RequestSteps ActiveDescriptors Reach GeneratorEnds Library.Cuts

variable {env : InitEnv} {dev dev' : TpceDev} {c : Channel} {req : TpceDmaRequest} {m : TpceDmaMapInfo}
variable {info info' prep : TpceDmaInfo} {obj : ℕ} {fileCtx : Option ℕ}

/-- The size of the buffer that the descriptors of a request take -/
def descBufferSize (req : TpceDmaRequest) : U32 :=
  if tpceDmaHasTerminatingDescriptor req.params then descAllocSize req + descriptorSize else descAllocSize req

/-- Where the device finds the descriptors: in the buffer of the channel, or in a new
one when that is too small -/
def descBuffer (env : InitEnv) (info : TpceDmaInfo) (req : TpceDmaRequest) : U64 :=
  if descBufferSize req ≤ info.descCapacity then info.descBusAddr else env.dmaAllocCoherent.getD 0

/-- The pages that the descriptors write to, from the request and its mapping -/
def transferPages (env : InitEnv) (req : TpceDmaRequest) (mapInfo : TpceDmaMapInfo) : List U64 :=
  if req.descriptors ≠ 0 then
    (List.range (req.descriptorsSize / descriptorSize).toNat).map fun i => pageOf (tpceDescGetWrite (env.userDesc i))
  else (pieces (pieceLength req.params) (requestReach req.params mapInfo)).map fun p => pageOf p.1

/-- The page table can take the request: it reads from the device, and there are slots
for the descriptor buffer and the pages of the transfer. -/
def TableTakes (env : InitEnv) (dev : TpceDev) (c : Channel) (req : TpceDmaRequest)
    (mapInfo : TpceDmaMapInfo) : Prop :=
  req.params.direction = tpceDmaFromDevice ∧
    Fits dev.pageTable req.params.channel (descBuffer env (dev.dmaInfo c) req) (transferPages env req mapInfo)

theorem allocDescriptorsMem_addr {size : U32} (h : tpceDmaAllocDescriptorsMem env info size = (0, info')) :
    info'.descBusAddr = if size ≤ info.descCapacity then info.descBusAddr else env.dmaAllocCoherent.getD 0 := by
  simp only [tpceDmaAllocDescriptorsMem] at h
  split at h
  · cases h
  split at h
  · rename_i hfits
    cases h
    rw [if_pos hfits]
  · rename_i hfits
    rw [if_neg hfits]
    split at h
    · rename_i addr hnew
      cases h
      rw [hnew]
      rfl
    · cases h

theorem copyToDma_eq (h : copyToDma info = .ok info') : info.descSize ≤ info.descCapacity ∧ info' = { info with
    descDma := info.desc.take (info.descSize / descriptorSize).toNat ++
      info.descDma.drop (info.descSize / descriptorSize).toNat } := by
  simp only [copyToDma] at h
  split at h
  · cases h
  · rename_i hfits
    cases h
    exact ⟨BitVec.not_lt.mp hfits, rfl⟩

theorem takeUserDesc_eq (h : takeUserDesc env m req info = (0, info')) : info' = { info with
    desc := (List.range (req.descriptorsSize / descriptorSize).toNat).map env.userDesc ++
      info.desc.drop (req.descriptorsSize / descriptorSize).toNat
    descActive := req.descriptorsSize } := by
  unfold takeUserDesc at h
  split at h
  · cases h
  dsimp only at h
  split at h
  · cases h
  · cases h
    rfl

/-- The copies of the active descriptors, if there are so many and they are copied -/
theorem copyToDma_active (h : copyToDma info = .ok info')
    (hn : (info.descActive / descriptorSize).toNat ≤ (info.descSize / descriptorSize).toNat)
    (hlength : (info.descActive / descriptorSize).toNat ≤ info.desc.length) :
    info'.descDma.take (info'.descActive / descriptorSize).toNat = info'.active := by
  obtain ⟨-, rfl⟩ := copyToDma_eq h
  dsimp only
  rw [List.take_append_of_le_length (by rw [List.length_take]; omega), List.take_take, Nat.min_eq_left hn]
  rfl

/-- The buffer behind `init_dma_info`, with the copies of the active descriptors -/
theorem prepared_buffer (h : Prepared env m req info prep) :
    prep.descBusAddr = descBuffer env info req ∧
      ((prep.descActive / descriptorSize).toNat ≤ (prep.descSize / descriptorSize).toNat →
        prep.descDma.take (prep.descActive / descriptorSize).toNat = prep.active) := by
  cases h with
  | user buf filled _ huser halloc htake hcopy =>
      obtain ⟨-, hprep⟩ := copyToDma_eq hcopy
      have haddr := allocDescriptorsMem_addr halloc
      have hfilled := takeUserDesc_eq htake
      have hlength : (filled.descActive / descriptorSize).toNat ≤ filled.desc.length := by
        rw [hfilled]
        simp
      refine ⟨?_, fun hle => copyToDma_active hcopy ?_ hlength⟩
      · rw [hprep, hfilled]
        exact haddr
      · rw [hprep] at hle
        exact hle
  | generated buf filled _ hnull halloc hgen hcopy =>
      obtain ⟨-, hprep⟩ := copyToDma_eq hcopy
      have haddr := allocDescriptorsMem_addr halloc
      obtain ⟨-, ret, desc, hgenerate, hret, hfilled⟩ := generateDesc_ok hgen
      have hlength : (filled.descActive / descriptorSize).toNat ≤ filled.desc.length := by
        have hcount := (tpceGenerateDescriptors_length hgenerate).2 hret
        obtain ⟨rfl, hmax, -⟩ := tpceGenerateDescriptors_reach hgenerate hret
        rw [hfilled]
        dsimp only
        rw [(plannedCount_size hmax).2]
        exact hcount
      refine ⟨?_, fun hle => copyToDma_active hcopy ?_ hlength⟩
      · rw [hprep, hfilled]
        exact haddr
      · rw [hprep] at hle
        exact hle

/-- A stream has no descriptor behind its active ones. -/
theorem prepared_stream (h : Prepared env m req info prep) (hmode : req.params.transferMode = tpceDmaModeStream) :
    prep.descSize = prep.descActive := by
  have hlast : tpceDmaHasTerminatingDescriptor req.params = false := by
    simp [tpceDmaHasTerminatingDescriptor, hmode]
  cases h with
  | user buf filled _ huser halloc htake hcopy =>
      obtain ⟨-, hprep⟩ := copyToDma_eq hcopy
      rw [hlast, if_neg Bool.false_ne_true, descAllocSize, if_pos huser] at halloc
      have hsize := ((allocDescriptorsMem_spec halloc).2.2 rfl).1
      rw [hprep, takeUserDesc_eq htake]
      exact hsize
  | generated buf filled _ hnull halloc hgen hcopy =>
      obtain ⟨-, hprep⟩ := copyToDma_eq hcopy
      obtain ⟨-, ret, desc, -, -, hfilled⟩ := generateDesc_ok hgen
      rw [hprep, hfilled, hlast]
      rfl

/-- The active descriptors write to the pages of the transfer. -/
theorem active_pages (h : Prepared env m req info prep) (hdir : req.params.direction = tpceDmaFromDevice) :
    (prep.active.map fun desc => pageOf (tpceDescGetWrite desc)) = transferPages env req m := by
  obtain ⟨huser, hsupplied⟩ | ⟨hnull, hgenerated⟩ := prepared_cases h (.inr hdir)
  · rw [hsupplied.active, transferPages, if_pos huser, List.map_map]
    rfl
  · have hhost : (fun desc => pageOf (tpceDescGetWrite desc)) =
        (fun p : U64 × ℕ => pageOf p.1) ∘ hostInterval req.params.direction := by
      funext desc
      rw [Function.comp_apply, hostInterval, hostAddr, if_pos hdir]
    rw [hhost, ← List.map_map, hgenerated.intervals, transferPages, if_neg (not_not.mpr hnull)]

/-- A stream that has been set up is translated exactly if the page table could take it
before. -/
theorem stream_translates_iff (hacc : Initialized env dev c req obj m prep info dev')
    (hc : c.val = req.params.channel.toNat) (hmode : req.params.transferMode = tpceDmaModeStream) :
    Translates env dev'.pageTable (dev'.dmaInfo c) ↔ TableTakes env dev c req m := by
  obtain ⟨haddr, hcopied⟩ := prepared_buffer hacc.prepared
  have hcopied := hcopied (le_of_eq (by rw [prepared_stream hacc.prepared hmode]))
  have hinfo : info = { prep with streamInfo := info.streamInfo } := by
    obtain ⟨hneg, -⟩ | ⟨-, -, -, hinfo⟩ := initStreamInfo_spec (hacc.stream hmode)
    · omega
    · exact hinfo
  have hchannel : req.params.channel ≠ uint8Max := by
    intro h
    rw [h] at hc
    exact absurd c.isLt (by rw [hc]; decide)
  have htable : dev'.pageTable = dev.pageTable := by
    rw [hacc.result]
    rfl
  rw [initialized_info hacc, htable, hinfo, translates_iff hchannel, TableTakes]
  refine and_congr_right fun hdir => ?_
  have hpages : activePages (initializedInfo { prep with streamInfo := info.streamInfo } req obj) =
      transferPages env req m := by
    rw [← active_pages hacc.prepared hdir, ← hcopied]
    rfl
  rw [hpages]
  change Fits _ _ prep.descBusAddr _ ↔ _
  rw [haddr]
  exact Iff.rfl

/-- What the buffer for the descriptors holds before they come in -/
def descBufferMem (info : TpceDmaInfo) (req : TpceDmaRequest) : List TpceDmaDescriptor :=
  if descBufferSize req ≤ info.descCapacity then info.desc
  else List.replicate (descBufferSize req / descriptorSize).toNat default

/-- The descriptors of the request are copied and lie in the mapping, or they are
planned from valid parameters and all that the generator writes fits into the buffer. -/
def Describes (env : InitEnv) (info : TpceDmaInfo) (req : TpceDmaRequest) (mapInfo : TpceDmaMapInfo) : Prop :=
  if req.descriptors ≠ 0 then
    env.copyOk = true ∧ ∀ i < (req.descriptorsSize / descriptorSize).toNat,
      (env.userDesc i).transferLength ≠ 0 ∧
        (hostAddr req.params.direction (env.userDesc i)).toNat + (env.userDesc i).transferLength.toNat < 2 ^ 64 ∧
          ∃ sg ∈ mapInfo.sgt.dmaEntries,
            InEntry (hostAddr req.params.direction (env.userDesc i)) (env.userDesc i).transferLength.toNat sg
  else
    tpceValidateDmaParams req.params mapInfo = .ok 0 ∧
      plannedCount req.params mapInfo ≤ (descAllocSize req / descriptorSize).toNat ∧
        tpceDmaMapNumRanges mapInfo ≤ mapInfo.sgt.sgl.slots.length ∧
          plannedCount req.params mapInfo ≤ (descBufferMem info req).length ∧
            Fills (pieceLength req.params) (fixedLength req.params) (plannedCount req.params mapInfo)
              (descBufferMem info req).length (partsFrom req.params mapInfo mapInfo.sgt.sgl.slots)

/-- A stream request finds memory for its descriptors, the descriptors and a stream
page. -/
structure SetsUp (env : InitEnv) (dev : TpceDev) (c : Channel) (req : TpceDmaRequest) (mapInfo : TpceDmaMapInfo) :
    Prop where
  size : descBufferSize req ≠ 0 ∧ (descBufferSize req).toNat ≤ 2 ^ 31 - 1
  memory : descBufferSize req ≤ (dev.dmaInfo c).descCapacity ∨ (env.kvzallocOk = true ∧ env.dmaAllocCoherent ≠ none)
  descriptors : Describes env (dev.dmaInfo c) req mapInfo
  page : (dev.dmaInfo c).streamInfo.state ≠ none ∨ env.vmallocOk = true

theorem allocDescriptorsMem_ok {buf : TpceDmaInfo}
    (h : tpceDmaAllocDescriptorsMem env info (descBufferSize req) = (0, buf)) :
    ((descBufferSize req ≠ 0 ∧ (descBufferSize req).toNat ≤ 2 ^ 31 - 1) ∧
      (descBufferSize req ≤ info.descCapacity ∨ (env.kvzallocOk = true ∧ env.dmaAllocCoherent ≠ none))) ∧
      buf.desc = descBufferMem info req ∧ descBufferSize req ≤ buf.descCapacity := by
  simp only [tpceDmaAllocDescriptorsMem] at h
  split at h
  · cases h
  rename_i hsize
  obtain ⟨hne, hle⟩ := not_or.mp hsize
  split at h
  · rename_i hfits
    cases h
    exact ⟨⟨⟨hne, Nat.not_lt.mp hle⟩, .inl hfits⟩, (if_pos hfits).symm, hfits⟩
  · rename_i hfits
    split at h
    · rename_i addr hkvz hnew
      cases h
      refine ⟨⟨⟨hne, Nat.not_lt.mp hle⟩, .inr ⟨hkvz, ?_⟩⟩, (if_neg hfits).symm, BitVec.le_refl _⟩
      rw [hnew]
      exact Option.some_ne_none addr
    · cases h

theorem allocDescriptorsMem_exists (hsize : descBufferSize req ≠ 0 ∧ (descBufferSize req).toNat ≤ 2 ^ 31 - 1)
    (hmemory : descBufferSize req ≤ info.descCapacity ∨ (env.kvzallocOk = true ∧ env.dmaAllocCoherent ≠ none)) :
    ∃ buf, tpceDmaAllocDescriptorsMem env info (descBufferSize req) = (0, buf) := by
  simp only [tpceDmaAllocDescriptorsMem]
  rw [if_neg (not_or.mpr ⟨hsize.1, Nat.not_lt.mpr hsize.2⟩)]
  by_cases hfits : descBufferSize req ≤ info.descCapacity
  · exact ⟨_, if_pos hfits⟩
  · obtain ⟨hkvz, hnew⟩ := hmemory.resolve_left hfits
    obtain ⟨addr, haddr⟩ := Option.ne_none_iff_exists'.mp hnew
    rw [if_neg hfits, hkvz, haddr]
    exact ⟨_, rfl⟩

theorem takeUserDesc_iff (hdir : req.params.direction = tpceDmaToDevice ∨ req.params.direction = tpceDmaFromDevice)
    (huser : req.descriptors ≠ 0) {start : TpceDmaInfo} :
    (∃ filled, takeUserDesc env m req info = (0, filled)) ↔ Describes env start req m := by
  simp only [Describes, if_pos huser]
  constructor
  · rintro ⟨filled, h⟩
    obtain ⟨hactive, hchecked, -⟩ := takeUserDesc_ok hdir h
    refine ⟨?_, fun i hi => hchecked _ ?_⟩
    · unfold takeUserDesc at h
      split at h
      · cases h
      · rename_i hcopy
        simpa using hcopy
    · rw [hactive]
      exact List.mem_map.mpr ⟨i, List.mem_range.mpr hi, rfl⟩
  · rintro ⟨hcopy, hchecked⟩
    have hvalid : tpceValidateDescMem m ((List.range (req.descriptorsSize / descriptorSize).toNat).map env.userDesc ++
        info.desc.drop (req.descriptorsSize / descriptorSize).toNat) (req.descriptorsSize / descriptorSize).toNat
        (req.params.direction = tpceDmaToDevice) = 0 := by
      refine tpceValidateDescMem_iff.mpr fun desc hdesc => ?_
      rw [List.take_left' (by simp)] at hdesc
      obtain ⟨i, hi, rfl⟩ := List.mem_map.mp hdesc
      simp only [hostAddr_eq_checkedAddr hdir]
      exact hchecked i (List.mem_range.mp hi)
    exact ⟨_, by rw [takeUserDesc, if_neg (by simp [hcopy])]; exact if_neg (not_not.mpr hvalid)⟩

/-- A plan that fits into a buffer is a count that the generator can return. -/
theorem generated_nonneg {params : TpceDmaTransferParams} {descs out : List TpceDmaDescriptor} {size : U32} {ret : ℤ}
    (hfits : plannedCount params m ≤ (size / descriptorSize).toNat)
    (h : tpceGenerateDescriptors params m descs (size / descriptorSize) = .ok (ret, out)) : 0 ≤ ret := by
  obtain ⟨plan, hplan, h⟩ := bind_eq_ok.mp h
  obtain ⟨hnum, -⟩ := createDescriptorPlan_cases hplan
  have hle : plan.numDescriptors ≤ size / descriptorSize := BitVec.le_def.mpr (hnum ▸ hfits)
  rw [if_neg (BitVec.not_lt.mpr hle)] at h
  split at h
  · cases h
    exact le_refl 0
  · obtain ⟨chInfo, -, h⟩ := bind_eq_ok.mp h
    obtain ⟨zeroed, -, h⟩ := bind_eq_ok.mp h
    obtain ⟨filled, -, h⟩ := bind_eq_ok.mp h
    cases h
    have hsmall : (size / descriptorSize).toNat = size.toNat / 64 := BitVec.toNat_udiv
    have hlt := size.isLt
    have hint : plan.numDescriptors.toInt = plan.numDescriptors.toNat := BitVec.toInt_eq_toNat_of_lt (by omega)
    omega

theorem generateDesc_iff (hnull : req.descriptors = 0) {buf : TpceDmaInfo} (hbuf : buf.desc = descBufferMem info req) :
    (∃ filled, generateDesc m req.params (descAllocSize req) buf = .ok (0, filled)) ↔ Describes env info req m := by
  simp only [Describes, if_neg (not_not.mpr hnull)]
  constructor
  · rintro ⟨filled, h⟩
    obtain ⟨hvalid, ret, desc, hgenerate, hret, -⟩ := generateDesc_ok h
    obtain ⟨-, hfits, -⟩ := tpceGenerateDescriptors_reach hgenerate hret
    obtain ⟨chInfo, hvalidated⟩ := validated_of_zero hvalid
    rw [hbuf] at hgenerate
    exact ⟨hvalid, hfits, (generates_iff hvalidated.channel hfits).mp ⟨_, hgenerate⟩⟩
  · rintro ⟨hvalid, hfits, hends⟩
    obtain ⟨chInfo, hvalidated⟩ := validated_of_zero hvalid
    obtain ⟨⟨ret, out⟩, hgenerate⟩ := (generates_iff hvalidated.channel hfits).mpr hends
    have hret := generated_nonneg hfits hgenerate
    rw [← hbuf] at hgenerate
    exact ⟨_, bind_eq_ok.mpr ⟨0, hvalid, bind_eq_ok.mpr ⟨(ret, out), hgenerate, if_neg (Int.not_lt.mpr hret)⟩⟩⟩

theorem initStreamInfo_iff : (∃ info', tpceInitStreamInfo env.vmallocOk info = (0, info')) ↔
    info.streamInfo.state ≠ none ∨ env.vmallocOk = true := by
  simp only [tpceInitStreamInfo]
  cases info.streamInfo.state with
  | none =>
      cases env.vmallocOk with
      | true => exact iff_of_true ⟨_, rfl⟩ (.inr rfl)
      | false =>
          refine iff_of_false ?_ (by simp)
          rintro ⟨info', h⟩
          cases h
  | some s => exact iff_of_true ⟨_, rfl⟩ (.inl (Option.some_ne_none s))

theorem prepared_describes (h : Prepared env m req info prep)
    (hdir : req.params.direction = tpceDmaToDevice ∨ req.params.direction = tpceDmaFromDevice) :
    ((descBufferSize req ≠ 0 ∧ (descBufferSize req).toNat ≤ 2 ^ 31 - 1) ∧
      (descBufferSize req ≤ info.descCapacity ∨ (env.kvzallocOk = true ∧ env.dmaAllocCoherent ≠ none))) ∧
      Describes env info req m := by
  cases h with
  | user buf filled _ huser halloc htake hcopy =>
      exact ⟨(allocDescriptorsMem_ok halloc).1, (takeUserDesc_iff hdir huser).mp ⟨filled, htake⟩⟩
  | generated buf filled _ hnull halloc hgen hcopy =>
      obtain ⟨hmemory, hbuf, -⟩ := allocDescriptorsMem_ok halloc
      exact ⟨hmemory, (generateDesc_iff hnull hbuf).mp ⟨filled, hgen⟩⟩

theorem prepareDesc_ok {buf filled : TpceDmaInfo}
    (halloc : tpceDmaAllocDescriptorsMem env info (descBufferSize req) = (0, buf))
    (hfill : (if req.descriptors ≠ 0 then pure (takeUserDesc env m req buf)
      else generateDesc m req.params (descAllocSize req) buf) = .ok (0, filled))
    (hcopy : copyToDma filled = .ok prep) : prepareDesc env m req info = .ok (0, prep) := by
  simp only [descBufferSize] at halloc
  simp only [prepareDesc, halloc]
  exact bind_eq_ok.mpr ⟨(0, filled), hfill, bind_eq_ok.mpr ⟨prep, hcopy, rfl⟩⟩

/-- The descriptors of a stream never overrun the buffer that is copied to. -/
theorem prepareDesc_exists (hmode : req.params.transferMode = tpceDmaModeStream)
    (hdir : req.params.direction = tpceDmaToDevice ∨ req.params.direction = tpceDmaFromDevice)
    (hsize : descBufferSize req ≠ 0 ∧ (descBufferSize req).toNat ≤ 2 ^ 31 - 1)
    (hmemory : descBufferSize req ≤ info.descCapacity ∨ (env.kvzallocOk = true ∧ env.dmaAllocCoherent ≠ none))
    (hdescribes : Describes env info req m) : ∃ prep, prepareDesc env m req info = .ok (0, prep) := by
  have hlast : tpceDmaHasTerminatingDescriptor req.params = false := by
    simp [tpceDmaHasTerminatingDescriptor, hmode]
  obtain ⟨buf, halloc⟩ := allocDescriptorsMem_exists hsize hmemory
  obtain ⟨-, hbuf, hcapacity⟩ := allocDescriptorsMem_ok halloc
  have hbufSize := ((allocDescriptorsMem_spec halloc).2.2 rfl).1
  by_cases huser : req.descriptors ≠ 0
  · obtain ⟨filled, htake⟩ := (takeUserDesc_iff hdir huser).mpr hdescribes
    have hfits : filled.descSize ≤ filled.descCapacity := by
      rw [takeUserDesc_eq htake]
      exact hbufSize ▸ hcapacity
    exact ⟨_, prepareDesc_ok halloc ((if_pos huser).trans (congrArg Except.ok htake))
      (if_neg (BitVec.not_lt.mpr hfits))⟩
  · obtain ⟨filled, hgen⟩ := (generateDesc_iff (not_not.mp huser) hbuf).mpr hdescribes
    have hfits : filled.descSize ≤ filled.descCapacity := by
      obtain ⟨-, ret, desc, hgenerate, hret, rfl⟩ := generateDesc_ok hgen
      obtain ⟨rfl, hmax, -⟩ := tpceGenerateDescriptors_reach hgenerate hret
      have hbytes := (plannedCount_size hmax).1
      have hdiv : (descAllocSize req / descriptorSize).toNat = (descAllocSize req).toNat / 64 := BitVec.toNat_udiv
      rw [descBufferSize, hlast, if_neg Bool.false_ne_true] at hcapacity
      have hle := BitVec.le_def.mp hcapacity
      rw [hlast, if_neg Bool.false_ne_true]
      refine BitVec.le_def.mpr ?_
      rw [hbytes]
      dsimp only
      omega
    exact ⟨_, prepareDesc_ok halloc ((if_neg huser).trans hgen) (if_neg (BitVec.not_lt.mpr hfits))⟩

theorem initDmaInfo_ok (hobj : dev.dmaMappings req.id = some obj) (hlive : dev.mapInfos obj = some m)
    (hprep : prepareDesc env m req (dev.dmaInfo c) = .ok (0, prep))
    (hmode : req.params.transferMode = tpceDmaModeStream)
    (hinfo : tpceInitStreamInfo env.vmallocOk prep = (0, info)) :
    initDmaInfo env dev c req = .ok (c.val,
      (dev.setInfo c (initializedInfo info req obj)).setMapInfo obj { m with activeChannel := c.val }) := by
  simp only [initDmaInfo, hobj]
  refine bind_eq_ok.mpr ⟨m, mapInfo_eq_ok.mpr hlive, bind_eq_ok.mpr ⟨(0, prep), hprep, ?_⟩⟩
  simp only [hmode, hinfo]
  rfl

/-- A valid stream request is accepted exactly if it finds what it is set up with. -/
theorem setsUp_iff {fileCtx : Option ℕ} (hvalid : ValidRequest dev req fileCtx c m)
    (hmode : req.params.transferMode = tpceDmaModeStream) :
    (∃ dev₁, initDmaInfo env dev c req = .ok (c.val, dev₁)) ↔ SetsUp env dev c req m := by
  constructor
  · rintro ⟨dev₁, hinit⟩
    obtain ⟨hneg, -⟩ | ⟨-, obj, m', prep, info, hacc⟩ := initDmaInfo_cases hinit
    · omega
    obtain rfl := Option.some.inj ((xaLoad_of_initialized hacc).symm.trans hvalid.loaded)
    obtain ⟨⟨hsize, hmemory⟩, hdescribes⟩ := prepared_describes hacc.prepared hvalid.direction
    refine ⟨hsize, hmemory, hdescribes, ?_⟩
    rw [← hacc.same.streamInfo]
    exact initStreamInfo_iff.mp ⟨info, hacc.stream hmode⟩
  · intro h
    obtain ⟨obj, hobj, hlive⟩ := Option.bind_eq_some_iff.mp hvalid.loaded
    obtain ⟨prep, hprep⟩ := prepareDesc_exists hmode hvalid.direction h.size h.memory h.descriptors
    obtain ⟨⟨hsame, -⟩, -⟩ := prepareDesc_spec hprep
    have hpage := h.page
    rw [← hsame.streamInfo] at hpage
    obtain ⟨info, hinfo⟩ := initStreamInfo_iff.mpr hpage
    exact ⟨_, initDmaInfo_ok hobj hlive hprep hmode hinfo⟩

end TpceDrv.StreamStarts
