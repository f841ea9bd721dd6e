import TpceDrv.ChannelSteps
import TpceDrv.Planning
import TpceDrv.RequestSteps

namespace TpceDrv.ActiveDescriptors

open Descriptor DmaParams DmaInfo Mapping Device DescriptorCheck Generation Reach Planning
open ChannelControl ChannelSteps Requests RequestSteps Library.Cuts

variable {env : InitEnv} {dev dev' : TpceDev} {c : Channel} {mapInfo : TpceDmaMapInfo}
variable {req : TpceDmaRequest} {info info' : TpceDmaInfo}

/-- The active descriptors are the ones of the request, checked against the
mapping. -/
structure Supplied (env : InitEnv) (mapInfo : TpceDmaMapInfo) (req : TpceDmaRequest)
    (info : TpceDmaInfo) : Prop where
  active : info.active = (List.range (req.descriptorsSize / descriptorSize).toNat).map env.userDesc
  checked : ∀ desc ∈ info.active, desc.transferLength ≠ 0 ∧
    (hostAddr req.params.direction desc).toNat + desc.transferLength.toNat < 2 ^ 64 ∧
      ∃ sg ∈ mapInfo.sgt.dmaEntries,
        InEntry (hostAddr req.params.direction desc) desc.transferLength.toNat sg
  size : tpceDmaHasTerminatingDescriptor req.params = false →
    info.descSize = req.descriptorsSize ∧ req.descriptorsSize ≠ 0

/-- The active descriptors are generated from parameters that are valid. -/
structure Generated (params : TpceDmaTransferParams) (mapInfo : TpceDmaMapInfo)
    (info : TpceDmaInfo) : Prop where
  validated : tpceValidateDmaParams params mapInfo = .ok 0
  intervals : info.active.map (hostInterval params.direction) =
    pieces (pieceLength params) (requestReach params mapInfo)
  strides : ∀ desc ∈ info.active, desc.readStride = params.readStride ∧
    desc.writeStride = params.writeStride
  size : tpceDmaHasTerminatingDescriptor params = false →
    info.descSize.toNat = plannedCount params mapInfo * 64

theorem takeUserDesc_ok (hdir : req.params.direction = tpceDmaToDevice ∨
      req.params.direction = tpceDmaFromDevice)
    (h : takeUserDesc env mapInfo req info = (0, info')) :
    info'.active = (List.range (req.descriptorsSize / descriptorSize).toNat).map env.userDesc ∧
      (∀ desc ∈ info'.active, desc.transferLength ≠ 0 ∧
        (hostAddr req.params.direction desc).toNat + desc.transferLength.toNat < 2 ^ 64 ∧
          ∃ sg ∈ mapInfo.sgt.dmaEntries,
            InEntry (hostAddr req.params.direction desc) desc.transferLength.toNat sg) ∧
      info'.descSize = info.descSize := by
  unfold takeUserDesc at h
  split at h
  · cases h
  dsimp only at h
  split at h
  · cases h
  · rename_i hcheck
    have hcheck := tpceValidateDescMem_iff.mp (not_not.mp hcheck)
    simp only [hostAddr_eq_checkedAddr hdir] at hcheck
    cases h
    refine ⟨?_, hcheck, rfl⟩
    exact List.take_left' (by simp)

theorem generateDesc_ok {params : TpceDmaTransferParams} {size : U32}
    (h : generateDesc mapInfo params size info = .ok (0, info')) :
    tpceValidateDmaParams params mapInfo = .ok 0 ∧ ∃ ret desc,
      tpceGenerateDescriptors params mapInfo info.desc (size / descriptorSize) = .ok (ret, desc) ∧
        0 ≤ ret ∧ info' = { info with
          desc := desc
          descSize := if tpceDmaHasTerminatingDescriptor params then
              (BitVec.ofInt 32 ret + 1) * descriptorSize
            else BitVec.ofInt 32 ret * descriptorSize
          descActive := BitVec.ofInt 32 ret * descriptorSize } := by
  obtain ⟨err, hval, h⟩ := bind_eq_ok.mp h
  split at h
  · cases h
  rename_i hpos
  split at h
  · cases h
  split at h
  · cases h
  rename_i hneg
  obtain rfl : err = 0 := le_antisymm (not_lt.mp hpos) (not_lt.mp hneg)
  obtain ⟨⟨ret, desc⟩, hgen, h⟩ := bind_eq_ok.mp h
  dsimp only at h
  split at h
  · cases h
  · rename_i hret
    cases h
    exact ⟨hval, ret, desc, hgen, not_lt.mp hret, rfl⟩

/-- The sizes in bytes of the planned descriptors do not wrap. -/
theorem plannedCount_size {params : TpceDmaTransferParams} {size : U32}
    (hmax : plannedCount params mapInfo ≤ (size / descriptorSize).toNat) :
    (BitVec.ofInt 32 (plannedCount params mapInfo) * descriptorSize).toNat = plannedCount params mapInfo * 64 ∧
      (BitVec.ofInt 32 (plannedCount params mapInfo) * descriptorSize / descriptorSize).toNat =
        plannedCount params mapInfo := by
  have hcount : (BitVec.ofInt 32 (plannedCount params mapInfo) * descriptorSize).toNat =
      plannedCount params mapInfo * 64 := by
    have hsize : (size / descriptorSize).toNat = size.toNat / 64 := BitVec.toNat_udiv
    have hlt := size.isLt
    have hmul : (BitVec.ofInt 32 (plannedCount params mapInfo) * descriptorSize).toNat =
        plannedCount params mapInfo % 2 ^ 32 * 64 % 2 ^ 32 := by
      rw [BitVec.toNat_mul, BitVec.ofInt_natCast, BitVec.toNat_ofNat]
      rfl
    omega
  refine ⟨hcount, ?_⟩
  rw [BitVec.toNat_udiv, hcount]
  exact Nat.mul_div_cancel _ (by decide)

theorem generated_of_ok {params : TpceDmaTransferParams} {size : U32}
    (h : generateDesc mapInfo params size info = .ok (0, info')) : Generated params mapInfo info' := by
  obtain ⟨hval, ret, desc, hgen, hret, rfl⟩ := generateDesc_ok h
  obtain ⟨rfl, hmax, hintervals, hstrides⟩ := tpceGenerateDescriptors_reach hgen hret
  obtain ⟨hcount, hactive⟩ := plannedCount_size hmax
  refine ⟨hval, ?_, ?_, fun hlast => ?_⟩
  · simpa only [TpceDmaInfo.active, hactive] using hintervals
  · simpa only [TpceDmaInfo.active, hactive] using hstrides
  · simpa only [hlast, Bool.false_eq_true, if_false] using hcount

theorem copyToDma_ok (h : copyToDma info = .ok info') :
    info'.active = info.active ∧ info'.descSize = info.descSize ∧ info'.desc = info.desc := by
  simp only [copyToDma] at h
  split at h
  · cases h
  · cases h
    exact ⟨rfl, rfl, rfl⟩

theorem prepared_cases (h : Prepared env mapInfo req info info')
    (hdir : req.params.direction = tpceDmaToDevice ∨ req.params.direction = tpceDmaFromDevice) :
    (req.descriptors ≠ 0 ∧ Supplied env mapInfo req info') ∨
      (req.descriptors = 0 ∧ Generated req.params mapInfo info') := by
  cases h with
  | user buf filled _ huser halloc htake hcopy =>
      obtain ⟨hactive, hchecked, hfilled⟩ := takeUserDesc_ok hdir htake
      obtain ⟨hcopied, hsize, -⟩ := copyToDma_ok hcopy
      refine .inl ⟨huser, hcopied.trans hactive, hcopied ▸ hchecked, fun hlast => ?_⟩
      rw [hlast, if_neg Bool.false_ne_true, descAllocSize, if_pos huser] at halloc
      obtain ⟨hbuf, hne⟩ := (allocDescriptorsMem_spec halloc).2.2 rfl
      exact ⟨(hsize.trans hfilled).trans hbuf, hne⟩
  | generated buf filled _ hnull halloc hgen hcopy =>
      obtain ⟨hcopied, hsize, -⟩ := copyToDma_ok hcopy
      obtain ⟨hval, hintervals, hstrides, hcount⟩ := generated_of_ok hgen
      exact .inr ⟨hnull, hval, hcopied ▸ hintervals, hcopied ▸ hstrides, hsize ▸ hcount⟩

theorem active_of_initialized {obj : ℕ} {prep : TpceDmaInfo}
    (hacc : Initialized env dev c req obj mapInfo prep info dev') : (dev'.dmaInfo c).active = prep.active := by
  have hinfo : info.active = prep.active := by
    by_cases hmode : req.params.transferMode = tpceDmaModeStream
    · obtain ⟨hneg, -⟩ | ⟨-, -, -, hinfo⟩ := initStreamInfo_spec (hacc.stream hmode)
      · omega
      · rw [hinfo]
        rfl
    · rw [hacc.plain hmode]
  have hset := congrArg TpceDmaInfo.active (setInfo_dmaInfo dev c (initializedInfo info req obj))
  rw [hacc.result, ← hinfo]
  exact hset

/-- What the active descriptors of a request are, from the request and the
mapping: host address, length and write stride of each. -/
def ForDescriptors (env : InitEnv) (req : TpceDmaRequest) (mapInfo : TpceDmaMapInfo)
    (P : U64 → ℕ → U16 → Prop) : Prop :=
  if req.descriptors ≠ 0 then
    ∀ i < (req.descriptorsSize / descriptorSize).toNat,
      P (hostAddr req.params.direction (env.userDesc i)) (env.userDesc i).transferLength.toNat
        (env.userDesc i).writeStride
  else
    ∀ s ∈ requestReach req.params mapInfo, ∀ k, k * pieceLength req.params < s.2 →
      P ((k * pieceLength req.params) +ᵥ s.1)
        (min (pieceLength req.params) (s.2 - k * pieceLength req.params)) req.params.writeStride

/-- Every property of the active descriptors of an accepted request is one of
the request and its mapping. -/
theorem forall_active_iff {ret : ℤ} (hdir : req.params.direction = tpceDmaToDevice ∨
      req.params.direction = tpceDmaFromDevice) (hload : xaLoad dev req.id = some mapInfo)
    (hinit : initDmaInfo env dev c req = .ok (ret, dev')) (haccepted : 0 ≤ ret)
    (P : U64 → ℕ → U16 → Prop) :
    (∀ desc ∈ (dev'.dmaInfo c).active,
        P (hostAddr req.params.direction desc) desc.transferLength.toNat desc.writeStride) ↔
      ForDescriptors env req mapInfo P := by
  obtain ⟨hneg, -⟩ | ⟨-, obj, m, prep, info, hacc⟩ := initDmaInfo_cases hinit
  · omega
  obtain rfl := Option.some.inj ((xaLoad_of_initialized hacc).symm.trans hload)
  rw [active_of_initialized hacc]
  simp only [ForDescriptors]
  rcases prepared_cases hacc.prepared hdir with ⟨huser, hsupplied⟩ | ⟨hnull, hgenerated⟩
  · rw [if_pos huser, hsupplied.active]
    simp only [List.mem_map, List.mem_range, forall_exists_index, and_imp, forall_apply_eq_imp_iff₂]
  · rw [if_neg (not_not.mpr hnull)]
    have hstride : (∀ desc ∈ prep.active,
        P (hostAddr req.params.direction desc) desc.transferLength.toNat desc.writeStride) ↔
        ∀ desc ∈ prep.active, P (hostInterval req.params.direction desc).1
          (hostInterval req.params.direction desc).2 req.params.writeStride := by
      refine forall₂_congr fun desc hdesc => ?_
      rw [(hgenerated.strides desc hdesc).2]
      rfl
    have hmap := List.forall_mem_map (f := hostInterval req.params.direction) (l := prep.active)
      (P := fun p => P p.1 p.2 req.params.writeStride)
    rw [hstride, ← hmap, hgenerated.intervals]
    exact forall_mem_pieces (P := fun a l => P a l req.params.writeStride) (pieceLength_pos req.params)

/-- What `init_dma_info` makes of a request after some calls on a fresh device:
the verdict of `validate_dma_request`, the result, and host address, length and
write stride of the active descriptors. -/
def initializedAfter (ops : List Driver.Op) (env : InitEnv) (c : Channel) (req : TpceDmaRequest)
    (fileCtx : Option ℕ) : Option (ℤ × ℤ × List (U64 × ℕ × U16)) :=
  (Library.Runs.run Driver.step freshDevice ops).bind fun dev =>
    (initDmaInfo env dev c req).toOption.map fun r =>
      (validateDmaRequest dev req fileCtx, r.1, (r.2.dmaInfo c).active.map fun desc =>
        (hostAddr req.params.direction desc, desc.transferLength.toNat, desc.writeStride))

theorem exists_of_initializedAfter {ops : List Driver.Op} {fileCtx : Option ℕ} {err ret : ℤ}
    {descs : List (U64 × ℕ × U16)} (h : initializedAfter ops env c req fileCtx = some (err, ret, descs)) :
    ∃ dev dev', Library.Runs.run Driver.step freshDevice ops = some dev ∧
      validateDmaRequest dev req fileCtx = err ∧ initDmaInfo env dev c req = .ok (ret, dev') ∧
        (dev'.dmaInfo c).active.map (fun desc =>
          (hostAddr req.params.direction desc, desc.transferLength.toNat, desc.writeStride)) = descs := by
  obtain ⟨dev, hrun, h⟩ := Option.bind_eq_some_iff.mp h
  obtain ⟨⟨ret', dev'⟩, hok, heq⟩ := Option.map_eq_some_iff.mp h
  obtain ⟨hvalid, hrest⟩ := Prod.mk.inj heq
  obtain ⟨rfl, hactive⟩ := Prod.mk.inj hrest
  exact ⟨dev, dev', hrun, hvalid, toOption_eq_some.mp hok, hactive⟩

end TpceDrv.ActiveDescriptors
