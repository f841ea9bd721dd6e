import TpceDrv.Generation
import TpceDrv.Library.Errors

namespace TpceDrv.IndexFaults

open Descriptor Mapping DmaParams Generation Library.Errors

variable {params : TpceDmaTransferParams} {mapInfo : TpceDmaMapInfo} {ch : TpceDmaChannelInfo}

/-- An access behind the end of an array -/
def IndexFault : Fault → Prop
  | .rangeIndex _ | .descriptorIndex _ | .channelIndex _ => True
  | _ => False

theorem channelInfo_raises (channel : U8) : Raises IndexFault (channelInfo channel) := by
  simp only [channelInfo]
  split
  · exact Raises.ok _
  · exact Raises.error True.intro

theorem gcdSizes_raises (n i : ℕ) (sgs : List Scatterlist) (res prev : U32) :
    Raises IndexFault (gcdSizes n i sgs res prev) := by
  induction n generalizing i sgs res prev with
  | zero => exact Raises.ok _
  | succ n ih =>
      cases sgs with
      | nil => exact Raises.error True.intro
      | cons sg sgs => exact Raises.ite (fun _ => ih _ _ _ _) fun _ => ih _ _ _ _

theorem gcdDmaPageSizes_raises (mapInfo : TpceDmaMapInfo) : Raises IndexFault (gcdDmaPageSizes mapInfo) := by
  simp only [gcdDmaPageSizes]
  split
  · exact Raises.ok _
  · exact Raises.error True.intro
  · exact gcdSizes_raises _ _ _ _ _

theorem validate_raises (params : TpceDmaTransferParams) (mapInfo : TpceDmaMapInfo) :
    Raises IndexFault (tpceValidateDmaParams params mapInfo) := by
  refine Raises.ite (fun _ => Raises.pure _) fun _ => ?_
  refine (channelInfo_raises _).bind fun ch _ => ?_
  have hbpd : Raises IndexFault (bytesPerDescriptorBad params mapInfo ch) :=
    Raises.ite (fun _ => (gcdDmaPageSizes_raises mapInfo).bind fun _ _ => Raises.pure _) fun _ => Raises.pure _
  exact hbpd.bind fun _ _ => Raises.pure _

theorem skipOffset_raises (n offIdx : ℕ) (sgs : List Scatterlist) (offRem : U32) :
    Raises IndexFault (skipOffset n offIdx sgs offRem) := by
  induction n generalizing offIdx sgs offRem with
  | zero => exact Raises.ok _
  | succ n ih =>
      cases sgs with
      | nil => exact Raises.error True.intro
      | cons sg sgs => exact Raises.ite (fun _ => ih _ _ _) fun _ => Raises.ok _

theorem countDescriptors_raises (maxTransfer : U32) (offIdx : ℕ) (offRem : U32) (n i : ℕ) (sgs : List Scatterlist)
    (bytesRem numDesc : U32) :
    Raises IndexFault (countDescriptors maxTransfer offIdx offRem n i sgs bytesRem numDesc) := by
  induction n generalizing i sgs bytesRem numDesc with
  | zero => exact Raises.ok _
  | succ n ih =>
      cases sgs with
      | nil => exact Raises.ite (fun _ => Raises.error True.intro) fun _ => Raises.ok _
      | cons sg sgs => exact Raises.ite (fun _ => ih _ _ _ _) fun _ => Raises.ok _

theorem createDescriptorPlan_raises (mapInfo : TpceDmaMapInfo) (params : TpceDmaTransferParams) :
    Raises IndexFault (createDescriptorPlan mapInfo params) := by
  refine (channelInfo_raises _).bind fun ch _ => ?_
  refine Raises.ite (fun _ => Raises.pure _) fun _ => ?_
  refine (gcdDmaPageSizes_raises mapInfo).bind fun gcd _ => ?_
  refine (skipOffset_raises _ _ _ _).bind fun start _ => ?_
  have hcount : Raises IndexFault (if params.bytesPerDescriptor = 0 then
      countDescriptors ch.maxTransfer start.1 start.2 (tpceDmaMapNumRanges mapInfo - start.1) start.1
        (mapInfo.sgt.sgl.slots.drop start.1) params.bytesTotal 0
      else pure (params.bytesTotal / params.bytesPerDescriptor)) :=
    Raises.ite (fun _ => countDescriptors_raises _ _ _ _ _ _ _ _) fun _ => Raises.pure _
  exact hcount.bind fun _ _ => Raises.pure _

theorem fillPage_raises (descIdx : ℕ) (bytesInPageRem : U32) (busAddr : U64) (deviceAddr bytesRem : U32)
    (buf : List TpceDmaDescriptor) :
    Raises IndexFault (fillPage params ch descIdx bytesInPageRem busAddr deviceAddr bytesRem buf) := by
  induction buf generalizing descIdx bytesInPageRem busAddr deviceAddr bytesRem with
  | nil => exact Raises.ite (fun _ => Raises.error True.intro) fun _ => Raises.ok _
  | cons desc buf ih =>
      exact Raises.ite (fun _ => (ih _ _ _ _ _).bind fun _ _ => Raises.pure _) fun _ => Raises.ok _

theorem fillRanges_raises (plan : DescriptorPlan) (mapIdx : ℕ) (sgs : List Scatterlist) (descIdx : ℕ)
    (deviceAddr bytesRem : U32) (buf : List TpceDmaDescriptor) :
    Raises IndexFault (fillRanges params ch plan mapIdx sgs descIdx deviceAddr bytesRem buf) := by
  induction sgs generalizing mapIdx descIdx deviceAddr bytesRem buf with
  | nil => exact Raises.ite (fun _ => Raises.error True.intro) fun _ => Raises.ok _
  | cons sg sgs ih =>
      refine Raises.ite (fun _ => ?_) fun _ => Raises.ok _
      refine (fillPage_raises _ _ _ _ _ _).bind fun page _ => ?_
      exact (ih _ _ _ _ _).bind fun _ _ => Raises.pure _

theorem generate_raises (params : TpceDmaTransferParams) (mapInfo : TpceDmaMapInfo) (ds : List TpceDmaDescriptor)
    (maxDescriptors : U32) : Raises IndexFault (tpceGenerateDescriptors params mapInfo ds maxDescriptors) := by
  refine (createDescriptorPlan_raises mapInfo params).bind fun plan _ => ?_
  refine Raises.ite (fun _ => Raises.pure _) fun _ => ?_
  refine Raises.ite (fun _ => Raises.pure _) fun _ => ?_
  refine (channelInfo_raises _).bind fun ch _ => ?_
  have hzero : Raises IndexFault (zeroDescriptors ds plan.numDescriptors.toNat) :=
    Raises.ite (fun _ => Raises.error True.intro) fun _ => Raises.ok _
  refine hzero.bind fun zeroed _ => ?_
  exact (fillRanges_raises _ _ _ _ _ _ _).bind fun _ _ => Raises.pure _

end TpceDrv.IndexFaults
