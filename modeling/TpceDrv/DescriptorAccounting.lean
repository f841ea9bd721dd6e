import TpceDrv.DescriptorBuffers
import TpceDrv.IndexFaults

namespace TpceDrv.DescriptorAccounting

open Descriptor DmaParams DmaInfo Mapping Device Generation ChannelControl Requests Driver RequestSteps
open DescriptorBuffers IndexFaults Effects Library.Runs Library.Errors

variable {env : InitEnv} {dev : TpceDev} {c : Channel} {req : TpceDmaRequest} {mapInfo : TpceDmaMapInfo}
variable {info : TpceDmaInfo} {placed : ℕ → U64 → Prop} {err : ℤ}

/-- The two buffers of a channel come and go together, and have exactly the
capacity that is on record. -/
structure Accounted (info : TpceDmaInfo) : Prop where
  together : info.desc = [] ↔ info.descDma = []
  capacity : info.descDma = [] ↔ info.descCapacity = 0
  descBytes : info.desc.length * descriptorSize.toNat = info.descCapacity.toNat
  descDmaBytes : info.descDma.length * descriptorSize.toNat = info.descCapacity.toNat

theorem Accounted.ofBuffered (h : Buffered placed info) : Accounted info := by
  have hdesc := h.desc
  have hdescDma := h.descDma
  have hcapacity : info.descCapacity = 0 ↔ info.descCapacity.toNat = 0 :=
    ⟨fun hzero => congrArg BitVec.toNat hzero, fun hzero => BitVec.eq_of_toNat_eq hzero⟩
  refine ⟨?_, ?_, hdesc, hdescDma⟩
  · rw [← List.length_eq_zero_iff, ← List.length_eq_zero_iff]
    omega
  · rw [← List.length_eq_zero_iff, hcapacity]
    omega

/-- What a successful `init_dma_info` leaves in the sizes of the channel -/
structure SizesSet (params : TpceDmaTransferParams) (info : TpceDmaInfo) : Prop where
  active : info.descActive.toNat % descriptorSize.toNat = 0
  size : info.descSize.toNat % descriptorSize.toNat = 0
  fits : info.descSize ≤ info.descCapacity
  terminated : info.descActive.toNat +
    (if params.transferMode = tpceDmaModeStream then 0 else descriptorSize.toNat) = info.descSize.toNat

theorem SizesSet.ofSized {params : TpceDmaTransferParams} (h : Sized params info) : SizesSet params info := by
  have hactive := h.active
  have hsize := h.size
  have hterm : tpceDmaHasTerminatingDescriptor params = true ↔ ¬params.transferMode = tpceDmaModeStream := by
    simp [tpceDmaHasTerminatingDescriptor]
  have hdescriptor : descriptorSize.toNat = 64 := rfl
  refine ⟨hactive, ?_, h.fits, ?_⟩
  · rw [hdescriptor]
    split at hsize
    · omega
    · omega
  · rw [hdescriptor]
    split
    · rename_i hstream
      rw [if_neg fun hc => hterm.mp hc hstream] at hsize
      exact hsize.symm
    · rename_i hplain
      rw [if_pos (hterm.mpr hplain)] at hsize
      exact hsize.symm

theorem generateDesc_raises (mapInfo : TpceDmaMapInfo) (params : TpceDmaTransferParams) (size : U32)
    (info : TpceDmaInfo) : Raises IndexFault (generateDesc mapInfo params size info) := by
  refine (validate_raises params mapInfo).bind fun verr _ => ?_
  refine Raises.ite (fun _ => Raises.pure _) fun _ => ?_
  refine Raises.ite (fun _ => Raises.pure _) fun _ => ?_
  refine Raises.ite (fun _ => Raises.pure _) fun _ => ?_
  refine (generate_raises _ _ _ _).bind fun out _ => ?_
  exact Raises.ite (fun _ => Raises.pure _) fun _ => Raises.pure _

/-- The copy for the device stays inside the buffers, so that only the
generator can fault. -/
theorem prepareDesc_raises (hbuf : Buffered placed info) (hzero : placed 0 0) (hplaced : PlacedFor placed env req)
    (hreq : SuppliedSize req) : Raises IndexFault (prepareDesc env mapInfo req info) := by
  cases halloc : tpceDmaAllocDescriptorsMem env info (allocSize req) with
  | mk err₁ buf =>
      obtain ⟨hbuf₁, halloced⟩ := allocDescriptorsMem_buffered halloc hbuf hzero (allocSize_toNat hreq).1 hplaced
      rw [allocSize] at halloc
      simp only [prepareDesc, halloc]
      refine Raises.ite (fun _ => Raises.pure _) fun hok => ?_
      obtain ⟨hsize, hfits, hne⟩ := halloced (not_not.mp hok)
      refine Raises.bind (Raises.ite (fun _ => Raises.pure _) fun _ => generateDesc_raises _ _ _ _) ?_
      rintro ⟨err₂, filled⟩ hfill
      obtain ⟨-, hsized⟩ := filled_sized hbuf₁ hsize hfits hne hreq hfill
      refine Raises.ite (fun _ => Raises.pure _) fun hok₂ => ?_
      have hroom : ¬filled.descSize > filled.descCapacity := BitVec.not_lt.mpr (hsized (not_not.mp hok₂)).fits
      refine Raises.bind ?_ fun _ _ => Raises.pure _
      simp only [copyToDma]
      rw [if_neg hroom]
      exact Raises.ok _

/-- What holds of a call of `init_dma_info`, however it ends -/
structure InitAccounted (env : InitEnv) (dev : TpceDev) (c : Channel) (req : TpceDmaRequest) : Prop where
  contained : Raises (fun e => ∀ size capacity, e ≠ .bufferOverflow size capacity) (initDmaInfo env dev c req)
  returns : ∀ ret dev', initDmaInfo env dev c req = .ok (ret, dev') →
    Accounted (dev'.dmaInfo c) ∧ (0 ≤ ret → SizesSet req.params (dev'.dmaInfo c))

theorem initDmaInfo_contained (hbuf : Buffered placed (dev.dmaInfo c)) (hzero : placed 0 0)
    (hplaced : PlacedFor placed env req) (hreq : SuppliedSize req) :
    Raises (fun e => ∀ size capacity, e ≠ .bufferOverflow size capacity) (initDmaInfo env dev c req) := by
  have hindex : ∀ e, IndexFault e → ∀ size capacity, e ≠ .bufferOverflow size capacity := by
    rintro e he size capacity rfl
    exact he
  simp only [initDmaInfo]
  split
  · exact Raises.pure _
  · rename_i obj hobj
    refine Raises.bind ?_ fun m _ => ?_
    · simp only [TpceDev.mapInfo]
      split
      · exact Raises.ok _
      · exact Raises.error fun size capacity h => by cases h
    · refine ((prepareDesc_raises hbuf hzero hplaced hreq).mono hindex).bind fun out _ => ?_
      refine Raises.ite (fun _ => Raises.pure _) fun _ => ?_
      exact Raises.ite (fun _ => Raises.pure _) fun _ => Raises.pure _

theorem initAccounted (hbuf : Buffered placed (dev.dmaInfo c)) (hzero : placed 0 0)
    (hplaced : PlacedFor placed env req) (hreq : SuppliedSize req) : InitAccounted env dev c req := by
  refine ⟨initDmaInfo_contained hbuf hzero hplaced hreq, fun ret dev' h => ?_⟩
  obtain ⟨hbuf', hsized⟩ := initDmaInfo_buffered h hbuf hzero hplaced hreq
  exact ⟨.ofBuffered hbuf', fun hret => .ofSized (hsized hret)⟩

/-- Wherever the allocator places a buffer, the accounting is the same. -/
def Anywhere (_ : ℕ) (_ : U64) : Prop := True

theorem always_buffered (sgt : SgTable) (ops : List Op) :
    Always step (AllBuffered Anywhere) (TpceDev.init sgt) ops :=
  always_of_step (fun _ _ _ h hstep => step_buffered True.intro h (fun _ _ _ _ _ => True.intro) hstep)
    (buffered_init sgt True.intro) ops

/-- In every state of every run the buffers of each channel agree with the
capacity on record, and every request that passes the validation there is
initialised inside them. -/
theorem descriptors_accounted (sgt : SgTable) (ops : List Op) :
    Always step (fun dev => (∀ c, Accounted (dev.dmaInfo c)) ∧
      ∀ op env req c, validatedRequest dev op = some (env, req) → InitAccounted env dev c req)
      (TpceDev.init sgt) ops := by
  refine (always_buffered sgt ops).mono fun dev hbuf => ⟨fun c => .ofBuffered (hbuf c), ?_⟩
  intro op env req c hvalidated
  obtain ⟨fileCtx, c', m, hvalid⟩ := validatedRequest_valid hvalidated
  exact initAccounted (hbuf c) True.intro (fun _ _ => True.intro) (ValidRequest.suppliedSize hvalid)

end TpceDrv.DescriptorAccounting
