import TpceDrv.TransferParts

namespace TpceDrv.InterruptPlacement

open Descriptor Mapping DmaParams Generation Reach Planning MappedRanges TransferParts

/-- Whether the completion of the descriptor raises an interrupt -/
def RaisesIrq (desc : TpceDmaDescriptor) : Prop := desc.control &&& transferCompleteIrqMask ≠ 0

/-- Every descriptor at a multiple of the interval raises an interrupt and no other
does, also where the ring of `n` descriptors starts over. Without an interval the
last descriptor does. -/
def Placed (interval n : ℕ) (out : List TpceDmaDescriptor) : Prop :=
  if interval = 0 then ∀ i < n, ∀ desc, out[i]? = some desc → (RaisesIrq desc ↔ i + 1 = n)
  else interval ∣ n ∧ ∀ i < n, ∀ desc, out[i]? = some desc → (RaisesIrq desc ↔ (i + 1) % interval = 0)

variable {params : TpceDmaTransferParams} {mapInfo : TpceDmaMapInfo} {chInfo : TpceDmaChannelInfo}
  {plan : DescriptorPlan}

theorem control_setAddresses (busAddr : U64) (deviceAddr : U32) (desc : TpceDmaDescriptor) :
    (setAddresses params chInfo busAddr deviceAddr desc).control = desc.control := by
  simp only [setAddresses]
  split
  · rfl
  · rfl

theorem control_fillPage {descIdx : ℕ} {n dev rem : U32} {bus : U64} {buf : List TpceDmaDescriptor}
    {page : PageFill} (h : fillPage params chInfo descIdx n bus dev rem buf = .ok page) :
    (page.written ++ page.unwritten).map TpceDmaDescriptor.control = buf.map TpceDmaDescriptor.control := by
  induction buf generalizing descIdx n dev rem bus page with
  | nil =>
      simp only [fillPage] at h
      split at h
      · cases h
      · cases h
        rfl
  | cons desc buf ih =>
      simp only [fillPage] at h
      split at h
      · obtain ⟨tail, htail, h⟩ := bind_eq_ok.mp h
        cases h
        rw [List.cons_append, List.map_cons, List.map_cons, ih htail, control_setAddresses]
      · cases h
        rfl

theorem control_fillRanges {slots : List Scatterlist} {mapIdx descIdx : ℕ} {dev rem : U32}
    {buf out : List TpceDmaDescriptor}
    (h : fillRanges params chInfo plan mapIdx slots descIdx dev rem buf = .ok out) :
    out.map TpceDmaDescriptor.control = buf.map TpceDmaDescriptor.control := by
  induction slots generalizing mapIdx descIdx dev rem buf out with
  | nil =>
      simp only [fillRanges] at h
      split at h
      · cases h
      · cases h
        rfl
  | cons sg rest ih =>
      simp only [fillRanges] at h
      split at h
      · obtain ⟨page, hpage, h⟩ := bind_eq_ok.mp h
        obtain ⟨tail, htail, h⟩ := bind_eq_ok.mp h
        cases h
        rw [List.map_append, ih htail, ← List.map_append, control_fillPage hpage]
      · cases h
        rfl

theorem control_fillOtherFields (i : ℕ) (desc : TpceDmaDescriptor) :
    (fillOtherFields params chInfo plan i desc).control = desc.control := by
  simp only [fillOtherFields]
  split
  · rfl
  · rfl

theorem control_stream (hmode : params.transferMode = tpceDmaModeStream) {i : ℕ}
    (hi : i < plan.numDescriptors.toNat) {desc : TpceDmaDescriptor} (hzero : desc.control = 0) :
    (fillControlFlags params chInfo plan i desc).control =
      (if params.interruptInterval.toNat > 0 ∧
          i % params.interruptInterval.toNat = params.interruptInterval.toNat - 1 then
        transferCompleteIrqMask else 0) ||| earlyDone chInfo := by
  have hdefault : ¬params.transferMode = tpceDmaModeDefault := by
    rw [hmode]
    decide
  simp only [fillControlFlags, if_neg hdefault, if_pos hmode, fillControlFlagsStream, if_pos hi]
  split
  · simp only [orControl, hzero]
    rfl
  · simp only [orControl, hzero]

theorem raisesIrq_iff {desc : TpceDmaDescriptor} {p : Prop} [Decidable p]
    (h : desc.control = (if p then transferCompleteIrqMask else 0) ||| earlyDone chInfo) :
    RaisesIrq desc ↔ p := by
  simp only [RaisesIrq, h, earlyDone]
  split
  · rename_i hp
    refine iff_of_true ?_ hp
    split
    · decide
    · decide
  · rename_i hp
    refine iff_of_false (not_not.mpr ?_) hp
    split
    · decide
    · decide

theorem mod_eq_pred_iff {i k : ℕ} (hk : 0 < k) : i % k = k - 1 ↔ (i + 1) % k = 0 := by
  have hlt := Nat.mod_lt i hk
  rw [Nat.add_mod]
  constructor
  · intro h
    by_cases hone : k = 1
    · subst hone
      exact Nat.mod_one _
    · rw [h, Nat.mod_eq_of_lt (show 1 < k by omega), Nat.sub_add_cancel hk, Nat.mod_self]
  · intro h
    by_contra hne
    rcases Nat.lt_or_ge k 2 with hk' | hk'
    · omega
    · rw [Nat.mod_eq_of_lt (show 1 < k by omega), Nat.mod_eq_of_lt (show i % k + 1 < k by omega)] at h
      omega

/-- What the generator leaves in the control field in stream mode -/
theorem generated_raisesIrq (hmode : params.transferMode = tpceDmaModeStream) {ds out : List TpceDmaDescriptor}
    {maxDescriptors : U32} {ret : ℤ}
    (h : tpceGenerateDescriptors params mapInfo ds maxDescriptors = .ok (ret, out)) (hret : 0 < ret) {i : ℕ}
    (hi : i < ret.toNat) : ∃ desc, out[i]? = some desc ∧
      (RaisesIrq desc ↔ params.interruptInterval.toNat > 0 ∧
        i % params.interruptInterval.toNat = params.interruptInterval.toNat - 1) := by
  obtain ⟨plan, -, h⟩ := bind_eq_ok.mp h
  split at h
  · cases h
    exact absurd hret (by decide)
  split at h
  · cases h
    exact absurd hret (by decide)
  obtain ⟨chInfo, -, h⟩ := bind_eq_ok.mp h
  obtain ⟨zeroed, hzeroed, h⟩ := bind_eq_ok.mp h
  obtain ⟨filled, hfill, h⟩ := bind_eq_ok.mp h
  cases h
  have hnum := toInt_of_nonneg hret.le
  have hi : i < plan.numDescriptors.toNat := by omega
  have hcontrol := congrArg (·[i]?) (control_fillRanges hfill)
  simp only [List.getElem?_map, zeroed_getElem? hzeroed hi] at hcontrol
  obtain ⟨desc, hdesc, hz⟩ := Option.map_eq_some_iff.mp hcontrol
  refine ⟨fillOtherFields params chInfo plan i (fillControlFlags params chInfo plan i desc), ?_, ?_⟩
  · rw [List.getElem?_mapIdx, List.getElem?_mapIdx, hdesc]
    rfl
  · exact raisesIrq_iff ((control_fillOtherFields i _).trans (control_stream hmode hi hz))

theorem generated_count (hvalid : tpceValidateDmaParams params mapInfo = .ok 0) {ds out : List TpceDmaDescriptor}
    {maxDescriptors : U32} {ret : ℤ}
    (h : tpceGenerateDescriptors params mapInfo ds maxDescriptors = .ok (ret, out)) (hret : 0 < ret)
    (hinterval : params.interruptInterval ≠ 0) : params.interruptInterval.toNat ∣ ret.toNat ↔
      params.bytesPerDescriptor ≠ 0 ∨ params.interruptInterval.toNat ∣ countedPieces params mapInfo := by
  obtain ⟨rfl, -⟩ := tpceGenerateDescriptors_reach h hret.le
  rw [Int.toNat_natCast]
  have hcount : plannedCount params mapInfo ≠ 0 := by omega
  have hnents : tpceDmaMapNumRanges mapInfo ≠ 0 := fun hnone => hcount (by simp [plannedCount, hnone])
  by_cases hflex : params.bytesPerDescriptor = 0
  · rw [plannedCount_flexible hflex (generated_indexed h hret), or_iff_right (not_not.mpr hflex)]
  · refine iff_of_true ?_ (.inl hflex)
    obtain ⟨ch, -, hchecked⟩ := checked_of_zero hvalid
    have hpos : 0 < params.interruptInterval.toNat :=
      Nat.pos_of_ne_zero fun hz => hinterval (BitVec.eq_of_toNat_eq hz)
    have hmod := congrArg BitVec.toNat (hchecked (BitVec.lt_def.mpr hpos))
    rw [checkedDescriptors, if_neg hflex, BitVec.toNat_umod, BitVec.toNat_udiv, BitVec.toNat_setWidth,
      Nat.mod_eq_of_lt (show params.interruptInterval.toNat < 2 ^ 32 by omega)] at hmod
    rw [plannedCount, if_neg hnents, if_neg hflex]
    exact Nat.dvd_of_mod_eq_zero hmod

/-- The interrupts of a stream are placed as documented exactly when there is an
interval, and the descriptors are of a fixed length or their number happens to be a
multiple of it. -/
theorem interrupts_placed_iff (hvalid : tpceValidateDmaParams params mapInfo = .ok 0)
    (hmode : params.transferMode = tpceDmaModeStream) {ds out : List TpceDmaDescriptor} {maxDescriptors : U32} {ret : ℤ}
    (h : tpceGenerateDescriptors params mapInfo ds maxDescriptors = .ok (ret, out)) (hret : 0 < ret) :
    Placed params.interruptInterval.toNat ret.toNat out ↔ params.interruptInterval ≠ 0 ∧
      (params.bytesPerDescriptor ≠ 0 ∨ params.interruptInterval.toNat ∣ countedPieces params mapInfo) := by
  by_cases hinterval : params.interruptInterval = 0
  · refine iff_of_false (fun hplaced => ?_) fun hand => hand.1 hinterval
    obtain ⟨desc, hdesc, hraises⟩ := generated_raisesIrq hmode h hret (i := ret.toNat - 1) (by omega)
    have hzero : params.interruptInterval.toNat = 0 := congrArg BitVec.toNat hinterval
    rw [Placed, if_pos hzero] at hplaced
    have hlast := (hplaced (ret.toNat - 1) (by omega) desc hdesc).mpr (by omega)
    have := (hraises.mp hlast).1
    omega
  · have hpos : 0 < params.interruptInterval.toNat :=
      Nat.pos_of_ne_zero fun hz => hinterval (BitVec.eq_of_toNat_eq hz)
    rw [Placed, if_neg hpos.ne', generated_count hvalid h hret hinterval, and_iff_right hinterval]
    refine and_iff_left fun i hi desc hdesc => ?_
    obtain ⟨desc', hdesc', hraises⟩ := generated_raisesIrq hmode h hret hi
    obtain rfl := Option.some.inj (hdesc.symm.trans hdesc')
    rw [hraises, and_iff_right hpos, mod_eq_pred_iff hpos]

/-- A stream of the first page of two -/
def pageStream (interval : U8) : TpceDmaTransferParams where
  mapOffset := 0
  deviceAddr := 0
  bytesTotal := 4096
  bytesPerDescriptor := 0
  readStride := 0
  writeStride := 0
  channel := 0
  transferMode := tpceDmaModeStream
  direction := tpceDmaFromDevice
  interruptInterval := interval
  burstCount := 0

def scatteredPair : TpceDmaMapInfo := userMapping [⟨0x100000, 4096, 0⟩, ⟨0x200000, 4096, 0⟩] 8192 tpceDmaFromDevice

/-- The descriptor of such a stream -/
def pageDescriptor (control : U32) : TpceDmaDescriptor :=
  { writeAddressLow := 0x100000, transferLength := 4096, control := control }

theorem every_descriptor_raises : Placed 1 1 [pageDescriptor 0x1004000] ↔
    (pageStream 1).interruptInterval ≠ 0 ∧ ((pageStream 1).bytesPerDescriptor ≠ 0 ∨
      (pageStream 1).interruptInterval.toNat ∣ countedPieces (pageStream 1) scatteredPair) :=
  have hgen : tpceGenerateDescriptors (pageStream 1) scatteredPair [default] 1 =
      .ok (1, [pageDescriptor 0x1004000]) := by decide
  interrupts_placed_iff (by decide) rfl hgen (by decide)

/-- Without an interval no descriptor raises an interrupt, and an interval of two
is accepted for a ring of one descriptor. -/
theorem interrupts_missing :
    (tpceValidateDmaParams (pageStream 0) scatteredPair = .ok 0 ∧
      tpceGenerateDescriptors (pageStream 0) scatteredPair [default] 1 = .ok (1, [pageDescriptor 0x1000000]) ∧
      ¬Placed 0 1 [pageDescriptor 0x1000000]) ∧
    tpceValidateDmaParams (pageStream 2) scatteredPair = .ok 0 ∧
      tpceGenerateDescriptors (pageStream 2) scatteredPair [default] 1 = .ok (1, [pageDescriptor 0x1000000]) ∧
      ¬Placed 2 1 [pageDescriptor 0x1000000] := by
  refine ⟨⟨by decide, by decide, fun h => ?_⟩, by decide, by decide, fun h => ?_⟩
  · have hlast := (h 0 (by decide) _ rfl).mpr rfl
    exact absurd hlast (not_not.mpr (by decide))
  · exact absurd h.1 (by decide)

end TpceDrv.InterruptPlacement
