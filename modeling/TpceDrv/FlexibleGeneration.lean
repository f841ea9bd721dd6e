import TpceDrv.MappedRanges

namespace TpceDrv.FlexibleGeneration

open Descriptor Mapping DmaParams Generation Reach Planning MappedRanges Library.Cuts

/-- The first `n` descriptors of the buffer cover the bytes of the transfer in
order, each inside one range, and nothing else in the buffer has changed. -/
structure Partition (params : TpceDmaTransferParams) (mapInfo : TpceDmaMapInfo) (n : ℕ)
    (ds out : List TpceDmaDescriptor) : Prop where
  length : out.length = ds.length
  untouched : out.drop n = ds.drop n
  tiles : Tiles (segments mapInfo) params.mapOffset.toNat
    (params.mapOffset.toNat + params.bytesTotal.toNat)
    ((out.take n).map (hostInterval params.direction))

/-- A request for a transfer inside the mapping that leaves the lengths of the
descriptors to the generator. -/
structure FlexibleRequest (params : TpceDmaTransferParams) (mapInfo : TpceDmaMapInfo)
    (chInfo : TpceDmaChannelInfo) : Prop where
  channel : channelInfo params.channel = .ok chInfo
  flexible : params.bytesPerDescriptor = 0
  positive : 0 < params.bytesTotal.toNat
  bounded : params.bytesTotal.toNat < 2 ^ 32 - chInfo.maxTransfer.toNat
  inside : params.mapOffset.toNat + params.bytesTotal.toNat ≤ mapInfo.size.toNat

/-- The request is planned with at least one descriptor and, given the room,
generated as planned. The count is returned as a signed `int`. -/
def GeneratedAsPlanned (params : TpceDmaTransferParams) (mapInfo : TpceDmaMapInfo)
    (chInfo : TpceDmaChannelInfo) : Prop :=
  ∃ plan, createDescriptorPlan mapInfo params = .ok plan ∧ 1 ≤ plan.numDescriptors.toNat ∧
    ∀ maxDescriptors ds, plan.numDescriptors ≤ maxDescriptors →
      plan.numDescriptors.toNat ≤ ds.length →
      ∃ ret out, GeneratesWithin params mapInfo ds maxDescriptors (ret, out) ∧
        ret = plan.numDescriptors.toInt ∧
        (plan.numDescriptors.toNat < 2 ^ 31 → ret = plan.numDescriptors.toNat) ∧
        Partition params mapInfo plan.numDescriptors.toNat ds out ∧
        ∀ d ∈ out.take plan.numDescriptors.toNat,
          0 < d.transferLength.toNat ∧ d.transferLength ≤ chInfo.maxTransfer

theorem flexible_generation {params : TpceDmaTransferParams} {mapInfo : TpceDmaMapInfo}
    {chInfo : TpceDmaChannelInfo} (hmap : Ranged mapInfo)
    (hreq : FlexibleRequest params mapInfo chInfo) : GeneratedAsPlanned params mapInfo chInfo := by
  have hmax := channelInfo_maxTransfer hreq.channel
  have hbound := hreq.bounded
  have hfixed : fixedLength params = false := by simp [fixedLength, hreq.flexible]
  have hlen : pieceLength params = 262144 := by simp [pieceLength, hreq.flexible]
  obtain ⟨hsum, htiles⟩ := partsFrom_tiles hmap.sized hreq.inside
  have hcount : plannedCount params mapInfo =
      pieceCount (pieceLength params) (partsFrom params mapInfo (ranges mapInfo)) := by
    simp only [plannedCount, hmap.nonempty, hreq.flexible, if_true, if_false]
    refine plannedPieces_eq fun p hp => ?_
    have hle := List.single_le_sum (fun _ _ => Nat.zero_le _) p.2 (List.mem_map_of_mem hp)
    rw [hmax] at hbound
    have hmaxNat : (262144#32).toNat = 262144 := rfl
    simp only [ranges, hlen] at hle hsum ⊢
    omega
  obtain ⟨plan, hplan, hnum, hpos, hgen⟩ := generate_regular hmap hreq.channel hreq.positive
    hreq.inside (fun p _ hf => by rw [hfixed] at hf; cases hf) hcount
  refine ⟨plan, hplan, hpos, fun maxDescriptors ds hle hds => ?_⟩
  obtain ⟨out, hok, hlength, hdrop, hhost⟩ := hgen maxDescriptors ds hle hds
  refine ⟨_, out, hok, rfl, fun hsmall => ?_, ⟨hlength, hdrop, hhost ▸ htiles⟩, fun d hd => ?_⟩
  · rw [BitVec.toInt_eq_toNat_cond, if_pos (by omega)]
  · have hp : hostInterval params.direction d ∈
        (out.take plan.numDescriptors.toNat).map (hostInterval params.direction) :=
      List.mem_map_of_mem hd
    rw [hhost] at hp
    have hb := mem_pieces (pieceLength_pos params) hp
    rw [hlen] at hb
    rw [hmax]
    exact ⟨hb.1, BitVec.le_def.mpr hb.2⟩

def wholeTransfer (total : U32) : TpceDmaTransferParams where
  mapOffset := 0
  deviceAddr := 0
  bytesTotal := total
  bytesPerDescriptor := 0
  readStride := 0
  writeStride := 0
  channel := 0
  transferMode := tpceDmaModeDefault
  direction := tpceDmaFromDevice
  interruptInterval := 0
  burstCount := 0

/-- A transfer from the middle of a first range to the middle of a second one
that is longer than one descriptor can be. -/
theorem flexible_generation_two_ranges :
    GeneratedAsPlanned { wholeTransfer 327680 with mapOffset := 4096 }
      (userMapping [⟨0x100000, 8192, 0⟩, ⟨0x200000, 524288, 0⟩] 532480 tpceDmaBidirectional)
      ⟨8#32, 262144#32, 0#32, 32#8, false, false⟩ :=
  flexible_generation
    ⟨by decide, by decide, by decide, by decide⟩
    ⟨rfl, rfl, by decide, by decide, by decide⟩

/-- A mapping of `k` ranges of one byte each. -/
def byteMapping (k : U32) : TpceDmaMapInfo :=
  { userMapping (List.replicate k.toNat ⟨0, 1, 0⟩) k tpceDmaFromDevice with
    sgt := ⟨.last (List.replicate k.toNat ⟨0, 1, 0⟩), k.toNat⟩ }

theorem ranges_byteMapping (k : U32) : ranges (byteMapping k) = List.replicate k.toNat ⟨0, 1, 0⟩ := by
  show List.take k.toNat (List.replicate k.toNat _) = _
  rw [List.take_replicate, Nat.min_self]

theorem ranged_byteMapping {k : U32} (hk : k.toNat ≠ 0) : Ranged (byteMapping k) where
  nonempty := hk
  indexed := by
    show k.toNat ≤ (List.replicate k.toNat _).length
    rw [List.length_replicate]
  positive sg hsg := by
    rw [ranges_byteMapping] at hsg
    rw [(List.mem_replicate.mp hsg).2]
    decide
  total := by
    rw [ranges_byteMapping, List.map_replicate, List.sum_replicate]
    exact Nat.mul_one _

theorem plannedPieces_bytes (n : ℕ) (total : U32) (h : total.toNat = n) :
    plannedPieces 262144 (touchedParts 0 total (List.replicate n ⟨0, 1, 0⟩)) = n := by
  induction n generalizing total with
  | zero => rfl
  | succ n ih =>
      have hpos : total > 0 := BitVec.lt_def.mpr (by rw [h]; exact Nat.succ_pos n)
      have hone : (tpceDmaMapRangeSize ⟨0, 1, 0⟩ - 0 : U32).toNat = 1 := rfl
      have hmin := toNat_tpceMin (tpceDmaMapRangeSize ⟨0, 1, 0⟩ - 0) total
      rw [hone, h, Nat.min_eq_left (by omega)] at hmin
      rw [List.replicate_succ, touchedParts, if_pos hpos, plannedPieces_cons, ih _ (by
        rw [BitVec.toNat_sub_of_le (BitVec.le_def.mpr (by omega))]; omega)]
      have hpiece : (1 + 262144 - 1) % 2 ^ 32 / 262144 = 1 := by decide
      dsimp only
      rw [hmin, hpiece, Nat.add_comm]

theorem plannedCount_bytes {k : U32} (hk : k.toNat ≠ 0) :
    plannedCount (wholeTransfer k) (byteMapping k) = k.toNat := by
  have hranges : (byteMapping k).sgt.sgl.slots.take (tpceDmaMapNumRanges (byteMapping k)) =
      List.replicate k.toNat ⟨0, 1, 0⟩ := ranges_byteMapping k
  obtain ⟨j, rem, hskip, -, hsum, -⟩ := skipOffset_spec 0 (wholeTransfer k).mapOffset
    (ranged_byteMapping hk).indexed
  have hoff : (wholeTransfer k).mapOffset.toNat = 0 := rfl
  have hrem : rem = 0 := BitVec.eq_of_toNat_eq (by show rem.toNat = 0; omega)
  have hj : j = 0 := by
    have hz : ((((byteMapping k).sgt.sgl.slots.take j)).map rangeBytes).sum = 0 := by omega
    have hslots : (byteMapping k).sgt.sgl.slots = List.replicate k.toNat ⟨0, 1, 0⟩ := rfl
    rw [hslots, List.take_replicate, List.map_replicate, List.sum_replicate] at hz
    have hmul : min j k.toNat * 1 = 0 := hz
    omega
  subst hrem hj
  have hnents : tpceDmaMapNumRanges (byteMapping k) ≠ 0 := hk
  have hbpd : (wholeTransfer k).bytesPerDescriptor = 0 := rfl
  have hlen : pieceLength (wholeTransfer k) = 262144 := rfl
  simp only [plannedCount, hnents, hbpd, if_true, if_false, hlen, hranges, partsFrom_eq hskip]
  exact plannedPieces_bytes k.toNat k rfl

/-- Two thousand million ranges of one byte are planned with as many
descriptors, and the `int` that is returned for them is negative. -/
theorem count_of_byte_ranges_not_returned :
    Ranged (byteMapping 2147483648#32) ∧
      (∃ chInfo, FlexibleRequest (wholeTransfer 2147483648#32) (byteMapping 2147483648#32) chInfo) ∧
      ∃ plan, createDescriptorPlan (byteMapping 2147483648#32) (wholeTransfer 2147483648#32) =
          .ok plan ∧ plan.numDescriptors = 2147483648#32 ∧
        ∀ maxDescriptors ds out, plan.numDescriptors ≤ maxDescriptors →
          tpceGenerateDescriptors (wholeTransfer 2147483648#32) (byteMapping 2147483648#32) ds
            maxDescriptors ≠ .ok ((plan.numDescriptors.toNat : Int), out) := by
  have hk : (2147483648#32).toNat ≠ 0 := by decide
  obtain ⟨chInfo, hch⟩ : ∃ info, channelInfo (wholeTransfer 2147483648#32).channel = .ok info :=
    channelInfo_exists (by decide)
  have hmap := ranged_byteMapping hk
  obtain ⟨plan, hplan⟩ := createDescriptorPlan_exists hch hmap.indexed
  obtain ⟨hnum, -⟩ := createDescriptorPlan_cases hplan
  rw [plannedCount_bytes hk] at hnum
  have hn : plan.numDescriptors = 2147483648#32 := BitVec.eq_of_toNat_eq hnum
  refine ⟨hmap, ⟨chInfo, hch, rfl, by decide, ?_, by decide⟩, plan, hplan, hn, ?_⟩
  · rw [channelInfo_maxTransfer hch]
    decide
  · intro maxDescriptors ds out hle h
    obtain ⟨plan', hplan', h⟩ := bind_eq_ok.mp h
    rw [hplan] at hplan'
    cases hplan'
    rw [if_neg (BitVec.not_lt.mpr hle), if_neg (by rw [hn]; decide)] at h
    obtain ⟨_, _, h⟩ := bind_eq_ok.mp h
    obtain ⟨_, _, h⟩ := bind_eq_ok.mp h
    obtain ⟨_, _, h⟩ := bind_eq_ok.mp h
    have hret : plan.numDescriptors.toInt = plan.numDescriptors.toNat :=
      congrArg Prod.fst (Except.ok.inj h)
    rw [hn] at hret
    exact absurd hret (by decide)

end TpceDrv.FlexibleGeneration
