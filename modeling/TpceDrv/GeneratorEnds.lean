import TpceDrv.MappedRanges

namespace TpceDrv.GeneratorEnds

open Descriptor Mapping DmaParams Generation Reach Planning MappedRanges Library.Cuts

variable {params : TpceDmaTransferParams} {chInfo : TpceDmaChannelInfo} {mapInfo : TpceDmaMapInfo}
variable {L : ℕ} {fixed : Bool} {n k room : ℕ} {parts : List (U64 × ℕ)}

/-- The inner loop of `fill_addresses` ends after `k` descriptors on a part of `n`
bytes: with a fixed length that is where nothing is left modulo `2 ^ 32`. -/
def EndsAfter (L : ℕ) (fixed : Bool) (n k : ℕ) : Prop :=
  if fixed then k * L % 2 ^ 32 = n ∧ ∀ j < k, j * L % 2 ^ 32 ≠ n else k = (n + L - 1) / L

/-- The descriptors of the parts that the loops of `fill_addresses` get to, until `m`
are written, fit into a buffer for `room`. -/
def Fills (L : ℕ) (fixed : Bool) : ℕ → ℕ → List (U64 × ℕ) → Prop
  | m, _, [] => m = 0
  | m, room, p :: parts =>
      m = 0 ∨ ∃ k ≤ room, EndsAfter L fixed p.2 k ∧ Fills L fixed (m - k) (room - k) parts

theorem endsAfter_nothing (hL : 0 < L) : EndsAfter L fixed 0 k ↔ k = 0 := by
  cases fixed with
  | false =>
      have hzero : (0 + L - 1) / L = 0 := Nat.div_eq_of_lt (by omega)
      rw [EndsAfter, if_neg Bool.false_ne_true, hzero]
  | true =>
      rw [EndsAfter, if_pos rfl]
      constructor
      · rintro ⟨-, hfirst⟩
        by_contra hne
        exact hfirst 0 (Nat.pos_of_ne_zero hne) (by simp)
      · rintro rfl
        exact ⟨by simp, fun j hj => absurd hj (Nat.not_lt_zero j)⟩

theorem not_endsAfter_zero (hL : 0 < L) (hn : 0 < n) : ¬EndsAfter L fixed n 0 := by
  cases fixed with
  | false =>
      rw [EndsAfter, if_neg Bool.false_ne_true, ← length_cut hL, cut_step hL hn]
      exact fun h => by cases h
  | true =>
      rw [EndsAfter, if_pos rfl, Nat.zero_mul, Nat.zero_mod]
      exact fun h => hn.ne h.1

/-- One round of the inner loop, with its wrapping subtraction -/
theorem endsAfter_succ {n : U32} (hL : 0 < stepLength params chInfo) (hn : 0 < n.toNat) :
    EndsAfter (stepLength params chInfo) (fixedLength params) n.toNat (k + 1) ↔
      EndsAfter (stepLength params chInfo) (fixedLength params) (n - getTransferLength params chInfo n).toNat k := by
  have hlen := @getTransferLength_toNat params chInfo n
  have hsub := BitVec.toNat_sub n (getTransferLength params chInfo n)
  have hbound := (getTransferLength params chInfo n).isLt
  have hnlt := n.isLt
  generalize stepLength params chInfo = L at *
  generalize getTransferLength params chInfo n = len at *
  cases hf : fixedLength params with
  | false =>
      rw [hf, if_neg Bool.false_ne_true] at hlen
      have hrest : (n - len).toNat = n.toNat - min L n.toNat := by omega
      rw [EndsAfter, EndsAfter, if_neg Bool.false_ne_true, if_neg Bool.false_ne_true, ← length_cut hL,
        cut_step hL hn, ← hrest, List.length_cons, Nat.add_right_cancel_iff, length_cut hL]
  | true =>
      rw [hf, if_pos rfl] at hlen
      have hround : ∀ j, (j + 1) * L % 2 ^ 32 = n.toNat ↔ j * L % 2 ^ 32 = (n - len).toNat := by
        intro j
        rw [Nat.add_mul]
        omega
      rw [EndsAfter, EndsAfter, if_pos rfl, if_pos rfl, hround]
      refine and_congr_right fun _ => ⟨fun h j hj => mt (hround j).mpr (h (j + 1) (Nat.succ_lt_succ hj)), ?_⟩
      intro h j hj
      cases j with
      | zero =>
          rw [Nat.zero_mul, Nat.zero_mod]
          exact hn.ne
      | succ j => exact mt (hround j).mp (h j (Nat.lt_of_succ_lt_succ hj))

theorem fillPage_written (hL : 0 < stepLength params chInfo) {buf : List TpceDmaDescriptor} {idx : ℕ}
    {n dev rem : U32} {bus : U64} {page : PageFill} (h : fillPage params chInfo idx n bus dev rem buf = .ok page) :
    page.written.length ≤ buf.length ∧
      EndsAfter (stepLength params chInfo) (fixedLength params) n.toNat page.written.length := by
  induction buf generalizing idx n bus dev rem page with
  | nil =>
      simp only [fillPage] at h
      split at h
      · cases h
      · rename_i hn
        cases h
        obtain rfl : n = 0 := eq_zero_of_not_pos hn
        exact ⟨Nat.le_refl 0, (endsAfter_nothing hL).mpr rfl⟩
  | cons desc buf ih =>
      simp only [fillPage] at h
      split at h
      · rename_i hn
        obtain ⟨tail, htail, h⟩ := bind_eq_ok.mp h
        cases h
        obtain ⟨hle, hends⟩ := ih htail
        exact ⟨Nat.succ_le_succ hle, (endsAfter_succ hL (BitVec.lt_def.mp hn)).mpr hends⟩
      · rename_i hn
        cases h
        obtain rfl : n = 0 := eq_zero_of_not_pos hn
        exact ⟨Nat.zero_le _, (endsAfter_nothing hL).mpr rfl⟩

theorem fillPage_exists (hL : 0 < stepLength params chInfo) (idx : ℕ) {buf : List TpceDmaDescriptor}
    {n dev rem : U32} {bus : U64} (hk : k ≤ buf.length)
    (hends : EndsAfter (stepLength params chInfo) (fixedLength params) n.toNat k) :
    ∃ page, fillPage params chInfo idx n bus dev rem buf = .ok page ∧ page.written.length = k := by
  induction buf generalizing idx n bus dev rem k with
  | nil =>
      obtain rfl := Nat.le_zero.mp hk
      have hn : ¬n > 0 := fun hn => not_endsAfter_zero hL (BitVec.lt_def.mp hn) hends
      exact ⟨_, if_neg hn, rfl⟩
  | cons desc buf ih =>
      simp only [fillPage]
      split
      · rename_i hn
        have hpos : 0 < n.toNat := BitVec.lt_def.mp hn
        cases k with
        | zero => exact absurd hends (not_endsAfter_zero hL hpos)
        | succ k =>
            obtain ⟨page, hpage, hlength⟩ := ih _ (Nat.le_of_succ_le_succ hk) ((endsAfter_succ hL hpos).mp hends)
            exact ⟨_, bind_eq_ok.mpr ⟨page, hpage, rfl⟩, congrArg (· + 1) hlength⟩
      · rename_i hn
        obtain rfl : n = 0 := eq_zero_of_not_pos hn
        obtain rfl := (endsAfter_nothing hL).mp hends
        exact ⟨_, rfl, rfl⟩

theorem fills_nothing : Fills L fixed 0 room parts := by
  cases parts with
  | nil => rfl
  | cons p parts => exact .inl rfl

theorem covered_none {rem : ℕ} : Covered L fixed 0 rem parts := by
  cases fixed with
  | false => exact Nat.zero_le (pieceCount L parts)
  | true =>
      change 0 * L ≤ rem
      rw [Nat.zero_mul]
      exact Nat.zero_le rem

/-- What is left to write behind a part is covered by what is left of the ranges. -/
theorem covered_next {m rem : ℕ} {w : U64} {lens : List ℕ} (hL : 0 < L) (hrem : rem < 2 ^ 32) (hn : n ≤ rem)
    (hcov : Covered L fixed m rem ((w, n) :: parts)) (h : PageCut L fixed n lens) :
    Covered L fixed (m - lens.length) (rem - n) parts := by
  obtain ⟨-, -, rfl, hnext⟩ | ⟨-, hall, -⟩ := h.take hL hrem hn hcov
  · rw [length_cut hL]
    exact hnext
  · rw [Nat.sub_eq_zero_of_le hall]
    exact covered_none

theorem fillRanges_ends_iff {plan : DescriptorPlan} (hL : 0 < stepLength params chInfo) {slots : List Scatterlist}
    {mapIdx descIdx : ℕ} {skip dev rem : U32} {buf : List TpceDmaDescriptor} (hidx : plan.startingIdx ≤ mapIdx)
    (hskip : (if mapIdx = plan.startingIdx then plan.startingOffset else 0) = skip)
    (hcov : Covered (stepLength params chInfo) (fixedLength params) (plan.numDescriptors.toNat - descIdx) rem.toNat
      (touchedParts skip rem slots)) :
    (∃ out, fillRanges params chInfo plan mapIdx slots descIdx dev rem buf = .ok out) ↔
      Fills (stepLength params chInfo) (fixedLength params) (plan.numDescriptors.toNat - descIdx) buf.length
        (touchedParts skip rem slots) := by
  induction slots generalizing mapIdx descIdx skip dev rem buf with
  | nil =>
      have hleft : descIdx < plan.numDescriptors.toNat → rem > 0 := fun hlt => by
        by_contra hzero
        obtain rfl := eq_zero_of_not_pos hzero
        exact absurd (covered_nothing hL hcov) (by omega)
      simp only [fillRanges, touchedParts, Fills]
      split
      · rename_i hgo
        refine iff_of_false ?_ (by omega)
        rintro ⟨out, h⟩
        cases h
      · rename_i hstop
        exact iff_of_true ⟨buf, rfl⟩ (by by_contra hne; exact hstop ⟨by omega, hleft (by omega)⟩)
  | cons sg rest ih =>
      by_cases hgo : descIdx < plan.numDescriptors.toNat ∧ rem > 0
      · have hle := toNat_tpceMin (tpceDmaMapRangeSize sg - skip) rem
        have hsub : (rem - tpceMin (tpceDmaMapRangeSize sg - skip) rem).toNat =
            rem.toNat - (tpceMin (tpceDmaMapRangeSize sg - skip) rem).toNat :=
          BitVec.toNat_sub_of_le (BitVec.le_def.mpr (by omega))
        rw [touchedParts, if_pos hgo.2] at hcov ⊢
        have htail : ∀ page, fillPage params chInfo descIdx (tpceMin (tpceDmaMapRangeSize sg - skip) rem)
              (tpceDmaMapRangeAddr sg + skip.setWidth 64) dev rem buf = .ok page →
            ((∃ out, fillRanges params chInfo plan (mapIdx + 1) rest (descIdx + page.written.length) page.deviceAddr
                page.bytesRem page.unwritten = .ok out) ↔
              Fills (stepLength params chInfo) (fixedLength params)
                (plan.numDescriptors.toNat - descIdx - page.written.length) (buf.length - page.written.length)
                (touchedParts 0 (rem - tpceMin (tpceDmaMapRangeSize sg - skip) rem) rest)) := by
          intro page hpage
          obtain ⟨lens, hcut, hmap, -, hrest⟩ := fillPage_cut hL hpage
          have hwritten : page.written.length = lens.length := by simpa using congrArg List.length hmap
          have hnext := covered_next hL rem.isLt (by omega) hcov hcut
          rw [← hwritten, ← hsub, Nat.sub_sub] at hnext
          rw [hrest, ih (by omega) (if_neg (by omega)) hnext, fillPage_unwritten hpage, List.length_drop, Nat.sub_sub]
        simp only [fillRanges]
        rw [if_pos hgo, hskip]
        constructor
        · rintro ⟨out, h⟩
          obtain ⟨page, hpage, h⟩ := bind_eq_ok.mp h
          obtain ⟨tail, hrun, -⟩ := bind_eq_ok.mp h
          obtain ⟨hfits, hends⟩ := fillPage_written hL hpage
          exact .inr ⟨page.written.length, hfits, hends, (htail page hpage).mp ⟨tail, hrun⟩⟩
        · rintro (hnone | ⟨k, hfits, hends, hfills⟩)
          · omega
          · obtain ⟨page, hpage, rfl⟩ := fillPage_exists hL descIdx hfits hends
            obtain ⟨tail, hrun⟩ := (htail page hpage).mpr hfills
            exact ⟨_, bind_eq_ok.mpr ⟨page, hpage, bind_eq_ok.mpr ⟨tail, hrun, rfl⟩⟩⟩
      · have hnone : plan.numDescriptors.toNat - descIdx = 0 := by
          by_contra hne
          have hzero := eq_zero_of_not_pos fun hr => hgo ⟨by omega, hr⟩
          rw [hzero, touchedParts_zero] at hcov
          exact hne (covered_nothing hL hcov)
        simp only [fillRanges]
        rw [if_neg hgo, hnone]
        exact iff_of_true ⟨buf, rfl⟩ fills_nothing

theorem ranges_indexed {plan : DescriptorPlan} (h : createDescriptorPlan mapInfo params = .ok plan) :
    tpceDmaMapNumRanges mapInfo ≤ mapInfo.sgt.sgl.slots.length := by
  by_cases hne : tpceDmaMapNumRanges mapInfo = 0
  · omega
  · obtain ⟨_, -, h⟩ := bind_eq_ok.mp h
    dsimp only at h
    rw [if_neg hne] at h
    obtain ⟨g, hg, -⟩ := bind_eq_ok.mp h
    exact (gcdDmaPageSizes_spec hg hne).1

/-- The fill of a planned request, from the first range on -/
theorem fillAddresses_ends_iff {plan : DescriptorPlan} {ds : List TpceDmaDescriptor}
    (hch : channelInfo params.channel = .ok chInfo) (hplan : createDescriptorPlan mapInfo params = .ok plan)
    (hsome : plan.numDescriptors ≠ 0) :
    (∃ filled, fillAddresses params chInfo mapInfo ds plan = .ok filled) ↔
      Fills (pieceLength params) (fixedLength params) (plannedCount params mapInfo) ds.length
        (partsFrom params mapInfo mapInfo.sgt.sgl.slots) := by
  obtain ⟨hnum, hcases⟩ := createDescriptorPlan_cases hplan
  obtain ⟨hne, -, hskip⟩ := hcases.resolve_left hsome
  have hL : 0 < stepLength params chInfo := stepLength_eq hch ▸ pieceLength_pos params
  have hcov := covered_plan hne hskip
  rw [← stepLength_eq hch, ← hnum, ← Nat.sub_zero plan.numDescriptors.toNat] at hcov
  rw [partsFrom_eq hskip, ← stepLength_eq hch, ← hnum, ← Nat.sub_zero plan.numDescriptors.toNat]
  exact fillRanges_ends_iff hL (Nat.le_refl plan.startingIdx) (if_pos rfl) hcov

/-- The generator ends for a planned request exactly if the buffer takes the
descriptors that it writes. -/
theorem generates_iff {ds : List TpceDmaDescriptor} {maxDescriptors : U32}
    (hch : channelInfo params.channel = .ok chInfo) (hfits : plannedCount params mapInfo ≤ maxDescriptors.toNat) :
    (∃ r, tpceGenerateDescriptors params mapInfo ds maxDescriptors = .ok r) ↔
      tpceDmaMapNumRanges mapInfo ≤ mapInfo.sgt.sgl.slots.length ∧ plannedCount params mapInfo ≤ ds.length ∧
        Fills (pieceLength params) (fixedLength params) (plannedCount params mapInfo) ds.length
          (partsFrom params mapInfo mapInfo.sgt.sgl.slots) := by
  have hmax : ∀ plan, createDescriptorPlan mapInfo params = .ok plan → ¬plan.numDescriptors > maxDescriptors :=
    fun plan hplan => BitVec.not_lt.mpr (BitVec.le_def.mpr ((createDescriptorPlan_cases hplan).1 ▸ hfits))
  constructor
  · rintro ⟨r, h⟩
    obtain ⟨plan, hplan, h⟩ := bind_eq_ok.mp h
    refine ⟨ranges_indexed hplan, ?_⟩
    have hnum := (createDescriptorPlan_cases hplan).1
    rw [if_neg (hmax plan hplan)] at h
    split at h
    · rename_i hz
      rw [← hnum, hz]
      exact ⟨Nat.zero_le _, fills_nothing⟩
    · rename_i hsome
      obtain ⟨_, hch', h⟩ := bind_eq_ok.mp h
      obtain rfl := Except.ok.inj (hch.symm.trans hch')
      obtain ⟨zeroed, hzeroed, h⟩ := bind_eq_ok.mp h
      obtain ⟨filled, hfilled, -⟩ := bind_eq_ok.mp h
      obtain ⟨hroom, hlength⟩ := zeroDescriptors_ok hzeroed
      rw [← hnum, ← hlength]
      rw [← hlength] at hroom
      exact ⟨hroom, hnum ▸ (fillAddresses_ends_iff hch hplan hsome).mp ⟨filled, hfilled⟩⟩
  · rintro ⟨hranges, hroom, hfills⟩
    obtain ⟨plan, hplan⟩ := createDescriptorPlan_exists hch hranges
    have hnum := (createDescriptorPlan_cases hplan).1
    by_cases hz : plan.numDescriptors = 0
    · exact ⟨_, bind_eq_ok.mpr ⟨plan, hplan, by rw [if_neg (hmax plan hplan), if_pos hz]; rfl⟩⟩
    · obtain ⟨zeroed, hzeroed⟩ : ∃ zeroed, zeroDescriptors ds plan.numDescriptors.toNat = .ok zeroed :=
        ⟨_, if_neg (Nat.not_lt.mpr (hnum ▸ hroom))⟩
      rw [← (zeroDescriptors_ok hzeroed).2] at hfills
      obtain ⟨filled, hfilled⟩ := (fillAddresses_ends_iff hch hplan hz).mpr hfills
      exact ⟨_, bind_eq_ok.mpr ⟨plan, hplan, (if_neg (hmax plan hplan)).trans ((if_neg hz).trans
        (bind_eq_ok.mpr ⟨chInfo, hch, bind_eq_ok.mpr ⟨zeroed, hzeroed, bind_eq_ok.mpr ⟨filled, hfilled, rfl⟩⟩⟩))⟩⟩

end TpceDrv.GeneratorEnds
