import TpceDrv.Library.Cuts
import TpceDrv.Generation

namespace TpceDrv.Reach

open Descriptor Mapping DmaParams Generation Library.Cuts

instance bitVecAddAction {w : ℕ} : AddAction ℕ (BitVec w) where
  vadd n a := a + BitVec.ofNat w n
  zero_vadd a := BitVec.add_zero a
  add_vadd m n a := by
    show a + BitVec.ofNat w (m + n) = a + BitVec.ofNat w n + BitVec.ofNat w m
    rw [BitVec.ofNat_add, BitVec.add_assoc, BitVec.add_comm (BitVec.ofNat w m)]

theorem vadd_toNat {v w : ℕ} (n : BitVec v) (a : BitVec w) : n.toNat +ᵥ a = a + n.setWidth w :=
  congrArg (a + ·) (BitVec.ofNat_toNat w n)

theorem toNat_vadd {w : ℕ} (n : ℕ) (a : BitVec w) : (n +ᵥ a).toNat = (a.toNat + n) % 2 ^ w := by
  show (a + BitVec.ofNat w n).toNat = _
  rw [BitVec.toNat_add, BitVec.toNat_ofNat, Nat.add_mod_mod]

/-- The parts of the ranges that a transfer of `total` bytes from offset
`skip` of the first one on goes through. -/
def touchedParts : U32 → U32 → List Scatterlist → List (U64 × ℕ)
  | _, _, [] => []
  | skip, total, sg :: rest =>
      if total > 0 then
        let part := tpceMin (tpceDmaMapRangeSize sg - skip) total
        (tpceDmaMapRangeAddr sg + skip.setWidth 64, part.toNat) :: touchedParts 0 (total - part) rest
      else []

/-- Whether pieces of `L` bytes end where a part of `n` bytes ends: a shorter
last piece is only made when the length is not fixed. -/
abbrev Regular (L : ℕ) (fixed : Bool) (n : ℕ) : Prop := fixed = true → L ∣ n

/-- The stretches of memory that the first `m` pieces of `L` bytes cover. With
a fixed length the first part that `L` does not divide takes all that is
left, past its end. -/
def reach (L : ℕ) (fixed : Bool) : ℕ → List (U64 × ℕ) → List (U64 × ℕ)
  | _, [] => []
  | m, (w, n) :: rest =>
      if Regular L fixed n ∧ (n + L - 1) / L ≤ m then
        (w, n) :: reach L fixed (m - (n + L - 1) / L) rest
      else [(w, m * L)]

def pieces (L : ℕ) (stretches : List (U64 × ℕ)) : List (U64 × ℕ) :=
  stretches.flatMap fun s => layout s.1 (cut L s.2)

def pieceCount (L : ℕ) (parts : List (U64 × ℕ)) : ℕ := (parts.map fun p => (p.2 + L - 1) / L).sum

/-- The lengths that the inner loop of the generator writes for a part. -/
def PageCut (L : ℕ) (fixed : Bool) (n : ℕ) (lens : List ℕ) : Prop :=
  if Regular L fixed n then lens = cut L n else ∃ k, lens = List.replicate k L ∧ 2 ^ 32 ≤ k * L

/-- The length of a piece: `bytes_per_descriptor` when it is given. -/
def stepLength (params : TpceDmaTransferParams) (chInfo : TpceDmaChannelInfo) : ℕ :=
  if params.bytesPerDescriptor > 0 then params.bytesPerDescriptor.toNat else chInfo.maxTransfer.toNat

def fixedLength (params : TpceDmaTransferParams) : Bool := params.bytesPerDescriptor > 0

variable {params : TpceDmaTransferParams} {chInfo : TpceDmaChannelInfo}

theorem getTransferLength_toNat (n : U32) : (getTransferLength params chInfo n).toNat =
    if fixedLength params then stepLength params chInfo else min (stepLength params chInfo) n.toNat := by
  simp only [getTransferLength, fixedLength, stepLength]
  by_cases h : params.bytesPerDescriptor > 0
  · simp only [h, if_true, decide_true]
  · simp only [h, if_false, decide_false, Bool.false_eq_true, toNat_tpceMin, Nat.min_comm]

theorem setAddresses_host (bus : U64) (dev len : U32) (desc : TpceDmaDescriptor) :
    hostInterval params.direction
      { setAddresses params chInfo bus dev desc with transferLength := len } = (bus, len.toNat) := by
  simp only [hostInterval, hostAddr, setAddresses]
  by_cases h : params.direction = tpceDmaFromDevice
  · simp only [h, if_true, Prod.mk.injEq, and_true]
    exact combine_split bus
  · simp only [h, if_false, Prod.mk.injEq, and_true]
    exact combine_split bus

theorem pageCut_regular {L n : ℕ} {fixed : Bool} {lens : List ℕ} (h : Regular L fixed n) :
    PageCut L fixed n lens ↔ lens = cut L n := by
  rw [PageCut, if_pos h]

theorem pageCut_irregular {L n : ℕ} {lens : List ℕ} (h : ¬ L ∣ n) :
    PageCut L true n lens ↔ ∃ k, lens = List.replicate k L ∧ 2 ^ 32 ≤ k * L := by
  rw [PageCut, if_neg fun hr => h (hr rfl)]

theorem PageCut.zero {L : ℕ} {fixed : Bool} : PageCut L fixed 0 [] :=
  (pageCut_regular fun _ => Nat.dvd_zero L).mpr (cut_zero L).symm

/-- One round of the inner loop, with its wrapping subtraction. -/
theorem PageCut.cons {lens : List ℕ} {n : U32} (hL : 0 < stepLength params chInfo) (hn : 0 < n.toNat)
    (h : PageCut (stepLength params chInfo) (fixedLength params)
      (n - getTransferLength params chInfo n).toNat lens) :
    PageCut (stepLength params chInfo) (fixedLength params) n.toNat
      ((getTransferLength params chInfo n).toNat :: lens) := by
  have hlen := @getTransferLength_toNat params chInfo n
  have hsub := BitVec.toNat_sub n (getTransferLength params chInfo n)
  have hbound := (getTransferLength params chInfo n).isLt
  have hnlt := n.isLt
  generalize stepLength params chInfo = L at *
  generalize getTransferLength params chInfo n = len at *
  cases hf : fixedLength params with
  | false =>
      have hany : ∀ k, Regular L false k := fun k hk => by cases hk
      rw [hf, if_neg Bool.false_ne_true] at hlen
      rw [hf, pageCut_regular (hany _)] at h
      have hs : (n - len).toNat = n.toNat - min L n.toNat := by omega
      rw [pageCut_regular (hany _), cut_step hL hn, hlen, h, hs]
  | true =>
      rw [hf, if_pos rfl] at hlen
      rw [hf] at h
      by_cases hd : L ∣ n.toNat
      · have hle : L ≤ n.toNat := Nat.le_of_dvd hn hd
        have hs : (n - len).toNat = n.toNat - L := by omega
        rw [pageCut_regular fun _ => hs ▸ Nat.dvd_sub hd (Nat.dvd_refl L)] at h
        rw [pageCut_regular fun _ => hd, cut_step hL hn, Nat.min_eq_left hle, h, hs, hlen]
      · rw [pageCut_irregular hd]
        by_cases hd' : L ∣ (n - len).toNat
        · rw [pageCut_regular fun _ => hd', cut_of_dvd hd'] at h
          refine ⟨(n - len).toNat / L + 1, by rw [h, hlen, List.replicate_succ], ?_⟩
          have hmul : (n - len).toNat / L * L = (n - len).toNat := Nat.div_mul_cancel hd'
          have hlt : n.toNat < L := by
            by_contra hle
            have hs : n.toNat = (n - len).toNat + L := by omega
            exact hd (hs ▸ Nat.dvd_add hd' (Nat.dvd_refl L))
          rw [Nat.add_mul, hmul]
          omega
        · obtain ⟨k, hk, hbig⟩ := (pageCut_irregular hd').mp h
          exact ⟨k + 1, by rw [hk, hlen, List.replicate_succ], by rw [Nat.add_mul]; omega⟩

theorem eq_zero_of_not_pos {n : U32} (h : ¬ n > 0) : n = 0 := by
  apply BitVec.eq_of_toNat_eq
  simpa using BitVec.le_def.mp (BitVec.not_lt.mp h)

theorem gt_zero_of_toNat {n : U32} (h : 0 < n.toNat) : n > 0 := BitVec.lt_def.mpr h

theorem fillPage_cut (hL : 0 < stepLength params chInfo) {buf : List TpceDmaDescriptor} {idx : ℕ}
    {n dev rem : U32} {bus : U64} {page : PageFill}
    (h : fillPage params chInfo idx n bus dev rem buf = .ok page) :
    ∃ lens, PageCut (stepLength params chInfo) (fixedLength params) n.toNat lens ∧
      page.written.map (hostInterval params.direction) = layout bus lens ∧
      buf.length = lens.length + page.unwritten.length ∧ page.bytesRem = rem - n := by
  induction buf generalizing idx n bus dev rem page with
  | nil =>
      simp only [fillPage] at h
      split at h
      · cases h
      · rename_i hn
        cases h
        obtain rfl : n = 0 := eq_zero_of_not_pos hn
        exact ⟨[], PageCut.zero, rfl, rfl, by simp⟩
  | cons desc buf ih =>
      simp only [fillPage] at h
      split at h
      · rename_i hn
        cases hrec : fillPage params chInfo (idx + 1) (n - getTransferLength params chInfo n)
            (bus + (getTransferLength params chInfo n).setWidth 64)
            (dev + getTransferLength params chInfo n) (rem - getTransferLength params chInfo n) buf with
        | error e => simp [hrec, bind, Except.bind] at h
        | ok tail =>
            simp only [hrec, bind, Except.bind, pure, Except.pure, Except.ok.injEq] at h
            subst h
            obtain ⟨lens, hcut, hmap, hlen, hrem⟩ := ih hrec
            refine ⟨_ :: lens, hcut.cons hL (BitVec.lt_def.mp hn), ?_, ?_, ?_⟩
            · rw [List.map_cons, setAddresses_host, hmap, layout, vadd_toNat]
            · simp only [List.length_cons]
              omega
            · rw [hrem]
              bv_omega
      · rename_i hn
        cases h
        obtain rfl : n = 0 := eq_zero_of_not_pos hn
        exact ⟨[], PageCut.zero, rfl, by simp, by simp⟩

@[simp] theorem pieces_cons (L : ℕ) (s : U64 × ℕ) (stretches : List (U64 × ℕ)) :
    pieces L (s :: stretches) = layout s.1 (cut L s.2) ++ pieces L stretches := rfl

@[simp] theorem pieceCount_cons (L : ℕ) (p : U64 × ℕ) (parts : List (U64 × ℕ)) :
    pieceCount L (p :: parts) = (p.2 + L - 1) / L + pieceCount L parts := rfl

theorem pieces_reach_zero {L : ℕ} (hL : 0 < L) (fixed : Bool) (parts : List (U64 × ℕ)) :
    pieces L (reach L fixed 0 parts) = [] := by
  induction parts with
  | nil => rfl
  | cons p parts ih =>
      simp only [reach]
      split
      · rename_i h
        have hlen := length_cut hL p.2
        have hnil : cut L p.2 = [] := List.eq_nil_of_length_eq_zero (by omega)
        rw [pieces_cons, hnil, Nat.zero_sub, ih]
        rfl
      · rw [Nat.zero_mul, pieces_cons, cut_zero]
        rfl

theorem pieces_reach_flexible {L : ℕ} (hL : 0 < L) (m : ℕ) (parts : List (U64 × ℕ)) :
    pieces L (reach L false m parts) = (pieces L parts).take m := by
  induction parts generalizing m with
  | nil => exact List.take_nil.symm
  | cons p parts ih =>
      have hlen := length_cut hL p.2
      have hregular : Regular L false p.2 := fun hfixed => absurd hfixed Bool.false_ne_true
      simp only [reach]
      split
      · rename_i h
        have hwhole : (layout p.1 (cut L p.2)).take m = layout p.1 (cut L p.2) :=
          List.take_of_length_le (by rw [length_layout]; omega)
        rw [pieces_cons, pieces_cons, ih, List.take_append, hwhole, length_layout, hlen]
      · rename_i h
        have hshort : m < (cut L p.2).length := hlen ▸ Nat.not_le.mp fun hle => h ⟨hregular, hle⟩
        rw [pieces_cons, pieces_cons, List.take_append_of_le_length (by rw [length_layout]; exact hshort.le),
          take_layout, take_cut hL hshort]
        exact List.append_nil _

/-- What bounds the planned count from above: with a fixed length the bytes
left, else the pieces of the parts left. -/
def Covered (L : ℕ) (fixed : Bool) (m rem : ℕ) (parts : List (U64 × ℕ)) : Prop :=
  if fixed then m * L ≤ rem else m ≤ pieceCount L parts

theorem covered_nothing {L m : ℕ} {fixed : Bool} (hL : 0 < L) (h : Covered L fixed m 0 []) : m = 0 := by
  cases fixed with
  | false => exact Nat.le_zero.mp h
  | true => exact (Nat.mul_eq_zero.mp (Nat.le_zero.mp h)).resolve_right hL.ne'

/-- One part: either its pieces are all among the first `m`, or the first `m`
pieces are cut off it. -/
theorem PageCut.take {L m rem : ℕ} {fixed : Bool} {w : U64} {n : ℕ} {lens : List ℕ}
    {parts : List (U64 × ℕ)} (hL : 0 < L) (hrem : rem < 2 ^ 32) (hn : n ≤ rem)
    (hcov : Covered L fixed m rem ((w, n) :: parts)) (h : PageCut L fixed n lens) :
    (Regular L fixed n ∧ (n + L - 1) / L ≤ m ∧ lens = cut L n ∧
        Covered L fixed (m - (n + L - 1) / L) (rem - n) parts) ∨
      (¬ (Regular L fixed n ∧ (n + L - 1) / L ≤ m) ∧ m ≤ lens.length ∧
        lens.take m = cut L (m * L)) := by
  have hlen := length_cut hL n
  by_cases hr : Regular L fixed n
  · obtain rfl := (pageCut_regular hr).mp h
    by_cases hc : (n + L - 1) / L ≤ m
    · refine .inl ⟨hr, hc, rfl, ?_⟩
      cases fixed with
      | false =>
          have hm : m ≤ (n + L - 1) / L + pieceCount L parts := hcov
          show _ ≤ _
          omega
      | true =>
          have hm : m * L ≤ rem := hcov
          have hd := hr rfl
          have hk : (n + L - 1) / L = n / L := by
            rw [← hlen, cut_of_dvd hd, List.length_replicate]
          show _ * L ≤ _
          rw [hk, Nat.sub_mul, Nat.div_mul_cancel hd]
          omega
    · exact .inr ⟨fun hb => hc hb.2, by omega, take_cut hL (by omega)⟩
  · have hf : fixed = true := by
      by_contra hf
      exact hr fun ht => absurd ht hf
    subst hf
    have hd : ¬ L ∣ n := fun hd => hr fun _ => hd
    obtain ⟨k, rfl, hbig⟩ := (pageCut_irregular hd).mp h
    have hm : m * L ≤ rem := hcov
    have hk : m ≤ k := Nat.le_of_mul_le_mul_right (by omega) hL
    refine .inr ⟨fun hb => hr hb.1, by simpa using hk, ?_⟩
    rw [List.take_replicate, Nat.min_eq_left hk, cut_mul hL]

theorem forall_mem_pieces {L : ℕ} (hL : 0 < L) {stretches : List (U64 × ℕ)} {P : U64 → ℕ → Prop} :
    (∀ p ∈ pieces L stretches, P p.1 p.2) ↔
      ∀ s ∈ stretches, ∀ k, k * L < s.2 → P ((k * L) +ᵥ s.1) (min L (s.2 - k * L)) := by
  simp only [pieces]
  constructor
  · intro h s hs k hk
    exact h _ (List.mem_flatMap.mpr ⟨s, hs, (mem_layout_cut hL).mpr ⟨k, hk, rfl, rfl⟩⟩)
  · rintro h ⟨x, l⟩ hp
    obtain ⟨s, hs, hp⟩ := List.mem_flatMap.mp hp
    obtain ⟨k, hk, rfl, rfl⟩ := (mem_layout_cut hL).mp hp
    exact h s hs k hk

theorem touchedParts_zero (skip : U32) (slots : List Scatterlist) : touchedParts skip 0 slots = [] := by
  cases slots with
  | nil => rfl
  | cons sg rest => rfl

theorem fillRanges_reach {plan : DescriptorPlan} (hL : 0 < stepLength params chInfo)
    {slots : List Scatterlist} {mapIdx descIdx m : ℕ} {dev rem : U32} {buf out : List TpceDmaDescriptor}
    (hidx : plan.startingIdx ≤ mapIdx) (hm : m = plan.numDescriptors.toNat - descIdx)
    (hcov : Covered (stepLength params chInfo) (fixedLength params) m rem.toNat
      (touchedParts (if mapIdx = plan.startingIdx then plan.startingOffset else 0) rem slots))
    (h : fillRanges params chInfo plan mapIdx slots descIdx dev rem buf = .ok out) :
    (out.take m).map (hostInterval params.direction) =
      pieces (stepLength params chInfo) (reach (stepLength params chInfo) (fixedLength params) m
        (touchedParts (if mapIdx = plan.startingIdx then plan.startingOffset else 0) rem slots)) := by
  induction slots generalizing mapIdx descIdx m dev rem buf out with
  | nil =>
      simp only [fillRanges] at h
      split at h
      · cases h
      · rename_i hstop
        obtain rfl : m = 0 := by
          by_contra hpos
          have hz := eq_zero_of_not_pos fun hr => hstop ⟨by omega, hr⟩
          subst hz
          exact hpos (covered_nothing hL hcov)
        rfl
  | cons sg rest ih =>
      simp only [fillRanges] at h
      split at h
      · rename_i hgo
        generalize hskip : (if mapIdx = plan.startingIdx then plan.startingOffset else 0) = skip at *
        cases hpage : fillPage params chInfo descIdx (tpceMin (tpceDmaMapRangeSize sg - skip) rem)
            (tpceDmaMapRangeAddr sg + skip.setWidth 64) dev rem buf with
        | error e => simp [hpage, bind, Except.bind] at h
        | ok page =>
            simp only [hpage, bind, Except.bind] at h
            cases htail : fillRanges params chInfo plan (mapIdx + 1) rest
                (descIdx + page.written.length) page.deviceAddr page.bytesRem page.unwritten with
            | error e => simp [htail] at h
            | ok tail =>
                simp only [htail, pure, Except.pure, Except.ok.injEq] at h
                subst h
                obtain ⟨lens, hcut, hmap, -, hrem⟩ := fillPage_cut hL hpage
                have hwlen : page.written.length = lens.length := by
                  simpa using congrArg List.length hmap
                have hle := toNat_tpceMin (tpceDmaMapRangeSize sg - skip) rem
                have hnext : mapIdx + 1 ≠ plan.startingIdx := by omega
                rw [touchedParts, if_pos hgo.2] at hcov ⊢
                have hsub : (rem - tpceMin (tpceDmaMapRangeSize sg - skip) rem).toNat =
                    rem.toNat - (tpceMin (tpceDmaMapRangeSize sg - skip) rem).toNat :=
                  BitVec.toNat_sub_of_le (BitVec.le_def.mpr (by omega))
                rcases hcut.take hL rem.isLt (by omega) hcov with ⟨hr, hc, rfl, hcov'⟩ | ⟨hn, hk, ht⟩
                · have hclen := length_cut hL (tpceMin (tpceDmaMapRangeSize sg - skip) rem).toNat
                  have hrec := ih (by omega) (m := m - page.written.length) (by omega)
                    (by rw [if_neg hnext, hrem, hsub, hwlen, hclen]; exact hcov') htail
                  rw [if_neg hnext, hrem, hwlen, hclen] at hrec
                  rw [reach, if_pos ⟨hr, hc⟩, pieces_cons, List.take_append, List.map_append,
                    List.take_of_length_le (by omega), hmap, hwlen, hclen, hrec]
                · rw [reach, if_neg hn, pieces_cons, List.take_append_of_le_length (by omega),
                    List.map_take, hmap, take_layout, ht]
                  simp [pieces]
      · rename_i hstop
        obtain rfl : m = 0 := by
          by_contra hpos
          have hz := eq_zero_of_not_pos fun hr => hstop ⟨by omega, hr⟩
          subst hz
          rw [touchedParts_zero] at hcov
          exact hpos (covered_nothing hL hcov)
        rw [pieces_reach_zero hL]
        rfl

theorem length_fillRanges (hL : 0 < stepLength params chInfo) {plan : DescriptorPlan}
    {slots : List Scatterlist} {mapIdx descIdx : ℕ} {dev rem : U32} {buf out : List TpceDmaDescriptor}
    (h : fillRanges params chInfo plan mapIdx slots descIdx dev rem buf = .ok out) :
    out.length = buf.length := by
  induction slots generalizing mapIdx descIdx dev rem buf out with
  | nil =>
      simp only [fillRanges] at h
      split at h
      · cases h
      · cases h
        rfl
  | cons sg rest ih =>
      simp only [fillRanges] at h
      split at h
      · obtain ⟨page, hpage, h⟩ := bind_eq_ok.mp h
        obtain ⟨tail, htail, h⟩ := bind_eq_ok.mp h
        cases h
        obtain ⟨lens, -, hmap, hlen, -⟩ := fillPage_cut hL hpage
        have hwritten : page.written.length = lens.length := by simpa using congrArg List.length hmap
        rw [List.length_append, ih htail, hwritten, hlen]
      · cases h
        rfl

theorem fillPage_unwritten {buf : List TpceDmaDescriptor} {idx : ℕ} {n dev rem : U32} {bus : U64}
    {page : PageFill} (h : fillPage params chInfo idx n bus dev rem buf = .ok page) :
    page.unwritten = buf.drop page.written.length := by
  induction buf generalizing idx n bus dev rem page with
  | nil =>
      simp only [fillPage] at h
      split at h
      · cases h
      · cases h
        rfl
  | cons desc buf ih =>
      simp only [fillPage] at h
      split at h
      · cases hrec : fillPage params chInfo (idx + 1) (n - getTransferLength params chInfo n)
            (bus + (getTransferLength params chInfo n).setWidth 64)
            (dev + getTransferLength params chInfo n) (rem - getTransferLength params chInfo n) buf with
        | error e => simp [hrec, bind, Except.bind] at h
        | ok tail =>
            simp only [hrec, bind, Except.bind, pure, Except.pure, Except.ok.injEq] at h
            subst h
            simpa using ih hrec
      · cases h
        rfl

theorem fillPage_regular (hL : 0 < stepLength params chInfo) (buf : List TpceDmaDescriptor) (idx : ℕ)
    (bus : U64) (dev rem : U32) {n : U32}
    (hr : Regular (stepLength params chInfo) (fixedLength params) n.toNat)
    (hbuf : (cut (stepLength params chInfo) n.toNat).length ≤ buf.length) :
    ∃ page, fillPage params chInfo idx n bus dev rem buf = .ok page := by
  induction buf generalizing idx n bus dev rem with
  | nil =>
      have hz : n = 0 := by
        refine eq_zero_of_not_pos fun hn => ?_
        rw [cut_step hL (BitVec.lt_def.mp hn)] at hbuf
        simp at hbuf
      subst hz
      exact ⟨_, rfl⟩
  | cons desc buf ih =>
      simp only [fillPage]
      split
      · rename_i hn
        have hpos : 0 < n.toNat := BitVec.lt_def.mp hn
        have hlen : (getTransferLength params chInfo n).toNat = min (stepLength params chInfo) n.toNat := by
          rw [getTransferLength_toNat]
          split
          · rename_i hf
            exact (Nat.min_eq_left (Nat.le_of_dvd hpos (hr hf))).symm
          · rfl
        have hsub : (n - getTransferLength params chInfo n).toNat =
            n.toNat - min (stepLength params chInfo) n.toNat := by
          rw [BitVec.toNat_sub_of_le (BitVec.le_def.mpr (by omega)), hlen]
        have hr' : Regular (stepLength params chInfo) (fixedLength params)
            (n - getTransferLength params chInfo n).toNat := by
          intro hf
          rw [hsub, Nat.min_eq_left (Nat.le_of_dvd hpos (hr hf))]
          exact Nat.dvd_sub (hr hf) (Nat.dvd_refl _)
        rw [cut_step hL hpos] at hbuf
        obtain ⟨page, hpage⟩ := ih (idx + 1) (bus + (getTransferLength params chInfo n).setWidth 64)
          (dev + getTransferLength params chInfo n) (rem - getTransferLength params chInfo n) hr'
          (by rw [hsub]; simpa using hbuf)
        simp only [hpage, bind, Except.bind, pure, Except.pure]
        exact ⟨_, rfl⟩
      · exact ⟨_, rfl⟩

theorem length_pieces {L : ℕ} (hL : 0 < L) (parts : List (U64 × ℕ)) :
    (pieces L parts).length = pieceCount L parts := by
  induction parts with
  | nil => rfl
  | cons p parts ih => simp [ih, length_cut hL]

/-- When every part is regular and the ranges suffice, the outer loop ends
and writes one descriptor per piece. -/
theorem fillRanges_regular (plan : DescriptorPlan) (slots : List Scatterlist) (mapIdx descIdx : ℕ)
    (dev rem : U32) (buf : List TpceDmaDescriptor) {skip : U32} (hL : 0 < stepLength params chInfo)
    (hidx : plan.startingIdx ≤ mapIdx)
    (hskip : (if mapIdx = plan.startingIdx then plan.startingOffset else 0) = skip)
    (hr : ∀ p ∈ touchedParts skip rem slots, Regular (stepLength params chInfo) (fixedLength params) p.2)
    (hsum : ((touchedParts skip rem slots).map Prod.snd).sum = rem.toNat)
    (hm : plan.numDescriptors.toNat = descIdx + pieceCount (stepLength params chInfo)
      (touchedParts skip rem slots))
    (hbuf : pieceCount (stepLength params chInfo) (touchedParts skip rem slots) ≤ buf.length) :
    ∃ written, fillRanges params chInfo plan mapIdx slots descIdx dev rem buf =
        .ok (written ++ buf.drop written.length) ∧
      written.map (hostInterval params.direction) =
        pieces (stepLength params chInfo) (touchedParts skip rem slots) := by
  induction slots generalizing mapIdx descIdx dev rem skip buf with
  | nil =>
      have hz : rem = 0 := BitVec.eq_of_toNat_eq (by simpa [touchedParts] using hsum.symm)
      subst hz
      exact ⟨[], by simp [fillRanges], rfl⟩
  | cons sg rest ih =>
      by_cases hrem : rem > 0
      · by_cases hgo : descIdx < plan.numDescriptors.toNat
        · rw [touchedParts, if_pos hrem] at hr hsum hm hbuf ⊢
          have hle := toNat_tpceMin (tpceDmaMapRangeSize sg - skip) rem
          rw [pieceCount_cons] at hm hbuf
          rw [List.map_cons, List.sum_cons] at hsum
          dsimp only at hsum hm hbuf
          have hclen := length_cut hL (tpceMin (tpceDmaMapRangeSize sg - skip) rem).toNat
          obtain ⟨page, hpage⟩ := fillPage_regular hL buf descIdx
            (tpceDmaMapRangeAddr sg + skip.setWidth 64) dev rem
            (hr _ List.mem_cons_self) (by omega)
          obtain ⟨lens, hcut, hmap, -, hrest⟩ := fillPage_cut hL hpage
          have hun := fillPage_unwritten hpage
          obtain rfl := (pageCut_regular (hr _ List.mem_cons_self)).mp hcut
          have hwlen : page.written.length =
              (cut (stepLength params chInfo) (tpceMin (tpceDmaMapRangeSize sg - skip) rem).toNat).length := by
            simpa using congrArg List.length hmap
          have hsub : (rem - tpceMin (tpceDmaMapRangeSize sg - skip) rem).toNat =
              rem.toNat - (tpceMin (tpceDmaMapRangeSize sg - skip) rem).toNat :=
            BitVec.toNat_sub_of_le (BitVec.le_def.mpr (by omega))
          obtain ⟨written, hok, hw⟩ := ih (mapIdx + 1) (descIdx + page.written.length) page.deviceAddr
            (rem - tpceMin (tpceDmaMapRangeSize sg - skip) rem) page.unwritten
            (by omega) (if_neg (by omega)) (fun p hp => hr p (List.mem_cons_of_mem _ hp))
            (by omega) (by omega) (by rw [hun, List.length_drop]; omega)
          refine ⟨page.written ++ written, ?_, by rw [List.map_append, hmap, hw, pieces_cons]⟩
          simp only [fillRanges]
          rw [if_pos ⟨hgo, hrem⟩]
          simp only [hskip, hpage, hrest, bind, Except.bind, hok, pure, Except.pure]
          rw [hun, List.drop_drop, List.append_assoc, List.length_append]
        · have hzero : pieceCount (stepLength params chInfo) (touchedParts skip rem (sg :: rest)) = 0 := by
            omega
          have hnil : pieces (stepLength params chInfo) (touchedParts skip rem (sg :: rest)) = [] :=
            List.eq_nil_of_length_eq_zero (by rw [length_pieces hL, hzero])
          exact ⟨[], by rw [fillRanges, if_neg fun h => hgo h.1]; simp, by rw [hnil]; rfl⟩
      · have hz := eq_zero_of_not_pos hrem
        subst hz
        exact ⟨[], by rw [fillRanges, if_neg fun h => hrem h.2]; simp, rfl⟩

end TpceDrv.Reach
