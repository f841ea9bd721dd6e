import TpceDrv.MappedRanges

namespace TpceDrv.RangeGcd

open Mapping DmaParams Planning MappedRanges Library.Euclid

/-- One round of the loop of `gcd` -/
def gcdStep (s : U32 × U32) : Option (U32 × U32) := if s.2 > 0 then some (s.2, s.1 % s.2) else none

/-- The ranges of the mapping have these sizes. -/
structure HasSizes (mapInfo : TpceDmaMapInfo) (sizes : List U32) : Prop where
  count : tpceDmaMapNumRanges mapInfo = sizes.length
  sizes : (ranges mapInfo).map tpceDmaMapRangeSize = sizes

variable {mapInfo mapInfo' : TpceDmaMapInfo} {sizes sizes' : List U32}

theorem loop_gcdStep {n : ℕ} {a b : U32} (h : rounds a.toNat b.toNat ≤ n) :
    loop gcdStep n (a, b) = some (DmaParams.gcd a b, 0) := by
  induction a, b using gcd.induct generalizing n with
  | case1 a b hb ih =>
      have hpos : 0 < b.toNat := by simpa using BitVec.lt_def.mp hb
      rw [rounds_pos hpos] at h
      cases n with
      | zero => cases h
      | succ n =>
          have hstep : gcdStep (a, b) = some (b, a % b) := if_pos hb
          rw [loop_of_some hstep, DmaParams.gcd, dif_pos hb]
          exact ih (by rw [BitVec.toNat_umod]; omega)
  | case2 a b hb =>
      have hstop : gcdStep (a, b) = none := if_neg hb
      rw [loop_of_none hstop, DmaParams.gcd, dif_neg hb, Reach.eq_zero_of_not_pos hb]

/-- Euclid's loop on 32-bit words ends after at most 46 rounds. -/
theorem gcd_ends (a b : U32) : loop gcdStep 46 (a, b) = some (DmaParams.gcd a b, 0) := by
  refine loop_gcdStep (rounds_le ?_)
  have hfib : 2 ^ 32 < Nat.fib (46 + 2) := by decide
  omega

theorem HasSizes.nonempty (hmap : HasSizes mapInfo sizes) (hne : sizes ≠ []) : tpceDmaMapNumRanges mapInfo ≠ 0 := by
  rw [hmap.count]
  exact mt List.length_eq_zero_iff.mp hne

theorem HasSizes.indexed (hmap : HasSizes mapInfo sizes) :
    tpceDmaMapNumRanges mapInfo ≤ mapInfo.sgt.sgl.slots.length := by
  have hlen := congrArg List.length hmap.sizes
  rw [List.length_map, ranges, List.length_take, ← hmap.count] at hlen
  omega

theorem HasSizes.bytes (hmap : HasSizes mapInfo sizes) : (ranges mapInfo).map rangeBytes = sizes.map BitVec.toNat := by
  rw [← hmap.sizes, List.map_map]
  rfl

/-- The function computes the gcd of the sizes, in whatever order they come and
however often. -/
theorem gcdDmaPageSizes_eq (hmap : HasSizes mapInfo sizes) (hne : sizes ≠ []) :
    ∃ g, gcdDmaPageSizes mapInfo = .ok g ∧ g.toNat = Multiset.gcd (sizes.map BitVec.toNat : Multiset ℕ) := by
  obtain ⟨g, hg⟩ := gcdDmaPageSizes_exists hmap.indexed
  refine ⟨g, hg, ?_⟩
  rw [(gcdDmaPageSizes_toNat hg (hmap.nonempty hne)).2, ← hmap.bytes, ranges]

theorem gcdDmaPageSizes_perm (hmap : HasSizes mapInfo sizes) (hmap' : HasSizes mapInfo' sizes') (hne : sizes ≠ [])
    (hperm : sizes.Perm sizes') : gcdDmaPageSizes mapInfo = gcdDmaPageSizes mapInfo' := by
  obtain ⟨g, hg, hvalue⟩ := gcdDmaPageSizes_eq hmap hne
  obtain ⟨g', hg', hvalue'⟩ := gcdDmaPageSizes_eq hmap' (fun hnil => hne (hnil ▸ hperm).eq_nil)
  rw [hg, hg']
  refine congrArg Except.ok (BitVec.eq_of_toNat_eq ?_)
  rw [hvalue, hvalue', Multiset.coe_eq_coe.mpr (hperm.map BitVec.toNat)]

/-- Euclid's loop ends on every pair, and a number divides what the function returns
exactly when it divides the size of every range. -/
theorem divides_gcd_iff {sizes : List U32} (hne : sizes ≠ []) {mapInfo : TpceDmaMapInfo}
    (hmap : HasSizes mapInfo sizes) :
    (∀ a b : U32, loop gcdStep 46 (a, b) = some (DmaParams.gcd a b, 0)) ∧
      ∃ g, gcdDmaPageSizes mapInfo = .ok g ∧
        ∀ b : ℕ, 0 < b → (g.toNat % b = 0 ↔ ∀ size ∈ sizes, b ∣ size.toNat) := by
  obtain ⟨g, hg, hvalue⟩ := gcdDmaPageSizes_eq hmap hne
  refine ⟨gcd_ends, g, hg, fun b _ => ?_⟩
  rw [← Nat.dvd_iff_mod_eq_zero, hvalue, Multiset.dvd_gcd]
  exact List.forall_mem_map

/-- Three pieces of a buffer, two of them of one size -/
def threeRanges : TpceDmaMapInfo :=
  userMapping [⟨0x100000, 8192, 0⟩, ⟨0x200000, 4096, 0⟩, ⟨0x300000, 4096, 0⟩] 16384 0#8

theorem threeRanges_divides_gcd : (∀ a b : U32, loop gcdStep 46 (a, b) = some (DmaParams.gcd a b, 0)) ∧
    ∃ g, gcdDmaPageSizes threeRanges = .ok g ∧
      ∀ b : ℕ, 0 < b → (g.toNat % b = 0 ↔ ∀ size ∈ [8192#32, 4096#32, 4096#32], b ∣ size.toNat) :=
  divides_gcd_iff (by decide) ⟨rfl, rfl⟩

end TpceDrv.RangeGcd
