import TpceDrv.LegacyMemory
import Mathlib.Algebra.Order.Group.Nat

namespace TpceDrv.BlockReadSizes

open Requests UserStructs LegacyRead LegacyActions LegacyMemory Library.BitMask

def stride (input : TDmaTpceDataRead) : ℕ := input.nextAddress.toNat % 2 ^ 16

/-- The distance of the start address from an eight-byte boundary -/
def skip (input : TDmaTpceDataRead) : ℕ := 2 * (input.address.toNat % 4)

def overread (input : TDmaTpceDataRead) : ℕ := if skip input = 0 ∧ stride input = 1 then 0 else 8

/-- The length of the first segment: of a distance that is no multiple of the stride,
the samples that begin in it. -/
def firstBytes (stride toEnd : ℕ) : ℕ := if stride ∣ toEnd then toEnd / stride else 2 * (toEnd / (stride * 2)) + 2

/-- What the driver can read for the caller at all -/
structure Usable (input : TDmaTpceDataRead) : Prop where
  channel : input.dmaChannel.toNat < 3
  count : input.count.toNat ≤ 2 ^ 20
  strides : input.dmaChannel.toNat = 1 → stride input ≤ 32768
  burst : input.dmaChannel.toNat ≠ 1 → input.burstCount.toNat ≤ 32

variable {input : TDmaTpceDataRead}

theorem toNat_roundDown (x : U32) : (x &&& 0xfffffff8#32).toNat = 8 * (x.toNat / 8) :=
  toNat_and_not_lowBits x (k := 3) (by decide)

theorem toNat_roundEven (x : U32) : (x &&& 0xfffffffe#32).toNat = 2 * (x.toNat / 2) :=
  toNat_and_not_lowBits x (k := 1) (by decide)

theorem toNat_readStride (input : TDmaTpceDataRead) : (blockRead input).readStride.toNat = stride input :=
  BitVec.toNat_setWidth 16 _

theorem toNat_offset (input : TDmaTpceDataRead) : (blockRead input).offset.toNat = skip input := by
  change (input.address % 4#32 * 2#32).toNat = 2 * (input.address.toNat % 4)
  rw [BitVec.toNat_mul, BitVec.toNat_umod]
  change input.address.toNat % 4 * 2 % 2 ^ 32 = _
  omega

theorem readStride_eq_one_iff (input : TDmaTpceDataRead) : (blockRead input).readStride = 1 ↔ stride input = 1 := by
  rw [← toNat_readStride, ← BitVec.toNat_inj]
  rfl

theorem toNat_overread (input : TDmaTpceDataRead) : (blockRead input).overread.toNat = overread input := by
  have hskip : (blockRead input).offset = 0 ↔ skip input = 0 := by
    rw [← toNat_offset, ← BitVec.toNat_inj]
    rfl
  have hstride := readStride_eq_one_iff input
  change (if (blockRead input).offset = 0 ∧ (blockRead input).readStride = 1 then (0 : U32) else 8).toNat = _
  rw [overread]
  by_cases h : skip input = 0 ∧ stride input = 1
  · rw [if_pos h, if_pos (by rwa [hskip, hstride])]
    rfl
  · rw [if_neg h, if_neg (by rwa [hskip, hstride])]
    rfl

theorem overread_cases (input : TDmaTpceDataRead) : overread input = 0 ∧ skip input = 0 ∧ stride input = 1 ∨
    overread input = 8 ∧ ¬(skip input = 0 ∧ stride input = 1) := by
  rw [overread]
  split
  · rename_i h
    exact .inl ⟨rfl, h⟩
  · rename_i h
    exact .inr ⟨rfl, h⟩

theorem toNat_roundedLen {count more : U32} (h : count.toNat + more.toNat < 2 ^ 32) :
    (roundedLen count more).toNat = 8 * (count.toNat / 8) + more.toNat := by
  rw [roundedLen, BitVec.toNat_add, toNat_roundDown]
  omega

theorem eight_dvd_roundedLen (count : U32) {more : U32} (h : 8 ∣ more.toNat) : 8 ∣ (roundedLen count more).toNat := by
  rw [roundedLen, BitVec.toNat_add, toNat_roundDown]
  omega

section
variable {readStride : U16} (toEnd : U32)

theorem toNat_wide (x : U16) : (x.setWidth 32).toNat = x.toNat := BitVec.toNat_setWidth_of_le (by decide)

theorem toNat_firstRest (readStride : U16) : (firstRest readStride toEnd).toNat = toEnd.toNat % readStride.toNat := by
  rw [firstRest, BitVec.toNat_umod, toNat_wide]

theorem toNat_firstCount (h : readStride ≠ 0) :
    (firstCount readStride toEnd).toNat = firstBytes readStride.toNat toEnd.toNat := by
  have hpos : 0 < readStride.toNat := Nat.pos_of_ne_zero fun hzero => h (BitVec.eq_of_toNat_eq hzero)
  have hrest : firstRest readStride toEnd > 0 ↔ ¬readStride.toNat ∣ toEnd.toNat := by
    rw [gt_iff_lt, BitVec.lt_def, toNat_firstRest, Nat.dvd_iff_mod_eq_zero]
    exact Nat.pos_iff_ne_zero
  rw [firstCount, firstBytes]
  by_cases hdvd : readStride.toNat ∣ toEnd.toNat
  · rw [if_neg (mt hrest.mp (not_not.mpr hdvd)), if_pos hdvd, BitVec.toNat_udiv, toNat_wide]
  · have hone : readStride.toNat ≠ 1 := fun hone => hdvd (hone ▸ Nat.one_dvd _)
    have hdiv : toEnd.toNat / (readStride.toNat * 2) ≤ toEnd.toNat / 4 := Nat.div_le_div_left (by omega) (by decide)
    have htoEnd := toEnd.isLt
    rw [if_pos (hrest.mpr hdvd), if_neg hdvd, BitVec.toNat_add, toNat_roundEven, BitVec.toNat_udiv, toNat_wide,
      Nat.div_div_eq_div_mul]
    change (2 * _ + 2) % _ = _
    omega

end

theorem not_refused_iff : ¬Refused input ↔ input.dmaChannel.toNat < 3 ∧ input.count.toNat ≤ 2 ^ 20 := by
  rw [Refused, not_or, gt_iff_lt, BitVec.lt_def, toNat_driverBufferSize, Nat.not_lt]
  exact and_congr_left' Nat.not_le

theorem Usable.not_refused (h : Usable input) : ¬Refused input := not_refused_iff.mpr ⟨h.channel, h.count⟩

theorem dataWidth_dvd (channel : ℕ) : dataWidth channel ∣ 8 := by
  rw [dataWidth]
  split
  · decide
  · decide

theorem dataWidth_dvd_roundDown (channel : ℕ) (x : U32) : dataWidth channel ∣ (x &&& 0xfffffff8#32).toNat := by
  rw [toNat_roundDown]
  exact (dataWidth_dvd channel).trans (Nat.dvd_mul_right 8 _)

theorem accepted_iff_usable (hrefused : ¬Refused input) (addr : U32) {len : U32} (hlen : 8 ∣ len.toNat) :
    Accepted ((blockRead input).kernelRead input addr len) ↔
      Usable input ∧ len.toNat ≤ 2 ^ 20 ∧ dataWidth input.dmaChannel.toNat ∣ addr.toNat := by
  obtain ⟨hchannel, hcount⟩ := not_refused_iff.mp hrefused
  have hch : ((blockRead input).kernelRead input addr len).channel.toNat = input.dmaChannel.toNat := by
    change (input.dmaChannel.setWidth 8).toNat = _
    rw [BitVec.toNat_setWidth]
    omega
  have hstride : max ((blockRead input).kernelRead input addr len).readStride.toNat
      ((blockRead input).kernelRead input addr len).writeStride.toNat ≤ 32768 ↔ stride input ≤ 32768 := by
    change max (blockRead input).readStride.toNat 1 ≤ 32768 ↔ _
    rw [toNat_readStride]
    omega
  constructor
  · rintro ⟨-, hfits, haligned, -, hstrides, hburst⟩
    rw [hch] at haligned hstrides hburst
    rw [hstride] at hstrides
    exact ⟨⟨hchannel, hcount, hstrides, hburst⟩, hfits, haligned⟩
  · rintro ⟨husable, hfits, haligned⟩
    have htotal := (dataWidth_dvd input.dmaChannel.toNat).trans hlen
    refine ⟨?_, hfits, ?_, ?_, ?_, ?_⟩
    · rwa [hch]
    · rwa [hch]
    · rwa [hch]
    · rw [hch, hstride]
      exact husable.strides
    · rw [hch]
      exact husable.burst

end TpceDrv.BlockReadSizes
