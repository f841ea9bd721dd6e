import TpceDrv.DeviceBlocks

namespace TpceDrv.BlockReadStrided

open UserStructs LegacyActions LegacyMemory LegacyRuns BlockReadSizes BlockReadCopies DeviceBlocks Library.Buffers

variable {input : TDmaTpceDataRead}

/-- A transfer of 16-bit samples at a stride -/
def strided (addr stride i : ℕ) : ℕ := addr + 2 * (i / 2 * stride) + i % 2

/-- The device address of a byte of the samples that the caller asks for -/
def sampleByte (input : TDmaTpceDataRead) (j : ℕ) : ℕ :=
  blockStart input + 2 * ((input.address.toNat + j / 2 * stride input) % input.addrBlockSize.toNat) + j % 2

/-- A read of samples at a stride, as far as the last sample in front of a roll-over, or
over no more than one block -/
structure SampleRequest (input : TDmaTpceDataRead) : Prop extends BlockRequest input where
  channel : input.dmaChannel.toNat = 1
  low : 2 ≤ input.nextAddress.toNat
  high : input.nextAddress.toNat ≤ 32768
  span : StaysInBlock input ∨ input.count.toNat * input.nextAddress.toNat ≤ 2 * input.addrBlockSize.toNat

theorem SampleRequest.stride_eq (h : SampleRequest input) : stride input = input.nextAddress.toNat :=
  Nat.mod_eq_of_lt (Nat.lt_of_le_of_lt h.high (by decide))

theorem sampleByte_first (h : SampleRequest input) :
    sampleByte input 0 = blockStart input + 2 * input.address.toNat := by
  rw [sampleByte, Nat.zero_div, Nat.zero_mul, Nat.zero_mod, Nat.add_zero, Nat.add_zero, Nat.mod_eq_of_lt h.address]

theorem sampleByte_low {j : ℕ} (hj : input.address.toNat + j / 2 * stride input < input.addrBlockSize.toNat) :
    sampleByte input j = blockStart input + 2 * (input.address.toNat + j / 2 * stride input) + j % 2 := by
  rw [sampleByte, Nat.mod_eq_of_lt hj]

/-- From an address off the eight-byte boundary on, not even the first sample is right. -/
theorem within_first (h : SampleRequest input)
    (hfirst : strided (8 * ((blockStart input + 2 * input.address.toNat) % 2 ^ 32 / 8)) (stride input) (skip input) =
      blockStart input + 2 * input.address.toNat) :
    blockStart input + 2 * input.address.toNat < 2 ^ 32 ∧ skip input = 0 := by
  have hmod := h.blockStart_mod
  have hstart := h.start
  have haddress := h.address
  have hsize := h.blockSize_le
  have hlow : input.address.toNat % 4 * 2 ≤ input.address.toNat % 4 * stride input :=
    Nat.mul_le_mul_left _ (h.stride_eq.symm ▸ h.low)
  have hhigh : input.address.toNat % 4 * stride input ≤ 3 * 32768 :=
    Nat.mul_le_mul (by omega) (h.stride_eq.symm ▸ h.high)
  have hskip : skip input = 2 * (input.address.toNat % 4) := rfl
  rw [strided, hskip, Nat.mul_div_cancel_left _ Nat.two_pos, Nat.mul_mod_right] at hfirst
  omega

theorem strided_within (h : SampleRequest input) :
    (∀ j < input.count.toNat, skip input + j < withinBytes input ∧
      strided (8 * ((blockStart input + 2 * input.address.toNat) % 2 ^ 32 / 8)) (stride input) (skip input + j) =
        sampleByte input j) ↔
    blockStart input + 2 * input.address.toNat < 2 ^ 32 ∧ skip input = 0 ∧
      input.address.toNat + (input.count.toNat / 2 - 1) * stride input < input.addrBlockSize.toNat := by
  have hmod := h.blockStart_mod
  have hstart := h.start
  have haddress := h.address
  have hsize := h.blockSize_le
  have hpos := h.pos
  have heven := h.even
  have hlow : 2 ≤ stride input := h.stride_eq.symm ▸ h.low
  have hover := overread_cases input
  have hskip : skip input = 2 * (input.address.toNat % 4) := rfl
  simp only [strided, withinBytes]
  constructor
  · intro hall
    have hfirst := (hall 0 hpos).2
    rw [sampleByte_first h, Nat.add_zero] at hfirst
    obtain ⟨haddr, hzero⟩ := within_first h hfirst
    refine ⟨haddr, hzero, ?_⟩
    have hlast := (hall (input.count.toNat - 2) (by omega)).2
    rw [sampleByte, hzero, Nat.zero_add,
      show (input.count.toNat - 2) / 2 = input.count.toNat / 2 - 1 by omega] at hlast
    have hlt := Nat.mod_lt (input.address.toNat + (input.count.toNat / 2 - 1) * stride input)
      (show 0 < input.addrBlockSize.toNat by omega)
    omega
  · rintro ⟨haddr, hzero, hend⟩ j hj
    have hle : j / 2 * stride input ≤ (input.count.toNat / 2 - 1) * stride input :=
      Nat.mul_le_mul_right _ (by omega)
    rw [sampleByte_low (by omega), hzero, Nat.zero_add]
    constructor
    · split
      · omega
      · rw [if_neg (by omega)]
        omega
    · omega

/-- The first segment ends in front of the caller's buffer's end. -/
theorem firstLen_le (h : SampleRequest input) (hstays : ¬StaysInBlock input) :
    toEnd input ≤ input.count.toNat * stride input ∧ firstLen input ≤ input.count.toNat := by
  have haddress := h.address
  have heven := h.even
  have hlow := h.low
  have hspan := h.span.resolve_left hstays
  obtain ⟨hsize, hend⟩ := h.toEnd_eq hstays
  rw [h.staysInBlock_iff] at hstays
  rw [← h.stride_eq] at hspan hlow
  have hle : toEnd input ≤ input.count.toNat * stride input := by omega
  refine ⟨hle, ?_⟩
  rw [firstLen, firstBytes]
  split
  · exact Nat.div_le_of_le_mul (Nat.mul_comm _ _ ▸ hle)
  · rename_i hnot
    have hne : toEnd input ≠ input.count.toNat * stride input := fun heq => hnot (heq ▸ Nat.dvd_mul_left _ _)
    have hdouble : stride input * 2 * (input.count.toNat / 2) = input.count.toNat * stride input := by
      rw [Nat.mul_assoc, Nat.mul_div_cancel' (Nat.dvd_of_mod_eq_zero heven), Nat.mul_comm]
    have hlt := Nat.div_lt_of_lt_mul (show toEnd input < stride input * 2 * (input.count.toNat / 2) by omega)
    omega

theorem strided_first (h : SampleRequest input) (hstays : ¬StaysInBlock input)
    (hright : RightByte strided (sampleByte input) input 0) :
    blockStart input + 2 * input.address.toNat < 2 ^ 32 ∧ firstSkip input = 0 := by
  have hmod := h.blockStart_mod
  have hstart := h.start
  have haddress := h.address
  have hsize := h.blockSize_le
  have hlow := h.low
  have hhigh := h.high
  rw [← h.stride_eq] at hlow hhigh
  have hrest : firstSkip input < stride input := Nat.mod_lt _ (by omega)
  have hplace : firstPlace input = 2 * ((blockStart input + 2 * input.address.toNat) % 2 ^ 32 / 2) :=
    if_neg (by omega)
  have hsample : firstSkip input / 2 * stride input ≤ 16384 * 32768 := Nat.mul_le_mul (by omega) hhigh
  rw [RightByte, if_pos (firstLen_pos hstays), sampleByte_first h, strided, hplace, Nat.add_zero] at hright
  refine ⟨by omega, ?_⟩
  have hzero : firstSkip input / 2 * stride input = 0 := by omega
  rcases Nat.mul_eq_zero.mp hzero with hhalf | hnone
  · omega
  · omega

/-- The samples behind the end of the block go on at its start. -/
theorem sampleByte_high (h : SampleRequest input) (hstays : ¬StaysInBlock input) {q j : ℕ}
    (hq : input.address.toNat + q * stride input = input.addrBlockSize.toNat) (hle : q ≤ j / 2)
    (hj : j < input.count.toNat) :
    sampleByte input j = blockStart input + 2 * ((j / 2 - q) * stride input) + j % 2 := by
  have heven := h.even
  have hpos := h.low
  have hspan := h.span.resolve_left hstays
  have haddress := h.address
  rw [← h.stride_eq] at hspan hpos
  obtain ⟨t, ht⟩ := Nat.exists_eq_add_of_le hle
  have hq0 : 0 < q := Nat.pos_of_ne_zero fun hzero => by
    rw [hzero, Nat.zero_mul] at hq
    omega
  have hend : (t + 1) * stride input ≤ input.count.toNat / 2 * stride input := Nat.mul_le_mul_right _ (by omega)
  have hhalf : 2 * (input.count.toNat / 2 * stride input) = input.count.toNat * stride input := by
    rw [← Nat.mul_assoc, Nat.mul_div_cancel' (Nat.dvd_of_mod_eq_zero heven)]
  rw [Nat.add_mul, Nat.one_mul] at hend
  rw [sampleByte, ht, Nat.add_sub_cancel_left, Nat.add_mul, ← Nat.add_assoc, hq, Nat.add_mod_left,
    Nat.mod_eq_of_lt (by omega)]

theorem strided_two (h : SampleRequest input) (hstays : ¬StaysInBlock input) :
    (∀ j < input.count.toNat, RightByte strided (sampleByte input) input j) ↔
    blockStart input + 2 * input.address.toNat < 2 ^ 32 ∧ 2 * stride input ∣ toEnd input := by
  have hmod := h.blockStart_mod
  have hstart := h.start
  have haddress := h.address
  have hpos := h.pos
  have heven := h.even
  have hlow := h.low
  have hover := overread_cases input
  rw [← h.stride_eq] at hlow
  obtain ⟨hsize, hend⟩ := h.toEnd_eq hstays
  obtain ⟨-, hle⟩ := firstLen_le h hstays
  have hplace : firstPlace input = 2 * ((blockStart input + 2 * input.address.toNat) % 2 ^ 32 / 2) :=
    if_neg (by omega)
  have hsecond := secondBytes_cases input (input.count.toNat - firstLen input)
  constructor
  · intro hall
    obtain ⟨haddr, hrest⟩ := strided_first h hstays (hall 0 hpos)
    refine ⟨haddr, ?_⟩
    obtain ⟨q, hq⟩ := Nat.dvd_of_mod_eq_zero hrest
    have hlen : firstLen input = q := by
      rw [firstLen, firstBytes, if_pos ⟨q, hq⟩, hq, Nat.mul_div_cancel_left _ (by omega)]
    rcases Nat.even_or_odd' q with ⟨k, rfl | rfl⟩
    · exact ⟨k, by rw [hq, Nat.mul_left_comm, Nat.mul_assoc]⟩
    · have hodd := hall (2 * k + 1) (by omega)
      rw [RightByte, if_neg (by omega), if_pos (by omega), hlen, Nat.sub_self, strided, sampleByte, hrest, Nat.zero_div,
        Nat.zero_mul] at hodd
      omega
  · rintro ⟨haddr, q, hq⟩ j hj
    have hdvd : toEnd input = stride input * (2 * q) := by rw [hq, Nat.mul_comm 2, Nat.mul_assoc]
    have hrest : firstSkip input = 0 := Nat.mod_eq_zero_of_dvd ⟨_, hdvd⟩
    have hlen : firstLen input = 2 * q := by
      rw [firstLen, firstBytes, if_pos ⟨_, hdvd⟩, hdvd, Nat.mul_div_cancel_left _ (by omega)]
    have hblock : input.address.toNat + q * stride input = input.addrBlockSize.toNat := by
      rw [Nat.mul_assoc, Nat.mul_comm (stride input)] at hq
      omega
    rw [hlen] at hsecond
    rw [RightByte, hrest, hplace, hlen]
    split
    · have hin : (j / 2 + 1) * stride input ≤ q * stride input := Nat.mul_le_mul_right _ (by omega)
      rw [Nat.add_mul, Nat.one_mul] at hin
      rw [sampleByte_low (by omega), strided, Nat.zero_add]
      omega
    · rw [if_pos (by omega), sampleByte_high h hstays hblock (by omega) hj, strided,
        show (j - 2 * q) / 2 = j / 2 - q by omega]
      omega

theorem reads_samples_iff (h : SampleRequest input) : ReadsAs strided (sampleByte input) input ↔
    (StaysInBlock input → WithinCopied input → blockStart input + 2 * input.address.toNat < 2 ^ 32 ∧ skip input = 0 ∧
      input.address.toNat + (input.count.toNat / 2 - 1) * stride input < input.addrBlockSize.toNat) ∧
    (¬StaysInBlock input → FirstCopied input → (firstLen input < input.count.toNat → SecondRead input) →
      blockStart input + 2 * input.address.toNat < 2 ^ 32 ∧ 2 * stride input ∣ toEnd input) := by
  by_cases hstays : StaysInBlock input
  · rw [readsAs_within h.toBlockRequest hstays, and_iff_left fun hnot => absurd hstays hnot,
      forall_prop_of_true hstays]
    exact forall_congr' fun _ => strided_within h
  · rw [readsAs_two h.toBlockRequest hstays (firstLen_le h hstays).2, and_iff_right fun hin => absurd hin hstays,
      forall_prop_of_true hstays]
    exact forall_congr' fun _ => forall_congr' fun _ => strided_two h hstays

def sampleRequest (address nextAddress count : U32) : TDmaTpceDataRead where
  address := address
  input := 0
  dmaChannel := 1
  mux8ChannelEn := 0
  nextAddress := nextAddress
  addrBlockSize := 1024
  addrBlockNr := 0
  count := count
  data := 0x10000
  burstCount := 0

theorem sampleRequest_documented {address nextAddress count : U32} (haddress : address.toNat < 1024)
    (heven : count.toNat % 2 = 0) (hpos : 0 < count.toNat) (hlow : 2 ≤ nextAddress.toNat)
    (hhigh : nextAddress.toNat ≤ 32768) (hspan : count.toNat * nextAddress.toNat ≤ 2048) :
    SampleRequest (sampleRequest address nextAddress count) :=
  have hstart : blockStart (sampleRequest 0 0 0) < 2 ^ 32 := by decide
  have hcount : count.toNat ≤ 2048 := (Nat.le_mul_of_pos_right _ (by omega)).trans hspan
  ⟨⟨⟨10, le_rfl, rfl⟩, haddress, heven, hpos, hcount, hstart⟩, rfl, hlow, hhigh, .inr hspan⟩

theorem sampleRequest_usable {address nextAddress count : U32} (hcount : count.toNat ≤ 2 ^ 20)
    (hhigh : nextAddress.toNat ≤ 32768) : Usable (sampleRequest address nextAddress count) :=
  ⟨Nat.one_lt_succ_succ 1, hcount, fun _ => (Nat.mod_le _ _).trans hhigh, fun hne => absurd rfl hne⟩

theorem aligned_samples_read : ReadsAs strided (sampleByte (sampleRequest 0 2 16)) (sampleRequest 0 2 16) :=
  (reads_samples_iff (sampleRequest_documented (by decide) (by decide) (by decide) (by decide) (by decide)
    (by decide))).mpr ⟨fun _ _ => ⟨by decide, rfl, by decide⟩, fun hnot => absurd (by decide) hnot⟩

/-- From address 1 on at stride 2 the caller gets the samples from address 2 on, and a read
at stride 3 over the end of the block is shifted by a byte. -/
theorem samples_shifted : (SampleRequest (sampleRequest 1 2 16) ∧
      ¬ReadsAs strided (sampleByte (sampleRequest 1 2 16)) (sampleRequest 1 2 16)) ∧
    SampleRequest (sampleRequest 1022 3 2) ∧
      ¬ReadsAs strided (sampleByte (sampleRequest 1022 3 2)) (sampleRequest 1022 3 2) := by
  have hwithin : SampleRequest (sampleRequest 1 2 16) :=
    sampleRequest_documented (by decide) (by decide) (by decide) (by decide) (by decide) (by decide)
  have hacross : SampleRequest (sampleRequest 1022 3 2) :=
    sampleRequest_documented (by decide) (by decide) (by decide) (by decide) (by decide) (by decide)
  refine ⟨⟨hwithin, fun hread => ?_⟩, hacross, fun hread => ?_⟩
  · have hcopied : WithinCopied (sampleRequest 1 2 16) :=
      ⟨sampleRequest_usable (by decide) (by decide), by decide, by decide⟩
    have hbyte := (readsAs_within hwithin.toBlockRequest (by decide)).mp hread hcopied 0 (by decide)
    exact absurd hbyte.2 (by decide)
  · have hcopied : FirstCopied (sampleRequest 1022 3 2) :=
      ⟨sampleRequest_usable (by decide) (by decide), .inr (by decide), by decide, by decide⟩
    have hbyte := (readsAs_two hacross.toBlockRequest (by decide) (by decide)).mp hread hcopied
      (fun hlt => absurd hlt (by decide)) 0 (by decide)
    exact absurd hbyte.2 (by decide)

end TpceDrv.BlockReadStrided
