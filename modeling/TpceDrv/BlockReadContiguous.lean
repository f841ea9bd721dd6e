import TpceDrv.DeviceBlocks

namespace TpceDrv.BlockReadContiguous

open UserStructs LegacyActions LegacyMemory LegacyRuns BlockReadSizes BlockReadCopies DeviceBlocks Library.Buffers

variable {input : TDmaTpceDataRead}

/-- A transfer of consecutive bytes -/
def contiguous (addr _stride i : ℕ) : ℕ := addr + i

/-- The device address of a byte that the caller asks for -/
def blockByte (input : TDmaTpceDataRead) (j : ℕ) : ℕ :=
  blockStart input + (2 * input.address.toNat + j) % (2 * input.addrBlockSize.toNat)

theorem blockByte_low {j : ℕ} (hj : 2 * input.address.toNat + j < 2 * input.addrBlockSize.toNat) :
    blockByte input j = blockStart input + 2 * input.address.toNat + j := by
  rw [blockByte, Nat.mod_eq_of_lt hj, Nat.add_assoc]

theorem blockByte_high {j : ℕ} (hle : 2 * input.addrBlockSize.toNat ≤ 2 * input.address.toNat + j)
    (hlt : 2 * input.address.toNat + j < 4 * input.addrBlockSize.toNat) :
    blockByte input j = blockStart input + (2 * input.address.toNat + j - 2 * input.addrBlockSize.toNat) := by
  rw [blockByte, Nat.mod_eq_sub_mod hle, Nat.mod_eq_of_lt (by omega)]

theorem contiguous_within (h : BlockRequest input) (hone : stride input = 1) (hstays : StaysInBlock input)
    (hcopied : WithinCopied input) : (∀ j < input.count.toNat, skip input + j < withinBytes input ∧
      contiguous (8 * ((blockStart input + 2 * input.address.toNat) % 2 ^ 32 / 8)) (stride input) (skip input + j) =
        blockByte input j) ↔
    blockStart input + 2 * input.address.toNat < 2 ^ 32 ∧
      (input.count.toNat < 8 ∨ skip input + input.count.toNat % 8 ≤ 8) := by
  have hmod := h.blockStart_mod
  have hstart := h.start
  have hge := le_blockStart input
  have haddress := h.address
  have hsize := h.blockSize_le
  have hpos := h.pos
  have hover := overread_cases input
  have hcount := hcopied.usable.count
  have hskip : skip input = 2 * (input.address.toNat % 4) := rfl
  rw [h.staysInBlock_iff, hone, Nat.mul_one] at hstays
  simp only [contiguous, withinBytes]
  constructor
  · intro hall
    have hfirst := (hall 0 hpos).2
    have hlast := (hall (input.count.toNat - 1) (by omega)).1
    rw [blockByte_low (by omega)] at hfirst
    refine ⟨by omega, ?_⟩
    split at hlast
    · omega
    · split at hlast
      · omega
      · omega
  · rintro ⟨haddr, hfresh⟩ j hj
    rw [blockByte_low (by omega)]
    constructor
    · split
      · omega
      · split
        · omega
        · omega
    · omega

/-- The two segments of consecutive bytes -/
theorem two_segments (h : BlockRequest input) (hone : stride input = 1) (hstays : ¬StaysInBlock input) :
    firstSkip input = 0 ∧
      firstLen input = 2 * input.addrBlockSize.toNat - 2 * input.address.toNat ∧
        firstLen input ≤ input.count.toNat := by
  have haddress := h.address
  have hmax := h.count
  obtain ⟨hsize, hend⟩ := h.toEnd_eq hstays
  have hrest : firstSkip input = 0 := by rw [firstSkip, hone, Nat.mod_one]
  have hlen : firstLen input = 2 * input.addrBlockSize.toNat - 2 * input.address.toNat := by
    rw [firstLen, firstBytes, hone, if_pos (Nat.one_dvd _), Nat.div_one, hend]
  rw [h.staysInBlock_iff, hone, Nat.mul_one] at hstays
  exact ⟨hrest, hlen, by omega⟩

theorem contiguous_two (h : BlockRequest input) (hone : stride input = 1) (hstays : ¬StaysInBlock input) :
    (∀ j < input.count.toNat, RightByte contiguous (blockByte input) input j) ↔
    blockStart input + 2 * input.address.toNat < 2 ^ 32 ∧ skip input = 0 ∧
      (2 * input.address.toNat + input.count.toNat - 2 * input.addrBlockSize.toNat < 8 ∨ 8 ∣ input.count.toNat) := by
  have hmod := h.blockStart_mod
  have hstart := h.start
  have haddress := h.address
  have hblock := h.blockSize_dvd
  have hmax := h.count
  have hpos := h.pos
  have hover := overread_cases input
  have hskip : skip input = 2 * (input.address.toNat % 4) := rfl
  obtain ⟨hrest, hlen, hcross⟩ := two_segments h hone hstays
  have hplace : firstPlace input = 8 * ((blockStart input + 2 * input.address.toNat) % 2 ^ 32 / 8) := if_pos hone
  have hsecond := secondBytes_cases input (input.count.toNat - firstLen input)
  simp only [RightByte, contiguous, hrest, hplace]
  constructor
  · intro hall
    have hfirst := hall 0 hpos
    rw [if_pos (by omega), blockByte_low (by omega)] at hfirst
    refine ⟨by omega, by omega, ?_⟩
    rcases hcross.lt_or_eq with hlt | heq
    · have hlast := hall (input.count.toNat - 1) (by omega)
      rw [if_neg (by omega), blockByte_high (by omega) (by omega)] at hlast
      split at hlast
      · omega
      · omega
    · exact .inl (by omega)
  · rintro ⟨haddr, hzero, hfresh⟩ j hj
    split
    · rw [blockByte_low (by omega)]
      omega
    · rw [blockByte_high (by omega) (by omega), if_pos (by omega)]
      omega

/-- A read over the end of the block takes place whenever the driver can read for the
caller at all. -/
theorem copied_of_usable (h : BlockRequest input) (hone : stride input = 1) (hstays : ¬StaysInBlock input)
    (husable : Usable input) : FirstCopied input ∧ SecondRead input := by
  have haddress := h.address
  have hblock := h.blockSize_dvd
  have hcount := husable.count
  have hover := overread_cases input
  have hskip : skip input = 2 * (input.address.toNat % 4) := rfl
  obtain ⟨hrest, hlen, hcross⟩ := two_segments h hone hstays
  have hsecond := secondBytes_cases input (input.count.toNat - firstLen input)
  have haligned : 8 ∣ 2 * (input.addrBlockNr.toNat * input.addrBlockSize.toNat) :=
    (hblock.mul_left _).mul_left 2
  refine ⟨⟨husable, .inl hone, by omega, by omega⟩, ⟨husable, ?_, by omega⟩⟩
  rw [hrest, Nat.zero_add]
  exact (dataWidth_dvd _).trans haligned

theorem reads_block_iff (h : BlockRequest input) (hnext : input.nextAddress = 1) :
    ReadsAs contiguous (blockByte input) input ↔
      (StaysInBlock input → WithinCopied input → blockStart input + 2 * input.address.toNat < 2 ^ 32 ∧
        (input.count.toNat < 8 ∨ skip input + input.count.toNat % 8 ≤ 8)) ∧
      (¬StaysInBlock input → Usable input → blockStart input + 2 * input.address.toNat < 2 ^ 32 ∧ skip input = 0 ∧
        (2 * input.address.toNat + input.count.toNat - 2 * input.addrBlockSize.toNat < 8 ∨ 8 ∣ input.count.toNat)) := by
  have hone : stride input = 1 := by
    rw [stride, hnext]
    rfl
  by_cases hstays : StaysInBlock input
  · rw [readsAs_within h hstays, and_iff_left fun hnot => absurd hstays hnot, forall_prop_of_true hstays]
    exact forall_congr' fun hcopied => contiguous_within h hone hstays hcopied
  · rw [and_iff_right fun hin => absurd hin hstays, forall_prop_of_true hstays]
    obtain ⟨-, -, hcross⟩ := two_segments h hone hstays
    rw [readsAs_two h hstays hcross]
    constructor
    · intro hread husable
      obtain ⟨hfirst, hsecond⟩ := copied_of_usable h hone hstays husable
      exact (contiguous_two h hone hstays).mp (hread hfirst fun _ => hsecond)
    · intro hright hfirst _
      exact (contiguous_two h hone hstays).mpr (hright hfirst.usable)

def blockRequest (address count : U32) : TDmaTpceDataRead where
  address := address
  input := 0
  dmaChannel := 0
  mux8ChannelEn := 0
  nextAddress := 1
  addrBlockSize := 1024
  addrBlockNr := 0
  count := count
  data := 0x10000
  burstCount := 0

theorem blockRequest_documented {address count : U32} (haddress : address.toNat < 1024) (heven : count.toNat % 2 = 0)
    (hpos : 0 < count.toNat) (hcount : count.toNat ≤ 2048) : BlockRequest (blockRequest address count) :=
  have hstart : blockStart (blockRequest 0 0) < 2 ^ 32 := by decide
  ⟨⟨10, le_rfl, rfl⟩, haddress, heven, hpos, hcount, hstart⟩

theorem blockRequest_usable {address count : U32} (hcount : count.toNat ≤ 2 ^ 20) :
    Usable (blockRequest address count) :=
  ⟨Nat.zero_lt_succ 2, hcount, fun hone => absurd hone.symm Nat.one_ne_zero, fun _ => Nat.zero_le 32⟩

theorem aligned_block_read : ReadsAs contiguous (blockByte (blockRequest 0 16)) (blockRequest 0 16) :=
  (reads_block_iff (blockRequest_documented (by decide) (by decide) (by decide) (by decide)) rfl).mpr
    ⟨fun _ _ => ⟨by decide, .inr (by decide)⟩, fun hnot => absurd (by decide) hnot⟩

/-- The last two of twelve bytes from offset 6 on are not transferred, and eight bytes
from two bytes in front of the block's end on are taken from offset 0 of the buffer. -/
theorem short_and_shifted : (BlockRequest (blockRequest 3 12) ∧
      ¬ReadsAs contiguous (blockByte (blockRequest 3 12)) (blockRequest 3 12)) ∧
    BlockRequest (blockRequest 1023 8) ∧
      ¬ReadsAs contiguous (blockByte (blockRequest 1023 8)) (blockRequest 1023 8) := by
  have hshort : BlockRequest (blockRequest 3 12) :=
    blockRequest_documented (by decide) (by decide) (by decide) (by decide)
  have hshifted : BlockRequest (blockRequest 1023 8) :=
    blockRequest_documented (by decide) (by decide) (by decide) (by decide)
  refine ⟨⟨hshort, fun hread => ?_⟩, hshifted, fun hread => ?_⟩
  · have hcopied : WithinCopied (blockRequest 3 12) := ⟨blockRequest_usable (by decide), by decide, by decide⟩
    have hbyte := (readsAs_within hshort (by decide)).mp hread hcopied 11 (by decide)
    exact absurd hbyte.1 (by decide)
  · obtain ⟨hfirst, hsecond⟩ := copied_of_usable hshifted rfl (by decide) (blockRequest_usable (by decide))
    have hbyte := (readsAs_two hshifted (by decide) (by decide)).mp hread hfirst (fun _ => hsecond) 0 (by decide)
    exact absurd hbyte.2 (by decide)

end TpceDrv.BlockReadContiguous
