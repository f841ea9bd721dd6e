import TpceDrv.BlockReadSizes
import TpceDrv.LegacyRuns

namespace TpceDrv.BlockReadCopies

open Requests UserStructs LegacyRead LegacyActions LegacyMemory LegacyRuns BlockReadSizes

variable {input : TDmaTpceDataRead}

/-- The bytes from the masked start address to the end of the block -/
def toEnd (input : TDmaTpceDataRead) : ℕ := (toBlockEnd input).toNat

def firstLen (input : TDmaTpceDataRead) : ℕ := firstBytes (stride input) (toEnd input)

def firstSkip (input : TDmaTpceDataRead) : ℕ := toEnd input % stride input

/-- The driver reads and copies the first one of two segments. -/
structure FirstCopied (input : TDmaTpceDataRead) : Prop where
  usable : Usable input
  aligned : stride input = 1 ∨ dataWidth input.dmaChannel.toNat ∣
    (maskedAddr input).toNat + 2 * (input.addrBlockNr.toNat * input.addrBlockSize.toNat)
  transferred : 8 * (firstLen input / 8) + overread input ≤ 2 ^ 20
  copied : firstSkip input + firstLen input ≤ 2 ^ 20

theorem inputAddr_dvd (input : TDmaTpceDataRead) : 2 ^ 27 ∣ (inputAddr input).toNat := by
  rw [inputAddr]
  split
  · split
    · rw [BitVec.toNat_mul]
      change 2 ^ 27 ∣ input.input.toNat * 2 ^ 28 % 2 ^ 32
      omega
    · decide
  · split
    · rw [BitVec.toNat_mul]
      change 2 ^ 27 ∣ input.input.toNat * 2 ^ 27 % 2 ^ 32
      omega
    · decide

/-- The remainder of a device address, to which the channel's address and the start of the
memory do not contribute -/
theorem blockAddrAt_mod_eight (input : TDmaTpceDataRead) (offset : U32) : (blockAddrAt input offset).toNat % 8 =
    (offset.toNat + 2 * (input.addrBlockNr.toNat * input.addrBlockSize.toNat)) % 8 := by
  have hinput := inputAddr_dvd input
  rw [blockAddrAt, BitVec.toNat_add, BitVec.toNat_add, BitVec.toNat_add, BitVec.toNat_mul, BitVec.toNat_mul]
  change (((0x40000000 + (offset.toNat + (input.addrBlockNr.toNat * input.addrBlockSize.toNat % 2 ^ 32) * 2 % 2 ^ 32) %
    2 ^ 32) % 2 ^ 32 + (inputAddr input).toNat) % 2 ^ 32) % 8 = _
  omega

theorem maskedAddr_even (input : TDmaTpceDataRead) : (maskedAddr input).toNat % 2 = 0 := by
  have heven : (input.address * 2).toNat % 2 = 0 := by
    rw [BitVec.toNat_mul]
    change input.address.toNat * 2 % 2 ^ 32 % 2 = 0
    omega
  rw [maskedAddr, BitVec.toNat_and, Nat.and_mod_two_pow (n := 1)]
  exact (congrArg (· &&& _) heven).trans (Nat.zero_and _)

theorem dataWidth_dvd_mod (channel : ℕ) {x y : ℕ} (h : x % 8 = y % 8) :
    dataWidth channel ∣ x ↔ dataWidth channel ∣ y := by
  rw [dataWidth]
  split
  · omega
  · omega

/-- The start address of the first segment -/
theorem firstAddr_aligned (input : TDmaTpceDataRead) :
    dataWidth input.dmaChannel.toNat ∣ (firstAddr input (blockRead input)).toNat ↔
      stride input = 1 ∨ dataWidth input.dmaChannel.toNat ∣
        (maskedAddr input).toNat + 2 * (input.addrBlockNr.toNat * input.addrBlockSize.toNat) := by
  have hstride := readStride_eq_one_iff input
  have hmod := blockAddrAt_mod_eight input (maskedAddr input)
  have heven := maskedAddr_even input
  rw [firstAddr]
  by_cases hone : stride input = 1
  · rw [if_pos (hstride.mpr hone)]
    exact iff_of_true (dataWidth_dvd_roundDown _ _) (.inl hone)
  · rw [if_neg (mt hstride.mp hone), toNat_roundEven, or_iff_right hone]
    exact dataWidth_dvd_mod _ (by omega)

theorem blockBytes_pos (hstays : ¬StaysInBlock input) : 0 < (input.addrBlockSize * 2).toNat := by
  refine Nat.pos_of_ne_zero fun hzero => hstays ?_
  have hmask : ~~~(input.addrBlockSize * 2 - 1) = 0#32 := by
    rw [show input.addrBlockSize * 2 = 0#32 from BitVec.eq_of_toNat_eq hzero]
    rfl
  rw [StaysInBlock, hmask]
  exact BitVec.and_zero.trans BitVec.and_zero.symm

/-- A block that is left is not empty, and its end lies behind the start address. -/
theorem toEnd_spec (hstays : ¬StaysInBlock input) : (maskedAddr input).toNat < (input.addrBlockSize * 2).toNat ∧
    toEnd input = (input.addrBlockSize * 2).toNat - (maskedAddr input).toNat := by
  have hpos := blockBytes_pos hstays
  have hlast : (input.addrBlockSize * 2 - 1).toNat = (input.addrBlockSize * 2).toNat - 1 :=
    BitVec.toNat_sub_of_le (BitVec.le_def.mpr hpos)
  have hle : (maskedAddr input).toNat ≤ (input.addrBlockSize * 2 - 1).toNat := by
    rw [maskedAddr, BitVec.toNat_and]
    exact Nat.and_le_right
  refine ⟨by omega, ?_⟩
  rw [toEnd, toBlockEnd, BitVec.toNat_sub_of_le (BitVec.le_def.mpr (by omega))]

theorem stride_pos (hstays : ¬StaysInBlock input) : 0 < stride input := by
  rw [← toNat_readStride]
  refine Nat.pos_of_ne_zero fun hzero => hstays (staysInBlock_of_stride_zero ?_)
  exact BitVec.eq_of_toNat_eq hzero

theorem firstLen_pos (hstays : ¬StaysInBlock input) : 0 < firstLen input := by
  obtain ⟨hlt, hend⟩ := toEnd_spec hstays
  rw [firstLen, firstBytes]
  split
  · rename_i hdvd
    exact Nat.div_pos (Nat.le_of_dvd (by omega) hdvd) (stride_pos hstays)
  · omega

theorem toNat_firstCount_block (hstays : ¬StaysInBlock input) :
    (firstCount (blockRead input).readStride (toBlockEnd input)).toNat = firstLen input := by
  rw [toNat_firstCount _ (mt staysInBlock_of_stride_zero hstays), toNat_readStride]
  rfl

theorem toNat_firstRest_block (input : TDmaTpceDataRead) :
    (firstRest (blockRead input).readStride (toBlockEnd input)).toNat = firstSkip input := by
  rw [toNat_firstRest, toNat_readStride]
  rfl

theorem firstSegment_eq (hstays : ¬StaysInBlock input) : firstSegment input (blockRead input) =
    [.read ((blockRead input).kernelRead input (firstAddr input (blockRead input))
        (roundedLen (firstCount (blockRead input).readStride (toBlockEnd input)) (blockRead input).overread)),
      .copy input.data (firstRest (blockRead input).readStride (toBlockEnd input))
        (firstCount (blockRead input).readStride (toBlockEnd input))] := by
  have hpos : firstCount (blockRead input).readStride (toBlockEnd input) > 0 := by
    rw [gt_iff_lt, BitVec.lt_def, toNat_firstCount_block hstays]
    exact firstLen_pos hstays
  exact if_pos hpos

theorem eight_dvd_overread (input : TDmaTpceDataRead) : 8 ∣ (blockRead input).overread.toNat := by
  rw [toNat_overread]
  rcases overread_cases input with ⟨h, -⟩ | ⟨h, -⟩
  · exact h ▸ Nat.dvd_zero 8
  · exact h ▸ Nat.dvd_refl 8

theorem overread_le (input : TDmaTpceDataRead) : overread input ≤ 8 := by
  rcases overread_cases input with ⟨h, -⟩ | ⟨h, -⟩ <;> omega

theorem toNat_eq_zero_iff {x : U32} : x = 0 ↔ x.toNat = 0 :=
  ⟨congrArg BitVec.toNat, fun h => BitVec.eq_of_toNat_eq h⟩

theorem firstLen_transferred (hstays : ¬StaysInBlock input) (hle : firstLen input ≤ 2 ^ 20) :
    (roundedLen (firstCount (blockRead input).readStride (toBlockEnd input)) (blockRead input).overread).toNat =
      8 * (firstLen input / 8) + overread input := by
  have hover := overread_le input
  rw [toNat_roundedLen (by rw [toNat_firstCount_block hstays, toNat_overread]; omega), toNat_firstCount_block hstays,
    toNat_overread]

theorem firstCopied_iff (hrefused : ¬Refused input) (hstays : ¬StaysInBlock input) :
    (∀ a ∈ firstSegment input (blockRead input), Possible a) ↔ FirstCopied input := by
  have hlen := firstLen_pos hstays
  rw [firstSegment_eq hstays, List.forall_mem_cons, List.forall_mem_singleton, Possible, Possible,
    accepted_iff_usable hrefused _ (eight_dvd_roundedLen _ (eight_dvd_overread input)), toNat_eq_zero_iff,
    toNat_firstCount_block hstays, toNat_firstRest_block, firstAddr_aligned, or_iff_right hlen.ne']
  constructor
  · rintro ⟨⟨husable, hfits, haligned⟩, hcopied⟩
    rw [firstLen_transferred hstays (by omega)] at hfits
    exact ⟨husable, haligned, hfits, hcopied⟩
  · rintro ⟨husable, haligned, hfits, hcopied⟩
    rw [firstLen_transferred hstays (by omega)]
    exact ⟨⟨husable, hfits, haligned⟩, hcopied⟩

variable {P : Copied → Prop}

theorem forall_firstSegment (hempty : ∀ c, c.length = 0 → P c) (hrefused : ¬Refused input)
    (hstays : ¬StaysInBlock input) (rest : List Action) (n : ℕ) :
    (∀ c ∈ performed (firstSegment input (blockRead input) ++ rest) n, P c) ↔ (FirstCopied input →
      P ⟨input.data, firstSkip input, firstLen input, 8 * (firstLen input / 8) + overread input⟩ ∧
        ∀ c ∈ performed rest (8 * (firstLen input / 8) + overread input), P c) := by
  rw [← firstCopied_iff hrefused hstays, firstSegment_eq hstays, List.cons_append, List.cons_append, List.nil_append,
    forall_performed_read, forall_performed_copy hempty, List.forall_mem_cons, List.forall_mem_singleton, and_imp]
  refine forall_congr' fun _ => forall_congr' fun hcopy => ?_
  rw [Possible, toNat_eq_zero_iff, toNat_firstCount_block hstays, or_iff_right (firstLen_pos hstays).ne'] at hcopy
  rw [toNat_firstRest_block, toNat_firstCount_block hstays]
  change P ⟨_, _, _, (roundedLen _ _).toNat⟩ ∧ (∀ c ∈ performed rest (roundedLen _ _).toNat, P c) ↔ _
  rw [firstLen_transferred hstays (by omega)]

/-- The length of a read of the second segment -/
def secondBytes (input : TDmaTpceDataRead) (count : ℕ) : ℕ :=
  if 8 * (count / 8) + overread input < 8 then 16 else 8 * (count / 8) + overread input

theorem secondBytes_cases (input : TDmaTpceDataRead) (count : ℕ) :
    8 * (count / 8) + overread input < 8 ∧ secondBytes input count = 16 ∨
      8 ≤ 8 * (count / 8) + overread input ∧ secondBytes input count = 8 * (count / 8) + overread input := by
  rw [secondBytes]
  split
  · rename_i hlt
    exact .inl ⟨hlt, rfl⟩
  · rename_i hle
    exact .inr ⟨Nat.not_lt.mp hle, rfl⟩

theorem toNat_secondLen {count : U32} (h : count.toNat ≤ 2 ^ 20) :
    (secondLen count (blockRead input).overread).toNat = secondBytes input count.toNat := by
  have hover := overread_le input
  have hsum : count.toNat + (blockRead input).overread.toNat < 2 ^ 32 := by
    rw [toNat_overread]
    omega
  have hlen := toNat_roundedLen hsum
  rw [toNat_overread] at hlen
  have hshort : roundedLen count (blockRead input).overread < 8 ↔ 8 * (count.toNat / 8) + overread input < 8 := by
    rw [BitVec.lt_def, hlen]
    rfl
  rw [secondLen, secondBytes]
  by_cases hlt : 8 * (count.toNat / 8) + overread input < 8
  · rw [if_pos (hshort.mpr hlt), if_pos hlt]
    rfl
  · rw [if_neg (mt hshort.mp hlt), if_neg hlt, hlen]

theorem eight_dvd_secondLen (input : TDmaTpceDataRead) (count : U32) :
    8 ∣ (secondLen count (blockRead input).overread).toNat := by
  rw [secondLen]
  split
  · decide
  · exact eight_dvd_roundedLen _ (eight_dvd_overread input)

theorem toNat_secondCount (hstays : ¬StaysInBlock input) (hle : firstLen input ≤ input.count.toNat) :
    (input.count - firstCount (blockRead input).readStride (toBlockEnd input)).toNat =
      input.count.toNat - firstLen input := by
  rw [BitVec.toNat_sub_of_le (BitVec.le_def.mpr (by rwa [toNat_firstCount_block hstays])),
    toNat_firstCount_block hstays]

/-- The driver reads the second one of two segments. -/
structure SecondRead (input : TDmaTpceDataRead) : Prop where
  usable : Usable input
  aligned : dataWidth input.dmaChannel.toNat ∣
    firstSkip input + 2 * (input.addrBlockNr.toNat * input.addrBlockSize.toNat)
  transferred : secondBytes input (input.count.toNat - firstLen input) ≤ 2 ^ 20

theorem secondRead_iff (hrefused : ¬Refused input) (hstays : ¬StaysInBlock input)
    (hle : firstLen input ≤ input.count.toNat) : Possible (.read ((blockRead input).kernelRead input
      (blockAddrAt input (firstRest (blockRead input).readStride (toBlockEnd input)))
      (secondLen (input.count - firstCount (blockRead input).readStride (toBlockEnd input))
        (blockRead input).overread))) ↔ SecondRead input := by
  have hcount := (not_refused_iff.mp hrefused).2
  have hmod := blockAddrAt_mod_eight input (firstRest (blockRead input).readStride (toBlockEnd input))
  rw [toNat_firstRest_block] at hmod
  rw [Possible, accepted_iff_usable hrefused _ (eight_dvd_secondLen input _), dataWidth_dvd_mod _ hmod,
    toNat_secondLen (by rw [toNat_secondCount hstays hle]; omega), toNat_secondCount hstays hle]
  exact ⟨fun ⟨husable, hfits, haligned⟩ => ⟨husable, haligned, hfits⟩,
    fun ⟨husable, haligned, hfits⟩ => ⟨husable, hfits, haligned⟩⟩

theorem secondSegment_eq
    (hpos : 0 < (input.count - firstCount (blockRead input).readStride (toBlockEnd input)).toNat) :
    secondSegment input (blockRead input) =
      [.read ((blockRead input).kernelRead input
          (blockAddrAt input (firstRest (blockRead input).readStride (toBlockEnd input)))
          (secondLen (input.count - firstCount (blockRead input).readStride (toBlockEnd input))
            (blockRead input).overread)),
        .copy (input.data + (firstCount (blockRead input).readStride (toBlockEnd input)).setWidth 64) 0
          (input.count - firstCount (blockRead input).readStride (toBlockEnd input))] := by
  have hgt : input.count - firstCount (blockRead input).readStride (toBlockEnd input) > 0 := BitVec.lt_def.mpr hpos
  exact if_pos hgt

theorem secondCount_pos (hstays : ¬StaysInBlock input) (hlt : firstLen input < input.count.toNat) :
    0 < (input.count - firstCount (blockRead input).readStride (toBlockEnd input)).toNat := by
  rw [toNat_secondCount hstays hlt.le]
  exact Nat.sub_pos_of_lt hlt

theorem secondSegment_nil (hstays : ¬StaysInBlock input) (heq : input.count.toNat = firstLen input) :
    secondSegment input (blockRead input) = [] := by
  have hzero : ¬input.count - firstCount (blockRead input).readStride (toBlockEnd input) > 0 := by
    rw [gt_iff_lt, BitVec.lt_def, toNat_secondCount hstays heq.ge, heq, Nat.sub_self]
    exact Nat.lt_irrefl 0
  exact if_neg hzero

theorem secondCopy_possible (hrefused : ¬Refused input) (hstays : ¬StaysInBlock input)
    (hle : firstLen input ≤ input.count.toNat) (dst : U64) : Possible (.copy dst 0
      (input.count - firstCount (blockRead input).readStride (toBlockEnd input))) := by
  have hcount := (not_refused_iff.mp hrefused).2
  refine .inr ?_
  rw [toNat_secondCount hstays hle]
  change 0 + _ ≤ _
  omega

theorem secondCopied_iff (hrefused : ¬Refused input) (hstays : ¬StaysInBlock input)
    (hle : firstLen input ≤ input.count.toNat) : (∀ a ∈ secondSegment input (blockRead input), Possible a) ↔
      (firstLen input < input.count.toNat → SecondRead input) := by
  rcases hle.lt_or_eq with hlt | heq
  · rw [secondSegment_eq (secondCount_pos hstays hlt), List.forall_mem_cons, List.forall_mem_singleton,
      secondRead_iff hrefused hstays hle, and_iff_left (secondCopy_possible hrefused hstays hle _)]
    exact ⟨fun h _ => h, fun h => h hlt⟩
  · rw [secondSegment_nil hstays heq.symm]
    exact iff_of_true (fun a ha => absurd ha List.not_mem_nil) fun hlt => absurd heq hlt.ne

theorem setWidth_of_toNat {x : U32} {n : ℕ} (h : x.toNat = n) : x.setWidth 64 = BitVec.ofNat 64 n := by
  rw [← h]
  exact (BitVec.ofNat_toNat 64 x).symm

theorem forall_secondSegment (hempty : ∀ c, c.length = 0 → P c) (hrefused : ¬Refused input)
    (hstays : ¬StaysInBlock input) (hle : firstLen input ≤ input.count.toNat) (n : ℕ) :
    (∀ c ∈ performed (secondSegment input (blockRead input)) n, P c) ↔
      (firstLen input < input.count.toNat → SecondRead input →
        P ⟨input.data + BitVec.ofNat 64 (firstLen input), 0, input.count.toNat - firstLen input,
          secondBytes input (input.count.toNat - firstLen input)⟩) := by
  have hcount := (not_refused_iff.mp hrefused).2
  rcases hle.lt_or_eq with hlt | heq
  · have hcopy := secondCopy_possible hrefused hstays hle (input.data + BitVec.ofNat 64 (firstLen input))
    rw [secondSegment_eq (secondCount_pos hstays hlt), forall_performed_read, forall_performed_copy hempty,
      setWidth_of_toNat (toNat_firstCount_block hstays), secondRead_iff hrefused hstays hle,
      toNat_secondCount hstays hle]
    change (SecondRead input → _ → P ⟨_, _, _, (secondLen _ _).toNat⟩ ∧ _) ↔ _
    rw [toNat_secondLen (by rw [toNat_secondCount hstays hle]; omega), toNat_secondCount hstays hle]
    exact ⟨fun h _ hread => (h hread hcopy).1, fun h hread _ => ⟨h hlt hread, fun c hc => absurd hc List.not_mem_nil⟩⟩
  · rw [secondSegment_nil hstays heq.symm]
    exact iff_of_true (fun a ha => absurd ha List.not_mem_nil) fun hlt => absurd heq hlt.ne

/-- A second segment of a wrapped length is refused. -/
theorem performed_wrapped (hstays : ¬StaysInBlock input) (hlt : input.count.toNat < firstLen input)
    (hle : firstLen input ≤ 2 ^ 20) (n : ℕ) : performed (secondSegment input (blockRead input)) n = [] := by
  have hfirst := toNat_firstCount_block hstays
  have hlen : 2 ^ 20 < (input.count - firstCount (blockRead input).readStride (toBlockEnd input)).toNat := by
    rw [BitVec.toNat_sub, hfirst]
    omega
  have hpos : input.count - firstCount (blockRead input).readStride (toBlockEnd input) ≠ 0 := by
    rw [ne_eq, toNat_eq_zero_iff]
    omega
  have hexceeds : 2 ^ 20 < (0 : U32).toNat +
      (input.count - firstCount (blockRead input).readStride (toBlockEnd input)).toNat := Nat.lt_add_left _ hlen
  rw [secondSegment_eq (by omega), performed, performed, if_neg hpos, if_pos hexceeds]
  exact ite_self []

def withinBytes (input : TDmaTpceDataRead) : ℕ :=
  if input.count.toNat < 8 then 16
  else 8 * (input.count.toNat / 8) + if overread input = 0 ∧ input.count.toNat % 8 ≠ 0 then 8 else overread input

/-- The driver reads and copies without a roll-over. -/
structure WithinCopied (input : TDmaTpceDataRead) : Prop where
  usable : Usable input
  transferred : withinBytes input ≤ 2 ^ 20
  copied : skip input + input.count.toNat ≤ 2 ^ 20

theorem toNat_withinLen (h : input.count.toNat ≤ 2 ^ 20) :
    (withinLen input (blockRead input)).toNat = withinBytes input := by
  have hover := toNat_overread input
  have hle := overread_le input
  have hmore : ((blockRead input).overread + 8).toNat = overread input + 8 := by
    rw [BitVec.toNat_add, hover]
    change (overread input + 8) % 2 ^ 32 = _
    omega
  have hlen := toNat_roundedLen (show input.count.toNat + (blockRead input).overread.toNat < 2 ^ 32 by omega)
  have hlen' := toNat_roundedLen (show input.count.toNat + ((blockRead input).overread + 8).toNat < 2 ^ 32 by omega)
  have hrounds : roundedLen input.count (blockRead input).overread < input.count ↔
      overread input = 0 ∧ input.count.toNat % 8 ≠ 0 := by
    rw [BitVec.lt_def, hlen, hover]
    rcases overread_cases input with ⟨h, -⟩ | ⟨h, -⟩ <;> omega
  have hshort : input.count < 8 ↔ input.count.toNat < 8 := BitVec.lt_def
  rw [withinBytes]
  simp only [withinLen]
  by_cases hlt : input.count.toNat < 8
  · rw [if_pos (hshort.mpr hlt), if_pos hlt]
    rfl
  rw [if_neg (mt hshort.mp hlt), if_neg hlt]
  by_cases hzero : overread input = 0 ∧ input.count.toNat % 8 ≠ 0
  · rw [if_pos (hrounds.mpr hzero), if_pos hzero, hlen', hmore, hzero.1]
  · rw [if_neg (mt hrounds.mp hzero), if_neg hzero, hlen, hover]

theorem eight_dvd_withinLen (input : TDmaTpceDataRead) : 8 ∣ (withinLen input (blockRead input)).toNat := by
  have hover := eight_dvd_overread input
  have hmore : 8 ∣ ((blockRead input).overread + 8).toNat := by
    rw [BitVec.toNat_add]
    change 8 ∣ ((blockRead input).overread.toNat + 8) % 2 ^ 32
    omega
  simp only [withinLen]
  split
  · decide
  · split
    · exact eight_dvd_roundedLen _ hmore
    · exact eight_dvd_roundedLen _ hover

theorem withinCopied_iff (hrefused : ¬Refused input) :
    (∀ a ∈ withinBlock input (blockRead input), Possible a) ↔ WithinCopied input := by
  have hcount := (not_refused_iff.mp hrefused).2
  have haligned := dataWidth_dvd_roundDown input.dmaChannel.toNat (blockAddrAt input (maskedAddr input))
  have hcopy : input.count.toNat = 0 ∨ skip input + input.count.toNat ≤ 2 ^ 20 ↔
      skip input + input.count.toNat ≤ 2 ^ 20 := by
    rw [skip]
    omega
  rw [withinBlock, List.forall_mem_cons, List.forall_mem_singleton, Possible, Possible,
    accepted_iff_usable hrefused _ (eight_dvd_withinLen input), toNat_withinLen hcount, toNat_eq_zero_iff, toNat_offset,
    hcopy]
  exact ⟨fun ⟨⟨husable, hfits, _⟩, hcopied⟩ => ⟨husable, hfits, hcopied⟩,
    fun ⟨husable, hfits, hcopied⟩ => ⟨⟨husable, hfits, haligned⟩, hcopied⟩⟩

theorem forall_withinBlock (hempty : ∀ c, c.length = 0 → P c) (hrefused : ¬Refused input) (n : ℕ) :
    (∀ c ∈ performed (withinBlock input (blockRead input)) n, P c) ↔
      (WithinCopied input → P ⟨input.data, skip input, input.count.toNat, withinBytes input⟩) := by
  rw [← withinCopied_iff hrefused, withinBlock, forall_performed_read, forall_performed_copy hempty,
    List.forall_mem_cons, List.forall_mem_singleton, and_imp, toNat_offset]
  refine forall_congr' fun _ => forall_congr' fun _ => ?_
  change P ⟨_, _, _, (withinLen input (blockRead input)).toNat⟩ ∧ _ ↔ _
  rw [toNat_withinLen (not_refused_iff.mp hrefused).2]
  exact and_iff_left fun c hc => absurd hc List.not_mem_nil

/-- The driver reads a whole block and copies it. -/
structure WholeCopied (input : TDmaTpceDataRead) : Prop where
  usable : Usable input
  transferred : 8 * (input.count.toNat / 8) + overread input ≤ 2 ^ 20
  copied : (input.address * 2).toNat ≤ (input.addrBlockSize * 2).toNat

theorem toNat_double (x : U32) : (x * 2).toNat = x.toNat * 2 % 2 ^ 32 := BitVec.toNat_mul x 2

theorem wholeBlock_first (hrefused : ¬Refused input) (hexceeds : ExceedsBlock input) :
    (input.addrBlockSize * 2).toNat < input.count.toNat ∧
      (((input.address * 2).toNat ≤ (input.addrBlockSize * 2).toNat ∧
        ((input.addrBlockSize - input.address) * 2).toNat =
          (input.addrBlockSize * 2).toNat - (input.address * 2).toNat) ∨
      ((input.addrBlockSize * 2).toNat < (input.address * 2).toNat ∧
        ((input.addrBlockSize - input.address) * 2).toNat =
          (input.addrBlockSize * 2).toNat + 2 ^ 32 - (input.address * 2).toNat)) := by
  have hcount := (not_refused_iff.mp hrefused).2
  have hlt := BitVec.lt_def.mp hexceeds
  rw [BitVec.toNat_udiv] at hlt
  change _ < input.count.toNat / 2 at hlt
  rw [toNat_double, toNat_double, toNat_double, BitVec.toNat_sub]
  omega

theorem forall_wholeBlock (hempty : ∀ c, c.length = 0 → P c) (hrefused : ¬Refused input)
    (hexceeds : ExceedsBlock input) (n : ℕ) :
    (∀ c ∈ performed (wholeBlock input (blockRead input)) n, P c) ↔ (WholeCopied input →
      P ⟨input.data, (input.address * 2).toNat, (input.addrBlockSize * 2).toNat - (input.address * 2).toNat,
          8 * (input.count.toNat / 8) + overread input⟩ ∧
        P ⟨input.data + BitVec.ofNat 64 ((input.addrBlockSize * 2).toNat - (input.address * 2).toNat), 0,
          (input.address * 2).toNat, 8 * (input.count.toNat / 8) + overread input⟩) := by
  have hcount := (not_refused_iff.mp hrefused).2
  have hover := overread_le input
  have hlen := toNat_roundedLen (show input.count.toNat + (blockRead input).overread.toNat < 2 ^ 32 by
    rw [toNat_overread]
    omega)
  rw [toNat_overread] at hlen
  have haligned := dataWidth_dvd_roundDown input.dmaChannel.toNat (blockAddrAt input 0)
  obtain ⟨hblock, hfirst⟩ := wholeBlock_first hrefused hexceeds
  simp only [wholeBlock]
  rw [forall_performed_read, forall_performed_copy hempty, forall_performed_copy hempty, Possible, Possible, Possible,
    accepted_iff_usable hrefused _ (eight_dvd_roundedLen _ (eight_dvd_overread input)), toNat_eq_zero_iff]
  change (_ → _ → P ⟨_, _, _, (roundedLen _ _).toNat⟩ ∧ (_ ∨ 0 + _ ≤ _ → P ⟨_, _, _, (roundedLen _ _).toNat⟩ ∧ _)) ↔ _
  rw [hlen]
  constructor
  · rintro h ⟨husable, htransferred, hcopied⟩
    obtain ⟨-, heq⟩ := hfirst.resolve_right (by omega)
    rw [heq, setWidth_of_toNat heq] at h
    obtain ⟨hP, hrest⟩ := h ⟨husable, htransferred, haligned⟩ (.inr (by omega))
    exact ⟨hP, (hrest (.inr (by omega))).1⟩
  · rintro h ⟨husable, htransferred, -⟩ hfits
    obtain ⟨hle, heq⟩ := hfirst.resolve_right (by omega)
    obtain ⟨hP, hP'⟩ := h ⟨husable, htransferred, hle⟩
    rw [heq, setWidth_of_toNat heq]
    exact ⟨hP, fun _ => ⟨hP', fun c hc => absurd hc List.not_mem_nil⟩⟩

end TpceDrv.BlockReadCopies
