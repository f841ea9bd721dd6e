import TpceDrv.BlockReadCopies

namespace TpceDrv.DeviceBlocks

open Requests UserStructs LegacyRead LegacyActions LegacyMemory LegacyRuns BlockReadSizes BlockReadCopies
  Library.BitMask Library.Buffers

variable {input : TDmaTpceDataRead}

/-- The device address at which the block starts -/
def blockStart (input : TDmaTpceDataRead) : ℕ :=
  0x40000000 + (inputAddr input).toNat + 2 * (input.addrBlockNr.toNat * input.addrBlockSize.toNat)

/-- A read from a block as the request is documented, whose block and channel address do not
overflow -/
structure BlockRequest (input : TDmaTpceDataRead) : Prop where
  size : ∃ n, 10 ≤ n ∧ input.addrBlockSize.toNat = 2 ^ n
  address : input.address.toNat < input.addrBlockSize.toNat
  even : input.count.toNat % 2 = 0
  pos : 0 < input.count.toNat
  count : input.count.toNat ≤ 2 * input.addrBlockSize.toNat
  start : blockStart input < 2 ^ 32

theorem toNat_blockAddrAt (input : TDmaTpceDataRead) (offset : U32) :
    (blockAddrAt input offset).toNat = (blockStart input + offset.toNat) % 2 ^ 32 := by
  rw [blockAddrAt, blockStart, BitVec.toNat_add, BitVec.toNat_add, BitVec.toNat_add, toNat_double, BitVec.toNat_mul]
  change ((0x40000000 + _ % 2 ^ 32) % 2 ^ 32 + _) % 2 ^ 32 = _
  omega

theorem le_blockStart (input : TDmaTpceDataRead) : 2 ^ 30 ≤ blockStart input := by
  rw [blockStart]
  omega

theorem BlockRequest.exponent (h : BlockRequest input) :
    ∃ n, 10 ≤ n ∧ n < 32 ∧ input.addrBlockSize.toNat = 2 ^ n := by
  obtain ⟨n, hn, hsize⟩ := h.size
  have hlt := input.addrBlockSize.isLt
  rw [hsize] at hlt
  exact ⟨n, hn, (Nat.pow_lt_pow_iff_right (by decide)).mp hlt, hsize⟩

theorem BlockRequest.blockSize_le (h : BlockRequest input) : input.addrBlockSize.toNat ≤ 2 ^ 31 := by
  obtain ⟨n, -, hlt, hsize⟩ := h.exponent
  rw [hsize]
  exact Nat.pow_le_pow_right (by decide) (by omega)

theorem BlockRequest.blockSize_dvd (h : BlockRequest input) : 8 ∣ input.addrBlockSize.toNat := by
  obtain ⟨n, hn, hsize⟩ := h.size
  rw [hsize]
  exact Nat.pow_dvd_pow 2 (show 3 ≤ n by omega)

theorem BlockRequest.blockStart_mod (h : BlockRequest input) : blockStart input % 8 = 0 := by
  have hinput := inputAddr_dvd input
  have hblock := h.blockSize_dvd.mul_left input.addrBlockNr.toNat
  rw [blockStart]
  omega

/-- The mask splits an address into its block and the offset there. -/
theorem BlockRequest.mask (h : BlockRequest input) (x : U32) :
    (x &&& (input.addrBlockSize * 2 - 1)).toNat = x.toNat % (2 * input.addrBlockSize.toNat) ∧
      (x &&& ~~~(input.addrBlockSize * 2 - 1)).toNat =
        2 * input.addrBlockSize.toNat * (x.toNat / (2 * input.addrBlockSize.toNat)) := by
  obtain ⟨n, hn, hlt, hsize⟩ := h.exponent
  have hle := h.blockSize_le
  have hpow : 2 ^ (n + 1) = 2 * input.addrBlockSize.toNat := by rw [Nat.pow_succ', hsize]
  have hmask : input.addrBlockSize * 2 - 1 = BitVec.ofNat 32 (2 ^ (n + 1) - 1) := by
    have haddress := h.address
    apply BitVec.eq_of_toNat_eq
    rw [BitVec.toNat_sub, toNat_double, BitVec.toNat_ofNat, hpow]
    change (2 ^ 32 - 1 + input.addrBlockSize.toNat * 2 % 2 ^ 32) % 2 ^ 32 = _
    omega
  rw [hmask, toNat_and_lowBits x (by omega), toNat_and_not_lowBits x (by omega), hpow]
  exact ⟨rfl, rfl⟩

theorem BlockRequest.toNat_start (h : BlockRequest input) : (input.address * 2).toNat = 2 * input.address.toNat := by
  have haddress := h.address
  have hle := h.blockSize_le
  rw [toNat_double]
  omega

theorem BlockRequest.maskedAddr_eq (h : BlockRequest input) : (maskedAddr input).toNat = 2 * input.address.toNat := by
  have haddress := h.address
  rw [maskedAddr, (h.mask _).1, h.toNat_start, Nat.mod_eq_of_lt (by omega)]

theorem BlockRequest.staysInBlock_iff (h : BlockRequest input) : StaysInBlock input ↔
    (2 * input.address.toNat + input.count.toNat * stride input) % 2 ^ 32 < 2 * input.addrBlockSize.toNat := by
  have haddress := h.address
  have hend : (input.address * 2 + input.count * (input.nextAddress.setWidth 16).setWidth 32).toNat =
      (2 * input.address.toNat + input.count.toNat * stride input) % 2 ^ 32 := by
    rw [BitVec.toNat_add, h.toNat_start, BitVec.toNat_mul, toNat_wide, Nat.add_mod_mod]
    rw [← toNat_readStride]
    rfl
  have hpos : 0 < 2 * input.addrBlockSize.toNat := by omega
  rw [StaysInBlock, ← BitVec.toNat_inj, (h.mask _).2, (h.mask _).2, h.toNat_start, hend, Nat.div_eq_of_lt (by omega),
    Nat.mul_zero]
  constructor
  · intro heq
    by_contra hle
    have hone := Nat.div_pos (Nat.not_lt.mp hle) hpos
    exact absurd heq.symm (Nat.mul_pos hpos hone).ne'
  · intro hlt
    rw [Nat.div_eq_of_lt hlt, Nat.mul_zero]

theorem BlockRequest.not_exceeds (h : BlockRequest input) : ¬ExceedsBlock input := by
  have hcount := h.count
  rw [ExceedsBlock, gt_iff_lt, BitVec.lt_def, BitVec.toNat_udiv]
  change ¬_ < input.count.toNat / 2
  omega

theorem BlockRequest.toEnd_eq (h : BlockRequest input) (hstays : ¬StaysInBlock input) :
    input.addrBlockSize.toNat ≤ 2 ^ 30 ∧
      toEnd input = 2 * input.addrBlockSize.toNat - 2 * input.address.toNat := by
  obtain ⟨n, hn, hlt, hsize⟩ := h.exponent
  have hpos := blockBytes_pos hstays
  have hend := (toEnd_spec hstays).2
  rw [toNat_double] at hpos hend
  rw [h.maskedAddr_eq] at hend
  have hne : n ≠ 31 := fun heq => by
    rw [hsize, heq] at hpos
    exact absurd hpos (by decide)
  have hle : input.addrBlockSize.toNat ≤ 2 ^ 30 := hsize ▸ Nat.pow_le_pow_right (by decide) (by omega)
  omega

/-- A byte that is the device's one, whatever the device and the kernel buffer hold -/
theorem transferred_iff {p : Prop} [Decidable p] {x y e : ℕ} :
    (∀ device kernel : Bytes, (if p then device x else kernel y) = device e) ↔ p ∧ x = e := by
  constructor
  · intro h
    have hdevice := h (fun i => if i = e then 1 else 0) fun _ => 0
    rw [if_pos rfl] at hdevice
    split at hdevice
    · rename_i hp
      refine ⟨hp, ?_⟩
      by_contra hne
      rw [if_neg hne] at hdevice
      exact absurd hdevice (by decide)
    · exact absurd hdevice (by decide)
  · rintro ⟨hp, rfl⟩ device kernel
    exact if_pos hp

/-- The same behind a second transfer over the first one -/
theorem retransferred_iff {p q : Prop} [Decidable p] [Decidable q] {x y z e : ℕ} :
    (∀ device kernel : Bytes, (if p then device x else if q then device y else kernel z) = device e) ↔
      if p then x = e else q ∧ y = e := by
  by_cases hp : p
  · simp only [if_pos hp]
    have hfirst := transferred_iff (p := True) (x := x) (y := z) (e := e)
    simpa using hfirst
  · simp only [if_neg hp]
    exact transferred_iff

theorem store_at (user : U64 → Byte) (dst : U64) (b : Bytes) {i n : ℕ} (hi : i < n) (hn : n ≤ 2 ^ 32) :
    store user dst b n (dst + BitVec.ofNat 64 i) = b i := by
  rw [store, toNat_start_distance dst (by omega)]
  exact if_pos hi

/-- What the caller finds behind two copies, the second one at the end of the first one -/
theorem store_twice (user : U64 → Byte) (dst : U64) (b b' : Bytes) {i k n : ℕ} (hi : i < k + n)
    (hfit : k + n ≤ 2 ^ 32) :
    store (store user dst b k) (dst + BitVec.ofNat 64 k) b' n (dst + BitVec.ofNat 64 i) =
      if i < k then b i else b' (i - k) := by
  have hdistance : (dst + BitVec.ofNat 64 i - (dst + BitVec.ofNat 64 k)).toNat = (2 ^ 64 + i - k) % 2 ^ 64 := by
    rw [BitVec.toNat_sub, BitVec.toNat_add, BitVec.toNat_add, BitVec.toNat_ofNat, BitVec.toNat_ofNat]
    omega
  rw [store, hdistance]
  by_cases hlt : i < k
  · rw [if_pos hlt, if_neg (by omega)]
    exact store_at user dst b hlt (by omega)
  · rw [if_neg hlt, show (2 ^ 64 + i - k) % 2 ^ 64 = i - k by omega]
    exact if_pos (by omega)

/-- The data of a transfer, whose bytes are at places in the device that follow from its
address and stride -/
def delivered (place : ℕ → ℕ → ℕ → ℕ) (device : Bytes) : ℕ → KernelRead → Bytes :=
  fun _ r i => device (place r.deviceAddr.toNat r.readStride.toNat i)

/-- If the block read returns 0, the caller's buffer holds the device's bytes at the
target places. -/
def ReadsAs (place : ℕ → ℕ → ℕ → ℕ) (target : ℕ → ℕ) (input : TDmaTpceDataRead) : Prop :=
  ∀ device ans, Answers.data ans = delivered place device → ∀ kernel user m,
    iocDmaReadRequestA ans.ops input (Memory.start kernel user) = .ok (0, m) → ∀ j < input.count.toNat,
      m.user (input.data + BitVec.ofNat 64 j) = device (target j)

variable {place : ℕ → ℕ → ℕ → ℕ} {target : ℕ → ℕ}

theorem readsAs_iff : ReadsAs place target input ↔ (¬Refused input → (∀ a ∈ actions input, Possible a) →
    ∀ j < input.count.toNat, ∀ device kernel user,
      settle (delivered place device) (actions input) 0 kernel user (input.data + BitVec.ofNat 64 j) =
        device (target j)) := by
  have hzero := fun (device : Bytes) (j : ℕ) => zero_iff input (delivered place device) fun user =>
    user (input.data + BitVec.ofNat 64 j) = device (target j)
  constructor
  · intro h hrefused hpossible j hj device kernel user
    exact (hzero device j).mp (fun ans hans kernel user m hrun => h device ans hans kernel user m hrun j hj) hrefused
      hpossible kernel user
  · intro h device ans hans kernel user m hrun j hj
    exact (hzero device j).mpr (fun hrefused hpossible kernel user => h hrefused hpossible j hj device kernel user) ans
      hans kernel user m hrun

theorem BlockRequest.withinAddr (h : BlockRequest input) :
    (blockAddrAt input (maskedAddr input) &&& 0xfffffff8#32).toNat =
      8 * ((blockStart input + 2 * input.address.toNat) % 2 ^ 32 / 8) := by
  rw [toNat_roundDown, toNat_blockAddrAt, h.maskedAddr_eq]

theorem settle_within (h : BlockRequest input) (hcount : input.count.toNat ≤ 2 ^ 20) (device kernel : Bytes)
    (user : U64 → Byte) {j : ℕ} (hj : j < input.count.toNat) :
    settle (delivered place device) (withinBlock input (blockRead input)) 0 kernel user
        (input.data + BitVec.ofNat 64 j) =
      if skip input + j < withinBytes input then
        device (place (8 * ((blockStart input + 2 * input.address.toNat) % 2 ^ 32 / 8)) (stride input) (skip input + j))
      else kernel (skip input + j) := by
  change store user input.data (fun i => copyIn kernel (fun i => device (place
    (blockAddrAt input (maskedAddr input) &&& 0xfffffff8#32).toNat (blockRead input).readStride.toNat i))
    (withinLen input (blockRead input)).toNat 0 ((blockRead input).offset.toNat + i)) input.count.toNat _ = _
  rw [store_at _ _ _ hj (by omega), copyIn_apply, toNat_withinLen hcount, toNat_offset, toNat_readStride, h.withinAddr]

theorem readsAs_within (h : BlockRequest input) (hstays : StaysInBlock input) : ReadsAs place target input ↔
    (WithinCopied input → ∀ j < input.count.toNat, skip input + j < withinBytes input ∧
      place (8 * ((blockStart input + 2 * input.address.toNat) % 2 ^ 32 / 8)) (stride input) (skip input + j) =
        target j) := by
  rw [readsAs_iff, actions]
  simp only [if_pos hstays]
  constructor
  · intro hread hcopied j hj
    have hrefused := hcopied.usable.not_refused
    rw [← transferred_iff (y := skip input + j)]
    intro device kernel
    rw [← settle_within h hcopied.usable.count device kernel (fun _ => 0) hj]
    exact hread hrefused ((withinCopied_iff hrefused).mpr hcopied) j hj device kernel _
  · intro hread hrefused hpossible j hj device kernel user
    have hcopied := (withinCopied_iff hrefused).mp hpossible
    rw [settle_within h hcopied.usable.count device kernel user hj]
    exact transferred_iff.mpr (hread hcopied j hj) device kernel

def firstPlace (input : TDmaTpceDataRead) : ℕ :=
  let start := (blockStart input + 2 * input.address.toNat) % 2 ^ 32
  if stride input = 1 then 8 * (start / 8) else 2 * (start / 2)

theorem BlockRequest.firstAddr_eq (h : BlockRequest input) :
    (firstAddr input (blockRead input)).toNat = firstPlace input := by
  have hstride := readStride_eq_one_iff input
  simp only [firstAddr, firstPlace]
  by_cases hone : stride input = 1
  · rw [if_pos (hstride.mpr hone), if_pos hone, toNat_roundDown, toNat_blockAddrAt, h.maskedAddr_eq]
  · rw [if_neg (mt hstride.mp hone), if_neg hone, toNat_roundEven, toNat_blockAddrAt, h.maskedAddr_eq]

theorem settle_first (h : BlockRequest input) (hstays : ¬StaysInBlock input) (hfirst : firstLen input ≤ 2 ^ 20)
    (rest : List Action) (device kernel : Bytes) (user : U64 → Byte) :
    settle (delivered place device) (firstSegment input (blockRead input) ++ rest) 0 kernel user =
      settle (delivered place device) rest 1
        (copyIn kernel (fun i => device (place (firstPlace input) (stride input) i))
          (8 * (firstLen input / 8) + overread input) 0)
        (store user input.data (fun i => copyIn kernel (fun i => device (place (firstPlace input) (stride input) i))
          (8 * (firstLen input / 8) + overread input) 0 (firstSkip input + i)) (firstLen input)) := by
  rw [firstSegment_eq hstays]
  change settle _ rest 1 (copyIn kernel (fun i => device (place (firstAddr input (blockRead input)).toNat
    (blockRead input).readStride.toNat i)) (roundedLen _ _).toNat 0) (store user input.data (fun i => copyIn kernel
      (fun i => device (place (firstAddr input (blockRead input)).toNat (blockRead input).readStride.toNat i))
      (roundedLen _ _).toNat 0 ((firstRest _ _).toNat + i)) (firstCount _ _).toNat) = _
  rw [h.firstAddr_eq, toNat_readStride, firstLen_transferred hstays hfirst, toNat_firstRest_block,
    toNat_firstCount_block hstays]

theorem settle_second (hstays : ¬StaysInBlock input) (hlt : firstLen input < input.count.toNat)
    (hcount : input.count.toNat ≤ 2 ^ 20) (n : ℕ) (device kernel : Bytes) (user : U64 → Byte) :
    settle (delivered place device) (secondSegment input (blockRead input)) n kernel user =
      store user (input.data + BitVec.ofNat 64 (firstLen input))
        (copyIn kernel (fun i => device (place ((blockStart input + firstSkip input) % 2 ^ 32) (stride input) i))
          (secondBytes input (input.count.toNat - firstLen input)) 0) (input.count.toNat - firstLen input) := by
  have hsecond := toNat_secondCount hstays hlt.le
  have hzero : ∀ b : Bytes, (fun i => b ((0 : U32).toNat + i)) = b :=
    fun b => funext fun i => congrArg b (Nat.zero_add i)
  rw [secondSegment_eq (secondCount_pos hstays hlt)]
  change store user (input.data + (firstCount _ _).setWidth 64) (fun i => copyIn kernel (fun i => device (place
    (blockAddrAt input _).toNat (blockRead input).readStride.toNat i)) (secondLen _ _).toNat 0 ((0 : U32).toNat + i))
      (input.count - firstCount _ _).toNat = _
  rw [hzero, setWidth_of_toNat (toNat_firstCount_block hstays), toNat_blockAddrAt, toNat_firstRest_block,
    toNat_readStride, toNat_secondLen (by omega), hsecond]

theorem settle_two (h : BlockRequest input) (hstays : ¬StaysInBlock input) (hfirst : firstLen input ≤ 2 ^ 20)
    (hle : firstLen input ≤ input.count.toNat) (hcount : input.count.toNat ≤ 2 ^ 20) (device kernel : Bytes)
    (user : U64 → Byte) {j : ℕ} (hj : j < input.count.toNat) :
    settle (delivered place device) (firstSegment input (blockRead input) ++ secondSegment input (blockRead input)) 0
        kernel user (input.data + BitVec.ofNat 64 j) =
      if j < firstLen input then
        if firstSkip input + j < 8 * (firstLen input / 8) + overread input then
          device (place (firstPlace input) (stride input) (firstSkip input + j))
        else kernel (firstSkip input + j)
      else if j - firstLen input < secondBytes input (input.count.toNat - firstLen input) then
        device (place ((blockStart input + firstSkip input) % 2 ^ 32) (stride input) (j - firstLen input))
      else if j - firstLen input < 8 * (firstLen input / 8) + overread input then
        device (place (firstPlace input) (stride input) (j - firstLen input))
      else kernel (j - firstLen input) := by
  rw [settle_first h hstays hfirst]
  rcases hle.lt_or_eq with hlt | heq
  · rw [settle_second hstays hlt hcount, store_twice _ _ _ _ (by omega) (by omega)]
    simp only [copyIn_apply]
  · rw [secondSegment_nil hstays heq.symm, settle, store_at _ _ _ (by omega) (by omega), if_pos (by omega),
      copyIn_apply]

/-- The byte that two reads give the caller comes from one of them, and from its place in
the device. -/
def RightByte (place : ℕ → ℕ → ℕ → ℕ) (target : ℕ → ℕ) (input : TDmaTpceDataRead) (j : ℕ) : Prop :=
  if j < firstLen input then
    firstSkip input + j < 8 * (firstLen input / 8) + overread input ∧
      place (firstPlace input) (stride input) (firstSkip input + j) = target j
  else if j - firstLen input < secondBytes input (input.count.toNat - firstLen input) then
    place ((blockStart input + firstSkip input) % 2 ^ 32) (stride input) (j - firstLen input) = target j
  else
    j - firstLen input < 8 * (firstLen input / 8) + overread input ∧
      place (firstPlace input) (stride input) (j - firstLen input) = target j

theorem settle_two_iff (h : BlockRequest input) (hstays : ¬StaysInBlock input) (hcopied : FirstCopied input)
    (hle : firstLen input ≤ input.count.toNat) {j : ℕ} (hj : j < input.count.toNat) :
    (∀ device kernel user, settle (delivered place device)
      (firstSegment input (blockRead input) ++ secondSegment input (blockRead input)) 0 kernel user
        (input.data + BitVec.ofNat 64 j) = device (target j)) ↔ RightByte place target input j := by
  have hfirst : firstLen input ≤ 2 ^ 20 := (Nat.le_add_left _ _).trans hcopied.copied
  simp only [settle_two h hstays hfirst hle hcopied.usable.count _ _ _ hj, forall_const, RightByte]
  by_cases hlt : j < firstLen input
  · simp only [if_pos hlt]
    exact transferred_iff
  · simp only [if_neg hlt]
    exact retransferred_iff

theorem readsAs_two (h : BlockRequest input) (hstays : ¬StaysInBlock input)
    (hle : firstLen input ≤ input.count.toNat) : ReadsAs place target input ↔
    (FirstCopied input → (firstLen input < input.count.toNat → SecondRead input) →
      ∀ j < input.count.toNat, RightByte place target input j) := by
  rw [readsAs_iff, actions]
  simp only [if_neg hstays, if_neg h.not_exceeds, List.forall_mem_append]
  constructor
  · intro hread hcopied hsecond j hj
    have hrefused := hcopied.usable.not_refused
    have hpossible := (firstCopied_iff hrefused hstays).mpr hcopied
    exact (settle_two_iff h hstays hcopied hle hj).mp
      (hread hrefused ⟨hpossible, (secondCopied_iff hrefused hstays hle).mpr hsecond⟩ j hj)
  · rintro hread hrefused ⟨hfirst, hsecond⟩ j hj
    have hcopied := (firstCopied_iff hrefused hstays).mp hfirst
    exact (settle_two_iff h hstays hcopied hle hj).mpr
      (hread hcopied ((secondCopied_iff hrefused hstays hle).mp hsecond) j hj)

end TpceDrv.DeviceBlocks
