import TpceDrv.LegacyActions
import TpceDrv.Library.Buffers

namespace TpceDrv.LegacyMemory

open Descriptor Mapping DmaParams Device Requests LegacyRead LegacyActions
open Library.Buffers Library.Scripts Library.Traces

def dataWidth (channel : ℕ) : ℕ := if channel = 1 then 2 else 8

/-- The arguments of `read_kernel_dma_buffer` that it does not refuse by itself -/
structure Accepted (r : KernelRead) : Prop where
  channel : r.channel.toNat < 3
  fits : r.bytesTotal.toNat ≤ 2 ^ 20
  deviceAligned : dataWidth r.channel.toNat ∣ r.deviceAddr.toNat
  totalAligned : dataWidth r.channel.toNat ∣ r.bytesTotal.toNat
  strides : r.channel.toNat = 1 → max r.readStride.toNat r.writeStride.toNat ≤ 32768
  burst : r.channel.toNat ≠ 1 → r.burstCount.toNat ≤ 32

theorem accepted_iff (r : KernelRead) : Accepted r ↔ r.channel.toNat < 3 ∧ r.bytesTotal.toNat ≤ 2 ^ 20 ∧
    dataWidth r.channel.toNat ∣ r.deviceAddr.toNat ∧ dataWidth r.channel.toNat ∣ r.bytesTotal.toNat ∧
    (r.channel.toNat = 1 → max r.readStride.toNat r.writeStride.toNat ≤ 32768) ∧
    (r.channel.toNat ≠ 1 → r.burstCount.toNat ≤ 32) :=
  ⟨fun ⟨h₁, h₂, h₃, h₄, h₅, h₆⟩ => ⟨h₁, h₂, h₃, h₄, h₅, h₆⟩,
    fun ⟨h₁, h₂, h₃, h₄, h₅, h₆⟩ => ⟨h₁, h₂, h₃, h₄, h₅, h₆⟩⟩

instance (r : KernelRead) : Decidable (Accepted r) := decidable_of_iff _ (accepted_iff r).symm

/-- A copy of a part of the kernel buffer to the user, of which the transfer in
front of it has filled the first `transferred` bytes. -/
structure Copied where
  dst : U64
  offset : ℕ
  length : ℕ
  transferred : ℕ
  deriving DecidableEq

/-- The memory of the legacy reads, with the number of the transfers so far, the
length of the last one and the copies -/
structure Memory where
  kernel : Bytes
  user : U64 → Byte
  reads : ℕ
  transferred : ℕ
  copied : List Copied

/-- What the rest of the system answers: how the transfers end that the driver does not
refuse, the data of each of them, and how many bytes a copy misses -/
structure Answers where
  pages : SgTable
  hasKernelDma : Bool
  status : ℕ → Int
  data : ℕ → KernelRead → Bytes
  missed : ℕ → ℕ

/-- The user's memory with the first bytes of a buffer at an address -/
def store (user : U64 → Byte) (dst : U64) (b : Bytes) (length : ℕ) : U64 → Byte := fun a =>
  if (a - dst).toNat < length then b (a - dst).toNat else user a

theorem toNat_distance (a : U64) {i k : ℕ} (h : k + i < 2 ^ 64) :
    (a + BitVec.ofNat 64 k + BitVec.ofNat 64 i - a).toNat = k + i := by
  rw [BitVec.add_assoc, BitVec.add_comm a, BitVec.add_sub_cancel, BitVec.toNat_add, BitVec.toNat_ofNat,
    BitVec.toNat_ofNat]
  omega

theorem toNat_start_distance (a : U64) {i : ℕ} (h : i < 2 ^ 64) : (a + BitVec.ofNat 64 i - a).toNat = i := by
  rw [BitVec.add_comm a, BitVec.add_sub_cancel, BitVec.toNat_ofNat, Nat.mod_eq_of_lt h]

def Memory.receive (m : Memory) (data : Bytes) (length : ℕ) : Memory :=
  { m with kernel := copyIn m.kernel data length 0, reads := m.reads + 1, transferred := length }

def Memory.copyToUser (m : Memory) (dst : U64) (offset length : ℕ) : Memory :=
  { m with
    user := store m.user dst (fun i => m.kernel (offset + i)) length
    copied := m.copied ++ [⟨dst, offset, length, m.transferred⟩] }

def Answers.readKernelDmaBuffer (ans : Answers) (r : KernelRead) (m : Memory) : Except Fault (Int × Memory) :=
  if r.channel.toNat ≥ tpceDmaNumChannels then pure (-Errno.einval, m)
  else if r.bytesTotal > tpceDmaDriverBufferSize then pure (-Errno.einval, m)
  else do
    let chInfo ← channelInfo r.channel
    let err ← tpceValidateDmaParams (r.request chInfo).params (driverBuffer ans.pages)
    if err ≠ 0 then pure (-Errno.einval, m)
    else if ans.status m.reads ≠ 0 then pure (ans.status m.reads, m)
    else pure (0, m.receive (ans.data m.reads r) r.bytesTotal.toNat)

def Answers.copyToUser (ans : Answers) (dst : U64) (offset length : U32) (m : Memory) : ℕ × Memory :=
  let missed := min (ans.missed m.copied.length) length.toNat
  (missed, m.copyToUser dst offset.toNat (length.toNat - missed))

def Answers.ops (ans : Answers) : LegacyOps Memory where
  readKernelDmaBuffer := ans.readKernelDmaBuffer
  hasKernelDma := fun _ => ans.hasKernelDma
  copyToUser := ans.copyToUser

variable {ans : Answers} {m m' : Memory} {r : KernelRead}

theorem toNat_driverBufferSize : tpceDmaDriverBufferSize.toNat = 2 ^ 20 := rfl

theorem channel_cases {c : U8} (h : c.toNat < 3) : c = 0 ∨ c = 1 ∨ c = 2 := by
  have hc : c = BitVec.ofNat 8 c.toNat := (BitVec.ofNat_toNat 8 c ▸ (BitVec.setWidth_eq c).symm)
  have : c.toNat = 0 ∨ c.toNat = 1 ∨ c.toNat = 2 := by omega
  rcases this with h | h | h
  · exact .inl (hc.trans (congrArg _ h))
  · exact .inr (.inl (hc.trans (congrArg _ h)))
  · exact .inr (.inr (hc.trans (congrArg _ h)))

/-- What the validator says of a read, whose parameters are zero or within the bounds
otherwise -/
theorem validate_read {chInfo : TpceDmaChannelInfo} (hch : channelInfo r.channel = .ok chInfo)
    (hfits : r.bytesTotal.toNat ≤ 2 ^ 20) (sgt : SgTable) :
    ∃ res : U32, tpceValidateDmaParams (r.request chInfo).params (driverBuffer sgt) = .ok res.toNat ∧
      (res = 0 ↔ r.deviceAddr % chInfo.dataWidth = 0 ∧ r.bytesTotal % chInfo.dataWidth = 0 ∧
        max (r.request chInfo).params.readStride.toNat (r.request chInfo).params.writeStride.toNat ≤
          chInfo.maxStride.toNat ∧ (r.request chInfo).params.burstCount ≤ chInfo.maxBurst) := by
  have hbpd : bytesPerDescriptorBad (r.request chInfo).params (driverBuffer sgt) chInfo = .ok false := rfl
  have hinfo : channelInfo (r.request chInfo).params.channel = .ok chInfo := hch
  obtain ⟨res, hres, hzero⟩ := validate_of_info hinfo hbpd
  refine ⟨res, hres, hzero.trans ⟨?_, ?_⟩⟩
  · rintro ⟨hv, -⟩
    exact ⟨hv.deviceAligned, hv.totalAligned, hv.strides, hv.burst⟩
  · rintro ⟨hdevice, htotal, hstride, hburst⟩
    have hoffset : 0#32 ≤ 0x100000#32 := by decide
    have hsize : r.bytesTotal + 0#32 ≤ 0x100000#32 := by
      rw [BitVec.add_zero, BitVec.le_def]
      exact hfits
    have hinterval : ¬(0#8 > 0#8) := by decide
    exact ⟨⟨hch, hoffset, BitVec.zero_umod, hdevice, htotal, hsize, hbpd, hstride, .inl rfl, rfl, hburst⟩,
      fun hpos => absurd hpos hinterval⟩

theorem accepted_iff_validated (hchannel : r.channel.toNat < 3) (hfits : r.bytesTotal.toNat ≤ 2 ^ 20) (sgt : SgTable) :
    ∃ chInfo res, channelInfo r.channel = .ok chInfo ∧
      tpceValidateDmaParams (r.request chInfo).params (driverBuffer sgt) = .ok res ∧ (res = 0 ↔ Accepted r) := by
  obtain ⟨chInfo, hch⟩ := channelInfo_exists hchannel
  obtain ⟨res, hres, hzero⟩ := validate_read hch hfits sgt
  refine ⟨chInfo, res.toNat, hch, hres, ?_⟩
  have hnat : ((res.toNat : ℕ) : Int) = 0 ↔ res = 0 := by
    rw [Int.natCast_eq_zero]
    exact ⟨fun h => BitVec.eq_of_toNat_eq h, fun h => congrArg BitVec.toNat h⟩
  rw [hnat, hzero, accepted_iff, umod_eq_zero_iff, umod_eq_zero_iff, and_iff_right hchannel, and_iff_right hfits]
  rcases channel_cases hchannel with h | h | h
  · rw [h] at hch ⊢
    obtain rfl := Except.ok.inj (hch.symm.trans
      (show _ = Except.ok ⟨8#32, 262144#32, 0#32, 32#8, false, false⟩ from rfl))
    simp [KernelRead.request, dataWidth, BitVec.le_def]
  · rw [h] at hch ⊢
    obtain rfl := Except.ok.inj (hch.symm.trans
      (show _ = Except.ok ⟨2#32, 262144#32, 32768#32, 0#8, false, false⟩ from rfl))
    simp [KernelRead.request, dataWidth]
  · rw [h] at hch ⊢
    obtain rfl := Except.ok.inj (hch.symm.trans
      (show _ = Except.ok ⟨8#32, 262144#32, 0#32, 32#8, true, false⟩ from rfl))
    simp [KernelRead.request, dataWidth, BitVec.le_def]

theorem readKernelDmaBuffer_accepted (ans : Answers) (h : Accepted r) (m : Memory) : ans.readKernelDmaBuffer r m =
    if ans.status m.reads ≠ 0 then .ok (ans.status m.reads, m)
    else .ok (0, m.receive (ans.data m.reads r) r.bytesTotal.toNat) := by
  obtain ⟨chInfo, res, hch, hres, hzero⟩ := accepted_iff_validated h.channel h.fits ans.pages
  have hfits : ¬r.bytesTotal > tpceDmaDriverBufferSize := by
    rw [gt_iff_lt, BitVec.lt_def]
    exact Nat.not_lt.mpr h.fits
  have hchannel : ¬r.channel.toNat ≥ tpceDmaNumChannels := Nat.not_le.mpr h.channel
  rw [Answers.readKernelDmaBuffer, if_neg hchannel, if_neg hfits, hch, ok_bind, hres, ok_bind,
    if_neg (not_not.mpr (hzero.mpr h))]
  rfl

theorem readKernelDmaBuffer_refused (ans : Answers) (h : ¬Accepted r) (m : Memory) :
    ans.readKernelDmaBuffer r m = .ok (-Errno.einval, m) := by
  rw [Answers.readKernelDmaBuffer]
  split
  · rfl
  · rename_i hchannel
    split
    · rfl
    · rename_i hfits
      rw [gt_iff_lt, BitVec.lt_def, Nat.not_lt] at hfits
      obtain ⟨chInfo, res, hch, hres, hzero⟩ := accepted_iff_validated (Nat.not_le.mp hchannel) hfits ans.pages
      rw [hch, ok_bind, hres, ok_bind, if_pos (mt hzero.mp h)]
      rfl

theorem copy_exceeds_iff (offset length : U32) :
    (offset > tpceDmaDriverBufferSize ∨ length > tpceDmaDriverBufferSize - offset) ↔
      2 ^ 20 < offset.toNat + length.toNat := by
  have hsize : tpceDmaDriverBufferSize.toNat = 2 ^ 20 := rfl
  rw [gt_iff_lt, gt_iff_lt, BitVec.lt_def, BitVec.lt_def, hsize, BitVec.toNat_sub, hsize]
  omega

/-- What a transfer can do -/
theorem read_cases (ans : Answers) (r : KernelRead) (m : Memory) : ∃ out, ans.readKernelDmaBuffer r m = .ok out ∧
    ((out.1 ≠ 0 ∧ out.2 = m ∧ (Accepted r → ans.status m.reads ≠ 0)) ∨
      (Accepted r ∧ out = (0, m.receive (ans.data m.reads r) r.bytesTotal.toNat))) := by
  by_cases h : Accepted r
  · rw [readKernelDmaBuffer_accepted ans h]
    by_cases hstatus : ans.status m.reads = 0
    · exact ⟨_, if_neg (not_not.mpr hstatus), .inr ⟨h, rfl⟩⟩
    · exact ⟨_, if_pos hstatus, .inl ⟨hstatus, rfl, fun _ => hstatus⟩⟩
  · exact ⟨_, readKernelDmaBuffer_refused ans h m, .inl ⟨Errno.einval_ne, rfl, fun haccepted => absurd haccepted h⟩⟩

theorem copyKernelDmaToUser_eq {σ : Type} (ops : LegacyOps σ) (dst : U64) (offset length : U32) (s : σ) :
    copyKernelDmaToUser ops dst offset length s =
      if length = 0 then (0, s)
      else if ops.hasKernelDma s = false then (-Errno.enodev, s)
      else if 2 ^ 20 < offset.toNat + length.toNat then (-Errno.einval, s)
      else (if (ops.copyToUser dst offset length s).1 ≠ 0 then -Errno.efault else 0,
        (ops.copyToUser dst offset length s).2) := by
  rw [copyKernelDmaToUser]
  refine ite_congr rfl (fun _ => rfl) fun _ => ?_
  refine ite_congr (by simp only [Bool.not_eq_true']) (fun _ => rfl) fun _ => ?_
  exact ite_congr (propext (copy_exceeds_iff offset length)) (fun _ => rfl) fun _ => rfl

theorem Answers.copyKernelDmaToUser_eq (ans : Answers) (dst : U64) (offset length : U32) (m : Memory) :
    copyKernelDmaToUser ans.ops dst offset length m =
      if length = 0 then (0, m)
      else if ans.hasKernelDma = false then (-Errno.enodev, m)
      else if 2 ^ 20 < offset.toNat + length.toNat then (-Errno.einval, m)
      else (if (ans.copyToUser dst offset length m).1 ≠ 0 then -Errno.efault else 0,
        (ans.copyToUser dst offset length m).2) := LegacyMemory.copyKernelDmaToUser_eq ans.ops dst offset length m

/-- What a copy can do -/
theorem copy_cases (ans : Answers) (dst : U64) (offset length : U32) (m : Memory) :
    ∃ out, copyKernelDmaToUser ans.ops dst offset length m = out ∧
      ((length = 0 ∧ out = (0, m)) ∨
        (length ≠ 0 ∧ out.1 ≠ 0 ∧ out.2 = m ∧ (ans.hasKernelDma = true → 2 ^ 20 < offset.toNat + length.toNat)) ∨
        (length ≠ 0 ∧ offset.toNat + length.toNat ≤ 2 ^ 20 ∧ ∃ n ≤ length.toNat,
          out.2 = m.copyToUser dst offset.toNat n ∧ (out.1 = 0 ↔ n = length.toNat) ∧
            (ans.missed m.copied.length = 0 → n = length.toNat))) := by
  refine ⟨_, rfl, ?_⟩
  rw [ans.copyKernelDmaToUser_eq]
  split
  · rename_i hzero
    exact .inl ⟨hzero, rfl⟩
  rename_i hlength
  refine .inr ?_
  split
  · rename_i hnone
    exact .inl ⟨hlength, Errno.enodev_ne, rfl, fun hsome => absurd (hsome.symm.trans hnone) (by decide)⟩
  split
  · rename_i hexceeds
    exact .inl ⟨hlength, Errno.einval_ne, rfl, fun _ => hexceeds⟩
  · rename_i hfits
    refine .inr ⟨hlength, Nat.not_lt.mp hfits, _, Nat.sub_le _ _, rfl, ?_, fun hmissed => ?_⟩
    · change (if min (ans.missed m.copied.length) length.toNat ≠ 0 then -Errno.efault else 0) = 0 ↔ _
      split
      · exact iff_of_false Errno.efault_ne (by omega)
      · exact iff_of_true rfl (by omega)
    · rw [hmissed, Nat.zero_min, Nat.sub_zero]

end TpceDrv.LegacyMemory
