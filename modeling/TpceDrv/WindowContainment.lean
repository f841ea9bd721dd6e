import TpceDrv.ActiveDescriptors
import TpceDrv.RequestSteps
import TpceDrv.RoundTrip
import TpceDrv.Library.Windows

namespace TpceDrv.WindowContainment

open Descriptor DmaParams DmaInfo Mapping PageTable PageTableMap Device Reach Planning Translation ChannelControl
open ChannelSteps Requests Driver RequestSteps ActiveDescriptors RoundTrip
open Library Library.Cuts Library.Windows

variable {env : InitEnv} {dev dev' : TpceDev} {c : Channel} {req : TpceDmaRequest} {m : TpceDmaMapInfo}

/-- The host interval lies between two multiples of `ALTERA_ADDR_PAGE_SIZE_BYTES`. -/
def InWindow (p : U64 × ℕ) : Prop := Within alteraAddrPageSizeBytes p.1.toNat p.2

/-- An interval in one window. An address that leads to its start leads to
every byte of it. -/
structure Contained (p : U64 × ℕ) : Prop where
  window : InWindow p
  bytes : ∀ writes a, decode writes a = some p.1 → ∀ i < p.2,
    decode writes (a + BitVec.ofNat 64 i) = some (p.1 + BitVec.ofNat 64 i)

/-- For a request with its own descriptors each of them, with its offset in the
window, fits. Otherwise every window that starts inside a stretch of memory of
the request starts a whole number of pieces after it. -/
def FitsWindows (env : InitEnv) (req : TpceDmaRequest) (m : TpceDmaMapInfo) : Prop :=
  if req.descriptors ≠ 0 then
    ∀ i < (req.descriptorsSize / descriptorSize).toNat,
      (hostAddr req.params.direction (env.userDesc i)).toNat % alteraAddrPageSizeBytes +
        (env.userDesc i).transferLength.toNat ≤ alteraAddrPageSizeBytes
  else
    ∀ s ∈ requestReach req.params m, ∀ j, s.1.toNat < j * alteraAddrPageSizeBytes →
      j * alteraAddrPageSizeBytes < s.1.toNat + s.2 →
        pieceLength req.params ∣ j * alteraAddrPageSizeBytes - s.1.toNat

theorem windowSize_pos : 0 < alteraAddrPageSizeBytes := by decide

/-- The pieces of one stretch -/
theorem inWindow_stretch {L : ℕ} (hL : 0 < L) (w : U64) (n : ℕ) :
    (∀ k, k * L < n → InWindow ((k * L) +ᵥ w, min L (n - k * L))) ↔
      ∀ j, w.toNat < j * alteraAddrPageSizeBytes → j * alteraAddrPageSizeBytes < w.toNat + n →
        L ∣ j * alteraAddrPageSizeBytes - w.toNat := by
  have hwrap : alteraAddrPageSizeBytes ∣ 2 ^ 64 := by decide
  rw [← within_pieces hL]
  refine forall₂_congr fun k _ => ?_
  simp only [InWindow]
  rw [toNat_vadd]
  exact within_mod windowSize_pos hwrap _ _

theorem toNat_pageOf (addr : U64) : (pageOf addr).toNat = 2 ^ 18 * (addr.toNat / 2 ^ 18) := by
  have hshift : pageOf addr = (addr >>> 18) <<< 18 := by
    apply BitVec.eq_of_getLsbD_eq
    intro i hi
    simp only [pageOf, BitVec.getLsbD_and, getLsbD_mask64 hi, BitVec.getLsbD_shiftLeft,
      BitVec.getLsbD_ushiftRight, hi]
    by_cases h18 : 18 ≤ i
    · simp [h18, show ¬i < 18 by omega, show 18 + (i - 18) = i by omega]
    · simp [h18, show i < 18 by omega]
  have hlt := addr.isLt
  rw [hshift, BitVec.toNat_shiftLeft, BitVec.toNat_ushiftRight, Nat.shiftRight_eq_div_pow,
    Nat.shiftLeft_eq, Nat.mod_eq_of_lt (by omega), Nat.mul_comm]

theorem toNat_page_or_offset (page : U64) {offset : U64} (h : offset.toNat < 2 ^ 18) :
    (pageOf page ||| offset).toNat = 2 ^ 18 * (page.toNat / 2 ^ 18) + offset.toNat := by
  rw [BitVec.toNat_or, toNat_pageOf, ← Nat.two_pow_add_eq_or_of_lt h]

theorem decode_byte {writes : MmioWrites} {a b : U64} {n i : ℕ} (h : decode writes a = some b)
    (hwin : Within alteraAddrPageSizeBytes b.toNat n) (hi : i < n) :
    decode writes (a + BitVec.ofNat 64 i) = some (b + BitVec.ofNat 64 i) := by
  have hfit : b.toNat % 2 ^ 18 + n ≤ 2 ^ 18 := (within_iff windowSize_pos b.toNat n).mp hwin
  have hoffset : ∀ x : U64, (x &&& ~~~alteraAddrTranslationMask64).toNat < 2 ^ 18 := fun x => by
    rw [toNat_pageOffset]
    exact Nat.mod_lt _ (by decide)
  simp only [decode] at h ⊢
  split at h
  · rename_i lo hi' hlo hhi
    have hb := congrArg BitVec.toNat (Option.some.inj h)
    rw [toNat_page_or_offset _ (hoffset a), toNat_pageOffset] at hb
    have hlta := a.isLt
    have hltb := b.isLt
    have hsmall : (BitVec.ofNat 64 i).toNat = i := by
      rw [BitVec.toNat_ofNat]
      exact Nat.mod_eq_of_lt (by omega)
    have hadda : (a + BitVec.ofNat 64 i).toNat = a.toNat + i := by
      rw [BitVec.toNat_add, hsmall]
      exact Nat.mod_eq_of_lt (by omega)
    have haddb : (b + BitVec.ofNat 64 i).toNat = b.toNat + i := by
      rw [BitVec.toNat_add, hsmall]
      exact Nat.mod_eq_of_lt (by omega)
    have hslot : ((a + BitVec.ofNat 64 i) >>> alteraAddrPageSize).toNat =
        (a >>> alteraAddrPageSize).toNat := by
      rw [BitVec.toNat_ushiftRight, BitVec.toNat_ushiftRight, hadda, Nat.shiftRight_eq_div_pow,
        Nat.shiftRight_eq_div_pow]
      change (a.toNat + i) / 2 ^ 18 = a.toNat / 2 ^ 18
      omega
    rw [hslot, hlo, hhi]
    refine congrArg some (BitVec.eq_of_toNat_eq ?_)
    rw [toNat_page_or_offset _ (hoffset _), toNat_pageOffset, hadda, haddb]
    omega
  · cases h

theorem contained_iff {p : U64 × ℕ} : Contained p ↔ InWindow p :=
  ⟨Contained.window, fun h => ⟨h, fun _ _ ha _ hi => decode_byte ha h hi⟩⟩

/-- The active descriptors of an accepted request stay in their windows exactly
when the request fits. -/
theorem windows_iff {ret : ℤ} (hdir : req.params.direction = tpceDmaToDevice ∨
      req.params.direction = tpceDmaFromDevice) (hload : xaLoad dev req.id = some m)
    (hinit : initDmaInfo env dev c req = .ok (ret, dev')) (haccepted : 0 ≤ ret) :
    (∀ desc ∈ (dev'.dmaInfo c).active, Contained (hostInterval req.params.direction desc)) ↔
      FitsWindows env req m := by
  simp only [contained_iff]
  apply (forall_active_iff hdir hload hinit haccepted fun a l _ => InWindow (a, l)).trans
  simp only [ForDescriptors, FitsWindows]
  split
  · exact forall₂_congr fun i _ => within_iff windowSize_pos _ _
  · exact forall₂_congr fun s _ => inWindow_stretch (pieceLength_pos req.params) s.1 s.2

def defaultRequest (id total : U32) : TpceDmaRequest where
  id := id
  params := ⟨0, 0, total, 0, 0, 0, 0, tpceDmaModeDefault, tpceDmaFromDevice, 0, 0⟩
  descriptors := 0
  descriptorsSize := 0
  descriptorsType := 0

/-- The whole driver buffer, which starts on a window -/
theorem windows_driver_buffer : ∃ dev',
    initDmaInfo .granted freshDevice 0 (defaultRequest 1 0x100000) = .ok (0, dev') ∧
      ∀ desc ∈ (dev'.dmaInfo 0).active, Contained (hostInterval tpceDmaFromDevice desc) := by
  have hok : (initializedAfter [] .granted 0 (defaultRequest 1 0x100000) none).map (·.2.1) = some 0 := by
    decide +kernel
  obtain ⟨⟨err, ret, descs⟩, hafter, rfl⟩ := Option.map_eq_some_iff.mp hok
  obtain ⟨dev, dev', hrun, -, hinit, -⟩ := exists_of_initializedAfter hafter
  obtain rfl : freshDevice = dev := Option.some.inj hrun
  refine ⟨dev', hinit, (windows_iff (m := driverBuffer ⟨.last [⟨0x8000000#64, 0x100000#32, 0⟩], 1⟩)
    (.inr rfl) rfl hinit (le_refl 0)).mpr ?_⟩
  have hreach : requestReach (defaultRequest 1 0x100000).params
      (driverBuffer ⟨.last [⟨0x8000000#64, 0x100000#32, 0⟩], 1⟩) = [(0x8000000#64, 0x100000)] := by
    decide +kernel
  have hlength : pieceLength (defaultRequest 1 0x100000).params = alteraAddrPageSizeBytes := by decide
  simp only [FitsWindows]
  rw [if_neg (by decide), hreach, hlength]
  intro s hs j hlo hhi
  obtain rfl := List.mem_singleton.mp hs
  have hstart : (0x8000000#64).toNat = 512 * alteraAddrPageSizeBytes := by decide
  rw [hstart]
  exact Nat.dvd_sub (Nat.dvd_mul_left _ _) (Nat.dvd_mul_left _ _)

def straddlingRange : LockEnv where
  kvzallocOk := true
  pagesPinned := 2
  sgAlloc := 0
  dmaMap := 0
  sgt := ⟨.last [⟨0x3f000#64, 0x2000#32, 0⟩], 1⟩
  rangesAllocOk := true
  copyOk := true
  xaAllocOk := true

def lockStraddling : List Op :=
  [.openFile, .lockBuffer 0 straddlingRange ⟨0x10000#64, 0x2000, 0, 0, tpceDmaFromDevice⟩]

/-- Two pages on both sides of a window's end come as one range and as one
descriptor. -/
theorem straddling_range_leaves_window :
    ¬∀ (env : InitEnv) (dev dev' : TpceDev) (c : Channel) (req : TpceDmaRequest) (fileCtx : Option ℕ)
      (ret : ℤ), validateDmaRequest dev req fileCtx = 0 → initDmaInfo env dev c req = .ok (ret, dev') →
        0 ≤ ret → ∀ desc ∈ (dev'.dmaInfo c).active, Contained (hostInterval req.params.direction desc) := by
  intro h
  have hafter : initializedAfter lockStraddling .granted 0 (defaultRequest 2 0x2000) (some 0) =
      some (0, 0, [(0x3f000#64, 0x2000, 0)]) := by decide +kernel
  obtain ⟨dev, dev', -, hvalid, hinit, hactive⟩ := exists_of_initializedAfter hafter
  have hall := h .granted dev dev' 0 (defaultRequest 2 0x2000) (some 0) 0 hvalid hinit (le_refl 0)
  obtain ⟨desc, hdesc, heq⟩ := List.mem_map.mp (hactive ▸ List.mem_singleton_self _)
  obtain ⟨haddr, hrest⟩ := Prod.mk.inj heq
  have hwindow := (hall desc hdesc).window
  simp only [hostInterval] at hwindow
  rw [haddr, (Prod.mk.inj hrest).1] at hwindow
  exact hwindow 1 (by decide)

end TpceDrv.WindowContainment
