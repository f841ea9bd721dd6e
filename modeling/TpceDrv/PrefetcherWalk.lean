import Mathlib.Data.List.GetD
import Mathlib.Data.Nat.Log
import TpceDrv.DescriptorBuffers
import TpceDrv.FixedGeneration
import TpceDrv.Library.Walks
import TpceDrv.SlotFrames

namespace TpceDrv.PrefetcherWalk

open Descriptor DmaParams DmaInfo Mapping PageTable PageTableMap Device Translation Generation Library
open ChannelControl ChannelSteps SlotFrames Requests Driver RequestSteps DescriptorBuffers
open FixedGeneration MappedRanges

variable {env : InitEnv} {dev dev' : TpceDev} {c : Channel} {req : TpceDmaRequest}
variable {info : TpceDmaInfo} {table table' : AlteraPciePageTable} {slot : Fin 16} {i j n : ℕ}

/-- The bus address that the core accesses for an Avalon address -/
def decodeAddr (table : AlteraPciePageTable) (addr : U64) : Option U64 :=
  let slot := (addr >>> alteraAddrPageSize).toNat
  if h : slot < 16 then some (table.pages ⟨slot, h⟩ + (addr &&& ~~~alteraAddrTranslationMask64)) else none

def fetch (info : TpceDmaInfo) (busAddr : U64) : Option TpceDmaDescriptor :=
  let offset := (busAddr - info.descBusAddr).toNat
  if offset % 64 = 0 then info.descDma[offset / 64]? else none

def readNode (table : AlteraPciePageTable) (info : TpceDmaInfo) (addr : U64) :
    Option (U64 × TpceDmaDescriptor) :=
  (decodeAddr table addr).bind fun busAddr => (fetch info busAddr).map fun desc => (busAddr, desc)

def nextDescPtr (node : U64 × TpceDmaDescriptor) : U64 :=
  combine node.2.nextDescPtrHigh node.2.nextDescPtrLow

/-- The descriptors that the prefetcher fetches from `desc_bus_addr_translated`
on, with their bus addresses -/
def fetched (table : AlteraPciePageTable) (info : TpceDmaInfo) : ℕ → Option (U64 × TpceDmaDescriptor) :=
  Walks.visit (readNode table info) nextDescPtr (info.descBusAddrTranslated.setWidth 64)

def nodeAddr (info : TpceDmaInfo) (i : ℕ) : U64 := info.descBusAddr + BitVec.ofNat 64 (64 * i)

def OwnedByHw (desc : TpceDmaDescriptor) : Prop := desc.control &&& ownByHwSetMask ≠ 0

/-- The prefetcher goes through `k` active descriptors and then ends at the
terminating one, or begins again. -/
structure Walked (table : AlteraPciePageTable) (info : TpceDmaInfo) (k : ℕ) : Prop where
  active : ∀ i < k, ∃ desc, fetched table info i = some (nodeAddr info i, desc) ∧ OwnedByHw desc
  last : if info.params.transferMode = tpceDmaModeStream then fetched table info k = fetched table info 0
    else fetched table info k = some (nodeAddr info k, default)

/-- The descriptors of the buffer that belong to the request -/
def numDescriptors (info : TpceDmaInfo) : ℕ := (info.descSize / descriptorSize).toNat

/-- The Avalon address that `build_descriptor_links` computes for a descriptor -/
def linkTo (info : TpceDmaInfo) (i : ℕ) : U64 :=
  (info.descBusAddrTranslated + descriptorSize * BitVec.ofNat 32 i).setWidth 64

def node (info : TpceDmaInfo) (i : ℕ) : U64 × TpceDmaDescriptor :=
  (nodeAddr info i, (buildDescriptorLinks info).descDma.getD i default)

theorem nextDescPtr_linkDesc (addr : U64) (desc : TpceDmaDescriptor) (next : U32) :
    nextDescPtr (addr, linkDesc desc next) = next.setWidth 64 :=
  combine_split (next.setWidth 64)

theorem ownedByHw_linkDesc (desc : TpceDmaDescriptor) (next : U32) : OwnedByHw (linkDesc desc next) := by
  intro h
  have hbit := congrArg (BitVec.getLsbD · 30) h
  simp [linkDesc, orControl, ownByHwSetMask] at hbit

theorem node_link (hi : i + 1 < numDescriptors info) (hlen : numDescriptors info ≤ info.descDma.length) :
    ∃ desc, node info i = (nodeAddr info i, linkDesc desc
      (info.descBusAddrTranslated + descriptorSize * BitVec.ofNat 32 (i + 1))) := by
  have hlt : i < info.descDma.length := by omega
  refine ⟨info.descDma[i], ?_⟩
  simp only [numDescriptors] at hi
  simp only [node, buildDescriptorLinks]
  rw [List.getD_eq_getElem _ _ (by rw [List.length_mapIdx]; exact hlt), List.getElem_mapIdx, if_pos hi]

theorem node_last (hi : i + 1 = numDescriptors info) (hlen : numDescriptors info ≤ info.descDma.length) :
    ∃ desc, node info i = (nodeAddr info i,
      if info.params.transferMode = tpceDmaModeStream then linkDesc desc info.descBusAddrTranslated
      else default) := by
  have hlt : i < info.descDma.length := by omega
  refine ⟨info.descDma[i], ?_⟩
  simp only [numDescriptors] at hi
  simp only [node, buildDescriptorLinks]
  rw [List.getD_eq_getElem _ _ (by rw [List.length_mapIdx]; exact hlt), List.getElem_mapIdx, if_neg (by omega), if_pos hi]

theorem fetch_nodeAddr (info : TpceDmaInfo) (hi : 64 * i < 2 ^ 64) : fetch info (nodeAddr info i) = info.descDma[i]? := by
  have hoffset : (nodeAddr info i - info.descBusAddr).toNat = 64 * i := by
    rw [nodeAddr, BitVec.add_comm, BitVec.add_sub_cancel, BitVec.toNat_ofNat, Nat.mod_eq_of_lt hi]
  simp only [fetch]
  rw [hoffset, if_pos (Nat.mul_mod_right 64 i), Nat.mul_div_cancel_left i (by decide)]

/-- The bounds on a buffer that holds the descriptors of the request -/
structure Holds (info : TpceDmaInfo) : Prop where
  some : 0 < numDescriptors info
  room : numDescriptors info ≤ info.descDma.length
  small : 64 * numDescriptors info < 2 ^ 31

theorem readNode_iff (h : Holds info) (hi : i < numDescriptors info) (addr : U64) :
    readNode table (buildDescriptorLinks info) addr = some (node info i) ↔
      decodeAddr table addr = some (nodeAddr info i) := by
  have hlen : i < (buildDescriptorLinks info).descDma.length := by
    rw [buildDescriptorLinks, List.length_mapIdx]
    exact Nat.lt_of_lt_of_le hi h.room
  have hsmall := h.small
  have hfetch : fetch (buildDescriptorLinks info) (nodeAddr info i) = some (node info i).2 := by
    have hnode := fetch_nodeAddr (buildDescriptorLinks info) (i := i) (by omega)
    rw [List.getElem?_eq_getElem hlen] at hnode
    rw [node, List.getD_eq_getElem _ _ hlen]
    exact hnode
  simp only [readNode]
  cases hdecode : decodeAddr table addr with
  | none => exact iff_of_false (Option.some_ne_none _).symm (Option.some_ne_none _).symm
  | some busAddr =>
      rw [Option.bind_some]
      constructor
      · intro hread
        obtain ⟨desc, -, heq⟩ := Option.map_eq_some_iff.mp hread
        exact congrArg some (congrArg Prod.fst heq)
      · intro haddr
        obtain rfl := Option.some.inj haddr
        rw [hfetch]
        rfl

theorem fetch_of_fetched {b : U64 × TpceDmaDescriptor} (h : fetched table info i = some b) :
    fetch info b.1 = some b.2 := by
  have hread : ∃ addr, readNode table info addr = some b := by
    cases i with
    | zero => exact ⟨_, h⟩
    | succ i =>
        obtain ⟨b', -, hnext⟩ := Option.bind_eq_some_iff.mp h
        exact ⟨_, hnext⟩
  obtain ⟨addr, hread⟩ := hread
  obtain ⟨busAddr, -, hfetch⟩ := Option.bind_eq_some_iff.mp hread
  obtain ⟨desc, hdesc, rfl⟩ := Option.map_eq_some_iff.mp hfetch
  exact hdesc

theorem linkTo_zero (info : TpceDmaInfo) : linkTo info 0 = info.descBusAddrTranslated.setWidth 64 := by
  have hzero : descriptorSize * BitVec.ofNat 32 0 = 0#32 := by decide
  rw [linkTo, hzero, BitVec.add_zero]

/-- The descriptors are fetched one after the other exactly when all their
addresses decode. -/
theorem fetched_iff (h : Holds info) :
    (∀ i < numDescriptors info, fetched table (buildDescriptorLinks info) i = some (node info i)) ↔
      ∀ i < numDescriptors info, decodeAddr table (linkTo info i) = some (nodeAddr info i) := by
  have hnext : ∀ i, i + 1 < numDescriptors info → nextDescPtr (node info i) = linkTo info (i + 1) := by
    intro i hi
    obtain ⟨desc, hnode⟩ := node_link hi h.room
    rw [hnode, nextDescPtr_linkDesc]
    rfl
  have hvisits := Walks.visits_iff (readNode table (buildDescriptorLinks info)) hnext
  rw [linkTo_zero] at hvisits
  refine hvisits.trans (forall₂_congr fun i hi => ?_)
  exact readNode_iff h hi (linkTo info i)

/-- The number of active descriptors of a request with `n` in all -/
def activeOf (info : TpceDmaInfo) : ℕ :=
  if info.params.transferMode = tpceDmaModeStream then numDescriptors info else numDescriptors info - 1

theorem walked_iff_fetched (h : Holds info) :
    Walked table (buildDescriptorLinks info) (activeOf info) ↔
      ∀ i < numDescriptors info, fetched table (buildDescriptorLinks info) i = some (node info i) := by
  have hpos := h.some
  constructor
  · intro hwalk i hi
    have hfetched : ∃ desc, fetched table (buildDescriptorLinks info) i = some (nodeAddr info i, desc) := by
      by_cases hactive : i < activeOf info
      · obtain ⟨desc, hdesc, -⟩ := hwalk.active i hactive
        exact ⟨desc, hdesc⟩
      · have hlast := hwalk.last
        simp only [activeOf] at hactive hlast
        split at hlast
        · rename_i hmode
          rw [if_pos (show info.params.transferMode = tpceDmaModeStream from hmode)] at hactive
          exact absurd hi hactive
        · rename_i hmode
          rw [if_neg (show ¬info.params.transferMode = tpceDmaModeStream from hmode)] at hactive hlast
          obtain rfl : i = numDescriptors info - 1 := by omega
          exact ⟨default, hlast⟩
    obtain ⟨desc, hdesc⟩ := hfetched
    have hfetch := fetch_of_fetched hdesc
    have hsmall := h.small
    have hlt : i < (buildDescriptorLinks info).descDma.length := by
      rw [buildDescriptorLinks, List.length_mapIdx]
      exact Nat.lt_of_lt_of_le hi h.room
    have haddr := fetch_nodeAddr (buildDescriptorLinks info) (i := i) (by omega)
    have hnode : some desc = some (node info i).2 := by
      rw [node, List.getD_eq_getElem _ _ hlt, ← List.getElem?_eq_getElem hlt, ← haddr]
      exact hfetch.symm
    rw [hdesc, Option.some.inj hnode]
    rfl
  · intro hfetched
    by_cases hmode : info.params.transferMode = tpceDmaModeStream
    · have hactive : activeOf info = numDescriptors info := if_pos hmode
      rw [hactive]
      refine ⟨fun i hi => ⟨(node info i).2, hfetched i hi, ?_⟩, ?_⟩
      · by_cases hlast : i + 1 < numDescriptors info
        · obtain ⟨desc, hnode⟩ := node_link hlast h.room
          rw [hnode]
          exact ownedByHw_linkDesc _ _
        · obtain ⟨desc, hnode⟩ := node_last (show i + 1 = numDescriptors info by omega) h.room
          rw [hnode, if_pos hmode]
          exact ownedByHw_linkDesc _ _
      · rw [if_pos (show (buildDescriptorLinks info).params.transferMode = tpceDmaModeStream from hmode)]
        obtain ⟨last, hlast⟩ : ∃ last, last + 1 = numDescriptors info := ⟨numDescriptors info - 1, by omega⟩
        obtain ⟨desc, hnode⟩ := node_last hlast h.room
        have hfetch := hfetched last (by omega)
        rw [hnode, if_pos hmode] at hfetch
        rw [← hlast]
        refine (Walks.visit_succ hfetch).trans ?_
        rw [nextDescPtr_linkDesc]
        rfl
    · have hactive : activeOf info = numDescriptors info - 1 := if_neg hmode
      rw [hactive]
      refine ⟨fun i hi => ⟨(node info i).2, hfetched i (by omega), ?_⟩, ?_⟩
      · obtain ⟨desc, hnode⟩ := node_link (show i + 1 < numDescriptors info by omega) h.room
        rw [hnode]
        exact ownedByHw_linkDesc _ _
      · rw [if_neg (show ¬(buildDescriptorLinks info).params.transferMode = tpceDmaModeStream from hmode)]
        obtain ⟨desc, hnode⟩ := node_last (show numDescriptors info - 1 + 1 = numDescriptors info by omega) h.room
        rw [hfetched (numDescriptors info - 1) (by omega), hnode, if_neg hmode]
        rfl

/-- The slot that the link translation gives to the buffer of a channel -/
structure Linked (table : AlteraPciePageTable) (slot : Fin 16) (info : TpceDmaInfo) : Prop where
  page : table.pages slot = pageOf info.descBusAddr
  translated : info.descBusAddrTranslated.toNat = slot * 2 ^ 18 + info.descBusAddr.toNat % 2 ^ 18

/-- The slot `j` places behind holds the page `j` pages behind. -/
def InPlace (table : AlteraPciePageTable) (slot : Fin 16) (busAddr : U64) (j : ℕ) : Prop :=
  ∃ i : Fin 16, i.val = slot + j ∧ table.pages i = pageOf busAddr + BitVec.ofNat 64 (j * 2 ^ 18)

theorem linkTo_toNat (hl : Linked table slot info) (hi : 64 * i < 2 ^ 31) :
    (linkTo info i).toNat = slot * 2 ^ 18 + (info.descBusAddr.toNat % 2 ^ 18 + 64 * i) := by
  have hslot := slot.isLt
  have htranslated := hl.translated
  have hmod := Nat.mod_lt info.descBusAddr.toNat (Nat.two_pow_pos 18)
  have hmul : (descriptorSize * BitVec.ofNat 32 i).toNat = 64 * i := by
    have hsize : descriptorSize.toNat = 64 := rfl
    rw [BitVec.toNat_mul, BitVec.toNat_ofNat, hsize, Nat.mod_eq_of_lt (show i < 2 ^ 32 by omega)]
    exact Nat.mod_eq_of_lt (by omega)
  rw [linkTo, BitVec.toNat_setWidth, BitVec.toNat_add, hmul]
  omega

theorem nodeAddr_eq (info : TpceDmaInfo) (i : ℕ) : nodeAddr info i =
    pageOf info.descBusAddr + BitVec.ofNat 64 (info.descBusAddr.toNat % 2 ^ 18 + 64 * i) := by
  have hcut : pageOf info.descBusAddr + BitVec.ofNat 64 (info.descBusAddr.toNat % 2 ^ 18) = info.descBusAddr := by
    have hoffset : BitVec.ofNat 64 (info.descBusAddr.toNat % 2 ^ 18) =
        info.descBusAddr &&& ~~~alteraAddrTranslationMask64 := by
      rw [← toNat_pageOffset, BitVec.ofNat_toNat, BitVec.setWidth_eq]
    rw [hoffset, pageOf]
    exact BitMask.and_add_and_not _ _
  rw [nodeAddr, BitVec.ofNat_add, ← BitVec.add_assoc, hcut]

theorem decodeAddr_linkTo (hl : Linked table slot info) (hi : 64 * i < 2 ^ 31) :
    decodeAddr table (linkTo info i) = some (nodeAddr info i) ↔
      InPlace table slot info.descBusAddr ((info.descBusAddr.toNat % 2 ^ 18 + 64 * i) / 2 ^ 18) := by
  have haddr := linkTo_toNat hl hi
  rw [nodeAddr_eq]
  generalize info.descBusAddr.toNat % 2 ^ 18 + 64 * i = offset at haddr ⊢
  have hslot : (linkTo info i >>> alteraAddrPageSize).toNat = slot + offset / 2 ^ 18 := by
    rw [BitVec.toNat_ushiftRight, haddr, Nat.shiftRight_eq_div_pow, show alteraAddrPageSize = 18 from rfl]
    omega
  have hrest : linkTo info i &&& ~~~alteraAddrTranslationMask64 = BitVec.ofNat 64 (offset % 2 ^ 18) := by
    apply BitVec.eq_of_toNat_eq
    rw [toNat_pageOffset, haddr, BitVec.toNat_ofNat]
    omega
  have hsplit : BitVec.ofNat 64 offset =
      BitVec.ofNat 64 (offset / 2 ^ 18 * 2 ^ 18) + BitVec.ofNat 64 (offset % 2 ^ 18) := by
    rw [← BitVec.ofNat_add, Nat.div_add_mod']
  simp only [decodeAddr, InPlace]
  split
  · rename_i hlt
    rw [hrest, hsplit, ← BitVec.add_assoc, Option.some_inj, BitVec.add_left_inj]
    constructor
    · intro hpage
      exact ⟨_, hslot, hpage⟩
    · rintro ⟨k, hk, hpage⟩
      obtain rfl : k = ⟨_, hlt⟩ := Fin.ext (hk.trans hslot.symm)
      exact hpage
  · rename_i hge
    refine iff_of_false (Option.some_ne_none _).symm ?_
    rintro ⟨k, hk, -⟩
    have hklt := k.isLt
    omega

/-- A block of `capacity` bytes at a multiple of a power of two that is not
smaller does not cross a page if it fits in one, and else begins a page. -/
theorem offset_of_aligned {capacity addr : ℕ} (h : 2 ^ Nat.clog 2 capacity ∣ addr) :
    addr % 2 ^ 18 + capacity ≤ 2 ^ 18 ∨ (2 ^ 18 < capacity ∧ addr % 2 ^ 18 = 0) := by
  have hle : capacity ≤ 2 ^ Nat.clog 2 capacity := Nat.le_pow_clog (by decide) capacity
  by_cases hsmall : Nat.clog 2 capacity ≤ 18
  · left
    have hpage := Nat.pow_dvd_pow 2 hsmall
    obtain ⟨q, hq⟩ := hpage
    have hmod : 2 ^ Nat.clog 2 capacity ∣ addr % 2 ^ 18 := (Nat.dvd_mod_iff (Dvd.intro q hq.symm)).mpr h
    obtain ⟨r, hr⟩ := hmod
    have hlt := Nat.mod_lt addr (Nat.two_pow_pos 18)
    have hrq : r < q := by
      rw [hr, hq] at hlt
      exact Nat.lt_of_mul_lt_mul_left hlt
    have hstep := Nat.mul_le_mul_left (2 ^ Nat.clog 2 capacity) hrq
    rw [Nat.mul_succ] at hstep
    omega
  · right
    refine ⟨?_, Nat.mod_eq_zero_of_dvd ((Nat.pow_dvd_pow 2 (by omega)).trans h)⟩
    by_contra hcap
    exact hsmall (Nat.clog_le_of_le_pow (Nat.not_lt.mp hcap))

/-- The allocator of coherent memory places a block at a multiple of the
smallest power of two that is not smaller. -/
def PowerAligned (size : ℕ) (addr : U64) : Prop := 2 ^ Nat.clog 2 size ∣ addr.toNat

theorem powerAligned_zero : PowerAligned 0 0 := by
  rw [PowerAligned, Nat.clog_zero_right]
  exact Nat.one_dvd _

theorem inPlace_zero (hl : Linked table slot info) : InPlace table slot info.descBusAddr 0 := by
  refine ⟨slot, rfl, ?_⟩
  rw [hl.page, Nat.zero_mul]
  exact (BitVec.add_zero _).symm

/-- A channel whose descriptors lie in a buffer of the allocator -/
structure Ready (params : TpceDmaTransferParams) (info : TpceDmaInfo) : Prop where
  buffered : Buffered PowerAligned info
  sized : Sized params info
  params : info.params = params
  active : 0 < info.descActive.toNat

theorem Ready.sizes {params : TpceDmaTransferParams} (h : Ready params info) :
    Holds info ∧ info.descSize.toNat = 64 * numDescriptors info ∧
      activeOf info = (info.descActive / descriptorSize).toNat := by
  have hpos := h.active
  have hmod := h.sized.active
  have hsize := h.sized.size
  have hfits := BitVec.le_def.mp h.sized.fits
  have hbound := h.buffered.bounded
  have hdma := h.buffered.descDma
  have hnum : numDescriptors info = info.descSize.toNat / 64 := toNat_div_descriptorSize info.descSize
  rw [toNat_div_descriptorSize, activeOf, h.params, hnum]
  simp only [tpceDmaHasTerminatingDescriptor, ne_eq, decide_not, Bool.not_eq_eq_eq_not, Bool.not_true,
    decide_eq_false_iff_not] at hsize
  split
  · rename_i hmode
    rw [if_neg (not_not.mpr hmode)] at hsize
    exact ⟨⟨by omega, by omega, by omega⟩, by omega, by omega⟩
  · rename_i hmode
    rw [if_pos hmode] at hsize
    exact ⟨⟨by omega, by omega, by omega⟩, by omega, by omega⟩

theorem Ready.walked_iff {params : TpceDmaTransferParams} (h : Ready params info) (hl : Linked table slot info) :
    Walked table (buildDescriptorLinks info) (info.descActive / descriptorSize).toNat ↔
      ∀ j, 0 < j → j * 2 ^ 18 < info.descSize.toNat → InPlace table slot info.descBusAddr j := by
  obtain ⟨hholds, hsize, hactive⟩ := h.sizes
  have hsmall := hholds.small
  have hfits := BitVec.le_def.mp h.sized.fits
  have hdecode : Walked table (buildDescriptorLinks info) (activeOf info) ↔ ∀ i < numDescriptors info,
      InPlace table slot info.descBusAddr ((info.descBusAddr.toNat % 2 ^ 18 + 64 * i) / 2 ^ 18) := by
    rw [walked_iff_fetched hholds, fetched_iff hholds]
    exact forall₂_congr fun i hi => decodeAddr_linkTo hl (by omega)
  rw [← hactive, hdecode]
  rcases offset_of_aligned h.buffered.address with hone | ⟨-, hzero⟩
  · -- The buffer lies in one page.
    refine iff_of_true (fun i hi => ?_) fun j hj hlt => by omega
    rw [Nat.div_eq_of_lt (by omega)]
    exact inPlace_zero hl
  · rw [hzero]
    constructor
    · intro hplaces j hj hlt
      have hquot : (0 + 64 * (j * 4096)) / 2 ^ 18 = j := by omega
      have hin : 64 * (j * 4096) < 64 * numDescriptors info := by
        rw [← hsize, ← Nat.mul_assoc, Nat.mul_right_comm, Nat.mul_comm]
        exact hlt
      have hin := Nat.lt_of_mul_lt_mul_left hin
      have hplace := hplaces (j * 4096) hin
      rw [hquot] at hplace
      exact hplace
    · intro hplaces i hi
      by_cases hfirst : (0 + 64 * i) / 2 ^ 18 = 0
      · rw [hfirst]
        exact inPlace_zero hl
      · exact hplaces _ (Nat.pos_of_ne_zero hfirst) (by omega)

theorem linked_of_linkAddr {info' : TpceDmaInfo}
    (h : translateDescriptorLinkAddr table info = (0, table', info')) :
    ∃ slot : Fin 16, (slot.val : ℤ) = findFirstZeroU16 table.usedMask ∧ Linked table' slot info' ∧
      slots table' slot = some (pageOf info.descBusAddr, info.params.channel) ∧
      (∀ i, i ≠ slot → table'.pages i = table.pages i) ∧
      info' = { info with descBusAddrTranslated := info'.descBusAddrTranslated } := by
  simp only [translateDescriptorLinkAddr] at h
  rcases findFirstZeroU16_spec table with ⟨slot, hslot, hfree⟩ | ⟨hfull, -⟩
  · have halloc : pciePageAlloc table (info.descBusAddr &&& alteraAddrTranslationMask64) info.params.channel =
        ⟨slot, table.store slot (pageOf info.descBusAddr) info.params.channel, [slot, slot]⟩ := by
      rw [pciePageAlloc, hslot]
      exact if_neg (by omega)
    rw [halloc] at h
    rw [if_neg (by dsimp only; omega)] at h
    cases h
    refine ⟨slot, hslot.symm, ⟨?_, ?_⟩, ?_, fun i hi => ?_, rfl⟩
    · rw [store_eq]
      exact Function.update_self ..
    · have hlt := slot.isLt
      have hoffset := toNat_pageOffset info.descBusAddr
      have hmod := Nat.mod_lt info.descBusAddr.toNat (Nat.two_pow_pos 18)
      have hhigh : (BitVec.ofInt 32 (slot.val : ℤ) <<< alteraAddrPageSize).toNat = slot.val <<< 18 := by
        rw [BitVec.ofInt_natCast, BitVec.toNat_shiftLeft, BitVec.toNat_ofNat, show alteraAddrPageSize = 18 from rfl,
          Nat.shiftLeft_eq]
        omega
      dsimp only
      rw [BitVec.toNat_or, hhigh, BitVec.toNat_setWidth, hoffset, Nat.mod_eq_of_lt (show _ < 2 ^ 32 by omega),
        ← Nat.shiftLeft_add_eq_or_of_lt hmod, Nat.shiftLeft_eq]
    · rw [slots_store]
      exact Function.update_self ..
    · rw [store_eq]
      exact Function.update_of_ne hi ..
  · have halloc : pciePageAlloc table (info.descBusAddr &&& alteraAddrTranslationMask64) info.params.channel =
        ⟨-1, table.store (-1) (pageOf info.descBusAddr) info.params.channel, [-1, -1]⟩ := by
      rw [pciePageAlloc, hfull]
      rfl
    rw [halloc] at h
    rw [if_pos rfl] at h
    cases h

theorem Ready.congr {params : TpceDmaTransferParams} {info' : TpceDmaInfo} (h : Ready params info)
    (hsame : SameBuffers info info') (hsize : info'.descSize = info.descSize)
    (hactive : info'.descActive = info.descActive) (hparams : info'.params = info.params) : Ready params info' := by
  refine ⟨h.buffered.congr hsame, ⟨?_, ?_, ?_⟩, hparams.trans h.params, ?_⟩
  · rw [hactive]
    exact h.sized.active
  · rw [hactive, hsize]
    exact h.sized.size
  · rw [hsize, hsame.capacity]
    exact h.sized.fits
  · rw [hactive]
    exact h.active

theorem ready_of_initialized {sgt : SgTable} {ops : List Op} {fileCtx : Option ℕ}
    (hplaces : Runs.Along step (Places PowerAligned) (TpceDev.init sgt) ops)
    (hrun : Runs.run step (TpceDev.init sgt) ops = some dev)
    (hvalid : validateDmaRequest dev req fileCtx = 0) (hplaced : PlacedFor PowerAligned env req)
    (hinit : initDmaInfo env dev c req = .ok (c.val, dev')) (hactive : 0 < (dev'.dmaInfo c).descActive.toNat) :
    Ready req.params (dev'.dmaInfo c) := by
  obtain ⟨c', m, hreq⟩ := validateDmaRequest_valid hvalid
  have hbuffered := Runs.always_iff_prefix.mp (run_buffered sgt powerAligned_zero hplaces) ops []
    (List.append_nil ops).symm dev hrun
  obtain ⟨hbuf, hsized⟩ := initDmaInfo_buffered hinit (hbuffered c) powerAligned_zero hplaced
    (ValidRequest.suppliedSize hreq)
  obtain ⟨hneg, -⟩ | ⟨-, obj, m', prep, info, hacc⟩ := initDmaInfo_cases hinit
  · omega
  · exact ⟨hbuf, hsized (by omega), initialized_params hacc, hactive⟩

/-- In the table in front of the start, the slots behind the first free one
hold the pages behind the first one of the descriptor buffer. -/
def PagesFollow (table : AlteraPciePageTable) (info : TpceDmaInfo) : Prop :=
  ∀ j : ℕ, 0 < j → j * 2 ^ 18 < info.descSize.toNat →
    ∃ i : Fin 16, (i.val : ℤ) = findFirstZeroU16 table.usedMask + j ∧
      table.pages i = pageOf info.descBusAddr + BitVec.ofNat 64 (j * 2 ^ 18)

theorem walked_iff_pagesFollow {params : TpceDmaTransferParams} {info' : TpceDmaInfo} (h : Ready params info)
    (hlink : translateDescriptorLinkAddr table info = (0, table', info')) :
    Walked table' (buildDescriptorLinks info') (info.descActive / descriptorSize).toNat ↔ PagesFollow table info := by
  obtain ⟨slot, hslot, hl, -, hothers, hinfo⟩ := linked_of_linkAddr hlink
  have hready : Ready params info' := by
    rw [hinfo]
    exact h.congr ⟨rfl, rfl, rfl, rfl⟩ rfl rfl rfl
  have hactive : info'.descActive = info.descActive := by rw [hinfo]
  have hsize : info'.descSize = info.descSize := by rw [hinfo]
  have haddr : info'.descBusAddr = info.descBusAddr := by rw [hinfo]
  rw [← hactive, hready.walked_iff hl, hsize, haddr]
  refine forall_congr' fun j => forall₂_congr fun hj hlt => exists_congr fun i => ?_
  rw [← hslot]
  constructor
  · rintro ⟨hi, hpage⟩
    have hne : i ≠ slot := fun heq => by
      rw [heq] at hi
      omega
    exact ⟨by omega, (hothers i hne).symm.trans hpage⟩
  · rintro ⟨hi, hpage⟩
    have hne : i ≠ slot := fun heq => by
      rw [heq] at hi
      omega
    exact ⟨by omega, (hothers i hne).trans hpage⟩

/-- A whole start, with the translation of the data addresses between the two
steps, keeps a buffer of one page decodable. -/
theorem walked_of_start {params : TpceDmaTransferParams} (h : Ready params (dev.dmaInfo c))
    (hstart : dmaStart env dev c = (0, dev')) (hsmall : (dev.dmaInfo c).descSize.toNat ≤ 2 ^ 18) :
    Walked dev'.pageTable (dev'.dmaInfo c) ((dev.dmaInfo c).descActive / descriptorSize).toNat := by
  simp only [dmaStart] at hstart
  split at hstart
  · cases hstart
  cases hlink : translateDescriptorLinkAddr dev.pageTable (dev.dmaInfo c) with
  | mk ret₁ r₁ =>
      obtain ⟨table₁, info₁⟩ := r₁
      obtain ⟨-, hle⟩ := linkAddr_spec hlink
      simp only [hlink] at hstart
      split at hstart
      · rename_i hneg
        cases hstart
        exact absurd hneg (by decide)
      rename_i hnonneg
      obtain rfl : ret₁ = 0 := by omega
      obtain ⟨slot, -, hl, hslots, -, hinfo₁⟩ := linked_of_linkAddr hlink
      cases hrw : translateDescriptorRwAddr env.slot table₁ info₁ with
      | mk ret₂ r₂ =>
          obtain ⟨table₂, info₂⟩ := r₂
          have hinfo₂ := rwAddr_eq env.slot table₁ info₁
          have hlen := rwAddr_length env.slot table₁ info₁
          rw [hrw] at hinfo₂ hlen
          simp only [hrw] at hstart
          split at hstart
          · rename_i hneg
            cases hstart
            exact absurd hneg (by decide)
          rename_i hok
          obtain rfl := (Prod.mk.inj hstart).2
          have hready₁ : Ready params info₁ := by
            rw [hinfo₁]
            exact h.congr ⟨rfl, rfl, rfl, rfl⟩ rfl rfl rfl
          have hready₂ : Ready params info₂ := by
            dsimp only at hinfo₂ hlen
            rw [hinfo₂]
            exact hready₁.congr ⟨rfl, hlen, rfl, rfl⟩ rfl rfl rfl
          have hactive : info₂.descActive = (dev.dmaInfo c).descActive := by
            dsimp only at hinfo₂
            rw [hinfo₂, hinfo₁]
          have hsize : info₂.descSize = (dev.dmaInfo c).descSize := by
            dsimp only at hinfo₂
            rw [hinfo₂, hinfo₁]
          have haddr : info₂.descBusAddr = (dev.dmaInfo c).descBusAddr := by
            dsimp only at hinfo₂
            rw [hinfo₂, hinfo₁]
          have hl₂ : Linked table₂ slot info₂ := by
            have hkept := keeps_rw hrw (by omega) slot _ _ hslots
            refine ⟨?_, ?_⟩
            · rw [haddr]
              exact (slots_eq_some.mp hkept).2.1
            · have htranslated := hl.translated
              dsimp only at hinfo₂
              rw [hinfo₂]
              exact htranslated
          rw [setInfo_dmaInfo, ← hactive]
          refine (hready₂.walked_iff hl₂).mpr fun j hj hlt => ?_
          rw [hsize] at hlt
          omega

/-- For every channel that `init_dma_info` has set up with an active
descriptor: the links lead the prefetcher through the descriptors exactly when
the pages of the buffer behind the first are in their slots already. A buffer
of one page needs none, also in a whole start. -/
theorem prefetcher_walk_iff (sgt : SgTable) (ops : List Op) (fileCtx : Option ℕ)
    (hplaces : Runs.Along step (Places PowerAligned) (TpceDev.init sgt) ops)
    (hrun : Runs.run step (TpceDev.init sgt) ops = some dev)
    (hvalid : validateDmaRequest dev req fileCtx = 0) (hplaced : PlacedFor PowerAligned env req)
    (hinit : initDmaInfo env dev c req = .ok (c.val, dev')) (hactive : 0 < (dev'.dmaInfo c).descActive.toNat) :
    (∀ table info, translateDescriptorLinkAddr dev'.pageTable (dev'.dmaInfo c) = (0, table, info) →
      (Walked table (buildDescriptorLinks info) ((dev'.dmaInfo c).descActive / descriptorSize).toNat ↔
        PagesFollow dev'.pageTable (dev'.dmaInfo c))) ∧
    ((dev'.dmaInfo c).descSize.toNat ≤ 2 ^ 18 → PagesFollow dev'.pageTable (dev'.dmaInfo c) ∧
      ∀ env' dev'', dmaStart env' dev' c = (0, dev'') →
        Walked dev''.pageTable (dev''.dmaInfo c) ((dev'.dmaInfo c).descActive / descriptorSize).toNat) := by
  have hready := ready_of_initialized hplaces hrun hvalid hplaced hinit hactive
  refine ⟨fun table info hlink => walked_iff_pagesFollow hready hlink, fun hsmall => ⟨fun j hj hlt => ?_, ?_⟩⟩
  · omega
  · exact fun env' dev'' hstart => walked_of_start hready hstart hsmall

theorem copyToDma_exists (hfits : info.descSize ≤ info.descCapacity) :
    ∃ copied, copyToDma info = .ok copied ∧ copied.descActive = info.descActive ∧
      copied.descSize = info.descSize ∧ copied.descBusAddr = info.descBusAddr := by
  simp only [copyToDma]
  rw [if_neg (BitVec.not_lt.mpr hfits)]
  exact ⟨_, rfl, rfl, rfl, rfl⟩

def pageTransfer : TpceDmaRequest where
  id := 1
  params := ⟨0, 0, 4096, 0, 0, 0, 0, tpceDmaModeDefault, tpceDmaFromDevice, 0, 0⟩
  descriptors := 0
  descriptorsSize := 0
  descriptorsType := 0

theorem placedFor_granted (h : PowerAligned (allocSize req).toNat 0x200000#64) :
    PlacedFor PowerAligned .granted req := by
  intro addr haddr
  obtain rfl := Option.some.inj haddr
  exact h

theorem page_transfer_walked : ∃ dev' dev'', initDmaInfo .granted freshDevice 0 pageTransfer = .ok (0, dev') ∧
    dmaStart .granted dev' 0 = (0, dev'') ∧ Walked dev''.pageTable (dev''.dmaInfo 0) 1 := by
  have hsizes : (initDmaInfo .granted freshDevice 0 pageTransfer).toOption.map (fun r =>
      (r.1, (r.2.dmaInfo 0).descActive, (r.2.dmaInfo 0).descSize, (dmaStart .granted r.2 0).1)) =
        some (0, 64, 128, 0) := by
    decide +kernel
  obtain ⟨⟨ret, dev'⟩, hinit, heq⟩ := Option.map_eq_some_iff.mp hsizes
  simp only [Prod.mk.injEq] at heq
  obtain ⟨rfl, hactive, hsize, hstart⟩ := heq
  have hplaced : PlacedFor PowerAligned .granted pageTransfer :=
    placedFor_granted (show 2 ^ Nat.clog 2 (allocSize pageTransfer).toNat ∣ _ by decide +kernel)
  obtain ⟨-, hone⟩ := prefetcher_walk_iff (c := 0) _ [] none True.intro rfl (by decide +kernel) hplaced
    (toOption_eq_some.mp hinit) (by rw [hactive]; decide)
  obtain ⟨-, hwalked⟩ := hone (by rw [hsize]; decide)
  rw [hactive] at hwalked
  have hrun : dmaStart .granted dev' 0 = (0, (dmaStart .granted dev' 0).2) := Prod.ext hstart rfl
  exact ⟨dev', (dmaStart .granted dev' 0).2, toOption_eq_some.mp hinit, hrun, hwalked .granted _ hrun⟩

def finePieces : TpceDmaRequest where
  id := 1
  params := ⟨0, 0, 0x100000, 256, 0, 0, 0, tpceDmaModeDefault, tpceDmaFromDevice, 0, 0⟩
  descriptors := 0
  descriptorsSize := 0
  descriptorsType := 0

def driverMapping : TpceDmaMapInfo := driverBuffer ⟨.last [⟨0x8000000#64, 0x100000#32, 0⟩], 1⟩

def newBuffer (size : U32) (n : ℕ) : TpceDmaInfo :=
  { TpceDmaInfo.zero with
    desc := List.replicate n default, descDma := List.replicate n default
    descBusAddr := 0x200000#64, descSize := size, descCapacity := size }

theorem alloc_newBuffer {size : U32} {n : ℕ} (hrange : ¬(size = 0 ∨ size.toNat > 2 ^ 31 - 1))
    (hn : (size / descriptorSize).toNat = n) :
    tpceDmaAllocDescriptorsMem .granted .zero size = (0, newBuffer size n) := by
  have hnew : ¬size ≤ TpceDmaInfo.zero.descCapacity := fun hle =>
    hrange (.inl (BitVec.eq_of_toNat_eq (Nat.le_zero.mp (BitVec.le_def.mp hle))))
  simp only [tpceDmaAllocDescriptorsMem, hn]
  rw [if_neg hrange, if_neg hnew]
  rfl

theorem finePieces_generated {n : ℕ} (hn : n = 4098) : ∃ filled,
    generateDesc driverMapping finePieces.params (descAllocSize finePieces) (newBuffer 262272#32 n) = .ok (0, filled) ∧
      filled.descActive = 262144#32 ∧ filled.descSize = 262208#32 ∧ filled.descCapacity = 262272#32 ∧
        filled.descBusAddr = 0x200000#64 := by
  have hmap : Ranged driverMapping := ⟨by decide, by decide, by decide, by decide⟩
  have hreq : FixedRequest finePieces.params driverMapping := ⟨by decide, by decide, by decide, by decide⟩
  have hcount : finePieces.params.bytesTotal.toNat / finePieces.params.bytesPerDescriptor.toNat = 4096 := by decide
  have hroom : 4096 ≤ (newBuffer 262272#32 n).desc.length := by
    rw [newBuffer, List.length_replicate]
    omega
  obtain ⟨desc, ⟨hgen, -⟩, -⟩ := generatedFixed_of_evenlyCut hmap hreq ⟨by decide, .inl (by decide)⟩
    (newBuffer 262272#32 n).desc (by rw [hcount]; exact hroom)
  have hmax : descAllocSize finePieces / descriptorSize = tpceMaxDescriptorsNeeded finePieces.params := by decide
  have hlast : tpceDmaHasTerminatingDescriptor finePieces.params = true := by decide
  have hsize : (BitVec.ofInt 32 4096 + 1) * descriptorSize = 262208#32 := by decide
  have hactive : BitVec.ofInt 32 4096 * descriptorSize = 262144#32 := by decide
  rw [hcount, Nat.cast_ofNat] at hgen
  simp only [generateDesc, hreq.validated, hmax, hgen, hlast, bind, Except.bind, pure, Except.pure]
  rw [if_neg (by decide), if_neg (by decide), if_neg (by decide), if_neg (by decide), if_pos True.intro, hsize, hactive]
  exact ⟨_, rfl, rfl, rfl, rfl, rfl⟩

theorem initDmaInfo_of_prepared {obj : ℕ} {m : TpceDmaMapInfo} (hobj : dev.dmaMappings req.id = some obj)
    (hm : dev.mapInfo obj = .ok m) (hprep : prepareDesc env m req (dev.dmaInfo c) = .ok (0, info))
    (hmode : req.params.transferMode ≠ tpceDmaModeStream) :
    initDmaInfo env dev c req = .ok (c.val, (dev.setInfo c (initializedInfo info req obj)).setMapInfo obj
      { m with activeChannel := c.val }) := by
  simp only [initDmaInfo, hobj, hm, hprep, bind, Except.bind]
  rw [if_neg (by simp), if_neg hmode, if_neg (by simp)]
  rfl

theorem finePieces_prepared : ∃ info, prepareDesc .granted driverMapping finePieces .zero = .ok (0, info) ∧
    info.descActive = 262144#32 ∧ info.descSize = 262208#32 ∧ info.descBusAddr = 0x200000#64 := by
  have hsize : (if tpceDmaHasTerminatingDescriptor finePieces.params then descAllocSize finePieces + descriptorSize
      else descAllocSize finePieces) = 262272#32 := by decide
  obtain ⟨n, hnum⟩ : ∃ n, (262272#32 / descriptorSize).toNat = n := ⟨_, rfl⟩
  have halloc := alloc_newBuffer (by decide) hnum
  have hn : n = 4098 := hnum.symm.trans (by decide)
  obtain ⟨filled, hgen, hactive, hdescSize, hcapacity, haddr⟩ := finePieces_generated hn
  have hfits : filled.descSize ≤ filled.descCapacity := by
    rw [hdescSize, hcapacity]
    decide
  obtain ⟨copied, hcopy, hactive', hdescSize', haddr'⟩ := copyToDma_exists hfits
  refine ⟨copied, ?_, hactive'.trans hactive, hdescSize'.trans hdescSize, haddr'.trans haddr⟩
  simp only [prepareDesc, hsize, halloc]
  rw [if_neg (by simp), if_neg (by decide), hgen]
  exact bind_eq_ok.mpr ⟨_, rfl, bind_eq_ok.mpr ⟨copied, hcopy, rfl⟩⟩

theorem finePieces_init : ∃ dev', initDmaInfo .granted freshDevice 0 finePieces = .ok (0, dev') ∧
    (dev'.dmaInfo 0).descActive = 262144#32 ∧ (dev'.dmaInfo 0).descSize = 262208#32 ∧
      (dev'.dmaInfo 0).descBusAddr = 0x200000#64 ∧ dev'.pageTable = .empty := by
  obtain ⟨info, hprep, hactive, hsize, haddr⟩ := finePieces_prepared
  have hobj : freshDevice.dmaMappings finePieces.id = some 0 := rfl
  have hm : freshDevice.mapInfo 0 = .ok driverMapping := rfl
  have hidle : freshDevice.dmaInfo 0 = .zero := rfl
  rw [← hidle] at hprep
  exact ⟨_, initDmaInfo_of_prepared hobj hm hprep (by decide), hactive, hsize, haddr, rfl⟩

/-- The links behind the 4096th descriptor lead to a slot that holds no page. -/
theorem fine_pieces_lose_the_way : ∃ dev' table info, initDmaInfo .granted freshDevice 0 finePieces = .ok (0, dev') ∧
    translateDescriptorLinkAddr dev'.pageTable (dev'.dmaInfo 0) = (0, table, info) ∧
      ¬Walked table (buildDescriptorLinks info) ((dev'.dmaInfo 0).descActive / descriptorSize).toNat := by
  obtain ⟨dev', hinit, hactive, hsize, haddr, htable⟩ := finePieces_init
  have hplaced : PlacedFor PowerAligned .granted finePieces :=
    placedFor_granted (show 2 ^ Nat.clog 2 (allocSize finePieces).toNat ∣ _ by decide +kernel)
  obtain ⟨hiff, -⟩ := prefetcher_walk_iff (c := 0) _ [] none True.intro rfl (by decide +kernel) hplaced hinit
    (by rw [hactive]; decide)
  cases hlink : translateDescriptorLinkAddr dev'.pageTable (dev'.dmaInfo 0) with
  | mk ret r =>
      obtain ⟨table, info⟩ := r
      have hret : ret = 0 := by
        have hok : (translateDescriptorLinkAddr dev'.pageTable (dev'.dmaInfo 0)).1 = 0 := by
          rw [htable]
          rfl
        rw [hlink] at hok
        exact hok
      subst hret
      refine ⟨dev', table, info, hinit, hlink, fun hwalked => ?_⟩
      obtain ⟨i, -, hpage⟩ := (hiff table info hlink).mp hwalked 1 Nat.one_pos (by rw [hsize]; decide)
      rw [htable, haddr] at hpage
      have hpage : (0 : U64) = pageOf 0x200000#64 + BitVec.ofNat 64 (1 * 2 ^ 18) := hpage
      exact absurd hpage (by decide)

end TpceDrv.PrefetcherWalk
