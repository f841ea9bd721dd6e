import TpceDrv.DeviceAddresses
import TpceDrv.HostRoutes
import TpceDrv.Library.Moves
import TpceDrv.WindowContainment

namespace TpceDrv.DataMovement

open Descriptor DmaParams DmaInfo Mapping PageTable PageTableMap Device Translation RoundTrip ChannelSteps SlotFrames
open Generation Reach Planning MappedRanges TransferParts DeviceAddresses WindowContainment
open Requests Driver RequestSteps RequestAtomicity ActiveDescriptors Controller RunningChannels RegisterRuns
open DescriptorBuffers PrefetcherWalk HostRoutes
open Library.Runs Library.Buffers Library.Cuts Library.Moves Library.Strided
open ChannelControl hiding tpceDmaAbort resetDmaInfo dmaStart tpceDmaStart tpceDmaStreamStart dmaDispatch

/-- Where the i-th byte is when words of `w` bytes start `s` words apart -/
def byteOffset (w s i : ℕ) : ℕ := i / w * s * w + i % w

/-- The hardware uses only the elements of a descriptor that are enabled: a channel
without strides puts one word behind the other. -/
def wordStride (chInfo : TpceDmaChannelInfo) (stride : U16) : ℕ := if chInfo.maxStride = 0 then 1 else stride.toNat

/-- What the core does for a descriptor that reads from the memory of the device: the
bus address and the device address of each byte that the registers lead somewhere -/
def bytesMoved (written : MmioWrites) (chInfo : TpceDmaChannelInfo) (desc : TpceDmaDescriptor) : List (U64 × ℕ) :=
  let w := chInfo.dataWidth.toNat
  (List.range desc.transferLength.toNat).filterMap fun i =>
    let place := tpceDescGetWrite desc + BitVec.ofNat 64 (byteOffset w (wordStride chInfo desc.writeStride) i)
    let source := (tpceDescGetRead desc).toNat + byteOffset w (wordStride chInfo desc.readStride) i
    (decode written place).map fun addr => (addr, source)

/-- The descriptors that the prefetcher hands to the core, from an address on up to one
that the hardware does not own -/
def prefetch (written : MmioWrites) (info : TpceDmaInfo) : ℕ → U64 → Option (List TpceDmaDescriptor)
  | 0, _ => none
  | n + 1, addr => do
      let busAddr ← decode written addr
      let desc ← fetch info busAddr
      if desc.control &&& ownByHwSetMask = 0 then pure []
      else
        let descs ← prefetch written info n (nextDescPtr (busAddr, desc))
        pure (desc :: descs)

/-- Where the prefetcher of a channel begins, if it is to run -/
def firstDescriptor (written : MmioWrites) (c : Channel) : Option U64 := do
  let control ← writtenValue written (tpceDmaPrefetcherCsr c.id altMsgdmaPrefetcherControlReg)
  let low ← writtenValue written (tpceDmaPrefetcherCsr c.id altMsgdmaPrefetcherNextDescriptorPtrLowReg)
  let high ← writtenValue written (tpceDmaPrefetcherCsr c.id altMsgdmaPrefetcherNextDescriptorPtrHighReg)
  if control &&& prefetcherCtrlRunSetMask = 0 then none else pure (combine high low)

/-- The host's memory when the controller of a channel has come to its end, with the
descriptors in the buffer of the channel and all that was written to the registers -/
def transferred (written : MmioWrites) (c : Channel) (info : TpceDmaInfo) (chInfo : TpceDmaChannelInfo)
    (device : Bytes) (host : U64 → Byte) : Option (U64 → Byte) := do
  let addr ← firstDescriptor written c
  let descs ← prefetch written info (numDescriptors info) addr
  pure (moved device (descs.flatMap (bytesMoved written chInfo)) host)

variable {env : InitEnv} {req : TpceDmaRequest} {dev dev' dev₁ dev₂ : TpceDev} {c : Channel} {t written : MmioWrites}
  {info info' : TpceDmaInfo} {table table' : AlteraPciePageTable} {mapInfo : TpceDmaMapInfo}
  {chInfo : TpceDmaChannelInfo} {params : TpceDmaTransferParams} {slot : Fin 16} {placed : ℕ → U64 → Prop}

theorem byteOffset_one (w i : ℕ) : byteOffset w 1 i = i := by
  rw [byteOffset, Nat.mul_one]
  exact Nat.div_add_mod' i w

/-- What the driver leaves of a descriptor as it was generated when it starts a channel -/
def payload (desc : TpceDmaDescriptor) : (U64 × ℕ) × U16 × U16 :=
  (readInterval desc, desc.readStride, desc.writeStride)

theorem payload_linkDesc (desc : TpceDmaDescriptor) (next : U32) : payload (linkDesc desc next) = payload desc := rfl

theorem translateRwLoop_payload (channel : U8) (descs : List TpceDmaDescriptor) (st : RwLookup) :
    (translateRwLoop channel st descs).2.2.map payload = descs.map payload := by
  induction descs generalizing st with
  | nil => rfl
  | cons desc rest ih =>
      simp only [translateRwLoop]
      cases lookupPage channel st (pageOf (tpceDescGetWrite desc)) with
      | error table => rfl
      | ok st' => exact congrArg (payload desc :: ·) (ih st')

theorem rwAddr_payload (slot : ℤ) (table : AlteraPciePageTable) (info : TpceDmaInfo) :
    (translateDescriptorRwAddr slot table info).2.2.descDma.map payload = info.descDma.map payload := by
  have hloop := translateRwLoop_payload info.params.channel
    (info.descDma.take (info.descActive / descriptorSize).toNat) ⟨table, 0, slot, 0⟩
  have hsplit : ∀ l : List TpceDmaDescriptor,
      l.map payload = (info.descDma.take (info.descActive / descriptorSize).toNat).map payload →
        (l ++ info.descDma.drop (info.descActive / descriptorSize).toNat).map payload = info.descDma.map payload := by
    intro l hl
    rw [List.map_append, hl, ← List.map_append, List.take_append_drop]
  simp only [translateDescriptorRwAddr]
  split
  · split
    · exact hsplit _ hloop
    · exact hsplit _ hloop
  · split
    · rfl
    · rfl

/-- What a start has made of a channel, up to the links between the descriptors -/
structure Launched (dev₁ : TpceDev) (c : Channel) (dev₂ : TpceDev) (info : TpceDmaInfo) (slot : Fin 16) : Prop where
  result : dev₂.dmaInfo c = { buildDescriptorLinks info with state := .running }
  linked : Linked dev₂.pageTable slot info
  owned : slots dev₂.pageTable slot = some (pageOf info.descBusAddr, (dev₁.dmaInfo c).params.channel)
  kept : info = { dev₁.dmaInfo c with
    descBusAddrTranslated := info.descBusAddrTranslated, descDma := info.descDma }
  payloads : info.descDma.map payload = (dev₁.dmaInfo c).descDma.map payload

theorem launched_of_dispatch (hdisp : ChannelControl.dmaDispatch env dev₁ c = (0, dev₂)) :
    ∃ info slot, Launched dev₁ c dev₂ info slot := by
  obtain ⟨dev₀, dev₃, hinfo, htable, hstart, rfl⟩ := dispatch_start hdisp
  obtain ⟨table₁, info₁, used, table₂, info₂, hlink, hrw, hused, rfl⟩ := start_translates hstart
  rw [hinfo, htable] at hlink
  obtain ⟨slot, -, hl, hslot, -, hinfo₁⟩ := linked_of_linkAddr hlink
  have hinfo₂ := rwAddr_eq env.slot table₁ info₁
  have hpayloads := rwAddr_payload env.slot table₁ info₁
  have hkept := keeps_rw hrw hused slot _ _ hslot
  rw [hrw] at hinfo₂ hpayloads
  dsimp only at hinfo₂ hpayloads
  have haddr : info₂.descBusAddr = (dev₁.dmaInfo c).descBusAddr := by rw [hinfo₂, hinfo₁]
  have htranslated : info₂.descBusAddrTranslated = info₁.descBusAddrTranslated := by rw [hinfo₂]
  have hdma : info₁.descDma = (dev₁.dmaInfo c).descDma := by rw [hinfo₁]
  refine ⟨info₂, slot, ⟨?_, ⟨?_, ?_⟩, ?_, ?_, ?_⟩⟩
  · rw [setRunning, setInfo_dmaInfo, setInfo_dmaInfo]
  · rw [haddr]
    exact (slots_eq_some.mp hkept).2.1
  · have hbase : info₁.descBusAddr = (dev₁.dmaInfo c).descBusAddr := by rw [hinfo₁]
    rw [htranslated, haddr, ← hbase]
    exact hl.translated
  · rw [haddr]
    exact hkept
  · rw [hinfo₂, hinfo₁]
  · rw [hpayloads, hdma]

/-- The descriptors of a channel lie in one window. -/
def OneWindow (info : TpceDmaInfo) : Prop := info.descBusAddr.toNat % 2 ^ 18 + info.descSize.toNat ≤ 2 ^ 18

instance (info : TpceDmaInfo) : Decidable (OneWindow info) := inferInstanceAs (Decidable (_ ≤ _))

theorem decode_link (hl : Linked table slot info)
    (hslot : slots table slot = some (pageOf info.descBusAddr, c.id)) :
    decode (setPageTranslationRegs table c.id) (linkTo info 0) = some info.descBusAddr := by
  have haddr := linkTo_toNat hl (i := 0) (by decide)
  rw [Nat.mul_zero, Nat.add_zero] at haddr
  have hmod := Nat.mod_lt info.descBusAddr.toNat (Nat.two_pow_pos 18)
  have hshift : (linkTo info 0 >>> alteraAddrPageSize).toNat = slot := by
    rw [BitVec.toNat_ushiftRight, haddr, Nat.shiftRight_eq_div_pow]
    show (slot.val * 2 ^ 18 + info.descBusAddr.toNat % 2 ^ 18) / 2 ^ 18 = slot
    omega
  have hoffset : (linkTo info 0 &&& ~~~alteraAddrTranslationMask64).toNat = info.descBusAddr.toNat % 2 ^ 18 := by
    rw [toNat_pageOffset, haddr]
    omega
  rw [decode_slot hslot hshift, pageOf_pageOf]
  refine congrArg some (BitVec.eq_of_toNat_eq ?_)
  rw [toNat_page_or_offset _ (by omega), hoffset]
  exact Nat.div_add_mod _ _

/-- Within the window every link leads to its descriptor. -/
theorem decode_linkTo (hl : Linked table slot info)
    (hslot : slots table slot = some (pageOf info.descBusAddr, c.id)) (hone : OneWindow info) {i : ℕ}
    (hi : i < numDescriptors info) :
    decode (setPageTranslationRegs table c.id) (linkTo info i) = some (nodeAddr info i) := by
  have hnum : numDescriptors info = info.descSize.toNat / 64 := toNat_div_descriptorSize info.descSize
  have hwindow : InWindow (info.descBusAddr, 64 * numDescriptors info) := by
    refine (Library.Windows.within_iff windowSize_pos _ _).mpr ?_
    simp only [OneWindow] at hone
    show info.descBusAddr.toNat % 2 ^ 18 + 64 * numDescriptors info ≤ 2 ^ 18
    omega
  have hbyte := decode_byte (decode_link hl hslot) hwindow (i := 64 * i) (by omega)
  have hlink : linkTo info i = linkTo info 0 + BitVec.ofNat 64 (64 * i) := by
    have hsmall : 64 * i < 2 ^ 18 := by
      simp only [OneWindow] at hone
      omega
    have hslotlt := slot.isLt
    have hmod := Nat.mod_lt info.descBusAddr.toNat (Nat.two_pow_pos 18)
    apply BitVec.eq_of_toNat_eq
    rw [BitVec.toNat_add, BitVec.toNat_ofNat, linkTo_toNat hl (by omega), linkTo_toNat hl (by decide)]
    omega
  rw [hlink]
  exact hbyte

theorem prefetch_congr (hdma : info'.descDma = info.descDma) (haddr : info'.descBusAddr = info.descBusAddr) (n : ℕ)
    (addr : U64) : prefetch written info' n addr = prefetch written info n addr := by
  have hfetch : fetch info' = fetch info := by
    funext busAddr
    simp only [fetch, hdma, haddr]
  induction n generalizing addr with
  | zero => rfl
  | succ n ih => simp only [prefetch, hfetch, ih]

theorem prefetch_of_written {regs : MmioWrites} (h : ∀ w ∈ regs, writtenValue written w.1 = some w.2) {n : ℕ}
    {addr : U64} {descs : List TpceDmaDescriptor} (hfetch : prefetch regs info n addr = some descs) :
    prefetch written info n addr = some descs := by
  induction n generalizing addr descs with
  | zero => cases hfetch
  | succ n ih =>
      simp only [prefetch, bind, Option.bind_eq_some_iff] at hfetch ⊢
      obtain ⟨busAddr, hdecode, desc, hdesc, hrest⟩ := hfetch
      refine ⟨busAddr, decode_of_written h hdecode, desc, hdesc, ?_⟩
      by_cases hown : desc.control &&& ownByHwSetMask = 0
      · rw [if_pos hown] at hrest ⊢
        exact hrest
      · rw [if_neg hown] at hrest ⊢
        obtain ⟨tail, htail, hcons⟩ := Option.bind_eq_some_iff.mp hrest
        exact Option.bind_eq_some_iff.mpr ⟨tail, ih htail, hcons⟩

/-- The prefetcher goes along the links up to the terminating descriptor. -/
theorem prefetch_links (hl : Linked table slot info)
    (hslot : slots table slot = some (pageOf info.descBusAddr, c.id)) (hone : OneWindow info) (h : Holds info)
    (hmode : info.params.transferMode ≠ tpceDmaModeStream) {k i : ℕ} (hk : i + k + 1 = numDescriptors info) :
    prefetch (setPageTranslationRegs table c.id) (buildDescriptorLinks info) (k + 1) (linkTo info i) =
      some (((buildDescriptorLinks info).descDma.take (numDescriptors info - 1)).drop i) := by
  have hsmall := h.small
  have hroom := h.room
  have hlen : (buildDescriptorLinks info).descDma.length = info.descDma.length := List.length_mapIdx
  induction k generalizing i with
  | zero =>
      have hdecode := decode_linkTo hl hslot hone (show i < numDescriptors info by omega)
      obtain ⟨desc, hnode⟩ := node_last (i := i) (by omega) h.room
      have hfetch : fetch (buildDescriptorLinks info) (nodeAddr info i) = some (default : TpceDmaDescriptor) := by
        have hat := fetch_nodeAddr (buildDescriptorLinks info) (i := i) (by omega)
        rw [List.getElem?_eq_getElem (by omega)] at hat
        have hval := congrArg Prod.snd hnode
        rw [if_neg hmode] at hval
        simp only [node] at hval
        rw [List.getD_eq_getElem _ _ (by omega)] at hval
        rw [hval] at hat
        exact hat
      simp only [prefetch, bind, hdecode, hfetch, Option.bind_some]
      rw [if_pos (by decide), List.drop_of_length_le]
      · rfl
      · rw [List.length_take]
        omega
  | succ k ih =>
      have hdecode := decode_linkTo hl hslot hone (show i < numDescriptors info by omega)
      obtain ⟨desc, hnode⟩ := node_link (i := i) (by omega) h.room
      have hval := congrArg Prod.snd hnode
      simp only [node] at hval
      rw [List.getD_eq_getElem _ _ (by omega)] at hval
      have hfetch : fetch (buildDescriptorLinks info) (nodeAddr info i) =
          some (linkDesc desc (info.descBusAddrTranslated + descriptorSize * BitVec.ofNat 32 (i + 1))) := by
        have hat := fetch_nodeAddr (buildDescriptorLinks info) (i := i) (by omega)
        rw [List.getElem?_eq_getElem (by omega), hval] at hat
        exact hat
      have hnext : nextDescPtr (nodeAddr info i,
          linkDesc desc (info.descBusAddrTranslated + descriptorSize * BitVec.ofNat 32 (i + 1))) =
          linkTo info (i + 1) := nextDescPtr_linkDesc _ _ _
      have hrest := ih (i := i + 1) (by omega)
      rw [prefetch]
      simp only [bind, hdecode, hfetch, Option.bind_some]
      rw [if_neg (ownedByHw_linkDesc _ _), hnext, hrest, List.drop_eq_getElem_cons (i := i) (by
        rw [List.length_take]
        omega), List.getElem_take, hval]
      rfl

/-- The bus addresses of the bytes of a mapping, in its order -/
def hostBytes (mapInfo : TpceDmaMapInfo) : List U64 := places (segments mapInfo)

/-- The bus addresses of the bytes of a transfer -/
def targets (params : TpceDmaTransferParams) (mapInfo : TpceDmaMapInfo) : List U64 :=
  ((hostBytes mapInfo).drop params.mapOffset.toNat).take params.bytesTotal.toNat

/-- A transfer from the memory of the device whose descriptors the driver generates, into
a part of a mapping that takes it, with the ends of the windows between two descriptors -/
structure PlainRead (env : InitEnv) (req : TpceDmaRequest) (mapInfo : TpceDmaMapInfo)
    (chInfo : TpceDmaChannelInfo) : Prop where
  generated : req.descriptors = 0
  flexible : req.params.bytesPerDescriptor = 0
  mode : req.params.transferMode = tpceDmaModeDefault
  direction : req.params.direction = tpceDmaFromDevice
  channel : channelInfo req.params.channel = .ok chInfo
  memory : chInfo.hasStreamRead = false
  strides : chInfo.maxStride = 0 ∨ (req.params.readStride = 1 ∧ req.params.writeStride = 1)
  sized : MappedRanges.Sized mapInfo
  inside : req.params.mapOffset.toNat + req.params.bytesTotal.toNat ≤ mapInfo.size.toNat
  bounded : req.params.bytesTotal.toNat + 262144 ≤ 2 ^ 32
  device : req.params.deviceAddr.toNat + req.params.bytesTotal.toNat ≤ 2 ^ 32
  windows : FitsWindows env req mapInfo
  distinct : (targets req.params mapInfo).Nodup

theorem generated_active {obj : ℕ} {prep : TpceDmaInfo} (hacc : Initialized env dev c req obj mapInfo prep info dev₁)
    (hnone : req.descriptors = 0) : ∃ ds maxDescriptors ret out,
      tpceGenerateDescriptors req.params mapInfo ds maxDescriptors = .ok (ret, out) ∧ 0 ≤ ret ∧
        (dev₁.dmaInfo c).active = out.take ret.toNat := by
  rw [active_of_initialized hacc]
  cases hacc.prepared with
  | user buf filled _ huser => exact absurd hnone huser
  | generated buf filled _ _ halloc hgen hcopy =>
      obtain ⟨hcopied, -, -⟩ := copyToDma_ok hcopy
      obtain ⟨-, ret, desc, hdesc, hret, rfl⟩ := generateDesc_ok hgen
      obtain ⟨rfl, hmax, -⟩ := tpceGenerateDescriptors_reach hdesc hret
      refine ⟨_, _, _, desc, hdesc, hret, hcopied.trans ?_⟩
      have hroom := (descAllocSize req).isLt
      rw [toNat_div_descriptorSize] at hmax
      have hcount : (BitVec.ofInt 32 (plannedCount req.params mapInfo) * descriptorSize).toNat =
          plannedCount req.params mapInfo % 2 ^ 32 * 64 % 2 ^ 32 := by
        rw [BitVec.toNat_mul, BitVec.ofInt_natCast, BitVec.toNat_ofNat]
        rfl
      simp only [TpceDmaInfo.active, toNat_div_descriptorSize, hcount, Int.toNat_natCast]
      exact congrArg (List.take · desc) (by omega)

theorem PlainRead.planned (h : PlainRead env req mapInfo chInfo) : plannedCount req.params mapInfo =
    (pieces 262144 (partsFrom req.params mapInfo (ranges mapInfo))).length := by
  have hsum : (partLengths req.params mapInfo).sum = req.params.bytesTotal.toNat := by
    rw [← List.map_id (partLengths req.params mapInfo)]
    exact (sum_partLengths rfl h.sized.indexed).trans (partsFrom_tiles h.sized h.inside).1
  have hbound := h.bounded
  have hall : ∀ n ∈ partLengths req.params mapInfo, n + 262143 < 2 ^ 32 := fun n hn => by
    have hle := List.single_le_sum (fun _ _ => Nat.zero_le _) n hn
    omega
  rw [plannedCount_flexible h.flexible h.sized.indexed, countedPieces_eq_iff.mpr hall, pieceLengths,
    flatMap_partLengths (cut_zero _) h.sized.indexed, ← map_snd_pieces, List.length_map]

/-- The bytes that a descriptor with its own addresses moves, one after the other -/
def plainBytes (desc : TpceDmaDescriptor) : List (U64 × ℕ) :=
  (List.range desc.transferLength.toNat).map fun i => (i +ᵥ tpceDescGetWrite desc, (tpceDescGetRead desc).toNat + i)

/-- The places of the descriptors are the ones of the transfer. -/
theorem PlainRead.places (h : PlainRead env req mapInfo chInfo) {obj : ℕ} {prep : TpceDmaInfo}
    (hacc : Initialized env dev c req obj mapInfo prep info dev₁) :
    ((dev₁.dmaInfo c).active.flatMap plainBytes).map Prod.fst = targets req.params mapInfo := by
  obtain ⟨ds, maxDescriptors, ret, out, hgen, hret, hactive⟩ := generated_active hacc h.generated
  obtain ⟨rfl, hintervals⟩ := generated_flexible h.flexible hgen hret
  rw [h.planned, Int.toNat_natCast, List.take_length] at hintervals
  rw [h.planned, Int.toNat_natCast] at hactive
  obtain ⟨-, htiles⟩ := partsFrom_tiles h.sized h.inside
  rw [pieceLength_flexible h.flexible, ← hintervals, ← hactive] at htiles
  have hcovered := places_of_tiles htiles
  rw [Nat.add_sub_cancel_left] at hcovered
  refine Eq.trans ?_ hcovered
  rw [Library.Moves.places, List.map_flatMap, List.flatMap_map]
  refine List.flatMap_congr fun desc _ => ?_
  rw [plainBytes, List.map_map, hostInterval, hostAddr, if_pos h.direction]
  rfl

/-- The descriptors read the transfer's bytes of the device in their order. -/
theorem PlainRead.sources (h : PlainRead env req mapInfo chInfo) {obj : ℕ} {prep : TpceDmaInfo}
    (hacc : Initialized env dev c req obj mapInfo prep info dev₁) :
    ((dev₁.dmaInfo c).active.flatMap plainBytes).map Prod.snd =
      starts 1 1 req.params.deviceAddr.toNat req.params.bytesTotal.toNat := by
  obtain ⟨ds, maxDescriptors, ret, out, hgen, hret, hactive⟩ := generated_active hacc h.generated
  have hread := generated_device h.direction h.channel h.memory h.flexible hgen hret
  have hpos := generated_positive h.flexible hgen hret
  obtain ⟨rfl, hintervals⟩ := generated_flexible h.flexible hgen hret
  rw [h.planned, Int.toNat_natCast] at hactive hread hpos hintervals
  rw [List.take_length] at hintervals
  rw [← hactive] at hread hpos hintervals
  have hsum : ((dev₁.dmaInfo c).active.map readLength).sum = req.params.bytesTotal.toNat := by
    obtain ⟨-, htiles⟩ := partsFrom_tiles h.sized h.inside
    rw [pieceLength_flexible h.flexible, ← hintervals] at htiles
    have htotal := htiles.sum
    rw [List.map_map] at htotal
    exact Nat.add_left_cancel htotal
  have hlens : ∀ l ∈ (dev₁.dmaInfo c).active.map readLength, 0 < l := List.forall_mem_map.mpr hpos
  have hcontinues : Continues 1 req.params.deviceAddr req.params.deviceAddr.toNat
      ((dev₁.dmaInfo c).active.map readLength) := by
    refine (continues_iff le_rfl hlens _).mpr ?_
    rcases List.eq_nil_or_concat ((dev₁.dmaInfo c).active.map readLength) with hnil | ⟨front, last, hlast⟩
    · exact .inl (by rw [hnil]; exact Nat.zero_le 1)
    · have hdevice := h.device
      have hpositive := hlens last (by rw [hlast]; simp)
      rw [hlast] at hsum ⊢
      rw [List.concat_eq_append, List.sum_append, List.sum_singleton] at hsum
      rw [List.concat_eq_append, List.dropLast_concat]
      exact .inr ⟨rfl, by omega⟩
  have hstarts := (starts_layout_iff (w := 1) Nat.one_pos hlens (fun l _ => Nat.one_dvd l) _ _).mpr hcontinues
  rw [hsum, Nat.div_one] at hstarts
  rw [← hstarts, List.map_flatMap]
  have hlayout := congrArg (List.flatMap fun p => starts 1 1 p.1.toNat p.2) hread
  rw [List.flatMap_map, List.flatMap_map] at hlayout
  have hplain : (dev₁.dmaInfo c).active.flatMap (fun desc => (plainBytes desc).map Prod.snd) =
      (dev₁.dmaInfo c).active.flatMap fun desc => starts 1 1 (readInterval desc).1.toNat (readInterval desc).2 := by
    refine List.flatMap_congr fun desc _ => ?_
    rw [plainBytes, List.map_map, starts]
    refine List.map_congr_left fun i _ => ?_
    rw [Nat.mul_one, Nat.mul_one]
    rfl
  rw [hplain, hlayout]
  refine List.flatMap_congr fun p _ => ?_
  have hsmall : (p.1.setWidth 64).toNat = p.1.toNat := by
    rw [BitVec.toNat_setWidth]
    omega
  rw [deviceSide, hsmall, Nat.div_one]

/-- A descriptor that leads home moves the bytes it was generated for. -/
theorem bytesMoved_eq {desc given : TpceDmaDescriptor} (hpayload : payload desc = payload given)
    (hroute : decode written (tpceDescGetWrite desc) = some (tpceDescGetWrite given))
    (hwindow : InWindow (tpceDescGetWrite given, given.transferLength.toNat))
    (hread : wordStride chInfo given.readStride = 1) (hwrite : wordStride chInfo given.writeStride = 1) :
    bytesMoved written chInfo desc = plainBytes given := by
  obtain ⟨hinterval, hstrides⟩ := Prod.mk.inj hpayload
  obtain ⟨haddr, hlen⟩ := Prod.mk.inj hinterval
  obtain ⟨hreadStride, hwriteStride⟩ := Prod.mk.inj hstrides
  simp only [bytesMoved, plainBytes, hlen, haddr, hreadStride, hwriteStride, hread, hwrite, byteOffset_one]
  rw [← List.filterMap_eq_map]
  refine List.filterMap_congr fun i hi => ?_
  rw [decode_byte hroute hwindow (List.mem_range.mp hi)]
  rfl

theorem PlainRead.inWindow (h : PlainRead env req mapInfo chInfo) {obj : ℕ} {prep : TpceDmaInfo}
    (hacc : Initialized env dev c req obj mapInfo prep info dev₁) : ∀ desc ∈ (dev₁.dmaInfo c).active,
      InWindow (tpceDescGetWrite desc, desc.transferLength.toNat) := by
  have hfits := h.windows
  simp only [FitsWindows] at hfits
  rw [if_neg (not_not.mpr h.generated)] at hfits
  have hall := (forall_active_iff (.inr h.direction) (xaLoad_of_initialized hacc) hacc.accepted (Int.natCast_nonneg _)
    fun a l _ => InWindow (a, l)).mpr (by
      rw [ForDescriptors, if_neg (not_not.mpr h.generated)]
      exact fun s hs => (inWindow_stretch (pieceLength_pos req.params) s.1 s.2).mpr (hfits s hs))
  intro desc hdesc
  have hin := hall desc hdesc
  rw [hostAddr, if_pos h.direction] at hin
  exact hin

theorem PlainRead.wordStrides (h : PlainRead env req mapInfo chInfo) {obj : ℕ} {prep : TpceDmaInfo}
    (hacc : Initialized env dev c req obj mapInfo prep info dev₁) {desc : TpceDmaDescriptor}
    (hdesc : desc ∈ (dev₁.dmaInfo c).active) :
    wordStride chInfo desc.readStride = 1 ∧ wordStride chInfo desc.writeStride = 1 := by
  rcases h.strides with hnone | ⟨hread, hwrite⟩
  · exact ⟨if_pos hnone, if_pos hnone⟩
  · obtain ⟨ds, maxDescriptors, ret, out, hgen, hret, hactive⟩ := generated_active hacc h.generated
    obtain ⟨rfl, -, -, hstrides⟩ := tpceGenerateDescriptors_reach hgen hret
    rw [hactive, Int.toNat_natCast] at hdesc
    obtain ⟨hreadStride, hwriteStride⟩ := hstrides desc hdesc
    rw [hreadStride, hwriteStride, hread, hwrite]
    constructor
    · rw [wordStride]
      exact ite_self _
    · rw [wordStride]
      exact ite_self _

/-- The registers of a running channel name its first descriptor. -/
theorem firstDescriptor_of_programmed (h : ∀ w ∈ controllerRegs c info, writtenValue written w.1 = some w.2) :
    firstDescriptor written c = some (linkTo info 0) := by
  have hcontrol := h (tpceDmaPrefetcherCsr c.id altMsgdmaPrefetcherControlReg,
    controlValue info.params ||| prefetcherCtrlRunSetMask) (by simp [controllerRegs])
  have hlow := h (tpceDmaPrefetcherCsr c.id altMsgdmaPrefetcherNextDescriptorPtrLowReg,
    info.descBusAddrTranslated) (by simp [controllerRegs])
  have hhigh := h (tpceDmaPrefetcherCsr c.id altMsgdmaPrefetcherNextDescriptorPtrHighReg, 0)
    (by simp [controllerRegs])
  have hruns : (controlValue info.params ||| prefetcherCtrlRunSetMask) &&& prefetcherCtrlRunSetMask ≠ 0 := by
    simp only [controlValue]
    split
    · decide
    · decide
  have hcombine : combine 0 info.descBusAddrTranslated = linkTo info 0 := by
    rw [linkTo_zero]
    simp [combine]
  dsimp only at hcontrol hlow hhigh
  simp only [firstDescriptor, bind, hcontrol, hlow, hhigh, Option.bind_some]
  rw [if_neg hruns, hcombine]
  rfl

/-- Two lists of descriptors, of which the one does through the registers what the
other one was generated for -/
theorem flatMap_bytesMoved {descs given : List TpceDmaDescriptor} (hpayload : descs.map payload = given.map payload)
    (hroutes : (descs.map fun desc => decode written (tpceDescGetWrite desc)) =
      given.map fun desc => some (tpceDescGetWrite desc))
    (hwindow : ∀ desc ∈ given, InWindow (tpceDescGetWrite desc, desc.transferLength.toNat))
    (hstrides : ∀ desc ∈ given, wordStride chInfo desc.readStride = 1 ∧ wordStride chInfo desc.writeStride = 1) :
    descs.flatMap (bytesMoved written chInfo) = given.flatMap plainBytes := by
  induction descs generalizing given with
  | nil =>
      cases given with
      | nil => rfl
      | cons desc rest => cases hpayload
  | cons desc descs ih =>
      cases given with
      | nil => cases hpayload
      | cons given rest =>
          obtain ⟨hhead, htail⟩ := List.cons.inj hpayload
          obtain ⟨hroute, hroutes⟩ := List.cons.inj hroutes
          obtain ⟨hfirst, hwindow⟩ := List.forall_mem_cons.mp hwindow
          obtain ⟨⟨hread, hwrite⟩, hstrides⟩ := List.forall_mem_cons.mp hstrides
          rw [List.flatMap_cons, List.flatMap_cons, bytesMoved_eq hhead hroute hfirst hread hwrite,
            ih htail hroutes hwindow hstrides]

/-- From the registers on, the prefetcher of a default transfer hands over its active
descriptors. -/
theorem prefetch_of_launched {launched : TpceDmaInfo} (hl : Launched dev₁ c dev₂ launched slot)
    (hchannel : (dev₁.dmaInfo c).params.channel = c.id)
    (hmode : (dev₁.dmaInfo c).params.transferMode ≠ tpceDmaModeStream) (hbuf : Buffered placed (dev₁.dmaInfo c))
    (hsized : DescriptorBuffers.Sized (dev₁.dmaInfo c).params (dev₁.dmaInfo c)) (hone : OneWindow launched)
    (htable : ∀ w ∈ setPageTranslationRegs dev₂.pageTable c.id, writtenValue written w.1 = some w.2) :
    prefetch written (dev₂.dmaInfo c) (numDescriptors launched) (linkTo launched 0) =
      some ((buildDescriptorLinks launched).descDma.take (activeCount (dev₁.dmaInfo c))) := by
  have howned := hl.owned
  rw [hchannel] at howned
  have hplain : launched.params.transferMode ≠ tpceDmaModeStream := by
    rw [hl.kept]
    exact hmode
  have hlen : launched.descDma.length = (dev₁.dmaInfo c).descDma.length := by
    have hmapped := congrArg List.length hl.payloads
    rwa [List.length_map, List.length_map] at hmapped
  have hsize : launched.descSize = (dev₁.dmaInfo c).descSize := by rw [hl.kept]
  have hnum : numDescriptors launched = launched.descSize.toNat / 64 := toNat_div_descriptorSize _
  have hcount : activeCount (dev₁.dmaInfo c) = (dev₁.dmaInfo c).descActive.toNat / 64 := toNat_div_descriptorSize _
  have hsum := hsized.size
  rw [tpceDmaHasTerminatingDescriptor, if_pos (decide_eq_true hmode)] at hsum
  have hholds : Holds launched := by
    have hfits := BitVec.le_def.mp hsized.fits
    have hdma := hbuf.descDma
    have hbound := hbuf.bounded
    rw [← hsize] at hfits hsum
    exact ⟨by omega, by omega, by omega⟩
  have hsome := hholds.some
  have hlast : numDescriptors launched - 1 + 1 = numDescriptors launched := by omega
  have hlinks := prefetch_links hl.linked howned hone hholds hplain (k := numDescriptors launched - 1) (i := 0)
    (by omega)
  rw [List.drop_zero, hlast] at hlinks
  have hcongr : prefetch written (dev₂.dmaInfo c) (numDescriptors launched) (linkTo launched 0) =
      prefetch written (buildDescriptorLinks launched) (numDescriptors launched) (linkTo launched 0) :=
    prefetch_congr (by rw [hl.result]) (by rw [hl.result]) _ _
  have hactive : numDescriptors launched - 1 = activeCount (dev₁.dmaInfo c) := by
    rw [hsize] at hnum
    omega
  rw [hcongr, prefetch_of_written htable hlinks, hactive]

/-- What the controller does for a request that has started, whenever the registers are
still programmed for it -/
theorem transferred_of_start (h : PlainRead env req mapInfo chInfo) {obj : ℕ} {prep : TpceDmaInfo}
    (hc : c.val = req.params.channel.toNat) (hidle : (dev.dmaInfo c).state = .idle) (hclean : CleanAt dev c)
    (hacc : Initialized env dev c req obj mapInfo prep info dev₁) (hbuf : Buffered placed (dev₁.dmaInfo c))
    (hsized : DescriptorBuffers.Sized req.params (dev₁.dmaInfo c))
    (hdisp : ChannelControl.dmaDispatch env dev₁ c = (0, dev₂)) (hpages : PagesInPlace (dev₁.dmaInfo c))
    (hone : OneWindow (dev₂.dmaInfo c)) (hwritten : ∀ w ∈ programmed dev₂ c, writtenValue written w.1 = some w.2)
    (device : Bytes) (host : U64 → Byte) :
    transferred written c (dev₂.dmaInfo c) chInfo device host =
      some (moved device ((dev₁.dmaInfo c).active.flatMap plainBytes) host) := by
  obtain ⟨launched, slot, hlaunched⟩ := launched_of_dispatch hdisp
  have hresult := hlaunched.result
  have hkept := hlaunched.kept
  have hparams : (dev₁.dmaInfo c).params = req.params := initialized_params hacc
  have hmode : (dev₁.dmaInfo c).params.transferMode ≠ tpceDmaModeStream := by
    rw [hparams, h.mode]
    decide
  have hactive : launched.descActive = (dev₁.dmaInfo c).descActive := by rw [hkept]
  have hone : OneWindow launched := by
    rw [hresult] at hone
    exact hone
  -- the prefetcher, from the registers
  have hfirst : firstDescriptor written c = some (linkTo launched 0) := by
    have hregs := firstDescriptor_of_programmed fun w hw => hwritten w (List.mem_append_right _ hw)
    rw [hresult] at hregs
    exact hregs
  have htable : ∀ w ∈ setPageTranslationRegs dev₂.pageTable c.id, writtenValue written w.1 = some w.2 :=
    fun w hw => hwritten w (List.mem_append_left _ hw)
  have hfetched := prefetch_of_launched hlaunched (by rw [hparams, channel_id hc]) hmode hbuf
    (by rw [hparams]; exact hsized) hone htable
  -- the core, descriptor by descriptor
  have hhome := (leadsHome_of_start hc hidle hclean hacc hsized hdisp hpages).written htable
  have hdescs : (dev₂.dmaInfo c).active = (dev₁.dmaInfo c).active := by
    rw [hresult, hkept]
    rfl
  have hdma : (dev₂.dmaInfo c).descDma.take (activeCount (dev₂.dmaInfo c)) =
      (buildDescriptorLinks launched).descDma.take (activeCount (dev₁.dmaInfo c)) := by
    rw [hresult, activeCount, activeCount, ← hactive]
    rfl
  have hcountLaunched : activeCount launched = activeCount (dev₁.dmaInfo c) := by
    rw [activeCount, activeCount, hactive]
  have hparamsLaunched : launched.params = req.params := by rw [hkept, ← hparams]
  have hsizedLaunched : DescriptorBuffers.Sized req.params launched := by
    rw [hkept]
    exact ⟨hsized.active, hsized.size, hsized.fits⟩
  have hmoves : ((buildDescriptorLinks launched).descDma.take (activeCount (dev₁.dmaInfo c))).flatMap
      (bytesMoved written chInfo) = (dev₁.dmaInfo c).active.flatMap plainBytes := by
    refine flatMap_bytesMoved ?_ ?_ (h.inWindow hacc) fun desc hdesc => h.wordStrides hacc hdesc
    · have hlinked := links_keep_active payload_linkDesc hsizedLaunched hparamsLaunched
      rw [← hcountLaunched, ← copied_active hacc hsized, hlinked, ← hcountLaunched, List.map_take, List.map_take,
        hlaunched.payloads]
    · rw [← hdma]
      simp only [LeadsHome, hdescs] at hhome
      exact hhome
  have hsame : numDescriptors (dev₂.dmaInfo c) = numDescriptors launched := by
    rw [hresult]
    rfl
  simp only [transferred, bind, hfirst, Option.bind_some, hsame, hfetched, hmoves]
  rfl

variable {m m' m₁ m₂ : Machine} {op : MachineOp} {ops pre post : List MachineOp}

/-- A request that is validated while its channel is idle, and runs behind the call, was
started by it. -/
theorem starts_of_validated {polls : Polls} {op : Op} (h : Guided m) (hop : Undisturbed m (.call polls op))
    (hstep : m.step (.call polls op) = some m₁) (hvalid : validatedRequest m.dev op = some (env, req))
    (hc : c.val = req.params.channel.toNat) (hafter : (m₁.dev.dmaInfo c).state = .running) :
    ∃ t, Starts env req m.dev t m₁.dev c := by
  obtain ⟨hen, out, t, hrun, -⟩ := step_call hstep
  rcases call_cases h.sound.owned hen hop hrun with hs | ⟨env', req', c', hvalid', hs⟩
  · obtain ⟨fileCtx, c', mapInfo, hreq⟩ := validatedRequest_valid hvalid
    have hidle := hreq.idle
    obtain rfl : c' = c := Fin.ext (hreq.channel.trans hc.symm)
    rw [(hs.goesOn c' hafter).before] at hidle
    cases hidle
  · rw [hvalid] at hvalid'
    cases hvalid'
    obtain rfl : c' = c := Fin.ext (hs.request.trans hc.symm)
    exact ⟨t, hs⟩

theorem targets_getElem (h : PlainRead env req mapInfo chInfo) {j : ℕ} (hj : j < req.params.bytesTotal.toNat) :
    ∃ a, (hostBytes mapInfo)[req.params.mapOffset.toNat + j]? = some a ∧
      (targets req.params mapInfo)[j]? = some a := by
  have hlen : (hostBytes mapInfo).length = mapInfo.size.toNat := by
    rw [hostBytes, length_places, segments, List.map_map]
    exact h.sized.total
  have hinside := h.inside
  obtain ⟨a, ha⟩ : ∃ a, (hostBytes mapInfo)[req.params.mapOffset.toNat + j]? = some a :=
    ⟨_, List.getElem?_eq_getElem (by omega)⟩
  exact ⟨a, ha, by rw [targets, List.getElem?_take_of_lt hj, List.getElem?_drop, ha]⟩

theorem nodup_stretch {p : U64 × ℕ} (h : p.2 ≤ 2 ^ 64) : (stretch p).Nodup := by
  refine List.Nodup.map_on (fun i hi j hj heq => ?_) List.nodup_range
  rw [List.mem_range] at hi hj
  have hnat := congrArg BitVec.toNat heq
  rw [toNat_vadd, toNat_vadd] at hnat
  omega

def readChannel : TpceDmaChannelInfo := ⟨8#32, 262144#32, 0#32, 32#8, false, false⟩

theorem twoPageRead_plain : PlainRead .granted (twoPageRead.request readChannel) (driverBuffer driverTable)
    readChannel where
  generated := rfl
  flexible := rfl
  mode := rfl
  direction := rfl
  channel := rfl
  memory := rfl
  strides := .inl rfl
  sized := ⟨by decide, by decide⟩
  inside := by decide
  bounded := by decide
  device := by decide
  windows := by
    have hreach : requestReach (twoPageRead.request readChannel).params (driverBuffer driverTable) =
        [(0x8000000#64, 0x40040)] := by decide +kernel
    have hstart : (0x8000000#64).toNat = 512 * alteraAddrPageSizeBytes := by decide
    simp only [FitsWindows]
    rw [if_neg (by decide), hreach]
    intro s hs j hlo hhi
    obtain rfl := List.mem_singleton.mp hs
    have hlength : pieceLength (twoPageRead.request readChannel).params = alteraAddrPageSizeBytes := by decide
    rw [hstart, hlength]
    exact Nat.dvd_sub (Nat.dvd_mul_left _ _) (Nat.dvd_mul_left _ _)
  distinct := by
    have hone : hostBytes (driverBuffer driverTable) = stretch (0x8000000#64, 0x100000) :=
      List.append_nil _
    rw [targets, hone]
    exact (nodup_stretch (by decide)).sublist ((List.take_sublist _ _).trans (List.drop_sublist _ _))

theorem validatedRequest_read {dev : TpceDev} (h : validateDmaRequest dev (twoPageRead.request readChannel) none = 0) :
    validatedRequest dev (.kernelRead 0 .granted twoPageRead) = some (.granted, twoPageRead.request readChannel) := by
  have hfits : twoPageRead.bytesTotal ≤ tpceDmaDriverBufferSize := by decide
  have hinfo : channelInfo twoPageRead.channel = .ok readChannel := rfl
  simp only [validatedRequest, hinfo]
  exact if_pos ⟨hfits, h⟩

end TpceDrv.DataMovement
