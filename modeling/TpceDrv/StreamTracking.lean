import TpceDrv.ActiveDescriptors
import TpceDrv.StreamIrq

namespace TpceDrv.StreamTracking

open Descriptor DmaParams DmaInfo Mapping Device DescriptorCheck Generation Reach Planning StreamIrq
open ChannelControl ChannelSteps Requests RequestSteps ActiveDescriptors Library Library.Rings

variable {env : InitEnv} {dev dev' : TpceDev} {c : Channel} {n : ℕ} {req : TpceDmaRequest}
variable {params : TpceDmaTransferParams} {mapInfo : TpceDmaMapInfo} {info info' : TpceDmaInfo}

/-- A stream request with generated descriptors that `init_dma_info` accepts -/
structure AcceptedStream (env : InitEnv) (dev : TpceDev) (c : Channel) (req : TpceDmaRequest)
    (mapInfo : TpceDmaMapInfo) (dev' : TpceDev) : Prop where
  accepted : initDmaInfo env dev c req = .ok (c.val, dev')
  loaded : xaLoad dev req.id = some mapInfo
  stream : req.params.transferMode = tpceDmaModeStream
  generated : req.descriptors = 0

/-- A stream in front of its first interrupt, with the descriptors that the
generator makes for the request -/
structure FreshStream (dev : TpceDev) (c : Channel) (params : TpceDmaTransferParams)
    (mapInfo : TpceDmaMapInfo) : Prop where
  requested : (dev.dmaInfo c).params = params
  size : (dev.dmaInfo c).descSize.toNat = plannedCount params mapInfo * 64
  buffer : plannedCount params mapInfo ≤ (dev.dmaInfo c).desc.length
  intervals : ((dev.dmaInfo c).desc.take (plannedCount params mapInfo)).map (hostInterval params.direction) =
    pieces (pieceLength params) (requestReach params mapInfo)
  state : (dev.dmaInfo c).streamInfo.state = some ⟨0, 0⟩
  mask : (dev.dmaInfo c).streamInfo.numDescMask =
    if isPowerOf2 ((dev.dmaInfo c).descSize / descriptorSize) then (dev.dmaInfo c).descSize / descriptorSize - 1
    else 0
  index : (dev.dmaInfo c).streamInfo.writeSeqNum = 0
  mapping : ∃ obj mapInfo, (dev.dmaInfo c).mapInfo = some obj ∧ dev.mapInfos obj = some mapInfo

theorem initStreamInfo_indices {vmallocOk : Bool} (h : tpceInitStreamInfo vmallocOk info = (0, info')) :
    info'.streamInfo.writeSeqNum = 0 ∧ info'.streamInfo.numDescMask =
      if isPowerOf2 (info.descSize / descriptorSize) then info.descSize / descriptorSize - 1 else 0 := by
  simp only [tpceInitStreamInfo] at h
  split at h
  · split at h
    · cases h
      exact ⟨rfl, rfl⟩
    · cases h
  · cases h
    exact ⟨rfl, rfl⟩

theorem prepared_generated (h : Prepared env mapInfo req info info') (hnull : req.descriptors = 0)
    (hlast : tpceDmaHasTerminatingDescriptor req.params = false) :
    info'.descSize.toNat = plannedCount req.params mapInfo * 64 ∧
      plannedCount req.params mapInfo ≤ info'.desc.length ∧
      (info'.desc.take (plannedCount req.params mapInfo)).map (hostInterval req.params.direction) =
        pieces (pieceLength req.params) (requestReach req.params mapInfo) := by
  cases h with
  | user buf filled _ huser halloc htake hcopy => exact absurd hnull huser
  | generated buf filled _ _ halloc hgen hcopy =>
      obtain ⟨-, hsize, hdesc⟩ := copyToDma_ok hcopy
      have hcount := (generated_of_ok hgen).size hlast
      obtain ⟨-, ret, desc, hok, hret, rfl⟩ := generateDesc_ok hgen
      obtain ⟨-, -, hintervals, -⟩ := tpceGenerateDescriptors_reach hok hret
      rw [hsize, hdesc]
      exact ⟨hcount, (tpceGenerateDescriptors_length hok).2 hret, hintervals⟩

theorem AcceptedStream.fresh (h : AcceptedStream env dev c req mapInfo dev') :
    FreshStream dev' c req.params mapInfo := by
  obtain ⟨hneg, -⟩ | ⟨-, obj, m, prep, info, hacc⟩ := initDmaInfo_cases h.accepted
  · omega
  obtain rfl := Option.some.inj ((xaLoad_of_initialized hacc).symm.trans h.loaded)
  have hlast : tpceDmaHasTerminatingDescriptor req.params = false := by
    simp [tpceDmaHasTerminatingDescriptor, h.stream]
  obtain ⟨hsize, hbuffer, hintervals⟩ := prepared_generated hacc.prepared h.generated hlast
  have hinit := hacc.stream h.stream
  obtain ⟨hindex, hmask⟩ := initStreamInfo_indices hinit
  obtain ⟨hneg, -⟩ | ⟨-, hstate, -, hinfo⟩ := initStreamInfo_spec hinit
  · omega
  have hdescSize : info.descSize = prep.descSize := by rw [hinfo]
  have hdesc : info.desc = prep.desc := by rw [hinfo]
  have hchannel := initialized_info hacc
  constructor
  case mapping =>
      refine ⟨obj, { m with activeChannel := c.val }, ?_, ?_⟩
      · rw [hchannel]
        rfl
      · rw [hacc.result]
        exact Function.update_self ..
  all_goals rw [hchannel]
  · rfl
  · exact hdescSize ▸ hsize
  · exact hdesc ▸ hbuffer
  · exact hdesc ▸ hintervals
  · exact hstate
  · exact hdescSize ▸ hmask
  · exact hindex

theorem FreshStream.dispatch (h : FreshStream dev c params mapInfo)
    (hinit : (dev.dmaInfo c).state = .initialized) :
    FreshStream (dmaDispatch env dev c).2 c params mapInfo := by
  obtain ⟨descDma, translated, state, hinfo, -⟩ := dmaDispatch_info env dev c
  have hdesc := congrArg TpceDmaInfo.desc hinfo
  cases hdisp : dmaDispatch env dev c with
  | mk ret dev' =>
      rw [hdisp] at hdesc
      obtain ⟨table, info', rfl, hsame, hsize, -⟩ := dmaDispatch_spec hinit hdisp
      have hchannel := setInfo_dmaInfo { dev with pageTable := table, fastIrqMask := startMask dev c } c info'
      obtain ⟨obj, m, hobj, hlive⟩ := h.mapping
      rw [hchannel] at hdesc
      constructor
      case mapping =>
          refine ⟨obj, m, ?_, hlive⟩
          rw [hchannel, hsame.mapInfo, hobj]
      all_goals rw [hchannel]
      · rw [hsame.params, h.requested]
      · rw [hsize, h.size]
      · rw [hdesc]
        exact h.buffer
      · rw [hdesc]
        exact h.intervals
      · rw [hsame.streamInfo, h.state]
      · rw [hsame.streamInfo, hsize, h.mask]
      · rw [hsame.streamInfo, h.index]

theorem AcceptedStream.dispatched (h : AcceptedStream env dev c req mapInfo dev') (env' : InitEnv) :
    FreshStream (dmaDispatch env' dev' c).2 c req.params mapInfo := by
  obtain ⟨hneg, -⟩ | ⟨-, obj, m, prep, info, hacc⟩ := initDmaInfo_cases h.accepted
  · omega
  · exact h.fresh.dispatch (initialized_state hacc)

theorem FreshStream.ring (h : FreshStream dev c params mapInfo) (hpos : plannedCount params mapInfo ≠ 0) :
    Ring dev c (plannedCount params mapInfo) where
  positive := Nat.pos_of_ne_zero hpos
  size := h.size
  buffer := h.buffer
  state := by
    rw [h.state]
    exact Option.some_ne_none _
  mask := h.mask
  index := by
    rw [h.index]
    exact Nat.pos_of_ne_zero hpos
  mapping := h.mapping

/-- A channel and how the invocations of its handler have ended so far -/
structure History where
  dev : TpceDev
  outcomes : List StreamIrqOutcome

def History.syncs (hist : History) : List SyncForCpu := hist.outcomes.flatMap StreamIrqOutcome.syncs

/-- One invocation, with the value of the sequence number register. -/
def invoke (c : Channel) (hist : History) (seqNums : U32) : Option History :=
  (dmaStreamIrqHandler hist.dev c seqNums).toOption.map fun r => ⟨r.2, hist.outcomes ++ [r.1]⟩

/-- What the hardware does between two invocations -/
structure Advance where
  completions : ℕ
  readSeqNum : U16

/-- The register behind `k` completions on a ring of `n`: the write sequence
number is in the upper half. -/
def register (n k : ℕ) (readSeqNum : U16) : U32 := BitVec.ofNat 16 (k % n) ++ readSeqNum

def registers (n : ℕ) : ℕ → List Advance → List U32
  | _, [] => []
  | k, a :: advances =>
      register n (k + a.completions) a.readSeqNum :: registers n (k + a.completions) advances

/-- The sequence number has 16 bits. -/
theorem register_upper (n k : ℕ) (readSeqNum : U16) : (register n k readSeqNum).toNat / 2 ^ 16 = k % n % 2 ^ 16 := by
  have hlow := readSeqNum.isLt
  have happend : (register n k readSeqNum).toNat = k % n % 2 ^ 16 * 2 ^ 16 + readSeqNum.toNat := by
    rw [register, BitVec.toNat_append, ← Nat.shiftLeft_add_eq_or_of_lt hlow, Nat.shiftLeft_eq, BitVec.toNat_ofNat]
  omega

theorem register_high {k : ℕ} (hpos : 0 < n) (hn : n ≤ 4096) (readSeqNum : U16) :
    (register n k readSeqNum).toNat / 2 ^ 16 = k % n := by
  have hk := Nat.mod_lt k hpos
  rw [register_upper, Nat.mod_eq_of_lt (by omega)]

/-- The driver has followed the hardware through `k` completions. -/
structure Tracks (c : Channel) (n k : ℕ) (hist : History) : Prop where
  ring : Ring hist.dev c n
  index : (hist.dev.dmaInfo c).streamInfo.writeSeqNum.toNat = k % n
  processed : ∀ outcome ∈ hist.outcomes, ∃ syncs, outcome = .processed syncs
  order : hist.syncs.map (fun sync => sync.descIdx.toNat) = visits n 0 k

theorem Tracks.invoke {k : ℕ} {hist : History} (h : Tracks c n k hist) (hn : n ≤ 4096) {a : Advance}
    (ha : a.completions < n) : ∃ hist',
      StreamTracking.invoke c hist (register n (k + a.completions) a.readSeqNum) = some hist' ∧
        Tracks c n (k + a.completions) hist' := by
  obtain ⟨state, newSeqNum, processed, syncs, -, hhandler, hnew, hprocessed, hvisits, -⟩ :=
    h.ring.handler (register n (k + a.completions) a.readSeqNum)
  rw [register_high h.ring.positive hn, Nat.mod_mod] at hnew
  rw [h.index, hnew, distance_mod ha] at hprocessed
  have hlt : newSeqNum.toNat < n := hnew ▸ Nat.mod_lt _ h.ring.positive
  refine ⟨_, by rw [StreamTracking.invoke, hhandler]; rfl, h.ring.afterIrq hlt, ?_, ?_, ?_⟩
  · dsimp only
    rw [setInfo_dmaInfo]
    exact hnew
  · intro outcome hmem
    rcases List.mem_append.mp hmem with hmem | hmem
    · exact h.processed outcome hmem
    · exact ⟨syncs, List.mem_singleton.mp hmem⟩
  · have hsyncs : (hist.outcomes ++ [StreamIrqOutcome.processed syncs]).flatMap StreamIrqOutcome.syncs =
        hist.syncs ++ syncs := by
      rw [List.flatMap_append]
      simp only [List.flatMap_singleton]
      rfl
    rw [History.syncs, hsyncs, List.map_append, h.order, hvisits, hprocessed, h.index,
      visits_congr (Nat.mod_mod k n), ← visits_append n 0 k, Nat.zero_add]

theorem Tracks.run {k : ℕ} {hist : History} (h : Tracks c n k hist) (hn : n ≤ 4096) (advances : List Advance)
    (hless : ∀ a ∈ advances, a.completions < n) : ∃ hist',
      Runs.run (StreamTracking.invoke c) hist (registers n k advances) = some hist' ∧
        Tracks c n (k + (advances.map Advance.completions).sum) hist' := by
  induction advances generalizing k hist with
  | nil => exact ⟨hist, rfl, h⟩
  | cons a advances ih =>
      obtain ⟨ha, hrest⟩ := List.forall_mem_cons.mp hless
      obtain ⟨hist₁, hinvoke, h₁⟩ := h.invoke hn ha
      obtain ⟨hist₂, hrun, h₂⟩ := ih h₁ hrest
      refine ⟨hist₂, ?_, ?_⟩
      · rw [registers, Runs.run, hinvoke]
        exact hrun
      · rw [List.map_cons, List.sum_cons, ← Nat.add_assoc]
        exact h₂

/-- Behind any number of invocations the driver has processed the completed
descriptors once each, in ring order, and its index is where the hardware is. -/
theorem index_tracking (h : Ring dev c n) (hn : n ≤ 4096)
    (hstart : (dev.dmaInfo c).streamInfo.writeSeqNum = 0) (advances : List Advance)
    (hless : ∀ a ∈ advances, a.completions < n) : ∃ hist,
      Runs.run (invoke c) ⟨dev, []⟩ (registers n 0 advances) = some hist ∧
      (∀ outcome ∈ hist.outcomes, ∃ syncs, outcome = .processed syncs) ∧
      (hist.dev.dmaInfo c).streamInfo.writeSeqNum.toNat = (advances.map Advance.completions).sum % n ∧
      hist.syncs.map (fun sync => sync.descIdx.toNat) = visits n 0 (advances.map Advance.completions).sum ∧
      ∀ sync ∈ hist.syncs, sync.descIdx.toNat < n := by
  have hindex : (dev.dmaInfo c).streamInfo.writeSeqNum.toNat = 0 % n := by
    rw [hstart, Nat.zero_mod]
    rfl
  have htracks : Tracks c n 0 ⟨dev, []⟩ := ⟨h, hindex, fun _ hmem => absurd hmem List.not_mem_nil, rfl⟩
  obtain ⟨hist, hrun, htracked⟩ := htracks.run hn advances hless
  rw [Nat.zero_add] at htracked
  refine ⟨hist, hrun, htracked.processed, htracked.index, htracked.order, fun sync hsync => ?_⟩
  apply lt_of_mem_visits h.positive (w := 0)
  rw [← htracked.order]
  exact List.mem_map_of_mem hsync

def streamFromDevice : TpceDmaRequest where
  id := 1
  params := ⟨0, 0, 3072, 1024, 0, 0, 0, tpceDmaModeStream, tpceDmaFromDevice, 0, 0⟩
  descriptors := 0
  descriptorsSize := 0
  descriptorsType := 0

theorem streamFromDevice_accepted : ∃ dev mapInfo, AcceptedStream .granted freshDevice 0 streamFromDevice
    mapInfo dev ∧ plannedCount streamFromDevice.params mapInfo = 3 := by
  have hinit : (initDmaInfo .granted freshDevice 0 streamFromDevice).toOption.map Prod.fst = some 0 := by
    decide +kernel
  have hplanned : (xaLoad freshDevice 1).map (plannedCount streamFromDevice.params) = some 3 := by
    decide +kernel
  obtain ⟨⟨ret, dev⟩, hok, rfl⟩ := Option.map_eq_some_iff.mp hinit
  obtain ⟨mapInfo, hload, hcount⟩ := Option.map_eq_some_iff.mp hplanned
  exact ⟨dev, mapInfo, ⟨toOption_eq_some.mp hok, hload, rfl, rfl⟩, hcount⟩

theorem two_invocations_tracked : ∃ dev hist,
    initDmaInfo .granted freshDevice 0 streamFromDevice = .ok (0, dev) ∧
      Runs.run (invoke 0) ⟨dev, []⟩ (registers 3 0 [⟨2, 0⟩, ⟨2, 1⟩]) = some hist ∧
      (hist.dev.dmaInfo 0).streamInfo.writeSeqNum.toNat = 1 ∧
      hist.syncs.map (fun sync => sync.descIdx.toNat) = [0, 1, 2, 0] := by
  obtain ⟨dev, mapInfo, haccepted, hcount⟩ := streamFromDevice_accepted
  have hring := haccepted.fresh.ring (by rw [hcount]; decide)
  rw [hcount] at hring
  obtain ⟨hist, hrun, -, hindex, horder, -⟩ :=
    index_tracking hring (by decide) haccepted.fresh.index [⟨2, 0⟩, ⟨2, 1⟩] (by decide)
  exact ⟨dev, hist, haccepted.accepted, hrun, hindex, horder⟩

end TpceDrv.StreamTracking
