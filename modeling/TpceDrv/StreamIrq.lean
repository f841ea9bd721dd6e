import TpceDrv.Device
import TpceDrv.Library.Rings

namespace TpceDrv.StreamIrq

open Descriptor DmaInfo Mapping Device Library.Rings

/-- The arguments of `dma_sync_single_for_cpu`, with the descriptor they are
from -/
structure SyncForCpu where
  descIdx : U32
  busAddr : U64
  length : U32
  direction : U8
  deriving DecidableEq, Repr

def tpceDmaSyncForCpuPartial (dev : TpceDev) (c : Channel) (descIdx : U32) : Except Fault SyncForCpu :=
  let info := dev.dmaInfo c
  match info.desc[descIdx.toNat]?, info.mapInfo with
  | none, _ => .error (.descriptorIndex descIdx.toNat)
  | some _, none => .error .nullPointer
  | some desc, some obj => do
      let mapInfo ← dev.mapInfo obj
      pure ⟨descIdx, tpceDescGetWrite desc, desc.transferLength, mapInfo.direction⟩

/-- The loop of the stream handler: `n` rounds from index `i` on. -/
def syncLoop (dev : TpceDev) (c : Channel) (numDescriptors : U32) :
    ℕ → U32 → Except Fault (List SyncForCpu)
  | 0, _ => .ok []
  | n + 1, i => do
      let sync ← tpceDmaSyncForCpuPartial dev c i
      let rest ← syncLoop dev c numDescriptors n (if i + 1 = numDescriptors then 0 else i + 1)
      pure (sync :: rest)

inductive StreamIrqOutcome
  | stateNull
  | invalidAdvance
  | processed (syncs : List SyncForCpu)
  deriving DecidableEq, Repr

def StreamIrqOutcome.syncs : StreamIrqOutcome → List SyncForCpu
  | .processed syncs => syncs
  | .stateNull | .invalidAdvance => []

def newWriteSeqNum (numDescMask numDescriptors seqNums : U32) : Except Fault U32 :=
  if numDescMask ≠ 0 then .ok ((seqNums >>> 16) &&& numDescMask)
  else if numDescriptors = 0 then .error .divisionByZero
  else .ok ((seqNums >>> 16) % numDescriptors)

/-- The sequence numbers are signed. -/
def numProcessed (numDescriptors writeSeqNum newSeqNum : U32) : U32 :=
  if newSeqNum.slt writeSeqNum then newSeqNum - writeSeqNum + numDescriptors else newSeqNum - writeSeqNum

/-- `dma_stream_irq_handler` behind the acknowledgement, with the value of the
sequence number register. The product is one of 32-bit numbers. -/
def dmaStreamIrqHandler (dev : TpceDev) (c : Channel) (seqNums : U32) :
    Except Fault (StreamIrqOutcome × TpceDev) :=
  let info := dev.dmaInfo c
  match info.streamInfo.state with
  | none => pure (.stateNull, dev)
  | some state => do
      let numDescriptors := info.descSize / descriptorSize
      let writeSeqNum := info.streamInfo.writeSeqNum
      let newSeqNum ← newWriteSeqNum info.streamInfo.numDescMask numDescriptors seqNums
      let processed := numProcessed numDescriptors writeSeqNum newSeqNum
      let newProduced := state.produced + (info.params.bytesPerDescriptor * processed).setWidth 64
      if processed.slt 0 ∨ processed > numDescriptors then pure (.invalidAdvance, dev)
      else
        let syncs ← syncLoop dev c numDescriptors processed.toNat writeSeqNum
        pure (.processed syncs, dev.setInfo c { info with
          streamInfo := { info.streamInfo with
            state := some { state with produced := newProduced }
            writeSeqNum := newSeqNum
            irqCnt := info.streamInfo.irqCnt + 1 } })

/-- A ring of `n` descriptors on a channel with a live stream state: the buffer
is there, the mask is the one that `tpce_init_stream_info` chooses and the index
is inside. -/
structure Ring (dev : TpceDev) (c : Channel) (n : ℕ) : Prop where
  positive : 0 < n
  size : (dev.dmaInfo c).descSize.toNat = n * 64
  buffer : n ≤ (dev.dmaInfo c).desc.length
  state : (dev.dmaInfo c).streamInfo.state ≠ none
  mask : (dev.dmaInfo c).streamInfo.numDescMask =
    if isPowerOf2 ((dev.dmaInfo c).descSize / descriptorSize) then (dev.dmaInfo c).descSize / descriptorSize - 1
    else 0
  index : (dev.dmaInfo c).streamInfo.writeSeqNum.toNat < n
  mapping : ∃ obj mapInfo, (dev.dmaInfo c).mapInfo = some obj ∧ dev.mapInfos obj = some mapInfo

variable {dev dev' : TpceDev} {c : Channel} {n : ℕ}

theorem Ring.numDescriptors (h : Ring dev c n) : ((dev.dmaInfo c).descSize / descriptorSize).toNat = n := by
  rw [BitVec.toNat_udiv, h.size]
  exact Nat.mul_div_cancel n (by decide)

theorem Ring.small (h : Ring dev c n) : n < 2 ^ 26 := by
  have hlt := (dev.dmaInfo c).descSize.isLt
  rw [h.size] at hlt
  omega

theorem and_pred_eq_umod {x m : U32} (h : isPowerOf2 m = true) : x &&& (m - 1) = x % m := by
  simp only [isPowerOf2, Bool.and_eq_true, decide_eq_true_eq] at h
  have hzero : m.toNat ≠ 0 := fun hz => h.1 (BitVec.eq_of_toNat_eq hz)
  have hpred : (m - 1).toNat = m.toNat - 1 := by
    apply BitVec.toNat_sub_of_le
    rw [BitVec.le_def]
    exact Nat.pos_of_ne_zero hzero
  have hand : m.toNat &&& (m.toNat - 1) = 0 := by
    rw [← hpred, ← BitVec.toNat_and, h.2]
    rfl
  obtain ⟨k, hk⟩ := Nat.ne_zero_and_sub_one_eq_zero_iff_isPowerOfTwo.mp ⟨hzero, hand⟩
  apply BitVec.eq_of_toNat_eq
  rw [BitVec.toNat_and, hpred, BitVec.toNat_umod, hk, Nat.and_two_pow_sub_one_eq_mod]

theorem Ring.newWriteSeqNum (h : Ring dev c n) (seqNums : U32) :
    ∃ newSeqNum, StreamIrq.newWriteSeqNum (dev.dmaInfo c).streamInfo.numDescMask
        ((dev.dmaInfo c).descSize / descriptorSize) seqNums = .ok newSeqNum ∧
      newSeqNum.toNat = seqNums.toNat / 2 ^ 16 % n := by
  have hnum := h.numDescriptors
  have hmod : ((seqNums >>> 16) % ((dev.dmaInfo c).descSize / descriptorSize)).toNat =
      seqNums.toNat / 2 ^ 16 % n := by
    rw [BitVec.toNat_umod, hnum, BitVec.toNat_ushiftRight, Nat.shiftRight_eq_div_pow]
  refine ⟨_, ?_, hmod⟩
  simp only [StreamIrq.newWriteSeqNum]
  split
  · rename_i hmask
    have hpower : isPowerOf2 ((dev.dmaInfo c).descSize / descriptorSize) = true := by
      by_contra hpower
      exact hmask (h.mask.trans (if_neg hpower))
    rw [h.mask, if_pos hpower, and_pred_eq_umod hpower]
  · rw [if_neg fun hz => ?_]
    rw [hz] at hnum
    exact h.positive.ne hnum

theorem slt_iff_toNat {a b : U32} (ha : a.toNat < 2 ^ 31) (hb : b.toNat < 2 ^ 31) :
    a.slt b = true ↔ a.toNat < b.toNat := by
  rw [BitVec.slt_iff_toInt_lt, BitVec.toInt_eq_toNat_cond, BitVec.toInt_eq_toNat_cond, if_pos (by omega),
    if_pos (by omega), Int.ofNat_lt]

theorem numProcessed_toNat {num w w' : U32} (hnum : num.toNat = n) (hn : n < 2 ^ 26) (hw : w.toNat < n)
    (hw' : w'.toNat < n) : (numProcessed num w w').toNat = distance n w.toNat w'.toNat := by
  have hslt := slt_iff_toNat (a := w') (b := w) (by omega) (by omega)
  simp only [numProcessed, distance]
  by_cases hwrap : w'.toNat < w.toNat
  · rw [if_pos (hslt.mpr hwrap), if_pos hwrap]
    bv_omega
  · rw [if_neg (mt hslt.mp hwrap), if_neg hwrap]
    bv_omega

theorem Ring.sync (h : Ring dev c n) {i : U32} (hi : i.toNat < n) :
    ∃ desc sync, (dev.dmaInfo c).desc[i.toNat]? = some desc ∧ tpceDmaSyncForCpuPartial dev c i = .ok sync ∧
      sync.descIdx = i ∧ sync.length = desc.transferLength := by
  obtain ⟨obj, mapInfo, hobj, hlive⟩ := h.mapping
  obtain ⟨desc, hdesc⟩ : ∃ desc, (dev.dmaInfo c).desc[i.toNat]? = some desc :=
    ⟨_, List.getElem?_eq_getElem (Nat.lt_of_lt_of_le hi h.buffer)⟩
  refine ⟨desc, ⟨i, tpceDescGetWrite desc, desc.transferLength, mapInfo.direction⟩, hdesc, ?_, rfl, rfl⟩
  simp only [tpceDmaSyncForCpuPartial, hdesc, hobj, mapInfo_eq_ok.mpr hlive]
  rfl

/-- The transfer length of a descriptor in the buffer -/
def lengthAt (info : TpceDmaInfo) (i : ℕ) : ℕ := ((info.desc[i]?).elim 0 fun desc => desc.transferLength.toNat)

theorem Ring.syncLoop (h : Ring dev c n) (m : ℕ) {i : U32} (hi : i.toNat < n) :
    ∃ syncs, StreamIrq.syncLoop dev c ((dev.dmaInfo c).descSize / descriptorSize) m i = .ok syncs ∧
      syncs.map (fun sync => sync.descIdx.toNat) = visits n i.toNat m ∧
      syncs.map (fun sync => sync.length.toNat) = (visits n i.toNat m).map (lengthAt (dev.dmaInfo c)) := by
  induction m generalizing i with
  | zero => exact ⟨[], rfl, rfl, rfl⟩
  | succ m ih =>
      obtain ⟨desc, sync, hdesc, hsync, hidx, hlen⟩ := h.sync hi
      have hn := h.small
      have hnum := h.numDescriptors
      obtain ⟨next, hnext, hlt, hmod⟩ : ∃ next,
          (if i + 1 = (dev.dmaInfo c).descSize / descriptorSize then (0 : U32) else i + 1) = next ∧
            next.toNat < n ∧ next.toNat % n = (i.toNat + 1) % n := by
        have hstep : (i + 1).toNat = i.toNat + 1 := by bv_omega
        refine ⟨_, rfl, ?_⟩
        split
        · rename_i hlast
          have hend : i.toNat + 1 = n := by rw [← hstep, hlast, hnum]
          refine ⟨h.positive, ?_⟩
          rw [hend, Nat.mod_self]
          exact Nat.zero_mod n
        · rename_i hmore
          have hne : i.toNat + 1 ≠ n := fun heq => hmore (BitVec.eq_of_toNat_eq (by rw [hstep, hnum, heq]))
          exact ⟨by omega, by rw [hstep]⟩
      obtain ⟨syncs, hloop, hidxs, hlens⟩ := ih hlt
      refine ⟨sync :: syncs, ?_, ?_, ?_⟩
      · simp only [StreamIrq.syncLoop, hsync, hnext, hloop]
        rfl
      · rw [List.map_cons, hidxs, hidx, visits_succ, visits_congr hmod, Nat.mod_eq_of_lt hi]
      · have hhead : lengthAt (dev.dmaInfo c) (i.toNat % n) = sync.length.toNat := by
          rw [Nat.mod_eq_of_lt hi, lengthAt, hdesc, hlen]
          rfl
        rw [List.map_cons, hlens, visits_succ, visits_congr hmod, List.map_cons, hhead]

/-- The channel data behind an invocation that has processed `m` descriptors. -/
def afterIrq (info : TpceDmaInfo) (state : TpceDmaStreamState) (newSeqNum processed : U32) : TpceDmaInfo :=
  { info with
    streamInfo := { info.streamInfo with
      state := some { state with
        produced := state.produced + (info.params.bytesPerDescriptor * processed).setWidth 64 }
      writeSeqNum := newSeqNum
      irqCnt := info.streamInfo.irqCnt + 1 } }

/-- What an invocation does: it goes from the old index to the one of the
register, for any value of it. -/
theorem Ring.handler (h : Ring dev c n) (seqNums : U32) :
    ∃ state newSeqNum processed syncs, (dev.dmaInfo c).streamInfo.state = some state ∧
      dmaStreamIrqHandler dev c seqNums =
        .ok (.processed syncs, dev.setInfo c (afterIrq (dev.dmaInfo c) state newSeqNum processed)) ∧
      newSeqNum.toNat = seqNums.toNat / 2 ^ 16 % n ∧
      processed.toNat = distance n (dev.dmaInfo c).streamInfo.writeSeqNum.toNat newSeqNum.toNat ∧
      syncs.map (fun sync => sync.descIdx.toNat) =
        visits n (dev.dmaInfo c).streamInfo.writeSeqNum.toNat processed.toNat ∧
      syncs.map (fun sync => sync.length.toNat) =
        (visits n (dev.dmaInfo c).streamInfo.writeSeqNum.toNat processed.toNat).map
          (lengthAt (dev.dmaInfo c)) := by
  obtain ⟨state, hstate⟩ := Option.ne_none_iff_exists'.mp h.state
  obtain ⟨newSeqNum, hnew, hmod⟩ := h.newWriteSeqNum seqNums
  have hlt : newSeqNum.toNat < n := hmod ▸ Nat.mod_lt _ h.positive
  have hn := h.small
  have hprocessed := numProcessed_toNat h.numDescriptors hn h.index hlt
  have hless := distance_lt (w := (dev.dmaInfo c).streamInfo.writeSeqNum.toNat) hlt
  obtain ⟨syncs, hloop, hidxs, hlens⟩ := h.syncLoop
    (numProcessed ((dev.dmaInfo c).descSize / descriptorSize) (dev.dmaInfo c).streamInfo.writeSeqNum
      newSeqNum).toNat h.index
  refine ⟨state, newSeqNum, _, syncs, hstate, ?_, hmod, hprocessed, hidxs, hlens⟩
  have hvalid : ¬((numProcessed ((dev.dmaInfo c).descSize / descriptorSize)
      (dev.dmaInfo c).streamInfo.writeSeqNum newSeqNum).slt 0 = true ∨
      numProcessed ((dev.dmaInfo c).descSize / descriptorSize) (dev.dmaInfo c).streamInfo.writeSeqNum
        newSeqNum > (dev.dmaInfo c).descSize / descriptorSize) := by
    rintro (hneg | hmore)
    · rw [slt_iff_toNat (by omega) (by decide)] at hneg
      exact Nat.not_lt_zero _ hneg
    · have hmore := BitVec.lt_def.mp hmore
      rw [h.numDescriptors] at hmore
      omega
  simp only [dmaStreamIrqHandler, hstate, hnew]
  change (if _ then _ else _) = _
  rw [if_neg hvalid, hloop]
  rfl

theorem Ring.afterIrq (h : Ring dev c n) {state : TpceDmaStreamState} {newSeqNum processed : U32}
    (hlt : newSeqNum.toNat < n) :
    Ring (dev.setInfo c (StreamIrq.afterIrq (dev.dmaInfo c) state newSeqNum processed)) c n := by
  have hinfo := setInfo_dmaInfo dev c (StreamIrq.afterIrq (dev.dmaInfo c) state newSeqNum processed)
  obtain ⟨obj, mapInfo, hobj, hlive⟩ := h.mapping
  refine ⟨h.positive, ?_, ?_, ?_, ?_, ?_, obj, mapInfo, ?_, hlive⟩
  · rw [hinfo]
    exact h.size
  · rw [hinfo]
    exact h.buffer
  · rw [hinfo]
    exact Option.some_ne_none _
  · rw [hinfo]
    exact h.mask
  · rw [hinfo]
    exact hlt
  · rw [hinfo]
    exact hobj

end TpceDrv.StreamIrq
