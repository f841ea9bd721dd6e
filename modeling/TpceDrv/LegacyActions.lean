import TpceDrv.LegacyRead
import TpceDrv.Library.BitMask
import TpceDrv.Library.Scripts
import TpceDrv.Library.Traces

namespace TpceDrv.LegacyActions

open Requests UserStructs LegacyRead Library.BitMask Library.Scripts Library.Traces

/-- What the legacy reads consist of -/
inductive Action
  | read (read : KernelRead)
  | copy (dst : U64) (offset length : U32)

variable {σ : Type}

def perform (ops : LegacyOps σ) : Action → σ → Except Fault (Int × σ)
  | .read r, s => ops.readKernelDmaBuffer r s
  | .copy dst offset length, s => pure (copyKernelDmaToUser ops dst offset length s)

/-- The masked start address in a block -/
def maskedAddr (input : TDmaTpceDataRead) : U32 := input.address * 2 &&& (input.addrBlockSize * 2 - 1)

/-- The bytes from the start address to the end of the block -/
def toBlockEnd (input : TDmaTpceDataRead) : U32 := input.addrBlockSize * 2 - maskedAddr input

/-- The device address of an offset in the block -/
def blockAddrAt (input : TDmaTpceDataRead) (offset : U32) : U32 :=
  tpceAvalonAddrDdr3Offset + (offset + input.addrBlockNr * input.addrBlockSize * 2) + inputAddr input

/-- What does not fit a stride in front of the block's end -/
def firstRest (readStride : U16) (toEnd : U32) : U32 := toEnd % readStride.setWidth 32

/-- The length of the first segment -/
def firstCount (readStride : U16) (toEnd : U32) : U32 :=
  let stride : U32 := readStride.setWidth 32
  if firstRest readStride toEnd > 0 then (toEnd / stride &&& 0xfffffffe#32) + 2 else toEnd / stride

def withinLen (input : TDmaTpceDataRead) (block : BlockRead) : U32 :=
  let overread := if roundedLen input.count block.overread < input.count then block.overread + 8 else block.overread
  if input.count < 8 then 16 else roundedLen input.count overread

def withinBlock (input : TDmaTpceDataRead) (block : BlockRead) : List Action :=
  [.read (block.kernelRead input (blockAddrAt input (maskedAddr input) &&& 0xfffffff8#32) (withinLen input block)),
    .copy input.data block.offset input.count]

def wholeBlock (input : TDmaTpceDataRead) (block : BlockRead) : List Action :=
  let first := (input.addrBlockSize - input.address) * 2
  [.read (block.kernelRead input (blockAddrAt input 0 &&& 0xfffffff8#32) (roundedLen input.count block.overread)),
    .copy input.data (input.address * 2) first,
    .copy (input.data + first.setWidth 64) 0 (input.address * 2)]

def firstAddr (input : TDmaTpceDataRead) (block : BlockRead) : U32 :=
  blockAddrAt input (maskedAddr input) &&& (if block.readStride = 1 then 0xfffffff8#32 else 0xfffffffe#32)

def firstSegment (input : TDmaTpceDataRead) (block : BlockRead) : List Action :=
  let count := firstCount block.readStride (toBlockEnd input)
  if count > 0 then
    [.read (block.kernelRead input (firstAddr input block) (roundedLen count block.overread)),
      .copy input.data (firstRest block.readStride (toBlockEnd input)) count]
  else []

def secondLen (count overread : U32) : U32 :=
  if roundedLen count overread < 8 then 16 else roundedLen count overread

def secondSegment (input : TDmaTpceDataRead) (block : BlockRead) : List Action :=
  let first := firstCount block.readStride (toBlockEnd input)
  let count := input.count - first
  if count > 0 then
    [.read (block.kernelRead input (blockAddrAt input (firstRest block.readStride (toBlockEnd input)))
        (secondLen count block.overread)),
      .copy (input.data + first.setWidth 64) 0 count]
  else []

/-- The test of the first branch: the block does not roll over. -/
def StaysInBlock (input : TDmaTpceDataRead) : Prop :=
  let mask := ~~~(input.addrBlockSize * 2 - 1)
  let stride : U16 := input.nextAddress.setWidth 16
  input.address * 2 &&& mask = (input.address * 2 + input.count * stride.setWidth 32) &&& mask

instance (input : TDmaTpceDataRead) : Decidable (StaysInBlock input) := inferInstanceAs (Decidable (_ = _))

/-- The test of the second branch: more than a block is read. -/
def ExceedsBlock (input : TDmaTpceDataRead) : Prop := input.count / 2 > input.addrBlockSize

instance (input : TDmaTpceDataRead) : Decidable (ExceedsBlock input) := inferInstanceAs (Decidable (_ > _))

/-- The checks in front of the branches -/
def Refused (input : TDmaTpceDataRead) : Prop :=
  input.dmaChannel.toNat ≥ tpceDmaNumChannels ∨ input.count > tpceDmaDriverBufferSize

instance (input : TDmaTpceDataRead) : Decidable (Refused input) := inferInstanceAs (Decidable (_ ∨ _))

def actions (input : TDmaTpceDataRead) : List Action :=
  let block := blockRead input
  if StaysInBlock input then withinBlock input block
  else if ExceedsBlock input then wholeBlock input block
  else firstSegment input block ++ secondSegment input block

variable {ops : LegacyOps σ} {s : σ} {input : TDmaTpceDataRead} {block : BlockRead}

theorem readKernelDmaToUser_eq (dst : U64) (r : KernelRead) (copyOffset copyLen : U32) (s : σ) :
    readKernelDmaToUser ops dst r copyOffset copyLen s =
      performAll (perform ops) [.read r, .copy dst copyOffset copyLen] s := by
  rw [show [Action.read r, .copy dst copyOffset copyLen] = [.read r] ++ [.copy dst copyOffset copyLen] from rfl,
    performAll_append, performAll_single]
  simp only [performAll_single]
  rfl

theorem performAll_copy (dst : U64) (copyOffset copyLen : U32) (s : σ) :
    performAll (perform ops) [.copy dst copyOffset copyLen] s =
      pure (copyKernelDmaToUser ops dst copyOffset copyLen s) := performAll_single _ _

theorem and_not_and_self {w : ℕ} (x m : BitVec w) : x &&& m &&& ~~~m = 0 := by
  rw [BitVec.and_assoc, BitVec.and_not_self]
  exact BitVec.and_zero

theorem blockMask_not (input : TDmaTpceDataRead) : ~~~(blockRead input).blockMask = input.addrBlockSize * 2 - 1 :=
  BitVec.not_not

theorem readWithinBlock_eq (input : TDmaTpceDataRead) (s : σ) :
    readWithinBlock ops input (blockRead input) s =
      performAll (perform ops) (withinBlock input (blockRead input)) s := by
  rw [readWithinBlock, blockMask_not]
  exact readKernelDmaToUser_eq _ _ _ _ s

theorem readWholeBlock_eq (input : TDmaTpceDataRead) (s : σ) :
    readWholeBlock ops input (blockRead input) s =
      performAll (perform ops) (wholeBlock input (blockRead input)) s := by
  have haddr : blockAddrAt input 0 =
      tpceAvalonAddrDdr3Offset + (blockRead input).blockAddr + (blockRead input).chAddr := by
    rw [blockAddrAt, show (0 : U32) + _ = _ from BitVec.zero_add _]
    rfl
  rw [wholeBlock, performAll_cons, haddr]
  refine bind_congr fun r => ?_
  refine ite_congr rfl (fun _ => rfl) fun _ => ?_
  exact ite_congr rfl (fun _ => rfl) fun _ => (performAll_copy _ _ _ _).symm

theorem ite_pos_self (x : U32) : (if x > 0 then x else 0) = x := by
  split
  · rfl
  · rename_i hzero
    exact (BitVec.eq_of_toNat_eq (Nat.eq_zero_of_not_pos fun hpos => hzero (BitVec.lt_def.mpr hpos))).symm

/-- Stride 0 never leaves the first branch. -/
theorem segments_eq {readStride : U16} (hs : readStride ≠ 0) (count toEnd : U32) :
    segments readStride count toEnd =
      .ok (0, firstCount readStride toEnd, count - firstCount readStride toEnd, firstRest readStride toEnd) := by
  by_cases hone : readStride = 1
  · subst hone
    have hrest : firstRest 1 toEnd = 0 := BitVec.umod_one
    have hcount : firstCount 1 toEnd = toEnd := by
      rw [firstCount, if_neg (by rw [hrest]; decide)]
      exact BitVec.udiv_one
    rw [hrest, hcount]
    rfl
  · rw [segments, if_neg hone, if_neg hs]
    change Except.ok (if firstCount readStride toEnd + (count - firstCount readStride toEnd) ≠ count then _ else _,
      firstCount readStride toEnd, count - firstCount readStride toEnd,
      if firstRest readStride toEnd > 0 then firstRest readStride toEnd else 0) = _
    rw [BitVec.add_comm, BitVec.sub_add_cancel, if_neg (not_not.mpr rfl), ite_pos_self]

theorem performAll_segment (dst : U64) (r : KernelRead) (copyOffset copyLen : U32) (s : σ) :
    performAll (perform ops) (if copyLen > 0 then [.read r, .copy dst copyOffset copyLen] else []) s =
      if copyLen > 0 then readKernelDmaToUser ops dst r copyOffset copyLen s else pure (0, s) := by
  split
  · exact (readKernelDmaToUser_eq dst r copyOffset copyLen s).symm
  · rfl

theorem readTwoSegments_eq (input : TDmaTpceDataRead) (hs : (blockRead input).readStride ≠ 0) (s : σ) :
    readTwoSegments ops input (blockRead input) s =
      performAll (perform ops) (firstSegment input (blockRead input) ++ secondSegment input (blockRead input)) s := by
  have hmasked : input.address * 2 &&& ~~~(blockRead input).blockMask = maskedAddr input := by
    rw [blockMask_not]
    rfl
  have hstart : maskedAddr input &&& (blockRead input).blockMask = 0 := and_not_and_self _ _
  have hend : (0 : U32) + input.addrBlockSize * 2 - maskedAddr input = toBlockEnd input := by
    rw [show (0 : U32) + _ = _ from BitVec.zero_add _]
    rfl
  have hsecond : tpceAvalonAddrDdr3Offset + 0 + (blockRead input).blockAddr +
      firstRest (blockRead input).readStride (toBlockEnd input) + (blockRead input).chAddr =
        blockAddrAt input (firstRest (blockRead input).readStride (toBlockEnd input)) := by
    rw [show tpceAvalonAddrDdr3Offset + 0 = _ from BitVec.add_zero _, BitVec.add_assoc tpceAvalonAddrDdr3Offset,
      BitVec.add_comm (blockRead input).blockAddr]
    rfl
  rw [performAll_append, firstSegment, performAll_segment, readTwoSegments]
  simp only [hmasked, hstart, hend, segments_eq hs, ok_bind, hsecond]
  refine (if_neg (not_not.mpr rfl)).trans (bind_congr fun r => ?_)
  refine ite_congr rfl (fun _ => rfl) fun _ => ?_
  exact (performAll_segment _ _ _ _ r.2).symm

theorem staysInBlock_of_stride_zero (hs : (blockRead input).readStride = 0) : StaysInBlock input := by
  have hzero : input.count * (input.nextAddress.setWidth 16).setWidth 32 = 0 := by
    rw [show input.nextAddress.setWidth 16 = 0#16 from hs]
    exact BitVec.mul_zero
  rw [StaysInBlock, hzero]
  exact congrArg (· &&& _) (BitVec.add_zero _).symm

theorem iocDmaReadRequestA_eq (ops : LegacyOps σ) (input : TDmaTpceDataRead) (s : σ) :
    iocDmaReadRequestA ops input s =
      if Refused input then pure (-Errno.einval, s) else performAll (perform ops) (actions input) s := by
  rw [iocDmaReadRequestA]
  by_cases hchannel : input.dmaChannel.toNat ≥ tpceDmaNumChannels
  · rw [if_pos hchannel, if_pos (show Refused input from .inl hchannel)]
  by_cases hcount : input.count > tpceDmaDriverBufferSize
  · rw [if_neg hchannel, if_pos hcount, if_pos (show Refused input from .inr hcount)]
  rw [if_neg hchannel, if_neg hcount, if_neg (show ¬Refused input from fun h => h.elim hchannel hcount), actions]
  by_cases hstays : StaysInBlock input
  · rw [if_pos hstays, ← readWithinBlock_eq]
    exact if_pos hstays
  · have hs : (blockRead input).readStride ≠ 0 := mt staysInBlock_of_stride_zero hstays
    rw [if_neg hstays]
    refine (if_neg hstays).trans ?_
    by_cases hexceeds : ExceedsBlock input
    · rw [if_pos hexceeds, ← readWholeBlock_eq]
      exact if_pos hexceeds
    · rw [if_neg hexceeds, ← readTwoSegments_eq input hs]
      exact if_neg hexceeds

end TpceDrv.LegacyActions
