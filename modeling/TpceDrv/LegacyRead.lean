import TpceDrv.Library.Errors
import TpceDrv.UserStructs

namespace TpceDrv.LegacyRead

open Requests UserStructs Library.Errors

def tpceAvalonAddrDdr3Offset : U32 := 0x40000000#32

/-- What the legacy reads are made of: the transfer into the kernel buffer,
whether that buffer exists, and the copy of a part of it to the user, which
gives the number of bytes that were not copied. -/
structure LegacyOps (σ : Type) where
  readKernelDmaBuffer : KernelRead → σ → Except Fault (Int × σ)
  hasKernelDma : σ → Bool
  copyToUser : (dst : U64) → (offset length : U32) → σ → Nat × σ

variable {σ : Type}

def copyKernelDmaToUser (ops : LegacyOps σ) (dst : U64) (copyOffset copyLen : U32) (s : σ) : Int × σ :=
  if copyLen = 0 then (0, s)
  else if !ops.hasKernelDma s then (-Errno.enodev, s)
  else if copyOffset > tpceDmaDriverBufferSize ∨ copyLen > tpceDmaDriverBufferSize - copyOffset then
    (-Errno.einval, s)
  else
    let (missed, s) := ops.copyToUser dst copyOffset copyLen s
    (if missed ≠ 0 then -Errno.efault else 0, s)

def readKernelDmaToUser (ops : LegacyOps σ) (dst : U64) (read : KernelRead) (copyOffset copyLen : U32) (s : σ) :
    Except Fault (Int × σ) := do
  let (err, s) ← ops.readKernelDmaBuffer read s
  if err ≠ 0 then pure (err, s) else pure (copyKernelDmaToUser ops dst copyOffset copyLen s)

def iocDmaReadRequest (ops : LegacyOps σ) (input : TDmaRequestData) (s : σ) : Except Fault (Int × σ) :=
  readKernelDmaToUser ops input.pUserVA
    ⟨input.localAddress, input.bytesCount, input.readStride, input.writeStride, input.channel, input.burstCount⟩
    0 input.bytesCount s

/-- The address of an input, whose distance halves with eight channels -/
def inputAddr (input : TDmaTpceDataRead) : U32 :=
  if input.mux8ChannelEn = 0 then
    if input.input.toNat < 4 then input.input * 0x10000000#32 else 0
  else if input.input.toNat < 8 then input.input * 0x8000000#32 else 0

/-- A count rounded down to eight bytes, and some more -/
def roundedLen (count overread : U32) : U32 := (count &&& 0xfffffff8#32) + overread

/-- The lengths of the two segments and the offset of the second one. The code
divides by the stride. -/
def segments (readStride : U16) (count toEnd : U32) : Except Fault (Int × U32 × U32 × U32) :=
  if readStride = 1 then pure (0, toEnd, count - toEnd, 0)
  else if readStride = 0 then .error .divisionByZero
  else
    let stride : U32 := readStride.setWidth 32
    let rest := toEnd % stride
    let lcount := if rest > 0 then (toEnd / stride &&& 0xfffffffe#32) + 2 else toEnd / stride
    let lcount2 := count - lcount
    pure (if lcount + lcount2 ≠ count then -Errno.einval else 0, lcount, lcount2, if rest > 0 then rest else 0)

/-- The local variables of `ioc_dma_read_request_a` in front of its branches. The
64-bit `block_addr` ends up in 32 bits. -/
structure BlockRead where
  readStride : U16
  blockMask : U32
  blockAddr : U32
  offset : U32
  overread : U32
  chAddr : U32

def blockRead (input : TDmaTpceDataRead) : BlockRead :=
  let readStride : U16 := input.nextAddress.setWidth 16
  let offset := input.address % 4 * 2
  { readStride := readStride
    blockMask := ~~~(input.addrBlockSize * 2 - 1)
    blockAddr := input.addrBlockNr * input.addrBlockSize * 2
    offset := offset
    overread := if offset = 0 ∧ readStride = 1 then 0 else 8
    chAddr := inputAddr input }

def BlockRead.kernelRead (block : BlockRead) (input : TDmaTpceDataRead) (addr len : U32) : KernelRead :=
  ⟨addr, len, block.readStride, 1, input.dmaChannel.setWidth 8, input.burstCount⟩

/-- The branch without a roll-over of the block -/
def readWithinBlock (ops : LegacyOps σ) (input : TDmaTpceDataRead) (block : BlockRead) (s : σ) :
    Except Fault (Int × σ) :=
  let overread := if roundedLen input.count block.overread < input.count then block.overread + 8 else block.overread
  let devAddr := tpceAvalonAddrDdr3Offset + ((input.address * 2 &&& ~~~block.blockMask) + block.blockAddr) + block.chAddr
  let dmaLen := if input.count < 8 then 16 else roundedLen input.count overread
  readKernelDmaToUser ops input.data (block.kernelRead input (devAddr &&& 0xfffffff8#32) dmaLen) block.offset
    input.count s

/-- The branch that reads the block once and copies it in two parts -/
def readWholeBlock (ops : LegacyOps σ) (input : TDmaTpceDataRead) (block : BlockRead) (s : σ) :
    Except Fault (Int × σ) := do
  let devAddr := tpceAvalonAddrDdr3Offset + block.blockAddr + block.chAddr
  let dmaLen := roundedLen input.count block.overread
  let (err, s) ← ops.readKernelDmaBuffer (block.kernelRead input (devAddr &&& 0xfffffff8#32) dmaLen) s
  if err ≠ 0 then pure (err, s)
  else
    let first := (input.addrBlockSize - input.address) * 2
    let (err, s) := copyKernelDmaToUser ops input.data (input.address * 2) first s
    if err ≠ 0 then pure (err, s)
    else pure (copyKernelDmaToUser ops (input.data + first.setWidth 64) 0 (input.address * 2) s)

/-- The branch that reads up to the end of the block and from its start on -/
def readTwoSegments (ops : LegacyOps σ) (input : TDmaTpceDataRead) (block : BlockRead) (s : σ) :
    Except Fault (Int × σ) := do
  let maskedAddr := input.address * 2 &&& ~~~block.blockMask
  let devAddr := tpceAvalonAddrDdr3Offset + (maskedAddr + block.blockAddr) + block.chAddr
  let devAddr := devAddr &&& (if block.readStride = 1 then 0xfffffff8#32 else 0xfffffffe#32)
  let blockStartAddr := maskedAddr &&& block.blockMask
  let blockEndAddr := blockStartAddr + input.addrBlockSize * 2
  let (err, lcount, lcount2, offset) ← segments block.readStride input.count (blockEndAddr - maskedAddr)
  if err ≠ 0 then pure (err, s)
  else do
    let (err, s) ←
      (if lcount > 0 then
        readKernelDmaToUser ops input.data (block.kernelRead input devAddr (roundedLen lcount block.overread)) offset
          lcount s
      else pure (0, s))
    if err ≠ 0 then pure (err, s)
    else if lcount2 > 0 then
      let devAddr := tpceAvalonAddrDdr3Offset + blockStartAddr + block.blockAddr + offset + block.chAddr
      let len := roundedLen lcount2 block.overread
      readKernelDmaToUser ops (input.data + lcount.setWidth 64)
        (block.kernelRead input devAddr (if len < 8 then 16 else len)) 0 lcount2 s
    else pure (0, s)

/-- For stride 1 the source computes `a2` without the product. -/
def iocDmaReadRequestA (ops : LegacyOps σ) (input : TDmaTpceDataRead) (s : σ) : Except Fault (Int × σ) :=
  if input.dmaChannel.toNat ≥ tpceDmaNumChannels then pure (-Errno.einval, s)
  else if input.count > tpceDmaDriverBufferSize then pure (-Errno.einval, s)
  else
    let block := blockRead input
    let a1 := input.address * 2 &&& block.blockMask
    let a2 := (input.address * 2 + input.count * block.readStride.setWidth 32) &&& block.blockMask
    if a1 = a2 then readWithinBlock ops input block s
    else if input.count / 2 > input.addrBlockSize then readWholeBlock ops input block s
    else readTwoSegments ops input block s

/-- A property of the state that the operations keep -/
structure OpsKeep (ops : LegacyOps σ) (I : σ → Prop) : Prop where
  read : ∀ r s ret s', ops.readKernelDmaBuffer r s = .ok (ret, s') → I s → I s'
  copy : ∀ dst offset length s, I s → I (ops.copyToUser dst offset length s).2

variable {ops : LegacyOps σ} {I : σ → Prop} {s s' : σ} {ret : Int}

/-- Operations that fail in one way only, and keep a property of the state when
they do not -/
structure OpsYield (ops : LegacyOps σ) (P : Fault → Prop) (I : σ → Prop) : Prop where
  read : ∀ r s, I s → Yields P (fun out => I out.2) (ops.readKernelDmaBuffer r s)
  copy : ∀ dst offset length s, I s → I (ops.copyToUser dst offset length s).2
  division : P .divisionByZero

section
variable {P : Fault → Prop}

theorem OpsYield.copyKernelDmaToUser (h : OpsYield ops P I) (dst : U64) (copyOffset copyLen : U32) (hs : I s) :
    I (copyKernelDmaToUser ops dst copyOffset copyLen s).2 := by
  simp only [LegacyRead.copyKernelDmaToUser]
  split
  · exact hs
  split
  · exact hs
  split
  · exact hs
  · exact h.copy dst copyOffset copyLen s hs

theorem OpsYield.readKernelDmaToUser (h : OpsYield ops P I) (dst : U64) (read : KernelRead) (copyOffset copyLen : U32)
    (hs : I s) : Yields P (fun out => I out.2) (readKernelDmaToUser ops dst read copyOffset copyLen s) := by
  refine (h.read read s hs).bind ?_
  rintro ⟨err, s₁⟩ - hs₁
  exact Yields.ite (fun _ => Yields.pure hs₁) fun _ => Yields.pure (h.copyKernelDmaToUser dst copyOffset copyLen hs₁)

theorem OpsYield.iocDmaReadRequest (h : OpsYield ops P I) (input : TDmaRequestData) (hs : I s) :
    Yields P (fun out => I out.2) (iocDmaReadRequest ops input s) := h.readKernelDmaToUser _ _ _ _ hs

theorem OpsYield.readWholeBlock (h : OpsYield ops P I) (input : TDmaTpceDataRead) (block : BlockRead) (hs : I s) :
    Yields P (fun out => I out.2) (readWholeBlock ops input block s) := by
  refine (h.read _ s hs).bind ?_
  rintro ⟨err, s₁⟩ - hs₁
  refine Yields.ite (fun _ => Yields.pure hs₁) fun _ => ?_
  have hs₂ := h.copyKernelDmaToUser input.data (input.address * 2) ((input.addrBlockSize - input.address) * 2) hs₁
  exact Yields.ite (fun _ => Yields.pure hs₂) fun _ => Yields.pure (h.copyKernelDmaToUser _ _ _ hs₂)

theorem segments_yields (h : P .divisionByZero) (readStride : U16) (count toEnd : U32) :
    Yields P (fun _ => True) (segments readStride count toEnd) :=
  Yields.ite (fun _ => Yields.pure True.intro) fun _ =>
    Yields.ite (fun _ => Yields.error h) fun _ => Yields.pure True.intro

theorem OpsYield.readTwoSegments (h : OpsYield ops P I) (input : TDmaTpceDataRead) (block : BlockRead) (hs : I s) :
    Yields P (fun out => I out.2) (readTwoSegments ops input block s) := by
  refine (segments_yields h.division _ _ _).bind ?_
  rintro ⟨err, lcount, lcount2, offset⟩ - -
  refine Yields.ite (fun _ => Yields.pure hs) fun _ => Yields.bind (R := fun out => I out.2) ?_ ?_
  · exact Yields.ite (fun _ => h.readKernelDmaToUser _ _ _ _ hs) fun _ => Yields.pure hs
  · rintro ⟨err₁, s₁⟩ - hs₁
    refine Yields.ite (fun _ => Yields.pure hs₁) fun _ => ?_
    exact Yields.ite (fun _ => h.readKernelDmaToUser _ _ _ _ hs₁) fun _ => Yields.pure hs₁

theorem OpsYield.iocDmaReadRequestA (h : OpsYield ops P I) (input : TDmaTpceDataRead) (hs : I s) :
    Yields P (fun out => I out.2) (iocDmaReadRequestA ops input s) := by
  refine Yields.ite (fun _ => Yields.pure hs) fun _ => Yields.ite (fun _ => Yields.pure hs) fun _ => ?_
  refine Yields.ite (fun _ => h.readKernelDmaToUser _ _ _ _ hs) fun _ => ?_
  exact Yields.ite (fun _ => h.readWholeBlock _ _ hs) fun _ => h.readTwoSegments _ _ hs

end

theorem OpsKeep.yields (h : OpsKeep ops I) : OpsYield ops (fun _ => True) I where
  read := fun r s hs => ⟨fun _ _ => True.intro, fun out hout => h.read r s out.1 out.2 hout hs⟩
  copy := h.copy
  division := True.intro

theorem OpsKeep.iocDmaReadRequest (h : OpsKeep ops I) {input : TDmaRequestData}
    (hrun : iocDmaReadRequest ops input s = .ok (ret, s')) (hs : I s) : I s' :=
  (h.yields.iocDmaReadRequest input hs).returns (ret, s') hrun

theorem OpsKeep.iocDmaReadRequestA (h : OpsKeep ops I) {input : TDmaTpceDataRead}
    (hrun : iocDmaReadRequestA ops input s = .ok (ret, s')) (hs : I s) : I s' :=
  (h.yields.iocDmaReadRequestA input hs).returns (ret, s') hrun

/-- Two sets of operations that do the same under a map of their states, unless
those of the first set end before -/
structure OpsMap {τ : Type} (stops : Fault → Prop) (f : σ → τ) (ops : LegacyOps σ) (ops' : LegacyOps τ) : Prop where
  read : ∀ r s, Curtails stops ((ops.readKernelDmaBuffer r s).map (Prod.map id f)) (ops'.readKernelDmaBuffer r (f s))
  kernelDma : ∀ s, ops.hasKernelDma s = ops'.hasKernelDma (f s)
  copy : ∀ dst offset length s,
    Prod.map id f (ops.copyToUser dst offset length s) = ops'.copyToUser dst offset length (f s)

section
variable {τ : Type} {stops : Fault → Prop} {f : σ → τ} {ops' : LegacyOps τ}

theorem OpsMap.copyKernelDmaToUser (h : OpsMap stops f ops ops') (dst : U64) (copyOffset copyLen : U32) (s : σ) :
    Prod.map id f (copyKernelDmaToUser ops dst copyOffset copyLen s) =
      LegacyRead.copyKernelDmaToUser ops' dst copyOffset copyLen (f s) := by
  simp only [LegacyRead.copyKernelDmaToUser, h.kernelDma, ← h.copy]
  split
  · rfl
  split
  · rfl
  split
  · rfl
  · rfl

theorem OpsMap.readKernelDmaToUser (h : OpsMap stops f ops ops') (dst : U64) (read : KernelRead)
    (copyOffset copyLen : U32) (s : σ) :
    Curtails stops ((readKernelDmaToUser ops dst read copyOffset copyLen s).map (Prod.map id f))
      (LegacyRead.readKernelDmaToUser ops' dst read copyOffset copyLen (f s)) := by
  refine (h.read read s).map_bind fun r => Curtails.map_ite (.refl _ _) (.of_eq ?_)
  exact congrArg Except.ok (h.copyKernelDmaToUser dst copyOffset copyLen r.2)

theorem OpsMap.iocDmaReadRequest (h : OpsMap stops f ops ops') (input : TDmaRequestData) (s : σ) :
    Curtails stops ((iocDmaReadRequest ops input s).map (Prod.map id f))
      (LegacyRead.iocDmaReadRequest ops' input (f s)) :=
  h.readKernelDmaToUser ..

theorem OpsMap.readWholeBlock (h : OpsMap stops f ops ops') (input : TDmaTpceDataRead) (block : BlockRead) (s : σ) :
    Curtails stops ((readWholeBlock ops input block s).map (Prod.map id f))
      (LegacyRead.readWholeBlock ops' input block (f s)) := by
  refine (h.read _ s).map_bind fun r => Curtails.map_ite (.refl _ _) ?_
  simp only [Prod.map_snd, ← h.copyKernelDmaToUser]
  exact Curtails.map_ite (.refl _ _) (.refl _ _)

theorem OpsMap.readTwoSegments (h : OpsMap stops f ops ops') (input : TDmaTpceDataRead) (block : BlockRead) (s : σ) :
    Curtails stops ((readTwoSegments ops input block s).map (Prod.map id f))
      (LegacyRead.readTwoSegments ops' input block (f s)) := by
  refine Curtails.map_bind (k := id) (.of_eq (congrFun Except.map_id _)) fun seg => Curtails.map_ite (.refl _ _) ?_
  refine Curtails.map_bind (Curtails.map_ite (h.readKernelDmaToUser ..) (.refl _ _)) fun r => ?_
  exact Curtails.map_ite (.refl _ _) (Curtails.map_ite (h.readKernelDmaToUser ..) (.refl _ _))

theorem OpsMap.iocDmaReadRequestA (h : OpsMap stops f ops ops') (input : TDmaTpceDataRead) (s : σ) :
    Curtails stops ((iocDmaReadRequestA ops input s).map (Prod.map id f))
      (LegacyRead.iocDmaReadRequestA ops' input (f s)) := by
  refine Curtails.map_ite (.refl _ _) (Curtails.map_ite (.refl _ _) (Curtails.map_ite ?_ (Curtails.map_ite ?_ ?_)))
  · exact h.readKernelDmaToUser ..
  · exact h.readWholeBlock ..
  · exact h.readTwoSegments ..

end

end TpceDrv.LegacyRead
