import TpceDrv.RequestSteps
import TpceDrv.Library.Reads

namespace TpceDrv.RequestReads

open Descriptor DmaParams DmaInfo Mapping Device DescriptorCheck ChannelControl Requests Library.Reads

/-- The fields of a request that are read once it is validated -/
inductive Field
  | id
  | mapOffset
  | deviceAddr
  | bytesTotal
  | bytesPerDescriptor
  | readStride
  | writeStride
  | channel
  | transferMode
  | direction
  | interruptInterval
  | burstCount
  | descriptors
  | descriptorsSize
  deriving DecidableEq, Repr

abbrev Field.Value : Field → Type
  | .readStride | .writeStride => U16
  | .channel | .transferMode | .direction | .interruptInterval | .burstCount => U8
  | .descriptors => U64
  | _ => U32

instance (f : Field) : DecidableEq f.Value :=
  match f with
  | .readStride | .writeStride => inferInstanceAs (DecidableEq U16)
  | .channel | .transferMode | .direction | .interruptInterval | .burstCount => inferInstanceAs (DecidableEq U8)
  | .descriptors => inferInstanceAs (DecidableEq U64)
  | .id | .mapOffset | .deviceAddr | .bytesTotal | .bytesPerDescriptor | .descriptorsSize =>
      inferInstanceAs (DecidableEq U32)

def Field.of (req : TpceDmaRequest) : (f : Field) → f.Value
  | .id => req.id
  | .mapOffset => req.params.mapOffset
  | .deviceAddr => req.params.deviceAddr
  | .bytesTotal => req.params.bytesTotal
  | .bytesPerDescriptor => req.params.bytesPerDescriptor
  | .readStride => req.params.readStride
  | .writeStride => req.params.writeStride
  | .channel => req.params.channel
  | .transferMode => req.params.transferMode
  | .direction => req.params.direction
  | .interruptInterval => req.params.interruptInterval
  | .burstCount => req.params.burstCount
  | .descriptors => req.descriptors
  | .descriptorsSize => req.descriptorsSize

/-- A part of `dma_execute`, which keeps a pointer to the request -/
abbrev Reader (α : Type) := Prog Field Field.Value α

def fetch (f : Field) : Reader f.Value := get f

def paramsOf (σ : (f : Field) → f.Value) : TpceDmaTransferParams :=
  ⟨σ .mapOffset, σ .deviceAddr, σ .bytesTotal, σ .bytesPerDescriptor, σ .readStride, σ .writeStride, σ .channel,
    σ .transferMode, σ .direction, σ .interruptInterval, σ .burstCount⟩

/-- All the parameters, field by field -/
def readParams : Reader TpceDmaTransferParams := do
  let mapOffset ← fetch .mapOffset
  let deviceAddr ← fetch .deviceAddr
  let bytesTotal ← fetch .bytesTotal
  let bytesPerDescriptor ← fetch .bytesPerDescriptor
  let readStride ← fetch .readStride
  let writeStride ← fetch .writeStride
  let channel : U8 ← fetch .channel
  let transferMode ← fetch .transferMode
  let direction ← fetch .direction
  let interruptInterval ← fetch .interruptInterval
  let burstCount ← fetch .burstCount
  pure ⟨mapOffset, deviceAddr, bytesTotal, bytesPerDescriptor, readStride, writeStride, channel, transferMode,
    direction, interruptInterval, burstCount⟩

/-- A function that is handed `&req->params`: it may read them in any order and
as often as it likes. -/
structure ParamsReader {α : Type} (f : TpceDmaTransferParams → α) where
  prog : Reader α
  computes : ∀ σ, prog.eval σ = f (paramsOf σ)

/-- The functions that `init_dma_info` calls with the parameters -/
structure Callees where
  maxDescriptorsNeeded : ParamsReader tpceMaxDescriptorsNeeded
  hasTerminatingDescriptor : ParamsReader tpceDmaHasTerminatingDescriptor
  generate : ∀ mapInfo size info, ParamsReader fun params => generateDesc mapInfo params size info

def userDescReads (env : InitEnv) (mapInfo : TpceDmaMapInfo) (allocSize : U32) (info : TpceDmaInfo) :
    Reader (Int × TpceDmaInfo) := do
  let _src ← fetch .descriptors
  let copySize ← fetch .descriptorsSize
  if !env.copyOk then pure (-Errno.eio, info)
  else do
    let ncopy := (copySize / descriptorSize).toNat
    let info := { info with desc := (List.range ncopy).map env.userDesc ++ info.desc.drop ncopy }
    let direction ← fetch .direction
    let checkSize ← fetch .descriptorsSize
    let checkReadAddr := direction = tpceDmaToDevice
    if tpceValidateDescMem mapInfo info.desc (checkSize / descriptorSize).toNat checkReadAddr ≠ 0 then
      pure (-Errno.einval, info)
    else pure (0, { info with descActive := allocSize })

def allocSizeReads (callees : Callees) (descriptors : U64) : Reader U32 :=
  if descriptors ≠ 0 then fetch .descriptorsSize
  else do
    let n ← callees.maxDescriptorsNeeded.prog
    pure (n * descriptorSize)

/-- The descriptors, once memory is allocated for them -/
def fillReads (callees : Callees) (env : InitEnv) (mapInfo : TpceDmaMapInfo) (descriptors : U64) (allocSize : U32)
    (info : TpceDmaInfo) : Reader (Except Fault (Int × TpceDmaInfo)) :=
  if descriptors ≠ 0 then do
    let r ← userDescReads env mapInfo allocSize info
    pure (.ok r)
  else (callees.generate mapInfo allocSize info).prog

def preparedReads (callees : Callees) (env : InitEnv) (mapInfo : TpceDmaMapInfo) (info : TpceDmaInfo)
    (descriptors : U64) (allocSize : U32) (terminating : Bool) : Reader (Except Fault (Int × TpceDmaInfo)) :=
  let size := if terminating then allocSize + descriptorSize else allocSize
  let (err, info) := tpceDmaAllocDescriptorsMem env info size
  if err ≠ 0 then pure (.ok (err, info))
  else do
    let r ← fillReads callees env mapInfo descriptors allocSize info
    pure do
      let (err, info) ← r
      if err ≠ 0 then pure (err, info)
      else
        let info ← copyToDma info
        pure (0, info)

/-- Everything in `init_dma_info` up to the stream data -/
def prepareReads (callees : Callees) (env : InitEnv) (mapInfo : TpceDmaMapInfo) (info : TpceDmaInfo) :
    Reader (Except Fault (Int × TpceDmaInfo)) := do
  let descriptors : U64 ← fetch .descriptors
  let allocSize ← allocSizeReads callees descriptors
  let terminating ← callees.hasTerminatingDescriptor.prog
  preparedReads callees env mapInfo info descriptors allocSize terminating

/-- The end of `init_dma_info`, which copies the parameters -/
def acceptReads (env : InitEnv) (dev : TpceDev) (c : Channel) (channel : U8) (obj : ℕ) (mapInfo : TpceDmaMapInfo)
    (info : TpceDmaInfo) (transferMode : U8) : Reader (Int × TpceDev) :=
  let (err, info) :=
    if transferMode = tpceDmaModeStream then tpceInitStreamInfo env.vmallocOk info else (0, info)
  if err ≠ 0 then pure (err, dev.setInfo c info)
  else do
    let params ← readParams
    let info := { info with params := params, mapInfo := some obj, state := .initialized }
    pure (channel.toInt, (dev.setInfo c info).setMapInfo obj { mapInfo with activeChannel := channel.toInt })

/-- `init_dma_info` behind the lookup of the mapping -/
def mappedReads (callees : Callees) (env : InitEnv) (dev : TpceDev) (c : Channel) (channel : U8) (obj : ℕ)
    (mapInfo : TpceDmaMapInfo) : Reader (Except Fault (Int × TpceDev)) := do
  let r ← prepareReads callees env mapInfo (dev.dmaInfo c)
  match r with
  | .error fault => pure (.error fault)
  | .ok (err, info) =>
      if err ≠ 0 then pure (.ok (err, dev.setInfo c info))
      else do
        let transferMode : U8 ← fetch .transferMode
        let r ← acceptReads env dev c channel obj mapInfo info transferMode
        pure (.ok r)

def loadedReads (callees : Callees) (env : InitEnv) (dev : TpceDev) (c : Channel) (channel : U8) (id : U32) :
    Reader (Except Fault (Int × TpceDev)) :=
  match dev.dmaMappings id with
  | none => pure (.ok (-Errno.eio, dev))
  | some obj =>
      match dev.mapInfo obj with
      | .error fault => pure (.error fault)
      | .ok mapInfo => mappedReads callees env dev c channel obj mapInfo

/-- `init_dma_info` with each read of a field -/
def initReads (callees : Callees) (env : InitEnv) (dev : TpceDev) (c : Channel) :
    Reader (Except Fault (Int × TpceDev)) := do
  let channel : U8 ← fetch .channel
  let id : U32 ← fetch .id
  loadedReads callees env dev c channel id

/-- What the set-up leaves to dispatch, if it is accepted -/
inductive SetUp
  | refused (err : Int)
  | ready (c : Channel) (dev : TpceDev)

def setUp (c : Channel) (r : Except Fault (Int × TpceDev)) : Except Fault SetUp := do
  let (err, dev) ← r
  if err < 0 then pure (.refused err) else pure (.ready c dev)

/-- `dma_execute` in front of `dma_dispatch` -/
def executeReads (callees : Callees) (env : InitEnv) (dev : TpceDev) : Reader (Except Fault SetUp) := do
  let channel : U8 ← fetch .channel
  if h : channel.toNat < 3 then do
    let r ← initReads callees env dev ⟨channel.toNat, h⟩
    pure (setUp ⟨channel.toNat, h⟩ r)
  else pure (.ok (.refused (-Errno.einval)))

variable {callees : Callees} {env : InitEnv} {dev dev' : TpceDev} {c : Channel} {req : TpceDmaRequest}
variable {mapInfo : TpceDmaMapInfo} {info : TpceDmaInfo}

@[simp] theorem eval_fetch (σ : (f : Field) → f.Value) (f : Field) : (fetch f).eval σ = σ f :=
  eval_get σ f

theorem eval_readParams (σ : (f : Field) → f.Value) : readParams.eval σ = paramsOf σ := rfl

/-- A function that reads each parameter once -/
def ParamsReader.snapshot {α : Type} (f : TpceDmaTransferParams → α) : ParamsReader f where
  prog := do
    let params ← readParams
    pure (f params)
  computes := fun σ => by rw [eval_bind, eval_readParams, eval_pure]

def Callees.snapshots : Callees := ⟨.snapshot _, .snapshot _, fun _ _ _ => .snapshot _⟩

theorem eval_userDescReads : (userDescReads env mapInfo req.descriptorsSize info).eval (Field.of req) =
    takeUserDesc env mapInfo req info := by
  simp only [userDescReads, takeUserDesc, eval_bind, eval_ite, eval_pure]
  rfl

theorem eval_allocSizeReads : (allocSizeReads callees req.descriptors).eval (Field.of req) = descAllocSize req := by
  simp only [allocSizeReads, eval_ite, eval_bind, eval_pure, callees.maxDescriptorsNeeded.computes]
  rfl

theorem eval_fillReads : (fillReads callees env mapInfo req.descriptors (descAllocSize req) info).eval (Field.of req) =
    if req.descriptors ≠ 0 then .ok (takeUserDesc env mapInfo req info)
    else generateDesc mapInfo req.params (descAllocSize req) info := by
  simp only [fillReads]
  split
  · rename_i huser
    have hsize : descAllocSize req = req.descriptorsSize := if_pos huser
    rw [hsize, eval_bind, eval_userDescReads, eval_pure]
  · exact (callees.generate mapInfo _ info).computes _

theorem eval_preparedReads :
    (preparedReads callees env mapInfo info req.descriptors (descAllocSize req)
      (tpceDmaHasTerminatingDescriptor req.params)).eval (Field.of req) = prepareDesc env mapInfo req info := by
  simp only [preparedReads, prepareDesc]
  generalize tpceDmaAllocDescriptorsMem env info
    (if tpceDmaHasTerminatingDescriptor req.params then descAllocSize req + descriptorSize
      else descAllocSize req) = r
  obtain ⟨err, buf⟩ := r
  by_cases herr : err ≠ 0
  · rw [if_pos herr, if_pos herr]
    rfl
  · rw [if_neg herr, if_neg herr, eval_bind, eval_fillReads]
    split
    · rfl
    · rfl

theorem eval_prepareReads : (prepareReads callees env mapInfo info).eval (Field.of req) =
    prepareDesc env mapInfo req info := by
  have hterm := callees.hasTerminatingDescriptor.computes (Field.of req)
  refine (eval_bind ..).trans ((eval_bind ..).trans ((eval_bind ..).trans ?_))
  change (preparedReads callees env mapInfo info req.descriptors
    ((allocSizeReads callees req.descriptors).eval (Field.of req))
    (callees.hasTerminatingDescriptor.prog.eval (Field.of req))).eval (Field.of req) = _
  rw [eval_allocSizeReads, hterm]
  exact eval_preparedReads

theorem channel_toInt {c : Channel} (hc : c.val = req.params.channel.toNat) :
    req.params.channel.toInt = (c.val : Int) := by
  have hlt := c.isLt
  rw [hc, BitVec.toInt_eq_toNat_of_lt (by omega)]

theorem eval_acceptReads {c : Channel} {obj : ℕ} (hc : c.val = req.params.channel.toNat) :
    (acceptReads env dev c req.params.channel obj mapInfo info req.params.transferMode).eval (Field.of req) =
      let (err, info) :=
        if req.params.transferMode = tpceDmaModeStream then tpceInitStreamInfo env.vmallocOk info
        else (0, info)
      if err ≠ 0 then (err, dev.setInfo c info)
      else
        let info := { info with params := req.params, mapInfo := some obj, state := .initialized }
        (c.val, (dev.setInfo c info).setMapInfo obj { mapInfo with activeChannel := c.val }) := by
  simp only [acceptReads]
  generalize (if req.params.transferMode = tpceDmaModeStream then tpceInitStreamInfo env.vmallocOk info
    else (0, info)) = r
  obtain ⟨err, info₁⟩ := r
  rw [channel_toInt hc]
  by_cases herr : err ≠ 0
  · rw [if_pos herr, if_pos herr, eval_pure]
  · rw [if_neg herr, if_neg herr, eval_bind, eval_readParams, eval_pure]
    rfl

theorem eval_mappedReads {c : Channel} {obj : ℕ} (hc : c.val = req.params.channel.toNat)
    (hmap : dev.dmaMappings req.id = some obj) (hobj : dev.mapInfo obj = .ok mapInfo) :
    (mappedReads callees env dev c req.params.channel obj mapInfo).eval (Field.of req) =
      initDmaInfo env dev c req := by
  refine (eval_bind ..).trans ?_
  rw [eval_prepareReads]
  simp only [initDmaInfo, hmap, hobj]
  change _ = Except.bind (prepareDesc env mapInfo req (dev.dmaInfo c)) _
  cases prepareDesc env mapInfo req (dev.dmaInfo c) with
  | error fault => rfl
  | ok r =>
      obtain ⟨err, info⟩ := r
      by_cases herr : err ≠ 0
      · simp only [Except.bind, if_pos herr]
        rfl
      · simp only [Except.bind, if_neg herr]
        refine (eval_bind ..).trans ((eval_bind ..).trans ?_)
        refine (congrArg Except.ok (eval_acceptReads hc)).trans ?_
        exact apply_ite Except.ok _ _ _

theorem eval_initReads {c : Channel} (hc : c.val = req.params.channel.toNat) :
    (initReads callees env dev c).eval (Field.of req) = initDmaInfo env dev c req := by
  change (loadedReads callees env dev c req.params.channel req.id).eval (Field.of req) = _
  simp only [loadedReads]
  cases hmap : dev.dmaMappings req.id with
  | none =>
      simp only [initDmaInfo, hmap, eval_pure]
      rfl
  | some obj =>
      cases hobj : dev.mapInfo obj with
      | error fault =>
          simp only [initDmaInfo, hmap, hobj, eval_pure]
          rfl
      | ok mapInfo =>
          simp only [hobj]
          exact eval_mappedReads hc hmap hobj

theorem eval_executeReads : (executeReads callees env dev).eval (Field.of req) =
    if h : req.params.channel.toNat < 3 then
      setUp ⟨req.params.channel.toNat, h⟩ (initDmaInfo env dev ⟨req.params.channel.toNat, h⟩ req)
    else .ok (.refused (-Errno.einval)) := by
  refine (eval_bind ..).trans ?_
  rw [eval_fetch, Field.of]
  by_cases hchan : req.params.channel.toNat < 3
  · rw [dif_pos hchan, dif_pos hchan, eval_bind, eval_initReads rfl, eval_pure]
  · rw [dif_neg hchan, dif_neg hchan, eval_pure]

theorem setUp_ready {c c' : Channel} {r : Except Fault (Int × TpceDev)} (h : setUp c r = .ok (.ready c' dev')) :
    c' = c ∧ ∃ ret, r = .ok (ret, dev') ∧ 0 ≤ ret := by
  cases r with
  | error fault => cases h
  | ok out =>
      obtain ⟨ret, dev₁⟩ := out
      change (if ret < 0 then pure (.refused ret) else pure (.ready c dev₁)) = Except.ok (SetUp.ready c' dev') at h
      split at h
      · cases h
      · rename_i hret
        cases h
        exact ⟨rfl, ret, rfl, Int.not_lt.mp hret⟩

theorem setUp_of_nonneg {c : Channel} {ret : Int} (h : 0 ≤ ret) : setUp c (.ok (ret, dev)) = .ok (.ready c dev) := by
  change (if ret < 0 then Except.ok (SetUp.refused ret) else .ok (SetUp.ready c dev)) = _
  rw [if_neg (Int.not_lt.mpr h)]

/-- With an unchanged request the set-up is the one of `init_dma_info`. -/
theorem executeReads_ready {c : Channel}
    (h : (executeReads callees env dev).eval (Field.of req) = .ok (.ready c dev')) :
    c.val = req.params.channel.toNat ∧ ∃ ret, initDmaInfo env dev c req = .ok (ret, dev') ∧ 0 ≤ ret := by
  rw [eval_executeReads] at h
  split at h
  · obtain ⟨rfl, hinit⟩ := setUp_ready h
    exact ⟨rfl, hinit⟩
  · cases h

theorem executeReads_of_accepted {c : Channel} (hc : c.val = req.params.channel.toNat)
    (hinit : initDmaInfo env dev c req = .ok (c.val, dev')) :
    (executeReads callees env dev).eval (Field.of req) = .ok (.ready c dev') := by
  have hlt : req.params.channel.toNat < 3 := hc ▸ c.isLt
  obtain rfl : c = ⟨req.params.channel.toNat, hlt⟩ := Fin.ext hc
  rw [eval_executeReads, dif_pos hlt, hinit]
  exact setUp_of_nonneg (Int.natCast_nonneg _)

end TpceDrv.RequestReads
