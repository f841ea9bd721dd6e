import TpceDrv.DmaInfo
import TpceDrv.Mapping
import TpceDrv.PageTable

namespace TpceDrv.Device

open Descriptor DmaParams DmaInfo Mapping PageTable

structure TpceDmaRequest where
  id : U32
  params : TpceDmaTransferParams
  descriptors : U64
  descriptorsSize : U32
  descriptorsType : U8

/-- The driver's data of one device. A pointer to a mapping is its key in
`mapInfos`, the mappings that are in memory. A caller that waits for a default
transfer keeps `tpce->mutex`, and so does one that returns without the unlock.
`unmappedInUse` is a ghost: whether a mapping was ever unmapped under a channel
that had it in use. -/
structure TpceDev where
  dmaMappings : U32 → Option Nat
  mapInfos : Nat → Option TpceDmaMapInfo
  nextObj : Nat
  dmaMapSublist : Nat → List Nat
  files : List Nat
  nextFile : Nat
  pageTable : AlteraPciePageTable
  dmaInfo : Channel → TpceDmaInfo
  fastIrqMask : U32
  goingAway : Bool
  vmas : Channel → Nat
  waiting : Option Channel
  mutexLeaked : Bool
  unmappedInUse : Bool

def TpceDev.setInfo (dev : TpceDev) (c : Channel) (info : TpceDmaInfo) : TpceDev :=
  { dev with dmaInfo := Function.update dev.dmaInfo c info }

def TpceDev.setMapInfo (dev : TpceDev) (obj : Nat) (mapInfo : TpceDmaMapInfo) : TpceDev :=
  { dev with mapInfos := Function.update dev.mapInfos obj (some mapInfo) }

/-- Reading a mapping through a pointer -/
def TpceDev.mapInfo (dev : TpceDev) (obj : Nat) : Except Fault TpceDmaMapInfo :=
  match dev.mapInfos obj with
  | some mapInfo => .ok mapInfo
  | none => .error (.useAfterFree obj)

/-- `&tpce->dma_info[channel]` for a channel number that may be out of range -/
def channelOf (channel : Int) : Except Fault Channel :=
  if h : 0 ≤ channel ∧ channel < 3 then .ok ⟨channel.toNat, by omega⟩
  else .error (.channelIndex (BitVec.ofInt 8 channel))

def tpceIrqDma : Channel → U32
  | 0 => 0x001#32
  | 1 => 0x100#32
  | 2 => 0x400#32

/-- Whether the interrupt of a channel goes to the stream handler -/
def streamIrq (mask : U32) (c : Channel) : Bool := mask &&& tpceIrqDma c ≠ 0

def enableStreamIrq (dev : TpceDev) (c : Channel) : TpceDev :=
  { dev with fastIrqMask := dev.fastIrqMask ||| tpceIrqDma c }

def disableStreamIrq (dev : TpceDev) (c : Channel) : TpceDev :=
  { dev with fastIrqMask := dev.fastIrqMask &&& ~~~tpceIrqDma c }

def refcountSaturated : Nat := 0xc0000000

/-- A count that has been zero, or does not fit a positive `int`, saturates and
stays so. -/
def refcountInc (refs : Nat) : Nat :=
  if refs = 0 ∨ 2 ^ 31 - 1 ≤ refs then refcountSaturated else refs + 1

/-- The new count and whether it has become zero -/
def refcountDecAndTest (refs : Nat) : Nat × Bool :=
  if refs = 0 ∨ 2 ^ 31 ≤ refs then (refcountSaturated, false) else (refs - 1, refs = 1)

def isPowerOf2 (n : U32) : Bool := n ≠ 0 && n &&& (n - 1) = 0

/-- `vmallocOk` tells whether `vmalloc_user` finds memory. -/
def tpceInitStreamInfo (vmallocOk : Bool) (info : TpceDmaInfo) : Int × TpceDmaInfo :=
  let stream := info.streamInfo
  let numDescriptors := info.descSize / descriptorSize
  let mask := if isPowerOf2 numDescriptors then numDescriptors - 1 else 0
  match stream.state with
  | none =>
      if vmallocOk then (0, { info with streamInfo := ⟨some ⟨0, 0⟩, 1, 0, 0, mask⟩ })
      else (-Errno.enomem, info)
  | some _ =>
      (0, { info with streamInfo := ⟨some ⟨0, 0⟩, refcountInc stream.stateRefs, 0, 0, mask⟩ })

def tpceFreeStreamInfo (info : TpceDmaInfo) : TpceDmaInfo :=
  let (refs, zero) := refcountDecAndTest info.streamInfo.stateRefs
  { info with streamInfo := { info.streamInfo with
      stateRefs := refs
      state := if zero then none else info.streamInfo.state } }

def incStreamRefs (info : TpceDmaInfo) : TpceDmaInfo :=
  { info with streamInfo :=
      { info.streamInfo with stateRefs := refcountInc info.streamInfo.stateRefs } }

/-- The driver's mapping of the kernel buffer, its pages in one range. -/
def driverBuffer (sgt : SgTable) : TpceDmaMapInfo where
  obj := 0
  owner := none
  bufUsr := false
  id := 1
  size := 0x100000#32
  numPages := 256
  direction := tpceDmaBidirectional
  activeChannel := tpceMapInactive
  sgt := sgt

/-- The device after `tpce_device_init`. -/
def TpceDev.init (sgt : SgTable) : TpceDev where
  dmaMappings := Function.update (fun _ => none) 1 (some 0)
  mapInfos := Function.update (fun _ => none) 0 (some (driverBuffer sgt))
  nextObj := 1
  dmaMapSublist := fun _ => []
  files := []
  nextFile := 0
  pageTable := .empty
  dmaInfo := fun _ => .zero
  fastIrqMask := 0
  goingAway := false
  vmas := fun _ => 0
  waiting := none
  mutexLeaked := false
  unmappedInUse := false

/-- A device whose driver buffer is one range. -/
def freshDevice : TpceDev := TpceDev.init ⟨.last [⟨0x8000000#64, 0x100000#32, 0⟩], 1⟩

/-- The mapping is on the list of the registered ones under its id. -/
def TpceDev.Registered (dev : TpceDev) (obj : Nat) (mapInfo : TpceDmaMapInfo) : Prop :=
  dev.mapInfos obj = some mapInfo ∧ dev.dmaMappings mapInfo.id = some obj

@[simp] theorem setInfo_dmaInfo (dev : TpceDev) (c : Channel) (info : TpceDmaInfo) :
    (dev.setInfo c info).dmaInfo c = info := Function.update_self ..

theorem setInfo_dmaInfo_ne (dev : TpceDev) {c c' : Channel} (info : TpceDmaInfo) (h : c' ≠ c) :
    (dev.setInfo c info).dmaInfo c' = dev.dmaInfo c' := Function.update_of_ne h ..

theorem channelOf_eq_ok {channel : Int} {c : Channel} : channelOf channel = .ok c ↔ channel = c.val := by
  have hlt := c.isLt
  simp only [channelOf]
  constructor
  · intro h
    split at h
    · cases h
      dsimp only
      omega
    · cases h
  · rintro rfl
    rw [dif_pos (by omega)]
    rfl

theorem mapInfo_eq_ok {dev : TpceDev} {obj : Nat} {mapInfo : TpceDmaMapInfo} :
    dev.mapInfo obj = .ok mapInfo ↔ dev.mapInfos obj = some mapInfo := by
  simp only [TpceDev.mapInfo]
  cases dev.mapInfos obj with
  | none => simp
  | some m => simp

end TpceDrv.Device
