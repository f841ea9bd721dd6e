import TpceDrv.ProbeRollback

namespace TpceDrv.DeviceLife

open DmaInfo Mapping Device Requests Driver Resources Probe Library.Holdings Library.Traces

/-- Between `goAway` and `remove` the removal waits for the mutex again. -/
inductive Stage
  | live
  | going
  | removed
  deriving DecidableEq, Repr

/-- The device from its probe on, with what has been acquired and given back so far.
`stranded` are the parts of the mappings that the removal has taken off the table and
not freed. -/
structure Machine where
  dev : TpceDev
  pciBars : Bars
  refs : ℕ
  stage : Stage
  stranded : List Item
  trace : List (Access Item)

def Machine.start (board : Board) (trace : List (Access Item)) : Machine :=
  ⟨board.dev, board.pciBars, board.refs, .live, [], trace⟩

inductive Event
  | open (kzallocOk : Bool)
  | call (op : Op)

def ofNeitherKind (mapInfo : TpceDmaMapInfo) : Bool := !mapInfo.bufUsr && mapInfo.owner.isSome

def strandedParts (dev : TpceDev) : List Item :=
  (List.range dev.nextObj).flatMap fun obj =>
    match dev.mapInfos obj with
    | some mapInfo => if ofNeitherKind mapInfo then (mapParts mapInfo).map (Item.mapping obj) else []
    | none => []

def putTpceDev {ε : Type} (s : Machine) : Owning ε Machine := do
  if (refcountDecAndTest s.refs).2 then emit (.release .tpceDev) else pure ()
  pure { s with refs := (refcountDecAndTest s.refs).1 }

/-- Nothing gives the context of a file back. -/
def tpceOpen {ε : Type} (kzallocOk : Bool) (s : Machine) : Owning ε (ℤ × Machine) :=
  if s.stage = .removed ∨ s.dev.goingAway then pure (-Errno.enodev, s)
  else if !kzallocOk then pure (-Errno.enomem, s)
  else do
    emit (.acquire (.fileCtx s.dev.nextFile))
    pure (0, { s with dev := (Driver.tpceOpen s.dev).2, refs := refcountInc s.refs })

def tpceRelease (s : Machine) (file : ℕ) : Owning Fault (Outcome × Machine) := do
  let (out, dev) ← Ownership.tpceRelease s.dev file
  let s ← putTpceDev { s with dev := dev }
  pure (out, s)

/-- `tpce_device_remove` up to the removal of the device node -/
def goAway {ε : Type} (s : Machine) : Owning ε (Outcome × Machine) := do
  emit (.release .device)
  emit (.release .cdev)
  pure (.returned 0, { s with dev := { s.dev with goingAway := true }, stage := .going })

def finishRemove (s : Machine) : Owning Fault (Outcome × Machine) := do
  let (out, dev) ← Ownership.finishRemove s.dev
  tpcePciFree s.pciBars
  emit (.release .drvdata)
  emit (.release .tableEntry)
  emit (.release .minor)
  emit (.release .ioBuffer)
  let s ← putTpceDev { s with dev := dev, stage := .removed, stranded := strandedParts s.dev }
  pure (out, s)

def call (s : Machine) : Op → Owning Fault (Outcome × Machine)
  | .release file => tpceRelease s file
  | .goAway => goAway s
  | .remove => finishRemove s
  | op => do
      let (out, dev) ← Ownership.perform s.dev op
      pure (out, { s with dev := dev })

/-- The node can be opened as long as it is there, and the removal runs once. -/
def enabled (s : Machine) : Event → Bool
  | .open _ => true
  | .call .openFile => false
  | .call .goAway => s.stage = .live && Driver.enabled s.dev .goAway
  | .call .remove => s.stage = .going && Driver.enabled s.dev .remove
  | .call op => Driver.enabled s.dev op

def perform (s : Machine) : Event → Owning Fault Machine
  | .open kzallocOk => do
      let r ← tpceOpen kzallocOk s
      pure r.2
  | .call op => do
      let r ← call s op
      pure r.2

/-- One call that the driver survives -/
def step (s : Machine) (event : Event) : Option Machine :=
  if enabled s event then (perform s event).run.toOption.map fun r => { r.1 with trace := s.trace ++ r.2 } else none

/-- What the driver still refers to -/
def RefersTo (s : Machine) : Item → Prop
  | .tpceDev => 0 < s.refs
  | .device | .cdev => s.stage = .live
  | .ioBuffer | .minor | .tableEntry | .drvdata | .pciDevice | .pciRegions | .bar _ | .irqVectors | .irq =>
      s.stage ≠ .removed
  | .mapping obj part => ∃ m, s.dev.mapInfos obj = some m ∧ part ∈ mapParts m
  | .desc c => (s.dev.dmaInfo c).desc ≠ []
  | .descDma c => (s.dev.dmaInfo c).descDma ≠ []
  | .streamState c => (s.dev.dmaInfo c).streamInfo.state ≠ none
  | .fileCtx file => file < s.dev.nextFile

/-- What is held is what the driver refers to and what it has left behind, and nothing
has been given back that was not held. -/
def Accounted (s : Machine) : Prop :=
  ∃ held, heldAfter ∅ s.trace = some held ∧ ∀ k, k ∈ held ↔ RefersTo s k ∨ k ∈ s.stranded

end TpceDrv.DeviceLife
