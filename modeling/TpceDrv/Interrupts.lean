import TpceDrv.Driver

namespace TpceDrv.Interrupts

open Descriptor DmaInfo Mapping Device Requests Driver

/-- The way of a channel's completion interrupts, each list with the transfers
that are behind it: the ones the controller works on, its status bit, the copy of
the ISR, the bit of `irqsrc`, the copy of the tasklet, and the queued and the
running work item. A bit is set while its list has a transfer in it. -/
structure ChannelIrq where
  working : List Nat
  status : List Nat
  isr : List Nat
  irqsrc : List Nat
  tasklet : List Nat
  queued : List Nat
  running : List Nat
  deriving DecidableEq

def ChannelIrq.none : ChannelIrq := ⟨[], [], [], [], [], [], []⟩

/-- The interrupts that have been raised and not been used up -/
def ChannelIrq.held (irq : ChannelIrq) : List Nat :=
  irq.status ++ irq.isr ++ irq.irqsrc ++ irq.tasklet ++ irq.queued ++ irq.running

def ChannelIrq.leftOver (irq : ChannelIrq) : List Nat := irq.working ++ irq.held

/-- The device with its interrupts. Each start of a controller is a transfer of
its own, `current` the last one of a channel. `ended` is how the wait of the
waiting caller has ended. The last three fields are ghosts: the transfers that
have raised an interrupt, the ones whose caller got 0, and each transfer that was
marked complete with the ones behind the work item. -/
structure Sys where
  dev : TpceDev
  irq : Channel → ChannelIrq
  irqEnable : Bool
  isrActive : Bool
  isrApp : Bool
  taskletScheduled : Bool
  taskletActive : Bool
  started : Nat
  current : Channel → Nat
  ended : Option WaitEnd
  raised : List Nat
  succeeded : List Nat
  marked : List (Nat × List Nat)

def Sys.init (sgt : SgTable) : Sys where
  dev := TpceDev.init sgt
  irq := fun _ => .none
  irqEnable := true
  isrActive := false
  isrApp := false
  taskletScheduled := false
  taskletActive := false
  started := 1
  current := fun _ => 0
  ended := none
  raised := []
  succeeded := []
  marked := []

/-- What happens next in some context: a call of the driver up to the wait of a
default transfer, the two steps behind the wait, the controllers, and the parts
of the ISR, the tasklet and the work items. -/
inductive Event
  | call (op : Op)
  | waitEnd (w : WaitEnd)
  | resetAfterWait
  | raise (c : Channel) (t : Nat)
  | finish (c : Channel) (t : Nat)
  | controllerReset (c : Channel)
  | isrEnter (app : Bool)
  | isrLeave
  | taskletEnter
  | queueWork (c : Channel)
  | taskletLeave
  | workStart (c : Channel)
  | workRun (c : Channel)

def Sys.setIrq (s : Sys) (c : Channel) (irq : ChannelIrq) : Sys :=
  { s with irq := Function.update s.irq c irq }

def someChannel (p : Channel → Bool) : Bool := (List.finRange 3).any p

/-- The calls that are not steps of the interrupt path. A removal waits for the
ISR, the tasklet and the work items. -/
def callable (s : Sys) : Op → Bool
  | .wake _ | .dmaWork _ => false
  | .remove => !s.isrActive && !s.taskletScheduled && !s.taskletActive &&
      !someChannel fun c => !(s.irq c).running.isEmpty
  | _ => true

/-- `cancel_work_sync` of a removal, with the interrupts off -/
def cancelWork (s : Sys) : Op → Sys
  | .remove => { s with irqEnable := false, irq := fun c => { s.irq c with queued := [] } }
  | _ => s

/-- Whether the controller of a channel was started. -/
def starts (dev dev' : TpceDev) (c : Channel) : Bool :=
  (dev.dmaInfo c).state ≠ .running && (dev'.dmaInfo c).state = .running

def Sys.afterCall (s : Sys) (dev : TpceDev) : Sys :=
  { s with
    dev := dev
    irq := fun c => if starts s.dev dev c then
      { s.irq c with working := s.started :: (s.irq c).working } else s.irq c
    current := fun c => if starts s.dev dev c then s.started else s.current c
    started := s.started + 1 }

def waitEnd (s : Sys) (w : WaitEnd) : Option Sys :=
  match s.dev.waiting with
  | none => none
  | some c =>
      if s.ended = none ∧ (w = .completed ↔ (s.dev.dmaInfo c).state ≠ .running) then
        some { s with ended := some w }
      else none

def resetAfterWait (s : Sys) : Option Sys :=
  match s.dev.waiting, s.ended with
  | some c, some w => (Driver.step s.dev (.wake w)).map fun dev =>
      { s with
        dev := dev
        ended := none
        succeeded := if w.status = 0 then s.current c :: s.succeeded else s.succeeded }
  | _, _ => none

/-- Whether something is left of the ISR's copy without the fast interrupts -/
def slowIrq (s : Sys) : Bool :=
  s.isrApp || someChannel fun c => !(s.irq c).isr.isEmpty && !streamIrq s.dev.fastIrqMask c

/-- The stream handler clears the status bit and keeps the interrupt to itself. -/
def isrChannel (fast : Bool) (irq : ChannelIrq) : ChannelIrq :=
  if fast then
    if irq.isr.isEmpty then irq else { irq with status := [], isr := [] }
  else { irq with isr := [], irqsrc := irq.irqsrc ++ irq.isr }

def isrLeave (s : Sys) : Sys :=
  { s with
    irq := fun c => isrChannel (streamIrq s.dev.fastIrqMask c) (s.irq c)
    irqEnable := s.irqEnable && !slowIrq s
    isrActive := false
    taskletScheduled := s.taskletScheduled || slowIrq s }

def taskletEnter (s : Sys) : Sys :=
  { s with
    irq := fun c => { s.irq c with irqsrc := [], tasklet := (s.irq c).irqsrc }
    taskletScheduled := false
    taskletActive := true }

def taskletLeave (s : Sys) : Sys :=
  { s with
    irqEnable := s.irqEnable || !s.dev.goingAway
    taskletActive := false }

/-- `queue_work` does nothing to an item that is queued already. -/
def queueWork (s : Sys) (c : Channel) : Sys :=
  let irq := s.irq c
  s.setIrq c { irq with status := [], tasklet := [], queued := irq.queued ++ irq.tasklet }

def workStart (s : Sys) (c : Channel) : Sys :=
  s.setIrq c { s.irq c with queued := [], running := (s.irq c).queued }

def marks (dev dev' : TpceDev) (c : Channel) : Bool :=
  (dev.dmaInfo c).state = .running && (dev'.dmaInfo c).state = .complete

def workRun (s : Sys) (c : Channel) (dev : TpceDev) : Sys :=
  { s.setIrq c { s.irq c with running := [] } with
    dev := dev
    marked := if marks s.dev dev c then (s.current c, (s.irq c).running) :: s.marked else s.marked }

/-- A controller works on the transfers that were started on it until it has
finished them or is reset, and each of its interrupts is one of theirs. -/
def step (s : Sys) : Event → Option Sys
  | .call op =>
      if callable s op then (Driver.step s.dev op).map (cancelWork s op).afterCall else none
  | .waitEnd w => waitEnd s w
  | .resetAfterWait => resetAfterWait s
  | .raise c t =>
      let irq := s.irq c
      if irq.working.contains t then
        some { s.setIrq c { irq with status := t :: irq.status } with raised := t :: s.raised }
      else none
  | .finish c t => some (s.setIrq c { s.irq c with working := (s.irq c).working.erase t })
  | .controllerReset c => some (s.setIrq c { s.irq c with working := [], status := [] })
  | .isrEnter app =>
      if s.irqEnable && !s.isrActive then
        some { s with
          irq := fun c => { s.irq c with isr := (s.irq c).status }
          isrActive := true
          isrApp := app }
      else none
  | .isrLeave => if s.isrActive then some (isrLeave s) else none
  | .taskletEnter => if s.taskletScheduled && !s.taskletActive then some (taskletEnter s) else none
  | .queueWork c =>
      if s.taskletActive && !(s.irq c).tasklet.isEmpty then some (queueWork s c) else none
  | .taskletLeave =>
      if s.taskletActive && !someChannel fun c => !(s.irq c).tasklet.isEmpty then some (taskletLeave s)
      else none
  | .workStart c =>
      if !(s.irq c).queued.isEmpty && (s.irq c).running.isEmpty then some (workStart s c) else none
  | .workRun c =>
      if (s.irq c).running.isEmpty then none
      else (Driver.step s.dev (.dmaWork c)).map (workRun s c)

end TpceDrv.Interrupts
