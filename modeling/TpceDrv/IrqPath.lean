import TpceDrv.Device
import TpceDrv.Library.Runs

namespace TpceDrv.IrqPath

open Device

def tpceIrqDma0 : U32 := 0x001#32
def tpceIrqApp : U32 := 0x004#32
def tpceIrqDma1 : U32 := 0x100#32
def tpceIrqDma2 : U32 := 0x400#32
def tpceIrqEnabled : U32 := tpceIrqDma0 ||| tpceIrqApp ||| tpceIrqDma1 ||| tpceIrqDma2

def dmaBits : U32 := tpceIrqDma0 ||| tpceIrqDma1 ||| tpceIrqDma2

/-- Where `tpce_isr` is, with the number of its run and what is left of
`irqreg`: behind the read of the status register, in front of the write that
disables the interrupts, in front of the update of `irqsrc`, and in front of
`tasklet_hi_schedule`. -/
inductive Isr
  | idle
  | entered (run : ℕ) (irqreg : U32)
  | disabling (run : ℕ) (irqreg : U32)
  | recording (run : ℕ) (irqreg : U32)
  | scheduling (run : ℕ)
  deriving DecidableEq

/-- Where `tpce_tasklet` is: in front of the fetch of `irqsrc`, behind it, in
front of the application events, between the two accesses to their registers,
in front of the test of `going_away` and of the write that enables the
interrupts. -/
inductive Tasklet
  | idle
  | entered
  | fetched (irqsrc : U32)
  | app
  | clearing
  | leaving
  | enabling
  deriving DecidableEq

/-- What a run of the ISR has of the status register -/
structure Token where
  run : ℕ
  bits : U32
  deriving DecidableEq

/-- The part of `tpce_dev` that the interrupts use, with the registers behind it:
`irqEnable` and the pending events `intstat`. The fields behind `tasklet` are
ghosts: whether the ISR was the last to write the enable register, and what each
run of the ISR has read, handed to the stream handler, recorded in `irqsrc`, and
what each fetch has taken from there; and what `TPCE_IOC_EVENT` has returned. -/
structure Irq where
  fastIrqMask : U32
  irqsrc : U32
  goingAway : Bool
  status : U32
  pending : Bool
  queued : Channel → Bool
  irqEnable : U32
  intstat : U32
  scheduled : Bool
  isr : Isr
  tasklet : Tasklet
  offByIsr : Bool
  runs : ℕ
  reads : ℕ → U32
  streamed : List Token
  recorded : List Token
  taken : List (ℕ × Token)
  fetches : ℕ
  returned : List U32

/-- After the probe, with whatever the enable register holds -/
def Irq.init (irqEnable : U32) : Irq where
  fastIrqMask := 0
  irqsrc := 0
  goingAway := false
  status := 0
  pending := false
  queued := fun _ => false
  irqEnable := irqEnable
  intstat := 0
  scheduled := false
  isr := .idle
  tasklet := .idle
  offByIsr := false
  runs := 0
  reads := fun _ => 0
  streamed := []
  recorded := []
  taken := []
  fetches := 0
  returned := []

/-- The steps of the ISR and of the tasklet, what the device does, and the calls
that share their data. -/
inductive Step
  | isrEnter (irqreg : U32)
  | isrStream
  | isrDisable
  | isrRecord
  | isrSchedule
  | taskletEnter
  | taskletFetch
  | taskletQueue
  | taskletRead
  | taskletClear
  | taskletTest
  | taskletEnable
  | fire (events : U32)
  | ioctlEvent (file : ℕ) (copyOk : Bool)
  | poll (file : ℕ)
  | runWork (c : Channel)
  | enableStreamIrq (c : Channel)
  | disableStreamIrq (c : Channel)
  | goAway
  | removeDisable
  deriving DecidableEq

/-- `IRQ_NONE` if no interrupt is active -/
def isrEnter (s : Irq) (irqreg : U32) : Irq :=
  if irqreg = 0 then s
  else
    { s with
      isr := .entered s.runs irqreg
      runs := s.runs + 1
      reads := Function.update s.reads s.runs irqreg }

/-- The stream handlers run for the DMA bits of the fast mask, and all bits of the
mask are left out behind them. -/
def isrStream (s : Irq) (run : ℕ) (irqreg : U32) : Irq :=
  let irqregFm := irqreg &&& s.fastIrqMask
  if irqregFm ≠ 0 then
    let rest := irqreg &&& ~~~s.fastIrqMask
    { s with
      isr := if rest = 0 then .idle else .disabling run rest
      streamed := ⟨run, irqregFm &&& dmaBits⟩ :: s.streamed }
  else { s with isr := .disabling run irqreg }

def isrDisable (s : Irq) (run : ℕ) (irqreg : U32) : Irq :=
  { s with isr := .recording run irqreg, irqEnable := 0, offByIsr := true }

def isrRecord (s : Irq) (run : ℕ) (irqreg : U32) : Irq :=
  { s with isr := .scheduling run, irqsrc := s.irqsrc ||| irqreg, recorded := ⟨run, irqreg⟩ :: s.recorded }

/-- Scheduling a scheduled tasklet changes nothing. -/
def isrSchedule (s : Irq) : Irq := { s with isr := .idle, scheduled := true }

def taskletFetch (s : Irq) : Irq :=
  { s with
    tasklet := .fetched s.irqsrc
    irqsrc := 0
    recorded := []
    taken := s.recorded.map (fun t => (s.fetches, t)) ++ s.taken
    fetches := s.fetches + 1 }

def taskletQueue (s : Irq) (irqsrc : U32) : Irq :=
  { s with
    queued := fun c => s.queued c || streamIrq irqsrc c
    tasklet := if irqsrc &&& tpceIrqApp ≠ 0 then .app else .leaving }

/-- The step takes `events_lock`. -/
def taskletRead (s : Irq) : Irq :=
  { s with tasklet := .clearing, status := s.status ||| s.intstat, pending := true }

/-- The whole status goes to the clear register. -/
def taskletClear (s : Irq) : Irq := { s with tasklet := .leaving, intstat := s.intstat &&& ~~~s.status }

def taskletTest (s : Irq) : Irq := { s with tasklet := if s.goingAway then .idle else .enabling }

def taskletEnable (s : Irq) : Irq :=
  { s with tasklet := .idle, irqEnable := tpceIrqEnabled, offByIsr := false }

/-- The case `TPCE_IOC_EVENT` of `tpce_ioctl` -/
def ioctlEvent (s : Irq) (copyOk : Bool) : Irq :=
  { s with status := 0, returned := if copyOk then s.returned ++ [s.status] else s.returned }

def pollIn : U32 := 0x1#32
def pollRdNorm : U32 := 0x40#32

def tpcePoll (s : Irq) : U32 × Irq :=
  if s.pending then (pollIn ||| pollRdNorm, { s with pending := false }) else (0, s)

/-- Whether `events_lock` is free -/
def eventsFree (s : Irq) : Bool := s.tasklet ≠ .clearing

def step (s : Irq) : Step → Option Irq
  | .isrEnter irqreg => if s.isr = .idle then some (isrEnter s irqreg) else none
  | .isrStream =>
      match s.isr with
      | .entered run irqreg => some (isrStream s run irqreg)
      | _ => none
  | .isrDisable =>
      match s.isr with
      | .disabling run irqreg => some (isrDisable s run irqreg)
      | _ => none
  | .isrRecord =>
      match s.isr with
      | .recording run irqreg => some (isrRecord s run irqreg)
      | _ => none
  | .isrSchedule =>
      match s.isr with
      | .scheduling _ => some (isrSchedule s)
      | _ => none
  | .taskletEnter =>
      if s.scheduled ∧ s.tasklet = .idle then some { s with scheduled := false, tasklet := .entered } else none
  | .taskletFetch => if s.tasklet = .entered then some (taskletFetch s) else none
  | .taskletQueue =>
      match s.tasklet with
      | .fetched irqsrc => some (taskletQueue s irqsrc)
      | _ => none
  | .taskletRead => if s.tasklet = .app then some (taskletRead s) else none
  | .taskletClear => if s.tasklet = .clearing then some (taskletClear s) else none
  | .taskletTest => if s.tasklet = .leaving then some (taskletTest s) else none
  | .taskletEnable => if s.tasklet = .enabling then some (taskletEnable s) else none
  | .fire events => some { s with intstat := s.intstat ||| events }
  | .ioctlEvent _ copyOk => if eventsFree s then some (ioctlEvent s copyOk) else none
  | .poll _ => if eventsFree s then some (tpcePoll s).2 else none
  | .runWork c => some { s with queued := Function.update s.queued c false }
  | .enableStreamIrq c => some { s with fastIrqMask := s.fastIrqMask ||| tpceIrqDma c }
  | .disableStreamIrq c => some { s with fastIrqMask := s.fastIrqMask &&& ~~~tpceIrqDma c }
  | .goAway => some { s with goingAway := true }
  | .removeDisable => if s.goingAway then some { s with irqEnable := 0, offByIsr := false } else none

/-- The steps with what holds in front of each -/
inductive Stepped (s : Irq) : Step → Irq → Prop
  | isrNone (idle : s.isr = .idle) : Stepped s (.isrEnter 0) s
  | isrEnter (irqreg : U32) (active : irqreg ≠ 0) (idle : s.isr = .idle) : Stepped s (.isrEnter irqreg)
      { s with
        isr := .entered s.runs irqreg
        runs := s.runs + 1
        reads := Function.update s.reads s.runs irqreg }
  | isrFast (run : ℕ) (irqreg : U32) (entered : s.isr = .entered run irqreg) (fast : irqreg &&& s.fastIrqMask ≠ 0) :
      Stepped s .isrStream { s with
        isr := if irqreg &&& ~~~s.fastIrqMask = 0 then .idle else .disabling run (irqreg &&& ~~~s.fastIrqMask)
        streamed := ⟨run, irqreg &&& s.fastIrqMask &&& dmaBits⟩ :: s.streamed }
  | isrSlow (run : ℕ) (irqreg : U32) (entered : s.isr = .entered run irqreg) (slow : irqreg &&& s.fastIrqMask = 0) :
      Stepped s .isrStream { s with isr := .disabling run irqreg }
  | isrDisable (run : ℕ) (irqreg : U32) (disabling : s.isr = .disabling run irqreg) :
      Stepped s .isrDisable (isrDisable s run irqreg)
  | isrRecord (run : ℕ) (irqreg : U32) (recording : s.isr = .recording run irqreg) :
      Stepped s .isrRecord (isrRecord s run irqreg)
  | isrSchedule (run : ℕ) (scheduling : s.isr = .scheduling run) : Stepped s .isrSchedule (isrSchedule s)
  | taskletEnter (scheduled : s.scheduled = true) (idle : s.tasklet = .idle) :
      Stepped s .taskletEnter { s with scheduled := false, tasklet := .entered }
  | taskletFetch (entered : s.tasklet = .entered) : Stepped s .taskletFetch (taskletFetch s)
  | taskletQueue (irqsrc : U32) (fetched : s.tasklet = .fetched irqsrc) :
      Stepped s .taskletQueue (taskletQueue s irqsrc)
  | taskletRead (app : s.tasklet = .app) : Stepped s .taskletRead (taskletRead s)
  | taskletClear (clearing : s.tasklet = .clearing) : Stepped s .taskletClear (taskletClear s)
  | taskletTest (leaving : s.tasklet = .leaving) : Stepped s .taskletTest (taskletTest s)
  | taskletEnable (enabling : s.tasklet = .enabling) : Stepped s .taskletEnable (taskletEnable s)
  | fire (events : U32) : Stepped s (.fire events) { s with intstat := s.intstat ||| events }
  | ioctlEvent (file : ℕ) (copyOk : Bool) : Stepped s (.ioctlEvent file copyOk) (ioctlEvent s copyOk)
  | poll (file : ℕ) : Stepped s (.poll file) { s with pending := false }
  | runWork (c : Channel) : Stepped s (.runWork c) { s with queued := Function.update s.queued c false }
  | enableStreamIrq (c : Channel) :
      Stepped s (.enableStreamIrq c) { s with fastIrqMask := s.fastIrqMask ||| tpceIrqDma c }
  | disableStreamIrq (c : Channel) :
      Stepped s (.disableStreamIrq c) { s with fastIrqMask := s.fastIrqMask &&& ~~~tpceIrqDma c }
  | goAway : Stepped s .goAway { s with goingAway := true }
  | removeDisable (goingAway : s.goingAway = true) :
      Stepped s .removeDisable { s with irqEnable := 0, offByIsr := false }

theorem tpcePoll_snd (s : Irq) : (tpcePoll s).2 = { s with pending := false } := by
  simp only [tpcePoll]
  split
  · rfl
  · rename_i h
    simp only [← Bool.eq_false_iff.mpr h]

theorem stepped {s s' : Irq} {o : Step} (h : step s o = some s') : Stepped s o s' := by
  cases o with
  | isrEnter irqreg =>
      obtain ⟨hidle, rfl⟩ : s.isr = .idle ∧ isrEnter s irqreg = s' := by simpa [step] using h
      by_cases hzero : irqreg = 0
      · subst hzero
        exact .isrNone hidle
      · rw [isrEnter, if_neg hzero]
        exact .isrEnter irqreg hzero hidle
  | isrStream =>
      simp only [step] at h
      split at h
      · rename_i run irqreg hentered
        cases h
        by_cases hfast : irqreg &&& s.fastIrqMask = 0
        · rw [isrStream, if_neg (not_not.mpr hfast)]
          exact .isrSlow run irqreg hentered hfast
        · rw [isrStream, if_pos hfast]
          exact .isrFast run irqreg hentered hfast
      · cases h
  | isrDisable =>
      simp only [step] at h
      split at h
      · cases h
        exact .isrDisable _ _ ‹_›
      · cases h
  | isrRecord =>
      simp only [step] at h
      split at h
      · cases h
        exact .isrRecord _ _ ‹_›
      · cases h
  | isrSchedule =>
      simp only [step] at h
      split at h
      · cases h
        exact .isrSchedule _ ‹_›
      · cases h
  | taskletEnter =>
      obtain ⟨⟨hscheduled, hidle⟩, rfl⟩ := (Option.ite_none_right_eq_some.trans (and_congr_right' Option.some_inj)).mp h
      exact .taskletEnter hscheduled hidle
  | taskletFetch =>
      obtain ⟨hentered, rfl⟩ : s.tasklet = .entered ∧ taskletFetch s = s' := by simpa [step] using h
      exact .taskletFetch hentered
  | taskletQueue =>
      simp only [step] at h
      split at h
      · cases h
        exact .taskletQueue _ ‹_›
      · cases h
  | taskletRead =>
      obtain ⟨happ, rfl⟩ : s.tasklet = .app ∧ taskletRead s = s' := by simpa [step] using h
      exact .taskletRead happ
  | taskletClear =>
      obtain ⟨hclearing, rfl⟩ : s.tasklet = .clearing ∧ taskletClear s = s' := by simpa [step] using h
      exact .taskletClear hclearing
  | taskletTest =>
      obtain ⟨hleaving, rfl⟩ : s.tasklet = .leaving ∧ taskletTest s = s' := by simpa [step] using h
      exact .taskletTest hleaving
  | taskletEnable =>
      obtain ⟨henabling, rfl⟩ : s.tasklet = .enabling ∧ taskletEnable s = s' := by simpa [step] using h
      exact .taskletEnable henabling
  | fire events =>
      cases h
      exact .fire events
  | ioctlEvent file copyOk =>
      obtain ⟨-, rfl⟩ : eventsFree s = true ∧ ioctlEvent s copyOk = s' := by simpa [step] using h
      exact .ioctlEvent file copyOk
  | poll file =>
      obtain ⟨-, rfl⟩ : eventsFree s = true ∧ (tpcePoll s).2 = s' := by simpa [step] using h
      rw [tpcePoll_snd]
      exact .poll file
  | runWork c =>
      cases h
      exact .runWork c
  | enableStreamIrq c =>
      cases h
      exact .enableStreamIrq c
  | disableStreamIrq c =>
      cases h
      exact .disableStreamIrq c
  | goAway =>
      cases h
      exact .goAway
  | removeDisable =>
      obtain ⟨haway, rfl⟩ : s.goingAway = true ∧ { s with irqEnable := 0, offByIsr := false } = s' := by
        simpa [step] using h
      exact .removeDisable haway

end TpceDrv.IrqPath
