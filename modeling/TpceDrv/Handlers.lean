import TpceDrv.Completion
import TpceDrv.CommandSoundness
import TpceDrv.Library.Drains
import Mathlib.Algebra.Order.BigOperators.Group.List
import Mathlib.Tactic.SplitIfs

namespace TpceDrv.Handlers

open DmaInfo Mapping Device Requests Effects Teardown CommandSoundness Interrupts Library.Runs Library.Drains
open Driver (Op)

variable {s s' : Sys} {e : Event} {op : Op} {dev dev' : TpceDev} {c : Channel}

/-- The steps that the ISR, the tasklet and the work items make once an interrupt is
there. The ISR is called for a status bit. -/
def handlerStep (s : Sys) (e : Event) : Option Sys :=
  match e with
  | .isrEnter false => if someChannel fun c => !(s.irq c).status.isEmpty then step s e else none
  | .isrLeave | .taskletEnter | .queueWork _ | .taskletLeave | .workStart _ | .workRun _ => step s e
  | _ => none

/-- The ISR, the tasklet that waits to run and the tasklet that runs exclude each
other, and an interrupt is where one of them has taken it. -/
structure Phased (s : Sys) : Prop where
  isr : s.isrActive = true → s.irqEnable = true
  enabled : s.irqEnable = true → s.taskletScheduled = false ∧ s.taskletActive = false
  tasklet : s.taskletScheduled = true → s.taskletActive = false
  disabled : s.irqEnable = false → s.dev.goingAway = false → s.taskletScheduled = true ∨ s.taskletActive = true
  inIsr : ∀ c, s.isrActive = false → (s.irq c).isr = []
  inIrqsrc : ∀ c, s.taskletScheduled = false → (s.irq c).irqsrc = []
  inTasklet : ∀ c, s.taskletActive = false → (s.irq c).tasklet = []

theorem phased_init (sgt : SgTable) : Phased (Sys.init sgt) where
  isr := fun _ => rfl
  enabled := fun _ => ⟨rfl, rfl⟩
  tasklet := fun _ => rfl
  disabled := Bool.noConfusion
  inIsr := fun _ _ => rfl
  inIrqsrc := fun _ _ => rfl
  inTasklet := fun _ _ => rfl

/-- A device that is being removed does not come back. -/
theorem goingAway_of_step (h : Driver.step dev op = some dev') (hpresent : dev'.goingAway = false) :
    dev.goingAway = false := by
  cases step_effect h with
  | nothing | opened | locked | completed | leaked | returned | mapped | vmaOpened | vmaClosed => exact hpresent
  | unlocked file id obj _ unmap => exact (sameHandles_unmap unmap).goingAway.symm.trans hpresent
  | executed _ env req fileCtx c m _ present => exact present
  | cancelled file channel c _ reset =>
      exact ((sameHandles_abort dev c).trans (sameHandles_reset reset)).goingAway.symm.trans hpresent
  | woken w c _ waiting reset => exact (sameHandles_reset reset).goingAway.symm.trans hpresent
  | released file dev₁ release => exact (sameHandles_release release).goingAway.symm.trans hpresent
  | wentAway => cases hpresent
  | removed out _ remove => exact (sameHandles_remove remove).goingAway.symm.trans hpresent

theorem streamIrq_of_notSlow (h : slowIrq s = false) (hisr : (s.irq c).isr ≠ []) :
    streamIrq s.dev.fastIrqMask c = true := by
  simp only [slowIrq, Bool.or_eq_false_iff, someChannel, List.any_eq_false] at h
  have hslow := h.2 c (List.mem_finRange c)
  cases hstream : streamIrq s.dev.fastIrqMask c with
  | true => rfl
  | false => simp [hstream, hisr] at hslow

theorem isrChannel_isr (fast : Bool) (irq : ChannelIrq) : (isrChannel fast irq).isr = [] := by
  cases fast with
  | true =>
      cases hisr : irq.isr with
      | nil => simp [isrChannel, hisr]
      | cons t ts => simp [isrChannel, hisr]
  | false => rfl

theorem isrChannel_tasklet (fast : Bool) (irq : ChannelIrq) : (isrChannel fast irq).tasklet = irq.tasklet := by
  simp only [isrChannel]
  split
  · split
    · rfl
    · rfl
  · rfl

theorem Phased.isrEnter (h : Phased s) {app : Bool} (hstep : step s (.isrEnter app) = some s') : Phased s' := by
  simp only [step] at hstep
  split at hstep
  · rename_i hen
    cases hstep
    exact ⟨fun _ => (Bool.and_eq_true_iff.mp hen).1, h.enabled, h.tasklet, h.disabled, fun _ => Bool.noConfusion,
      h.inIrqsrc, h.inTasklet⟩
  · cases hstep

theorem Phased.isrLeave (h : Phased s) (hactive : s.isrActive = true) : Phased (isrLeave s) := by
  obtain ⟨hscheduled, hrunning⟩ := h.enabled (h.isr hactive)
  refine ⟨Bool.noConfusion, fun hen => ?_, fun _ => hrunning, fun hdis _ => ?_, fun c _ => isrChannel_isr _ _,
    fun c hno => ?_, fun c hno => (isrChannel_tasklet _ _).trans (h.inTasklet c hno)⟩
  · have hslow : slowIrq s = false := by simpa using (Bool.and_eq_true_iff.mp hen).2
    exact ⟨by simp [Interrupts.isrLeave, hscheduled, hslow], hrunning⟩
  · refine .inl ?_
    simp only [Interrupts.isrLeave, h.isr hactive, Bool.true_and, Bool.not_eq_false'] at hdis ⊢
    rw [hdis, Bool.or_true]
  · have hslow := (Bool.or_eq_false_iff.mp hno).2
    have hempty := h.inIrqsrc c hscheduled
    simp only [Interrupts.isrLeave, isrChannel]
    split
    · split
      · exact hempty
      · exact hempty
    · rename_i hfast
      have hisr : (s.irq c).isr = [] := by
        by_contra hisr
        exact hfast (streamIrq_of_notSlow hslow hisr)
      simp [hempty, hisr]

theorem Phased.taskletEnter (h : Phased s) (hscheduled : s.taskletScheduled = true) : Phased (taskletEnter s) := by
  have hdisabled : s.irqEnable = false := by
    by_contra hen
    have hno := (h.enabled (Bool.not_eq_false _ ▸ hen)).1
    exact absurd (hscheduled.symm.trans hno) (by decide)
  refine ⟨h.isr, fun hen => ?_, Bool.noConfusion, fun _ _ => .inr rfl, h.inIsr, fun _ _ => rfl,
    fun _ => Bool.noConfusion⟩
  exact absurd (hdisabled.symm.trans hen) (by decide)

theorem Phased.taskletLeave (h : Phased s) (hactive : s.taskletActive = true) (hempty : ∀ c, (s.irq c).tasklet = []) :
    Phased (taskletLeave s) := by
  have hscheduled : s.taskletScheduled = false := by
    by_contra hno
    exact absurd (hactive.symm.trans (h.tasklet (Bool.not_eq_false _ ▸ hno))) (by decide)
  refine ⟨fun hisr => ?_, fun _ => ⟨hscheduled, rfl⟩, fun _ => rfl, fun hdis haway => ?_, h.inIsr, h.inIrqsrc,
    fun c _ => hempty c⟩
  · simp [Interrupts.taskletLeave, h.isr hisr]
  · have haway : s.dev.goingAway = false := haway
    simp [Interrupts.taskletLeave, haway] at hdis

/-- The device changes, and the interrupts of a channel only behind the handlers. -/
theorem Phased.congr (h : Phased s) (hactive : s'.isrActive = s.isrActive) (henable : s'.irqEnable = s.irqEnable)
    (hscheduled : s'.taskletScheduled = s.taskletScheduled) (htasklet : s'.taskletActive = s.taskletActive)
    (haway : s'.dev.goingAway = false → s.dev.goingAway = false) (hisr : ∀ c, (s.irq c).isr = [] → (s'.irq c).isr = [])
    (hirqsrc : ∀ c, (s.irq c).irqsrc = [] → (s'.irq c).irqsrc = [])
    (hin : ∀ c, (s.irq c).tasklet = [] → (s'.irq c).tasklet = []) : Phased s' where
  isr := by
    rw [hactive, henable]
    exact h.isr
  enabled := by
    rw [henable, hscheduled, htasklet]
    exact h.enabled
  tasklet := by
    rw [hscheduled, htasklet]
    exact h.tasklet
  disabled := by
    rw [henable, hscheduled, htasklet]
    exact fun hdis hno => h.disabled hdis (haway hno)
  inIsr := fun c hno => hisr c (h.inIsr c (hactive ▸ hno))
  inIrqsrc := fun c hno => hirqsrc c (h.inIrqsrc c (hscheduled ▸ hno))
  inTasklet := fun c hno => hin c (h.inTasklet c (htasklet ▸ hno))

theorem Phased.setIrq {irq : ChannelIrq} (h : Phased s) (hisr : (s.irq c).isr = [] → irq.isr = [])
    (hirqsrc : (s.irq c).irqsrc = [] → irq.irqsrc = []) (htasklet : (s.irq c).tasklet = [] → irq.tasklet = []) :
    Phased (s.setIrq c irq) := by
  have hat : ∀ (part : ChannelIrq → List ℕ), (part (s.irq c) = [] → part irq = []) →
      ∀ c', part (s.irq c') = [] → part ((s.setIrq c irq).irq c') = [] := by
    intro part hpart c' hempty
    by_cases hc : c' = c
    · subst hc
      simpa [Sys.setIrq] using hpart hempty
    · simpa [Sys.setIrq, hc] using hempty
  exact h.congr rfl rfl rfl rfl id (hat _ hisr) (hat _ hirqsrc) (hat _ htasklet)

theorem Phased.sameIrq (h : Phased s) (hactive : s'.isrActive = s.isrActive) (henable : s'.irqEnable = s.irqEnable)
    (hscheduled : s'.taskletScheduled = s.taskletScheduled) (htasklet : s'.taskletActive = s.taskletActive)
    (haway : s'.dev.goingAway = false → s.dev.goingAway = false) (hirq : s'.irq = s.irq) : Phased s' :=
  h.congr hactive henable hscheduled htasklet haway (fun _ hempty => hirq ▸ hempty) (fun _ hempty => hirq ▸ hempty)
    fun _ hempty => hirq ▸ hempty

theorem Phased.afterCall (h : Phased s) (haway : dev.goingAway = false → s.dev.goingAway = false) :
    Phased (s.afterCall dev) := by
  refine h.congr rfl rfl rfl rfl haway (fun c hempty => ?_) (fun c hempty => ?_) fun c hempty => ?_
  all_goals
    simp only [Sys.afterCall]
    split
    · exact hempty
    · exact hempty

theorem Phased.cancelWork (h : Phased s) (hcall : callable s op = true) (hstep : Driver.step s.dev op = some dev) :
    Phased (cancelWork s op) := by
  cases op with
  | remove =>
      have haway : s.dev.goingAway = true := (Bool.and_eq_true_iff.mp (Driver.step_eq_some.mp hstep).1).2
      simp only [callable, Bool.and_eq_true, Bool.not_eq_true'] at hcall
      obtain ⟨⟨⟨hisr, hscheduled⟩, htasklet⟩, -⟩ := hcall
      refine ⟨fun hactive => ?_, Bool.noConfusion, fun _ => htasklet, fun _ hno => ?_, h.inIsr, h.inIrqsrc,
        h.inTasklet⟩
      · cases hactive.symm.trans hisr
      · cases haway.symm.trans hno
  | _ => exact h

theorem tasklet_of_leave (h : (someChannel fun c => !(s.irq c).tasklet.isEmpty) = false) (c : Channel) :
    (s.irq c).tasklet = [] := by
  have hall := List.any_eq_false.mp h c (List.mem_finRange c)
  simpa using hall

theorem step_phased (h : Phased s) (hstep : step s e = some s') : Phased s' := by
  cases e with
  | call op =>
      simp only [step] at hstep
      split at hstep
      · rename_i hcall
        obtain ⟨dev, hdev, rfl⟩ := Option.map_eq_some_iff.mp hstep
        have haway := goingAway_of_step hdev
        have hcancel := h.cancelWork hcall hdev
        cases op with
        | remove => exact hcancel.afterCall haway
        | _ => exact h.afterCall haway
      · cases hstep
  | waitEnd w =>
      simp only [step, waitEnd] at hstep
      split at hstep
      · cases hstep
      split at hstep
      · cases hstep
        exact h.sameIrq rfl rfl rfl rfl id rfl
      · cases hstep
  | resetAfterWait =>
      simp only [step, resetAfterWait] at hstep
      split at hstep
      · obtain ⟨dev, hdev, rfl⟩ := Option.map_eq_some_iff.mp hstep
        exact h.sameIrq rfl rfl rfl rfl (goingAway_of_step hdev) rfl
      · cases hstep
  | raise c t =>
      simp only [step] at hstep
      split at hstep
      · cases hstep
        have hset : Phased (s.setIrq c { s.irq c with status := t :: (s.irq c).status }) := h.setIrq id id id
        exact hset.sameIrq rfl rfl rfl rfl id rfl
      · cases hstep
  | finish c t =>
      cases hstep
      exact h.setIrq id id id
  | controllerReset c =>
      cases hstep
      exact h.setIrq id id id
  | isrEnter app => exact h.isrEnter hstep
  | isrLeave =>
      simp only [step] at hstep
      split at hstep
      · rename_i hactive
        cases hstep
        exact h.isrLeave hactive
      · cases hstep
  | taskletEnter =>
      simp only [step] at hstep
      split at hstep
      · rename_i hen
        cases hstep
        exact h.taskletEnter (Bool.and_eq_true_iff.mp hen).1
      · cases hstep
  | queueWork c =>
      simp only [step] at hstep
      split at hstep
      · cases hstep
        exact h.setIrq id id fun _ => rfl
      · cases hstep
  | taskletLeave =>
      simp only [step] at hstep
      split at hstep
      · rename_i hen
        cases hstep
        obtain ⟨hactive, hempty⟩ := Bool.and_eq_true_iff.mp hen
        exact h.taskletLeave hactive (tasklet_of_leave (by simpa using hempty))
      · cases hstep
  | workStart c =>
      simp only [step] at hstep
      split at hstep
      · cases hstep
        exact h.setIrq id id id
      · cases hstep
  | workRun c =>
      simp only [step] at hstep
      split at hstep
      · cases hstep
      · obtain ⟨dev, hdev, rfl⟩ := Option.map_eq_some_iff.mp hstep
        have hset : Phased (s.setIrq c { s.irq c with running := [] }) := h.setIrq id id id
        exact hset.sameIrq rfl rfl rfl rfl (goingAway_of_step hdev) rfl

/-- Whether an interrupt of the channel is on the way from the ISR to its work item -/
def claimed (irq : ChannelIrq) : Bool := !irq.isr.isEmpty || !irq.irqsrc.isEmpty || !irq.tasklet.isEmpty

/-- What a channel can still cost the handlers. A status bit that no handler has seen
costs a round of all of them. -/
def load (irq : ChannelIrq) : ℕ :=
  (if claimed irq then 3 else if irq.status.isEmpty then 0 else 8) + (if irq.queued.isEmpty then 0 else 2) +
    if irq.running.isEmpty then 0 else 1

def phase (s : Sys) : ℕ :=
  if s.isrActive then 3 else if s.taskletScheduled then 2 else if s.taskletActive then 1 else 0

def total (f : Channel → ℕ) : ℕ := ((List.finRange 3).map f).sum

def effort (s : Sys) : ℕ := phase s + total fun c => load (s.irq c)

theorem total_le {f g : Channel → ℕ} (h : ∀ c, f c ≤ g c) : total f ≤ total g :=
  List.sum_le_sum fun c _ => h c

theorem total_add_le {f g : Channel → ℕ} {k : ℕ} (h : ∀ c, f c ≤ g c) (hc : f c + k ≤ g c) :
    total f + k ≤ total g := by
  have hsum : ∀ f : Channel → ℕ, total f = f 0 + f 1 + f 2 := fun f => by simp [total, List.finRange]; omega
  have hthree : ∀ c : Channel, c = 0 ∨ c = 1 ∨ c = 2 := by decide
  have h₀ := h 0
  have h₁ := h 1
  have h₂ := h 2
  rw [hsum, hsum]
  rcases hthree c with rfl | rfl | rfl
  all_goals omega

theorem effort_le (s : Sys) : effort s ≤ 36 := by
  have hphase : phase s ≤ 3 := by
    simp only [phase]
    split_ifs <;> omega
  have hload : ∀ c, load (s.irq c) ≤ 11 := fun c => by
    simp only [load]
    split_ifs <;> omega
  have htotal : (total fun c => load (s.irq c)) ≤ total fun _ => 11 := total_le hload
  have heleven : (total fun _ => 11) = 33 := rfl
  simp only [effort]
  omega

/-- One channel takes a step, and the handlers stay where they are. -/
theorem effort_setIrq {irq : ChannelIrq} (hphase : phase s' = phase s) (hirq : s'.irq = (s.setIrq c irq).irq)
    (hless : load irq < load (s.irq c)) : effort s' < effort s := by
  have hat : s'.irq c = irq := by simp [hirq, Sys.setIrq]
  have hle : ∀ c', load (s'.irq c') ≤ load (s.irq c') := by
    intro c'
    by_cases hc : c' = c
    · subst hc
      rw [hat]
      exact hless.le
    · simp [hirq, Sys.setIrq, hc]
  have hsum : (total fun c' => load (s'.irq c')) + 1 ≤ total fun c' => load (s.irq c') :=
    total_add_le (c := c) hle (by rw [hat]; exact hless)
  simp only [effort, hphase]
  omega

/-- The handlers move on, and no channel costs more than before. -/
theorem effort_phase (hphase : phase s' < phase s) (hload : ∀ c, load (s'.irq c) ≤ load (s.irq c)) :
    effort s' < effort s := by
  have hsum : (total fun c => load (s'.irq c)) ≤ total fun c => load (s.irq c) := total_le hload
  simp only [effort]
  omega

theorem step_of_handler (h : handlerStep s e = some s') : step s e = some s' := by
  simp only [handlerStep] at h
  split at h
  · split at h
    · exact h
    · cases h
  · exact h
  · exact h
  · exact h
  · exact h
  · exact h
  · exact h
  · cases h

theorem isrEnter_less (h : Phased s) (hstep : handlerStep s (.isrEnter false) = some s') : effort s' < effort s := by
  simp only [handlerStep] at hstep
  split at hstep
  · rename_i hset
    obtain ⟨c, -, hc⟩ := List.any_eq_true.mp hset
    simp only [step] at hstep
    split at hstep
    · rename_i hen
      cases hstep
      obtain ⟨henable, hfree⟩ := Bool.and_eq_true_iff.mp hen
      obtain ⟨hscheduled, hrunning⟩ := h.enabled henable
      have hactive : s.isrActive = false := by simpa using hfree
      have hisr := fun c => h.inIsr c hactive
      have hirqsrc := fun c => h.inIrqsrc c hscheduled
      have htasklet := fun c => h.inTasklet c hrunning
      have hload : ∀ c, load { s.irq c with isr := (s.irq c).status } +
          (if (s.irq c).status.isEmpty then 0 else 5) ≤ load (s.irq c) := by
        intro c
        simp only [load, claimed, hisr, hirqsrc, htasklet]
        cases (s.irq c).status with
        | nil => simp
        | cons t ts => simp; omega
      have hone := hload c
      rw [if_neg (by simpa using hc)] at hone
      have hsum : (total fun c => load { s.irq c with isr := (s.irq c).status }) + 5 ≤ total fun c => load (s.irq c) :=
        total_add_le (fun c => (Nat.le_add_right _ _).trans (hload c)) hone
      have hidle : phase s = 0 := by simp [phase, hactive, hscheduled, hrunning]
      have htotal : effort s = total fun c => load (s.irq c) := by rw [effort, hidle, Nat.zero_add]
      rw [htotal]
      change 3 + (total fun c => load { s.irq c with isr := (s.irq c).status }) < _
      omega
    · cases hstep
  · cases hstep

theorem isrLeave_less (h : Phased s) (hactive : s.isrActive = true) : effort (isrLeave s) < effort s := by
  obtain ⟨hscheduled, hrunning⟩ := h.enabled (h.isr hactive)
  apply effort_phase
  · cases hslow : slowIrq s with
    | true => simp [phase, isrLeave, hactive, hslow]
    | false => simp [phase, isrLeave, hactive, hrunning, hscheduled, hslow]
  · intro c
    have hirqsrc := h.inIrqsrc c hscheduled
    simp only [isrLeave, isrChannel]
    split
    · split
      · exact le_rfl
      · rename_i hisr
        simp only [load, claimed, hirqsrc]
        simp [hisr]
        split_ifs <;> omega
    · simp only [load, claimed, hirqsrc, List.nil_append]
      simp

theorem Phased.scheduled (h : Phased s) (hscheduled : s.taskletScheduled = true) :
    s.isrActive = false ∧ s.taskletActive = false := by
  refine ⟨?_, h.tasklet hscheduled⟩
  by_contra hno
  cases hscheduled.symm.trans (h.enabled (h.isr (Bool.not_eq_false _ ▸ hno))).1

theorem Phased.active (h : Phased s) (hactive : s.taskletActive = true) :
    s.isrActive = false ∧ s.taskletScheduled = false := by
  constructor
  · by_contra hno
    cases hactive.symm.trans (h.enabled (h.isr (Bool.not_eq_false _ ▸ hno))).2
  · by_contra hno
    cases hactive.symm.trans (h.tasklet (Bool.not_eq_false _ ▸ hno))

theorem taskletEnter_less (h : Phased s) (hscheduled : s.taskletScheduled = true) :
    effort (taskletEnter s) < effort s := by
  obtain ⟨hactive, hrunning⟩ := h.scheduled hscheduled
  apply effort_phase
  · simp [phase, taskletEnter, hactive, hscheduled]
  · intro c
    simp only [taskletEnter, load, claimed, h.inIsr c hactive, h.inTasklet c hrunning]
    simp

theorem taskletLeave_less (h : Phased s) (hactive : s.taskletActive = true) : effort (taskletLeave s) < effort s := by
  obtain ⟨hisr, hscheduled⟩ := h.active hactive
  apply effort_phase
  · simp [phase, taskletLeave, hisr, hscheduled, hactive]
  · exact fun c => le_rfl

/-- Each step of a handler uses up some of what is left to do. -/
theorem handler_less (h : Phased s) (hstep : handlerStep s e = some s') : effort s' < effort s := by
  have hone := step_of_handler hstep
  cases e with
  | call | waitEnd | resetAfterWait | raise | finish | controllerReset => cases hstep
  | isrEnter app =>
      cases app with
      | true => cases hstep
      | false => exact isrEnter_less h hstep
  | isrLeave =>
      simp only [step] at hone
      split at hone
      · rename_i hactive
        cases hone
        exact isrLeave_less h hactive
      · cases hone
  | taskletEnter =>
      simp only [step] at hone
      split at hone
      · rename_i hen
        cases hone
        exact taskletEnter_less h (Bool.and_eq_true_iff.mp hen).1
      · cases hone
  | queueWork c =>
      simp only [step] at hone
      split at hone
      · rename_i hen
        cases hone
        have htasklet : (s.irq c).tasklet ≠ [] := by simpa using (Bool.and_eq_true_iff.mp hen).2
        have hactive := (Bool.and_eq_true_iff.mp hen).1
        obtain ⟨hisr, hscheduled⟩ := h.active hactive
        refine effort_setIrq rfl rfl ?_
        simp only [load, claimed, h.inIsr c hisr, h.inIrqsrc c hscheduled]
        simp [htasklet]
        exact Nat.lt_of_lt_of_le (by decide) (Nat.le_add_right 3 _)
      · cases hone
  | taskletLeave =>
      simp only [step] at hone
      split at hone
      · rename_i hen
        cases hone
        exact taskletLeave_less h (Bool.and_eq_true_iff.mp hen).1
      · cases hone
  | workStart c =>
      simp only [step] at hone
      split at hone
      · rename_i hen
        cases hone
        obtain ⟨hqueued, hrunning⟩ := Bool.and_eq_true_iff.mp hen
        refine effort_setIrq rfl rfl ?_
        have hempty : (s.irq c).running = [] := by simpa using hrunning
        have hwaiting : (s.irq c).queued ≠ [] := by simpa using hqueued
        simp [load, claimed, hempty, hwaiting]
      · cases hone
  | workRun c =>
      simp only [step] at hone
      split at hone
      · cases hone
      · rename_i hrunning
        obtain ⟨dev, hdev, rfl⟩ := Option.map_eq_some_iff.mp hone
        have hrun : (s.irq c).running ≠ [] := by simpa using hrunning
        have hload : load { s.irq c with running := [] } < load (s.irq c) := by simp [load, claimed, hrun]
        exact effort_setIrq rfl rfl hload

theorem handlers_bounded {t : Sys} {es : List Event} (h : Phased s) (hrun : run handlerStep s es = some t) :
    es.length ≤ 36 := by
  have hlength := length_le_measure (fun _ _ _ h hstep => step_phased h (step_of_handler hstep))
    (fun _ _ _ h hstep => handler_less h hstep) h hrun
  have heffort := effort_le s
  omega

/-- Where the handlers have nothing to do and the work item of the channel does not
fault, no interrupt of the channel is on its way. -/
theorem held_of_rest (h : Phased s) (hrest : ∀ e, handlerStep s e = none) (hpresent : s.dev.goingAway = false)
    (hwork : Driver.step s.dev (.dmaWork c) ≠ none) : (s.irq c).held = [] := by
  have hisr : s.isrActive = false := by
    have hleave := hrest .isrLeave
    simpa [handlerStep, step] using hleave
  have hscheduled : s.taskletScheduled = false := by
    have henter := hrest .taskletEnter
    by_contra hno
    have hno := Bool.not_eq_false _ ▸ hno
    simp [handlerStep, step, hno, h.tasklet hno] at henter
  have htasklet : s.taskletActive = false := by
    by_contra hno
    have hno := Bool.not_eq_false _ ▸ hno
    have hall : ∀ c, (s.irq c).tasklet = [] := fun c => by
      have hqueue := hrest (.queueWork c)
      simpa [handlerStep, step, hno] using hqueue
    have hleave := hrest .taskletLeave
    simp [handlerStep, step, hno, someChannel, hall] at hleave
  have henable : s.irqEnable = true := by
    by_contra hno
    rcases h.disabled (Bool.not_eq_true _ ▸ hno) hpresent with hyes | hyes
    · cases hyes.symm.trans hscheduled
    · cases hyes.symm.trans htasklet
  have hstatus : (s.irq c).status = [] := by
    have henter := hrest (.isrEnter false)
    by_contra hset
    have hsome : (someChannel fun c => !(s.irq c).status.isEmpty) = true :=
      List.any_eq_true.mpr ⟨c, List.mem_finRange c, by simpa using hset⟩
    simp [handlerStep, step, hsome, henable, hisr] at henter
  have hrunning : (s.irq c).running = [] := by
    have hrun := hrest (.workRun c)
    by_contra hset
    simp only [handlerStep, step, List.isEmpty_iff, if_neg hset, Option.map_eq_none_iff] at hrun
    exact hwork hrun
  have hqueued : (s.irq c).queued = [] := by
    have hstart := hrest (.workStart c)
    by_contra hset
    simp [handlerStep, step, hset, hrunning] at hstart
  simp [ChannelIrq.held, hstatus, h.inIsr c hisr, h.inIrqsrc c hscheduled, h.inTasklet c htasklet, hqueued, hrunning]

end TpceDrv.Handlers
