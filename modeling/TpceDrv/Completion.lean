import TpceDrv.BetweenCalls
import TpceDrv.Interrupts
import Mathlib.Tactic.Tauto

namespace TpceDrv.Completion

open Descriptor DmaParams DmaInfo Mapping Device Translation ChannelControl ChannelSteps Requests Driver
open RequestSteps Effects Teardown BetweenCalls Interrupts Library

variable {dev dev' : TpceDev} {c : Channel} {op : Op} {s : Sys} {t : ℕ}

/-- The transfers whose caller got 0 have raised an interrupt, and the ones that
were marked complete were among those behind the work item. -/
structure Belongs (s : Sys) : Prop where
  succeeded : ∀ t ∈ s.succeeded, t ∈ s.raised
  marked : ∀ p ∈ s.marked, p.1 ∈ p.2

/-- The call starts a default transfer on the channel. -/
structure StartsDefault (dev : TpceDev) (op : Op) (env : InitEnv) (req : TpceDmaRequest) (c : Channel) :
    Prop where
  accepted : Accepted dev op env req c
  mode : req.params.transferMode = tpceDmaModeDefault
  translates : ∀ dev₁, initDmaInfo env dev c req = .ok (c.val, dev₁) →
    Translates env dev₁.pageTable (dev₁.dmaInfo c)

/-- A default transfer starts on a channel with nothing left over. -/
def QuietStart (s : Sys) : Event → Prop
  | .call op => ∀ env req c, StartsDefault s.dev op env req c → (s.irq c).leftOver = []
  | _ => True

theorem mode_of_dispatch {env : InitEnv} (h : (dmaDispatch env dev c).1 = 0) :
    (dev.dmaInfo c).params.transferMode = tpceDmaModeDefault ∨
      (dev.dmaInfo c).params.transferMode = tpceDmaModeStream := by
  by_contra hmode
  obtain ⟨hdefault, hstream⟩ := not_or.mp hmode
  simp only [dmaDispatch] at h
  rw [if_neg hdefault, if_neg hstream] at h
  cases h

/-- Only the start of a default transfer makes a caller wait. -/
theorem starts_of_waits (h : Driver.step dev op = some dev') (hfree : dev.waiting = none)
    (hwait : dev'.waiting = some c) :
    (∃ env req, StartsDefault dev op env req c) ∧ (dev.dmaInfo c).state = .idle ∧
      (dev'.dmaInfo c).state = .running := by
  have hsame : dev'.waiting ≠ dev.waiting := by
    rw [hwait, hfree]
    exact Option.some_ne_none c
  cases step_effect h with
  | nothing => exact absurd rfl hsame
  | opened => exact absurd rfl hsame
  | locked => exact absurd rfl hsame
  | unlocked file id obj _ unmap => exact absurd (tornDown_unlisted unmap).waiting hsame
  | executed _ env req fileCtx c' m _ present mutex validated valid execute =>
      cases execute with
      | refused => exact absurd rfl hsame
      | failed obj m prep info info₂ table dev₁ dev₂ _ accepted start started state reset =>
          refine absurd ?_ hsame
          rw [(resetDmaInfo_frame reset).2.2, started.result, accepted.result]
          rfl
      | running obj m prep info info₂ table dev₁ dev₂ accepted start started state =>
          have hinfo : dev₂.dmaInfo c' = info₂ := by rw [started.result, setInfo_dmaInfo]
          by_cases hmode : req.params.transferMode = tpceDmaModeStream
          · refine absurd ?_ hsame
            rw [if_pos hmode, started.result, accepted.result]
            rfl
          rw [if_neg hmode] at hwait
          obtain rfl : c' = c := Option.some.inj hwait
          have hparams := initialized_params accepted
          have hdefault : req.params.transferMode = tpceDmaModeDefault := by
            rw [← hparams]
            apply (mode_of_dispatch start).resolve_right
            rw [hparams]
            exact hmode
          have haccepted : Accepted dev op env req c' :=
            ⟨present, validated, valid.channel, c'.val, dev₁, accepted.accepted, Int.natCast_nonneg _⟩
          refine ⟨⟨env, req, haccepted, hdefault, fun dev₁' hinit => ?_⟩, valid.idle, ?_⟩
          · obtain ⟨-, rfl⟩ := Prod.mk.inj (Except.ok.inj (accepted.accepted.symm.trans hinit))
            exact (defaultDispatch_eq_zero (initialized_state accepted) (hparams ▸ hdefault)).mp start
          · dsimp only
            rw [hinfo]
            exact state
  | cancelled file channel c' _ reset =>
      exact absurd ((resetDmaInfo_frame reset).2.2.trans (abort_frame dev c').2) hsame
  | woken w c' _ waiting reset => cases hfree.symm.trans waiting
  | completed => exact absurd rfl hsame
  | released file dev₁ release => exact absurd (tornDown_release release).waiting hsame
  | leaked => exact absurd rfl hsame
  | returned => exact absurd rfl hsame
  | mapped => exact absurd rfl hsame
  | vmaOpened => exact absurd rfl hsame
  | vmaClosed => exact absurd rfl hsame
  | wentAway => exact absurd rfl hsame
  | removed out _ remove => exact absurd (tornDown_remove remove).waiting hsame

/-- While a caller waits, the calls that can happen leave the channels alone. -/
theorem step_while_waiting (h : Driver.step dev op = some dev') (hwait : dev.waiting = some c)
    (hcall : callable s op = true) :
    dev'.waiting = some c ∧ ∀ c', (dev'.dmaInfo c').state = (dev.dmaInfo c').state := by
  have hmutex : mutexFree dev = false := by
    simp only [mutexFree]
    rw [hwait]
    rfl
  obtain ⟨hen, -⟩ := step_eq_some.mp h
  cases step_effect h with
  | nothing => exact ⟨hwait, fun _ => rfl⟩
  | opened => exact ⟨hwait, fun _ => rfl⟩
  | executed _ env req fileCtx c' m _ present mutex => cases mutex.symm.trans hwait
  | woken => cases hcall
  | completed => cases hcall
  | vmaOpened c' area =>
      refine ⟨hwait, fun c'' => ?_⟩
      by_cases hc : c'' = c'
      · subst hc
        have hset := congrArg TpceDmaInfo.state (setInfo_dmaInfo dev c'' (incStreamRefs (dev.dmaInfo c'')))
        exact hset
      · exact congrArg TpceDmaInfo.state (setInfo_dmaInfo_ne dev _ hc)
  | _ => simp [enabled, hmutex] at hen

@[simp] theorem mem_held {irq : ChannelIrq} : t ∈ irq.held ↔ t ∈ irq.status ∨ t ∈ irq.isr ∨
    t ∈ irq.irqsrc ∨ t ∈ irq.tasklet ∨ t ∈ irq.queued ∨ t ∈ irq.running := by
  simp [ChannelIrq.held]

@[simp] theorem mem_leftOver {irq : ChannelIrq} :
    t ∈ irq.leftOver ↔ t ∈ irq.working ∨ t ∈ irq.held := List.mem_append

/-- The channel of the waiting caller: all that is on its way is of its own
transfer, which is complete only after an interrupt. -/
structure Waits (s : Sys) (c : Channel) : Prop where
  own : ∀ t ∈ (s.irq c).leftOver, t = s.current c
  state : (s.dev.dmaInfo c).state = .running ∨
    ((s.dev.dmaInfo c).state = .complete ∧ s.current c ∈ s.raised)
  ended : s.ended = some .completed → (s.dev.dmaInfo c).state ≠ .running

structure Inv (s : Sys) : Prop where
  settled : Settled s.dev
  held : ∀ c, ∀ t ∈ (s.irq c).held, t ∈ s.raised
  waits : ∀ c, s.dev.waiting = some c → Waits s c
  free : s.dev.waiting = none → s.ended = none
  belongs : Belongs s

/-- The interrupts of a channel move on, without one that comes from nowhere. -/
structure Moves (raised : List ℕ) (irq irq' : ChannelIrq) : Prop where
  leftOver : ∀ t ∈ irq'.leftOver, t ∈ irq.leftOver
  held : ∀ t ∈ irq'.held, t ∈ irq.held ∨ t ∈ raised

theorem Moves.refl (raised : List ℕ) (irq : ChannelIrq) : Moves raised irq irq :=
  ⟨fun _ => id, fun _ => .inl⟩

theorem Moves.of_held {raised : List ℕ} {irq irq' : ChannelIrq}
    (hworking : ∀ t ∈ irq'.working, t ∈ irq.working) (hheld : ∀ t ∈ irq'.held, t ∈ irq.held) :
    Moves raised irq irq' := by
  refine ⟨fun t ht => ?_, fun t ht => .inl (hheld t ht)⟩
  rcases mem_leftOver.mp ht with ht | ht
  · exact mem_leftOver.mpr (.inl (hworking t ht))
  · exact mem_leftOver.mpr (.inr (hheld t ht))

theorem moves_setIrq {raised : List ℕ} {irq : ChannelIrq} (h : Moves raised (s.irq c) irq) (c' : Channel) :
    Moves raised (s.irq c') ((s.setIrq c irq).irq c') := by
  by_cases hc : c' = c
  · subst hc
    simpa [Sys.setIrq] using h
  · simpa [Sys.setIrq, hc] using Moves.refl raised (s.irq c')

theorem Inv.moves {s' : Sys} (h : Inv s) (hdev : s'.dev = s.dev) (hcurrent : s'.current = s.current)
    (hended : s'.ended = s.ended) (hsucceeded : s'.succeeded = s.succeeded) (hmarked : s'.marked = s.marked)
    (hraised : ∀ t ∈ s.raised, t ∈ s'.raised) (hirq : ∀ c, Moves s'.raised (s.irq c) (s'.irq c)) :
    Inv s' := by
  refine ⟨hdev ▸ h.settled, fun c t ht => ?_, fun c hwait => ?_, fun hfree => ?_, ?_, ?_⟩
  · exact ((hirq c).held t ht).elim (fun ht => hraised t (h.held c t ht)) id
  · obtain ⟨hown, hstate, hend⟩ := h.waits c (hdev ▸ hwait)
    refine ⟨fun t ht => hcurrent ▸ hown t ((hirq c).leftOver t ht), ?_, ?_⟩
    · rw [hdev, hcurrent]
      exact hstate.imp_right fun hc => ⟨hc.1, hraised _ hc.2⟩
    · rw [hdev, hended]
      exact hend
  · rw [hended]
    exact h.free (hdev ▸ hfree)
  · exact hsucceeded ▸ fun t ht => hraised t (h.belongs.succeeded t ht)
  · exact hmarked ▸ h.belongs.marked

theorem Inv.setIrq {irq : ChannelIrq} (h : Inv s) (hmoves : Moves s.raised (s.irq c) irq) :
    Inv (s.setIrq c irq) :=
  h.moves rfl rfl rfl rfl rfl (fun _ => id) (moves_setIrq hmoves)

theorem Inv.raise (h : Inv s) (ht : t ∈ (s.irq c).working) :
    Inv { s.setIrq c { s.irq c with status := t :: (s.irq c).status } with raised := t :: s.raised } := by
  refine h.moves rfl rfl rfl rfl rfl (fun _ => List.mem_cons_of_mem t) (moves_setIrq ?_)
  refine ⟨fun t' ht' => ?_, fun t' ht' => ?_⟩
  · simp only [mem_leftOver, mem_held, List.mem_cons] at ht' ⊢
    rcases ht' with hw | (rfl | hst) | hrest
    · exact .inl hw
    · exact .inl ht
    · exact .inr (.inl hst)
    · exact .inr (.inr hrest)
  · simp only [mem_held, List.mem_cons] at ht' ⊢
    rcases ht' with (rfl | hst) | hrest
    · exact .inr (.inl rfl)
    · exact .inl (.inl hst)
    · exact .inl (.inr hrest)

theorem moves_isrChannel (raised : List ℕ) (fast : Bool) (irq : ChannelIrq) :
    Moves raised irq (isrChannel fast irq) := by
  simp only [isrChannel]
  split
  · split
    · exact .refl raised irq
    · refine .of_held (fun _ => id) fun t ht => ?_
      simp only [mem_held, List.not_mem_nil, false_or] at ht ⊢
      exact .inr (.inr ht)
  · refine .of_held (fun _ => id) fun t ht => ?_
    simp only [mem_held, List.mem_append, List.not_mem_nil, false_or] at ht ⊢
    tauto

/-- A work item marks a running transfer, whose caller waits, and all that is
behind the item is that transfer. -/
theorem Inv.workRun (h : Inv s) (hrun : (s.irq c).running ≠ [])
    (hstep : Driver.step s.dev (.dmaWork c) = some dev) : Inv (workRun s c dev) := by
  have hdone : Inv (s.setIrq c { s.irq c with running := [] }) := by
    refine h.setIrq (.of_held (fun _ => id) fun t ht => ?_)
    simp only [mem_held, List.not_mem_nil, or_false] at ht ⊢
    tauto
  cases step_effect hstep with
  | nothing =>
      have hmarks : marks s.dev s.dev c = false := by
        simp only [marks]
        cases (s.dev.dmaInfo c).state <;> rfl
      simp only [Interrupts.workRun]
      rw [hmarks]
      exact hdone
  | executed _ env req fileCtx c' m _ present mutex validated => cases validated
  | completed _ mode running =>
      have hwait : s.dev.waiting = some c := by
        rcases h.settled c with hidle | ⟨-, hstream⟩ | ⟨-, hwait⟩
        · cases running.symm.trans hidle
        · exact absurd hstream mode
        · exact hwait
      obtain ⟨t, ht⟩ := List.exists_mem_of_ne_nil _ hrun
      have hheld : t ∈ (s.irq c).held := by simp [ht]
      obtain rfl : t = s.current c := (h.waits c hwait).own t (mem_leftOver.mpr (.inr hheld))
      have hraised := h.held c _ hheld
      have hmarks : marks s.dev (s.dev.setInfo c { s.dev.dmaInfo c with state := .complete }) c = true := by
        simp [marks, running]
      simp only [Interrupts.workRun]
      rw [hmarks]
      refine ⟨step_settled h.settled hstep, hdone.held, fun c' hc' => ?_, fun hfree => ?_, ?_, ?_⟩
      · obtain rfl : c = c' := Option.some.inj (hwait.symm.trans hc')
        refine ⟨(hdone.waits c hwait).own, .inr ⟨?_, hraised⟩, fun _ => ?_⟩
        · dsimp only
          rw [setInfo_dmaInfo]
        · dsimp only
          rw [setInfo_dmaInfo]
          exact TpceDmaChannelState.noConfusion
      · cases hwait.symm.trans hfree
      · exact h.belongs.succeeded
      · intro p hp
        rcases List.mem_cons.mp hp with rfl | hp
        · exact ht
        · exact h.belongs.marked p hp

theorem Inv.waitEnd {s' : Sys} {w : WaitEnd} (h : Inv s) (hstep : waitEnd s w = some s') : Inv s' := by
  simp only [Interrupts.waitEnd] at hstep
  split at hstep
  · cases hstep
  rename_i c hwait
  split at hstep
  · rename_i hend
    cases hstep
    refine ⟨h.settled, h.held, fun c' hc' => ?_, fun hfree => ?_, h.belongs.succeeded, h.belongs.marked⟩
    · obtain rfl : c = c' := Option.some.inj (hwait.symm.trans hc')
      obtain ⟨hown, hstate, -⟩ := h.waits c hwait
      exact ⟨hown, hstate, fun hw => hend.2.mp (Option.some.inj hw)⟩
    · cases hwait.symm.trans hfree
  · cases hstep

theorem Inv.resetAfterWait {s' : Sys} (h : Inv s) (hstep : resetAfterWait s = some s') : Inv s' := by
  simp only [Interrupts.resetAfterWait] at hstep
  split at hstep
  · rename_i c w hwait hended
    obtain ⟨dev, hwake, rfl⟩ := Option.map_eq_some_iff.mp hstep
    obtain ⟨hown, hstate, hend⟩ := h.waits c hwait
    have hbelongs : ∀ t ∈ (if w.status = 0 then s.current c :: s.succeeded else s.succeeded), t ∈ s.raised := by
      intro t ht
      split at ht
      · rename_i hzero
        rcases List.mem_cons.mp ht with rfl | ht
        · have hw : w = .completed := by
            cases w with
            | completed => rfl
            | timeout => cases hzero
            | interrupted => cases hzero
          subst hw
          rcases hstate with hrun | ⟨-, hraised⟩
          · exact absurd hrun (hend hended)
          · exact hraised
        · exact h.belongs.succeeded t ht
      · exact h.belongs.succeeded t ht
    refine ⟨step_settled h.settled hwake, h.held, fun c' hc' => ?_, fun _ => rfl, hbelongs, h.belongs.marked⟩
    cases step_effect hwake with
    | nothing =>
        obtain ⟨hown', hstate', -⟩ := h.waits c' hc'
        exact ⟨hown', hstate', fun hw => by cases hw⟩
    | executed _ env req fileCtx c' m _ present mutex validated => cases validated
    | woken _ c₁ _ waiting reset => cases hc'.symm.trans (resetDmaInfo_frame reset).2.2
  · cases hstep

theorem Inv.cancelWork (h : Inv s) (op : Op) : Inv (cancelWork s op) := by
  cases op with
  | remove =>
      refine h.moves rfl rfl rfl rfl rfl (fun _ => id) fun c => .of_held (fun _ => id) fun t ht => ?_
      simp only [Interrupts.cancelWork, mem_held, List.not_mem_nil, false_or] at ht ⊢
      tauto
  | _ => exact h

theorem afterCall_held (s : Sys) (dev : TpceDev) (c : Channel) :
    ((s.afterCall dev).irq c).held = (s.irq c).held := by
  simp only [Sys.afterCall]
  split <;> rfl

theorem Inv.afterCall (h : Inv s) (hcall : callable s op = true)
    (hquiet : ∀ env req c, StartsDefault s.dev op env req c → (s.irq c).leftOver = [])
    (hstep : Driver.step s.dev op = some dev) : Inv (s.afterCall dev) := by
  refine ⟨step_settled h.settled hstep, fun c t ht => ?_, fun c hwait => ?_, fun hfree => ?_,
    h.belongs.succeeded, h.belongs.marked⟩
  · rw [afterCall_held] at ht
    exact h.held c t ht
  · have hwait : dev.waiting = some c := hwait
    cases hold : s.dev.waiting with
    | some c' =>
        obtain ⟨hsame, hstates⟩ := step_while_waiting hstep hold hcall
        obtain rfl : c' = c := Option.some.inj (hsame.symm.trans hwait)
        have hstarts : starts s.dev dev c' = false := by simp [starts, hstates]
        obtain ⟨hown, hstate, hend⟩ := h.waits c' hold
        refine ⟨?_, ?_, ?_⟩
        · simpa only [Sys.afterCall, hstarts, Bool.false_eq_true, if_false] using hown
        · simpa only [Sys.afterCall, hstarts, hstates, Bool.false_eq_true, if_false] using hstate
        · simpa only [Sys.afterCall, hstates] using hend
    | none =>
        obtain ⟨⟨env, req, hdefault⟩, hidle, hrun⟩ := starts_of_waits hstep hold hwait
        have hstarts : starts s.dev dev c = true := by simp [starts, hidle, hrun]
        have hleft := hquiet env req c hdefault
        refine ⟨fun t ht => ?_, .inl hrun, fun hend => ?_⟩
        · simp only [Sys.afterCall, hstarts, if_true]
          rcases mem_leftOver.mp ht with ht | ht
          · simp only [Sys.afterCall, hstarts, if_true, List.mem_cons] at ht
            refine ht.resolve_right fun ht => ?_
            have hmem := mem_leftOver.mpr (.inl ht)
            rw [hleft] at hmem
            exact List.not_mem_nil hmem
          · rw [afterCall_held] at ht
            have hmem := mem_leftOver.mpr (.inr ht)
            rw [hleft] at hmem
            exact absurd hmem List.not_mem_nil
        · cases (h.free hold).symm.trans hend
  · have hfree : dev.waiting = none := hfree
    refine h.free (Option.eq_none_iff_forall_ne_some.mpr fun c hold => ?_)
    cases hfree.symm.trans (step_while_waiting hstep hold hcall).1

theorem step_inv {e : Event} {s' : Sys} (h : Inv s) (hquiet : QuietStart s e)
    (hstep : Interrupts.step s e = some s') : Inv s' := by
  cases e with
  | call op =>
      simp only [Interrupts.step] at hstep
      split at hstep
      · rename_i hcall
        obtain ⟨dev, hdev, rfl⟩ := Option.map_eq_some_iff.mp hstep
        cases op with
        | remove =>
            have hremove : callable (cancelWork s .remove) .remove = true := hcall
            have hcancel := h.cancelWork .remove
            exact hcancel.afterCall hremove (fun _ _ _ hstart => by cases hstart.accepted.validated) hdev
        | _ => exact h.afterCall hcall hquiet hdev
      · cases hstep
  | waitEnd w => exact h.waitEnd hstep
  | resetAfterWait => exact h.resetAfterWait hstep
  | raise c t =>
      simp only [Interrupts.step] at hstep
      split at hstep
      · rename_i hworking
        cases hstep
        exact h.raise (List.contains_iff_mem.mp hworking)
      · cases hstep
  | finish c t =>
      cases hstep
      exact h.setIrq (.of_held (fun _ => List.mem_of_mem_erase) fun _ => id)
  | controllerReset c =>
      cases hstep
      refine h.setIrq (.of_held (fun _ ht => absurd ht List.not_mem_nil) fun t ht => ?_)
      simp only [mem_held, List.not_mem_nil, false_or] at ht ⊢
      exact .inr ht
  | isrEnter app =>
      simp only [Interrupts.step] at hstep
      split at hstep
      · cases hstep
        refine h.moves rfl rfl rfl rfl rfl (fun _ => id) fun c => .of_held (fun _ => id) fun t ht => ?_
        simp only [mem_held] at ht ⊢
        tauto
      · cases hstep
  | isrLeave =>
      simp only [Interrupts.step] at hstep
      split at hstep
      · cases hstep
        exact h.moves rfl rfl rfl rfl rfl (fun _ => id) fun c => moves_isrChannel _ _ _
      · cases hstep
  | taskletEnter =>
      simp only [Interrupts.step] at hstep
      split at hstep
      · cases hstep
        refine h.moves rfl rfl rfl rfl rfl (fun _ => id) fun c => .of_held (fun _ => id) fun t ht => ?_
        simp only [taskletEnter, mem_held, List.not_mem_nil, false_or] at ht ⊢
        tauto
      · cases hstep
  | queueWork c =>
      simp only [Interrupts.step] at hstep
      split at hstep
      · cases hstep
        refine h.setIrq (.of_held (fun _ => id) fun t ht => ?_)
        simp only [mem_held, List.mem_append, List.not_mem_nil, false_or] at ht ⊢
        tauto
      · cases hstep
  | taskletLeave =>
      simp only [Interrupts.step] at hstep
      split at hstep
      · cases hstep
        exact h.moves rfl rfl rfl rfl rfl (fun _ => id) fun c => .refl _ _
      · cases hstep
  | workStart c =>
      simp only [Interrupts.step] at hstep
      split at hstep
      · cases hstep
        refine h.setIrq (.of_held (fun _ => id) fun t ht => ?_)
        simp only [mem_held, List.not_mem_nil, false_or] at ht ⊢
        tauto
      · cases hstep
  | workRun c =>
      simp only [Interrupts.step] at hstep
      split at hstep
      · cases hstep
      · rename_i hrunning
        obtain ⟨dev, hdev, rfl⟩ := Option.map_eq_some_iff.mp hstep
        exact h.workRun (fun hnil => hrunning (by simp [hnil])) hdev

theorem inv_init (sgt : SgTable) : Inv (Sys.init sgt) := by
  refine ⟨fun c => .inl rfl, fun c t ht => absurd ht List.not_mem_nil, fun c hwait => ?_, fun _ => rfl, ?_, ?_⟩
  · cases hwait
  · exact fun t ht => absurd ht List.not_mem_nil
  · exact fun p hp => absurd hp List.not_mem_nil

/-- In a run whose default transfers all start on quiet channels, a completion
belongs to its transfer. -/
theorem completion_belongs (sgt : SgTable) (es : List Event)
    (hquiet : Runs.Along Interrupts.step QuietStart (Sys.init sgt) es) :
    Runs.Always Interrupts.step Belongs (Sys.init sgt) es :=
  (Runs.always_of_along (fun _ _ _ h hq hstep => step_inv h hq hstep) (inv_init sgt) hquiet).mono
    fun _ h => h.belongs

def oneRange : SgTable := ⟨.last [⟨0x8000000#64, 0x100000#32, 0⟩], 1⟩

def readPage : TpceDmaRequest where
  id := 1
  params := ⟨0, 0, 4096, 0, 0, 0, 0, tpceDmaModeDefault, tpceDmaFromDevice, 0, 0⟩
  descriptors := 0
  descriptorsSize := 0
  descriptorsType := 0

def interrupt (t : ℕ) : List Event :=
  [.raise 0 t, .isrEnter false, .isrLeave, .taskletEnter, .queueWork 0, .taskletLeave]

def work : List Event := [.workStart 0, .workRun 0, .waitEnd .completed, .resetAfterWait]

def servedRead : List Event :=
  [.call .openFile, .call (.execute 0 .granted readPage)] ++ interrupt 2 ++ work

/-- The caller is killed while the work item of its transfer is queued, and the
channel is used again. -/
def killedRead : List Event :=
  [.call .openFile, .call (.execute 0 .granted readPage)] ++ interrupt 2 ++
    [.waitEnd .interrupted, .resetAfterWait, .controllerReset 0, .call (.execute 0 .granted readPage)] ++
      work

theorem served_read_belongs :
    Runs.Always Interrupts.step Belongs (Sys.init oneRange) servedRead ∧
      (Runs.run Interrupts.step (Sys.init oneRange) servedRead).map Sys.succeeded = some [2] := by
  refine ⟨completion_belongs oneRange _ fun s hopen => ⟨?_, fun s' _ => ⟨?_, ?_⟩⟩, by decide +kernel⟩
  · exact fun _ _ _ _ => rfl
  · intro _ _ _ _
    cases hopen
    rfl
  · have hquiet : ∀ e ∈ interrupt 2 ++ work, ∀ s, QuietStart s e := by simp [interrupt, work, QuietStart]
    exact Runs.along_of_forall hquiet

/-- The left-over work item completes a transfer that has raised no interrupt. -/
theorem stale_work_completes_next_transfer :
    ¬Runs.Always Interrupts.step Belongs (Sys.init oneRange) killedRead := by
  intro h
  have hend : (Runs.run Interrupts.step (Sys.init oneRange) killedRead).map
      (fun s => (s.succeeded, s.raised)) = some ([3], [2]) := by
    decide +kernel
  obtain ⟨s, hrun, heq⟩ := Option.map_eq_some_iff.mp hend
  obtain ⟨hsucceeded, hraised⟩ := Prod.mk.inj heq
  have hbelongs := (Runs.always_iff_prefix.mp h _ [] (List.append_nil _).symm s hrun).succeeded
  rw [hsucceeded, hraised] at hbelongs
  exact absurd (hbelongs 3 List.mem_cons_self) (by decide)

end TpceDrv.Completion
