import TpceDrv.Handlers

namespace TpceDrv.Delivery

open Descriptor DmaInfo Mapping Device ChannelControl ChannelSteps Requests RequestSteps Effects Teardown
open Completion CommandSoundness Interrupts Handlers Library.Runs
open Driver (Op)

variable {s s' : Sys} {e : Event} {op : Op} {dev dev' : TpceDev} {c c' : Channel} {t : ℕ}

/-- A caller sleeps until its transfer is complete, and the transfer has raised its
interrupt. -/
structure Sleeps (s : Sys) (c : Channel) : Prop where
  waiting : s.dev.waiting = some c
  asleep : s.ended = none
  raised : s.current c ∈ s.raised

/-- Left to themselves the handlers come to rest, and then no caller sleeps on. -/
def Delivers (s : Sys) : Prop :=
  ∀ es s', run handlerStep s es = some s' → es.length ≤ 36 ∧
    ((∀ e, handlerStep s' e = none) → ∀ c, Sleeps s' c → step s' (.waitEnd .completed) ≠ none)

/-- A default transfer starts on a channel whose interrupts do not go to the stream
handler, and no controller is reset under a sleeping caller, who holds `tpce->mutex`. -/
def Careful (s : Sys) : Event → Prop
  | .call op => ∀ env req c, StartsDefault s.dev op env req c → streamIrq s.dev.fastIrqMask c = false
  | .controllerReset c => s.dev.waiting = some c → s.ended ≠ none
  | _ => True

/-- The channel that a caller waits for -/
structure Sleeper (dev : TpceDev) (c : Channel) : Prop where
  present : dev.goingAway = false
  mode : (dev.dmaInfo c).params.transferMode ≠ tpceDmaModeStream
  live : ∀ obj, (dev.dmaInfo c).mapInfo = some obj → dev.mapInfos obj ≠ none
  slow : streamIrq dev.fastIrqMask c = false

theorem Sleeper.congr (h : Sleeper dev c) (haway : dev'.goingAway = dev.goingAway)
    (hparams : (dev'.dmaInfo c).params = (dev.dmaInfo c).params)
    (hmap : (dev'.dmaInfo c).mapInfo = (dev.dmaInfo c).mapInfo) (hinfos : dev'.mapInfos = dev.mapInfos)
    (hmask : dev'.fastIrqMask = dev.fastIrqMask) : Sleeper dev' c := by
  refine ⟨haway.trans h.present, hparams ▸ h.mode, fun obj hobj => ?_, hmask ▸ h.slow⟩
  rw [hinfos]
  exact h.live obj (hmap ▸ hobj)

theorem Sleeper.setInfo {info : TpceDmaInfo} (h : Sleeper dev c) (hparams : info.params = (dev.dmaInfo c').params)
    (hmap : info.mapInfo = (dev.dmaInfo c').mapInfo) : Sleeper (dev.setInfo c' info) c := by
  by_cases hc : c = c'
  · subst hc
    exact h.congr rfl ((congrArg TpceDmaInfo.params (setInfo_dmaInfo ..)).trans hparams)
      ((congrArg TpceDmaInfo.mapInfo (setInfo_dmaInfo ..)).trans hmap) rfl rfl
  · exact h.congr rfl (congrArg TpceDmaInfo.params (setInfo_dmaInfo_ne _ _ hc))
      (congrArg TpceDmaInfo.mapInfo (setInfo_dmaInfo_ne _ _ hc)) rfl rfl

theorem dmaWork_step : Driver.step dev (.dmaWork c) = some dev' ↔ tpceDmaCompletion dev c = .ok dev' := by
  have hperform : Driver.perform dev (.dmaWork c) = (tpceDmaCompletion dev c).map fun dev => (.returned 0, dev) := rfl
  rw [Driver.step_eq_some, hperform]
  cases tpceDmaCompletion dev c with
  | error e => simp [Except.map]
  | ok dev₁ => simp [Except.map, Driver.enabled]

theorem Sleeper.syncs (h : Sleeper dev c) {obj : ℕ} (hmap : (dev.dmaInfo c).mapInfo = some obj) :
    tpceDmaSyncForCpu dev obj = .ok () := by
  obtain ⟨m, hm⟩ := Option.ne_none_iff_exists'.mp (h.live obj hmap)
  simp only [tpceDmaSyncForCpu, TpceDev.mapInfo, hm]
  rfl

/-- The work item of the sleeping caller's channel ends a running transfer. -/
theorem Sleeper.completion (h : Sleeper dev c) : tpceDmaCompletion dev c = .ok
    (if (dev.dmaInfo c).state = .running then dev.setInfo c { dev.dmaInfo c with state := .complete } else dev) := by
  simp only [tpceDmaCompletion, if_neg h.mode]
  split
  · cases hmap : (dev.dmaInfo c).mapInfo with
    | none => rfl
    | some obj =>
        simp only [h.syncs hmap]
        split
        · rfl
        · rfl
  · rfl

/-- The caller of a transfer that has just been started sleeps on a mapping that is there. -/
theorem sleeper_of_execute {env : InitEnv} {req : TpceDmaRequest} (hpresent : dev.goingAway = false)
    (h : Executed env dev c' req dev') (hfree : dev.waiting = none) (hwait : dev'.waiting = some c)
    (hslow : streamIrq dev.fastIrqMask c = false) : Sleeper dev' c := by
  have haway := (sameHandles_execute h).goingAway.trans hpresent
  cases h with
  | refused => cases hfree.symm.trans hwait
  | failed obj m prep info info₂ table dev₁ dev₂ _ accepted start started state reset =>
      have hsame : dev'.waiting = dev.waiting := by
        rw [(resetDmaInfo_frame reset).2.2, started.result, accepted.result]
        rfl
      cases hfree.symm.trans (hsame.symm.trans hwait)
  | running obj m prep info info₂ table dev₁ dev₂ accepted start started state =>
      by_cases hmode : req.params.transferMode = tpceDmaModeStream
      · rw [if_pos hmode, started.result, accepted.result] at hwait
        cases hfree.symm.trans hwait
      rw [if_neg hmode] at hwait
      obtain rfl : c' = c := Option.some.inj hwait
      have hinfo : dev₂.dmaInfo c' = info₂ := by rw [started.result, setInfo_dmaInfo]
      have hinfos : dev₂.mapInfos = dev₁.mapInfos := by
        rw [started.result]
        rfl
      have hparams : (dev₁.dmaInfo c').params.transferMode ≠ tpceDmaModeStream := by
        rw [initialized_params accepted]
        exact hmode
      have hmask : dev₂.fastIrqMask = dev.fastIrqMask := by
        rw [started.result]
        refine Eq.trans (if_neg hparams) ?_
        rw [accepted.result]
        rfl
      refine ⟨haway, ?_, fun obj' hobj' => ?_, hmask ▸ hslow⟩
      · dsimp only
        rw [hinfo, started.same.params, initialized_params accepted]
        exact hmode
      · have hmap : info₂.mapInfo = some obj := by
          rw [started.same.mapInfo, accepted.result]
          exact congrArg TpceDmaInfo.mapInfo (setInfo_dmaInfo dev c' _)
        have hobj : obj = obj' := by
          dsimp only at hobj'
          rw [hinfo, hmap] at hobj'
          exact Option.some.inj hobj'
        subst hobj
        dsimp only
        rw [hinfos, accepted.result]
        simp [TpceDev.setMapInfo]

/-- A channel starts in a call only by the request of that call. -/
def OnlyStops (dev dev' : TpceDev) : Prop :=
  ∀ c, (dev'.dmaInfo c).state = .running → (dev.dmaInfo c).state = .running

theorem onlyStops_reset (h : resetDmaInfo dev c' = .ok dev') : OnlyStops dev dev' := by
  intro c hrun
  obtain ⟨hidle, hothers, -⟩ := resetDmaInfo_frame h
  by_cases hc : c = c'
  · subst hc
    cases hidle.symm.trans hrun
  · rwa [hothers c hc] at hrun

theorem onlyStops_abort_reset (h : resetDmaInfo (tpceDmaAbort dev c') c' = .ok dev') : OnlyStops dev dev' := by
  intro c hrun
  obtain ⟨hidle, hothers, -⟩ := resetDmaInfo_frame h
  by_cases hc : c = c'
  · subst hc
    cases hidle.symm.trans hrun
  · rwa [hothers c hc, (abort_frame dev c').1 c hc] at hrun

theorem onlyStops_tornDown (h : TornDown dev dev') : OnlyStops dev dev' := by
  refine h.keeps (I := OnlyStops dev) (fun _ => id) fun dev₁ dev₂ hstep hdev c hrun => hdev c ?_
  cases hstep with
  | reset c' _ reset => exact onlyStops_reset reset c hrun
  | cancel c' _ reset => exact onlyStops_abort_reset reset c hrun
  | elsewhere _ same => rwa [same.dmaInfo] at hrun
  | buffers c' idle =>
      by_cases hc : c = c'
      · subst hc
        rw [setInfo_dmaInfo] at hrun
        exact hrun
      · rwa [setInfo_dmaInfo_ne _ _ hc] at hrun

theorem onlyStops_setInfo {info : TpceDmaInfo} (h : info.state = .running → (dev.dmaInfo c').state = .running) :
    OnlyStops dev (dev.setInfo c' info) := by
  intro c hrun
  by_cases hc : c = c'
  · subst hc
    rw [setInfo_dmaInfo] at hrun
    exact h hrun
  · rwa [setInfo_dmaInfo_ne _ _ hc] at hrun

/-- Where a channel starts, it is the one of the request. -/
theorem started_by_request (h : Driver.step dev op = some dev') (hstart : starts dev dev' c = true) :
    ∃ env req, Driver.validatedRequest dev op = some (env, req) ∧ c.val = req.params.channel.toNat := by
  obtain ⟨hno, hrun⟩ := Bool.and_eq_true_iff.mp hstart
  have hno : (dev.dmaInfo c).state ≠ .running := of_decide_eq_true hno
  have hrun : (dev'.dmaInfo c).state = .running := of_decide_eq_true hrun
  have hstops : OnlyStops dev dev' → ∃ env req, Driver.validatedRequest dev op = some (env, req) ∧
      c.val = req.params.channel.toNat := fun hstops => absurd (hstops c hrun) hno
  cases step_effect h with
  | nothing | opened | locked | leaked | wentAway => exact hstops fun _ => id
  | unlocked file id obj _ unmap => exact hstops (onlyStops_tornDown (tornDown_unlisted unmap))
  | executed _ env req fileCtx c' m _ present mutex validated valid execute =>
      refine ⟨env, req, validated, ?_⟩
      by_cases hc : c = c'
      · rw [hc]
        exact valid.channel
      · refine absurd ?_ hno
        cases execute with
        | refused => rwa [setInfo_dmaInfo_ne _ _ hc] at hrun
        | failed obj m prep info info₂ table dev₁ dev₂ _ accepted start started state reset =>
            have hsame := (resetDmaInfo_frame reset).2.1 c hc
            rw [hsame, started.result, setInfo_dmaInfo_ne _ _ hc, accepted.result] at hrun
            exact (congrArg TpceDmaInfo.state (setInfo_dmaInfo_ne dev _ hc)).symm.trans hrun
        | running obj m prep info info₂ table dev₁ dev₂ accepted start started state =>
            dsimp only at hrun
            rw [started.result, setInfo_dmaInfo_ne _ _ hc, accepted.result] at hrun
            exact (congrArg TpceDmaInfo.state (setInfo_dmaInfo_ne dev _ hc)).symm.trans hrun
  | cancelled file channel c' _ reset => exact hstops (onlyStops_abort_reset reset)
  | woken w c' _ waiting reset =>
      have hreset : OnlyStops { dev with waiting := none } dev' := onlyStops_reset reset
      exact hstops hreset
  | completed c' => exact hstops (onlyStops_setInfo TpceDmaChannelState.noConfusion)
  | released file dev₁ release =>
      have htorn : OnlyStops dev dev₁ := onlyStops_tornDown (tornDown_release release)
      exact hstops htorn
  | returned file env c' info stream =>
      obtain ⟨-, hinfo, -⟩ := (mmapStreamInfo_spec stream).resolve_left fun hneg => absurd hneg.1 (lt_irrefl 0)
      have hstate : info.state = (dev.dmaInfo c').state := by rw [hinfo]
      exact hstops (onlyStops_setInfo fun hinforun => hstate.symm.trans hinforun)
  | mapped file env c' info stream =>
      obtain ⟨-, hinfo, -⟩ := (mmapStreamInfo_spec stream).resolve_left fun hneg => absurd hneg.1 (lt_irrefl 0)
      have hstate : info.state = (dev.dmaInfo c').state := by rw [hinfo]
      have hset : OnlyStops dev (dev.setInfo c' info) :=
        onlyStops_setInfo fun hinforun => hstate.symm.trans hinforun
      exact hstops hset
  | vmaOpened c' =>
      have hset : OnlyStops dev (dev.setInfo c' (incStreamRefs (dev.dmaInfo c'))) := onlyStops_setInfo id
      exact hstops hset
  | vmaClosed c' =>
      have hset : OnlyStops dev (dev.setInfo c' (tpceFreeStreamInfo (dev.dmaInfo c'))) := onlyStops_setInfo id
      exact hstops hset
  | removed out _ remove => exact hstops (onlyStops_tornDown (tornDown_remove remove))

theorem starts_unique (h : Driver.step dev op = some dev') (hc : starts dev dev' c = true)
    (hc' : starts dev dev' c' = true) : c = c' := by
  obtain ⟨env, req, hreq, hchannel⟩ := started_by_request h hc
  obtain ⟨env', req', hreq', hchannel'⟩ := started_by_request h hc'
  obtain ⟨-, rfl⟩ := Prod.mk.inj (Option.some.inj (hreq.symm.trans hreq'))
  exact Fin.ext (hchannel.trans hchannel'.symm)

/-- While a caller waits, the calls of others leave its channel alone, and only the end
of its wait lets another caller wait. -/
theorem sleeper_step (h : ∀ c, dev.waiting = some c → Sleeper dev c)
    (hcareful : ∀ env req c, StartsDefault dev op env req c → streamIrq dev.fastIrqMask c = false)
    (hstep : Driver.step dev op = some dev') (hwait : dev'.waiting = some c) : Sleeper dev' c := by
  cases hold : dev.waiting with
  | none =>
      obtain ⟨⟨env, req, hdefault⟩, -⟩ := starts_of_waits hstep hold hwait
      obtain ⟨-, -, hexecuted⟩ := hdefault.accepted.executed hstep
      exact sleeper_of_execute hdefault.accepted.present hexecuted hold hwait (hcareful env req c hdefault)
  | some c₀ =>
      have hmutex : Driver.mutexFree dev = false := by
        simp only [Driver.mutexFree]
        rw [hold]
        rfl
      obtain ⟨hen, -⟩ := Driver.step_eq_some.mp hstep
      cases step_effect hstep with
      | nothing => exact h c hwait
      | opened => exact (h c hwait).congr rfl rfl rfl rfl rfl
      | executed _ env req fileCtx c' m _ present mutex => cases mutex.symm.trans hold
      | woken w c' _ waiting reset => cases hwait.symm.trans (resetDmaInfo_frame reset).2.2
      | completed c' => exact (h c hwait).setInfo rfl rfl
      | vmaOpened c' =>
          have hset : Sleeper (dev.setInfo c' (incStreamRefs (dev.dmaInfo c'))) c := (h c hwait).setInfo rfl rfl
          exact hset.congr rfl rfl rfl rfl rfl
      | _ => simp [Driver.enabled, hmutex] at hen

structure Awaited (s : Sys) (c : Channel) : Prop extends Sleeps s c where
  running : (s.dev.dmaInfo c).state = .running

/-- No interrupt is lost that a caller sleeps for. -/
structure Sound (s : Sys) : Prop where
  phased : Phased s
  sleeper : ∀ c, s.dev.waiting = some c → Sleeper s.dev c
  fresh : ∀ c, s.current c < s.started
  known : ∀ t ∈ s.raised, t < s.started
  own : ∀ c, ∀ t ∈ (s.irq c).working, t < s.started ∧ ∀ c', s.current c' = t → c' = c
  kept : ∀ c, Awaited s c → (s.irq c).held ≠ []

theorem Sound.moves (h : Sound s) (hphased : Phased s') (hdev : s'.dev = s.dev) (hcurrent : s'.current = s.current)
    (hstarted : s'.started = s.started) (hended : s'.ended = s.ended) (hraised : s'.raised = s.raised)
    (hworking : ∀ c, ∀ t ∈ (s'.irq c).working, t ∈ (s.irq c).working)
    (hheld : ∀ c, s.dev.waiting = some c → s.ended = none → (s.irq c).held ≠ [] → (s'.irq c).held ≠ []) :
    Sound s' where
  phased := hphased
  sleeper := hdev ▸ h.sleeper
  fresh := hcurrent ▸ hstarted ▸ h.fresh
  known := hraised ▸ hstarted ▸ h.known
  own := fun c t ht => hcurrent ▸ hstarted ▸ h.own c t (hworking c t ht)
  kept := fun c hc => by
    have hold : Awaited s c :=
      ⟨⟨hdev ▸ hc.waiting, hended ▸ hc.asleep, hraised ▸ hcurrent ▸ hc.raised⟩, hdev ▸ hc.running⟩
    exact hheld c hold.waiting hold.asleep (h.kept c hold)

theorem Sound.setIrq {irq : ChannelIrq} (h : Sound s) (hphased : Phased (s.setIrq c irq))
    (hworking : ∀ t ∈ irq.working, t ∈ (s.irq c).working)
    (hheld : s.dev.waiting = some c → s.ended = none → (s.irq c).held ≠ [] → irq.held ≠ []) :
    Sound (s.setIrq c irq) := by
  refine h.moves hphased rfl rfl rfl rfl rfl (fun c' t ht => ?_) fun c' hwait hasleep hold => ?_
  · by_cases hc : c' = c
    · subst hc
      exact hworking t (by simpa [Sys.setIrq] using ht)
    · simpa [Sys.setIrq, hc] using ht
  · by_cases hc : c' = c
    · subst hc
      simpa [Sys.setIrq] using hheld hwait hasleep hold
    · simpa [Sys.setIrq, hc] using hold

theorem Sound.raise (h : Sound s) (ht : t ∈ (s.irq c).working)
    (hphased : Phased { s.setIrq c { s.irq c with status := t :: (s.irq c).status } with raised := t :: s.raised }) :
    Sound { s.setIrq c { s.irq c with status := t :: (s.irq c).status } with raised := t :: s.raised } := by
  obtain ⟨hlt, hown⟩ := h.own c t ht
  have hset : ∀ c', c' ≠ c → (s.setIrq c { s.irq c with status := t :: (s.irq c).status }).irq c' = s.irq c' :=
    fun c' hc => by simp [Sys.setIrq, hc]
  have hat : (s.setIrq c { s.irq c with status := t :: (s.irq c).status }).irq c =
      { s.irq c with status := t :: (s.irq c).status } := by simp [Sys.setIrq]
  refine ⟨hphased, h.sleeper, h.fresh, ?_, fun c' t' ht' => ?_, fun c' hc' => ?_⟩
  · intro t' ht'
    rcases List.mem_cons.mp ht' with rfl | ht'
    · exact hlt
    · exact h.known t' ht'
  · by_cases hc : c' = c
    · subst hc
      dsimp only at ht'
      rw [hat] at ht'
      exact h.own c' t' ht'
    · dsimp only at ht'
      rw [hset c' hc] at ht'
      exact h.own c' t' ht'
  · by_cases hc : c' = c
    · subst hc
      dsimp only
      rw [hat]
      simp [ChannelIrq.held]
    · have hraised : s.current c' ∈ s.raised :=
        (List.mem_cons.mp hc'.raised).resolve_left fun heq => hc (hown c' heq)
      dsimp only
      rw [hset c' hc]
      exact h.kept c' ⟨⟨hc'.waiting, hc'.asleep, hraised⟩, hc'.running⟩

theorem Sound.isrEnter {app : Bool} (h : Sound s) (hstep : step s (.isrEnter app) = some s') : Sound s' := by
  have hphased := step_phased h.phased hstep
  simp only [step] at hstep
  split at hstep
  · rename_i hen
    cases hstep
    have hactive : s.isrActive = false := by simpa using (Bool.and_eq_true_iff.mp hen).2
    refine h.moves hphased rfl rfl rfl rfl rfl (fun _ _ => id) fun c _ _ hold => ?_
    have hisr := h.phased.inIsr c hactive
    simp only [ChannelIrq.held, hisr, List.append_nil, ne_eq, List.append_eq_nil_iff] at hold ⊢
    tauto
  · cases hstep

theorem Sound.isrLeave (h : Sound s) (hactive : s.isrActive = true) : Sound (isrLeave s) := by
  refine h.moves (h.phased.isrLeave hactive) rfl rfl rfl rfl rfl (fun c t ht => ?_) fun c hwait _ hold => ?_
  · simp only [Interrupts.isrLeave, isrChannel] at ht
    split at ht
    · split at ht
      · exact ht
      · exact ht
    · exact ht
  · simp only [Interrupts.isrLeave, isrChannel, (h.sleeper c hwait).slow]
    simp only [ChannelIrq.held, ne_eq, List.append_eq_nil_iff] at hold ⊢
    simp only [Bool.false_eq_true, if_false, List.append_eq_nil_iff]
    tauto

theorem Sound.taskletEnter (h : Sound s) (hscheduled : s.taskletScheduled = true) : Sound (taskletEnter s) := by
  refine h.moves (h.phased.taskletEnter hscheduled) rfl rfl rfl rfl rfl (fun _ _ => id) fun c _ _ hold => ?_
  have htasklet := h.phased.inTasklet c (h.phased.tasklet hscheduled)
  simp only [Interrupts.taskletEnter, ChannelIrq.held, htasklet, ne_eq, List.append_eq_nil_iff] at hold ⊢
  tauto

/-- A work item wakes the caller of its channel and leaves the others alone. -/
theorem completion_states (hsleeper : dev.waiting = some c → Sleeper dev c)
    (h : tpceDmaCompletion dev c = .ok dev') : dev'.waiting = dev.waiting ∧
      (dev.waiting = some c → (dev'.dmaInfo c).state ≠ .running) ∧
      ∀ c', c' ≠ c → dev'.dmaInfo c' = dev.dmaInfo c' := by
  have hframe : dev'.waiting = dev.waiting ∧ ∀ c', c' ≠ c → dev'.dmaInfo c' = dev.dmaInfo c' := by
    rcases completion_cases h with rfl | ⟨-, -, rfl⟩
    · exact ⟨rfl, fun _ _ => rfl⟩
    · exact ⟨rfl, fun _ hc => setInfo_dmaInfo_ne _ _ hc⟩
  refine ⟨hframe.1, fun hwait => ?_, hframe.2⟩
  obtain rfl := Except.ok.inj ((hsleeper hwait).completion.symm.trans h)
  by_cases hrun : (dev.dmaInfo c).state = .running
  · rw [if_pos hrun, setInfo_dmaInfo]
    exact TpceDmaChannelState.noConfusion
  · rwa [if_neg hrun]

theorem Sound.workRun (h : Sound s) (hstep : Driver.step s.dev (.dmaWork c) = some dev)
    (hphased : Phased (workRun s c dev)) : Sound (workRun s c dev) := by
  have hcareful : ∀ env req c', StartsDefault s.dev (.dmaWork c) env req c' →
      streamIrq s.dev.fastIrqMask c' = false := fun _ _ _ hstart => by cases hstart.accepted.validated
  have hset : ∀ c', c' ≠ c → (s.setIrq c { s.irq c with running := [] }).irq c' = s.irq c' :=
    fun c' hc => by simp [Sys.setIrq, hc]
  obtain ⟨hwaiting, hdone, hothers⟩ := completion_states (h.sleeper c) (dmaWork_step.mp hstep)
  refine ⟨hphased, fun c' hwait => sleeper_step h.sleeper hcareful hstep hwait, h.fresh, h.known, fun c' t ht => ?_,
    fun c' hc' => ?_⟩
  · by_cases hc : c' = c
    · subst hc
      exact h.own c' t (by simpa [Interrupts.workRun, Sys.setIrq] using ht)
    · exact h.own c' t (by simpa [Interrupts.workRun, Sys.setIrq, hc] using ht)
  · have hwait : s.dev.waiting = some c' := hwaiting.symm.trans hc'.waiting
    by_cases hc : c' = c
    · subst hc
      exact absurd hc'.running (hdone hwait)
    · have hrun : (s.dev.dmaInfo c').state = .running :=
        (congrArg TpceDmaInfo.state (hothers c' hc)).symm.trans hc'.running
      simp only [Interrupts.workRun]
      rw [hset c' hc]
      exact h.kept c' ⟨⟨hwait, hc'.asleep, hc'.raised⟩, hrun⟩

/-- Behind the wait nobody sleeps. -/
theorem wake_waiting {w : WaitEnd} (h : Driver.step dev (.wake w) = some dev') : dev'.waiting = none := by
  obtain ⟨hen, out, hperform⟩ := Driver.step_eq_some.mp h
  cases hwait : dev.waiting with
  | none => simp [Driver.enabled, hwait] at hen
  | some c =>
      have hfinish : finishWait dev c w = .ok (out, dev') := by
        simpa [Driver.perform, Driver.Op.ioctlFile, hwait] using hperform
      obtain ⟨dev₁, hreset, heq⟩ := bind_eq_ok.mp hfinish
      cases heq
      exact (resetDmaInfo_frame hreset).2.2

theorem Sound.resetAfterWait (h : Sound s) (hstep : resetAfterWait s = some s') (hphased : Phased s') : Sound s' := by
  simp only [Interrupts.resetAfterWait] at hstep
  split at hstep
  · obtain ⟨dev, hdev, rfl⟩ := Option.map_eq_some_iff.mp hstep
    have hfree : dev.waiting = none := wake_waiting hdev
    refine ⟨hphased, fun c hwait => ?_, h.fresh, h.known, h.own, fun c hc => ?_⟩
    · cases hfree.symm.trans hwait
    · cases hfree.symm.trans hc.waiting
  · cases hstep

theorem Sound.waitEnd {w : WaitEnd} (h : Sound s) (hstep : waitEnd s w = some s') (hphased : Phased s') :
    Sound s' := by
  simp only [Interrupts.waitEnd] at hstep
  split at hstep
  · cases hstep
  split at hstep
  · cases hstep
    refine ⟨hphased, h.sleeper, h.fresh, h.known, h.own, fun c hc => ?_⟩
    cases hc.asleep
  · cases hstep

/-- A call that starts a channel gives it a transfer of its own, which has not raised
an interrupt, and other calls wake nobody. -/
theorem Sound.afterCall (h : Sound s) (hcall : callable s op = true) (hstep : Driver.step s.dev op = some dev)
    (hcareful : ∀ env req c, StartsDefault s.dev op env req c → streamIrq s.dev.fastIrqMask c = false)
    (hphased : Phased (s.afterCall dev)) : Sound (s.afterCall dev) := by
  refine ⟨hphased, fun c hwait => sleeper_step h.sleeper hcareful hstep hwait, fun c => ?_, fun t ht => ?_,
    fun c t ht => ?_, fun c hc => ?_⟩
  · simp only [Sys.afterCall]
    split
    · exact Nat.lt_succ_self _
    · exact Nat.lt_succ_of_lt (h.fresh c)
  · exact Nat.lt_succ_of_lt (h.known t ht)
  · have hold : ∀ t ∈ (s.irq c).working, t < s.started + 1 ∧ ∀ c', (s.afterCall dev).current c' = t → c' = c := by
      intro t ht
      obtain ⟨hlt, hown⟩ := h.own c t ht
      refine ⟨Nat.lt_succ_of_lt hlt, fun c' heq => ?_⟩
      simp only [Sys.afterCall] at heq
      split at heq
      · exact absurd (heq ▸ hlt) (lt_irrefl _)
      · exact hown c' heq
    by_cases hstarts : starts s.dev dev c = true
    · simp only [Sys.afterCall, hstarts, if_true, List.mem_cons] at ht
      rcases ht with rfl | ht
      · refine ⟨Nat.lt_succ_self _, fun c' heq => ?_⟩
        simp only [Sys.afterCall] at heq
        split at heq
        · rename_i hstarts'
          exact starts_unique hstep hstarts' hstarts
        · exact absurd (heq ▸ h.fresh c') (lt_irrefl _)
      · exact hold t ht
    · simp only [Sys.afterCall, hstarts] at ht
      exact hold t ht
  · rw [afterCall_held]
    have hstarts : starts s.dev dev c = false := by
      by_contra hstarts
      have hstarts := Bool.not_eq_false _ ▸ hstarts
      have hraised := hc.raised
      simp only [Sys.afterCall, hstarts, if_true] at hraised
      exact absurd (h.known _ hraised) (lt_irrefl _)
    have hrun : (s.dev.dmaInfo c).state = .running := by
      by_contra hno
      have hnew : (dev.dmaInfo c).state = .running := hc.running
      simp [starts, hno, hnew] at hstarts
    have hraised : s.current c ∈ s.raised := by
      have hraised := hc.raised
      simpa only [Sys.afterCall, hstarts, Bool.false_eq_true, if_false] using hraised
    cases hold : s.dev.waiting with
    | none =>
        obtain ⟨-, hidle, -⟩ := starts_of_waits hstep hold hc.waiting
        cases hidle.symm.trans hrun
    | some c₀ =>
        obtain rfl : c₀ = c := Option.some.inj ((step_while_waiting hstep hold hcall).1.symm.trans hc.waiting)
        exact h.kept c₀ ⟨⟨hold, hc.asleep, hraised⟩, hrun⟩

theorem step_sound (h : Sound s) (hcareful : Careful s e) (hstep : step s e = some s') : Sound s' := by
  have hphased := step_phased h.phased hstep
  cases e with
  | call op =>
      simp only [step] at hstep
      split at hstep
      · rename_i hcall
        obtain ⟨dev, hdev, rfl⟩ := Option.map_eq_some_iff.mp hstep
        cases op with
        | remove =>
            have hfree : s.dev.waiting = none := by
              have hen := (Driver.step_eq_some.mp hdev).1
              exact waiting_of_mutexFree (Bool.and_eq_true_iff.mp hen).1
            have hcancel : Sound (cancelWork s .remove) := by
              refine h.moves (h.phased.cancelWork hcall hdev) rfl rfl rfl rfl rfl (fun _ _ => id) fun c hwait => ?_
              cases hfree.symm.trans hwait
            have hremove : callable (cancelWork s .remove) .remove = true := hcall
            exact hcancel.afterCall hremove hdev (fun _ _ _ hstart => by cases hstart.accepted.validated) hphased
        | _ => exact h.afterCall hcall hdev hcareful hphased
      · cases hstep
  | waitEnd w => exact h.waitEnd hstep hphased
  | resetAfterWait => exact h.resetAfterWait hstep hphased
  | raise c t =>
      simp only [step] at hstep
      split at hstep
      · rename_i hworking
        cases hstep
        exact h.raise (List.contains_iff_mem.mp hworking) hphased
      · cases hstep
  | finish c t =>
      cases hstep
      exact h.setIrq hphased (fun _ => List.mem_of_mem_erase) fun _ _ => id
  | controllerReset c =>
      cases hstep
      apply h.setIrq hphased
      · exact fun _ ht => absurd ht List.not_mem_nil
      · exact fun hwait hasleep => absurd hasleep (hcareful hwait)
  | isrEnter app => exact h.isrEnter hstep
  | isrLeave =>
      simp only [step] at hstep
      split at hstep
      · rename_i hactive
        cases hstep
        exact h.isrLeave hactive
      · cases hstep
  | taskletEnter =>
      simp only [step] at hstep
      split at hstep
      · rename_i hen
        cases hstep
        exact h.taskletEnter (Bool.and_eq_true_iff.mp hen).1
      · cases hstep
  | queueWork c =>
      simp only [step] at hstep
      split at hstep
      · rename_i hen
        cases hstep
        have htasklet : (s.irq c).tasklet ≠ [] := by simpa using (Bool.and_eq_true_iff.mp hen).2
        refine h.setIrq hphased (fun _ => id) fun _ _ _ => ?_
        simp [ChannelIrq.held, htasklet]
      · cases hstep
  | taskletLeave =>
      simp only [step] at hstep
      split at hstep
      · cases hstep
        exact h.moves hphased rfl rfl rfl rfl rfl (fun _ _ => id) fun _ _ _ => id
      · cases hstep
  | workStart c =>
      simp only [step] at hstep
      split at hstep
      · rename_i hen
        cases hstep
        have hqueued : (s.irq c).queued ≠ [] := by simpa using (Bool.and_eq_true_iff.mp hen).1
        refine h.setIrq hphased (fun _ => id) fun _ _ _ => ?_
        simp [ChannelIrq.held, hqueued]
      · cases hstep
  | workRun c =>
      simp only [step] at hstep
      split at hstep
      · cases hstep
      · obtain ⟨dev, hdev, rfl⟩ := Option.map_eq_some_iff.mp hstep
        exact h.workRun hdev hphased

theorem sound_init (sgt : SgTable) : Sound (Sys.init sgt) where
  phased := phased_init sgt
  sleeper := fun _ hwait => by cases hwait
  fresh := fun _ => Nat.one_pos
  known := fun _ ht => absurd ht List.not_mem_nil
  own := fun _ _ ht => absurd ht List.not_mem_nil
  kept := fun _ hc => by cases hc.waiting

theorem careful_of_handler (h : handlerStep s e = some s') : Careful s e := by
  cases e with
  | call | controllerReset => cases h
  | _ => exact True.intro

theorem Sound.delivers (h : Sound s) : Delivers s := by
  intro es s' hrun
  refine ⟨handlers_bounded h.phased hrun, fun hrest c hsleeps => ?_⟩
  have hsound : Sound s' := holds_after_along (P := fun _ _ => True)
    (fun _ _ _ hs _ hstep => step_sound hs (careful_of_handler hstep) (step_of_handler hstep)) h
    (along_of_forall fun _ _ _ => True.intro) hrun
  have hsleeper := hsound.sleeper c hsleeps.waiting
  have hwork : Driver.step s'.dev (.dmaWork c) ≠ none := by
    rw [dmaWork_step.mpr hsleeper.completion]
    exact Option.some_ne_none _
  have hempty := held_of_rest hsound.phased hrest hsleeper.present hwork
  have hdone : (s'.dev.dmaInfo c).state ≠ .running := fun hrun => hsound.kept c ⟨hsleeps, hrun⟩ hempty
  simp [step, Interrupts.waitEnd, hsleeps.waiting, hsleeps.asleep, hdone]

end TpceDrv.Delivery
