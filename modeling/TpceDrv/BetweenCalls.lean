import TpceDrv.Effects
import TpceDrv.Teardown

namespace TpceDrv.BetweenCalls

open Descriptor DmaInfo Mapping Device ChannelControl ChannelSteps Requests Driver RequestSteps Effects
open Teardown

variable {dev dev' : TpceDev} {c : Channel}

/-- Between two calls a channel is idle, streams, or runs a transfer that its
caller waits for. -/
def SettledAt (dev : TpceDev) (c : Channel) : Prop :=
  (dev.dmaInfo c).state = .idle ∨
    ((dev.dmaInfo c).state = .running ∧ (dev.dmaInfo c).params.transferMode = tpceDmaModeStream) ∨
    (((dev.dmaInfo c).state = .running ∨ (dev.dmaInfo c).state = .complete) ∧ dev.waiting = some c)

def Settled (dev : TpceDev) : Prop := ∀ c, SettledAt dev c

theorem SettledAt.congr (h : SettledAt dev c) (hstate : (dev'.dmaInfo c).state = (dev.dmaInfo c).state)
    (hparams : (dev'.dmaInfo c).params = (dev.dmaInfo c).params) (hwait : dev'.waiting = dev.waiting) :
    SettledAt dev' c := by
  simp only [SettledAt]
  rw [hstate, hparams, hwait]
  exact h

theorem Settled.congr (h : Settled dev) (hinfo : dev'.dmaInfo = dev.dmaInfo)
    (hwait : dev'.waiting = dev.waiting) : Settled dev' :=
  fun c => (h c).congr (by rw [hinfo]) (by rw [hinfo]) hwait

theorem Settled.setInfo (h : Settled dev) (c : Channel) (info : TpceDmaInfo)
    (hstate : info.state = (dev.dmaInfo c).state) (hparams : info.params = (dev.dmaInfo c).params) :
    Settled (dev.setInfo c info) := by
  intro c'
  by_cases hc : c' = c
  · subst hc
    exact (h c').congr (by simpa using hstate) (by simpa using hparams) rfl
  · have hinfo := setInfo_dmaInfo_ne dev info hc
    exact (h c').congr (by rw [hinfo]) (by rw [hinfo]) rfl

theorem settled_of_reset (h : resetDmaInfo dev c = .ok dev') (hothers : ∀ c', c' ≠ c → SettledAt dev c') :
    Settled dev' := by
  obtain ⟨hidle, hsame, hwait⟩ := resetDmaInfo_frame h
  intro c'
  by_cases hc : c' = c
  · exact .inl (hc ▸ hidle)
  · exact (hothers c' hc).congr (by rw [hsame c' hc]) (by rw [hsame c' hc]) hwait

theorem settled_of_abort_reset (hset : Settled dev)
    (h : resetDmaInfo (tpceDmaAbort dev c) c = .ok dev') : Settled dev' := by
  obtain ⟨hsame, hwait⟩ := abort_frame dev c
  refine settled_of_reset h fun c' hc => (hset c').congr ?_ ?_ hwait
  · rw [hsame c' hc]
  · rw [hsame c' hc]

theorem settled_of_tearsDown (h : TearsDown dev dev') (hset : Settled dev) : Settled dev' := by
  cases h with
  | reset c _ hreset => exact settled_of_reset hreset fun c' _ => hset c'
  | cancel c _ hreset => exact settled_of_abort_reset hset hreset
  | elsewhere _ hsame => exact hset.congr hsame.dmaInfo hsame.waiting
  | buffers c idle => exact hset.setInfo c _ rfl rfl

theorem settled_of_tornDown (h : TornDown dev dev') (hset : Settled dev) : Settled dev' :=
  h.keeps hset fun _ _ => settled_of_tearsDown

theorem settled_of_execute {env : InitEnv} {req : TpceDmaRequest} (hset : Settled dev)
    (hwait : dev.waiting = none) (h : Executed env dev c req dev') : Settled dev' := by
  cases h with
  | refused ret info refusal negative same state => exact hset.setInfo c info state same.params
  | failed obj mapInfo prep info info₂ table dev₁ dev₂ _ accepted start started state reset =>
      refine settled_of_reset reset fun c' hc => (hset c').congr ?_ ?_ ?_
      · rw [started.result, setInfo_dmaInfo_ne _ _ hc, accepted.result]
        exact congrArg TpceDmaInfo.state (setInfo_dmaInfo_ne dev _ hc)
      · rw [started.result, setInfo_dmaInfo_ne _ _ hc, accepted.result]
        exact congrArg TpceDmaInfo.params (setInfo_dmaInfo_ne dev _ hc)
      · rw [started.result, accepted.result]
        rfl
  | running obj mapInfo prep info info₂ table dev₁ dev₂ accepted start started state =>
      have hothers : ∀ c', c' ≠ c → dev₂.dmaInfo c' = dev.dmaInfo c' := fun c' hc => by
        rw [started.result, setInfo_dmaInfo_ne _ _ hc, initialized_others accepted hc]
      have hself : dev₂.dmaInfo c = info₂ := by rw [started.result, setInfo_dmaInfo]
      have hmode : info₂.params = req.params := started.same.params.trans (initialized_params accepted)
      intro c'
      by_cases hc : c' = c
      · subst hc
        have hrun : (dev₂.dmaInfo c').state = .running := by rw [hself]; exact state
        by_cases hstream : req.params.transferMode = tpceDmaModeStream
        · exact .inr (.inl ⟨hrun, by dsimp only; rw [hself, hmode]; exact hstream⟩)
        · exact .inr (.inr ⟨.inl hrun, if_neg hstream⟩)
      · rcases hset c' with h0 | ⟨hrun, hm⟩ | ⟨-, hw⟩
        · exact .inl (by dsimp only; rw [hothers c' hc]; exact h0)
        · exact .inr (.inl ⟨by dsimp only; rw [hothers c' hc]; exact hrun,
            by dsimp only; rw [hothers c' hc]; exact hm⟩)
        · rw [hwait] at hw
          cases hw

theorem step_settled {op : Op} (hset : Settled dev) (h : step dev op = some dev') : Settled dev' := by
  cases step_effect h with
  | nothing => exact hset
  | opened => exact hset.congr rfl rfl
  | locked file lockEnv bufferInfo id free => exact hset.congr rfl rfl
  | unlocked file id obj _ unmap => exact settled_of_tornDown (tornDown_unlisted unmap) hset
  | executed _ env req fileCtx c mapInfo _ present mutex validated valid execute =>
      exact settled_of_execute hset mutex execute
  | cancelled file channel c _ reset => exact settled_of_abort_reset hset reset
  | woken w c _ waiting reset =>
      refine settled_of_reset reset fun c' hc => ?_
      rcases hset c' with h0 | hstream | ⟨-, hw⟩
      · exact .inl h0
      · exact .inr (.inl hstream)
      · exact absurd (Option.some.inj (hw.symm.trans waiting)) hc
  | completed c mode running =>
      intro c'
      by_cases hc : c' = c
      · subst hc
        rcases hset c' with h0 | ⟨-, hm⟩ | ⟨-, hw⟩
        · rw [running] at h0
          cases h0
        · exact absurd hm mode
        · exact .inr (.inr ⟨.inr (by rw [setInfo_dmaInfo]), hw⟩)
      · have hinfo := setInfo_dmaInfo_ne dev { dev.dmaInfo c with state := .complete } hc
        exact (hset c').congr (by rw [hinfo]) (by rw [hinfo]) rfl
  | released file dev₁ release => exact (settled_of_tornDown (tornDown_release release) hset).congr rfl rfl
  | leaked file env c => exact hset.congr rfl rfl
  | returned file env c info stream =>
      obtain ⟨-, hinfo, -⟩ := (mmapStreamInfo_spec stream).resolve_left fun h => absurd h.1 (by decide)
      have hstate : info.state = (dev.dmaInfo c).state := by rw [hinfo]
      have hparams : info.params = (dev.dmaInfo c).params := by rw [hinfo]
      exact hset.setInfo c _ hstate hparams
  | mapped file env c info stream =>
      obtain ⟨-, hinfo, -⟩ := (mmapStreamInfo_spec stream).resolve_left fun h => absurd h.1 (by decide)
      have hstate : info.state = (dev.dmaInfo c).state := by rw [hinfo]
      have hparams : info.params = (dev.dmaInfo c).params := by rw [hinfo]
      exact (hset.setInfo c _ hstate hparams).congr rfl rfl
  | vmaOpened c area => exact (hset.setInfo c (incStreamRefs (dev.dmaInfo c)) rfl rfl).congr rfl rfl
  | vmaClosed c area => exact (hset.setInfo c (tpceFreeStreamInfo (dev.dmaInfo c)) rfl rfl).congr rfl rfl
  | wentAway => exact hset.congr rfl rfl
  | removed out _ remove => exact settled_of_tornDown (tornDown_remove remove) hset

end TpceDrv.BetweenCalls
