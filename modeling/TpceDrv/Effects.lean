import TpceDrv.RequestSteps

namespace TpceDrv.Effects

open Descriptor DmaInfo Mapping Device ChannelControl ChannelSteps Requests Driver RequestSteps

variable {env : InitEnv} {dev dev' : TpceDev} {c : Channel} {req : TpceDmaRequest} {op : Op}

/-- What a call can do to the driver: one case for each way through its code,
with the lemmas of the called functions behind it. -/
inductive Effect (dev : TpceDev) : Op → TpceDev → Prop
  | nothing (op : Op) : Effect dev op dev
  | opened : Effect dev .openFile { dev with files := dev.nextFile :: dev.files, nextFile := dev.nextFile + 1 }
  | locked (file : ℕ) (lockEnv : LockEnv) (bufferInfo : TpceDmaBufIn) (id : U32)
      (free : dev.dmaMappings id = none) : Effect dev (.lockBuffer file lockEnv bufferInfo) { dev with
        mapInfos := Function.update dev.mapInfos dev.nextObj
          (some { lockedMapInfo lockEnv dev bufferInfo id with owner := some file })
        dmaMappings := Function.update dev.dmaMappings id (some dev.nextObj)
        nextObj := dev.nextObj + 1
        dmaMapSublist := Function.update dev.dmaMapSublist file
          (dev.dmaMapSublist file ++ [dev.nextObj]) }
  | unlocked (file : ℕ) (id : U32) (obj : ℕ) (dev' : TpceDev)
      (unmap : tpceSafeDmaUnmap (listDel dev file obj) obj = .ok dev') :
      Effect dev (.unlockBuffer file id) dev'
  | executed (op : Op) (env : InitEnv) (req : TpceDmaRequest) (fileCtx : Option ℕ) (c : Channel)
      (mapInfo : TpceDmaMapInfo) (dev' : TpceDev) (present : dev.goingAway = false)
      (mutex : dev.waiting = none) (validated : validatedRequest dev op = some (env, req))
      (valid : ValidRequest dev req fileCtx c mapInfo) (execute : Executed env dev c req dev') :
      Effect dev op dev'
  | cancelled (file : ℕ) (channel : U32) (c : Channel) (dev' : TpceDev)
      (reset : resetDmaInfo (tpceDmaAbort dev c) c = .ok dev') : Effect dev (.cancel file channel) dev'
  | woken (w : WaitEnd) (c : Channel) (dev' : TpceDev) (waiting : dev.waiting = some c)
      (reset : resetDmaInfo { dev with waiting := none } c = .ok dev') : Effect dev (.wake w) dev'
  | completed (c : Channel) (mode : (dev.dmaInfo c).params.transferMode ≠ tpceDmaModeStream)
      (running : (dev.dmaInfo c).state = .running) :
      Effect dev (.dmaWork c) (dev.setInfo c { dev.dmaInfo c with state := .complete })
  | released (file : ℕ) (dev' : TpceDev)
      (release : releaseMappings file dev (dev.dmaMapSublist file) = .ok dev') :
      Effect dev (.release file) { dev' with files := dev'.files.erase file }
  | leaked (file : ℕ) (env : MmapEnv) (c : Channel) :
      Effect dev (.mmap file env c) { dev with mutexLeaked := true }
  | returned (file : ℕ) (env : MmapEnv) (c : Channel) (info : TpceDmaInfo)
      (stream : mmapStreamInfo env.vmallocOk (dev.dmaInfo c) = (0, info)) :
      Effect dev (.mmap file env c) (dev.setInfo c (tpceFreeStreamInfo info))
  | mapped (file : ℕ) (env : MmapEnv) (c : Channel) (info : TpceDmaInfo)
      (stream : mmapStreamInfo env.vmallocOk (dev.dmaInfo c) = (0, info)) :
      Effect dev (.mmap file env c)
        { dev.setInfo c info with vmas := Function.update dev.vmas c (dev.vmas c + 1) }
  | vmaOpened (c : Channel) (area : 0 < dev.vmas c) : Effect dev (.vmaOpen c) (vmaStreamInfoOpen dev c)
  | vmaClosed (c : Channel) (area : 0 < dev.vmas c) : Effect dev (.vmaClose c) (vmaStreamInfoClose dev c)
  | wentAway : Effect dev .goAway { dev with goingAway := true }
  | removed (out : Outcome) (dev' : TpceDev) (remove : finishRemove dev = .ok (out, dev')) :
      Effect dev .remove dev'

theorem waiting_of_mutexFree (h : mutexFree dev = true) : dev.waiting = none := by
  simp only [mutexFree] at h
  simpa using (Bool.and_eq_true_iff.mp h).1

theorem waiting_of_request (hop : IsRequest op) (hen : enabled dev op = true) : dev.waiting = none := by
  rcases hop with ⟨file, env, req, rfl⟩ | ⟨file, env, r, rfl⟩
  · exact waiting_of_mutexFree (Bool.and_eq_true_iff.mp hen).1
  · exact waiting_of_mutexFree (Bool.and_eq_true_iff.mp hen).1

theorem step_effect (h : step dev op = some dev') : Effect dev op dev' := by
  obtain ⟨hen, out, h⟩ := step_eq_some.mp h
  by_cases hrequest : IsRequest op
  · rcases request_cases hrequest h with ⟨-, rfl⟩ | ⟨haway, env, req, hv, hexec⟩
    · exact .nothing op
    · obtain ⟨fileCtx, c, m, hvalid⟩ := validatedRequest_valid hv
      exact .executed op env req fileCtx c m dev' haway (waiting_of_request hrequest hen) hv hvalid
        (dmaExecute_cases hvalid.channel hexec)
  simp only [perform] at h
  split at h
  · cases h
    exact .nothing op
  cases op with
  | openFile =>
      have hopen : tpceOpen dev = (out, dev') := Except.ok.inj h
      simp only [tpceOpen] at hopen
      split at hopen
      · cases hopen
        exact .nothing .openFile
      · cases hopen
        exact .opened
  | lockBuffer file lockEnv bufferInfo =>
      rcases lockBuffer_cases h with rfl | ⟨id, hid, rfl⟩
      · exact .nothing _
      · exact .locked file lockEnv bufferInfo id (xaFreeId_free hid)
  | unlockBuffer file id =>
      rcases unlockBuffer_cases h with rfl | ⟨obj, hunmap⟩
      · exact .nothing _
      · exact .unlocked file id obj dev' hunmap
  | execute file env req => exact absurd (.inl ⟨file, env, req, rfl⟩) hrequest
  | kernelRead file env r => exact absurd (.inr ⟨file, env, r, rfl⟩) hrequest
  | cancel file channel =>
      rcases cancel_cases h with rfl | ⟨c, hreset⟩
      · exact .nothing _
      · exact .cancelled file channel c dev' hreset
  | wake w =>
      cases hwait : dev.waiting with
      | none =>
          simp only [hwait] at h
          cases h
          exact .nothing _
      | some c =>
          simp only [hwait] at h
          obtain ⟨dev₁, hreset, h⟩ := bind_eq_ok.mp h
          cases h
          exact .woken w c _ hwait hreset
  | dmaWork c =>
      cases hcompl : tpceDmaCompletion dev c with
      | error e => simp [hcompl, Except.map] at h
      | ok dev₁ =>
          simp only [hcompl, Except.map] at h
          cases h
          rcases completion_cases hcompl with rfl | ⟨hmode, hrun, rfl⟩
          · exact .nothing _
          · exact .completed c hmode hrun
  | release file =>
      obtain ⟨dev₁, hrel, h⟩ := bind_eq_ok.mp h
      cases h
      exact .released file dev₁ hrel
  | mmap file env c =>
      rcases mmap_cases (Except.ok.inj h) with rfl | rfl | ⟨info, href, rfl | rfl⟩
      · exact .nothing _
      · exact .leaked file env c
      · exact .returned file env c info href
      · exact .mapped file env c info href
  | vmaOpen c =>
      cases h
      exact .vmaOpened c (of_decide_eq_true hen)
  | vmaClose c =>
      cases h
      exact .vmaClosed c (of_decide_eq_true (Bool.and_eq_true_iff.mp hen).2)
  | goAway =>
      cases h
      exact .wentAway
  | remove => exact .removed out dev' h

/-- The call runs a request that the driver accepts. -/
structure Accepted (dev : TpceDev) (op : Op) (env : InitEnv) (req : TpceDmaRequest) (c : Channel) :
    Prop where
  present : dev.goingAway = false
  validated : validatedRequest dev op = some (env, req)
  channel : c.val = req.params.channel.toNat
  init : ∃ ret dev', initDmaInfo env dev c req = .ok (ret, dev') ∧ 0 ≤ ret

/-- An accepted request is valid, meets the mutex free and is executed. -/
theorem Accepted.executed (hacc : Accepted dev op env req c) (h : step dev op = some dev') :
    dev.waiting = none ∧ (∃ fileCtx m, ValidRequest dev req fileCtx c m) ∧ Executed env dev c req dev' := by
  obtain ⟨hen, out, hperf⟩ := step_eq_some.mp h
  have hrequest := isRequest_of_validated hacc.validated
  obtain ⟨env', req', hv, hexec⟩ : ∃ env' req', validatedRequest dev op = some (env', req') ∧
      dmaExecute env' dev req' = .ok (out, dev') := by
    rcases request_cases hrequest hperf with ⟨haway | hnone, -⟩ | ⟨-, hrun⟩
    · exact absurd (hacc.present.symm.trans haway) Bool.false_ne_true
    · exact absurd (hnone.symm.trans hacc.validated) (Option.some_ne_none _).symm
    · exact hrun
  obtain ⟨rfl, rfl⟩ := Prod.mk.inj (Option.some.inj (hv.symm.trans hacc.validated))
  obtain ⟨fileCtx, c', m, hvalid⟩ := validatedRequest_valid hv
  obtain rfl : c' = c := Fin.ext (hvalid.channel.trans hacc.channel.symm)
  exact ⟨waiting_of_request hrequest hen, ⟨fileCtx, m, hvalid⟩, dmaExecute_cases hvalid.channel hexec⟩

end TpceDrv.Effects
