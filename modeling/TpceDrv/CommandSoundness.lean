import TpceDrv.ErrorAtomicity
import TpceDrv.MappingLiveness

namespace TpceDrv.CommandSoundness

open Descriptor DmaInfo Mapping Device ChannelControl ChannelSteps Requests Driver RequestSteps Effects Teardown
open MappingTable RequestAtomicity MappingEffects MappingLiveness UserStructs LegacyRead IoctlCommands
open Library.Buffers Library.Errors
open Ioctl (TpceIoc dmaMapIdSize storedSize bufferSize)
open ErrorAtomicity (commandBuffer)

variable {env : InitEnv} {dev dev' dev'' : TpceDev} {c : Channel} {req : TpceDmaRequest} {obj file : ℕ} {op : Op}
variable {out : Outcome}

/-- The open files and the ways of the device to keep calls out -/
structure SameHandles (dev dev' : TpceDev) : Prop where
  files : dev'.files = dev.files
  nextFile : dev'.nextFile = dev.nextFile
  goingAway : dev'.goingAway = dev.goingAway
  mutexLeaked : dev'.mutexLeaked = dev.mutexLeaked

theorem SameHandles.refl (dev : TpceDev) : SameHandles dev dev := ⟨rfl, rfl, rfl, rfl⟩

theorem SameHandles.trans (h : SameHandles dev dev') (h' : SameHandles dev' dev'') : SameHandles dev dev'' :=
  ⟨h'.files.trans h.files, h'.nextFile.trans h.nextFile, h'.goingAway.trans h.goingAway,
    h'.mutexLeaked.trans h.mutexLeaked⟩

theorem sameHandles_reset (h : resetDmaInfo dev c = .ok dev') : SameHandles dev dev' := by
  rcases resetDmaInfo_spec h with ⟨-, rfl⟩ | ⟨-, -, rfl⟩
  · exact .refl _
  · exact ⟨rfl, rfl, rfl, rfl⟩

theorem sameHandles_abort (dev : TpceDev) (c : Channel) : SameHandles dev (tpceDmaAbort dev c) := by
  rw [abort_eq]
  exact ⟨rfl, rfl, rfl, rfl⟩

theorem sameHandles_unlock (h : tpceDmaUnlockUserBuffer dev obj = .ok dev') : SameHandles dev dev' := by
  obtain ⟨m, -, rfl⟩ := unlockUserBuffer_spec h
  exact ⟨rfl, rfl, rfl, rfl⟩

theorem sameHandles_unmap (h : tpceSafeDmaUnmap (listDel dev file obj) obj = .ok dev') : SameHandles dev dev' := by
  have hdel : SameHandles dev (listDel dev file obj) := ⟨rfl, rfl, rfl, rfl⟩
  obtain ⟨m, -, ⟨-, hunlock⟩ | ⟨c, dev₁, -, -, hreset, hunlock⟩⟩ := safeDmaUnmap_cases h
  · exact hdel.trans (sameHandles_unlock hunlock)
  · exact (hdel.trans (sameHandles_abort _ c)).trans ((sameHandles_reset hreset).trans (sameHandles_unlock hunlock))

theorem sameHandles_release {objs : List ℕ} (h : releaseMappings file dev objs = .ok dev') : SameHandles dev dev' := by
  induction objs generalizing dev with
  | nil =>
      cases h
      exact .refl _
  | cons obj objs ih =>
      obtain ⟨dev₁, hunmap, h⟩ := bind_eq_ok.mp h
      exact (sameHandles_unmap hunmap).trans (ih h)

theorem sameHandles_resetChannels {cs : List Channel} (h : resetChannels dev cs = .ok dev') : SameHandles dev dev' := by
  induction cs generalizing dev with
  | nil =>
      cases h
      exact .refl _
  | cons c cs ih =>
      obtain ⟨dev₁, hreset, h⟩ := bind_eq_ok.mp h
      exact (sameHandles_reset hreset).trans (ih h)

theorem sameHandles_freeMappings {ids : List U32} (h : freeMappings dev ids = .ok dev') : SameHandles dev dev' := by
  induction ids generalizing dev with
  | nil =>
      cases h
      exact .refl _
  | cons id ids ih =>
      simp only [freeMappings] at h
      split at h
      · exact ih h
      · rename_i obj hobj
        obtain ⟨m, -, h⟩ := bind_eq_ok.mp h
        obtain ⟨dev₁, hunlock, h⟩ := bind_eq_ok.mp h
        obtain ⟨sublist, hdel⟩ := listDelOwner_frame dev m obj
        rw [hdel] at hunlock
        have hlist : SameHandles dev { dev with dmaMapSublist := sublist } := ⟨rfl, rfl, rfl, rfl⟩
        exact (hlist.trans (sameHandles_unlock hunlock)).trans (ih h)

theorem sameHandles_remove (h : finishRemove dev = .ok (out, dev')) : SameHandles dev dev' := by
  obtain ⟨dev₁, dev₂, hreset, hidle, hfree, rfl⟩ := finishRemove_cases h
  have hinfo := (freeMappings_frame hfree).dmaInfo
  obtain ⟨infos, heq, -⟩ := freeDescriptors_frame (List.finRange 3) fun c => hinfo ▸ hidle c
  rw [heq]
  exact (sameHandles_resetChannels hreset).trans ((sameHandles_freeMappings hfree).trans ⟨rfl, rfl, rfl, rfl⟩)

theorem sameHandles_execute (h : Executed env dev c req dev') : SameHandles dev dev' := by
  cases h with
  | refused ret info refusal negative same state => exact ⟨rfl, rfl, rfl, rfl⟩
  | failed obj m prep info info₂ table dev₁ dev₂ _ accepted start started state reset =>
      have hstarted : SameHandles dev dev₂ := by
        rw [started.result, accepted.result]
        exact ⟨rfl, rfl, rfl, rfl⟩
      exact hstarted.trans (sameHandles_reset reset)
  | running obj m prep info info₂ table dev₁ dev₂ accepted start started state =>
      rw [started.result, accepted.result]
      exact ⟨rfl, rfl, rfl, rfl⟩

/-- What a command of the dispatcher consists of -/
def OfCommand : Op → Prop
  | .lockBuffer .. | .unlockBuffer .. | .execute .. | .kernelRead .. | .cancel .. | .wake _ | .dmaWork _ => True
  | _ => False

theorem step_handles (hop : OfCommand op) (hstep : step dev op = some dev') : SameHandles dev dev' := by
  cases step_effect hstep with
  | nothing => exact .refl dev
  | locked => exact ⟨rfl, rfl, rfl, rfl⟩
  | unlocked file id obj _ unmap => exact sameHandles_unmap unmap
  | executed _ env req fileCtx c m _ present mutex validated valid execute => exact sameHandles_execute execute
  | cancelled file channel c _ reset => exact (sameHandles_abort dev c).trans (sameHandles_reset reset)
  | woken w c _ waiting reset =>
      have hwoken : SameHandles dev { dev with waiting := none } := ⟨rfl, rfl, rfl, rfl⟩
      exact hwoken.trans (sameHandles_reset reset)
  | completed => exact ⟨rfl, rfl, rfl, rfl⟩
  | opened => cases hop
  | released => cases hop
  | leaked => cases hop
  | returned => cases hop
  | mapped => cases hop
  | vmaOpened => cases hop
  | vmaClosed => cases hop
  | wentAway => cases hop
  | removed => cases hop

/-- A device between two calls -/
structure Between (dev : TpceDev) : Prop where
  sound : Sound dev
  waiting : dev.waiting = none

theorem Between.stream (h : Between dev) (c : Channel) (info : TpceDmaInfo)
    (hinfo : info = { dev.dmaInfo c with streamInfo := info.streamInfo }) : Between (dev.setInfo c info) := by
  have hmaps : maps (dev.setInfo c info) = maps dev := maps_setInfo (by rw [hinfo])
  exact ⟨⟨h.sound.clean.stream c info hinfo, hmaps ▸ h.sound.consistent, hmaps ▸ h.sound.pointed⟩, h.waiting⟩

theorem Between.elsewhere (h : Between dev) (hmaps : maps dev' = maps dev) (hinfo : dev'.dmaInfo = dev.dmaInfo)
    (htable : dev'.pageTable = dev.pageTable) (hwait : dev'.waiting = dev.waiting) : Between dev' :=
  ⟨⟨h.sound.clean.elsewhere hinfo htable, hmaps ▸ h.sound.consistent, hmaps ▸ h.sound.pointed⟩, hwait.trans h.waiting⟩

/-- What a command leaves behind -/
structure Returned (dev dev' : TpceDev) : Prop where
  between : Between dev'
  handles : SameHandles dev dev'

/-- A file that is open while the device is there and its mutex can be taken -/
structure Admitted (file : ℕ) (dev : TpceDev) : Prop where
  present : dev.goingAway = false
  unlocked : dev.mutexLeaked = false
  isOpen : file ∈ dev.files

theorem Admitted.congr (h : Admitted file dev) (hs : SameHandles dev dev') : Admitted file dev' :=
  ⟨hs.goingAway.trans h.present, hs.mutexLeaked.trans h.unlocked, hs.files ▸ h.isOpen⟩

theorem Admitted.enabled (h : Admitted file dev) (hwait : dev.waiting = none) (hop : op.ioctlFile = some file) :
    enabled dev op = true := by
  have hfree : mutexFree dev = true := by simp [mutexFree, hwait, h.unlocked]
  have hfile : dev.files.contains file = true := by simpa using h.isOpen
  cases op with
  | lockBuffer | unlockBuffer | execute | kernelRead | cancel =>
      cases hop
      exact Bool.and_eq_true_iff.mpr ⟨hfree, hfile⟩
  | _ => cases hop

/-- A call of the command that returns is a step of the driver. -/
theorem Admitted.step (h : Admitted file dev) (hwait : dev.waiting = none) (hop : op.ioctlFile = some file)
    (hperform : perform dev op = .ok (out, dev')) : step dev op = some dev' :=
  step_eq_some.mpr ⟨h.enabled hwait hop, out, hperform⟩

theorem Admitted.perform_ioctl (h : Admitted file dev) (env : InitEnv) (req : TpceDmaRequest) (r : KernelRead) :
    perform dev (.execute file env req) = iocDmaExecute env dev file req ∧
      perform dev (.kernelRead file env r) = readKernelDmaBuffer env dev r := by
  simp only [perform, h.present, Bool.and_false, Bool.false_eq_true, if_false, and_self]

theorem waiting_of_execute (hc : c.val = req.params.channel.toNat) (hidle : (dev.dmaInfo c).state = .idle)
    (hwait : dev.waiting = none) (h : dmaExecute env dev req = .ok (out, dev')) :
    dev'.waiting = none ∨ (out = .waits ∧ dev'.waiting = some c) := by
  cases dmaExecute_cases hc h with
  | refused => exact .inl hwait
  | failed obj m prep info info₂ table dev₁ dev₂ _ accepted start started state reset =>
      left
      rw [(resetDmaInfo_frame reset).2.2, started.result, accepted.result]
      exact hwait
  | running obj m prep info info₂ table dev₁ dev₂ accepted start started state =>
      have hwait₂ : dev₂.waiting = none := by
        rw [started.result, accepted.result]
        exact hwait
      rcases dmaExecute_outcome hc hidle h with ⟨ret, -, -, hst⟩ | ⟨-, ⟨hmode, -⟩ | ⟨-, hout, hwaits⟩⟩
      · have hinfo : dev₂.dmaInfo c = info₂ := by rw [started.result, setInfo_dmaInfo]
        have hst : (dev₂.dmaInfo c).state = .idle := hst
        rw [hinfo, state] at hst
        cases hst
      · left
        rw [if_pos hmode]
        exact hwait₂
      · exact .inr ⟨hout, hwaits⟩

theorem waiting_of_request (hrequest : IsRequest op) (h : perform dev op = .ok (out, dev'))
    (hwait : dev.waiting = none) : ∃ c, dev'.waiting = none ∨ (out = .waits ∧ dev'.waiting = some c) := by
  rcases request_cases hrequest h with ⟨-, rfl⟩ | ⟨-, env, req, hvalidated, hexecute⟩
  · exact ⟨0, .inl hwait⟩
  · obtain ⟨fileCtx, c, m, hvalid⟩ := validatedRequest_valid hvalidated
    exact ⟨c, waiting_of_execute hvalid.channel hvalid.idle hwait hexecute⟩

theorem command_step (hstep : step dev op = some dev') (hop : OfCommand op) (hfree : FreesAlone (maps dev) op)
    (h : Sound dev) : Sound dev' ∧ SameHandles dev dev' := ⟨h.step hfree hstep, step_handles hop hstep⟩

theorem settle_returned (wait : Wait) (status : ℤ) (dev : TpceDev) :
    settle wait (.returned status, dev) = .ok (.returned status, dev) := by
  simp only [settle]
  cases dev.waiting with
  | none => rfl
  | some c => rfl

theorem settle_of_none (hnone : dev.waiting = none) (wait : Wait) : settle wait (out, dev) = .ok (out, dev) := by
  cases out with
  | returned status => exact settle_returned wait status dev
  | waits =>
      simp only [settle, hnone]
      rfl

/-- The rest of a request behind `dma_execute` returns, with the mapping of the
channel still there. -/
theorem settle_yields (h : Sound dev) (hwait : dev.waiting = none ∨ (out = .waits ∧ dev.waiting = some c))
    (wait : Wait) :
    Yields NotFreed (fun r => Returned dev r.2) (settle wait (out, dev)) := by
  rcases hwait with hnone | ⟨rfl, hsome⟩
  · rw [settle_of_none hnone]
    exact Yields.ok ⟨⟨h, hnone⟩, .refl dev⟩
  · have hsettle : settle wait (.waits, dev) = (do
        let dev ← (if wait.completion then tpceDmaCompletion dev c else pure dev)
        finishWait dev c wait.ending) := by simp only [settle, hsome]
    rw [hsettle]
    have hcompleted : Yields NotFreed (fun dev₁ => (Sound dev₁ ∧ SameHandles dev dev₁) ∧ dev₁.waiting = some c)
        (if wait.completion then tpceDmaCompletion dev c else pure dev) := by
      refine Yields.ite (fun _ => ?_) fun _ => Yields.pure ⟨⟨h, .refl dev⟩, hsome⟩
      obtain ⟨dev₁, hcompletion⟩ := completion_returns h.pointed c
      have hstep : step dev (.dmaWork c) = some dev₁ :=
        step_eq_some.mpr ⟨rfl, .returned 0, by simp only [perform, hcompletion]; rfl⟩
      have hwait₁ : dev₁.waiting = dev.waiting := by
        rcases completion_cases hcompletion with rfl | ⟨-, -, rfl⟩
        · rfl
        · rfl
      rw [hcompletion]
      exact Yields.ok ⟨command_step hstep True.intro True.intro h, hwait₁.trans hsome⟩
    refine hcompleted.bind ?_
    rintro dev₁ - ⟨⟨hsound, hhandles⟩, hwait⟩
    have hpointed : Pointed (maps { dev₁ with waiting := none }) := hsound.pointed
    obtain ⟨dev₂, hreset⟩ := reset_returns hpointed c
    have hfinish : ∀ w, finishWait dev₁ c w = .ok (.returned w.status, dev₂) := fun w =>
      bind_eq_ok.mpr ⟨dev₂, hreset, rfl⟩
    -- How the wait ends does not matter for the state behind it.
    have hstep : step dev₁ (.wake .timeout) = some dev₂ :=
      step_eq_some.mpr ⟨by simp [Driver.enabled, hwait], _, by simp only [perform, hwait]; exact hfinish .timeout⟩
    obtain ⟨hsound₂, hhandles₂⟩ := command_step hstep True.intro True.intro hsound
    rw [hfinish]
    exact Yields.ok ⟨⟨hsound₂, (resetDmaInfo_frame hreset).2.2⟩, hhandles.trans hhandles₂⟩

/-- A request of an open file runs to its end. -/
theorem request_yields (hbetween : Between dev) (hadm : Admitted file dev) (hrequest : IsRequest op)
    (hfile : op.ioctlFile = some file) (wait : Wait) {x : Except Fault (Outcome × TpceDev)} (hx : perform dev op = x)
    (hraises : Raises NotFreed x) : Yields NotFreed (fun r => Returned dev r.2) (x >>= settle wait) := by
  cases x with
  | error e => exact Yields.error (hraises e rfl)
  | ok r =>
      obtain ⟨out, dev₁⟩ := r
      have hstep := hadm.step hbetween.waiting hfile hx
      have hop : OfCommand op ∧ FreesAlone (maps dev) op := by
        rcases hrequest with ⟨file, env, req, rfl⟩ | ⟨file, env, r, rfl⟩
        · exact ⟨True.intro, True.intro⟩
        · exact ⟨True.intro, True.intro⟩
      obtain ⟨hsound, hhandles⟩ := command_step hstep hop.1 hop.2 hbetween.sound
      obtain ⟨c, hwait⟩ := waiting_of_request hrequest hx hbetween.waiting
      exact (settle_yields hsound hwait wait).mono fun r hr => ⟨hr.between, hhandles.trans hr.handles⟩

/-- The other commands return at once. -/
theorem command_yields {x : Except Fault (Outcome × TpceDev)} (hx : perform dev op = x) (hbetween : Between dev)
    (hadm : Admitted file dev) (hfile : op.ioctlFile = some file) (hop : OfCommand op)
    (hfree : FreesAlone (maps dev) op) (hraises : Raises NotFreed x)
    (hwait : ∀ out dev', x = .ok (out, dev') → dev'.waiting = dev.waiting) :
    Yields NotFreed (fun r => Returned dev r.2) x := by
  refine ⟨hraises, ?_⟩
  rintro ⟨out, dev'⟩ h
  obtain ⟨hsound, hhandles⟩ := command_step (hadm.step hbetween.waiting hfile (hx.trans h)) hop hfree hbetween.sound
  exact ⟨⟨hsound, (hwait out dev' h).trans hbetween.waiting⟩, hhandles⟩

theorem lock_yields (hbetween : Between dev) (hadm : Admitted file dev) (lockEnv : LockEnv)
    (bufferInfo : TpceDmaBufIn) :
    Yields NotFreed (fun r => Returned dev r.2) (iocLockDmaBuffer lockEnv dev file bufferInfo) := by
  have hperform : perform dev (.lockBuffer file lockEnv bufferInfo) = iocLockDmaBuffer lockEnv dev file bufferInfo := by
    simp [perform, hadm.present]
  refine command_yields hperform hbetween hadm rfl True.intro True.intro ?_ fun out dev' h => ?_
  · simp only [iocLockDmaBuffer]
    split
    · exact Raises.pure _
    · exact Raises.error fun obj h => by cases h
    · rename_i obj dev₁ hlock
      rcases lockUserBuffer_cases hlock with ⟨-, hp⟩ | ⟨id, -, hp, rfl⟩
      · exact absurd rfl (hp obj)
      · cases hp
        refine Raises.bind ?_ fun _ _ => Raises.pure _
        rw [mapInfo_eq_ok.mpr (Function.update_self ..)]
        exact Raises.ok _
  · rcases lockBuffer_cases h with rfl | ⟨id, -, rfl⟩
    · rfl
    · rfl

theorem unlock_yields (hbetween : Between dev) (hadm : Admitted file dev) (id : U32)
    (halone : Alone (fun m => m.owner = some file ∧ m.id = id) (maps dev)) :
    Yields NotFreed (fun r => Returned dev r.2) (iocUnlockDmaBuffer dev file id) := by
  have hperform : perform dev (.unlockBuffer file id) = iocUnlockDmaBuffer dev file id := by
    simp [perform, hadm.present]
  refine command_yields hperform hbetween hadm rfl True.intro halone ?_ fun out dev' h => ?_
  · simp only [iocUnlockDmaBuffer]
    split
    · exact Raises.pure _
    · rename_i obj hobj
      have hsound := hbetween.sound
      obtain ⟨-, m, hm, -⟩ := hsound.consistent.registered id obj hobj
      obtain ⟨dev₁, hunmap⟩ := unmap_returns file hsound.clean hsound.consistent hsound.pointed hm
      rw [mapInfo_eq_ok.mpr hm, hunmap]
      exact (Raises.ok m).bind fun _ _ => Raises.ite (fun _ => Raises.pure _) fun _ => Raises.pure _
  · rcases unlockBuffer_cases h with rfl | ⟨obj, hunmap⟩
    · rfl
    · exact (tornDown_unlisted hunmap).waiting

theorem cancel_yields (hbetween : Between dev) (hadm : Admitted file dev) (channel : U32) :
    Yields NotFreed (fun r => Returned dev r.2) (iocDmaCancel dev channel) := by
  have hperform : perform dev (.cancel file channel) = iocDmaCancel dev channel := by
    simp [perform, hadm.present]
  refine command_yields hperform hbetween hadm rfl True.intro True.intro ?_ fun out dev' h => ?_
  · simp only [iocDmaCancel]
    split
    · rename_i hc
      have habort : Pointed (maps (tpceDmaAbort dev ⟨channel.toNat, hc⟩)) := by
        rw [maps_abort]
        exact hbetween.sound.pointed
      obtain ⟨dev₁, hreset⟩ := reset_returns habort ⟨channel.toNat, hc⟩
      rw [hreset]
      exact Raises.ok _
    · exact Raises.pure _
  · rcases cancel_cases h with rfl | ⟨c, hreset⟩
    · rfl
    · exact (resetDmaInfo_frame hreset).2.2.trans (abort_frame dev c).2

theorem execute_yields (hbetween : Between dev) (hadm : Admitted file dev) (env : InitEnv) (wait : Wait)
    (req : TpceDmaRequest) (hval : validateDmaRequest dev req (some file) = 0) :
    Yields NotFreed (fun r => Returned dev r.2) (dmaExecuteToEnd env wait dev req) := by
  have hperform : perform dev (.execute file env req) = dmaExecute env dev req := by
    rw [(hadm.perform_ioctl env req ⟨0, 0, 0, 0, 0, 0⟩).1, iocDmaExecute]
    simp [hval]
  exact request_yields hbetween hadm (.inl ⟨file, env, req, rfl⟩) rfl wait hperform
    (dmaExecute_notFreed hbetween.sound.consistent hbetween.sound.pointed req)

theorem kernelRead_yields (hbetween : Between dev) (hadm : Admitted file dev) (env : InitEnv) (wait : Wait)
    (r : KernelRead) : Yields NotFreed (fun r => Returned dev r.2) (readKernelDmaBuffer env dev r >>= settle wait) := by
  have hperform : perform dev (.kernelRead file env r) = readKernelDmaBuffer env dev r := by
    simp [perform, hadm.present]
  refine request_yields hbetween hadm (.inr ⟨file, env, r, rfl⟩) rfl wait hperform ?_
  refine Raises.ite (fun _ => Raises.pure _) fun _ => Raises.ite (fun _ => Raises.pure _) fun _ => ?_
  refine ((IndexFaults.channelInfo_raises _).mono fun _ => notFreed_of_index).bind fun chInfo _ => ?_
  refine Raises.ite (fun _ => Raises.pure _) fun _ => ?_
  exact dmaExecute_notFreed hbetween.sound.consistent hbetween.sound.pointed _

theorem Returned.refl (h : Between dev) : Returned dev dev := ⟨h, .refl dev⟩

theorem Returned.trans (h : Returned dev dev') (h' : Returned dev' dev'') : Returned dev dev'' :=
  ⟨h'.between, h.handles.trans h'.handles⟩

theorem sessionOps_yield (hadm : Admitted file dev) (k : Kernel) :
    OpsYield (sessionOps k) NotFreed fun s => Returned dev s.dev where
  read := fun r s hs => by
    have hread := kernelRead_yields hs.between (hadm.congr hs.handles) (k.init (s.ask (.readKernelDmaBuffer r)).calls)
      (k.wait (s.ask (.readKernelDmaBuffer r)).calls) r
    have hassoc : (sessionOps k).readKernelDmaBuffer r s =
        (readKernelDmaBuffer (k.init (s.ask (.readKernelDmaBuffer r)).calls) s.dev r >>=
          settle (k.wait (s.ask (.readKernelDmaBuffer r)).calls)) >>= fun out =>
            pure (returnCode out.1, { s.ask (.readKernelDmaBuffer r) with dev := out.2 }) := (bind_assoc ..).symm
    rw [hassoc]
    exact hread.bind fun out _ hout => Yields.pure (hs.trans hout)
  copy := fun _ _ _ _ hs => hs
  division := fun obj h => by cases h

/-- The access is not one to a mapping that is gone. -/
def NothingFreed (e : IoctlFault) : Prop := ∀ obj, e ≠ .driver (.useAfterFree obj)

theorem orFault_yields {α : Type} {R : α → Prop} {x : Except Fault α} (h : Yields NotFreed R x) :
    Yields NothingFreed R (orFault x) := by
  cases x with
  | error e =>
      refine Yields.error fun obj heq => ?_
      cases heq
      exact h.raises _ rfl obj rfl
  | ok a => exact Yields.ok (h.returns a rfl)

theorem lockCommand_yields {s : Session} (hbetween : Between s.dev) (hadm : Admitted file s.dev) (k : Kernel)
    (bufferInfo : TpceDmaBufIn) :
    Yields NotFreed (fun reply => Returned s.dev reply.session.dev) (lockCommand k file bufferInfo s) :=
  (lock_yields hbetween hadm _ bufferInfo).bind fun _ _ hout => Yields.pure hout

theorem barRead_yields {s : Session} (k : Kernel) (regInfo : TPciDevReg) :
    Yields NothingFreed (fun out => out.2.dev = s.dev) (iocBarRead k regInfo s) := by
  simp only [iocBarRead]
  split
  · refine Yields.ite (fun _ => Yields.pure rfl) fun _ => ?_
    split
    · exact Yields.pure rfl
    · exact Yields.pure rfl
  · exact Yields.error fun obj h => by cases h

theorem barWrite_yields {s : Session} (k : Kernel) (regInfo : TPciDevReg) :
    Yields NothingFreed (fun reply => reply.session.dev = s.dev) (iocBarWrite k regInfo s) := by
  simp only [iocBarWrite]
  split
  · refine Yields.ite (fun _ => Yields.pure rfl) fun _ => ?_
    split
    · exact Yields.pure rfl
    · exact Yields.pure rfl
  · exact Yields.error fun obj h => by cases h

/-- Every command returns a sound device, if one that frees a mapping finds it in
use by its own channel only. -/
theorem dispatch_yields {s : Session} {ioc : TpceIoc} {size : U32} {b : Bytes} (hbetween : Between s.dev)
    (hadm : Admitted file s.dev) (k : Kernel) (hfree : ioc = .dmaFreeSgl → dmaMapIdSize ≤ size.toNat →
      Alone (fun m => m.owner = some file ∧ m.id = u32At b 0) (maps s.dev)) :
    Yields NothingFreed (fun reply => Returned s.dev reply.session.dev) (tpceDispatchIoc k file ioc size b s) := by
  have hsame : Returned s.dev s.dev := .refl hbetween
  have hof : ∀ dev, dev = s.dev → Returned s.dev dev := fun dev heq => heq ▸ hsame
  cases ioc with
  | pciBarRead =>
      refine Yields.ite (fun _ => Yields.pure hsame) fun _ => ?_
      exact (barRead_yields k _).bind fun out _ hout => Yields.pure (hof _ hout)
  | pciBarWrite =>
      refine Yields.ite (fun _ => Yields.pure hsame) fun _ => ?_
      exact (barWrite_yields k _).mono fun reply hreply => hof _ hreply
  | dmaGetAndLockSgl =>
      refine Yields.ite (fun _ => Yields.pure hsame) fun _ => orFault_yields ?_
      exact lockCommand_yields hbetween hadm k _
  | dmaFreeSgl =>
      refine Yields.ite (fun _ => Yields.pure hsame) fun hsize => orFault_yields ?_
      have halone := hfree rfl (Nat.le_of_not_lt fun hlt => hsize (.inl hlt))
      exact (unlock_yields hbetween hadm _ halone).bind fun _ _ hout => Yields.pure hout
  | dmaRead =>
      refine Yields.ite (fun _ => Yields.pure hsame) fun _ => orFault_yields ?_
      exact ((sessionOps_yield hadm k).iocDmaReadRequest _ hsame).bind fun _ _ hout => Yields.pure hout
  | dmaRead2 =>
      refine Yields.ite (fun _ => Yields.pure hsame) fun _ => orFault_yields ?_
      exact ((sessionOps_yield hadm k).iocDmaReadRequestA _ hsame).bind fun _ _ hout => Yields.pure hout
  | dmaExecute =>
      refine Yields.ite (fun _ => Yields.pure hsame) fun _ => orFault_yields ?_
      refine Yields.ite (fun _ => Yields.pure hsame) fun hval => ?_
      exact (execute_yields hbetween hadm _ _ _ (not_not.mp hval)).bind fun _ _ hout => Yields.pure hout
  | dmaCancel =>
      refine Yields.ite (fun _ => Yields.pure hsame) fun _ => orFault_yields ?_
      exact (cancel_yields hbetween hadm _).bind fun _ _ hout => Yields.pure hout
  | rwConfigspace =>
      refine Yields.ite (fun _ => Yields.pure hsame) fun _ => Yields.pure (hof _ (iocConfigReadwrite_dev k _ s))
  | dmaWrite => exact Yields.ite (fun _ => Yields.pure hsame) fun _ => Yields.pure hsame
  | pciBarBlockRead => exact Yields.pure hsame
  | pciBarBlockWrite => exact Yields.pure hsame
  | event => exact Yields.pure hsame
  | dmaFlush => exact Yields.pure hsame
  | getIntstat => exact Yields.pure hsame
  | dmaStatus => exact Yields.pure hsame
  | unknown cmd => exact Yields.pure hsame

/-- The command is reached with its input. -/
structure Dispatched (env : CopyEnv) (call : UserCall) (s : IoDev) : Prop where
  argument : env.argOk = true
  locked : env.killed = false
  present : s.dev.goingAway = false
  allocated : localBuffer call.iodata = true → env.kvzallocOk = true
  fits : call.iodata.inSize.toNat ≤ bufferSize (storedSize call.iodata)
  copied : min env.inMissed call.iodata.inSize.toNat = 0

/-- A request to free a mapping that is reached with an id finds the mapping in
use by its own channel only. -/
def FreesOwn (env : CopyEnv) (call : UserCall) (s : IoDev) : Prop :=
  call.cmd = .dmaFreeSgl → Dispatched env call s → dmaMapIdSize ≤ (storedSize call.iodata).toNat →
    Alone (fun m => m.owner = some call.file ∧ m.id = u32At (commandBuffer env call s) 0) (maps s.dev)

theorem ioctlDispatched_yields {env : CopyEnv} {call : UserCall} {s : IoDev} (hbetween : Between s.dev)
    (hopen : call.file ∈ s.dev.files) (hmutex : s.dev.mutexLeaked = false ∨ env.killed = true)
    (hargument : env.argOk = true) (k : Kernel) (hfree : FreesOwn env call s) :
    Yields NothingFreed (fun result => Returned s.dev result.after.dev) (ioctlDispatched k env call s) := by
  have hsame : Returned s.dev s.dev := .refl hbetween
  refine Yields.ite (fun _ => Yields.pure hsame) fun hlocked => ?_
  refine Yields.ite (fun _ => Yields.pure hsame) fun hpresent => ?_
  refine Yields.ite (fun _ => Yields.pure hsame) fun hallocated => ?_
  refine Yields.ite (fun _ => Yields.error fun obj h => by cases h) fun hfits => ?_
  refine Yields.ite (fun _ => Yields.pure hsame) fun hcopied => ?_
  have hpresent : s.dev.goingAway = false := Bool.eq_false_iff.mpr hpresent
  have hadm : Admitted call.file s.dev := ⟨hpresent, hmutex.resolve_right hlocked, hopen⟩
  have hdispatched : Dispatched env call s := by
    refine ⟨hargument, Bool.eq_false_iff.mpr hlocked, hpresent, fun hlocal => ?_, Nat.le_of_not_lt hfits,
      not_not.mp hcopied⟩
    simpa [hlocal] using hallocated
  refine (dispatch_yields hbetween hadm k fun hcmd hsize => hfree hcmd hdispatched hsize).bind fun reply _ hreply => ?_
  refine Yields.pure ?_
  have hafter : (finishIoctl env call.iodata (commandBuffer env call s) s reply).after.dev = reply.session.dev := by
    simp only [finishIoctl]
    split
    · rfl
    · rfl
  exact hafter ▸ hreply

theorem dmaStatus_yields (env : CopyEnv) (call : UserCall) (s : IoDev) :
    Yields NothingFreed (fun result => result.after.dev = s.dev) (ioctlDmaStatus env call s) := by
  refine Yields.ite (fun _ => Yields.error fun obj h => by cases h) fun _ => ?_
  refine Yields.ite (fun _ => Yields.pure rfl) fun _ => ?_
  split
  · exact Yields.pure rfl
  · exact Yields.pure rfl

theorem ioctl_yields {env : CopyEnv} {call : UserCall} {s : IoDev} (hbetween : Between s.dev)
    (hopen : call.file ∈ s.dev.files) (hmutex : takesMutex env call = true → s.dev.mutexLeaked = false) (k : Kernel)
    (hfree : FreesOwn env call s) :
    Yields NothingFreed (fun result => Returned s.dev result.after.dev) (tpceIoctl k env call s) := by
  have hsame : Returned s.dev s.dev := .refl hbetween
  refine Yields.ite (fun _ => Yields.pure hsame) fun hargument => ?_
  have hargument : env.argOk = true := by simpa using hargument
  have hdispatched : call.cmd ≠ .event → call.cmd ≠ .dmaStatus →
      Yields NothingFreed (fun result => Returned s.dev result.after.dev) (ioctlDispatched k env call s) := by
    intro hevent hstatus
    refine ioctlDispatched_yields hbetween hopen ?_ hargument k hfree
    cases hkilled : env.killed with
    | true => exact .inr rfl
    | false => exact .inl (hmutex (by simp [takesMutex, hargument, hkilled, hevent, hstatus]))
  split
  · exact Yields.pure hsame
  · exact (dmaStatus_yields env call s).mono fun result hresult => hresult ▸ hsame
  · rename_i hevent hstatus
    exact hdispatched hevent hstatus

end TpceDrv.CommandSoundness
