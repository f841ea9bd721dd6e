import TpceDrv.RequestSteps

namespace TpceDrv.Teardown

open Descriptor DmaInfo Mapping Device ChannelControl ChannelSteps Requests RequestSteps Library

variable {dev dev' : TpceDev} {c : Channel}

/-- What a change that is not about the channels leaves alone -/
structure SameChannels (dev dev' : TpceDev) : Prop where
  dmaInfo : dev'.dmaInfo = dev.dmaInfo
  vmas : dev'.vmas = dev.vmas
  fastIrqMask : dev'.fastIrqMask = dev.fastIrqMask
  pageTable : dev'.pageTable = dev.pageTable
  waiting : dev'.waiting = dev.waiting

theorem SameChannels.refl (dev : TpceDev) : SameChannels dev dev := ⟨rfl, rfl, rfl, rfl, rfl⟩

/-- A step in which the driver takes transfers and mappings down -/
inductive TearsDown (dev : TpceDev) : TpceDev → Prop
  | reset (c : Channel) (dev' : TpceDev) (h : resetDmaInfo dev c = .ok dev') : TearsDown dev dev'
  | cancel (c : Channel) (dev' : TpceDev) (h : resetDmaInfo (tpceDmaAbort dev c) c = .ok dev') :
      TearsDown dev dev'
  | elsewhere (dev' : TpceDev) (h : SameChannels dev dev') : TearsDown dev dev'
  | buffers (c : Channel) (idle : (dev.dmaInfo c).state = .idle) :
      TearsDown dev (dev.setInfo c (freeDescriptorsMem (dev.dmaInfo c)))

abbrev TornDown : TpceDev → TpceDev → Prop := Relation.ReflTransGen TearsDown

/-- What every such step keeps is kept when the driver takes down a list of
them. -/
theorem TornDown.keeps {I : TpceDev → Prop} (h : TornDown dev dev') (hdev : I dev)
    (hstep : ∀ dev dev', TearsDown dev dev' → I dev → I dev') : I dev' := by
  induction h with
  | refl => exact hdev
  | tail _ hlast ih => exact hstep _ _ hlast ih

theorem sameChannels_listDel (dev : TpceDev) (file obj : ℕ) : SameChannels dev (listDel dev file obj) :=
  ⟨rfl, rfl, rfl, rfl, rfl⟩

theorem sameChannels_unlock {obj : ℕ} (h : tpceDmaUnlockUserBuffer dev obj = .ok dev') :
    SameChannels dev dev' := by
  obtain ⟨m, -, rfl⟩ := unlockUserBuffer_spec h
  exact ⟨rfl, rfl, rfl, rfl, rfl⟩

theorem tornDown_unmap {obj : ℕ} (h : tpceSafeDmaUnmap dev obj = .ok dev') : TornDown dev dev' := by
  obtain ⟨m, -, ⟨-, hunlock⟩ | ⟨c, dev₁, -, -, hreset, hunlock⟩⟩ := safeDmaUnmap_cases h
  · exact .single (.elsewhere _ (sameChannels_unlock hunlock))
  · exact .tail (.single (.cancel c dev₁ hreset)) (.elsewhere _ (sameChannels_unlock hunlock))

theorem tornDown_unlisted {file obj : ℕ} (h : tpceSafeDmaUnmap (listDel dev file obj) obj = .ok dev') :
    TornDown dev dev' :=
  .head (.elsewhere _ (sameChannels_listDel dev file obj)) (tornDown_unmap h)

theorem tornDown_release {file : ℕ} {objs : List ℕ} (h : releaseMappings file dev objs = .ok dev') :
    TornDown dev dev' := by
  induction objs generalizing dev with
  | nil =>
      cases h
      exact .refl
  | cons obj objs ih =>
      obtain ⟨dev₁, hunmap, h⟩ := bind_eq_ok.mp h
      exact (tornDown_unlisted hunmap).trans (ih h)

theorem tornDown_resetChannels {cs : List Channel} (h : resetChannels dev cs = .ok dev') :
    TornDown dev dev' := by
  induction cs generalizing dev with
  | nil =>
      cases h
      exact .refl
  | cons c cs ih =>
      obtain ⟨dev₁, hreset, h⟩ := bind_eq_ok.mp h
      exact .head (.reset c dev₁ hreset) (ih h)

theorem listDelOwner_frame (dev : TpceDev) (mapInfo : TpceDmaMapInfo) (obj : ℕ) :
    ∃ sublist, listDelOwner dev mapInfo obj = { dev with dmaMapSublist := sublist } := by
  simp only [listDelOwner]
  split
  · exact ⟨_, rfl⟩
  · exact ⟨dev.dmaMapSublist, rfl⟩

theorem freeMappings_frame {ids : List U32} (h : freeMappings dev ids = .ok dev') : SameChannels dev dev' := by
  induction ids generalizing dev with
  | nil =>
      cases h
      exact .refl _
  | cons id ids ih =>
      simp only [freeMappings] at h
      split at h
      · exact ih h
      · rename_i obj hobj
        obtain ⟨m, -, hfree⟩ := bind_eq_ok.mp h
        obtain ⟨dev₁, hunlock, hrest⟩ := bind_eq_ok.mp hfree
        obtain ⟨sublist, hdel⟩ := listDelOwner_frame dev m obj
        rw [hdel] at hunlock
        obtain ⟨m', -, rfl⟩ := unlockUserBuffer_spec hunlock
        have hframe := ih hrest
        exact ⟨hframe.dmaInfo, hframe.vmas, hframe.fastIrqMask, hframe.pageTable, hframe.waiting⟩

theorem resetChannels_idle {cs : List Channel} (h : resetChannels dev cs = .ok dev') :
    (∀ c ∈ cs, (dev'.dmaInfo c).state = .idle) ∧
      ∀ c, (dev.dmaInfo c).state = .idle → (dev'.dmaInfo c).state = .idle := by
  induction cs generalizing dev with
  | nil =>
      cases h
      exact ⟨fun _ hc => absurd hc List.not_mem_nil, fun _ => id⟩
  | cons c cs ih =>
      obtain ⟨dev₁, hreset, h⟩ := bind_eq_ok.mp h
      obtain ⟨hidle, hsame, -⟩ := resetDmaInfo_frame hreset
      obtain ⟨hin, hkeep⟩ := ih h
      have hstep : ∀ c', (dev.dmaInfo c').state = .idle → (dev₁.dmaInfo c').state = .idle := by
        intro c' h0
        by_cases hc : c' = c
        · exact hc ▸ hidle
        · rw [hsame c' hc]
          exact h0
      refine ⟨fun c' hc' => ?_, fun c' h0 => hkeep c' (hstep c' h0)⟩
      rcases List.mem_cons.mp hc' with rfl | hc'
      · exact hkeep c' hidle
      · exact hin c' hc'

theorem freeDescriptors_frame (cs : List Channel) (hidle : ∀ c, (dev.dmaInfo c).state = .idle) :
    ∃ infos, cs.foldl tpceDmaFreeDescriptorsMem dev = { dev with dmaInfo := infos } ∧
      ∀ c, SameTransfer (dev.dmaInfo c) (infos c) ∧ (infos c).state = .idle := by
  induction cs generalizing dev with
  | nil => exact ⟨dev.dmaInfo, rfl, fun c => ⟨.refl _, hidle c⟩⟩
  | cons c cs ih =>
      have hstep : tpceDmaFreeDescriptorsMem dev c =
          dev.setInfo c (freeDescriptorsMem (dev.dmaInfo c)) := by
        simp only [tpceDmaFreeDescriptorsMem]
        rw [if_neg (by rw [hidle c]; decide)]
      have hinfo : ∀ c', SameTransfer (dev.dmaInfo c') ((tpceDmaFreeDescriptorsMem dev c).dmaInfo c') ∧
          ((tpceDmaFreeDescriptorsMem dev c).dmaInfo c').state = .idle := by
        intro c'
        rw [hstep]
        by_cases hc : c' = c
        · subst hc
          rw [setInfo_dmaInfo]
          exact ⟨⟨rfl, rfl, rfl⟩, hidle c'⟩
        · rw [setInfo_dmaInfo_ne _ _ hc]
          exact ⟨.refl _, hidle c'⟩
      obtain ⟨infos, heq, hsame⟩ := ih fun c' => (hinfo c').2
      refine ⟨infos, ?_, fun c' => ⟨(hinfo c').1.trans (hsame c').1, (hsame c').2⟩⟩
      rw [List.foldl_cons, heq, hstep]
      rfl

theorem finishRemove_cases {out : Outcome} (h : finishRemove dev = .ok (out, dev')) :
    ∃ dev₁ dev₂, resetChannels dev (List.finRange 3) = .ok dev₁ ∧
      (∀ c, (dev₁.dmaInfo c).state = .idle) ∧
      freeMappings dev₁ ((List.range (tpceDmaMapIdMax + 1)).map (BitVec.ofNat 32)) = .ok dev₂ ∧
      dev' = (List.finRange 3).foldl tpceDmaFreeDescriptorsMem dev₂ := by
  obtain ⟨dev₁, hreset, h⟩ := bind_eq_ok.mp h
  obtain ⟨dev₃, hfree, h⟩ := bind_eq_ok.mp h
  cases h
  obtain ⟨dev₂, hmaps, h⟩ := bind_eq_ok.mp hfree
  cases h
  exact ⟨dev₁, dev₂, hreset,
    fun c => (resetChannels_idle hreset).1 c (List.mem_finRange c), hmaps, rfl⟩

theorem tornDown_freeDescriptors (cs : List Channel) (hidle : ∀ c, (dev.dmaInfo c).state = .idle) :
    TornDown dev (cs.foldl tpceDmaFreeDescriptorsMem dev) := by
  induction cs generalizing dev with
  | nil => exact .refl
  | cons c cs ih =>
      have hstep : tpceDmaFreeDescriptorsMem dev c =
          dev.setInfo c (freeDescriptorsMem (dev.dmaInfo c)) := by
        simp only [tpceDmaFreeDescriptorsMem]
        rw [if_neg (by rw [hidle c]; decide)]
      rw [List.foldl_cons, hstep]
      refine .head (.buffers c (hidle c)) (ih fun c' => ?_)
      by_cases hc : c' = c
      · subst hc
        exact (congrArg TpceDmaInfo.state (setInfo_dmaInfo dev c' _)).trans (hidle c')
      · rw [setInfo_dmaInfo_ne dev _ hc]
        exact hidle c'

theorem tornDown_remove {out : Outcome} (h : finishRemove dev = .ok (out, dev')) : TornDown dev dev' := by
  obtain ⟨dev₁, dev₂, hreset, hidle, hfree, rfl⟩ := finishRemove_cases h
  have hsame := freeMappings_frame hfree
  refine ((tornDown_resetChannels hreset).tail (.elsewhere dev₂ hsame)).trans ?_
  apply tornDown_freeDescriptors
  rw [hsame.dmaInfo]
  exact hidle

theorem TearsDown.waiting (h : TearsDown dev dev') : dev'.waiting = dev.waiting := by
  cases h with
  | reset c _ hreset => exact (resetDmaInfo_frame hreset).2.2
  | cancel c _ hreset => exact (resetDmaInfo_frame hreset).2.2.trans (abort_frame dev c).2
  | elsewhere _ hsame => exact hsame.waiting
  | buffers c idle => rfl

theorem TornDown.waiting (h : TornDown dev dev') : dev'.waiting = dev.waiting :=
  h.keeps (I := fun d => d.waiting = dev.waiting) rfl fun _ _ hstep hd => hstep.waiting.trans hd

end TpceDrv.Teardown
