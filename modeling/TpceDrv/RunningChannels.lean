import TpceDrv.Controller
import TpceDrv.MappingInUse

namespace TpceDrv.RunningChannels

open Descriptor DmaParams DmaInfo Mapping PageTable PageTableMap Device Translation ChannelSteps SlotFrames
open Requests Driver RequestSteps Effects RequestAtomicity Controller Library.Traces
open ChannelControl hiding tpceDmaAbort resetDmaInfo dmaStart tpceDmaStart tpceDmaStreamStart dmaDispatch

variable {polls : Polls} {dev dev' dev₁ dev₂ : TpceDev} {c c' : Channel} {t u : MmioWrites}
variable {env : InitEnv} {req : TpceDmaRequest}

/-- The transfer of a channel runs before and after, in the same slots, and of its data
only the page for user space may have changed. -/
structure GoesOn (dev dev' : TpceDev) (c : Channel) : Prop where
  before : (dev.dmaInfo c).state = .running
  info : dev'.dmaInfo c = { dev.dmaInfo c with streamInfo := (dev'.dmaInfo c).streamInfo }
  slots : ∀ i v, slots dev'.pageTable i = some (v, c.id) ↔ slots dev.pageTable i = some (v, c.id)

theorem GoesOn.refl (h : (dev.dmaInfo c).state = .running) : GoesOn dev dev c := ⟨h, rfl, fun _ _ => Iff.rfl⟩

theorem GoesOn.trans (h : GoesOn dev dev₁ c) (h' : GoesOn dev₁ dev' c) : GoesOn dev dev' c where
  before := h.before
  info := by rw [h'.info, h.info]
  slots := fun i v => (h'.slots i v).trans (h.slots i v)

theorem GoesOn.after (h : GoesOn dev dev' c) : (dev'.dmaInfo c).state = .running := by
  rw [h.info]
  exact h.before

theorem GoesOn.of_same (h : (dev.dmaInfo c).state = .running) (hinfo : dev'.dmaInfo c = dev.dmaInfo c)
    (hslots : ∀ i v, PageTableMap.slots dev'.pageTable i = some (v, c.id) ↔
      PageTableMap.slots dev.pageTable i = some (v, c.id)) : GoesOn dev dev' c := ⟨h, by rw [hinfo], hslots⟩

theorem GoesOn.elsewhere (hinfo : dev'.dmaInfo = dev.dmaInfo) (htable : dev'.pageTable = dev.pageTable)
    (h : (dev'.dmaInfo c).state = .running) : GoesOn dev dev' c := by
  rw [hinfo] at h
  apply GoesOn.of_same h (by rw [hinfo])
  rw [htable]
  exact fun _ _ => Iff.rfl

/-- The number in the parameters of a channel is its own as soon as a request was
accepted, and a mapping names such channels only. -/
structure Owned (dev : TpceDev) : Prop where
  busy : ∀ c, (dev.dmaInfo c).state ≠ .idle → (dev.dmaInfo c).params.channel = c.id
  marked : ∀ obj m (c : Channel), dev.mapInfos obj = some m → m.activeChannel = c.val →
    (dev.dmaInfo c).params.channel = c.id

/-- The registers of a channel's dispatcher and prefetcher -/
def InController (channel : U8) (offset : ℕ) : Prop :=
  0x4000 + channel.toNat * 0x2000 ≤ offset ∧ offset < 0x4000 + (channel.toNat + 1) * 0x2000

/-- What is left when channels are taken down with the given writes: fewer of them run,
the others go on, and the writes are to channels that do not run. -/
structure Subsides (dev : TpceDev) (t : MmioWrites) (dev' : TpceDev) : Prop where
  channel : ∀ c, (dev'.dmaInfo c).params.channel = c.id ∨
    (dev'.dmaInfo c).params.channel = (dev.dmaInfo c).params.channel
  busy : ∀ c, (dev'.dmaInfo c).state ≠ .idle → (dev.dmaInfo c).state ≠ .idle
  active : ∀ obj m' (c : Channel), dev'.mapInfos obj = some m' → m'.activeChannel = c.val →
    (dev'.dmaInfo c).params.channel = c.id ∨ ∃ m, dev.mapInfos obj = some m ∧ m.activeChannel = c.val
  goesOn : ∀ c, (dev'.dmaInfo c).state = .running → GoesOn dev dev' c
  writes : ∀ w ∈ t, ∃ channel, InController channel w.1 ∧ ∀ c, (dev'.dmaInfo c).state = .running → c.id ≠ channel

theorem Subsides.refl (dev : TpceDev) : Subsides dev [] dev where
  channel := fun _ => .inr rfl
  busy := fun _ => id
  active := fun _ m' _ hm hact => .inr ⟨m', hm, hact⟩
  goesOn := fun _ => GoesOn.refl
  writes := fun _ hw => absurd hw List.not_mem_nil

theorem Subsides.unchanged {out out' : Outcome}
    (h : (pure (out, dev) : Bus (Outcome × TpceDev)).run = .ok ((out', dev'), t)) : Subsides dev t dev' := by
  obtain ⟨hpair, rfl⟩ := run_pure_eq_ok.mp h
  cases hpair
  exact .refl _

theorem Subsides.trans (h : Subsides dev t dev₁) (h' : Subsides dev₁ u dev') : Subsides dev (t ++ u) dev' where
  channel := fun c => (h'.channel c).elim .inl fun hsame => (h.channel c).imp hsame.trans hsame.trans
  busy := fun c hc => h.busy c (h'.busy c hc)
  active := fun obj m' c hm hact => by
    rcases h'.active obj m' c hm hact with hown | ⟨m₁, hm₁, hact₁⟩
    · exact .inl hown
    rcases h.active obj m₁ c hm₁ hact₁ with hown | hold
    · exact .inl ((h'.channel c).elim id fun hsame => hsame.trans hown)
    · exact .inr hold
  goesOn := fun c hc => (h.goesOn c (h'.goesOn c hc).before).trans (h'.goesOn c hc)
  writes := fun w hw => by
    rcases List.mem_append.mp hw with hw | hw
    · obtain ⟨channel, hin, hrun⟩ := h.writes w hw
      exact ⟨channel, hin, fun c hc => hrun c (h'.goesOn c hc).before⟩
    · exact h'.writes w hw

theorem Owned.subsides (h : Owned dev) (hs : Subsides dev t dev') : Owned dev' where
  busy := fun c hc => (hs.channel c).elim id fun hsame => hsame.trans (h.busy c (hs.busy c hc))
  marked := fun obj m' c hm hact => by
    rcases hs.active obj m' c hm hact with hown | ⟨m, hm, hact⟩
    · exact hown
    · exact (hs.channel c).elim id fun hsame => hsame.trans (h.marked obj m c hm hact)

/-- A change of the mappings alone, in which none becomes active -/
theorem Subsides.mappings (hinfo : dev'.dmaInfo = dev.dmaInfo) (htable : dev'.pageTable = dev.pageTable)
    (hmaps : ∀ obj m', dev'.mapInfos obj = some m' → dev.mapInfos obj = some m') : Subsides dev [] dev' where
  channel := fun c => .inr (by rw [hinfo])
  busy := fun c => by
    rw [hinfo]
    exact id
  active := fun obj m' c hm hact => .inr ⟨m', hmaps obj m' hm, hact⟩
  goesOn := fun _ => GoesOn.elsewhere hinfo htable
  writes := fun _ hw => absurd hw List.not_mem_nil

theorem resetDmaController_inController (cleared : Bool) (info : TpceDmaInfo) {w : ℕ × U32}
    (hw : w ∈ resetDmaController cleared info) : InController info.params.channel w.1 := by
  simp only [resetDmaController, List.mem_cons] at hw
  rcases hw with rfl | hw
  · simp only [InController, tpceDmaPrefetcherCsr, altMsgdmaPrefetcherControlReg]
    omega
  · by_cases hcleared : cleared = true
    · rw [if_pos hcleared, List.mem_singleton] at hw
      subst hw
      simp only [InController, tpceDmaCsr, alteraMsgdmaCsrControlReg]
      omega
    · rw [if_neg hcleared] at hw
      exact absurd hw List.not_mem_nil

theorem resetInfo_params (info : TpceDmaInfo) : (resetInfo info).params = info.params := by
  simp only [resetInfo]
  split
  · rfl
  · rfl

theorem releasedInfos_active {mapInfos : ℕ → Option TpceDmaMapInfo} {used : Option ℕ} {obj : ℕ} {m' : TpceDmaMapInfo}
    (hm : releasedInfos mapInfos used obj = some m') (hact : m'.activeChannel = c.val) :
    ∃ m, mapInfos obj = some m ∧ m.activeChannel = c.val := by
  cases used with
  | none => exact ⟨m', hm, hact⟩
  | some used =>
      simp only [releasedInfos] at hm
      by_cases hobj : obj = used
      · subst hobj
        rw [Function.update_self, Option.map_eq_some_iff] at hm
        obtain ⟨m, -, rfl⟩ := hm
        exact absurd hact (MappingInUse.inactive_ne c)
      · rw [Function.update_of_ne hobj] at hm
        exact ⟨m', hm, hact⟩

/-- Resetting a channel, without the registers -/
theorem Subsides.reset (h : ChannelControl.resetDmaInfo dev c = .ok dev') : Subsides dev [] dev' := by
  rcases resetDmaInfo_spec h with ⟨-, rfl⟩ | ⟨-, -, rfl⟩
  · exact .refl _
  have hself : Function.update dev.dmaInfo c (resetInfo (dev.dmaInfo c)) c = resetInfo (dev.dmaInfo c) :=
    Function.update_self ..
  have hothers : ∀ c', c' ≠ c → Function.update dev.dmaInfo c (resetInfo (dev.dmaInfo c)) c' = dev.dmaInfo c' :=
    fun c' hc => Function.update_of_ne hc ..
  refine ⟨fun c' => ?_, fun c' => ?_, fun obj m' c' hm hact => .inr (releasedInfos_active hm hact), fun c' => ?_,
    fun _ hw => absurd hw List.not_mem_nil⟩
  · by_cases hc : c' = c
    · subst hc
      dsimp only
      rw [hself, resetInfo_params]
      exact .inr rfl
    · dsimp only
      rw [hothers c' hc]
      exact .inr rfl
  · by_cases hc : c' = c
    · subst hc
      exact fun hbusy => absurd (congrArg TpceDmaInfo.state hself) hbusy
    · dsimp only
      rw [hothers c' hc]
      exact id
  · intro hrun
    by_cases hc : c' = c
    · subst hc
      exact absurd (hrun.symm.trans (congrArg TpceDmaInfo.state hself)) TpceDmaChannelState.noConfusion
    · dsimp only at hrun
      rw [hothers c' hc] at hrun
      exact .of_same hrun (hothers c' hc) fun i v =>
        sameOthers_free dev.pageTable c.id_ne_uint8Max i v c'.id fun hid => hc (id_inj hid)

theorem abort_state (dev : TpceDev) (c : Channel) :
    ((ChannelControl.tpceDmaAbort dev c).dmaInfo c).state ≠ .running := by
  rw [abort_eq, setInfo_dmaInfo]
  dsimp only [abortedState]
  split
  · exact TpceDmaChannelState.noConfusion
  · assumption

/-- An abort writes to the channel that its parameters name, which must not be another
one that runs. -/
theorem Subsides.abort (h : (tpceDmaAbort polls dev c).run = .ok (dev', t))
    (hchannel : ∀ c', c' ≠ c → (dev.dmaInfo c').state = .running → c'.id ≠ (dev.dmaInfo c).params.channel) :
    Subsides dev t dev' := by
  obtain ⟨_, t₁, t₂, hwrites, hpure, rfl⟩ := run_bind_eq_ok.mp h
  obtain rfl := run_emits_eq_ok.mp hwrites
  obtain ⟨rfl, rfl⟩ := run_pure_eq_ok.mp hpure
  have hstate := abort_state dev c
  have hothers := (abort_frame dev c).1
  have hself : (ChannelControl.tpceDmaAbort dev c).dmaInfo c =
      { dev.dmaInfo c with state := abortedState (dev.dmaInfo c).state } := by rw [abort_eq, setInfo_dmaInfo]
  have hmaps : (ChannelControl.tpceDmaAbort dev c).mapInfos = dev.mapInfos := by
    rw [abort_eq]
    rfl
  have htable : (ChannelControl.tpceDmaAbort dev c).pageTable = dev.pageTable := by
    rw [abort_eq]
    rfl
  refine ⟨fun c' => ?_, fun c' => ?_, fun obj m' c' hm hact => ?_, fun c' hrun => ?_, fun w hw => ?_⟩
  · by_cases hc : c' = c
    · rw [hc, hself]
      exact .inr rfl
    · rw [hothers c' hc]
      exact .inr rfl
  · by_cases hc : c' = c
    · rw [hc, hself]
      exact fun hbusy hidle => hbusy (abortedState_idle.mpr hidle)
    · rw [hothers c' hc]
      exact id
  · rw [hmaps] at hm
    exact .inr ⟨m', hm, hact⟩
  · have hc : c' ≠ c := fun hc => hstate (hc ▸ hrun)
    rw [hothers c' hc] at hrun
    apply GoesOn.of_same hrun (hothers c' hc)
    rw [htable]
    exact fun _ _ => Iff.rfl
  · rw [List.append_nil] at hw
    refine ⟨_, resetDmaController_inController _ _ hw, fun c' hrun => ?_⟩
    have hc : c' ≠ c := fun hc => hstate (hc ▸ hrun)
    rw [hothers c' hc] at hrun
    exact hchannel c' hc hrun

theorem Owned.other_channel (h : (dev.dmaInfo c).params.channel = c.id) (hc : c' ≠ c) :
    c'.id ≠ (dev.dmaInfo c).params.channel := by
  rw [h]
  exact fun hid => hc (id_inj hid)

theorem Subsides.resetDmaInfo (h : Owned dev) (hrun : (resetDmaInfo polls dev c).run = .ok (dev', t)) :
    Subsides dev t dev' := by
  obtain ⟨dev₁, t₁, t₂, habort, hlift, rfl⟩ := run_bind_eq_ok.mp hrun
  obtain ⟨hreset, rfl⟩ := run_lift_eq_ok.mp hlift
  refine Subsides.trans ?_ (.reset hreset)
  by_cases hstate : (dev.dmaInfo c).state = .running
  · rw [if_pos hstate] at habort
    have hown := h.busy c (by rw [hstate]; exact TpceDmaChannelState.noConfusion)
    exact .abort habort fun c' hc _ => Owned.other_channel hown hc
  · rw [if_neg hstate] at habort
    obtain ⟨rfl, rfl⟩ := run_pure_eq_ok.mp habort
    exact .refl _

theorem Subsides.abortReset (h : Owned dev) (hrun : ((busOps polls).abortReset dev c).run = .ok (dev', t))
    (hchannel : ∀ c', c' ≠ c → (dev.dmaInfo c').state = .running → c'.id ≠ (dev.dmaInfo c).params.channel) :
    Subsides dev t dev' := by
  obtain ⟨dev₁, t₁, t₂, habort, hreset, rfl⟩ := run_bind_eq_ok.mp hrun
  have hsub := Subsides.abort habort hchannel
  exact hsub.trans (.resetDmaInfo (h.subsides hsub) hreset)

theorem Subsides.unlock {obj : ℕ} (h : tpceDmaUnlockUserBuffer dev obj = .ok dev') : Subsides dev [] dev' := by
  obtain ⟨m, hm, rfl⟩ := unlockUserBuffer_spec h
  refine Subsides.mappings rfl rfl fun obj' m' hm' => ?_
  by_cases hobj : obj' = obj
  · subst hobj
    dsimp only at hm'
    rw [Function.update_self] at hm'
    cases hm'
  · exact (Function.update_of_ne hobj ..).symm.trans hm'

theorem Subsides.unmap {obj : ℕ} (h : Owned dev)
    (hrun : (TracedIoctl.tpceSafeDmaUnmap (busOps polls) dev obj).run = .ok (dev', t)) : Subsides dev t dev' := by
  obtain ⟨m, t₁, t₂, hload, hrest, rfl⟩ := run_bind_eq_ok.mp hrun
  obtain ⟨hm, rfl⟩ := run_lift_eq_ok.mp hload
  obtain ⟨dev₁, t₁, t₂, hreset, hlift, rfl⟩ := run_bind_eq_ok.mp hrest
  obtain ⟨hunlock, rfl⟩ := run_lift_eq_ok.mp hlift
  rw [List.nil_append]
  refine Subsides.trans ?_ (.unlock hunlock)
  by_cases hbusy : mappingIsBusy m = true
  · rw [if_pos hbusy] at hreset
    obtain ⟨c, u₁, u₂, hchannel, habort, rfl⟩ := run_bind_eq_ok.mp hreset
    obtain ⟨hc, rfl⟩ := run_lift_eq_ok.mp hchannel
    have hown := h.marked obj m c (mapInfo_eq_ok.mp hm) (channelOf_eq_ok.mp hc)
    exact .abortReset h habort fun c' hne _ => Owned.other_channel hown hne
  · rw [if_neg hbusy] at hreset
    obtain ⟨rfl, rfl⟩ := run_pure_eq_ok.mp hreset
    exact .refl _

theorem Subsides.listDel (dev : TpceDev) (file obj : ℕ) : Subsides dev [] (listDel dev file obj) :=
  .mappings rfl rfl fun _ _ => id

theorem Subsides.unlisted {file obj : ℕ} (h : Owned dev)
    (hrun : (TracedIoctl.tpceSafeDmaUnmap (busOps polls) (Requests.listDel dev file obj) obj).run = .ok (dev', t)) :
    Subsides dev t dev' := by
  have hdel := Subsides.listDel dev file obj
  exact hdel.trans (.unmap (h.subsides hdel) hrun)

theorem Subsides.release {file : ℕ} {objs : List ℕ} (h : Owned dev)
    (hrun : (TracedIoctl.releaseMappings (busOps polls) file dev objs).run = .ok (dev', t)) : Subsides dev t dev' := by
  induction objs generalizing dev t with
  | nil =>
      obtain ⟨rfl, rfl⟩ := run_pure_eq_ok.mp hrun
      exact .refl _
  | cons obj objs ih =>
      obtain ⟨dev₁, t₁, t₂, hunmap, hrest, rfl⟩ := run_bind_eq_ok.mp hrun
      have hsub := Subsides.unlisted h hunmap
      exact hsub.trans (ih (h.subsides hsub) hrest)

theorem Subsides.resetChannels {cs : List Channel} (h : Owned dev)
    (hrun : (resetChannels polls dev cs).run = .ok (dev', t)) : Subsides dev t dev' := by
  induction cs generalizing dev t with
  | nil =>
      obtain ⟨rfl, rfl⟩ := run_pure_eq_ok.mp hrun
      exact .refl _
  | cons c cs ih =>
      obtain ⟨dev₁, t₁, t₂, hreset, hrest, rfl⟩ := run_bind_eq_ok.mp hrun
      have hsub := Subsides.resetDmaInfo h hreset
      exact hsub.trans (ih (h.subsides hsub) hrest)

theorem Subsides.freeMappings {ids : List U32} (h : freeMappings dev ids = .ok dev') : Subsides dev [] dev' := by
  induction ids generalizing dev with
  | nil =>
      cases h
      exact .refl _
  | cons id ids ih =>
      simp only [Requests.freeMappings] at h
      cases hid : dev.dmaMappings id with
      | none =>
          rw [hid] at h
          exact ih h
      | some obj =>
          rw [hid] at h
          obtain ⟨m, -, hfree⟩ := bind_eq_ok.mp h
          obtain ⟨dev₁, hunlock, hrest⟩ := bind_eq_ok.mp hfree
          obtain ⟨sublist, hdel⟩ := Teardown.listDelOwner_frame dev m obj
          rw [hdel] at hunlock
          have hlist : Subsides dev [] { dev with dmaMapSublist := sublist } :=
            .mappings rfl rfl fun _ _ hm => hm
          exact hlist.trans ((Subsides.unlock hunlock).trans (ih hrest))

/-- Idle channels are freed without a write. -/
theorem Subsides.freeDescriptors {cs : List Channel} (hidle : ∀ c, (dev.dmaInfo c).state = .idle)
    (hrun : (freeDescriptors polls dev cs).run = .ok (dev', t)) : Subsides dev t dev' := by
  induction cs generalizing dev t with
  | nil =>
      obtain ⟨rfl, rfl⟩ := run_pure_eq_ok.mp hrun
      exact .refl _
  | cons c cs ih =>
      obtain ⟨dev₁, t₁, t₂, hfree, hrest, rfl⟩ := run_bind_eq_ok.mp hrun
      have hnot : ¬(dev.dmaInfo c).state = .running := by
        rw [hidle c]
        exact TpceDmaChannelState.noConfusion
      simp only [Controller.tpceDmaFreeDescriptorsMem, if_neg hnot] at hfree
      obtain ⟨dev₂, u₁, u₂, hsame, hset, rfl⟩ := run_bind_eq_ok.mp hfree
      obtain ⟨rfl, rfl⟩ := run_pure_eq_ok.mp hsame
      obtain ⟨rfl, rfl⟩ := run_pure_eq_ok.mp hset
      have hself := setInfo_dmaInfo dev₂ c (freeDescriptorsMem (dev₂.dmaInfo c))
      have hothers := fun c' (hc : c' ≠ c) => setInfo_dmaInfo_ne dev₂ (freeDescriptorsMem (dev₂.dmaInfo c)) hc
      have hfreed : ∀ c', ((dev₂.setInfo c (freeDescriptorsMem (dev₂.dmaInfo c))).dmaInfo c').state = .idle := by
        intro c'
        by_cases hc : c' = c
        · rw [hc, hself]
          exact hidle c
        · rw [hothers c' hc]
          exact hidle c'
      have hstep : Subsides dev₂ [] (dev₂.setInfo c (freeDescriptorsMem (dev₂.dmaInfo c))) := by
        refine ⟨fun c' => ?_, fun c' hbusy => absurd (hfreed c') hbusy, fun obj m' _ hm hact => .inr ⟨m', hm, hact⟩,
          fun c' hrun => ?_, fun _ hw => absurd hw List.not_mem_nil⟩
        · by_cases hc : c' = c
          · rw [hc, hself]
            exact .inr rfl
          · rw [hothers c' hc]
            exact .inr rfl
        · exact absurd ((hfreed c').symm.trans hrun) TpceDmaChannelState.noConfusion
      exact hstep.trans (ih hfreed hrest)

theorem Subsides.remove {out : Outcome} (h : Owned dev) (hrun : (finishRemove polls dev).run = .ok ((out, dev'), t)) :
    Subsides dev t dev' := by
  obtain ⟨dev₁, t₁, t₂, hreset, hrest, rfl⟩ := run_bind_eq_ok.mp hrun
  obtain ⟨dev₃, t₂, t₃, hfree, hpure, rfl⟩ := run_bind_eq_ok.mp hrest
  obtain ⟨⟨rfl, rfl⟩, rfl⟩ := run_pure_eq_ok.mp hpure |>.imp Prod.mk.inj id
  obtain ⟨dev₂, t₃, t₄, hlift, hbuffers, rfl⟩ := run_bind_eq_ok.mp hfree
  obtain ⟨hmaps, rfl⟩ := run_lift_eq_ok.mp hlift
  have hidle := (Teardown.resetChannels_idle ((erase_resetChannels polls dev _).symm.trans (erase_ok hreset))).1
  have hsame := (Teardown.freeMappings_frame hmaps).dmaInfo
  have hbuffers := Subsides.freeDescriptors (fun c => by rw [hsame]; exact hidle c (List.mem_finRange c)) hbuffers
  rw [List.append_nil, List.nil_append]
  exact (Subsides.resetChannels h hreset).trans ((Subsides.freeMappings hmaps).trans hbuffers)

/-- One channel changes without a write, and does not begin to run. -/
theorem Subsides.setInfo {info : TpceDmaInfo}
    (hchannel : info.params.channel = c.id ∨ info.params.channel = (dev.dmaInfo c).params.channel)
    (hbusy : info.state ≠ .idle → (dev.dmaInfo c).state ≠ .idle)
    (hrun : info.state = .running → info = { dev.dmaInfo c with streamInfo := info.streamInfo }) :
    Subsides dev [] (dev.setInfo c info) := by
  refine ⟨fun c' => ?_, fun c' => ?_, fun obj m' _ hm hact => .inr ⟨m', hm, hact⟩, fun c' h => ?_,
    fun _ hw => absurd hw List.not_mem_nil⟩
  · by_cases hc : c' = c
    · subst hc
      rw [setInfo_dmaInfo]
      exact hchannel
    · rw [setInfo_dmaInfo_ne dev info hc]
      exact .inr rfl
  · by_cases hc : c' = c
    · subst hc
      rw [setInfo_dmaInfo]
      exact hbusy
    · rw [setInfo_dmaInfo_ne dev info hc]
      exact id
  · by_cases hc : c' = c
    · subst hc
      rw [setInfo_dmaInfo] at h
      have hinfo := hrun h
      refine ⟨?_, ?_, fun _ _ => Iff.rfl⟩
      · rw [← h, hinfo]
      · rw [setInfo_dmaInfo]
        exact hinfo
    · rw [setInfo_dmaInfo_ne dev info hc] at h
      exact .of_same h (setInfo_dmaInfo_ne dev info hc) fun _ _ => Iff.rfl

theorem Subsides.stream {info : TpceDmaInfo} (h : info = { dev.dmaInfo c with streamInfo := info.streamInfo }) :
    Subsides dev [] (dev.setInfo c info) := by
  refine .setInfo (.inr ?_) ?_ fun _ => h
  · rw [h]
  · rw [h]
    exact id

theorem Subsides.locked {dev' : TpceDev} {m : TpceDmaMapInfo} {obj : ℕ} (hinfo : dev'.dmaInfo = dev.dmaInfo)
    (htable : dev'.pageTable = dev.pageTable) (hmaps : dev'.mapInfos = Function.update dev.mapInfos obj (some m))
    (hinactive : m.activeChannel = tpceMapInactive) : Subsides dev [] dev' := by
  have hsame : Subsides dev [] { dev' with mapInfos := dev.mapInfos } := .mappings hinfo htable fun _ _ h => h
  refine ⟨hsame.channel, hsame.busy, fun obj' m' c hm hact => ?_, fun _ => GoesOn.elsewhere hinfo htable,
    fun _ hw => absurd hw List.not_mem_nil⟩
  rw [hmaps] at hm
  by_cases hobj : obj' = obj
  · subst hobj
    rw [Function.update_self] at hm
    cases hm
    exact absurd (hinactive.symm.trans hact) (MappingInUse.inactive_ne c)
  · exact .inr ⟨m', (Function.update_of_ne hobj ..).symm.trans hm, hact⟩

/-- Whether a call only changes the driver's data -/
def quiet : Op → Bool
  | .openFile | .lockBuffer .. | .dmaWork _ | .mmap .. | .vmaOpen _ | .vmaClose _ | .goAway => true
  | _ => false

theorem Subsides.quiet {op : Op} (hquiet : quiet op = true) (h : Effect dev op dev') : Subsides dev [] dev' := by
  cases h with
  | nothing => exact .refl _
  | opened => exact .mappings rfl rfl fun _ _ hm => hm
  | locked file lockEnv bufferInfo id free => exact .locked rfl rfl rfl rfl
  | executed op env req fileCtx c m _ present mutex validated valid execute =>
      rcases isRequest_of_validated validated with ⟨file, env, req, rfl⟩ | ⟨file, env, r, rfl⟩
      · exact absurd hquiet Bool.false_ne_true
      · exact absurd hquiet Bool.false_ne_true
  | completed c mode running =>
      refine .setInfo (.inr rfl) (fun _ => ?_) fun h => absurd h TpceDmaChannelState.noConfusion
      rw [running]
      exact TpceDmaChannelState.noConfusion
  | leaked file env c => exact .mappings rfl rfl fun _ _ hm => hm
  | returned file env c info stream =>
      obtain ⟨-, hinfo, -⟩ := (mmapStreamInfo_spec stream).resolve_left fun h => absurd h.1 (by decide)
      apply Subsides.stream
      rw [hinfo]
      rfl
  | mapped file env c info stream =>
      obtain ⟨-, hinfo, -⟩ := (mmapStreamInfo_spec stream).resolve_left fun h => absurd h.1 (by decide)
      exact (Subsides.stream hinfo).trans (.mappings rfl rfl fun _ _ hm => hm)
  | vmaOpened c area => exact (Subsides.stream rfl).trans (.mappings rfl rfl fun _ _ hm => hm)
  | vmaClosed c area =>
      have hfree : Subsides dev [] (dev.setInfo c (tpceFreeStreamInfo (dev.dmaInfo c))) := .stream rfl
      exact hfree.trans (.mappings rfl rfl fun _ _ hm => hm)
  | wentAway => exact .mappings rfl rfl fun _ _ hm => hm
  | unlocked | cancelled | woken | released | removed => exact absurd hquiet Bool.false_ne_true

/-- What a start writes: the slots of the channel, then its controller -/
def startWrites (dev : TpceDev) (c : Channel) : MmioWrites :=
  setPageTranslationRegs dev.pageTable (dev.dmaInfo c).params.channel ++ startDmaController (dev.dmaInfo c)

theorem startWrites_setRunning (dev : TpceDev) (c : Channel) :
    startWrites (setRunning dev c) c = startWrites dev c := by
  simp only [startWrites, setRunning_info]
  rfl

/-- The outcome and the writes of a start -/
def StartsWith (c : Channel) (r : Int × TpceDev) (t : MmioWrites) : Prop :=
  (r.1 ≠ 0 ∧ t = []) ∨ (r.1 = 0 ∧ t = startWrites r.2 c)

theorem dmaStart_run {r : Int × TpceDev} (h : (Controller.dmaStart env dev c).run = .ok (r, t)) :
    ChannelControl.dmaStart env dev c = r ∧ StartsWith c r t := by
  have herase := (erase_dmaStart env dev c).symm.trans (erase_ok h)
  obtain rfl : ChannelControl.dmaStart env dev c = r := Except.ok.inj herase
  refine ⟨rfl, ?_⟩
  by_cases hret : (ChannelControl.dmaStart env dev c).1 = 0
  · simp only [Controller.dmaStart, if_neg (not_not.mpr hret)] at h
    obtain ⟨_, t₁, t₂, htable, hrest, rfl⟩ := run_bind_eq_ok.mp h
    obtain ⟨_, t₂, t₃, hcontroller, hpure, rfl⟩ := run_bind_eq_ok.mp hrest
    obtain rfl := run_emits_eq_ok.mp htable
    obtain rfl := run_emits_eq_ok.mp hcontroller
    obtain ⟨-, rfl⟩ := run_pure_eq_ok.mp hpure
    exact .inr ⟨hret, by rw [List.append_nil, startWrites]⟩
  · simp only [Controller.dmaStart, if_pos hret] at h
    obtain ⟨-, rfl⟩ := run_pure_eq_ok.mp h
    exact .inl ⟨hret, rfl⟩

theorem setRunning_run {m : Bus (Int × TpceDev)} {r : Int × TpceDev}
    (hm : ∀ r t, m.run = .ok (r, t) → StartsWith c r t)
    (h : (m >>= fun r => if r.1 ≠ 0 then pure (r.1, r.2) else pure (0, setRunning r.2 c)).run = .ok (r, t)) :
    StartsWith c r t := by
  obtain ⟨r₁, t₁, t₂, hstart, hrest, rfl⟩ := run_bind_eq_ok.mp h
  rcases hm r₁ t₁ hstart with ⟨hret, rfl⟩ | ⟨hret, rfl⟩
  · rw [if_pos hret] at hrest
    obtain ⟨rfl, rfl⟩ := run_pure_eq_ok.mp hrest
    exact .inl ⟨hret, rfl⟩
  · rw [if_neg (not_not.mpr hret)] at hrest
    obtain ⟨rfl, rfl⟩ := run_pure_eq_ok.mp hrest
    exact .inr ⟨rfl, by rw [List.append_nil, startWrites_setRunning]⟩

theorem dmaDispatch_run {r : Int × TpceDev} (h : (Controller.dmaDispatch env dev c).run = .ok (r, t)) :
    ChannelControl.dmaDispatch env dev c = r ∧ StartsWith c r t := by
  have herase := (erase_dmaDispatch env dev c).symm.trans (erase_ok h)
  refine ⟨Except.ok.inj herase, ?_⟩
  simp only [Controller.dmaDispatch] at h
  by_cases hdefault : (dev.dmaInfo c).params.transferMode = tpceDmaModeDefault
  · rw [if_pos hdefault] at h
    exact setRunning_run (fun _ _ hrun => (dmaStart_run hrun).2) h
  rw [if_neg hdefault] at h
  by_cases hstream : (dev.dmaInfo c).params.transferMode = tpceDmaModeStream
  · rw [if_pos hstream] at h
    exact setRunning_run (fun _ _ hrun => (dmaStart_run hrun).2) h
  · rw [if_neg hstream] at h
    obtain ⟨rfl, rfl⟩ := run_pure_eq_ok.mp h
    exact .inl ⟨(by decide : -Errno.einval ≠ 0), rfl⟩

/-- A request that starts its channel, from the channel as it was set up -/
structure Starts (env : InitEnv) (req : TpceDmaRequest) (dev : TpceDev) (t : MmioWrites) (dev' : TpceDev)
    (c : Channel) : Prop where
  idle : (dev.dmaInfo c).state = .idle
  channel : (dev'.dmaInfo c).params.channel = c.id
  writes : t = startWrites dev' c
  others : ∀ c', c' ≠ c → dev'.dmaInfo c' = dev.dmaInfo c'
  slots : SameOthers c.id dev.pageTable dev'.pageTable
  active : ∀ obj m' (c' : Channel), dev'.mapInfos obj = some m' → m'.activeChannel = c'.val →
    c' = c ∨ ∃ m, dev.mapInfos obj = some m ∧ m.activeChannel = c'.val
  request : c.val = req.params.channel.toNat
  setUp : ∃ obj m prep info dev₁ dev₂, Initialized env dev c req obj m prep info dev₁ ∧
    ChannelControl.dmaDispatch env dev₁ c = (0, dev₂) ∧ dev'.dmaInfo = dev₂.dmaInfo ∧
      dev'.pageTable = dev₂.pageTable

theorem Owned.starts (h : Owned dev) (hs : Starts env req dev t dev' c) : Owned dev' where
  busy := fun c' hc' => by
    by_cases hc : c' = c
    · exact hc ▸ hs.channel
    · rw [hs.others c' hc] at hc' ⊢
      exact h.busy c' hc'
  marked := fun obj m' c' hm hact => by
    by_cases hc : c' = c
    · exact hc ▸ hs.channel
    · rw [hs.others c' hc]
      obtain ⟨m, hm, hact⟩ := (hs.active obj m' c' hm hact).resolve_left hc
      exact h.marked obj m c' hm hact

theorem Initialized.active {obj : ℕ} {m : TpceDmaMapInfo} {prep info : TpceDmaInfo}
    (hacc : Initialized env dev c req obj m prep info dev₁) {obj' : ℕ} {m' : TpceDmaMapInfo}
    (hm : dev₁.mapInfos obj' = some m') (hact : m'.activeChannel = c'.val) :
    c' = c ∨ ∃ m, dev.mapInfos obj' = some m ∧ m.activeChannel = c'.val := by
  rw [hacc.result] at hm
  by_cases hobj : obj' = obj
  · subst hobj
    simp only [TpceDev.setMapInfo, Function.update_self] at hm
    cases hm
    exact .inl (Fin.ext (Int.natCast_inj.mp hact.symm))
  · exact .inr ⟨m', (Function.update_of_ne hobj ..).symm.trans hm, hact⟩

/-- A reset of a channel that does not run writes nothing. -/
theorem resetDmaInfo_run (hrun : (resetDmaInfo polls dev c).run = .ok (dev', t))
    (h : (dev.dmaInfo c).state ≠ .running) : ChannelControl.resetDmaInfo dev c = .ok dev' ∧ t = [] := by
  obtain ⟨dev₁, t₁, t₂, habort, hlift, rfl⟩ := run_bind_eq_ok.mp hrun
  obtain ⟨hreset, rfl⟩ := run_lift_eq_ok.mp hlift
  rw [if_neg h] at habort
  obtain ⟨rfl, rfl⟩ := run_pure_eq_ok.mp habort
  exact ⟨hreset, rfl⟩

/-- The reset behind a failed start leaves the others as they were. -/
theorem Subsides.failed {obj : ℕ} {m : TpceDmaMapInfo} {prep info info₂ : TpceDmaInfo} {table : AlteraPciePageTable}
    (hc : c.val = req.params.channel.toNat) (hidle : (dev.dmaInfo c).state = .idle)
    (hacc : Initialized env dev c req obj m prep info dev₁) (hs : Started dev₁ c table info₂ dev₂)
    (hreset : ChannelControl.resetDmaInfo dev₂ c = .ok dev') : Subsides dev [] dev' := by
  have hsub := Subsides.reset hreset
  obtain ⟨hafter, hothers, -⟩ := resetDmaInfo_frame hreset
  have hslots := Started.slots hc hacc hs
  have hself : dev₂.dmaInfo c = info₂ := by rw [hs.result, setInfo_dmaInfo]
  have hmaps : dev₂.mapInfos = dev₁.mapInfos := by
    rw [hs.result]
    rfl
  have hchannel : (dev₂.dmaInfo c).params.channel = c.id := by
    rw [hself, hs.same.params, initialized_params hacc, channel_id hc]
  have hother : ∀ c', c' ≠ c → dev₂.dmaInfo c' = dev.dmaInfo c' := fun c' hne => by
    have hearlier := initialized_others hacc hne
    rw [hs.result]
    exact (setInfo_dmaInfo_ne _ _ hne).trans hearlier
  have hown : (dev'.dmaInfo c).params.channel = c.id := (hsub.channel c).elim id fun hsame => hsame.trans hchannel
  refine ⟨fun c' => ?_, fun c' hbusy => ?_, fun obj' m' c' hm hact => ?_, fun c' hrun => ?_, hsub.writes⟩
  · by_cases hne : c' = c
    · exact .inl (hne ▸ hown)
    · rw [hothers c' hne, hother c' hne]
      exact .inr rfl
  · have hne : c' ≠ c := fun hne => hbusy (hne ▸ hafter)
    rw [hothers c' hne, hother c' hne] at hbusy
    exact hbusy
  · rcases hsub.active obj' m' c' hm hact with hown' | ⟨m₂, hm₂, hact₂⟩
    · exact .inl hown'
    rw [hmaps] at hm₂
    rcases Initialized.active hacc hm₂ hact₂ with rfl | hold
    · exact .inl hown
    · exact .inr hold
  · have hne : c' ≠ c := fun hne => absurd ((hne ▸ hafter).symm.trans hrun) TpceDmaChannelState.noConfusion
    have hgoes := hsub.goesOn c' hrun
    have hbefore := hgoes.before
    rw [hother c' hne] at hbefore
    have hearlier : GoesOn dev dev₂ c' :=
      .of_same hbefore (hother c' hne) fun i v => hslots i v c'.id fun hid => hne (id_inj hid)
    exact hearlier.trans hgoes

/-- A successful start, up to what the caller does next to the channels -/
theorem starts_of_dispatch {obj : ℕ} {m : TpceDmaMapInfo} {prep info : TpceDmaInfo}
    (hc : c.val = req.params.channel.toNat) (hidle : (dev.dmaInfo c).state = .idle)
    (hacc : Initialized env dev c req obj m prep info dev₁) (hdisp : ChannelControl.dmaDispatch env dev₁ c = (0, dev₂))
    (hinfo : dev'.dmaInfo = dev₂.dmaInfo) (htable : dev'.pageTable = dev₂.pageTable)
    (hmaps : dev'.mapInfos = dev₂.mapInfos) : Starts env req dev (startWrites dev₂ c) dev' c := by
  obtain ⟨table, info₂, hres, hsame, hsize, -⟩ := dmaDispatch_spec (initialized_state hacc) hdisp
  have hs : Started dev₁ c table info₂ dev₂ := ⟨hsame, hsize, ⟨env, congrArg Prod.snd hdisp⟩, hres⟩
  have hself : dev₂.dmaInfo c = info₂ := by rw [hres, setInfo_dmaInfo]
  refine ⟨hidle, ?_, ?_, fun c' hne => ?_, ?_, fun obj' m' c' hm hact => ?_, hc,
    ⟨obj, m, prep, info, dev₁, dev₂, hacc, hdisp, hinfo, htable⟩⟩
  · rw [hinfo, hself, hsame.params, initialized_params hacc, channel_id hc]
  · rw [startWrites, startWrites, hinfo, htable]
  · have hearlier := initialized_others hacc hne
    rw [hinfo, hres]
    exact (setInfo_dmaInfo_ne _ _ hne).trans hearlier
  · rw [htable]
    exact Started.slots hc hacc hs
  · rw [hmaps, hres] at hm
    exact Initialized.active hacc hm hact

/-- A request subsides, or it starts its channel. -/
theorem execute_subsides_or_starts {out : Outcome} (hc : c.val = req.params.channel.toNat)
    (hidle : (dev.dmaInfo c).state = .idle)
    (h : (Controller.dmaExecute polls env dev req).run = .ok ((out, dev'), t)) :
    Subsides dev t dev' ∨ Starts env req dev t dev' c := by
  have hlt : req.params.channel.toNat < 3 := hc ▸ c.isLt
  have hch : (⟨req.params.channel.toNat, hlt⟩ : Channel) = c := Fin.ext hc.symm
  simp only [Controller.dmaExecute] at h
  rw [dif_pos hlt] at h
  simp only [hch] at h
  obtain ⟨⟨err, dev₁⟩, t₁, t₂, hlift, hrest, rfl⟩ := run_bind_eq_ok.mp h
  obtain ⟨hinit, rfl⟩ := run_lift_eq_ok.mp hlift
  dsimp only at hrest
  rw [List.nil_append]
  rcases initDmaInfo_cases hinit with ⟨hneg, info, ⟨hsame, hstate⟩, rfl⟩ | ⟨rfl, obj, m, prep, info, hacc⟩
  · rw [if_pos hneg] at hrest
    obtain ⟨hpair, rfl⟩ := run_pure_eq_ok.mp hrest
    cases hpair
    have hstill : info.state = .idle := hstate.trans hidle
    refine .inl (.setInfo (.inr (by rw [hsame.params])) (fun hbusy => absurd hstill hbusy) fun hrun => ?_)
    exact absurd (hstill.symm.trans hrun) TpceDmaChannelState.noConfusion
  rw [if_neg (by simp)] at hrest
  obtain ⟨⟨ret, dev₂⟩, t₁, t₃, hdispatch, hend, rfl⟩ := run_bind_eq_ok.mp hrest
  obtain ⟨hdisp, hwrites⟩ := dmaDispatch_run hdispatch
  obtain ⟨table, info₂, hres, hsame, hsize, hcases⟩ := dmaDispatch_spec (initialized_state hacc) hdisp
  dsimp only at hend
  rcases hcases with ⟨hneg, hst⟩ | ⟨rfl, hst⟩
  · have hs : Started dev₁ c table info₂ dev₂ := ⟨hsame, hsize, ⟨env, congrArg Prod.snd hdisp⟩, hres⟩
    have hstopped : (dev₂.dmaInfo c).state ≠ .running := by
      rw [hres, setInfo_dmaInfo]
      rcases hst with hst | hst
      · simp [hst]
      · simp [hst]
    rw [if_pos hneg] at hend
    obtain ⟨-, rfl⟩ := hwrites.resolve_right fun hzero => absurd hzero.1 (Int.ne_of_lt hneg)
    obtain ⟨dev₃, t₄, t₅, hreset, hpure, rfl⟩ := run_bind_eq_ok.mp hend
    obtain ⟨hpair, rfl⟩ := run_pure_eq_ok.mp hpure
    cases hpair
    obtain ⟨hfailed, rfl⟩ := resetDmaInfo_run hreset hstopped
    exact .inl (.failed hc hidle hacc hs hfailed)
  · rw [if_neg (by simp)] at hend
    obtain ⟨-, rfl⟩ := hwrites.resolve_left fun hne => hne.1 rfl
    have hstarts : ∀ dev', dev'.dmaInfo = dev₂.dmaInfo → dev'.pageTable = dev₂.pageTable →
        dev'.mapInfos = dev₂.mapInfos → Starts env req dev (startWrites dev₂ c) dev' c :=
      fun _ => starts_of_dispatch hc hidle hacc hdisp
    by_cases hmode : (dev₂.dmaInfo c).params.transferMode = tpceDmaModeStream
    · rw [if_pos hmode] at hend
      obtain ⟨hpair, rfl⟩ := run_pure_eq_ok.mp hend
      cases hpair
      rw [List.append_nil]
      exact .inr (hstarts dev' rfl rfl rfl)
    · rw [if_neg hmode] at hend
      obtain ⟨hpair, rfl⟩ := run_pure_eq_ok.mp hend
      cases hpair
      rw [List.append_nil]
      exact .inr (hstarts _ rfl rfl rfl)

theorem validated_subsides_or_starts {fileCtx : Option ℕ} {out : Outcome}
    (h : (if validateDmaRequest dev req fileCtx ≠ 0 then pure (.returned (validateDmaRequest dev req fileCtx), dev)
      else Controller.dmaExecute polls env dev req : Bus (Outcome × TpceDev)).run = .ok ((out, dev'), t)) :
    Subsides dev t dev' ∨ validateDmaRequest dev req fileCtx = 0 ∧ ∃ c, Starts env req dev t dev' c := by
  by_cases hvalid : validateDmaRequest dev req fileCtx = 0
  · rw [if_neg (not_not.mpr hvalid)] at h
    obtain ⟨c, m, hreq⟩ := validateDmaRequest_valid hvalid
    exact (execute_subsides_or_starts hreq.channel hreq.idle h).imp id fun hs => ⟨hvalid, c, hs⟩
  · rw [if_pos hvalid] at h
    exact .inl (.unchanged h)

/-- A call that resets the controller of a channel in the place of another one, whose
own number no request has set yet -/
def Stray (dev : TpceDev) (op : Op) (c : Channel) : Prop :=
  match op with
  | .cancel _ channel => dev.goingAway = false ∧
      ∃ c' : Channel, c'.val = channel.toNat ∧ c' ≠ c ∧ (dev.dmaInfo c').params.channel = c.id
  | _ => False

instance (dev : TpceDev) (op : Op) (c : Channel) : Decidable (Stray dev op c) :=
  match op with
  | .cancel _ channel => inferInstanceAs (Decidable (dev.goingAway = false ∧
      ∃ c' : Channel, c'.val = channel.toNat ∧ c' ≠ c ∧ (dev.dmaInfo c').params.channel = c.id))
  | .openFile | .lockBuffer .. | .unlockBuffer .. | .execute .. | .kernelRead .. | .wake _ | .dmaWork _
  | .release _ | .mmap .. | .vmaOpen _ | .vmaClose _ | .goAway | .remove => .isFalse id

theorem Subsides.cancel {file : ℕ} {channel : U32} {out : Outcome} (h : Owned dev) (hpresent : dev.goingAway = false)
    (hstray : ∀ c, (dev.dmaInfo c).state = .running → ¬Stray dev (.cancel file channel) c)
    (hrun : (TracedIoctl.iocDmaCancel (busOps polls) dev channel).run = .ok ((out, dev'), t)) :
    Subsides dev t dev' := by
  by_cases hlt : channel.toNat < 3
  · simp only [TracedIoctl.iocDmaCancel] at hrun
    rw [dif_pos hlt] at hrun
    obtain ⟨dev₁, t₁, t₂, habort, hpure, rfl⟩ := run_bind_eq_ok.mp hrun
    obtain ⟨hpair, rfl⟩ := run_pure_eq_ok.mp hpure
    cases hpair
    rw [List.append_nil]
    apply Subsides.abortReset h habort
    exact fun c' hne hrun hid => hstray c' hrun ⟨hpresent, _, rfl, hne.symm, hid.symm⟩
  · simp only [TracedIoctl.iocDmaCancel] at hrun
    rw [dif_neg hlt] at hrun
    exact .unchanged hrun

theorem Subsides.unlockBuffer {file : ℕ} {id : U32} {out : Outcome} (h : Owned dev)
    (hrun : (TracedIoctl.iocUnlockDmaBuffer (busOps polls) dev file id).run = .ok ((out, dev'), t)) :
    Subsides dev t dev' := by
  simp only [TracedIoctl.iocUnlockDmaBuffer] at hrun
  cases hid : dev.dmaMappings id with
  | none =>
      rw [hid] at hrun
      exact .unchanged hrun
  | some obj =>
      rw [hid] at hrun
      obtain ⟨m, t₁, t₂, hlift, hrest, rfl⟩ := run_bind_eq_ok.mp hrun
      obtain ⟨-, rfl⟩ := run_lift_eq_ok.mp hlift
      by_cases howner : m.owner ≠ some file
      · rw [if_pos howner] at hrest
        exact .unchanged hrest
      · rw [if_neg howner] at hrest
        obtain ⟨dev₁, t₃, t₄, hunmap, hpure, rfl⟩ := run_bind_eq_ok.mp hrest
        obtain ⟨hpair, rfl⟩ := run_pure_eq_ok.mp hpure
        cases hpair
        rw [List.append_nil, List.nil_append]
        exact .unlisted h hunmap

/-- What a call does to the channels and writes to their registers -/
theorem call_cases {op : Op} {out : Outcome} (h : Owned dev) (hen : enabled dev op = true)
    (hstray : ∀ c, (dev.dmaInfo c).state = .running → ¬Stray dev op c)
    (hrun : (Controller.perform polls dev op).run = .ok ((out, dev'), t)) :
    Subsides dev t dev' ∨
      ∃ env req c, validatedRequest dev op = some (env, req) ∧ Starts env req dev t dev' c := by
  have hstep : step dev op = some dev' :=
    step_eq_some.mpr ⟨hen, out, (erase_perform polls dev op).symm.trans (erase_ok hrun)⟩
  simp only [Controller.perform] at hrun
  by_cases haway : (op.ioctlFile.isSome && dev.goingAway) = true
  · rw [if_pos haway] at hrun
    exact .inl (.unchanged hrun)
  rw [if_neg haway] at hrun
  cases op with
  | unlockBuffer file id => exact .inl (.unlockBuffer h hrun)
  | execute file env req =>
      rcases validated_subsides_or_starts hrun with hs | ⟨hvalid, c, hs⟩
      · exact .inl hs
      · exact .inr ⟨env, req, c, if_pos hvalid, hs⟩
  | kernelRead file env r =>
      simp only [Controller.readKernelDmaBuffer] at hrun
      by_cases hch : r.channel.toNat ≥ tpceDmaNumChannels
      · rw [if_pos hch] at hrun
        exact .inl (.unchanged hrun)
      rw [if_neg hch] at hrun
      by_cases hsize : r.bytesTotal > tpceDmaDriverBufferSize
      · rw [if_pos hsize] at hrun
        exact .inl (.unchanged hrun)
      rw [if_neg hsize] at hrun
      obtain ⟨chInfo, t₁, t₂, hlift, hrest, rfl⟩ := run_bind_eq_ok.mp hrun
      obtain ⟨hinfo, rfl⟩ := run_lift_eq_ok.mp hlift
      rcases validated_subsides_or_starts hrest with hs | ⟨hvalid, c, hs⟩
      · exact .inl hs
      · refine .inr ⟨env, r.request chInfo, c, ?_, hs⟩
        simp only [validatedRequest, hinfo]
        exact if_pos ⟨BitVec.not_lt.mp hsize, hvalid⟩
  | cancel file channel =>
      have hpresent : dev.goingAway = false := by simpa [Op.ioctlFile] using haway
      exact .inl (.cancel h hpresent hstray hrun)
  | wake w =>
      cases hw : dev.waiting with
      | none =>
          simp only [hw] at hrun
          exact .inl (.unchanged hrun)
      | some c =>
          simp only [hw] at hrun
          obtain ⟨dev₁, t₁, t₂, hreset, hpure, rfl⟩ := run_bind_eq_ok.mp hrun
          obtain ⟨hpair, rfl⟩ := run_pure_eq_ok.mp hpure
          cases hpair
          have hwoken : Subsides dev [] { dev with waiting := none } := .mappings rfl rfl fun _ _ hm => hm
          rw [List.append_nil]
          exact .inl (hwoken.trans (.resetDmaInfo (h.subsides hwoken) hreset))
  | release file =>
      obtain ⟨dev₁, t₁, t₂, hrelease, hpure, rfl⟩ := run_bind_eq_ok.mp hrun
      obtain ⟨hpair, rfl⟩ := run_pure_eq_ok.mp hpure
      cases hpair
      exact .inl ((Subsides.release h hrelease).trans (.mappings rfl rfl fun _ _ hm => hm))
  | remove => exact .inl (.remove h hrun)
  | _ =>
      obtain ⟨-, rfl⟩ := run_lift_eq_ok.mp hrun
      exact .inl (.quiet rfl (step_effect hstep))

end TpceDrv.RunningChannels
