import TpceDrv.OwnershipSteps
import TpceDrv.MappingIsolation

namespace TpceDrv.OwnershipCalls

open Descriptor DmaInfo Mapping Device ChannelSteps Requests Driver RequestSteps Resources
open MappingTable MappingEffects RequestAtomicity DescriptorBuffers OwnershipSteps
open LockUserBuffer Library.Holdings Library.Traces
open ChannelControl (InitEnv tpceDmaCompletion)

variable {env : InitEnv} {dev dev' : TpceDev} {c : Channel} {req : TpceDmaRequest} {op : Op}
variable {held : Finset Item} {beside : Item → Prop} {obj file : ℕ}

theorem execute_sameMaps (hclean : Clean dev) (hc : c.val = req.params.channel.toNat)
    (hidle : (dev.dmaInfo c).state = .idle) (hexec : Executed env dev c req dev') : SameMaps dev dev' := by
  have heffect := execute_effect .openFile hclean hc hidle hexec
  obtain ⟨s, hs⟩ : ∃ s, maps dev' = s := ⟨_, rfl⟩
  rw [hs] at heffect
  have hsame : SameRecords (maps dev) s := by
    cases heffect with
    | same => exact .refl _
    | accepted _ c' obj m live free => exact sameRecords_accept live
    | failed _ c' obj m live free => exact (sameRecords_accept live).trans sameRecords_reset
    | reset _ c' => exact sameRecords_reset
  exact .ofRecords (hs ▸ hsame)

theorem started_others {obj : ℕ} {m : TpceDmaMapInfo} {prep info info₂ : TpceDmaInfo} {dev₁ dev₂ : TpceDev}
    {table : PageTable.AlteraPciePageTable} {c' : Channel} (hacc : Initialized env dev c req obj m prep info dev₁)
    (hs : Started dev₁ c table info₂ dev₂) (hne : c' ≠ c) : dev₂.dmaInfo c' = dev.dmaInfo c' := by
  have hothers : dev₁.dmaInfo c' = dev.dmaInfo c' := initialized_others hacc hne
  rw [hs.result]
  exact (setInfo_dmaInfo_ne _ _ hne).trans hothers

theorem executed_others {c' : Channel} (hexec : Executed env dev c req dev') (hne : c' ≠ c) :
    dev'.dmaInfo c' = dev.dmaInfo c' := by
  cases hexec with
  | refused ret info refusal negative same state => exact setInfo_dmaInfo_ne dev info hne
  | failed obj m prep info info₂ table dev₁ dev₂ _ accepted start started state reset =>
      exact ((resetDmaInfo_frame reset).2.1 c' hne).trans (started_others accepted started hne)
  | running obj m prep info info₂ table dev₁ dev₂ accepted start started state =>
      have hothers : dev₂.dmaInfo c' = dev.dmaInfo c' := started_others accepted started hne
      exact hothers

/-- What the calls rely on between two of them -/
structure Sound (dev : TpceDev) : Prop extends Registry.Kept dev where
  buffered : AllBuffered (fun _ _ => True) dev
  kinds : Kinds dev

theorem dmaExecute_holds {fileCtx : Option ℕ} {m : TpceDmaMapInfo} (hsound : Sound dev) (h : Holds beside dev held)
    (hvalid : ValidRequest dev req fileCtx c m) :
    Ends some held (Ownership.dmaExecute env dev req) fun r held' => Holds beside r.2 held' := by
  have hreq := ValidRequest.suppliedSize hvalid
  apply (dmaExecute_ends (hsound.buffered c) hreq hvalid.channel (h.channel c)).erased.mono
  rintro ⟨out, dev'⟩ held' ⟨hheld, herase⟩
  rw [Ownership.erase_dmaExecute] at herase
  have hdriver := (PageTableFaults.dmaExecute_curtails env dev req).returns herase
  have hexec := dmaExecute_cases hvalid.channel hdriver
  have hsame := execute_sameMaps hsound.clean hvalid.channel hvalid.idle hexec
  exact h.onChannel hheld (fun c' hne => executed_others hexec hne) hsame

theorem execute_holds (hsound : Sound dev) (h : Holds beside dev held) :
    Ends some held (Ownership.iocDmaExecute env dev file req) fun r held' => Holds beside r.2 held' := by
  apply Ends.ite
  · exact fun _ => Ends.pure h
  · intro hval
    obtain ⟨c, m, hvalid⟩ := validateDmaRequest_valid (not_not.mp hval)
    exact dmaExecute_holds hsound h hvalid

theorem kernelRead_holds {r : KernelRead} (hsound : Sound dev) (h : Holds beside dev held) :
    Ends some held (Ownership.readKernelDmaBuffer env dev r) fun r held' => Holds beside r.2 held' := by
  apply Ends.ite
  · exact fun _ => Ends.pure h
  intro _
  apply Ends.ite
  · exact fun _ => Ends.pure h
  intro _
  apply Ends.lift_bind
  intro chInfo _
  apply Ends.ite
  · exact fun _ => Ends.pure h
  · intro hval
    obtain ⟨c, m, hvalid⟩ := validateDmaRequest_valid (not_not.mp hval)
    exact dmaExecute_holds hsound h hvalid

theorem unlockBuffer_holds {id : U32} (h : Holds beside dev held) :
    Ends some held (Ownership.iocUnlockDmaBuffer dev file id) fun r held' => Holds beside r.2 held' := by
  simp only [Ownership.iocUnlockDmaBuffer]
  cases dev.dmaMappings id with
  | none => exact Ends.pure h
  | some obj =>
      apply Ends.lift_bind
      intro m hm
      apply Ends.ite
      · exact fun _ => Ends.pure h
      intro howner
      have howned : ∀ m', (listDel dev file obj).mapInfos obj = some m' → m'.owner ≠ none := by
        intro m' hm'
        obtain rfl := Option.some.inj (hm'.symm.trans (mapInfo_eq_ok.mp hm))
        rw [not_not.mp howner]
        exact Option.some_ne_none file
      apply (safeDmaUnmap_holds (listDel_holds h file obj) howned).bind
      exact fun dev₁ held₁ h₁ => Ends.pure h₁.1

theorem cancel_holds {channel : U32} (h : Holds beside dev held) :
    Ends some held (Ownership.iocDmaCancel dev channel) fun r held' => Holds beside r.2 held' := by
  simp only [Ownership.iocDmaCancel]
  split
  · rename_i hlt
    apply (resetDmaInfo_holds (h.abort ⟨channel.toNat, hlt⟩) _).bind
    exact fun dev₁ held₁ h₁ => Ends.pure h₁.1
  · exact Ends.pure h

theorem finishWait_holds {w : WaitEnd} (h : Holds beside dev held) :
    Ends some held (Ownership.finishWait dev c w) fun r held' => Holds beside r.2 held' := by
  have hwoken : Holds beside { dev with waiting := none } held := h.congr rfl (.of_eq rfl rfl)
  apply (resetDmaInfo_holds hwoken c).bind
  exact fun dev₁ held₁ h₁ => Ends.pure h₁.1

theorem release_holds (hsound : Sound dev) (h : Holds beside dev held) :
    Ends some held (Ownership.tpceRelease dev file) fun r held' => Holds beside r.2 held' := by
  have howned : ∀ obj ∈ dev.dmaMapSublist file, ∀ m, dev.mapInfos obj = some m → m.owner ≠ none := by
    intro obj hobj m hm
    obtain ⟨m', hm', howner⟩ := (hsound.consistent.owned file obj).mp hobj
    obtain rfl := Option.some.inj (hm.symm.trans hm')
    rw [howner]
    exact Option.some_ne_none file
  apply (releaseMappings_holds h howned).bind
  exact fun dev₁ held₁ h₁ => Ends.pure (h₁.congr rfl (.of_eq rfl rfl))

theorem completion_holds (h : Holds beside dev held) (hrun : tpceDmaCompletion dev c = .ok dev') :
    Holds beside dev' held := by
  rcases completion_cases hrun with rfl | ⟨-, -, rfl⟩
  · exact h
  · exact h.setInfo ((h.channel c).congr Iff.rfl Iff.rfl Iff.rfl)

theorem vmaOpen_holds (h : Holds beside dev held) (c : Channel) : Holds beside (vmaStreamInfoOpen dev c) held := by
  have hset : Holds beside (dev.setInfo c (incStreamRefs (dev.dmaInfo c))) held :=
    h.setInfo ((h.channel c).congr Iff.rfl Iff.rfl Iff.rfl)
  exact hset.congr rfl (.of_eq rfl rfl)

/-- What the kernel answers when a buffer is locked -/
def Answered : Op → Prop
  | .lockBuffer _ lockEnv bufferInfo => KernelResults lockEnv bufferInfo
  | _ => True

/-- Whatever a call comes to, what is held is what the data refer to. -/
theorem perform_holds (hsound : Sound dev) (h : Holds beside dev held) (hanswered : Answered op) (hop : op ≠ .remove) :
    Ends some held (Ownership.perform dev op) fun r held' => Holds beside r.2 held' := by
  apply Ends.ite
  · exact fun _ => Ends.pure h
  intro hpresent
  have hlifted : (∀ dev' out, Driver.perform dev op = .ok (out, dev') → Holds beside dev' held) →
      Ends some held (lift (Driver.perform dev op) : Owning Fault (Outcome × TpceDev)) fun r held' =>
        Holds beside r.2 held' := fun hkept => Ends.lift fun r hr => hkept r.2 r.1 hr
  cases op with
  | lockBuffer file lockEnv bufferInfo =>
      exact lockBuffer_holds h hanswered (hsound.consistent.fresh _ (Nat.le_refl _))
  | unlockBuffer file id => exact unlockBuffer_holds h
  | execute file env req => exact execute_holds hsound h
  | kernelRead file env r => exact kernelRead_holds hsound h
  | cancel file channel => exact cancel_holds h
  | wake w =>
      cases hwaiting : dev.waiting with
      | some c =>
          exact finishWait_holds h
      | none =>
          exact Ends.pure h
  | release file => exact release_holds hsound h
  | mmap file env c => exact mmap_holds h
  | vmaClose c =>
      apply (vmaClose_holds h).bind
      exact fun dev₁ held₁ h₁ => Ends.pure h₁
  | remove => exact absurd rfl hop
  | openFile =>
      apply hlifted
      intro dev' out hperform
      have hopen : tpceOpen dev = (out, dev') := Except.ok.inj hperform
      simp only [tpceOpen] at hopen
      split at hopen
      · cases hopen
        exact h
      · cases hopen
        exact h.congr rfl (.of_eq rfl rfl)
  | dmaWork c =>
      apply hlifted
      intro dev' out hperform
      cases hcompletion : tpceDmaCompletion dev c with
      | error e => simp [Driver.perform, Op.ioctlFile, hcompletion, Except.map] at hperform
      | ok dev₁ =>
          simp only [Driver.perform, Op.ioctlFile, hcompletion, Except.map] at hperform
          cases hperform
          exact completion_holds h hcompletion
  | vmaOpen c =>
      apply hlifted
      intro dev' out hperform
      cases hperform
      exact vmaOpen_holds h c
  | goAway =>
      apply hlifted
      intro dev' out hperform
      cases hperform
      exact h.congr rfl (.of_eq rfl rfl)

theorem kinds_step (h : Kinds dev) (hkept : Registry.Kept dev) (hstep : step dev op = some dev') : Kinds dev' := by
  intro obj m' hm'
  have hlt : obj < dev'.nextObj := by
    by_contra hle
    have hfree := (hkept.step hstep).consistent.fresh obj (Nat.not_lt.mp hle)
    exact Option.some_ne_none m' (hm'.symm.trans hfree)
  refine ⟨fun hnone => ?_, hlt⟩
  have hold := MappingIsolation.effect_old (step_maps hkept.clean hkept.consistent hstep) hkept.consistent hm'
  rcases hold with ⟨m, hm, heq⟩ | ⟨file, _, _, -, -, howner, -⟩
  · have husr : m.bufUsr = m'.bufUsr :=
      show (unmarked m).bufUsr = (unmarked m').bufUsr from congrArg TpceDmaMapInfo.bufUsr heq
    exact husr ▸ (h obj m hm).1 ((unmarked_owner heq).trans hnone)
  · exact absurd (howner.symm.trans hnone) (Option.some_ne_none file)

theorem Sound.step (h : Sound dev) (hstep : step dev op = some dev') : Sound dev' :=
  ⟨h.toKept.step hstep, step_buffered True.intro h.buffered (fun _ _ _ _ _ => True.intro) hstep,
    kinds_step h.kinds h.toKept hstep⟩

theorem Sound.init (sgt : SgTable) : Sound (TpceDev.init sgt) := by
  refine ⟨.init sgt, buffered_init sgt True.intro, fun obj m hm => ?_⟩
  obtain ⟨rfl, rfl⟩ := Registry.init_infos hm
  exact ⟨fun _ => rfl, Nat.zero_lt_one⟩

/-- Neither a mapping nor a buffer for descriptors -/
structure Bare (dev : TpceDev) : Prop where
  infos : ∀ obj, dev.mapInfos obj = none
  desc : ∀ c, (dev.dmaInfo c).desc = []
  descDma : ∀ c, (dev.dmaInfo c).descDma = []

theorem freeDescriptorsMem_info (hidle : ∀ c, (dev.dmaInfo c).state = .idle) (c c' : Channel) :
    (tpceDmaFreeDescriptorsMem dev c).dmaInfo c' =
      if c' = c then freeDescriptorsMem (dev.dmaInfo c) else dev.dmaInfo c' := by
  have hnot : (dev.dmaInfo c).state ≠ .running := by
    rw [hidle c]
    exact nofun
  rw [tpceDmaFreeDescriptorsMem]
  simp only [if_neg hnot]
  split
  · rename_i hc
    rw [hc, setInfo_dmaInfo]
  · rename_i hc
    exact setInfo_dmaInfo_ne _ _ hc

theorem freeDescriptors_clears (hidle : ∀ c, (dev.dmaInfo c).state = .idle) (cs : List Channel) (c : Channel) :
    ((cs.foldl tpceDmaFreeDescriptorsMem dev).dmaInfo c).streamInfo = (dev.dmaInfo c).streamInfo ∧
    (c ∈ cs ∨ (dev.dmaInfo c).desc = [] ∧ (dev.dmaInfo c).descDma = [] →
      ((cs.foldl tpceDmaFreeDescriptorsMem dev).dmaInfo c).desc = [] ∧
      ((cs.foldl tpceDmaFreeDescriptorsMem dev).dmaInfo c).descDma = []) := by
  induction cs generalizing dev with
  | nil => exact ⟨rfl, fun h => h.resolve_left List.not_mem_nil⟩
  | cons c' cs ih =>
      have hinfo := freeDescriptorsMem_info hidle c'
      have hidle' : ∀ c'', ((tpceDmaFreeDescriptorsMem dev c').dmaInfo c'').state = .idle := by
        intro c''
        rw [hinfo]
        split
        · exact hidle c'
        · exact hidle c''
      obtain ⟨hstream, hclear⟩ := ih hidle'
      rw [hinfo c] at hstream hclear
      by_cases hc : c = c'
      · subst hc
        rw [if_pos rfl] at hstream hclear
        exact ⟨hstream, fun _ => hclear (.inr ⟨rfl, rfl⟩)⟩
      · rw [if_neg hc] at hstream hclear
        exact ⟨hstream, fun h => hclear (h.imp_left fun hmem => (List.mem_cons.mp hmem).resolve_left hc)⟩

theorem dmaFree_bare (hcons : (maps dev).Consistent) (hunused : ∀ c, (maps dev).used c = none)
    (hidle : ∀ c, (dev.dmaInfo c).state = .idle) (h : tpceDmaFree dev = .ok dev') :
    Bare dev' ∧ ∀ c, (dev'.dmaInfo c).streamInfo = (dev.dmaInfo c).streamInfo := by
  obtain ⟨dev₁, hfree, hrest⟩ := bind_eq_ok.mp h
  obtain rfl : (List.finRange 3).foldl tpceDmaFreeDescriptorsMem dev₁ = dev' := Except.ok.inj hrest
  have hinfo := (Teardown.freeMappings_frame hfree).dmaInfo
  have hidle₁ : ∀ c, (dev₁.dmaInfo c).state = .idle := fun c => hinfo ▸ hidle c
  have hclears := freeDescriptors_clears hidle₁ (List.finRange 3)
  have hinfos : ∀ obj, dev₁.mapInfos obj = none := by
    intro obj
    have hcons₁ : (maps dev₁).Consistent := (unmaps_freeMappings hcons hunused hfree).consistent hcons
    obtain ⟨hgone, -⟩ := MappingLiveness.freeMappings_ids hcons hunused hfree
    by_contra hsome
    obtain ⟨m, hm⟩ := Option.ne_none_iff_exists'.mp hsome
    have hid := hcons₁.live obj m hm
    obtain ⟨⟨-, hle⟩, -⟩ := hcons₁.registered m.id obj hid
    exact absurd ((hgone m.id (MappingLiveness.id_mem hle)).symm.trans hid) (Option.some_ne_none obj).symm
  have hlast := congrArg Maps.infos (maps_freeDescriptors hidle₁ (List.finRange 3))
  refine ⟨⟨fun obj => ?_, fun c => ?_, fun c => ?_⟩, fun c => ?_⟩
  · exact (congrFun hlast obj).trans (hinfos obj)
  · exact ((hclears c).2 (.inl (List.mem_finRange c))).1
  · exact ((hclears c).2 (.inl (List.mem_finRange c))).2
  · rw [(hclears c).1, hinfo]

theorem bare_holds (h : Holds beside dev held) (hbare : Bare dev) (hbeside : ∀ c k, beside k → ¬OfChannel c k)
    (k : Item) : k ∈ held ↔ beside k ∨ ∃ c, k = .streamState c ∧ (dev.dmaInfo c).streamInfo.state ≠ none := by
  cases k with
  | mapping obj part =>
      rw [h.mapping]
      simp [hbare.infos]
  | desc c =>
      have hno := hbeside c (.desc c)
      rw [(h.channel c).desc]
      simp [hbare.desc, OfChannel] at hno ⊢
      exact hno
  | descDma c =>
      have hno := hbeside c (.descDma c)
      rw [(h.channel c).descDma]
      simp [hbare.descDma, OfChannel] at hno ⊢
      exact hno
  | streamState c =>
      have hno := hbeside c (.streamState c)
      rw [(h.channel c).streamState]
      simp [OfChannel] at hno ⊢
      simp [hno]
  | _ =>
      refine Iff.trans (h.elsewhere _ ?_) ?_
      · exact True.intro
      · simp

/-- Where there is no mapping left, what is held beside is what had been left, or would be. -/
theorem beside_of_bare {beside' : Item → Prop} (hbare : Bare dev')
    (hleft : ∀ k, Left beside' dev' k ↔ Left beside dev k) : beside' = Left beside dev := by
  funext k
  refine propext (Iff.trans ?_ (hleft k))
  rw [Left]
  simp [hbare.infos]

theorem left_not_ofChannel (hbeside : ∀ c k, beside k → ¬OfChannel c k) (c : Channel) (k : Item)
    (h : Left beside dev k) : ¬OfChannel c k := by
  rcases h with hb | ⟨obj, m, part, rfl, -⟩
  · exact hbeside c k hb
  · simp [OfChannel]

/-- Behind `tpce_dma_free` there is what no mapping and no buffer for descriptors is. -/
theorem dmaFree_given (hsound : Sound dev) (h : Holds beside dev held) (hbeside : ∀ c k, beside k → ¬OfChannel c k)
    (hidle : ∀ c, (dev.dmaInfo c).state = .idle) :
    Ends some held (Ownership.tpceDmaFree dev) fun _ held' => ∀ k, k ∈ held' ↔
      Left beside dev k ∨ ∃ c, k = .streamState c ∧ (dev.dmaInfo c).streamInfo.state ≠ none := by
  have hunused : ∀ c, (maps dev).used c = none := fun c => (hsound.clean c).idle.mp (hidle c)
  apply (dmaFree_holds h hsound.kinds).erased.mono
  rintro dev' held' ⟨⟨beside', hholds, hleft⟩, herase⟩
  rw [Ownership.erase_dmaFree] at herase
  obtain ⟨hbare, hstream⟩ := dmaFree_bare hsound.consistent hunused hidle herase
  obtain rfl := beside_of_bare hbare hleft
  intro k
  rw [bare_holds hholds hbare (left_not_ofChannel hbeside)]
  simp only [hstream]

theorem finishRemove_bare {out : Outcome} (hsound : Sound dev) (h : finishRemove dev = .ok (out, dev')) : Bare dev' := by
  obtain ⟨dev₁, hreset, hrest⟩ := bind_eq_ok.mp h
  obtain ⟨dev₂, hfree, hrest⟩ := bind_eq_ok.mp hrest
  obtain ⟨-, rfl⟩ := Prod.mk.inj (Except.ok.inj hrest)
  have hclean := clean_of_tornDown (Teardown.tornDown_resetChannels hreset) hsound.clean
  have hcons := (resets_resetChannels hsound.clean hreset).consistent hsound.consistent
  have hidle : ∀ c, (dev₁.dmaInfo c).state = .idle := fun c =>
    (Teardown.resetChannels_idle hreset).1 c (List.mem_finRange c)
  exact (dmaFree_bare hcons (fun c => (hclean c).idle.mp (hidle c)) hidle hfree).1

/-- The removal leaves neither a mapping nor a buffer, and holds no more than before. -/
theorem finishRemove_given (hsound : Sound dev) (h : Holds beside dev held) :
    Ends some held (Ownership.finishRemove dev) fun r held' =>
      Bare r.2 ∧ Holds (Left beside dev) r.2 held' ∧ finishRemove dev = .ok r := by
  apply (finishRemove_holds h hsound.kinds).erased.mono
  rintro ⟨out, dev'⟩ held' ⟨⟨beside', hholds, hleft⟩, herase⟩
  rw [Ownership.erase_finishRemove] at herase
  have hbare := finishRemove_bare hsound herase
  obtain rfl := beside_of_bare hbare hleft
  exact ⟨hbare, hholds, herase⟩

end TpceDrv.OwnershipCalls
