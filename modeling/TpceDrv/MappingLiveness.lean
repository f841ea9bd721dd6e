import TpceDrv.DescriptorAccounting
import TpceDrv.MappingEffects

namespace TpceDrv.MappingLiveness

open Descriptor DmaInfo Mapping Device ChannelControl ChannelSteps Requests Driver RequestSteps Effects Teardown
open MappingInUse MappingTable RequestAtomicity MappingEffects IndexFaults DescriptorAccounting Library.Errors

variable {env : InitEnv} {dev dev' : TpceDev} {c : Channel} {req : TpceDmaRequest} {obj file : ℕ}
variable {m : TpceDmaMapInfo} {op : Op} {s s' : Maps} {P : TpceDmaMapInfo → Prop}

/-- Every channel that points to a mapping points to one in memory. -/
def Pointed (s : Maps) : Prop := ∀ c obj, s.used c = some obj → ∃ m, s.infos obj = some m

/-- Such a mapping is in use by the channel only that it is marked with. -/
def Alone (P : TpceDmaMapInfo → Prop) (s : Maps) : Prop :=
  ∀ obj m c, s.infos obj = some m → P m → s.used c = some obj → m.activeChannel = c.val

theorem Pointed.accept (h : Pointed s) (c : Channel) (obj : ℕ) (m : TpceDmaMapInfo) : Pointed (s.accept c obj m) := by
  intro c' obj' hused
  simp only [Maps.accept] at hused ⊢
  by_cases hobj : obj' = obj
  · subst hobj
    exact ⟨_, Function.update_self ..⟩
  · rw [Function.update_of_ne hobj]
    by_cases hc : c' = c
    · subst hc
      rw [Function.update_self] at hused
      exact absurd (Option.some.inj hused).symm hobj
    · rw [Function.update_of_ne hc] at hused
      exact h c' obj' hused

theorem Pointed.reset (h : Pointed s) (c : Channel) : Pointed (s.reset c) := by
  intro c' obj' hused
  have hused' : s.used c' = some obj' := by
    simp only [Maps.reset] at hused
    by_cases hc : c' = c
    · subst hc
      rw [Function.update_self] at hused
      cases hused
    · rwa [Function.update_of_ne hc] at hused
  obtain ⟨m, hm⟩ := h c' obj' hused'
  obtain ⟨m', hm', -⟩ := sameRecords_reset.symm.old hm
  exact ⟨m', hm'⟩

theorem Pointed.lock (h : Pointed s) (file : ℕ) (m : TpceDmaMapInfo) : Pointed (s.lock file m) := by
  intro c obj hused
  by_cases hobj : obj = s.next
  · subst hobj
    exact ⟨m, Function.update_self ..⟩
  · exact (h c obj hused).imp fun m' hm' => (Function.update_of_ne hobj ..).trans hm'

theorem unmap_used {obj' : ℕ} (h : (s.unmap obj m).used c = some obj') :
    s.used c = some obj' ∧ m.activeChannel ≠ c.val := by
  simp only [Maps.unmap] at h
  split at h
  · cases h
  · rename_i hne
    exact ⟨h, hne⟩

theorem Pointed.unmap (h : Pointed s) (halone : Alone P s) (hm : s.infos obj = some m) (hP : P m) :
    Pointed (s.unmap obj m) := by
  intro c obj' hused
  obtain ⟨hused', hne⟩ := unmap_used hused
  have hobj : obj' ≠ obj := fun heq => hne (halone obj m c hm hP (heq ▸ hused'))
  exact (h c obj' hused').imp fun m' hm' => (Function.update_of_ne hobj ..).trans hm'

theorem Alone.unmap (h : Alone P s) (obj : ℕ) (m : TpceDmaMapInfo) : Alone P (s.unmap obj m) :=
  fun obj' m' c hm' hP hused => h obj' m' c (unmap_infos hm').2 hP (unmap_used hused).1

theorem unmaps_pointed (h : Unmaps P s s') (halone : Alone P s) (hp : Pointed s) : Pointed s' ∧ Alone P s' := by
  induction h with
  | refl => exact ⟨hp, halone⟩
  | tail _ hlast ih =>
      obtain ⟨obj, m, hm, hP, rfl⟩ := hlast
      exact ⟨ih.1.unmap ih.2 hm hP, ih.2.unmap obj m⟩

theorem pointed_of_unused (h : ∀ c, s.used c = none) : Pointed s :=
  fun c obj hused => absurd ((h c).symm.trans hused) (Option.some_ne_none obj).symm

/-- A call that frees mappings finds none of them in use by another channel. -/
def FreesAlone (s : Maps) : Op → Prop
  | .unlockBuffer file id => Alone (fun m => m.owner = some file ∧ m.id = id) s
  | .release file => Alone (fun m => m.owner = some file) s
  | _ => True

theorem effect_pointed (h : MapsEffect s op s') (hcons : s.Consistent) (hp : Pointed s) (hfree : FreesAlone s op)
    (hop : op ≠ .remove) : Pointed s' := by
  cases h with
  | same => exact hp
  | locked file lockEnv bufferInfo m free range owner direction inactive => exact hp.lock file m
  | accepted _ c obj m live free => exact hp.accept c obj m
  | failed _ c obj m live free => exact (hp.accept c obj m).reset c
  | reset _ c => exact hp.reset c
  | unlocked file id obj m mapping live owner =>
      obtain ⟨-, m', hm', hid⟩ := hcons.registered id obj mapping
      rw [live] at hm'
      cases hm'
      exact hp.unmap hfree live ⟨owner, hid⟩
  | released file _ unmaps empty => exact (unmaps_pointed unmaps hfree hp).1
  | removed s₁ _ resets unmaps => exact absurd rfl hop

theorem Pointed.mapInfo (h : Pointed (maps dev)) (hused : (dev.dmaInfo c).mapInfo = some obj) :
    ∃ m, dev.mapInfo obj = .ok m :=
  (h c obj hused).imp fun _ hm => mapInfo_eq_ok.mpr hm

theorem releaseMapInfo_returns (h : Pointed (maps dev)) (c : Channel) : ∃ dev', releaseMapInfo dev c = .ok dev' := by
  simp only [releaseMapInfo]
  cases hused : (dev.dmaInfo c).mapInfo with
  | none => exact ⟨dev, rfl⟩
  | some obj =>
      obtain ⟨m, hm⟩ := h.mapInfo hused
      exact ⟨_, bind_eq_ok.mpr ⟨m, hm, rfl⟩⟩

theorem reset_returns (h : Pointed (maps dev)) (c : Channel) : ∃ dev', resetDmaInfo dev c = .ok dev' := by
  simp only [resetDmaInfo]
  split
  · exact ⟨dev, rfl⟩
  have hstopped : Pointed (maps (if (dev.dmaInfo c).state = .running then tpceDmaAbort dev c else dev)) := by
    split
    · rw [maps_abort]
      exact h
    · exact h
  generalize (if (dev.dmaInfo c).state = .running then tpceDmaAbort dev c else dev) = dev₁ at hstopped
  have hcleared : Pointed (maps { dev₁ with pageTable := PageTable.pciePageFreeByChannelId dev₁.pageTable c.id }) :=
    hstopped
  obtain ⟨dev₂, hrelease⟩ := releaseMapInfo_returns hcleared c
  exact ⟨_, bind_eq_ok.mpr ⟨dev₂, hrelease, rfl⟩⟩

theorem completion_returns (h : Pointed (maps dev)) (c : Channel) : ∃ dev', tpceDmaCompletion dev c = .ok dev' := by
  simp only [tpceDmaCompletion]
  split
  · exact ⟨dev, rfl⟩
  split
  · cases hused : (dev.dmaInfo c).mapInfo with
    | none => exact ⟨_, rfl⟩
    | some obj =>
        obtain ⟨m, hm⟩ := h.mapInfo hused
        have hsync : tpceDmaSyncForCpu dev obj = .ok () := bind_eq_ok.mpr ⟨m, hm, rfl⟩
        simp only [hsync]
        split
        · exact ⟨_, rfl⟩
        · exact ⟨_, rfl⟩
  · exact ⟨dev, rfl⟩

theorem listDel_pointed (h : Pointed (maps dev)) (file obj : ℕ) : Pointed (maps (listDel dev file obj)) := h

theorem unlock_returns (hm : dev.mapInfos obj = some m) : ∃ dev', tpceDmaUnlockUserBuffer dev obj = .ok dev' :=
  ⟨_, bind_eq_ok.mpr ⟨m, mapInfo_eq_ok.mpr hm, rfl⟩⟩

/-- A mapping in memory can be unmapped, whichever channel it is marked with. -/
theorem unmap_returns (file : ℕ) (hclean : Clean dev) (hcons : (maps dev).Consistent) (hp : Pointed (maps dev))
    (hm : dev.mapInfos obj = some m) : ∃ dev', tpceSafeDmaUnmap (listDel dev file obj) obj = .ok dev' := by
  have hload : (listDel dev file obj).mapInfo obj = .ok m := mapInfo_eq_ok.mpr hm
  rcases hcons.marked obj m hm with hinactive | ⟨c, hactive, -⟩
  · have hbusy : mappingIsBusy m = false := by
      simp only [mappingIsBusy]
      rw [hinactive]
      rfl
    obtain ⟨dev', hunlock⟩ := @unlock_returns (listDel dev file obj) obj m hm
    refine ⟨dev', bind_eq_ok.mpr ⟨m, hload, bind_eq_ok.mpr ⟨listDel dev file obj, ?_, hunlock⟩⟩⟩
    rw [hbusy]
    rfl
  · have hbusy := busy_of_active hactive
    have hlisted : Clean (listDel dev file obj) := hclean.elsewhere rfl rfl
    have habort : Pointed (maps (tpceDmaAbort (listDel dev file obj) c)) := by
      rw [maps_abort]
      exact listDel_pointed hp file obj
    obtain ⟨dev₁, hreset⟩ := reset_returns habort c
    have hmaps := maps_reset (hlisted.abort c c) hreset
    rw [maps_abort] at hmaps
    have hsame : SameRecords (maps (listDel dev file obj)) (maps dev₁) := by
      rw [hmaps]
      exact sameRecords_reset
    obtain ⟨m', hm', -⟩ := hsame.symm.old hm
    obtain ⟨dev', hunlock⟩ := unlock_returns hm'
    refine ⟨dev', bind_eq_ok.mpr ⟨m, hload, bind_eq_ok.mpr ⟨dev₁, ?_, hunlock⟩⟩⟩
    rw [if_pos hbusy]
    exact bind_eq_ok.mpr ⟨c, channelOf_eq_ok.mpr hactive, hreset⟩

theorem releaseMappings_returns (file : ℕ) (hclean : Clean dev) (hcons : (maps dev).Consistent)
    (hp : Pointed (maps dev)) (halone : Alone (fun m => m.owner = some file) (maps dev)) {objs : List ℕ}
    (hlist : dev.dmaMapSublist file = objs) : ∃ dev', releaseMappings file dev objs = .ok dev' := by
  induction objs generalizing dev with
  | nil => exact ⟨dev, rfl⟩
  | cons obj objs ih =>
      have hmem : obj ∈ dev.dmaMapSublist file := by
        rw [hlist]
        exact List.mem_cons_self
      obtain ⟨m, hm, howner⟩ := (hcons.owned file obj).mp hmem
      obtain ⟨dev₁, hunmap⟩ := unmap_returns file hclean hcons hp hm
      have hclean₁ := clean_of_tornDown (tornDown_unlisted hunmap) hclean
      have hunmap' := hunmap
      rw [← listDelOwner_eq howner] at hunmap'
      have hmaps := maps_unmap hclean hcons hm hunmap'
      have hcons₁ := hcons.unmap hm
      have hp₁ := hp.unmap halone hm howner
      have halone₁ := halone.unmap obj m
      rw [← hmaps] at hcons₁ hp₁ halone₁
      have hlists : dev₁.dmaMapSublist = unlisted dev.dmaMapSublist m obj := congrArg Maps.lists hmaps
      have hlist₁ : dev₁.dmaMapSublist file = objs := by
        rw [hlists, unlisted, if_pos howner, hlist, List.erase_cons_head]
      obtain ⟨dev', hrest⟩ := ih hclean₁ hcons₁ hp₁ halone₁ hlist₁
      exact ⟨dev', bind_eq_ok.mpr ⟨dev₁, hunmap, hrest⟩⟩

theorem resetChannels_returns (hclean : Clean dev) (hp : Pointed (maps dev)) (cs : List Channel) :
    ∃ dev', resetChannels dev cs = .ok dev' := by
  induction cs generalizing dev with
  | nil => exact ⟨dev, rfl⟩
  | cons c cs ih =>
      obtain ⟨dev₁, hreset⟩ := reset_returns hp c
      have hp₁ := hp.reset c
      rw [← maps_reset (hclean c) hreset] at hp₁
      obtain ⟨dev', hrest⟩ := ih (hclean.reset hreset) hp₁
      exact ⟨dev', bind_eq_ok.mpr ⟨dev₁, hreset, hrest⟩⟩

theorem listDelOwner_infos (dev : TpceDev) (m : TpceDmaMapInfo) (obj : ℕ) :
    (listDelOwner dev m obj).mapInfos = dev.mapInfos := congrArg Maps.infos (maps_listDelOwner dev m obj)

/-- While no channel points to a mapping, each of them can be freed. -/
theorem freeMappings_returns (hcons : (maps dev).Consistent) (hunused : ∀ c, (maps dev).used c = none)
    (ids : List U32) : ∃ dev', freeMappings dev ids = .ok dev' := by
  induction ids generalizing dev with
  | nil => exact ⟨dev, rfl⟩
  | cons id ids ih =>
      simp only [freeMappings]
      split
      · exact ih hcons hunused
      · rename_i obj hobj
        obtain ⟨-, m, hm, -⟩ := hcons.registered id obj hobj
        have hm₁ : (listDelOwner dev m obj).mapInfos obj = some m := by
          rw [listDelOwner_infos]
          exact hm
        obtain ⟨dev₁, hunlock⟩ := unlock_returns hm₁
        obtain ⟨hmaps, hunused₁⟩ := maps_freed hcons hunused hm hunlock
        have hcons₁ := hcons.unmap hm
        rw [← hmaps] at hcons₁
        obtain ⟨dev', hrest⟩ := ih hcons₁ hunused₁
        exact ⟨dev', bind_eq_ok.mpr ⟨m, mapInfo_eq_ok.mpr hm, bind_eq_ok.mpr ⟨dev₁, hunlock, hrest⟩⟩⟩

theorem remove_returns (hclean : Clean dev) (hcons : (maps dev).Consistent) (hp : Pointed (maps dev)) :
    ∃ dev', finishRemove dev = .ok (.returned 0, dev') := by
  obtain ⟨dev₁, hreset⟩ := resetChannels_returns hclean hp (List.finRange 3)
  have hclean₁ := clean_of_tornDown (tornDown_resetChannels hreset) hclean
  have hcons₁ := (resets_resetChannels hclean hreset).consistent hcons
  have hunused : ∀ c, (maps dev₁).used c = none := fun c =>
    (hclean₁ c).idle.mp ((resetChannels_idle hreset).1 c (List.mem_finRange c))
  obtain ⟨dev₂, hfree⟩ := freeMappings_returns hcons₁ hunused
    ((List.range (tpceDmaMapIdMax + 1)).map (BitVec.ofNat 32))
  exact ⟨_, bind_eq_ok.mpr ⟨dev₁, hreset, bind_eq_ok.mpr ⟨_, bind_eq_ok.mpr ⟨dev₂, hfree, rfl⟩, rfl⟩⟩⟩

theorem removed_idle {out : Outcome} (h : finishRemove dev = .ok (out, dev')) (c : Channel) :
    (dev'.dmaInfo c).state = .idle := by
  obtain ⟨dev₁, dev₂, hreset, hidle, hfree, rfl⟩ := finishRemove_cases h
  have hinfo := (freeMappings_frame hfree).dmaInfo
  obtain ⟨infos, heq, hsame⟩ := freeDescriptors_frame (List.finRange 3) fun c => hinfo ▸ hidle c
  rw [heq]
  exact (hsame c).2

theorem removed_unused {out : Outcome} (hclean : Clean dev) (h : finishRemove dev = .ok (out, dev')) (c : Channel) :
    (maps dev').used c = none :=
  (clean_of_tornDown (tornDown_remove h) hclean c).idle.mp (removed_idle h c)

theorem freeMappings_ids (hcons : (maps dev).Consistent) (hunused : ∀ c, (maps dev).used c = none) {ids : List U32}
    (h : freeMappings dev ids = .ok dev') :
    (∀ id ∈ ids, dev'.dmaMappings id = none) ∧ ∀ id, dev.dmaMappings id = none → dev'.dmaMappings id = none := by
  induction ids generalizing dev with
  | nil =>
      cases h
      exact ⟨fun _ hid => absurd hid List.not_mem_nil, fun _ => id⟩
  | cons id ids ih =>
      simp only [freeMappings] at h
      split at h
      · rename_i hnone
        obtain ⟨hin, hkeep⟩ := ih hcons hunused h
        exact ⟨List.forall_mem_cons.mpr ⟨hkeep id hnone, hin⟩, hkeep⟩
      · rename_i obj hobj
        obtain ⟨m, hm, h⟩ := bind_eq_ok.mp h
        obtain ⟨dev₁, hunlock, h⟩ := bind_eq_ok.mp h
        obtain ⟨-, m', hm', hid⟩ := hcons.registered id obj hobj
        have hm := mapInfo_eq_ok.mp hm
        obtain rfl : m = m' := Option.some.inj (hm.symm.trans hm')
        obtain ⟨hmaps, hunused₁⟩ := maps_freed hcons hunused hm hunlock
        have hcons₁ := hcons.unmap hm
        rw [← hmaps] at hcons₁
        obtain ⟨hin, hkeep⟩ := ih hcons₁ hunused₁ h
        have hids : dev₁.dmaMappings = Function.update dev.dmaMappings m.id none := congrArg Maps.ids hmaps
        have hgone : ∀ id', id' = id ∨ dev.dmaMappings id' = none → dev₁.dmaMappings id' = none := by
          intro id' hid'
          rw [hids, hid]
          by_cases heq : id' = id
          · rw [heq, Function.update_self]
          · rw [Function.update_of_ne heq]
            exact hid'.resolve_left heq
        exact ⟨List.forall_mem_cons.mpr ⟨hkeep id (hgone id (.inl rfl)), hin⟩,
          fun id' hid' => hkeep id' (hgone id' (.inr hid'))⟩

theorem id_mem {id : U32} (h : id.toNat ≤ tpceDmaMapIdMax) :
    id ∈ (List.range (tpceDmaMapIdMax + 1)).map (BitVec.ofNat 32) :=
  List.mem_map.mpr ⟨id.toNat, List.mem_range.mpr (Nat.lt_succ_of_le h), BitVec.ofNat_toNat ..⟩

/-- The removal frees every mapping. -/
theorem removed_lists {out : Outcome} (hclean : Clean dev) (hcons : (maps dev).Consistent)
    (h : finishRemove dev = .ok (out, dev')) (file : ℕ) : dev'.dmaMapSublist file = [] := by
  have hcons' := (remove_effect hclean hcons h).consistent hcons
  obtain ⟨dev₁, dev₂, hreset, hidle, hfree, rfl⟩ := finishRemove_cases h
  have hclean₁ := clean_of_tornDown (tornDown_resetChannels hreset) hclean
  have hcons₁ := (resets_resetChannels hclean hreset).consistent hcons
  obtain ⟨hgone, -⟩ := freeMappings_ids hcons₁ (fun c => (hclean₁ c).idle.mp (hidle c)) hfree
  have hinfo := (freeMappings_frame hfree).dmaInfo
  have hlast := maps_freeDescriptors (fun c => hinfo ▸ hidle c) (List.finRange 3)
  rw [hlast] at hcons'
  have hlist : ∀ obj, obj ∉ dev₂.dmaMapSublist file := fun obj hmem => by
    obtain ⟨m, hm, -⟩ := (hcons'.owned file obj).mp hmem
    have hid := hcons'.live obj m hm
    obtain ⟨⟨-, hle⟩, -⟩ := hcons'.registered m.id obj hid
    exact absurd ((hgone m.id (id_mem hle)).symm.trans hid) (Option.some_ne_none obj).symm
  have hlists : ((List.finRange 3).foldl tpceDmaFreeDescriptorsMem dev₂).dmaMapSublist = dev₂.dmaMapSublist :=
    congrArg Maps.lists hlast
  rw [hlists]
  exact List.eq_nil_iff_forall_not_mem.mpr hlist

/-- The access is not one to a mapping that is gone. -/
def NotFreed (e : Fault) : Prop := ∀ obj, e ≠ .useAfterFree obj

theorem notFreed_of_index {e : Fault} (h : IndexFault e) : NotFreed e := by
  rintro obj rfl
  exact h

theorem prepareDesc_notFreed (env : InitEnv) (m : TpceDmaMapInfo) (req : TpceDmaRequest) (info : TpceDmaInfo) :
    Raises NotFreed (prepareDesc env m req info) := by
  refine Raises.ite (fun _ => Raises.pure _) fun _ => Raises.bind ?_ fun filled _ => ?_
  · refine Raises.ite (fun _ => Raises.pure _) fun _ => ?_
    exact (generateDesc_raises _ _ _ _).mono fun _ => notFreed_of_index
  · refine Raises.ite (fun _ => Raises.pure _) fun _ => Raises.bind ?_ fun _ _ => Raises.pure _
    exact Raises.ite (fun _ => Raises.error fun obj h => by cases h) fun _ => Raises.ok _

theorem initDmaInfo_notFreed (hcons : (maps dev).Consistent) : Raises NotFreed (initDmaInfo env dev c req) := by
  simp only [initDmaInfo]
  split
  · exact Raises.pure _
  · rename_i obj hobj
    obtain ⟨-, m, hm, -⟩ := hcons.registered req.id obj hobj
    refine Raises.bind ?_ fun m' _ => (prepareDesc_notFreed _ _ _ _).bind fun out _ => ?_
    · rw [mapInfo_eq_ok.mpr hm]
      exact Raises.ok m
    · refine Raises.ite (fun _ => Raises.pure _) fun _ => ?_
      exact Raises.ite (fun _ => Raises.pure _) fun _ => Raises.pure _

/-- A request whose start fails is reset while its mapping is still there. -/
theorem dmaExecute_notFreed (hcons : (maps dev).Consistent) (hp : Pointed (maps dev)) (req : TpceDmaRequest) :
    Raises NotFreed (dmaExecute env dev req) := by
  simp only [dmaExecute]
  split
  · rename_i hc
    refine (initDmaInfo_notFreed hcons).bind ?_
    rintro ⟨err, dev₁⟩ hinit
    refine Raises.ite (fun _ => Raises.pure _) fun hok => ?_
    rcases initDmaInfo_cases hinit with ⟨hneg, -⟩ | ⟨-, obj, m, prep, info, hacc⟩
    · exact absurd hneg hok
    cases hdisp : dmaDispatch env dev₁ ⟨req.params.channel.toNat, hc⟩ with
    | mk ret dev₂ =>
        obtain ⟨table, info₂, hres, hsame, -⟩ := dmaDispatch_spec (initialized_state hacc) hdisp
        have hp₂ : Pointed (maps dev₂) := by
          have hset : maps dev₂ = maps dev₁ := by
            rw [hres]
            exact maps_setInfo hsame.mapInfo
          rw [hset, maps_accept hacc]
          exact hp.accept _ obj m
        refine Raises.ite (fun _ => ?_) fun _ => Raises.ite (fun _ => Raises.pure _) fun _ => Raises.pure _
        obtain ⟨dev₃, hreset⟩ := reset_returns hp₂ ⟨req.params.channel.toNat, hc⟩
        rw [hreset]
        exact Raises.ok _
  · exact Raises.pure _

/-- The mappings are consistent, and every one that a channel points to is
there. -/
structure Sound (dev : TpceDev) : Prop where
  clean : Clean dev
  consistent : (maps dev).Consistent
  pointed : Pointed (maps dev)

theorem Sound.step (h : Sound dev) (hfree : FreesAlone (maps dev) op) (hstep : step dev op = some dev') :
    Sound dev' := by
  have heffect := step_maps h.clean h.consistent hstep
  have hclean := step_clean h.clean hstep
  refine ⟨hclean, heffect.consistent h.consistent, ?_⟩
  by_cases hop : op = .remove
  · subst hop
    obtain ⟨-, out, hremove⟩ := step_eq_some.mp hstep
    exact pointed_of_unused (removed_unused h.clean hremove)
  · exact effect_pointed heffect h.consistent h.pointed hfree hop

end TpceDrv.MappingLiveness
