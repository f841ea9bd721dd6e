import TpceDrv.MappingInUse
import TpceDrv.MappingTable
import TpceDrv.RequestAtomicity

namespace TpceDrv.MappingEffects

open DmaInfo Mapping Device ChannelControl ChannelSteps Requests Driver RequestSteps Effects Teardown MappingInUse
open MappingTable RequestAtomicity Relation

variable {env : InitEnv} {dev dev' : TpceDev} {c : Channel} {req : TpceDmaRequest} {obj file : ℕ}
variable {info : TpceDmaInfo} {m : TpceDmaMapInfo} {op : Op} {s s' : Maps}

/-- What the device holds of the mappings -/
def maps (dev : TpceDev) : Maps where
  ids := dev.dmaMappings
  infos := dev.mapInfos
  next := dev.nextObj
  lists := dev.dmaMapSublist
  used := fun c => (dev.dmaInfo c).mapInfo

abbrev Unmaps (P : TpceDmaMapInfo → Prop) : Maps → Maps → Prop :=
  ReflTransGen fun s s' => ∃ obj m, s.infos obj = some m ∧ P m ∧ s' = s.unmap obj m

abbrev Resets : Maps → Maps → Prop := ReflTransGen fun s s' => ∃ c, s' = s.reset c

/-- What a call can do to the mappings -/
inductive MapsEffect (s : Maps) : Op → Maps → Prop
  | same (op : Op) : MapsEffect s op s
  | locked (file : ℕ) (lockEnv : LockEnv) (bufferInfo : TpceDmaBufIn) (m : TpceDmaMapInfo) (free : s.ids m.id = none)
      (range : 1 ≤ m.id.toNat ∧ m.id.toNat ≤ tpceDmaMapIdMax) (owner : m.owner = some file)
      (direction : m.direction = bufferInfo.direction) (inactive : m.activeChannel = tpceMapInactive) :
      MapsEffect s (.lockBuffer file lockEnv bufferInfo) (s.lock file m)
  | accepted (op : Op) (c : Channel) (obj : ℕ) (m : TpceDmaMapInfo) (live : s.infos obj = some m)
      (free : s.used c = none) : MapsEffect s op (s.accept c obj m)
  | failed (op : Op) (c : Channel) (obj : ℕ) (m : TpceDmaMapInfo) (live : s.infos obj = some m)
      (free : s.used c = none) : MapsEffect s op ((s.accept c obj m).reset c)
  | reset (op : Op) (c : Channel) : MapsEffect s op (s.reset c)
  | unlocked (file : ℕ) (id : U32) (obj : ℕ) (m : TpceDmaMapInfo) (mapping : s.ids id = some obj)
      (live : s.infos obj = some m) (owner : m.owner = some file) :
      MapsEffect s (.unlockBuffer file id) (s.unmap obj m)
  | released (file : ℕ) (s' : Maps) (unmaps : Unmaps (fun m => m.owner = some file) s s')
      (empty : s'.lists file = []) : MapsEffect s (.release file) s'
  | removed (s₁ s' : Maps) (resets : Resets s s₁) (unmaps : Unmaps (fun _ => True) s₁ s') : MapsEffect s .remove s'

theorem maps_congr (hlinks : SameLinks dev dev') (hlists : dev'.dmaMapSublist = dev.dmaMapSublist) :
    maps dev' = maps dev := by
  simp only [maps, hlinks.dmaMappings, hlinks.mapInfos, hlinks.nextObj, hlists, hlinks.mapInfo]

theorem maps_setInfo (hmap : info.mapInfo = (dev.dmaInfo c).mapInfo) : maps (dev.setInfo c info) = maps dev := by
  have hused : ∀ c', ((dev.setInfo c info).dmaInfo c').mapInfo = (dev.dmaInfo c').mapInfo := fun c' => by
    by_cases hc : c' = c
    · subst hc
      rw [setInfo_dmaInfo]
      exact hmap
    · rw [setInfo_dmaInfo_ne dev info hc]
  simp only [maps, hused]
  rfl

theorem maps_abort (dev : TpceDev) (c : Channel) : maps (tpceDmaAbort dev c) = maps dev := by
  refine maps_congr (sameLinks_abort dev c) ?_
  rw [abort_eq]
  rfl

theorem maps_accept {prep : TpceDmaInfo} (hacc : Initialized env dev c req obj m prep info dev') :
    maps dev' = (maps dev).accept c obj m := by
  have hused : (fun c' => (Function.update dev.dmaInfo c (initializedInfo info req obj) c').mapInfo) =
      Function.update (fun c' => (dev.dmaInfo c').mapInfo) c (some obj) := by
    funext c'
    by_cases hc : c' = c
    · subst hc
      rw [Function.update_self, Function.update_self]
      rfl
    · rw [Function.update_of_ne hc, Function.update_of_ne hc]
  rw [hacc.result]
  simp only [maps, Maps.accept, TpceDev.setMapInfo, TpceDev.setInfo, hused]

theorem maps_reset (hclean : CleanAt dev c) (hreset : resetDmaInfo dev c = .ok dev') :
    maps dev' = (maps dev).reset c := by
  rcases resetDmaInfo_spec hreset with ⟨hidle, rfl⟩ | ⟨-, -, rfl⟩
  · have hnone : (maps dev').used c = none := hclean.idle.mp hidle
    simp only [Maps.reset, hnone, releasedInfos]
    rw [← hnone, Function.update_eq_self]
  · have hused : (fun c' => (Function.update dev.dmaInfo c (resetInfo (dev.dmaInfo c)) c').mapInfo) =
        Function.update (fun c' => (dev.dmaInfo c').mapInfo) c none := by
      funext c'
      by_cases hc : c' = c
      · subst hc
        rw [Function.update_self, Function.update_self]
        rfl
      · rw [Function.update_of_ne hc, Function.update_of_ne hc]
    simp only [maps, Maps.reset, hused]

theorem maps_unlock (hm : dev.mapInfos obj = some m) (hunlock : tpceDmaUnlockUserBuffer dev obj = .ok dev') :
    maps dev' = { maps dev with
      ids := Function.update dev.dmaMappings m.id none
      infos := Function.update dev.mapInfos obj none } := by
  obtain ⟨m', hm', rfl⟩ := unlockUserBuffer_spec hunlock
  rw [hm] at hm'
  cases hm'
  rfl

theorem maps_listDelOwner (dev : TpceDev) (m : TpceDmaMapInfo) (obj : ℕ) :
    maps (listDelOwner dev m obj) = { maps dev with lists := unlisted dev.dmaMapSublist m obj } := by
  have hlists : ∀ file, m.owner = some file →
      Function.update dev.dmaMapSublist file ((dev.dmaMapSublist file).erase obj) =
        unlisted dev.dmaMapSublist m obj := fun file howner => by
    funext file'
    simp only [unlisted, howner]
    by_cases hfile : file' = file
    · subst hfile
      rw [Function.update_self, if_pos rfl]
    · rw [Function.update_of_ne hfile, if_neg fun heq => hfile (Option.some.inj heq).symm]
  simp only [listDelOwner]
  split
  · rename_i owner howner
    rw [← hlists owner howner]
    rfl
  · rename_i howner
    have hsame : unlisted dev.dmaMapSublist m obj = dev.dmaMapSublist := by
      funext file'
      simp [unlisted, howner]
    rw [hsame]
    rfl

theorem listDelOwner_eq (howner : m.owner = some file) : listDelOwner dev m obj = listDel dev file obj := by
  simp only [listDelOwner, howner]

theorem inactive_used (s : Maps) (h : m.activeChannel = tpceMapInactive) :
    (fun c : Channel => if m.activeChannel = c.val then none else s.used c) = s.used := by
  funext c
  exact if_neg fun heq => inactive_ne c (h.symm.trans heq)

/-- An unmapped mapping takes only the channel with it that it is marked with. -/
theorem maps_unmap (hclean : Clean dev) (hcons : (maps dev).Consistent) (hm : dev.mapInfos obj = some m)
    (hunmap : tpceSafeDmaUnmap (listDelOwner dev m obj) obj = .ok dev') :
    maps dev' = (maps dev).unmap obj m := by
  have hdel := maps_listDelOwner dev m obj
  obtain ⟨sublist, hframe⟩ := listDelOwner_frame dev m obj
  have hm₁ : (listDelOwner dev m obj).mapInfos obj = some m := by
    rw [hframe]
    exact hm
  obtain ⟨m', hm', ⟨hbusy, hunlock⟩ | ⟨c, dev₁, -, hch, hreset, hunlock⟩⟩ := safeDmaUnmap_cases hunmap
  · rw [hm₁] at hm'
    cases hm'
    have hinactive : m.activeChannel = tpceMapInactive := by
      rcases hcons.marked obj m hm with hno | ⟨c, hact, -⟩
      · exact hno
      · rw [busy_of_active hact] at hbusy
        cases hbusy
    have hids : (listDelOwner dev m obj).dmaMappings = dev.dmaMappings := congrArg Maps.ids hdel
    have hinfos : (listDelOwner dev m obj).mapInfos = dev.mapInfos := congrArg Maps.infos hdel
    rw [maps_unlock hm₁ hunlock, hdel, hids, hinfos]
    simp only [Maps.unmap, inactive_used (maps dev) hinactive]
    rfl
  · rw [hm₁] at hm'
    cases hm'
    have hact : m.activeChannel = c.val := channelOf_eq_ok.mp hch
    have hused : (maps dev).used c = some obj := by
      rcases hcons.marked obj m hm with hno | ⟨c', hact', hused⟩
      · exact absurd (hno.symm.trans hact) (inactive_ne c)
      · rwa [mark_inj hact hact'] at hused
    have hclean₁ : Clean (listDelOwner dev m obj) := by
      rw [hframe]
      exact hclean.elsewhere rfl rfl
    have hmaps₁ : maps dev₁ = (maps (listDelOwner dev m obj)).reset c := by
      rw [maps_reset (hclean₁.abort c c) hreset, maps_abort]
    rw [hdel] at hmaps₁
    have hinfos₁ : dev₁.mapInfos =
        Function.update dev.mapInfos obj (some { m with activeChannel := tpceMapInactive }) := by
      have hinfos : dev₁.mapInfos = releasedInfos dev.mapInfos ((maps dev).used c) := congrArg Maps.infos hmaps₁
      rw [hinfos, hused]
      simp [releasedInfos, hm]
    have hids₁ : dev₁.dmaMappings = dev.dmaMappings := congrArg Maps.ids hmaps₁
    have hm₂ : dev₁.mapInfos obj = some { m with activeChannel := tpceMapInactive } := by
      rw [hinfos₁, Function.update_self]
    have hclears : Function.update (maps dev).used c none =
        fun c' : Channel => if m.activeChannel = c'.val then none else (maps dev).used c' := by
      funext c'
      by_cases hc : c' = c
      · subst hc
        rw [Function.update_self, if_pos hact]
      · rw [Function.update_of_ne hc, if_neg fun heq => hc (mark_inj hact heq)]
    rw [maps_unlock hm₂ hunlock, hmaps₁, hinfos₁, hids₁, Function.update_idem]
    simp only [Maps.unmap, Maps.reset]
    rw [← hclears]
    rfl

theorem maps_started {table : PageTable.AlteraPciePageTable} (hs : Started dev c table info dev') :
    maps dev' = maps dev := by
  have hset : maps ({ dev with pageTable := table, fastIrqMask := startMask dev c }.setInfo c info) =
      maps { dev with pageTable := table, fastIrqMask := startMask dev c } := maps_setInfo hs.same.mapInfo
  rw [hs.result]
  exact hset

theorem unmaps_release (hclean : Clean dev) (hcons : (maps dev).Consistent) {objs : List ℕ}
    (hlist : dev.dmaMapSublist file = objs) (hrelease : releaseMappings file dev objs = .ok dev') :
    Unmaps (fun m => m.owner = some file) (maps dev) (maps dev') ∧ (maps dev').lists file = [] := by
  induction objs generalizing dev with
  | nil =>
      cases hrelease
      exact ⟨.refl, hlist⟩
  | cons obj objs ih =>
      obtain ⟨dev₁, hunmap, hrest⟩ := bind_eq_ok.mp hrelease
      have hmem : obj ∈ (maps dev).lists file := by
        have hlists : (maps dev).lists file = obj :: objs := hlist
        rw [hlists]
        exact List.mem_cons_self
      obtain ⟨m, hm, howner⟩ := (hcons.owned file obj).mp hmem
      have hclean₁ := clean_of_tornDown (tornDown_unlisted hunmap) hclean
      rw [← listDelOwner_eq howner] at hunmap
      have hmaps := maps_unmap hclean hcons hm hunmap
      have hlist₁ : dev₁.dmaMapSublist file = objs := by
        have hlists : dev₁.dmaMapSublist = unlisted dev.dmaMapSublist m obj := congrArg Maps.lists hmaps
        rw [hlists, unlisted, if_pos howner, hlist, List.erase_cons_head]
      have hcons₁ := hcons.unmap hm
      rw [← hmaps] at hcons₁
      obtain ⟨hchain, hempty⟩ := ih hclean₁ hcons₁ hlist₁ hrest
      exact ⟨.head ⟨obj, m, hm, howner, hmaps⟩ hchain, hempty⟩

theorem resets_resetChannels (hclean : Clean dev) {cs : List Channel} (hreset : resetChannels dev cs = .ok dev') :
    Resets (maps dev) (maps dev') := by
  induction cs generalizing dev with
  | nil =>
      cases hreset
      exact .refl
  | cons c cs ih =>
      obtain ⟨dev₁, hfirst, hrest⟩ := bind_eq_ok.mp hreset
      exact .head ⟨c, maps_reset (hclean c) hfirst⟩ (ih (hclean.reset hfirst) hrest)

/-- While no channel points to a mapping, the removal only takes it off the
tables. -/
theorem maps_freed {dev₁ : TpceDev} (hcons : (maps dev).Consistent) (hunused : ∀ c, (maps dev).used c = none)
    (hm : dev.mapInfos obj = some m) (hunlock : tpceDmaUnlockUserBuffer (listDelOwner dev m obj) obj = .ok dev₁) :
    maps dev₁ = (maps dev).unmap obj m ∧ ∀ c, (maps dev₁).used c = none := by
  have hinactive : m.activeChannel = tpceMapInactive := by
    rcases hcons.marked obj m hm with hno | ⟨c, -, hused⟩
    · exact hno
    · exact absurd ((hunused c).symm.trans hused) (Option.some_ne_none obj).symm
  have hdel := maps_listDelOwner dev m obj
  have hinfos : (listDelOwner dev m obj).mapInfos = dev.mapInfos := congrArg Maps.infos hdel
  have hids : (listDelOwner dev m obj).dmaMappings = dev.dmaMappings := congrArg Maps.ids hdel
  have hmaps : maps dev₁ = (maps dev).unmap obj m := by
    rw [maps_unlock (by rw [hinfos]; exact hm) hunlock, hdel, hids, hinfos]
    simp only [Maps.unmap, inactive_used (maps dev) hinactive]
    rfl
  refine ⟨hmaps, fun c => ?_⟩
  rw [hmaps]
  exact (congrFun (inactive_used (maps dev) hinactive) c).trans (hunused c)

theorem unmaps_freeMappings (hcons : (maps dev).Consistent) (hunused : ∀ c, (maps dev).used c = none)
    {ids : List U32} (hfree : freeMappings dev ids = .ok dev') :
    Unmaps (fun _ => True) (maps dev) (maps dev') := by
  induction ids generalizing dev with
  | nil =>
      cases hfree
      exact .refl
  | cons id ids ih =>
      simp only [freeMappings] at hfree
      split at hfree
      · exact ih hcons hunused hfree
      · rename_i obj hobj
        obtain ⟨m, hm, hrest⟩ := bind_eq_ok.mp hfree
        obtain ⟨dev₁, hunlock, hrest⟩ := bind_eq_ok.mp hrest
        have hm := mapInfo_eq_ok.mp hm
        obtain ⟨hmaps, hunused₁⟩ := maps_freed hcons hunused hm hunlock
        have hcons₁ := hcons.unmap hm
        rw [← hmaps] at hcons₁
        exact .head ⟨obj, m, hm, True.intro, hmaps⟩ (ih hcons₁ hunused₁ hrest)

theorem Resets.consistent (h : Resets s s') (hcons : s.Consistent) : s'.Consistent := by
  induction h with
  | refl => exact hcons
  | tail _ hlast ih =>
      obtain ⟨c, rfl⟩ := hlast
      exact ih.reset c

theorem Unmaps.consistent {P : TpceDmaMapInfo → Prop} (h : Unmaps P s s') (hcons : s.Consistent) :
    s'.Consistent := by
  induction h with
  | refl => exact hcons
  | tail _ hlast ih =>
      obtain ⟨obj, m, hm, -, rfl⟩ := hlast
      exact ih.unmap hm

theorem MapsEffect.consistent (h : MapsEffect s op s') (hcons : s.Consistent) : s'.Consistent := by
  cases h with
  | same => exact hcons
  | locked file lockEnv bufferInfo m free range owner direction inactive => exact hcons.lock free range owner inactive
  | accepted _ c obj m live free => exact hcons.accept live free
  | failed _ c obj m live free => exact (hcons.accept live free).reset c
  | reset _ c => exact hcons.reset c
  | unlocked file id obj m mapping live owner => exact hcons.unmap live
  | released file _ unmaps empty => exact unmaps.consistent hcons
  | removed s₁ _ resets unmaps => exact unmaps.consistent (resets.consistent hcons)

theorem xaFreeId_range {id : U32} (h : xaFreeId dev = some id) : 1 ≤ id.toNat ∧ id.toNat ≤ tpceDmaMapIdMax := by
  obtain ⟨n, hn, rfl⟩ := List.mem_map.mp (List.mem_of_find?_eq_some h)
  obtain ⟨hlow, hhigh⟩ := List.mem_range'_1.mp hn
  have hmax : tpceDmaMapIdMax = 31 := rfl
  rw [BitVec.toNat_ofNat, Nat.mod_eq_of_lt (by omega)]
  omega

theorem MapsEffect.of_eq (op : Op) (h : maps dev' = maps dev) : MapsEffect (maps dev) op (maps dev') := by
  rw [h]
  exact .same op

theorem lock_effect {lockEnv : LockEnv} {bufferInfo : TpceDmaBufIn}
    (hstep : step dev (.lockBuffer file lockEnv bufferInfo) = some dev') :
    MapsEffect (maps dev) (.lockBuffer file lockEnv bufferInfo) (maps dev') := by
  obtain ⟨-, out, h⟩ := step_eq_some.mp hstep
  simp only [perform] at h
  split at h
  · cases h
    exact .same _
  rcases lockBuffer_cases h with rfl | ⟨id, hid, rfl⟩
  · exact .same _
  · exact .locked file lockEnv bufferInfo { lockedMapInfo lockEnv dev bufferInfo id with owner := some file }
      (xaFreeId_free hid) (xaFreeId_range hid) rfl rfl rfl

theorem unlock_effect (hclean : Clean dev) (hcons : (maps dev).Consistent) {id : U32}
    (hstep : step dev (.unlockBuffer file id) = some dev') :
    MapsEffect (maps dev) (.unlockBuffer file id) (maps dev') := by
  obtain ⟨-, out, h⟩ := step_eq_some.mp hstep
  simp only [perform] at h
  split at h
  · cases h
    exact .same _
  simp only [iocUnlockDmaBuffer] at h
  split at h
  · cases h
    exact .same _
  · rename_i obj hobj
    obtain ⟨m, hm, h⟩ := bind_eq_ok.mp h
    have hm := mapInfo_eq_ok.mp hm
    split at h
    · cases h
      exact .same _
    · rename_i howner
      have howner := not_not.mp howner
      obtain ⟨dev₁, hunmap, h⟩ := bind_eq_ok.mp h
      cases h
      rw [← listDelOwner_eq howner] at hunmap
      rw [maps_unmap hclean hcons hm hunmap]
      exact .unlocked file id obj m hobj hm howner

theorem execute_effect (op : Op) (hclean : Clean dev) (hc : c.val = req.params.channel.toNat)
    (hidle : (dev.dmaInfo c).state = .idle) (hexec : Executed env dev c req dev') :
    MapsEffect (maps dev) op (maps dev') := by
  have hfree : (maps dev).used c = none := (hclean c).idle.mp hidle
  cases hexec with
  | refused ret info refusal negative same state =>
      exact .of_eq op (maps_setInfo same.mapInfo)
  | failed obj m prep info info₂ table dev₁ dev₂ _ accepted start started state reset =>
      have hbusy : info₂.state ≠ .idle := by
        rcases state with hst | hst
        · simp [hst]
        · simp [hst]
      have hmaps₂ : maps dev₂ = (maps dev).accept c obj m := by
        rw [maps_started started]
        exact maps_accept accepted
      rw [maps_reset (hclean.started hc accepted started hbusy c) reset, hmaps₂]
      exact .failed op c obj m accepted.live hfree
  | running obj m prep info info₂ table dev₁ dev₂ accepted start started state =>
      have hmaps₂ : maps dev₂ = (maps dev).accept c obj m := by
        rw [maps_started started]
        exact maps_accept accepted
      have heffect := MapsEffect.accepted op c obj m accepted.live hfree
      rw [← hmaps₂] at heffect
      exact heffect

theorem maps_freeDescriptors (hidle : ∀ c, (dev.dmaInfo c).state = .idle) (cs : List Channel) :
    maps (cs.foldl tpceDmaFreeDescriptorsMem dev) = maps dev := by
  obtain ⟨infos, heq, hsame⟩ := freeDescriptors_frame cs hidle
  have hused : ∀ c, (infos c).mapInfo = (dev.dmaInfo c).mapInfo := fun c => (hsame c).1.mapInfo
  rw [heq]
  simp only [maps, hused]

theorem remove_effect (hclean : Clean dev) (hcons : (maps dev).Consistent) {out : Outcome}
    (h : finishRemove dev = .ok (out, dev')) : MapsEffect (maps dev) .remove (maps dev') := by
  obtain ⟨dev₁, dev₂, hreset, hidle, hfree, rfl⟩ := finishRemove_cases h
  have hresets := resets_resetChannels hclean hreset
  have hclean₁ := clean_of_tornDown (tornDown_resetChannels hreset) hclean
  have hunused : ∀ c, (maps dev₁).used c = none := fun c => (hclean₁ c).idle.mp (hidle c)
  have hunmaps := unmaps_freeMappings (hresets.consistent hcons) hunused hfree
  have hinfo := (freeMappings_frame hfree).dmaInfo
  rw [maps_freeDescriptors fun c => hinfo ▸ hidle c]
  exact .removed _ _ hresets hunmaps

/-- Every call does to the mappings what the abstract steps allow. -/
theorem step_maps (hclean : Clean dev) (hcons : (maps dev).Consistent) (hstep : step dev op = some dev') :
    MapsEffect (maps dev) op (maps dev') := by
  cases step_effect hstep with
  | nothing => exact .same op
  | opened => exact .same _
  | locked file lockEnv bufferInfo id free => exact lock_effect hstep
  | unlocked file id obj _ unmap => exact unlock_effect hclean hcons hstep
  | executed _ env req fileCtx c m _ present mutex validated valid execute =>
      exact execute_effect op hclean valid.channel valid.idle execute
  | cancelled file channel c _ reset =>
      rw [maps_reset (hclean.abort c c) reset, maps_abort]
      exact .reset _ c
  | woken w c _ waiting reset =>
      have hwoken : Clean { dev with waiting := none } := hclean.elsewhere rfl rfl
      rw [maps_reset (hwoken c) reset]
      exact .reset _ c
  | completed c mode running => exact .of_eq _ (maps_setInfo rfl)
  | released file dev₁ release =>
      obtain ⟨hunmaps, hempty⟩ := unmaps_release hclean hcons rfl release
      exact .released file _ hunmaps hempty
  | leaked file env c => exact .same _
  | returned file env c info stream => exact .of_eq _ (maps_setInfo (sameLinks_mmap stream).1)
  | mapped file env c info stream =>
      have hset : maps (dev.setInfo c info) = maps dev := maps_setInfo (sameLinks_mmap stream).1
      exact .of_eq _ hset
  | vmaOpened c area =>
      have hset : maps (dev.setInfo c (incStreamRefs (dev.dmaInfo c))) = maps dev := maps_setInfo rfl
      exact .of_eq _ hset
  | vmaClosed c area =>
      have hset : maps (dev.setInfo c (tpceFreeStreamInfo (dev.dmaInfo c))) = maps dev := maps_setInfo rfl
      exact .of_eq _ hset
  | wentAway => exact .same _
  | removed out _ remove => exact remove_effect hclean hcons remove

end TpceDrv.MappingEffects
