import TpceDrv.BetweenCalls
import TpceDrv.PageTableFaults

namespace TpceDrv.MappingInUse

open Descriptor DmaInfo Mapping Device ChannelControl ChannelSteps Requests Driver RequestSteps Effects
open Teardown BetweenCalls Library

variable {env : InitEnv} {dev dev' : TpceDev} {c : Channel} {req : TpceDmaRequest} {obj : ℕ}

/-- A channel that is set up or running has its mapping registered and marked
with the channel, no channel points to a mapping that is gone, and none was
ever unmapped in use. -/
structure InUse (dev : TpceDev) : Prop where
  marked : ∀ c obj, (dev.dmaInfo c).mapInfo = some obj →
    ((dev.dmaInfo c).state = .initialized ∨ (dev.dmaInfo c).state = .running) →
      ∃ m, dev.Registered obj m ∧ m.activeChannel = c.val
  noDangling : ∀ c obj, (dev.dmaInfo c).mapInfo = some obj → ∃ m, dev.Registered obj m
  neverUnmapped : dev.unmappedInUse = false

/-- The link between mappings and channels, from both sides. -/
structure Linked (dev : TpceDev) : Prop where
  live : ∀ obj m, dev.mapInfos obj = some m → dev.dmaMappings m.id = some obj
  registered : ∀ id obj, dev.dmaMappings id = some obj → ∃ m, dev.mapInfos obj = some m ∧ m.id = id
  fresh : ∀ obj, dev.nextObj ≤ obj → dev.mapInfos obj = none
  forward : ∀ c obj, (dev.dmaInfo c).mapInfo = some obj →
    ∃ m, dev.mapInfos obj = some m ∧ m.activeChannel = c.val
  backward : ∀ obj m, dev.mapInfos obj = some m → m.activeChannel = tpceMapInactive ∨
    ∃ c : Channel, m.activeChannel = c.val ∧ (dev.dmaInfo c).mapInfo = some obj
  idle : ∀ c, (dev.dmaInfo c).state = .idle ↔ (dev.dmaInfo c).mapInfo = none
  neverUnmapped : dev.unmappedInUse = false

theorem Linked.inUse (h : Linked dev) : InUse dev where
  marked := fun c obj hobj _ =>
    (h.forward c obj hobj).imp fun m hm => ⟨⟨hm.1, h.live obj m hm.1⟩, hm.2⟩
  noDangling := fun c obj hobj => (h.forward c obj hobj).imp fun m hm => ⟨hm.1, h.live obj m hm.1⟩
  neverUnmapped := h.neverUnmapped

/-- Changes that touch neither the mappings nor what the channels point to. -/
structure SameLinks (dev dev' : TpceDev) : Prop where
  dmaMappings : dev'.dmaMappings = dev.dmaMappings
  mapInfos : dev'.mapInfos = dev.mapInfos
  nextObj : dev'.nextObj = dev.nextObj
  unmappedInUse : dev'.unmappedInUse = dev.unmappedInUse
  mapInfo : ∀ c, (dev'.dmaInfo c).mapInfo = (dev.dmaInfo c).mapInfo
  idle : ∀ c, (dev'.dmaInfo c).state = .idle ↔ (dev.dmaInfo c).state = .idle

theorem Linked.congr (h : Linked dev) (hs : SameLinks dev dev') : Linked dev' := by
  refine ⟨?_, ?_, ?_, fun c => ?_, fun obj m => ?_, fun c => ?_, hs.unmappedInUse.trans h.neverUnmapped⟩
  · rw [hs.dmaMappings, hs.mapInfos]
    exact h.live
  · rw [hs.dmaMappings, hs.mapInfos]
    exact h.registered
  · rw [hs.nextObj, hs.mapInfos]
    exact h.fresh
  · rw [hs.mapInfo, hs.mapInfos]
    exact h.forward c
  · rw [hs.mapInfos]
    intro hm
    refine (h.backward obj m hm).imp id fun ⟨c, hc, hobj⟩ => ⟨c, hc, ?_⟩
    rw [hs.mapInfo]
    exact hobj
  · rw [hs.idle, hs.mapInfo]
    exact h.idle c

theorem SameLinks.setInfo (dev : TpceDev) (c : Channel) (info : TpceDmaInfo)
    (hmap : info.mapInfo = (dev.dmaInfo c).mapInfo)
    (hidle : info.state = .idle ↔ (dev.dmaInfo c).state = .idle) : SameLinks dev (dev.setInfo c info) := by
  refine ⟨rfl, rfl, rfl, rfl, fun c' => ?_, fun c' => ?_⟩
  · by_cases hc : c' = c
    · subst hc
      simpa using hmap
    · rw [setInfo_dmaInfo_ne dev info hc]
  · by_cases hc : c' = c
    · subst hc
      simpa using hidle
    · rw [setInfo_dmaInfo_ne dev info hc]

theorem sameLinks_abort (dev : TpceDev) (c : Channel) : SameLinks dev (tpceDmaAbort dev c) := by
  rw [abort_eq]
  have hset := SameLinks.setInfo dev c { dev.dmaInfo c with state := abortedState (dev.dmaInfo c).state }
    rfl abortedState_idle
  exact ⟨rfl, rfl, rfl, rfl, hset.mapInfo, hset.idle⟩

/-- One mapping and one channel are linked or unlinked, when neither has
another partner. -/
theorem Linked.relink {m : TpceDmaMapInfo} {a : ℤ} {info : TpceDmaInfo} (h : Linked dev)
    (hm : dev.mapInfos obj = some m) (hmaps : dev'.dmaMappings = dev.dmaMappings)
    (hinfos : dev'.mapInfos = Function.update dev.mapInfos obj (some { m with activeChannel := a }))
    (hnext : dev'.nextObj = dev.nextObj) (hghost : dev'.unmappedInUse = dev.unmappedInUse)
    (hchannels : dev'.dmaInfo = Function.update dev.dmaInfo c info)
    (halone : ∀ c', c' ≠ c → (dev.dmaInfo c').mapInfo ≠ some obj)
    (honly : ∀ obj', obj' ≠ obj → (dev.dmaInfo c).mapInfo ≠ some obj')
    (hlink : (info.mapInfo = some obj ∧ a = c.val ∧ info.state ≠ .idle) ∨
      (info.mapInfo = none ∧ a = tpceMapInactive ∧ info.state = .idle)) : Linked dev' := by
  have hself : dev'.dmaInfo c = info := by
    rw [hchannels]
    exact Function.update_self ..
  have hothers : ∀ c', c' ≠ c → dev'.dmaInfo c' = dev.dmaInfo c' := fun c' hc => by
    rw [hchannels]
    exact Function.update_of_ne hc ..
  have hobj : dev'.mapInfos obj = some { m with activeChannel := a } := by
    rw [hinfos]
    exact Function.update_self ..
  have hobjs : ∀ obj', obj' ≠ obj → dev'.mapInfos obj' = dev.mapInfos obj' := fun obj' hne => by
    rw [hinfos]
    exact Function.update_of_ne hne ..
  refine ⟨fun obj' m' hm' => ?_, fun id obj' hid => ?_, fun obj' hle => ?_, fun c' obj' hc' => ?_,
    fun obj' m' hm' => ?_, fun c' => ?_, hghost.trans h.neverUnmapped⟩
  · rw [hmaps]
    by_cases hne : obj' = obj
    · subst hne
      obtain rfl := Option.some.inj (hobj.symm.trans hm')
      exact h.live obj' m hm
    · exact h.live obj' m' (hobjs obj' hne ▸ hm')
  · rw [hmaps] at hid
    obtain ⟨m', hm', rfl⟩ := h.registered id obj' hid
    by_cases hne : obj' = obj
    · subst hne
      obtain rfl := Option.some.inj (hm.symm.trans hm')
      exact ⟨_, hobj, rfl⟩
    · exact ⟨m', (hobjs obj' hne).trans hm', rfl⟩
  · rw [hnext] at hle
    have hne : obj' ≠ obj := fun heq => by
      have := h.fresh obj' hle
      rw [heq, hm] at this
      cases this
    exact (hobjs obj' hne).trans (h.fresh obj' hle)
  · by_cases hc : c' = c
    · subst hc
      rw [hself] at hc'
      rcases hlink with ⟨hmap, rfl, -⟩ | ⟨hmap, -, -⟩
      · obtain rfl := Option.some.inj (hmap.symm.trans hc')
        exact ⟨_, hobj, rfl⟩
      · exact absurd (hc'.symm.trans hmap) (Option.some_ne_none obj')
    · rw [hothers c' hc] at hc'
      obtain ⟨m', hm', hact⟩ := h.forward c' obj' hc'
      have hne : obj' ≠ obj := fun heq => halone c' hc (heq ▸ hc')
      exact ⟨m', (hobjs obj' hne).trans hm', hact⟩
  · by_cases hne : obj' = obj
    · subst hne
      obtain rfl := Option.some.inj (hobj.symm.trans hm')
      rcases hlink with ⟨hmap, hact, -⟩ | ⟨-, hact, -⟩
      · exact .inr ⟨c, hact, hself ▸ hmap⟩
      · exact .inl hact
    · rw [hobjs obj' hne] at hm'
      refine (h.backward obj' m' hm').imp id fun ⟨c', hact, hc'⟩ => ⟨c', hact, ?_⟩
      have hc : c' ≠ c := fun heq => honly obj' hne (heq ▸ hc')
      rw [hothers c' hc]
      exact hc'
  · by_cases hc : c' = c
    · subst hc
      rw [hself]
      rcases hlink with ⟨hmap, -, hst⟩ | ⟨hmap, -, hst⟩
      · simp [hmap, hst]
      · simp [hmap, hst]
    · rw [hothers c' hc]
      exact h.idle c'

theorem inactive_ne (c : Channel) : tpceMapInactive ≠ c.val := by
  simp only [tpceMapInactive]
  omega

theorem Linked.accept {m : TpceDmaMapInfo} {prep info : TpceDmaInfo} (h : Linked dev)
    (hidle : (dev.dmaInfo c).state = .idle) (hacc : Initialized env dev c req obj m prep info dev')
    (hfree : m.activeChannel = tpceMapInactive) : Linked dev' := by
  obtain rfl := hacc.result
  have hnone : (dev.dmaInfo c).mapInfo = none := (h.idle c).mp hidle
  refine h.relink hacc.live rfl rfl rfl rfl rfl (fun c' _ hc' => ?_) (fun obj' _ hc' => ?_)
    (.inl ⟨rfl, rfl, fun h => by cases h⟩)
  · obtain ⟨m', hm', hact⟩ := h.forward c' obj hc'
    obtain rfl := Option.some.inj (hacc.live.symm.trans hm')
    exact inactive_ne c' (hfree.symm.trans hact)
  · exact absurd (hnone.symm.trans hc') (Option.some_ne_none obj').symm

theorem Linked.reset (h : Linked dev) (hreset : resetDmaInfo dev c = .ok dev') :
    Linked dev' ∧ ∀ obj m, dev.mapInfos obj = some m → m.activeChannel = c.val →
      ∃ m', dev'.mapInfos obj = some m' ∧ m'.activeChannel = tpceMapInactive := by
  have hback : ∀ obj m, dev.mapInfos obj = some m → m.activeChannel = c.val →
      (dev.dmaInfo c).mapInfo = some obj := by
    intro obj m hm hact
    rcases h.backward obj m hm with hno | ⟨c', hact', hc'⟩
    · exact absurd (hno.symm.trans hact) (inactive_ne c)
    · obtain rfl : c' = c := Fin.ext (by omega)
      exact hc'
  rcases resetDmaInfo_spec hreset with ⟨hidle, rfl⟩ | ⟨hidle, -, rfl⟩
  · refine ⟨h, fun obj m hm hact => ?_⟩
    rw [(h.idle c).mp hidle] at hback
    exact absurd (hback obj m hm hact).symm (Option.some_ne_none obj)
  cases hobj : (dev.dmaInfo c).mapInfo with
  | none => exact absurd ((h.idle c).mpr hobj) hidle
  | some obj =>
      obtain ⟨m, hm, hact⟩ := h.forward c obj hobj
      have hinfos : releasedInfos dev.mapInfos (some obj) =
          Function.update dev.mapInfos obj (some { m with activeChannel := tpceMapInactive }) := by
        simp [releasedInfos, hm]
      refine ⟨h.relink hm rfl hinfos rfl rfl rfl (fun c' hc hc' => ?_) (fun obj' hne hc' => ?_)
        (.inr ⟨rfl, rfl, rfl⟩), fun obj' m' hm' hact' => ?_⟩
      · obtain ⟨m', hm', hact'⟩ := h.forward c' obj hc'
        obtain rfl := Option.some.inj (hm.symm.trans hm')
        exact hc (Fin.ext (by omega))
      · exact hne (Option.some.inj (hobj.symm.trans hc')).symm
      · obtain rfl : obj' = obj := Option.some.inj ((hback obj' m' hm' hact').symm.trans hobj)
        exact ⟨{ m with activeChannel := tpceMapInactive }, by simp [hinfos], rfl⟩

theorem Linked.unlock {m : TpceDmaMapInfo} (h : Linked dev) (hm : dev.mapInfos obj = some m)
    (hfree : m.activeChannel = tpceMapInactive) (hunlock : tpceDmaUnlockUserBuffer dev obj = .ok dev') :
    Linked dev' := by
  obtain ⟨m', hm', rfl⟩ := unlockUserBuffer_spec hunlock
  obtain rfl := Option.some.inj (hm.symm.trans hm')
  have hnot : ∀ c, (dev.dmaInfo c).mapInfo ≠ some obj := by
    intro c hc
    obtain ⟨m', hm', hact⟩ := h.forward c obj hc
    obtain rfl := Option.some.inj (hm.symm.trans hm')
    rw [hfree] at hact
    exact absurd hact (by unfold tpceMapInactive; omega)
  have hunused : Requests.inUse dev obj = false := by
    simp [Requests.inUse, hnot]
  have hid : ∀ obj' m', obj' ≠ obj → dev.mapInfos obj' = some m' → m'.id ≠ m.id := fun obj' m' hne hm' heq => by
    have := (h.live obj' m' hm').symm.trans (heq ▸ h.live obj m hm)
    exact hne (Option.some.inj this)
  refine ⟨fun obj' m' hm' => ?_, fun id obj' hid' => ?_, fun obj' hle => ?_, fun c' obj' hc' => ?_,
    fun obj' m' hm' => ?_, h.idle, by simp [hunused, h.neverUnmapped]⟩
  · have hne : obj' ≠ obj := fun heq => by
      subst heq
      simp at hm'
    have hm' : dev.mapInfos obj' = some m' := by simpa [hne] using hm'
    exact (Function.update_of_ne (hid obj' m' hne hm') ..).trans (h.live obj' m' hm')
  · have hne : id ≠ m.id := fun heq => by
      subst heq
      simp at hid'
    have hid' : dev.dmaMappings id = some obj' := by simpa [hne] using hid'
    obtain ⟨m', hlive, rfl⟩ := h.registered id obj' hid'
    have hne' : obj' ≠ obj := fun heq => by
      subst heq
      exact hne (congrArg TpceDmaMapInfo.id (Option.some.inj (hlive.symm.trans hm)))
    exact ⟨m', (Function.update_of_ne hne' ..).trans hlive, rfl⟩
  · by_cases hne : obj' = obj
    · subst hne
      exact Function.update_self ..
    · exact (Function.update_of_ne hne ..).trans (h.fresh obj' hle)
  · obtain ⟨m', hm', hact⟩ := h.forward c' obj' hc'
    have hne : obj' ≠ obj := fun heq => hnot c' (heq ▸ hc')
    exact ⟨m', (Function.update_of_ne hne ..).trans hm', hact⟩
  · have hne : obj' ≠ obj := fun heq => by
      subst heq
      simp at hm'
    exact h.backward obj' m' (by simpa [hne] using hm')

theorem busy_of_active {m : TpceDmaMapInfo} (h : m.activeChannel = c.val) : mappingIsBusy m = true := by
  have hc := c.isLt
  unfold mappingIsBusy tpceMapInactive tpceDmaNumChannels
  rw [if_neg (by omega), h]
  simp

theorem Linked.unmap (h : Linked dev) (hunmap : tpceSafeDmaUnmap dev obj = .ok dev') : Linked dev' := by
  obtain ⟨m, hm, ⟨hbusy, hunlock⟩ | ⟨c, dev₁, -, hch, hreset, hunlock⟩⟩ := safeDmaUnmap_cases hunmap
  · rcases h.backward obj m hm with hfree | ⟨c, hact, -⟩
    · exact h.unlock hm hfree hunlock
    · rw [busy_of_active hact] at hbusy
      cases hbusy
  · have hsame := sameLinks_abort dev c
    obtain ⟨hlinked, hreleased⟩ := (h.congr hsame).reset hreset
    obtain ⟨m', hm', hfree⟩ := hreleased obj m (hsame.mapInfos ▸ hm) (channelOf_eq_ok.mp hch)
    exact hlinked.unlock hm' hfree hunlock

theorem Linked.listDel (h : Linked dev) (file obj : ℕ) : Linked (Requests.listDel dev file obj) :=
  h.congr ⟨rfl, rfl, rfl, rfl, fun _ => rfl, fun _ => Iff.rfl⟩

theorem Linked.release {file : ℕ} {objs : List ℕ} (h : Linked dev)
    (hrelease : releaseMappings file dev objs = .ok dev') : Linked dev' := by
  induction objs generalizing dev with
  | nil =>
      cases hrelease
      exact h
  | cons obj objs ih =>
      obtain ⟨dev₁, hunmap, hrest⟩ := bind_eq_ok.mp hrelease
      exact ih ((h.listDel file obj).unmap hunmap) hrest

theorem Linked.resetChannels {cs : List Channel} (h : Linked dev)
    (hreset : Requests.resetChannels dev cs = .ok dev') : Linked dev' := by
  induction cs generalizing dev with
  | nil =>
      cases hreset
      exact h
  | cons c cs ih =>
      obtain ⟨dev₁, hfirst, hrest⟩ := bind_eq_ok.mp hreset
      exact ih (h.reset hfirst).1 hrest

/-- While all channels are idle no mapping is active, and all can be freed. -/
theorem Linked.freeMappings {ids : List U32} (h : Linked dev) (hidle : ∀ c, (dev.dmaInfo c).state = .idle)
    (hfree : Requests.freeMappings dev ids = .ok dev') : Linked dev' := by
  induction ids generalizing dev with
  | nil =>
      cases hfree
      exact h
  | cons id ids ih =>
      simp only [Requests.freeMappings] at hfree
      split at hfree
      · exact ih h hidle hfree
      · rename_i obj hobj
        obtain ⟨m, hm, hrest⟩ := bind_eq_ok.mp hfree
        obtain ⟨dev₁, hunlock, hrest⟩ := bind_eq_ok.mp hrest
        obtain ⟨sublist, hdel⟩ := listDelOwner_frame dev m obj
        rw [hdel] at hunlock
        have hm := mapInfo_eq_ok.mp hm
        have hinactive : m.activeChannel = tpceMapInactive := by
          rcases h.backward obj m hm with hno | ⟨c, -, hc⟩
          · exact hno
          · exact absurd (((h.idle c).mp (hidle c)).symm.trans hc).symm (Option.some_ne_none obj)
        have hdeleted : Linked { dev with dmaMapSublist := sublist } :=
          h.congr ⟨rfl, rfl, rfl, rfl, fun _ => rfl, fun _ => Iff.rfl⟩
        have hlinked := hdeleted.unlock hm hinactive hunlock
        obtain ⟨m', -, rfl⟩ := unlockUserBuffer_spec hunlock
        exact ih hlinked hidle hrest

theorem Linked.remove {out : Outcome} (h : Linked dev) (hremove : finishRemove dev = .ok (out, dev')) :
    Linked dev' := by
  obtain ⟨dev₁, dev₂, hreset, hidle, hfree, rfl⟩ := finishRemove_cases hremove
  have hlinked := (h.resetChannels hreset).freeMappings hidle hfree
  have hinfo := (freeMappings_frame hfree).dmaInfo
  obtain ⟨infos, heq, hsame⟩ := freeDescriptors_frame (List.finRange 3) fun c => hinfo ▸ hidle c
  rw [heq]
  refine hlinked.congr ⟨rfl, rfl, rfl, rfl, fun c => (hsame c).1.mapInfo, fun c => ?_⟩
  rw [hinfo]
  exact iff_of_true (hsame c).2 (hidle c)

theorem Linked.lock {id : U32} {m : TpceDmaMapInfo} (h : Linked dev) (hid : dev.dmaMappings id = none)
    (hm : m.id = id) (hfree : m.activeChannel = tpceMapInactive)
    (hmaps : dev'.dmaMappings = Function.update dev.dmaMappings id (some dev.nextObj))
    (hinfos : dev'.mapInfos = Function.update dev.mapInfos dev.nextObj (some m))
    (hnext : dev'.nextObj = dev.nextObj + 1) (hghost : dev'.unmappedInUse = dev.unmappedInUse)
    (hchannels : dev'.dmaInfo = dev.dmaInfo) : Linked dev' := by
  have hold : ∀ obj m', dev.mapInfos obj = some m' → obj ≠ dev.nextObj := fun obj m' hlive heq => by
    rw [heq, h.fresh _ (Nat.le_refl _)] at hlive
    cases hlive
  have hkeep : ∀ obj m', dev.mapInfos obj = some m' → dev'.mapInfos obj = some m' := fun obj m' hlive => by
    rw [hinfos, Function.update_of_ne (hold obj m' hlive)]
    exact hlive
  refine ⟨fun obj m' hlive => ?_, fun id' obj hreg => ?_, fun obj hle => ?_, fun c obj hc => ?_,
    fun obj m' hlive => ?_, fun c => ?_, hghost.trans h.neverUnmapped⟩
  · rw [hinfos] at hlive
    rw [hmaps]
    by_cases hobj : obj = dev.nextObj
    · subst hobj
      rw [Function.update_self] at hlive
      obtain rfl := Option.some.inj hlive
      rw [hm, Function.update_self]
    · have hlive' : dev.mapInfos obj = some m' := (Function.update_of_ne hobj ..).symm.trans hlive
      have hreg := h.live obj m' hlive'
      have hne : m'.id ≠ id := fun heq => by
        rw [heq, hid] at hreg
        cases hreg
      rw [Function.update_of_ne hne]
      exact hreg
  · rw [hmaps] at hreg
    by_cases hne : id' = id
    · subst hne
      rw [Function.update_self] at hreg
      obtain rfl := Option.some.inj hreg
      exact ⟨m, by rw [hinfos]; exact Function.update_self .., hm⟩
    · obtain ⟨m', hlive, hid'⟩ := h.registered id' obj ((Function.update_of_ne hne ..).symm.trans hreg)
      exact ⟨m', hkeep obj m' hlive, hid'⟩
  · rw [hnext] at hle
    rw [hinfos, Function.update_of_ne (by omega)]
    exact h.fresh obj (by omega)
  · rw [hchannels] at hc
    obtain ⟨m', hlive, hact⟩ := h.forward c obj hc
    exact ⟨m', hkeep obj m' hlive, hact⟩
  · rw [hinfos] at hlive
    rw [hchannels]
    by_cases hobj : obj = dev.nextObj
    · subst hobj
      rw [Function.update_self] at hlive
      obtain rfl := Option.some.inj hlive
      exact .inl hfree
    · exact h.backward obj m' ((Function.update_of_ne hobj ..).symm.trans hlive)
  · rw [hchannels]
    exact h.idle c

/-- The request of a call names a mapping that is inactive, if the driver
accepts it. -/
def NamesInactive (dev : TpceDev) (op : Op) : Prop :=
  ∀ env req c m, Accepted dev op env req c → xaLoad dev req.id = some m →
    m.activeChannel = tpceMapInactive

theorem sameLinks_started {table : PageTable.AlteraPciePageTable} {info : TpceDmaInfo}
    (hs : Started dev c table info dev') (hold : (dev.dmaInfo c).state ≠ .idle) (hnew : info.state ≠ .idle) :
    SameLinks dev dev' := by
  have hset := SameLinks.setInfo dev c info hs.same.mapInfo (iff_of_false hnew hold)
  rw [hs.result]
  exact ⟨rfl, rfl, rfl, rfl, hset.mapInfo, hset.idle⟩

theorem Linked.execute (h : Linked dev) (hidle : (dev.dmaInfo c).state = .idle)
    (hfree : ∀ m dev₁, initDmaInfo env dev c req = .ok (c.val, dev₁) → xaLoad dev req.id = some m →
      m.activeChannel = tpceMapInactive)
    (hexec : Executed env dev c req dev') : Linked dev' := by
  cases hexec with
  | refused ret info refusal negative same state =>
      exact h.congr (SameLinks.setInfo dev c info same.mapInfo (by rw [state]))
  | failed obj m prep info info₂ table dev₁ dev₂ _ accepted start started state reset =>
      have hlinked := h.accept hidle accepted (hfree m dev₁ accepted.accepted (xaLoad_of_initialized accepted))
      have hinit := initialized_state accepted
      refine ((hlinked.congr (sameLinks_started started (by rw [hinit]; decide) ?_)).reset reset).1
      rcases state with hst | hst
      · rw [hst]
        decide
      · rw [hst]
        decide
  | running obj m prep info info₂ table dev₁ dev₂ accepted start started state =>
      have hlinked := h.accept hidle accepted (hfree m dev₁ accepted.accepted (xaLoad_of_initialized accepted))
      have hinit := initialized_state accepted
      have hrun := hlinked.congr (sameLinks_started started (by rw [hinit]; decide) (by rw [state]; decide))
      exact hrun.congr ⟨rfl, rfl, rfl, rfl, fun _ => rfl, fun _ => Iff.rfl⟩

theorem sameLinks_mmap {vmallocOk : Bool} {info : TpceDmaInfo}
    (h : mmapStreamInfo vmallocOk (dev.dmaInfo c) = (0, info)) :
    info.mapInfo = (dev.dmaInfo c).mapInfo ∧ info.state = (dev.dmaInfo c).state := by
  obtain ⟨-, hinfo, -⟩ := (mmapStreamInfo_spec h).resolve_left fun h => absurd h.1 (by decide)
  rw [hinfo]
  exact ⟨rfl, rfl⟩

theorem step_linked {op : Op} (h : Linked dev) (hnames : NamesInactive dev op)
    (hstep : step dev op = some dev') : Linked dev' := by
  cases step_effect hstep with
  | nothing => exact h
  | opened => exact h.congr ⟨rfl, rfl, rfl, rfl, fun _ => rfl, fun _ => Iff.rfl⟩
  | locked file lockEnv bufferInfo id free => exact h.lock free rfl rfl rfl rfl rfl rfl rfl
  | unlocked file id obj _ unmap => exact (h.listDel file obj).unmap unmap
  | executed _ env req fileCtx c m _ present mutex validated valid execute =>
      exact h.execute valid.idle (fun m' dev₁ hinit hload => hnames env req c m'
        ⟨present, validated, valid.channel, c.val, dev₁, hinit, by omega⟩ hload) execute
  | cancelled file channel c _ reset => exact ((h.congr (sameLinks_abort dev c)).reset reset).1
  | woken w c _ waiting reset =>
      have hwoken : Linked { dev with waiting := none } :=
        h.congr ⟨rfl, rfl, rfl, rfl, fun _ => rfl, fun _ => Iff.rfl⟩
      exact (hwoken.reset reset).1
  | completed c mode running =>
      exact h.congr (SameLinks.setInfo dev c { dev.dmaInfo c with state := .complete } rfl
        (by simp [running]))
  | released file dev₁ release =>
      exact (h.release release).congr ⟨rfl, rfl, rfl, rfl, fun _ => rfl, fun _ => Iff.rfl⟩
  | leaked file env c => exact h.congr ⟨rfl, rfl, rfl, rfl, fun _ => rfl, fun _ => Iff.rfl⟩
  | returned file env c info stream =>
      obtain ⟨hmap, hstate⟩ := sameLinks_mmap stream
      exact h.congr (SameLinks.setInfo dev c (tpceFreeStreamInfo info) hmap (by rw [← hstate]; rfl))
  | mapped file env c info stream =>
      obtain ⟨hmap, hstate⟩ := sameLinks_mmap stream
      have hset := SameLinks.setInfo dev c info hmap (by rw [hstate])
      exact h.congr ⟨rfl, rfl, rfl, rfl, hset.mapInfo, hset.idle⟩
  | vmaOpened c area =>
      have hset := SameLinks.setInfo dev c (incStreamRefs (dev.dmaInfo c)) rfl Iff.rfl
      exact h.congr ⟨rfl, rfl, rfl, rfl, hset.mapInfo, hset.idle⟩
  | vmaClosed c area =>
      have hset := SameLinks.setInfo dev c (tpceFreeStreamInfo (dev.dmaInfo c)) rfl Iff.rfl
      exact h.congr ⟨rfl, rfl, rfl, rfl, hset.mapInfo, hset.idle⟩
  | wentAway => exact h.congr ⟨rfl, rfl, rfl, rfl, fun _ => rfl, fun _ => Iff.rfl⟩
  | removed out _ remove => exact h.remove remove

theorem namesInactive_of_inUse {op : Op} (h : Linked dev) (hset : Settled dev)
    (hstep : step dev op = some dev') (hinUse : InUse dev') : NamesInactive dev op := by
  intro env req c m hacc hload
  obtain ⟨hwait, ⟨fileCtx, m', hvalid⟩, hexec⟩ := hacc.executed hstep
  obtain ⟨obj, hobj, hm⟩ : ∃ obj, dev.dmaMappings req.id = some obj ∧ dev.mapInfos obj = some m :=
    Option.bind_eq_some_iff.mp hload
  rcases h.backward obj m hm with hfree | ⟨b, hact, hb⟩
  · exact hfree
  -- The mapping is active on a channel `b`, which runs and keeps pointing to it.
  have hne : b ≠ c := fun heq => by
    rw [heq, (h.idle c).mp hvalid.idle] at hb
    cases hb
  have hrunning : (dev.dmaInfo b).state = .running := by
    rcases hset b with hidle | ⟨hrun, -⟩ | ⟨-, hw⟩
    · rw [(h.idle b).mp hidle] at hb
      cases hb
    · exact hrun
    · rw [hwait] at hw
      cases hw
  have hstolen : dev'.dmaInfo b = dev.dmaInfo b →
      (∃ a, a ≠ (b.val : ℤ) ∧ dev'.mapInfos obj = some { m with activeChannel := a }) → False := by
    rintro hb' ⟨a, ha, hobj'⟩
    obtain ⟨m'', hreg, hact''⟩ := hinUse.marked b obj (hb' ▸ hb) (.inr (hb' ▸ hrunning))
    obtain rfl := Option.some.inj (hobj'.symm.trans hreg.1)
    exact ha hact''
  have htaken : ∀ {obj₁ m₁ prep info dev₁}, Initialized env dev c req obj₁ m₁ prep info dev₁ →
      dev₁.dmaInfo b = dev.dmaInfo b ∧ (dev₁.dmaInfo c).mapInfo = some obj ∧
        dev₁.mapInfos obj = some { m with activeChannel := c.val } := by
    intro obj₁ m₁ prep info dev₁ hinit
    obtain rfl := Option.some.inj (hobj.symm.trans hinit.mapping)
    obtain rfl := Option.some.inj (hm.symm.trans hinit.live)
    rw [hinit.result]
    refine ⟨setInfo_dmaInfo_ne dev _ hne, ?_, Function.update_self ..⟩
    exact congrArg TpceDmaInfo.mapInfo (setInfo_dmaInfo dev c _)
  cases hexec with
  | refused ret info refusal negative same state =>
      obtain ⟨ret', dev₁, hinit, hret⟩ := hacc.init
      obtain ⟨rfl, -⟩ := Prod.mk.inj (Except.ok.inj (refusal.symm.trans hinit))
      omega
  | failed obj₁ m₁ prep info info₂ table dev₁ dev₂ _ accepted start started state reset =>
      obtain ⟨hb₁, hc₁, hobj₁⟩ := htaken accepted
      have hst : info₂.state ≠ .idle := by
        rcases state with hst | hst
        · rw [hst]
          decide
        · rw [hst]
          decide
      obtain ⟨hidle, -⟩ | ⟨-, -, hres⟩ := resetDmaInfo_spec reset
      · rw [started.result, setInfo_dmaInfo] at hidle
        exact absurd hidle hst
      · have hmap : (dev₂.dmaInfo c).mapInfo = some obj := by
          rw [started.result, setInfo_dmaInfo, started.same.mapInfo]
          exact hc₁
        refine (hstolen ?_ ⟨tpceMapInactive, inactive_ne b, ?_⟩).elim
        · rw [hres, started.result]
          exact (Function.update_of_ne hne ..).trans ((setInfo_dmaInfo_ne _ _ hne).trans hb₁)
        · rw [hres]
          simp only [hmap, releasedInfos, Function.update_self]
          rw [started.result]
          simp [TpceDev.setInfo, hobj₁]
  | running obj₁ m₁ prep info info₂ table dev₁ dev₂ accepted start started state =>
      obtain ⟨hb₁, -, hobj₁⟩ := htaken accepted
      refine (hstolen ?_ ⟨c.val, fun heq => hne (Fin.ext (by omega)), ?_⟩).elim
      · rw [started.result]
        exact (setInfo_dmaInfo_ne _ _ hne).trans hb₁
      · rw [started.result]
        exact hobj₁

theorem linked_init (sgt : SgTable) : Linked (TpceDev.init sgt) := by
  have hinfos : ∀ obj m, (TpceDev.init sgt).mapInfos obj = some m → obj = 0 ∧ m = driverBuffer sgt := by
    intro obj m hm
    simp only [TpceDev.init, Function.update_apply] at hm
    split at hm
    · exact ⟨‹_›, (Option.some.inj hm).symm⟩
    · cases hm
  refine ⟨fun obj m hm => ?_, fun id obj hid => ?_, fun obj hle => ?_, fun c obj hc => (by cases hc),
    fun obj m hm => ?_, fun c => iff_of_true rfl rfl, rfl⟩
  · obtain ⟨rfl, rfl⟩ := hinfos obj m hm
    rfl
  · simp only [TpceDev.init, Function.update_apply] at hid
    split at hid
    · rename_i heq
      obtain rfl := Option.some.inj hid
      exact ⟨driverBuffer sgt, rfl, heq.symm⟩
    · cases hid
  · have hne : obj ≠ 0 := Nat.ne_of_gt hle
    simp [TpceDev.init, hne]
  · obtain ⟨rfl, rfl⟩ := hinfos obj m hm
    exact .inl rfl

theorem settled_init (sgt : SgTable) : Settled (TpceDev.init sgt) := fun _ => .inl rfl

/-- In every run from the initialised device the mappings in use stay linked to
their channels exactly when every accepted request names an inactive mapping. A run
ends at a store outside the page table. -/
theorem mapping_in_use_iff (sgt : SgTable) (ops : List Op) :
    Runs.Always PageTableFaults.step InUse (TpceDev.init sgt) ops ↔
      Runs.Along PageTableFaults.step NamesInactive (TpceDev.init sgt) ops := by
  refine Runs.always_iff_along (K := fun dev => Linked dev ∧ Settled dev) (fun _ h => h.1.inUse) ?_ ?_ ops
    ⟨linked_init sgt, settled_init sgt⟩
  · intro dev op dev' h hnames hstep
    have hstep := PageTableFaults.step_refines hstep
    exact ⟨step_linked h.1 hnames hstep, step_settled h.2 hstep⟩
  · intro dev op dev' h hstep hinUse
    exact namesInactive_of_inUse h.1 h.2 (PageTableFaults.step_refines hstep) hinUse

def wholePage : LockEnv where
  kvzallocOk := true
  pagesPinned := 1
  sgAlloc := 0
  dmaMap := 0
  sgt := ⟨.last [⟨0x100000#64, 4096#32, 0⟩], 1⟩
  rangesAllocOk := true
  copyOk := true
  xaAllocOk := true

def streamRequest (channel : U8) : TpceDmaRequest where
  id := 2
  params := ⟨0, 0, 4096, 0, 0, 0, channel, tpceDmaModeStream, tpceDmaFromDevice, 0, 0⟩
  descriptors := 0
  descriptorsSize := 0
  descriptorsType := 0

def streamsOnOneMapping : List Op :=
  [.openFile, .lockBuffer 0 wholePage ⟨0x10000#64, 4096, 0, 0, tpceDmaFromDevice⟩,
    .execute 0 .granted (streamRequest 0), .execute 0 .granted (streamRequest 1), .unlockBuffer 0 2]

/-- Two streams on one mapping: the mapping remembers the second channel only,
and unlocking it unmaps it under the first. -/
theorem second_stream_takes_mapping :
    ¬Runs.Always PageTableFaults.step InUse freshDevice streamsOnOneMapping := by
  intro h
  have hghost : (Runs.run PageTableFaults.step freshDevice streamsOnOneMapping).map TpceDev.unmappedInUse =
      some true := by decide +kernel
  obtain ⟨dev, hrun, hunmapped⟩ := Option.map_eq_some_iff.mp hghost
  have hnever := (Runs.always_iff_prefix.mp h streamsOnOneMapping [] rfl dev hrun).neverUnmapped
  exact absurd (hnever.symm.trans hunmapped) Bool.false_ne_true

end TpceDrv.MappingInUse
