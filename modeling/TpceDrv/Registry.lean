import TpceDrv.MappingLiveness

namespace TpceDrv.Registry

open DmaInfo Mapping Device ChannelControl ChannelSteps Requests Driver RequestSteps Effects Teardown MappingTable
open RequestAtomicity MappingEffects MappingLiveness Library.Runs

variable {dev dev' : TpceDev} {file obj : ℕ} {m : TpceDmaMapInfo} {op : Op} {s s' : Maps}

/-- The mappings that a call may free -/
def Takes : Op → TpceDmaMapInfo → Prop
  | .unlockBuffer file id, m => m.owner = some file ∧ m.id = id
  | .release file, m => m.owner = some file
  | .remove, _ => True
  | _, _ => False

theorem unmaps_kept {P : TpceDmaMapInfo → Prop} (h : Unmaps P s s') (hm : s.infos obj = some m) (hP : ¬P m) :
    s'.infos obj = some m := by
  induction h with
  | refl => exact hm
  | tail _ hlast ih =>
      obtain ⟨obj', m', hm', hP', rfl⟩ := hlast
      have hne : obj ≠ obj' := fun heq => by
        rw [← heq, ih] at hm'
        cases hm'
        exact hP hP'
      exact (Function.update_of_ne hne ..).trans ih

theorem unmaps_old {P : TpceDmaMapInfo → Prop} (h : Unmaps P s s') (hm : s'.infos obj = some m) :
    s.infos obj = some m := by
  induction h with
  | refl => exact hm
  | tail _ hlast ih =>
      obtain ⟨obj', m', -, -, rfl⟩ := hlast
      exact ih (unmap_infos hm).2

theorem resets_same (h : Resets s s') : SameRecords s s' := by
  induction h with
  | refl => exact .refl s
  | tail _ hlast ih =>
      obtain ⟨c, rfl⟩ := hlast
      exact ih.trans sameRecords_reset

/-- A mapping stays, but for its mark, until a call frees it. -/
theorem effect_kept (h : MapsEffect s op s') (hcons : s.Consistent) (hm : s.infos obj = some m)
    (hnot : ¬Takes op m) : ∃ m', s'.infos obj = some m' ∧ unmarked m' = unmarked m := by
  cases h with
  | same => exact ⟨m, hm, rfl⟩
  | locked file lockEnv bufferInfo m' free range owner direction inactive =>
      have hne : obj ≠ s.next := fun heq => by
        rw [heq, hcons.fresh _ (Nat.le_refl _)] at hm
        cases hm
      exact ⟨m, (Function.update_of_ne hne ..).trans hm, rfl⟩
  | accepted _ c obj' m' live free => exact (sameRecords_accept live).symm.old hm
  | failed _ c obj' m' live free => exact ((sameRecords_accept live).trans sameRecords_reset).symm.old hm
  | reset _ c => exact sameRecords_reset.symm.old hm
  | unlocked file id obj' m' mapping live owner =>
      obtain ⟨-, m'', hm'', hid⟩ := hcons.registered id obj' mapping
      rw [live] at hm''
      cases hm''
      have hne : obj ≠ obj' := fun heq => by
        rw [heq, live] at hm
        cases hm
        exact hnot ⟨owner, hid⟩
      exact ⟨m, (Function.update_of_ne hne ..).trans hm, rfl⟩
  | released file _ unmaps empty => exact ⟨m, unmaps_kept unmaps hm hnot, rfl⟩
  | removed s₁ _ resets unmaps => exact absurd True.intro hnot

/-- The table of ids and the lists of the files as the driver keeps them -/
structure RegistryConsistent (dev : TpceDev) : Prop where
  owned : ∀ file obj, obj ∈ dev.dmaMapSublist file ↔ ∃ m, dev.Registered obj m ∧ m.owner = some file
  once : ∀ file, (dev.dmaMapSublist file).Nodup
  ids : ∀ id obj, dev.dmaMappings id = some obj →
    (1 ≤ id.toNat ∧ id.toNat ≤ tpceDmaMapIdMax) ∧ ∃ m, dev.Registered obj m ∧ m.id = id
  unique : ∀ obj obj' m m', dev.Registered obj m → dev.Registered obj' m' → m.id = m'.id → obj = obj'

theorem registered_iff (hcons : (maps dev).Consistent) : dev.Registered obj m ↔ dev.mapInfos obj = some m :=
  ⟨And.left, fun hm => ⟨hm, hcons.live obj m hm⟩⟩

theorem registryConsistent (hcons : (maps dev).Consistent) : RegistryConsistent dev := by
  refine ⟨fun file obj => ?_, hcons.nodup, fun id obj hid => ?_, fun obj obj' m m' hm hm' hid => ?_⟩
  · simp only [registered_iff hcons]
    exact hcons.owned file obj
  · obtain ⟨hrange, m, hm, hid⟩ := hcons.registered id obj hid
    exact ⟨hrange, m, (registered_iff hcons).mpr hm, hid⟩
  · have hreg := hm.2
    rw [hid, hm'.2] at hreg
    exact (Option.some.inj hreg).symm

def DriverBufferRegistered (dev : TpceDev) : Prop :=
  ∃ m, dev.Registered 0 m ∧ m.id = tpceDmaDriverBufferId ∧ m.owner = none

/-- What the release of a file leaves of the mappings -/
structure Released (file : ℕ) (dev dev' : TpceDev) : Prop where
  none : ∀ obj m, dev'.Registered obj m → m.owner ≠ some file
  empty : dev'.dmaMapSublist file = []
  others : ∀ obj m, m.owner ≠ some file → (dev'.Registered obj m ↔ dev.Registered obj m)
  lists : ∀ file', file' ≠ file → dev'.dmaMapSublist file' = dev.dmaMapSublist file'

theorem unmaps_lists {file' : ℕ} (h : Unmaps (fun m => m.owner = some file) s s') (hne : file' ≠ file) :
    s'.lists file' = s.lists file' := by
  induction h with
  | refl => rfl
  | tail _ hlast ih =>
      obtain ⟨obj, m, -, howner, rfl⟩ := hlast
      exact (if_neg fun heq => hne (Option.some.inj (heq.symm.trans howner))).trans ih

theorem released (hclean : Clean dev) (hcons : (maps dev).Consistent) (hstep : step dev (.release file) = some dev') :
    Released file dev dev' := by
  obtain ⟨-, out, h⟩ := step_eq_some.mp hstep
  obtain ⟨dev₁, hrelease, h⟩ := bind_eq_ok.mp h
  cases h
  obtain ⟨hunmaps, hempty⟩ := unmaps_release hclean hcons rfl hrelease
  have hcons₁ := hunmaps.consistent hcons
  refine ⟨fun obj m hm howner => ?_, hempty, fun obj m howner => ?_, fun file' hne => unmaps_lists hunmaps hne⟩
  · have hmem := (hcons₁.owned file obj).mpr ⟨m, hm.1, howner⟩
    rw [hempty] at hmem
    cases hmem
  · have hiff : dev₁.Registered obj m ↔ dev.Registered obj m := by
      rw [registered_iff hcons₁, registered_iff hcons]
      exact ⟨fun hm => unmaps_old hunmaps hm, fun hm => unmaps_kept hunmaps hm howner⟩
    exact hiff

/-- The calls that lock and free mappings -/
def RegistryCall : Op → Prop
  | .openFile | .lockBuffer .. | .unlockBuffer .. | .release _ | .goAway | .remove => True
  | _ => False

def AllIdle (dev : TpceDev) : Prop := ∀ c, (dev.dmaInfo c).state = .idle

theorem AllIdle.tornDown (h : AllIdle dev) (hdown : TornDown dev dev') : AllIdle dev' := by
  refine hdown.keeps h fun dev dev' hdown h => ?_
  have hreset : ∀ dev₁ c, AllIdle dev₁ → resetDmaInfo dev₁ c = .ok dev' → AllIdle dev' := fun dev₁ c h hreset => by
    obtain ⟨hidle, hothers, -⟩ := resetDmaInfo_frame hreset
    intro c'
    by_cases hc : c' = c
    · rw [hc]
      exact hidle
    · rw [hothers c' hc]
      exact h c'
  cases hdown with
  | reset c _ h' => exact hreset dev c h h'
  | cancel c _ h' =>
      have habort := MappingInUse.sameLinks_abort dev c
      exact hreset _ c (fun c' => (habort.idle c').mpr (h c')) h'
  | elsewhere _ hsame =>
      intro c
      rw [hsame.dmaInfo]
      exact h c
  | buffers c idle =>
      intro c'
      by_cases hc : c' = c
      · subst hc
        rw [setInfo_dmaInfo]
        exact idle
      · rw [setInfo_dmaInfo_ne dev _ hc]
        exact h c'

theorem AllIdle.step (h : AllIdle dev) (hop : RegistryCall op) (hstep : step dev op = some dev') : AllIdle dev' := by
  cases step_effect hstep with
  | unlocked file id obj _ unmap => exact h.tornDown (tornDown_unlisted unmap)
  | executed _ env req fileCtx c m _ present mutex validated valid execute =>
      rcases isRequest_of_validated validated with ⟨file, env, req, rfl⟩ | ⟨file, env, r, rfl⟩
      · cases hop
      · cases hop
  | released file dev₁ release =>
      have hidle : AllIdle dev₁ := h.tornDown (tornDown_release release)
      exact hidle
  | removed out _ remove => exact h.tornDown (tornDown_remove remove)
  | nothing => exact h
  | opened => exact h
  | locked => exact h
  | wentAway => exact h
  | cancelled => cases hop
  | woken => cases hop
  | completed => cases hop
  | leaked => cases hop
  | returned => cases hop
  | mapped => cases hop
  | vmaOpened => cases hop
  | vmaClosed => cases hop

/-- While no channel is in use a file can be released. -/
theorem release_returns (hidle : AllIdle dev) (hclean : Clean dev) (hcons : (maps dev).Consistent)
    (hen : enabled dev (.release file) = true) : ∃ dev', step dev (.release file) = some dev' := by
  have hunused : ∀ c, (maps dev).used c = none := fun c => (hclean c).idle.mp (hidle c)
  have halone : Alone (fun m => m.owner = some file) (maps dev) := fun obj _ c _ _ hused =>
    absurd ((hunused c).symm.trans hused) (Option.some_ne_none obj).symm
  obtain ⟨dev₁, hrelease⟩ := releaseMappings_returns file hclean hcons (pointed_of_unused hunused) halone rfl
  have hperform : tpceRelease dev file = .ok (.returned 0, { dev₁ with files := dev₁.files.erase file }) :=
    bind_eq_ok.mpr ⟨dev₁, hrelease, rfl⟩
  exact ⟨_, step_eq_some.mpr ⟨hen, _, hperform⟩⟩

theorem init_infos {sgt : SgTable} (hm : (TpceDev.init sgt).mapInfos obj = some m) :
    obj = 0 ∧ m = driverBuffer sgt := by
  simp only [TpceDev.init] at hm
  by_cases hobj : obj = 0
  · subst hobj
    rw [Function.update_self] at hm
    exact ⟨rfl, (Option.some.inj hm).symm⟩
  · rw [Function.update_of_ne hobj] at hm
    cases hm

theorem consistent_init (sgt : SgTable) : (maps (TpceDev.init sgt)).Consistent := by
  have hdriver : (maps (TpceDev.init sgt)).infos 0 = some (driverBuffer sgt) := rfl
  refine ⟨fun obj m hm => ?_, fun id obj hid => ?_, fun file obj => ?_, fun file => List.nodup_nil, fun obj hle => ?_,
    fun obj m hm => ?_⟩
  · obtain ⟨rfl, rfl⟩ := init_infos hm
    rfl
  · simp only [maps, TpceDev.init] at hid
    by_cases hone : id = 1
    · subst hone
      rw [Function.update_self] at hid
      cases hid
      exact ⟨by decide, driverBuffer sgt, hdriver, rfl⟩
    · rw [Function.update_of_ne hone] at hid
      cases hid
  · refine ⟨fun hmem => absurd hmem List.not_mem_nil, ?_⟩
    rintro ⟨m, hm, howner⟩
    obtain ⟨rfl, rfl⟩ := init_infos hm
    cases howner
  · have hpos : 1 ≤ obj := hle
    simp only [maps, TpceDev.init]
    rw [Function.update_of_ne (by omega)]
  · obtain ⟨rfl, rfl⟩ := init_infos hm
    exact .inl rfl

/-- The mappings are consistent, and an idle channel is clean. -/
structure Kept (dev : TpceDev) : Prop where
  clean : Clean dev
  consistent : (maps dev).Consistent

theorem Kept.init (sgt : SgTable) : Kept (TpceDev.init sgt) := ⟨clean_init sgt, consistent_init sgt⟩

theorem Kept.step (h : Kept dev) (hstep : step dev op = some dev') : Kept dev' :=
  ⟨step_clean h.clean hstep, (step_maps h.clean h.consistent hstep).consistent h.consistent⟩

theorem always_kept (sgt : SgTable) (ops : List Op) : Always step Kept (TpceDev.init sgt) ops :=
  always_of_step (fun _ _ _ h hstep => h.step hstep) (.init sgt) ops

theorem DriverBufferRegistered.step (h : DriverBufferRegistered dev) (hkept : Kept dev) (hop : op ≠ .remove)
    (hstep : step dev op = some dev') : DriverBufferRegistered dev' := by
  obtain ⟨m, hm, hid, howner⟩ := h
  have hnot : ¬Takes op m := by
    cases op with
    | unlockBuffer file id => exact fun htakes => by cases howner.symm.trans htakes.1
    | release file => exact fun htakes => by cases howner.symm.trans htakes
    | remove => exact absurd rfl hop
    | _ => exact id
  obtain ⟨m', hm', heq⟩ := effect_kept (step_maps hkept.clean hkept.consistent hstep) hkept.consistent hm.1 hnot
  have hkept' := hkept.step hstep
  exact ⟨m', (registered_iff hkept'.consistent).mpr hm', (unmarked_id heq).trans hid,
    (unmarked_owner heq).trans howner⟩

/-- The table of ids and the lists of the files agree in every state of every
run, and the release of a file frees its mappings and no others. The driver's
buffer stays until the removal. A run that only locks and frees mappings never
fails to release a file. -/
theorem registry_consistent (sgt : SgTable) (ops : List Op) :
    Always step (fun dev => RegistryConsistent dev ∧
      ∀ file dev', step dev (.release file) = some dev' → Released file dev dev') (TpceDev.init sgt) ops ∧
    ((∀ op ∈ ops, op ≠ .remove) → Always step DriverBufferRegistered (TpceDev.init sgt) ops) ∧
    ((∀ op ∈ ops, RegistryCall op) → Always step (fun dev => ∀ file, enabled dev (.release file) = true →
      ∃ dev', step dev (.release file) = some dev') (TpceDev.init sgt) ops) := by
  refine ⟨?_, fun hops => ?_, fun hops => ?_⟩
  · exact (always_kept sgt ops).mono fun dev h =>
      ⟨registryConsistent h.consistent, fun file dev' hstep => released h.clean h.consistent hstep⟩
  · have hdriver : DriverBufferRegistered (TpceDev.init sgt) := ⟨driverBuffer sgt, ⟨rfl, rfl⟩, rfl, rfl⟩
    have hrun := always_of_along (K := fun dev => Kept dev ∧ DriverBufferRegistered dev)
      (fun _ _ _ h hop hstep => ⟨h.1.step hstep, h.2.step h.1 hop hstep⟩) ⟨.init sgt, hdriver⟩
      (along_of_forall fun op hop _ => hops op hop)
    exact hrun.mono fun _ h => h.2
  · have hrun := always_of_along (K := fun dev => Kept dev ∧ AllIdle dev)
      (fun _ _ _ h hop hstep => ⟨h.1.step hstep, h.2.step hop hstep⟩) ⟨.init sgt, fun _ => rfl⟩
      (along_of_forall fun op hop _ => hops op hop)
    exact hrun.mono fun dev h file hen => release_returns h.2 h.1.clean h.1.consistent hen

end TpceDrv.Registry
