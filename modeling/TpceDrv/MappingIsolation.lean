import TpceDrv.LockUserBuffer
import TpceDrv.PageTableFaults
import TpceDrv.Registry

namespace TpceDrv.MappingIsolation

open Descriptor Mapping Device ChannelControl RequestSteps MappingTable MappingEffects MappingInUse Registry
open Library.Runs
open Requests hiding dmaExecute iocDmaExecute readKernelDmaBuffer
open Driver (Op)
open PageTableFaults (step step_refines)
open LockUserBuffer (GupFlag gupFlags)

variable {dev dev' : TpceDev} {file obj : ℕ} {m m' : TpceDmaMapInfo} {op : Op} {s s' : Maps} {sgt : SgTable}

/-- The mapping is there with the same contents in all states of the run. -/
def KeptThrough (dev : TpceDev) (ops : List Op) (obj : ℕ) (m : TpceDmaMapInfo) : Prop :=
  Always step (fun d => ∃ m', d.Registered obj m' ∧ unmarked m' = unmarked m) dev ops

/-- A call of the run locked the mapping for its file, and it has been kept ever
since. -/
structure LockedBy (dev : TpceDev) (ops : List Op) (file obj : ℕ) (m : TpceDmaMapInfo)
    (bufferInfo : TpceDmaBufIn) : Prop where
  history : ∃ pre lockEnv post before after, ops = pre ++ .lockBuffer file lockEnv bufferInfo :: post ∧
    run step dev pre = some before ∧ before.mapInfos obj = none ∧
    step before (.lockBuffer file lockEnv bufferInfo) = some after ∧ KeptThrough after post obj m
  owner : m.owner = some file
  direction : m.direction = bufferInfo.direction

/-- A mapping was there before a call, or the call locked it. -/
theorem effect_old (h : MapsEffect s op s') (hcons : s.Consistent) (hm : s'.infos obj = some m) :
    (∃ m', s.infos obj = some m' ∧ unmarked m' = unmarked m) ∨
      ∃ file lockEnv bufferInfo, op = .lockBuffer file lockEnv bufferInfo ∧ s.infos obj = none ∧
        m.owner = some file ∧ m.direction = bufferInfo.direction := by
  cases h with
  | same => exact .inl ⟨m, hm, rfl⟩
  | locked file lockEnv bufferInfo m' free range owner direction inactive =>
      by_cases hobj : obj = s.next
      · subst hobj
        have hnew : (s.lock file m').infos s.next = some m' := Function.update_self ..
        rw [hnew] at hm
        cases hm
        exact .inr ⟨file, lockEnv, bufferInfo, rfl, hcons.fresh _ (Nat.le_refl _), owner, direction⟩
      · exact .inl ⟨m, (Function.update_of_ne hobj ..).symm.trans hm, rfl⟩
  | accepted _ c obj' m' live free => exact .inl ((sameRecords_accept live).old hm)
  | failed _ c obj' m' live free => exact .inl (((sameRecords_accept live).trans sameRecords_reset).old hm)
  | reset _ c => exact .inl (sameRecords_reset.old hm)
  | unlocked file id obj' m' mapping live owner => exact .inl ⟨m, (unmap_infos hm).2, rfl⟩
  | released file _ unmaps empty => exact .inl ⟨m, unmaps_old unmaps hm, rfl⟩
  | removed s₁ _ resets unmaps => exact .inl ((resets_same resets).old (unmaps_old unmaps hm))

theorem unmarked_direction (h : unmarked m = unmarked m') : m.direction = m'.direction :=
  show (unmarked m).direction = (unmarked m').direction from congrArg TpceDmaMapInfo.direction h

/-- Where a mapping at the end of a run comes from -/
theorem origin {ops : List Op} (hkept : Kept dev) (hrun : run step dev ops = some dev')
    (hm : dev'.mapInfos obj = some m) :
    KeptThrough dev ops obj m ∨ ∃ file bufferInfo, LockedBy dev ops file obj m bufferInfo := by
  induction ops generalizing dev with
  | nil =>
      cases hrun
      exact .inl ⟨m, (registered_iff hkept.consistent).mpr hm, rfl⟩
  | cons op ops ih =>
      obtain ⟨next, hstep, hrest⟩ := Option.bind_eq_some_iff.mp hrun
      have hdriver := step_refines hstep
      have heffect := step_maps hkept.clean hkept.consistent hdriver
      rcases ih (hkept.step hdriver) hrest with hsince | ⟨file, bufferInfo, hlocked⟩
      · obtain ⟨m', hm', heq⟩ := hsince.head
        have hold := effect_old heffect hkept.consistent hm'.1
        rcases hold with ⟨m₀, hm₀, heq₀⟩ | ⟨file, lockEnv, bufferInfo, rfl, hnone, howner, hdirection⟩
        · refine .inl ⟨⟨m₀, (registered_iff hkept.consistent).mpr hm₀, heq₀.trans heq⟩, fun d hd => ?_⟩
          rw [hstep] at hd
          cases hd
          exact hsince
        · exact .inr ⟨file, bufferInfo, ⟨[], lockEnv, ops, dev, next, rfl, rfl, hnone, hstep, hsince⟩,
            (unmarked_owner heq).symm.trans howner, (unmarked_direction heq).symm.trans hdirection⟩
      · obtain ⟨pre, lockEnv, post, before, after, rfl, hpre, hlock⟩ := hlocked.history
        exact .inr ⟨file, bufferInfo, ⟨op :: pre, lockEnv, post, before, after, rfl,
          Option.bind_eq_some_iff.mpr ⟨next, hstep, hpre⟩, hlock⟩, hlocked.owner, hlocked.direction⟩

/-- The driver's own buffer -/
def IsDriverBuffer (obj : ℕ) (m : TpceDmaMapInfo) : Prop :=
  obj = 0 ∧ m.id = tpceDmaDriverBufferId ∧ m.owner = none ∧ m.bufUsr = false

/-- A request from user space names the driver's buffer or a mapping that its own
file has locked and not freed since, and one that writes to the mapping has pages
that were pinned for writing. -/
theorem requests_isolated (sgt : SgTable) (ops : List Op) (file : ℕ) (req : TpceDmaRequest)
    (hrun : run step (TpceDev.init sgt) ops = some dev) (hvalid : validateDmaRequest dev req (some file) = 0) :
    ∃ obj m, dev.Registered obj m ∧ m.id = req.id ∧ (IsDriverBuffer obj m ∨ ∃ bufferInfo,
      LockedBy (TpceDev.init sgt) ops file obj m bufferInfo ∧
        (req.params.direction = tpceDmaFromDevice → GupFlag.write ∈ gupFlags bufferInfo.direction)) := by
  have hkept : Kept dev := always_iff_prefix.mp
    (always_of_step (fun _ _ _ h hstep => h.step (step_refines hstep)) (.init sgt) ops) ops [] (List.append_nil ops).symm
    dev hrun
  obtain ⟨c, m, hval⟩ := validateDmaRequest_valid hvalid
  obtain ⟨obj, hobj, hm⟩ : ∃ obj, dev.dmaMappings req.id = some obj ∧ dev.mapInfos obj = some m :=
    Option.bind_eq_some_iff.mp hval.loaded
  obtain ⟨-, m', hm', hid⟩ := hkept.consistent.registered req.id obj hobj
  have hmm : m' = m := Option.some.inj (hm'.symm.trans hm)
  subst hmm
  refine ⟨obj, m', (registered_iff hkept.consistent).mpr hm, hid, ?_⟩
  rcases origin (.init sgt) hrun hm with hsince | ⟨owner, bufferInfo, hlocked⟩
  · obtain ⟨m₀, hm₀, heq⟩ := hsince.head
    obtain ⟨rfl, rfl⟩ := init_infos hm₀.1
    exact .inl ⟨rfl, (unmarked_id heq).symm, (unmarked_owner heq).symm,
      (congrArg TpceDmaMapInfo.bufUsr heq).symm⟩
  · have hfile : owner = file := by
      rcases hval.owner with hno | hfile
      · cases hno.symm.trans hlocked.owner
      · exact Option.some.inj (hlocked.owner.symm.trans hfile)
    subst hfile
    refine .inr ⟨bufferInfo, hlocked, fun hfrom => ?_⟩
    have hwritable : bufferInfo.direction = tpceDmaFromDevice ∨ bufferInfo.direction = tpceDmaBidirectional := by
      rw [← hlocked.direction]
      exact hval.compatible.symm.imp (fun heq => heq.symm.trans hfrom) id
    rw [gupFlags, if_pos hwritable]
    exact List.mem_cons_of_mem _ List.mem_cons_self

/-- The second file locks its buffer under the id that the first one has freed. -/
def idPassedOn : List Op :=
  [.openFile, .openFile, .lockBuffer 0 wholePage ⟨0x10000#64, 4096, 0, 0, tpceDmaToDevice⟩, .unlockBuffer 0 2,
    .lockBuffer 1 wholePage ⟨0x20000#64, 4096, 0, 0, tpceDmaFromDevice⟩]

theorem passed_id_isolated : ∃ dev obj m, run step freshDevice idPassedOn = some dev ∧ dev.Registered obj m ∧
    m.id = 2 ∧ (IsDriverBuffer obj m ∨ ∃ bufferInfo, LockedBy freshDevice idPassedOn 1 obj m bufferInfo ∧
      (tpceDmaFromDevice = tpceDmaFromDevice → GupFlag.write ∈ gupFlags bufferInfo.direction)) := by
  have haccepted : (run step freshDevice idPassedOn).map
      (fun dev => validateDmaRequest dev (streamRequest 0) (some 1)) = some 0 := by decide +kernel
  obtain ⟨dev, hrun, hvalid⟩ := Option.map_eq_some_iff.mp haccepted
  obtain ⟨obj, m, h⟩ := requests_isolated _ idPassedOn 1 (streamRequest 0) hrun hvalid
  exact ⟨dev, obj, m, hrun, h⟩

end TpceDrv.MappingIsolation
