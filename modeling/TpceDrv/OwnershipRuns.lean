import TpceDrv.DeviceLife
import TpceDrv.StreamRefs
import TpceDrv.CommandSoundness

namespace TpceDrv.OwnershipRuns

open Descriptor DmaInfo Mapping Device Requests Driver RequestSteps Effects Resources Probe ProbeRollback
open DeviceLife
open MappingTable MappingEffects OwnershipSteps OwnershipCalls StreamRefs
open LockUserBuffer Library.Holdings Library.Traces Library.Stacks Library.Runs
open ChannelControl (tpceDmaCompletion)

variable {s s' : Machine} {held held' : Finset Item} {few : Prop} {event : Event} {dev dev' : TpceDev} {op : Op}

/-- What is held beside the mappings and the channels -/
def Beside (s : Machine) (k : Item) : Prop := (Elsewhere k ∧ RefersTo s k) ∨ k ∈ s.stranded

/-- The references to the device: its open files, and itself until it is removed -/
def users (s : Machine) : ℕ := s.dev.files.length + if s.stage = .removed then 0 else 1

/-- A device that no call does anything on any more -/
structure Withdrawn (dev : TpceDev) : Prop where
  away : dev.goingAway = true
  waiting : dev.waiting = none
  lists : ∀ file, dev.dmaMapSublist file = []
  idle : ∀ c, (dev.dmaInfo c).state = .idle
  bare : Bare dev

structure Steady (few : Prop) (dev : TpceDev) : Prop extends Sound dev where
  referenced : Referenced few dev

theorem Steady.step (h : Steady few dev) (hfew : few → FewHolders dev) (hstep : Driver.step dev op = some dev') :
    Steady few dev' :=
  ⟨h.toSound.step hstep, step_referenced h.referenced hfew hstep⟩

/-- What is held is what the machine refers to, whatever its count of references says. -/
structure Tidy (few : Prop) (s : Machine) (held : Finset Item) : Prop where
  steady : Steady few s.dev
  holds : Holds (Beside s) s.dev held
  bars : ∀ i, (s.pciBars i).vaddr ≠ 0
  withdrawn : s.stage = .removed → Withdrawn s.dev
  mappings : ∀ k ∈ s.stranded, ∃ obj part, k = .mapping obj part
  nothing : s.stage ≠ .removed → s.stranded = []

structure Owned (few : Prop) (s : Machine) (held : Finset Item) : Prop extends Tidy few s held where
  counted : Counted few (users s) s.refs

theorem Tidy.elsewhere (h : Tidy few s held) {k : Item} (hk : Elsewhere k) : k ∈ held ↔ RefersTo s k := by
  rw [h.holds.elsewhere k hk, Beside]
  refine (or_iff_left ?_).trans (and_iff_right hk)
  intro hmem
  obtain ⟨obj, part, rfl⟩ := h.mappings k hmem
  exact hk

theorem Tidy.accounted (h : Tidy few s held) (k : Item) : k ∈ held ↔ RefersTo s k ∨ k ∈ s.stranded := by
  have hno : ∀ {k : Item}, (∀ obj part, k ≠ .mapping obj part) → k ∉ s.stranded := by
    intro k hk hmem
    obtain ⟨obj, part, heq⟩ := h.mappings k hmem
    exact hk obj part heq
  cases k with
  | mapping obj part =>
      rw [h.holds.mapping, Beside, RefersTo]
      simp [Elsewhere]
  | desc c =>
      rw [(h.holds.channel c).desc, or_iff_left (hno (by simp))]
      exact Iff.rfl
  | descDma c =>
      rw [(h.holds.channel c).descDma, or_iff_left (hno (by simp))]
      exact Iff.rfl
  | streamState c =>
      rw [(h.holds.channel c).streamState, or_iff_left (hno (by simp))]
      exact Iff.rfl
  | _ =>
      refine Iff.trans (h.elsewhere ?_) ?_
      · exact True.intro
      · exact (or_iff_left (hno (by simp))).symm

/-- What is held beside may change where neither a mapping nor a channel is concerned. -/
theorem Holds.moved {beside beside' : Item → Prop} (h : Holds beside dev held)
    (hsame : ∀ k, ¬Elsewhere k → (k ∈ held' ↔ k ∈ held))
    (helse : ∀ k, Elsewhere k → (k ∈ held' ↔ beside' k))
    (hmaps : ∀ obj part, beside' (.mapping obj part) ↔ beside (.mapping obj part)) : Holds beside' dev held' := by
  refine ⟨fun c => ⟨?_, ?_, ?_, fun _ _ => Iff.rfl⟩, fun obj part => ?_, helse, fun obj part hpart => ?_⟩
  · rw [hsame _ id]
    exact (h.channel c).desc
  · rw [hsame _ id]
    exact (h.channel c).descDma
  · rw [hsame _ id]
    exact (h.channel c).streamState
  · rw [hsame _ id, h.mapping, hmaps]
  · exact h.gone obj part ((hmaps obj part).mp hpart)

theorem beside_congr (hrefs : s'.refs = s.refs) (hstage : s'.stage = s.stage)
    (hnext : s'.dev.nextFile = s.dev.nextFile) (hstranded : s'.stranded = s.stranded) : Beside s' = Beside s := by
  funext k
  simp only [Beside, hstranded]
  refine propext (or_congr_left (and_congr_right fun hk => ?_))
  cases k with
  | mapping | desc | descDma | streamState => exact hk.elim
  | _ => simp only [RefersTo, hrefs, hstage, hnext]

/-- The reference that the caller holds goes. -/
theorem putTpceDev_ends {ε : Type} {n : ℕ} (hcount : Counted few (n + 1) s.refs) (hheld : .tpceDev ∈ held) :
    Ends some held (putTpceDev s : Owning ε Machine) fun s' held' =>
      (∃ refs, s' = { s with refs := refs } ∧ Counted few n refs) ∧
        ∀ k, k ∈ held' ↔ k ∈ held ∧ (k = .tpceDev → 0 < s'.refs) := by
  obtain ⟨hdec, hzero⟩ := hcount.dec
  simp only [putTpceDev]
  by_cases hlast : (refcountDecAndTest s.refs).2 = true
  · rw [if_pos hlast]
    apply Ends.release rfl hheld
    refine Ends.pure ⟨⟨_, rfl, hdec⟩, fun k => ?_⟩
    rw [Finset.mem_erase]
    simp [hzero.mp hlast, and_comm]
  · rw [if_neg hlast]
    refine Ends.pure ⟨⟨_, rfl, hdec⟩, fun k => ?_⟩
    exact (and_iff_left fun _ => Nat.pos_of_ne_zero fun h0 => hlast (hzero.mpr h0)).symm

theorem ofNeitherKind_iff {m : TpceDmaMapInfo} : ofNeitherKind m = true ↔ OfNeitherKind m := by
  simp [ofNeitherKind, OfNeitherKind, Option.isSome_iff_ne_none]

theorem mem_strandedParts (hkinds : Kinds dev) (k : Item) : k ∈ strandedParts dev ↔
    ∃ obj m part, k = .mapping obj part ∧ dev.mapInfos obj = some m ∧ OfNeitherKind m ∧ part ∈ mapParts m := by
  simp only [strandedParts, List.mem_flatMap, List.mem_range]
  constructor
  · rintro ⟨obj, -, hk⟩
    cases hm : dev.mapInfos obj with
    | none => simp [hm] at hk
    | some m =>
        simp only [hm] at hk
        split at hk
        · rename_i hkind
          obtain ⟨part, hpart, rfl⟩ := List.mem_map.mp hk
          exact ⟨obj, m, part, rfl, hm, ofNeitherKind_iff.mp hkind, hpart⟩
        · cases hk
  · rintro ⟨obj, m, part, rfl, hm, hkind, hpart⟩
    refine ⟨obj, (hkinds obj m hm).2, ?_⟩
    simp only [hm, ofNeitherKind_iff.mpr hkind, if_true]
    exact List.mem_map_of_mem hpart

theorem counted_pos {n refs : ℕ} (h : Counted few n refs) (hn : n ≠ 0) : 0 < refs := by
  rcases h with ⟨rfl, -⟩ | ⟨rfl, -⟩
  · exact Nat.pos_of_ne_zero hn
  · decide

/-- What the files and the way out of the device are about -/
theorem step_files (hopen : op ≠ .openFile) (hrelease : ∀ file, op ≠ .release file)
    (hstep : Driver.step dev op = some dev') : dev'.files = dev.files ∧ dev'.nextFile = dev.nextFile := by
  have hsame : ∀ {dev'}, CommandSoundness.SameHandles dev dev' →
      dev'.files = dev.files ∧ dev'.nextFile = dev.nextFile := fun h => ⟨h.files, h.nextFile⟩
  cases step_effect hstep with
  | nothing => exact ⟨rfl, rfl⟩
  | opened => exact absurd rfl hopen
  | locked => exact ⟨rfl, rfl⟩
  | unlocked file id obj _ unmap => exact hsame (CommandSoundness.sameHandles_unmap unmap)
  | executed _ env req fileCtx c m _ present mutex validated valid execute =>
      exact hsame (CommandSoundness.sameHandles_execute execute)
  | cancelled file channel c _ reset =>
      exact hsame ((CommandSoundness.sameHandles_abort dev c).trans (CommandSoundness.sameHandles_reset reset))
  | woken w c _ waiting reset =>
      have hwoken : CommandSoundness.SameHandles dev { dev with waiting := none } := ⟨rfl, rfl, rfl, rfl⟩
      exact hsame (hwoken.trans (CommandSoundness.sameHandles_reset reset))
  | completed => exact ⟨rfl, rfl⟩
  | released file dev₁ release => exact absurd rfl (hrelease file)
  | leaked => exact ⟨rfl, rfl⟩
  | returned => exact ⟨rfl, rfl⟩
  | mapped => exact ⟨rfl, rfl⟩
  | vmaOpened => exact ⟨rfl, rfl⟩
  | vmaClosed => exact ⟨rfl, rfl⟩
  | wentAway => exact ⟨rfl, rfl⟩
  | removed out _ remove => exact hsame (CommandSoundness.sameHandles_remove remove)

theorem Withdrawn.congr (h : Withdrawn dev) (haway : dev'.goingAway = dev.goingAway)
    (hwaiting : dev'.waiting = dev.waiting) (hlists : dev'.dmaMapSublist = dev.dmaMapSublist)
    (hinfos : dev'.mapInfos = dev.mapInfos) (hidle : ∀ c, (dev'.dmaInfo c).state = (dev.dmaInfo c).state)
    (hdesc : ∀ c, (dev'.dmaInfo c).desc = (dev.dmaInfo c).desc)
    (hdescDma : ∀ c, (dev'.dmaInfo c).descDma = (dev.dmaInfo c).descDma) : Withdrawn dev' := by
  refine ⟨haway.trans h.away, hwaiting.trans h.waiting, fun file => ?_, fun c => (hidle c).trans (h.idle c),
    ⟨fun obj => ?_, fun c => (hdesc c).trans (h.bare.desc c), fun c => (hdescDma c).trans (h.bare.descDma c)⟩⟩
  · rw [hlists]
    exact h.lists file
  · rw [hinfos]
    exact h.bare.infos obj

theorem Withdrawn.setInfo (h : Withdrawn dev) {c : Channel} {info : TpceDmaInfo}
    (hstate : info.state = (dev.dmaInfo c).state) (hdesc : info.desc = (dev.dmaInfo c).desc)
    (hdescDma : info.descDma = (dev.dmaInfo c).descDma) : Withdrawn (dev.setInfo c info) := by
  have hinfo : ∀ c', (dev.setInfo c info).dmaInfo c' = if c' = c then info else dev.dmaInfo c' := fun c' =>
    Function.update_apply ..
  refine h.congr rfl rfl rfl rfl (fun c' => ?_) (fun c' => ?_) fun c' => ?_
  · rw [hinfo]
    split
    · rename_i hc
      rw [hc, hstate]
    · rfl
  · rw [hinfo]
    split
    · rename_i hc
      rw [hc, hdesc]
    · rfl
  · rw [hinfo]
    split
    · rename_i hc
      rw [hc, hdescDma]
    · rfl

/-- The calls that may still come do nothing to a device that is withdrawn. -/
theorem withdrawn_step (h : Withdrawn dev) (hremove : op ≠ .remove) (hstep : Driver.step dev op = some dev') :
    Withdrawn dev' := by
  obtain ⟨-, out, hperform⟩ := step_eq_some.mp hstep
  simp only [Driver.perform] at hperform
  split at hperform
  · cases hperform
    exact h
  rename_i hpresent
  have hnot : ¬op.ioctlFile.isSome = true := fun hfile => hpresent (by rw [hfile, h.away]; rfl)
  cases op with
  | lockBuffer | unlockBuffer | execute | kernelRead | cancel => exact absurd rfl hnot
  | openFile =>
      have hopen : Driver.tpceOpen dev = (out, dev') := Except.ok.inj hperform
      rw [Driver.tpceOpen, if_pos h.away] at hopen
      cases hopen
      exact h
  | wake w =>
      simp only [h.waiting] at hperform
      cases hperform
      exact h
  | dmaWork c =>
      cases hcompletion : tpceDmaCompletion dev c with
      | error e => simp [hcompletion, Except.map] at hperform
      | ok dev₁ =>
          simp only [hcompletion, Except.map] at hperform
          cases hperform
          rcases completion_cases hcompletion with rfl | ⟨-, hrunning, -⟩
          · exact h
          · rw [h.idle c] at hrunning
            cases hrunning
  | release file =>
      simp only [Requests.tpceRelease, h.lists file] at hperform
      cases hperform
      exact h.congr rfl rfl rfl rfl (fun _ => rfl) (fun _ => rfl) fun _ => rfl
  | mmap file env c =>
      have hmmap : Requests.tpceMmap env dev c = (out, dev') := Except.ok.inj hperform
      simp only [Requests.tpceMmap, h.away, if_true] at hmmap
      split at hmmap
      · cases hmmap
        exact h
      · cases hmmap
        exact h.congr h.away.symm rfl rfl rfl (fun _ => rfl) (fun _ => rfl) fun _ => rfl
  | vmaOpen c =>
      cases hperform
      have hset : Withdrawn (dev.setInfo c (incStreamRefs (dev.dmaInfo c))) := h.setInfo rfl rfl rfl
      exact hset.congr rfl rfl rfl rfl (fun _ => rfl) (fun _ => rfl) fun _ => rfl
  | vmaClose c =>
      cases hperform
      have hset : Withdrawn (dev.setInfo c (tpceFreeStreamInfo (dev.dmaInfo c))) := h.setInfo rfl rfl rfl
      exact hset.congr rfl rfl rfl rfl (fun _ => rfl) (fun _ => rfl) fun _ => rfl
  | goAway =>
      cases hperform
      exact h.congr h.away.symm rfl rfl rfl (fun _ => rfl) (fun _ => rfl) fun _ => rfl
  | remove => exact absurd rfl hremove

theorem beside_elsewhere (hmappings : ∀ k ∈ s.stranded, ∃ obj part, k = .mapping obj part) {k : Item}
    (hk : Elsewhere k) : Beside s k ↔ RefersTo s k := by
  refine (or_iff_left ?_).trans (and_iff_right hk)
  intro hmem
  obtain ⟨obj, part, rfl⟩ := hmappings k hmem
  exact hk

theorem elsewhere_of_ne {k k' : Item} (hk : ¬Elsewhere k) (hk' : Elsewhere k') : k ≠ k' := by
  rintro rfl
  exact hk hk'

theorem users_live (h : s.stage ≠ .removed) : users s = s.dev.files.length + 1 := by
  rw [users, if_neg h]

/-- A further reference overflows neither count. -/
def Few (s : Machine) : Prop := users s + 1 < 2 ^ 31 ∧ FewHolders s.dev

/-- Only the file's context is new. -/
theorem Owned.opened (h : Owned few s held) (hstage : s.stage ≠ .removed) (hfew : few → users s + 1 < 2 ^ 31)
    (hsteady : Steady few dev') (hinfo : dev'.dmaInfo = s.dev.dmaInfo) (hmaps : SameMaps s.dev dev')
    (hfiles : dev'.files = s.dev.nextFile :: s.dev.files) (hnext : dev'.nextFile = s.dev.nextFile + 1) :
    Owned few { s with dev := dev', refs := refcountInc s.refs } (insert (.fileCtx s.dev.nextFile) held) := by
  have husers : users s ≠ 0 := by
    rw [users_live hstage]
    exact Nat.succ_ne_zero _
  have hlive := counted_pos h.counted husers
  have hcount : Counted few (users s + 1) (refcountInc s.refs) := h.counted.inc (Nat.ne_of_gt hlive) hfew
  have hlive' := counted_pos hcount (Nat.succ_ne_zero _)
  refine ⟨⟨hsteady, ?_, h.bars, fun hremoved => absurd hremoved hstage, h.mappings, h.nothing⟩, ?_⟩
  · apply Holds.moved (h.holds.congr hinfo hmaps)
    · intro k hk
      rw [Finset.mem_insert]
      exact or_iff_right (elsewhere_of_ne hk True.intro)
    · intro k hk
      refine Iff.trans ?_
        (beside_elsewhere (s := { s with dev := dev', refs := refcountInc s.refs }) h.mappings hk).symm
      rw [Finset.mem_insert, h.elsewhere hk]
      cases k with
      | tpceDev => simp [RefersTo, hlive, hlive']
      | fileCtx file =>
          simp only [RefersTo, Item.fileCtx.injEq, hnext]
          omega
      | mapping | desc | descDma | streamState => exact hk.elim
      | _ => simp [RefersTo]
    · intro obj part
      simp [Beside, Elsewhere]
  · have hmore : users { s with dev := dev', refs := refcountInc s.refs } = users s + 1 := by
      simp only [users, hfiles, List.length_cons]
      omega
    exact hmore ▸ hcount

theorem open_owned (kzallocOk : Bool) (h : Owned few s held) (hfew : few → Few s) :
    Ends some held (tpceOpen kzallocOk s : Owning Fault _) fun r held' => Owned few r.2 held' := by
  apply Ends.ite
  · exact fun _ => Ends.pure h
  intro hpresent
  apply Ends.ite
  · exact fun _ => Ends.pure h
  intro _
  obtain ⟨hstage, haway⟩ := not_or.mp hpresent
  have hopened : (Driver.tpceOpen s.dev).2 =
      { s.dev with files := s.dev.nextFile :: s.dev.files, nextFile := s.dev.nextFile + 1 } := by
    rw [Driver.tpceOpen, if_neg haway]
  have hstep : Driver.step s.dev .openFile = some (Driver.tpceOpen s.dev).2 := step_eq_some.mpr ⟨rfl, _, rfl⟩
  have hfresh : Item.fileCtx s.dev.nextFile ∉ held := fun hmem =>
    Nat.lt_irrefl _ ((h.elsewhere (k := .fileCtx s.dev.nextFile) True.intro).mp hmem)
  have hsteady := h.steady.step (fun hf => (hfew hf).2) hstep
  apply Ends.acquire rfl hfresh
  apply Ends.pure
  rw [hopened] at hsteady ⊢
  exact h.opened hstage (fun hf => (hfew hf).1) hsteady rfl (.of_eq rfl rfl) rfl rfl

/-- A reference that was counted goes, and the device with the last one. -/
theorem Tidy.put (h : Tidy few s held) (hcount : Counted few (users s + 1) s.refs) :
    Ends some held (putTpceDev s : Owning Fault Machine) fun s' held' => Owned few s' held' := by
  have hlive : Item.tpceDev ∈ held :=
    (h.elsewhere (k := .tpceDev) True.intro).mpr (counted_pos hcount (Nat.succ_ne_zero _))
  apply (putTpceDev_ends hcount hlive).mono
  rintro _ held' ⟨⟨refs, rfl, hrefs⟩, hmem⟩
  have hsame : ∀ k, k ≠ .tpceDev → (k ∈ held' ↔ k ∈ held) := fun k hk =>
    (hmem k).trans (and_iff_left fun heq => absurd heq hk)
  refine ⟨⟨h.steady, ?_, h.bars, h.withdrawn, h.mappings, h.nothing⟩, hrefs⟩
  apply Holds.moved h.holds
  · exact fun k hk => hsame k (elsewhere_of_ne hk True.intro)
  · intro k hk
    refine Iff.trans ?_ (beside_elsewhere (s := { s with refs := refs }) h.mappings hk).symm
    by_cases hdev : k = .tpceDev
    · subst hdev
      rw [hmem]
      exact ⟨fun hboth => hboth.2 rfl, fun hpos => ⟨hlive, fun _ => hpos⟩⟩
    · rw [hsame k hdev, h.elsewhere hk]
      cases k with
      | tpceDev => exact absurd rfl hdev
      | mapping | desc | descDma | streamState => exact hk.elim
      | _ => exact Iff.rfl
  · exact fun obj part => by simp [Beside, Elsewhere]

/-- The calls that neither open nor close a file, nor take the device away -/
def Inner (op : Op) : Prop := op ≠ .openFile ∧ (∀ file, op ≠ .release file) ∧ op ≠ .goAway ∧ op ≠ .remove

theorem Owned.stepped (h : Owned few s held) (hfew : few → Few s) (hop : Inner op)
    (hstep : Driver.step s.dev op = some dev') (hholds : Holds (Beside s) dev' held') :
    Owned few { s with dev := dev' } held' := by
  obtain ⟨hopen, hrelease, -, hremove⟩ := hop
  obtain ⟨hfiles, hnext⟩ := step_files hopen hrelease hstep
  have hsteady := h.steady.step (fun hf => (hfew hf).2) hstep
  refine ⟨⟨hsteady, ?_, h.bars, fun hremoved => withdrawn_step (h.withdrawn hremoved) hremove hstep,
    h.mappings, h.nothing⟩, ?_⟩
  · have hbeside : Beside { s with dev := dev' } = Beside s := beside_congr rfl rfl hnext rfl
    exact hbeside ▸ hholds
  · have husers : users { s with dev := dev' } = users s := by simp only [users, hfiles]
    rw [husers]
    exact h.counted

theorem inner_owned (h : Owned few s held) (hfew : few → Few s) (hinner : Inner op)
    (henabled : Driver.enabled s.dev op = true) (hanswered : Answered op) :
    Ends some held (do
      let (out, dev) ← Ownership.perform s.dev op
      pure (out, { s with dev := dev }) : Owning Fault (Outcome × Machine)) fun r held' => Owned few r.2 held' := by
  have hremove := hinner.2.2.2
  apply (perform_holds h.steady.toSound h.holds hanswered hremove).erased.bind
  rintro ⟨out, dev'⟩ held' ⟨hholds, herase⟩
  rw [Ownership.erase_perform] at herase
  have hdriver := (PageTableFaults.perform_curtails s.dev op).returns herase
  exact Ends.pure (h.stepped hfew hinner (step_eq_some.mpr ⟨henabled, out, hdriver⟩) hholds)

/-- The reference of a file goes with it. -/
theorem release_owned {file : ℕ} (h : Owned few s held) (hfew : few → Few s)
    (henabled : Driver.enabled s.dev (.release file) = true) :
    Ends some held (tpceRelease s file) fun r held' => Owned few r.2 held' := by
  have hfile : file ∈ s.dev.files := by
    have hboth := Bool.and_eq_true_iff.mp henabled
    exact List.contains_iff_mem.mp hboth.2
  have hrelease : Ends some held (Ownership.tpceRelease s.dev file) fun r held' => Holds (Beside s) r.2 held' :=
    release_holds h.steady.toSound h.holds
  apply hrelease.erased.bind
  rintro ⟨out, dev'⟩ held₁ ⟨hholds, herase⟩
  have hperform : Driver.perform s.dev (.release file) = .ok (out, dev') :=
    (Ownership.erase_perform s.dev (.release file)).symm.trans herase
  have hstep := step_eq_some.mpr ⟨henabled, out, hperform⟩
  obtain ⟨hfiles, hnext⟩ : dev'.files = s.dev.files.erase file ∧ dev'.nextFile = s.dev.nextFile := by
    obtain ⟨dev₁, hrelease, hrest⟩ := bind_eq_ok.mp hperform
    have hhandles := CommandSoundness.sameHandles_release hrelease
    cases hrest
    exact ⟨congrArg (List.erase · file) hhandles.files, hhandles.nextFile⟩
  have hbefore : users s = users { s with dev := dev' } + 1 := by
    have hpos : 0 < s.dev.files.length := List.length_pos_of_mem hfile
    simp only [users, hfiles, List.length_erase_of_mem hfile]
    omega
  have hcount : Counted few (users { s with dev := dev' } + 1) s.refs := hbefore ▸ h.counted
  have hbeside : Beside { s with dev := dev' } = Beside s := beside_congr rfl rfl hnext rfl
  have hsteady := h.steady.step (fun hf => (hfew hf).2) hstep
  have htidy : Tidy few { s with dev := dev' } held₁ :=
    ⟨hsteady, hbeside ▸ hholds, h.bars,
      fun hremoved => withdrawn_step (h.withdrawn hremoved) (by exact nofun) hstep, h.mappings, h.nothing⟩
  apply (htidy.put hcount).bind
  exact fun s' held' hput => Ends.pure hput

/-- The device node, the last part first -/
def nodeItems : List Item := [.device, .cdev]

theorem mem_nodeItems {k : Item} (hk : k ∈ nodeItems) : Elsewhere k ∧ (RefersTo s k ↔ s.stage = .live) := by
  rcases List.mem_cons.mp hk with rfl | hk
  · exact ⟨True.intro, Iff.rfl⟩
  · obtain rfl := List.mem_singleton.mp hk
    exact ⟨True.intro, Iff.rfl⟩

theorem Owned.nodeless {rest : Finset Item} (h : Owned few s held) (hstage : s.stage = .live)
    (hsteady : Steady few dev') (hinfo : dev'.dmaInfo = s.dev.dmaInfo) (hmaps : SameMaps s.dev dev')
    (hfiles : dev'.files = s.dev.files) (hnext : dev'.nextFile = s.dev.nextFile)
    (hrest : ∀ k, k ∈ rest ↔ k ∈ held ∧ k ∉ nodeItems) :
    Owned few { s with dev := dev', stage := .going } rest := by
  have hlive : s.stage ≠ .removed := by simp [hstage]
  refine ⟨⟨hsteady, ?_, h.bars, nofun, h.mappings, fun _ => h.nothing hlive⟩, ?_⟩
  · apply Holds.moved (h.holds.congr hinfo hmaps)
    · intro k hk
      exact (hrest k).trans (and_iff_left fun hmem => hk (mem_nodeItems (s := s) hmem).1)
    · intro k hk
      refine Iff.trans ?_ (beside_elsewhere (s := { s with dev := dev', stage := .going }) h.mappings hk).symm
      rw [hrest, h.elsewhere hk]
      cases k with
      | mapping | desc | descDma | streamState => exact hk.elim
      | _ => simp [RefersTo, nodeItems, hstage, hnext]
    · exact fun obj part => by simp [Beside, Elsewhere]
  · have husers : users { s with dev := dev', stage := .going } = users s := by simp [users, hfiles, hstage]
    exact husers ▸ h.counted

theorem goAway_owned (h : Owned few s held) (hfew : few → Few s) (hstage : s.stage = .live)
    (henabled : Driver.enabled s.dev .goAway = true) :
    Ends some held (goAway s : Owning Fault _) fun r held' => Owned few r.2 held' := by
  have hnode : ∀ k ∈ nodeItems, k ∈ held := by
    intro k hk
    obtain ⟨helse, href⟩ := mem_nodeItems (s := s) hk
    exact (h.elsewhere helse).mpr (href.mpr hstage)
  obtain ⟨rest, hstacked, hapart, hrest⟩ := exists_stacked (by decide) hnode
  have hstep : Driver.step s.dev .goAway = some { s.dev with goingAway := true } :=
    step_eq_some.mpr ⟨henabled, .returned 0, rfl⟩
  have hgone := h.nodeless hstage (h.steady.step (fun hf => (hfew hf).2) hstep) rfl (.of_eq rfl rfl) rfl rfl hrest
  rw [hstacked]
  apply pop hapart rfl
  apply pop hapart.tail rfl
  exact Ends.pure hgone

/-- What `tpce_device_remove` gives back behind `tpce_dma_free`, in this order -/
def removedItems : List Item := pciItems ++ [.drvdata, .tableEntry, .minor, .ioBuffer]

theorem mem_removedItems {k : Item} (hk : k ∈ removedItems) :
    Elsewhere k ∧ (RefersTo s k ↔ s.stage ≠ .removed) := by
  simp only [removedItems, pciItems, List.cons_append, List.nil_append, List.mem_cons, List.not_mem_nil,
    or_false] at hk
  rcases hk with rfl | rfl | rfl | rfl | rfl | rfl | rfl | rfl | rfl | rfl
  all_goals exact ⟨True.intro, Iff.rfl⟩

theorem finishRemove_withdrawn {out : Outcome} (hsound : Sound dev) (haway : dev.goingAway = true)
    (hwaiting : dev.waiting = none) (h : Requests.finishRemove dev = .ok (out, dev')) : Withdrawn dev' where
  away := (CommandSoundness.sameHandles_remove h).goingAway.trans haway
  waiting := (Teardown.tornDown_remove h).waiting.trans hwaiting
  lists := MappingLiveness.removed_lists hsound.clean hsound.consistent h
  idle := MappingLiveness.removed_idle h
  bare := finishRemove_bare hsound h

theorem Owned.removed {rest : Finset Item} (h : Owned few s held) (hstage : s.stage = .going)
    (hsteady : Steady few dev') (hwithdrawn : Withdrawn dev') (hholds : Holds (Left (Beside s) s.dev) dev' held')
    (hnext : dev'.nextFile = s.dev.nextFile)
    (hrest : ∀ k, k ∈ rest ↔ k ∈ held' ∧ k ∉ removedItems) :
    Tidy few { s with dev := dev', stage := .removed, stranded := strandedParts s.dev } rest := by
  have hlive : s.stage ≠ .removed := by simp [hstage]
  have hstranded := mem_strandedParts h.steady.kinds
  have hmappings : ∀ k ∈ strandedParts s.dev, ∃ obj part, k = .mapping obj part := by
    intro k hk
    obtain ⟨obj, m, part, rfl, -⟩ := (hstranded k).mp hk
    exact ⟨obj, part, rfl⟩
  refine ⟨hsteady, ?_, h.bars, fun _ => hwithdrawn, hmappings, fun hno => absurd rfl hno⟩
  apply Holds.moved hholds
  · intro k hk
    exact (hrest k).trans (and_iff_left fun hmem => hk (mem_removedItems (s := s) hmem).1)
  · intro k hk
    have hleft : Left (Beside s) s.dev k ↔ RefersTo s k := by
      refine (or_iff_left ?_).trans (beside_elsewhere h.mappings hk)
      rintro ⟨obj, m, part, rfl, -⟩
      exact hk
    refine Iff.trans ?_ (beside_elsewhere
      (s := { s with dev := dev', stage := .removed, stranded := strandedParts s.dev }) hmappings hk).symm
    rw [hrest, hholds.elsewhere k hk, hleft]
    cases k with
    | mapping | desc | descDma | streamState => exact hk.elim
    | bar i =>
        have hmem : Item.bar i ∈ removedItems := by
          obtain rfl | rfl := bar0_or_bar2 i
          · simp [removedItems, pciItems]
          · simp [removedItems, pciItems]
        simp [RefersTo, hmem]
    | _ => simp [RefersTo, removedItems, pciItems, hstage, hnext]
  · intro obj part
    rw [Beside, hstranded, Left, Beside, h.nothing hlive]
    simp [Elsewhere]

theorem remove_owned (h : Owned few s held) (hfew : few → Few s) (hstage : s.stage = .going)
    (henabled : Driver.enabled s.dev .remove = true) :
    Ends some held (finishRemove s) fun r held' => Owned few r.2 held' := by
  have hlive : s.stage ≠ .removed := by simp [hstage]
  obtain ⟨hmutex, haway⟩ := Bool.and_eq_true_iff.mp henabled
  have hwaiting : s.dev.waiting = none := Option.isNone_iff_eq_none.mp (Bool.and_eq_true_iff.mp hmutex).1
  apply (finishRemove_given h.steady.toSound h.holds).bind
  rintro ⟨out, dev'⟩ held₁ ⟨hbare, hholds, hremove⟩
  have hstep : Driver.step s.dev .remove = some dev' := step_eq_some.mpr ⟨henabled, out, hremove⟩
  have hwithdrawn := finishRemove_withdrawn h.steady.toSound haway hwaiting hremove
  have hhandles := CommandSoundness.sameHandles_remove hremove
  have hall : ∀ k ∈ removedItems, k ∈ held₁ := by
    intro k hk
    obtain ⟨helse, href⟩ := mem_removedItems (s := s) hk
    exact (hholds.elsewhere k helse).mpr (.inl ((beside_elsewhere h.mappings helse).mpr (href.mpr hlive)))
  obtain ⟨rest, hstacked, hapart, hrest⟩ := exists_stacked (by decide) hall
  have hsteady := h.steady.step (fun hf => (hfew hf).2) hstep
  have htidy := h.removed hstage hsteady hwithdrawn hholds hhandles.nextFile hrest
  have hcount : Counted few (users { s with dev := dev', stage := .removed, stranded := strandedParts s.dev } + 1)
      s.refs := by
    have husers := h.counted
    rw [users_live hlive] at husers
    simpa [users, hhandles.files] using husers
  rw [hstacked, removedItems, stacked_append]
  apply (pciFree_ends hapart.above h.bars).bind
  rintro _ _ rfl
  apply pop hapart.below rfl
  apply pop hapart.below.tail rfl
  apply pop hapart.below.tail.tail rfl
  apply pop hapart.below.tail.tail.tail rfl
  apply (htidy.put hcount).bind
  exact fun s' held' hput => Ends.pure hput

/-- What the kernel answers to a call -/
def Answers : Event → Prop
  | .open _ => True
  | .call op => Answered op

theorem perform_owned (h : Owned few s held) (hfew : few → Few s) (henabled : enabled s event = true)
    (hanswers : Answers event) :
    Ends some held (perform s event) fun s' held' => Owned few s' held' := by
  have hreturn : ∀ {m : Owning Fault (Outcome × Machine)}, Ends some held m (fun r held' => Owned few r.2 held') →
      Ends some held (do
        let r ← m
        pure r.2 : Owning Fault Machine) fun s' held' => Owned few s' held' := fun hm =>
    hm.bind fun r held' hr => Ends.pure hr
  cases event with
  | «open» kzallocOk =>
      apply (open_owned kzallocOk h hfew).bind
      exact fun r held' hr => Ends.pure hr
  | call op =>
      apply hreturn
      cases op with
      | openFile => cases henabled
      | release file => exact release_owned h hfew henabled
      | goAway =>
          obtain ⟨hstage, henabled⟩ := Bool.and_eq_true_iff.mp henabled
          exact goAway_owned h hfew (of_decide_eq_true hstage) henabled
      | remove =>
          obtain ⟨hstage, henabled⟩ := Bool.and_eq_true_iff.mp henabled
          exact remove_owned h hfew (of_decide_eq_true hstage) henabled
      | _ =>
          refine inner_owned h hfew ⟨?_, ?_, ?_, ?_⟩ henabled hanswers
          all_goals exact nofun

/-- The trace is one of acquiring and giving back in order, and leaves what the machine
owns. -/
def Recorded (few : Prop) (s : Machine) : Prop := ∃ held, heldAfter ∅ s.trace = some held ∧ Owned few s held

theorem Recorded.step (h : Recorded few s) (hanswers : Answers event) (hfew : few → Few s)
    (hstep : DeviceLife.step s event = some s') : Recorded few s' := by
  obtain ⟨held, hheld, howned⟩ := h
  simp only [DeviceLife.step] at hstep
  split at hstep
  · rename_i henabled
    obtain ⟨⟨s₁, t⟩, hrun, rfl⟩ := Option.map_eq_some_iff.mp hstep
    obtain ⟨held', hheld', howned'⟩ := perform_owned howned hfew henabled hanswers s₁ t (toOption_eq_some.mp hrun)
    rw [List.filterMap_some] at hheld'
    have htidy := howned'.toTidy
    refine ⟨held', ?_, ⟨htidy.steady, htidy.holds, htidy.bars, htidy.withdrawn, htidy.mappings, htidy.nothing⟩,
      howned'.counted⟩
    exact (heldAfter_append_of hheld).trans hheld'
  · cases hstep

theorem start_recorded {env : ProbeEnv} {board : Board} {t : List (Access Item)}
    (hended : Ended env (0, some board) held) (hheld : heldAfter ∅ t = some held) :
    Recorded few (Machine.start board t) := by
  obtain ⟨hready, -, heq, rfl⟩ | ⟨-, hneg, -⟩ := hended
  · obtain rfl := Option.some.inj (Prod.mk.inj heq).2
    have hbase : ∀ k ∈ stacked (nodeItems ++ pciItems ++ deviceItems) ∅, Elsewhere k := by
      intro k hk
      simp only [mem_stacked, nodeItems, pciItems, deviceItems, List.cons_append, List.nil_append, List.mem_cons,
        List.not_mem_nil, Finset.notMem_empty, or_false] at hk
      rcases hk with rfl | rfl | rfl | rfl | rfl | rfl | rfl | rfl | rfl | rfl | rfl | rfl | rfl
      all_goals exact True.intro
    have hmem : ∀ k, k ∈ stacked probedItems ∅ ↔
        k ∈ stacked (bufferItems 0 256) (stacked (nodeItems ++ pciItems ++ deviceItems) ∅) := by
      intro k
      simp only [mem_stacked, probedItems, nodeItems, List.mem_append]
      tauto
    have hnone : ∀ k ∈ (Machine.start (probedBoard env) t).stranded, ∃ obj part, k = .mapping obj part :=
      fun _ hno => absurd hno List.not_mem_nil
    have hlive : (Machine.start (probedBoard env) t).stage ≠ .removed := by simp [Machine.start]
    have helsewhere : ∀ k, Elsewhere k →
        (k ∈ stacked (nodeItems ++ pciItems ++ deviceItems) ∅ ↔ Beside (Machine.start (probedBoard env) t) k) := by
      intro k hk
      refine Iff.trans ?_ (beside_elsewhere (s := Machine.start (probedBoard env) t) hnone hk).symm
      cases k with
      | bar i =>
          obtain rfl | rfl := bar0_or_bar2 i
          · simp [mem_stacked, nodeItems, pciItems, RefersTo, Machine.start]
          · simp [mem_stacked, nodeItems, pciItems, RefersTo, Machine.start]
      | fileCtx file =>
          simp [mem_stacked, nodeItems, pciItems, deviceItems, RefersTo, Machine.start, probedBoard, TpceDev.init]
      | mapping | desc | descDma | streamState => exact hk.elim
      | _ => simp [mem_stacked, nodeItems, pciItems, deviceItems, RefersTo, Machine.start, probedBoard]
    have hinit : Holds (· ∈ stacked (nodeItems ++ pciItems ++ deviceItems) ∅) (TpceDev.init env.buffer.sgt)
        (stacked (bufferItems 0 256) (stacked (nodeItems ++ pciItems ++ deviceItems) ∅)) := holds_init hbase
    have hholds : Holds (Beside (Machine.start (probedBoard env) t)) (TpceDev.init env.buffer.sgt)
        (stacked probedItems ∅) := by
      apply Holds.moved hinit
      · exact fun k _ => hmem k
      · intro k hk
        exact (hmem k).trans ((hinit.elsewhere k hk).trans (helsewhere k hk))
      · intro obj part
        exact iff_of_false (fun hno => hno.elim And.left (by simp [Machine.start])) fun hno => hbase _ hno
    have htidy : Tidy few (Machine.start (probedBoard env) t) (stacked probedItems ∅) :=
      ⟨⟨.init _, referenced_init _ few⟩, hholds, mappedBars_vaddr hready.pci, fun hno => absurd hno hlive, hnone, fun _ => rfl⟩
    have hone : (1 : ℕ) < 2 ^ 31 := by decide
    exact ⟨_, hheld, htidy, .inl ⟨rfl, hone⟩⟩
  · exact absurd hneg (lt_irrefl 0)

/-- The file contexts stay, whatever else is given back. -/
def OnlyContextsLeft (s : Machine) : Prop :=
  ∃ held, heldAfter ∅ s.trace = some held ∧
    ∀ k, k ∈ held ↔ (∃ file < s.dev.nextFile, k = .fileCtx file) ∨ k ∈ s.stranded

/-- Removed, with no file open and no area mapped -/
def Unused (s : Machine) : Prop := s.stage = .removed ∧ s.dev.files = [] ∧ ∀ c, s.dev.vmas c = 0

theorem Owned.unused (h : Owned True s held) (hunused : Unused s) (k : Item) :
    RefersTo s k ↔ ∃ file < s.dev.nextFile, k = .fileCtx file := by
  obtain ⟨hstage, hfiles, hareas⟩ := hunused
  have hwithdrawn := h.withdrawn hstage
  have husers : users s = 0 := by simp [users, hfiles, hstage]
  have hrefs : s.refs = 0 := by
    rcases h.counted with ⟨hrefs, -⟩ | ⟨-, hno⟩
    · exact hrefs.trans husers
    · exact absurd True.intro hno
  have hstate : ∀ c, (s.dev.dmaInfo c).streamInfo.state = none := by
    intro c
    have hc := h.steady.referenced c
    have hholders : holders s.dev c = 0 := by
      rw [holders, hareas c, streamRef, if_neg fun hno => hno.2 (hwithdrawn.idle c)]
    rw [hc.live]
    rcases hc.count with ⟨hcount, -⟩ | ⟨-, hno⟩
    · exact hcount.trans hholders
    · exact absurd True.intro hno
  cases k with
  | fileCtx file => simp [RefersTo]
  | mapping obj part => simp [RefersTo, hwithdrawn.bare.infos]
  | desc c => simp [RefersTo, hwithdrawn.bare.desc]
  | descDma c => simp [RefersTo, hwithdrawn.bare.descDma]
  | streamState c => simp [RefersTo, hstate]
  | _ => simp [RefersTo, hrefs, hstage]

/-- From a probe on, in every run, what is held is what the driver refers to and what the
removal has stranded. Where the counts do not overflow, everything but the contexts of the
files is given back once the device is removed and unused. -/
theorem resources_accounted (env : ProbeEnv) (hpci : NegativeCodes env.pci) (hcdev : env.cdevAdd ≤ 0) (board : Board)
    (t : List (Access Item)) (hprobe : (tpceDeviceInit env).run = .ok ((0, some board), t)) (events : List Event)
    (hanswers : ∀ event ∈ events, Answers event) :
    Always DeviceLife.step Accounted (Machine.start board t) events ∧
      (Along DeviceLife.step (fun s _ => Few s) (Machine.start board t) events →
        Always DeviceLife.step (fun s => Unused s → OnlyContextsLeft s) (Machine.start board t) events) := by
  obtain ⟨held, hheld, hended, -⟩ := deviceInit_ends hpci hcdev _ _ hprobe
  rw [List.filterMap_some] at hheld
  have hanswered : Along DeviceLife.step (fun _ event => Answers event) (Machine.start board t) events :=
    along_of_forall fun event hevent _ => hanswers event hevent
  constructor
  · have halways := always_of_along (K := Recorded False)
      (fun _ _ _ h hanswer hstep => h.step hanswer False.elim hstep) (start_recorded hended hheld) hanswered
    apply halways.mono
    rintro s ⟨held', hheld', howned⟩
    exact ⟨held', hheld', howned.accounted⟩
  · intro hfew
    have halways := always_of_along (K := Recorded True)
      (fun _ _ _ h hboth hstep => h.step hboth.2 (fun _ => hboth.1) hstep) (start_recorded hended hheld)
      (hfew.and hanswered)
    apply halways.mono
    rintro s ⟨held', hheld', howned⟩ hunused
    refine ⟨held', hheld', fun k => ?_⟩
    rw [howned.accounted, howned.unused hunused]

/-- A file locks a page and is closed, and the device is removed. -/
def lockedAndRemoved : List Event :=
  [.open true, .call (.lockBuffer 0 (tableEnv 0) pageBuffer), .call (.release 0), .call .goAway, .call .remove]

theorem lockedAndRemoved_accounted : ∃ t,
    Always DeviceLife.step Accounted (Machine.start (probedBoard grantedProbe) t) lockedAndRemoved ∧
      (Along DeviceLife.step (fun s _ => Few s) (Machine.start (probedBoard grantedProbe) t) lockedAndRemoved →
        Always DeviceLife.step (fun s => Unused s → OnlyContextsLeft s)
          (Machine.start (probedBoard grantedProbe) t) lockedAndRemoved) := by
  refine ⟨_, resources_accounted grantedProbe ⟨le_rfl, le_rfl, le_rfl⟩ le_rfl _ _ rfl lockedAndRemoved ?_⟩
  simp only [lockedAndRemoved, List.forall_mem_cons, Answers, Answered]
  exact ⟨True.intro, tableEnv_results 0, True.intro, True.intro, True.intro, fun _ hno => absurd hno List.not_mem_nil⟩

end TpceDrv.OwnershipRuns
