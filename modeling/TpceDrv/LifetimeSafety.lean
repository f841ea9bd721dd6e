import TpceDrv.CommandSoundness
import TpceDrv.Lifetime
import TpceDrv.Registry

namespace TpceDrv.LifetimeSafety

open DmaInfo Mapping Device ChannelControl RequestSteps Effects Teardown MappingTable RequestAtomicity MappingEffects
open MappingLiveness CommandSoundness TracedIoctl Lifetime Library.Buffers Library.Holdings Library.Traces
open Library.Errors Library.Runs
open PageTableFaults (FullTable)
open IoctlCommands (Kernel Session IoDev CopyEnv UserCall IoctlFault IoctlResult takesMutex)
open Requests (Outcome MmapEnv)

variable {ε α : Type} {held : Finset Object} {w w' : World} {event : Event} {dev dev' : TpceDev} {file : ℕ}
variable {c : Channel} {t : List Touch}

/-- Nothing is freed, and everything that is used is held. -/
def UsesOnly (held : Finset Object) (t : List Touch) : Prop := ∀ e ∈ t, ∃ k ∈ held, e = .use k

theorem usesOnly_additive (held : Finset Object) : Additive (UsesOnly held) where
  nil := fun _ h => absurd h List.not_mem_nil
  append := fun _ _ ht hu e he => (List.mem_append.mp he).elim (ht e) (hu e)

theorem UsesOnly.heldAfter (h : UsesOnly held t) :
    Library.Holdings.heldAfter held (t.filterMap Touch.access) = some held := by
  apply heldAfter_uses
  intro e he
  obtain ⟨touch, htouch, haccess⟩ := List.mem_filterMap.mp he
  obtain ⟨k, hk, rfl⟩ := h touch htouch
  exact ⟨k, hk, (Option.some.inj haccess).symm⟩

theorem touch_uses {k : Object} (hk : k ∈ held) : Leaves (UsesOnly held) (touch k : Touching ε Unit) :=
  Leaves.emits fun _ he => ⟨k, hk, List.mem_singleton.mp he⟩

theorem touchIf_uses {p : Prop} [Decidable p] {k : Object} (hk : k ∈ held) :
    Leaves (UsesOnly held) (touchIf p k : Touching ε Unit) :=
  Leaves.ite (fun _ => touch_uses hk) fun _ => Leaves.pure (usesOnly_additive held) ()

section
variable (hbars : ∀ bar, barObject bar ∈ held) (hbar2 : Object.bar2 ∈ held)
include hbar2

theorem reset_uses (dev : TpceDev) (c : Channel) : Leaves (UsesOnly held) (Lifetime.resetDmaInfo dev c) :=
  (touchIf_uses hbar2).bind (usesOnly_additive held) fun _ => Leaves.lift (usesOnly_additive held) _

theorem dispatch_uses (env : InitEnv) (dev : TpceDev) (c : Channel) :
    Leaves (UsesOnly held) (Lifetime.dmaDispatch env dev c) := by
  have hP := usesOnly_additive held
  exact (Leaves.lift hP _).bind hP fun started => (touchIf_uses hbar2).bind hP fun _ => Leaves.pure hP _

theorem dmaExecute_uses (env : InitEnv) (waiting : Waiting) (dev : TpceDev) (req : TpceDmaRequest) :
    Leaves (UsesOnly held) (Lifetime.dmaExecute env waiting dev req) := by
  have hP := usesOnly_additive held
  simp only [Lifetime.dmaExecute]
  split
  · refine (Leaves.lift hP _).bind hP fun init => Leaves.ite (fun _ => Leaves.pure hP _) fun _ => ?_
    refine (dispatch_uses hbar2 _ _ _).bind hP fun started => Leaves.ite (fun _ => ?_) fun _ => ?_
    · exact (reset_uses hbar2 _ _).bind hP fun _ => Leaves.pure hP _
    refine Leaves.ite (fun _ => Leaves.pure hP _) fun _ => (Leaves.lift hP _).bind hP fun _ => ?_
    exact (reset_uses hbar2 _ _).bind hP fun _ => Leaves.pure hP _
  · exact Leaves.pure hP _

theorem resetChannels_uses (dev : TpceDev) (cs : List Channel) :
    Leaves (UsesOnly held) (Lifetime.resetChannels dev cs) := by
  induction cs generalizing dev with
  | nil => exact Leaves.pure (usesOnly_additive held) _
  | cons c cs ih => exact (reset_uses hbar2 _ _).bind (usesOnly_additive held) fun dev₁ => ih dev₁

theorem dmaFree_uses (dev : TpceDev) : Leaves (UsesOnly held) (Lifetime.tpceDmaFree dev) := by
  have hP := usesOnly_additive held
  refine (Leaves.lift hP _).bind hP fun dev₁ => ?_
  generalize List.finRange 3 = cs
  induction cs generalizing dev₁ with
  | nil => exact Leaves.pure hP _
  | cons c cs ih => exact (touchIf_uses hbar2).bind hP fun _ => ih _

include hbars in
theorem touchingOps_uses : touchingOps.Leave (UsesOnly held) where
  abortReset := fun dev c => by
    have hP := usesOnly_additive held
    exact ((touch_uses hbar2).bind hP fun _ => Leaves.pure hP _).bind hP fun _ => reset_uses hbar2 _ _
  dmaExecute := dmaExecute_uses hbar2
  barRead := fun k regInfo s => by
    have hP := usesOnly_additive held
    simp only [touchingOps, Lifetime.iocBarRead]
    split
    · refine Leaves.ite (fun _ => Leaves.pure hP _) fun _ => ?_
      split
      · exact (touch_uses (hbars _)).bind hP fun _ => Leaves.pure hP _
      · exact Leaves.pure hP _
    · exact Leaves.lift hP _
  barWrite := fun k regInfo s => by
    have hP := usesOnly_additive held
    simp only [touchingOps, Lifetime.iocBarWrite]
    split
    · refine Leaves.ite (fun _ => Leaves.pure hP _) fun _ => ?_
      split
      · exact (touch_uses (hbars _)).bind hP fun _ => Leaves.pure hP _
      · exact Leaves.pure hP _
    · exact Leaves.lift hP _

end

theorem mem_objects (k : Object) : k ∈ objects := by
  cases k with
  | tpceDev | ioBuffer | bar0 | bar2 => decide

theorem objects_uses : touchingOps.Leave (UsesOnly objects) :=
  touchingOps_uses (fun _ => mem_objects _) (mem_objects _)

/-- A call that the device lets in finds all of its objects, and
`TPCE_IOC_DMA_STATUS`, which is always let in, finds the shared buffer. -/
theorem ioctl_uses (k : Kernel) {env : CopyEnv} {call : UserCall} {s : IoDev} (hdev : Object.tpceDev ∈ held)
    (hstatus : call.cmd = .dmaStatus → env.argOk = true → Object.ioBuffer ∈ held)
    (hpresent : s.dev.goingAway = false → held = objects) :
    Leaves (UsesOnly held) (Lifetime.tpceIoctl k env call s) := by
  have hP := usesOnly_additive held
  refine Leaves.ite (fun _ => Leaves.pure hP _) fun hargument => (touch_uses hdev).bind hP fun _ => ?_
  have hargument : env.argOk = true := by simpa using hargument
  split
  · exact Leaves.pure hP _
  · rename_i hcmd
    exact (touch_uses (hstatus hcmd hargument)).bind hP fun _ => Leaves.lift hP _
  · refine Leaves.ite (fun _ => Leaves.pure hP _) fun _ => Leaves.ite (fun _ => Leaves.pure hP _) fun haway => ?_
    obtain rfl := hpresent (Bool.eq_false_iff.mpr haway)
    refine Leaves.ite (fun _ => Leaves.pure hP _) fun _ => ?_
    refine (touchIf_uses (mem_objects _)).bind hP fun _ => Leaves.ite (fun _ => Leaves.lift hP _) fun _ => ?_
    refine Leaves.ite (fun _ => Leaves.pure hP _) fun _ => ?_
    exact (dispatch_leaves hP objects_uses k _ _ _ _ _ _).bind hP fun _ => Leaves.pure hP _

/-- What is to be left of the objects -/
def remaining (w : World) : Finset Object :=
  if w.listed then objects else if w.io.dev.files = [] then ∅ else {.tpceDev}

/-- The device is between two calls, and its reference count tells its open files
and whether it is still in the list. -/
structure Coherent (w : World) : Prop where
  between : Between w.io.dev
  away : w.io.dev.goingAway = !w.listed
  refs : w.refs = w.io.dev.files.length + if w.listed then 1 else 0
  few : w.refs < 2 ^ 31
  areas : ∀ file c, 0 < w.areas file c → file ∈ w.io.dev.files
  unlisted : w.listed = false → ∀ file, w.io.dev.dmaMapSublist file = []

theorem remaining_listed (h : w.listed = true) : remaining w = objects := if_pos h

theorem mem_remaining : Object.tpceDev ∈ remaining w ↔ w.listed = true ∨ w.io.dev.files ≠ [] := by
  simp only [remaining]
  split
  · rename_i hlisted
    exact iff_of_true (mem_objects _) (.inl hlisted)
  · rename_i hlisted
    split
    · rename_i hfiles
      exact iff_of_false (Finset.notMem_empty _) fun h => h.elim hlisted fun hne => hne hfiles
    · rename_i hfiles
      exact iff_of_true (Finset.mem_singleton_self _) (.inr hfiles)

theorem tpceDev_remaining (hfile : file ∈ w.io.dev.files) : Object.tpceDev ∈ remaining w :=
  mem_remaining.mpr (.inr (List.ne_nil_of_mem hfile))

/-- What a call may leave behind that neither opens nor closes a file -/
structure SameFiles (dev dev' : TpceDev) : Prop where
  between : Between dev'
  files : dev'.files = dev.files
  goingAway : dev'.goingAway = dev.goingAway
  lists : dev.goingAway = true → dev'.dmaMapSublist = dev.dmaMapSublist

theorem Coherent.congr (h : Coherent w) (hdev : SameFiles w.io.dev w'.io.dev) (hlisted : w'.listed = w.listed)
    (hrefs : w'.refs = w.refs) (hareas : ∀ file c, 0 < w'.areas file c → file ∈ w.io.dev.files) :
    Coherent w' ∧ remaining w' = remaining w := by
  refine ⟨⟨hdev.between, ?_, ?_, hrefs ▸ h.few, fun file c harea => hdev.files ▸ hareas file c harea, ?_⟩, ?_⟩
  · rw [hdev.goingAway, hlisted, h.away]
  · rw [hrefs, hdev.files, hlisted, h.refs]
  · intro haway file
    rw [hlisted] at haway
    rw [hdev.lists (by rw [h.away, haway]; rfl)]
    exact h.unlisted haway file
  · simp only [remaining, hlisted, hdev.files]

theorem mmap_sameFiles (h : Between dev) (env : MmapEnv) (c : Channel) :
    SameFiles dev (Requests.tpceMmap env dev c).2 := by
  cases hmmap : Requests.tpceMmap env dev c with
  | mk out dev' =>
      rcases mmap_cases hmmap with rfl | rfl | ⟨info, hinfo, rfl | rfl⟩
      · exact ⟨h, rfl, rfl, fun _ => rfl⟩
      · exact ⟨h.elsewhere rfl rfl rfl rfl, rfl, rfl, fun _ => rfl⟩
      · obtain ⟨-, hstream, -⟩ := (mmapStreamInfo_spec hinfo).resolve_left fun h => absurd h.1 (by decide)
        refine ⟨h.stream c _ ?_, rfl, rfl, fun _ => rfl⟩
        rw [hstream]
        rfl
      · obtain ⟨-, hstream, -⟩ := (mmapStreamInfo_spec hinfo).resolve_left fun h => absurd h.1 (by decide)
        exact ⟨(h.stream c info hstream).elsewhere rfl rfl rfl rfl, rfl, rfl, fun _ => rfl⟩

theorem vmaOpen_sameFiles (h : Between dev) (c : Channel) : SameFiles dev (Requests.vmaStreamInfoOpen dev c) :=
  ⟨(h.stream c (incStreamRefs (dev.dmaInfo c)) rfl).elsewhere rfl rfl rfl rfl, rfl, rfl, fun _ => rfl⟩

theorem vmaClose_sameFiles (h : Between dev) (c : Channel) : SameFiles dev (Requests.vmaStreamInfoClose dev c) :=
  ⟨(h.stream c (tpceFreeStreamInfo (dev.dmaInfo c)) rfl).elsewhere rfl rfl rfl rfl, rfl, rfl, fun _ => rfl⟩

/-- What a call leaves behind: a coherent world with the objects that are to be
left -/
def After (w : World) (r : ℤ × World) (held : Finset Object) : Prop :=
  Coherent r.2 ∧ r.2.trace = w.trace ∧ held = remaining r.2

theorem after_same (h : Coherent w) (status : ℤ) : After w (status, w) (remaining w) := ⟨h, rfl, rfl⟩

theorem after_congr (h : Coherent w) {status : ℤ} (hdev : SameFiles w.io.dev w'.io.dev) (hlisted : w'.listed = w.listed)
    (hrefs : w'.refs = w.refs) (htrace : w'.trace = w.trace)
    (hareas : ∀ file c, 0 < w'.areas file c → file ∈ w.io.dev.files) : After w (status, w') (remaining w) := by
  obtain ⟨hcoherent, hremaining⟩ := h.congr hdev hlisted hrefs hareas
  exact ⟨hcoherent, htrace, hremaining.symm⟩

theorem ends_touch {k : Object} (hk : k ∈ held) {g : Unit → Touching ε α} {Q : α → Finset Object → Prop}
    (h : Ends Touch.access held (g ()) Q) : Ends Touch.access held (touch k >>= g) Q := by
  have hused : heldAfter held [.use k] = some held := heldAfter_use hk
  exact Ends.emits hused h

theorem ends_free {k : Object} (hk : k ∈ held) {g : Unit → Touching ε α} {Q : α → Finset Object → Prop}
    (h : Ends Touch.access (held.erase k) (g ()) Q) : Ends Touch.access held (emit (.free k) >>= g) Q :=
  Ends.release rfl hk h

theorem open_ends (h : Coherent w) {kzallocOk : Bool}
    (hfew : kzallocOk = true → w.listed = true → w.refs < 2 ^ 31 - 1) :
    Ends Touch.access (remaining w) (Lifetime.tpceOpen kzallocOk w : Touching ε _) (After w) := by
  refine Ends.ite (fun _ => Ends.pure (after_same h _)) fun hlisted => ?_
  have hlisted : w.listed = true := by simpa using hlisted
  have hremaining := remaining_listed hlisted
  apply ends_touch (hremaining ▸ mem_objects _)
  refine Ends.ite (fun _ => Ends.pure (after_same h _)) fun haway => ?_
  refine Ends.ite (fun _ => Ends.pure (after_same h _)) fun halloc => Ends.pure ?_
  have hfew := hfew (by simpa using halloc) hlisted
  have hrefs := h.refs
  rw [if_pos hlisted] at hrefs
  have hinc : refcountInc w.refs = w.refs + 1 := if_neg (by omega)
  have hopen : (Driver.tpceOpen w.io.dev).2 =
      { w.io.dev with files := w.io.dev.nextFile :: w.io.dev.files, nextFile := w.io.dev.nextFile + 1 } := by
    simp only [Driver.tpceOpen, haway]
    rfl
  rw [hopen]
  refine ⟨⟨h.between.elsewhere rfl rfl rfl rfl, h.away, ?_, ?_, ?_, h.unlisted⟩, rfl, ?_⟩
  · change refcountInc w.refs = (w.io.dev.nextFile :: w.io.dev.files).length + if w.listed then 1 else 0
    rw [hinc, hrefs, if_pos hlisted, List.length_cons]
  · change refcountInc w.refs < 2 ^ 31
    omega
  · exact fun file c harea => List.mem_cons_of_mem _ (h.areas file c harea)
  · rw [hremaining]
    exact (if_pos hlisted).symm

/-- Without the device a call is turned away, or is about its file only. -/
theorem ioctl_away {k : Kernel} {env : CopyEnv} {call : UserCall} {s : IoDev} {result : IoctlResult}
    (haway : s.dev.goingAway = true) (h : IoctlCommands.tpceIoctl k env call s = .ok result) :
    result.after.dev = s.dev := by
  simp only [IoctlCommands.tpceIoctl] at h
  split at h
  · cases h
    rfl
  split at h
  · cases h
    rfl
  · exact (dmaStatus_yields env call s).returns result h
  · simp only [IoctlCommands.ioctlDispatched, haway] at h
    split at h
    · cases h
      rfl
    · cases h
      rfl

theorem ioctl_ends (h : Coherent w) (k : Kernel) {env : CopyEnv} {call : UserCall}
    (hfile : call.file ∈ w.io.dev.files) (hmutex : takesMutex env call = true → w.io.dev.mutexLeaked = false)
    (hstatus : call.cmd = .dmaStatus → env.argOk = true → w.listed = true) (hfree : FreesOwn env call w.io) :
    Ends Touch.access (remaining w) (Lifetime.ioctl k env call w) (After w) := by
  have huses : Leaves (UsesOnly (remaining w)) (Lifetime.tpceIoctl k env call w.io) := by
    refine ioctl_uses k (tpceDev_remaining hfile) (fun hcmd hargument => ?_) fun hpresent => ?_
    · rw [remaining_listed (hstatus hcmd hargument)]
      exact mem_objects _
    · rw [h.away] at hpresent
      exact remaining_listed (by simpa using hpresent)
  refine (huses.ends fun t ht => ht.heldAfter).bind ?_
  rintro result _ ⟨rfl, herase⟩
  have herase := (ioctl_curtails k env call w.io).returns herase
  have hreturned := (ioctl_yields h.between hfile hmutex k hfree).returns result herase
  refine Ends.pure (after_congr h ⟨hreturned.between, hreturned.handles.files, hreturned.handles.goingAway, ?_⟩
    rfl rfl rfl h.areas)
  intro haway
  exact congrArg TpceDev.dmaMapSublist (ioctl_away haway herase)

theorem areas_added {files : List ℕ} (h : ∀ f c, 0 < w.areas f c → f ∈ files) (hfile : file ∈ files) (f : ℕ)
    (c' : Channel) (harea : 0 < (w.addArea file c).areas f c') : f ∈ files := by
  simp only [World.addArea] at harea
  split at harea
  · rename_i heq
    exact heq.1 ▸ hfile
  · exact h f c' harea

theorem areas_removed {files : List ℕ} (h : ∀ f c, 0 < w.areas f c → f ∈ files) (f : ℕ) (c' : Channel)
    (harea : 0 < (w.removeArea file c).areas f c') : f ∈ files := by
  simp only [World.removeArea] at harea
  split at harea
  · exact h f c' (by omega)
  · exact h f c' harea

theorem mmap_ends (h : Coherent w) (hfile : file ∈ w.io.dev.files) (env : MmapEnv) (off size : U64) :
    Ends Touch.access (remaining w) (Lifetime.tpceMmap file env off size w : Touching ε _) (After w) := by
  apply ends_touch (tpceDev_remaining hfile)
  split
  · exact Ends.pure (after_same h _)
  · rename_i c hchannel
    have hsame := mmap_sameFiles h.between env c
    refine Ends.ite (fun _ => Ends.pure ?_) fun _ => Ends.pure ?_
    · exact after_congr h hsame rfl rfl rfl (areas_added h.areas hfile)
    · exact after_congr h hsame rfl rfl rfl h.areas

theorem poll_ends (h : Coherent w) (hfile : file ∈ w.io.dev.files) :
    Ends Touch.access (remaining w) (Lifetime.tpcePoll w : Touching ε _) (After w) :=
  ends_touch (tpceDev_remaining hfile) (Ends.pure (after_same h 0))

theorem vmaOpen_ends (h : Coherent w) (harea : 0 < w.areas file c) :
    Ends Touch.access (remaining w) (Lifetime.vmaStreamInfoOpen file c w : Touching ε _) (After w) := by
  have hfile := h.areas file c harea
  apply ends_touch (tpceDev_remaining hfile)
  exact Ends.pure (after_congr h (vmaOpen_sameFiles h.between c) rfl rfl rfl (areas_added h.areas hfile))

theorem vmaClose_ends (h : Coherent w) (harea : 0 < w.areas file c) :
    Ends Touch.access (remaining w) (Lifetime.vmaStreamInfoClose file c w : Touching ε _) (After w) := by
  apply ends_touch (tpceDev_remaining (h.areas file c harea))
  exact Ends.pure (after_congr h (vmaClose_sameFiles h.between c) rfl rfl rfl (areas_removed h.areas))

theorem remaining_put (hpos : 0 < w.refs) (hheld : held = if w.listed then objects else {.tpceDev})
    (hrefs : w.refs - 1 = w.io.dev.files.length + if w.listed then 1 else 0) :
    (if w.refs = 1 then held.erase .tpceDev else held) = remaining w := by
  subst hheld
  cases hlisted : w.listed with
  | true =>
      rw [hlisted, if_pos rfl] at hrefs
      rw [remaining_listed hlisted, if_neg (by omega), if_pos rfl]
  | false =>
      rw [hlisted, if_neg Bool.false_ne_true] at hrefs
      have hlast : w.refs = 1 ↔ w.io.dev.files = [] := by
        rw [← List.length_eq_zero_iff]
        omega
      simp only [remaining, hlisted, hlast, Bool.false_eq_true, if_false]
      rfl

/-- The last reference frees `tpce_dev`. -/
theorem put_ends (w' : World) (hpos : 0 < w'.refs) (hfew : w'.refs < 2 ^ 31) (htrace : w'.trace = w.trace)
    (hheld : held = if w'.listed then objects else {.tpceDev}) (h : Coherent { w' with refs := w'.refs - 1 }) :
    Ends Touch.access held (putTpceDev w' >>= fun w' => pure (0, w') : Touching ε _) (After w) := by
  have hput : refcountDecAndTest w'.refs = (w'.refs - 1, decide (w'.refs = 1)) := if_neg (by omega)
  have hmem : Object.tpceDev ∈ held := by
    rw [hheld]
    split
    · exact mem_objects _
    · exact Finset.mem_singleton_self _
  have hremaining := remaining_put hpos hheld h.refs
  have hafter : After w (0, { w' with refs := w'.refs - 1 }) (if w'.refs = 1 then held.erase .tpceDev else held) :=
    ⟨h, htrace, hremaining⟩
  refine Ends.bind (R := fun w' held => After w (0, w') held) (ends_touch hmem ?_) fun w' _ h' => Ends.pure h'
  rw [hput]
  by_cases hlast : w'.refs = 1
  · rw [if_pos hlast] at hafter
    simp only [decide_eq_true hlast, if_true]
    exact ends_free hmem (Ends.pure hafter)
  · rw [if_neg hlast] at hafter
    simp only [decide_eq_false hlast, Bool.false_eq_true, if_false]
    exact Ends.pure hafter

theorem release_ends (h : Coherent w) (hfile : file ∈ w.io.dev.files) (hareas : ∀ c, w.areas file c = 0)
    (hmutex : w.io.dev.mutexLeaked = false) (halone : Alone (fun m => m.owner = some file) (maps w.io.dev)) :
    Ends Touch.access (remaining w) (Lifetime.tpceRelease w file) (After w) := by
  have hloop : Leaves (UsesOnly (remaining w))
      (TracedIoctl.releaseMappings touchingOps file w.io.dev (w.io.dev.dmaMapSublist file)) := by
    cases hlisted : w.listed with
    | true =>
        rw [remaining_listed hlisted]
        exact releaseMappings_leaves (usesOnly_additive objects) objects_uses _ _ _
    | false =>
        rw [h.unlisted hlisted file]
        exact Leaves.pure (usesOnly_additive _) _
  apply ends_touch (tpceDev_remaining hfile)
  refine (hloop.ends fun t ht => ht.heldAfter).bind ?_
  rintro dev _ ⟨rfl, herase⟩
  rw [erase_releaseMappings touchingOps_faithful] at herase
  have hhandles := sameHandles_release herase
  have hbetween : Between { dev with files := dev.files.erase file } := by
    have hperform : Requests.tpceRelease w.io.dev file =
        .ok (.returned 0, { dev with files := dev.files.erase file }) :=
      bind_eq_ok.mpr ⟨dev, herase, rfl⟩
    have henabled : Driver.enabled w.io.dev (.release file) = true := by
      simp [Driver.enabled, Driver.mutexFree, h.between.waiting, hmutex, hfile]
    have hstep := Driver.step_eq_some.mpr ⟨henabled, _, hperform⟩
    have hfree : FreesAlone (maps w.io.dev) (.release file) := halone
    exact ⟨h.between.sound.step hfree hstep, (tornDown_release herase).waiting.trans h.between.waiting⟩
  have hlength : 0 < w.io.dev.files.length := List.length_pos_of_mem hfile
  have hrefs := h.refs
  have herased : (dev.files.erase file).length = w.io.dev.files.length - 1 := by
    rw [hhandles.files, List.length_erase_of_mem hfile]
  refine put_ends (w.setDev { dev with files := dev.files.erase file }) ?_ h.few rfl ?_ ⟨hbetween, ?_, ?_, ?_, ?_, ?_⟩
  · change 0 < w.refs
    omega
  · rw [remaining, if_neg (List.ne_nil_of_mem hfile)]
    rfl
  · exact hhandles.goingAway.trans h.away
  · change w.refs - 1 = (dev.files.erase file).length + if w.listed then 1 else 0
    rw [herased, hrefs]
    omega
  · change w.refs - 1 < 2 ^ 31
    exact (Nat.sub_le _ _).trans_lt h.few
  · intro file' c harea
    refine (List.mem_erase_of_ne ?_).mpr (hhandles.files ▸ h.areas file' c harea)
    rintro rfl
    exact absurd (hareas c) (Nat.pos_iff_ne_zero.mp harea)
  · intro hunlisted file'
    rw [h.unlisted hunlisted file] at herase
    cases herase
    exact h.unlisted hunlisted file'

/-- After the removal a file has no mapping left to free. -/
theorem Coherent.unlisted_alone (h : Coherent w) (hunlisted : w.listed = false) (file : ℕ) :
    Alone (fun m => m.owner = some file) (maps w.io.dev) := by
  intro obj m c hm howner hused
  have hmem := (h.between.sound.consistent.owned file obj).mpr ⟨m, hm, howner⟩
  have hlist : (maps w.io.dev).lists file = [] := h.unlisted hunlisted file
  rw [hlist] at hmem
  cases hmem

theorem dmaWork_ends (h : Coherent w) (hlisted : w.listed = true) (c : Channel) :
    Ends Touch.access (remaining w) (Lifetime.tpceDmaWork c w) (After w) := by
  apply ends_touch (remaining_listed hlisted ▸ mem_objects _)
  refine Ends.lift_bind fun dev hcompletion => Ends.pure ?_
  have hstep : Driver.step w.io.dev (.dmaWork c) = some dev := by
    refine Driver.step_eq_some.mpr ⟨rfl, .returned 0, ?_⟩
    simp only [Driver.perform, hcompletion]
    rfl
  obtain ⟨hsound, hhandles⟩ := command_step hstep True.intro True.intro h.between.sound
  have hwaiting : dev.waiting = w.io.dev.waiting := by
    rcases completion_cases hcompletion with rfl | ⟨-, -, rfl⟩
    · rfl
    · rfl
  refine after_congr h ⟨⟨hsound, hwaiting.trans h.between.waiting⟩, hhandles.files, hhandles.goingAway, ?_⟩ rfl rfl rfl
    h.areas
  intro haway
  rw [h.away, hlisted] at haway
  cases haway

theorem remove_ends (h : Coherent w) (hlisted : w.listed = true) (hmutex : w.io.dev.mutexLeaked = false) :
    Ends Touch.access (remaining w) (Lifetime.tpceDeviceRemove w) (After w) := by
  rw [remaining_listed hlisted]
  apply ends_touch (mem_objects _)
  apply ends_touch (mem_objects _)
  refine ((resetChannels_uses (mem_objects _) _ _).ends fun t ht => ht.heldAfter).bind ?_
  rintro dev₁ _ ⟨rfl, hreset⟩
  refine ((dmaFree_uses (mem_objects _) _).ends fun t ht => ht.heldAfter).bind ?_
  rintro dev _ ⟨rfl, hfree⟩
  rw [erase_resetChannels] at hreset
  rw [erase_dmaFree] at hfree
  have hremove : Requests.finishRemove { w.io.dev with goingAway := true } = .ok (.returned 0, dev) :=
    bind_eq_ok.mpr ⟨dev₁, hreset, bind_eq_ok.mpr ⟨dev, hfree, rfl⟩⟩
  have hhandles := sameHandles_remove hremove
  have haway : Between { w.io.dev with goingAway := true } := h.between.elsewhere rfl rfl rfl rfl
  have hbetween : Between dev := by
    have henabled : Driver.enabled { w.io.dev with goingAway := true } .remove = true := by
      simp [Driver.enabled, Driver.mutexFree, h.between.waiting, hmutex]
    have hstep := Driver.step_eq_some.mpr ⟨henabled, _, hremove⟩
    have hfree : FreesAlone (maps { w.io.dev with goingAway := true }) .remove := True.intro
    exact ⟨haway.sound.step hfree hstep, (tornDown_remove hremove).waiting.trans haway.waiting⟩
  have hrefs := h.refs
  rw [if_pos hlisted] at hrefs
  apply ends_free (mem_objects _)
  apply ends_free (by decide)
  apply ends_free (by decide)
  refine put_ends { w.setDev dev with listed := false } ?_ h.few rfl ?_ ⟨hbetween, ?_, ?_, ?_, ?_, ?_⟩
  · change 0 < w.refs
    omega
  · change _ = ({.tpceDev} : Finset Object)
    decide
  · exact hhandles.goingAway
  · change w.refs - 1 = dev.files.length + 0
    rw [hhandles.files, hrefs]
    rfl
  · change w.refs - 1 < 2 ^ 31
    exact (Nat.sub_le _ _).trans_lt h.few
  · exact fun file c harea => hhandles.files ▸ h.areas file c harea
  · exact fun _ file => removed_lists haway.sound.clean haway.sound.consistent hremove file

/-- `TPCE_IOC_DMA_STATUS` comes before the removal. A mapping is freed while no
other channel than the one that it is marked with uses it, and the handles can be
counted. -/
def Allowed (w : World) : Event → Prop
  | .openFile kzallocOk => kzallocOk = true → w.listed = true → w.refs < 2 ^ 31 - 1
  | .ioctl _ env call => (call.cmd = .dmaStatus → env.argOk = true → w.listed = true) ∧ FreesOwn env call w.io
  | .release file => Alone (fun m => m.owner = some file) (maps w.io.dev)
  | _ => True

theorem ioctl_enabled {k : Kernel} {env : CopyEnv} {call : UserCall} (h : enabled w (.ioctl k env call) = true) :
    call.file ∈ w.io.dev.files ∧ (takesMutex env call = true → w.io.dev.mutexLeaked = false) := by
  simp only [enabled, Bool.and_eq_true, List.contains_iff_mem, Bool.or_eq_true, Bool.not_eq_true'] at h
  exact ⟨h.1, fun htakes => h.2.resolve_left (by rw [htakes]; decide)⟩

theorem release_enabled (h : enabled w (.release file) = true) :
    file ∈ w.io.dev.files ∧ (∀ c, w.areas file c = 0) ∧ w.io.dev.mutexLeaked = false := by
  simp only [enabled, Bool.and_eq_true, List.contains_iff_mem, List.all_eq_true, decide_eq_true_iff,
    Bool.not_eq_true'] at h
  exact ⟨h.1.1, fun c => h.1.2 c (List.mem_finRange c), h.2⟩

theorem perform_ends (h : Coherent w) (henabled : enabled w event = true) (hallowed : Allowed w event) :
    Ends Touch.access (remaining w) (perform w event) (After w) := by
  cases event with
  | openFile kzallocOk => exact open_ends h hallowed
  | ioctl k env call =>
      obtain ⟨hfile, hmutex⟩ := ioctl_enabled henabled
      exact ioctl_ends h k hfile hmutex hallowed.1 hallowed.2
  | mmap file env off size =>
      simp only [enabled, Bool.and_eq_true, List.contains_iff_mem] at henabled
      exact mmap_ends h henabled.1 env off size
  | poll file => exact poll_ends h (List.contains_iff_mem.mp henabled)
  | vmaOpen file c => exact vmaOpen_ends h (of_decide_eq_true henabled)
  | vmaClose file c =>
      simp only [enabled, Bool.and_eq_true, decide_eq_true_iff] at henabled
      exact vmaClose_ends h henabled.1
  | release file =>
      obtain ⟨hfile, hareas, hmutex⟩ := release_enabled henabled
      exact orFault_ends (release_ends h hfile hareas hmutex hallowed)
  | dmaWork c => exact orFault_ends (dmaWork_ends h henabled c)
  | remove =>
      simp only [enabled, Bool.and_eq_true, Bool.not_eq_true'] at henabled
      exact orFault_ends (remove_ends h henabled.1 henabled.2)

theorem raises_run {P : ε → Prop} {m : Touching ε α} (h : Raises P (erase m)) : Raises P m.run :=
  fun e he => h e (erase_error he)

theorem raises_orFault {P : IoctlFault → Prop} {m : Touching Fault α} {a : α} (h : erase m = .ok a) :
    Raises P (orFault m).run := by
  apply raises_run
  rw [erase_orFault, h]
  exact Raises.ok a

theorem erase_putTpceDev (w : World) :
    erase (putTpceDev w : Touching ε World) = .ok { w with refs := (refcountDecAndTest w.refs).1 } := by
  simp only [putTpceDev, erase_bind, erase_touch, ok_bind, erase_ite, erase_emit, erase_pure]
  split
  · rfl
  · rfl

theorem release_erased {dev : TpceDev}
    (h : Requests.releaseMappings file w.io.dev (w.io.dev.dmaMapSublist file) = .ok dev) :
    ∃ r, erase (Lifetime.tpceRelease w file) = .ok r := by
  simp only [Lifetime.tpceRelease, erase_bind, erase_touch, ok_bind, erase_releaseMappings touchingOps_faithful, h,
    erase_putTpceDev, erase_pure]
  exact ⟨_, rfl⟩

theorem dmaWork_erased {dev : TpceDev} (h : tpceDmaCompletion w.io.dev c = .ok dev) :
    ∃ r, erase (Lifetime.tpceDmaWork c w) = .ok r := by
  simp only [Lifetime.tpceDmaWork, erase_bind, erase_touch, ok_bind, erase_lift, h, erase_pure]
  exact ⟨_, rfl⟩

theorem remove_erased {out : Outcome} (h : Requests.finishRemove { w.io.dev with goingAway := true } = .ok (out, dev)) :
    ∃ r, erase (Lifetime.tpceDeviceRemove w) = .ok r := by
  obtain ⟨dev₁, hreset, h⟩ := bind_eq_ok.mp h
  obtain ⟨dev₂, hfree, h⟩ := bind_eq_ok.mp h
  simp only [Lifetime.tpceDeviceRemove, erase_bind, erase_touch, ok_bind, erase_resetChannels, hreset, erase_dmaFree,
    hfree, erase_emit, erase_putTpceDev, erase_pure]
  exact ⟨_, rfl⟩

theorem ioctl_away_returns (k : Kernel) {env : CopyEnv} {call : UserCall} {s : IoDev} (haway : s.dev.goingAway = true)
    (hstatus : ¬(call.cmd = .dmaStatus ∧ env.argOk = true)) :
    ∃ result, erase (Lifetime.tpceIoctl k env call s) = .ok result := by
  simp only [Lifetime.tpceIoctl, erase_ite, erase_pure, erase_bind, erase_touch, ok_bind]
  split
  · exact ⟨_, rfl⟩
  rename_i hargument
  have hargument : env.argOk = true := by simpa using hargument
  split
  · exact ⟨_, rfl⟩
  · rename_i hcmd
    exact absurd ⟨hcmd, hargument⟩ hstatus
  · simp only [Lifetime.ioctlDispatched, erase_ite, erase_pure, haway, if_true]
    split
    · exact ⟨_, rfl⟩
    · exact ⟨_, rfl⟩

theorem handed_nothingFreed (e : IoctlFault) (h : Handed FullTable e) : NothingFreed e := by
  obtain ⟨fault, hfault, rfl⟩ := h
  cases hfault
  exact fun obj hobj => by cases hobj

/-- A call that does not return fails while the device is there, and not at a
mapping that is gone. -/
theorem perform_raises (h : Coherent w) (henabled : enabled w event = true) (hallowed : Allowed w event) :
    Raises (fun e => NothingFreed e ∧ w.listed = true) (perform w event).run := by
  have hbetween := h.between
  have hsound := hbetween.sound
  cases event with
  | openFile kzallocOk =>
      apply raises_run
      simp only [perform, Lifetime.tpceOpen, erase_ite, erase_pure, erase_bind, erase_touch, ok_bind]
      refine Raises.ite (fun _ => Raises.pure _) fun _ => Raises.ite (fun _ => Raises.pure _) fun _ => ?_
      exact Raises.ite (fun _ => Raises.pure _) fun _ => Raises.pure _
  | ioctl k env call =>
      obtain ⟨hfile, hmutex⟩ := ioctl_enabled henabled
      apply raises_run
      simp only [perform, Lifetime.ioctl, erase_bind, erase_pure]
      refine Raises.bind (fun e he => ?_) fun _ _ => Raises.pure _
      have hraises := (ioctl_curtails k env call w.io).raises handed_nothingFreed
        (ioctl_yields hbetween hfile hmutex k hallowed.2).raises
      refine ⟨hraises e he, ?_⟩
      by_contra hunlisted
      have haway : w.io.dev.goingAway = true := by rw [h.away, Bool.eq_false_iff.mpr hunlisted]; rfl
      obtain ⟨result, hresult⟩ := ioctl_away_returns k haway fun hstatus => hunlisted (hallowed.1 hstatus.1 hstatus.2)
      cases he.symm.trans hresult
  | mmap file env off size =>
      apply raises_run
      simp only [perform, Lifetime.tpceMmap, erase_bind, erase_touch, ok_bind]
      split
      · exact Raises.pure _
      · rw [erase_ite]
        exact Raises.ite (fun _ => Raises.pure _) fun _ => Raises.pure _
  | poll file => exact raises_run (Raises.ok _)
  | vmaOpen file c => exact raises_run (Raises.ok _)
  | vmaClose file c => exact raises_run (Raises.ok _)
  | release file =>
      obtain ⟨dev, hrelease⟩ := releaseMappings_returns file hsound.clean hsound.consistent hsound.pointed hallowed rfl
      exact raises_orFault (release_erased hrelease).choose_spec
  | dmaWork c =>
      obtain ⟨dev, hcompletion⟩ := completion_returns hsound.pointed c
      exact raises_orFault (dmaWork_erased hcompletion).choose_spec
  | remove =>
      have haway : Between { w.io.dev with goingAway := true } := hbetween.elsewhere rfl rfl rfl rfl
      obtain ⟨dev, hremove⟩ := remove_returns haway.sound.clean haway.sound.consistent haway.sound.pointed
      exact raises_orFault (remove_erased hremove).choose_spec

/-- The call finds everything that it touches. If it does not return, that is while
the device is there, and at no mapping that is gone. -/
def Safe (w : World) (event : Event) : Prop :=
  (∀ r t, (perform w event).run = .ok (r, t) → heldAfter objects ((w.trace ++ t).filterMap Touch.access) ≠ none) ∧
  Raises (fun e => NothingFreed e ∧ w.listed = true) (perform w event).run

/-- `tpce_dev` is freed once the device is removed and its last file is released. -/
def FreedOnce (w : World) : Prop :=
  w.trace.count (.free .tpceDev) = if w.listed = true ∨ w.io.dev.files ≠ [] then 0 else 1

/-- What is kept from call to call -/
structure Kept (w : World) : Prop where
  coherent : Coherent w
  held : heldAfter objects (w.trace.filterMap Touch.access) = some (remaining w)

theorem between_init (sgt : SgTable) : Between (TpceDev.init sgt) :=
  ⟨⟨clean_init sgt, Registry.consistent_init sgt, pointed_of_unused fun _ => rfl⟩, rfl⟩

theorem kept_init (sgt : SgTable) : Kept (World.init sgt) where
  coherent := ⟨between_init sgt, rfl, rfl, show 1 < 2 ^ 31 by decide, fun _ _ h => absurd h (Nat.lt_irrefl 0),
    fun h => by cases h⟩
  held := rfl

theorem Kept.step (h : Kept w) (hallowed : Allowed w event) (hstep : Lifetime.step w event = some w') : Kept w' := by
  simp only [Lifetime.step] at hstep
  split at hstep
  · rename_i henabled
    obtain ⟨⟨r, t⟩, hrun, rfl⟩ := Option.map_eq_some_iff.mp hstep
    obtain ⟨held, hheld, hcoherent, htrace, rfl⟩ :=
      perform_ends h.coherent henabled hallowed r t (toOption_eq_some.mp hrun)
    refine ⟨⟨hcoherent.between, hcoherent.away, hcoherent.refs, hcoherent.few, hcoherent.areas, hcoherent.unlisted⟩, ?_⟩
    rw [List.filterMap_append, heldAfter_append_of h.held]
    exact hheld
  · cases hstep

theorem Kept.safe (h : Kept w) (henabled : enabled w event = true) (hallowed : Allowed w event) : Safe w event := by
  refine ⟨fun r t hrun => ?_, perform_raises h.coherent henabled hallowed⟩
  obtain ⟨held, hheld, -⟩ := perform_ends h.coherent henabled hallowed r t hrun
  rw [List.filterMap_append, heldAfter_append_of h.held, hheld]
  exact Option.some_ne_none held

theorem count_free (t : List Touch) (k : Object) :
    (t.filterMap Touch.access).count (.release k) = t.count (.free k) ∧
      (t.filterMap Touch.access).count (.acquire k) = 0 := by
  induction t with
  | nil => exact ⟨rfl, rfl⟩
  | cons e t ih =>
      cases e with
      | use j => simpa [Touch.access] using ih
      | free j => simpa [Touch.access, List.count_cons] using ih

theorem Kept.freedOnce (h : Kept w) : FreedOnce w := by
  obtain ⟨hrelease, hacquire⟩ := count_free w.trace .tpceDev
  have hcount := count_of_heldAfter h.held .tpceDev
  rw [hrelease, hacquire, if_pos (mem_objects _)] at hcount
  simp only [FreedOnce, ← mem_remaining]
  split
  · rename_i hmem
    rw [if_pos hmem] at hcount
    omega
  · rename_i hmem
    rw [if_neg hmem] at hcount
    omega

/-- In every run whose calls are allowed, each further call that is allowed finds
what it touches, and `tpce_dev` is freed once. -/
theorem allowed_safe (sgt : SgTable) {events : List Event} (h : Along Lifetime.step Allowed (World.init sgt) events)
    (hrun : run Lifetime.step (World.init sgt) events = some w) :
    FreedOnce w ∧ ∀ event, enabled w event = true → Allowed w event → Safe w event := by
  have halways := always_of_along (fun w event w' => Kept.step) (kept_init sgt) h
  have hkept := always_iff_prefix.mp halways events [] (List.append_nil events).symm w hrun
  exact ⟨hkept.freedOnce, fun event henabled hallowed => hkept.safe henabled hallowed⟩

def driverBuffer : SgTable := ⟨.last [⟨0x8000000#64, 0x100000#32, 0⟩], 1⟩

/-- A file that is released after the removal frees `tpce_dev`. -/
theorem released_last : ∃ w,
    run Lifetime.step (World.init driverBuffer) [.openFile true, .remove, .release 0] = some w ∧
    FreedOnce w ∧ ∀ event, enabled w event = true → Allowed w event → Safe w event := by
  have halong : Along Lifetime.step Allowed (World.init driverBuffer) [.openFile true, .remove, .release 0] := by
    have hfew : Allowed (World.init driverBuffer) (.openFile true) := fun _ _ => show 1 < 2 ^ 31 - 1 by decide
    refine fun w₁ h₁ => ⟨hfew, fun w₂ h₂ => ⟨True.intro, fun _ _ => ⟨?_, True.intro⟩⟩⟩
    have hremove : Allowed w₁ .remove := True.intro
    have hkept := ((kept_init driverBuffer).step hfew h₁).step hremove h₂
    obtain rfl : _ = w₁ := Option.some.inj h₁
    obtain rfl : _ = w₂ := Option.some.inj h₂
    exact hkept.coherent.unlisted_alone rfl 0
  exact ⟨_, rfl, allowed_safe driverBuffer halong rfl⟩

def statusCall : UserCall := ⟨0, .dmaStatus, ⟨0x10000#64, 4#64, 0x20000#64, 4#64⟩, fun _ => 0⟩

/-- A handle outlives the device, and asks for the status of a channel. -/
theorem status_touches_freed : ¬∀ sgt events w, run Lifetime.step (World.init sgt) events = some w →
    FreedOnce w ∧ ∀ event, enabled w event = true → Safe w event := by
  intro h
  have hsafe := (h driverBuffer [.openFile true, .remove] _ rfl).2 (.ioctl NonInterference.grantingKernel
    NonInterference.copyAll statusCall) rfl
  exact hsafe.1 _ _ rfl rfl

end TpceDrv.LifetimeSafety
