import TpceDrv.ActiveDescriptors
import TpceDrv.CommandSoundness
import TpceDrv.LegacyRuns
import TpceDrv.MappingIsolation

namespace TpceDrv.LegacySessions

open Descriptor Mapping DmaParams Device ChannelControl ChannelSteps Requests RequestSteps RequestAtomicity
open MappingTable Registry MappingIsolation ActiveDescriptors CommandSoundness UserStructs LegacyRead IoctlCommands
open LegacyActions LegacyMemory Library.Buffers Library.Runs Library.Scripts Library.Traces
open LegacyRuns hiding settle
open Driver hiding perform

variable {sgt : SgTable} {dev dev' : TpceDev} {ops : List Op} {file : ℕ} {k : Kernel} {s s' : Session} {ret : Int}
variable {env : InitEnv} {r : KernelRead} {out : Outcome} {c : Channel}

/-- A state of a run of the driver -/
def Reached (sgt : SgTable) (dev : TpceDev) : Prop := ∃ ops, run step (TpceDev.init sgt) ops = some dev

/-- An open file in a state in which its calls are served -/
structure Served (sgt : SgTable) (file : ℕ) (dev : TpceDev) : Prop where
  reached : Reached sgt dev
  admitted : Admitted file dev
  waiting : dev.waiting = none

theorem Reached.step (h : Reached sgt dev) {op : Op} (hstep : Driver.step dev op = some dev') : Reached sgt dev' := by
  obtain ⟨ops, hrun⟩ := h
  refine ⟨ops ++ [op], ?_⟩
  rw [run_append, hrun]
  exact Option.bind_eq_some_iff.mpr ⟨dev, rfl, Option.bind_eq_some_iff.mpr ⟨dev', hstep, rfl⟩⟩

/-- Only the driver's own buffer belongs to no file. -/
def OwnerlessDriver (sgt : SgTable) (dev : TpceDev) : Prop :=
  ∀ obj m, dev.mapInfos obj = some m → m.owner = none → unmarked m = driverBuffer sgt

theorem OwnerlessDriver.step (h : OwnerlessDriver sgt dev) (hkept : Kept dev) {op : Op}
    (hstep : Driver.step dev op = some dev') : OwnerlessDriver sgt dev' := by
  intro obj m hm howner
  obtain ⟨m', hm', heq⟩ | ⟨file, lockEnv, bufferInfo, -, -, howned, -⟩ :=
    effect_old (MappingEffects.step_maps hkept.clean hkept.consistent hstep) hkept.consistent hm
  · exact heq.symm.trans (h obj m' hm' ((unmarked_owner heq).trans howner))
  · cases howner.symm.trans howned

theorem ownerlessDriver (hreached : Reached sgt dev) : OwnerlessDriver sgt dev := by
  obtain ⟨ops, hrun⟩ := hreached
  have hinit : OwnerlessDriver sgt (TpceDev.init sgt) := by
    intro obj m hm _
    obtain ⟨-, rfl⟩ := init_infos hm
    rfl
  have hstep : ∀ dev op dev', Kept dev ∧ OwnerlessDriver sgt dev → Driver.step dev op = some dev' →
      Kept dev' ∧ OwnerlessDriver sgt dev' := fun _ _ _ h hstep => ⟨h.1.step hstep, h.2.step h.1 hstep⟩
  have halways := always_of_step hstep ⟨.init sgt, hinit⟩ ops
  have hends := always_iff_prefix.mp halways ops [] (List.append_nil ops).symm dev hrun
  exact hends.2

/-- The mapping of no file is the driver's own buffer. -/
theorem driver_mapping (hreached : Reached sgt dev) {id : U32} {m : TpceDmaMapInfo}
    (hload : xaLoad dev id = some m) (howner : m.owner = none) : unmarked m = driverBuffer sgt := by
  obtain ⟨obj, -, hm⟩ : ∃ obj, dev.dmaMappings id = some obj ∧ dev.mapInfos obj = some m :=
    Option.bind_eq_some_iff.mp hload
  exact ownerlessDriver hreached obj m hm howner

theorem validate_unmarked (params : TpceDmaTransferParams) (m : TpceDmaMapInfo) :
    tpceValidateDmaParams params (unmarked m) = tpceValidateDmaParams params m := rfl

/-- A legacy read that is not refused in front of the wait is one that the machine of the
legacy reads accepts. -/
theorem accepted_of_started (hreached : Reached sgt dev)
    (h : readKernelDmaBuffer env dev r = .ok (out, dev')) (hout : ∀ status, out = .returned status → ¬status < 0) :
    Accepted r := by
  have hreturned : ∀ {status : Int} {d : TpceDev}, status < 0 →
      (Except.ok (Outcome.returned status, d) : Except Fault _) = .ok (out, dev') → Accepted r := by
    intro status d hneg heq
    cases heq
    exact absurd hneg (hout _ rfl)
  simp only [readKernelDmaBuffer] at h
  split at h
  · exact hreturned (by decide) h
  rename_i hchannel
  split at h
  · exact hreturned (by decide) h
  rename_i hfits
  rw [gt_iff_lt, BitVec.lt_def, Nat.not_lt] at hfits
  obtain ⟨chInfo, res, hch, hres, hzero⟩ := accepted_iff_validated (Nat.not_le.mp hchannel) hfits sgt
  rw [hch, ok_bind] at h
  split at h
  · rename_i hinvalid
    exact hreturned (lt_of_le_of_ne (validateDmaRequest_nonpos ..) hinvalid) h
  rename_i hvalid
  obtain ⟨c, m₀, hval⟩ := validateDmaRequest_valid (not_not.mp hvalid)
  rcases dmaExecute_outcome hval.channel hval.idle h with ⟨status, hneg, rfl, -⟩ | ⟨hrunning, -⟩
  · exact absurd hneg (hout status rfl)
  obtain ⟨obj, m, prep, info, _, _, _, _, hacc, -⟩ :=
    started_of_running hval.idle (dmaExecute_cases hval.channel h) hrunning
  have hload := xaLoad_of_initialized hacc
  have howner : m.owner = none := by
    obtain rfl := Option.some.inj (hload.symm.trans hval.loaded)
    exact hval.owner.elim id id
  have hvalidated : tpceValidateDmaParams (r.request chInfo).params m = .ok 0 := by
    cases hacc.prepared with
    | user buf filled _ huser => exact absurd rfl huser
    | generated buf filled _ _ _ hgen => exact (generateDesc_ok hgen).1
  rw [← validate_unmarked, driver_mapping hreached hload howner, hres] at hvalidated
  exact hzero.mp (Except.ok.inj hvalidated)

theorem settle_served (hreached : Reached sgt dev) (hadm : Admitted file dev)
    (hwait : dev.waiting = none ∨ (out = .waits ∧ dev.waiting = some c)) {wait : Wait} {out' : Outcome}
    (h : settle wait (out, dev) = .ok (out', dev')) : Served sgt file dev' := by
  rcases hwait with hnone | ⟨rfl, hsome⟩
  · rw [settle_of_none hnone] at h
    cases h
    exact ⟨hreached, hadm, hnone⟩
  simp only [settle, hsome] at h
  obtain ⟨dev₁, hwork, h⟩ := bind_eq_ok.mp h
  obtain ⟨dev₂, hreset, h⟩ := bind_eq_ok.mp h
  cases h
  have hworked : Reached sgt dev₁ ∧ Admitted file dev₁ ∧ dev₁.waiting = some c := by
    split at hwork
    · have hstep : step dev (.dmaWork c) = some dev₁ :=
        step_eq_some.mpr ⟨rfl, .returned 0, by simp only [Driver.perform, hwork]; rfl⟩
      have hop : OfCommand (.dmaWork c) := True.intro
      refine ⟨hreached.step hstep, hadm.congr (step_handles hop hstep), ?_⟩
      rcases completion_cases hwork with rfl | ⟨-, -, rfl⟩
      · exact hsome
      · exact hsome
    · cases hwork
      exact ⟨hreached, hadm, hsome⟩
  obtain ⟨hreached₁, hadm₁, hsome₁⟩ := hworked
  -- The state behind the wait does not depend on its end.
  have hstep : step dev₁ (.wake .timeout) = some dev' :=
    step_eq_some.mpr ⟨by simp [enabled, hsome₁], _,
      by simp only [Driver.perform, hsome₁]; exact bind_eq_ok.mpr ⟨_, hreset, rfl⟩⟩
  have hop : OfCommand (.wake .timeout) := True.intro
  exact ⟨hreached₁.step hstep, hadm₁.congr (step_handles hop hstep), (resetDmaInfo_frame hreset).2.2⟩

/-- A legacy read of a session -/
theorem session_read (hs : Served sgt file s.dev) (h : (sessionOps k).readKernelDmaBuffer r s = .ok (ret, s')) :
    Served sgt file s'.dev ∧ s'.calls = s.calls ++ [.readKernelDmaBuffer r] ∧ (ret = 0 → Accepted r) := by
  obtain ⟨⟨out, dev₁⟩, hread, h⟩ := bind_eq_ok.mp h
  obtain ⟨⟨out', dev₂⟩, hsettle, h⟩ := bind_eq_ok.mp h
  cases h
  have hread : readKernelDmaBuffer (k.init (s.ask (.readKernelDmaBuffer r)).calls) s.dev r = .ok (out, dev₁) := hread
  have hperform : Driver.perform s.dev (.kernelRead file (k.init (s.ask (.readKernelDmaBuffer r)).calls) r) =
      .ok (out, dev₁) := by
    simpa [Driver.perform, hs.admitted.present] using hread
  have hop : OfCommand (.kernelRead file (k.init (s.ask (.readKernelDmaBuffer r)).calls) r) := True.intro
  have hstep := hs.admitted.step hs.waiting rfl hperform
  obtain ⟨c, hwait⟩ := waiting_of_request (.inr ⟨_, _, _, rfl⟩) hperform hs.waiting
  refine ⟨settle_served (hs.reached.step hstep) (hs.admitted.congr (step_handles hop hstep)) hwait hsettle,
    rfl, fun hzero => accepted_of_started hs.reached hread ?_⟩
  rintro status rfl hneg
  rw [settle_returned] at hsettle
  cases hsettle
  exact absurd hzero (ne_of_lt hneg)

/-- Whether the driver's buffer is there does not change under a legacy read. -/
theorem session_present (h : (sessionOps k).readKernelDmaBuffer r s = .ok (ret, s')) :
    (sessionOps k).hasKernelDma s' = (sessionOps k).hasKernelDma s := by
  have hloaded : ∀ dev : TpceDev, (xaLoad dev tpceDmaDriverBufferId).isSome =
      (ErrorAtomicity.registered dev tpceDmaDriverBufferId).isSome := by
    intro dev
    simp only [xaLoad, ErrorAtomicity.registered]
    cases dev.dmaMappings tpceDmaDriverBufferId with
    | none => rfl
    | some obj => exact Option.isSome_map.symm
  have hsame := (ErrorAtomicity.sessionOps_keep k s.dev).read r s ret s' h (.refl _)
  change (xaLoad s'.dev _).isSome = (xaLoad s.dev _).isSome
  rw [hloaded, hloaded, hsame.mappings]

/-- The copies that the calls of a session ask for, each with the length of the transfer
in front of it -/
def logged : List Call → ℕ → List Copied
  | [], _ => []
  | .readKernelDmaBuffer r :: rest, _ => logged rest r.bytesTotal.toNat
  | .copyToUser dst offset length :: rest, n => ⟨dst, offset.toNat, length.toNat, n⟩ :: logged rest n
  | _ :: rest, n => logged rest n

def push {α : Type} (x : α) (f : ℕ → α) : ℕ → α
  | 0 => x
  | i + 1 => f i

/-- What the system answers from a state on -/
structure Gives (ans : Answers) (m : Memory) (status : ℕ → ℤ) (missed : ℕ → ℕ) : Prop where
  status : ∀ i, ans.status (m.reads + i) = status i
  missed : ∀ i, ans.missed (m.copied.length + i) = missed i

variable {ans : Answers} {m : Memory} {status : ℕ → ℤ} {missed : ℕ → ℕ}

theorem Gives.receive {err : ℤ} (h : Gives ans m (push err status) missed) (data : Bytes) (length : ℕ) :
    ans.status m.reads = err ∧ Gives ans (m.receive data length) status missed := by
  refine ⟨h.status 0, fun i => ?_, h.missed⟩
  rw [← show push err status (i + 1) = status i from rfl, ← h.status, Nat.add_comm i, ← Nat.add_assoc]
  rfl

theorem Gives.copyToUser {n : ℕ} (h : Gives ans m status (push n missed)) (dst : U64) (offset length : ℕ) :
    ans.missed m.copied.length = n ∧ Gives ans (m.copyToUser dst offset length) status missed := by
  refine ⟨h.missed 0, h.status, fun i => ?_⟩
  rw [← show push n missed (i + 1) = missed i from rfl, ← h.missed, Nat.add_comm i, ← Nat.add_assoc]
  simp only [Memory.copyToUser, List.length_append, List.length_singleton]

/-- What a script has done in a session is what the machine does, for answers that do not
depend on what the memory holds. -/
def Follows (present : Bool) (as : List Action) (new : List Call) (ret : ℤ) : Prop :=
  ∃ status missed, ∀ ans m, Gives ans m status missed → ans.hasKernelDma = present →
    ∃ out, performAll (perform ans.ops) as m = .ok out ∧ (ret = 0 ↔ out.1 = 0) ∧
      ∃ made, out.2.copied = m.copied ++ made ∧ List.Forall₂ PartOf made (logged new m.transferred)

variable {present : Bool} {rest : List Action} {new : List Call}

theorem Follows.read_on (haccepted : Accepted r) (h : Follows present rest new ret) :
    Follows present (.read r :: rest) (.readKernelDmaBuffer r :: new) ret := by
  obtain ⟨status, missed, h⟩ := h
  refine ⟨push 0 status, missed, fun ans m hgives hdma => ?_⟩
  obtain ⟨hstatus, hrest⟩ := hgives.receive (ans.data m.reads r) r.bytesTotal.toNat
  have hread := readKernelDmaBuffer_accepted ans haccepted m
  rw [if_neg (not_not.mpr hstatus)] at hread
  obtain ⟨out, hout, hend⟩ := h ans _ hrest hdma
  exact ⟨out, performAll_cons_ok.mpr ⟨_, hread, .inr ⟨rfl, hout⟩⟩, hend⟩

/-- An action that fails without a copy ends the script. -/
theorem Follows.fails {a : Action} (status : ℤ) (hnew : ∀ n, logged new n = []) (hne : ret ≠ 0)
    (h : ∀ ans m, ans.status m.reads = status → ans.hasKernelDma = present →
      ∃ err : ℤ, err ≠ 0 ∧ perform (Answers.ops ans) a m = .ok (err, m)) : Follows present (a :: rest) new ret := by
  refine ⟨fun _ => status, fun _ => 0, fun ans m hgives hdma => ?_⟩
  obtain ⟨err, herr, hfails⟩ := h ans m (hgives.status 0) hdma
  refine ⟨(err, m), performAll_cons_ok.mpr ⟨_, hfails, .inl ⟨herr, rfl⟩⟩, iff_of_false hne herr, [],
    (List.append_nil _).symm, ?_⟩
  rw [hnew]
  exact .nil

theorem Follows.read_stop (hne : ret ≠ 0) : Follows present (.read r :: rest) [.readKernelDmaBuffer r] ret := by
  refine .fails ret (fun _ => rfl) hne fun ans m hstatus _ => ?_
  by_cases haccepted : Accepted r
  · have hread := readKernelDmaBuffer_accepted ans haccepted m
    rw [hstatus, if_pos hne] at hread
    exact ⟨ret, hne, hread⟩
  · exact ⟨_, Errno.einval_ne, readKernelDmaBuffer_refused ans haccepted m⟩

theorem Follows.copy_none (h : Follows present rest new ret) (dst : U64) (offset : U32) :
    Follows present (.copy dst offset 0 :: rest) new ret := by
  obtain ⟨status, missed, h⟩ := h
  refine ⟨status, missed, fun ans m hgives hdma => ?_⟩
  obtain ⟨out, hout, hend⟩ := h ans m hgives hdma
  exact ⟨out, performAll_cons_ok.mpr ⟨(0, m), rfl, .inr ⟨rfl, hout⟩⟩, hend⟩

theorem Follows.copy_refused {dst : U64} {offset length : U32} (hlength : length ≠ 0)
    (hrefused : present = false ∨ 2 ^ 20 < offset.toNat + length.toNat) (hne : ret ≠ 0) :
    Follows present (.copy dst offset length :: rest) [] ret := by
  refine .fails 0 (fun _ => rfl) hne fun ans m _ hdma => ?_
  rw [perform, ans.copyKernelDmaToUser_eq, if_neg hlength]
  split
  · exact ⟨_, Errno.enodev_ne, rfl⟩
  · rename_i hsome
    rw [if_pos (hrefused.resolve_left (hdma ▸ hsome))]
    exact ⟨_, Errno.einval_ne, rfl⟩

/-- A copy that is not refused -/
theorem copy_made {dst : U64} {offset length : U32} (hlength : length ≠ 0)
    (hfits : offset.toNat + length.toNat ≤ 2 ^ 20) (hdma : ans.hasKernelDma = true) : ∃ n ≤ length.toNat,
      copyKernelDmaToUser ans.ops dst offset length m =
        (if ans.missed m.copied.length ≠ 0 then -Errno.efault else 0, m.copyToUser dst offset.toNat n) ∧
      (ans.missed m.copied.length = 0 → n = length.toNat) := by
  have hpos : 0 < length.toNat := Nat.pos_of_ne_zero fun hzero => hlength (BitVec.eq_of_toNat_eq hzero)
  have hmissed : min (ans.missed m.copied.length) length.toNat ≠ 0 ↔ ans.missed m.copied.length ≠ 0 := by omega
  refine ⟨length.toNat - min (ans.missed m.copied.length) length.toNat, Nat.sub_le _ _, ?_, fun hzero => ?_⟩
  · rw [ans.copyKernelDmaToUser_eq, if_neg hlength, if_neg (by rw [hdma]; decide), if_neg (Nat.not_lt.mpr hfits)]
    exact Prod.ext (ite_congr (propext hmissed) (fun _ => rfl) fun _ => rfl) rfl
  · rw [hzero, Nat.zero_min, Nat.sub_zero]

theorem Follows.copy_on {dst : U64} {offset length : U32} (hlength : length ≠ 0)
    (hfits : offset.toNat + length.toNat ≤ 2 ^ 20) (h : Follows true rest new ret) :
    Follows true (.copy dst offset length :: rest) (.copyToUser dst offset length :: new) ret := by
  obtain ⟨status, missed, h⟩ := h
  refine ⟨status, push 0 missed, fun ans m hgives hdma => ?_⟩
  obtain ⟨n, hn, hcopy, hall⟩ := copy_made hlength hfits hdma
  obtain ⟨hzero, hrest⟩ := hgives.copyToUser dst offset.toNat n
  rw [if_neg (not_not.mpr hzero)] at hcopy
  obtain ⟨out, hout, hret, made, hmade, hlogged⟩ := h ans _ hrest hdma
  refine ⟨out, performAll_cons_ok.mpr ⟨_, congrArg Except.ok hcopy, .inr ⟨rfl, hout⟩⟩, hret,
    ⟨dst, offset.toNat, n, m.transferred⟩ :: made, ?_, .cons ⟨rfl, rfl, hn, rfl⟩ hlogged⟩
  rw [hmade, Memory.copyToUser, List.append_assoc]
  rfl

theorem Follows.copy_stop {dst : U64} {offset length : U32} (hlength : length ≠ 0)
    (hfits : offset.toNat + length.toNat ≤ 2 ^ 20) (hne : ret ≠ 0) :
    Follows true (.copy dst offset length :: rest) [.copyToUser dst offset length] ret := by
  refine ⟨fun _ => 0, fun _ => 1, fun ans m hgives hdma => ?_⟩
  obtain ⟨n, hn, hcopy, -⟩ := copy_made (m := m) hlength hfits hdma
  have hmissed : ans.missed m.copied.length = 1 := hgives.missed 0
  rw [hmissed, if_pos Nat.one_ne_zero] at hcopy
  exact ⟨_, performAll_cons_ok.mpr ⟨_, congrArg Except.ok hcopy, .inl ⟨Errno.efault_ne, rfl⟩⟩,
    iff_of_false hne Errno.efault_ne, [⟨dst, offset.toNat, n, m.transferred⟩], rfl, .cons ⟨rfl, rfl, hn, rfl⟩ .nil⟩

/-- What an action of a session leads to, whatever comes behind it -/
structure Leads (sgt : SgTable) (file : ℕ) (k : Kernel) (a : Action) (s : Session) (err : ℤ) (s' : Session)
    (new : List Call) : Prop where
  served : Served sgt file s'.dev
  present : (sessionOps k).hasKernelDma s' = (sessionOps k).hasKernelDma s
  calls : s'.calls = s.calls ++ new
  stops : err ≠ 0 → ∀ rest, Follows ((sessionOps k).hasKernelDma s) (a :: rest) new err
  goesOn : err = 0 → ∀ rest later ret, Follows ((sessionOps k).hasKernelDma s) rest later ret →
    Follows ((sessionOps k).hasKernelDma s) (a :: rest) (new ++ later) ret

theorem read_leads {err : ℤ} (hs : Served sgt file s.dev)
    (h : (sessionOps k).readKernelDmaBuffer r s = .ok (err, s')) :
    Leads sgt file k (.read r) s err s' [.readKernelDmaBuffer r] := by
  obtain ⟨hserved, hcalls, haccepted⟩ := session_read hs h
  exact ⟨hserved, session_present h, hcalls, fun hne _ => .read_stop hne,
    fun hzero _ _ _ hrest => .read_on (haccepted hzero) hrest⟩

theorem copy_leads (hs : Served sgt file s.dev) (k : Kernel) (dst : U64) (offset length : U32) : ∃ new,
    Leads sgt file k (.copy dst offset length) s (copyKernelDmaToUser (sessionOps k) dst offset length s).1
      (copyKernelDmaToUser (sessionOps k) dst offset length s).2 new := by
  rw [copyKernelDmaToUser_eq]
  split
  · rename_i hzero
    exact ⟨[], hs, rfl, (List.append_nil _).symm, fun hne => absurd rfl hne,
      fun _ _ _ _ hrest => hzero ▸ hrest.copy_none dst offset⟩
  rename_i hlength
  split
  · rename_i hnone
    exact ⟨[], hs, rfl, (List.append_nil _).symm, fun hne _ => .copy_refused hlength (.inl hnone) hne,
      fun hzero => absurd hzero Errno.enodev_ne⟩
  rename_i hsome
  rw [Bool.not_eq_false] at hsome
  split
  · rename_i hexceeds
    exact ⟨[], hs, rfl, (List.append_nil _).symm, fun hne _ => .copy_refused hlength (.inr hexceeds) hne,
      fun hzero => absurd hzero Errno.einval_ne⟩
  · rename_i hfits
    refine ⟨[.copyToUser dst offset length], hs, rfl, rfl, fun hne _ => ?_, fun _ _ _ _ hrest => ?_⟩
    · rw [hsome]
      exact .copy_stop hlength (Nat.not_lt.mp hfits) hne
    · rw [hsome] at hrest ⊢
      exact hrest.copy_on hlength (Nat.not_lt.mp hfits)

theorem action_leads {a : Action} {err : ℤ} (hs : Served sgt file s.dev)
    (h : perform (sessionOps k) a s = .ok (err, s')) : ∃ new, Leads sgt file k a s err s' new := by
  cases a with
  | read r => exact ⟨_, read_leads hs h⟩
  | copy dst offset length =>
      have hcopy := copy_leads hs k dst offset length
      rwa [Except.ok.inj h] at hcopy

/-- Each run of a script in a session is one of the machine. -/
theorem script_follows {as : List Action} (hs : Served sgt file s.dev)
    (h : performAll (perform (sessionOps k)) as s = .ok (ret, s')) : ∃ new, s'.calls = s.calls ++ new ∧
      Follows ((sessionOps k).hasKernelDma s) as new ret := by
  induction as generalizing s with
  | nil =>
      cases h
      exact ⟨[], (List.append_nil _).symm, fun _ => 0, fun _ => 0, fun ans m _ _ =>
        ⟨(0, m), rfl, Iff.rfl, [], (List.append_nil _).symm, .nil⟩⟩
  | cons a rest ih =>
      obtain ⟨⟨err, s₁⟩, hfirst, hstop⟩ := performAll_cons_ok.mp h
      obtain ⟨new, hleads⟩ := action_leads hs hfirst
      rcases hstop with ⟨hne, heq⟩ | ⟨hzero, hrest⟩
      · cases heq
        exact ⟨new, hleads.calls, hleads.stops hne rest⟩
      · obtain ⟨later, hlater, hfollows⟩ := ih hleads.served hrest
        have hcalls : s₁.calls = s.calls ++ new := hleads.calls
        refine ⟨new ++ later, ?_, hleads.goesOn hzero rest later ret (hleads.present ▸ hfollows)⟩
        rw [hlater, hcalls, List.append_assoc]

/-- Each block read of a session is one of the machine, whatever data the device has: it
fails when the session's fails, and copies what the session asks for. -/
theorem block_read_follows (hs : Served sgt file s.dev) {input : TDmaTpceDataRead}
    (h : iocDmaReadRequestA (sessionOps k) input s = .ok (ret, s')) (data : ℕ → KernelRead → Bytes)
    (kernel : Bytes) (user : U64 → Byte) :
    ∃ new ans out, s'.calls = s.calls ++ new ∧ Answers.data ans = data ∧
      iocDmaReadRequestA ans.ops input (Memory.start kernel user) = .ok out ∧ (ret = 0 ↔ out.1 = 0) ∧
        List.Forall₂ PartOf out.2.copied (logged new 0) := by
  rw [iocDmaReadRequestA_eq] at h
  by_cases hrefused : Refused input
  · rw [if_pos hrefused] at h
    cases h
    refine ⟨[], Answers.succeed ⟨.last [], 0⟩ data, (-Errno.einval, Memory.start kernel user), (List.append_nil _).symm,
      rfl, ?_, Iff.rfl, .nil⟩
    rw [iocDmaReadRequestA_eq, if_pos hrefused]
    rfl
  · rw [if_neg hrefused] at h
    obtain ⟨new, hnew, status, missed, hfollows⟩ := script_follows hs h
    let ans : Answers := ⟨⟨.last [], 0⟩, (sessionOps k).hasKernelDma s, status, data, missed⟩
    have hgives : Gives ans (Memory.start kernel user) status missed :=
      ⟨fun i => congrArg status (Nat.zero_add i), fun i => congrArg missed (Nat.zero_add i)⟩
    obtain ⟨out, hout, hret, made, hmade, hlogged⟩ := hfollows ans (Memory.start kernel user) hgives rfl
    refine ⟨new, ans, out, hnew, rfl, ?_, hret, ?_⟩
    · rw [iocDmaReadRequestA_eq, if_neg hrefused, hout]
    · rw [hmade]
      exact hlogged

end TpceDrv.LegacySessions
