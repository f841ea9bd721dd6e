import TpceDrv.Lifetime
import TpceDrv.NonInterference
import TpceDrv.StreamStarts

namespace TpceDrv.ErrorAtomicity

open Descriptor DmaParams DmaInfo Mapping PageTable Device ChannelControl ChannelSteps Requests RequestSteps
open RequestAtomicity UserStructs LegacyRead IoctlCommands NonInterference StreamStarts
open Library.Buffers Library.Errors Library.Traces
open Ioctl (TpceIoc IoctlData Succeeds storedSize bufferSize validateSize_eq_zero)

variable {dev dev' dev'' : TpceDev} {c : Channel} {env : InitEnv} {wait : Wait} {req : TpceDmaRequest}
variable {file : ℕ} {k : Kernel} {reply : Reply} {out : Outcome}

/-- The mapping that is registered under an id, with its owner -/
def registered (dev : TpceDev) (id : U32) : Option (ℕ × Option ℕ) :=
  (dev.dmaMappings id).bind fun obj => (dev.mapInfos obj).map fun m => (obj, m.owner)

structure SameStanding (dev dev' : TpceDev) : Prop where
  mappings : ∀ id, registered dev' id = registered dev id
  states : ∀ c, (dev'.dmaInfo c).state = (dev.dmaInfo c).state

/-- A call that returns an error has changed neither the mappings nor the states
of the channels. -/
def ErrorAtomic (r : Except IoctlFault IoctlResult) (dev : TpceDev) : Prop :=
  ∀ result, r = .ok result → result.status < 0 → SameStanding dev result.after.dev

/-- Each step of `tpce_dma_lock_user_buffer` succeeds. -/
structure Locks (env : LockEnv) (dev : TpceDev) (bufferInfo : TpceDmaBufIn) : Prop where
  aligned : bufferInfo.size % tpceCachelineSize = 0
  allocated : env.kvzallocOk = true
  pinned : (numPages bufferInfo : ℤ) ≤ env.pagesPinned
  table : env.sgAlloc = 0
  mapped : env.dmaMap = 0
  copied : 0 ≤ copyDmaPageInfo env bufferInfo
  id : xaFreeId dev ≠ none
  stored : env.xaAllocOk = true

/-- A channel in use does not point to a mapping that is gone. -/
def Resettable (dev : TpceDev) (c : Channel) : Prop :=
  (dev.dmaInfo c).state ≠ .idle → ∀ obj, (dev.dmaInfo c).mapInfo = some obj → dev.mapInfos obj ≠ none

def Frees (dev : TpceDev) (file : ℕ) (id : U32) : Prop :=
  ∃ obj m, dev.dmaMappings id = some obj ∧ dev.mapInfos obj = some m ∧ m.owner = some file ∧
    (mappingIsBusy m = true → ∃ c : Channel, m.activeChannel = c.val ∧ Resettable dev c)

def Cancels (dev : TpceDev) (channel : U32) : Prop :=
  ∃ c : Channel, c.val = channel.toNat ∧ (dev.dmaInfo c).state ≠ .idle ∧ Resettable dev c

/-- A valid stream request that can be set up and that the page table can take -/
def StartsStream (env : InitEnv) (dev : TpceDev) (file : ℕ) (req : TpceDmaRequest) : Prop :=
  validateDmaRequest dev req (some file) = 0 ∧ req.params.transferMode = tpceDmaModeStream ∧
    ∃ (c : Channel) (m : TpceDmaMapInfo), c.val = req.params.channel.toNat ∧ xaLoad dev req.id = some m ∧
      SetsUp env dev c req m ∧ TableTakes env dev c req m

/-- The command has something to commit. -/
def Commits (k : Kernel) (cmd : TpceIoc) (file : ℕ) (dev : TpceDev) (b : Bytes) : Prop :=
  match cmd with
  | .dmaGetAndLockSgl => Locks (k.lock [.lockUserBuffer (dmaBufIn b)]) dev (dmaBufIn b)
  | .dmaFreeSgl => Frees dev file (u32At b 0)
  | .dmaExecute => StartsStream (k.init [.executeRequest (dmaRequest b)]) dev file (dmaRequest b)
  | .dmaCancel => Cancels dev (u32At b 0)
  | _ => False

/-- The buffer that the command gets to see -/
def commandBuffer (env : CopyEnv) (call : UserCall) (s : IoDev) : Bytes :=
  copyIn (startBuffer call.iodata s) call.input call.iodata.inSize.toNat
    (min env.inMissed call.iodata.inSize.toNat)

/-- A command that has something to commit is reached with all it needs, but its
output cannot be copied to the user. -/
structure CommitsUnreported (k : Kernel) (env : CopyEnv) (call : UserCall) (s : IoDev) : Prop where
  argument : env.argOk = true
  locked : env.killed = false
  present : s.dev.goingAway = false
  allocated : localBuffer call.iodata = true → env.kvzallocOk = true
  fits : call.iodata.inSize.toNat ≤ bufferSize (storedSize call.iodata)
  copied : min env.inMissed call.iodata.inSize.toNat = 0
  size : Succeeds call.cmd (storedSize call.iodata)
  commits : Commits k call.cmd call.file s.dev (commandBuffer env call s)
  output : 0 < call.iodata.outSize.toNat
  unreported : 0 < env.outMissed

theorem SameStanding.refl (dev : TpceDev) : SameStanding dev dev := ⟨fun _ => rfl, fun _ => rfl⟩

theorem SameStanding.trans (h : SameStanding dev dev') (h' : SameStanding dev' dev'') : SameStanding dev dev'' :=
  ⟨fun id => (h'.mappings id).trans (h.mappings id), fun c => (h'.states c).trans (h.states c)⟩

/-- All mappings keep their owners, and all channels but one their states. -/
structure SameBut (c : Channel) (dev dev' : TpceDev) : Prop where
  dmaMappings : dev'.dmaMappings = dev.dmaMappings
  owners : ∀ obj, (dev'.mapInfos obj).map (·.owner) = (dev.mapInfos obj).map (·.owner)
  states : ∀ c', c' ≠ c → (dev'.dmaInfo c').state = (dev.dmaInfo c').state

theorem SameBut.trans (h : SameBut c dev dev') (h' : SameBut c dev' dev'') : SameBut c dev dev'' :=
  ⟨h'.dmaMappings.trans h.dmaMappings, fun obj => (h'.owners obj).trans (h.owners obj),
    fun c' hc => (h'.states c' hc).trans (h.states c' hc)⟩

theorem SameBut.standing (h : SameBut c dev dev') (hstate : (dev'.dmaInfo c).state = (dev.dmaInfo c).state) :
    SameStanding dev dev' := by
  refine ⟨fun id => ?_, fun c' => ?_⟩
  · simp only [registered, h.dmaMappings]
    cases dev.dmaMappings id with
    | none => rfl
    | some obj =>
        have howner := h.owners obj
        have hpair := congrArg (Option.map fun owner => (obj, owner)) howner
        rw [Option.map_map, Option.map_map] at hpair
        exact hpair
  · by_cases hc : c' = c
    · rw [hc]
      exact hstate
    · exact h.states c' hc

theorem sameBut_setInfo (dev : TpceDev) (c : Channel) (info : TpceDmaInfo) : SameBut c dev (dev.setInfo c info) :=
  ⟨rfl, fun _ => rfl, fun _ hc => by rw [setInfo_dmaInfo_ne dev info hc]⟩

theorem owners_update {mapInfos : ℕ → Option TpceDmaMapInfo} {obj : ℕ} {m : TpceDmaMapInfo} {a : ℤ}
    (hm : mapInfos obj = some m) (obj' : ℕ) :
    (Function.update mapInfos obj (some { m with activeChannel := a }) obj').map (·.owner) =
      (mapInfos obj').map (·.owner) := by
  by_cases h : obj' = obj
  · subst h
    rw [Function.update_self, hm]
    rfl
  · rw [Function.update_of_ne h]

theorem sameBut_reset (h : resetDmaInfo dev c = .ok dev') : SameBut c dev dev' := by
  obtain ⟨-, rfl⟩ | ⟨-, hlive, rfl⟩ := resetDmaInfo_spec h
  · exact ⟨rfl, fun _ => rfl, fun _ _ => rfl⟩
  · refine ⟨rfl, fun obj' => ?_, fun c' hc => ?_⟩
    · cases hobj : (dev.dmaInfo c).mapInfo with
      | none => rfl
      | some obj =>
          obtain ⟨m, hm⟩ := hlive obj hobj
          simp only [releasedInfos, hm, Option.map_some]
          exact owners_update hm obj'
    · exact congrArg TpceDmaInfo.state (Function.update_of_ne hc ..)

theorem sameBut_initialized {obj : ℕ} {m : TpceDmaMapInfo} {prep info : TpceDmaInfo}
    (hacc : Initialized env dev c req obj m prep info dev') : SameBut c dev dev' := by
  rw [hacc.result]
  refine ⟨rfl, owners_update hacc.live, fun c' hc => ?_⟩
  exact congrArg TpceDmaInfo.state (setInfo_dmaInfo_ne dev _ hc)

theorem sameBut_started {table : AlteraPciePageTable} {info : TpceDmaInfo}
    (hs : Started dev c table info dev') : SameBut c dev dev' := by
  rw [hs.result]
  exact ⟨rfl, fun _ => rfl, fun c' hc => congrArg TpceDmaInfo.state (setInfo_dmaInfo_ne _ _ hc)⟩

theorem sameBut_executed (hexec : Executed env dev c req dev') : SameBut c dev dev' := by
  cases hexec with
  | refused ret info refusal negative same state => exact sameBut_setInfo dev c info
  | failed obj m prep info info₂ table dev₁ dev₂ _ accepted start started state reset =>
      exact ((sameBut_initialized accepted).trans (sameBut_started started)).trans (sameBut_reset reset)
  | running obj m prep info info₂ table dev₁ dev₂ accepted start started state =>
      have hstarted := (sameBut_initialized accepted).trans (sameBut_started started)
      exact ⟨hstarted.dmaMappings, hstarted.owners, hstarted.states⟩

/-- A valid request at the end of `dma_execute`: it has left its channel as it
was, or it is a stream that now runs. -/
theorem settled_standing {fileCtx : Option ℕ} (hvalid : validateDmaRequest dev req fileCtx = 0)
    (h : (dmaExecute env dev req >>= settle wait) = .ok (out, dev')) :
    SameStanding dev dev' ∨ (out = .returned 0 ∧ req.params.transferMode = tpceDmaModeStream ∧
      ∃ (c : Channel) (m : TpceDmaMapInfo), c.val = req.params.channel.toNat ∧ xaLoad dev req.id = some m ∧
        SetsUp env dev c req m ∧ TableTakes env dev c req m) := by
  obtain ⟨c, m, hvalid⟩ := validateDmaRequest_valid hvalid
  obtain ⟨⟨out₁, dev₁⟩, hexecute, h⟩ := bind_eq_ok.mp h
  have hexec := sameBut_executed (dmaExecute_cases hvalid.channel hexecute)
  rcases dmaExecute_outcome hvalid.channel hvalid.idle hexecute with
    ⟨ret, -, rfl, hidle⟩ | ⟨hrun, ⟨hmode, rfl⟩ | ⟨-, rfl, hwait⟩⟩
  · cases h
    exact .inl (hexec.standing (hidle.trans hvalid.idle.symm))
  · cases h
    obtain ⟨obj, m', prep, info, info₂, table, dev₂, dev₃, hacc, hstart, -⟩ :=
      started_of_running hvalid.idle (dmaExecute_cases hvalid.channel hexecute) hrun
    have hstream : (dev₂.dmaInfo c).params.transferMode = tpceDmaModeStream := by rw [initialized_params hacc, hmode]
    have htranslates := (streamDispatch_eq_zero (initialized_state hacc) hstream).mp hstart
    obtain rfl := Option.some.inj ((xaLoad_of_initialized hacc).symm.trans hvalid.loaded)
    exact .inr ⟨rfl, hmode, c, m', hvalid.channel, hvalid.loaded, (setsUp_iff hvalid hmode).mp ⟨dev₂, hacc.accepted⟩,
      (stream_translates_iff hacc hvalid.channel hmode).mp htranslates⟩
  · simp only [settle, hwait] at h
    obtain ⟨dev₂, hwork, h⟩ := bind_eq_ok.mp h
    obtain ⟨dev₃, hreset, h⟩ := bind_eq_ok.mp h
    cases h
    have hcompleted : SameBut c dev₁ { dev₂ with waiting := none } := by
      split at hwork
      · rcases completion_cases hwork with rfl | ⟨-, -, rfl⟩
        · exact ⟨rfl, fun _ => rfl, fun _ _ => rfl⟩
        · have hset := sameBut_setInfo dev₁ c { dev₁.dmaInfo c with state := .complete }
          exact ⟨hset.dmaMappings, hset.owners, hset.states⟩
      · cases hwork
        exact ⟨rfl, fun _ => rfl, fun _ _ => rfl⟩
    have hidle := (resetDmaInfo_frame hreset).1
    exact .inl (((hexec.trans hcompleted).trans (sameBut_reset hreset)).standing (hidle.trans hvalid.idle.symm))

theorem lockUserBuffer_ptr_iff {lockEnv : LockEnv} {bufferInfo : TpceDmaBufIn} :
    (∃ obj, (tpceDmaLockUserBuffer lockEnv dev bufferInfo).1 = .ptr obj) ↔ Locks lockEnv dev bufferInfo := by
  constructor
  · rintro ⟨obj, h⟩
    simp only [tpceDmaLockUserBuffer] at h
    split_ifs at h with haligned halloc hneg hpinned htable hmapped hcopied
    split at h
    · cases h
    · cases h
    · rename_i id hid hstored
      exact ⟨not_not.mp haligned, by simpa using halloc, Int.not_lt.mp hpinned, not_not.mp htable,
        not_not.mp hmapped, Int.not_lt.mp hcopied, by rw [hid]; exact Option.some_ne_none id, hstored⟩
  · intro h
    obtain ⟨id, hid⟩ := Option.ne_none_iff_exists'.mp h.id
    have hpinned := h.pinned
    have hcopied := h.copied
    refine ⟨dev.nextObj, ?_⟩
    simp only [tpceDmaLockUserBuffer]
    rw [if_neg (not_not.mpr h.aligned), if_neg (by simp [h.allocated]), if_neg (by omega), if_neg (by omega),
      if_neg (not_not.mpr h.table), if_neg (not_not.mpr h.mapped), if_neg (by omega), hid, h.stored]

theorem lock_standing {bufferInfo : TpceDmaBufIn}
    (h : lockCommand k file bufferInfo ⟨dev, []⟩ = .ok reply) : SameStanding dev reply.session.dev ∨
      (reply.status = 0 ∧ Locks (k.lock [.lockUserBuffer bufferInfo]) dev bufferInfo) := by
  obtain ⟨⟨out, dev₁⟩, hlock, h⟩ := bind_eq_ok.mp h
  cases h
  simp only [iocLockDmaBuffer] at hlock
  split at hlock
  · rename_i e dev₂ heq
    cases hlock
    obtain ⟨rfl, -⟩ | ⟨-, -, hp, -⟩ := lockUserBuffer_cases heq
    · exact .inl (.refl _)
    · cases hp
  · cases hlock
  · rename_i obj dev₂ heq
    obtain ⟨m, -, hlock⟩ := bind_eq_ok.mp hlock
    cases hlock
    exact .inr ⟨rfl, lockUserBuffer_ptr_iff.mp ⟨obj, congrArg Prod.fst heq⟩⟩

theorem abort_mapInfo (dev : TpceDev) (c : Channel) :
    ((tpceDmaAbort dev c).dmaInfo c).mapInfo = (dev.dmaInfo c).mapInfo ∧
      (((tpceDmaAbort dev c).dmaInfo c).state = .idle ↔ (dev.dmaInfo c).state = .idle) := by
  rw [abort_eq, setInfo_dmaInfo]
  exact ⟨rfl, abortedState_idle⟩

theorem abort_mapInfos (dev : TpceDev) (c : Channel) : (tpceDmaAbort dev c).mapInfos = dev.mapInfos := by
  rw [abort_eq]
  rfl

theorem releaseMapInfo_succeeds (h : ∀ obj, (dev.dmaInfo c).mapInfo = some obj → dev.mapInfos obj ≠ none) :
    ∃ dev', releaseMapInfo dev c = .ok dev' := by
  simp only [releaseMapInfo]
  cases hobj : (dev.dmaInfo c).mapInfo with
  | none => exact ⟨_, rfl⟩
  | some obj =>
      obtain ⟨m, hm⟩ := Option.ne_none_iff_exists'.mp (h obj hobj)
      simp only [mapInfo_eq_ok.mpr hm]
      exact ⟨_, rfl⟩

theorem resetDmaInfo_succeeds (h : Resettable dev c) : ∃ dev', resetDmaInfo dev c = .ok dev' := by
  simp only [resetDmaInfo]
  split
  · exact ⟨_, rfl⟩
  · rename_i hbusy
    have hrelease : ∃ dev₁, releaseMapInfo { (if (dev.dmaInfo c).state = .running then tpceDmaAbort dev c else dev) with
        pageTable := pciePageFreeByChannelId
          (if (dev.dmaInfo c).state = .running then tpceDmaAbort dev c else dev).pageTable c.id } c = .ok dev₁ := by
      apply releaseMapInfo_succeeds
      dsimp only
      split
      · rw [(abort_mapInfo dev c).1, abort_mapInfos]
        exact h hbusy
      · exact h hbusy
    obtain ⟨dev₁, hdev₁⟩ := hrelease
    exact ⟨_, bind_eq_ok.mpr ⟨dev₁, hdev₁, rfl⟩⟩

theorem resettable_abort : Resettable (tpceDmaAbort dev c) c ↔ Resettable dev c := by
  obtain ⟨hmap, hidle⟩ := abort_mapInfo dev c
  simp only [Resettable, hmap, abort_mapInfos, ne_eq, hidle]

theorem resettable_of_reset (h : resetDmaInfo dev c = .ok dev') : Resettable dev c := by
  intro hbusy obj hobj
  obtain ⟨hidle, -⟩ | ⟨-, hlive, -⟩ := resetDmaInfo_spec h
  · exact absurd hidle hbusy
  · obtain ⟨m, hm⟩ := hlive obj hobj
    rw [hm]
    exact Option.some_ne_none m

theorem unlock_standing {id : U32} (h : unlockCommand file id ⟨dev, []⟩ = .ok reply) :
    SameStanding dev reply.session.dev ∨ (reply.status = 0 ∧ Frees dev file id) := by
  obtain ⟨⟨out, dev₁⟩, hunlock, h⟩ := bind_eq_ok.mp h
  cases h
  simp only [iocUnlockDmaBuffer] at hunlock
  split at hunlock
  · cases hunlock
    exact .inl (.refl _)
  rename_i obj hobj
  obtain ⟨m, hm, hunlock⟩ := bind_eq_ok.mp hunlock
  split at hunlock
  · cases hunlock
    exact .inl (.refl _)
  rename_i howner
  obtain ⟨dev₂, hunmap, hunlock⟩ := bind_eq_ok.mp hunlock
  cases hunlock
  have hm := mapInfo_eq_ok.mp hm
  refine .inr ⟨rfl, obj, m, hobj, hm, not_not.mp howner, fun hbusy => ?_⟩
  obtain ⟨m', hm', ⟨hfree, -⟩ | ⟨c, dev₃, -, hchannel, hreset, -⟩⟩ := safeDmaUnmap_cases hunmap
  · obtain rfl : m = m' := Option.some.inj (hm.symm.trans hm')
    exact absurd (hfree.symm.trans hbusy) Bool.false_ne_true
  · obtain rfl : m = m' := Option.some.inj (hm.symm.trans hm')
    have hresettable : Resettable (listDel dev file obj) c := resettable_abort.mp (resettable_of_reset hreset)
    exact ⟨c, channelOf_eq_ok.mp hchannel, hresettable⟩

theorem execute_standing {req : TpceDmaRequest} (h : executeCommand k file req ⟨dev, []⟩ = .ok reply) :
    SameStanding dev reply.session.dev ∨
      (reply.status = 0 ∧ StartsStream (k.init [.executeRequest req]) dev file req) := by
  simp only [executeCommand] at h
  split at h
  · cases h
    exact .inl (.refl _)
  · rename_i hvalid
    obtain ⟨⟨out, dev₁⟩, hrun, h⟩ := bind_eq_ok.mp h
    cases h
    obtain hsame | ⟨rfl, hmode, hstarts⟩ := settled_standing (not_not.mp hvalid) hrun
    · exact .inl hsame
    · exact .inr ⟨rfl, not_not.mp hvalid, hmode, hstarts⟩

theorem sameBut_abort (dev : TpceDev) (c : Channel) : SameBut c dev (tpceDmaAbort dev c) := by
  rw [abort_eq]
  exact ⟨rfl, fun _ => rfl, fun c' hc => congrArg TpceDmaInfo.state (setInfo_dmaInfo_ne _ _ hc)⟩

theorem cancel_standing {channel : U32} (h : cancelCommand channel ⟨dev, []⟩ = .ok reply) :
    SameStanding dev reply.session.dev ∨ (reply.status = 0 ∧ Cancels dev channel) := by
  obtain ⟨⟨out, dev₁⟩, hcancel, h⟩ := bind_eq_ok.mp h
  cases h
  simp only [iocDmaCancel] at hcancel
  split at hcancel
  · rename_i hlt
    obtain ⟨dev₂, hreset, hcancel⟩ := bind_eq_ok.mp hcancel
    cases hcancel
    by_cases hidle : (dev.dmaInfo ⟨channel.toNat, hlt⟩).state = .idle
    · have hsame := (sameBut_abort dev ⟨channel.toNat, hlt⟩).trans (sameBut_reset hreset)
      exact .inl (hsame.standing ((resetDmaInfo_frame hreset).1.trans hidle.symm))
    · exact .inr ⟨rfl, _, rfl, hidle, resettable_abort.mp (resettable_of_reset hreset)⟩
  · cases hcancel
    exact .inl (.refl _)

/-- A legacy transfer is never a stream. -/
theorem sessionOps_keep (k : Kernel) (dev : TpceDev) :
    OpsKeep (sessionOps k) fun s => SameStanding dev s.dev where
  read := fun r s ret s' h hs => by
    obtain ⟨⟨out₁, dev₁⟩, hread, h⟩ := bind_eq_ok.mp h
    obtain ⟨⟨out, dev₂⟩, hsettle, h⟩ := bind_eq_ok.mp h
    cases h
    refine hs.trans ?_
    have hrefused : ∀ err, (Except.ok (Outcome.returned err, s.dev) : Except Fault _) = .ok (out₁, dev₁) →
        SameStanding s.dev dev₂ := by
      intro err heq
      cases heq
      cases hsettle
      exact .refl _
    simp only [readKernelDmaBuffer] at hread
    split at hread
    · exact hrefused _ hread
    split at hread
    · exact hrefused _ hread
    obtain ⟨chInfo, -, hread⟩ := bind_eq_ok.mp hread
    split at hread
    · exact hrefused _ hread
    · rename_i hvalid
      obtain hsame | ⟨-, hmode, -⟩ := settled_standing (not_not.mp hvalid) (bind_eq_ok.mpr ⟨_, hread, hsettle⟩)
      · exact hsame
      · have hmode : tpceDmaModeDefault = tpceDmaModeStream := hmode
        exact absurd hmode (by decide)
  copy := fun _ _ _ _ hs => hs

theorem legacy_standing {r : Except Fault (Int × Session)} (h : legacyCommand r = .ok reply)
    (hkeep : ∀ ret s, r = .ok (ret, s) → SameStanding dev s.dev) : SameStanding dev reply.session.dev := by
  obtain ⟨⟨ret, s⟩, hr, h⟩ := bind_eq_ok.mp h
  cases h
  exact hkeep ret s hr

theorem orFault_eq_ok {α : Type} {x : Except Fault α} {a : α} : orFault x = .ok a ↔ x = .ok a := by
  cases x with
  | error fault => exact iff_of_false (fun h => by cases h) fun h => by cases h
  | ok b => exact ⟨fun h => congrArg Except.ok (Except.ok.inj h), fun h => congrArg Except.ok (Except.ok.inj h)⟩

theorem iocBarRead_dev {regInfo : TPciDevReg} {s s' : Session} {v : U32}
    (h : iocBarRead k regInfo s = .ok (v, s')) : s'.dev = s.dev := by
  simp only [iocBarRead] at h
  split at h
  · split at h
    · cases h
      rfl
    · split at h
      · cases h
        rfl
      · cases h
        rfl
  · cases h

theorem iocBarWrite_dev {regInfo : TPciDevReg} {s : Session} (h : iocBarWrite k regInfo s = .ok reply) :
    reply.session.dev = s.dev := by
  simp only [iocBarWrite] at h
  split at h
  · split at h
    · cases h
      rfl
    · split at h
      · cases h
        rfl
      · cases h
        rfl
  · cases h

theorem SameStanding.of_eq (h : dev' = dev) : SameStanding dev dev' := h ▸ .refl dev

/-- A command changes the standing of the mappings and channels only if it has
something to commit and succeeds. -/
theorem dispatch_standing {cmd : TpceIoc} {size : U32} {b : Bytes}
    (h : tpceDispatchIoc k file cmd size b ⟨dev, []⟩ = .ok reply) :
    SameStanding dev reply.session.dev ∨ (reply.status = 0 ∧ Succeeds cmd size ∧ Commits k cmd file dev b) := by
  by_cases hok : Succeeds cmd size
  · rw [dispatch_size hok] at h
    cases cmd with
    | pciBarRead =>
        obtain ⟨⟨v, s⟩, hread, h⟩ := bind_eq_ok.mp h
        cases h
        exact .inl (.of_eq (iocBarRead_dev hread))
    | pciBarWrite => exact .inl (.of_eq (iocBarWrite_dev h))
    | dmaGetAndLockSgl => exact (lock_standing (orFault_eq_ok.mp h)).imp id fun h => ⟨h.1, hok, h.2⟩
    | dmaFreeSgl => exact (unlock_standing (orFault_eq_ok.mp h)).imp id fun h => ⟨h.1, hok, h.2⟩
    | dmaRead =>
        exact .inl (legacy_standing (orFault_eq_ok.mp h) fun _ _ hrun =>
          (sessionOps_keep k dev).iocDmaReadRequest hrun (.refl dev))
    | rwConfigspace =>
        have hdev := iocConfigReadwrite_dev k (pciConfReg b) ⟨dev, []⟩
        rw [Except.ok.inj h] at hdev
        exact .inl (.of_eq hdev)
    | dmaRead2 =>
        exact .inl (legacy_standing (orFault_eq_ok.mp h) fun _ _ hrun =>
          (sessionOps_keep k dev).iocDmaReadRequestA hrun (.refl dev))
    | dmaExecute => exact (execute_standing (orFault_eq_ok.mp h)).imp id fun h => ⟨h.1, hok, h.2⟩
    | dmaCancel => exact (cancel_standing (orFault_eq_ok.mp h)).imp id fun h => ⟨h.1, hok, h.2⟩
    | _ =>
        cases h
        exact .inl (.refl _)
  · obtain ⟨err, -, hdispatch⟩ :
        ∃ err < 0, ∀ b, tpceDispatchIoc k file cmd size b ⟨dev, []⟩ = .ok ⟨err, [], ⟨dev, []⟩⟩ :=
      dispatch_rejected hok
    rw [hdispatch] at h
    cases h
    exact .inl (.refl _)

/-- A command that succeeds and shows -/
def Committed (r : Except Fault Reply) (dev : TpceDev) : Prop :=
  ∃ reply, r = .ok reply ∧ reply.status = 0 ∧ ¬SameStanding dev reply.session.dev

theorem lock_committed {bufferInfo : TpceDmaBufIn} (h : Locks (k.lock [.lockUserBuffer bufferInfo]) dev bufferInfo) :
    Committed (lockCommand k file bufferInfo ⟨dev, []⟩) dev := by
  obtain ⟨obj, hptr⟩ := lockUserBuffer_ptr_iff.mpr h
  cases hlock : tpceDmaLockUserBuffer (k.lock [.lockUserBuffer bufferInfo]) dev bufferInfo with
  | mk p dev₁ =>
      obtain rfl : p = .ptr obj := (congrArg Prod.fst hlock).symm.trans hptr
      obtain ⟨-, hnone⟩ | ⟨id, hid, hp, rfl⟩ := lockUserBuffer_cases hlock
      · exact absurd rfl (hnone obj)
      obtain rfl := MapPtr.ptr.inj hp
      have hfree : registered dev id = none := by rw [registered, xaFreeId_free hid]; rfl
      simp only [lockCommand, Session.ask, List.nil_append, iocLockDmaBuffer, hlock, TpceDev.mapInfo, TpceDev.setMapInfo,
        Function.update_self]
      refine ⟨_, rfl, rfl, fun hsame => ?_⟩
      have hnew := hsame.mappings id
      rw [hfree] at hnew
      simp [registered] at hnew

theorem safeDmaUnmap_succeeds {obj : ℕ} {m : TpceDmaMapInfo} (hm : dev.mapInfos obj = some m)
    (hbusy : mappingIsBusy m = true → ∃ c : Channel, m.activeChannel = c.val ∧ Resettable dev c) :
    ∃ dev', tpceSafeDmaUnmap dev obj = .ok dev' ∧ dev'.mapInfos obj = none := by
  have hunlock : ∀ dev₁ : TpceDev, dev₁.mapInfos obj ≠ none →
      ∃ dev', tpceDmaUnlockUserBuffer dev₁ obj = .ok dev' ∧ dev'.mapInfos obj = none := by
    intro dev₁ hlive
    obtain ⟨m₁, hm₁⟩ := Option.ne_none_iff_exists'.mp hlive
    simp only [tpceDmaUnlockUserBuffer, mapInfo_eq_ok.mpr hm₁]
    exact ⟨_, rfl, Function.update_self ..⟩
  simp only [tpceSafeDmaUnmap, mapInfo_eq_ok.mpr hm]
  by_cases h : mappingIsBusy m = true
  · obtain ⟨c, hc, hresettable⟩ := hbusy h
    obtain ⟨dev₁, hreset⟩ := resetDmaInfo_succeeds (resettable_abort.mpr hresettable)
    have howner := ((sameBut_abort dev c).trans (sameBut_reset hreset)).owners obj
    obtain ⟨dev', hdev', hgone⟩ := hunlock dev₁ fun hnone => by rw [hnone, hm] at howner; cases howner
    exact ⟨dev', bind_eq_ok.mpr ⟨m, rfl, bind_eq_ok.mpr ⟨dev₁, by rw [if_pos h, channelOf_eq_ok.mpr hc]; exact hreset,
      hdev'⟩⟩, hgone⟩
  · obtain ⟨dev', hdev', hgone⟩ := hunlock dev (by rw [hm]; exact Option.some_ne_none m)
    exact ⟨dev', bind_eq_ok.mpr ⟨m, rfl, bind_eq_ok.mpr ⟨dev, if_neg h, hdev'⟩⟩, hgone⟩

theorem unlock_committed {id : U32} (h : Frees dev file id) : Committed (unlockCommand file id ⟨dev, []⟩) dev := by
  obtain ⟨obj, m, hobj, hm, howner, hbusy⟩ := h
  have hold : registered dev id = some (obj, some file) := by
    rw [registered, hobj, Option.bind_some, hm, Option.map_some, howner]
  obtain ⟨dev', hunmap, hgone⟩ : ∃ dev', tpceSafeDmaUnmap (listDel dev file obj) obj = .ok dev' ∧
      dev'.mapInfos obj = none := safeDmaUnmap_succeeds hm hbusy
  have hrun : iocUnlockDmaBuffer dev file id = .ok (.returned 0, dev') := by
    simp only [iocUnlockDmaBuffer, hobj]
    refine bind_eq_ok.mpr ⟨m, mapInfo_eq_ok.mpr hm, ?_⟩
    rw [if_neg (not_not.mpr howner)]
    exact bind_eq_ok.mpr ⟨dev', hunmap, rfl⟩
  simp only [unlockCommand, hrun]
  refine ⟨_, rfl, rfl, fun hsame => ?_⟩
  have hnew := (hsame.mappings id).trans hold
  obtain ⟨obj', hobj', hnew⟩ := Option.bind_eq_some_iff.mp hnew
  obtain ⟨m', hm', heq⟩ := Option.map_eq_some_iff.mp hnew
  obtain rfl : obj' = obj := congrArg Prod.fst heq
  exact Option.some_ne_none m' (hm'.symm.trans hgone)

/-- A stream that starts has not met a full page table. -/
theorem streamExecutes {fileCtx : Option ℕ} {m : TpceDmaMapInfo} (hvalid : ValidRequest dev req fileCtx c m)
    (hmode : req.params.transferMode = tpceDmaModeStream) (hsetsUp : SetsUp env dev c req m)
    (htakes : TableTakes env dev c req m) :
    ∃ dev', PageTableFaults.dmaExecute env dev req = .ok (.returned 0, dev') ∧ (dev'.dmaInfo c).state = .running := by
  have hc := hvalid.channel
  obtain ⟨dev₁, hinit⟩ := (setsUp_iff hvalid hmode).mpr hsetsUp
  obtain ⟨hneg, -⟩ | ⟨-, obj, m', prep, info, hacc⟩ := initDmaInfo_cases hinit
  · omega
  obtain rfl := Option.some.inj ((xaLoad_of_initialized hacc).symm.trans hvalid.loaded)
  have hstate := initialized_state hacc
  have hstream : (dev₁.dmaInfo c).params.transferMode = tpceDmaModeStream := by rw [initialized_params hacc, hmode]
  have hstart := (streamDispatch_eq_zero hstate hstream).mpr ((stream_translates_iff hacc hc hmode).mpr htakes)
  have hlt : req.params.channel.toNat < 3 := hc ▸ c.isLt
  obtain rfl : c = ⟨req.params.channel.toNat, hlt⟩ := Fin.ext hc
  have hroom := PageTableFaults.dmaDispatch_of_started hstart
  cases hdisp : dmaDispatch env dev₁ ⟨req.params.channel.toNat, hlt⟩ with
  | mk ret dev₂ =>
      obtain rfl : ret = 0 := (congrArg Prod.fst hdisp).symm.trans hstart
      obtain ⟨table, info₂, hres, hsame, -, hend⟩ := dmaDispatch_spec hstate hdisp
      have hinfo : dev₂.dmaInfo ⟨req.params.channel.toNat, hlt⟩ = info₂ := by rw [hres, setInfo_dmaInfo]
      obtain ⟨hneg, -⟩ | ⟨-, hrun⟩ := hend
      · omega
      refine ⟨dev₂, ?_, hinfo ▸ hrun⟩
      have hmode₂ : (dev₂.dmaInfo ⟨req.params.channel.toNat, hlt⟩).params.transferMode = tpceDmaModeStream := by
        rw [hinfo, hsame.params]
        exact hstream
      simp only [PageTableFaults.dmaExecute]
      rw [dif_pos hlt]
      refine bind_eq_ok.mpr ⟨_, hinit, ?_⟩
      dsimp only
      rw [if_neg (by omega)]
      refine bind_eq_ok.mpr ⟨_, hroom.trans (congrArg Except.ok hdisp), ?_⟩
      dsimp only
      rw [if_neg (by decide), if_pos hmode₂]
      rfl

theorem execute_committed {req : TpceDmaRequest} (h : StartsStream (k.init [.executeRequest req]) dev file req) :
    Committed (erase (TracedIoctl.executeCommand Lifetime.touchingOps k (fun _ => 0) file req ⟨dev, []⟩)) dev := by
  obtain ⟨hvalid, hmode, c, m, hc, hload, hsetsUp, htakes⟩ := h
  obtain ⟨c', m', hvalidated⟩ := validateDmaRequest_valid hvalid
  obtain rfl : c' = c := Fin.ext (hvalidated.channel.trans hc.symm)
  obtain rfl := Option.some.inj (hvalidated.loaded.symm.trans hload)
  obtain ⟨dev', hexec, hrun⟩ := streamExecutes hvalidated hmode hsetsUp htakes
  refine ⟨⟨0, [], ⟨dev', [.executeRequest req]⟩⟩, ?_, rfl, fun hsame => ?_⟩
  · simp only [TracedIoctl.executeCommand]
    rw [if_neg (not_not.mpr hvalid), erase_bind]
    have herase := Lifetime.erase_dmaExecute (k.init [.executeRequest req])
      ⟨k.wait [.executeRequest req], 0⟩ dev req
    rw [hexec] at herase
    exact bind_eq_ok.mpr ⟨(.returned 0, dev'), herase, rfl⟩
  · have hstate := hsame.states c'
    rw [hvalidated.idle] at hstate
    exact TpceDmaChannelState.noConfusion (hrun.symm.trans hstate)

theorem cancel_committed {channel : U32} (h : Cancels dev channel) : Committed (cancelCommand channel ⟨dev, []⟩) dev := by
  obtain ⟨c, hc, hbusy, hresettable⟩ := h
  obtain ⟨dev', hreset⟩ := resetDmaInfo_succeeds (resettable_abort.mpr hresettable)
  have hlt : channel.toNat < 3 := hc ▸ c.isLt
  obtain rfl : c = ⟨channel.toNat, hlt⟩ := Fin.ext hc
  simp only [cancelCommand, iocDmaCancel, dif_pos hlt, hreset]
  refine ⟨_, rfl, rfl, fun hsame => ?_⟩
  exact hbusy ((hsame.states _).symm.trans (resetDmaInfo_frame hreset).1)

/-- Only a request can end at the page table, and one that starts does not. -/
theorem dispatch_committed {cmd : TpceIoc} {size : U32} {b : Bytes} (hok : Succeeds cmd size)
    (h : Commits k cmd file dev b) : ∃ reply,
      erase (TracedIoctl.tpceDispatchIoc Lifetime.touchingOps k (fun _ => 0) file cmd size b ⟨dev, []⟩) = .ok reply ∧
        reply.status = 0 ∧ ¬SameStanding dev reply.session.dev := by
  have hlift : ∀ {r : Except Fault Reply}, Committed r dev →
      ∃ reply, orFault r = .ok reply ∧ reply.status = 0 ∧ ¬SameStanding dev reply.session.dev :=
    fun ⟨reply, hr, hend⟩ => ⟨reply, orFault_eq_ok.mpr hr, hend⟩
  cases hcmd : TracedIoctl.makesRequest cmd with
  | false =>
      rw [TracedIoctl.erase_dispatch_of_plain Lifetime.touchingOps_faithful hcmd, dispatch_size hok]
      cases cmd with
      | dmaGetAndLockSgl => exact hlift (lock_committed h)
      | dmaFreeSgl => exact hlift (unlock_committed h)
      | dmaCancel => exact hlift (cancel_committed h)
      | dmaExecute => cases hcmd
      | _ => exact h.elim
  | true =>
      cases cmd with
      | dmaExecute =>
          simp only [TracedIoctl.tpceDispatchIoc, TracedIoctl.erase_validateSize, TracedIoctl.erase_orFault]
          rw [validateSize_of_fits hok]
          exact hlift (execute_committed h)
      | dmaRead => exact h.elim
      | dmaRead2 => exact h.elim
      | _ => cases hcmd

theorem toUser_status {env : CopyEnv} {bytes : List Byte} :
    (env.toUser bytes).1 < 0 ↔ 0 < env.outMissed ∧ 0 < bytes.length := by
  simp only [CopyEnv.toUser]
  split
  · exact iff_of_true (by decide) (by omega)
  · exact iff_of_false (by decide) (by omega)

theorem copyOut_length (b behind : Bytes) (capacity length : ℕ) : (copyOut b behind capacity length).length = length := by
  rw [copyOut, List.length_map, List.length_range]

theorem finish_status {env : CopyEnv} {iodata : IoctlData} {b : Bytes} {s : IoDev} (hstatus : reply.status = 0) :
    (finishIoctl env iodata b s reply).status < 0 ↔ 0 < env.outMissed ∧ 0 < iodata.outSize.toNat := by
  simp only [finishIoctl]
  split
  · rw [toUser_status, copyOut_length]
  · rename_i hempty
    have hzero : ¬0 < iodata.outSize.toNat := fun hpos => hempty ⟨hstatus, BitVec.lt_def.mpr hpos⟩
    rw [hstatus]
    exact iff_of_false (Int.lt_irrefl 0) fun h => hzero h.2

theorem finish_dev (env : CopyEnv) (iodata : IoctlData) (b : Bytes) (s : IoDev) (reply : Reply) :
    (finishIoctl env iodata b s reply).after.dev = reply.session.dev := by
  simp only [finishIoctl]
  split
  · rfl
  · rfl

theorem atomic_of_reported {env : CopyEnv} {call : UserCall} {s : IoDev} (h : ¬CommitsUnreported k env call s) :
    ErrorAtomic (tpceIoctl k env call s) s.dev := by
  intro result hresult hneg
  by_cases harg : env.argOk = true
  swap
  · simp only [tpceIoctl] at hresult
    rw [if_pos (by simpa using harg)] at hresult
    cases hresult
    exact .refl _
  by_cases hevent : call.cmd = .event
  · simp only [tpceIoctl, hevent] at hresult
    rw [if_neg (by simp [harg])] at hresult
    cases hresult
    exact .refl _
  by_cases hstatus : call.cmd = .dmaStatus
  · simp only [tpceIoctl, hstatus] at hresult
    rw [if_neg (by simp [harg])] at hresult
    exact .of_eq (by rw [(status_after hresult).2])
  rw [tpceIoctl_dispatched hevent hstatus, if_neg (by simp [harg])] at hresult
  simp only [ioctlDispatched] at hresult
  split at hresult
  · cases hresult
    exact .refl _
  rename_i hkilled
  split at hresult
  · cases hresult
    exact .refl _
  rename_i haway
  split at hresult
  · cases hresult
    exact .refl _
  rename_i halloc
  split at hresult
  · cases hresult
  rename_i hfits
  split at hresult
  · cases hresult
    exact .refl _
  rename_i hcopied
  obtain ⟨reply, hdispatch, hresult⟩ := bind_eq_ok.mp hresult
  obtain rfl := Except.ok.inj hresult
  rw [finish_dev]
  obtain hsame | ⟨hzero, hok, hcommits⟩ := dispatch_standing hdispatch
  · exact hsame
  obtain ⟨hmissed, hout⟩ := (finish_status hzero).mp hneg
  exact absurd ⟨harg, by simpa using hkilled, by simpa using haway, by simpa using halloc, Nat.not_lt.mp hfits,
    not_not.mp hcopied, hok, hcommits, hout, hmissed⟩ h

/-- `tpce_ioctl` up to a store outside the page table -/
def ioctlUpToFault (k : Kernel) (env : CopyEnv) (call : UserCall) (s : IoDev) : Except IoctlFault IoctlResult :=
  erase (Lifetime.tpceIoctl k env call s)

theorem ioctlUpToFault_returns {env : CopyEnv} {call : UserCall} {s : IoDev} {result : IoctlResult}
    (h : ioctlUpToFault k env call s = .ok result) : tpceIoctl k env call s = .ok result :=
  (Lifetime.ioctl_curtails k env call s).returns h

theorem ioctlUpToFault_dispatched {call : UserCall} (hevent : call.cmd ≠ .event) (hstatus : call.cmd ≠ .dmaStatus)
    (k : Kernel) {env : CopyEnv} (harg : env.argOk = true) (s : IoDev) :
    ioctlUpToFault k env call s = erase (Lifetime.ioctlDispatched k env call s) := by
  simp only [ioctlUpToFault, Lifetime.tpceIoctl]
  rw [if_neg (by simp [harg]), erase_bind, Lifetime.erase_touch, ok_bind]

theorem commits_of_unreported {env : CopyEnv} {call : UserCall} {s : IoDev} (h : CommitsUnreported k env call s) :
    ¬ErrorAtomic (ioctlUpToFault k env call s) s.dev := by
  intro hatomic
  have hcmd : call.cmd ≠ .event ∧ call.cmd ≠ .dmaStatus := by
    have hcommits := h.commits
    constructor
    · intro hevent
      rw [hevent] at hcommits
      exact hcommits
    · intro hstatus
      rw [hstatus] at hcommits
      exact hcommits
  obtain ⟨reply, hdispatch, hzero, hdiffers⟩ := dispatch_committed h.size h.commits
  have hresult : ioctlUpToFault k env call s = .ok (finishIoctl env call.iodata (commandBuffer env call s) s reply) := by
    have halloc : ¬(localBuffer call.iodata && !env.kvzallocOk) = true := by
      have hallocated := h.allocated
      cases hlocal : localBuffer call.iodata with
      | false => simp
      | true => simp [hallocated hlocal]
    rw [ioctlUpToFault_dispatched hcmd.1 hcmd.2 k h.argument]
    simp only [Lifetime.ioctlDispatched, erase_ite, erase_lift, erase_pure, erase_bind, Lifetime.erase_touchIf, ok_bind]
    rw [if_neg (by simp [h.locked]), if_neg (by simp [h.present]), if_neg halloc, if_neg (Nat.not_lt.mpr h.fits),
      if_neg (not_not.mpr h.copied)]
    exact bind_eq_ok.mpr ⟨reply, hdispatch, rfl⟩
  have hsame := hatomic _ hresult ((finish_status hzero).mpr ⟨h.unreported, h.output⟩)
  rw [finish_dev] at hsame
  exact hdiffers hsame

/-- An error goes with a change exactly if a command commits something and its
output cannot be copied. -/
theorem error_atomic_iff (k : Kernel) (env : CopyEnv) (call : UserCall) (s : IoDev) :
    ErrorAtomic (ioctlUpToFault k env call s) s.dev ↔ ¬CommitsUnreported k env call s :=
  ⟨fun hatomic hunreported => commits_of_unreported hunreported hatomic,
    fun h result hresult => atomic_of_reported h result (ioctlUpToFault_returns hresult)⟩

def openedDevice : TpceDev := { freshDevice with files := [0], nextFile := 1 }

/-- A lock whose result cannot be copied: the caller never learns the id of the
mapping that stays registered. -/
theorem lock_lost_on_copy : Library.Runs.run PageTableFaults.step freshDevice [.openFile] = some openedDevice ∧
    ¬ErrorAtomic (ioctlUpToFault grantingKernel { copyAll with outMissed := 8 }
      ⟨0, .dmaGetAndLockSgl, ⟨0x10000#64, 32#64, 0x20000#64, 8#64⟩, validInput .dmaGetAndLockSgl⟩
      ⟨openedDevice, 0, fun _ => 0⟩) openedDevice := by
  refine ⟨rfl, commits_of_unreported ⟨rfl, rfl, rfl, by decide, by decide, by decide, by decide, ?_, by decide,
    by decide⟩⟩
  exact ⟨by decide, by decide, by decide, by decide, by decide, by decide, by decide, by decide⟩

end TpceDrv.ErrorAtomicity
