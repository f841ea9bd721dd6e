import TpceDrv.MappingEffects
import TpceDrv.DescriptorAccounting
import TpceDrv.Ownership

namespace TpceDrv.OwnershipSteps

open Descriptor DmaParams DmaInfo Mapping PageTable Device ChannelSteps Requests Driver RequestSteps Resources
open MappingTable MappingEffects MappingInUse RequestAtomicity DescriptorBuffers Ownership
open LockUserBuffer Library.Holdings Library.Traces
open ChannelControl (InitEnv tpceDmaHasTerminatingDescriptor descAllocSize takeUserDesc generateDesc copyToDma
  tpceDmaAbort dmaDispatch releaseMapInfo)

variable {ε : Type} {env : InitEnv} {dev dev' : TpceDev} {c : Channel} {req : TpceDmaRequest}
variable {info info' : TpceDmaInfo} {held held₀ : Finset Item} {beside : Item → Prop} {obj file : ℕ} {m : TpceDmaMapInfo}

/-- The buffers and the stream page of one channel -/
def OfChannel (c : Channel) (k : Item) : Prop := k = .desc c ∨ k = .descDma c ∨ k = .streamState c

/-- What is held for a channel is what its data refer to. Everything else is as it was. -/
structure HeldFor (c : Channel) (info : TpceDmaInfo) (held₀ held : Finset Item) : Prop where
  desc : .desc c ∈ held ↔ info.desc ≠ []
  descDma : .descDma c ∈ held ↔ info.descDma ≠ []
  streamState : .streamState c ∈ held ↔ info.streamInfo.state ≠ none
  others : ∀ k, ¬OfChannel c k → (k ∈ held ↔ k ∈ held₀)

theorem HeldFor.congr (h : HeldFor c info held₀ held) (hdesc : info'.desc = [] ↔ info.desc = [])
    (hdescDma : info'.descDma = [] ↔ info.descDma = [])
    (hstate : info'.streamInfo.state = none ↔ info.streamInfo.state = none) : HeldFor c info' held₀ held :=
  ⟨h.desc.trans (not_congr hdesc.symm), h.descDma.trans (not_congr hdescDma.symm),
    h.streamState.trans (not_congr hstate.symm), h.others⟩

theorem nil_of_length {α : Type} {xs ys : List α} (h : xs.length = ys.length) : xs = [] ↔ ys = [] := by
  rw [← List.length_eq_zero_iff, h, List.length_eq_zero_iff]

theorem HeldFor.same (h : HeldFor c info held₀ held) (hsame : SameBuffers info info')
    (hstream : info'.streamInfo = info.streamInfo) : HeldFor c info' held₀ held :=
  h.congr (nil_of_length hsame.desc) (nil_of_length hsame.descDma) (by rw [hstream])

theorem HeldFor.erase_desc (h : HeldFor c info held₀ held) (hdesc : info'.desc = [])
    (hdescDma : info'.descDma = info.descDma) (hstream : info'.streamInfo = info.streamInfo) :
    HeldFor c info' held₀ (held.erase (.desc c)) := by
  refine ⟨?_, ?_, ?_, fun k hk => ?_⟩
  · simp [hdesc]
  · rw [Finset.mem_erase, hdescDma, h.descDma]
    simp
  · rw [Finset.mem_erase, hstream, h.streamState]
    simp
  · rw [Finset.mem_erase, h.others k hk]
    exact and_iff_right fun heq => hk (.inl heq)

theorem HeldFor.erase_descDma (h : HeldFor c info held₀ held) (hdesc : info'.desc = info.desc)
    (hdescDma : info'.descDma = []) (hstream : info'.streamInfo = info.streamInfo) :
    HeldFor c info' held₀ (held.erase (.descDma c)) := by
  refine ⟨?_, ?_, ?_, fun k hk => ?_⟩
  · rw [Finset.mem_erase, hdesc, h.desc]
    simp
  · simp [hdescDma]
  · rw [Finset.mem_erase, hstream, h.streamState]
    simp
  · rw [Finset.mem_erase, h.others k hk]
    exact and_iff_right fun heq => hk (.inr (.inl heq))

theorem HeldFor.insert_desc (h : HeldFor c info held₀ held) (hdesc : info'.desc ≠ [])
    (hdescDma : info'.descDma = info.descDma) (hstream : info'.streamInfo = info.streamInfo) :
    HeldFor c info' held₀ (insert (.desc c) held) := by
  refine ⟨?_, ?_, ?_, fun k hk => ?_⟩
  · simp [hdesc]
  · rw [Finset.mem_insert, hdescDma, h.descDma]
    simp
  · rw [Finset.mem_insert, hstream, h.streamState]
    simp
  · rw [Finset.mem_insert, h.others k hk]
    exact or_iff_right fun heq => hk (.inl heq)

theorem HeldFor.insert_descDma (h : HeldFor c info held₀ held) (hdesc : info'.desc = info.desc)
    (hdescDma : info'.descDma ≠ []) (hstream : info'.streamInfo = info.streamInfo) :
    HeldFor c info' held₀ (insert (.descDma c) held) := by
  refine ⟨?_, ?_, ?_, fun k hk => ?_⟩
  · rw [Finset.mem_insert, hdesc, h.desc]
    simp
  · simp [hdescDma]
  · rw [Finset.mem_insert, hstream, h.streamState]
    simp
  · rw [Finset.mem_insert, h.others k hk]
    exact or_iff_right fun heq => hk (.inr (.inl heq))

theorem freeDesc_ends (h : HeldFor c info held₀ held) (hdesc : info'.desc = [])
    (hdescDma : info'.descDma = info.descDma) (hstream : info'.streamInfo = info.streamInfo) :
    Ends some held (freeDesc c info : Owning ε Unit) fun _ held' => HeldFor c info' held₀ held' := by
  apply Ends.ite
  · intro hempty
    have hnil := List.isEmpty_iff.mp hempty
    exact Ends.pure (h.congr (iff_of_true hdesc hnil) (by rw [hdescDma]) (by rw [hstream]))
  · intro hfull
    have hheld := h.desc.mpr (mt List.isEmpty_iff.mpr hfull)
    exact Ends.released rfl hheld (h.erase_desc hdesc hdescDma hstream)

theorem freeDescDma_ends (h : HeldFor c info held₀ held) (hdesc : info'.desc = info.desc)
    (hdescDma : info'.descDma = []) (hstream : info'.streamInfo = info.streamInfo) :
    Ends some held (freeDescDma c info : Owning ε Unit) fun _ held' => HeldFor c info' held₀ held' := by
  apply Ends.ite
  · intro hempty
    have hnil := List.isEmpty_iff.mp hempty
    exact Ends.pure (h.congr (by rw [hdesc]) (iff_of_true hdescDma hnil) (by rw [hstream]))
  · intro hfull
    have hheld := h.descDma.mpr (mt List.isEmpty_iff.mpr hfull)
    exact Ends.released rfl hheld (h.erase_descDma hdesc hdescDma hstream)

theorem freeBuffers_ends (h : HeldFor c info held₀ held) :
    Ends some held (freeBuffers c info : Owning ε Unit) fun _ held' =>
      HeldFor c (freeDescriptorsMem info) held₀ held' := by
  have hdma : Ends some held (freeDescDma c info : Owning ε Unit) fun _ held' =>
      HeldFor c { info with descDma := [] } held₀ held' := freeDescDma_ends h rfl rfl rfl
  apply hdma.bind
  intro _ held₁ h₁
  change Ends some held₁ (freeDesc c { info with descDma := [] }) _
  exact freeDesc_ends h₁ rfl rfl rfl

theorem allocDescriptorsMem_ends {size : U32} (hempty : info.desc = [] ↔ info.descDma = [])
    (hsize : size.toNat % 64 = 0) (h : HeldFor c info held₀ held) :
    Ends some held (tpceDmaAllocDescriptorsMem env c info size : Owning ε _) fun r held' =>
      HeldFor c r.2 held₀ held' := by
  apply Ends.ite
  · exact fun _ => Ends.pure h
  intro hrange
  apply Ends.ite
  · exact fun _ => Ends.pure (h.congr Iff.rfl Iff.rfl Iff.rfl)
  intro _
  have hbuffer : List.replicate (size / descriptorSize).toNat (default : TpceDmaDescriptor) ≠ [] := by
    have hne : size.toNat ≠ 0 := fun hzero => hrange (.inl (BitVec.eq_of_toNat_eq hzero))
    rw [Ne, List.replicate_eq_nil_iff, toNat_div_descriptorSize]
    omega
  have hfreed : Ends some held
      (if info.descDma.isEmpty then pure info
        else do
          freeBuffers c info
          pure (freeDescriptorsMem info) : Owning ε TpceDmaInfo) fun info' held' =>
        HeldFor c info' held₀ held' ∧ info'.desc = [] ∧ info'.descDma = [] := by
    apply Ends.ite
    · intro hnil
      have hdma := List.isEmpty_iff.mp hnil
      exact Ends.pure ⟨h, hempty.mpr hdma, hdma⟩
    · intro _
      apply (freeBuffers_ends h).bind
      exact fun _ held₁ h₁ => Ends.pure ⟨h₁, rfl, rfl⟩
  apply hfreed.bind
  rintro info₁ held₁ ⟨h₁, hdesc, hdescDma⟩
  apply Ends.ite
  · exact fun _ => Ends.pure h₁
  intro _
  have hfree : .desc c ∉ held₁ := fun hmem => h₁.desc.mp hmem hdesc
  apply Ends.acquire rfl hfree
  cases env.dmaAllocCoherent with
  | none =>
      apply Ends.release rfl (Finset.mem_insert_self _ _)
      rw [Finset.erase_insert hfree]
      exact Ends.pure h₁
  | some newBusAddr =>
      have hfreeDma : .descDma c ∉ insert (.desc c) held₁ := by
        rw [Finset.mem_insert, h₁.descDma, hdescDma]
        simp
      apply Ends.acquire rfl hfreeDma
      have h₂ : HeldFor c { info₁ with desc := List.replicate (size / descriptorSize).toNat default } held₀
          (insert (.desc c) held₁) := h₁.insert_desc hbuffer rfl rfl
      exact Ends.pure (h₂.insert_descDma rfl hbuffer rfl)

theorem HeldFor.insert_streamState (h : HeldFor c info held₀ held) (hdesc : info'.desc = info.desc)
    (hdescDma : info'.descDma = info.descDma) (hstate : info'.streamInfo.state ≠ none) :
    HeldFor c info' held₀ (insert (.streamState c) held) := by
  refine ⟨?_, ?_, ?_, fun k hk => ?_⟩
  · rw [Finset.mem_insert, hdesc, h.desc]
    simp
  · rw [Finset.mem_insert, hdescDma, h.descDma]
    simp
  · simp [hstate]
  · rw [Finset.mem_insert, h.others k hk]
    exact or_iff_right fun heq => hk (.inr (.inr heq))

theorem HeldFor.erase_streamState (h : HeldFor c info held₀ held) (hdesc : info'.desc = info.desc)
    (hdescDma : info'.descDma = info.descDma) (hstate : info'.streamInfo.state = none) :
    HeldFor c info' held₀ (held.erase (.streamState c)) := by
  refine ⟨?_, ?_, ?_, fun k hk => ?_⟩
  · rw [Finset.mem_erase, hdesc, h.desc]
    simp
  · rw [Finset.mem_erase, hdescDma, h.descDma]
    simp
  · simp [hstate]
  · rw [Finset.mem_erase, h.others k hk]
    exact and_iff_right fun heq => hk (.inr (.inr heq))

theorem initStreamInfo_ends {vmallocOk : Bool} (h : HeldFor c info held₀ held) :
    Ends some held (Ownership.tpceInitStreamInfo vmallocOk c info : Owning ε _) fun r held' =>
      HeldFor c r.2 held₀ held' := by
  simp only [Ownership.tpceInitStreamInfo, Device.tpceInitStreamInfo]
  cases hstate : info.streamInfo.state with
  | none =>
      cases vmallocOk with
      | true =>
          rw [if_pos ⟨rfl, rfl⟩]
          have hfree : .streamState c ∉ held := fun hmem => h.streamState.mp hmem hstate
          apply Ends.acquire rfl hfree
          exact Ends.pure (h.insert_streamState rfl rfl (Option.some_ne_none _))
      | false =>
          rw [if_neg fun hok => Bool.false_ne_true hok.2]
          exact Ends.pure h
  | some state =>
      rw [if_neg fun hnone => Option.some_ne_none _ hnone.1]
      have hlive : info.streamInfo.state ≠ none := fun hnone => Option.some_ne_none _ (hstate.symm.trans hnone)
      exact Ends.pure (h.congr Iff.rfl Iff.rfl (iff_of_false (Option.some_ne_none _) hlive))

theorem freeStreamInfo_ends (h : HeldFor c info held₀ held) :
    Ends some held (Ownership.tpceFreeStreamInfo c info : Owning ε _) fun info' held' =>
      HeldFor c info' held₀ held' := by
  simp only [Ownership.tpceFreeStreamInfo]
  by_cases hzero : (refcountDecAndTest info.streamInfo.stateRefs).2 = true
  · have hstate : (Device.tpceFreeStreamInfo info).streamInfo.state = none := if_pos hzero
    by_cases hlive : info.streamInfo.state = none
    · rw [if_neg fun hboth => hboth.2 hlive]
      exact Ends.pure (h.congr Iff.rfl Iff.rfl (iff_of_true hstate hlive))
    · rw [if_pos ⟨hzero, hlive⟩]
      apply Ends.release rfl (h.streamState.mpr hlive)
      exact Ends.pure (h.erase_streamState rfl rfl hstate)
  · have hstate : (Device.tpceFreeStreamInfo info).streamInfo.state = info.streamInfo.state := if_neg hzero
    rw [if_neg fun hboth => hzero hboth.1]
    exact Ends.pure (h.congr Iff.rfl Iff.rfl (by rw [hstate]))

/-- Nothing behind the allocation changes which buffers there are. -/
theorem prepareDesc_ends {mapInfo : TpceDmaMapInfo} (hbuf : Buffered (fun _ _ => True) info) (hreq : SuppliedSize req)
    (h : HeldFor c info held₀ held) :
    Ends some held (Ownership.prepareDesc env mapInfo req c info) fun r held' => HeldFor c r.2 held₀ held' := by
  have hempty := (DescriptorAccounting.Accounted.ofBuffered hbuf).together
  have halloc : Ends some held (tpceDmaAllocDescriptorsMem env c info (allocSize req) : Owning Fault _)
      fun r held' => HeldFor c r.2 held₀ held' := allocDescriptorsMem_ends hempty (allocSize_toNat hreq).1 h
  apply halloc.erased.bind
  rintro ⟨err₁, buf⟩ held₁ ⟨h₁, herase⟩
  rw [erase_allocDescriptorsMem] at herase
  obtain ⟨hbuf₁, hdone⟩ := allocDescriptorsMem_buffered (Except.ok.inj herase) hbuf True.intro (allocSize_toNat hreq).1
    fun _ _ => True.intro
  apply Ends.ite
  · exact fun _ => Ends.pure h₁
  intro hok
  obtain ⟨hsize, hfits, hne⟩ := hdone (not_not.mp hok)
  apply Ends.lift
  rintro ⟨err, out⟩ hrun
  obtain ⟨⟨err₂, filled⟩, hfill, hrun⟩ := bind_eq_ok.mp hrun
  obtain ⟨hsame, -⟩ := filled_sized hbuf₁ hsize hfits hne hreq hfill
  have hstream : filled.streamInfo = buf.streamInfo := by
    split at hfill
    · exact (takeUserDesc_spec (Except.ok.inj hfill)).1.1.streamInfo
    · exact (generateDesc_spec hfill).1.1.streamInfo
  dsimp only at hrun
  split at hrun
  · cases hrun
    exact h₁.same hsame hstream
  obtain ⟨copied, hcopy, hrun⟩ := bind_eq_ok.mp hrun
  cases hrun
  have hcopied := (copyToDma_spec hcopy).1.1.streamInfo
  exact (h₁.same hsame hstream).same (copyToDma_buffers hcopy (hbuf₁.congr hsame)).1 hcopied

theorem initDmaInfo_ends (hbuf : Buffered (fun _ _ => True) (dev.dmaInfo c)) (hreq : SuppliedSize req)
    (h : HeldFor c (dev.dmaInfo c) held₀ held) :
    Ends some held (Ownership.initDmaInfo env dev c req) fun r held' => HeldFor c (r.2.dmaInfo c) held₀ held' := by
  simp only [Ownership.initDmaInfo]
  cases dev.dmaMappings req.id with
  | none => exact Ends.pure h
  | some obj =>
      apply Ends.lift_bind
      intro mapInfo _
      apply (prepareDesc_ends hbuf hreq h).bind
      rintro ⟨err₁, prep⟩ held₁ h₁
      apply Ends.ite
      · intro _
        apply Ends.pure
        rw [setInfo_dmaInfo]
        exact h₁
      intro _
      have hstream : Ends some held₁
          (if req.params.transferMode = tpceDmaModeStream then Ownership.tpceInitStreamInfo env.vmallocOk c prep
            else pure (0, prep) : Owning Fault _) fun r held' => HeldFor c r.2 held₀ held' :=
        Ends.ite (fun _ => initStreamInfo_ends h₁) fun _ => Ends.pure h₁
      apply hstream.bind
      rintro ⟨err₂, info₂⟩ held₂ h₂
      apply Ends.ite
      · intro _
        apply Ends.pure
        rw [setInfo_dmaInfo]
        exact h₂
      · intro _
        apply Ends.pure
        have hinfo := setInfo_dmaInfo dev c (initializedInfo info₂ req obj)
        change HeldFor c ((dev.setInfo c (initializedInfo info₂ req obj)).dmaInfo c) held₀ held₂
        rw [hinfo]
        exact h₂.congr Iff.rfl Iff.rfl Iff.rfl

theorem abort_info (dev : TpceDev) (c : Channel) : (tpceDmaAbort dev c).dmaInfo c =
    { dev.dmaInfo c with state := abortedState (dev.dmaInfo c).state } := by
  rw [abort_eq, setInfo_dmaInfo]

theorem releaseMapInfo_info {dev₁ : TpceDev} (h : releaseMapInfo dev c = .ok dev₁) :
    dev₁.dmaInfo c = { dev.dmaInfo c with mapInfo := none } := by
  simp only [releaseMapInfo] at h
  split at h
  · rename_i hnone
    cases h
    rw [← hnone]
  · rename_i obj _
    obtain ⟨m, -, h⟩ := bind_eq_ok.mp h
    cases h
    exact setInfo_dmaInfo ..

theorem resetDmaInfo_ends (h : HeldFor c (dev.dmaInfo c) held₀ held) :
    Ends some held (Ownership.resetDmaInfo dev c) fun dev' held' => HeldFor c (dev'.dmaInfo c) held₀ held' := by
  apply Ends.ite
  · exact fun _ => Ends.pure h
  intro _
  apply Ends.lift_bind
  intro dev₁ hrel
  have h₁ : HeldFor c (dev₁.dmaInfo c) held₀ held := by
    rw [releaseMapInfo_info hrel]
    dsimp only
    split
    · rw [abort_info]
      exact h.congr Iff.rfl Iff.rfl Iff.rfl
    · exact h.congr Iff.rfl Iff.rfl Iff.rfl
  have hfreed : Ends some held
      (if (dev₁.dmaInfo c).params.transferMode = tpceDmaModeStream then Ownership.tpceFreeStreamInfo c (dev₁.dmaInfo c)
        else pure (dev₁.dmaInfo c) : Owning Fault _) fun info held' => HeldFor c info held₀ held' :=
    Ends.ite (fun _ => freeStreamInfo_ends h₁) fun _ => Ends.pure h₁
  apply hfreed.bind
  intro info₂ held₂ h₂
  apply Ends.pure
  rw [setInfo_dmaInfo]
  exact h₂.congr Iff.rfl Iff.rfl Iff.rfl

theorem dispatch_held (h : HeldFor c (dev.dmaInfo c) held₀ held) (env : InitEnv) :
    HeldFor c ((dmaDispatch env dev c).2.dmaInfo c) held₀ held := by
  have hsame := dispatch_buffers env dev c
  obtain ⟨_, _, _, hinfo, -⟩ := ChannelSteps.dmaDispatch_info env dev c
  exact h.same hsame (by rw [hinfo])

theorem dmaExecute_ends (hbuf : Buffered (fun _ _ => True) (dev.dmaInfo c)) (hreq : SuppliedSize req)
    (hc : c.val = req.params.channel.toNat) (h : HeldFor c (dev.dmaInfo c) held₀ held) :
    Ends some held (Ownership.dmaExecute env dev req) fun r held' => HeldFor c (r.2.dmaInfo c) held₀ held' := by
  have hlt : req.params.channel.toNat < 3 := hc ▸ c.isLt
  obtain rfl : c = ⟨req.params.channel.toNat, hlt⟩ := Fin.ext hc
  simp only [Ownership.dmaExecute]
  rw [dif_pos hlt]
  apply (initDmaInfo_ends hbuf hreq h).bind
  rintro ⟨err, dev₁⟩ held₁ h₁
  apply Ends.ite
  · exact fun _ => Ends.pure h₁
  intro _
  apply Ends.lift_bind
  rintro ⟨err, dev₂⟩ hdispatch
  have hdriver := (PageTableFaults.dmaDispatch_curtails env dev₁ _).returns hdispatch
  have h₂ := dispatch_held h₁ env
  rw [Except.ok.inj hdriver] at h₂
  apply Ends.ite
  · intro _
    apply (resetDmaInfo_ends h₂).bind
    exact fun dev₃ held₃ h₃ => Ends.pure h₃
  intro _
  apply Ends.ite
  · exact fun _ => Ends.pure h₂
  · exact fun _ => Ends.pure h₂

/-- Neither a mapping nor anything of a channel -/
def Elsewhere : Item → Prop
  | .mapping _ _ | .desc _ | .descDma _ | .streamState _ => False
  | _ => True

/-- What is held is what the driver's data refer to, and what is `beside` them. -/
structure Holds (beside : Item → Prop) (dev : TpceDev) (held : Finset Item) : Prop where
  channel : ∀ c, HeldFor c (dev.dmaInfo c) held held
  mapping : ∀ obj part, .mapping obj part ∈ held ↔
    (∃ m, dev.mapInfos obj = some m ∧ part ∈ mapParts m) ∨ beside (.mapping obj part)
  elsewhere : ∀ k, Elsewhere k → (k ∈ held ↔ beside k)
  gone : ∀ obj part, beside (.mapping obj part) → obj < dev.nextObj ∧ dev.mapInfos obj = none

/-- The mappings are the same but for their marks, and may be fewer. -/
structure FewerMaps (dev dev' : TpceDev) : Prop where
  old : ∀ obj m', dev'.mapInfos obj = some m' → ∃ m, dev.mapInfos obj = some m ∧ unmarked m = unmarked m'
  next : dev'.nextObj = dev.nextObj

structure SameMaps (dev dev' : TpceDev) : Prop where
  infos : ∀ obj, (dev'.mapInfos obj).map unmarked = (dev.mapInfos obj).map unmarked
  next : dev'.nextObj = dev.nextObj

theorem FewerMaps.trans {dev₁ : TpceDev} (h : FewerMaps dev dev₁) (h' : FewerMaps dev₁ dev') : FewerMaps dev dev' := by
  refine ⟨fun obj m' hm' => ?_, h'.next.trans h.next⟩
  obtain ⟨m₁, hm₁, heq'⟩ := h'.old obj m' hm'
  obtain ⟨m, hm, heq⟩ := h.old obj m₁ hm₁
  exact ⟨m, hm, heq.trans heq'⟩

theorem SameMaps.trans {dev₁ : TpceDev} (h : SameMaps dev dev₁) (h' : SameMaps dev₁ dev') : SameMaps dev dev' :=
  ⟨fun obj => (h'.infos obj).trans (h.infos obj), h'.next.trans h.next⟩

theorem SameMaps.symm (h : SameMaps dev dev') : SameMaps dev' dev := ⟨fun obj => (h.infos obj).symm, h.next.symm⟩

theorem SameMaps.fewer (h : SameMaps dev dev') : FewerMaps dev dev' := by
  refine ⟨fun obj m' hm' => ?_, h.next⟩
  have hinfos := h.infos obj
  rw [hm'] at hinfos
  exact Option.map_eq_some_iff.mp hinfos.symm

theorem SameMaps.of_eq (hinfos : dev'.mapInfos = dev.mapInfos) (hnext : dev'.nextObj = dev.nextObj) :
    SameMaps dev dev' := ⟨fun obj => by rw [hinfos], hnext⟩

theorem SameMaps.ofRecords (h : SameRecords (maps dev) (maps dev')) : SameMaps dev dev' := ⟨h.infos, h.next⟩

theorem mapParts_unmarked {m' : TpceDmaMapInfo} (h : unmarked m = unmarked m') : mapParts m = mapParts m' :=
  show mapParts (unmarked m) = mapParts (unmarked m') from congrArg mapParts h

theorem SameMaps.parts (h : SameMaps dev dev') {part : MapPart} :
    (∃ m, dev'.mapInfos obj = some m ∧ part ∈ mapParts m) ↔ ∃ m, dev.mapInfos obj = some m ∧ part ∈ mapParts m := by
  constructor
  · rintro ⟨m', hm', hpart⟩
    obtain ⟨m, hm, heq⟩ := h.fewer.old obj m' hm'
    exact ⟨m, hm, mapParts_unmarked heq ▸ hpart⟩
  · rintro ⟨m, hm, hpart⟩
    obtain ⟨m', hm', heq⟩ := h.symm.fewer.old obj m hm
    exact ⟨m', hm', mapParts_unmarked heq ▸ hpart⟩

theorem SameMaps.none (h : SameMaps dev dev') (hnone : dev.mapInfos obj = none) : dev'.mapInfos obj = none := by
  have hinfos := h.infos obj
  rw [hnone] at hinfos
  exact Option.map_eq_none_iff.mp hinfos

theorem HeldFor.elsewhere {held₁ : Finset Item} {c' : Channel} (h : HeldFor c' info held held)
    (hothers : ∀ k, ¬OfChannel c k → (k ∈ held₁ ↔ k ∈ held)) (hc : c' ≠ c) : HeldFor c' info held₁ held₁ := by
  have hfree : ∀ k, OfChannel c' k → ¬OfChannel c k := by
    rintro k (rfl | rfl | rfl)
    · simp [OfChannel, hc]
    · simp [OfChannel, hc]
    · simp [OfChannel, hc]
  refine ⟨?_, ?_, ?_, fun _ _ => Iff.rfl⟩
  · rw [hothers _ (hfree _ (.inl rfl))]
    exact h.desc
  · rw [hothers _ (hfree _ (.inr (.inl rfl)))]
    exact h.descDma
  · rw [hothers _ (hfree _ (.inr (.inr rfl)))]
    exact h.streamState

/-- What happens on one channel, and to the marks, leaves the rest as it is. -/
theorem Holds.onChannel {held₁ : Finset Item} (h : Holds beside dev held) (hc : HeldFor c (dev'.dmaInfo c) held held₁)
    (hothers : ∀ c', c' ≠ c → dev'.dmaInfo c' = dev.dmaInfo c') (hmaps : SameMaps dev dev') :
    Holds beside dev' held₁ := by
  refine ⟨fun c' => ?_, fun obj part => ?_, fun k hk => ?_, fun obj part hpart => ?_⟩
  · by_cases heq : c' = c
    · subst heq
      exact ⟨hc.desc, hc.descDma, hc.streamState, fun _ _ => Iff.rfl⟩
    · rw [hothers c' heq]
      exact (h.channel c').elsewhere hc.others heq
  · rw [hc.others _ (by simp [OfChannel]), h.mapping, hmaps.parts]
  · have hfree : ¬OfChannel c k := by
      rintro (rfl | rfl | rfl)
      · exact hk
      · exact hk
      · exact hk
    rw [hc.others k hfree]
    exact h.elsewhere k hk
  · obtain ⟨hlt, hnone⟩ := h.gone obj part hpart
    exact ⟨hmaps.next ▸ hlt, hmaps.none hnone⟩

theorem Holds.congr (h : Holds beside dev held) (hinfo : dev'.dmaInfo = dev.dmaInfo) (hmaps : SameMaps dev dev') :
    Holds beside dev' held := by
  apply h.onChannel (c := 0) _ (fun c' _ => by rw [hinfo]) hmaps
  rw [hinfo]
  exact h.channel 0

theorem Holds.setInfo (h : Holds beside dev held) {held₁ : Finset Item} (hc : HeldFor c info held held₁) :
    Holds beside (dev.setInfo c info) held₁ := by
  apply h.onChannel _ (fun c' hne => setInfo_dmaInfo_ne dev info hne) (.of_eq rfl rfl)
  rw [setInfo_dmaInfo]
  exact hc

theorem Holds.abort (h : Holds beside dev held) (c : Channel) : Holds beside (tpceDmaAbort dev c) held := by
  have hmaps : SameMaps dev (tpceDmaAbort dev c) := by
    rw [abort_eq]
    exact .of_eq rfl rfl
  apply h.onChannel (c := c) _ (abort_frame dev c).1 hmaps
  rw [abort_info]
  exact (h.channel c).congr Iff.rfl Iff.rfl Iff.rfl

theorem reset_sameMaps (h : ChannelControl.resetDmaInfo dev c = .ok dev') : SameMaps dev dev' := by
  rcases resetDmaInfo_spec h with ⟨-, rfl⟩ | ⟨-, -, rfl⟩
  · exact .of_eq rfl rfl
  · exact ⟨(@sameRecords_reset (maps dev) c).infos, rfl⟩

theorem resetDmaInfo_holds (h : Holds beside dev held) (c : Channel) :
    Ends some held (Ownership.resetDmaInfo dev c) fun dev' held' => Holds beside dev' held' ∧ SameMaps dev dev' := by
  apply (resetDmaInfo_ends (h.channel c)).erased.mono
  rintro dev' held' ⟨hheld, herase⟩
  rw [erase_resetDmaInfo] at herase
  have hsame := reset_sameMaps herase
  exact ⟨h.onChannel hheld (resetDmaInfo_frame herase).2.1 hsame, hsame⟩

/-- The parts of a mapping are given back where it leaves the data. -/
theorem releaseParts_holds (h : Holds beside dev held) (hm : dev.mapInfos obj = some m)
    (hinfos : dev'.mapInfos = Function.update dev.mapInfos obj none) (hnext : dev'.nextObj = dev.nextObj)
    (hchannels : dev'.dmaInfo = dev.dmaInfo) :
    Ends some held (releaseParts obj (mapParts m) : Owning ε Unit) fun _ held' => Holds beside dev' held' := by
  have hrelease : heldAfter held (((mapParts m).map fun part => Access.release (.mapping obj part)).filterMap some) =
      some (held \ ((mapParts m).map (Item.mapping obj)).toFinset) := by
    rw [List.filterMap_some, ← heldAfter_releases (nodup_mapping (nodup_mapParts m) obj), List.map_map]
    · rfl
    · intro k hk
      obtain ⟨part, hpart, rfl⟩ := List.mem_map.mp hk
      exact (h.mapping obj part).mpr (.inl ⟨m, hm, hpart⟩)
  have hmem : ∀ k, k ∈ held \ ((mapParts m).map (Item.mapping obj)).toFinset ↔
      k ∈ held ∧ ∀ part ∈ mapParts m, k ≠ .mapping obj part := by
    intro k
    rw [Finset.mem_sdiff, List.mem_toFinset, List.mem_map]
    refine and_congr_right fun _ => ⟨fun hk part hpart heq => hk ⟨part, hpart, heq.symm⟩, ?_⟩
    rintro hk ⟨part, hpart, rfl⟩
    exact hk part hpart rfl
  have hother : ∀ k, (∀ part, k ≠ .mapping obj part) →
      (k ∈ held \ ((mapParts m).map (Item.mapping obj)).toFinset ↔ k ∈ held) := fun k hk =>
    (hmem k).trans (and_iff_left fun part _ => hk part)
  apply Ends.emitted hrelease
  refine ⟨fun c => ?_, fun obj' part => ?_, fun k hk => ?_, fun obj' part hpart => ?_⟩
  · have hc := h.channel c
    rw [hchannels]
    refine ⟨?_, ?_, ?_, fun _ _ => Iff.rfl⟩
    · rw [hother _ (by simp)]
      exact hc.desc
    · rw [hother _ (by simp)]
      exact hc.descDma
    · rw [hother _ (by simp)]
      exact hc.streamState
  · by_cases heq : obj' = obj
    · subst heq
      have hlive : ¬beside (.mapping obj' part) := fun hpart =>
        Option.some_ne_none m (hm.symm.trans (h.gone obj' part hpart).2)
      rw [hmem, h.mapping, hinfos, Function.update_self]
      constructor
      · rintro ⟨⟨m', hm', hpart⟩ | hpart, hkept⟩
        · obtain rfl := Option.some.inj (hm.symm.trans hm')
          exact absurd rfl (hkept part hpart)
        · exact absurd hpart hlive
      · rintro (⟨m', hm', -⟩ | hpart)
        · cases hm'
        · exact absurd hpart hlive
    · rw [hother _ (by simp [heq]), h.mapping, hinfos, Function.update_of_ne heq]
  · have hne : ∀ part, k ≠ .mapping obj part := by
      rintro part rfl
      exact hk
    rw [hother k hne]
    exact h.elsewhere k hk
  · obtain ⟨hlt, hnone⟩ := h.gone obj' part hpart
    refine ⟨hnext ▸ hlt, ?_⟩
    rw [hinfos]
    by_cases heq : obj' = obj
    · rw [heq, Function.update_self]
    · rw [Function.update_of_ne heq]
      exact hnone

theorem fewer_unlock (h : Requests.tpceDmaUnlockUserBuffer dev obj = .ok dev') : FewerMaps dev dev' := by
  obtain ⟨m, -, rfl⟩ := unlockUserBuffer_spec h
  refine ⟨fun obj' m' hm' => ?_, rfl⟩
  by_cases heq : obj' = obj
  · subst heq
    simp at hm'
  · exact ⟨m', (Function.update_of_ne heq ..).symm.trans hm', rfl⟩

/-- What is given back is what belongs to the mapping, if it is of that kind. -/
theorem unlocked_holds {parts : List MapPart} (h : Holds beside dev held) (hm : dev.mapInfos obj = some m)
    (hparts : parts = mapParts m) :
    Ends some held (do releaseParts obj parts; lift (Requests.tpceDmaUnlockUserBuffer dev obj) : Owning Fault TpceDev)
      fun dev' held' => Holds beside dev' held' ∧ FewerMaps dev dev' := by
  subst hparts
  have hreleased : Ends some held (releaseParts obj (mapParts m) : Owning Fault Unit) fun _ held' =>
      ∀ dev', Requests.tpceDmaUnlockUserBuffer dev obj = .ok dev' → Holds beside dev' held' := by
    intro a t ht
    have hends : Ends some held (releaseParts obj (mapParts m) : Owning Fault Unit) fun _ held' =>
        Holds beside { dev with
          dmaMappings := Function.update dev.dmaMappings m.id none
          mapInfos := Function.update dev.mapInfos obj none
          unmappedInUse := dev.unmappedInUse || inUse dev obj } held' := releaseParts_holds h hm rfl rfl rfl
    obtain ⟨held', hheld, hholds⟩ := hends a t ht
    refine ⟨held', hheld, fun dev' hunlock => ?_⟩
    obtain ⟨m', hm', rfl⟩ := unlockUserBuffer_spec hunlock
    obtain rfl := Option.some.inj (hm.symm.trans hm')
    exact hholds
  apply hreleased.bind
  intro _ held' hholds
  apply Ends.lift
  exact fun dev' hunlock => ⟨hholds dev' hunlock, fewer_unlock hunlock⟩

theorem unlockUserBuffer_holds (h : Holds beside dev held) (hm : dev.mapInfos obj = some m) (howner : m.owner ≠ none) :
    Ends some held (Resources.tpceDmaUnlockUserBuffer dev obj) fun dev' held' =>
      Holds beside dev' held' ∧ FewerMaps dev dev' := by
  apply Ends.lift_bind
  intro m' hm'
  obtain rfl := Option.some.inj (hm.symm.trans (mapInfo_eq_ok.mp hm'))
  apply unlocked_holds h hm
  rw [mapParts, isDriverBuf, if_neg (by rw [Option.isNone_iff_eq_none]; exact howner)]

theorem safeDmaUnmap_holds (h : Holds beside dev held)
    (howned : ∀ m, dev.mapInfos obj = some m → m.owner ≠ none) :
    Ends some held (Ownership.tpceSafeDmaUnmap dev obj) fun dev' held' =>
      Holds beside dev' held' ∧ FewerMaps dev dev' := by
  apply Ends.lift_bind
  intro m hm
  have hm := mapInfo_eq_ok.mp hm
  have hreset : Ends some held
      (if mappingIsBusy m then do
          let c ← lift (channelOf m.activeChannel)
          Ownership.resetDmaInfo (tpceDmaAbort dev c) c
        else pure dev : Owning Fault TpceDev) fun dev₁ held₁ => Holds beside dev₁ held₁ ∧ SameMaps dev dev₁ := by
    apply Ends.ite
    · intro _
      apply Ends.lift_bind
      intro c _
      apply (resetDmaInfo_holds (h.abort c) c).mono
      rintro dev₁ held₁ ⟨hholds, hsame⟩
      have habort : SameMaps dev (tpceDmaAbort dev c) := by
        rw [abort_eq]
        exact .of_eq rfl rfl
      exact ⟨hholds, habort.trans hsame⟩
    · exact fun _ => Ends.pure ⟨h, .of_eq rfl rfl⟩
  apply hreset.bind
  rintro dev₁ held₁ ⟨hholds, hsame⟩
  obtain ⟨m₁, hm₁, heq⟩ := hsame.symm.fewer.old obj m hm
  have howner : m₁.owner ≠ none := unmarked_owner heq ▸ howned m hm
  apply (unlockUserBuffer_holds hholds hm₁ howner).mono
  exact fun dev' held' hend => ⟨hend.1, hsame.fewer.trans hend.2⟩

theorem listDel_holds (h : Holds beside dev held) (file obj : ℕ) : Holds beside (listDel dev file obj) held :=
  h.congr rfl (.of_eq rfl rfl)

theorem releaseMappings_holds (h : Holds beside dev held) {objs : List ℕ}
    (howned : ∀ obj ∈ objs, ∀ m, dev.mapInfos obj = some m → m.owner ≠ none) :
    Ends some held (Ownership.releaseMappings file dev objs) fun dev' held' => Holds beside dev' held' := by
  induction objs generalizing dev held with
  | nil => exact Ends.pure h
  | cons obj objs ih =>
      have hfirst : ∀ m, (listDel dev file obj).mapInfos obj = some m → m.owner ≠ none :=
        howned obj List.mem_cons_self
      apply (safeDmaUnmap_holds (listDel_holds h file obj) hfirst).bind
      rintro dev₁ held₁ ⟨hholds, hfewer⟩
      apply ih hholds
      intro obj' hobj' m₁ hm₁
      obtain ⟨m, hm, heq⟩ := hfewer.old obj' m₁ hm₁
      exact unmarked_owner heq ▸ howned obj' (List.mem_cons_of_mem _ hobj') m hm

theorem mem_userParts {part : MapPart} : part ∈ userParts m ↔ ∃ r ∈ acquired (pinsOf m), part = .locked r := by
  simp only [userParts, acquired, pinnedPages, List.mem_append, List.mem_cons, List.mem_map, Finset.mem_insert,
    List.mem_toFinset, List.not_mem_nil]
  grind

theorem locked_not_negative {lockEnv : LockEnv} {bufferInfo : TpceDmaBufIn}
    (h : Requests.tpceDmaLockUserBuffer lockEnv dev bufferInfo = (.ptr obj, dev')) : ¬lockEnv.pagesPinned < 0 := by
  intro hneg
  simp only [Requests.tpceDmaLockUserBuffer] at h
  rw [if_pos hneg] at h
  split at h
  · cases h
  split at h
  · cases h
  · cases h

theorem Holds.gain {held₁ : Finset Item} (h : Holds beside dev held) (hfresh : dev.mapInfos dev.nextObj = none)
    (hinfos : dev'.mapInfos = Function.update dev.mapInfos dev.nextObj (some m))
    (hnext : dev'.nextObj = dev.nextObj + 1) (hchannels : dev'.dmaInfo = dev.dmaInfo)
    (hmem : ∀ k, k ∈ held₁ ↔ k ∈ held ∨ ∃ part ∈ mapParts m, k = .mapping dev.nextObj part) :
    Holds beside dev' held₁ := by
  have hother : ∀ k, (∀ part, k ≠ .mapping dev.nextObj part) → (k ∈ held₁ ↔ k ∈ held) := by
    intro k hk
    rw [hmem]
    exact or_iff_left fun ⟨part, _, heq⟩ => hk part heq
  refine ⟨fun c => ?_, fun obj part => ?_, fun k hk => ?_, fun obj part hpart => ?_⟩
  · have hc := h.channel c
    rw [hchannels]
    refine ⟨?_, ?_, ?_, fun _ _ => Iff.rfl⟩
    · rw [hother _ (by simp)]
      exact hc.desc
    · rw [hother _ (by simp)]
      exact hc.descDma
    · rw [hother _ (by simp)]
      exact hc.streamState
  · by_cases hobj : obj = dev.nextObj
    · subst hobj
      have hold : ¬beside (.mapping dev.nextObj part) := fun hpart => Nat.lt_irrefl _ (h.gone _ _ hpart).1
      rw [hmem, h.mapping, hfresh, hinfos, Function.update_self]
      simp [hold]
    · rw [hother _ (by simp [hobj]), h.mapping, hinfos, Function.update_of_ne hobj]
  · have hne : ∀ part, k ≠ .mapping dev.nextObj part := by
      rintro part rfl
      exact hk
    rw [hother k hne]
    exact h.elsewhere k hk
  · obtain ⟨hlt, hnone⟩ := h.gone obj part hpart
    rw [hinfos, hnext, Function.update_of_ne (Nat.ne_of_lt hlt)]
    exact ⟨Nat.lt_succ_of_lt hlt, hnone⟩

/-- A buffer that is locked brings exactly the parts of its mapping. -/
theorem lockBuffer_holds {lockEnv : LockEnv} {bufferInfo : TpceDmaBufIn} (h : Holds beside dev held)
    (hkernel : KernelResults lockEnv bufferInfo) (hfresh : dev.mapInfos dev.nextObj = none) :
    Ends some held (Ownership.iocLockDmaBuffer lockEnv dev file bufferInfo) fun r held' => Holds beside r.2 held' := by
  have hinj : Function.Injective fun r => Item.mapping dev.nextObj (.locked r) := fun r r' heq =>
    MapPart.locked.inj (Item.mapping.inj heq).2
  have hfree : ∀ r, Item.mapping dev.nextObj (.locked r) ∉ held := by
    intro r hmem
    rcases (h.mapping _ _).mp hmem with ⟨m, hm, -⟩ | hpart
    · exact Option.some_ne_none m (hm.symm.trans hfresh)
    · exact Nat.lt_irrefl _ (h.gone _ _ hpart).1
  have hends : Ends some ∅ (LockUserBuffer.tpceDmaLockUserBuffer lockEnv dev bufferInfo) _ :=
    lockUserBuffer_ends hkernel
  have hlock := (Ends.retag hinj hfree hends).erased
  rw [Finset.image_empty, Finset.union_empty] at hlock
  apply hlock.bind
  rintro ⟨ptr, dev₁⟩ _ ⟨⟨own, rfl, hfin⟩, herase⟩
  rw [erase_retag, erase_lockUserBuffer] at herase
  have hrun := Except.ok.inj herase
  cases ptr with
  | err e =>
      obtain ⟨-, hdev, rfl⟩ := hfin
      rw [Finset.image_empty, Finset.union_empty]
      apply Ends.pure
      rw [show dev₁ = dev from hdev]
      exact h
  | null => exact Ends.lift fun _ hnever => by cases hnever
  | ptr obj =>
      obtain ⟨-, rfl⟩ := hfin
      obtain ⟨-, hno⟩ | ⟨id, -, hobj, rfl⟩ := lockUserBuffer_cases hrun
      · exact absurd rfl (hno obj)
      obtain rfl := MapPtr.ptr.inj hobj
      apply Ends.lift_bind
      intro m hm
      have hval : m = lockedMapInfo lockEnv dev bufferInfo id :=
        Option.some.inj ((mapInfo_eq_ok.mp hm).symm.trans (Function.update_self ..))
      subst hval
      have hpins : pinsOf { lockedMapInfo lockEnv dev bufferInfo id with owner := some file } =
          bufferPins lockEnv bufferInfo := by
        have hcount := hkernel.recorded (locked_not_negative hrun)
        rw [pinsOf, bufferPins, ← hcount]
        rfl
      apply Ends.pure
      refine h.gain (m := { lockedMapInfo lockEnv dev bufferInfo id with owner := some file }) hfresh
        (Function.update_idem ..) rfl rfl fun k => ?_
      rw [Finset.mem_union, Finset.mem_image]
      refine or_congr_right ?_
      constructor
      · rintro ⟨r, hr, rfl⟩
        exact ⟨.locked r, mem_userParts.mpr ⟨r, hpins ▸ hr, rfl⟩, rfl⟩
      · rintro ⟨part, hpart, rfl⟩
        obtain ⟨r, hr, rfl⟩ := mem_userParts.mp hpart
        exact ⟨r, hpins ▸ hr, rfl⟩

theorem mmapStreamInfo_ends {vmallocOk : Bool} (h : HeldFor c info held₀ held) :
    Ends some held (Ownership.mmapStreamInfo vmallocOk c info : Owning ε _) fun r held' => HeldFor c r.2 held₀ held' := by
  simp only [Ownership.mmapStreamInfo]
  cases hstate : info.streamInfo.state with
  | none => exact initStreamInfo_ends h
  | some state => exact Ends.pure (h.congr Iff.rfl Iff.rfl Iff.rfl)

theorem mmap_holds {mmapEnv : MmapEnv} (h : Holds beside dev held) :
    Ends some held (Ownership.tpceMmap mmapEnv dev c : Owning ε _) fun r held' => Holds beside r.2 held' := by
  have hsame : ∀ {info : TpceDmaInfo} {held₁ : Finset Item}, HeldFor c info held held₁ →
      Holds beside (dev.setInfo c info) held₁ := fun hheld => h.setInfo hheld
  apply Ends.ite
  · exact fun _ => Ends.pure h
  intro _
  apply Ends.ite
  · exact fun _ => Ends.pure (h.congr rfl (.of_eq rfl rfl))
  intro _
  apply (mmapStreamInfo_ends (h.channel c)).bind
  rintro ⟨err, info₁⟩ held₁ h₁
  apply Ends.ite
  · exact fun _ => Ends.pure ((hsame h₁).congr rfl (.of_eq rfl rfl))
  intro _
  apply Ends.ite
  · intro _
    apply (freeStreamInfo_ends h₁).bind
    exact fun info₂ held₂ h₂ => Ends.pure (hsame h₂)
  · exact fun _ => Ends.pure ((hsame h₁).congr rfl (.of_eq rfl rfl))

theorem vmaClose_holds (h : Holds beside dev held) :
    Ends some held (Ownership.vmaStreamInfoClose dev c : Owning ε _) fun dev' held' => Holds beside dev' held' := by
  apply (freeStreamInfo_ends (h.channel c)).bind
  exact fun info₁ held₁ h₁ => Ends.pure ((h.setInfo h₁).congr rfl (.of_eq rfl rfl))

theorem resetChannels_holds (h : Holds beside dev held) (cs : List Channel) :
    Ends some held (Ownership.resetChannels dev cs) fun dev' held' => Holds beside dev' held' ∧ SameMaps dev dev' := by
  induction cs generalizing dev held with
  | nil => exact Ends.pure ⟨h, .of_eq rfl rfl⟩
  | cons c cs ih =>
      apply (resetDmaInfo_holds h c).bind
      rintro dev₁ held₁ ⟨h₁, hsame⟩
      exact (ih h₁).mono fun dev' held' hend => ⟨hend.1, hsame.trans hend.2⟩

theorem freeDescriptors_holds (h : Holds beside dev held) (cs : List Channel) :
    Ends some held (Ownership.freeDescriptors dev cs : Owning ε _) fun dev' held' =>
      Holds beside dev' held' ∧ SameMaps dev dev' := by
  induction cs generalizing dev held with
  | nil => exact Ends.pure ⟨h, .of_eq rfl rfl⟩
  | cons c cs ih =>
      obtain ⟨dev₁, hdev₁⟩ : ∃ dev₁, dev₁ = if (dev.dmaInfo c).state = .running then tpceDmaAbort dev c else dev :=
        ⟨_, rfl⟩
      have hsame : SameMaps dev dev₁ := by
        rw [hdev₁]
        split
        · rw [abort_eq]
          exact .of_eq rfl rfl
        · exact .of_eq rfl rfl
      have h₁ : Holds beside dev₁ held := by
        rw [hdev₁]
        split
        · exact h.abort c
        · exact h
      have hfree : Ends some held (Ownership.tpceDmaFreeDescriptorsMem dev c : Owning ε _) fun dev' held' =>
          Holds beside dev' held' ∧ SameMaps dev dev' := by
        simp only [Ownership.tpceDmaFreeDescriptorsMem, ← hdev₁]
        apply (freeBuffers_ends (h₁.channel c)).bind
        exact fun _ held₂ h₂ => Ends.pure ⟨h₁.setInfo h₂, hsame.trans (.of_eq rfl rfl)⟩
      apply hfree.bind
      rintro dev₂ held₂ ⟨h₂, hsame₂⟩
      exact (ih h₂).mono fun dev' held' hend => ⟨hend.1, hsame₂.trans hend.2⟩

/-- A mapping that `tpce_dma_free_mapping` takes neither for a user buffer nor for a
driver buffer -/
def OfNeitherKind (m : TpceDmaMapInfo) : Prop := m.bufUsr = false ∧ m.owner ≠ none

/-- What is left behind, or will be if the mapping is still there when the driver goes -/
def Left (beside : Item → Prop) (dev : TpceDev) (k : Item) : Prop :=
  beside k ∨ ∃ obj m part, k = .mapping obj part ∧ dev.mapInfos obj = some m ∧ OfNeitherKind m ∧ part ∈ mapParts m

/-- Without an owner there is no user buffer, and every structure was made before the
next one. -/
def Kinds (dev : TpceDev) : Prop :=
  ∀ obj m, dev.mapInfos obj = some m → (m.owner = none → m.bufUsr = false) ∧ obj < dev.nextObj

theorem ofNeitherKind_unmarked {m' : TpceDmaMapInfo} (h : unmarked m = unmarked m') :
    OfNeitherKind m ↔ OfNeitherKind m' :=
  show OfNeitherKind (unmarked m) ↔ OfNeitherKind (unmarked m') by rw [h]

theorem SameMaps.left (h : SameMaps dev dev') (k : Item) : Left beside dev' k ↔ Left beside dev k := by
  have hdir : ∀ {dev₁ dev₂ : TpceDev}, SameMaps dev₁ dev₂ → Left beside dev₂ k → Left beside dev₁ k := by
    rintro dev₁ dev₂ hsame (hb | ⟨obj, m₂, part, rfl, hm₂, hkind, hpart⟩)
    · exact .inl hb
    · obtain ⟨m₁, hm₁, heq⟩ := hsame.fewer.old obj m₂ hm₂
      exact .inr ⟨obj, m₁, part, rfl, hm₁, (ofNeitherKind_unmarked heq).mpr hkind, mapParts_unmarked heq ▸ hpart⟩
  exact ⟨hdir h, hdir h.symm⟩

theorem Kinds.fewer (h : Kinds dev) (hfewer : FewerMaps dev dev') : Kinds dev' := by
  intro obj m' hm'
  obtain ⟨m, hm, heq⟩ := hfewer.old obj m' hm'
  obtain ⟨hkind, hlt⟩ := h obj m hm
  have husr : m.bufUsr = m'.bufUsr :=
    show (unmarked m).bufUsr = (unmarked m').bufUsr from congrArg TpceDmaMapInfo.bufUsr heq
  exact ⟨fun hnone => husr ▸ hkind ((unmarked_owner heq).trans hnone), hfewer.next ▸ hlt⟩

theorem left_unlocked (hm : dev.mapInfos obj = some m) (hkind : ¬OfNeitherKind m)
    (h : Requests.tpceDmaUnlockUserBuffer dev obj = .ok dev') (k : Item) : Left beside dev' k ↔ Left beside dev k := by
  obtain ⟨m₀, hm₀, rfl⟩ := unlockUserBuffer_spec h
  refine or_congr_right ⟨?_, ?_⟩
  · rintro ⟨obj', m', part, rfl, hm', hrest⟩
    by_cases heq : obj' = obj
    · subst heq
      simp at hm'
    · exact ⟨obj', m', part, rfl, (Function.update_of_ne heq ..).symm.trans hm', hrest⟩
  · rintro ⟨obj', m', part, rfl, hm', hneither, hpart⟩
    have heq : obj' ≠ obj := by
      rintro rfl
      exact hkind (Option.some.inj (hm'.symm.trans hm) ▸ hneither)
    exact ⟨obj', m', part, rfl, (Function.update_of_ne heq ..).trans hm', hneither, hpart⟩

/-- A mapping of neither kind is what the driver leaves behind. -/
theorem freeMapping_holds (h : Holds beside dev held) (hkinds : Kinds dev) (hm : dev.mapInfos obj = some m) :
    Ends some held (tpceDmaFreeMapping dev obj) fun dev' held' =>
      FewerMaps dev dev' ∧ ∃ beside', Holds beside' dev' held' ∧ ∀ k, Left beside' dev' k ↔ Left beside dev k := by
  have hends : Ends some held (tpceDmaFreeMapping dev obj) fun dev' held' =>
      (¬OfNeitherKind m → Holds beside dev' held') ∧ (OfNeitherKind m → held' = held) := by
    apply Ends.lift_bind
    intro m' hm'
    obtain rfl := Option.some.inj (hm.symm.trans (mapInfo_eq_ok.mp hm'))
    apply Ends.ite
    · intro husr
      have howner : m.owner ≠ none := fun hnone => Bool.false_ne_true ((hkinds obj m hm).1 hnone ▸ husr)
      apply (unlockUserBuffer_holds h hm howner).mono
      exact fun dev' held' hend => ⟨fun _ => hend.1, fun hkind => absurd (hkind.1 ▸ husr) Bool.false_ne_true⟩
    intro husr
    apply Ends.ite
    · intro hdrv
      have hnone : m.owner = none := Option.isNone_iff_eq_none.mp hdrv
      apply Ends.lift_bind
      intro m' hm'
      obtain rfl := Option.some.inj (hm.symm.trans (mapInfo_eq_ok.mp hm'))
      apply (unlocked_holds h hm (by rw [mapParts, if_pos hdrv])).mono
      exact fun dev' held' hend => ⟨fun _ => hend.1, fun hkind => absurd hnone hkind.2⟩
    · intro hdrv
      have howner : m.owner ≠ none := fun hnone => hdrv (Option.isNone_iff_eq_none.mpr hnone)
      have hkind : OfNeitherKind m := ⟨Bool.eq_false_iff.mpr husr, howner⟩
      exact Ends.lift fun _ _ => ⟨fun hno => absurd hkind hno, fun _ => rfl⟩
  apply hends.erased.mono
  rintro dev' held' ⟨⟨hgiven, hkept⟩, herase⟩
  rw [erase_freeMapping] at herase
  have hfewer := fewer_unlock herase
  refine ⟨hfewer, ?_⟩
  by_cases hkind : OfNeitherKind m
  · obtain rfl := hkept hkind
    obtain ⟨m₀, hm₀, rfl⟩ := unlockUserBuffer_spec herase
    obtain rfl := Option.some.inj (hm.symm.trans hm₀)
    refine ⟨fun k => beside k ∨ ∃ part ∈ mapParts m, k = .mapping obj part, ⟨h.channel, ?_, ?_, ?_⟩, ?_⟩
    · intro obj' part
      rw [h.mapping]
      by_cases heq : obj' = obj
      · subst heq
        simp [hm, or_comm]
      · simp [heq]
    · intro k hk
      rw [h.elsewhere k hk]
      refine (or_iff_left ?_).symm
      rintro ⟨part, -, rfl⟩
      exact hk
    · rintro obj' part (hpart | ⟨part', -, heq⟩)
      · obtain ⟨hlt, hnone⟩ := h.gone obj' part hpart
        refine ⟨hlt, ?_⟩
        by_cases heq : obj' = obj
        · rw [heq]
          exact Function.update_self ..
        · exact (Function.update_of_ne heq ..).trans hnone
      · obtain ⟨rfl, -⟩ := Item.mapping.inj heq
        exact ⟨(hkinds obj' m hm).2, Function.update_self ..⟩
    · intro k
      constructor
      · rintro ((hb | ⟨part, hpart, rfl⟩) | ⟨obj', m', part, rfl, hm', hrest⟩)
        · exact .inl hb
        · exact .inr ⟨obj, m, part, rfl, hm, hkind, hpart⟩
        · by_cases heq : obj' = obj
          · subst heq
            simp at hm'
          · exact .inr ⟨obj', m', part, rfl, (Function.update_of_ne heq ..).symm.trans hm', hrest⟩
      · rintro (hb | ⟨obj', m', part, rfl, hm', hneither, hpart⟩)
        · exact .inl (.inl hb)
        · by_cases heq : obj' = obj
          · subst heq
            obtain rfl := Option.some.inj (hm.symm.trans hm')
            exact .inl (.inr ⟨part, hpart, rfl⟩)
          · exact .inr ⟨obj', m', part, rfl, (Function.update_of_ne heq ..).trans hm', hneither, hpart⟩
  · exact ⟨beside, hgiven hkind, left_unlocked hm hkind herase⟩

theorem listDelOwner_holds (h : Holds beside dev held) (m : TpceDmaMapInfo) (obj : ℕ) :
    Holds beside (listDelOwner dev m obj) held ∧ SameMaps dev (listDelOwner dev m obj) := by
  rw [listDelOwner]
  split
  · exact ⟨listDel_holds h _ obj, .of_eq rfl rfl⟩
  · exact ⟨h, .of_eq rfl rfl⟩

theorem freeMappings_holds (h : Holds beside dev held) (hkinds : Kinds dev) (ids : List U32) :
    Ends some held (Ownership.freeMappings dev ids) fun dev' held' =>
      ∃ beside', Holds beside' dev' held' ∧ ∀ k, Left beside' dev' k ↔ Left beside dev k := by
  induction ids generalizing dev held beside with
  | nil => exact Ends.pure ⟨beside, h, fun _ => Iff.rfl⟩
  | cons id ids ih =>
      simp only [Ownership.freeMappings]
      cases dev.dmaMappings id with
      | none => exact ih h hkinds
      | some obj =>
          apply Ends.lift_bind
          intro m hm
          obtain ⟨h₁, hsame₁⟩ := listDelOwner_holds h m obj
          obtain ⟨m₁, hm₁, heq⟩ := hsame₁.symm.fewer.old obj m (mapInfo_eq_ok.mp hm)
          apply (freeMapping_holds h₁ (hkinds.fewer hsame₁.fewer) hm₁).bind
          rintro dev₂ held₂ ⟨hfewer, beside₂, h₂, hleft₂⟩
          apply (ih h₂ ((hkinds.fewer hsame₁.fewer).fewer hfewer)).mono
          rintro dev' held' ⟨beside', hholds, hleft⟩
          exact ⟨beside', hholds, fun k => ((hleft k).trans (hleft₂ k)).trans (hsame₁.left k)⟩

theorem dmaFree_holds (h : Holds beside dev held) (hkinds : Kinds dev) :
    Ends some held (Ownership.tpceDmaFree dev) fun dev' held' =>
      ∃ beside', Holds beside' dev' held' ∧ ∀ k, Left beside' dev' k ↔ Left beside dev k := by
  apply (freeMappings_holds h hkinds _).bind
  rintro dev₁ held₁ ⟨beside₁, h₁, hleft₁⟩
  apply (freeDescriptors_holds h₁ _).mono
  rintro dev' held' ⟨hholds, hsame⟩
  exact ⟨beside₁, hholds, fun k => (hsame.left k).trans (hleft₁ k)⟩

theorem finishRemove_holds (h : Holds beside dev held) (hkinds : Kinds dev) :
    Ends some held (Ownership.finishRemove dev) fun r held' =>
      ∃ beside', Holds beside' r.2 held' ∧ ∀ k, Left beside' r.2 k ↔ Left beside dev k := by
  apply (resetChannels_holds h _).bind
  rintro dev₁ held₁ ⟨h₁, hsame⟩
  apply (dmaFree_holds h₁ (hkinds.fewer hsame.fewer)).bind
  rintro dev₂ held₂ ⟨beside₂, h₂, hleft⟩
  exact Ends.pure ⟨beside₂, h₂, fun k => (hleft k).trans (hsame.left k)⟩

end TpceDrv.OwnershipSteps
