import TpceDrv.ChannelSteps
import TpceDrv.PageTableMap

namespace TpceDrv.SlotFrames

open Descriptor DmaParams DmaInfo PageTable PageTableMap Device Translation ChannelControl
open ChannelSteps

variable {env : InitEnv} {dev : TpceDev} {c : Channel} {channel : U8} {info : TpceDmaInfo}
variable {table table' table'' : AlteraPciePageTable}

/-- The slots of the channels other than `channel` are the same. -/
def SameOthers (channel : U8) (table table' : AlteraPciePageTable) : Prop :=
  ∀ i v other, other ≠ channel → (slots table' i = some (v, other) ↔ slots table i = some (v, other))

theorem SameOthers.refl (channel : U8) (table : AlteraPciePageTable) : SameOthers channel table table :=
  fun _ _ _ _ => Iff.rfl

theorem SameOthers.trans (h : SameOthers channel table table') (h' : SameOthers channel table' table'') :
    SameOthers channel table table'' :=
  fun i v other hne => (h' i v other hne).trans (h i v other hne)

theorem sameOthers_alloc (table : AlteraPciePageTable) (v : U64) (channel : U8) :
    SameOthers channel table (pciePageAlloc table v channel).table := by
  rcases pciePageAlloc_spec table v channel with ⟨i, hfree, heq⟩ | ⟨-, heq⟩
  · intro j w other hne
    rw [heq, slots_store]
    by_cases hj : j = i
    · subst hj
      rw [Function.update_self, hfree]
      refine iff_of_false (fun h => hne ?_) (Option.some_ne_none _).symm
      exact (Prod.mk.inj (Option.some.inj h)).2.symm
    · rw [Function.update_of_ne hj]
  · rw [heq]
    exact .refl channel table

theorem sameOthers_free (table : AlteraPciePageTable) (hc : channel ≠ uint8Max) :
    SameOthers channel table (pciePageFreeByChannelId table channel) := by
  intro i v other hne
  rw [slots_freeByChannelId table hc, Option.filter_eq_some_iff]
  exact and_iff_left (decide_eq_true hne)

/-- The slots in use stay as they are. -/
def Keeps (table table' : AlteraPciePageTable) : Prop :=
  ∀ i v channel, slots table i = some (v, channel) → slots table' i = some (v, channel)

theorem Keeps.refl (table : AlteraPciePageTable) : Keeps table table := fun _ _ _ => id

theorem Keeps.trans (h : Keeps table table') (h' : Keeps table' table'') : Keeps table table'' :=
  fun i v channel hslot => h' i v channel (h i v channel hslot)

theorem keeps_alloc (table : AlteraPciePageTable) (v : U64) (channel : U8) :
    Keeps table (pciePageAlloc table v channel).table := by
  rcases pciePageAlloc_spec table v channel with ⟨i, hfree, heq⟩ | ⟨-, heq⟩
  · intro j w other hslot
    rw [heq, slots_store]
    by_cases hj : j = i
    · subst hj
      cases hfree.symm.trans hslot
    · rw [Function.update_of_ne hj]
      exact hslot
  · rw [heq]
    exact .refl table

theorem lookupPage_table (channel : U8) (st : RwLookup) (p : U64) :
    match lookupPage channel st p with
    | .ok st' => st'.table = st.table ∨ st'.table = (pciePageAlloc st.table p channel).table
    | .error table => table = (pciePageAlloc st.table p channel).table := by
  by_cases hpage : st.currPage ≠ p
  · simp only [lookupPage, if_pos hpage]
    by_cases hfound : pciePageFindValue st.table p channel = -1
    · rw [if_pos hfound]
      by_cases hfull : (pciePageAlloc st.table p channel).slot = -1
      · rw [if_pos hfull]
      · rw [if_neg hfull]
        exact .inr rfl
    · rw [if_neg hfound]
      exact .inl rfl
  · rw [lookupPage, if_neg hpage]
    exact .inl rfl

/-- What every allocation does to a table, the loop does. -/
theorem rwLoop_relates {R : AlteraPciePageTable → AlteraPciePageTable → Prop} (hrefl : ∀ t, R t t)
    (htrans : ∀ t t' t'', R t t' → R t' t'' → R t t'')
    (halloc : ∀ t v, R t (pciePageAlloc t v channel).table) (st : RwLookup) (descs : List TpceDmaDescriptor) :
    R st.table (translateRwLoop channel st descs).2.1.table := by
  induction descs generalizing st with
  | nil => exact hrefl st.table
  | cons desc rest ih =>
      have hlookup := lookupPage_table channel st (pageOf (tpceDescGetWrite desc))
      have hnew := halloc st.table (pageOf (tpceDescGetWrite desc))
      simp only [translateRwLoop]
      cases hst : lookupPage channel st (pageOf (tpceDescGetWrite desc)) with
      | error table =>
          rw [hst] at hlookup
          dsimp only at hlookup ⊢
          rw [hlookup]
          exact hnew
      | ok st' =>
          rw [hst] at hlookup
          have hstep : R st.table st'.table := by
            rcases hlookup with hsame | halloced
            · rw [hsame]
              exact hrefl st.table
            · rw [halloced]
              exact hnew
          exact htrans _ _ _ hstep (ih st')

theorem sameOthers_rwLoop (channel : U8) (st : RwLookup) (descs : List TpceDmaDescriptor) :
    SameOthers channel st.table (translateRwLoop channel st descs).2.1.table :=
  rwLoop_relates (SameOthers.refl channel) (fun _ _ _ => SameOthers.trans)
    (fun t v => sameOthers_alloc t v channel) st descs

theorem keeps_rw {slot ret : ℤ} {info' : TpceDmaInfo}
    (h : translateDescriptorRwAddr slot table info = (ret, table', info')) (hret : 0 ≤ ret) : Keeps table table' := by
  have hloop := rwLoop_relates Keeps.refl (fun _ _ _ => Keeps.trans)
    (fun t v => keeps_alloc t v info.params.channel) ⟨table, 0, slot, 0⟩
    (info.descDma.take (info.descActive / descriptorSize).toNat)
  simp only [translateDescriptorRwAddr] at h
  split at h
  · split at h
    · cases h
      exact hloop
    · cases h
      exact absurd hret (by decide)
  · split at h
    · cases h
      exact absurd hret (by decide)
    · cases h
      exact absurd hret (by decide)

theorem sameOthers_link (table : AlteraPciePageTable) (info : TpceDmaInfo) :
    SameOthers info.params.channel table (translateDescriptorLinkAddr table info).2.1 := by
  have halloc := sameOthers_alloc table (info.descBusAddr &&& alteraAddrTranslationMask64) info.params.channel
  simp only [translateDescriptorLinkAddr]
  split
  · exact halloc
  · exact halloc

theorem sameOthers_rw (slot : ℤ) (table : AlteraPciePageTable) (info : TpceDmaInfo)
    (hc : info.params.channel ≠ uint8Max) :
    SameOthers info.params.channel table (translateDescriptorRwAddr slot table info).2.1 := by
  have hloop := sameOthers_rwLoop info.params.channel ⟨table, 0, slot, 0⟩
    (info.descDma.take (info.descActive / descriptorSize).toNat)
  simp only [translateDescriptorRwAddr]
  split
  · split
    · exact hloop
    · exact hloop.trans (sameOthers_free _ hc)
  · split
    · exact .refl _ table
    · exact .refl _ table

theorem sameOthers_start (env : InitEnv) (dev : TpceDev) (c : Channel)
    (hc : (dev.dmaInfo c).params.channel ≠ uint8Max) :
    SameOthers (dev.dmaInfo c).params.channel dev.pageTable (dmaStart env dev c).2.pageTable := by
  have hlink := sameOthers_link dev.pageTable (dev.dmaInfo c)
  have hparams := congrArg TpceDmaInfo.params (linkAddr_eq dev.pageTable (dev.dmaInfo c))
  have hparams' := congrArg TpceDmaInfo.params (rwAddr_eq env.slot
    (translateDescriptorLinkAddr dev.pageTable (dev.dmaInfo c)).2.1
    (translateDescriptorLinkAddr dev.pageTable (dev.dmaInfo c)).2.2)
  have hrw := sameOthers_rw env.slot (translateDescriptorLinkAddr dev.pageTable (dev.dmaInfo c)).2.1
    (translateDescriptorLinkAddr dev.pageTable (dev.dmaInfo c)).2.2 (by rw [hparams]; exact hc)
  rw [hparams] at hrw hparams'
  simp only [dmaStart]
  split
  · exact .refl _ dev.pageTable
  split
  · exact hlink
  split
  · apply (hlink.trans hrw).trans
    dsimp only
    rw [hparams']
    exact sameOthers_free _ hc
  · exact hlink.trans hrw

theorem sameOthers_dispatch (env : InitEnv) (dev : TpceDev) (c : Channel)
    (hc : (dev.dmaInfo c).params.channel ≠ uint8Max) :
    SameOthers (dev.dmaInfo c).params.channel dev.pageTable (dmaDispatch env dev c).2.pageTable := by
  have hstart := sameOthers_start env dev c hc
  have hstream := sameOthers_start env (enableStreamIrq dev c) c hc
  simp only [dmaDispatch]
  split
  · simp only [tpceDmaStart]
    split
    · exact hstart
    · exact hstart
  split
  · simp only [tpceDmaStreamStart]
    split
    · exact hstream
    · exact hstream
  · exact .refl _ dev.pageTable

end TpceDrv.SlotFrames
