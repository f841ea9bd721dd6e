import TpceDrv.Library.Stacks
import TpceDrv.Probe

namespace TpceDrv.ProbeRollback

open Descriptor DmaParams DmaInfo Mapping Device Requests Resources BarAccess Probe
open Library.Holdings Library.Traces Library.Stacks

variable {ε : Type} {held : Finset Item} {bars : Bars} {err : ℤ}

/-- What `tpce_pci_init` acquires, the last one first -/
def pciItems : List Item := [.irq, .irqVectors, .bar bar2, .bar bar0, .pciRegions, .pciDevice]

def Gone {α : Type} (held : Finset Item) (err r : α) (held' : Finset Item) : Prop := r = err ∧ held' = held

theorem errorRegions_ends (h : Apart held [.pciDevice]) (err : ℤ) :
    Ends some (stacked [.pciDevice] held) (errorRegions err : Owning ε ℤ) (Gone held err) :=
  pop h rfl (Ends.pure ⟨rfl, rfl⟩)

theorem errorBar0_ends (h : Apart held [.pciRegions, .pciDevice]) (err : ℤ) :
    Ends some (stacked [.pciRegions, .pciDevice] held) (errorBar0 err : Owning ε ℤ) (Gone held err) :=
  pop h rfl (errorRegions_ends h.tail err)

theorem iounmap_ends {i : Fin 2} {ks : List Item} (h : Apart held (.bar i :: ks)) (hmapped : (bars i).vaddr ≠ 0) :
    Ends some (stacked (.bar i :: ks) held) (iounmap bars i : Owning ε Unit) fun _ held' =>
      held' = stacked ks held := by
  apply Ends.ite
  · intro _
    have htop : Item.bar i ∈ stacked (.bar i :: ks) held := mem_stacked.mpr (.inl List.mem_cons_self)
    exact Ends.released rfl htop (Finset.erase_insert h.head)
  · exact fun hno => absurd hmapped hno

theorem errorBar2_ends (h : Apart held [.bar bar0, .pciRegions, .pciDevice]) (hbar : (bars bar0).vaddr ≠ 0) (err : ℤ) :
    Ends some (stacked [.bar bar0, .pciRegions, .pciDevice] held) (errorBar2 bars err : Owning ε ℤ) (Gone held err) := by
  apply (iounmap_ends h hbar).bind
  rintro _ _ rfl
  exact errorBar0_ends h.tail err

theorem errorIrq_ends (h : Apart held [.bar bar2, .bar bar0, .pciRegions, .pciDevice]) (hbars : ∀ i, (bars i).vaddr ≠ 0)
    (err : ℤ) :
    Ends some (stacked [.bar bar2, .bar bar0, .pciRegions, .pciDevice] held) (errorIrq bars err : Owning ε ℤ)
      (Gone held err) := by
  apply (iounmap_ends h (hbars bar2)).bind
  rintro _ _ rfl
  exact errorBar2_ends h.tail (hbars bar0) err

theorem errorRequestIrq_ends (h : Apart held [.irqVectors, .bar bar2, .bar bar0, .pciRegions, .pciDevice])
    (hbars : ∀ i, (bars i).vaddr ≠ 0) (err : ℤ) :
    Ends some (stacked [.irqVectors, .bar bar2, .bar bar0, .pciRegions, .pciDevice] held)
      (errorRequestIrq bars err : Owning ε ℤ) (Gone held err) :=
  pop h rfl (errorIrq_ends h.tail hbars err)

/-- A memory area of the device can be mapped. -/
structure Mappable (env : PciEnv) (resource : ℕ) : Prop where
  known : resource < env.deviceCountResource
  start : env.resourceStart resource ≠ 0
  size : env.resourceLen resource ≠ 0
  mapped : env.ioremap (env.resourceStart resource) (env.resourceLen resource) ≠ 0

def mappedBar (env : PciEnv) (resource : ℕ) : PciBarInfo :=
  ⟨env.resourceLen resource, env.ioremap (env.resourceStart resource) (env.resourceLen resource)⟩

theorem mapPciBar_ends {env : PciEnv} {resource : ℕ} {ks : List Item} (i : Fin 2)
    (h : Apart held (.bar i :: ks)) :
    Ends some (stacked ks held) (mapPciBar env bars resource i.val : Owning ε _) fun r held' =>
      (r.1 < 0 ∧ ¬Mappable env resource ∧ held' = stacked ks held ∧ ∀ j, j ≠ i → r.2 j = bars j) ∨
      (r = (0, Function.update bars i (mappedBar env resource)) ∧ Mappable env resource ∧
        held' = stacked (.bar i :: ks) held) := by
  have hothers : ∀ (bar : PciBarInfo) (j : Fin 2), j ≠ i → Function.update bars i bar j = bars j := fun bar j hj =>
    Function.update_of_ne hj ..
  have henomem : -Errno.enomem < 0 := by decide
  have heinval : -Errno.einval < 0 := by decide
  simp only [mapPciBar]
  split
  · rename_i hknown
    apply Ends.ite
    · exact fun hno => Ends.pure (.inl ⟨henomem, fun hok => hno.elim hok.start hok.size, rfl, hothers _⟩)
    intro hvalid
    apply Ends.ite
    · exact fun hno => Ends.pure (.inl ⟨henomem, fun hok => hok.mapped hno, rfl, hothers _⟩)
    intro hmapped
    apply push h rfl
    have hok : Mappable env resource :=
      ⟨hknown.2, fun hno => hvalid (.inl hno), fun hno => hvalid (.inr hno), hmapped⟩
    exact Ends.pure (.inr ⟨rfl, hok, rfl⟩)
  · rename_i hunknown
    have hbad : ¬Mappable env resource := fun hok => hunknown ⟨i.isLt, hok.known⟩
    exact Ends.pure (.inl ⟨heinval, hbad, rfl, fun _ _ => rfl⟩)

/-- The PCI core refuses nothing. -/
structure PciReady (env : PciEnv) : Prop where
  enabled : env.enableDevice = 0
  regions : env.requestRegions = 0
  bar0 : Mappable env 0
  bar2 : Mappable env 2
  vectors : 0 ≤ env.allocIrqVectors
  irq : env.requestIrq = 0

theorem failing_ends {α β : Type} {m : Owning ε α} {a : α} {b : β} {held' : Finset Item}
    {Q : α × β → Finset Item → Prop} (h : Ends some held' m (Gone held a)) (hQ : Q (a, b) held) :
    Ends some held' (do
      let a ← m
      pure (a, b) : Owning ε (α × β)) Q := by
  apply h.bind
  rintro _ _ ⟨rfl, rfl⟩
  exact Ends.pure hQ

def mappedBars (env : PciEnv) (bars : Bars) : Bars :=
  Function.update (Function.update bars bar0 (mappedBar env 0)) bar2 (mappedBar env 2)

theorem mappedBars_vaddr {env : PciEnv} (h : PciReady env) (i : Fin 2) : (mappedBars env bars i).vaddr ≠ 0 := by
  obtain rfl | rfl := bar0_or_bar2 i
  · exact h.bar0.mapped
  · exact h.bar2.mapped

/-- The error codes of the PCI core are negative. -/
structure NegativeCodes (env : PciEnv) : Prop where
  enableDevice : env.enableDevice ≤ 0
  requestRegions : env.requestRegions ≤ 0
  requestIrq : env.requestIrq ≤ 0

/-- All or nothing -/
theorem pciInit_ends {env : PciEnv} (hcodes : NegativeCodes env) (h : Apart held pciItems) :
    Ends some held (tpcePciInit env bars : Owning ε _) fun r held' =>
      (r.1 < 0 ∧ ¬PciReady env ∧ held' = held) ∨
      (r = (0, mappedBars env bars) ∧ PciReady env ∧ held' = stacked pciItems held) := by
  have hvectors := h.tail
  have hbar1 := hvectors.tail
  have hbar0 := hbar1.tail
  have hregions := hbar0.tail
  have hdevice := hregions.tail
  apply Ends.ite
  · exact fun hno => Ends.pure (.inl ⟨lt_of_le_of_ne hcodes.enableDevice hno, fun hok => hno hok.enabled, rfl⟩)
  intro henabled
  apply push hdevice rfl
  apply Ends.ite
  · exact fun hno => failing_ends (errorRegions_ends hdevice _)
      (.inl ⟨lt_of_le_of_ne hcodes.requestRegions hno, fun hok => hno hok.regions, rfl⟩)
  intro hrequested
  apply push hregions rfl
  apply (mapPciBar_ends bar0 hbar0).bind
  rintro ⟨err₀, bars₀⟩ held₀ h₀
  apply Ends.ite
  · intro hfailed
    rcases h₀ with ⟨hneg, hno, rfl, -⟩ | ⟨heq, -⟩
    · exact failing_ends (errorBar0_ends hregions _) (.inl ⟨hneg, fun hok => hno hok.bar0, rfl⟩)
    · exact absurd (congrArg Prod.fst heq) hfailed
  intro hok₀
  obtain ⟨hneg, -⟩ | ⟨heq₀, hmap₀, rfl⟩ := h₀
  · exact absurd (not_not.mp hok₀) (Int.ne_of_lt hneg)
  obtain ⟨rfl, rfl⟩ := Prod.mk.inj heq₀
  apply (mapPciBar_ends bar2 hbar1).bind
  rintro ⟨err₁, bars₁⟩ held₁ h₁
  apply Ends.ite
  · intro hfailed
    rcases h₁ with ⟨hneg, hno, rfl, hother⟩ | ⟨heq, -⟩
    · have hsame : bars₁ bar0 = mappedBar env 0 := hother bar0 Fin.zero_ne_one
      have hfirst : (bars₁ bar0).vaddr ≠ 0 := hsame ▸ hmap₀.mapped
      exact failing_ends (errorBar2_ends hbar0 hfirst _) (.inl ⟨hneg, fun hok => hno hok.bar2, rfl⟩)
    · exact absurd (congrArg Prod.fst heq) hfailed
  intro hok₁
  obtain ⟨hneg, -⟩ | ⟨heq₁, hmap₁, rfl⟩ := h₁
  · exact absurd (not_not.mp hok₁) (Int.ne_of_lt hneg)
  obtain ⟨rfl, rfl⟩ := Prod.mk.inj heq₁
  have hbars : ∀ i, (mappedBars env bars i).vaddr ≠ 0 := Fin.forall_fin_two.mpr ⟨hmap₀.mapped, hmap₁.mapped⟩
  apply Ends.ite
  · intro hneg
    have hno : ¬PciReady env := fun hok => absurd hneg (not_lt.mpr hok.vectors)
    exact failing_ends (errorIrq_ends hbar1 hbars _) (.inl ⟨hneg, hno, rfl⟩)
  intro hsome
  apply push hvectors rfl
  apply Ends.ite
  · exact fun hno => failing_ends (errorRequestIrq_ends hvectors hbars _)
      (.inl ⟨lt_of_le_of_ne hcodes.requestIrq hno, fun hok => hno hok.irq, rfl⟩)
  intro hirq
  apply push h rfl
  have hready : PciReady env :=
    ⟨not_not.mp henabled, not_not.mp hrequested, hmap₀, hmap₁, not_lt.mp hsome, not_not.mp hirq⟩
  exact Ends.pure (.inr ⟨rfl, hready, rfl⟩)

/-- The memory areas are unmapped in the order of the table. -/
theorem pciFree_ends (h : Apart held pciItems) (hbars : ∀ i, (bars i).vaddr ≠ 0) :
    Ends some (stacked pciItems held) (tpcePciFree bars : Owning ε Unit) fun _ held' => held' = held := by
  have hvectors := h.tail
  have hbar1 := hvectors.tail
  have hswapped : Apart held [.bar bar0, .bar bar2, .pciRegions, .pciDevice] := by
    refine ⟨by simp, fun k hk => hbar1.fresh k ?_⟩
    simp only [List.mem_cons] at hk ⊢
    tauto
  have hsame : stacked [.bar bar2, .bar bar0, .pciRegions, .pciDevice] held =
      stacked [.bar bar0, .bar bar2, .pciRegions, .pciDevice] held := Finset.insert_comm ..
  apply pop h rfl
  apply pop hvectors rfl
  rw [hsame]
  apply (iounmap_ends hswapped (hbars bar0)).bind
  rintro _ _ rfl
  apply (iounmap_ends hswapped.tail (hbars bar2)).bind
  rintro _ _ rfl
  apply pop hswapped.tail.tail rfl
  exact Ends.released rfl (Finset.mem_insert_self _ _) (Finset.erase_insert hswapped.tail.tail.tail.head)

/-- The parts of a driver buffer, the last one first -/
def bufferItems (obj : ℕ) (numPages : U32) : List Item := (driverParts numPages).map (Item.mapping obj)

section
variable {obj order : ℕ} {ptr : MapPtr}

theorem errorAlloc_ends (h : Apart held [.mapping obj (.locked .mapInfo)]) :
    Ends some (stacked [.mapping obj (.locked .mapInfo)] held) (errorAlloc obj ptr : Owning ε MapPtr)
      (Gone held ptr) :=
  pop h rfl (Ends.pure ⟨rfl, rfl⟩)

theorem errorVmap_ends (h : Apart held [.mapping obj (.allocPages order), .mapping obj (.locked .mapInfo)]) :
    Ends some (stacked [.mapping obj (.allocPages order), .mapping obj (.locked .mapInfo)] held)
      (errorVmap obj order ptr : Owning ε MapPtr) (Gone held ptr) :=
  pop h rfl (errorAlloc_ends h.tail)

theorem errorSgt_ends
    (h : Apart held [.mapping obj .vmap, .mapping obj (.allocPages order), .mapping obj (.locked .mapInfo)]) :
    Ends some (stacked [.mapping obj .vmap, .mapping obj (.allocPages order), .mapping obj (.locked .mapInfo)] held)
      (errorSgt obj order ptr : Owning ε MapPtr) (Gone held ptr) :=
  pop h rfl (errorVmap_ends h.tail)

theorem errorMap_ends (h : Apart held [.mapping obj (.locked .sgTable), .mapping obj .vmap,
      .mapping obj (.allocPages order), .mapping obj (.locked .mapInfo)]) :
    Ends some (stacked [.mapping obj (.locked .sgTable), .mapping obj .vmap, .mapping obj (.allocPages order),
      .mapping obj (.locked .mapInfo)] held) (errorMap obj order ptr : Owning ε MapPtr) (Gone held ptr) :=
  pop h rfl (errorSgt_ends h.tail)

theorem errorXa_ends (h : Apart held [.mapping obj (.locked .dmaMapping), .mapping obj (.locked .sgTable),
      .mapping obj .vmap, .mapping obj (.allocPages order), .mapping obj (.locked .mapInfo)]) :
    Ends some (stacked [.mapping obj (.locked .dmaMapping), .mapping obj (.locked .sgTable), .mapping obj .vmap,
      .mapping obj (.allocPages order), .mapping obj (.locked .mapInfo)] held)
      (errorXa obj order ptr : Owning ε MapPtr) (Gone held ptr) :=
  pop h rfl (errorMap_ends h.tail)

end

/-- The id that `tpce_dma_alloc_buffer` registers its buffer under, and the answer of the
array to it -/
def bufferId (env : BufferEnv) (dev : TpceDev) (fixedId : U32) : ℤ × U32 :=
  if fixedId ≠ 0 then (xaInsert dev fixedId env.xaOk, fixedId) else xaAlloc dev env.xaOk

/-- A buffer that can be allocated -/
structure Allocates (env : BufferEnv) (dev : TpceDev) (size : U32) (dir : U8) (fixedId : U32) : Prop where
  direction : dir ≠ dmaNone
  pages : size ≠ 0 ∧ size.toNat % pageSize = 0
  order : isPowerOf2 (size >>> 12) = true
  memory : env.kvzallocOk = true
  allocated : env.pagesOk = true
  viewed : env.vmapOk = true
  table : env.sgAlloc = 0
  mapped : env.dmaMap = 0
  registered : 0 ≤ (bufferId env dev fixedId).1

/-- The device with a buffer that has been allocated under an id -/
def withBuffer (env : BufferEnv) (dev : TpceDev) (size : U32) (dir : U8) (id : U32) : TpceDev :=
  { dev.setMapInfo dev.nextObj (allocatedMapInfo env dev size dir id) with
    dmaMappings := Function.update dev.dmaMappings id (some dev.nextObj)
    nextObj := dev.nextObj + 1 }

theorem allocBuffer_ends {env : BufferEnv} {dev : TpceDev} {size : U32} {dir : U8} {fixedId : U32}
    (h : Apart held (bufferItems dev.nextObj (size >>> 12))) :
    Ends some held (tpceDmaAllocBuffer env dev size dir fixedId : Owning ε _) fun r held' =>
      (∃ e, r = (.err e, dev) ∧ e ≠ 0 ∧ ¬Allocates env dev size dir fixedId ∧ held' = held) ∨
      (r = (.ptr dev.nextObj, withBuffer env dev size dir (bufferId env dev fixedId).2) ∧
        Allocates env dev size dir fixedId ∧ held' = stacked (bufferItems dev.nextObj (size >>> 12)) held) := by
  have hsg := h.tail
  have hvmap := hsg.tail
  have hpages := hvmap.tail
  have hinfo := hpages.tail
  have heinval : -Errno.einval ≠ 0 := by decide
  have henomem : -Errno.enomem ≠ 0 := by decide
  have heio : -Errno.eio ≠ 0 := by decide
  apply Ends.ite
  · exact fun hno => Ends.pure (.inl ⟨_, rfl, heinval, fun hok => hok.direction hno, rfl⟩)
  intro hdir
  apply Ends.ite
  · exact fun hno => Ends.pure (.inl ⟨_, rfl, heinval, fun hok => hno.elim hok.pages.1 (absurd hok.pages.2), rfl⟩)
  intro hsize
  apply Ends.ite
  · exact fun hno => Ends.pure (.inl ⟨_, rfl, heinval, fun hok => by simp [hok.order] at hno, rfl⟩)
  intro horder
  apply Ends.ite
  · exact fun hno => Ends.pure (.inl ⟨_, rfl, henomem, fun hok => by simp [hok.memory] at hno, rfl⟩)
  intro hmemory
  apply push hinfo rfl
  apply Ends.ite
  · exact fun hno => failing_ends (errorAlloc_ends hinfo)
      (.inl ⟨_, rfl, henomem, fun hok => by simp [hok.allocated] at hno, rfl⟩)
  intro hallocated
  apply push hpages rfl
  apply Ends.ite
  · exact fun hno => failing_ends (errorVmap_ends hpages)
      (.inl ⟨_, rfl, heio, fun hok => by simp [hok.viewed] at hno, rfl⟩)
  intro hviewed
  apply push hvmap rfl
  apply Ends.ite
  · exact fun hno => failing_ends (errorSgt_ends hvmap) (.inl ⟨_, rfl, hno, fun hok => hno hok.table, rfl⟩)
  intro htable
  apply push hsg rfl
  apply Ends.ite
  · exact fun hno => failing_ends (errorMap_ends hsg) (.inl ⟨_, rfl, hno, fun hok => hno hok.mapped, rfl⟩)
  intro hmapped
  apply push h rfl
  change Ends some _ (if (bufferId env dev fixedId).1 < 0 then _ else _) _
  apply Ends.ite
  · intro hneg
    exact failing_ends (errorXa_ends h)
      (.inl ⟨_, rfl, Int.ne_of_lt hneg, fun hok => absurd hneg (not_lt.mpr hok.registered), rfl⟩)
  intro hregistered
  have hok : Allocates env dev size dir fixedId :=
    ⟨hdir, not_or.mp hsize |>.imp_right not_not.mp, by simpa using horder, by simpa using hmemory,
      by simpa using hallocated, by simpa using hviewed, not_not.mp htable, not_not.mp hmapped, not_lt.mp hregistered⟩
  exact Ends.pure (.inr ⟨rfl, hok, rfl⟩)

/-- What a probe acquires in front of the PCI core, the last one first -/
def deviceItems : List Item := [.drvdata, .tableEntry, .minor, .ioBuffer, .tpceDev]

def failureCode (ret : ℤ) : ℤ := if ret = 0 then -Errno.eio else ret

theorem errorAlloc2_ends {ret : ℤ} (h : Apart held [.tpceDev]) :
    Ends some (stacked [.tpceDev] held) (errorAlloc2 ret : Owning ε ℤ) (Gone held (failureCode ret)) :=
  pop h rfl (Ends.pure ⟨rfl, rfl⟩)

theorem errorIda_ends {ret : ℤ} (h : Apart held [.ioBuffer, .tpceDev]) :
    Ends some (stacked [.ioBuffer, .tpceDev] held) (errorIda ret : Owning ε ℤ) (Gone held (failureCode ret)) :=
  pop h rfl (errorAlloc2_ends h.tail)

theorem errorPciInit_ends {ret : ℤ} (h : Apart held deviceItems) :
    Ends some (stacked deviceItems held) (errorPciInit ret : Owning ε ℤ) (Gone held (failureCode ret)) :=
  pop h rfl (pop h.tail rfl (pop h.tail.tail rfl (errorIda_ends h.tail.tail.tail)))

theorem errorDmaInit_ends {ret : ℤ} (h : Apart held (pciItems ++ deviceItems)) (hbars : ∀ i, (bars i).vaddr ≠ 0) :
    Ends some (stacked pciItems (stacked deviceItems held)) (errorDmaInit bars ret : Owning ε ℤ)
      (Gone held (failureCode ret)) := by
  apply (pciFree_ends h.above hbars).bind
  rintro _ _ rfl
  exact errorPciInit_ends h.below

section
variable {sgt : SgTable} {base : Finset Item}

/-- The driver buffer is what the new device refers to. -/
theorem holds_init (hbase : ∀ k ∈ base, OwnershipSteps.Elsewhere k) :
    OwnershipSteps.Holds (· ∈ base) (TpceDev.init sgt) (stacked (bufferItems 0 256) base) := by
  have hnot : ∀ k, ¬OwnershipSteps.Elsewhere k → k ∉ base := fun k hk hmem => hk (hbase k hmem)
  have hmem : ∀ k, k ∈ stacked (bufferItems 0 256) base ↔ (∃ part ∈ driverParts 256, .mapping 0 part = k) ∨ k ∈ base :=
    fun k => by rw [mem_stacked, bufferItems, List.mem_map]
  refine ⟨fun c => ⟨?_, ?_, ?_, fun _ _ => Iff.rfl⟩, fun obj part => ?_, fun k hk => ?_, fun obj part hpart => ?_⟩
  · rw [hmem]
    exact iff_of_false (by simp [hnot (.desc c) id]) (fun hne => hne rfl)
  · rw [hmem]
    exact iff_of_false (by simp [hnot (.descDma c) id]) (fun hne => hne rfl)
  · rw [hmem]
    exact iff_of_false (by simp [hnot (.streamState c) id]) (fun hne => hne rfl)
  · rw [hmem]
    refine or_congr_left ⟨?_, ?_⟩
    · rintro ⟨part', hpart, heq⟩
      obtain ⟨rfl, rfl⟩ := Item.mapping.inj heq
      exact ⟨driverBuffer sgt, rfl, hpart⟩
    · rintro ⟨m, hm, hpart⟩
      obtain ⟨rfl, rfl⟩ := Registry.init_infos hm
      exact ⟨part, hpart, rfl⟩
  · rw [hmem]
    refine or_iff_right ?_
    rintro ⟨part, -, rfl⟩
    exact hk
  · exact absurd hpart (hnot _ id)

theorem left_init (k : Item) : OwnershipSteps.Left (· ∈ base) (TpceDev.init sgt) k ↔ k ∈ base := by
  refine or_iff_left ?_
  rintro ⟨obj, m, part, -, hm, hkind, -⟩
  obtain ⟨rfl, rfl⟩ := Registry.init_infos hm
  exact hkind.2 rfl

/-- Where the probe gives the driver buffer back -/
theorem dmaFree_init (hbase : ∀ k ∈ base, OwnershipSteps.Elsewhere k) :
    Ends some (stacked (bufferItems 0 256) base) (Ownership.tpceDmaFree (TpceDev.init sgt)) fun _ held' =>
      held' = base := by
  have hbeside : ∀ c k, k ∈ base → ¬OwnershipSteps.OfChannel c k := by
    rintro c k hk (rfl | rfl | rfl)
    · exact hbase _ hk
    · exact hbase _ hk
    · exact hbase _ hk
  apply (OwnershipCalls.dmaFree_given (.init sgt) (holds_init hbase) hbeside fun _ => rfl).mono
  intro _ held' hgiven
  ext k
  rw [hgiven, left_init]
  refine or_iff_left ?_
  rintro ⟨c, -, hstate⟩
  exact hstate rfl

theorem dmaFree_returns (sgt : SgTable) : Returns (Ownership.tpceDmaFree (TpceDev.init sgt)) := by
  have hkept := Registry.Kept.init sgt
  have hunused : ∀ c, (MappingEffects.maps (TpceDev.init sgt)).used c = none := fun _ => rfl
  obtain ⟨dev₁, hfree⟩ := MappingLiveness.freeMappings_returns hkept.consistent hunused
    ((List.range (tpceDmaMapIdMax + 1)).map (BitVec.ofNat 32))
  have herase : erase (Ownership.freeMappings (TpceDev.init sgt)
      ((List.range (tpceDmaMapIdMax + 1)).map (BitVec.ofNat 32))) = .ok dev₁ := by
    rw [Ownership.erase_freeMappings, hfree]
  apply (returns_iff.mpr ⟨_, herase⟩).bind
  intro dev₂ _
  exact returns_iff.mpr ⟨_, Ownership.erase_freeDescriptors ..⟩

end

theorem errorCdevAdd_ends {sgt : SgTable} {ret : ℤ} (hbars : ∀ i, (bars i).vaddr ≠ 0) :
    Ends some (stacked (bufferItems 0 256) (stacked pciItems (stacked deviceItems ∅)))
      (errorCdevAdd (TpceDev.init sgt) bars ret) (Gone ∅ (failureCode ret)) := by
  have hbase : ∀ k ∈ stacked pciItems (stacked deviceItems ∅), OwnershipSteps.Elsewhere k := by
    intro k hk
    rw [mem_stacked, mem_stacked] at hk
    simp only [pciItems, deviceItems, List.mem_cons, List.not_mem_nil, Finset.notMem_empty, or_false] at hk
    rcases hk with (rfl | rfl | rfl | rfl | rfl | rfl) | (rfl | rfl | rfl | rfl | rfl) <;> exact True.intro
  apply (dmaFree_init hbase).bind
  rintro _ _ rfl
  exact errorDmaInit_ends ⟨by decide, fun _ _ => Finset.notMem_empty _⟩ hbars

structure DmaReady (setMask : ℤ) (env : BufferEnv) : Prop where
  mask : setMask = 0
  buffer : Allocates env zeroDev tpceDmaDriverBufferSize tpceDmaBidirectional tpceDmaDriverBufferId

theorem dmaInit_ends {setMask : ℤ} {env : BufferEnv} (h : Apart held (bufferItems 0 256)) :
    Ends some held (tpceDmaInit setMask env zeroDev : Owning ε _) fun r held' =>
      (r.1 ≠ 0 ∧ ¬DmaReady setMask env ∧ held' = held) ∨
      (r = (0, TpceDev.init env.sgt) ∧ DmaReady setMask env ∧ held' = stacked (bufferItems 0 256) held) := by
  apply Ends.ite
  · exact fun hno => Ends.pure (.inl ⟨hno, fun hok => hno hok.mask, rfl⟩)
  intro hmask
  apply (allocBuffer_ends h).bind
  rintro r held' (⟨e, rfl, hne, hno, rfl⟩ | ⟨rfl, hok, rfl⟩)
  · exact Ends.pure (.inl ⟨hne, fun hready => hno hready.buffer, rfl⟩)
  · exact Ends.pure (.inr ⟨rfl, ⟨not_not.mp hmask, hok⟩, rfl⟩)

/-- Nothing is refused up to the device node. -/
structure Ready (env : ProbeEnv) : Prop where
  device : env.kzallocDevOk = true
  ioBuffer : env.kzallocIoBufferOk = true
  minor : 0 ≤ env.freeMinor
  pci : PciReady env.pci
  dma : DmaReady env.setMask env.buffer
  cdev : env.cdevAdd = 0

/-- Everything that a probe acquires, the last one first -/
def probedItems : List Item := [.device, .cdev] ++ bufferItems 0 256 ++ pciItems ++ deviceItems

/-- The device is the one that every run of the driver starts from. -/
def probedBoard (env : ProbeEnv) : Board :=
  ⟨TpceDev.init env.buffer.sgt, mappedBars env.pci zeroBars, env.freeMinor, 1⟩

/-- The probe either ends with all of its resources and a complete device, or with an
error code and nothing, and it does the first exactly if nothing is refused. -/
def Ended (env : ProbeEnv) (r : ℤ × Option Board) (held : Finset Item) : Prop :=
  (Ready env ∧ env.deviceCreate = .ptr ∧ r = (0, some (probedBoard env)) ∧ held = stacked probedItems ∅) ∨
  (¬(Ready env ∧ env.deviceCreate = .ptr) ∧ r.1 < 0 ∧ r.2 = none ∧ held = ∅)

def Handled (env : ProbeEnv) : Prop :=
  ∃ r t held, (tpceDeviceInit env).run = .ok (r, t) ∧ heldAfter ∅ t = some held ∧ Ended env r held

theorem failureCode_neg {ret : ℤ} (h : ret ≤ 0) : failureCode ret < 0 := by
  rw [failureCode]
  split
  · decide
  · rename_i hne
    exact lt_of_le_of_ne h hne

theorem deviceInit_ends {env : ProbeEnv} (hpci : NegativeCodes env.pci) (hcdev : env.cdevAdd ≤ 0) :
    Ends some ∅ (tpceDeviceInit env) fun r held =>
      Ended env r held ∧ ¬(Ready env ∧ ∃ e, env.deviceCreate = .err e) := by
  have hfresh : ∀ {ks : List Item}, ks.Nodup → Apart ∅ ks := fun hnodup => ⟨hnodup, fun _ _ => Finset.notMem_empty _⟩
  have hall : Apart ∅ ([.device, .cdev] ++ (bufferItems 0 256 ++ (pciItems ++ deviceItems))) := hfresh (by decide)
  have hpciAbove : Apart ∅ (pciItems ++ deviceItems) := hall.below.below
  have hdevice : Apart ∅ deviceItems := hpciAbove.below
  have hbuffer : Apart (stacked pciItems (stacked deviceItems ∅)) (bufferItems 0 256) := hall.below.above
  have hnode : Apart (stacked (bufferItems 0 256) (stacked pciItems (stacked deviceItems ∅))) [.device, .cdev] :=
    hall.above
  have hgone : ∀ {ret : ℤ} {held' : Finset Item} {m : Owning Fault ℤ}, failureCode ret < 0 → ¬Ready env →
      Ends some held' m (Gone ∅ (failureCode ret)) →
      Ends some held' (do
        let ret ← adapt ProbeFault.fault m
        pure (ret, none) : Owning ProbeFault (ℤ × Option Board)) fun r held =>
          Ended env r held ∧ ¬(Ready env ∧ ∃ e, env.deviceCreate = .err e) := fun hneg hno hends =>
    failing_ends hends.adapt ⟨.inr ⟨fun hok => hno hok.1, hneg, rfl, rfl⟩, fun hok => hno hok.1⟩
  have hrefused : ∀ {b : Bool}, (!b) = true → ¬b = true := by simp
  apply Ends.ite
  · exact fun hno => hgone (failureCode_neg (by decide)) (fun hok => hrefused hno hok.device) (Ends.pure ⟨rfl, rfl⟩)
  intro hdev
  apply push hdevice.tail.tail.tail.tail rfl
  apply Ends.ite
  · exact fun hno => hgone (failureCode_neg (by decide)) (fun hok => hrefused hno hok.ioBuffer)
      (errorAlloc2_ends hdevice.tail.tail.tail.tail)
  intro hio
  apply push hdevice.tail.tail.tail rfl
  apply Ends.ite
  · exact fun hno => hgone (failureCode_neg le_rfl) (fun hok => not_lt.mpr hok.minor hno)
      (errorIda_ends hdevice.tail.tail.tail)
  intro hminor
  apply push hdevice.tail.tail rfl
  apply push hdevice.tail rfl
  apply push hdevice rfl
  apply (pciInit_ends hpci hpciAbove.above).bind
  rintro ⟨ret, bars⟩ held₁ hinit
  apply Ends.ite
  · intro hne
    rcases hinit with ⟨hneg, hno, rfl⟩ | ⟨heq, -, -⟩
    · exact hgone (failureCode_neg (le_of_lt hneg)) (fun hok => hno hok.pci) (errorPciInit_ends hdevice)
    · exact absurd (congrArg Prod.fst heq) hne
  intro hret
  obtain ⟨hneg, -⟩ | ⟨heq, hpciReady, rfl⟩ := hinit
  · exact absurd (not_not.mp hret) (Int.ne_of_lt hneg)
  obtain ⟨rfl, rfl⟩ := Prod.mk.inj heq
  have hbars : ∀ i, (mappedBars env.pci zeroBars i).vaddr ≠ 0 := mappedBars_vaddr hpciReady
  apply (dmaInit_ends hbuffer).bind
  rintro ⟨err, dev⟩ held₂ hinit
  apply Ends.ite
  · intro hne
    rcases hinit with ⟨-, hno, rfl⟩ | ⟨heq, -, -⟩
    · exact hgone (failureCode_neg le_rfl) (fun hok => hno hok.dma) (errorDmaInit_ends hpciAbove hbars)
    · exact absurd (congrArg Prod.fst heq) hne
  intro herr
  obtain ⟨hne, -⟩ | ⟨heq, hdmaReady, rfl⟩ := hinit
  · exact absurd hne herr
  obtain ⟨rfl, rfl⟩ := Prod.mk.inj heq
  apply Ends.ite
  · exact fun hno => hgone (failureCode_neg hcdev) (fun hok => hno hok.cdev) (errorCdevAdd_ends hbars)
  intro hcdevOk
  have hready : Ready env :=
    ⟨by simpa using hdev, by simpa using hio, not_lt.mp hminor, hpciReady, hdmaReady, not_not.mp hcdevOk⟩
  apply push hnode.tail rfl
  cases hcreate : env.deviceCreate with
  | null =>
      refine failing_ends (Ends.adapt (pop hnode.tail rfl (errorCdevAdd_ends hbars)))
        ⟨.inr ⟨fun hok => ?_, failureCode_neg le_rfl, rfl, rfl⟩, ?_⟩
      · cases hcreate.symm.trans hok.2
      · rintro ⟨-, e, he⟩
        cases he
  | err e => exact Ends.lift fun _ hnever => by cases hnever
  | ptr =>
      apply push hnode rfl
      refine Ends.pure ⟨.inl ⟨hready, hcreate, rfl, rfl⟩, ?_⟩
      rintro ⟨-, e, he⟩
      cases he

theorem iounmap_returns (bars : Bars) (i : Fin 2) : Returns (iounmap bars i : Owning ε Unit) := by
  simp [iounmap]

theorem errorIrq_returns (bars : Bars) (err : ℤ) :
    Returns (errorIrq bars err : Owning ε ℤ) ∧ Returns (errorBar2 bars err : Owning ε ℤ) := by
  have hbar2 : Returns (errorBar2 bars err : Owning ε ℤ) := by
    apply (iounmap_returns bars bar0).bind
    simp [errorBar0, errorRegions]
  exact ⟨(iounmap_returns bars bar2).bind fun _ _ => hbar2, hbar2⟩

theorem mapPciBar_returns (env : PciEnv) (bars : Bars) (resource mempos : ℕ) :
    Returns (mapPciBar env bars resource mempos : Owning ε _) := by
  simp only [mapPciBar]
  split
  · simp
  · simp

theorem pciInit_returns (env : PciEnv) (bars : Bars) : Returns (tpcePciInit env bars : Owning ε _) := by
  simp only [tpcePciInit, returns_ite, returns_emit_bind, returns_bind_pure]
  refine ⟨fun _ => returns_pure _, fun _ => ⟨fun _ => by simp [errorRegions], fun _ => ?_⟩⟩
  apply (mapPciBar_returns env bars 0 0).bind
  intro r _
  simp only [returns_ite, returns_bind_pure]
  refine ⟨fun _ => by simp [errorBar0, errorRegions], fun _ => ?_⟩
  apply (mapPciBar_returns env r.2 2 1).bind
  intro r' _
  simp [errorRequestIrq, errorIrq_returns]

theorem pciFree_returns (bars : Bars) : Returns (tpcePciFree bars : Owning ε Unit) := by
  simp only [tpcePciFree, returns_emit_bind]
  apply (iounmap_returns bars bar0).bind
  intro _ _
  apply (iounmap_returns bars bar2).bind
  simp

theorem allocBuffer_returns (env : BufferEnv) (dev : TpceDev) (size : U32) (dir : U8) (fixedId : U32) :
    Returns (tpceDmaAllocBuffer env dev size dir fixedId : Owning ε _) := by
  simp [tpceDmaAllocBuffer, errorXa, errorMap, errorSgt, errorVmap, errorAlloc]

theorem dmaInit_returns (setMask : ℤ) (env : BufferEnv) (dev : TpceDev) :
    Returns (tpceDmaInit setMask env dev : Owning ε _) := by
  simp only [tpceDmaInit, returns_ite]
  refine ⟨fun _ => returns_pure _, fun _ => ?_⟩
  apply (allocBuffer_returns ..).bind
  rintro ⟨ptr, dev'⟩ _
  cases ptr with
  | err e => exact returns_pure _
  | ptr obj => exact returns_pure _
  | null => exact returns_pure _

theorem errorPciInit_returns (ret : ℤ) : Returns (errorPciInit ret : Owning ε ℤ) := by
  simp [errorPciInit, errorIda, errorAlloc2, errorAlloc1]

theorem errorDmaInit_returns (bars : Bars) (ret : ℤ) : Returns (errorDmaInit bars ret : Owning ε ℤ) :=
  (pciFree_returns bars).bind fun _ _ => errorPciInit_returns ret

theorem errorCdevAdd_returns (sgt : SgTable) (bars : Bars) (ret : ℤ) :
    Returns (errorCdevAdd (TpceDev.init sgt) bars ret) :=
  (dmaFree_returns sgt).bind fun _ _ => errorDmaInit_returns bars ret

theorem deviceInit_returns {env : ProbeEnv} (hpci : NegativeCodes env.pci)
    (hno : ¬(Ready env ∧ ∃ e, env.deviceCreate = .err e)) : Returns (tpceDeviceInit env) := by
  have hempty : ∀ {ks : List Item}, ks.Nodup → Apart ∅ ks := fun hnodup => ⟨hnodup, fun _ _ => Finset.notMem_empty _⟩
  simp only [tpceDeviceInit, returns_ite, returns_emit_bind, returns_bind_pure]
  refine ⟨fun _ => .adapt (by simp [errorAlloc1]), fun hdev => ⟨fun _ => .adapt (by simp [errorAlloc2, errorAlloc1]),
    fun hio => ⟨fun _ => .adapt (by simp [errorIda, errorAlloc2, errorAlloc1]), fun hminor => ?_⟩⟩⟩
  apply (pciInit_returns env.pci zeroBars).after (pciInit_ends hpci (hempty (by decide)))
  rintro ⟨ret, bars⟩ held₁ hinit
  simp only [returns_ite, returns_bind_pure]
  refine ⟨fun _ => .adapt (errorPciInit_returns ret), fun hret => ?_⟩
  obtain ⟨hneg, -⟩ | ⟨-, hpciReady, -⟩ := hinit
  · exact absurd (not_not.mp hret) (Int.ne_of_lt hneg)
  apply (dmaInit_returns env.setMask env.buffer zeroDev).after (dmaInit_ends (hempty (by decide)))
  rintro ⟨err, dev⟩ held₂ hinit
  simp only [returns_ite, returns_emit_bind, returns_bind_pure]
  refine ⟨fun _ => .adapt (errorDmaInit_returns bars ret), fun herr => ?_⟩
  obtain ⟨hne, -⟩ | ⟨heq, hdmaReady, -⟩ := hinit
  · exact absurd hne herr
  obtain ⟨-, rfl⟩ := Prod.mk.inj heq
  refine ⟨fun _ => .adapt (errorCdevAdd_returns _ bars _), fun hcdev => ?_⟩
  have hready : Ready env :=
    ⟨by simpa using hdev, by simpa using hio, not_lt.mp hminor, hpciReady, hdmaReady, not_not.mp hcdev⟩
  cases hcreate : env.deviceCreate with
  | null =>
      have hdelete : Returns (errorDeviceCreate (TpceDev.init env.buffer.sgt) bars 0) :=
        returns_emit_bind.mpr (errorCdevAdd_returns _ bars 0)
      exact returns_bind_pure.mpr hdelete.adapt
  | err e => exact absurd ⟨hready, e, hcreate⟩ hno
  | ptr => simp

/-- A probe is handled in every way that it can be refused, but for an error pointer from
`device_create`: the check of the result looks for NULL. -/
theorem probe_handled (env : ProbeEnv) (hpci : NegativeCodes env.pci) (hcdev : env.cdevAdd ≤ 0) :
    Handled env ↔ ¬(Ready env ∧ ∃ e, env.deviceCreate = .err e) := by
  constructor
  · rintro ⟨r, t, held, hrun, -, -⟩
    obtain ⟨_, -, -, hno⟩ := deviceInit_ends hpci hcdev r t hrun
    exact hno
  · intro hno
    obtain ⟨r, t, hrun⟩ := deviceInit_returns hpci hno
    obtain ⟨held, hheld, hended, -⟩ := deviceInit_ends hpci hcdev r t hrun
    rw [List.filterMap_some] at hheld
    exact ⟨r, t, held, hrun, hheld, hended⟩

/-- Two memory areas of a page each, and a driver buffer in one range -/
def grantedProbe : ProbeEnv where
  kzallocDevOk := true
  kzallocIoBufferOk := true
  freeMinor := 0
  pci := ⟨11, 0, 0, fun _ => 0xf0000000, fun _ => 0x1000, fun paddr _ => paddr, 1, 0⟩
  setMask := 0
  buffer := ⟨true, true, true, 0, 0, true, ⟨.last [⟨0x8000000#64, 0x100000#32, 0⟩], 1⟩⟩
  cdevAdd := 0
  deviceCreate := .ptr

theorem granted_handled : Handled grantedProbe := by
  refine (probe_handled grantedProbe ⟨le_rfl, le_rfl, le_rfl⟩ le_rfl).mpr ?_
  rintro ⟨-, e, he⟩
  cases he

end TpceDrv.ProbeRollback
