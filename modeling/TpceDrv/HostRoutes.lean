import TpceDrv.DescriptorBuffers
import TpceDrv.PrefetcherWalk
import TpceDrv.RegisterRuns
import TpceDrv.StreamStarts

namespace TpceDrv.HostRoutes

open Descriptor DmaParams DmaInfo Mapping PageTable PageTableMap Device Translation RoundTrip ChannelSteps SlotFrames
open Requests Driver RequestSteps RequestAtomicity RunningChannels RegisterRuns DescriptorBuffers PrefetcherWalk
open ActiveDescriptors StreamStarts Library.Runs
open ChannelControl
open MappingInUse (wholePage streamRequest)

variable {env : InitEnv} {req : TpceDmaRequest} {dev dev' dev₁ dev₂ : TpceDev} {c : Channel} {t : MmioWrites}
  {info info' : TpceDmaInfo} {table table' : AlteraPciePageTable} {m m' : Machine} {op : MachineOp}

def activeCount (info : TpceDmaInfo) : ℕ := (info.descActive / descriptorSize).toNat

/-- Where the active descriptors lead through the given registers -/
def routes (written : MmioWrites) (info : TpceDmaInfo) : List (Option U64) :=
  (info.descDma.take (activeCount info)).map fun desc => decode written (tpceDescGetWrite desc)

/-- The active descriptors lead to the host addresses that were given to them. -/
def LeadsHome (written : MmioWrites) (info : TpceDmaInfo) : Prop :=
  routes written info = info.active.map fun desc => some (tpceDescGetWrite desc)

/-- The pages of the active descriptors of a request are revisited in place, behind the
page of the descriptor buffer. -/
def PagesInPlace (info : TpceDmaInfo) : Prop :=
  RevisitsInPlace [pageOf info.descBusAddr] 0 none (info.active.map fun desc => pageOf (tpceDescGetWrite desc))

/-- A request that the call starts, if any, has its pages in place. -/
def StartsInPlace (m : Machine) : MachineOp → Prop
  | .call _ op => ∀ env req (c : Channel) dev₁, validatedRequest m.dev op = some (env, req) →
      c.val = req.params.channel.toNat → initDmaInfo env m.dev c req = .ok (c.val, dev₁) →
        PagesInPlace (dev₁.dmaInfo c)
  | .barWrite _ _ => True

theorem startsInPlace_call {polls : Controller.Polls} {op : Op} : StartsInPlace m (.call polls op) ↔
    ∀ r ∈ validatedRequest m.dev op, ∀ c : Channel, c.val = r.2.params.channel.toNat →
      ∀ out ∈ (initDmaInfo r.1 m.dev c r.2).toOption, out.1 = c.val → PagesInPlace (out.2.dmaInfo c) := by
  constructor
  · rintro h ⟨env, req⟩ hr c hc ⟨err, dev₁⟩ hout rfl
    cases hinit : initDmaInfo env m.dev c req with
    | error e =>
        rw [hinit] at hout
        cases hout
    | ok r =>
        rw [hinit] at hout
        cases hout
        exact h env req c dev₁ hr hc hinit
  · intro h env req c dev₁ hr hc hinit
    exact h (env, req) hr c hc (c.val, dev₁) (congrArg Except.toOption hinit) rfl

instance (info : TpceDmaInfo) : Decidable (PagesInPlace info) :=
  inferInstanceAs (Decidable (RevisitsInPlace _ _ _ _))

instance (m : Machine) (op : MachineOp) : Decidable (StartsInPlace m op) :=
  match op with
  | .call _ _ => decidable_of_iff _ startsInPlace_call.symm
  | .barWrite _ _ => .isTrue True.intro

theorem revisits_congr {known known' : List U64} {newest : U64} {prev : Option U64} {ps : List U64}
    (h : ∀ q, q ∈ known ↔ q ∈ known') :
    RevisitsInPlace known newest prev ps ↔ RevisitsInPlace known' newest prev ps := by
  induction ps generalizing known known' newest prev with
  | nil => exact Iff.rfl
  | cons p ps ih =>
      have hcons : ∀ q, q ∈ p :: known ↔ q ∈ p :: known' := fun q => by rw [List.mem_cons, List.mem_cons, h q]
      have hnewest : (if p ∈ known then newest else p) = if p ∈ known' then newest else p := by
        by_cases hp : p ∈ known
        · rw [if_pos hp, if_pos ((h p).mp hp)]
        · rw [if_neg hp, if_neg fun hp' => hp ((h p).mpr hp')]
      rw [RevisitsInPlace, RevisitsInPlace, ih hcons, hnewest]

/-- A dispatch that succeeds is a start, and the channel runs. -/
theorem dispatch_start (h : dmaDispatch env dev c = (0, dev')) :
    ∃ dev₀ dev₁, dev₀.dmaInfo = dev.dmaInfo ∧ dev₀.pageTable = dev.pageTable ∧ dmaStart env dev₀ c = (0, dev₁) ∧
      dev' = setRunning dev₁ c := by
  have hstart : ∀ dev₀, (if (dmaStart env dev₀ c).1 ≠ 0 then dmaStart env dev₀ c
      else (0, setRunning (dmaStart env dev₀ c).2 c)) = (0, dev') →
        ∃ dev₁, dmaStart env dev₀ c = (0, dev₁) ∧ dev' = setRunning dev₁ c := by
    intro dev₀ hrun
    by_cases hret : (dmaStart env dev₀ c).1 ≠ 0
    · rw [if_pos hret] at hrun
      exact absurd (congrArg Prod.fst hrun) hret
    · rw [if_neg hret] at hrun
      exact ⟨_, Prod.ext (not_not.mp hret) rfl, (Prod.mk.inj hrun).2.symm⟩
  simp only [dmaDispatch] at h
  by_cases hdefault : (dev.dmaInfo c).params.transferMode = tpceDmaModeDefault
  · rw [if_pos hdefault] at h
    obtain ⟨dev₁, hrun, rfl⟩ := hstart dev h
    exact ⟨dev, dev₁, rfl, rfl, hrun, rfl⟩
  rw [if_neg hdefault] at h
  by_cases hstream : (dev.dmaInfo c).params.transferMode = tpceDmaModeStream
  · rw [if_pos hstream] at h
    obtain ⟨dev₁, hrun, rfl⟩ := hstart (enableStreamIrq dev c) h
    exact ⟨enableStreamIrq dev c, dev₁, rfl, rfl, hrun, rfl⟩
  · rw [if_neg hstream] at h
    exact absurd (Prod.mk.inj h).1 (by decide)

/-- The two translations of a start that succeeds -/
theorem start_translates (h : dmaStart env dev c = (0, dev')) : ∃ table₁ info₁ used table₂ info₂,
    translateDescriptorLinkAddr dev.pageTable (dev.dmaInfo c) = (0, table₁, info₁) ∧
      translateDescriptorRwAddr env.slot table₁ info₁ = (used, table₂, info₂) ∧ 0 ≤ used ∧
        dev' = { dev with pageTable := table₂ }.setInfo c (buildDescriptorLinks info₂) := by
  simp only [dmaStart] at h
  by_cases hstate : (dev.dmaInfo c).state ≠ .initialized
  · rw [if_pos hstate] at h
    exact absurd (Prod.mk.inj h).1 (by decide)
  rw [if_neg hstate] at h
  cases hlink : translateDescriptorLinkAddr dev.pageTable (dev.dmaInfo c) with
  | mk ret₁ r₁ =>
      obtain ⟨table₁, info₁⟩ := r₁
      obtain ⟨-, hle⟩ := linkAddr_spec hlink
      simp only [hlink] at h
      by_cases hneg : ret₁ < 0
      · rw [if_pos hneg] at h
        have := (Prod.mk.inj h).1
        omega
      rw [if_neg hneg] at h
      obtain rfl : ret₁ = 0 := by omega
      cases hrw : translateDescriptorRwAddr env.slot table₁ info₁ with
      | mk ret₂ r₂ =>
          obtain ⟨table₂, info₂⟩ := r₂
          simp only [hrw] at h
          by_cases hneg₂ : ret₂ < 0
          · rw [if_pos hneg₂] at h
            have := (Prod.mk.inj h).1
            omega
          rw [if_neg hneg₂] at h
          exact ⟨table₁, info₁, ret₂, table₂, info₂, rfl, hrw, by omega, (Prod.mk.inj h).2.symm⟩

theorem activeCount_le_numDescriptors {params : TpceDmaTransferParams} (h : Sized params info) :
    activeCount info ≤ numDescriptors info := by
  have hactive : activeCount info = info.descActive.toNat / 64 := toNat_div_descriptorSize _
  have hsize : numDescriptors info = info.descSize.toNat / 64 := toNat_div_descriptorSize _
  have hsum := h.size
  split at hsum
  · omega
  · omega

/-- What `init_dma_info` has copied for the device -/
theorem copied_active {obj : ℕ} {m : TpceDmaMapInfo} {prep : TpceDmaInfo}
    (hacc : Initialized env dev c req obj m prep info dev₁) (hsized : Sized req.params (dev₁.dmaInfo c)) :
    (dev₁.dmaInfo c).descDma.take (activeCount (dev₁.dmaInfo c)) = (dev₁.dmaInfo c).active := by
  have hle := activeCount_le_numDescriptors hsized
  have hinfo : info = { prep with streamInfo := info.streamInfo } := by
    by_cases hmode : req.params.transferMode = tpceDmaModeStream
    · exact initStreamInfo_same (hacc.stream hmode)
    · rw [hacc.plain hmode]
  rw [initialized_info hacc, hinfo] at hle ⊢
  exact (prepared_buffer hacc.prepared).2 hle

/-- The links leave what the active descriptors say otherwise. -/
theorem links_keep_active {α : Type} {f : TpceDmaDescriptor → α} (hf : ∀ desc next, f (linkDesc desc next) = f desc)
    {params : TpceDmaTransferParams} (h : Sized params info) (hparams : info.params = params) :
    ((buildDescriptorLinks info).descDma.take (activeCount info)).map f =
      (info.descDma.take (activeCount info)).map f := by
  have hactive : activeCount info = info.descActive.toNat / 64 := toNat_div_descriptorSize _
  have hnum : (info.descSize / descriptorSize).toNat = info.descSize.toNat / 64 := toNat_div_descriptorSize _
  have hsum := h.size
  apply List.ext_getElem
  · simp only [buildDescriptorLinks, List.length_map, List.length_take, List.length_mapIdx]
  intro i hi _
  rw [List.length_map, List.length_take] at hi
  simp only [buildDescriptorLinks, List.getElem_map, List.getElem_take, List.getElem_mapIdx]
  by_cases hlink : i + 1 < (info.descSize / descriptorSize).toNat
  · rw [if_pos hlink, hf]
  rw [if_neg hlink]
  by_cases hmode : info.params.transferMode = tpceDmaModeStream
  · by_cases hring : i + 1 = (info.descSize / descriptorSize).toNat
    · rw [if_pos hring, if_pos hmode, hf]
    · rw [if_neg hring]
  · have hlast : tpceDmaHasTerminatingDescriptor params = true := by
      rw [← hparams]
      exact decide_eq_true hmode
    rw [hlast, if_pos rfl] at hsum
    omega

theorem map_of_forall₂ {l l' : List TpceDmaDescriptor} {channel : U8}
    (h : List.Forall₂ (LeadsBack table channel) l l') :
    l'.map (fun desc => decode (setPageTranslationRegs table channel) (tpceDescGetWrite desc)) =
      l.map fun desc => some (tpceDescGetWrite desc) := by
  induction h with
  | nil => rfl
  | cons hback _ ih => rw [List.map_cons, List.map_cons, ih, hback]

theorem linkAddr_slots (h : translateDescriptorLinkAddr table info = (0, table', info')) : ∃ slot,
    slots table' = Function.update (slots table) slot (some (pageOf info.descBusAddr, info.params.channel)) := by
  simp only [translateDescriptorLinkAddr] at h
  rcases pciePageAlloc_spec table (info.descBusAddr &&& alteraAddrTranslationMask64) info.params.channel with
    ⟨slot, -, halloc⟩ | ⟨-, halloc⟩
  · rw [halloc] at h
    rw [if_neg (by dsimp only; omega)] at h
    cases h
    exact ⟨slot, slots_store table slot _ _⟩
  · rw [halloc] at h
    rw [if_pos rfl] at h
    cases h

/-- A channel that had no page has the one of its descriptor buffer first. -/
theorem knownPages_link {channel : U8} {slot : Fin 16} {p : U64} (hnone : ∀ i q, slots table i ≠ some (q, channel))
    (hslots : slots table' = Function.update (slots table) slot (some (p, channel))) (q : U64) :
    q ∈ [p] ↔ q ∈ knownPages table' channel := by
  rw [List.mem_singleton, mem_knownPages, hslots]
  constructor
  · rintro rfl
    exact ⟨slot, Function.update_self ..⟩
  · rintro ⟨i, hi⟩
    by_cases his : i = slot
    · rw [his, Function.update_self] at hi
      exact (Prod.mk.inj (Option.some.inj hi)).1.symm
    · rw [Function.update_of_ne his] at hi
      exact absurd hi (hnone i q)

/-- A start whose pages are in place leads its active descriptors home. -/
theorem leadsHome_of_start {obj : ℕ} {m : TpceDmaMapInfo} {prep : TpceDmaInfo}
    (hc : c.val = req.params.channel.toNat) (hidle : (dev.dmaInfo c).state = .idle) (hclean : CleanAt dev c)
    (hacc : Initialized env dev c req obj m prep info dev₁) (hsized : Sized req.params (dev₁.dmaInfo c))
    (hdisp : dmaDispatch env dev₁ c = (0, dev₂)) (hpages : PagesInPlace (dev₁.dmaInfo c)) :
    LeadsHome (setPageTranslationRegs dev₂.pageTable c.id) (dev₂.dmaInfo c) := by
  obtain ⟨dev₀, dev₃, hinfo, htable, hstart, rfl⟩ := dispatch_start hdisp
  obtain ⟨table₁, info₁, used, table₂, info₂, hlink, hrw, hused, rfl⟩ := start_translates hstart
  rw [hinfo, htable] at hlink
  obtain ⟨-, -, -, -, -, hinfo₁⟩ := linked_of_linkAddr hlink
  obtain ⟨slot, hslots⟩ := linkAddr_slots hlink
  have hparams : (dev₁.dmaInfo c).params = req.params := initialized_params hacc
  have hchannel : info₁.params.channel = c.id := by
    rw [hinfo₁]
    dsimp only
    rw [hparams, channel_id hc]
  have hnonneg : 0 ≤ (translateDescriptorRwAddr env.slot table₁ info₁).1 := by
    rw [hrw]
    exact hused
  have hdir := (PageSlots.rwAddr_nonneg.mp hnonneg).1
  have hdma : info₁.descDma.take (activeCount info₁) = (dev₁.dmaInfo c).active := by
    rw [hinfo₁]
    exact copied_active hacc hsized
  have hknown : ∀ q, q ∈ [pageOf (dev₁.dmaInfo c).descBusAddr] ↔ q ∈ knownPages table₁ info₁.params.channel := by
    have hbefore : dev₁.pageTable = dev.pageTable := by
      rw [hacc.result]
      rfl
    rw [hparams, channel_id hc, hbefore] at hslots
    rw [hchannel]
    exact knownPages_link (hclean.untagged hidle) hslots
  have htrips : RoundTrips env.slot table₁ info₁ := by
    refine (round_trip_iff ?_ hdir hnonneg).mpr ?_ env.slot
    · rw [hchannel, channel_toNat]
      exact c.isLt
    · have hactive : activePages info₁ =
          (dev₁.dmaInfo c).active.map fun desc => pageOf (tpceDescGetWrite desc) := congrArg _ hdma
      rw [hactive]
      exact (revisits_congr hknown).mp hpages
  have hback := map_of_forall₂ htrips
  have hinfo₂ := rwAddr_eq env.slot table₁ info₁
  rw [hrw] at hback hinfo₂
  dsimp only at hback hinfo₂
  have hparams₂ : info₂.params = req.params := by rw [hinfo₂, hinfo₁, hparams]
  have hsized₂ : Sized req.params info₂ := by
    rw [hinfo₂, hinfo₁]
    exact ⟨hsized.active, hsized.size, hsized.fits⟩
  have hcount : (info₁.descActive / descriptorSize).toNat = activeCount info₂ := by
    rw [hinfo₂]
    rfl
  have hdesc : info₂.active = (dev₁.dmaInfo c).active := by
    rw [hinfo₂, hinfo₁]
    rfl
  have hself : (setRunning ({ dev₀ with pageTable := table₂ }.setInfo c (buildDescriptorLinks info₂)) c).dmaInfo c =
      { buildDescriptorLinks info₂ with state := .running } := by
    rw [setRunning, setInfo_dmaInfo, setInfo_dmaInfo]
  have hkept := links_keep_active (f := tpceDescGetWrite) (fun _ _ => rfl) hsized₂ hparams₂
  rw [LeadsHome, hself]
  have hroutes : routes (setPageTranslationRegs table₂ c.id) { buildDescriptorLinks info₂ with state := .running } =
      (((buildDescriptorLinks info₂).descDma.take (activeCount info₂)).map tpceDescGetWrite).map
        (decode (setPageTranslationRegs table₂ c.id)) := by
    rw [List.map_map]
    rfl
  rw [hcount, hchannel, ← hcount] at hback
  refine hroutes.trans ?_
  rw [hkept, List.map_map, ← hcount]
  refine hback.trans ?_
  have hfrom : (info₁.descDma.take (info₁.descActive / descriptorSize).toNat) = (dev₁.dmaInfo c).active := hdma
  rw [hfrom, ← hdesc]
  rfl

theorem decode_of_written {regs written : MmioWrites} {addr b : U64}
    (h : ∀ w ∈ regs, writtenValue written w.1 = some w.2) (hdecode : decode regs addr = some b) :
    decode written addr = some b := by
  have hvalue : ∀ offset v, writtenValue regs offset = some v → writtenValue written offset = some v := by
    intro offset v hv
    simp only [writtenValue] at hv
    obtain ⟨w, hw, rfl⟩ := Option.map_eq_some_iff.mp hv
    have hoffset : w.1 = offset := by simpa using List.find?_some hw
    rw [← hoffset]
    exact h w (List.mem_reverse.mp (List.mem_of_find?_eq_some hw))
  simp only [decode] at hdecode
  cases hlo : writtenValue regs (alteraPcieAvalonAddrTranslationLower + 8 * (addr >>> alteraAddrPageSize).toNat) with
  | none =>
      rw [hlo] at hdecode
      cases hdecode
  | some lo =>
      cases hhi : writtenValue regs
          (alteraPcieAvalonAddrTranslationUpper + 8 * (addr >>> alteraAddrPageSize).toNat) with
      | none =>
          rw [hlo, hhi] at hdecode
          cases hdecode
      | some hi =>
          rw [hlo, hhi] at hdecode
          simp only [decode]
          rw [hvalue _ _ hlo, hvalue _ _ hhi]
          exact hdecode

/-- What leads home through the slots of the table does so through the registers that
hold them. -/
theorem LeadsHome.written {regs written : MmioWrites} (h : LeadsHome regs info)
    (hregs : ∀ w ∈ regs, writtenValue written w.1 = some w.2) : LeadsHome written info := by
  have hlen := congrArg List.length h
  simp only [routes, List.length_map] at hlen
  refine List.ext_getElem (by simpa only [routes, List.length_map] using hlen) fun i hi hi' => ?_
  have hroute := List.getElem_of_eq h (by simpa only [routes, List.length_map] using hi)
  simp only [routes, List.getElem_map] at hroute ⊢
  exact decode_of_written hregs hroute

/-- What holds of the machine between two calls while nobody disturbs the channels -/
structure Guided (m : Machine) : Prop where
  sound : Sound m
  clean : Clean m.dev
  buffered : AllBuffered (fun _ _ => True) m.dev
  home : ∀ c, (m.dev.dmaInfo c).state = .running →
    LeadsHome (setPageTranslationRegs m.dev.pageTable c.id) (m.dev.dmaInfo c)

theorem guided_init (sgt : SgTable) : Guided (.init sgt) where
  sound := sound_init sgt
  clean := clean_init sgt
  buffered := buffered_init sgt True.intro
  home := fun _ h => absurd h TpceDmaChannelState.noConfusion

theorem leadsHome_of_goesOn (h : GoesOn dev dev' c)
    (hhome : LeadsHome (setPageTranslationRegs dev.pageTable c.id) (dev.dmaInfo c)) :
    LeadsHome (setPageTranslationRegs dev'.pageTable c.id) (dev'.dmaInfo c) := by
  rw [setPageTranslationRegs_congr h.slots, h.info]
  exact hhome

/-- The channel that a call starts leads home, and the others still do. -/
theorem leadsHome_of_starts (h : Guided m) {polls : Controller.Polls} {op : Op}
    (hplaced : StartsInPlace m (.call polls op)) (hvalid : validatedRequest m.dev op = some (env, req))
    (hs : Starts env req m.dev t dev' c) (c' : Channel) (hrun : (dev'.dmaInfo c').state = .running) :
    LeadsHome (setPageTranslationRegs dev'.pageTable c'.id) (dev'.dmaInfo c') := by
  by_cases hc : c' = c
  · subst hc
    obtain ⟨obj, mapping, prep, info, dev₁, dev₂, hacc, hdisp, hinfo, htable⟩ := hs.setUp
    obtain ⟨fileCtx, c₀, mapInfo, hreq⟩ := validatedRequest_valid hvalid
    obtain ⟨-, hsized⟩ := initDmaInfo_buffered hacc.accepted (h.buffered c') True.intro (fun _ _ => True.intro)
      (ValidRequest.suppliedSize hreq)
    rw [hinfo, htable]
    exact leadsHome_of_start hs.request hs.idle (h.clean c') hacc (hsized (Int.natCast_nonneg _)) hdisp
      (hplaced env req c' dev₁ hvalid hs.request hacc.accepted)
  · have hinfo := hs.others c' hc
    have hslots : ∀ i v, slots dev'.pageTable i = some (v, c'.id) ↔ slots m.dev.pageTable i = some (v, c'.id) :=
      fun i v => hs.slots i v c'.id fun hid => hc (id_inj hid)
    rw [hinfo] at hrun ⊢
    rw [setPageTranslationRegs_congr hslots]
    exact h.home c' hrun

theorem Guided.step (h : Guided m) (hop : Undisturbed m op) (hplaced : StartsInPlace m op)
    (hstep : m.step op = some m') : Guided m' := by
  have hsound := h.sound.step hop hstep
  cases op with
  | call polls op =>
      have hcall := step_refines hstep
      have hbuffered := step_buffered True.intro h.buffered (fun _ _ _ _ _ => True.intro) hcall
      refine ⟨hsound, step_clean h.clean hcall, hbuffered, ?_⟩
      obtain ⟨hen, out, t, hrun, -⟩ := step_call hstep
      rcases call_cases h.sound.owned hen hop hrun with hs | ⟨env, req, c, hvalid, hs⟩
      · intro c hc
        have hgoes := hs.goesOn c hc
        exact leadsHome_of_goesOn hgoes (h.home c hgoes.before)
      · exact leadsHome_of_starts h hplaced hvalid hs
  | barWrite file writes =>
      obtain rfl := step_barWrite hstep
      exact ⟨hsound, h.clean, h.buffered, h.home⟩

/-- While a channel runs, its active descriptors lead through the registers of the
device to the host addresses that they were given. -/
theorem routes_lead_home (sgt : SgTable) (ops : List MachineOp)
    (h : Along Machine.step (fun m op => Undisturbed m op ∧ StartsInPlace m op) (.init sgt) ops) :
    Always Machine.step (fun m => ∀ c, (m.dev.dmaInfo c).state = .running → LeadsHome m.written (m.dev.dmaInfo c))
      (.init sgt) ops := by
  refine (always_of_along (fun _ _ _ h hop hstep => h.step hop.1 hop.2 hstep) (guided_init sgt) h).mono ?_
  intro m hguided c hrun
  exact (hguided.home c hrun).written fun w hw => hguided.sound.programmed c hrun w (List.mem_append_left _ hw)

def driverTable : SgTable := ⟨.last [⟨0x8000000#64, 0x100000#32, 0⟩], 1⟩

/-- A read for a file into two pages of the driver's buffer -/
def twoPageRead : KernelRead where
  deviceAddr := 0x1000
  bytesTotal := 0x40040
  readStride := 0
  writeStride := 0
  channel := 0
  burstCount := 0

def issued (op : Op) : MachineOp := .call (fun _ _ => true) op

def lockPage (env : LockEnv) : MachineOp := issued (.lockBuffer 0 env ⟨0x10000#64, 4096, 0, 0, tpceDmaFromDevice⟩)

def startStream (descBusAddr : U64) (req : TpceDmaRequest) : MachineOp :=
  issued (.execute 0 { InitEnv.granted with dmaAllocCoherent := some descBusAddr } req)

def readCall : MachineOp := issued (.kernelRead 0 .granted twoPageRead)

/-- Two streams start, and the second one is cancelled. -/
def oneStreamLeft : List MachineOp :=
  [issued .openFile, lockPage wholePage, startStream 0x240000 (streamRequest 1),
    lockPage { wholePage with sgt := ⟨.last [⟨0x140000#64, 4096#32, 0⟩], 1⟩ },
    startStream 0x280000 { streamRequest 2 with id := 3 }, issued (.cancel 0 2)]

def readBesideStream : List MachineOp := oneStreamLeft ++ readCall :: [issued .openFile]

theorem readBesideStream_along :
    Along Machine.step (fun m op => Undisturbed m op ∧ StartsInPlace m op) (.init driverTable) readBesideStream := by
  decide +kernel

theorem readBesideStream_leads_home : ∃ m, run Machine.step (.init driverTable) readBesideStream = some m ∧
    ((m.dev.dmaInfo 0).state = .running ∧ LeadsHome m.written (m.dev.dmaInfo 0)) ∧
      (m.dev.dmaInfo 1).state = .running ∧ LeadsHome m.written (m.dev.dmaInfo 1) := by
  have hruns : ∃ m ∈ run Machine.step (.init driverTable) readBesideStream,
      (m.dev.dmaInfo 0).state = .running ∧ (m.dev.dmaInfo 1).state = .running := by decide +kernel
  obtain ⟨m, hrun, hread, hstream⟩ := hruns
  have hhome := always_iff_prefix.mp (routes_lead_home driverTable _ readBesideStream_along) _ []
    (List.append_nil _).symm m hrun
  exact ⟨m, hrun, ⟨hread, hhome 0 hread⟩, hstream, hhome 1 hstream⟩

end TpceDrv.HostRoutes
