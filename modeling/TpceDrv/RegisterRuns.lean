import TpceDrv.RunningChannels
import TpceDrv.RoundTrip

namespace TpceDrv.RegisterRuns

open Descriptor DmaParams DmaInfo Mapping PageTable PageTableMap Device Translation RoundTrip ChannelSteps SlotFrames
open Driver RequestSteps RequestAtomicity Controller RunningChannels Library.Runs Library.Traces

/-- The driver's data of a device with all that was written to the registers of BAR2,
oldest first -/
structure Machine where
  dev : TpceDev
  written : MmioWrites

def Machine.init (sgt : SgTable) : Machine := ⟨TpceDev.init sgt, []⟩

/-- A call of the driver, or an access of userspace to BAR2 with the registers that it
changes -/
inductive MachineOp
  | call (polls : Polls) (op : Op)
  | barWrite (file : ℕ) (writes : MmioWrites)

def Machine.step (m : Machine) : MachineOp → Option Machine
  | .call polls op =>
      if enabled m.dev op then
        match (Controller.perform polls m.dev op).run with
        | .ok (r, t) => some ⟨r.2, m.written ++ t⟩
        | .error _ => none
      else none
  | .barWrite file writes =>
      if mutexFree m.dev && m.dev.files.contains file && !m.dev.goingAway then some ⟨m.dev, m.written ++ writes⟩
      else none

def controllerRegs (c : Channel) (info : TpceDmaInfo) : MmioWrites :=
  [(tpceDmaCsr c.id alteraMsgdmaCsrControlReg, 0),
    (tpceDmaPrefetcherCsr c.id altMsgdmaPrefetcherNextDescriptorPtrLowReg, info.descBusAddrTranslated),
    (tpceDmaPrefetcherCsr c.id altMsgdmaPrefetcherNextDescriptorPtrHighReg, 0),
    (tpceDmaPrefetcherCsr c.id altMsgdmaPrefetcherControlReg, controlValue info.params ||| prefetcherCtrlRunSetMask)]

/-- The registers that a running channel depends on, with the values that its data and
the page table have for them. These are what its start has written
(`start_kept`). -/
def programmed (dev : TpceDev) (c : Channel) : MmioWrites :=
  setPageTranslationRegs dev.pageTable c.id ++ controllerRegs c (dev.dmaInfo c)

def Programmed (m : Machine) : Prop :=
  ∀ c, (m.dev.dmaInfo c).state = .running → ∀ w ∈ programmed m.dev c, writtenValue m.written w.1 = some w.2

/-- No running channel is reset in the place of another one, and userspace gives its
registers no other value. -/
def Undisturbed (m : Machine) : MachineOp → Prop
  | .call _ op => ∀ c, (m.dev.dmaInfo c).state = .running → ¬Stray m.dev op c
  | .barWrite _ writes => ∀ c, (m.dev.dmaInfo c).state = .running →
      ∀ w ∈ programmed m.dev c, ∀ v, writtenValue writes w.1 = some v → v = w.2

instance (m : Machine) (op : MachineOp) : Decidable (Undisturbed m op) :=
  match op with
  | .call _ op => inferInstanceAs (Decidable (∀ c, (m.dev.dmaInfo c).state = .running → ¬Stray m.dev op c))
  | .barWrite _ writes => inferInstanceAs (Decidable (∀ c, (m.dev.dmaInfo c).state = .running →
      ∀ w ∈ programmed m.dev c, ∀ v ∈ writtenValue writes w.1, v = w.2))

variable {m m' : Machine} {op : MachineOp} {dev dev' : TpceDev} {c c' : Channel} {t u : MmioWrites} {offset : ℕ}
  {w : ℕ × U32}

theorem writtenValue_append (t u : MmioWrites) (offset : ℕ) :
    writtenValue (t ++ u) offset = (writtenValue u offset).or (writtenValue t offset) := by
  simp only [writtenValue, List.reverse_append, List.find?_append, Option.map_or]

theorem writtenValue_append_of_avoids (h : ∀ w ∈ u, w.1 ≠ offset) :
    writtenValue (t ++ u) offset = writtenValue t offset := by
  have hnone : writtenValue u offset = none := writtenValue_eq_none fun v hv => h _ hv rfl
  rw [writtenValue_append, hnone]
  rfl

theorem writtenValue_append_of_some {v : U32} (h : writtenValue u offset = some v) :
    writtenValue (t ++ u) offset = some v := by
  rw [writtenValue_append, h]
  rfl

theorem channel_toNat (c : Channel) : c.id.toNat = c.val := by
  revert c
  decide

theorem inController_unique {channel channel' : U8} (h : InController channel offset)
    (h' : InController channel' offset) : channel = channel' := by
  apply BitVec.eq_of_toNat_eq
  simp only [InController] at h h'
  omega

theorem setPageTranslationRegs_below {table : AlteraPciePageTable} {channel : U8}
    (h : w ∈ setPageTranslationRegs table channel) : w.1 < 0x4000 := by
  obtain ⟨offset, v⟩ := w
  obtain ⟨i, -, ⟨rfl, -⟩ | ⟨rfl, -⟩⟩ := mem_setPageTranslationRegs.mp h
  · simp only [alteraPcieAvalonAddrTranslationLower]
    omega
  · simp only [alteraPcieAvalonAddrTranslationUpper]
    omega

theorem controllerRegs_inController {info : TpceDmaInfo} (h : w ∈ controllerRegs c info) :
    InController c.id w.1 := by
  simp only [controllerRegs, List.mem_cons, List.not_mem_nil, or_false] at h
  rcases h with rfl | rfl | rfl | rfl
  · simp only [InController, tpceDmaCsr, alteraMsgdmaCsrControlReg]
    omega
  · simp only [InController, tpceDmaPrefetcherCsr, altMsgdmaPrefetcherNextDescriptorPtrLowReg]
    omega
  · simp only [InController, tpceDmaPrefetcherCsr, altMsgdmaPrefetcherNextDescriptorPtrHighReg]
    omega
  · simp only [InController, tpceDmaPrefetcherCsr, altMsgdmaPrefetcherControlReg]
    omega

theorem startDmaController_inController {info : TpceDmaInfo} (h : w ∈ startDmaController info) :
    InController info.params.channel w.1 := by
  simp only [startDmaController, List.mem_cons, List.not_mem_nil, or_false] at h
  rcases h with rfl | rfl | rfl | rfl | rfl
  · simp only [InController, tpceDmaCsr, alteraMsgdmaCsrControlReg]
    omega
  · simp only [InController, tpceDmaPrefetcherCsr, altMsgdmaPrefetcherNextDescriptorPtrLowReg]
    omega
  · simp only [InController, tpceDmaPrefetcherCsr, altMsgdmaPrefetcherNextDescriptorPtrHighReg]
    omega
  · simp only [InController, tpceDmaPrefetcherCsr, altMsgdmaPrefetcherControlReg]
    omega
  · simp only [InController, tpceDmaPrefetcherCsr, altMsgdmaPrefetcherControlReg]
    omega

theorem programmed_place (h : w ∈ programmed dev c) : w.1 < 0x4000 ∨ InController c.id w.1 := by
  rcases List.mem_append.mp h with h | h
  · exact .inl (setPageTranslationRegs_below h)
  · exact .inr (controllerRegs_inController h)

theorem setPageTranslationRegs_congr {table table' : AlteraPciePageTable} {channel : U8}
    (h : ∀ i v, slots table' i = some (v, channel) ↔ slots table i = some (v, channel)) :
    setPageTranslationRegs table' channel = setPageTranslationRegs table channel := by
  simp only [setPageTranslationRegs]
  congr 1
  funext i
  have hactive : pciePageActive table' i channel = true ↔ pciePageActive table i channel = true := by
    rw [pciePageActive_iff, pciePageActive_iff]
    exact exists_congr fun v => h i v
  by_cases hi : pciePageActive table i channel = true
  · obtain ⟨v, hv⟩ := pciePageActive_iff.mp hi
    rw [if_pos hi, if_pos (hactive.mpr hi), (slots_eq_some.mp hv).2.1, (slots_eq_some.mp ((h i v).mpr hv)).2.1]
  · rw [if_neg hi, if_neg fun hi' => hi (hactive.mp hi')]

theorem programmed_congr (htransfer : (dev'.dmaInfo c).descBusAddrTranslated = (dev.dmaInfo c).descBusAddrTranslated)
    (hparams : (dev'.dmaInfo c).params = (dev.dmaInfo c).params)
    (hslots : ∀ i v, slots dev'.pageTable i = some (v, c.id) ↔ slots dev.pageTable i = some (v, c.id)) :
    programmed dev' c = programmed dev c := by
  rw [programmed, programmed, setPageTranslationRegs_congr hslots, controllerRegs, controllerRegs, htransfer, hparams]

theorem programmed_goesOn (h : GoesOn dev dev' c) : programmed dev' c = programmed dev c := by
  apply programmed_congr _ _ h.slots
  · rw [h.info]
  · rw [h.info]

theorem controlValue_run (params : TpceDmaTransferParams) :
    controlValue params ||| prefetcherCtrlRunSetMask ≠ prefetcherCtrlResetSetMask := by
  simp only [controlValue]
  split
  · decide
  · decide

theorem writtenValue_startDmaController {info : TpceDmaInfo} (hchannel : info.params.channel = c.id)
    (h : w ∈ controllerRegs c info) : writtenValue (startDmaController info) w.1 = some w.2 := by
  have hctl : ∀ reg, reg ≠ altMsgdmaPrefetcherControlReg →
      tpceDmaPrefetcherCsr c.id altMsgdmaPrefetcherControlReg ≠ tpceDmaPrefetcherCsr c.id reg := by
    intro reg hreg heq
    simp only [tpceDmaPrefetcherCsr] at heq
    omega
  have hcsr : ∀ reg, tpceDmaPrefetcherCsr c.id reg ≠ tpceDmaCsr c.id alteraMsgdmaCsrControlReg := by
    intro reg heq
    simp only [tpceDmaPrefetcherCsr, tpceDmaCsr, alteraMsgdmaCsrControlReg] at heq
    omega
  have hhigh : tpceDmaPrefetcherCsr c.id altMsgdmaPrefetcherNextDescriptorPtrHighReg ≠
      tpceDmaPrefetcherCsr c.id altMsgdmaPrefetcherNextDescriptorPtrLowReg := by
    simp [tpceDmaPrefetcherCsr, altMsgdmaPrefetcherNextDescriptorPtrHighReg,
      altMsgdmaPrefetcherNextDescriptorPtrLowReg]
  have hlow := hctl altMsgdmaPrefetcherNextDescriptorPtrLowReg (by decide)
  have hhigh' := hctl altMsgdmaPrefetcherNextDescriptorPtrHighReg (by decide)
  simp only [controllerRegs, List.mem_cons, List.not_mem_nil, or_false] at h
  simp only [startDmaController, hchannel, writtenValue, List.reverse_cons, List.reverse_nil, List.nil_append,
    List.cons_append]
  rcases h with rfl | rfl | rfl | rfl
  · simp [hcsr]
  · simp [hlow, hhigh]
  · simp [hhigh']
  · simp

theorem writtenValue_setPageTranslationRegs {table : AlteraPciePageTable} {channel : U8}
    (h : w ∈ setPageTranslationRegs table channel) :
    writtenValue (setPageTranslationRegs table channel) w.1 = some w.2 := by
  obtain ⟨offset, v⟩ := w
  refine writtenValue_eq_some h fun v' h' => ?_
  obtain ⟨i, -, ⟨hi, rfl⟩ | ⟨hi, rfl⟩⟩ := mem_setPageTranslationRegs.mp h
  · obtain ⟨j, -, ⟨hj, rfl⟩ | ⟨hj, rfl⟩⟩ := mem_setPageTranslationRegs.mp h'
    · obtain rfl : i = j := Fin.ext (by omega)
      rfl
    · simp only [alteraPcieAvalonAddrTranslationLower, alteraPcieAvalonAddrTranslationUpper] at hi hj
      omega
  · obtain ⟨j, -, ⟨hj, rfl⟩ | ⟨hj, rfl⟩⟩ := mem_setPageTranslationRegs.mp h'
    · simp only [alteraPcieAvalonAddrTranslationLower, alteraPcieAvalonAddrTranslationUpper] at hi hj
      omega
    · obtain rfl : i = j := Fin.ext (by omega)
      rfl

/-- A start programs its channel. -/
theorem writtenValue_startWrites (hchannel : (dev.dmaInfo c).params.channel = c.id) (h : w ∈ programmed dev c) :
    writtenValue (t ++ startWrites dev c) w.1 = some w.2 := by
  rw [startWrites, ← List.append_assoc, hchannel]
  rcases List.mem_append.mp h with h | h
  · rw [writtenValue_append_of_avoids fun u hu heq => ?_]
    · exact writtenValue_append_of_some (writtenValue_setPageTranslationRegs h)
    · have hin := (startDmaController_inController hu).1
      have hbelow := setPageTranslationRegs_below h
      omega
  · exact writtenValue_append_of_some (writtenValue_startDmaController hchannel h)

/-- Two channels have no slot and no register in common. -/
theorem programmed_avoids_start (hne : c' ≠ c) (hchannel : (dev.dmaInfo c).params.channel = c.id)
    (h : w ∈ programmed dev c') : ∀ u ∈ startWrites dev c, u.1 ≠ w.1 := by
  intro u hu heq
  have hid : c'.id ≠ c.id := fun hid => hne (id_inj hid)
  rw [startWrites, hchannel] at hu
  rcases List.mem_append.mp hu with hu | hu
  · rcases List.mem_append.mp h with h | h
    · obtain ⟨o, v⟩ := u
      obtain ⟨o', v'⟩ := w
      obtain ⟨i, hi, hio⟩ := mem_setPageTranslationRegs.mp hu
      obtain ⟨j, hj, hjo⟩ := mem_setPageTranslationRegs.mp h
      simp only [alteraPcieAvalonAddrTranslationLower, alteraPcieAvalonAddrTranslationUpper] at hio hjo
      obtain rfl : i = j := Fin.ext (by omega)
      obtain ⟨p, hp⟩ := pciePageActive_iff.mp hi
      obtain ⟨q, hq⟩ := pciePageActive_iff.mp hj
      exact hid (Prod.mk.inj (Option.some.inj (hq.symm.trans hp))).2
    · have hin := (controllerRegs_inController h).1
      have hbelow := setPageTranslationRegs_below hu
      omega
  · have hin := startDmaController_inController hu
    rw [hchannel] at hin
    rcases programmed_place h with hlow | hin'
    · have hge := hin.1
      omega
    · rw [← heq] at hin'
      exact hid (inController_unique hin' hin)

structure Sound (m : Machine) : Prop where
  owned : Owned m.dev
  programmed : Programmed m

theorem owned_init (sgt : SgTable) : Owned (TpceDev.init sgt) where
  busy := fun _ h => absurd rfl h
  marked := fun obj m c hm hact => by
    simp only [TpceDev.init] at hm
    by_cases hobj : obj = 0
    · subst hobj
      rw [Function.update_self] at hm
      cases hm
      exact absurd hact (MappingInUse.inactive_ne c)
    · rw [Function.update_of_ne hobj] at hm
      cases hm

theorem sound_init (sgt : SgTable) : Sound (.init sgt) where
  owned := owned_init sgt
  programmed := fun _ h => absurd h TpceDmaChannelState.noConfusion

theorem Programmed.subsides (h : Programmed m) (hs : Subsides m.dev t dev') : Programmed ⟨dev', m.written ++ t⟩ := by
  intro c hrun w hw
  have hgoes := hs.goesOn c hrun
  rw [programmed_goesOn hgoes] at hw
  refine (writtenValue_append_of_avoids fun u hu heq => ?_).trans (h c hgoes.before w hw)
  obtain ⟨channel, hin, hother⟩ := hs.writes u hu
  rw [heq] at hin
  rcases programmed_place hw with hlow | hin'
  · have hge := hin.1
    omega
  · exact hother c hrun (inController_unique hin' hin)

theorem Programmed.starts {env : ChannelControl.InitEnv} {req : TpceDmaRequest} (h : Programmed m)
    (hs : Starts env req m.dev t dev' c) : Programmed ⟨dev', m.written ++ t⟩ := by
  intro c' hrun w hw
  rw [hs.writes]
  by_cases hc : c' = c
  · subst hc
    exact writtenValue_startWrites hs.channel hw
  · have hinfo := hs.others c' hc
    rw [hinfo] at hrun
    refine (writtenValue_append_of_avoids (programmed_avoids_start hc hs.channel hw)).trans (h c' hrun w ?_)
    rw [← programmed_congr (by rw [hinfo]) (by rw [hinfo]) fun i v => hs.slots i v c'.id fun hid => hc (id_inj hid)]
    exact hw

theorem step_call {polls : Polls} {op : Op} (h : m.step (.call polls op) = some m') :
    enabled m.dev op = true ∧ ∃ out t, (Controller.perform polls m.dev op).run = .ok ((out, m'.dev), t) ∧
      m'.written = m.written ++ t := by
  simp only [Machine.step] at h
  by_cases hen : enabled m.dev op = true
  · rw [if_pos hen] at h
    cases hrun : (Controller.perform polls m.dev op).run with
    | error e =>
        rw [hrun] at h
        cases h
    | ok r =>
        rw [hrun] at h
        cases h
        exact ⟨hen, r.1.1, r.2, rfl, rfl⟩
  · rw [if_neg hen] at h
    cases h

theorem step_barWrite {file : ℕ} {writes : MmioWrites} (h : m.step (.barWrite file writes) = some m') :
    m' = ⟨m.dev, m.written ++ writes⟩ := by
  simp only [Machine.step] at h
  split at h
  · cases h
    rfl
  · cases h

/-- A call that goes on with the machine is one of the driver's model. -/
theorem step_refines {polls : Polls} {op : Op} (h : m.step (.call polls op) = some m') :
    step m.dev op = some m'.dev := by
  obtain ⟨hen, out, t, hrun, -⟩ := step_call h
  exact step_eq_some.mpr ⟨hen, out, (erase_perform polls m.dev op).symm.trans (erase_ok hrun)⟩

/-- A call leaves a channel alone that runs before and after it. -/
theorem goesOn_of_step (h : Owned m.dev) (hop : Undisturbed m op) (hstep : m.step op = some m')
    (hbefore : (m.dev.dmaInfo c).state = .running) (hafter : (m'.dev.dmaInfo c).state = .running) :
    GoesOn m.dev m'.dev c := by
  cases op with
  | call polls op =>
      obtain ⟨hen, out, t, hrun, -⟩ := step_call hstep
      rcases call_cases h hen hop hrun with hs | ⟨env, req, c', -, hs⟩
      · exact hs.goesOn c hafter
      · have hc : c ≠ c' := fun hc => by
          rw [hc, hs.idle] at hbefore
          cases hbefore
        exact .of_same hbefore (hs.others c hc) fun i v => hs.slots i v c.id fun hid => hc (id_inj hid)
  | barWrite file writes =>
      obtain rfl := step_barWrite hstep
      exact .refl hbefore

/-- A start writes the registers of its channel, and while the channel runs they are to
hold the same values. -/
theorem programmed_step (h : Owned m.dev) (hop : Undisturbed m op) (hstep : m.step op = some m')
    (hafter : (m'.dev.dmaInfo c).state = .running) :
    ((m.dev.dmaInfo c).state = .running ∧ programmed m'.dev c = programmed m.dev c) ∨
      ∃ t, m'.written = m.written ++ t ∧ ∀ w ∈ programmed m'.dev c, writtenValue t w.1 = some w.2 := by
  by_cases hbefore : (m.dev.dmaInfo c).state = .running
  · exact .inl ⟨hbefore, programmed_goesOn (goesOn_of_step h hop hstep hbefore hafter)⟩
  cases op with
  | call polls op =>
      obtain ⟨hen, out, t, hrun, hwritten⟩ := step_call hstep
      rcases call_cases h hen hop hrun with hs | ⟨env, req, c', -, hs⟩
      · exact absurd (hs.goesOn c hafter).before hbefore
      · by_cases hc : c = c'
        · subst hc
          refine .inr ⟨t, hwritten, fun w hw => ?_⟩
          rw [hs.writes, ← List.nil_append (startWrites m'.dev c)]
          exact writtenValue_startWrites hs.channel hw
        · rw [hs.others c hc] at hafter
          exact absurd hafter hbefore
  | barWrite file writes =>
      obtain rfl := step_barWrite hstep
      exact absurd hafter hbefore

theorem Sound.step (h : Sound m) (hop : Undisturbed m op) (hstep : m.step op = some m') : Sound m' := by
  cases op with
  | call polls op =>
      obtain ⟨hen, out, t, hrun, hwritten⟩ := step_call hstep
      obtain ⟨dev', written'⟩ := m'
      obtain rfl : written' = m.written ++ t := hwritten
      rcases call_cases h.owned hen hop hrun with hs | ⟨env, req, c, -, hs⟩
      · exact ⟨h.owned.subsides hs, h.programmed.subsides hs⟩
      · exact ⟨h.owned.starts hs, h.programmed.starts hs⟩
  | barWrite file writes =>
      obtain rfl := step_barWrite hstep
      refine ⟨h.owned, fun c hrun w hw => ?_⟩
      have hold := h.programmed c hrun w hw
      rw [writtenValue_append]
      cases hnew : writtenValue writes w.1 with
      | none => exact hold
      | some v => exact congrArg some (hop c hrun w hw v hnew)

theorem goesOn_of_run {ops : List MachineOp} (h : Sound m) (halong : Along Machine.step Undisturbed m ops)
    (hruns : Always Machine.step (fun m => (m.dev.dmaInfo c).state = .running) m ops)
    (hrun : run Machine.step m ops = some m') : Sound m' ∧ GoesOn m.dev m'.dev c := by
  induction ops generalizing m with
  | nil =>
      cases hrun
      exact ⟨h, .refl hruns⟩
  | cons op ops ih =>
      obtain ⟨m₁, hstep, hrest⟩ := Option.bind_eq_some_iff.mp hrun
      obtain ⟨hop, htail⟩ := halong m₁ hstep
      have hafter := hruns.2 m₁ hstep
      obtain ⟨hsound, hgoes⟩ := ih (h.step hop hstep) htail hafter hrest
      exact ⟨hsound, (goesOn_of_step h.owned hop hstep hruns.1 hafter.head).trans hgoes⟩

/-- As long as a channel runs, its registers hold what its start has written to them. -/
theorem start_kept {m₁ m₂ : Machine} {ops : List MachineOp} (h : Sound m)
    (hidle : (m.dev.dmaInfo c).state ≠ .running) (halong : Along Machine.step Undisturbed m (op :: ops))
    (hstep : m.step op = some m₁)
    (hruns : Always Machine.step (fun m => (m.dev.dmaInfo c).state = .running) m₁ ops)
    (hrun : run Machine.step m₁ ops = some m₂) :
    ∃ t, m₁.written = m.written ++ t ∧ ∀ w ∈ programmed m₁.dev c,
      writtenValue t w.1 = some w.2 ∧ writtenValue m₂.written w.1 = some w.2 := by
  obtain ⟨hop, htail⟩ := halong m₁ hstep
  obtain ⟨hsound, hgoes⟩ := goesOn_of_run (h.step hop hstep) htail hruns hrun
  rcases programmed_step h.owned hop hstep hruns.head with ⟨hbefore, -⟩ | ⟨t, hwritten, hstart⟩
  · exact absurd hbefore hidle
  refine ⟨t, hwritten, fun w hw => ⟨hstart w hw, ?_⟩⟩
  rw [← programmed_goesOn hgoes] at hw
  exact hsound.programmed c hgoes.after w hw

/-- A stray reset shows in the control register of the channel that it hits. -/
theorem stray_shows {polls : Polls} {op : Op} (hstep : m.step (.call polls op) = some m') (h : Programmed m')
    (hrunning : (m.dev.dmaInfo c).state = .running) : ¬Stray m.dev op c := by
  intro hstray
  cases op with
  | cancel file channel =>
      obtain ⟨hpresent, c', hc, hne, hid⟩ := hstray
      obtain ⟨-, out, t, hrun, hwritten⟩ := step_call hstep
      have hlt : channel.toNat < 3 := hc ▸ c'.isLt
      have hch : (⟨channel.toNat, hlt⟩ : Channel) = c' := Fin.ext hc.symm
      simp only [Controller.perform, hpresent, Bool.and_false, Bool.false_eq_true, if_false,
        TracedIoctl.iocDmaCancel] at hrun
      rw [dif_pos hlt, hch] at hrun
      obtain ⟨dev₂, t₁, t₂, habortReset, hpure, rfl⟩ := run_bind_eq_ok.mp hrun
      obtain ⟨hpair, rfl⟩ := run_pure_eq_ok.mp hpure
      obtain ⟨-, rfl⟩ := Prod.mk.inj hpair
      obtain ⟨dev₁, t₁, t₂, habort, hreset, rfl⟩ := run_bind_eq_ok.mp habortReset
      obtain ⟨_, t₁, t₃, hwrites, hlift, rfl⟩ := run_bind_eq_ok.mp habort
      obtain rfl := run_emits_eq_ok.mp hwrites
      obtain ⟨rfl, rfl⟩ := run_pure_eq_ok.mp hlift
      obtain ⟨hdone, rfl⟩ := resetDmaInfo_run hreset (abort_state m.dev c')
      have hsame : m'.dev.dmaInfo c = m.dev.dmaInfo c :=
        ((resetDmaInfo_frame hdone).2.1 c hne.symm).trans ((abort_frame m.dev c').1 c hne.symm)
      have hcontrol := h c (by rw [hsame]; exact hrunning)
        (tpceDmaPrefetcherCsr c.id altMsgdmaPrefetcherControlReg,
          controlValue (m'.dev.dmaInfo c).params ||| prefetcherCtrlRunSetMask)
        (List.mem_append_right _ (by simp [controllerRegs]))
      have hlast : writtenValue (resetDmaController (polls m.dev c') (m.dev.dmaInfo c'))
          (tpceDmaPrefetcherCsr c.id altMsgdmaPrefetcherControlReg) = some prefetcherCtrlResetSetMask := by
        have hne : tpceDmaCsr c.id alteraMsgdmaCsrControlReg ≠
            tpceDmaPrefetcherCsr c.id altMsgdmaPrefetcherControlReg := by
          simp only [tpceDmaCsr, tpceDmaPrefetcherCsr, alteraMsgdmaCsrControlReg, altMsgdmaPrefetcherControlReg]
          omega
        cases hcleared : polls m.dev c' with
        | false => simp [resetDmaController, writtenValue, hid]
        | true => simp [resetDmaController, writtenValue, hid, hne]
      rw [hwritten, List.append_nil, List.append_nil, List.append_nil,
        writtenValue_append_of_some hlast] at hcontrol
      exact controlValue_run _ (Option.some.inj hcontrol).symm
  | _ => exact hstray

/-- In a run every running channel keeps its registers exactly as long as no other
channel is cancelled whose parameters name it, and userspace leaves them alone. -/
theorem registers_kept_iff (sgt : SgTable) (ops : List MachineOp) :
    Always Machine.step Programmed (.init sgt) ops ↔ Along Machine.step Undisturbed (.init sgt) ops := by
  refine always_iff_along (fun _ h => h.programmed) (fun _ _ _ h hop hstep => h.step hop hstep)
    (fun m op m' _ hstep h => ?_) ops (sound_init sgt)
  cases op with
  | call polls op => exact fun c hrun => stray_shows hstep h hrun
  | barWrite file writes =>
      obtain rfl := step_barWrite hstep
      intro c hrun w hw v hv
      have hkept := h c hrun w hw
      rw [writtenValue_append_of_some hv] at hkept
      exact Option.some.inj hkept

end TpceDrv.RegisterRuns
