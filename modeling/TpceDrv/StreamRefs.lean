import TpceDrv.Effects
import TpceDrv.Teardown

namespace TpceDrv.StreamRefs

open Descriptor DmaParams DmaInfo Mapping Device ChannelControl ChannelSteps Requests Driver RequestSteps
open Effects Teardown Library

variable {env : InitEnv} {dev dev' : TpceDev} {c : Channel} {req : TpceDmaRequest}
variable {info info' : TpceDmaInfo} {stream stream' : InternalDmaStreamInfo} {few : Prop} {n : ℕ}

/-- The reference that a transfer holds on the stream state of its channel -/
def streamRef (info : TpceDmaInfo) : ℕ :=
  if info.params.transferMode = tpceDmaModeStream ∧ info.state ≠ .idle then 1 else 0

/-- The references on the stream state of a channel, of the areas that map it
and of a transfer -/
def holders (dev : TpceDev) (c : Channel) : ℕ := dev.vmas c + streamRef (dev.dmaInfo c)

/-- A count of `n` references: exact, or saturated if there need not be few. -/
def Counted (few : Prop) (n refs : ℕ) : Prop := (refs = n ∧ n < 2 ^ 31) ∨ (refs = refcountSaturated ∧ ¬few)

theorem Counted.inc {refs : ℕ} (h : Counted few n refs) (hpos : refs ≠ 0) (hfew : few → n + 1 < 2 ^ 31) :
    Counted few (n + 1) (refcountInc refs) := by
  simp only [refcountInc]
  rcases h with ⟨rfl, hlt⟩ | ⟨rfl, hmany⟩
  · split
    · exact .inr ⟨rfl, fun h => by have := hfew h; omega⟩
    · exact .inl ⟨rfl, by omega⟩
  · exact .inr ⟨if_pos (.inr (by decide)), hmany⟩

theorem Counted.dec {refs : ℕ} (h : Counted few (n + 1) refs) :
    Counted few n (refcountDecAndTest refs).1 ∧
      ((refcountDecAndTest refs).2 = true ↔ (refcountDecAndTest refs).1 = 0) := by
  simp only [refcountDecAndTest]
  rcases h with ⟨rfl, hlt⟩ | ⟨rfl, hmany⟩
  · rw [if_neg (by omega)]
    exact ⟨.inl ⟨rfl, by omega⟩, by simp⟩
  · rw [if_pos (.inr (by decide))]
    exact ⟨.inr ⟨rfl, hmany⟩, by decide⟩

/-- A stream state with `n` references on it -/
structure RefsOn (few : Prop) (n : ℕ) (stream : InternalDmaStreamInfo) : Prop where
  count : Counted few n stream.stateRefs
  live : stream.state = none ↔ stream.stateRefs = 0

theorem RefsOn.pos (h : RefsOn few n stream) (hn : n ≠ 0) : stream.stateRefs ≠ 0 := by
  rcases h.count with ⟨hrefs, -⟩ | ⟨hrefs, -⟩
  · rw [hrefs]
    exact hn
  · rw [hrefs]
    decide

theorem RefsOn.referenced (h : RefsOn few n stream) (hfew : few → n + 1 < 2 ^ 31)
    (hlive : stream'.state ≠ none) (hrefs : stream'.stateRefs = referenced stream) :
    RefsOn few (n + 1) stream' := by
  have hcount : Counted few (n + 1) stream'.stateRefs := by
    rw [hrefs, RequestSteps.referenced]
    split
    · rename_i hnone
      have hzero := h.live.mp hnone
      rcases h.count with ⟨hn, -⟩ | ⟨hn, -⟩
      · exact .inl ⟨by omega, by omega⟩
      · exact absurd (hzero.symm.trans hn) (by decide)
    · rename_i hsome
      exact h.count.inc (mt h.live.mpr hsome) hfew
  refine ⟨hcount, iff_of_false hlive ?_⟩
  rcases hcount with ⟨hn, -⟩ | ⟨hn, -⟩
  · omega
  · rw [hn]
    decide

theorem RefsOn.inc (h : RefsOn few n info.streamInfo) (hn : n ≠ 0) (hfew : few → n + 1 < 2 ^ 31) :
    RefsOn few (n + 1) (incStreamRefs info).streamInfo := by
  have hpos := h.pos hn
  have hlive : info.streamInfo.state ≠ none := mt h.live.mp hpos
  exact h.referenced hfew hlive (if_neg hlive).symm

theorem RefsOn.free (h : RefsOn few (n + 1) info.streamInfo) :
    RefsOn few n (tpceFreeStreamInfo info).streamInfo := by
  obtain ⟨hcount, hzero⟩ := h.count.dec
  have hlive : info.streamInfo.state ≠ none := mt h.live.mp (h.pos (Nat.succ_ne_zero n))
  refine ⟨hcount, ?_⟩
  rw [show (tpceFreeStreamInfo info).streamInfo.stateRefs =
    (refcountDecAndTest info.streamInfo.stateRefs).1 from rfl, ← hzero]
  change (if _ then none else _) = none ↔ _
  split
  · rename_i hfree
    exact iff_of_true rfl hfree
  · rename_i hkeep
    exact iff_of_false hlive hkeep

def Referenced (few : Prop) (dev : TpceDev) : Prop :=
  ∀ c, RefsOn few (holders dev c) (dev.dmaInfo c).streamInfo

theorem Referenced.update (h : Referenced few dev) (c : Channel)
    (hothers : ∀ c', c' ≠ c → dev'.dmaInfo c' = dev.dmaInfo c' ∧ dev'.vmas c' = dev.vmas c')
    (hself : RefsOn few (holders dev' c) (dev'.dmaInfo c).streamInfo) : Referenced few dev' := by
  intro c'
  by_cases hc : c' = c
  · subst hc
    exact hself
  · obtain ⟨hinfo, hvmas⟩ := hothers c' hc
    rw [holders, hinfo, hvmas]
    exact h c'

theorem Referenced.congr (h : Referenced few dev) (hinfo : dev'.dmaInfo = dev.dmaInfo)
    (hvmas : dev'.vmas = dev.vmas) : Referenced few dev' := by
  intro c
  rw [holders, hinfo, hvmas]
  exact h c

theorem Referenced.setInfo (h : Referenced few dev) (c : Channel) {info : TpceDmaInfo}
    (hself : RefsOn few (dev.vmas c + streamRef info) info.streamInfo) : Referenced few (dev.setInfo c info) := by
  apply h.update c fun c' hc => ⟨setInfo_dmaInfo_ne dev info hc, rfl⟩
  rw [holders, setInfo_dmaInfo]
  exact hself

theorem Referenced.same (h : Referenced few dev) (c : Channel) (info : TpceDmaInfo)
    (hstream : info.streamInfo = (dev.dmaInfo c).streamInfo) (href : streamRef info = streamRef (dev.dmaInfo c)) :
    Referenced few (dev.setInfo c info) := by
  apply h.setInfo c
  rw [hstream, href]
  exact h c

theorem streamRef_eq (hparams : info'.params = info.params) (hidle : info'.state = .idle ↔ info.state = .idle) :
    streamRef info' = streamRef info := by
  simp only [streamRef, hparams, ne_eq, hidle]

theorem Referenced.abort (h : Referenced few dev) (c : Channel) : Referenced few (tpceDmaAbort dev c) := by
  have hsame := h.same c { dev.dmaInfo c with state := abortedState (dev.dmaInfo c).state } rfl
    (streamRef_eq rfl abortedState_idle)
  rw [abort_eq]
  exact hsame.congr rfl rfl

theorem streamRef_resetInfo (info : TpceDmaInfo) : streamRef (resetInfo info) = 0 := if_neg fun h => h.2 rfl

theorem Referenced.reset (h : Referenced few dev) (hreset : resetDmaInfo dev c = .ok dev') :
    Referenced few dev' := by
  rcases resetDmaInfo_spec hreset with ⟨-, rfl⟩ | ⟨hidle, -, rfl⟩
  · exact h
  have hc := h c
  have hself : RefsOn few (dev.vmas c + streamRef (resetInfo (dev.dmaInfo c)))
      (resetInfo (dev.dmaInfo c)).streamInfo := by
    rw [streamRef_resetInfo]
    simp only [resetInfo]
    split
    · rename_i hmode
      have href : streamRef (dev.dmaInfo c) = 1 := if_pos ⟨hmode, hidle⟩
      rw [holders, href] at hc
      exact hc.free
    · rename_i hmode
      have href : streamRef (dev.dmaInfo c) = 0 := if_neg fun hne => hmode hne.1
      rw [holders, href] at hc
      exact hc
  exact (h.setInfo c hself).congr rfl rfl

theorem referenced_of_tearsDown (hdown : TearsDown dev dev') (h : Referenced few dev) : Referenced few dev' := by
  cases hdown with
  | reset c _ hreset => exact h.reset hreset
  | cancel c _ hreset => exact (h.abort c).reset hreset
  | elsewhere _ hsame => exact h.congr hsame.dmaInfo hsame.vmas
  | buffers c idle => exact h.same c _ rfl (streamRef_eq rfl Iff.rfl)

theorem referenced_of_tornDown (hdown : TornDown dev dev') (h : Referenced few dev) : Referenced few dev' :=
  hdown.keeps h fun _ _ => referenced_of_tearsDown

theorem Referenced.accept {obj : ℕ} {m : TpceDmaMapInfo} {prep info : TpceDmaInfo} (h : Referenced few dev)
    (hfew : few → holders dev c + 1 < 2 ^ 31) (hidle : (dev.dmaInfo c).state = .idle)
    (hacc : Initialized env dev c req obj m prep info dev') : Referenced few dev' := by
  have hc := h c
  have href : streamRef (dev.dmaInfo c) = 0 := if_neg fun hne => hne.2 hidle
  rw [hacc.result]
  suffices hself : RefsOn few (dev.vmas c + streamRef (initializedInfo info req obj))
      (initializedInfo info req obj).streamInfo by
    exact (h.setInfo c hself).congr rfl rfl
  rw [holders, href] at hc hfew
  by_cases hmode : req.params.transferMode = tpceDmaModeStream
  · have href' : streamRef (initializedInfo info req obj) = 1 := if_pos ⟨hmode, TpceDmaChannelState.noConfusion⟩
    obtain ⟨hneg, -⟩ | ⟨-, hstate, hcount, -⟩ := initStreamInfo_spec (hacc.stream hmode)
    · omega
    rw [hacc.same.streamInfo] at hcount
    rw [href']
    apply hc.referenced hfew
    · rw [show (initializedInfo info req obj).streamInfo.state = some ⟨0, 0⟩ from hstate]
      exact Option.some_ne_none _
    · exact hcount
  · have href' : streamRef (initializedInfo info req obj) = 0 := if_neg fun hne => hmode hne.1
    have hstream : (initializedInfo info req obj).streamInfo = (dev.dmaInfo c).streamInfo := by
      rw [← hacc.same.streamInfo, ← hacc.plain hmode]
      rfl
    rw [href', hstream]
    exact hc

theorem Referenced.start {table : PageTable.AlteraPciePageTable} (h : Referenced few dev)
    (hs : Started dev c table info dev') (hold : (dev.dmaInfo c).state ≠ .idle) (hnew : info.state ≠ .idle) :
    Referenced few dev' := by
  have hsame := h.same c _ hs.same.streamInfo (streamRef_eq hs.same.params (iff_of_false hnew hold))
  rw [hs.result]
  exact hsame.congr rfl rfl

theorem Referenced.execute (h : Referenced few dev) (hfew : few → holders dev c + 1 < 2 ^ 31)
    (hidle : (dev.dmaInfo c).state = .idle) (hexec : Executed env dev c req dev') : Referenced few dev' := by
  cases hexec with
  | refused ret info refusal negative same state =>
      apply h.same c info same.streamInfo (streamRef_eq same.params ?_)
      rw [state]
  | failed obj m prep info info₂ table dev₁ dev₂ _ accepted start started state reset =>
      have hinit := initialized_state accepted
      refine ((h.accept hfew hidle accepted).start started ?_ ?_).reset reset
      · rw [hinit]
        decide
      · rcases state with hst | hst
        · simp [hst]
        · simp [hst]
  | running obj m prep info info₂ table dev₁ dev₂ accepted start started state =>
      have hinit := initialized_state accepted
      have hrun := (h.accept hfew hidle accepted).start started (by simp [hinit]) (by simp [state])
      exact hrun.congr rfl rfl

theorem Referenced.mmap {vmallocOk : Bool} (h : Referenced few dev) (hfew : few → holders dev c + 1 < 2 ^ 31)
    (hmmap : mmapStreamInfo vmallocOk (dev.dmaInfo c) = (0, info)) :
    RefsOn few (holders dev c + 1) info.streamInfo ∧ streamRef info = streamRef (dev.dmaInfo c) := by
  obtain ⟨-, hinfo, hlive, hrefs⟩ := (mmapStreamInfo_spec hmmap).resolve_left fun h => absurd h.1 (by decide)
  refine ⟨(h c).referenced hfew hlive hrefs, ?_⟩
  rw [hinfo]
  rfl

theorem step_referenced {op : Op} (h : Referenced few dev) (hfew : few → ∀ c, holders dev c + 1 < 2 ^ 31)
    (hstep : step dev op = some dev') : Referenced few dev' := by
  cases step_effect hstep with
  | nothing => exact h
  | opened => exact h.congr rfl rfl
  | locked file lockEnv bufferInfo id free => exact h.congr rfl rfl
  | unlocked file id obj _ unmap => exact referenced_of_tornDown (tornDown_unlisted unmap) h
  | executed _ env req fileCtx c m _ present mutex validated valid execute =>
      exact h.execute (fun hf => hfew hf c) valid.idle execute
  | cancelled file channel c _ reset => exact (h.abort c).reset reset
  | woken w c _ waiting reset =>
      have hwoken : Referenced few { dev with waiting := none } := h.congr rfl rfl
      exact hwoken.reset reset
  | completed c mode running =>
      have hold : streamRef (dev.dmaInfo c) = 0 := if_neg fun hne => mode hne.1
      have hnew : streamRef { dev.dmaInfo c with state := .complete } = 0 := if_neg fun hne => mode hne.1
      exact h.same c _ rfl (hnew.trans hold.symm)
  | released file dev₁ release => exact (referenced_of_tornDown (tornDown_release release) h).congr rfl rfl
  | leaked file env c => exact h.congr rfl rfl
  | returned file env c info stream =>
      obtain ⟨hrefs, href⟩ := h.mmap (fun hf => hfew hf c) stream
      apply h.setInfo c
      have hfreed := hrefs.free
      rw [holders, ← href] at hfreed
      exact hfreed
  | mapped file env c info stream =>
      obtain ⟨hrefs, href⟩ := h.mmap (fun hf => hfew hf c) stream
      refine h.update c (fun c' hc => ⟨setInfo_dmaInfo_ne _ _ hc, Function.update_of_ne hc ..⟩) ?_
      simp only [holders, setInfo_dmaInfo, Function.update_self]
      rw [href, Nat.add_right_comm]
      exact hrefs
  | vmaOpened c area =>
      refine h.update c (fun c' hc => ⟨setInfo_dmaInfo_ne _ _ hc, Function.update_of_ne hc ..⟩) ?_
      have hinc := (h c).inc (by rw [holders]; omega) fun hf => hfew hf c
      simp only [holders, vmaStreamInfoOpen, setInfo_dmaInfo, Function.update_self]
      rw [Nat.add_right_comm]
      exact hinc
  | vmaClosed c area =>
      refine h.update c (fun c' hc => ⟨setInfo_dmaInfo_ne _ _ hc, Function.update_of_ne hc ..⟩) ?_
      have hc := h c
      rw [holders, ← Nat.succ_pred_eq_of_pos area, Nat.succ_add] at hc
      simp only [holders, vmaStreamInfoClose, setInfo_dmaInfo, Function.update_self]
      exact hc.free
  | wentAway => exact h.congr rfl rfl
  | removed out _ remove => exact referenced_of_tornDown (tornDown_remove remove) h

theorem referenced_init (sgt : SgTable) (few : Prop) : Referenced few (TpceDev.init sgt) := by
  intro c
  have hnone : holders (TpceDev.init sgt) c = 0 := rfl
  rw [hnone]
  exact ⟨.inl ⟨rfl, by decide⟩, iff_of_true rfl rfl⟩

/-- The count is that of the references. -/
def RefsExact (dev : TpceDev) : Prop := ∀ c, (dev.dmaInfo c).streamInfo.stateRefs = holders dev c

/-- The state is in memory exactly while its count is positive, which it is as
long as somebody holds a reference, and the count is exact or saturated. -/
def RefsSound (dev : TpceDev) : Prop :=
  ∀ c, ((dev.dmaInfo c).streamInfo.state ≠ none ↔ 0 < (dev.dmaInfo c).streamInfo.stateRefs) ∧
    (holders dev c ≠ 0 → 0 < (dev.dmaInfo c).streamInfo.stateRefs) ∧
    ((dev.dmaInfo c).streamInfo.stateRefs = holders dev c ∨
      (dev.dmaInfo c).streamInfo.stateRefs = refcountSaturated)

/-- A further reference does not saturate the count. -/
def FewHolders (dev : TpceDev) : Prop := ∀ c, holders dev c + 1 < 2 ^ 31

instance : DecidablePred FewHolders := fun dev => inferInstanceAs (Decidable (∀ c, holders dev c + 1 < 2 ^ 31))

theorem Referenced.sound (h : Referenced few dev) : RefsSound dev := by
  intro c
  have hc := h c
  refine ⟨?_, fun hn => Nat.pos_of_ne_zero (hc.pos hn), hc.count.imp And.left And.left⟩
  rw [Nat.pos_iff_ne_zero]
  exact not_congr hc.live

theorem Referenced.exact (h : Referenced True dev) : RefsExact dev :=
  fun c => (h c).count.elim And.left fun hmany => absurd True.intro hmany.2

/-- In every run the count is sound, and it is exact in every run in which
there are never too many references at a time. -/
theorem stream_refs (sgt : SgTable) (ops : List Op) :
    Runs.Always step RefsSound (TpceDev.init sgt) ops ∧
      (Runs.Along step (fun dev _ => FewHolders dev) (TpceDev.init sgt) ops →
        Runs.Always step RefsExact (TpceDev.init sgt) ops) := by
  constructor
  · have halways : Runs.Always step (Referenced False) (TpceDev.init sgt) ops :=
      Runs.always_of_step (fun _ _ _ h hstep => step_referenced h (fun hf => hf.elim) hstep)
        (referenced_init sgt False) ops
    exact halways.mono fun _ h => h.sound
  · intro hfew
    have halways := Runs.always_of_along (K := Referenced True)
      (fun _ _ _ h hf hstep => step_referenced h (fun _ => hf) hstep) (referenced_init sgt True) hfew
    exact halways.mono fun _ h => h.exact

/-- The stream page of a channel mapped, and its area duplicated `m` times -/
def duplications (c : Channel) (m : ℕ) : List Op :=
  [.openFile, .mmap 0 ⟨false, true, 0⟩ c] ++ List.replicate m (.vmaOpen c)

theorem two_areas_counted : Runs.Always step RefsExact freshDevice (duplications 0 1) := by
  apply (stream_refs _ (duplications 0 1)).2
  decide +kernel

/-- The device with `vmas` areas on the stream page of a channel and `refs`
references counted -/
def withAreas (dev : TpceDev) (c : Channel) (vmas refs : ℕ) : TpceDev :=
  { dev.setInfo c { dev.dmaInfo c with streamInfo := { (dev.dmaInfo c).streamInfo with stateRefs := refs } } with
    vmas := Function.update dev.vmas c vmas }

theorem withAreas_self (dev : TpceDev) (c : Channel) :
    withAreas dev c (dev.vmas c) (dev.dmaInfo c).streamInfo.stateRefs = dev := by
  simp [withAreas, TpceDev.setInfo]

theorem vmaOpen_withAreas (dev : TpceDev) (c : Channel) (vmas refs : ℕ) :
    vmaStreamInfoOpen (withAreas dev c vmas refs) c = withAreas dev c (vmas + 1) (refcountInc refs) := by
  simp [withAreas, vmaStreamInfoOpen, incStreamRefs, TpceDev.setInfo]

theorem run_vmaOpens (dev : TpceDev) (c : Channel) (m vmas refs : ℕ) (hvmas : 0 < vmas) :
    Runs.run step (withAreas dev c vmas refs) (List.replicate m (.vmaOpen c)) =
      some (withAreas dev c (vmas + m) (refcountInc^[m] refs)) := by
  induction m generalizing vmas refs with
  | zero => rfl
  | succ m ih =>
      have hstep : step (withAreas dev c vmas refs) (.vmaOpen c) =
          some (withAreas dev c (vmas + 1) (refcountInc refs)) := by
        rw [step_eq_some]
        refine ⟨decide_eq_true ?_, .returned 0, ?_⟩
        · have hcount : (withAreas dev c vmas refs).vmas c = vmas := Function.update_self ..
          rw [hcount]
          exact hvmas
        · rw [← vmaOpen_withAreas]
          rfl
      rw [List.replicate_succ, Runs.run, hstep, Option.bind_some, ih (vmas + 1) (refcountInc refs) (by omega),
        Function.iterate_succ_apply, Nat.add_right_comm, Nat.add_assoc]

theorem iterate_refcountInc {m : ℕ} (hm : m < 2 ^ 31 - 1) : refcountInc^[m] 1 = m + 1 := by
  induction m with
  | zero => rfl
  | succ m ih =>
      rw [Function.iterate_succ_apply', ih (by omega)]
      exact if_neg (by omega)

theorem streamRef_le (info : TpceDmaInfo) : streamRef info ≤ 1 := by
  simp only [streamRef]
  split
  · exact Nat.le_refl 1
  · exact Nat.zero_le 1

def mappedDevice (c : Channel) : TpceDev := (tpceMmap ⟨false, true, 0⟩ (tpceOpen freshDevice).2 c).2

theorem run_duplications {m : ℕ} (hm : m < 2 ^ 31 - 1) :
    Runs.run step freshDevice (duplications 0 m) = some (withAreas (mappedDevice 0) 0 (1 + m) (m + 1)) := by
  have hmapped : Runs.run step freshDevice [.openFile, .mmap 0 ⟨false, true, 0⟩ 0] =
      some (withAreas (mappedDevice 0) 0 1 1) := by
    rw [show withAreas (mappedDevice 0) 0 1 1 = mappedDevice 0 from withAreas_self (mappedDevice 0) 0]
    rfl
  rw [duplications, Runs.run_append, hmapped, Option.bind_some, run_vmaOpens (mappedDevice 0) 0 m 1 1 Nat.one_pos,
    iterate_refcountInc hm]

theorem saturates_behind {m : ℕ} (hm : m = 2 ^ 31 - 2) :
    ¬Runs.Always step RefsExact freshDevice (duplications 0 (m + 1)) := by
  intro h
  have hmore : duplications 0 (m + 1) = duplications 0 m ++ List.replicate 1 (.vmaOpen 0) := by
    rw [duplications, duplications, List.append_assoc, List.replicate_append_replicate]
  have hsaturated : refcountInc^[1] (m + 1) = refcountSaturated := if_pos (by omega)
  have hfull : Runs.run step freshDevice (duplications 0 (m + 1)) =
      some (withAreas (mappedDevice 0) 0 (1 + m + 1) refcountSaturated) := by
    rw [hmore, Runs.run_append, run_duplications (by omega), Option.bind_some,
      run_vmaOpens (mappedDevice 0) 0 1 (1 + m) (m + 1) (by omega), hsaturated]
  have hexact := Runs.always_iff_prefix.mp h _ [] (List.append_nil _).symm _ hfull 0
  have hexact : 3221225472 = 1 + m + 1 + streamRef ((mappedDevice 0).dmaInfo 0) := hexact
  have href := streamRef_le ((mappedDevice 0).dmaInfo 0)
  omega

/-- The count saturates at 2^31 areas. -/
theorem many_areas_saturate : ¬Runs.Always step RefsExact freshDevice (duplications 0 (2 ^ 31 - 2 + 1)) :=
  saturates_behind rfl

end TpceDrv.StreamRefs
