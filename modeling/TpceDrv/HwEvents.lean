import TpceDrv.IrqPath

namespace TpceDrv.HwEvents

open IrqPath Library.Runs

variable {s s' t u : Irq} {o : Step} {b : ℕ}

/-- The event is in the register of the device or in `hw_events.status`. -/
def Held (s : Irq) (b : ℕ) : Prop := s.intstat.getLsbD b = true ∨ s.status.getLsbD b = true

/-- What a step does to a held event: it stays, or a call returns it. The register
that is cleared loses no more than the status has. -/
theorem stepped_held (h : Stepped s o s') (hcopy : ∀ file, o ≠ .ioctlEvent file false) (hb : Held s b) :
    (s'.returned = s.returned ∧ Held s' b) ∨
      ∃ v, s'.returned = s.returned ++ [v] ∧ (v.getLsbD b = true ∨ Held s' b) := by
  cases h with
  | taskletRead =>
      refine .inl ⟨rfl, hb.imp id fun hstatus => ?_⟩
      change (s.status ||| s.intstat).getLsbD b = true
      rw [BitVec.getLsbD_or, hstatus, Bool.true_or]
  | taskletClear =>
      refine .inl ⟨rfl, ?_⟩
      by_cases hstatus : s.status.getLsbD b = true
      · exact .inr hstatus
      · have hintstat := hb.resolve_right hstatus
        have hlt := BitVec.lt_of_getLsbD hintstat
        left
        change (s.intstat &&& ~~~s.status).getLsbD b = true
        rw [BitVec.getLsbD_and, BitVec.getLsbD_not, hintstat, Bool.eq_false_iff.mpr hstatus]
        simpa using hlt
  | fire events =>
      refine .inl ⟨rfl, hb.imp (fun hintstat => ?_) id⟩
      change (s.intstat ||| events).getLsbD b = true
      rw [BitVec.getLsbD_or, hintstat, Bool.true_or]
  | ioctlEvent file copyOk =>
      cases copyOk with
      | false => exact absurd rfl (hcopy file)
      | true => exact .inr ⟨s.status, rfl, hb.symm.imp id .inl⟩
  | _ => exact .inl ⟨rfl, hb⟩

theorem stepped_returned (h : Stepped s o s') : s.returned <+: s'.returned := by
  cases h with
  | ioctlEvent file copyOk =>
      cases copyOk with
      | false => exact List.prefix_rfl
      | true => exact List.prefix_append _ _
  | _ => exact List.prefix_rfl

theorem run_returned {os : List Step} (h : run step s os = some u) : s.returned <+: u.returned := by
  induction os generalizing s with
  | nil =>
      cases h
      exact List.prefix_rfl
  | cons o os ih =>
      obtain ⟨s', hstep, hrest⟩ := Option.bind_eq_some_iff.mp h
      exact (stepped_returned (stepped hstep)).trans (ih hrest)

/-- What the calls have returned between two states of a run -/
def returnedSince (s u : Irq) : List U32 := u.returned.drop s.returned.length

theorem run_held {os : List Step} (h : run step s os = some u) (hcopy : ∀ file, .ioctlEvent file false ∉ os)
    (hb : Held s b) : Held u b ∨ ∃ v ∈ returnedSince s u, v.getLsbD b = true := by
  induction os generalizing s with
  | nil =>
      cases h
      exact .inl hb
  | cons o os ih =>
      obtain ⟨s', hstep, hrest⟩ := Option.bind_eq_some_iff.mp h
      have hcopies : ∀ file, .ioctlEvent file false ∉ os := fun file hmem =>
        hcopy file (List.mem_cons_of_mem _ hmem)
      have hfirst : ∀ file, o ≠ .ioctlEvent file false := fun file heq =>
        hcopy file (heq ▸ List.mem_cons_self)
      rcases stepped_held (stepped hstep) hfirst hb with ⟨hreturned, hb'⟩ | ⟨v, hreturned, hb'⟩
      · rw [returnedSince, ← hreturned]
        exact ih hrest hcopies hb'
      · obtain ⟨rest, hu⟩ := run_returned hrest
        have hsince : returnedSince s u = v :: rest := by
          rw [returnedSince, ← hu, hreturned, List.append_assoc, List.drop_left]
          rfl
        rw [hsince]
        rcases hb' with hv | hb'
        · exact .inr ⟨v, List.mem_cons_self, hv⟩
        · refine (ih hrest hcopies hb').imp id fun ⟨w, hw, hbit⟩ => ⟨w, ?_, hbit⟩
          rw [returnedSince, ← hu, List.drop_left] at hw
          exact List.mem_cons_of_mem v hw

/-- At any time after an event has fired it is pending in the device or set in the
status, or a `TPCE_IOC_EVENT` behind it has returned it. -/
theorem event_not_lost {irqEnable : U32} {pre post : List Step} {events : U32}
    (hfire : run step (.init irqEnable) (pre ++ [.fire events]) = some t) (hpost : run step t post = some u)
    (hcopy : ∀ file, .ioctlEvent file false ∉ post) (hb : events.getLsbD b = true) :
    u.intstat.getLsbD b = true ∨ u.status.getLsbD b = true ∨
      ∃ v ∈ returnedSince t u, v.getLsbD b = true := by
  rw [run_append] at hfire
  obtain ⟨s, -, hfire⟩ := Option.bind_eq_some_iff.mp hfire
  obtain ⟨t', hstep, ht⟩ := Option.bind_eq_some_iff.mp hfire
  cases hstep
  cases ht
  have hheld : Held { s with intstat := s.intstat ||| events } b := by
    left
    change (s.intstat ||| events).getLsbD b = true
    rw [BitVec.getLsbD_or, hb, Bool.or_true]
  exact or_assoc.mp (run_held hpost hcopy hheld)

/-- One application interrupt up to the first access of the tasklet, and the rest -/
def appRecorded : List Step :=
  [.isrEnter tpceIrqApp, .isrStream, .isrDisable, .isrRecord, .isrSchedule, .taskletEnter, .taskletFetch, .taskletQueue,
    .taskletRead]

def appCleared : List Step := [.taskletClear, .taskletTest, .taskletEnable]

def appInterrupt : List Step := .fire 1 :: appRecorded ++ appCleared

/-- An event that fires again between the two accesses is cleared with the first one,
and the call returns it. -/
theorem refired_event_not_lost :
    ∃ t u, run step (.init 0) (.fire 1 :: appRecorded ++ [.fire 1]) = some t ∧
      run step t (appCleared ++ [.ioctlEvent 0 true]) = some u ∧
      (u.intstat.getLsbD 0 = true ∨ u.status.getLsbD 0 = true ∨
        ∃ v ∈ returnedSince t u, v.getLsbD 0 = true) := by
  have hruns : ((run step (.init 0) (.fire 1 :: appRecorded ++ [.fire 1])).bind fun t =>
      run step t (appCleared ++ [.ioctlEvent 0 true])).isSome := by decide +kernel
  obtain ⟨u, hu⟩ := Option.isSome_iff_exists.mp hruns
  obtain ⟨t, ht, hu⟩ := Option.bind_eq_some_iff.mp hu
  exact ⟨t, u, ht, hu, event_not_lost ht hu (fun file hmem => by simp [appCleared] at hmem) (by decide)⟩

/-- A tasklet run with the application interrupt records what it reads of `INTSTAT`,
also where that is 0. -/
def recordedAfter (recorded : Bool) : Step → Bool
  | .taskletRead => true
  | .poll _ => false
  | _ => recorded

/-- Whether the tasklet has recorded events since the last poll -/
def recordedSincePoll (os : List Step) : Bool := os.foldl recordedAfter false

theorem stepped_pending (h : Stepped s o s') : s'.pending = recordedAfter s.pending o := by
  cases h with
  | _ => rfl

theorem run_pending {os : List Step} (h : run step s os = some u) :
    u.pending = os.foldl recordedAfter s.pending := by
  induction os generalizing s with
  | nil =>
      cases h
      rfl
  | cons o os ih =>
      obtain ⟨s', hstep, hrest⟩ := Option.bind_eq_some_iff.mp h
      rw [ih hrest, stepped_pending (stepped hstep), List.foldl_cons]

theorem poll_in_iff (s : Irq) : (tpcePoll s).1 &&& pollIn ≠ 0 ↔ s.pending = true := by
  simp only [tpcePoll]
  split
  · rename_i h
    exact iff_of_true (show (pollIn ||| pollRdNorm) &&& pollIn ≠ 0 by decide) h
  · rename_i h
    exact iff_of_false (show ¬(0 : U32) &&& pollIn ≠ 0 by decide) h

/-- A poll reports readiness exactly when the tasklet has recorded events since the
last poll of any file, whatever the calls have read in between. -/
theorem poll_reports_recorded {irqEnable : U32} {os : List Step} (h : run step (.init irqEnable) os = some s) :
    (tpcePoll s).1 &&& pollIn ≠ 0 ↔ recordedSincePoll os = true := by
  rw [poll_in_iff, run_pending h]
  rfl

theorem poll_after_interrupt : ∃ s, run step (.init 0) appInterrupt = some s ∧
    ((tpcePoll s).1 &&& pollIn ≠ 0 ↔ recordedSincePoll appInterrupt = true) := by
  have hrun : (run step (.init 0) appInterrupt).isSome := by decide +kernel
  obtain ⟨s, hs⟩ := Option.isSome_iff_exists.mp hrun
  exact ⟨s, hs, poll_reports_recorded hs⟩

/-- A poll would report readiness exactly when an event is left to read. -/
def PollExact (s : Irq) : Prop := (tpcePoll s).1 &&& pollIn ≠ 0 ↔ s.status ≠ 0

instance (s : Irq) : Decidable (PollExact s) :=
  inferInstanceAs (Decidable ((tpcePoll s).1 &&& pollIn ≠ 0 ↔ s.status ≠ 0))

/-- The poll of one file hides the event from the next one, and after a read there is
still readiness with nothing to read. -/
theorem poll_not_exact :
    ¬Always step PollExact (.init 0) (appInterrupt ++ [.poll 0]) ∧
    ¬Always step PollExact (.init 0) (appInterrupt ++ [.ioctlEvent 0 true]) := by
  constructor
  · decide +kernel
  · decide +kernel

end TpceDrv.HwEvents
