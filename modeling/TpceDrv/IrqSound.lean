import TpceDrv.IrqPath

namespace TpceDrv.IrqSound

open Device IrqPath Library.Runs

variable {s s' : Irq} {o : Step} {r b : ℕ}

def carries (r b : ℕ) (t : Token) : Bool := t.run = r && t.bits.getLsbD b

/-- What the run of the ISR has in its hands -/
def held : Isr → List Token
  | .entered run irqreg | .disabling run irqreg | .recording run irqreg => [⟨run, irqreg⟩]
  | .idle | .scheduling _ => []

/-- All that has been read, wherever it is -/
def tokens (s : Irq) : List Token := held s.isr ++ s.streamed ++ s.recorded ++ s.taken.map Prod.snd

/-- The run has written the enable register and not yet returned. -/
def disabled : Isr → Bool
  | .recording _ _ | .scheduling _ => true
  | _ => false

/-- Where a bit is that run `r` has read: with the run itself, with the stream
handler, taken by one run of the tasklet, or in `irqsrc` with the tasklet about to
fetch it. -/
inductive Followed (s : Irq) (r b : ℕ) : Prop
  | running (h : ∃ t ∈ held s.isr, carries r b t = true)
  | streamed (h : ∃ t ∈ s.streamed, carries r b t = true)
  | taken (h : s.taken.countP (fun p => carries r b p.2) = 1)
  | waiting (h : s.irqsrc.getLsbD b = true)
      (pending : s.scheduled = true ∨ s.tasklet = .entered ∨ s.isr = .scheduling r)

/-- The interrupts are off only for a while, and no bit that was read is dropped or
taken twice. -/
structure Sound (s : Irq) : Prop where
  enabled : s.irqEnable = 0 → s.offByIsr = true → s.goingAway = false →
    s.isr ≠ .idle ∨ s.scheduled = true ∨ s.tasklet ≠ .idle
  followed : ∀ r b, (s.reads r).getLsbD b = true → Followed s r b
  once : ∀ r b, s.taken.countP (fun p => carries r b p.2) ≤ 1

/-- The invariant: every bit that was read is in one place, and what is recorded
waits for a fetch. -/
structure Inv (s : Irq) : Prop where
  mask : ∀ b, s.fastIrqMask.getLsbD b = true → dmaBits.getLsbD b = true
  off : s.offByIsr = true →
    s.goingAway = true ∨ disabled s.isr = true ∨ s.scheduled = true ∨ s.tasklet ≠ .idle
  irqsrc : ∀ b, s.irqsrc.getLsbD b = s.recorded.any fun t => t.bits.getLsbD b
  waiting : ∀ t ∈ s.recorded, s.isr = .scheduling t.run ∨ s.scheduled = true ∨ s.tasklet = .entered
  fresh : ∀ r, s.runs ≤ r → s.reads r = 0
  placed : ∀ r b, (tokens s).countP (carries r b) = ((s.reads r).getLsbD b).toNat

theorem Inv.sound (h : Inv s) : Sound s := by
  have hcount : ∀ r b, (held s.isr).countP (carries r b) + s.streamed.countP (carries r b) +
      s.recorded.countP (carries r b) + s.taken.countP (fun p => carries r b p.2) =
        ((s.reads r).getLsbD b).toNat := by
    intro r b
    rw [← h.placed r b, tokens, List.countP_append, List.countP_append, List.countP_append, List.countP_map]
    rfl
  refine ⟨fun _ hoff hpresent => ?_, fun r b hread => ?_, fun r b => ?_⟩
  · rcases h.off hoff with haway | hisr | hscheduled | htasklet
    · exact absurd (hpresent.symm.trans haway) Bool.false_ne_true
    · left
      intro hidle
      rw [hidle] at hisr
      cases hisr
    · exact .inr (.inl hscheduled)
    · exact .inr (.inr htasklet)
  · have hone := hcount r b
    rw [hread, Bool.toNat_true] at hone
    by_cases hheld : 0 < (held s.isr).countP (carries r b)
    · exact .running (List.countP_pos_iff.mp hheld)
    by_cases hstreamed : 0 < s.streamed.countP (carries r b)
    · exact .streamed (List.countP_pos_iff.mp hstreamed)
    by_cases hrecorded : 0 < s.recorded.countP (carries r b)
    · obtain ⟨t, ht, hcarries⟩ := List.countP_pos_iff.mp hrecorded
      obtain ⟨hrun, hbit⟩ := Bool.and_eq_true_iff.mp hcarries
      have hirqsrc : s.irqsrc.getLsbD b = true := by
        rw [h.irqsrc b]
        exact List.any_eq_true.mpr ⟨t, ht, hbit⟩
      refine .waiting hirqsrc ?_
      rcases h.waiting t ht with hisr | hscheduled | hentered
      · exact .inr (.inr (of_decide_eq_true hrun ▸ hisr))
      · exact .inl hscheduled
      · exact .inr (.inl hentered)
    · exact .taken (by omega)
  · have hone := hcount r b
    have hle := Bool.toNat_le ((s.reads r).getLsbD b)
    omega

theorem inv_init (irqEnable : U32) : Inv (.init irqEnable) where
  mask := fun b h => by simp [Irq.init] at h
  off := fun h => absurd h Bool.false_ne_true
  irqsrc := fun b => by simp [Irq.init]
  waiting := fun t ht => absurd ht List.not_mem_nil
  fresh := fun _ _ => rfl
  placed := fun r b => by simp [tokens, held, Irq.init]

/-- Changes that move no token and leave the registers of the interrupts alone -/
structure SameFlow (s s' : Irq) : Prop where
  mask : s'.fastIrqMask = s.fastIrqMask
  off : s'.offByIsr = s.offByIsr
  away : s.goingAway = true → s'.goingAway = true
  isr : s'.isr = s.isr
  scheduled : s'.scheduled = s.scheduled
  irqsrc : s'.irqsrc = s.irqsrc
  recorded : s'.recorded = s.recorded
  runs : s'.runs = s.runs
  reads : s'.reads = s.reads
  streamed : s'.streamed = s.streamed
  taken : s'.taken = s.taken

theorem Inv.congr (h : Inv s) (hs : SameFlow s s') (hentered : s.tasklet = .entered → s'.tasklet = .entered)
    (hbusy : s.offByIsr = true → s.tasklet ≠ .idle → s'.tasklet ≠ .idle ∨ s'.goingAway = true) : Inv s' where
  mask := hs.mask ▸ h.mask
  off := by
    intro hoff
    rw [hs.off] at hoff
    rw [hs.isr, hs.scheduled]
    rcases h.off hoff with haway | hisr | hscheduled | htasklet
    · exact .inl (hs.away haway)
    · exact .inr (.inl hisr)
    · exact .inr (.inr (.inl hscheduled))
    · exact (hbusy hoff htasklet).elim (fun h => .inr (.inr (.inr h))) .inl
  irqsrc := by
    rw [hs.irqsrc, hs.recorded]
    exact h.irqsrc
  waiting := by
    rw [hs.recorded, hs.isr, hs.scheduled]
    exact fun t ht => (h.waiting t ht).imp id (Or.imp id hentered)
  fresh := by
    rw [hs.runs, hs.reads]
    exact h.fresh
  placed := by
    simp only [tokens, hs.isr, hs.streamed, hs.recorded, hs.taken, hs.reads]
    exact h.placed

theorem getLsbD_tpceIrqDma {c : Channel} (h : (tpceIrqDma c).getLsbD b = true) : dmaBits.getLsbD b = true := by
  have hall : ∀ c : Channel, ∀ b < 32, (tpceIrqDma c).getLsbD b = true → dmaBits.getLsbD b = true := by decide
  exact hall c b (BitVec.lt_of_getLsbD h) h

theorem placed_fast (run : ℕ) (irqreg mask : U32) (hmask : ∀ b, mask.getLsbD b = true → dmaBits.getLsbD b = true)
    (r b : ℕ) : (held (.entered run irqreg)).countP (carries r b) =
      (held (if irqreg &&& ~~~mask = 0 then .idle else .disabling run (irqreg &&& ~~~mask))).countP (carries r b) +
        List.countP (carries r b) [⟨run, irqreg &&& mask &&& dmaBits⟩] := by
  have hrest : (held (if irqreg &&& ~~~mask = 0 then .idle else .disabling run (irqreg &&& ~~~mask))).countP
      (carries r b) = List.countP (carries r b) [⟨run, irqreg &&& ~~~mask⟩] := by
    split
    · rename_i hzero
      simp [held, carries, hzero]
    · rfl
  rw [hrest]
  simp only [held, List.countP_singleton, carries, BitVec.getLsbD_and, BitVec.getLsbD_not]
  by_cases hrun : run = r
  · by_cases hb : irqreg.getLsbD b = true
    · have hlt := BitVec.lt_of_getLsbD hb
      by_cases hm : mask.getLsbD b = true
      · simp [hrun, hb, hm, hmask b hm]
      · simp only [hb, Bool.eq_false_iff.mpr hm]
        simp [hrun, hlt]
    · simp [hb]
  · simp [hrun]

theorem stepped_inv (h : Inv s) (hstep : Stepped s o s') : Inv s' := by
  cases hstep with
  | isrNone => exact h
  | isrEnter irqreg active idle =>
      refine ⟨h.mask, fun hoff => ?_, h.irqsrc, fun t ht => ?_, fun r hr => ?_, fun r b => ?_⟩
      · have hdisabled := h.off hoff
        rw [idle] at hdisabled
        exact hdisabled
      · have hwaiting := h.waiting t ht
        rw [idle] at hwaiting
        exact .inr (hwaiting.resolve_left Isr.noConfusion)
      · have hne : r ≠ s.runs := Nat.ne_of_gt hr
        exact (Function.update_of_ne hne ..).trans (h.fresh r (Nat.le_of_succ_le hr))
      · have hplaced := h.placed r b
        simp only [tokens, idle, held, List.nil_append] at hplaced
        simp only [tokens, held, List.cons_append, List.nil_append, List.countP_cons, hplaced]
        by_cases hr : r = s.runs
        · subst hr
          rw [Function.update_self, h.fresh s.runs (Nat.le_refl _)]
          by_cases hb : irqreg.getLsbD b = true
          · simp [carries, hb]
          · simp [carries, hb]
        · rw [Function.update_of_ne hr]
          simp [carries, Ne.symm hr]
  | isrFast run irqreg entered fast =>
      refine ⟨h.mask, fun hoff => ?_, h.irqsrc, fun t ht => ?_, h.fresh, fun r b => ?_⟩
      · have hdisabled := h.off hoff
        rw [entered] at hdisabled
        exact hdisabled.imp id fun hrest => .inr (hrest.resolve_left Bool.false_ne_true)
      · have hwaiting := h.waiting t ht
        rw [entered] at hwaiting
        exact .inr (hwaiting.resolve_left Isr.noConfusion)
      · rw [← h.placed r b]
        simp only [tokens, entered, List.countP_append, List.countP_cons]
        rw [placed_fast run irqreg s.fastIrqMask h.mask r b, List.countP_singleton]
        omega
  | isrSlow run irqreg entered slow =>
      refine ⟨h.mask, fun hoff => ?_, h.irqsrc, fun t ht => ?_, h.fresh, fun r b => ?_⟩
      · have hdisabled := h.off hoff
        rw [entered] at hdisabled
        exact hdisabled
      · have hwaiting := h.waiting t ht
        rw [entered] at hwaiting
        exact .inr (hwaiting.resolve_left Isr.noConfusion)
      · rw [← h.placed r b]
        simp only [tokens, entered, held]
  | isrDisable run irqreg disabling =>
      refine ⟨h.mask, fun _ => .inr (.inl rfl), h.irqsrc, fun t ht => ?_, h.fresh, fun r b => ?_⟩
      · have hwaiting := h.waiting t ht
        rw [disabling] at hwaiting
        exact .inr (hwaiting.resolve_left Isr.noConfusion)
      · refine Eq.trans ?_ (h.placed r b)
        simp only [tokens, isrDisable, disabling, held]
  | isrRecord run irqreg recording =>
      refine ⟨h.mask, fun _ => .inr (.inl rfl), fun b => ?_, fun t ht => ?_, h.fresh, fun r b => ?_⟩
      · simp only [isrRecord, BitVec.getLsbD_or, List.any_cons, h.irqsrc b]
        exact Bool.or_comm _ _
      · rcases List.mem_cons.mp ht with rfl | ht
        · exact .inl rfl
        · have hwaiting := h.waiting t ht
          rw [recording] at hwaiting
          exact .inr (hwaiting.resolve_left Isr.noConfusion)
      · refine Eq.trans ?_ (h.placed r b)
        simp only [tokens, isrRecord, recording, held, List.countP_append, List.countP_cons, List.countP_nil]
        omega
  | isrSchedule run scheduling =>
      refine ⟨h.mask, fun _ => .inr (.inr (.inl rfl)), h.irqsrc, fun _ _ => .inr (.inl rfl), h.fresh, fun r b => ?_⟩
      refine Eq.trans ?_ (h.placed r b)
      simp only [tokens, isrSchedule, scheduling, held]
  | taskletEnter scheduled idle =>
      exact ⟨h.mask, fun _ => .inr (.inr (.inr Tasklet.noConfusion)), h.irqsrc, fun _ _ => .inr (.inr rfl), h.fresh,
        h.placed⟩
  | taskletFetch entered =>
      refine ⟨h.mask, fun _ => .inr (.inr (.inr Tasklet.noConfusion)), fun b => by simp [taskletFetch],
        fun t ht => absurd ht List.not_mem_nil, h.fresh, fun r b => ?_⟩
      refine Eq.trans ?_ (h.placed r b)
      simp only [tokens, taskletFetch, List.map_append, List.map_map, List.countP_append, List.countP_nil]
      have hid : s.recorded.map (Prod.snd ∘ fun t => (s.fetches, t)) = s.recorded := List.map_id _
      rw [hid]
      omega
  | taskletQueue irqsrc fetched =>
      refine h.congr ⟨rfl, rfl, id, rfl, rfl, rfl, rfl, rfl, rfl, rfl, rfl⟩ (fun he => ?_) fun _ _ => .inl ?_
      · cases fetched.symm.trans he
      · simp only [taskletQueue]
        split
        · exact Tasklet.noConfusion
        · exact Tasklet.noConfusion
  | taskletRead app =>
      refine h.congr ⟨rfl, rfl, id, rfl, rfl, rfl, rfl, rfl, rfl, rfl, rfl⟩ (fun he => ?_) fun _ _ =>
        .inl Tasklet.noConfusion
      cases app.symm.trans he
  | taskletClear clearing =>
      refine h.congr ⟨rfl, rfl, id, rfl, rfl, rfl, rfl, rfl, rfl, rfl, rfl⟩ (fun he => ?_) fun _ _ =>
        .inl Tasklet.noConfusion
      cases clearing.symm.trans he
  | taskletTest leaving =>
      refine h.congr ⟨rfl, rfl, id, rfl, rfl, rfl, rfl, rfl, rfl, rfl, rfl⟩ (fun he => ?_) fun _ _ => ?_
      · cases leaving.symm.trans he
      · simp only [taskletTest]
        split
        · rename_i haway
          exact .inr haway
        · exact .inl Tasklet.noConfusion
  | taskletEnable enabling =>
      refine ⟨h.mask, fun hoff => absurd hoff Bool.false_ne_true, h.irqsrc, fun t ht => ?_, h.fresh, h.placed⟩
      have hwaiting := h.waiting t ht
      rw [enabling] at hwaiting
      exact hwaiting.imp id fun hrest => .inl (hrest.resolve_right Tasklet.noConfusion)
  | fire events | ioctlEvent file copyOk | poll file | runWork c =>
      exact h.congr ⟨rfl, rfl, id, rfl, rfl, rfl, rfl, rfl, rfl, rfl, rfl⟩ id fun _ => .inl
  | enableStreamIrq c =>
      refine ⟨fun b hb => ?_, h.off, h.irqsrc, h.waiting, h.fresh, h.placed⟩
      rw [BitVec.getLsbD_or, Bool.or_eq_true] at hb
      exact hb.elim (h.mask b) getLsbD_tpceIrqDma
  | disableStreamIrq c =>
      refine ⟨fun b hb => ?_, h.off, h.irqsrc, h.waiting, h.fresh, h.placed⟩
      rw [BitVec.getLsbD_and, Bool.and_eq_true] at hb
      exact h.mask b hb.1
  | goAway =>
      exact h.congr ⟨rfl, rfl, fun _ => rfl, rfl, rfl, rfl, rfl, rfl, rfl, rfl, rfl⟩ id fun _ => .inl
  | removeDisable goingAway =>
      exact ⟨h.mask, fun hoff => absurd hoff Bool.false_ne_true, h.irqsrc, h.waiting, h.fresh, h.placed⟩

end TpceDrv.IrqSound
