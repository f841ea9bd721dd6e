import TpceDrv.Library.BitMask
import TpceDrv.Library.PointwiseFold
import TpceDrv.Library.Runs
import TpceDrv.PageTable

namespace TpceDrv.PageTableMap

open PageTable Library

/-- What the table stands for: a partial map from slots to a page address and
the channel that owns it. -/
abbrev SlotMap := Fin 16 → Option (U64 × U8)

def slots (t : AlteraPciePageTable) : SlotMap :=
  fun i => if t.used i then some (t.pages i, t.activeChannel i) else none

theorem toNat_pageOffset (addr : U64) : (addr &&& ~~~alteraAddrTranslationMask64).toNat = addr.toNat % 2 ^ 18 :=
  Nat.and_two_pow_sub_one_eq_mod addr.toNat 18

theorem used_eq (t : AlteraPciePageTable) (i : Fin 16) : t.used i = t.usedMask.getLsbD i := by
  rw [Bool.eq_iff_iff]
  simpa [AlteraPciePageTable.used] using BitMask.and_one_shiftLeft_ne_zero t.usedMask i.val

theorem slots_eq_some {t : AlteraPciePageTable} {i : Fin 16} {v : U64} {c : U8} :
    slots t i = some (v, c) ↔ t.used i ∧ t.pages i = v ∧ t.activeChannel i = c := by
  simp [slots]

theorem slots_eq_none {t : AlteraPciePageTable} {i : Fin 16} : slots t i = none ↔ t.used i = false := by
  simp [slots]

theorem builtinFfs_spec {w : Nat} {x : BitVec w} (hx : x ≠ 0) :
    ∃ i, i < w ∧ builtinFfs x = i + 1 ∧ x.getLsbD i = true := by
  cases h : (List.range w).find? x.getLsbD with
  | none =>
      exfalso
      apply hx
      apply BitVec.eq_of_getLsbD_eq
      intro i hi
      simpa using List.find?_eq_none.mp h i (List.mem_range.mpr hi)
  | some i =>
      exact ⟨i, List.mem_range.mp (List.mem_of_find?_eq_some h), by simp [builtinFfs, h],
        List.find?_some h⟩

theorem findFirstZeroU16_spec (t : AlteraPciePageTable) :
    (∃ i : Fin 16, findFirstZeroU16 t.usedMask = i ∧ t.used i = false) ∨
      (findFirstZeroU16 t.usedMask = -1 ∧ ∀ i, t.used i = true) := by
  by_cases h : ~~~t.usedMask = 0#16
  · right
    refine ⟨by simp [findFirstZeroU16, h], fun i => ?_⟩
    have hi := congrArg (BitVec.getLsbD · i.val) h
    rw [used_eq]
    simpa using hi
  · left
    obtain ⟨i, hi, hf, hb⟩ := builtinFfs_spec h
    refine ⟨⟨i, hi⟩, by simp [findFirstZeroU16, h, hf], ?_⟩
    rw [used_eq]
    simpa [hi] using hb

theorem store_eq (t : AlteraPciePageTable) (i : Fin 16) (v : U64) (c : U8) :
    t.store i v c = ⟨Function.update t.pages i v, Function.update t.activeChannel i c,
      t.usedMask ||| (1#16 <<< i.val)⟩ := by
  have hi : (0 : Int) ≤ i ∧ (i : Int) < 16 := by omega
  rw [AlteraPciePageTable.store, dif_pos hi]
  rfl

theorem used_store (t : AlteraPciePageTable) (i j : Fin 16) (v : U64) (c : U8) :
    (t.store i v c).used j = (t.used j || decide (j = i)) := by
  rw [used_eq, used_eq, store_eq, BitMask.getLsbD_or_one_shiftLeft _ j.isLt]
  simp only [Fin.ext_iff]

theorem slots_store (t : AlteraPciePageTable) (i : Fin 16) (v : U64) (c : U8) :
    slots (t.store i v c) = Function.update (slots t) i (some (v, c)) := by
  funext j
  unfold slots
  rw [used_store, store_eq]
  by_cases hj : j = i
  · subst j
    simp
  · simp [hj]

theorem slots_pciePageFree (t : AlteraPciePageTable) (i : Fin 16) :
    slots (pciePageFree t i) = Function.update (slots t) i none := by
  funext j
  have hu : (pciePageFree t i).used j = (t.used j && !decide (j = i)) := by
    rw [used_eq, used_eq, pciePageFree, BitMask.getLsbD_andNot_one_shiftLeft _ j.isLt]
    simp only [Fin.ext_iff]
  unfold slots
  rw [hu]
  by_cases hj : j = i
  · subst j
    simp
  · simp [pciePageFree, hj]

theorem skips_eq_false {t : AlteraPciePageTable} {c : U8} (hc : c ≠ uint8Max) {i : Fin 16} :
    t.skips c i = false ↔ t.used i ∧ t.activeChannel i = c := by
  simp [AlteraPciePageTable.skips, hc]

theorem slots_freeByChannelId (t : AlteraPciePageTable) {c : U8} (hc : c ≠ uint8Max) (i : Fin 16) :
    slots (pciePageFreeByChannelId t c) i = (slots t i).filter (fun e => e.2 ≠ c) := by
  rw [pciePageFreeByChannelId, PointwiseFold.view_foldl slots _
    (fun _ e => e.filter (fun e => e.2 ≠ c)) ?_ _ (List.nodup_finRange 16)]
  · simp
  · intro t j
    by_cases hs : t.skips c j
    · rw [if_pos hs]
      refine (Function.update_eq_self_iff.mpr ?_).symm
      by_cases hu : t.used j
      · have ha : t.activeChannel j ≠ c := by
          intro ha
          simp [(skips_eq_false hc).mpr ⟨hu, ha⟩] at hs
        simp [slots, hu, ha]
      · simp [slots, hu]
    · obtain ⟨hu, ha⟩ := (skips_eq_false hc).mp (by simpa using hs)
      rw [if_neg hs, slots_pciePageFree]
      simp [slots, hu, ha, Option.filter]

theorem pciePageFindValue_spec (t : AlteraPciePageTable) (v : U64) {c : U8} (hc : c ≠ uint8Max) :
    (∃ i : Fin 16, pciePageFindValue t v c = i ∧ slots t i = some (v, c)) ∨
      (pciePageFindValue t v c = -1 ∧ ∀ i, slots t i ≠ some (v, c)) := by
  simp only [pciePageFindValue]
  cases h : (List.finRange 16).find? fun slot => !t.skips c slot && t.pages slot = v with
  | none =>
      right
      refine ⟨rfl, fun i hi => ?_⟩
      obtain ⟨hu, hv, ha⟩ := slots_eq_some.mp hi
      have hn := List.find?_eq_none.mp h i (List.mem_finRange i)
      simp [(skips_eq_false hc).mpr ⟨hu, ha⟩, hv] at hn
  | some i =>
      left
      have hp := List.find?_some h
      simp only [Bool.and_eq_true, Bool.not_eq_true', decide_eq_true_eq] at hp
      obtain ⟨hu, ha⟩ := (skips_eq_false hc).mp hp.1
      exact ⟨i, rfl, slots_eq_some.mpr ⟨hu, hp.2, ha⟩⟩

theorem pciePageAlloc_spec (t : AlteraPciePageTable) (v : U64) (c : U8) :
    (∃ i : Fin 16, slots t i = none ∧
        pciePageAlloc t v c = ⟨i, t.store i v c, [(i : Int), (i : Int)]⟩) ∨
      ((∀ i, slots t i ≠ none) ∧ pciePageAlloc t v c = ⟨-1, t, [-1, -1]⟩) := by
  rcases findFirstZeroU16_spec t with ⟨i, hf, hu⟩ | ⟨hf, hu⟩
  · left
    refine ⟨i, slots_eq_none.mpr hu, ?_⟩
    have hi : ¬(i : Int) ≥ 16 := by omega
    simp only [pciePageAlloc, hf, if_neg hi]
  · right
    refine ⟨fun i => by simp [slots, hu i], ?_⟩
    simp [pciePageAlloc, hf, AlteraPciePageTable.store]

inductive PageOp
  | alloc (value : U64) (channel : Channel)
  | freeByChannelId (channel : Channel)
  | findValue (value : U64) (channel : Channel)

def PageOp.channel : PageOp → Channel
  | .alloc _ c | .freeByChannelId c | .findValue _ c => c

structure PageOutcome where
  result : Option Int
  table : AlteraPciePageTable
  accesses : List Int

/-- The scans of the other two functions run over all sixteen slots. -/
def perform (t : AlteraPciePageTable) : PageOp → PageOutcome
  | .alloc v c =>
      let r := pciePageAlloc t v c.id
      ⟨some r.slot, r.table, r.accesses⟩
  | .freeByChannelId c =>
      ⟨none, pciePageFreeByChannelId t c.id, (List.finRange 16).map fun i => (i.val : Int)⟩
  | .findValue v c =>
      ⟨some (pciePageFindValue t v c.id), t, (List.finRange 16).map fun i => (i.val : Int)⟩

def next (t : AlteraPciePageTable) (op : PageOp) : Option AlteraPciePageTable :=
  some (perform t op).table

/-- The abstract machine: a finite map with sixteen places. -/
inductive MapStep : SlotMap → PageOp → Option Int → SlotMap → Prop
  | alloc (m) (v) (c : Channel) (i : Fin 16) (hfree : m i = none) :
      MapStep m (.alloc v c) (some i) (Function.update m i (some (v, c.id)))
  | full (m) (v) (c) (hfull : ∀ i, m i ≠ none) : MapStep m (.alloc v c) (some (-1)) m
  | free (m) (c : Channel) :
      MapStep m (.freeByChannelId c) none (fun i => (m i).filter (fun e => e.2 ≠ c.id))
  | found (m) (v) (c : Channel) (i : Fin 16) (hi : m i = some (v, c.id)) :
      MapStep m (.findValue v c) (some i) m
  | absent (m) (v) (c : Channel) (ha : ∀ i, m i ≠ some (v, c.id)) :
      MapStep m (.findValue v c) (some (-1)) m

theorem MapStep.frame {m m' : SlotMap} {op : PageOp} {r : Option Int} (h : MapStep m op r m')
    (i : Fin 16) (v : U64) {c : U8} (hc : c ≠ op.channel.id) :
    m' i = some (v, c) ↔ m i = some (v, c) := by
  cases h with
  | full | found | absent => rfl
  | alloc w d j hfree =>
      by_cases hj : i = j
      · subst i
        simp only [Function.update_self, hfree, Option.some.injEq, Prod.mk.injEq, reduceCtorEq,
          iff_false, not_and]
        exact fun _ he => hc he.symm
      · simp [hj]
  | free d =>
      rw [Option.filter_eq_some_iff]
      exact and_iff_left (decide_eq_true hc)

theorem perform_refines (t : AlteraPciePageTable) (op : PageOp) :
    MapStep (slots t) op (perform t op).result (slots (perform t op).table) := by
  cases op with
  | alloc v c =>
      rcases pciePageAlloc_spec t v c.id with ⟨i, hi, he⟩ | ⟨hfull, he⟩
      · simp only [perform, he, slots_store]
        exact .alloc _ v c i hi
      · simp only [perform, he]
        exact .full _ v c hfull
  | freeByChannelId c =>
      have he : slots (pciePageFreeByChannelId t c.id) =
          fun i => (slots t i).filter (fun e => e.2 ≠ c.id) :=
        funext (slots_freeByChannelId t c.id_ne_uint8Max)
      simp only [perform, he]
      exact .free _ c
  | findValue v c =>
      rcases pciePageFindValue_spec t v c.id_ne_uint8Max with ⟨i, hf, hi⟩ | ⟨hf, ha⟩
      · simp only [perform, hf]
        exact .found _ v c i hi
      · simp only [perform, hf]
        exact .absent _ v c ha

/-- What one call owes: it follows the abstract map, a full table survives an
allocation as it is, every array access is in bounds, and the slots of the
other channels stay. -/
structure Contract (t : AlteraPciePageTable) (op : PageOp) : Prop where
  refines : MapStep (slots t) op (perform t op).result (slots (perform t op).table)
  fullUnchanged : ∀ v c, op = .alloc v c → (∀ i, slots t i ≠ none) → (perform t op).table = t
  inBounds : ∀ i ∈ (perform t op).accesses, 0 ≤ i ∧ i < 16
  others : ∀ i v c, c ≠ op.channel.id →
    (slots (perform t op).table i = some (v, c) ↔ slots t i = some (v, c))

/-- No allocation on a table whose sixteen slots are all in use. -/
def HasRoom (t : AlteraPciePageTable) (op : PageOp) : Prop :=
  ∀ v c, op = .alloc v c → t.usedMask ≠ 0xffff#16

theorem usedMask_eq_full {t : AlteraPciePageTable} :
    t.usedMask = 0xffff#16 ↔ ∀ i, slots t i ≠ none := by
  have hones (i : Fin 16) : (0xffff#16).getLsbD i = true := by
    revert i
    decide
  simp only [ne_eq, slots_eq_none, Bool.not_eq_false, used_eq]
  constructor
  · intro h i
    rw [h, hones]
  · intro h
    apply BitVec.eq_of_getLsbD_eq
    intro i hi
    rw [h ⟨i, hi⟩, hones ⟨i, hi⟩]

theorem scan_inBounds : ∀ i ∈ (List.finRange 16).map fun i => (i.val : Int), 0 ≤ i ∧ i < 16 := by
  intro i hi
  obtain ⟨j, -, rfl⟩ := List.mem_map.mp hi
  omega

theorem contract_iff_hasRoom (t : AlteraPciePageTable) (op : PageOp) : Contract t op ↔ HasRoom t op := by
  have others := fun i v c hc => (perform_refines t op).frame i v (c := c) hc
  cases op with
  | alloc v c =>
      rcases pciePageAlloc_spec t v c.id with ⟨i, hi, he⟩ | ⟨hfull, he⟩
      · have hroom : ¬∀ i, slots t i ≠ none := fun h => h i hi
        refine iff_of_true ⟨perform_refines t _, fun _ _ _ h => absurd h hroom, ?_, others⟩ ?_
        · intro j hj
          simp only [perform, he, List.mem_cons, List.not_mem_nil, or_false, or_self] at hj
          omega
        · exact fun _ _ _ h => hroom (usedMask_eq_full.mp h)
      · refine iff_of_false (fun h => ?_) (fun h => h v c rfl (usedMask_eq_full.mpr hfull))
        have := h.inBounds (-1) (by simp [perform, he])
        omega
  | freeByChannelId c =>
      exact iff_of_true ⟨perform_refines t _, nofun, scan_inBounds, others⟩ nofun
  | findValue v c =>
      exact iff_of_true ⟨perform_refines t _, nofun, scan_inBounds, others⟩ nofun

/-- Over any sequence of calls on the empty table, every call keeps the
contract exactly when no allocation meets a full table. -/
theorem run_contract_iff_hasRoom (ops : List PageOp) :
    Runs.Along next Contract .empty ops ↔ Runs.Along next HasRoom .empty ops :=
  Runs.along_congr (K := fun _ => True) (fun _ _ _ _ _ => trivial)
    (fun t op _ => contract_iff_hasRoom t op) ops trivial

theorem seventeenth_alloc_out_of_bounds :
    ¬Runs.Along next Contract .empty (List.replicate 17 (.alloc 0 0)) := by
  intro h
  have hrun := Runs.run_total (fun t op => (perform t op).table) .empty
    (List.replicate 16 (.alloc 0 0))
  have hlast := h.at_step (show _ = List.replicate 16 (.alloc 0 0) ++ .alloc 0 0 :: [] from rfl) hrun rfl
  exact absurd (hlast.inBounds (-1) (by decide +kernel)) (by decide)

end TpceDrv.PageTableMap
