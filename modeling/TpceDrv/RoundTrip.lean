import TpceDrv.PageTableMap
import TpceDrv.Translation
import Mathlib.Data.List.Forall2
import Mathlib.Tactic.SplitIfs

namespace TpceDrv.RoundTrip

open Descriptor DmaParams DmaInfo PageTable PageTableMap Translation

/-- The value that a register has last been set to. -/
def writtenValue (writes : MmioWrites) (offset : Nat) : Option U32 :=
  (writes.reverse.find? fun w => w.1 = offset).map (·.2)

/-- The bus address behind an address on the Avalon side, through the
translation entries that `writes` has programmed. -/
def decode (writes : MmioWrites) (addr : U64) : Option U64 :=
  let slot := (addr >>> alteraAddrPageSize).toNat
  match writtenValue writes (alteraPcieAvalonAddrTranslationLower + 8 * slot),
    writtenValue writes (alteraPcieAvalonAddrTranslationUpper + 8 * slot) with
  | some lo, some hi => some (pageOf (combine hi lo) ||| (addr &&& ~~~alteraAddrTranslationMask64))
  | _, _ => none

/-- The descriptor after translation leads to where it led before. -/
def LeadsBack (table : AlteraPciePageTable) (channel : U8) (desc desc' : TpceDmaDescriptor) : Prop :=
  decode (setPageTranslationRegs table channel) (tpceDescGetWrite desc') = some (tpceDescGetWrite desc)

theorem writtenValue_eq_some {writes : MmioWrites} {offset : Nat} {v : U32}
    (hmem : (offset, v) ∈ writes) (huniq : ∀ v', (offset, v') ∈ writes → v' = v) :
    writtenValue writes offset = some v := by
  simp only [writtenValue]
  cases h : writes.reverse.find? fun w => w.1 = offset with
  | none =>
      have := List.find?_eq_none.mp h (offset, v) (List.mem_reverse.mpr hmem)
      simp at this
  | some w =>
      have hw : w.1 = offset := by simpa using List.find?_some h
      have hm := List.mem_reverse.mp (List.mem_of_find?_eq_some h)
      obtain ⟨o, v'⟩ := w
      obtain rfl : o = offset := hw
      exact congrArg some (huniq v' hm)

theorem writtenValue_eq_none {writes : MmioWrites} {offset : Nat}
    (h : ∀ v, (offset, v) ∉ writes) : writtenValue writes offset = none := by
  simp only [writtenValue]
  cases hf : writes.reverse.find? fun w => w.1 = offset with
  | none => rfl
  | some w =>
      have hw : w.1 = offset := by simpa using List.find?_some hf
      obtain ⟨o, v⟩ := w
      obtain rfl : o = offset := hw
      exact absurd (List.mem_reverse.mp (List.mem_of_find?_eq_some hf)) (h v)

theorem getLsbD_mask64 {i : Nat} (hi : i < 64) :
    alteraAddrTranslationMask64.getLsbD i = decide (18 ≤ i) := by
  have h : ∀ i : Fin 64, alteraAddrTranslationMask64.getLsbD i = decide (18 ≤ i.val) := by decide
  exact h ⟨i, hi⟩

theorem getLsbD_mask {i : Nat} (hi : i < 32) :
    alteraAddrTranslationMask.getLsbD i = decide (18 ≤ i) := by
  have h : ∀ i : Fin 32, alteraAddrTranslationMask.getLsbD i = decide (18 ≤ i.val) := by decide
  exact h ⟨i, hi⟩

theorem getLsbD_spaceBit {i : Nat} (hi : 18 ≤ i) : pageTableSpaceBit.getLsbD i = false := by
  simp [pageTableSpaceBit, show i ≠ 0 by omega]

def tblLo (page : U64) : U32 := (page.setWidth 32 &&& alteraAddrTranslationMask) ||| pageTableSpaceBit

def tblHi (page : U64) : U32 := (page >>> 32).setWidth 32

theorem pageOf_entry (page : U64) : pageOf (combine (tblHi page) (tblLo page)) = pageOf page := by
  apply BitVec.eq_of_getLsbD_eq
  intro i hi
  simp only [pageOf, combine, tblHi, tblLo, BitVec.getLsbD_and, BitVec.getLsbD_or,
    BitVec.getLsbD_setWidth, BitVec.getLsbD_shiftLeft, BitVec.getLsbD_ushiftRight,
    getLsbD_mask64 hi]
  by_cases h18 : 18 ≤ i
  · by_cases h32 : i < 32
    · simp [-BitVec.getLsbD_eq_getElem, hi, h32, getLsbD_mask h32, getLsbD_spaceBit h18, h18]
    · have hspace : pageTableSpaceBit.getLsbD i = false := getLsbD_spaceBit h18
      simp [-BitVec.getLsbD_eq_getElem, hi, h32, h18, hspace, show i - 32 < 32 by omega,
        show i - 32 < 64 by omega, show 32 + (i - 32) = i by omega]
  · simp [h18]

theorem pageOf_or_offset (page addr : U64) :
    pageOf page ||| (addr &&& ~~~alteraAddrTranslationMask64) = addr ↔ pageOf page = pageOf addr := by
  constructor
  · intro h
    apply BitVec.eq_of_getLsbD_eq
    intro i hi
    have hb := congrArg (BitVec.getLsbD · i) h
    simp only [pageOf, BitVec.getLsbD_or, BitVec.getLsbD_and, BitVec.getLsbD_not, getLsbD_mask64 hi,
      hi, decide_true, Bool.true_and] at hb ⊢
    by_cases h18 : 18 ≤ i
    · simpa [h18] using hb
    · simp [h18]
  · intro h
    rw [h]
    apply BitVec.eq_of_getLsbD_eq
    intro i hi
    simp only [pageOf, BitVec.getLsbD_or, BitVec.getLsbD_and, BitVec.getLsbD_not, getLsbD_mask64 hi,
      hi, decide_true, Bool.true_and]
    by_cases h18 : 18 ≤ i
    · simp [h18]
    · simp [h18]

theorem pageOf_pageOf (addr : U64) : pageOf (pageOf addr) = pageOf addr := by
  rw [pageOf, pageOf, BitVec.and_assoc, BitVec.and_self]

/-- A translated address on the Avalon side, for any slot the translation
accepts. -/
theorem translated_bits (addr : U64) {slot : Nat} (hslot : slot ≤ 16) :
    ((combine 0 (pcieTranslateAddr64 addr slot)) >>> alteraAddrPageSize).toNat = slot ∧
      combine 0 (pcieTranslateAddr64 addr slot) &&& ~~~alteraAddrTranslationMask64 =
        addr &&& ~~~alteraAddrTranslationMask64 := by
  have hval : pcieTranslateAddr64 addr slot = (BitVec.ofNat 32 slot <<< 18) |||
      (addr &&& ~~~alteraAddrTranslationMask64).setWidth 32 := by
    rw [pcieTranslateAddr64, if_neg (by omega), BitVec.ofInt_natCast]
    rfl
  have hbit : ∀ j, 14 ≤ j → slot.testBit j = false := fun j hj =>
    Nat.testBit_lt_two_pow (Nat.lt_of_lt_of_le (Nat.lt_of_le_of_lt hslot (by decide))
      (Nat.pow_le_pow_right (by decide) hj))
  rw [hval]
  constructor
  · have heq : combine 0 ((BitVec.ofNat 32 slot <<< 18) |||
        (addr &&& ~~~alteraAddrTranslationMask64).setWidth 32) >>> alteraAddrPageSize =
          BitVec.ofNat 64 slot := by
      apply BitVec.eq_of_getLsbD_eq
      intro j hj
      simp only [combine, alteraAddrPageSize, BitVec.getLsbD_ushiftRight, BitVec.getLsbD_or,
        BitVec.getLsbD_setWidth, BitVec.getLsbD_shiftLeft, BitVec.getLsbD_and, BitVec.getLsbD_not,
        BitVec.getLsbD_ofNat, BitVec.ofNat_eq_ofNat]
      by_cases h14 : j < 14
      · simp [-BitVec.getLsbD_eq_getElem, show 18 + j < 64 by omega, show 18 + j < 32 by omega,
          show j < 64 by omega, show j < 32 by omega, getLsbD_mask64 (show 18 + j < 64 by omega)]
      · simp [-BitVec.getLsbD_eq_getElem, show ¬ 18 + j < 32 by omega, hbit j (by omega)]
    rw [heq, BitVec.toNat_ofNat, Nat.mod_eq_of_lt (by omega)]
  · apply BitVec.eq_of_getLsbD_eq
    intro j hj
    simp only [combine, BitVec.getLsbD_or, BitVec.getLsbD_setWidth, BitVec.getLsbD_shiftLeft,
      BitVec.getLsbD_and, BitVec.getLsbD_not, getLsbD_mask64 hj, BitVec.ofNat_eq_ofNat,
      BitVec.getLsbD_zero]
    by_cases h18 : 18 ≤ j
    · simp [h18]
    · simp [h18, hj, show j < 32 by omega, show j < 18 by omega]

theorem pciePageActive_iff {table : AlteraPciePageTable} {i : Fin 16} {channel : U8} :
    pciePageActive table i channel = true ↔ ∃ v, slots table i = some (v, channel) := by
  simp [pciePageActive, slots]

theorem mem_setPageTranslationRegs {table : AlteraPciePageTable} {channel : U8} {offset : Nat}
    {v : U32} : (offset, v) ∈ setPageTranslationRegs table channel ↔
      ∃ i : Fin 16, pciePageActive table i channel = true ∧
        ((offset = alteraPcieAvalonAddrTranslationLower + 8 * i.val ∧ v = tblLo (table.pages i)) ∨
          (offset = alteraPcieAvalonAddrTranslationUpper + 8 * i.val ∧ v = tblHi (table.pages i))) := by
  simp only [setPageTranslationRegs]
  rw [List.mem_flatMap]
  refine exists_congr fun i => ?_
  by_cases h : pciePageActive table i channel = true
  · simp [h, tblLo, tblHi]
  · simp [h]

theorem decode_slot {table : AlteraPciePageTable} {channel : U8} {i : Fin 16} {page addr : U64}
    (hslot : slots table i = some (page, channel)) (haddr : (addr >>> alteraAddrPageSize).toNat = i) :
    decode (setPageTranslationRegs table channel) addr =
      some (pageOf page ||| (addr &&& ~~~alteraAddrTranslationMask64)) := by
  have hactive : pciePageActive table i channel = true := pciePageActive_iff.mpr ⟨page, hslot⟩
  have hpage : table.pages i = page := (slots_eq_some.mp hslot).2.1
  have hlo : writtenValue (setPageTranslationRegs table channel)
      (alteraPcieAvalonAddrTranslationLower + 8 * i.val) = some (tblLo page) := by
    refine writtenValue_eq_some (mem_setPageTranslationRegs.mpr ⟨i, hactive, .inl ⟨rfl, by rw [hpage]⟩⟩)
      fun v hv => ?_
    obtain ⟨j, -, ⟨ho, hv⟩ | ⟨ho, -⟩⟩ := mem_setPageTranslationRegs.mp hv
    · obtain rfl : i = j := Fin.ext (by omega)
      rw [hv, hpage]
    · simp only [alteraPcieAvalonAddrTranslationLower, alteraPcieAvalonAddrTranslationUpper] at ho
      omega
  have hhi : writtenValue (setPageTranslationRegs table channel)
      (alteraPcieAvalonAddrTranslationUpper + 8 * i.val) = some (tblHi page) := by
    refine writtenValue_eq_some (mem_setPageTranslationRegs.mpr ⟨i, hactive, .inr ⟨rfl, by rw [hpage]⟩⟩)
      fun v hv => ?_
    obtain ⟨j, -, ⟨ho, -⟩ | ⟨ho, hv⟩⟩ := mem_setPageTranslationRegs.mp hv
    · simp only [alteraPcieAvalonAddrTranslationLower, alteraPcieAvalonAddrTranslationUpper] at ho
      omega
    · obtain rfl : i = j := Fin.ext (by omega)
      rw [hv, hpage]
  unfold decode
  rw [haddr]
  dsimp only
  rw [hlo, hhi]
  exact congrArg (fun p => some (p ||| _)) (pageOf_entry page)

theorem decode_beyond (table : AlteraPciePageTable) (channel : U8) {addr : U64}
    (haddr : (addr >>> alteraAddrPageSize).toNat = 16) :
    decode (setPageTranslationRegs table channel) addr = none := by
  have hlo : writtenValue (setPageTranslationRegs table channel)
      (alteraPcieAvalonAddrTranslationLower + 8 * 16) = none := by
    refine writtenValue_eq_none fun v hv => ?_
    obtain ⟨j, -, ⟨ho, -⟩ | ⟨ho, -⟩⟩ := mem_setPageTranslationRegs.mp hv
    · omega
    · simp only [alteraPcieAvalonAddrTranslationLower, alteraPcieAvalonAddrTranslationUpper] at ho
      omega
  unfold decode
  rw [haddr]
  dsimp only
  rw [hlo]

def translated (desc : TpceDmaDescriptor) (slot : Int) : TpceDmaDescriptor :=
  { desc with
    writeAddressLow := pcieTranslateAddr64 (tpceDescGetWrite desc) slot
    writeAddressHigh := 0 }

theorem leadsBack_slot {table : AlteraPciePageTable} {channel : U8} {i : Fin 16} {page : U64}
    (hslot : slots table i = some (page, channel)) (desc : TpceDmaDescriptor) :
    LeadsBack table channel desc (translated desc i) ↔ pageOf page = pageOf (tpceDescGetWrite desc) := by
  obtain ⟨hs, ho⟩ := translated_bits (tpceDescGetWrite desc) (show i.val ≤ 16 by omega)
  have haddr : tpceDescGetWrite (translated desc i) =
      combine 0 (pcieTranslateAddr64 (tpceDescGetWrite desc) (i.val : Int)) := rfl
  rw [LeadsBack, haddr, decode_slot hslot hs, ho, Option.some_inj, pageOf_or_offset]

theorem not_leadsBack_beyond (table : AlteraPciePageTable) (channel : U8) (desc : TpceDmaDescriptor) :
    ¬ LeadsBack table channel desc (translated desc 16) := by
  obtain ⟨hs, -⟩ := translated_bits (tpceDescGetWrite desc) (Nat.le_refl 16)
  have haddr : tpceDescGetWrite (translated desc 16) =
      combine 0 (pcieTranslateAddr64 (tpceDescGetWrite desc) ((16 : Nat) : Int)) := rfl
  rw [LeadsBack, haddr, decode_beyond table channel hs]
  exact fun h => by cases h

/-- Whether each descriptor that lies in the page met last for the first time
directly follows a descriptor of the same page. `known` are the pages that
have a slot, `newest` is the page whose slot was allocated last. -/
def RevisitsInPlace (known : List U64) (newest : U64) (prev : Option U64) : List U64 → Prop
  | [] => True
  | p :: ps => (p = newest → prev = some p) ∧
      RevisitsInPlace (p :: known) (if p ∈ known then newest else p) (some p) ps

instance RevisitsInPlace.decidable : ∀ known newest prev ps, Decidable (RevisitsInPlace known newest prev ps)
  | _, _, _, [] => .isTrue True.intro
  | known, newest, _, p :: ps =>
      have := RevisitsInPlace.decidable (p :: known) (if p ∈ known then newest else p) (some p) ps
      inferInstanceAs (Decidable (_ ∧ _))

def knownPages (table : AlteraPciePageTable) (channel : U8) : List U64 :=
  (List.finRange 16).filterMap fun i =>
    if pciePageActive table i channel then some (table.pages i) else none

/-- What the loop variables stand for between two descriptors. -/
structure LookupInv (channel : U8) (known : List U64) (newest : U64) (prev : Option U64)
    (st : RwLookup) : Prop where
  known : ∀ q, q ∈ known ↔ ∃ i, slots st.table i = some (q, channel)
  newest : st.currPage = newest
  slot : ∀ p, prev = some p → ∃ i : Fin 16, st.slot = i ∧ slots st.table i = some (p, channel)

def Extends (t t' : AlteraPciePageTable) : Prop :=
  ∀ i e, slots t i = some e → slots t' i = some e

theorem mem_knownPages {table : AlteraPciePageTable} {channel : U8} {q : U64} :
    q ∈ knownPages table channel ↔ ∃ i, slots table i = some (q, channel) := by
  simp only [knownPages, pciePageActive, List.mem_filterMap, List.mem_finRange, true_and,
    Bool.and_eq_true, decide_eq_true_eq, Option.ite_none_right_eq_some, Option.some.injEq, slots_eq_some]
  exact exists_congr fun i => ⟨fun h => ⟨h.1.1, h.2, h.1.2⟩, fun h => ⟨⟨h.1, h.2.2⟩, h.2.1⟩⟩

theorem LookupInv.start (channel : U8) (table : AlteraPciePageTable) (slot₀ : Int) :
    LookupInv channel (knownPages table channel) 0 none ⟨table, 0, slot₀, 0⟩ where
  known _ := mem_knownPages
  newest := rfl
  slot p h := by cases h

theorem extends_store {t : AlteraPciePageTable} {i : Fin 16} (hfree : slots t i = none) (v : U64)
    (c : U8) : Extends t (t.store i v c) := by
  intro j e hj
  rw [slots_store]
  by_cases h : j = i
  · subst j
    rw [hfree] at hj
    cases hj
  · rw [Function.update_of_ne h, hj]

/-- What one lookup does: nothing for the current page, else it finds the
slot of the page or gives it one. -/
theorem lookupPage_cases {channel : U8} (hc : channel ≠ uint8Max) {st st' : RwLookup} {p : U64}
    (h : lookupPage channel st p = .ok st') :
    (p = st.currPage ∧ st' = st) ∨
      (p ≠ st.currPage ∧ ∃ i : Fin 16, slots st.table i = some (p, channel) ∧
        st' = { st with slot := i }) ∨
      (p ≠ st.currPage ∧ (∀ i, slots st.table i ≠ some (p, channel)) ∧
        ∃ i : Fin 16, slots st.table i = none ∧
          st' = ⟨st.table.store i p channel, p, i, st.usedEntries + 1⟩) := by
  simp only [lookupPage] at h
  split at h
  · rename_i hne
    rcases pciePageFindValue_spec st.table p hc with ⟨i, hf, hi⟩ | ⟨hf, hnone⟩
    · rw [hf, if_neg (by omega)] at h
      cases h
      exact .inr (.inl ⟨Ne.symm hne, i, hi, rfl⟩)
    · rw [hf, if_pos rfl] at h
      rcases pciePageAlloc_spec st.table p channel with ⟨i, hi, ha⟩ | ⟨-, ha⟩
      · rw [ha] at h
        dsimp only at h
        rw [if_neg (by omega)] at h
        cases h
        exact .inr (.inr ⟨Ne.symm hne, hnone, i, hi, rfl⟩)
      · rw [ha] at h
        cases h
  · rename_i heq
    cases h
    exact .inl ⟨(Decidable.not_not.mp heq).symm, rfl⟩

theorem lookupPage_extends {channel : U8} (hc : channel ≠ uint8Max) {st st' : RwLookup} {p : U64}
    (h : lookupPage channel st p = .ok st') : Extends st.table st'.table := by
  rcases lookupPage_cases hc h with ⟨-, rfl⟩ | ⟨-, i, -, rfl⟩ | ⟨-, -, i, hfree, rfl⟩
  · exact fun _ _ => id
  · exact fun _ _ => id
  · exact extends_store hfree p channel

theorem translateRwLoop_cons {channel : U8} {st fin : RwLookup} {desc : TpceDmaDescriptor}
    {rest out : List TpceDmaDescriptor}
    (h : translateRwLoop channel st (desc :: rest) = (true, fin, out)) :
    ∃ st' out', lookupPage channel st (pageOf (tpceDescGetWrite desc)) = .ok st' ∧
      translateRwLoop channel st' rest = (true, fin, out') ∧ out = translated desc st'.slot :: out' := by
  simp only [translateRwLoop] at h
  split at h
  · cases h
  · rename_i st' hst
    simp only [Prod.mk.injEq] at h
    obtain ⟨hdone, hfin, hout⟩ := h
    exact ⟨st', _, hst, Prod.ext hdone (Prod.ext hfin rfl), hout.symm⟩

theorem translateRwLoop_extends {channel : U8} (hc : channel ≠ uint8Max)
    {descs out : List TpceDmaDescriptor} {st fin : RwLookup}
    (h : translateRwLoop channel st descs = (true, fin, out)) : Extends st.table fin.table := by
  induction descs generalizing st out with
  | nil =>
      cases h
      exact fun _ _ => id
  | cons desc rest ih =>
      obtain ⟨st', out', hst, hrest, -⟩ := translateRwLoop_cons h
      exact fun i e he => ih hrest i e (lookupPage_extends hc hst i e he)

/-- One descriptor: the invariant holds behind it unless it reuses a slot
that is not its page's. -/
theorem LookupInv.step {channel : U8} (hc : channel ≠ uint8Max) {known : List U64} {newest p : U64}
    {prev : Option U64} {st st' : RwLookup} (hinv : LookupInv channel known newest prev st)
    (hreuse : p = newest → prev = some p) (h : lookupPage channel st p = .ok st') :
    LookupInv channel (p :: known) (if p ∈ known then newest else p) (some p) st' := by
  have hcurr := hinv.newest
  rcases lookupPage_cases hc h with ⟨hp, rfl⟩ | ⟨-, i, hi, rfl⟩ | ⟨-, hnone, i, hfree, rfl⟩
  · obtain ⟨i, hslot, hi⟩ := hinv.slot p (hreuse (hp.trans hcurr))
    have hknown : p ∈ known := (hinv.known p).mpr ⟨i, hi⟩
    refine ⟨fun q => ?_, by rw [if_pos hknown]; exact hcurr, fun q hq => by cases hq; exact ⟨i, hslot, hi⟩⟩
    rw [List.mem_cons, ← hinv.known]
    exact ⟨fun h => h.elim (fun h => h ▸ hknown) id, .inr⟩
  · have hknown : p ∈ known := (hinv.known p).mpr ⟨i, hi⟩
    refine ⟨fun q => ?_, by rw [if_pos hknown]; exact hcurr, fun q hq => by cases hq; exact ⟨i, rfl, hi⟩⟩
    rw [List.mem_cons, ← hinv.known]
    exact ⟨fun h => h.elim (fun h => h ▸ hknown) id, .inr⟩
  · have hfresh : ¬ p ∈ known := fun hk => by
      obtain ⟨j, hj⟩ := (hinv.known p).mp hk
      exact hnone j hj
    refine ⟨fun q => ?_, by rw [if_neg hfresh], fun q hq => ?_⟩
    · simp only [List.mem_cons, hinv.known, slots_store]
      constructor
      · rintro (rfl | ⟨j, hj⟩)
        · exact ⟨i, Function.update_self ..⟩
        · refine ⟨j, ?_⟩
          have hne : j ≠ i := fun hji => by
            subst j
            rw [hfree] at hj
            cases hj
          rw [Function.update_of_ne hne, hj]
      · rintro ⟨j, hj⟩
        by_cases hji : j = i
        · subst j
          rw [Function.update_self] at hj
          cases hj
          exact .inl rfl
        · rw [Function.update_of_ne hji] at hj
          exact .inr ⟨j, hj⟩
    · cases hq
      exact ⟨i, rfl, by rw [slots_store, Function.update_self]⟩

theorem leadsBack_of_reuse {channel : U8} (hc : channel ≠ uint8Max) {known : List U64} {newest : U64}
    {prev : Option U64} {st st' : RwLookup} {desc : TpceDmaDescriptor} {t : AlteraPciePageTable}
    (hinv : LookupInv channel known newest prev st)
    (hreuse : pageOf (tpceDescGetWrite desc) = newest → prev = some (pageOf (tpceDescGetWrite desc)))
    (h : lookupPage channel st (pageOf (tpceDescGetWrite desc)) = .ok st')
    (ht : Extends st'.table t) : LeadsBack t channel desc (translated desc st'.slot) := by
  obtain ⟨i, hslot, hi⟩ := (hinv.step hc hreuse h).slot _ rfl
  rw [hslot, leadsBack_slot (ht i _ hi), pageOf_pageOf]

/-- A slot that is reused for another page, or before any slot is known, leads
somewhere else. -/
theorem reuse_of_leadsBack {channel : U8} (hc : channel ≠ uint8Max) {known : List U64} {newest : U64}
    {prev : Option U64} {st st' : RwLookup} {desc : TpceDmaDescriptor} {t : AlteraPciePageTable}
    (hinv : LookupInv channel known newest prev st) (hstart : prev = none → st.slot = 16)
    (hmasked : ∀ q, prev = some q → pageOf q = q)
    (h : lookupPage channel st (pageOf (tpceDescGetWrite desc)) = .ok st')
    (ht : Extends st'.table t) (hback : LeadsBack t channel desc (translated desc st'.slot))
    (hp : pageOf (tpceDescGetWrite desc) = newest) : prev = some (pageOf (tpceDescGetWrite desc)) := by
  rcases lookupPage_cases hc h with ⟨-, rfl⟩ | ⟨hne, -⟩ | ⟨hne, -⟩
  · cases hprev : prev with
    | none =>
        rw [hstart hprev] at hback
        exact absurd hback (not_leadsBack_beyond t channel desc)
    | some q =>
        obtain ⟨i, hslot, hi⟩ := hinv.slot q hprev
        rw [hslot, leadsBack_slot (ht i _ hi), hmasked q hprev] at hback
        rw [hback]
  · exact absurd (hp.trans hinv.newest.symm) hne
  · exact absurd (hp.trans hinv.newest.symm) hne

theorem loop_leadsBack {channel : U8} (hc : channel ≠ uint8Max) {descs out : List TpceDmaDescriptor}
    {known : List U64} {newest : U64} {prev : Option U64} {st fin : RwLookup}
    (hinv : LookupInv channel known newest prev st)
    (h : translateRwLoop channel st descs = (true, fin, out))
    (hre : RevisitsInPlace known newest prev (descs.map fun d => pageOf (tpceDescGetWrite d))) :
    List.Forall₂ (LeadsBack fin.table channel) descs out := by
  induction descs generalizing known newest prev st out with
  | nil =>
      cases h
      exact .nil
  | cons desc rest ih =>
      obtain ⟨st', out', hst, hrest, rfl⟩ := translateRwLoop_cons h
      obtain ⟨hreuse, hre⟩ := hre
      exact .cons (leadsBack_of_reuse hc hinv hreuse hst (translateRwLoop_extends hc hrest))
        (ih (hinv.step hc hreuse hst) hrest hre)

theorem loop_revisits {channel : U8} (hc : channel ≠ uint8Max) {descs out : List TpceDmaDescriptor}
    {known : List U64} {newest : U64} {prev : Option U64} {st fin : RwLookup}
    (hinv : LookupInv channel known newest prev st) (hstart : prev = none → st.slot = 16)
    (hmasked : ∀ q, prev = some q → pageOf q = q)
    (h : translateRwLoop channel st descs = (true, fin, out))
    (hback : List.Forall₂ (LeadsBack fin.table channel) descs out) :
    RevisitsInPlace known newest prev (descs.map fun d => pageOf (tpceDescGetWrite d)) := by
  induction descs generalizing known newest prev st out with
  | nil => exact True.intro
  | cons desc rest ih =>
      obtain ⟨st', out', hst, hrest, rfl⟩ := translateRwLoop_cons h
      obtain ⟨hhead, htail⟩ := List.forall₂_cons.mp hback
      have hreuse := reuse_of_leadsBack hc hinv hstart hmasked hst (translateRwLoop_extends hc hrest) hhead
      exact ⟨hreuse, ih (hinv.step hc hreuse hst) (fun hn => by cases hn)
        (fun q hq => by cases hq; exact pageOf_pageOf _) hrest htail⟩

theorem translateRwLoop_slot (channel : U8) (descs : List TpceDmaDescriptor) (st st₁ : RwLookup)
    (htable : st.table = st₁.table) (hcurr : st.currPage = st₁.currPage) :
    (translateRwLoop channel st descs).1 = (translateRwLoop channel st₁ descs).1 := by
  induction descs generalizing st st₁ with
  | nil => rfl
  | cons desc rest ih =>
      obtain ⟨table, currPage, slot, used⟩ := st
      obtain ⟨table₁, currPage₁, slot₁, used₁⟩ := st₁
      obtain rfl : table = table₁ := htable
      obtain rfl : currPage = currPage₁ := hcurr
      simp only [translateRwLoop, lookupPage]
      split_ifs
      · rfl
      · exact ih _ _ rfl rfl
      · exact ih _ _ rfl rfl
      · exact ih _ _ rfl rfl

def activePages (info : TpceDmaInfo) : List U64 :=
  (info.descDma.take (info.descActive / descriptorSize).toNat).map fun d => pageOf (tpceDescGetWrite d)

/-- Every active descriptor's new write address decodes to the bus address it
had, when `slot` starts out as `slot₀`. -/
def RoundTrips (slot₀ : Int) (pageTable : AlteraPciePageTable) (info : TpceDmaInfo) : Prop :=
  let r := translateDescriptorRwAddr slot₀ pageTable info
  let active := (info.descActive / descriptorSize).toNat
  List.Forall₂ (LeadsBack r.2.1 info.params.channel) (info.descDma.take active)
    (r.2.2.descDma.take active)

theorem take_append_drop_of_length {α : Type} {l out : List α} {n : ℕ}
    (h : out.length = (l.take n).length) : (out ++ l.drop n).take n = out := by
  rw [List.length_take] at h
  rcases Nat.le_total n l.length with hn | hn
  · exact List.take_left' (by omega)
  · rw [List.drop_of_length_le hn, List.append_nil, List.take_of_length_le (by omega)]

theorem translate_ok (slot₀ : Int) {slot₁ : Int} {pageTable : AlteraPciePageTable} {info : TpceDmaInfo}
    (hdir : info.params.direction = tpceDmaFromDevice)
    (hok : 0 ≤ (translateDescriptorRwAddr slot₁ pageTable info).1) :
    ∃ fin out, translateRwLoop info.params.channel ⟨pageTable, 0, slot₀, 0⟩
        (info.descDma.take (info.descActive / descriptorSize).toNat) = (true, fin, out) ∧
      (RoundTrips slot₀ pageTable info ↔ List.Forall₂ (LeadsBack fin.table info.params.channel)
        (info.descDma.take (info.descActive / descriptorSize).toNat) out) := by
  have hslot := translateRwLoop_slot info.params.channel
    (info.descDma.take (info.descActive / descriptorSize).toNat)
    ⟨pageTable, 0, slot₁, 0⟩ ⟨pageTable, 0, slot₀, 0⟩ rfl rfl
  have hlen := length_translateRwLoop info.params.channel ⟨pageTable, 0, slot₀, 0⟩
    (info.descDma.take (info.descActive / descriptorSize).toNat)
  simp only [RoundTrips]
  simp only [translateDescriptorRwAddr, hdir, if_true] at hok ⊢
  rw [hslot] at hok
  generalize translateRwLoop info.params.channel ⟨pageTable, 0, slot₀, 0⟩
    (info.descDma.take (info.descActive / descriptorSize).toNat) = r at *
  obtain ⟨done, fin, out⟩ := r
  cases done with
  | false =>
      have hneg : (0 : Int) ≤ -Errno.enospc := hok
      exact absurd hneg (by decide)
  | true =>
      refine ⟨fin, out, rfl, ?_⟩
      simp only [if_true, take_append_drop_of_length hlen]

/-- A successful translation round-trips for every first value of `slot`
exactly when the pages are revisited in place. -/
theorem round_trip_iff {slot₁ : Int} {pageTable : AlteraPciePageTable} {info : TpceDmaInfo}
    (hchannel : info.params.channel.toNat < tpceDmaNumChannels)
    (hdir : info.params.direction = tpceDmaFromDevice)
    (hok : 0 ≤ (translateDescriptorRwAddr slot₁ pageTable info).1) :
    (∀ slot₀, RoundTrips slot₀ pageTable info) ↔
      RevisitsInPlace (knownPages pageTable info.params.channel) 0 none (activePages info) := by
  have hc : info.params.channel ≠ uint8Max := fun h => by
    rw [h] at hchannel
    exact absurd hchannel (by decide)
  constructor
  · intro h
    obtain ⟨fin, out, hloop, hiff⟩ := translate_ok 16 hdir hok
    exact loop_revisits hc (LookupInv.start _ pageTable 16) (fun _ => rfl) (fun q hq => by cases hq)
      hloop (hiff.mp (h 16))
  · intro h slot₀
    obtain ⟨fin, out, hloop, hiff⟩ := translate_ok slot₀ hdir hok
    exact hiff.mpr (loop_leadsBack hc (LookupInv.start _ pageTable slot₀) hloop h)

/-- A channel with active descriptors that write to the given bus addresses. -/
def writingTo (addrs : List U64) : TpceDmaInfo :=
  { TpceDmaInfo.zero with
    params := { TpceDmaInfo.zero.params with direction := tpceDmaFromDevice }
    descDma := addrs.map fun a => tpceDescSetWrite64 {} a
    descActive := descriptorSize * BitVec.ofNat 32 addrs.length }

theorem round_trip_two_pages :
    RoundTrips 0 .empty (writingTo [0x7fff40000#64, 0x7fff41000#64, 0x123480000#64]) := by
  have hiff := @round_trip_iff 0 .empty (writingTo [0x7fff40000#64, 0x7fff41000#64, 0x123480000#64])
    (by decide) rfl (by decide)
  exact hiff.mpr ⟨by decide, by decide, by decide, True.intro⟩ 0

/-- Pages A, B, A, B: the fourth descriptor is in the current page, and keeps
the slot of the third. -/
theorem alternating_pages_do_not_round_trip :
    (translateDescriptorRwAddr 0 .empty
      (writingTo [0x40000#64, 0x80000#64, 0x40000#64, 0x80000#64])).1 = 2 ∧
    ¬ RoundTrips 0 .empty (writingTo [0x40000#64, 0x80000#64, 0x40000#64, 0x80000#64]) := by
  refine ⟨by decide, fun h => ?_⟩
  have hlast := (List.forall₂_iff_get.mp h).2 3 (by decide) (by decide)
  exact absurd hlast (by unfold LeadsBack; decide)

end TpceDrv.RoundTrip
