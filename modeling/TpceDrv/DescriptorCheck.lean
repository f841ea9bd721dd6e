import TpceDrv.Descriptor
import TpceDrv.Mapping

namespace TpceDrv.DescriptorCheck

open Descriptor Mapping

/-- `check_add_overflow` on 64-bit operands -/
def checkAddOverflow (a b : U64) : Bool × U64 := (2 ^ 64 ≤ a.toNat + b.toNat, a + b)

def dmaRangeInSg (sg : Scatterlist) (start stop : U64) : Bool :=
  let sum := checkAddOverflow sg.dmaAddress (sg.dmaLength.setWidth 64)
  sg.dmaLength ≠ 0 && !sum.1 && sg.dmaAddress ≤ start && stop ≤ sum.2

/-- The verdict and the cached entry for the next call. -/
def dmaRangeInSgt (sgt : SgTable) (cachedSg : Option Scatterlist) (addr : U64) (len : U32) :
    Bool × Option Scatterlist :=
  let sum := checkAddOverflow addr (len.setWidth 64)
  if len = 0 || sum.1 then (false, cachedSg)
  else if cachedSg.any fun sg => dmaRangeInSg sg addr sum.2 then (true, cachedSg)
  else
    match sgt.dmaEntries.find? fun sg => dmaRangeInSg sg addr sum.2 with
    | some sg => (true, some sg)
    | none => (false, cachedSg)

def validateDescLoop (sgt : SgTable) (checkReadAddr : Bool) :
    Option Scatterlist → List TpceDmaDescriptor → Int
  | _, [] => 0
  | cachedSg, desc :: rest =>
      let addr := if checkReadAddr then tpceDescGetRead desc else tpceDescGetWrite desc
      let found := dmaRangeInSgt sgt cachedSg addr desc.transferLength
      if found.1 then validateDescLoop sgt checkReadAddr found.2 rest else -tpceErrInvalidDesc

/-- Neither pointer is null where the driver calls it. -/
def tpceValidateDescMem (mapInfo : TpceDmaMapInfo) (descs : List TpceDmaDescriptor) (ndesc : Nat)
    (checkReadAddr : Bool) : Int :=
  validateDescLoop mapInfo.sgt checkReadAddr none (descs.take ndesc)

/-- The bytes `[addr, addr + len)` lie in one entry, and neither end wraps. -/
def InEntry (addr : U64) (len : ℕ) (sg : Scatterlist) : Prop :=
  sg.dmaAddress.toNat ≤ addr.toNat ∧ addr.toNat + len ≤ sg.dmaAddress.toNat + sg.dmaLength.toNat ∧
    sg.dmaAddress.toNat + sg.dmaLength.toNat < 2 ^ 64

def checkedAddr (checkReadAddr : Bool) (desc : TpceDmaDescriptor) : U64 :=
  if checkReadAddr then tpceDescGetRead desc else tpceDescGetWrite desc

theorem hostAddr_eq_checkedAddr {direction : U8}
    (h : direction = tpceDmaToDevice ∨ direction = tpceDmaFromDevice) (desc : TpceDmaDescriptor) :
    checkedAddr (direction = tpceDmaToDevice) desc = hostAddr direction desc := by
  rcases h with rfl | rfl
  · rfl
  · rfl

theorem dmaRangeInSg_iff {sg : Scatterlist} {addr : U64} {len : U32} (hlen : len ≠ 0)
    (hfit : addr.toNat + len.toNat < 2 ^ 64) :
    dmaRangeInSg sg addr (addr + len.setWidth 64) = true ↔ InEntry addr len.toNat sg := by
  have hpos : 0 < len.toNat := Nat.pos_of_ne_zero fun h => hlen (BitVec.eq_of_toNat_eq h)
  have hwide : ∀ x : U32, (x.setWidth 64).toNat = x.toNat := fun x => by
    rw [BitVec.toNat_setWidth]
    exact Nat.mod_eq_of_lt (by omega)
  have hstop : (addr + len.setWidth 64).toNat = addr.toNat + len.toNat := by
    rw [BitVec.toNat_add, hwide, Nat.mod_eq_of_lt hfit]
  have hzero : sg.dmaLength = 0 ↔ sg.dmaLength.toNat = 0 :=
    ⟨fun h => by rw [h]; rfl, fun h => BitVec.eq_of_toNat_eq h⟩
  simp only [dmaRangeInSg, checkAddOverflow, hwide, InEntry, Bool.and_eq_true, decide_eq_true_eq,
    Bool.not_eq_true', decide_eq_false_iff_not, Nat.not_le, BitVec.le_def, hstop, ne_eq, hzero]
  constructor
  · rintro ⟨⟨⟨-, hsum⟩, hlo⟩, hhi⟩
    rw [BitVec.toNat_add, hwide, Nat.mod_eq_of_lt hsum] at hhi
    exact ⟨hlo, hhi, hsum⟩
  · rintro ⟨hlo, hhi, hsum⟩
    rw [BitVec.toNat_add, hwide, Nat.mod_eq_of_lt hsum]
    exact ⟨⟨⟨by omega, hsum⟩, hlo⟩, hhi⟩

/-- A cached entry is one of the table, so the cache does not change the
verdict. -/
theorem dmaRangeInSgt_spec {sgt : SgTable} {cachedSg : Option Scatterlist} (addr : U64) (len : U32)
    (hcache : ∀ sg ∈ cachedSg, sg ∈ sgt.dmaEntries) :
    ((dmaRangeInSgt sgt cachedSg addr len).1 = true ↔ len ≠ 0 ∧ addr.toNat + len.toNat < 2 ^ 64 ∧
        ∃ sg ∈ sgt.dmaEntries, InEntry addr len.toNat sg) ∧
      ∀ sg ∈ (dmaRangeInSgt sgt cachedSg addr len).2, sg ∈ sgt.dmaEntries := by
  have hwide : (len.setWidth 64).toNat = len.toNat := by
    rw [BitVec.toNat_setWidth]
    exact Nat.mod_eq_of_lt (by omega)
  by_cases hbad : len = 0 ∨ 2 ^ 64 ≤ addr.toNat + len.toNat
  · have hres : dmaRangeInSgt sgt cachedSg addr len = (false, cachedSg) := by
      simp only [dmaRangeInSgt, checkAddOverflow, hwide]
      exact if_pos (by simpa using hbad)
    rw [hres]
    refine ⟨⟨fun h => (Bool.false_ne_true h).elim, fun h => ?_⟩, hcache⟩
    rcases hbad with h0 | hover
    · exact absurd h0 h.1
    · exact absurd h.2.1 (Nat.not_lt.mpr hover)
  · obtain ⟨hlen, hfit⟩ := not_or.mp hbad
    have hfit := Nat.not_le.mp hfit
    have hres : dmaRangeInSgt sgt cachedSg addr len =
        if cachedSg.any fun sg => dmaRangeInSg sg addr (addr + len.setWidth 64) then (true, cachedSg)
        else match sgt.dmaEntries.find? fun sg => dmaRangeInSg sg addr (addr + len.setWidth 64) with
          | some sg => (true, some sg)
          | none => (false, cachedSg) := by
      simp only [dmaRangeInSgt, checkAddOverflow, hwide]
      exact if_neg (by simpa using ⟨hlen, hfit⟩)
    rw [hres]
    split
    · rename_i hhit
      obtain ⟨sg, rfl, hin⟩ := (Option.any_eq_true _ _).mp hhit
      exact ⟨⟨fun _ => ⟨hlen, hfit, sg, hcache sg rfl, (dmaRangeInSg_iff hlen hfit).mp hin⟩,
        fun _ => rfl⟩, hcache⟩
    · split
      · rename_i sg hfind
        have hin : dmaRangeInSg sg addr (addr + len.setWidth 64) = true := by
          simpa using List.find?_some hfind
        refine ⟨⟨fun _ => ⟨hlen, hfit, sg, List.mem_of_find?_eq_some hfind,
          (dmaRangeInSg_iff hlen hfit).mp hin⟩, fun _ => rfl⟩, ?_⟩
        rintro sg' ⟨⟩
        exact List.mem_of_find?_eq_some hfind
      · rename_i hfind
        refine ⟨⟨fun h => (Bool.false_ne_true h).elim, ?_⟩, hcache⟩
        rintro ⟨-, -, sg, hsg, hin⟩
        exact absurd ((dmaRangeInSg_iff hlen hfit).mpr hin) (List.find?_eq_none.mp hfind sg hsg)

theorem validateDescLoop_iff {sgt : SgTable} {checkReadAddr : Bool} {cachedSg : Option Scatterlist}
    {descs : List TpceDmaDescriptor} (hcache : ∀ sg ∈ cachedSg, sg ∈ sgt.dmaEntries) :
    validateDescLoop sgt checkReadAddr cachedSg descs = 0 ↔ ∀ desc ∈ descs,
      desc.transferLength ≠ 0 ∧ (checkedAddr checkReadAddr desc).toNat + desc.transferLength.toNat < 2 ^ 64 ∧
        ∃ sg ∈ sgt.dmaEntries, InEntry (checkedAddr checkReadAddr desc) desc.transferLength.toNat sg := by
  induction descs generalizing cachedSg with
  | nil => simp [validateDescLoop]
  | cons desc rest ih =>
      obtain ⟨hverdict, hnext⟩ := dmaRangeInSgt_spec (checkedAddr checkReadAddr desc) desc.transferLength hcache
      rw [List.forall_mem_cons, ← ih hnext, ← hverdict]
      simp only [validateDescLoop]
      change (if (dmaRangeInSgt sgt cachedSg (checkedAddr checkReadAddr desc) desc.transferLength).1 = true then
        _ else _) = (0 : Int) ↔ _
      split
      · rename_i hfound
        exact ⟨fun h => ⟨hfound, h⟩, And.right⟩
      · rename_i hfound
        exact ⟨fun h => absurd h (by decide), fun h => absurd h.1 hfound⟩

theorem tpceValidateDescMem_iff {mapInfo : TpceDmaMapInfo} {descs : List TpceDmaDescriptor} {ndesc : ℕ}
    {checkReadAddr : Bool} :
    tpceValidateDescMem mapInfo descs ndesc checkReadAddr = 0 ↔ ∀ desc ∈ descs.take ndesc,
      desc.transferLength ≠ 0 ∧ (checkedAddr checkReadAddr desc).toNat + desc.transferLength.toNat < 2 ^ 64 ∧
        ∃ sg ∈ mapInfo.sgt.dmaEntries,
          InEntry (checkedAddr checkReadAddr desc) desc.transferLength.toNat sg :=
  validateDescLoop_iff fun _ h => by cases h

/-- The loop with a full scan of the table for each descriptor -/
def scanDescs (sgt : SgTable) (checkReadAddr : Bool) : List TpceDmaDescriptor → Int
  | [] => 0
  | desc :: rest =>
      if (dmaRangeInSgt sgt none (checkedAddr checkReadAddr desc) desc.transferLength).1 then
        scanDescs sgt checkReadAddr rest
      else -tpceErrInvalidDesc

/-- The bytes are in a segment that is not empty and does not wrap around. -/
structure Contained (addr : U64) (len : ℕ) (sg : Scatterlist) : Prop where
  nonempty : 0 < sg.dmaLength.toNat
  bounded : sg.dmaAddress.toNat + sg.dmaLength.toNat < 2 ^ 64
  start : sg.dmaAddress.toNat ≤ addr.toNat
  stop : addr.toNat + len ≤ sg.dmaAddress.toNat + sg.dmaLength.toNat

theorem contained_iff {addr : U64} {len : ℕ} {sg : Scatterlist} (hlen : 0 < len) :
    Contained addr len sg ↔ InEntry addr len sg := by
  constructor
  · intro h
    exact ⟨h.start, h.stop, h.bounded⟩
  · rintro ⟨hstart, hstop, hbounded⟩
    exact ⟨by omega, hbounded, hstart, hstop⟩

/-- Whatever entry of the table is cached, the verdict is that of a scan. -/
theorem validateDescLoop_scan {sgt : SgTable} {checkReadAddr : Bool} {cachedSg : Option Scatterlist}
    {descs : List TpceDmaDescriptor} (hcache : ∀ sg ∈ cachedSg, sg ∈ sgt.dmaEntries) :
    validateDescLoop sgt checkReadAddr cachedSg descs = scanDescs sgt checkReadAddr descs := by
  induction descs generalizing cachedSg with
  | nil => rfl
  | cons desc rest ih =>
      obtain ⟨hverdict, hnext⟩ := dmaRangeInSgt_spec (checkedAddr checkReadAddr desc) desc.transferLength hcache
      have hscan := (dmaRangeInSgt_spec (checkedAddr checkReadAddr desc) desc.transferLength
        (show ∀ sg ∈ (none : Option Scatterlist), sg ∈ sgt.dmaEntries from fun _ h => by cases h)).1
      have hsame := Bool.eq_iff_iff.mpr (hverdict.trans hscan.symm)
      rw [scanDescs, ← hsame, ← ih hnext]
      rfl

/-- The check is exact, and the cached entry is only a shortcut. -/
theorem validation_exact (mapInfo : TpceDmaMapInfo) (descs : List TpceDmaDescriptor) (ndesc : ℕ)
    (checkReadAddr : Bool) :
    (tpceValidateDescMem mapInfo descs ndesc checkReadAddr = 0 ↔ ∀ desc ∈ descs.take ndesc,
      0 < desc.transferLength.toNat ∧
      (checkedAddr checkReadAddr desc).toNat + desc.transferLength.toNat < 2 ^ 64 ∧
      ∃ sg ∈ mapInfo.sgt.dmaEntries, Contained (checkedAddr checkReadAddr desc) desc.transferLength.toNat sg) ∧
    tpceValidateDescMem mapInfo descs ndesc checkReadAddr =
      scanDescs mapInfo.sgt checkReadAddr (descs.take ndesc) := by
  refine ⟨?_, validateDescLoop_scan fun _ h => by cases h⟩
  rw [tpceValidateDescMem_iff]
  refine forall₂_congr fun desc _ => ?_
  have hpos : desc.transferLength ≠ 0 ↔ 0 < desc.transferLength.toNat :=
    ⟨fun h => Nat.pos_of_ne_zero fun hz => h (BitVec.eq_of_toNat_eq hz), fun h hz => by simp [hz] at h⟩
  rw [hpos]
  exact and_congr_right fun hlen => by simp only [contained_iff hlen]

end TpceDrv.DescriptorCheck
