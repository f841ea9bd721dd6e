import TpceDrv.ChannelSteps
import TpceDrv.Requests

namespace TpceDrv.MappingTable

open Mapping ChannelSteps Requests

/-- What the driver knows of its mappings: the table of ids, the structures in
memory and the address of the next one, the lists of the files, and the mapping
that each channel points to. -/
structure Maps where
  ids : U32 → Option ℕ
  infos : ℕ → Option TpceDmaMapInfo
  next : ℕ
  lists : ℕ → List ℕ
  used : Channel → Option ℕ

def unlisted (lists : ℕ → List ℕ) (m : TpceDmaMapInfo) (obj file : ℕ) : List ℕ :=
  if m.owner = some file then (lists file).erase obj else lists file

def Maps.lock (s : Maps) (file : ℕ) (m : TpceDmaMapInfo) : Maps where
  ids := Function.update s.ids m.id (some s.next)
  infos := Function.update s.infos s.next (some m)
  next := s.next + 1
  lists := Function.update s.lists file (s.lists file ++ [s.next])
  used := s.used

def Maps.accept (s : Maps) (c : Channel) (obj : ℕ) (m : TpceDmaMapInfo) : Maps :=
  { s with
    infos := Function.update s.infos obj (some { m with activeChannel := c.val })
    used := Function.update s.used c (some obj) }

def Maps.reset (s : Maps) (c : Channel) : Maps :=
  { s with infos := releasedInfos s.infos (s.used c), used := Function.update s.used c none }

/-- The mapping goes, and the channel that it is marked with lets it go. -/
def Maps.unmap (s : Maps) (obj : ℕ) (m : TpceDmaMapInfo) : Maps where
  ids := Function.update s.ids m.id none
  infos := Function.update s.infos obj none
  next := s.next
  lists := unlisted s.lists m obj
  used := fun c => if m.activeChannel = c.val then none else s.used c

/-- The table of ids and the lists of the files agree, and a mark names the
channel that points to the mapping. -/
structure Maps.Consistent (s : Maps) : Prop where
  live : ∀ obj m, s.infos obj = some m → s.ids m.id = some obj
  registered : ∀ id obj, s.ids id = some obj →
    (1 ≤ id.toNat ∧ id.toNat ≤ tpceDmaMapIdMax) ∧ ∃ m, s.infos obj = some m ∧ m.id = id
  owned : ∀ file obj, obj ∈ s.lists file ↔ ∃ m, s.infos obj = some m ∧ m.owner = some file
  nodup : ∀ file, (s.lists file).Nodup
  fresh : ∀ obj, s.next ≤ obj → s.infos obj = none
  marked : ∀ obj m, s.infos obj = some m →
    m.activeChannel = tpceMapInactive ∨ ∃ c : Channel, m.activeChannel = c.val ∧ s.used c = some obj

variable {s s' : Maps} {c : Channel} {file obj : ℕ} {m m' : TpceDmaMapInfo}

/-- A mapping but for its mark -/
def unmarked (m : TpceDmaMapInfo) : TpceDmaMapInfo := { m with activeChannel := tpceMapInactive }

/-- At most the marks differ. -/
structure SameRecords (s s' : Maps) : Prop where
  ids : s'.ids = s.ids
  next : s'.next = s.next
  lists : s'.lists = s.lists
  infos : ∀ obj, (s'.infos obj).map unmarked = (s.infos obj).map unmarked

theorem SameRecords.refl (s : Maps) : SameRecords s s := ⟨rfl, rfl, rfl, fun _ => rfl⟩

theorem SameRecords.symm (h : SameRecords s s') : SameRecords s' s :=
  ⟨h.ids.symm, h.next.symm, h.lists.symm, fun obj => (h.infos obj).symm⟩

theorem SameRecords.trans {s'' : Maps} (h : SameRecords s s') (h' : SameRecords s' s'') : SameRecords s s'' :=
  ⟨h'.ids.trans h.ids, h'.next.trans h.next, h'.lists.trans h.lists, fun obj => (h'.infos obj).trans (h.infos obj)⟩

theorem SameRecords.old (h : SameRecords s s') (hm : s'.infos obj = some m') :
    ∃ m, s.infos obj = some m ∧ unmarked m = unmarked m' := by
  have hinfos := h.infos obj
  rw [hm] at hinfos
  exact Option.map_eq_some_iff.mp hinfos.symm

theorem unmarked_id (h : unmarked m = unmarked m') : m.id = m'.id :=
  show (unmarked m).id = (unmarked m').id from congrArg TpceDmaMapInfo.id h

theorem unmarked_owner (h : unmarked m = unmarked m') : m.owner = m'.owner :=
  show (unmarked m).owner = (unmarked m').owner from congrArg TpceDmaMapInfo.owner h

theorem Maps.Consistent.remark (h : s.Consistent) (hsame : SameRecords s s')
    (hmarked : ∀ obj m, s'.infos obj = some m →
      m.activeChannel = tpceMapInactive ∨ ∃ c : Channel, m.activeChannel = c.val ∧ s'.used c = some obj) :
    s'.Consistent := by
  refine ⟨fun obj m' hm' => ?_, fun id obj hid => ?_, fun file obj => ?_, fun file => ?_, fun obj hle => ?_, hmarked⟩
  · obtain ⟨m, hm, heq⟩ := hsame.old hm'
    rw [hsame.ids, ← unmarked_id heq]
    exact h.live obj m hm
  · rw [hsame.ids] at hid
    obtain ⟨hrange, m, hm, rfl⟩ := h.registered id obj hid
    obtain ⟨m', hm', heq⟩ := hsame.symm.old hm
    exact ⟨hrange, m', hm', unmarked_id heq⟩
  · rw [hsame.lists, h.owned]
    constructor
    · rintro ⟨m, hm, howner⟩
      obtain ⟨m', hm', heq⟩ := hsame.symm.old hm
      exact ⟨m', hm', (unmarked_owner heq).trans howner⟩
    · rintro ⟨m', hm', howner⟩
      obtain ⟨m, hm, heq⟩ := hsame.old hm'
      exact ⟨m, hm, (unmarked_owner heq).trans howner⟩
  · rw [hsame.lists]
    exact h.nodup file
  · rw [hsame.next] at hle
    have hnone := hsame.infos obj
    rw [h.fresh obj hle] at hnone
    exact Option.map_eq_none_iff.mp hnone

theorem sameRecords_accept (hm : s.infos obj = some m) : SameRecords s (s.accept c obj m) := by
  refine ⟨rfl, rfl, rfl, fun obj' => ?_⟩
  by_cases hne : obj' = obj
  · subst hne
    simp [Maps.accept, hm, unmarked]
  · simp [Maps.accept, hne]

theorem sameRecords_reset : SameRecords s (s.reset c) := by
  refine ⟨rfl, rfl, rfl, fun obj' => ?_⟩
  cases hused : s.used c with
  | none => simp [Maps.reset, releasedInfos, hused]
  | some obj =>
      by_cases hne : obj' = obj
      · subst hne
        cases hm : s.infos obj' with
        | none => simp [Maps.reset, releasedInfos, hused, hm]
        | some m => simp [Maps.reset, releasedInfos, hused, hm, unmarked]
      · simp [Maps.reset, releasedInfos, hused, hne]

theorem mark_inj {c' : Channel} (h : m.activeChannel = c.val) (h' : m.activeChannel = c'.val) : c' = c :=
  Fin.ext (by omega)

theorem Maps.Consistent.accept (h : s.Consistent) (hm : s.infos obj = some m) (hfree : s.used c = none) :
    (s.accept c obj m).Consistent := by
  refine h.remark (sameRecords_accept hm) fun obj' m' hm' => ?_
  simp only [Maps.accept] at hm' ⊢
  by_cases hne : obj' = obj
  · subst hne
    rw [Function.update_self] at hm'
    cases hm'
    exact .inr ⟨c, rfl, Function.update_self ..⟩
  · rw [Function.update_of_ne hne] at hm'
    refine (h.marked obj' m' hm').imp id fun ⟨c', hc', hused⟩ => ⟨c', hc', ?_⟩
    have hother : c' ≠ c := fun heq => by
      rw [heq, hfree] at hused
      cases hused
    rw [Function.update_of_ne hother]
    exact hused

theorem Maps.Consistent.reset (h : s.Consistent) (c : Channel) : (s.reset c).Consistent := by
  refine h.remark sameRecords_reset fun obj' m' hm' => ?_
  have hkept : s.used c ≠ some obj' → s.infos obj' = some m' := fun hne => by
    cases hobj : s.used c with
    | none => simpa [Maps.reset, releasedInfos, hobj] using hm'
    | some obj =>
        have hother : obj' ≠ obj := fun heq => hne (heq ▸ hobj)
        simpa [Maps.reset, releasedInfos, hobj, hother] using hm'
  by_cases hused : s.used c = some obj'
  · simp only [Maps.reset, releasedInfos, hused, Function.update_self] at hm'
    obtain ⟨m, -, rfl⟩ := Option.map_eq_some_iff.mp hm'
    exact .inl rfl
  · refine (h.marked obj' m' (hkept hused)).imp id ?_
    rintro ⟨c', hc', hused'⟩
    have hother : c' ≠ c := fun heq => hused (heq ▸ hused')
    exact ⟨c', hc', (Function.update_of_ne hother ..).trans hused'⟩

theorem mem_unlisted (h : s.Consistent) (hm : s.infos obj = some m) (file obj' : ℕ) :
    obj' ∈ unlisted s.lists m obj file ↔ obj' ≠ obj ∧ obj' ∈ s.lists file := by
  have hother : m.owner ≠ some file → obj' ∈ s.lists file → obj' ≠ obj := fun hne hmem heq => by
    obtain ⟨m', hm', howner⟩ := (h.owned file obj').mp hmem
    rw [heq, hm] at hm'
    cases hm'
    exact hne howner
  simp only [unlisted]
  split
  · exact (h.nodup file).mem_erase_iff
  · rename_i howner
    exact ⟨fun hmem => ⟨hother howner hmem, hmem⟩, And.right⟩

theorem nodup_unlisted (h : s.Consistent) (m : TpceDmaMapInfo) (obj file : ℕ) :
    (unlisted s.lists m obj file).Nodup := by
  simp only [unlisted]
  split
  · exact (h.nodup file).erase obj
  · exact h.nodup file

theorem unmap_infos {obj' : ℕ} (hm : (s.unmap obj m).infos obj' = some m') : obj' ≠ obj ∧ s.infos obj' = some m' := by
  simp only [Maps.unmap] at hm
  by_cases hne : obj' = obj
  · subst hne
    rw [Function.update_self] at hm
    cases hm
  · rw [Function.update_of_ne hne] at hm
    exact ⟨hne, hm⟩

theorem Maps.Consistent.unmap (h : s.Consistent) (hm : s.infos obj = some m) : (s.unmap obj m).Consistent := by
  have hid : ∀ obj' m', obj' ≠ obj → s.infos obj' = some m' → m'.id ≠ m.id := fun obj' m' hne hm' heq => by
    have hreg := (h.live obj' m' hm').symm.trans (heq ▸ h.live obj m hm)
    exact hne (Option.some.inj hreg)
  refine ⟨fun obj' m' hm' => ?_, fun id obj' hid' => ?_, fun file obj' => ?_, nodup_unlisted h m obj,
    fun obj' hle => ?_, fun obj' m' hm' => ?_⟩
  · obtain ⟨hne, hm'⟩ := unmap_infos hm'
    exact (Function.update_of_ne (hid obj' m' hne hm') ..).trans (h.live obj' m' hm')
  · simp only [Maps.unmap] at hid' ⊢
    have hne : id ≠ m.id := fun heq => by
      rw [heq, Function.update_self] at hid'
      cases hid'
    rw [Function.update_of_ne hne] at hid'
    obtain ⟨hrange, m', hm', rfl⟩ := h.registered id obj' hid'
    have hobj : obj' ≠ obj := fun heq => by
      rw [heq, hm] at hm'
      cases hm'
      exact hne rfl
    exact ⟨hrange, m', (Function.update_of_ne hobj ..).trans hm', rfl⟩
  · have hmem := mem_unlisted h hm file obj'
    simp only [Maps.unmap]
    rw [hmem, h.owned]
    constructor
    · rintro ⟨hne, m', hm', howner⟩
      exact ⟨m', (Function.update_of_ne hne ..).trans hm', howner⟩
    · rintro ⟨m', hm', howner⟩
      have hlive : (s.unmap obj m).infos obj' = some m' := hm'
      obtain ⟨hne, hm'⟩ := unmap_infos hlive
      exact ⟨hne, m', hm', howner⟩
  · by_cases hne : obj' = obj
    · subst hne
      exact Function.update_self ..
    · exact (Function.update_of_ne hne ..).trans (h.fresh obj' hle)
  · obtain ⟨hne, hm'⟩ := unmap_infos hm'
    refine (h.marked obj' m' hm').imp id fun ⟨c, hc, hused⟩ => ⟨c, hc, ?_⟩
    have hother : m.activeChannel ≠ c.val := fun heq => by
      rcases h.marked obj m hm with hno | ⟨c', hc', hused'⟩
      · exact absurd (hno.symm.trans heq) (by simp only [tpceMapInactive]; omega)
      · rw [mark_inj heq hc', hused] at hused'
        exact hne (Option.some.inj hused')
    exact (if_neg hother).trans hused

theorem Maps.Consistent.lock (h : s.Consistent) (hid : s.ids m.id = none)
    (hrange : 1 ≤ m.id.toNat ∧ m.id.toNat ≤ tpceDmaMapIdMax) (howner : m.owner = some file)
    (hfree : m.activeChannel = tpceMapInactive) : (s.lock file m).Consistent := by
  have hold : ∀ obj m', s.infos obj = some m' → obj ≠ s.next := fun obj m' hlive heq => by
    rw [heq, h.fresh _ (Nat.le_refl _)] at hlive
    cases hlive
  have hkeep : ∀ obj m', s.infos obj = some m' → (s.lock file m).infos obj = some m' := fun obj m' hlive =>
    (Function.update_of_ne (hold obj m' hlive) ..).trans hlive
  have hnew : (s.lock file m).infos s.next = some m := Function.update_self ..
  have hcases : ∀ obj m', (s.lock file m).infos obj = some m' →
      (obj = s.next ∧ m' = m) ∨ s.infos obj = some m' := fun obj m' hlive => by
    by_cases hobj : obj = s.next
    · subst hobj
      exact .inl ⟨rfl, Option.some.inj (hlive.symm.trans hnew)⟩
    · exact .inr ((Function.update_of_ne hobj ..).symm.trans hlive)
  refine ⟨fun obj m' hlive => ?_, fun id' obj hreg => ?_, fun file' obj => ?_, fun file' => ?_, fun obj hle => ?_,
    fun obj m' hlive => ?_⟩
  · rcases hcases obj m' hlive with ⟨rfl, rfl⟩ | hlive
    · exact Function.update_self ..
    · have hreg := h.live obj m' hlive
      have hne : m'.id ≠ m.id := fun heq => by
        rw [heq, hid] at hreg
        cases hreg
      exact (Function.update_of_ne hne ..).trans hreg
  · simp only [Maps.lock] at hreg
    by_cases hne : id' = m.id
    · subst hne
      rw [Function.update_self] at hreg
      cases hreg
      exact ⟨hrange, m, hnew, rfl⟩
    · rw [Function.update_of_ne hne] at hreg
      obtain ⟨hrange', m', hlive, hid'⟩ := h.registered id' obj hreg
      exact ⟨hrange', m', hkeep obj m' hlive, hid'⟩
  · have hlists : obj ∈ (s.lock file m).lists file' ↔ obj ∈ s.lists file' ∨ (file' = file ∧ obj = s.next) := by
      simp only [Maps.lock]
      by_cases hfile : file' = file
      · subst hfile
        simp
      · rw [Function.update_of_ne hfile]
        exact ⟨.inl, fun hmem => hmem.resolve_right fun heq => hfile heq.1⟩
    rw [hlists]
    constructor
    · rintro (hmem | ⟨rfl, rfl⟩)
      · obtain ⟨m', hlive, howner'⟩ := (h.owned file' obj).mp hmem
        exact ⟨m', hkeep obj m' hlive, howner'⟩
      · exact ⟨m, hnew, howner⟩
    · rintro ⟨m', hlive, howner'⟩
      rcases hcases obj m' hlive with ⟨rfl, rfl⟩ | hlive
      · exact .inr ⟨Option.some.inj (howner'.symm.trans howner), rfl⟩
      · exact .inl ((h.owned file' obj).mpr ⟨m', hlive, howner'⟩)
  · simp only [Maps.lock]
    by_cases hfile : file' = file
    · subst hfile
      rw [Function.update_self, List.nodup_append]
      refine ⟨h.nodup file', by simp, fun obj hmem obj' hobj' heq => ?_⟩
      obtain ⟨m', hlive, -⟩ := (h.owned file' obj).mp hmem
      exact hold obj m' hlive (heq.trans (List.mem_singleton.mp hobj'))
    · rw [Function.update_of_ne hfile]
      exact h.nodup file'
  · simp only [Maps.lock] at hle ⊢
    rw [Function.update_of_ne (by omega)]
    exact h.fresh obj (by omega)
  · rcases hcases obj m' hlive with ⟨rfl, rfl⟩ | hlive
    · exact .inl hfree
    · exact h.marked obj m' hlive

end TpceDrv.MappingTable
