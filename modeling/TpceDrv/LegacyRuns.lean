import TpceDrv.LegacyMemory

namespace TpceDrv.LegacyRuns

open Mapping Requests UserStructs LegacyRead LegacyActions LegacyMemory Library.Buffers Library.Scripts

variable {m t : Memory}

/-- The copies of a script whose transfers succeed if the driver does not refuse them -/
def performed : List Action → ℕ → List Copied
  | [], _ => []
  | .read r :: rest, _ => if Accepted r then performed rest r.bytesTotal.toNat else []
  | .copy dst offset length :: rest, transferred =>
      if length = 0 then performed rest transferred
      else if 2 ^ 20 < offset.toNat + length.toNat then []
      else ⟨dst, offset.toNat, length.toNat, transferred⟩ :: performed rest transferred

/-- An action that the driver does not refuse -/
def Possible : Action → Prop
  | .read r => Accepted r
  | .copy _ offset length => length = 0 ∨ offset.toNat + length.toNat ≤ 2 ^ 20

section
variable {P : Copied → Prop} {rest : List Action} {n : ℕ}

theorem forall_performed_read (r : KernelRead) : (∀ c ∈ performed (.read r :: rest) n, P c) ↔
    (Possible (.read r) → ∀ c ∈ performed rest r.bytesTotal.toNat, P c) := by
  rw [performed]
  by_cases h : Accepted r
  · rw [if_pos h]
    exact ⟨fun hall _ => hall, fun hall => hall h⟩
  · rw [if_neg h]
    exact iff_of_true (fun c hc => absurd hc List.not_mem_nil) fun hpossible => absurd hpossible h

theorem forall_performed_copy (hempty : ∀ c, c.length = 0 → P c) (dst : U64) (offset length : U32) :
    (∀ c ∈ performed (.copy dst offset length :: rest) n, P c) ↔ (Possible (.copy dst offset length) →
      P ⟨dst, offset.toNat, length.toNat, n⟩ ∧ ∀ c ∈ performed rest n, P c) := by
  rw [performed]
  by_cases hzero : length = 0
  · rw [if_pos hzero, forall_prop_of_true (show Possible (.copy dst offset length) from .inl hzero), and_iff_right]
    exact hempty _ (congrArg BitVec.toNat hzero)
  rw [if_neg hzero]
  by_cases hfits : 2 ^ 20 < offset.toNat + length.toNat
  · rw [if_pos hfits]
    refine iff_of_true (fun c hc => absurd hc List.not_mem_nil) fun hpossible => ?_
    exact absurd hfits (Nat.not_lt.mpr (hpossible.resolve_left hzero))
  · rw [if_neg hfits, forall_prop_of_true (show Possible (.copy dst offset length) from .inr (Nat.not_lt.mp hfits)),
      List.forall_mem_cons]

end

/-- A copy that may have missed some bytes -/
def PartOf (e c : Copied) : Prop :=
  e.dst = c.dst ∧ e.offset = c.offset ∧ e.length ≤ c.length ∧ e.transferred = c.transferred

/-- Whatever the system answers, a script ends, and its copies are among those that it
performs when its transfers succeed. -/
theorem copied_of_run (ans : Answers) (as : List Action) (m : Memory) :
    ∃ out, performAll (perform ans.ops) as m = .ok out ∧
    ∀ e ∈ out.2.copied, e ∈ m.copied ∨ ∃ c ∈ performed as m.transferred, PartOf e c := by
  refine performAll_rule (I := fun rest m' =>
    (∀ e ∈ m'.copied, e ∈ m.copied ∨ ∃ c ∈ performed as m.transferred, PartOf e c) ∧
      ∀ c ∈ performed rest m'.transferred, c ∈ performed as m.transferred) (fun _ h => h.1) ?_
    ⟨fun e he => .inl he, fun c hc => hc⟩
  rintro a rest m' ⟨hcopied, hrest⟩
  cases a with
  | read r =>
      obtain ⟨out, hout, ⟨herr, hsame, -⟩ | ⟨haccepted, rfl⟩⟩ := read_cases ans r m'
      · exact ⟨out, hout, fun _ => hsame ▸ hcopied, fun hzero => absurd hzero herr⟩
      · rw [performed, if_pos haccepted] at hrest
        exact ⟨_, hout, fun _ => hcopied, fun _ => ⟨hcopied, hrest⟩⟩
  | copy dst offset length =>
      rw [performed] at hrest
      obtain ⟨out, hout, h⟩ := copy_cases ans dst offset length m'
      refine ⟨out, congrArg Except.ok hout, ?_⟩
      rcases h with ⟨hzero, rfl⟩ | ⟨-, herr, hsame, -⟩ | ⟨hlength, hfits, n, hn, hafter, -, -⟩
      · rw [if_pos hzero] at hrest
        exact ⟨fun _ => hcopied, fun _ => ⟨hcopied, hrest⟩⟩
      · exact ⟨fun _ => hsame ▸ hcopied, fun hzero => absurd hzero herr⟩
      · rw [if_neg hlength, if_neg (Nat.not_lt.mpr hfits)] at hrest
        have hcopied' : ∀ e ∈ out.2.copied, e ∈ m.copied ∨ ∃ c ∈ performed as m.transferred, PartOf e c := by
          rw [hafter]
          intro e he
          rcases List.mem_append.mp he with he | he
          · exact hcopied e he
          · rw [List.mem_singleton.mp he]
            exact .inr ⟨_, hrest _ List.mem_cons_self, rfl, rfl, hn, rfl⟩
        refine ⟨fun _ => hcopied', fun _ => ⟨hcopied', fun c hc => hrest c (List.mem_cons_of_mem _ ?_)⟩⟩
        rwa [hafter] at hc

/-- Nothing but the copies changes the user's memory. -/
theorem user_of_run (ans : Answers) (as : List Action) (m : Memory) :
    ∃ out, performAll (perform ans.ops) as m = .ok out ∧ ∀ a, (∀ e ∈ out.2.copied, e.length ≤ (a - e.dst).toNat) → out.2.user a = m.user a := by
  refine performAll_rule (I := fun _ m' =>
    ∀ a, (∀ e ∈ m'.copied, e.length ≤ (a - e.dst).toNat) → m'.user a = m.user a) (fun _ h => h) ?_ fun _ _ => rfl
  intro a rest m' hframe
  cases a with
  | read r =>
      obtain ⟨out, hout, ⟨-, hsame, -⟩ | ⟨-, rfl⟩⟩ := read_cases ans r m'
      · exact ⟨out, hout, fun _ => hsame ▸ hframe, fun _ => hsame ▸ hframe⟩
      · exact ⟨_, hout, fun _ => hframe, fun _ => hframe⟩
  | copy dst offset length =>
      obtain ⟨out, hout, h⟩ := copy_cases ans dst offset length m'
      refine ⟨out, congrArg Except.ok hout, ?_⟩
      rcases h with ⟨-, rfl⟩ | ⟨-, -, hsame, -⟩ | ⟨-, -, n, -, hafter, -, -⟩
      · exact ⟨fun _ => hframe, fun _ => hframe⟩
      · exact ⟨fun _ => hsame ▸ hframe, fun _ => hsame ▸ hframe⟩
      · have hframe' : ∀ a, (∀ e ∈ out.2.copied, e.length ≤ (a - e.dst).toNat) → out.2.user a = m.user a := by
          rw [hafter]
          intro a hout
          rw [← hframe a fun e he => hout e (List.mem_append_left _ he)]
          exact if_neg (Nat.not_lt.mpr (hout _ (List.mem_append_right _ List.mem_cons_self)))
        exact ⟨fun _ => hframe', fun _ => hframe'⟩

def Fresh (c : Copied) : Prop := ∀ i < c.length, c.offset + i < c.transferred

/-- The same memory but for what the last transfer has not overwritten -/
def Agree (m t : Memory) : Prop := ∃ kernel, t = { m with kernel := kernel } ∧ AgreeBelow m.transferred m.kernel kernel

theorem Agree.receive (h : Agree m t) (data : Bytes) (length : ℕ) :
    Agree (m.receive data length) (t.receive data length) := by
  obtain ⟨kernel, rfl, -⟩ := h
  exact ⟨copyIn kernel data length 0, rfl, copyIn_agree _ _ _ _ _⟩

theorem store_congr (user : U64 → Byte) (dst : U64) {b b' : Bytes} {length : ℕ} (h : AgreeBelow length b b') :
    store user dst b length = store user dst b' length := by
  funext a
  rw [store, store]
  split
  · rename_i hin
    exact h _ hin
  · rfl

theorem Agree.copyToUser (h : Agree m t) (dst : U64) {offset length : ℕ}
    (hfresh : ∀ i < length, offset + i < m.transferred) :
    Agree (m.copyToUser dst offset length) (t.copyToUser dst offset length) := by
  obtain ⟨kernel, rfl, hkernel⟩ := h
  have hbytes : AgreeBelow length (fun i => kernel (offset + i)) fun i => m.kernel (offset + i) :=
    fun i hi => (hkernel _ (hfresh i hi)).symm
  refine ⟨kernel, ?_, hkernel⟩
  simp only [Memory.copyToUser]
  rw [store_congr m.user dst hbytes]

theorem Agree.copy (h : Agree m t) (ans : Answers) (dst : U64) (offset length : U32)
    (hfresh : offset.toNat + length.toNat ≤ 2 ^ 20 → ∀ i < length.toNat, offset.toNat + i < m.transferred) :
    (copyKernelDmaToUser ans.ops dst offset length m).1 = (copyKernelDmaToUser ans.ops dst offset length t).1 ∧
      Agree (copyKernelDmaToUser ans.ops dst offset length m).2 (copyKernelDmaToUser ans.ops dst offset length t).2 := by
  have hcopied : t.copied = m.copied := by
    obtain ⟨kernel, rfl, -⟩ := h
    rfl
  rw [ans.copyKernelDmaToUser_eq, ans.copyKernelDmaToUser_eq, Answers.copyToUser, Answers.copyToUser, hcopied]
  split
  · exact ⟨rfl, h⟩
  split
  · exact ⟨rfl, h⟩
  split
  · exact ⟨rfl, h⟩
  · rename_i hfits
    exact ⟨rfl, h.copyToUser dst fun i hi =>
      hfresh (Nat.not_lt.mp hfits) i (Nat.lt_of_lt_of_le hi (Nat.sub_le _ _))⟩

/-- Two runs agree if all that they copy has been transferred before. -/
theorem runs_agree (ans : Answers) (as : List Action) (h : Agree m t)
    (hfresh : ∀ c ∈ performed as m.transferred, Fresh c) :
    ∃ r u, performAll (perform ans.ops) as m = .ok r ∧ performAll (perform ans.ops) as t = .ok u ∧
      r.1 = u.1 ∧ Agree r.2 u.2 := by
  refine performAll_lockstep (R := fun rest m t => Agree m t ∧ ∀ c ∈ performed rest m.transferred, Fresh c)
    (fun _ _ h => ⟨rfl, h.1⟩) ?_ ⟨h, hfresh⟩
  rintro a rest m t ⟨hagree, hfresh⟩
  cases a with
  | read r =>
      have hreads : t.reads = m.reads := by
        obtain ⟨kernel, rfl, -⟩ := hagree
        rfl
      by_cases haccepted : Accepted r
      · rw [performed, if_pos haccepted] at hfresh
        have hm := readKernelDmaBuffer_accepted ans haccepted m
        have ht := readKernelDmaBuffer_accepted ans haccepted t
        rw [hreads] at ht
        by_cases hstatus : ans.status m.reads = 0
        · rw [if_neg (not_not.mpr hstatus)] at hm ht
          exact ⟨_, _, hm, ht, rfl, fun hne => absurd rfl hne, fun _ => ⟨hagree.receive _ _, hfresh⟩⟩
        · rw [if_pos hstatus] at hm ht
          exact ⟨_, _, hm, ht, rfl, fun _ => ⟨rfl, hagree⟩, fun hzero => absurd hzero hstatus⟩
      · exact ⟨_, _, readKernelDmaBuffer_refused ans haccepted m, readKernelDmaBuffer_refused ans haccepted t, rfl,
          fun _ => ⟨rfl, hagree⟩, fun hzero => absurd hzero Errno.einval_ne⟩
  | copy dst offset length =>
      rw [performed] at hfresh
      have hcopy : offset.toNat + length.toNat ≤ 2 ^ 20 → ∀ i < length.toNat, offset.toNat + i < m.transferred := by
        intro hfits i hi
        have hlength : length ≠ 0 := fun hzero => by simp [hzero] at hi
        rw [if_neg hlength, if_neg (Nat.not_lt.mpr hfits)] at hfresh
        exact hfresh _ List.mem_cons_self i hi
      obtain ⟨hstatus, hafter⟩ := hagree.copy ans dst offset length hcopy
      refine ⟨_, _, rfl, rfl, hstatus, fun _ => ⟨hstatus, hafter⟩, fun hzero => ⟨hafter, ?_⟩⟩
      obtain ⟨out, hout, h⟩ := copy_cases ans dst offset length m
      rw [hout] at hzero ⊢
      rcases h with ⟨hlength, rfl⟩ | ⟨-, herr, -, -⟩ | ⟨hlength, hfits, n, -, hout', -, -⟩
      · rwa [if_pos hlength] at hfresh
      · exact absurd hzero herr
      · rw [if_neg hlength, if_neg (Nat.not_lt.mpr hfits)] at hfresh
        rw [hout']
        exact fun c hc => hfresh c (List.mem_cons_of_mem _ hc)

/-- The answers of a system in which everything succeeds -/
def Answers.succeed (pages : SgTable) (data : ℕ → KernelRead → Bytes) : Answers where
  pages := pages
  hasKernelDma := true
  status := fun _ => 0
  data := data
  missed := fun _ => 0

theorem copied_of_succeed (pages : SgTable) (data : ℕ → KernelRead → Bytes) (as : List Action) (m : Memory) :
    ∃ out, performAll (perform (Answers.succeed pages data).ops) as m = .ok out ∧
      out.2.copied = m.copied ++ performed as m.transferred := by
  refine performAll_rule (I := fun rest m' =>
    m'.copied ++ performed rest m'.transferred = m.copied ++ performed as m.transferred)
    (fun m' h => (List.append_nil m'.copied).symm.trans h) ?_ rfl
  intro a rest m' hrest
  cases a with
  | read r =>
      obtain ⟨out, hout, ⟨herr, hsame, hstatus⟩ | ⟨haccepted, rfl⟩⟩ :=
        read_cases (Answers.succeed pages data) r m'
      · have hrefused : ¬Accepted r := fun haccepted => hstatus haccepted rfl
        rw [performed, if_neg hrefused, List.append_nil] at hrest
        exact ⟨out, hout, fun _ => hsame ▸ hrest, fun hzero => absurd hzero herr⟩
      · rw [performed, if_pos haccepted] at hrest
        exact ⟨_, hout, fun hne => absurd rfl hne, fun _ => hrest⟩
  | copy dst offset length =>
      rw [performed] at hrest
      obtain ⟨out, hout, h⟩ := copy_cases (Answers.succeed pages data) dst offset length m'
      refine ⟨out, congrArg Except.ok hout, ?_⟩
      rcases h with ⟨hzero, rfl⟩ | ⟨hlength, herr, hsame, hexceeds⟩ | ⟨hlength, hfits, n, -, hafter, hok, hn⟩
      · rw [if_pos hzero] at hrest
        exact ⟨fun hne => absurd rfl hne, fun _ => hrest⟩
      · rw [if_neg hlength, if_pos (hexceeds rfl), List.append_nil] at hrest
        exact ⟨fun _ => hsame ▸ hrest, fun hzero => absurd hzero herr⟩
      · rw [if_neg hlength, if_neg (Nat.not_lt.mpr hfits), List.append_cons] at hrest
        have hall := hn rfl
        refine ⟨fun hne => absurd (hok.mpr hall) hne, fun _ => ?_⟩
        rw [hafter, hall]
        exact hrest

/-- What a script leaves in the user's memory if it succeeds -/
def settle (data : ℕ → KernelRead → Bytes) : List Action → ℕ → Bytes → (U64 → Byte) → U64 → Byte
  | [], _, _, user => user
  | .read r :: rest, n, kernel, user => settle data rest (n + 1) (copyIn kernel (data n r) r.bytesTotal.toNat 0) user
  | .copy dst offset length :: rest, n, kernel, user =>
      settle data rest n kernel (store user dst (fun i => kernel (offset.toNat + i)) length.toNat)

theorem store_zero (user : U64 → Byte) (dst : U64) (b : Bytes) : store user dst b 0 = user := by
  funext a
  exact if_neg (Nat.not_lt_zero _)

theorem settle_of_zero (ans : Answers) (as : List Action) (m : Memory) :
    ∃ out, performAll (perform ans.ops) as m = .ok out ∧
      (out.1 = 0 → (∀ a ∈ as, Possible a) ∧ out.2.user = settle ans.data as m.reads m.kernel m.user) := by
  refine performAll_rule (I := fun rest m' => ((∀ a ∈ rest, Possible a) → ∀ a ∈ as, Possible a) ∧
    settle ans.data rest m'.reads m'.kernel m'.user = settle ans.data as m.reads m.kernel m.user)
    ?_ ?_ ⟨fun h => h, rfl⟩
  · rintro m' ⟨hpossible, hsettle⟩ -
    exact ⟨hpossible fun _ ha => absurd ha List.not_mem_nil, hsettle⟩
  rintro a rest m' ⟨hpossible, hsettle⟩
  have hnext : Possible a → (∀ b ∈ rest, Possible b) → ∀ b ∈ as, Possible b :=
    fun ha hrest => hpossible (List.forall_mem_cons.mpr ⟨ha, hrest⟩)
  cases a with
  | read r =>
      obtain ⟨out, hout, ⟨herr, -, -⟩ | ⟨haccepted, rfl⟩⟩ := read_cases ans r m'
      · exact ⟨out, hout, fun _ hzero => absurd hzero herr, fun hzero => absurd hzero herr⟩
      · exact ⟨_, hout, fun hne => absurd rfl hne, fun _ => ⟨hnext haccepted, hsettle⟩⟩
  | copy dst offset length =>
      obtain ⟨out, hout, h⟩ := copy_cases ans dst offset length m'
      refine ⟨out, congrArg Except.ok hout, fun hne hzero => absurd hzero hne, fun hok => ?_⟩
      rcases h with ⟨hzero, rfl⟩ | ⟨-, herr, -, -⟩ | ⟨-, hfits, n, -, hafter, hall, -⟩
      · refine ⟨hnext (.inl hzero), ?_⟩
        rw [settle, hzero] at hsettle
        rw [← hsettle]
        exact congrArg (settle ans.data rest m'.reads m'.kernel) (store_zero _ _ _).symm
      · exact absurd hok herr
      · refine ⟨hnext (.inr hfits), ?_⟩
        rw [hafter, hall.mp hok]
        exact hsettle

theorem succeed_of_possible (pages : SgTable) (data : ℕ → KernelRead → Bytes) (as : List Action)
    (h : ∀ a ∈ as, Possible a) (m : Memory) :
    ∃ out, performAll (perform (Answers.succeed pages data).ops) as m = .ok out ∧ out.1 = 0 := by
  refine performAll_rule (I := fun rest _ => ∀ a ∈ rest, Possible a) (fun _ _ => rfl) ?_ h
  intro a rest m' hrest
  obtain ⟨ha, htail⟩ := List.forall_mem_cons.mp hrest
  cases a with
  | read r =>
      obtain ⟨out, hout, ⟨-, -, hstatus⟩ | ⟨-, rfl⟩⟩ := read_cases (Answers.succeed pages data) r m'
      · exact absurd rfl (hstatus ha)
      · exact ⟨_, hout, fun hne => absurd rfl hne, fun _ => htail⟩
  | copy dst offset length =>
      obtain ⟨out, hout, h⟩ := copy_cases (Answers.succeed pages data) dst offset length m'
      refine ⟨out, congrArg Except.ok hout, ?_⟩
      rcases h with ⟨-, rfl⟩ | ⟨hlength, -, -, hexceeds⟩ | ⟨-, -, n, -, -, hok, hn⟩
      · exact ⟨fun hne => absurd rfl hne, fun _ => htail⟩
      · exact absurd (hexceeds rfl) (Nat.not_lt.mpr (ha.resolve_left hlength))
      · exact ⟨fun hne => absurd (hok.mpr (hn rfl)) hne, fun _ => htail⟩

def Memory.start (kernel : Bytes) (user : U64 → Byte) : Memory := ⟨kernel, user, 0, 0, []⟩

/-- Whatever the system answers, the block read ends and each byte that it has copied
has a property: one of the address, the offset in the kernel buffer, the bytes
transferred before and the index of the byte. -/
def EveryByte (input : TDmaTpceDataRead) (Q : U64 → ℕ → ℕ → ℕ → Prop) : Prop :=
  ∀ ans kernel user, ∃ out, iocDmaReadRequestA (Answers.ops ans) input (Memory.start kernel user) = .ok out ∧
    ∀ e ∈ out.2.copied, ∀ i < e.length, Q e.dst e.offset e.transferred i

theorem user_of_blockRead {ans : Answers} {input : TDmaTpceDataRead} {kernel : Bytes} {user : U64 → Byte}
    {out : Int × Memory} (hrun : iocDmaReadRequestA ans.ops input (Memory.start kernel user) = .ok out) {a : U64}
    (ha : ∀ e ∈ out.2.copied, e.length ≤ (a - e.dst).toNat) : out.2.user a = user a := by
  rw [iocDmaReadRequestA_eq] at hrun
  by_cases hrefused : Refused input
  · rw [if_pos hrefused] at hrun
    rw [← Except.ok.inj hrun]
    rfl
  · rw [if_neg hrefused] at hrun
    obtain ⟨out', hout, huser⟩ := user_of_run ans (actions input) (Memory.start kernel user)
    obtain rfl := Except.ok.inj (hrun.symm.trans hout)
    exact huser a ha

variable {input : TDmaTpceDataRead} {Q : U64 → ℕ → ℕ → ℕ → Prop}

theorem everyByte_iff : EveryByte input Q ↔ (¬Refused input → ∀ c ∈ performed (actions input) 0, ∀ i < c.length,
    Q c.dst c.offset c.transferred i) := by
  constructor
  · intro h hrefused c hc i hi
    obtain ⟨out, hout, hbytes⟩ := h (Answers.succeed ⟨.last [], 0⟩ fun _ _ _ => 0) (fun _ => 0) fun _ => 0
    rw [iocDmaReadRequestA_eq, if_neg hrefused] at hout
    obtain ⟨out', hout', hcopied⟩ := copied_of_succeed ⟨.last [], 0⟩ (fun _ _ _ => 0) (actions input)
      (Memory.start (fun _ => 0) fun _ => 0)
    obtain rfl := Except.ok.inj (hout.symm.trans hout')
    exact hbytes c (hcopied ▸ List.mem_append_right _ hc) i hi
  · intro h ans kernel user
    rw [iocDmaReadRequestA_eq]
    by_cases hrefused : Refused input
    · exact ⟨_, if_pos hrefused, fun e he => absurd he List.not_mem_nil⟩
    rw [if_neg hrefused]
    obtain ⟨out, hout, hcopied⟩ := copied_of_run ans (actions input) (Memory.start kernel user)
    refine ⟨out, hout, fun e he i hi => ?_⟩
    obtain ⟨c, hc, hdst, hoffset, hlength, htransferred⟩ := (hcopied e he).resolve_left List.not_mem_nil
    rw [hdst, hoffset, htransferred]
    exact h hrefused c hc i (Nat.lt_of_lt_of_le hi hlength)

/-- The block read leaves a property of the user's memory if it returns 0. -/
theorem zero_iff (input : TDmaTpceDataRead) (data : ℕ → KernelRead → Bytes) (Q : (U64 → Byte) → Prop) :
    (∀ ans, Answers.data ans = data → ∀ kernel user m,
      iocDmaReadRequestA ans.ops input (Memory.start kernel user) = .ok (0, m) → Q m.user) ↔
    (¬Refused input → (∀ a ∈ actions input, Possible a) →
      ∀ kernel user, Q (settle data (actions input) 0 kernel user)) := by
  constructor
  · intro h hrefused hpossible kernel user
    obtain ⟨⟨status, m⟩, hout, rfl⟩ :=
      succeed_of_possible ⟨.last [], 0⟩ data (actions input) hpossible (Memory.start kernel user)
    obtain ⟨out', hout', hsettle⟩ :=
      settle_of_zero (Answers.succeed ⟨.last [], 0⟩ data) (actions input) (Memory.start kernel user)
    obtain rfl := Except.ok.inj (hout.symm.trans hout')
    have hQ := h (Answers.succeed ⟨.last [], 0⟩ data) rfl kernel user m
      (by rw [iocDmaReadRequestA_eq, if_neg hrefused, hout])
    rwa [(hsettle rfl).2] at hQ
  · rintro h ans rfl kernel user m hrun
    rw [iocDmaReadRequestA_eq] at hrun
    by_cases hrefused : Refused input
    · rw [if_pos hrefused] at hrun
      exact absurd (congrArg Prod.fst (Except.ok.inj hrun)) Errno.einval_ne
    · rw [if_neg hrefused] at hrun
      obtain ⟨out, hout, hsettle⟩ := settle_of_zero ans (actions input) (Memory.start kernel user)
      obtain rfl := Except.ok.inj (hrun.symm.trans hout)
      obtain ⟨hpossible, huser⟩ := hsettle rfl
      rw [huser]
      exact h hrefused hpossible kernel user

end TpceDrv.LegacyRuns
