import TpceDrv.FixedGeneration
import TpceDrv.StreamTracking

namespace TpceDrv.ProducedBytes

open Descriptor DmaParams DmaInfo Mapping Device DescriptorCheck Generation Reach Planning
open MappedRanges FixedGeneration
open ChannelControl Requests StreamIrq StreamTracking Library Library.Rings

variable {env : InitEnv} {dev dev' : TpceDev} {c : Channel} {n k : ℕ} {req : TpceDmaRequest}
variable {params : TpceDmaTransferParams} {mapInfo : TpceDmaMapInfo} {info : TpceDmaInfo} {hist : History}

/-- The bytes of the first `k` descriptors that the controller completes on a ring of
`n`, laps included -/
def bytes (info : TpceDmaInfo) (n k : ℕ) : ℕ := ((visits n 0 k).map (lengthAt info)).sum

def produced (c : Channel) (hist : History) : Option ℕ :=
  (hist.dev.dmaInfo c).streamInfo.state.map fun state => state.produced.toNat

/-- Behind every invocation the 64-bit counter holds the bytes of all descriptors that
the controller has completed. -/
def ProducedCounts (dev : TpceDev) (c : Channel) (n : ℕ) (advances : List Advance) : Prop :=
  ∀ before, before <+: advances → ∃ hist, Runs.run (invoke c) ⟨dev, []⟩ (registers n 0 before) = some hist ∧
    produced c hist = some (bytes (dev.dmaInfo c) n (before.map Advance.completions).sum)

/-- An invocation counts what has been completed since the one before, which was behind
`k` completions: nothing, or less than a lap of descriptors whose length the request
gives, and neither the sequence number nor the counter overflows. -/
def Counted (params : TpceDmaTransferParams) (n k : ℕ) (a : Advance) : Prop :=
  n ≠ 0 ∧ (a.completions = 0 ∨ params.bytesPerDescriptor ≠ 0 ∧ a.completions < n ∧
    (k + a.completions) % n < 2 ^ 16 ∧ (k + a.completions) * params.bytesPerDescriptor.toNat < 2 ^ 64)

def AllCounted (params : TpceDmaTransferParams) (n : ℕ) : ℕ → List Advance → Prop
  | _, [] => True
  | k, a :: advances => Counted params n k a ∧ AllCounted params n (k + a.completions) advances

/-- The lengths in a generated ring: none is zero, and one that the request gives is that
of all descriptors. -/
structure Lengths (info : TpceDmaInfo) (n : ℕ) : Prop where
  positive : ∀ i < n, 0 < lengthAt info i
  fixed : info.params.bytesPerDescriptor ≠ 0 → ∀ i < n, lengthAt info i = info.params.bytesPerDescriptor.toNat
  small : n * info.params.bytesPerDescriptor.toNat < 2 ^ 32

theorem bytes_add (info : TpceDmaInfo) (n k a : ℕ) :
    bytes info n (k + a) = bytes info n k + ((visits n k a).map (lengthAt info)).sum := by
  rw [bytes, ← visits_append, Nat.zero_add, List.map_append, List.sum_append]
  rfl

theorem bytes_fixed (h : Lengths info n) (hpos : 0 < n) (hfixed : info.params.bytesPerDescriptor ≠ 0) (k : ℕ) :
    bytes info n k = k * info.params.bytesPerDescriptor.toNat := by
  rw [bytes, List.map_congr_left fun i hi => h.fixed hfixed i (lt_of_mem_visits hpos hi), List.map_const',
    List.sum_replicate, length_visits, smul_eq_mul]

theorem bytes_lt (h : Lengths info n) (hpos : 0 < n) {a : ℕ} (ha : a ≠ 0) :
    bytes info n k < bytes info n (k + a) := by
  obtain ⟨a, rfl⟩ := Nat.exists_eq_succ_of_ne_zero ha
  have hfirst := h.positive (k % n) (Nat.mod_lt k hpos)
  rw [bytes_add, visits_succ, List.map_cons, List.sum_cons]
  omega

/-- The counter has counted `k` completions, and the index is where they end. -/
structure Counts (c : Channel) (n k : ℕ) (info : TpceDmaInfo) (hist : History) : Prop where
  ring : Ring hist.dev c n
  params : (hist.dev.dmaInfo c).params = info.params
  index : (hist.dev.dmaInfo c).streamInfo.writeSeqNum.toNat = k % n
  fits : k % n < 2 ^ 16
  produced : produced c hist = some (bytes info n k)

/-- What an invocation adds: the length of the request for each slot from the index to
the sequence number -/
theorem Counts.invoked (h : Counts c n k info hist) (hlengths : Lengths info n) (a : Advance) :
    ∃ hist', StreamTracking.invoke c hist (register n (k + a.completions) a.readSeqNum) = some hist' ∧
      Ring hist'.dev c n ∧ (hist'.dev.dmaInfo c).params = info.params ∧
      (hist'.dev.dmaInfo c).streamInfo.writeSeqNum.toNat = (k + a.completions) % n % 2 ^ 16 ∧
      ProducedBytes.produced c hist' = some ((bytes info n k + info.params.bytesPerDescriptor.toNat *
        distance n (k % n) ((k + a.completions) % n % 2 ^ 16)) % 2 ^ 64) := by
  obtain ⟨state, newSeqNum, processed, syncs, hstate, hhandler, hnew, hprocessed, -, -⟩ :=
    h.ring.handler (register n (k + a.completions) a.readSeqNum)
  have hslot := Nat.mod_lt (k + a.completions) h.ring.positive
  rw [register_upper, Nat.mod_eq_of_lt (Nat.lt_of_le_of_lt (Nat.mod_le _ _) hslot)] at hnew
  have hlt : newSeqNum.toNat < n := hnew ▸ Nat.lt_of_le_of_lt (Nat.mod_le _ _) hslot
  rw [h.index, hnew] at hprocessed
  have hless : processed.toNat < n := by
    rw [hprocessed]
    exact distance_lt (hnew ▸ hlt)
  have hproduct : info.params.bytesPerDescriptor.toNat * processed.toNat < 2 ^ 32 := by
    have hle := Nat.mul_le_mul_left info.params.bytesPerDescriptor.toNat hless.le
    rw [Nat.mul_comm _ n] at hle
    exact Nat.lt_of_le_of_lt hle hlengths.small
  have hold : state.produced.toNat = bytes info n k := by
    have hproduced := h.produced
    rw [ProducedBytes.produced, hstate] at hproduced
    exact Option.some.inj hproduced
  refine ⟨_, by rw [StreamTracking.invoke, hhandler]; rfl, h.ring.afterIrq hlt, ?_, ?_, ?_⟩
  · dsimp only
    rw [setInfo_dmaInfo]
    exact h.params
  · dsimp only
    rw [setInfo_dmaInfo]
    exact hnew
  · rw [ProducedBytes.produced]
    dsimp only
    rw [setInfo_dmaInfo]
    change some (state.produced +
      ((hist.dev.dmaInfo c).params.bytesPerDescriptor * processed).setWidth 64).toNat = _
    rw [h.params, BitVec.toNat_add, BitVec.toNat_setWidth, BitVec.toNat_mul, Nat.mod_eq_of_lt hproduct,
      Nat.mod_eq_of_lt (Nat.lt_trans hproduct (by decide)), hold, hprocessed]

/-- On descriptors of `L` bytes each the sum is right exactly if the slots up to the
sequence number are those that were completed. -/
theorem fixed_counted_iff {L a : ℕ} (hL : 0 < L) (hn : 0 < n) (hfits : k % n < 2 ^ 16) (hsmall : n * L < 2 ^ 32)
    (hold : k * L < 2 ^ 64) :
    (k * L + L * distance n (k % n) ((k + a) % n % 2 ^ 16)) % 2 ^ 64 = (k + a) * L ↔
      a = 0 ∨ a < n ∧ (k + a) % n < 2 ^ 16 ∧ (k + a) * L < 2 ^ 64 := by
  have hw := Nat.mod_lt k hn
  have hw' : (k + a) % n % 2 ^ 16 < n := Nat.lt_of_le_of_lt (Nat.mod_le _ _) (Nat.mod_lt _ hn)
  constructor
  · intro heq
    have hd := distance_lt (w := k % n) hw'
    have hproduct : L * distance n (k % n) ((k + a) % n % 2 ^ 16) < 2 ^ 32 := by
      have hle := Nat.mul_le_mul_left L hd.le
      rw [Nat.mul_comm L n] at hle
      exact Nat.lt_of_le_of_lt hle hsmall
    have hsame : a * L = L * distance n (k % n) ((k + a) % n % 2 ^ 16) := by
      rw [Nat.add_mul] at heq
      omega
    have hdistance : a = distance n (k % n) ((k + a) % n % 2 ^ 16) :=
      Nat.eq_of_mul_eq_mul_left hL ((Nat.mul_comm L a).trans hsame)
    have hslot := add_distance_mod hw hw'
    rw [← hdistance, Nat.mod_add_mod] at hslot
    refine .inr ⟨hdistance ▸ hd, by omega, ?_⟩
    rw [← heq]
    exact Nat.mod_lt _ (by decide)
  · rintro (rfl | ⟨ha, hseq, hsum⟩)
    · have hnone : distance n (k % n) (k % n) = 0 := by simp [distance]
      rw [Nat.add_zero, Nat.mod_eq_of_lt hfits, hnone, Nat.mul_zero, Nat.add_zero, Nat.mod_eq_of_lt hold]
    · rw [Nat.mod_eq_of_lt hseq, distance_mod ha, Nat.mul_comm L a, ← Nat.add_mul, Nat.mod_eq_of_lt hsum]

/-- The counter is right behind an invocation exactly if that counts everything. -/
theorem Counts.step (h : Counts c n k info hist) (hlengths : Lengths info n) (a : Advance) :
    ∃ hist', StreamTracking.invoke c hist (register n (k + a.completions) a.readSeqNum) = some hist' ∧
      (ProducedBytes.produced c hist' = some (bytes info n (k + a.completions)) ↔ Counted info.params n k a) ∧
      (Counted info.params n k a → Counts c n (k + a.completions) info hist') := by
  obtain ⟨hist', hinvoke, hring, hparams, hindex, hproduced⟩ := h.invoked hlengths a
  have hpos := h.ring.positive
  have hold : bytes info n k < 2 ^ 64 := by
    obtain ⟨state, hstate, heq⟩ := Option.map_eq_some_iff.mp h.produced
    rw [← heq]
    exact state.produced.isLt
  have hiff : ProducedBytes.produced c hist' = some (bytes info n (k + a.completions)) ↔
      Counted info.params n k a := by
    rw [hproduced, Option.some_inj]
    by_cases hflex : info.params.bytesPerDescriptor = 0
    · have hnothing : info.params.bytesPerDescriptor.toNat = 0 := congrArg BitVec.toNat hflex
      rw [hnothing, Nat.zero_mul, Nat.add_zero, Nat.mod_eq_of_lt hold]
      constructor
      · intro heq
        refine ⟨hpos.ne', .inl ?_⟩
        by_contra ha
        exact (bytes_lt hlengths hpos ha).ne heq
      · rintro ⟨-, hzero | ⟨hfixed, -⟩⟩
        · rw [hzero, Nat.add_zero]
        · exact absurd hflex hfixed
    · have hL : 0 < info.params.bytesPerDescriptor.toNat := BitVec.lt_def.mp (ne_zero_iff_pos.mp hflex)
      rw [bytes_fixed hlengths hpos hflex] at hold
      rw [bytes_fixed hlengths hpos hflex, bytes_fixed hlengths hpos hflex,
        fixed_counted_iff hL hpos h.fits hlengths.small hold, Counted, and_iff_right hpos.ne',
        and_iff_right (a := info.params.bytesPerDescriptor ≠ 0) hflex]
  refine ⟨hist', hinvoke, hiff, fun hcounted => ?_⟩
  have hseq : (k + a.completions) % n < 2 ^ 16 := by
    obtain ⟨-, hzero | ⟨-, -, hseq, -⟩⟩ := hcounted
    · rw [hzero]
      exact h.fits
    · exact hseq
  exact ⟨hring, hparams, hindex.trans (Nat.mod_eq_of_lt hseq), hseq, hiff.mpr hcounted⟩

theorem Counts.run_iff (h : Counts c n k info hist) (hlengths : Lengths info n) (advances : List Advance) :
    (∀ before, before <+: advances → ∃ hist',
      Runs.run (StreamTracking.invoke c) hist (registers n k before) = some hist' ∧
        ProducedBytes.produced c hist' = some (bytes info n (k + (before.map Advance.completions).sum))) ↔
      AllCounted info.params n k advances := by
  induction advances generalizing k hist with
  | nil =>
      refine iff_of_true (fun before hbefore => ?_) True.intro
      obtain rfl := List.prefix_nil.mp hbefore
      exact ⟨hist, rfl, h.produced⟩
  | cons a advances ih =>
      obtain ⟨hist₁, hinvoke, hiff, hnext⟩ := h.step hlengths a
      have hrun : ∀ before, Runs.run (StreamTracking.invoke c) hist (registers n k (a :: before)) =
          Runs.run (StreamTracking.invoke c) hist₁ (registers n (k + a.completions) before) := by
        intro before
        rw [registers, Runs.run, hinvoke]
        rfl
      have hsum : ∀ before : List Advance, k + ((a :: before).map Advance.completions).sum =
          k + a.completions + (before.map Advance.completions).sum := by
        intro before
        rw [List.map_cons, List.sum_cons, Nat.add_assoc]
      constructor
      · intro hcounts
        have hcounted : Counted info.params n k a := by
          obtain ⟨hist', hone, hproduced⟩ := hcounts [a] ⟨advances, rfl⟩
          rw [hrun] at hone
          obtain rfl := Option.some.inj hone
          rw [hsum] at hproduced
          exact hiff.mp hproduced
        refine ⟨hcounted, (ih (hnext hcounted)).mp fun before hbefore => ?_⟩
        obtain ⟨hist', hall, hproduced⟩ := hcounts (a :: before) (List.cons_prefix_cons.mpr ⟨rfl, hbefore⟩)
        exact ⟨hist', hrun before ▸ hall, hsum before ▸ hproduced⟩
      · rintro ⟨hcounted, hrest⟩ before hbefore
        cases before with
        | nil => exact ⟨hist, rfl, h.produced⟩
        | cons b before =>
            obtain ⟨rfl, hbehind⟩ := List.cons_prefix_cons.mp hbefore
            obtain ⟨hist', hall, hproduced⟩ := (ih (hnext hcounted)).mpr hrest before hbehind
            exact ⟨hist', (hrun before).trans hall, (hsum before).symm ▸ hproduced⟩

theorem lengthAt_fresh (h : FreshStream dev c params mapInfo) {i : ℕ} (hi : i < plannedCount params mapInfo) :
    ∃ p ∈ pieces (pieceLength params) (requestReach params mapInfo), lengthAt (dev.dmaInfo c) i = p.2 := by
  have hlt : i < (dev.dmaInfo c).desc.length := Nat.lt_of_lt_of_le hi h.buffer
  refine ⟨hostInterval params.direction ((dev.dmaInfo c).desc[i]), ?_, ?_⟩
  · rw [← h.intervals]
    exact List.mem_map_of_mem (List.mem_take_iff_getElem.mpr ⟨i, lt_min hi hlt, rfl⟩)
  · rw [lengthAt, List.getElem?_eq_getElem hlt]
    rfl

theorem lengths_fresh (h : FreshStream dev c params mapInfo) :
    Lengths (dev.dmaInfo c) (plannedCount params mapInfo) where
  positive := fun i hi => by
    obtain ⟨p, hp, hlen⟩ := lengthAt_fresh h hi
    rw [hlen]
    exact (mem_pieces (pieceLength_pos params) hp).1
  fixed := fun hfixed i hi => by
    rw [h.requested] at hfixed ⊢
    have hpositive := ne_zero_iff_pos.mp hfixed
    have hlength : pieceLength params = params.bytesPerDescriptor.toNat := if_pos hpositive
    obtain ⟨p, hp, hlen⟩ := lengthAt_fresh h hi
    rw [requestReach, show fixedLength params = true from decide_eq_true hpositive] at hp
    rw [hlen, length_of_mem_pieces (pieceLength_pos params) hp, hlength]
  small := by
    have htotal := params.bytesTotal.isLt
    have hdiv := Nat.div_mul_le_self params.bytesTotal.toNat params.bytesPerDescriptor.toNat
    rw [h.requested]
    by_cases hflex : params.bytesPerDescriptor = 0
    · rw [hflex]
      exact Nat.mul_zero _ ▸ (by decide)
    · simp only [plannedCount, if_neg hflex]
      split
      · omega
      · omega

theorem counts_fresh (h : FreshStream dev c params mapInfo) (hpos : plannedCount params mapInfo ≠ 0) :
    Counts c (plannedCount params mapInfo) 0 (dev.dmaInfo c) ⟨dev, []⟩ where
  ring := h.ring hpos
  params := rfl
  index := by
    rw [h.index, Nat.zero_mod]
    rfl
  fits := by
    rw [Nat.zero_mod]
    decide
  produced := by
    rw [produced, h.state]
    rfl

/-- Without descriptors the first invocation divides by zero. -/
theorem handler_of_empty (h : FreshStream dev c params mapInfo) (hzero : plannedCount params mapInfo = 0)
    (seqNums : U32) : dmaStreamIrqHandler dev c seqNums = .error .divisionByZero := by
  have hsize : (dev.dmaInfo c).descSize = 0 := by
    apply BitVec.eq_of_toNat_eq
    rw [h.size, hzero]
    rfl
  have hmask : (dev.dmaInfo c).streamInfo.numDescMask = 0 := by
    rw [h.mask, hsize]
    rfl
  simp only [dmaStreamIrqHandler, h.state, newWriteSeqNum, hmask, hsize]
  rfl

theorem fresh_counts_iff (h : FreshStream dev c params mapInfo) (advances : List Advance) :
    ProducedCounts dev c (plannedCount params mapInfo) advances ↔
      AllCounted params (plannedCount params mapInfo) 0 advances := by
  by_cases hzero : plannedCount params mapInfo = 0
  · cases advances with
    | nil =>
        refine iff_of_true (fun before hbefore => ?_) True.intro
        obtain rfl := List.prefix_nil.mp hbefore
        exact ⟨⟨dev, []⟩, rfl, by rw [produced, h.state]; rfl⟩
    | cons a advances =>
        refine iff_of_false (fun hcounts => ?_) fun hall => hall.1.1 hzero
        obtain ⟨hist, hrun, -⟩ := hcounts [a] ⟨advances, rfl⟩
        simp only [registers, Runs.run, invoke, handler_of_empty h hzero] at hrun
        cases hrun
  · have hrun := (counts_fresh h hzero).run_iff (lengths_fresh h) advances
    simp only [Nat.zero_add] at hrun
    rw [← h.requested]
    exact h.requested ▸ hrun

/-- The counter of an accepted stream is right behind every invocation exactly if each of
them counts what the controller has completed since the one before. -/
theorem produced_counts_iff (h : AcceptedStream env dev c req mapInfo dev') {started : TpceDev}
    (hstarted : started = dev' ∨ started = (dmaDispatch env dev' c).2) (advances : List Advance) :
    ProducedCounts started c (plannedCount req.params mapInfo) advances ↔
      AllCounted req.params (plannedCount req.params mapInfo) 0 advances := by
  have hfresh : FreshStream started c req.params mapInfo := by
    rcases hstarted with rfl | rfl
    · exact h.fresh
    · exact h.dispatched env
  exact fresh_counts_iff hfresh advances

theorem fixed_stream_counts : ∃ dev mapInfo, AcceptedStream .granted freshDevice 0 streamFromDevice mapInfo dev ∧
    ProducedCounts dev 0 3 [⟨2, 0⟩, ⟨2, 1⟩] := by
  obtain ⟨dev, mapInfo, haccepted, hcount⟩ := streamFromDevice_accepted
  have hcounts := produced_counts_iff haccepted (.inl rfl) [⟨2, 0⟩, ⟨2, 1⟩]
  rw [hcount] at hcounts
  refine ⟨dev, mapInfo, haccepted, hcounts.mpr ⟨⟨by decide, .inr ?_⟩, ⟨by decide, .inr ?_⟩, True.intro⟩⟩
  · decide
  · decide

/-- A stream into two pieces of 256 KiB whose length is left to the generator -/
def flexibleStream : TpceDmaRequest :=
  { streamFromDevice with params := { streamFromDevice.params with bytesTotal := 0x80000, bytesPerDescriptor := 0 } }

theorem flexible_stream_counts_nothing : ∃ dev mapInfo hist,
    AcceptedStream .granted freshDevice 0 flexibleStream mapInfo dev ∧
      plannedCount flexibleStream.params mapInfo = 2 ∧
      Runs.run (invoke 0) ⟨dev, []⟩ (registers 2 0 [⟨1, 0⟩]) = some hist ∧ produced 0 hist = some 0 ∧
      bytes (dev.dmaInfo 0) 2 1 = 262144 := by
  have hrun : ((initDmaInfo .granted freshDevice 0 flexibleStream).toOption.bind fun r =>
      (Runs.run (invoke 0) ⟨r.2, []⟩ (registers 2 0 [⟨1, 0⟩])).map fun hist =>
        (r.1, produced 0 hist, bytes (r.2.dmaInfo 0) 2 1)) = some (0, some 0, 262144) := by
    decide +kernel
  have hplanned : (xaLoad freshDevice 1).map (plannedCount flexibleStream.params) = some 2 := by
    decide +kernel
  obtain ⟨⟨ret, dev⟩, hinit, hmap⟩ := Option.bind_eq_some_iff.mp hrun
  obtain ⟨hist, hrun, heq⟩ := Option.map_eq_some_iff.mp hmap
  obtain ⟨rfl, hrest⟩ := Prod.mk.inj heq
  obtain ⟨hproduced, hbytes⟩ := Prod.mk.inj hrest
  obtain ⟨mapInfo, hload, hcount⟩ := Option.map_eq_some_iff.mp hplanned
  exact ⟨dev, mapInfo, hist, ⟨toOption_eq_some.mp hinit, hload, rfl, rfl⟩, hcount, hrun, hproduced, hbytes⟩

end TpceDrv.ProducedBytes
