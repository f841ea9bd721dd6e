import TpceDrv.BlockReadCopies

namespace TpceDrv.StaleBytes

open Requests UserStructs LegacyRead LegacyActions LegacyMemory LegacyRuns BlockReadSizes BlockReadCopies
open Library.Buffers Library.Scripts

variable {input : TDmaTpceDataRead}

/-- What is in the kernel buffer before makes no difference to the caller, and each byte
copied comes from the transfer in front of its copy. -/
def NoStaleBytes (input : TDmaTpceDataRead) : Prop :=
  (∀ ans user kernel kernel', ∃ r u, iocDmaReadRequestA (Answers.ops ans) input (Memory.start kernel user) = .ok r ∧
    iocDmaReadRequestA (Answers.ops ans) input (Memory.start kernel' user) = .ok u ∧ r.1 = u.1 ∧
      r.2.user = u.2.user) ∧
  EveryByte input fun _ offset transferred i => offset + i < transferred

theorem fresh_iff {dst : U64} {offset length transferred : ℕ} :
    Fresh ⟨dst, offset, length, transferred⟩ ↔ length = 0 ∨ offset + length ≤ transferred := by
  constructor
  · intro h
    by_contra hnot
    have hlast : offset + (length - 1) < transferred := h (length - 1) (Nat.sub_lt (by omega) Nat.one_pos)
    omega
  · intro h i hi
    change i < length at hi
    change offset + i < transferred
    omega

theorem noStaleBytes_iff : NoStaleBytes input ↔ (¬Refused input → ∀ c ∈ performed (actions input) 0, Fresh c) := by
  constructor
  · intro h
    exact everyByte_iff.mp h.2
  · intro h
    refine ⟨fun ans user kernel kernel' => ?_, everyByte_iff.mpr h⟩
    by_cases hrefused : Refused input
    · rw [iocDmaReadRequestA_eq, iocDmaReadRequestA_eq, if_pos hrefused, if_pos hrefused]
      exact ⟨_, _, rfl, rfl, rfl, rfl⟩
    · have hagree : Agree (Memory.start kernel user) (Memory.start kernel' user) :=
        ⟨kernel', rfl, fun i hi => absurd hi (Nat.not_lt_zero i)⟩
      obtain ⟨r, u, hr, hu, hstatus, kernel'', hafter, -⟩ := runs_agree ans (actions input) hagree (h hrefused)
      rw [iocDmaReadRequestA_eq, iocDmaReadRequestA_eq, if_neg hrefused, if_neg hrefused]
      refine ⟨r, u, hr, hu, hstatus, ?_⟩
      rw [hafter]

theorem fresh_of_empty (c : Copied) (hc : c.length = 0) : Fresh c := fun i hi => absurd hi (by omega)

theorem fresh_withinBlock (hrefused : ¬Refused input) :
    (∀ c ∈ performed (withinBlock input (blockRead input)) 0, Fresh c) ↔
      (WithinCopied input → input.count.toNat < 8 ∨ skip input + input.count.toNat % 8 ≤ 8) := by
  have hover := overread_cases input
  rw [forall_withinBlock fresh_of_empty hrefused, fresh_iff]
  refine forall_congr' fun _ => ?_
  rw [withinBytes, skip]
  rw [skip] at hover
  split
  · omega
  · split
    · omega
    · omega

theorem fresh_wholeBlock (hrefused : ¬Refused input) (hexceeds : ExceedsBlock input) :
    (∀ c ∈ performed (wholeBlock input (blockRead input)) 0, Fresh c) ↔
      (WholeCopied input → (input.addrBlockSize * 2).toNat ≤ 8 * (input.count.toNat / 8) + overread input) := by
  obtain ⟨hblock, hfirst⟩ := wholeBlock_first hrefused hexceeds
  have hcount := (not_refused_iff.mp hrefused).2
  rw [forall_wholeBlock fresh_of_empty hrefused hexceeds]
  refine forall_congr' fun hwhole => ?_
  have hle := hwhole.copied
  rw [fresh_iff, fresh_iff]
  omega

theorem fresh_twoSegments (hrefused : ¬Refused input) (hstays : ¬StaysInBlock input) :
    (∀ c ∈ performed (firstSegment input (blockRead input) ++ secondSegment input (blockRead input)) 0, Fresh c) ↔
      (FirstCopied input → firstSkip input + firstLen input % 8 ≤ overread input ∧
        (firstLen input < input.count.toNat → SecondRead input →
          input.count.toNat - firstLen input < 8 ∨ (input.count.toNat - firstLen input) % 8 ≤ overread input)) := by
  have hcount := (not_refused_iff.mp hrefused).2
  have hpos := firstLen_pos hstays
  rw [forall_firstSegment fresh_of_empty hrefused hstays]
  refine forall_congr' fun hfirst => ?_
  have hcopied := hfirst.copied
  rw [fresh_iff, or_iff_right hpos.ne']
  refine and_congr (by omega) ?_
  rcases Nat.lt_or_ge input.count.toNat (firstLen input) with hlt | hle
  · rw [performed_wrapped hstays hlt (by omega)]
    exact iff_of_true (fun c hc => absurd hc List.not_mem_nil) fun h => absurd h (Nat.not_lt.mpr hlt.le)
  · rw [forall_secondSegment fresh_of_empty hrefused hstays hle]
    refine forall_congr' fun hlt => forall_congr' fun _ => ?_
    have hsecond := secondBytes_cases input (input.count.toNat - firstLen input)
    rw [fresh_iff]
    omega

theorem no_stale_bytes_iff (input : TDmaTpceDataRead) : NoStaleBytes input ↔
    (StaysInBlock input → WithinCopied input →
      input.count.toNat < 8 ∨ skip input + input.count.toNat % 8 ≤ 8) ∧
    (¬StaysInBlock input → ExceedsBlock input → WholeCopied input →
      (input.addrBlockSize * 2).toNat ≤ 8 * (input.count.toNat / 8) + overread input) ∧
    (¬StaysInBlock input → ¬ExceedsBlock input → FirstCopied input →
      firstSkip input + firstLen input % 8 ≤ overread input ∧
        (firstLen input < input.count.toNat → SecondRead input →
          input.count.toNat - firstLen input < 8 ∨ (input.count.toNat - firstLen input) % 8 ≤ overread input)) := by
  rw [noStaleBytes_iff]
  by_cases hrefused : Refused input
  · refine iff_of_true (fun h => absurd hrefused h) ⟨fun _ h => ?_, fun _ _ h => ?_, fun _ _ h => ?_⟩
    · exact absurd hrefused h.usable.not_refused
    · exact absurd hrefused h.usable.not_refused
    · exact absurd hrefused h.usable.not_refused
  rw [forall_prop_of_true hrefused, actions]
  by_cases hstays : StaysInBlock input
  · simp only [if_pos hstays]
    rw [fresh_withinBlock hrefused, forall_prop_of_true hstays]
    exact (and_iff_left ⟨fun h => absurd hstays h, fun h => absurd hstays h⟩).symm
  simp only [if_neg hstays, forall_prop_of_true hstays]
  rw [and_iff_right (fun h => absurd h hstays)]
  by_cases hexceeds : ExceedsBlock input
  · simp only [if_pos hexceeds]
    rw [fresh_wholeBlock hrefused hexceeds, forall_prop_of_true hexceeds]
    exact (and_iff_left fun h => absurd hexceeds h).symm
  · simp only [if_neg hexceeds]
    rw [fresh_twoSegments hrefused hstays, forall_prop_of_true hexceeds]
    exact (and_iff_right fun h => absurd h hexceeds).symm

def shortRead : TDmaTpceDataRead where
  address := 3
  input := 0
  dmaChannel := 0
  mux8ChannelEn := 0
  nextAddress := 1
  addrBlockSize := 1024
  addrBlockNr := 0
  count := 12
  data := 0x10000
  burstCount := 0

/-- Of sixteen bytes transferred, the bytes from 6 to 18 are copied. -/
theorem stale_bytes_copied : ¬NoStaleBytes shortRead := by
  rw [noStaleBytes_iff]
  intro h
  have hfresh := h (by decide) ⟨0x10000, 6, 12, 16⟩ (by decide) 11 (by decide)
  exact absurd hfresh (by decide)

end TpceDrv.StaleBytes
