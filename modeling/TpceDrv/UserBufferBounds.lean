import TpceDrv.BlockReadCopies

namespace TpceDrv.UserBufferBounds

open Requests UserStructs LegacyRead LegacyActions LegacyMemory LegacyRuns BlockReadSizes BlockReadCopies
open Library.Buffers

variable {input : TDmaTpceDataRead}

/-- Whatever the system answers, the read ends without a fault, each byte that it copies
goes to the caller's buffer, and the rest of the user's memory stays as it is. -/
def StaysInBuffer (input : TDmaTpceDataRead) : Prop :=
  ∀ ans kernel user, ∃ out, iocDmaReadRequestA (Answers.ops ans) input (Memory.start kernel user) = .ok out ∧
    (∀ e ∈ out.2.copied, ∀ i < e.length, (e.dst + BitVec.ofNat 64 i - input.data).toNat < input.count.toNat) ∧
    ∀ a, input.count.toNat ≤ (a - input.data).toNat → out.2.user a = user a

theorem staysInBuffer_iff : StaysInBuffer input ↔
    EveryByte input fun dst _ _ i => (dst + BitVec.ofNat 64 i - input.data).toNat < input.count.toNat := by
  constructor
  · intro h ans kernel user
    obtain ⟨out, hout, hbytes, -⟩ := h ans kernel user
    exact ⟨out, hout, hbytes⟩
  · intro h ans kernel user
    obtain ⟨out, hout, hbytes⟩ := h ans kernel user
    refine ⟨out, hout, hbytes, fun a ha => user_of_blockRead hout fun e he => ?_⟩
    by_contra hlt
    have hbyte : (e.dst + BitVec.ofNat 64 (a - e.dst).toNat - input.data).toNat < input.count.toNat :=
      hbytes e he _ (Nat.not_le.mp hlt)
    rw [BitVec.ofNat_toNat, BitVec.setWidth_eq, BitVec.add_comm, BitVec.sub_add_cancel] at hbyte
    omega

/-- The copy starts at an offset in the caller's buffer and ends in it. -/
def InBuffer (input : TDmaTpceDataRead) (c : Copied) : Prop :=
  ∀ i < c.length, (c.dst + BitVec.ofNat 64 i - input.data).toNat < input.count.toNat

theorem inBuffer_at {k n offset transferred : ℕ} (h : k + n ≤ input.count.toNat) :
    InBuffer input ⟨input.data + BitVec.ofNat 64 k, offset, n, transferred⟩ := by
  intro i hi
  have hcount := input.count.isLt
  change i < n at hi
  rw [toNat_distance _ (by omega)]
  omega

theorem inBuffer_start {n offset transferred : ℕ} (hn : n < 2 ^ 64) :
    InBuffer input ⟨input.data, offset, n, transferred⟩ ↔ n ≤ input.count.toNat := by
  have hdistance : ∀ i < n, (input.data + BitVec.ofNat 64 i - input.data).toNat = i :=
    fun i hi => toNat_start_distance _ (by omega)
  constructor
  · intro h
    by_contra hlt
    have hlast := h input.count.toNat (Nat.not_le.mp hlt)
    rw [hdistance _ (Nat.not_le.mp hlt)] at hlast
    exact Nat.lt_irrefl _ hlast
  · intro hle i hi
    rw [hdistance i hi]
    exact Nat.lt_of_lt_of_le hi hle

theorem stays_in_buffer_iff (input : TDmaTpceDataRead) : StaysInBuffer input ↔ (¬StaysInBlock input →
    ¬ExceedsBlock input → FirstCopied input → firstLen input ≤ input.count.toNat) := by
  have hempty : ∀ c : Copied, c.length = 0 → InBuffer input c := fun c hc i hi => by omega
  rw [staysInBuffer_iff, everyByte_iff]
  change (¬Refused input → ∀ c ∈ performed (actions input) 0, InBuffer input c) ↔ _
  by_cases hrefused : Refused input
  · exact iff_of_true (fun h => absurd hrefused h) fun _ _ hfirst => absurd hrefused hfirst.usable.not_refused
  have hcount := (not_refused_iff.mp hrefused).2
  rw [forall_prop_of_true hrefused, actions]
  by_cases hstays : StaysInBlock input
  · simp only [if_pos hstays]
    rw [forall_withinBlock hempty hrefused]
    exact iff_of_true (fun _ => (inBuffer_start (by omega)).mpr le_rfl) fun h => absurd hstays h
  simp only [if_neg hstays, forall_prop_of_true hstays]
  by_cases hexceeds : ExceedsBlock input
  · obtain ⟨hblock, hfirst⟩ := wholeBlock_first hrefused hexceeds
    simp only [if_pos hexceeds]
    rw [forall_wholeBlock hempty hrefused hexceeds]
    refine iff_of_true (fun hwhole => ⟨?_, ?_⟩) fun h => absurd hexceeds h
    · exact (inBuffer_start (by omega)).mpr (by omega)
    · have hle := hwhole.copied
      exact inBuffer_at (by omega)
  · simp only [if_neg hexceeds]
    rw [forall_firstSegment hempty hrefused hstays, forall_prop_of_true hexceeds]
    refine forall_congr' fun hfirst => ?_
    have hle := hfirst.copied
    rw [inBuffer_start (by omega)]
    refine and_iff_left_of_imp fun hfit => ?_
    rw [forall_secondSegment hempty hrefused hstays hfit]
    exact fun _ _ => inBuffer_at (by omega)

def overrunning : TDmaTpceDataRead where
  address := 1023
  input := 0
  dmaChannel := 1
  mux8ChannelEn := 0
  nextAddress := 3
  addrBlockSize := 1024
  addrBlockNr := 0
  count := 1
  data := 0x10000
  burstCount := 0

/-- Two bytes are copied for a count of one. -/
theorem one_byte_overrun : ¬StaysInBuffer overrunning := by
  rw [staysInBuffer_iff, everyByte_iff]
  intro h
  have hbyte := h (by decide) ⟨0x10000, 2, 2, 8⟩ (by decide) 1 (by decide)
  exact absurd hbyte (by decide)

end TpceDrv.UserBufferBounds
