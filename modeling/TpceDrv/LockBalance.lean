import TpceDrv.Locking
import Mathlib.Data.Finset.Basic

namespace TpceDrv.LockBalance

open Device ChannelControl LegacyRead Locking TracedIoctl Library.Buffers Library.Holdings Library.Traces
open Ioctl (TpceIoc)
open IoctlCommands (Kernel Session Call IoDev CopyEnv UserCall IoctlFault Reply)
open Requests (KernelRead MmapEnv mmapStreamInfo)

variable {ε α β : Type} {held : Finset Lock} {m n : Mutexed ε α} {f : α → Mutexed ε β} {lock : Lock}

/-- Whenever the computation returns it holds what it held before, and it has locked
and unlocked in order. -/
def Balances (held : Finset Lock) (m : Mutexed ε α) : Prop := Ends some held m fun _ held' => held' = held

theorem Balances.pure (a : α) : Balances held (Pure.pure a : Mutexed ε α) := Ends.pure rfl

theorem Balances.lift (x : Except ε α) : Balances held (Library.Traces.lift x : Mutexed ε α) := Ends.lift fun _ _ => rfl

theorem Balances.bind (hm : Balances held m) (hf : ∀ a, Balances held (f a)) : Balances held (m >>= f) := by
  apply Ends.bind hm
  rintro a _ rfl
  exact hf a

theorem Balances.ite {p : Prop} [Decidable p] (hm : p → Balances held m) (hn : ¬p → Balances held n) :
    Balances held (if p then m else n) := Ends.ite hm hn

/-- The rest of a function behind the lock gives it back. -/
theorem Balances.unlock (hlock : lock ∉ held) {g : Unit → Mutexed ε β} (h : Balances held (g ())) :
    Ends some (insert lock held) (emit (.release lock) >>= g) fun _ held' => held' = held := by
  apply Ends.release rfl (Finset.mem_insert_self lock held)
  rw [Finset.erase_insert hlock]
  exact h

theorem Balances.locked (hlock : lock ∉ held) (h : Balances (insert lock held) m) :
    Balances held (locked lock m) := by
  apply Ends.acquire rfl hlock
  apply Ends.bind h
  rintro a _ rfl
  exact Balances.unlock hlock (Balances.pure a)

/-- The channels' mutexes are free, whatever is held of `tpce->mutex`. -/
def NoChannel (held : Finset Lock) : Prop := ∀ c, Lock.channel c ∉ held

theorem noChannel_empty : NoChannel ∅ := fun _ => Finset.notMem_empty _

theorem noChannel_tpce : NoChannel (insert .tpce ∅) := fun c h => by
  rcases Finset.mem_insert.mp h with h | h
  · cases h
  · cases h

theorem stateLocked_balances (hfree : NoChannel held) (dev : TpceDev) (c : Channel) :
    Balances held (tpceDmaStateLocked dev c : Mutexed ε _) := Balances.locked (hfree c) (Balances.pure _)

theorem wait_balances (hfree : NoChannel held) (dev : TpceDev) (c : Channel) (polls : ℕ) :
    Balances held (tpceDmaWaitUntilCompleted dev c polls : Mutexed ε Unit) := by
  induction polls with
  | zero => exact Balances.pure _
  | succ polls ih => exact (stateLocked_balances hfree dev c).bind fun _ => ih

theorem dmaExecute_balances (hfree : NoChannel held) (env : InitEnv) (waiting : Waiting) (dev : TpceDev)
    (req : TpceDmaRequest) : Balances held (dmaExecute env waiting dev req) := by
  simp only [dmaExecute]
  split
  · apply Ends.acquire rfl (hfree _)
    apply Ends.lift_bind
    rintro ⟨err, dev₁⟩ -
    apply Ends.ite
    · exact fun _ => Balances.unlock (hfree _) (Balances.pure _)
    intro _
    apply Balances.unlock (hfree _)
    refine Balances.ite (fun _ => ?_) fun _ => Balances.ite (fun _ => Balances.pure _) fun _ => ?_
    · exact (Balances.locked (hfree _) (Balances.lift _)).bind fun _ => Balances.pure _
    · refine (wait_balances hfree _ _ _).bind fun _ => (Balances.lift _).bind fun dev₃ => ?_
      exact (Balances.locked (hfree _) (Balances.lift _)).bind fun _ => Balances.pure _
  · exact Balances.pure _

theorem balances_iff {m : Mutexed ε α} :
    Balances held m ↔ Leaves (fun t => heldAfter held t = some held) m := by
  constructor
  · intro h a t ht
    obtain ⟨held', hheld, rfl⟩ := h a t ht
    rwa [List.filterMap_some] at hheld
  · intro h a t ht
    refine ⟨held, ?_, rfl⟩
    rw [List.filterMap_some]
    exact h a t ht

theorem lockingOps_balance (hfree : NoChannel held) :
    lockingOps.Leave fun t => heldAfter held t = some held where
  abortReset := fun _ c => balances_iff.mp (Balances.locked (hfree c) (Balances.lift _))
  dmaExecute := fun _ _ _ _ => balances_iff.mp (dmaExecute_balances hfree _ _ _ _)
  barRead := fun _ _ _ => Leaves.lift (additive_heldAfter held) _
  barWrite := fun _ _ _ => Leaves.lift (additive_heldAfter held) _

theorem dispatch_balances (hfree : NoChannel held) (k : Kernel) (polls : List Call → ℕ) (file : ℕ) (ioc : TpceIoc)
    (size : U32) (b : Bytes) (s : Session) :
    Balances held (tpceDispatchIoc lockingOps k polls file ioc size b s) :=
  balances_iff.mpr (dispatch_leaves (additive_heldAfter held) (lockingOps_balance hfree) k polls file ioc size b s)

theorem ioctl_balances (k : Kernel) (polls : List Call → ℕ) (env : CopyEnv) (call : UserCall) (s : IoDev) :
    Balances ∅ (tpceIoctl k polls env call s) := by
  refine Balances.ite (fun _ => Balances.pure _) fun _ => ?_
  cases call.cmd with
  | event => exact Balances.pure _
  | dmaStatus =>
      refine Balances.ite (fun _ => Balances.lift _) fun _ => Balances.ite (fun _ => Balances.pure _) fun _ => ?_
      split
      · exact (stateLocked_balances noChannel_empty _ _).bind fun _ => Balances.pure _
      · exact Balances.pure _
  | _ =>
      refine Balances.ite (fun _ => Balances.pure _) fun _ => Balances.locked (Finset.notMem_empty _) ?_
      refine Balances.ite (fun _ => Balances.pure _) fun _ => Balances.ite (fun _ => Balances.pure _) fun _ => ?_
      refine Balances.ite (fun _ => Balances.lift _) fun _ => Balances.ite (fun _ => Balances.pure _) fun _ => ?_
      exact (dispatch_balances noChannel_tpce _ _ _ _ _ _ _).bind fun _ => Balances.pure _

theorem release_balances (dev : TpceDev) (file : ℕ) : Balances ∅ (tpceRelease dev file) := by
  have hloop : Balances (insert .tpce ∅) (releaseMappings lockingOps file dev (dev.dmaMapSublist file)) :=
    balances_iff.mpr (releaseMappings_leaves (additive_heldAfter _) (lockingOps_balance noChannel_tpce) file dev _)
  exact (Balances.locked (Finset.notMem_empty _) hloop).bind fun _ => Balances.pure _

theorem remove_balances (meanwhile : Meanwhile) (dev : TpceDev) : Balances ∅ (tpceDeviceRemove meanwhile dev) := by
  refine (Balances.locked (Finset.notMem_empty _) (Balances.pure _)).bind fun dev₁ => ?_
  exact (Balances.locked (Finset.notMem_empty _) (Balances.lift _)).bind fun dev₂ => Balances.lift _

/-- The calls that take a mutex -/
inductive EntryPoint
  | release (file : ℕ)
  | ioctl (k : Kernel) (polls : List Call → ℕ) (env : CopyEnv) (call : UserCall)
  | mmap (env : MmapEnv) (off size : U64)
  | vmaClose (c : Channel)
  | dmaWork (c : Channel)
  | remove (meanwhile : Meanwhile)

/-- What a call that returns does with the mutexes -/
def lockTrace (s : IoDev) : EntryPoint → Option (List (Access Lock))
  | .release file => (tpceRelease s.dev file).run.toOption.map Prod.snd
  | .ioctl k polls env call => (tpceIoctl k polls env call s).run.toOption.map Prod.snd
  | .mmap env off size => (tpceMmap env s.dev off size).run.toOption.map Prod.snd
  | .vmaClose c => (vmaStreamInfoClose s.dev c).run.toOption.map Prod.snd
  | .dmaWork c => (tpceDmaWork s.dev c).run.toOption.map Prod.snd
  | .remove meanwhile => (tpceDeviceRemove meanwhile s.dev).run.toOption.map Prod.snd

/-- A call that returns holds no mutex that it did not hold before, and has released
each one as often as it has acquired it. -/
def Balanced (s : IoDev) (call : EntryPoint) : Prop :=
  ∀ t, lockTrace s call = some t →
    heldAfter ∅ t = some ∅ ∧ ∀ lock, t.count (.acquire lock) = t.count (.release lock)

/-- The two early returns of `tpce_mmap` -/
def LeavesLocked (s : IoDev) : EntryPoint → Prop
  | .mmap env off size =>
      (off = tpceMmapDma0StreamOff ∨ off = tpceMmapDma1StreamOff ∨ off = tpceMmapDma2StreamOff) ∧
      size.toNat = DmaParams.pageSize ∧ env.killed = false ∧ (s.dev.goingAway = true ∨
        ∃ c : Channel, (off &&& 0xf#64).toNat = c.val ∧ (s.dev.dmaInfo c).streamInfo.state = none ∧
          env.vmallocOk = false)
  | _ => False

variable {s : IoDev} {env : MmapEnv} {dev : TpceDev} {c : Channel} {t : List (Access Lock)}

theorem balanced_trace (h : Balances ∅ m) (ht : m.run.toOption.map Prod.snd = some t) :
    heldAfter ∅ t = some ∅ ∧ ∀ lock, t.count (.acquire lock) = t.count (.release lock) := by
  obtain ⟨p, hrun, rfl⟩ := Option.map_eq_some_iff.mp ht
  obtain ⟨held, hheld, rfl⟩ := h p.1 p.2 (toOption_eq_some.mp hrun)
  rw [List.filterMap_some] at hheld
  refine ⟨hheld, fun lock => ?_⟩
  simpa using count_of_heldAfter hheld lock

theorem mmapStreamInfo_fails (vmallocOk : Bool) (info : DmaInfo.TpceDmaInfo) :
    (mmapStreamInfo vmallocOk info).1 ≠ 0 ↔ info.streamInfo.state = none ∧ vmallocOk = false := by
  cases hstate : info.streamInfo.state with
  | none =>
      cases vmallocOk with
      | false => simp [mmapStreamInfo, tpceInitStreamInfo, hstate, Errno.enomem]
      | true => simp [mmapStreamInfo, tpceInitStreamInfo, hstate]
  | some state => simp [mmapStreamInfo, hstate]

theorem mmapStream_balances (hpresent : dev.goingAway = false)
    (hinfo : (mmapStreamInfo env.vmallocOk (dev.dmaInfo c)).1 = 0) : Balances ∅ (mmapStream env dev c) := by
  refine Balances.ite (fun _ => Balances.pure _) fun _ => ?_
  apply Ends.acquire rfl (Finset.notMem_empty _)
  apply Ends.ite
  · exact fun haway => absurd (hpresent.symm.trans haway) Bool.false_ne_true
  intro _
  apply Ends.ite
  · exact fun hne => absurd hinfo hne
  intro _
  apply Balances.unlock (Finset.notMem_empty _)
  exact Balances.ite (fun _ => Balances.pure _) fun _ => Balances.pure _

theorem mmapStream_leaves (hlive : env.killed = false)
    (h : dev.goingAway = true ∨ (mmapStreamInfo env.vmallocOk (dev.dmaInfo c)).1 ≠ 0) :
    (mmapStream env dev c).run.toOption.map Prod.snd = some [.acquire .tpce] := by
  cases haway : dev.goingAway with
  | true =>
      simp only [mmapStream, hlive, haway]
      rfl
  | false =>
      have hinfo := h.resolve_left (by rw [haway]; exact Bool.false_ne_true)
      simp only [mmapStream, hlive, haway, if_pos hinfo]
      rfl

theorem streamOffset_cases {off : U64}
    (h : off = tpceMmapDma0StreamOff ∨ off = tpceMmapDma1StreamOff ∨ off = tpceMmapDma2StreamOff) :
    (off &&& 0xf#64).toNat < 3 ∧ ¬(off = tpceMmapBar0Off ∨ off = tpceMmapBar2Off) := by
  rcases h with rfl | rfl | rfl
  · decide
  · decide
  · decide

/-- A call that returns with the mutex locked is not balanced. -/
theorem leaves_unbalanced {call : EntryPoint} (h : lockTrace s call = some [.acquire .tpce]) : ¬Balanced s call := by
  intro hbalanced
  have hcount := (hbalanced _ h).2 .tpce
  exact absurd hcount (by decide)

/-- The part of `tpce_mmap` behind the checks of offset and size -/
theorem mmap_eq_mmapStream {off size : U64}
    (hoff : off = tpceMmapDma0StreamOff ∨ off = tpceMmapDma1StreamOff ∨ off = tpceMmapDma2StreamOff)
    (hsize : size.toNat = DmaParams.pageSize) (hc : (off &&& 0xf#64).toNat = c.val) :
    tpceMmap env dev off size = mmapStream env dev c := by
  obtain ⟨hchannel, hbar⟩ := streamOffset_cases hoff
  have heq : (⟨(off &&& 0xf#64).toNat, hchannel⟩ : Channel) = c := Fin.ext hc
  simp only [tpceMmap]
  rw [if_neg hbar, if_pos hoff, if_neg (not_not.mpr hsize), dif_pos hchannel, heq]

theorem mmap_balanced_iff (s : IoDev) (env : MmapEnv) (off size : U64) :
    Balanced s (.mmap env off size) ↔ ¬LeavesLocked s (.mmap env off size) := by
  by_cases hoff : off = tpceMmapDma0StreamOff ∨ off = tpceMmapDma1StreamOff ∨ off = tpceMmapDma2StreamOff
  · obtain ⟨hchannel, hbar⟩ := streamOffset_cases hoff
    by_cases hsize : size.toNat = DmaParams.pageSize
    · have hcall := @mmap_eq_mmapStream env s.dev ⟨_, hchannel⟩ off size hoff hsize rfl
      constructor
      · rintro hbalanced ⟨-, -, hlive, hcause⟩
        refine leaves_unbalanced ?_ hbalanced
        simp only [lockTrace]
        rw [hcall]
        refine mmapStream_leaves hlive (hcause.imp_right ?_)
        rintro ⟨c, hc, hstate, hvmalloc⟩
        obtain rfl : c = ⟨_, hchannel⟩ := Fin.ext hc.symm
        exact (mmapStreamInfo_fails _ _).mpr ⟨hstate, hvmalloc⟩
      · intro hleaves t ht
        simp only [lockTrace] at ht
        rw [hcall] at ht
        by_cases hlive : env.killed = false
        · have hcause := fun h => hleaves ⟨hoff, hsize, hlive, h⟩
          have hpresent : s.dev.goingAway = false := Bool.eq_false_iff.mpr fun haway => hcause (.inl haway)
          refine balanced_trace (mmapStream_balances hpresent ?_) ht
          by_contra hinfo
          exact hcause (.inr ⟨_, rfl, (mmapStreamInfo_fails _ _).mp hinfo⟩)
        · have hkilled : env.killed = true := Bool.eq_true_of_not_eq_false hlive
          have heq : mmapStream env s.dev ⟨_, hchannel⟩ = pure (.returned (-Errno.eintr), s.dev) := if_pos hkilled
          rw [heq] at ht
          exact balanced_trace (Balances.pure _) ht
    · refine iff_of_true (fun t ht => balanced_trace (m := tpceMmap env s.dev off size) ?_ ht) fun h => hsize h.2.1
      refine Balances.ite (fun _ => Balances.pure _) fun _ => ?_
      rw [if_pos hoff, if_pos hsize]
      exact Balances.pure _
  · refine iff_of_true (fun t ht => balanced_trace (m := tpceMmap env s.dev off size) ?_ ht) fun h => hoff h.1
    refine Balances.ite (fun _ => Balances.pure _) fun _ => ?_
    rw [if_neg hoff]
    exact Balances.pure _

/-- Every call gives back what it takes, but for the two early returns of
`tpce_mmap`. -/
theorem balanced_iff (s : IoDev) (call : EntryPoint) : Balanced s call ↔ ¬LeavesLocked s call := by
  cases call with
  | mmap env off size => exact mmap_balanced_iff s env off size
  | release file => exact iff_of_true (fun t ht => balanced_trace (release_balances _ _) ht) id
  | ioctl k polls env call => exact iff_of_true (fun t ht => balanced_trace (ioctl_balances _ _ _ _ _) ht) id
  | vmaClose c =>
      have h : Balances ∅ (vmaStreamInfoClose s.dev c) := Balances.locked (Finset.notMem_empty _) (Balances.pure _)
      exact iff_of_true (fun t ht => balanced_trace h ht) id
  | dmaWork c =>
      have h : Balances ∅ (tpceDmaWork s.dev c) := Balances.locked (Finset.notMem_empty _) (Balances.lift _)
      exact iff_of_true (fun t ht => balanced_trace h ht) id
  | remove meanwhile => exact iff_of_true (fun t ht => balanced_trace (remove_balances _ _) ht) id

def removedDevice : IoDev := ⟨{ freshDevice with goingAway := true }, 0, fun _ => 0⟩

/-- A stream page is mapped after the removal has marked the device. -/
theorem mmap_leaves_mutex :
    ¬Balanced removedDevice (.mmap ⟨false, true, 0⟩ tpceMmapDma0StreamOff 0x1000) := leaves_unbalanced rfl

end TpceDrv.LockBalance
