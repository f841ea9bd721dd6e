import TpceDrv.RequestReads
import TpceDrv.NonInterference

namespace TpceDrv.RequestRace

open Device ChannelControl Requests UserStructs IoctlCommands NonInterference RequestReads
open Library.Buffers Library.Reads Library.Runs
open Ioctl (IoctlData storedSize tpceIobufferSize dmaRequestSize)

/-- The shared buffer after the copy of a `TPCE_IOC_DMA_STATUS` -/
def statusCopy (env : CopyEnv) (call : UserCall) (b : Bytes) : Option Bytes :=
  let length := call.iodata.inSize.toNat
  if length > tpceIobufferSize then none else some (copyIn b call.input length (min env.inMissed length))

/-- A call of `TPCE_IOC_DMA_EXECUTE` that uses the shared buffer and holds
`tpce->mutex` -/
structure Execute where
  callees : Callees
  env : InitEnv
  dev : TpceDev
  file : ℕ
  iodata : IoctlData
  input : Bytes
  inMissed : ℕ
  shared : localBuffer iodata = false

/-- How far the call is: `checked` is the request that was validated and `used`
what has been read of it since. -/
inductive Phase
  | entered
  | copied
  | executing (checked : TpceDmaRequest) (used : List ((f : Field) × f.Value)) (rest : Reader (Except Fault SetUp))
  | dispatched (checked : TpceDmaRequest) (used : List ((f : Field) × f.Value)) (c : Channel) (status : Int)
      (dev : TpceDev)
  | returned (status : Int)

structure Race where
  ioBuffer : Bytes
  phase : Phase

inductive Event
  | own
  | status (env : CopyEnv) (call : UserCall)

def copyStep (x : Execute) (b : Bytes) : Option Race :=
  let length := x.iodata.inSize.toNat
  let missed := min x.inMissed length
  if length > tpceIobufferSize then none
  else some ⟨copyIn b x.input length missed, if missed ≠ 0 then .returned (-Errno.efault) else .copied⟩

def validateStep (x : Execute) (b : Bytes) : Phase :=
  if (storedSize x.iodata).toNat < dmaRequestSize then .returned (-Errno.einval)
  else
    let req := dmaRequest b
    let err := validateDmaRequest x.dev req (some x.file)
    if err ≠ 0 then .returned err else .executing req [] (executeReads x.callees x.env x.dev)

def dispatchStep (x : Execute) (checked : TpceDmaRequest) (used : List ((f : Field) × f.Value)) : SetUp → Phase
  | .refused err => .returned err
  | .ready c dev =>
      let (status, dev) := dmaDispatch x.env dev c
      .dispatched checked used c status dev

def ownStep (x : Execute) (s : Race) : Option Race :=
  match s.phase with
  | .entered => copyStep x s.ioBuffer
  | .copied => some ⟨s.ioBuffer, validateStep x s.ioBuffer⟩
  | .executing checked used (.read f next) =>
      let v := Field.of (dmaRequest s.ioBuffer) f
      some ⟨s.ioBuffer, .executing checked (used ++ [⟨f, v⟩]) (next v)⟩
  | .executing checked used (.done (.ok r)) => some ⟨s.ioBuffer, dispatchStep x checked used r⟩
  | .executing _ _ (.done (.error _)) => none
  | .dispatched _ _ _ _ _ => none
  | .returned _ => none

def step (x : Execute) (s : Race) : Event → Option Race
  | .own => ownStep x s
  | .status env call => (statusCopy env call s.ioBuffer).map fun b => ⟨b, s.phase⟩

/-- Whatever is read of the request is what was checked. -/
def AsChecked (checked : TpceDmaRequest) (used : List ((f : Field) × f.Value)) : Prop :=
  ∀ p ∈ used, p.2 = Field.of checked p.1

instance (checked : TpceDmaRequest) (used : List ((f : Field) × f.Value)) : Decidable (AsChecked checked used) :=
  inferInstanceAs (Decidable (∀ p ∈ used, p.2 = Field.of checked p.1))

def UsesChecked (x : Execute) (checked : TpceDmaRequest) (used : List ((f : Field) × f.Value)) : Prop :=
  validateDmaRequest x.dev checked (some x.file) = 0 ∧ AsChecked checked used

/-- What is dispatched is the transfer that `init_dma_info` sets up for the
checked request. -/
def Faithful (x : Execute) (s : Race) : Prop :=
  match s.phase with
  | .executing checked used _ => UsesChecked x checked used
  | .dispatched checked used c status dev =>
      UsesChecked x checked used ∧ c.val = checked.params.channel.toNat ∧
        ∃ ret dev₁, initDmaInfo x.env x.dev c checked = .ok (ret, dev₁) ∧ 0 ≤ ret ∧
          dmaDispatch x.env dev₁ c = (status, dev)
  | _ => True

/-- `b` has the values that are still to be read. -/
def Spares (s : Race) (b : Bytes) : Prop :=
  match s.phase with
  | .executing checked _ rest =>
      ∀ f ∈ rest.fields (Field.of checked), Field.of (dmaRequest b) f = Field.of (dmaRequest s.ioBuffer) f
  | _ => True

instance (s : Race) (b : Bytes) : Decidable (Spares s b) :=
  match s with
  | ⟨b₀, .executing checked _ rest⟩ => inferInstanceAs (Decidable (∀ f ∈ rest.fields (Field.of checked),
      Field.of (dmaRequest b) f = Field.of (dmaRequest b₀) f))
  | ⟨_, .entered⟩ | ⟨_, .copied⟩ | ⟨_, .dispatched ..⟩ | ⟨_, .returned _⟩ => .isTrue True.intro

def Undisturbed (s : Race) : Event → Prop
  | .own => True
  | .status env call => ∀ b ∈ statusCopy env call s.ioBuffer, Spares s b

instance (s : Race) (e : Event) : Decidable (Undisturbed s e) :=
  match e with
  | .own => .isTrue True.intro
  | .status env call => inferInstanceAs (Decidable (∀ b ∈ statusCopy env call s.ioBuffer, Spares s b))

/-- The invariant: what is left to do reads the checked request. -/
def Following (x : Execute) (s : Race) : Prop :=
  match s.phase with
  | .executing checked used rest =>
      UsesChecked x checked used ∧ Intact (Field.of checked) (Field.of (dmaRequest s.ioBuffer)) rest ∧
        rest.eval (Field.of checked) = (executeReads x.callees x.env x.dev).eval (Field.of checked)
  | _ => Faithful x s

variable {x : Execute} {s s' : Race} {b : Bytes} {checked : TpceDmaRequest}
variable {used : List ((f : Field) × f.Value)}

theorem Following.faithful (h : Following x s) : Faithful x s := by
  obtain ⟨b, phase⟩ := s
  cases phase with
  | executing checked used rest => exact h.1
  | _ => exact h

/-- What `TPCE_IOC_DMA_STATUS` does to the driver is that copy. -/
theorem ioctlDmaStatus_copies {env : CopyEnv} {call : UserCall} {s : IoDev} {r : IoctlResult}
    (h : ioctlDmaStatus env call s = .ok r) :
    statusCopy env call s.ioBuffer = some r.after.ioBuffer ∧ r.after.dev = s.dev := by
  obtain ⟨hfits, hafter⟩ := status_after h
  rw [statusCopy, hafter]
  exact ⟨if_neg (Nat.not_lt.mpr hfits), rfl⟩

theorem UsesChecked.append {f : Field} {v : f.Value} (h : UsesChecked x checked used) (hv : v = Field.of checked f) :
    UsesChecked x checked (used ++ [⟨f, v⟩]) := by
  refine ⟨h.1, fun p hp => ?_⟩
  rcases List.mem_append.mp hp with hold | hnew
  · exact h.2 p hold
  · rw [List.mem_singleton] at hnew
    rw [hnew]
    exact hv

theorem validateStep_following : Following x ⟨b, validateStep x b⟩ := by
  rw [validateStep]
  split
  · exact True.intro
  · dsimp only
    split
    · exact True.intro
    · rename_i herr
      exact ⟨⟨not_not.mp herr, fun p hp => absurd hp List.not_mem_nil⟩, .refl _ _, rfl⟩

theorem dispatchStep_following {r : SetUp} (h : UsesChecked x checked used)
    (hready : (executeReads x.callees x.env x.dev).eval (Field.of checked) = .ok r) :
    Following x ⟨b, dispatchStep x checked used r⟩ := by
  cases r with
  | refused err => exact True.intro
  | ready c dev =>
      obtain ⟨hc, ret, hinit, hret⟩ := executeReads_ready hready
      exact ⟨h, hc, ret, dev, hinit, hret, rfl⟩

theorem ownStep_following (h : Following x s) (hn : ownStep x s = some s') : Following x s' := by
  obtain ⟨b, phase⟩ := s
  cases phase with
  | entered =>
      simp only [ownStep, copyStep] at hn
      split at hn
      · cases hn
      · cases hn
        split
        · exact True.intro
        · exact True.intro
  | copied =>
      cases hn
      exact validateStep_following
  | executing checked used rest =>
      obtain ⟨huses, hintact, heval⟩ := h
      cases rest with
      | done r =>
          cases r with
          | error fault => cases hn
          | ok r =>
              cases hn
              exact dispatchStep_following huses heval.symm
      | read f next =>
          cases hn
          exact ⟨huses.append hintact.value, hintact.step, (eval_step hintact).trans heval⟩
  | dispatched checked used c status dev => cases hn
  | returned status => cases hn

theorem statusStep_following {env : CopyEnv} {call : UserCall} (h : Following x s)
    (hspares : Undisturbed s (.status env call)) (hn : step x s (.status env call) = some s') : Following x s' := by
  obtain ⟨b', hcopy, rfl⟩ := Option.map_eq_some_iff.mp hn
  have hb := hspares b' hcopy
  obtain ⟨b, phase⟩ := s
  cases phase with
  | executing checked used rest =>
      obtain ⟨huses, hintact, heval⟩ := h
      exact ⟨huses, hintact.change hb, heval⟩
  | _ => exact h

theorem step_following {e : Event} (h : Following x s) (hspares : Undisturbed s e) (hn : step x s e = some s') :
    Following x s' := by
  cases e with
  | own => exact ownStep_following h hn
  | status env call => exact statusStep_following h hspares hn

theorem run_reads (x : Execute) (b : Bytes) (checked : TpceDmaRequest) (used : List ((f : Field) × f.Value))
    (rest : Reader (Except Fault SetUp)) :
    ∃ n used', run (step x) ⟨b, .executing checked used rest⟩ (List.replicate n .own) =
      some ⟨b, .executing checked used' (.done (rest.eval (Field.of (dmaRequest b))))⟩ := by
  induction rest generalizing used with
  | done r => exact ⟨0, used, rfl⟩
  | read f next ih =>
      obtain ⟨n, used', hrun⟩ := ih _ (used ++ [⟨f, Field.of (dmaRequest b) f⟩])
      exact ⟨n + 1, used', hrun⟩

/-- Alone, the call dispatches what `dma_execute` does in one step. -/
theorem alone_dispatches {dev₁ : TpceDev} {c : Channel} (hsize : dmaRequestSize ≤ (storedSize x.iodata).toNat)
    (hvalid : validateDmaRequest x.dev (dmaRequest b) (some x.file) = 0)
    (hc : c.val = (dmaRequest b).params.channel.toNat)
    (hinit : initDmaInfo x.env x.dev c (dmaRequest b) = .ok (c.val, dev₁)) :
    ∃ n used, run (step x) ⟨b, .copied⟩ (List.replicate n .own) =
      some ⟨b, .dispatched (dmaRequest b) used c (dmaDispatch x.env dev₁ c).1 (dmaDispatch x.env dev₁ c).2⟩ := by
  obtain ⟨n, used, hrun⟩ := run_reads x b (dmaRequest b) [] (executeReads x.callees x.env x.dev)
  rw [executeReads_of_accepted hc hinit] at hrun
  have hstart : validateStep x b = .executing (dmaRequest b) [] (executeReads x.callees x.env x.dev) := by
    simp only [validateStep]
    rw [if_neg (Nat.not_lt.mpr hsize), if_neg (not_not.mpr hvalid)]
  refine ⟨n + 2, used, ?_⟩
  rw [List.replicate_succ, List.replicate_succ']
  change run (step x) ⟨b, validateStep x b⟩ (List.replicate n .own ++ [.own]) = _
  rw [hstart, run_append, hrun]
  rfl

/-- In every interleaving whose status commands spare what is still to be read,
the request that is executed is the one that was validated. -/
theorem executed_is_checked (x : Execute) (b : Bytes) (events : List Event)
    (h : Along (step x) Undisturbed ⟨b, .entered⟩ events) : Always (step x) (Faithful x) ⟨b, .entered⟩ events := by
  have hstart : Following x ⟨b, .entered⟩ := True.intro
  exact (always_of_along (fun _ _ _ => step_following) hstart h).mono fun _ => Following.faithful

/-- A call of another file than the one that has locked buffer 2 -/
def driverBufferRequest : Execute where
  callees := .snapshots
  env := .granted
  dev := lockedDevice
  file := 1
  iodata := ⟨0x10000#64, 64#64, 0, 0⟩
  input := validInput .dmaExecute
  inMissed := 0
  shared := by decide

/-- The status of channel 2 -/
def statusOfChannelTwo : Event := .status copyAll ⟨0, .dmaStatus, ⟨0x20000#64, 4#64, 0x30000#64, 4#64⟩, ofList [2]⟩

/-- Whether the reads of a call that is still being set up were as checked -/
def readsAsChecked (s : Race) : Bool :=
  match s.phase with
  | .executing checked used _ => decide (AsChecked checked used)
  | _ => true

theorem Faithful.readsAsChecked (h : Faithful x s) : readsAsChecked s = true := by
  obtain ⟨b, phase⟩ := s
  cases phase with
  | executing checked used rest => exact decide_eq_true h.2
  | _ => rfl

/-- After the identifier is read, a status command may write over it. -/
theorem executed_is_checked_overlapping :
    Along (step driverBufferRequest) Undisturbed ⟨fun _ => 0, .entered⟩
      [.own, .own, .own, .own, .own, statusOfChannelTwo, .own] ∧
    Always (step driverBufferRequest) (Faithful driverBufferRequest) ⟨fun _ => 0, .entered⟩
      [.own, .own, .own, .own, .own, statusOfChannelTwo, .own] :=
  have h : Along (step driverBufferRequest) Undisturbed ⟨fun _ => 0, .entered⟩
      [.own, .own, .own, .own, .own, statusOfChannelTwo, .own] := by decide +kernel
  ⟨h, executed_is_checked _ _ _ h⟩

/-- The driver's buffer is checked and the buffer of another file is used. -/
theorem checked_id_replaced : ¬Always (step driverBufferRequest) (Faithful driverBufferRequest) ⟨fun _ => 0, .entered⟩
    [.own, .own, statusOfChannelTwo, .own, .own, .own] := by
  intro h
  exact absurd (h.mono fun _ => Faithful.readsAsChecked) (by decide +kernel)

end TpceDrv.RequestRace
