import Mathlib.Algebra.Order.Ring.Nat

namespace TpceDrv

abbrev U8 := BitVec 8
abbrev U16 := BitVec 16
abbrev U32 := BitVec 32
abbrev U64 := BitVec 64

/-- Index of a DMA channel that has passed the `TPCE_DMA_NUM_CHANNELS` check. -/
abbrev Channel := Fin 3

def tpceDmaNumChannels : Nat := 3

def Channel.id (c : Channel) : U8 := BitVec.ofNat 8 c.val

def uint8Max : U8 := 255#8

theorem Channel.id_ne_uint8Max (c : Channel) : c.id ≠ uint8Max := by
  revert c
  decide

/-- Accesses that C leaves undefined. The model stops there. -/
inductive Fault
  | rangeIndex (i : Nat)
  | descriptorIndex (i : Nat)
  | channelIndex (ch : U8)
  | nullPointer
  | bufferOverflow (len capacity : Nat)
  | useAfterFree (obj : Nat)
  | divisionByZero
  | pageTable (slot : Int)
  deriving DecidableEq, Repr

theorem bind_eq_ok {ε α β : Type} {x : Except ε α} {f : α → Except ε β} {b : β} :
    (x >>= f) = .ok b ↔ ∃ a, x = .ok a ∧ f a = .ok b := by
  cases x with
  | error e => simp [bind, Except.bind]
  | ok a => simp [bind, Except.bind]

theorem toOption_eq_some {ε α : Type} {x : Except ε α} {a : α} : x.toOption = some a ↔ x = .ok a := by
  cases x with
  | error e => simp [Except.toOption]
  | ok b => simp [Except.toOption]

namespace Errno

def eperm : Int := 1
def eintr : Int := 4
def eio : Int := 5
def enomem : Int := 12
def efault : Int := 14
def ebusy : Int := 16
def enodev : Int := 19
def einval : Int := 22
def enotty : Int := 25
def enospc : Int := 28
def enosys : Int := 38
def emsgsize : Int := 90
def enobufs : Int := 105
def etimedout : Int := 110
def erestartsys : Int := 512

theorem efault_ne : -efault ≠ 0 := by decide

theorem enodev_ne : -enodev ≠ 0 := by decide

theorem einval_ne : -einval ≠ 0 := by decide

end Errno

end TpceDrv
