import Mathlib.Algebra.Order.Ring.Nat
import Mathlib.Logic.Function.Basic

namespace TpceDrv.Library.Buffers

abbrev Byte := BitVec 8

/-- The contents of memory from the start of a buffer on -/
abbrev Bytes := ℕ → Byte

def AgreeBelow (n : ℕ) (b b' : Bytes) : Prop := ∀ i < n, b i = b' i

/-- The little-endian number in the `n` bytes from `start` on -/
def readLE (b : Bytes) (start : ℕ) : ℕ → ℕ
  | 0 => 0
  | n + 1 => (b start).toNat + 256 * readLE b (start + 1) n

/-- The little-endian bytes of a number -/
def bytesLE : ℕ → ℕ → List Byte
  | 0, _ => []
  | n + 1, v => BitVec.ofNat 8 v :: bytesLE n (v / 256)

/-- What memory holds after `length` bytes are copied in, of which the last
`missed` ones could not be read and are cleared. -/
def copyIn (b data : Bytes) (length missed : ℕ) : Bytes := fun i =>
  if i < length then if i < length - missed then data i else 0 else b i

/-- The bytes that are read from the start of a buffer, and what lies behind
its capacity -/
def copyOut (b behind : Bytes) (capacity length : ℕ) : List Byte :=
  (List.range length).map fun i => if i < capacity then b i else behind i

/-- A list of bytes written over the start of a buffer -/
def overlay (written : List Byte) (b : Bytes) : Bytes := fun i => written.getD i (b i)

variable {b b' data behind : Bytes} {m n : ℕ}

theorem AgreeBelow.mono (h : AgreeBelow n b b') (hm : m ≤ n) : AgreeBelow m b b' :=
  fun i hi => h i (hi.trans_le hm)

theorem AgreeBelow.refl (n : ℕ) (b : Bytes) : AgreeBelow n b b := fun _ _ => rfl

theorem agreeBelow_update (b : Bytes) {i : ℕ} (v : Byte) (hi : n ≤ i) : AgreeBelow n (Function.update b i v) b :=
  fun _ hj => Function.update_of_ne (Nat.ne_of_lt (hj.trans_le hi)) ..

theorem readLE_congr (start n : ℕ) (h : ∀ i, start ≤ i → i < start + n → b i = b' i) :
    readLE b start n = readLE b' start n := by
  induction n generalizing start with
  | zero => rfl
  | succ n ih =>
      simp only [readLE]
      rw [h start (Nat.le_refl _) (by omega), ih (start + 1) fun i hle hlt => h i (by omega) (by omega)]

theorem AgreeBelow.readLE (h : AgreeBelow m b b') {start n : ℕ} (hfit : start + n ≤ m) :
    readLE b start n = readLE b' start n :=
  readLE_congr start n fun i _ hi => h i (by omega)

theorem copyIn_agree (b b' data : Bytes) (length missed : ℕ) :
    AgreeBelow length (copyIn b data length missed) (copyIn b' data length missed) := by
  intro i hi
  simp only [copyIn, if_pos hi]

theorem copyIn_apply (b data : Bytes) (length i : ℕ) :
    copyIn b data length 0 i = if i < length then data i else b i := by
  rw [copyIn, Nat.sub_zero]
  split
  · rfl
  · rfl

theorem copyIn_same {length : ℕ} (h : AgreeBelow length b data) : copyIn b data length 0 = b := by
  funext i
  rw [copyIn_apply]
  split
  · rename_i hi
    exact (h i hi).symm
  · rfl

theorem overlay_of_le {written : List Byte} {i : ℕ} (h : written.length ≤ i) : overlay written b i = b i := by
  rw [overlay, List.getD_eq_getElem?_getD, List.getElem?_eq_none h]
  rfl

theorem AgreeBelow.overlay (h : AgreeBelow n b b') (written : List Byte) :
    AgreeBelow n (overlay written b) (overlay written b') := by
  intro i hi
  rw [Buffers.overlay, Buffers.overlay, h i hi]

theorem AgreeBelow.copyOut (h : AgreeBelow n b b') {capacity length : ℕ} (hn : min length capacity ≤ n) :
    copyOut b behind capacity length = copyOut b' behind capacity length := by
  rw [Buffers.copyOut, Buffers.copyOut]
  apply List.map_congr_left
  intro i hi
  rw [List.mem_range] at hi
  split
  · exact h i (by omega)
  · rfl

theorem copyOut_getElem? {capacity length i : ℕ} (hi : i < length) (hcap : i < capacity) :
    (copyOut b behind capacity length)[i]? = some (b i) := by
  rw [copyOut, List.getElem?_map, List.getElem?_range hi, Option.map_some, if_pos hcap]

end TpceDrv.Library.Buffers
