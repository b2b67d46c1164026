/-
  Little-endian byte strings: the shift-and-mask store loop and the shift-and-or load loop.

  A store writes byte `i` of a word as `(value >> 8i) & 0xff`; a load ORs byte `i` back in at
  `8i`.  Both loops are characterised BIT BY BIT (`testBit_storeByte`, `testBit_loadLE`), and the
  round trips `loadLE_storeLE` and `storeLE_loadLE` fall out by comparing bits.
-/
import Mathlib.Data.Nat.Bitwise

namespace Bycorf.Lib

/-- The `n` low bytes of `value`, least significant first. -/
def storeLE (n value : Nat) : List UInt8 :=
  (List.range n).map fun i => UInt8.ofNat ((value >>> (i * 8)) &&& 0xff)

/-- The word the first `n` bytes of `bytes` spell; a missing byte reads as zero. -/
def loadLE (n : Nat) (bytes : List UInt8) : Nat :=
  (List.range n).foldl (fun value i => value ||| ((bytes.getD i 0).toNat <<< (i * 8))) 0

@[simp] theorem length_storeLE (n value : Nat) : (storeLE n value).length = n := by
  simp [storeLE]

theorem loadLE_succ (n : Nat) (bytes : List UInt8) :
    loadLE (n + 1) bytes = loadLE n bytes ||| ((bytes.getD n 0).toNat <<< (n * 8)) := by
  simp [loadLE, List.range_succ]

/-- Bit `j` of the mask-and-shift byte is bit `8i + j` of the word. -/
theorem testBit_storeByte (value i j : Nat) :
    (UInt8.ofNat ((value >>> (i * 8)) &&& 0xff)).toNat.testBit j =
      (decide (j < 8) && value.testBit (i * 8 + j)) := by
  have hmask : (value >>> (i * 8)) &&& 0xff = (value >>> (i * 8)) % 2 ^ 8 :=
    Nat.and_two_pow_sub_one_eq_mod _ 8
  rw [hmask, UInt8.toNat_ofNat', Nat.mod_mod, Nat.testBit_mod_two_pow, Nat.testBit_shiftRight]

/-- A byte has no bit at or above `8`. -/
theorem testBit_byte_ge (b : UInt8) {j : Nat} (hj : 8 ≤ j) : b.toNat.testBit j = false := by
  apply Nat.testBit_lt_two_pow
  calc b.toNat < 2 ^ 8 := b.toNat_lt
    _ ≤ 2 ^ j := Nat.pow_le_pow_right (by omega) hj

/-- **The load, bit by bit**: bit `j` comes from bit `j % 8` of byte `j / 8`. -/
theorem testBit_loadLE (n : Nat) (bytes : List UInt8) (j : Nat) :
    (loadLE n bytes).testBit j =
      (decide (j < 8 * n) && (bytes.getD (j / 8) 0).toNat.testBit (j % 8)) := by
  induction n with
  | zero => simp [loadLE]
  | succ n ih =>
    rw [loadLE_succ, Nat.testBit_or, ih, Nat.testBit_shiftLeft]
    rcases Nat.lt_or_ge j (8 * n) with hlow | hhigh
    · -- below byte `n`: the new byte contributes nothing
      have h1 : ¬ n * 8 ≤ j := by omega
      have h2 : j < 8 * (n + 1) := by omega
      simp [h1, h2, hlow]
    rcases Nat.lt_or_ge j (8 * (n + 1)) with hmid | htop
    · have hdiv : j / 8 = n := by omega
      have hmod : j % 8 = j - n * 8 := by omega
      have h1 : ¬ j < 8 * n := by omega
      have h2 : n * 8 ≤ j := by omega
      simp [hdiv, hmod, h1, h2, hmid]
    -- above byte `n`: a byte has only eight bits
    have h1 : ¬ j < 8 * n := by omega
    have h2 : ¬ j < 8 * (n + 1) := by omega
    have h3 := testBit_byte_ge (bytes.getD n 0) (j := j - n * 8) (by omega)
    rw [h3]
    simp [h1, h2]

theorem getD_storeLE {n value i : Nat} (hi : i < n) (rest : List UInt8) :
    (storeLE n value ++ rest).getD i 0 = UInt8.ofNat ((value >>> (i * 8)) &&& 0xff) := by
  have hlen : i < (storeLE n value).length := by simpa using hi
  rw [List.getD_append _ _ _ _ hlen]
  simp [storeLE, hi]

theorem loadLE_lt (n : Nat) (bytes : List UInt8) : loadLE n bytes < 2 ^ (8 * n) := by
  apply Nat.lt_pow_two_of_testBit
  intro j hj
  rw [testBit_loadLE, decide_eq_false (by omega), Bool.false_and]

/-- **Store after load**: storing the loaded word spells the bytes it was read from. -/
theorem storeLE_loadLE {n : Nat} {bytes : List UInt8} (hn : n ≤ bytes.length) :
    storeLE n (loadLE n bytes) = bytes.take n := by
  apply List.ext_getElem
  · simp [hn]
  · intro i h1 h2
    have hi : i < n := by simpa using h1
    have hget : (bytes.take n)[i] = bytes.getD i 0 := by
      simp [List.getD_eq_getElem?_getD, show i < bytes.length by omega]
    rw [hget]
    apply UInt8.toNat_inj.mp
    apply Nat.eq_of_testBit_eq
    intro j
    simp only [storeLE, List.getElem_map, List.getElem_range]
    rw [testBit_storeByte, testBit_loadLE]
    rcases Nat.lt_or_ge j 8 with hj | hj
    · have h3 : i * 8 + j < 8 * n := by omega
      have h4 : (i * 8 + j) / 8 = i := by omega
      have h5 : (i * 8 + j) % 8 = j := by omega
      simp [hj, h3, h4, h5]
    · rw [testBit_byte_ge _ hj, decide_eq_false (by omega), Bool.false_and]

/-- **Load after store**: a word that fits in `n` bytes survives the round trip, whatever follows
    it in the buffer. -/
theorem loadLE_storeLE {n value : Nat} (hv : value < 2 ^ (8 * n)) (rest : List UInt8) :
    loadLE n (storeLE n value ++ rest) = value := by
  apply Nat.eq_of_testBit_eq
  intro j
  rw [testBit_loadLE]
  rcases Nat.lt_or_ge j (8 * n) with hj | hj
  · rw [getD_storeLE (by omega : j / 8 < n), testBit_storeByte]
    have h1 : j % 8 < 8 := Nat.mod_lt _ (by omega)
    have h2 : j / 8 * 8 + j % 8 = j := by omega
    simp [hj, h1, h2]
  have hz : value.testBit j = false := by
    apply Nat.testBit_lt_two_pow
    calc value < 2 ^ (8 * n) := hv
      _ ≤ 2 ^ j := Nat.pow_le_pow_right (by omega) hj
  rw [decide_eq_false (by omega), Bool.false_and, hz]

end Bycorf.Lib
