import Mathlib

/-!
# Little-endian integers in byte buffers

`putLE n v` is the `n`-byte little-endian form of `v`, higher bytes dropped; `getLE` reads a buffer
back. A store of a fixed width followed by a load of the same width is therefore reduction modulo
`256 ^ n`, the identity on values of that width.

Big-endian buffers, as protocols have them, are the reversed ones.
-/

namespace Machine

open List BitVec

/-- The `n` low bytes of `v`, least significant first. -/
def putLE : ℕ → ℕ → List (BitVec 8)
  | 0, _ => []
  | n + 1, v => BitVec.ofNat 8 v :: putLE n (v / 256)

/-- The value of a little-endian buffer. -/
def getLE : List (BitVec 8) → ℕ
  | [] => 0
  | b :: bs => b.toNat + 256 * getLE bs

@[simp] theorem length_putLE (n v : ℕ) : (putLE n v).length = n := by
  induction n generalizing v with
  | zero => rfl
  | succ n ih => rw [putLE, length_cons, ih]

variable (bs : List (BitVec 8))

theorem getLE_lt : getLE bs < 256 ^ bs.length := by
  induction bs with
  | nil => exact Nat.one_pos
  | cons b bs ih =>
    rw [getLE, length_cons]
    omega

theorem getLE_putLE (n v : ℕ) : getLE (putLE n v) = v % 256 ^ n := by
  induction n generalizing v with
  | zero => rw [putLE, getLE, pow_zero, Nat.mod_one]
  | succ n ih =>
    have hbyte : (BitVec.ofNat 8 v).toNat = v % 256 := toNat_ofNat v 8
    rw [putLE, getLE, ih, hbyte, pow_succ', Nat.mod_mul]

theorem getLE_putLE_of_lt {n v : ℕ} (h : v < 256 ^ n) : getLE (putLE n v) = v := by
  rw [getLE_putLE, Nat.mod_eq_of_lt h]

theorem putLE_inj {n v w : ℕ} (hv : v < 256 ^ n) (hw : w < 256 ^ n)
    (h : putLE n v = putLE n w) : v = w := by
  rw [← getLE_putLE_of_lt hv, h, getLE_putLE_of_lt hw]

/-- The `n` low bytes of `v`, most significant first. -/
def putBE (n v : ℕ) : List (BitVec 8) := (putLE n v).reverse

/-- The value of a big-endian buffer. -/
def getBE : ℕ := getLE bs.reverse

@[simp] theorem length_putBE (n v : ℕ) : (putBE n v).length = n := by
  rw [putBE, length_reverse, length_putLE]

theorem getBE_putBE_of_lt {n v : ℕ} (h : v < 256 ^ n) : getBE (putBE n v) = v := by
  rw [getBE, putBE, reverse_reverse, getLE_putLE_of_lt h]

theorem putLE_getLE : putLE bs.length (getLE bs) = bs := by
  induction bs with
  | nil => rfl
  | cons b bs ih =>
    have hlow : BitVec.ofNat 8 (b.toNat + 256 * getLE bs) = b := by
      refine eq_of_toNat_eq ?_
      rw [toNat_ofNat]
      omega
    have hhigh : (b.toNat + 256 * getLE bs) / 256 = getLE bs := by omega
    rw [length_cons, getLE, putLE, hlow, hhigh, ih]

theorem putBE_getBE : putBE bs.length (getBE bs) = bs := by
  have h := putLE_getLE bs.reverse
  rw [length_reverse] at h
  rw [putBE, getBE, h, reverse_reverse]

end Machine
