import Gocracker.Machine.LittleEndian

/-!
# Networks of IPv4 addresses

A network is an address together with the number of its leading bits that are fixed. Masking the
other bits out is, on numbers, division by a power of two: `contains_iff`. So a network is an
aligned interval, and two of them overlap only if one of them contains the base of the other
(`overlap_iff`): there is nothing in between disjointness and inclusion.
-/

namespace Net

open BitVec Nat

abbrev Addr := BitVec 32

/-- `net.CIDRMask(ones, 32)`. -/
def cidrMask (ones : ℕ) : Addr := BitVec.allOnes 32 <<< (32 - ones)

theorem getLsbD_and_cidrMask (a : Addr) (ones i : ℕ) :
    (a &&& cidrMask ones).getLsbD i = (decide (32 - ones ≤ i) && a.getLsbD i) := by
  by_cases hi : i < 32
  · have hlt : i - (32 - ones) < 32 := by omega
    simp only [cidrMask, getLsbD_and, getLsbD_shiftLeft, getLsbD_allOnes, hi,
      hlt, decide_true, Bool.true_and, Bool.and_comm, ← not_lt, decide_not]
  · simp [getLsbD_of_ge a i (by omega)]

/-- Masking is rounding down. -/
theorem toNat_and_cidrMask (a : Addr) (ones : ℕ) :
    (a &&& cidrMask ones).toNat = a.toNat / 2 ^ (32 - ones) * 2 ^ (32 - ones) := by
  refine eq_of_testBit_eq fun i ↦ ?_
  have hbit : (a &&& cidrMask ones).toNat.testBit i =
      (decide (32 - ones ≤ i) && a.toNat.testBit i) := getLsbD_and_cidrMask a ones i
  rw [hbit, testBit_mul_two_pow, ← shiftRight_eq_div_pow, testBit_shiftRight]
  by_cases hge : 32 - ones ≤ i
  · rw [Nat.add_sub_cancel' hge]
  · simp [hge]

/-- A network, in the four-byte form. -/
@[ext] structure IPNet where
  ip : Addr
  ones : Fin 33
  deriving DecidableEq

namespace IPNet

variable {a b n : IPNet} {x : Addr}

def mask (n : IPNet) : Addr := cidrMask n.ones

/-- How many addresses a network has. -/
def size (n : IPNet) : ℕ := 2 ^ (32 - n.ones.val)

/-- `IPNet.Contains`. -/
def contains (n : IPNet) (x : Addr) : Bool := n.ip &&& n.mask = x &&& n.mask

/-- The network with its first address as its base. -/
def normalize (n : IPNet) : IPNet := { n with ip := n.ip &&& n.mask }

/-- The base is the first address. -/
def Aligned (n : IPNet) : Prop := n.size ∣ n.ip.toNat
deriving Decidable

/-- No address is in both. -/
def Apart (a b : IPNet) : Prop := ∀ x, ¬ (a.contains x = true ∧ b.contains x = true)

/-- Every address of the first network is in the second. -/
def Within (a b : IPNet) : Prop := ∀ x, a.contains x = true → b.contains x = true

theorem size_pos (n : IPNet) : 0 < n.size := Nat.two_pow_pos _

theorem contains_iff : n.contains x = true ↔ n.ip.toNat / n.size = x.toNat / n.size := by
  rw [contains, decide_eq_true_eq, mask, ← toNat_inj, toNat_and_cidrMask, toNat_and_cidrMask,
    Nat.mul_left_inj (Nat.two_pow_pos _).ne', size]

variable (n : IPNet)

theorem contains_self : n.contains n.ip = true := contains_iff.mpr rfl

@[simp] theorem size_normalize : n.normalize.size = n.size := rfl

theorem toNat_ip_normalize :
    n.normalize.ip.toNat = n.ip.toNat / n.size * n.size := toNat_and_cidrMask n.ip n.ones

@[simp] theorem contains_normalize : n.normalize.contains x = n.contains x := by
  rw [Bool.eq_iff_iff, contains_iff, contains_iff, size_normalize, toNat_ip_normalize,
    Nat.mul_div_cancel _ n.size_pos]

theorem aligned_normalize : n.normalize.Aligned :=
  ⟨n.ip.toNat / n.size, by rw [toNat_ip_normalize, mul_comm, size_normalize]⟩

theorem within_of_contains (hsize : a.ones.val ≤ b.ones.val) (ha : a.contains x = true)
    (hb : b.contains x = true) : b.Within a := by
  intro y hy
  rw [contains_iff] at *
  obtain ⟨k, hk⟩ : b.size ∣ a.size := Nat.pow_dvd_pow 2 (by omega)
  rw [hk] at ha ⊢
  rw [ha, ← Nat.div_div_eq_div_mul, ← Nat.div_div_eq_div_mul, ← hb, hy]

/-- **Two networks overlap** exactly if one of them contains the base of the other. -/
theorem overlap_iff : (∃ x, a.contains x = true ∧ b.contains x = true) ↔
    a.contains b.ip = true ∨ b.contains a.ip = true := by
  constructor
  · rintro ⟨x, ha, hb⟩
    rcases le_total a.ones.val b.ones.val with h | h
    · exact .inl (within_of_contains h ha hb _ b.contains_self)
    · exact .inr (within_of_contains h hb ha _ a.contains_self)
  · rintro (h | h)
    · exact ⟨b.ip, h, b.contains_self⟩
    · exact ⟨a.ip, a.contains_self, h⟩

theorem Apart.symm (h : a.Apart b) : b.Apart a := fun x hx ↦ h x ⟨hx.2, hx.1⟩

end IPNet

/-! ## Adding a number to the bytes of an address -/

/-- Bytes, the least significant first, with a number added: as far as there is a carry. -/
def addCarry : List (BitVec 8) → ℕ → List (BitVec 8)
  | [], _ => []
  | b :: bs, offset =>
    if offset = 0 then b :: bs
    else BitVec.ofNat 8 (offset + b.toNat) :: addCarry bs ((offset + b.toNat) / 256)

theorem getLE_addCarry (bs : List (BitVec 8)) (offset : ℕ) :
    Machine.getLE (addCarry bs offset) = (Machine.getLE bs + offset) % 256 ^ bs.length := by
  induction bs generalizing offset with
  | nil => rw [addCarry, Machine.getLE, List.length_nil, pow_zero, mod_one]
  | cons b bs ih =>
    rw [addCarry]
    split_ifs with hzero
    · rw [hzero, add_zero, mod_eq_of_lt (Machine.getLE_lt (b :: bs))]
    have hsum : b.toNat + 256 * Machine.getLE bs + offset =
        (offset + b.toNat) + 256 * Machine.getLE bs := by omega
    have hbyte : (BitVec.ofNat 8 (offset + b.toNat)).toNat = (offset + b.toNat) % 256 :=
      toNat_ofNat (offset + b.toNat) 8
    rw [Machine.getLE, Machine.getLE, ih, hbyte, List.length_cons, pow_succ', hsum, mod_mul,
      add_mul_mod_self_left, add_mul_div_left _ _ (by decide : 0 < 256),
      add_comm (Machine.getLE bs)]

end Net
