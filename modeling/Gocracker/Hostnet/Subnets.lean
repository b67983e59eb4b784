import Gocracker.Machine.Fallible
import Gocracker.Net.Ipv4

/-!
# Choosing a subnet

A network of its own gets a block of four addresses out of a pool. The blocks are tried one after
the other, from one that depends on the name of the project, and the first that overlaps none of the
occupied networks is taken.

The choice itself is as it should be: what is chosen is free, and if nothing is chosen then nothing
is free. Only a pool of a single block is rejected.
-/

namespace Gocracker.Hostnet

open Net Machine Nat IPNet

/-- The bytes of a project's name. -/
abbrev Project := List (BitVec 8)

instance neZero_ones : NeZero 33 := ⟨by decide⟩

/-- `198.18.0.0/15`. -/
def autoSubnetPoolCIDR : IPNet := ⟨0xC6120000#32, 15⟩

def autoSubnetPrefix : Fin 33 := 30

inductive SubnetError where
  | invalidPool
  | invalidPrefix
  | noneFree
  deriving DecidableEq

/-- FNV-1a. -/
def hashProject (project : Project) : BitVec 32 :=
  project.foldl (fun h b ↦ (h ^^^ b.setWidth 32) * 16777619#32) 2166136261#32

def subnetAt (pool : IPNet) (prefixBits : Fin 33) (index : ℕ) : Except SubnetError IPNet :=
  if prefixBits < pool.ones then .error .invalidPrefix
  else
    let blockSize := 2 ^ (32 - prefixBits.val)
    let ip := getLE (addCarry (putLE 4 pool.ip.toNat) (index * blockSize))
    .ok (normalize ⟨BitVec.ofNat 32 ip, prefixBits⟩)

def cidrOverlap (a b : IPNet) : Bool :=
  a.normalize.contains b.normalize.ip || b.normalize.contains a.normalize.ip

def overlapsAny (candidate : IPNet) (occupied : List IPNet) : Bool :=
  occupied.any (cidrOverlap candidate)

/-- The loop of `selectAvailableSubnet`, from its `i`-th iteration on. -/
def searchSubnet (pool : IPNet) (occupied : List IPNet) (start total : ℕ) :
    ℕ → ℕ → Except SubnetError IPNet
  | _, 0 => .error .noneFree
  | i, left + 1 => do
    let candidate ← subnetAt pool autoSubnetPrefix ((start + i) % total)
    if overlapsAny candidate occupied then searchSubnet pool occupied start total (i + 1) left
    else .ok candidate

def selectAvailableSubnet (cidr : IPNet) (project : Project) (occupied : List IPNet) :
    Except SubnetError IPNet :=
  -- What `net.ParseCIDR` returns is normalized.
  let pool := cidr.normalize
  if autoSubnetPrefix.val ≤ pool.ones.val then .error .invalidPool
  else
    let total := 2 ^ (autoSubnetPrefix.val - pool.ones.val)
    searchSubnet pool occupied ((hashProject project).toNat % total) total 0 total

/-! ## Blocks -/

structure IsBlock (pool n : IPNet) : Prop where
  ones : n.ones = autoSubnetPrefix
  aligned : n.Aligned
  within : n.Within pool

section Blocks

variable {pool n a b : IPNet} {index total : ℕ}

theorem cidrOverlap_iff : cidrOverlap a b = true ↔ ¬ a.Apart b := by
  have hover := overlap_iff (a := a.normalize) (b := b.normalize)
  simp only [contains_normalize] at hover
  rw [cidrOverlap, Bool.or_eq_true, contains_normalize, contains_normalize, ← hover,
    IPNet.Apart, not_forall_not]

theorem size_eq (hpool : pool.ones.val < autoSubnetPrefix.val) :
    pool.size = 2 ^ (autoSubnetPrefix.val - pool.ones.val) * 4 := by
  rw [IPNet.size, show 4 = 2 ^ 2 from rfl, ← pow_add]
  congr 1
  simp only [autoSubnetPrefix] at *
  omega

theorem add_size_le (halign : pool.Aligned) : pool.ip.toNat + pool.size ≤ 2 ^ 32 := by
  obtain ⟨k, hk⟩ := halign
  obtain ⟨m, hm⟩ : pool.size ∣ 2 ^ 32 := pow_dvd_pow 2 (sub_le _ _)
  have hlt : pool.size * k < pool.size * m := by
    rw [← hk, ← hm]
    exact pool.ip.isLt
  have hkm : k + 1 ≤ m := Nat.lt_of_mul_lt_mul_left hlt
  rw [hk, hm]
  exact mul_le_mul_left pool.size hkm

/-- The block with an index: the offset is added without a wrap. -/
theorem subnetAt_eq (halign : pool.Aligned) (hpool : pool.ones.val < autoSubnetPrefix.val)
    (hindex : index < 2 ^ (autoSubnetPrefix.val - pool.ones.val)) :
    ∃ n, subnetAt pool autoSubnetPrefix index = .ok n ∧ n.ones = autoSubnetPrefix ∧
      n.ip.toNat = pool.ip.toNat + index * 4 := by
  have hsize := size_eq hpool
  have hend := add_size_le halign
  have hsum : pool.ip.toNat + index * 4 < 2 ^ 32 := by omega
  have hbytes : getLE (addCarry (putLE 4 pool.ip.toNat) (index * 4)) =
      pool.ip.toNat + index * 4 := by
    rw [getLE_addCarry, length_putLE, getLE_putLE_of_lt pool.ip.isLt]
    exact mod_eq_of_lt hsum
  have hdvd : 4 ∣ pool.ip.toNat + index * 4 :=
    Nat.dvd_add (Nat.dvd_trans ⟨_, hsize.trans (Nat.mul_comm _ _)⟩ halign) (dvd_mul_left 4 index)
  have hip : (BitVec.ofNat 32 (pool.ip.toNat + index * 4)).toNat = pool.ip.toNat + index * 4 := by
    rw [BitVec.toNat_ofNat, mod_eq_of_lt hsum]
  refine ⟨normalize ⟨BitVec.ofNat 32 (pool.ip.toNat + index * 4), autoSubnetPrefix⟩, ?_, rfl,
    ?_⟩
  · have hblock : 2 ^ (32 - autoSubnetPrefix.val) = 4 := rfl
    have hle : ¬ autoSubnetPrefix < pool.ones := not_lt.mpr hpool.le
    rw [subnetAt, if_neg hle]
    simp only [hblock, hbytes]
  · rw [toNat_ip_normalize, hip]
    exact Nat.div_mul_cancel hdvd

theorem isBlock_of_subnetAt (halign : pool.Aligned) (hpool : pool.ones.val < autoSubnetPrefix.val)
    (hindex : index < 2 ^ (autoSubnetPrefix.val - pool.ones.val))
    (h : subnetAt pool autoSubnetPrefix index = .ok n) : IsBlock pool n := by
  obtain ⟨n', hn', hones, hip⟩ := subnetAt_eq halign hpool hindex
  obtain rfl : n = n' := Except.ok.inj (h.symm.trans hn')
  have hsize := size_eq hpool
  have hblock : n.size = 4 := by rw [IPNet.size, hones]; rfl
  obtain ⟨k, hk⟩ := halign
  refine ⟨hones, ?_, ?_⟩
  · refine ⟨2 ^ (autoSubnetPrefix.val - pool.ones.val) * k + index, ?_⟩
    rw [hip, hk, hsize, hblock]
    ring
  · refine within_of_contains (by rw [hones]; exact hpool.le) ?_ n.contains_self
    rw [contains_iff, hip, hk, Nat.mul_div_cancel_left _ pool.size_pos,
      mul_add_div pool.size_pos, div_eq_of_lt (by omega), add_zero]

theorem exists_subnetAt (halign : pool.Aligned) (hpool : pool.ones.val < autoSubnetPrefix.val)
    (h : IsBlock pool n) : ∃ index < 2 ^ (autoSubnetPrefix.val - pool.ones.val),
      subnetAt pool autoSubnetPrefix index = .ok n := by
  have hsize := size_eq hpool
  have hblock : n.size = 4 := by rw [IPNet.size, h.ones]; rfl
  obtain ⟨k, hk⟩ := halign
  obtain ⟨m, hm⟩ := h.aligned
  have hcontains := contains_iff.mp (h.within n.ip n.contains_self)
  rw [hblock] at hm
  rw [hk, Nat.mul_div_cancel_left _ pool.size_pos] at hcontains
  -- The base of the block is in the pool, so it is the pool's base and a rest.
  have hbase := div_add_mod n.ip.toNat pool.size
  have hrest := mod_lt n.ip.toNat pool.size_pos
  rw [← hcontains] at hbase
  have hindex : n.ip.toNat % pool.size / 4 < 2 ^ (autoSubnetPrefix.val - pool.ones.val) := by omega
  obtain ⟨n', hn', hones, hip⟩ := subnetAt_eq ⟨k, hk⟩ hpool hindex
  have hdvd : 4 ∣ n.ip.toNat % pool.size :=
    (dvd_mod_iff ⟨_, hsize.trans (mul_comm _ _)⟩).mpr ⟨m, hm⟩
  have heq : n' = n := by
    refine IPNet.ext (BitVec.eq_of_toNat_eq ?_) (hones.trans h.ones.symm)
    rw [hip, Nat.div_mul_cancel hdvd, hk]
    exact hbase
  exact ⟨_, hindex, heq ▸ hn'⟩

end Blocks

/-! ## The search -/

section Search

variable {pool n : IPNet} {occupied : List IPNet} {start total i left : ℕ} {e : SubnetError}

theorem searchSubnet_ok (htotal : 0 < total)
    (h : searchSubnet pool occupied start total i left = .ok n) :
    ∃ index < total, subnetAt pool autoSubnetPrefix index = .ok n ∧
      overlapsAny n occupied = false := by
  induction left generalizing i with
  | zero => nomatch h
  | succ left ih =>
    obtain ⟨candidate, hcandidate, hrest⟩ := bind_eq_ok.mp h
    split_ifs at hrest with hover
    · exact ih hrest
    · rw [← Except.ok.inj hrest]
      exact ⟨_, mod_lt _ htotal, hcandidate, by simpa using hover⟩

/-- If the search fails, the blocks that it has tried are occupied. -/
theorem searchSubnet_error
    (hall : ∀ index < total, ∃ n, subnetAt pool autoSubnetPrefix index = .ok n)
    (htotal : 0 < total) (h : searchSubnet pool occupied start total i left = .error e) :
    ∀ j, i ≤ j → j < i + left → ∀ n, subnetAt pool autoSubnetPrefix ((start + j) % total) = .ok n →
      overlapsAny n occupied = true := by
  induction left generalizing i with
  | zero => omega
  | succ left ih =>
    intro j hij hj n hn
    obtain ⟨candidate, hcandidate⟩ := hall _ (mod_lt (start + i) htotal)
    rw [searchSubnet, hcandidate] at h
    simp only [bind, Except.bind] at h
    split_ifs at h with hover
    rcases eq_or_lt_of_le hij with rfl | hlt
    · rw [Except.ok.inj (hn.symm.trans hcandidate)]
      exact hover
    · exact ih h j hlt (by omega) n hn

theorem exists_add_mod_eq {index : ℕ} (hstart : start < total) (h : index < total) :
    ∃ j < total, (start + j) % total = index := by
  rcases lt_or_ge index start with hlt | hge
  · refine ⟨total - start + index, by omega, ?_⟩
    rw [show start + (total - start + index) = index + total by omega, add_mod_right,
      mod_eq_of_lt h]
  · refine ⟨index - start, by omega, ?_⟩
    rw [Nat.add_sub_cancel' hge, Nat.mod_eq_of_lt h]

variable {cidr : IPNet} {project : Project}

theorem exists_overlap (h : overlapsAny n occupied = true) : ∃ o ∈ occupied, ¬ n.Apart o := by
  obtain ⟨o, ho, hover⟩ := List.any_eq_true.mp h
  exact ⟨o, ho, cidrOverlap_iff.mp hover⟩

theorem apart_of_overlapsAny (h : overlapsAny n occupied = false) : ∀ o ∈ occupied, n.Apart o := by
  intro o ho
  have hnot := List.any_eq_false.mp h o ho
  rw [cidrOverlap_iff, not_not] at hnot
  exact hnot

/-- **What is chosen is free.** -/
theorem isBlock_of_selectAvailableSubnet (h : selectAvailableSubnet cidr project occupied = .ok n) :
    IsBlock cidr.normalize n ∧ ∀ o ∈ occupied, n.Apart o := by
  rw [selectAvailableSubnet] at h
  split_ifs at h with hones
  obtain ⟨index, hindex, hn, hfree⟩ := searchSubnet_ok (Nat.two_pow_pos _) h
  exact ⟨isBlock_of_subnetAt cidr.aligned_normalize (Nat.lt_of_not_le hones) hindex hn,
    apart_of_overlapsAny hfree⟩

/-- **If nothing is chosen, nothing is free.** -/
theorem overlap_of_selectAvailableSubnet (hones : cidr.ones.val < autoSubnetPrefix.val)
    (h : selectAvailableSubnet cidr project occupied = .error e) (hn : IsBlock cidr.normalize n) :
    ∃ o ∈ occupied, ¬ n.Apart o := by
  have halign := cidr.aligned_normalize
  have hones : cidr.normalize.ones.val < autoSubnetPrefix.val := hones
  rw [selectAvailableSubnet, if_neg (not_le.mpr hones)] at h
  obtain ⟨index, hindex, hsubnet⟩ := exists_subnetAt halign hones hn
  obtain ⟨j, hj, rfl⟩ := exists_add_mod_eq
    (Nat.mod_lt (hashProject project).toNat (Nat.two_pow_pos _)) hindex
  refine exists_overlap (searchSubnet_error (fun index hindex ↦ ?_) (Nat.two_pow_pos _) h j
    (zero_le j) (by omega) n hsubnet)
  obtain ⟨n', hn', -⟩ := subnetAt_eq halign hones hindex
  exact ⟨n', hn'⟩

end Search

end Gocracker.Hostnet
