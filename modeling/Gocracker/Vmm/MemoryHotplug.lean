import Gocracker.Machine.Fallible

/-!
# Memory hotplug

A VM may reserve a region of guest memory that is filled later. Its sizes are checked in MiB and
used in bytes, one KVM region for each slot from `hotplugRegionBaseAddr` on. The conversion is a
shift of 64 bits, so an accepted size need not be the size that is used.
-/

namespace Gocracker.Vmm

open Machine List

structure MemoryHotplugConfig where
  totalSizeMiB : BitVec 64
  slotSizeMiB : BitVec 64
  blockSizeMiB : BitVec 64

structure MemoryHotplugSlot where
  slot : BitVec 32
  guestAddr : BitVec 64
  sizeBytes : BitVec 64

structure MemoryHotplugState where
  totalBytes : BitVec 64
  blockBytes : BitVec 64
  slots : List MemoryHotplugSlot

inductive HotplugError where
  | invalid (msg : String)
  | divideByZero
  | refused
  deriving DecidableEq

def hotplugRegionBaseAddr : BitVec 64 := 0x100000000

def maxHotplugSlots : BitVec 64 := 128

def validateMemoryHotplugConfig (cfg : MemoryHotplugConfig) : Except HotplugError Unit := do
  if cfg.totalSizeMiB = 0 then throw (.invalid "memory hotplug total_size_mib is required")
  if cfg.slotSizeMiB = 0 then throw (.invalid "memory hotplug slot_size_mib is required")
  if cfg.blockSizeMiB = 0 then throw (.invalid "memory hotplug block_size_mib is required")
  if cfg.totalSizeMiB < cfg.slotSizeMiB then
    throw (.invalid "memory hotplug total_size_mib must be >= slot_size_mib")
  if cfg.slotSizeMiB < cfg.blockSizeMiB then
    throw (.invalid "memory hotplug slot_size_mib must be >= block_size_mib")
  if cfg.totalSizeMiB % cfg.slotSizeMiB ≠ 0 then
    throw (.invalid "memory hotplug total_size_mib must be a multiple of slot_size_mib")
  if cfg.slotSizeMiB % cfg.blockSizeMiB ≠ 0 then
    throw (.invalid "memory hotplug slot_size_mib must be a multiple of block_size_mib")
  let slots := cfg.totalSizeMiB / cfg.slotSizeMiB
  if slots = 0 ∨ maxHotplugSlots < slots then
    throw (.invalid ("memory hotplug requires between 1 and " ++ toString maxHotplugSlots.toNat ++
      " slots; got " ++ toString slots.toNat))

def hotplugMiBToBytes (v : BitVec 64) : BitVec 64 := v <<< 20

def hotplugSlot (slotBytes : BitVec 64) (i : ℕ) : MemoryHotplugSlot :=
  ⟨1 + BitVec.ofNat 32 i, hotplugRegionBaseAddr + BitVec.ofNat 64 i * slotBytes, slotBytes⟩

/-- The slots that the loop of the setup goes through. -/
def MemoryHotplugConfig.slots (cfg : MemoryHotplugConfig) : List MemoryHotplugSlot :=
  let slotBytes := hotplugMiBToBytes cfg.slotSizeMiB
  (List.range (hotplugMiBToBytes cfg.totalSizeMiB / slotBytes).toNat).map (hotplugSlot slotBytes)

def setupMemoryHotplug (refuses : MemoryHotplugSlot → Bool) (cfg : MemoryHotplugConfig) :
    Except HotplugError MemoryHotplugState := do
  validateMemoryHotplugConfig cfg
  if hotplugMiBToBytes cfg.slotSizeMiB = 0 then throw .divideByZero
  -- The loop ends at the first region that is refused, and removes those before it.
  if cfg.slots.any refuses then throw .refused
  return ⟨hotplugMiBToBytes cfg.totalSizeMiB, hotplugMiBToBytes cfg.blockSizeMiB, cfg.slots⟩

def validateMemoryHotplugUpdate (state : MemoryHotplugState) (requestedSizeMiB : BitVec 64) :
    Except HotplugError Unit := do
  let targetBytes := hotplugMiBToBytes requestedSizeMiB
  if state.totalBytes < targetBytes then
    throw (.invalid "memory hotplug requested_size_mib exceeds total_size_mib")
  if state.blockBytes = 0 then throw .divideByZero
  if targetBytes % state.blockBytes ≠ 0 then
    throw (.invalid "memory hotplug requested_size_mib must be aligned to block_size_mib")
  return ()

/-! ## Sizes -/

theorem toNat_hotplugMiBToBytes {v : BitVec 64} (h : v.toNat < 2 ^ 44) :
    (hotplugMiBToBytes v).toNat = v.toNat * 2 ^ 20 := by
  rw [hotplugMiBToBytes, BitVec.toNat_shiftLeft, Nat.shiftLeft_eq]
  exact Nat.mod_eq_of_lt (by omega)

/-- The slots lie behind each other, from `lo` up to `hi`. -/
def Tiles : List MemoryHotplugSlot → ℕ → ℕ → Prop
  | [], lo, hi => lo = hi
  | s :: slots, lo, hi =>
    s.guestAddr.toNat = lo ∧ 0 < s.sizeBytes.toNat ∧ Tiles slots (lo + s.sizeBytes.toNat) hi

theorem tiles_slots {S : BitVec 64} (hpos : 0 < S.toNat) {i n lo : ℕ}
    (hlo : hotplugRegionBaseAddr.toNat + i * S.toNat = lo) (h : lo + n * S.toNat ≤ 2 ^ 64) :
    Tiles ((range' i n).map (hotplugSlot S)) lo (lo + n * S.toNat) := by
  induction n generalizing i lo with
  | zero => exact (Nat.add_eq_left.mpr (Nat.zero_mul _)).symm
  | succ n ih =>
    rw [Nat.succ_mul, Nat.add_comm (n * _), ← Nat.add_assoc] at h ⊢
    refine ⟨?_, hpos, ih (by rw [Nat.succ_mul, ← Nat.add_assoc, hlo]; rfl) h⟩
    have hle : i ≤ i * S.toNat := Nat.le_mul_of_pos_right i hpos
    have hi : BitVec.toNat (BitVec.ofNat 64 i) = i := Nat.mod_eq_of_lt (by omega)
    rw [hotplugSlot, BitVec.toNat_add, BitVec.toNat_mul, hi, Nat.add_mod_mod, hlo]
    exact Nat.mod_eq_of_lt (by omega)

/-- What an accepted configuration is to give: sizes that do not wrap, and slots from the base
address up to the end of the region. -/
structure LaidOut (cfg : MemoryHotplugConfig) : Prop where
  bytes : ∀ v ∈ [cfg.totalSizeMiB, cfg.slotSizeMiB, cfg.blockSizeMiB],
    (hotplugMiBToBytes v).toNat = v.toNat * 2 ^ 20
  defined : ∀ refuses, setupMemoryHotplug refuses cfg ≠ .error .divideByZero
  tiles : ∀ refuses state, setupMemoryHotplug refuses cfg = .ok state →
    ∃ hi ≤ 2 ^ 64, hi = hotplugRegionBaseAddr.toNat + cfg.totalSizeMiB.toNat * 2 ^ 20 ∧
      Tiles state.slots hotplugRegionBaseAddr.toNat hi

variable {cfg : MemoryHotplugConfig}

section Accepted

variable (h : validateMemoryHotplugConfig cfg = .ok ())

include h

theorem sizes_of_validate :
    0 < cfg.blockSizeMiB.toNat ∧ cfg.blockSizeMiB ≤ cfg.slotSizeMiB ∧
      cfg.slotSizeMiB ≤ cfg.totalSizeMiB ∧ cfg.slotSizeMiB.toNat ∣ cfg.totalSizeMiB.toNat := by
  simp only [validateMemoryHotplugConfig, unless_throw_eq_ok] at h
  obtain ⟨-, -, hblock, hslot, hle, hdvd, -⟩ := h
  refine ⟨?_, BitVec.not_lt.mp hle, BitVec.not_lt.mp hslot, ?_⟩
  · exact Nat.pos_of_ne_zero fun h ↦ hblock (BitVec.eq_of_toNat_eq h)
  · exact Nat.dvd_of_mod_eq_zero (congrArg BitVec.toNat (not_not.mp hdvd))

theorem setupMemoryHotplug_eq (refuses : MemoryHotplugSlot → Bool) :
    setupMemoryHotplug refuses cfg =
      if hotplugMiBToBytes cfg.slotSizeMiB = 0 then .error .divideByZero
      else if cfg.slots.any refuses then .error .refused
      else .ok ⟨hotplugMiBToBytes cfg.totalSizeMiB, hotplugMiBToBytes cfg.blockSizeMiB,
        cfg.slots⟩ := by
  simp only [setupMemoryHotplug, h]
  split_ifs <;> rfl

theorem laidOut_of_le (hle : cfg.totalSizeMiB.toNat ≤ 2 ^ 44 - 4096) : LaidOut cfg := by
  obtain ⟨hpos, hblock, hslot, hdvd⟩ := sizes_of_validate h
  have htotal := toNat_hotplugMiBToBytes (v := cfg.totalSizeMiB) (by omega)
  have hslots := toNat_hotplugMiBToBytes (v := cfg.slotSizeMiB) (by bv_omega)
  have hblocks := toNat_hotplugMiBToBytes (v := cfg.blockSizeMiB) (by bv_omega)
  have hbase : hotplugRegionBaseAddr.toNat = 2 ^ 32 := rfl
  have hzero : 0 < (hotplugMiBToBytes cfg.slotSizeMiB).toNat := by bv_omega
  refine ⟨by simp [htotal, hslots, hblocks], fun refuses ↦ ?_,
    fun refuses state hrun ↦ ⟨_, by omega, rfl, ?_⟩⟩
  · rw [setupMemoryHotplug_eq h, if_neg (by bv_omega)]
    split_ifs <;> rintro ⟨⟩
  · rw [setupMemoryHotplug_eq h] at hrun
    split_ifs at hrun
    obtain rfl := Except.ok.inj hrun
    have hcount : (hotplugMiBToBytes cfg.totalSizeMiB / hotplugMiBToBytes cfg.slotSizeMiB).toNat *
        (hotplugMiBToBytes cfg.slotSizeMiB).toNat = cfg.totalSizeMiB.toNat * 2 ^ 20 := by
      rw [BitVec.toNat_udiv, htotal, hslots]
      exact Nat.div_mul_cancel (Nat.mul_dvd_mul_right hdvd _)
    rw [MemoryHotplugConfig.slots, range_eq_range', ← hcount]
    exact tiles_slots hzero (by rw [Nat.zero_mul]; rfl) (by omega)

theorem LaidOut.le (hl : LaidOut cfg) : cfg.totalSizeMiB.toNat ≤ 2 ^ 44 - 4096 := by
  have hrun := setupMemoryHotplug_eq h fun _ ↦ false
  rw [if_neg (c := _ = true) (by simp)] at hrun
  split_ifs at hrun with hzero
  · exact absurd hrun (hl.defined _)
  · obtain ⟨_, hend, rfl, -⟩ := hl.tiles _ _ hrun
    have hbase : hotplugRegionBaseAddr.toNat = 2 ^ 32 := rfl
    omega

end Accepted

/-- **Hotplug sizes.** What was checked in MiB holds in bytes exactly if the region ends within the
address space, and then an accepted update is a size meant exactly if it does not wrap. -/
theorem memoryHotplug_iff (h : validateMemoryHotplugConfig cfg = .ok ()) :
    (LaidOut cfg ↔ cfg.totalSizeMiB.toNat ≤ 2 ^ 44 - 4096) ∧
      ∀ refuses state requested, LaidOut cfg → setupMemoryHotplug refuses cfg = .ok state →
        validateMemoryHotplugUpdate state requested = .ok () →
        (requested.toNat ≤ cfg.totalSizeMiB.toNat ∧
          cfg.blockSizeMiB.toNat ∣ requested.toNat ↔ requested.toNat < 2 ^ 44) := by
  refine ⟨⟨fun hl ↦ hl.le h, laidOut_of_le h⟩, fun _ _ _ hl hsetup hupdate ↦ ?_⟩
  have hle := hl.le h
  have htotal := hl.bytes _ mem_cons_self
  have hblock := hl.bytes cfg.blockSizeMiB (by simp)
  rw [setupMemoryHotplug_eq h] at hsetup
  split_ifs at hsetup
  obtain rfl := Except.ok.inj hsetup
  simp only [validateMemoryHotplugUpdate, unless_throw_eq_ok] at hupdate
  obtain ⟨hmost, -, haligned, -⟩ := hupdate
  refine ⟨fun hmeant ↦ by omega, fun hlt ↦ ?_⟩
  have htarget := toNat_hotplugMiBToBytes hlt
  have hmod := BitVec.toNat_eq.mp (not_not.mp haligned)
  rw [BitVec.toNat_umod, htarget, hblock] at hmod
  exact ⟨by bv_omega,
    Nat.dvd_of_mul_dvd_mul_right (Nat.two_pow_pos 20) (Nat.dvd_of_mod_eq_zero hmod)⟩

/-- Two slots of two MiB, and an update to three MiB. -/
theorem memoryHotplug_slots : LaidOut ⟨4, 2, 1⟩ ∧ ∃ state,
    setupMemoryHotplug (fun _ ↦ false) ⟨4, 2, 1⟩ = .ok state ∧ state.slots.length = 2 ∧
      validateMemoryHotplugUpdate state 3 = .ok () ∧
      (3 : BitVec 64).toNat ≤ (4 : BitVec 64).toNat ∧
      (1 : BitVec 64).toNat ∣ (3 : BitVec 64).toNat := by
  have haccepted : validateMemoryHotplugConfig ⟨4, 2, 1⟩ = .ok () := rfl
  have hsizes := memoryHotplug_iff haccepted
  have hlaid := hsizes.1.mpr (by decide)
  refine ⟨hlaid, _, rfl, rfl, rfl, ?_⟩
  exact (hsizes.2 (fun _ ↦ false) _ 3 hlaid rfl rfl).mpr (by decide)

/-- One slot of 2⁴⁴ MiB has no bytes; and 2⁴⁴ MiB is within a region of one MiB. -/
theorem memoryHotplug_wraps : validateMemoryHotplugConfig ⟨2 ^ 44, 2 ^ 44, 2 ^ 44⟩ = .ok () ∧
      setupMemoryHotplug (fun _ ↦ false) ⟨2 ^ 44, 2 ^ 44, 2 ^ 44⟩ = .error .divideByZero ∧
      ∃ state, setupMemoryHotplug (fun _ ↦ false) ⟨1, 1, 1⟩ = .ok state ∧
        validateMemoryHotplugUpdate state (2 ^ 44) = .ok () :=
  ⟨rfl, rfl, _, rfl, rfl⟩

end Gocracker.Vmm
