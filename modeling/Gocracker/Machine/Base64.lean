import Gocracker.Machine.Ascii

/-!
# Base64 without padding

Three bytes are four digits of six bits. One or two bytes at the end are two or three digits; the
bits that are left over are zero when they are written and ignored when they are read. A reader also
ignores line ends. So a text has more than one form that decodes to it, but what was encoded is
decoded.
-/

namespace Machine

open List

/-- Sixty-four digits and their values. -/
structure Alphabet where
  char : Fin 64 → BitVec 8
  value : BitVec 8 → Option (Fin 64)
  value_char : ∀ d, value (char d) = some d
  /-- A digit is not one of the characters that a reader ignores. -/
  char_ne : ∀ d, char d ≠ 0x0A ∧ char d ≠ 0x0D

namespace Base64

def toDigits : Bytes → List (Fin 64)
  | [] => []
  | [a] => [Fin.ofNat 64 (a.toNat / 4), Fin.ofNat 64 (a.toNat % 4 * 16)]
  | [a, b] =>
    [Fin.ofNat 64 (a.toNat / 4), Fin.ofNat 64 (a.toNat % 4 * 16 + b.toNat / 16),
      Fin.ofNat 64 (b.toNat % 16 * 4)]
  | a :: b :: c :: rest =>
    Fin.ofNat 64 (a.toNat / 4) :: Fin.ofNat 64 (a.toNat % 4 * 16 + b.toNat / 16) ::
      Fin.ofNat 64 (b.toNat % 16 * 4 + c.toNat / 64) :: Fin.ofNat 64 (c.toNat % 64) ::
        toDigits rest

/-- The text of some digits. One digit alone is not enough for a byte. -/
def ofDigits : List (Fin 64) → Option Bytes
  | [] => some []
  | [_] => none
  | [p, q] => some [BitVec.ofNat 8 (p.val * 4 + q.val / 16)]
  | [p, q, r] =>
    some [BitVec.ofNat 8 (p.val * 4 + q.val / 16), BitVec.ofNat 8 (q.val % 16 * 16 + r.val / 4)]
  | p :: q :: r :: s :: rest => (ofDigits rest).map fun bs ↦
    BitVec.ofNat 8 (p.val * 4 + q.val / 16) :: BitVec.ofNat 8 (q.val % 16 * 16 + r.val / 4) ::
      BitVec.ofNat 8 (r.val % 4 * 64 + s.val) :: bs

variable (σ : Alphabet) (t : Bytes)

def encode : Bytes := (toDigits t).map σ.char

def decode : Option Bytes :=
  ((t.filter fun b ↦ b ≠ 0x0A ∧ b ≠ 0x0D).mapM σ.value).bind ofDigits

theorem ofDigits_toDigits (t : Bytes) : ofDigits (toDigits t) = some t := by
  have hbyte {n : ℕ} {a : BitVec 8} (h : n = a.toNat) : BitVec.ofNat 8 n = a := by
    rw [h, BitVec.ofNat_toNat, BitVec.setWidth_eq]
  fun_induction toDigits t with
  | case1 => rfl
  | case2 a =>
    rw [ofDigits, hbyte]
    simp only [Fin.ofNat]
    omega
  | case3 a b =>
    rw [ofDigits, hbyte (a := a), hbyte (a := b)]
    all_goals
      simp only [Fin.ofNat]
      omega
  | case4 a b c rest ih =>
    rw [ofDigits, ih, hbyte (a := a), hbyte (a := b), hbyte (a := c)]
    · rfl
    all_goals
      simp only [Fin.ofNat]
      omega

theorem mapM_value_map_char (σ : Alphabet) (ds : List (Fin 64)) :
    (ds.map σ.char).mapM σ.value = some ds := by
  induction ds with
  | nil => rfl
  | cons d ds ih => simp [σ.value_char, ih]

/-- **What was encoded is decoded.** -/
theorem decode_encode : decode σ (encode σ t) = some t := by
  have hfilter : (encode σ t).filter (fun b ↦ b ≠ 0x0A ∧ b ≠ 0x0D) = encode σ t := by
    refine filter_eq_self.mpr fun b hb ↦ ?_
    obtain ⟨d, -, rfl⟩ := mem_map.mp hb
    exact decide_eq_true (σ.char_ne d)
  rw [decode, hfilter, encode, mapM_value_map_char, Option.bind_some, ofDigits_toDigits]

theorem exists_of_mem_encode {σ : Alphabet} {t : Bytes} {b : BitVec 8} (h : b ∈ encode σ t) :
    ∃ d, σ.char d = b := by
  obtain ⟨d, -, hd⟩ := mem_map.mp h
  exact ⟨d, hd⟩

/-- The digits that have no meaning in a URL. -/
def urlAlphabet : Alphabet where
  char d :=
    if d.val < 26 then BitVec.ofNat 8 (65 + d.val)
    else if d.val < 52 then BitVec.ofNat 8 (97 + (d.val - 26))
    else if d.val < 62 then BitVec.ofNat 8 (48 + (d.val - 52))
    else if d.val = 62 then 0x2D else 0x5F
  value b :=
    if 65 ≤ b.toNat ∧ b.toNat ≤ 90 then some (Fin.ofNat 64 (b.toNat - 65))
    else if 97 ≤ b.toNat ∧ b.toNat ≤ 122 then some (Fin.ofNat 64 (b.toNat - 97 + 26))
    else if 48 ≤ b.toNat ∧ b.toNat ≤ 57 then some (Fin.ofNat 64 (b.toNat - 48 + 52))
    else if b = 0x2D then some 62 else if b = 0x5F then some 63 else none
  value_char := by decide
  char_ne := by decide

end Base64

end Machine
