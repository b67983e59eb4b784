import Gocracker.Machine.Text

/-!
# Text in bytes

Texts as they are sent and signed: lists of bytes. Numbers are written in decimal digits and read
back as the usual libraries do it: every byte must be a digit, leading zeros do not matter, the
value must have room in so many bits, and a signed number may begin with a sign.
-/

namespace Machine

open List Option

abbrev Bytes := List (BitVec 8)

/-- The bytes of a text without characters beyond ASCII. -/
def ascii (t : String) : Bytes := t.toList.map fun c ↦ BitVec.ofNat 8 c.toNat

/-! ## Decimal numbers -/

def byteOfChar (c : Char) : BitVec 8 := BitVec.ofNat 8 c.toNat

def formatUint (n : ℕ) : Bytes := (Nat.toDigits 10 n).map byteOfChar

/-- A minus sign, and the digits of the absolute value. -/
def formatInt : ℤ → Bytes
  | .ofNat n => formatUint n
  | .negSucc n => 0x2D :: formatUint (n + 1)

def digitValue (b : BitVec 8) : Option ℕ :=
  if 48 ≤ b.toNat ∧ b.toNat ≤ 57 then some (b.toNat - 48) else none

def readDigits (value : ℕ) : Bytes → Option ℕ
  | [] => some value
  | b :: bs => (digitValue b).bind fun d ↦ readDigits (10 * value + d) bs

def parseUint (bits : ℕ) (t : Bytes) : Option ℕ :=
  if t = [] then none
  else (readDigits 0 t).bind fun n ↦ if n < 2 ^ bits then some n else none

def parseInt (bits : ℕ) : Bytes → Option ℤ
  | [] => none
  | b :: bs =>
    if b = 0x2D then
      (parseUint bits bs).bind fun n ↦ if n ≤ 2 ^ (bits - 1) then some (-n) else none
    else
      (parseUint bits (if b = 0x2B then bs else b :: bs)).bind fun n ↦
        if n < 2 ^ (bits - 1) then some n else none

theorem digitValue_of_isDigit {c : Char} (h : c.isDigit = true) :
    digitValue (byteOfChar c) = some (c.toNat - '0'.toNat) := by
  have hbounds : 48 ≤ c.toNat ∧ c.toNat ≤ 57 := by
    rw [Char.isDigit, Bool.and_eq_true, decide_eq_true_iff, decide_eq_true_iff] at h
    exact h
  have hbyte : (byteOfChar c).toNat = c.toNat := by
    rw [byteOfChar, BitVec.toNat_ofNat]
    omega
  rw [digitValue, hbyte, if_pos hbounds]
  rfl

theorem readDigits_map {cs : List Char} (h : ∀ c ∈ cs, c.isDigit = true) (value : ℕ) :
    readDigits value (cs.map byteOfChar) = some (Nat.ofDigitChars 10 cs value) := by
  induction cs generalizing value with
  | nil => rfl
  | cons c cs ih =>
    rw [map_cons, readDigits, digitValue_of_isDigit (h c mem_cons_self),
      bind_some, ih fun d hd ↦ h d (mem_cons_of_mem c hd), Nat.ofDigitChars_cons]

theorem isDigit_of_mem_toDigits {n : ℕ} : ∀ c ∈ Nat.toDigits 10 n, c.isDigit = true :=
  fun _ hc ↦ Nat.isDigit_of_mem_toDigits (by decide) (by decide) hc

theorem formatUint_ne_nil (n : ℕ) : formatUint n ≠ [] := by
  rw [formatUint, Ne, map_eq_nil_iff]
  exact Nat.toDigits_ne_nil

/-- **A number is read back.** -/
theorem parseUint_formatUint {bits n : ℕ} (h : n < 2 ^ bits) :
    parseUint bits (formatUint n) = some n := by
  rw [parseUint, if_neg (formatUint_ne_nil n), formatUint, readDigits_map isDigit_of_mem_toDigits,
    Nat.ofDigitChars_ten_toDigits, bind_some, if_pos h]

theorem toNat_of_mem_formatUint {n : ℕ} {b : BitVec 8} (h : b ∈ formatUint n) :
    48 ≤ b.toNat ∧ b.toNat ≤ 57 := by
  obtain ⟨c, hc, rfl⟩ := mem_map.mp h
  have hsome := digitValue_of_isDigit (isDigit_of_mem_toDigits c hc)
  exact (ite_none_right_eq_some.mp hsome).1

theorem parseInt_formatInt {bits : ℕ} {n : ℤ} (hpos : 0 < bits) (hlower : -2 ^ (bits - 1) ≤ n)
    (hupper : n < 2 ^ (bits - 1)) : parseInt bits (formatInt n) = some n := by
  have hcast : ((2 ^ (bits - 1) : ℕ) : ℤ) = 2 ^ (bits - 1) := Int.natCast_pow 2 (bits - 1)
  have hpow : 2 ^ bits = 2 * 2 ^ (bits - 1) := by
    obtain ⟨k, rfl⟩ := Nat.exists_eq_add_of_lt hpos
    rw [Nat.add_sub_cancel, Nat.pow_succ, Nat.mul_comm]
  cases n with
  | ofNat m =>
    have hm : m < 2 ^ (bits - 1) := by
      exact Int.ofNat_lt.mp hupper
    have hparse : parseUint bits (formatUint m) = some m := parseUint_formatUint (by omega)
    obtain ⟨b, bs, hbs⟩ := exists_cons_of_ne_nil (formatUint_ne_nil m)
    have hb := toNat_of_mem_formatUint (hbs ▸ mem_cons_self)
    have hminus : b ≠ 0x2D := by
      rintro rfl
      exact absurd hb.1 (by decide)
    have hplus : b ≠ 0x2B := by
      rintro rfl
      exact absurd hb.1 (by decide)
    rw [formatInt, hbs, parseInt, if_neg hminus, if_neg hplus, ← hbs, hparse, bind_some, if_pos hm]
    rfl
  | negSucc m =>
    have hm : m + 1 ≤ 2 ^ (bits - 1) := by
      omega
    rw [formatInt, parseInt, parseUint_formatUint (by omega), bind_some, if_pos hm]
    rfl

theorem toNat_of_mem_formatInt {n : ℤ} {b : BitVec 8} (h : b ∈ formatInt n) :
    45 ≤ b.toNat ∧ b.toNat ≤ 57 := by
  cases n with
  | ofNat m =>
    have hb := toNat_of_mem_formatUint h
    omega
  | negSucc m =>
    rcases mem_cons.mp h with rfl | hmem
    · decide
    · have hb := toNat_of_mem_formatUint hmem
      omega

/-! ## Fields -/

/-- What is in front of the first separator, and what is behind it if there is one. -/
def cutAt {α : Type*} [DecidableEq α] (sep : α) (t : List α) : List α × Option (List α) :=
  let first := t.takeWhile (· ≠ sep)
  match t.drop first.length with
  | [] => (first, none)
  | _ :: rest => (first, some rest)

section Cut

variable {α : Type*} [DecidableEq α] {sep : α} {a t : List α}

theorem takeWhile_append_cons_of_notMem (h : sep ∉ a) (b : List α) :
    (a ++ sep :: b).takeWhile (· ≠ sep) = a := by
  have hne : ∀ x ∈ a, decide (x ≠ sep) = true := by
    intro x hx
    refine decide_eq_true fun heq ↦ ?_
    exact h (heq ▸ hx)
  rw [takeWhile_append_of_pos hne, takeWhile_cons_of_neg (by simp), append_nil]

theorem cutAt_append_cons (h : sep ∉ a) (b : List α) : cutAt sep (a ++ sep :: b) = (a, some b) := by
  rw [cutAt, takeWhile_append_cons_of_notMem h]
  simp only [drop_left]

theorem cutAt_of_notMem (h : sep ∉ t) : cutAt sep t = (t, none) := by
  have hall : t.takeWhile (· ≠ sep) = t := by
    refine takeWhile_eq_self_iff.mpr fun x hx ↦ decide_eq_true fun heq ↦ ?_
    exact h (heq ▸ hx)
  rw [cutAt, hall]
  simp only [drop_length]

theorem isPrefix_fst_cutAt (sep : α) (t : List α) :
    (cutAt sep t).1 <+: t ∧ sep ∉ (cutAt sep t).1 := by
  by_cases h : sep ∈ t
  · obtain ⟨a, b, rfl, ha⟩ := eq_append_cons_of_mem h
    rw [cutAt_append_cons ha]
    exact ⟨prefix_append _ _, ha⟩
  · rw [cutAt_of_notMem h]
    exact ⟨prefix_rfl, h⟩

theorem head?_fst_cutAt {b : α} (hb : b ≠ sep) (h : t.head? = some b) :
    (cutAt sep t).1.head? = some b := by
  by_cases hmem : sep ∈ t
  · obtain ⟨a, rest, rfl, ha⟩ := eq_append_cons_of_mem hmem
    rw [cutAt_append_cons ha]
    cases a with
    | nil => exact absurd (Option.some.inj h).symm hb
    | cons c a => exact h
  · rwa [cutAt_of_notMem hmem]

end Cut

theorem notMem_of_mem_splitOn {α : Type*} [BEq α] [LawfulBEq α] {sep : α} {t l : List α}
    (h : l ∈ t.splitOn sep) : sep ∉ l := fun hmem ↦
  absurd (of_mem_splitOnP h sep hmem).2 (by simp)

/-- Behind a text, fields without the separator are the last ones that it is split into. -/
theorem splitOn_append_fields {α : Type*} [BEq α] [LawfulBEq α] {sep : α} (t : List α)
    {a b : List α} (ha : sep ∉ a) (hb : sep ∉ b) :
    (t ++ sep :: (a ++ sep :: b)).splitOn sep = t.splitOn sep ++ [a, b] := by
  have hne {l : List α} (hl : sep ∉ l) : ∀ x ∈ l, (x == sep) = false := by
    intro x hx
    exact beq_eq_false_iff_ne.mpr fun h ↦ hl (h ▸ hx)
  have hsep : (sep == sep) = true := beq_self_eq_true sep
  rw [List.splitOn, List.splitOn, splitOnP_append_cons (p := fun x ↦ x == sep) t _ hsep,
    splitOnP_append_cons_of_forall_mem (hne ha) sep hsep, splitOnP_eq_singleton (hne hb)]

end Machine
