import Gocracker.Machine.LittleEndian

/-!
# Unambiguous texts

Texts that are put together from parts and looked at only as a whole, in a hash or a comparison,
must not be ambiguous: different parts must give different texts. Two ways of keeping the parts
apart are used. A *separator* that occurs in no part: then the parts can be cut out again
(`intercalate_inj`). And *labels* none of which begins another one: then the parts may even be put
in any order (`eq_of_perm_labelled`).

A part that has no end of its own, such as a decimal number, ends where a character follows that
cannot belong to it (`append_inj_of_forall`). A text in which some characters are hidden, together
with the hidden ones in their order, tells the whole (`eq_of_map_mask`).

A `Digest` stands for a hash function in which nobody has found a collision.
-/

namespace Machine

open List Nat

variable {α : Type*}

/-! ## Ends -/

/-- A part of characters with a certain property, up to the first one without it. -/
theorem append_inj_of_forall {p : α → Prop} {a b s t : List α} (ha : ∀ c ∈ a, p c)
    (hb : ∀ c ∈ b, p c) (hs : ∀ c ∈ s.head?, ¬p c) (ht : ∀ c ∈ t.head?, ¬p c)
    (h : a ++ s = b ++ t) : a = b ∧ s = t := by
  classical
  have hcut {a s : List α} (ha : ∀ c ∈ a, p c) (hs : ∀ c ∈ s.head?, ¬p c) :
      (a ++ s).takeWhile (p ·) = a := by
    rw [takeWhile_append_of_pos fun c hc ↦ decide_eq_true (ha c hc)]
    cases s with
    | nil => exact append_nil a
    | cons c s => rw [takeWhile_cons_of_neg (by simpa using hs), append_nil]
  obtain rfl : a = b := by rw [← hcut ha hs, h, hcut hb ht]
  exact ⟨rfl, append_cancel_left h⟩

variable {sep : α} {ws : List (List α)}

/-- Parts of one length can be told from what they make together. -/
theorem flatMap_injective {β : Type*} {f : α → List β} {n : ℕ} (hf : Function.Injective f)
    (hlen : ∀ a, (f a).length = n + 1) : Function.Injective (List.flatMap f) := by
  intro as bs h
  induction as generalizing bs with
  | nil =>
    cases bs with
    | nil => rfl
    | cons b bs => simpa [hlen] using congrArg List.length h.symm
  | cons a as ih =>
    cases bs with
    | nil => simpa [hlen] using congrArg List.length h
    | cons b bs =>
      obtain ⟨hab, hrest⟩ := append_inj h ((hlen a).trans (hlen b).symm)
      rw [hf hab, ih hrest]

/-! ## Separators -/

/-- **Parts that are joined by a separator** can be told from the result. -/
theorem intercalate_inj {ps qs : List (List α)} (hp : ps ≠ []) (hq : qs ≠ [])
    (hps : ∀ p ∈ ps, sep ∉ p) (hqs : ∀ q ∈ qs, sep ∉ q)
    (h : [sep].intercalate ps = [sep].intercalate qs) : ps = qs := by
  classical
  rw [← splitOn_intercalate sep hps hp, h, splitOn_intercalate sep hqs hq]

variable {p : α → Bool}

theorem filter_intercalate (hsep : p sep = false) :
    ([sep].intercalate ws).filter p = ws.flatMap (List.filter p) := by
  induction ws with
  | nil => rfl
  | cons w ws ih =>
    cases ws with
    | nil => rw [intercalate_singleton, flatMap_singleton]
    | cons w' ws =>
      rw [intercalate_cons_cons, filter_append, filter_append, filter_singleton, hsep, cond_false,
        append_nil, ih]
      exact flatMap_cons.symm

/-- The pieces of a text have all of its characters but those at which it is cut. -/
theorem flatten_splitOnP (t : List α) : (t.splitOnP p).flatten = t.filter fun c ↦ !p c := by
  induction t with
  | nil => rw [splitOnP_nil]; rfl
  | cons c t ih =>
    obtain ⟨v, vs, hv⟩ := exists_cons_of_ne_nil (splitOnP_ne_nil p t)
    rw [hv] at ih
    rw [splitOnP_cons_eq_if_modifyHead, hv, filter_cons, ← ih]
    cases p c <;> simp

theorem of_mem_splitOnP {t w : List α} (h : w ∈ t.splitOnP p) : ∀ c ∈ w, c ∈ t ∧ p c = false := by
  induction t generalizing w with
  | nil => simp_all
  | cons c t ih =>
    obtain ⟨v, vs, hv⟩ := exists_cons_of_ne_nil (splitOnP_ne_nil p t)
    rw [splitOnP_cons_eq_if_modifyHead, hv] at h
    rw [hv] at ih
    split at h
    · grind
    · rw [modifyHead_cons] at h
      grind

theorem mem_of_mem_splitOnP {t w : List α} (h : w ∈ t.splitOnP p) : w ⊆ t :=
  fun c hc ↦ (of_mem_splitOnP h c hc).1

theorem mem_intercalate {c : α} (h : c ∈ [sep].intercalate ws) : c = sep ∨ ∃ w ∈ ws, c ∈ w := by
  induction ws with
  | nil => exact absurd h not_mem_nil
  | cons w ws ih =>
    cases ws with
    | nil => exact .inr ⟨w, mem_cons_self, by simpa using h⟩
    | cons w' ws =>
      rw [intercalate_cons_cons, append_assoc, mem_append, mem_append, mem_singleton] at h
      grind

/-! ## Masks -/

/-- A character, unless it is hidden. -/
def mask (p : α → Bool) (c : α) : Option α := if p c then none else some c

variable {q : α → Bool}

/-- **A text is told by its mask and by what is hidden in it.** -/
theorem eq_of_map_mask {a b r s : List α} (hmask : a.map (mask p) = b.map (mask q))
    (h : a.filter p ++ r = b.filter q ++ s) : a = b ∧ r = s := by
  induction a generalizing b with
  | nil =>
    obtain rfl := map_eq_nil_iff.mp hmask.symm
    exact ⟨rfl, h⟩
  | cons c a ih =>
    cases b with
    | nil => nomatch hmask
    | cons d b =>
      obtain ⟨hhead, htail⟩ := List.cons.inj hmask
      rw [mask, mask] at hhead
      rw [filter_cons, filter_cons] at h
      split_ifs at hhead h with hp hq
      · -- both are hidden, and come first among what is hidden
        obtain ⟨rfl, hrest⟩ := List.cons.inj h
        exact (ih htail hrest).imp_left (congrArg _)
      · obtain rfl := Option.some.inj hhead
        exact (ih htail h).imp_left (congrArg _)

theorem eq_of_map_map_mask {as bs : List (List α)} {r s : List α}
    (hmask : as.map (List.map (mask p)) = bs.map (List.map (mask q)))
    (h : as.flatMap (List.filter p) ++ r = bs.flatMap (List.filter q) ++ s) : as = bs ∧ r = s := by
  induction as generalizing bs with
  | nil =>
    obtain rfl := map_eq_nil_iff.mp hmask.symm
    exact ⟨rfl, h⟩
  | cons a as ih =>
    cases bs with
    | nil => nomatch hmask
    | cons b bs =>
      obtain ⟨hhead, htail⟩ := List.cons.inj hmask
      rw [flatMap_cons, flatMap_cons, append_assoc, append_assoc] at h
      obtain ⟨rfl, hrest⟩ := eq_of_map_mask hhead h
      exact (ih htail hrest).imp_left (congrArg _)

/-- Where the same is hidden, the masks are the same. -/
theorem map_map_mask_congr (h : ws.flatMap (List.filter p) = ws.flatMap (List.filter q)) :
    ws.map (List.map (mask p)) = ws.map (List.map (mask q)) := by
  have hiff : ∀ w ∈ ws, ∀ c ∈ w, p c = q c := by
    intro w hw c hc
    have hmem {p : α → Bool} : c ∈ ws.flatMap (List.filter p) ↔ p c = true := by
      rw [mem_flatMap]
      exact ⟨fun ⟨_, _, h⟩ ↦ (mem_filter.mp h).2, fun h ↦ ⟨w, hw, mem_filter.mpr ⟨hc, h⟩⟩⟩
    rw [Bool.eq_iff_iff, ← hmem, ← hmem, h]
  refine map_congr_left fun w hw ↦ map_congr_left fun c hc ↦ ?_
  rw [mask, mask, hiff w hw c hc]

/-! ## Labels -/

/-- None of the labels begins another one. -/
def Unmistakable (labels : List (List α)) : Prop :=
  labels.Pairwise fun l l' ↦ ¬l <+: l' ∧ ¬l' <+: l

instance [DecidableEq α] (labels : List (List α)) : Decidable (Unmistakable labels) :=
  inferInstanceAs (Decidable (labels.Pairwise _))

/-- **Labelled parts** can be told from the whole, in whatever order they stand. -/
theorem eq_of_perm_labelled {labels vs : List (List α)} (h : Unmistakable labels)
    (hvs : vs.length = labels.length) (hws : ws.length = labels.length)
    (hperm : (List.zipWith (· ++ ·) labels vs).Perm (List.zipWith (· ++ ·) labels ws)) :
    vs = ws := by
  refine ext_getElem (hvs.trans hws.symm) fun i hi hi' ↦ ?_
  have hlabel : i < labels.length := hvs ▸ hi
  have hmem : labels[i] ++ vs[i] ∈ List.zipWith (· ++ ·) labels ws := by
    refine hperm.mem_iff.mp (mem_iff_getElem.mpr ⟨i, ?_, getElem_zipWith⟩)
    rw [length_zipWith]
    exact lt_min hlabel hi
  obtain ⟨j, hj, heq⟩ := mem_iff_getElem.mp hmem
  rw [length_zipWith, lt_min_iff] at hj
  rw [getElem_zipWith] at heq
  -- Labels that begin the same text are at the same place.
  have hcomparable : labels[j] <+: labels[i] ∨ labels[i] <+: labels[j] :=
    prefix_or_prefix_of_prefix (prefix_append _ ws[j]) (heq ▸ prefix_append _ vs[i])
  rcases lt_trichotomy j i with hlt | rfl | hgt
  · obtain ⟨h₁, h₂⟩ := pairwise_iff_getElem.mp h j i hj.1 hlabel hlt
    exact absurd hcomparable (not_or.mpr ⟨h₁, h₂⟩)
  · exact (append_cancel_left heq).symm
  · obtain ⟨h₁, h₂⟩ := pairwise_iff_getElem.mp h i j hlabel hj.1 hgt
    exact absurd hcomparable (not_or.mpr ⟨h₂, h₁⟩)

/-! ## Decimal numbers -/

def IsNumeric (c : Char) : Prop := c.isDigit = true ∨ c = '-'

variable {c : Char} {n : ℕ}

theorem isNumeric_of_mem_repr (h : c ∈ n.repr.toList) : IsNumeric c := by
  rw [toList_repr] at h
  exact .inl (Nat.isDigit_of_mem_toDigits (by decide) (by decide) h)

theorem isNumeric_of_mem_int_repr {n : ℤ} (h : c ∈ n.repr.toList) : IsNumeric c := by
  cases n with
  | ofNat m => exact isNumeric_of_mem_repr h
  | negSucc m =>
    rw [Int.repr, String.toList_append, mem_append] at h
    rcases h with hminus | hdigit
    · exact .inr (by simpa using hminus)
    · exact isNumeric_of_mem_repr hdigit

theorem int_repr_ne_nil (n : ℤ) : n.repr.toList ≠ [] := by
  cases n with
  | ofNat m =>
    rw [Int.repr, toList_repr]
    exact toDigits_ne_nil
  | negSucc m => simp [Int.repr]

theorem nat_eq_of_toList_repr {m : ℕ} (h : m.repr.toList = n.repr.toList) : m = n :=
  Nat.repr_injective (String.toList_inj.mp h)

/-- A number is read back from its digits. -/
theorem int_eq_of_toList_repr {m n : ℤ} (h : m.repr.toList = n.repr.toList) : m = n :=
  Int.repr_injective (String.toList_inj.mp h)

/-! ## Hexadecimal digits -/

def hexDigit (n : Fin 16) : Char :=
  ['0', '1', '2', '3', '4', '5', '6', '7', '8', '9', 'a', 'b', 'c', 'd', 'e', 'f'].get n

def hexValue (c : Char) : ℕ :=
  if c.toNat < 97 then c.toNat - 48 else c.toNat - 87

theorem hexValue_hexDigit (n : Fin 16) : hexValue (hexDigit n) = n := by
  revert n
  decide

instance neZero_base : NeZero 16 := ⟨by decide⟩

theorem hexValue_hexDigit_ofNat (h : n < 16) : hexValue (hexDigit (Fin.ofNat 16 n)) = n :=
  (hexValue_hexDigit _).trans (mod_eq_of_lt h)

theorem hexDigit_injective : Function.Injective hexDigit := by
  intro m n h
  have hvalue := congrArg hexValue h
  rw [hexValue_hexDigit, hexValue_hexDigit] at hvalue
  exact Fin.ext hvalue

/-- The two digits of a byte. -/
def hexByte (b : BitVec 8) : List Char :=
  [hexDigit (Fin.ofNat 16 (b.toNat / 16)), hexDigit (Fin.ofNat 16 (b.toNat % 16))]

theorem hexByte_injective : Function.Injective hexByte := by
  intro a b h
  obtain ⟨hhigh, hlow⟩ := List.cons.inj h
  have hhigh := congrArg Fin.val (hexDigit_injective hhigh)
  have hlow := congrArg Fin.val (hexDigit_injective (List.cons.inj hlow).1)
  simp only [Fin.ofNat] at hhigh hlow
  refine BitVec.eq_of_toNat_eq ?_
  omega

/-- `hex.EncodeToString`. -/
def hexEncode (bytes : List (BitVec 8)) : List Char := bytes.flatMap hexByte

theorem hexEncode_injective : Function.Injective hexEncode :=
  flatMap_injective hexByte_injective fun _ ↦ rfl

theorem exists_hexDigit_of_mem {bytes : List (BitVec 8)} (h : c ∈ hexEncode bytes) :
    ∃ n, c = hexDigit n := by
  obtain ⟨b, -, hc⟩ := mem_flatMap.mp h
  rcases mem_cons.mp hc with hc | hc
  · exact ⟨_, hc⟩
  · exact ⟨_, mem_singleton.mp hc⟩

/-! ## Digests -/

/-- A hash function, assumed to have no collisions. -/
structure Digest where
  sum : List Char → List (BitVec 8)
  injective : Function.Injective sum

namespace Digest

/-- The sum in hexadecimal digits. -/
def hexSum (d : Digest) (t : List Char) : List Char := hexEncode (d.sum t)

theorem hexSum_injective (d : Digest) : Function.Injective d.hexSum :=
  hexEncode_injective.comp d.injective

/-- The characters themselves, in four bytes each. -/
def verbatim : Digest where
  sum t := t.flatMap fun c ↦ putLE 4 c.toNat
  injective := by
    have hlt (c : Char) : c.toNat < 256 ^ 4 := lt_of_lt_of_le c.val.toNat_lt (by decide)
    refine flatMap_injective (fun c d h ↦ ?_) fun c ↦ length_putLE 4 c.toNat
    exact Char.toNat_inj.mp (putLE_inj (hlt c) (hlt d) h)

end Digest

end Machine
