import Gocracker.Machine.Base64

/-!
# Preview tokens

A token grants access to one port of one sandbox until it expires. It is a payload, written out as a
text with separators, and a signature of this text, both in Base64.

`Signer` has an ideal signature: nobody but the signer can make one, so a signature is good only for
a text that was signed. What is left to the code is the text: does it say the same as the payload,
and does a verifier read the same in it?

## Two moments that are not written down

The time of expiry is written as the second of the Unix epoch, and a zero time, which stands for no
expiry at all, as 0. But 0 is also the first second of 1970, and the first second of the year 1 is
read back as the zero time. Payloads that expire in one of these two seconds never do. All others
are read back as they are, to the second.
-/

namespace Gocracker.Preview

open Machine List Option BitVec Base64

/-! ## Time -/

/-- `time.Time` without a monotonic reading: seconds of the year 1 and nanoseconds. -/
structure Time where
  sec : BitVec 64
  nsec : Fin 1000000000
  deriving DecidableEq

namespace Time

instance neZero_second : NeZero 1000000000 := ⟨by decide⟩

def zero : Time := ⟨0, 0⟩

/-- From the year 1 to 1970, in seconds. -/
def unixToInternal : BitVec 64 := 62135596800

def unix (t : Time) : BitVec 64 := t.sec - unixToInternal

/-- `time.Unix` without nanoseconds. -/
def ofUnix (sec : BitVec 64) : Time := ⟨sec + unixToInternal, 0⟩

def After (t u : Time) : Prop :=
  u.sec.toInt < t.sec.toInt ∨ t.sec = u.sec ∧ u.nsec < t.nsec
deriving Decidable

/-- The beginning of the second. -/
def whole (t : Time) : Time := ⟨t.sec, 0⟩

/-- Neither in the first second of the year 1 nor in that of 1970. -/
def Plain (t : Time) : Prop := t.sec ≠ 0 ∧ t.sec ≠ unixToInternal

end Time

/-! ## Payloads -/

structure TokenPayload where
  sandboxID : Bytes
  port : BitVec 16
  expiresAt : Time
  deriving DecidableEq

def tokenMagic : Bytes := ascii "gcsbxprev:v1:"

/-- The separator of the fields. -/
def bar : BitVec 8 := 0x7C

def canonicalString (p : TokenPayload) : Bytes :=
  let exp := if p.expiresAt = .zero then 0 else p.expiresAt.unix
  tokenMagic ++ (p.sandboxID ++ bar :: (formatUint p.port.toNat ++ bar :: formatInt exp.toInt))

def parseFields (body : Bytes) : Option TokenPayload :=
  match body.splitOn bar with
  | [id, port, exp] =>
    (parseUint 16 port).bind fun port ↦ (parseInt 64 exp).map fun exp ↦
      { sandboxID := id
        port := BitVec.ofNat 16 port
        expiresAt := if exp = 0 then .zero else .ofUnix (BitVec.ofInt 64 exp) }
  | _ => none

def parseCanonical (t : Bytes) : Option TokenPayload :=
  if tokenMagic <+: t then parseFields (t.drop tokenMagic.length) else none

/-! ## Signing and verifying -/

/-- The separator of the two parts of a token. -/
def dot : BitVec 8 := 0x2E

structure Signer where
  tag : Bytes → Bytes
  signed : List TokenPayload

namespace Signer

variable (s : Signer)

def sign (p : TokenPayload) : Bytes :=
  let canonical := canonicalString p
  encode urlAlphabet canonical ++
    dot :: encode urlAlphabet (s.tag canonical)

/-- A signature is the right one, and it was given out. -/
def IsGenuine (message sig : Bytes) : Prop :=
  message ∈ s.signed.map canonicalString ∧ sig = s.tag message
deriving Decidable

/-- What is done once the signature is found to be good. -/
def accept (now : Time) (message : Bytes) : Option TokenPayload :=
  (parseCanonical message).bind fun p ↦
    if p.expiresAt ≠ .zero ∧ now.After p.expiresAt then none else some p

def verify (now : Time) (token : Bytes) : Option TokenPayload :=
  match cutAt dot token with
  | (_, none) => none
  | (first, some second) =>
    (decode urlAlphabet first).bind fun message ↦
      (decode urlAlphabet second).bind fun sig ↦
        if s.IsGenuine message sig then accept now message else none

/-! ## What should hold -/

/-- **What is verified was signed**, and has not expired. -/
def Binds : Prop :=
  ∀ token now p, s.verify now token = some p →
    (∃ q ∈ s.signed, p.sandboxID = q.sandboxID ∧ p.port = q.port ∧
      p.expiresAt = q.expiresAt.whole) ∧ ¬ now.After p.expiresAt

/-- **What was signed is verified** until it expires and no longer. -/
def Honours : Prop :=
  ∀ q ∈ s.signed, bar ∉ q.sandboxID → ∀ now : Time,
    (¬ now.After q.expiresAt.whole →
      s.verify now (s.sign q) = some { q with expiresAt := q.expiresAt.whole }) ∧
    (now.After q.expiresAt.whole → s.verify now (s.sign q) = none)

end Signer

/-! ## The text of a payload -/

def TokenPayload.readBack (p : TokenPayload) : Time :=
  let exp := if p.expiresAt = .zero then 0 else p.expiresAt.unix
  if exp = 0 then .zero else .ofUnix exp

theorem Time.ofUnix_unix (t : Time) : Time.ofUnix t.unix = t.whole := by
  rw [Time.ofUnix, Time.unix, Time.whole, BitVec.sub_add_cancel]

theorem TokenPayload.readBack_eq {p : TokenPayload} (h : p.expiresAt.Plain) :
    p.readBack = p.expiresAt.whole ∧ p.readBack ≠ .zero := by
  have hzero : p.expiresAt ≠ .zero := fun heq ↦ h.1 (congrArg Time.sec heq)
  have hunix : p.expiresAt.unix ≠ 0 := fun heq ↦
    h.2 ((BitVec.sub_eq_iff_eq_add.mp heq).trans (BitVec.zero_add _))
  have hback : p.readBack = p.expiresAt.whole := by
    rw [TokenPayload.readBack]
    simp only [if_neg hzero, if_neg hunix]
    exact Time.ofUnix_unix _
  exact ⟨hback, fun heq ↦ h.1 (congrArg Time.sec (hback.symm.trans heq))⟩

theorem Time.sec_of_not_plain {t : Time} (h : ¬ t.Plain) : t.sec = 0 ∨ t.sec = unixToInternal := by
  rwa [Time.Plain, not_and_or, Classical.not_not, Classical.not_not] at h

theorem TokenPayload.readBack_of_not_plain {p : TokenPayload} (h : ¬ p.expiresAt.Plain) :
    p.readBack = .zero := by
  rw [TokenPayload.readBack]
  by_cases hzero : p.expiresAt = .zero
  · simp [hzero]
  simp only [if_neg hzero]
  split_ifs with hunix
  · rfl
  · rcases Time.sec_of_not_plain h with hsec | hsec
    · rw [Time.ofUnix_unix, Time.whole, hsec]
      rfl
    · exact absurd (by rw [Time.unix, hsec, BitVec.sub_self]; rfl) hunix

theorem bar_notMem_formatUint (n : ℕ) : bar ∉ formatUint n := by
  intro h
  exact absurd (toNat_of_mem_formatUint h).2 (by decide)

theorem bar_notMem_formatInt (n : ℤ) : bar ∉ formatInt n := by
  intro h
  exact absurd (toNat_of_mem_formatInt h).2 (by decide)

theorem one_lt_length_splitOn {t : Bytes} (h : bar ∈ t) : 1 < (t.splitOn bar).length := by
  obtain ⟨a, b, rfl⟩ := append_of_mem h
  have hbar : (bar == bar) = true := rfl
  rw [List.splitOn, splitOnP_append_cons (p := fun x ↦ x == bar) a b hbar, length_append]
  have ha := length_pos_iff.mpr (splitOnP_ne_nil (fun x ↦ x == bar) a)
  have hb := length_pos_iff.mpr (splitOnP_ne_nil (fun x ↦ x == bar) b)
  omega

theorem splitOn_of_notMem {t : Bytes} (h : bar ∉ t) : t.splitOn bar = [t] :=
  splitOnP_eq_singleton fun _ hx ↦ beq_eq_false_iff_ne.mpr fun heq ↦ h (heq ▸ hx)

/-- **What is read in the text of a payload.** -/
theorem parseCanonical_eq (p : TokenPayload) : parseCanonical (canonicalString p) =
      if bar ∈ p.sandboxID then none else some { p with expiresAt := p.readBack } := by
  have hparts (exp : ℤ) :
      (p.sandboxID ++ bar :: (formatUint p.port.toNat ++ bar :: formatInt exp)).splitOn bar =
        p.sandboxID.splitOn bar ++ [formatUint p.port.toNat, formatInt exp] :=
    splitOn_append_fields _ (bar_notMem_formatUint _) (bar_notMem_formatInt _)
  rw [canonicalString, parseCanonical, if_pos (prefix_append _ _), drop_left, parseFields, hparts]
  by_cases hbar : bar ∈ p.sandboxID
  · -- too many fields
    rw [if_pos hbar]
    have hlength := one_lt_length_splitOn hbar
    split
    · rename_i id port exp heq
      have hthree := congrArg List.length heq
      rw [length_append] at hthree
      simp only [length_cons] at hthree
      omega
    · rfl
  · have hexp (exp : BitVec 64) : parseInt 64 (formatInt exp.toInt) = some exp.toInt :=
      parseInt_formatInt (by decide) (le_toInt exp) toInt_lt
    have hzero (exp : BitVec 64) : exp.toInt = 0 ↔ exp = 0 :=
      ⟨fun h ↦ eq_of_toInt_eq h, fun h ↦ h ▸ rfl⟩
    rw [if_neg hbar, splitOn_of_notMem hbar]
    simp only [singleton_append, parseUint_formatUint p.port.isLt, bind_some, hexp,
      map_some, ofNat_toNat, hzero, ofInt_toInt]
    rfl

/-! ## Tokens -/

namespace Signer

variable {s : Signer} {now : Time} {token : Bytes} {p q : TokenPayload}

theorem exists_of_verify (h : s.verify now token = some p) :
    ∃ q ∈ s.signed, accept now (canonicalString q) = some p := by
  simp only [verify] at h
  split at h
  · nomatch h
  obtain ⟨message, -, h⟩ := bind_eq_some_iff.mp h
  obtain ⟨sig, -, h⟩ := bind_eq_some_iff.mp h
  obtain ⟨⟨hmem, -⟩, h⟩ := ite_none_right_eq_some.mp h
  obtain ⟨q, hq, rfl⟩ := mem_map.mp hmem
  exact ⟨q, hq, h⟩

theorem dot_notMem_encode (t : Bytes) : dot ∉ encode urlAlphabet t := by
  intro h
  obtain ⟨d, hd⟩ := exists_of_mem_encode h
  exact absurd hd ((by decide : ∀ d, urlAlphabet.char d ≠ dot) d)

theorem verify_eq_none (h : (cutAt dot token).1 = []) : s.verify now token = none := by
  simp only [verify]
  split
  · rfl
  rename_i first second heq
  obtain rfl : first = [] := (congrArg Prod.fst heq).symm.trans h
  -- nothing is decoded from nothing, and it was not signed
  have hfake (sig : Bytes) : ¬ s.IsGenuine [] sig := by
    rintro ⟨hmem, -⟩
    obtain ⟨q, -, hq⟩ := mem_map.mp hmem
    exact absurd (append_eq_nil_iff.mp hq).1 (by decide)
  have hdecode : decode urlAlphabet [] = some [] := rfl
  rw [hdecode, bind_some]
  exact bind_eq_none_iff.mpr fun sig _ ↦ if_neg (hfake sig)

theorem verify_sign (hq : q ∈ s.signed) :
    s.verify now (s.sign q) = accept now (canonicalString q) := by
  have hgenuine : s.IsGenuine (canonicalString q) (s.tag (canonicalString q)) :=
    ⟨List.mem_map_of_mem hq, rfl⟩
  simp only [verify, sign, cutAt_append_cons (dot_notMem_encode _), decode_encode,
    bind_some, if_pos hgenuine]

theorem accept_canonicalString (hbar : bar ∉ q.sandboxID) : accept now (canonicalString q) =
      if q.readBack ≠ .zero ∧ now.After q.readBack then none
      else some { q with expiresAt := q.readBack } := by
  rw [accept, parseCanonical_eq, if_neg hbar, bind_some]

theorem binds (h : ∀ q ∈ s.signed, bar ∉ q.sandboxID → q.expiresAt.Plain) : s.Binds := by
  intro token now p hverify
  obtain ⟨q, hq, haccept⟩ := exists_of_verify hverify
  have hbar : bar ∉ q.sandboxID := by
    intro hbar
    rw [accept, parseCanonical_eq, if_pos hbar] at haccept
    nomatch haccept
  obtain ⟨hback, hne⟩ := TokenPayload.readBack_eq (h q hq hbar)
  rw [accept_canonicalString hbar, hback] at haccept
  obtain ⟨hnot, ⟨⟩⟩ := ite_none_left_eq_some.mp haccept
  exact ⟨⟨q, hq, rfl, rfl, rfl⟩, fun hafter ↦ hnot ⟨hback ▸ hne, hafter⟩⟩

theorem honours (h : ∀ q ∈ s.signed, bar ∉ q.sandboxID → q.expiresAt.Plain) : s.Honours := by
  intro q hq hbar now
  obtain ⟨hback, hne⟩ := TokenPayload.readBack_eq (h q hq hbar)
  rw [verify_sign hq, accept_canonicalString hbar, hback]
  rw [hback] at hne
  exact ⟨fun hnot ↦ if_neg fun h ↦ hnot h.2, fun hafter ↦ if_pos ⟨hne, hafter⟩⟩

/-- A token with another expiry is good for ever, so that it cannot be rejected in time. -/
theorem plain_of_honours (h : s.Honours) (hq : q ∈ s.signed) (hbar : bar ∉ q.sandboxID) :
    q.expiresAt.Plain := by
  by_contra hnot
  have hlate : Time.After ⟨63902822400, 0⟩ q.expiresAt.whole := by
    rcases Time.sec_of_not_plain hnot with hsec | hsec
    all_goals
      rw [Time.whole, hsec]
      decide
  have hnone := (h q hq hbar _).2 hlate
  rw [verify_sign hq, accept_canonicalString hbar, TokenPayload.readBack_of_not_plain hnot] at hnone
  simp at hnone

end Signer

open Signer

/-- **Tokens are bound to what was signed, and expire**, exactly if no payload that can be read back
expires in one of the two seconds. -/
theorem bound_iff_plain {s : Signer} :
    s.Binds ∧ s.Honours ↔ ∀ q ∈ s.signed, bar ∉ q.sandboxID → q.expiresAt.Plain :=
  ⟨fun h _ hq hbar ↦ plain_of_honours h.2 hq hbar, fun h ↦ ⟨binds h, honours h⟩⟩

/-! ## Two payloads -/

/-- Expires on 2026-01-01, in the middle of a second. -/
def ordinaryPayload : TokenPayload := ⟨ascii "sb-1", 8080, ⟨63902822400, 500000000⟩⟩

/-- Expires in the first second of 1970. -/
def epochPayload : TokenPayload := ⟨ascii "sb-1", 8080, ⟨Time.unixToInternal, 0⟩⟩

/-- It is verified in 2026 as a payload without expiry, which was never signed. -/
theorem not_bound_epochPayload : verify ⟨id, [epochPayload]⟩ ⟨63902822400, 0⟩
      (sign ⟨id, [epochPayload]⟩ epochPayload) =
        some { epochPayload with expiresAt := .zero } ∧
    ¬ Signer.Binds ⟨id, [epochPayload]⟩ ∧ ¬ Signer.Honours ⟨id, [epochPayload]⟩ := by
  have hmem : epochPayload ∈ [epochPayload] := mem_singleton.mpr rfl
  have hbar : bar ∉ epochPayload.sandboxID := by decide +kernel
  have hverify : verify ⟨id, [epochPayload]⟩ ⟨63902822400, 0⟩
      (sign ⟨id, [epochPayload]⟩ epochPayload) =
        some { epochPayload with expiresAt := .zero } := by
    have hback : epochPayload.readBack = .zero := by decide
    rw [verify_sign hmem, accept_canonicalString hbar]
    exact if_neg fun h ↦ h.1 rfl
  refine ⟨hverify, fun hbinds ↦ ?_, fun hhonours ↦ ?_⟩
  · exact (hbinds _ _ _ hverify).2 (by decide)
  · have hnone := (hhonours epochPayload hmem hbar ⟨63902822400, 0⟩).2 (by decide)
    nomatch hverify.symm.trans hnone

end Gocracker.Preview
