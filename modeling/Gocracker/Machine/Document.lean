import Gocracker.Machine.Ascii

/-!
# Reading Json documents

What `encoding/json` makes of bytes. A document is a value between white space. Its strings keep
their escapes and its numbers their digits, since it depends on what they are read into what becomes
of them. Arrays and objects may be nested up to a fixed depth, and the reader goes down from there;
the number of items at one depth is bounded by the number of bytes.

A document is read into a record field by field. `null` leaves a field as it is, makes a pointer nil
and a map nil, all without an error. A value of another type is an error.
-/

namespace Machine

inductive Document where
  | null
  | bool (b : Bool)
  | num (text : Bytes)
  | str (raw : Bytes)
  | arr (elements : List Document)
  | obj (members : List (Bytes × Document))

namespace Document

/-! ## Words -/

def isSpace (b : BitVec 8) : Bool := b = 0x20 ∨ b = 0x09 ∨ b = 0x0A ∨ b = 0x0D

variable (t : Bytes)

def skipSpace : Bytes := t.dropWhile isSpace

def isDigit (b : BitVec 8) : Bool := 0x30#8 ≤ b ∧ b ≤ 0x39#8

def hexDigitValue (b : BitVec 8) : Option ℕ :=
  if isDigit b then some (b.toNat - 0x30)
  else if 0x61#8 ≤ b ∧ b ≤ 0x66#8 then some (b.toNat - 0x61 + 10)
  else if 0x41#8 ≤ b ∧ b ≤ 0x46#8 then some (b.toNat - 0x41 + 10)
  else none

/-- What may follow a backslash, and what it stands for. -/
def simpleEscapes : List (BitVec 8 × BitVec 8) :=
  [(0x62, 0x08), (0x66, 0x0C), (0x6E, 0x0A), (0x72, 0x0D), (0x74, 0x09), (0x5C, 0x5C), (0x2F, 0x2F),
    (0x22, 0x22)]

/-- The text up to the next quote, and what is behind the quote. -/
def readString : Bytes → Option (Bytes × Bytes)
  | [] => none
  | b :: rest =>
    if b = 0x22 then some ([], rest)
    else if b = 0x5C then
      match rest with
      | 0x75 :: h₁ :: h₂ :: h₃ :: h₄ :: rest =>
        if [h₁, h₂, h₃, h₄].all fun h ↦ (hexDigitValue h).isSome then
          (readString rest).map (Prod.map ([b, 0x75, h₁, h₂, h₃, h₄] ++ ·) id)
        else none
      | e :: rest =>
        if (simpleEscapes.lookup e).isSome then (readString rest).map (Prod.map ([b, e] ++ ·) id)
        else none
      | [] => none
    else if b < 0x20 then none
    else (readString rest).map (Prod.map (b :: ·) id)

def isDigits : Bool := t ≠ [] ∧ t.all isDigit

/-- An exponent with its sign, or nothing. -/
def isExponent : Bytes → Bool
  | [] => true
  | e :: s :: rest =>
    (e = 0x65 ∨ e = 0x45) ∧ isDigits (if s = 0x2B ∨ s = 0x2D then rest else s :: rest)
  | _ => false

/-- What follows the digits in front of the point. -/
def isFraction : Bytes → Bool
  | 0x2E :: rest => isDigits (rest.takeWhile isDigit) ∧ isExponent (rest.dropWhile isDigit)
  | t => isExponent t

/-- No digit follows a leading zero. -/
def isNumber : Bool :=
  match (if t.head? = some 0x2D then t.tail else t) with
  | 0x30 :: rest => isFraction rest
  | t => isDigits (t.takeWhile isDigit) ∧ isFraction (t.dropWhile isDigit)

def isNumeric (b : BitVec 8) : Bool :=
  isDigit b ∨ b = 0x2B ∨ b = 0x2D ∨ b = 0x2E ∨ b = 0x65 ∨ b = 0x45

/-- The word that is expected, taken off the front. -/
def readWord (word : String) (v : Document) (t : Bytes) : Option (Document × Bytes) :=
  if t.take word.length = ascii word then some (v, t.drop word.length) else none

/-- A value that is not nested. -/
def readScalar : Option (Document × Bytes) :=
  match t with
  | 0x22 :: rest => (readString rest).map (Prod.map str id)
  | 0x6E :: _ => readWord "null" null t
  | 0x74 :: _ => readWord "true" (bool true) t
  | 0x66 :: _ => readWord "false" (bool false) t
  | _ =>
    if isNumber (t.takeWhile isNumeric) then
      some (num (t.takeWhile isNumeric), t.dropWhile isNumeric)
    else none

/-! ## Values -/

/-- Items with commas between them, at least one, and the bracket behind them. There is fuel for so
many items. -/
def readItems {α : Type} (read : Bytes → Option (α × Bytes)) (close : BitVec 8) :
    ℕ → Bytes → Option (List α × Bytes)
  | 0, _ => none
  | n + 1, t =>
    (read t).bind fun v ↦
      match skipSpace v.2 with
      | [] => none
      | b :: rest =>
        if b = close then some ([v.1], rest)
        else if b = 0x2C then (readItems read close n rest).map (Prod.map (v.1 :: ·) id)
        else none

/-- The items between brackets, if there are any. -/
def readList {α : Type} (read : Bytes → Option (α × Bytes)) (close : BitVec 8) (t : Bytes) :
    Option (List α × Bytes) :=
  if (skipSpace t).head? = some close then some ([], (skipSpace t).tail)
  else readItems read close (t.length + 1) t

def readMember (read : Bytes → Option (Document × Bytes)) (t : Bytes) :
    Option ((Bytes × Document) × Bytes) :=
  match skipSpace t with
  | 0x22 :: rest =>
    (readString rest).bind fun name ↦
      match skipSpace name.2 with
      | 0x3A :: rest => (read rest).map (Prod.map (name.1, ·) id)
      | _ => none
  | _ => none

/-- A value with white space in front of it, nested at most so deep. -/
def readValue : ℕ → Bytes → Option (Document × Bytes)
  | 0, t =>
    match skipSpace t with
    | 0x7B :: _ | 0x5B :: _ => none
    | t => readScalar t
  | depth + 1, t =>
    match skipSpace t with
    | 0x7B :: rest => (readList (readMember (readValue depth)) 0x7D rest).map (Prod.map obj id)
    | 0x5B :: rest => (readList (readValue depth) 0x5D rest).map (Prod.map arr id)
    | t => readScalar t

def maxNestingDepth : ℕ := 10000

/-- A value and nothing but white space behind it. -/
def readDocument : Option Document :=
  (readValue maxNestingDepth t).bind fun v ↦ if skipSpace v.2 = [] then some v.1 else none

/-! ## Texts -/

def isTail (b : BitVec 8) : Bool := 0x80#8 ≤ b ∧ b ≤ 0xBF#8

/-- How many bytes the character in front has, if it is one. -/
def utf8Length : Bytes → Option ℕ
  | [] => none
  | a :: rest =>
    if a < 0x80#8 then some 1
    else if 0xC2#8 ≤ a ∧ a ≤ 0xDF#8 then
      if (rest.take 1).all isTail ∧ rest ≠ [] then some 2 else none
    else
      -- The second byte of a longer character is bounded so that none has two codes.
      match rest with
      | b :: c :: rest =>
        if ¬ isTail b ∨ ¬ isTail c then none
        else if 0xE0#8 ≤ a ∧ a ≤ 0xEF#8 then
          if (a = 0xE0 ∧ b < 0xA0#8) ∨ (a = 0xED ∧ 0x9F#8 < b) then none else some 3
        else if 0xF0#8 ≤ a ∧ a ≤ 0xF4#8 then
          if (a = 0xF0 ∧ b < 0x90#8) ∨ (a = 0xF4 ∧ 0x8F#8 < b) ∨ rest = [] ∨
            ¬ (rest.take 1).all isTail then none else some 4
        else none
      | _ => none

def encodeRune (n : ℕ) : Bytes :=
  let tail (k : ℕ) : BitVec 8 := .ofNat 8 (0x80 + n / 64 ^ k % 64)
  if n < 0x80 then [.ofNat 8 n]
  else if n < 0x800 then [.ofNat 8 (0xC0 + n / 64), tail 0]
  else if n < 0x10000 then [.ofNat 8 (0xE0 + n / 64 ^ 2), tail 1, tail 0]
  else [.ofNat 8 (0xF0 + n / 64 ^ 3), tail 2, tail 1, tail 0]

/-- What stands for anything that is not a character. -/
def replacement : Bytes := encodeRune 0xFFFD

def hexValueOf (digits : Bytes) : ℕ := digits.foldl (fun n b ↦ 16 * n + (hexDigitValue b).getD 0) 0

/-- The text that is written with escapes. So many bytes of a character are still to be copied. -/
def unquote : ℕ → Bytes → Bytes
  | _, [] => []
  | k + 1, b :: rest => b :: unquote k rest
  | 0, b :: rest =>
    if b = 0x5C then
      match rest with
      | 0x75 :: h₁ :: h₂ :: h₃ :: h₄ :: rest =>
        let r := hexValueOf [h₁, h₂, h₃, h₄]
        if r < 0xD800 ∨ 0xDFFF < r then encodeRune r ++ unquote 0 rest
        else
          -- Half of a pair, which is worth nothing without the other half behind it.
          match rest with
          | s :: u :: g₁ :: g₂ :: g₃ :: g₄ :: rest' =>
            let r' := hexValueOf [g₁, g₂, g₃, g₄]
            if s = 0x5C ∧ u = 0x75 ∧ r < 0xDC00 ∧ 0xDC00 ≤ r' ∧ r' ≤ 0xDFFF then
              encodeRune (0x10000 + (r - 0xD800) * 1024 + (r' - 0xDC00)) ++ unquote 0 rest'
            else replacement ++ unquote 0 (s :: u :: g₁ :: g₂ :: g₃ :: g₄ :: rest')
          | rest => replacement ++ unquote 0 rest
      | e :: rest => (simpleEscapes.lookup e).toList ++ unquote 0 rest
      | [] => []
    else
      match utf8Length (b :: rest) with
      | some n => b :: unquote (n - 1) rest
      | none => replacement ++ unquote 0 rest

/-- Names are compared without regard to case. Beyond ASCII, the long `s` and the Kelvin sign are
taken for letters. -/
def foldName : Bytes → Bytes
  | 0xC5 :: 0xBF :: rest => 0x53 :: foldName rest
  | 0xE2 :: 0x84 :: 0xAA :: rest => 0x4B :: foldName rest
  | b :: rest => (if 0x61#8 ≤ b ∧ b ≤ 0x7A#8 then b - 32 else b) :: foldName rest
  | [] => []

/-! ## Records -/

/-- A field of a record, and what is done with a value that has its name. -/
structure Field (ρ : Type) where
  name : Bytes
  store : Document → ρ → Option ρ

variable {ρ : Type}

def Field.text (name : String) (set : Bytes → ρ → ρ) : Field ρ where
  name := ascii name
  store v r :=
    match v with
    | null => some r
    | str raw => some (set (unquote 0 raw) r)
    | _ => none

/-- The text of a time is not unquoted before it is read. -/
def Field.time (parse : Bytes → Option ℤ) (name : String) (set : ℤ → ρ → ρ) : Field ρ where
  name := ascii name
  store v r :=
    match v with
    | null => some r
    | str raw => (parse raw).map (set · r)
    | _ => none

/-- Members with other names are ignored, and for one name the last counts. -/
def readRecord (fields : List (Field ρ)) (zero : ρ) (members : List (Bytes × Document)) :
    Option ρ :=
  members.foldlM (fun r m ↦
    let name := unquote 0 m.1
    match (fields.find? fun f ↦ f.name = name) <|>
      fields.find? fun f ↦ foldName f.name = foldName name with
    | none => some r
    | some f => f.store m.2 r) zero

variable (read : List (Bytes × Document) → Option ρ)

def readPointer : Document → Option (Option ρ)
  | null => some none
  | obj members => (read members).map some
  | _ => none

def readMap :
    Document → Option (Option (AList fun _ : Bytes ↦ Option ρ))
  | null => some none
  | obj members =>
    (members.foldlM (fun map m ↦ (readPointer read m.2).map fun r ↦ map.insert (unquote 0 m.1) r)
      (∅ : AList fun _ : Bytes ↦ Option ρ)).map some
  | _ => none

end Document

end Machine
