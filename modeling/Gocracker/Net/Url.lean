import Gocracker.Machine.Ascii

/-!
# URLs

The part of `net/url` that a request goes through: percent-encoding of paths, and the two forms in
which a path is kept. `path` is the decoded form. `rawPath` is the form in which the path was
written, and is kept only if it is not the one that encoding the path would give.

What is written out again is `escapedPath`: the form in which the path was written if it is kept and
still fits the path, and the encoded path otherwise. Encoding and decoding again gives the same text
(`unescape_escape`), decoding and encoding again does not: more than one form stands for a text.
-/

namespace Net

open Machine List

def percent : BitVec 8 := 0x25
def slash : BitVec 8 := 0x2F
def question : BitVec 8 := 0x3F
def hash : BitVec 8 := 0x23

/-! ## Percent-encoding -/

variable (b : BitVec 8)

def isAlphanumeric : Bool :=
  (0x61 ≤ b && b ≤ 0x7A) || (0x41 ≤ b && b ≤ 0x5A) || (0x30 ≤ b && b ≤ 0x39)

def shouldEscape : Bool :=
  !(isAlphanumeric b || (ascii "-_.~$&+,/:;=@").contains b)

/-- `validEncoded` for one byte of a path: some more characters may stand for themselves. -/
def mayStand : Bool := (ascii "!'()*[]%").contains b || !shouldEscape b

def validEncoded (t : Bytes) : Bool := t.all mayStand

/-- Upper-case digits. -/
def hexDigit (n : ℕ) : BitVec 8 := BitVec.ofNat 8 (if n < 10 then 48 + n else 55 + n)

def hexValue : Option ℕ :=
  if 0x30 ≤ b ∧ b ≤ 0x39 then some (b.toNat - 48)
  else if 0x61 ≤ b ∧ b ≤ 0x66 then some (b.toNat - 87)
  else if 0x41 ≤ b ∧ b ≤ 0x46 then some (b.toNat - 55)
  else none

def escapeByte : Bytes :=
  if shouldEscape b then [percent, hexDigit (b.toNat / 16), hexDigit (b.toNat % 16)] else [b]

def escape (t : Bytes) : Bytes := t.flatMap escapeByte

def unescape : Bytes → Option Bytes
  | [] => some []
  | b :: rest =>
    if b = percent then
      match rest with
      | h :: l :: rest =>
        match hexValue h, hexValue l with
        | some h, some l => (unescape rest).map fun t ↦ BitVec.ofNat 8 (16 * h + l) :: t
        | _, _ => none
      | _ => none
    else (unescape rest).map fun t ↦ b :: t

theorem hexValue_hexDigit {n : ℕ} (h : n < 16) : hexValue (hexDigit n) = some n := by
  have hall : ∀ n : Fin 16, hexValue (hexDigit n.val) = some n.val := by decide
  exact hall ⟨n, h⟩

theorem unescape_cons_of_ne {b : BitVec 8} (h : b ≠ percent) (rest : Bytes) :
    unescape (b :: rest) = (unescape rest).map fun t ↦ b :: t := by
  rw [unescape.eq_def]
  exact if_neg h

/-- An encoded byte is read off the front. -/
theorem unescape_escapeByte (rest : Bytes) :
    unescape (escapeByte b ++ rest) = (unescape rest).map fun t ↦ b :: t := by
  rw [escapeByte]
  split_ifs with hescape
  · have hvalue : BitVec.ofNat 8 (16 * (b.toNat / 16) + b.toNat % 16) = b := by
      rw [Nat.div_add_mod, BitVec.ofNat_toNat, BitVec.setWidth_eq]
    simp only [cons_append, nil_append, unescape, if_true]
    rw [hexValue_hexDigit (by omega), hexValue_hexDigit (by omega)]
    simp only [hvalue]
  · have hne : b ≠ percent := by
      rintro rfl
      exact hescape (by decide)
    exact unescape_cons_of_ne hne rest

/-- **What was encoded is decoded.** -/
theorem unescape_escape (t : Bytes) : unescape (escape t) = some t := by
  induction t with
  | nil => rfl
  | cons b t ih =>
    rw [escape, flatMap_cons, unescape_escapeByte, ← escape, ih]
    rfl

variable {t : Bytes}

theorem unescape_of_notMem (h : percent ∉ t) : unescape t = some t := by
  induction t with
  | nil => rfl
  | cons b t ih =>
    have hb : b ≠ percent := fun heq ↦ h (heq ▸ mem_cons_self)
    rw [unescape_cons_of_ne hb, ih fun hmem ↦ h (mem_cons_of_mem b hmem)]
    rfl

/-- What decodes to something, decodes to it in front of anything. -/
theorem unescape_append {a a' : Bytes} (h : unescape a = some a') (t : Bytes) :
    unescape (a ++ t) = (unescape t).map fun u ↦ a' ++ u := by
  fun_induction unescape a generalizing a' with
  | case1 =>
    cases h
    exact (Option.map_id' ..).symm
  | case2 d l rest y x hl hd ih =>
    obtain ⟨a', ha', rfl⟩ := Option.map_eq_some_iff.mp h
    simp only [cons_append, unescape, if_true, hl, hd, ih ha', Option.map_map]
    rfl
  | case3 => cases h
  | case4 => cases h
  | case5 b rest hb ih =>
    obtain ⟨a', ha', rfl⟩ := Option.map_eq_some_iff.mp h
    rw [cons_append, unescape_cons_of_ne hb, ih ha', Option.map_map]
    rfl

/-- Each percent sign stands for itself and two digits. -/
theorem length_of_unescape {a a' : Bytes} (h : unescape a = some a') :
    a.length = a'.length + 2 * a.count percent := by
  fun_induction unescape a generalizing a' with
  | case1 =>
    cases h
    rfl
  | case2 d l rest y x hl hd ih =>
    obtain ⟨a', ha', rfl⟩ := Option.map_eq_some_iff.mp h
    have hne {b : BitVec 8} {n : ℕ} (hb : hexValue b = some n) : b ≠ percent := by
      rintro rfl
      cases hb
    rw [count_cons_self, count_cons_of_ne (hne hd), count_cons_of_ne (hne hl)]
    simp only [length_cons, ih ha']
    omega
  | case3 => cases h
  | case4 => cases h
  | case5 b rest hb ih =>
    obtain ⟨a', ha', rfl⟩ := Option.map_eq_some_iff.mp h
    rw [count_cons_of_ne hb, length_cons, length_cons, ih ha']
    omega

theorem escape_append (a b : Bytes) : escape (a ++ b) = escape a ++ escape b := flatMap_append

theorem escape_of_forall (h : ∀ b ∈ t, shouldEscape b = false) : escape t = t := by
  induction t with
  | nil => rfl
  | cons b t ih =>
    rw [escape, flatMap_cons, ← escape, ih fun c hc ↦ h c (mem_cons_of_mem b hc),
      escapeByte, h b mem_cons_self]
    rfl

variable {c : BitVec 8}

theorem mayStand_of_mem_escape (h : c ∈ escape t) : mayStand c = true := by
  have hstand {c : BitVec 8} (h : shouldEscape c = false) : mayStand c = true := by
    rw [mayStand, h, Bool.not_false, Bool.or_true]
  obtain ⟨b, -, hc⟩ := mem_flatMap.mp h
  rw [escapeByte] at hc
  split_ifs at hc with hb
  · have hhex : ∀ n : Fin 16, shouldEscape (hexDigit n.val) = false := by decide
    rcases mem_cons.mp hc with rfl | hc
    · decide
    rcases mem_cons.mp hc with rfl | hc
    · exact hstand (hhex ⟨b.toNat / 16, by omega⟩)
    · rw [mem_singleton.mp hc]
      exact hstand (hhex ⟨b.toNat % 16, by omega⟩)
  · rw [mem_singleton.mp hc]
    exact hstand (Bool.eq_false_iff.mpr hb)

/-- The form in which a path without percent signs comes out: as it is if it may stand. -/
def written (t : Bytes) : Bytes := if validEncoded t then t else escape t

theorem mayStand_of_mem_written (h : c ∈ written t) : mayStand c = true := by
  rw [written] at h
  split_ifs at h with hvalid
  · exact all_eq_true.mp hvalid c h
  · exact mayStand_of_mem_escape h

theorem unescape_written (h : percent ∉ t) : unescape (written t) = some t := by
  rw [written]
  split_ifs
  · exact unescape_of_notMem h
  · exact unescape_escape t

/-! ## URLs -/

/-- `url.URL` without a scheme, a host and a fragment. -/
structure Url where
  path : Bytes
  rawPath : Bytes
  rawQuery : Bytes
  forceQuery : Bool
  deriving DecidableEq

namespace Url

def escapedPath (u : Url) : Bytes :=
  if u.rawPath ≠ [] ∧ validEncoded u.rawPath ∧ unescape u.rawPath = some u.path then u.rawPath
  else if u.path = ascii "*" then ascii "*"
  else escape u.path

def requestURI (u : Url) : Bytes :=
  (if u.escapedPath = [] then [slash] else u.escapedPath) ++
    if u.forceQuery ∨ u.rawQuery ≠ [] then question :: u.rawQuery else []

end Url

/-- A query behind a path, if there is one. -/
def queryTail : Option Bytes → Bytes
  | none => []
  | some q => question :: q

/-- A control character: URLs with one are refused. -/
def isControl (b : BitVec 8) : Bool := b < 0x20 || b = 0x7F

/-- The path and the query. A question mark at the end stays if it is the only one. -/
def splitQuery (t : Bytes) : Bytes × Bytes × Bool :=
  match cutAt question t with
  | (first, none) => (first, [], false)
  | (first, some []) => (first, [], true)
  | (first, some query) => (first, query, false)

/-- `setPath`, and what is known of the query. -/
def ofParts : Bytes × Bytes × Bool → Option Url
  | (p, query, force) =>
    (unescape p).map fun path ↦
      { path := path
        rawPath := if escape path = p then [] else p
        rawQuery := query
        forceQuery := force }

/-- `ParseRequestURI`, for a request to an origin server: the target is a path. -/
def parseRequestURI (target : Bytes) : Option Url :=
  if target.any isControl ∨ target.head? ≠ some slash then none else ofParts (splitQuery target)

/-- `Parse` of a URL, from behind its host on. The fragment is cut off. -/
def parseBehindHost (t : Bytes) : Option Url :=
  let (first, fragment) := cutAt hash t
  if first.any isControl then none
  else if unescape (fragment.getD []) = none then none
  else ofParts (splitQuery first)

variable {p : Bytes}

theorem exists_splitQuery (t : Bytes) :
    ∃ query force, splitQuery t = ((cutAt question t).1, query, force) := by
  rw [splitQuery]
  split <;> rename_i heq <;> exact ⟨_, _, by rw [heq]⟩

theorem splitQuery_append (h : question ∉ p) (query : Option Bytes) :
    splitQuery (p ++ queryTail query) = (p, query.getD [], decide (query = some [])) := by
  match query with
  | none => rw [queryTail, append_nil, splitQuery, cutAt_of_notMem h]; rfl
  | some [] | some (b :: q) => rw [queryTail, splitQuery, cutAt_append_cons h]; rfl

variable {force : Bool}

theorem ofParts_of_unescape {path query : Bytes} (h : unescape p = some path) :
    ofParts (p, query, force) = some ⟨path, if escape path = p then [] else p, query, force⟩ := by
  rw [ofParts, h, Option.map_some]

namespace Url

variable (u : Url)

/-- Whichever form is written, it is the path that is read in it. -/
theorem unescape_escapedPath : unescape u.escapedPath = some u.path := by
  rw [escapedPath]
  split_ifs with hraw hstar
  · exact hraw.2.2
  · rw [hstar]
    decide
  · exact unescape_escape u.path

theorem escapedPath_ne_nil {u : Url} (h : u.path ≠ []) : u.escapedPath ≠ [] := by
  intro hnil
  have hpath := u.unescape_escapedPath
  rw [hnil] at hpath
  exact h (Option.some.inj hpath).symm

theorem question_notMem_escapedPath : question ∉ u.escapedPath := by
  rw [escapedPath]
  split_ifs with hraw hstar
  · intro h
    exact absurd (all_eq_true.mp hraw.2.1 question h) (by decide)
  · decide
  · intro h
    exact absurd (mayStand_of_mem_escape h) (by decide)

theorem escapedPath_of_rawPath_eq_nil {u : Url} (hraw : u.rawPath = [])
    (hstar : u.path ≠ ascii "*") : u.escapedPath = escape u.path := by
  rw [escapedPath, if_neg fun h ↦ h.1 hraw, if_neg hstar]

theorem escapedPath_of_notMem {path query : Bytes} (h : percent ∉ path) (hstar : path ≠ ascii "*") :
    escapedPath ⟨path, if escape path = path then [] else path, query, force⟩ = written path := by
  rw [escapedPath, written]
  by_cases hescape : escape path = path
  · rw [if_pos hescape, if_neg fun h ↦ h.1 rfl, if_neg hstar, hescape, ite_self]
  have hne : path ≠ [] := by
    rintro rfl
    exact hescape rfl
  simp only [if_neg hescape, unescape_of_notMem h, ne_eq, hne, not_false_eq_true, true_and,
    and_true, if_neg hstar]

theorem requestURI_eq (h : u.escapedPath ≠ []) : u.requestURI =
      u.escapedPath ++
        queryTail (if u.forceQuery ∨ u.rawQuery ≠ [] then some u.rawQuery else none) := by
  rw [requestURI, if_neg h]
  split_ifs <;> rfl

theorem requestURI_of_query {path raw : Bytes} {query : Option Bytes} (h : path ≠ []) :
    requestURI ⟨path, raw, query.getD [], decide (query = some [])⟩ =
      escapedPath ⟨path, raw, query.getD [], decide (query = some [])⟩ ++ queryTail query := by
  rw [requestURI_eq _ (escapedPath_ne_nil h)]
  match query with
  | none | some [] | some (b :: q) => rfl

theorem getD_query :
    (if u.forceQuery ∨ u.rawQuery ≠ [] then some u.rawQuery else none).getD [] = u.rawQuery := by
  split_ifs with hquery
  · rfl
  · exact (Classical.not_not.mp (not_or.mp hquery).2).symm

theorem of_parseRequestURI {u v : Url} (h : u.escapedPath ≠ [])
    (hparse : parseRequestURI u.requestURI = some v) :
    v.path = u.path ∧ v.rawQuery = u.rawQuery := by
  obtain ⟨-, hparse⟩ := Option.ite_none_left_eq_some.mp hparse
  rw [requestURI_eq u h, splitQuery_append u.question_notMem_escapedPath,
    ofParts_of_unescape u.unescape_escapedPath] at hparse
  obtain ⟨⟩ := hparse
  exact ⟨rfl, u.getD_query⟩

end Url

/-! ## Clean paths -/

/-- A path with these segments. -/
def rooted (segs : List Bytes) : Bytes := segs.flatMap fun seg ↦ slash :: seg

/-- `path.Clean`, one segment. -/
def cleanStep (stack : List Bytes) (seg : Bytes) : List Bytes :=
  if seg = [] ∨ seg = ascii "." then stack
  else if seg = ascii ".." then stack.dropLast
  else stack ++ [seg]

/-- `cleanPath` of the request multiplexer: a slash at the end is kept. -/
def cleanPath (p : Bytes) : Bytes :=
  let stack := (p.splitOn slash).foldl cleanStep []
  if stack = [] then [slash]
  else if p.getLast? = some slash then rooted stack ++ [slash]
  else rooted stack

/-- Neither empty nor one of the two special segments. -/
structure IsPlain (seg : Bytes) : Prop where
  ne_nil : seg ≠ []
  ne_dot : seg ≠ ascii "."
  ne_dots : seg ≠ ascii ".."
  slash_notMem : slash ∉ seg

theorem rooted_append (a b : List Bytes) : rooted (a ++ b) = rooted a ++ rooted b := flatMap_append

theorem escape_rooted (segs : List Bytes) : escape (rooted segs) = rooted (segs.map escape) := by
  induction segs with
  | nil => rfl
  | cons seg segs ih =>
    rw [rooted, flatMap_cons, ← rooted, escape_append, ih]
    rfl

theorem intercalate_cons (seg : Bytes) (segs : List Bytes) :
    [slash].intercalate (seg :: segs) = seg ++ rooted segs := by
  induction segs generalizing seg with
  | nil => simp [rooted]
  | cons next segs ih =>
    have hnext := ih next
    rw [List.intercalate, intersperse_cons_cons, flatten_cons, flatten_cons,
      ← List.intercalate, hnext]
    rfl

variable {segs : List Bytes}

theorem splitOn_rooted (h : ∀ seg ∈ segs, slash ∉ seg) :
    (rooted segs).splitOn slash = [] :: segs := by
  have hfree : ∀ seg ∈ [] :: segs, slash ∉ seg := by
    intro seg hseg
    rcases mem_cons.mp hseg with rfl | hseg
    · exact not_mem_nil
    · exact h seg hseg
  rw [← nil_append (rooted segs), ← intercalate_cons]
  exact splitOn_intercalate slash hfree (cons_ne_nil _ _)

variable {seg : Bytes}

theorem slash_mem_escape_iff : slash ∈ escape seg ↔ slash ∈ seg := by
  have hall : ∀ b, slash ∈ escapeByte b ↔ slash = b := by decide +kernel
  simp only [escape, mem_flatMap, hall, exists_eq_right']

/-- What is special is its own encoding. -/
theorem escape_eq_iff {t : Bytes} (ht : escape t = t) : escape seg = t ↔ seg = t := by
  refine ⟨fun heq ↦ ?_, fun heq ↦ heq ▸ ht⟩
  have hseg := unescape_escape seg
  rw [heq, ← ht, unescape_escape] at hseg
  exact (Option.some.inj hseg).symm

theorem isPlain_escape_iff : IsPlain (escape seg) ↔ IsPlain seg := by
  have hnil : escape seg = [] ↔ seg = [] := escape_eq_iff rfl
  have hdot : escape seg = ascii "." ↔ seg = ascii "." := escape_eq_iff (by decide)
  have hdots : escape seg = ascii ".." ↔ seg = ascii ".." := escape_eq_iff (by decide)
  constructor
  · rintro ⟨h₁, h₂, h₃, h₄⟩
    exact ⟨mt hnil.mpr h₁, mt hdot.mpr h₂, mt hdots.mpr h₃, mt slash_mem_escape_iff.mpr h₄⟩
  · rintro ⟨h₁, h₂, h₃, h₄⟩
    exact ⟨mt hnil.mp h₁, mt hdot.mp h₂, mt hdots.mp h₃, mt slash_mem_escape_iff.mp h₄⟩

variable {stack : List Bytes}

theorem cleanStep_of_isPlain (h : IsPlain seg) : cleanStep stack seg = stack ++ [seg] := by
  rw [cleanStep, if_neg fun hor ↦ hor.elim h.ne_nil h.ne_dot, if_neg h.ne_dots]

theorem foldl_cleanStep (h : ∀ seg ∈ segs, IsPlain seg) (stack : List Bytes) :
    segs.foldl cleanStep stack = stack ++ segs := by
  induction segs generalizing stack with
  | nil => exact (append_nil stack).symm
  | cons seg segs ih =>
    rw [foldl_cons, cleanStep_of_isPlain (h seg mem_cons_self),
      ih fun s hs ↦ h s (mem_cons_of_mem seg hs), append_assoc, singleton_append]

theorem isPlain_of_mem_foldl (hsegs : ∀ seg ∈ segs, slash ∉ seg)
    (hstack : ∀ seg ∈ stack, IsPlain seg) : ∀ seg ∈ segs.foldl cleanStep stack, IsPlain seg := by
  induction segs generalizing stack with
  | nil => exact hstack
  | cons seg segs ih =>
    refine ih (fun s hs ↦ hsegs s (mem_cons_of_mem seg hs)) fun s hs ↦ ?_
    rw [cleanStep] at hs
    split_ifs at hs with hskip hdots
    · exact hstack s hs
    · exact hstack s (dropLast_subset _ hs)
    rcases mem_append.mp hs with hs | hs
    · exact hstack s hs
    · rw [mem_singleton.mp hs]
      exact ⟨fun h ↦ hskip (.inl h), fun h ↦ hskip (.inr h), hdots, hsegs seg mem_cons_self⟩

theorem getLast?_rooted_of_isPlain {front : List Bytes} (h : IsPlain seg) :
    (rooted (front ++ [seg])).getLast? ≠ some slash := by
  intro hlast
  have hone : rooted [seg] = [slash] ++ seg := append_nil _
  rw [rooted_append, hone, ← append_assoc, getLast?_append_of_ne_nil _ h.ne_nil] at hlast
  exact h.slash_notMem (mem_of_getLast? hlast)

variable {front : List Bytes} {last : Bytes}

/-- **Clean paths are those of plain segments**, with or without a slash behind them. -/
theorem cleanPath_rooted_iff (hfree : ∀ seg ∈ front ++ [last], slash ∉ seg) :
    cleanPath (rooted (front ++ [last])) = rooted (front ++ [last]) ↔
      (∀ seg ∈ front, IsPlain seg) ∧ (last = [] ∨ IsPlain last) := by
  have hone : rooted [[]] = [slash] := rfl
  have hinj (segs : List Bytes) (hsegs : ∀ seg ∈ segs, IsPlain seg ∨ seg = [])
      (h : rooted segs = rooted (front ++ [last])) : segs = front ++ [last] := by
    have hsplit := congrArg (List.splitOn slash) h
    rw [splitOn_rooted hfree, splitOn_rooted fun seg hseg ↦ (hsegs seg hseg).elim
      IsPlain.slash_notMem fun hnil ↦ hnil ▸ not_mem_nil] at hsplit
    exact (cons.inj hsplit).2
  rw [cleanPath, splitOn_rooted hfree]
  refine ⟨fun h ↦ ?_, ?_⟩
  · have hplain : ∀ seg ∈ ([] :: (front ++ [last])).foldl cleanStep [], IsPlain seg :=
      isPlain_of_mem_foldl (forall_mem_cons.mpr ⟨not_mem_nil, hfree⟩) nofun
    generalize ([] :: (front ++ [last])).foldl cleanStep [] = stack at h hplain
    split_ifs at h with hstack hlast
    · obtain ⟨rfl, hnil⟩ := append_inj' (hinj ([] ++ [[]]) (by simp) h) rfl
      exact ⟨nofun, .inl (singleton_inj.mp hnil).symm⟩
    · rw [← hone, ← rooted_append] at h
      have hsegs : ∀ seg ∈ stack ++ [[]], IsPlain seg ∨ seg = [] :=
        forall_mem_append.mpr ⟨fun seg hseg ↦ .inl (hplain seg hseg), by simp⟩
      obtain ⟨rfl, hnil⟩ := append_inj' (hinj _ hsegs h) rfl
      exact ⟨hplain, .inl (singleton_inj.mp hnil).symm⟩
    · obtain rfl := hinj stack (fun seg hseg ↦ .inl (hplain seg hseg)) h
      exact ⟨fun seg hseg ↦ hplain seg (mem_append_left _ hseg), .inr (hplain last (by simp))⟩
  · rintro ⟨hfront, rfl | hlast⟩
    · have hfold : ([] :: (front ++ [[]])).foldl cleanStep [] = front := by
        rw [foldl_cons, foldl_append]
        exact foldl_cleanStep hfront []
      rw [hfold, rooted_append, hone]
      by_cases hne : front = []
      · rw [hne]
        rfl
      · simp only [if_neg hne, getLast?_concat, if_true]
    · have hfold : ([] :: (front ++ [last])).foldl cleanStep [] = front ++ [last] :=
        foldl_cleanStep (forall_mem_append.mpr ⟨hfront, by simpa using hlast⟩) []
      rw [hfold]
      simp only [if_neg (getLast?_rooted_of_isPlain hlast)]
      rw [if_neg (by simp)]

theorem exists_rooted (h : p.head? = some slash) : ∃ front last,
    p = rooted (front ++ [last]) ∧ ∀ seg ∈ front ++ [last], slash ∉ seg := by
  obtain ⟨t, rfl⟩ := head?_eq_some_iff.mp h
  obtain ⟨front, last, hsplit⟩ := (eq_nil_or_concat' (t.splitOn slash)).resolve_left
    (splitOnP_ne_nil _ t)
  refine ⟨front, last, ?_, fun seg hseg ↦ notMem_of_mem_splitOn (hsplit ▸ hseg)⟩
  obtain ⟨seg, segs, hcons⟩ := exists_cons_of_ne_nil (splitOnP_ne_nil (· == slash) t)
  have hjoin := intercalate_cons seg segs
  rw [← hcons, ← List.splitOn, intercalate_splitOn] at hjoin
  rw [← hsplit, List.splitOn, hcons, hjoin]
  rfl

theorem cleanPath_append_iff (hfront : ∀ seg ∈ front, IsPlain seg) (hp : p.head? = some slash) :
    cleanPath (rooted front ++ p) = rooted front ++ p ↔ cleanPath p = p := by
  obtain ⟨segs, last, rfl, hfree⟩ := exists_rooted hp
  have hfree' : ∀ seg ∈ front ++ segs ++ [last], slash ∉ seg := by
    rw [append_assoc]
    exact forall_mem_append.mpr ⟨fun seg hseg ↦ (hfront seg hseg).slash_notMem, hfree⟩
  rw [← rooted_append, ← append_assoc, cleanPath_rooted_iff hfree', cleanPath_rooted_iff hfree,
    forall_mem_append, and_assoc, and_iff_right hfront]

theorem cleanPath_escape_iff (hp : p.head? = some slash) :
    cleanPath (escape p) = escape p ↔ cleanPath p = p := by
  obtain ⟨segs, last, rfl, hfree⟩ := exists_rooted hp
  have hfree' : ∀ seg ∈ segs.map escape ++ [escape last], slash ∉ seg := by
    rw [← map_singleton, ← map_append]
    exact forall_mem_map.mpr fun seg hseg ↦ mt slash_mem_escape_iff.mp (hfree seg hseg)
  rw [escape_rooted, map_append, map_singleton, cleanPath_rooted_iff hfree',
    cleanPath_rooted_iff hfree, forall_mem_map, isPlain_escape_iff, escape_eq_iff rfl]
  simp only [isPlain_escape_iff]

end Net
