import Gocracker.Machine.Text

/-!
# Json texts

The text that `encoding/json` makes of a value: no white space, strings with escapes, and the
members of an object in the order in which they are given. It is unambiguous: different values have
different texts (`Json.render_injective`). So what is compared or hashed as a text is compared as a
value.

The proof reads a value from the front of a text, together with what follows it. A string, a list
and an object have an end of their own; a number ends where something follows that is no part of a
number.
-/

namespace Machine

open List Option

inductive Json where
  | null
  | bool (b : Bool)
  | num (n : ℤ)
  | str (s : String)
  | arr (xs : List Json)
  | obj (members : List (String × Json))

/-! ## Strings -/

/-- An escape with four hexadecimal digits, of which the first two are zero. -/
def escapeHex (c : Char) : List Char :=
  ['\\', 'u', '0', '0', hexDigit (Fin.ofNat 16 (c.toNat / 16)),
    hexDigit (Fin.ofNat 16 (c.toNat % 16))]

/-- A character within a string. -/
def escapeChar (c : Char) : List Char :=
  if c = '"' then ['\\', '"']
  else if c = '\\' then ['\\', '\\']
  else if c = '\x08' then ['\\', 'b']
  else if c = '\x0c' then ['\\', 'f']
  else if c = '\n' then ['\\', 'n']
  else if c = '\r' then ['\\', 'r']
  else if c = '\t' then ['\\', 't']
  else if c.toNat < 32 ∨ c = '<' ∨ c = '>' ∨ c = '&' then escapeHex c
  else if c = '\u2028' then ['\\', 'u', '2', '0', '2', '8']
  else if c = '\u2029' then ['\\', 'u', '2', '0', '2', '9']
  else [c]

/-- Read a character back, with what follows it. -/
def unescapeChar : List Char → Option (Char × List Char)
  | '\\' :: 'u' :: '0' :: '0' :: h :: l :: rest =>
    some (Char.ofNat (16 * hexValue h + hexValue l), rest)
  | '\\' :: 'u' :: '2' :: '0' :: '2' :: '8' :: rest => some ('\u2028', rest)
  | '\\' :: 'u' :: '2' :: '0' :: '2' :: '9' :: rest => some ('\u2029', rest)
  | '\\' :: 'b' :: rest => some ('\x08', rest)
  | '\\' :: 'f' :: rest => some ('\x0c', rest)
  | '\\' :: 'n' :: rest => some ('\n', rest)
  | '\\' :: 'r' :: rest => some ('\r', rest)
  | '\\' :: 't' :: rest => some ('\t', rest)
  | '\\' :: c :: rest | c :: rest => some (c, rest)
  | [] => none

variable {c : Char}

theorem unescapeChar_escapeHex (h : c.toNat < 256) (rest : List Char) :
    unescapeChar (escapeHex c ++ rest) = some (c, rest) := by
  have hhigh : hexValue (hexDigit (Fin.ofNat 16 (c.toNat / 16))) = c.toNat / 16 :=
    hexValue_hexDigit_ofNat (by omega)
  have hlow : hexValue (hexDigit (Fin.ofNat 16 (c.toNat % 16))) = c.toNat % 16 :=
    hexValue_hexDigit_ofNat (by omega)
  have hvalue : Char.ofNat (16 * (c.toNat / 16) + c.toNat % 16) = c := by
    rw [Nat.div_add_mod, Char.ofNat_toNat]
  simp only [escapeHex, cons_append, nil_append, unescapeChar, hhigh, hlow, hvalue]

theorem unescapeChar_of_ne (h : c ≠ '\\') (rest : List Char) :
    unescapeChar (c :: rest) = some (c, rest) := by
  unfold unescapeChar
  split
  case h_10 heq =>
    obtain ⟨rfl, rfl⟩ := List.cons.inj heq
    rfl
  case h_11 heq => exact absurd heq (cons_ne_nil _ _)
  -- All the other patterns are escapes.
  all_goals
    rename_i heq
    exact absurd (List.cons.inj heq).1 h

def ownEscapes : List Char := ['"', '\\', '\x08', '\x0c', '\n', '\r', '\t', '\u2028', '\u2029']

theorem escapeChar_cases (c : Char) :
    c ∈ ownEscapes ∨ (c.toNat < 256 ∧ escapeChar c = escapeHex c) ∨
      (c ≠ '"' ∧ c ≠ '\\' ∧ escapeChar c = [c]) := by
  by_cases hown : c ∈ ownEscapes
  · exact .inl hown
  simp only [ownEscapes, mem_cons, not_mem_nil, or_false, not_or] at hown
  obtain ⟨hquote, hback, hb, hf, hn, hr, ht, h28, h29⟩ := hown
  rw [escapeChar, if_neg hquote, if_neg hback, if_neg hb, if_neg hf, if_neg hn, if_neg hr,
    if_neg ht, if_neg h28, if_neg h29]
  by_cases hhex : c.toNat < 32 ∨ c = '<' ∨ c = '>' ∨ c = '&'
  · refine .inr (.inl ⟨?_, if_pos hhex⟩)
    rcases hhex with hlt | rfl | rfl | rfl
    · omega
    · decide
    · decide
    · decide
  · exact .inr (.inr ⟨hquote, hback, if_neg hhex⟩)

/-- **A character is read back** from its escape. -/
theorem unescapeChar_escapeChar (c : Char) (rest : List Char) :
    unescapeChar (escapeChar c ++ rest) = some (c, rest) := by
  rcases escapeChar_cases c with hown | ⟨hlt, hhex⟩ | ⟨-, hback, hplain⟩
  · simp only [ownEscapes, mem_cons, not_mem_nil, or_false] at hown
    rcases hown with rfl | rfl | rfl | rfl | rfl | rfl | rfl | rfl | rfl <;> rfl
  · rw [hhex, unescapeChar_escapeHex hlt]
  · rw [hplain]
    exact unescapeChar_of_ne hback rest

theorem exists_escapeChar_eq_cons (c : Char) : ∃ d ds, escapeChar c = d :: ds ∧ d ≠ '"' := by
  rcases escapeChar_cases c with hown | ⟨-, hhex⟩ | ⟨hquote, -, hplain⟩
  · simp only [ownEscapes, mem_cons, not_mem_nil, or_false] at hown
    rcases hown with rfl | rfl | rfl | rfl | rfl | rfl | rfl | rfl | rfl <;>
      exact ⟨'\\', _, rfl, by decide⟩
  · exact ⟨'\\', _, hhex, by decide⟩
  · exact ⟨c, [], hplain, hquote⟩

def closeString (s : List Char) : List Char := s.flatMap escapeChar ++ ['"']

theorem closeString_append_inj {a b s t : List Char}
    (h : closeString a ++ s = closeString b ++ t) : a = b ∧ s = t := by
  have hcons : ∀ (c : Char) (a s : List Char),
      closeString (c :: a) ++ s = escapeChar c ++ (closeString a ++ s) := by
    simp [closeString]
  have hfirst : ∀ (c : Char) (a s t : List Char),
      closeString [] ++ t ≠ closeString (c :: a) ++ s := by
    intro c a s t heq
    rw [hcons] at heq
    obtain ⟨d, ds, hd, hne⟩ := exists_escapeChar_eq_cons c
    rw [hd] at heq
    exact hne (List.cons.inj heq).1.symm
  induction a generalizing b with
  | nil =>
    cases b with
    | nil => exact ⟨rfl, (append_cancel_left h)⟩
    | cons d b => exact absurd h (hfirst d b t s)
  | cons c a ih =>
    cases b with
    | nil => exact absurd h.symm (hfirst c a s t)
    | cons d b =>
      rw [hcons, hcons] at h
      have hread := congrArg unescapeChar h
      rw [unescapeChar_escapeChar, unescapeChar_escapeChar, Option.some.injEq,
        Prod.mk.injEq] at hread
      obtain ⟨hab, hst⟩ := ih hread.2
      exact ⟨by rw [hread.1, hab], hst⟩

def quote (s : String) : List Char := '"' :: closeString s.toList

theorem quote_append_inj {a b : String} {s t : List Char} (h : quote a ++ s = quote b ++ t) :
    a = b ∧ s = t := by
  obtain ⟨hab, hst⟩ := closeString_append_inj (List.cons.inj h).2
  exact ⟨String.toList_inj.mp hab, hst⟩

/-! ## Values -/

/-- What follows a value: nothing that could be part of a number. -/
def Ends (s : List Char) : Prop := ∀ c ∈ s.head?, ¬IsNumeric c

namespace Json

mutual

def render : Json → List Char
  | null => ['n', 'u', 'l', 'l']
  | bool true => ['t', 'r', 'u', 'e']
  | bool false => ['f', 'a', 'l', 's', 'e']
  | num n => n.repr.toList
  | str s => quote s
  | arr [] => ['[', ']']
  | arr (x :: xs) => '[' :: (render x ++ renderElements xs)
  | obj [] => ['\x7b', '\x7d']
  | obj ((k, v) :: members) => '\x7b' :: (quote k ++ ':' :: (render v ++ renderMembers members))

/-- The elements after the first one, and the bracket behind them. -/
def renderElements : List Json → List Char
  | [] => [']']
  | x :: xs => ',' :: (render x ++ renderElements xs)

/-- The members after the first one, and the brace behind them. -/
def renderMembers : List (String × Json) → List Char
  | [] => ['\x7d']
  | (k, v) :: members => ',' :: (quote k ++ ':' :: (render v ++ renderMembers members))

end

def kindOf (c : Char) : ℕ :=
  if c = 'n' then 0
  else if c = 't' ∨ c = 'f' then 1
  else if c = '"' then 3
  else if c = '[' then 4
  else if c = '\x7b' then 5
  else if c.isDigit ∨ c = '-' then 2
  else 6

def kind : Json → ℕ
  | null => 0
  | bool _ => 1
  | num _ => 2
  | str _ => 3
  | arr _ => 4
  | obj _ => 5

def OfKind (v : Json) : ℕ → Prop
  | 0 => v = null
  | 1 => ∃ b, v = bool b
  | 2 => ∃ n, v = num n
  | 3 => ∃ s, v = str s
  | 4 => ∃ xs, v = arr xs
  | _ => ∃ members, v = obj members

theorem ofKind_kind : ∀ v : Json, v.OfKind v.kind
  | null => rfl
  | bool b => ⟨b, rfl⟩
  | num n => ⟨n, rfl⟩
  | str s => ⟨s, rfl⟩
  | arr xs => ⟨xs, rfl⟩
  | obj members => ⟨members, rfl⟩

theorem kindOf_of_isNumeric (h : IsNumeric c) : kindOf c = 2 := by
  have hne : ∀ d ∈ ['n', 't', 'f', '"', '[', '\x7b'], c ≠ d := by
    rintro d hd rfl
    revert h
    unfold IsNumeric
    fin_cases hd <;> decide
  unfold kindOf
  simp_all [IsNumeric]

theorem map_kindOf_head_render (v : Json) (s : List Char) :
    (v.render ++ s).head?.map kindOf = some v.kind := by
  match v with
  | null | bool true | bool false => simp only [render]; rfl
  | num n =>
    obtain ⟨c, cs, hc⟩ := exists_cons_of_ne_nil (int_repr_ne_nil n)
    have hnum : IsNumeric c := isNumeric_of_mem_int_repr (by rw [hc]; exact mem_cons_self)
    rw [render, hc, cons_append, head?_cons, map_some, kindOf_of_isNumeric hnum]
    rfl
  | str s | arr [] | arr (x :: xs) | obj [] | obj ((k, v) :: members) => simp only [render]; rfl

theorem render_append_ne_close (v : Json) (s t : List Char) : v.render ++ s ≠ ']' :: t := by
  intro h
  have hhead := map_kindOf_head_render v s
  rw [h] at hhead
  have hkind : v.kind = 6 := (Option.some.inj hhead).symm
  cases v <;> simp [kind] at hkind

theorem ends_renderElements (xs : List Json) (s : List Char) : Ends (renderElements xs ++ s) := by
  cases xs <;> simp [renderElements, Ends, IsNumeric]

theorem ends_renderMembers (members : List (String × Json)) (s : List Char) :
    Ends (renderMembers members ++ s) := by
  cases members <;> simp [renderMembers, Ends, IsNumeric]

mutual

/-- **A value is read back** together with what follows it. -/
theorem render_append_inj : ∀ (v w : Json) {s t : List Char}, Ends s → Ends t →
    v.render ++ s = w.render ++ t → v = w ∧ s = t
  | v, w, s, t, hs, ht, h => by
    -- The first characters agree, so `w` is of the kind of `v`.
    have hkind : w.OfKind v.kind := by
      have hhead := congrArg (fun l ↦ l.head?.map kindOf) h
      simp only [map_kindOf_head_render, Option.some.injEq] at hhead
      rw [hhead]
      exact ofKind_kind w
    match v with
    | null =>
      obtain rfl : w = null := hkind
      exact ⟨rfl, append_cancel_left h⟩
    | bool true =>
      obtain ⟨b, rfl⟩ := hkind
      cases b with
      | true => exact ⟨rfl, append_cancel_left h⟩
      | false => simp [render] at h
    | bool false =>
      obtain ⟨b, rfl⟩ := hkind
      cases b with
      | true => simp [render] at h
      | false => exact ⟨rfl, append_cancel_left h⟩
    | num m =>
      obtain ⟨n, rfl⟩ := hkind
      rw [render] at h
      obtain ⟨hmn, hst⟩ := append_inj_of_forall (fun _ ↦ isNumeric_of_mem_int_repr)
        (fun _ ↦ isNumeric_of_mem_int_repr) hs ht h
      exact ⟨congrArg num (int_eq_of_toList_repr hmn), hst⟩
    | str a =>
      obtain ⟨b, rfl⟩ := hkind
      rw [render] at h
      obtain ⟨rfl, hst⟩ := quote_append_inj h
      exact ⟨rfl, hst⟩
    | arr [] =>
      obtain ⟨ys, rfl⟩ := hkind
      cases ys with
      | nil => exact ⟨rfl, append_cancel_left h⟩
      | cons y ys =>
        simp only [render, cons_append, append_assoc] at h
        exact absurd (List.cons.inj h).2.symm (render_append_ne_close y _ _)
    | arr (x :: xs) =>
      obtain ⟨ys, rfl⟩ := hkind
      cases ys with
      | nil =>
        simp only [render, cons_append, append_assoc] at h
        exact absurd (List.cons.inj h).2 (render_append_ne_close x _ _)
      | cons y ys =>
        refine (renderElements_append_inj (x :: xs) (y :: ys) ?_).imp_left (congrArg arr)
        simp only [render, renderElements, cons_append] at h ⊢
        rw [(List.cons.inj h).2]
    | obj [] =>
      obtain ⟨ns, rfl⟩ := hkind
      cases ns with
      | nil => exact ⟨rfl, append_cancel_left h⟩
      | cons n ns => simp [render, quote] at h
    | obj ((k, v) :: ms) =>
      obtain ⟨ns, rfl⟩ := hkind
      cases ns with
      | nil => simp [render, quote] at h
      | cons n ns =>
        refine (renderMembers_append_inj ((k, v) :: ms) (n :: ns) ?_).imp_left (congrArg obj)
        simp only [render, renderMembers, cons_append] at h ⊢
        rw [(List.cons.inj h).2]

theorem renderElements_append_inj : ∀ (xs ys : List Json) {s t : List Char},
    renderElements xs ++ s = renderElements ys ++ t → xs = ys ∧ s = t
  | [], [], _, _, h => ⟨rfl, append_cancel_left h⟩
  | [], y :: ys, _, _, h | x :: xs, [], _, _, h => by simp [renderElements] at h
  | x :: xs, y :: ys, s, t, h => by
    simp only [renderElements, cons_append, append_assoc] at h
    obtain ⟨rfl, hrest⟩ := render_append_inj x y (ends_renderElements xs s)
      (ends_renderElements ys t) (List.cons.inj h).2
    obtain ⟨rfl, hst⟩ := renderElements_append_inj xs ys hrest
    exact ⟨rfl, hst⟩

theorem renderMembers_append_inj : ∀ (ms ns : List (String × Json)) {s t : List Char},
    renderMembers ms ++ s = renderMembers ns ++ t → ms = ns ∧ s = t
  | [], [], _, _, h => ⟨rfl, append_cancel_left h⟩
  | [], (l, w) :: ns, _, _, h | (k, v) :: ms, [], _, _, h => by simp [renderMembers] at h
  | (k, v) :: ms, (l, w) :: ns, s, t, h => by
    simp only [renderMembers, cons_append, append_assoc] at h
    obtain ⟨rfl, hvalue⟩ := quote_append_inj (List.cons.inj h).2
    obtain ⟨rfl, hrest⟩ := render_append_inj v w (ends_renderMembers ms s)
      (ends_renderMembers ns t) (List.cons.inj hvalue).2
    obtain ⟨rfl, hst⟩ := renderMembers_append_inj ms ns hrest
    exact ⟨rfl, hst⟩

end

/-- **Different values have different texts.** -/
theorem render_injective : Function.Injective render := by
  intro v w h
  have hends : Ends [] := by simp [Ends]
  have happ : v.render ++ [] = w.render ++ [] := by rw [h]
  exact (render_append_inj v w hends hends happ).1

/-! ## Records -/

/-- An object with the given members, of which those without a value are left out. -/
def record (fields : List (String × Option Json)) : Json :=
  obj (fields.filterMap fun f ↦ f.2.map (f.1, ·))

theorem mem_keys_of_mem_filterMap {fields : List (String × Option Json)} {m : String × Json}
    (h : m ∈ fields.filterMap fun f ↦ f.2.map (f.1, ·)) : m.1 ∈ fields.map Prod.fst := by
  obtain ⟨f, hf, hm⟩ := mem_filterMap.mp h
  obtain ⟨v, -, rfl⟩ := map_eq_some_iff.mp hm
  exact List.mem_map_of_mem hf

/-- **A record is known** by its text, even if members are left out. -/
theorem record_inj {fs gs : List (String × Option Json)} (hkeys : fs.map Prod.fst = gs.map Prod.fst)
    (hnodup : (fs.map Prod.fst).Nodup) (h : record fs = record gs) : fs = gs := by
  have hmembers := obj.inj h
  clear h
  induction fs generalizing gs with
  | nil => exact (map_eq_nil_iff.mp hkeys.symm).symm
  | cons f fs ih =>
    obtain ⟨g, gs, rfl⟩ : ∃ g gs', gs = g :: gs' :=
      exists_cons_of_ne_nil fun hnil ↦ by simp [hnil] at hkeys
    obtain ⟨k, o⟩ := f
    obtain ⟨l, o'⟩ := g
    rw [map_cons, map_cons, List.cons.injEq] at hkeys
    obtain ⟨rfl, hrest⟩ := hkeys
    obtain ⟨hfresh, hnodup'⟩ := nodup_cons.mp hnodup
    -- A member that is there on one side only would have to be a later one on the other.
    match o, o' with
    | none, none =>
      rw [ih hrest hnodup' hmembers]
    | some v, some w =>
      simp only [filterMap_cons, map_some, List.cons.injEq, Prod.mk.injEq] at hmembers
      rw [hmembers.1.2, ih hrest hnodup' hmembers.2]
    | none, some w =>
      simp only [filterMap_cons, map_none] at hmembers
      have hmem : (k, w) ∈ fs.filterMap fun f ↦ f.2.map (f.1, ·) := by
        rw [hmembers]
        exact mem_cons_self
      exact absurd (mem_keys_of_mem_filterMap hmem) hfresh
    | some v, none =>
      simp only [filterMap_cons, map_none] at hmembers
      have hmem : (k, v) ∈ gs.filterMap fun f ↦ f.2.map (f.1, ·) := by
        rw [← hmembers]
        exact mem_cons_self
      exact absurd (hrest ▸ mem_keys_of_mem_filterMap hmem) hfresh

/-- The value of a member that is left out if it is the zero value. -/
def omitEmpty {α : Type*} [DecidableEq α] (zero : α) (f : α → Json) (a : α) : Option Json :=
  if a = zero then none else some (f a)

variable {α : Type*}

variable {f : α → Json}

section

variable (hf : Function.Injective f)
include hf

theorem omitEmpty_injective [DecidableEq α] {zero : α}
    : Function.Injective (omitEmpty zero f) := by
  intro a b h
  unfold omitEmpty at h
  split_ifs at h with ha hb hb
  · rw [ha, hb]
  · exact hf (Option.some.inj h)

/-- A list, element by element. -/
def list {α : Type*} (f : α → Json) (as : List α) : Json := arr (as.map f)

theorem list_injective : Function.Injective (list f) :=
  fun _ _ h ↦ map_injective_iff.mpr hf (arr.inj h)

/-- A slice: null, if it has no elements. -/
def slice {α : Type*} (f : α → Json) : List α → Json
  | [] => null
  | a :: as => list f (a :: as)

theorem slice_injective : Function.Injective (slice f)
  | [], [], _ => rfl
  | _ :: _, _ :: _, h => list_injective hf h

def pointer {α : Type*} (f : α → Json) : Option α → Json
  | none => null
  | some a => f a

theorem pointer_injective (hnull : ∀ a, f a ≠ null) : Function.Injective (pointer f)
  | none, none, _ => rfl
  | none, some b, h => absurd h.symm (hnull b)
  | some a, none, h => absurd h (hnull a)
  | some _, some _, h => congrArg some (hf h)

end

def nat (n : ℕ) : Json := num n

theorem nat_injective : Function.Injective nat := fun _ _ h ↦ Int.ofNat.inj (num.inj h)

theorem num_injective : Function.Injective num := fun _ _ ↦ num.inj

theorem str_injective : Function.Injective str := fun _ _ ↦ str.inj

theorem bool_injective : Function.Injective bool := fun _ _ ↦ bool.inj

end Json

end Machine
