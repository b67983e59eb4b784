import Gocracker.Machine.Fallible
import Gocracker.Net.Url
import Gocracker.Preview.Token

/-!
# The way of a request to a preview

A request to `/previews/<token>/...` goes to the server behind a port of a sandbox in three hops:
the preview handler takes the token off the path, the proxy puts the path behind
`/proxy/http/<port>/` and sends it to the agent in the guest, and the agent makes a URL of the rest
and sends the request to the port.

Every hop decodes the path, and none of them keeps the form in which it was written. The port is
safe: it is in front of everything that the client can choose (`confined`). The path is not. The
agent puts the decoded path into a URL as if it were encoded, so that an encoded question mark
begins a query, an encoded number sign ends the path, and an encoded percent sign is decoded once
more. And what is written in another form than the one in which a path comes out, such as an encoded
slash, comes out in that form.

What comes through as it was sent are exactly the paths without these characters, in the form in
which they come out (`Net.written`), if they are clean or the method is one whose paths are not
cleaned (`relays_iff`).
-/

namespace Gocracker.Preview

open Machine Net List Option Url

/-! ## Requests -/

def space : BitVec 8 := 0x20

structure Request where
  method : Bytes
  target : Bytes
  deriving DecidableEq

/-- What the server behind a port receives. -/
structure Delivery where
  port : ℕ
  method : Bytes
  target : Bytes
  deriving DecidableEq

/-- How a request ends that is not delivered. -/
inductive Answer where
  | refused (status : ℕ)
  /-- To the clean path. -/
  | redirected
  /-- Not for this handler. -/
  | elsewhere
  deriving DecidableEq

/-- Reading the first line of a request. -/
def receive (target : Bytes) : Except Answer Url :=
  if space ∈ target then .error (.refused 400)
  else
    match parseRequestURI target with
    | none => .error (.refused 400)
    | some u => .ok u

def connect : Bytes := ascii "CONNECT"

/-- Segments are compared in decoded form. -/
def pathUnescape (seg : Bytes) : Bytes := (unescape seg).getD seg

/-- `ServeMux`, for a handler of everything below a path. -/
def route (front : List Bytes) (method : Bytes) (u : Url) : Except Answer Unit :=
  let segs := (u.escapedPath.splitOn slash).tail
  if method ≠ connect ∧ cleanPath u.escapedPath ≠ u.escapedPath then .error .redirected
  else if front.length < segs.length ∧ (segs.take front.length).map pathUnescape = front then .ok ()
  else .error .elsewhere

def trimPrefix (pre t : Bytes) : Bytes := if pre <+: t then t.drop pre.length else t

/-! ## The host -/

/-- What the daemon looks at: its keys, its clock, and its sandboxes. -/
structure Host where
  signer : Signer
  now : Time
  found : Bytes → Bool
  reachable : Bytes → Bool

namespace Host

def servePreview (host : Host) (u : Url) : Except Answer (TokenPayload × Url) :=
  let (token, rest) := cutAt slash (trimPrefix (ascii "/previews/") u.path)
  if token = [] then .error (.refused 400)
  else
    let subPath := slash :: rest.getD []
    match host.signer.verify host.now token with
    | none => .error (.refused 401)
    | some payload =>
      -- the form in which the path was written stays, though it is no longer that of the path
      .ok (payload, { u with
        path := subPath
        rawQuery := (cutAt question subPath).2.getD u.rawQuery })

end Host

/-- `newPath`: the port stands in front of the path. -/
def agentPath (path : Bytes) (guestPort : BitVec 16) : Bytes :=
  ascii "/proxy/http/" ++ (formatUint guestPort.toNat ++
    slash :: trimPrefix [slash] (if path = [] then [slash] else path))

def writeProxyRequestToAgent (u : Url) (guestPort : BitVec 16) : Except Answer Bytes :=
  let target := requestURI { u with path := agentPath u.path guestPort }
  if target.any isControl then .error (.refused 502) else .ok target

variable (host : Host)

def Host.serveRequest (payload : TokenPayload) (u : Url) : Except Answer Bytes :=
  if host.found payload.sandboxID = false then .error (.refused 404)
  else if host.reachable payload.sandboxID = false then .error (.refused 502)
  else writeProxyRequestToAgent u payload.port

/-! ## The guest -/

/-- A path and a query that need not be there. -/
def withQuery (p q : Bytes) : Bytes := p ++ queryTail (if q = [] then none else some q)

/-- The URL of the server is put together from the decoded path and the raw query. -/
def handleHTTPProxy (u : Url) : Except Answer (ℕ × Bytes) :=
  let (first, rest) := cutAt slash (trimPrefix (ascii "/proxy/http/") u.path)
  match parseInt 64 first with
  | none => .error (.refused 400)
  | some port =>
    if port ≤ 0 ∨ 65535 < port then .error (.refused 400)
    else
      match parseBehindHost (withQuery (slash :: rest.getD []) u.rawQuery) with
      | none => .error (.refused 500)
      | some v =>
        if v.requestURI.any isControl then .error (.refused 502)
        else .ok (port.toNat, v.requestURI)

/-! ## The whole way -/

def Host.relay (req : Request) : Except Answer Delivery := do
  let u ← receive req.target
  route [ascii "previews"] req.method u
  let (payload, u) ← host.servePreview u
  let target ← host.serveRequest payload u
  let u ← receive target
  route [ascii "proxy", ascii "http"] req.method u
  let (port, target) ← handleHTTPProxy u
  return ⟨port, req.method, target⟩

/-- A request under a token. -/
def previewTarget (token p : Bytes) (query : Option Bytes) : Bytes :=
  ascii "/previews/" ++ (token ++ p) ++ queryTail query

def tokenOf (path : Bytes) : Bytes := (cutAt slash (trimPrefix (ascii "/previews/") path)).1

namespace Host

/-- **Port confinement**: whatever is delivered goes to the port of the token of the request. -/
def Confined : Prop :=
  ∀ req delivery, host.relay req = .ok delivery →
    ∃ u payload, parseRequestURI req.target = some u ∧
      host.signer.verify host.now (tokenOf u.path) = some payload ∧
      delivery.port = payload.port.toNat ∧ delivery.method = req.method

/-- **Fidelity** for one request: it is delivered to the port, with path and query as they were
sent. -/
def Relays (payload : TokenPayload) (method token p : Bytes) (query : Option Bytes) :
    Prop :=
  host.relay ⟨method, previewTarget token p query⟩ =
    .ok ⟨payload.port.toNat, method, withQuery p (query.getD [])⟩
deriving Decidable

end Host

/-! ## Prefixes -/

theorem trimPrefix_append (pre t : Bytes) : trimPrefix pre (pre ++ t) = t := by
  rw [trimPrefix, if_pos (prefix_append pre t), drop_left]

theorem agentPath_ne_nil (path : Bytes) (port : BitVec 16) : agentPath path port ≠ [] :=
  append_ne_nil_of_left_ne_nil (by decide) _

theorem agentPath_cons (t : Bytes) (port : BitVec 16) : agentPath (slash :: t) port =
      ascii "/proxy/http/" ++ (formatUint port.toNat ++ slash :: t) := by
  rw [agentPath]
  exact congrArg (fun u ↦ ascii "/proxy/http/" ++ (formatUint port.toNat ++ slash :: u))
    (trimPrefix_append [slash] t)

theorem slash_notMem_formatUint (n : ℕ) : slash ∉ formatUint n := by
  intro h
  exact absurd (toNat_of_mem_formatUint h).1 (by decide)

theorem parseInt_formatUint {n : ℕ} (h : n < 2 ^ 16) : parseInt 64 (formatUint n) = some (n : ℤ) :=
  parseInt_formatInt (n := Int.ofNat n) (by decide) (by simp only [Int.ofNat_eq_natCast]; omega)
    (by simp only [Int.ofNat_eq_natCast]; omega)

/-! ## Confinement -/

variable {target t : Bytes} {u : Url}

theorem of_receive (h : receive target = .ok u) :
    space ∉ target ∧ parseRequestURI target = some u := by
  rw [receive] at h
  split_ifs at h with hspace
  split at h
  · nomatch h
  · rename_i v hv
    exact ⟨hspace, (Except.ok.inj h) ▸ hv⟩

theorem of_handleHTTPProxy {n port : ℕ} {rest : Bytes} (hn : n < 2 ^ 16)
    (hpath : u.path = ascii "/proxy/http/" ++ (formatUint n ++ slash :: rest))
    (h : handleHTTPProxy u = .ok (port, target)) : port = n ∧ ∃ v,
      parseBehindHost (withQuery (slash :: rest) u.rawQuery) = some v ∧ target = v.requestURI := by
  simp only [handleHTTPProxy, hpath, trimPrefix_append,
    cutAt_append_cons (slash_notMem_formatUint n),
    parseInt_formatUint hn] at h
  split_ifs at h
  split at h
  · nomatch h
  · rename_i v hv
    split_ifs at h
    obtain ⟨rfl, rfl⟩ := Prod.mk.inj (Except.ok.inj h)
    exact ⟨rfl, v, hv, rfl⟩

namespace Host

variable {host : Host} {payload : TokenPayload} {v : Url}

theorem of_servePreview (h : host.servePreview u = .ok (payload, v)) :
    host.signer.verify host.now (tokenOf u.path) = some payload ∧
      ∃ t, (cutAt slash (trimPrefix (ascii "/previews/") u.path)).2.getD [] = t ∧
        v = { u with
          path := slash :: t
          rawQuery := (cutAt question (slash :: t)).2.getD u.rawQuery } := by
  simp only [servePreview] at h
  split_ifs at h
  split at h
  · nomatch h
  · rename_i p hp
    obtain ⟨rfl, rfl⟩ := Prod.mk.inj (Except.ok.inj h)
    exact ⟨hp, _, rfl, rfl⟩

/-- What comes out at the end is read in the path and the query that the host sends on. -/
theorem of_relay {req : Request} {delivery : Delivery} (h : host.relay req = .ok delivery) :
    ∃ u payload v t x, receive req.target = .ok u ∧ route [ascii "previews"] req.method u = .ok () ∧
      host.servePreview u = .ok (payload, v) ∧ v.path = slash :: t ∧
      delivery.port = payload.port.toNat ∧ delivery.method = req.method ∧
      parseBehindHost (withQuery v.path v.rawQuery) = some x ∧ delivery.target = x.requestURI := by
  obtain ⟨u, hu, h⟩ := bind_eq_ok.mp h
  obtain ⟨_, hroute, h⟩ := bind_eq_ok.mp h
  obtain ⟨⟨payload, v⟩, hserve, h⟩ := bind_eq_ok.mp h
  obtain ⟨target, htarget, h⟩ := bind_eq_ok.mp h
  obtain ⟨w, hw, h⟩ := bind_eq_ok.mp h
  obtain ⟨-, -, h⟩ := bind_eq_ok.mp h
  obtain ⟨⟨port, sent⟩, hproxy, h⟩ := bind_eq_ok.mp h
  obtain ⟨⟩ := h
  rw [serveRequest] at htarget
  simp only [writeProxyRequestToAgent] at htarget
  split_ifs at htarget
  obtain ⟨⟩ := htarget
  obtain ⟨-, t, -, rfl⟩ := of_servePreview hserve
  -- the agent reads the port, the path and the query in what it is sent
  obtain ⟨hpath, hquery⟩ := of_parseRequestURI (escapedPath_ne_nil (agentPath_ne_nil _ _))
    (of_receive hw).2
  rw [agentPath_cons] at hpath
  obtain ⟨hport, x, hx, hsent⟩ := of_handleHTTPProxy payload.port.isLt hpath hproxy
  rw [hquery] at hx
  exact ⟨u, payload, _, t, x, hu, hroute, hserve, rfl, hport, rfl, hx, hsent⟩

/-- The port is chosen by the token, whatever the client sends. -/
theorem confined (host : Host) : host.Confined := by
  intro req delivery h
  obtain ⟨u, payload, v, t, x, hu, -, hserve, -, hport, hmethod, -⟩ := of_relay h
  exact ⟨u, payload, (of_receive hu).2, (of_servePreview hserve).1, hport, hmethod⟩

end Host

/-! ## Fidelity -/

/-- What can be sent in the first line of a request. -/
structure Sendable (t : Bytes) : Prop where
  space_notMem : space ∉ t
  no_control : t.any isControl = false

/-- A decoded path whose characters all mean themselves in a URL. -/
structure Transparent (d : Bytes) : Prop where
  head : d.head? = some slash
  question_notMem : question ∉ d
  hash_notMem : hash ∉ d
  percent_notMem : percent ∉ d
  no_control : d.any isControl = false

/-- A token as a segment of a path, which may be encoded. -/
structure TokenSegment (seg token : Bytes) : Prop where
  unescape : Net.unescape seg = some token
  sendable : Sendable seg
  question_notMem : question ∉ seg
  slash_notMem : slash ∉ seg
  slash_notMem_token : slash ∉ token

theorem Sendable.append {a b : Bytes} (ha : Sendable a) (hb : Sendable b) : Sendable (a ++ b) where
  space_notMem h := (mem_append.mp h).elim ha.space_notMem hb.space_notMem
  no_control := by rw [any_append, ha.no_control, hb.no_control, Bool.or_false]

theorem Sendable.mono {a : Bytes} (h : Sendable t) (hsub : a ⊆ t) : Sendable a where
  space_notMem hmem := h.space_notMem (hsub hmem)
  no_control := List.any_eq_false.mpr fun b hb ↦ List.any_eq_false.mp h.no_control b (hsub hb)

theorem sendable_of_mayStand (h : ∀ b ∈ t, mayStand b = true) : Sendable t := by
  refine ⟨fun hmem ↦ absurd (h space hmem) (by decide), any_eq_false.mpr fun b hb ↦ ?_⟩
  have hall : ∀ b, mayStand b = true → ¬ isControl b = true := by decide +kernel
  exact hall b (h b hb)

theorem sendable_queryTail {query : Option Bytes} (h : Sendable (query.getD [])) :
    Sendable (queryTail query) := by
  match query with
  | none => exact h
  | some q =>
    have hquestion : Sendable [question] := ⟨by decide, by decide⟩
    exact hquestion.append h

theorem receive_append {raw path : Bytes} {query : Option Bytes}
    (hstand : ∀ b ∈ raw, mayStand b = true) (hhead : raw.head? = some slash)
    (hquery : Sendable (query.getD [])) (hpath : unescape raw = some path) :
    receive (raw ++ queryTail query) =
      .ok ⟨path, if escape path = raw then [] else raw, query.getD [],
        decide (query = some [])⟩ := by
  have hsend := (sendable_of_mayStand hstand).append (sendable_queryTail hquery)
  have hquestion : question ∉ raw := fun hmem ↦ absurd (hstand question hmem) (by decide)
  have hhead' : (raw ++ queryTail query).head? = some slash := by
    rw [head?_append, hhead]
    rfl
  rw [receive, if_neg hsend.space_notMem, parseRequestURI, hsend.no_control, hhead',
    if_neg (by simp), splitQuery_append hquestion, ofParts_of_unescape hpath]

theorem route_eq_ok {front : List Bytes} {method : Bytes}
    (hfront : ∀ seg ∈ front, slash ∉ seg ∧ percent ∉ seg)
    (hpath : u.escapedPath = rooted front ++ slash :: t)
    (hclean : method = connect ∨ cleanPath u.escapedPath = u.escapedPath) :
    route front method u = .ok () := by
  have hsegs : (u.escapedPath.splitOn slash).tail = front ++ t.splitOn slash := by
    have hslash : (slash == slash) = true := rfl
    rw [hpath, List.splitOn, splitOnP_append_cons (p := fun b ↦ b == slash) _ _ hslash,
      ← List.splitOn, splitOn_rooted fun seg hseg ↦ (hfront seg hseg).1]
    rfl
  have hpos : 0 < (t.splitOn slash).length := length_pos_iff.mpr (splitOnP_ne_nil _ t)
  have hsame : front.map pathUnescape = front := by
    refine (map_congr_left fun seg hseg ↦ ?_).trans (List.map_id front)
    rw [pathUnescape, unescape_of_notMem (hfront seg hseg).2]
    rfl
  rw [route, hsegs]
  rw [if_neg fun h ↦ hclean.elim h.1 h.2, if_pos]
  refine ⟨?_, ?_⟩
  · rw [length_append]
    omega
  · rw [take_left, hsame]

/-! ### The parts of the two paths -/

theorem previews_append (token t : Bytes) :
    ascii "/previews/" ++ (token ++ t) = rooted [ascii "previews", token] ++ t := by
  have htext : ascii "/previews/" = slash :: ascii "previews" ++ [slash] := by decide
  rw [htext]
  simp [rooted]

theorem escape_formatUint (n : ℕ) : escape (formatUint n) = formatUint n := by
  refine escape_of_forall fun b hb ↦ ?_
  have hall : ∀ b : BitVec 8, 48 ≤ b.toNat ∧ b.toNat ≤ 57 → shouldEscape b = false := by
    decide +kernel
  exact hall b (toNat_of_mem_formatUint hb)

theorem ne_star_of_head (h : t.head? = some slash) : t ≠ ascii "*" := by
  rintro rfl
  exact absurd h (by decide)

theorem isPlain_formatUint (n : ℕ) : IsPlain (formatUint n) where
  ne_nil := formatUint_ne_nil n
  ne_dot h := absurd (toNat_of_mem_formatUint (h ▸ mem_singleton.mpr rfl :
    (0x2E : BitVec 8) ∈ formatUint n)).1 (by decide)
  ne_dots h := absurd (toNat_of_mem_formatUint (h ▸ mem_cons_self :
    (0x2E : BitVec 8) ∈ formatUint n)).1 (by decide)
  slash_notMem := slash_notMem_formatUint n

section Way

variable {host : Host} {payload : TokenPayload} {method seg token p d : Bytes}
  {query : Option Bytes}

theorem isPlain_of_verify (hverify : host.signer.verify host.now token = some payload)
    (hslash : slash ∉ token) : IsPlain token := by
  have hne (h : (cutAt dot token).1 = []) : False := by
    rw [Signer.verify_eq_none h] at hverify
    nomatch hverify
  refine ⟨?_, ?_, ?_, hslash⟩
  · rintro rfl
    exact hne rfl
  · rintro rfl
    exact hne (by decide)
  · rintro rfl
    exact hne (by decide)

theorem TokenSegment.isPlain (hseg : TokenSegment seg token) (htoken : IsPlain token) :
    IsPlain seg := by
  have hsame {t : Bytes} (ht : percent ∉ t) (h : seg = t) : token = t := by
    have hback := hseg.unescape
    rw [h, unescape_of_notMem ht] at hback
    exact (Option.some.inj hback).symm
  exact ⟨fun h ↦ htoken.ne_nil (hsame (by decide) h), fun h ↦ htoken.ne_dot (hsame (by decide) h),
    fun h ↦ htoken.ne_dots (hsame (by decide) h), hseg.slash_notMem⟩

/-! ### The first hop -/

/-- What the host reads in a request under a token. -/
def previewUrl (seg token p d : Bytes) (query : Option Bytes) : Url :=
  let raw := rooted [ascii "previews", seg] ++ p
  let path := rooted [ascii "previews", token] ++ d
  ⟨path, if escape path = raw then [] else raw, query.getD [], decide (query = some [])⟩

theorem unescape_previews (hseg : TokenSegment seg token) (p : Bytes) :
    unescape (rooted [ascii "previews", seg] ++ p) =
      (unescape p).map fun d ↦ rooted [ascii "previews", token] ++ d := by
  have hfront := unescape_of_notMem (by decide : percent ∉ ascii "/previews/")
  have hsame : unescape (rooted [ascii "previews", seg]) =
      some (rooted [ascii "previews", token]) := by
    rw [← append_nil (rooted [ascii "previews", seg]), ← previews_append, append_nil,
      unescape_append hfront, hseg.unescape, ← append_nil (rooted _), ← previews_append, append_nil]
    rfl
  exact unescape_append hsame p

/-- A request line under a token is read if everything in it can be sent and decoded. -/
theorem receive_previewTarget_iff (hseg : TokenSegment seg token) (hp : question ∉ p) {u : Url} :
    receive (previewTarget seg p query) = .ok u ↔ Sendable (previewTarget seg p query) ∧
      ∃ d, unescape p = some d ∧ u = previewUrl seg token p d query := by
  have hquestion : question ∉ rooted [ascii "previews", seg] ++ p := by
    rw [← previews_append, mem_append, mem_append, not_or, not_or]
    exact ⟨by decide, hseg.question_notMem, hp⟩
  have hhead : (previewTarget seg p query).head? = some slash := rfl
  have hsplit := splitQuery_append hquestion query
  rw [← previews_append, ← previewTarget, previews_append] at hsplit
  constructor
  · intro h
    obtain ⟨hspace, hparse⟩ := of_receive h
    obtain ⟨hcontrol, hparse⟩ := ite_none_left_eq_some.mp hparse
    rw [hsplit, ofParts, unescape_previews hseg] at hparse
    obtain ⟨path, hpath, rfl⟩ := map_eq_some_iff.mp hparse
    obtain ⟨d, hd, rfl⟩ := map_eq_some_iff.mp hpath
    exact ⟨⟨hspace, Bool.eq_false_iff.mpr (not_or.mp hcontrol).1⟩, d, hd, rfl⟩
  · rintro ⟨hsend, d, hd, rfl⟩
    rw [receive, if_neg hsend.space_notMem, parseRequestURI, hsend.no_control, hhead,
      if_neg (by simp), hsplit, ofParts, unescape_previews hseg, hd]
    rfl

theorem escapedPath_previewUrl :
    (previewUrl seg token p d query).escapedPath = rooted [ascii "previews", seg] ++ p ∨
      (previewUrl seg token p d query).escapedPath =
        rooted [ascii "previews", escape token] ++ escape d := by
  have hescape : escape (rooted [ascii "previews", token] ++ d) =
      rooted [ascii "previews", escape token] ++ escape d := by
    have hpreviews : escape (ascii "previews") = ascii "previews" := by decide
    rw [escape_append, escape_rooted, map_cons, map_cons, map_nil, hpreviews]
  rw [← hescape, Url.escapedPath, if_neg (ne_star_of_head rfl)]
  split_ifs with hkeep
  · refine .inl ?_
    rw [previewUrl] at hkeep ⊢
    dsimp only at hkeep ⊢
    split_ifs at hkeep ⊢
    · exact absurd rfl hkeep.1
    · rfl
  · exact .inr rfl

theorem cleanPath_written_iff (hd : d.head? = some slash) :
    cleanPath (written d) = written d ↔ cleanPath d = d := by
  rw [written]
  split_ifs
  · rfl
  · exact cleanPath_escape_iff hd

theorem head?_escape (hd : d.head? = some slash) : (escape d).head? = some slash := by
  obtain ⟨t, rfl⟩ := head?_eq_some_iff.mp hd
  rfl

theorem head?_written (hd : d.head? = some slash) : (written d).head? = some slash := by
  rw [written]
  split_ifs
  · exact hd
  · exact head?_escape hd

/-- A path under a token is clean if what is behind the token is. -/
theorem route_previewUrl_iff (hseg : TokenSegment seg token) (htoken : IsPlain token)
    (hhead : d.head? = some slash) :
    route [ascii "previews"] method (previewUrl seg token (written d) d query) = .ok () ↔
      method = connect ∨ cleanPath (written d) = written d := by
  have hpreviews : IsPlain (ascii "previews") := ⟨by decide, by decide, by decide, by decide⟩
  have hfront {seg : Bytes} (hseg : IsPlain seg) : ∀ s ∈ [ascii "previews", seg], IsPlain s :=
    forall_mem_cons.mpr ⟨hpreviews, forall_mem_singleton.mpr hseg⟩
  obtain ⟨t, hpath, hclean⟩ : ∃ t,
      (previewUrl seg token (written d) d query).escapedPath =
        rooted [ascii "previews"] ++ slash :: t ∧
      (cleanPath (previewUrl seg token (written d) d query).escapedPath =
        (previewUrl seg token (written d) d query).escapedPath ↔
          cleanPath (written d) = written d) := by
    rcases @escapedPath_previewUrl seg token (written d) d query with h | h
    · refine ⟨seg ++ written d, by rw [h]; simp [rooted], ?_⟩
      rw [h, cleanPath_append_iff (hfront (hseg.isPlain htoken)) (head?_written hhead)]
    · refine ⟨escape token ++ escape d, by rw [h]; simp [rooted], ?_⟩
      rw [h, cleanPath_append_iff (hfront (isPlain_escape_iff.mpr htoken)) (head?_escape hhead),
        cleanPath_escape_iff hhead, cleanPath_written_iff hhead]
  rw [← hclean]
  refine ⟨fun h ↦ ?_, route_eq_ok (by decide) hpath⟩
  rw [route] at h
  split_ifs at h with hredirect
  exact or_iff_not_imp_left.mpr fun hmethod ↦ by_contra fun hnot ↦ hredirect ⟨hmethod, hnot⟩

/-! ### The other hops -/

variable {t : Bytes} {port : BitVec 16}

theorem path_previewUrl (t : Bytes) : (previewUrl seg token p (slash :: t) query).path =
    ascii "/previews/" ++ (token ++ slash :: t) := (previews_append token (slash :: t)).symm

theorem servePreview_previewUrl (hverify : host.signer.verify host.now token = some payload)
    (htoken : IsPlain token) (hquestion : question ∉ slash :: t) :
    host.servePreview (previewUrl seg token p (slash :: t) query) =
      .ok (payload, { previewUrl seg token p (slash :: t) query with path := slash :: t }) := by
  rw [Host.servePreview, path_previewUrl, trimPrefix_append]
  simp only [cutAt_append_cons htoken.slash_notMem, if_neg htoken.ne_nil, hverify,
    getD_some, cutAt_of_notMem hquestion, getD_none]

/-- The form in which the path was written does not fit the path that the agent is sent. -/
theorem unescape_rawPath_ne (hseg : TokenSegment seg token) (query : Option Bytes)
    (port : BitVec 16) (path : Bytes) :
    unescape (previewUrl seg token p d query).rawPath ≠ some (agentPath path port) := by
  rw [previewUrl]
  dsimp only
  split_ifs
  · exact fun h ↦ agentPath_ne_nil path port (Option.some.inj h).symm
  rw [unescape_previews hseg]
  intro h
  obtain ⟨d, -, hd⟩ := map_eq_some_iff.mp h
  nomatch congrArg (take 4) hd

theorem serveRequest_previewUrl (hfound : host.found payload.sandboxID = true)
    (hreachable : host.reachable payload.sandboxID = true)
    (hseg : TokenSegment seg token) (hquery : Sendable (query.getD [])) :
    host.serveRequest payload { previewUrl seg token p d query with path := d } =
      .ok (escape (agentPath d payload.port) ++ queryTail query) := by
  have hstar : agentPath d payload.port ≠ ascii "*" := ne_star_of_head rfl
  have htarget : requestURI { previewUrl seg token p d query with
      path := agentPath d payload.port } =
        escape (agentPath d payload.port) ++ queryTail query := by
    rw [previewUrl, requestURI_of_query (agentPath_ne_nil _ _)]
    -- the form in which the path came is no longer that of the path
    rw [escapedPath, if_neg fun h ↦ unescape_rawPath_ne hseg query _ _ h.2.2, if_neg hstar]
  have hsend := (sendable_of_mayStand fun _ ↦
    mayStand_of_mem_escape (t := agentPath d payload.port)).append (sendable_queryTail hquery)
  rw [Host.serveRequest, hfound, hreachable, writeProxyRequestToAgent, htarget, hsend.no_control]
  rfl

theorem escape_agentPath (port : BitVec 16) : escape (agentPath (slash :: t) port) =
      rooted [ascii "proxy", ascii "http", formatUint port.toNat] ++ escape (slash :: t) := by
  have htext : ascii "/proxy/http/" =
      slash :: ascii "proxy" ++ (slash :: ascii "http" ++ [slash]) := by decide
  have hpath : agentPath (slash :: t) port =
      rooted [ascii "proxy", ascii "http", formatUint port.toNat] ++ slash :: t := by
    rw [agentPath_cons, htext]
    simp [rooted]
  have hproxy : escape (ascii "proxy") = ascii "proxy" := by decide
  have hhttp : escape (ascii "http") = ascii "http" := by decide
  rw [hpath, escape_append, escape_rooted, map_cons, map_cons, map_cons, map_nil, hproxy, hhttp,
    escape_formatUint]

/-- What the agent reads in the request that it is sent. -/
def agentUrl (port : BitVec 16) (d : Bytes) (query : Option Bytes) : Url :=
  ⟨agentPath d port, [], query.getD [], decide (query = some [])⟩

theorem receive_agentTarget (hquery : Sendable (query.getD [])) :
    receive (escape (agentPath (slash :: t) port) ++ queryTail query) =
      .ok (agentUrl port (slash :: t) query) := by
  have hhead : (escape (agentPath (slash :: t) port)).head? = some slash := by
    rfl
  rw [receive_append (fun _ ↦ mayStand_of_mem_escape) hhead hquery (unescape_escape _), if_pos rfl]
  rfl

theorem any_isControl_withQuery {p q : Bytes} (hp : p.any isControl = false)
    (hq : q.any isControl = false) : (withQuery p q).any isControl = false := by
  rw [withQuery, any_append, hp]
  split_ifs
  · rfl
  · exact hq

theorem parseBehindHost_withQuery {q : Bytes} (hd : Transparent d) (hquery : Sendable q)
    (hhash : hash ∉ q) :
    parseBehindHost (withQuery d q) = some ⟨d, if escape d = d then [] else d, q, false⟩ := by
  have hnot : hash ∉ withQuery d q := by
    intro hmem
    rcases mem_append.mp hmem with hmem | hmem
    · exact hd.hash_notMem hmem
    split_ifs at hmem
    · exact not_mem_nil hmem
    · rcases mem_cons.mp hmem with heq | hmem
      · exact absurd heq (by decide)
      · exact hhash hmem
  have hcontrol := any_isControl_withQuery hd.no_control hquery.no_control
  have hsplit : splitQuery (withQuery d q) = (d, q, false) := by
    rw [withQuery, splitQuery_append hd.question_notMem]
    by_cases hq : q = []
    · rw [hq]
      rfl
    · rw [if_neg hq, getD_some, decide_eq_false fun h ↦ hq (Option.some.inj h)]
  simp only [parseBehindHost, cutAt_of_notMem hnot, hcontrol, hsplit]
  exact ofParts_of_unescape (unescape_of_notMem hd.percent_notMem)

theorem requestURI_withQuery {u : Url} (hpath : u.path ≠ []) (hforce : u.forceQuery = false) :
    u.requestURI = withQuery u.escapedPath u.rawQuery := by
  rw [requestURI_eq u (escapedPath_ne_nil hpath), withQuery, hforce]
  by_cases hq : u.rawQuery = []
  · rw [if_pos hq, if_neg (by simp [hq])]
  · rw [if_neg hq, if_pos (.inr hq)]

theorem handleHTTPProxy_agentUrl (hport : port ≠ 0)
    (hd : Transparent (slash :: t)) (hquery : Sendable (query.getD []))
    (hhash : hash ∉ query.getD []) : handleHTTPProxy (agentUrl port (slash :: t) query) =
      .ok (port.toNat, withQuery (written (slash :: t)) (query.getD [])) := by
  have hrange : ¬ ((port.toNat : ℤ) ≤ 0 ∨ 65535 < (port.toNat : ℤ)) := by
    have hpos : port.toNat ≠ 0 := fun h ↦ hport (BitVec.eq_of_toNat_eq h)
    omega
  have hstar : slash :: t ≠ ascii "*" := ne_star_of_head rfl
  have htarget :
      requestURI ⟨slash :: t, if escape (slash :: t) = slash :: t then [] else slash :: t,
      query.getD [], false⟩ = withQuery (written (slash :: t)) (query.getD []) := by
    rw [requestURI_withQuery (cons_ne_nil _ _) rfl,
      escapedPath_of_notMem hd.percent_notMem hstar]
  have hwritten := sendable_of_mayStand fun _ ↦ mayStand_of_mem_written (t := slash :: t)
  have hcontrol := any_isControl_withQuery hwritten.no_control hquery.no_control
  simp only [handleHTTPProxy, agentUrl, agentPath_cons, trimPrefix_append,
    cutAt_append_cons (slash_notMem_formatUint _), parseInt_formatUint port.isLt, if_neg hrange,
    getD_some, parseBehindHost_withQuery hd hquery hhash, htarget, hcontrol]
  rfl

theorem route_agentUrl
    (hclean : method = connect ∨ cleanPath (written (slash :: t)) = written (slash :: t)) :
    route [ascii "proxy", ascii "http"] method (agentUrl port (slash :: t) query) = .ok () := by
  have hpath : (agentUrl port (slash :: t) query).escapedPath = _ :=
    (escapedPath_of_rawPath_eq_nil rfl (ne_star_of_head rfl)).trans (escape_agentPath port)
  have hfront : ∀ seg ∈ [ascii "proxy", ascii "http", formatUint port.toNat], IsPlain seg := by
    intro seg hseg
    rcases mem_cons.mp hseg with rfl | hseg
    · exact ⟨by decide, by decide, by decide, by decide⟩
    · rcases mem_cons.mp hseg with rfl | hseg
      · exact ⟨by decide, by decide, by decide, by decide⟩
      · exact mem_singleton.mp hseg ▸ isPlain_formatUint port.toNat
  have hsplit : rooted [ascii "proxy", ascii "http", formatUint port.toNat] ++ escape (slash :: t) =
      rooted [ascii "proxy", ascii "http"] ++
        slash :: (formatUint port.toNat ++ escape (slash :: t)) := by
    simp [rooted]
  refine route_eq_ok (by decide) (hpath.trans hsplit) (hclean.imp_right fun h ↦ ?_)
  rw [hpath]
  rwa [cleanPath_append_iff hfront rfl, cleanPath_escape_iff rfl, ← cleanPath_written_iff rfl]

/-- A URL that is written out and read again: what comes before the first question mark is the path,
and the rest is the query. -/
theorem of_requestURI {u : Url} {q : Bytes} (hpath : u.path ≠ []) (hp : question ∉ p)
    (h : withQuery p q = u.requestURI) : p = u.escapedPath ∧ q = u.rawQuery := by
  have hsplit := congrArg splitQuery h
  rw [withQuery, requestURI_eq u (escapedPath_ne_nil hpath), splitQuery_append hp,
    splitQuery_append u.question_notMem_escapedPath] at hsplit
  obtain ⟨hpath, hquery⟩ := Prod.mk.inj hsplit
  have hsame := (Prod.mk.inj hquery).1
  rw [u.getD_query] at hsame
  refine ⟨hpath, ?_⟩
  rw [← hsame]
  by_cases hq : q = []
  · rw [if_pos hq, hq]
    rfl
  · rw [if_neg hq]
    rfl

/-- **What the agent reads**: the path ends at the first question mark or number sign, and is
decoded once more. -/
theorem of_parseBehindHost {q : Bytes} {x : Url} (h : parseBehindHost (withQuery d q) = some x) :
    ∃ a, a <+: d ∧ (d.head? = some slash → a.head? = some slash) ∧ question ∉ a ∧ hash ∉ a ∧
      a.any isControl = false ∧ unescape a = some x.path ∧
      x.rawPath = (if escape x.path = a then [] else a) ∧
      (a = d → hash ∈ q → x.rawQuery ≠ q) := by
  obtain ⟨hfirst, hhash⟩ := isPrefix_fst_cutAt hash (withQuery d q)
  rw [parseBehindHost] at h
  generalize hcut : cutAt hash (withQuery d q) = cut at h hfirst hhash
  obtain ⟨first, fragment⟩ := cut
  dsimp only at h hfirst hhash
  split_ifs at h with hcontrol hfragment
  obtain ⟨ha, hquestion⟩ := isPrefix_fst_cutAt question first
  have hhead (hd : d.head? = some slash) : (cutAt question first).1.head? = some slash := by
    have htext : (withQuery d q).head? = some slash := by
      rw [withQuery, head?_append, hd]
      rfl
    have hfirst := head?_fst_cutAt (by decide : slash ≠ hash) htext
    rw [hcut] at hfirst
    exact head?_fst_cutAt (by decide) hfirst
  obtain ⟨query, force, hparts⟩ := exists_splitQuery first
  generalize (cutAt question first).1 = a at ha hquestion hhead hparts
  rw [hparts] at h
  obtain ⟨path, hpath, rfl⟩ := map_eq_some_iff.mp h
  refine ⟨a, ?_, hhead, hquestion, fun hmem ↦ hhash (ha.subset hmem), ?_, hpath, rfl, ?_⟩
  · -- the path does not go on behind a question mark
    rcases prefix_or_prefix_of_prefix (ha.trans hfirst) (prefix_append d _) with hle | ⟨r, rfl⟩
    · exact hle
    have hr := (prefix_append_right_inj d).mp (ha.trans hfirst)
    cases r with
    | nil => rw [append_nil]
    | cons b r =>
      split_ifs at hr
      · exact absurd (prefix_nil.mp hr) (by simp)
      · obtain ⟨rfl, -⟩ := cons_prefix_cons.mp hr
        exact absurd (mem_append_right d mem_cons_self) hquestion
  · exact List.any_eq_false.mpr fun b hb hcontrolled ↦
      hcontrol (any_eq_true.mpr ⟨b, ha.subset hb, hcontrolled⟩)
  · rintro rfl hmem hquery
    obtain ⟨q₁, q₂, rfl, hq₁⟩ := eq_append_cons_of_mem hmem
    have hnot : hash ∉ a ++ question :: q₁ := by
      rw [mem_append, mem_cons, not_or, not_or]
      exact ⟨fun hmem ↦ hhash (ha.subset hmem), by decide, hq₁⟩
    have htext : withQuery a (q₁ ++ hash :: q₂) = (a ++ question :: q₁) ++ hash :: q₂ := by
      rw [withQuery, if_neg (by simp), queryTail, append_assoc, cons_append]
    rw [htext, cutAt_append_cons hnot] at hcut
    obtain ⟨rfl, -⟩ := Prod.mk.inj hcut
    have hsplit : splitQuery (a ++ question :: q₁) = (a, q₁, _) :=
      splitQuery_append hquestion (some q₁)
    obtain rfl : q₁ = query := (Prod.mk.inj (Prod.mk.inj (hsplit.symm.trans hparts)).2).1
    simp at hquery

/-- A path that comes out as it was sent has no character that means something in a URL. -/
theorem transparent_of_requestURI {q q' : Bytes} {x : Url} (hp : question ∉ p)
    (hd : unescape p = some d) (hx : parseBehindHost (withQuery (slash :: t) q) = some x)
    (h : withQuery p q' = x.requestURI) : d.head? = some slash ∧ (d = slash :: t →
      p = written d ∧ Transparent d ∧ (q = q' → hash ∉ q')) := by
  obtain ⟨a, ha, hhead, hquestion, hhash, hcontrol, hpath, hraw, hquery⟩ := of_parseBehindHost hx
  obtain ⟨a', rfl⟩ := head?_eq_some_iff.mp (hhead rfl)
  obtain ⟨path', hpath', hcons⟩ : ∃ path', unescape a' = some path' ∧ slash :: path' = x.path := by
    rw [unescape_cons_of_ne (by decide)] at hpath
    exact map_eq_some_iff.mp hpath
  obtain ⟨hpx, hqx⟩ := of_requestURI (hcons ▸ cons_ne_nil _ _) hp h
  obtain rfl : d = x.path := by
    rw [hpx, x.unescape_escapedPath] at hd
    exact (Option.some.inj hd).symm
  refine ⟨hcons ▸ rfl, fun hsame ↦ ?_⟩
  -- decoding makes a text shorter, if there is something to decode in it
  have hlength := length_of_unescape hpath
  have hle := ha.length_le
  rw [← hsame] at ha hle
  have hequal : slash :: a' = x.path := ha.eq_of_length (by omega)
  have hpercent : percent ∉ x.path := by
    rw [← hequal]
    exact count_eq_zero.mp (by omega)
  rw [hequal] at hquestion hhash hcontrol hraw
  have hwritten : x.escapedPath = written x.path := by
    have hof := @escapedPath_of_notMem x.forceQuery x.path x.rawQuery hpercent
      (ne_star_of_head (hcons ▸ rfl))
    rwa [← hraw] at hof
  refine ⟨hpx.trans hwritten, ⟨hcons ▸ rfl, hquestion, hhash, hpercent, hcontrol⟩, ?_⟩
  rintro rfl hmem
  exact hquery (hequal.trans hsame) hmem hqx.symm

end Way

/-- **The port of the token, and the path and the query as they were sent.** The port is the right
one for every request. The path and the query are delivered as they were sent exactly if the path is
written in the form in which it comes out, has none of the characters with a meaning, and is clean
or not cleaned, and the query has no number sign. -/
theorem relays_iff {host : Host} {payload : TokenPayload} {method seg token p : Bytes}
    {query : Option Bytes} (hverify : host.signer.verify host.now token = some payload)
    (hseg : TokenSegment seg token) (hfound : host.found payload.sandboxID = true)
    (hreachable : host.reachable payload.sandboxID = true) (hport : payload.port ≠ 0)
    (hp : question ∉ p) :
    host.Confined ∧ (host.Relays payload method seg p query ↔
      (∃ d, p = written d ∧ Transparent d) ∧ Sendable (query.getD []) ∧ hash ∉ query.getD [] ∧
        (method = connect ∨ cleanPath p = p)) := by
  have htoken := isPlain_of_verify hverify hseg.slash_notMem_token
  refine ⟨host.confined, fun h ↦ ?_, ?_⟩
  · obtain ⟨u, payload', v, t, x, hu, hroute, hserve, hv, -, -, hx, htarget⟩ := Host.of_relay h
    obtain ⟨hsend, d, hd, rfl⟩ := (receive_previewTarget_iff hseg hp).mp hu
    rw [hv] at hx
    obtain ⟨hhead, hsame⟩ := transparent_of_requestURI hp hd hx htarget
    obtain ⟨t', rfl⟩ := head?_eq_some_iff.mp hhead
    obtain ⟨-, t'', ht'', rfl⟩ := Host.of_servePreview hserve
    rw [path_previewUrl, trimPrefix_append, cutAt_append_cons htoken.slash_notMem] at ht''
    obtain rfl : t' = t'' := ht''
    obtain rfl : t' = t := (cons.inj hv).2
    obtain ⟨rfl, htransparent, hhash⟩ := hsame rfl
    refine ⟨⟨_, rfl, htransparent⟩, hsend.mono ?_, hhash ?_,
      (route_previewUrl_iff hseg htoken rfl).mp hroute⟩
    · rw [previewTarget]
      match query with
      | none => exact nil_subset _
      | some q => exact fun b hb ↦ mem_append_right _ (mem_cons_of_mem _ hb)
    · rw [cutAt_of_notMem htransparent.question_notMem]
      rfl
  · rintro ⟨⟨d, rfl, hd⟩, hquery, hhash, hclean⟩
    obtain ⟨t, rfl⟩ : ∃ t, d = slash :: t := head?_eq_some_iff.mp hd.head
    have hsend : Sendable (previewTarget seg (written (slash :: t)) query) :=
      ((⟨by decide, by decide⟩ : Sendable (ascii "/previews/")).append (hseg.sendable.append
        (sendable_of_mayStand fun _ ↦ mayStand_of_mem_written))).append (sendable_queryTail hquery)
    exact bind_eq_ok.mpr ⟨_, (receive_previewTarget_iff hseg hp).mpr ⟨hsend, _,
        unescape_written hd.percent_notMem, rfl⟩,
      bind_eq_ok.mpr ⟨_, (route_previewUrl_iff hseg htoken rfl).mpr hclean,
      bind_eq_ok.mpr ⟨_, servePreview_previewUrl hverify htoken hd.question_notMem,
      bind_eq_ok.mpr ⟨_, serveRequest_previewUrl hfound hreachable hseg hquery,
      bind_eq_ok.mpr ⟨_, receive_agentTarget hquery,
      bind_eq_ok.mpr ⟨_, route_agentUrl hclean,
      bind_eq_ok.mpr ⟨_, handleHTTPProxy_agentUrl hport hd hquery hhash, rfl⟩⟩⟩⟩⟩⟩⟩

/-! ## Some requests -/

def oneToken : Host where
  signer := ⟨id, [ordinaryPayload]⟩
  now := ⟨63902822399, 0⟩
  found := fun _ ↦ true
  reachable := fun _ ↦ true

def ordinaryToken : Bytes := oneToken.signer.sign ordinaryPayload

/-- What the host finds in the token: the second of expiry without its fraction. -/
def ordinaryFound : TokenPayload :=
  { ordinaryPayload with expiresAt := ordinaryPayload.expiresAt.whole }

theorem verify_ordinaryToken :
    oneToken.signer.verify oneToken.now ordinaryToken = some ordinaryFound := by
  have hplain : ∀ q ∈ oneToken.signer.signed, bar ∉ q.sandboxID → q.expiresAt.Plain := by
    intro q hq _
    rw [mem_singleton.mp hq]
    exact ⟨by decide, by decide⟩
  have hbar : bar ∉ ordinaryPayload.sandboxID := by decide +kernel
  exact (Signer.honours hplain ordinaryPayload (mem_singleton.mpr rfl) hbar oneToken.now).1
    (by decide)

/-- The token with an encoded dot. -/
def encodedToken : Bytes := ordinaryToken.flatMap fun b ↦ if b = dot then ascii "%2E" else [b]

/-- An encoded space and an encoded slash in the query come through. -/
theorem relays_encodedToken :
    oneToken.Confined ∧ oneToken.Relays ordinaryFound (ascii "GET") encodedToken
      (ascii "/a%20b/c") (some (ascii "x=%2F&y=1")) := by
  have hseg : TokenSegment encodedToken ordinaryToken :=
    ⟨by decide +kernel, ⟨by decide +kernel, by decide +kernel⟩, by decide +kernel,
      by decide +kernel,
      by decide +kernel⟩
  have hwritten : ascii "/a%20b/c" = written (ascii "/a b/c") := by decide +kernel
  have hd : Transparent (ascii "/a b/c") :=
    ⟨by decide +kernel, by decide +kernel, by decide +kernel, by decide +kernel, by decide +kernel⟩
  have hp : question ∉ ascii "/a%20b/c" := by decide +kernel
  obtain ⟨hconfined, hiff⟩ := relays_iff verify_ordinaryToken hseg rfl rfl (by decide) hp
  exact ⟨hconfined, hiff.mpr ⟨⟨_, hwritten, hd⟩, ⟨by decide +kernel, by decide +kernel⟩,
    by decide +kernel, .inr (by decide +kernel)⟩⟩

/-- A `GET` request under the token. -/
def getPreview (p : Bytes) : Except Answer Delivery :=
  oneToken.relay ⟨ascii "GET", previewTarget ordinaryToken p none⟩

/-- An encoded slash becomes a separator, an encoded question mark begins a query, an encoded number
sign ends the path, and with an encoded percent sign the request is refused. -/
theorem not_relays_encodedDelimiters :
    oneToken.signer.verify oneToken.now ordinaryToken = some ordinaryFound ∧
    getPreview (ascii "/a%2Fb") = .ok ⟨8080, ascii "GET", ascii "/a/b"⟩ ∧
    getPreview (ascii "/a%3Fb") = .ok ⟨8080, ascii "GET", ascii "/a?b?b"⟩ ∧
    getPreview (ascii "/a%23b") = .ok ⟨8080, ascii "GET", ascii "/a"⟩ ∧
    getPreview (ascii "/a%25") = .error (.refused 500) ∧
    ∀ p ∈ [ascii "/a%2Fb", ascii "/a%3Fb", ascii "/a%23b", ascii "/a%25"],
      ¬ oneToken.Relays ordinaryFound (ascii "GET") ordinaryToken p none := by
  exact ⟨verify_ordinaryToken, by decide +kernel, by decide +kernel, by decide +kernel,
    by decide +kernel, by decide +kernel⟩

end Gocracker.Preview
