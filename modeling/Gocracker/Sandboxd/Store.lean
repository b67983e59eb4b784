import Gocracker.Machine.Document
import Gocracker.Transition.Run

/-!
# State files

The sandboxes and the templates of a host are each kept in a map that is written to a file after
every change, and read from it when the server starts. A file that cannot be read is put aside, and
the server starts with an empty map.

## What is taken for a good file

Json has `null` in every place. A file with `null` is read without an error into a nil map, and a
member `null` into a nil pointer. The first panics when something is added, the second as soon as it
is looked at. What is in the file is taken as it is: a sandbox that was ready when the server
stopped is presented as ready, although its VM is gone.

The two stores do the same; what they keep is a parameter.
-/

namespace Gocracker.Sandboxd

open Machine Transition List Option AList

/-! ## Stores -/

/-- What a store has to know of its records. -/
structure Records (ρ : Type) where
  id : ρ → Bytes
  createdAt : ρ → ℤ
  read : List (Bytes × Document) → Option ρ
  /-- What `Add` and `Update` write into a record, apart from what the caller does. -/
  added : ℤ → ρ → ρ
  updated : ℤ → ρ → ρ

/-- A map of pointers, any of which may be nil, the map too. -/
structure Store (ρ : Type) where
  records : Option (AList fun _ : Bytes ↦ Option ρ)

/-- The calls of a store. The callback of `Update` changes the record that it is given. -/
inductive Op (ρ : Type) where
  | add (now : ℤ) (r : ρ)
  | get (id : Bytes)
  | list
  | update (now : ℤ) (id : Bytes) (fn : ρ → ρ)
  | remove (id : Bytes)

open Store

namespace Store

variable {ρ : Type} (kind : Records ρ)

def empty : Store ρ := ⟨some ∅⟩

/-- What is in the file, if it can be read. -/
def load (data : Bytes) : Option (Option (AList fun _ : Bytes ↦ Option ρ)) :=
  (Document.readDocument data).bind (Document.readMap kind.read)

/-- `NewStore` and `NewRegistry`, for a file with the given content. -/
def newStore (data : Bytes) : Store ρ :=
  if data = [] then empty
  else
    match load kind data with
    | none => empty
    | some loaded => ⟨loaded⟩

variable (s : Store ρ)

/-- A nil map has no entries. -/
def lookup (id : Bytes) : Option (Option ρ) := s.records.bind fun m ↦ m.lookup id

/-! A panic is `none`: if a nil map is assigned to, or a nil pointer is followed. -/

/-- An id that is in use is an error, and nothing changes. -/
def add (now : ℤ) (r : ρ) : Option (Store ρ) :=
  if (s.lookup (kind.id r)).isSome then some s
  else s.records.map fun m ↦ ⟨some (m.insert (kind.id r) (some (kind.added now r)))⟩

/-- The copy of a null record is a panic. -/
def get (id : Bytes) : Option (Option ρ) :=
  match s.lookup id with
  | none => some none
  | some r => r.map some

/-- Copies of all records, sorted by their time. -/
def list : Option (List ρ) :=
  ((s.records.elim [] entries).mapM Sigma.snd).map fun rs : List ρ ↦
    rs.mergeSort fun a b ↦ kind.createdAt a ≤ kind.createdAt b

/-- An unknown id is reported, and nothing changes. -/
def update (now : ℤ) (id : Bytes) (fn : ρ → ρ) : Option (Store ρ) :=
  match s.lookup id with
  | none => some s
  | some r => r.bind fun r ↦
    s.records.map fun m ↦ ⟨some (m.insert id (some (kind.updated now (fn r))))⟩

/-- An unknown id is an error, and nothing changes. -/
def remove (id : Bytes) : Store ρ :=
  match s.lookup id with
  | none => s
  | some _ => ⟨s.records.map fun m ↦ m.erase id⟩

/-- The store after an operation, unless it panics. -/
def step : Op ρ → Option (Store ρ)
  | .add now r => s.add kind now r
  | .get id => (s.get id).map fun _ ↦ s
  | .list => (s.list kind).map fun _ ↦ s
  | .update now id fn => s.update kind now id fn
  | .remove id => some (s.remove id)

/-- No sequence of calls panics. -/
def NeverPanics : Prop := ∀ ops, ∃ s', Run (step kind) anyStep s ops s'

/-- The map is there, and no pointer in it is nil. -/
def Whole : Prop := ∃ m, s.records = some m ∧ ∀ id, m.lookup id ≠ some none

/-- What is read from a file, if it can be read, is not `null` and has no member `null`. -/
def NullFree (file : Option (Option (AList fun _ : Bytes ↦ Option ρ))) : Prop :=
  ∀ loaded, file = some loaded → ∃ m, loaded = some m ∧ ∀ id, m.lookup id ≠ some none

/-! ## What does not panic -/

variable {kind} {s s' : Store ρ} {m : AList fun _ : Bytes ↦ Option ρ}

theorem Whole.insert (hm : ∀ id, m.lookup id ≠ some none)
    (id : Bytes) (r : ρ) : (⟨some (m.insert id (some r))⟩ : Store ρ).Whole := by
  refine ⟨_, rfl, fun id' h ↦ ?_⟩
  by_cases hid : id' = id
  · subst hid
    rw [lookup_insert] at h
    nomatch h
  · rw [lookup_insert_ne hid] at h
    exact hm id' h

variable {id : Bytes} {r : Option ρ}

theorem lookup_of_erase {id' : Bytes}
    (h : (m.erase id).lookup id' = some r) : m.lookup id' = some r := by
  by_cases hid : id' = id
  · subst hid
    rw [lookup_erase] at h
    nomatch h
  · rwa [lookup_erase_ne hid] at h

theorem Whole.exists_list (h : s.Whole) : ∃ rs, s.list kind = some rs := by
  obtain ⟨m, hm, hsome⟩ := h
  have hmap : ∃ rs, m.entries.mapM Sigma.snd = some rs := by
    have hentries : ∀ e ∈ m.entries, ∃ r, e.2 = some r := fun e he ↦
      ne_none_iff_exists'.mp fun hnone ↦ hsome e.1 (mem_lookup_iff.mpr (hnone ▸ he))
    generalize m.entries = entries at hentries
    induction entries with
    | nil => exact ⟨[], rfl⟩
    | cons e entries ih =>
      obtain ⟨r, hr⟩ := hentries e mem_cons_self
      obtain ⟨rs, hrs⟩ := ih fun e' he' ↦ hentries e' (mem_cons_of_mem e he')
      exact ⟨r :: rs, by rw [mapM_cons, hr, hrs]; rfl⟩
  obtain ⟨rs, hrs⟩ := hmap
  exact ⟨_, by rw [list, hm, elim_some, hrs]; rfl⟩

/-- **No call on a whole store panics**, and the store stays whole. -/
theorem Whole.step (h : s.Whole) (op : Op ρ) : ∃ s', s.step kind op = some s' ∧ s'.Whole := by
  have hwhole := h
  obtain ⟨m, hm, hsome⟩ := h
  have hlookup (id : Bytes) : s.lookup id = m.lookup id := by rw [lookup, hm, bind_some]
  cases op with
  | add now r =>
    rw [Store.step, add]
    split_ifs
    · exact ⟨s, rfl, hwhole⟩
    · exact ⟨_, by rw [hm, map_some], .insert hsome _ _⟩
  | get id =>
    refine ⟨s, ?_, hwhole⟩
    rw [Store.step, get, hlookup]
    cases hr : m.lookup id with
    | none => rfl
    | some r =>
      cases r with
      | none => exact absurd hr (hsome id)
      | some r => rfl
  | list =>
    obtain ⟨rs, hrs⟩ : ∃ rs, s.list kind = some rs := hwhole.exists_list
    exact ⟨s, by rw [Store.step, hrs, map_some], hwhole⟩
  | update now id fn =>
    rw [Store.step, update, hlookup]
    cases hr : m.lookup id with
    | none => exact ⟨s, rfl, hwhole⟩
    | some r =>
      cases r with
      | none => exact absurd hr (hsome id)
      | some r => exact ⟨_, by rw [hm]; rfl, .insert hsome id _⟩
  | remove id =>
    refine ⟨_, rfl, ?_⟩
    rw [remove, hlookup]
    cases m.lookup id with
    | none => exact hwhole
    | some r =>
      refine ⟨m.erase id, by rw [hm, map_some], fun id' h ↦ ?_⟩
      exact hsome id' (lookup_of_erase h)

/-- **Exactly the whole stores never panic.** A nil map panics when something is added, and a nil
pointer when everything is listed. -/
theorem neverPanics_iff [Inhabited ρ] : s.NeverPanics kind ↔ s.Whole := by
  constructor
  · intro h
    cases hrecords : s.records with
    | none =>
      obtain ⟨s', hrun⟩ := h [.add 0 default]
      cases hrun with
      | cons _ hstep _ =>
        rw [step, add, lookup, hrecords] at hstep
        nomatch hstep
    | some m =>
      refine ⟨m, hrecords, fun id hid ↦ ?_⟩
      obtain ⟨s', hrun⟩ := h [.get id]
      cases hrun with
      | cons _ hstep _ =>
        rw [step, get, lookup, hrecords, bind_some, hid] at hstep
        nomatch hstep
  · intro h ops
    obtain ⟨s', hrun, -⟩ := Run.exists_of_progress (I := Whole) (fun s op hs ↦ hs.step op) ops s h
    exact ⟨s', hrun⟩

/-! ## What is presented -/

/-- The id that an operation may write. -/
def written (kind : Records ρ) : Op ρ → Option Bytes
  | .add _ r => some (kind.id r)
  | .update _ id _ => some id
  | _ => none

theorem lookup_of_insert {id' : Bytes} {r' : Option ρ}
    (h : s.records.map (fun m ↦ (⟨some (m.insert id r')⟩ : Store ρ)) = some s') (hid : id ≠ id')
    (hr : s'.lookup id' = some r) : s.lookup id' = some r := by
  obtain ⟨m, hm, rfl⟩ := map_eq_some_iff.mp h
  rw [lookup, bind_some, lookup_insert_ne hid.symm] at hr
  rw [lookup, hm, bind_some, hr]

theorem lookup_of_step {op : Op ρ} (hstep : s.step kind op = some s')
    (hop : written kind op ≠ some id) (h : s'.lookup id = some r) : s.lookup id = some r := by
  cases op with
  | add now r' =>
    rw [step, add] at hstep
    split_ifs at hstep
    · exact Option.some.inj hstep ▸ h
    · exact lookup_of_insert hstep (fun heq ↦ hop (congrArg some heq)) h
  | get id' | list =>
    obtain ⟨-, -, rfl⟩ := map_eq_some_iff.mp hstep
    exact h
  | update now id' fn =>
    rw [step, update] at hstep
    split at hstep
    · exact Option.some.inj hstep ▸ h
    · obtain ⟨r', -, hstep⟩ := bind_eq_some_iff.mp hstep
      exact lookup_of_insert hstep (fun heq ↦ hop (congrArg some heq)) h
  | remove id' =>
    obtain ⟨⟩ := hstep
    rw [remove] at h
    split at h
    · exact h
    rw [lookup, bind_map] at h
    obtain ⟨m, hm, h⟩ := bind_eq_some_iff.mp h
    rw [lookup, hm]
    exact lookup_of_erase h

/-- **What no call has written is as it was loaded**, or gone. -/
theorem lookup_of_run {ops : List (Op ρ)}
    (hrun : Run (step kind) anyStep s ops s') (hops : ∀ op ∈ ops, written kind op ≠ some id)
    (h : s'.lookup id = some r) : s.lookup id = some r := by
  induction hrun with
  | nil s => exact h
  | @cons _ _ _ op ops _ hstep _ ih =>
    exact lookup_of_step hstep (hops op mem_cons_self)
      (ih (fun op' hop' ↦ hops op' (mem_cons_of_mem op hop')) h)

theorem get_eq_some {r : ρ} : s.get id = some (some r) ↔ s.lookup id = some (some r) := by
  unfold get
  cases s.lookup id with
  | none => exact ⟨nofun, nofun⟩
  | some r' =>
    cases r' with
    | none => exact ⟨nofun, nofun⟩
    | some r' => exact Iff.rfl

/-! ## What is loaded -/

variable {data : Bytes}

theorem load_nil : load kind [] = none := rfl

theorem whole_empty : (empty : Store ρ).Whole := ⟨∅, rfl, fun id h ↦ nomatch lookup_empty id ▸ h⟩

/-- **A store is whole if its file is.** A file that is empty or cannot be read makes no
difference. -/
theorem whole_newStore_iff : (newStore kind data).Whole ↔ NullFree (load kind data) := by
  rw [newStore]
  split_ifs with hdata
  · rw [hdata, load_nil]
    exact iff_of_true whole_empty nofun
  cases hload : load kind data with
  | none => exact iff_of_true whole_empty nofun
  | some loaded =>
    refine ⟨fun h loaded' hloaded ↦ ?_, fun h ↦ h loaded rfl⟩
    rwa [← Option.some.inj hloaded]

/-- What a store has is what was read. -/
theorem lookup_newStore_iff : (newStore kind data).lookup id = some r ↔
    ∃ m, load kind data = some (some m) ∧ m.lookup id = some r := by
  have hempty : (empty : Store ρ).lookup id ≠ some r := by
    rw [lookup, empty, bind_some, lookup_empty]
    exact nofun
  rw [newStore]
  split_ifs with hdata
  · rw [hdata, load_nil]
    exact iff_of_false hempty nofun
  cases hload : load kind data with
  | none => exact iff_of_false hempty nofun
  | some loaded =>
    refine bind_eq_some_iff.trans (exists_congr fun m ↦ and_congr_left fun _ ↦ ?_)
    exact Option.some_inj.symm

end Store

/-! ## Sandboxes -/

/-- The fields that are written to the file. The state is any text. -/
structure Sandbox where
  id : Bytes := []
  state : Bytes := []
  image : Bytes := []
  udsPath : Bytes := []
  guestIP : Bytes := []
  runtimeID : Bytes := []
  createdAt : ℤ := 0
  error : Bytes := []
  deriving DecidableEq, Inhabited

def stateCreating : Bytes := ascii "creating"

def stateReady : Bytes := ascii "ready"

def stateStopping : Bytes := ascii "stopping"

/-- The states of a sandbox that has, or is about to have, a VM. -/
def Sandbox.Live (sb : Sandbox) : Prop :=
  sb.state = stateCreating ∨ sb.state = stateReady ∨ sb.state = stateStopping
deriving Decidable

variable (parseTime : Bytes → Option ℤ)

/-- The fields of a record in the file. -/
def sandboxFields : List (Document.Field Sandbox) :=
  [.text "id" fun t sb ↦ { sb with id := t },
    .text "state" fun t sb ↦ { sb with state := t },
    .text "image" fun t sb ↦ { sb with image := t },
    .text "uds_path" fun t sb ↦ { sb with udsPath := t },
    .text "guest_ip" fun t sb ↦ { sb with guestIP := t },
    .text "runtime_id" fun t sb ↦ { sb with runtimeID := t },
    .time parseTime "created_at" fun t sb ↦ { sb with createdAt := t },
    .text "error" fun t sb ↦ { sb with error := t }]

def sandboxes : Records Sandbox where
  id := Sandbox.id
  createdAt := Sandbox.createdAt
  read := Document.readRecord (sandboxFields parseTime) {}
  added := fun _ sb ↦ sb
  updated := fun _ sb ↦ sb

/-- **A store is recovered safely.** -/
structure Recovered (kind : Records Sandbox) (s : Store Sandbox) : Prop where
  calls : s.NeverPanics kind
  /-- No sandbox is presented as live, unless a call has written it since. -/
  stopped : ∀ ops s', Run (step kind) anyStep s ops s' → ∀ id,
    (∀ op ∈ ops, written kind op ≠ some id) → ∀ sb, s'.get id = some (some sb) → ¬ sb.Live

/-- **State files.** Both stores never panic exactly if the file, when it can be read, holds a map
of records without `null`. The sandboxes are recovered safely exactly if moreover none of those in
the file is live. -/
theorem recovered (data : Bytes) : (∀ {ρ : Type} [Inhabited ρ] (kind : Records ρ),
      (newStore kind data).NeverPanics kind ↔ NullFree (load kind data)) ∧
    (Recovered (sandboxes parseTime) (newStore (sandboxes parseTime) data) ↔
      NullFree (load (sandboxes parseTime) data) ∧
      ∀ m, load (sandboxes parseTime) data = some (some m) →
        ∀ id sb, m.lookup id = some (some sb) → ¬ sb.Live) := by
  refine ⟨fun kind ↦ neverPanics_iff.trans whole_newStore_iff, fun h ↦ ⟨?_, ?_⟩, ?_⟩
  · exact whole_newStore_iff.mp (neverPanics_iff.mp h.calls)
  · intro m hload id sb hsb
    have hlookup := lookup_newStore_iff.mpr ⟨m, hload, hsb⟩
    exact h.stopped [] _ (.nil _) id nofun sb (get_eq_some.mpr hlookup)
  · rintro ⟨hfree, hstopped⟩
    refine ⟨neverPanics_iff.mpr (whole_newStore_iff.mpr hfree), fun ops s' hrun id hops sb hsb ↦ ?_⟩
    obtain ⟨m, hload, hlookup⟩ :=
      lookup_newStore_iff.mp (lookup_of_run hrun hops (get_eq_some.mp hsb))
    exact hstopped m hload id sb hlookup

/-- The sandboxes of a file in which there is no time that could be read. -/
def openWith (text : String) : Store Sandbox :=
  newStore (sandboxes fun _ ↦ none) (ascii text)

/-- A file with a sandbox that has stopped. -/
theorem recovered_stopped : Recovered (sandboxes fun _ ↦ none)
    (openWith " \x7b\"sb\": \x7b\"STATE\": \"stopped\"\x7d\x7d ") := by
  have hloaded : (load (sandboxes fun _ ↦ none)
      (ascii " \x7b\"sb\": \x7b\"STATE\": \"stopped\"\x7d\x7d ")).map (Option.map entries) =
        some (some [⟨ascii "sb", some { state := ascii "stopped" }⟩]) := by decide +kernel
  obtain ⟨loaded, hload, hmap⟩ := map_eq_some_iff.mp hloaded
  obtain ⟨m, rfl, hentries⟩ := map_eq_some_iff.mp hmap
  have hlookup {id : Bytes} {r : Option Sandbox} (h : m.lookup id = some r) :
      r = some { state := ascii "stopped" } := by
    have hmem := mem_lookup_iff.mp h
    rw [hentries, mem_singleton] at hmem
    exact eq_of_heq (Sigma.mk.inj hmem).2
  refine (recovered _ _).2.mpr ⟨fun loaded h ↦ ?_, fun m' h id sb hsb ↦ ?_⟩
  · exact ⟨m, Option.some.inj (h.symm.trans hload), fun id hid ↦ nomatch hlookup hid⟩
  · obtain rfl := Option.some.inj (Option.some.inj (h.symm.trans hload))
    rw [Option.some.inj (hlookup hsb)]
    decide

/-- **Three files.** The first is read as a nil map, the second has a nil pointer, and the third a
sandbox that is presented as ready. -/
theorem not_recovered_files : ¬ (openWith "null").NeverPanics (sandboxes fun _ ↦ none) ∧
    ¬ (openWith "\x7b\"a\":null\x7d").NeverPanics (sandboxes fun _ ↦ none) ∧
    ¬ Recovered (sandboxes fun _ ↦ none)
      (openWith "\x7b\"a\":\x7b\"state\":\"ready\"\x7d\x7d") := by
  refine ⟨fun h ↦ ?_, fun h ↦ ?_, fun h ↦ ?_⟩
  · obtain ⟨m, hm, -⟩ := neverPanics_iff.mp h
    have hnil : (openWith "null").records = none := by decide +kernel
    nomatch hnil.symm.trans hm
  · obtain ⟨m, hm, hsome⟩ := neverPanics_iff.mp h
    have hnil : (openWith "\x7b\"a\":null\x7d").lookup (ascii "a") = some none := by decide +kernel
    rw [Store.lookup, hm] at hnil
    exact hsome _ hnil
  · refine h.stopped [] _ (.nil _) (ascii "a") nofun { state := stateReady } ?_ (.inr (.inl rfl))
    decide +kernel

end Gocracker.Sandboxd
