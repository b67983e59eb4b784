import Gocracker.Posix.Session

/-!
# Copying entry by entry

A program that copies a directory goes through its entries, each of which needs certain places in
the destination to be clear, and may leave links there. The entries have different names, so that
what one of them leaves is not what another one needs.
-/

namespace Posix

open Machine List

/-! ## Destinations -/

/-- A destination in the area, of which whatever is missing on the way lies in the area too. -/
structure Destination (A : Area) (w : World) (dst : Path) : Prop where
  clean : Clean dst
  mem : dst ∈ A
  present : ∀ q, q <+: dst → q ∈ A ∨ w.kindAt q ≠ none

/-- The place and what is below, as far as it has names. -/
def under (dst : Path) : Set Path := {q | dst <+: q ∧ Clean q}

variable {A B : Area} {s₀ : Session} {L M : Set Path} {N : Text → Set Path} {w : World}
  {dst : Path} {c : Text}

/-- If the directory above a place is there, all that may be made is at the place and below. -/
theorem Destination.of_parent (hclean : Clean dst) (hparent : w.kindAt dst.dropLast ≠ none) :
    Destination (.tree dst) w dst where
  clean := hclean
  mem := Area.mem_tree.mpr (prefix_refl dst)
  present := by
    intro q hq
    by_cases hne : q = []
    · rw [hne]
      exact .inr (World.kindAt_ne_none_of_isPrefix nil_prefix hparent)
    · rcases eq_or_mem_way_dropLast ⟨hne, hq⟩ with rfl | hpre
      · exact .inl (Area.mem_tree.mpr (prefix_refl q))
      · exact .inr (World.kindAt_ne_none_of_isPrefix hpre.2 hparent)

/-- What is missing on the way to something in a directory that is there lies in the directory. -/
theorem Rooted.destination {d : Path} (hroot : Rooted d w) (hclean : Clean dst) (hdst : d <+: dst) :
    Destination (.tree d) w dst where
  clean := hclean
  mem := Area.mem_tree.mpr hdst
  present := by
    intro q hq
    by_cases hnone : w.kindAt q = none
    · obtain ⟨cs, rfl⟩ := hdst
      exact .inl (Area.mem_tree.mpr (below_of_kindAt_eq_none hroot.isDir hq hnone).1)
    · exact .inr hnone

theorem Destination.mono {A' : Area} (h : Destination A w dst) (hA : A ⊆ A') :
    Destination A' w dst :=
  ⟨h.clean, hA h.mem, fun q hq ↦ (h.present q hq).imp_left (hA ·)⟩

section Commands

variable (hdst : Destination A s₀.world dst)

include hdst

theorem Destination.mkdirAll_keeps (hway : way dst ⊆ L) :
    Keeps (Guarded A B s₀ L) (act (mkdirAll dst.reverse)) :=
  act_triple (mkdirAll_safe hdst.clean hway hdst.present)

section

variable (hway : way dst.dropLast ⊆ L)
include hway

theorem Destination.mkdirParent_keeps :
    Keeps (Guarded A B s₀ L) (act (mkdirAll dst.dropLast.reverse)) :=
  act_triple (mkdirAll_safe hdst.clean.dropLast hway fun q hq ↦
    hdst.present q (hq.trans (List.dropLast_prefix dst)))

theorem Destination.remove_keeps : Keeps (Guarded A B s₀ L) (act (sys (·.remove dst))) := by
  refine act_triple (sys_triple (fun w w' hw hop ↦ ?_) fun _ hw ↦ hw)
  obtain rfl := (hw.clear.straight_parent hdst.clean hway).remove_eq_ok hop
  exact (hw.put_linkFree hdst.mem linkFree_none).mono Set.subset_union_left

theorem Destination.removeAll_keeps : Keeps (Guarded A B s₀ L) (act (sys (·.removeAll dst))) :=
  (act_triple (sys_removeAll_triple hdst.clean hway hdst.mem)).weaken_leads
    fun _ h ↦ h.mono Set.subset_union_left

theorem Destination.makeLink (link : Text) :
    Leads (Guarded A B s₀ L) (act (sys (·.symlink link dst))) (Guarded A B s₀ (besides L dst)) :=
  act_triple (sys_symlink_triple hdst.clean hway (.inl hdst.mem) link)

end

theorem Destination.create_keeps (hway : way dst ⊆ L) :
    Keeps (Guarded A B s₀ L) (act (sys (·.openTrunc dst))) :=
  act_triple (sys_openTrunc_triple hdst.clean hway (.inl hdst.mem))

end Commands

theorem Destination.child (h : Destination A w dst) (hc : IsName c) :
    Destination A w (dst ++ [c]) where
  clean := h.clean.append (clean_singleton.mpr hc)
  mem := A.mem_of_isPrefix h.mem (prefix_append dst [c])
  present := by
    intro q hq
    rcases prefix_concat_iff.mp hq with rfl | hpre
    · exact .inl (A.mem_of_isPrefix h.mem (prefix_append dst [c]))
    · exact h.present q hpre

/-! ## Siblings -/

/-- The clear places that are not at or below certain others. -/
def avoiding (L : Set Path) (ps : List Path) : Set Path := {q ∈ L | ∀ p ∈ ps, ¬ p <+: q}

variable {ps : List Path}

/-- Whatever comes to one of the places that are avoided. -/
theorem avoiding_subset_sep {p : Path} (hp : p ∈ ps) : avoiding L ps ⊆ besides (avoiding L ps) p :=
  fun _ hq ↦ ⟨hq, hq.2 p hp⟩

theorem way_subset_avoiding (hps : ∀ p ∈ ps, ∃ c, p = dst ++ [c])
    (hway : way dst ⊆ L) : way dst ⊆ avoiding L ps := by
  intro q hq
  refine ⟨hway hq, fun p hp hpre ↦ ?_⟩
  obtain ⟨c, rfl⟩ := hps p hp
  exact not_snoc_isPrefix (hpre.trans hq.2)

/-! ## Entries -/

/-- What is clear while the entries of a directory are copied: everything apart from the
destination, the way to it, and the needs of the entries that are still to come. -/
def remaining (L : Set Path) (dst : Path) (N : Text → Set Path) (rest : List Dirent) : Set Path :=
  {q ∈ L | ¬ dst <+: q} ∪ way dst ∪ {q | ∃ e ∈ rest, q ∈ N e.name}

/-- An entry uses up its own place, and no other. -/
theorem remaining_subset (hneed : ∀ c, N c ⊆ {q | dst ++ [c] <+: q}) {e : Dirent}
    {rest : List Dirent} (hnodup : ((e :: rest).map Dirent.name).Nodup) :
    remaining L dst N rest ⊆ besides (remaining L dst N (e :: rest)) (dst ++ [e.name]) := by
  have hpre : dst <+: dst ++ [e.name] := prefix_append dst [e.name]
  rintro q ((⟨hL, hnot⟩ | hq) | ⟨e', he', hq⟩)
  · exact ⟨.inl (.inl ⟨hL, hnot⟩), fun h ↦ hnot (hpre.trans h)⟩
  · exact ⟨.inl (.inr hq), fun h ↦ not_snoc_isPrefix (h.trans hq.2)⟩
  · refine ⟨.inr ⟨e', mem_cons_of_mem e he', hq⟩, fun h ↦ ?_⟩
    have heq : dst ++ [e.name] = dst ++ [e'.name] :=
      (prefix_of_prefix_length_le h (hneed _ hq) (by simp)).eq_of_length (by simp)
    have hname : e.name = e'.name := by simpa using heq
    rw [map_cons, nodup_cons] at hnodup
    exact hnodup.1 (hname ▸ mem_map_of_mem he')

section Entries

variable {copy : Dirent → FileM PUnit} {entries : List Dirent}
  (hneed : ∀ c, N c ⊆ {q | dst ++ [c] <+: q}) (hnodup : (entries.map Dirent.name).Nodup)
  (hway : way dst ⊆ L) (hsub : ∀ e ∈ entries, N e.name ⊆ L)
  (hcopy : ∀ e ∈ entries, ∀ M, way (dst ++ [e.name]).dropLast ⊆ M → N e.name ⊆ M →
    Leads (Guarded A B s₀ M) (copy e) (Guarded A B s₀ (besides M (dst ++ [e.name]))))

include hneed hnodup hcopy in
/-- One entry: what is left for the others is clear afterwards. -/
theorem entry_triple {e : Dirent} {rest : List Dirent} (hsuffix : e :: rest <:+ entries) :
    Leads (Guarded A B s₀ (remaining L dst N (e :: rest))) (copy e)
      (Guarded A B s₀ (remaining L dst N rest)) := by
  have hrest : remaining L dst N rest ⊆
      (besides (remaining L dst N (e :: rest)) (dst ++ [e.name])) :=
    remaining_subset hneed (hnodup.sublist (hsuffix.sublist.map Dirent.name))
  refine (hcopy e (hsuffix.subset mem_cons_self) _ ?_
    fun q hq ↦ .inr ⟨e, mem_cons_self, hq⟩).weaken_leads fun _ h ↦ h.mono hrest
  rw [dropLast_concat]
  exact fun q hq ↦ .inl (.inr hq)

omit hneed hnodup hcopy in
include hway hsub in
theorem remaining_subset_self : remaining L dst N entries ⊆ L := by
  rintro q ((⟨hL, -⟩ | hq) | ⟨e, he, hq⟩)
  · exact hL
  · exact hway hq
  · exact hsub e he hq

include hneed hnodup hway hsub hcopy

/-- **Copying all entries**, up to the first failure. -/
theorem entries_triple :
    Leads (Guarded A B s₀ L) (entries.forM copy) (Guarded A B s₀ (besides L dst)) := by
  have hend : ∀ rest s, Guarded A B s₀ (remaining L dst N rest) s →
      Guarded A B s₀ (besides L dst) s :=
    fun _ _ h ↦ h.mono fun q hq ↦ .inl (.inl hq)
  refine .weaken (.forM_rest (I := fun rest ↦ Guarded A B s₀ (remaining L dst N rest))
    entries fun e rest hsuffix ↦ ?_) (fun _ h ↦ h.mono (remaining_subset_self hway hsub))
    (fun _ s h ↦ hend [] s h) fun _ h ↦ h
  exact (entry_triple hneed hnodup hcopy hsuffix).weaken_error (hend rest)

end Entries

end Posix
