import Mathlib

/-!
# Waiting for a service to become healthy

A service is probed until a probe succeeds or the retries are used up. Failures in the start period
should not count. They do: attempts are counted from the first probe on, and the start period only
puts off the verdict. `EffectiveHealth.fair_iff_unaffected` says for which probes that makes no
difference.
-/

namespace Gocracker

open List

/-- What `effectiveHealthcheck` returns; times are in nanoseconds. It replaces a number of retries
that is not positive. -/
structure EffectiveHealth where
  interval : ℤ
  startPeriod : ℤ
  startInterval : ℤ
  retries : ℕ
  pos : 0 < retries

/-- A probe, with the error of `probeHealthcheck`. -/
structure Probe where
  start : ℤ
  finish : ℤ
  err : Option String

namespace EffectiveHealth

variable (hc : EffectiveHealth) (serviceName : String) (now : ℤ)

/-- The deadline is zero if there is no start period. -/
def inStartPeriod (t : ℤ) : Bool := 0 < hc.startPeriod ∧ t < now + hc.startPeriod

/-- The loop, over the probes that are made. There is no result if they are too few. -/
def probeLoop : ℕ → List Probe → Option (Except String Unit)
  | _, [] => none
  | attempts, p :: ps =>
    match p.err with
    | none => some (.ok ())
    | some lastErr =>
      if ¬ hc.inStartPeriod now p.finish ∧ hc.retries ≤ attempts + 1 then
        some (.error (serviceName ++ " did not become healthy: " ++ lastErr))
      else probeLoop (attempts + 1) ps

/-- No verdict as long as neither a success nor enough failures are there. -/
def waitForHealthy (ps : List Probe) : Option (Except String Unit) :=
  hc.probeLoop serviceName now 0 ps

/-- The pause before the next probe. The start period may have its own. -/
def delay (t : ℤ) : ℤ :=
  if hc.inStartPeriod now t ∧ 0 < hc.startInterval then hc.startInterval else hc.interval

/-! ## What should hold -/

/-- The probes keep to the delays. -/
structure Paced (ps : List Probe) : Prop where
  started : ∀ p ∈ ps, now ≤ p.start ∧ p.start ≤ p.finish
  slept : ps.IsChain fun p q ↦ p.finish + max 0 (hc.delay now p.finish) ≤ q.start

/-- As many probes in a row as there are retries have failed, all of them behind the start
period. -/
def Exhausted (ps : List Probe) : Prop :=
  ∃ last, last <:+: ps ∧ last.length = hc.retries ∧
    ∀ p ∈ last, p.err ≠ none ∧ now + hc.startPeriod ≤ p.start

/-- **The verdict follows the retries**, and so does the one after each of the probes. -/
structure Fair (ps : List Probe) : Prop where
  unhealthy : ∀ made, made <+: ps → ∀ err,
    hc.waitForHealthy serviceName now made = some (.error err) → hc.Exhausted now made
  healthy : hc.waitForHealthy serviceName now ps = some (.ok ()) ↔
    ∃ front p rest, ps = front ++ p :: rest ∧ p.err = none ∧ ¬ hc.Exhausted now front

/-- The failures before the first success. -/
def failures (ps : List Probe) : List Probe := ps.takeWhile fun p ↦ p.err.isSome

/-- **The start period makes no difference** to failures in a row if they are too few, or all of
them end in it, or all begin behind it, or if one is enough and none begins in it and ends behind
it. -/
def Unaffected (front : List Probe) : Prop :=
  front.length < hc.retries ∨ (∀ p ∈ front, p.finish < now + hc.startPeriod) ∨
    (∀ p ∈ front, now + hc.startPeriod ≤ p.start) ∨
    hc.retries = 1 ∧ ∀ p ∈ front, now + hc.startPeriod ≤ p.finish → now + hc.startPeriod ≤ p.start

/-! ## The loop, probe by probe -/

variable {hc serviceName now} {ps qs : List Probe} {p : Probe} {attempts : ℕ}

theorem Exhausted.mono (h : hc.Exhausted now ps) (hsub : ps <:+: qs) : hc.Exhausted now qs := by
  obtain ⟨last, hlast, hrest⟩ := h
  exact ⟨last, hlast.trans hsub, hrest⟩

theorem probeLoop_append : hc.probeLoop serviceName now attempts (ps ++ qs) =
    (hc.probeLoop serviceName now attempts ps).or
      (hc.probeLoop serviceName now (attempts + ps.length) qs) := by
  induction ps generalizing attempts with
  | nil => rfl
  | cons p ps ih =>
    rw [cons_append, probeLoop, probeLoop]
    cases p.err with
    | none => rfl
    | some lastErr =>
      dsimp only
      split_ifs
      · rfl
      · rw [ih, length_cons, Nat.add_right_comm, Nat.add_assoc attempts]

/-- A verdict is due to one of the probes. -/
theorem exists_of_probeLoop {v : Except String Unit}
    (h : hc.probeLoop serviceName now attempts ps = some v) :
    ∃ made p rest, ps = made ++ p :: rest ∧ hc.probeLoop serviceName now attempts made = none ∧
      hc.probeLoop serviceName now (attempts + made.length) [p] = some v := by
  induction ps using reverseRecOn with
  | nil => cases h
  | append_singleton ps p ih =>
    cases hps : hc.probeLoop serviceName now attempts ps with
    | none =>
      rw [probeLoop_append, hps, Option.none_or] at h
      exact ⟨ps, p, [], rfl, hps, h⟩
    | some w =>
      rw [probeLoop_append, hps, Option.some_or] at h
      obtain ⟨made, q, rest, rfl, hq⟩ := ih (hps.trans h)
      exact ⟨made, q, rest ++ [p], by simp, hq⟩

theorem inStartPeriod_iff (hp : now ≤ p.finish) :
    hc.inStartPeriod now p.finish ↔ p.finish < now + hc.startPeriod := by
  rw [inStartPeriod, decide_eq_true_iff]
  omega

/-- What one probe does. -/
theorem probeLoop_cases (serviceName : String) (attempts : ℕ) (ps : List Probe)
    (hp : now ≤ p.finish) :
    (p.err = none ∧ hc.probeLoop serviceName now attempts (p :: ps) = some (.ok ())) ∨
    (p.err ≠ none ∧ now + hc.startPeriod ≤ p.finish ∧ hc.retries ≤ attempts + 1 ∧
      ∃ err, hc.probeLoop serviceName now attempts (p :: ps) = some (.error err)) ∨
    (p.err ≠ none ∧ (p.finish < now + hc.startPeriod ∨ attempts + 1 < hc.retries) ∧
      hc.probeLoop serviceName now attempts (p :: ps) =
        hc.probeLoop serviceName now (attempts + 1) ps) := by
  rw [probeLoop]
  cases p.err with
  | none => exact .inl ⟨rfl, rfl⟩
  | some lastErr =>
    dsimp only
    split_ifs with hlast
    all_goals rw [inStartPeriod_iff hp] at hlast
    · exact .inr (.inl ⟨nofun, not_lt.mp hlast.1, hlast.2, _, rfl⟩)
    · exact .inr (.inr ⟨nofun, by omega, rfl⟩)

/-! ## Probes in time -/

namespace Paced

variable (hps : hc.Paced now ps)
include hps

theorem of_isPrefix (h : qs <+: ps) : hc.Paced now qs :=
  ⟨fun p hp ↦ hps.started p (h.subset hp), hps.slept.prefix h⟩

theorem finish_le (hp : p ∈ ps) : now ≤ p.finish :=
  (hps.started p hp).1.trans (hps.started p hp).2

/-- One probe ends before the next one begins. -/
theorem pairwise : ps.Pairwise fun p q ↦ p.finish ≤ q.start := by
  have hchain : ps.IsChain fun p q ↦ p.finish ≤ q.start ∧ q.start ≤ q.finish := by
    refine hps.slept.imp_of_mem_tail_imp fun p q _ hq hle ↦ ⟨?_, (hps.started q ?_).2⟩
    · omega
    · exact mem_of_mem_tail hq
  have : IsTrans Probe fun p q ↦ p.finish ≤ q.start ∧ q.start ≤ q.finish :=
    ⟨fun p q r hpq hqr ↦ ⟨hpq.1.trans (hpq.2.trans hqr.1), hqr.2⟩⟩
  exact hchain.pairwise.imp And.left

omit hps in
theorem finish_le_last {last : Probe} (hps : hc.Paced now (ps ++ [last])) (hp : p ∈ ps ++ [last]) :
    p.finish ≤ last.finish := by
  rcases mem_append.mp hp with hp | hp
  · exact ((pairwise_append.mp hps.pairwise).2.2 p hp last (by simp)).trans
      (hps.started last (by simp)).2
  · rw [mem_singleton.mp hp]

/-- Without a verdict, every probe has failed, in the start period or before the last retry. -/
theorem failed_of_none {pre post : List Probe} (hsplit : ps = pre ++ p :: post)
    (h : hc.waitForHealthy serviceName now ps = none) :
    p.err ≠ none ∧ (p.finish < now + hc.startPeriod ∨ pre.length + 1 < hc.retries) := by
  have hp : now ≤ p.finish := hps.finish_le (by simp [hsplit])
  rw [waitForHealthy, hsplit, probeLoop_append, Option.or_eq_none_iff, Nat.zero_add] at h
  rcases probeLoop_cases serviceName pre.length post hp with
    ⟨-, hok⟩ | ⟨-, -, -, err, herror⟩ | ⟨hfailed, hsoon, -⟩
  · cases hok.symm.trans h.2
  · cases herror.symm.trans h.2
  · exact ⟨hfailed, hsoon⟩

/-- The probe that ends the wait in failure. -/
theorem exists_of_error {err : String}
    (h : hc.waitForHealthy serviceName now ps = some (.error err)) :
    ∃ made p rest, ps = made ++ p :: rest ∧ hc.waitForHealthy serviceName now made = none ∧
      hc.waitForHealthy serviceName now (made ++ [p]) = some (.error err) ∧
      (∀ q ∈ made ++ [p], q.err ≠ none) ∧ now + hc.startPeriod ≤ p.finish ∧
      hc.retries ≤ made.length + 1 := by
  obtain ⟨made, p, rest, rfl, hnone, herror⟩ := exists_of_probeLoop h
  have hmade : hc.Paced now made := hps.of_isPrefix (prefix_append _ _)
  have hp : now ≤ p.finish := hps.finish_le (by simp)
  rw [Nat.zero_add] at herror
  rcases probeLoop_cases serviceName made.length [] hp with
    ⟨-, hok⟩ | ⟨hfailed, hlate, hretries, -⟩ | ⟨-, -, hnext⟩
  · cases hok.symm.trans herror
  · refine ⟨made, p, rest, rfl, hnone, ?_, forall_mem_append.mpr ⟨fun q hq ↦ ?_, by simpa⟩, hlate,
      hretries⟩
    · rw [waitForHealthy, probeLoop_append, hnone, Option.none_or, Nat.zero_add, herror]
    · obtain ⟨pre, post, hsplit⟩ := append_of_mem hq
      exact (hmade.failed_of_none hsplit hnone).1
  · cases hnext.symm.trans herror

/-- The probe that ends the wait in success. -/
theorem exists_of_ok (h : hc.waitForHealthy serviceName now ps = some (.ok ())) :
    ∃ front p rest, ps = front ++ p :: rest ∧ hc.waitForHealthy serviceName now front = none ∧
      p.err = none := by
  obtain ⟨front, p, rest, rfl, hnone, hok⟩ := exists_of_probeLoop h
  have hp : now ≤ p.finish := hps.finish_le (by simp)
  rcases probeLoop_cases serviceName (0 + front.length) [] hp with
    ⟨hp, -⟩ | ⟨-, -, -, err, herror⟩ | ⟨-, -, hnext⟩
  · exact ⟨front, p, rest, rfl, hnone, hp⟩
  · cases herror.symm.trans hok
  · cases hnext.symm.trans hok

/-- A success comes too late only for a verdict that was due. -/
theorem healthy_iff
    (h : ∀ made, made <+: ps → ∀ err,
      hc.waitForHealthy serviceName now made = some (.error err) → hc.Exhausted now made) :
    hc.waitForHealthy serviceName now ps = some (.ok ()) ↔
      ∃ front p rest, ps = front ++ p :: rest ∧ p.err = none ∧ ¬ hc.Exhausted now front := by
  refine ⟨fun hok ↦ ?_, ?_⟩
  · obtain ⟨front, p, rest, rfl, hnone, hp⟩ := hps.exists_of_ok hok
    refine ⟨front, p, rest, rfl, hp, ?_⟩
    rintro ⟨last, ⟨pre, post, rfl⟩, hlength, hlast⟩
    -- the last of the failures would have been the verdict
    rcases eq_nil_or_concat' last with rfl | ⟨last, q, rfl⟩
    · exact absurd hlength hc.pos.ne
    have hpaced : hc.Paced now _ := hps.of_isPrefix (prefix_append _ _)
    have hq := hpaced.started q (by simp)
    have hstart := (hlast q (by simp)).2
    have hsplit : pre ++ (last ++ [q]) ++ post = (pre ++ last) ++ q :: post := by simp
    have hfailed := (hpaced.failed_of_none hsplit hnone).2
    rw [length_append] at hlength hfailed
    rw [length_singleton] at hlength
    omega
  · rintro ⟨front, p, rest, hsplit, hp, hfront⟩
    match hverdict : hc.waitForHealthy serviceName now ps with
    | none => exact absurd hp (hps.failed_of_none hsplit hverdict).1
    | some (.ok ()) => rfl
    | some (.error err) =>
      obtain ⟨made, q, rest', hsplit', -, herror, hfailed, -⟩ := hps.exists_of_error hverdict
      have hmade : made ++ [q] <+: ps := ⟨rest', by simp [hsplit']⟩
      have hexhausted := h _ hmade err herror
      obtain ⟨tail, htail⟩ := hmade
      rw [hsplit] at htail
      rcases append_eq_append_iff.mp htail with ⟨a, rfl, -⟩ | ⟨c, heq, hrest⟩
      · exact absurd (hexhausted.mono (prefix_append _ _).isInfix) hfront
      cases c with
      | nil => exact absurd (hexhausted.mono (by simp [heq])) hfront
      | cons p' c =>
        obtain rfl : p = p' := (cons.inj hrest).1
        exact absurd hp (hfailed p (by simp [heq]))

end Paced

theorem isPrefix_failures {front : List Probe} (hsub : front <+: ps)
    (h : ∀ p ∈ front, p.err ≠ none) : front <+: failures ps := by
  obtain ⟨rest, rfl⟩ := hsub
  rw [failures, takeWhile_append_of_pos fun p hp ↦ Option.isSome_iff_ne_none.mpr (h p hp)]
  exact prefix_append _ _

theorem err_of_mem_failures (h : p ∈ failures ps) : p.err ≠ none := by
  have hsome := mem_takeWhile_imp (p := fun q : Probe ↦ q.err.isSome) h
  exact Option.isSome_iff_ne_none.mp hsome

/-- A verdict on failures that the start period makes no difference to. -/
theorem Unaffected.exhausted (hun : hc.Unaffected now (failures ps)) (hps : hc.Paced now ps)
    {made : List Probe} (hmade : made <+: ps) {err : String}
    (herror : hc.waitForHealthy serviceName now made = some (.error err)) :
    hc.Exhausted now made := by
  obtain ⟨made, p, rest, rfl, -, -, hfailed, hlate, hretries⟩ :=
    (hps.of_isPrefix hmade).exists_of_error herror
  have hsub : made ++ [p] <+: made ++ p :: rest := ⟨rest, by simp⟩
  have hfront := isPrefix_failures (hsub.trans hmade) hfailed
  refine .mono ?_ hsub.isInfix
  rcases hun with hfew | hin | hbehind | ⟨hone, hapart⟩
  · have hle := hfront.length_le
    rw [length_append, length_singleton] at hle
    omega
  · have hlt := hin p (hfront.subset (by simp))
    omega
  · refine ⟨(made ++ [p]).drop (made.length + 1 - hc.retries), (drop_suffix _ _).isInfix, ?_,
      fun q hq ↦ ?_⟩
    · rw [length_drop, length_append, length_singleton]
      omega
    · have hq := mem_of_mem_drop hq
      exact ⟨hfailed q hq, hbehind q (hfront.subset hq)⟩
  · refine ⟨[p], (suffix_append _ _).isInfix, hone.symm, fun q hq ↦ ?_⟩
    obtain rfl := mem_singleton.mp hq
    exact ⟨hfailed q (by simp), hapart q (hfront.subset (by simp)) hlate⟩

/-- Without a verdict, though there were enough probes, all of them ended in the start period. -/
theorem Paced.finish_lt_of_none (hps : hc.Paced now ps) (hmany : hc.retries ≤ ps.length)
    (hnone : hc.waitForHealthy serviceName now ps = none) {p : Probe} (hp : p ∈ ps) :
    p.finish < now + hc.startPeriod := by
  rcases eq_nil_or_concat' ps with rfl | ⟨front, last, rfl⟩
  · cases hp
  have hlast := (hps.failed_of_none rfl hnone).2
  have hle := hps.finish_le_last hp
  rw [length_append, length_singleton] at hmany
  omega

/-- Failures that the start period makes a difference to end in a verdict. -/
theorem exists_error (hps : hc.Paced now ps) (hfailed : ∀ p ∈ ps, p.err ≠ none)
    (hmany : hc.retries ≤ ps.length) (hlate : ∃ p ∈ ps, now + hc.startPeriod ≤ p.finish) :
    ∃ err, hc.waitForHealthy serviceName now ps = some (.error err) := by
  match hverdict : hc.waitForHealthy serviceName now ps with
  | some (.error err) => exact ⟨err, rfl⟩
  | some (.ok ()) =>
    obtain ⟨front, p, rest, rfl, -, hp⟩ := hps.exists_of_ok hverdict
    exact absurd hp (hfailed p (by simp))
  | none =>
    obtain ⟨p, hp, hlate⟩ := hlate
    exact absurd hlate (not_le.mpr (hps.finish_lt_of_none hmany hverdict hp))

theorem unaffected_of_exhausted (hps : hc.Paced now ps)
    (h : ∀ made, made <+: ps → ∀ err,
      hc.waitForHealthy serviceName now made = some (.error err) → hc.Exhausted now made) :
    hc.Unaffected now (failures ps) := by
  by_contra hnot
  have hfront : failures ps <+: ps := takeWhile_prefix _
  have hpaced := hps.of_isPrefix hfront
  simp only [Unaffected, not_or, not_lt, not_forall, not_and] at hnot
  obtain ⟨hmany, ⟨a, ha, hlate⟩, ⟨b, hb, hearly⟩, hnot⟩ := hnot
  obtain ⟨err, herror⟩ := exists_error hpaced (fun p hp ↦ err_of_mem_failures hp) hmany
    ⟨a, ha, hlate⟩
  obtain ⟨made, p, rest, hsplit, hnone, herror, -, hpFinish, -⟩ := hpaced.exists_of_error herror
  have hsub : made ++ [p] <+: failures ps := ⟨rest, by simp [hsplit]⟩
  obtain ⟨last, hlast, hlength, hstart⟩ := h _ (hsub.trans hfront) err herror
  have hrest : ∀ q ∈ rest, now + hc.startPeriod ≤ q.start := fun q hq ↦ by
    have hpairwise := hpaced.pairwise
    rw [hsplit] at hpairwise
    exact hpFinish.trans ((pairwise_cons.mp (pairwise_append.mp hpairwise).2.1).1 q hq)
  rw [hsplit] at hb hnot
  -- a failure that began in the start period is not one of the last ones
  have hlonger : hc.retries ≤ made.length := by
    by_contra hshort
    obtain rfl := hlast.sublist.eq_of_length_le (by rw [length_append, length_singleton]; omega)
    rw [append_cons] at hb
    rcases mem_append.mp hb with hb | hb
    · exact hearly (hstart b hb).2
    · exact hearly (hrest b hb)
  -- all but the last one ended in the start period
  have hsoon : ∀ q ∈ made, q.start ≤ q.finish ∧ q.finish < now + hc.startPeriod := fun q hq ↦ by
    have hmade : hc.Paced now made := hpaced.of_isPrefix ((prefix_append _ _).trans hsub)
    exact ⟨(hmade.started q hq).2, hmade.finish_lt_of_none hlonger hnone hq⟩
  -- so that there is one at most that began behind it
  obtain ⟨hone, hpStart⟩ : hc.retries = 1 ∧ now + hc.startPeriod ≤ p.start := by
    have hpos := hc.pos
    have hle := (hlast.sublist.filter fun q ↦ now + hc.startPeriod ≤ q.start).length_le
    rw [filter_eq_self.mpr fun q hq ↦ decide_eq_true (hstart q hq).2, filter_append,
      filter_eq_nil_iff.mpr fun q hq ↦ by simpa using (hsoon q hq).1.trans_lt (hsoon q hq).2,
      nil_append, hlength] at hle
    by_cases hp : now + hc.startPeriod ≤ p.start
    · rw [filter_cons_of_pos (by simpa using hp), filter_nil, length_singleton] at hle
      exact ⟨by omega, hp⟩
    · rw [filter_cons_of_neg (by simpa using hp), filter_nil, length_nil] at hle
      omega
  obtain ⟨x, hx, hxFinish, hxStart⟩ := hnot hone
  rw [mem_append, mem_cons] at hx
  rcases hx with hx | rfl | hx
  · exact absurd hxFinish (not_le.mpr (hsoon x hx).2)
  · exact hxStart hpStart
  · exact hxStart (hrest x hx)

/-- **The verdict follows the retries** exactly if the start period makes no difference to the
failures before the first success. -/
theorem fair_iff_unaffected (hps : hc.Paced now ps) :
    hc.Fair serviceName now ps ↔ hc.Unaffected now (failures ps) := by
  refine ⟨fun h ↦ unaffected_of_exhausted hps h.unhealthy, fun h ↦ ?_⟩
  have hunhealthy : ∀ made, made <+: ps → ∀ err,
      hc.waitForHealthy serviceName now made = some (.error err) → hc.Exhausted now made :=
    fun made hmade err herror ↦ h.exhausted hps hmade herror
  exact ⟨hunhealthy, hps.healthy_iff hunhealthy⟩

end EffectiveHealth

def sampleHealth (startPeriod : ℤ) : EffectiveHealth := ⟨5, startPeriod, 0, 2, Nat.two_pos⟩

def twoFailures : List Probe := [⟨0, 1, some "refused"⟩, ⟨20, 21, some "refused"⟩]

/-- Two failures in the start period, and a success behind it. -/
def lateSuccess : List Probe :=
  [⟨0, 1, some "refused"⟩, ⟨6, 7, some "refused"⟩, ⟨12, 13, none⟩]

theorem fair_lateSuccess : (sampleHealth 10).Fair "db" 0 lateSuccess :=
  (EffectiveHealth.fair_iff_unaffected ⟨by decide, by decide⟩).mpr (.inr (.inl (by decide)))

/-- **A failure in the start period counts.** One behind it is enough. -/
theorem not_fair_twoFailures :
    (sampleHealth 10).Paced 0 twoFailures ∧ ¬ (sampleHealth 10).Fair "db" 0 twoFailures := by
  refine ⟨⟨by decide, by decide⟩, fun h ↦ ?_⟩
  obtain ⟨last, hlast, hlength, hstart⟩ :=
    h.unhealthy _ (prefix_refl _) "db did not become healthy: refused" (by decide)
  obtain rfl := hlast.sublist.eq_of_length hlength
  exact absurd (hstart _ mem_cons_self).2 (by decide)

end Gocracker
