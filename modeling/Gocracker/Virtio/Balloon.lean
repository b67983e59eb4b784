import Gocracker.Virtio.Device

/-!
# What the balloon gives back and what it is told

`inflatePFN` returns a page to the host. The guest names the page by its frame number, which counts
from address 0, and the device takes that number for an index into RAM. So the right pages are given
back if RAM begins at address 0, and not otherwise.

The statistics of a guest are pairs of a tag and a value. The device's tags are declared by `iota`
in the middle of a block of constants, so they begin at 11 and not at 0.
-/

namespace Gocracker

open Machine List BitVec Function

namespace BalloonDevice

/-! ## Pages given back -/

/-- A page frame number on the inflate queue (`true`) or on the deflate queue (`false`). -/
abbrev PFNEvent := Bool × BitVec 32

def handlePFN (d : BalloonDevice) (e : PFNEvent) : BalloonDevice :=
  if e.1 then d.inflatePFN e.2 else d.deflatePFN e.2

/-- A queue does nothing but handle page frame numbers, all of its own kind. -/
theorem handlePFNQueue_eq (d : BalloonDevice) (q : Queue) (ram : ℕ → Ram) (inflate : Bool) :
    ∃ pfns : List (BitVec 32),
      (d.handlePFNQueue q ram inflate).1 = (pfns.map (inflate, ·)).foldl handlePFN d := by
  have hhead (q : Queue) (r : Ram) (head : BitVec 16) : ∃ pfns : List (BitVec 32), ∀ d,
      handleHead q r inflate d head = (pfns.map (inflate, ·)).foldl handlePFN d := by
    cases hwalk : q.walkChain r head with
    | error err => exact ⟨[], fun d ↦ by simp [handleHead, hwalk]⟩
    | ok chain =>
      refine ⟨chainPFNs q r chain, fun d ↦ ?_⟩
      cases inflate <;> simp [handleHead, hwalk, foldl_map, handlePFN]
  choose pfns hpfns using hhead
  cases hiter : q.iterAvail (ram 0) with
  | error err => exact ⟨[], by simp [handlePFNQueue, hiter]⟩
  | ok res =>
    refine ⟨res.1.zipIdx.flatMap fun h ↦ pfns res.2 (ram (h.2 + 1)) h.1, ?_⟩
    simp [handlePFNQueue, hiter, hpfns, foldl_flatMap, map_flatMap]

/-- The range of RAM that `inflatePFN` gives back: its first offset and the one behind it. -/
def reclaim (memLen : ℕ) (d : BalloonDevice) (pfn : BitVec 32) : Option (ℕ × ℕ) :=
  if d.ballooned.length ≤ pfn.toNat then none
  else if d.isBallooned pfn.toNat then none
  else
    let start := pfn.toNat * balloonPageSize
    let stop := min (start + balloonPageSize) memLen
    if stop ≤ start then none else some (start, stop)

/-- What is given back at each event of a run. -/
def reclaims (memLen : ℕ) : BalloonDevice → List PFNEvent → List (Option (ℕ × ℕ))
  | _, [] => []
  | d, e :: es => (if e.1 then d.reclaim memLen e.2 else none) :: reclaims memLen (d.handlePFN e) es

/-- What should be given back if RAM begins at the address `base`: each page in RAM that the guest
gives up, unless it has given it up already. `given` says which pages it has. -/
def expected (base memLen : ℕ) : (BitVec 32 → Bool) → List PFNEvent → List (Option (ℕ × ℕ))
  | _, [] => []
  | given, e :: es =>
    let addr := e.2.toNat * balloonPageSize
    (if e.1 ∧ ¬ given e.2 ∧ base ≤ addr ∧ addr + balloonPageSize ≤ base + memLen then
      some (addr - base, addr - base + balloonPageSize) else none) ::
        expected base memLen (update given e.2 e.1) es

variable {d : BalloonDevice} {memLen base : ℕ} {given : BitVec 32 → Bool}

/-- The flags are about the pages in RAM, and they say which of them the guest has given up. -/
def Tracks (memLen : ℕ) (given : BitVec 32 → Bool) (d : BalloonDevice) : Prop :=
  d.ballooned.length = memLen / balloonPageSize ∧
    ∀ pfn : BitVec 32, pfn.toNat < d.ballooned.length → d.isBallooned pfn.toNat = given pfn

/-- What a page frame number can do to the flags. -/
theorem handlePFN_cases (d : BalloonDevice) (e : PFNEvent) : (d.handlePFN e = d ∧
        (d.ballooned.length ≤ e.2.toNat ∨ d.isBallooned e.2.toNat = e.1)) ∨
      ∃ actual, d.handlePFN e = d.setPage e.2 e.1 actual := by
  obtain ⟨_ | _, pfn⟩ := e
  all_goals
    simp only [handlePFN, inflatePFN, deflatePFN]
    grind

theorem Tracks.handlePFN (h : d.Tracks memLen given) (e : PFNEvent) :
    (d.handlePFN e).Tracks memLen (update given e.2 e.1) := by
  obtain ⟨hlen, hflag⟩ := h
  obtain ⟨heq, hsame⟩ | ⟨actual, heq⟩ := d.handlePFN_cases e
  · refine ⟨by rw [heq, hlen], fun pfn hpfn ↦ ?_⟩
    rw [heq] at hpfn ⊢
    rw [update_apply, hflag pfn hpfn]
    split
    · subst pfn
      rw [← hflag _ hpfn, hsame.resolve_left (by omega)]
    · rfl
  · have hlen' : (d.setPage e.2 e.1 actual).ballooned.length = d.ballooned.length := length_set
    refine ⟨by rw [heq, hlen', hlen], fun pfn hpfn ↦ ?_⟩
    rw [heq, hlen'] at hpfn
    rw [heq, isBallooned_setPage hpfn, update_apply, hflag pfn hpfn]

theorem Tracks.reclaims_eq (hbase : base = 0 ∨ memLen < balloonPageSize) (es : List PFNEvent)
    (h : d.Tracks memLen given) : reclaims memLen d es = expected base memLen given es := by
  induction es generalizing d given with
  | nil => rfl
  | cons e es ih =>
    rw [reclaims, expected, ih (h.handlePFN e)]
    obtain ⟨hlen, hflag⟩ := h
    simp only [reclaim, hlen, balloonPageSize] at hflag hbase ⊢
    grind

theorem tracks_empty (memLen : ℕ) (cfg : BalloonDeviceConfig) :
    (empty memLen cfg).Tracks memLen fun _ ↦ false :=
  ⟨length_replicate, fun _ _ ↦ getD_replicate_false _ _⟩

/-- Exactly the pages that the guest gives up are given back in every run, and each of them is, iff
RAM begins at address 0 (or has no page at all). -/
theorem reclaims_eq_iff (base memLen : ℕ) (cfg : BalloonDeviceConfig) : (∀ es : List PFNEvent,
        reclaims memLen (empty memLen cfg) es = expected base memLen (fun _ ↦ false) es) ↔
      base = 0 ∨ memLen < balloonPageSize := by
  refine ⟨fun h ↦ ?_, fun h es ↦ (tracks_empty memLen cfg).reclaims_eq h es⟩
  -- the frame at address 0 is not in RAM, and the device gives the first page back for it
  have h := h [(true, 0)]
  simp only [reclaims, expected, reclaim, empty, isBallooned] at h
  grind [balloonPageSize]

/-- RAM of two pages behind the address 4096. The frame 1 is its first page, and the device gives
back the second. -/
theorem reclaims_secondPage :
    reclaims 8192 (empty 8192 ⟨0, false, 0, false, []⟩) [(true, 1)] = [some (4096, 8192)] ∧
      expected 4096 8192 (fun _ ↦ false) [(true, 1)] = [some (0, 4096)] := by
  decide +kernel

/-! ## The count that the guest is shown -/

/-- It is the number of flags that are set, if there is room for all of them. -/
def Counts (d : BalloonDevice) : Prop :=
  d.ballooned.length < 2 ^ 32 → d.actualPages.toNat = d.ballooned.count true

theorem Counts.handlePFN (h : d.Counts) (e : PFNEvent) : (d.handlePFN e).Counts := by
  obtain ⟨inflate, pfn⟩ := e
  have hset (hlt : pfn.toNat < d.ballooned.length) := count_set (a := inflate) (b := true) hlt
  have hle := count_le_length (a := true) (l := d.ballooned.set pfn.toNat inflate)
  cases inflate with
  | true =>
    change (d.inflatePFN pfn).Counts
    fun_cases d.inflatePFN pfn with
    | case1 | case2 => exact h
    | case3 hlt hflag =>
      simp [isBallooned, not_le.mp hlt] at hflag hset hle
      simp [Counts, setPage, hflag] at h hset ⊢
      omega
  | false =>
    change (d.deflatePFN pfn).Counts
    fun_cases d.deflatePFN pfn with
    | case1 | case2 => exact h
    | case3 hlt hflag =>
      simp [isBallooned, not_le.mp hlt] at hflag hset
      simp [Counts, setPage, hflag] at h hset ⊢
      split <;> bv_omega

theorem Counts.foldl (h : d.Counts) (es : List PFNEvent) :
    (es.foldl BalloonDevice.handlePFN d).Counts := by
  induction es generalizing d with
  | nil => exact h
  | cons e es ih => exact ih (h.handlePFN e)

/-- **The guest is shown how many pages it has given up**, however often it notifies the device of
either queue, and whatever is in RAM then. -/
theorem counts_of_notified (memLen : ℕ) (cfg : BalloonDeviceConfig)
    (calls : List (Queue × (ℕ → Ram) × Bool)) :
    (calls.foldl (fun d c ↦ (d.handlePFNQueue c.1 c.2.1 c.2.2).1)
      (newBalloonDevice memLen cfg)).Counts := by
  have hempty : (empty memLen cfg).Counts := by simp [Counts, empty, count_replicate]
  have hstart := hempty.foldl (cfg.snapshotPages.map (true, ·))
  rw [foldl_map] at hstart
  change (newBalloonDevice memLen cfg).Counts at hstart
  generalize newBalloonDevice memLen cfg = d at hstart
  induction calls generalizing d with
  | nil => exact hstart
  | cons c calls ih =>
    obtain ⟨pfns, hpfns⟩ := d.handlePFNQueue_eq c.1 c.2.1 c.2.2
    rw [foldl_cons, hpfns]
    exact ih _ (hstart.foldl _)

end BalloonDevice

/-! ## Statistics -/

/-- The statistics, in the order in which both the source and the virtio standard number them. -/
inductive BalloonStat where
  | swapIn | swapOut | majorFaults | minorFaults | freeMemory | totalMemory | availableMemory
  | diskCaches | hugetlbAllocs | hugetlbFailures | oomKill | allocStall | asyncScan | directScan
  | asyncReclaim | directReclaim
  deriving DecidableEq

/-- The tag of the standard. -/
def BalloonStat.tag (s : BalloonStat) : BitVec 16 := BitVec.ofNat 16 s.ctorIdx

def BalloonStat.sourceTag (s : BalloonStat) : BitVec 16 := s.tag + 11

abbrev BalloonStats := BalloonStat → BitVec 64

def balloonStatsEntrySize : ℕ := 10

inductive BalloonStatsError where
  | read (err : QueueError)
  | tooSmall

/-- The bytes of the readable buffers of a chain, one behind the other. -/
def readableBytes (q : Queue) (r : Ram) : List Desc → Except QueueError (List Byte)
  | [] => .ok []
  | desc :: chain =>
    if desc.flags &&& descFlagWrite ≠ 0 then readableBytes q r chain
    else do
      let buf ← q.guestRead r desc.addr desc.len.toNat
      return buf ++ (← readableBytes q r chain)

/-- The `switch`: a value under a tag of the source. -/
def BalloonStats.store (stats : BalloonStats) (tag : BitVec 16) (val : BitVec 64) :
    BalloonStats :=
  fun s ↦ if tag = s.sourceTag then val else stats s

/-- The loop over the entries, for as many as there are. -/
def readEntries : ℕ → List Byte → BalloonStats → BalloonStats
  | 0, _, stats => stats
  | n + 1, raw, stats =>
    readEntries n (raw.drop balloonStatsEntrySize) (stats.store
      (BitVec.ofNat 16 (getLE (slice raw 0 2))) (BitVec.ofNat 64 (getLE (slice raw 2 8))))

variable (q : Queue) (r : Ram) (chain : List Desc) (stats : BalloonStats)

def readStatsBuffer :
    Except BalloonStatsError BalloonStats :=
  match readableBytes q r chain with
  | .error err => .error (.read err)
  | .ok raw =>
    if raw.length < balloonStatsEntrySize then .error .tooSmall
    else .ok (readEntries (raw.length / balloonStatsEntrySize) raw stats)

/-- The device's statistics after the call: an error leaves them. -/
def statsAfter : BalloonStats :=
  (readStatsBuffer q r chain stats).toOption.getD stats

/-- What the guest sends. -/
def encodeStats (entries : List (BitVec 16 × BitVec 64)) : List Byte :=
  entries.flatMap fun e ↦ putLE 2 e.1.toNat ++ putLE 8 e.2.toNat

/-- The last value under a tag, or `old` if there is none. -/
def lastValue (tag : BitVec 16) (entries : List (BitVec 16 × BitVec 64)) (old : BitVec 64) :
    BitVec 64 :=
  entries.foldl (fun v e ↦ if e.1 = tag then e.2 else v) old

variable {q : Queue} {r : Ram} {chain : List Desc} {entries : List (BitVec 16 × BitVec 64)}

theorem length_encodeStats : (encodeStats entries).length = entries.length * 10 := by
  simp [encodeStats]

theorem readEntries_encodeStats (stats : BalloonStats) :
    readEntries entries.length (encodeStats entries) stats =
      fun s ↦ lastValue s.sourceTag entries (stats s) := by
  induction entries generalizing stats with
  | nil => rfl
  | cons e entries ih =>
    have htag := getLE_putLE_of_lt (n := 2) e.1.isLt
    have hval := getLE_putLE_of_lt (n := 8) e.2.isLt
    have hraw : encodeStats (e :: entries) =
        putLE 2 e.1.toNat ++ (putLE 8 e.2.toNat ++ encodeStats entries) := List.append_assoc ..
    simp [readEntries, hraw, slice, balloonStatsEntrySize, drop_append,
      drop_eq_nil_of_le, htag, hval, ih, BalloonStats.store, lastValue]

/-- Whatever the buffers are, a statistic gets the last value under its tag in the source. -/
theorem statsAfter_eq (hread : readableBytes q r chain = .ok (encodeStats entries))
    (stats : BalloonStats) :
    statsAfter q r chain stats = fun s ↦ lastValue s.sourceTag entries (stats s) := by
  simp only [statsAfter, readStatsBuffer, hread, length_encodeStats, balloonStatsEntrySize]
  split
  · obtain rfl : entries = [] := by
      rw [← length_eq_zero_iff]
      omega
    rfl
  · rw [Nat.mul_div_cancel _ (by decide), readEntries_encodeStats]
    rfl

variable {tag : BitVec 16} {old : BitVec 64}

theorem lastValue_of_not_mem (h : tag ∉ entries.map Prod.fst) :
    lastValue tag entries old = old := by
  induction entries generalizing old with
  | nil => rfl
  | cons e entries ih =>
    have hne : tag ≠ e.1 := fun heq ↦ h (heq ▸ mem_cons_self)
    rw [lastValue, foldl_cons, if_neg hne.symm]
    exact ih fun hmem ↦ h (mem_cons_of_mem e.1 hmem)

/-- An entry whose value tells its tag. -/
def markedEntry (tag : BitVec 16) : BitVec 16 × BitVec 64 := (tag, tag.setWidth 64 + 1)

theorem lastValue_markedEntry (tags : List (BitVec 16)) :
    lastValue tag (tags.map markedEntry) old =
      if tag ∈ tags then tag.setWidth 64 + 1 else old := by
  induction tags generalizing old with
  | nil => rfl
  | cons t tags ih =>
    rw [map_cons, lastValue, foldl_cons]
    refine ih.trans ?_
    by_cases ht : t = tag
    · subst ht
      simp [markedEntry]
    · simp [markedEntry, ht, Ne.symm ht]

theorem drop_encodeStats (n : ℕ) :
    (encodeStats entries).drop (10 * n) = encodeStats (entries.drop n) := by
  induction n generalizing entries with
  | zero => rfl
  | succ n ih =>
    cases entries with
    | nil => simp [encodeStats]
    | cons e entries =>
      rw [drop_succ_cons, ← ih, Nat.mul_succ, Nat.add_comm, ← drop_drop]
      exact congrArg _ (drop_left' (by simp))

/-- All tags, each with the value that tells it. -/
def markedRam : Ram where
  bytes := encodeStats ((List.range (2 ^ 16)).map fun n ↦ markedEntry (BitVec.ofNat 16 n))
  length_lt := by rw [length_encodeStats, length_map, length_range]; decide

def markedChain (tags : List (BitVec 16)) : List Desc :=
  tags.map fun t ↦ ⟨t.setWidth 64 * 10, 10, 0, 0⟩

/-- A buffer for each entry, one behind the other or not. -/
theorem readableBytes_markedChain (tags : List (BitVec 16)) :
    readableBytes (newQueue 0) markedRam (markedChain tags) =
      .ok (encodeStats (tags.map markedEntry)) := by
  induction tags with
  | nil => rfl
  | cons t tags ih =>
    have hat : (t.setWidth 64 * 10).toNat = 10 * t.toNat := by
      rw [toNat_mul, toNat_setWidth, show (10 : BitVec 64).toNat = 10 from rfl]
      omega
    have hlen : markedRam.bytes.length = 2 ^ 16 * 10 := by
      rw [markedRam, length_encodeStats, length_map, length_range]
    obtain ⟨range, hrange⟩ : ∃ range, (newQueue 0).checkedRange markedRam.bytes.length
        (t.setWidth 64 * 10) 10 = .ok range := by
      refine Queue.checkedRange_of_le (Nat.zero_le _) ?_ markedRam.length_lt
      rw [hat, hlen]
      change 10 * t.toNat - 0 + 10 ≤ _
      omega
    obtain ⟨-, hstart, hstop, -⟩ := Queue.checkedRange_eq_ok (by decide) hrange
    have hentry : slice markedRam.bytes (10 * t.toNat) 10 = encodeStats [markedEntry t] := by
      rw [slice, markedRam, drop_encodeStats, ← map_drop,
        drop_eq_getElem_cons (by simpa using t.isLt), map_cons, getElem_range, ofNat_toNat,
        setWidth_eq]
      exact take_left' (by simp)
    have hguest : (newQueue 0).guestRead markedRam (t.setWidth 64 * 10) 10 =
        .ok (encodeStats [markedEntry t]) := by
      refine bind_eq_ok.mpr ⟨range, hrange, ?_⟩
      dsimp only
      rw [← hentry, hstop, Nat.add_sub_cancel_left, hstart, hat]
      rfl
    rw [markedChain, map_cons, readableBytes, 
      if_neg (show ¬(0 : BitVec 16) &&& descFlagWrite ≠ 0 by decide)]
    exact bind_eq_ok.mpr ⟨_, hguest, bind_eq_ok.mpr ⟨_, ih, rfl⟩⟩

/-- **The statistics are what the guest sent, whatever the values are**, iff all its tags are behind
those of the standard and of the source. -/
theorem statsAfter_eq_iff (tags : List (BitVec 16)) :
    (∀ entries q r chain, entries.map Prod.fst = tags →
      readableBytes q r chain = .ok (encodeStats entries) → ∀ (stats : BalloonStats) s,
        statsAfter q r chain stats s = lastValue s.tag entries (stats s)) ↔
      ∀ t ∈ tags, 27 ≤ t.toNat := by
  constructor
  · intro h t ht
    by_contra hlt
    obtain ⟨s, hs⟩ : ∃ s : BalloonStat, s.tag = t ∨ s.sourceTag = t := by
      have hall : ∀ n < 27, (BalloonStat.ofNat n).tag = BitVec.ofNat 16 n ∨
          (BalloonStat.ofNat (n - 11)).sourceTag = BitVec.ofNat 16 n := by decide
      have hs := hall t.toNat (by omega)
      rw [ofNat_toNat, setWidth_eq] at hs
      exact hs.elim (fun h ↦ ⟨_, .inl h⟩) fun h ↦ ⟨_, .inr h⟩
    have hmap : (tags.map markedEntry).map Prod.fst = tags := by
      rw [map_map]
      exact map_id tags
    have heq := h _ _ _ _ hmap (readableBytes_markedChain tags) (fun _ ↦ 0) s
    rw [statsAfter_eq (readableBytes_markedChain tags)] at heq
    dsimp only at heq
    rw [lastValue_markedEntry, lastValue_markedEntry] at heq
    have hne : s.sourceTag = s.tag + 11 := rfl
    have htag : s.tag.toNat < 16 := by cases s <;> decide
    rcases hs with rfl | rfl
    · rw [if_pos ht] at heq
      split at heq <;> bv_omega
    · rw [if_pos ht] at heq
      split at heq <;> bv_omega
  · rintro h entries q r chain rfl hread stats s
    have hbehind : ∀ t : BitVec 16, t.toNat < 27 → t ∉ entries.map Prod.fst :=
      fun t ht hmem ↦ absurd (h t hmem) (Nat.not_le.mpr ht)
    have htag : s.tag.toNat < 16 := by cases s <;> decide
    have hsource : s.sourceTag = s.tag + 11 := rfl
    rw [statsAfter_eq hread]
    dsimp only
    rw [lastValue_of_not_mem (hbehind _ (by bv_omega)), lastValue_of_not_mem (hbehind _ (by omega))]

/-- One entry, of total memory. -/
def statsRam : Ram := ⟨encodeStats [(5, 7)], by decide +kernel⟩

/-- Total memory stays as it was. -/
theorem not_statsAfter_totalMemory :
    readableBytes (newQueue 4) statsRam [⟨0, 10, 0, 0⟩] = .ok (encodeStats [(5, 7)]) ∧
      statsAfter (newQueue 4) statsRam [⟨0, 10, 0, 0⟩] 0 .totalMemory ≠ 7 :=
  ⟨rfl, by decide⟩

end Gocracker
