import Gocracker.Machine.Reader
import Gocracker.Toolbox.Frames

/-!
# Reading frames off a connection

`ReadFrame` reads the header of a frame and then its payload, each with `io.ReadFull`. However the
stream arrives, it returns what `readFrame` returns on the whole stream (`readFrameFrom_eq`). So
frames that were written one after the other are read one after the other, and then the end.

A stream that has ended is told from one that was cut off by the error of `io.ReadFull`, and that is
`io.EOF` whenever nothing was read. Behind a header nothing may be left too, and then a session that
was cut off looks complete.
-/

namespace Gocracker.Toolbox

open Machine List

/-- `ReadFrame`: the frame or an error, and the reader afterwards. -/
def readFrameFrom (r : Reader (BitVec 8)) : Except FrameError Frame × Reader (BitVec 8) :=
  match readFull 5 r with
  | (.error .eof, r) => (.error .eof, r)
  | (.error .unexpectedEof, r) => (.error .shortHeader, r)
  | (.ok hdr, r) =>
    let channel := hdr.headD 0
    let length := getBE (hdr.drop 1)
    if maxFrameLen < length then (.error (.peerTooLarge length), r)
    else if length = 0 then (.ok ⟨channel, []⟩, r)
    else
      match readFull length r with
      | (.error .unexpectedEof, r) => (.error .shortPayload, r)
      -- returned as it is
      | (.error .eof, r) => (.error .eof, r)
      | (.ok payload, r) => (.ok ⟨channel, payload⟩, r)

/-- Several calls of `ReadFrame`. -/
def reads : ℕ → Reader (BitVec 8) → List (Except FrameError Frame)
  | 0, _ => []
  | n + 1, r => (readFrameFrom r).1 :: reads n (readFrameFrom r).2

/-- **Only the stream matters.** -/
theorem readFrameFrom_eq (r : Reader (BitVec 8)) :
    (readFrameFrom r).1 = (readFrame r.stream).map Prod.fst ∧
      ∀ f rest, readFrame r.stream = .ok (f, rest) → (readFrameFrom r).2.stream = rest := by
  obtain ⟨hresult, hleft⟩ := readFull_eq 5 r
  rw [readFrameFrom]
  rcases hhdr : readFull 5 r with ⟨result, r'⟩
  rw [hhdr] at hresult hleft
  cases hstream : r.stream with
  | nil =>
    rw [hstream] at hresult
    obtain rfl : result = .error .eof := hresult
    exact ⟨rfl, by simp [readFrame]⟩
  | cons channel tail =>
    rw [hstream, length_cons] at hresult
    rw [hstream] at hleft
    by_cases hfour : tail.length < 4
    · rw [if_neg (by omega)] at hresult
      obtain rfl : result = .error .unexpectedEof := hresult
      rw [readFrame, if_pos hfour]
      exact ⟨rfl, by simp⟩
    rw [if_pos (by omega)] at hresult
    obtain rfl : result = .ok (channel :: tail.take 4) := hresult
    replace hleft : r'.stream = tail.drop 4 := hleft
    rw [readFrame, if_neg hfour]
    simp only [drop_one, tail_cons]
    by_cases hlarge : maxFrameLen < getBE (tail.take 4)
    · rw [if_pos hlarge, if_pos hlarge]
      exact ⟨rfl, by simp⟩
    by_cases hzero : getBE (tail.take 4) = 0
    · rw [if_neg hlarge, if_neg hlarge, if_pos hzero, if_pos hzero]
      refine ⟨rfl, fun f rest h ↦ ?_⟩
      rw [← (Prod.mk.inj (Except.ok.inj h)).2]
      exact hleft
    rw [if_neg hlarge, if_neg hlarge, if_neg hzero, if_neg hzero]
    -- the payload
    obtain ⟨hresult, hleft'⟩ := readFull_eq (getBE (tail.take 4)) r'
    rcases hpayload : readFull (getBE (tail.take 4)) r' with ⟨result, r''⟩
    rw [hpayload, hleft] at hresult hleft'
    by_cases hnil : tail.drop 4 = []
    · rw [hnil, if_neg (by simpa using hzero)] at hresult
      obtain rfl : result = .error .eof := hresult
      rw [if_pos hnil]
      exact ⟨rfl, by simp⟩
    rw [if_neg hnil]
    by_cases hshort : (tail.drop 4).length < getBE (tail.take 4)
    · have hsome : (tail.drop 4).length ≠ 0 := fun h ↦ hnil (eq_nil_of_length_eq_zero h)
      rw [if_neg (by omega), endError, if_neg hsome] at hresult
      obtain rfl : result = .error .unexpectedEof := hresult
      rw [if_pos hshort]
      exact ⟨rfl, by simp⟩
    · rw [if_pos (by omega)] at hresult
      obtain rfl : result = .ok ((tail.drop 4).take (getBE (tail.take 4))) := hresult
      rw [if_neg hshort]
      refine ⟨rfl, fun f rest h ↦ ?_⟩
      rw [← (Prod.mk.inj (Except.ok.inj h)).2]
      exact hleft'

/-! ## What should hold -/

/-- The length in the header of a stream. -/
def announced (stream : Bytes) : ℕ := getBE ((stream.drop 1).take 4)

/-- **An end is told from a truncation.** -/
structure Classified (r : Reader (BitVec 8)) : Prop where
  eof : (readFrameFrom r).1 = .error .eof ↔ r.stream = []
  header : r.stream ≠ [] → r.stream.length < 5 → (readFrameFrom r).1 = .error .shortHeader
  payload : 5 ≤ r.stream.length → announced r.stream ≤ maxFrameLen →
    r.stream.length < 5 + announced r.stream → (readFrameFrom r).1 = .error .shortPayload

/-- The stream was cut off between a header and a payload. -/
def EndsBehindHeader (stream : Bytes) : Prop :=
  stream.length = 5 ∧ announced stream ≠ 0 ∧ announced stream ≤ maxFrameLen

theorem reads_encodeAll {frames : List Frame} (hfits : ∀ f ∈ frames, f.Fits)
    {r : Reader (BitVec 8)} (hr : r.stream = encodeAll frames) :
    reads (frames.length + 1) r = frames.map .ok ++ [.error .eof] := by
  induction frames generalizing r with
  | nil =>
    have hend : readFrame r.stream = .error .eof := by
      rw [hr]
      rfl
    rw [reads, (readFrameFrom_eq r).1, hend]
    rfl
  | cons f frames ih =>
    have hread : readFrame r.stream = .ok (f, encodeAll frames) := by
      rw [hr]
      exact readFrame_encode (hfits f mem_cons_self) _
    have hrest := (readFrameFrom_eq r).2 f _ hread
    rw [length_cons, reads, (readFrameFrom_eq r).1, hread,
      ih (fun g hg ↦ hfits g (mem_cons_of_mem f hg)) hrest]
    rfl

theorem announced_cons (channel : BitVec 8) (tail : Bytes) :
    announced (channel :: tail) = getBE (tail.take 4) := rfl

variable {stream : Bytes}

theorem readFrame_eq_eof_iff :
    readFrame stream = .error .eof ↔ stream = [] ∨ EndsBehindHeader stream := by
  cases stream with
  | nil => exact iff_of_true rfl (.inl rfl)
  | cons channel tail =>
    have hdrop : tail.drop 4 = [] ↔ tail.length ≤ 4 := drop_eq_nil_iff
    rw [readFrame, EndsBehindHeader, length_cons, announced_cons]
    dsimp only
    split_ifs with hfour hlarge hzero hnil hshort
    · exact iff_of_false (by simp) (by simp; omega)
    · exact iff_of_false (by simp) (by simp; omega)
    · exact iff_of_false (by simp) (by simp; omega)
    · have hle := hdrop.mp hnil
      exact iff_of_true rfl (.inr ⟨by omega, hzero, by omega⟩)
    · rw [hdrop] at hnil
      exact iff_of_false (by simp) (by simp; omega)
    · rw [hdrop] at hnil
      exact iff_of_false (by simp) (by simp; omega)

theorem readFrame_eq_shortHeader (hne : stream ≠ []) (h : stream.length < 5) :
    readFrame stream = .error .shortHeader := by
  cases stream with
  | nil => exact absurd rfl hne
  | cons channel tail =>
    rw [length_cons] at h
    rw [readFrame, if_pos (by omega)]

theorem readFrame_eq_shortPayload (hfive : 5 ≤ stream.length)
    (hfits : announced stream ≤ maxFrameLen) (hshort : stream.length < 5 + announced stream)
    (hend : ¬ EndsBehindHeader stream) : readFrame stream = .error .shortPayload := by
  cases stream with
  | nil => nomatch hfive
  | cons channel tail =>
    rw [length_cons] at hfive
    rw [length_cons, announced_cons] at hshort
    rw [announced_cons] at hfits
    rw [EndsBehindHeader, length_cons, announced_cons] at hend
    have hnil : tail.drop 4 ≠ [] := by
      intro h
      have hle := drop_eq_nil_iff.mp h
      exact hend ⟨by omega, by omega, hfits⟩
    rw [readFrame, if_neg (by omega)]
    rw [if_neg (by omega), if_neg (by omega), if_neg hnil, if_pos (by rw [length_drop]; omega)]

/-- **The codec of the toolbox.** Frames that were written are read, however they arrive, and then
the end; and an end is told from a truncation unless the stream was cut off right behind a
header. -/
theorem codec (r : Reader (BitVec 8)) : (∀ frames : List Frame, (∀ f ∈ frames, f.Fits) →
      (∀ f ∈ frames, writeFrame f.channel f.payload = .ok f.encode) ∧
      (r.stream = encodeAll frames →
        reads (frames.length + 1) r = frames.map .ok ++ [.error .eof])) ∧
    (Classified r ↔ ¬ EndsBehindHeader r.stream) := by
  refine ⟨fun frames hfits ↦ ⟨fun f hf ↦ writeFrame_eq_ok (hfits f hf), fun hr ↦
    reads_encodeAll hfits hr⟩, ?_⟩
  have herror (e : FrameError) :
      (readFrameFrom r).1 = .error e ↔ readFrame r.stream = .error e := by
    rw [(readFrameFrom_eq r).1]
    cases readFrame r.stream with
    | error e' =>
      exact ⟨fun h ↦ by rw [Except.error.inj h], fun h ↦ by rw [Except.error.inj h]; rfl⟩
    | ok result => exact iff_of_false nofun nofun
  constructor
  · intro h hend
    have hnil := h.eof.mp ((herror .eof).mpr (readFrame_eq_eof_iff.mpr (.inr hend)))
    rw [hnil] at hend
    exact absurd hend.1 (by decide)
  · intro hend
    refine ⟨?_, fun hne h ↦ (herror _).mpr (readFrame_eq_shortHeader hne h),
      fun hfive hfits hshort ↦ (herror _).mpr (readFrame_eq_shortPayload hfive hfits hshort hend)⟩
    rw [herror, readFrame_eq_eof_iff, or_iff_left hend]

/-- A frame with a payload and one without, in three pieces of which one is empty. -/
theorem codec_pieces : reads 3 ⟨[[1, 0, 0], [], [0, 2, 104, 105, 2, 0, 0, 0, 0]], true⟩ =
        [.ok ⟨channelStdout, [104, 105]⟩, .ok ⟨channelStderr, []⟩, .error .eof] ∧
      Classified ⟨[[1, 0, 0], [], [0, 2, 104, 105, 2, 0, 0, 0, 0]], true⟩ := by
  have hfits : ∀ f ∈ [⟨channelStdout, [104, 105]⟩, ⟨channelStderr, []⟩], Frame.Fits f := by
    unfold Frame.Fits
    decide
  exact ⟨((codec _).1 _ hfits).2 rfl, (codec _).2.mpr fun h ↦ absurd h.1 (by decide)⟩

/-- **A truncation that is taken for the end.** The header announces a payload of one byte, and the
stream ends. -/
theorem not_classified_behindHeader : ¬ Classified ⟨[[1, 0, 0, 0, 1]], false⟩ ∧
      (readFrameFrom ⟨[[1, 0, 0, 0, 1]], false⟩).1 = .error .eof := by
  have hread : (readFrameFrom ⟨[[1, 0, 0, 0, 1]], false⟩).1 = .error .eof := by decide
  refine ⟨fun h ↦ ?_, hread⟩
  nomatch h.eof.mp hread

end Gocracker.Toolbox
