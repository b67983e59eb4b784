import Gocracker.Machine.Ascii
import Gocracker.Machine.LittleEndian

/-!
# Frames of the toolbox protocol

A frame is a channel byte, the length of the payload as four bytes, and the payload, which is at
most 1 MiB long. Everything that the agent and its clients exchange after the handshake is a
sequence of frames.

A reader of frames gets back what a writer has put on the wire: `readFrame` reads one frame off the
front of any stream (`readFrame_encode`), and what it reads was there (`eq_of_readFrame`). So the
loop of a client, `copyOutputUntilExit`, can be followed frame by frame.
-/

namespace Gocracker.Toolbox

open Machine List

/-- The channels of a connection: the standard streams, the exit code, and signals. -/
def channelStdin : BitVec 8 := 0
def channelStdout : BitVec 8 := 1
def channelStderr : BitVec 8 := 2
def channelExit : BitVec 8 := 3
def channelSignal : BitVec 8 := 4

/-- Larger payloads are neither written nor read. -/
def maxFrameLen : ℕ := 2 ^ 20

/-- Why a frame cannot be read or written. -/
inductive FrameError where
  | eof
  | shortHeader
  | shortPayload
  | tooLarge
  /-- The header announces a payload of this length. -/
  | peerTooLarge (length : ℕ)
  deriving DecidableEq

def FrameError.message : FrameError → String
  | .eof => "EOF"
  | .shortHeader => "toolbox frame: short read on 5-byte header"
  | .shortPayload => "toolbox frame: short read on payload"
  | .tooLarge => "toolbox frame: payload exceeds 1 MiB cap"
  | .peerTooLarge length => s!"toolbox frame: payload exceeds 1 MiB cap: peer sent {length} bytes"

/-- A payload, and the channel that it is for. -/
structure Frame where
  channel : BitVec 8
  payload : Bytes
  deriving DecidableEq

/-- One byte for the channel, four for the length. -/
def frameHeader (channel : BitVec 8) (length : ℕ) : Bytes := channel :: putBE 4 length

/-- A frame as it is on the wire. -/
def Frame.encode (f : Frame) : Bytes := frameHeader f.channel f.payload.length ++ f.payload

/-- The frames that can be sent. -/
def Frame.Fits (f : Frame) : Prop := f.payload.length ≤ maxFrameLen

/-- A payload that is too long is refused before anything is written. -/
def writeFrame (channel : BitVec 8) (payload : Bytes) : Except FrameError Bytes :=
  if maxFrameLen < payload.length then .error .tooLarge
  else .ok (frameHeader channel payload.length ++ payload)

/-- `ReadFrame` on a stream that ends behind these bytes: the frame and what is left. -/
def readFrame : Bytes → Except FrameError (Frame × Bytes)
  | [] => .error .eof
  | channel :: rest =>
    if rest.length < 4 then .error .shortHeader
    else
      let length := getBE (rest.take 4)
      let body := rest.drop 4
      if maxFrameLen < length then .error (.peerTooLarge length)
      else if length = 0 then .ok (⟨channel, []⟩, body)
      else if body = [] then .error .eof
      else if body.length < length then .error .shortPayload
      else .ok (⟨channel, body.take length⟩, body.drop length)

variable (code : BitVec 32)

/-- The frame of `WriteExitFrame`. -/
def exitFrame : Frame := ⟨channelExit, putBE 4 code.toNat⟩

/-- The exit code, in exactly four bytes. -/
def parseExitPayload (payload : Bytes) : Option (BitVec 32) :=
  if payload.length = 4 then some (BitVec.ofNat 32 (getBE payload)) else none

/-! ## Reading what was written -/

variable {channel : BitVec 8} {payload : Bytes}

theorem writeFrame_eq_ok (h : payload.length ≤ maxFrameLen) :
    writeFrame channel payload = .ok (Frame.encode ⟨channel, payload⟩) := by
  rw [writeFrame, if_neg (Nat.not_lt.mpr h), Frame.encode]

variable {f : Frame} {frames : List Frame}

/-- **A frame is read off the front of a stream.** -/
theorem readFrame_encode (h : f.Fits) (rest : Bytes) :
    readFrame (f.encode ++ rest) = .ok (f, rest) := by
  have hlength : getBE (putBE 4 f.payload.length) = f.payload.length := by
    refine getBE_putBE_of_lt (Nat.lt_of_le_of_lt h ?_)
    decide
  have hstream : f.encode ++ rest =
      f.channel :: (putBE 4 f.payload.length ++ (f.payload ++ rest)) := by
    rw [Frame.encode, frameHeader, cons_append, cons_append, append_assoc]
  have htake : (putBE 4 f.payload.length ++ (f.payload ++ rest)).take 4 =
      putBE 4 f.payload.length := take_left' (length_putBE 4 _)
  have hdrop : (putBE 4 f.payload.length ++ (f.payload ++ rest)).drop 4 = f.payload ++ rest :=
    drop_left' (length_putBE 4 _)
  have hfour : ¬ (putBE 4 f.payload.length ++ (f.payload ++ rest)).length < 4 := by
    rw [length_append, length_putBE]
    omega
  rw [hstream, readFrame, if_neg hfour]
  simp only [htake, hdrop, hlength]
  rw [if_neg (Nat.not_lt.mpr h)]
  rcases f with ⟨channel, payload⟩
  cases payload with
  | nil => rfl
  | cons b payload =>
    rw [if_neg (by simp), if_neg (by simp), if_neg (by simp), take_left, drop_left]

variable {stream rest : Bytes}

/-- **What is read was there.** -/
theorem eq_of_readFrame (h : readFrame stream = .ok (f, rest)) :
    stream = f.encode ++ rest ∧ f.Fits := by
  cases stream with
  | nil => nomatch h
  | cons channel tail =>
    simp only [readFrame] at h
    split_ifs at h with hfour hlarge hzero hbody hshort
    · -- an empty payload
      obtain ⟨⟩ := h
      refine ⟨?_, Nat.zero_le _⟩
      have hheader := putBE_getBE (tail.take 4)
      rw [length_take, Nat.min_eq_left (Nat.le_of_not_lt hfour), hzero] at hheader
      rw [Frame.encode, frameHeader, append_nil, length_nil, hheader, cons_append, take_append_drop]
    · obtain ⟨⟩ := h
      have hlength : ((tail.drop 4).take (getBE (tail.take 4))).length = getBE (tail.take 4) := by
        rw [length_take, Nat.min_eq_left (Nat.le_of_not_lt hshort)]
      refine ⟨?_, hlength.le.trans (Nat.le_of_not_lt hlarge)⟩
      have hheader := putBE_getBE (tail.take 4)
      rw [length_take, Nat.min_eq_left (Nat.le_of_not_lt hfour)] at hheader
      rw [Frame.encode, frameHeader, hlength, hheader, cons_append, cons_append,
        append_assoc, take_append_drop, take_append_drop]

theorem length_lt_of_readFrame
    (h : readFrame stream = .ok (f, rest)) : rest.length < stream.length := by
  rw [(eq_of_readFrame h).1, length_append, Frame.encode, length_append, frameHeader, length_cons]
  omega

theorem fits_exitFrame : (exitFrame code).Fits := by
  rw [Frame.Fits, exitFrame, length_putBE]
  decide

theorem parseExitPayload_exitFrame : parseExitPayload (exitFrame code).payload = some code := by
  rw [parseExitPayload, exitFrame, if_pos (length_putBE 4 _), getBE_putBE_of_lt code.isLt,
    BitVec.ofNat_toNat, BitVec.setWidth_eq]

/-! ## The client -/

/-- What a client has when the command is over. -/
structure Output where
  stdout : Bytes
  stderr : Bytes
  code : BitVec 32
  deriving DecidableEq

/-- Why a client has no exit code. -/
inductive ClientError where
  /-- "agent closed conn before EXIT frame" -/
  | closed
  | frame (e : FrameError)
  | exitPayload (length : ℕ)
  deriving DecidableEq

/-- `copyOutputUntilExit`, with writers that take everything: what was written to them so far and
the stream; and what is left of it. -/
def copyOutputUntilExit (stdout stderr stream : Bytes) : Except ClientError (Output × Bytes) :=
  match _h : readFrame stream with
  | .error .eof => .error .closed
  | .error e => .error (.frame e)
  | .ok (f, rest) =>
    if f.channel = channelStdout then copyOutputUntilExit (stdout ++ f.payload) stderr rest
    else if f.channel = channelStderr then copyOutputUntilExit stdout (stderr ++ f.payload) rest
    else if f.channel = channelExit then
      match parseExitPayload f.payload with
      | some code => .ok (⟨stdout, stderr, code⟩, rest)
      | none => .error (.exitPayload f.payload.length)
    else copyOutputUntilExit stdout stderr rest
termination_by stream.length
decreasing_by all_goals exact length_lt_of_readFrame _h

/-- Frames one after the other. -/
def encodeAll (frames : List Frame) : Bytes := frames.flatMap Frame.encode

/-- What has come on a channel. -/
def payloads (channel : BitVec 8) (frames : List Frame) : Bytes :=
  frames.flatMap fun f ↦ if f.channel = channel then f.payload else []

theorem encodeAll_cons_append (f : Frame) (frames : List Frame) (rest : Bytes) :
    encodeAll (f :: frames) ++ rest = f.encode ++ (encodeAll frames ++ rest) := by
  rw [encodeAll, flatMap_cons, append_assoc, ← encodeAll]

@[simp] theorem encodeAll_concat (frames : List Frame) (f : Frame) :
    encodeAll (frames ++ [f]) = encodeAll frames ++ f.encode := by
  rw [encodeAll, encodeAll, flatMap_append, flatMap_singleton]

@[simp] theorem payloads_concat (channel : BitVec 8) (frames : List Frame) (f : Frame) :
    payloads channel (frames ++ [f]) =
      payloads channel frames ++ if f.channel = channel then f.payload else [] := by
  rw [payloads, payloads, flatMap_append, flatMap_singleton]

/-- **The client collects what the frames carry**, as long as none of them is an exit frame. -/
theorem copyOutputUntilExit_encodeAll (hfits : ∀ f ∈ frames, f.Fits)
    (hexit : ∀ f ∈ frames, f.channel ≠ channelExit) (stdout stderr rest : Bytes) :
    copyOutputUntilExit stdout stderr (encodeAll frames ++ rest) =
      copyOutputUntilExit (stdout ++ payloads channelStdout frames)
        (stderr ++ payloads channelStderr frames) rest := by
  induction frames generalizing stdout stderr with
  | nil => simp [encodeAll, payloads]
  | cons f frames ih =>
    have hread := readFrame_encode (hfits f mem_cons_self) (encodeAll frames ++ rest)
    have hrest := ih (fun g hg ↦ hfits g (mem_cons_of_mem f hg))
      (fun g hg ↦ hexit g (mem_cons_of_mem f hg))
    have hpayloads (channel : BitVec 8) : payloads channel (f :: frames) =
        (if f.channel = channel then f.payload else []) ++ payloads channel frames := by
      rw [payloads, flatMap_cons, ← payloads]
    rw [encodeAll_cons_append, copyOutputUntilExit, hpayloads, hpayloads]
    split
    · rename_i h
      nomatch h.symm.trans hread
    · rename_i h
      nomatch h.symm.trans hread
    rename_i g tail h
    obtain ⟨rfl, rfl⟩ := Prod.mk.inj (Except.ok.inj (h.symm.trans hread))
    by_cases hout : g.channel = channelStdout
    · have herr : g.channel ≠ channelStderr := by rw [hout]; decide
      rw [if_pos hout, if_pos hout, if_neg herr, hrest, append_assoc, nil_append]
    by_cases herr : g.channel = channelStderr
    · rw [if_neg hout, if_pos herr, if_neg hout, if_pos herr, hrest, append_assoc, nil_append]
    · rw [if_neg hout, if_neg herr, if_neg (hexit g mem_cons_self), if_neg hout,
        if_neg herr, hrest, nil_append, nil_append]

theorem copyOutputUntilExit_exitFrame (stdout stderr rest : Bytes) (code : BitVec 32) :
    copyOutputUntilExit stdout stderr ((exitFrame code).encode ++ rest) =
      .ok (⟨stdout, stderr, code⟩, rest) := by
  have hread := readFrame_encode (fits_exitFrame code) rest
  rw [copyOutputUntilExit]
  split
  · rename_i h
    nomatch h.symm.trans hread
  · rename_i h
    nomatch h.symm.trans hread
  rename_i g tail h
  obtain ⟨rfl, rfl⟩ := Prod.mk.inj (Except.ok.inj (h.symm.trans hread))
  have hchannel : (exitFrame code).channel = channelExit := rfl
  rw [if_neg (by rw [hchannel]; decide), if_neg (by rw [hchannel]; decide), if_pos hchannel,
    parseExitPayload_exitFrame]

theorem copyOutputUntilExit_session (hfits : ∀ f ∈ frames, f.Fits)
    (hexit : ∀ f ∈ frames, f.channel ≠ channelExit) (code : BitVec 32) :
    copyOutputUntilExit [] [] (encodeAll (frames ++ [exitFrame code])) =
      .ok (⟨payloads channelStdout frames, payloads channelStderr frames, code⟩, []) := by
  have h := copyOutputUntilExit_encodeAll hfits hexit [] [] (exitFrame code).encode
  rw [encodeAll_concat, h]
  have hlast := copyOutputUntilExit_exitFrame (payloads channelStdout frames)
    (payloads channelStderr frames) [] code
  rwa [append_nil] at hlast

/-! ## The frames in a stream -/

/-- The frames that are read off a stream, at most so many. -/
def framesWithin : ℕ → Bytes → List Frame
  | 0, _ => []
  | fuel + 1, stream =>
    match readFrame stream with
    | .ok (f, rest) => f :: framesWithin fuel rest
    | .error _ => []

/-- The frames that can be read off a stream. -/
def framesIn (stream : Bytes) : List Frame := framesWithin stream.length stream

theorem mem_framesWithin (hfits : ∀ f ∈ frames, f.Fits)
    (hf : f ∈ frames) {fuel : ℕ} (hfuel : (encodeAll frames ++ rest).length ≤ fuel) :
    f ∈ framesWithin fuel (encodeAll frames ++ rest) := by
  induction frames generalizing fuel with
  | nil => nomatch hf
  | cons g frames ih =>
    have hread := readFrame_encode (hfits g mem_cons_self) (encodeAll frames ++ rest)
    have hlt := length_lt_of_readFrame hread
    rw [encodeAll_cons_append] at hfuel ⊢
    obtain ⟨fuel, rfl⟩ : ∃ n, fuel = n + 1 := Nat.exists_eq_add_of_lt (by omega : 0 < fuel) |>.imp
      fun n hn ↦ by omega
    rw [framesWithin, hread]
    rcases mem_cons.mp hf with rfl | hmem
    · exact mem_cons_self
    · exact mem_cons_of_mem g (ih (fun h hh ↦ hfits h (mem_cons_of_mem g hh)) hmem (by omega))

end Gocracker.Toolbox
