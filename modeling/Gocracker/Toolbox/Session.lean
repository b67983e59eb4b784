import Gocracker.Toolbox.Frames
import Gocracker.Transition.Run

/-!
# A session of the exec endpoint

`handleExec` runs a process for a client. Several goroutines share the connection: one pump for each
output of the process, one that reads the client's frames, one that waits for the client to go away,
and the main one, which waits for the pumps and then for the process and sends the exit code.

Everything that one of them does without waiting is one step, and steps of different goroutines come
in any order. A frame is written in two steps, header and payload, under a lock. The process and the
client do what they like.

With a terminal (`TTY`) there is one output, the terminal is closed by whoever reads the client's
frames, and the main goroutine waits for that reader before it sends the exit code.
-/

namespace Gocracker.Toolbox

open Machine Transition Option

/-! ## The state -/

/-- The outputs of a process. -/
inductive Fd where
  | stdout
  | stderr
  deriving DecidableEq

/-- Each output of the process has its channel. -/
def Fd.channel : Fd → BitVec 8
  | .stdout => channelStdout
  | .stderr => channelStderr

/-- What was ever written to a pipe, how much of it was read, and whether all writers are gone. -/
structure Pipe where
  written : Bytes := []
  taken : ℕ := 0
  closed : Bool := false

/-- What was written and not yet read. -/
def Pipe.pending (p : Pipe) : Bytes := p.written.drop p.taken

/-- How a process has ended. -/
inductive WaitStatus where
  | exited (code : BitVec 8)
  | signaled (signal : BitVec 8)
  deriving DecidableEq

/-- A signal gives the code `-1`. -/
def exitCodeFromWait : WaitStatus → BitVec 32
  | .exited code => code.setWidth 32
  | .signaled _ => -1

/-- Where a writer of a frame is: in front of the lock, or inside and about to write. -/
inductive Emission where
  | lock
  | header
  | payload
  deriving DecidableEq

/-- How a step of a writer ends. -/
inductive Progress where
  | next (stage : Emission)
  | finished
  | failed
  deriving DecidableEq

/-- `pumpReaderToFrames`. -/
inductive Pump where
  | reading
  | emitting (stage : Emission) (chunk : Bytes)
  | done
  deriving DecidableEq

/-- `runWithPipes` and `runWithPTY` once the process is started. -/
inductive Main where
  | joinPumps
  | wait
  /-- With a terminal: wait for the reader of the client's frames. -/
  | joinInput (code : BitVec 32)
  | emitting (stage : Emission) (code : BitVec 32)
  | returned (code : BitVec 32)
  deriving DecidableEq

/-- `pumpFramesToProcess`. -/
inductive Input where
  | reading
  | writing (payload : Bytes)
  /-- It has returned, and `clientGone` is closed. -/
  | returned
  deriving DecidableEq

/-- `escalateOnClientGone`. -/
inductive Escalation where
  | watching
  | grace
  | over
  deriving DecidableEq

/-- The other end of the connection. -/
inductive Client where
  | connected
  /-- It has gone, when the process was still running or afterwards. -/
  | gone (running : Bool)
  deriving DecidableEq

/-- The process, the connection, and the goroutines between them. -/
structure Session where
  tty : Bool
  status : Option WaitStatus
  pipes : Fd → Pipe
  pumps : Fd → Pump
  /-- The agent has not closed the input of the process. -/
  stdinWriter : Bool
  /-- The process has not closed its input. -/
  stdinReader : Bool
  locked : Bool
  /-- What the agent has sent. -/
  wire : Bytes
  main : Main
  client : Client
  /-- What the client has sent, and what of it was not read yet. -/
  sent : Bytes
  inbox : Bytes
  /-- The frames that were read. -/
  received : List Frame
  input : Input
  escalation : Escalation
  /-- The signals that the agent has sent to the process while it was running. -/
  signals : List (BitVec 8)

/-- What the process, the client or a goroutine of the agent does next. -/
inductive Event where
  /-- The process, or one that has inherited its output, writes. -/
  | output (fd : Fd) (bytes : Bytes)
  | closeOutput (fd : Fd)
  | closeStdin
  | exit (status : WaitStatus)
  | send (bytes : Bytes)
  | disconnect
  /-- A pump gets on. It reads so many bytes; writing to the connection works or fails. -/
  | pump (fd : Fd) (n : ℕ) (ok : Bool)
  | main (ok : Bool)
  | input (timeout : Bool)
  /-- `clientGone` is seen. -/
  | escalate
  /-- The time to exit is over. -/
  | kill
  /-- `processDone` is seen. -/
  | retire

/-- The buffer that a pump reads into. -/
def outputChunkSize : ℕ := 32 * 2 ^ 10

def sigterm : BitVec 8 := 15
def sigkill : BitVec 8 := 9

/-! ## Steps -/

/-- `processDone` is closed when `Wait` has returned. -/
def Main.processDone : Main → Bool
  | .joinPumps | .wait => false
  | _ => true

/-- The connection has a read deadline in the past, or is closed. -/
def Main.endsReading : Main → Bool
  | .joinInput _ | .returned _ => true
  | _ => false

namespace Session

variable (s : Session)

/-- A step of `WriteFrame` under the lock. Writing fails only if the client is gone. -/
def emit (f : Frame) (ok : Bool) : Emission → Option (Session × Progress)
  | .lock => if s.locked then none else some ({ s with locked := true }, .next .header)
  | .header =>
    if maxFrameLen < f.payload.length then some ({ s with locked := false }, .failed)
    else if ok then
      let wire := s.wire ++ frameHeader f.channel f.payload.length
      if f.payload = [] then some ({ s with wire := wire, locked := false }, .finished)
      else some ({ s with wire := wire }, .next .payload)
    else if s.client = .connected then none else some ({ s with locked := false }, .failed)
  | .payload =>
    if ok then some ({ s with wire := s.wire ++ f.payload, locked := false }, .finished)
    else if s.client = .connected then none else some ({ s with locked := false }, .failed)

def setPump (fd : Fd) (p : Pump) : Session :=
  { s with pumps := Function.update s.pumps fd p }

def setPipe (fd : Fd) (p : Pipe) : Session :=
  { s with pipes := Function.update s.pipes fd p }

/-- A pump goes on reading when its chunk is sent. -/
def afterChunk (chunk : Bytes) : Progress → Pump
  | .next stage => .emitting stage chunk
  | .finished => .reading
  | .failed => .done

/-- The call returns, whether or not the exit code could be sent. -/
def afterExit (code : BitVec 32) : Progress → Main
  | .next stage => .emitting stage code
  | .finished | .failed => .returned code

/-- A step of a pump: it reads a chunk, or sends a part of one. -/
def pumpStep (fd : Fd) (n : ℕ) (ok : Bool) : Option Session :=
  match s.pumps fd with
  | .reading =>
    let pipe := s.pipes fd
    -- the terminal may be closed already
    if s.tty ∧ ¬ s.stdinWriter then some (s.setPump fd .done)
    else if pipe.pending = [] then if pipe.closed then some (s.setPump fd .done) else none
    else if 0 < n ∧ n ≤ outputChunkSize ∧ n ≤ pipe.pending.length then
      some ((s.setPipe fd { pipe with taken := pipe.taken + n }).setPump fd
        (.emitting .lock (pipe.pending.take n)))
    else none
  | .emitting stage chunk =>
    (s.emit ⟨fd.channel, chunk⟩ ok stage).map fun r ↦ r.1.setPump fd (afterChunk chunk r.2)
  | .done => none

/-- A step of the call: pumps first, then the process, then the exit code. -/
def mainStep (ok : Bool) : Option Session :=
  match s.main with
  | .joinPumps =>
    if s.pumps .stdout = .done ∧ s.pumps .stderr = .done then some { s with main := .wait }
    else none
  | .wait => s.status.map fun status ↦
    let code := exitCodeFromWait status
    if s.tty then { s with main := .joinInput code }
    -- `Wait` closes the pipes
    else { s with main := .emitting .lock code, stdinWriter := false }
  | .joinInput code =>
    if s.input = .returned then some { s with main := .emitting .lock code } else none
  | .emitting stage code =>
    (s.emit (exitFrame code) ok stage).map fun r ↦ { r.1 with main := afterExit code r.2 }
  | .returned _ => none

/-- A signal reaches the process as long as it is running. -/
def signal (sig : BitVec 8) : Session :=
  if s.status = none then { s with signals := s.signals ++ [sig] } else s

/-- `dispatchSignal`: the window size is not modelled. -/
def dispatchSignal : Bytes → Session
  | kind :: sig :: _ => if kind = 0x73 then s.signal sig else s
  | _ => s

/-- What a frame of the client asks for. Other channels are ignored. -/
def dispatch (f : Frame) : Session :=
  if f.channel = channelStdin then
    if f.payload = [] ∧ ¬ s.tty then { s with stdinWriter := false }
    else { s with input := .writing f.payload }
  else if f.channel = channelSignal then s.dispatchSignal f.payload
  else s

/-- A step of the goroutine that reads the client's frames. -/
def inputStep (timeout : Bool) : Option Session :=
  match s.input with
  | .reading =>
    if timeout then
      if s.main.endsReading then some { s with stdinWriter := false, input := .returned } else none
    else
      match readFrame s.inbox with
      | .ok (f, rest) => some (dispatch { s with inbox := rest, received := s.received ++ [f] } f)
      | .error (.peerTooLarge _) => some { s with stdinWriter := false, input := .returned }
      | .error _ =>
        -- there may be more to come
        if s.client = .connected then none
        else some { s with stdinWriter := false, input := .returned }
  | .writing _ =>
    if s.stdinWriter ∧ s.stdinReader then some { s with input := .reading }
    else some { s with input := .returned }
  | .returned => none

def step : Event → Option Session
  | .output fd bytes =>
    let pipe := s.pipes fd
    if pipe.closed then none
    else some (s.setPipe fd { pipe with written := pipe.written ++ bytes })
  | .closeOutput fd => some (s.setPipe fd { s.pipes fd with closed := true })
  | .closeStdin => some { s with stdinReader := false }
  | .exit status => if s.status = none then some { s with status := some status } else none
  | .send bytes =>
    if s.client = .connected then
      some { s with sent := s.sent ++ bytes, inbox := s.inbox ++ bytes }
    else none
  | .disconnect =>
    if s.client = .connected then some { s with client := .gone (s.status = none) } else none
  | .pump fd n ok => s.pumpStep fd n ok
  | .main ok => s.mainStep ok
  | .input timeout => s.inputStep timeout
  | .escalate =>
    if s.escalation = .watching ∧ s.input = .returned then
      some { s.signal sigterm with escalation := .grace }
    else none
  | .kill =>
    if s.escalation = .grace then some { s.signal sigkill with escalation := .over } else none
  | .retire => if s.main.processDone then some { s with escalation := .over } else none

/-- A terminal has one output for both streams. -/
def start (tty : Bool) : Session where
  tty := tty
  status := none
  pipes := fun fd ↦ { closed := tty && fd = .stderr }
  pumps := fun fd ↦ if tty ∧ fd = .stderr then .done else .reading
  stdinWriter := true
  stdinReader := true
  locked := false
  wire := []
  main := .joinPumps
  client := .connected
  sent := []
  inbox := []
  received := []
  input := .reading
  escalation := .watching
  signals := []

end Session

/-! ## What a writer does -/

open Session

section Emit

variable {s s' : Session} {f : Frame} {ok : Bool} {stage : Emission} {r : Progress}

/-- What the sending of a frame can do in one step. -/
inductive EmitStep (s : Session) (f : Frame) : Emission → Session → Progress → Prop
  | lock (hfree : s.locked = false) : EmitStep s f .lock { s with locked := true } (.next .header)
  | header (hne : f.payload ≠ []) :
      EmitStep s f .header { s with wire := s.wire ++ frameHeader f.channel f.payload.length }
        (.next .payload)
  | empty (hnil : f.payload = []) : EmitStep s f .header
        { s with wire := s.wire ++ frameHeader f.channel f.payload.length, locked := false }
        .finished
  | payload :
      EmitStep s f .payload { s with wire := s.wire ++ f.payload, locked := false } .finished
  | fail {stage : Emission} (hfail : ¬ f.Fits ∨ s.client ≠ .connected) :
      EmitStep s f stage { s with locked := false } .failed

theorem EmitStep.of_emit (h : s.emit f ok stage = some (s', r)) : EmitStep s f stage s' r := by
  revert h
  fun_cases emit s f ok stage with rintro ⟨⟩
  | case2 hfree => exact .lock (Bool.eq_false_iff.mpr hfree)
  | case3 hlarge => exact .fail (.inl (Nat.not_le.mpr hlarge))
  | case4 _ _ _ hnil => exact .empty hnil
  | case5 _ _ _ hnil => exact .header hnil
  | case8 => exact .payload
  | case7 _ _ hclient | case10 _ hclient => exact .fail (.inr hclient)

end Emit

/-! ## What pumps and the main goroutine do -/

section Steps

variable {s s' : Session} {fd : Fd} {n : ℕ} {ok : Bool}

inductive PumpStep (s : Session) (fd : Fd) : Session → Prop
  | close (hpump : s.pumps fd = .reading)
      (hend : s.tty = true ∨ (s.pipes fd).pending = [] ∧ (s.pipes fd).closed = true) :
      PumpStep s fd (s.setPump fd .done)
  | read {n : ℕ} (hpump : s.pumps fd = .reading) (hpos : 0 < n) (hchunk : n ≤ outputChunkSize)
      (hn : n ≤ (s.pipes fd).pending.length) :
      PumpStep s fd ((s.setPipe fd { s.pipes fd with taken := (s.pipes fd).taken + n }).setPump fd
        (.emitting .lock ((s.pipes fd).pending.take n)))
  | emit {stage : Emission} {chunk : Bytes} {s' : Session} {r : Progress}
      (hpump : s.pumps fd = .emitting stage chunk)
      (hemit : EmitStep s ⟨fd.channel, chunk⟩ stage s' r) :
      PumpStep s fd (s'.setPump fd (afterChunk chunk r))

theorem PumpStep.of_step (h : s.step (.pump fd n ok) = some s') : PumpStep s fd s' := by
  simp only [step, pumpStep] at h
  split at h
  · rename_i hpump
    split_ifs at h with htty hnil hclosed hn
    · obtain ⟨⟩ := h
      exact .close hpump (.inl htty.1)
    · obtain ⟨⟩ := h
      exact .close hpump (.inr ⟨hnil, hclosed⟩)
    · obtain ⟨⟩ := h
      exact .read hpump hn.1 hn.2.1 hn.2.2
  · rename_i stage chunk hpump
    obtain ⟨⟨s₁, r⟩, hemit, rfl⟩ := map_eq_some_iff.mp h
    exact .emit hpump (.of_emit hemit)
  · nomatch h

/-- What a step of the call can do. -/
inductive MainStep (s : Session) : Session → Prop
  | join (hmain : s.main = .joinPumps) (hdone : ∀ fd, s.pumps fd = .done) :
      MainStep s { s with main := .wait }
  | waitTerminal {status : WaitStatus} (hmain : s.main = .wait) (hstatus : s.status = some status)
      (htty : s.tty = true) : MainStep s { s with main := .joinInput (exitCodeFromWait status) }
  | waitPipes {status : WaitStatus} (hmain : s.main = .wait) (hstatus : s.status = some status) :
      MainStep s { s with
        main := .emitting .lock (exitCodeFromWait status)
        stdinWriter := false }
  | joinInput {code : BitVec 32} (hmain : s.main = .joinInput code) :
      MainStep s { s with main := .emitting .lock code }
  | emit {stage : Emission} {code : BitVec 32} {s' : Session} {r : Progress}
      (hmain : s.main = .emitting stage code) (hemit : EmitStep s (exitFrame code) stage s' r) :
      MainStep s { s' with main := afterExit code r }

theorem MainStep.of_step (h : s.step (.main ok) = some s') : MainStep s s' := by
  simp only [step, mainStep] at h
  split at h
  · rename_i hmain
    obtain ⟨hdone, ⟨⟩⟩ := ite_none_right_eq_some.mp h
    refine .join hmain fun fd ↦ ?_
    cases fd with
    | stdout => exact hdone.1
    | stderr => exact hdone.2
  · rename_i hmain
    obtain ⟨status, hstatus, rfl⟩ := map_eq_some_iff.mp h
    split_ifs with htty
    · exact .waitTerminal hmain hstatus htty
    · exact .waitPipes hmain hstatus
  · rename_i code hmain
    obtain ⟨-, ⟨⟩⟩ := ite_none_right_eq_some.mp h
    exact .joinInput hmain
  · rename_i stage code hmain
    obtain ⟨⟨s₁, r⟩, hemit, rfl⟩ := map_eq_some_iff.mp h
    exact .emit hmain (.of_emit hemit)
  · nomatch h

end Steps

end Gocracker.Toolbox
