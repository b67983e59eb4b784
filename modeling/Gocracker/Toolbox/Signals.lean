import Gocracker.Toolbox.Session

/-!
# Signals to the process

The agent sends a signal to the process if the client asks for it, and `SIGTERM` and then `SIGKILL`
if the client goes away. How does it know that the client went away? The goroutine that reads the
client's frames has returned.

But that goroutine also returns when it cannot write to the process: because the process has closed
its input, or because the client has sent more input after the end of input; and when it does not
like a frame. In all these cases the client is there, waits for the process to exit, and sees it
killed. If none of them happens as long as the process is running, signals are sent for cause only.
-/

namespace Gocracker.Toolbox

open Machine Transition List Option

def Session.SentSignal (s : Session) : Prop :=
  ∃ f ∈ framesIn s.sent, f.channel = channelSignal

/-- **A signal is sent for cause**: the client has sent one, or went away before the process
exited. -/
def Session.ForCause (s : Session) : Prop :=
  s.signals ≠ [] → s.SentSignal ∨ s.client = .gone true

/-- The stream begins with the header of a frame that is too large. -/
def oversized (stream : Bytes) : Bool :=
  match readFrame stream with
  | .error (.peerTooLarge _) => true
  | _ => false

/-- As long as the process is running, frames are not too large and there is somebody to take the
input. -/
def Session.Orderly (s : Session) : Event → Prop
  | .input _ => s.status = none →
    match s.input with
    | .reading => oversized s.inbox = false
    | .writing _ => s.stdinWriter = true ∧ s.stdinReader = true
    | .returned => True
  | _ => True

instance decidableOrderly (s : Session) : ∀ e : Event, Decidable (s.Orderly e)
  | .input timeout => by
    unfold Session.Orderly
    exact match s.input with
      | .reading => inferInstanceAs (Decidable (s.status = none → oversized s.inbox = false))
      | .writing _ => inferInstanceAs
          (Decidable (s.status = none → s.stdinWriter = true ∧ s.stdinReader = true))
      | .returned => inferInstanceAs (Decidable (s.status = none → True))
  | .output _ _ | .closeOutput _ | .closeStdin | .exit _ | .send _ | .disconnect | .pump _ _ _
  | .main _ | .escalate | .kill | .retire => .isTrue trivial

/-! ## The invariant -/

namespace Session

variable {s s' : Session} {f : Frame}

structure Calm (s : Session) : Prop where
  sent : s.sent = encodeAll s.received ++ s.inbox
  fits : ∀ f ∈ s.received, f.Fits
  reaped : s.main.processDone = true → s.status ≠ none
  /-- Who has gone while the process is running has gone before it exits. -/
  early : ∀ running, s.client = .gone running → s.status = none → running = true
  /-- The reader of frames returns early only if the client is gone. -/
  gone : s.input = .returned → s.status = none → s.client = .gone true
  escalated : s.escalation ≠ .watching → s.status = none → s.input = .returned
  caused : s.signals ≠ [] →
    (∃ f ∈ s.received, f.channel = channelSignal) ∨ s.client = .gone true

theorem calm_start (tty : Bool) : (start tty).Calm where
  sent := rfl
  fits := nofun
  reaped := nofun
  early := nofun
  gone := nofun
  escalated h := absurd rfl h
  caused h := absurd rfl h

theorem Calm.forCause (hs : s.Calm) : s.ForCause := by
  intro hsignals
  refine (hs.caused hsignals).imp_left fun ⟨f, hf, hchannel⟩ ↦ ⟨f, ?_, hchannel⟩
  rw [hs.sent]
  exact mem_framesWithin hs.fits hf le_rfl

/-- Nothing that the invariant speaks of has changed but the stage of the main goroutine. -/
structure SameCalm (s s' : Session) : Prop where
  sent : s'.sent = s.sent
  inbox : s'.inbox = s.inbox
  received : s'.received = s.received
  status : s'.status = s.status
  client : s'.client = s.client
  input : s'.input = s.input
  escalation : s'.escalation = s.escalation
  signals : s'.signals = s.signals

theorem Calm.of_same (hs : s.Calm) (h : SameCalm s s')
    (hmain : s'.main.processDone = true → s.status ≠ none) : s'.Calm := by
  obtain ⟨hsent, hinbox, hreceived, hstatus, hclient, hinput, hescalation, hsignals⟩ := h
  refine ⟨?_, ?_, ?_, ?_, ?_, ?_, ?_⟩
  · rw [hsent, hreceived, hinbox]
    exact hs.sent
  · rw [hreceived]
    exact hs.fits
  · rw [hstatus]
    exact hmain
  · rw [hclient, hstatus]
    exact hs.early
  · rw [hinput, hstatus, hclient]
    exact hs.gone
  · rw [hescalation, hstatus, hinput]
    exact hs.escalated
  · rw [hsignals, hreceived, hclient]
    exact hs.caused

theorem sameCalm_of_emitStep {stage : Emission} {r : Progress} (h : EmitStep s f stage s' r) :
    SameCalm s s' ∧ s'.main = s.main := by
  cases h <;> exact ⟨by constructor <;> rfl, rfl⟩

section

variable (hs : s.Calm)
include hs

theorem Calm.pump {fd : Fd} (h : PumpStep s fd s') : s'.Calm := by
  cases h with
  | close | read => exact hs.of_same (by constructor <;> rfl) hs.reaped
  | emit hpump hemit =>
    obtain ⟨hsame, hmain⟩ := sameCalm_of_emitStep hemit
    exact hs.of_same { hsame with } fun h ↦ hs.reaped (hmain ▸ h)

theorem Calm.mainGoroutine (h : MainStep s s') : s'.Calm := by
  have hwait {status : WaitStatus} (hstatus : s.status = some status) : s.status ≠ none := by
    rw [hstatus]
    nofun
  cases h with
  | join hmain hdone => exact hs.of_same (by constructor <;> rfl) nofun
  | waitTerminal hmain hstatus htty | waitPipes hmain hstatus =>
    exact hs.of_same (by constructor <;> rfl) fun _ ↦ hwait hstatus
  | joinInput hmain =>
    exact hs.of_same (by constructor <;> rfl) fun _ ↦ hs.reaped (by rw [hmain]; rfl)
  | emit hmain hemit =>
    obtain ⟨hsame, -⟩ := sameCalm_of_emitStep hemit
    exact hs.of_same { hsame with } fun _ ↦ hs.reaped (by rw [hmain]; rfl)

/-- **A signal**, for a cause that is on record. -/
theorem Calm.signal {sig : BitVec 8} (hcause : s.status = none →
    (∃ f ∈ s.received, f.channel = channelSignal) ∨ s.client = .gone true) :
    (s.signal sig).Calm := by
  rw [Session.signal]
  split_ifs with hstatus
  · exact { hs with caused := fun _ ↦ hcause hstatus }
  · exact hs

theorem Calm.receive {rest : Bytes} (hread : readFrame s.inbox = .ok (f, rest)) :
    Calm { s with inbox := rest, received := s.received ++ [f] } := by
  obtain ⟨hinbox, hfits⟩ := eq_of_readFrame hread
  refine { hs with sent := ?_, fits := fun g hg ↦ ?_, caused := fun hsignals ↦ ?_ }
  · rw [encodeAll_concat, append_assoc, ← hinbox]
    exact hs.sent
  · rcases mem_append.mp hg with hold | hnew
    · exact hs.fits g hold
    · exact mem_singleton.mp hnew ▸ hfits
  · refine (hs.caused hsignals).imp_left fun ⟨g, hg, hchannel⟩ ↦ ?_
    exact ⟨g, mem_append_left _ hg, hchannel⟩

theorem Calm.dispatch (hf : f ∈ s.received) (hinput : s.input ≠ .returned) :
    (s.dispatch f).Calm := by
  rw [Session.dispatch]
  split_ifs with hstdin hempty hsignal
  · exact { hs with }
  · exact { hs with
      gone := by simp, escalated := fun h hstatus ↦ absurd (hs.escalated h hstatus) hinput }
  · rw [dispatchSignal.eq_def]
    split
    · split_ifs
      · exact hs.signal fun _ ↦ .inl ⟨f, hf, hsignal⟩
      · exact hs
    · exact hs
  · exact hs

theorem Calm.return {stdinWriter : Bool} (hgone : s.status = none → s.client = .gone true) :
    Calm { s with stdinWriter := stdinWriter, input := .returned } :=
  { hs with gone := fun _ ↦ hgone, escalated := fun _ _ ↦ rfl }

theorem Calm.read {timeout : Bool} (hok : s.Orderly (.input timeout))
    (hstep : s.step (.input timeout) = some s') : s'.Calm := by
  revert hstep
  rw [step]
  fun_cases inputStep s timeout with try rintro ⟨⟩
  | case1 hinput htimeout hends =>
    -- only after the process has exited
    refine hs.return fun hstatus ↦ absurd hstatus (hs.reaped ?_)
    cases hmain : s.main with
    | joinPumps | wait | emitting => rw [hmain] at hends; cases hends
    | joinInput | returned => rfl
  | case3 hinput _ g rest hread =>
    refine (hs.receive hread).dispatch (mem_append_right _ mem_cons_self) ?_
    simp [hinput]
  | case4 hinput _ length hread =>
    refine hs.return fun hstatus ↦ ?_
    have h := hok hstatus
    rw [hinput, oversized, hread] at h
    cases h
  | case6 hinput _ _ hread _ hclient =>
    refine hs.return fun hstatus ↦ ?_
    cases hgone : s.client with
    | connected => exact absurd hgone hclient
    | gone running => rw [hs.early running hgone hstatus]
  | case7 payload hinput hopen =>
    refine { hs with gone := by simp, escalated := fun h hstatus ↦ ?_ }
    cases hinput.symm.trans (hs.escalated h hstatus)
  | case8 payload hinput hopen =>
    refine hs.return fun hstatus ↦ absurd ?_ hopen
    have h := hok hstatus
    rwa [hinput] at h

theorem Calm.step {e : Event} (hok : s.Orderly e) (hstep : s.step e = some s') : s'.Calm := by
  revert hstep
  fun_cases Session.step s e with try rintro ⟨⟩
  | case5 =>
    exact { hs with
      reaped := by simp, early := by simp, gone := by simp, escalated := by simp }
  | case7 =>
    refine { hs with sent := ?_ }
    rw [← append_assoc, ← hs.sent]
  | case9 hclient =>
    have hnot (b : Bool) : s.client ≠ .gone b := by
      simp [hclient]
    refine { hs with
      early := fun running hgone hstatus ↦ ?_, gone := fun hinput hstatus ↦ ?_
      caused := fun hsignals ↦ ?_ }
    · rw [← Client.gone.inj hgone]
      exact decide_eq_true hstatus
    · exact absurd (hs.gone hinput hstatus) (hnot true)
    · exact .inl ((hs.caused hsignals).resolve_right (hnot true))
  | case11 => exact fun hstep ↦ hs.pump (.of_step hstep)
  | case12 => exact fun hstep ↦ hs.mainGoroutine (.of_step hstep)
  | case13 => exact fun hstep ↦ hs.read hok hstep
  | case14 hready =>
    have h : (s.signal sigterm).Calm := hs.signal fun hstatus ↦ .inr (hs.gone hready.2 hstatus)
    refine { h with escalated := fun _ _ ↦ ?_ }
    rw [Session.signal]
    split_ifs <;> exact hready.2
  | case16 hgrace =>
    have hwatching : s.escalation ≠ .watching := by
      simp [hgrace]
    have h : (s.signal sigkill).Calm := hs.signal fun hstatus ↦
      .inr (hs.gone (hs.escalated hwatching hstatus) hstatus)
    refine { h with escalated := fun _ ↦ h.escalated ?_ }
    rw [Session.signal]
    split_ifs <;> exact hwatching
  | case18 hdone => exact { hs with escalated := fun _ hstatus ↦ absurd hstatus (hs.reaped hdone) }
  | _ => all_goals exact hs.of_same (by constructor <;> rfl) hs.reaped

end

end Session

/-- **Signals are sent for cause only**, with and without a terminal, in every state of every run in
which the reader of frames is not stopped for another reason. -/
theorem forCause_of_orderly {tty : Bool} {events : List Event} {s : Session}
    (hrun : Run Session.step Session.Orderly (.start tty) events s) : s.ForCause :=
  Session.Calm.forCause
    (hrun.invariant (I := Session.Calm) (fun _ _ _ hs hok hstep ↦ hs.step hok hstep)
      (Session.calm_start tty))

/-! ## Two runs -/

/-- A line of input, the end of input, and then the client goes. -/
def inputThenGone : List Event :=
  [.send (Frame.encode ⟨channelStdin, [0x78]⟩), .input false, .input false,
    .send (Frame.encode ⟨channelStdin, []⟩), .input false, .disconnect, .input false, .escalate,
    .kill]

theorem forCause_inputThenGone : ∃ s,
    Run Session.step Session.Orderly (.start false) inputThenGone s ∧
    (s.signals, s.status) = ([sigterm, sigkill], none) ∧ s.ForCause := by
  refine Run.exists_of_exec _ (by decide +kernel)
    fun s hrun hsignals ↦ ⟨hsignals, forCause_of_orderly hrun⟩

/-- The process closes its input, and the client, which does not know, sends a line. -/
def closedStdin : List Event :=
  [.closeStdin, .send (Frame.encode ⟨channelStdin, [0x78]⟩), .input false, .input false, .escalate,
    .kill]

/-- The client is connected and has sent no signal, and the running process gets both. -/
theorem not_forCause_closedStdin : ∃ s, Run Session.step anyStep (.start false) closedStdin s ∧
    (s.signals, s.status, s.client) = ([sigterm, sigkill], none, .connected) ∧ ¬ s.ForCause := by
  refine Run.exists_of_exec (fun s ↦ s.sent = Frame.encode ⟨channelStdin, [0x78]⟩ ∧
    (s.signals, s.status, s.client) = ([sigterm, sigkill], none, .connected)) (by decide +kernel)
    fun s hrun ⟨hsent, hrest⟩ ↦ ⟨hrest, fun hcause ↦ ?_⟩
  obtain ⟨hsignals, hrest⟩ := Prod.mk.inj hrest
  rcases hcause (by rw [hsignals]; nofun) with ⟨f, hf, hchannel⟩ | hgone
  · rw [hsent] at hf
    have hframes : framesIn (Frame.encode ⟨channelStdin, [0x78]⟩) = [⟨channelStdin, [0x78]⟩] := by
      decide +kernel
    rw [mem_singleton.mp hf] at hchannel
    nomatch hchannel
  · nomatch (Prod.mk.inj hrest).2.symm.trans hgone

end Gocracker.Toolbox
