import Gocracker.Dockerfile.Plan

/-!
# The order of a build

A build carries out the instructions in front of the first `FROM` and those of the stages that are
needed, and nothing else. They stand in the plan as they stand in the file (`carriedOut_sublist`).
The trace shows that none of them is begun before those in front of it are done, and that all of
them are done when the build ends without an error.
-/

namespace Gocracker.Dockerfile

open Machine Machine.Logged Posix List Option Builder

variable {planned : PlannedInstruction} {index : ℕ}

theorem position_of_mem_numbered {start : ℕ} {instrs : List Instruction}
    (h : planned ∈ numbered start instrs) :
    start ≤ planned.position ∧ instrs[planned.position - start]? = some planned.instr := by
  induction instrs generalizing start with
  | nil => nomatch h
  | cons instr instrs ih =>
    rw [numbered, mem_cons] at h
    rcases h with rfl | h
    · exact ⟨le_rfl, by rw [Nat.sub_self]; rfl⟩
    obtain ⟨hle, hget⟩ := ih h
    refine ⟨by omega, ?_⟩
    have hsub : planned.position - start = (planned.position - (start + 1)) + 1 := by omega
    rw [hsub, getElem?_cons_succ, hget]

theorem pairwise_numbered (start : ℕ) (instrs : List Instruction) :
    (numbered start instrs).Pairwise fun x y ↦ x.position < y.position := by
  induction instrs generalizing start with
  | nil => exact .nil
  | cons instr instrs ih =>
    exact .cons (fun y hy ↦ (position_of_mem_numbered hy).1) (ih (start + 1))

variable {stages : List PlannedStage}

theorem Plans.flatMap_instrs {lex : Lexer} {args : Vars} {position : ℕ}
    (h : Plans lex args position index stages) :
    stages.flatMap PlannedStage.instrs = numbered position (allInstrs stages) := by
  induction h with
  | nil => rfl
  | @cons args position index stage rest fromArgs platform image body _ hinstrs _ _ _ _ _ ih =>
    have hlength : position + (Instruction.fromImage fromArgs platform :: body).length =
        position + body.length + 1 := rfl
    rw [flatMap_cons, ih, allInstrs_cons hinstrs, numbered_append, hlength, hinstrs]

/-- What a build has to do: the instructions of the preamble and those of the stages that are
needed, with the number of their stage. -/
def carriedOut (preamble : List PlannedInstruction) (stages : List PlannedStage) :
    List (Option ℕ × PlannedInstruction) :=
  preamble.map (fun planned ↦ (none, planned)) ++
    (stages.filter fun stage ↦ stage.index ∈ markReachableStages stages).flatMap fun stage ↦
      stage.instrs.map fun planned ↦ (some stage.index, planned)

variable {tools : Tools} {seed : Vars} {instrs : List Instruction}
  {preamble : List PlannedInstruction}

/-- A build is one loop. -/
theorem execute_eq_forEach (hplan : buildStagePlan tools.lex seed instrs = .ok (preamble, stages)) :
    execute tools instrs (init seed) =
      (forEach (fun x ↦ runPlanned tools x.1 x.2) (carriedOut preamble stages) >>= fun _ ↦
        finishBuild) (init seed) := by
  have hstage : (fun stage : PlannedStage ↦ forEach (fun x ↦ runPlanned tools x.1 x.2)
      (stage.instrs.map fun planned ↦ (some stage.index, planned))) = runStage tools := by
    funext stage
    exact forEach_map _ _ _
  rw [execute_init, hplan, carriedOut, forEach_append, forEach_map, forEach_flatMap, hstage]
  exact congrFun (LawfulMonad.bind_assoc _ _ _).symm _

/-- In the order of the file, and each as it is there. -/
theorem carriedOut_sublist (hplan : buildStagePlan tools.lex seed instrs = .ok (preamble, stages)) :
    ((carriedOut preamble stages).map Prod.snd).Sublist (numbered 1 instrs) := by
  obtain ⟨hpre, hinstrs, hplans⟩ := plans_of_planPreamble hplan
  have hall : numbered 1 instrs = preamble ++ stages.flatMap PlannedStage.instrs := by
    rw [hplans.flatMap_instrs, hpre, ← numbered_append, ← hinstrs]
  have hfront : (preamble.map fun planned ↦ ((none : Option ℕ), planned)).map Prod.snd =
      preamble := by
    rw [List.map_map]
    exact List.map_id preamble
  have hstages (stages : List PlannedStage) :
      (stages.flatMap fun stage ↦ stage.instrs.map fun planned ↦ (some stage.index, planned)).map
        Prod.snd = stages.flatMap PlannedStage.instrs := by
    rw [map_flatMap]
    refine flatMap_congr fun stage _ ↦ ?_
    rw [List.map_map]
    exact List.map_id stage.instrs
  rw [hall, carriedOut, map_append, hfront, hstages]
  exact (List.Sublist.refl preamble).append (filter_sublist.flatMap _)

/-- An entry belongs to something in the list, and all that comes before that is done. -/
def InTurn (flat : List (Option ℕ × PlannedInstruction)) (before : List Entry) (entry : Entry) :
    Prop :=
  (∃ x ∈ flat, x.1 = entry.stage ∧ x.2.position = entry.position) ∧
    ∀ x ∈ flat, x.2.position < entry.position → ⟨x.1, x.2.position, .finished⟩ ∈ before

/-- A build does what is in the list: one after the other, and all of it unless it fails. -/
structure RunsInTurn (flat : List (Option ℕ × PlannedInstruction))
    (run : List Entry × Except ExecuteError (PUnit × Builder)) : Prop where
  inTurn : Sound (InTurn flat) [] run.1
  complete : ∀ b, run.2 = .ok (⟨⟩, b) → ∀ x ∈ flat, ⟨x.1, x.2.position, .finished⟩ ∈ run.1

/-- **One after the other, in the order of the file.** Nothing begins before all that is to be
carried out in front of it is done. So nothing comes behind an instruction that fails; and a build
that does not fail leaves nothing out. -/
theorem runsInTurn (hplan : buildStagePlan tools.lex seed instrs = .ok (preamble, stages)) :
    RunsInTurn (carriedOut preamble stages) (execute tools instrs (init seed)) := by
  have hpairwise := (pairwise_numbered 1 instrs).sublist (carriedOut_sublist hplan)
  rw [pairwise_map] at hpairwise
  rw [execute_eq_forEach hplan]
  generalize carriedOut preamble stages = flat at hpairwise
  -- the invariant of the loop: what it has passed is done
  let Passed (done : List (Option ℕ × PlannedInstruction)) (before : List Entry) (_ : Builder) :=
    ∀ x ∈ done, ⟨x.1, x.2.position, .finished⟩ ∈ before
  have hloop : Ensures (InTurn flat) (Passed [])
      (forEach (fun x ↦ runPlanned tools x.1 x.2) flat) fun _ ↦ Passed flat := by
    refine .forEach_done fun done x rest hflat ↦ ?_
    refine ensures_runPlanned .of_true trivial (fun _ _ _ ↦ trivial) ?_ ?_
    · intro before b l event hb _
      refine ⟨⟨x, by simp [hflat], rfl, rfl⟩, fun y hy hlt ↦ mem_append_left l (hb y ?_)⟩
      -- what stands behind `x` in the file is not in front of it
      rw [hflat] at hy hpairwise
      have hlater := (pairwise_cons.mp (pairwise_append.mp hpairwise).2.1).1
      grind
    · exact fun before b l _ hb _ hl ↦ forall_mem_append.mpr
        ⟨fun y hy ↦ mem_append_left l (hb y hy), forall_mem_singleton.mpr (mem_append_right _ hl)⟩
  have hbuild := Ensures.bind hloop fun _ ↦ ensures_finishBuild fun _ _ h ↦ h
  obtain ⟨hsound, hdone⟩ := hbuild [] (init seed) nofun
  exact ⟨hsound, fun b hb ↦ hdone ⟨⟩ b hb⟩

def namedStages : List PlannedStage :=
  [⟨0, ['a'], "scratch".toList, [], [⟨2, scratchAs ['a']⟩]⟩,
    ⟨1, [], ['a'], [['a'], ['a']], numbered 3 (namedBuild.drop 2)⟩]

/-- Both stages are carried out, and the build ends without an error. -/
theorem runsInTurn_namedBuild :
    buildStagePlan plainLexer linuxArgs namedBuild =
        .ok (numbered 1 (namedBuild.take 1), namedStages) ∧
      RunsInTurn (carriedOut (numbered 1 (namedBuild.take 1)) namedStages)
        (execute scratchTools namedBuild (init linuxArgs)) ∧
      (execute scratchTools namedBuild (init linuxArgs)).2.isOk = true := by
  have hplan : buildStagePlan plainLexer linuxArgs namedBuild =
      .ok (numbered 1 (namedBuild.take 1), namedStages) := by decide +kernel
  exact ⟨hplan, runsInTurn hplan, by decide +kernel⟩

end Gocracker.Dockerfile
