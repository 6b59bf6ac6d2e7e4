import FitScript.Proofs.Cli.Delivery

/-!
# What a generation changes

* `SameEffects`: two ends of runs that differ in the log at most.
* `effectsOf`, `Delivers.effects_eq`: what the stages of a run come to determines its effects,
  whether its data are verified or not.
* `HeaderReadable`, `scriptAt_verifyData`: verifying a header that can be read changes no stage.
* `run_generate_delivers`: a run prints or writes all of its script or nothing, and verifying the
  data changes none of it.
-/

namespace FitScript.Cli

open Outcome

variable {machine : Machine} {refusals : Refusals} {contents : Contents} {g : Generator}
  {generation : Generation}

/-! ## Effects -/

/-- Two ends of runs have the same status, files and output: they differ in the log at most. -/
structure SameEffects (first second : Nat × MachineState) : Prop where
  status : first.1 = second.1
  files : first.2.files = second.2.files
  output : first.2.output = second.2.output

/-- The status, the files and the output that a run ends with when its stages have some result. The
    data may have been verified or not. -/
def effectsOf (machine : Machine) (refusals : Refusals) (generation : Generation)
    (before : MachineState) : Except Failure (Generator × String) → Nat × FileTree × String
  | .error _ => (1, before.files, before.output)
  | .ok (g, script) =>
    match generation.out with
    | none => (0, before.files, before.output ++ script)
    | some directory =>
      match refusals.write before.files (g.scriptPath directory) (Text.Utf8.encode script) with
      | .error _ => (1, before.files, before.output)
      | .ok files =>
        (if generation.check ∧ ¬ machine.parses files (g.scriptPath directory) then 1 else 0, files,
          before.output ++ ((g.scriptPath directory).display ++ "\n"))

/-- What the stages come to determines the status, the files and what is printed. -/
theorem Delivers.effects_eq {before after : MachineState} {status : Nat}
    {result : Except Failure (Generator × String)}
    (h : Delivers machine refusals generation before result status after) :
    (status, after.files, after.output) = effectsOf machine refusals generation before result := by
  cases h with
  | refused => rfl
  | printed g script told out =>
    rw [effectsOf, out]
    rfl
  | unwritten g script told summary out write =>
    rw [effectsOf, out]
    simp only
    rw [write]
    rfl
  | written g script told puts checked =>
    rw [effectsOf, puts.out]
    simp only
    rw [puts.write]
    exact congrArg (·, _) (if_neg fun hfailed => hfailed.2 (checked hfailed.1)).symm
  | unparsed g script told report puts check fails =>
    rw [effectsOf, puts.out]
    simp only
    rw [puts.write]
    exact congrArg (·, _) (if_pos ⟨check, fails⟩).symm

/-- Runs whose stages have one result have the same effects, whether one of the stages verified the
    data or not. -/
theorem Delivers.sameEffects {before after after' : MachineState} {status status' : Nat}
    {result : Except Failure (Generator × String)}
    (h : Delivers machine refusals { generation with verifyData := false } before result status
      after)
    (h' : Delivers machine refusals { generation with verifyData := true } before result status'
      after') : SameEffects (status, after) (status', after') := by
  have heq : (status, after.files, after.output) = (status', after'.files, after'.output) :=
    h.effects_eq.trans h'.effects_eq.symm
  obtain ⟨hstatus, heq⟩ := Prod.mk.inj heq
  obtain ⟨hfiles, houtput⟩ := Prod.mk.inj heq
  exact ⟨hstatus, hfiles, houtput⟩

/-! ## Verification -/

/-- The header of the data file can be read, if the run comes to a generator with a data file. -/
def HeaderReadable (contents : Contents) (generation : Generation) : Prop :=
  ∀ g source, generatorAt contents generation = .ok g → g.data = some source →
    ∃ columns, contents.columnsAt source = .ok columns

theorem verifiedAt_of_headerReadable (h : HeaderReadable contents generation)
    (hg : generatorAt contents generation = .ok g) : verifiedAt contents g = .ok () := by
  unfold verifiedAt
  cases hdata : g.data with
  | none => rfl
  | some source => exact void_eq_ok_iff.mpr (h g source hg hdata)

/-- Verifying a header that can be read does not change what the stages come to. -/
theorem scriptAt_verifyData (h : HeaderReadable contents generation) :
    scriptAt contents { generation with verifyData := false } =
      scriptAt contents { generation with verifyData := true } := by
  have hprepared : preparedAt contents { generation with verifyData := false } =
      preparedAt contents { generation with verifyData := true } := by
    show (generatorAt contents generation >>= fun g => .ok () >>= fun _ => .ok g) =
      (generatorAt contents generation >>= fun g => verifiedAt contents g >>= fun _ => .ok g)
    cases hg : generatorAt contents generation with
    | error failure => rfl
    | ok g =>
      show Except.ok g = verifiedAt contents g >>= fun _ => .ok g
      rw [verifiedAt_of_headerReadable h hg]
      rfl
  rw [scriptAt, scriptAt, hprepared]

/-! ## The command -/

/-- **Generating a script is atomic and confined.** Whatever a system refuses, and whatever script a
    run is asked for, by arguments or otherwise, the run ends as the stages before its delivery ask
    for: nothing is printed or written unless all of them succeed, and then at most one file is
    written, which is in the directory that is given and holds the script. If the header can be
    read, a run that is also asked to verify the data has the same status, files and output. -/
theorem run_generate_delivers (machine : Machine) (refusals : Refusals) (state : MachineState)
    (generation : Generation) :
    (∀ verbosity, ∃ status after,
      carryOut (machine.hostWith refusals) (.generate verbosity generation) state =
          (status, after) ∧
        Delivers machine refusals generation state
          (scriptAt (refusals.read state.files) generation) status after) ∧
    (HeaderReadable (refusals.read state.files) generation → ∀ verbosity verbosity',
      SameEffects
        (carryOut (machine.hostWith refusals)
          (.generate verbosity { generation with verifyData := false }) state)
        (carryOut (machine.hostWith refusals)
          (.generate verbosity' { generation with verifyData := true }) state)) ∧
    ∀ arguments verbosity,
      Request.ofArguments arguments = some (.generate verbosity generation) →
        run (machine.hostWith refusals) arguments state =
          carryOut (machine.hostWith refusals) (.generate verbosity generation) state := by
  refine ⟨fun verbosity => exists_delivers machine refusals verbosity generation state, ?_,
    fun arguments verbosity => run_eq_carryOut⟩
  intro hreadable verbosity verbosity'
  obtain ⟨status, after, hrun, hdelivers⟩ :=
    exists_delivers machine refusals verbosity { generation with verifyData := false } state
  obtain ⟨status', after', hrun', hdelivers'⟩ :=
    exists_delivers machine refusals verbosity' { generation with verifyData := true } state
  rw [hrun, hrun']
  rw [scriptAt_verifyData hreadable] at hdelivers
  exact hdelivers.sameEffects hdelivers'

/-- A machine with an interpreter that parses no script. -/
def strictMachine : Machine :=
  { commands := [(Interpreter.programName, fun arguments =>
      ⟨some (if arguments = Interpreter.arguments ["--version"] then 0 else 1), [], []⟩)]
    programs := []
    environment := [] }

/-- The description of a model, its data, and a directory for its script. -/
def workspace : FileTree :=
  let content := "\x7b\"schema\": \"1.0\", \"dv\": \"y\", \"ivs\": [\"a\"], " ++
    "\"family\": \"gaussian\", \"data\": \"d.csv\"\x7d"
  (((FileTree.emptyAt []).addFile (.ofString "m.json") (Text.Utf8.encode content)).addFile
    (.ofString "d.csv") (Text.Utf8.encode "y\n")).addDirectory (.ofString "out")

/-- A script is asked for in that directory, and a check of it. -/
def checkedGeneration : Generation :=
  ⟨.ofString "m.json", none, some (.ofString "out"), none, false, true⟩

/-- The check fails, and leaves the script that was written, with or without verification. Where
    nothing may be written, nothing is printed either. -/
theorem run_generate_delivers_unparsed :
    let state : MachineState := ⟨workspace, "", ""⟩
    let plain := ["generate", "m.json", "--out=out", "--check"]
    Request.ofArguments plain = some (.generate 0 checkedGeneration) ∧
      HeaderReadable (Refusals.never.read workspace) checkedGeneration ∧
      (∃ after, run (strictMachine.hostWith .never) plain state = (1, after) ∧
        after.output = "out/model.R\n" ∧
        Delivers strictMachine .never checkedGeneration state
          (scriptAt (Refusals.never.read workspace) checkedGeneration) 1 after) ∧
      SameEffects
        (carryOut (strictMachine.hostWith .never)
          (.generate 0 { checkedGeneration with verifyData := false }) state)
        (carryOut (strictMachine.hostWith .never)
          (.generate 0 { checkedGeneration with verifyData := true }) state) ∧
      ∃ after, run (strictMachine.hostWith readOnly) plain state = (1, after) ∧
        after.output = "" ∧ after.files = workspace ∧
        Delivers strictMachine readOnly checkedGeneration state
          (scriptAt (readOnly.read workspace) checkedGeneration) 1 after := by
  intro state plain
  have hrequest : Request.ofArguments plain = some (.generate 0 checkedGeneration) := by
    decide +kernel
  have hdata : (generatorAt (Refusals.never.read workspace) checkedGeneration).map (·.data) =
      .ok (some ⟨.ofString "d.csv"⟩) := by
    decide +kernel
  have hcolumns : Contents.columnsAt (Refusals.never.read workspace) ⟨.ofString "d.csv"⟩ =
      .ok ["y"] := by
    decide +kernel
  have hreadable : HeaderReadable (Refusals.never.read workspace) checkedGeneration := by
    intro g source hg hsource
    rw [hg] at hdata
    have hnamed := (Except.ok.inj hdata).symm.trans hsource
    exact ⟨["y"], Option.some.inj hnamed ▸ hcolumns⟩
  have heffects : ((run (strictMachine.hostWith .never) plain state).1,
      (run (strictMachine.hostWith .never) plain state).2.output) = (1, "out/model.R\n") := by
    decide +kernel
  have hkept : ((run (strictMachine.hostWith readOnly) plain state).1,
      (run (strictMachine.hostWith readOnly) plain state).2.output,
      (run (strictMachine.hostWith readOnly) plain state).2.files) = (1, "", workspace) := by
    decide +kernel
  obtain ⟨hends, hsame, harguments⟩ :=
    run_generate_delivers strictMachine .never state checkedGeneration
  obtain ⟨hrefused, -, harguments'⟩ :=
    run_generate_delivers strictMachine readOnly state checkedGeneration
  obtain ⟨status, after, hrun, hdelivers⟩ := hends 0
  rw [← harguments plain 0 hrequest] at hrun
  rw [hrun] at heffects
  obtain ⟨rfl, houtput⟩ := Prod.mk.inj heffects
  obtain ⟨status, after', hrun', hdelivers'⟩ := hrefused 0
  rw [← harguments' plain 0 hrequest] at hrun'
  rw [hrun'] at hkept
  obtain ⟨rfl, heq⟩ := Prod.mk.inj hkept
  obtain ⟨houtput', hfiles'⟩ := Prod.mk.inj heq
  exact ⟨hrequest, hreadable, ⟨after, hrun, houtput, hdelivers⟩, hsame hreadable 0 0,
    after', hrun', houtput', hfiles', hdelivers'⟩

end FitScript.Cli
