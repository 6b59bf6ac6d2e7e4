import FitScript.Proofs.Cli.Checking
import FitScript.Proofs.Cli.Stages
import FitScript.Proofs.Cli.Writing

/-!
# Deliveries

How a run ends that generates a script: with what status, what is printed, which files are changed
and what is told.

* `deliver_error`, `deliver_printed`, `deliver_unwritten`, `deliver_written`: what delivering a
  script comes to.
* `Delivers`: how a run ends for what its stages come to. `exists_delivers`: every request for a
  script ends in this way.
-/

namespace FitScript.Cli

open Outcome

variable {machine : Machine} {refusals : Refusals} {state : MachineState} {files : FileTree}
  {generation : Generation} {g : Generator} {script : String}

/-! ## Steps -/

section

variable (machine refusals state) (filter : LogFilter)

/-- A script that cannot be generated is reported. -/
theorem deliver_error (generation : Generation) {e : LookupError} (h : g.script = .error e) :
    ∃ summary, (deliver (machine.hostWith refusals) filter generation g).run state =
      (.error (.because summary (.lookup e)), state) := by
  unfold deliver
  cases generation.out with
  | none =>
    refine ⟨"generating script", Steps.run_bind_error ?_⟩
    rw [h]
    exact run_attempt rfl _
  | some directory =>
    exact ⟨"writing script into " ++ directory.display,
      Steps.run_bind_error (run_attempt (writeScript_error h) _)⟩

/-- Without a directory a script is printed. -/
theorem deliver_printed (hout : generation.out = none) (hscript : g.script = .ok script) :
    (deliver (machine.hostWith refusals) filter generation g).run state =
      (.ok (), { state with output := state.output ++ script }) := by
  have hstep : (pure (g.script.mapError Failure.lookup) : StateM MachineState _) state =
      (.ok script, state) := by
    rw [hscript]
    rfl
  unfold deliver
  rw [hout]
  simp only
  rw [Steps.run_bind_ok (run_attempt hstep _), run_print]

variable {directory : FilePath} (hout : generation.out = some directory)
  (hscript : g.script = .ok script)

include hout hscript

/-- A script that cannot be written is reported. -/
theorem deliver_unwritten {e : FileError}
    (hwrite : refusals.write state.files (g.scriptPath directory) (Text.Utf8.encode script) =
      .error e) :
    ∃ summary, (deliver (machine.hostWith refusals) filter generation g).run state =
      (.error (.because summary (.file (g.scriptPath directory) e)), state) := by
  unfold deliver
  rw [hout]
  exact ⟨"writing script into " ++ directory.display,
    Steps.run_bind_error (run_attempt (writeScript_write_error hscript hwrite) _)⟩

/-- A script is written and its path is printed, before the check and whatever that comes to. -/
theorem deliver_written
    (hwrite : refusals.write state.files (g.scriptPath directory) (Text.Utf8.encode script) =
      .ok files) :
    ∃ told result, (deliver (machine.hostWith refusals) filter generation g).run state =
      (result, { logged state told with
        files
        output := state.output ++ ((g.scriptPath directory).display ++ "\n") }) ∧
      (result = .ok () ↔ (generation.check → machine.parses files (g.scriptPath directory))) := by
  have hwritten := run_attempt (writeScript_eq machine hscript hwrite)
    ("writing script into " ++ directory.display)
  obtain ⟨told, htold⟩ := exists_run_tell machine refusals filter
    (.scriptWritten (g.scriptPath directory)) { state with files }
  have hprinted := @run_print machine refusals (logged { state with files } told)
    ((g.scriptPath directory).display ++ "\n")
  unfold deliver
  rw [hout]
  simp only
  rw [Steps.run_bind_ok hwritten, Steps.run_bind_ok htold, Steps.run_bind_ok hprinted]
  cases generation.check with
  | false => exact ⟨told, .ok (), rfl, by simp⟩
  | true =>
    -- the check starts with the file in its place and the path printed, and changes neither
    obtain ⟨others, result, hrun, hresult⟩ := exists_run_checkScript machine refusals filter
      (g.scriptPath directory) { logged state told with
        files, output := state.output ++ ((g.scriptPath directory).display ++ "\n") }
    refine ⟨told ++ others, result, ?_, by rw [hresult]; simp⟩
    rw [if_pos rfl]
    refine hrun.trans ?_
    rw [← logged_logged]
    rfl

end

/-! ## Runs -/

/-- A script is put into the directory that is given, under the name that the settings give it and
    as the only change to the files. -/
structure Puts (refusals : Refusals) (generation : Generation) (g : Generator) (script : String)
    (directory : FilePath) (before after : FileTree) : Prop where
  out : generation.out = some directory
  name : ∃ settings, Contents.settingsAt (refusals.read before) generation.config = .ok settings ∧
    g.options = settings.generator
  write : refusals.write before (g.scriptPath directory) (Text.Utf8.encode script) = .ok after
  into : WrittenInto g directory script before after

/-- How a run ends, in a status and a state, when the stages before the delivery of its script have
    some result. Apart from the changes that are named, only events are told. -/
inductive Delivers (machine : Machine) (refusals : Refusals) (generation : Generation)
    (before : MachineState) :
    Except Failure (Generator × String) → Nat → MachineState → Prop where
  /-- A stage failed, and the failure is reported. Nothing is printed, and every file is as it
      was. -/
  | refused (failure : Failure) (told : List Event) (summary : String) :
    Delivers machine refusals generation before (.error failure) 1
      (reported (logged before told) (.because summary failure))
  /-- Without a directory the script is printed, and every file is as it was. -/
  | printed (g : Generator) (script : String) (told : List Event) (out : generation.out = none) :
    Delivers machine refusals generation before (.ok (g, script)) 0
      { logged before told with output := before.output ++ script }
  /-- The script cannot be written, and the reason is reported. Nothing is printed, and every file
      is as it was. -/
  | unwritten (g : Generator) (script : String) (told : List Event) (summary : String)
    {directory : FilePath} {e : FileError} (out : generation.out = some directory)
    (write : refusals.write before.files (g.scriptPath directory) (Text.Utf8.encode script) =
      .error e) :
    Delivers machine refusals generation before (.ok (g, script)) 1
      (reported (logged before told) (.because summary (.file (g.scriptPath directory) e)))
  /-- The script is written, and its path is printed. If a check is asked for, it succeeds. -/
  | written (g : Generator) (script : String) (told : List Event) {directory : FilePath}
    {files : FileTree} (puts : Puts refusals generation g script directory before.files files)
    (checked : generation.check → machine.parses files (g.scriptPath directory)) :
    Delivers machine refusals generation before (.ok (g, script)) 0
      { logged before told with
        files, output := before.output ++ ((g.scriptPath directory).display ++ "\n") }
  /-- The script is written and its path is printed, and then a check fails and is reported. -/
  | unparsed (g : Generator) (script : String) (told : List Event) (report : Report)
    {directory : FilePath} {files : FileTree}
    (puts : Puts refusals generation g script directory before.files files)
    (check : generation.check) (fails : ¬ machine.parses files (g.scriptPath directory)) :
    Delivers machine refusals generation before (.ok (g, script)) 1
      (reported { logged before told with
        files, output := before.output ++ ((g.scriptPath directory).display ++ "\n") } report)

/-- The options of a generator that is prepared are those of the settings, which were accepted. -/
theorem exists_settings_of_preparedAt {contents : Contents}
    (h : preparedAt contents generation = .ok g) :
    g.Accepted ∧ ∃ settings, contents.settingsAt generation.config = .ok settings ∧
      g.options = settings.generator := by
  obtain ⟨g', hg, h⟩ := bind_eq_ok_iff.mp h
  obtain ⟨_, -, h⟩ := bind_eq_ok_iff.mp h
  obtain rfl := Except.ok.inj h
  obtain ⟨settings, hsettings, hg⟩ := bind_eq_ok_iff.mp hg
  obtain ⟨_, -, hg⟩ := bind_eq_ok_iff.mp hg
  obtain ⟨_, -, hg⟩ := bind_eq_ok_iff.mp hg
  obtain ⟨g₀, -, hg⟩ := bind_eq_ok_iff.mp hg
  have hoptions := mapError_eq_ok_iff.mp hg
  obtain ⟨_, hcheck, heq⟩ := map_eq_ok_iff.mp hoptions
  rw [← heq]
  exact ⟨Generator.accepted_iff.mpr hcheck, settings, hsettings, rfl⟩

section

variable {steps : Steps (StateM MachineState) Unit} {filter : LogFilter} {told : List Event}
  (hrun : steps.run state =
    (deliver (machine.hostWith refusals) filter generation g).run (logged state told))
  (hprepared : preparedAt (refusals.read state.files) generation = .ok g)

include hrun hprepared

/-- Steps that come to deliver a script into a directory end as writing it asks for. -/
theorem exists_delivers_into (hscript : g.script = .ok script) {directory : FilePath}
    (hout : generation.out = some directory) : ∃ status after,
      finish (machine.hostWith refusals) steps state = (status, after) ∧
        Delivers machine refusals generation state (.ok (g, script)) status after := by
  obtain ⟨haccepted, hname⟩ := exists_settings_of_preparedAt hprepared
  cases hwrite : refusals.write state.files (g.scriptPath directory) (Text.Utf8.encode script) with
  | error e =>
    obtain ⟨summary, hreport⟩ :=
      deliver_unwritten machine refusals (logged state told) filter hout hscript hwrite
    exact ⟨1, _, finish_error (hrun.trans hreport), .unwritten g script told summary hout hwrite⟩
  | ok files =>
    have hinto := writtenInto_of_write haccepted (Refusals.write_eq_ok_iff.mp hwrite).2
    have hputs : Puts refusals generation g script directory state.files files :=
      ⟨hout, hname, hwrite, hinto⟩
    obtain ⟨others, result, hwritten, hresult⟩ :=
      deliver_written machine refusals (logged state told) filter hout hscript hwrite
    rw [logged_logged] at hwritten
    cases result with
    | ok _ =>
      exact ⟨0, _, finish_ok (hrun.trans hwritten),
        .written g script (told ++ others) hputs (hresult.mp rfl)⟩
    | error report =>
      obtain ⟨hcheck, hfails⟩ := Classical.not_imp.mp (mt hresult.mpr (by simp))
      exact ⟨1, _, finish_error (hrun.trans hwritten),
        .unparsed g script (told ++ others) report hputs hcheck hfails⟩

/-- Steps that come to deliver a script end as the script asks for. -/
theorem exists_delivers_of_run : ∃ status after,
    finish (machine.hostWith refusals) steps state = (status, after) ∧
      Delivers machine refusals generation state
        (scriptAt (refusals.read state.files) generation) status after := by
  unfold scriptAt
  rw [hprepared]
  show ∃ status after, _ ∧ Delivers machine refusals generation state
    (g.script.mapError .lookup >>= fun script => pure (g, script)) status after
  cases hscript : g.script with
  | error e =>
    obtain ⟨summary, hreport⟩ :=
      deliver_error machine refusals (logged state told) filter generation hscript
    exact ⟨1, _, finish_error (hrun.trans hreport), .refused (.lookup e) told summary⟩
  | ok script =>
    cases hout : generation.out with
    | none =>
      have hprinted :=
        deliver_printed machine refusals (logged state told) filter hout hscript
      exact ⟨0, _, finish_ok (hrun.trans hprinted), .printed g script told hout⟩
    | some directory => exact exists_delivers_into hrun hprepared hscript hout

end

/-- A generation ends as the stages before its delivery ask for. -/
theorem exists_delivers_of_generate (machine : Machine) (refusals : Refusals) (filter : LogFilter)
    (generation : Generation) (state : MachineState) : ∃ status after,
      finish (machine.hostWith refusals) (generate (machine.hostWith refusals) filter generation)
        state = (status, after) ∧
      Delivers machine refusals generation state
        (scriptAt (refusals.read state.files) generation) status after := by
  obtain ⟨told, result, hresult, hrun⟩ :=
    gives_prepare machine refusals filter generation state rfl
  generalize hprepared : preparedAt (refusals.read state.files) generation = prepared at hresult
  cases hresult with
  | error summary failure =>
    refine ⟨1, _, finish_error (Steps.run_bind_error hrun), ?_⟩
    unfold scriptAt
    rw [hprepared]
    exact .refused failure told summary
  | ok g => exact exists_delivers_of_run (Steps.run_bind_ok hrun) hprepared

/-! ## Requests -/

theorem exists_filterFor (machine : Machine) (refusals : Refusals) (state : MachineState)
    (verbosity : Nat) : ∃ filter,
      filterFor (machine.hostWith refusals) verbosity state = (filter, state) := by
  rw [filterFor, bind_eq (host_environment_eq "RUST_LOG")]
  cases (machine.environment.lookup "RUST_LOG").bind LogFilter.ofString? with
  | none => exact ⟨.ofLevel (.ofVerbosity verbosity), rfl⟩
  | some filter => exact ⟨filter, rfl⟩

/-- **A request for a script ends as the stages before its delivery ask for.** -/
theorem exists_delivers (machine : Machine) (refusals : Refusals) (verbosity : Nat)
    (generation : Generation) (state : MachineState) : ∃ status after,
      carryOut (machine.hostWith refusals) (.generate verbosity generation) state =
        (status, after) ∧
      Delivers machine refusals generation state
        (scriptAt (refusals.read state.files) generation) status after := by
  obtain ⟨filter, hfilter⟩ := exists_filterFor machine refusals state verbosity
  rw [carryOut, bind_eq hfilter]
  exact exists_delivers_of_generate machine refusals filter generation state

/-- Arguments are carried out as what they ask for. -/
theorem run_eq_carryOut {arguments : List String} {request : Request}
    (h : Request.ofArguments arguments = some request) :
    run (machine.hostWith refusals) arguments state =
      carryOut (machine.hostWith refusals) request state := by
  rw [run, h]

end FitScript.Cli
