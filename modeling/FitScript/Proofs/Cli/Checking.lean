import FitScript.Proofs.Cli.Steps

/-!
# Checks of scripts

How a check ends on a machine, which it leaves as it is apart from the log.

* `Machine.interpreter?`: the interpreter that a machine has; `find_eq`: it is the one that is used.
* `Machine.parses`: whether that interpreter parses a script.
* `exists_run_checkScript`: a check succeeds iff the script is parsed.
-/

namespace FitScript

/-- Whether a program was run and succeeded. -/
def Outcome.succeeded : Except FileError Outcome → Bool
  | .ok outcome => outcome.status == some 0
  | .error _ => false

namespace Machine

variable (machine : Machine) (files : FileTree)

/-- Where an interpreter may stand that is not found by name: below `R_HOME`, or at a usual place. -/
def interpreterPaths : List FilePath :=
  let below := (machine.environment.lookup "R_HOME").map fun home =>
    ((FilePath.ofString home).join (.ofString "bin")).join Interpreter.programName
  below.toList ++ Interpreter.usualPaths

/-- The interpreter of a machine: the one that is found by name and tells its version, or else the
    first that stands at some place. -/
def interpreter? : Option FilePath :=
  if Outcome.succeeded (machine.run files Interpreter.programName
      (Interpreter.arguments ["--version"])) then
    some Interpreter.programName
  else machine.interpreterPaths.find? files.exists?

/-- Whether the interpreter of a machine parses a script. -/
def parses (script : FilePath) : Bool :=
  match machine.interpreter? files with
  | none => false
  | some program =>
    Outcome.succeeded (machine.run files program (Interpreter.checkArguments script))

end Machine

namespace Cli

variable {machine : Machine} {refusals : Refusals} {state : MachineState}

/-! ## The interpreter -/

theorem host_run_eq (path : FilePath) (arguments : List (List UInt8)) :
    (machine.hostWith refusals).run path arguments state =
      (machine.run state.files path arguments, state) :=
  rfl

theorem host_exists?_eq (path : FilePath) :
    (machine.hostWith refusals).exists? path state = (state.files.exists? path, state) :=
  rfl

theorem host_environment_eq (name : String) :
    (machine.hostWith refusals).environment name state = (machine.environment.lookup name, state) :=
  rfl

theorem firstExisting_eq (paths : List FilePath) :
    Interpreter.firstExisting (machine.hostWith refusals) paths state =
      (paths.find? state.files.exists?, state) := by
  induction paths with
  | nil => rfl
  | cons path rest ih =>
    rw [Interpreter.firstExisting, bind_eq (host_exists?_eq path), List.find?_cons]
    cases state.files.exists? path with
    | true => rfl
    | false => exact ih

/-- The interpreter that is used is the one that the machine has. -/
theorem find_eq :
    Interpreter.find (machine.hostWith refusals) state =
      (machine.interpreter? state.files, state) := by
  have hothers : ((machine.hostWith refusals).environment "R_HOME" >>= fun home =>
      let below := home.map fun home =>
        ((FilePath.ofString home).join (.ofString "bin")).join Interpreter.programName
      Interpreter.firstExisting (machine.hostWith refusals)
        (below.toList ++ Interpreter.usualPaths)) state =
          (machine.interpreterPaths.find? state.files.exists?, state) := by
    rw [bind_eq (host_environment_eq "R_HOME"), firstExisting_eq, Machine.interpreterPaths]
  rw [Interpreter.find, bind_eq (host_run_eq _ _), Machine.interpreter?]
  cases machine.run state.files Interpreter.programName (Interpreter.arguments ["--version"]) with
  | error e => exact hothers
  | ok outcome =>
    obtain ⟨status, output, errors⟩ := outcome
    match status with
    | none => exact hothers
    | some 0 => rfl
    | some (n + 1) => exact hothers

theorem invoke_eq (machine : Machine) (refusals : Refusals) (state : MachineState)
    (program : FilePath) (arguments : List (List UInt8)) :
    Interpreter.invoke (machine.hostWith refusals) program arguments state =
      (((machine.run state.files program arguments).map Interpreter.answerOf).mapError
        (.interpreter program), state) := by
  rw [Interpreter.invoke, bind_eq (host_run_eq _ _)]
  cases machine.run state.files program arguments <;> rfl

theorem success_answerOf (outcome : Outcome) :
    (Interpreter.answerOf outcome).success = Outcome.succeeded (.ok outcome) :=
  rfl

/-! ## Checks -/

/-- A step of the host is taken, and the run goes on. -/
theorem run_liftM_bind {α β : Type} {step : StateM MachineState α} {a : α} {after : MachineState}
    (h : step state = (a, after)) (next : α → Steps (StateM MachineState) β) :
    ((liftM step : Steps (StateM MachineState) α) >>= next).run state = (next a).run after := by
  refine Steps.run_bind_ok ?_
  show (step >>= fun a => pure (Except.ok a)) state = _
  rw [bind_eq h]
  rfl

/-- **A check succeeds iff the script is parsed**, and changes nothing but the log. -/
theorem exists_run_checkScript (machine : Machine) (refusals : Refusals) (filter : LogFilter)
    (script : FilePath) (state : MachineState) : ∃ told result,
      (checkScript (machine.hostWith refusals) filter script).run state =
        (result, logged state told) ∧
        (result = .ok () ↔ machine.parses state.files script) := by
  rw [checkScript, run_liftM_bind find_eq]
  unfold Machine.parses
  cases machine.interpreter? state.files with
  | none => exact ⟨[], .error (.ofFailure .interpreterNotFound), by rw [logged_nil]; rfl, by simp⟩
  | some program =>
    obtain ⟨started, hstarted⟩ :=
      exists_run_tell machine refusals filter (.checkStarted script) state
    have hinvoked := run_attempt (invoke_eq machine refusals (logged state started) program
      (Interpreter.checkArguments script)) ("checking " ++ script.display)
    rw [files_logged] at hinvoked
    simp only
    rw [Steps.run_bind_ok hstarted]
    cases hrun : machine.run state.files program (Interpreter.checkArguments script) with
    | error e =>
      rw [hrun] at hinvoked
      exact ⟨started, _, Steps.run_bind_error hinvoked, by simp [Outcome.succeeded]⟩
    | ok outcome =>
      rw [hrun] at hinvoked
      obtain ⟨finished, hfinished⟩ := exists_run_tell machine refusals filter
        (.interpreterFinished (Interpreter.answerOf outcome).status) (logged state started)
      rw [Steps.run_bind_ok hinvoked, Steps.run_bind_ok hfinished, success_answerOf, logged_logged]
      cases Outcome.succeeded (.ok outcome) with
      | true =>
        obtain ⟨parsed, hparsed⟩ := exists_run_tell machine refusals filter (.scriptParses script)
          (logged state (started ++ finished))
        exact ⟨_, .ok (), by rw [if_pos rfl, hparsed, logged_logged], by simp⟩
      | false => exact ⟨started ++ finished, .error _, rfl, by simp⟩

end Cli

end FitScript
