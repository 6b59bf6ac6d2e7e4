import FitScript.Cli.Run

/-!
# Steps on machines

What the steps of a run come to on a machine, whatever its system refuses.

* `run_bind_ok`, `run_bind_error`, `run_attempt`, `run_print`, `host_read_eq`, `host_write_eq`: the
  result of single steps and of steps put together.
* `logged`, `reported`: a machine after events were told and after a failure was reported.
  `exists_run_tell`, `exists_run_forM_tell`: telling events changes the log alone.
* `finish_ok`, `finish_error`: how steps end a run.
-/

namespace FitScript.Cli

variable {α β σ : Type} {machine : Machine} {refusals : Refusals}
  {state middle after : MachineState}

theorem bind_eq {m : StateM σ α} {k : α → StateM σ β} {s t : σ} {a : α} (h : m s = (a, t)) :
    (m >>= k) s = k a t := by
  show StateT.bind m k s = _
  rw [StateT.bind, h]
  rfl

/-! ## Results -/

namespace Steps

variable {steps : Steps (StateM MachineState) α} {next : α → Steps (StateM MachineState) β}

theorem run_bind_ok {a : α} (h : steps.run state = (.ok a, middle)) :
    (steps >>= next).run state = (next a).run middle := by
  rw [ExceptT.run_bind, bind_eq h]

theorem run_bind_error {report : Report} (h : steps.run state = (.error report, middle)) :
    (steps >>= next).run state = (.error report, middle) := by
  rw [ExceptT.run_bind, bind_eq h]
  rfl

end Steps

theorem run_attempt {step : StateM MachineState (Except Failure α)} {result : Except Failure α}
    (h : step state = (result, after)) (summary : String) :
    (attempt summary step).run state = (result.mapError (Report.because summary), after) := by
  rw [attempt, ExceptT.run_mk, bind_eq h]
  cases result <;> rfl

theorem run_print (text : String) :
    (liftM ((machine.hostWith refusals).print text) : Steps (StateM MachineState) Unit).run state =
      (.ok (), { state with output := state.output ++ text }) :=
  rfl

/-! ## Files -/

theorem host_read_eq (path : FilePath) :
    (machine.hostWith refusals).read path state = (refusals.read state.files path, state) :=
  rfl

theorem host_write_eq {path : FilePath} {content : List UInt8} {files : FileTree}
    (h : refusals.write state.files path content = .ok files) :
    (machine.hostWith refusals).write path content state = (.ok (), { state with files }) := by
  have hget : (get : StateM MachineState MachineState) state = (state, state) := rfl
  rw [Machine.hostWith]
  simp only
  rw [bind_eq hget, h]
  rfl

/-- What cannot be written changes nothing. -/
theorem host_write_error {path : FilePath} {content : List UInt8} {e : FileError}
    (h : refusals.write state.files path content = .error e) :
    (machine.hostWith refusals).write path content state = (.error e, state) := by
  have hget : (get : StateM MachineState MachineState) state = (state, state) := rfl
  rw [Machine.hostWith]
  simp only
  rw [bind_eq hget, h]
  rfl

/-! ## Log lines -/

/-- The state after some events were told. -/
def logged (state : MachineState) (events : List Event) : MachineState :=
  { state with errors := state.errors ++ String.join (events.map Event.line) }

theorem files_logged (events : List Event) : (logged state events).files = state.files :=
  rfl

theorem logged_nil : logged state [] = state := by
  simp [logged]

theorem logged_logged (first second : List Event) :
    logged (logged state first) second = logged state (first ++ second) := by
  simp [logged, String.append_assoc]

/-- The state after the report of a failure. -/
def reported (state : MachineState) (report : Report) : MachineState :=
  { state with errors := state.errors ++ report.text }

section

variable (machine : Machine) (refusals : Refusals) (filter : LogFilter)

/-- An event is told, or not. -/
theorem exists_run_tell (event : Event) (state : MachineState) : ∃ events,
    (tell (machine.hostWith refusals) filter event).run state = (.ok (), logged state events) := by
  unfold tell
  cases filter.tells event with
  | true =>
    refine ⟨[event], ?_⟩
    have hlogged : logged state [event] = { state with errors := state.errors ++ event.line } := by
      simp [logged]
    rw [if_pos rfl, hlogged]
    rfl
  | false =>
    refine ⟨[], ?_⟩
    rw [if_neg Bool.false_ne_true, logged_nil]
    rfl

/-- Some of the events are told. -/
theorem exists_run_forM_tell (events : List Event) (state : MachineState) : ∃ told,
    (events.forM (tell (machine.hostWith refusals) filter)).run state =
      (.ok (), logged state told) := by
  induction events generalizing state with
  | nil => exact ⟨[], by rw [logged_nil]; rfl⟩
  | cons event rest ih =>
    obtain ⟨first, hfirst⟩ := exists_run_tell machine refusals filter event state
    obtain ⟨others, hothers⟩ := ih (logged state first)
    refine ⟨first ++ others, ?_⟩
    show ((tell (machine.hostWith refusals) filter event >>= fun _ =>
      rest.forM (tell (machine.hostWith refusals) filter))).run state = _
    rw [Steps.run_bind_ok hfirst, hothers, logged_logged]

end

/-! ## Ends of runs -/

variable {steps : Steps (StateM MachineState) Unit}

theorem finish_ok (h : steps.run state = (.ok (), after)) :
    finish (machine.hostWith refusals) steps state = (0, after) := by
  rw [finish, bind_eq h]
  rfl

theorem finish_error {report : Report} (h : steps.run state = (.error report, after)) :
    finish (machine.hostWith refusals) steps state = (1, reported after report) := by
  rw [finish, bind_eq h]
  rfl

end FitScript.Cli
