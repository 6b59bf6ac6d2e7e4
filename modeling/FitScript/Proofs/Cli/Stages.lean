import FitScript.Proofs.Cli.Steps
import FitScript.Proofs.Outcome

/-!
# Stages of a generation

What the stages of a generation come to on what files hold, one after another, before anything is
printed or written.

* `Contents`: what can be read of the files.
* `generatorAt`, `verifiedAt`, `preparedAt`, `scriptAt`: the stages as computations on that.
* `Reports`, `Steps.Gives`: steps that come to what a computation comes to, and tell events at most.
  `Steps.Gives.bind`: they may be put together.
* `gives_generatorFor`, `gives_verifyData`, `gives_prepare`: so do the stages of a run.
-/

namespace FitScript

open Outcome

/-! ## Files -/

/-- What the files at paths hold, or why they cannot be read. -/
abbrev Contents := FilePath → Except FileError (List UInt8)

namespace Contents

variable (contents : Contents)

/-- The text of a file. -/
def textAt (path : FilePath) : Except Failure String :=
  match contents path with
  | .error e => .error (.file path e)
  | .ok content =>
    match Text.Utf8.decode? content with
    | some text => .ok text
    | none => .error (.file path .notText)

/-- The columns of a data file. -/
def columnsAt (source : DataSource) : Except Failure (List String) :=
  match contents source.path with
  | .error e => .error (.header source.path e.message)
  | .ok content => (Header.columns content).mapError (.header source.path)

/-- The settings in a file, if one is given. -/
def settingsAt : Option FilePath → Except Failure Settings
  | none => .ok .default
  | some path => (contents.textAt path).bind Settings.ofJson

end Contents

namespace Cli

section

variable (contents : Contents)

/-- The generator that is asked for. -/
def generatorAt (generation : Generation) : Except Failure Generator := do
  let settings ← contents.settingsAt generation.config
  let description ← (contents.textAt generation.model).bind Description.ofJson
  let model ← (Model.ofDescription description settings.formula).mapError .violation
  let generator ← (Generator.ofModelAndData model
    (generation.data.or description.data)).mapError .violation
  (generator.withOptions settings.generator).mapError .options

/-- Whether the header of the data file can be read, if there is a data file. -/
def verifiedAt (generator : Generator) : Except Failure Unit :=
  match generator.data with
  | none => .ok ()
  | some source => void (contents.columnsAt source)

/-- The generator that is asked for, after its data were verified if that is asked for. -/
def preparedAt (generation : Generation) : Except Failure Generator := do
  let generator ← generatorAt contents generation
  (if generation.verifyData then verifiedAt contents generator else pure () : Except Failure Unit)
  pure generator

/-- The script that is asked for and its generator, if all stages before its delivery succeed. -/
def scriptAt (generation : Generation) : Except Failure (Generator × String) := do
  let generator ← preparedAt contents generation
  let script ← generator.script.mapError .lookup
  pure (generator, script)

end

variable {α β : Type} {machine : Machine} {refusals : Refusals} {state : MachineState}
  {files : FileTree}

/-! ## Steps -/

/-- What steps end in when a computation has a result: in its value, or in a report of its
    failure. -/
inductive Reports : Except Failure α → Except Report α → Prop where
  | ok (a : α) : Reports (.ok a) (.ok a)
  | error (summary : String) (failure : Failure) :
    Reports (.error failure) (.error (.because summary failure))

/-- Steps that come to what a computation on the files comes to, and tell events at most. -/
def Steps.Gives (steps : Steps (StateM MachineState) α) (files : FileTree)
    (x : Except Failure α) : Prop :=
  ∀ state, state.files = files →
    ∃ told result, Reports x result ∧ steps.run state = (result, logged state told)

namespace Steps.Gives

variable {steps : Steps (StateM MachineState) α} {next : α → Steps (StateM MachineState) β}

theorem pure (a : α) : (Pure.pure a : Steps (StateM MachineState) α).Gives files (.ok a) :=
  fun state _ => ⟨[], _, .ok a, by rw [logged_nil]; rfl⟩

/-- **Steps give what computations give if their parts do.** -/
theorem bind {x : Except Failure α} {f : α → Except Failure β} (h : steps.Gives files x)
    (hnext : ∀ a, x = .ok a → (next a).Gives files (f a)) :
    (steps >>= next).Gives files (x >>= f) := by
  intro state hfiles
  obtain ⟨told, result, hresult, hrun⟩ := h state hfiles
  cases hresult with
  | error summary failure => exact ⟨told, _, .error summary failure, run_bind_error hrun⟩
  | ok a =>
    obtain ⟨others, result, hresult, hothers⟩ := hnext a rfl (logged state told) hfiles
    exact ⟨told ++ others, result, hresult, by rw [run_bind_ok hrun, hothers, logged_logged]⟩

end Steps.Gives

theorem gives_attempt {step : StateM MachineState (Except Failure α)} {result : Except Failure α}
    (h : ∀ state, state.files = files → step state = (result, state)) (summary : String) :
    (attempt summary step).Gives files result := by
  intro state hfiles
  have hrun := run_attempt (h state hfiles) summary
  refine ⟨[], _, ?_, by rw [logged_nil]; exact hrun⟩
  cases result with
  | ok a => exact .ok a
  | error failure => exact .error summary failure

theorem gives_tell (filter : LogFilter) (event : Event) :
    (tell (machine.hostWith refusals) filter event).Gives files (.ok ()) := by
  intro state _
  obtain ⟨told, hrun⟩ := exists_run_tell machine refusals filter event state
  exact ⟨told, _, .ok (), hrun⟩

theorem gives_forM_tell (filter : LogFilter) (events : List Event) :
    (events.forM (tell (machine.hostWith refusals) filter)).Gives files (.ok ()) := by
  intro state _
  obtain ⟨told, hrun⟩ := exists_run_forM_tell machine refusals filter events state
  exact ⟨told, _, .ok (), hrun⟩

/-! ## Stages -/

theorem readText_eq (path : FilePath) :
    readText (machine.hostWith refusals) path state =
      (Contents.textAt (refusals.read state.files) path, state) := by
  rw [readText, bind_eq (host_read_eq path), Contents.textAt]
  cases refusals.read state.files path with
  | error e => rfl
  | ok content =>
    simp only
    cases Text.Utf8.decode? content <;> rfl

theorem readFrom_eq (parse : String → Except Failure α) (path : FilePath) :
    readFrom (machine.hostWith refusals) parse path state =
      ((Contents.textAt (refusals.read state.files) path).bind parse, state) := by
  rw [readFrom, bind_eq (readText_eq path)]
  rfl

theorem readColumns_eq (source : DataSource) :
    readColumns (machine.hostWith refusals) source state =
      (Contents.columnsAt (refusals.read state.files) source, state) := by
  rw [readColumns, bind_eq (host_read_eq source.path), Contents.columnsAt]
  cases refusals.read state.files source.path <;> rfl

theorem gives_settingsFor (config : Option FilePath) :
    (settingsFor (machine.hostWith refusals) config).Gives files
      (Contents.settingsAt (refusals.read files) config) := by
  cases config with
  | none => exact .pure _
  | some path =>
    refine gives_attempt (fun state hfiles => ?_) _
    rw [readFrom_eq, hfiles]
    rfl

/-- The generator of a run is the one that its files come to. -/
theorem gives_generatorFor (generation : Generation) :
    (generatorFor (machine.hostWith refusals) generation).Gives files
      (generatorAt (refusals.read files) generation) := by
  refine (gives_settingsFor _).bind fun settings _ => ?_
  refine (gives_attempt (fun state hfiles => ?_) _).bind fun description _ => ?_
  · rw [readFrom_eq, hfiles]
  refine (gives_attempt (fun _ _ => rfl) _).bind fun model _ => ?_
  refine (gives_attempt (fun _ _ => rfl) _).bind fun generator _ => ?_
  exact gives_attempt (fun _ _ => rfl) _

/-- Verifying the data comes to reading their header. -/
theorem gives_verifyData (filter : LogFilter) (generator : Generator) :
    (verifyData (machine.hostWith refusals) filter generator).Gives files
      (verifiedAt (refusals.read files) generator) := by
  unfold verifyData verifiedAt
  cases generator.data with
  | none => exact gives_tell filter _
  | some source =>
    show Steps.Gives _ files
      (Contents.columnsAt (refusals.read files) source >>= fun _ => .ok ())
    refine (gives_attempt (fun state hfiles => ?_) _).bind fun columns _ => ?_
    · rw [readColumns_eq, hfiles]
    refine (gives_tell filter _).bind (f := fun _ => .ok ()) fun _ _ => ?_
    cases generator.model.missingColumns columns with
    | nil => exact .pure ()
    | cons first rest => exact gives_tell filter _

theorem gives_prepare (machine : Machine) (refusals : Refusals) (filter : LogFilter)
    (generation : Generation) :
    (prepare (machine.hostWith refusals) filter generation).Gives files
      (preparedAt (refusals.read files) generation) := by
  unfold prepare preparedAt
  refine (gives_generatorFor generation).bind fun generator _ => ?_
  refine Steps.Gives.bind ?_ fun _ _ => ?_
  · cases generation.verifyData with
    | false => exact .pure ()
    | true => exact gives_verifyData filter generator
  · exact (gives_forM_tell filter _).bind (f := fun _ => .ok generator) fun _ _ => .pure generator

end Cli

end FitScript
