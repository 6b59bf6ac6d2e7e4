import FitScript.Proofs.Cli.Delivery
import FitScript.Proofs.Description.RoundTrip
import FitScript.Script.Json

/-!
# Scripts from the command line

The command line generates the scripts that the library generates.

* `requestedScript`: what the library makes of a text and of another data file for it.
* `generatorOf`: the generator of a text; `generatorAt_eq_generatorOf`: the command line uses the
  same one, and has the same failure.
* `EndsWith`: how a run ends for what the library makes of its request. `endsWith_of_delivers`: this
  is how a run delivers.
* `run_endsWith_requestedScript`: so does every run without settings, verification and check.
-/

namespace FitScript

open Outcome

/-! ## Scripts of texts -/

/-- The script that a text describes or, if another data file is given, the script of its
    description with this data file in place of its own. -/
def requestedScript (text : String) : Option String → Except Failure String
  | none => scriptOfJson text
  | some data => do
    let description ← Description.ofJson text
    let replaced ← { description with data := some (.ofString data) }.toJson
    scriptOfJson replaced

/-! ## Generators of texts -/

/-- The generator that a text describes, with another data file in place of its own. -/
def generatorOf (text : String) (data : Option FilePath) : Except Failure Generator := do
  let description ← Description.ofJson text
  let model ← (Model.ofDescription description .default).mapError .violation
  (Generator.ofModelAndData model (data.or description.data)).mapError .violation

theorem scriptOfJson_eq (text : String) :
    scriptOfJson text = generatorOf text none >>= fun g => g.script.mapError .lookup := by
  simp only [scriptOfJson, generatorOf, bind_assoc, Option.none_or]

/-- Another data file counts as if the text named it. -/
theorem generatorOf_some {text other : String} {d : Description} {data : FilePath}
    (h : Description.ofJson text = .ok d)
    (hother : Description.ofJson other = .ok { d with data := some data }) :
    generatorOf text (some data) = generatorOf other none := by
  rw [generatorOf, generatorOf, h, hother]
  rfl

/-- The script that is requested is the one of the generator. -/
theorem requestedScript_eq (text : String) (data : Option String) :
    requestedScript text data =
      generatorOf text (data.map .ofString) >>= fun g => g.script.mapError .lookup := by
  cases data with
  | none => exact scriptOfJson_eq text
  | some data =>
    rw [requestedScript]
    cases h : Description.ofJson text with
    | error failure =>
      rw [generatorOf, h]
      rfl
    | ok d =>
      have hwritable : { d with data := some (.ofString data) }.Writable := by
        refine ⟨(Description.writable_of_ofJson h).schema_mem, ?_⟩
        rintro path ⟨⟩
        exact Option.isSome_of_mem (Text.Utf8.decode?_encode data)
      obtain ⟨replaced, hwritten, hread⟩ := hwritable.exists_toJson
      show { d with data := some (.ofString data) }.toJson >>= scriptOfJson = _
      rw [hwritten, Option.map_some, generatorOf_some h hread]
      exact scriptOfJson_eq replaced

theorem options_of_ofModelAndData {model : Model} {data : Option FilePath} {g : Generator}
    (h : Generator.ofModelAndData model data = .ok g) : g.options = .default := by
  cases data with
  | none =>
    obtain rfl := Except.ok.inj h
    rfl
  | some path =>
    obtain ⟨source, -, rfl⟩ := map_eq_ok_iff.mp h
    rfl

theorem options_of_generatorOf {text : String} {data : Option FilePath} {g : Generator}
    (h : generatorOf text data = .ok g) : g.options = .default := by
  obtain ⟨d, -, h⟩ := bind_eq_ok_iff.mp h
  obtain ⟨model, -, h⟩ := bind_eq_ok_iff.mp h
  exact options_of_ofModelAndData (mapError_eq_ok_iff.mp h)

/-- The default options pass their check and change nothing. -/
theorem withOptions_default {g : Generator} (h : g.options = .default) :
    g.withOptions .default = .ok g := by
  have hcheck : ScriptOptions.default.check = .ok () := by decide +kernel
  rw [Generator.withOptions, hcheck, ← h]
  rfl

/-- The default settings are those of a generator. -/
theorem generatorOf_eq (text : String) (data : Option FilePath) :
    generatorOf text data = (do
      let settings ← .ok Settings.default
      let description ← Description.ofJson text
      let model ← (Model.ofDescription description settings.formula).mapError .violation
      let g ← (Generator.ofModelAndData model (data.or description.data)).mapError .violation
      (g.withOptions settings.generator).mapError .options) := by
  refine bind_congr fun d => bind_congr fun model => ?_
  cases h : Generator.ofModelAndData model (data.or d.data) with
  | error v => rfl
  | ok g =>
    show _ = (g.withOptions .default).mapError .options
    rw [withOptions_default (options_of_ofModelAndData h)]
    rfl

namespace Cli

variable {machine : Machine} {refusals : Refusals} {state : MachineState} {contents : Contents}
  {path : FilePath} {content : String} {data out : Option FilePath}

/-- Without settings the generator of a run is the one of the text that it reads. -/
theorem generatorAt_eq_generatorOf (hread : contents path = .ok (Text.Utf8.encode content))
    (data out : Option FilePath) :
    generatorAt contents ⟨path, data, out, none, false, false⟩ = generatorOf content data := by
  have htext : contents.textAt path = .ok content := by
    rw [Contents.textAt, hread]
    simp only [Text.Utf8.decode?_encode]
  rw [generatorOf_eq, generatorAt, htext]
  rfl

/-- Without settings and verification the script of a run is the one of the text that it reads. -/
theorem scriptAt_eq (hread : contents path = .ok (Text.Utf8.encode content)) :
    scriptAt contents ⟨path, data, out, none, false, false⟩ = (do
      let g ← generatorOf content data
      let script ← g.script.mapError .lookup
      pure (g, script)) := by
  rw [← generatorAt_eq_generatorOf hread data out, scriptAt, preparedAt]
  cases generatorAt contents ⟨path, data, out, none, false, false⟩ <;> rfl

theorem map_scriptAt (hread : contents path = .ok (Text.Utf8.encode content)) :
    (scriptAt contents ⟨path, data, out, none, false, false⟩).map Prod.snd =
      generatorOf content data >>= fun g => g.script.mapError .lookup := by
  rw [scriptAt_eq hread]
  cases generatorOf content data with
  | error failure => rfl
  | ok g =>
    show (g.script.mapError Failure.lookup >>= fun script => pure (g, script)).map Prod.snd =
      g.script.mapError Failure.lookup
    cases g.script <;> rfl

theorem options_of_scriptAt (hread : contents path = .ok (Text.Utf8.encode content))
    {g : Generator} {script : String}
    (h : scriptAt contents ⟨path, data, out, none, false, false⟩ = .ok (g, script)) :
    g.options = .default := by
  rw [scriptAt_eq hread] at h
  obtain ⟨g', hgenerator, h⟩ := bind_eq_ok_iff.mp h
  obtain ⟨script', -, hpair⟩ := bind_eq_ok_iff.mp h
  obtain ⟨rfl, -⟩ := Prod.mk.inj (Except.ok.inj hpair)
  exact options_of_generatorOf hgenerator

/-! ## Runs -/

/-- The name under which a script is written. -/
def scriptName : FilePath :=
  .ofString "model.R"

/-- A run ends as the outcome of generating a script asks for. With a script the status is 0; the
    script is printed or, if there is a directory where it can be written, it is written there as
    the only change to the files, and its path is printed. With a failure the status is 1, nothing
    is printed or written, and the failure is the cause that is reported. -/
def EndsWith (machine : Machine) (refusals : Refusals) (state : MachineState)
    (arguments : List String) (out : Option FilePath) : Except Failure String → Prop
  | .ok script =>
    match out with
    | none => ∃ told, run (machine.hostWith refusals) arguments state =
        (0, { logged state told with output := state.output ++ script })
    | some directory => ∀ files,
        refusals.write state.files (directory.join scriptName) (Text.Utf8.encode script) =
          .ok files →
          (∃ told, run (machine.hostWith refusals) arguments state = (0, { logged state told with
            files := files
            output := state.output ++ ((directory.join scriptName).display ++ "\n") })) ∧
          files.read (directory.join scriptName) = .ok (Text.Utf8.encode script) ∧
          ∃ place, files = state.files.set place (.file (Text.Utf8.encode script))
  | .error failure => ∃ told summary, run (machine.hostWith refusals) arguments state =
      (1, { logged state told with
        errors := (logged state told).errors ++ (Report.because summary failure).text })

/-- A script that is delivered without settings and check ends a run as it asks for. -/
theorem endsWith_of_delivers {arguments : List String} {status : Nat} {after : MachineState}
    {result : Except Failure (Generator × String)}
    (hrun : run (machine.hostWith refusals) arguments state = (status, after))
    (h : Delivers machine refusals ⟨path, data, out, none, false, false⟩ state result status after)
    (hoptions : ∀ g script, result = .ok (g, script) → g.options = .default) :
    EndsWith machine refusals state arguments out (result.map Prod.snd) := by
  have hname {g : Generator} {script : String} (hresult : result = .ok (g, script))
      (directory : FilePath) : g.scriptPath directory = directory.join scriptName := by
    rw [Generator.scriptPath, hoptions g script hresult]
    rfl
  cases h with
  | refused failure told summary => exact ⟨told, summary, hrun⟩
  | printed g script told hout =>
    obtain rfl : out = none := hout
    exact ⟨told, hrun⟩
  | unwritten g script told summary hout hwrite =>
    obtain rfl : out = some _ := hout
    intro files hfiles
    rw [← hname rfl] at hfiles
    cases hwrite.symm.trans hfiles
  | written g script told puts =>
    obtain rfl : out = some _ := puts.out
    intro files hfiles
    rw [← hname rfl] at hfiles ⊢
    obtain rfl := Except.ok.inj (puts.write.symm.trans hfiles)
    have hwrite := (Refusals.write_eq_ok_iff.mp hfiles).2
    obtain ⟨place, hplace, -⟩ := FileTree.find_of_write hwrite
    exact ⟨⟨told, hrun⟩, FileTree.read_of_write hwrite, place, hplace⟩
  | unparsed g script told report puts check => cases check

/-- **The command line and the library agree.** A run that asks for a script, without settings,
    verification and check, ends as the library's outcome for the model file asks for, with the
    data file that is given in place of the one that is described. -/
theorem run_endsWith_requestedScript (machine : Machine) (refusals : Refusals)
    (state : MachineState) {path : FilePath} {content : String}
    (hread : refusals.read state.files path = .ok (Text.Utf8.encode content))
    {arguments : List String} {verbosity : Nat} {data : Option String} {out : Option FilePath}
    (hrequest : Request.ofArguments arguments =
      some (.generate verbosity ⟨path, data.map .ofString, out, none, false, false⟩)) :
    EndsWith machine refusals state arguments out (requestedScript content data) := by
  obtain ⟨status, after, hrun, hdelivers⟩ := exists_delivers machine refusals verbosity
    ⟨path, data.map .ofString, out, none, false, false⟩ state
  have hends := endsWith_of_delivers ((run_eq_carryOut hrequest).trans hrun) hdelivers
    fun g script => options_of_scriptAt hread
  rw [map_scriptAt hread, ← requestedScript_eq] at hends
  exact hends

/-- The description names a data file that no script can read; another one is given. -/
theorem run_endsWith_requestedScript_data :
    let content := "\x7b\"schema\": \"1.0\", \"dv\": \"y\", \"ivs\": [\"a\"], " ++
      "\"family\": \"gaussian\", \"data\": \"a.txt\"\x7d"
    let model := FilePath.ofString "m.json"
    let out := FilePath.ofString "."
    let files := (FileTree.emptyAt []).addFile model (Text.Utf8.encode content)
    let arguments := ["generate", "m.json", "--data=b.csv", "-v", "--out", "."]
    Refusals.never.read files model = .ok (Text.Utf8.encode content) ∧
      Request.ofArguments arguments =
        some (.generate 1 ⟨model, some (.ofString "b.csv"), some out, none, false, false⟩) ∧
      scriptOfJson content =
        .error (.violation (.unsupportedDataExtension "a.txt" (some "txt") "csv")) ∧
      (requestedScript content (some "b.csv")).isOk ∧
      (Refusals.never.write files (out.join scriptName) []).isOk ∧
      EndsWith ⟨[], [], []⟩ .never ⟨files, "", ""⟩ arguments (some out)
        (requestedScript content (some "b.csv")) := by
  intro content model out files arguments
  have hread : Refusals.never.read files model = .ok (Text.Utf8.encode content) := by decide +kernel
  have hrequest : Request.ofArguments arguments =
      some (.generate 1 ⟨model, some (.ofString "b.csv"), some out, none, false, false⟩) := by
    decide +kernel
  exact ⟨hread, hrequest, by decide +kernel, by decide +kernel, by decide +kernel,
    run_endsWith_requestedScript ⟨[], [], []⟩ .never ⟨files, "", ""⟩ hread hrequest⟩

end Cli

end FitScript
