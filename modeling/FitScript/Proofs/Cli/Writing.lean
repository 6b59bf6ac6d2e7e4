import FitScript.Proofs.Cli.Steps
import FitScript.Proofs.FileTree.Children
import FitScript.Proofs.Script.Sections

/-!
# Writing scripts

What writing a script into a directory changes, and what it reports.

* `Generator.Accepted`: a generator whose options were accepted; `exists_stem_of_accepted`: they
  name a plain file that ends in `.R`.
* `WrittenInto`: a tree in which a script was put into a directory; `writtenInto_of_write`.
* `writeScript_error`, `writeScript_eq`, `writeScript_write_error`: a script that cannot be
  generated, one that is written, and one that cannot be written.
* `writeScript_confined`: all that writing a script can change, whatever the system refuses.
-/

namespace FitScript

open Outcome

/-! ## File names -/

namespace Generator

variable {g : Generator}

/-- The options of a generator are some that generators take. -/
def Accepted (g : Generator) : Prop :=
  ∃ g₀ g₁ : Generator, g₀.withOptions g.options = .ok g₁

theorem accepted_iff : g.Accepted ↔ g.options.check = .ok () := by
  constructor
  · rintro ⟨g₀, g₁, h⟩
    obtain ⟨_, hcheck, -⟩ := map_eq_ok_iff.mp h
    exact hcheck
  · intro h
    exact ⟨g, _, map_eq_ok_iff.mpr ⟨(), h, rfl⟩⟩

/-- The name of a script's file, as a directory holds it. -/
def fileNameBytes (g : Generator) : List UInt8 :=
  (FilePath.ofString g.options.fileName).bytes

/-- What a directory holds a script under is a plain name that ends in `.R`. -/
theorem exists_stem_of_accepted (h : g.Accepted) : FilePath.PlainName g.fileNameBytes ∧
    ∃ stem, stem ≠ [] ∧ g.fileNameBytes = stem ++ [FilePath.dot, ScriptOptions.letterR] := by
  obtain ⟨hslash, stem, hstem, hname⟩ :=
    ScriptOptions.isScriptName_iff.mp (ScriptOptions.isScriptName_of_check (accepted_iff.mp h))
  exact ⟨ScriptOptions.plainName_of_stem hslash hname, stem, hstem, hname⟩

end Generator

/-! ## Trees -/

/-- A script was put into a directory: one file of that directory is new or has a new content, the
    script, and the path of the script leads to it. -/
def WrittenInto (g : Generator) (directory : FilePath) (script : String)
    (before after : FileTree) : Prop :=
  ∃ base, before.directoryAt? directory = some base ∧
    before.DiffersAt after (base ++ [g.fileNameBytes]) (Text.Utf8.encode script) ∧
      after.find (g.scriptPath directory) =
        .ok (.entry (base ++ [g.fileNameBytes]) (.file (Text.Utf8.encode script)))

/-- **A script that is written stays in its directory.** -/
theorem writtenInto_of_write {g : Generator} (h : g.Accepted) {directory : FilePath}
    {script : String} {before after : FileTree}
    (hwrite : before.write (g.scriptPath directory) (Text.Utf8.encode script) = .ok after) :
    WrittenInto g directory script before after := by
  have hplain := (Generator.exists_stem_of_accepted h).1
  obtain ⟨base, hbase, rfl⟩ := (FileTree.write_join_eq_ok_iff hplain).mp hwrite
  obtain ⟨target, hfind, hplace⟩ := hbase.exists_target hplain
  exact ⟨base, hbase.directory, FileTree.differsAt_set before base _ _,
    FileTree.find_set hfind hplace _⟩

namespace Cli

variable {machine : Machine} {refusals : Refusals} {state : MachineState} {g : Generator}
  {directory : FilePath} {script : String}

/-! ## Outcomes -/

/-- A script that cannot be generated is not written. -/
theorem writeScript_error {e : LookupError} (h : g.script = .error e) :
    writeScript (machine.hostWith refusals) g directory state = (.error (.lookup e), state) := by
  rw [writeScript, h]
  rfl

/-- A script is written, and its path is the result. -/
theorem writeScript_eq (machine : Machine) {files : FileTree} (hscript : g.script = .ok script)
    (hwrite : refusals.write state.files (g.scriptPath directory) (Text.Utf8.encode script) =
      .ok files) :
    writeScript (machine.hostWith refusals) g directory state =
      (.ok (g.scriptPath directory), { state with files }) := by
  rw [writeScript, hscript]
  show ((machine.hostWith refusals).write _ _ >>= _) state = _
  rw [bind_eq (host_write_eq hwrite)]
  rfl

/-- A script that cannot be written leaves everything as it was. -/
theorem writeScript_write_error {e : FileError} (hscript : g.script = .ok script)
    (hwrite : refusals.write state.files (g.scriptPath directory) (Text.Utf8.encode script) =
      .error e) :
    writeScript (machine.hostWith refusals) g directory state =
      (.error (.file (g.scriptPath directory) e), state) := by
  rw [writeScript, hscript]
  show ((machine.hostWith refusals).write _ _ >>= _) state = _
  rw [bind_eq (host_write_error hwrite)]
  rfl

/-- **Writing a script stays in its directory and writes all or nothing.** A script that cannot be
    generated is not written, and the reason is reported. Otherwise the script is its three sections
    and, iff the system does not refuse it and the directory can hold it, one file of the directory
    is written, whose name has no slash, is neither `.` nor `..` and ends in `.R`. In all other
    cases nothing is changed, and the path of the file is reported with the reason: the refusal, if
    there is one. -/
theorem writeScript_confined (machine : Machine) (refusals : Refusals) (state : MachineState)
    {g : Generator} (h : g.Accepted) (directory : FilePath) :
    (FilePath.PlainName g.fileNameBytes ∧ ∃ stem, stem ≠ [] ∧
      g.fileNameBytes = stem ++ [FilePath.dot, ScriptOptions.letterR]) ∧
    (∀ e, g.script = .error e →
      writeScript (machine.hostWith refusals) g directory state = (.error (.lookup e), state)) ∧
    ∀ script, g.script = .ok script →
      (∃ preamble loading modeling, g.preamble = .ok preamble ∧ g.loading = .ok loading ∧
        g.modeling = .ok modeling ∧ preamble ++ loading ++ modeling = script) ∧
      let refusal :=
        refusals.ofWrite state.files (g.scriptPath directory) (Text.Utf8.encode script)
      ((refusal = none ∧ ∃ base files, state.files.WritableAt directory g.fileNameBytes base ∧
          writeScript (machine.hostWith refusals) g directory state =
            (.ok (g.scriptPath directory), { state with files }) ∧
          WrittenInto g directory script state.files files) ∨
        ∃ e, (refusal = some e ∨
            refusal = none ∧ ∀ base, ¬ state.files.WritableAt directory g.fileNameBytes base) ∧
          writeScript (machine.hostWith refusals) g directory state =
            (.error (.file (g.scriptPath directory) e), state)) := by
  have hname := Generator.exists_stem_of_accepted h
  refine ⟨hname, fun e he => writeScript_error he, fun script hscript => ?_⟩
  refine ⟨Generator.script_eq_ok_iff.mp hscript, ?_⟩
  intro refusal
  cases hrefusal : refusal with
  | some e =>
    exact .inr ⟨e, .inl rfl, writeScript_write_error hscript (Refusals.write_of_refused hrefusal)⟩
  | none =>
    have hwrites := Refusals.write_of_allowed hrefusal
    cases hwrite : state.files.write (g.scriptPath directory) (Text.Utf8.encode script) with
    | ok files =>
      obtain ⟨base, hbase, -⟩ := (FileTree.write_join_eq_ok_iff hname.1).mp hwrite
      exact .inl ⟨rfl, base, files, hbase, writeScript_eq machine hscript (hwrites.trans hwrite),
        writtenInto_of_write h hwrite⟩
    | error e =>
      refine .inr ⟨e, .inr ⟨rfl, fun base hbase => ?_⟩,
        writeScript_write_error hscript (hwrites.trans hwrite)⟩
      have hok : state.files.write (g.scriptPath directory) (Text.Utf8.encode script) =
          .ok (state.files.set (base ++ [g.fileNameBytes]) (.file (Text.Utf8.encode script))) :=
        (FileTree.write_join_eq_ok_iff hname.1).mpr ⟨base, hbase, rfl⟩
      rw [hwrite] at hok
      cases hok

/-- A description with one independent variable. -/
def straightLine : Description :=
  { Description.empty with
    dependent := some (.bare "y")
    independent := [.bare "x"]
    family := some "gaussian" }

/-- A script whose file name starts with dots. -/
def dottedScript (model : Model) : Generator :=
  { Generator.ofModel model with
    options := { ScriptOptions.default with fileName := "..R" } }

/-- A system that can be read and not be written. -/
def readOnly : Refusals :=
  ⟨fun _ _ => none, fun _ _ _ => some .permissionDenied⟩

/-- A directory that is given with a slash behind it holds the script, unless nothing may be written
    there. -/
theorem writeScript_confined_dots :
    let files := (FileTree.emptyAt []).addDirectory (.ofString "out")
    ∃ model g script after, Model.ofDescription straightLine .default = .ok model ∧
      g = dottedScript model ∧ g.Accepted ∧ g.script = .ok script ∧
      writeScript (Machine.host ⟨[], [], []⟩) g (.ofString "out/") ⟨files, "", ""⟩ =
        (.ok (.ofString "out/..R"), ⟨after, "", ""⟩) ∧
      WrittenInto g (.ofString "out/") script files after ∧
      writeScript (Machine.hostWith ⟨[], [], []⟩ readOnly) g (.ofString "out/") ⟨files, "", ""⟩ =
        (.error (.file (.ofString "out/..R") .permissionDenied), ⟨files, "", ""⟩) := by
  intro files
  obtain ⟨model, hmodel⟩ : ∃ model, Model.ofDescription straightLine .default = .ok model :=
    ⟨_, rfl⟩
  have haccepted : (dottedScript model).Accepted := by
    rw [Generator.accepted_iff]
    show { ScriptOptions.default with fileName := "..R" }.check = .ok ()
    decide +kernel
  obtain ⟨script, hscript⟩ : ∃ script, (dottedScript model).script = .ok script := by
    cases hmodel
    exact ⟨_, rfl⟩
  have hpath : (dottedScript model).scriptPath (.ofString "out/") = .ofString "out/..R" := by
    show (FilePath.ofString "out/").join (.ofString "..R") = _
    decide +kernel
  have hwritable : files.WritableAt (.ofString "out/") (FilePath.ofString "..R").bytes
      [(FilePath.ofString "out").bytes] :=
    ⟨⟨by decide +kernel, by decide +kernel⟩, by decide +kernel, by decide +kernel,
      by decide +kernel⟩
  obtain ⟨-, -, hnever⟩ :=
    writeScript_confined ⟨[], [], []⟩ .never ⟨files, "", ""⟩ haccepted (.ofString "out/")
  obtain ⟨-, -, hreadOnly⟩ :=
    writeScript_confined ⟨[], [], []⟩ readOnly ⟨files, "", ""⟩ haccepted (.ofString "out/")
  rw [hpath] at hnever hreadOnly
  have hrefused : writeScript (Machine.hostWith ⟨[], [], []⟩ readOnly) (dottedScript model)
      (.ofString "out/") ⟨files, "", ""⟩ =
        (.error (.file (.ofString "out/..R") .permissionDenied), ⟨files, "", ""⟩) := by
    obtain ⟨-, ⟨hallowed, -⟩ | ⟨e, hrefusal | ⟨hallowed, -⟩, hreported⟩⟩ := hreadOnly script hscript
    · cases hallowed
    · obtain rfl := Option.some.inj hrefusal
      exact hreported
    · cases hallowed
  obtain ⟨-, ⟨-, base, after, -, hwritten, hafter⟩ | ⟨e, hrefusal | ⟨-, hnot⟩, -⟩⟩ :=
    hnever script hscript
  · exact ⟨model, _, script, after, hmodel, rfl, haccepted, hscript, hwritten, hafter, hrefused⟩
  · cases hrefusal
  · exact absurd hwritable (hnot _)

end Cli

end FitScript
