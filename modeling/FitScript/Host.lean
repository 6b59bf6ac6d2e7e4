import FitScript.FileTree

/-!
# Hosts

What a command asks of the system it runs on.

* `Host`: the operations, in some monad.
* `Refusals`: what a system refuses to read and to write, whatever stands there.
* `Machine.hostWith`: a host that is a value: a tree of files, programs that are functions,
  refusals, and the texts that were written. `Machine.host`: the same without refusals.
-/

namespace FitScript

/-- What a program leaves behind. -/
structure Outcome where
  /-- The exit status; none if a signal ended the program. -/
  status : Option Nat
  output : List UInt8
  errors : List UInt8
deriving DecidableEq

/-- The operations of a system. -/
structure Host (m : Type → Type) where
  /-- Reads a file. -/
  read : FilePath → m (Except FileError (List UInt8))
  /-- Writes a file, all of it or nothing. -/
  write : FilePath → List UInt8 → m (Except FileError Unit)
  /-- Whether anything stands at a path. -/
  exists? : FilePath → m Bool
  /-- Runs a program with arguments. -/
  run : FilePath → List (List UInt8) → m (Except FileError Outcome)
  /-- The value of an environment variable. -/
  environment : String → m (Option String)
  /-- Writes to the standard output. -/
  print : String → m Unit
  /-- Writes to the standard error. -/
  warn : String → m Unit

/-! ## Refusals -/

/-- What a system refuses to read or to write: for want of a permission or of space, or because a
    device fails. It may depend on all files and on the content. -/
structure Refusals where
  /-- Why the file at a path is not read. -/
  ofRead : FileTree → FilePath → Option FileError
  /-- Why a content is not written to a path. -/
  ofWrite : FileTree → FilePath → List UInt8 → Option FileError

namespace Refusals

/-- Nothing is refused. -/
def never : Refusals :=
  ⟨fun _ _ => none, fun _ _ _ => none⟩

variable (refusals : Refusals) (files : FileTree) (path : FilePath) (content : List UInt8)

/-- The content of the file at a path, if it may be read. -/
def read : Except FileError (List UInt8) :=
  match refusals.ofRead files path with
  | some e => .error e
  | none => files.read path

/-- The tree with a content at a path, if it may be written there. -/
def write : Except FileError FileTree :=
  match refusals.ofWrite files path content with
  | some e => .error e
  | none => files.write path content

variable {refusals files path content}

theorem write_of_refused {e : FileError} (h : refusals.ofWrite files path content = some e) :
    refusals.write files path content = .error e := by
  rw [write, h]

theorem write_of_allowed (h : refusals.ofWrite files path content = none) :
    refusals.write files path content = files.write path content := by
  rw [write, h]

/-- What is written was not refused, and could be written in the tree. -/
theorem write_eq_ok_iff {after : FileTree} : refusals.write files path content = .ok after ↔
    refusals.ofWrite files path content = none ∧ files.write path content = .ok after := by
  cases h : refusals.ofWrite files path content with
  | some e => simp [write_of_refused h]
  | none => simp [write_of_allowed h]

end Refusals

/-! ## Machines -/

/-- A program: its arguments determine what it leaves behind. -/
abbrev Program := List (List UInt8) → Outcome

/-- The part of a machine that commands do not change. -/
structure Machine where
  /-- The programs that are found by name. -/
  commands : Keyed FilePath Program
  /-- The programs among the files of the tree. -/
  programs : Keyed Location Program
  /-- The environment variables. -/
  environment : Keyed String String

/-- The part of a machine that commands change. -/
structure MachineState where
  files : FileTree
  output : String
  errors : String

namespace Machine

/-- The program of a name. Where names are looked up, `.` and `..` are directories. -/
def command (machine : Machine) (name : FilePath) : Except FileError Program :=
  if name.bytes = [FilePath.dot] ∨ name.bytes = [FilePath.dot, FilePath.dot] then
    .error .permissionDenied
  else if FileTree.longestName < name.bytes.length then .error .nameTooLong
  else
    match machine.commands.lookup name with
    | some program => .ok program
    | none => .error .notFound

/-- The program at a path in a tree, where nothing but the programs can be run. -/
def programAt (machine : Machine) (files : FileTree) (path : FilePath) :
    Except FileError Program := do
  match ← files.find path with
  | .entry location _ =>
    match machine.programs.lookup location with
    | some program => pure program
    | none => throw .permissionDenied
  | .absent _ => throw .notFound

/-- The program that runs for a path: one of that name if the path has no slash, else the one
    there. -/
def program (machine : Machine) (files : FileTree) (path : FilePath) :
    Except FileError Program :=
  if FilePath.slash ∉ path.bytes then machine.command path else machine.programAt files path

/-- The most bytes that an argument of a program can have. -/
def longestArgument : Nat :=
  131071

/-- Starts a program with arguments. -/
def start (program : Program) (arguments : List (List UInt8)) : Except FileError Outcome :=
  if arguments.any (longestArgument < ·.length) then .error .argumentTooLong
  else .ok (program arguments)

theorem start_of_forall_le {program : Program} {arguments : List (List UInt8)}
    (h : ∀ argument ∈ arguments, argument.length ≤ longestArgument) :
    start program arguments = .ok (program arguments) := by
  refine if_neg ?_
  simpa only [List.any_eq_true, decide_eq_true_eq, not_exists, not_and, Nat.not_lt] using h

theorem start_of_mem {program : Program} {arguments : List (List UInt8)} {argument : List UInt8}
    (hmem : argument ∈ arguments) (hlong : longestArgument < argument.length) :
    start program arguments = .error .argumentTooLong :=
  if_pos (List.any_eq_true.mpr ⟨argument, hmem, decide_eq_true hlong⟩)

/-- Runs a program with arguments. -/
def run (machine : Machine) (files : FileTree) (path : FilePath) (arguments : List (List UInt8)) :
    Except FileError Outcome :=
  if 0 ∈ path.bytes ∨ arguments.any (0 ∈ ·) then .error .zeroInArgument
  else (machine.program files path).bind (start · arguments)

/-- Without zero bytes the program is started with the arguments. -/
theorem run_of_zero_notMem {machine : Machine} {files : FileTree} {path : FilePath}
    {arguments : List (List UInt8)} (hpath : 0 ∉ path.bytes)
    (harguments : ∀ argument ∈ arguments, 0 ∉ argument) :
    machine.run files path arguments = (machine.program files path).bind (start · arguments) := by
  refine if_neg ?_
  rintro (hzero | hzero)
  · exact hpath hzero
  · obtain ⟨argument, hmem, hargument⟩ := List.any_eq_true.mp hzero
    exact harguments argument hmem (of_decide_eq_true hargument)

/-- A machine as a host whose system refuses some reads and writes. -/
def hostWith (machine : Machine) (refusals : Refusals) : Host (StateM MachineState) where
  read path := return refusals.read (← get).files path
  write path content := do
    match refusals.write (← get).files path content with
    | .ok files =>
      modify ({ · with files })
      pure (.ok ())
    | .error e => pure (.error e)
  exists? path := return (← get).files.exists? path
  run path arguments := return machine.run (← get).files path arguments
  environment name := return machine.environment.lookup name
  print text := modify fun state => { state with output := state.output ++ text }
  warn text := modify fun state => { state with errors := state.errors ++ text }

/-- A machine as a host whose system refuses nothing. -/
abbrev host (machine : Machine) : Host (StateM MachineState) :=
  machine.hostWith .never

end Machine

end FitScript
