import FitScript.Interpreter
import FitScript.Proofs.Literal.Bytes

/-!
# Scripts in the arguments of the interpreter

Which file the interpreter is asked to parse or to run.

* `AsksToParse`, `AsksToRun`: what arguments ask for, in bytes, as the interpreter reads them.
* `asksToParse_display`, `asksToRun_display`: the interpreter is asked for the path as it is shown.
* `zero_notMem_arguments`: arguments hold no zero byte, so that a program can be run with them.
* `asksForScript_iff`: this is the path of the script iff that path is a text.
* `run_stray`: a path of other bytes is lost, and it grows.
-/

namespace FitScript.Interpreter

open Text.Utf8

/-! ## What arguments ask for -/

/-- Arguments that have the file at a path parsed and not run: one literal stands for the path, and
    ends where the parentheses behind it close. -/
def AsksToParse (path : List UInt8) (arguments : List (List UInt8)) : Prop :=
  ∃ literal, arguments = [encode "--vanilla", encode "-e",
      encode "invisible(parse(file = " ++ literal ++ encode "))"] ∧
    Literal.readBytes? (literal ++ encode "))") = some (path, encode "))")

/-- Arguments that have the file at a path run. -/
def AsksToRun (path : List UInt8) (arguments : List (List UInt8)) : Prop :=
  arguments = [encode "--vanilla", path]

variable {script : FilePath} {path other : List UInt8} {arguments : List (List UInt8)}

/-- Arguments ask for one file to be parsed. -/
theorem AsksToParse.unique (h : AsksToParse path arguments) (h' : AsksToParse other arguments) :
    path = other := by
  obtain ⟨literal, rfl, hread⟩ := h
  obtain ⟨literal', hsame, hread'⟩ := h'
  have hexpression := (List.cons.inj (List.cons.inj (List.cons.inj hsame).2).2).1
  obtain rfl := List.append_cancel_left (List.append_cancel_right hexpression)
  rw [hread, Option.some.injEq, Prod.mk.injEq] at hread'
  exact hread'.1

/-- Arguments ask for one file to be run. -/
theorem AsksToRun.unique (h : AsksToRun path arguments) (h' : AsksToRun other arguments) :
    path = other := by
  have hsame := h.symm.trans h'
  exact (List.cons.inj (List.cons.inj hsame).2).1

/-! ## Paths as they are shown -/

theorem asksToParse_display (script : FilePath) :
    AsksToParse (encode script.display) (checkArguments script) := by
  refine ⟨encode (Literal.write script.display), ?_, Literal.readBytes?_encode_write _ _⟩
  simp only [checkArguments, Interpreter.arguments, List.map_cons, List.map_nil, encode_append]

theorem asksToRun_display (script : FilePath) :
    AsksToRun (encode script.display) (runArguments script) :=
  rfl

/-- The interpreter is asked to parse the script iff nothing of its path was replaced. -/
theorem asksToParse_iff : AsksToParse path (checkArguments script) ↔ encode script.display = path :=
  ⟨(asksToParse_display script).unique, fun h => h ▸ asksToParse_display script⟩

/-- The interpreter is asked to run the script iff nothing of its path was replaced. -/
theorem asksToRun_iff : AsksToRun path (runArguments script) ↔ encode script.display = path :=
  ⟨(asksToRun_display script).unique, fun h => h ▸ asksToRun_display script⟩

/-! ## Zero bytes -/

/-- For a path without zero bytes no argument has one. -/
theorem zero_notMem_arguments (h : 0 ∉ script.bytes) :
    ∀ argument ∈ checkArguments script ++ runArguments script, 0 ∉ argument := by
  have hdisplay : '\x00' ∉ script.display.toList := null_notMem_decodeLossy h
  have htexts : ∀ s ∈ ["--vanilla", "-e", "invisible(parse(file = " ++
      Literal.write script.display ++ "))", "--vanilla", script.display], '\x00' ∉ s.toList := by
    simp only [List.forall_mem_cons, List.not_mem_nil, false_imp_iff, implies_true, and_true,
      String.toList_append, List.mem_append, not_or]
    exact ⟨by decide, by decide, ⟨⟨by decide, Literal.null_notMem_write hdisplay⟩, by decide⟩,
      by decide, hdisplay⟩
  intro argument hargument hzero
  rw [checkArguments, runArguments, Interpreter.arguments, Interpreter.arguments, ← List.map_append,
    List.mem_map] at hargument
  obtain ⟨s, hs, rfl⟩ := hargument
  exact htexts s hs (zero_mem_encode hzero)

/-! ## Scripts -/

/-- **The interpreter looks at the file it was given iff its path is a text.** Whatever the bytes of
    a path are, if there is no zero byte among them, the program of a machine is started with the
    arguments that the path leads to. They ask for the path as it is shown, in one literal or as an
    argument of its own. These are the bytes of the path itself iff they are UTF-8. -/
theorem asksForScript_iff (hzero : 0 ∉ script.bytes) :
    (∀ (machine : Machine) (files : FileTree) (program : FilePath), 0 ∉ program.bytes →
      ∀ arguments ∈ [checkArguments script, runArguments script],
        machine.run files program arguments =
          (machine.program files program).bind (Machine.start · arguments)) ∧
    AsksToParse (encode script.display) (checkArguments script) ∧
    AsksToRun (encode script.display) (runArguments script) ∧
    (AsksToParse script.bytes (checkArguments script) ↔ script.text?.isSome) ∧
    (AsksToRun script.bytes (runArguments script) ↔ script.text?.isSome) := by
  have htext : encode script.display = script.bytes ↔ script.text?.isSome :=
    encode_decodeLossy_eq_iff
  refine ⟨fun machine files program hprogram arguments harguments => ?_,
    asksToParse_display script, asksToRun_display script,
    asksToParse_iff.trans htext, asksToRun_iff.trans htext⟩
  refine Machine.run_of_zero_notMem hprogram fun argument hargument => ?_
  refine zero_notMem_arguments hzero argument ?_
  rw [List.mem_cons, List.mem_singleton] at harguments
  rcases harguments with rfl | rfl
  · exact List.mem_append_left _ hargument
  · exact List.mem_append_right _ hargument

/-- A path with quotes, a backslash, a line feed and a letter of two bytes. -/
theorem asksForScript_iff_quoted :
    let script := FilePath.ofString "it's\\\n\"é\".R"
    0 ∉ script.bytes ∧ AsksToParse script.bytes (checkArguments script) ∧
      AsksToRun script.bytes (runArguments script) ∧
      checkArguments script = Interpreter.arguments
        ["--vanilla", "-e", "invisible(parse(file = 'it\\'s\\\\\\n\"é\".R'))"] := by
  intro script
  have hzero : 0 ∉ script.bytes := by decide +kernel
  obtain ⟨-, -, -, hparse, hrun⟩ := asksForScript_iff hzero
  have htext : script.text?.isSome := by decide +kernel
  exact ⟨hzero, hparse.mpr htext, hrun.mpr htext, by decide +kernel⟩

/-! ## Paths that are no texts -/

/-- A byte that starts no character is a piece of its own, whatever follows it. -/
theorem pieces_replicate_stray (n : Nat) :
    pieces (List.replicate n 0xFF) = List.replicate n (.stray [0xFF]) := by
  induction n with
  | zero => rfl
  | succ n ih =>
    rw [List.replicate_succ, List.replicate_succ, ← ih]
    rfl

/-- A path of such bytes is shown with U+FFFD for each of them, and is three times as long then. -/
theorem length_encode_display_replicate (n : Nat) :
    (encode (FilePath.display ⟨List.replicate n 0xFF⟩)).length = 3 * n := by
  rw [FilePath.display, decodeLossy, pieces_replicate_stray, List.map_replicate, encode,
    String.toList_ofList, encodeChars]
  have hshown : (String.utf8EncodeChar (Piece.stray [0xFF]).shown).length = 3 := by decide
  simp only [List.flatMap_replicate, List.length_flatten, List.map_replicate, hshown,
    List.sum_replicate_nat]
  omega

/-- Of a path of 44000 bytes that are no text neither argument is left. The system would start a
    program with the path itself, but refuses the arguments that it was replaced by. -/
theorem run_stray :
    let script : FilePath := ⟨List.replicate 44000 0xFF⟩
    0 ∉ script.bytes ∧ ¬ AsksToParse script.bytes (checkArguments script) ∧
      ¬ AsksToRun script.bytes (runArguments script) ∧
      ∀ program : Program,
        Machine.start program [encode "--vanilla", script.bytes] =
          .ok (program [encode "--vanilla", script.bytes]) ∧
        Machine.start program (runArguments script) = .error .argumentTooLong := by
  intro script
  have hshown : (encode script.display).length = 3 * 44000 := length_encode_display_replicate 44000
  have hbytes : script.bytes.length = 44000 := List.length_replicate
  have hne : encode script.display ≠ script.bytes := by
    intro hsame
    rw [hsame, hbytes] at hshown
    exact absurd hshown (by decide)
  refine ⟨fun hzero => ?_, fun hparse => hne (asksToParse_iff.mp hparse),
    fun hrun => hne (asksToRun_iff.mp hrun), fun program => ⟨?_, ?_⟩⟩
  · exact absurd (List.eq_of_mem_replicate hzero) (by decide)
  · refine Machine.start_of_forall_le (List.forall_mem_cons.mpr ⟨by decide, ?_⟩)
    rw [List.forall_mem_singleton, hbytes]
    decide
  · have hmem : encode script.display ∈ runArguments script :=
      List.mem_cons_of_mem _ (List.mem_singleton_self _)
    refine Machine.start_of_mem hmem ?_
    rw [hshown]
    decide

end FitScript.Interpreter
