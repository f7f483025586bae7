import ScriptToCpp.FileCompilation
import ScriptToCpp.Proofs.FileTrees
import ScriptToCpp.Proofs.Sessions
import Mathlib

/-! Compiling from a file into a file is compiling the text of the one and writing the result to
the other, all or nothing: where it fails, at whatever stage, the files are as they were. -/
namespace ScriptToCpp

namespace FileTree

/-- The program that the script in a file stands for. -/
def compiled (tree : FileTree) (input : Path) : Except Failure String := do
  compile (← (tree.text input).mapError (.ofReading input))

theorem compiled_of_text {tree : FileTree} {input : Path} {source : String}
    (read : tree.text input = .ok source) : tree.compiled input = compile source := by
  rw [compiled, read]
  rfl

theorem compiled_unread {tree : FileTree} {input : Path} {fault : FileError}
    (unread : tree.text input = .error fault) :
    tree.compiled input = .error (.ofReading input fault) := by
  rw [compiled, unread]
  rfl

/-- Puts a program into a file, if there is a program and room for it. -/
def store (tree : FileTree) (output : Path) : Except Failure String → Except Failure Path × FileTree
  | .error failure => (.error failure, tree)
  | .ok program =>
    match tree.write output program.toUTF8 with
    | .error fault => (.error (.file fault), tree)
    | .ok after => (.ok output, after)

theorem readSource_run (tree : FileTree) (path : Path) :
    readSource (m := StateM FileTree) path tree =
      ((tree.text path).mapError (.ofReading path), tree) := by
  unfold readSource
  simp only [bind, StateT.bind, readText_run]
  cases tree.text path <;> rfl

theorem save_run (tree : FileTree) (output : Cpp.Output) :
    output.save (m := StateM FileTree) tree =
      match tree.write output.path output.text.toUTF8 with
      | .error fault => (.error fault, tree)
      | .ok after => (.ok (), after) := by
  change attempt (fun tree => tree.write output.path output.text.toUTF8) tree = _
  simp only [attempt]
  cases tree.write output.path output.text.toUTF8 <;> rfl

/-- The result and the files left behind, whatever is traced on the way. -/
theorem compileFile_run (tree : FileTree) (input output : Path) (tracing : Bool) :
    ∃ trace, compileFile (m := StateM FileTree) input output tracing tree =
      (⟨(tree.store output (tree.compiled input)).1, trace⟩,
        (tree.store output (tree.compiled input)).2) := by
  unfold compileFile compiled
  simp only [bind, StateT.bind, readSource_run]
  cases tree.text input with
  | error fault => exact ⟨"", rfl⟩
  | ok source =>
    -- The session has its own output and is perhaps traced, but compiles as the script does alone.
    rcases session_compiles source output tracing with
      ⟨failure, failed, unread⟩ | ⟨session, result, last, opened, ran, same, path⟩
    · simp only [Except.mapError, Except.bind, failed, unread]
      exact ⟨"", rfl⟩
    · refine ⟨last.draft.trace, ?_⟩
      simp only [Except.mapError, Except.bind, same, opened, ran]
      cases result with
      | error failure => rfl
      | ok _ =>
        simp only [StateT.bind, save_run, path, Except.map, store]
        cases tree.write output last.draft.output.text.toUTF8 <;> rfl

/-- A program that was stored is in its file, and nothing else has changed. -/
theorem store_ok {tree after : FileTree} {output : Path} {program : String}
    (written : tree.write output program.toUTF8 = .ok after) :
    tree.store output (.ok program) = (.ok output, after) ∧ after.text output = .ok program ∧
      ∃ place, tree.Replaced after output place program.toUTF8 := by
  obtain ⟨place, _, replaced⟩ := write_replaced written
  refine ⟨?_, ?_, place, replaced⟩
  · rw [store, written]
  · exact text_ok_iff.mpr (read_of_find replaced.found)

theorem store_error {tree : FileTree} {output : Path} {program : Except Failure String}
    {failure : Failure} (failed : (tree.store output program).1 = .error failure) :
    (tree.store output program).2 = tree := by
  unfold store at failed ⊢
  cases program with
  | error _ => rfl
  | ok program =>
    dsimp only at failed ⊢
    split at failed
    · rfl
    · contradiction

end FileTree

/-- A file is compiled as its text is, into the output or not at all. If all goes well, the output
holds just the program and nothing else has changed, also where both paths lead to the same place.
A script that is missing is told from one that cannot be read; a script at fault fails as it does on
its own; and whatever fails, the files stay as they were. -/
theorem compileFile_all_or_nothing (tree : FileTree) (input output : Path) (tracing : Bool) :
    let (compilation, after) := compileFile (m := StateM FileTree) input output tracing tree
    (∀ source program written, tree.text input = .ok source → compile source = .ok program →
      tree.write output program.toUTF8 = .ok written →
      compilation.result = .ok output ∧ after.text output = .ok program ∧
        ∃ place, tree.Replaced after output place program.toUTF8) ∧
    (∀ fault, tree.text input = .error fault →
      compilation.result = .error (if fault = .missing
        then .notFound ("Cannot read " ++ input.display ++ ": " ++ fault.message)
        else .file fault)) ∧
    (∀ source failure, tree.text input = .ok source → compile source = .error failure →
      compilation.result = .error failure) ∧
    (∀ source program fault, tree.text input = .ok source → compile source = .ok program →
      tree.write output program.toUTF8 = .error fault →
      compilation.result = .error (.file fault)) ∧
    (∀ failure, compilation.result = .error failure → after = tree) := by
  obtain ⟨trace, ran⟩ := tree.compileFile_run input output tracing
  rw [ran]
  refine ⟨?_, ?_, ?_, ?_, ?_⟩
  · intro source program written read compiled wrote
    obtain ⟨stored, text, replaced⟩ := FileTree.store_ok wrote
    rw [FileTree.compiled_of_text read, compiled, stored]
    exact ⟨rfl, text, replaced⟩
  · intro fault unread
    rw [FileTree.compiled_unread unread]
    cases fault <;> rfl
  · intro source failure read failed
    rw [FileTree.compiled_of_text read, failed]
    rfl
  · intro source program fault read compiled refused
    rw [FileTree.compiled_of_text read, compiled, FileTree.store, refused]
  · intro failure failed
    exact FileTree.store_error failed

/-- A script that is compiled into its own place, by another path. -/
theorem script_overwritten :
    let tree := (FileTree.ofWorkingDirectory []).insert [[0x61]] (.file "print 1".toUTF8)
    let (compilation, after) :=
      compileFile (m := StateM FileTree) (.ofString "a") (.ofString "./a") true tree
    ∃ program written, tree.text (.ofString "a") = .ok "print 1" ∧
      compile "print 1" = .ok program ∧
      tree.write (.ofString "./a") program.toUTF8 = .ok written ∧
      written = tree.insert [[0x61]] (.file program.toUTF8) ∧
      compilation.result = .ok (.ofString "./a") ∧ after.text (.ofString "./a") = .ok program ∧
      ∃ place, tree.Replaced after (.ofString "./a") place program.toUTF8 := by
  intro tree
  have read : tree.text (.ofString "a") = .ok "print 1" := FileTree.text_ok_iff.mpr rfl
  obtain ⟨program, compiled⟩ : ∃ program, compile "print 1" = .ok program := ⟨_, by cbv⟩
  have written : tree.write (.ofString "./a") program.toUTF8 =
      .ok (tree.insert [[0x61]] (.file program.toUTF8)) := rfl
  exact ⟨program, _, read, compiled, written, rfl,
    (compileFile_all_or_nothing tree (.ofString "a") (.ofString "./a") true).1
      _ _ _ read compiled written⟩

end ScriptToCpp
