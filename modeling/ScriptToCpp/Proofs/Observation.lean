import ScriptToCpp.Command.Run
import ScriptToCpp.Proofs.FileCompiling

/-! Tracing and the settings only add to what is printed. Two sessions over the same script, the one
traced and the other not, give the same results and stay alike; and of two commands that compile the
same file, the exit code, the error text and the output file are the same, whatever the settings,
the environment and the other files say. -/
namespace ScriptToCpp

/-- Sessions that agree, and write to the same path, give the same results and end up the same. -/
theorem Session.Agrees.outcome {traced plain : Session} (agrees : traced.Agrees plain)
    (path : traced.draft.output.path = plain.draft.output.path) (count : Nat) :
    (traced.programs count).1.map Prod.fst = (plain.programs count).1.map Prod.fst ∧
    (traced.programs count).2.window = (plain.programs count).2.window ∧
    (traced.programs count).2.draft.names = (plain.programs count).2.draft.names ∧
    (traced.programs count).2.draft.depth = (plain.programs count).2.draft.depth ∧
    (traced.programs count).2.draft.output = (plain.programs count).2.draft.output := by
  obtain ⟨results, window, draft⟩ := agrees.programs count
  refine ⟨results, window, draft.names, draft.depth, draft.output ?_⟩
  calc (traced.programs count).2.draft.output.path
      = traced.draft.output.path := Draft.path_of_setting (traced.programs_setting count)
    _ = plain.draft.output.path := path
    _ = (plain.programs count).2.draft.output.path :=
        (Draft.path_of_setting (plain.programs_setting count)).symm

namespace FileTree
variable {tree other : FileTree} {path : Path}

theorem compiled_congr (same : tree.read path = other.read path) :
    tree.compiled path = other.compiled path := by
  unfold compiled text
  rw [same]

theorem SameAt.store (same : tree.SameAt other path) (program : Except Failure String) :
    (tree.store path program).1 = (other.store path program).1 ∧
      (tree.store path program).2.look path = (other.store path program).2.look path := by
  cases program with
  | error failure => exact ⟨rfl, same.look⟩
  | ok program =>
    have wrote := same.write program.toUTF8
    unfold FileTree.store
    dsimp only
    cases here : tree.write path program.toUTF8 with
    | error fault =>
      cases there : other.write path program.toUTF8 with
      | error fault' =>
        rw [here, there] at wrote
        cases wrote
        exact ⟨rfl, same.look⟩
      | ok after =>
        rw [here, there] at wrote
        contradiction
    | ok after =>
      cases there : other.write path program.toUTF8 with
      | error fault =>
        rw [here, there] at wrote
        contradiction
      | ok after' =>
        rw [here, there] at wrote
        exact ⟨rfl, Except.ok.inj wrote⟩

end FileTree

/-- What a run leaves to be seen, its standard output apart: the exit code, the error text and what
stands at the path of the output. -/
def observed (ran : Outcome × FileTree) : Nat × String × Except FileError FileEntry :=
  (ran.1.code, ran.1.stderr, ran.2.look Cpp.Output.defaultPath)

namespace Command

/-- What the settings say enters into the standard output alone. -/
theorem runCompile_run (file : Path) (settings : Settings) (tree : FileTree) :
    observed (runCompile (m := StateM FileTree) file settings tree) =
      let (result, after) := tree.store Cpp.Output.defaultPath (tree.compiled file)
      match result with
      | .ok _ => (0, "", after.look Cpp.Output.defaultPath)
      | .error failure =>
        (1, "Error: " ++ failure.message ++ "\n", after.look Cpp.Output.defaultPath) := by
  obtain ⟨trace, ran⟩ := tree.compileFile_run file Cpp.Output.defaultPath settings.verbose
  unfold runCompile
  simp only [bind, StateT.bind, ran]
  cases (tree.store Cpp.Output.defaultPath (tree.compiled file)).1 <;> rfl

end Command

theorem Settings.load_run (environment : Environment) (tree : FileTree) :
    ∃ settings, Settings.load (m := StateM FileTree) environment tree = (settings, tree) := by
  unfold Settings.load
  simp only [bind, StateT.bind, FileTree.readText_run]
  cases tree.text (Settings.path environment) <;> exact ⟨_, rfl⟩

/-- The settings are kept under their own name. -/
theorem Settings.find_last {tree : FileTree} {environment : Environment} {place : Place}
    {entry : FileEntry} (found : tree.find (Settings.path environment) = .ok (place, entry)) :
    ∃ directory, place = directory ++ [(Path.ofString "config.json").bytes] := by
  obtain ⟨way, segments⟩ := Path.segments_join
    (((Path.ofString environment.homePath).join (.ofString ".lwc")).join
      (.ofString environment.profileName))
    (show Path.slash ∉ (Path.ofString "config.json").bytes by decide)
  exact FileTree.find_last found segments (by decide)

/-- The settings are never kept where the output goes. -/
theorem Settings.find_ne_output {tree : FileTree} {environment : Environment} {place : Place}
    {entry : FileEntry} (found : tree.find (Settings.path environment) = .ok (place, entry))
    (other : FileEntry) : tree.find Cpp.Output.defaultPath ≠ .ok (place, other) := by
  -- Each place ends in the last name on its path, and these names differ.
  intro output
  obtain ⟨_, kept⟩ := Settings.find_last found
  have single : Cpp.Output.defaultPath.segments = [] ++ [Cpp.Output.defaultPath.bytes] :=
    Path.split_name (by decide)
  obtain ⟨_, written⟩ := FileTree.find_last output single (by decide)
  have same := List.append_inj_right' (kept.symm.trans written) rfl
  revert same
  decide

/-- A command line runs its command, under some settings. -/
theorem runArguments_run {arguments : List Request.Argument} {request : Request}
    (asked : Request.ofArguments arguments = .ok request) (environment : Environment)
    (tree : FileTree) :
    ∃ settings, runArguments (m := StateM FileTree) arguments environment tree =
      request.command.run (m := StateM FileTree) settings environment tree := by
  obtain ⟨settings, loaded⟩ := Settings.load_run environment tree
  unfold runArguments
  rw [asked]
  simp only [Request.run, bind, StateT.bind, loaded]
  exact ⟨_, rfl⟩

theorem runArguments_compile {arguments : List Request.Argument} {verbose : Bool} {file : Path}
    (asked : Request.ofArguments arguments = .ok ⟨verbose, .compile (some file)⟩)
    (environment : Environment) (tree : FileTree) :
    ∃ settings, runArguments (m := StateM FileTree) arguments environment tree =
      Command.runCompile (m := StateM FileTree) file settings tree :=
  runArguments_run asked environment tree

/-- The words of a command line ask for the compilation of a file, traced or not. -/
def Request.Compiles (arguments : List Request.Argument) (file : Path) : Prop :=
  ∃ verbose, Request.ofArguments arguments = .ok ⟨verbose, .compile (some file)⟩

/-- Commands that compile the same file can only be told apart by their standard output, where the
file reads the same and the same stands at the path of the output. -/
theorem observed_compile {arguments arguments' : List Request.Argument} {file : Path}
    (asked : Request.Compiles arguments file) (asked' : Request.Compiles arguments' file)
    (environment environment' : Environment) {tree tree' : FileTree}
    (read : tree.read file = tree'.read file) (same : tree.SameAt tree' Cpp.Output.defaultPath) :
    observed (runArguments (m := StateM FileTree) arguments environment tree) =
      observed (runArguments (m := StateM FileTree) arguments' environment' tree') := by
  obtain ⟨_, asked⟩ := asked
  obtain ⟨_, asked'⟩ := asked'
  obtain ⟨settings, ran⟩ := runArguments_compile asked environment tree
  obtain ⟨settings', ran'⟩ := runArguments_compile asked' environment' tree'
  obtain ⟨result, look⟩ := same.store (tree'.compiled file)
  rw [ran, ran', Command.runCompile_run, Command.runCompile_run, FileTree.compiled_congr read]
  simp only [result, look]

/-- Tracing and the settings are there for looking on.

A traced session and a plain one over the same script and the same output either both fail to start,
with the same failure, or give the same results however often they are asked for the program, and
end at the same tokens with the same names, indentation and output; the plain one shows no trace.

Two command lines that compile the same file end alike in all but their standard output if that file
reads the same and the same stands at the path of the output, whatever the environments and the
other files; so also if the settings file holds something else, unless it is the file to compile. -/
theorem tracing_and_settings_only_print :
    (∀ (source : String) (output : Cpp.Output),
      (∃ failure, ∀ tracing, Session.ofSource source output tracing = .error failure) ∨
      ∃ traced plain, Session.ofSource source output true = .ok traced ∧
        Session.ofSource source output false = .ok plain ∧ ∀ count,
        (traced.programs count).1.map Prod.fst = (plain.programs count).1.map Prod.fst ∧
        (traced.programs count).2.window = (plain.programs count).2.window ∧
        (traced.programs count).2.draft.names = (plain.programs count).2.draft.names ∧
        (traced.programs count).2.draft.depth = (plain.programs count).2.draft.depth ∧
        (traced.programs count).2.draft.output = (plain.programs count).2.draft.output ∧
        ∀ answer ∈ (plain.programs count).1, answer.2 = "") ∧
    (∀ (file : Path) (arguments arguments' : List Request.Argument),
      Request.Compiles arguments file → Request.Compiles arguments' file →
      ∀ (environment environment' : Environment) (tree : FileTree),
        (∀ tree' : FileTree,
          tree.read file = tree'.read file → tree.SameAt tree' Cpp.Output.defaultPath →
          observed (runArguments (m := StateM FileTree) arguments environment tree) =
            observed (runArguments (m := StateM FileTree) arguments' environment' tree')) ∧
        (∀ (place : Place) (old new : ByteArray),
          tree.find (Settings.path environment) = .ok (place, .file old) →
          (∀ entry, tree.find file ≠ .ok (place, entry)) →
          observed (runArguments (m := StateM FileTree) arguments environment tree) =
            observed (runArguments (m := StateM FileTree) arguments' environment'
              (tree.insert place (.file new))))) := by
  constructor
  · intro source output
    unfold Session.ofSource
    cases Window.ofSource source with
    | error fault => exact .inl ⟨.lexical fault, fun _ => rfl⟩
    | ok window =>
      refine .inr ⟨_, _, rfl, rfl, fun count => ?_⟩
      have agrees : Session.Agrees ⟨window, .start output true⟩ ⟨window, .start output false⟩ :=
        ⟨rfl, rfl, rfl, rfl, rfl⟩
      obtain ⟨results, tokens, names, depth, written⟩ := agrees.outcome rfl count
      exact ⟨results, tokens, names, depth, written, Session.programs_untraced rfl count⟩
  · intro file arguments arguments' asked asked' environment environment' tree
    constructor
    · intro tree' read same
      exact observed_compile asked asked' environment environment' read same
    · intro place old new kept apart
      have held := (FileTree.find_cases kept).2
      exact observed_compile asked asked' environment environment'
        (FileTree.sameAt_refill held apart).read
        (FileTree.sameAt_refill held (Settings.find_ne_output kept))

/-- A plain run, and a traced one that knows no home directory and finds the settings spoilt. -/
theorem settings_spoilt :
    let directory : Place := [Request.bytesOf ".lwc", Request.bytesOf "default"]
    let place := directory ++ [Request.bytesOf "config.json"]
    let script := directory ++ [Request.bytesOf "s"]
    let old := "\x7b\"env_name\": \"default\"\x7d".toUTF8
    let tree := ((FileTree.ofWorkingDirectory directory).insert place (.file old)).insert script
      (.file "print 1".toUTF8)
    let environment : Environment := { home := some "/".toUTF8 }
    tree.find (Settings.path environment) = .ok (place, .file old) ∧
      tree.find (.ofString "s") = .ok (script, .file "print 1".toUTF8) ∧
      observed (runArguments (m := StateM FileTree) [Request.bytesOf "s"] environment tree) =
        observed (runArguments (m := StateM FileTree) [Request.bytesOf "-v", Request.bytesOf "s"]
          { verbose := some "yes".toUTF8 } (tree.insert place (.file "[".toUTF8))) := by
  intro directory place script old tree environment
  have kept : tree.find (Settings.path environment) = .ok (place, .file old) := rfl
  have found : tree.find (.ofString "s") = .ok (script, .file "print 1".toUTF8) := rfl
  refine ⟨kept, found, ?_⟩
  have asked : Request.Compiles [Request.bytesOf "s"] (.ofString "s") := ⟨false, rfl⟩
  have asked' : Request.Compiles [Request.bytesOf "-v", Request.bytesOf "s"] (.ofString "s") :=
    ⟨true, rfl⟩
  apply (tracing_and_settings_only_print.2 _ _ _ asked asked' _ _ tree).2 place old _ kept
  intro entry same
  rw [found] at same
  have places : script = place := congrArg Prod.fst (Except.ok.inj same)
  exact absurd places (by decide)

end ScriptToCpp
