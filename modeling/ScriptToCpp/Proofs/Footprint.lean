import ScriptToCpp.Proofs.Observation
import ScriptToCpp.Proofs.SettingsStore
import Mathlib

/-! What a command line leaves behind. Of all files, a run changes at most one: a compilation that
succeeds replaces the output, and settings are written where there were none. What each command can
do is said once, and the rest follows from that. -/
namespace ScriptToCpp

namespace FileTree
variable {tree after : FileTree} {place : Place}

/-- A mere name has its place in the working directory. -/
theorem site_name {name : Path} (plain : Path.slash ∉ name.bytes)
    (found : tree.site name = .ok (some place)) : place = tree.workingDirectory ++ [name.bytes] := by
  have named : endsInSlash name = false := by
    rw [endsInSlash, beq_eq_false_iff_ne]
    exact fun last => plain (List.mem_of_getLast? last)
  have single : name.segments = [] ++ [name.bytes] := by
    rw [Path.segments, if_neg (Path.relative plain)]
    exact Path.split_name plain
  obtain ⟨way, last, directory, _, segments, led, _, rfl⟩ := site_named found named
  obtain ⟨rfl, same⟩ := List.append_inj' (single.symm.trans segments) rfl
  rw [walk_concat] at led
  obtain ⟨above, reached, _, rfl⟩ := led
  cases reached
  rw [origin, if_neg (Path.relative plain), ← same]
  rfl

theorem compiled_ok {file : Path} {program : String} (compiled : tree.compiled file = .ok program) :
    ∃ source, tree.text file = .ok source ∧ compile source = .ok program := by
  cases read : tree.text file with
  | error fault =>
    rw [compiled_unread read] at compiled
    contradiction
  | ok source => exact ⟨source, rfl, compiled_of_text read ▸ compiled⟩

end FileTree

/-- Where the output goes. -/
def FileTree.outputPlace (tree : FileTree) : Place :=
  tree.workingDirectory ++ [Cpp.Output.defaultPath.bytes]

namespace Command

/-- The code that a command can end with, and the tree that it then leaves. -/
inductive Leaves (environment : Environment) (tree : FileTree) : Command → Nat → FileTree → Prop
  | failed {command : Command} (other : command ≠ .initSettings) :
      Leaves environment tree command 1 tree
  | compiled {file : Path} {program : String} {after : FileTree}
      (translated : tree.compiled file = .ok program)
      (written : tree.write Cpp.Output.defaultPath program.toUTF8 = .ok after) :
      Leaves environment tree (.compile (some file)) 0 after
  | listed (file : Path) (json : Bool) : Leaves environment tree (.listTokens file json) 0 tree
  | shown : Leaves environment tree .showSettings 0 tree
  /-- Settings that are there already are left alone. -/
  | kept (present : tree.isPresent (Settings.path environment) = true) :
      Leaves environment tree .initSettings 0 tree
  | initialised {after : FileTree} (absent : tree.isPresent (Settings.path environment) = false)
      (saved : (Settings.default environment).save (m := StateM FileTree) environment tree =
        (.ok (), after)) :
      Leaves environment tree .initSettings 0 after
  /-- The settings could not be written, but perhaps some directories were made for them. -/
  | prepared (absent : tree.isPresent (Settings.path environment) = false) :
      Leaves environment tree .initSettings 1 (Settings.prepared environment tree)

variable (environment : Environment) (tree : FileTree)

theorem runCompile_leaves (file : Path) (settings : Settings) :
    let (outcome, after) := runCompile (m := StateM FileTree) file settings tree
    Leaves environment tree (.compile (some file)) outcome.code after := by
  obtain ⟨trace, ran⟩ := tree.compileFile_run file Cpp.Output.defaultPath settings.verbose
  unfold runCompile
  simp only [bind, StateT.bind, ran]
  cases compiled : tree.compiled file with
  | error failure => exact .failed nofun
  | ok program =>
    cases written : tree.write Cpp.Output.defaultPath program.toUTF8 with
    | error fault =>
      rw [FileTree.store, written]
      exact .failed nofun
    | ok after =>
      rw [FileTree.store, written]
      exact .compiled compiled written

theorem runListTokens_leaves (file : Path) (json : Bool) :
    let (outcome, after) := runListTokens (m := StateM FileTree) file json tree
    Leaves environment tree (.listTokens file json) outcome.code after := by
  unfold runListTokens
  simp only [bind, StateT.bind, FileTree.readSource_run]
  cases tree.text file with
  | error fault => exact .failed nofun
  | ok source =>
    simp only [Except.mapError]
    cases tokenize source with
    | error fault => exact .failed nofun
    | ok tokens => exact .listed file json

theorem runInitSettings_leaves :
    let (outcome, after) := runInitSettings (m := StateM FileTree) environment tree
    Leaves environment tree .initSettings outcome.code after := by
  unfold runInitSettings
  simp only [bind, StateT.bind, FileAccess.isPresent]
  cases present : tree.isPresent (Settings.path environment) with
  | true => exact .kept present
  | false =>
    rcases Settings.save_cases (.default environment) environment tree with
      ⟨fault, failed⟩ | ⟨after, saved, _⟩
    · simp only [Bool.false_eq_true, if_false, StateT.bind, failed]
      exact .prepared present
    · simp only [Bool.false_eq_true, if_false, StateT.bind, saved]
      exact .initialised present saved

theorem run_leaves (command : Command) (settings : Settings) :
    let (outcome, after) := command.run (m := StateM FileTree) settings environment tree
    Leaves environment tree command outcome.code after := by
  match command with
  | .compile (some file) => exact runCompile_leaves environment tree file settings
  | .compile none => exact .failed nofun
  | .listTokens file json => exact runListTokens_leaves environment tree file json
  | .showSettings => exact .shown
  | .initSettings => exact runInitSettings_leaves environment tree

variable {environment tree} {command : Command} {code : Nat} {after : FileTree} {place : Place}

/-- A file that a command changes is the output of a compilation, or settings that were missing. -/
theorem Leaves.changed (leaves : Leaves environment tree command code after)
    (changed : after.file? place ≠ tree.file? place) : code = 0 ∧
    ((∃ file source program, command = .compile (some file) ∧ tree.text file = .ok source ∧
        ScriptToCpp.compile source = .ok program ∧ place = tree.outputPlace ∧
        after.file? place = some program.toUTF8) ∨
      (command = .initSettings ∧ tree.isPresent (Settings.path environment) = false ∧
        after.find (Settings.path environment) =
          .ok (place, .file (Settings.default environment).render.toUTF8))) := by
  cases leaves with
  | failed | listed | shown | kept => contradiction
  | prepared => exact absurd ((Settings.prepared_extends environment tree).file? place) changed
  | compiled translated written =>
    obtain ⟨source, read, translated⟩ := FileTree.compiled_ok translated
    obtain ⟨site, found, replaced⟩ := FileTree.write_replaced written
    have here : place = site := by
      by_contra apart
      exact changed (FileTree.file?_congr (replaced.others place apart))
    subst here
    refine ⟨rfl, .inl ⟨_, source, _, rfl, read, translated, ?_, ?_⟩⟩
    · exact FileTree.site_name (by decide) found
    · rw [FileTree.file?, (FileTree.find_cases replaced.found).2]
  | initialised absent saved =>
    obtain ⟨site, found, others⟩ := Settings.save_replaced saved
    have here : place = site := by
      by_contra apart
      exact changed (others place apart)
    exact ⟨rfl, .inr ⟨rfl, absent, here ▸ found⟩⟩

theorem Leaves.output {file : Option Path} (leaves : Leaves environment tree (.compile file) 0 after) :
    ∃ path source program, file = some path ∧ tree.text path = .ok source ∧
      ScriptToCpp.compile source = .ok program ∧
      after.find Cpp.Output.defaultPath = .ok (tree.outputPlace, .file program.toUTF8) := by
  cases leaves with
  | compiled translated written =>
    obtain ⟨source, read, translated⟩ := FileTree.compiled_ok translated
    obtain ⟨site, found, replaced⟩ := FileTree.write_replaced written
    cases FileTree.site_name (by decide) found
    exact ⟨_, source, _, rfl, read, translated, replaced.found⟩

theorem Leaves.initial (leaves : Leaves environment tree .initSettings 0 after)
    (absent : tree.isPresent (Settings.path environment) = false) :
    after.text (Settings.path environment) = .ok (Settings.default environment).render := by
  cases leaves with
  | kept present =>
    rw [present] at absent
    contradiction
  | initialised _ saved => exact Settings.text_of_save saved

theorem Leaves.present (leaves : Leaves environment tree .initSettings 0 after) :
    after.isPresent (Settings.path environment) = true := by
  cases leaves with
  | kept present => exact present
  | initialised _ saved =>
    obtain ⟨_, found, _⟩ := Settings.save_replaced saved
    rw [FileTree.isPresent, found]
    rfl

theorem Leaves.unchanged (leaves : Leaves environment tree .initSettings code after)
    (present : tree.isPresent (Settings.path environment) = true) : code = 0 ∧ after = tree := by
  cases leaves with
  | failed other => contradiction
  | kept => exact ⟨rfl, rfl⟩
  | initialised absent | prepared absent =>
    rw [present] at absent
    contradiction

end Command

theorem runArguments_leaves {arguments : List Request.Argument} {request : Request}
    (accepted : Request.ofArguments arguments = .ok request) (environment : Environment)
    (tree : FileTree) :
    let (outcome, after) := runArguments (m := StateM FileTree) arguments environment tree
    request.command.Leaves environment tree outcome.code after := by
  obtain ⟨settings, ran⟩ := runArguments_run accepted environment tree
  rw [ran]
  exact request.command.run_leaves environment tree settings

/-- The settings are not kept where the output goes, wherever that is. -/
theorem Settings.find_ne_outputPlace (tree after : FileTree) (environment : Environment)
    (entry : FileEntry) :
    after.find (Settings.path environment) ≠ .ok (tree.outputPlace, entry) := by
  intro found
  obtain ⟨_, kept⟩ := Settings.find_last found
  have same := List.append_inj_right' kept rfl
  revert same
  decide

/-- What a command line does to the files. A file that differs afterwards is the output of a
compilation that succeeded, and holds the translation of the script; or it is the settings file,
found missing by the command that writes it, and holds the default settings. Neither is ever in the
other's place. A compilation that succeeds leaves the translation of its script at the output; once
the settings are initialised, initialising them again changes nothing at all; and a run that fails
changes no file. -/
theorem command_line_footprint {arguments : List Request.Argument} {request : Request}
    (accepted : Request.ofArguments arguments = .ok request) (environment : Environment)
    (tree : FileTree) :
    let (outcome, after) := runArguments (m := StateM FileTree) arguments environment tree
    (∀ place, after.file? place ≠ tree.file? place → outcome.code = 0 ∧
      ((∃ file source program, request.command = .compile (some file) ∧
          tree.text file = .ok source ∧ compile source = .ok program ∧
          place = tree.outputPlace ∧ after.file? place = some program.toUTF8) ∨
        (request.command = .initSettings ∧
          tree.isPresent (Settings.path environment) = false ∧
          after.find (Settings.path environment) =
            .ok (place, .file (Settings.default environment).render.toUTF8)))) ∧
    (∀ entry, tree.find (Settings.path environment) ≠ .ok (tree.outputPlace, entry) ∧
      after.find (Settings.path environment) ≠ .ok (tree.outputPlace, entry)) ∧
    (∀ file, request.command = .compile file → outcome.code = 0 →
      ∃ path source program, file = some path ∧ tree.text path = .ok source ∧
        compile source = .ok program ∧
        after.find Cpp.Output.defaultPath = .ok (tree.outputPlace, .file program.toUTF8)) ∧
    (request.command = .initSettings → outcome.code = 0 →
      (tree.isPresent (Settings.path environment) = false →
        after.text (Settings.path environment) = .ok (Settings.default environment).render) ∧
      ∀ again verbose, Request.ofArguments again = .ok ⟨verbose, .initSettings⟩ →
        let (outcome, last) := runArguments (m := StateM FileTree) again environment after
        outcome.code = 0 ∧ last = after) ∧
    (outcome.code ≠ 0 → ∀ place, after.file? place = tree.file? place) := by
  have leaves := runArguments_leaves accepted environment tree
  generalize runArguments (m := StateM FileTree) arguments environment tree = ran at leaves ⊢
  obtain ⟨outcome, after⟩ := ran
  dsimp only at leaves ⊢
  refine ⟨fun place changed => leaves.changed changed, fun entry =>
    ⟨Settings.find_ne_outputPlace tree tree environment entry,
      Settings.find_ne_outputPlace tree after environment entry⟩, ?_, ?_, ?_⟩
  · intro file compiles succeeded
    rw [compiles, succeeded] at leaves
    exact leaves.output
  · intro initialises succeeded
    rw [initialises, succeeded] at leaves
    refine ⟨fun absent => leaves.initial absent, fun again verbose repeated => ?_⟩
    exact (runArguments_leaves repeated environment after).unchanged leaves.present
  · intro failed place
    by_contra changed
    exact failed (leaves.changed changed).1

/-- Settings that are initialised twice, and then a script that stands where its output goes. -/
theorem settings_then_output :
    let script := Request.bytesOf "output.cpp"
    let again := [Request.bytesOf "config", Request.bytesOf "init"]
    let empty := FileTree.ofWorkingDirectory []
    let tree := empty.insert [script] (.file "print 1".toUTF8)
    let first := runArguments (m := StateM FileTree) again {} empty
    let second := runArguments (m := StateM FileTree) again {} first.2
    let compilation := runArguments (m := StateM FileTree) [script] {} tree
    (first.1.code = 0 ∧
      first.2.text (Settings.path {}) = .ok (Settings.default {}).render ∧
      second.1.code = 0 ∧ second.2 = first.2) ∧
    (compilation.1.code = 0 ∧ ∃ source program, tree.text ⟨script⟩ = .ok source ∧
      compile source = .ok program ∧
      compilation.2.find Cpp.Output.defaultPath = .ok ([script], .file program.toUTF8)) := by
  intro script again empty tree first second compilation
  have accepted : Request.ofArguments again = .ok ⟨false, .initSettings⟩ := rfl
  have accepted' : Request.ofArguments [script] = .ok ⟨false, .compile (some ⟨script⟩)⟩ := rfl
  have initialised : (runArguments (m := StateM FileTree)
      [Request.bytesOf "config", Request.bytesOf "init"] {}
      (FileTree.ofWorkingDirectory [])).1.code = 0 := by cbv
  have compiled : (runArguments (m := StateM FileTree) [Request.bytesOf "output.cpp"] {}
      ((FileTree.ofWorkingDirectory []).insert [Request.bytesOf "output.cpp"]
        (.file "print 1".toUTF8))).1.code = 0 := by cbv
  constructor
  · obtain ⟨_, _, _, initial, _⟩ := command_line_footprint accepted {} empty
    obtain ⟨stored, repeated⟩ := initial rfl initialised
    exact ⟨initialised, stored rfl, repeated again false accepted⟩
  · obtain ⟨_, _, output, _⟩ := command_line_footprint accepted' {} tree
    obtain ⟨path, source, program, same, read, translated, found⟩ := output _ rfl compiled
    cases same
    exact ⟨compiled, source, program, read, translated, found⟩

end ScriptToCpp
