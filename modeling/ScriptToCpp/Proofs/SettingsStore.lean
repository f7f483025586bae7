import ScriptToCpp.Proofs.Directories
import ScriptToCpp.Proofs.JsonRoundTrip
import ScriptToCpp.Settings.Store
import Mathlib

/-! Settings that were saved are loaded again, whatever their environment is called, and those of the
other environments stay as they were. The first holds because settings are read back from their text,
the second because each environment has a file of its own, to which no other path leads. -/
namespace ScriptToCpp

namespace Settings

theorem toJson_readable (settings : Settings) : settings.toJson.Readable := by
  apply Json.Readable.object
  · intro member within
    simp only [List.mem_cons, List.not_mem_nil, or_false] at within
    rcases within with rfl | rfl | rfl <;> exact ⟨_, rfl⟩
  · intro member within
    simp only [List.mem_cons, List.not_mem_nil, or_false] at within
    rcases within with rfl | rfl | rfl
    · exact .string _
    · exact .bool _
    · exact .bool _

theorem ofJson?_toJson (settings : Settings) : ofJson? settings.toJson = some settings := by
  simp [ofJson?, toJson, ofMembers?, valuesOf, Json.textOf?_pieces, Json.text?, Json.ofString,
    Json.bool?, flag?]

/-- Settings are read back from their text. -/
theorem parse?_render (settings : Settings) : parse? settings.render = some settings := by
  rw [parse?, render, Json.parse?_render settings.toJson_readable]
  exact settings.ofJson?_toJson

variable {settings : Settings} {environment other : Environment} {tree middle after : FileTree}
  {place directory : Place}

/-- Settings are loaded from what the file holds as text, if anything. -/
theorem load_eq (environment : Environment) (tree : FileTree) :
    load (m := StateM FileTree) environment tree =
      (ofStored environment (tree.text (path environment)).toOption, tree) := by
  unfold load
  simp only [bind, StateT.bind, FileTree.readText_run]
  cases tree.text (path environment) <;> rfl

theorem ofStored_render (settings : Settings) (environment : Environment) :
    ofStored environment (some settings.render) =
      { settings with verbose := environment.verbose?.getD settings.verbose } := by
  rw [ofStored, Option.bind_some, parse?_render]
  rfl

/-- The tree with the directory that the settings go into, as far as it can be made. -/
def prepared (environment : Environment) (tree : FileTree) : FileTree :=
  (FileAccess.makeDirectories (m := StateM FileTree) ((path environment).parent?.getD ⟨[]⟩) tree).2

theorem prepared_extends (environment : Environment) (tree : FileTree) :
    tree.Extends (prepared environment tree) :=
  tree.makeDirectories_extends _

theorem prepared_grounded (grounded : tree.Grounded) : (prepared environment tree).Grounded := by
  have run : FileTree.Preserves FileTree.Grounded
      (FileAccess.makeDirectories ((path environment).parent?.getD ⟨[]⟩)) :=
    .makeDirectories _ fun _ held made => held.makeDirectory made
  exact run tree grounded

/-- Settings are written once their directory is there. -/
theorem save_of_write
    (made : FileAccess.makeDirectories (m := StateM FileTree)
      ((path environment).parent?.getD ⟨[]⟩) tree = (.ok (), middle))
    (written : middle.write (path environment) settings.render.toUTF8 = .ok after) :
    settings.save (m := StateM FileTree) environment tree = (.ok (), after) := by
  unfold save
  simp only [bind, StateT.bind, made, FileAccess.writeText, FileAccess.write, FileTree.attempt,
    written]

/-- Short of a directory and of room in it, settings are not saved. -/
theorem save_cases (settings : Settings) (environment : Environment) (tree : FileTree) :
    (∃ fault, settings.save (m := StateM FileTree) environment tree =
      (.error fault, prepared environment tree)) ∨
    ∃ after, settings.save (m := StateM FileTree) environment tree = (.ok (), after) ∧
      (prepared environment tree).write (path environment) settings.render.toUTF8 = .ok after := by
  rcases made : FileAccess.makeDirectories (m := StateM FileTree)
    ((path environment).parent?.getD ⟨[]⟩) tree with ⟨result, middle⟩
  have same : prepared environment tree = middle := congrArg Prod.snd made
  rw [same]
  cases result with
  | error fault =>
    unfold save
    simp only [bind, StateT.bind, made]
    exact .inl ⟨fault, rfl⟩
  | ok _ =>
    cases written : middle.write (path environment) settings.render.toUTF8 with
    | error fault =>
      unfold save
      simp only [bind, StateT.bind, made, FileAccess.writeText, FileAccess.write,
        FileTree.attempt, written]
      exact .inl ⟨fault, rfl⟩
    | ok after => exact .inr ⟨after, save_of_write made written, rfl⟩

theorem write_of_save
    (saved : settings.save (m := StateM FileTree) environment tree = (.ok (), after)) :
    (prepared environment tree).write (path environment) settings.render.toUTF8 = .ok after := by
  rcases save_cases settings environment tree with ⟨fault, failed⟩ | ⟨final, wrote, written⟩
  · rw [failed] at saved
    cases saved
  · rw [wrote] at saved
    cases saved
    exact written

/-- The path then leads to the settings, and every other file is as it was. -/
theorem save_replaced
    (saved : settings.save (m := StateM FileTree) environment tree = (.ok (), after)) :
    ∃ place, after.find (path environment) = .ok (place, .file settings.render.toUTF8) ∧
      ∀ other, other ≠ place → after.file? other = tree.file? other := by
  obtain ⟨place, _, replaced⟩ := FileTree.write_replaced (write_of_save saved)
  refine ⟨place, replaced.found, fun other apart => ?_⟩
  calc after.file? other
      = (prepared environment tree).file? other := FileTree.file?_congr (replaced.others other apart)
    _ = tree.file? other := (prepared_extends environment tree).file? other

theorem text_of_save
    (saved : settings.save (m := StateM FileTree) environment tree = (.ok (), after)) :
    after.text (path environment) = .ok settings.render := by
  obtain ⟨_, found, _⟩ := save_replaced saved
  exact FileTree.text_ok_iff.mpr (FileTree.read_of_find found)

/-- What was saved is loaded. -/
theorem load_of_save
    (saved : settings.save (m := StateM FileTree) environment tree = (.ok (), after)) :
    load (m := StateM FileTree) environment after =
      ({ settings with verbose := environment.verbose?.getD settings.verbose }, after) := by
  rw [load_eq, text_of_save saved]
  exact congrArg (·, after) (ofStored_render settings environment)

/-- The names that lead from the home directory to the settings file. -/
def names (environment : Environment) : List FileName :=
  [(Path.ofString ".lwc").bytes, (Path.ofString environment.profileName).bytes,
    (Path.ofString "config.json").bytes]

/-- The profile has a directory of its own within that of all settings. -/
def OwnDirectory (environment : Environment) : Prop :=
  FileTree.Ordinary (Path.ofString environment.profileName).bytes

instance (environment : Environment) : Decidable (OwnDirectory environment) :=
  inferInstanceAs (Decidable (FileTree.Ordinary _))

/-- The home directory is there, at `place`. -/
def HomeAt (environment : Environment) (tree : FileTree) (place : Place) : Prop :=
  tree.find (.ofString environment.homePath) = .ok (place, .directory)

theorem names_ordinary (own : OwnDirectory environment) :
    ∀ name ∈ names environment, FileTree.Ordinary name := by
  intro name member
  simp only [names, List.mem_cons, List.not_mem_nil, or_false] at member
  rcases member with rfl | rfl | rfl
  · decide
  · exact own
  · decide

theorem home_full (home : HomeAt environment tree place) :
    (Path.ofString environment.homePath).bytes ≠ [] :=
  FileTree.checkPath_ok (FileTree.checkPath_of_find home)

theorem isAbsolute_path (full : (Path.ofString environment.homePath).bytes ≠ [])
    (own : OwnDirectory environment) :
    (path environment).isAbsolute = (Path.ofString environment.homePath).isAbsolute := by
  have hidden : ((Path.ofString environment.homePath).join (.ofString ".lwc")).bytes ≠ [] :=
    Path.join_full full (by decide)
  rw [path, Path.isAbsolute_join (Path.join_full hidden own.2.1) (by decide),
    Path.isAbsolute_join hidden own.2.1, Path.isAbsolute_join full (by decide)]

/-- The settings file is sought from the home directory on. -/
theorem walk_path (home : HomeAt environment tree place) (own : OwnDirectory environment) :
    tree.walk (tree.origin (path environment)) (path environment).segments =
      tree.walk place (names environment) := by
  have full := home_full home
  have plain : Path.slash ∉ (Path.ofString ".lwc").bytes := by decide
  obtain ⟨way, ends, joined⟩ := Path.segments_join_cases full plain
  -- The home directory is at the end of the way, with or without a separator behind it.
  have led : tree.walk (tree.origin (.ofString environment.homePath)) way = .ok place := by
    have walked := (FileTree.find_cases home).1
    rcases ends with same | same
    · rwa [same] at walked
    · rw [same, FileTree.walk_concat] at walked
      obtain ⟨above, reached, _, rfl⟩ := walked
      exact reached
  have segments : (path environment).segments = way ++ names environment := by
    have inner := Path.segments_join_name joined (by decide) own.2.1
    rw [List.append_cons] at inner
    rw [path, Path.segments_join_name inner own.1 (by decide), List.append_assoc]
    rfl
  have origin : tree.origin (path environment) =
      tree.origin (.ofString environment.homePath) := by
    rw [FileTree.origin, FileTree.origin, isAbsolute_path full own]
  rw [origin, segments, FileTree.walk_append, led]
  rfl

/-- Saving keeps every directory. -/
theorem save_keeps_directories
    (saved : settings.save (m := StateM FileTree) environment tree = (.ok (), after))
    (place : Place) (here : tree.entry? place = some .directory) :
    after.entry? place = some .directory := by
  obtain ⟨site, _, _, fresh, rfl⟩ := FileTree.write_cases (write_of_save saved)
  have kept := (prepared_extends environment tree).kept here
  have inner : site ≠ [] := by
    rintro rfl
    exact fresh rfl
  have apart : place ≠ site := by
    rintro rfl
    exact fresh kept
  rw [FileTree.entry?_insert inner, if_neg apart]
  exact kept

/-- Settings are saved to the file that is named for them in the home directory. -/
theorem file?_of_save
    (saved : settings.save (m := StateM FileTree) environment tree = (.ok (), after))
    (home : HomeAt environment after place) (own : OwnDirectory environment) {target : Place}
    (apart : target ≠ place ++ names environment) : after.file? target = tree.file? target := by
  obtain ⟨site, found, others⟩ := save_replaced saved
  have walked := (FileTree.find_cases found).1
  rw [walk_path home own] at walked
  have named := FileTree.walk_ordinary (names_ordinary own) walked
  exact others target (named ▸ apart)

theorem homeAt_of_save
    (saved : settings.save (m := StateM FileTree) environment tree = (.ok (), after))
    (home : HomeAt environment tree place) : HomeAt environment after place := by
  obtain ⟨_, _, replaced⟩ := FileTree.write_replaced (write_of_save saved)
  exact FileTree.find_kept (save_keeps_directories saved)
    (replaced.workingDirectory.trans (prepared_extends environment tree).workingDirectory) home

theorem grounded_of_save (grounded : tree.Grounded)
    (saved : settings.save (m := StateM FileTree) environment tree = (.ok (), after)) :
    after.Grounded :=
  (prepared_grounded grounded).write (write_of_save saved)

/-- Where no home directory is known, settings are saved only if the working directory is there. -/
theorem workingDirectory_of_save (own : OwnDirectory environment)
    (unset : Environment.text? environment.home = none)
    (saved : settings.save (m := StateM FileTree) environment tree = (.ok (), after)) :
    tree.entry? tree.workingDirectory = some .directory := by
  have dot : environment.homePath = "." := by rw [Environment.homePath, unset]; rfl
  have relative : ¬ (path environment).isAbsolute = true := by
    rw [isAbsolute_path (by rw [dot]; decide) own, dot]
    decide
  have parent : ¬ ((path environment).parent?.getD ⟨[]⟩).isAbsolute = true := by
    cases above : (path environment).parent? with
    | none => decide
    | some above => exact Path.relative_prefix (Path.parent?_prefix above) relative
  obtain ⟨place, site, named, _⟩ := FileTree.write_cases (write_of_save saved)
  obtain ⟨way, _, _, _, _, led, _⟩ := FileTree.site_named site named
  have start := FileTree.walk_starts (by simp) led
  rw [FileTree.origin, if_neg relative, (prepared_extends environment tree).workingDirectory]
    at start
  exact FileTree.makeDirectories_workingDirectory parent rfl start

theorem home_of_save (own : OwnDirectory environment)
    (home : Environment.text? environment.home = none ∨
      tree.isDirectory (.ofString environment.homePath) = true)
    (saved : settings.save (m := StateM FileTree) environment tree = (.ok (), after)) :
    ∃ place, HomeAt environment tree place := by
  rcases home with unset | present
  · refine ⟨tree.workingDirectory, ?_⟩
    have here := workingDirectory_of_save own unset saved
    rw [HomeAt, Environment.homePath, unset]
    exact FileTree.find_dot here
  · unfold FileTree.isDirectory at present
    split at present
    next place found => exact ⟨place, found⟩
    next => contradiction

/-- What a profile's settings file holds, if it can be read, is what stands at its place. -/
theorem read_path (grounded : tree.Grounded) (home : HomeAt environment tree place)
    (own : OwnDirectory environment) :
    (tree.read (path environment)).toOption =
      if FileTree.checkPath (path environment) = .ok () then
        tree.file? (place ++ names environment) else none := by
  split
  next checked => exact grounded.read (names_ordinary own) checked (walk_path home own)
  next spoilt =>
    cases found : tree.read (path environment) with
    | error fault => rfl
    | ok content =>
      obtain ⟨_, found⟩ := FileTree.find_of_read found
      exact absurd (FileTree.checkPath_of_find found) spoilt

/-- Saving the settings of one profile leaves those of another as they are. -/
theorem load_of_save_other (grounded : tree.Grounded)
    (saved : settings.save (m := StateM FileTree) environment tree = (.ok (), after))
    (home : HomeAt environment tree place) (same : other.home = environment.home)
    (own : OwnDirectory environment) (own' : OwnDirectory other)
    (apart : other.profileName ≠ environment.profileName) :
    (load (m := StateM FileTree) other after).1 = (load (m := StateM FileTree) other tree).1 := by
  have there : HomeAt other tree place := by
    rw [HomeAt, Environment.homePath, same]
    exact home
  have there' : HomeAt other after place := by
    rw [HomeAt, Environment.homePath, same]
    exact homeAt_of_save saved home
  have elsewhere : place ++ names other ≠ place ++ names environment := by
    intro equal
    have equal := List.append_cancel_left equal
    simp only [names, List.cons.injEq, true_and, and_true] at equal
    exact apart (Path.ofString_injective (congrArg Path.mk equal))
  have kept := file?_of_save saved (homeAt_of_save saved home) own elsewhere
  rw [load_eq, load_eq, FileTree.text_toOption, FileTree.text_toOption,
    read_path (grounded_of_save grounded saved) there' own', read_path grounded there own', kept]

end Settings

/-- Settings are kept as in a store. They are read back from their text, whatever their environment
is called; what was saved is loaded, but for what the environment says about tracing; and the
settings of another profile, with the same home directory, load as before, if each of the two has a
directory of its own and the home directory is there or none is known. -/
theorem settings_store_laws :
    (∀ settings : Settings, Settings.parse? settings.render = some settings) ∧
    ∀ (settings : Settings) (environment : Environment) (tree after : FileTree),
      settings.save (m := StateM FileTree) environment tree = (.ok (), after) →
      Settings.load (m := StateM FileTree) environment after =
        ({ settings with verbose := environment.verbose?.getD settings.verbose }, after) ∧
      (tree.Grounded → after.Grounded ∧ ∀ other : Environment,
        other.profileName ≠ environment.profileName →
        Settings.OwnDirectory environment → Settings.OwnDirectory other →
        other.home = environment.home →
        (Environment.text? environment.home = none ∨
          tree.isDirectory (.ofString environment.homePath) = true) →
        (Settings.load (m := StateM FileTree) other after).1 =
          (Settings.load (m := StateM FileTree) other tree).1) := by
  refine ⟨Settings.parse?_render, fun settings environment tree after saved =>
    ⟨Settings.load_of_save saved, fun grounded => ?_⟩⟩
  refine ⟨Settings.grounded_of_save grounded saved, ?_⟩
  intro other apart own own' same home
  obtain ⟨place, there⟩ := Settings.home_of_save own home saved
  exact Settings.load_of_save_other grounded saved there same own own' apart

/-- A new profile beside the one that is always there, with settings whose name needs escapes. -/
theorem profile_beside_default :
    let directory : Place := [(Path.ofString ".lwc").bytes, (Path.ofString "default").bytes]
    let old : Settings := { envName := "default", banner := false }
    let start := FileTree.ofWorkingDirectory directory
    let tree := start.insert (directory ++ [(Path.ofString "config.json").bytes])
      (.file old.render.toUTF8)
    let settings : Settings := { envName := "\"\\\n\x00é", verbose := true }
    let environment : Environment :=
      { home := some "/".toUTF8, profile := some "é".toUTF8, verbose := some "no".toUTF8 }
    let other : Environment := { home := some "/".toUTF8 }
    ∃ after, settings.save (m := StateM FileTree) environment tree = (.ok (), after) ∧
      Settings.load (m := StateM FileTree) environment after =
        ({ settings with verbose := false }, after) ∧
      (Settings.load (m := StateM FileTree) other after).1 =
        (Settings.load (m := StateM FileTree) other tree).1 := by
  intro directory old start tree settings environment other
  let own : Place := [(Path.ofString ".lwc").bytes, (Path.ofString "é").bytes]
  let place := own ++ [(Path.ofString "config.json").bytes]
  let middle := tree.insert own .directory
  have grounded : tree.Grounded := by
    have free : start.entry? (directory ++ [(Path.ofString "config.json").bytes]) = none := rfl
    exact (FileTree.grounded_ofWorkingDirectory directory).insert rfl (by rw [free]; nofun) _
  have made : FileAccess.makeDirectories (m := StateM FileTree)
      ((Settings.path environment).parent?.getD ⟨[]⟩) tree = (.ok (), middle) := by
    have parent : (Settings.path environment).parent? = some (.ofString "/.lwc/é") := by decide
    have created : tree.makeDirectory (.ofString "/.lwc/é") = .ok middle := rfl
    rw [parent, Option.getD_some, FileAccess.makeDirectories, if_neg (by decide)]
    simp only [bind, StateT.bind, FileAccess.makeDirectory, FileTree.attempt, created]
    rfl
  have site : middle.site (Settings.path environment) = .ok (some place) := by decide +kernel
  have free : middle.entry? place = none := rfl
  have written := FileTree.write_of_site site (by decide) settings.render.toUTF8
  rw [free] at written
  have saved := Settings.save_of_write made written
  obtain ⟨loaded, others⟩ := settings_store_laws.2 settings environment tree _ saved
  refine ⟨_, saved, loaded, (others grounded).2 other ?_ ?_ ?_ rfl (.inr rfl)⟩
  · decide
  · decide
  · decide

end ScriptToCpp
