import ScriptToCpp.Files.Tree
import ScriptToCpp.Proofs.Paths

/-! Writing into a file tree. A write changes one place and no other, and the path that was written
to leads there: what passes along a path stays on directories, and a write never removes one. -/
namespace ScriptToCpp

namespace FileTree
variable {tree after : FileTree} {path : Path} {place target : Place} {entry : FileEntry}
  {content : ByteArray}

theorem entry?_insert (inner : place ≠ []) (other : Place) :
    entry? (tree.insert place entry) other =
      if other = place then some entry else tree.entry? other := by
  unfold entry? insert
  by_cases root : other = []
  · subst root
    rw [if_pos rfl, if_neg (Ne.symm inner), if_pos rfl]
  · simp only [if_neg root]

/-- The last segment starts in a directory. -/
theorem walk_concat (tree : FileTree) (place : Place) (way : List FileName) (name : FileName) :
    tree.walk place (way ++ [name]) = .ok target ↔
      ∃ above, tree.walk place way = .ok above ∧ tree.entry? above = some .directory ∧
        follow above name = target := by
  induction way generalizing place with
  | nil =>
    simp only [List.nil_append, walk]
    constructor
    · intro led
      split at led
      next => contradiction
      next => contradiction
      next here => exact ⟨place, rfl, here, Except.ok.inj led⟩
    · rintro ⟨above, start, here, rfl⟩
      cases start
      rw [here]
  | cons segment rest ih =>
    simp only [List.cons_append, walk]
    split
    · simp
    · simp
    · exact ih _

/-- A way that leads to a directory leads on to what it holds. -/
theorem walk_last {way : List FileName} {directory : Place}
    (led : tree.walk place (way ++ [[]]) = .ok directory) (name : FileName) :
    tree.walk place (way ++ [name]) = .ok (follow directory name) := by
  obtain ⟨above, reached, here, rfl⟩ := (tree.walk_concat place way []).mp led
  exact (tree.walk_concat place way name).mpr ⟨above, reached, here, rfl⟩

/-- A way along directories is not changed where there was none of them. -/
theorem walk_insert {start : Place} {segments : List FileName} (inner : place ≠ [])
    (fresh : tree.entry? place ≠ some .directory) (led : tree.walk start segments = .ok target) :
    (tree.insert place entry).walk start segments = .ok target := by
  induction segments generalizing start with
  | nil => exact led
  | cons segment rest ih =>
    unfold walk at led ⊢
    split at led
    next => contradiction
    next => contradiction
    next here =>
      have apart : start ≠ place := by
        rintro rfl
        exact fresh here
      rw [entry?_insert inner, if_neg apart, here]
      exact ih led

theorem checkPath_ok (checked : checkPath path = .ok ()) : path.bytes ≠ [] := by
  intro none
  unfold checkPath at checked
  split at checked
  · contradiction
  · contradiction

theorem checkPath_of_find (found : tree.find path = .ok (place, entry)) :
    checkPath path = .ok () := by
  cases checked : checkPath path with
  | ok _ => rfl
  | error fault =>
    rw [find, checked] at found
    contradiction

/-- A path finds what stands where its segments lead. -/
theorem find_checked (tree : FileTree) (checked : checkPath path = .ok ()) :
    tree.find path = (tree.walk (tree.origin path) path.segments).bind fun place =>
      match tree.entry? place with
      | some entry => .ok (place, entry)
      | none => .error .missing := by
  unfold find
  rw [checked]
  rfl

theorem find_of_walk (checked : checkPath path = .ok ())
    (walked : tree.walk (tree.origin path) path.segments = .ok place) :
    tree.find path = match tree.entry? place with
      | some entry => .ok (place, entry)
      | none => .error .missing := by
  rw [tree.find_checked checked, walked]
  rfl

theorem find_cases (found : tree.find path = .ok (place, entry)) :
    tree.walk (tree.origin path) path.segments = .ok place ∧ tree.entry? place = some entry := by
  rw [find_checked _ (checkPath_of_find found)] at found
  cases led : tree.walk (tree.origin path) path.segments with
  | error fault =>
    rw [led] at found
    contradiction
  | ok reached =>
    simp only [led, Except.bind] at found
    split at found
    next here =>
      cases found
      exact ⟨rfl, here⟩
    next => contradiction

theorem find_dot (here : tree.entry? tree.workingDirectory = some .directory) :
    tree.find (.ofString ".") = .ok (tree.workingDirectory, .directory) := by
  have walked : tree.walk tree.workingDirectory [Path.dot] = .ok tree.workingDirectory := by
    rw [walk, here]
    rfl
  rw [find_of_walk rfl walked, here]

/-- What is found at a path lies under the last name on the path. -/
theorem find_last {way : List FileName} {name : FileName}
    (found : tree.find path = .ok (place, entry)) (segments : path.segments = way ++ [name])
    (proper : name ≠ [] ∧ name ≠ Path.dot ∧ name ≠ Path.dotDot) :
    ∃ directory, place = directory ++ [name] := by
  have walked := (find_cases found).1
  rw [segments, walk_concat] at walked
  obtain ⟨directory, _, _, rfl⟩ := walked
  exact ⟨directory, by simp [follow, proper]⟩

/-- Where a path that names an entry puts it: into a directory, under that name. -/
theorem site_named (found : tree.site path = .ok (some place))
    (named : endsInSlash path = false) :
    ∃ way name directory, checkPath path = .ok () ∧ path.segments = way ++ [name] ∧
      tree.walk (tree.origin path) (way ++ [[]]) = .ok directory ∧
      follow directory name = place ∧ place = directory ++ [name] := by
  unfold site at found
  cases checked : checkPath path with
  | error fault =>
    rw [checked] at found
    contradiction
  | ok _ =>
    have notSlash : path.bytes.getLast? ≠ some Path.slash := by simpa [endsInSlash] using named
    obtain ⟨way, name, segments, full⟩ := Path.segments_last (checkPath_ok checked) notSlash
    have last : lastSegment path = (way, some name) := by
      unfold lastSegment
      rw [segments, List.reverse_append, List.reverse_singleton, List.singleton_append,
        List.dropWhile_cons, if_neg (by simpa using full)]
      simp
    rw [checked, last] at found
    cases led : tree.walk (tree.origin path) (way ++ [[]]) with
    | error fault =>
      simp only [bind, Except.bind, led] at found
      contradiction
    | ok directory =>
      simp only [bind, Except.bind, pure, Except.pure, led] at found
      split at found
      next => simp at found
      next plain =>
        cases found
        rw [Bool.or_eq_true, decide_eq_true_eq, decide_eq_true_eq, not_or] at plain
        refine ⟨way, name, directory, rfl, segments, led, ?_, rfl⟩
        simp [follow, full, plain.1, plain.2]

/-- A path that has a place for an entry is written to, unless a directory stands there. -/
theorem write_of_site (found : tree.site path = .ok (some place))
    (named : endsInSlash path = false) (content : ByteArray) :
    tree.write path content = match tree.entry? place with
      | some .directory => .error .isDirectory
      | _ => .ok (tree.insert place (.file content)) := by
  unfold write
  rw [found]
  simp only [bind, Except.bind, named]
  rfl

/-- A write goes to the place that the path gives, where no directory stands. -/
theorem write_cases (written : tree.write path content = .ok after) :
    ∃ place, tree.site path = .ok (some place) ∧ endsInSlash path = false ∧
      tree.entry? place ≠ some .directory ∧ after = tree.insert place (.file content) := by
  have opened := written
  unfold write at opened
  cases found : tree.site path with
  | error fault =>
    rw [found] at opened
    contradiction
  | ok site =>
    rw [found] at opened
    cases site with
    | none => contradiction
    | some place =>
      cases named : endsInSlash path with
      | true =>
        simp only [bind, Except.bind, named] at opened
        contradiction
      | false =>
        rw [write_of_site found named] at written
        split at written
        next => contradiction
        next fresh =>
          cases written
          exact ⟨place, rfl, rfl, fresh, rfl⟩

/-- The file at `place` holds the content, the path leads there, and everything else is as it was
in the tree. -/
structure Replaced (tree after : FileTree) (path : Path) (place : Place) (content : ByteArray) :
    Prop where
  found : after.find path = .ok (place, .file content)
  others : ∀ other, other ≠ place → after.entry? other = tree.entry? other
  workingDirectory : after.workingDirectory = tree.workingDirectory

/-- A write replaces what stands at the place that the path gives. -/
theorem write_replaced (written : tree.write path content = .ok after) :
    ∃ place, tree.site path = .ok (some place) ∧ tree.Replaced after path place content := by
  obtain ⟨place, found, named, fresh, rfl⟩ := write_cases written
  obtain ⟨way, name, directory, checked, segments, led, followed, site⟩ := site_named found named
  have inner : place ≠ [] := by simp [site]
  refine ⟨place, found, ?_, fun other apart => by rw [entry?_insert inner, if_neg apart], rfl⟩
  have kept : (tree.insert place (.file content)).walk (tree.origin path) (way ++ [[]]) =
      .ok directory := walk_insert inner fresh led
  have walked := walk_last kept name
  rw [← segments, followed] at walked
  rw [find_of_walk checked walked, entry?_insert inner, if_pos rfl]

theorem read_of_find (found : tree.find path = .ok (place, .file content)) :
    tree.read path = .ok content := by
  rw [read, found]
  rfl

theorem find_of_read (read : tree.read path = .ok content) :
    ∃ place, tree.find path = .ok (place, .file content) := by
  unfold FileTree.read at read
  cases found : tree.find path with
  | error fault =>
    rw [found] at read
    contradiction
  | ok target =>
    rw [found] at read
    obtain ⟨place, _ | _⟩ := target
    · cases read
      exact ⟨place, rfl⟩
    · contradiction

/-- What stands at a path, wherever that is. -/
def look (tree : FileTree) (path : Path) : Except FileError FileEntry :=
  (tree.find path).map Prod.snd

theorem read_look (tree : FileTree) (path : Path) :
    tree.read path = (tree.look path).bind fun entry =>
      match entry with
      | .file content => .ok content
      | .directory => .error .isDirectory := by
  unfold read look
  cases tree.find path with
  | error fault => rfl
  | ok found =>
    obtain ⟨place, entry⟩ := found
    cases entry <;> rfl

/-- Whether a path can stand for a new entry, in a directory that exists. -/
def room (tree : FileTree) (path : Path) : Except FileError Bool :=
  (tree.site path).map Option.isSome

theorem look_of_site (found : tree.site path = .ok (some place))
    (named : endsInSlash path = false) :
    tree.look path = match tree.entry? place with
      | some entry => .ok entry
      | none => .error .missing := by
  obtain ⟨way, name, directory, checked, segments, led, followed, _⟩ := site_named found named
  have walked := walk_last led name
  rw [← segments, followed] at walked
  rw [look, find_of_walk checked walked]
  cases tree.entry? place <;> rfl

theorem look_of_write (written : tree.write path content = .ok after) :
    after.look path = .ok (.file content) := by
  obtain ⟨_, _, replaced⟩ := write_replaced written
  rw [look, replaced.found]
  rfl

/-- Whether a write succeeds, and what it leaves at its path, is settled by what is there before and
by the room for it. -/
theorem write_look (tree : FileTree) (path : Path) (content : ByteArray) :
    (tree.write path content).map (fun after => after.look path) =
      match tree.room path with
      | .error fault => .error fault
      | .ok false => .error .isDirectory
      | .ok true =>
        if endsInSlash path then .error .isDirectory
        else match tree.look path with
          | .ok .directory => .error .isDirectory
          | _ => .ok (.ok (.file content)) := by
  -- The write fails on both sides until the path names a place where no directory stands.
  cases site : tree.site path with
  | error fault =>
    rw [write, room, site]
    rfl
  | ok found =>
    cases found with
    | none =>
      rw [write, room, site]
      rfl
    | some place =>
      cases named : endsInSlash path with
      | true =>
        rw [write, room, site]
        simp only [bind, Except.bind, named]
        rfl
      | false =>
        have wrote := write_of_site site named content
        rw [room, site, look_of_site site named]
        cases here : tree.entry? place with
        | none =>
          rw [here] at wrote
          rw [wrote]
          exact congrArg Except.ok (look_of_write wrote)
        | some entry =>
          rw [here] at wrote
          cases entry with
          | file old =>
            rw [wrote]
            exact congrArg Except.ok (look_of_write wrote)
          | directory =>
            rw [wrote]
            rfl

/-- The trees have the same at a path, or the same room for it. -/
structure SameAt (tree other : FileTree) (path : Path) : Prop where
  look : tree.look path = other.look path
  room : tree.room path = other.room path

theorem SameAt.read {other : FileTree} (same : tree.SameAt other path) :
    tree.read path = other.read path := by
  rw [read_look, read_look, same.look]

theorem SameAt.write {other : FileTree} (same : tree.SameAt other path) (content : ByteArray) :
    (tree.write path content).map (fun after => after.look path) =
      (other.write path content).map (fun after => after.look path) := by
  rw [write_look, write_look, same.look, same.room]

theorem held_inner {old : ByteArray} (held : tree.entry? place = some (.file old)) :
    place ≠ [] := by
  rintro rfl
  cases held

/-- No way leads through a file, whatever it holds. -/
theorem walk_refill {old : ByteArray} (held : tree.entry? place = some (.file old))
    (content : ByteArray) (start : Place) (segments : List FileName) :
    (tree.insert place (.file content)).walk start segments = tree.walk start segments := by
  induction segments generalizing start with
  | nil => rfl
  | cons segment rest ih =>
    unfold walk
    rw [entry?_insert (held_inner held)]
    by_cases here : start = place
    · rw [if_pos here, here, held]
    · rw [if_neg here, ih]

theorem find_refill {old : ByteArray} (held : tree.entry? place = some (.file old))
    (apart : ∀ entry, tree.find path ≠ .ok (place, entry)) :
    (tree.insert place (.file content)).find path = tree.find path := by
  cases checked : checkPath path with
  | error fault =>
    rw [find, find, checked]
    rfl
  | ok _ =>
    have led : (tree.insert place (.file content)).walk
        ((tree.insert place (.file content)).origin path) path.segments =
        tree.walk (tree.origin path) path.segments := walk_refill held content _ _
    cases walked : tree.walk (tree.origin path) path.segments with
    | error fault =>
      rw [find_checked _ checked, find_checked _ checked, led, walked]
      rfl
    | ok reached =>
      have found := find_of_walk checked walked
      rw [find_of_walk checked (led.trans walked), found, entry?_insert (held_inner held)]
      by_cases here : reached = place
      · rw [here, held] at found
        exact absurd found (apart _)
      · rw [if_neg here]

/-- Another content in a file changes nothing at the paths that do not lead to it. -/
theorem sameAt_refill {old : ByteArray} (held : tree.entry? place = some (.file old))
    (apart : ∀ entry, tree.find path ≠ .ok (place, entry)) :
    tree.SameAt (tree.insert place (.file content)) path := by
  constructor
  · rw [look, look, find_refill held apart]
  · unfold room site
    simp only [walk_refill held]
    rfl

/-- What a path holds as text. -/
def text (tree : FileTree) (path : Path) : Except FileError String := do
  match String.fromUTF8? (← tree.read path) with
  | some text => return text
  | none => throw .notText

theorem fromUTF8_iff {content : ByteArray} {text : String} :
    String.fromUTF8? content = some text ↔ content = text.toUTF8 := by
  unfold String.fromUTF8?
  constructor
  · intro decoded
    split at decoded
    · cases decoded
      rfl
    · contradiction
  · rintro rfl
    rw [String.toUTF8_eq_toByteArray, dif_pos text.isValidUTF8]
    rfl

theorem text_ok_iff {text : String} :
    tree.text path = .ok text ↔ tree.read path = .ok text.toUTF8 := by
  unfold FileTree.text
  cases tree.read path with
  | error fault => exact ⟨nofun, nofun⟩
  | ok content =>
    simp only [bind, Except.bind, Except.ok.injEq]
    rw [← fromUTF8_iff]
    cases String.fromUTF8? content with
    | none => exact ⟨nofun, nofun⟩
    | some decoded =>
      simp [pure, Except.pure]

theorem text_toOption (tree : FileTree) (path : Path) :
    (tree.text path).toOption = (tree.read path).toOption.bind String.fromUTF8? := by
  unfold text
  cases tree.read path with
  | error fault => rfl
  | ok content =>
    simp only [bind, Except.bind, Except.toOption, Option.bind_some]
    cases String.fromUTF8? content <;> rfl

theorem readText_run (tree : FileTree) (path : Path) :
    FileAccess.readText (m := StateM FileTree) path tree = (tree.text path, tree) := by
  simp only [FileAccess.readText, text, bind, StateT.bind, FileAccess.read, Except.bind]
  cases tree.read path with
  | error fault => rfl
  | ok content =>
    dsimp only
    cases String.fromUTF8? content <;> rfl

end FileTree
end ScriptToCpp
