import ScriptToCpp.Proofs.FileTrees

/-! Making directories. A directory is made where nothing stands, so that a tree only grows: all that
was there stays, and all that is new is a directory. This holds however far the making of a whole
chain of directories gets. -/
namespace ScriptToCpp

namespace Path

theorem trimEnd_suffix (bytes : List UInt8) : trimEnd bytes <:+ bytes := by
  fun_induction trimEnd bytes with
  | case1 => exact List.suffix_rfl
  | case2 => exact List.suffix_rfl
  | case3 _ _ ih => exact ih.trans (List.suffix_cons _ _)
  | case4 _ _ _ _ _ ih => exact ih.trans (List.suffix_cons _ _)
  | case5 => exact List.suffix_rfl

/-- A path starts with the path to the directory above. -/
theorem parent?_prefix {path above : Path} (parent : path.parent? = some above) :
    above.bytes <+: path.bytes := by
  have whole := trimEnd_suffix path.bytes.reverse
  unfold parent? at parent
  split at parent
  next => contradiction
  next last bytes trimmed =>
    split at parent
    next => contradiction
    next =>
      cases parent
      rw [trimmed] at whole
      have inner : trimEnd (bytes.dropWhile (· != slash)) <:+ path.bytes.reverse :=
        (trimEnd_suffix _).trans
          ((List.dropWhile_suffix _).trans ((List.suffix_cons last bytes).trans whole))
      rwa [← List.reverse_prefix, List.reverse_reverse] at inner

end Path

namespace FileTree
variable {tree middle after : FileTree} {path : Path} {place : Place} {entry : FileEntry}

/-- Directories may have been added to the tree, and nothing else has changed. -/
structure Extends (tree after : FileTree) : Prop where
  kept : ∀ {place entry}, tree.entry? place = some entry → after.entry? place = some entry
  added : ∀ {place entry}, after.entry? place = some entry →
    tree.entry? place = some entry ∨ entry = .directory
  workingDirectory : after.workingDirectory = tree.workingDirectory

theorem Extends.refl (tree : FileTree) : tree.Extends tree :=
  ⟨id, .inl, rfl⟩

theorem Extends.trans (first : tree.Extends middle) (second : middle.Extends after) :
    tree.Extends after := by
  refine ⟨fun held => second.kept (first.kept held), fun held => ?_,
    second.workingDirectory.trans first.workingDirectory⟩
  rcases second.added held with earlier | directory
  · exact first.added earlier
  · exact .inr directory

/-- A directory is made where the path says and nothing stands. -/
theorem makeDirectory_cases (made : tree.makeDirectory path = .ok after) :
    ∃ place, tree.site path = .ok (some place) ∧ tree.entry? place = none ∧
      after = tree.insert place .directory := by
  unfold makeDirectory at made
  cases found : tree.site path with
  | error fault =>
    rw [found] at made
    contradiction
  | ok site =>
    rw [found] at made
    cases site with
    | none => contradiction
    | some place =>
      simp only [bind, Except.bind] at made
      split at made
      next => contradiction
      next free =>
        cases made
        exact ⟨place, rfl, free, rfl⟩

theorem makeDirectory_extends (made : tree.makeDirectory path = .ok after) :
    tree.Extends after := by
  obtain ⟨place, _, free, rfl⟩ := makeDirectory_cases made
  have inner : place ≠ [] := by
    rintro rfl
    contradiction
  refine ⟨fun {other _} held => ?_, fun {other _} held => ?_, rfl⟩
  · have apart : other ≠ place := by
      rintro rfl
      rw [free] at held
      contradiction
    rw [entry?_insert inner, if_neg apart]
    exact held
  · rw [entry?_insert inner] at held
    split at held
    next => exact .inr (Option.some.inj held).symm
    next => exact .inl held

/-- Where the condition holds of a tree, it holds of the tree that an operation leaves. -/
def Preserves {α : Type} (holds : FileTree → Prop) (operation : StateM FileTree α) : Prop :=
  ∀ tree, holds tree → holds (operation tree).2

namespace Preserves
variable {α β : Type} {holds : FileTree → Prop}

theorem pure (value : α) : Preserves holds (pure value : StateM FileTree α) :=
  fun _ held => held

theorem bind {first : StateM FileTree α} {next : α → StateM FileTree β}
    (before : Preserves holds first) (behind : ∀ value, Preserves holds (next value)) :
    Preserves holds (first >>= next) :=
  fun tree held => behind _ _ (before tree held)

theorem attempt {change : FileTree → Except FileError FileTree}
    (step : ∀ {tree after}, holds tree → change tree = .ok after → holds after) :
    Preserves holds (attempt change) := by
  intro tree held
  unfold FileTree.attempt
  cases changed : change tree with
  | ok after => exact step held changed
  | error fault => exact held

theorem unlessDirectory (path : Path) (fault : FileError) :
    Preserves holds (FileAccess.unlessDirectory path fault) := by
  have asked : Preserves holds (FileAccess.isDirectory (m := StateM FileTree) path) :=
    fun _ held => held
  apply asked.bind
  intro present
  split <;> exact .pure _

/-- What making a directory preserves is preserved by making all those on the way to it. -/
theorem makeDirectories (path : Path)
    (step : ∀ {tree after : FileTree} {above : Path}, above.bytes <+: path.bytes → holds tree →
      tree.makeDirectory above = .ok after → holds after) :
    Preserves holds (FileAccess.makeDirectories path) := by
  induction size : path.bytes.length using Nat.strongRecOn generalizing path with
  | ind _ ih =>
    have make : Preserves holds (FileAccess.makeDirectory (m := StateM FileTree) path) :=
      attempt (step List.prefix_rfl)
    rw [FileAccess.makeDirectories]
    split
    · exact .pure _
    apply make.bind
    intro result
    split
    · exact .pure _
    · split
      next => exact .pure _
      next above parent =>
        have onTheWay := Path.parent?_prefix parent
        have shorter := Path.parent?_length_lt parent
        have makeAbove := ih _ (size ▸ shorter) above
          (fun within => step (within.trans onTheWay)) rfl
        apply makeAbove.bind
        intro result
        split
        · exact .pure _
        · apply make.bind
          intro result
          split
          · exact .pure _
          · exact unlessDirectory path _
    · exact unlessDirectory path _

end Preserves

theorem makeDirectories_extends (tree : FileTree) (path : Path) :
    tree.Extends (FileAccess.makeDirectories (m := StateM FileTree) path tree).2 :=
  Preserves.makeDirectories path
    (fun _ extended made => extended.trans (makeDirectory_extends made)) tree (.refl tree)

/-- What a way leads through stays passable as long as directories stay. -/
theorem walk_kept {start target : Place} {segments : List FileName}
    (kept : ∀ place, tree.entry? place = some .directory → after.entry? place = some .directory)
    (led : tree.walk start segments = .ok target) : after.walk start segments = .ok target := by
  induction segments generalizing start with
  | nil => exact led
  | cons segment rest ih =>
    unfold walk at led ⊢
    split at led
    next => contradiction
    next => contradiction
    next here =>
      rw [kept start here]
      exact ih led

/-- A directory is found again as long as directories stay. -/
theorem find_kept
    (kept : ∀ place, tree.entry? place = some .directory → after.entry? place = some .directory)
    (same : after.workingDirectory = tree.workingDirectory)
    (found : tree.find path = .ok (place, .directory)) :
    after.find path = .ok (place, .directory) := by
  obtain ⟨led, here⟩ := find_cases found
  have start : after.origin path = tree.origin path := by rw [origin, origin, same]
  rw [find_of_walk (checkPath_of_find found) (start ▸ walk_kept kept led), kept place here]

theorem walk_append (tree : FileTree) (start : Place) (first second : List FileName) :
    tree.walk start (first ++ second) =
      (tree.walk start first).bind fun place => tree.walk place second := by
  induction first generalizing start with
  | nil => rfl
  | cons segment rest ih =>
    simp only [List.cons_append, walk]
    split
    · rfl
    · rfl
    · exact ih _

/-- A segment that names an entry of the directory in which it stands. -/
def Ordinary (name : FileName) : Prop :=
  name ≠ [] ∧ Path.slash ∉ name ∧ name ≠ Path.dot ∧ name ≠ Path.dotDot

instance (name : FileName) : Decidable (Ordinary name) :=
  inferInstanceAs (Decidable (_ ∧ _))

theorem follow_ordinary {name : FileName} (ordinary : Ordinary name) (place : Place) :
    follow place name = place ++ [name] := by
  obtain ⟨full, _, here, above⟩ := ordinary
  simp [follow, full, here, above]

/-- Names lead to the place that they name. -/
theorem walk_ordinary {start target : Place} {names : List FileName}
    (ordinary : ∀ name ∈ names, Ordinary name) (led : tree.walk start names = .ok target) :
    target = start ++ names := by
  induction names generalizing start with
  | nil =>
    cases led
    exact (List.append_nil _).symm
  | cons name names ih =>
    rw [List.forall_mem_cons] at ordinary
    unfold walk at led
    split at led
    next => contradiction
    next => contradiction
    next =>
      rw [follow_ordinary ordinary.1] at led
      rw [ih ordinary.2 led, List.append_assoc]
      rfl

/-- Whatever stands in the tree stands in a directory, as in every file system. -/
def Grounded (tree : FileTree) : Prop :=
  ∀ ⦃place name entry⦄, tree.entry? (place ++ [name]) = some entry →
    tree.entry? place = some .directory

theorem Grounded.above (grounded : tree.Grounded) {rest : List FileName} (more : rest ≠ [])
    (held : tree.entry? (place ++ rest) = some entry) : tree.entry? place = some .directory := by
  induction rest generalizing place with
  | nil => contradiction
  | cons name rest ih =>
    rw [List.append_cons] at held
    by_cases last : rest = []
    · subst last
      rw [List.append_nil] at held
      exact grounded held
    · exact grounded (ih last held)

/-- The names of what stands in the tree lead to it. -/
theorem Grounded.walk (grounded : tree.Grounded) {names : List FileName}
    (ordinary : ∀ name ∈ names, Ordinary name)
    (held : tree.entry? (place ++ names) = some entry) :
    tree.walk place names = .ok (place ++ names) := by
  induction names generalizing place with
  | nil => rw [FileTree.walk, List.append_nil]
  | cons name names ih =>
    have here := grounded.above (List.cons_ne_nil _ _) held
    rw [List.forall_mem_cons] at ordinary
    rw [List.append_cons] at held ⊢
    rw [FileTree.walk, here, follow_ordinary ordinary.1]
    exact ih ordinary.2 held

/-- What is put into a directory, other than in the place of one, leaves a tree grounded. -/
theorem Grounded.insert {name : FileName} (grounded : tree.Grounded)
    (inside : tree.entry? place = some .directory)
    (fresh : tree.entry? (place ++ [name]) ≠ some .directory) (entry : FileEntry) :
    (tree.insert (place ++ [name]) entry).Grounded := by
  have inner : place ++ [name] ≠ [] := by simp
  intro other last found held
  rw [entry?_insert inner] at held ⊢
  split at held
  next same =>
    obtain ⟨rfl, _⟩ := List.append_inj' same rfl
    rw [if_neg (by simp)]
    exact inside
  next =>
    have above := grounded held
    rw [if_neg (by rintro rfl; exact fresh above)]
    exact above

theorem grounded_ofWorkingDirectory (place : Place) : (ofWorkingDirectory place).Grounded := by
  intro above name entry held
  unfold entry? ofWorkingDirectory at held ⊢
  rw [if_neg (by simp)] at held
  dsimp only at held ⊢
  split at held
  next onTheWay =>
    split
    · rfl
    · exact if_pos ((List.prefix_append above [name]).trans onTheWay)
  next => contradiction

/-- A new entry gets its place in a directory, to which the path leads. -/
theorem site_cases (found : tree.site path = .ok (some place)) :
    ∃ way directory name, tree.walk (tree.origin path) (way ++ [[]]) = .ok directory ∧
      place = directory ++ [name] ∧ tree.entry? directory = some .directory := by
  unfold site at found
  cases checked : checkPath path with
  | error fault =>
    rw [checked] at found
    contradiction
  | ok _ =>
    rw [checked] at found
    cases led : tree.walk (tree.origin path) ((lastSegment path).1 ++ [[]]) with
    | error fault =>
      simp only [bind, Except.bind, led] at found
      contradiction
    | ok directory =>
      obtain ⟨above, _, here, rfl⟩ := (tree.walk_concat _ _ []).mp led
      simp only [bind, Except.bind, pure, Except.pure, led] at found
      split at found
      next => simp at found
      next name _ =>
        split at found
        next => simp at found
        next =>
          cases found
          exact ⟨_, above, name, led, rfl, here⟩

theorem Grounded.write {content : ByteArray} (grounded : tree.Grounded)
    (written : tree.write path content = .ok after) : after.Grounded := by
  obtain ⟨place, found, _, fresh, rfl⟩ := write_cases written
  obtain ⟨_, directory, name, _, rfl, inside⟩ := site_cases found
  exact grounded.insert inside fresh _

theorem Grounded.makeDirectory (grounded : tree.Grounded)
    (made : tree.makeDirectory path = .ok after) : after.Grounded := by
  obtain ⟨place, found, free, rfl⟩ := makeDirectory_cases made
  obtain ⟨_, directory, name, _, rfl, inside⟩ := site_cases found
  exact grounded.insert inside (by rw [free]; nofun) _

theorem walk_starts {start target : Place} {segments : List FileName} (more : segments ≠ [])
    (led : tree.walk start segments = .ok target) : tree.entry? start = some .directory := by
  cases segments with
  | nil => contradiction
  | cons segment rest =>
    unfold walk at led
    split at led
    next => contradiction
    next => contradiction
    next here => exact here

/-- A relative path never leads to the making of the working directory: if that is there in the end,
it was there before. -/
theorem makeDirectories_workingDirectory (relative : ¬ path.isAbsolute = true)
    (made : (FileAccess.makeDirectories (m := StateM FileTree) path tree).2 = after)
    (there : after.entry? tree.workingDirectory = some .directory) :
    tree.entry? tree.workingDirectory = some .directory := by
  let holds (later : FileTree) : Prop := later.workingDirectory = tree.workingDirectory ∧
    (later.entry? tree.workingDirectory = some .directory →
      tree.entry? tree.workingDirectory = some .directory)
  have run : Preserves holds (FileAccess.makeDirectories path) := by
    apply Preserves.makeDirectories
    intro later _ above onTheWay held created
    obtain ⟨place, found, _, rfl⟩ := makeDirectory_cases created
    obtain ⟨way, _, _, led, _⟩ := site_cases found
    -- The way to the new directory starts in the working directory.
    have start : later.origin above = tree.workingDirectory := by
      rw [origin, if_neg (Path.relative_prefix onTheWay relative), held.1]
    refine ⟨held.1, fun _ => held.2 ?_⟩
    rw [← start]
    exact walk_starts (by simp) led
  rw [← made] at there
  exact (run tree ⟨rfl, id⟩).2 there

/-- The content of the file at a place, if a file stands there. -/
def file? (tree : FileTree) (place : Place) : Option ByteArray :=
  match tree.entry? place with
  | some (.file content) => some content
  | _ => none

theorem file?_congr (same : after.entry? place = tree.entry? place) :
    after.file? place = tree.file? place := by
  rw [file?, file?, same]

/-- A path whose way comes down to names has the content of the file at the place that they name. -/
theorem Grounded.read {start : Place} {names : List FileName} (grounded : tree.Grounded)
    (ordinary : ∀ name ∈ names, Ordinary name) (checked : checkPath path = .ok ())
    (led : tree.walk (tree.origin path) path.segments = tree.walk start names) :
    (tree.read path).toOption = tree.file? (start ++ names) := by
  rw [FileTree.read, find_checked _ checked, led, file?]
  cases reached : tree.walk start names with
  | ok target =>
    cases walk_ordinary ordinary reached
    simp only [Except.bind]
    cases tree.entry? (start ++ names) with
    | none => rfl
    | some entry => cases entry <;> rfl
  | error fault =>
    cases held : tree.entry? (start ++ names) with
    | none => rfl
    | some entry =>
      rw [grounded.walk ordinary held] at reached
      contradiction

theorem Extends.file? (extended : tree.Extends after) (place : Place) :
    after.file? place = tree.file? place := by
  cases held : tree.entry? place with
  | some entry => exact file?_congr ((extended.kept held).trans held.symm)
  | none =>
    cases later : after.entry? place with
    | none => exact file?_congr (later.trans held.symm)
    | some entry =>
      rcases extended.added later with earlier | rfl
      · rw [held] at earlier
        contradiction
      · rw [FileTree.file?, FileTree.file?, held, later]

end FileTree
end ScriptToCpp
