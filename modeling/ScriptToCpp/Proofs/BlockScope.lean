import ScriptToCpp.Proofs.Generated

/-! Block scope in programs that are given in fragments. A variable is in scope from its declaration
up to the end of the block that holds the declaration, where blocks are counted by their braces. -/
namespace ScriptToCpp

namespace Cpp

/-- How a fragment changes the number of open blocks. -/
def Fragment.depth : Fragment → Int
  | opens => 1
  | closes => -1
  | code _ | declares _ | mentions _ => 0

/-- How many more blocks are opened than closed. -/
def depth (fragments : List Fragment) : Int :=
  (fragments.map Fragment.depth).sum

/-- The block in which the fragments start is not closed by them. -/
def StaysOpen (fragments : List Fragment) : Prop :=
  ∀ part, part <+: fragments → 0 ≤ depth part

/-- Behind the fragments a declaration among them is in scope: the block that holds it is open. -/
def Declares (fragments : List Fragment) (name : String) : Prop :=
  ∃ before behind, fragments = before ++ Fragment.declares name :: behind ∧ StaysOpen behind

/-- Each variable that is mentioned is in the scope of a declaration of its name. -/
def WellScoped (fragments : List Fragment) : Prop :=
  ∀ before name behind, fragments = before ++ Fragment.mentions name :: behind →
    Declares before name

section
variable {first second fragments part : List Fragment} {name : String}

@[simp] theorem depth_nil : depth [] = 0 := rfl

@[simp] theorem depth_cons (fragment : Fragment) (rest : List Fragment) :
    depth (fragment :: rest) = fragment.depth + depth rest := by
  rw [depth, List.map_cons, List.sum_cons]
  rfl

@[simp] theorem depth_append (first second : List Fragment) :
    depth (first ++ second) = depth first + depth second := by
  rw [depth, List.map_append, List.sum_append]
  rfl

theorem StaysOpen.depth_nonneg (inside : StaysOpen fragments) : 0 ≤ depth fragments :=
  inside fragments (List.prefix_refl _)

theorem staysOpen_nil : StaysOpen [] := by
  intro part starts
  rw [List.prefix_nil.mp starts]
  rfl

theorem StaysOpen.before (inside : StaysOpen (first ++ second)) : StaysOpen first := by
  intro part starts
  exact inside part (starts.trans (List.prefix_append _ _))

theorem StaysOpen.append (left : StaysOpen first) (right : StaysOpen second) :
    StaysOpen (first ++ second) := by
  rintro part ⟨rest, same⟩
  rcases List.append_eq_append_iff.mp same with ⟨middle, rfl, _⟩ | ⟨middle, rfl, rfl⟩
  · exact left part (List.prefix_append _ _)
  · have enough := left.depth_nonneg
    have more := right middle (List.prefix_append _ _)
    rw [depth_append]
    omega

theorem declares_append (inside : StaysOpen second) :
    Declares (first ++ second) name ↔ Declares first name ∨ Declares second name := by
  constructor
  · rintro ⟨before, behind, same, visible⟩
    rcases append_split same with ⟨middle, rfl, rfl⟩ | ⟨middle, rfl, rfl⟩
    · exact .inl ⟨before, middle, rfl, visible.before⟩
    · exact .inr ⟨middle, behind, rfl, visible⟩
  · rintro (⟨before, behind, rfl, visible⟩ | ⟨before, behind, rfl, visible⟩)
    · exact ⟨before, behind ++ second, by simp, visible.append inside⟩
    · exact ⟨first ++ before, behind, by simp, visible⟩

theorem not_declares (none : ∀ name, .declares name ∉ fragments) (name : String) :
    ¬ Declares fragments name := by
  rintro ⟨before, behind, rfl, _⟩
  exact none name (by simp)

theorem declares_target {text other : String} :
    Declares [.code text, .declares other] name ↔ name = other := by
  constructor
  · rintro ⟨before, behind, same, _⟩
    have member : Fragment.declares name ∈ [.code text, .declares other] := by simp [same]
    simpa using member
  · rintro rfl
    exact ⟨[.code text], [], rfl, staysOpen_nil⟩

/-- Each block that the fragments open they close, and no others. -/
structure Balanced (fragments : List Fragment) : Prop where
  inside : StaysOpen fragments
  closed : depth fragments = 0

theorem Balanced.append (left : Balanced first) (right : Balanced second) :
    Balanced (first ++ second) := by
  refine ⟨left.inside.append right.inside, ?_⟩
  rw [depth_append, left.closed, right.closed]
  rfl

/-- Fragments without braces. -/
theorem Balanced.flat (plain : ∀ fragment ∈ fragments, fragment.depth = 0) :
    Balanced fragments := by
  have level : ∀ part, part ⊆ fragments → depth part = 0 := by
    intro part within
    apply List.sum_eq_zero
    intro change member
    obtain ⟨fragment, inside, rfl⟩ := List.mem_map.mp member
    exact plain fragment (within inside)
  refine ⟨fun part starts => ?_, level fragments (List.Subset.refl _)⟩
  rw [level part starts.subset]

/-- Fragments in braces. -/
def enclosed (inner : List Fragment) : List Fragment :=
  Fragment.opens :: (inner ++ [Fragment.closes])

section
variable {inner : List Fragment}

theorem Balanced.enclosed (balanced : Balanced inner) : Balanced (enclosed inner) := by
  have whole : depth (Fragment.opens :: (inner ++ [Fragment.closes])) = 0 := by
    rw [depth_cons, depth_append, balanced.closed]
    rfl
  refine ⟨fun part starts => ?_, whole⟩
  rcases List.prefix_cons_iff.mp starts with rfl | ⟨more, rfl, later⟩
  · rfl
  rcases List.prefix_concat_iff.mp later with rfl | within
  · exact whole.ge
  · have more := balanced.inside more within
    have opened : Fragment.opens.depth = 1 := rfl
    rw [depth_cons, opened]
    omega

/-- What a block declares ends with it. -/
theorem not_declares_enclosed (balanced : Balanced inner) (name : String) :
    ¬ Declares (enclosed inner) name := by
  rintro ⟨before, behind, same, visible⟩
  cases before with
  | nil => cases same
  | cons brace before =>
    obtain ⟨_, same⟩ := List.cons.inj same
    rcases append_split same with ⟨rest, rfl, rfl⟩ | ⟨rest, _, impossible⟩
    · -- The brace that closes the block is behind the declaration, and nothing reopens it.
      have total := balanced.closed
      have start := balanced.inside before (List.prefix_append _ _)
      have final := visible.depth_nonneg
      have closing : Fragment.closes.depth = -1 := rfl
      have declaring : (Fragment.declares name).depth = 0 := rfl
      rw [depth_append, depth_cons, declaring] at total
      rw [depth_append, depth_cons, closing, depth_nil] at final
      omega
    · cases rest with
      | nil => cases impossible
      | cons => simp at impossible

end

/-- Each variable that is mentioned is visible from outside, or declared before. -/
def ScopedIn (visible : String → Prop) (fragments : List Fragment) : Prop :=
  ∀ before name behind, fragments = before ++ Fragment.mentions name :: behind →
    visible name ∨ Declares before name

variable {visible : String → Prop}

theorem wellScoped_iff : WellScoped fragments ↔ ScopedIn (fun _ => False) fragments := by
  simp only [WellScoped, ScopedIn, false_or]

theorem scopedIn_append (inside : StaysOpen second) :
    ScopedIn visible (first ++ second) ↔
      ScopedIn visible first ∧
        ScopedIn (fun name => visible name ∨ Declares first name) second := by
  constructor
  · intro held
    refine ⟨fun before name behind same => ?_, fun before name behind same => ?_⟩
    · exact held before name (behind ++ second) (by simp [same])
    · have staying : StaysOpen before := by
        rw [same] at inside
        exact inside.before
      rcases held (first ++ before) name behind (by simp [same]) with outside | declared
      · exact .inl (.inl outside)
      · rcases (declares_append staying).mp declared with earlier | here
        · exact .inl (.inr earlier)
        · exact .inr here
  · rintro ⟨left, right⟩ before name behind same
    rcases append_split same with ⟨middle, rfl, _⟩ | ⟨middle, rfl, rfl⟩
    · exact left before name middle rfl
    · rcases right middle name behind rfl with (outside | earlier) | here
      · exact .inl outside
      · exact .inr ((declares_append inside.before).mpr (.inl earlier))
      · exact .inr ((declares_append inside.before).mpr (.inr here))

/-- Without declarations all variables have to be visible from outside. -/
theorem scopedIn_flat (none : ∀ name, .declares name ∉ fragments) :
    ScopedIn visible fragments ↔ ∀ name, .mentions name ∈ fragments → visible name := by
  constructor
  · intro held name member
    obtain ⟨before, behind, rfl⟩ := List.append_of_mem member
    have earlier : ∀ other, .declares other ∉ before :=
      fun other within => none other (List.mem_append_left _ within)
    exact (held before name behind rfl).resolve_right (not_declares earlier name)
  · rintro all before name behind rfl
    exact .inl (all name (by simp))

theorem scopedIn_unused (unused : ∀ name, .mentions name ∉ fragments) :
    ScopedIn visible fragments := by
  rintro before name behind rfl
  exact absurd (by simp) (unused name)

/-- Fragments without variables in front change nothing. -/
theorem scopedIn_behind (nameless : ∀ fragment ∈ first, fragment.name? = none)
    (inside : StaysOpen second) :
    ScopedIn visible (first ++ second) ↔ ScopedIn visible second := by
  have undeclared : ∀ name, .declares name ∉ first :=
    fun name member => nomatch nameless _ member
  have front : ScopedIn visible first :=
    scopedIn_unused fun name member => nomatch nameless _ member
  rw [scopedIn_append inside]
  simp only [front, not_declares undeclared, or_false, true_and]

/-- Fragments without variables behind change nothing. -/
theorem scopedIn_before (nameless : ∀ fragment ∈ second, fragment.name? = none) :
    ScopedIn visible (first ++ second) ↔ ScopedIn visible first := by
  constructor
  · intro held before name behind same
    exact held before name (behind ++ second) (by simp [same])
  · intro held before name behind same
    rcases append_split same with ⟨middle, rfl, _⟩ | ⟨middle, _, rfl⟩
    · exact held before name middle rfl
    · exact nomatch nameless (.mentions name) (by simp)

theorem scopedIn_enclosed {inner : List Fragment} (balanced : Balanced inner) :
    ScopedIn visible (enclosed inner) ↔ ScopedIn visible inner := by
  have behind : ScopedIn visible ((Fragment.opens :: inner) ++ [Fragment.closes]) ↔
      ScopedIn visible ([Fragment.opens] ++ inner) :=
    scopedIn_before (by simp [Fragment.name?])
  rw [scopedIn_behind (by simp [Fragment.name?]) balanced.inside] at behind
  exact behind

end

section
variable {naming : String → String} {allowed : String → Prop} {fragments : List Fragment}

theorem Fragment.rename_eq_declares {fragment : Fragment} {name : String}
    (same : fragment.rename naming = .declares name) :
    ∃ original, fragment = .declares original ∧ naming original = name := by
  cases fragment <;> simp_all [rename]

theorem Fragment.rename_eq_mentions {fragment : Fragment} {name : String}
    (same : fragment.rename naming = .mentions name) :
    ∃ original, fragment = .mentions original ∧ naming original = name := by
  cases fragment <;> simp_all [rename]

theorem depth_rename (fragments : List Fragment) :
    depth (fragments.map (.rename naming)) = depth fragments := by
  induction fragments with
  | nil => rfl
  | cons fragment rest ih =>
    rw [List.map_cons, depth_cons, depth_cons, ih]
    cases fragment <;> rfl

theorem staysOpen_rename :
    StaysOpen (fragments.map (.rename naming)) ↔ StaysOpen fragments := by
  constructor
  · intro inside part starts
    rw [← depth_rename part]
    exact inside _ (starts.map _)
  · intro inside part starts
    obtain ⟨original, within, rfl⟩ := List.prefix_map_iff.mp starts
    rw [depth_rename]
    exact inside original within

/-- Where an item of a list stands before all items are changed. -/
theorem map_split {α β : Type} {change : α → β} {items : List α} {before' behind' : List β} {y : β}
    (same : items.map change = before' ++ y :: behind') :
    ∃ before x behind, items = before ++ x :: behind ∧ before.map change = before' ∧
      change x = y ∧ behind.map change = behind' := by
  obtain ⟨before, rest, rfl, front, back⟩ := List.map_eq_append_iff.mp same
  obtain ⟨x, behind, rfl, changed, back⟩ := List.map_eq_cons_iff.mp back
  exact ⟨before, x, behind, rfl, front, changed, back⟩

variable (distinct : ∀ name other, allowed name → allowed other → naming name = naming other →
  name = other)

include distinct in
theorem declares_rename
    (named : ∀ fragment ∈ fragments, ∀ name, fragment.name? = some name → allowed name)
    {name : String} (fits : allowed name) :
    Declares (fragments.map (.rename naming)) (naming name) ↔ Declares fragments name := by
  constructor
  · rintro ⟨before', behind', same, visible⟩
    obtain ⟨before, fragment, behind, rfl, rfl, renamed, rfl⟩ := map_split same
    obtain ⟨original, rfl, agree⟩ := Fragment.rename_eq_declares renamed
    have known := named (.declares original) (by simp) original rfl
    cases distinct original name known fits agree
    exact ⟨before, behind, rfl, staysOpen_rename.mp visible⟩
  · rintro ⟨before, behind, rfl, visible⟩
    refine ⟨before.map (.rename naming), behind.map (.rename naming), ?_,
      staysOpen_rename.mpr visible⟩
    rw [List.map_append, List.map_cons]
    rfl

include distinct in
/-- Scopes stay as they are where two variables never get the same name. -/
theorem wellScoped_rename
    (named : ∀ fragment ∈ fragments, ∀ name, fragment.name? = some name → allowed name) :
    WellScoped (fragments.map (.rename naming)) ↔ WellScoped fragments := by
  constructor
  · rintro held before name behind rfl
    have declared := held (before.map (.rename naming)) (naming name)
      (behind.map (.rename naming)) (by rw [List.map_append, List.map_cons]; rfl)
    refine (declares_rename distinct (fun fragment member => ?_) ?_).mp declared
    · exact named fragment (List.mem_append_left _ member)
    · exact named (.mentions name) (by simp) name rfl
  · intro held before' name' behind' same
    obtain ⟨before, fragment, behind, rfl, rfl, renamed, rfl⟩ := map_split same
    obtain ⟨name, rfl, rfl⟩ := Fragment.rename_eq_mentions renamed
    refine (declares_rename distinct (fun fragment member => ?_) ?_).mpr
      (held before name behind rfl)
    · exact named fragment (List.mem_append_left _ member)
    · exact named (.mentions name) (by simp) name rfl

end

end Cpp
end ScriptToCpp
