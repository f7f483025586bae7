import ScriptToCpp.Files.Path

/-! The segments of a path: where they end, and what they are behind a separator. -/
namespace ScriptToCpp

namespace Path

theorem ofString_injective {first second : String} (same : ofString first = ofString second) :
    first = second := by
  rw [ofString, ofString, Path.mk.injEq, Array.toList_inj] at same
  exact String.toByteArray_inj.mp (ByteArray.ext same)

theorem split_ne_nil (bytes : List UInt8) : split bytes ≠ [] := by
  cases bytes with
  | nil => exact List.cons_ne_nil _ _
  | cons byte rest =>
    unfold split
    split
    · exact List.cons_ne_nil _ _
    · split <;> exact List.cons_ne_nil _ _

/-- The last piece is empty only behind a separator, or where there is nothing at all. -/
theorem split_last {bytes : List UInt8} (empty : (split bytes).getLast? = some []) :
    bytes = [] ∨ bytes.getLast? = some slash := by
  induction bytes with
  | nil => exact .inl rfl
  | cons byte rest ih =>
    right
    have behind : (split rest).getLast? = some [] → byte = slash ∨ rest ≠ [] →
        (byte :: rest).getLast? = some slash := by
      intro empty start
      rcases ih empty with rfl | last
      · exact congrArg some (start.resolve_right fun some => some rfl)
      · rw [List.getLast?_cons, last]
        rfl
    unfold split at empty
    split at empty
    next same =>
      rw [List.getLast?_cons_of_ne_nil (split_ne_nil rest)] at empty
      exact behind empty (.inl same)
    next =>
      split at empty
      next none => exact absurd none (split_ne_nil rest)
      next name names pieces =>
        cases names with
        | nil => simp at empty
        | cons next names =>
          rw [List.getLast?_cons_cons] at empty
          apply behind
          · rw [pieces, List.getLast?_cons_cons]
            exact empty
          · right
            rintro rfl
            simp [split] at pieces

/-- A path that does not end in a separator ends in the name of an entry. -/
theorem segments_last {path : Path} (full : path.bytes ≠ [])
    (named : path.bytes.getLast? ≠ some slash) :
    ∃ way name, path.segments = way ++ [name] ∧ name ≠ [] := by
  obtain ⟨way, name, same⟩ :=
    (List.eq_nil_or_concat path.segments).resolve_left (split_ne_nil _)
  rw [List.concat_eq_append] at same
  refine ⟨way, name, same, ?_⟩
  rintro rfl
  have empty : path.segments.getLast? = some [] := by rw [same, List.getLast?_concat]
  unfold segments at empty
  split at empty
  next absolute =>
    obtain ⟨rest, start⟩ := List.head?_eq_some_iff.mp (beq_iff_eq.mp absolute)
    rw [start] at empty named
    rcases split_last empty with none | last
    · rw [List.tail_cons] at none
      subst none
      exact named rfl
    · rw [List.tail_cons] at last
      exact named (by rw [List.getLast?_cons, last]; rfl)
  next =>
    rcases split_last empty with none | last
    · exact full none
    · exact named last

theorem split_append (before behind : List UInt8) :
    split (before ++ slash :: behind) = split before ++ split behind := by
  induction before with
  | nil => rfl
  | cons byte rest ih =>
    simp only [List.cons_append, split, ih]
    split
    · rfl
    · cases pieces : split rest with
      | nil => exact absurd pieces (split_ne_nil rest)
      | cons name names => rfl

theorem split_name {name : FileName} (plain : slash ∉ name) : split name = [name] := by
  induction name with
  | nil => rfl
  | cons byte rest ih =>
    rw [List.mem_cons, not_or] at plain
    rw [split, if_neg (Ne.symm plain.1), ih plain.2]

/-- What stands before a separator and what stands behind it have segments of their own. Before the
first separator of an absolute path there are none. -/
theorem segments_slash (before behind : List UInt8) :
    segments ⟨before ++ slash :: behind⟩ =
      (if before = [] then [] else segments ⟨before⟩) ++ split behind := by
  cases before with
  | nil => rfl
  | cons byte rest =>
    have same : isAbsolute ⟨byte :: rest ++ slash :: behind⟩ = isAbsolute ⟨byte :: rest⟩ := rfl
    rw [if_neg (List.cons_ne_nil _ _), segments, segments, same]
    split
    · rw [List.cons_append, List.tail_cons, List.tail_cons, split_append]
    · rw [split_append]

theorem segments_behind (before : List UInt8) {name : FileName} (plain : slash ∉ name) :
    ∃ way, segments ⟨before ++ slash :: name⟩ = way ++ [name] :=
  ⟨_, by rw [segments_slash, split_name plain]⟩

theorem relative {path : Path} (plain : slash ∉ path.bytes) : ¬ path.isAbsolute = true :=
  fun first => plain (List.mem_of_head? (beq_iff_eq.mp first))

theorem relative_prefix {path above : Path} (start : above.bytes <+: path.bytes)
    (relative : ¬ path.isAbsolute = true) : ¬ above.isAbsolute = true := by
  intro absolute
  obtain ⟨rest, same⟩ := start
  rw [isAbsolute, beq_iff_eq] at absolute
  rw [isAbsolute, ← same, List.head?_append, absolute] at relative
  exact relative rfl

/-- A path that is continued by a name has the name as its last segment. -/
theorem segments_join (path : Path) {next : Path} (plain : slash ∉ next.bytes) :
    ∃ way, (path.join next).segments = way ++ [next.bytes] := by
  unfold join
  rw [if_neg (relative plain)]
  split
  next start =>
    rw [Bool.or_eq_true, decide_eq_true_eq, beq_iff_eq] at start
    rcases start with empty | closed
    · refine ⟨[], ?_⟩
      rw [empty, List.nil_append, segments, if_neg (relative plain), split_name plain]
      rfl
    · obtain ⟨before, same⟩ := List.getLast?_eq_some_iff.mp closed
      rw [same, List.append_assoc]
      exact segments_behind before plain
  next => exact segments_behind path.bytes plain

theorem join_full {path next : Path} (full : path.bytes ≠ []) (plain : slash ∉ next.bytes) :
    (path.join next).bytes ≠ [] := by
  unfold join
  rw [if_neg (relative plain)]
  split <;> exact List.append_ne_nil_of_left_ne_nil full _

theorem isAbsolute_join {path next : Path} (full : path.bytes ≠ []) (plain : slash ∉ next.bytes) :
    (path.join next).isAbsolute = path.isAbsolute := by
  have start : ∀ more, isAbsolute ⟨path.bytes ++ more⟩ = path.isAbsolute := by
    intro more
    obtain ⟨byte, rest, same⟩ := List.exists_cons_of_ne_nil full
    rw [isAbsolute, isAbsolute, same]
    rfl
  unfold join
  rw [if_neg (relative plain)]
  split <;> exact start _

/-- A name goes behind the segments of the path, an empty one at their end apart. -/
theorem segments_join_cases {path next : Path} (full : path.bytes ≠ [])
    (plain : slash ∉ next.bytes) :
    ∃ way, (path.segments = way ∨ path.segments = way ++ [[]]) ∧
      (path.join next).segments = way ++ [next.bytes] := by
  unfold join
  rw [if_neg (relative plain)]
  split
  next start =>
    rw [Bool.or_eq_true, decide_eq_true_eq, beq_iff_eq] at start
    obtain ⟨before, same⟩ := List.getLast?_eq_some_iff.mp (start.resolve_left full)
    refine ⟨if before = [] then [] else segments ⟨before⟩, .inr ?_, ?_⟩
    · have whole : path = ⟨before ++ [slash]⟩ := congrArg Path.mk same
      rw [whole]
      exact segments_slash before []
    · rw [same, List.append_assoc, List.singleton_append, segments_slash, split_name plain]
  next =>
    refine ⟨path.segments, .inl rfl, ?_⟩
    rw [segments_slash, if_neg full, split_name plain]

theorem segments_join_name {path next : Path} {way : List FileName} {name : FileName}
    (last : path.segments = way ++ [name]) (named : name ≠ []) (plain : slash ∉ next.bytes) :
    (path.join next).segments = way ++ [name, next.bytes] := by
  have full : path.bytes ≠ [] := by
    intro empty
    have none : path.segments = [[]] := by
      rw [segments, isAbsolute, empty]
      rfl
    rw [none] at last
    obtain ⟨_, same⟩ := List.append_inj' (show [] ++ [[]] = way ++ [name] from last) rfl
    exact named (List.singleton_inj.mp same).symm
  obtain ⟨front, same | same, joined⟩ := segments_join_cases full plain
  · rw [joined, ← same, last, List.append_assoc]
    rfl
  · obtain ⟨_, empty⟩ := List.append_inj' (last.symm.trans same) rfl
    exact absurd (List.singleton_inj.mp empty) named

end Path

end ScriptToCpp
