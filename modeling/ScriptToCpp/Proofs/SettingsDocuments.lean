import ScriptToCpp.Proofs.JsonDerivations
import ScriptToCpp.Settings
import Mathlib

/-! Settings are read from a JSON object whatever it looks like: of its members only those with the
three names matter, and of these how often they occur and what values they have. -/
namespace ScriptToCpp

namespace Json

theorem pieces_of_textOf? {given : List Piece} {text : String} (read : textOf? given = some text) :
    given = pieces text := by
  have whole : ∀ characters, given.mapM Piece.char? = some characters →
      given = characters.map .char := by
    clear read
    induction given with
    | nil => simp
    | cons piece rest ih =>
      intro characters all
      cases piece with
      | half code => simp [Piece.char?] at all
      | char c =>
        simp only [List.mapM_cons, Piece.char?, Option.pure_def, Option.bind_eq_bind,
          Option.bind_some, Option.bind_eq_some_iff] at all
        obtain ⟨others, all, same⟩ := all
        cases same
        rw [ih others all, List.map_cons]
  obtain ⟨characters, all, rfl⟩ := Option.map_eq_some_iff.mp read
  rw [pieces, String.toList_ofList]
  exact whole characters all

/-- A value that is a text is the string of that text. -/
theorem text?_eq_some_iff {value : Json} {text : String} :
    value.text? = some text ↔ value = .ofString text := by
  constructor
  · intro read
    cases value with
    | string given => exact congrArg Json.string (pieces_of_textOf? read)
    | _ => contradiction
  · rintro rfl
    exact textOf?_pieces text

theorem bool?_eq_some_iff {value : Json} {flag : Bool} :
    value.bool? = some flag ↔ value = .bool flag := by
  cases value <;> simp [bool?]

end Json

namespace Settings
variable {members : List (String × Json)} {name : String}

/-- The members of an object whose names are texts. -/
def named (members : List (String × Json)) : List (List Json.Piece × Json) :=
  members.map fun member => (Json.pieces member.1, member.2)

/-- The name occurs once, with a text as its value. -/
def GivesText (name : String) (members : List (String × Json)) : Prop :=
  (members.map Prod.fst).count name = 1 ∧
    ∀ value, (name, value) ∈ members → ∃ text, value = .ofString text

/-- The name occurs at most once, with a truth value. -/
def GivesFlag (name : String) (members : List (String × Json)) : Prop :=
  (members.map Prod.fst).count name ≤ 1 ∧
    ∀ value, (name, value) ∈ members → ∃ flag, value = .bool flag

/-- The flag is the value of the member of that name, or else the one that holds without it. -/
def FlagIs (name : String) (absent flag : Bool) (members : List (String × Json)) : Prop :=
  (name, .bool flag) ∈ members ∨ name ∉ members.map Prod.fst ∧ flag = absent

/-- The values that are given under a name, in order. -/
theorem valuesOf_named (name : String) (members : List (String × Json)) :
    valuesOf name (named members) =
      (members.filter fun member => member.1 = name).map Prod.snd := by
  rw [valuesOf, named, List.filter_map, List.map_map]
  simp only [Function.comp_def, Json.textOf?_pieces, Option.some.injEq]

theorem mem_valuesOf {value : Json} :
    value ∈ valuesOf name (named members) ↔ (name, value) ∈ members := by
  simp [valuesOf_named]

theorem length_valuesOf :
    (valuesOf name (named members)).length = (members.map Prod.fst).count name := by
  rw [valuesOf_named, List.length_map, ← List.countP_eq_length_filter, List.count, List.countP_map]
  rfl

theorem valuesOf_eq_nil : valuesOf name (named members) = [] ↔ name ∉ members.map Prod.fst := by
  rw [← List.length_eq_zero_iff, length_valuesOf, List.count_eq_zero]

theorem flag?_valuesOf (absent : Bool) :
    (flag? absent (valuesOf name (named members))).isSome ↔ GivesFlag name members := by
  unfold GivesFlag
  simp only [← length_valuesOf, ← mem_valuesOf]
  rcases valuesOf name (named members) with _ | ⟨value, _ | ⟨other, more⟩⟩
  · simp [flag?]
  · simp [flag?, Option.isSome_iff_exists, Json.bool?_eq_some_iff]
  · simp [flag?]

theorem flagIs_of_flag? {absent flag : Bool}
    (read : flag? absent (valuesOf name (named members)) = some flag) :
    FlagIs name absent flag members := by
  unfold FlagIs
  rw [← mem_valuesOf, ← valuesOf_eq_nil]
  rcases values : valuesOf name (named members) with _ | ⟨value, _ | ⟨other, more⟩⟩
  · rw [values] at read
    cases read
    exact .inr ⟨rfl, rfl⟩
  · rw [values, flag?, Json.bool?_eq_some_iff] at read
    rw [read]
    exact .inl List.mem_cons_self
  · rw [values] at read
    contradiction

theorem givesText_iff :
    GivesText name members ↔ ∃ text, valuesOf name (named members) = [.ofString text] := by
  unfold GivesText
  simp only [← length_valuesOf, ← mem_valuesOf]
  constructor
  · rintro ⟨once, texts⟩
    obtain ⟨value, same⟩ := List.length_eq_one_iff.mp once
    obtain ⟨text, rfl⟩ := texts value (by simp [same])
    exact ⟨text, same⟩
  · rintro ⟨text, same⟩
    rw [same]
    exact ⟨rfl, fun value member => ⟨text, List.mem_singleton.mp member⟩⟩

/-- All names are texts here, so that the members decide by their values alone. -/
theorem ofMembers?_named_iff {settings : Settings} :
    ofMembers? (named members) = some settings ↔
      valuesOf "env_name" (named members) = [.ofString settings.envName] ∧
      flag? false (valuesOf "verbose" (named members)) = some settings.verbose ∧
      flag? true (valuesOf "banner" (named members)) = some settings.banner := by
  have texts : (named members).all (fun member => (Json.textOf? member.1).isSome) = true := by
    simp [named, Json.textOf?_pieces]
  obtain ⟨envName, verbose, banner⟩ := settings
  unfold ofMembers?
  rw [texts]
  rcases valuesOf "env_name" (named members) with _ | ⟨value, _ | ⟨other, more⟩⟩
  · simp
  · simp only [guard_true, Option.pure_def, Option.bind_eq_bind, Option.bind_some,
      Option.bind_eq_some_iff, Json.text?_eq_some_iff, Option.some.injEq, Settings.mk.injEq,
      List.cons.injEq, and_true]
    constructor
    · rintro ⟨_, same, _, first, _, second, rfl, rfl, rfl⟩
      exact ⟨same, first, second⟩
    · rintro ⟨same, first, second⟩
      exact ⟨_, same, _, first, _, second, rfl, rfl, rfl⟩
  · simp

/-- Settings are read from an object just if its members give a name once, as a text, and each of
the two flags at most once, as a truth value; how the object is written, in which order its members
stand and which others there are does not matter. The settings have these values, and where a flag
is left out the one that holds without it. -/
theorem object_read_as_settings {text : String} {members : List (String × Json)}
    (written : Json.Element text (.object (named members))) :
    ((parse? text).isSome ↔ GivesText "env_name" members ∧ GivesFlag "verbose" members ∧
      GivesFlag "banner" members) ∧
    ∀ settings, parse? text = some settings →
      ("env_name", .ofString settings.envName) ∈ members ∧
      FlagIs "verbose" false settings.verbose members ∧
      FlagIs "banner" true settings.banner members := by
  have read : parse? text = ofMembers? (named members) := by
    rw [parse?, written.parse?]
    rfl
  rw [read]
  constructor
  · rw [givesText_iff, ← flag?_valuesOf false, ← flag?_valuesOf true]
    simp only [Option.isSome_iff_exists, ofMembers?_named_iff]
    constructor
    · rintro ⟨settings, name, verbose, banner⟩
      exact ⟨⟨_, name⟩, ⟨_, verbose⟩, ⟨_, banner⟩⟩
    · rintro ⟨⟨envName, name⟩, ⟨verbose, first⟩, ⟨banner, second⟩⟩
      exact ⟨⟨envName, verbose, banner⟩, name, first, second⟩
  · intro settings found
    obtain ⟨name, verbose, banner⟩ := ofMembers?_named_iff.mp found
    refine ⟨mem_valuesOf.mp ?_, flagIs_of_flag? verbose, flagIs_of_flag? banner⟩
    rw [name]
    exact List.mem_cons_self

/-- The name is spelled with an escape, its value with two, and another member comes first. -/
theorem scattered_settings :
    Json.Element "\x7b\"x\":[\n-1e2],\"\\u0065nv_name\" : \"\\ud83D\\uDe00\",\"banner\":false\x7d"
      (.object (named [("x", .array [.number "-1e2"]), ("env_name", .ofString "😀"),
        ("banner", .bool false)])) ∧
    parse? "\x7b\"x\":[\n-1e2],\"\\u0065nv_name\" : \"\\ud83D\\uDe00\",\"banner\":false\x7d" =
      some ⟨"😀", false, false⟩ := by
  have settled : ∀ {text : String}, Json.Element text (.object (named
      [("x", .array [.number "-1e2"]), ("env_name", .ofString "😀"), ("banner", .bool false)])) →
      parse? text = some ⟨"😀", false, false⟩ := by
    intro text written
    obtain ⟨accepted, values⟩ := object_read_as_settings written
    obtain ⟨settings, read⟩ := Option.isSome_iff_exists.mp
      (accepted.mpr ⟨⟨by decide, by simp⟩, ⟨by decide, by simp⟩, ⟨by decide, by simp⟩⟩)
    obtain ⟨name, verbose, banner⟩ := values settings read
    obtain ⟨envName, verbose', banner'⟩ := settings
    simp only [FlagIs, List.mem_cons, Prod.mk.injEq, String.reduceEq, Json.bool.injEq, false_and,
      true_and, false_or, or_false, List.not_mem_nil, List.map_cons, List.map_nil, not_true,
      not_false_eq_true] at name verbose banner
    have same := (Json.text?_eq_some_iff.mpr rfl).symm.trans (Json.text?_eq_some_iff.mpr name)
    cases same
    rw [read, verbose, banner]
  have written := Json.parse?_eq_some_iff.mp (show Json.parse?
    "\x7b\"x\":[\n-1e2],\"\\u0065nv_name\" : \"\\ud83D\\uDe00\",\"banner\":false\x7d" = _ by cbv)
  exact ⟨written, settled written⟩

end Settings
end ScriptToCpp
