import ScriptToCpp.Proofs.JsonGrammar
import ScriptToCpp.Proofs.LexicalGrammar
import Mathlib

/-! Whatever is read is derived by the grammar. Strings and numbers are derived where they are read;
for the rest, each state of the machine says what the text before it is a beginning of. -/
namespace ScriptToCpp.Json

/-! Strings -/

theorem mem_hexDigits {c : Char} {value : Nat} (read : hexDigit? c = some value) :
    (c, value) ∈ hexDigits := by
  -- There are few enough codes to try them all.
  have small : c.toNat < 128 := by
    unfold hexDigit? at read
    split at read
    next digit =>
      rw [Lexical.isDigit_iff] at digit
      omega
    next =>
      split at read
      next lower =>
        rw [Bool.and_eq_true, decide_eq_true_eq, decide_eq_true_eq] at lower
        exact Nat.lt_of_le_of_lt lower.2 (by decide)
      next =>
        split at read
        next upper =>
          rw [Bool.and_eq_true, decide_eq_true_eq, decide_eq_true_eq] at upper
          exact Nat.lt_of_le_of_lt upper.2 (by decide)
        next => contradiction
  have all : ∀ code < 128, ∀ value ∈ hexDigit? (Char.ofNat code),
      (Char.ofNat code, value) ∈ hexDigits := by
    decide +kernel
  have found := all c.toNat small value
  rw [Char.ofNat_toNat] at found
  exact found read

theorem codeUnit_of_code? {a b c d : Char} {code : Nat} (read : code? a b c d = some code) :
    CodeUnit (String.ofList ['\\', 'u', a, b, c, d]) code := by
  simp only [code?, Option.bind_eq_bind, Option.bind_eq_some_iff, Option.pure_def,
    Option.some.injEq] at read
  obtain ⟨w, first, x, second, y, third, z, fourth, rfl⟩ := read
  have unit := CodeUnit.mk (mem_hexDigits first) (mem_hexDigits second) (mem_hexDigits third)
    (mem_hexDigits fourth)
  have value : 16 ^ 3 * w + 16 ^ 2 * x + 16 * y + z = ((w * 16 + x) * 16 + y) * 16 + z := by
    omega
  rwa [value] at unit

theorem CodeUnit.lt {text : String} {code : Nat} (unit : CodeUnit text code) : code < 0x10000 := by
  have digit : ∀ entry ∈ hexDigits, entry.2 < 16 := by decide
  cases unit with
  | mk first second third fourth =>
    have := digit _ first
    have := digit _ second
    have := digit _ third
    have := digit _ fourth
    omega

theorem toNat_ofNat_plain {code : Nat} (small : code < 0x110000)
    (plain : code < 0xd800 ∨ 0xe000 ≤ code) : (Char.ofNat code).toNat = code := by
  rw [Char.toNat_ofNat, if_pos]
  unfold Nat.isValidChar
  omega

/-- Two halves that follow each other in the right order. -/
theorem Characters.pair {first second rest : String} {code trail : Nat} {more : List Piece}
    (unit : CodeUnit first code) (low : 0xd800 ≤ code) (lead : code < 0xdc00)
    (unit' : CodeUnit second trail) (follows : 0xdc00 ≤ trail) (high : trail < 0xe000)
    (others : Characters rest more) :
    Characters (first ++ (second ++ rest)) (Json.consCode code (.half trail :: more)) := by
  have met : Json.consCode code (.half trail :: more) =
      .char (Char.ofNat (0x10000 + 0x400 * (code - 0xd800) + (trail - 0xdc00))) :: more := by
    simp [Json.consCode, isLead, isTrail, low, lead, follows, high, Nat.mul_comm]
  rw [met, ← String.append_assoc]
  rw [← Nat.add_sub_cancel' low] at unit
  rw [← Nat.add_sub_cancel' follows] at unit'
  refine .char (.pair unit (by omega) unit' (by omega) (toNat_ofNat_plain ?_ ?_)) others
  · omega
  · omega

/-- A code goes before the elements of a string as the grammar has it. -/
theorem Characters.consCode {first rest : String} {code : Nat} {pieces : List Piece}
    (unit : CodeUnit first code) (others : Characters rest pieces) :
    Characters (first ++ rest) (Json.consCode code pieces) := by
  have bound := unit.lt
  by_cases surrogate : 0xd800 ≤ code ∧ code < 0xe000
  · obtain ⟨low, high⟩ := surrogate
    by_cases alone : ∀ trail more, pieces = .half trail :: more → 0xdc00 ≤ code ∨ trail < 0xdc00
    · rw [consCode_half low high alone]
      exact .half unit low high alone others
    · push Not at alone
      obtain ⟨trail, more, rfl, lead, follows⟩ := alone
      cases others with
      | half unit' _ high' _ others => exact .pair unit low lead unit' follows high' others
  · have plain : isLead code = false ∧ isTrail code = false := by
      simp [isLead, isTrail]
      omega
    rw [consCode_plain plain]
    refine .char (.unit ?_) others
    rwa [toNat_ofNat_plain (by omega) (by omega)]

theorem mem_letters {letter c : Char} (meant : escaped? letter = some c) :
    (letter, c) ∈ letters := by
  unfold escaped? at meant
  split at meant
  case h_9 => contradiction
  all_goals
    cases meant
    decide

theorem characters_of_readString {text rest : List Char} {pieces : List Piece}
    (read : readString text = some (pieces, rest)) :
    ∃ inner, text = inner.toList ++ '"' :: rest ∧ Characters inner pieces := by
  fun_induction readString text generalizing pieces rest with
  | case1 => contradiction
  | case2 =>
    cases read
    exact ⟨"", rfl, .nil⟩
  | case3 a b c d text ih =>
    simp only [Option.bind_eq_bind, Option.bind_eq_some_iff] at read
    obtain ⟨code, digits, ⟨pieces, rest⟩, more, same⟩ := read
    cases same
    obtain ⟨inner, rfl, written⟩ := ih more
    refine ⟨String.ofList ['\\', 'u', a, b, c, d] ++ inner, by simp, ?_⟩
    exact .consCode (codeUnit_of_code? digits) written
  | case4 letter text _ ih =>
    simp only [Option.bind_eq_bind, Option.bind_eq_some_iff] at read
    obtain ⟨c, meant, ⟨pieces, rest⟩, more, same⟩ := read
    cases same
    obtain ⟨inner, rfl, written⟩ := ih more
    refine ⟨String.ofList ['\\', letter] ++ inner, by simp, ?_⟩
    exact .char (.letter (mem_letters meant)) written
  | case5 => contradiction
  | case6 c text quote _ _ printed ih =>
    simp only [Option.bind_eq_bind, Option.bind_eq_some_iff] at read
    obtain ⟨⟨pieces, rest⟩, more, same⟩ := read
    cases same
    obtain ⟨inner, rfl, written⟩ := ih more
    refine ⟨String.singleton c ++ inner, by simp, ?_⟩
    simp only [Bool.or_eq_true, decide_eq_true_eq, not_or] at printed
    exact .char (.verbatim (Char.not_lt.mp printed.1) quote printed.2) written

/-! Numbers -/

theorem digits_of_isDigits {text : List Char} (digits : isDigits text = true) : Digits text := by
  simp only [isDigits, Bool.and_eq_true, bne_iff_ne, List.all_eq_true] at digits
  exact digits

theorem exponent_of_isExponent {text : List Char} (exponent : isExponent text = true) :
    Exponent text := by
  unfold isExponent at exponent
  split at exponent
  · exact .absent
  next mark sign digits =>
    rw [Bool.and_eq_true, Bool.or_eq_true, beq_iff_eq, beq_iff_eq] at exponent
    obtain ⟨marked, rest⟩ := exponent
    have member : mark ∈ ['e', 'E'] := by simpa using marked
    split at rest
    next signed =>
      rw [Bool.or_eq_true, beq_iff_eq, beq_iff_eq] at signed
      have signs : [sign] ∈ [[], ['+'], ['-']] := by simpa using signed
      exact .present member signs (digits_of_isDigits rest)
    next => exact Exponent.present member List.mem_cons_self (digits_of_isDigits rest)
  · contradiction

theorem fraction_of_isFraction {text : List Char} (fraction : isFraction text = true) :
    ∃ fraction exponent, text = fraction ++ exponent ∧ Fraction fraction ∧ Exponent exponent := by
  unfold isFraction at fraction
  split at fraction
  next text =>
    rw [Bool.and_eq_true] at fraction
    refine ⟨'.' :: text.takeWhile Char.isDigit, text.dropWhile Char.isDigit, ?_,
      .present (digits_of_isDigits fraction.1), exponent_of_isExponent fraction.2⟩
    rw [List.cons_append, List.takeWhile_append_dropWhile]
  · exact ⟨[], _, rfl, .absent, exponent_of_isExponent fraction⟩

theorem whole_of_isUnsigned {text : List Char} (number : isUnsigned text = true) :
    ∃ whole rest, text = whole ++ rest ∧ Whole whole ∧ isFraction rest = true := by
  unfold isUnsigned at number
  split at number
  next text => exact ⟨['0'], text, rfl, ⟨⟨by simp, by simp⟩, fun _ => rfl⟩, number⟩
  next other =>
    rw [Bool.and_eq_true] at number
    refine ⟨text.takeWhile Char.isDigit, text.dropWhile Char.isDigit,
      List.takeWhile_append_dropWhile.symm, ⟨digits_of_isDigits number.1, fun zero => ?_⟩, number.2⟩
    exfalso
    cases text with
    | nil => contradiction
    | cons c text =>
      rw [List.takeWhile_cons] at zero
      split at zero
      · cases zero
        exact other text rfl
      · contradiction

theorem numeral_of_isNumber {text : List Char} (number : isNumber text = true) :
    Numeral text := by
  have unsigned : ∀ {sign text : List Char}, sign ∈ [[], ['-']] → isUnsigned text = true →
      Numeral (sign ++ text) := by
    intro sign text signed number
    obtain ⟨whole, rest, rfl, integral, more⟩ := whole_of_isUnsigned number
    obtain ⟨fraction, exponent, rfl, fractional, scaled⟩ := fraction_of_isFraction more
    exact .mk signed integral fractional scaled
  unfold isNumber at number
  split at number
  next text =>
    have signed : ['-'] ∈ [[], ['-']] := by simp
    exact unsigned signed number
  · exact unsigned List.mem_cons_self number

theorem value_of_plain? {spelling : List Char} {value : Json}
    (read : plain? spelling = some value) : Value (String.ofList spelling) value := by
  unfold plain? at read
  split at read
  next same =>
    cases read
    rw [same, String.ofList_toList]
    exact .null
  split at read
  next same =>
    cases read
    rw [same, String.ofList_toList]
    exact .yes
  split at read
  next same =>
    cases read
    rw [same, String.ofList_toList]
    exact .no
  split at read
  next number =>
    cases read
    apply Value.number
    rw [String.toList_ofList]
    exact numeral_of_isNumber number
  next => contradiction

/-! Values -/

/-- The text of a mark. -/
inductive MarkText : String → Mark → Prop where
  | beginArray : MarkText "[" .beginArray
  | endArray : MarkText "]" .endArray
  | beginObject : MarkText "\x7b" .beginObject
  | endObject : MarkText "\x7d" .endObject
  | comma : MarkText "," .comma
  | colon : MarkText ":" .colon
  | text {text : String} {pieces : List Piece} : Quoted text pieces → MarkText text (.text pieces)
  | plain {text : String} {value : Json} : Value text value → MarkText text (.plain value)

theorem markText_of_readMark {c : Char} {text rest : List Char} {mark : Mark}
    (read : readMark c text = some (mark, rest)) :
    ∃ spelled, c :: text = spelled.toList ++ rest ∧ MarkText spelled mark := by
  unfold readMark at read
  split at read
  case h_7 =>
    obtain ⟨⟨pieces, more⟩, inside, same⟩ := Option.map_eq_some_iff.mp read
    cases same
    obtain ⟨inner, rfl, written⟩ := characters_of_readString inside
    exact ⟨"\"" ++ inner ++ "\"", by simp, .text (.mk written)⟩
  case h_8 =>
    split at read
    next =>
      obtain ⟨value, plain, same⟩ := Option.map_eq_some_iff.mp read
      cases same
      refine ⟨String.ofList (c :: text.takeWhile isPlainChar), ?_, .plain (value_of_plain? plain)⟩
      rw [String.toList_ofList, List.cons_append, List.takeWhile_append_dropWhile]
    next => contradiction
  all_goals cases read
  · exact ⟨"[", rfl, .beginArray⟩
  · exact ⟨"]", rfl, .endArray⟩
  · exact ⟨"\x7b", rfl, .beginObject⟩
  · exact ⟨"\x7d", rfl, .endObject⟩
  · exact ⟨",", rfl, .comma⟩
  · exact ⟨":", rfl, .colon⟩

theorem Blank.empty : Blank "" := by
  simp [Blank]

theorem Blank.append {first second : String} (left : Blank first) (right : Blank second) :
    Blank (first ++ second) := by
  intro c member
  rw [String.toList_append, List.mem_append] at member
  exact member.elim (left c) (right c)

/-- A value with nothing around it. -/
theorem Value.element {before text : String} {value : Json} (blank : Blank before)
    (derived : Value text value) : Element (before ++ text) value := by
  have element := Element.mk blank derived .empty
  rwa [String.append_empty] at element

theorem Element.blank {text ws : String} {value : Json} (derived : Element text value)
    (blank : Blank ws) : Element (text ++ ws) value := by
  cases derived with
  | mk before value behind =>
    rw [String.append_assoc, String.append_assoc]
    exact .mk before value (behind.append blank)

theorem Elements.blank {text ws : String} {items : List Json} (derived : Elements text items)
    (blank : Blank ws) : Elements (text ++ ws) items := by
  cases derived with
  | last element => exact .last (element.blank blank)
  | more element rest =>
    rw [String.append_assoc, String.append_assoc]
    exact .more element (rest.blank blank)

theorem Elements.concat {text last : String} {items : List Json} {value : Json}
    (derived : Elements text items) (element : Element last value) :
    Elements (text ++ ("," ++ last)) (items ++ [value]) := by
  cases derived with
  | last first => exact .more first (.last element)
  | more first rest =>
    rw [String.append_assoc, String.append_assoc]
    exact .more first (rest.concat element)

theorem Member.blank {text ws : String} {member : List Piece × Json} (derived : Member text member)
    (blank : Blank ws) : Member (text ++ ws) member := by
  cases derived with
  | mk before key behind element =>
    simp only [String.append_assoc]
    exact .mk before key behind (element.blank blank)

theorem Members.blank {text ws : String} {members : List (List Piece × Json)}
    (derived : Members text members) (blank : Blank ws) : Members (text ++ ws) members := by
  cases derived with
  | last member => exact .last (member.blank blank)
  | more member rest =>
    rw [String.append_assoc, String.append_assoc]
    exact .more member (rest.blank blank)

theorem Members.concat {text last : String} {members : List (List Piece × Json)}
    {member : List Piece × Json} (derived : Members text members) (further : Member last member) :
    Members (text ++ ("," ++ last)) (members ++ [member]) := by
  cases derived with
  | last first => exact .more first (.last further)
  | more first rest =>
    rw [String.append_assoc, String.append_assoc]
    exact .more first (rest.concat further)

mutual

/-- What may stand before an element, inside what is open. -/
inductive Inside : String → List Frame → Prop where
  | outermost : Inside "" []
  | firstItem {before ws : String} {frames : List Frame} : Inside before frames → Blank ws →
      Inside (before ++ (ws ++ "[")) (.array [] :: frames)
  | nextItem {before ws text : String} {done : List Json} {frames : List Frame} :
      Inside before frames → Blank ws → Elements text done.reverse →
      Inside (before ++ (ws ++ ("[" ++ (text ++ ",")))) (.array done :: frames)
  | value {before ws key ws' : String} {name : List Piece} {done : List (List Piece × Json)}
      {frames : List Frame} :
      BeforeMember before done frames → Blank ws → Quoted key name → Blank ws' →
      Inside (before ++ (ws ++ (key ++ (ws' ++ ":")))) (.object done name :: frames)

/-- What may stand before a member, behind others. -/
inductive BeforeMember : String → List (List Piece × Json) → List Frame → Prop where
  | first {before ws : String} {frames : List Frame} : Inside before frames → Blank ws →
      BeforeMember (before ++ (ws ++ "\x7b")) [] frames
  | next {before ws text : String} {done : List (List Piece × Json)} {frames : List Frame} :
      Inside before frames → Blank ws → Members text done.reverse →
      BeforeMember (before ++ (ws ++ ("\x7b" ++ (text ++ ",")))) done frames

end

/-- What may have been read in a state. -/
inductive Reached : String → State → Prop where
  | anyValue {before ws : String} {frames : List Frame} : Inside before frames → Blank ws →
      Reached (before ++ ws) (.anyValue frames)
  | firstItem {before ws ws' : String} {frames : List Frame} : Inside before frames → Blank ws →
      Blank ws' → Reached (before ++ (ws ++ ("[" ++ ws'))) (.firstItem frames)
  | behindItem {before ws text : String} {items : List Json} {frames : List Frame} :
      Inside before frames → Blank ws → Elements text items.reverse →
      Reached (before ++ (ws ++ ("[" ++ text))) (.behindItem items frames)
  | firstKey {before ws ws' : String} {frames : List Frame} : Inside before frames → Blank ws →
      Blank ws' → Reached (before ++ (ws ++ ("\x7b" ++ ws'))) (.firstKey frames)
  | nextKey {before ws text ws' : String} {members : List (List Piece × Json)}
      {frames : List Frame} : Inside before frames → Blank ws → Members text members.reverse →
      Blank ws' →
      Reached (before ++ (ws ++ ("\x7b" ++ (text ++ ("," ++ ws'))))) (.nextKey members frames)
  | colon {before ws key ws' : String} {name : List Piece} {members : List (List Piece × Json)}
      {frames : List Frame} : BeforeMember before members frames → Blank ws → Quoted key name →
      Blank ws' → Reached (before ++ (ws ++ (key ++ ws'))) (.colon members name frames)
  | behindMember {before ws text : String} {members : List (List Piece × Json)}
      {frames : List Frame} : Inside before frames → Blank ws → Members text members.reverse →
      Reached (before ++ (ws ++ ("\x7b" ++ text))) (.behindMember members frames)
  | complete {text : String} {value : Json} : Element text value → Reached text (.complete value)

theorem Reached.blank {text ws : String} {state : State} (reached : Reached text state)
    (blank : Blank ws) : Reached (text ++ ws) state := by
  cases reached with
  | complete element => exact .complete (element.blank blank)
  | anyValue inside before =>
    rw [String.append_assoc]
    exact .anyValue inside (before.append blank)
  | firstItem inside before behind =>
    simp only [String.append_assoc]
    exact .firstItem inside before (behind.append blank)
  | behindItem inside before items =>
    simp only [String.append_assoc]
    exact .behindItem inside before (items.blank blank)
  | firstKey inside before behind =>
    simp only [String.append_assoc]
    exact .firstKey inside before (behind.append blank)
  | nextKey inside before members behind =>
    simp only [String.append_assoc]
    exact .nextKey inside before members (behind.append blank)
  | colon inside before key behind =>
    simp only [String.append_assoc]
    exact .colon inside before key (behind.append blank)
  | behindMember inside before members =>
    simp only [String.append_assoc]
    exact .behindMember inside before (members.blank blank)

/-- An element is complete, inside what is open around it. -/
theorem Inside.behind {before text : String} {value : Json} {frames : List Frame}
    (inside : Inside before frames) (element : Element text value) :
    Reached (before ++ text) (.behind value frames) := by
  cases inside with
  | outermost =>
    rw [String.empty_append]
    exact .complete element
  | firstItem inside blank =>
    simp only [String.append_assoc]
    exact .behindItem inside blank (.last element)
  | @nextItem _ _ _ done _ inside blank items =>
    have more := items.concat element
    rw [← List.reverse_cons] at more
    simp only [String.append_assoc]
    exact .behindItem inside blank more
  | @value _ _ _ _ name done _ outer before key behind =>
    have member := Member.mk before key behind element
    cases outer with
    | first inside blank =>
      simp only [String.append_assoc]
      exact .behindMember inside blank (.last member)
    | next inside blank members =>
      have more := members.concat member
      rw [← List.reverse_cons] at more
      simp only [String.append_assoc]
      exact .behindMember inside blank more

theorem Inside.closed {before ws text : String} {value : Json} {frames : List Frame}
    (inside : Inside before frames) (blank : Blank ws) (derived : Value text value) :
    Reached (before ++ (ws ++ text)) (.behind value frames) :=
  inside.behind (derived.element blank)

theorem Inside.enter {before ws text : String} {mark : Mark} {frames : List Frame} {next : State}
    (inside : Inside before frames) (blank : Blank ws) (spelled : MarkText text mark)
    (entered : State.enter frames mark = some next) : Reached (before ++ (ws ++ text)) next := by
  cases spelled with
  | beginArray =>
    cases entered
    have reached := Reached.firstItem inside blank .empty
    rwa [String.append_empty] at reached
  | beginObject =>
    cases entered
    have reached := Reached.firstKey inside blank .empty
    rwa [String.append_empty] at reached
  | text quoted =>
    cases entered
    exact inside.closed blank (.string quoted)
  | plain derived =>
    cases entered
    exact inside.closed blank derived
  | endArray | endObject | comma | colon => contradiction

/-- Each mark goes on with what has been read. -/
theorem Reached.step {before text : String} {mark : Mark} {state next : State}
    (reached : Reached before state) (spelled : MarkText text mark)
    (stepped : state.step mark = some next) : Reached (before ++ text) next := by
  cases reached with
  | anyValue inside blank =>
    rw [String.append_assoc]
    exact inside.enter blank spelled stepped
  | firstItem inside blank blank' =>
    by_cases closing : mark = .endArray
    · subst closing
      cases stepped
      cases spelled
      simp only [String.append_assoc]
      exact inside.closed blank (.emptyArray blank')
    · rw [State.awaits_first _ mark closing] at stepped
      have entered := (inside.firstItem blank).enter blank' spelled stepped
      simpa only [String.append_assoc] using entered
  | behindItem inside blank items =>
    cases spelled with
    | comma =>
      cases stepped
      have reached := Reached.anyValue (inside.nextItem blank items) .empty
      simpa only [String.append_assoc, String.append_empty] using reached
    | endArray =>
      cases stepped
      simp only [String.append_assoc]
      exact inside.closed blank (.array items)
    | _ => contradiction
  | firstKey inside blank blank' =>
    cases spelled with
    | endObject =>
      cases stepped
      simp only [String.append_assoc]
      exact inside.closed blank (.emptyObject blank')
    | text key =>
      cases stepped
      have reached := Reached.colon (.first inside blank) blank' key .empty
      simpa only [String.append_assoc, String.append_empty] using reached
    | _ => contradiction
  | nextKey inside blank members blank' =>
    cases spelled with
    | text key =>
      cases stepped
      have reached := Reached.colon (.next inside blank members) blank' key .empty
      simpa only [String.append_assoc, String.append_empty] using reached
    | _ => contradiction
  | colon outer blank key blank' =>
    cases spelled with
    | colon =>
      cases stepped
      have reached := Reached.anyValue (.value outer blank key blank') .empty
      simpa only [String.append_assoc, String.append_empty] using reached
    | _ => contradiction
  | behindMember inside blank members =>
    cases spelled with
    | comma =>
      cases stepped
      have reached := Reached.nextKey inside blank members .empty
      simpa only [String.append_assoc, String.append_empty] using reached
    | endObject =>
      cases stepped
      simp only [String.append_assoc]
      exact inside.closed blank (.object members)
    | _ => contradiction
  | complete => contradiction

/-- A whole text that is cut into marks goes on with what has been read. -/
theorem Reached.marks {text : List Char} {cut : List Mark} {before : String} {state final : State}
    (reached : Reached before state) (read : marks text = some cut)
    (leads : cut.foldlM State.step state = some final) :
    Reached (before ++ String.ofList text) final := by
  fun_induction Json.marks text generalizing cut before state with
  | case1 =>
    cases read
    cases leads
    rw [String.ofList_nil, String.append_empty]
    exact reached
  | case2 c text space ih =>
    have blank : Blank (String.singleton c) := by simpa [Blank] using space
    have further := ih (reached.blank blank) read leads
    have same : String.singleton c ++ String.ofList text = String.ofList (c :: text) := by
      rw [← String.toList_inj]
      simp
    rwa [String.append_assoc, same] at further
  | case3 => contradiction
  | case4 c text space mark rest found _ ih =>
    obtain ⟨spelled, same, mark'⟩ := markText_of_readMark found
    obtain ⟨more, cutRest, rfl⟩ := Option.map_eq_some_iff.mp read
    rw [List.foldlM_cons, Option.bind_eq_bind, Option.bind_eq_some_iff] at leads
    obtain ⟨middle, stepped, leads⟩ := leads
    have further := ih (reached.step mark' stepped) cutRest leads
    rwa [String.append_assoc, ← @String.ofList_toList spelled, ← String.ofList_append,
      ← same] at further

/-- What is read is derived by the grammar, and conversely. -/
theorem parse?_eq_some_iff {text : String} {value : Json} :
    parse? text = some value ↔ Element text value := by
  constructor
  · intro read
    simp only [parse?, Option.bind_eq_bind, Option.bind_eq_some_iff] at read
    obtain ⟨cut, read, final, leads, complete⟩ := read
    have start : Reached "" (.anyValue []) := by
      have reached := Reached.anyValue .outermost .empty
      rwa [String.append_empty] at reached
    have reached := start.marks read leads
    rw [String.empty_append, String.ofList_toList] at reached
    cases reached with
    | complete element =>
      cases complete
      exact element
    | _ => contradiction
  · exact Element.parse?

end ScriptToCpp.Json
