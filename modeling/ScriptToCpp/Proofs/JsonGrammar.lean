import ScriptToCpp.Proofs.JsonRoundTrip
import Mathlib

/-! The grammar of JSON, said without the reader, where `ws` is any white space:

    element  ::= ws value ws
    value    ::= object | array | string | number | "true" | "false" | "null"
    object   ::= "{" ws "}" | "{" members "}"
    members  ::= member | member "," members
    member   ::= ws string ws ":" element
    array    ::= "[" ws "]" | "[" elements "]"
    elements ::= element | element "," elements

Whatever the grammar derives is read, and as the value that it stands for. -/
namespace ScriptToCpp.Json

/-! Strings -/

/-- The hexadecimal digits, in both cases, with their values. -/
def hexDigits : List (Char × Nat) :=
  "0123456789abcdef".toList.zipIdx ++ "ABCDEF".toList.zipIdx 10

/-- A code of four hexadecimal digits. -/
inductive CodeUnit : String → Nat → Prop where
  | mk {a b c d : Char} {w x y z : Nat} :
      (a, w) ∈ hexDigits → (b, x) ∈ hexDigits → (c, y) ∈ hexDigits → (d, z) ∈ hexDigits →
      CodeUnit (String.ofList ['\\', 'u', a, b, c, d]) (16 ^ 3 * w + 16 ^ 2 * x + 16 * y + z)

/-- The letters that stand for a character behind a backslash. -/
def letters : List (Char × Char) :=
  [('"', '"'), ('\\', '\\'), ('/', '/'), ('b', '\x08'), ('f', '\x0c'), ('n', '\n'), ('r', '\r'),
    ('t', '\t')]

/-- The ways to write a character between quotes. -/
inductive Character : String → Char → Prop where
  | verbatim {c : Char} : ' ' ≤ c → c ≠ '"' → c ≠ '\\' → Character (String.singleton c) c
  | letter {letter c : Char} : (letter, c) ∈ letters → Character (String.ofList ['\\', letter]) c
  | unit {text : String} {c : Char} : CodeUnit text c.toNat → Character text c
  /-- A character for which one code is not enough. -/
  | pair {first second : String} {lead trail : Nat} {c : Char} :
      CodeUnit first (0xd800 + lead) → lead < 0x400 →
      CodeUnit second (0xdc00 + trail) → trail < 0x400 →
      c.toNat = 0x10000 + 0x400 * lead + trail → Character (first ++ second) c

/-- The elements of a string. Half of a pair stands alone where the other half does not follow. -/
inductive Characters : String → List Piece → Prop where
  | nil : Characters "" []
  | char {first rest : String} {c : Char} {pieces : List Piece} :
      Character first c → Characters rest pieces → Characters (first ++ rest) (.char c :: pieces)
  | half {first rest : String} {code : Nat} {pieces : List Piece} :
      CodeUnit first code → 0xd800 ≤ code → code < 0xe000 →
      (∀ trail more, pieces = .half trail :: more → 0xdc00 ≤ code ∨ trail < 0xdc00) →
      Characters rest pieces → Characters (first ++ rest) (.half code :: pieces)

inductive Quoted : String → List Piece → Prop where
  | mk {inner : String} {pieces : List Piece} : Characters inner pieces →
      Quoted ("\"" ++ inner ++ "\"") pieces

theorem CodeUnit.read {text : String} {code : Nat} (unit : CodeUnit text code) :
    ∃ a b c d, text.toList = ['\\', 'u', a, b, c, d] ∧ code? a b c d = some code := by
  have digit : ∀ entry ∈ hexDigits, hexDigit? entry.1 = some entry.2 := by decide
  cases unit with
  | @mk a b c d w x y z first second third fourth =>
    refine ⟨a, b, c, d, String.toList_ofList, ?_⟩
    have value : ((w * 16 + x) * 16 + y) * 16 + z = 16 ^ 3 * w + 16 ^ 2 * x + 16 * y + z := by
      omega
    simp [code?, digit _ first, digit _ second, digit _ third, digit _ fourth, value]

theorem CodeUnit.readString {text : String} {code : Nat} (unit : CodeUnit text code)
    (rest : List Char) :
    readString (text.toList ++ rest) =
      (readString rest).map fun (pieces, rest) => (consCode code pieces, rest) := by
  obtain ⟨a, b, c, d, spelled, read⟩ := unit.read
  rw [spelled]
  simp only [List.cons_append, List.nil_append, Json.readString, read]
  cases Json.readString rest <;> rfl

theorem consCode_pair {lead trail : Nat} (first : lead < 0x400) (second : trail < 0x400)
    (pieces : List Piece) :
    consCode (0xd800 + lead) (consCode (0xdc00 + trail) pieces) =
      .char (Char.ofNat (0x10000 + 0x400 * lead + trail)) :: pieces := by
  have led : isLead (0xd800 + lead) = true := by
    simp [isLead]
    omega
  have follows : isLead (0xdc00 + trail) = false ∧ isTrail (0xdc00 + trail) = true := by
    simp [isLead, isTrail]
    omega
  have half : consCode (0xdc00 + trail) pieces = .half (0xdc00 + trail) :: pieces := by
    unfold consCode
    split <;> simp [consCode.cons, follows]
  rw [half]
  simp [consCode, led, follows, Nat.mul_comm]

/-- Whichever way a character is written, it is read, and the string goes on behind it. -/
theorem Character.readString {text : String} {c : Char} (written : Character text c)
    (rest : List Char) :
    readString (text.toList ++ rest) =
      (readString rest).map fun (pieces, rest) => (.char c :: pieces, rest) := by
  cases written with
  | verbatim printed quote backslash =>
    rw [String.toList_singleton, List.singleton_append]
    exact readString_verbatim (Char.not_lt.mpr printed) quote backslash rest
  | @letter letter c member =>
    have meant : ∀ entry ∈ letters, entry.1 ≠ 'u' ∧ escaped? entry.1 = some entry.2 := by decide
    rw [String.toList_ofList]
    exact readString_letter (meant _ member).1 (meant _ member).2 rest
  | unit unit =>
    have plain : isLead c.toNat = false ∧ isTrail c.toNat = false := by
      have valid : c.toNat < 0xd800 ∨ 0xdfff < c.toNat ∧ c.toNat < 0x110000 := c.valid
      simp only [isLead, isTrail, Bool.and_eq_false_iff, decide_eq_false_iff_not]
      omega
    rw [unit.readString]
    simp only [consCode_plain plain, Char.ofNat_toNat]
  | @pair first second lead trail _ before small behind narrow value =>
    rw [String.toList_append, List.append_assoc, before.readString, behind.readString,
      Option.map_map]
    simp only [Function.comp_def, consCode_pair small narrow, ← value, Char.ofNat_toNat]

theorem consCode_half {code : Nat} {pieces : List Piece} (low : 0xd800 ≤ code)
    (high : code < 0xe000)
    (alone : ∀ trail more, pieces = .half trail :: more → 0xdc00 ≤ code ∨ trail < 0xdc00) :
    consCode code pieces = .half code :: pieces := by
  have surrogate : (isLead code || isTrail code) = true := by
    simp [isLead, isTrail]
    omega
  unfold consCode
  split
  next trail more =>
    have apart : (isLead code && isTrail trail) = false := by
      have := alone trail more rfl
      simp [isLead, isTrail]
      omega
    simp [apart, consCode.cons, surrogate]
  next => simp [consCode.cons, surrogate]

theorem Characters.readString {inner : String} {pieces : List Piece}
    (written : Characters inner pieces) (rest : List Char) :
    readString (inner.toList ++ '"' :: rest) = some (pieces, rest) := by
  induction written with
  | nil => rw [String.toList_empty, List.nil_append, Json.readString]
  | char first _ ih =>
    rw [String.toList_append, List.append_assoc, first.readString, ih]
    rfl
  | half first low high alone _ ih =>
    rw [String.toList_append, List.append_assoc, first.readString, ih,
      ← consCode_half low high alone]
    rfl

theorem Quoted.drives {text : String} {pieces : List Piece} (quoted : Quoted text pieces)
    {state next : State} (step : state.step (.text pieces) = some next) :
    DrivesOn text state next := by
  cases quoted with
  | @mk inner _ written =>
    have spelled : ("\"" ++ inner ++ "\"").toList = '"' :: (inner.toList ++ ['"']) := by simp
    refine .mark spelled rfl (fun rest => ?_) step
    rw [List.append_assoc, List.singleton_append]
    change (Json.readString _).map _ = _
    rw [written.readString]
    rfl

/-! Numbers -/

def Digits (text : List Char) : Prop :=
  text ≠ [] ∧ ∀ c ∈ text, c.isDigit = true

/-- Digits, of which the first is a zero only where it is the only one. -/
def Whole (text : List Char) : Prop :=
  Digits text ∧ (text.head? = some '0' → text = ['0'])

inductive Fraction : List Char → Prop where
  | absent : Fraction []
  | present {digits : List Char} : Digits digits → Fraction ('.' :: digits)

inductive Exponent : List Char → Prop where
  | absent : Exponent []
  | present {mark : Char} {sign digits : List Char} :
      mark ∈ ['e', 'E'] → sign ∈ [[], ['+'], ['-']] → Digits digits →
      Exponent (mark :: (sign ++ digits))

inductive Numeral : List Char → Prop where
  | mk {sign whole fraction exponent : List Char} :
      sign ∈ [[], ['-']] → Whole whole → Fraction fraction → Exponent exponent →
      Numeral (sign ++ (whole ++ (fraction ++ exponent)))

theorem Digits.isDigits {text : List Char} (digits : Digits text) : isDigits text = true := by
  simp only [Json.isDigits, Bool.and_eq_true, bne_iff_ne, List.all_eq_true]
  exact digits

theorem Exponent.parted {text : List Char} (exponent : Exponent text) :
    ∀ c ∈ text.head?, c.isDigit = false ∧ c ≠ '.' := by
  have marks : ∀ mark ∈ ['e', 'E'], mark.isDigit = false ∧ mark ≠ '.' := by simp [Char.isDigit]
  cases exponent with
  | absent => nofun
  | present marked =>
    intro c first
    cases first
    exact marks _ marked

theorem Exponent.isExponent {text : List Char} (exponent : Exponent text) :
    isExponent text = true := by
  cases exponent with
  | absent => rfl
  | @present mark sign digits marked signed digits' =>
    have markOk : (mark == 'e' || mark == 'E') = true := by simpa using marked
    obtain ⟨d, others, rfl⟩ := List.exists_cons_of_ne_nil digits'.1
    have unsigned : (d == '+' || d == '-') = false := by
      have digit := digits'.2 d List.mem_cons_self
      rw [Bool.eq_false_iff]
      intro sign
      rw [Bool.or_eq_true, beq_iff_eq, beq_iff_eq] at sign
      rcases sign with rfl | rfl <;> contradiction
    simp only [List.mem_cons, List.not_mem_nil, or_false] at signed
    rcases signed with rfl | rfl | rfl
    · simp only [List.nil_append, Json.isExponent, markOk, unsigned]
      exact digits'.isDigits
    · simp only [List.singleton_append, Json.isExponent, markOk]
      exact digits'.isDigits
    · simp only [List.singleton_append, Json.isExponent, markOk]
      exact digits'.isDigits

theorem Fraction.isFraction {fraction exponent : List Char} (fractional : Fraction fraction)
    (scaled : Exponent exponent) : isFraction (fraction ++ exponent) = true := by
  cases fractional with
  | absent =>
    rw [List.nil_append, Json.isFraction]
    · exact scaled.isExponent
    · rintro text rfl
      exact (scaled.parted _ rfl).2 rfl
  | present digits =>
    obtain ⟨taken, left⟩ := run_reach digits.2 fun c first => (scaled.parted c first).1
    rw [List.cons_append, Json.isFraction, taken, left, digits.isDigits, scaled.isExponent]
    rfl

theorem Fraction.parted {fraction exponent : List Char} (fractional : Fraction fraction)
    (scaled : Exponent exponent) : ∀ c ∈ (fraction ++ exponent).head?, c.isDigit = false := by
  cases fractional with
  | absent => exact fun c first => (scaled.parted c first).1
  | present =>
    intro c first
    cases first
    rfl

theorem Whole.isUnsigned {whole fraction exponent : List Char} (integral : Whole whole)
    (fractional : Fraction fraction) (scaled : Exponent exponent) :
    isUnsigned (whole ++ (fraction ++ exponent)) = true := by
  obtain ⟨digits, zero⟩ := integral
  by_cases first : whole.head? = some '0'
  · rw [zero first]
    exact fractional.isFraction scaled
  · obtain ⟨taken, left⟩ := run_reach digits.2 (fractional.parted scaled)
    rw [Json.isUnsigned]
    · rw [taken, left, digits.isDigits, fractional.isFraction scaled]
      rfl
    · intro text same
      obtain ⟨d, others, rfl⟩ := List.exists_cons_of_ne_nil digits.1
      cases same
      exact first rfl

theorem Numeral.isNumber {text : List Char} (numeral : Numeral text) : isNumber text = true := by
  cases numeral with
  | @mk sign whole _ _ signed integral fractional scaled =>
    have unsigned := integral.isUnsigned fractional scaled
    simp only [List.mem_cons, List.not_mem_nil, or_false] at signed
    rcases signed with rfl | rfl
    · rw [List.nil_append, Json.isNumber]
      · exact unsigned
      · intro text same
        obtain ⟨d, others, rfl⟩ := List.exists_cons_of_ne_nil integral.1.1
        cases same
        exact absurd (integral.1.2 '-' List.mem_cons_self) (by decide)
    · exact unsigned

/-! Values -/

mutual

inductive Value : String → Json → Prop where
  | null : Value "null" .null
  | yes : Value "true" (.bool true)
  | no : Value "false" (.bool false)
  | number {text : String} : Numeral text.toList → Value text (.number text)
  | string {text : String} {pieces : List Piece} : Quoted text pieces → Value text (.string pieces)
  | emptyArray {ws : String} : Blank ws → Value ("[" ++ (ws ++ "]")) (.array [])
  | array {text : String} {items : List Json} : Elements text items →
      Value ("[" ++ (text ++ "]")) (.array items)
  | emptyObject {ws : String} : Blank ws → Value ("\x7b" ++ (ws ++ "\x7d")) (.object [])
  | object {text : String} {members : List (List Piece × Json)} : Members text members →
      Value ("\x7b" ++ (text ++ "\x7d")) (.object members)

inductive Element : String → Json → Prop where
  | mk {before text behind : String} {value : Json} : Blank before → Value text value →
      Blank behind → Element (before ++ (text ++ behind)) value

inductive Elements : String → List Json → Prop where
  | last {text : String} {value : Json} : Element text value → Elements text [value]
  | more {text rest : String} {value : Json} {values : List Json} : Element text value →
      Elements rest values → Elements (text ++ ("," ++ rest)) (value :: values)

inductive Member : String → List Piece × Json → Prop where
  | mk {before key behind text : String} {name : List Piece} {value : Json} : Blank before →
      Quoted key name → Blank behind → Element text value →
      Member (before ++ (key ++ (behind ++ (":" ++ text)))) (name, value)

inductive Members : String → List (List Piece × Json) → Prop where
  | last {text : String} {member : List Piece × Json} : Member text member →
      Members text [member]
  | more {text rest : String} {member : List Piece × Json} {members : List (List Piece × Json)} :
      Member text member → Members rest members →
      Members (text ++ ("," ++ rest)) (member :: members)

end

/-- Wherever an item may stand, the items and the bracket behind them complete the array. -/
def DenotesItems (text : String) (items : List Json) : Prop :=
  ∀ (state : State) (done : List Json) (frames : List Frame), state.Awaits (.array done :: frames) →
    Drives (text ++ "]") state (.behind (.array (done.reverse ++ items)) frames)

/-- A key may stand here, behind the members that are there already. -/
def State.AwaitsKey (state : State) (done : List (List Piece × Json)) (frames : List Frame) :
    Prop :=
  ∀ key, state.step (.text key) = some (.colon done key frames)

/-- Wherever a key may stand, the member is added to those before it. -/
def DenotesEntry (text : String) (member : List Piece × Json) : Prop :=
  ∀ (state : State) (done : List (List Piece × Json)) (frames : List Frame),
    state.AwaitsKey done frames → Drives text state (.behindMember (member :: done) frames)

/-- Wherever a key may stand, the members and the bracket behind them complete the object. -/
def DenotesMembers (text : String) (members : List (List Piece × Json)) : Prop :=
  ∀ (state : State) (done : List (List Piece × Json)) (frames : List Frame),
    state.AwaitsKey done frames →
    Drives (text ++ "\x7d") state (.behind (.object (done.reverse ++ members)) frames)

/-- A comma or a closing bracket parts itself from what stands before it. -/
theorem Separate.bracket {bracket : String} {c : Char} (starts : bracket.toList = [c])
    (parting : isPlainChar c = false) (text : String) : Separate (bracket ++ text) := by
  refine .of_head ?_ parting
  rw [String.toList_append, starts]
  rfl

theorem Denotes.element {before text behind : String} {value : Json} (start : Blank before)
    (denotes : Denotes text value) (ending : Blank behind) :
    Denotes (before ++ (text ++ behind)) value := by
  intro state frames awaits
  apply (start.drives state).append
  exact (denotes awaits).append (ending.drives _).drives ending.separate

theorem DenotesItems.last {text : String} {value : Json} (denotes : Denotes text value) :
    DenotesItems text [value] := by
  intro state done frames awaits
  have closes : DrivesOn "]" (.behindItem (value :: done) frames)
      (.behind (.array (value :: done).reverse) frames) := .single rfl rfl (fun _ => rfl) rfl
  rw [List.reverse_cons] at closes
  exact (denotes awaits).append closes.drives (.of_head rfl rfl)

theorem DenotesItems.more {text rest : String} {value : Json} {values : List Json}
    (denotes : Denotes text value) (others : DenotesItems rest values) :
    DenotesItems (text ++ ("," ++ rest)) (value :: values) := by
  intro state done frames awaits
  have comma : DrivesOn "," (.behindItem (value :: done) frames)
      (.anyValue (.array (value :: done) :: frames)) := .single rfl rfl (fun _ => rfl) rfl
  have further := others _ _ _ (State.awaits_any (.array (value :: done) :: frames))
  rw [List.reverse_cons, List.append_assoc, List.singleton_append] at further
  rw [String.append_assoc, String.append_assoc]
  exact (denotes awaits).append (comma.append further) (.bracket rfl rfl _)

theorem DenotesEntry.mk {before key behind text : String} {name : List Piece} {value : Json}
    (start : Blank before) (quoted : Quoted key name) (middle : Blank behind)
    (denotes : Denotes text value) :
    DenotesEntry (before ++ (key ++ (behind ++ (":" ++ text)))) (name, value) := by
  intro state done frames keyed
  have colon : DrivesOn ":" (.colon done name frames)
      (.anyValue (.object done name :: frames)) := .single rfl rfl (fun _ => rfl) rfl
  apply (start.drives state).append
  apply (quoted.drives (keyed name)).append
  apply (middle.drives _).append
  exact colon.append (denotes (State.awaits_any _))

theorem DenotesMembers.last {text : String} {member : List Piece × Json}
    (denotes : DenotesEntry text member) : DenotesMembers text [member] := by
  intro state done frames keyed
  have closes : DrivesOn "\x7d" (.behindMember (member :: done) frames)
      (.behind (.object (member :: done).reverse) frames) := .single rfl rfl (fun _ => rfl) rfl
  rw [List.reverse_cons] at closes
  exact (denotes state done frames keyed).append closes.drives (.of_head rfl rfl)

theorem DenotesMembers.more {text rest : String} {member : List Piece × Json}
    {members : List (List Piece × Json)} (denotes : DenotesEntry text member)
    (others : DenotesMembers rest members) :
    DenotesMembers (text ++ ("," ++ rest)) (member :: members) := by
  intro state done frames keyed
  have comma : DrivesOn "," (.behindMember (member :: done) frames)
      (.nextKey (member :: done) frames) := .single rfl rfl (fun _ => rfl) rfl
  have further := others (.nextKey (member :: done) frames) _ _ fun _ => rfl
  rw [List.reverse_cons, List.append_assoc, List.singleton_append] at further
  rw [String.append_assoc, String.append_assoc]
  exact (denotes state done frames keyed).append (comma.append further) (.bracket rfl rfl _)

theorem Numeral.denotes {text : String} (numeral : Numeral text.toList) :
    Denotes text (.number text) := by
  obtain ⟨full, plain⟩ := isNumber_plain numeral.isNumber
  apply plain_denotes full plain
  rw [plain?_number numeral.isNumber, String.ofList_toList]

theorem Quoted.denotes {text : String} {pieces : List Piece} (quoted : Quoted text pieces) :
    Denotes text (.string pieces) :=
  fun awaits => (quoted.drives (awaits (.text _) nofun)).drives

theorem Blank.denotesArray {ws : String} (blank : Blank ws) :
    Denotes ("[" ++ (ws ++ "]")) (.array []) := by
  intro state frames awaits
  apply (arrayBrackets awaits).opens.append
  exact (blank.drives _).append (arrayBrackets awaits).empty.drives

theorem DenotesItems.array {text : String} {items : List Json} (denotes : DenotesItems text items) :
    Denotes ("[" ++ (text ++ "]")) (.array items) :=
  fun awaits => (arrayBrackets awaits).opens.append (denotes _ [] _ (State.awaits_first _))

theorem Blank.denotesObject {ws : String} (blank : Blank ws) :
    Denotes ("\x7b" ++ (ws ++ "\x7d")) (.object []) := by
  intro state frames awaits
  apply (objectBrackets awaits).opens.append
  exact (blank.drives _).append (objectBrackets awaits).empty.drives

theorem DenotesMembers.object {text : String} {members : List (List Piece × Json)}
    (denotes : DenotesMembers text members) :
    Denotes ("\x7b" ++ (text ++ "\x7d")) (.object members) := by
  intro state frames awaits
  exact (objectBrackets awaits).opens.append (denotes (.firstKey frames) [] frames fun _ => rfl)

mutual

theorem Value.denotes : ∀ {text : String} {value : Json}, Value text value → Denotes text value
  | _, _, .null => plain_denotes (by decide) (List.all_eq_true.mp rfl) rfl
  | _, _, .yes => plain_denotes (by decide) (List.all_eq_true.mp rfl) rfl
  | _, _, .no => plain_denotes (by decide) (List.all_eq_true.mp rfl) rfl
  | _, _, .number numeral => numeral.denotes
  | _, _, .string quoted => quoted.denotes
  | _, _, .emptyArray blank => blank.denotesArray
  | _, _, .array items => DenotesItems.array items.denotes
  | _, _, .emptyObject blank => blank.denotesObject
  | _, _, .object members => DenotesMembers.object members.denotes

theorem Element.denotes : ∀ {text : String} {value : Json}, Element text value → Denotes text value
  | _, _, .mk before value behind => Denotes.element before value.denotes behind

theorem Elements.denotes : ∀ {text : String} {items : List Json},
    Elements text items → DenotesItems text items
  | _, _, .last element => DenotesItems.last element.denotes
  | _, _, .more element rest => DenotesItems.more element.denotes rest.denotes

theorem Member.denotes : ∀ {text : String} {member : List Piece × Json},
    Member text member → DenotesEntry text member
  | _, _, .mk before key behind element => DenotesEntry.mk before key behind element.denotes

theorem Members.denotes : ∀ {text : String} {members : List (List Piece × Json)},
    Members text members → DenotesMembers text members
  | _, _, .last member => DenotesMembers.last member.denotes
  | _, _, .more member rest => DenotesMembers.more member.denotes rest.denotes

end

/-- What the grammar derives is read as what it stands for. -/
theorem Element.parse? {text : String} {value : Json} (derived : Element text value) :
    parse? text = some value := by
  obtain ⟨cut, leads, reads⟩ := derived.denotes (State.awaits_any [])
  have cuts := reads [] (by simp [Parted])
  rw [List.append_nil] at cuts
  simp only [Json.parse?, cuts, marks, Option.bind_eq_bind, Option.map_some, Option.bind_some,
    List.append_nil, leads]
  rfl

end ScriptToCpp.Json
