import ScriptToCpp.Command.Run
import ScriptToCpp.Proofs.FileCompiling
import ScriptToCpp.Proofs.JsonDerivations
import Mathlib

/-! Listings of tokens can be read back. A line of the plain listing is read field by field, since a
blank or a colon ends each of them however wide it is, and the text of a token is read by undoing
the escapes of its quotation. No line contains a line break: what is not printed as it stands is
printed by its code. -/
namespace ScriptToCpp

/-- Numbers digit by digit, with the last one apart. -/
theorem toDigits_induction {base : Nat} (wide : 1 < base) {motive : Nat → List Char → Prop}
    (one : ∀ digit < base, motive digit [digit.digitChar])
    (more : ∀ value digit, 0 < value → digit < base → motive value (Nat.toDigits base value) →
      motive (base * value + digit) (Nat.toDigits base value ++ [digit.digitChar]))
    (value : Nat) : motive value (Nat.toDigits base value) := by
  induction value using Nat.strong_induction_on with
  | h value ih =>
    by_cases small : value < base
    · rw [Nat.toDigits_of_lt_base small]
      exact one value small
    · have positive : 0 < value / base := Nat.div_pos (by omega) (by omega)
      have last : value % base < base := Nat.mod_lt _ (by omega)
      have split := Nat.toDigits_append_toDigits wide positive last
      rw [Nat.div_add_mod, Nat.toDigits_of_lt_base last] at split
      have whole := more _ _ positive last (ih _ (Nat.div_lt_self (by omega) wide))
      rwa [Nat.div_add_mod, split] at whole

namespace Text

/-! Quoted texts -/

/-- How far an escape has been read. -/
inductive Escape where
  | none
  | backslash
  | brace
  | code (value : Nat)

/-- What a backslash and a sign stand for. -/
def unescape? : Char → Option Char
  | '0' => some '\x00'
  | 't' => some '\t'
  | 'r' => some '\r'
  | 'n' => some '\n'
  | '"' => some '"'
  | '\\' => some '\\'
  | _ => none

/-- The characters up to a closing quote that ends the text. -/
def unquoted? : Escape → List Char → Option (List Char)
  | _, [] => none
  | .none, c :: rest =>
    if c = '"' then if rest = [] then some [] else none
    else if c = '\\' then unquoted? .backslash rest
    else (unquoted? .none rest).map (c :: ·)
  | .backslash, c :: rest =>
    if c = 'u' then unquoted? .brace rest
    else do
      let meant ← unescape? c
      (unquoted? .none rest).map (meant :: ·)
  | .brace, c :: rest => if c = '\x7b' then unquoted? (.code 0) rest else none
  | .code value, c :: rest =>
    if c = '\x7d' then (unquoted? .none rest).map (Char.ofNat value :: ·)
    else do
      let digit ← Json.hexDigit? c
      unquoted? (.code (16 * value + digit)) rest

def unquote? : List Char → Option String
  | '"' :: rest => (unquoted? .none rest).map String.ofList
  | _ => none

theorem hexDigit?_digitChar : ∀ digit < 16,
    digit.digitChar ≠ '\x7d' ∧ Json.hexDigit? digit.digitChar = some digit := by
  decide

theorem unquoted?_digit {digit : Nat} (small : digit < 16) (value : Nat) (rest : List Char) :
    unquoted? (.code value) (digit.digitChar :: rest) =
      unquoted? (.code (16 * value + digit)) rest := by
  obtain ⟨within, read⟩ := hexDigit?_digitChar digit small
  rw [unquoted?, if_neg within, read]
  rfl

theorem unquoted?_digits (value : Nat) : ∀ rest,
    unquoted? (.code 0) (Nat.toDigits 16 value ++ rest) = unquoted? (.code value) rest := by
  refine toDigits_induction (by decide) (motive := fun value digits => ∀ rest,
    unquoted? (.code 0) (digits ++ rest) = unquoted? (.code value) rest) ?_ ?_ value
  · intro digit small rest
    rw [List.singleton_append, unquoted?_digit small]
    simp
  · intro value digit _ small ih rest
    rw [List.append_assoc, ih, List.singleton_append, unquoted?_digit small]

theorem unquoted?_sign {sign c : Char} (short : sign ≠ 'u') (meant : unescape? sign = some c)
    (rest : List Char) :
    unquoted? .none ('\\' :: sign :: rest) = (unquoted? .none rest).map (c :: ·) := by
  simp [unquoted?, short, meant]

/-- A character is read back from its escape. -/
theorem unquoted?_escape (c : Char) (rest : List Char) :
    unquoted? .none (escape c ++ rest) = (unquoted? .none rest).map (c :: ·) := by
  unfold escape
  split
  case h_7 _ _ _ _ quote backslash =>
    split
    · have read := unquoted?_digits c.toNat ('\x7d' :: rest)
      simp only [codeEscape, List.append_assoc, List.cons_append, List.nil_append]
      simp only [unquoted?, reduceCtorEq, if_true, if_false, Char.reduceEq, read, Char.ofNat_toNat]
    · rw [List.singleton_append, unquoted?, if_neg quote, if_neg backslash]
  all_goals exact unquoted?_sign (by decide) rfl rest

/-- A text is read back from its quotation. -/
theorem unquote?_quote (text : String) : unquote? (quote text).toList = some text := by
  have characters : ∀ cs : List Char, unquoted? .none (cs.flatMap escape ++ ['"']) = some cs := by
    intro cs
    induction cs with
    | nil => rfl
    | cons c cs ih =>
      rw [List.flatMap_cons, List.append_assoc, unquoted?_escape, ih]
      rfl
  simp [quote, unquote?, characters]

/-! Printed characters -/

/-- Each character of a text has a printed form of its own. -/
def Printed (text : List Char) : Prop :=
  ∀ c ∈ text, isUnprintable c = false

theorem Printed.append {first second : List Char} (left : Printed first) (right : Printed second) :
    Printed (first ++ second) :=
  fun c member => (List.mem_append.mp member).elim (left c) (right c)

theorem Printed.unbroken {text : List Char} (printed : Printed text) : '\n' ∉ text := by
  have code : isUnprintable '\n' = true := by decide +kernel
  intro within
  exact Bool.noConfusion (code.symm.trans (printed '\n' within))

theorem printed_ascii {text : List Char}
    (ascii : (text.all fun c => ' ' ≤ c && c ≤ '~') = true) : Printed text := by
  rw [List.all_eq_true] at ascii
  have apart : ∀ range ∈ unprintableRanges, range.2 < 0x20 ∨ 0x7e < range.1 := by decide +kernel
  intro c member
  have within := ascii c member
  rw [Bool.and_eq_true, decide_eq_true_eq, decide_eq_true_eq] at within
  have low : 0x20 ≤ c.toNat := within.1
  have high : c.toNat ≤ 0x7e := within.2
  rw [isUnprintable, List.any_eq_false]
  intro range listed
  have outside := apart range listed
  simp only [Bool.and_eq_true, decide_eq_true_eq]
  omega

theorem printed_digits {base : Nat} (wide : 1 < base) (most : base ≤ 16) (value : Nat) :
    Printed (Nat.toDigits base value) := by
  have digits : ∀ digit < 16, ' ' ≤ digit.digitChar ∧ digit.digitChar ≤ '~' := by decide
  have one : ∀ digit < base, Printed [digit.digitChar] := by
    intro digit small
    apply printed_ascii
    simpa using digits digit (by omega)
  exact toDigits_induction wide (motive := fun _ digits => Printed digits) one
    (fun _ digit _ small ih => ih.append (one digit small)) value

theorem printed_escape (c : Char) : Printed (escape c) := by
  unfold escape
  split
  case h_7 =>
    split
    next =>
      have digits := printed_digits (by decide) (le_refl 16) c.toNat
      exact (Printed.append (printed_ascii rfl) digits).append (printed_ascii rfl)
    next printed => simpa [Printed] using printed
  all_goals exact printed_ascii rfl

theorem printed_quote (text : String) : Printed (quote text).toList := by
  have inner : Printed (text.toList.flatMap escape) := by
    intro d member
    obtain ⟨c, _, within⟩ := List.mem_flatMap.mp member
    exact printed_escape c d within
  have quotes : Printed ['"'] := printed_ascii rfl
  rw [quote, String.toList_ofList]
  exact (quotes.append inner).append quotes

theorem printed_blanks (count : Nat) : Printed (blanks count).toList := by
  have blank : Printed [' '] := printed_ascii rfl
  intro c member
  rw [blanks, String.toList_ofList] at member
  exact blank c (List.mem_singleton.mpr (List.eq_of_mem_replicate member))

theorem printed_pad {text : String} (printed : Printed text.toList) (align : Align) (width : Nat) :
    Printed (pad align width text).toList := by
  rw [pad, String.toList_append, String.toList_append]
  exact ((printed_blanks _).append printed).append (printed_blanks _)

/-! Columns -/

/-- The longest run of characters of one sort behind any blanks, and what follows it. -/
def word (sort : Char → Bool) (text : List Char) : List Char × List Char :=
  (text.dropWhile (· == ' ')).span sort

theorem word_eq {sort : Char → Bool} {found rest : List Char} (count : Nat) (full : found ≠ [])
    (solid : ∀ c ∈ found, c ≠ ' ' ∧ sort c = true) (parted : ∀ c ∈ rest.head?, sort c = false) :
    word sort (List.replicate count ' ' ++ (found ++ rest)) = (found, rest) := by
  obtain ⟨c, others, rfl⟩ := List.exists_cons_of_ne_nil full
  have start : c ≠ ' ' := (solid c List.mem_cons_self).1
  obtain ⟨taken, left⟩ := Json.run_reach (fun d member => (solid d member).2) parted
  rw [word, List.dropWhile_append_of_pos (by simp), List.cons_append,
    List.dropWhile_cons_of_neg (by simpa using start), ← List.cons_append,
    List.span_eq_takeWhile_dropWhile, taken, left]

end Text

namespace Kind

def ofName? (name : List Char) : Option Kind :=
  all.find? fun kind => kind.name.toList = name

theorem ofName?_name (kind : Kind) : ofName? kind.name.toList = some kind := by
  cases kind <;> decide

theorem ofTag?_tag (kind : Kind) : ofTag? kind.tag = some kind := by
  cases kind <;> decide

theorem name_ne_nil (kind : Kind) : kind.name.toList ≠ [] := by
  cases kind <;> decide

theorem name_solid (kind : Kind) : ∀ c ∈ kind.name.toList, c ≠ ' ' ∧ (c != ' ') = true := by
  have solid : kind.name.toList.all (· != ' ') = true := by cases kind <;> decide
  intro c member
  have other := List.all_eq_true.mp solid c member
  exact ⟨bne_iff_ne.mp other, other⟩

theorem printed_name (kind : Kind) : Text.Printed kind.name.toList := by
  apply Text.printed_ascii
  cases kind <;> decide

end Kind

namespace Token

/-! The plain listing -/

def ofListingLine? (line : List Char) : Option Token := do
  let (row, ':' :: rest) := Text.word Char.isDigit line | none
  let (column, rest) := Text.word Char.isDigit rest
  let (name, rest) := Text.word (· != ' ') rest
  let kind ← Kind.ofName? name
  let text ← Text.unquote? (rest.dropWhile (· == ' '))
  return ⟨kind, text, ⟨Nat.ofDigitChars 10 row 0, Nat.ofDigitChars 10 column 0⟩⟩

/-- What stands behind the last line break is no line. -/
def ofListing? (listing : String) : Option (List Token) :=
  (listing.toList.splitOn '\n').dropLast.mapM ofListingLine?

/-- The fields of a line, each with what follows it. -/
theorem listingLine_fields (token : Token) : ∃ (before between behind : Nat)
    (located named : List Char),
    token.listingLine.toList =
      List.replicate before ' ' ++ (Nat.toDigits 10 token.location.line ++ ':' :: located) ∧
    located = List.replicate 0 ' ' ++ (Nat.toDigits 10 token.location.column ++
      (List.replicate (between + 1) ' ' ++ (token.kind.name.toList ++ named))) ∧
    named = List.replicate (behind + 1) ' ' ++ (Text.quote token.text).toList := by
  refine ⟨4 - (toString token.location.line).length, 3 - (toString token.location.column).length,
    10 - token.kind.name.length, _, _, ?_, rfl, rfl⟩
  simp [listingLine, Kind.column, Text.pad, Text.cut, Text.Align.before, Text.blanks,
    List.replicate_succ']

theorem digits_solid (value : Nat) : ∀ c ∈ Nat.toDigits 10 value, c ≠ ' ' ∧ c.isDigit = true := by
  intro c member
  have digit := Nat.isDigit_of_mem_toDigits (by decide) (by decide) member
  refine ⟨?_, digit⟩
  rintro rfl
  contradiction

/-- A token is read back from its line. -/
theorem ofListingLine?_listingLine (token : Token) :
    ofListingLine? token.listingLine.toList = some token := by
  obtain ⟨before, between, behind, located, named, line, column, text⟩ := token.listingLine_fields
  have row : Text.word Char.isDigit token.listingLine.toList =
      (Nat.toDigits 10 token.location.line, ':' :: located) := by
    rw [line]
    exact Text.word_eq before Nat.toDigits_ne_nil (digits_solid _) (by simp)
  have place : Text.word Char.isDigit located = (Nat.toDigits 10 token.location.column,
      List.replicate (between + 1) ' ' ++ (token.kind.name.toList ++ named)) := by
    rw [column]
    exact Text.word_eq 0 Nat.toDigits_ne_nil (digits_solid _) (by simp [List.replicate_succ])
  have name : Text.word (· != ' ')
      (List.replicate (between + 1) ' ' ++ (token.kind.name.toList ++ named)) =
      (token.kind.name.toList, named) :=
    Text.word_eq _ token.kind.name_ne_nil token.kind.name_solid
      (by simp [text, List.replicate_succ])
  have quoted : named.dropWhile (· == ' ') = (Text.quote token.text).toList := by
    rw [text, List.dropWhile_append_of_pos (by simp)]
    simp [Text.quote]
  simp [ofListingLine?, row, place, name, quoted, Kind.ofName?_name, Text.unquote?_quote]

theorem printed_listingLine (token : Token) : Text.Printed token.listingLine.toList := by
  have number : ∀ value : Nat, Text.Printed (toString value).toList := by
    intro value
    rw [Nat.toString_eq_ofList_toDigits, String.toList_ofList]
    exact Text.printed_digits (by decide) (by decide) value
  have colon : Text.Printed ":".toList := Text.printed_ascii rfl
  have blank : Text.Printed " ".toList := Text.printed_ascii rfl
  simp only [listingLine, String.toList_append]
  have place := ((Text.printed_pad (number token.location.line) .right 4).append colon).append
    (Text.printed_pad (number token.location.column) .left 3)
  have kind : Text.Printed (token.kind.column .left 10 none).toList :=
    Text.printed_pad token.kind.printed_name .left 10
  exact (((place.append blank).append kind).append blank).append (Text.printed_quote token.text)

/-- The lines of a listing are those of its tokens, and nothing follows the last one. -/
theorem splitOn_listing (tokens : List Token) :
    (listing tokens).toList.splitOn '\n' = tokens.map (·.listingLine.toList) ++ [[]] := by
  induction tokens with
  | nil => rfl
  | cons token tokens ih =>
    have first : (listing (token :: tokens)).toList =
        token.listingLine.toList ++ '\n' :: (listing tokens).toList := by
      simp [listing]
    rw [first, List.splitOn_append_cons_self_of_not_mem token.printed_listingLine.unbroken, ih]
    rfl

/-- Tokens are read back from their listing. -/
theorem ofListing?_listing (tokens : List Token) : ofListing? (listing tokens) = some tokens := by
  rw [ofListing?, splitOn_listing, List.dropLast_concat]
  induction tokens with
  | nil => rfl
  | cons token tokens ih =>
    rw [List.map_cons, List.mapM_cons, ih, ofListingLine?_listingLine]
    rfl

/-! The structured listing -/

def nat? : Json → Option Nat
  | .number spelling => spelling.toNat?
  | _ => none

/-- The value of the first member of a name. -/
def member? (name : String) (members : List (List Json.Piece × Json)) : Option Json :=
  (members.find? fun member => Json.textOf? member.1 = some name).map Prod.snd

def ofJson? : Json → Option Token
  | .object members => do
    let tag ← (member? "kind" members).bind Json.text?
    let text ← (member? "text" members).bind Json.text?
    let line ← (member? "line" members).bind nat?
    let column ← (member? "position" members).bind nat?
    let kind ← Kind.ofTag? tag
    return ⟨kind, text, ⟨line, column⟩⟩
  | _ => none

def ofJsonListing? (listing : String) : Option (List Token) :=
  match Json.parse? listing with
  | some (.array items) => items.mapM ofJson?
  | _ => none

theorem ofJson?_toJson (token : Token) : ofJson? token.toJson = some token := by
  simp [ofJson?, toJson, member?, Json.textOf?_pieces, Json.text?, Json.ofString,
    Json.ofNat, nat?, Kind.ofTag?_tag]

theorem head?_toDigits (value : Nat) : 0 < value → (Nat.toDigits 10 value).head? ≠ some '0' := by
  refine toDigits_induction (by decide) (motive := fun value digits =>
    0 < value → digits.head? ≠ some '0') ?_ ?_ value
  · intro digit _ positive zero
    rw [List.head?_cons, Option.some.injEq, Nat.digitChar_eq_zero] at zero
    omega
  · intro value digit positive _ ih _ zero
    rw [List.head?_append, Option.or_of_isSome (by simp [Nat.toDigits_ne_nil])] at zero
    exact ih positive zero

theorem whole_toDigits (value : Nat) : Json.Whole (Nat.toDigits 10 value) := by
  refine ⟨⟨Nat.toDigits_ne_nil, fun c member => (digits_solid value c member).2⟩, fun zero => ?_⟩
  rcases Nat.eq_zero_or_pos value with rfl | positive
  · rfl
  · exact absurd zero (head?_toDigits value positive)

theorem ofNat_readable (value : Nat) : (Json.ofNat value).Readable := by
  have numeral : Json.Numeral ([] ++ (Nat.toDigits 10 value ++ ([] ++ []))) :=
    .mk List.mem_cons_self (whole_toDigits value) .absent .absent
  apply Json.Readable.number
  rw [Nat.toString_eq_ofList_toDigits, String.toList_ofList]
  simpa using numeral.isNumber

theorem toJson_readable (token : Token) : token.toJson.Readable := by
  apply Json.Readable.object
  · intro member within
    simp only [List.mem_cons, List.not_mem_nil, or_false] at within
    rcases within with rfl | rfl | rfl | rfl <;> exact ⟨_, rfl⟩
  · intro member within
    simp only [List.mem_cons, List.not_mem_nil, or_false] at within
    rcases within with rfl | rfl | rfl | rfl
    · exact .string _
    · exact .string _
    · exact ofNat_readable _
    · exact ofNat_readable _

theorem parse?_jsonListing (tokens : List Token) :
    Json.parse? (jsonListing tokens) = some (.array (tokens.map toJson)) := by
  have readable : (Json.array (tokens.map toJson)).Readable := by
    apply Json.Readable.array
    intro item member
    obtain ⟨token, _, rfl⟩ := List.mem_map.mp member
    exact token.toJson_readable
  have element := Json.parse?_eq_some_iff.mp (Json.parse?_render readable)
  exact Json.parse?_eq_some_iff.mpr (element.blank (Json.lineBreak_blank 0))

/-- Tokens are read back from their structured listing. -/
theorem ofJsonListing?_jsonListing (tokens : List Token) :
    ofJsonListing? (jsonListing tokens) = some tokens := by
  rw [ofJsonListing?, parse?_jsonListing]
  dsimp only
  induction tokens with
  | nil => rfl
  | cons token tokens ih =>
    rw [List.map_cons, List.mapM_cons, ih, ofJson?_toJson]
    rfl

end Token

theorem Command.runListTokens_run {tree : FileTree} {file : Path} {source : String}
    {tokens : List Token} (read : tree.text file = .ok source)
    (scanned : tokenize source = .ok tokens) (json : Bool) :
    runListTokens (m := StateM FileTree) file json tree =
      (.success (if json then Token.jsonListing tokens else Token.listing tokens), tree) := by
  unfold runListTokens
  simp only [bind, StateT.bind, FileTree.readSource_run, read, Except.mapError, scanned]
  rfl

/-- Both listings of a script tell its tokens apart. The plain one has a line of printed characters
for each token; the structured one is a document that holds the tokens in order. -/
theorem listings_keep_tokens {tree : FileTree} {file : Path} {source : String} {tokens : List Token}
    (read : tree.text file = .ok source) (scanned : tokenize source = .ok tokens) :
    (∃ plain, Command.runListTokens (m := StateM FileTree) file false tree =
        (.success plain, tree) ∧
      (∃ lines, plain.toList.splitOn '\n' = lines ++ [[]] ∧ lines.length = tokens.length ∧
        ∀ line ∈ lines, Text.Printed line) ∧
      Token.ofListing? plain = some tokens ∧
      ∀ others, Token.listing others = plain → others = tokens) ∧
    ∃ json, Command.runListTokens (m := StateM FileTree) file true tree = (.success json, tree) ∧
      Json.parse? json = some (.array (tokens.map Token.toJson)) ∧
      Token.ofJsonListing? json = some tokens := by
  refine ⟨⟨_, Command.runListTokens_run read scanned false, ⟨_, Token.splitOn_listing tokens,
    List.length_map _, ?_⟩, Token.ofListing?_listing tokens, ?_⟩,
    ⟨_, Command.runListTokens_run read scanned true, Token.parse?_jsonListing tokens,
      Token.ofJsonListing?_jsonListing tokens⟩⟩
  · intro line member
    obtain ⟨token, _, rfl⟩ := List.mem_map.mp member
    exact token.printed_listingLine
  · intro others same
    have again := Token.ofListing?_listing others
    rw [same] at again
    exact Option.some.inj (again.symm.trans (Token.ofListing?_listing tokens))

/-- An accent without its letter and a line separator stay within the line of their token. -/
theorem odd_characters_listed :
    let source := "x = \"\u0301\u2028\""
    let tree := (FileTree.ofWorkingDirectory []).insert [Request.bytesOf "s"] (.file source.toUTF8)
    let tokens : List Token := [⟨.identifier, "x", ⟨1, 1⟩⟩, ⟨.eq, "=", ⟨1, 3⟩⟩,
      ⟨.string, "\u0301\u2028", ⟨1, 5⟩⟩, ⟨.newline, "\n", ⟨1, 9⟩⟩, ⟨.eof, "", ⟨2, 1⟩⟩]
    tree.text (.ofString "s") = .ok source ∧ tokenize source = .ok tokens ∧
    (∃ plain lines, Command.runListTokens (m := StateM FileTree) (.ofString "s") false tree =
        (.success plain, tree) ∧
      plain.toList.splitOn '\n' = lines ++ [[]] ∧ lines.length = 5 ∧
      Token.ofListing? plain = some tokens) ∧
    ∃ json, Command.runListTokens (m := StateM FileTree) (.ofString "s") true tree =
        (.success json, tree) ∧ Token.ofJsonListing? json = some tokens := by
  intro source tree tokens
  have read : tree.text (.ofString "s") = .ok source := by cbv
  have scanned : tokenize source = .ok tokens := by cbv
  obtain ⟨⟨plain, ran, ⟨lines, split, count, _⟩, recovered, _⟩, json, written, _, decoded⟩ :=
    listings_keep_tokens read scanned
  exact ⟨read, scanned, ⟨plain, lines, ran, split, count, recovered⟩, json, written, decoded⟩

end ScriptToCpp
