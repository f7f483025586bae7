import ScriptToCpp.Json.Printer
import ScriptToCpp.Json.Reader
import Mathlib.Data.List.Forall2

/-! JSON that was written can be read back. The text of a value is cut into the marks of the value,
whatever follows it; and the marks of a value take the machine from before the value to behind it,
whatever is open around it. -/
namespace ScriptToCpp.Json

/-! Strings -/

theorem consCode_plain {code : Nat} (plain : isLead code = false ∧ isTrail code = false)
    (pieces : List Piece) : consCode code pieces = .char (Char.ofNat code) :: pieces := by
  unfold consCode
  split
  · simp [consCode.cons, plain]
  · simp [consCode.cons, plain]

theorem code?_codeDigits {code : Nat} (small : code < 32) :
    ∃ a b c d, codeDigits code = [a, b, c, d] ∧ code? a b c d = some code := by
  have all : ∀ code < 32, (codeDigits code).length = 4 ∧
      code? ((codeDigits code).getD 0 ' ') ((codeDigits code).getD 1 ' ')
        ((codeDigits code).getD 2 ' ') ((codeDigits code).getD 3 ' ') = some code := by
    decide
  obtain ⟨four, read⟩ := all code small
  match digits : codeDigits code, four with
  | [a, b, c, d], _ =>
    rw [digits] at read
    exact ⟨a, b, c, d, rfl, read⟩

theorem readString_letter {letter c : Char} (short : letter ≠ 'u') (meant : escaped? letter = some c)
    (text : List Char) :
    readString ('\\' :: letter :: text) =
      (readString text).map fun (pieces, rest) => (.char c :: pieces, rest) := by
  rw [readString]
  · rw [meant]
    cases readString text <;> rfl
  · intro _ _ _ _ _ long
    exact absurd long short

theorem readString_verbatim {c : Char} (printed : ¬ c < ' ') (quote : c ≠ '"')
    (backslash : c ≠ '\\') (text : List Char) :
    readString (c :: text) =
      (readString text).map fun (pieces, rest) => (.char c :: pieces, rest) := by
  rw [readString]
  · rw [if_neg (by simp [printed, backslash])]
    cases readString text <;> rfl
  · exact quote
  · intro _ _ _ _ _ escape
    exact absurd escape backslash
  · intro _ _ escape
    exact absurd escape backslash

theorem readString_code {code : Nat} (small : code < 32) (text : List Char) :
    readString (codeEscape code ++ text) =
      (readString text).map fun (pieces, rest) => (.char (Char.ofNat code) :: pieces, rest) := by
  have plain : isLead code = false ∧ isTrail code = false := by
    simp only [isLead, isTrail, Bool.and_eq_false_iff, decide_eq_false_iff_not]
    omega
  obtain ⟨a, b, c, d, digits, read⟩ := code?_codeDigits small
  simp only [codeEscape, digits, List.cons_append, List.nil_append, readString, read]
  cases readString text with
  | none => rfl
  | some found => simp [consCode_plain plain]

/-- A character that was escaped is read back. -/
theorem readString_escape (c : Char) (text : List Char) :
    readString (escape c ++ text) =
      (readString text).map fun (pieces, rest) => (.char c :: pieces, rest) := by
  unfold escape
  split
  case h_8 quote backslash _ _ _ _ _ =>
    split
    next control =>
      have read := readString_code (show c.toNat < 32 from control) text
      rwa [Char.ofNat_toNat] at read
    next printed => exact readString_verbatim printed quote backslash text
  all_goals exact readString_letter (by decide) rfl text

/-- A string is read up to its closing quote. -/
theorem readString_pieces (characters : List Char) (rest : List Char) :
    readString ((characters.map Piece.char).flatMap Piece.render ++ '"' :: rest) =
      some (characters.map .char, rest) := by
  induction characters with
  | nil => rw [List.map_nil, List.flatMap_nil, List.nil_append, readString]
  | cons c others ih =>
    rw [List.map_cons, List.flatMap_cons, List.append_assoc, Piece.render, readString_escape, ih]
    rfl

/-! Texts that lead the machine from state to state -/

theorem marks_blank {c : Char} (blank : isSpace c = true) (text : List Char) :
    marks (c :: text) = marks text := by
  rw [marks, if_pos blank]

theorem marks_mark {c : Char} {text rest : List Char} {mark : Mark} (blank : isSpace c = false)
    (read : readMark c text = some (mark, rest)) :
    marks (c :: text) = (marks rest).map (mark :: ·) := by
  rw [marks, if_neg (by simp [blank])]
  split <;> simp_all

/-- No number or word goes on with the text. -/
def Parted (text : List Char) : Prop :=
  ∀ c ∈ text.head?, isPlainChar c = false

/-- The text parts itself from what stands before it. -/
def Separate (text : String) : Prop :=
  ∀ rest, Parted rest → Parted (text.toList ++ rest)

theorem Separate.append {first second : String} (left : Separate first)
    (right : Separate second) : Separate (first ++ second) := by
  intro rest parted
  rw [String.toList_append, List.append_assoc]
  exact left _ (right rest parted)

theorem Separate.of_head {text : String} {c : Char} (starts : text.toList.head? = some c)
    (parting : isPlainChar c = false) : Separate text := by
  intro rest _ first found
  rw [List.head?_append, starts] at found
  cases found
  exact parting

theorem space_notPlain {c : Char} (space : isSpace c = true) : isPlainChar c = false := by
  simp only [isSpace, Bool.or_eq_true, beq_iff_eq] at space
  rcases space with ((rfl | rfl) | rfl) | rfl <;> decide

/-- The text is white space. -/
def Blank (text : String) : Prop :=
  ∀ c ∈ text.toList, isSpace c = true

theorem Blank.separate {text : String} (blank : Blank text) : Separate text := by
  intro rest parted
  cases start : text.toList with
  | nil => exact parted
  | cons c spaces =>
    intro first found
    cases found
    exact space_notPlain (blank c (by rw [start]; exact List.mem_cons_self))

theorem indentation_blank (depth : Nat) : Blank (indentation depth) := by
  intro c member
  rw [indentation, String.toList_ofList] at member
  rw [List.eq_of_mem_replicate member]
  rfl

theorem lineBreak_blank (depth : Nat) : Blank ("\n" ++ indentation depth) := by
  intro c member
  rw [String.toList_append, List.mem_append] at member
  rcases member with first | later
  · cases List.mem_singleton.mp first
    rfl
  · exact indentation_blank depth c later

/-- The text is cut into marks that take the machine from one state to the other, whatever follows
that is parted from the text. -/
def Drives (text : String) (state next : State) : Prop :=
  ∃ cut : List Mark, cut.foldlM State.step state = some next ∧
    ∀ rest, Parted rest → marks (text.toList ++ rest) = (marks rest).map (cut ++ ·)

/-- The same, whatever follows. -/
def DrivesOn (text : String) (state next : State) : Prop :=
  ∃ cut : List Mark, cut.foldlM State.step state = some next ∧
    ∀ rest, marks (text.toList ++ rest) = (marks rest).map (cut ++ ·)

section
variable {text more : String} {state middle next : State}

theorem DrivesOn.drives (drives : DrivesOn text state next) : Drives text state next := by
  obtain ⟨cut, leads, reads⟩ := drives
  exact ⟨cut, leads, fun rest _ => reads rest⟩

theorem DrivesOn.append (first : DrivesOn text state middle) (second : Drives more middle next) :
    Drives (text ++ more) state next := by
  obtain ⟨cut, leads, reads⟩ := first
  obtain ⟨further, leads', reads'⟩ := second
  refine ⟨cut ++ further, ?_, fun rest parted => ?_⟩
  · rw [List.foldlM_append, leads]
    exact leads'
  · rw [String.toList_append, List.append_assoc, reads, reads' rest parted]
    simp only [Option.map_map, Function.comp_def, List.append_assoc]

theorem Drives.append (first : Drives text state middle) (second : Drives more middle next)
    (parted : Separate more) : Drives (text ++ more) state next := by
  obtain ⟨cut, leads, reads⟩ := first
  obtain ⟨further, leads', reads'⟩ := second
  refine ⟨cut ++ further, ?_, fun rest bound => ?_⟩
  · rw [List.foldlM_append, leads]
    exact leads'
  · rw [String.toList_append, List.append_assoc, reads _ (parted rest bound), reads' rest bound]
    simp only [Option.map_map, Function.comp_def, List.append_assoc]

theorem Blank.drives (blank : Blank text) (state : State) : DrivesOn text state state := by
  refine ⟨[], rfl, fun rest => ?_⟩
  unfold Blank at blank
  generalize text.toList = spaces at blank
  induction spaces with
  | nil => simp
  | cons c spaces ih =>
    rw [List.forall_mem_cons] at blank
    rw [List.cons_append, marks_blank blank.1, ih blank.2]

theorem DrivesOn.mark {c : Char} {inner : List Char} {mark : Mark}
    (same : text.toList = c :: inner) (blank : isSpace c = false)
    (read : ∀ rest, readMark c (inner ++ rest) = some (mark, rest))
    (step : state.step mark = some next) : DrivesOn text state next := by
  refine ⟨[mark], by simp [step], fun rest => ?_⟩
  rw [same, List.cons_append, marks_mark blank (read rest)]
  rfl

end

/-- Brackets around entries: how they open, how each entry is added to those before it, and how they
close. -/
structure Brackets {α : Type} (opening closing : String) (entry : String → α → Prop)
    (wrap : List α → Json) (state : State) (frames : List Frame) where
  first : State
  behind : List α → State
  opens : DrivesOn opening state first
  empty : DrivesOn closing first (.behind (wrap []) frames)
  starts : ∀ {line x}, entry line x → Drives line first (behind [x])
  adds : ∀ {line x done}, entry line x →
    ∃ middle, DrivesOn "," (behind done) middle ∧ Drives line middle (behind (x :: done))
  closes : ∀ done, DrivesOn closing (behind done) (.behind (wrap done.reverse) frames)

namespace Brackets
variable {α : Type} {opening closing : String} {entry : String → α → Prop} {wrap : List α → Json}
  {state : State} {frames : List Frame} {indent ending : String} {lines : List String}
  {entries : List α}

/-- The lines of the entries behind the first one. -/
def further (indent : String) (lines : List String) : String :=
  String.join (lines.map fun next => "," ++ indent ++ next)

theorem further_cons (indent line : String) (lines : List String) (ending : String) :
    further indent (line :: lines) ++ ending =
      "," ++ (indent ++ (line ++ (further indent lines ++ ending))) := by
  simp only [further, List.map_cons, String.join_cons, String.append_assoc]

theorem further_separate (parted : Separate ending) (indent : String) (lines : List String) :
    Separate (further indent lines ++ ending) := by
  cases lines with
  | nil => exact Separate.append (fun _ => id) parted
  | cons line lines =>
    rw [further_cons]
    apply Separate.of_head
    · rw [String.toList_append]
      rfl
    · decide

theorem further_drives (brackets : Brackets opening closing entry wrap state frames)
    (blank : Blank indent) (parted : Separate ending)
    (ends : ∀ done, Drives ending (brackets.behind done) (.behind (wrap done.reverse) frames))
    (each : List.Forall₂ entry lines entries) (done : List α) :
    Drives (further indent lines ++ ending) (brackets.behind done)
      (.behind (wrap (done.reverse ++ entries)) frames) := by
  induction each generalizing done with
  | nil =>
    rw [further, List.map_nil, String.join_nil, String.empty_append, List.append_nil]
    exact ends done
  | @cons line x lines entries first _ ih =>
    obtain ⟨middle, comma, added⟩ := brackets.adds first
    have later := ih (x :: done)
    rw [List.reverse_cons, List.append_assoc, List.singleton_append] at later
    rw [further_cons]
    apply comma.append
    apply (blank.drives middle).append
    exact added.append later (further_separate parted indent lines)

/-- Whatever the entries, brackets with the lines of the entries between them stand for what the
entries make up. -/
theorem enclose_drives (brackets : Brackets opening closing entry wrap state frames)
    (parted : Separate closing) (depth : Nat) (each : List.Forall₂ entry lines entries) :
    Drives (enclose opening closing depth lines) state (.behind (wrap entries) frames) := by
  cases each with
  | nil => exact brackets.opens.append brackets.empty.drives
  | @cons line x lines entries first rest =>
    have last := lineBreak_blank depth
    have whole : enclose opening closing depth (line :: lines) =
        opening ++ (("\n" ++ indentation (depth + 1)) ++ (line ++
          (further ("\n" ++ indentation (depth + 1)) lines ++
            (("\n" ++ indentation depth) ++ closing)))) := by
      simp only [enclose, further, String.append_assoc]
    have ends : ∀ done, Drives (("\n" ++ indentation depth) ++ closing) (brackets.behind done)
        (.behind (wrap done.reverse) frames) :=
      fun done => (last.drives _).append (brackets.closes done).drives
    have others := brackets.further_drives (lineBreak_blank (depth + 1))
      (last.separate.append parted) ends rest [x]
    rw [whole]
    apply brackets.opens.append
    apply ((lineBreak_blank (depth + 1)).drives _).append
    exact (brackets.starts first).append others
      (further_separate (last.separate.append parted) _ lines)

end Brackets

/-- A value may start here, inside what is open. An array that is empty so far may also end. -/
def State.Awaits (state : State) (frames : List Frame) : Prop :=
  ∀ mark, mark ≠ .endArray → state.step mark = State.enter frames mark

theorem State.awaits_any (frames : List Frame) : (State.anyValue frames).Awaits frames :=
  fun _ _ => rfl

theorem State.awaits_first (frames : List Frame) :
    (State.firstItem frames).Awaits (.array [] :: frames) := by
  intro mark different
  cases mark with
  | endArray => contradiction
  | _ => rfl

/-- Wherever a value may start, the text takes the machine behind the given one. -/
def Denotes (text : String) (value : Json) : Prop :=
  ∀ {state frames}, State.Awaits state frames → Drives text state (.behind value frames)

/-- A member as it stands on its line. -/
def DenotesMember (line : String) (member : List Piece × Json) : Prop :=
  ∃ text, line = renderString member.1 ++ ": " ++ text ∧ Denotes text member.2 ∧
    ∃ characters : List Char, member.1 = characters.map .char

theorem readMark_string (characters rest : List Char) :
    readMark '"' ((characters.map Piece.char).flatMap Piece.render ++ ['"'] ++ rest) =
      some (.text (characters.map .char), rest) := by
  rw [List.append_assoc, List.singleton_append]
  change (readString _).map _ = _
  rw [readString_pieces]
  rfl

theorem string_drives {state next : State} (characters : List Char)
    (step : state.step (.text (characters.map .char)) = some next) :
    DrivesOn (renderString (characters.map .char)) state next := by
  have spelled : (renderString (characters.map .char)).toList =
      '"' :: ((characters.map Piece.char).flatMap Piece.render ++ ['"']) := by
    rw [renderString, String.toList_ofList]
    rfl
  exact .mark spelled rfl (readMark_string characters) step

theorem readMark_plain {c : Char} (plain : isPlainChar c = true) (text : List Char) :
    readMark c text = (plain? (c :: text.takeWhile isPlainChar)).map fun value =>
      (.plain value, text.dropWhile isPlainChar) := by
  unfold readMark
  split
  case h_8 => rw [if_pos plain]
  all_goals exact absurd plain (by decide)

/-- A run of characters of one sort reaches as far as no other one follows it. -/
theorem run_reach {sort : Char → Bool} {run rest : List Char} (inside : ∀ c ∈ run, sort c = true)
    (parted : ∀ c ∈ rest.head?, sort c = false) :
    (run ++ rest).takeWhile sort = run ∧ (run ++ rest).dropWhile sort = rest := by
  have stops : rest.takeWhile sort = [] ∧ rest.dropWhile sort = rest := by
    cases rest with
    | nil => exact ⟨rfl, rfl⟩
    | cons first rest => simp [parted first rfl]
  rw [List.takeWhile_append_of_pos inside, List.dropWhile_append_of_pos inside, stops.1, stops.2,
    List.append_nil]
  exact ⟨rfl, rfl⟩

/-- A number or a word. -/
theorem plain_denotes {text : String} {value : Json} (full : text.toList ≠ [])
    (plain : ∀ c ∈ text.toList, isPlainChar c = true) (read : plain? text.toList = some value) :
    Denotes text value := by
  intro state frames awaits
  refine ⟨[.plain value], ?_, fun rest parted => ?_⟩
  · simp [awaits (.plain value) nofun, State.enter]
  · obtain ⟨c, letters, start⟩ := List.exists_cons_of_ne_nil full
    rw [start] at plain read ⊢
    rw [List.forall_mem_cons] at plain
    obtain ⟨taken, left⟩ := run_reach plain.2 parted
    have mark : readMark c (letters ++ rest) = some (.plain value, rest) := by
      rw [readMark_plain plain.1, taken, left, read]
      rfl
    have solid : isSpace c = false := by
      rw [Bool.eq_false_iff]
      intro space
      rw [space_notPlain space] at plain
      exact absurd plain.1 Bool.false_ne_true
    rw [List.cons_append, marks_mark solid mark]
    rfl

/-- A bracket, a comma or a colon. -/
theorem DrivesOn.single {text : String} {c : Char} {mark : Mark} {state next : State}
    (same : text.toList = [c]) (blank : isSpace c = false)
    (read : ∀ rest, readMark c rest = some (mark, rest)) (step : state.step mark = some next) :
    DrivesOn text state next :=
  .mark same blank read step

def arrayBrackets {state : State} {frames : List Frame} (awaits : state.Awaits frames) :
    Brackets "[" "]" Denotes .array state frames where
  first := .firstItem frames
  behind done := .behindItem done frames
  opens := .single rfl rfl (fun _ => rfl) (awaits .beginArray nofun)
  empty := .single rfl rfl (fun _ => rfl) rfl
  starts denotes := denotes (State.awaits_first frames)
  adds denotes := ⟨_, .single rfl rfl (fun _ => rfl) rfl, denotes (State.awaits_any _)⟩
  closes _ := .single rfl rfl (fun _ => rfl) rfl

/-- The key, the colon and the value, from wherever a key may stand. -/
theorem DenotesMember.drives {line : String} {member : List Piece × Json}
    (denotes : DenotesMember line member) {state : State} {members : List (List Piece × Json)}
    {frames : List Frame}
    (step : state.step (.text member.1) = some (.colon members member.1 frames)) :
    Drives line state (.behindMember (member :: members) frames) := by
  obtain ⟨key, value⟩ := member
  obtain ⟨text, rfl, denotes, characters, rfl⟩ := denotes
  have colon : DrivesOn ":" (.colon members (characters.map .char) frames)
      (.anyValue (.object members (characters.map .char) :: frames)) :=
    .single rfl rfl (fun _ => rfl) rfl
  have space : Blank " " := by
    intro c member
    cases List.mem_singleton.mp member
    rfl
  have parts : renderString (characters.map .char) ++ ": " ++ text =
      renderString (characters.map .char) ++ (":" ++ (" " ++ text)) := by
    have both : ": " = ":" ++ " " := by decide
    rw [both]
    simp only [String.append_assoc]
  rw [parts]
  apply (string_drives characters step).append
  apply colon.append
  exact (space.drives _).append (denotes (State.awaits_any _))

def objectBrackets {state : State} {frames : List Frame} (awaits : state.Awaits frames) :
    Brackets "\x7b" "\x7d" DenotesMember .object state frames where
  first := .firstKey frames
  behind done := .behindMember done frames
  opens := .single rfl rfl (fun _ => rfl) (awaits .beginObject nofun)
  empty := .single rfl rfl (fun _ => rfl) rfl
  starts denotes := denotes.drives rfl
  adds denotes := ⟨_, .single rfl rfl (fun _ => rfl) rfl, denotes.drives rfl⟩
  closes _ := .single rfl rfl (fun _ => rfl) rfl

/-- Numbers are spelled as numbers are, and strings consist of characters. -/
inductive Readable : Json → Prop where
  | null : Readable .null
  | bool (value : Bool) : Readable (.bool value)
  | number {spelling : String} : isNumber spelling.toList = true → Readable (.number spelling)
  | string (characters : List Char) : Readable (.string (characters.map .char))
  | array {items : List Json} : (∀ item ∈ items, Readable item) → Readable (.array items)
  | object {members : List (List Piece × Json)} :
      (∀ member ∈ members, ∃ characters : List Char, member.1 = characters.map .char) →
      (∀ member ∈ members, Readable member.2) → Readable (.object members)

theorem renderItems_eq (depth : Nat) (items : List Json) :
    renderItems depth items = items.map (renderAt depth) := by
  induction items with
  | nil => rfl
  | cons item items ih => rw [renderItems, ih, List.map_cons]

theorem renderMembers_eq (depth : Nat) (members : List (List Piece × Json)) :
    renderMembers depth members = members.map fun member =>
      renderString member.1 ++ ": " ++ renderAt depth member.2 := by
  induction members with
  | nil => rfl
  | cons member members ih => rw [renderMembers, ih, List.map_cons, renderMember]

theorem digit_plain {c : Char} (digit : c.isDigit = true) : isPlainChar c = true := by
  simp [isPlainChar, Char.isAlphanum, digit]

theorem isDigits_plain {text : List Char} (digits : isDigits text = true) :
    ∀ c ∈ text, isPlainChar c = true := by
  simp only [isDigits, Bool.and_eq_true, List.all_eq_true] at digits
  exact fun c member => digit_plain (digits.2 c member)

theorem isExponent_plain {text : List Char} (exponent : isExponent text = true) :
    ∀ c ∈ text, isPlainChar c = true := by
  unfold isExponent at exponent
  split at exponent
  · exact List.forall_mem_nil _
  next mark sign digits =>
    rw [Bool.and_eq_true, Bool.or_eq_true, beq_iff_eq, beq_iff_eq] at exponent
    obtain ⟨start, rest⟩ := exponent
    refine List.forall_mem_cons.mpr ⟨?_, ?_⟩
    · rcases start with rfl | rfl <;> decide
    · split at rest
      next signed =>
        rw [Bool.or_eq_true, beq_iff_eq, beq_iff_eq] at signed
        refine List.forall_mem_cons.mpr ⟨?_, isDigits_plain rest⟩
        rcases signed with rfl | rfl <;> decide
      next => exact isDigits_plain rest
  · contradiction

/-- Digits, and behind them characters that a number may hold. -/
theorem digitsThen_plain {text : List Char}
    (behind : ∀ c ∈ text.dropWhile Char.isDigit, isPlainChar c = true) :
    ∀ c ∈ text, isPlainChar c = true := by
  intro c member
  rw [← List.takeWhile_append_dropWhile (p := Char.isDigit) (l := text)] at member
  rcases List.mem_append.mp member with digit | later
  · exact digit_plain (List.all_eq_true.mp List.all_takeWhile c digit)
  · exact behind c later

theorem isFraction_plain {text : List Char} (fraction : isFraction text = true) :
    ∀ c ∈ text, isPlainChar c = true := by
  unfold isFraction at fraction
  split at fraction
  · rw [Bool.and_eq_true] at fraction
    exact List.forall_mem_cons.mpr ⟨rfl, digitsThen_plain (isExponent_plain fraction.2)⟩
  · exact isExponent_plain fraction

theorem isUnsigned_plain {text : List Char} (number : isUnsigned text = true) :
    text ≠ [] ∧ ∀ c ∈ text, isPlainChar c = true := by
  unfold isUnsigned at number
  split at number
  · exact ⟨List.cons_ne_nil _ _, List.forall_mem_cons.mpr ⟨rfl, isFraction_plain number⟩⟩
  · rw [Bool.and_eq_true] at number
    refine ⟨?_, digitsThen_plain (isFraction_plain number.2)⟩
    rintro rfl
    exact absurd number.1 (by decide)

theorem isNumber_plain {text : List Char} (number : isNumber text = true) :
    text ≠ [] ∧ ∀ c ∈ text, isPlainChar c = true := by
  unfold isNumber at number
  split at number
  · exact ⟨List.cons_ne_nil _ _, List.forall_mem_cons.mpr ⟨rfl, (isUnsigned_plain number).2⟩⟩
  · exact isUnsigned_plain number

theorem plain?_number {spelling : List Char} (number : isNumber spelling = true) :
    plain? spelling = some (.number (String.ofList spelling)) := by
  have word : ∀ text : List Char, isNumber text = false → spelling ≠ text := by
    rintro _ different rfl
    rw [number] at different
    contradiction
  unfold plain?
  rw [if_neg (word _ (by decide)), if_neg (word _ (by decide)), if_neg (word _ (by decide)),
    if_pos number]

/-- A value that is written out is denoted by its text, at whatever depth it stands. -/
theorem Readable.denotes {value : Json} (readable : Readable value) (depth : Nat) :
    Denotes (renderAt depth value) value := by
  induction readable generalizing depth with
  | null => exact @plain_denotes "null" _ (by decide) (List.all_eq_true.mp rfl) rfl
  | bool value =>
    cases value with
    | true => exact @plain_denotes "true" _ (by decide) (List.all_eq_true.mp rfl) rfl
    | false => exact @plain_denotes "false" _ (by decide) (List.all_eq_true.mp rfl) rfl
  | @number spelling number =>
    obtain ⟨full, plain⟩ := isNumber_plain number
    apply plain_denotes full plain
    rw [plain?_number number, String.ofList_toList]
  | string characters =>
    intro state frames awaits
    exact (string_drives characters (awaits (.text _) nofun)).drives
  | @array items _ ih =>
    intro state frames awaits
    rw [renderAt, renderItems_eq]
    apply (arrayBrackets awaits).enclose_drives (.of_head rfl rfl)
    rw [List.forall₂_map_left_iff, List.forall₂_same]
    exact fun item member => ih item member (depth + 1)
  | @object members keys _ ih =>
    intro state frames awaits
    rw [renderAt, renderMembers_eq]
    apply (objectBrackets awaits).enclose_drives (.of_head rfl rfl)
    rw [List.forall₂_map_left_iff, List.forall₂_same]
    exact fun member within => ⟨_, rfl, ih member within (depth + 1), keys member within⟩

/-- What is written is read back. -/
theorem parse?_render {value : Json} (readable : Readable value) :
    parse? value.render = some value := by
  obtain ⟨cut, leads, reads⟩ := readable.denotes 0 (State.awaits_any [])
  have cuts := reads [] (by simp [Parted])
  rw [List.append_nil] at cuts
  simp only [parse?, render, cuts, marks, Option.bind_eq_bind, Option.map_some, Option.bind_some,
    List.append_nil, leads]
  rfl

end ScriptToCpp.Json
