import ScriptToCpp.Proofs.Concatenation
import ScriptToCpp.Proofs.Outcome

/-! Line endings. A carriage return before a line break is a blank between tokens, and within a
comment it belongs to the comment; all other lexemes it ends just as the line break does, and in a
string it is as bad. So it makes no difference whether lines end with it or without. -/
namespace ScriptToCpp

/-- The second text has carriage returns before some line breaks of the first one. -/
inductive Returned : List Char → List Char → Prop where
  | nil : Returned [] []
  | keep {text other : List Char} (c : Char) :
      Returned text other → Returned (c :: text) (c :: other)
  | insert {text other : List Char} :
      Returned text other → Returned ('\n' :: text) ('\r' :: '\n' :: other)

/-- Both texts end, or go on with the same character. -/
inductive Abreast : List Char → List Char → Prop where
  | nil : Abreast [] []
  | cons {text other : List Char} (c : Char) :
      Returned text other → Abreast (c :: text) (c :: other)

namespace Returned
variable {text other : List Char} {p : Char → Bool}

theorem append {more further : List Char} (first : Returned text other)
    (second : Returned more further) : Returned (text ++ more) (other ++ further) := by
  induction first with
  | nil => exact second
  | keep c _ ih => exact .keep c ih
  | insert _ ih => exact .insert ih

/-- A run of characters that neither a line break nor a carriage return belongs to is the same in
both texts. -/
theorem takeWhile (returned : Returned text other) (stops : p '\n' = false ∧ p '\r' = false) :
    other.takeWhile p = text.takeWhile p := by
  induction returned with
  | nil => rfl
  | keep c _ ih => rw [List.takeWhile_cons, List.takeWhile_cons, ih]
  | insert => simp [stops]

theorem dropWhile (returned : Returned text other) (stops : p '\n' = false ∧ p '\r' = false) :
    Returned (text.dropWhile p) (other.dropWhile p) := by
  induction returned with
  | nil => exact .nil
  | keep c returned ih =>
    rw [List.dropWhile_cons, List.dropWhile_cons]
    split
    · exact ih
    · exact .keep c returned
  | insert returned =>
    rw [List.dropWhile_cons_of_neg (by simp [stops]), List.dropWhile_cons_of_neg (by simp [stops])]
    exact .insert returned

/-- A run that ends at a line break takes along the carriage return before it. -/
theorem abreast (returned : Returned text other) (stops : p '\n' = false) (goesOn : p '\r' = true) :
    Abreast (text.dropWhile p) (other.dropWhile p) := by
  induction returned with
  | nil => exact .nil
  | keep c returned ih =>
    rw [List.dropWhile_cons, List.dropWhile_cons]
    split
    · exact ih
    · exact .cons c returned
  | insert returned =>
    rw [List.dropWhile_cons_of_pos goesOn, List.dropWhile_cons_of_neg (by simp [stops]),
      List.dropWhile_cons_of_neg (by simp [stops])]
    exact .cons '\n' returned

end Returned

namespace Lexeme
variable {text other : List Char}

/-- Either the same lexeme was read in both texts, or none in either. -/
inductive Reading.Concur : Reading → Reading → Prop where
  | found {kind : Kind} {lexeme : String} {spelling rest rest' : List Char} :
      Returned rest rest' →
      Concur (found kind lexeme spelling rest) (found kind lexeme spelling rest')
  | fault {cause cause' : LexError.Cause} {passed passed' rest rest' : List Char} :
      Concur (fault cause passed rest) (fault cause' passed' rest')

theorem extensible_returned (c : Char) (short long : Kind) (returned : Returned text other) :
    (extensible c short long text).Concur (extensible c short long other) := by
  cases returned with
  | nil => exact .found .nil
  | keep next returned =>
    by_cases equals : next = '='
    · subst equals
      exact .found returned
    · have single : ∀ rest,
          extensible c short long (next :: rest) = plain short [c] (next :: rest) :=
        fun rest => by simp [extensible, equals]
      rw [single, single]
      exact .found (.keep next returned)
  | insert returned => exact .found (.insert returned)

theorem bang_returned (returned : Returned text other) : (bang text).Concur (bang other) := by
  cases returned with
  | nil => exact .fault
  | keep next returned =>
    by_cases equals : next = '='
    · subst equals
      exact .found returned
    · have alone : ∀ rest, bang (next :: rest) = fault (.loneBang next) [] ('!' :: next :: rest) :=
        fun rest => by simp [bang, equals]
      rw [alone, alone]
      exact .fault
  | insert => exact .fault

theorem quoted_returned (returned : Returned text other) : (quoted text).Concur (quoted other) := by
  have stops : isStringChar '\n' = false ∧ isStringChar '\r' = false := by decide
  have behind := returned.dropWhile stops
  unfold quoted
  rw [returned.takeWhile stops]
  generalize text.dropWhile isStringChar = rest at behind
  generalize other.dropWhile isStringChar = rest' at behind
  cases behind with
  | nil => exact .fault
  | keep c behind =>
    dsimp only
    split
    · exact .found behind
    · exact .fault
  | insert => exact .fault

theorem number_returned (returned : Returned text other) : (number text).Concur (number other) := by
  have stops : Char.isDigit '\n' = false ∧ Char.isDigit '\r' = false := by decide
  have behind := returned.dropWhile stops
  unfold number
  rw [returned.takeWhile stops]
  generalize text.dropWhile Char.isDigit = rest at behind
  generalize other.dropWhile Char.isDigit = rest' at behind
  cases behind with
  | nil => exact .found .nil
  | keep c behind =>
    by_cases point : c = '.'
    · subst point
      simp only [behind.takeWhile stops]
      split
      · exact .fault
      · exact .found (behind.dropWhile stops)
    · simp only [List.cons.injEq, point, false_and, imp_self, implies_true]
      exact .found (.keep c behind)
  | insert behind => exact .found (.insert behind)

theorem word_returned (returned : Returned text other) : (word text).Concur (word other) := by
  have stops : Char.isAlphanum '\n' = false ∧ Char.isAlphanum '\r' = false := by decide
  unfold word
  rw [returned.takeWhile stops]
  exact .found (returned.dropWhile stops)

/-- A lexeme ends at a carriage return if it ends at the line break behind it. -/
theorem read_returned (c : Char) (returned : Returned text other) :
    (read c text).Concur (read c other) := by
  unfold read
  split
  case h_8 | h_9 | h_10 => exact extensible_returned _ _ _ returned
  case h_11 => exact bang_returned returned
  case h_12 => exact quoted_returned returned
  case h_13 =>
    split
    · exact number_returned (.keep _ returned)
    · split
      · exact word_returned (.keep _ returned)
      · exact .fault
  all_goals exact .found returned

end Lexeme

namespace Cursor
variable {cursor other : Cursor}

/-- What is left behind a comment, if there is one. -/
def pastComment : List Char → List Char
  | '#' :: line => line.dropWhile (· != '\n')
  | text => text

theorem comment_past (text : List Char) : comment text ++ pastComment text = text := by
  unfold comment
  split
  next line => exact congrArg ('#' :: ·) List.takeWhile_append_dropWhile
  next noComment => rw [pastComment.eq_2 text noComment, List.nil_append]

theorem skipGap_rest (cursor : Cursor) :
    cursor.skipGap.rest = pastComment (cursor.rest.dropWhile isBlank) := by
  have parts : gap cursor.rest ++ pastComment (cursor.rest.dropWhile isBlank) = cursor.rest := by
    rw [gap, List.append_assoc, comment_past, List.takeWhile_append_dropWhile]
  exact List.append_cancel_left (cursor.rest_eq.symm.trans parts.symm)

/-- Behind a gap no carriage return is left over. -/
theorem skipGap_returned {cursor other : Cursor} (returned : Returned cursor.rest other.rest) :
    Abreast cursor.skipGap.rest other.skipGap.rest := by
  have behind := returned.abreast (p := isBlank) (by decide) (by decide)
  rw [skipGap_rest, skipGap_rest]
  generalize cursor.rest.dropWhile isBlank = rest at behind
  generalize other.rest.dropWhile isBlank = rest' at behind
  cases behind with
  | nil => exact .nil
  | cons c behind =>
    by_cases hash : c = '#'
    · subst hash
      exact behind.abreast rfl rfl
    · have kept : ∀ text, pastComment (c :: text) = c :: text :=
        fun text => by simp [pastComment, hash]
      rw [kept, kept]
      exact .cons c behind

/-- A gap is part of one line. -/
theorem skipGap_line_eq (cursor : Cursor) :
    cursor.skipGap.location.line = cursor.location.line := by
  have none : (gap cursor.rest).count '\n' = 0 :=
    List.count_eq_zero.mpr fun inside => (gap_formed cursor.rest).2.notBreak '\n' inside rfl
  rw [skipGap, Location.afterAll_line, none]
  rfl

/-- The cursors are on the same line, and what is left differs in line endings only. -/
structure Alike (cursor other : Cursor) : Prop where
  line : other.location.line = cursor.location.line
  rest : Returned cursor.rest other.rest

end Cursor

/-- A token and the line it is on. -/
def Token.onLine (token : Token) : Kind × String × Nat :=
  (token.kind, token.text, token.location.line)

/-- Either the same token was read on the same line, or none in either text. -/
inductive SameItem : Except LexError Token → Except LexError Token → Prop where
  | token {token other : Token} : other.onLine = token.onLine → SameItem (.ok token) (.ok other)
  | fault {fault other : LexError} : SameItem (.error fault) (.error other)

namespace Cursor
variable {cursor other : Cursor}

theorem Alike.lex (line : other.location.line = cursor.location.line)
    (abreast : Abreast cursor.rest other.rest) :
    SameItem cursor.lex.1 other.lex.1 ∧ (cursor.lex.1.isOk → cursor.lex.2.Alike other.lex.2) := by
  obtain ⟨rest, here⟩ := cursor
  obtain ⟨rest', there⟩ := other
  dsimp only at line
  cases abreast with
  | nil => exact ⟨.token (by simp [Token.onLine, line]), fun _ => ⟨line, .nil⟩⟩
  | @cons text text' c returned =>
    have concur := Lexeme.read_returned c returned
    unfold Cursor.lex
    dsimp only
    generalize Lexeme.read c text = reading at concur
    generalize Lexeme.read c text' = reading' at concur
    cases concur with
    | fault => exact ⟨.fault, nofun⟩
    | @found kind lexeme spelling _ _ behind =>
      refine ⟨.token (by simp [Token.onLine, line]), fun _ => ⟨?_, behind⟩⟩
      simp only [Lexeme.found, Location.afterAll_line, line]

theorem Alike.next (alike : cursor.Alike other) :
    SameItem cursor.next.1 other.next.1 ∧
      (cursor.next.1.isOk → cursor.next.2.Alike other.next.2) := by
  apply Alike.lex
  · rw [skipGap_line_eq, skipGap_line_eq, alike.line]
  · exact skipGap_returned alike.rest

/-- Item by item the same is read. -/
theorem Alike.drain (alike : cursor.Alike other) :
    List.Forall₂ SameItem cursor.drain.1 other.drain.1 := by
  induction cursor using Cursor.drain.induct generalizing other with
  | case1 cursor fault behind read =>
    have same := alike.next.1
    rcases read' : other.next with ⟨item, behind'⟩
    rw [read, read'] at same
    cases same
    rw [drain_fault read, drain_fault read']
    exact .cons .fault .nil
  | case2 cursor token behind read last =>
    have same := alike.next.1
    rcases read' : other.next with ⟨item, behind'⟩
    rw [read, read'] at same
    cases same with
    | token same =>
      have kind : _ = token.kind := congrArg Prod.fst same
      rw [drain_last read last, drain_last read' (kind.trans last)]
      exact .cons (.token same) .nil
  | case3 cursor token behind read more _ _ _ _ ih =>
    obtain ⟨same, further⟩ := alike.next
    rcases read' : other.next with ⟨item, behind'⟩
    rw [read, read'] at same further
    cases same with
    | token same =>
      have kind : _ = token.kind := congrArg Prod.fst same
      have more' := more
      rw [← kind] at more'
      rw [drain_more read more, drain_more read' more']
      exact .cons (.token same) (ih (further rfl))

end Cursor

/-- Such items are tokens throughout, on the same lines, or there is a fault among both. -/
theorem sameItems_tokens {items others : List (Except LexError Token)}
    (same : List.Forall₂ SameItem items others) :
    (others.mapM id).toOption.map (·.map Token.onLine) =
      (items.mapM id).toOption.map (·.map Token.onLine) := by
  induction same with
  | nil => rfl
  | @cons item item' rest rest' first _ ih =>
    rw [List.mapM_cons, List.mapM_cons]
    cases first with
    | fault => rfl
    | @token token other alike =>
      dsimp only [id, bind, Except.bind]
      generalize rest.mapM id = found at ih
      generalize rest'.mapM id = found' at ih
      cases found <;> cases found' <;> simp_all [Except.toOption, pure, Except.pure]

/-- Texts that differ in line endings only are read alike. -/
theorem Returned.tokenize {source other : String} (returned : Returned source.toList other.toList) :
    (tokenize other).toOption.map (·.map Token.onLine) =
      (tokenize source).toOption.map (·.map Token.onLine) := by
  have alike : (Cursor.start source).Alike (Cursor.start other) :=
    ⟨rfl, returned.append (.keep '\n' .nil)⟩
  exact sameItems_tokens alike.drain

theorem compile_unread {source : String} {fault : LexError}
    (failed : tokenize source = .error fault) : (compile source).toOption = none := by
  cases compiled : compile source with
  | error failure => rfl
  | ok output =>
    obtain ⟨_, _, _, _, read, _⟩ := compile_ok compiled
    rw [failed] at read
    contradiction

/-- Texts that are read as the same lexemes, or not at all, are compiled to the same program. -/
theorem compile_lexemes {source other : String}
    (same : (tokenize other).toOption.map (·.map Token.lexeme) =
      (tokenize source).toOption.map (·.map Token.lexeme)) :
    (compile other).toOption = (compile source).toOption := by
  cases read : tokenize source with
  | error fault =>
    cases read' : tokenize other with
    | error fault' => rw [compile_unread read, compile_unread read']
    | ok others =>
      rw [read, read'] at same
      contradiction
  | ok tokens =>
    cases read' : tokenize other with
    | error fault' =>
      rw [read, read'] at same
      contradiction
    | ok others =>
      rw [read, read'] at same
      obtain ⟨actions, result, outcome⟩ := exists_outcome read
      obtain ⟨result', outcome', concur⟩ :=
        outcome.transfer (Stage.Agrees.refl _) (Option.some.inj same).symm
      rw [(compile_of_outcome read outcome).1, (compile_of_outcome read' outcome').1]
      cases concur <;> rfl

/-- The text with a carriage return before each of its line breaks. -/
def withReturns (source : String) : String :=
  String.ofList (source.toList.flatMap fun c => if c = '\n' then ['\r', '\n'] else [c])

theorem returned_withReturns (source : String) :
    Returned source.toList (withReturns source).toList := by
  rw [withReturns, String.toList_ofList]
  induction source.toList with
  | nil => exact .nil
  | cons c rest ih =>
    rw [List.flatMap_cons]
    split
    next newline =>
      rw [newline]
      exact .insert ih
    next => exact .keep c ih

/-- It makes no difference whether the lines of a text end with carriage returns. With them it can
be read if and only if it can be read without them, as the same tokens on the same lines; and it is
compiled if and only if it is compiled without them, to the same program. -/
theorem withReturns_same (source : String) :
    (compile (withReturns source)).toOption = (compile source).toOption ∧
      (tokenize (withReturns source)).toOption.map (·.map Token.onLine) =
        (tokenize source).toOption.map (·.map Token.onLine) := by
  have read := (returned_withReturns source).tokenize
  refine ⟨compile_lexemes ?_, read⟩
  have lineless : ∀ tokens : List Token,
      (tokens.map Token.onLine).map (fun found => (found.1, found.2.1)) = tokens.map Token.lexeme :=
    fun _ => List.map_map
  have lexemes := congrArg (Option.map (List.map fun found => (found.1, found.2.1))) read
  simpa only [Option.map_map, Function.comp_def, lineless] using lexemes

end ScriptToCpp
