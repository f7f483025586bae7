import ScriptToCpp.Proofs.ScriptTree

/-! No list of tokens spells two trees. Two phrases at the start of one list are compared together
with what follows them. Where neither could go on with the token that follows it, they end at the
same place and are the same. -/
namespace ScriptToCpp.Script

/-- The tokens do not start with a kind with which a phrase could go on. -/
def Stops (goesOn : Kind → Bool) (tokens : List Token) : Prop :=
  ∀ token ∈ tokens.head?, goesOn token.kind = false

/-- Where two phrases cannot go on, they end at the same place and are the same. -/
def Determined {α : Type} (spells : α → List Token → Prop) (goesOn : Kind → Bool) : Prop :=
  ∀ x y front front' back back', spells x front → spells y front' →
    front ++ back = front' ++ back' → Stops goesOn back → Stops goesOn back' → x = y ∧ back = back'

theorem stops_cons {goesOn : Kind → Bool} {token : Token} {rest : List Token} :
    Stops goesOn (token :: rest) ↔ goesOn token.kind = false := by
  simp [Stops]

theorem Stops.weaken {goesOn further : Kind → Bool} {tokens : List Token}
    (stop : Stops further tokens) (weaker : ∀ kind, goesOn kind → further kind) :
    Stops goesOn tokens := by
  intro token member
  have stopped := stop token member
  cases continued : goesOn token.kind with
  | false => rfl
  | true => simp [weaker _ continued] at stopped

theorem Operand.Spells.unique {x y : Operand} {token : Token} (first : x.Spells token)
    (second : y.Spells token) : x = y := by
  cases first <;> cases second <;> simp_all

theorem Operand.Spells.notAdditive {x : Operand} {token : Token} (spelled : x.Spells token) :
    token.kind.isAdditive = false := by
  cases spelled with
  | number kind => rw [kind]; rfl
  | named kind => rw [kind]; rfl

theorem Operator.Spells.unique {joins : Kind → Bool} {x y : Operator joins} {token : Token}
    (first : x.Spells token) (second : y.Spells token) : x = y :=
  Subtype.ext (first.kind.symm.trans second.kind)

theorem Factor.determined : Determined Factor.Spells fun _ => false := by
  intro x y front front' back back' first second same _ _
  cases first with
  | plain operand =>
    cases second with
    | plain operand' =>
      simp only [List.cons_append, List.nil_append, List.cons.injEq] at same
      obtain ⟨rfl, rfl⟩ := same
      rw [operand.unique operand']
      exact ⟨rfl, rfl⟩
    | @signed _ sign _ _ marked _ =>
      simp only [List.cons_append, List.nil_append, List.cons.injEq] at same
      obtain ⟨rfl, _⟩ := same
      have additive := sign.property
      rw [← marked.kind, operand.notAdditive] at additive
      contradiction
  | @signed _ sign _ _ marked operand =>
    cases second with
    | plain operand' =>
      simp only [List.cons_append, List.nil_append, List.cons.injEq] at same
      obtain ⟨rfl, _⟩ := same
      have additive := sign.property
      rw [← marked.kind, operand'.notAdditive] at additive
      contradiction
    | signed marked' operand' =>
      simp only [List.cons_append, List.nil_append, List.cons.injEq] at same
      obtain ⟨rfl, rfl, rfl⟩ := same
      rw [operand.unique operand', marked.unique marked']
      exact ⟨rfl, rfl⟩

namespace Chain

/-- A chain goes on with an operator, or where its last item does. -/
def grows (joins goesOn : Kind → Bool) (kind : Kind) : Bool :=
  joins kind || goesOn kind

variable {joins goesOn : Kind → Bool} {α : Type} {spells : α → List Token → Prop}

theorem Continues.stops {rest : List (Operator joins × α)} {more back : List Token}
    (separate : ∀ kind, joins kind → goesOn kind = false)
    (continues : Continues spells rest more) (stop : Stops (grows joins goesOn) back) :
    Stops goesOn (more ++ back) := by
  cases continues with
  | nil => exact stop.weaken (by simp +contextual [grows])
  | @cons operator _ _ token _ _ marked _ _ =>
    rw [List.cons_append, stops_cons, marked.kind]
    exact separate _ operator.property

theorem Continues.determined (separate : ∀ kind, joins kind → goesOn kind = false)
    (item : Determined spells goesOn) :
    Determined (Continues spells : List (Operator joins × α) → List Token → Prop)
      (grows joins goesOn) := by
  intro x y front front' back back' first
  induction first generalizing y front' with
  | nil =>
    intro second same stop stop'
    cases second with
    | nil => exact ⟨rfl, same⟩
    | @cons operator _ _ token _ _ marked _ _ =>
      rw [List.nil_append, List.cons_append] at same
      rw [same, stops_cons, marked.kind, grows, operator.property] at stop
      contradiction
  | @cons operator _ _ token _ _ marked spelled continues ih =>
    intro second same stop stop'
    cases second with
    | nil =>
      rw [List.nil_append, List.cons_append] at same
      rw [← same, stops_cons, marked.kind, grows, operator.property] at stop'
      contradiction
    | cons marked' spelled' continues' =>
      simp only [List.cons_append, List.append_assoc, List.cons.injEq] at same
      obtain ⟨rfl, same⟩ := same
      obtain ⟨rfl, tail⟩ := item _ _ _ _ _ _ spelled spelled' same
        (continues.stops separate stop) (continues'.stops separate stop')
      obtain ⟨rfl, rest⟩ := ih _ _ continues' tail stop stop'
      rw [marked.unique marked']
      exact ⟨rfl, rest⟩

theorem determined (separate : ∀ kind, joins kind → goesOn kind = false)
    (item : Determined spells goesOn) :
    Determined (Chain.Spells spells : Chain joins α → List Token → Prop)
      (grows joins goesOn) := by
  intro x y front front' back back' first second same stop stop'
  cases first with
  | mk spelled continues =>
    cases second with
    | mk spelled' continues' =>
      simp only [List.append_assoc] at same
      obtain ⟨rfl, tail⟩ := item _ _ _ _ _ _ spelled spelled' same
        (continues.stops separate stop) (continues'.stops separate stop')
      obtain ⟨rfl, rest⟩ := Continues.determined separate item _ _ _ _ _ _ continues continues' tail
        stop stop'
      exact ⟨rfl, rest⟩

end Chain

/-- With what a term goes on. -/
def Term.grows : Kind → Bool := Chain.grows Kind.isMultiplicative fun _ => false

/-- With what an expression goes on. -/
def Expression.grows : Kind → Bool := Chain.grows Kind.isAdditive Term.grows

/-- With what a condition goes on. -/
def Condition.grows : Kind → Bool := Chain.grows Kind.isComparison Expression.grows

theorem Term.determined : Determined Term.Spells Term.grows :=
  Chain.determined (fun _ _ => rfl) Factor.determined

theorem Expression.determined : Determined Expression.Spells Expression.grows := by
  refine Chain.determined ?_ Term.determined
  intro kind additive
  cases kind <;> simp_all [Kind.isAdditive, Term.grows, Chain.grows, Kind.isMultiplicative]

theorem Condition.determined : Determined Condition.Spells Condition.grows := by
  have chains : Determined (Chain.Spells Expression.Spells : Chain Kind.isComparison _ → _)
      Condition.grows := by
    refine Chain.determined ?_ Expression.determined
    intro kind comparison
    cases kind <;> simp_all [Kind.isComparison, Expression.grows, Term.grows, Chain.grows,
      Kind.isAdditive, Kind.isMultiplicative]
  rintro ⟨x, _⟩ ⟨y, _⟩ front front' back back' first second same stop stop'
  obtain ⟨rfl, rest⟩ := chains x y front front' back back' first second same stop stop'
  exact ⟨rfl, rest⟩

/-- Line breaks go on with more of them. -/
def isBreak (kind : Kind) : Bool := kind = .newline

theorem newlines_determined {front front' back back' : List Token}
    (newlines : ∀ token ∈ front, token.kind = .newline)
    (newlines' : ∀ token ∈ front', token.kind = .newline) (same : front ++ back = front' ++ back')
    (stop : Stops isBreak back) (stop' : Stops isBreak back') : back = back' := by
  induction front generalizing front' with
  | nil =>
    cases front' with
    | nil => exact same
    | cons token rest =>
      rw [List.nil_append, List.cons_append] at same
      rw [same, stops_cons, newlines' token (by simp)] at stop
      contradiction
  | cons token rest ih =>
    cases front' with
    | nil =>
      rw [List.nil_append, List.cons_append] at same
      rw [← same, stops_cons, newlines token (by simp)] at stop'
      contradiction
    | cons token' rest' =>
      simp only [List.cons_append, List.cons.injEq] at same
      exact ih (fun token member => newlines token (by simp [member]))
        (fun token member => newlines' token (by simp [member])) same.2

theorem Breaks.stops {goesOn : Kind → Bool} {breaks back : List Token} (broken : Breaks breaks)
    (ends : goesOn .newline = false) : Stops goesOn (breaks ++ back) := by
  cases breaks with
  | nil => exact absurd rfl broken.1
  | cons token rest =>
    rw [List.cons_append, stops_cons, broken.newlines token (by simp)]
    exact ends

/-- An expression up to the end of its line. -/
theorem Expression.determined_line {x y : Expression}
    {value value' breaks breaks' back back' : List Token}
    (first : Expression.Spells x value) (second : Expression.Spells y value')
    (broken : Breaks breaks) (broken' : Breaks breaks')
    (same : value ++ (breaks ++ back) = value' ++ (breaks' ++ back'))
    (stop : Stops isBreak back) (stop' : Stops isBreak back') : x = y ∧ back = back' := by
  obtain ⟨rfl, rest⟩ := Expression.determined _ _ _ _ _ _ first second same
    (broken.stops rfl) (broken'.stops rfl)
  exact ⟨rfl, newlines_determined broken.newlines broken'.newlines rest stop stop'⟩

theorem Expression.starts {x : Expression} {tokens : List Token}
    (spelled : Expression.Spells x tokens) :
    ∃ token rest, tokens = token :: rest ∧ token.kind ≠ .string := by
  cases spelled with
  | mk term _ =>
    cases term with
    | mk factor _ =>
      cases factor with
      | @plain _ token operand =>
        refine ⟨token, _, rfl, ?_⟩
        cases operand <;> simp_all
      | @signed _ sign mark _ marked _ =>
        refine ⟨mark, _, rfl, fun same => ?_⟩
        have additive := sign.property
        rw [← marked.kind, same] at additive
        contradiction

theorem Statement.determined_alone : Determined Statement.SpellsAlone isBreak := by
  intro x y front front' back back' first second same stop stop'
  -- The first word tells all forms apart but the two of printing, which differ in the next token.
  have words : x.word = y.word := by
    obtain ⟨token, rest, rfl, kind⟩ := first.starts
    obtain ⟨token', rest', rfl, kind'⟩ := second.starts
    rw [List.cons_append, List.cons_append, List.cons.injEq] at same
    rw [← kind, ← kind', same.1]
  cases first with
  | printText _ text broken =>
    cases second with
    | printText _ _ broken' =>
      simp only [List.cons_append, List.cons.injEq] at same
      obtain ⟨-, rfl, same⟩ := same
      exact ⟨rfl, newlines_determined broken.newlines broken'.newlines same stop stop'⟩
    | print _ value _ =>
      obtain ⟨token, rest, rfl, different⟩ := Expression.starts value
      simp only [List.cons_append, List.cons.injEq] at same
      exact absurd (same.2.1 ▸ text) different
    | declare | assign | input => nomatch words
  | print _ value broken =>
    cases second with
    | printText _ text _ =>
      obtain ⟨token, rest, rfl, different⟩ := Expression.starts value
      simp only [List.cons_append, List.cons.injEq] at same
      exact absurd (same.2.1 ▸ text) different
    | print _ value' broken' =>
      simp only [List.cons_append, List.append_assoc, List.cons.injEq] at same
      obtain ⟨rfl, rest⟩ :=
        Expression.determined_line value value' broken broken' same.2 stop stop'
      exact ⟨rfl, rest⟩
    | declare | assign | input => nomatch words
  | declare _ _ _ value broken =>
    cases second with
    | declare _ _ _ value' broken' =>
      simp only [List.cons_append, List.append_assoc, List.cons.injEq] at same
      obtain ⟨-, rfl, -, same⟩ := same
      obtain ⟨rfl, rest⟩ := Expression.determined_line value value' broken broken' same stop stop'
      exact ⟨rfl, rest⟩
    | printText | print | assign | input => nomatch words
  | assign _ _ value broken =>
    cases second with
    | assign _ _ value' broken' =>
      simp only [List.cons_append, List.append_assoc, List.cons.injEq] at same
      obtain ⟨rfl, -, same⟩ := same
      obtain ⟨rfl, rest⟩ := Expression.determined_line value value' broken broken' same stop stop'
      exact ⟨rfl, rest⟩
    | printText | print | declare | input => nomatch words
  | input _ _ broken =>
    cases second with
    | input _ _ broken' =>
      simp only [List.cons_append, List.cons.injEq] at same
      obtain ⟨-, rfl, same⟩ := same
      exact ⟨rfl, newlines_determined broken.newlines broken'.newlines same stop stop'⟩
    | printText | print | declare | assign => nomatch words

/-- With what statements go on: another one, or an empty line. -/
def Statement.grows : Kind → Bool
  | .newline | .print | .ifWord | .whileWord | .declare | .identifier | .input => true
  | _ => false

theorem Statement.grows_word (statement : Statement) : Statement.grows statement.word = true := by
  cases statement with
  | block form => cases form <;> rfl
  | _ => rfl

theorem Statement.Spell.stops {statements : List Statement} {tokens back : List Token}
    (spelled : Statement.Spell statements tokens) (stop : Stops Statement.grows back) :
    Stops isBreak (tokens ++ back) := by
  rcases spelled.starts with ⟨rfl, rfl⟩ | ⟨first, _, token, rest, rfl, rfl, kind⟩
  · refine stop.weaken fun kind newline => ?_
    rw [decide_eq_true_iff.mp newline]
    rfl
  · rw [List.cons_append, stops_cons, kind]
    exact decide_eq_false first.word_ne_newline

/-- Where statements cannot go on, there is no further one. -/
theorem Statement.Spell.absurd {first : Statement} {others : List Statement}
    {tokens back rest : List Token} (spelled : Statement.Spell (first :: others) tokens)
    (same : tokens ++ back = [] ++ rest) (stop : Stops Statement.grows rest) : False := by
  rw [List.nil_append] at same
  subst same
  rcases spelled.starts with ⟨empty, _⟩ | ⟨_, _, token, rest, same, rfl, kind⟩
  · contradiction
  · rw [List.cons_append, stops_cons, kind, grows_word] at stop
    contradiction

theorem BlockForm.kind_injective {form other : BlockForm} (same : form.kind = other.kind) :
    form = other := by
  cases form <;> cases other <;> first | rfl | contradiction

theorem Statement.SpellsAlone.notBlock {x : Statement} {tokens : List Token}
    (spelled : x.SpellsAlone tokens) (form : BlockForm) : x.word ≠ form.kind := by
  cases spelled <;> cases form <;> exact nofun

theorem Statement.determined : Determined Statement.Spell Statement.grows := by
  intro x y front front' back back' first
  induction first generalizing y front' back back' with
  | nil =>
    intro second same stop stop'
    cases y with
    | nil =>
      cases second
      exact ⟨rfl, same⟩
    | cons => exact (second.absurd same.symm stop).elim
  | alone alone spelled ih =>
    intro second same stop stop'
    cases second with
    | nil => exact ((Statement.Spell.alone alone spelled).absurd same stop').elim
    | alone alone' spelled' =>
      simp only [List.append_assoc] at same
      obtain ⟨rfl, rest⟩ := Statement.determined_alone _ _ _ _ _ _ alone alone' same
        (spelled.stops stop) (spelled'.stops stop')
      obtain ⟨rfl, rest⟩ := ih _ _ _ _ spelled' rest stop stop'
      exact ⟨rfl, rest⟩
    | @block form _ _ _ _ _ _ _ _ _ _ _ kind =>
      obtain ⟨token, rest, rfl, word⟩ := alone.starts
      simp only [List.cons_append, List.cons.injEq] at same
      rw [same.1] at word
      exact (alone.notBlock form (word.symm.trans kind)).elim
  | @block form _ _ _ _ _ _ _ _ _ _ _ kind condition opening inner body closing outer more
      ihBody ih =>
    intro second same stop stop'
    cases second with
    | nil =>
      exact ((Statement.Spell.block kind condition opening inner body closing outer more).absurd
        same stop').elim
    | alone alone' spelled' =>
      obtain ⟨token, rest, rfl, word⟩ := alone'.starts
      simp only [List.cons_append, List.cons.injEq] at same
      rw [← same.1] at word
      exact (alone'.notBlock form (word.symm.trans kind)).elim
    | block kind' condition' opening' inner' body' closing' outer' more' =>
      simp only [List.cons_append, List.append_assoc, List.cons.injEq] at same
      obtain ⟨rfl, same⟩ := same
      have forms := BlockForm.kind_injective (kind.symm.trans kind')
      obtain ⟨rfl, rest⟩ := Condition.determined _ _ _ _ _ _ condition condition' same
        (stops_cons.mpr (by rw [opening]; rfl)) (stops_cons.mpr (by rw [opening']; rfl))
      have lines := newlines_determined inner.newlines inner'.newlines (List.cons.inj rest).2
        (body.stops (stops_cons.mpr (by rw [closing]; rfl)))
        (body'.stops (stops_cons.mpr (by rw [closing']; rfl)))
      obtain ⟨rfl, rest⟩ := ihBody _ _ _ _ body' lines
        (stops_cons.mpr (by rw [closing]; rfl)) (stops_cons.mpr (by rw [closing']; rfl))
      have behind := newlines_determined outer.newlines outer'.newlines (List.cons.inj rest).2
        (more.stops stop) (more'.stops stop')
      obtain ⟨rfl, rest⟩ := ih _ _ _ _ more' behind stop stop'
      rw [forms]
      exact ⟨rfl, rest⟩

/-- No list of tokens spells two scripts. -/
theorem Spells.unique {x y : List Statement} {tokens : List Token} (first : Spells x tokens)
    (second : Spells y tokens) : x = y := by
  generalize whole : tokens = again at second
  cases first with
  | mk newlines spelled last =>
    cases second with
    | mk newlines' spelled' last' =>
      have stop : Stops Statement.grows [_] := stops_cons.mpr (by rw [last]; rfl)
      have stop' : Stops Statement.grows [_] := stops_cons.mpr (by rw [last']; rfl)
      have same := newlines_determined newlines newlines' whole (spelled.stops stop)
        (spelled'.stops stop')
      exact (Statement.determined _ _ _ _ _ _ spelled spelled' same stop stop').1

end ScriptToCpp.Script
