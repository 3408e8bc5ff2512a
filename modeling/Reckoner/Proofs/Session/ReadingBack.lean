import Reckoner.Proofs.Evaluation.Repeating
import Reckoner.Proofs.Expr.Assigning
import Reckoner.Proofs.Session.Standing

/-!
# Reading assignments back

What a variable has been assigned it gives when it is calculated next.  What a name has been
defined as gives its value again, too, unless the name is also bound as a variable: variables
shadow definitions.
-/

namespace Reckoner
namespace Session

open Run Registry

variable {sound : Caches → Prop} {session : Session} {name text : String} {tree : Expr}

/-! ## Calculations with enough time -/

/-- A text is calculated to a value, unless a deadline passes before. -/
def Gives (session : Session) (text : String) (value : Number) : Prop :=
  ∃ bound, ∀ limit ≥ bound, ∀ deadline,
    (session.calculateBy limit text deadline).1 = .ok value ∨
      ∃ passed : Deadline, deadline = some passed ∧ passed.cancellation ≠ .never

theorem Gives.calculateBy_none
    {value : Number}
    (gives : session.Gives text value) :
    ∃ bound, ∀ limit ≥ bound, (session.calculateBy limit text none).1 = .ok value := by
  obtain ⟨bound, same⟩ := gives
  refine ⟨bound, fun limit beyond => (same limit beyond none).resolve_right ?_⟩
  rintro ⟨_, missing, _⟩
  cases missing

/-- A text gives one value. -/
theorem Gives.unique
    {value other : Number}
    (gives : session.Gives text value)
    (givesOther : session.Gives text other) :
    value = other := by
  obtain ⟨bound, same⟩ := gives.calculateBy_none
  obtain ⟨otherBound, sameOther⟩ := givesOther.calculateBy_none
  have first := same (max bound otherBound) (Nat.le_max_left _ _)
  have second := sameOther (max bound otherBound) (Nat.le_max_right _ _)
  exact Except.ok.inj (first.symm.trans second)

/-- What an expression comes to with other bindings its text gives with them, whatever the caches
hold by then. -/
theorem IsSound.gives_of_evaluate
    (isSound : session.IsSound sound)
    {context : Context}
    {caches : Caches}
    {limit : Nat}
    {value : Number}
    (held : sound caches)
    (parses : session.parse text = .ok tree)
    (evaluates : (Reckoner.evaluate limit session.registry context tree .never).result =
      .ok ⟨value, context⟩) :
    ({ session.keepCaches caches with context } : Session).Gives text value := by
  obtain ⟨_, settles⟩ := isSound.steady.evaluate isSound.held limit context tree .never
  rw [evaluates] at settles
  obtain ⟨bound, same⟩ := settles (isAnswer_ok _)
  refine ⟨bound, fun limit beyond deadline => ?_⟩
  generalize becomes : ({ session.keepCaches caches with context } : Session) = after
  have evaluates : (after.evaluate limit tree .never).1 = .ok ⟨value, context⟩ :=
    becomes ▸ same limit beyond caches held
  have parsesAfter : after.parse text = .ok tree := becomes ▸ parses
  rw [calculateBy_of_parse_eq_ok parsesAfter]
  have concludes (undisturbed : after.evaluateBy limit tree deadline =
      after.evaluate limit tree .never) :
      (conclude (after.evaluateBy limit tree deadline)).1 = .ok value := by
    rw [undisturbed]
    rcases ran : after.evaluate limit tree .never with ⟨outcome, final⟩
    obtain rfl : outcome = .ok ⟨value, context⟩ := by rw [← evaluates, ran]
    rfl
  cases deadline with
  | none => exact .inl (concludes rfl)
  | some passed =>
      by_cases late : passed.cancellation = .never
      · exact .inl (concludes (evaluateBy_of_never late limit tree))
      · exact .inr ⟨passed, rfl, late⟩

theorem parse_variable (named : session.tokenize name = .ok [⟨.variable, name⟩]) :
    session.parse name = .ok (.variable name) := by
  have tokenizes : session.reader.tokenize name = .ok [⟨.variable, name⟩] := named
  rw [Session.parse, Reader.parse, tokenizes]
  exact Precedences.parse_eq_ok_iff.2 ⟨[⟨.variable, name⟩], rfl, trivial, rfl⟩

/-! ## Assignments -/

/-- A standard session reads texts by the standard grammar, or by one without names. -/
theorem IsStandard.reader_cases (standard : session.IsStandard) :
    session.reader = Standard.reader ∨
      ∃ grammar : Grammar, session.reader = Reader.base.load grammar ∧
        ∀ symbol, grammar.names symbol = [] := by
  obtain ⟨configuration, caches, same⟩ := standard.registry
  have grammar : session.registry.grammar = (new configuration).registry.grammar := by
    rw [same]
    rfl
  rw [standard.inStep.reader, grammar, registry_new]
  split
  · refine .inr ⟨_, rfl, fun symbol => ?_⟩
    rcases symbol with (_ | _) | (_ | _) <;> rfl
  · left
    rw [Standard.registry, grammar_rebuildPromotions]
    rfl

/-- A variable and a text with an assignment between them can be read as nothing but the
assignment of what the text is read as. -/
theorem IsStandard.parse_assignment
    (standard : session.IsStandard)
    {operator : String}
    {assigning : Expr}
    (assigns : operator ∈ Standard.grammar.names (.operator .tree))
    (named : session.tokenize name = .ok [⟨.variable, name⟩])
    (parses : session.parse text = .ok tree)
    (succeeds : session.parse (name ++ (" " ++ operator ++ " ") ++ text) = .ok assigning) :
    assigning = .binary .tree operator (.variable name) tree := by
  unfold Session.tokenize at named
  unfold Session.parse at parses succeeds
  rcases standard.reader_cases with reads | ⟨grammar, reads, nameless⟩
  · rw [reads] at named parses succeeds
    exact Except.ok.inj (succeeds.symm.trans (Standard.parse_assignment assigns named parses))
  · have sign : '=' ∈ operator.toList := by
      have all : ∀ operator ∈ Standard.grammar.names (.operator .tree), '=' ∈ operator.toList := by
        decide
      exact all operator assigns
    rw [reads, Reader.parse] at succeeds
    split at succeeds
    next => cases succeeds
    next tokens tokenizes =>
      have without := Tokenizer.notMem_of_tokenize nameless tokenizes
      simp [sign] at without

/-- An assignment that is calculated has been evaluated, and leaves the bindings that the
evaluation has come to. -/
theorem IsStandard.exists_of_calculate
    (standard : session.IsStandard)
    (isSound : session.IsSound sound)
    {operator : String}
    (assigns : operator ∈ Standard.grammar.names (.operator .tree))
    (named : session.tokenize name = .ok [⟨.variable, name⟩])
    (parses : session.parse text = .ok tree)
    {limit : Nat}
    {deadline : Option Deadline}
    {value : Number}
    (succeeds : (session.calculateBy limit (name ++ (" " ++ operator ++ " ") ++ text) deadline).1 =
      .ok value) :
    ∃ result caches,
      (Reckoner.evaluate limit session.registry session.context
        (.binary .tree operator (.variable name) tree) .never).result = .ok result ∧
      result.value = value ∧
      result.context.implementation = session.context.implementation ∧
      sound caches ∧
      (session.calculateBy limit (name ++ (" " ++ operator ++ " ") ++ text) deadline).2 =
        { session.keepCaches caches with context := result.context } := by
  generalize same : name ++ (" " ++ operator ++ " ") ++ text = written at succeeds ⊢
  obtain ⟨assigning, result, reads, evaluates, valued, leaves, becomes⟩ :=
    (context_calculateBy standard.onlyAssigns limit written deadline).1 value succeeds
  obtain rfl := standard.parse_assignment assigns named parses (same ▸ reads)
  obtain ⟨caches, context, after⟩ := session.exists_calculateBy_eq limit written deadline
  have held := (isSound.calculateBy limit written deadline).held
  rw [after] at held
  obtain rfl : context = result.context := by rw [← leaves, after]
  refine ⟨result, caches, ?_, valued, becomes.implementation, held, after⟩
  rcases session.evaluateBy_cases limit _ deadline with undisturbed | ⟨_, _, late⟩
  · rw [undisturbed] at evaluates
    exact evaluates
  · rw [late] at evaluates
    cases evaluates

theorem kindOf_congr
    {registry : Registry}
    {first second : Context}
    (same : first.implementation = second.implementation) :
    registry.kindOf first = registry.kindOf second := by
  rw [kindOf, kindOf, same]

/-- An assigned variable gives the value of the assignment. -/
theorem IsStandard.gives_of_assignment
    (standard : session.IsStandard)
    (isSound : session.IsSound sound)
    (named : session.tokenize name = .ok [⟨.variable, name⟩])
    (parses : session.parse text = .ok tree)
    {limit : Nat}
    {deadline : Option Deadline}
    {value : Number}
    (succeeds : (session.calculateBy limit (name ++ " = " ++ text) deadline).1 = .ok value) :
    (session.calculateBy limit (name ++ " = " ++ text) deadline).2.Gives name value := by
  have spelled : " = " = " " ++ "=" ++ " " := by decide
  rw [spelled] at succeeds ⊢
  obtain ⟨result, caches, evaluates, rfl, kept, held, after⟩ :=
    standard.exists_of_calculate isSound (by decide) named parses succeeds
  obtain ⟨kind, _, chosen, _⟩ := evaluate_eq_ok_iff.1 evaluates
  have bound := standard.onlyAssigns.find?_of_assignment evaluates
  rw [after]
  exact isSound.gives_of_evaluate held (parse_variable named)
    (evaluate_of_bound ((kindOf_congr kept).trans chosen) bound limit)

/-- A defined name gives the value of the definition, unless it is bound as a variable. -/
theorem IsStandard.gives_of_definition
    (standard : session.IsStandard)
    (isSound : session.IsSound sound)
    (named : session.tokenize name = .ok [⟨.variable, name⟩])
    (parses : session.parse text = .ok tree)
    (free : session.context.IsAssignmentFree tree)
    {limit : Nat}
    {deadline : Option Deadline}
    {value : Number}
    (succeeds : (session.calculateBy limit (name ++ " := " ++ text) deadline).1 = .ok value) :
    (session.calculateBy limit (name ++ " := " ++ text) deadline).2.Gives name
      ((session.context.values.find? name).getD value) := by
  have spelled : " := " = " " ++ ":=" ++ " " := by decide
  rw [spelled] at succeeds ⊢
  obtain ⟨result, caches, evaluates, rfl, kept, held, after⟩ :=
    standard.exists_of_calculate isSound (by decide) named parses succeeds
  obtain ⟨kind, _, chosen, _⟩ := evaluate_eq_ok_iff.1 evaluates
  obtain ⟨becomes, again⟩ := standard.onlyAssigns.evaluate_of_definition free evaluates
  rw [after]
  cases bound : session.context.values.find? name with
  | some earlier =>
      have shadows : result.context.values.find? name = some earlier := by
        rw [becomes]
        exact bound
      exact isSound.gives_of_evaluate held (parse_variable named)
        (evaluate_of_bound ((kindOf_congr kept).trans chosen) shadows limit)
  | none => exact isSound.gives_of_evaluate held (parse_variable named) (again bound)

/-! ## Short texts -/

theorem reader_new_default : (new .default).reader = Standard.reader := by
  have grammar : (new .default).registry.grammar = Standard.grammar := by
    rw [registry_new, if_neg (by decide +kernel), Standard.registry, grammar_rebuildPromotions]
    rfl
  rw [(isStandard_new .default).inStep.reader, grammar]
  rfl

/-- A calculation leaves the reader alone. -/
theorem reader_calculateBy (limit : Nat) (text : String) (deadline : Option Deadline) :
    (session.calculateBy limit text deadline).2.reader = session.reader := by
  obtain ⟨caches, context, after⟩ := session.exists_calculateBy_eq limit text deadline
  rw [after]
  rfl

/-- A name that is known as a variable is read as one token. -/
theorem tokenize_variable
    (reads : session.reader = Standard.reader)
    (name : String)
    (known : Tokenizer.isKnown Standard.grammar ⟨.variable, name⟩ = true) :
    session.tokenize name = .ok [⟨.variable, name⟩] := by
  have isToken := Tokenizer.isToken_of_isKnown Standard.orderly known
  rw [Session.tokenize, reads]
  exact Tokenizer.tokenize_of_isToken Standard.orderly isToken

theorem parse_digit
    (reads : session.reader = Standard.reader)
    (digit : Char)
    (isDigit : '0' ≤ digit ∧ digit ≤ '9') :
    session.parse (String.ofList [digit]) = .ok (.number (String.ofList [digit])) := by
  have numeral : (String.ofList [digit]).toList ∈ Tokenizer.shapeOf .number := by
    rw [String.toList_ofList]
    refine Language.mem_mul.2 ⟨[digit], ?_, [], Or.inl rfl, rfl⟩
    refine Language.mem_kstar.2 ⟨[[digit]], rfl, ?_⟩
    simp only [List.mem_singleton, forall_eq]
    exact ⟨digit, isDigit.1, isDigit.2, rfl⟩
  have isToken := Tokenizer.isToken_number Standard.orderly numeral (by simp)
  have tokenizes : session.reader.tokenize (String.ofList [digit]) =
      .ok [⟨.number, String.ofList [digit]⟩] :=
    reads ▸ Tokenizer.tokenize_of_isToken Standard.orderly isToken
  rw [Session.parse, Reader.parse, tokenizes]
  exact Precedences.parse_eq_ok_iff.2 ⟨[⟨.number, String.ofList [digit]⟩], rfl, trivial, rfl⟩

theorem parse_standard_assignment
    (reads : session.reader = Standard.reader)
    {operator written : String}
    (assigns : operator ∈ Standard.grammar.names (.operator .tree))
    (named : session.tokenize name = .ok [⟨.variable, name⟩])
    (parses : session.parse text = .ok tree)
    (spelled : name ++ (" " ++ operator ++ " ") ++ text = written) :
    session.parse written = .ok (.binary .tree operator (.variable name) tree) := by
  subst spelled
  unfold Session.tokenize at named
  unfold Session.parse at parses ⊢
  rw [reads] at named parses ⊢
  exact Standard.parse_assignment assigns named parses

/-! ## Reading back -/

/-- Whatever has been done with a session of the standard plugin: a variable that a text has been
assigned to gives the value of the assignment, and a name that has been defined as a text without
assignments gives the value of the definition, unless it is bound as a variable, whose value it
gives then. -/
theorem calculate_reads_back
    (configuration : Configuration)
    {operations : List Operation}
    (allowed : ∀ operation ∈ operations, operation.IsStandard)
    {name text : String}
    {tree : Expr}
    (limit : Nat)
    (deadline : Option Deadline)
    (value : Number) :
    let session := (new configuration).performAll operations
    session.tokenize name = .ok [⟨.variable, name⟩] →
    session.parse text = .ok tree →
    session.context.IsAssignmentFree tree →
      ((session.calculateBy limit (name ++ " = " ++ text) deadline).1 = .ok value →
        (session.calculateBy limit (name ++ " = " ++ text) deadline).2.Gives name value) ∧
      ((session.calculateBy limit (name ++ " := " ++ text) deadline).1 = .ok value →
        (session.calculateBy limit (name ++ " := " ++ text) deadline).2.Gives name
          ((session.context.values.find? name).getD value)) := by
  intro session named parses free
  have standard : session.IsStandard := (isStandard_new configuration).performAll allowed
  obtain ⟨sound, isSound⟩ := standard.sound
  exact ⟨standard.gives_of_assignment isSound named parses,
    standard.gives_of_definition isSound named parses free⟩

/-- A name that is assigned to, or defined as, another name that is defined itself. -/
theorem calculate_reads_back_definition :
    let session := (new .default).performAll [.calculate 9 "y := 3" none]
    (session.calculateBy 9 "x = y" none).1 = .ok (.ofInt .fast 3) ∧
      (session.calculateBy 9 "x = y" none).2.Gives "x" (.ofInt .fast 3) ∧
      (session.calculateBy 9 "x := y" none).1 = .ok (.ofInt .fast 3) ∧
      (session.calculateBy 9 "x := y" none).2.Gives "x" (.ofInt .fast 3) := by
  have parsesFirst : (new .default).parse "y := 3" =
      .ok (.binary .tree ":=" (.variable "y") (.number "3")) :=
    parse_standard_assignment reader_new_default (by decide)
      (tokenize_variable reader_new_default "y" (by decide))
      (parse_digit reader_new_default '3' (by decide)) (by decide)
  have first := calculateBy_of_parse_eq_ok parsesFirst 9 none
  intro session
  have reads : session.reader = Standard.reader :=
    (reader_calculateBy 9 "y := 3" none).trans reader_new_default
  have becomes : session = (conclude ((new .default).evaluate 9
      (.binary .tree ":=" (.variable "y") (.number "3")) .never)).2 := congrArg Prod.snd first
  have named := tokenize_variable reads "x" (by decide)
  have parses := parse_variable (tokenize_variable reads "y" (by decide))
  have assigned : (session.calculateBy 9 "x = y" none).1 = .ok (.ofInt .fast 3) := by
    have parsesAssignment : session.parse "x = y" =
        .ok (.binary .tree "=" (.variable "x") (.variable "y")) :=
      parse_standard_assignment reads (by decide) named parses (by decide)
    rw [calculateBy_of_parse_eq_ok parsesAssignment, becomes]
    decide +kernel
  have defined : (session.calculateBy 9 "x := y" none).1 = .ok (.ofInt .fast 3) := by
    have parsesDefinition : session.parse "x := y" =
        .ok (.binary .tree ":=" (.variable "x") (.variable "y")) :=
      parse_standard_assignment reads (by decide) named parses (by decide)
    rw [calculateBy_of_parse_eq_ok parsesDefinition, becomes]
    decide +kernel
  have unbound : session.context.values.find? "x" = none := by
    rw [becomes]
    decide +kernel
  have free : session.context.IsAssignmentFree (.variable "y") := by
    refine Context.isAssignmentFree_variable ?_ (Context.isAssignmentFree_number "3")
    rw [becomes]
    decide +kernel
  have allowed : ∀ operation ∈ [Operation.calculate 9 "y := 3" none], operation.IsStandard := by
    simp [Operation.IsStandard]
  have readsBack :=
    calculate_reads_back .default allowed 9 none (.ofInt .fast 3) named parses free
  have spelledAssignment : "x" ++ " = " ++ "y" = "x = y" := by decide
  have spelledDefinition : "x" ++ " := " ++ "y" = "x := y" := by decide
  rw [spelledAssignment, spelledDefinition, unbound] at readsBack
  exact ⟨assigned, readsBack.1 assigned, defined, readsBack.2 defined⟩

/-- A definition of a name that is bound as a variable is not read back. -/
theorem gives_variable_of_definition :
    let session := (new .default).performAll [.calculate 9 "x = 1" none]
    let after := (session.calculateBy 9 "x := 2" none).2
    session.tokenize "x" = .ok [⟨.variable, "x"⟩] ∧
      session.parse "2" = .ok (.number "2") ∧
      session.context.IsAssignmentFree (.number "2") ∧
      (session.calculateBy 9 "x := 2" none).1 = .ok (.ofInt .fast 2) ∧
      after.Gives "x" (.ofInt .fast 1) ∧ ¬ after.Gives "x" (.ofInt .fast 2) := by
  have parsesFirst : (new .default).parse "x = 1" =
      .ok (.binary .tree "=" (.variable "x") (.number "1")) :=
    parse_standard_assignment reader_new_default (by decide)
      (tokenize_variable reader_new_default "x" (by decide))
      (parse_digit reader_new_default '1' (by decide)) (by decide)
  have first := calculateBy_of_parse_eq_ok parsesFirst 9 none
  intro session after
  have reads : session.reader = Standard.reader :=
    (reader_calculateBy 9 "x = 1" none).trans reader_new_default
  have becomes : session = (conclude ((new .default).evaluate 9
      (.binary .tree "=" (.variable "x") (.number "1")) .never)).2 := congrArg Prod.snd first
  have named := tokenize_variable reads "x" (by decide)
  have parses : session.parse "2" = .ok (.number "2") := parse_digit reads '2' (by decide)
  have parsesSecond : session.parse "x := 2" =
      .ok (.binary .tree ":=" (.variable "x") (.number "2")) :=
    parse_standard_assignment reads (by decide) named parses (by decide)
  have succeeds : (session.calculateBy 9 "x := 2" none).1 = .ok (.ofInt .fast 2) := by
    rw [calculateBy_of_parse_eq_ok parsesSecond, becomes]
    decide +kernel
  have bound : session.context.values.find? "x" = some (.ofInt .fast 1) := by
    rw [becomes]
    decide +kernel
  have free : session.context.IsAssignmentFree (.number "2") := Context.isAssignmentFree_number "2"
  have standard : session.IsStandard :=
    (isStandard_new .default).performAll (by simp [Operation.IsStandard])
  obtain ⟨sound, isSound⟩ := standard.sound
  have spelled : "x" ++ " := " ++ "2" = "x := 2" := by decide
  have gives := standard.gives_of_definition isSound named parses free (spelled ▸ succeeds)
  rw [spelled, bound] at gives
  refine ⟨named, parses, free, succeeds, gives, fun other => ?_⟩
  exact absurd (gives.unique other) (by decide)

end Session
end Reckoner
