import Reckoner.Proofs.Expr.Climbing

/-!
# Runs of the descent

The steps of precedence climbing as rules.  Every expression of the grammar has a run: it may leave
an operator that the limit does not absorb, with the rest of the expression, but nothing else.
-/

namespace Reckoner
namespace Precedences

variable {precedences : Precedences}

/-- How the operator in front of the tokens is read, if there is a known one. -/
def next? (precedences : Precedences) : List Token → Option OperatorSpec
  | ⟨.operator _, operator⟩ :: _ => precedences.specs.find? operator
  | _ => none

/-- No operator in front of the tokens continues an operand with this limit. -/
def Declines (precedences : Precedences) (limit : Option Int) (tokens : List Token) : Prop :=
  ∀ spec, precedences.next? tokens = some spec → spec.fixity = .between → ¬Absorbs limit spec

/-! ## Rules -/

/-- Operators that follow an operand are applied to it. -/
inductive Trails (precedences : Precedences) :
    Expr → List Token → Expr → List Token → Prop
  | stop
      {operand : Expr}
      {tokens : List Token}
      (other : ∀ spec, precedences.next? tokens = some spec → spec.fixity ≠ .after) :
      Trails precedences operand tokens operand tokens
  | more
      {mode : Mode}
      {operator : String}
      {operand tree : Expr}
      {tokens rest : List Token}
      (after : precedences.fixity? operator = some .after)
      (trails : Trails precedences (.unary mode operator .after operand) tokens tree rest) :
      Trails precedences operand (⟨.operator mode, operator⟩ :: tokens) tree rest

mutual

/-- The descent reads an operand and leaves `rest`. -/
inductive ClimbsOperand (precedences : Precedences) : List Token → Expr → List Token → Prop
  | number
      {text : String}
      {tokens rest : List Token}
      {tree : Expr}
      (trails : precedences.Trails (.number text) tokens tree rest) :
      ClimbsOperand precedences (⟨.number, text⟩ :: tokens) tree rest
  | named
      {name : String}
      {tokens rest : List Token}
      {tree : Expr}
      (trails : precedences.Trails (.variable name) tokens tree rest) :
      ClimbsOperand precedences (⟨.variable, name⟩ :: tokens) tree rest
  | group
      {opening closing : String}
      {tokens behind rest : List Token}
      {inner tree : Expr}
      (climbs : Climbs precedences none tokens inner (⟨.closeParen, closing⟩ :: behind))
      (trails : precedences.Trails inner behind tree rest) :
      ClimbsOperand precedences (⟨.openParen, opening⟩ :: tokens) tree rest
  | led
      {mode : Mode}
      {operator : String}
      {associativity : Associativity}
      {precedence : Int}
      {tokens rest : List Token}
      {operand : Expr}
      (known : precedences.specs.find? (signed mode operator).2 =
        some ⟨associativity, .before, precedence⟩)
      (climbs : Climbs precedences (some precedence) tokens operand rest) :
      ClimbsOperand precedences (⟨.operator mode, operator⟩ :: tokens)
        (.unary (signed mode operator).1 (signed mode operator).2 .before operand) rest
  | emptyCall
      {mode : Mode}
      {name opening closing : String}
      {rest : List Token} :
      ClimbsOperand precedences
        (⟨.function mode, name⟩ :: ⟨.openParen, opening⟩ :: ⟨.closeParen, closing⟩ :: rest)
        (.call mode name []) rest
  | call
      {mode : Mode}
      {name opening : String}
      {tokens rest : List Token}
      {arguments : List Expr}
      (climbs : ClimbsArguments precedences tokens arguments rest) :
      ClimbsOperand precedences (⟨.function mode, name⟩ :: ⟨.openParen, opening⟩ :: tokens)
        (.call mode name arguments) rest

/-- The descent reads the arguments of a call and leaves `rest` behind the closing parenthesis. -/
inductive ClimbsArguments (precedences : Precedences) :
    List Token → List Expr → List Token → Prop
  | last
      {closing : String}
      {tokens rest : List Token}
      {argument : Expr}
      (climbs : Climbs precedences none tokens argument (⟨.closeParen, closing⟩ :: rest)) :
      ClimbsArguments precedences tokens [argument] rest
  | more
      {separator : String}
      {tokens behind rest : List Token}
      {argument : Expr}
      {others : List Expr}
      (climbs : Climbs precedences none tokens argument (⟨.comma, separator⟩ :: behind))
      (further : ClimbsArguments precedences behind others rest) :
      ClimbsArguments precedences tokens (argument :: others) rest

/-- The descent reads an expression within a limit and leaves `rest`. -/
inductive Climbs (precedences : Precedences) :
    Option Int → List Token → Expr → List Token → Prop
  | intro
      {limit : Option Int}
      {tokens middle rest : List Token}
      {operand tree : Expr}
      (operands : ClimbsOperand precedences tokens operand middle)
      (further : ClimbsFrom precedences limit operand middle tree rest) :
      Climbs precedences limit tokens tree rest

/-- The descent goes on from a left operand and leaves `rest`. -/
inductive ClimbsFrom (precedences : Precedences) :
    Option Int → Expr → List Token → Expr → List Token → Prop
  | stop
      {limit : Option Int}
      {left : Expr}
      {tokens : List Token}
      (declines : precedences.Declines limit tokens) :
      ClimbsFrom precedences limit left tokens left tokens
  | more
      {mode : Mode}
      {operator : String}
      {associativity : Associativity}
      {precedence : Int}
      {limit : Option Int}
      {left right tree : Expr}
      {tokens middle rest : List Token}
      (known : precedences.specs.find? operator = some ⟨associativity, .between, precedence⟩)
      (absorbs : Absorbs limit ⟨associativity, .between, precedence⟩)
      (climbs : Climbs precedences (some precedence) tokens right middle)
      (further : ClimbsFrom precedences limit (.binary mode operator left right) middle tree rest) :
      ClimbsFrom precedences limit left (⟨.operator mode, operator⟩ :: tokens) tree rest

end

/-- What is left behind an expression does not continue it. -/
theorem ClimbsFrom.declines
    {limit : Option Int}
    {left tree : Expr}
    {tokens rest : List Token} :
    precedences.ClimbsFrom limit left tokens tree rest → precedences.Declines limit rest
  | .stop declines => declines
  | .more _ _ _ further => further.declines

/-- A climb ends where the next operator is declined. -/
theorem Climbs.declines
    {limit : Option Int}
    {tree : Expr}
    {tokens rest : List Token} :
    precedences.Climbs limit tokens tree rest → precedences.Declines limit rest
  | .intro _ further => further.declines

/-! ## The descent follows the rules -/

theorem Trails.climbTrailing_eq
    {operand tree : Expr}
    {tokens rest : List Token}
    (trails : precedences.Trails operand tokens tree rest) :
    ∃ notLonger, precedences.climbTrailing operand tokens = (tree, ⟨rest, notLonger⟩) := by
  induction trails with
  | stop other =>
      refine ⟨Nat.le_refl _, ?_⟩
      unfold climbTrailing
      split
      next mode operator rest =>
        rw [if_neg]
        intro after
        obtain ⟨spec, known, after⟩ := Option.map_eq_some_iff.1 after
        exact other spec known after
      next => rfl
  | more after trails hypothesis =>
      obtain ⟨notLonger, same⟩ := hypothesis
      exact ⟨Nat.le_succ_of_le notLonger, by simp [climbTrailing, after, same]⟩

theorem Climbs.head_ne
    {limit : Option Int}
    {tokens rest : List Token}
    {tree : Expr}
    (climbs : precedences.Climbs limit tokens tree rest)
    (closing : String)
    (behind : List Token) :
    tokens ≠ ⟨.closeParen, closing⟩ :: behind := by
  rintro rfl
  obtain ⟨operands, _⟩ := climbs
  cases operands

theorem ClimbsArguments.head_ne
    {tokens rest : List Token}
    {arguments : List Expr}
    (climbs : precedences.ClimbsArguments tokens arguments rest)
    (closing : String)
    (behind : List Token) :
    tokens ≠ ⟨.closeParen, closing⟩ :: behind := by
  cases climbs with
  | last climbs => exact climbs.head_ne closing behind
  | more climbs _ => exact climbs.head_ne closing behind

/-- A call that is not closed at once has arguments. -/
theorem climbOperand_call
    {mode : Mode}
    {name opening : String}
    {tokens rest : List Token}
    {arguments : List Expr}
    {shorter : rest.length < tokens.length}
    (head_ne : ∀ closing behind, tokens ≠ ⟨.closeParen, closing⟩ :: behind)
    (read : precedences.climbArguments tokens = some (arguments, ⟨rest, shorter⟩)) :
    ∃ shorter,
      precedences.climbOperand (⟨.function mode, name⟩ :: ⟨.openParen, opening⟩ :: tokens) =
        some (.call mode name arguments, ⟨rest, shorter⟩) := by
  refine ⟨by simp only [List.length_cons]; omega, ?_⟩
  match tokens with
  | [] => simp [climbOperand, read]
  | ⟨kind, lexeme⟩ :: behind =>
      cases kind with
      | closeParen => exact absurd rfl (head_ne lexeme behind)
      | _ => simp [climbOperand, read]

mutual

/-- An operand that climbs is found. -/
theorem ClimbsOperand.climbOperand_eq {tokens rest : List Token} {tree : Expr} :
    precedences.ClimbsOperand tokens tree rest →
      ∃ shorter, precedences.climbOperand tokens = some (tree, ⟨rest, shorter⟩)
  | .number trails => by
      obtain ⟨notLonger, same⟩ := trails.climbTrailing_eq
      exact ⟨by simp; omega, by simp [climbOperand, same]⟩
  | .named trails => by
      obtain ⟨notLonger, same⟩ := trails.climbTrailing_eq
      exact ⟨by simp; omega, by simp [climbOperand, same]⟩
  | .group climbs trails => by
      obtain ⟨shorter, read⟩ := climbs.climb_eq
      obtain ⟨notLonger, same⟩ := trails.climbTrailing_eq
      refine ⟨?_, by simp [climbOperand, read, same]⟩
      simp only [List.length_cons] at shorter ⊢
      omega
  | .led known climbs => by
      obtain ⟨shorter, read⟩ := climbs.climb_eq
      exact ⟨Nat.lt_succ_of_lt shorter, by simp [climbOperand, known, read]⟩
  | .emptyCall => ⟨by simp; omega, by simp [climbOperand]⟩
  | .call climbs => by
      obtain ⟨shorter, read⟩ := climbs.climbArguments_eq
      exact climbOperand_call climbs.head_ne read

/-- Arguments that climb are found. -/
theorem ClimbsArguments.climbArguments_eq {tokens rest : List Token} {arguments : List Expr} :
    precedences.ClimbsArguments tokens arguments rest →
      ∃ shorter, precedences.climbArguments tokens = some (arguments, ⟨rest, shorter⟩)
  | .last climbs => by
      obtain ⟨shorter, read⟩ := climbs.climb_eq
      refine ⟨by simp only [List.length_cons] at shorter; omega, ?_⟩
      rw [climbArguments, read]
  | .more climbs further => by
      obtain ⟨shorter, read⟩ := climbs.climb_eq
      obtain ⟨shorterStill, readOthers⟩ := further.climbArguments_eq
      refine ⟨by simp only [List.length_cons] at shorter; omega, ?_⟩
      rw [climbArguments, read]
      simp [readOthers]

/-- What climbs is found by climbing. -/
theorem Climbs.climb_eq {limit : Option Int} {tokens rest : List Token} {tree : Expr} :
    precedences.Climbs limit tokens tree rest →
      ∃ shorter, precedences.climb limit tokens = some (tree, ⟨rest, shorter⟩)
  | .intro operands further => by
      obtain ⟨shorter, read⟩ := operands.climbOperand_eq
      obtain ⟨notLonger, readFurther⟩ := further.climbFrom_eq
      refine ⟨by omega, ?_⟩
      rw [climb, read]
      simp [readFurther]

theorem ClimbsFrom.climbFrom_eq
    {limit : Option Int}
    {left tree : Expr}
    {tokens rest : List Token} :
    precedences.ClimbsFrom limit left tokens tree rest →
      ∃ notLonger, precedences.climbFrom limit left tokens = some (tree, ⟨rest, notLonger⟩)
  | .stop declines => by
      refine ⟨Nat.le_refl _, ?_⟩
      unfold climbFrom
      split
      next mode operator rest =>
        split
        next associativity precedence known =>
          rw [if_neg (declines _ known rfl)]
        next => rfl
      next => rfl
  | .more known absorbs climbs further => by
      obtain ⟨shorter, read⟩ := climbs.climb_eq
      obtain ⟨notLonger, readFurther⟩ := further.climbFrom_eq
      refine ⟨by simp only [List.length_cons]; omega, ?_⟩
      rw [climbFrom, known]
      simp [absorbs, read, readFurther]

end

/-! ## Every expression has a run -/

/-- The part of an expression behind one of its operands. -/
def IsContinuation (precedences : Precedences) (tokens : List Token) : Prop :=
  tokens = [] ∨ ∃ mode operator rest, tokens = ⟨.operator mode, operator⟩ :: rest ∧
    precedences.fixity? operator = some .between ∧ precedences.IsExpression rest

/-- An expression is an operand and what continues it. -/
theorem IsExpression.split
    {tokens : List Token}
    (expression : precedences.IsExpression tokens) :
    ∃ operand further, tokens = operand ++ further ∧ precedences.IsOperand operand ∧
      precedences.IsContinuation further := by
  cases expression with
  | last operand => exact ⟨tokens, [], by simp, operand, Or.inl rfl⟩
  | more operand between others =>
      exact ⟨_, _, rfl, operand, Or.inr ⟨_, _, _, rfl, between, others⟩⟩

theorem IsExpression.append {tokens further : List Token} :
    precedences.IsExpression tokens → precedences.IsContinuation further →
      precedences.IsExpression (tokens ++ further)
  | .last operand, continuation => by
      rcases continuation with rfl | ⟨mode, operator, rest, rfl, between, others⟩
      · rw [List.append_nil]
        exact .last operand
      · exact .more operand between others
  | .more operand between others, continuation => by
      rw [List.append_assoc, List.cons_append]
      exact .more operand between (others.append continuation)

/-- What follows a whole operand is not an operator that belongs to it. -/
theorem IsContinuation.fixity_eq
    {further rest : List Token}
    (continuation : precedences.IsContinuation further)
    (ends : precedences.next? rest = none)
    {spec : OperatorSpec}
    (next : precedences.next? (further ++ rest) = some spec) :
    spec.fixity = .between := by
  rcases continuation with rfl | ⟨mode, operator, others, rfl, between, _⟩
  · rw [List.nil_append, ends] at next
    cases next
  · obtain ⟨found, known, fixity⟩ := Option.map_eq_some_iff.1 between
    obtain rfl := Option.some.inj (known.symm.trans next)
    exact fixity

/-- Trailing operators trail any operand. -/
theorem exists_trails
    {trailing rest : List Token}
    (operators : precedences.IsTrailing trailing)
    (other : ∀ spec, precedences.next? rest = some spec → spec.fixity ≠ .after)
    (operand : Expr) :
    ∃ tree, precedences.Trails operand (trailing ++ rest) tree rest := by
  induction operators generalizing operand with
  | nil => exact ⟨operand, .stop other⟩
  | cons after trailing hypothesis =>
      obtain ⟨tree, trails⟩ := hypothesis (.unary _ _ .after operand)
      exact ⟨tree, .more after trails⟩

/-- The descent reads these tokens up to a continuation, which is empty when there is no limit. -/
def HasRun (precedences : Precedences) (tokens : List Token) : Prop :=
  ∀ limit rest, precedences.next? rest = none →
    ∃ tree further, precedences.Climbs limit (tokens ++ rest) tree (further ++ rest) ∧
      precedences.IsContinuation further ∧ further.length < tokens.length ∧
      (limit = none → further = [])

theorem HasRun.closed
    {tokens : List Token}
    (run : precedences.HasRun tokens)
    (rest : List Token)
    (ends : precedences.next? rest = none) :
    ∃ tree, precedences.Climbs none (tokens ++ rest) tree rest := by
  obtain ⟨tree, further, climbs, _, _, closed⟩ := run none rest ends
  obtain rfl := closed rfl
  exact ⟨tree, climbs⟩

theorem IsAtom.exists_climbsOperand
    {tokens trailing rest : List Token}
    (atom : precedences.IsAtom tokens)
    (hypothesis : ∀ inner, inner.length < tokens.length → precedences.IsExpression inner →
      precedences.HasRun inner)
    (operators : precedences.IsTrailing trailing)
    (other : ∀ spec, precedences.next? rest = some spec → spec.fixity ≠ .after) :
    ∃ tree, precedences.ClimbsOperand (tokens ++ (trailing ++ rest)) tree rest := by
  cases atom with
  | number text =>
      obtain ⟨tree, trails⟩ := exists_trails operators other (.number text)
      exact ⟨tree, .number trails⟩
  | named name =>
      obtain ⟨tree, trails⟩ := exists_trails operators other (.variable name)
      exact ⟨tree, .named trails⟩
  | group opening closing expression =>
      have shorter : ∀ inner : List Token, inner.length <
          (⟨.openParen, opening⟩ :: (inner ++ [⟨.closeParen, closing⟩]) : List Token).length := by
        intro inner
        simp only [List.length_cons, List.length_append]
        omega
      have run := hypothesis _ (shorter _) expression
      obtain ⟨inner, climbs⟩ := run.closed (⟨.closeParen, closing⟩ :: (trailing ++ rest)) rfl
      obtain ⟨tree, trails⟩ := exists_trails operators other inner
      refine ⟨tree, ?_⟩
      rw [List.cons_append, List.append_assoc]
      exact .group climbs trails

theorem IsArguments.exists_climbsArguments
    (closing : String)
    (rest : List Token)
    {tokens : List Token} :
    precedences.IsArguments tokens →
      (∀ inner, inner.length ≤ tokens.length → precedences.IsExpression inner →
        precedences.HasRun inner) →
      ∃ trees, precedences.ClimbsArguments (tokens ++ ⟨.closeParen, closing⟩ :: rest) trees rest
  | .last expression, hypothesis => by
      have run := hypothesis _ (Nat.le_refl _) expression
      obtain ⟨tree, climbs⟩ := run.closed (⟨.closeParen, closing⟩ :: rest) rfl
      exact ⟨[tree], .last climbs⟩
  | @IsArguments.more _ first behind separator expression others, hypothesis => by
      have run := hypothesis first (by simp) expression
      have shorter (inner : List Token) (within : inner.length ≤ behind.length) :
          inner.length ≤ (first ++ ⟨.comma, separator⟩ :: behind).length := by
        simp only [List.length_append, List.length_cons]
        omega
      obtain ⟨trees, further⟩ := others.exists_climbsArguments closing rest
        fun inner within => hypothesis inner (shorter inner within)
      obtain ⟨tree, climbs⟩ :=
        run.closed (⟨.comma, separator⟩ :: (behind ++ ⟨.closeParen, closing⟩ :: rest)) rfl
      refine ⟨tree :: trees, ?_⟩
      rw [List.append_assoc, List.cons_append]
      exact .more climbs further

/-- A leading operator is meant by a name that is known to stand in front of its operand. -/
theorem IsLeading.exists_spec
    {operator : String}
    (sign : precedences.fixity? negation = some .before)
    (leading : precedences.IsLeading operator)
    (mode : Mode) :
    ∃ associativity precedence, precedences.specs.find? (signed mode operator).2 =
      some ⟨associativity, .before, precedence⟩ := by
  have before : precedences.fixity? (signed mode operator).2 = some .before := by
    unfold signed
    split
    next => exact sign
    next different => exact leading.resolve_left different
  obtain ⟨⟨associativity, _, precedence⟩, known, rfl⟩ := Option.map_eq_some_iff.1 before
  exact ⟨associativity, precedence, known⟩

/-- An operand climbs when the expressions inside of it do. -/
theorem IsOperand.exists_climbsOperand
    {tokens further rest : List Token}
    (sign : precedences.fixity? negation = some .before)
    (operand : precedences.IsOperand tokens)
    (continuation : precedences.IsContinuation further)
    (hypothesis : ∀ inner, inner.length < (tokens ++ further).length →
      precedences.IsExpression inner → precedences.HasRun inner)
    (ends : precedences.next? rest = none) :
    ∃ tree remaining, precedences.ClimbsOperand (tokens ++ (further ++ rest)) tree
        (remaining ++ rest) ∧
      precedences.IsContinuation remaining ∧ remaining.length < (tokens ++ further).length := by
  cases operand with
  | @trailed tokens trailing atom operators =>
      have nonempty : 0 < tokens.length := by cases atom <;> simp
      simp only [List.length_append] at hypothesis
      have other (spec : OperatorSpec) (next : precedences.next? (further ++ rest) = some spec) :
          spec.fixity ≠ .after := by
        simp [continuation.fixity_eq ends next]
      obtain ⟨tree, climbs⟩ := atom.exists_climbsOperand
        (fun inner shorter => hypothesis inner (by omega)) operators other
      refine ⟨tree, further, ?_, continuation, ?_⟩
      · rwa [List.append_assoc]
      · simp only [List.length_append]
        omega
  | @led mode operator tokens leading expression =>
      obtain ⟨associativity, precedence, known⟩ := leading.exists_spec sign mode
      have run := hypothesis _ (by simp) (expression.append continuation)
      obtain ⟨tree, remaining, climbs, later, shorter, _⟩ := run (some precedence) rest ends
      rw [List.append_assoc] at climbs
      exact ⟨_, remaining, .led known climbs, later, Nat.lt_succ_of_lt shorter⟩
  | emptyCall mode name opening closing =>
      refine ⟨_, further, .emptyCall, continuation, ?_⟩
      simp only [List.length_append, List.length_cons]
      omega
  | @call tokens mode name opening closing arguments =>
      simp only [List.length_append, List.length_cons] at hypothesis
      obtain ⟨trees, climbs⟩ := arguments.exists_climbsArguments closing (further ++ rest)
        fun inner within => hypothesis inner (by omega)
      refine ⟨.call mode name trees, further, ?_, continuation, ?_⟩
      · simp only [List.cons_append, List.append_assoc, List.nil_append]
        exact .call climbs
      · simp only [List.length_append, List.length_cons]
        omega

/-- From a left operand on, the descent goes over the operators that the limit absorbs. -/
theorem IsContinuation.exists_climbsFrom
    {further rest : List Token}
    (continuation : precedences.IsContinuation further)
    (hypothesis : ∀ inner, inner.length < further.length →
      precedences.IsExpression inner → precedences.HasRun inner)
    (ends : precedences.next? rest = none)
    (limit : Option Int)
    (left : Expr) :
    ∃ tree remaining, precedences.ClimbsFrom limit left (further ++ rest) tree
        (remaining ++ rest) ∧
      precedences.IsContinuation remaining ∧ remaining.length ≤ further.length ∧
      (limit = none → remaining = []) := by
  induction size : further.length using Nat.strongRecOn generalizing further left with
  | ind length shorterHypothesis =>
      subst size
      rcases continuation with rfl | ⟨mode, operator, others, rfl, between, expression⟩
      · refine ⟨left, [], .stop ?_, Or.inl rfl, Nat.le_refl _, fun _ => rfl⟩
        intro spec next
        rw [List.nil_append, ends] at next
        cases next
      · obtain ⟨⟨associativity, _, precedence⟩, known, rfl⟩ := Option.map_eq_some_iff.1 between
        by_cases absorbs : Absorbs limit ⟨associativity, .between, precedence⟩
        · obtain ⟨right, middle, climbs, later, shorter, _⟩ :=
            hypothesis others (by simp) expression (some precedence) rest ends
          obtain ⟨tree, remaining, climbsFrom, last, notLonger, closed⟩ :=
            shorterHypothesis middle.length (Nat.lt_succ_of_lt shorter) later
              (fun inner within => hypothesis inner (by simp only [List.length_cons]; omega))
              (.binary mode operator left right) rfl
          refine ⟨tree, remaining, .more known absorbs climbs climbsFrom, last, ?_, closed⟩
          simp only [List.length_cons]
          omega
        · refine ⟨left, _, .stop ?_, Or.inr ⟨mode, operator, others, rfl, between, expression⟩,
            Nat.le_refl _, ?_⟩
          · intro spec next _
            obtain rfl := Option.some.inj (known.symm.trans next)
            exact absorbs
          · rintro rfl
            exact absurd trivial absorbs

/-- Every expression has a run within every limit. -/
theorem IsExpression.hasRun
    {tokens : List Token}
    (sign : precedences.fixity? negation = some .before)
    (expression : precedences.IsExpression tokens) :
    precedences.HasRun tokens := by
  induction size : tokens.length using Nat.strongRecOn generalizing tokens with
  | ind length hypothesis =>
      subst size
      replace hypothesis (inner : List Token) (shorter : inner.length < tokens.length)
          (expression : precedences.IsExpression inner) : precedences.HasRun inner :=
        hypothesis _ shorter expression rfl
      intro limit rest ends
      obtain ⟨operand, further, rfl, isOperand, continuation⟩ := expression.split
      obtain ⟨left, middle, operands, later, shorter⟩ :=
        isOperand.exists_climbsOperand sign continuation hypothesis ends
      obtain ⟨tree, remaining, climbs, last, notLonger, closed⟩ :=
        later.exists_climbsFrom
          (fun inner within => hypothesis inner (Nat.lt_trans within shorter)) ends limit left
      refine ⟨tree, remaining, ?_, last, Nat.lt_of_le_of_lt notLonger shorter, closed⟩
      rw [List.append_assoc]
      exact .intro operands climbs

/-- The descent succeeds on every expression. -/
theorem IsExpression.exists_climbs
    {tokens : List Token}
    (sign : precedences.fixity? negation = some .before)
    (expression : precedences.IsExpression tokens) :
    ∃ tree, precedences.Climbs none tokens tree [] := by
  obtain ⟨tree, climbs⟩ := (expression.hasRun sign).closed [] rfl
  exact ⟨tree, List.append_nil tokens ▸ climbs⟩

/-- What climbs to the end is found as a whole. -/
theorem Climbs.climbAll_eq
    {tokens : List Token}
    {tree : Expr}
    (climbs : precedences.Climbs none tokens tree []) :
    precedences.climbAll tokens = some tree := by
  obtain ⟨_, read⟩ := climbs.climb_eq
  rw [climbAll, read]

end Precedences
end Reckoner
