import Reckoner.Proofs.Expr.Descent

/-!
# Reordering as the descent reads

Taking in the tokens that the descent reads as a tree places the postfix order of the tree, except
for some operators and functions that still wait.  These are the last tokens of the postfix order,
and all of them are placed as soon as anything arrives that the descent has left for later.
-/

namespace Reckoner
namespace Precedences

open Reckoner.Expr

variable {precedences : Precedences}

/-! ## Waiting tokens -/

/-- A waiting token that is placed before anything in front of `rest` is: a function, or an operator
whose right operand does not go on. -/
def Yields (precedences : Precedences) (rest : List Token) (token : Token) : Prop :=
  match token.kind with
  | .function _ => True
  | .operator _ => ∃ spec, precedences.specs.find? token.lexeme = some spec ∧
      precedences.Declines (some spec.precedence) rest
  | _ => False

/-- What an operand with this limit finds waiting: the operator of the limit or, without a limit,
nothing or an open parenthesis. -/
def Holds (precedences : Precedences) : (limit : Option Int) → (waiting : List Token) → Prop
  | none, waiting => waiting = [] ∨ ∃ opening below, waiting = ⟨.openParen, opening⟩ :: below
  | some limit, waiting => ∃ mode operator spec below,
      waiting = ⟨.operator mode, operator⟩ :: below ∧
        precedences.specs.find? operator = some spec ∧ spec.precedence = limit

theorem holds_openParen (precedences : Precedences) (opening : String) (below : List Token) :
    precedences.Holds none (⟨.openParen, opening⟩ :: below) :=
  Or.inr ⟨opening, below, rfl⟩

theorem holds_operator
    {operator : String}
    {spec : OperatorSpec}
    (known : precedences.specs.find? operator = some spec)
    (mode : Mode)
    (below : List Token) :
    precedences.Holds (some spec.precedence) (⟨.operator mode, operator⟩ :: below) :=
  ⟨mode, operator, spec, below, rfl, known, rfl⟩

theorem Yields.isOperator_or_isFunction
    {rest : List Token}
    {token : Token}
    (yields : precedences.Yields rest token) :
    (token.kind.isOperator || token.kind.isFunction) = true := by
  unfold Yields at yields
  split at yields
  next kind => rw [kind]; rfl
  next kind => rw [kind]; rfl
  next => exact yields.elim

theorem Yields.kind_ne
    {rest : List Token}
    {token : Token}
    (yields : precedences.Yields rest token) :
    token.kind ≠ .openParen := by
  intro kind
  rw [Yields, kind] at yields
  exact yields

/-- Everything that yields is placed by an arriving operator. -/
theorem placeTighter_append
    {mode : Mode}
    {operator : String}
    {arriving : OperatorSpec}
    {upper rest : List Token}
    (known : precedences.specs.find? operator = some arriving)
    (between : arriving.fixity = .between)
    (yields : ∀ token ∈ upper, precedences.Yields (⟨.operator mode, operator⟩ :: rest) token)
    (placed waiting : List Token) :
    precedences.placeTighter arriving placed (upper ++ waiting) =
      precedences.placeTighter arriving (upper.reverse ++ placed) waiting := by
  induction upper generalizing placed with
  | nil => rfl
  | cons top upper hypothesis =>
      have later := hypothesis (fun token member => yields token (List.mem_cons_of_mem _ member))
        (top :: placed)
      have first := yields top List.mem_cons_self
      rw [List.reverse_cons, List.append_assoc, List.singleton_append, ← later, List.cons_append,
        placeTighter]
      unfold Yields at first
      split at first
      next kind => rw [kind]
      next kind =>
        obtain ⟨spec, found, declines⟩ := first
        have tight := declines arriving known between
        rw [kind]
        simp only [spec_eq_ok_iff.2 found]
        exact if_neg tight
      next => exact first.elim

/-- An operator that the limit absorbs is not preceded by what the limit holds. -/
theorem placeTighter_of_holds
    {limit : Option Int}
    {arriving : OperatorSpec}
    {waiting : List Token}
    (holds : precedences.Holds limit waiting)
    (absorbs : Absorbs limit arriving)
    (placed : List Token) :
    precedences.placeTighter arriving placed waiting = .ok (placed, waiting) := by
  cases limit with
  | none =>
      rcases holds with rfl | ⟨opening, below, rfl⟩
      · rfl
      · rfl
  | some limit =>
      obtain ⟨mode, operator, spec, below, rfl, known, rfl⟩ := holds
      rw [placeTighter]
      simp only [spec_eq_ok_iff.2 known]
      exact if_pos absorbs

/-- What yields inside of a parenthesis is placed when it closes. -/
theorem placeInside_append
    {upper rest : List Token}
    (yields : ∀ token ∈ upper, precedences.Yields rest token)
    (opening : String)
    (placed waiting : List Token) :
    placeInside placed (upper ++ ⟨.openParen, opening⟩ :: waiting) =
      .ok (upper.reverse ++ placed, ⟨.openParen, opening⟩ :: waiting) := by
  induction upper generalizing placed with
  | nil => rfl
  | cons top upper hypothesis =>
      rw [List.cons_append, placeInside, if_neg (yields top List.mem_cons_self).kind_ne,
        hypothesis (fun token member => yields token (List.mem_cons_of_mem _ member))]
      simp

/-- What yields is placed at the end. -/
theorem placeRest_eq
    {upper rest : List Token}
    (yields : ∀ token ∈ upper, precedences.Yields rest token)
    (placed : List Token) :
    placeRest placed upper = .ok (upper.reverse ++ placed) := by
  induction upper generalizing placed with
  | nil => rfl
  | cons top upper hypothesis =>
      rw [placeRest, if_pos (yields top List.mem_cons_self).isOperator_or_isFunction,
        hypothesis (fun token member => yields token (List.mem_cons_of_mem _ member))]
      simp

/-! ## Single steps -/

theorem shiftAll_cons
    {state next : Reordering}
    {token : Token}
    {rest : List Token}
    (shifts : precedences.shift state token = .ok next) :
    precedences.shiftAll state (token :: rest) = precedences.shiftAll next rest := by
  rw [shiftAll, shifts]

/-- Shifts go on where the ones before ended. -/
theorem shiftAll_append
    {state next : Reordering}
    {tokens : List Token}
    (shifts : precedences.shiftAll state tokens = .ok next)
    (rest : List Token) :
    precedences.shiftAll state (tokens ++ rest) = precedences.shiftAll next rest := by
  induction tokens generalizing state with
  | nil =>
      obtain rfl := Except.ok.inj shifts
      rfl
  | cons token tokens hypothesis =>
      rw [shiftAll] at shifts
      split at shifts
      next => cases shifts
      next middle step =>
        rw [List.cons_append, shiftAll_cons step]
        exact hypothesis shifts

/-- Where an operand is expected, an operator is read as the one that is meant. -/
theorem resolve_eq_signed
    {previous : Option Token}
    (expects : precedences.expectsOperand previous = true)
    (mode : Mode)
    (operator : String) :
    precedences.resolve previous ⟨.operator mode, operator⟩ =
      ⟨.operator (signed mode operator).1, (signed mode operator).2⟩ := by
  unfold resolve signed
  by_cases minus : operator = "-"
  · simp [minus, expects]
  · simp [minus]

theorem resolve_eq_self
    {previous : Option Token}
    (expects : precedences.expectsOperand previous = false)
    (token : Token) :
    precedences.resolve previous token = token := by
  simp [resolve, expects]

theorem expectsOperand_operator
    {operator : String}
    {spec : OperatorSpec}
    (known : precedences.specs.find? operator = some spec)
    (mode : Mode) :
    precedences.expectsOperand (some ⟨.operator mode, operator⟩) = (spec.fixity != .after) := by
  simp [expectsOperand, known]

theorem fixity?_eq_some_of_find?
    {operator : String}
    {spec : OperatorSpec}
    (known : precedences.specs.find? operator = some spec) :
    precedences.fixity? operator = some spec.fixity := by
  rw [fixity?, known, Option.map_some]

/-- A trailing operator is placed at once. -/
theorem shift_after
    {mode : Mode}
    {operator : String}
    {previous : Option Token}
    (after : precedences.fixity? operator = some .after)
    (expects : precedences.expectsOperand previous = false)
    (placed waiting : List Token) :
    precedences.shift ⟨placed, waiting, previous⟩ ⟨.operator mode, operator⟩ =
      .ok ⟨⟨.operator mode, operator⟩ :: placed, waiting, some ⟨.operator mode, operator⟩⟩ := by
  obtain ⟨spec, known, fixity⟩ := fixity?_eq_some_iff.1 after
  simp [shift, resolve_eq_self expects, known, fixity]

/-- A leading operator waits. -/
theorem shift_before
    {mode : Mode}
    {operator : String}
    {associativity : Associativity}
    {precedence : Int}
    {previous : Option Token}
    (known : precedences.specs.find? (signed mode operator).2 =
      some ⟨associativity, .before, precedence⟩)
    (expects : precedences.expectsOperand previous = true)
    (placed waiting : List Token) :
    precedences.shift ⟨placed, waiting, previous⟩ ⟨.operator mode, operator⟩ =
      .ok ⟨placed, ⟨.operator (signed mode operator).1, (signed mode operator).2⟩ :: waiting,
        some ⟨.operator (signed mode operator).1, (signed mode operator).2⟩⟩ := by
  simp [shift, resolve_eq_signed expects, spec_eq_ok_iff.2 known]

/-- An absorbed operator is kept waiting above what the limit holds, after everything that yields to
it has been placed. -/
theorem shift_between
    {mode : Mode}
    {operator : String}
    {associativity : Associativity}
    {precedence : Int}
    {limit : Option Int}
    {previous : Option Token}
    {upper waiting rest : List Token}
    (known : precedences.specs.find? operator = some ⟨associativity, .between, precedence⟩)
    (absorbs : Absorbs limit ⟨associativity, .between, precedence⟩)
    (holds : precedences.Holds limit waiting)
    (yields : ∀ token ∈ upper, precedences.Yields (⟨.operator mode, operator⟩ :: rest) token)
    (expects : precedences.expectsOperand previous = false)
    (placed : List Token) :
    precedences.shift ⟨placed, upper ++ waiting, previous⟩ ⟨.operator mode, operator⟩ =
      .ok ⟨upper.reverse ++ placed, ⟨.operator mode, operator⟩ :: waiting,
        some ⟨.operator mode, operator⟩⟩ := by
  have places : precedences.placeTighter ⟨associativity, .between, precedence⟩ placed
      (upper ++ waiting) = .ok (upper.reverse ++ placed, waiting) := by
    rw [placeTighter_append known rfl yields, placeTighter_of_holds holds absorbs]
  simp [shift, resolve_eq_self expects, spec_eq_ok_iff.2 known, places]

/-! ## Whole runs -/

/-- A state in which a tree has just been read on top of what was placed and waiting before: the
last tokens of its postfix order may still wait, if they yield to what comes next. -/
structure HasRead
    (precedences : Precedences)
    (tree : Expr)
    (placed waiting rest : List Token)
    (state : Reordering) : Prop where
  postorder : ∃ upper, state.waiting = upper ++ waiting ∧
    upper.reverse ++ state.placed = tree.postorder.reverse ++ placed ∧
    ∀ token ∈ upper, precedences.Yields rest token
  expects : precedences.expectsOperand state.previous = false

/-- A closing parenthesis places the whole tree. -/
theorem HasRead.shift_closeParen
    {tree : Expr}
    {placed waiting rest : List Token}
    {opening : String}
    {state : Reordering}
    (read : precedences.HasRead tree placed (⟨.openParen, opening⟩ :: waiting) rest state)
    (closing : String) :
    precedences.shift state ⟨.closeParen, closing⟩ =
      .ok ⟨tree.postorder.reverse ++ placed, waiting, some ⟨.closeParen, closing⟩⟩ := by
  obtain ⟨⟨upper, waits, same, yields⟩, _⟩ := read
  simp [shift, waits, placeInside_append yields, same]

/-- A comma places the whole tree and leaves the parenthesis open. -/
theorem HasRead.shift_comma
    {tree : Expr}
    {placed waiting rest : List Token}
    {opening : String}
    {state : Reordering}
    (read : precedences.HasRead tree placed (⟨.openParen, opening⟩ :: waiting) rest state)
    (separator : String) :
    precedences.shift state ⟨.comma, separator⟩ =
      .ok ⟨tree.postorder.reverse ++ placed, ⟨.openParen, opening⟩ :: waiting,
        some ⟨.comma, separator⟩⟩ := by
  obtain ⟨⟨upper, waits, same, yields⟩, _⟩ := read
  simp [shift, waits, placeInside_append yields, same]

/-- An operator that waits for its last operand belongs to the tree once the operand is read. -/
theorem HasRead.apply
    {operand tree : Expr}
    {token : Token}
    {before placed waiting rest : List Token}
    {state : Reordering}
    (read : precedences.HasRead operand before (token :: waiting) rest state)
    (yields : precedences.Yields rest token)
    (same : tree.postorder.reverse ++ placed = token :: (operand.postorder.reverse ++ before)) :
    precedences.HasRead tree placed waiting rest state := by
  obtain ⟨⟨upper, waits, placedUpper, yieldsUpper⟩, expects⟩ := read
  refine ⟨⟨upper ++ [token], by simp [waits], ?_, ?_⟩, expects⟩
  · rw [same, ← placedUpper]
    simp
  · intro other member
    rcases List.mem_append.1 member with earlier | last
    · exact yieldsUpper other earlier
    · exact List.mem_singleton.1 last ▸ yields

/-- Trailing operators are placed behind their operand. -/
theorem Trails.shiftAll_eq
    {operand tree : Expr}
    {tokens rest : List Token}
    (trails : precedences.Trails operand tokens tree rest)
    (placed waiting : List Token)
    {previous : Option Token}
    (expects : precedences.expectsOperand previous = false) :
    ∃ state, precedences.shiftAll ⟨operand.postorder.reverse ++ placed, waiting, previous⟩ tokens =
      precedences.shiftAll state rest ∧ precedences.HasRead tree placed waiting rest state := by
  induction trails generalizing previous with
  | stop _ => exact ⟨_, rfl, ⟨[], rfl, rfl, by simp⟩, expects⟩
  | @more mode operator operand tree tokens rest after trails hypothesis =>
      obtain ⟨spec, known, fixity⟩ := Option.map_eq_some_iff.1 after
      have still : precedences.expectsOperand (some ⟨.operator mode, operator⟩) = false := by
        rw [expectsOperand_operator known, fixity]
        rfl
      obtain ⟨state, shifts, read⟩ := hypothesis still
      refine ⟨state, ?_, read⟩
      rw [shiftAll_cons (shift_after after expects _ _), ← shifts]
      simp [postorder]

mutual

/-- Taking in an operand. -/
theorem ClimbsOperand.shiftAll_eq
    {tokens rest : List Token}
    {tree : Expr}
    (placed waiting : List Token)
    {previous : Option Token}
    (expects : precedences.expectsOperand previous = true) :
    precedences.ClimbsOperand tokens tree rest →
      ∃ state, precedences.shiftAll ⟨placed, waiting, previous⟩ tokens =
        precedences.shiftAll state rest ∧ precedences.HasRead tree placed waiting rest state
  | .number trails => trails.shiftAll_eq placed waiting rfl
  | .named trails => trails.shiftAll_eq placed waiting rfl
  | @ClimbsOperand.group _ opening closing _ _ _ inner _ climbs trails => by
      have holds := precedences.holds_openParen opening waiting
      have opened : precedences.expectsOperand (some ⟨.openParen, opening⟩) = true := rfl
      have closed : precedences.expectsOperand (some ⟨.closeParen, closing⟩) = false := rfl
      obtain ⟨middle, shifts, read⟩ := climbs.shiftAll_eq placed _ holds opened
      obtain ⟨state, shiftsTrailing, readAll⟩ := trails.shiftAll_eq placed waiting closed
      refine ⟨state, ?_, readAll⟩
      rw [shiftAll_cons rfl, shifts, shiftAll_cons (read.shift_closeParen closing), shiftsTrailing]
  | @ClimbsOperand.led _ mode operator associativity precedence _ _ operand known climbs => by
      have holds := holds_operator known (signed mode operator).1 waiting
      have expectsOperand := expectsOperand_operator known (signed mode operator).1
      obtain ⟨state, shifts, read⟩ := climbs.shiftAll_eq placed _ holds expectsOperand
      refine ⟨state, ?_, read.apply ⟨_, known, climbs.declines⟩ (by simp [postorder])⟩
      rw [shiftAll_cons (shift_before known expects placed waiting), shifts]
  | @ClimbsOperand.emptyCall _ mode name opening closing rest => by
      refine ⟨_, rfl, ⟨[⟨.function mode, name⟩], rfl, rfl, ?_⟩, rfl⟩
      simp [Yields]
  | @ClimbsOperand.call _ mode name opening _ rest arguments climbs => by
      have opened : precedences.expectsOperand (some ⟨.openParen, opening⟩) = true := rfl
      obtain ⟨closing, shifts⟩ := climbs.shiftAll_eq opening (.functionEnd :: placed)
        (⟨.function mode, name⟩ :: waiting) opened
      refine ⟨_, shifts, ⟨[⟨.function mode, name⟩], rfl, ?_, ?_⟩, rfl⟩
      · simp [postorder]
      · simp [Yields]

/-- Taking in the arguments of a call. -/
theorem ClimbsArguments.shiftAll_eq
    {tokens rest : List Token}
    {trees : List Expr}
    (opening : String)
    (placed waiting : List Token)
    {previous : Option Token}
    (expects : precedences.expectsOperand previous = true) :
    precedences.ClimbsArguments tokens trees rest →
      ∃ closing, precedences.shiftAll ⟨placed, ⟨.openParen, opening⟩ :: waiting, previous⟩ tokens =
        precedences.shiftAll ⟨(postorderAll trees).reverse ++ placed, waiting,
          some ⟨.closeParen, closing⟩⟩ rest
  | @ClimbsArguments.last _ closing _ rest argument climbs => by
      have holds := precedences.holds_openParen opening waiting
      obtain ⟨state, shifts, read⟩ := climbs.shiftAll_eq placed _ holds expects
      refine ⟨closing, ?_⟩
      rw [shifts, shiftAll_cons (read.shift_closeParen closing)]
      simp [postorderAll]
  | @ClimbsArguments.more _ separator _ _ rest argument others climbs further => by
      have holds := precedences.holds_openParen opening waiting
      obtain ⟨state, shifts, read⟩ := climbs.shiftAll_eq placed _ holds expects
      have separated : precedences.expectsOperand (some ⟨.comma, separator⟩) = true := rfl
      obtain ⟨closing, shiftsFurther⟩ := further.shiftAll_eq opening
        (argument.postorder.reverse ++ placed) waiting separated
      refine ⟨closing, ?_⟩
      rw [shifts, shiftAll_cons (read.shift_comma separator), shiftsFurther]
      simp [postorderAll]

/-- Taking in an expression above what its limit holds. -/
theorem Climbs.shiftAll_eq
    {limit : Option Int}
    {tokens rest : List Token}
    {tree : Expr}
    (placed waiting : List Token)
    (holds : precedences.Holds limit waiting)
    {previous : Option Token}
    (expects : precedences.expectsOperand previous = true) :
    precedences.Climbs limit tokens tree rest →
      ∃ state, precedences.shiftAll ⟨placed, waiting, previous⟩ tokens =
        precedences.shiftAll state rest ∧ precedences.HasRead tree placed waiting rest state
  | .intro operands further => by
      obtain ⟨middle, shifts, read⟩ := operands.shiftAll_eq placed waiting expects
      obtain ⟨state, shiftsFurther, readAll⟩ := further.shiftAll_eq placed waiting holds read
      exact ⟨state, shifts.trans shiftsFurther, readAll⟩

/-- Taking in what comes behind a left operand. -/
theorem ClimbsFrom.shiftAll_eq
    {limit : Option Int}
    {left tree : Expr}
    {tokens rest : List Token}
    (placed waiting : List Token)
    (holds : precedences.Holds limit waiting)
    {state : Reordering}
    (read : precedences.HasRead left placed waiting tokens state) :
    precedences.ClimbsFrom limit left tokens tree rest →
      ∃ final, precedences.shiftAll state tokens = precedences.shiftAll final rest ∧
        precedences.HasRead tree placed waiting rest final
  | .stop _ => ⟨state, rfl, read⟩
  | @ClimbsFrom.more _ mode operator associativity precedence _ _ right _ _ middle _
      known absorbs climbs further => by
      obtain ⟨⟨upper, waits, same, yields⟩, expects⟩ := read
      obtain ⟨placedBefore, waitingBefore, previous⟩ := state
      obtain rfl : waitingBefore = upper ++ waiting := waits
      obtain ⟨state, shifts, readRight⟩ := climbs.shiftAll_eq (left.postorder.reverse ++ placed) _
        (holds_operator known mode waiting) (expectsOperand_operator known mode)
      have readBoth : precedences.HasRead (.binary mode operator left right) placed waiting middle
          state :=
        readRight.apply ⟨_, known, climbs.declines⟩ (by simp [postorder])
      obtain ⟨final, shiftsFurther, readAll⟩ :=
        further.shiftAll_eq placed waiting holds readBoth
      refine ⟨final, ?_, readAll⟩
      rw [shiftAll_cons (shift_between known absorbs holds yields expects placedBefore), same,
        shifts, shiftsFurther]

end

/-! ## Operators stand where they belong -/

theorem Trails.fits
    {operand tree : Expr}
    {tokens rest : List Token}
    (trails : precedences.Trails operand tokens tree rest)
    (fits : operand.Fits precedences) :
    tree.Fits precedences := by
  induction trails with
  | stop _ => exact fits
  | more after _ hypothesis => exact hypothesis ⟨after, by decide, fits⟩

mutual

theorem ClimbsOperand.fits {tokens rest : List Token} {tree : Expr} :
    precedences.ClimbsOperand tokens tree rest → tree.Fits precedences
  | .number trails => trails.fits trivial
  | .named trails => trails.fits trivial
  | .group climbs trails => trails.fits climbs.fits
  | .led known climbs => ⟨fixity?_eq_some_of_find? known, by decide, climbs.fits⟩
  | .emptyCall => trivial
  | .call climbs => climbs.fits

theorem ClimbsArguments.fits {tokens rest : List Token} {trees : List Expr} :
    precedences.ClimbsArguments tokens trees rest → FitsAll precedences trees
  | .last climbs => ⟨climbs.fits, trivial⟩
  | .more climbs further => ⟨climbs.fits, further.fits⟩

/-- What is climbed fits the table. -/
theorem Climbs.fits {limit : Option Int} {tokens rest : List Token} {tree : Expr} :
    precedences.Climbs limit tokens tree rest → tree.Fits precedences
  | .intro operands further => further.fits operands.fits

theorem ClimbsFrom.fits
    {limit : Option Int}
    {left tree : Expr}
    {tokens rest : List Token} :
    precedences.ClimbsFrom limit left tokens tree rest → left.Fits precedences →
      tree.Fits precedences
  | .stop _, fits => fits
  | .more known _ climbs further, fits =>
      further.fits ⟨fixity?_eq_some_of_find? known, fits, climbs.fits⟩

end

/-! ## Both steps together -/

/-- What is climbed is brought into its postorder. -/
theorem Climbs.reversePostfix_eq
    {tokens : List Token}
    {tree : Expr}
    (climbs : precedences.Climbs none tokens tree []) :
    precedences.reversePostfix tokens = .ok tree.postorder.reverse := by
  have holds : precedences.Holds none [] := Or.inl rfl
  have expects : precedences.expectsOperand none = true := rfl
  obtain ⟨state, shifts, ⟨⟨upper, waits, same, yields⟩, _⟩⟩ :=
    climbs.shiftAll_eq [] [] holds expects
  rw [List.append_nil] at waits same
  rw [reversePostfix, shifts, shiftAll]
  simp only
  rw [waits, placeRest_eq yields, same]

/-- What is climbed is parsed. -/
theorem Climbs.parse_eq
    {tokens : List Token}
    {tree : Expr}
    (climbs : precedences.Climbs none tokens tree []) :
    precedences.parse tokens = .ok tree := by
  have builds : precedences.buildReversed tree.postorder.reverse = .ok tree :=
    buildReversed_eq_ok_iff.2 ((constructs_iff tree).2 ⟨climbs.fits, tree.postorder.reverse,
      by simp, by rw [List.map_reverse, map_bare_postorder]⟩)
  match tokens with
  | [] =>
      obtain ⟨operands, _⟩ := climbs
      cases operands
  | token :: tokens =>
      simp only [parse, climbs.reversePostfix_eq, builds]

/-- Reordering into postfix order and building a tree from it reads every expression of the grammar,
and reads it as precedence climbing does. -/
theorem parse_eq_climbAll
    (sign : precedences.fixity? negation = some .before)
    {tokens : List Token}
    (expression : precedences.IsExpression tokens) :
    ∃ tree, precedences.climbAll tokens = some tree ∧ precedences.parse tokens = .ok tree := by
  obtain ⟨tree, climbs⟩ := expression.exists_climbs sign
  exact ⟨tree, climbs.climbAll_eq, climbs.parse_eq⟩

/-- A table in which a sign binds less tightly than a sum. -/
def looseSign : Precedences :=
  ⟨((Table.empty.insert "*" (.binary .left 2)).insert "+" (.binary .left 1)).insert negation
    (.leading 0)⟩

/-- The sign in `2*-x+y` takes the sum that follows it, although it stands behind a product. -/
theorem parse_eq_climbAll_looseSign :
    looseSign.fixity? negation = some .before ∧
      looseSign.IsExpression [⟨.number, "2"⟩, ⟨.operator .value, "*"⟩, ⟨.operator .value, "-"⟩,
        ⟨.variable, "x"⟩, ⟨.operator .tree, "+"⟩, ⟨.variable, "y"⟩] ∧
      looseSign.parse [⟨.number, "2"⟩, ⟨.operator .value, "*"⟩, ⟨.operator .value, "-"⟩,
          ⟨.variable, "x"⟩, ⟨.operator .tree, "+"⟩, ⟨.variable, "y"⟩] =
        .ok (.binary .value "*" (.number "2") (.unary .value negation .before
          (.binary .tree "+" (.variable "x") (.variable "y")))) := by
  have sign : looseSign.fixity? negation = some .before := by decide
  have times : looseSign.fixity? "*" = some .between := by decide
  have plus : looseSign.fixity? "+" = some .between := by decide
  have number (text : String) : looseSign.IsOperand [⟨.number, text⟩] :=
    .trailed (.number text) .nil
  have named (name : String) : looseSign.IsOperand [⟨.variable, name⟩] :=
    .trailed (.named name) .nil
  have sum : looseSign.IsExpression [⟨.variable, "x"⟩, ⟨.operator .tree, "+"⟩, ⟨.variable, "y"⟩] :=
    .more (named "x") plus (.last (named "y"))
  have negative : looseSign.IsOperand (⟨.operator .value, "-"⟩ :: [⟨.variable, "x"⟩,
      ⟨.operator .tree, "+"⟩, ⟨.variable, "y"⟩]) :=
    .led (Or.inl rfl) sum
  have product : looseSign.IsExpression [⟨.number, "2"⟩, ⟨.operator .value, "*"⟩,
      ⟨.operator .value, "-"⟩, ⟨.variable, "x"⟩, ⟨.operator .tree, "+"⟩, ⟨.variable, "y"⟩] :=
    .more (number "2") times (.last negative)
  obtain ⟨tree, climbs, parses⟩ := parse_eq_climbAll sign product
  have read : looseSign.climbAll [⟨.number, "2"⟩, ⟨.operator .value, "*"⟩, ⟨.operator .value, "-"⟩,
        ⟨.variable, "x"⟩, ⟨.operator .tree, "+"⟩, ⟨.variable, "y"⟩] =
      some (.binary .value "*" (.number "2") (.unary .value negation .before
        (.binary .tree "+" (.variable "x") (.variable "y")))) := by
    cbv
  obtain rfl := Option.some.inj (climbs.symm.trans read)
  exact ⟨sign, product, parses⟩

end Precedences
end Reckoner
