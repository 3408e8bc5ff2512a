import Reckoner.Proofs.Expr.Rendering
import Reckoner.Standard.Plugin

/-!
# Renderings under the standard grammar

Which trees of the standard grammar come out of their renderings again.  The negation binds
loosely and is rendered behind its operand, where it takes along every operator but sums and
assignments; and `nCr` and `nPr` run together with a word beside them.
-/

namespace Reckoner

open Token Tokenizer

namespace Expr

/-- Whether the rendering of a tree ends with a word. -/
def endsInWord : Expr → Bool
  | .variable _ => true
  | _ => false

/-- Whether the rendering of a tree begins with a word. -/
def startsWithWord : Expr → Bool
  | .variable _ => true
  | .call .. => true
  | _ => false

end Expr

namespace Standard

/-- The grammar of the standard plugin. -/
def grammar : Grammar :=
  (enable .empty).grammar

/-- The reader of the standard grammar. -/
def reader : Reader :=
  Reader.base.load grammar

/-- How the operators of the standard grammar are read. -/
def precedences : Precedences :=
  Precedences.empty.load grammar

/-! ## Names -/

/-- The standard grammar is orderly. -/
theorem orderly : grammar.Orderly := by
  decide

/-- No standard operator hides another one. -/
theorem disjoint
    {name : String}
    {symbol other : Symbol}
    (named : name ∈ grammar.names symbol)
    (namedOther : name ∈ grammar.names other) :
    symbol = other := by
  have all : ∀ symbol ∈ Symbol.all, ∀ other ∈ Symbol.all, ∀ name ∈ grammar.names symbol,
      name ∈ grammar.names other → symbol = other := by
    decide
  exact all symbol symbol.mem_all other other.mem_all name named namedOther

theorem isToken_name
    (symbol : Symbol)
    {name : String}
    (named : name ∈ grammar.names symbol) :
    IsToken grammar ⟨.ofSymbol symbol, name⟩ := by
  refine ⟨?_, isLexeme_name orderly named ?_⟩
  · cases symbol <;> simp [TokenKind.ofSymbol]
  · intro other namedOther
    rw [disjoint named namedOther]

theorem isToken_negation : IsToken grammar ⟨.operator .value, Precedences.negation⟩ :=
  isToken_name (.operator .value) (by decide)

/-- Every function is a word. -/
theorem isWord_function
    {mode : Mode}
    {name : String}
    (named : name ∈ grammar.names (.function mode)) :
    isWord name.toList = true := by
  have all : ∀ mode ∈ [Mode.value, Mode.tree], ∀ name ∈ grammar.names (.function mode),
      isWord name.toList = true := by
    decide
  exact all mode (by cases mode <;> simp) name named

/-! ## Operators -/

theorem specs_eq :
    precedences.specs.entries =
      [("!", .trailing 0), ("*", .binary .left 1), ("+", .binary .left 0), ("-", .binary .left 0),
        ("/", .binary .left 1), (":=", .binary .right (-1)), ("=", .binary .right (-1)),
        ("^", .binary .right 2), ("`", .leading 0), ("nCr", .binary .right 1),
        ("nPr", .binary .right 1)] := by
  rfl

/-- What is common to the operators between two operands: only two of them are words, and only three
of them neither look like a sign nor are taken along by a waiting negation. -/
theorem between_cases
    {operator : String}
    (between : precedences.fixity? operator = some .between) :
    isWord operator.toList = ["nCr", "nPr"].contains operator ∧
      ∃ spec, precedences.specs.find? operator = some spec ∧
        ((operator = "-" ∨ Precedences.Absorbs (some 0) spec) ↔
          ["+", "=", ":="].contains operator = false) := by
  have all : ∀ entry ∈ precedences.specs.entries, entry.2.fixity = .between →
      isWord entry.1.toList = ["nCr", "nPr"].contains entry.1 ∧
        ((entry.1 = "-" ∨ Precedences.Absorbs (some 0) entry.2) ↔
          ["+", "=", ":="].contains entry.1 = false) := by
    rw [specs_eq]
    decide
  obtain ⟨spec, known, fixity⟩ := Option.map_eq_some_iff.1 between
  obtain ⟨words, groups⟩ := all _ (Table.mem_of_find? known) fixity
  exact ⟨words, spec, known, groups⟩

/-- The only operator in front of its operand is the negation. -/
theorem before_cases
    {operator : String}
    (before : precedences.fixity? operator = some .before) :
    precedences.specs.find? operator = some (.leading 0) := by
  have all : ∀ entry ∈ precedences.specs.entries, entry.2.fixity = .before →
      entry.2 = .leading 0 := by
    rw [specs_eq]
    decide
  obtain ⟨spec, known, fixity⟩ := Option.map_eq_some_iff.1 before
  rw [known, show spec = .leading 0 from all _ (Table.mem_of_find? known) fixity]

/-- No operator with one operand is a word. -/
theorem isWord_unary
    {operator : String}
    {fixity : Fixity}
    (found : precedences.fixity? operator = some fixity)
    (beside : fixity ≠ .between) :
    isWord operator.toList = false := by
  have all : ∀ entry ∈ precedences.specs.entries, entry.2.fixity ≠ .between →
      isWord entry.1.toList = false := by
    rw [specs_eq]
    decide
  obtain ⟨spec, known, rfl⟩ := Option.map_eq_some_iff.1 found
  exact all _ (Table.mem_of_find? known) beside

/-- In the standard table a leading operator is overtaken by what binds tightly enough. -/
theorem overtakes_iff
    {left : Expr}
    {operator : String}
    {spec : OperatorSpec}
    (fits : left.Fits precedences)
    (known : precedences.specs.find? operator = some spec) :
    precedences.overtakes left operator = true ↔
      left.isLed = true ∧ Precedences.Absorbs (some 0) spec := by
  match left, fits with
  | .number _, _ | .variable _, _ | .binary .., _ | .call .., _ =>
      simp [Precedences.overtakes, Expr.isLed]
  | .unary _ _ .after _, _ | .unary _ _ .between _, _ => simp [Precedences.overtakes, Expr.isLed]
  | .unary _ _ .before _, ⟨before, _, _⟩ =>
      simp [Precedences.overtakes, Expr.isLed, before_cases before, known, OperatorSpec.leading]

/-! ## Neighbours -/

theorem isWord_of_isToken_variable
    {name : String}
    (isToken : IsToken grammar ⟨.variable, name⟩) :
    isWord name.toList = true := by
  rcases mem_languageOf_iff.1 isToken.2.recognized with shaped | ⟨_, symbol, same, _⟩
  · exact mem_variable_iff.1 shaped
  · cases symbol <;> cases same

theorem isWord_of_isToken_number
    {text : String}
    (isToken : IsToken grammar ⟨.number, text⟩) :
    isWord text.toList = false :=
  Bool.eq_false_iff.2 fun word => ne_number_of_isWord isToken.2.recognized word rfl

theorem isWord_of_isToken_function
    {mode : Mode}
    {name : String}
    (isToken : IsToken grammar ⟨.function mode, name⟩) :
    isWord name.toList = true := by
  have recognized : name.toList ∈ languageOf grammar (.ofSymbol (.function mode)) :=
    isToken.2.recognized
  obtain ⟨_, named⟩ := mem_languageOf_ofSymbol_iff.1 recognized
  rw [String.ofList_toList] at named
  exact isWord_function named

theorem isWord_opening : opening.isWord = false := by
  decide

theorem isWord_closing : closing.isWord = false := by
  decide

theorem isWord_finish
    {tree : Expr}
    (fits : tree.Fits precedences)
    (areTokens : ∀ token ∈ tree.written, IsToken grammar token) :
    tree.finish.isWord = tree.endsInWord := by
  cases tree with
  | number => exact isWord_of_isToken_number (areTokens _ List.mem_cons_self)
  | «variable» => exact isWord_of_isToken_variable (areTokens _ List.mem_cons_self)
  | unary => exact isWord_unary fits.1 fits.2.1
  | binary | call => exact isWord_closing

theorem isWord_start
    {tree : Expr}
    (areTokens : ∀ token ∈ tree.written, IsToken grammar token) :
    tree.start.isWord = tree.startsWithWord := by
  cases tree with
  | number => exact isWord_of_isToken_number (areTokens _ List.mem_cons_self)
  | «variable» => exact isWord_of_isToken_variable (areTokens _ List.mem_cons_self)
  | call => exact isWord_of_isToken_function (areTokens _ List.mem_cons_self)
  | binary | unary => exact isWord_opening

/-! ## Trees that come out again -/

/-- Whether an operator between two operands is read from their rendering as it is meant: behind a
negation only sums and assignments are, and `nCr` and `nPr` only apart from other words. -/
def standsClear (operator : String) (left right : Expr) : Bool :=
  (!left.isLed || ["+", "=", ":="].contains operator) &&
    (!(["nCr", "nPr"].contains operator) || !left.endsInWord && !right.startsWithWord)

mutual

/-- Whether every operator of a tree is read from the rendering as it is meant. -/
def isRereadable : Expr → Bool
  | .number _ => true
  | .variable _ => true
  | .binary _ operator left right =>
      standsClear operator left right && isRereadable left && isRereadable right
  | .unary _ _ _ operand => isRereadable operand
  | .call _ _ arguments => areRereadable arguments

/-- Whether every operator of several trees is read as it is meant. -/
def areRereadable : List Expr → Bool
  | [] => true
  | first :: rest => isRereadable first && areRereadable rest

end

/-- A binary tree stands clear when no minus is hidden and nothing is overtaken. -/
theorem standsClear_iff
    {mode : Mode}
    {operator : String}
    {left right : Expr}
    (fits : (Expr.binary mode operator left right).Fits precedences)
    (areTokens : ∀ token ∈ (Expr.binary mode operator left right).written, IsToken grammar token) :
    standsClear operator left right = true ↔
      ¬(operator = "-" ∧ left.isLed = true) ∧ ¬precedences.overtakes left operator = true ∧
        Token.Apart left.finish ⟨.operator mode, operator⟩ ∧
        Token.Apart ⟨.operator mode, operator⟩ right.start := by
  obtain ⟨between, fitsLeft, _⟩ := fits
  obtain ⟨words, spec, known, groups⟩ := between_cases between
  have endsInWord : left.finish.isWord = left.endsInWord :=
    isWord_finish fitsLeft fun token member => areTokens token (by
      simp only [Expr.written, Expr.write, List.mem_cons, List.mem_append]
      exact Or.inr (Or.inl member))
  have startsWithWord : right.start.isWord = right.startsWithWord :=
    isWord_start fun token member => areTokens token (by
      simp only [Expr.written, Expr.write, List.mem_cons, List.mem_append]
      exact Or.inr (Or.inr (Or.inr (Or.inl member))))
  have isOperatorWord : Token.isWord ⟨.operator mode, operator⟩ =
      ["nCr", "nPr"].contains operator := words
  have signless : (!left.isLed || ["+", "=", ":="].contains operator) = true ↔
      ¬(operator = "-" ∧ left.isLed = true) ∧
        ¬precedences.overtakes left operator = true := by
    rw [overtakes_iff fitsLeft known, ← not_or, and_comm, ← and_or_left, groups]
    cases left.isLed <;> cases ["+", "=", ":="].contains operator <;> simp
  rw [standsClear, Bool.and_eq_true, signless, Token.Apart, Token.Apart, endsInWord, startsWithWord,
    isOperatorWord]
  cases ["nCr", "nPr"].contains operator <;> cases left.endsInWord <;>
    cases right.startsWithWord <;> simp

mutual

/-- The computed test is the condition for reading back. -/
theorem isRereadable_iff : ∀ tree : Expr, tree.Fits precedences →
    (∀ token ∈ tree.written, IsToken grammar token) →
      (isRereadable tree = true ↔
        ¬tree.HidesMinus ∧ ¬tree.Regroups precedences ∧ tree.Beside Token.Apart)
  | .number _, _, _ => by simp [isRereadable, Expr.HidesMinus, Expr.Regroups, Expr.Beside]
  | .variable _, _, _ => by simp [isRereadable, Expr.HidesMinus, Expr.Regroups, Expr.Beside]
  | .binary mode operator left right, fits, areTokens => by
      have clear := standsClear_iff fits areTokens
      obtain ⟨_, fitsLeft, fitsRight⟩ := fits
      simp only [Expr.written, Expr.write, List.mem_cons, List.mem_append] at areTokens
      have ofLeft := isRereadable_iff left fitsLeft fun token member =>
        areTokens token (Or.inr (Or.inl member))
      have ofRight := isRereadable_iff right fitsRight fun token member =>
        areTokens token (Or.inr (Or.inr (Or.inr (Or.inl member))))
      rw [isRereadable, Bool.and_eq_true, Bool.and_eq_true, clear, ofLeft, ofRight,
        Expr.HidesMinus, Expr.Regroups, Expr.Beside, not_or, not_or, not_or, not_or]
      constructor
      · rintro ⟨⟨⟨shown, stays, before, behind⟩, shownLeft, staysLeft, besideLeft⟩,
          shownRight, staysRight, besideRight⟩
        exact ⟨⟨shown, shownLeft, shownRight⟩, ⟨stays, staysLeft, staysRight⟩,
          before, behind, besideLeft, besideRight⟩
      · rintro ⟨⟨shown, shownLeft, shownRight⟩, ⟨stays, staysLeft, staysRight⟩,
          before, behind, besideLeft, besideRight⟩
        exact ⟨⟨⟨shown, stays, before, behind⟩, shownLeft, staysLeft, besideLeft⟩,
          shownRight, staysRight, besideRight⟩
  | .unary _ _ _ operand, ⟨_, _, fits⟩, areTokens => by
      simp only [Expr.written, Expr.write, Bool.false_eq_true, ↓reduceIte, List.mem_cons,
        List.mem_append] at areTokens
      rw [isRereadable, Expr.HidesMinus, Expr.Regroups, Expr.Beside]
      exact isRereadable_iff operand fits fun token member =>
        areTokens token (Or.inr (Or.inl member))
  | .call _ _ arguments, fits, areTokens => by
      simp only [Expr.written, Expr.write, List.mem_cons, List.mem_append] at areTokens
      rw [isRereadable, Expr.HidesMinus, Expr.Regroups, Expr.Beside]
      exact areRereadable_iff arguments fits fun token member =>
        areTokens token (Or.inr (Or.inr (Or.inl member)))

theorem areRereadable_iff : ∀ trees : List Expr, Expr.FitsAll precedences trees →
    (∀ token ∈ Expr.writeAll (fun _ => false) trees, IsToken grammar token) →
      (areRereadable trees = true ↔
        ¬Expr.HidesMinusAmong trees ∧ ¬Expr.RegroupsAmong precedences trees ∧
          Expr.BesideAll Token.Apart trees)
  | [], _, _ => by
      simp [areRereadable, Expr.HidesMinusAmong, Expr.RegroupsAmong, Expr.BesideAll]
  | [last], ⟨fits, _⟩, areTokens => by
      rw [areRereadable, areRereadable, Bool.and_true, isRereadable_iff last fits areTokens]
      simp [Expr.HidesMinusAmong, Expr.RegroupsAmong, Expr.BesideAll]
  | first :: next :: others, ⟨fits, fitsOthers⟩, areTokens => by
      simp only [Expr.writeAll, List.mem_cons, List.mem_append] at areTokens
      have ofFirst := isRereadable_iff first fits fun token member =>
        areTokens token (Or.inl member)
      have ofOthers := areRereadable_iff (next :: others) fitsOthers fun token member =>
        areTokens token (Or.inr (Or.inr member))
      have both : areRereadable (first :: next :: others) =
          (isRereadable first && areRereadable (next :: others)) := rfl
      have hides : Expr.HidesMinusAmong (first :: next :: others) ↔
          first.HidesMinus ∨ Expr.HidesMinusAmong (next :: others) := Iff.rfl
      have regroups : Expr.RegroupsAmong precedences (first :: next :: others) ↔
          first.Regroups precedences ∨ Expr.RegroupsAmong precedences (next :: others) := Iff.rfl
      have beside : Expr.BesideAll Token.Apart (first :: next :: others) ↔
          first.Beside Token.Apart ∧ Expr.BesideAll Token.Apart (next :: others) := Iff.rfl
      rw [both, hides, regroups, beside, Bool.and_eq_true, ofFirst, ofOthers, not_or, not_or]
      constructor
      · rintro ⟨⟨shown, stays, apart⟩, shownOthers, staysOthers, apartOthers⟩
        exact ⟨⟨shown, shownOthers⟩, ⟨stays, staysOthers⟩, apart, apartOthers⟩
      · rintro ⟨⟨shown, shownOthers⟩, ⟨stays, staysOthers⟩, apart, apartOthers⟩
        exact ⟨⟨shown, stays, apart⟩, shownOthers, staysOthers, apartOthers⟩

end

/-- A tree that is read from a text under the standard grammar comes out of its rendering again if
and only if it has no operator other than `+`, `=` and `:=` behind a negation as its left operand,
and no `nCr` or `nPr` with a variable on the left or a variable or a call on the right. -/
theorem parse_render
    {text : String}
    {tree : Expr}
    (parses : reader.parse text = .ok tree) :
    reader.parse tree.render = .ok tree ↔ isRereadable tree = true := by
  have fits : tree.Fits precedences := by
    unfold Reader.parse at parses
    split at parses
    next => cases parses
    next =>
      obtain ⟨_, _, fits, _⟩ := Precedences.parse_eq_ok_iff.1 parses
      exact fits
  have areTokens := isToken_of_parse orderly isToken_negation parses
  rw [isRereadable_iff tree fits areTokens]
  exact Reader.parse_render_iff orderly fits areTokens

/-- The sum of a negation and a call comes out of its rendering. -/
theorem parse_render_sum :
    reader.parse "-x+sin(x)" = .ok (.binary .value "+"
        (.unary .value "`" .before (.variable "x")) (.call .value "sin" [.variable "x"])) ∧
      reader.parse (Expr.binary .value "+" (.unary .value "`" .before (.variable "x"))
          (.call .value "sin" [.variable "x"])).render =
        .ok (.binary .value "+" (.unary .value "`" .before (.variable "x"))
          (.call .value "sin" [.variable "x"])) := by
  have parses : reader.parse "-x+sin(x)" = .ok (.binary .value "+"
      (.unary .value "`" .before (.variable "x")) (.call .value "sin" [.variable "x"])) := by
    refine (Reader.parse_eq_of_isKnown orderly "-x+sin(x)" [⟨.operator .value, "-"⟩,
      ⟨.variable, "x"⟩, ⟨.operator .value, "+"⟩, ⟨.function .value, "sin"⟩, opening,
      ⟨.variable, "x"⟩, closing]
      (by decide) (by decide) (by decide)).trans ?_
    have fits : Expr.Fits precedences (.binary .value "+"
        (.unary .value "`" .before (.variable "x")) (.call .value "sin" [.variable "x"])) :=
      ⟨by decide, ⟨by decide, by decide, trivial⟩, trivial, trivial⟩
    exact Precedences.parse_eq_ok_iff.2 ⟨_, rfl, fits, rfl⟩
  exact ⟨parses, (parse_render parses).2 (by decide)⟩

/-- Behind a negation a `-` is read as a sign and a `*` is taken along, and a name that is written
with letters runs together with a variable. -/
theorem parse_render_misread :
    (reader.parse "-x-x" = .ok (.binary .value "-"
        (.unary .value "`" .before (.variable "x")) (.variable "x")) ∧
      reader.parse (Expr.binary .value "-" (.unary .value "`" .before (.variable "x"))
        (.variable "x")).render = .error (.trailingTokens 1)) ∧
    (reader.parse "(-x)*x" = .ok (.binary .value "*"
        (.unary .value "`" .before (.variable "x")) (.variable "x")) ∧
      reader.parse (Expr.binary .value "*" (.unary .value "`" .before (.variable "x"))
        (.variable "x")).render = .ok (.unary .value "`" .before
        (.binary .value "*" (.variable "x") (.variable "x")))) ∧
    (reader.parse "(x)nPr(x)" = .ok (.binary .value "nPr" (.variable "x") (.variable "x")) ∧
      reader.parse (Expr.binary .value "nPr" (.variable "x") (.variable "x")).render =
        .ok (.variable "xnPrx")) := by
  refine ⟨⟨?_, ?_⟩, ⟨?_, ?_⟩, ?_, ?_⟩
  · refine (Reader.parse_eq_of_isKnown orderly "-x-x" [⟨.operator .value, "-"⟩, ⟨.variable, "x"⟩,
      ⟨.operator .value, "-"⟩, ⟨.variable, "x"⟩]
      (by decide) (by decide) (by decide)).trans ?_
    exact Precedences.parse_eq_ok_iff.2 ⟨_, rfl,
      ⟨by decide, ⟨by decide, by decide, trivial⟩, trivial⟩, rfl⟩
  · refine (Reader.parse_eq_of_isKnown orderly "((x)`-x)"
      [opening, opening, ⟨.variable, "x"⟩, closing,
      ⟨.operator .value, "`"⟩, ⟨.operator .value, "-"⟩, ⟨.variable, "x"⟩, closing]
      (by decide) (by decide) (by decide)).trans ?_
    have reorders : precedences.reversePostfix [opening, opening, ⟨.variable, "x"⟩, closing,
        ⟨.operator .value, "`"⟩, ⟨.operator .value, "-"⟩, ⟨.variable, "x"⟩, closing] =
          .ok [⟨.operator .value, "`"⟩, ⟨.operator .value, "`"⟩, ⟨.variable, "x"⟩,
            ⟨.variable, "x"⟩] := rfl
    have negation : precedences.spec "`" = .ok (.leading 0) := rfl
    change precedences.parse _ = _
    simp only [Precedences.parse, reorders, Precedences.buildReversed, Precedences.construct,
      Precedences.constructOperand, negation, OperatorSpec.leading, reduceCtorEq, ↓reduceIte,
      List.isEmpty_cons, Bool.false_eq_true, List.length_singleton]
  · refine (Reader.parse_eq_of_isKnown orderly "(-x)*x"
      [opening, ⟨.operator .value, "-"⟩, ⟨.variable, "x"⟩, closing,
      ⟨.operator .value, "*"⟩, ⟨.variable, "x"⟩]
      (by decide) (by decide) (by decide)).trans ?_
    exact Precedences.parse_eq_ok_iff.2 ⟨_, rfl,
      ⟨by decide, ⟨by decide, by decide, trivial⟩, trivial⟩, rfl⟩
  · refine (Reader.parse_eq_of_isKnown orderly "((x)`*x)"
      [opening, opening, ⟨.variable, "x"⟩, closing,
      ⟨.operator .value, "`"⟩, ⟨.operator .value, "*"⟩, ⟨.variable, "x"⟩, closing]
      (by decide) (by decide) (by decide)).trans ?_
    exact Precedences.parse_eq_ok_iff.2 ⟨_, rfl,
      ⟨by decide, by decide, by decide, trivial, trivial⟩, rfl⟩
  · refine (Reader.parse_eq_of_isKnown orderly "(x)nPr(x)" [opening, ⟨.variable, "x"⟩, closing,
      ⟨.operator .value, "nPr"⟩, opening, ⟨.variable, "x"⟩, closing]
      (by decide) (by decide) (by decide)).trans ?_
    exact Precedences.parse_eq_ok_iff.2 ⟨_, rfl, ⟨by decide, trivial, trivial⟩, rfl⟩
  · refine (Reader.parse_eq_of_isKnown orderly "(xnPrx)" [opening, ⟨.variable, "xnPrx"⟩, closing]
      (by decide) (by decide) (by decide)).trans ?_
    exact Precedences.parse_eq_ok_iff.2 ⟨_, rfl, trivial, rfl⟩

end Standard
end Reckoner
