import Mathlib
import Reckoner.Expr.Postfix
import Reckoner.Proofs.Pattern.Reading

/-!
# Trees in postfix order

A tree is written in postfix order by writing the operands of every node before the node itself, and
a mark before the arguments of a call.  Reading postfix order back undoes exactly this: it gives a
tree for the tokens that some tree is written with, and fails for all others.  Only the lexeme of a
mark is never read.
-/

namespace Reckoner

/-- A token without the lexeme of a mark, which is never read. -/
def Token.bare (token : Token) : Token :=
  if token.kind = .functionEnd then .functionEnd else token

namespace Token

@[simp] theorem bare_functionEnd : functionEnd.bare = functionEnd := rfl

/-- Without its text, only a mark is the bare mark. -/
@[simp] theorem bare_eq_functionEnd_iff {token : Token} :
    token.bare = functionEnd ↔ token.kind = .functionEnd := by
  unfold bare
  split
  next marked => simp [marked]
  next unmarked =>
    exact ⟨fun same => absurd (same ▸ rfl) unmarked, fun marked => absurd marked unmarked⟩

/-- Only a mark has a lexeme that is not read. -/
theorem bare_eq_iff
    {token written : Token}
    (unmarked : written.kind ≠ .functionEnd) :
    token.bare = written ↔ token = written := by
  unfold bare
  split
  next marked =>
    constructor
    · intro same
      exact absurd (same ▸ rfl) unmarked
    · intro same
      exact absurd (same ▸ marked) unmarked
  next => rfl

end Token

/-- Where an operator stands relative to its operands, when it is known. -/
def Precedences.fixity? (precedences : Precedences) (operator : String) : Option Fixity :=
  (precedences.specs.find? operator).map OperatorSpec.fixity

namespace Expr

mutual

/-- The tokens of a tree in postfix order. -/
def postorder : Expr → List Token
  | .number text => [⟨.number, text⟩]
  | .variable name => [⟨.variable, name⟩]
  | .binary mode operator left right =>
      left.postorder ++ right.postorder ++ [⟨.operator mode, operator⟩]
  | .unary mode operator _ operand => operand.postorder ++ [⟨.operator mode, operator⟩]
  | .call mode name arguments =>
      .functionEnd :: (postorderAll arguments ++ [⟨.function mode, name⟩])

/-- The tokens of trees in postfix order, one tree after the other. -/
def postorderAll : List Expr → List Token
  | [] => []
  | first :: rest => first.postorder ++ postorderAll rest

end

mutual

/-- Every operator of a tree stands where its fixity says: the ones with two operands between them,
and the ones with one operand on the side that the node carries. -/
def Fits (precedences : Precedences) : Expr → Prop
  | .number _ => True
  | .variable _ => True
  | .binary _ operator left right =>
      precedences.fixity? operator = some .between ∧
        left.Fits precedences ∧ right.Fits precedences
  | .unary _ operator fixity operand =>
      precedences.fixity? operator = some fixity ∧ fixity ≠ .between ∧ operand.Fits precedences
  | .call _ _ arguments => FitsAll precedences arguments

/-- Every operator of several trees stands where its fixity says. -/
def FitsAll (precedences : Precedences) : List Expr → Prop
  | [] => True
  | first :: rest => first.Fits precedences ∧ FitsAll precedences rest

end

theorem postorderAll_append (trees others : List Expr) :
    postorderAll (trees ++ others) = postorderAll trees ++ postorderAll others := by
  induction trees with
  | nil => rfl
  | cons first trees hypothesis => simp [postorderAll, hypothesis]

theorem fitsAll_append_iff {precedences : Precedences} {trees others : List Expr} :
    FitsAll precedences (trees ++ others) ↔
      FitsAll precedences trees ∧ FitsAll precedences others := by
  induction trees with
  | nil => simp [FitsAll]
  | cons first trees hypothesis => simp [FitsAll, hypothesis, and_assoc]

mutual

/-- The marks of a postorder have no text. -/
theorem map_bare_postorder : ∀ tree : Expr, tree.postorder.map Token.bare = tree.postorder
  | .number _ => rfl
  | .variable _ => rfl
  | .binary _ _ left right => by
      simp [postorder, map_bare_postorder left, map_bare_postorder right, Token.bare_eq_iff]
  | .unary _ _ _ operand => by simp [postorder, map_bare_postorder operand, Token.bare_eq_iff]
  | .call _ _ arguments => by
      simp [postorder, map_bare_postorderAll arguments, Token.bare_eq_iff]

theorem map_bare_postorderAll : ∀ trees : List Expr,
    (postorderAll trees).map Token.bare = postorderAll trees
  | [] => rfl
  | first :: others => by
      simp [postorderAll, map_bare_postorder first, map_bare_postorderAll others]

end

/-- The token of the root of a tree, which is written last. -/
def root : Expr → Token
  | .number text => ⟨.number, text⟩
  | .variable name => ⟨.variable, name⟩
  | .binary mode operator _ _ => ⟨.operator mode, operator⟩
  | .unary mode operator _ _ => ⟨.operator mode, operator⟩
  | .call mode name _ => ⟨.function mode, name⟩

/-- Reading tokens given last to first consumes exactly the postfix order `written`. -/
def Spells (written tokens rest : List Token) : Prop :=
  ∃ consumed, tokens = consumed ++ rest ∧ consumed.map Token.bare = written.reverse

@[simp] theorem spells_nil_iff {tokens rest : List Token} :
    Spells [] tokens rest ↔ tokens = rest := by
  simp [Spells]

/-- What is written last is read first. -/
@[simp] theorem spells_append_iff {first second tokens rest : List Token} :
    Spells (first ++ second) tokens rest ↔
      ∃ middle, Spells second tokens middle ∧ Spells first middle rest := by
  constructor
  · rintro ⟨consumed, rfl, same⟩
    rw [List.reverse_append] at same
    obtain ⟨later, earlier, rfl, sameLater, sameEarlier⟩ := List.map_eq_append_iff.1 same
    exact ⟨earlier ++ rest, ⟨later, by simp, sameLater⟩, ⟨earlier, rfl, sameEarlier⟩⟩
  · rintro ⟨_, ⟨later, rfl, sameLater⟩, ⟨earlier, rfl, sameEarlier⟩⟩
    exact ⟨later ++ earlier, by simp, by simp [sameLater, sameEarlier]⟩

theorem spells_singleton_iff {token : Token} {tokens rest : List Token} :
    Spells [token] tokens rest ↔ ∃ head, tokens = head :: rest ∧ head.bare = token := by
  constructor
  · rintro ⟨consumed, rfl, same⟩
    obtain ⟨head, rfl, same⟩ := List.map_eq_singleton_iff.1 same
    exact ⟨head, rfl, List.singleton_inj.1 same⟩
  · rintro ⟨head, rfl, same⟩
    exact ⟨[head], rfl, by simp [same]⟩

/-- What is spelled first is read last. -/
theorem spells_cons_iff {token : Token} {written tokens rest : List Token} :
    Spells (token :: written) tokens rest ↔
      ∃ head, head.bare = token ∧ Spells written tokens (head :: rest) := by
  rw [← List.singleton_append, spells_append_iff]
  simp only [spells_singleton_iff]
  grind

theorem spells_concat_iff
    {token : Token}
    {written tokens rest : List Token}
    (unmarked : token.kind ≠ .functionEnd) :
    Spells (written ++ [token]) tokens rest ↔
      ∃ behind, tokens = token :: behind ∧ Spells written behind rest := by
  simp only [spells_append_iff, spells_singleton_iff, Token.bare_eq_iff unmarked]
  grind

end Expr

namespace Precedences

open Reckoner.Expr

variable {precedences : Precedences}

/-- Reading one tree succeeds and leaves `rest`. -/
def Constructs
    (precedences : Precedences)
    (tokens : List Token)
    (tree : Expr)
    (rest : List Token) : Prop :=
  Leaves (precedences.construct tokens) tree rest

/-- Reading the arguments of a call succeeds and leaves `rest`. -/
def ConstructsArguments
    (precedences : Precedences)
    (name : String)
    (later : List Expr)
    (tokens : List Token)
    (arguments : List Expr)
    (rest : List Token) : Prop :=
  Leaves (precedences.constructArguments name later tokens) arguments rest

/-- A tree takes tokens. -/
theorem Constructs.length_lt
    {tokens rest : List Token}
    {tree : Expr}
    (constructs : precedences.Constructs tokens tree rest) :
    rest.length < tokens.length :=
  constructs.choose

theorem not_constructs_nil {tree : Expr} {rest : List Token} :
    ¬precedences.Constructs [] tree rest := by
  simp [Constructs, construct]

/-- An operand is a tree: at the mark of an enclosing call there is neither. -/
theorem constructOperand_iff
    (operator : String)
    {tokens rest : List Token}
    {tree : Expr} :
    Leaves (precedences.constructOperand operator tokens) tree rest ↔
      precedences.Constructs tokens tree rest := by
  unfold Constructs
  cases tokens with
  | nil => simp [constructOperand, construct]
  | cons next tokens =>
      rw [constructOperand]
      split
      next marked => simp [construct, marked]
      next => rfl

theorem spec_eq_ok_iff {operator : String} {spec : OperatorSpec} :
    precedences.spec operator = .ok spec ↔ precedences.specs.find? operator = some spec := by
  unfold Precedences.spec
  split
  next found => simp [found]
  next unknown => simp [unknown]

theorem fixity?_eq_some_iff {operator : String} {fixity : Fixity} :
    precedences.fixity? operator = some fixity ↔
      ∃ spec, precedences.spec operator = .ok spec ∧ spec.fixity = fixity := by
  simp only [fixity?, Option.map_eq_some_iff, spec_eq_ok_iff]

theorem constructs_number_iff {text : String} {tokens rest : List Token} {tree : Expr} :
    precedences.Constructs (⟨.number, text⟩ :: tokens) tree rest ↔
      .number text = tree ∧ tokens = rest := by
  simp [Constructs, construct]

theorem constructs_variable_iff {name : String} {tokens rest : List Token} {tree : Expr} :
    precedences.Constructs (⟨.variable, name⟩ :: tokens) tree rest ↔
      .variable name = tree ∧ tokens = rest := by
  simp [Constructs, construct]

/-- An operator takes its operands, the right one first, as its fixity says. -/
theorem constructs_operator_iff
    {mode : Mode}
    {operator : String}
    {tokens rest : List Token}
    {tree : Expr} :
    precedences.Constructs (⟨.operator mode, operator⟩ :: tokens) tree rest ↔
      (precedences.fixity? operator = some .between ∧
        ∃ right middle left, precedences.Constructs tokens right middle ∧
          precedences.Constructs middle left rest ∧ .binary mode operator left right = tree) ∨
      ∃ fixity operand, precedences.fixity? operator = some fixity ∧ fixity ≠ .between ∧
        precedences.Constructs tokens operand rest ∧
          .unary mode operator fixity operand = tree := by
  constructor
  · intro constructs
    rw [Constructs, construct] at constructs
    simp only at constructs
    split at constructs
    next => simp at constructs
    next spec known =>
      have found : precedences.fixity? operator = some spec.fixity :=
        fixity?_eq_some_iff.2 ⟨spec, known, rfl⟩
      split at constructs
      next between =>
        split at constructs
        next => simp at constructs
        next right middle _ readRight =>
          split at constructs
          next => simp at constructs
          next left final _ readLeft =>
            obtain ⟨rfl, rfl⟩ := leaves_ok_iff.1 constructs
            refine Or.inl ⟨between ▸ found, right, middle, left, ?_, ?_, rfl⟩
            · exact (constructOperand_iff operator).1 ⟨_, readRight⟩
            · exact (constructOperand_iff operator).1 ⟨_, readLeft⟩
      next beside =>
        split at constructs
        next => simp at constructs
        next operand final _ read =>
          obtain ⟨rfl, rfl⟩ := leaves_ok_iff.1 constructs
          refine Or.inr ⟨spec.fixity, operand, found, beside, ?_, rfl⟩
          exact (constructOperand_iff operator).1 ⟨_, read⟩
  · rintro (⟨found, right, middle, left, readRight, readLeft, rfl⟩ |
      ⟨fixity, operand, found, beside, read, rfl⟩)
    · obtain ⟨spec, known, between⟩ := fixity?_eq_some_iff.1 found
      obtain ⟨_, readRight⟩ := (constructOperand_iff operator).2 readRight
      obtain ⟨_, readLeft⟩ := (constructOperand_iff operator).2 readLeft
      simp [Constructs, construct, known, between, readRight, readLeft]
    · obtain ⟨spec, known, rfl⟩ := fixity?_eq_some_iff.1 found
      obtain ⟨_, read⟩ := (constructOperand_iff operator).2 read
      simp [Constructs, construct, known, beside, read]

/-- A function takes arguments up to its mark. -/
theorem constructs_function_iff
    {mode : Mode}
    {name : String}
    {tokens rest : List Token}
    {tree : Expr} :
    precedences.Constructs (⟨.function mode, name⟩ :: tokens) tree rest ↔
      ∃ arguments, precedences.ConstructsArguments name [] tokens arguments rest ∧
        .call mode name arguments = tree := by
  unfold Constructs ConstructsArguments
  rw [construct]
  rcases precedences.constructArguments name [] tokens with _ | ⟨arguments, final, _⟩
  · simp
  · simp [and_comm]

/-- Arguments go on until the mark. -/
theorem constructsArguments_iff
    {name : String}
    {later arguments : List Expr}
    {tokens rest : List Token} :
    precedences.ConstructsArguments name later tokens arguments rest ↔
      (∃ mark, tokens = mark :: rest ∧ mark.kind = .functionEnd ∧ later = arguments) ∨
      ∃ argument middle, precedences.Constructs tokens argument middle ∧
        precedences.ConstructsArguments name (argument :: later) middle arguments rest := by
  unfold ConstructsArguments Constructs
  cases tokens with
  | nil => simp [constructArguments, construct]
  | cons next tokens =>
      by_cases marked : next.kind = .functionEnd
      · simp [constructArguments, construct, marked, and_comm]
      rw [constructArguments, if_neg marked]
      rcases precedences.construct (next :: tokens) with _ | ⟨argument, middle, _⟩
      · simp [marked]
      · rcases further : precedences.constructArguments name (argument :: later) middle with
          _ | ⟨_, _, _⟩
        · simp [further, marked]
        · simp [further, marked]

/-- Reading several trees, the last one first. -/
def ConstructsAll (precedences : Precedences) : List Expr → (tokens rest : List Token) → Prop
  | [], tokens, rest => tokens = rest
  | first :: others, tokens, rest =>
      ∃ middle, ConstructsAll precedences others tokens middle ∧
        precedences.Constructs middle first rest

/-- The later trees are read first. -/
theorem constructsAll_append_iff {trees others : List Expr} {tokens rest : List Token} :
    ConstructsAll precedences (trees ++ others) tokens rest ↔
      ∃ middle, ConstructsAll precedences others tokens middle ∧
        ConstructsAll precedences trees middle rest := by
  induction trees generalizing rest with
  | nil => simp [ConstructsAll]
  | cons first trees hypothesis =>
      simp only [List.cons_append, ConstructsAll, hypothesis]
      constructor
      · rintro ⟨near, ⟨far, readOthers, readTrees⟩, readFirst⟩
        exact ⟨far, readOthers, near, readTrees, readFirst⟩
      · rintro ⟨far, readOthers, near, readTrees, readFirst⟩
        exact ⟨near, ⟨far, readOthers, readTrees⟩, readFirst⟩

/-- The arguments of a call are all the trees up to its mark. -/
theorem constructsArguments_iff_constructsAll
    {name : String}
    {later arguments : List Expr}
    {tokens rest : List Token} :
    precedences.ConstructsArguments name later tokens arguments rest ↔
      ∃ earlier mark, arguments = earlier ++ later ∧ mark.kind = .functionEnd ∧
        ConstructsAll precedences earlier tokens (mark :: rest) := by
  constructor
  · intro reads
    induction size : tokens.length using Nat.strongRecOn generalizing tokens later with
    | ind length hypothesis =>
        subst size
        rcases constructsArguments_iff.1 reads with
          ⟨mark, rfl, marked, rfl⟩ | ⟨argument, middle, readArgument, readOthers⟩
        · exact ⟨[], mark, rfl, marked, rfl⟩
        · obtain ⟨earlier, mark, rfl, marked, readEarlier⟩ :=
            hypothesis _ readArgument.length_lt readOthers rfl
          refine ⟨earlier ++ [argument], mark, by simp, marked, ?_⟩
          exact constructsAll_append_iff.2 ⟨middle, ⟨tokens, rfl, readArgument⟩, readEarlier⟩
  · rintro ⟨earlier, mark, rfl, marked, readEarlier⟩
    induction earlier using List.reverseRecOn generalizing tokens later with
    | nil =>
        obtain rfl : tokens = mark :: rest := readEarlier
        exact constructsArguments_iff.2 (Or.inl ⟨mark, rfl, marked, rfl⟩)
    | append_singleton front last hypothesis =>
        obtain ⟨middle, ⟨_, rfl, readLast⟩, readFront⟩ := constructsAll_append_iff.1 readEarlier
        refine constructsArguments_iff.2 (Or.inr ⟨last, middle, readLast, ?_⟩)
        rw [List.append_assoc]
        exact hypothesis readFront

/-- A tree is read from its root on. -/
theorem Constructs.root
    {tokens rest : List Token}
    {tree : Expr}
    (constructs : precedences.Constructs tokens tree rest) :
    ∃ behind, tokens = tree.root :: behind := by
  match tokens with
  | [] => exact absurd constructs not_constructs_nil
  | ⟨kind, lexeme⟩ :: behind =>
      cases kind with
      | number =>
          obtain ⟨rfl, _⟩ := constructs_number_iff.1 constructs
          exact ⟨behind, rfl⟩
      | «variable» =>
          obtain ⟨rfl, _⟩ := constructs_variable_iff.1 constructs
          exact ⟨behind, rfl⟩
      | operator mode =>
          rcases constructs_operator_iff.1 constructs with
            ⟨_, _, _, _, _, _, rfl⟩ | ⟨_, _, _, _, _, rfl⟩
          · exact ⟨behind, rfl⟩
          · exact ⟨behind, rfl⟩
      | function mode =>
          obtain ⟨_, _, rfl⟩ := constructs_function_iff.1 constructs
          exact ⟨behind, rfl⟩
      | _ =>
          obtain ⟨_, same⟩ := constructs
          rw [construct] at same
          cases same

/-- A tree starts, from behind, with its root. -/
theorem constructs_iff_root {tokens rest : List Token} {tree : Expr} :
    precedences.Constructs tokens tree rest ↔
      ∃ behind, tokens = tree.root :: behind ∧
        precedences.Constructs (tree.root :: behind) tree rest := by
  constructor
  · intro constructs
    obtain ⟨behind, rfl⟩ := constructs.root
    exact ⟨behind, rfl, constructs⟩
  · rintro ⟨behind, rfl, constructs⟩
    exact constructs

mutual

/-- Reading a tree from postfix order undoes writing it. -/
theorem constructs_iff {tokens rest : List Token} : ∀ tree : Expr,
    precedences.Constructs tokens tree rest ↔
      tree.Fits precedences ∧ Spells tree.postorder tokens rest
  | .number text => by
      rw [constructs_iff_root, postorder, spells_singleton_iff]
      simp [root, constructs_number_iff, Fits, Token.bare_eq_iff]
  | .variable name => by
      rw [constructs_iff_root, postorder, spells_singleton_iff]
      simp [root, constructs_variable_iff, Fits, Token.bare_eq_iff]
  | .binary mode operator left right => by
      rw [constructs_iff_root, postorder, spells_concat_iff (by simp)]
      simp only [root, constructs_operator_iff, Fits, spells_append_iff]
      constructor
      · rintro ⟨behind, rfl, ⟨found, _, middle, _, readRight, readLeft, same⟩ |
          ⟨_, _, _, _, _, same⟩⟩
        · obtain ⟨_, _, rfl, rfl⟩ := Expr.binary.inj same.symm
          obtain ⟨fitsRight, spellsRight⟩ := (constructs_iff right).1 readRight
          obtain ⟨fitsLeft, spellsLeft⟩ := (constructs_iff left).1 readLeft
          exact ⟨⟨found, fitsLeft, fitsRight⟩, behind, rfl, middle, spellsRight, spellsLeft⟩
        · cases same
      · rintro ⟨⟨found, fitsLeft, fitsRight⟩, behind, rfl, middle, spellsRight, spellsLeft⟩
        refine ⟨behind, rfl, Or.inl ⟨found, right, middle, left, ?_, ?_, rfl⟩⟩
        · exact (constructs_iff right).2 ⟨fitsRight, spellsRight⟩
        · exact (constructs_iff left).2 ⟨fitsLeft, spellsLeft⟩
  | .unary mode operator fixity operand => by
      rw [constructs_iff_root, postorder, spells_concat_iff (by simp)]
      simp only [root, constructs_operator_iff, Fits]
      constructor
      · rintro ⟨behind, rfl, ⟨_, _, _, _, _, _, same⟩ | ⟨_, _, found, beside, read, same⟩⟩
        · cases same
        · obtain ⟨_, _, rfl, rfl⟩ := Expr.unary.inj same.symm
          obtain ⟨fits, spells⟩ := (constructs_iff operand).1 read
          exact ⟨⟨found, beside, fits⟩, behind, rfl, spells⟩
      · rintro ⟨⟨found, beside, fits⟩, behind, rfl, spells⟩
        have read := (constructs_iff operand).2 ⟨fits, spells⟩
        exact ⟨behind, rfl, Or.inr ⟨fixity, operand, found, beside, read, rfl⟩⟩
  | .call mode name arguments => by
      rw [constructs_iff_root, postorder, ← List.cons_append, spells_concat_iff (by simp)]
      simp only [root, constructs_function_iff, constructsArguments_iff_constructsAll, Fits,
        spells_cons_iff, List.append_nil, Token.bare_eq_functionEnd_iff]
      constructor
      · rintro ⟨behind, rfl, _, ⟨earlier, mark, rfl, marked, readAll⟩, same⟩
        obtain ⟨_, _, rfl⟩ := Expr.call.inj same.symm
        obtain ⟨fits, spells⟩ := (constructsAll_iff _).1 readAll
        exact ⟨fits, behind, rfl, mark, marked, spells⟩
      · rintro ⟨fits, behind, rfl, mark, marked, spells⟩
        have readAll := (constructsAll_iff arguments).2 ⟨fits, spells⟩
        exact ⟨behind, rfl, arguments, ⟨arguments, mark, rfl, marked, readAll⟩, rfl⟩

/-- Trees are read from a spelling of their postorders when they fit. -/
theorem constructsAll_iff {tokens rest : List Token} : ∀ trees : List Expr,
    ConstructsAll precedences trees tokens rest ↔
      FitsAll precedences trees ∧ Spells (postorderAll trees) tokens rest
  | [] => by simp [ConstructsAll, FitsAll, postorderAll]
  | first :: others => by
      simp only [ConstructsAll, FitsAll, postorderAll, spells_append_iff, constructsAll_iff others,
        constructs_iff first]
      constructor
      · rintro ⟨middle, ⟨fitOthers, spellOthers⟩, fitFirst, spellFirst⟩
        exact ⟨⟨fitFirst, fitOthers⟩, middle, spellOthers, spellFirst⟩
      · rintro ⟨⟨fitFirst, fitOthers⟩, middle, spellOthers, spellFirst⟩
        exact ⟨middle, ⟨fitOthers, spellOthers⟩, fitFirst, spellFirst⟩

end

/-- What is built takes all of the tokens. -/
theorem buildReversed_eq_ok_iff {tokens : List Token} {tree : Expr} :
    precedences.buildReversed tokens = .ok tree ↔ precedences.Constructs tokens tree [] := by
  unfold buildReversed Constructs
  split
  next failure failed => simp [failed]
  next built rest shorter read =>
    rw [read]
    cases rest with
    | nil => simp
    | cons => simp

/-- Writing a tree in postfix order and reading it back gives the tree exactly when its operators
stand where their fixities say.  Tokens are read as a tree exactly when they are the postfix order
of such a tree up to the lexemes of marks, and all other tokens are refused. -/
theorem build_inverts_postorder (precedences : Precedences) :
    (∀ tree : Expr, precedences.build tree.postorder = .ok tree ↔ tree.Fits precedences) ∧
      ∀ tokens : List Token,
        (∀ tree, precedences.build tokens = .ok tree ↔
          tree.Fits precedences ∧ tokens.map Token.bare = tree.postorder) ∧
        ((∃ failure, precedences.build tokens = .error failure) ↔
          ¬∃ tree : Expr, tree.Fits precedences ∧ tokens.map Token.bare = tree.postorder) := by
  have reads (tokens : List Token) (tree : Expr) : precedences.build tokens = .ok tree ↔
      tree.Fits precedences ∧ tokens.map Token.bare = tree.postorder := by
    rw [build, buildReversed_eq_ok_iff, constructs_iff]
    simp [Spells]
  refine ⟨fun tree => ?_, fun tokens => ⟨reads tokens, ?_⟩⟩
  · rw [reads, map_bare_postorder, and_iff_left rfl]
  · simp only [← reads]
    cases precedences.build tokens with
    | error failure => simp
    | ok tree => simp

end Precedences
end Reckoner
