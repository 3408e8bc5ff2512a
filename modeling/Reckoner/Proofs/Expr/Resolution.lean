import Reckoner.Evaluation.Registry
import Reckoner.Expr.Reader
import Reckoner.Proofs.Expr.Conservation
import Reckoner.Proofs.Expr.Vocabulary

/-!
# Names that are read are registered

The name spaces of a registry are merged twice when it is read: the tokenizer decides which name
space a lexeme belongs to, and the precedences, which know a name only once, decide how it is read.
Both prefer operators on unreduced operands.  So every node of a tree that a reader returns has a
name which is registered in the name space of the node, and an operator is read as it is registered
there.  The one name that does not come from the text is the negation, which is taken to be an
operator on values.
-/

namespace Reckoner

/-! ## Name spaces -/

namespace Registry

theorem nodup_names (registry : Registry) (symbol : Symbol) : (registry.names symbol).Nodup := by
  rcases symbol with (_ | _) | (_ | _)
  · exact registry.operators.nodup_names
  · exact registry.treeOperators.nodup_names
  · exact registry.functions.nodup_names
  · exact registry.treeFunctions.nodup_names

/-- The names of operators are those that are known to be read in some way. -/
theorem mem_names_operator_iff {registry : Registry} {mode : Mode} {name : String} :
    name ∈ registry.names (.operator mode) ↔ ∃ spec, registry.spec? mode name = some spec := by
  cases mode <;> simp [names, spec?, Table.mem_names_iff]

end Registry

namespace Precedences

/-- A name has what its own step gives to it, or what it had before. -/
theorem find?_foldl
    {step : Precedences → String → Precedences}
    {name : String}
    (found : Option OperatorSpec)
    (law : ∀ before other, (step before other).specs.find? name =
      if other = name then found.or (before.specs.find? name) else before.specs.find? name)
    (names : List String)
    (before : Precedences) :
    (names.foldl step before).specs.find? name =
      if name ∈ names then found.or (before.specs.find? name)
      else before.specs.find? name := by
  induction names generalizing before with
  | nil => simp
  | cons first rest hypothesis =>
      rw [List.foldl_cons, hypothesis, law]
      grind

theorem find?_loadMode
    (precedences : Precedences)
    (registry : Registry)
    (mode : Mode)
    (name : String) :
    (loadMode registry.grammar precedences mode).specs.find? name =
      (registry.spec? mode name).or (precedences.specs.find? name) := by
  refine (find?_foldl (registry.spec? mode name) (fun before other => ?_)
    (registry.names (.operator mode)) precedences).trans ?_
  · dsimp only [Registry.grammar]
    cases known : registry.spec? mode other with
    | none => grind
    | some spec => grind [Table.find?_insert]
  split
  next => rfl
  next absent =>
    have unknown : registry.spec? mode name = none := by
      rw [Option.eq_none_iff_forall_ne_some]
      intro spec known
      exact absent (Registry.mem_names_operator_iff.2 ⟨spec, known⟩)
    rw [unknown, Option.none_or]

/-- An operator on unreduced operands hides its namesake on values. -/
theorem find?_load (registry : Registry) (name : String) :
    (empty.load registry.grammar).specs.find? name =
      (registry.spec? .tree name).or (registry.spec? .value name) := by
  rw [load, find?_loadMode, find?_loadMode]
  simp [empty]

end Precedences

/-! ## Tokens -/

namespace Registry

/-- What the kind of a token says about its lexeme: it is a name of the name space, and among
operators on values there is no operator on unreduced operands of the same name. -/
def Recognizes (registry : Registry) (token : Token) : Prop :=
  match token.kind with
  | .operator mode => token.lexeme ∈ registry.names (.operator mode) ∧
      (mode = .value → token.lexeme ∉ registry.names (.operator .tree))
  | .function mode => token.lexeme ∈ registry.names (.function mode)
  | _ => True

/-- Every token of a text is recognized. -/
theorem recognizes_of_tokenize
    {registry : Registry}
    {text : String}
    {tokens : List Token}
    (cut : (Tokenizer.base.load registry.grammar).tokenize text = .ok tokens) :
    ∀ token ∈ tokens, registry.Recognizes token := by
  obtain ⟨pieces, cuts, rfl⟩ := Tokenizer.tokenize_eq_ok_iff.1 cut
  intro token member
  obtain ⟨⟨lexeme, kind⟩, isPiece, rfl⟩ := List.mem_map.1 member
  obtain ⟨⟨characters, takes⟩, _⟩ := cuts.exists_takes (List.mem_filter.1 isPiece).1
  obtain ⟨_, recognized, _, highest⟩ := Tokenizer.recognized_of_takes registry.nodup_names takes
  have words (symbol : Symbol) : lexeme ∈ Tokenizer.languageOf registry.grammar (.ofSymbol symbol) ↔
      lexeme ≠ [] ∧ String.ofList lexeme ∈ registry.names symbol :=
    Tokenizer.mem_languageOf_ofSymbol_iff
  cases kind with
  | operator mode =>
      obtain ⟨nonempty, named⟩ := (words (.operator mode)).1 recognized
      refine ⟨named, ?_⟩
      rintro rfl alsoTree
      have below : (TokenKind.operator .tree).standing ≤ (TokenKind.operator .value).standing :=
        highest _ ((words (.operator .tree)).2 ⟨nonempty, alsoTree⟩)
      exact absurd below (by decide)
  | function mode => exact ((words (.function mode)).1 recognized).2
  | _ => trivial

/-! ## Trees -/

/-- An operator is registered in a name space and is read as it is registered there. -/
def Provides
    (registry : Registry)
    (precedences : Precedences)
    (mode : Mode)
    (operator : String) : Prop :=
  ∃ spec, registry.spec? mode operator = some spec ∧
    precedences.specs.find? operator = some spec

theorem Provides.exists_operator
    {registry : Registry}
    {precedences : Precedences}
    {operator : String}
    (provides : registry.Provides precedences .value operator) :
    ∃ found, registry.operators.find? operator = some found := by
  obtain ⟨spec, known, _⟩ := provides
  obtain ⟨found, registered, _⟩ := Option.map_eq_some_iff.1 known
  exact ⟨found, registered⟩

theorem Provides.exists_treeOperator
    {registry : Registry}
    {precedences : Precedences}
    {operator : String}
    (provides : registry.Provides precedences .tree operator) :
    ∃ found, registry.treeOperators.find? operator = some found := by
  obtain ⟨spec, known, _⟩ := provides
  obtain ⟨found, registered, _⟩ := Option.map_eq_some_iff.1 known
  exact ⟨found, registered⟩

end Registry

namespace Expr

mutual

/-- Every operator and function of a tree is registered in the name space of its node, and the
operators are read as they are registered there. -/
def Resolves (registry : Registry) (precedences : Precedences) : Expr → Prop
  | .number _ => True
  | .variable _ => True
  | .binary mode operator left right =>
      registry.Provides precedences mode operator ∧
        left.Resolves registry precedences ∧ right.Resolves registry precedences
  | .unary mode operator _ operand =>
      registry.Provides precedences mode operator ∧ operand.Resolves registry precedences
  | .call mode name arguments =>
      name ∈ registry.names (.function mode) ∧ ResolvesAll registry precedences arguments

/-- Every operator and function of several trees is registered. -/
def ResolvesAll (registry : Registry) (precedences : Precedences) : List Expr → Prop
  | [] => True
  | first :: rest =>
      first.Resolves registry precedences ∧ ResolvesAll registry precedences rest

end

end Expr

namespace Registry

/-- An operator on values that no operator on unreduced operands hides is read as it is
registered. -/
theorem provides_value
    {registry : Registry}
    {operator : String}
    {spec : OperatorSpec}
    (visible : operator ∉ registry.names (.operator .tree))
    (known : (Precedences.empty.load registry.grammar).specs.find? operator = some spec) :
    registry.Provides (Precedences.empty.load registry.grammar) .value operator := by
  have hidden : registry.spec? .tree operator = none := by
    rw [Option.eq_none_iff_forall_ne_some]
    intro other otherKnown
    exact visible (mem_names_operator_iff.2 ⟨other, otherKnown⟩)
  have found := known
  rw [Precedences.find?_load, hidden, Option.none_or] at found
  exact ⟨spec, found, known⟩

theorem Recognizes.provides
    {registry : Registry}
    {mode : Mode}
    {operator : String}
    (recognizes : registry.Recognizes ⟨.operator mode, operator⟩) :
    registry.Provides (Precedences.empty.load registry.grammar) mode operator := by
  obtain ⟨named, onlyValue⟩ := recognizes
  obtain ⟨spec, known⟩ := mem_names_operator_iff.1 named
  have found := Precedences.find?_load registry operator
  cases mode with
  | tree =>
      rw [known, Option.some_or] at found
      exact ⟨spec, known, found⟩
  | value =>
      cases tree : registry.spec? .tree operator with
      | none =>
          rw [tree, known, Option.none_or] at found
          exact ⟨spec, known, found⟩
      | some other =>
          exact absurd (mem_names_operator_iff.2 ⟨other, tree⟩) (onlyValue rfl)

/-- A token as it is read: one that has been recognized, or a sign. -/
def RecognizesOrSign (registry : Registry) (token : Token) : Prop :=
  registry.Recognizes token ∨ token = ⟨.operator .value, Precedences.negation⟩

theorem RecognizesOrSign.provides
    {registry : Registry}
    {mode : Mode}
    {operator : String}
    {fixity : Fixity}
    (recognizes : registry.RecognizesOrSign ⟨.operator mode, operator⟩)
    (visible : Precedences.negation ∉ registry.names (.operator .tree))
    (known : (Precedences.empty.load registry.grammar).fixity? operator = some fixity) :
    registry.Provides (Precedences.empty.load registry.grammar) mode operator := by
  rcases recognizes with recognizes | sign
  · exact recognizes.provides
  · obtain ⟨kind, rfl⟩ := Token.mk.inj sign
    obtain rfl := TokenKind.operator.inj kind
    obtain ⟨spec, found, _⟩ := Option.map_eq_some_iff.1 known
    exact provides_value visible found

end Registry

namespace Expr

variable {registry : Registry}

mutual

/-- A tree of operators in their places is resolved if its tokens are. -/
theorem resolves_of_postorder
    (visible : Precedences.negation ∉ registry.names (.operator .tree)) :
    ∀ tree : Expr, tree.Fits (Precedences.empty.load registry.grammar) →
      (∀ token ∈ tree.postorder, token.isContent = true → registry.RecognizesOrSign token) →
        tree.Resolves registry (Precedences.empty.load registry.grammar)
  | .number _, _, _ => trivial
  | .variable _, _, _ => trivial
  | .binary mode operator left right, ⟨between, fitsLeft, fitsRight⟩, recognizes => by
      have root := recognizes ⟨.operator mode, operator⟩ (by simp [postorder]) rfl
      refine ⟨root.provides visible between, ?_, ?_⟩
      · exact resolves_of_postorder visible left fitsLeft fun token member =>
          recognizes token (by simp [postorder, member])
      · exact resolves_of_postorder visible right fitsRight fun token member =>
          recognizes token (by simp [postorder, member])
  | .unary mode operator fixity operand, ⟨found, _, fits⟩, recognizes => by
      have root := recognizes ⟨.operator mode, operator⟩ (by simp [postorder]) rfl
      refine ⟨root.provides visible found, ?_⟩
      exact resolves_of_postorder visible operand fits fun token member =>
        recognizes token (by simp [postorder, member])
  | .call mode name arguments, fits, recognizes => by
      have root := recognizes ⟨.function mode, name⟩ (by simp [postorder]) rfl
      refine ⟨?_, ?_⟩
      · rcases root with named | sign
        · exact named
        · cases congrArg Token.kind sign
      · exact resolvesAll_of_postorder visible arguments fits fun token member =>
          recognizes token (by simp [postorder, member])

theorem resolvesAll_of_postorder
    (visible : Precedences.negation ∉ registry.names (.operator .tree)) :
    ∀ trees : List Expr, FitsAll (Precedences.empty.load registry.grammar) trees →
      (∀ token ∈ postorderAll trees, token.isContent = true → registry.RecognizesOrSign token) →
        ResolvesAll registry (Precedences.empty.load registry.grammar) trees
  | [], _, _ => trivial
  | first :: rest, ⟨fits, others⟩, recognizes => by
      refine ⟨?_, ?_⟩
      · exact resolves_of_postorder visible first fits fun token member =>
          recognizes token (by simp [postorderAll, member])
      · exact resolvesAll_of_postorder visible rest others fun token member =>
          recognizes token (by simp [postorderAll, member])

end

end Expr

/-- If the negation is not registered as an operator on unreduced operands, then every tree that is
read from a text has only operators and functions that are registered in the name spaces of their
nodes, and its operators are read as they are registered there. -/
theorem resolves_of_parse
    {registry : Registry}
    {text : String}
    {tree : Expr}
    (visible : Precedences.negation ∉ registry.names (.operator .tree))
    (parses : (Reader.base.load registry.grammar).parse text = .ok tree) :
    tree.Resolves registry (Precedences.empty.load registry.grammar) ∧
      tree.Fits (Precedences.empty.load registry.grammar) := by
  unfold Reader.parse at parses
  split at parses
  next => cases parses
  next tokens cut =>
    have recognized := Registry.recognizes_of_tokenize cut
    obtain ⟨_, _, fits, _⟩ := Precedences.parse_eq_ok_iff.1 parses
    obtain ⟨_, _, content⟩ := Precedences.keeps_of_parse parses
    refine ⟨Expr.resolves_of_postorder visible tree fits ?_, fits⟩
    intro token member isContent
    have taken := content.mem_iff.1 (List.mem_filter.2 ⟨member, isContent⟩)
    exact (Precedences.mem_or_eq_of_mem_readAll (List.mem_filter.1 taken).1).imp_left
      (recognized token)

end Reckoner
