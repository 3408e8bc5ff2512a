import Reckoner.Expr.Reader
import Reckoner.Proofs.Expr.Learning
import Reckoner.Proofs.Expr.Leaves
import Reckoner.Proofs.Lexer.Walking
import Reckoner.Proofs.Number.Literals

/-!
# Numbers in expressions

A tokenizer may learn whatever names it is given, but numbers are not what names become, so that
what it takes for a number always has the shape of numbers.  Such a piece of a text is a literal,
unless it is empty, and an empty piece never becomes a token.  So every number of an expression
that has been read is a literal.
-/

namespace Reckoner

namespace Tokenizer

variable {tokenizer : Tokenizer}

/-- What is registered is a name, or matches nothing but texts of the shape of its kind. -/
def KeepsShapes (tokenizer : Tokenizer) : Prop :=
  ∀ registration ∈ tokenizer.lexer.registrations,
    (∃ symbol, registration.id = .ofSymbol symbol) ∨
      ∀ text, registration.pattern.isMatch (String.ofList text) = true →
        text ∈ shapeOf registration.id

theorem keepsShapes_base : base.KeepsShapes := by
  refine fun registration member => .inr fun text accepting => ?_
  have recognized : text ∈ languageOf .empty registration.id :=
    exists_mem_load_iff.1 ⟨registration, member, rfl, accepting⟩
  rcases mem_languageOf_iff.1 recognized with shaped | ⟨_, _, _, named⟩
  · exact shaped
  · cases named

theorem KeepsShapes.load (keeps : tokenizer.KeepsShapes) (grammar : Grammar) :
    (tokenizer.load grammar).KeepsShapes := by
  intro registration member
  have compiles : ∀ entry ∈ words grammar, ∃ pattern, Pattern.compile entry.1 = .ok pattern :=
    fun _ isWord => exists_compile_of_mem_sources (List.mem_append_right _ isWord)
  rw [load_eq, mem_foldl_learn_iff compiles] at member
  rcases member with ⟨known, _⟩ | ⟨entry, isWord, registers⟩
  · exact keeps registration known
  · obtain ⟨symbol, _, _, _, rfl⟩ := mem_words_iff.1 isWord
    exact .inl ⟨symbol, registers.1⟩

theorem KeepsShapes.unload (keeps : tokenizer.KeepsShapes) (grammar : Grammar) :
    (tokenizer.unload grammar).KeepsShapes := by
  intro registration member
  rw [registrations_unload] at member
  exact keeps registration (List.mem_of_mem_filter member)

/-- The tokens that are no names have the shapes of their kinds, and none of them is empty. -/
theorem KeepsShapes.mem_shapeOf
    (keeps : tokenizer.KeepsShapes)
    {text : String}
    {tokens : List Token}
    (cut : tokenizer.tokenize text = .ok tokens)
    {token : Token}
    (member : token ∈ tokens)
    (nameless : ∀ symbol, token.kind ≠ .ofSymbol symbol) :
    token.lexeme.toList ∈ shapeOf token.kind ∧ token.lexeme.toList ≠ [] := by
  obtain ⟨pieces, cuts, rfl⟩ := tokenize_eq_ok_iff.1 cut
  obtain ⟨⟨lexeme, kind⟩, inPieces, rfl⟩ := List.mem_map.1 member
  obtain ⟨⟨_, takes⟩, nonempty⟩ := cuts.exists_takes (List.mem_of_mem_filter inPieces)
  obtain ⟨registration, registered, rfl, accepting⟩ := takes.exists_registration
  rw [String.toList_ofList]
  rcases keeps registration registered with ⟨symbol, named⟩ | shaped
  · exact absurd named (nameless symbol)
  · exact ⟨shaped lexeme accepting, nonempty⟩

/-- What has the shape of numbers is a literal, the empty text apart. -/
theorem exists_denotes_of_mem_number
    {text : List Char}
    (numeral : text ∈ shapeOf .number)
    (nonempty : text ≠ []) :
    ∃ value, Literal.Denotes text value := by
  rcases digits_of_mem_number numeral with areDigits | ⟨whole, fraction, rfl, some, areDigits⟩
  · exact ⟨_, .size (.integral nonempty areDigits)⟩
  · exact ⟨_, .size (.pointed (List.append_ne_nil_of_right_ne_nil whole some) areDigits)⟩

end Tokenizer

namespace Expr

/-- Every number of an expression is a literal. -/
def IsReadable (tree : Expr) : Prop :=
  ∀ lexeme, .number lexeme ∈ tree.leaves → ∃ value, Literal.Denotes lexeme.toList value

theorem mem_leavesAll_iff {leaf : Expr} {trees : List Expr} :
    leaf ∈ leavesAll trees ↔ ∃ tree ∈ trees, leaf ∈ tree.leaves := by
  induction trees with
  | nil => simp [leavesAll]
  | cons first rest hypothesis => simp [leavesAll, hypothesis]

end Expr

namespace Reader

/-- The readers that come of the new one by learning and forgetting grammars. -/
inductive Loaded : Reader → Prop
  | base : Loaded base
  | load {reader : Reader} (loaded : Loaded reader) (grammar : Grammar) :
      Loaded (reader.load grammar)
  | unload {reader : Reader} (loaded : Loaded reader) (grammar : Grammar) :
      Loaded (reader.unload grammar)

theorem Loaded.keepsShapes {reader : Reader} (loaded : reader.Loaded) :
    reader.tokenizer.KeepsShapes := by
  induction loaded with
  | base => exact Tokenizer.keepsShapes_base
  | load _ grammar keeps => exact keeps.load grammar
  | unload _ grammar keeps => exact keeps.unload grammar

/-- Whatever names a reader has learnt, the numbers of the expressions that it reads are
literals. -/
theorem Loaded.isReadable
    {reader : Reader}
    (loaded : reader.Loaded)
    {text : String}
    {tree : Expr}
    (parses : reader.parse text = .ok tree) :
    tree.IsReadable := by
  intro lexeme isLeaf
  unfold parse at parses
  split at parses
  next => cases parses
  next tokens cut =>
    rw [Precedences.leaves_eq_of_parse parses, List.mem_filterMap] at isLeaf
    obtain ⟨token, member, becomes⟩ := isLeaf
    obtain ⟨kind, rfl⟩ : token.kind = .number ∧ token.lexeme = lexeme := by
      unfold Token.leaf? at becomes
      split at becomes
      next number => exact ⟨number, Expr.number.inj (Option.some.inj becomes)⟩
      next => cases becomes
      next => cases becomes
    obtain ⟨shaped, nonempty⟩ := loaded.keepsShapes.mem_shapeOf cut member fun symbol => by
      rw [kind]
      cases symbol <;> simp [TokenKind.ofSymbol]
    exact Tokenizer.exists_denotes_of_mem_number (kind ▸ shaped) nonempty

end Reader
end Reckoner
