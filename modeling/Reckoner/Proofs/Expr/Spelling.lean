import Reckoner.Proofs.Expr.Vocabulary
import Reckoner.Proofs.Expr.Writing

/-!
# Tokens written without spaces

Tokens that are written one behind the other are cut apart again where they were joined, if the
names of the grammar are words of letters or begin with a sign of their own.  Only two words in a
row run together: they are read as one longer word.
-/

open scoped Computability

namespace Reckoner

/-! ## Classes of lexemes -/

/-- Whether a character occurs in numerals. -/
def isFigure (character : Char) : Bool :=
  character.isDigit || character == '.'

/-- Whether a text consists of letters. -/
def isWord (text : List Char) : Bool :=
  !text.isEmpty && text.all Char.isAlpha

/-- Whether a character starts a lexeme that is neither a word nor a numeral nor the same in every
grammar. -/
def isMark (character : Char) : Bool :=
  !character.isAlpha && !isFigure character && !([' ', ',', '(', ')'].contains character)

/-- A word is made of letters. -/
theorem isWord_iff {text : List Char} :
    isWord text = true ↔ text ≠ [] ∧ ∀ character ∈ text, character.isAlpha = true := by
  simp [isWord]

theorem isWord_append
    {left right : List Char}
    (wordLeft : isWord left = true)
    (wordRight : isWord right = true) :
    isWord (left ++ right) = true := by
  rw [isWord_iff] at wordLeft wordRight ⊢
  refine ⟨by simp [wordLeft.1], ?_⟩
  intro character member
  rcases List.mem_append.1 member with inLeft | inRight
  · exact wordLeft.2 character inLeft
  · exact wordRight.2 character inRight

theorem isFigure_of_isDigit {character : Char} (digit : character.isDigit = true) :
    isFigure character = true := by
  simp [isFigure, digit]

/-- No letter occurs in numerals. -/
theorem isFigure_eq_false_of_isAlpha {character : Char} (alpha : character.isAlpha = true) :
    isFigure character = false := by
  simp only [isFigure, Char.isAlpha, Char.isUpper, Char.isLower, Char.isDigit, Bool.or_eq_true,
    Bool.and_eq_true, decide_eq_true_eq, Bool.or_eq_false_iff, Bool.and_eq_false_imp,
    decide_eq_false_iff_not, beq_eq_false_iff_ne] at alpha ⊢
  constructor
  · intro low high
    rcases alpha with ⟨above, _⟩ | ⟨above, _⟩
    · exact absurd (UInt32.le_trans above high) (by decide)
    · exact absurd (UInt32.le_trans above high) (by decide)
  · rintro rfl
    revert alpha
    decide

/-- The characters that are lexemes in every grammar are of no other class. -/
theorem unclassed_of_mem
    {character : Char}
    (known : character ∈ [' ', ',', '(', ')']) :
    isFigure character = false ∧ isMark character = false := by
  simp only [List.mem_cons, List.not_mem_nil, or_false] at known
  rcases known with rfl | rfl | rfl | rfl <;> decide

namespace Tokenizer

theorem mem_letter_iff {text : List Char} :
    text ∈ letter ↔ ∃ character, text = [character] ∧ character.isAlpha = true := by
  simp only [letter, range, Char.isAlpha, Char.isUpper, Char.isLower,
    Bool.or_eq_true, Bool.and_eq_true, decide_eq_true_eq]
  constructor
  · rintro (⟨character, low, high, rfl⟩ | ⟨character, low, high, rfl⟩)
    · exact ⟨character, rfl, Or.inr ⟨low, high⟩⟩
    · exact ⟨character, rfl, Or.inl ⟨low, high⟩⟩
  · rintro ⟨character, rfl, ⟨low, high⟩ | ⟨low, high⟩⟩
    · exact Or.inr ⟨character, low, high, rfl⟩
    · exact Or.inl ⟨character, low, high, rfl⟩

/-- A number is made of digits and points. -/
theorem isFigure_of_mem_number
    {text : List Char}
    (numeral : text ∈ shapeOf .number) :
    ∀ character ∈ text, isFigure character = true := by
  intro character member
  rcases digits_of_mem_number numeral with areDigits | ⟨whole, fraction, rfl, _, areDigits⟩
  · exact isFigure_of_isDigit (areDigits character member)
  · rw [List.mem_append, List.mem_cons, or_left_comm, ← List.mem_append] at member
    rcases member with rfl | digit
    · rfl
    · exact isFigure_of_isDigit (areDigits character digit)

/-- The variables are the words. -/
theorem mem_variable_iff {text : List Char} : text ∈ shapeOf .variable ↔ isWord text = true := by
  rw [isWord_iff]
  constructor
  · intro shaped
    obtain ⟨first, inFirst, others, inOthers, rfl⟩ := Language.mem_mul.1 shaped
    obtain ⟨character, rfl, alpha⟩ := mem_letter_iff.1 inFirst
    refine ⟨by simp, ?_⟩
    have letters : ∀ part ∈ letter, ∀ character ∈ part, character.isAlpha = true := by
      intro part member
      obtain ⟨only, rfl, isAlpha⟩ := mem_letter_iff.1 member
      simpa using isAlpha
    intro other member
    rcases List.mem_cons.1 member with rfl | later
    · exact alpha
    · exact forall_mem_of_mem_kstar letters inOthers other later
  · rintro ⟨nonempty, letters⟩
    cases text with
    | nil => exact absurd rfl nonempty
    | cons first others =>
        refine Language.mem_mul.2 ⟨[first], ?_, others, ?_, rfl⟩
        · exact mem_letter_iff.2 ⟨first, rfl, letters first List.mem_cons_self⟩
        · refine Language.mem_kstar.2 ⟨others.map fun character => [character], ?_, ?_⟩
          · exact (List.flatMap_singleton' others).symm
          · intro part member
            obtain ⟨character, inside, rfl⟩ := List.mem_map.1 member
            exact mem_letter_iff.2
              ⟨character, rfl, letters character (List.mem_cons_of_mem _ inside)⟩

end Tokenizer

/-! ## Orderly grammars -/

/-- A grammar whose names are words or begin with a mark that no other name begins with. -/
structure Grammar.Orderly (grammar : Grammar) : Prop where
  distinct : ∀ symbol, (grammar.names symbol).Nodup
  starts : ∀ symbol, ∀ name ∈ grammar.names symbol,
    isWord name.toList = true ∨ name.toList.head?.any isMark = true
  unlike : ∀ symbol, ∀ name ∈ grammar.names symbol,
    ∀ other, ∀ namesake ∈ grammar.names other,
      isWord name.toList = false → name.toList.head? = namesake.toList.head? → name = namesake

instance (grammar : Grammar) : Decidable grammar.Orderly :=
  decidable_of_iff
    ((∀ symbol ∈ Symbol.all, (grammar.names symbol).Nodup) ∧
      (∀ symbol ∈ Symbol.all, ∀ name ∈ grammar.names symbol,
        isWord name.toList = true ∨ name.toList.head?.any isMark = true) ∧
      ∀ symbol ∈ Symbol.all, ∀ name ∈ grammar.names symbol,
        ∀ other ∈ Symbol.all, ∀ namesake ∈ grammar.names other,
          isWord name.toList = false → name.toList.head? = namesake.toList.head? →
            name = namesake)
    ⟨fun ⟨distinct, starts, unlike⟩ =>
      ⟨fun symbol => distinct symbol symbol.mem_all, fun symbol => starts symbol symbol.mem_all,
        fun symbol name named other => unlike symbol symbol.mem_all name named other other.mem_all⟩,
    fun ⟨distinct, starts, unlike⟩ =>
      ⟨fun symbol _ => distinct symbol, fun symbol _ => starts symbol,
        fun symbol _ name named other _ => unlike symbol name named other⟩⟩

namespace Tokenizer

variable {grammar : Grammar}

/-- What a lexeme of an orderly grammar looks like. -/
inductive Looks (grammar : Grammar) (kind : TokenKind) (text : List Char) : Prop
  | word (letters : isWord text = true)
  | numeral (isNumber : kind = .number) (figures : ∀ character ∈ text, isFigure character = true)
  | fixed (character : Char) (known : character ∈ [' ', ',', '(', ')']) (same : text = [character])
  | sign (symbol : Symbol) (name : String) (named : name ∈ grammar.names symbol)
      (wordless : isWord name.toList = false) (mark : name.toList.head?.any isMark = true)
      (same : text = name.toList)

/-- In an orderly grammar every kind looks its own way. -/
theorem looks_of_mem_languageOf
    (orderly : grammar.Orderly)
    {kind : TokenKind}
    {text : List Char}
    (recognized : text ∈ languageOf grammar kind) :
    Looks grammar kind text := by
  rcases mem_languageOf_iff.1 recognized with shaped | ⟨_, symbol, rfl, named⟩
  · cases kind with
    | whitespace => exact .fixed ' ' (by decide) shaped
    | comma => exact .fixed ',' (by decide) shaped
    | number => exact .numeral rfl (isFigure_of_mem_number shaped)
    | «variable» => exact .word (mem_variable_iff.1 shaped)
    | openParen => exact .fixed '(' (by decide) shaped
    | closeParen => exact .fixed ')' (by decide) shaped
    | functionEnd | any | operator _ | function _ =>
        exact absurd shaped (Language.notMem_zero text)
  · rcases Bool.eq_false_or_eq_true (isWord text) with word | wordless
    · exact .word word
    · have spelled : (String.ofList text).toList = text := String.toList_ofList
      rcases orderly.starts symbol _ named with word | mark
      · rw [spelled, wordless] at word
        cases word
      · exact .sign symbol _ named (spelled.symm ▸ wordless) mark spelled.symm

/-- A lexeme that is read as a kind. -/
structure IsLexeme (grammar : Grammar) (kind : TokenKind) (text : List Char) : Prop where
  recognized : text ∈ languageOf grammar kind
  highest : ∀ other, text ∈ languageOf grammar other → other.standing ≤ kind.standing
  nonempty : text ≠ []

/-- A lexeme that begins with a letter is a word. -/
theorem IsLexeme.isWord_eq
    (orderly : grammar.Orderly)
    {kind : TokenKind}
    {first : Char}
    {others : List Char}
    (isLexeme : IsLexeme grammar kind (first :: others)) :
    isWord (first :: others) = first.isAlpha := by
  cases looks_of_mem_languageOf orderly isLexeme.recognized with
  | word letters =>
      rw [letters]
      exact ((isWord_iff.1 letters).2 first List.mem_cons_self).symm
  | numeral _ figures =>
      have figure := figures first List.mem_cons_self
      cases alpha : first.isAlpha with
      | false => simp [isWord, alpha]
      | true =>
          rw [isFigure_eq_false_of_isAlpha alpha] at figure
          cases figure
  | fixed character known same =>
      obtain ⟨rfl, rfl⟩ := List.cons.inj same
      simp [isWord]
  | sign symbol name named wordless mark same =>
      rw [← same] at wordless mark
      have unlettered : first.isAlpha = false := by
        cases alpha : first.isAlpha with
        | false => rfl
        | true => simp [isMark, alpha] at mark
      rw [wordless, unlettered]

/-- What begins with a figure is recognized as a number alone. -/
theorem kind_eq_number_of_isFigure
    (orderly : grammar.Orderly)
    {kind : TokenKind}
    {first : Char}
    {others : List Char}
    (recognized : first :: others ∈ languageOf grammar kind)
    (figure : isFigure first = true) :
    kind = .number := by
  cases looks_of_mem_languageOf orderly recognized with
  | word letters =>
      have alpha := (isWord_iff.1 letters).2 first List.mem_cons_self
      rw [isFigure_eq_false_of_isAlpha alpha] at figure
      cases figure
  | numeral isNumber _ => exact isNumber
  | fixed character known same =>
      obtain ⟨rfl, _⟩ := List.cons.inj same
      rw [(unclassed_of_mem known).1] at figure
      cases figure
  | sign _ _ _ _ mark same =>
      rw [← same] at mark
      simp [isMark, figure] at mark

/-- A word becomes a node of a tree. -/
theorem isContent_of_isWord
    {kind : TokenKind}
    {text : List Char}
    (recognized : text ∈ languageOf grammar kind)
    (word : isWord text = true) :
    Token.isContent ⟨kind, String.ofList text⟩ = true := by
  rcases mem_languageOf_iff.1 recognized with shaped | ⟨_, symbol, rfl, _⟩
  · cases kind with
    | whitespace | comma | openParen | closeParen =>
        obtain rfl : text = _ := shaped
        revert word
        decide
    | number | «variable» | operator _ | function _ => rfl
    | functionEnd | any => exact absurd shaped (Language.notMem_zero text)
  · cases symbol <;> rfl

/-- A word is no number. -/
theorem ne_number_of_isWord
    {kind : TokenKind}
    {text : List Char}
    (recognized : text ∈ languageOf grammar kind)
    (word : isWord text = true) :
    kind ≠ .number := by
  rintro rfl
  obtain ⟨nonempty, letters⟩ := isWord_iff.1 word
  obtain ⟨first, others, rfl⟩ := List.exists_cons_of_ne_nil nonempty
  rcases mem_languageOf_iff.1 recognized with shaped | ⟨_, symbol, same, _⟩
  · have figure := isFigure_of_mem_number shaped first List.mem_cons_self
    rw [isFigure_eq_false_of_isAlpha (letters first List.mem_cons_self)] at figure
    cases figure
  · cases symbol <;> cases same

/-- Some kind stands highest among those of a text that has one. -/
theorem exists_isLexeme
    {kind : TokenKind}
    {text : List Char}
    (recognized : text ∈ languageOf grammar kind)
    (nonempty : text ≠ []) :
    ∃ greatest, IsLexeme grammar greatest text := by
  obtain ⟨greatest, inside, top⟩ := WellFounded.has_min
    (measure fun kind : TokenKind => TokenKind.all.length - kind.standing).wf
    { kind | text ∈ languageOf grammar kind } ⟨kind, recognized⟩
  refine ⟨greatest, inside, ?_, nonempty⟩
  intro other recognizedOther
  have below : other.standing ≤ TokenKind.all.length := List.idxOf_le_length
  have notAbove :
      ¬TokenKind.all.length - other.standing < TokenKind.all.length - greatest.standing :=
    top other recognizedOther
  omega

/-- Such a character has one shape. -/
theorem kind_eq_of_shaped
    {character : Char}
    (known : character ∈ [' ', ',', '(', ')'])
    {kind other : TokenKind}
    (shaped : [character] ∈ shapeOf kind)
    (shapedOther : [character] ∈ shapeOf other) :
    other = kind := by
  have shapes {kind : TokenKind} (shaped : [character] ∈ shapeOf kind) :
      (character, kind) ∈
        [(' ', .whitespace), (',', .comma), ('(', .openParen), (')', .closeParen)] := by
    cases kind with
    | whitespace | comma | openParen | closeParen =>
        obtain ⟨rfl, _⟩ := List.cons.inj (show [character] = [_] from shaped)
        decide
    | number =>
        have figure := isFigure_of_mem_number shaped character List.mem_cons_self
        rw [(unclassed_of_mem known).1] at figure
        cases figure
    | «variable» =>
        have alpha := (isWord_iff.1 (mem_variable_iff.1 shaped)).2 character List.mem_cons_self
        simp only [List.mem_cons, List.not_mem_nil, or_false] at known
        rcases known with rfl | rfl | rfl | rfl <;> exact absurd alpha (by decide)
    | functionEnd | any | operator _ | function _ => exact absurd shaped (Language.notMem_zero _)
  have one := shapes shaped
  have two := shapes shapedOther
  simp only [List.mem_cons, List.not_mem_nil, or_false, Prod.mk.injEq] at known one two
  rcases known with rfl | rfl | rfl | rfl <;> simp_all

/-- A character that is a lexeme in every grammar is read as itself. -/
theorem isLexeme_fixed
    (orderly : grammar.Orderly)
    {character : Char}
    (known : character ∈ [' ', ',', '(', ')'])
    {kind : TokenKind}
    (shaped : [character] ∈ shapeOf kind) :
    IsLexeme grammar kind [character] := by
  refine ⟨Or.inl shaped, ?_, List.cons_ne_nil _ _⟩
  intro other recognized
  rcases mem_languageOf_iff.1 recognized with shapedOther | ⟨_, symbol, rfl, named⟩
  · rw [kind_eq_of_shaped known shaped shapedOther]
  · have letterless : isWord [character] = false := by
      simp only [List.mem_cons, List.not_mem_nil, or_false] at known
      rcases known with rfl | rfl | rfl | rfl <;> decide
    have begins := orderly.starts symbol _ named
    simp [letterless, (unclassed_of_mem known).2] at begins

/-- A name is read as a name of the name space that stands highest among those that have it. -/
theorem isLexeme_name
    (orderly : grammar.Orderly)
    {symbol : Symbol}
    {name : String}
    (named : name ∈ grammar.names symbol)
    (highest : ∀ other, name ∈ grammar.names other →
      (TokenKind.ofSymbol other).standing ≤ (TokenKind.ofSymbol symbol).standing) :
    IsLexeme grammar (.ofSymbol symbol) name.toList := by
  obtain ⟨first, others, same, notFigure, notFixed⟩ : ∃ first others,
      name.toList = first :: others ∧ isFigure first = false ∧
        first ∉ [' ', ',', '(', ')'] := by
    rcases orderly.starts symbol name named with word | mark
    · obtain ⟨nonempty, letters⟩ := isWord_iff.1 word
      obtain ⟨first, others, same⟩ := List.exists_cons_of_ne_nil nonempty
      have alpha := letters first (by simp [same])
      refine ⟨first, others, same, isFigure_eq_false_of_isAlpha alpha, fun known => ?_⟩
      simp only [List.mem_cons, List.not_mem_nil, or_false] at known
      rcases known with rfl | rfl | rfl | rfl <;> exact absurd alpha (by decide)
    · cases same : name.toList with
      | nil => simp [same] at mark
      | cons first others =>
          have marked : isMark first = true := by simpa [same] using mark
          refine ⟨first, others, rfl, ?_, fun known => ?_⟩
          · simp only [isMark, Bool.and_eq_true, Bool.not_eq_true'] at marked
            exact marked.1.2
          · rw [(unclassed_of_mem known).2] at marked
            cases marked
  refine ⟨mem_languageOf_ofSymbol_iff.2 ⟨by simp [same], by rwa [String.ofList_toList]⟩, ?_,
    by simp [same]⟩
  intro other recognized
  rcases mem_languageOf_iff.1 recognized with shaped | ⟨_, otherSymbol, rfl, namedOther⟩
  · cases other with
    | whitespace | comma | «variable» => rcases symbol with (_ | _) | (_ | _) <;> decide
    | openParen | closeParen =>
        obtain ⟨rfl, _⟩ := List.cons.inj (same.symm.trans shaped)
        exact absurd (by decide) notFixed
    | number =>
        have figure := isFigure_of_mem_number shaped first (by simp [same])
        rw [notFigure] at figure
        cases figure
    | functionEnd | any | operator _ | function _ => exact absurd shaped (Language.notMem_zero _)
  · rw [String.ofList_toList] at namedOther
    exact highest otherSymbol namedOther

/-- A word that is no name is a variable. -/
theorem isLexeme_variable
    {text : List Char}
    (word : isWord text = true)
    (free : ∀ symbol, String.ofList text ∉ grammar.names symbol) :
    IsLexeme grammar .variable text := by
  obtain ⟨nonempty, letters⟩ := isWord_iff.1 word
  refine ⟨Or.inl (mem_variable_iff.2 word), ?_, nonempty⟩
  intro other recognized
  rcases mem_languageOf_iff.1 recognized with shaped | ⟨_, symbol, rfl, named⟩
  · cases other with
    | whitespace | comma | «variable» => decide
    | openParen | closeParen =>
        obtain rfl : text = _ := shaped
        exact absurd word (by decide)
    | number => exact absurd rfl (ne_number_of_isWord recognized word)
    | functionEnd | any | operator _ | function _ => exact absurd shaped (Language.notMem_zero _)
  · exact absurd named (free symbol)

/-- What follows a lexeme does not continue it. -/
def Stops (kind : TokenKind) (lexeme rest : List Char) : Prop :=
  ∀ next ∈ rest.head?,
    (isWord lexeme = true → next.isAlpha = false) ∧ (kind = .number → isFigure next = false)

/-- Behind a lexeme that nothing continues no longer one begins. -/
theorem not_mem_languageOf_of_stops
    (orderly : grammar.Orderly)
    {lexeme behind : List Char}
    {next : Char}
    {kind other : TokenKind}
    (recognized : lexeme ∈ languageOf grammar kind)
    (nonempty : lexeme ≠ [])
    (notWord : isWord lexeme = true → next.isAlpha = false)
    (notNumeral : kind = .number → isFigure next = false) :
    lexeme ++ next :: behind ∉ languageOf grammar other := by
  intro longer
  obtain ⟨first, others, rfl⟩ := List.exists_cons_of_ne_nil nonempty
  have nextInside : next ∈ first :: others ++ next :: behind := by simp
  cases looks_of_mem_languageOf orderly longer with
  | word letters =>
      have letters := (isWord_iff.1 letters).2
      have word : isWord (first :: others) = true :=
        isWord_iff.2
          ⟨by simp, fun character member => letters character (List.mem_append_left _ member)⟩
      have alpha := letters next nextInside
      rw [notWord word] at alpha
      cases alpha
  | numeral _ figures =>
      have isNumber := kind_eq_number_of_isFigure orderly recognized (figures first (by simp))
      have continued := figures next nextInside
      rw [notNumeral isNumber] at continued
      cases continued
  | fixed character known same =>
      have lengths := congrArg List.length same
      simp at lengths
  | sign symbol name named wordless mark same =>
      have head : name.toList.head? = some first := by rw [← same]; rfl
      have marked : isMark first = true := by simpa [head] using mark
      cases looks_of_mem_languageOf orderly recognized with
      | word letters =>
          have alpha := (isWord_iff.1 letters).2 first List.mem_cons_self
          simp [isMark, alpha] at marked
      | numeral isNumber figures =>
          have figure := figures first List.mem_cons_self
          simp [isMark, figure] at marked
      | fixed character known only =>
          obtain ⟨rfl, _⟩ := List.cons.inj only
          rw [(unclassed_of_mem known).2] at marked
          cases marked
      | sign symbol shorter namedShorter wordlessShorter _ sameShorter =>
          have sameHead : shorter.toList.head? = name.toList.head? := by
            rw [head, ← sameShorter]
            rfl
          obtain rfl := orderly.unlike _ shorter namedShorter _ name named wordlessShorter sameHead
          have lengths := congrArg List.length (same.trans sameShorter.symm)
          simp at lengths

/-- A lexeme that nothing continues is taken off the front. -/
theorem IsLexeme.takes
    (orderly : grammar.Orderly)
    {lexeme rest : List Char}
    {kind : TokenKind}
    (isLexeme : IsLexeme grammar kind lexeme)
    (stops : Stops kind lexeme rest) :
    (base.load grammar).lexer.Takes TokenKind.byPriority (lexeme ++ rest) lexeme kind := by
  refine (takes_load_iff orderly.distinct).2
    ⟨List.prefix_append _ _, isLexeme.recognized, ?_, isLexeme.highest⟩
  intro longer other starts recognizedLonger
  by_contra longerThan
  obtain ⟨further, rfl⟩ := List.prefix_of_prefix_length_le (List.prefix_append lexeme rest) starts
    (by omega)
  have leads : further <+: rest := (List.prefix_append_right_inj lexeme).1 starts
  cases further with
  | nil => simp at longerThan
  | cons next behind =>
      obtain ⟨left, rfl⟩ := leads
      have apart := stops next (by simp)
      exact not_mem_languageOf_of_stops orderly isLexeme.recognized isLexeme.nonempty apart.1
        apart.2 recognizedLonger

/-- Every piece of a text is a lexeme. -/
theorem isLexeme_of_takes
    (distinct : ∀ symbol, (grammar.names symbol).Nodup)
    {characters lexeme : List Char}
    {kind : TokenKind}
    (takes : (base.load grammar).lexer.Takes TokenKind.byPriority characters lexeme kind)
    (nonempty : lexeme ≠ []) :
    IsLexeme grammar kind lexeme := by
  obtain ⟨_, recognized, _, highest⟩ := recognized_of_takes distinct takes
  exact ⟨recognized, highest, nonempty⟩

end Tokenizer

open Tokenizer

/-! ## Joined tokens -/

namespace Token

/-- Whether a token is written with letters. -/
def isWord (token : Token) : Bool :=
  Reckoner.isWord token.lexeme.toList

/-- The characters of a token where tokens are written in a row; a space follows a comma. -/
def spelling (token : Token) : List Char :=
  if token.kind = .comma then token.lexeme.toList ++ [' '] else token.lexeme.toList

/-- Whether two tokens in a row do not run together. -/
def Apart (first second : Token) : Prop :=
  ¬(first.isWord = true ∧ second.isWord = true)

/-- Whether two tokens in a row are not both numbers. -/
def Unlike (first second : Token) : Prop :=
  ¬(first.kind = .number ∧ second.kind = .number)

instance : DecidableRel Apart := fun _ _ => inferInstanceAs (Decidable (¬_))

instance : DecidableRel Unlike := fun _ _ => inferInstanceAs (Decidable (¬_))

end Token

namespace Tokenizer

variable {grammar : Grammar}

/-- A token that its own lexeme gives back. -/
def IsToken (grammar : Grammar) (token : Token) : Prop :=
  token.kind ≠ .whitespace ∧ IsLexeme grammar token.kind token.lexeme.toList

/-- Whether a name is read as one of a name space. -/
def isNameOf (grammar : Grammar) (symbol : Symbol) (name : String) : Bool :=
  (grammar.names symbol).contains name &&
    Symbol.all.all fun other =>
      !(grammar.names other).contains name ||
        decide ((TokenKind.ofSymbol other).standing ≤ (TokenKind.ofSymbol symbol).standing)

theorem isLexeme_of_isNameOf
    (orderly : grammar.Orderly)
    {symbol : Symbol}
    {name : String}
    (known : isNameOf grammar symbol name = true) :
    IsLexeme grammar (.ofSymbol symbol) name.toList := by
  obtain ⟨named, highest⟩ := Bool.and_eq_true_iff.1 known
  refine isLexeme_name orderly (List.contains_iff_mem.1 named) fun other namedOther => ?_
  have below := List.all_eq_true.1 highest other other.mem_all
  simpa [namedOther] using below

/-- No name begins with a figure, so that every numeral is a number. -/
theorem isToken_number
    (orderly : grammar.Orderly)
    {text : String}
    (numeral : text.toList ∈ shapeOf .number)
    (nonempty : text.toList ≠ []) :
    IsToken grammar ⟨.number, text⟩ := by
  refine ⟨by simp, ?_⟩
  obtain ⟨kind, isLexeme⟩ := exists_isLexeme (mem_languageOf_iff.2 (Or.inl numeral)) nonempty
  obtain ⟨first, others, same⟩ := List.exists_cons_of_ne_nil nonempty
  have figure := isFigure_of_mem_number numeral first (by simp [same])
  have isNumber : kind = .number :=
    kind_eq_number_of_isFigure orderly (same ▸ isLexeme.recognized) figure
  exact isNumber ▸ isLexeme

/-- Whether a token is a name, a variable or a parenthesis that its lexeme gives back. -/
def isKnown (grammar : Grammar) (token : Token) : Bool :=
  match token.kind with
  | .operator mode => isNameOf grammar (.operator mode) token.lexeme
  | .function mode => isNameOf grammar (.function mode) token.lexeme
  | .variable =>
      isWord token.lexeme.toList &&
        Symbol.all.all fun symbol => !(grammar.names symbol).contains token.lexeme
  | .openParen => token.lexeme == "("
  | .closeParen => token.lexeme == ")"
  | _ => false

/-- In an orderly grammar what is known is a token. -/
theorem isToken_of_isKnown
    (orderly : grammar.Orderly)
    {token : Token}
    (known : isKnown grammar token = true) :
    IsToken grammar token := by
  obtain ⟨kind, lexeme⟩ := token
  cases kind with
  | operator mode => exact ⟨by simp, isLexeme_of_isNameOf orderly known⟩
  | function mode => exact ⟨by simp, isLexeme_of_isNameOf orderly known⟩
  | «variable» =>
      obtain ⟨word, free⟩ := Bool.and_eq_true_iff.1 known
      refine ⟨by simp, isLexeme_variable word fun symbol named => ?_⟩
      rw [String.ofList_toList] at named
      have absent := List.all_eq_true.1 free symbol symbol.mem_all
      simp [named] at absent
  | openParen | closeParen =>
      obtain rfl := eq_of_beq known
      exact ⟨by decide, isLexeme_fixed orderly (by decide) rfl⟩
  | functionEnd | any | whitespace | comma | number => cases known

/-- The characters of a token begin as its lexeme does. -/
theorem IsToken.exists_spelling
    {token : Token}
    (isToken : IsToken grammar token)
    (rest : List Char) :
    ∃ first others behind, token.lexeme.toList = first :: others ∧
      token.spelling ++ rest = first :: behind := by
  obtain ⟨first, others, same⟩ := List.exists_cons_of_ne_nil isToken.2.nonempty
  refine ⟨first, others, ?_⟩
  unfold Token.spelling
  split
  next => exact ⟨_, same, by rw [same]; rfl⟩
  next => exact ⟨_, same, by rw [same]; rfl⟩

/-- A word is a node of a tree and written as it is. -/
theorem IsToken.spelling_eq
    {token : Token}
    (isToken : IsToken grammar token)
    (word : token.isWord = true) :
    token.isContent = true ∧ token.spelling = token.lexeme.toList := by
  have content := isContent_of_isWord isToken.2.recognized word
  rw [String.ofList_toList] at content
  refine ⟨content, if_neg ?_⟩
  intro comma
  simp [Token.isContent, comma] at content

theorem tokensOf_cons
    {kind : TokenKind}
    (visible : kind ≠ .whitespace)
    (text : List Char)
    (pieces : List (List Char × TokenKind)) :
    tokensOf ((text, kind) :: pieces) = ⟨kind, String.ofList text⟩ :: tokensOf pieces := by
  simp [tokensOf, visible]

/-- A word counts as one token that becomes a node. -/
theorem countP_tokensOf_cons
    {kind : TokenKind}
    {text : List Char}
    (recognized : text ∈ languageOf grammar kind)
    (word : isWord text = true)
    (pieces : List (List Char × TokenKind)) :
    (tokensOf ((text, kind) :: pieces)).countP Token.isContent =
      (tokensOf pieces).countP Token.isContent + 1 := by
  have content := isContent_of_isWord recognized word
  have visible : kind ≠ .whitespace := by
    rintro rfl
    cases content
  rw [tokensOf_cons visible, List.countP_cons_of_pos content]

/-- A token that nothing continues is cut off the front. -/
theorem exists_cuts_cons
    (orderly : grammar.Orderly)
    {token : Token}
    {rest : List Char}
    {pieces : List (List Char × TokenKind)}
    (isToken : IsToken grammar token)
    (stops : Stops token.kind token.lexeme.toList rest)
    (cuts : (base.load grammar).lexer.Cuts TokenKind.byPriority rest pieces) :
    ∃ more, (base.load grammar).lexer.Cuts TokenKind.byPriority (token.spelling ++ rest) more ∧
      tokensOf more = token :: tokensOf pieces := by
  obtain ⟨visible, isLexeme⟩ := isToken
  have same : (⟨token.kind, String.ofList token.lexeme.toList⟩ : Token) = token := by
    rw [String.ofList_toList]
  unfold Token.spelling
  split
  next comma =>
    have space : IsLexeme grammar .whitespace [' '] := isLexeme_fixed orderly (by decide) rfl
    have spaceStops : Stops .whitespace [' '] rest :=
      fun _ _ => ⟨fun word => absurd word (by decide), fun number => by cases number⟩
    have commaStops : Stops token.kind token.lexeme.toList (' ' :: rest) := by
      intro next leads
      obtain rfl := Option.some.inj leads
      exact ⟨fun _ => by decide, fun _ => by decide⟩
    refine ⟨(token.lexeme.toList, token.kind) :: ([' '], .whitespace) :: pieces, ?_, ?_⟩
    · rw [List.append_assoc]
      exact .cons (isLexeme.takes orderly commaStops) isLexeme.nonempty
        (.cons (space.takes orderly spaceStops) space.nonempty cuts)
    · rw [tokensOf_cons visible, same]
      rfl
  next =>
    refine ⟨(token.lexeme.toList, token.kind) :: pieces, ?_, ?_⟩
    · exact .cons (isLexeme.takes orderly stops) isLexeme.nonempty cuts
    · rw [tokensOf_cons visible, same]

/-- A word in front of a word is cut off together with it. -/
theorem exists_cuts_merge
    (orderly : grammar.Orderly)
    {word : List Char}
    {first : Char}
    {rest : List Char}
    {pieces : List (List Char × TokenKind)}
    (letters : isWord word = true)
    (alpha : first.isAlpha = true)
    (cuts : (base.load grammar).lexer.Cuts TokenKind.byPriority (first :: rest) pieces) :
    ∃ merged, (base.load grammar).lexer.Cuts TokenKind.byPriority (word ++ first :: rest) merged ∧
      (tokensOf merged).countP Token.isContent = (tokensOf pieces).countP Token.isContent := by
  generalize whole : first :: rest = characters at cuts ⊢
  cases cuts with
  | nil => cases whole
  | @cons lexeme left kind others takes nonempty cutsLeft =>
      obtain ⟨_, recognized, longest, highest⟩ := recognized_of_takes orderly.distinct takes
      obtain ⟨head, tail, rfl⟩ := List.exists_cons_of_ne_nil nonempty
      obtain ⟨rfl, rfl⟩ := List.cons.inj whole
      have isLexeme : IsLexeme grammar kind (first :: tail) := ⟨recognized, highest, nonempty⟩
      have lettersNext : isWord (first :: tail) = true := by rw [isLexeme.isWord_eq orderly, alpha]
      have joined := isWord_append letters lettersNext
      have isVariable : word ++ first :: tail ∈ languageOf grammar .variable :=
        Or.inl (mem_variable_iff.2 joined)
      obtain ⟨greatest, isLexemeJoined⟩ := exists_isLexeme isVariable (by simp)
      have stops : Stops greatest (word ++ first :: tail) left := by
        intro next leads
        obtain ⟨behind, rfl⟩ : ∃ behind, left = next :: behind := List.head?_eq_some_iff.1 leads
        have notAlpha : next.isAlpha = false := by
          by_contra isAlpha
          have longer : isWord (first :: tail ++ [next]) = true :=
            isWord_append lettersNext (by simpa [isWord] using isAlpha)
          have bound := longest (first :: tail ++ [next]) .variable ⟨behind, by simp⟩
            (Or.inl (mem_variable_iff.2 longer))
          simp at bound
        exact ⟨fun _ => notAlpha, fun isNumber =>
          absurd isNumber (ne_number_of_isWord isLexemeJoined.recognized joined)⟩
      refine ⟨(word ++ first :: tail, greatest) :: others, ?_, ?_⟩
      · have cut := Lexer.Cuts.cons (isLexemeJoined.takes orderly stops) (by simp) cutsLeft
        simpa using cut
      · rw [countP_tokensOf_cons isLexemeJoined.recognized joined,
          countP_tokensOf_cons recognized lettersNext]

/-- Tokens in a row are cut apart where they were joined if no two words stand next to each other,
and into fewer pieces otherwise. -/
theorem exists_cuts_spelling
    (orderly : grammar.Orderly)
    {tokens : List Token}
    (areTokens : ∀ token ∈ tokens, IsToken grammar token)
    (unlike : tokens.IsChain Token.Unlike) :
    ∃ pieces, (base.load grammar).lexer.Cuts TokenKind.byPriority
        (tokens.flatMap Token.spelling) pieces ∧
      ((tokens.IsChain Token.Apart ∧ tokensOf pieces = tokens) ∨
        (¬tokens.IsChain Token.Apart ∧
          (tokensOf pieces).countP Token.isContent < tokens.countP Token.isContent)) := by
  induction tokens with
  | nil => exact ⟨[], .nil, Or.inl ⟨.nil, rfl⟩⟩
  | cons token rest hypothesis =>
      have isToken := areTokens token List.mem_cons_self
      obtain ⟨pieces, cuts, outcome⟩ := hypothesis
        (fun other member => areTokens other (List.mem_cons_of_mem _ member)) unlike.tail
      cases rest with
      | nil =>
          obtain ⟨more, cutsMore, same⟩ := exists_cuts_cons orderly isToken
            (fun _ none => by cases none) cuts
          rcases outcome with ⟨_, sameRest⟩ | ⟨runs, _⟩
          · exact ⟨more, cutsMore, Or.inl ⟨.singleton token, by rw [same, sameRest]⟩⟩
          · exact absurd .nil runs
      | cons next others =>
          have isNext := areTokens next (by simp)
          obtain ⟨first, tail, behind, lexeme, starts⟩ :=
            isNext.exists_spelling (others.flatMap Token.spelling)
          have isLexeme : IsLexeme grammar next.kind (first :: tail) := lexeme ▸ isNext.2
          have begins : next.isWord = first.isAlpha := by
            rw [Token.isWord, lexeme, isLexeme.isWord_eq orderly]
          rw [List.flatMap_cons, starts] at cuts
          rw [List.isChain_cons_cons, List.flatMap_cons, List.flatMap_cons, starts]
          by_cases words : token.isWord = true ∧ next.isWord = true
          -- two words in a row are read as one
          · obtain ⟨content, written⟩ := isToken.spelling_eq words.1
            obtain ⟨merged, cutsMerged, same⟩ := exists_cuts_merge orderly words.1
              (begins.symm.trans words.2) cuts
            refine ⟨merged, written ▸ cutsMerged, Or.inr ⟨fun apart => apart.1 words, ?_⟩⟩
            rw [same, List.countP_cons_of_pos content]
            rcases outcome with ⟨_, sameRest⟩ | ⟨_, fewer⟩
            · rw [sameRest]
              omega
            · omega
          -- the next token does not continue this one, which is taken off the front
          · have stops : Stops token.kind token.lexeme.toList (first :: behind) := by
              intro character leads
              obtain rfl := Option.some.inj leads
              constructor
              · intro word
                rw [← begins]
                exact Bool.eq_false_iff.2 fun nextWord => words ⟨word, nextWord⟩
              · intro isNumber
                refine Bool.eq_false_iff.2 fun figure => ?_
                exact (List.isChain_cons_cons.1 unlike).1
                  ⟨isNumber, kind_eq_number_of_isFigure orderly isLexeme.recognized figure⟩
            obtain ⟨more, cutsMore, same⟩ := exists_cuts_cons orderly isToken stops cuts
            refine ⟨more, cutsMore, ?_⟩
            rw [same, List.countP_cons, List.countP_cons]
            rcases outcome with ⟨apart, sameRest⟩ | ⟨runs, fewer⟩
            · exact Or.inl ⟨⟨words, apart⟩, by rw [sameRest]⟩
            · exact Or.inr ⟨fun apart => runs apart.2, by omega⟩

end Tokenizer
end Reckoner
