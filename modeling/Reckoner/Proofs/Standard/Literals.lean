import Reckoner.Proofs.Evaluation.Lookup
import Reckoner.Proofs.Evaluation.Readability
import Reckoner.Proofs.Standard.Rereading
import Reckoner.Proofs.Standard.UniformRegistry

/-!
# Literals are read

What a reader takes for a number, whatever grammars it has learnt, is a literal to the reader of
numbers as well, so that no evaluation of an expression that has been read fails on its numbers.
The standard operators and functions read no texts of their own.
-/

namespace Reckoner

open Run Registry

namespace Standard

/-- A function of numbers that stays in the representation of its arguments reads no text. -/
theorem readsNumbers_of_uniform
    {function : NumberFunction}
    (uniform : registry.UniformNumbers function) :
    registry.ReadsNumbers Caches.OfKinds function := by
  intro kind numbers arguments promoted admitted context
  have present : numbers ≠ [] := by
    rintro rfl
    obtain rfl : [] = arguments := Except.ok.inj promoted
    rw [uniform.1] at admitted
    cases admitted
  have fine : OfKind (Number.widest numbers) (registry.promotions.promote numbers) :=
    ofKind_promote present
  rw [promoted] at fine
  have stays := uniform.2 kind context (Number.widest numbers) arguments fine
  exact (stays.mono fun _ _ => trivial).excuse fun _ inside => inside.2

theorem readsTrees_assign : ReadsTrees Caches.OfKinds assign := by
  intro reducer trees admitted readable reduces
  obtain ⟨name, tree, rfl⟩ := isAssignment_iff.1 admitted
  refine Preserves.bind (reduces tree (readable tree (by simp))) fun value => ?_
  exact Preserves.bind (preserves_change fun _ held => held) fun _ => preserves_pure value

theorem readsTrees_define : ReadsTrees Caches.OfKinds define := by
  intro reducer trees admitted readable reduces
  obtain ⟨name, tree, rfl⟩ := isAssignment_iff.1 admitted
  have isReadable := readable tree (by simp)
  refine Preserves.bind (preserves_change fun evaluation held => ⟨held.1, ?_⟩) fun _ =>
    reduces tree isReadable
  intro other body defined
  change (evaluation.context.setDefinition name tree).definitions.find? other = some body at defined
  rw [Context.setDefinition, Table.find?_insert] at defined
  split at defined
  next => exact Option.some.inj defined ▸ isReadable
  next => exact held.2 other body defined

theorem readsLiterals_registry : registry.ReadsLiterals Caches.OfKinds where
  contains := by
    refine (contains_enable contains_empty ?_ ?_ ?_).rebuildPromotions
    · exact fun entry member => readsNumbers_of_uniform (uniform_operators entry member)
    · simpa [treeOperators] using ⟨readsTrees_assign, readsTrees_define⟩
    · exact fun entry member => readsNumbers_of_uniform (uniform_functions entry member)
  conversions source target convert number failure known fails := by
    have internal := ofKind_toPrecise number
    rw [← eq_toPrecise_of_path? known, fails] at internal
    exact internal.2

end Standard

/-- The texts that are read as precise numbers are digits with at most one point, perhaps behind
a minus sign, and the numbers are exactly what they denote.  Whatever grammars a reader has
learnt and forgotten, every number of an expression that it reads is read in both
representations.  So the evaluation of the expression, against definitions of the same sort,
never fails with a text that is no number, and leaves such definitions behind: with the standard
registry, and with any other one in which nothing fails so on its own account. -/
theorem Reader.Loaded.reads_literals {reader : Reader} (loaded : reader.Loaded) :
    (∀ text : String,
      ((∃ number, Number.parse .precise text = .ok number) ↔
        ∃ value, Literal.Denotes text.toList value) ∧
      ∀ value, Literal.Denotes text.toList value ↔
        ∃ decimal, Number.parse .precise text = .ok (.precise decimal) ∧ decimal.value = value) ∧
    ∀ text tree, reader.parse text = .ok tree →
      (∀ lexeme, .number lexeme ∈ tree.leaves →
        ∀ kind, ∃ number, Number.parse kind lexeme = .ok number) ∧
      ∀ context : Context, context.IsReadable → ∀ limit cancellation,
        (∀ caches, Standard.Fills caches →
          let ending := evaluate limit { Standard.registry with caches } context tree cancellation
          (∀ lexeme, ending.result ≠ .error (.failed (.invalidNumber lexeme))) ∧
            ∀ done, ending.result = .ok done → done.context.IsReadable) ∧
        ∀ (registry : Registry) (sound : Caches → Prop),
          registry.ReadsLiterals sound → sound registry.caches →
            let ending := evaluate limit registry context tree cancellation
            (∀ lexeme, ending.result ≠ .error (.failed (.invalidNumber lexeme))) ∧
              ∀ done, ending.result = .ok done → done.context.IsReadable := by
  refine ⟨fun text => ⟨Number.exists_parse_iff, fun _ => Number.denotes_iff_parse_precise⟩, ?_⟩
  intro text tree parses
  have readable := loaded.isReadable parses
  refine ⟨fun lexeme isLeaf kind => Number.exists_parse_iff.2 (readable lexeme isLeaf), ?_⟩
  intro context defined limit cancellation
  constructor
  · intro caches fills
    obtain ⟨spares, _, leaves⟩ := (Standard.readsLiterals_registry.withCaches caches).evaluate
      fills.ofKinds defined readable limit cancellation
    exact ⟨spares, leaves⟩
  · intro registry sound reads held
    obtain ⟨spares, _, leaves⟩ := reads.evaluate held defined readable limit cancellation
    exact ⟨spares, leaves⟩

/-- A fraction needs no digits in front of its point.  A sign belongs to a literal, and is an
operator in an expression. -/
theorem Reader.reads_literals_fraction :
    Standard.reader.Loaded ∧
      Literal.Denotes "-.5".toList (-(1 / 2)) ∧
      (∃ decimal, Number.parse .precise "-.5" = .ok (.precise decimal) ∧
        decimal.value = -(1 / 2)) ∧
      Standard.reader.parse "-.5+d" = .ok (.binary .value "+"
        (.unary .value "`" .before (.number ".5")) (.variable "d")) ∧
      (∀ kind, ∃ number, Number.parse kind ".5" = .ok number) ∧
      Standard.mixed.IsReadable ∧
      ∀ lexeme, (evaluate 10 { Standard.registry with caches := .empty } Standard.mixed
          (.binary .value "+" (.unary .value "`" .before (.number ".5")) (.variable "d"))
          .never).result ≠ .error (.failed (.invalidNumber lexeme)) := by
  have loaded : Standard.reader.Loaded := .load .base _
  have denotes : Literal.Denotes "-.5".toList (-(1 / 2)) :=
    Literal.denotes_iff.2
      ⟨⟨true, 5, 1⟩, by decide, by norm_num [Literal.toDecimal, Decimal.value_mk]⟩
  have numeral : ".5".toList ∈ Tokenizer.shapeOf .number :=
    Language.mem_mul.2 ⟨[], Language.nil_mem_kstar _, ".5".toList, .inr (Language.mem_mul.2
      ⟨['.'], rfl, ['5'], Language.mem_mul.2 ⟨['5'], ⟨'5', by decide, by decide, rfl⟩, [],
        Language.nil_mem_kstar _, rfl⟩, rfl⟩), rfl⟩
  have parses : Standard.reader.parse "-.5+d" = .ok (.binary .value "+"
      (.unary .value "`" .before (.number ".5")) (.variable "d")) := by
    have areTokens : ∀ token ∈ ([⟨.operator .value, "-"⟩, ⟨.number, ".5"⟩, ⟨.operator .value, "+"⟩,
        ⟨.variable, "d"⟩] : List Token), Tokenizer.IsToken Standard.grammar token := by
      simp only [List.forall_mem_cons, List.not_mem_nil, false_implies, implies_true, and_true]
      exact ⟨Tokenizer.isToken_of_isKnown Standard.orderly (by decide),
        Tokenizer.isToken_number Standard.orderly numeral (by decide),
        Tokenizer.isToken_of_isKnown Standard.orderly (by decide),
        Tokenizer.isToken_of_isKnown Standard.orderly (by decide)⟩
    refine (Reader.parse_eq_of_spelling Standard.orderly areTokens (by decide) (by decide)
      (by decide)).trans ?_
    have fits : Expr.Fits Standard.precedences (.binary .value "+"
        (.unary .value "`" .before (.number ".5")) (.variable "d")) :=
      ⟨by decide, ⟨by decide, by decide, trivial⟩, trivial⟩
    exact Precedences.parse_eq_ok_iff.2 ⟨_, rfl, fits, rfl⟩
  have readable : Standard.mixed.IsReadable := by
    intro name tree defined lexeme isLeaf
    rw [Standard.mixed, Context.setDefinition, Table.find?_insert] at defined
    split at defined
    next =>
      obtain rfl := Option.some.inj defined
      obtain rfl : lexeme = "2" := by simpa [Expr.leaves] using isLeaf
      exact ⟨2, Literal.denotes_iff.2 ⟨⟨false, 2, 0⟩, by decide,
        by norm_num [Literal.toDecimal, Decimal.value_mk]⟩⟩
    next => cases defined
  obtain ⟨reads, evaluates⟩ := Reader.Loaded.reads_literals loaded
  obtain ⟨numbers, spares⟩ := evaluates _ _ parses
  refine ⟨loaded, denotes, ((reads "-.5").2 _).1 denotes, parses,
    numbers ".5" (by decide), readable,
    ((spares _ readable 10 .never).1 .empty .empty).1⟩

end Reckoner
