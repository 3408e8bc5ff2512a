import Reckoner.Proofs.Evaluation.Invariance
import Reckoner.Proofs.Expr.Numbers

/-!
# Numbers are read

A reduction reads the numbers of an expression and of the definitions that it comes by.  If all
of these are literals, then reading them never fails.  So an evaluation reports a text that is no
number only if what is registered does so on its own account.
-/

namespace Reckoner

open Run

/-- A failure other than that a text is no number. -/
def Failure.SparesLiterals (failure : Failure) : Prop :=
  ∀ text, failure ≠ .invalidNumber text

/-- The definitions are expressions whose numbers are literals. -/
def Context.IsReadable (context : Context) : Prop :=
  ∀ name tree, context.definitions.find? name = some tree → tree.IsReadable

/-- The caches are in order, and the numbers of the definitions are literals. -/
def Evaluation.Reads (sound : Caches → Prop) (evaluation : Evaluation) : Prop :=
  sound evaluation.machine.caches ∧ evaluation.context.IsReadable

theorem Expr.IsReadable.operand
    {tree operand : Expr}
    (readable : tree.IsReadable)
    (member : operand ∈ tree.operands) :
    operand.IsReadable := by
  refine fun lexeme isLeaf => readable lexeme ?_
  cases tree with
  | number text => cases member
  | «variable» name => cases member
  | binary mode operator left right =>
      simp only [operands, List.mem_cons, List.not_mem_nil, or_false] at member
      rcases member with rfl | rfl
      · exact List.mem_append_left _ isLeaf
      · exact List.mem_append_right _ isLeaf
  | unary mode operator fixity inner =>
      obtain rfl := List.mem_singleton.1 member
      exact isLeaf
  | call mode name arguments => exact mem_leavesAll_iff.2 ⟨operand, member, isLeaf⟩

namespace Registry

/-- A function of numbers that keeps the caches in order and reads no text that is no number. -/
def ReadsNumbers (registry : Registry) (sound : Caches → Prop) (function : NumberFunction) : Prop :=
  ∀ kind numbers arguments, registry.promotions.promote numbers = .ok arguments →
    function.admits arguments = true → ∀ context,
      (function.apply (registry.libraryIn kind context) arguments).Preserves
        (fun machine => sound machine.caches) Failure.SparesLiterals

/-- A function of unreduced expressions that reads no text that is no number, and gives no
definition with one, if all numbers of its operands are literals and reductions do not do so. -/
def ReadsTrees (sound : Caches → Prop) (function : TreeFunction) : Prop :=
  ∀ (reducer : Reducer) (trees : List Expr), function.admits trees = true →
    (∀ tree ∈ trees, tree.IsReadable) →
    (∀ tree : Expr, tree.IsReadable →
      (reducer.reduce tree).Preserves (Evaluation.Reads sound) Failure.SparesLiterals) →
        (function.apply reducer trees).Preserves (Evaluation.Reads sound) Failure.SparesLiterals

/-- Whatever is registered reports no text that is no number on its own account. -/
structure ReadsLiterals (registry : Registry) (sound : Caches → Prop) : Prop where
  contains : registry.Contains (registry.ReadsNumbers sound) (ReadsTrees sound)
  conversions : ∀ source target convert number failure,
    registry.promotions.path? source target = some convert →
      convert number = .error failure → failure.SparesLiterals

variable {registry : Registry} {sound : Caches → Prop}

theorem sparesLiterals_of_category
    {failure : Failure}
    (other : failure.category ≠ .domain) :
    failure.SparesLiterals := by
  rintro text rfl
  exact other rfl

theorem reads_calculate
    {α : Type}
    {calculation : Calc α}
    (preserves : calculation.Preserves (fun machine => sound machine.caches)
      Failure.SparesLiterals) :
    (Eval.calculate calculation).Preserves (Evaluation.Reads sound) Failure.SparesLiterals :=
  Ensures.within preserves (fun _ held => held.1) fun _ _ after held => ⟨after, held.2⟩

theorem reads_check :
    Calc.check.Preserves (fun machine => sound machine.caches) Failure.SparesLiterals := by
  intro limit machine held
  rw [Calc.check_eq]
  refine ⟨held, fun _ _ => trivial, fun failure stops => ?_⟩
  split at stops
  next =>
    obtain rfl : Failure.cancelled = failure := by simpa using stops
    exact sparesLiterals_of_category (by decide)
  next => cases stops

theorem ReadsLiterals.withCaches
    (reads : registry.ReadsLiterals sound)
    (caches : Caches) :
    ({ registry with caches } : Registry).ReadsLiterals sound where
  contains := reads.contains.withCaches caches
  conversions := reads.conversions

theorem ReadsLiterals.promotes
    (reads : registry.ReadsLiterals sound)
    {failure : Failure}
    (reports : registry.promotions.Reports failure) :
    failure.SparesLiterals := by
  rcases reports with promotion | ⟨source, target, convert, number, known, fails⟩
  · exact sparesLiterals_of_category (by rw [promotion]; decide)
  · exact reads.conversions source target convert number failure known fails

/-- Where all numbers are literals, reductions report no text that is no number. -/
theorem ReadsLiterals.invariant (reads : registry.ReadsLiterals sound) :
    registry.Invariant Expr.IsReadable (Evaluation.Reads sound) Failure.SparesLiterals where
  check := reads_calculate reads_check
  expands _ _ held := held
  operands _ _ readable member := readable.operand member
  definitions _ name tree held defined := held.2 name tree defined
  kinds context failure unknown :=
    sparesLiterals_of_category (by rw [category_of_kindOf unknown]; decide)
  literals kind text failure readable fails := by
    obtain ⟨number, parses⟩ :=
      Number.exists_parse_iff.2 (readable text (List.mem_singleton.2 rfl))
    rw [parses] at fails
    cases fails
  names _ := ⟨fun _ same => (by cases same), fun _ same => (by cases same)⟩
  expects tree failure _ fails :=
    sparesLiterals_of_category (by rw [category_of_expect fails]; decide)
  heads kind tree values _ := by
    rcases reads.contains.applyHead_cases kind tree with ⟨name, function, applies, same⟩ |
      ⟨failure, reduction, same⟩ | same
    · rw [same]
      exact preserves_applyToNumbers (fun _ => reads.promotes) (by simp [Failure.SparesLiterals,
        Failure.badArguments]) (fun arguments promoted admitted context =>
          reads_calculate (applies kind values arguments promoted admitted context)) name
    · exact same values ▸ preserves_fail (sparesLiterals_of_category (by rw [reduction]; decide))
    · exact same values ▸ preserves_goOn
  handOver reducer tree readable _ reduces := by
    rcases reads.contains.handOver_cases tree with ⟨name, function, applies, same⟩ |
      ⟨failure, reduction, same⟩ | same
    · rw [same, applyToTrees]
      split
      next admitted =>
        exact applies reducer tree.operands admitted
          (fun _ member => readable.operand member) reduces
      next => exact preserves_fail (by simp [Failure.SparesLiterals, Failure.badArguments])
    · exact same reducer ▸ preserves_fail (sparesLiterals_of_category (by rw [reduction]; decide))
    · exact same reducer ▸ preserves_goOn

/-- An evaluation of an expression whose numbers are literals, against definitions of the same sort,
reports no text that is no number, and what it leaves behind is of the same sort again. -/
theorem ReadsLiterals.evaluate
    (reads : registry.ReadsLiterals sound)
    (held : sound registry.caches)
    {context : Context}
    {tree : Expr}
    (defined : context.IsReadable)
    (readable : tree.IsReadable)
    (limit : Nat)
    (cancellation : Cancellation) :
    (∀ text, (Reckoner.evaluate limit registry context tree cancellation).result ≠
        .error (.failed (.invalidNumber text))) ∧
      sound (Reckoner.evaluate limit registry context tree cancellation).machine.caches ∧
      ∀ done, (Reckoner.evaluate limit registry context tree cancellation).result = .ok done →
        done.context.IsReadable := by
  obtain ⟨final, after, machine, same, spares⟩ :=
    reads.invariant.ends limit context cancellation readable ⟨held, defined⟩
  refine ⟨fun text fails => spares _ fails text rfl, machine ▸ after.1, fun done succeeds => ?_⟩
  exact same done succeeds ▸ after.2

end Registry
end Reckoner
