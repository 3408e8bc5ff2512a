import Reckoner.Proofs.Evaluation.UniformReduction
import Reckoner.Proofs.Standard.Representation
import Reckoner.Proofs.Standard.SteadyRegistry

/-!
# The standard registry keeps representations apart

Of the two standard implementations the precise one has the higher priority, and the other one
converts into it.  So operands can always be brought to one representation, and the standard
operators and functions stay in it.
-/

namespace Reckoner

open Run Calc Registry

namespace Standard

/-! ## Promotion -/

/-- The priority of a kind of numbers. -/
def priorityOf : NumberKind → Int
  | .fast => 0
  | .precise => 1

theorem priority?_registry (kind : NumberKind) :
    registry.promotions.priority? kind = some (priorityOf kind) := by
  cases kind <;> rfl

/-- Of two representations the standard registry takes the wider one. -/
theorem consider_registry (kind : NumberKind) (number : Number) :
    registry.promotions.consider (some (priorityOf kind, kind)) number =
      .ok (some (priorityOf (kind.wider number.kind), kind.wider number.kind)) := by
  rw [Promotions.consider, priority?_registry]
  cases kind <;> cases number <;> rfl

/-- The best representation so far is the highest one of the numbers so far. -/
theorem foldlM_consider_registry (kind : NumberKind) (numbers : List Number) :
    numbers.foldlM registry.promotions.consider (some (priorityOf kind, kind)) =
      .ok (some (priorityOf (kind.wider (Number.widest numbers)),
        kind.wider (Number.widest numbers))) := by
  induction numbers generalizing kind with
  | nil => cases kind <;> rfl
  | cons number numbers hypothesis =>
      rw [List.foldlM_cons, consider_registry, Number.widest_cons, ← NumberKind.wider_assoc]
      exact hypothesis (kind.wider number.kind)

/-- Numbers are brought to the highest representation among them. -/
theorem target_registry {numbers : List Number} (present : numbers ≠ []) :
    registry.promotions.target numbers = .ok (some (Number.widest numbers)) := by
  cases numbers with
  | nil => exact absurd rfl present
  | cons number numbers =>
      have first : registry.promotions.consider none number =
          .ok (some (priorityOf number.kind, number.kind)) := by
        rw [Promotions.consider, priority?_registry]
      rw [Promotions.target, List.foldlM_cons, first]
      exact congrArg (Except.map (Option.map Prod.snd))
        (foldlM_consider_registry number.kind numbers)

/-- The only conversion is that of fast numbers into precise ones. -/
theorem eq_toPrecise_of_path?
    {source target : NumberKind}
    {convert : Conversion}
    (found : registry.promotions.path? source target = some convert) :
    convert = toPrecise := by
  have known : registry.promotions.path? source target =
      if source = .fast ∧ target = .precise then some toPrecise else none := by
    cases source <;> cases target <;> rfl
  rw [known] at found
  split at found
  next => exact (Option.some.inj found).symm
  next => cases found

theorem ofKind_promoteTo
    {number : Number}
    {kind : NumberKind}
    (below : number.kind = kind ∨ kind = .precise) :
    OfKind kind (registry.promotions.promoteTo number kind) := by
  unfold Promotions.promoteTo
  split
  next same => exact same
  next different =>
    obtain rfl := below.resolve_left different
    cases number with
    | fast value => exact ofKind_toPrecise (.fast value)
    | precise value => exact absurd rfl different

/-- The standard registry promotes to the widest representation. -/
theorem ofKind_promote {numbers : List Number} (present : numbers ≠ []) :
    OfKind (Number.widest numbers) (registry.promotions.promote numbers) := by
  rw [Promotions.promote, target_registry present]
  refine ofKind_mapM fun number member => ofKind_promoteTo ?_
  cases kind : number.kind with
  | fast => cases Number.widest numbers <;> simp
  | precise => exact Or.inr (Number.widest_eq_precise_iff.2 ⟨number, member, kind⟩)

/-! ## Operators and functions -/

theorem uniformNumbers_unary
    {apply : Library → Number → Calc Number}
    (stays : ∀ literals context kind argument, argument.kind = kind →
      StaysIn kind (apply (registry.libraryIn literals context) argument))
    (name : String)
    (admits : Number → Bool) :
    registry.UniformNumbers (.unary name admits apply) := by
  refine ⟨rfl, fun literals context kind arguments fine => ?_⟩
  match arguments with
  | [argument] => exact stays literals context kind argument (fine argument List.mem_cons_self)
  | [] | _ :: _ :: _ => exact staysIn_fail (Failure.isInternal_badArguments _)

theorem uniformNumbers_binary
    {apply : Library → Number → Number → Calc Number}
    (stays : ∀ literals context kind first second, first.kind = kind → second.kind = kind →
      StaysIn kind (apply (registry.libraryIn literals context) first second))
    (name : String)
    (admits : Number → Number → Bool) :
    registry.UniformNumbers (.binary name admits apply) := by
  refine ⟨rfl, fun literals context kind arguments fine => ?_⟩
  match arguments with
  | [first, second] =>
      exact stays literals context kind first second (fine first List.mem_cons_self)
        (fine second (by simp))
  | [] | [_] | _ :: _ :: _ :: _ => exact staysIn_fail (Failure.isInternal_badArguments _)

theorem uniformTrees_assign : UniformTrees assign := by
  intro holds reducer trees admitted blind reduces
  obtain ⟨name, tree, rfl⟩ := isAssignment_iff.1 admitted
  refine Preserves.bind (reduces tree) fun value => ?_
  refine Preserves.bind (preserves_change fun evaluation held => blind evaluation _ held)
    fun _ => ?_
  exact preserves_pure value

theorem uniformTrees_define : UniformTrees define := by
  intro holds reducer trees admitted blind reduces
  obtain ⟨name, tree, rfl⟩ := isAssignment_iff.1 admitted
  refine Preserves.bind (preserves_change fun evaluation held => blind evaluation _ held)
    fun _ => ?_
  exact reduces tree

theorem uniform_operators : ∀ entry ∈ operators, registry.UniformNumbers entry.2.2 := by
  simp only [operators, List.forall_mem_cons, List.not_mem_nil, false_implies, implies_true,
    and_true]
  refine ⟨?sum, ?difference, ?negation, ?product, ?quotient, ?power, ?factorial, ?permutations,
    ?combinations⟩
  case sum =>
    exact uniformNumbers_binary
      (fun _ _ _ _ _ same other => staysIn_lift (Number.ofKind_add same other)) _ _
  case difference =>
    exact uniformNumbers_binary
      (fun _ _ _ _ _ same other => staysIn_lift (Number.ofKind_sub same other)) _ _
  case negation =>
    exact uniformNumbers_unary
      (fun _ _ _ argument same => staysIn_pure ((Number.kind_neg argument).trans same)) _ _
  case product =>
    exact uniformNumbers_binary
      (fun _ _ _ _ _ same other => staysIn_lift (Number.ofKind_mul same other)) _ _
  case quotient =>
    exact uniformNumbers_binary
      (fun _ _ _ _ _ same other => staysIn_lift (Number.ofKind_div same other)) _ _
  case power => exact uniformNumbers_binary (fun _ _ _ _ _ => Elementary.staysIn_power) _ _
  case factorial => exact uniformNumbers_unary (fun _ _ _ _ => Combinatorics.staysIn_factorial) _ _
  case permutations =>
    exact uniformNumbers_binary (fun _ _ _ _ _ => Combinatorics.staysIn_permutations) _ _
  case combinations =>
    exact uniformNumbers_binary (fun _ _ _ _ _ => Combinatorics.staysIn_combinations) _ _

theorem staysIn_pi_registry (kind : NumberKind) : StaysIn kind (registry.pi kind) := by
  refine Registry.staysIn_pi fun name implementation found => ?_
  have same : implementation.kind = kind := by simpa using List.find?_some found
  rcases implementationFor?_registry found with rfl | rfl
  · exact staysIn_pure same
  · exact same ▸ staysIn_precisePi

open Trigonometry in
/-- The functions of the standard plugin stay in the representation of their argument. -/
theorem uniform_functions :
    ∀ entry ∈ functions, registry.UniformNumbers (.unary entry.1 entry.2.1 entry.2.2) := by
  have ofPi (literals : NumberKind) (context : Context) (kind : NumberKind) :
      StaysIn kind ((registry.libraryIn literals context).pi kind) :=
    staysIn_pi_registry kind
  simp only [functions, List.forall_mem_cons, List.not_mem_nil, false_implies, implies_true,
    and_true]
  refine ⟨?abs, ?exp, ?ln, ?sqrt, ?sin, ?cos, ?tan, ?sec, ?csc, ?cot, ?arcsin, ?arccos, ?arctan,
    ?arcsec, ?arccsc, ?arccot⟩
  case abs =>
    exact uniformNumbers_unary
      (fun _ _ _ argument same => staysIn_pure ((Number.kind_abs argument).trans same)) _ _
  case exp => exact uniformNumbers_unary (fun _ _ _ _ => Elementary.staysIn_exp) _ _
  case ln => exact uniformNumbers_unary (fun _ _ _ _ => Elementary.staysIn_ln) _ _
  case sqrt => exact uniformNumbers_unary (fun _ _ _ _ => Elementary.staysIn_sqrt) _ _
  case sin => exact uniformNumbers_unary (fun _ _ kind _ => staysIn_sin (ofPi _ _ kind)) _ _
  case cos => exact uniformNumbers_unary (fun _ _ kind _ => staysIn_cos (ofPi _ _ kind)) _ _
  case tan => exact uniformNumbers_unary (fun _ _ kind _ => staysIn_tan (ofPi _ _ kind)) _ _
  case sec => exact uniformNumbers_unary (fun _ _ kind _ => staysIn_sec (ofPi _ _ kind)) _ _
  case csc => exact uniformNumbers_unary (fun _ _ kind _ => staysIn_csc (ofPi _ _ kind)) _ _
  case cot => exact uniformNumbers_unary (fun _ _ kind _ => staysIn_cot (ofPi _ _ kind)) _ _
  case arcsin => exact uniformNumbers_unary (fun _ _ kind _ => staysIn_arcsin (ofPi _ _ kind)) _ _
  case arccos => exact uniformNumbers_unary (fun _ _ kind _ => staysIn_arccos (ofPi _ _ kind)) _ _
  case arctan => exact uniformNumbers_unary (fun _ _ kind _ => staysIn_arctan (ofPi _ _ kind)) _ _
  case arcsec => exact uniformNumbers_unary (fun _ _ kind _ => staysIn_arcsec (ofPi _ _ kind)) _ _
  case arccsc => exact uniformNumbers_unary (fun _ _ kind _ => staysIn_arccsc (ofPi _ _ kind)) _ _
  case arccot => exact uniformNumbers_unary (fun _ _ kind _ => staysIn_arccot (ofPi _ _ kind)) _ _

theorem uniform_treeOperators : ∀ entry ∈ treeOperators, UniformTrees entry.2.2 := by
  simp only [treeOperators, List.forall_mem_cons, List.not_mem_nil, false_implies, implies_true,
    and_true]
  exact ⟨uniformTrees_assign, uniformTrees_define⟩

/-- The standard registry gives the widest representation of the operands. -/
theorem isUniform_registry : registry.IsUniform where
  contains :=
    (contains_enable contains_empty uniform_operators uniform_treeOperators
      uniform_functions).rebuildPromotions
  promotes _ := ofKind_promote

/-! ## Evaluations -/

/-- Caches that evaluations with the standard registry leave behind. -/
inductive Fills : Caches → Prop
  | empty : Fills .empty
  | evaluate
      {caches : Caches}
      (earlier : Fills caches)
      (limit : Nat)
      (context : Context)
      (tree : Expr)
      (cancellation : Cancellation) :
      Fills (Reckoner.evaluate limit { registry with caches } context tree
        cancellation).machine.caches

theorem Fills.ofKinds {caches : Caches} (fills : Fills caches) : caches.OfKinds := by
  induction fills with
  | empty => exact Caches.ofKinds_empty
  | @evaluate caches _ limit context tree cancellation held =>
      exact ((isUniform_registry.withCaches caches).evaluate held limit context tree cancellation).1

/-- With the standard registry, whatever the bindings and whatever earlier evaluations have left
in the caches, no evaluation fails in a promotion.  The result of one that comes by no expression
to be handed over unreduced is precise if a literal or the value of a variable that it starts
from is precise, and fast otherwise. -/
theorem evaluate_representation
    {caches : Caches}
    (fills : Fills caches)
    (limit : Nat)
    (context : Context)
    (tree : Expr)
    (cancellation : Cancellation) :
    (∀ failure, (evaluate limit { registry with caches } context tree cancellation).result =
        .error (.failed failure) → failure.category ≠ .promotion) ∧
      (context.IsPlain tree → ∀ done,
        (evaluate limit { registry with caches } context tree cancellation).result = .ok done →
          ∃ kind, registry.kindOf context = .ok kind ∧
            ((∃ number, context.StartsFrom kind tree number ∧ number.kind = .precise) →
              done.value.kind = .precise) ∧
            ((¬∃ number, context.StartsFrom kind tree number ∧ number.kind = .precise) →
              done.value.kind = .fast)) := by
  obtain ⟨_, isLocal, represents⟩ := (isUniform_registry.withCaches caches).evaluate
    fills.ofKinds limit context tree cancellation
  refine ⟨isLocal, fun plain done same => ?_⟩
  obtain ⟨kind, known, represented⟩ := represents plain done same
  rw [kindOf_withCaches] at known
  refine ⟨kind, known, represented.2, fun none => ?_⟩
  cases fast : done.value.kind with
  | fast => rfl
  | precise => exact absurd (represented.1 fast) none

/-- Fast literals, a fast variable, a precise one, and a definition that refers to the precise
one. -/
def mixed : Context :=
  (((Context.withImplementation naiveName).setVariable "x" (.ofInt .fast 2)).setVariable "y"
    (.ofInt .precise 3)).setDefinition "d" (.binary .value "*" (.number "2") (.variable "y"))

/-- The sum of a fast variable and the definition. -/
def mixedSum : Expr :=
  .binary .value "+" (.variable "x") (.variable "d")

theorem isPlain_mixedSum : mixed.IsPlain mixedSum := by
  have number : mixed.IsPlain (.number "2") :=
    Context.isPlain_iff.2 ⟨rfl, by simp [Expr.operands], by simp⟩
  have bound (name : String) (isBound : mixed.values.find? name ≠ none) :
      mixed.IsPlain (.variable name) := by
    refine Context.isPlain_iff.2 ⟨rfl, by simp [Expr.operands], ?_⟩
    intro other same unbound
    obtain rfl := Expr.variable.inj same
    exact absurd unbound isBound
  have product : mixed.IsPlain (.binary .value "*" (.number "2") (.variable "y")) :=
    Context.isPlain_iff.2 ⟨rfl, by simpa [Expr.operands] using ⟨number, bound "y" (by decide)⟩,
      by simp⟩
  have defined : mixed.IsPlain (.variable "d") := by
    refine Context.isPlain_iff.2 ⟨rfl, by simp [Expr.operands], ?_⟩
    intro name same _ body found
    obtain rfl := Expr.variable.inj same
    obtain rfl : Expr.binary .value "*" (.number "2") (.variable "y") = body :=
      Option.some.inj found
    exact product
  exact Context.isPlain_iff.2 ⟨rfl, by simpa [mixedSum, Expr.operands] using
    ⟨bound "x" (by decide), defined⟩, by simp [mixedSum]⟩

/-- The definition is precise although its name stands next to a fast variable and its literal is
fast. -/
theorem evaluate_representation_mixed :
    Fills .empty ∧ mixed.IsPlain mixedSum ∧
      mixed.StartsFrom .fast mixedSum (.ofInt .precise 3) ∧
      ∃ done, (evaluate 10 { registry with caches := .empty } mixed mixedSum .never).result =
        .ok done ∧ done.value.kind = .precise := by
  have product : mixed.Visits (.binary .value "*" (.number "2") (.variable "y")) (.variable "y") :=
    .operand (by simp [Expr.operands]) (.here (.variable "y"))
  have definition : mixed.Visits (.variable "d") (.variable "y") := .definition rfl rfl product
  have starts : mixed.StartsFrom .fast mixedSum (.ofInt .precise 3) :=
    ⟨.variable "y", .operand (by simp [mixedSum, Expr.operands]) definition, rfl⟩
  have evaluates : (evaluate 10 { registry with caches := .empty } mixed mixedSum .never).result =
      .ok ⟨.precise ⟨8, 0⟩, mixed⟩ := by
    decide +kernel
  have literals : registry.kindOf mixed = .ok .fast := by decide
  obtain ⟨_, represents⟩ := evaluate_representation Fills.empty 10 mixed mixedSum .never
  obtain ⟨kind, known, precise, _⟩ := represents isPlain_mixedSum _ evaluates
  obtain rfl : .fast = kind := Except.ok.inj (literals.symm.trans known)
  exact ⟨.empty, isPlain_mixedSum, starts, _, evaluates, precise ⟨_, starts, rfl⟩⟩

end Standard
end Reckoner
