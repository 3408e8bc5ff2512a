import Reckoner.Proofs.Evaluation.SteadyReduction
import Reckoner.Proofs.Plugins.Order
import Reckoner.Proofs.Standard.Steadiness

/-!
# The standard registry is steady

The caches are in order if the factorials are, and if the logarithm of two and pi have been the
results of their calculations.  Empty caches are in order, and so are those that any evaluation with
the standard operators and functions leaves behind.
-/

namespace Reckoner

open Run

namespace Caches

/-- Caches in which the factorials and the logarithm of two are in order. -/
structure AreTables (caches : Caches) : Prop where
  factorials : caches.HoldsFactorials
  lnTwo : ∀ kind value, caches.constant? "ln2" kind = some value →
    Obtains (fun _ => True) (Elementary.lnTwoSeries kind) value

theorem areTables_empty : Caches.empty.AreTables where
  factorials := holdsFactorials_empty
  lnTwo _ _ known := by cases known

theorem AreTables.storePi
    {caches : Caches}
    (tables : caches.AreTables)
    (kind : NumberKind)
    (value : Number) :
    (caches.storePi kind value).AreTables where
  factorials := tables.factorials
  lnTwo := tables.lnTwo

/-- Caches that are tables guard the factorials. -/
theorem guards_areTables : Elementary.Guards AreTables where
  holds _ tables := tables.factorials
  grows _ _ _ _ tables grown := ⟨grown, tables.lnTwo⟩
  recalls _ kind value tables known := tables.lnTwo kind value known
  stores caches kind value tables obtained := by
    refine ⟨tables.factorials, fun other kept known => ?_⟩
    rw [constant?, storeConstant, List.lookup_cons] at known
    split at known
    next same =>
      obtain rfl : other = kind := by simpa using same
      obtain rfl := Option.some.inj known
      exact obtained
    next => exact tables.lnTwo other kept known

end Caches

namespace Registry

/-- Pi is not touched by factorials and constants. -/
theorem guards_keeps
    {base : Caches → Prop}
    (registry : Registry)
    (guards : Elementary.Guards base) :
    Elementary.Guards (registry.Keeps base) where
  holds _ held := guards.holds _ held.1
  grows _ _ _ _ held grown := ⟨guards.grows _ _ _ _ held.1 grown, held.2⟩
  recalls _ _ _ held known := guards.recalls _ _ _ held.1 known
  stores _ _ _ held obtained := ⟨guards.stores _ _ _ held.1 obtained, held.2⟩

theorem keeps_empty
    {base : Caches → Prop}
    (registry : Registry)
    (held : base .empty) :
    registry.Keeps base .empty := by
  refine ⟨held, fun kind value known => ?_⟩
  cases kind <;> cases known

/-! ## What is registered -/

variable {ofNumbers : NumberFunction → Prop} {ofTrees : TreeFunction → Prop}

/-- The empty registry has no functions. -/
theorem contains_empty : Registry.empty.Contains ofNumbers ofTrees where
  operators := Table.all_empty _
  treeOperators := Table.all_empty _
  functions := Table.all_empty _
  treeFunctions := Table.all_empty _

variable {registry : Registry} (contains : registry.Contains ofNumbers ofTrees)

include contains

/-- An operator that is registered is one of the functions. -/
theorem Contains.registerOperator
    {function : NumberFunction}
    (name : String)
    (spec : OperatorSpec)
    (holds : ofNumbers function) :
    (registry.registerOperator name spec function).Contains ofNumbers ofTrees :=
  { contains with operators := contains.operators.insert name holds }

theorem Contains.registerTreeOperator
    {function : TreeFunction}
    (name : String)
    (spec : OperatorSpec)
    (holds : ofTrees function) :
    (registry.registerTreeOperator name spec function).Contains ofNumbers ofTrees :=
  { contains with treeOperators := contains.treeOperators.insert name holds }

theorem Contains.registerFunction
    {function : NumberFunction}
    (name : String)
    (holds : ofNumbers function) :
    (registry.registerFunction name function).Contains ofNumbers ofTrees :=
  { contains with functions := contains.functions.insert name holds }

theorem Contains.registerImplementation
    (name : String)
    (implementation : NumberImplementation) :
    (registry.registerImplementation name implementation).Contains ofNumbers ofTrees :=
  { contains with }

theorem Contains.registerDocumentation (entry : Documentation) :
    (registry.registerDocumentation entry).Contains ofNumbers ofTrees :=
  { contains with }

/-- Entries registered one after another are among the functions. -/
theorem Contains.foldl
    {α : Type}
    {entries : List α}
    {register : Registry → α → Registry}
    (step : ∀ grown : Registry, grown.Contains ofNumbers ofTrees →
      ∀ entry ∈ entries, (register grown entry).Contains ofNumbers ofTrees) :
    (entries.foldl register registry).Contains ofNumbers ofTrees :=
  List.foldlRecOn entries register contains step

theorem Contains.rebuildPromotions {order : Traversal NumberImplementation} :
    (registry.rebuildPromotions order).Contains ofNumbers ofTrees :=
  { contains with }

end Registry

namespace Standard

open Registry Trigonometry

/-- The standard plugin adds its operators and functions and no others. -/
theorem contains_enable
    {ofNumbers : NumberFunction → Prop}
    {ofTrees : TreeFunction → Prop}
    {registry : Registry}
    (contains : registry.Contains ofNumbers ofTrees)
    (ofOperators : ∀ entry ∈ operators, ofNumbers entry.2.2)
    (ofTreeOperators : ∀ entry ∈ treeOperators, ofTrees entry.2.2)
    (ofFunctions : ∀ entry ∈ functions, ofNumbers (.unary entry.1 entry.2.1 entry.2.2)) :
    (enable registry).Contains ofNumbers ofTrees := by
  simp only [enable]
  refine Contains.foldl ?_ fun _ grown entry _ => grown.registerDocumentation entry
  refine Contains.foldl ?_ fun _ grown entry member =>
    grown.registerFunction entry.1 (ofFunctions entry member)
  refine Contains.foldl ?_ fun _ grown entry member =>
    grown.registerTreeOperator entry.1 entry.2.1 (ofTreeOperators entry member)
  refine Contains.foldl ?_ fun _ grown entry member =>
    grown.registerOperator entry.1 entry.2.1 (ofOperators entry member)
  exact (contains.registerImplementation _ _).registerImplementation _ _

/-! ## The standard operators and functions -/

variable {sound : Caches → Prop}

theorem steadyNumbers_unary
    {library : NumberKind → Context → Library}
    {apply : Library → Number → Calc Number}
    (steady : ∀ kind context argument, Steady sound (apply (library kind context) argument))
    (name : String)
    (admits : Number → Bool) :
    SteadyNumbers sound library (.unary name admits apply) := by
  intro kind context arguments
  match arguments with
  | [argument] => exact steady kind context argument
  | [] | _ :: _ :: _ => exact steady_fail _

theorem steadyNumbers_binary
    {library : NumberKind → Context → Library}
    {apply : Library → Number → Number → Calc Number}
    (steady : ∀ kind context first second,
      Steady sound (apply (library kind context) first second))
    (name : String)
    (admits : Number → Number → Bool) :
    SteadyNumbers sound library (.binary name admits apply) := by
  intro kind context arguments
  match arguments with
  | [first, second] => exact steady kind context first second
  | [] | [_] | _ :: _ :: _ :: _ => exact steady_fail _

/-- An assignment has a variable and a tree. -/
theorem isAssignment_iff {trees : List Expr} :
    isAssignment trees = true ↔ ∃ name tree, trees = [.variable name, tree] := by
  unfold isAssignment
  split <;> simp_all

theorem steadyTrees_assign : SteadyTrees sound assign := by
  intro kind reduce trees depth admitted reduces
  obtain ⟨name, tree, rfl⟩ := isAssignment_iff.1 admitted
  refine SteadyAt.bind (reduces tree) fun value => ?_
  refine SteadyAt.bind ((steady_change fun _ _ => rfl).at depth) fun _ => ?_
  exact (steady_pure value).at depth

theorem steadyTrees_define : SteadyTrees sound define := by
  intro kind reduce trees depth admitted reduces
  obtain ⟨name, tree, rfl⟩ := isAssignment_iff.1 admitted
  exact SteadyAt.bind ((steady_change fun _ _ => rfl).at depth) fun _ => reduces tree

theorem steady_operators
    (guards : Elementary.Guards sound)
    (library : NumberKind → Context → Library) :
    ∀ entry ∈ operators, SteadyNumbers sound library entry.2.2 := by
  simp only [operators, List.forall_mem_cons, List.not_mem_nil, false_implies, implies_true,
    and_true]
  refine ⟨?sum, ?difference, ?negation, ?product, ?quotient, ?power, ?factorial, ?permutations,
    ?combinations⟩
  case sum | difference | product | quotient =>
    exact steadyNumbers_binary (fun _ _ _ _ => steady_lift _) _ _
  case negation => exact steadyNumbers_unary (fun _ _ _ => steady_pure _) _ _
  case power => exact steadyNumbers_binary (fun _ _ => Elementary.steady_power guards) _ _
  case factorial => exact steadyNumbers_unary (fun _ _ => Combinatorics.steady_factorial guards) _ _
  case permutations => exact steadyNumbers_binary (fun _ _ => Combinatorics.steady_permutations) _ _
  case combinations =>
    exact steadyNumbers_binary (fun _ _ => Combinatorics.steady_combinations guards) _ _

/-- The functions of the standard plugin are steady. -/
theorem steady_functions
    {library : NumberKind → Context → Library}
    (guards : Elementary.Guards sound)
    (steadyPi : ∀ kind context, SteadyPi sound (library kind context)) :
    ∀ entry ∈ functions, SteadyNumbers sound library (.unary entry.1 entry.2.1 entry.2.2) := by
  simp only [functions, List.forall_mem_cons, List.not_mem_nil, false_implies, implies_true,
    and_true]
  refine ⟨?abs, ?exp, ?ln, ?sqrt, ?sin, ?cos, ?tan, ?sec, ?csc, ?cot, ?arcsin, ?arccos, ?arctan,
    ?arcsec, ?arccsc, ?arccot⟩
  case abs => exact steadyNumbers_unary (fun _ _ _ => steady_pure _) _ _
  case exp => exact steadyNumbers_unary (fun _ _ => Elementary.steady_exp guards) _ _
  case ln => exact steadyNumbers_unary (fun _ _ => Elementary.steady_ln guards) _ _
  case sqrt => exact steadyNumbers_unary (fun _ _ => Elementary.steady_sqrt guards) _ _
  case sin =>
    exact steadyNumbers_unary (fun kind context => steady_sin guards (steadyPi kind context)) _ _
  case cos =>
    exact steadyNumbers_unary (fun kind context => steady_cos guards (steadyPi kind context)) _ _
  case tan =>
    exact steadyNumbers_unary (fun kind context => steady_tan guards (steadyPi kind context)) _ _
  case sec =>
    exact steadyNumbers_unary (fun kind context => steady_sec guards (steadyPi kind context)) _ _
  case csc =>
    exact steadyNumbers_unary (fun kind context => steady_csc guards (steadyPi kind context)) _ _
  case cot =>
    exact steadyNumbers_unary (fun kind context => steady_cot guards (steadyPi kind context)) _ _
  case arcsin =>
    exact steadyNumbers_unary (fun kind context => steady_arcsin guards (steadyPi kind context)) _ _
  case arccos =>
    exact steadyNumbers_unary (fun kind context => steady_arccos guards (steadyPi kind context)) _ _
  case arctan =>
    exact steadyNumbers_unary (fun kind context => steady_arctan (steadyPi kind context)) _ _
  case arcsec =>
    exact steadyNumbers_unary (fun kind context => steady_arcsec guards (steadyPi kind context)) _ _
  case arccsc =>
    exact steadyNumbers_unary (fun kind context => steady_arccsc guards (steadyPi kind context)) _ _
  case arccot =>
    exact steadyNumbers_unary (fun kind context => steady_arccot (steadyPi kind context)) _ _

theorem steady_treeOperators : ∀ entry ∈ treeOperators, SteadyTrees sound entry.2.2 := by
  simp only [treeOperators, List.forall_mem_cons, List.not_mem_nil, false_implies, implies_true,
    and_true]
  exact ⟨steadyTrees_assign, steadyTrees_define⟩

/-! ## The registry of the standard plugin -/

/-- What the standard plugin registers, on its own. -/
def registry : Registry :=
  (enable .empty).rebuildPromotions .byName

theorem implementationFor?_registry
    {kind : NumberKind}
    {name : String}
    {implementation : NumberImplementation}
    (found : registry.implementationFor? kind = some (name, implementation)) :
    implementation = naive ∨ implementation = precise := by
  have entries : registry.arranged = [(naiveName, naive), (preciseName, precise)] := rfl
  have member := List.mem_of_find?_eq_some found
  rw [entries] at member
  simp only [List.mem_cons, List.not_mem_nil, or_false] at member
  exact member.imp (congrArg Prod.snd) (congrArg Prod.snd)

/-- The standard implementations are converted into one another alike in whatever order they are
gone through. -/
theorem promotions_enable (order : Traversal NumberImplementation) :
    ((enable .empty).rebuildPromotions order).promotions = registry.promotions := by
  have unambiguous : Unambiguous (enable .empty).implementations.entries := by
    have entries : (enable .empty).implementations.entries =
        [(naiveName, naive), (preciseName, precise)] := rfl
    rw [entries]
    simp [Unambiguous, naive, precise]
  exact promotions_of_unambiguous unambiguous order .byName

/-- The pi of the standard registry is steady. -/
theorem steady_pi_registry (kind : NumberKind) :
    Steady (registry.Keeps Caches.AreTables) (registry.pi kind) := by
  refine steady_pi (fun _ kind value tables => tables.storePi kind value) ?_ kind
  intro kind name implementation found
  rcases implementationFor?_registry found with rfl | rfl
  · exact ⟨steady_pure _, steady_pure _⟩
  · exact ⟨steady_precisePi (registry.guards_keeps Caches.guards_areTables),
      steady_precisePi Caches.guards_areTables⟩

/-- The standard operators and functions are steady together. -/
theorem isSteady_registry : registry.IsSteady (registry.Keeps Caches.AreTables) := by
  have guards := registry.guards_keeps Caches.guards_areTables
  have entries : (enable .empty).Contains
      (SteadyNumbers (registry.Keeps Caches.AreTables) registry.libraryIn)
      (SteadyTrees (registry.Keeps Caches.AreTables)) :=
    contains_enable contains_empty (steady_operators guards registry.libraryIn)
      steady_treeOperators (steady_functions guards fun _ _ => steady_pi_registry)
  exact entries.rebuildPromotions

end Standard
end Reckoner
