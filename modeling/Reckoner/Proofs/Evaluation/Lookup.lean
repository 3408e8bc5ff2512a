import Reckoner.Evaluation.Reduction
import Reckoner.Proofs.Evaluation.Invariance
import Reckoner.Proofs.Expr.Rendering

/-!
# Names are found

A reduction looks up the name of every operator and function node.  For a tree whose names are
registered the lookup never fails.  So a reduction reports an unregistered name only if a registered
function does so on its own account.
-/

namespace Reckoner

/-- Whether a failure says that an operator or a function is not registered. -/
def Failure.isUnregistered : Failure → Bool
  | .unknownOperator _ | .unknownFunction _ => true
  | _ => false

/-- A failure other than that a name is not registered. -/
def Failure.Spares (failure : Failure) : Prop :=
  failure.isUnregistered = false

/-- The definitions of an evaluation are trees whose names are registered. -/
def Evaluation.Resolves
    (registry : Registry)
    (precedences : Precedences)
    (evaluation : Evaluation) : Prop :=
  ∀ name tree, evaluation.context.definitions.find? name = some tree →
    tree.Resolves registry precedences

/-- A run that reports no unregistered name and leaves no definition with one behind. -/
def Eval.Spares
    (registry : Registry)
    (precedences : Precedences)
    {α : Type}
    (run : Eval α) : Prop :=
  run.Preserves (Evaluation.Resolves registry precedences) Failure.Spares

namespace Registry

/-- No calculation of a function reports an unregistered name. -/
def SparesNumbers (registry : Registry) (function : NumberFunction) : Prop :=
  ∀ kind context arguments limit machine failure,
    (function.apply (registry.libraryIn kind context) arguments limit machine).1 =
        .error (.failed failure) →
      failure.Spares

/-- If no reduction reports an unregistered name, neither does a function that reduces. -/
def SparesTrees
    (registry : Registry)
    (precedences : Precedences)
    (function : TreeFunction) : Prop :=
  ∀ (reducer : Reducer) (trees : List Expr),
    (∀ tree : Expr, tree.Resolves registry precedences →
      (reducer.reduce tree).Spares registry precedences) →
    Expr.ResolvesAll registry precedences trees →
      (function.apply reducer trees).Spares registry precedences

/-- What is registered reports no unregistered name on its own account. -/
structure Reliable (registry : Registry) (precedences : Precedences) : Prop where
  operators : ∀ name found, registry.operators.find? name = some found →
    registry.SparesNumbers found.function
  functions : ∀ name found, registry.functions.find? name = some found →
    registry.SparesNumbers found
  treeOperators : ∀ name found, registry.treeOperators.find? name = some found →
    registry.SparesTrees precedences found.function
  treeFunctions : ∀ name found, registry.treeFunctions.find? name = some found →
    registry.SparesTrees precedences found
  conversions : ∀ source target convert number failure,
    registry.promotions.path? source target = some convert →
      convert number = .error failure → failure.Spares

variable {registry : Registry} {precedences : Precedences} {kind : NumberKind}

/-- A calculation spares the registry when its failures do. -/
theorem spares_calculate
    {α : Type}
    {calculation : Calc α}
    (fine : ∀ limit machine failure, (calculation limit machine).1 = .error (.failed failure) →
      failure.Spares) :
    (Eval.calculate calculation).Spares registry precedences :=
  Run.preserves_within fine fun _ _ held => held

theorem spares_check : Eval.check.Spares registry precedences := by
  refine spares_calculate fun limit machine failure stops => ?_
  rw [Calc.check_eq] at stops
  split at stops
  next =>
    obtain rfl : Failure.cancelled = failure := by simpa using stops
    rfl
  next => cases stops

/-- Bringing numbers to one representation reports no unregistered name. -/
theorem Reliable.promotes
    (reliable : registry.Reliable precedences)
    {failure : Failure}
    (reports : registry.promotions.Reports failure) :
    failure.Spares := by
  rcases reports with promotion | ⟨source, target, convert, number, known, fails⟩
  · cases failure <;> first | rfl | cases promotion
  · exact reliable.conversions source target convert number failure known fails

theorem Reliable.applyToNumbers
    (reliable : registry.Reliable precedences)
    {function : NumberFunction}
    (spares : registry.SparesNumbers function)
    (name : String)
    (numbers : List Number) :
    (registry.applyToNumbers kind name function numbers).Spares registry precedences :=
  preserves_applyToNumbers (fun _ => reliable.promotes) (fun _ => rfl)
    (fun arguments _ _ context => spares_calculate (spares kind context arguments)) name

theorem spares_applyToTrees
    {function : TreeFunction}
    {reducer : Reducer}
    {trees : List Expr}
    (spares : registry.SparesTrees precedences function)
    (reduces : ∀ tree : Expr, tree.Resolves registry precedences →
      (reducer.reduce tree).Spares registry precedences)
    (resolves : Expr.ResolvesAll registry precedences trees)
    (name : String) :
    (Registry.applyToTrees reducer name function trees).Spares registry precedences := by
  unfold Registry.applyToTrees
  split
  next => exact spares reducer trees reduces resolves
  next => exact Run.preserves_fail rfl

/-! ## Reduction -/

/-- The operands of a tree whose names are registered are such trees. -/
theorem resolves_operand
    {tree operand : Expr}
    (resolves : tree.Resolves registry precedences)
    (member : operand ∈ tree.operands) :
    operand.Resolves registry precedences := by
  cases tree with
  | number text => cases member
  | «variable» name => cases member
  | binary mode operator left right =>
      obtain ⟨_, resolvesLeft, resolvesRight⟩ := resolves
      simp only [Expr.operands, List.mem_cons, List.not_mem_nil, or_false] at member
      rcases member with rfl | rfl
      · exact resolvesLeft
      · exact resolvesRight
  | unary mode operator fixity inner =>
      obtain rfl := List.mem_singleton.1 member
      exact resolves.2
  | call mode name arguments =>
      have resolvesAll := resolves.2
      clear resolves
      change operand ∈ arguments at member
      induction arguments with
      | nil => cases member
      | cons first rest hypothesis =>
          rcases List.mem_cons.1 member with rfl | later
          · exact resolvesAll.1
          · exact hypothesis resolvesAll.2 later

/-- A head that resolves is found. -/
theorem Reliable.applyHead
    (reliable : registry.Reliable precedences)
    {tree : Expr}
    (resolves : tree.Resolves registry precedences)
    (values : List Number) :
    (registry.applyHead kind tree values).Spares registry precedences := by
  match tree, resolves with
  | .binary .value operator left right, ⟨provides, _⟩ =>
      obtain ⟨found, registered⟩ := provides.exists_operator
      simp only [Registry.applyHead, registered]
      exact reliable.applyToNumbers (reliable.operators operator found registered) _ _
  | .unary .value operator fixity operand, ⟨provides, _⟩ =>
      obtain ⟨found, registered⟩ := provides.exists_operator
      simp only [Registry.applyHead, registered]
      exact reliable.applyToNumbers (reliable.operators operator found registered) _ _
  | .call .value name arguments, ⟨named, _⟩ =>
      obtain ⟨function, registered⟩ := Table.mem_names_iff.1 named
      simp only [Registry.applyHead, registered]
      exact reliable.applyToNumbers (reliable.functions name function registered) _ _
  | .number _, _ | .variable _, _ | .binary .tree _ _ _, _ | .unary .tree _ _ _, _
  | .call .tree _ _, _ => exact Run.preserves_goOn

/-- An operator on trees that resolves is found. -/
theorem Reliable.handOver
    (reliable : registry.Reliable precedences)
    {reducer : Reducer}
    (reduces : ∀ tree : Expr, tree.Resolves registry precedences →
      (reducer.reduce tree).Spares registry precedences)
    {tree : Expr}
    (resolves : tree.Resolves registry precedences) :
    (registry.handOver reducer tree).Spares registry precedences := by
  match tree, resolves with
  | .binary .tree operator left right, ⟨provides, resolvesLeft, resolvesRight⟩ =>
      obtain ⟨found, registered⟩ := provides.exists_treeOperator
      simp only [Registry.handOver, registered]
      have resolved : Expr.ResolvesAll registry precedences [left, right] :=
        ⟨resolvesLeft, resolvesRight, trivial⟩
      exact spares_applyToTrees (reliable.treeOperators operator found registered) reduces
        resolved operator
  | .unary .tree operator fixity operand, ⟨provides, resolvesOperand⟩ =>
      obtain ⟨found, registered⟩ := provides.exists_treeOperator
      simp only [Registry.handOver, registered]
      have resolved : Expr.ResolvesAll registry precedences [operand] := ⟨resolvesOperand, trivial⟩
      exact spares_applyToTrees (reliable.treeOperators operator found registered) reduces
        resolved operator
  | .call .tree name arguments, ⟨named, resolvesArguments⟩ =>
      obtain ⟨function, registered⟩ := Table.mem_names_iff.1 named
      simp only [Registry.handOver, registered]
      exact spares_applyToTrees (reliable.treeFunctions name function registered) reduces
        resolvesArguments name
  | .number _, _ | .variable _, _ | .binary .value _ _ _, _ | .unary .value _ _ _, _
  | .call .value _ _, _ => exact Run.preserves_goOn

/-- Where names are registered and what is registered reports no unregistered name on its own
account, reductions do not do so either. -/
theorem Reliable.invariant (reliable : registry.Reliable precedences) :
    registry.Invariant (Expr.Resolves registry precedences)
      (Evaluation.Resolves registry precedences) Failure.Spares where
  check := spares_check
  expands _ _ held := held
  operands _ _ resolves member := resolves_operand resolves member
  definitions _ name tree held defined := held name tree defined
  kinds context failure unknown := by
    unfold kindOf implementation at unknown
    split at unknown
    next =>
      obtain rfl := Except.error.inj unknown
      rfl
    next =>
      split at unknown
      next => cases unknown
      next =>
        obtain rfl := Except.error.inj unknown
        rfl
  literals kind text failure _ fails := by
    unfold Number.parse at fails
    split at fails
    next => cases fails
    next =>
      obtain rfl := Except.error.inj fails
      rfl
  names _ := ⟨rfl, rfl⟩
  expects tree failure resolves fails := by
    unfold expect at fails
    split at fails
    next name arguments =>
      obtain ⟨function, registered⟩ := Table.mem_names_iff.1 resolves.1
      simp [registered] at fails
    next => cases fails
  heads _ _ values resolves := reliable.applyHead resolves values
  handOver _ _ resolves _ reduces := reliable.handOver reduces resolves

/-- Evaluating a tree whose names are registered, against definitions of the same sort, reports no
unregistered name, if what is registered does not do so either. -/
theorem Reliable.evaluate
    (reliable : registry.Reliable precedences)
    {tree : Expr}
    (resolves : tree.Resolves registry precedences)
    {context : Context}
    (defined : ∀ name definition, context.definitions.find? name = some definition →
      definition.Resolves registry precedences)
    {limit : Nat}
    {cancellation : Cancellation}
    {failure : Failure}
    (fails : (Reckoner.evaluate limit registry context tree cancellation).result =
      .error (.failed failure)) :
    failure.Spares := by
  obtain ⟨_, _, _, _, within⟩ := reliable.invariant.ends limit context cancellation resolves defined
  exact within failure fails

end Registry

/-- If the negation is not registered as an operator on unreduced operands, then every operator and
function of a tree that is read from a text is registered in the name space of its node, and every
operator is read there as it is registered.  So evaluating the tree reports no unregistered name,
unless what is registered does so on its own account. -/
theorem parse_resolves
    {registry : Registry}
    {text : String}
    {tree : Expr}
    (visible : Precedences.negation ∉ registry.names (.operator .tree))
    (parses : (Reader.base.load registry.grammar).parse text = .ok tree) :
    tree.Resolves registry (Precedences.empty.load registry.grammar) ∧
      tree.Fits (Precedences.empty.load registry.grammar) ∧
      (registry.Reliable (Precedences.empty.load registry.grammar) →
        ∀ limit context cancellation failure,
          (∀ name definition, context.definitions.find? name = some definition →
            definition.Resolves registry (Precedences.empty.load registry.grammar)) →
          (evaluate limit registry context tree cancellation).result = .error (.failed failure) →
            failure.isUnregistered = false) := by
  obtain ⟨resolves, fits⟩ := resolves_of_parse visible parses
  refine ⟨resolves, fits, ?_⟩
  intro reliable limit context cancellation failure defined fails
  exact reliable.evaluate resolves defined fails

/-- A function that gives its only argument back. -/
def unchanged : NumberFunction :=
  .unary "f" (fun _ => true) fun _ number => pure number

/-- A function that gives the value of its first operand. -/
def firstOperand : TreeFunction where
  admits _ := true
  apply reducer
    | [] => Run.fail (.badArguments "f")
    | first :: _ => reducer.reduce first

/-- A registry in which one name stands in all four name spaces. -/
def crowded : Registry :=
  (((((Registry.empty.registerOperator "`" (.leading 0) unchanged).registerOperator "-"
    (.binary .left 0) unchanged).registerOperator "f" (.binary .left 1)
      unchanged).registerTreeOperator "f" (.binary .right 2) firstOperand).registerFunction "f"
        unchanged).registerTreeFunction "f" firstOperand

theorem reliable_crowded (precedences : Precedences) : crowded.Reliable precedences := by
  have ofNumbers : crowded.SparesNumbers unchanged := by
    intro kind context arguments limit machine failure fails
    rcases arguments with _ | ⟨_, _ | _⟩
    case cons.nil => simp [unchanged, NumberFunction.unary, Run.pure_eq] at fails
    all_goals
      obtain rfl : Failure.badArguments "f" = failure := by
        simpa [unchanged, NumberFunction.unary, Run.fail] using fails
      rfl
  have ofTrees : crowded.SparesTrees precedences firstOperand := by
    intro reducer trees reduces resolves
    cases trees with
    | nil => exact Run.preserves_fail rfl
    | cons first => exact reduces first resolves.1
  constructor
  case operators =>
    intro name found known
    have all : ∀ entry ∈ crowded.operators.entries, entry.2.function = unchanged := by
      intro entry member
      have entries : crowded.operators.entries = [("-", ⟨.binary .left 0, unchanged⟩),
        ("`", ⟨.leading 0, unchanged⟩), ("f", ⟨.binary .left 1, unchanged⟩)] := rfl
      rw [entries] at member
      simp only [List.mem_cons, List.not_mem_nil, or_false] at member
      rcases member with rfl | rfl | rfl <;> rfl
    exact all _ (Table.mem_of_find? known) ▸ ofNumbers
  case functions =>
    intro name found known
    obtain ⟨_, rfl⟩ := Prod.mk.inj (List.mem_singleton.1 (Table.mem_of_find? known))
    exact ofNumbers
  case treeOperators =>
    intro name found known
    obtain ⟨_, rfl⟩ := Prod.mk.inj (List.mem_singleton.1 (Table.mem_of_find? known))
    exact ofTrees
  case treeFunctions =>
    intro name found known
    obtain ⟨_, rfl⟩ := Prod.mk.inj (List.mem_singleton.1 (Table.mem_of_find? known))
    exact ofTrees
  case conversions =>
    intro source target convert number failure known
    cases known

theorem orderly_crowded : crowded.grammar.Orderly := by
  decide

/-- In a text that uses a name of all four name spaces, the name is found where it is looked up. -/
theorem parse_resolves_crowded :
    (Reader.base.load crowded.grammar).parse "-f(x)-x" = .ok (.binary .value "-"
        (.unary .value "`" .before (.call .tree "f" [.variable "x"])) (.variable "x")) ∧
      (Expr.binary .value "-" (.unary .value "`" .before (.call .tree "f" [.variable "x"]))
        (.variable "x")).Resolves crowded (Precedences.empty.load crowded.grammar) ∧
      ∀ limit cancellation failure, (evaluate limit crowded .empty (.binary .value "-"
          (.unary .value "`" .before (.call .tree "f" [.variable "x"])) (.variable "x"))
          cancellation).result = .error (.failed failure) → failure.isUnregistered = false := by
  have parses : (Reader.base.load crowded.grammar).parse "-f(x)-x" = .ok (.binary .value "-"
      (.unary .value "`" .before (.call .tree "f" [.variable "x"])) (.variable "x")) := by
    refine (Reader.parse_eq_of_isKnown orderly_crowded "-f(x)-x" [⟨.operator .value, "-"⟩,
      ⟨.function .tree, "f"⟩, Token.opening, ⟨.variable, "x"⟩, Token.closing,
      ⟨.operator .value, "-"⟩, ⟨.variable, "x"⟩]
      (by decide) (by decide) (by decide)).trans ?_
    exact Precedences.parse_eq_ok_iff.2 ⟨_, rfl, ⟨by decide,
      ⟨by decide, by decide, trivial, trivial⟩, trivial⟩, rfl⟩
  obtain ⟨resolves, _, spares⟩ := parse_resolves (by decide) parses
  refine ⟨parses, resolves, fun limit cancellation failure fails => ?_⟩
  exact spares (reliable_crowded _) limit .empty cancellation failure
    (fun _ _ known => by cases known) fails

end Reckoner
