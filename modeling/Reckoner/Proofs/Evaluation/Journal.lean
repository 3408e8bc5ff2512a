import Reckoner.Proofs.Evaluation.Assignments

/-!
# Journals of reductions

A journal stands next to an evaluation and holds what has happened in it: which expressions were
about to be reduced, and which operators and functions have been applied.  A noted reduction
writes it without taking notice of it, so that it goes the same way as the reduction itself.

Only assignments are noted in detail; any other node of unreduced expressions counts as one that
fails at once, as it does where the assignments are the only functions of this sort.
-/

namespace Reckoner

/-- An operator or a function has been applied to numbers: its name, whether this has happened
below an operand of an operator or call node of values, how the evaluation was before, how the
application has ended, and the machine that it has left. -/
structure Application where
  name : String
  arguments : List Number
  nested : Bool
  before : Evaluation
  result : Except Stop Number
  after : Machine

/-- Something that happens in a reduction. -/
inductive Moment
  /-- An expression is about to be reduced. -/
  | reached (tree : Expr) (evaluation : Evaluation)
  | applied (application : Application)

/-- The evaluation as it is at a moment, or was before the application. -/
def Moment.evaluation : Moment → Evaluation
  | .reached _ evaluation => evaluation
  | .applied application => application.before

/-- An evaluation and the moments of it so far, the latest one first. -/
structure Journal where
  evaluation : Evaluation
  moments : List Moment

namespace Journal

/-- A part of an evaluation in which there is nothing to note. -/
def perform {α : Type} (run : Eval α) : Run Journal α :=
  Run.within Journal.evaluation (fun evaluation journal => { journal with evaluation }) run

/-- Note that an expression is about to be reduced. -/
def reach (tree : Expr) : Run Journal Unit :=
  Run.change (fun journal =>
    { journal with moments := .reached tree journal.evaluation :: journal.moments })

/-- Note the application that a part of an evaluation consists of. -/
def apply (name : String) (arguments : List Number) (nested : Bool) (run : Eval Number) :
    Run Journal Number :=
  fun limit journal =>
    match run limit journal.evaluation with
    | (result, evaluation) =>
        (result,
          ⟨evaluation,
            .applied ⟨name, arguments, nested, journal.evaluation, result, evaluation.machine⟩ ::
              journal.moments⟩)

/-- The application that the latest moment is. -/
def latest? (journal : Journal) : Option Application :=
  match journal.moments with
  | .applied application :: _ => some application
  | _ => none

theorem exists_of_latest?
    {journal : Journal}
    {application : Application}
    (latest : journal.latest? = some application) :
    ∃ earlier, journal.moments = .applied application :: earlier := by
  obtain ⟨evaluation, _ | ⟨_ | other, earlier⟩⟩ := journal
  · cases latest
  · cases latest
  · obtain rfl := Option.some.inj latest
    exact ⟨earlier, rfl⟩

/-- What happens while a name is expanded. -/
def expand {α : Type} (name : String) (run : Run Journal α) : Run Journal α := do
  perform (Run.change (fun before => { before with expanding := name :: before.expanding }))
  run.thenChange (fun after =>
    { after with
      evaluation := { after.evaluation with expanding := after.evaluation.expanding.tail } })

end Journal

namespace Registry

open Journal

variable {registry : Registry} {kind : NumberKind}

/-- Apply a function to numbers, and note it. -/
def applyToNumbersNoted
    (registry : Registry)
    (kind : NumberKind)
    (nested : Bool)
    (name : String)
    (function : NumberFunction)
    (numbers : List Number) :
    Run Journal Number := do
  let arguments ← registry.promotions.promote numbers
  if function.admits arguments then
    Journal.apply name arguments nested
      (Eval.calculateIn fun context => function.apply (registry.libraryIn kind context) arguments)
  else Run.fail (.badArguments name)

/-- Apply what stands at the head of an operator or call node of values, and note it. -/
def applyHeadNoted
    (registry : Registry)
    (kind : NumberKind)
    (nested : Bool) :
    Expr → List Number → Run Journal Number
  | .binary .value operator _ _, values
  | .unary .value operator _ _, values =>
      match registry.operators.find? operator with
      | none => Run.fail (.unknownOperator operator)
      | some found => registry.applyToNumbersNoted kind nested operator found.function values
  | .call .value name _, values =>
      match registry.functions.find? name with
      | none => Run.fail (.unknownFunction name)
      | some function => registry.applyToNumbersNoted kind nested name function values
  | _, _ => Run.goOn

/-- The value of a name, with what happens in the expansion of its definition. -/
def lookUpNoted (reduce : Expr → Run Journal Number) (name : String) : Run Journal Number := do
  let evaluation ← perform Run.state
  match evaluation.context.values.find? name with
  | some value => pure value
  | none =>
      match evaluation.context.definitions.find? name with
      | none => Run.fail (.undefinedVariable name)
      | some tree =>
          if evaluation.expanding.contains name then Run.fail (.recursiveDefinition name)
          else expand name (reduce tree)

/-- The value of an operand, after which the evaluation may stop. -/
def reduceOperandNoted (reduce : Expr → Run Journal Number) (operand : Expr) :
    Run Journal Number := do
  let value ← reduce operand
  perform Eval.check
  pure value

/-- Carry an assignment out, with what happens in the reduction of its right side. -/
def handOverNoted
    (registry : Registry)
    (kind : NumberKind)
    (reduce : Expr → Run Journal Number) :
    Expr → Run Journal Number
  | .binary .tree operator (.variable name) tree =>
      match registry.treeOperators.find? operator with
      | none => Run.fail (.unknownOperator operator)
      | some _ =>
          if operator = "=" then do
            let value ← reduce tree
            perform (Eval.changeContext (·.setVariable name value))
            pure value
          else do
            perform (Eval.changeContext (·.setDefinition name tree))
            reduce tree
  | tree => perform (registry.handOver ⟨kind, fun _ => Run.goOn⟩ tree)

/-- Reduce an expression, at most to a depth, and note what happens; `nested` tells whether the
expression stands below an operand of an operator or call node of values. -/
def reduceNoted (registry : Registry) (kind : NumberKind) :
    (depth : Nat) → (nested : Bool) → Expr → Run Journal Number
  | 0, _, _ => Run.goOn
  | depth + 1, nested, tree => do
      reach tree
      perform Eval.check
      match tree with
      | .number text => Number.parse kind text
      | .variable name => lookUpNoted (reduceNoted registry kind depth nested) name
      | tree =>
          if tree.isTreeValue then
            registry.handOverNoted kind (reduceNoted registry kind depth nested) tree
          else do
            registry.expect tree
            let values ← tree.operands.mapM
              (reduceOperandNoted (reduceNoted registry kind depth true))
            registry.applyHeadNoted kind nested tree values

/-- Reduce an expression, and note what happens. -/
def note (registry : Registry) (kind : NumberKind) (tree : Expr) : Run Journal Number :=
  Run.withLimit (fun limit => registry.reduceNoted kind limit false tree)

end Registry

/-! ## Noting changes nothing -/

namespace Journal

variable {α β : Type}

/-- A noted run that goes the same way as a run. -/
def Follows (noted : Run Journal α) (run : Eval α) : Prop :=
  ∀ limit journal, (noted limit journal).1 = (run limit journal.evaluation).1 ∧
    (noted limit journal).2.evaluation = (run limit journal.evaluation).2

theorem follows_perform (run : Eval α) : Follows (perform run) run :=
  fun _ _ => ⟨rfl, rfl⟩

theorem follows_pure (value : α) : Follows (pure value) (pure value) :=
  fun _ _ => ⟨rfl, rfl⟩

theorem follows_fail (failure : Failure) : Follows (Run.fail failure) (Run.fail failure : Eval α) :=
  fun _ _ => ⟨rfl, rfl⟩

theorem follows_lift (result : Except Failure α) : Follows (liftM result) (liftM result) := by
  cases result <;> exact fun _ _ => ⟨rfl, rfl⟩

theorem follows_goOn : Follows Run.goOn (Run.goOn : Eval α) :=
  fun _ _ => ⟨rfl, rfl⟩

theorem follows_apply
    (name : String)
    (arguments : List Number)
    (nested : Bool)
    (run : Eval Number) :
    Follows (Journal.apply name arguments nested run) run :=
  fun _ _ => ⟨rfl, rfl⟩

/-- Notes along two runs are notes along both. -/
theorem Follows.bind
    {noted : Run Journal α}
    {run : Eval α}
    {notedNext : α → Run Journal β}
    {next : α → Eval β}
    (first : Follows noted run)
    (second : ∀ value, Follows (notedNext value) (next value)) :
    Follows (noted >>= notedNext) (run >>= next) := by
  intro limit journal
  obtain ⟨sameResult, sameAfter⟩ := first limit journal
  rcases ran : noted limit journal with ⟨stop | value, after⟩ <;>
    rcases goes : run limit journal.evaluation with ⟨other | result, between⟩ <;>
    rw [ran, goes] at sameResult sameAfter
  · obtain rfl := Except.error.inj sameResult
    rw [Run.bind_of_error ran, Run.bind_of_error goes]
    exact ⟨rfl, sameAfter⟩
  · cases sameResult
  · cases sameResult
  · obtain rfl := Except.ok.inj sameResult
    obtain rfl : after.evaluation = between := sameAfter
    rw [Run.bind_of_ok ran, Run.bind_of_ok goes]
    exact second value limit after

/-- What is written before a run goes on does not show. -/
theorem Follows.reach
    {noted : Run Journal α}
    {run : Eval α}
    (follows : Follows noted run)
    (tree : Expr) :
    Follows (Journal.reach tree >>= fun _ => noted) run :=
  fun limit journal => follows limit { journal with moments := _ }

/-- A noted change does to the evaluation what the change does. -/
theorem Follows.thenChange
    {noted : Run Journal α}
    {run : Eval α}
    {notedUpdate : Journal → Journal}
    {update : Evaluation → Evaluation}
    (follows : Follows noted run)
    (same : ∀ journal, (notedUpdate journal).evaluation = update journal.evaluation) :
    Follows (noted.thenChange notedUpdate) (run.thenChange update) := by
  intro limit journal
  obtain ⟨sameResult, sameAfter⟩ := follows limit journal
  exact ⟨sameResult, (same _).trans (congrArg update sameAfter)⟩

theorem follows_mapM
    {noted : α → Run Journal β}
    {run : α → Eval β}
    {values : List α}
    (every : ∀ value ∈ values, Follows (noted value) (run value)) :
    Follows (values.mapM noted) (values.mapM run) := by
  induction values with
  | nil =>
      rw [List.mapM_nil, List.mapM_nil]
      exact follows_pure []
  | cons first rest hypothesis =>
      rw [List.mapM_cons, List.mapM_cons]
      refine (every first List.mem_cons_self).bind fun value => ?_
      refine (hypothesis fun other member => every other (List.mem_cons_of_mem first member)).bind
        fun values => ?_
      exact follows_pure (value :: values)

end Journal

namespace Registry

open Journal

variable {registry : Registry} {kind : NumberKind}

theorem follows_applyToNumbersNoted
    (nested : Bool)
    (name : String)
    (function : NumberFunction)
    (numbers : List Number) :
    Follows (registry.applyToNumbersNoted kind nested name function numbers)
      (registry.applyToNumbers kind name function numbers) := by
  unfold applyToNumbersNoted applyToNumbers
  refine (follows_lift _).bind fun arguments => ?_
  split
  next => exact follows_apply name arguments nested _
  next => exact follows_fail _

/-- Noting an application changes nothing about it. -/
theorem follows_applyHeadNoted (nested : Bool) (tree : Expr) (values : List Number) :
    Follows (registry.applyHeadNoted kind nested tree values)
      (registry.applyHead kind tree values) := by
  match tree with
  | .binary .value operator _ _ | .unary .value operator _ _ =>
      simp only [applyHeadNoted, applyHead]
      cases registry.operators.find? operator with
      | none => exact follows_fail _
      | some found => exact follows_applyToNumbersNoted nested operator found.function values
  | .call .value name _ =>
      simp only [applyHeadNoted, applyHead]
      cases registry.functions.find? name with
      | none => exact follows_fail _
      | some function => exact follows_applyToNumbersNoted nested name function values
  | .number _ | .variable _ | .binary .tree _ _ _ | .unary .tree _ _ _ | .call .tree _ _ =>
      exact follows_goOn

/-- Noting an expansion changes nothing about it. -/
theorem follows_lookUpNoted
    {noted : Expr → Run Journal Number}
    {reduce : Expr → Eval Number}
    (follows : ∀ tree, Follows (noted tree) (reduce tree))
    (name : String) :
    Follows (lookUpNoted noted name) (lookUp reduce name) := by
  unfold lookUpNoted lookUp
  refine (follows_perform _).bind fun evaluation => ?_
  cases evaluation.context.values.find? name with
  | some value => exact follows_pure value
  | none =>
      cases evaluation.context.definitions.find? name with
      | none => exact follows_fail _
      | some tree =>
          dsimp only
          split
          next => exact follows_fail _
          next =>
            refine (follows_perform _).bind fun _ => ?_
            exact (follows tree).thenChange fun _ => rfl

theorem follows_reduceOperandNoted
    {noted : Expr → Run Journal Number}
    {reduce : Expr → Eval Number}
    (follows : ∀ tree, Follows (noted tree) (reduce tree))
    (operand : Expr) :
    Follows (reduceOperandNoted noted operand) (reduceOperand reduce operand) := by
  refine (follows operand).bind fun value => ?_
  exact (follows_perform _).bind fun _ => follows_pure value

/-- What is noted of an assignment, next to what is done. -/
inductive AssignsNoted :
    Expr → ((Expr → Run Journal Number) → Run Journal Number) → (Reducer → Eval Number) → Prop
  | value (name : String) (tree : Expr) :
      AssignsNoted (.binary .tree "=" (.variable name) tree)
        (fun reduce => do
          let value ← reduce tree
          perform (Eval.changeContext (·.setVariable name value))
          pure value)
        (fun reducer => do
          let value ← reducer.reduce tree
          Eval.changeContext (·.setVariable name value)
          pure value)
  | definition (name : String) (tree : Expr) :
      AssignsNoted (.binary .tree ":=" (.variable name) tree)
        (fun reduce => do
          perform (Eval.changeContext (·.setDefinition name tree))
          reduce tree)
        (fun reducer => do
          Eval.changeContext (·.setDefinition name tree)
          reducer.reduce tree)

/-- A node of unreduced expressions is an assignment or fails at once, noted or not. -/
theorem OnlyAssigns.handOverNoted_eq
    (only : registry.OnlyAssigns)
    (kind : NumberKind)
    {tree : Expr}
    (handedOver : tree.isTreeValue = true) :
    (∃ failure, ∀ reduce reducer, registry.handOverNoted kind reduce tree = Run.fail failure ∧
      registry.handOver reducer tree = Run.fail failure) ∨
      ∃ noted run, AssignsNoted tree noted run ∧ ∀ reduce reducer,
        registry.handOverNoted kind reduce tree = noted reduce ∧
          registry.handOver reducer tree = run reducer := by
  have plainly := only.handOver_eq handedOver
  have refused
      (same : ∀ reduce, registry.handOverNoted kind reduce tree =
        perform (registry.handOver ⟨kind, fun _ => Run.goOn⟩ tree))
      (different : ∀ run, ¬Assigns tree run) :
      ∃ failure, ∀ reduce reducer, registry.handOverNoted kind reduce tree = Run.fail failure ∧
        registry.handOver reducer tree = Run.fail failure := by
    obtain ⟨failure, fails⟩ := plainly.resolve_right fun ⟨run, assigns, _⟩ => different run assigns
    refine ⟨failure, fun reduce reducer => ⟨?_, fails reducer⟩⟩
    rw [same, fails]
    rfl
  cases tree with
  | number _ | «variable» _ => cases handedOver
  | unary mode _ _ _ | call mode _ _ =>
      cases mode with
      | value => cases handedOver
      | tree => exact .inl (refused (fun _ => rfl) nofun)
  | binary mode operator left right =>
      cases mode with
      | value => cases handedOver
      | tree =>
          cases left with
          | number _ | binary _ _ _ _ | unary _ _ _ _ | call _ _ _ =>
              exact .inl (refused (fun _ => rfl) nofun)
          | «variable» name =>
              simp only [handOverNoted, handOver]
              cases found : registry.treeOperators.find? operator with
              | none => exact .inl ⟨_, fun _ _ => ⟨rfl, rfl⟩⟩
              | some entry =>
                  dsimp only
                  rcases only.operators operator entry found with ⟨rfl, same⟩ | ⟨rfl, same⟩
                  · exact .inr ⟨_, _, .value name right, fun _ _ => ⟨if_pos rfl, by rw [same]; rfl⟩⟩
                  · refine .inr ⟨_, _, .definition name right,
                      fun _ _ => ⟨if_neg ?_, by rw [same]; rfl⟩⟩
                    decide

/-- Where assignments are the only functions of unreduced expressions, they are carried out as
they are registered. -/
theorem OnlyAssigns.follows_handOverNoted
    (only : registry.OnlyAssigns)
    {noted : Expr → Run Journal Number}
    {reduce : Expr → Eval Number}
    (follows : ∀ tree, Follows (noted tree) (reduce tree))
    {tree : Expr}
    (handedOver : tree.isTreeValue = true) :
    Follows (registry.handOverNoted kind noted tree) (registry.handOver ⟨kind, reduce⟩ tree) := by
  rcases only.handOverNoted_eq kind handedOver with ⟨failure, fails⟩ | ⟨_, _, assigns, same⟩
  · rw [(fails noted ⟨kind, reduce⟩).1, (fails noted ⟨kind, reduce⟩).2]
    exact follows_fail failure
  · rw [(same noted ⟨kind, reduce⟩).1, (same noted ⟨kind, reduce⟩).2]
    cases assigns with
    | value name right =>
        refine (follows right).bind fun value => ?_
        exact (follows_perform _).bind fun _ => follows_pure value
    | definition name right => exact (follows_perform _).bind fun _ => follows right

theorem reduceNoted_of_isOrdinary
    {tree : Expr}
    (ordinary : tree.isOrdinary = true)
    (depth : Nat)
    (nested : Bool) :
    registry.reduceNoted kind (depth + 1) nested tree = (do
      reach tree
      perform Eval.check
      registry.expect tree
      let values ← tree.operands.mapM (reduceOperandNoted (registry.reduceNoted kind depth true))
      registry.applyHeadNoted kind nested tree values) := by
  match tree, ordinary with
  | .binary .value _ _ _, _ | .unary .value _ _ _, _ | .call .value _ _, _ => rfl

theorem reduceNoted_of_isTreeValue
    {tree : Expr}
    (handedOver : tree.isTreeValue = true)
    (depth : Nat)
    (nested : Bool) :
    registry.reduceNoted kind (depth + 1) nested tree = (do
      reach tree
      perform Eval.check
      registry.handOverNoted kind (registry.reduceNoted kind depth nested) tree) := by
  match tree, handedOver with
  | .binary .tree _ _ _, _ | .unary .tree _ _ _, _ | .call .tree _ _, _ => rfl

/-- A noted reduction goes the same way as the reduction. -/
theorem OnlyAssigns.follows_reduceNoted
    (only : registry.OnlyAssigns)
    (kind : NumberKind)
    (depth : Nat)
    (nested : Bool)
    (tree : Expr) :
    Follows (registry.reduceNoted kind depth nested tree)
        (registry.reduceWithin kind depth tree) := by
  induction depth generalizing nested tree with
  | zero => exact follows_goOn
  | succ depth hypothesis =>
      rcases tree.layers with ⟨text, rfl⟩ | ⟨name, rfl⟩ | ordinary | handedOver
      · refine Follows.reach ?_ _
        exact (follows_perform _).bind fun _ => follows_lift _
      · refine Follows.reach ?_ _
        exact (follows_perform _).bind fun _ => follows_lookUpNoted (hypothesis nested) name
      · rw [reduceNoted_of_isOrdinary ordinary, reduceWithin_of_isOrdinary ordinary]
        refine Follows.reach ?_ _
        refine (follows_perform _).bind fun _ => ?_
        refine (follows_lift _).bind fun _ => ?_
        refine (follows_mapM fun operand _ =>
          follows_reduceOperandNoted (hypothesis true) operand).bind fun values => ?_
        exact follows_applyHeadNoted nested tree values
      · rw [reduceNoted_of_isTreeValue handedOver, reduceWithin_of_isTreeValue handedOver]
        refine Follows.reach ?_ _
        exact (follows_perform _).bind fun _ =>
          only.follows_handOverNoted (hypothesis nested) handedOver

/-- A noted reduction answers as the reduction does. -/
theorem OnlyAssigns.reduce_eq
    (only : registry.OnlyAssigns)
    {tree : Expr}
    {limit : Nat}
    {evaluation : Evaluation}
    {result : Except Stop Number}
    {journal : Journal}
    (noted : registry.note kind tree limit ⟨evaluation, []⟩ = (result, journal)) :
    registry.reduce kind tree limit evaluation = (result, journal.evaluation) := by
  obtain ⟨sameResult, sameAfter⟩ :=
    only.follows_reduceNoted kind limit false tree limit ⟨evaluation, []⟩
  have result_eq := congrArg Prod.fst noted
  have journal_eq := congrArg Prod.snd noted
  exact Prod.ext (sameResult.symm.trans result_eq)
    (sameAfter.symm.trans (congrArg Journal.evaluation journal_eq))

end Registry
end Reckoner
