import Reckoner.Proofs.Evaluation.Ending
import Reckoner.Proofs.Evaluation.Journal
import Reckoner.Proofs.Evaluation.Preservation

/-!
# Reductions with assignments come to an end

The definition of a name may be larger than the expression that uses it, and may be changed while
it is expanded.  But no name is expanded within its own expansion, and only names that occur in
the expression or in a definition can ever be expanded.  So expressions become smaller until a
name is expanded, and then fewer names are left.
-/

namespace Reckoner

open Run

/-! ## Names -/

namespace Expr

mutual

/-- The names that occur in an expression. -/
def names : Expr → List String
  | .number _ => []
  | .variable name => [name]
  | .binary _ _ left right => left.names ++ right.names
  | .unary _ _ _ operand => operand.names
  | .call _ _ arguments => namesAmong arguments

/-- The names that occur in expressions. -/
def namesAmong : List Expr → List String
  | [] => []
  | first :: rest => first.names ++ namesAmong rest

end

theorem names_subset_namesAmong {trees : List Expr} {tree : Expr} (member : tree ∈ trees) :
    tree.names ⊆ namesAmong trees := by
  induction trees with
  | nil => cases member
  | cons first rest hypothesis =>
      rcases List.mem_cons.1 member with rfl | later
      · exact List.subset_append_left _ _
      · exact List.Subset.trans (hypothesis later) (List.subset_append_right _ _)

/-- What occurs in an operand occurs in the expression. -/
theorem names_operand_subset {tree operand : Expr} (member : operand ∈ tree.operands) :
    operand.names ⊆ tree.names := by
  cases tree with
  | number _ | «variable» _ => cases member
  | binary mode operator left right =>
      have either : operand = left ∨ operand = right := by simpa [operands] using member
      rcases either with rfl | rfl
      · exact List.subset_append_left _ _
      · exact List.subset_append_right _ _
  | unary mode operator fixity inner =>
      obtain rfl : operand = inner := by simpa [operands] using member
      exact List.Subset.refl _
  | call mode name arguments => exact names_subset_namesAmong member

/-- Induction over expressions and the names that are being expanded.  One may go from an
expression to its operands, and to any expression at all together with one more of finitely many
names. -/
theorem expanding_induction
    (names : List String)
    {motive : List String → Expr → Prop}
    (step : ∀ expanding tree,
      (∀ operand ∈ tree.operands, motive expanding operand) →
      (∀ name ∈ names, name ∉ expanding → ∀ body, motive (name :: expanding) body) →
        motive expanding tree)
    (expanding : List String)
    (tree : Expr) :
    motive expanding tree := by
  induction left : (names.toFinset \ expanding.toFinset).card using Nat.strongRecOn
    generalizing expanding tree with
  | ind left fewer =>
      induction size : sizeOf tree using Nat.strongRecOn generalizing tree with
      | ind size smaller =>
          refine step expanding tree ?operands ?expansions
          case operands =>
            intro operand member
            exact smaller _ (size ▸ sizeOf_operand_lt member) operand rfl
          case expansions =>
            intro name member fresh body
            refine fewer _ (left ▸ Finset.card_lt_card ?_) (name :: expanding) body rfl
            rw [List.toFinset_cons, Finset.ssubset_iff_of_subset
              (Finset.sdiff_subset_sdiff (Finset.Subset.refl _) (Finset.subset_insert _ _))]
            exact ⟨name, by simpa using ⟨member, fresh⟩, by simp⟩

end Expr

/-- The definitions of a context mention no other names. -/
def Context.Mentions (context : Context) (names : List String) : Prop :=
  context.definitions.All (fun tree => tree.names ⊆ names)

namespace Context

variable {context : Context} {names : List String}

/-- A binding mentions no new names. -/
theorem Mentions.setVariable
    (mentions : context.Mentions names)
    (name : String)
    (value : Number) :
    (context.setVariable name value).Mentions names :=
  mentions

/-- A definition mentions the names of its tree. -/
theorem Mentions.setDefinition
    {tree : Expr}
    (mentions : context.Mentions names)
    (name : String)
    (within : tree.names ⊆ names) :
    (context.setDefinition name tree).Mentions names :=
  mentions.insert name within

/-- The names of an expression and of all definitions. -/
theorem exists_mentions (context : Context) (tree : Expr) :
    ∃ names, tree.names ⊆ names ∧ context.Mentions names := by
  refine ⟨tree.names ++ Expr.namesAmong (context.definitions.entries.map Prod.snd),
    List.subset_append_left _ _, fun entry member => ?_⟩
  exact List.Subset.trans (Expr.names_subset_namesAmong (List.mem_map_of_mem member))
    (List.subset_append_right _ _)

end Context

/-- An evaluation that is in the middle of these expansions, and whose definitions mention no
other names than these. -/
structure Evaluation.Within
    (expanding names : List String)
    (evaluation : Evaluation) : Prop where
  expanding : evaluation.expanding = expanding
  mentions : evaluation.context.Mentions names

theorem Evaluation.Within.withMachine
    {expanding names : List String}
    {evaluation : Evaluation}
    (within : evaluation.Within expanding names)
    (machine : Machine) :
    ({ evaluation with machine } : Evaluation).Within expanding names :=
  ⟨within.expanding, within.mentions⟩

/-! ## Reductions -/

/-- A function of numbers that comes to an end, whatever its arguments and whatever the machine. -/
def NumberFunction.AlwaysEnds (library : Context → Library) (function : NumberFunction) : Prop :=
  ∀ context arguments machine,
    Ends (fun _ => function.apply (library context) arguments) machine fun _ _ => True

namespace Registry

/-- All registered functions of numbers come to an end. -/
def AlwaysEnds (registry : Registry) (kind : NumberKind) : Prop :=
  registry.Contains (NumberFunction.AlwaysEnds (registry.libraryIn kind)) fun _ => True

section

variable {registry : Registry} {kind : NumberKind} {expanding names : List String}
  {evaluation : Evaluation} (within : evaluation.Within expanding names)

include within

theorem ends_settled {α : Type} (result : Except Failure α) :
    Ends (fun _ => (liftM result : Eval α)) evaluation
      fun _ final => final.Within expanding names :=
  ends_lift within

theorem ends_applyToNumbers
    {function : NumberFunction}
    (ends : function.AlwaysEnds (registry.libraryIn kind))
    (name : String)
    (numbers : List Number) :
    Ends (fun _ => registry.applyToNumbers kind name function numbers) evaluation
      fun _ final => final.Within expanding names := by
  unfold applyToNumbers
  refine (ends_settled within _).bind (fun arguments after within => ?_) fun _ _ within => within
  split
  next =>
    exact ((ends after.context arguments after.machine).mono
      fun _ machine _ => within.withMachine machine).calculateIn
  next => exact ends_fail within

/-- The head of a tree ends when every function does. -/
theorem AlwaysEnds.applyHead
    (always : registry.AlwaysEnds kind)
    {tree : Expr}
    (ordinary : tree.isOrdinary = true)
    (values : List Number) :
    Ends (fun _ => registry.applyHead kind tree values) evaluation
      fun _ final => final.Within expanding names := by
  match tree, ordinary with
  | .binary .value operator _ _, _ | .unary .value operator _ _, _ =>
      simp only [Registry.applyHead]
      cases found : registry.operators.find? operator with
      | none => exact ends_fail within
      | some entry => exact ends_applyToNumbers within (always.operators.of_find? found) _ _
  | .call .value name _, _ =>
      simp only [Registry.applyHead]
      cases found : registry.functions.find? name with
      | none => exact ends_fail within
      | some function => exact ends_applyToNumbers within (always.functions.of_find? found) _ _

/-- A check ends. -/
theorem ends_reduceCheck :
    Ends (fun _ => Eval.check) evaluation fun _ final => final.Within expanding names :=
  ends_check (within.withMachine _)

/-- A name ends if the expansion of its definition does. -/
theorem ends_lookUp
    {reduce : Nat → Expr → Eval Number}
    {name : String}
    (expansions : ∀ body, name ∉ expanding → body.names ⊆ names →
      ∀ inner : Evaluation, inner.Within (name :: expanding) names →
        Ends (fun depth => reduce depth body) inner
          fun _ final => final.Within (name :: expanding) names) :
    Ends (fun depth => lookUp (reduce depth) name) evaluation
      fun _ final => final.Within expanding names := by
  unfold lookUp
  refine ends_state_bind ?_
  cases evaluation.context.values.find? name with
  | some value => exact ends_pure within
  | none =>
      cases defined : evaluation.context.definitions.find? name with
      | none => exact ends_fail within
      | some body =>
          dsimp only
          split
          next => exact ends_fail within
          next fresh =>
            rw [within.expanding, List.contains_iff_mem] at fresh
            have deeper : ({ evaluation with expanding := name :: evaluation.expanding } :
                Evaluation).Within (name :: expanding) names :=
              ⟨congrArg (name :: ·) within.expanding, within.mentions⟩
            refine ends_change_bind ?_
            refine ((expansions body fresh (within.mentions.of_find? defined) _ deeper).mono
              fun _ final held => ?_).thenChange
            exact ⟨congrArg List.tail held.expanding, held.mentions⟩

/-- An assignment ends if the reduction of its right side does. -/
theorem ends_assigns
    {tree : Expr}
    {run : Reducer → Eval Number}
    {reduce : Nat → Expr → Eval Number}
    (assigns : Assigns tree run)
    (mentioned : tree.names ⊆ names)
    (operands : ∀ operand ∈ tree.operands, ∀ inner : Evaluation, inner.Within expanding names →
      Ends (fun depth => reduce depth operand) inner
        fun _ final => final.Within expanding names) :
    Ends (fun depth => run ⟨kind, reduce depth⟩) evaluation
      fun _ final => final.Within expanding names := by
  cases assigns with
  | value name right =>
      refine (operands right (by simp [Expr.operands]) evaluation within).bind
        (fun value after held => ?_) fun _ _ held => held
      exact ends_change_bind (ends_pure ⟨held.expanding, held.mentions.setVariable name value⟩)
  | definition name right =>
      have member : right ∈ (Expr.binary .tree ":=" (.variable name) right).operands := by
        simp [Expr.operands]
      have inside := List.Subset.trans (Expr.names_operand_subset member) mentioned
      refine ends_change_bind (operands right member _ ⟨within.expanding, ?_⟩)
      exact within.mentions.setDefinition name inside

end

variable {registry : Registry} {kind : NumberKind}

/-- A reduction ends, in the middle of the same expansions as it has begun. -/
theorem AlwaysEnds.reduceWithin
    (always : registry.AlwaysEnds kind)
    (only : registry.OnlyAssigns)
    (names expanding : List String)
    (tree : Expr)
    (mentioned : tree.names ⊆ names)
    (evaluation : Evaluation)
    (within : evaluation.Within expanding names) :
    Ends (fun depth => registry.reduceWithin kind depth tree) evaluation
      fun _ final => final.Within expanding names := by
  induction expanding, tree using Expr.expanding_induction names generalizing evaluation with
  | step expanding tree operands expansions =>
      have reduces (operand : Expr) (member : operand ∈ tree.operands) (inner : Evaluation)
          (held : inner.Within expanding names) :=
        operands operand member
          (List.Subset.trans (Expr.names_operand_subset member) mentioned) inner held
      rcases tree.layers with ⟨text, rfl⟩ | ⟨name, rfl⟩ | ordinary | handedOver
      · refine Ends.succ (fun depth => reduceWithin_number depth text) ?_
        refine (ends_reduceCheck within).bind (fun _ after held => ?_) fun _ _ held => held
        exact ends_lift held
      · refine Ends.succ (fun depth => reduceWithin_variable depth name) ?_
        refine (ends_reduceCheck within).bind (fun _ after held => ?_) fun _ _ held => held
        refine ends_lookUp held fun body fresh within inner deeper => ?_
        exact expansions name (mentioned (by simp [Expr.names])) fresh body within inner deeper
      · refine Ends.succ (fun depth => reduceWithin_of_isOrdinary ordinary depth) ?_
        refine (ends_reduceCheck within).bind (fun _ after held => ?_) fun _ _ held => held
        refine (ends_settled held _).bind (fun _ after held => ?_) fun _ _ held => held
        refine (ends_mapM (fun operand member inner held => ?_) held).bind
          (fun values after held => always.applyHead held ordinary values) fun _ _ held => held
        refine (reduces operand member inner held).bind (fun value after held => ?_)
          fun _ _ held => held
        exact (ends_reduceCheck held).bind (fun _ _ held => ends_pure held) fun _ _ held => held
      · refine Ends.succ (fun depth => reduceWithin_of_isTreeValue handedOver depth) ?_
        refine (ends_reduceCheck within).bind (fun _ after held => ?_) fun _ _ held => held
        rcases only.handOver_eq handedOver with ⟨failure, fails⟩ | ⟨run, assigns, same⟩
        · simp only [fails]
          exact ends_fail held
        · simp only [same]
          exact ends_assigns held assigns mentioned reduces

end Registry

/-! ## Expansions at every moment -/

/-- A journal of an evaluation that is in the middle of these expansions, and in the moments of
which no name has ever been expanded within its own expansion. -/
structure Journal.Distinct (expanding : List String) (journal : Journal) : Prop where
  expanding : journal.evaluation.expanding = expanding
  moments : ∀ moment ∈ journal.moments, moment.evaluation.expanding.Nodup

namespace Registry

open Journal

variable {registry : Registry} {kind : NumberKind} {expanding : List String}
  {allowed : Failure → Prop}

/-- A part of an evaluation that begins and ends no expansion. -/
theorem preserves_perform
    {α : Type}
    {run : Eval α}
    (keeps : run.Preserves (fun evaluation => evaluation.expanding = expanding) allowed) :
    (perform run).Preserves (Distinct expanding) allowed :=
  Ensures.within keeps (fun _ distinct => distinct.expanding)
    fun _ _ kept distinct => ⟨kept, distinct.moments⟩

/-- A calculation has no access to what is being expanded. -/
theorem preserves_calculate
    {α : Type}
    (calculation : Calc α) :
    (Eval.calculate calculation).Preserves (fun evaluation => evaluation.expanding = expanding)
      fun _ => True :=
  preserves_within (fun _ _ _ _ => trivial) fun _ _ kept => kept

theorem preserves_reach
    (distinct : expanding.Nodup)
    (tree : Expr) :
    (reach tree).Preserves (Distinct expanding) allowed := by
  refine preserves_change fun journal held => ⟨held.expanding, ?_⟩
  rintro moment (_ | ⟨_, earlier⟩)
  · exact (show journal.evaluation.expanding.Nodup from held.expanding ▸ distinct)
  · exact held.moments moment earlier

theorem preserves_applyToNumbersNoted
    (distinct : expanding.Nodup)
    (nested : Bool)
    (name : String)
    (function : NumberFunction)
    (numbers : List Number) :
    (registry.applyToNumbersNoted kind nested name function numbers).Preserves (Distinct expanding)
      fun _ => True := by
  unfold applyToNumbersNoted
  refine Preserves.bind (preserves_ofResult fun _ _ => trivial) fun arguments => ?_
  split
  next =>
    intro limit journal held
    refine ⟨⟨held.expanding, ?_⟩, fun _ _ => trivial, fun _ _ => trivial⟩
    rintro moment (_ | ⟨_, earlier⟩)
    · exact (show journal.evaluation.expanding.Nodup from held.expanding ▸ distinct)
    · exact held.moments moment earlier
  next => exact preserves_fail trivial

theorem preserves_applyHeadNoted
    (distinct : expanding.Nodup)
    (nested : Bool)
    (tree : Expr)
    (values : List Number) :
    (registry.applyHeadNoted kind nested tree values).Preserves (Distinct expanding)
      fun _ => True := by
  match tree with
  | .binary .value operator _ _ | .unary .value operator _ _ =>
      simp only [applyHeadNoted]
      cases registry.operators.find? operator with
      | none => exact preserves_fail trivial
      | some found => exact preserves_applyToNumbersNoted distinct nested _ _ _
  | .call .value name _ =>
      simp only [applyHeadNoted]
      cases registry.functions.find? name with
      | none => exact preserves_fail trivial
      | some function => exact preserves_applyToNumbersNoted distinct nested _ _ _
  | .number _ | .variable _ | .binary .tree _ _ _ | .unary .tree _ _ _ | .call .tree _ _ =>
      exact preserves_goOn

/-- Expanding a name restores what was being expanded before. -/
theorem preserves_expand
    {α : Type}
    {run : Run Journal α}
    {name : String}
    (inside : run.Preserves (Distinct (name :: expanding)) allowed) :
    (expand name run).Preserves (Distinct expanding) allowed := by
  intro limit journal held
  let deeper := { journal.evaluation with expanding := name :: journal.evaluation.expanding }
  obtain ⟨after, _, excused⟩ :=
    inside limit ⟨deeper, journal.moments⟩ ⟨congrArg (name :: ·) held.expanding, held.moments⟩
  exact ⟨⟨congrArg List.tail after.expanding, after.moments⟩, fun _ _ => trivial, excused⟩

/-- While a definition is expanded its name stands in front of those that are being expanded
already, none of which it is. -/
theorem preserves_lookUpNoted
    {reduce : Expr → Run Journal Number}
    (distinct : expanding.Nodup)
    (reduces : ∀ body deeper, List.Nodup deeper →
      (reduce body).Preserves (Distinct deeper) fun _ => True)
    (name : String) :
    (lookUpNoted reduce name).Preserves (Distinct expanding) fun _ => True := by
  have known
      {next : Evaluation → Run Journal Number}
      (follows : ∀ evaluation, evaluation.expanding = expanding →
        (next evaluation).Preserves (Distinct expanding) fun _ => True) :
      (perform Run.state >>= next).Preserves (Distinct expanding) fun _ => True :=
    fun limit journal held => follows journal.evaluation held.expanding limit journal held
  refine known fun evaluation same => ?_
  cases evaluation.context.values.find? name with
  | some value => exact preserves_pure value
  | none =>
      cases evaluation.context.definitions.find? name with
      | none => exact preserves_fail trivial
      | some body =>
          dsimp only
          split
          next => exact preserves_fail trivial
          next fresh =>
            rw [same, List.contains_iff_mem] at fresh
            exact preserves_expand (reduces body _ (distinct.cons fresh))

/-- An assignment leaves what is being expanded as it was. -/
theorem OnlyAssigns.preserves_handOverNoted
    (only : registry.OnlyAssigns)
    {reduce : Expr → Run Journal Number}
    (reduces : ∀ tree, (reduce tree).Preserves (Distinct expanding) fun _ => True)
    {tree : Expr}
    (handedOver : tree.isTreeValue = true) :
    (registry.handOverNoted kind reduce tree).Preserves (Distinct expanding) fun _ => True := by
  rcases only.handOverNoted_eq kind handedOver with ⟨failure, fails⟩ | ⟨_, _, assigns, same⟩
  · rw [(fails reduce ⟨kind, fun _ => Run.goOn⟩).1]
    exact preserves_fail trivial
  · rw [(same reduce ⟨kind, fun _ => Run.goOn⟩).1]
    cases assigns with
    | value name right =>
        refine (reduces right).bind fun value => Preserves.bind ?_ fun _ => preserves_pure value
        exact preserves_perform (preserves_change fun _ kept => kept)
    | definition name right =>
        exact Preserves.bind (preserves_perform (preserves_change fun _ kept => kept))
          fun _ => reduces right

/-- At no moment of a reduction is a name being expanded twice. -/
theorem OnlyAssigns.preserves_reduceNoted
    (only : registry.OnlyAssigns)
    (distinct : expanding.Nodup)
    (kind : NumberKind)
    (depth : Nat)
    (nested : Bool)
    (tree : Expr) :
    (registry.reduceNoted kind depth nested tree).Preserves (Distinct expanding) fun _ => True := by
  induction depth generalizing nested tree expanding with
  | zero => exact preserves_goOn
  | succ depth hypothesis =>
      have starts {next : Run Journal Number}
          (follows : next.Preserves (Distinct expanding) fun _ => True) :
          (do reach tree; perform Eval.check; next : Run Journal Number).Preserves
            (Distinct expanding) fun _ => True :=
        Preserves.bind (preserves_reach distinct tree) fun _ =>
          Preserves.bind (preserves_perform (preserves_calculate Calc.check)) fun _ => follows
      rcases tree.layers with ⟨text, rfl⟩ | ⟨name, rfl⟩ | ordinary | handedOver
      · exact starts (preserves_ofResult fun _ _ => trivial)
      · refine starts
          (preserves_lookUpNoted distinct (fun body deeper fresh => ?_) name)
        exact hypothesis fresh nested body
      · rw [reduceNoted_of_isOrdinary ordinary]
        refine starts (Preserves.bind (preserves_ofResult fun _ _ => trivial)
          fun _ => Preserves.bind ?operands fun values =>
            preserves_applyHeadNoted distinct nested tree values)
        refine preserves_mapM fun operand _ => ?_
        refine (hypothesis distinct true operand).bind fun value => ?_
        exact Preserves.bind (preserves_perform (preserves_calculate Calc.check))
          fun _ => preserves_pure value
      · rw [reduceNoted_of_isTreeValue handedOver]
        exact starts
          (only.preserves_handOverNoted (hypothesis distinct nested) handedOver)

/-- A reduction comes to an end, whatever it assigns on the way.  At no moment of it is a name being
expanded twice, and afterwards, with a value or without one, the same names are being expanded as
before. -/
theorem reduce_restores_expanding
    (only : registry.OnlyAssigns)
    (always : registry.AlwaysEnds kind)
    (tree : Expr)
    (evaluation : Evaluation)
    (distinct : evaluation.expanding.Nodup) :
    Ends (fun _ => registry.reduce kind tree) evaluation
        (fun _ final => final.expanding = evaluation.expanding) ∧
      ∀ limit result journal,
        registry.note kind tree limit ⟨evaluation, []⟩ = (result, journal) →
          registry.reduce kind tree limit evaluation = (result, journal.evaluation) ∧
            journal.evaluation.expanding = evaluation.expanding ∧
            ∀ moment ∈ journal.moments, moment.evaluation.expanding.Nodup := by
  constructor
  · obtain ⟨names, mentioned, mentions⟩ := evaluation.context.exists_mentions tree
    exact ((always.reduceWithin only names evaluation.expanding tree mentioned evaluation
      ⟨rfl, mentions⟩).mono fun _ _ within => within.expanding).withLimit
  · intro limit result journal noted
    have begins : Distinct evaluation.expanding ⟨evaluation, []⟩ := ⟨rfl, by simp⟩
    obtain ⟨kept, _⟩ :=
      only.preserves_reduceNoted distinct kind limit false tree limit _ begins
    have ended := congrArg Prod.snd noted
    obtain rfl : (registry.reduceNoted kind limit false tree limit ⟨evaluation, []⟩).2 = journal :=
      ended
    exact ⟨only.reduce_eq noted, kept.expanding, kept.moments⟩

end Registry

namespace Standard

theorem alwaysEnds_sums (kind : NumberKind) : sums.AlwaysEnds kind := by
  refine contains_sums fun context arguments machine => ?_
  match arguments with
  | [first, second] => exact ends_lift trivial
  | [] | [_] | _ :: _ :: _ :: _ => exact ends_fail trivial

/-- The expansion of `f` defines `g` as `g + 1`. -/
def redefining : Evaluation where
  machine := ⟨.never, .empty⟩
  context := ((Context.withImplementation preciseName).setDefinition "f"
    (.binary .tree ":=" (.variable "g") (.binary .value "+" (.variable "g") (.number "1"))))
  expanding := []

/-- A definition that is made in the middle of an expansion, and depends on itself, is found out. -/
theorem reduce_restores_expanding_redefining :
    sums.OnlyAssigns ∧ sums.AlwaysEnds .precise ∧ redefining.expanding.Nodup ∧
      (sums.reduce .precise (.variable "f") 10 redefining).1 =
        .error (.failed (.recursiveDefinition "g")) ∧
      (sums.note .precise (.variable "f") 10 ⟨redefining, []⟩).2.moments.map
          (·.evaluation.expanding) = [["g", "f"], ["g", "f"], ["f"], ["f"], ["f"], []] ∧
      (sums.reduce .precise (.variable "f") 10 redefining).2.expanding = [] := by
  have distinct : redefining.expanding.Nodup := List.nodup_nil
  obtain ⟨_, restored⟩ := Registry.reduce_restores_expanding onlyAssigns_sums
    (alwaysEnds_sums .precise) (.variable "f") redefining distinct
  obtain ⟨same, empty, _⟩ := restored 10 _ _ rfl
  refine ⟨onlyAssigns_sums, alwaysEnds_sums .precise, distinct, by decide +kernel,
    by decide +kernel, ?_⟩
  rw [same]
  exact empty

end Standard
end Reckoner
