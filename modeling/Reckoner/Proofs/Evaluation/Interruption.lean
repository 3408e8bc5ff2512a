import Reckoner.Proofs.Evaluation.Journal

/-!
# Interrupted reductions

A function of numbers may cancel the evaluation that it is applied in.  What follows is on the
way back to the root: an operand is followed by a check, which fails; an expansion and an
assignment hand the value on.  So nothing else is reached, and only an application that is below
no operand at all can still give a value.
-/

namespace Reckoner

/-- Whether the evaluation is cancelled when the application is over. -/
def Application.isCancelling (application : Application) : Bool :=
  application.after.cancellation.isCancelled

/-- How an evaluation stops that goes no further than an application. -/
def Application.stop (application : Application) : Stop :=
  match application.result with
  | .ok _ => .failed .cancelled
  | .error stop => stop

/-- Whether the moment is an application that leaves the evaluation cancelled. -/
def Moment.isCancelling : Moment → Bool
  | .reached _ _ => false
  | .applied application => application.isCancelling

namespace Journal

/-- No application has left the evaluation cancelled. -/
def Clear (journal : Journal) : Prop :=
  ∀ moment ∈ journal.moments, moment.isCancelling = false

/-- The latest moment is an application that has left the evaluation cancelled, and no other one
has. -/
structure Interrupted (application : Application) (journal : Journal) : Prop where
  cancelled : journal.evaluation.machine.cancellation.isCancelled = true
  cancelling : application.isCancelling = true
  latest : ∃ earlier, journal.moments = .applied application :: earlier ∧
    ∀ moment ∈ earlier, moment.isCancelling = false

variable {α β : Type} {passes : α → Application → Prop}

/-- Once an application has left the evaluation cancelled nothing else happens in the run.  It
stops, or it ends with a value that it may hand on. -/
def Halts (passes : α → Application → Prop) (run : Run Journal α) : Prop :=
  ∀ limit start, start.Clear →
    (run limit start).2.Clear ∨
      ∃ application, (run limit start).2.Interrupted application ∧
        ((run limit start).1 = .error application.stop ∨
          ∃ value, (run limit start).1 = .ok value ∧ passes value application)

/-- Once an application has left the evaluation cancelled the run stops. -/
def Stops (run : Run Journal α) : Prop :=
  Halts (fun _ _ => False) run

/-- Nothing that is noted happens in a run. -/
theorem halts_of_quiet
    {run : Run Journal α}
    (quiet : ∀ limit start, (run limit start).2.moments = start.moments) :
    Halts passes run := by
  intro limit start clear
  exact .inl fun moment member => clear moment (quiet limit start ▸ member)

theorem halts_perform (run : Eval α) : Halts passes (perform run) :=
  halts_of_quiet fun _ _ => rfl

theorem halts_pure (value : α) : Halts passes (pure value) :=
  halts_of_quiet fun _ _ => rfl

theorem halts_fail (failure : Failure) : Halts passes (Run.fail failure) :=
  halts_of_quiet fun _ _ => rfl

theorem halts_goOn : Halts passes (Run.goOn : Run Journal α) :=
  halts_of_quiet fun _ _ => rfl

theorem halts_lift (result : Except Failure α) : Halts passes (liftM result) :=
  halts_of_quiet fun _ _ => by cases result <;> rfl

theorem halts_reach (tree : Expr) : Stops (reach tree) := by
  intro limit start clear
  refine .inl ?_
  rintro moment (_ | ⟨_, earlier⟩)
  · rfl
  · exact clear moment earlier

/-- What follows a value that is handed on is up to the run that follows. -/
theorem Halts.bind
    {run : Run Journal α}
    {next : α → Run Journal β}
    {hands : β → Application → Prop}
    (first : Halts passes run)
    (second : ∀ value, Halts hands (next value))
    (resumes : ∀ limit between application value, between.Interrupted application →
      passes value application →
        (next value limit between).2.Interrupted application ∧
          ((next value limit between).1 = .error application.stop ∨
            ∃ other, (next value limit between).1 = .ok other ∧ hands other application)) :
    Halts hands (run >>= next) := by
  intro limit start clear
  have halted := first limit start clear
  rcases ran : run limit start with ⟨stop | value, between⟩
  · rw [ran] at halted
    rw [Run.bind_of_error ran]
    rcases halted with stillClear | ⟨application, interrupted, stopped | ⟨_, impossible, _⟩⟩
    · exact .inl stillClear
    · exact .inr ⟨application, interrupted, .inl (congrArg _ (Except.error.inj stopped))⟩
    · cases impossible
  · rw [ran] at halted
    rw [Run.bind_of_ok ran]
    rcases halted with stillClear | ⟨application, interrupted, impossible | ⟨_, same, passed⟩⟩
    · exact second value limit between stillClear
    · cases impossible
    · obtain rfl := Except.ok.inj same
      exact .inr ⟨application, resumes limit between application value interrupted passed⟩

/-- A run that hands nothing on, and then another one. -/
theorem Stops.bind
    {run : Run Journal α}
    {next : α → Run Journal β}
    {hands : β → Application → Prop}
    (first : Stops run)
    (second : ∀ value, Halts hands (next value)) :
    Halts hands (run >>= next) :=
  Halts.bind first second fun _ _ _ _ _ impossible => impossible.elim

/-- A walk stops at the step that does. -/
theorem stops_mapM
    {function : α → Run Journal β}
    {values : List α}
    (every : ∀ value, Stops (function value)) :
    Stops (values.mapM function) := by
  induction values with
  | nil =>
      rw [List.mapM_nil]
      exact halts_pure []
  | cons first rest hypothesis =>
      rw [List.mapM_cons]
      exact (every first).bind fun value => Stops.bind hypothesis fun values =>
        halts_pure (value :: values)

/-- What was interrupted stays so while the cancellation stands. -/
theorem Interrupted.withEvaluation
    {application : Application}
    {journal : Journal}
    (interrupted : journal.Interrupted application)
    {evaluation : Evaluation}
    (cancelled : evaluation.machine.cancellation.isCancelled = true) :
    ({ journal with evaluation } : Journal).Interrupted application :=
  ⟨cancelled, interrupted.cancelling, interrupted.latest⟩

/-- An expansion hands the value of its definition on. -/
theorem Halts.expand
    {run : Run Journal α}
    (halts : Halts passes run)
    (name : String) :
    Halts passes (expand name run) := by
  intro limit start clear
  let deeper := { start.evaluation with expanding := name :: start.evaluation.expanding }
  rcases halts limit ⟨deeper, start.moments⟩ clear with
    stillClear | ⟨application, interrupted, ends⟩
  · exact .inl stillClear
  · exact .inr ⟨application, interrupted.withEvaluation interrupted.cancelled, ends⟩

end Journal

/-- A cancelled evaluation fails at its next check, and stays cancelled. -/
theorem check_of_cancelled
    {evaluation : Evaluation}
    (limit : Nat)
    (cancelled : evaluation.machine.cancellation.isCancelled = true) :
    ∃ after, Eval.check limit evaluation = (.error (.failed .cancelled), after) ∧
      after.machine.cancellation.isCancelled = true := by
  refine ⟨{ evaluation with machine := { evaluation.machine with
    cancellation := evaluation.machine.cancellation.next } }, ?_, ?_⟩
  · simp only [Eval.check, Eval.calculate, Run.within, Calc.check_eq, cancelled, if_pos]
  · have exhausted : evaluation.machine.cancellation = .now :=
      congrArg Cancellation.mk (beq_iff_eq.1 cancelled)
    simp only [exhausted]
    decide

namespace Registry

open Journal

/-- The value is that of an application that is nested as told. -/
def Hands (nested : Bool) (value : Number) (application : Application) : Prop :=
  application.result = .ok value ∧ application.nested = nested

variable {registry : Registry} {kind : NumberKind} {nested : Bool}
  {reduce : Expr → Run Journal Number}

/-- An application is handed the cancellation that stands. -/
theorem halts_apply
    (name : String)
    (arguments : List Number)
    (run : Eval Number) :
    Halts (Hands nested) (Journal.apply name arguments nested run) := by
  intro limit start clear
  rcases ran : run limit start.evaluation with ⟨result, evaluation⟩
  have applied : Journal.apply name arguments nested run limit start =
      (result, ⟨evaluation,
        .applied ⟨name, arguments, nested, start.evaluation, result, evaluation.machine⟩ ::
          start.moments⟩) := by
    simp only [Journal.apply, ran]
  rw [applied]
  cases cancelled : evaluation.machine.cancellation.isCancelled with
  | false =>
      refine .inl ?_
      rintro moment (_ | ⟨_, earlier⟩)
      · exact cancelled
      · exact clear moment earlier
  | true =>
      refine .inr ⟨⟨name, arguments, nested, start.evaluation, result, evaluation.machine⟩,
        ⟨cancelled, cancelled, start.moments, rfl, clear⟩, ?_⟩
      cases result with
      | error stop => exact .inl rfl
      | ok value => exact .inr ⟨value, rfl, rfl, rfl⟩

theorem halts_applyToNumbersNoted
    (name : String)
    (function : NumberFunction)
    (numbers : List Number) :
    Halts (Hands nested) (registry.applyToNumbersNoted kind nested name function numbers) := by
  unfold applyToNumbersNoted
  refine Stops.bind (halts_lift _) fun arguments => ?_
  split
  next => exact halts_apply name arguments _
  next => exact halts_fail _

theorem halts_applyHeadNoted (tree : Expr) (values : List Number) :
    Halts (Hands nested) (registry.applyHeadNoted kind nested tree values) := by
  match tree with
  | .binary .value operator _ _ | .unary .value operator _ _ =>
      simp only [applyHeadNoted]
      cases registry.operators.find? operator with
      | none => exact halts_fail _
      | some found => exact halts_applyToNumbersNoted _ _ _
  | .call .value name _ =>
      simp only [applyHeadNoted]
      cases registry.functions.find? name with
      | none => exact halts_fail _
      | some function => exact halts_applyToNumbersNoted _ _ _
  | .number _ | .variable _ | .binary .tree _ _ _ | .unary .tree _ _ _ | .call .tree _ _ =>
      exact halts_goOn

/-- Expanding a name halts when the reduction does. -/
theorem halts_lookUpNoted
    (halts : ∀ tree, Halts (Hands nested) (reduce tree))
    (name : String) :
    Halts (Hands nested) (lookUpNoted reduce name) := by
  unfold lookUpNoted
  refine Stops.bind (halts_perform _) fun evaluation => ?_
  cases evaluation.context.values.find? name with
  | some value => exact halts_pure value
  | none =>
      cases evaluation.context.definitions.find? name with
      | none => exact halts_fail _
      | some body =>
          dsimp only
          split
          next => exact halts_fail _
          next => exact (halts body).expand name

/-- The check after an operand stops what the operand has handed on. -/
theorem stops_reduceOperandNoted
    (halts : ∀ tree, Halts (Hands nested) (reduce tree))
    (operand : Expr) :
    Stops (reduceOperandNoted reduce operand) := by
  refine (halts operand).bind
    (fun value => Stops.bind (halts_perform _) fun _ => halts_pure value) ?_
  intro limit between application value interrupted handed
  obtain ⟨after, refused, stillCancelled⟩ := check_of_cancelled limit interrupted.cancelled
  have stopped : perform Eval.check limit between =
      (.error (.failed .cancelled), { between with evaluation := after }) := by
    simp only [perform, Run.within, refused]
  rw [Run.bind_of_error stopped]
  refine ⟨interrupted.withEvaluation stillCancelled, .inl ?_⟩
  simp only [Application.stop, handed.1]

/-- An assignment halts when the reduction of its value does. -/
theorem OnlyAssigns.halts_handOverNoted
    (only : registry.OnlyAssigns)
    (halts : ∀ tree, Halts (Hands nested) (reduce tree))
    {tree : Expr}
    (handedOver : tree.isTreeValue = true) :
    Halts (Hands nested) (registry.handOverNoted kind reduce tree) := by
  rcases only.handOverNoted_eq kind handedOver with ⟨failure, fails⟩ | ⟨_, _, assigns, same⟩
  · rw [(fails reduce ⟨kind, fun _ => Run.goOn⟩).1]
    exact halts_fail failure
  · rw [(same reduce ⟨kind, fun _ => Run.goOn⟩).1]
    cases assigns with
    | value name right =>
        refine (halts right).bind
          (fun value => Stops.bind (halts_perform _) fun _ => halts_pure value) ?_
        intro limit between application value interrupted handed
        exact ⟨interrupted.withEvaluation interrupted.cancelled, .inr ⟨value, rfl, handed⟩⟩
    | definition name right => exact Stops.bind (halts_perform _) fun _ => halts right

/-- What an interrupted reduction hands on is the value of an application that is below no
operand of the reduced expression. -/
theorem OnlyAssigns.halts_reduceNoted
    (only : registry.OnlyAssigns)
    (kind : NumberKind)
    (depth : Nat)
    (nested : Bool)
    (tree : Expr) :
    Halts (Hands nested) (registry.reduceNoted kind depth nested tree) := by
  induction depth generalizing nested tree with
  | zero => exact halts_goOn
  | succ depth hypothesis =>
      have starts {next : Run Journal Number} (follows : Halts (Hands nested) next) :
          Halts (Hands nested) (do reach tree; perform Eval.check; next) :=
        (halts_reach tree).bind fun _ => Stops.bind (halts_perform _) fun _ => follows
      rcases tree.layers with ⟨text, rfl⟩ | ⟨name, rfl⟩ | ordinary | handedOver
      · exact starts (halts_lift _)
      · exact starts (halts_lookUpNoted (hypothesis nested) name)
      · rw [reduceNoted_of_isOrdinary ordinary]
        refine starts (Stops.bind (halts_lift _) fun _ => ?_)
        exact (stops_mapM (stops_reduceOperandNoted (hypothesis true))).bind
          fun values => halts_applyHeadNoted tree values
      · rw [reduceNoted_of_isTreeValue handedOver]
        exact starts
          (only.halts_handOverNoted (hypothesis nested) handedOver)

/-- When an application has left the evaluation cancelled nothing else is reached: no further
operator or function is applied, nor is one handed an expression.  If this has happened below an
operand of an operator or call node of values, however far below, then the evaluation gives no
value. -/
theorem reduce_stops_after_cancellation
    (only : registry.OnlyAssigns)
    (tree : Expr)
    (evaluation : Evaluation)
    (limit : Nat)
    {result : Except Stop Number}
    {journal : Journal}
    (noted : registry.note kind tree limit ⟨evaluation, []⟩ = (result, journal)) :
    registry.reduce kind tree limit evaluation = (result, journal.evaluation) ∧
      ∀ later application earlier,
        journal.moments = later ++ .applied application :: earlier →
          application.after.cancellation.isCancelled = true →
            later = [] ∧ (application.nested = true → result = .error application.stop) := by
  refine ⟨only.reduce_eq noted, fun later application earlier split cancelling => ?_⟩
  have member : Moment.applied application ∈ journal.moments := by
    rw [split]
    simp
  have halted := only.halts_reduceNoted kind limit false tree limit ⟨evaluation, []⟩
    (by simp [Clear])
  rw [show registry.reduceNoted kind limit false tree limit ⟨evaluation, []⟩ = (result, journal)
    from noted] at halted
  rcases halted with clear | ⟨latest, interrupted, ends⟩
  · exact absurd (cancelling.symm.trans (clear _ member)) (by decide)
  · obtain ⟨before, moments, uncancelled⟩ := interrupted.latest
    rw [moments] at split
    cases later with
    | cons first rest =>
        obtain ⟨-, rfl⟩ := List.cons.inj split
        exact absurd (cancelling.symm.trans (uncancelled (.applied application) (by simp)))
          (by decide)
    | nil =>
        obtain ⟨same, -⟩ := List.cons.inj split
        obtain rfl := Moment.applied.inj same
        refine ⟨rfl, fun nested => ?_⟩
        rcases ends with stopped | ⟨value, _, handed⟩
        · exact stopped
        · exact absurd (nested.symm.trans handed.2) (by decide)

end Registry

namespace Standard

/-- A function that cancels the evaluation, and gives its argument. -/
def halting : NumberFunction :=
  .unary "halt" anyNumber (fun _ number => do
    Calc.cancel
    pure number)

/-- The definition of `f` assigns what it gets from a function that cancels. -/
def interruptible : Evaluation where
  machine := ⟨.never, .empty⟩
  context := (Context.withImplementation preciseName).setDefinition "f"
    (.binary .tree "=" (.variable "x") (.call .value "halt" [.number "2"]))
  expanding := []

/-- The definition and the assignment give their value, but the sum is not worked out. -/
theorem reduce_stops_after_cancellation_assigned :
    ∃ application earlier,
      ((sums.registerFunction "halt" halting).note .precise
        (.binary .value "+" (.variable "f") (.number "1")) 10
        ⟨interruptible, []⟩).2.moments = .applied application :: earlier ∧
      application.name = "halt" ∧
      application.after.cancellation.isCancelled = true ∧ application.nested = true ∧
      ((sums.registerFunction "halt" halting).reduce .precise
        (.binary .value "+" (.variable "f") (.number "1")) 10 interruptible).1 =
          .error application.stop ∧
      application.stop = .failed .cancelled := by
  have summary :
      (((sums.registerFunction "halt" halting).note .precise
        (.binary .value "+" (.variable "f") (.number "1")) 10 ⟨interruptible, []⟩).2.latest?).map
          (fun application => (application.name, application.isCancelling, application.nested,
            application.result)) = some ("halt", true, true, .ok (.precise ⟨2, 0⟩)) := by
    decide +kernel
  obtain ⟨application, latest, described⟩ := Option.map_eq_some_iff.1 summary
  obtain ⟨earlier, moments⟩ := Journal.exists_of_latest? latest
  simp only [Prod.mk.injEq] at described
  obtain ⟨named, cancelled, nested, gives⟩ := described
  obtain ⟨same, stops⟩ := Registry.reduce_stops_after_cancellation
    (onlyAssigns_sums.registerFunction "halt" halting)
    (.binary .value "+" (.variable "f") (.number "1")) interruptible 10 Prod.mk.eta.symm
  obtain ⟨_, stopped⟩ := stops [] application earlier moments cancelled
  refine ⟨application, earlier, moments, named, cancelled, nested, ?_, ?_⟩
  · rw [same]
    exact stopped nested
  · simp only [Application.stop, gives]

end Standard
end Reckoner
