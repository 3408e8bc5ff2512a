import Mathlib.Data.List.Induction
import Reckoner.Proofs.Evaluation.Invariance
import Reckoner.Proofs.Session.Operations
import Reckoner.Proofs.Standard.SteadyRegistry

/-!
# The implementation in use

A reload chooses the implementation of numbers by the configuration among those that are
registered.  Evaluations pass the choice on to their results, and whoever takes a result over
takes over the choice.  So the implementation in use is the one that a reload would choose as
long as no result is taken over that has been obtained under another choice.
-/

namespace Reckoner

open Run Registry

/-! ## Evaluations -/

/-- An evaluation in whose bindings an implementation is chosen. -/
def Evaluation.Uses (choice : Option String) (evaluation : Evaluation) : Prop :=
  evaluation.context.implementation = choice

/-- A function of unreduced expressions that leaves the choice of an implementation alone if
reductions do. -/
def TreeFunction.KeepsChoice (function : TreeFunction) : Prop :=
  ∀ choice reducer trees, function.admits trees = true →
    (∀ tree, (reducer.reduce tree).Preserves (Evaluation.Uses choice) fun _ => True) →
      (function.apply reducer trees).Preserves (Evaluation.Uses choice) fun _ => True

/-- Whatever is registered leaves the choice of an implementation alone. -/
def Registry.KeepsChoice (registry : Registry) : Prop :=
  registry.Contains (fun _ => True) TreeFunction.KeepsChoice

/-- What a plugin registers leaves the choice of an implementation alone. -/
def Plugin.KeepsChoice (plugin : Plugin) : Prop :=
  ∀ registry : Registry, registry.KeepsChoice → (plugin.enable registry).KeepsChoice

namespace Registry

variable {registry : Registry}

theorem KeepsChoice.invariant
    (keeps : registry.KeepsChoice)
    (choice : Option String) :
    registry.Invariant (fun _ => True) (Evaluation.Uses choice) fun _ => True := by
  refine .ofBlind (fun _ _ _ uses => uses) (fun _ _ _ _ => trivial) (fun _ _ _ _ _ => trivial) ?_
  intro reducer tree _ _ reduces
  rcases keeps.handOver_cases tree with ⟨name, function, keepsChoice, same⟩ |
    ⟨failure, _, same⟩ | same
  · rw [same, applyToTrees]
    split
    next admitted =>
      exact keepsChoice choice reducer _ admitted fun tree => reduces tree trivial
    next => exact preserves_fail trivial
  · exact same reducer ▸ preserves_fail trivial
  · exact same reducer ▸ preserves_goOn

theorem KeepsChoice.withCaches (keeps : registry.KeepsChoice) (caches : Caches) :
    ({ registry with caches } : Registry).KeepsChoice :=
  Contains.withCaches keeps caches

/-- An evaluation that succeeds has used an implementation, and it is chosen in its result. -/
theorem KeepsChoice.implementation_of_evaluate
    (keeps : registry.KeepsChoice)
    {limit : Nat}
    {context : Context}
    {tree : Expr}
    {cancellation : Cancellation}
    {result : Evaluated}
    (succeeds : (evaluate limit registry context tree cancellation).result = .ok result) :
    ∃ name, context.implementation = some name ∧ result.context.implementation = some name := by
  obtain ⟨machine, expanding, uses⟩ :=
    (keeps.invariant context.implementation).evaluate trivial rfl succeeds
  obtain ⟨kind, final, known, -, -⟩ := evaluate_eq_ok_iff.1 succeeds
  unfold kindOf at known
  split at known
  next => cases known
  next name chosen => exact ⟨name, chosen, uses.trans chosen⟩

end Registry

namespace Standard

theorem keepsChoice_treeOperators : ∀ entry ∈ treeOperators, entry.2.2.KeepsChoice := by
  simp only [treeOperators, List.forall_mem_cons, List.not_mem_nil, false_implies, implies_true,
    and_true]
  constructor
  · intro choice reducer trees admitted reduces
    obtain ⟨name, tree, rfl⟩ := isAssignment_iff.1 admitted
    refine (reduces tree).bind fun value => ?_
    exact Preserves.bind (preserves_change fun _ uses => uses) fun _ => preserves_pure value
  · intro choice reducer trees admitted reduces
    obtain ⟨name, tree, rfl⟩ := isAssignment_iff.1 admitted
    exact Preserves.bind (preserves_change fun _ uses => uses) fun _ => reduces tree

theorem keepsChoice_plugin : plugin.KeepsChoice := fun _ keeps =>
  contains_enable keeps (fun _ _ => trivial) keepsChoice_treeOperators fun _ _ => trivial

end Standard

namespace Session

variable {session : Session} {operations : List Operation}

/-! ## The choice of a reload -/

/-- The implementation that a reload would choose. -/
def preferred (session : Session) : Option String :=
  resolve session.configuration.number session.registry.implementations.names

/-- The implementation in use is the one that a reload would choose. -/
def UpToDate (session : Session) : Prop :=
  session.context.implementation = session.preferred

/-- A reload brings the implementation up to date. -/
theorem upToDate_reload (session : Session) : session.reload.UpToDate := by
  have context : session.reload.context =
      freshContext session.reload.configuration session.reload.registry := rfl
  rw [UpToDate, context, freshContext, preferred]
  split
  next name chosen => exact chosen.symm
  next none => exact none.symm

/-- A name is chosen among the registered ones, if there is any. -/
theorem resolve_cases (wanted : String) (registered : List String) :
    (registered = [] ∧ resolve wanted registered = none) ∨
      ∃ name ∈ registered, resolve wanted registered = some name := by
  unfold resolve
  split
  next known => exact .inr ⟨wanted, List.contains_iff_mem.1 known, rfl⟩
  next =>
    split
    next known => exact .inr ⟨_, List.contains_iff_mem.1 known, rfl⟩
    next =>
      cases registered with
      | nil => exact .inl ⟨rfl, rfl⟩
      | cons first rest => exact .inr ⟨first, List.mem_cons_self, rfl⟩

/-- Literals are read in the implementation that a reload would choose, and there is none only if
none is registered. -/
def ReadsAsPreferred (session : Session) : Prop :=
  (∃ name implementation, session.preferred = some name ∧
      session.registry.implementations.find? name = some implementation ∧
      session.registry.kindOf session.context = .ok implementation.kind) ∨
    session.registry.implementations.names = [] ∧
      session.registry.kindOf session.context = .error .noNumberImplementation

/-- A session that is up to date reads as preferred. -/
theorem UpToDate.readsAsPreferred (upToDate : session.UpToDate) : session.ReadsAsPreferred := by
  have used : session.context.implementation = session.preferred := upToDate
  rcases resolve_cases session.configuration.number session.registry.implementations.names with
    ⟨none, chosen⟩ | ⟨name, member, chosen⟩
  · refine .inr ⟨none, ?_⟩
    rw [Registry.kindOf, used, preferred, chosen]
  · obtain ⟨implementation, found⟩ := Table.mem_names_iff.1 member
    refine .inl ⟨name, implementation, chosen, found, ?_⟩
    rw [Registry.kindOf, used, preferred, chosen]
    dsimp only
    rw [Registry.implementation, found]
    rfl

/-- An operation that lets the plugins register anew. -/
def Operation.reloads : Operation → Bool
  | .configure _ | .reload => true
  | _ => false

/-- Only a reload changes what a reload would choose. -/
theorem preferred_perform
    (session : Session)
    {operation : Operation}
    (noReload : operation.reloads = false) :
    (session.perform operation).preferred = session.preferred := by
  cases operation with
  | addPlugin plugin =>
      exact congrArg (resolve session.configuration.number ·.implementations.names)
        (session.registry_addPlugin plugin)
  | calculate limit text deadline =>
      obtain ⟨caches, context, served⟩ := session.exists_perform_calculate_eq limit text deadline
      rw [served]
      rfl
  | removePlugin _ | evaluate _ _ _ | commit _ => rfl
  | configure _ | reload => cases noReload

/-- Without a reload the preference stands. -/
theorem preferred_performAll
    (session : Session)
    (noReload : ∀ operation ∈ operations, operation.reloads = false) :
    (session.performAll operations).preferred = session.preferred :=
  List.foldlRecOn operations Session.perform (motive := fun after : Session =>
    after.preferred = session.preferred) rfl fun after same operation member =>
      (after.preferred_perform (noReload operation member)).trans same

/-! ## Sessions whose plugins leave the choice alone -/

/-- A session in step whose plugins and registrations leave the choice of an implementation
alone. -/
structure KeepsChoice (session : Session) : Prop where
  inStep : session.InStep
  plugins : ∀ installed ∈ session.plugins.plugins, installed.plugin.KeepsChoice
  registry : session.registry.KeepsChoice

/-- An operation that adds no plugin but one that leaves the choice of an implementation alone. -/
def Operation.KeepsChoice : Operation → Prop
  | .addPlugin plugin => plugin.KeepsChoice
  | _ => True

theorem keepsChoice_registry_reload
    (clean : session.plugins.loaded = true ∨ session.plugins.registry = .empty)
    (plugins : ∀ installed ∈ session.plugins.plugins, installed.plugin.KeepsChoice) :
    session.reload.registry.KeepsChoice := by
  rw [registry_reload clean]
  refine Contains.rebuildPromotions ?_
  refine List.foldlRecOn (motive := Registry.KeepsChoice) _ _ contains_empty ?_
  intro registry keeps plugin member
  obtain ⟨installed, present, rfl⟩ := List.mem_map.1 (List.mem_filter.1 member).1
  exact plugins installed present registry keeps

theorem KeepsChoice.reload (keeps : session.KeepsChoice) : session.reload.KeepsChoice where
  inStep := inStep_reload (.inr keeps.inStep)
  plugins := by
    rw [plugins_reload]
    exact keeps.plugins
  registry := keepsChoice_registry_reload (.inl keeps.inStep.loaded) keeps.plugins

theorem mem_plugins_add
    {manager : PluginManager}
    {plugin : Plugin}
    {installed : Installed}
    (member : installed ∈ (manager.add plugin).plugins) :
    installed ∈ manager.plugins ∨ installed.plugin = plugin := by
  unfold PluginManager.add at member
  split at member
  · exact .inl member
  · rcases List.mem_append.1 member with old | new
    · exact .inl old
    · exact .inr (congrArg Installed.plugin (List.mem_singleton.1 new))

/-- Operations that keep the choice leave a session that does. -/
theorem KeepsChoice.perform
    (keeps : session.KeepsChoice)
    {operation : Operation}
    (allowed : operation.KeepsChoice) :
    (session.perform operation).KeepsChoice := by
  have inStep := keeps.inStep.perform operation
  cases operation with
  | addPlugin plugin =>
      refine ⟨inStep, fun installed member => ?_,
        session.registry_addPlugin plugin ▸ keeps.registry⟩
      rcases mem_plugins_add member with old | rfl
      · exact keeps.plugins installed old
      · exact allowed
  | removePlugin id =>
      exact ⟨inStep, fun installed member => keeps.plugins installed (List.mem_filter.1 member).1,
        keeps.registry⟩
  | configure configuration =>
      have configured : ({ session with configuration } : Session).KeepsChoice :=
        ⟨⟨keeps.inStep.loaded, keeps.inStep.reader⟩, keeps.plugins, keeps.registry⟩
      exact configured.reload
  | reload => exact keeps.reload
  | calculate limit text deadline =>
      obtain ⟨caches, context, served⟩ := session.exists_perform_calculate_eq limit text deadline
      rw [served] at inStep ⊢
      exact ⟨inStep, keeps.plugins, keeps.registry.withCaches caches⟩
  | evaluate limit tree cancellation =>
      exact ⟨inStep, keeps.plugins, keeps.registry.withCaches _⟩
  | commit result => exact ⟨inStep, keeps.plugins, keeps.registry⟩

theorem KeepsChoice.performAll
    (keeps : session.KeepsChoice)
    (allowed : ∀ operation ∈ operations, operation.KeepsChoice) :
    (session.performAll operations).KeepsChoice :=
  List.foldlRecOn operations Session.perform keeps fun _ reached operation member =>
    reached.perform (allowed operation member)

/-- Plugins that keep the choice make a session that does. -/
theorem keepsChoice_withPlugins
    (configuration : Configuration)
    {plugins : List Plugin}
    (keep : ∀ plugin ∈ plugins, plugin.KeepsChoice) :
    (withPlugins configuration plugins).KeepsChoice := by
  have added : (plugins.foldl PluginManager.add .empty).registry = .empty ∧
      ∀ installed ∈ (plugins.foldl PluginManager.add .empty).plugins,
        installed.plugin.KeepsChoice := by
    refine List.foldlRecOn (motive := fun manager : PluginManager =>
      manager.registry = .empty ∧ ∀ installed ∈ manager.plugins, installed.plugin.KeepsChoice)
      plugins PluginManager.add ⟨rfl, fun _ member => nomatch member⟩ ?_
    intro manager kept plugin listed
    refine ⟨(manager.registry_add plugin).trans kept.1, fun installed member => ?_⟩
    rcases mem_plugins_add member with old | rfl
    · exact kept.2 installed old
    · exact keep _ listed
  refine ⟨inStep_withPlugins configuration plugins, ?_,
    keepsChoice_registry_reload (.inr added.1) added.2⟩
  rw [withPlugins, plugins_reload]
  exact added.2

/-! ## One operation -/

/-- A calculation leaves the choice. -/
theorem KeepsChoice.implementation_calculateBy
    (keeps : session.KeepsChoice)
    (limit : Nat)
    (text : String)
    (deadline : Option Deadline) :
    (session.calculateBy limit text deadline).2.context.implementation =
      session.context.implementation := by
  unfold calculateBy calculateWith
  cases session.parse text with
  | error failure => rfl
  | ok tree =>
      dsimp only
      rcases session.evaluateBy_cases limit tree deadline with same | ⟨stop, cancellation, same⟩
      · rw [same]
        cases ended : (session.evaluate limit tree .never).1 with
        | error stop =>
            have left : session.evaluate limit tree .never =
                (.error stop, (session.evaluate limit tree .never).2) := Prod.ext ended rfl
            rw [left]
            rfl
        | ok result =>
            have left : session.evaluate limit tree .never =
                (.ok result, (session.evaluate limit tree .never).2) := Prod.ext ended rfl
            obtain ⟨name, chosen, passedOn⟩ := keeps.registry.implementation_of_evaluate ended
            rw [left]
            change (result.context.implementation <|> session.context.implementation) = _
            rw [passedOn, chosen]
            rfl
      · rw [same]
        rfl

/-- Operations other than commits leave the implementation in use up to date. -/
theorem KeepsChoice.upToDate_perform
    (keeps : session.KeepsChoice)
    (upToDate : session.UpToDate)
    {operation : Operation}
    (noCommit : ∀ result, operation ≠ .commit result) :
    (session.perform operation).UpToDate := by
  cases operation with
  | configure configuration => exact upToDate_reload _
  | reload => exact upToDate_reload session
  | commit result => exact absurd rfl (noCommit result)
  | calculate limit text deadline =>
      exact (keeps.implementation_calculateBy limit text deadline).trans
        (upToDate.trans (session.preferred_perform rfl).symm)
  | addPlugin plugin =>
      have same : (session.perform (.addPlugin plugin)).preferred = session.preferred :=
        session.preferred_perform rfl
      exact upToDate.trans same.symm
  | removePlugin _ | evaluate _ _ _ => exact upToDate

/-- A result that is taken over brings the implementation with it that was in use when it was
obtained. -/
theorem KeepsChoice.upToDate_commit_iff
    {earlier before : Session}
    {limit : Nat}
    {tree : Expr}
    {cancellation : Cancellation}
    {result : Evaluated}
    (keeps : earlier.KeepsChoice)
    (upToDate : earlier.UpToDate)
    (succeeds : (earlier.evaluate limit tree cancellation).1 = .ok result) :
    (before.commit result).UpToDate ↔ earlier.preferred = before.preferred := by
  obtain ⟨name, chosen, passedOn⟩ := keeps.registry.implementation_of_evaluate succeeds
  have used : (before.commit result).context.implementation = earlier.preferred := by
    change (result.context.implementation <|> before.context.implementation) = _
    rw [passedOn]
    exact chosen.symm.trans upToDate
  rw [UpToDate, used]
  rfl

/-! ## Runs -/

/-- A result that an evaluation in a run has obtained; the evaluation follows on `earlier`. -/
def ObtainedAfter
    (session : Session)
    (operations earlier : List Operation)
    (result : Evaluated) : Prop :=
  ∃ limit tree cancellation, earlier ++ [.evaluate limit tree cancellation] <+: operations ∧
    ((session.performAll earlier).evaluate limit tree cancellation).1 = .ok result

/-- A result is obtained after operations that come first. -/
theorem ObtainedAfter.isPrefix
    {earlier : List Operation}
    {result : Evaluated}
    (obtained : session.ObtainedAfter operations earlier result) :
    earlier <+: operations := by
  obtain ⟨_, _, _, inside, _⟩ := obtained
  exact (List.prefix_append _ _).trans inside

/-- The results that a run takes over have been obtained in it before. -/
def TakesOverItsOwn (session : Session) (operations : List Operation) : Prop :=
  ∀ before result, before ++ [.commit result] <+: operations →
    ∃ earlier, session.ObtainedAfter before earlier result

/-- No result is taken over that was obtained when a reload would have made another choice. -/
def TakesOverInTime (session : Session) (operations : List Operation) : Prop :=
  ∀ before result earlier, before ++ [.commit result] <+: operations →
    session.ObtainedAfter before earlier result →
      (session.performAll earlier).preferred = (session.performAll before).preferred

/-- Without a reload every result is in time. -/
theorem takesOverInTime_of_noReload
    (noReload : ∀ operation ∈ operations, operation.reloads = false) :
    session.TakesOverInTime operations := by
  intro before result earlier first obtained
  have firstBefore : before <+: operations := (List.prefix_append _ _).trans first
  have same {part : List Operation} (inside : part <+: operations) :
      (session.performAll part).preferred = session.preferred :=
    session.preferred_performAll fun operation member => noReload operation (inside.subset member)
  rw [same (obtained.isPrefix.trans firstBefore), same firstBefore]

theorem performAll_concat
    (session : Session)
    (operations : List Operation)
    (operation : Operation) :
    session.performAll (operations ++ [operation]) =
      (session.performAll operations).perform operation := by
  rw [performAll, List.foldl_append]
  rfl

/-- If all sessions of a run are up to date, results were taken over in time. -/
theorem KeepsChoice.takesOverInTime
    (keeps : session.KeepsChoice)
    (allowed : ∀ operation ∈ operations, operation.KeepsChoice)
    (upToDate : ∀ before, before <+: operations → (session.performAll before).UpToDate) :
    session.TakesOverInTime operations := by
  intro before result earlier first obtained
  have earlierFirst : earlier <+: operations :=
    obtained.isPrefix.trans ((List.prefix_append _ _).trans first)
  have keepsEarlier := keeps.performAll fun operation member =>
    allowed operation (earlierFirst.subset member)
  have committed := upToDate _ first
  rw [performAll_concat] at committed
  obtain ⟨limit, tree, cancellation, -, succeeds⟩ := obtained
  exact (keepsEarlier.upToDate_commit_iff (upToDate earlier earlierFirst) succeeds).1 committed

/-- Taking over results in time keeps all sessions of a run up to date. -/
theorem KeepsChoice.upToDate_performAll
    (keeps : session.KeepsChoice)
    (upToDate : session.UpToDate)
    (allowed : ∀ operation ∈ operations, operation.KeepsChoice)
    (own : session.TakesOverItsOwn operations)
    (inTime : session.TakesOverInTime operations)
    {before : List Operation}
    (first : before <+: operations) :
    (session.performAll before).UpToDate := by
  -- a result may come from any earlier session, so the induction carries all of these along
  suffices every : ∀ earlier, earlier <+: before → (session.performAll earlier).UpToDate from
    every before List.prefix_rfl
  have keeps (part : List Operation) (inside : part <+: operations) :
      (session.performAll part).KeepsChoice :=
    keeps.performAll fun operation member => allowed operation (inside.subset member)
  induction before using List.reverseRecOn with
  | nil =>
      intro earlier inside
      rwa [List.prefix_nil.1 inside]
  | append_singleton before operation hypothesis =>
      intro earlier inside
      have firstBefore : before <+: operations := (List.prefix_append _ _).trans first
      rcases List.prefix_concat_iff.1 inside with rfl | within
      · rw [performAll_concat]
        by_cases commits : ∃ result, operation = .commit result
        · obtain ⟨result, rfl⟩ := commits
          obtain ⟨source, obtained⟩ := own before result first
          have same := inTime before result source first obtained
          have upToDateSource := hypothesis firstBefore source obtained.isPrefix
          have keepsSource := keeps source (obtained.isPrefix.trans firstBefore)
          obtain ⟨limit, tree, cancellation, -, succeeds⟩ := obtained
          exact (keepsSource.upToDate_commit_iff upToDateSource succeeds).2 same
        · exact (keeps before firstBefore).upToDate_perform
            (hypothesis firstBefore before List.prefix_rfl) (not_exists.1 commits)
      · exact hypothesis firstBefore earlier within

/-- Let a session have plugins that leave the choice of an implementation alone, and let only
results be taken over that it has obtained.  Then its implementation is always the one that a
reload would choose, and is registered unless none is, just in case every result is taken over
while a reload would make the choice that it would have made when the result was obtained. -/
theorem upToDate_performAll_iff
    (configuration : Configuration)
    {plugins : List Plugin}
    (keep : ∀ plugin ∈ plugins, plugin.KeepsChoice)
    (allowed : ∀ operation ∈ operations, operation.KeepsChoice)
    (own : (withPlugins configuration plugins).TakesOverItsOwn operations) :
    (∀ before, before <+: operations →
      ((withPlugins configuration plugins).performAll before).UpToDate ∧
      ((withPlugins configuration plugins).performAll before).ReadsAsPreferred) ↔
      (withPlugins configuration plugins).TakesOverInTime operations := by
  have keeps := keepsChoice_withPlugins configuration keep
  constructor
  · intro upToDate
    exact keeps.takesOverInTime allowed fun before first => (upToDate before first).1
  · intro inTime before first
    have upToDate := keeps.upToDate_performAll (upToDate_reload _) allowed own inTime first
    exact ⟨upToDate, upToDate.readsAsPreferred⟩

/-- What `1` evaluates to with decimals. -/
def preciseOne : Evaluated :=
  ⟨.ofInt .precise 1, .withImplementation Standard.preciseName⟩

theorem evaluate_one :
    ((new (Configuration.default.withNumber Standard.preciseName)).evaluate 9 (.number "1")
      .never).1 = .ok preciseOne := by
  decide +kernel

/-- Decimals stay in use when a result is taken over at once. -/
theorem upToDate_committed :
    ((new (Configuration.default.withNumber Standard.preciseName)).performAll
      [.evaluate 9 (.number "1") .never, .commit preciseOne]).UpToDate := by
  refine ((upToDate_performAll_iff _ ?keep ?allowed ?own).2 ?inTime _ List.prefix_rfl).1
  case keep => simpa using Standard.keepsChoice_plugin
  case allowed => simp [Operation.KeepsChoice]
  case inTime => exact takesOverInTime_of_noReload (by simp [Operation.reloads])
  case own =>
    intro before result first
    match before, first with
    | [], first => simp at first
    | [_], first =>
        simp only [List.singleton_append, List.cons_prefix_cons, List.prefix_nil, and_true] at first
        obtain ⟨rfl, same⟩ := first
        cases same
        exact ⟨[], 9, .number "1", .never, List.prefix_rfl, evaluate_one⟩
    | _ :: _ :: rest, first => simp at first

/-- A result that was obtained with decimals brings them back after the session has been
configured to use floating point numbers. -/
theorem not_upToDate_committed :
    let session := (new (Configuration.default.withNumber Standard.preciseName)).performAll
      [.evaluate 9 (.number "1") .never, .configure .default, .commit preciseOne]
    ((new (Configuration.default.withNumber Standard.preciseName)).evaluate 9 (.number "1")
      .never).1 = .ok preciseOne ∧
      session.context.implementation = some Standard.preciseName ∧
      session.preferred = some Standard.naiveName ∧ ¬session.UpToDate := by
  intro session
  have used : session.context.implementation = some Standard.preciseName := rfl
  have preferred : session.preferred = some Standard.naiveName := by
    decide +kernel
  refine ⟨evaluate_one, used, preferred, ?_⟩
  rw [UpToDate, used, preferred]
  decide

end Session
end Reckoner
