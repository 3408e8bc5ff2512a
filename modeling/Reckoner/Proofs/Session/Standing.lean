import Reckoner.Proofs.Evaluation.Bindings
import Reckoner.Proofs.Session.History
import Reckoner.Proofs.Session.Operations

/-!
# Standard sessions

Whatever is done with a session of the standard plugin, short of adding other plugins, it has
what a new session has registered: the standard registrations, or none while the plugin is left
out.  A calculation that succeeds replaces its bindings by those that the evaluation has come to,
and one that fails leaves them.
-/

namespace Reckoner

/-! ## Registrations -/

namespace Registry

theorem OnlyAssigns.withCaches
    {registry : Registry}
    (only : registry.OnlyAssigns)
    (caches : Caches) :
    ({ registry with caches } : Registry).OnlyAssigns :=
  ⟨only.operators, only.functions⟩

theorem onlyAssigns_empty : (Registry.empty.rebuildPromotions .byName).OnlyAssigns where
  operators name found registered := by
    have missing : (Registry.empty.rebuildPromotions .byName).treeOperators.find? name = none := rfl
    rw [missing] at registered
    cases registered
  functions := fun _ => rfl

end Registry

theorem Standard.onlyAssigns_registry : Standard.registry.OnlyAssigns :=
  onlyAssigns_of_treeOperators rfl fun _ => rfl

namespace Session

open Run Registry

variable {session : Session}

/-- In a new session operators on trees only assign. -/
theorem onlyAssigns_new (configuration : Configuration) :
    (new configuration).registry.OnlyAssigns := by
  rw [registry_new]
  split
  · exact onlyAssigns_empty
  · exact Standard.onlyAssigns_registry

/-! ## Reachable sessions -/

/-- An operation that adds no plugin but the standard one. -/
def Operation.IsStandard : Operation → Prop
  | .addPlugin plugin => plugin = Standard.plugin
  | _ => True

/-- A session in step that has no plugin but the standard one, and the registrations of a new
session. -/
structure IsStandard (session : Session) : Prop where
  inStep : session.InStep
  plugins : session.plugins.plugins.map Installed.plugin = [] ∨
    session.plugins.plugins.map Installed.plugin = [Standard.plugin]
  registry : ∃ configuration caches,
    session.registry = { (new configuration).registry with caches }
  sound : ∃ sound, session.IsSound sound

/-- In a standard session operators on trees only assign. -/
theorem IsStandard.onlyAssigns (standard : session.IsStandard) : session.registry.OnlyAssigns := by
  obtain ⟨configuration, caches, same⟩ := standard.registry
  rw [same]
  exact (onlyAssigns_new configuration).withCaches caches

/-- What becomes of a session when its plugins register anew is what a new session has
registered. -/
theorem exists_registry_reload
    (loaded : session.plugins.loaded = true)
    (plugins : session.plugins.plugins.map Installed.plugin = [] ∨
      session.plugins.plugins.map Installed.plugin = [Standard.plugin]) :
    ∃ configuration, session.reload.registry = (new configuration).registry := by
  rw [registry_reload (.inl loaded)]
  rcases plugins with none | one
  · refine ⟨Configuration.default.withDisabled Standard.pluginId, ?_⟩
    rw [none, registry_new, if_pos (by decide +kernel)]
    rfl
  · have named : Standard.plugin.id = Standard.pluginId := rfl
    refine ⟨session.configuration, ?_⟩
    rw [one, registry_new, List.filter_cons, List.filter_nil, named]
    cases session.configuration.disabled.names.contains Standard.pluginId with
    | true => rfl
    | false =>
        rw [Bool.not_false, if_pos rfl, if_neg Bool.false_ne_true, List.foldl_cons, List.foldl_nil]
        rfl

theorem IsStandard.reload (standard : session.IsStandard) : session.reload.IsStandard := by
  obtain ⟨configuration, same⟩ := exists_registry_reload standard.inStep.loaded standard.plugins
  have plugins := standard.plugins
  rw [← session.plugins_reload] at plugins
  obtain ⟨sound, isSound⟩ := exists_isSound_new configuration
  have soundAfter : session.reload.IsSound sound := by
    refine ⟨?_, ?_⟩
    · rw [same]
      exact isSound.steady
    · rw [same]
      exact isSound.held
  exact ⟨inStep_reload (.inr standard.inStep), plugins,
    ⟨configuration, (new configuration).registry.caches, same⟩, sound, soundAfter⟩

/-- Other caches and other bindings make no difference to what is registered. -/
theorem IsStandard.serve
    (standard : session.IsStandard)
    {caches : Caches}
    (sound : ∃ sound, (session.keepCaches caches).IsSound sound)
    (context : Context) :
    ({ session.keepCaches caches with context } : Session).IsStandard where
  inStep := ⟨standard.inStep.loaded, standard.inStep.reader⟩
  plugins := standard.plugins
  registry := by
    obtain ⟨configuration, before, same⟩ := standard.registry
    exact ⟨configuration, caches,
      congrArg (fun registry : Registry => { registry with caches }) same⟩
  sound := by
    obtain ⟨sound, isSound⟩ := sound
    exact ⟨sound, isSound.steady, isSound.held⟩

theorem plugins_addPlugin_standard
    (plugins : session.plugins.plugins.map Installed.plugin = [] ∨
      session.plugins.plugins.map Installed.plugin = [Standard.plugin]) :
    (session.addPlugin Standard.plugin).plugins.plugins.map Installed.plugin =
      [Standard.plugin] := by
  have added : (session.addPlugin Standard.plugin).plugins.plugins =
      if session.plugins.contains Standard.plugin.id then session.plugins.plugins
      else session.plugins.plugins ++ [⟨session.plugins.nextSerial, Standard.plugin⟩] := by
    change (session.plugins.add Standard.plugin).plugins = _
    rw [PluginManager.add]
    split <;> rfl
  have known : session.plugins.contains Standard.plugin.id =
      (session.plugins.plugins.map Installed.plugin).any (·.id == Standard.plugin.id) := by
    rw [PluginManager.contains, List.any_map]
    rfl
  rw [added, known]
  rcases plugins with none | one
  · rw [none, List.any_nil, if_neg Bool.false_ne_true, List.map_append, none]
    rfl
  · rw [one, List.any_cons, beq_self_eq_true, Bool.true_or, if_pos rfl, one]

theorem plugins_removePlugin
    (plugins : session.plugins.plugins.map Installed.plugin = [] ∨
      session.plugins.plugins.map Installed.plugin = [Standard.plugin])
    (id : String) :
    (session.removePlugin id).plugins.plugins.map Installed.plugin = [] ∨
      (session.removePlugin id).plugins.plugins.map Installed.plugin = [Standard.plugin] := by
  have removed : (session.removePlugin id).plugins.plugins.map Installed.plugin =
      (session.plugins.plugins.map Installed.plugin).filter (·.id != id) := by
    rw [List.filter_map]
    rfl
  rw [removed]
  rcases plugins with none | one
  · exact .inl (by rw [none, List.filter_nil])
  · rw [one, List.filter_cons, List.filter_nil]
    split
    · exact .inr rfl
    · exact .inl rfl

/-- Standard operations leave a session standard. -/
theorem IsStandard.perform
    (standard : session.IsStandard)
    {operation : Operation}
    (allowed : operation.IsStandard) :
    (session.perform operation).IsStandard := by
  obtain ⟨sound, isSound⟩ := standard.sound
  cases operation with
  | addPlugin plugin =>
      obtain rfl : plugin = Standard.plugin := allowed
      have sameRegistry := session.registry_addPlugin Standard.plugin
      refine ⟨standard.inStep.perform _, .inr ?_, ?_, sound, ?_, ?_⟩
      · exact plugins_addPlugin_standard standard.plugins
      · exact sameRegistry ▸ standard.registry
      · exact sameRegistry ▸ isSound.steady
      · exact sameRegistry ▸ isSound.held
  | removePlugin id =>
      exact ⟨standard.inStep.perform _, plugins_removePlugin standard.plugins id, standard.registry,
        sound, isSound.steady, isSound.held⟩
  | configure configuration =>
      have configured : ({ session with configuration } : Session).IsStandard :=
        ⟨⟨standard.inStep.loaded, standard.inStep.reader⟩, standard.plugins, standard.registry,
          sound, isSound.steady, isSound.held⟩
      exact configured.reload
  | reload => exact standard.reload
  | calculate limit text deadline =>
      change (session.calculateBy limit text deadline).2.IsStandard
      have soundAfter := isSound.calculateBy limit text deadline
      obtain ⟨caches, context, after⟩ := session.exists_calculateBy_eq limit text deadline
      rw [after] at soundAfter ⊢
      exact standard.serve ⟨sound, soundAfter.steady, soundAfter.held⟩ context
  | evaluate limit tree cancellation =>
      obtain ⟨caches, held, after⟩ := isSound.exists_evaluate_eq limit tree cancellation
      change (session.evaluate limit tree cancellation).2.IsStandard
      rw [after]
      exact standard.serve ⟨sound, isSound.keepCaches held⟩ session.context
  | commit result =>
      exact ⟨⟨standard.inStep.loaded, standard.inStep.reader⟩, standard.plugins, standard.registry,
        sound, isSound.steady, isSound.held⟩

/-- A run of standard operations leaves a session standard. -/
theorem IsStandard.performAll
    (standard : session.IsStandard)
    {operations : List Operation}
    (allowed : ∀ operation ∈ operations, operation.IsStandard) :
    (session.performAll operations).IsStandard :=
  List.foldlRecOn operations Session.perform standard fun _ reached operation member =>
    reached.perform (allowed operation member)

theorem isStandard_new (configuration : Configuration) : (new configuration).IsStandard where
  inStep := inStep_withPlugins configuration _
  plugins := .inr rfl
  registry := ⟨configuration, _, rfl⟩
  sound := exists_isSound_new configuration

/-! ## Bindings -/

/-- An evaluation does not bind anything for the session yet. -/
theorem context_evaluateBy
    (session : Session)
    (limit : Nat)
    (tree : Expr)
    (deadline : Option Deadline) :
    (session.evaluateBy limit tree deadline).2.context = session.context := by
  cases deadline <;> rfl

/-- A successful evaluation leaves bindings that its tree may leave. -/
theorem mayBecome_of_evaluateBy
    (only : session.registry.OnlyAssigns)
    {limit : Nat}
    {tree : Expr}
    {deadline : Option Deadline}
    {result : Evaluated}
    (succeeds : (session.evaluateBy limit tree deadline).1 = .ok result) :
    session.context.MayBecome tree result.context := by
  rcases session.evaluateBy_cases limit tree deadline with same | ⟨stop, _, same⟩
  · rw [same] at succeeds
    exact only.mayBecome_of_evaluate succeeds
  · rw [same] at succeeds
    cases succeeds

/-- To take over the bindings of an evaluation is to replace the present ones by them. -/
theorem context_calculateBy
    (only : session.registry.OnlyAssigns)
    (limit : Nat)
    (text : String)
    (deadline : Option Deadline) :
    let after := session.calculateBy limit text deadline
    (∀ value, after.1 = .ok value → ∃ tree result,
      session.parse text = .ok tree ∧
      (session.evaluateBy limit tree deadline).1 = .ok result ∧
      result.value = value ∧
      after.2.context = result.context ∧
      session.context.MayBecome tree result.context) ∧
    ∀ stop, after.1 = .error stop → after.2.context = session.context := by
  intro after
  cases parses : session.parse text with
  | error failure =>
      have fails : after = (.error (.failed failure), session) :=
        calculateBy_of_parse_eq_error parses limit deadline
      rw [fails]
      exact ⟨by rintro _ ⟨⟩, fun _ _ => rfl⟩
  | ok tree =>
      have concludes : after = conclude (session.evaluateBy limit tree deadline) :=
        calculateBy_of_parse_eq_ok parses limit deadline
      have kept := session.context_evaluateBy limit tree deadline
      rcases ran : session.evaluateBy limit tree deadline with ⟨stop | result, final⟩
      · rw [ran] at kept concludes
        rw [concludes]
        exact ⟨by rintro _ ⟨⟩, fun _ _ => kept⟩
      · have becomes := mayBecome_of_evaluateBy only (congrArg Prod.fst ran)
        rw [ran] at kept concludes
        rw [concludes]
        refine ⟨fun value succeeds => ⟨tree, result, rfl, by rw [ran], ?_, ?_, becomes⟩,
          by rintro _ ⟨⟩⟩
        · exact Except.ok.inj succeeds
        · change final.context.apply result.context = result.context
          rw [kept, becomes.apply_eq]

/-- Whatever has been done with a session of the standard plugin and whatever its bindings are, a
calculation that succeeds leaves exactly the bindings that the evaluation has come to.  All names
are still bound, and none are bound to something else but those that are assigned to in the
expression or in a definition.  A calculation that fails, be it that a deadline has passed,
leaves the bindings as they are. -/
theorem calculate_bindings
    (configuration : Configuration)
    {operations : List Operation}
    (allowed : ∀ operation ∈ operations, operation.IsStandard)
    (context : Context)
    (limit : Nat)
    (text : String)
    (deadline : Option Deadline) :
    let before : Session := { (new configuration).performAll operations with context }
    let after := before.calculateBy limit text deadline
    (∀ value, after.1 = .ok value → ∃ tree result,
      before.parse text = .ok tree ∧
      (before.evaluateBy limit tree deadline).1 = .ok result ∧
      result.value = value ∧
      after.2.context = result.context ∧
      context.MayBecome tree result.context) ∧
    ∀ stop, after.1 = .error stop → after.2.context = context := by
  intro before
  have standard := (isStandard_new configuration).performAll allowed
  have only : before.registry.OnlyAssigns := standard.onlyAssigns
  exact context_calculateBy only limit text deadline

/-- An assignment next to a definition. -/
theorem calculate_bindings_assignment :
    let context := (Context.withImplementation "naive").setDefinition "y" (.number "1")
    let before : Session :=
      { (new .default).performAll [.addPlugin Standard.plugin, .removePlugin "other"] with context }
    (before.calculateBy 9 "x=3" none).1 = .ok (.ofInt .fast 3) ∧
      (before.calculateBy 9 "x=3" none).2.context = context.setVariable "x" (.ofInt .fast 3) := by
  intro context before
  have allowed : ∀ operation ∈ [Operation.addPlugin Standard.plugin, .removePlugin "other"],
      operation.IsStandard := by
    simp [Operation.IsStandard]
  have parses : before.parse "x=3" =
      .ok (.binary .tree "=" (.variable "x") (.number "3")) := parse_new_assignment
  have evaluates : (before.evaluateBy 9 (.binary .tree "=" (.variable "x") (.number "3"))
      none).1 = .ok ⟨.ofInt .fast 3, context.setVariable "x" (.ofInt .fast 3)⟩ := by
    decide +kernel
  have succeeds : (before.calculateBy 9 "x=3" none).1 = .ok (.ofInt .fast 3) := by
    rw [calculateBy_of_parse_eq_ok parses]
    decide +kernel
  refine ⟨succeeds, ?_⟩
  obtain ⟨tree, result, parsesAgain, evaluatesAgain, -, leaves, -⟩ :=
    (calculate_bindings .default allowed context 9 "x=3" none).1 _ succeeds
  obtain rfl := Except.ok.inj (parsesAgain.symm.trans parses)
  obtain rfl := Except.ok.inj (evaluatesAgain.symm.trans evaluates)
  exact leaves

end Session
end Reckoner
