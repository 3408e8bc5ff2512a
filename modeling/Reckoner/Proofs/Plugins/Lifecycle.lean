import Mathlib.Data.List.Induction
import Reckoner.Evaluation.Plugin

/-!
# The life of a plugin manager

A manager is either unloaded, and then its registry is empty, or loaded, and then its registry
holds what the plugins have registered that were present and not disabled when it was loaded.
Plugins that are added or removed in the meantime make no difference, and nor do further requests
to load.  Whoever follows the grammar hears of loading and unloading in turn, and of one grammar
both times.
-/

namespace Reckoner
namespace PluginManager

variable {manager : PluginManager} {notices : List Notice} {chosen : List Installed}
  {order : Traversal NumberImplementation}

/-! ## Operations -/

/-- What can be done with a manager.  Whoever loads has no say in the order in which the
implementations are gone through from then on, so that it is part of what happens.  Evaluations put
values into the caches of the registry while plugins are loaded. -/
inductive Operation
  | add (plugin : Plugin)
  | remove (id : String)
  | load (order : Traversal NumberImplementation) (disabled : List String)
  | unload
  | reload (order : Traversal NumberImplementation) (disabled : List String)
  | fillCaches (caches : Caches)

/-- Replace the caches, if plugins are loaded. -/
def fillCaches (manager : PluginManager) (caches : Caches) : PluginManager :=
  if manager.loaded then { manager with registry := { manager.registry with caches } } else manager

/-- A manager after an operation, and what happens on the way. -/
def perform (manager : PluginManager) : Operation → PluginManager × List Notice
  | .add plugin => (manager.add plugin, [])
  | .remove id => (manager.remove id, [])
  | .load order disabled => manager.loadIn order disabled
  | .unload => manager.unload
  | .reload order disabled => manager.reloadIn order disabled
  | .fillCaches caches => (manager.fillCaches caches, [])

/-- A new manager after operations, one after the other, and all that has happened. -/
def run (operations : List Operation) : PluginManager × List Notice :=
  operations.foldl
    (fun (manager, notices) operation =>
      let (after, more) := manager.perform operation
      (after, notices ++ more))
    (empty, [])

/-- A run goes on with one more operation. -/
theorem run_concat (operations : List Operation) (operation : Operation) :
    run (operations ++ [operation]) =
      (((run operations).1.perform operation).1,
        (run operations).2 ++ ((run operations).1.perform operation).2) := by
  rw [run, List.foldl_append]
  rfl

/-- An operation after which plugins that were loaded are still loaded as they were. -/
def Operation.isHarmless : Operation → Bool
  | .unload | .reload _ _ => false
  | _ => true

@[simp] theorem loaded_add (manager : PluginManager) (plugin : Plugin) :
    (manager.add plugin).loaded = manager.loaded := by
  unfold add
  split <;> rfl

@[simp] theorem registry_add (manager : PluginManager) (plugin : Plugin) :
    (manager.add plugin).registry = manager.registry := by
  unfold add
  split <;> rfl

@[simp] theorem enabled_add (manager : PluginManager) (plugin : Plugin) :
    (manager.add plugin).enabled = manager.enabled := by
  unfold add
  split <;> rfl

@[simp] theorem plugins_loadIn
    (order : Traversal NumberImplementation)
    (manager : PluginManager)
    (disabled : List String) :
    (manager.loadIn order disabled).1.plugins = manager.plugins := by
  unfold loadIn
  split <;> rfl

@[simp] theorem plugins_unload (manager : PluginManager) :
    manager.unload.1.plugins = manager.plugins := by
  unfold unload
  split <;> rfl

/-- A second load does nothing. -/
theorem loadIn_of_loaded
    (loaded : manager.loaded = true)
    (order : Traversal NumberImplementation)
    (disabled : List String) :
    manager.loadIn order disabled = (manager, []) := by
  rw [loadIn, if_pos loaded]

/-- An unload of what is not loaded does nothing. -/
theorem unload_of_unloaded (unloaded : manager.loaded = false) :
    manager.unload = (manager, []) := by
  rw [unload, if_neg (by rw [unloaded]; exact Bool.false_ne_true)]

/-- An operation that is neither a first loading nor an unloading is without notice, and it leaves
all but the plugins and the caches. -/
theorem exists_perform_of_isHarmless
    (manager : PluginManager)
    {operation : Operation}
    (harmless : operation.isHarmless = true)
    (settled : manager.loaded = true ∨ ∀ order disabled, operation ≠ .load order disabled) :
    ∃ plugins nextSerial caches, manager.perform operation =
      ({ manager with
          plugins
          nextSerial
          registry := { manager.registry with caches } }, []) ∧
      (manager.loaded = false → caches = manager.registry.caches) := by
  cases operation with
  | add plugin =>
      refine ⟨(manager.add plugin).plugins, (manager.add plugin).nextSerial,
        manager.registry.caches, ?_, fun _ => rfl⟩
      rw [perform, add]
      split <;> rfl
  | remove id => exact ⟨_, _, manager.registry.caches, rfl, fun _ => rfl⟩
  | load order disabled =>
      have loaded := settled.resolve_right fun other => other order disabled rfl
      exact ⟨_, _, manager.registry.caches, loadIn_of_loaded loaded order disabled, fun _ => rfl⟩
  | fillCaches caches =>
      rw [perform, fillCaches]
      split
      next loaded => exact ⟨_, _, caches, rfl, fun unloaded => by simp [loaded] at unloaded⟩
      next => exact ⟨_, _, manager.registry.caches, rfl, fun _ => rfl⟩
  | unload | reload _ _ => cases harmless

/-! ## The plugins that are in force -/

/-- The plugins that the latest loading has let register, and the order in which it goes through
implementations: those plugins were present then and it did not leave them out.  They have not been
unloaded since. -/
def InForce
    (operations : List Operation)
    (order : Traversal NumberImplementation)
    (chosen : List Installed) :
    Prop :=
  ∃ before loading disabled after,
    operations = before ++ loading :: after ∧
    (loading = .reload order disabled ∨
      loading = .load order disabled ∧ (run before).1.loaded = false) ∧
    chosen = (run before).1.plugins.filter
      (fun installed => !disabled.contains installed.plugin.id) ∧
    ∀ operation ∈ after, operation.isHarmless = true

/-- Harmless operations leave in force what is. -/
theorem InForce.concat
    {operations : List Operation}
    (inForce : InForce operations order chosen)
    {operation : Operation}
    (harmless : operation.isHarmless = true) :
    InForce (operations ++ [operation]) order chosen := by
  obtain ⟨before, loading, disabled, after, rfl, loads, same, rest⟩ := inForce
  refine ⟨before, loading, disabled, after ++ [operation], by simp, loads, same, ?_⟩
  simpa [or_imp, forall_and] using ⟨rest, harmless⟩

/-- What plugins register, one after the other, beginning with nothing. -/
def registered (plugins : List Installed) : Registry :=
  plugins.foldl (fun registry installed => installed.plugin.enable registry) .empty

/-! ## What is heard -/

/-- The announcements among notices. -/
def announcements (notices : List Notice) : List Announcement :=
  notices.filterMap fun
    | .announced announcement => some announcement
    | _ => none

/-- A grammar that comes and goes. -/
def visit (grammar : Grammar) : List Announcement :=
  [.load grammar, .unload grammar]

@[simp] theorem announcements_append (first second : List Notice) :
    announcements (first ++ second) = announcements first ++ announcements second :=
  List.filterMap_append

@[simp] theorem announcements_enabled (plugins : List Installed) :
    announcements (plugins.map Notice.enabled) = [] := by
  simp [announcements]

@[simp] theorem announcements_disabled (plugins : List Installed) (registry : Registry) :
    announcements (plugins.map (Notice.disabled · registry)) = [] := by
  simp [announcements]

/-! ## The two states -/

/-- A manager without plugins loaded: nothing is registered, and every grammar that came has
gone. -/
structure Rests (manager : PluginManager) (notices : List Notice) : Prop where
  loaded : manager.loaded = false
  registry : manager.registry = .empty
  enabled : manager.enabled = []
  heard : ∃ grammars : List Grammar, announcements notices = grammars.flatMap visit

/-- What a manager holds once plugins have registered and the conversions between the
implementations have been worked out in an order. -/
def filled
    (chosen : List Installed)
    (order : Traversal NumberImplementation)
    (caches : Caches) :
    Registry :=
  { registered chosen with
    order
    promotions := .ofImplementations ((registered chosen).implementations.entriesIn order)
    caches }

/-- A manager with plugins loaded: these have registered, and the grammar that came last has not
gone yet. -/
structure Serves
    (manager : PluginManager)
    (notices : List Notice)
    (order : Traversal NumberImplementation)
    (chosen : List Installed) :
    Prop where
  loaded : manager.loaded = true
  registry : ∃ caches, manager.registry = filled chosen order caches
  enabled : manager.enabled = chosen.map (·.plugin.id)
  heard : ∃ grammars : List Grammar,
    announcements notices = grammars.flatMap visit ++ [.load manager.registry.grammar]

theorem rests_empty : Rests empty [] :=
  ⟨rfl, rfl, rfl, [], rfl⟩

/-- A load at rest serves the eligible plugins. -/
theorem Rests.load
    (rests : manager.Rests notices)
    (order : Traversal NumberImplementation)
    (disabled : List String) :
    (manager.loadIn order disabled).1.Serves (notices ++ (manager.loadIn order disabled).2) order
      (manager.eligible disabled) := by
  obtain ⟨grammars, heard⟩ := rests.heard
  have loads : manager.loadIn order disabled =
      ({ manager with
          registry := (registered (manager.eligible disabled)).rebuildPromotions order
          enabled := (manager.eligible disabled).map (·.plugin.id)
          loaded := true },
        (manager.eligible disabled).map Notice.enabled ++
          [.announced (.load (registered (manager.eligible disabled)).grammar)]) := by
    rw [loadIn, rests.loaded, if_neg Bool.false_ne_true, rests.registry, rests.enabled]
    rfl
  rw [loads]
  refine ⟨rfl, ⟨_, rfl⟩, rfl, grammars, ?_⟩
  rw [announcements_append, announcements_append, announcements_enabled, heard]
  rfl

/-- An unload brings the manager to rest. -/
theorem Serves.unload (serves : manager.Serves notices order chosen) :
    manager.unload.1.Rests (notices ++ manager.unload.2) := by
  obtain ⟨grammars, heard⟩ := serves.heard
  rw [PluginManager.unload, if_pos serves.loaded]
  refine ⟨rfl, rfl, rfl, grammars ++ [manager.registry.grammar], ?_⟩
  have said : announcements (.announced (.unload manager.registry.grammar) ::
      manager.dismissed.map (Notice.disabled · manager.registry)) =
        .unload manager.registry.grammar ::
          announcements (manager.dismissed.map (Notice.disabled · manager.registry)) := rfl
  rw [announcements_append, heard, said, announcements_disabled, List.flatMap_append]
  simp [visit]

theorem Rests.unload (rests : manager.Rests notices) :
    manager.unload.1.Rests (notices ++ manager.unload.2) := by
  rw [unload_of_unloaded rests.loaded, List.append_nil]
  exact rests

/-- To reload is to unload and to load. -/
theorem serves_reload
    (rests : manager.unload.1.Rests (notices ++ manager.unload.2))
    (order : Traversal NumberImplementation)
    (disabled : List String) :
    (manager.reloadIn order disabled).1.Serves
      (notices ++ (manager.reloadIn order disabled).2) order (manager.eligible disabled) := by
  have serves := rests.load order disabled
  rw [List.append_assoc, eligible, plugins_unload] at serves
  exact serves

/-- Without a load the manager stays at rest. -/
theorem Rests.perform
    (rests : manager.Rests notices)
    {operation : Operation}
    (harmless : operation.isHarmless = true)
    (noLoad : ∀ order disabled, operation ≠ .load order disabled) :
    (manager.perform operation).1.Rests (notices ++ (manager.perform operation).2) := by
  obtain ⟨plugins, nextSerial, caches, performed, kept⟩ :=
    manager.exists_perform_of_isHarmless harmless (.inr noLoad)
  rw [performed, List.append_nil, kept rests.loaded]
  exact ⟨rests.loaded, rests.registry, rests.enabled, rests.heard⟩

/-- Harmless operations leave the manager serving. -/
theorem Serves.perform
    (serves : manager.Serves notices order chosen)
    {operation : Operation}
    (harmless : operation.isHarmless = true) :
    (manager.perform operation).1.Serves (notices ++ (manager.perform operation).2) order
      chosen := by
  obtain ⟨plugins, nextSerial, caches, performed, -⟩ :=
    manager.exists_perform_of_isHarmless harmless (.inl serves.loaded)
  obtain ⟨before, registry⟩ := serves.registry
  rw [performed, List.append_nil]
  exact ⟨serves.loaded, ⟨caches, by rw [registry]; rfl⟩, serves.enabled, serves.heard⟩

/-- Whatever has been done, nothing is loaded after an unloading. -/
theorem rests_unload
    (known : manager.Rests notices ∨ ∃ order chosen, manager.Serves notices order chosen) :
    manager.unload.1.Rests (notices ++ manager.unload.2) := by
  rcases known with rests | ⟨order, chosen, serves⟩
  · exact rests.unload
  · exact serves.unload

/-- Whatever has been done, either no plugins are loaded, or those in force are. -/
theorem rests_or_serves (operations : List Operation) :
    (run operations).1.Rests (run operations).2 ∨
      ∃ order chosen, InForce operations order chosen ∧
        (run operations).1.Serves (run operations).2 order chosen := by
  induction operations using List.reverseRecOn with
  | nil => exact .inl rests_empty
  | append_singleton operations operation hypothesis =>
      rw [run_concat]
      have unloads := rests_unload (hypothesis.imp_right
        fun ⟨order, chosen, _, serves⟩ => ⟨order, chosen, serves⟩)
      cases operation with
      | unload => exact .inl unloads
      | reload order disabled =>
          exact .inr ⟨order, _, ⟨operations, _, disabled, [], rfl, .inl rfl, rfl, by simp⟩,
            serves_reload unloads order disabled⟩
      | load order disabled =>
          rcases hypothesis with rests | ⟨former, chosen, inForce, serves⟩
          · exact .inr ⟨order, _,
              ⟨operations, _, disabled, [], rfl, .inr ⟨rfl, rests.loaded⟩, rfl, by simp⟩,
              rests.load order disabled⟩
          · exact .inr ⟨former, chosen, inForce.concat rfl, serves.perform rfl⟩
      | add _ | remove _ | fillCaches _ =>
          rcases hypothesis with rests | ⟨order, chosen, inForce, serves⟩
          · exact .inl (rests.perform rfl (by rintro _ _ ⟨⟩))
          · exact .inr ⟨order, chosen, inForce.concat rfl, serves.perform rfl⟩

/-- Plugins that a loading has let register are loaded from then on, until they are unloaded. -/
theorem InForce.serves {operations : List Operation} (inForce : InForce operations order chosen) :
    (run operations).1.Serves (run operations).2 order chosen := by
  obtain ⟨before, loading, disabled, after, rfl, loads, rfl, harmless⟩ := inForce
  rw [List.append_cons]
  induction after using List.reverseRecOn with
  | nil =>
      rw [List.append_nil, run_concat]
      have known := rests_or_serves before
      rcases loads with rfl | ⟨rfl, unloaded⟩
      · exact serves_reload (rests_unload (known.imp_right
          fun ⟨former, earlier, _, serves⟩ => ⟨former, earlier, serves⟩)) order disabled
      · rcases known with rests | ⟨_, _, -, serves⟩
        · exact rests.load order disabled
        · rw [serves.loaded] at unloaded
          cases unloaded
  | append_singleton after operation hypothesis =>
      rw [List.forall_mem_append, List.forall_mem_singleton] at harmless
      rw [← List.append_assoc, run_concat]
      exact (hypothesis harmless.1).perform harmless.2

/-- Whatever has been done with a manager, and in whatever orders implementations were gone
through: plugins are loaded just in case some are in force, that is, some loading has not been
followed by an unloading.  Then the registry is the one that the plugins in force have filled,
apart from what evaluations have put into the caches; the conversions are those between the
implementations in it; and the plugins in force are listed as enabled.  While no plugins are
loaded, nothing at all is registered, no plugin is listed as enabled and the caches are empty.
Loading and unloading have been announced in turn, each grammar when it came and when it went. -/
theorem registry_run (operations : List Operation) :
    let (manager, notices) := run operations
    (manager.loaded = true ↔ ∃ order chosen, InForce operations order chosen) ∧
    (∀ order chosen, InForce operations order chosen →
      manager.enabled = chosen.map (·.plugin.id) ∧
      ∃ caches, manager.registry =
        { registered chosen with
          order
          promotions := .ofImplementations ((registered chosen).implementations.entriesIn order)
          caches }) ∧
    (manager.loaded = false → manager.registry = .empty ∧ manager.enabled = []) ∧
    ∃ grammars : List Grammar, announcements notices = grammars.flatMap visit ++
      if manager.loaded then [.load manager.registry.grammar] else [] := by
  dsimp only
  have loaded_of_inForce : (∃ order chosen, InForce operations order chosen) →
      (run operations).1.loaded = true :=
    fun ⟨_, _, inForce⟩ => inForce.serves.loaded
  refine ⟨⟨fun loaded => ?_, loaded_of_inForce⟩,
    fun order chosen inForce => ⟨inForce.serves.enabled, inForce.serves.registry⟩, ?_⟩
  · rcases rests_or_serves operations with rests | ⟨order, chosen, inForce, -⟩
    · rw [rests.loaded] at loaded
      cases loaded
    · exact ⟨order, chosen, inForce⟩
  · rcases rests_or_serves operations with rests | ⟨order, chosen, -, serves⟩
    · refine ⟨fun _ => ⟨rests.registry, rests.enabled⟩, ?_⟩
      rw [rests.loaded, if_neg Bool.false_ne_true]
      simpa using rests.heard
    · refine ⟨fun unloaded => ?_, ?_⟩
      · rw [serves.loaded] at unloaded
        cases unloaded
      · rw [serves.loaded, if_pos rfl]
        exact serves.heard

/-- What a plugin has registered stays when the plugin is removed and loading is asked for again,
and it is gone after an unloading. -/
theorem registry_run_removed :
    let plain : NumberImplementation := ⟨.fast, 0, .empty, Run.fail (.timedOut 0)⟩
    let plugin : Plugin := ⟨"a", (·.registerImplementation "plain" plain)⟩
    let chosen : List Installed := [⟨0, plugin⟩]
    let operations := [.add plugin, .load .byName [], .remove "a", .load .byName ["a"]]
    InForce operations .byName chosen ∧
      (run operations).1.loaded = true ∧
      (run operations).1.enabled = ["a"] ∧
      (∃ caches, (run operations).1.registry =
        { registered chosen with
          order := .byName
          promotions := .ofImplementations [("plain", plain)]
          caches }) ∧
      (run (operations ++ [.unload])).1.loaded = false ∧
      (run (operations ++ [.unload])).1.registry = .empty := by
  intro plain plugin chosen operations
  have inForce : InForce operations .byName chosen :=
    ⟨[.add plugin], .load .byName [], [], [.remove "a", .load .byName ["a"]], rfl,
      .inr ⟨rfl, rfl⟩, rfl, by simp [Operation.isHarmless]⟩
  obtain ⟨loaded, held, -, -⟩ := registry_run operations
  obtain ⟨enabled, registry⟩ := held .byName chosen inForce
  obtain ⟨-, -, unloaded, -⟩ := registry_run (operations ++ [.unload])
  exact ⟨inForce, loaded.2 ⟨_, _, inForce⟩, enabled, registry, rfl, (unloaded rfl).1⟩

end PluginManager
end Reckoner
