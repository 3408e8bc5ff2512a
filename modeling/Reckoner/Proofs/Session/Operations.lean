import Reckoner.Proofs.Expr.Learning
import Reckoner.Proofs.Expr.Resolution
import Reckoner.Proofs.Plugins.Lifecycle
import Reckoner.Session

/-!
# Sessions and their grammar

A session tells its reader of every grammar that comes or goes, and the reader learns and forgets
names one by one.  Whatever has been done with a session, its reader is a new one that has learnt
the grammar of the present registry: nothing is left of earlier grammars, and nothing is missing.
-/

namespace Reckoner

/-! ## Readers -/

namespace Reader

/-- A reader follows notices one after another. -/
theorem follow_append (reader : Reader) (first second : List Notice) :
    reader.follow (first ++ second) = (reader.follow first).follow second :=
  List.foldl_append

@[simp] theorem follow_enabled (reader : Reader) (plugins : List Installed) :
    reader.follow (plugins.map Notice.enabled) = reader := by
  rw [follow, List.foldl_map]
  exact List.foldl_fixed plugins

@[simp] theorem follow_disabled
    (reader : Reader)
    (plugins : List Installed)
    (registry : Registry) :
    reader.follow (plugins.map (Notice.disabled · registry)) = reader := by
  rw [follow, List.foldl_map]
  exact List.foldl_fixed plugins

/-- Loading is heard by learning the grammar of what has been loaded. -/
theorem follow_load
    {manager : PluginManager}
    (unloaded : manager.loaded = false)
    (reader : Reader)
    (disabled : List String) :
    reader.follow (manager.load disabled).2 =
      reader.load (manager.load disabled).1.registry.grammar := by
  unfold PluginManager.load PluginManager.loadIn
  rw [unloaded, if_neg Bool.false_ne_true]
  dsimp only
  rw [follow_append, follow_enabled]
  rfl

/-- Unloading is heard by forgetting the grammar that was loaded. -/
theorem follow_unload
    {manager : PluginManager}
    (loaded : manager.loaded = true)
    (reader : Reader) :
    reader.follow manager.unload.2 = reader.unload manager.registry.grammar := by
  unfold PluginManager.unload
  rw [if_pos loaded]
  exact follow_disabled _ _ _

/-- A new reader that forgets what it has learnt is as new. -/
theorem unload_load (grammar : Grammar) : (base.load grammar).unload grammar = base := by
  rw [load, unload, base, Tokenizer.unload_load Tokenizer.nameless_base]

end Reader

namespace Session

/-! ## Operations -/

/-- What can be done with a session. -/
inductive Operation
  | addPlugin (plugin : Plugin)
  | removePlugin (id : String)
  | configure (configuration : Configuration)
  | reload
  | calculate (limit : Nat) (text : String) (deadline : Option Deadline)
  | evaluate (limit : Nat) (tree : Expr) (cancellation : Cancellation)
  | commit (result : Evaluated)

/-- A session after an operation. -/
def perform (session : Session) : Operation → Session
  | .addPlugin plugin => session.addPlugin plugin
  | .removePlugin id => session.removePlugin id
  | .configure configuration => session.configure configuration
  | .reload => session.reload
  | .calculate limit text deadline => (session.calculateBy limit text deadline).2
  | .evaluate limit tree cancellation => (session.evaluate limit tree cancellation).2
  | .commit result => session.commit result

/-- A session after operations, one after the other. -/
def performAll (session : Session) (operations : List Operation) : Session :=
  operations.foldl perform session

/-! ## What operations preserve -/

/-- A session whose plugins are loaded and whose reader has learnt their grammar and nothing
else. -/
structure InStep (session : Session) : Prop where
  loaded : session.plugins.loaded = true
  reader : session.reader = Reader.base.load session.registry.grammar

variable {session : Session}

theorem evaluateBy_of_never
    {deadline : Deadline}
    (late : deadline.cancellation = .never)
    (limit : Nat)
    (tree : Expr) :
    session.evaluateBy limit tree (some deadline) = session.evaluate limit tree .never := by
  refine Prod.ext ?_
    (congrArg (fun cancellation => (session.evaluate limit tree cancellation).2) late)
  change deadline.answer (session.evaluate limit tree deadline.cancellation).1 = _
  rw [late]
  rcases (session.evaluate limit tree .never).1 with (failure | _) | result
  · exact if_pos late
  · rfl
  · exact if_pos late

/-- An evaluation under a deadline is one without cancellation, or fails when it has been
cancelled. -/
theorem evaluateBy_cases (limit : Nat) (tree : Expr) (deadline : Option Deadline) :
    session.evaluateBy limit tree deadline = session.evaluate limit tree .never ∨
      ∃ stop cancellation, session.evaluateBy limit tree deadline =
        (.error stop, (session.evaluate limit tree cancellation).2) := by
  cases deadline with
  | none => exact .inl rfl
  | some deadline =>
      by_cases late : deadline.cancellation = .never
      · exact .inl (evaluateBy_of_never late limit tree)
      · have fails : ∃ stop, deadline.answer
            (session.evaluate limit tree deadline.cancellation).1 = .error stop := by
          rcases (session.evaluate limit tree deadline.cancellation).1 with (failure | _) | result
          · exact ⟨_, if_neg late⟩
          · exact ⟨_, rfl⟩
          · exact ⟨_, if_neg late⟩
        obtain ⟨stop, answers⟩ := fails
        exact .inr ⟨stop, deadline.cancellation, Prod.ext answers rfl⟩

/-- A timeout is a deadline at some check. -/
theorem exists_evaluateWithTimeout_eq (limit : Nat) (tree : Expr) (milliseconds : Nat) :
    ∃ cancellation, session.evaluateWithTimeout limit tree milliseconds =
      session.evaluateUntil limit tree ⟨milliseconds, cancellation⟩ := by
  unfold evaluateWithTimeout
  split
  next => exact ⟨.now, rfl⟩
  next => exact ⟨.never, rfl⟩

/-- What is calculated without a clock is calculated under some deadline. -/
theorem exists_calculate_eq
    (session : Session)
    (limit : Nat)
    (text : String)
    (timeout : Option Nat) :
    ∃ deadline : Option Deadline, deadline.map Deadline.milliseconds = timeout ∧
      session.calculate limit text timeout = session.calculateBy limit text deadline := by
  cases timeout with
  | none => exact ⟨none, rfl, rfl⟩
  | some milliseconds =>
      unfold calculate calculateBy calculateWith
      cases session.parse text with
      | error failure => exact ⟨some ⟨milliseconds, .never⟩, rfl, rfl⟩
      | ok tree =>
          obtain ⟨cancellation, same⟩ :=
            session.exists_evaluateWithTimeout_eq limit tree milliseconds
          exact ⟨some ⟨milliseconds, cancellation⟩, rfl, congrArg conclude same⟩

/-- A calculation changes caches and bindings alone. -/
theorem exists_calculateBy_eq
    (session : Session)
    (limit : Nat)
    (text : String)
    (deadline : Option Deadline) :
    ∃ caches context,
      (session.calculateBy limit text deadline).2 = { session.keepCaches caches with context } := by
  have evaluated (tree : Expr) : ∃ caches,
      (session.evaluateBy limit tree deadline).2 = session.keepCaches caches := by
    cases deadline <;> exact ⟨_, rfl⟩
  unfold calculateBy calculateWith
  cases session.parse text with
  | error failure => exact ⟨session.registry.caches, session.context, rfl⟩
  | ok tree =>
      obtain ⟨caches, leaves⟩ := evaluated tree
      dsimp only
      rcases ran : session.evaluateBy limit tree deadline with ⟨stop | result, after⟩
      · obtain rfl : after = session.keepCaches caches := by rw [← leaves, ran]
        exact ⟨caches, session.context, rfl⟩
      · obtain rfl : after = session.keepCaches caches := by rw [← leaves, ran]
        exact ⟨caches, _, rfl⟩

theorem exists_perform_calculate_eq
    (session : Session)
    (limit : Nat)
    (text : String)
    (deadline : Option Deadline) :
    ∃ caches context,
      session.perform (.calculate limit text deadline) =
        { session.keepCaches caches with context } :=
  session.exists_calculateBy_eq limit text deadline

/-- A plugin that is added registers nothing before the session is loaded again. -/
theorem registry_addPlugin (session : Session) (plugin : Plugin) :
    (session.addPlugin plugin).registry = session.registry :=
  session.plugins.registry_add plugin

/-- A reload lets the plugins register that are not left out. -/
theorem registry_reload
    (clean : session.plugins.loaded = true ∨ session.plugins.registry = .empty) :
    session.reload.registry =
      (((session.plugins.plugins.map Installed.plugin).filter
          fun plugin : Plugin => !session.configuration.disabled.names.contains plugin.id).foldl
        (fun registry plugin => plugin.enable registry)
        Registry.empty).rebuildPromotions .byName := by
  have unloaded : session.plugins.unload.1.loaded = false ∧
      session.plugins.unload.1.registry = .empty := by
    unfold PluginManager.unload
    split
    next => exact ⟨rfl, rfl⟩
    next notLoaded => exact ⟨by simpa using notLoaded, clean.resolve_left notLoaded⟩
  have reloaded : session.reload.registry =
      (session.plugins.unload.1.load session.configuration.disabled.names).1.registry := rfl
  rw [reloaded, PluginManager.load, PluginManager.loadIn, unloaded.1, if_neg Bool.false_ne_true,
    PluginManager.eligible, PluginManager.plugins_unload, unloaded.2, List.filter_map,
    List.foldl_map]
  rfl

theorem plugins_reload (session : Session) :
    session.reload.plugins.plugins = session.plugins.plugins :=
  (PluginManager.plugins_loadIn _ _ _).trans (PluginManager.plugins_unload _)

/-- A new reader hears of a first loading, and one that is in step forgets the old grammar before it
learns the new one. -/
theorem inStep_reload
    (before : session.plugins.loaded = false ∧ session.reader = .base ∨ session.InStep) :
    session.reload.InStep := by
  have unloaded : session.plugins.unload.1.loaded = false := by
    unfold PluginManager.unload
    split
    next => rfl
    next notLoaded => simpa using notLoaded
  have forgets : session.reader.follow session.plugins.unload.2 = .base := by
    rcases before with ⟨notLoaded, isNew⟩ | inStep
    · unfold PluginManager.unload
      rw [notLoaded, if_neg Bool.false_ne_true, isNew]
      rfl
    · rw [Reader.follow_unload inStep.loaded, inStep.reader]
      exact Reader.unload_load _
  constructor
  · change (session.plugins.unload.1.load session.configuration.disabled.names).1.loaded = true
    unfold PluginManager.load PluginManager.loadIn
    rw [unloaded]
    rfl
  · change session.reader.follow (session.plugins.unload.2 ++
      (session.plugins.unload.1.load session.configuration.disabled.names).2) = _
    rw [Reader.follow_append, forgets, Reader.follow_load unloaded]
    rfl

/-- A session stays in step with its plugins. -/
theorem InStep.perform (inStep : session.InStep) (operation : Operation) :
    (session.perform operation).InStep := by
  cases operation with
  | addPlugin plugin =>
      refine ⟨(session.plugins.loaded_add plugin).trans inStep.loaded, ?_⟩
      exact inStep.reader.trans
        (congrArg (Reader.base.load ·.grammar) (session.registry_addPlugin plugin).symm)
  | removePlugin id => exact ⟨inStep.loaded, inStep.reader⟩
  | configure configuration => exact inStep_reload (Or.inr ⟨inStep.loaded, inStep.reader⟩)
  | reload => exact inStep_reload (Or.inr inStep)
  | calculate limit text deadline =>
      obtain ⟨caches, context, served⟩ := session.exists_perform_calculate_eq limit text deadline
      rw [served]
      exact ⟨inStep.loaded, inStep.reader⟩
  | evaluate limit tree cancellation => exact ⟨inStep.loaded, inStep.reader⟩
  | commit result => exact ⟨inStep.loaded, inStep.reader⟩

theorem InStep.performAll (inStep : session.InStep) (operations : List Operation) :
    (session.performAll operations).InStep :=
  List.foldlRecOn operations Session.perform inStep fun _ reached operation _ =>
    reached.perform operation

/-- A session starts in step with its plugins. -/
theorem inStep_withPlugins (configuration : Configuration) (plugins : List Plugin) :
    (withPlugins configuration plugins).InStep := by
  refine inStep_reload (Or.inl ⟨?_, rfl⟩)
  refine List.foldlRecOn (motive := fun manager : PluginManager => manager.loaded = false)
    plugins PluginManager.add rfl ?_
  exact fun manager notLoaded plugin _ => (manager.loaded_add plugin).trans notLoaded

/-- Whatever has been done with a session, it cuts and reads texts as a new reader does that has
learnt the grammar of the present registry once.  Its tokenizer has the shapes and the words of
this grammar registered, in order, and nothing else; and its operators are read as they are
registered at present, those on unreduced operands hiding their namesakes. -/
theorem reader_performAll
    (configuration : Configuration)
    (plugins : List Plugin)
    (operations : List Operation) :
    let session := (withPlugins configuration plugins).performAll operations
    let fresh := Reader.base.load session.registry.grammar
    (∀ text, session.tokenize text = fresh.tokenize text ∧ session.parse text = fresh.parse text) ∧
      List.Forall₂ Tokenizer.Registers (Tokenizer.sources session.registry.grammar)
        session.reader.tokenizer.lexer.registrations ∧
      ∀ name, session.reader.precedences.specs.find? name =
        (session.registry.spec? .tree name).or (session.registry.spec? .value name) := by
  intro session fresh
  have inStep : session.InStep := (inStep_withPlugins configuration plugins).performAll operations
  have same : session.reader = fresh := inStep.reader
  refine ⟨fun text => ?_, ?_, fun name => ?_⟩
  · rw [Session.tokenize, Session.parse, same]
    exact ⟨rfl, rfl⟩
  · rw [same]
    exact Tokenizer.registers_load session.registry.nodup_names
  · rw [same]
    exact Precedences.find?_load session.registry name

end Session
end Reckoner
