import Mathlib.Data.List.Nodup
import Reckoner.Proofs.Plugins.Lifecycle

/-!
# Hooks

A plugin is told when it may register and when it is dismissed.  A manager remembers the plugins
that it has let register by their names, and dismisses the present plugins of these names.  So a
plugin that is removed in the meantime is never dismissed, and another one of its name is
dismissed in its place.  If nothing of the kind is done, every plugin is dismissed as often as it
has been let register, and only by the unloading that belongs to the loading.
-/

namespace Reckoner

/-- Whether a notice lets the plugin of a number register. -/
def Notice.enables (serial : Nat) : Notice → Bool
  | .enabled installed => installed.serial == serial
  | _ => false

/-- Whether a notice dismisses the plugin of a number. -/
def Notice.dismisses (serial : Nat) : Notice → Bool
  | .disabled installed _ => installed.serial == serial
  | _ => false

namespace PluginManager

variable {manager : PluginManager} {notices : List Notice} {chosen : List Installed}
  {operations : List Operation} {order : Traversal NumberImplementation}

/-! ## Pairs -/

/-- Hooks come in pairs: whenever no plugins are loaded, every plugin has been dismissed as often
as it has been let register, and no plugin is ever dismissed but those in force. -/
structure Paired (operations : List Operation) : Prop where
  even : ∀ before, before <+: operations → (run before).1.loaded = false →
    ∀ serial, (run before).2.countP (Notice.enables serial) =
      (run before).2.countP (Notice.dismisses serial)
  rightful : ∀ before operation, before ++ [operation] <+: operations →
    ∀ installed registry,
      .disabled installed registry ∈ ((run before).1.perform operation).2 →
      ∃ order chosen, InForce before order chosen ∧ installed ∈ chosen

/-- No plugin is removed while it is listed as enabled. -/
def Gentle (operations : List Operation) : Prop :=
  ∀ before id, before ++ [.remove id] <+: operations →
    id ∈ (run before).1.enabled → (run before).1.contains id = false

/-- A gentle history was gentle all along. -/
theorem Gentle.of_prefix
    {before : List Operation}
    (gentle : Gentle operations)
    (first : before <+: operations) :
    Gentle before :=
  fun earlier id removes => gentle earlier id (removes.trans first)

/-- A history stays gentle unless an installed plugin is removed while its id is enabled. -/
theorem gentle_concat_iff {operation : Operation} :
    Gentle (operations ++ [operation]) ↔ Gentle operations ∧
      ∀ id, operation = .remove id → id ∈ (run operations).1.enabled →
        (run operations).1.contains id = false := by
  constructor
  · intro gentle
    refine ⟨gentle.of_prefix (List.prefix_append _ _), ?_⟩
    rintro id rfl
    exact gentle operations id List.prefix_rfl
  · rintro ⟨gentle, last⟩ before id removes
    rcases List.prefix_concat_iff.1 removes with same | earlier
    · obtain ⟨rfl, rfl⟩ := List.append_inj' same rfl |>.imp_right List.singleton_inj.1
      exact last id rfl
    · exact gentle before id earlier

/-! ## Counting notices -/

/-- How often a number occurs among plugins. -/
def copies (serial : Nat) (plugins : List Installed) : Nat :=
  plugins.countP (·.serial == serial)

/-- A plugin that was chosen has a copy. -/
theorem copies_pos {installed : Installed} (member : installed ∈ chosen) :
    0 < copies installed.serial chosen :=
  List.countP_pos_iff.2 ⟨installed, member, beq_self_eq_true _⟩

@[simp] theorem countP_enables_enabled (serial : Nat) (plugins : List Installed) :
    (plugins.map Notice.enabled).countP (Notice.enables serial) = copies serial plugins :=
  List.countP_map

@[simp] theorem countP_dismisses_disabled
    (serial : Nat)
    (plugins : List Installed)
    (registry : Registry) :
    (plugins.map (Notice.disabled · registry)).countP (Notice.dismisses serial) =
      copies serial plugins :=
  List.countP_map

@[simp] theorem countP_dismisses_enabled (serial : Nat) (plugins : List Installed) :
    (plugins.map Notice.enabled).countP (Notice.dismisses serial) = 0 := by
  simp [Notice.dismisses]

@[simp] theorem countP_enables_disabled
    (serial : Nat)
    (plugins : List Installed)
    (registry : Registry) :
    (plugins.map (Notice.disabled · registry)).countP (Notice.enables serial) = 0 := by
  simp [Notice.enables]

@[simp] theorem countP_enables_announced (serial : Nat) (announcement : Announcement) :
    [Notice.announced announcement].countP (Notice.enables serial) = 0 := rfl

@[simp] theorem countP_dismisses_announced (serial : Nat) (announcement : Announcement) :
    [Notice.announced announcement].countP (Notice.dismisses serial) = 0 := rfl

/-- Some plugins have still to be dismissed, and no others. -/
def Owes (notices : List Notice) (plugins : List Installed) : Prop :=
  ∀ serial, notices.countP (Notice.enables serial) =
    notices.countP (Notice.dismisses serial) + copies serial plugins

/-- Harmless operations settle no debt and make none. -/
theorem Owes.perform
    (owes : Owes notices chosen)
    {operation : Operation}
    (harmless : operation.isHarmless = true)
    (settled : manager.loaded = true ∨ ∀ order disabled, operation ≠ .load order disabled) :
    Owes (notices ++ (manager.perform operation).2) chosen := by
  obtain ⟨plugins, nextSerial, caches, performed, -⟩ :=
    manager.exists_perform_of_isHarmless harmless settled
  rw [performed, List.append_nil]
  exact owes

/-! ## Loading and unloading -/

theorem loadIn_of_unloaded
    (unloaded : manager.loaded = false)
    (order : Traversal NumberImplementation)
    (disabled : List String) :
    ∃ grammar, (manager.loadIn order disabled).2 =
      (manager.eligible disabled).map Notice.enabled ++ [.announced (.load grammar)] := by
  rw [loadIn, unloaded, if_neg Bool.false_ne_true]
  exact ⟨_, rfl⟩

/-- An unload announces itself and then disables. -/
theorem unload_of_loaded (loaded : manager.loaded = true) :
    manager.unload.2 = [.announced (.unload manager.registry.grammar)] ++
      manager.dismissed.map (Notice.disabled · manager.registry) := by
  rw [unload, if_pos loaded]
  rfl

/-- Whoever is dismissed is a present plugin whose name is listed as enabled. -/
theorem mem_dismissed_of_mem_perform
    {operation : Operation}
    {installed : Installed}
    {registry : Registry}
    (dismisses : .disabled installed registry ∈ (manager.perform operation).2) :
    manager.loaded = true ∧ installed ∈ manager.dismissed := by
  have ofUnload (member : .disabled installed registry ∈ manager.unload.2) :
      manager.loaded = true ∧ installed ∈ manager.dismissed := by
    rcases Bool.eq_false_or_eq_true manager.loaded with loaded | unloaded
    · rw [unload_of_loaded loaded] at member
      refine ⟨loaded, ?_⟩
      have listed : installed ∈ manager.dismissed ∧ manager.registry = registry := by
        simpa using member
      exact listed.1
    · rw [unload_of_unloaded unloaded] at member
      cases member
  have notOfLoad
      (before : PluginManager)
      (order : Traversal NumberImplementation)
      (disabled : List String) :
      .disabled installed registry ∉ (before.loadIn order disabled).2 := by
    rcases Bool.eq_false_or_eq_true before.loaded with loaded | unloaded
    · rw [loadIn_of_loaded loaded]
      exact List.not_mem_nil
    · obtain ⟨grammar, same⟩ := before.loadIn_of_unloaded unloaded order disabled
      rw [same]
      simp
  cases operation with
  | unload => exact ofUnload dismisses
  | load order disabled => exact absurd dismisses (notOfLoad manager order disabled)
  | reload order disabled =>
      rcases List.mem_append.1 (show _ ∈ manager.unload.2 ++ _ from dismisses) with first | second
      · exact ofUnload first
      · exact absurd second (notOfLoad _ order disabled)
  | add _ | remove _ | fillCaches _ => cases dismisses

/-- The plugins that are let register are those that would be dismissed next. -/
theorem Rests.dismissed_load
    (rests : manager.Rests notices)
    (order : Traversal NumberImplementation)
    (disabled : List String) :
    (manager.loadIn order disabled).1.dismissed = manager.eligible disabled := by
  have serves := rests.load order disabled
  rw [dismissed, serves.enabled, plugins_loadIn, eligible]
  refine List.filter_congr fun installed member => ?_
  rw [Bool.eq_iff_iff, List.contains_iff_mem, List.mem_map]
  constructor
  · rintro ⟨other, allowed, same⟩
    rw [← same]
    exact (List.mem_filter.1 allowed).2
  · exact fun allowed => ⟨installed, List.mem_filter.2 ⟨member, allowed⟩, rfl⟩

/-- A load owes what it enables. -/
theorem Rests.owes_load
    (rests : manager.Rests notices)
    (owes : Owes notices [])
    (order : Traversal NumberImplementation)
    (disabled : List String) :
    Owes (notices ++ (manager.loadIn order disabled).2) (manager.eligible disabled) := by
  intro serial
  obtain ⟨grammar, same⟩ := manager.loadIn_of_unloaded rests.loaded order disabled
  have even : notices.countP (Notice.enables serial) = notices.countP (Notice.dismisses serial) :=
    owes serial
  simp only [same, List.countP_append, countP_enables_enabled, countP_dismisses_enabled,
    countP_enables_announced, countP_dismisses_announced, even, Nat.add_zero]

/-- An unload settles what is owed. -/
theorem owes_unload
    (loaded : manager.loaded = true)
    (owes : Owes notices manager.dismissed) :
    Owes (notices ++ manager.unload.2) [] := by
  intro serial
  simp only [unload_of_loaded loaded, List.countP_append, countP_enables_disabled,
    countP_dismisses_disabled, countP_enables_announced, countP_dismisses_announced, owes serial,
    Nat.zero_add, Nat.add_zero]
  rfl

/-! ## Gentle runs -/

/-- As long as every plugin in force is present, another plugin of the name of one cannot be
added. -/
theorem dismissed_add
    (present : manager.enabled = manager.dismissed.map (·.plugin.id))
    (plugin : Plugin) :
    (manager.add plugin).dismissed = manager.dismissed := by
  have listed : (manager.add plugin).dismissed =
      (manager.add plugin).plugins.filter (manager.enabled.contains ·.plugin.id) := by
    rw [dismissed, enabled_add]
  rw [listed, add]
  split
  next => rfl
  next unknown =>
    have unlisted : manager.enabled.contains plugin.id = false := by
      rw [← Bool.not_eq_true, List.contains_iff_mem, present]
      intro member
      obtain ⟨installed, kept, same⟩ := List.mem_map.1 member
      exact unknown (List.any_eq_true.2
        ⟨installed, (List.mem_filter.1 kept).1, beq_iff_eq.2 same⟩)
    rw [List.filter_append, List.filter_cons, List.filter_nil, unlisted,
      if_neg Bool.false_ne_true, List.append_nil]
    rfl

/-- Removing what is not enabled, or not installed, leaves those to be disabled as they are. -/
theorem dismissed_remove
    {id : String}
    (kept : id ∈ manager.enabled → manager.contains id = false) :
    (manager.remove id).dismissed = manager.dismissed := by
  change (manager.plugins.filter (·.plugin.id != id)).filter
    (manager.enabled.contains ·.plugin.id) = manager.dismissed
  rw [List.filter_filter, dismissed]
  refine List.filter_congr fun installed member => ?_
  by_cases listed : manager.enabled.contains installed.plugin.id
  · rw [listed, Bool.true_and, bne_iff_ne]
    rintro rfl
    have absent := kept (List.contains_iff_mem.1 listed)
    rw [contains, List.any_eq_false] at absent
    exact absent installed member (beq_self_eq_true _)
  · rw [Bool.not_eq_true] at listed
    rw [listed, Bool.false_and]

/-- Unless one of them is removed, the plugins in force are still those that would be dismissed. -/
theorem Serves.dismissed_perform
    (serves : manager.Serves notices order chosen)
    (same : manager.dismissed = chosen)
    {operation : Operation}
    (harmless : operation.isHarmless = true)
    (careful : ∀ id, operation = .remove id → id ∈ manager.enabled → manager.contains id = false) :
    (manager.perform operation).1.dismissed = chosen := by
  rw [← same]
  cases operation with
  | add plugin => exact dismissed_add (by rw [same, serves.enabled]) plugin
  | remove id => exact dismissed_remove (careful id rfl)
  | load order disabled => rw [PluginManager.perform, loadIn_of_loaded serves.loaded]
  | fillCaches caches =>
      rw [PluginManager.perform, fillCaches, if_pos serves.loaded]
      rfl
  | unload | reload _ _ => cases harmless

/-- The plugins in force have still to be dismissed, no others have, and those would be. -/
structure Engaged
    (operations : List Operation)
    (order : Traversal NumberImplementation)
    (chosen : List Installed) :
    Prop where
  inForce : InForce operations order chosen
  serves : (run operations).1.Serves (run operations).2 order chosen
  dismissed : (run operations).1.dismissed = chosen
  owes : Owes (run operations).2 chosen

theorem Engaged.concat
    (engaged : Engaged operations order chosen)
    {operation : Operation}
    (harmless : operation.isHarmless = true)
    (careful : ∀ id, operation = .remove id → id ∈ (run operations).1.enabled →
      (run operations).1.contains id = false) :
    Engaged (operations ++ [operation]) order chosen := by
  refine ⟨engaged.inForce.concat harmless, ?_, ?_, ?_⟩ <;> rw [run_concat]
  · exact engaged.serves.perform harmless
  · exact engaged.serves.dismissed_perform engaged.dismissed harmless careful
  · exact engaged.owes.perform harmless (.inl engaged.serves.loaded)

/-- In a gentle run exactly the plugins in force have still to be dismissed, and they would be. -/
theorem Gentle.rests_or_engaged (gentle : Gentle operations) :
    (run operations).1.Rests (run operations).2 ∧ Owes (run operations).2 [] ∨
      ∃ order chosen, Engaged operations order chosen := by
  induction operations using List.reverseRecOn with
  | nil => exact .inl ⟨rests_empty, fun _ => rfl⟩
  | append_singleton operations operation hypothesis =>
      obtain ⟨early, careful⟩ := gentle_concat_iff.1 gentle
      have unloads : (run operations).1.unload.1.Rests
            ((run operations).2 ++ (run operations).1.unload.2) ∧
          Owes ((run operations).2 ++ (run operations).1.unload.2) [] := by
        rcases hypothesis early with ⟨rests, owes⟩ | ⟨order, chosen, engaged⟩
        · refine ⟨rests.unload, ?_⟩
          rw [unload_of_unloaded rests.loaded, List.append_nil]
          exact owes
        · exact ⟨engaged.serves.unload,
            owes_unload engaged.serves.loaded (engaged.dismissed ▸ engaged.owes)⟩
      cases operation with
      | unload =>
          rw [run_concat]
          exact .inl unloads
      | reload order disabled =>
          have loads := unloads.1.dismissed_load order disabled
          have owes := unloads.1.owes_load unloads.2 order disabled
          rw [eligible, plugins_unload] at loads
          rw [List.append_assoc, eligible, plugins_unload] at owes
          refine .inr ⟨order, _, ⟨operations, _, disabled, [], rfl, .inl rfl, rfl, by simp⟩,
              ?_, ?_, ?_⟩ <;>
            rw [run_concat]
          · exact serves_reload unloads.1 order disabled
          · exact loads
          · exact owes
      | load order disabled =>
          rcases hypothesis early with ⟨rests, owes⟩ | ⟨former, chosen, engaged⟩
          · refine .inr ⟨order, _,
                ⟨operations, _, disabled, [], rfl, .inr ⟨rfl, rests.loaded⟩, rfl, by simp⟩,
                ?_, ?_, ?_⟩ <;>
              rw [run_concat]
            · exact rests.load order disabled
            · exact rests.dismissed_load order disabled
            · exact rests.owes_load owes order disabled
          · exact .inr ⟨former, chosen, engaged.concat rfl careful⟩
      | add _ | remove _ | fillCaches _ =>
          rcases hypothesis early with ⟨rests, owes⟩ | ⟨order, chosen, engaged⟩
          · rw [run_concat]
            exact .inl ⟨rests.perform rfl (by rintro _ _ ⟨⟩),
              owes.perform rfl (.inr (by rintro _ _ ⟨⟩))⟩
          · exact .inr ⟨order, chosen, engaged.concat rfl careful⟩

/-- In a gentle run hooks come in pairs. -/
theorem Gentle.paired (gentle : Gentle operations) : Paired operations where
  even before first unloaded serial := by
    rcases (gentle.of_prefix first).rests_or_engaged with ⟨-, owes⟩ | ⟨order, chosen, engaged⟩
    · exact owes serial
    · rw [engaged.serves.loaded] at unloaded
      cases unloaded
  rightful before operation first installed registry dismisses := by
    have early := gentle.of_prefix ((List.prefix_append before [operation]).trans first)
    obtain ⟨loaded, member⟩ := mem_dismissed_of_mem_perform dismisses
    rcases early.rests_or_engaged with ⟨rests, -⟩ | ⟨order, chosen, engaged⟩
    · rw [rests.loaded] at loaded
      cases loaded
    · exact ⟨order, chosen, engaged.inForce, engaged.dismissed ▸ member⟩

/-! ## Plugins that are never dismissed -/

/-- Whoever is let register is a present plugin. -/
theorem mem_plugins_of_mem_perform
    {operation : Operation}
    {installed : Installed}
    (enables : .enabled installed ∈ (manager.perform operation).2) :
    installed ∈ manager.plugins := by
  have ofLoad
      (before : PluginManager)
      (order : Traversal NumberImplementation)
      (disabled : List String)
      (member : .enabled installed ∈ (before.loadIn order disabled).2) :
      installed ∈ before.plugins := by
    rcases Bool.eq_false_or_eq_true before.loaded with loaded | unloaded
    · rw [loadIn_of_loaded loaded] at member
      cases member
    · obtain ⟨grammar, same⟩ := before.loadIn_of_unloaded unloaded order disabled
      have allowed : installed ∈ before.eligible disabled := by simpa [same] using member
      exact (List.mem_filter.1 allowed).1
  have notOfUnload : .enabled installed ∉ manager.unload.2 := by
    rcases Bool.eq_false_or_eq_true manager.loaded with loaded | unloaded
    · rw [unload_of_loaded loaded]
      simp
    · rw [unload_of_unloaded unloaded]
      exact List.not_mem_nil
  cases operation with
  | load order disabled => exact ofLoad manager order disabled enables
  | unload => exact absurd enables notOfUnload
  | reload order disabled =>
      rcases List.mem_append.1 (show _ ∈ manager.unload.2 ++ _ from enables) with first | second
      · exact absurd first notOfUnload
      · exact plugins_unload manager ▸ ofLoad _ order disabled second
  | add _ | remove _ | fillCaches _ => cases enables

/-- An operation says nothing about a plugin that is not present. -/
theorem countP_perform_of_absent
    {serial : Nat}
    (absent : ∀ installed ∈ manager.plugins, installed.serial ≠ serial)
    (operation : Operation) :
    (manager.perform operation).2.countP (Notice.enables serial) = 0 ∧
      (manager.perform operation).2.countP (Notice.dismisses serial) = 0 := by
  constructor <;> rw [List.countP_eq_zero] <;> intro notice member named
  · cases notice with
    | enabled installed =>
        exact absent installed (mem_plugins_of_mem_perform member) (beq_iff_eq.1 named)
    | disabled _ _ | announced _ => cases named
  · cases notice with
    | disabled installed registry =>
        have listed := (mem_dismissed_of_mem_perform member).2
        exact absent installed (List.mem_filter.1 listed).1 (beq_iff_eq.1 named)
    | enabled _ | announced _ => cases named

@[simp] theorem nextSerial_loadIn
    (order : Traversal NumberImplementation)
    (manager : PluginManager)
    (disabled : List String) :
    (manager.loadIn order disabled).1.nextSerial = manager.nextSerial := by
  unfold loadIn
  split <;> rfl

@[simp] theorem nextSerial_unload (manager : PluginManager) :
    manager.unload.1.nextSerial = manager.nextSerial := by
  unfold unload
  split <;> rfl

/-- The plugins after an operation are some of those from before, or there is one more with the next
number. -/
theorem perform_cases (manager : PluginManager) (operation : Operation) :
    (∃ kept : Installed → Bool,
        (manager.perform operation).1.plugins = manager.plugins.filter kept) ∧
        (manager.perform operation).1.nextSerial = manager.nextSerial ∨
      ∃ plugin,
        (manager.perform operation).1.plugins =
          manager.plugins ++ [⟨manager.nextSerial, plugin⟩] ∧
        (manager.perform operation).1.nextSerial = manager.nextSerial + 1 := by
  have unchanged {after : PluginManager}
      (plugins : after.plugins = manager.plugins) :
      ∃ kept : Installed → Bool, after.plugins = manager.plugins.filter kept :=
    ⟨fun _ => true, by rw [plugins, List.filter_eq_self.2 fun _ _ => rfl]⟩
  cases operation with
  | add plugin =>
      rw [perform, add]
      split
      · exact .inl ⟨unchanged rfl, rfl⟩
      · exact .inr ⟨plugin, rfl, rfl⟩
  | remove id => exact .inl ⟨⟨_, rfl⟩, rfl⟩
  | load order disabled =>
      exact .inl ⟨unchanged (plugins_loadIn order manager disabled),
        nextSerial_loadIn order manager disabled⟩
  | unload => exact .inl ⟨unchanged (plugins_unload manager), nextSerial_unload manager⟩
  | reload order disabled =>
      exact .inl ⟨unchanged ((plugins_loadIn order _ disabled).trans (plugins_unload manager)),
        (nextSerial_loadIn order _ disabled).trans (nextSerial_unload manager)⟩
  | fillCaches caches =>
      rw [perform, fillCaches]
      split <;> exact .inl ⟨unchanged rfl, rfl⟩

/-- Plugins are numbered apart, in the order in which they are added. -/
structure Numbered (manager : PluginManager) : Prop where
  apart : (manager.plugins.map (·.serial)).Nodup
  below : ∀ installed ∈ manager.plugins, installed.serial < manager.nextSerial

theorem Numbered.perform (numbered : manager.Numbered) (operation : Operation) :
    (manager.perform operation).1.Numbered := by
  rcases manager.perform_cases operation with
    ⟨⟨kept, plugins⟩, nextSerial⟩ | ⟨plugin, plugins, nextSerial⟩
  · constructor
    · rw [plugins]
      exact numbered.apart.sublist (List.filter_sublist.map _)
    · intro installed member
      rw [plugins] at member
      rw [nextSerial]
      exact numbered.below installed (List.mem_filter.1 member).1
  · constructor
    · rw [plugins, List.map_append, List.map_singleton, ← List.concat_eq_append]
      refine List.Nodup.concat (fun member => ?_) numbered.apart
      obtain ⟨installed, listed, same⟩ := List.mem_map.1 member
      exact absurd (numbered.below installed listed) (same ▸ Nat.lt_irrefl _)
    · intro installed member
      rw [plugins] at member
      rw [nextSerial]
      rcases List.mem_append.1 member with old | new
      · exact Nat.lt_succ_of_lt (numbered.below installed old)
      · rw [List.mem_singleton.1 new]
        exact Nat.lt_succ_self _

/-- Serial numbers are given once. -/
theorem numbered_run (operations : List Operation) : (run operations).1.Numbered := by
  induction operations using List.reverseRecOn with
  | nil => exact ⟨List.nodup_nil, fun _ member => nomatch member⟩
  | append_singleton operations operation numbered =>
      rw [run_concat]
      exact numbered.perform operation

/-- A plugin that is gone for good has been let register more often than it has been dismissed. -/
structure Lost (serial : Nat) (manager : PluginManager) (notices : List Notice) : Prop where
  given : serial < manager.nextSerial
  gone : ∀ installed ∈ manager.plugins, installed.serial ≠ serial
  owed : notices.countP (Notice.dismisses serial) < notices.countP (Notice.enables serial)

/-- What is lost stays lost. -/
theorem Lost.perform {serial : Nat} (lost : Lost serial manager notices) (operation : Operation) :
    Lost serial (manager.perform operation).1 (notices ++ (manager.perform operation).2) := by
  have owed : (notices ++ (manager.perform operation).2).countP (Notice.dismisses serial) <
      (notices ++ (manager.perform operation).2).countP (Notice.enables serial) := by
    obtain ⟨enables, dismisses⟩ := countP_perform_of_absent lost.gone operation
    rw [List.countP_append, List.countP_append, enables, dismisses]
    exact lost.owed
  rcases manager.perform_cases operation with
    ⟨⟨kept, plugins⟩, nextSerial⟩ | ⟨plugin, plugins, nextSerial⟩
  · refine ⟨nextSerial ▸ lost.given, fun installed member => ?_, owed⟩
    rw [plugins] at member
    exact lost.gone installed (List.mem_filter.1 member).1
  · refine ⟨nextSerial ▸ Nat.lt_succ_of_lt lost.given, fun installed member => ?_, owed⟩
    rw [plugins] at member
    rcases List.mem_append.1 member with old | new
    · exact lost.gone installed old
    · rw [List.mem_singleton.1 new]
      exact Nat.ne_of_gt lost.given

/-- A plugin that is removed while it has still to be dismissed is lost. -/
theorem lost_remove
    {id : String}
    (numbered : manager.Numbered)
    (owes : Owes notices manager.dismissed)
    (listed : id ∈ manager.enabled)
    (present : manager.contains id = true) :
    ∃ serial, Lost serial (manager.remove id) notices := by
  obtain ⟨installed, member, named⟩ := List.any_eq_true.1 present
  have named : installed.plugin.id = id := beq_iff_eq.1 named
  have dismissed : installed ∈ manager.dismissed :=
    List.mem_filter.2 ⟨member, List.contains_iff_mem.2 (named ▸ listed)⟩
  refine ⟨installed.serial, numbered.below installed member, fun other kept same => ?_, ?_⟩
  · obtain ⟨old, unlike⟩ := List.mem_filter.1 kept
    have twin : other = installed := List.inj_on_of_nodup_map numbered.apart old member same
    exact bne_iff_ne.1 unlike (twin ▸ named)
  · rw [owes installed.serial]
    exact Nat.lt_add_of_pos_right (copies_pos dismissed)

/-- A run that is not gentle loses a plugin. -/
theorem gentle_or_lost (operations : List Operation) :
    Gentle operations ∨ ∃ serial, Lost serial (run operations).1 (run operations).2 := by
  induction operations using List.reverseRecOn with
  | nil =>
      refine .inl fun before id removes => ?_
      simp at removes
  | append_singleton operations operation hypothesis =>
      rw [run_concat]
      rcases hypothesis with gentle | ⟨serial, lost⟩
      · by_cases careful : ∀ id, operation = .remove id → id ∈ (run operations).1.enabled →
            (run operations).1.contains id = false
        · exact .inl (gentle_concat_iff.2 ⟨gentle, careful⟩)
        · push Not at careful
          obtain ⟨id, rfl, listed, present⟩ := careful
          rcases gentle.rests_or_engaged with ⟨rests, -⟩ | ⟨order, chosen, engaged⟩
          · rw [rests.enabled] at listed
            cases listed
          · have owes : Owes (run operations).2 (run operations).1.dismissed :=
              engaged.dismissed ▸ engaged.owes
            rw [perform, List.append_nil]
            exact .inr (lost_remove (numbered_run operations) owes listed
              (Bool.not_eq_false _ ▸ present))
      · exact .inr ⟨serial, lost.perform operation⟩

/-- Hooks come in pairs up to the final unloading just in case no plugin has been removed while
it was listed as enabled. -/
theorem paired_unload_iff (operations : List Operation) :
    Paired (operations ++ [.unload]) ↔ Gentle operations := by
  constructor
  · intro paired
    refine (gentle_or_lost operations).resolve_right ?_
    rintro ⟨serial, lost⟩
    have unloaded : (run (operations ++ [.unload])).1.loaded = false := by
      rw [run_concat, perform, unload]
      split
      next => rfl
      next unloaded => exact Bool.not_eq_true _ ▸ unloaded
    have even := paired.even _ List.prefix_rfl unloaded serial
    have owed := (lost.perform .unload).owed
    rw [run_concat] at even
    exact absurd even (Nat.ne_of_gt owed)
  · intro gentle
    exact Gentle.paired (gentle_concat_iff.2 ⟨gentle, by rintro _ ⟨⟩⟩)

/-- A plugin that is removed after the loading is never dismissed, and another of its name that
is added then is dismissed without ever having been let register. -/
theorem not_paired_of_replaced :
    let plugin : Plugin := ⟨"a", id⟩
    let operations := [.add plugin, .load .byName [], .remove "a", .add plugin, .unload]
    let notices := (run operations).2
    notices.countP (Notice.enables 0) = 1 ∧ notices.countP (Notice.dismisses 0) = 0 ∧
      notices.countP (Notice.enables 1) = 0 ∧ notices.countP (Notice.dismisses 1) = 1 ∧
      ¬ Paired operations := by
  intro plugin operations notices
  refine ⟨rfl, rfl, rfl, rfl, fun paired => ?_⟩
  have even : 1 = 0 := paired.even operations List.prefix_rfl rfl 0
  cases even

end PluginManager
end Reckoner
