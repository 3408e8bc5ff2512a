import Reckoner.Evaluation.Registry

/-!
# Plugins

A plugin is a bundle of registrations.  A manager holds plugins and the registry that they fill:

* loading lets every plugin register that is not disabled, and then announces the grammar;
* unloading announces the grammar once more, dismisses the plugins that were enabled, and empties
  the registry;
* adding and removing plugins takes effect with the next loading.

Every plugin that is added gets a number of its own, so that two plugins of one name can be told
apart.  What happens on the way is reported as a list of notices.
-/

namespace Reckoner

/-- A bundle of registrations under a name. -/
structure Plugin where
  id : String
  enable : Registry → Registry

/-- A plugin that has been added to a manager, with its number. -/
structure Installed where
  serial : Nat
  plugin : Plugin

/-- What whoever follows the grammar is told. -/
inductive Announcement
  | load (grammar : Grammar)
  | unload (grammar : Grammar)

/-- What happens while plugins are loaded or unloaded. -/
inductive Notice
  /-- A plugin registers what it has. -/
  | enabled (plugin : Installed)
  /-- A plugin is dismissed; its registrations are still there. -/
  | disabled (plugin : Installed) (registry : Registry)
  | announced (announcement : Announcement)

/-- Plugins and what they have registered; `enabled` are the names of the plugins that the last
loading let register. -/
structure PluginManager where
  plugins : List Installed
  nextSerial : Nat
  registry : Registry
  enabled : List String
  loaded : Bool

namespace PluginManager

/-- No plugins. -/
def empty : PluginManager :=
  ⟨[], 0, .empty, [], false⟩

/-- The names of the plugins, in the order in which they were added. -/
def ids (manager : PluginManager) : List String :=
  manager.plugins.map (·.plugin.id)

/-- Whether a plugin of this name has been added. -/
def contains (manager : PluginManager) (id : String) : Bool :=
  manager.plugins.any (·.plugin.id == id)

/-- Add a plugin, unless there is one of its name. -/
def add (manager : PluginManager) (plugin : Plugin) : PluginManager :=
  if manager.contains plugin.id then manager
  else
    { manager with
      plugins := manager.plugins ++ [⟨manager.nextSerial, plugin⟩]
      nextSerial := manager.nextSerial + 1 }

/-- Remove the plugin of a name. -/
def remove (manager : PluginManager) (id : String) : PluginManager :=
  { manager with plugins := manager.plugins.filter (·.plugin.id != id) }

/-- The plugins that a loading would let register. -/
def eligible (manager : PluginManager) (disabled : List String) : List Installed :=
  manager.plugins.filter (fun installed => !disabled.contains installed.plugin.id)

/-- Let every plugin register that is not disabled, work out the promotions, and announce the
grammar; nothing happens when plugins are loaded already.  The implementations that have been
registered are gone through in some order from then on. -/
def loadIn (order : Traversal NumberImplementation) (manager : PluginManager)
    (disabled : List String) : PluginManager × List Notice :=
  if manager.loaded then (manager, [])
  else
    let chosen := manager.eligible disabled
    let filled := chosen.foldl (fun registry installed => installed.plugin.enable registry)
      manager.registry
    let registry := filled.rebuildPromotions order
    ({ manager with
        registry
        enabled := manager.enabled ++ chosen.map (·.plugin.id)
        loaded := true },
      chosen.map Notice.enabled ++ [.announced (.load registry.grammar)])

/-- Load, going through the implementations by name. -/
def load (manager : PluginManager) (disabled : List String) : PluginManager × List Notice :=
  manager.loadIn .byName disabled

/-- The present plugins that the last loading let register, as far as their names tell. -/
def dismissed (manager : PluginManager) : List Installed :=
  manager.plugins.filter (fun installed => manager.enabled.contains installed.plugin.id)

/-- Announce that the grammar goes away, dismiss the enabled plugins and empty the registry; nothing
happens when no plugins are loaded. -/
def unload (manager : PluginManager) : PluginManager × List Notice :=
  if manager.loaded then
    ({ manager with registry := .empty, enabled := [], loaded := false },
      .announced (.unload manager.registry.grammar) ::
        manager.dismissed.map (Notice.disabled · manager.registry))
  else (manager, [])

/-- Unload and load. -/
def reloadIn (order : Traversal NumberImplementation) (manager : PluginManager)
    (disabled : List String) : PluginManager × List Notice :=
  let (unloaded, first) := manager.unload
  let (loaded, second) := unloaded.loadIn order disabled
  (loaded, first ++ second)

/-- Unload and load, going through the implementations by name. -/
def reload (manager : PluginManager) (disabled : List String) : PluginManager × List Notice :=
  manager.reloadIn .byName disabled

end PluginManager
end Reckoner
