import WebBundle.Graph.Loader
import WebBundle.Plugin.Event
import WebBundle.Worklet.AddModule
import WebBundle.Worklet.Compilation

/-!
# Plugins

A plugin may take over the resolution and the loading of modules and attach
hooks to calls.  One kind of plugin compiles worklets, one does what a list of
rules says, and one does nothing.  Plugins are known by numbers, so that the
same plugin can take part in several builds and keep what it has counted.
-/

namespace WebBundle

/-- The answer to a request with one specifier. -/
structure ResolveRule where
  specifier : String
  answer : Except String Resolved

/-- What happens when a module is loaded. -/
inductive LoadAnswer where
  /-- The build is cancelled, and nothing is ever answered. -/
  | cancel
  | fail (message : String)
  | code (text : String) (kind : Option ModuleKind)

/-- The answer for one module. -/
structure LoadRule where
  id : ModuleId
  answer : LoadAnswer

/-- What happens at calls on a selector. -/
structure CallRule where
  selector : String
  /-- The only kind of modules whose calls are seen. -/
  only : Option ModuleKind := none
  /-- The only method whose calls change anything. -/
  member : Option String := none
  warning : Option String := none
  /-- The text that replaces the first argument. -/
  argument : Option String := none
  /-- The text that replaces the call. -/
  call : Option String := none
  /-- A variable and the request that it is bound to. -/
  boundRequests : List (String × String) := []
  accepts : Bool := false

/-- A plugin that does what rules say. -/
structure RuledPlugin where
  name : String := "ScriptedPlugin"
  /-- The message that the start of a build fails with. -/
  startFailure : Option String := none
  /-- Whether every import leads to an empty virtual module. -/
  stubsImports : Bool := false
  resolve : List ResolveRule := []
  load : List LoadRule := []
  calls : List CallRule := []

/-- A plugin; others are referred to by their numbers. -/
inductive Plugin where
  | worklets (settings : Worklet.Settings Nat)
  | plain
  | ruled (rules : RuledPlugin)

namespace Plugin

/-- The name by which a plugin is found. -/
def name : Plugin → String
  | worklets _ => "CssWorkletPlugin"
  | plain => "PlainPlugin"
  | ruled rules => rules.name

end Plugin

/-- What plugins remember from one call to the next. -/
structure PluginMemory where
  /-- The next number of a worklet, by the number of the plugin that counts. -/
  counters : List (Nat × UInt32) := []
  /-- What plugins with rules were asked, in order. -/
  events : List (String × Event) := []

namespace PluginMemory

/-- The next number of a worklet. -/
def counter (memory : PluginMemory) (plugin : Nat) : UInt32 :=
  ((memory.counters.find? fun entry => entry.1 = plugin).map Prod.snd).getD 0

/-- Sets the next number of a worklet. -/
def setCounter (memory : PluginMemory) (plugin : Nat) (value : UInt32) : PluginMemory :=
  { memory with
    counters := (plugin, value) :: memory.counters.filter fun entry => entry.1 ≠ plugin }

/-- Records an event. -/
def record (memory : PluginMemory) (name : String) (event : Event) : PluginMemory :=
  { memory with events := memory.events ++ [(name, event)] }

end PluginMemory

/-! ## Hooks -/

namespace CallRule

/-- What a rule does with a call that it changes. -/
def reaction (rule : CallRule) (seen : Scan.SeenCall) : Scan.Reaction :=
  let argument := match rule.argument, seen.argument with
    | some text, some (span, _) => [(span, text)]
    | _, _ => []
  let call := match rule.call with
    | some text => [(seen.span, text)]
    | none => []
  { replacements := argument ++ call
    boundRequests := rule.boundRequests
    warnings := rule.warning.toList.map fun message => { message }
    isAccepted := rule.accepts }

/-- The hook of a rule, which records every call that it is meant for. -/
def hook {σ : Type} (record : Event → σ → σ) (rule : CallRule) : Scan.Hook σ where
  selector := rule.selector
  react seen state :=
    if rule.member.isNone || rule.member = some seen.member then
      let value := seen.argument.bind fun argument => argument.2.toText?
      (rule.reaction seen, record (.call seen.selector seen.member value) state)
    else ({}, state)

end CallRule

namespace Plugin

/-- The hooks of a numbered plugin on modules of a kind. -/
def hooks (number : Nat) (kind : ModuleKind) : Plugin → List (Scan.Hook PluginMemory)
  | worklets _ =>
    Worklet.hooks (fun memory => memory.counter number)
      fun value memory => memory.setCounter number value
  | plain => []
  | ruled rules =>
    (rules.calls.filter fun rule => rule.only.isNone || rule.only = some kind).map
      (CallRule.hook fun event memory => memory.record rules.name event)

end Plugin

/-! ## Plugins of a build -/

/-- A plugin with its number. -/
structure Numbered where
  number : Nat
  plugin : Plugin

namespace Numbered

/-- The hooks of several plugins on modules of a kind; only scripts have calls
that are shown to hooks. -/
def hooks (kind : ModuleKind) (plugins : List Numbered) : List (Scan.Hook PluginMemory) :=
  if kind.isScript then plugins.flatMap fun numbered => numbered.plugin.hooks numbered.number kind
  else []

/-- Tells a plugin that a build starts. -/
def start (numbered : Numbered) (memory : PluginMemory) : Except Report PluginMemory × PluginMemory :=
  match numbered.plugin with
  | .worklets _ =>
    let memory := memory.setCounter numbered.number 0
    (.ok memory, memory)
  | .plain => (.ok memory, memory)
  | .ruled rules =>
    let memory := memory.record rules.name .start
    match rules.startFailure with
    | some message => (.error { message }, memory)
    | none => (.ok memory, memory)

/-- Starts plugins until one fails. -/
def startAll : List Numbered → PluginMemory → Option Report × PluginMemory
  | [], memory => (none, memory)
  | numbered :: rest, memory =>
    match numbered.start memory with
    | (.error report, memory) => (some report, memory)
    | (.ok _, memory) => startAll rest memory

end Numbered

/-- How the id of a stub begins. -/
def stubStart : String := "\x00stub:"

namespace RuledPlugin

/-- What the rules answer to a request. -/
def resolve? (rules : RuledPlugin) (importer : Option ModuleId) (specifier : String) :
    Option (Except String Resolved) :=
  match rules.resolve.find? fun rule => rule.specifier = specifier with
  | some rule => some rule.answer
  | none =>
    if rules.stubsImports && importer.isSome then
      some (.ok ⟨⟨stubStart ++ specifier⟩, some .script⟩)
    else none

/-- What the rules answer when a module is loaded. -/
def load? (rules : RuledPlugin) (id : ModuleId) : Option LoadAnswer :=
  match rules.load.find? fun rule => rule.id = id with
  | some rule => some rule.answer
  | none =>
    if rules.stubsImports && id.text.startsWith stubStart then some (.code "" none) else none

end RuledPlugin

/-- What a plugin answers to a request, if it does. -/
def Plugin.resolve (options : Options) (plugin : Plugin) (importer : Option ModuleId)
    (specifier : String) : Except Report (Option Resolved) :=
  match plugin with
  | .worklets _ =>
    match Worklet.resolve? options importer specifier with
    | .error failure => .error { message := failure.message }
    | .ok none => .ok none
    | .ok (some id) => .ok (some ⟨id, some .script⟩)
  | .plain => .ok none
  | .ruled rules =>
    match rules.resolve? importer specifier with
    | none => .ok none
    | some (.ok resolved) => .ok (some resolved)
    | some (.error message) => .error { message }

/-- Asks plugins for a request until one answers. -/
def resolveWith (options : Options) (importer : Option ModuleId) (specifier : String)
    (form : Scan.ImportForm) :
    List Numbered → PluginMemory → Except Report (Option Resolved) × PluginMemory
  | [], memory => (.ok none, memory)
  | numbered :: rest, memory =>
    let memory := match numbered.plugin with
      | .ruled rules => memory.record rules.name (.resolve specifier importer form)
      | _ => memory
    match numbered.plugin.resolve options importer specifier with
    | .error report => (.error report, memory)
    | .ok (some resolved) => (.ok (some resolved), memory)
    | .ok none => resolveWith options importer specifier form rest memory

end WebBundle
