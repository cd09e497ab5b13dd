import WebBundle.Proofs.Output.Rendering
import WebBundle.Proofs.Worklet.Exact

/-!
# What worklets add to a module

A plugin for worklets adds a variable, an import record and an edit for every call that
it rewrites, behind everything that the module has without it.  So its code has the
variables in front of everything else and other arguments in the rewritten calls; the rest
is the code without the plugin.
-/

namespace WebBundle

open Syntax Scan Output

/-- The worklets that are asked for by their texts in a program that stands for a module;
only scripts show their calls. -/
def askedWorklets (kind : ModuleKind) (program : Program) : List (Span × String) :=
  if kind.isScript then Worklet.knownModules program else []

/-- The arguments of rewritten calls, which become the variables of the worklets. -/
def workletArguments (worklets : List (Span × String)) (number : Nat) : List Replacement :=
  (worklets.zipIdx number).map fun asked =>
    ⟨asked.1.1, (Worklet.variableName (.ofNat asked.2)).toList⟩

/-- The import records that ask for worklets, which are numbered from a number on. -/
def workletRecords (worklets : List (Span × String)) (number : Nat) : List ImportRecord :=
  (worklets.zipIdx number).map fun asked =>
    ⟨Worklet.encodeLoaderRequest ⟨toString (UInt32.ofNat asked.2).toNat⟩ asked.1.2,
      .generated, ⟨0, 0⟩⟩

theorem getElem?_workletRecords {worklets : List (Span × String)} {place : Nat}
    {asked : Span × String} (hasked : worklets[place]? = some asked) (number : Nat) :
    (workletRecords worklets number)[place]? =
      some ⟨Worklet.encodeLoaderRequest ⟨toString (UInt32.ofNat (number + place)).toNat⟩ asked.2,
        .generated, ⟨0, 0⟩⟩ := by
  rw [workletRecords, List.getElem?_map, List.getElem?_zipIdx, hasked]
  rfl

/-- The import records that the hooks of a plugin add when its counter stands at a number. -/
theorem records_addReactions (program : Program) (number : Nat) :
    (((declared program).addReactions
        (Worklet.reactionsFrom 0 number (shownCalls program))).toView program.source).records =
      ((declared program).toView program.source).records ++
        workletRecords (Worklet.knownModules program) number := by
  have hrequests := (declared program).boundRequests_addReactions
    (Worklet.reactionsFrom 0 number (shownCalls program))
  obtain ⟨hreaction, _⟩ := declared_reaction program
  rw [hreaction, Worklet.boundRequests_reactionsFrom, Worklet.filterMap_shownCalls] at hrequests
  have hrecords := (declared program).records_addReactions
    (Worklet.reactionsFrom 0 number (shownCalls program))
  simp only [Findings.toView, Findings.variableRecords, hrecords, hrequests, hreaction,
    List.nil_append, List.map_nil, List.append_nil, List.map_map]
  rfl

/-- A view of a module and what it becomes with worklets, which are numbered from a number
on. -/
structure AddsWorklets (worklets : List (Span × String)) (number : Nat) (plain view : View) :
    Prop where
  /-- The arguments become the variables of the worklets. -/
  edits : view.edits = plain.edits ++ (worklets.zipIdx number).map fun asked =>
    .replace asked.1.1 (Worklet.variableName (.ofNat asked.2))
  /-- Every variable is bound to an import of its own. -/
  records : ∃ requests : List String, requests.length = worklets.length ∧
    (∀ request ∈ requests, Worklet.isLoaderRequest request = true) ∧
    view.records = plain.records ++ requests.map fun request => ⟨request, .generated, ⟨0, 0⟩⟩
  boundRecords : view.boundRecords =
    ((worklets.zipIdx number).zipIdx plain.records.length).map fun asked =>
      (Worklet.variableName (.ofNat asked.1.2), asked.2)
  source : view.source = plain.source
  hasDeclarations : view.hasDeclarations = plain.hasDeclarations
  exports : view.exports = plain.exports
  stars : view.stars = plain.stars

namespace AddsWorklets

theorem nil {plain : View} (hbound : plain.boundRecords = []) (number : Nat) :
    AddsWorklets [] number plain plain where
  edits := (List.append_nil _).symm
  records := ⟨[], rfl, List.forall_mem_nil _, (List.append_nil _).symm⟩
  boundRecords := hbound
  source := rfl
  hasDeclarations := rfl
  exports := rfl
  stars := rfl

/-- What the hooks of a plugin add when its counter stands at a number. -/
theorem addReactions (program : Program) (number : Nat) :
    AddsWorklets (Worklet.knownModules program) number
      ((declared program).toView program.source)
      (((declared program).addReactions
        (Worklet.reactionsFrom 0 number (shownCalls program))).toView program.source) := by
  have hadded := records_addReactions program number
  have hreplacements := (declared program).replacements_addReactions
    (Worklet.reactionsFrom 0 number (shownCalls program))
  have hrequests := (declared program).boundRequests_addReactions
    (Worklet.reactionsFrom 0 number (shownCalls program))
  obtain ⟨hreaction, _⟩ := declared_reaction program
  rw [hreaction, Worklet.replacements_reactionsFrom, Worklet.filterMap_shownCalls]
    at hreplacements
  rw [hreaction, Worklet.boundRequests_reactionsFrom, Worklet.filterMap_shownCalls] at hrequests
  have hrest := (declared program).addReactions_eq
    (Worklet.reactionsFrom 0 number (shownCalls program))
  generalize (declared program).addReactions _ = found at *
  have hedits : found.edits = (declared program).edits := by rw [hrest]
  have hrecords : found.records = (declared program).records := by rw [hrest]
  constructor
  case edits =>
    simp only [Findings.toView, hedits, hreplacements, hreaction, List.nil_append, List.map_nil,
      List.append_nil, List.map_map]
    rfl
  case records =>
    refine ⟨((Worklet.knownModules program).zipIdx number).map fun asked =>
      Worklet.encodeLoaderRequest ⟨toString (UInt32.ofNat asked.2).toNat⟩ asked.1.2, ?_, ?_, ?_⟩
    · rw [List.length_map, List.length_zipIdx]
    · rw [List.forall_mem_map]
      exact fun asked _ => Worklet.isLoaderRequest_encode _ _
    · rw [hadded, workletRecords, List.map_map]
      rfl
  case boundRecords =>
    simp only [Findings.toView, Findings.variableRecords, Findings.nextRecord, hrecords, hrequests,
      hreaction, List.nil_append, List.map_nil, List.append_nil, List.map_map, List.zipIdx_map]
    rfl
  case source => rfl
  case hasDeclarations => rw [hrest]; rfl
  case exports => rw [hrest]; rfl
  case stars => rw [hrest]; rfl

/-! ## Code -/

variable {worklets : List (Span × String)} {number : Nat} {plain view : View}

/-- The code of a module with worklets differs from its code without them in two places. -/
structure CodeGains (target other : Nat → String) (worklets : List (Span × String))
    (number : Nat) (plain view : View) : Prop where
  /-- The variables of the worklets stand in front of everything else, and calls that are
  rewritten have other arguments. -/
  code : scriptCode target view = moduleFunction
    (boundCode target view.boundRecords ++ prologue other plain ++
      String.ofList (splice (replacements other plain ++ workletArguments worklets number) 0
        plain.source.toList) ++
      epilogue plain)
  /-- Every stretch of the source that these arguments do not touch becomes what it becomes
  without worklets. -/
  stretch : ∀ before text after, plain.source.toList = before ++ (text ++ after) →
    Apart (workletArguments worklets number) (byteLength before)
      (byteLength before + byteLength text) →
    splice (replacements other plain ++ workletArguments worklets number) 0 plain.source.toList =
      splice (replacements other plain ++ workletArguments worklets number) 0 before ++
        (splice (replacements other plain) (byteLength before) text ++
          splice (replacements other plain ++ workletArguments worklets number)
            (byteLength before + byteLength text) after)

theorem codeGains (h : AddsWorklets worklets number plain view)
    (hbound : plain.boundRecords = [])
    (hsound : ∀ edit ∈ plain.edits, ∀ record, edit.record? = some record →
      record < plain.records.length)
    {target other : Nat → String}
    (hsame : ∀ record < plain.records.length, target record = other record) :
    CodeGains target other worklets number plain view where
  code := by
    have hepilogue : epilogue view = epilogue plain := by rw [epilogue, epilogue, h.stars]
    have hedits : replacements target view =
        replacements other plain ++ workletArguments worklets number := by
      rw [replacements_append h.edits hsound hsame, List.map_map]
      rfl
    rw [scriptCode, editedSource, prologue_eq target other h.hasDeclarations h.exports hbound,
      hedits, h.source, hepilogue]
  stretch := by
    intro before text after hsource hapart
    rw [hsource]
    exact splice_stretch _ after hapart

end AddsWorklets

end WebBundle
