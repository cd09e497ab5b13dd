import Mathlib.Data.List.Infix
import WebBundle.Proofs.Search.Slots

/-!
# What a search finds

The modules of a wave are those that were loaded in it, each with what its scan gave and
with the numbers of what its imports lead to.  A number never changes its meaning, and no
module is numbered twice.  So a graph lists the loads of its search in order, and the
dependencies of a module are the modules that its imports were resolved to.
-/

namespace WebBundle.Loader

section Lists

variable {α β γ σ : Type}

theorem forall₂_comp {first : α → β → Prop} {second : β → γ → Prop} {left : List α}
    {middle : List β} {right : List γ} (hfirst : List.Forall₂ first left middle)
    (hsecond : List.Forall₂ second middle right) :
    List.Forall₂ (fun a c => ∃ b, first a b ∧ second b c) left right := by
  induction hfirst generalizing right with
  | nil =>
      cases hsecond
      exact .nil
  | cons hhead _ ih =>
      cases hsecond with
      | cons hother hrest => exact .cons ⟨_, hhead, hother⟩ (ih hrest)

/-- Each result is that of the action in the state in which it came to the item. -/
theorem forEach?_visits {action : α → σ → Option (β × σ)} {items : List α} {state last : σ}
    {results : List β} (hresults : forEach? action items state = some (results, last)) :
    List.Forall₂ (fun visit result => ∃ next, action visit.1 visit.2 = some (result, next))
      (visits? action items state) results := by
  induction items generalizing state results with
  | nil =>
      cases hresults
      exact .nil
  | cons item rest ih =>
      rw [forEach?] at hresults
      rw [visits?]
      cases hitem : action item state with
      | none => simp [hitem] at hresults
      | some given =>
          obtain ⟨result, next⟩ := given
          simp only [hitem] at hresults ⊢
          cases hrest : forEach? action rest next with
          | none => simp [hrest] at hresults
          | some later =>
              obtain ⟨found, final⟩ := later
              simp only [hrest, Option.some.injEq, Prod.mk.injEq] at hresults
              obtain ⟨rfl, rfl⟩ := hresults
              exact .cons ⟨next, hitem⟩ (ih hrest)

theorem visits?_fst_begins (action : α → σ → Option (β × σ)) (items : List α) (state : σ) :
    (visits? action items state).map Prod.fst <+: items := by
  induction items generalizing state with
  | nil => exact List.nil_prefix
  | cons item rest ih =>
      rw [visits?, List.map_cons, List.prefix_cons_inj]
      cases action item state with
      | none => exact List.nil_prefix
      | some given => exact ih given.2

theorem visits?_fst {action : α → σ → Option (β × σ)} {items : List α} {state last : σ}
    {results : List β} (hresults : forEach? action items state = some (results, last)) :
    (visits? action items state).map Prod.fst = items := by
  induction items generalizing state results with
  | nil => rfl
  | cons item rest ih =>
      rw [forEach?] at hresults
      rw [visits?, List.map_cons]
      cases hitem : action item state with
      | none => simp [hitem] at hresults
      | some given =>
          obtain ⟨result, next⟩ := given
          simp only [hitem] at hresults ⊢
          cases hrest : forEach? action rest next with
          | none => simp [hrest] at hresults
          | some later =>
              obtain ⟨found, final⟩ := later
              simp only [hrest, Option.some.injEq, Prod.mk.injEq] at hresults
              obtain ⟨_, rfl⟩ := hresults
              rw [ih hrest]

/-- Where all goes well, each value comes from a visit of its item. -/
theorem forEach_ok {ε : Type} {action : α → σ → Except ε β × σ} {items : List α} {state : σ}
    {values : List β} (hvalues : (forEach action items state).1 = values.map .ok) :
    List.Forall₂ (fun item value => ∃ reached, (item, reached) ∈ visits action items state ∧
      (action item reached).1 = .ok value) items values := by
  induction items generalizing state values with
  | nil =>
      cases values with
      | nil => exact .nil
      | cons value rest => cases hvalues
  | cons item rest ih =>
      cases values with
      | nil => cases hvalues
      | cons value later =>
          obtain ⟨hhead, htail⟩ := List.cons.inj hvalues
          refine .cons ⟨state, List.mem_cons_self, hhead⟩ ((ih htail).imp ?_)
          rintro other found ⟨reached, hreached, hfound⟩
          exact ⟨reached, List.mem_cons_of_mem _ hreached, hfound⟩

end Lists

/-! ## Numbers -/

namespace Numbering

/-- The wave is numbered behind everything else, and no module twice. -/
structure Consistent (before : List ModuleId) (numbering : Numbering) : Prop where
  known_eq : numbering.known = before ++ numbering.wave.map Resolved.id
  nodup : numbering.known.Nodup

theorem Consistent.empty : Consistent [] {} := ⟨rfl, List.nodup_nil⟩

theorem Consistent.known_of_isEmpty {before : List ModuleId} {numbering : Numbering}
    (h : numbering.Consistent before) (hempty : numbering.wave.isEmpty = true) :
    numbering.known = before := by
  rw [h.known_eq, List.isEmpty_iff.mp hempty, List.map_nil, List.append_nil]

theorem Consistent.number {before : List ModuleId} {numbering : Numbering}
    (h : numbering.Consistent before) (resolved : Resolved) :
    (numbering.number resolved).2.Consistent before := by
  rw [Numbering.number]
  split
  · exact h
  · rename_i hnew
    refine ⟨?_, ?_⟩
    · rw [h.known_eq, List.map_append, List.append_assoc]
      rfl
    · rw [List.contains_eq_mem, decide_eq_true_eq] at hnew
      refine List.nodup_append.mpr ⟨h.nodup, List.pairwise_singleton _ _, ?_⟩
      rintro id hid _ hother rfl
      rw [List.mem_singleton.mp hother] at hid
      exact hnew hid

/-- A module is known under the number that it gets. -/
theorem number_known (numbering : Numbering) (resolved : Resolved) :
    (numbering.number resolved).2.known[(numbering.number resolved).1]? = some resolved.id := by
  rw [number]
  split
  · rename_i hknown
    rw [List.contains_eq_mem, decide_eq_true_eq] at hknown
    exact List.getElem?_idxOf hknown
  · simp

theorem known_prefix_number (numbering : Numbering) (resolved : Resolved) :
    numbering.known <+: (numbering.number resolved).2.known := by
  rw [number]
  split
  · exact List.prefix_rfl
  · exact List.prefix_append _ _

theorem mem_wave_number {numbering : Numbering} {resolved other : Resolved}
    (hother : other ∈ (numbering.number resolved).2.wave) :
    other ∈ numbering.wave ∨ other = resolved := by
  rw [number] at hother
  split at hother
  · exact .inl hother
  · rw [List.mem_append, List.mem_singleton] at hother
    exact hother

end Numbering

theorem getElem?_of_prefix {α : Type} {before after : List α} (hbegins : before <+: after)
    {index : Nat} {value : α} (hvalue : before[index]? = some value) :
    after[index]? = some value := by
  obtain ⟨more, rfl⟩ := hbegins
  have hindex : index < before.length := (List.getElem?_eq_some_iff.mp hvalue).1
  rw [List.getElem?_append_left hindex, hvalue]

/-- Modules are known under their numbers. -/
def Numbers (known : List ModuleId) : List Resolved → List Nat → Prop :=
  List.Forall₂ fun target number => known[number]? = some target.id

theorem Numbers.mono {known more : List ModuleId} {targets : List Resolved} {numbers : List Nat}
    (h : Numbers known targets numbers) (hbegins : known <+: more) :
    Numbers more targets numbers :=
  h.imp fun _ _ hnumber => getElem?_of_prefix hbegins hnumber

/-- Every number is the place of a known module. -/
theorem Numbers.lt {known : List ModuleId} {targets : List Resolved} {numbers : List Nat}
    (h : Numbers known targets numbers) {number : Nat} (hnumber : number ∈ numbers) :
    number < known.length := by
  induction h with
  | nil => cases hnumber
  | cons hhead _ ih =>
      rcases List.mem_cons.mp hnumber with rfl | hrest
      · exact (List.getElem?_eq_some_iff.mp hhead).1
      · exact ih hrest

theorem known_prefix_numberAll (targets : List Resolved) (numbering : Numbering) :
    numbering.known <+: (numberAll targets numbering).2.known :=
  forEach_keeps (fun resolved (numbering : Numbering) => numbering.number resolved)
    (fun next => numbering.known <+: next.known)
    (fun resolved next hbegins => hbegins.trans (next.known_prefix_number resolved))
    targets List.prefix_rfl

theorem numbers_numberAll (targets : List Resolved) (numbering : Numbering) :
    Numbers (numberAll targets numbering).2.known targets (numberAll targets numbering).1 := by
  induction targets generalizing numbering with
  | nil => exact .nil
  | cons target rest ih =>
      refine .cons ?_ (ih (numbering.number target).2)
      exact getElem?_of_prefix (known_prefix_numberAll rest (numbering.number target).2)
        (numbering.number_known target)

theorem consistent_numberAll {before : List ModuleId} {numbering : Numbering}
    (h : numbering.Consistent before) (targets : List Resolved) :
    (numberAll targets numbering).2.Consistent before :=
  forEach_keeps (fun resolved (numbering : Numbering) => numbering.number resolved)
    (Numbering.Consistent before) (fun resolved _ h => h.number resolved) targets h

theorem mem_wave_numberAll {targets : List Resolved} {numbering : Numbering} {other : Resolved}
    (hother : other ∈ (numberAll targets numbering).2.wave) :
    other ∈ numbering.wave ∨ other ∈ targets := by
  induction targets generalizing numbering with
  | nil => exact .inl hother
  | cons target rest ih =>
      rcases ih hother with hother | hother
      · rcases Numbering.mem_wave_number hother with hother | rfl
        · exact .inl hother
        · exact .inr List.mem_cons_self
      · exact .inr (List.mem_cons_of_mem _ hother)

/-! ## Waves -/

theorem known_prefix_numberWave (items : List (Module × List Resolved)) (numbering : Numbering) :
    numbering.known <+: (numberWave items numbering).2.known :=
  forEach_keeps numberOne (fun next => numbering.known <+: next.known)
    (fun item next hbegins => hbegins.trans (known_prefix_numberAll item.2 next))
    items List.prefix_rfl

theorem consistent_numberWave {before : List ModuleId} {numbering : Numbering}
    (h : numbering.Consistent before) (items : List (Module × List Resolved)) :
    (numberWave items numbering).2.Consistent before :=
  forEach_keeps numberOne (Numbering.Consistent before)
    (fun item _ h => consistent_numberAll h item.2) items h

theorem mem_wave_numberWave {items : List (Module × List Resolved)} {numbering : Numbering}
    {other : Resolved} (hother : other ∈ (numberWave items numbering).2.wave) :
    other ∈ numbering.wave ∨ ∃ item ∈ items, other ∈ item.2 := by
  induction items generalizing numbering with
  | nil => exact .inl hother
  | cons item rest ih =>
      rcases ih hother with hother | ⟨later, hlater, hother⟩
      · rcases mem_wave_numberAll hother with hother | hother
        · exact .inl hother
        · exact .inr ⟨item, List.mem_cons_self, hother⟩
      · exact .inr ⟨later, List.mem_cons_of_mem _ hlater, hother⟩

/-- A numbered module is the module with the numbers of its targets. -/
structure Numbered (known : List ModuleId) (item : Module × List Resolved) (module : Module) :
    Prop where
  id_eq : module.id = item.1.id
  stableId_eq : module.stableId = item.1.stableId
  kind_eq : module.kind = item.1.kind
  content_eq : module.content = item.1.content
  numbers : Numbers known item.2 module.dependencies

theorem Numbered.mono {known later : List ModuleId} {item : Module × List Resolved}
    {module : Module} (h : Numbered known item module) (hbegins : known <+: later) :
    Numbered later item module :=
  { h with numbers := h.numbers.mono hbegins }

theorem numbered_numberWave (items : List (Module × List Resolved)) (numbering : Numbering) :
    List.Forall₂ (Numbered (numberWave items numbering).2.known) items
      (numberWave items numbering).1 := by
  induction items generalizing numbering with
  | nil => exact .nil
  | cons item rest ih =>
      refine .cons ⟨rfl, rfl, rfl, rfl, ?_⟩ (ih _)
      exact (numbers_numberAll item.2 numbering).mono
        (known_prefix_numberWave rest (numberOne item numbering).2)

variable {σ : Type} {steps : Steps σ}

/-- How a module came about that was loaded at some point of a search, before its
imports are numbered. -/
structure Examined (steps : Steps σ) (scans : List ((ModuleId × Loaded) × σ))
    (load : Resolved × σ) (item : Module × List Resolved) where
  loaded : Loaded
  loadedAt : σ
  scannedAt : σ
  id_eq : item.1.id = load.1.id
  stableId_eq : item.1.stableId = steps.stableId item.1.id
  kind_eq : item.1.kind = loaded.kind
  load_eq : steps.load load.1 load.2 = some (.ok loaded, loadedAt)
  scan_mem : ((item.1.id, loaded), scannedAt) ∈ scans
  scan_eq : (steps.scan item.1.id loaded scannedAt).1 = .ok item.1.content
  resolved : List.Forall₂ (fun (record : Scan.ImportRecord) target => ∃ resolvedAt,
      (steps.resolve (some item.1.id) record.specifier record.form resolvedAt).1 = .ok target)
    item.1.content.records item.2

/-- How a module of a graph was found. -/
structure Found (steps : Steps σ) (scans : List ((ModuleId × Loaded) × σ))
    (known : List ModuleId) (load : Resolved × σ) (module : Module) where
  item : Module × List Resolved
  examined : Examined steps scans load item
  numbered : Numbered known item module

theorem loadOne_eq_ok {resolved : Resolved} {state next : σ} {item : ModuleId × Loaded}
    (hload : loadOne steps resolved state = some (.ok item, next)) :
    item.1 = resolved.id ∧ steps.load resolved state = some (.ok item.2, next) := by
  rw [loadOne, Option.map_eq_some_iff] at hload
  obtain ⟨⟨result, reached⟩, hgiven, heq⟩ := hload
  cases result with
  | error report => cases heq
  | ok loaded =>
      cases heq
      exact ⟨rfl, hgiven⟩

theorem scanOne_eq_ok {item : ModuleId × Loaded} {state : σ} {module : Module}
    (hscan : (scanOne steps item state).1 = .ok module) :
    module.id = item.1 ∧ module.stableId = steps.stableId item.1 ∧ module.kind = item.2.kind ∧
      (steps.scan item.1 item.2 state).1 = .ok module.content := by
  rw [scanOne] at hscan
  cases hresult : (steps.scan item.1 item.2 state).1 with
  | error reports =>
      simp only [hresult, Except.map] at hscan
      cases hscan
  | ok content =>
      simp only [hresult, Except.map] at hscan
      cases hscan
      exact ⟨rfl, rfl, rfl, rfl⟩

theorem resolveOne_eq_ok {module : Module} {state : σ} {item : Module × List Resolved}
    (hresolve : (resolveOne steps module state).1 = .ok item) :
    item.1 = module ∧
      List.Forall₂ (fun (record : Scan.ImportRecord) target => ∃ resolvedAt,
          (record, resolvedAt) ∈
              visits (resolveRecord steps module.id) module.content.records state ∧
            (resolveRecord steps module.id record resolvedAt).1 = .ok target)
        module.content.records item.2 := by
  rw [resolveOne] at hresolve
  cases hcollect : collect
      (forEach (resolveRecord steps module.id) module.content.records state).1 with
  | error reports =>
      simp only [hcollect, Except.map] at hresolve
      cases hresolve
  | ok targets =>
      simp only [hcollect, Except.map] at hresolve
      cases hresolve
      exact ⟨rfl, forEach_ok (collect_eq_ok hcollect)⟩

/-- The modules of a wave that is followed by another one come from its loads. -/
theorem WaveDone.examined {numbering next : Numbering} {state last : σ} {modules : List Module}
    (done : WaveDone steps numbering state modules next last) :
    List.Forall₂ (fun load item => Nonempty
        (Examined steps (waveScans steps (numbering, state)) load item))
      (waveLoads steps (numbering, state)) done.resolved := by
  obtain ⟨results, hresults, hconclude⟩ := loadWave_eq done.load_eq
  obtain ⟨_, rfl⟩ := concludeWave_eq_ok hconclude.symm
  have hloads := forEach?_visits hresults
  rw [List.forall₂_map_right_iff] at hloads
  have hscans := forEach_ok done.scan_eq
  have hresolves := forEach_ok done.resolve_eq
  have hvisits : waveScans steps (numbering, state) =
      visits (scanOne steps) done.loaded done.loadedAt := by
    simp only [waveScans, done.load_eq]
  rw [hvisits]
  refine (forall₂_comp (forall₂_comp hloads hscans) hresolves).imp ?_
  rintro load item ⟨scanned, ⟨found, ⟨loadedAt, hload⟩, scannedAt, hmem, hscan⟩,
    resolvedAt, _, hresolve⟩
  obtain ⟨hfound, hgiven⟩ := loadOne_eq_ok hload
  obtain ⟨hid, hstable, hkind, hcontent⟩ := scanOne_eq_ok hscan
  obtain ⟨rfl, htargets⟩ := resolveOne_eq_ok hresolve
  rw [← hid] at hstable hcontent
  exact ⟨{
    loaded := found.2
    loadedAt
    scannedAt
    id_eq := hid.trans hfound
    stableId_eq := hstable
    kind_eq := hkind
    load_eq := hgiven
    scan_mem := by rw [hid]; exact hmem
    scan_eq := hcontent
    resolved := htargets.imp fun _ _ htarget => htarget.imp fun _ hresolved => hresolved.2 }⟩

theorem WaveDone.numbered {numbering next : Numbering} {state last : σ} {modules : List Module}
    (done : WaveDone steps numbering state modules next last) :
    List.Forall₂ (Numbered next.known) done.resolved modules := by
  have hnumbered := numbered_numberWave done.resolved { numbering with wave := [] }
  rw [done.number_eq] at hnumbered
  exact hnumbered

theorem WaveDone.found {numbering next : Numbering} {state last : σ} {modules : List Module}
    (done : WaveDone steps numbering state modules next last) :
    List.Forall₂ (fun load module => Nonempty
        (Found steps (waveScans steps (numbering, state)) next.known load module))
      (waveLoads steps (numbering, state)) modules := by
  refine (forall₂_comp done.examined done.numbered).imp ?_
  rintro load module ⟨item, ⟨examined⟩, hnumbered⟩
  exact ⟨⟨item, examined, hnumbered⟩⟩

/-- What was found stays found while the search goes on. -/
def Found.mono {scans more : List ((ModuleId × Loaded) × σ)} {known later : List ModuleId}
    {load : Resolved × σ} {module : Module} (found : Found steps scans known load module)
    (hscans : scans ⊆ more) (hknown : known <+: later) : Found steps more later load module :=
  { item := found.item
    examined := { found.examined with scan_mem := hscans found.examined.scan_mem }
    numbered := found.numbered.mono hknown }

/-- The next wave is numbered behind this one. -/
theorem WaveDone.consistent {numbering next : Numbering} {state last : σ} {modules : List Module}
    {before : List ModuleId} (done : WaveDone steps numbering state modules next last)
    (h : numbering.Consistent before) : next.Consistent numbering.known := by
  have hnext := consistent_numberWave
    (⟨(List.append_nil _).symm, h.nodup⟩ :
      Numbering.Consistent numbering.known { numbering with wave := [] }) done.resolved
  rw [done.number_eq] at hnext
  exact hnext

/-- The next wave is imported by this one. -/
theorem WaveDone.exists_importer {numbering next : Numbering} {state last : σ}
    {modules : List Module} (done : WaveDone steps numbering state modules next last)
    {target : Resolved} (htarget : target ∈ next.wave) :
    ∃ item ∈ done.resolved, target ∈ item.2 := by
  have hnumber : next = (numberWave done.resolved { numbering with wave := [] }).2 := by
    rw [done.number_eq]
  rw [hnumber] at htarget
  exact (mem_wave_numberWave htarget).resolve_left fun hnone => nomatch hnone

theorem WaveDone.loads_fst {numbering next : Numbering} {state last : σ} {modules : List Module}
    (done : WaveDone steps numbering state modules next last) :
    (waveLoads steps (numbering, state)).map Prod.fst = numbering.wave := by
  obtain ⟨results, hresults, _⟩ := loadWave_eq done.load_eq
  exact visits?_fst hresults

theorem WaveDone.ids_eq {numbering next : Numbering} {state last : σ} {modules : List Module}
    (done : WaveDone steps numbering state modules next last) :
    modules.map Module.id = numbering.wave.map Resolved.id := by
  have hids : List.Forall₂ Eq (modules.map Module.id)
      ((waveLoads steps (numbering, state)).map fun load => load.1.id) := by
    refine List.forall₂_map_left_iff.mpr (List.forall₂_map_right_iff.mpr (done.found.flip.imp ?_))
    rintro module load ⟨found⟩
    exact found.numbered.id_eq.trans found.examined.id_eq
  rw [List.forall₂_eq_eq_eq] at hids
  rw [hids, ← done.loads_fst, List.map_map]
  rfl

/-- The modules of a search are those that it loads, in this order, and every number that
was given is the place of its module. -/
theorem Runs.found {limit : Nat} {numbering : Numbering} {state last : σ}
    {result : Except LoadFailure (List Module)} {modules : List Module} {before : List ModuleId}
    (hruns : Runs steps limit numbering state result last) (hresult : result = .ok modules)
    (h : numbering.Consistent before) :
    (before ++ modules.map Module.id).Nodup ∧
      numbering.known <+: before ++ modules.map Module.id ∧
      List.Forall₂ (fun load module => Nonempty
          (Found steps ((waves steps limit numbering state).flatMap (waveScans steps))
            (before ++ modules.map Module.id) load module))
        ((waves steps limit numbering state).flatMap (waveLoads steps)) modules := by
  induction hruns generalizing modules before with
  | finished hempty =>
      cases hresult
      rw [waves_of_isEmpty _ _ hempty, List.map_nil, List.append_nil, ← h.known_of_isEmpty hempty]
      exact ⟨h.nodup, List.prefix_rfl, .nil⟩
  | failed => cases hresult
  | @followed limit numbering state first next reached result last hempty hwave _ ih =>
      cases result with
      | error failure => cases hresult
      | ok later =>
          cases hresult
          obtain ⟨done⟩ := runWave_eq_ok hwave
          obtain ⟨hnodup, hbegins, hlater⟩ := ih rfl (done.consistent h)
          have hknown : numbering.known = before ++ first.map Module.id := by
            rw [h.known_eq, done.ids_eq]
          rw [waves_succ _ _ hempty, hwave, List.map_append, ← List.append_assoc, ← hknown]
          refine ⟨hnodup, List.prefix_append _ _, ?_⟩
          rw [List.flatMap_cons, List.flatMap_cons]
          refine List.rel_append (done.found.imp ?_) (hlater.imp ?_)
          · rintro load module ⟨found⟩
            exact ⟨found.mono (List.subset_append_left _ _) hbegins⟩
          · rintro load module ⟨found⟩
            exact ⟨found.mono (List.subset_append_right _ _) List.prefix_rfl⟩

/-- A graph lists the modules that its search loads, each under one number. -/
theorem load_found {limit : Nat} {entries : List (Option String × Resolved)} {state last : σ}
    {graph : Graph} (hload : Loader.load steps limit entries state = some (.ok graph, last)) :
    (graph.modules.map Module.id).Nodup ∧
      List.Forall₂ (fun load module => Nonempty
          (Found steps (scans steps limit entries state) (graph.modules.map Module.id) load module))
        (loads steps limit entries state) graph.modules ∧
      Numbers (graph.modules.map Module.id) (entries.map Prod.snd)
        (numberAll (entries.map Prod.snd) {}).1 ∧
      graph.entries = (entries.map Prod.fst).zip (numberAll (entries.map Prod.snd) {}).1 := by
  rw [load_eq_search, search] at hload
  have hconsistent := consistent_numberAll .empty (entries.map Prod.snd)
  have hnumbers := numbers_numberAll (entries.map Prod.snd) {}
  rw [loads, scans, wavesOf]
  generalize numberAll (entries.map Prod.snd) {} = numbered at hload hconsistent hnumbers ⊢
  obtain ⟨numbers, numbering⟩ := numbered
  dsimp only at hload hconsistent hnumbers ⊢
  cases hrun : runWaves steps limit numbering state with
  | none => simp [hrun] at hload
  | some given =>
      obtain ⟨result, final⟩ := given
      cases result with
      | error failure => simp [hrun] at hload
      | ok modules =>
          simp only [hrun, Option.some.injEq, Prod.mk.injEq, Except.ok.injEq] at hload
          obtain ⟨rfl, rfl⟩ := hload
          obtain ⟨hnodup, hbegins, hfound⟩ := (runs_of_runWaves hrun).found rfl hconsistent
          exact ⟨hnodup, hfound, hnumbers.mono hbegins, rfl⟩

end WebBundle.Loader
