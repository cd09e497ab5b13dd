import WebBundle.Proofs.Search.Graph

/-!
# Logs of searches

A search asks its parts to load modules, to scan them and to resolve their imports.  The
questions can be noted, with the answers, in the state that the parts hand on, which
changes nothing else.  A wave that ends well has asked one question of each kind for a
module, and one for each of its imports, in the order of the modules.
-/

namespace WebBundle

/-- A question to a part of a search, with the answer. -/
inductive Asked where
  | load (resolved : Resolved) (answer : Except Report Loaded)
  | scan (id : ModuleId) (loaded : Loaded) (answer : Except (List Report) ModuleContent)
  | resolve (importer : Option ModuleId) (specifier : String) (form : Scan.ImportForm)
    (answer : Except Report Resolved)

namespace Asked

/-- The reports of an answer. -/
def reports : Asked → List Report
  | load _ (.error report) => [report]
  | scan _ _ (.error reports) => reports
  | resolve _ _ _ (.error report) => [report]
  | _ => []

/-- What was to be loaded, with the answer. -/
def load? : Asked → Option (Resolved × Except Report Loaded)
  | load resolved answer => some (resolved, answer)
  | _ => none

/-- What was to be scanned, with the answer. -/
def scan? : Asked → Option (ModuleId × Loaded × Except (List Report) ModuleContent)
  | scan id loaded answer => some (id, loaded, answer)
  | _ => none

/-- What a module asked to be resolved, with the answer. -/
def resolvedFor? (id : ModuleId) :
    Asked → Option ((String × Scan.ImportForm) × Except Report Resolved)
  | resolve (some importer) specifier form answer =>
    if importer = id then some ((specifier, form), answer) else none
  | _ => none

end Asked

/-- The parts of a search that note what they are asked. -/
def Steps.logged {σ : Type} (steps : Steps σ) : Steps (σ × List Asked) where
  resolve importer specifier form state :=
    let (answer, next) := steps.resolve importer specifier form state.1
    (answer, next, state.2 ++ [.resolve importer specifier form answer])
  load resolved state := (steps.load resolved state.1).map fun (answer, next) =>
    (answer, next, state.2 ++ [.load resolved answer])
  scan id loaded state :=
    let (answer, next) := steps.scan id loaded state.1
    (answer, next, state.2 ++ [.scan id loaded answer])
  stableId := steps.stableId
  isCancelled state := steps.isCancelled state.1

namespace Loader

section Lists

variable {α β σ : Type}

theorem forEach_log (action : α → σ × List Asked → β × (σ × List Asked))
    (asks : α → σ × List Asked → List Asked)
    (hasks : ∀ item state, (action item state).2.2 = state.2 ++ asks item state)
    (items : List α) (state : σ × List Asked) :
    (forEach action items state).2.2 =
      state.2 ++ (visits action items state).flatMap fun visit => asks visit.1 visit.2 := by
  induction items generalizing state with
  | nil => exact (List.append_nil _).symm
  | cons item rest ih =>
      change (forEach action rest (action item state).2).2.2 = _
      rw [ih, hasks, visits, List.flatMap_cons, List.append_assoc]

theorem forEach_log_zip (action : α → σ × List Asked → β × (σ × List Asked))
    (asks : α → β → Asked)
    (hasks : ∀ item state, (action item state).2.2 =
      state.2 ++ [asks item (action item state).1])
    (items : List α) (state : σ × List Asked) :
    (forEach action items state).2.2 =
      state.2 ++ (items.zip (forEach action items state).1).map fun pair => asks pair.1 pair.2 := by
  induction items generalizing state with
  | nil => exact (List.append_nil _).symm
  | cons item rest ih =>
      change (forEach action rest (action item state).2).2.2 = _
      rw [ih, hasks, List.append_assoc]
      rfl

theorem forEach?_log {action : α → σ × List Asked → Option (β × (σ × List Asked))}
    (asks : α → β → Asked)
    (hasks : ∀ item state result next, action item state = some (result, next) →
      next.2 = state.2 ++ [asks item result])
    {items : List α} {state last : σ × List Asked} {results : List β}
    (hresults : forEach? action items state = some (results, last)) :
    last.2 = state.2 ++ (items.zip results).map fun pair => asks pair.1 pair.2 := by
  induction items generalizing state results with
  | nil =>
      cases hresults
      exact (List.append_nil _).symm
  | cons item rest ih =>
      rw [forEach?] at hresults
      cases hitem : action item state with
      | none => simp [hitem] at hresults
      | some given =>
          obtain ⟨result, next⟩ := given
          simp only [hitem] at hresults
          cases hrest : forEach? action rest next with
          | none => simp [hrest] at hresults
          | some later =>
              obtain ⟨found, final⟩ := later
              simp only [hrest, Option.some.injEq, Prod.mk.injEq] at hresults
              obtain ⟨rfl, rfl⟩ := hresults
              rw [ih hrest, hasks item state result next hitem, List.append_assoc]
              rfl

theorem collect_eq_error {ε : Type} {results : List (Except ε α)} {failures : List ε}
    (hcollect : collect results = .error failures) :
    ∀ failure ∈ failures, .error failure ∈ results := by
  induction results generalizing failures with
  | nil => cases hcollect
  | cons result rest ih =>
      cases result with
      | ok value =>
          rw [collect] at hcollect
          cases hrest : collect rest with
          | ok later =>
              rw [hrest] at hcollect
              cases hcollect
          | error later =>
              rw [hrest] at hcollect
              cases hcollect
              exact fun failure hfailure => List.mem_cons_of_mem _ (ih hrest failure hfailure)
      | error first =>
          rw [collect] at hcollect
          cases hrest : collect rest with
          | ok later =>
              rw [hrest] at hcollect
              cases hcollect
              intro failure hfailure
              rw [List.mem_singleton.mp hfailure]
              exact List.mem_cons_self
          | error later =>
              rw [hrest] at hcollect
              cases hcollect
              intro failure hfailure
              rcases List.mem_cons.mp hfailure with rfl | hfailure
              · exact List.mem_cons_self
              · exact List.mem_cons_of_mem _ (ih hrest failure hfailure)

end Lists

variable {σ : Type} {steps : Steps σ}

/-! ## What is noted -/

theorem loadOne_log (resolved : Resolved) (state : σ × List Asked)
    (result : Except Report (ModuleId × Loaded)) (next : σ × List Asked)
    (hload : loadOne steps.logged resolved state = some (result, next)) :
    next.2 = state.2 ++ [.load resolved (result.map Prod.snd)] := by
  rw [loadOne, Option.map_eq_some_iff] at hload
  obtain ⟨⟨answer, reached⟩, hanswer, heq⟩ := hload
  cases heq
  change (steps.load resolved state.1).map _ = _ at hanswer
  rw [Option.map_eq_some_iff] at hanswer
  obtain ⟨given, _, heq⟩ := hanswer
  cases heq
  cases given.1 <;> rfl

theorem scanOne_log (item : ModuleId × Loaded) (state : σ × List Asked) :
    (scanOne steps.logged item state).2.2 = state.2 ++
      [.scan item.1 item.2 ((scanOne steps.logged item state).1.map Module.content)] := by
  change state.2 ++ [.scan item.1 item.2 (steps.scan item.1 item.2 state.1).1] =
    state.2 ++ [.scan item.1 item.2 (((steps.scan item.1 item.2 state.1).1.map _).map _)]
  cases (steps.scan item.1 item.2 state.1).1 <;> rfl

/-- The question for one import. -/
def recordAsked (importer : ModuleId) (record : Scan.ImportRecord)
    (answer : Except Report Resolved) : Asked :=
  .resolve (some importer) record.specifier record.form answer

theorem resolveRecord_log (importer : ModuleId) (record : Scan.ImportRecord)
    (state : σ × List Asked) :
    (resolveRecord steps.logged importer record state).2.2 = state.2 ++
      [recordAsked importer record (resolveRecord steps.logged importer record state).1] :=
  rfl

/-- The questions for the imports of a module. -/
def moduleAsked (steps : Steps (σ × List Asked)) (module : Module) (state : σ × List Asked) :
    List Asked :=
  (module.content.records.zip
      (forEach (resolveRecord steps module.id) module.content.records state).1).map
    fun pair => recordAsked module.id pair.1 pair.2

theorem resolveOne_log (module : Module) (state : σ × List Asked) :
    (resolveOne steps.logged module state).2.2 =
      state.2 ++ moduleAsked steps.logged module state :=
  forEach_log_zip (resolveRecord steps.logged module.id) (recordAsked module.id)
    (resolveRecord_log module.id) module.content.records state

/-! ## What a search learns -/

/-- What a search learned of a module. -/
structure Account where
  resolved : Resolved
  loaded : Loaded
  /-- The module before its imports were numbered. -/
  module : Module
  targets : List Resolved
  id_eq : module.id = resolved.id
  kind_eq : module.kind = loaded.kind
  length_eq : targets.length = module.content.records.length

namespace Account

/-- The module with what its imports lead to. -/
def item (account : Account) : Module × List Resolved := (account.module, account.targets)

/-- The questions for the imports of the module. -/
def imports (account : Account) : List Asked :=
  (account.module.content.records.zip account.targets).map fun pair =>
    recordAsked account.module.id pair.1 (.ok pair.2)

/-- The questions of a wave. -/
def wave (accounts : List Account) : List Asked :=
  accounts.map (fun account => .load account.resolved (.ok account.loaded)) ++
    accounts.map (fun account =>
      .scan account.module.id account.loaded (.ok account.module.content)) ++
    accounts.flatMap imports

theorem loads_zip (accounts : List Account) :
    ((accounts.map Account.resolved).zip ((accounts.map fun account =>
        (account.resolved.id, account.loaded)).map .ok)).map
        (fun (pair : Resolved × Except Report (ModuleId × Loaded)) =>
          Asked.load pair.1 (pair.2.map Prod.snd)) =
      accounts.map fun account => .load account.resolved (.ok account.loaded) := by
  rw [List.map_map, List.zip_map', List.map_map]
  rfl

theorem scans_zip (accounts : List Account) :
    ((accounts.map fun account => (account.resolved.id, account.loaded)).zip
        ((accounts.map Account.module).map .ok)).map
        (fun (pair : (ModuleId × Loaded) × Except (List Report) Module) =>
          Asked.scan pair.1.1 pair.1.2 (pair.2.map Module.content)) =
      accounts.map fun account =>
        .scan account.module.id account.loaded (.ok account.module.content) := by
  rw [List.map_map, List.zip_map', List.map_map]
  refine List.map_congr_left fun account _ => ?_
  rw [account.id_eq]
  rfl

end Account

/-- The accounts of modules that went through all parts of a wave. -/
theorem exists_accounts {wave : List Resolved} {loaded : List (ModuleId × Loaded)}
    {scanned : List Module} {resolved : List (Module × List Resolved)}
    (hloaded : List.Forall₂ (fun (target : Resolved) (given : ModuleId × Loaded) =>
      given.1 = target.id) wave loaded)
    (hscanned : List.Forall₂ (fun (given : ModuleId × Loaded) (module : Module) =>
      module.id = given.1 ∧ module.kind = given.2.kind) loaded scanned)
    (hresolved : List.Forall₂ (fun (module : Module) (item : Module × List Resolved) =>
      item.1 = module ∧ item.2.length = module.content.records.length) scanned resolved) :
    ∃ accounts : List Account, accounts.map Account.resolved = wave ∧
      accounts.map (fun account => (account.resolved.id, account.loaded)) = loaded ∧
      accounts.map Account.module = scanned ∧ accounts.map Account.item = resolved := by
  induction hloaded generalizing scanned resolved with
  | nil =>
      cases hscanned
      cases hresolved
      exact ⟨[], rfl, rfl, rfl, rfl⟩
  | @cons target given wave loaded hgiven _ ih =>
      obtain ⟨id, content⟩ := given
      cases hgiven
      cases hscanned with
      | cons hmodule hscanned =>
          obtain ⟨hid, hkind⟩ := hmodule
          cases hresolved with
          | @cons module item _ _ hitem hresolved =>
              obtain ⟨_, targets⟩ := item
              obtain ⟨rfl, hlength⟩ := hitem
              obtain ⟨accounts, rfl, rfl, rfl, rfl⟩ := ih hscanned hresolved
              exact ⟨⟨target, content, _, targets, hid, hkind, hlength⟩ :: accounts,
                rfl, rfl, rfl, rfl⟩

/-- The questions for imports of a module that are all resolved. -/
theorem moduleAsked_eq {module : Module} {state : σ × List Asked} {item : Module × List Resolved}
    (hresolve : (resolveOne steps.logged module state).1 = .ok item) :
    item.1 = module ∧ item.2.length = module.content.records.length ∧
      moduleAsked steps.logged module state = (module.content.records.zip item.2).map
        fun pair => recordAsked module.id pair.1 (.ok pair.2) := by
  obtain ⟨hmodule, htargets⟩ := resolveOne_eq_ok hresolve
  refine ⟨hmodule, htargets.length_eq.symm, ?_⟩
  rw [resolveOne] at hresolve
  cases hcollect : collect
      (forEach (resolveRecord steps.logged module.id) module.content.records state).1 with
  | error reports =>
      simp only [hcollect, Except.map] at hresolve
      cases hresolve
  | ok targets =>
      simp only [hcollect, Except.map] at hresolve
      cases hresolve
      rw [moduleAsked, collect_eq_ok hcollect, List.zip_map_right, List.map_map]
      rfl

/-- The questions for the imports of modules that are all resolved. -/
theorem visits_resolveOne_asked {modules : List Module} {state : σ × List Asked}
    {resolved : List (Module × List Resolved)}
    (hresolve : (forEach (resolveOne steps.logged) modules state).1 = resolved.map .ok) :
    List.Forall₂ (fun (module : Module) (item : Module × List Resolved) =>
        item.1 = module ∧ item.2.length = module.content.records.length) modules resolved ∧
      (visits (resolveOne steps.logged) modules state).flatMap
          (fun visit => moduleAsked steps.logged visit.1 visit.2) =
        resolved.flatMap fun item => (item.1.content.records.zip item.2).map
          fun pair => recordAsked item.1.id pair.1 (.ok pair.2) := by
  induction modules generalizing state resolved with
  | nil =>
      cases resolved with
      | nil => exact ⟨.nil, rfl⟩
      | cons item rest => cases hresolve
  | cons module rest ih =>
      cases resolved with
      | nil => cases hresolve
      | cons item later =>
          obtain ⟨hhead, htail⟩ := List.cons.inj hresolve
          obtain ⟨rfl, hlength, hasked⟩ := moduleAsked_eq hhead
          obtain ⟨hitems, hrest⟩ := ih htail
          refine ⟨.cons ⟨rfl, hlength⟩ hitems, ?_⟩
          rw [visits, List.flatMap_cons, List.flatMap_cons, hasked]
          exact congrArg _ hrest

/-- A wave that is followed by another one has asked what its accounts tell. -/
theorem WaveDone.exists_accounts {numbering next : Numbering} {state last : σ × List Asked}
    {modules : List Module} (done : WaveDone steps.logged numbering state modules next last) :
    ∃ accounts : List Account, accounts.map Account.resolved = numbering.wave ∧
      accounts.map Account.item = done.resolved ∧ last.2 = state.2 ++ Account.wave accounts := by
  obtain ⟨results, hresults, hconclude⟩ := loadWave_eq done.load_eq
  obtain ⟨_, rfl⟩ := concludeWave_eq_ok hconclude.symm
  have hloadLog := forEach?_log
    (fun (resolved : Resolved) (result : Except Report (ModuleId × Loaded)) =>
      .load resolved (result.map Prod.snd)) loadOne_log hresults
  have hscanLog := forEach_log_zip (scanOne steps.logged)
    (fun (item : ModuleId × Loaded) (result : Except (List Report) Module) =>
      .scan item.1 item.2 (result.map Module.content)) scanOne_log done.loaded done.loadedAt
  have hresolveLog := forEach_log (resolveOne steps.logged) (moduleAsked steps.logged)
    resolveOne_log done.scanned (forEach (scanOne steps.logged) done.loaded done.loadedAt).2
  obtain ⟨hitems, himports⟩ := visits_resolveOne_asked done.resolve_eq
  have hloaded : List.Forall₂ (fun (target : Resolved) (given : ModuleId × Loaded) =>
      given.1 = target.id) numbering.wave done.loaded := by
    rw [← visits?_fst hresults, List.forall₂_map_left_iff]
    have hvisits := forEach?_visits hresults
    rw [List.forall₂_map_right_iff] at hvisits
    exact hvisits.imp fun _ _ ⟨_, hload⟩ => (loadOne_eq_ok hload).1
  have hscanned : List.Forall₂ (fun (given : ModuleId × Loaded) (module : Module) =>
      module.id = given.1 ∧ module.kind = given.2.kind) done.loaded done.scanned := by
    refine (forEach_ok done.scan_eq).imp ?_
    rintro given module ⟨_, _, hscan⟩
    obtain ⟨hid, _, hkind, _⟩ := scanOne_eq_ok hscan
    exact ⟨hid, hkind⟩
  obtain ⟨accounts, hwave, hgiven, hmodules, hresolved⟩ :=
    Loader.exists_accounts hloaded hscanned hitems
  refine ⟨accounts, hwave, hresolved, ?_⟩
  rw [done.last_eq, hresolveLog, himports, hscanLog, hloadLog, done.scan_eq, ← hwave, ← hgiven,
    ← hmodules, ← hresolved, Account.loads_zip, Account.scans_zip, List.flatMap_map,
    List.append_assoc, List.append_assoc, Account.wave, List.append_assoc]
  rfl

end Loader

end WebBundle
