import WebBundle.Proofs.Search.Termination
import WebBundle.Proofs.Search.Thinning

/-!
# Searches that leave modules out

A search may find everything that another one finds except for some modules that import
nothing, and the imports that lead to them.  Each wave is that of the other search without
these modules, although the states differ: a module that is left out may be loaded by a
nested build.  So the graph of the search that goes without them is the other graph with
these modules taken out.
-/

namespace WebBundle.Loader

variable {kept : ModuleId → Bool} {alike : Likeness}

/-! ## Parts of searches -/

variable {σ τ : Type} {first : Steps σ} {second : Steps τ}
variable {allowed : ModuleContent → Prop} {stub : Loaded → Prop}
variable {follows : Scan.ImportRecord → Prop} {related : List ModuleId → σ → τ → Prop}

/-- The parts of the second search do what those of the first one do with modules that are
kept, and are not touched by what it does with the others.  The states are related with
respect to the modules that were scanned so far.  A module that is left out is loaded to a
`stub`, and the imports of a kept one that are not followed lead to such modules. -/
structure Omits (first : Steps σ) (second : Steps τ) (kept : ModuleId → Bool)
    (alike : Likeness) (allowed : ModuleContent → Prop)
    (stub : Loaded → Prop) (follows : Scan.ImportRecord → Prop)
    (related : List ModuleId → σ → τ → Prop) : Prop where
  load {done state other resolved loaded next} (hrelated : related done state other)
    (hkept : kept resolved.id = true)
    (hload : first.load resolved state = some (.ok loaded, next)) :
    ∃ last, second.load resolved other = some (.ok loaded, last) ∧ related done next last
  load_dropped {done state other resolved loaded next} (hrelated : related done state other)
    (hdropped : kept resolved.id = false)
    (hload : first.load resolved state = some (.ok loaded, next)) :
    stub loaded ∧ related done next other
  scan {done state other id loaded content} (hrelated : related done state other)
    (hkept : kept id = true) (hfresh : id ∉ done)
    (hscan : (first.scan id loaded state).1 = .ok content) (hallowed : allowed content) :
    ∃ result, (second.scan id loaded other).1 = .ok result ∧ alike loaded.kind content result ∧
      related (done ++ [id]) (first.scan id loaded state).2 (second.scan id loaded other).2
  scan_dropped {done state other id loaded content} (hrelated : related done state other)
    (hdropped : kept id = false) (hfresh : id ∉ done) (hstub : stub loaded)
    (hscan : (first.scan id loaded state).1 = .ok content) :
    content.records = [] ∧ related (done ++ [id]) (first.scan id loaded state).2 other
  records {kind content result} (halike : alike kind content result) :
    ∃ dropped, content.records = result.records ++ dropped ∧
      (∀ record ∈ result.records, follows record) ∧ ∀ record ∈ dropped, ¬ follows record
  resolve {done state other importer target} {record : Scan.ImportRecord}
    (hrelated : related done state other) (hfollows : follows record)
    (hresolve : (resolveRecord first importer record state).1 = .ok target) :
    kept target.id = true ∧ (resolveRecord second importer record other).1 = .ok target ∧
      related done (resolveRecord first importer record state).2
        (resolveRecord second importer record other).2
  resolve_dropped {done state other importer target} {record : Scan.ImportRecord}
    (hrelated : related done state other) (hfollows : ¬ follows record)
    (hresolve : (resolveRecord first importer record state).1 = .ok target) :
    kept target.id = false ∧ related done (resolveRecord first importer record state).2 other
  stableId : ∀ id, second.stableId id = first.stableId id
  isCancelled {done state other} (hrelated : related done state other) :
    second.isCancelled other = false

theorem forEach_cons {α β : Type} (action : α → σ → β × σ) (item : α) (rest : List α) (state : σ) :
    forEach action (item :: rest) state =
      ((action item state).1 :: (forEach action rest (action item state).2).1,
        (forEach action rest (action item state).2).2) := rfl

theorem forEach?_cons {α β : Type} {action : α → σ → Option (β × σ)} {item : α} {rest : List α}
    {state last : σ} {results : List β}
    (h : forEach? action (item :: rest) state = some (results, last)) :
    ∃ result next later, action item state = some (result, next) ∧
      forEach? action rest next = some (later, last) ∧ results = result :: later := by
  rw [forEach?] at h
  cases hitem : action item state with
  | none => simp [hitem] at h
  | some given =>
      obtain ⟨result, next⟩ := given
      cases hrest : forEach? action rest next with
      | none => simp [hitem, hrest] at h
      | some given =>
          obtain ⟨later, final⟩ := given
          simp only [hitem, hrest, Option.some.injEq, Prod.mk.injEq] at h
          obtain ⟨rfl, rfl⟩ := h
          exact ⟨result, next, later, rfl, hrest, rfl⟩

theorem scanOne_of_ok {steps : Steps σ} {id : ModuleId} {loaded : Loaded} {state : σ}
    {content : ModuleContent} (hscan : (steps.scan id loaded state).1 = .ok content) :
    scanOne steps (id, loaded) state =
      (.ok { id, stableId := steps.stableId id, kind := loaded.kind, content },
        (steps.scan id loaded state).2) := by
  change (Except.map _ _, _) = _
  rw [hscan]
  rfl

theorem collect_map_ok {ε α : Type} (values : List α) :
    collect (values.map (Except.ok : α → Except ε α)) = .ok values := by
  induction values with
  | nil => rfl
  | cons value rest ih => rw [List.map_cons, collect, ih]; rfl

theorem resolveOne_of_ok {steps : Steps σ} {module : Module} {state : σ} {targets : List Resolved}
    (hresolve : (forEach (resolveRecord steps module.id) module.content.records state).1 =
      targets.map .ok) : (resolveOne steps module state).1 = .ok (module, targets) := by
  change Except.map _ (collect _) = _
  rw [hresolve, collect_map_ok]
  rfl

theorem targets_of_resolveOne {steps : Steps σ} {module : Module} {state : σ}
    {item : Module × List Resolved} (hresolve : (resolveOne steps module state).1 = .ok item) :
    item.1 = module ∧ (forEach (resolveRecord steps module.id) module.content.records state).1 =
      item.2.map .ok := by
  change Except.map _ (collect _) = _ at hresolve
  cases hcollect : collect
      (forEach (resolveRecord steps module.id) module.content.records state).1 with
  | error reports => rw [hcollect] at hresolve; cases hresolve
  | ok targets =>
      rw [hcollect] at hresolve
      cases hresolve
      exact ⟨rfl, collect_eq_ok hcollect⟩

namespace Omits

theorem loadAll (h : Omits first second kept alike allowed stub follows related)
    {done : List ModuleId} {wave : List Resolved} {loaded : List (ModuleId × Loaded)}
    {state next : σ} {other : τ} (hrelated : related done state other)
    (hload : forEach? (loadOne first) wave state = some (loaded.map .ok, next)) :
    loaded.map Prod.fst = wave.map Resolved.id ∧
      (∀ item ∈ loaded, kept item.1 = false → stub item.2) ∧
      ∃ last, forEach? (loadOne second) (wave.filter fun resolved => kept resolved.id) other =
          some ((loaded.filter fun item => kept item.1).map .ok, last) ∧
        related done next last := by
  induction wave generalizing loaded state other with
  | nil =>
      cases loaded with
      | nil =>
          cases hload
          exact ⟨rfl, List.forall_mem_nil _, other, rfl, hrelated⟩
      | cons item rest => cases hload
  | cons resolved wave ih =>
      obtain ⟨result, middle, results, hone, hrest, hresults⟩ := forEach?_cons hload
      cases loaded with
      | nil => cases hresults
      | cons item rest =>
          rw [List.map_cons, List.cons.injEq] at hresults
          obtain ⟨rfl, rfl⟩ := hresults
          obtain ⟨id, content⟩ := item
          obtain ⟨rfl, hgiven⟩ := loadOne_eq_ok hone
          rw [List.forall_mem_cons, List.map_cons, List.map_cons, List.filter_cons,
            List.filter_cons]
          cases hkept : kept resolved.id with
          | true =>
              obtain ⟨reached, hsecond, hmiddle⟩ := h.load hrelated hkept hgiven
              obtain ⟨hids, hstubs, last, hagain, hlast⟩ := ih hmiddle hrest
              have hone : loadOne second resolved other =
                  some (.ok (resolved.id, content), reached) := by
                rw [loadOne, hsecond]
                rfl
              refine ⟨congrArg _ hids, ⟨Bool.noConfusion, hstubs⟩, last, ?_, hlast⟩
              rw [if_pos rfl, if_pos rfl, forEach?, hone]
              simp only [hagain, List.map_cons]
          | false =>
              obtain ⟨hstub, hmiddle⟩ := h.load_dropped hrelated hkept hgiven
              obtain ⟨hids, hstubs, last, hagain, hlast⟩ := ih hmiddle hrest
              exact ⟨congrArg _ hids, ⟨fun _ => hstub, hstubs⟩, last, hagain, hlast⟩

theorem scanAll (h : Omits first second kept alike allowed stub follows related)
    {done : List ModuleId} {loaded : List (ModuleId × Loaded)} {scanned : List Module}
    {state : σ} {other : τ} (hrelated : related done state other)
    (hnodup : (done ++ loaded.map Prod.fst).Nodup)
    (hstubs : ∀ item ∈ loaded, kept item.1 = false → stub item.2)
    (hscan : (forEach (scanOne first) loaded state).1 = scanned.map .ok)
    (hallowed : ∀ module ∈ scanned, kept module.id = true → allowed module.content) :
    ∃ others, (forEach (scanOne second) (loaded.filter fun item => kept item.1) other).1 =
        others.map .ok ∧
      Thins (fun module => kept module.id = false ∧ module.content.records = [])
        (SameModule kept alike) scanned others ∧
      related (done ++ loaded.map Prod.fst) (forEach (scanOne first) loaded state).2
        (forEach (scanOne second) (loaded.filter fun item => kept item.1) other).2 := by
  induction loaded generalizing done scanned state other with
  | nil =>
      cases scanned with
      | nil => exact ⟨[], rfl, .nil, by rwa [List.map_nil, List.append_nil]⟩
      | cons module rest => cases hscan
  | cons item loaded ih =>
      obtain ⟨id, content⟩ := item
      rw [forEach_cons] at hscan
      cases scanned with
      | nil => cases hscan
      | cons module scanned =>
          obtain ⟨hone, hrest⟩ := List.cons.inj hscan
          obtain ⟨rfl, hstable, hkind, hview⟩ := scanOne_eq_ok hone
          rw [List.map_cons, List.append_cons] at hnodup ⊢
          have hfresh : module.id ∉ done := by
            have hbegins := (List.nodup_append.mp hnodup).1
            exact fun hdone => (List.nodup_append.mp hbegins).2.2 _ hdone _ List.mem_cons_self rfl
          rw [List.forall_mem_cons] at hstubs hallowed
          rw [List.filter_cons]
          cases hkept : kept module.id with
          | true =>
              obtain ⟨result, hresult, halike, hnext⟩ :=
                h.scan hrelated hkept hfresh hview (hallowed.1 hkept)
              obtain ⟨others, hothers, hthins, hlast⟩ := ih hnext hnodup hstubs.2 hrest hallowed.2
              rw [if_pos rfl, forEach_cons, scanOne_of_ok hresult]
              refine ⟨_ :: others, congrArg _ hothers, .cons ?_ hthins, hlast⟩
              exact ⟨hkept, rfl, (h.stableId _).trans hstable.symm, hkind.symm, hkind ▸ halike⟩
          | false =>
              obtain ⟨hleaf, hnext⟩ := h.scan_dropped hrelated hkept hfresh (hstubs.1 hkept) hview
              obtain ⟨others, hothers, hthins, hlast⟩ := ih hnext hnodup hstubs.2 hrest hallowed.2
              exact ⟨others, hothers, .skip ⟨hkept, hleaf⟩ hthins, hlast⟩

/-- The imports that are not followed lead to modules that are left out. -/
theorem resolveDropped (h : Omits first second kept alike allowed stub follows related)
    {done : List ModuleId} (importer : ModuleId) {records : List Scan.ImportRecord}
    (hrecords : ∀ record ∈ records, ¬ follows record) {targets : List Resolved} {state : σ}
    {other : τ} (hrelated : related done state other)
    (hresolve : (forEach (resolveRecord first importer) records state).1 = targets.map .ok) :
    (∀ target ∈ targets, kept target.id = false) ∧
      related done (forEach (resolveRecord first importer) records state).2 other := by
  induction records generalizing targets state with
  | nil =>
      cases targets with
      | nil => exact ⟨List.forall_mem_nil _, hrelated⟩
      | cons target rest => cases hresolve
  | cons record records ih =>
      rw [forEach_cons] at hresolve ⊢
      rw [List.forall_mem_cons] at hrecords
      cases targets with
      | nil => cases hresolve
      | cons target targets =>
          obtain ⟨hone, hrest⟩ := List.cons.inj hresolve
          obtain ⟨hdropped, hnext⟩ := h.resolve_dropped hrelated hrecords.1 hone
          obtain ⟨htargets, hlast⟩ := ih hrecords.2 hnext hrest
          exact ⟨List.forall_mem_cons.mpr ⟨hdropped, htargets⟩, hlast⟩

theorem resolveRecords (h : Omits first second kept alike allowed stub follows related)
    {done : List ModuleId} (importer : ModuleId) {records dropped : List Scan.ImportRecord}
    (hrecords : ∀ record ∈ records, follows record)
    (hdropped : ∀ record ∈ dropped, ¬ follows record)
    {targets : List Resolved} {state : σ} {other : τ} (hrelated : related done state other)
    (hresolve : (forEach (resolveRecord first importer) (records ++ dropped) state).1 =
      targets.map .ok) :
    ∃ others more, targets = others ++ more ∧ (∀ target ∈ others, kept target.id = true) ∧
      (∀ target ∈ more, kept target.id = false) ∧
      (forEach (resolveRecord second importer) records other).1 = others.map .ok ∧
      related done (forEach (resolveRecord first importer) (records ++ dropped) state).2
        (forEach (resolveRecord second importer) records other).2 := by
  induction records generalizing targets state other with
  | nil =>
      obtain ⟨htargets, hlast⟩ := h.resolveDropped importer hdropped hrelated hresolve
      exact ⟨[], targets, rfl, List.forall_mem_nil _, htargets, rfl, hlast⟩
  | cons record records ih =>
      rw [List.cons_append, forEach_cons] at hresolve
      rw [List.cons_append, forEach_cons, forEach_cons]
      rw [List.forall_mem_cons] at hrecords
      cases targets with
      | nil => cases hresolve
      | cons target targets =>
          obtain ⟨hone, hrest⟩ := List.cons.inj hresolve
          obtain ⟨hkept, hagain, hnext⟩ := h.resolve hrelated hrecords.1 hone
          obtain ⟨others, more, rfl, hothers, hmore, hvalues, hlast⟩ := ih hrecords.2 hnext hrest
          exact ⟨target :: others, more, rfl, List.forall_mem_cons.mpr ⟨hkept, hothers⟩, hmore,
            congrArg₂ List.cons hagain hvalues, hlast⟩

theorem resolveAll (h : Omits first second kept alike allowed stub follows related)
    {done : List ModuleId} {scanned others : List Module}
    {resolved : List (Module × List Resolved)} {state : σ} {other : τ}
    (hthins : Thins (fun module => kept module.id = false ∧ module.content.records = [])
      (SameModule kept alike) scanned others)
    (hrelated : related done state other)
    (hresolve : (forEach (resolveOne first) scanned state).1 = resolved.map .ok) :
    ∃ items, (forEach (resolveOne second) others other).1 = items.map .ok ∧
      Thins (IsLeaf kept) (SameItem kept alike) resolved items ∧
      related done (forEach (resolveOne first) scanned state).2
        (forEach (resolveOne second) others other).2 := by
  induction hthins generalizing resolved state other with
  | nil =>
      cases resolved with
      | nil => exact ⟨[], rfl, .nil, hrelated⟩
      | cons item rest => cases hresolve
  | @skip module scanned others hleaf _ ih =>
      rw [forEach_cons] at hresolve ⊢
      cases resolved with
      | nil => cases hresolve
      | cons item resolved =>
          obtain ⟨hone, hrest⟩ := List.cons.inj hresolve
          obtain ⟨hmodule, htargets⟩ := targets_of_resolveOne hone
          rw [hleaf.2] at htargets
          have hstate : (resolveOne first module state).2 = state := by
            change (forEach _ module.content.records state).2 = state
            rw [hleaf.2]
            rfl
          rw [hstate] at hrest ⊢
          obtain ⟨items, hitems, hthins, hlast⟩ := ih hrelated hrest
          refine ⟨items, hitems, .skip ⟨hmodule ▸ hleaf.1, ?_⟩ hthins, hlast⟩
          exact List.map_eq_nil_iff.mp htargets.symm
  | @cons module twin scanned others hsame _ ih =>
      rw [forEach_cons] at hresolve ⊢
      cases resolved with
      | nil => cases hresolve
      | cons item resolved =>
          obtain ⟨hone, hrest⟩ := List.cons.inj hresolve
          obtain ⟨hmodule, htargets⟩ := targets_of_resolveOne hone
          obtain ⟨dropped, hrecords, hfollows, hdropped⟩ := h.records hsame.content
          rw [hrecords] at htargets
          obtain ⟨targets, more, hsplit, hkept, hmore, hvalues, hnext⟩ :=
            h.resolveRecords module.id hfollows hdropped hrelated htargets
          have htwin : resolveRecord second module.id = resolveRecord second twin.id := by
            rw [hsame.id_eq]
          rw [htwin] at hvalues
          rw [← hrecords, htwin] at hnext
          obtain ⟨items, hitems, hthins, hlast⟩ := ih hnext hrest
          refine ⟨(twin, targets) :: items, ?_, .cons ?_ hthins, hlast⟩
          · exact congrArg₂ List.cons (resolveOne_of_ok hvalues) hitems
          · obtain ⟨_, found⟩ := item
            cases hmodule
            exact { hsame with targets := ⟨more, hsplit, hkept, hmore⟩ }

end Omits

/-! ## Waves -/

/-- A wave in which no part fails. -/
theorem runWave_of_ok {steps : Steps σ} {numbering : Numbering} {state loadedAt : σ}
    {loaded : List (ModuleId × Loaded)} {scanned : List Module}
    {resolved : List (Module × List Resolved)}
    (hload : forEach? (loadOne steps) numbering.wave state = some (loaded.map .ok, loadedAt))
    (hloaded : steps.isCancelled loadedAt = false)
    (hscan : (forEach (scanOne steps) loaded loadedAt).1 = scanned.map .ok)
    (hresolve : (forEach (resolveOne steps) scanned
      (forEach (scanOne steps) loaded loadedAt).2).1 = resolved.map .ok)
    (hresolved : steps.isCancelled (forEach (resolveOne steps) scanned
      (forEach (scanOne steps) loaded loadedAt).2).2 = false) :
    runWave steps numbering state = some (.ok (numberWave resolved { numbering with wave := [] }),
      (forEach (resolveOne steps) scanned (forEach (scanOne steps) loaded loadedAt).2).2) := by
  have hfirst : loadWave steps numbering.wave state = some (.ok loaded, loadedAt) := by
    simp only [loadWave, hload, Option.map_some, concludeWave, hloaded, collect_map_ok]
    rfl
  have hsecond : scanWave steps loaded loadedAt =
      (.ok scanned, (forEach (scanOne steps) loaded loadedAt).2) := by
    rw [scanWave]
    generalize forEach (scanOne steps) loaded loadedAt = done at hscan
    obtain ⟨results, last⟩ := done
    dsimp only at hscan ⊢
    rw [hscan, collect_map_ok]
  have hthird : resolveWave steps scanned (forEach (scanOne steps) loaded loadedAt).2 =
      (.ok resolved, (forEach (resolveOne steps) scanned
        (forEach (scanOne steps) loaded loadedAt).2).2) := by
    rw [resolveWave]
    generalize forEach (resolveOne steps) scanned _ = done at hresolve hresolved
    obtain ⟨results, last⟩ := done
    dsimp only at hresolve hresolved ⊢
    rw [hresolve, hresolved, collect_map_ok]
    rfl
  rw [runWave_eq, hfirst]
  dsimp only
  rw [hsecond]
  dsimp only
  rw [hthird]

/-- Nothing happens in an empty wave. -/
theorem runWave_of_isEmpty {steps : Steps σ} {numbering : Numbering} {state : σ}
    (hempty : numbering.wave.isEmpty = true) (hcancelled : steps.isCancelled state = false) :
    runWave steps numbering state = some (.ok ([], { numbering with wave := [] }), state) := by
  have hload : forEach? (loadOne steps) numbering.wave state =
      some (([] : List (ModuleId × Loaded)).map .ok, state) := by
    rw [List.isEmpty_iff.mp hempty]
    rfl
  exact @runWave_of_ok σ steps numbering state state [] [] [] hload hcancelled rfl rfl hcancelled

/-- The modules of a wave have the contents that were scanned. -/
theorem WaveDone.exists_scanned {numbering next : Numbering} {state last : σ}
    {modules : List Module} (done : WaveDone first numbering state modules next last)
    {scanned : Module} (hscanned : scanned ∈ done.scanned) :
    ∃ module ∈ modules, module.id = scanned.id ∧ module.content = scanned.content := by
  have hmodules := (forall₂_comp (forEach_ok done.resolve_eq) done.numbered).flip
  obtain ⟨module, hmodule, item, ⟨_, _, hresolve⟩, hnumbered⟩ :=
    exists_left_of_forall₂ hmodules hscanned
  obtain ⟨rfl, _⟩ := targets_of_resolveOne hresolve
  exact ⟨module, hmodule, hnumbered.id_eq, hnumbered.content_eq⟩

namespace Omits

/-- A wave of the second search is that of the first one without what is left out. -/
theorem runWave (h : Omits first second kept alike allowed stub follows related)
    {before : List ModuleId} {numbering next : Numbering} {state last : σ} {other : τ}
    {modules : List Module} (hconsistent : numbering.Consistent before)
    (hrelated : related before state other)
    (hrun : runWave first numbering state = some (.ok (modules, next), last))
    (hallowed : ∀ module ∈ modules, kept module.id = true → allowed module.content) :
    ∃ others reached, Loader.runWave second (numbering.only kept) other =
        some (.ok (others, next.only kept), reached) ∧
      Thins (fun module => kept module.id = false) (ThinModule kept alike next.known) modules
        others ∧
      related numbering.known last reached := by
  obtain ⟨done⟩ := runWave_eq_ok hrun
  obtain ⟨results, hresults, hconclude⟩ := loadWave_eq done.load_eq
  obtain ⟨_, rfl⟩ := concludeWave_eq_ok hconclude.symm
  obtain ⟨hids, hstubs, loadedAt, hload, hloaded⟩ := h.loadAll hrelated hresults
  have hknown : before ++ done.loaded.map Prod.fst = numbering.known := by
    rw [hids, hconsistent.known_eq]
  have hscannable : ∀ module ∈ done.scanned, kept module.id = true → allowed module.content := by
    intro module hmodule hkept
    obtain ⟨other, hother, hid, hcontent⟩ := done.exists_scanned hmodule
    rw [← hcontent]
    exact hallowed other hother (hid ▸ hkept)
  obtain ⟨scanned, hscan, hthins, hscanned⟩ :=
    h.scanAll hloaded (hknown ▸ hconsistent.nodup) hstubs done.scan_eq hscannable
  obtain ⟨items, hresolve, hitems, hlast⟩ := h.resolveAll hthins hscanned done.resolve_eq
  have hwave : (numbering.only kept).wave =
      numbering.wave.filter fun resolved => kept resolved.id := rfl
  rw [← hwave] at hload
  have hsecond := runWave_of_ok hload (h.isCancelled hloaded) hscan hresolve
    (h.isCancelled hlast)
  obtain ⟨hmodules, hnext⟩ := thins_numberWave hitems { numbering with wave := [] }
  rw [done.number_eq] at hmodules hnext
  rw [← done.last_eq, hknown] at hlast
  refine ⟨_, _, ?_, hmodules, hlast⟩
  rw [hsecond, ← hnext]
  rfl

/-- The waves of the second search are those of the first one without what is left out. -/
theorem runWaves (h : Omits first second kept alike allowed stub follows related)
    {limit : Nat} {before : List ModuleId} {numbering : Numbering} {state last : σ} {other : τ}
    {result : Except LoadFailure (List Module)} {modules : List Module}
    (hruns : Runs first limit numbering state result last) (hresult : result = .ok modules)
    (hconsistent : numbering.Consistent before) (hrelated : related before state other)
    (hallowed : ∀ module ∈ modules, kept module.id = true → allowed module.content) :
    ∃ others reached, Loader.runWaves second limit (numbering.only kept) other =
        some (.ok others, reached) ∧
      Thins (fun module => kept module.id = false)
        (ThinModule kept alike (before ++ modules.map Module.id)) modules others := by
  induction hruns generalizing modules before other with
  | finished hempty =>
      cases hresult
      refine ⟨[], other, runWaves_of_isEmpty _ _ ?_, .nil⟩
      rw [Numbering.only, List.isEmpty_iff.mp hempty]
      rfl
  | failed => cases hresult
  | @followed limit numbering state wave next reached result last hempty hwave hrest ih =>
      cases result with
      | error failure => cases hresult
      | ok later =>
          cases hresult
          obtain ⟨done⟩ := runWave_eq_ok hwave
          rw [List.forall_mem_append] at hallowed
          obtain ⟨first, middle, hsecond, hthins, hmiddle⟩ :=
            h.runWave hconsistent hrelated hwave hallowed.1
          obtain ⟨others, final, hagain, hlater⟩ :=
            ih rfl (done.consistent hconsistent) hmiddle hallowed.2
          obtain ⟨_, hbegins, _⟩ := hrest.found rfl (done.consistent hconsistent)
          have hknown : numbering.known = before ++ wave.map Module.id := by
            rw [hconsistent.known_eq, done.ids_eq]
          rw [List.map_append, ← List.append_assoc, ← hknown]
          have hall := (hthins.imp (fun _ hdropped => hdropped)
            fun _ _ hmodule => hmodule.mono hbegins).append hlater
          by_cases honly : (numbering.only kept).wave.isEmpty = true
          · -- Everything in the wave is left out, so nothing comes after it.
            rw [runWave_of_isEmpty honly (h.isCancelled hrelated)] at hsecond
            simp only [Option.some.injEq, Prod.mk.injEq, Except.ok.injEq] at hsecond
            obtain ⟨⟨rfl, hnext⟩, rfl⟩ := hsecond
            rw [runWaves_of_isEmpty _ _ (by rw [← hnext]; rfl)] at hagain
            cases hagain
            exact ⟨[], other, runWaves_of_isEmpty _ _ honly, hall⟩
          · refine ⟨first ++ others, final, ?_, hall⟩
            rw [runWaves_succ _ _ honly, hsecond]
            simp only [hagain]

end Omits

/-! ## Graphs -/

/-- A module of a graph has a dependency for each of its imports. -/
theorem length_dependencies_of_load {steps : Steps σ} {limit : Nat}
    {entries : List (Option String × Resolved)} {state last : σ} {graph : Graph}
    (hload : Loader.load steps limit entries state = some (.ok graph, last)) :
    ∀ module ∈ graph.modules, module.dependencies.length = module.content.records.length := by
  obtain ⟨_, hfound, _⟩ := load_found hload
  intro module hmodule
  obtain ⟨load, _, ⟨found⟩⟩ := exists_left_of_forall₂ hfound hmodule
  rw [found.numbered.content_eq, found.examined.resolved.length_eq]
  exact found.numbered.numbers.length_eq.symm

/-- The imports of a module with the numbers of the modules that they lead to. -/
def importsOf (module : Module) : List (Scan.ImportRecord × Nat) :=
  module.content.records.zip module.dependencies

/-- The imports that lead to kept modules, with the numbers of these among the kept ones. -/
def keptImports (kept : ModuleId → Bool) (ids : List ModuleId) (module : Module) :
    List (Scan.ImportRecord × Nat) :=
  ((importsOf module).filter fun asked => keptAt? kept ids asked.2 = some true).map fun asked =>
    (asked.1, rank kept ids asked.2)

/-- If the last imports of a module are left out, its kept imports are the others. -/
theorem ThinModule.imports_eq {ids : List ModuleId} {module other : Module}
    (h : ThinModule kept alike ids module other) {more : List Scan.ImportRecord}
    (hrecords : module.content.records = other.content.records ++ more)
    (hlength : other.dependencies.length = other.content.records.length) :
    importsOf other = keptImports kept ids module := by
  obtain ⟨numbers, dropped, hfirst, hsecond, hkept, hdropped⟩ := h.dependencies
  have hsplit : importsOf module = other.content.records.zip numbers ++ more.zip dropped := by
    rw [importsOf, hrecords, hfirst]
    rw [hsecond, List.length_map] at hlength
    exact List.zip_append hlength.symm
  have hall : (other.content.records.zip numbers).filter
      (fun asked => keptAt? kept ids asked.2 = some true) = other.content.records.zip numbers := by
    rw [List.filter_eq_self]
    exact fun asked hasked => decide_eq_true (hkept _ (List.of_mem_zip hasked).2)
  have hnone : (more.zip dropped).filter
      (fun asked => keptAt? kept ids asked.2 = some true) = [] := by
    rw [List.filter_eq_nil_iff]
    intro asked hasked
    rw [hdropped _ (List.of_mem_zip hasked).2]
    decide
  rw [keptImports, hsplit, List.filter_append, hall, hnone, List.append_nil, importsOf, hsecond,
    List.zip_map_right]
  rfl

/-- A graph is another one from which all modules but the kept ones are taken out, with the
imports that lead to them. -/
structure ThinGraph (kept : ModuleId → Bool) (alike : Likeness)
    (first second : Graph) : Prop where
  modules : List.Forall₂ (ThinModule kept alike (first.modules.map Module.id))
    (first.modules.filter fun module => kept module.id) second.modules
  entries : second.entries = first.entries.map fun entry =>
    (entry.1, rank kept (first.modules.map Module.id) entry.2)
  kept_entries : ∀ entry ∈ first.entries,
    keptAt? kept (first.modules.map Module.id) entry.2 = some true

theorem getElem?_filter_rank {modules : List Module} {number : Nat} {module : Module}
    (hmodule : modules[number]? = some module) (hkept : kept module.id = true) :
    (modules.filter fun module => kept module.id)[rank kept (modules.map Module.id) number]? =
      some module := by
  have hdrop : modules.drop number = module :: modules.drop (number + 1) := by
    obtain ⟨hlt, rfl⟩ := List.getElem?_eq_some_iff.mp hmodule
    exact List.drop_eq_getElem_cons hlt
  have hsplit : modules.filter (fun module => kept module.id) =
      (modules.take number).filter (fun module => kept module.id) ++
        module :: (modules.drop (number + 1)).filter fun module => kept module.id := by
    conv_lhs => rw [← List.take_append_drop number modules, hdrop]
    rw [List.filter_append, List.filter_cons, if_pos hkept]
  have hrank : rank kept (modules.map Module.id) number =
      ((modules.take number).filter fun module => kept module.id).length := by
    rw [rank, ← List.map_take, List.countP_map, List.countP_eq_length_filter]
    rfl
  rw [hsplit, hrank, List.getElem?_append_right (Nat.le_refl _), Nat.sub_self]
  rfl

theorem exists_getElem?_of_forall₂ {α β : Type} {matching : α → β → Prop} {left : List α}
    {right : List β} (h : List.Forall₂ matching left right) {number : Nat} {item : α}
    (hitem : left[number]? = some item) :
    ∃ other, right[number]? = some other ∧ matching item other := by
  induction h generalizing number with
  | nil => cases hitem
  | cons hhead _ ih =>
      cases number with
      | zero =>
          cases hitem
          exact ⟨_, rfl, hhead⟩
      | succ number => exact ih hitem

/-- A kept module stands in the thinner graph under its new number. -/
theorem ThinGraph.exists_getElem? {first second : Graph} (h : ThinGraph kept alike first second)
    {number : Nat} {module : Module} (hmodule : first.modules[number]? = some module)
    (hkept : kept module.id = true) :
    ∃ other, second.modules[rank kept (first.modules.map Module.id) number]? = some other ∧
      ThinModule kept alike (first.modules.map Module.id) module other :=
  exists_getElem?_of_forall₂ h.modules (getElem?_filter_rank hmodule hkept)

/-- If a search finds a graph, the search that leaves modules out finds the graph without
them. -/
theorem Omits.search (h : Omits first second kept alike allowed stub follows related)
    {limit : Nat} {entries : List (Option String × Resolved)}
    (hentries : ∀ entry ∈ entries, kept entry.2.id = true) {state last : σ} {other : τ}
    (hrelated : related [] state other) {graph : Graph}
    (hload : Loader.load first limit entries state = some (.ok graph, last))
    (hallowed : ∀ module ∈ graph.modules, kept module.id = true → allowed module.content) :
    ∃ thin reached, Loader.load second limit entries other = some (.ok thin, reached) ∧
      ThinGraph kept alike graph thin := by
  rw [load_eq_search, Loader.search] at hload
  have hconsistent := consistent_numberAll .empty (entries.map Prod.snd)
  have hnumbers := numbers_numberAll (entries.map Prod.snd) {}
  have htargets : ∀ target ∈ entries.map Prod.snd, kept target.id = true :=
    List.forall_mem_map.mpr hentries
  have honly : numberAll (entries.map Prod.snd) {} = _ := numberAll_only htargets {}
  generalize hnumbered : numberAll (entries.map Prod.snd) {} = numbered
    at hload hconsistent hnumbers honly
  obtain ⟨numbers, numbering⟩ := numbered
  dsimp only at hload hconsistent hnumbers honly
  cases hrun : Loader.runWaves first limit numbering state with
  | none => simp [hrun] at hload
  | some given =>
      obtain ⟨result, final⟩ := given
      cases result with
      | error failure => simp [hrun] at hload
      | ok modules =>
          simp only [hrun, Option.some.injEq, Prod.mk.injEq, Except.ok.injEq] at hload
          obtain ⟨rfl, rfl⟩ := hload
          have hruns := runs_of_runWaves hrun
          obtain ⟨_, hbegins, _⟩ := hruns.found rfl hconsistent
          obtain ⟨others, reached, hagain, hthins⟩ :=
            h.runWaves hruns rfl hconsistent hrelated hallowed
          rw [List.nil_append] at hbegins hthins
          -- The entries are kept, so they come first in both graphs.
          obtain ⟨hranks, hfirst⟩ := Prod.mk.inj honly
          have hkept : ∀ number ∈ numbers,
              keptAt? kept (modules.map Module.id) number = some true ∧
                rank kept (modules.map Module.id) number = rank kept numbering.known number :=
            fun number hnumber =>
              keptAt?_mono hbegins (hnumbers.keptAt? htargets number hnumber)
          refine ⟨{ modules := others, entries := (entries.map Prod.fst).zip numbers }, reached, ?_,
            hthins.forall₂_filter (fun _ hdropped => hdropped) fun _ _ hmodule => hmodule.kept_id,
            ?_, ?_⟩
          · rw [load_eq_search, Loader.search, hnumbered]
            rw [← hfirst] at hagain
            simp only [hagain]
          · have hsame : numbers.map (rank kept (modules.map Module.id)) = numbers := by
              rw [List.map_congr_left fun number hnumber => (hkept number hnumber).2, ← hranks]
            conv_lhs => rw [← hsame, List.zip_map_right]
            rfl
          · intro entry hentry
            exact (hkept entry.2 (List.of_mem_zip hentry).2).1

end WebBundle.Loader
