import WebBundle.Proofs.Search.Omission

/-!
# Searches that run in parallel

Two searches that both find a graph may load different contents for the same modules.  If the
contents import the same, and whatever imports lead to is the same, the searches number the
same modules in the same waves.  Their graphs then have the same modules with the same
dependencies, and their traces correspond.  Neither search is known to succeed because the
other one does.
-/

namespace WebBundle.Loader

variable {σ τ : Type} {first : Steps σ} {second : Steps τ}
variable {loadable : Resolved × σ → Prop} {fetched : ModuleId → Loaded → Loaded → Prop}
variable {alike : ModuleId → ModuleContent → ModuleContent → Prop}
variable {related : List ModuleId → σ → τ → Prop}

/-- The parts of two searches, where they succeed in both, do what keeps the searches parallel:
what they load and scan may differ, but not what it imports.  The states are related with
respect to the modules that were scanned so far. -/
structure Parallel (first : Steps σ) (second : Steps τ) (loadable : Resolved × σ → Prop)
    (fetched : ModuleId → Loaded → Loaded → Prop)
    (alike : ModuleId → ModuleContent → ModuleContent → Prop)
    (related : List ModuleId → σ → τ → Prop) : Prop where
  load {done state other resolved loaded again next last} (hrelated : related done state other)
    (hloadable : loadable (resolved, state))
    (hload : first.load resolved state = some (.ok loaded, next))
    (hagain : second.load resolved other = some (.ok again, last)) :
    fetched resolved.id loaded again ∧ related done next last
  kind {id loaded again} (hfetched : fetched id loaded again) : loaded.kind = again.kind
  scan {done state other id loaded again content twin} (hrelated : related done state other)
    (hfetched : fetched id loaded again) (hfresh : id ∉ done)
    (hscan : (first.scan id loaded state).1 = .ok content)
    (hagain : (second.scan id again other).1 = .ok twin) :
    alike id content twin ∧
      related (done ++ [id]) (first.scan id loaded state).2 (second.scan id again other).2
  records {id content twin} (halike : alike id content twin) : content.records = twin.records
  resolve {done state other importer target twin} {record : Scan.ImportRecord}
    (hrelated : related done state other)
    (hresolve : (resolveRecord first importer record state).1 = .ok target)
    (hagain : (resolveRecord second importer record other).1 = .ok twin) :
    target = twin ∧ related done (resolveRecord first importer record state).2
      (resolveRecord second importer record other).2
  stableId : ∀ id, first.stableId id = second.stableId id

/-- Two modules that differ at most in their contents, which are alike. -/
structure Twins (alike : ModuleId → ModuleContent → ModuleContent → Prop) (module twin : Module) :
    Prop where
  id_eq : module.id = twin.id
  stableId_eq : module.stableId = twin.stableId
  kind_eq : module.kind = twin.kind
  dependencies_eq : module.dependencies = twin.dependencies
  content : alike module.id module.content twin.content

theorem Twins.eq {module twin : Module}
    (h : Twins (fun _ content other => content = other) module twin) : module = twin := by
  obtain ⟨id, stableId, kind, content, dependencies⟩ := module
  obtain ⟨_, _, _, _, _⟩ := twin
  obtain ⟨rfl, rfl, rfl, rfl, rfl⟩ := h
  rfl

/-- Modules that are numbered alike stay alike. -/
theorem twins_numberWave {items others : List (Module × List Resolved)}
    (hitems : List.Forall₂ (fun item other => Twins alike item.1 other.1 ∧ item.2 = other.2)
      items others) (numbering : Numbering) :
    List.Forall₂ (Twins alike) (numberWave items numbering).1 (numberWave others numbering).1 ∧
      (numberWave items numbering).2 = (numberWave others numbering).2 := by
  induction hitems generalizing numbering with
  | nil => exact ⟨.nil, rfl⟩
  | @cons item other items others hitem _ ih =>
      obtain ⟨module, targets⟩ := item
      obtain ⟨twin, _⟩ := other
      obtain ⟨htwins, rfl⟩ := hitem
      obtain ⟨hmodules, hnext⟩ := ih (numberAll targets numbering).2
      exact ⟨.cons { htwins with dependencies_eq := rfl } hmodules, hnext⟩

/-- A wave that was loaded lists the modules that were asked for. -/
theorem ids_of_loaded {steps : Steps σ} {wave : List Resolved} {state last : σ}
    {loaded : List (ModuleId × Loaded)}
    (hload : forEach? (loadOne steps) wave state = some (loaded.map .ok, last)) :
    loaded.map Prod.fst = wave.map Resolved.id := by
  induction wave generalizing loaded state with
  | nil =>
      cases loaded with
      | nil => rfl
      | cons item rest => cases hload
  | cons resolved wave ih =>
      obtain ⟨result, middle, results, hone, hrest, hresults⟩ := forEach?_cons hload
      cases loaded with
      | nil => cases hresults
      | cons item rest =>
          rw [List.map_cons, List.cons.injEq] at hresults
          obtain ⟨rfl, rfl⟩ := hresults
          rw [List.map_cons, List.map_cons, (loadOne_eq_ok hone).1, ih hrest]

namespace Parallel

variable (h : Parallel first second loadable fetched alike related)
include h

/-! ## Parts of a wave -/

theorem loadAll {done : List ModuleId} {wave : List Resolved} {state next : σ} {other last : τ}
    {loaded again : List (ModuleId × Loaded)} (hrelated : related done state other)
    (hloadable : ∀ visit ∈ visits? (loadOne first) wave state, loadable visit)
    (hload : forEach? (loadOne first) wave state = some (loaded.map .ok, next))
    (hagain : forEach? (loadOne second) wave other = some (again.map .ok, last)) :
    List.Forall₂ (fun item twin => item.1 = twin.1 ∧ fetched item.1 item.2 twin.2) loaded again ∧
      related done next last ∧
      List.Forall₂ (SameVisit fun state other => ∃ done, related done state other)
        (visits? (loadOne first) wave state) (visits? (loadOne second) wave other) := by
  induction wave generalizing loaded again state other with
  | nil =>
      cases loaded with
      | cons item rest => cases hload
      | nil =>
          cases again with
          | cons item rest => cases hagain
          | nil =>
              cases hload
              cases hagain
              exact ⟨.nil, hrelated, .nil⟩
  | cons resolved wave ih =>
      obtain ⟨result, middle, results, hone, hrest, hresults⟩ := forEach?_cons hload
      obtain ⟨answer, center, answers, hother, hmore, hanswers⟩ := forEach?_cons hagain
      cases loaded with
      | nil => cases hresults
      | cons item rest =>
          cases again with
          | nil => cases hanswers
          | cons twin more =>
              rw [List.map_cons, List.cons.injEq] at hresults hanswers
              obtain ⟨rfl, rfl⟩ := hresults
              obtain ⟨rfl, rfl⟩ := hanswers
              obtain ⟨hid, hgiven⟩ := loadOne_eq_ok hone
              obtain ⟨htwin, hfound⟩ := loadOne_eq_ok hother
              rw [visits?, hone, List.forall_mem_cons] at hloadable
              rw [visits?, visits?, hone, hother]
              obtain ⟨hfetched, hnext⟩ := h.load hrelated hloadable.1 hgiven hfound
              obtain ⟨hitems, hlast, hvisits⟩ := ih hnext hloadable.2 hrest hmore
              exact ⟨.cons ⟨hid.trans htwin.symm, hid ▸ hfetched⟩ hitems, hlast,
                .cons ⟨rfl, done, hrelated⟩ hvisits⟩

theorem scanAll {done : List ModuleId} {loaded again : List (ModuleId × Loaded)}
    (hitems : List.Forall₂ (fun item twin => item.1 = twin.1 ∧ fetched item.1 item.2 twin.2)
      loaded again)
    {scanned others : List Module} {state : σ} {other : τ} (hrelated : related done state other)
    (hnodup : (done ++ loaded.map Prod.fst).Nodup)
    (hscan : (forEach (scanOne first) loaded state).1 = scanned.map .ok)
    (hagain : (forEach (scanOne second) again other).1 = others.map .ok) :
    List.Forall₂ (Twins alike) scanned others ∧
      related (done ++ loaded.map Prod.fst) (forEach (scanOne first) loaded state).2
        (forEach (scanOne second) again other).2 := by
  induction hitems generalizing done scanned others state other with
  | nil =>
      cases scanned with
      | cons module rest => cases hscan
      | nil =>
          cases others with
          | cons module rest => cases hagain
          | nil => exact ⟨.nil, by rwa [List.map_nil, List.append_nil]⟩
  | @cons item twin loaded again hitem _ ih =>
      obtain ⟨id, content⟩ := item
      obtain ⟨_, found⟩ := twin
      obtain ⟨rfl, hfetched⟩ := hitem
      rw [forEach_cons] at hscan hagain
      cases scanned with
      | nil => cases hscan
      | cons module scanned =>
          cases others with
          | nil => cases hagain
          | cons twin others =>
              obtain ⟨hone, hrest⟩ := List.cons.inj hscan
              obtain ⟨hother, hmore⟩ := List.cons.inj hagain
              obtain ⟨_, _, _, hview⟩ := scanOne_eq_ok hone
              obtain ⟨_, _, _, hfound⟩ := scanOne_eq_ok hother
              rw [scanOne_of_ok hview] at hone
              rw [scanOne_of_ok hfound] at hother
              rw [List.map_cons, List.append_cons] at hnodup ⊢
              have hfresh : id ∉ done := by
                have hbegins := (List.nodup_append.mp hnodup).1
                exact fun hdone =>
                  (List.nodup_append.mp hbegins).2.2 _ hdone _ List.mem_cons_self rfl
              obtain ⟨halike, hnext⟩ := h.scan hrelated hfetched hfresh hview hfound
              obtain ⟨hmodules, hlast⟩ := ih hnext hnodup hrest hmore
              rw [Except.ok.injEq] at hone hother
              refine ⟨.cons ?_ hmodules, hlast⟩
              rw [← hone, ← hother]
              exact ⟨rfl, h.stableId id, h.kind hfetched, rfl, halike⟩

theorem resolveRecords {done : List ModuleId} (importer : ModuleId)
    {records : List Scan.ImportRecord} {targets others : List Resolved} {state : σ} {other : τ}
    (hrelated : related done state other)
    (hresolve : (forEach (resolveRecord first importer) records state).1 = targets.map .ok)
    (hagain : (forEach (resolveRecord second importer) records other).1 = others.map .ok) :
    targets = others ∧ related done (forEach (resolveRecord first importer) records state).2
      (forEach (resolveRecord second importer) records other).2 := by
  induction records generalizing targets others state other with
  | nil =>
      cases targets with
      | cons target rest => cases hresolve
      | nil =>
          cases others with
          | cons target rest => cases hagain
          | nil => exact ⟨rfl, hrelated⟩
  | cons record records ih =>
      rw [forEach_cons] at hresolve hagain
      cases targets with
      | nil => cases hresolve
      | cons target targets =>
          cases others with
          | nil => cases hagain
          | cons twin others =>
              obtain ⟨hone, hrest⟩ := List.cons.inj hresolve
              obtain ⟨hother, hmore⟩ := List.cons.inj hagain
              obtain ⟨rfl, hnext⟩ := h.resolve hrelated hone hother
              obtain ⟨rfl, hlast⟩ := ih hnext hrest hmore
              exact ⟨rfl, hlast⟩

theorem resolveAll {done : List ModuleId} {scanned twins : List Module}
    (htwins : List.Forall₂ (Twins alike) scanned twins)
    {resolved others : List (Module × List Resolved)} {state : σ} {other : τ}
    (hrelated : related done state other)
    (hresolve : (forEach (resolveOne first) scanned state).1 = resolved.map .ok)
    (hagain : (forEach (resolveOne second) twins other).1 = others.map .ok) :
    List.Forall₂ (fun item twin => Twins alike item.1 twin.1 ∧ item.2 = twin.2) resolved others ∧
      related done (forEach (resolveOne first) scanned state).2
        (forEach (resolveOne second) twins other).2 := by
  induction htwins generalizing resolved others state other with
  | nil =>
      cases resolved with
      | cons item rest => cases hresolve
      | nil =>
          cases others with
          | cons item rest => cases hagain
          | nil => exact ⟨.nil, hrelated⟩
  | @cons module twin scanned twins hmodule _ ih =>
      rw [forEach_cons] at hresolve hagain
      cases resolved with
      | nil => cases hresolve
      | cons item resolved =>
          cases others with
          | nil => cases hagain
          | cons twin others =>
              obtain ⟨hone, hrest⟩ := List.cons.inj hresolve
              obtain ⟨hother, hmore⟩ := List.cons.inj hagain
              obtain ⟨rfl, htargets⟩ := targets_of_resolveOne hone
              obtain ⟨rfl, hfound⟩ := targets_of_resolveOne hother
              rw [← hmodule.id_eq, ← h.records hmodule.content] at hfound
              obtain ⟨hsame, hnext⟩ := h.resolveRecords _ hrelated htargets hfound
              have hstates : (resolveOne second twin.1 other).2 =
                  (forEach (resolveRecord second item.1.id) item.1.content.records other).2 := by
                rw [hmodule.id_eq, h.records hmodule.content]
                rfl
              have hstep : related done (resolveOne first item.1 state).2
                  (resolveOne second twin.1 other).2 := hstates ▸ hnext
              obtain ⟨hitems, hlast⟩ := ih hstep hrest hmore
              exact ⟨.cons ⟨hmodule, hsame⟩ hitems, hlast⟩

/-! ## Waves -/

/-- Two waves from the same numbering give twins and leave the same numbering. -/
theorem wave {before : List ModuleId} {numbering next after : Numbering} {state last : σ}
    {other reached : τ} {modules twins : List Module}
    (hconsistent : numbering.Consistent before) (hrelated : related before state other)
    (hloadable : ∀ visit ∈ waveLoads first (numbering, state), loadable visit)
    (done : WaveDone first numbering state modules next last)
    (redone : WaveDone second numbering other twins after reached) :
    List.Forall₂ (Twins alike) modules twins ∧ next = after ∧
      related numbering.known last reached ∧
      List.Forall₂ (SameVisit fun state other => ∃ done, related done state other)
        (waveLoads first (numbering, state)) (waveLoads second (numbering, other)) := by
  obtain ⟨results, hresults, hconclude⟩ := loadWave_eq done.load_eq
  obtain ⟨_, rfl⟩ := concludeWave_eq_ok hconclude.symm
  obtain ⟨answers, hanswers, hconcluded⟩ := loadWave_eq redone.load_eq
  obtain ⟨_, rfl⟩ := concludeWave_eq_ok hconcluded.symm
  obtain ⟨hitems, hloaded, hvisits⟩ := h.loadAll hrelated hloadable hresults hanswers
  have hknown : before ++ done.loaded.map Prod.fst = numbering.known := by
    rw [ids_of_loaded hresults, hconsistent.known_eq]
  obtain ⟨hscanned, hmiddle⟩ :=
    h.scanAll hitems hloaded (hknown ▸ hconsistent.nodup) done.scan_eq redone.scan_eq
  obtain ⟨hresolved, hlast⟩ := h.resolveAll hscanned hmiddle done.resolve_eq redone.resolve_eq
  obtain ⟨hmodules, hnext⟩ := twins_numberWave hresolved { numbering with wave := [] }
  rw [done.number_eq, redone.number_eq] at hmodules hnext
  rw [← done.last_eq, ← redone.last_eq, hknown] at hlast
  exact ⟨hmodules, hnext, hlast, hvisits⟩

/-- Two searches from the same numbering give twins. -/
theorem runWaves {limit more : Nat} {before : List ModuleId} {numbering : Numbering}
    {state last : σ} {other reached : τ} {result answer : Except LoadFailure (List Module)}
    {modules twins : List Module} (hruns : Runs first limit numbering state result last)
    (hresult : result = .ok modules) (hagain : Runs second more numbering other answer reached)
    (hanswer : answer = .ok twins) (hconsistent : numbering.Consistent before)
    (hrelated : related before state other)
    (hloadable : ∀ visit ∈ (waves first limit numbering state).flatMap (waveLoads first),
      loadable visit) :
    List.Forall₂ (Twins alike) modules twins ∧ (∃ done, related done last reached) ∧
      List.Forall₂ (SameVisit fun state other => ∃ done, related done state other)
        ((waves first limit numbering state).flatMap (waveLoads first))
        ((waves second more numbering other).flatMap (waveLoads second)) := by
  induction hruns generalizing more before modules twins other answer with
  | failed => cases hresult
  | finished hempty =>
      cases hagain with
      | failed hnonempty => exact absurd hempty hnonempty
      | followed hnonempty => exact absurd hempty hnonempty
      | finished =>
          cases hresult
          cases hanswer
          rw [waves_of_isEmpty _ _ hempty, waves_of_isEmpty _ _ hempty]
          exact ⟨.nil, ⟨before, hrelated⟩, .nil⟩
  | @followed limit numbering state wave next middle result last hempty hwave hrest ih =>
      cases hagain with
      | finished hnone => exact absurd hnone hempty
      | failed => cases hanswer
      | @followed more _ _ others after center answer _ _ hother hmore =>
          cases result with
          | error failure => cases hresult
          | ok later =>
              cases answer with
              | error failure => cases hanswer
              | ok final =>
                  cases hresult
                  cases hanswer
                  obtain ⟨done⟩ := runWave_eq_ok hwave
                  obtain ⟨redone⟩ := runWave_eq_ok hother
                  rw [waves_succ _ _ hempty, hwave, List.flatMap_cons,
                    List.forall_mem_append] at hloadable
                  rw [waves_succ _ _ hempty, waves_succ _ _ hempty, hwave, hother,
                    List.flatMap_cons, List.flatMap_cons]
                  obtain ⟨hmodules, rfl, hmiddle, hvisits⟩ :=
                    h.wave hconsistent hrelated hloadable.1 done redone
                  obtain ⟨hlater, hlast, hvisited⟩ := ih rfl hmore rfl
                    (done.consistent hconsistent) hmiddle hloadable.2
                  exact ⟨List.rel_append hmodules hlater, hlast,
                    List.rel_append hvisits hvisited⟩

/-! ## Graphs -/

/-- Two searches with the same entries that both find a graph find the same modules, in the same
order and with the same dependencies, and they load them in corresponding states. -/
theorem search {limit more : Nat} {entries : List (Option String × Resolved)} {state last : σ}
    {other reached : τ} {graph twin : Graph} (hrelated : related [] state other)
    (hload : Loader.load first limit entries state = some (.ok graph, last))
    (hagain : Loader.load second more entries other = some (.ok twin, reached))
    (hloadable : ∀ visit ∈ loads first limit entries state, loadable visit) :
    List.Forall₂ (Twins alike) graph.modules twin.modules ∧ graph.entries = twin.entries ∧
      (∃ done, related done last reached) ∧
      List.Forall₂ (SameVisit fun state other => ∃ done, related done state other)
        (loads first limit entries state) (loads second more entries other) := by
  rw [load_eq_search, Loader.search] at hload hagain
  have hconsistent := consistent_numberAll .empty (entries.map Prod.snd)
  rw [loads, wavesOf] at hloadable ⊢
  rw [loads, wavesOf]
  generalize numberAll (entries.map Prod.snd) {} = numbered at hload hagain hconsistent hloadable ⊢
  obtain ⟨numbers, numbering⟩ := numbered
  dsimp only at hload hagain hconsistent hloadable ⊢
  cases hrun : Loader.runWaves first limit numbering state with
  | none => simp [hrun] at hload
  | some given =>
      obtain ⟨result, final⟩ := given
      cases hother : Loader.runWaves second more numbering other with
      | none => simp [hother] at hagain
      | some found =>
          obtain ⟨answer, ended⟩ := found
          cases result with
          | error failure => simp [hrun] at hload
          | ok modules =>
              cases answer with
              | error failure => simp [hother] at hagain
              | ok twins =>
                  simp only [hrun, hother, Option.some.injEq, Prod.mk.injEq, Except.ok.injEq]
                    at hload hagain
                  obtain ⟨rfl, rfl⟩ := hload
                  obtain ⟨rfl, rfl⟩ := hagain
                  obtain ⟨hmodules, hlast, hvisits⟩ := h.runWaves (runs_of_runWaves hrun) rfl
                    (runs_of_runWaves hother) rfl hconsistent hrelated hloadable
                  exact ⟨hmodules, rfl, hlast, hvisits⟩

end Parallel

end WebBundle.Loader
