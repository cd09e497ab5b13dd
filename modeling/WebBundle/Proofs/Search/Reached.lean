import Mathlib.Data.Set.Finite.Basic
import WebBundle.Proofs.Search.Failure
import WebBundle.Proofs.Search.Invariant
import WebBundle.Proofs.Search.Termination
import WebBundle.Proofs.Search.Told

/-!
# What searches reach

A search has a module for everything that it is led to from its entries, and for nothing
else; each one is loaded once, and its imports are those that were resolved for it.  What
it is led to is told by the log of the search.  A search fails only with the reports of
its parts, or because it was cancelled.  It ends if its parts can only lead to finitely
many modules.
-/

namespace WebBundle

theorem Asked.mem_of_mem_load? {log : List Asked} {resolved : Resolved}
    {answer : Except Report Loaded} (hload : (resolved, answer) ∈ log.filterMap Asked.load?) :
    .load resolved answer ∈ log := by
  obtain ⟨asked, hasked, hchosen⟩ := List.mem_filterMap.mp hload
  cases asked with
  | load other given =>
      cases hchosen
      exact hasked
  | scan id loaded given => cases hchosen
  | resolve importer specifier form given => cases hchosen

namespace Loader

variable {σ : Type} {steps : Steps σ}

/-! ## Graphs -/

/-- The modules in the order of their numbers. -/
def Fetched.ids (fetched : Fetched) : List ModuleId :=
  fetched.modules.map fun indexed => indexed.2.id

/-- The modules that the answers in a log lead to from some entries. -/
inductive Reached (entries : List (Option String × Resolved)) (log : List Asked) :
    ModuleId → Prop
  | entry {entry} (hentry : entry ∈ entries) : Reached entries log entry.2.id
  | imported {importer specifier form target} (himporter : Reached entries log importer)
      (hasked : .resolve (some importer) specifier form (.ok target) ∈ log) :
      Reached entries log target.id

/-- The modules are those that the answers in the log lead to, each loaded once and under
the number of its place, with the content that it was loaded and scanned to.  The imports
of a module were resolved in their order, and each number stands for the module that the
answer named. -/
structure Fetched.Right (entries : List (Option String × Resolved)) (log : List Asked)
    (fetched : Fetched) : Prop where
  numbers : fetched.modules.map Prod.fst = List.range fetched.modules.length
  nodup : fetched.ids.Nodup
  mem_ids : ∀ id, id ∈ fetched.ids ↔ Reached entries log id
  loads : ((log.filterMap Asked.load?).map fun asked => asked.1.id) = fetched.ids
  contents : ∀ indexed ∈ fetched.modules, ∃ kind loaded,
    .load ⟨indexed.2.id, kind⟩ (.ok loaded) ∈ log ∧
      .scan indexed.2.id loaded (.ok indexed.2.content) ∈ log ∧ indexed.2.kind = loaded.kind
  imports : ∀ indexed ∈ fetched.modules,
    ((log.filterMap (Asked.resolvedFor? indexed.2.id)).map Prod.fst =
        indexed.2.content.records.map fun record => (record.specifier, record.form)) ∧
      List.Forall₂ (fun asked number => ∃ target, asked.2 = .ok target ∧
          fetched.ids[number]? = some target.id)
        (log.filterMap (Asked.resolvedFor? indexed.2.id)) indexed.2.dependencies
  entries : List.Forall₂ (fun (entry : Option String × Resolved) (given : Option String × Nat) =>
    given.1 = entry.1 ∧ fetched.ids[given.2]? = some entry.2.id) entries fetched.entries

theorem exists_right_of_forall₂ {α β : Type} {related : α → β → Prop} {left : List α}
    {right : List β} (h : List.Forall₂ related left right) {value : α} (hvalue : value ∈ left) :
    ∃ other ∈ right, related value other :=
  exists_left_of_forall₂ h.flip hvalue

/-- A target that has a number is known. -/
theorem Numbers.mem {known : List ModuleId} {targets : List Resolved} {numbers : List Nat}
    (h : Numbers known targets numbers) {target : Resolved} (htarget : target ∈ targets) :
    target.id ∈ known := by
  obtain ⟨number, _, hnumber⟩ := exists_right_of_forall₂ h htarget
  exact List.mem_of_getElem? hnumber

theorem map_answers (account : Account) :
    account.answers.map Prod.fst =
      account.module.content.records.map fun record => (record.specifier, record.form) := by
  have hrecords : (account.module.content.records.zip account.targets).map Prod.fst =
      account.module.content.records := List.map_fst_zip (Nat.le_of_eq account.length_eq.symm)
  conv_rhs => rw [← hrecords, List.map_map]
  rw [Account.answers, List.map_map]
  rfl

theorem numbers_answers {known : List ModuleId} {account : Account} {module : Module}
    (h : Numbered known account.item module) :
    List.Forall₂ (fun (asked : (String × Scan.ImportForm) × Except Report Resolved) number =>
        ∃ target, asked.2 = .ok target ∧ known[number]? = some target.id)
      account.answers module.dependencies := by
  have htargets : (account.module.content.records.zip account.targets).map Prod.snd =
      account.targets := List.map_snd_zip (Nat.le_of_eq account.length_eq)
  have hnumbers : Numbers known account.targets module.dependencies := h.numbers
  rw [← htargets, Numbers, List.forall₂_map_left_iff] at hnumbers
  rw [Account.answers, List.forall₂_map_left_iff]
  exact hnumbers.imp fun pair number hnumber => ⟨pair.2, rfl, hnumber⟩

theorem ids_indexed (modules : List Module) (entries : List (Option String × Nat)) :
    Fetched.ids ⟨indexed modules 0, entries⟩ = modules.map Module.id := by
  rw [Fetched.ids, ← Function.comp_def Module.id, ← List.map_map, indexed_map_snd]

theorem entries_zip {known : List ModuleId} {entries : List (Option String × Resolved)}
    {numbers : List Nat} (h : Numbers known (entries.map Prod.snd) numbers) :
    List.Forall₂ (fun (entry : Option String × Resolved) (given : Option String × Nat) =>
      given.1 = entry.1 ∧ known[given.2]? = some entry.2.id) entries
      ((entries.map Prod.fst).zip numbers) := by
  rw [Numbers, List.forall₂_map_left_iff] at h
  induction h with
  | nil => exact .nil
  | cons hnumber _ ih => exact .cons ⟨rfl, hnumber⟩ ih

/-- The log of a search tells of the right graph. -/
theorem Told.right {accounts : List Account} {log : List Asked} {modules : List Module}
    {entries : List (Option String × Resolved)} {numbers : List Nat} (htold : Told accounts log)
    (hnodup : (modules.map Module.id).Nodup)
    (hnumbered : List.Forall₂ (fun account => Numbered (modules.map Module.id) account.item)
      accounts modules)
    (hentries : Numbers (modules.map Module.id) (entries.map Prod.snd) numbers)
    (hholds : ∀ holds : ModuleId → Prop, (∀ entry ∈ entries, holds entry.2.id) →
      (∀ account ∈ accounts, holds account.module.id →
        ∀ target ∈ account.targets, holds target.id) →
      ∀ account ∈ accounts, holds account.module.id) :
    Fetched.Right entries log ⟨indexed modules 0, (entries.map Prod.fst).zip numbers⟩ := by
  have hids : accounts.map (fun account => account.module.id) = modules.map Module.id := by
    rw [← List.forall₂_eq_eq_eq, List.forall₂_map_left_iff, List.forall₂_map_right_iff]
    exact hnumbered.imp fun _ _ h => h.id_eq.symm
  have hreached : ∀ account ∈ accounts, Reached entries log account.module.id := by
    refine hholds (Reached entries log) (fun entry hentry => .entry hentry) ?_
    intro account haccount himporter target htarget
    obtain ⟨⟨specifier, form⟩, hanswer⟩ := account.exists_answer htarget
    exact .imported himporter (htold.mem_resolve_iff.mpr ⟨account, haccount, rfl, hanswer⟩)
  have haccount : ∀ place ∈ indexed modules 0, ∃ account ∈ accounts,
      Numbered (modules.map Module.id) account.item place.2 := by
    intro place hplace
    have hmodule := List.mem_map_of_mem (f := Prod.snd) hplace
    rw [indexed_map_snd] at hmodule
    exact exists_left_of_forall₂ hnumbered hmodule
  constructor
  case numbers =>
    rw [indexed_map_fst, indexed_length, List.range_eq_range']
  case nodup =>
    rw [ids_indexed]
    exact hnodup
  case mem_ids =>
    intro id
    rw [ids_indexed]
    constructor
    · intro hid
      rw [← hids] at hid
      obtain ⟨account, haccount, rfl⟩ := List.mem_map.mp hid
      exact hreached account haccount
    · intro hid
      induction hid with
      | entry hentry => exact hentries.mem (List.mem_map_of_mem hentry)
      | imported _ hasked _ =>
          obtain ⟨account, haccount, _, hanswer⟩ := htold.mem_resolve_iff.mp hasked
          obtain ⟨module, _, hmodule⟩ := exists_right_of_forall₂ hnumbered haccount
          exact hmodule.numbers.mem (Account.mem_targets hanswer)
  case loads =>
    rw [ids_indexed, htold.loads, List.map_map, ← hids]
    exact List.map_congr_left fun account _ => account.id_eq.symm
  case contents =>
    intro place hplace
    obtain ⟨account, haccount, hmodule⟩ := haccount place hplace
    have hid : place.2.id = account.module.id := hmodule.id_eq
    have hcontent : place.2.content = account.module.content := hmodule.content_eq
    have hload : (account.resolved, .ok account.loaded) ∈ log.filterMap Asked.load? := by
      rw [htold.loads]
      exact List.mem_map_of_mem haccount
    refine ⟨account.resolved.kind, account.loaded, ?_, ?_, hmodule.kind_eq.trans account.kind_eq⟩
    · rw [hid, account.id_eq]
      exact Asked.mem_of_mem_load? hload
    · rw [hid, hcontent]
      exact htold.scans account haccount
  case imports =>
    intro place hplace
    obtain ⟨account, haccount, hmodule⟩ := haccount place hplace
    have hid : place.2.id = account.module.id := hmodule.id_eq
    have hcontent : place.2.content = account.module.content := hmodule.content_eq
    rw [ids_indexed, hid, hcontent, htold.answers (hids ▸ hnodup) haccount]
    exact ⟨map_answers account, numbers_answers hmodule⟩
  case entries =>
    rw [ids_indexed]
    exact entries_zip hentries

/-- A search that succeeds has the right graph for its log. -/
theorem search_right {limit : Nat} {entries : List (Option String × Resolved)} {state : σ}
    {graph : Graph} {last : σ × List Asked}
    (hsearch : search steps.logged limit entries (state, []) = some (.ok graph, last)) :
    Fetched.Right entries last.2 ⟨indexed graph.modules 0, graph.entries⟩ := by
  have hconsistent := consistent_numberAll .empty (entries.map Prod.snd)
  have hentries := numbers_numberAll (entries.map Prod.snd) {}
  have hwave : ∀ resolved ∈ (numberAll (entries.map Prod.snd) {}).2.wave,
      ∃ entry ∈ entries, entry.2 = resolved := fun resolved hresolved =>
    List.mem_map.mp ((mem_wave_numberAll hresolved).resolve_left fun hnone => nomatch hnone)
  rw [search] at hsearch
  generalize numberAll (entries.map Prod.snd) {} = numbered at hsearch hconsistent hentries hwave
  obtain ⟨numbers, numbering⟩ := numbered
  dsimp only at hsearch hconsistent hentries hwave
  cases hrun : runWaves steps.logged limit numbering (state, []) with
  | none => simp [hrun] at hsearch
  | some given =>
      obtain ⟨result, final⟩ := given
      cases result with
      | error failure => simp [hrun] at hsearch
      | ok modules =>
          simp only [hrun, Option.some.injEq, Prod.mk.injEq, Except.ok.injEq] at hsearch
          obtain ⟨rfl, rfl⟩ := hsearch
          have hruns := runs_of_runWaves hrun
          obtain ⟨hnodup, hbegins, _⟩ := hruns.found rfl hconsistent
          obtain ⟨accounts, log, hlog, htold, hnumbered, hholds⟩ := hruns.told rfl hconsistent
          rw [List.nil_append] at hlog hnodup hbegins hnumbered
          rw [List.forall₂_map_left_iff] at hnumbered
          rw [hlog]
          refine htold.right hnodup hnumbered (hentries.mono hbegins) ?_
          intro holds hstart
          refine hholds holds fun resolved hresolved => ?_
          obtain ⟨entry, hentry, rfl⟩ := hwave resolved hresolved
          exact hstart entry hentry

/-- The parts note what they are asked and do what they did. -/
theorem simulates_logged (steps : Steps σ) :
    Simulates steps steps.logged (fun state noted => state = noted.1) (fun _ => True)
      (fun _ => True) where
  resolve _ _ _ _ _ hsame := by
    cases hsame
    exact ⟨rfl, rfl⟩
  load resolved state noted result next _ hsame hload := by
    cases hsame
    refine ⟨(next, noted.2 ++ [.load resolved result]), ?_, rfl⟩
    change (steps.load resolved noted.1).map _ = _
    rw [hload]
    rfl
  scan _ _ _ _ _ hsame := by
    cases hsame
    exact ⟨rfl, rfl⟩
  stableId _ := rfl
  isCancelled hsame := by
    cases hsame
    rfl

/-! ## Everything that can be reached -/

/-- The states that the parts of a search can bring about. -/
inductive Occurs (steps : Steps σ) (start : σ) : σ → Prop
  | start : Occurs steps start start
  | resolve {state} (importer specifier form) (hstate : Occurs steps start state) :
      Occurs steps start (steps.resolve importer specifier form state).2
  | load {resolved state answer next} (hstate : Occurs steps start state)
      (hload : steps.load resolved state = some (answer, next)) : Occurs steps start next
  | scan {state} (id loaded) (hstate : Occurs steps start state) :
      Occurs steps start (steps.scan id loaded state).2

/-- What the parts of a search can lead to from some entries. -/
inductive Reachable (steps : Steps σ) (entries : List (Option String × Resolved)) (start : σ) :
    Resolved → Prop
  | entry {entry} (hentry : entry ∈ entries) : Reachable steps entries start entry.2
  | imported {importer state loaded next scannedAt content record resolvedAt target}
      (himporter : Reachable steps entries start importer) (hstate : Occurs steps start state)
      (hload : steps.load importer state = some (.ok loaded, next))
      (hscannedAt : Occurs steps start scannedAt)
      (hscan : (steps.scan importer.id loaded scannedAt).1 = .ok content)
      (hrecord : record ∈ content.records) (hresolvedAt : Occurs steps start resolvedAt)
      (hresolve : (steps.resolve (some importer.id) record.specifier record.form
        resolvedAt).1 = .ok target) :
      Reachable steps entries start target

theorem confined_reachable (steps : Steps σ) (entries : List (Option String × Resolved))
    (start : σ) :
    Confined steps (Occurs steps start) {resolved | Reachable steps entries start resolved} where
  keeps :=
    { resolve := fun importer specifier form _ hstate => hstate.resolve importer specifier form
      load := fun _ _ _ _ _ hstate hload => hstate.load hload
      scan := fun id loaded _ _ hstate => hstate.scan id loaded }
  closed himporter hstate hload hscannedAt hscan hrecord hresolvedAt hresolve :=
    .imported himporter hstate hload hscannedAt hscan hrecord hresolvedAt hresolve

variable {entries : List (Option String × Resolved)} {start : σ}

theorem fetch_ne_none_iff (steps : Steps σ) (limit : Nat)
    (entries : List (Option String × Resolved)) (start : σ) :
    fetch steps limit entries start ≠ none ↔ load steps limit entries start ≠ none := by
  rw [load_eq_search, fetch_eq_search, Ne, Ne, Option.map_eq_none_iff]

theorem extends_self (steps : Steps σ) : Extends steps steps :=
  ⟨rfl, fun _ _ _ hload => hload, rfl, rfl, rfl⟩

/-- A larger limit changes nothing once a search ends. -/
theorem fetch_mono {limit more : Nat} (hmore : limit ≤ more)
    {given : Except LoadFailure Fetched × σ}
    (hfetch : fetch steps limit entries start = some given) :
    fetch steps more entries start = some given := by
  rw [fetch_eq_search, Option.map_eq_some_iff] at hfetch
  obtain ⟨found, hsearch, rfl⟩ := hfetch
  rw [← load_eq_search] at hsearch
  have hagain := (extends_self steps).load_eq hmore hsearch
  rw [load_eq_search] at hagain
  rw [fetch_eq_search, hagain]
  rfl

/-- A search has the right graph for its log, or its failure is excused by it. -/
def Justified (steps : Steps σ) (entries : List (Option String × Resolved)) (log : List Asked)
    (last : σ) : Except LoadFailure Fetched → Prop
  | .ok fetched => fetched.Right entries log
  | .error failure => Excused steps log last failure

/-- A search comes to the same when it notes what it asks. -/
theorem fetch_logged {limit : Nat} {result : Except LoadFailure Fetched} {last : σ}
    (hfetch : fetch steps limit entries start = some (result, last)) :
    ∃ log, fetch steps.logged limit entries (start, []) = some (result, last, log) ∧
      Justified steps entries log last result := by
  rw [fetch_eq_search, Option.map_eq_some_iff] at hfetch
  obtain ⟨⟨found, reached⟩, hsearch, heq⟩ := hfetch
  rw [← load_eq_search] at hsearch
  obtain ⟨⟨state, log⟩, hagain, hsame, _⟩ := (simulates_logged steps).load_corresponds
    (Nat.le_refl limit) entries start (start, []) (.always _) rfl hsearch
  rw [load_eq_search] at hagain
  cases hsame
  refine ⟨log, ?_, ?_⟩
  · rw [fetch_eq_search, hagain, Option.map_some]
    cases heq
    rfl
  · cases found with
    | ok graph =>
        cases heq
        exact search_right hagain
    | error failure =>
        cases heq
        exact search_excused hagain

/-- A search ends if only finitely many modules can be reached and all of them can be
loaded.  However it ends, its limit has no part in it.  If it succeeds, it has the right
graph for the answers of its parts; if it fails, the reports are among these answers, so
it never reports a graph that is incomplete, or it was cancelled. -/
theorem fetch_right (steps : Steps σ) (entries : List (Option String × Resolved)) (start : σ)
    (hfinite : {id | ∃ resolved, Reachable steps entries start resolved ∧ resolved.id = id}.Finite)
    (hload : ∀ resolved state, Reachable steps entries start resolved →
      Occurs steps start state → steps.load resolved state ≠ none) :
    (∃ limit, ∀ more, limit ≤ more → fetch steps more entries start ≠ none) ∧
      ∀ limit result last, fetch steps limit entries start = some (result, last) →
        (∀ more, limit ≤ more → fetch steps more entries start = some (result, last)) ∧
          ∃ log, fetch steps.logged limit entries (start, []) = some (result, last, log) ∧
            Justified steps entries log last result := by
  refine ⟨⟨hfinite.toFinset.card, fun more hmore => ?_⟩, fun limit result last hfetch =>
    ⟨fun more hmore => fetch_mono hmore hfetch, fetch_logged hfetch⟩⟩
  rw [fetch_ne_none_iff]
  refine (confined_reachable steps entries start).load_ne_none
    (fun resolved hresolved state hstate => hload resolved state hresolved hstate)
    (fun resolved hresolved => ?_) (fun entry hentry => .entry hentry) .start hmore
  rw [Set.Finite.mem_toFinset]
  exact ⟨resolved, hresolved, rfl⟩

/-- Modules that import each other: `/a.js` imports `/b.js` twice, itself and a file that
is emitted; everything else imports `/a.js`. -/
def crossing : Steps Unit where
  resolve _ specifier _ state := (.ok { id := ⟨specifier⟩ }, state)
  load resolved state :=
    some (.ok (if resolved.id.text = "/c.wasm" then .bytes .wasm ⟨#[]⟩ else .text .script ""),
      state)
  scan id loaded state :=
    let specifiers :=
      if id.text = "/a.js" then ["/b.js", "/a.js", "/b.js", "/c.wasm"] else ["/a.js"]
    match loaded with
    | .bytes _ bytes => (.ok (.asset bytes), state)
    | .text _ source =>
      (.ok (.script { source, records := specifiers.map (⟨·, .declaration, default⟩) }), state)
  stableId id := id.text
  isCancelled _ := false

/-- The entries of `crossing`, one of them twice. -/
def crossingEntries : List (Option String × Resolved) :=
  [(none, { id := ⟨"/a.js"⟩ }), (some "b", { id := ⟨"/b.js"⟩ }), (none, { id := ⟨"/a.js"⟩ })]

theorem reachable_crossing {resolved : Resolved}
    (h : Reachable crossing crossingEntries () resolved) :
    resolved.id ∈ [(⟨"/a.js"⟩ : ModuleId), ⟨"/b.js"⟩, ⟨"/c.wasm"⟩] := by
  induction h with
  | entry hentry =>
      simp only [crossingEntries, List.mem_cons, List.not_mem_nil, or_false] at hentry
      rcases hentry with rfl | rfl | rfl <;> decide
  | @imported importer state loaded next scannedAt content record resolvedAt target _ _ _ _ hscan
      hrecord _ hresolve _ =>
      cases hresolve
      cases loaded with
      | bytes kind bytes =>
          cases hscan
          cases hrecord
      | text kind source =>
          cases hscan
          obtain ⟨specifier, hspecifier, rfl⟩ := List.mem_map.mp hrecord
          simp only [List.mem_cons, List.not_mem_nil, or_false, ModuleId.mk.injEq]
          split at hspecifier
          · simp only [List.mem_cons, List.not_mem_nil, or_false] at hspecifier
            tauto
          · exact .inl (List.mem_singleton.mp hspecifier)

theorem fetch_right_crossing :
    (∃ limit, ∀ more, limit ≤ more → fetch crossing more crossingEntries () ≠ none) ∧
      ∃ fetched log, fetch crossing 2 crossingEntries () = some (.ok fetched, ()) ∧
        fetched.Right crossingEntries log ∧
        fetched.ids = [⟨"/a.js"⟩, ⟨"/b.js"⟩, ⟨"/c.wasm"⟩] ∧
        fetched.modules.map (fun indexed => indexed.2.dependencies) = [[1, 0, 1, 2], [0], []] ∧
        fetched.entries = [(none, 0), (some "b", 1), (none, 0)] := by
  have hfinite : {id | ∃ resolved, Reachable crossing crossingEntries () resolved ∧
      resolved.id = id}.Finite := by
    refine (List.finite_toSet [⟨"/a.js"⟩, ⟨"/b.js"⟩, ⟨"/c.wasm"⟩]).subset ?_
    rintro _ ⟨resolved, hresolved, rfl⟩
    exact reachable_crossing hresolved
  obtain ⟨hends, hright⟩ := fetch_right crossing crossingEntries () hfinite
    fun _ _ _ _ => Option.some_ne_none _
  refine ⟨hends, ?_⟩
  have hfetch : ∃ fetched, fetch crossing 2 crossingEntries () = some (.ok fetched, ()) ∧
      fetched.ids = [⟨"/a.js"⟩, ⟨"/b.js"⟩, ⟨"/c.wasm"⟩] ∧
      fetched.modules.map (fun indexed => indexed.2.dependencies) = [[1, 0, 1, 2], [0], []] ∧
      fetched.entries = [(none, 0), (some "b", 1), (none, 0)] :=
    ⟨_, rfl, rfl, rfl, rfl⟩
  obtain ⟨fetched, hfetch, hids, hdependencies, hentries⟩ := hfetch
  obtain ⟨_, log, _, hlog⟩ := hright 2 _ () hfetch
  exact ⟨fetched, log, hfetch, hlog, hids, hdependencies, hentries⟩

end Loader

end WebBundle
