import WebBundle.Proofs.Search.Distance
import WebBundle.Proofs.Search.Omission
import WebBundle.Proofs.Search.Reached

/-!
# Searching with a queue

A search by waves loads, scans and resolves all modules of a wave before it numbers any of
their imports.  A plain search takes one module at a time off a queue: it loads and scans it,
follows its imports in order, gives the next number to each module that is new, and puts it at
the end of the queue.  If where a request leads and what is loaded depends on nothing else, both
find the same modules under the same numbers.

Between two waves the queue holds what is left of one wave and the beginning of the next.
-/

namespace WebBundle.Loader

/-- Answers to what a search asks.  The scanner may have a state of its own, since modules are
scanned in the order of their numbers in any case. -/
structure Answers (τ : Type) where
  resolve : (importer : Option ModuleId) → (specifier : String) → Scan.ImportForm → Resolved
  load : Resolved → Loaded
  scan : ModuleId → Loaded → τ → Except (List Report) ModuleContent × τ
  stableId : ModuleId → String

section Plain

variable {σ τ : Type}

/-- The modules that the imports of a module lead to, in order. -/
def Answers.targets (answers : Answers τ) (module : Module) : List Resolved :=
  module.content.records.map fun record =>
    answers.resolve (some module.id) record.specifier record.form

/-- Loads and scans a module. -/
def Answers.scanned (answers : Answers τ) (resolved : Resolved) (own : τ) :
    Except (List Report) Module × τ :=
  let loaded := answers.load resolved
  let (result, own) := answers.scan resolved.id loaded own
  (result.map fun content =>
    { id := resolved.id, stableId := answers.stableId resolved.id, kind := loaded.kind, content },
    own)

/-- Loads and scans a module and follows its imports. -/
def Answers.examine (answers : Answers τ) (resolved : Resolved) (own : τ) :
    Except (List Report) (Module × List Resolved) × τ :=
  let (result, own) := answers.scanned resolved own
  (result.map fun module => (module, answers.targets module), own)

/-- Handles the first module of a queue until the queue is empty or a module cannot be scanned;
nothing if there are more modules than the limit. -/
def Answers.handle (answers : Answers τ) : (limit : Nat) → (queue : Numbering) → τ →
    Option (Except (List Report) (List (Nat × Module)) × τ)
  | _, { known := _, wave := [] }, own => some (.ok [], own)
  | 0, { known := _, wave := _ :: _ }, _ => none
  | limit + 1, { known, wave := first :: rest }, own =>
    match answers.examine first own with
    | (.error reports, own) => some (.error reports, own)
    | (.ok item, own) =>
      let (module, queue) := numberOne item { known, wave := rest }
      (answers.handle limit queue own).map fun (result, own) =>
        (result.map ((known.idxOf first.id, module) :: ·), own)

/-- All modules that some entries need, by a queue. -/
def Answers.fetch (answers : Answers τ) (limit : Nat) (entries : List (Option String × Resolved))
    (own : τ) : Option (Except (List Report) Fetched × τ) :=
  let (numbers, queue) := numberAll (entries.map Prod.snd) {}
  (answers.handle limit queue own).map fun (result, own) =>
    (result.map fun modules => { modules, entries := (entries.map Prod.fst).zip numbers }, own)

/-- The parts of a search give the answers in all states that are seen as a state of the scanner,
without errors but those of the scanner. -/
structure Answers.Given (answers : Answers τ) (steps : Steps σ) (seen : σ → τ → Prop) : Prop where
  resolve : ∀ importer specifier form {state own}, seen state own →
    (steps.resolve importer specifier form state).1 =
        .ok (answers.resolve importer specifier form) ∧
      seen (steps.resolve importer specifier form state).2 own
  load : ∀ resolved {state own}, seen state own → ∃ next,
    steps.load resolved state = some (.ok (answers.load resolved), next) ∧ seen next own
  scan : ∀ id loaded {state own}, seen state own →
    (steps.scan id loaded state).1 = (answers.scan id loaded own).1 ∧
      seen (steps.scan id loaded state).2 (answers.scan id loaded own).2
  stableId : ∀ id, steps.stableId id = answers.stableId id
  isCancelled : ∀ {state own}, seen state own → steps.isCancelled state = false

end Plain

/-! ## A wave by its answers -/

section Lists

variable {α β γ ε σ : Type}

theorem forEach_map (action : α → σ → β × σ) (change : β → γ) (items : List α) (state : σ) :
    forEach (fun item state => (change (action item state).1, (action item state).2)) items state =
      ((forEach action items state).1.map change, (forEach action items state).2) := by
  induction items generalizing state with
  | nil => rfl
  | cons item rest ih => rw [forEach_cons, ih, forEach_cons, List.map_cons]

theorem collect_map (change : α → β) (results : List (Except ε α)) :
    collect (results.map (Except.map change)) = (collect results).map (List.map change) := by
  induction results with
  | nil => rfl
  | cons result rest ih =>
      cases result with
      | ok value =>
          rw [List.map_cons, Except.map, collect, collect, ih]
          cases collect rest <;> rfl
      | error failure =>
          rw [List.map_cons, Except.map, collect, collect, ih]
          cases collect rest <;> rfl

end Lists

variable {σ τ : Type} {answers : Answers τ} {steps : Steps σ} {seen : σ → τ → Prop}

/-- All modules of a wave, examined in order. -/
def Answers.examined (answers : Answers τ) (wave : List Resolved) (own : τ) :
    Except (List (List Report)) (List (Module × List Resolved)) × τ :=
  let (results, own) := forEach answers.examine wave own
  (collect results, own)

theorem Answers.examined_eq (answers : Answers τ) (wave : List Resolved) (own : τ) :
    answers.examined wave own =
      ((collect (forEach answers.scanned wave own).1).map
          (List.map fun module => (module, answers.targets module)),
        (forEach answers.scanned wave own).2) := by
  have hmap : forEach answers.examine wave own = _ := forEach_map answers.scanned
    (Except.map fun module => (module, answers.targets module)) wave own
  rw [examined, hmap, ← collect_map]

namespace Answers.Given

variable {state : σ} {own : τ}

theorem loadWave (h : answers.Given steps seen) (wave : List Resolved) (hseen : seen state own) :
    ∃ last, Loader.loadWave steps wave state =
      some (.ok (wave.map fun resolved => (resolved.id, answers.load resolved)), last) ∧
        seen last own := by
  have hall : ∃ last, forEach? (loadOne steps) wave state =
      some ((wave.map fun resolved => (resolved.id, answers.load resolved)).map .ok, last) ∧
        seen last own := by
    induction wave generalizing state with
    | nil => exact ⟨state, rfl, hseen⟩
    | cons resolved rest ih =>
        obtain ⟨next, hload, hnext⟩ := h.load resolved hseen
        obtain ⟨last, hrest, hlast⟩ := ih hnext
        refine ⟨last, ?_, hlast⟩
        rw [forEach?, loadOne, hload, Option.map_some]
        dsimp only
        rw [hrest]
        rfl
  obtain ⟨last, hall, hlast⟩ := hall
  refine ⟨last, ?_, hlast⟩
  rw [Loader.loadWave, hall, Option.map_some]
  dsimp only
  rw [concludeWave, h.isCancelled hlast, collect_map_ok]
  rfl

theorem scanOne (h : answers.Given steps seen) (resolved : Resolved) (hseen : seen state own) :
    (Loader.scanOne steps (resolved.id, answers.load resolved) state).1 =
        (answers.scanned resolved own).1 ∧
      seen (Loader.scanOne steps (resolved.id, answers.load resolved) state).2
        (answers.scanned resolved own).2 := by
  obtain ⟨hresult, hnext⟩ := h.scan resolved.id (answers.load resolved) hseen
  refine ⟨?_, hnext⟩
  change Except.map _ _ = Except.map _ _
  rw [hresult, h.stableId]

theorem scanWave (h : answers.Given steps seen) (wave : List Resolved) (hseen : seen state own) :
    (Loader.scanWave steps (wave.map fun resolved => (resolved.id, answers.load resolved)) state).1 =
        (collect (forEach answers.scanned wave own).1).mapError (.reports ∘ List.flatten) ∧
      seen (Loader.scanWave steps (wave.map fun resolved => (resolved.id, answers.load resolved))
        state).2 (forEach answers.scanned wave own).2 := by
  have hall : (forEach (Loader.scanOne steps)
        (wave.map fun resolved => (resolved.id, answers.load resolved)) state).1 =
          (forEach answers.scanned wave own).1 ∧
      seen (forEach (Loader.scanOne steps)
        (wave.map fun resolved => (resolved.id, answers.load resolved)) state).2
          (forEach answers.scanned wave own).2 := by
    induction wave generalizing state own with
    | nil => exact ⟨rfl, hseen⟩
    | cons resolved rest ih =>
        obtain ⟨hresult, hnext⟩ := h.scanOne resolved hseen
        obtain ⟨hresults, hlast⟩ := ih hnext
        rw [List.map_cons, forEach_cons, forEach_cons, hresult, hresults]
        exact ⟨rfl, hlast⟩
  obtain ⟨hresults, hlast⟩ := hall
  rw [scanWave_snd]
  refine ⟨?_, hlast⟩
  rw [Loader.scanWave]
  generalize forEach (Loader.scanOne steps) _ state = done at hresults
  obtain ⟨results, last⟩ := done
  cases hresults
  dsimp only
  cases collect (forEach answers.scanned wave own).1 <;> rfl

theorem resolveOne (h : answers.Given steps seen) (module : Module) (hseen : seen state own) :
    (Loader.resolveOne steps module state).1 = .ok (module, answers.targets module) ∧
      seen (Loader.resolveOne steps module state).2 own := by
  have hall : ∀ (records : List Scan.ImportRecord) {state}, seen state own →
      (forEach (resolveRecord steps module.id) records state).1 =
          (records.map fun record =>
            answers.resolve (some module.id) record.specifier record.form).map .ok ∧
        seen (forEach (resolveRecord steps module.id) records state).2 own := by
    intro records
    induction records with
    | nil => exact fun hseen => ⟨rfl, hseen⟩
    | cons record rest ih =>
        intro state hseen
        obtain ⟨hresult, hnext⟩ :=
          h.resolve (some module.id) record.specifier record.form hseen
        obtain ⟨hresults, hlast⟩ := ih hnext
        refine ⟨?_, hlast⟩
        exact congrArg₂ List.cons hresult hresults
  obtain ⟨hresults, hlast⟩ := hall module.content.records hseen
  exact ⟨resolveOne_of_ok hresults, hlast⟩

theorem resolveWave (h : answers.Given steps seen) (modules : List Module)
    (hseen : seen state own) :
    (Loader.resolveWave steps modules state).1 =
        .ok (modules.map fun module => (module, answers.targets module)) ∧
      seen (Loader.resolveWave steps modules state).2 own := by
  have hall : (forEach (Loader.resolveOne steps) modules state).1 =
        (modules.map fun module => (module, answers.targets module)).map .ok ∧
      seen (forEach (Loader.resolveOne steps) modules state).2 own := by
    induction modules generalizing state with
    | nil => exact ⟨rfl, hseen⟩
    | cons module rest ih =>
        obtain ⟨hresult, hnext⟩ := h.resolveOne module hseen
        obtain ⟨hresults, hlast⟩ := ih hnext
        exact ⟨congrArg₂ List.cons hresult hresults, hlast⟩
  obtain ⟨hresults, hlast⟩ := hall
  rw [resolveWave_snd]
  refine ⟨?_, hlast⟩
  have hcancelled := h.isCancelled hlast
  rw [Loader.resolveWave]
  generalize forEach (Loader.resolveOne steps) modules state = done at hresults hcancelled
  obtain ⟨results, last⟩ := done
  cases hresults
  simp only [hcancelled, Bool.false_eq_true, if_false, collect_map_ok]

/-- A wave numbers the imports of its modules, unless one of them cannot be scanned. -/
theorem runWave (h : answers.Given steps seen) (numbering : Numbering) (hseen : seen state own) :
    ∃ last, Loader.runWave steps numbering state =
        some (((answers.examined numbering.wave own).1.map fun items =>
          numberWave items { numbering with wave := [] }).mapError (.reports ∘ List.flatten), last) ∧
      seen last (answers.examined numbering.wave own).2 := by
  obtain ⟨loadedAt, hload, hloaded⟩ := h.loadWave numbering.wave hseen
  obtain ⟨hscan, hscanned⟩ := h.scanWave numbering.wave hloaded
  rw [runWave_eq, hload, answers.examined_eq]
  dsimp only
  generalize Loader.scanWave steps _ loadedAt = scanned at hscan hscanned
  obtain ⟨result, scannedAt⟩ := scanned
  dsimp only at hscan hscanned
  subst hscan
  cases collect (forEach answers.scanned numbering.wave own).1 with
  | error reports => exact ⟨scannedAt, rfl, hscanned⟩
  | ok modules =>
      obtain ⟨hresolve, hresolved⟩ := h.resolveWave modules hscanned
      dsimp only [Except.mapError]
      generalize Loader.resolveWave steps modules scannedAt = resolved at hresolve hresolved
      obtain ⟨result, resolvedAt⟩ := resolved
      dsimp only at hresolve
      subst hresolve
      exact ⟨resolvedAt, rfl, hresolved⟩

end Answers.Given

/-! ## A queue by its waves -/

/-- A numbering whose wave stands behind other modules. -/
def Numbering.behind (front : List Resolved) (numbering : Numbering) : Numbering :=
  { numbering with wave := front ++ numbering.wave }

theorem number_behind (front : List Resolved) (numbering : Numbering) (resolved : Resolved) :
    (numbering.behind front).number resolved =
      ((numbering.number resolved).1, (numbering.number resolved).2.behind front) := by
  by_cases hknown : numbering.known.contains resolved.id = true
  · rw [Numbering.number, Numbering.number, if_pos hknown]
    exact if_pos hknown
  · simp only [Numbering.number, Numbering.behind, if_neg hknown, List.append_assoc]

theorem numberAll_behind (front : List Resolved) (targets : List Resolved)
    (numbering : Numbering) :
    numberAll targets (numbering.behind front) =
      ((numberAll targets numbering).1, (numberAll targets numbering).2.behind front) := by
  induction targets generalizing numbering with
  | nil => rfl
  | cons target rest ih =>
      have hrest := ih (numbering.number target).2
      rw [numberAll] at hrest ⊢
      rw [forEach_cons, forEach_cons, number_behind, hrest]

/-- What stands in front of the new modules has no part in their numbers. -/
theorem numberOne_behind (front : List Resolved) (item : Module × List Resolved)
    (numbering : Numbering) :
    numberOne item (numbering.behind front) =
      ((numberOne item numbering).1, (numberOne item numbering).2.behind front) := by
  rw [numberOne, numberAll_behind]
  rfl

/-- The first of a queue has its place as its number, and without it the queue goes on there. -/
theorem Numbering.Consistent.pop {before : List ModuleId} {first : Resolved} {rest : List Resolved}
    {known : List ModuleId}
    (h : Numbering.Consistent before { known, wave := first :: rest }) :
    known.idxOf first.id = before.length ∧
      Numbering.Consistent (before ++ [first.id]) { known, wave := rest } := by
  have hknown : known = before ++ first.id :: rest.map Resolved.id := h.known_eq
  have hnodup : known.Nodup := h.nodup
  refine ⟨?_, ?_, hnodup⟩
  · rw [hknown] at hnodup ⊢
    have hnew : first.id ∉ before := fun hmem =>
      (List.nodup_append.mp hnodup).2.2 _ hmem _ List.mem_cons_self rfl
    rw [List.idxOf_append_of_notMem hnew, List.idxOf_cons_self, Nat.add_zero]
  · rw [List.append_assoc]
    exact hknown

namespace Answers

theorem examined_cons {first : Resolved} {own : τ} {item : Module × List Resolved}
    (hfirst : (answers.examine first own).1 = .ok item) (rest : List Resolved) :
    answers.examined (first :: rest) own =
      ((answers.examined rest (answers.examine first own).2).1.map (item :: ·),
        (answers.examined rest (answers.examine first own).2).2) := by
  rw [examined, forEach_cons, hfirst]
  rfl

theorem handle_cons (limit : Nat) (numbering : Numbering) {first : Resolved} {own : τ}
    {item : Module × List Resolved} (hfirst : (answers.examine first own).1 = .ok item)
    (rest : List Resolved) :
    answers.handle (limit + 1) (numbering.behind (first :: rest)) own =
      (answers.handle limit ((numberOne item numbering).2.behind rest)
          (answers.examine first own).2).map fun (result, last) =>
        (result.map ((numbering.known.idxOf first.id, (numberOne item numbering).1) :: ·), last) := by
  change answers.handle (limit + 1) { numbering with wave := first :: (rest ++ numbering.wave) } own
    = _
  have hnumber := numberOne_behind rest item numbering
  rw [Numbering.behind] at hnumber
  rw [handle]
  generalize answers.examine first own = examined at hfirst ⊢
  obtain ⟨result, next⟩ := examined
  dsimp only at hfirst
  subst hfirst
  dsimp only
  rw [hnumber]

theorem examined_of_error {first : Resolved} {own : τ} {reports : List Report}
    (hfirst : (answers.examine first own).1 = .error reports) (rest : List Resolved) :
    ∃ failures, (answers.examined (first :: rest) own).1 = .error failures := by
  rw [examined, forEach_cons, hfirst]
  dsimp only
  rw [collect]
  split <;> exact ⟨_, rfl⟩

/-- A queue handles the modules of a wave as the wave does.  Behind them it has the next wave. -/
theorem handle_wave {wave : List Resolved} {own : τ} {items : List (Module × List Resolved)}
    {numbering : Numbering} {before : List ModuleId}
    (hitems : (answers.examined wave own).1 = .ok items)
    (h : (numbering.behind wave).Consistent before) (limit : Nat) :
    answers.handle limit (numbering.behind wave) own =
      if wave.length ≤ limit then
        (answers.handle (limit - wave.length) (numberWave items numbering).2
            (answers.examined wave own).2).map fun (result, last) =>
          (result.map (indexed (numberWave items numbering).1 before.length ++ ·), last)
      else none := by
  induction wave generalizing items own numbering before limit with
  | nil =>
      cases hitems
      change answers.handle limit numbering own = (answers.handle limit numbering own).map _
      cases answers.handle limit numbering own with
      | none => rfl
      | some found =>
          obtain ⟨result, last⟩ := found
          cases result <;> rfl
  | cons first rest ih =>
      cases hfirst : (answers.examine first own).1 with
      | error reports =>
          obtain ⟨failures, hfailures⟩ := examined_of_error hfirst rest
          rw [hfailures] at hitems
          cases hitems
      | ok item =>
          rw [examined_cons hfirst] at hitems ⊢
          cases hrest : (answers.examined rest (answers.examine first own).2).1 with
          | error failures =>
              rw [hrest] at hitems
              cases hitems
          | ok later =>
              rw [hrest] at hitems
              cases hitems
              obtain ⟨hplace, hpop⟩ := Numbering.Consistent.pop h
              have hnext : ((numberOne item numbering).2.behind rest).Consistent
                  (before ++ [first.id]) := by
                have hall := consistent_numberAll hpop item.2
                have hbehind := congrArg Prod.snd (numberAll_behind rest item.2 numbering)
                dsimp only at hbehind
                exact hbehind ▸ hall
              cases limit with
              | zero => rfl
              | succ limit =>
                  have hlength : (first :: rest).length ≤ limit + 1 ↔ rest.length ≤ limit :=
                    Nat.succ_le_succ_iff
                  rw [handle_cons limit numbering hfirst, ih hrest hnext, List.length_append,
                    List.length_singleton, numberWave, forEach_cons]
                  simp only [hlength]
                  split
                  · rw [List.length_cons, Nat.add_sub_add_right, Option.map_map]
                    refine congrArg (Option.map · _) (funext fun found => ?_)
                    obtain ⟨result, last⟩ := found
                    cases result with
                    | error reports => rfl
                    | ok modules =>
                        have hnumber : numbering.known.idxOf first.id = before.length := hplace
                        simp only [Function.comp, hnumber]
                        rfl
                  · rfl

/-- A queue stops at the first module of a wave that cannot be scanned. -/
theorem handle_wave_of_error {wave : List Resolved} {own : τ} {failures : List (List Report)}
    (hfailures : (answers.examined wave own).1 = .error failures) (numbering : Numbering) :
    ∃ count reports last, ∀ limit, answers.handle limit (numbering.behind wave) own =
      if count < limit then some (.error reports, last) else none := by
  induction wave generalizing own failures numbering with
  | nil => cases hfailures
  | cons first rest ih =>
      cases hfirst : (answers.examine first own).1 with
      | error reports =>
          refine ⟨0, reports, (answers.examine first own).2, fun limit => ?_⟩
          cases limit with
          | zero => rfl
          | succ limit =>
              change answers.handle (limit + 1)
                { numbering with wave := first :: (rest ++ numbering.wave) } own = _
              rw [handle, if_pos (Nat.succ_pos limit)]
              generalize answers.examine first own = examined at hfirst ⊢
              obtain ⟨result, next⟩ := examined
              dsimp only at hfirst
              subst hfirst
              rfl
      | ok item =>
          rw [examined_cons hfirst] at hfailures
          cases hrest : (answers.examined rest (answers.examine first own).2).1 with
          | ok later =>
              rw [hrest] at hfailures
              cases hfailures
          | error failures =>
              obtain ⟨count, reports, last, hhandle⟩ := ih hrest (numberOne item numbering).2
              refine ⟨count + 1, reports, last, fun limit => ?_⟩
              cases limit with
              | zero => rfl
              | succ limit =>
                  rw [handle_cons limit numbering hfirst, hhandle]
                  simp only [Nat.add_lt_add_iff_right]
                  split <;> rfl

end Answers

/-! ## Both searches -/

/-- A search by waves and one by a queue come to the same, or both to some error. -/
inductive Agree {α β : Type} (same : α → β → Prop) :
    Except LoadFailure α → Except (List Report) β → Prop
  | ok {value other} (hsame : same value other) : Agree same (.ok value) (.ok other)
  | error (failure reports) : Agree same (.error failure) (.error reports)

/-- Modules, and the same ones under their numbers from some number on. -/
def NumberedFrom (first : Nat) (modules : List Module) (numbered : List (Nat × Module)) : Prop :=
  numbered = indexed modules first

theorem Agree.after {first : Nat} {result : Except LoadFailure (List Module)}
    {found : Except (List Report) (List (Nat × Module))} (modules : List Module)
    (h : Agree (NumberedFrom (first + modules.length)) result found) :
    Agree (NumberedFrom first) (result.map (modules ++ ·))
      (found.map (indexed modules first ++ ·)) := by
  cases h with
  | ok hsame =>
      refine .ok ?_
      rw [NumberedFrom, indexed_append, hsame]
  | error failure reports => exact .error failure reports

namespace Answers.Given

variable {numbering : Numbering} {before : List ModuleId} {state : σ} {own : τ}

theorem behind_taken (numbering : Numbering) :
    { numbering with wave := [] }.behind numbering.wave = numbering := by
  rw [Numbering.behind, List.append_nil]

/-- If a wave is followed by another one, then so it is in the queue. -/
theorem handle_of_wave (h : answers.Given steps seen) (hseen : seen state own)
    (hconsistent : numbering.Consistent before) {modules : List Module} {next : Numbering}
    {reached : σ} (hwave : Loader.runWave steps numbering state = some (.ok (modules, next), reached)) :
    ∃ own', seen reached own' ∧ ∀ limit, answers.handle limit numbering own =
      if numbering.wave.length ≤ limit then
        (answers.handle (limit - numbering.wave.length) next own').map fun (result, last) =>
          (result.map (indexed modules before.length ++ ·), last)
      else none := by
  obtain ⟨last, hrun, hlast⟩ := h.runWave numbering hseen
  rw [hwave] at hrun
  cases hitems : (answers.examined numbering.wave own).1 with
  | error failures =>
      rw [hitems] at hrun
      cases hrun
  | ok items =>
      rw [hitems] at hrun
      simp only [Except.map, Except.mapError, Option.some.injEq, Prod.mk.injEq,
        Except.ok.injEq] at hrun
      obtain ⟨hnumber, rfl⟩ := hrun
      refine ⟨_, hlast, fun limit => ?_⟩
      have hhandle := handle_wave hitems (behind_taken numbering ▸ hconsistent) limit
      rwa [behind_taken, ← hnumber] at hhandle

/-- If a wave fails, then so does the queue. -/
theorem handle_of_failure (h : answers.Given steps seen) (hseen : seen state own)
    {failure : LoadFailure} {last : σ}
    (hwave : Loader.runWave steps numbering state = some (.error failure, last)) :
    ∃ count reports final, ∀ limit, answers.handle limit numbering own =
      if count < limit then some (.error reports, final) else none := by
  obtain ⟨reached, hrun, _⟩ := h.runWave numbering hseen
  rw [hwave] at hrun
  cases hitems : (answers.examined numbering.wave own).1 with
  | ok items =>
      rw [hitems] at hrun
      cases hrun
  | error failures =>
      have hhandle := handle_wave_of_error hitems { numbering with wave := [] }
      rwa [behind_taken] at hhandle

theorem handle_of_isEmpty (hempty : numbering.wave.isEmpty = true) (limit : Nat) (own : τ) :
    answers.handle limit numbering own = some (.ok [], own) := by
  obtain ⟨known, wave⟩ := numbering
  cases List.isEmpty_iff.mp hempty
  rw [handle]

/-- If a search ends, then so does the queue. -/
theorem handle_of_runs (h : answers.Given steps seen) {limit : Nat} {last : σ}
    {result : Except LoadFailure (List Module)}
    (hruns : Runs steps limit numbering state result last) (hseen : seen state own)
    (hconsistent : numbering.Consistent before) :
    ∃ limit found final, answers.handle limit numbering own = some (found, final) ∧
      Agree (NumberedFrom before.length) result found := by
  induction hruns generalizing own before with
  | finished hempty => exact ⟨0, _, own, handle_of_isEmpty hempty 0 own, .ok rfl⟩
  | @failed _ _ _ failure _ _ hwave =>
      obtain ⟨count, reports, final, hhandle⟩ := h.handle_of_failure hseen hwave
      exact ⟨count + 1, .error reports, final, by rw [hhandle, if_pos (Nat.lt_succ_self count)],
        .error failure reports⟩
  | @followed _ numbering _ modules _ _ _ _ _ hwave _ ih =>
      obtain ⟨done⟩ := runWave_eq_ok hwave
      obtain ⟨own', hseen', hhandle⟩ := h.handle_of_wave hseen hconsistent hwave
      obtain ⟨limit, found, final, hrest, hagree⟩ := ih hseen' (done.consistent hconsistent)
      rw [hconsistent.length_eq, ← done.length_eq] at hagree
      refine ⟨limit + numbering.wave.length, _, final, ?_, hagree.after modules⟩
      rw [hhandle, if_pos (Nat.le_add_left _ _), Nat.add_sub_cancel, hrest, Option.map_some]

/-- If the queue ends, then so does a search. -/
theorem runWaves_of_handle (h : answers.Given steps seen) {limit : Nat} {final : τ}
    {found : Except (List Report) (List (Nat × Module))}
    (hhandle : answers.handle limit numbering own = some (found, final)) (hseen : seen state own)
    (hconsistent : numbering.Consistent before) :
    ∃ limit result last, runWaves steps limit numbering state = some (result, last) ∧
      Agree (NumberedFrom before.length) result found := by
  induction limit using Nat.strong_induction_on generalizing numbering state own before found with
  | _ limit ih =>
      by_cases hempty : numbering.wave.isEmpty = true
      · rw [handle_of_isEmpty hempty] at hhandle
        cases hhandle
        exact ⟨0, _, state, runWaves_of_isEmpty 0 state hempty, .ok rfl⟩
      · obtain ⟨reached, hwave, _⟩ := h.runWave numbering hseen
        generalize Except.mapError _ _ = answer at hwave
        cases answer with
        | error failure =>
            obtain ⟨count, reports, last, hfails⟩ := h.handle_of_failure hseen hwave
            rw [hfails] at hhandle
            split at hhandle
            · cases hhandle
              refine ⟨1, _, reached, ?_, .error failure reports⟩
              rw [runWaves_succ 0 state hempty, hwave]
            · cases hhandle
        | ok answer =>
            obtain ⟨modules, next⟩ := answer
            obtain ⟨done⟩ := runWave_eq_ok hwave
            obtain ⟨own', hseen', hfollows⟩ := h.handle_of_wave hseen hconsistent hwave
            rw [hfollows] at hhandle
            split at hhandle
            · rename_i hlength
              obtain ⟨⟨later, end'⟩, hrest, heq⟩ := Option.map_eq_some_iff.mp hhandle
              cases heq
              have hless : limit - numbering.wave.length < limit := by
                have := List.length_pos_iff.mpr fun hnil => hempty (List.isEmpty_iff.mpr hnil)
                omega
              obtain ⟨depth, result, last, hruns, hagree⟩ :=
                ih _ hless hrest hseen' (done.consistent hconsistent)
              rw [hconsistent.length_eq, ← done.length_eq] at hagree
              refine ⟨depth + 1, result.map (modules ++ ·), last, ?_, hagree.after modules⟩
              rw [runWaves_succ depth state hempty, hwave]
              dsimp only
              rw [hruns]
              cases result <;> rfl
            · cases hhandle

theorem queue_of_fetch (h : answers.Given steps seen) (hseen : seen state own) {limit : Nat}
    {entries : List (Option String × Resolved)} {result : Except LoadFailure Fetched} {last : σ}
    (hfetch : Loader.fetch steps limit entries state = some (result, last)) :
    ∃ limit found final, answers.fetch limit entries own = some (found, final) ∧
      Agree Eq result found := by
  have hconsistent := consistent_numberAll .empty (entries.map Prod.snd)
  rw [fetch_eq_search, search] at hfetch
  generalize hnumbered : numberAll (entries.map Prod.snd) {} = numbered at hfetch hconsistent
  obtain ⟨numbers, numbering⟩ := numbered
  dsimp only at hfetch hconsistent
  cases hrun : runWaves steps limit numbering state with
  | none => simp [hrun] at hfetch
  | some given =>
      obtain ⟨answer, final⟩ := given
      obtain ⟨more, found, end', hhandle, hagree⟩ :=
        h.handle_of_runs (runs_of_runWaves hrun) hseen hconsistent
      refine ⟨more, _, end', by rw [Answers.fetch, hnumbered]; dsimp only; rw [hhandle]; rfl, ?_⟩
      cases hagree with
      | ok hsame =>
          cases hsame
          rw [hrun] at hfetch
          cases hfetch
          exact .ok rfl
      | error failure reports =>
          rw [hrun] at hfetch
          cases hfetch
          exact .error failure reports

theorem fetch_of_queue (h : answers.Given steps seen) (hseen : seen state own) {limit : Nat}
    {entries : List (Option String × Resolved)} {found : Except (List Report) Fetched} {final : τ}
    (hqueue : answers.fetch limit entries own = some (found, final)) :
    ∃ limit result last, Loader.fetch steps limit entries state = some (result, last) ∧
      Agree Eq result found := by
  have hconsistent := consistent_numberAll .empty (entries.map Prod.snd)
  rw [Answers.fetch] at hqueue
  generalize hnumbered : numberAll (entries.map Prod.snd) {} = numbered at hqueue hconsistent
  obtain ⟨numbers, numbering⟩ := numbered
  dsimp only at hqueue hconsistent
  obtain ⟨⟨answer, own'⟩, hhandle, heq⟩ := Option.map_eq_some_iff.mp hqueue
  obtain ⟨depth, result, last, hrun, hagree⟩ := h.runWaves_of_handle hhandle hseen hconsistent
  cases hagree with
  | ok hsame =>
      cases hsame
      cases heq
      refine ⟨depth, _, last, ?_, .ok rfl⟩
      rw [fetch_eq_search, search, hnumbered]
      dsimp only
      rw [hrun]
      rfl
  | error failure reports =>
      cases heq
      refine ⟨depth, _, last, ?_, .error failure reports⟩
      rw [fetch_eq_search, search, hnumbered]
      dsimp only
      rw [hrun]
      rfl

end Answers.Given

/-- The graph of the modules that were found. -/
def Fetched.graph (fetched : Fetched) : Graph :=
  { modules := fetched.modules.map Prod.snd, entries := fetched.entries }

/-- The numbers that a search gives are those of a graph in layers. -/
theorem fetch_layered {limit : Nat} {entries : List (Option String × Resolved)} {state last : σ}
    {fetched : Fetched} (hfetch : fetch steps limit entries state = some (.ok fetched, last)) :
    fetched.graph.Layered ∧
      ∀ numbered ∈ fetched.modules, numbered.1 < fetched.graph.modules.length := by
  have hload : load steps limit entries state = some (.ok fetched.graph, last) := by
    rw [load, hfetch]
    rfl
  refine ⟨load_layered hload, fun numbered hnumbered => ?_⟩
  rw [fetch_eq_search, Option.map_eq_some_iff] at hfetch
  obtain ⟨⟨result, reached⟩, _, heq⟩ := hfetch
  cases result with
  | error failure => cases heq
  | ok graph =>
      cases heq
      have hnumber := List.mem_map_of_mem (f := Prod.fst) hnumbered
      rw [indexed_map_fst, List.mem_range'_1] at hnumber
      rw [Fetched.graph, List.length_map, indexed_length]
      omega

/-- If where a request leads and what is loaded depends on nothing else and nothing of this fails,
then a search by waves finds a module under a number exactly if the plain search does that takes
one module after the other off a queue, and the one comes to an error exactly if the other does.
A module with a smaller number is at most as far from the entries. -/
theorem waves_eq_queue {answers : Answers τ} {steps : Steps σ} {seen : σ → τ → Prop}
    (h : answers.Given steps seen) {state : σ} {own : τ} (hseen : seen state own)
    (entries : List (Option String × Resolved)) :
    (∀ fetched, (∃ limit last, fetch steps limit entries state = some (.ok fetched, last)) ↔
      ∃ limit last, answers.fetch limit entries own = some (.ok fetched, last)) ∧
    ((∃ limit failure last, fetch steps limit entries state = some (.error failure, last)) ↔
      ∃ limit reports last, answers.fetch limit entries own = some (.error reports, last)) ∧
    ∀ limit fetched last, fetch steps limit entries state = some (.ok fetched, last) →
      ∀ near ∈ fetched.modules, ∀ far ∈ fetched.modules, near.1 ≤ far.1 →
        fetched.graph.Away (fetched.graph.distance near.1) near.1 ∧
          fetched.graph.distance near.1 ≤ fetched.graph.distance far.1 := by
  refine ⟨fun fetched => ⟨?_, ?_⟩, ⟨?_, ?_⟩, ?_⟩
  · rintro ⟨limit, last, hfetch⟩
    obtain ⟨limit, found, final, hqueue, hagree⟩ := h.queue_of_fetch hseen hfetch
    cases hagree with
    | ok hsame => exact ⟨limit, final, hsame ▸ hqueue⟩
  · rintro ⟨limit, last, hqueue⟩
    obtain ⟨limit, result, last, hfetch, hagree⟩ := h.fetch_of_queue hseen hqueue
    cases hagree with
    | ok hsame => exact ⟨limit, last, hsame ▸ hfetch⟩
  · rintro ⟨limit, failure, last, hfetch⟩
    obtain ⟨limit, found, final, hqueue, hagree⟩ := h.queue_of_fetch hseen hfetch
    cases hagree with
    | error _ reports => exact ⟨limit, reports, final, hqueue⟩
  · rintro ⟨limit, reports, last, hqueue⟩
    obtain ⟨limit, result, last, hfetch, hagree⟩ := h.fetch_of_queue hseen hqueue
    cases hagree with
    | error failure _ => exact ⟨limit, failure, last, hfetch⟩
  · intro limit fetched last hfetch near _ far hfar hle
    obtain ⟨hlayered, hnumbers⟩ := fetch_layered hfetch
    exact hlayered.distance_mono hle (hnumbers far hfar)

/-- What the parts of `crossing` answer. -/
def crossingAnswers : Answers Unit where
  resolve _ specifier _ := { id := ⟨specifier⟩ }
  load resolved := if resolved.id.text = "/c.wasm" then .bytes .wasm ⟨#[]⟩ else .text .script ""
  scan := crossing.scan
  stableId id := id.text

theorem given_crossing : crossingAnswers.Given crossing Eq where
  resolve _ _ _ _ _ _ := ⟨rfl, rfl⟩
  load _ state _ _ := ⟨state, rfl, rfl⟩
  scan _ _ _ _ _ := ⟨rfl, rfl⟩
  stableId _ := rfl
  isCancelled _ := rfl

theorem waves_eq_queue_crossing :
    ∃ fetched, crossingAnswers.fetch 3 crossingEntries () = some (.ok fetched, ()) ∧
      fetched.modules.map (fun numbered => (numbered.1, numbered.2.id, numbered.2.dependencies)) =
        [(0, ⟨"/a.js"⟩, [1, 0, 1, 2]), (1, ⟨"/b.js"⟩, [0]), (2, ⟨"/c.wasm"⟩, [])] ∧
      (∃ limit last, fetch crossing limit crossingEntries () = some (.ok fetched, last)) ∧
      fetched.graph.distance 0 ≤ fetched.graph.distance 2 := by
  obtain ⟨hfound, _, hdistance⟩ :=
    waves_eq_queue given_crossing (rfl : () = ()) crossingEntries
  have hqueue : ∃ fetched, crossingAnswers.fetch 3 crossingEntries () = some (.ok fetched, ()) ∧
      fetched.modules.map (fun numbered => (numbered.1, numbered.2.id, numbered.2.dependencies)) =
        [(0, ⟨"/a.js"⟩, [1, 0, 1, 2]), (1, ⟨"/b.js"⟩, [0]), (2, ⟨"/c.wasm"⟩, [])] :=
    ⟨_, rfl, rfl⟩
  obtain ⟨fetched, hfetched, hmodules⟩ := hqueue
  obtain ⟨limit, last, hfetch⟩ := (hfound fetched).mpr ⟨3, (), hfetched⟩
  refine ⟨fetched, hfetched, hmodules, ⟨limit, last, hfetch⟩, ?_⟩
  have hnumber : ∀ number ∈ [0, 2], ∃ numbered ∈ fetched.modules, numbered.1 = number := by
    intro number hnumber
    have hnumbers := congrArg (List.map Prod.fst) hmodules
    rw [List.map_map] at hnumbers
    refine List.mem_map.mp (?_ : number ∈ fetched.modules.map (Prod.fst ∘ fun numbered =>
      (numbered.1, numbered.2.id, numbered.2.dependencies)))
    rw [hnumbers]
    decide +revert
  obtain ⟨near, hnear, hfirst⟩ := hnumber 0 (by decide)
  obtain ⟨far, hfar, hlast⟩ := hnumber 2 (by decide)
  rw [← hfirst, ← hlast]
  exact (hdistance limit fetched last hfetch near hnear far hfar (by omega)).2

end WebBundle.Loader
