import WebBundle.Proofs.Search.Slots

/-!
# Simulation of searches

One search simulates another if its parts do the same to related states.  The
load and scan parts need to do so only where the first search comes to them, so
what is known of those visits may be used.  Whatever the first search finds, the
second one finds under at least the same limit, and the two traces correspond.
-/

namespace WebBundle.Loader

section Lists

variable {α β σ τ : Type} {related : σ → τ → Prop} {allowed : α × σ → Prop}

theorem forEach_related (first : α → σ → β × σ) (second : α → τ → β × τ)
    (allowed : α × σ → Prop) (related : σ → τ → Prop)
    (hstep : ∀ item state other, allowed (item, state) → related state other →
      (first item state).1 = (second item other).1 ∧
        related (first item state).2 (second item other).2)
    (items : List α) (state : σ) (other : τ)
    (hallowed : ∀ visit ∈ visits first items state, allowed visit)
    (hrelated : related state other) :
    (forEach first items state).1 = (forEach second items other).1 ∧
      related (forEach first items state).2 (forEach second items other).2 ∧
      List.Forall₂ (SameVisit related) (visits first items state)
        (visits second items other) := by
  induction items generalizing state other with
  | nil => exact ⟨rfl, hrelated, .nil⟩
  | cons item rest ih =>
      rw [visits, List.forall_mem_cons] at hallowed
      obtain ⟨hvalue, hnext⟩ := hstep item state other hallowed.1 hrelated
      obtain ⟨hvalues, hlast, hvisits⟩ := ih _ _ hallowed.2 hnext
      refine ⟨?_, hlast, .cons ⟨rfl, hrelated⟩ hvisits⟩
      change _ :: _ = _ :: _
      rw [hvalue, hvalues]

theorem MatchesPrefix.nil {γ δ : Type} {matching : γ → δ → Prop} (second : List δ) :
    MatchesPrefix matching [] second :=
  ⟨[], List.nil_prefix, .nil⟩

theorem MatchesPrefix.cons {γ δ : Type} {matching : γ → δ → Prop} {head : γ} {other : δ}
    {first : List γ} {second : List δ} (hhead : matching head other)
    (htail : MatchesPrefix matching first second) :
    MatchesPrefix matching (head :: first) (other :: second) := by
  obtain ⟨covered, hbegins, hmatch⟩ := htail
  exact ⟨other :: covered, (List.prefix_cons_inj other).mpr hbegins, .cons hhead hmatch⟩

theorem MatchesPrefix.of_forall₂ {γ δ : Type} {matching : γ → δ → Prop} {first : List γ}
    {second : List δ} (hmatch : List.Forall₂ matching first second) :
    MatchesPrefix matching first second :=
  ⟨second, List.prefix_rfl, hmatch⟩

theorem MatchesPrefix.extend {γ δ : Type} {matching : γ → δ → Prop} {first : List γ}
    {second : List δ} (hmatch : MatchesPrefix matching first second) (more : List δ) :
    MatchesPrefix matching first (second ++ more) := by
  obtain ⟨covered, hbegins, hcovered⟩ := hmatch
  exact ⟨covered, hbegins.trans (List.prefix_append second more), hcovered⟩

theorem MatchesPrefix.append {γ δ : Type} {matching : γ → δ → Prop} {first after : List γ}
    {second last : List δ} (hfirst : List.Forall₂ matching first second)
    (hafter : MatchesPrefix matching after last) :
    MatchesPrefix matching (first ++ after) (second ++ last) := by
  obtain ⟨covered, hbegins, hcovered⟩ := hafter
  exact ⟨second ++ covered, (List.prefix_append_right_inj second).mpr hbegins,
    List.rel_append hfirst hcovered⟩

/-- The hypothesis of the lemmas on `forEach?`: what the first action gives, the
second one gives too. -/
def Follows (allowed : α × σ → Prop) (related : σ → τ → Prop)
    (first : α → σ → Option (β × σ)) (second : α → τ → Option (β × τ)) : Prop :=
  ∀ item state other result next, allowed (item, state) → related state other →
    first item state = some (result, next) →
      ∃ last, second item other = some (result, last) ∧ related next last

theorem visits?_matches {first : α → σ → Option (β × σ)} {second : α → τ → Option (β × τ)}
    (hstep : Follows allowed related first second)
    (items : List α) (state : σ) (other : τ)
    (hallowed : ∀ visit ∈ visits? first items state, allowed visit)
    (hrelated : related state other) :
    MatchesPrefix (SameVisit related) (visits? first items state)
      (visits? second items other) := by
  induction items generalizing state other with
  | nil => exact .nil _
  | cons item rest ih =>
      rw [visits?, List.forall_mem_cons] at hallowed
      rw [visits?, visits?]
      refine .cons ⟨rfl, hrelated⟩ ?_
      cases hfirst : first item state with
      | none => exact .nil _
      | some given =>
          obtain ⟨result, next⟩ := given
          obtain ⟨last, hsecond, hnext⟩ :=
            hstep item state other result next hallowed.1 hrelated hfirst
          rw [hsecond]
          refine ih next last ?_ hnext
          simpa only [hfirst] using hallowed.2

theorem forEach?_related {first : α → σ → Option (β × σ)} {second : α → τ → Option (β × τ)}
    (hstep : Follows allowed related first second)
    (items : List α) (state : σ) (other : τ) {results : List β} {next : σ}
    (hallowed : ∀ visit ∈ visits? first items state, allowed visit)
    (hrelated : related state other)
    (hfirst : forEach? first items state = some (results, next)) :
    ∃ last, forEach? second items other = some (results, last) ∧ related next last ∧
      List.Forall₂ (SameVisit related) (visits? first items state)
        (visits? second items other) := by
  induction items generalizing state other results next with
  | nil =>
      cases hfirst
      exact ⟨other, rfl, hrelated, .nil⟩
  | cons item rest ih =>
      rw [visits?, List.forall_mem_cons] at hallowed
      rw [forEach?] at hfirst
      cases hitem : first item state with
      | none => simp [hitem] at hfirst
      | some given =>
          obtain ⟨result, middle⟩ := given
          obtain ⟨last, hsecond, hmiddle⟩ :=
            hstep item state other result middle hallowed.1 hrelated hitem
          cases hrest : forEach? first rest middle with
          | none => simp [hitem, hrest] at hfirst
          | some later =>
              obtain ⟨found, final⟩ := later
              simp only [hitem, hrest, Option.some.injEq, Prod.mk.injEq] at hfirst
              obtain ⟨rfl, rfl⟩ := hfirst
              have hvisits : ∀ visit ∈ visits? first rest middle, allowed visit := by
                simpa only [hitem] using hallowed.2
              obtain ⟨reached, hlater, hfinal, hmatch⟩ := ih middle last hvisits hmiddle hrest
              refine ⟨reached, ?_, hfinal, ?_⟩
              · simp only [forEach?, hsecond, hlater]
              · simp only [visits?, hitem, hsecond]
                exact .cons ⟨rfl, hrelated⟩ hmatch

end Lists

section Waves

variable {σ τ : Type} {first : Steps σ} {second : Steps τ} {related : σ → τ → Prop}
variable {loadable : Resolved × σ → Prop} {scannable : (ModuleId × Loaded) × σ → Prop}

/-- The parts of two searches do the same to related states; `loadable` and
`scannable` say where loading and scanning do. -/
structure Simulates (first : Steps σ) (second : Steps τ) (related : σ → τ → Prop)
    (loadable : Resolved × σ → Prop) (scannable : (ModuleId × Loaded) × σ → Prop) : Prop where
  resolve : ∀ importer specifier form {state other}, related state other →
    (first.resolve importer specifier form state).1 =
        (second.resolve importer specifier form other).1 ∧
      related (first.resolve importer specifier form state).2
        (second.resolve importer specifier form other).2
  load : Follows loadable related first.load second.load
  scan : ∀ id loaded {state other}, scannable ((id, loaded), state) → related state other →
    (first.scan id loaded state).1 = (second.scan id loaded other).1 ∧
      related (first.scan id loaded state).2 (second.scan id loaded other).2
  stableId : ∀ id, first.stableId id = second.stableId id
  isCancelled : ∀ {state other}, related state other →
    first.isCancelled state = second.isCancelled other

namespace Simulates

theorem loadOne (hsim : Simulates first second related loadable scannable) :
    Follows loadable related (loadOne first) (loadOne second) := by
  intro resolved state other result next hallowed hrelated hfirst
  rw [Loader.loadOne, Option.map_eq_some_iff] at hfirst
  obtain ⟨⟨answer, reached⟩, hload, heq⟩ := hfirst
  obtain ⟨last, hsecond, hnext⟩ :=
    hsim.load resolved state other answer reached hallowed hrelated hload
  cases heq
  exact ⟨last, by rw [Loader.loadOne, hsecond]; rfl, hnext⟩

theorem concludeWave {α : Type} (hsim : Simulates first second related loadable scannable)
    (results : List (Except Report α)) {state : σ} {other : τ} (hrelated : related state other) :
    concludeWave first results state = concludeWave second results other := by
  rw [Loader.concludeWave, Loader.concludeWave, hsim.isCancelled hrelated]

theorem loadWave (hsim : Simulates first second related loadable scannable)
    {wave : List Resolved} {state : σ} {other : τ}
    {result : Except LoadFailure (List (ModuleId × Loaded))} {next : σ}
    (hloadable : ∀ visit ∈ visits? (Loader.loadOne first) wave state, loadable visit)
    (hrelated : related state other)
    (hfirst : loadWave first wave state = some (result, next)) :
    ∃ last, loadWave second wave other = some (result, last) ∧ related next last ∧
      List.Forall₂ (SameVisit related) (visits? (Loader.loadOne first) wave state)
        (visits? (Loader.loadOne second) wave other) := by
  rw [Loader.loadWave, Option.map_eq_some_iff] at hfirst
  obtain ⟨⟨results, reached⟩, hresults, heq⟩ := hfirst
  obtain ⟨last, hsecond, hnext, hvisits⟩ :=
    forEach?_related hsim.loadOne wave state other hloadable hrelated hresults
  cases heq
  refine ⟨last, ?_, hnext, hvisits⟩
  rw [Loader.loadWave, hsecond, Option.map_some, hsim.concludeWave results hnext]

theorem scanOne (hsim : Simulates first second related loadable scannable)
    (item : ModuleId × Loaded) (state : σ) (other : τ) (hallowed : scannable (item, state))
    (hrelated : related state other) :
    (scanOne first item state).1 = (scanOne second item other).1 ∧
      related (scanOne first item state).2 (scanOne second item other).2 := by
  obtain ⟨id, loaded⟩ := item
  obtain ⟨hvalue, hnext⟩ := hsim.scan id loaded hallowed hrelated
  refine ⟨?_, hnext⟩
  simp only [Loader.scanOne, hvalue, hsim.stableId]

theorem scanWave (hsim : Simulates first second related loadable scannable)
    (loaded : List (ModuleId × Loaded)) {state : σ} {other : τ}
    (hscannable : ∀ visit ∈ visits (Loader.scanOne first) loaded state, scannable visit)
    (hrelated : related state other) :
    (scanWave first loaded state).1 = (scanWave second loaded other).1 ∧
      related (scanWave first loaded state).2 (scanWave second loaded other).2 ∧
      List.Forall₂ (SameVisit related) (visits (Loader.scanOne first) loaded state)
        (visits (Loader.scanOne second) loaded other) := by
  obtain ⟨hvalues, hnext, hvisits⟩ :=
    forEach_related _ _ _ related hsim.scanOne loaded state other hscannable hrelated
  rw [Loader.scanWave, Loader.scanWave]
  generalize forEach (Loader.scanOne first) loaded state = done at hvalues hnext ⊢
  generalize forEach (Loader.scanOne second) loaded other = redone at hvalues hnext ⊢
  obtain ⟨results, next⟩ := done
  obtain ⟨_, last⟩ := redone
  cases hvalues
  cases hcollect : collect results with
  | ok modules => simp [hcollect, hnext, hvisits]
  | error reports => simp [hcollect, hnext, hvisits]

theorem resolveOne (hsim : Simulates first second related loadable scannable)
    (module : Module) (state : σ) (other : τ) (hrelated : related state other) :
    (resolveOne first module state).1 = (resolveOne second module other).1 ∧
      related (resolveOne first module state).2 (resolveOne second module other).2 := by
  obtain ⟨hvalues, hnext, _⟩ := forEach_related (resolveRecord first module.id)
    (resolveRecord second module.id) (fun _ => True) related
    (fun record _ _ _ h => hsim.resolve (some module.id) record.specifier record.form h)
    module.content.records state other (fun _ _ => trivial) hrelated
  refine ⟨?_, hnext⟩
  change (collect _).map _ = (collect _).map _
  rw [hvalues]

theorem resolveWave (hsim : Simulates first second related loadable scannable)
    (modules : List Module) {state : σ} {other : τ} (hrelated : related state other) :
    (resolveWave first modules state).1 = (resolveWave second modules other).1 ∧
      related (resolveWave first modules state).2 (resolveWave second modules other).2 := by
  obtain ⟨hvalues, hnext, _⟩ := forEach_related (Loader.resolveOne first)
    (Loader.resolveOne second) (fun _ => True) related
    (fun module state other _ h => hsim.resolveOne module state other h)
    modules state other (fun _ _ => trivial) hrelated
  rw [Loader.resolveWave, Loader.resolveWave]
  generalize forEach (Loader.resolveOne first) modules state = done at hvalues hnext ⊢
  generalize forEach (Loader.resolveOne second) modules other = redone at hvalues hnext ⊢
  obtain ⟨results, next⟩ := done
  obtain ⟨_, last⟩ := redone
  cases hvalues
  have hcancelled := hsim.isCancelled hnext
  cases hstopped : second.isCancelled last with
  | true => simp [hcancelled, hstopped, hnext]
  | false =>
      cases hcollect : collect results with
      | ok resolved => simp [hcancelled, hstopped, hcollect, hnext]
      | error reports => simp [hcancelled, hstopped, hcollect, hnext]

/-- What a wave of the first search gives, the same wave of the second one gives,
and they load and scan the same modules. -/
theorem runWave (hsim : Simulates first second related loadable scannable)
    {numbering : Numbering} {state next : σ} {other : τ}
    {result : Except LoadFailure (List Module × Numbering)}
    (hloadable : ∀ visit ∈ waveLoads first (numbering, state), loadable visit)
    (hscannable : ∀ visit ∈ waveScans first (numbering, state), scannable visit)
    (hrelated : related state other)
    (hfirst : runWave first numbering state = some (result, next)) :
    ∃ last, runWave second numbering other = some (result, last) ∧ related next last ∧
      List.Forall₂ (SameVisit related) (waveLoads first (numbering, state))
        (waveLoads second (numbering, other)) ∧
      List.Forall₂ (SameVisit related) (waveScans first (numbering, state))
        (waveScans second (numbering, other)) := by
  rw [Loader.runWave_eq] at hfirst
  cases hload : Loader.loadWave first numbering.wave state with
  | none => simp [hload] at hfirst
  | some given =>
      obtain ⟨answer, loadedAt⟩ := given
      obtain ⟨otherLoaded, hsecond, hloaded, hloads⟩ := hsim.loadWave hloadable hrelated hload
      cases answer with
      | error failure =>
          simp only [hload, Option.some.injEq, Prod.mk.injEq] at hfirst
          obtain ⟨rfl, rfl⟩ := hfirst
          refine ⟨otherLoaded, by simp only [Loader.runWave_eq, hsecond], hloaded, hloads, ?_⟩
          simp [waveScans, hload, hsecond]
      | ok loaded =>
          have hvisits : ∀ visit ∈ visits (Loader.scanOne first) loaded loadedAt,
              scannable visit := by
            simpa only [waveScans, hload] using hscannable
          obtain ⟨hscanned, hscan, hscans⟩ := hsim.scanWave loaded hvisits hloaded
          have htrace : List.Forall₂ (SameVisit related) (waveScans first (numbering, state))
              (waveScans second (numbering, other)) := by
            simpa only [waveScans, hload, hsecond] using hscans
          simp only [Loader.runWave_eq, hload, hsecond] at hfirst ⊢
          generalize Loader.scanWave first loaded loadedAt = done at hscanned hscan hfirst
          generalize Loader.scanWave second loaded otherLoaded = redone at hscanned hscan ⊢
          obtain ⟨scanned, scannedAt⟩ := done
          obtain ⟨_, otherScanned⟩ := redone
          cases hscanned
          cases scanned with
          | error failure =>
              simp only [Option.some.injEq, Prod.mk.injEq] at hfirst
              obtain ⟨rfl, rfl⟩ := hfirst
              exact ⟨otherScanned, rfl, hscan, hloads, htrace⟩
          | ok modules =>
              obtain ⟨hresolved, hresolve⟩ := hsim.resolveWave modules hscan
              simp only at hfirst ⊢
              generalize Loader.resolveWave first modules scannedAt = done
                at hresolved hresolve hfirst
              generalize Loader.resolveWave second modules otherScanned = redone
                at hresolved hresolve ⊢
              obtain ⟨resolved, resolvedAt⟩ := done
              obtain ⟨_, otherResolved⟩ := redone
              cases hresolved
              cases resolved with
              | error failure =>
                  simp only [Option.some.injEq, Prod.mk.injEq] at hfirst
                  obtain ⟨rfl, rfl⟩ := hfirst
                  exact ⟨otherResolved, rfl, hresolve, hloads, htrace⟩
              | ok targets =>
                  simp only [Option.some.injEq, Prod.mk.injEq] at hfirst
                  obtain ⟨rfl, rfl⟩ := hfirst
                  exact ⟨otherResolved, rfl, hresolve, hloads, htrace⟩

/-- The beginning of a wave corresponds, also when it gives nothing. -/
theorem waveLoads_matches (hsim : Simulates first second related loadable scannable)
    {numbering : Numbering} {state : σ} {other : τ}
    (hloadable : ∀ visit ∈ waveLoads first (numbering, state), loadable visit)
    (hrelated : related state other) :
    MatchesPrefix (SameVisit related) (waveLoads first (numbering, state))
      (waveLoads second (numbering, other)) :=
  visits?_matches hsim.loadOne numbering.wave state other hloadable hrelated

end Simulates

/-- Two lists of waves correspond, with what is loaded and scanned in them. -/
structure Corresponds (first : Steps σ) (second : Steps τ) (related : σ → τ → Prop)
    (before : List (Numbering × σ)) (after : List (Numbering × τ)) : Prop where
  waves : List.Forall₂ (SameVisit related) before after
  loads : List.Forall₂ (SameVisit related) (before.flatMap (waveLoads first))
    (after.flatMap (waveLoads second))
  scans : List.Forall₂ (SameVisit related) (before.flatMap (waveScans first))
    (after.flatMap (waveScans second))

/-- A list of waves corresponds to the beginning of another one, with what is loaded
and scanned in them. -/
structure Begins (first : Steps σ) (second : Steps τ) (related : σ → τ → Prop)
    (before : List (Numbering × σ)) (after : List (Numbering × τ)) : Prop where
  waves : MatchesPrefix (SameVisit related) before after
  loads : MatchesPrefix (SameVisit related) (before.flatMap (waveLoads first))
    (after.flatMap (waveLoads second))
  scans : MatchesPrefix (SameVisit related) (before.flatMap (waveScans first))
    (after.flatMap (waveScans second))

theorem Corresponds.begins {before : List (Numbering × σ)} {after : List (Numbering × τ)}
    (hcorresponds : Corresponds first second related before after) :
    Begins first second related before after :=
  ⟨.of_forall₂ hcorresponds.waves, .of_forall₂ hcorresponds.loads,
    .of_forall₂ hcorresponds.scans⟩

theorem Begins.nil (after : List (Numbering × τ)) : Begins first second related [] after :=
  ⟨.nil _, .nil _, .nil _⟩

/-- The hypothesis on the traces from a wave on. -/
structure Allows (first : Steps σ) (loadable : Resolved × σ → Prop)
    (scannable : (ModuleId × Loaded) × σ → Prop) (trace : List (Numbering × σ)) : Prop where
  loads : ∀ visit ∈ trace.flatMap (waveLoads first), loadable visit
  scans : ∀ visit ∈ trace.flatMap (waveScans first), scannable visit

/-- Nothing is asked of the traces. -/
theorem Allows.always (trace : List (Numbering × σ)) :
    Allows first (fun _ => True) (fun _ => True) trace :=
  ⟨fun _ _ => trivial, fun _ _ => trivial⟩

/-- What the trace itself lists is allowed. -/
theorem Allows.self (trace : List (Numbering × σ)) :
    Allows first (· ∈ trace.flatMap (waveLoads first)) (· ∈ trace.flatMap (waveScans first))
      trace :=
  ⟨fun _ hvisit => hvisit, fun _ hvisit => hvisit⟩

theorem Allows.head {wave : Numbering × σ} {trace : List (Numbering × σ)}
    (hallows : Allows first loadable scannable (wave :: trace)) :
    (∀ visit ∈ waveLoads first wave, loadable visit) ∧
      ∀ visit ∈ waveScans first wave, scannable visit :=
  ⟨fun visit hvisit => hallows.loads visit (List.mem_append_left _ hvisit),
    fun visit hvisit => hallows.scans visit (List.mem_append_left _ hvisit)⟩

theorem Allows.tail {wave : Numbering × σ} {trace : List (Numbering × σ)}
    (hallows : Allows first loadable scannable (wave :: trace)) :
    Allows first loadable scannable trace :=
  ⟨fun visit hvisit => hallows.loads visit (List.mem_append_right _ hvisit),
    fun visit hvisit => hallows.scans visit (List.mem_append_right _ hvisit)⟩

namespace Simulates

/-- Also a search that gives nothing corresponds to the beginning of the other one. -/
theorem waves_begin (hsim : Simulates first second related loadable scannable)
    {limit more : Nat} (hlimit : limit ≤ more) (numbering : Numbering) (state : σ) (other : τ)
    (hallows : Allows first loadable scannable (waves first limit numbering state))
    (hrelated : related state other) :
    Begins first second related (waves first limit numbering state)
      (waves second more numbering other) := by
  induction limit generalizing more numbering state other with
  | zero =>
      by_cases hempty : numbering.wave.isEmpty = true
      · rw [waves_of_isEmpty 0 state hempty]
        exact .nil _
      · rw [waves_zero state hempty]
        exact .nil _
  | succ limit ih =>
      by_cases hempty : numbering.wave.isEmpty = true
      · rw [waves_of_isEmpty _ state hempty]
        exact .nil _
      · obtain ⟨more, rfl⟩ : ∃ rest, more = rest + 1 := ⟨more - 1, by omega⟩
        rw [waves_succ limit state hempty] at hallows ⊢
        rw [waves_succ more other hempty]
        have hwave := hallows.head
        cases hrun : Loader.runWave first numbering state with
        | none =>
            refine ⟨.cons ⟨rfl, hrelated⟩ (.nil _), ?_, ?_⟩
            · simpa using (hsim.waveLoads_matches hwave.1 hrelated).extend _
            · simpa [waveScans_of_runWave_eq_none hrun] using MatchesPrefix.nil _
        | some given =>
            obtain ⟨result, next⟩ := given
            obtain ⟨last, hsecond, hnext, hloads, hscans⟩ :=
              hsim.runWave hwave.1 hwave.2 hrelated hrun
            rw [hsecond]
            cases result with
            | error failure =>
                refine ⟨.cons ⟨rfl, hrelated⟩ (.nil _), ?_, ?_⟩
                · simpa using MatchesPrefix.of_forall₂ hloads
                · simpa using MatchesPrefix.of_forall₂ hscans
            | ok found =>
                obtain ⟨modules, after⟩ := found
                have hrest := ih (Nat.le_of_succ_le_succ hlimit) after next last
                  (by simpa only [hrun] using hallows.tail) hnext
                exact ⟨.cons ⟨rfl, hrelated⟩ hrest.waves, .append hloads hrest.loads,
                  .append hscans hrest.scans⟩

/-- What a search finds from a wave on, the other one finds too. -/
theorem runWaves (hsim : Simulates first second related loadable scannable)
    {limit more : Nat} (hlimit : limit ≤ more) (numbering : Numbering) (state : σ) (other : τ)
    (hallows : Allows first loadable scannable (waves first limit numbering state))
    (hrelated : related state other) {result : Except LoadFailure (List Module)} {next : σ}
    (hfirst : runWaves first limit numbering state = some (result, next)) :
    ∃ last, runWaves second more numbering other = some (result, last) ∧ related next last ∧
      Corresponds first second related (waves first limit numbering state)
        (waves second more numbering other) := by
  induction limit generalizing more numbering state other result next with
  | zero =>
      by_cases hempty : numbering.wave.isEmpty = true
      · rw [runWaves_of_isEmpty 0 state hempty] at hfirst
        cases hfirst
        rw [runWaves_of_isEmpty more other hempty, waves_of_isEmpty 0 state hempty,
          waves_of_isEmpty more other hempty]
        exact ⟨other, rfl, hrelated, .nil, .nil, .nil⟩
      · rw [runWaves_zero state hempty] at hfirst
        cases hfirst
  | succ limit ih =>
      by_cases hempty : numbering.wave.isEmpty = true
      · rw [runWaves_of_isEmpty _ state hempty] at hfirst
        cases hfirst
        rw [runWaves_of_isEmpty more other hempty, waves_of_isEmpty _ state hempty,
          waves_of_isEmpty more other hempty]
        exact ⟨other, rfl, hrelated, .nil, .nil, .nil⟩
      · obtain ⟨more, rfl⟩ : ∃ rest, more = rest + 1 := ⟨more - 1, by omega⟩
        rw [waves_succ limit state hempty] at hallows ⊢
        rw [waves_succ more other hempty, runWaves_succ more other hempty]
        rw [runWaves_succ limit state hempty] at hfirst
        have hwave := hallows.head
        cases hrun : Loader.runWave first numbering state with
        | none => simp [hrun] at hfirst
        | some given =>
            obtain ⟨answer, middle⟩ := given
            obtain ⟨reached, hsecond, hmiddle, hloads, hscans⟩ :=
              hsim.runWave hwave.1 hwave.2 hrelated hrun
            rw [hsecond]
            cases answer with
            | error failure =>
                simp only [hrun, Option.some.injEq, Prod.mk.injEq] at hfirst
                obtain ⟨rfl, rfl⟩ := hfirst
                refine ⟨reached, rfl, hmiddle, .cons ⟨rfl, hrelated⟩ .nil, ?_, ?_⟩
                · simpa using hloads
                · simpa using hscans
            | ok found =>
                obtain ⟨modules, after⟩ := found
                simp only [hrun] at hfirst hallows ⊢
                cases hrest : Loader.runWaves first limit after middle with
                | none => simp [hrest] at hfirst
                | some later =>
                    obtain ⟨answer, final⟩ := later
                    obtain ⟨last, hagain, hfinal, htrace⟩ :=
                      ih (Nat.le_of_succ_le_succ hlimit) after middle reached hallows.tail
                        hmiddle hrest
                    rw [hagain]
                    have hcorresponds : Corresponds first second related _ _ := .mk
                      (.cons ⟨rfl, hrelated⟩ htrace.waves)
                      (List.rel_append hloads htrace.loads)
                      (List.rel_append hscans htrace.scans)
                    cases answer with
                    | error failure =>
                        simp only [hrest, Option.some.injEq, Prod.mk.injEq] at hfirst
                        obtain ⟨rfl, rfl⟩ := hfirst
                        exact ⟨last, rfl, hfinal, hcorresponds⟩
                    | ok modules =>
                        simp only [hrest, Option.some.injEq, Prod.mk.injEq] at hfirst
                        obtain ⟨rfl, rfl⟩ := hfirst
                        exact ⟨last, rfl, hfinal, hcorresponds⟩

/-- What a search finds, the other one finds too, and their traces correspond. -/
theorem load_corresponds (hsim : Simulates first second related loadable scannable)
    {limit more : Nat} (hlimit : limit ≤ more) (entries : List (Option String × Resolved))
    (state : σ) (other : τ)
    (hallows : Allows first loadable scannable (wavesOf first limit entries state))
    (hrelated : related state other) {result : Except LoadFailure Graph} {next : σ}
    (hfirst : Loader.load first limit entries state = some (result, next)) :
    ∃ last, Loader.load second more entries other = some (result, last) ∧ related next last ∧
      Corresponds first second related (wavesOf first limit entries state)
        (wavesOf second more entries other) := by
  rw [load_eq_search, search] at hfirst
  rw [load_eq_search, search]
  dsimp only at hfirst ⊢
  cases hrun : Loader.runWaves first limit (numberAll (entries.map Prod.snd) {}).2 state with
  | none => simp [hrun] at hfirst
  | some given =>
      obtain ⟨answer, reached⟩ := given
      obtain ⟨last, hsecond, hnext, htrace⟩ :=
        hsim.runWaves hlimit _ state other hallows hrelated hrun
      rw [hsecond]
      cases answer with
      | error failure =>
          simp only [hrun, Option.some.injEq, Prod.mk.injEq] at hfirst
          obtain ⟨rfl, rfl⟩ := hfirst
          exact ⟨last, rfl, hnext, htrace⟩
      | ok modules =>
          simp only [hrun, Option.some.injEq, Prod.mk.injEq] at hfirst
          obtain ⟨rfl, rfl⟩ := hfirst
          exact ⟨last, rfl, hnext, htrace⟩

end Simulates

end Waves

end WebBundle.Loader
