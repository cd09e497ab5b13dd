import Mathlib.Data.List.Zip
import WebBundle.Proofs.Search.Wave

/-!
# Slots

The slots of a search mirror its numbering: the map has the place of each module as its
number, and the slots that are filled come before those that are empty.  A wave fills the
slots of its modules and leaves empty ones for the next wave, so every slot is filled in
the end, and the module in a slot has the number of the slot.
-/

namespace WebBundle.Loader

/-- Items with their places, counted from a number. -/
def indexed {α : Type} (items : List α) (first : Nat) : List (Nat × α) :=
  (items.zipIdx first).map Prod.swap

theorem indexed_append {α : Type} (items more : List α) (first : Nat) :
    indexed (items ++ more) first = indexed items first ++ indexed more (first + items.length) := by
  rw [indexed, List.zipIdx_append, List.map_append]
  rfl

theorem indexed_length {α : Type} (items : List α) (first : Nat) :
    (indexed items first).length = items.length := by
  rw [indexed, List.length_map, List.length_zipIdx]

theorem indexed_map_fst {α : Type} (items : List α) (first : Nat) :
    (indexed items first).map Prod.fst = List.range' first items.length := by
  rw [indexed, List.map_map]
  exact List.zipIdx_map_snd first items

theorem indexed_map_snd {α : Type} (items : List α) (first : Nat) :
    (indexed items first).map Prod.snd = items := by
  rw [indexed, List.map_map]
  exact List.zipIdx_map_fst first items

/-- A numbering gets as many modules as its wave does. -/
def Grows (before after : Numbering) : Prop :=
  ∃ added, after.known.length = before.known.length + added ∧
    after.wave.length = before.wave.length + added

theorem Grows.refl (numbering : Numbering) : Grows numbering numbering := ⟨0, rfl, rfl⟩

theorem grows_number {start numbering : Numbering} (h : Grows start numbering)
    (resolved : Resolved) : Grows start (numbering.number resolved).2 := by
  obtain ⟨added, hknown, hwave⟩ := h
  rw [Numbering.number]
  split
  · exact ⟨added, hknown, hwave⟩
  · refine ⟨added + 1, ?_, ?_⟩
    · rw [List.length_append, hknown, List.length_singleton, Nat.add_assoc]
    · rw [List.length_append, hwave, List.length_singleton, Nat.add_assoc]

theorem grows_numberAll {start numbering : Numbering} (h : Grows start numbering)
    (targets : List Resolved) : Grows start (numberAll targets numbering).2 :=
  forEach_keeps (fun resolved (numbering : Numbering) => numbering.number resolved) (Grows start)
    (fun resolved _ h => grows_number h resolved) targets h

theorem grows_numberWave (items : List (Module × List Resolved)) (numbering : Numbering) :
    Grows numbering (numberWave items numbering).2 :=
  forEach_keeps numberOne (Grows numbering) (fun item _ h => grows_numberAll h item.2) items
    (.refl numbering)

/-- The slots of a search that has filled those of the first modules, as its numbering
has them. -/
structure Mirrors (done : List Module) (numbering : Numbering) (slots : Slots) : Prop where
  visited_eq : slots.visited = numbering.known.zipIdx
  modules_eq : slots.modules = (indexed done 0).map some ++
    List.replicate (numbering.known.length - done.length) none
  wave_eq : slots.wave = indexed numbering.wave (numbering.known.length - numbering.wave.length)
  done_le : done.length ≤ numbering.known.length
  wave_le : numbering.wave.length ≤ numbering.known.length

/-- The number of a known module is its place. -/
theorem lookup_zipIdx (known : List ModuleId) (id : ModuleId) (first : Nat) :
    (known.zipIdx first).lookup id =
      if id ∈ known then some (first + known.idxOf id) else none := by
  induction known generalizing first with
  | nil => rfl
  | cons head rest ih =>
      rw [List.zipIdx_cons, List.lookup_cons, ih]
      by_cases hhead : id = head
      · subst hhead
        rw [beq_self_eq_true, if_pos List.mem_cons_self, List.idxOf_cons_self]
        rfl
      · rw [beq_false_of_ne hhead, List.idxOf_cons_ne _ fun h => hhead h.symm]
        by_cases hrest : id ∈ rest
        · rw [if_pos hrest, if_pos (List.mem_cons_of_mem head hrest), Nat.succ_eq_add_one,
            Nat.add_assoc, Nat.add_comm 1]
        · rw [if_neg hrest, if_neg fun hid => hrest (List.mem_of_ne_of_mem hhead hid)]

namespace Mirrors

variable {done : List Module} {numbering : Numbering} {slots : Slots}

theorem empty : Mirrors [] {} {} := ⟨rfl, rfl, rfl, Nat.le_refl _, Nat.le_refl _⟩

theorem allocate (h : Mirrors done numbering slots) (resolved : Resolved) :
    (slots.allocate resolved).1 = (numbering.number resolved).1 ∧
      Mirrors done (numbering.number resolved).2 (slots.allocate resolved).2 := by
  have hlookup := lookup_zipIdx numbering.known resolved.id 0
  rw [← h.visited_eq] at hlookup
  by_cases hknown : resolved.id ∈ numbering.known
  · rw [if_pos hknown, Nat.zero_add] at hlookup
    simp only [Slots.allocate, hlookup, Numbering.number, List.contains_eq_mem, hknown,
      decide_true, if_true]
    exact ⟨trivial, h⟩
  · rw [if_neg hknown] at hlookup
    have hlength : slots.modules.length = numbering.known.length := by
      rw [h.modules_eq, List.length_append, List.length_map, indexed_length,
        List.length_replicate]
      have := h.done_le
      omega
    have hdone := h.done_le
    have hwave := h.wave_le
    simp only [Slots.allocate, hlookup, Numbering.number, List.contains_eq_mem, hknown,
      decide_false, Bool.false_eq_true, if_false, hlength]
    refine ⟨trivial, ?_, ?_, ?_, ?_, ?_⟩
    · rw [h.visited_eq, List.zipIdx_append, Nat.zero_add]
      rfl
    · have hmore : (numbering.known ++ [resolved.id]).length - done.length =
          numbering.known.length - done.length + 1 := by
        rw [List.length_append, List.length_singleton]
        omega
      rw [hmore, List.replicate_succ', ← List.append_assoc, ← h.modules_eq]
    · have hfirst : (numbering.known ++ [resolved.id]).length -
          (numbering.wave ++ [resolved]).length =
            numbering.known.length - numbering.wave.length := by
        rw [List.length_append, List.length_append, List.length_singleton, List.length_singleton]
        omega
      have hlast : numbering.known.length - numbering.wave.length + numbering.wave.length =
          numbering.known.length := by omega
      rw [hfirst, indexed_append, ← h.wave_eq, hlast]
      rfl
    · rw [List.length_append]
      omega
    · rw [List.length_append, List.length_append, List.length_singleton, List.length_singleton]
      omega

theorem allocateAll (h : Mirrors done numbering slots) (targets : List Resolved) :
    (allocateAll targets slots).1 = (numberAll targets numbering).1 ∧
      Mirrors done (numberAll targets numbering).2 (Loader.allocateAll targets slots).2 := by
  induction targets generalizing numbering slots with
  | nil => exact ⟨rfl, h⟩
  | cons target rest ih =>
      obtain ⟨hnumber, hnext⟩ := h.allocate target
      obtain ⟨hnumbers, hlast⟩ := ih hnext
      exact ⟨congrArg₂ List.cons hnumber hnumbers, hlast⟩

/-- The first empty slot is filled by the module that is numbered next. -/
theorem fill (h : Mirrors done numbering slots) (item : Module × List Resolved)
    (hempty : done.length < numbering.known.length) :
    Mirrors (done ++ [(numberOne item numbering).1]) (numberOne item numbering).2
      (slots.fill (done.length, item)) := by
  obtain ⟨module, targets⟩ := item
  obtain ⟨hnumbers, hnext⟩ := h.allocateAll targets
  obtain ⟨added, hmore, _⟩ := grows_numberAll (.refl numbering) targets
  simp only [Slots.fill, numberOne, hnumbers]
  refine ⟨hnext.visited_eq, ?_, hnext.wave_eq, ?_, hnext.wave_le⟩
  · obtain ⟨pending, hpending⟩ : ∃ pending,
        (numberAll targets numbering).2.known.length - done.length = pending + 1 :=
      ⟨(numberAll targets numbering).2.known.length - done.length - 1, by omega⟩
    have hrest : (numberAll targets numbering).2.known.length - (done.length + 1) = pending := by
      omega
    have hplace : ((indexed done 0).map some).length = done.length := by
      rw [List.length_map, indexed_length]
    rw [hnext.modules_eq, hpending, List.length_append, List.length_singleton, hrest,
      List.set_append_right _ _ (Nat.le_of_eq hplace), hplace, Nat.sub_self, List.replicate_succ,
      List.set_cons_zero, indexed_append, List.map_append, List.append_assoc, Nat.zero_add]
    rfl
  · rw [List.length_append, List.length_singleton]
    omega

/-- A wave fills the slots of its modules in order. -/
theorem fillAll (h : Mirrors done numbering slots) (items : List (Module × List Resolved))
    (hempty : done.length + items.length ≤ numbering.known.length) :
    Mirrors (done ++ (numberWave items numbering).1) (numberWave items numbering).2
      ((indexed items done.length).foldl Slots.fill slots) := by
  induction items generalizing done numbering slots with
  | nil =>
      change Mirrors (done ++ []) numbering slots
      rw [List.append_nil]
      exact h
  | cons item rest ih =>
      have hfill := h.fill item (by rw [List.length_cons] at hempty; omega)
      obtain ⟨added, hmore, _⟩ := grows_numberAll (.refl numbering) item.2
      have hrest := ih hfill (by
        rw [List.length_append, List.length_singleton]
        rw [List.length_cons] at hempty
        change _ ≤ (numberAll item.2 numbering).2.known.length
        omega)
      rw [List.append_assoc, List.length_append, List.length_singleton] at hrest
      exact hrest

end Mirrors

variable {σ : Type} {steps : Steps σ}

theorem forEach?_length {α β : Type} {action : α → σ → Option (β × σ)} {items : List α}
    {state last : σ} {results : List β}
    (hresults : forEach? action items state = some (results, last)) :
    results.length = items.length := by
  induction items generalizing state results with
  | nil =>
      cases hresults
      rfl
  | cons item rest ih =>
      rw [forEach?] at hresults
      cases hitem : action item state with
      | none => simp [hitem] at hresults
      | some given =>
          obtain ⟨result, next⟩ := given
          simp only [hitem] at hresults
          cases hrest : forEach? action rest next with
          | none => simp [hrest] at hresults
          | some later =>
              obtain ⟨found, final⟩ := later
              simp only [hrest, Option.some.injEq, Prod.mk.injEq] at hresults
              obtain ⟨rfl, rfl⟩ := hresults
              rw [List.length_cons, List.length_cons, ih hrest]

/-- A wave in which nothing fails loses no module. -/
theorem examineWave_length {wave : List Resolved} {state last : σ}
    {resolved : List (Module × List Resolved)}
    (hexamine : examineWave steps wave state = some (.ok resolved, last)) :
    resolved.length = wave.length := by
  rw [examineWave] at hexamine
  cases hload : loadWave steps wave state with
  | none => simp [hload] at hexamine
  | some given =>
      obtain ⟨result, loadedAt⟩ := given
      cases result with
      | error failure => simp [hload] at hexamine
      | ok loaded =>
          simp only [hload] at hexamine
          obtain ⟨results, hresults, hconclude⟩ := loadWave_eq hload
          obtain ⟨_, rfl⟩ := concludeWave_eq_ok hconclude.symm
          have hloaded := forEach?_length hresults
          cases hscan : scanWave steps loaded loadedAt with
          | mk result scannedAt =>
              rw [hscan] at hexamine
              cases result with
              | error failure => cases hexamine
              | ok modules =>
                  have hscanned := congrArg List.length (scanWave_eq_ok (congrArg Prod.fst hscan))
                  have hresolved := congrArg List.length
                    (resolveWave_eq_ok (congrArg Prod.fst (Option.some.inj hexamine)))
                  rw [forEach_length, List.length_map] at hscanned hresolved
                  rw [List.length_map] at hloaded
                  omega

theorem zip_indexed {α β : Type} {items : List α} {results : List β}
    (hlength : results.length = items.length) (first : Nat) :
    ((indexed items first).map Prod.fst).zip results = indexed results first := by
  rw [indexed_map_fst, ← hlength, indexed, List.zipIdx_eq_zip_range', List.zip_swap]

namespace Mirrors

variable {done : List Module} {numbering : Numbering} {slots : Slots}

/-- A wave that numbers its imports fills the slots of its modules. -/
theorem fillWave (h : Mirrors done numbering slots)
    (hwave : numbering.known.length = done.length + numbering.wave.length) {state last : σ}
    {modules : List Module} {next : Numbering}
    (hrun : runWave steps numbering state = some (.ok (modules, next), last)) :
    ∃ filled, Loader.fillWave steps slots state = some (.ok filled, last) ∧
      Mirrors (done ++ modules) next filled ∧
      next.known.length = (done ++ modules).length + next.wave.length := by
  rw [runWave, Option.map_eq_some_iff] at hrun
  obtain ⟨⟨result, reached⟩, hexamine, heq⟩ := hrun
  cases result with
  | error failure => cases heq
  | ok resolved =>
      have hlength := examineWave_length hexamine
      have hplace : numbering.known.length - numbering.wave.length = done.length := by omega
      have hnumbers : slots.wave = indexed numbering.wave done.length := by
        rw [h.wave_eq, hplace]
      have hstart : Mirrors done { numbering with wave := [] } { slots with wave := [] } :=
        ⟨h.visited_eq, h.modules_eq, rfl, h.done_le, Nat.zero_le _⟩
      have hfilled := hstart.fillAll resolved (by dsimp only; omega)
      obtain ⟨added, hknown, hadded⟩ :=
        grows_numberWave resolved { numbering with wave := [] }
      have hmodules : (numberWave resolved { numbering with wave := [] }).1.length =
          resolved.length := forEach_length numberOne resolved _
      simp only [Except.map, Prod.mk.injEq, Except.ok.injEq] at heq
      obtain ⟨hnumber, rfl⟩ := heq
      rw [hnumber] at hfilled hknown hadded hmodules
      refine ⟨_, ?_, hfilled, ?_⟩
      · rw [Loader.fillWave, hnumbers, indexed_map_snd, hexamine]
        dsimp only
        rw [zip_indexed hlength]
      · rw [List.length_append]
        dsimp only [List.length_nil] at hknown hadded hmodules
        omega

theorem fillWave_of_failure (h : Mirrors done numbering slots) {state last : σ}
    {failure : LoadFailure} (hrun : runWave steps numbering state = some (.error failure, last)) :
    Loader.fillWave steps slots state = some (.error failure, last) := by
  rw [runWave, Option.map_eq_some_iff] at hrun
  obtain ⟨⟨result, reached⟩, hexamine, heq⟩ := hrun
  cases result with
  | ok resolved => cases heq
  | error reason =>
      cases heq
      rw [Loader.fillWave, h.wave_eq, indexed_map_snd, hexamine]

theorem fillWave_of_nothing (h : Mirrors done numbering slots) {state : σ}
    (hrun : runWave steps numbering state = none) :
    Loader.fillWave steps slots state = none := by
  rw [runWave, Option.map_eq_none_iff] at hrun
  rw [Loader.fillWave, h.wave_eq, indexed_map_snd, hrun]

theorem wave_isEmpty (h : Mirrors done numbering slots) :
    slots.wave.isEmpty = numbering.wave.isEmpty := by
  rw [Bool.eq_iff_iff, List.isEmpty_iff, List.isEmpty_iff, ← List.length_eq_zero_iff,
    ← List.length_eq_zero_iff, h.wave_eq, indexed_length]

theorem modules_of_isEmpty (h : Mirrors done numbering slots)
    (hwave : numbering.known.length = done.length + numbering.wave.length)
    (hempty : numbering.wave.isEmpty = true) : slots.modules = (indexed done 0).map some := by
  rw [List.isEmpty_iff] at hempty
  rw [hempty, List.length_nil, Nat.add_zero] at hwave
  rw [h.modules_eq, hwave, Nat.sub_self, List.replicate_zero, List.append_nil]

/-- From a wave on, the slots are filled by the modules of the waves. -/
theorem fillWaves (h : Mirrors done numbering slots)
    (hwave : numbering.known.length = done.length + numbering.wave.length) (steps : Steps σ)
    (limit : Nat) (state : σ) :
    (Loader.fillWaves steps limit slots state).map
        (fun (result, last) => (result.map Slots.modules, last)) =
      (runWaves steps limit numbering state).map
        fun (result, last) => (result.map fun later => (indexed (done ++ later) 0).map some, last)
    := by
  induction limit generalizing done numbering slots state with
  | zero =>
      rw [Loader.fillWaves, runWaves, h.wave_isEmpty]
      split
      · rename_i hempty
        rw [Option.map_some, Option.map_some]
        simp only [Except.map, List.append_nil, h.modules_of_isEmpty hwave hempty]
      · rfl
  | succ limit ih =>
      rw [Loader.fillWaves, runWaves, h.wave_isEmpty]
      split
      · rename_i hempty
        rw [Option.map_some, Option.map_some]
        simp only [Except.map, List.append_nil, h.modules_of_isEmpty hwave hempty]
      · cases hrun : runWave steps numbering state with
        | none => rw [h.fillWave_of_nothing hrun]; rfl
        | some given =>
            obtain ⟨result, reached⟩ := given
            cases result with
            | error failure => rw [h.fillWave_of_failure hrun]; rfl
            | ok answer =>
                obtain ⟨modules, next⟩ := answer
                obtain ⟨filled, hfilled, hnext, hknown⟩ := h.fillWave hwave hrun
                rw [hfilled]
                dsimp only
                rw [ih hnext hknown reached]
                cases runWaves steps limit next reached with
                | none => rfl
                | some later =>
                    obtain ⟨result, last⟩ := later
                    cases result with
                    | error failure => rfl
                    | ok later => simp only [Option.map_some, Except.map, List.append_assoc]

end Mirrors

theorem mapM_map_some {α : Type} (items : List α) : (items.map some).mapM id = some items := by
  induction items with
  | nil => rfl
  | cons item rest ih => rw [List.map_cons, List.mapM_cons, ih]; rfl

/-- A search fills all slots, and the module in a slot has its number. -/
theorem fetch_eq_search (steps : Steps σ) (limit : Nat)
    (entries : List (Option String × Resolved)) (state : σ) :
    fetch steps limit entries state = (search steps limit entries state).map
      fun (result, last) => (result.map fun graph =>
        { modules := indexed graph.modules 0, entries := graph.entries }, last) := by
  obtain ⟨hnumbers, hstart⟩ := Mirrors.empty.allocateAll (entries.map Prod.snd)
  obtain ⟨added, hknown, hwave⟩ := grows_numberAll (.refl {}) (entries.map Prod.snd)
  have hall : (numberAll (entries.map Prod.snd) {}).2.known.length =
      ([] : List Module).length + (numberAll (entries.map Prod.snd) {}).2.wave.length := by
    rw [hknown, hwave]
    exact (Nat.zero_add _).symm
  have hfill := hstart.fillWaves hall steps limit state
  rw [fetch, search]
  generalize allocateAll (entries.map Prod.snd) {} = allocated at hnumbers hfill ⊢
  generalize numberAll (entries.map Prod.snd) {} = numbered at hnumbers hfill ⊢
  obtain ⟨numbers, slots⟩ := allocated
  obtain ⟨_, numbering⟩ := numbered
  cases hnumbers
  dsimp only at hfill ⊢
  cases hrun : runWaves steps limit numbering state with
  | none =>
      rw [hrun, Option.map_none, Option.map_eq_none_iff] at hfill
      rw [hfill]
      rfl
  | some given =>
      obtain ⟨result, last⟩ := given
      rw [hrun, Option.map_some, Option.map_eq_some_iff] at hfill
      obtain ⟨⟨answer, reached⟩, hanswer, heq⟩ := hfill
      rw [hanswer]
      cases answer with
      | error failure =>
          cases result with
          | ok modules => cases heq
          | error reason =>
              cases heq
              rfl
      | ok filled =>
          cases result with
          | error failure => cases heq
          | ok modules =>
              simp only [Except.map, Prod.mk.injEq, Except.ok.injEq, List.nil_append] at heq
              obtain ⟨hfilled, rfl⟩ := heq
              simp only [hfilled, mapM_map_some]
              rfl

/-- The graph of a search joins the modules of its waves. -/
theorem load_eq_search (steps : Steps σ) (limit : Nat)
    (entries : List (Option String × Resolved)) (state : σ) :
    load steps limit entries state = search steps limit entries state := by
  rw [load, fetch_eq_search, Option.map_map]
  cases search steps limit entries state with
  | none => rfl
  | some given =>
      obtain ⟨result, last⟩ := given
      cases result with
      | error failure => rfl
      | ok graph =>
          simp only [Option.map_some, Function.comp, Except.map, indexed_map_snd]

end WebBundle.Loader
