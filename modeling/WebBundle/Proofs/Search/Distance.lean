import Mathlib.Order.Lattice.Nat
import WebBundle.Proofs.Search.Termination

/-!
# How far modules are from the entries

A wave holds the modules that are one import further from the entries than those of the wave
before it.  Numbers are given wave by wave, so the modules within any distance are those below
some number, and no module has a smaller number than one that is nearer.
-/

namespace WebBundle

namespace Graph

/-- A module is reached from an entry in some number of imports. -/
inductive Away (graph : Graph) : (far number : Nat) → Prop
  | entry {name number} (hentry : (name, number) ∈ graph.entries) : graph.Away 0 number
  | imported {far importer number} (himporter : graph.Away far importer)
      (hnumber : number ∈ graph.dependenciesOf importer) : graph.Away (far + 1) number

/-- The least number of imports by which a module is reached. -/
noncomputable def distance (graph : Graph) (number : Nat) : Nat :=
  sInf {far | graph.Away far number}

/-- A module is reached in at most some number of imports. -/
def Within (graph : Graph) (far number : Nat) : Prop := ∃ steps ≤ far, graph.Away steps number

variable {graph : Graph} {far number : Nat}

theorem Within.mono {more : Nat} (hmore : far ≤ more) (h : graph.Within far number) :
    graph.Within more number := by
  obtain ⟨steps, hsteps, haway⟩ := h
  exact ⟨steps, hsteps.trans hmore, haway⟩

theorem within_zero : graph.Within 0 number ↔ ∃ name, (name, number) ∈ graph.entries := by
  constructor
  · rintro ⟨steps, hsteps, haway⟩
    cases haway with
    | entry hentry => exact ⟨_, hentry⟩
    | imported => omega
  · rintro ⟨name, hentry⟩
    exact ⟨0, le_rfl, .entry hentry⟩

theorem within_succ : graph.Within (far + 1) number ↔
    graph.Within far number ∨
      ∃ importer, graph.Within far importer ∧ number ∈ graph.dependenciesOf importer := by
  constructor
  · rintro ⟨steps, hsteps, haway⟩
    cases haway with
    | entry hentry => exact .inl ⟨0, Nat.zero_le far, .entry hentry⟩
    | imported himporter hnumber =>
        exact .inr ⟨_, ⟨_, Nat.le_of_succ_le_succ hsteps, himporter⟩, hnumber⟩
  · rintro (h | ⟨importer, ⟨steps, hsteps, haway⟩, hnumber⟩)
    · exact h.mono (Nat.le_succ far)
    · exact ⟨steps + 1, Nat.succ_le_succ hsteps, haway.imported hnumber⟩

theorem Within.away_distance (h : graph.Within far number) :
    graph.Away (graph.distance number) number := by
  obtain ⟨steps, _, haway⟩ := h
  exact Nat.sInf_mem (s := {far | graph.Away far number}) ⟨steps, haway⟩

theorem Within.distance_le (h : graph.Within far number) : graph.distance number ≤ far := by
  obtain ⟨steps, hsteps, haway⟩ := h
  exact (Nat.sInf_le (s := {far | graph.Away far number}) haway).trans hsteps

/-- The modules within any distance are those below some number, and every module is within some
distance. -/
structure Layered (graph : Graph) : Prop where
  below : ∀ far, ∃ bound, ∀ number, graph.Within far number ↔ number < bound
  reached : ∃ far, ∀ number, graph.Within far number ↔ number < graph.modules.length

/-- A module with a smaller number is not further away. -/
theorem Layered.distance_mono (h : graph.Layered) {first second : Nat} (hle : first ≤ second)
    (hsecond : second < graph.modules.length) :
    graph.Away (graph.distance first) first ∧ graph.distance first ≤ graph.distance second := by
  obtain ⟨far, hreached⟩ := h.reached
  have haway := ((hreached second).mpr hsecond).away_distance
  obtain ⟨bound, hbelow⟩ := h.below (graph.distance second)
  have hbound : second < bound := (hbelow second).mp ⟨_, le_rfl, haway⟩
  have hwithin : graph.Within (graph.distance second) first :=
    (hbelow first).mpr (lt_of_le_of_lt hle hbound)
  exact ⟨hwithin.away_distance, hwithin.distance_le⟩

/-- The modules in the middle of a graph are found under the numbers behind those before them. -/
theorem dependenciesOf_middle {before middle after : List Module}
    (hmodules : graph.modules = before ++ middle ++ after) {index : Nat} {module : Module}
    (hindex : middle[index]? = some module) :
    graph.dependenciesOf (before.length + index) = module.dependencies := by
  have hlength := (List.getElem?_eq_some_iff.mp hindex).1
  rw [dependenciesOf, hmodules, List.append_assoc,
    List.getElem?_append_right (Nat.le_add_right _ _), Nat.add_sub_cancel_left,
    List.getElem?_append_left hlength, hindex]

end Graph

namespace Loader

/-- A module that was numbered has its place as its number wherever it is a target. -/
theorem Numbers.place_mem {known : List ModuleId} {targets : List Resolved} {numbers : List Nat}
    (h : Numbers known targets numbers) (hnodup : known.Nodup) {target : Resolved}
    (htarget : target ∈ targets) {place : Nat} (hplace : known[place]? = some target.id) :
    place ∈ numbers := by
  induction h with
  | nil => cases htarget
  | @cons head number _ _ hhead _ ih =>
      rcases List.mem_cons.mp htarget with rfl | hrest
      · have hnumber : number = place := by
          refine (List.getElem?_inj (List.getElem?_eq_some_iff.mp hhead).1 hnodup).mp ?_
          rw [hhead, hplace]
        exact hnumber ▸ List.mem_cons_self
      · exact List.mem_cons_of_mem _ (ih hrest)

variable {σ : Type} {steps : Steps σ} {graph : Graph} {numbering next : Numbering}
  {before : List ModuleId} {earlier : List Module} {far : Nat}

/-- What the modules that have their dependencies import has a number. -/
def Closed (graph : Graph) (count : Nat) (known : List ModuleId) : Prop :=
  ∀ importer < count, ∀ number ∈ graph.dependenciesOf importer, number < known.length

theorem Numbering.Consistent.length_eq (h : numbering.Consistent before) :
    numbering.known.length = before.length + numbering.wave.length := by
  rw [h.known_eq, List.length_append, List.length_map]

namespace WaveDone

variable {state last : σ} {modules later : List Module}

theorem length_eq (done : WaveDone steps numbering state modules next last) :
    modules.length = numbering.wave.length := by
  have hids := congrArg List.length done.ids_eq
  rwa [List.length_map, List.length_map] at hids

/-- What a wave imports has a number when the wave is done. -/
theorem closed (done : WaveDone steps numbering state modules next last)
    (h : numbering.Consistent before) (hearlier : earlier.length = before.length)
    (hgraph : graph.modules = earlier ++ modules ++ later)
    (hclosed : Closed graph before.length numbering.known) :
    Closed graph numbering.known.length next.known := by
  have hnext := (done.consistent h).length_eq
  intro importer himporter number hnumber
  by_cases hearly : importer < before.length
  · have := hclosed importer hearly number hnumber
    omega
  · obtain ⟨index, rfl⟩ := Nat.exists_eq_add_of_le (Nat.le_of_not_lt hearly)
    have hindex : index < modules.length := by
      rw [done.length_eq]
      rw [h.length_eq] at himporter
      omega
    rw [← hearlier, Graph.dependenciesOf_middle hgraph (List.getElem?_eq_getElem hindex)]
      at hnumber
    obtain ⟨item, _, hmodule⟩ :=
      exists_left_of_forall₂ done.numbered (List.getElem_mem hindex)
    exact hmodule.numbers.lt hnumber

/-- Every module of the next wave is imported by this one. -/
theorem exists_importing (done : WaveDone steps numbering state modules next last)
    (h : numbering.Consistent before) (hearlier : earlier.length = before.length)
    (hgraph : graph.modules = earlier ++ modules ++ later) {number : Nat}
    (hnew : numbering.known.length ≤ number) (hnumber : number < next.known.length) :
    ∃ importer < numbering.known.length, number ∈ graph.dependenciesOf importer := by
  have hconsistent := done.consistent h
  obtain ⟨place, rfl⟩ := Nat.exists_eq_add_of_le hnew
  have hplace : place < next.wave.length := by
    rw [hconsistent.length_eq] at hnumber
    omega
  obtain ⟨item, hitem, htarget⟩ := done.exists_importer (List.getElem_mem hplace)
  obtain ⟨module, hmember, hmodule⟩ := exists_left_of_forall₂ done.numbered.flip hitem
  obtain ⟨index, hindex, rfl⟩ := List.mem_iff_getElem.mp hmember
  refine ⟨before.length + index, ?_, ?_⟩
  · rw [h.length_eq, ← done.length_eq]
    omega
  · rw [← hearlier, Graph.dependenciesOf_middle hgraph (List.getElem?_eq_getElem hindex)]
    refine hmodule.numbers.place_mem hconsistent.nodup htarget ?_
    rw [hconsistent.known_eq, List.getElem?_append_right (Nat.le_add_right _ _),
      Nat.add_sub_cancel_left, List.getElem?_map, List.getElem?_eq_getElem hplace, Option.map_some]

/-- If the modules that have a number are those within some distance, the next wave adds those
that are one import further away. -/
theorem within_succ (done : WaveDone steps numbering state modules next last)
    (h : numbering.Consistent before) (hearlier : earlier.length = before.length)
    (hgraph : graph.modules = earlier ++ modules ++ later)
    (hclosed : Closed graph before.length numbering.known)
    (hwithin : ∀ number, graph.Within far number ↔ number < numbering.known.length) (number : Nat) :
    graph.Within (far + 1) number ↔ number < next.known.length := by
  have hnext := (done.consistent h).length_eq
  rw [Graph.within_succ]
  constructor
  · rintro (hnumber | ⟨importer, himporter, hnumber⟩)
    · have := (hwithin number).mp hnumber
      omega
    · exact done.closed h hearlier hgraph hclosed importer ((hwithin importer).mp himporter) number
        hnumber
  · intro hnumber
    by_cases hold : number < numbering.known.length
    · exact .inl ((hwithin number).mpr hold)
    · obtain ⟨importer, himporter, himports⟩ :=
        done.exists_importing h hearlier hgraph (Nat.le_of_not_lt hold) hnumber
      exact .inr ⟨importer, (hwithin importer).mpr himporter, himports⟩

end WaveDone

/-- Nothing is further away than the modules whose imports are all among them. -/
theorem within_of_closed {known : List ModuleId} (hclosed : Closed graph known.length known)
    (hwithin : ∀ number, graph.Within far number ↔ number < known.length) {more : Nat}
    (hmore : far ≤ more) (number : Nat) : graph.Within more number ↔ number < known.length := by
  induction hmore generalizing number with
  | refl => exact hwithin number
  | step hmore ih =>
      rw [Graph.within_succ, ih]
      refine or_iff_left_of_imp ?_
      rintro ⟨importer, himporter, hnumber⟩
      exact hclosed importer ((ih importer).mp himporter) number hnumber

/-- From a wave on, the modules within any distance are those below some number. -/
theorem Runs.layers {limit : Nat} {state last : σ} {result : Except LoadFailure (List Module)}
    {modules : List Module} (hruns : Runs steps limit numbering state result last)
    (hresult : result = .ok modules) (h : numbering.Consistent before)
    (hearlier : earlier.length = before.length) (hgraph : graph.modules = earlier ++ modules)
    (hclosed : Closed graph before.length numbering.known)
    (hwithin : ∀ number, graph.Within far number ↔ number < numbering.known.length) :
    (∀ more, far ≤ more → ∃ bound, ∀ number, graph.Within more number ↔ number < bound) ∧
      ∃ more, ∀ number, graph.Within more number ↔ number < graph.modules.length := by
  induction hruns generalizing modules before earlier far with
  | @finished limit numbering state hempty =>
      cases hresult
      rw [h.known_of_isEmpty hempty] at hclosed hwithin
      rw [hgraph, List.append_nil, hearlier]
      exact ⟨fun more hmore => ⟨_, within_of_closed hclosed hwithin hmore⟩, far, hwithin⟩
  | failed => cases hresult
  | @followed limit numbering state first next reached result last hempty hwave _ ih =>
      cases result with
      | error failure => cases hresult
      | ok later =>
          cases hresult
          obtain ⟨done⟩ := runWave_eq_ok hwave
          rw [← List.append_assoc] at hgraph
          have hnext : (earlier ++ first).length = numbering.known.length := by
            rw [List.length_append, hearlier, done.length_eq, h.length_eq]
          obtain ⟨hbelow, hreached⟩ := ih rfl (done.consistent h) hnext hgraph
            (done.closed h hearlier hgraph hclosed)
            (done.within_succ h hearlier hgraph hclosed hwithin)
          refine ⟨fun more hmore => ?_, hreached⟩
          rcases Nat.eq_or_lt_of_le hmore with rfl | hless
          · exact ⟨_, hwithin⟩
          · exact hbelow more hless

/-- The entries are the modules of the first wave. -/
theorem within_zero_of_entries {entries : List (Option String × Resolved)} {numbers : List Nat}
    (hnumbers : Numbers numbering.known (entries.map Prod.snd) numbers)
    (h : numbering.Consistent [])
    (hwave : ∀ resolved ∈ numbering.wave, resolved ∈ entries.map Prod.snd)
    (hentries : graph.entries = (entries.map Prod.fst).zip numbers) (number : Nat) :
    graph.Within 0 number ↔ number < numbering.known.length := by
  have hlength : numbers.length = (entries.map Prod.fst).length := by
    rw [← hnumbers.length_eq, List.length_map, List.length_map]
  have hentry : (∃ name, (name, number) ∈ graph.entries) ↔ number ∈ numbers := by
    rw [hentries]
    constructor
    · rintro ⟨name, hname⟩
      exact (List.of_mem_zip hname).2
    · intro hnumber
      rw [← List.map_snd_zip (Nat.le_of_eq hlength)] at hnumber
      obtain ⟨⟨name, _⟩, hname, rfl⟩ := List.mem_map.mp hnumber
      exact ⟨name, hname⟩
  rw [Graph.within_zero, hentry]
  constructor
  · exact hnumbers.lt
  · intro hnumber
    have hknown := h.known_eq
    rw [List.nil_append] at hknown
    have hplace : number < numbering.wave.length := by
      rwa [hknown, List.length_map] at hnumber
    refine hnumbers.place_mem h.nodup (hwave _ (List.getElem_mem hplace)) ?_
    rw [hknown, List.getElem?_map, List.getElem?_eq_getElem hplace, Option.map_some]

/-- The graph that a search gives has its modules in layers. -/
theorem load_layered {limit : Nat} {entries : List (Option String × Resolved)} {state last : σ}
    (hload : Loader.load steps limit entries state = some (.ok graph, last)) : graph.Layered := by
  have hconsistent := consistent_numberAll .empty (entries.map Prod.snd)
  have hnumbers := numbers_numberAll (entries.map Prod.snd) {}
  have hwave : ∀ resolved ∈ (numberAll (entries.map Prod.snd) {}).2.wave,
      resolved ∈ entries.map Prod.snd := fun resolved hresolved =>
    (mem_wave_numberAll hresolved).resolve_left fun hnone => nomatch hnone
  rw [load_eq_search, search] at hload
  generalize numberAll (entries.map Prod.snd) {} = numbered at hload hconsistent hnumbers hwave
  obtain ⟨numbers, numbering⟩ := numbered
  dsimp only at hload hconsistent hnumbers hwave
  cases hrun : runWaves steps limit numbering state with
  | none => simp [hrun] at hload
  | some given =>
      obtain ⟨result, final⟩ := given
      cases result with
      | error failure => simp [hrun] at hload
      | ok modules =>
          simp only [hrun, Option.some.injEq, Prod.mk.injEq, Except.ok.injEq] at hload
          obtain ⟨hgraph, rfl⟩ := hload
          have hmodules : graph.modules = ([] : List Module) ++ modules := by rw [← hgraph]; rfl
          have hentries : graph.entries = (entries.map Prod.fst).zip numbers := by rw [← hgraph]
          obtain ⟨hbelow, hreached⟩ := (runs_of_runWaves hrun).layers rfl hconsistent rfl hmodules
            (fun importer himporter => absurd himporter (Nat.not_lt_zero _))
            (within_zero_of_entries hnumbers hconsistent hwave hentries)
          exact ⟨fun far => hbelow far (Nat.zero_le far), hreached⟩

end Loader

end WebBundle
