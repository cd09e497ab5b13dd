import WebBundle.Proofs.Search.Graph

/-!
# Leaving modules out of a numbering

Some modules are taken out of a search, with the imports that lead to them.  Those that are
kept are numbered in the same order as before, so the number of a module is how many kept
ones come before it.  If the modules that are taken out import nothing and the imports that
lead to them come last in each module, nothing else changes.
-/

namespace WebBundle.Loader

/-! ## Lists with items left out -/

/-- A list corresponds to another one from which some items are left out. -/
inductive Thins {α β : Type} (leaves : α → Prop) (matching : α → β → Prop) :
    List α → List β → Prop
  | nil : Thins leaves matching [] []
  | skip {head first second} (hhead : leaves head) (hrest : Thins leaves matching first second) :
      Thins leaves matching (head :: first) second
  | cons {head other first second} (hhead : matching head other)
      (hrest : Thins leaves matching first second) :
      Thins leaves matching (head :: first) (other :: second)

namespace Thins

variable {α β γ : Type} {leaves : α → Prop} {matching : α → β → Prop}

theorem append {first after : List α} {second last : List β}
    (hfirst : Thins leaves matching first second) (hafter : Thins leaves matching after last) :
    Thins leaves matching (first ++ after) (second ++ last) := by
  induction hfirst with
  | nil => exact hafter
  | skip hhead _ ih => exact .skip hhead ih
  | cons hhead _ ih => exact .cons hhead ih

theorem imp {other : α → Prop} {weaker : α → β → Prop} {first : List α} {second : List β}
    (h : Thins leaves matching first second) (hleaves : ∀ item, leaves item → other item)
    (hmatching : ∀ item result, matching item result → weaker item result) :
    Thins other weaker first second := by
  induction h with
  | nil => exact .nil
  | skip hhead _ ih => exact .skip (hleaves _ hhead) ih
  | cons hhead _ ih => exact .cons (hmatching _ _ hhead) ih

/-- What is left corresponds item by item. -/
theorem forall₂_filter {keep : α → Bool} {first : List α} {second : List β}
    (h : Thins leaves matching first second) (hleaves : ∀ item, leaves item → keep item = false)
    (hmatching : ∀ item result, matching item result → keep item = true) :
    List.Forall₂ matching (first.filter keep) second := by
  induction h with
  | nil => exact .nil
  | skip hhead _ ih =>
      rw [List.filter_cons_of_neg (by rw [hleaves _ hhead]; exact Bool.false_ne_true)]
      exact ih
  | cons hhead _ ih =>
      rw [List.filter_cons_of_pos (hmatching _ _ hhead)]
      exact .cons hhead ih

end Thins

/-! ## Numbers among the modules that are kept -/

variable {kept : ModuleId → Bool}

/-- How many of the modules before a place are kept. -/
def rank (kept : ModuleId → Bool) (ids : List ModuleId) (number : Nat) : Nat :=
  (ids.take number).countP kept

theorem rank_of_prefix {before after : List ModuleId} (hbegins : before <+: after) {number : Nat}
    {id : ModuleId} (hnumber : before[number]? = some id) :
    rank kept after number = rank kept before number := by
  obtain ⟨more, rfl⟩ := hbegins
  have hlt : number < before.length := (List.getElem?_eq_some_iff.mp hnumber).1
  rw [rank, rank, List.take_append_of_le_length (Nat.le_of_lt hlt)]

/-- A kept module that has a number has its rank as number when the others are left out. -/
theorem idxOf_filter {known : List ModuleId} {id : ModuleId} (hkept : kept id = true)
    (hid : id ∈ known) : (known.filter kept).idxOf id = rank kept known (known.idxOf id) := by
  induction known with
  | nil => cases hid
  | cons head rest ih =>
      by_cases hhead : head = id
      · subst hhead
        rw [List.filter_cons_of_pos hkept, List.idxOf_cons_self, List.idxOf_cons_self]
        rfl
      · have hrest : id ∈ rest := List.mem_of_ne_of_mem (fun h => hhead h.symm) hid
        rw [List.idxOf_cons_ne _ hhead, rank, List.take_succ_cons, List.countP_cons]
        cases hkeep : kept head with
        | true =>
            rw [List.filter_cons_of_pos hkeep, List.idxOf_cons_ne _ hhead, ih hrest]
            rfl
        | false =>
            rw [List.filter_cons_of_neg (by rw [hkeep]; exact Bool.false_ne_true), ih hrest]
            rfl

/-- A numbering in which only the kept modules are numbered. -/
def Numbering.only (kept : ModuleId → Bool) (numbering : Numbering) : Numbering where
  known := numbering.known.filter kept
  wave := numbering.wave.filter fun resolved => kept resolved.id

theorem Numbering.number_only {numbering : Numbering} {resolved : Resolved}
    (hkept : kept resolved.id = true) :
    (numbering.only kept).number resolved =
      (rank kept (numbering.number resolved).2.known (numbering.number resolved).1,
        (numbering.number resolved).2.only kept) := by
  by_cases hknown : resolved.id ∈ numbering.known
  · have honly : resolved.id ∈ numbering.known.filter kept := List.mem_filter.mpr ⟨hknown, hkept⟩
    simp only [number, only, List.contains_eq_mem, hknown, honly, decide_true, if_true,
      idxOf_filter hkept hknown]
  · have honly : resolved.id ∉ numbering.known.filter kept :=
      fun hmem => hknown (List.mem_filter.mp hmem).1
    simp only [number, only, List.contains_eq_mem, hknown, honly, decide_false, Bool.false_eq_true,
      if_false, List.filter_append, List.filter_cons, hkept, if_true, List.filter_nil, rank,
      List.take_left, List.countP_eq_length_filter]

theorem Numbering.only_number {numbering : Numbering} {resolved : Resolved}
    (hkept : kept resolved.id = false) :
    (numbering.number resolved).2.only kept = numbering.only kept := by
  rw [number]
  split
  · rfl
  · simp [only, hkept]

theorem numberAll_cons (target : Resolved) (rest : List Resolved) (numbering : Numbering) :
    numberAll (target :: rest) numbering =
      ((numbering.number target).1 :: (numberAll rest (numbering.number target).2).1,
        (numberAll rest (numbering.number target).2).2) := rfl

theorem numberAll_append (targets more : List Resolved) (numbering : Numbering) :
    numberAll (targets ++ more) numbering =
      ((numberAll targets numbering).1 ++ (numberAll more (numberAll targets numbering).2).1,
        (numberAll more (numberAll targets numbering).2).2) := by
  induction targets generalizing numbering with
  | nil => rfl
  | cons target rest ih => rw [List.cons_append, numberAll_cons, ih, numberAll_cons]; rfl

theorem numberAll_only {targets : List Resolved} (hkept : ∀ target ∈ targets, kept target.id = true)
    (numbering : Numbering) :
    numberAll targets (numbering.only kept) =
      ((numberAll targets numbering).1.map (rank kept (numberAll targets numbering).2.known),
        (numberAll targets numbering).2.only kept) := by
  induction targets generalizing numbering with
  | nil => rfl
  | cons target rest ih =>
      rw [List.forall_mem_cons] at hkept
      have hrank : rank kept (numberAll rest (numbering.number target).2).2.known
            (numbering.number target).1 =
          rank kept (numbering.number target).2.known (numbering.number target).1 :=
        rank_of_prefix (known_prefix_numberAll rest (numbering.number target).2)
          (numbering.number_known target)
      rw [numberAll_cons, numberAll_cons, Numbering.number_only hkept.1, ih hkept.2]
      rw [List.map_cons, hrank]

/-- Targets that are left out leave no trace. -/
theorem only_numberAll {targets : List Resolved}
    (hdropped : ∀ target ∈ targets, kept target.id = false) (numbering : Numbering) :
    (numberAll targets numbering).2.only kept = numbering.only kept := by
  induction targets generalizing numbering with
  | nil => rfl
  | cons target rest ih =>
      rw [List.forall_mem_cons] at hdropped
      rw [numberAll_cons, ih hdropped.2, Numbering.only_number hdropped.1]

/-! ## Modules without some of their imports -/

/-- When contents of modules of a kind count as alike. -/
abbrev Likeness := ModuleKind → ModuleContent → ModuleContent → Prop

variable {alike : Likeness}

/-- The same module, with contents that are alike. -/
structure SameModule (kept : ModuleId → Bool) (alike : Likeness)
    (first second : Module) : Prop where
  kept_id : kept first.id = true
  id_eq : second.id = first.id
  stableId_eq : second.stableId = first.stableId
  kind_eq : second.kind = first.kind
  content : alike first.kind first.content second.content

/-- A module whose last imports lead to modules that are left out is the same module without
these imports. -/
structure SameItem (kept : ModuleId → Bool) (alike : Likeness)
    (first second : Module × List Resolved) : Prop extends
    SameModule kept alike first.1 second.1 where
  targets : ∃ dropped, first.2 = second.2 ++ dropped ∧
    (∀ target ∈ second.2, kept target.id = true) ∧ ∀ target ∈ dropped, kept target.id = false

/-- Whether the module with a number is kept, if there is one. -/
def keptAt? (kept : ModuleId → Bool) (ids : List ModuleId) (number : Nat) : Option Bool :=
  ids[number]?.map kept

/-- A module whose last dependencies are left out is the same module with the others, which
are numbered anew. -/
structure ThinModule (kept : ModuleId → Bool) (alike : Likeness)
    (ids : List ModuleId) (first second : Module) : Prop extends
    SameModule kept alike first second where
  dependencies : ∃ numbers dropped, first.dependencies = numbers ++ dropped ∧
    second.dependencies = numbers.map (rank kept ids) ∧
    (∀ number ∈ numbers, keptAt? kept ids number = some true) ∧
    ∀ number ∈ dropped, keptAt? kept ids number = some false

theorem Numbers.keptAt? {known : List ModuleId} {targets : List Resolved} {numbers : List Nat}
    (h : Numbers known targets numbers) {value : Bool}
    (htargets : ∀ target ∈ targets, kept target.id = value) :
    ∀ number ∈ numbers, Loader.keptAt? kept known number = some value := by
  induction h with
  | nil => exact fun _ hnone => nomatch hnone
  | cons hnumber _ ih =>
      rw [List.forall_mem_cons] at htargets ⊢
      refine ⟨?_, ih htargets.2⟩
      rw [Loader.keptAt?, hnumber, Option.map_some, htargets.1]

theorem keptAt?_mono {before after : List ModuleId} (hbegins : before <+: after)
    {number : Nat} {value : Bool} (h : keptAt? kept before number = some value) :
    keptAt? kept after number = some value ∧ rank kept after number = rank kept before number := by
  rw [keptAt?, Option.map_eq_some_iff] at h
  obtain ⟨id, hid, rfl⟩ := h
  exact ⟨by rw [keptAt?, getElem?_of_prefix hbegins hid]; rfl, rank_of_prefix hbegins hid⟩

theorem ThinModule.mono {before after : List ModuleId} {first second : Module}
    (h : ThinModule kept alike before first second) (hbegins : before <+: after) :
    ThinModule kept alike after first second := by
  obtain ⟨numbers, dropped, hfirst, hsecond, hkept, hdropped⟩ := h.dependencies
  refine { h with dependencies := ⟨numbers, dropped, hfirst, ?_, ?_, ?_⟩ }
  · rw [hsecond]
    exact List.map_congr_left fun number hnumber =>
      (keptAt?_mono hbegins (hkept number hnumber)).2.symm
  · exact fun number hnumber => (keptAt?_mono hbegins (hkept number hnumber)).1
  · exact fun number hnumber => (keptAt?_mono hbegins (hdropped number hnumber)).1

theorem thinModule_numberOne {first second : Module × List Resolved}
    (h : SameItem kept alike first second) (numbering : Numbering) :
    ThinModule kept alike (numberOne first numbering).2.known (numberOne first numbering).1
        (numberOne second (numbering.only kept)).1 ∧
      (numberOne second (numbering.only kept)).2 = (numberOne first numbering).2.only kept := by
  obtain ⟨dropped, hfirst, hkept, hdropped⟩ := h.targets
  obtain ⟨module, targets⟩ := first
  obtain ⟨other, others⟩ := second
  dsimp only at hfirst hkept hdropped
  subst hfirst
  have hbegins := known_prefix_numberAll dropped (numberAll others numbering).2
  have hnumbers := numbers_numberAll others numbering
  have hmore := numbers_numberAll dropped (numberAll others numbering).2
  rw [numberOne, numberOne, numberAll_append, numberAll_only hkept]
  refine ⟨?_, (only_numberAll hdropped _).symm⟩
  refine { h.toSameModule with dependencies := ⟨_, _, rfl, ?_, ?_, ?_⟩ }
  · refine List.map_congr_left fun number hnumber => ?_
    exact (keptAt?_mono hbegins (hnumbers.keptAt? hkept number hnumber)).2.symm
  · exact (hnumbers.mono hbegins).keptAt? hkept
  · exact hmore.keptAt? hdropped

/-- A module that is left out imports nothing. -/
def IsLeaf (kept : ModuleId → Bool) (item : Module × List Resolved) : Prop :=
  kept item.1.id = false ∧ item.2 = []

theorem thins_numberWave {items others : List (Module × List Resolved)}
    (h : Thins (IsLeaf kept) (SameItem kept alike) items others) (numbering : Numbering) :
    Thins (fun module => kept module.id = false)
        (ThinModule kept alike (numberWave items numbering).2.known) (numberWave items numbering).1
        (numberWave others (numbering.only kept)).1 ∧
      (numberWave others (numbering.only kept)).2 = (numberWave items numbering).2.only kept := by
  induction h generalizing numbering with
  | nil => exact ⟨.nil, rfl⟩
  | @skip item items others hleaf _ ih =>
      obtain ⟨module, targets⟩ := item
      obtain ⟨hdropped, rfl⟩ := hleaf
      obtain ⟨hmodules, hlast⟩ := ih numbering
      exact ⟨.skip hdropped hmodules, hlast⟩
  | @cons item other items others hsame _ ih =>
      obtain ⟨hmodule, hnext⟩ := thinModule_numberOne hsame numbering
      obtain ⟨hmodules, hlast⟩ := ih (numberOne item numbering).2
      have hbegins := known_prefix_numberWave items (numberOne item numbering).2
      rw [← hnext] at hmodules hlast
      exact ⟨.cons (hmodule.mono hbegins) hmodules, hlast⟩

end WebBundle.Loader
