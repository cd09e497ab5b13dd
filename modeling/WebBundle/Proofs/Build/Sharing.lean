import Mathlib.Data.List.Basic
import WebBundle.Proofs.Build.Cache

/-!
# Partitions that builds share

Nested builds that run side by side on one cache may claim the same partition, because its name says
nothing but which request they compile.  A build holds the partition it claimed by a handle.  When a
build is cancelled or dropped, it releases the partition by its name, and whoever else holds it keeps
a cache that nobody finds any more.  What is left when all builds have ended is decided by the last
build of a name that was abandoned: the partition is there exactly if a build claimed it afterwards
and came to its end, and it then has everything that such builds kept.
-/

namespace WebBundle

namespace Cache

/-- The module that is kept under an id, from whatever source it was scanned. -/
def kept? (cache : Cache) (id : ModuleId) : Option CachedModule :=
  (cache.modules.find? fun entry => entry.1 = id).map Prod.snd

theorem kept?_insert (cache : Cache) (id other : ModuleId) (module : CachedModule) :
    (cache.insert id module).kept? other =
      if other = id then some module else cache.kept? other := by
  rw [kept?, insert, modules, List.find?_cons]
  by_cases hid : other = id
  · simp [hid]
  · have hfind : (cache.modules.filter fun entry => entry.1 ≠ id).find?
        (fun entry => entry.1 = other) = cache.modules.find? fun entry => entry.1 = other := by
      rw [List.find?_filter]
      congr 1
      funext entry
      by_cases hentry : entry.1 = other
      · simp [hentry, hid]
      · simp [hentry]
    rw [decide_eq_false fun h : id = other => hid h.symm, if_neg hid, hfind]
    rfl

theorem partition?_claim (cache : Cache) (name other : String) :
    (cache.claim name).partition? other =
      if other = name then some ((cache.partition? name).getD empty) else cache.partition? other := by
  rw [claim]
  cases hpartition : cache.partition? name with
  | some partition =>
      by_cases hname : other = name
      · simp [hname, hpartition]
      · simp [hname]
  | none => exact partition?_setPartition cache name other empty

theorem partition?_modifyAt (change : Cache → Cache) (cache : Cache) (name other : String) :
    (cache.modifyAt change [name]).partition? other =
      if other = name then (cache.partition? name).map change else cache.partition? other := by
  rw [modifyAt]
  cases hpartition : cache.partition? name with
  | some partition => exact partition?_setPartition cache name other (change partition)
  | none =>
      by_cases hname : other = name
      · simp [hname, hpartition]
      · simp [hname]

/-- What a nested build does with the partition of its name. -/
inductive Act where
  | claim
  | keep (id : ModuleId) (module : CachedModule)
  /-- The build comes to its end, with or without errors. -/
  | finish
  /-- The build is cancelled or dropped. -/
  | abandon

/-- An act of one build; builds that run at the same time have different numbers. -/
structure Move where
  build : Nat
  name : String
  act : Act

/-- A running build. -/
structure Holder where
  build : Nat
  name : String
  /-- Whether the cache it holds is still the partition of its name. -/
  attached : Bool
  deriving DecidableEq, Repr

/-- The handle is left with a cache that was released. -/
def Holder.detach (name : String) (holder : Holder) : Holder :=
  if holder.name = name then { holder with attached := false } else holder

/-- A cache with the builds that run on its partitions. -/
structure Floor where
  cache : Cache
  running : List Holder := []

namespace Floor

/-- The running build with a number. -/
def holder? (floor : Floor) (build : Nat) : Option Holder :=
  floor.running.find? fun holder => holder.build = build

/-- The running builds but one. -/
def others (floor : Floor) (holder : Holder) : List Holder :=
  floor.running.filter fun other => other ≠ holder

/-- What a running build does with the partition it holds. -/
def act (floor : Floor) (holder : Holder) : Act → Option Floor
  | .claim => none
  | .keep id module =>
    some { floor with
      cache := if holder.attached then floor.cache.modifyAt (·.insert id module) [holder.name]
        else floor.cache }
  | .finish => some { floor with running := floor.others holder }
  | .abandon =>
    some
      { cache := floor.cache.release holder.name
        running := (floor.others holder).map (Holder.detach holder.name) }

/-- One move of a build. -/
def step? (floor : Floor) (move : Move) : Option Floor :=
  match floor.holder? move.build, move.act with
  | none, .claim =>
    some
      { cache := floor.cache.claim move.name
        running := ⟨move.build, move.name, true⟩ :: floor.running }
  | none, .keep _ _ | none, .finish | none, .abandon => none
  | some holder, act => if holder.name = move.name then floor.act holder act else none

/-- Moves one after the other. -/
def run : List Move → Floor → Option Floor
  | [], floor => some floor
  | move :: rest, floor => (floor.step? move).bind (run rest)

end Floor

/-- No build with a name is abandoned. -/
def Spared (name : String) (schedule : List Move) : Prop :=
  ∀ build, ⟨build, name, .abandon⟩ ∉ schedule

/-- A build claims the partition of a name and does the moves that follow among others; no build with
the name is abandoned from then on. -/
def Undisturbed (schedule : List Move) (name : String) (build : Nat) (later : List Move) : Prop :=
  (∃ earlier, schedule = earlier ++ ⟨build, name, .claim⟩ :: later) ∧ Spared name later

namespace Floor

/-! ## What one move does -/

variable {before : Cache} {floor next last : Floor} {move : Move} {schedule later : List Move}
  {name : String}
  {build : Nat} {id : ModuleId} {module : CachedModule}

theorem holder_of_holder? {holder : Holder} (h : floor.holder? build = some holder) :
    holder ∈ floor.running ∧ holder.build = build :=
  ⟨List.mem_of_find?_eq_some h, by simpa using List.find?_some h⟩

/-- The four things that a move can be. -/
theorem step_cases (h : floor.step? move = some next) :
    (∃ build name, move = ⟨build, name, .claim⟩ ∧ (∀ holder ∈ floor.running, holder.build ≠ build) ∧
      next = ⟨floor.cache.claim name, ⟨build, name, true⟩ :: floor.running⟩) ∨
    (∃ holder ∈ floor.running, ∃ id module, move = ⟨holder.build, holder.name, .keep id module⟩ ∧
      next = { floor with
        cache := if holder.attached then floor.cache.modifyAt (·.insert id module) [holder.name]
          else floor.cache }) ∨
    (∃ holder ∈ floor.running, move = ⟨holder.build, holder.name, .finish⟩ ∧
      next = { floor with running := floor.others holder }) ∨
    (∃ holder ∈ floor.running, move = ⟨holder.build, holder.name, .abandon⟩ ∧
      next = ⟨floor.cache.release holder.name,
        (floor.others holder).map (Holder.detach holder.name)⟩) := by
  obtain ⟨build, name, act⟩ := move
  cases hholder : floor.holder? build with
  | none =>
      have hfree : ∀ holder ∈ floor.running, holder.build ≠ build := fun holder hmem hbuild =>
        absurd (List.find?_eq_none.mp hholder holder hmem) (by simp [hbuild])
      cases act <;> simp only [step?, hholder, reduceCtorEq] at h
      cases h
      exact .inl ⟨build, name, rfl, hfree, rfl⟩
  | some holder =>
      obtain ⟨hmem, rfl⟩ := holder_of_holder? hholder
      by_cases hname : holder.name = name
      · subst hname
        simp only [step?, hholder, if_true] at h
        cases act with
        | claim => cases h
        | keep id module => exact .inr (.inl ⟨holder, hmem, id, module, rfl, (Option.some.inj h).symm⟩)
        | finish => exact .inr (.inr (.inl ⟨holder, hmem, rfl, (Option.some.inj h).symm⟩))
        | abandon => exact .inr (.inr (.inr ⟨holder, hmem, rfl, (Option.some.inj h).symm⟩))
      · simp [step?, hholder, hname] at h

/-- What a move does to the partition of a name. -/
theorem partition_step (h : floor.step? move = some next) (name : String) :
    ((∀ build, move ≠ ⟨build, name, .abandon⟩) ∧
      next.cache.partition? name = floor.cache.partition? name) ∨
    (∃ build, move = ⟨build, name, .claim⟩ ∧ floor.cache.partition? name = none ∧
      next.cache.partition? name = some empty) ∨
    (∃ build id module partition, move = ⟨build, name, .keep id module⟩ ∧
      floor.cache.partition? name = some partition ∧
      next.cache.partition? name = some (partition.insert id module)) ∨
    (∃ build, move = ⟨build, name, .abandon⟩ ∧ next.cache.partition? name = none) := by
  rcases step_cases h with ⟨build, other, rfl, -, rfl⟩ | ⟨holder, -, id, module, rfl, rfl⟩ |
    ⟨holder, -, rfl, rfl⟩ | ⟨holder, -, rfl, rfl⟩
  · by_cases hname : name = other
    · subst hname
      cases hpartition : floor.cache.partition? name with
      | some partition => exact .inl ⟨by simp, by simp [partition?_claim, hpartition]⟩
      | none => exact .inr (.inl ⟨build, rfl, rfl, by simp [partition?_claim, hpartition]⟩)
    · exact .inl ⟨by simp, by simp [partition?_claim, hname]⟩
  · by_cases hname : name = holder.name
    · subst hname
      cases hattached : holder.attached with
      | false => exact .inl ⟨by simp, by simp⟩
      | true =>
          cases hpartition : floor.cache.partition? holder.name with
          | none => exact .inl ⟨by simp, by simp [partition?_modifyAt, hpartition]⟩
          | some partition =>
              exact .inr (.inr (.inl ⟨holder.build, id, module, partition, rfl, rfl,
                by simp [partition?_modifyAt, hpartition]⟩))
    · refine .inl ⟨by simp, ?_⟩
      dsimp only
      split
      · rw [partition?_modifyAt, if_neg hname]
      · rfl
  · exact .inl ⟨by simp, rfl⟩
  · by_cases hname : name = holder.name
    · subst hname
      exact .inr (.inr (.inr ⟨holder.build, rfl, by simp [partition?_release]⟩))
    · refine .inl ⟨fun build hmove => hname ?_, by simp [partition?_release, hname]⟩
      cases hmove
      rfl

/-- After a claim the partition is there. -/
theorem isSome_of_claim (h : floor.step? ⟨build, name, .claim⟩ = some next) :
    (next.cache.partition? name).isSome := by
  rcases step_cases h with ⟨_, _, hmove, -, rfl⟩ | ⟨_, -, _, _, hmove, -⟩ | ⟨_, -, hmove, -⟩ |
    ⟨_, -, hmove, -⟩
  · cases hmove
    simp [partition?_claim]
  all_goals cases hmove

/-! ## What moves keep that abandon no build of a name -/

theorem run_cons : run (move :: schedule) floor = some last ↔
    ∃ next, floor.step? move = some next ∧ run schedule next = some last :=
  Option.bind_eq_some_iff

theorem run_append : run (schedule ++ later) floor = some last ↔
    ∃ middle, run schedule floor = some middle ∧ run later middle = some last := by
  induction schedule generalizing floor with
  | nil => simp [run]
  | cons move rest ih =>
      rw [List.cons_append, run_cons]
      constructor
      · rintro ⟨next, hstep, hrun⟩
        obtain ⟨middle, hmiddle, hlast⟩ := ih.mp hrun
        exact ⟨middle, run_cons.mpr ⟨next, hstep, hmiddle⟩, hlast⟩
      · rintro ⟨middle, hrun, hlast⟩
        obtain ⟨next, hstep, hmiddle⟩ := run_cons.mp hrun
        exact ⟨next, hstep, ih.mpr ⟨middle, hmiddle, hlast⟩⟩

theorem spared_cons : Spared name (move :: schedule) ↔
    (∀ build, move ≠ ⟨build, name, .abandon⟩) ∧ Spared name schedule := by
  simp only [Spared, List.mem_cons, not_or]
  exact ⟨fun h => ⟨fun build hmove => (h build).1 hmove.symm, fun build => (h build).2⟩,
    fun h build => ⟨fun hmove => h.1 build hmove.symm, h.2 build⟩⟩

/-- A partition stays. -/
theorem isSome_run (hrun : run schedule floor = some last) (hspared : Spared name schedule)
    (h : (floor.cache.partition? name).isSome) : (last.cache.partition? name).isSome := by
  induction schedule generalizing floor with
  | nil =>
      cases hrun
      exact h
  | cons move rest ih =>
      obtain ⟨next, hstep, hrest⟩ := run_cons.mp hrun
      obtain ⟨hmove, hspared⟩ := spared_cons.mp hspared
      refine ih hrest hspared ?_
      rcases partition_step hstep name with ⟨-, hsame⟩ | ⟨_, -, -, hclaimed⟩ |
        ⟨_, _, _, _, -, -, hinserted⟩ | ⟨other, habandon, -⟩
      · rwa [hsame]
      · rw [hclaimed]
        rfl
      · rw [hinserted]
        rfl
      · exact absurd habandon (hmove other)

/-- A kept module stays until another one is kept under its id. -/
theorem kept_run (hrun : run schedule floor = some last) (hspared : Spared name schedule)
    {partition : Cache} (hpartition : floor.cache.partition? name = some partition)
    (hkept : partition.kept? id = some module) :
    ∃ partition current, last.cache.partition? name = some partition ∧
      partition.kept? id = some current ∧
      (current = module ∨ ∃ build, ⟨build, name, .keep id current⟩ ∈ schedule) := by
  induction schedule generalizing floor partition module with
  | nil =>
      cases hrun
      exact ⟨partition, module, hpartition, hkept, .inl rfl⟩
  | cons move rest ih =>
      obtain ⟨next, hstep, hrest⟩ := run_cons.mp hrun
      obtain ⟨hmove, hsparedRest⟩ := spared_cons.mp hspared
      rcases partition_step hstep name with ⟨-, hsame⟩ | ⟨_, -, habsent, -⟩ |
        ⟨other, otherId, newer, before, rfl, hbefore, hinserted⟩ | ⟨other, habandon, -⟩
      · obtain ⟨after, current, hafter, hcurrent, hlater⟩ :=
          ih hrest hsparedRest (hsame.trans hpartition) hkept
        refine ⟨after, current, hafter, hcurrent, hlater.imp_right ?_⟩
        exact fun ⟨build, hmem⟩ => ⟨build, List.mem_cons_of_mem _ hmem⟩
      · rw [hpartition] at habsent
        cases habsent
      · cases hpartition.symm.trans hbefore
        by_cases hid : id = otherId
        · subst hid
          obtain ⟨after, current, hafter, hcurrent, hlater⟩ :=
            ih hrest hsparedRest hinserted (by rw [kept?_insert, if_pos rfl])
          refine ⟨after, current, hafter, hcurrent, .inr ?_⟩
          rcases hlater with rfl | ⟨build, hmem⟩
          · exact ⟨other, List.mem_cons_self⟩
          · exact ⟨build, List.mem_cons_of_mem _ hmem⟩
        · obtain ⟨after, current, hafter, hcurrent, hlater⟩ :=
            ih hrest hsparedRest hinserted (by rwa [kept?_insert, if_neg hid])
          refine ⟨after, current, hafter, hcurrent, hlater.imp_right ?_⟩
          exact fun ⟨build, hmem⟩ => ⟨build, List.mem_cons_of_mem _ hmem⟩
      · exact absurd habandon (hmove other)

/-- A build that holds the partition of a name holds it by an attached handle. -/
def Holds (floor : Floor) (name : String) (build : Nat) : Prop :=
  ∀ holder ∈ floor.running, holder.build = build → holder.name = name → holder.attached = true

/-- The build that claims a partition holds it, and nobody else has its number. -/
theorem running_of_claim (h : floor.step? ⟨build, name, .claim⟩ = some next) :
    next.running = ⟨build, name, true⟩ :: floor.running ∧
      ∀ holder ∈ floor.running, holder.build ≠ build := by
  rcases step_cases h with ⟨_, _, hmove, hfree, rfl⟩ | ⟨_, -, _, _, hmove, -⟩ | ⟨_, -, hmove, -⟩ |
    ⟨_, -, hmove, -⟩
  · cases hmove
    exact ⟨rfl, hfree⟩
  all_goals cases hmove

theorem holds_of_claim (h : floor.step? ⟨build, name, .claim⟩ = some next) :
    next.Holds name build := by
  obtain ⟨hrunning, hfree⟩ := running_of_claim h
  intro holder hmem hbuild _
  rw [hrunning, List.mem_cons] at hmem
  rcases hmem with rfl | hmem
  · rfl
  · exact absurd hbuild (hfree holder hmem)

/-- What is kept by an attached handle is put into the partition. -/
theorem insert_of_keep (h : floor.step? ⟨build, name, .keep id module⟩ = some next)
    (hholds : floor.Holds name build) {partition : Cache}
    (hpartition : floor.cache.partition? name = some partition) :
    next.cache.partition? name = some (partition.insert id module) := by
  rcases step_cases h with ⟨_, _, hmove, -, -⟩ | ⟨holder, hmem, _, _, hmove, rfl⟩ | ⟨_, -, hmove, -⟩ |
    ⟨_, -, hmove, -⟩
  · cases hmove
  · cases hmove
    simp [hholds holder hmem rfl rfl, partition?_modifyAt, hpartition]
  all_goals cases hmove

/-- A handle stays attached. -/
theorem holds_run (hrun : run schedule floor = some last) (hspared : Spared name schedule)
    (h : floor.Holds name build) : last.Holds name build := by
  induction schedule generalizing floor with
  | nil =>
      cases hrun
      exact h
  | cons move rest ih =>
      obtain ⟨next, hstep, hrest⟩ := run_cons.mp hrun
      obtain ⟨hmove, hspared⟩ := spared_cons.mp hspared
      refine ih hrest hspared ?_
      rcases step_cases hstep with ⟨other, otherName, rfl, -, rfl⟩ | ⟨holder, -, id, module, rfl, rfl⟩ |
        ⟨holder, -, rfl, rfl⟩ | ⟨holder, -, rfl, rfl⟩
      · intro entry hentry hbuild hname
        rcases List.mem_cons.mp hentry with rfl | hentry
        · rfl
        · exact h entry hentry hbuild hname
      · exact h
      · exact fun entry hentry => h entry (List.mem_filter.mp hentry).1
      · intro entry hentry hbuild hname
        obtain ⟨before, hbefore, rfl⟩ := List.mem_map.mp hentry
        have hother : before.name ≠ holder.name := by
          intro hsame
          rw [Holder.detach, if_pos hsame] at hname
          exact hmove holder.build (by rw [← hname, ← hsame])
        rw [Holder.detach, if_neg hother] at hbuild hname ⊢
        exact h before (List.mem_filter.mp hbefore).1 hbuild hname

/-- A build that has ended has finished or was abandoned. -/
theorem ends_of_run (hrun : run schedule floor = some last) (hlast : last.running = [])
    {holder : Holder} (hmem : holder ∈ floor.running) :
    ⟨holder.build, holder.name, .finish⟩ ∈ schedule ∨
      ⟨holder.build, holder.name, .abandon⟩ ∈ schedule := by
  induction schedule generalizing floor holder with
  | nil =>
      cases hrun
      rw [hlast] at hmem
      cases hmem
  | cons move rest ih =>
      obtain ⟨next, hstep, hrest⟩ := run_cons.mp hrun
      have hstays {after : Holder} (hafter : after ∈ next.running) (hbuild : after.build = holder.build)
          (hname : after.name = holder.name) :
          ⟨holder.build, holder.name, .finish⟩ ∈ move :: rest ∨
            ⟨holder.build, holder.name, .abandon⟩ ∈ move :: rest := by
        rw [← hbuild, ← hname]
        exact (ih hrest hafter).imp (List.mem_cons_of_mem _) (List.mem_cons_of_mem _)
      have hother {ended : Holder} (hended : holder ≠ ended) : holder ∈ floor.others ended :=
        List.mem_filter.mpr ⟨hmem, decide_eq_true hended⟩
      rcases step_cases hstep with ⟨other, otherName, rfl, -, rfl⟩ | ⟨keeper, -, id, module, rfl, rfl⟩ |
        ⟨ended, -, rfl, rfl⟩ | ⟨ended, -, rfl, rfl⟩
      · exact hstays (List.mem_cons_of_mem _ hmem) rfl rfl
      · exact hstays hmem rfl rfl
      · by_cases hended : holder = ended
        · subst hended
          exact .inl List.mem_cons_self
        · exact hstays (hother hended) rfl rfl
      · by_cases hended : holder = ended
        · subst hended
          exact .inr List.mem_cons_self
        · refine hstays (List.mem_map_of_mem (hother hended)) ?_ ?_
          all_goals
            rw [Holder.detach]
            split <;> rfl

/-! ## What is left in the end -/

/-- Whoever has a partition in the end has it from the beginning or since a claim that was followed
by no abandonment. -/
theorem claimed_of_isSome (hrun : run schedule floor = some last)
    (h : (last.cache.partition? name).isSome) :
    ((floor.cache.partition? name).isSome ∧ Spared name schedule) ∨
      ∃ build later, Undisturbed schedule name build later := by
  induction schedule generalizing floor with
  | nil =>
      cases hrun
      exact .inl ⟨h, fun _ => List.not_mem_nil⟩
  | cons move rest ih =>
      obtain ⟨next, hstep, hrest⟩ := run_cons.mp hrun
      rcases ih hrest with ⟨hnext, hspared⟩ | ⟨build, later, ⟨earlier, rfl⟩, hspared⟩
      · rcases partition_step hstep name with ⟨hmove, hsame⟩ | ⟨build, rfl, -, -⟩ |
          ⟨_, _, _, _, rfl, hbefore, -⟩ | ⟨_, -, hnone⟩
        · exact .inl ⟨hsame ▸ hnext, spared_cons.mpr ⟨hmove, hspared⟩⟩
        · exact .inr ⟨build, rest, ⟨[], rfl⟩, hspared⟩
        · refine .inl ⟨by rw [hbefore]; rfl, spared_cons.mpr ⟨fun _ hmove => ?_, hspared⟩⟩
          cases hmove
        · rw [hnone] at hnext
          cases hnext
      · exact .inr ⟨build, later, ⟨move :: earlier, rfl⟩, hspared⟩

/-- A build that claims a partition and is among the last ones of its name: no build with the name is
abandoned from then on, so the partition stays, with what the build keeps in it. -/
theorem kept_of_undisturbed (hrun : run schedule floor = some last)
    (h : Undisturbed schedule name build later) :
    (last.cache.partition? name).isSome ∧
      ∀ middle id module rest, later = middle ++ ⟨build, name, .keep id module⟩ :: rest →
        ∃ partition current, last.cache.partition? name = some partition ∧
          partition.kept? id = some current ∧
          (current = module ∨ ∃ other, ⟨other, name, .keep id current⟩ ∈ rest) := by
  obtain ⟨⟨earlier, rfl⟩, hspared⟩ := h
  obtain ⟨before, -, hlater⟩ := run_append.mp hrun
  obtain ⟨claimed, hclaim, hlater⟩ := run_cons.mp hlater
  have hthere := isSome_of_claim hclaim
  refine ⟨isSome_run hlater hspared hthere, ?_⟩
  rintro middle id module rest rfl
  have hsparedMiddle : Spared name middle := fun other hmem =>
    hspared other (List.mem_append_left _ hmem)
  have hsparedRest : Spared name rest := fun other hmem =>
    hspared other (List.mem_append_right _ (List.mem_cons_of_mem _ hmem))
  obtain ⟨busy, hbusy, hlater⟩ := run_append.mp hlater
  obtain ⟨kept, hkeep, hrest⟩ := run_cons.mp hlater
  obtain ⟨partition, hpartition⟩ := Option.isSome_iff_exists.mp (isSome_run hbusy hsparedMiddle hthere)
  have hholds : busy.Holds name build := holds_run hbusy hsparedMiddle (holds_of_claim hclaim)
  have hinserted : kept.cache.partition? name = some (partition.insert id module) :=
    insert_of_keep hkeep hholds hpartition
  exact kept_run hrest hsparedRest hinserted (by rw [kept?_insert, if_pos rfl])

/-- When all builds have ended, such a build has finished. -/
theorem finish_of_undisturbed (hrun : run schedule floor = some last) (hlast : last.running = [])
    (h : Undisturbed schedule name build later) : ⟨build, name, .finish⟩ ∈ later := by
  obtain ⟨⟨earlier, rfl⟩, hspared⟩ := h
  obtain ⟨before, -, hlater⟩ := run_append.mp hrun
  obtain ⟨claimed, hclaim, hlater⟩ := run_cons.mp hlater
  have hmem : ⟨build, name, true⟩ ∈ claimed.running := by
    rw [(running_of_claim hclaim).1]
    exact List.mem_cons_self
  exact (ends_of_run hlater hlast hmem).resolve_right (hspared build)

/-- Nested builds on one cache, in whatever order they claim partitions, keep modules, finish and are
cancelled or dropped, once all of them have ended.  The partition of a name is there exactly if a
build claimed it and finished, and no build of the name was abandoned after that claim, or if it was
there before and no build of the name was abandoned at all.  Whatever such a build kept is in it,
until another build of the name kept the same id again.  Where the partition was not there before
and no build of the name finished, it is not there in the end. -/
theorem partitions_left (hrun : run schedule { cache := before } = some last)
    (hended : last.running = []) (name : String) :
    ((last.cache.partition? name).isSome ↔
      (before.partition? name).isSome ∧ Spared name schedule ∨
        ∃ build later, Undisturbed schedule name build later ∧ ⟨build, name, .finish⟩ ∈ later) ∧
    (∀ build middle id module rest,
      Undisturbed schedule name build (middle ++ ⟨build, name, .keep id module⟩ :: rest) →
        ∃ partition current, last.cache.partition? name = some partition ∧
          partition.kept? id = some current ∧
          (current = module ∨ ∃ other, ⟨other, name, .keep id current⟩ ∈ rest)) ∧
    (before.partition? name = none → (∀ build, ⟨build, name, .finish⟩ ∉ schedule) →
      last.cache.partition? name = none) := by
  have hleft : (last.cache.partition? name).isSome ↔
      (before.partition? name).isSome ∧ Spared name schedule ∨
        ∃ build later, Undisturbed schedule name build later ∧ ⟨build, name, .finish⟩ ∈ later := by
    constructor
    · intro h
      refine (claimed_of_isSome hrun h).imp_right ?_
      rintro ⟨build, later, hundisturbed⟩
      exact ⟨build, later, hundisturbed, finish_of_undisturbed hrun hended hundisturbed⟩
    · rintro (⟨hbefore, hspared⟩ | ⟨build, later, hundisturbed, -⟩)
      · exact isSome_run hrun hspared hbefore
      · exact (kept_of_undisturbed hrun hundisturbed).1
  refine ⟨hleft, ?_, ?_⟩
  · intro build middle id module rest hundisturbed
    exact (kept_of_undisturbed hrun hundisturbed).2 middle id module rest rfl
  · intro hbefore hunfinished
    rw [← Option.not_isSome_iff_eq_none, hleft]
    rintro (⟨hthere, -⟩ | ⟨build, later, ⟨⟨earlier, rfl⟩, -⟩, hfinish⟩)
    · rw [hbefore] at hthere
      cases hthere
    · exact hunfinished build (List.mem_append_right _ (List.mem_cons_of_mem _ hfinish))

/-- The name of the partition for worklets that are requested as `./w.js`. -/
def workletName : String := "subcache css-worklet-plugin ./w.js"

/-- A module as it is kept. -/
def scanned (source : String) : CachedModule := ⟨⟨0, 0⟩, .script, { source }⟩

/-- Three builds of one name.  The first one is abandoned while the second one runs, which then goes
on with a cache that nobody finds; the third one claims the name afterwards. -/
def successors : List Move :=
  [⟨0, workletName, .claim⟩, ⟨1, workletName, .claim⟩, ⟨0, workletName, .keep ⟨"/a/w.js"⟩ (scanned "1")⟩,
    ⟨0, workletName, .abandon⟩, ⟨1, workletName, .keep ⟨"/b/w.js"⟩ (scanned "2")⟩,
    ⟨2, workletName, .claim⟩, ⟨1, workletName, .finish⟩,
    ⟨2, workletName, .keep ⟨"/a/w.js"⟩ (scanned "1")⟩, ⟨2, workletName, .finish⟩]

theorem partitions_left_successors : ∃ last,
    run successors { cache := empty } = some last ∧ last.running = [] ∧
    Undisturbed successors workletName 2 (successors.drop 6) ∧
    (last.cache.partition? workletName).isSome ∧
    ∃ partition, last.cache.partition? workletName = some partition ∧
      partition.kept? ⟨"/a/w.js"⟩ = some (scanned "1") := by
  obtain ⟨last, hrun, hended⟩ : ∃ last, run successors { cache := empty } = some last ∧
      last.running = [] := ⟨_, rfl, rfl⟩
  have hundisturbed : Undisturbed successors workletName 2 (successors.drop 6) :=
    ⟨⟨successors.take 5, rfl⟩, fun build => by simp [successors]⟩
  obtain ⟨hleft, hkept, -⟩ := partitions_left hrun hended workletName
  refine ⟨last, hrun, hended, hundisturbed, ?_, ?_⟩
  · exact hleft.mpr (.inr ⟨2, _, hundisturbed, by simp [successors]⟩)
  · obtain ⟨partition, current, hpartition, hcurrent, hsame⟩ :=
      hkept 2 [⟨1, workletName, .finish⟩] ⟨"/a/w.js"⟩ (scanned "1") _ hundisturbed
    rcases hsame with rfl | ⟨other, hother⟩
    · exact ⟨partition, hpartition, hcurrent⟩
    · simp at hother

/-- Two builds of one name.  The first one finishes before the second one is abandoned. -/
def siblings : List Move :=
  [⟨0, workletName, .claim⟩, ⟨1, workletName, .claim⟩, ⟨0, workletName, .keep ⟨"/a/w.js"⟩ (scanned "1")⟩,
    ⟨0, workletName, .finish⟩, ⟨1, workletName, .abandon⟩]

/-- A build that finished has no partition in the end, because a build with the same name was
abandoned after it. -/
theorem partition_lost : ∃ last, run siblings { cache := empty } = some last ∧ last.running = [] ∧
    ⟨0, workletName, .finish⟩ ∈ siblings ∧ last.cache.partition? workletName = none :=
  ⟨_, rfl, rfl, by simp [siblings], rfl⟩

end Floor

end Cache

end WebBundle
