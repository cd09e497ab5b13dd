import WebBundle.Build.Session

/-!
# What caches keep

A property of kept modules may depend on how deep the cache lies that keeps them.  It
holds in a cache if it holds of every module that is kept there or in a partition
below.  Claiming and releasing partitions preserve it, and keeping a module preserves
it if it holds of that module.
-/

namespace WebBundle

namespace Cache

/-- A property of kept modules that may depend on the depth of their cache. -/
abbrev Law := (depth : Nat) → ModuleId → CachedModule → Prop

variable {law : Law} {depth : Nat} {cache : Cache}

/-- A property holds of all modules in a cache of some depth and in its partitions. -/
def Obeys (law : Law) (depth : Nat) (cache : Cache) : Prop :=
  ∀ path inner, cache.at? path = some inner →
    ∀ entry ∈ inner.modules, law (depth + path.length) entry.1 entry.2

theorem obeys_empty : empty.Obeys law depth := by
  intro path inner hinner entry hentry
  cases path with
  | nil =>
      cases hinner
      cases hentry
  | cons name rest => cases hinner

theorem obeys_iff : cache.Obeys law depth ↔
    (∀ entry ∈ cache.modules, law depth entry.1 entry.2) ∧
      ∀ name inner, cache.partition? name = some inner → inner.Obeys law (depth + 1) := by
  constructor
  · intro h
    refine ⟨h [] cache rfl, ?_⟩
    intro name inner hinner path last hlast entry hentry
    have hentry := h (name :: path) last (by rw [at?, hinner]; exact hlast) entry hentry
    rwa [List.length_cons, Nat.add_comm path.length, ← Nat.add_assoc] at hentry
  · rintro ⟨hmodules, hpartitions⟩ path last hlast entry hentry
    cases path with
    | nil =>
        cases hlast
        exact hmodules entry hentry
    | cons name rest =>
        rw [at?, Option.bind_eq_some_iff] at hlast
        obtain ⟨inner, hinner, hlast⟩ := hlast
        have hentry := hpartitions name inner hinner rest last hlast entry hentry
        rwa [List.length_cons, Nat.add_comm rest.length, ← Nat.add_assoc]

theorem Obeys.mono {other : Law} (h : cache.Obeys law depth)
    (hlaw : ∀ depth id module, law depth id module → other depth id module) :
    cache.Obeys other depth :=
  fun path inner hinner entry hentry => hlaw _ _ _ (h path inner hinner entry hentry)

theorem partition?_setPartition (cache : Cache) (name other : String) (partition : Cache) :
    (cache.setPartition name partition).partition? other =
      if other = name then some partition else cache.partition? other := by
  rw [partition?, setPartition, partitions, List.find?_cons]
  by_cases hname : other = name
  · simp [hname]
  · have hfind : (cache.partitions.filter fun entry => entry.1 ≠ name).find?
        (fun entry => entry.1 = other) = cache.partitions.find? fun entry => entry.1 = other := by
      rw [List.find?_filter]
      congr 1
      funext entry
      by_cases hentry : entry.1 = other
      · simp [hentry, hname]
      · simp [hentry]
    rw [decide_eq_false fun h : name = other => hname h.symm, if_neg hname, hfind]
    rfl

theorem partition?_release (cache : Cache) (name other : String) :
    (cache.release name).partition? other =
      if other = name then none else cache.partition? other := by
  rw [partition?, release, partitions, List.find?_filter]
  by_cases hname : other = name
  · rw [if_pos hname, Option.map_eq_none_iff, List.find?_eq_none]
    intro entry _
    by_cases hentry : entry.1 = other <;> simp_all
  · rw [if_neg hname, partition?]
    congr 2
    funext entry
    by_cases hentry : entry.1 = other
    · simp [hentry, hname]
    · simp [hentry]

theorem Obeys.setPartition (h : cache.Obeys law depth) {partition : Cache}
    (hpartition : partition.Obeys law (depth + 1)) (name : String) :
    (cache.setPartition name partition).Obeys law depth := by
  rw [obeys_iff] at h ⊢
  refine ⟨h.1, ?_⟩
  intro other inner hinner
  rw [partition?_setPartition] at hinner
  split at hinner
  · cases hinner
    exact hpartition
  · exact h.2 other inner hinner

theorem Obeys.claim (h : cache.Obeys law depth) (name : String) :
    (cache.claim name).Obeys law depth := by
  rw [Cache.claim]
  split
  · exact h
  · exact h.setPartition obeys_empty name

theorem Obeys.release (h : cache.Obeys law depth) (name : String) :
    (cache.release name).Obeys law depth := by
  rw [obeys_iff] at h ⊢
  refine ⟨h.1, ?_⟩
  intro other inner hinner
  rw [partition?_release] at hinner
  split at hinner
  · cases hinner
  · exact h.2 other inner hinner

theorem Obeys.insert (h : cache.Obeys law depth) {id : ModuleId} {module : CachedModule}
    (hmodule : law depth id module) : (cache.insert id module).Obeys law depth := by
  rw [obeys_iff] at h ⊢
  refine ⟨?_, h.2⟩
  intro entry hentry
  rw [Cache.insert, modules, List.mem_cons] at hentry
  rcases hentry with rfl | hentry
  · exact hmodule
  · exact h.1 entry (List.mem_filter.mp hentry).1

/-- A change at some depth that preserves the property preserves it from above. -/
theorem Obeys.modifyAt {change : Cache → Cache} {path : List String}
    (hchange : ∀ inner : Cache, inner.Obeys law (depth + path.length) →
      (change inner).Obeys law (depth + path.length))
    (h : cache.Obeys law depth) : (cache.modifyAt change path).Obeys law depth := by
  induction path generalizing cache depth with
  | nil => exact hchange cache h
  | cons name rest ih =>
      rw [Cache.modifyAt]
      split
      · rename_i partition hpartition
        refine h.setPartition (ih ?_ ((obeys_iff.mp h).2 name partition hpartition)) name
        rwa [Nat.add_assoc, Nat.add_comm 1]
      · exact h

/-- A module that is found in a cache was kept there, with the hash it is found by. -/
theorem Obeys.get? {path : List String} {inner : Cache} {id : ModuleId} {hash : Digest}
    {module : CachedModule} (h : cache.Obeys law depth) (hinner : cache.at? path = some inner)
    (hmodule : inner.get? id hash = some module) :
    law (depth + path.length) id module ∧ module.hash = hash := by
  rw [Cache.get?, Option.filter_eq_some_iff] at hmodule
  obtain ⟨hfound, hhash⟩ := hmodule
  rw [Option.map_eq_some_iff] at hfound
  obtain ⟨entry, hentry, rfl⟩ := hfound
  have hid := List.find?_some hentry
  rw [decide_eq_true_eq] at hid hhash
  exact ⟨hid ▸ h path inner hinner entry (List.mem_of_find?_eq_some hentry), hhash⟩

end Cache

/-! ## Sessions -/

namespace Session

variable {law : Cache.Law} {session : Session}

/-- A property holds of all modules that a session keeps. -/
def Obeys (law : Cache.Law) (session : Session) : Prop := session.cache.Obeys law 0

theorem Obeys.claim (h : session.Obeys law) (path : List String) (name : String) :
    (session.claim path name).Obeys law :=
  Cache.Obeys.modifyAt (fun _ hinner => hinner.claim name) h

theorem Obeys.release (h : session.Obeys law) (path : List String) (name : String) :
    (session.release path name).Obeys law :=
  Cache.Obeys.modifyAt (fun _ hinner => hinner.release name) h

theorem Obeys.settle (h : session.Obeys law) : session.settle.Obeys law := by
  rw [Obeys, Session.settle]
  dsimp only
  generalize session.releases = releases
  induction releases generalizing session with
  | nil => exact h
  | cons noted rest ih => exact ih (h.release noted.1 noted.2)

end Session

end WebBundle
