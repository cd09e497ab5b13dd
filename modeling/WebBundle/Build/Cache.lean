import WebBundle.Digest
import WebBundle.Module.Id
import WebBundle.Module.Kind
import WebBundle.Scan.View

/-!
# Caches

A cache keeps the view of every module that was scanned, with the hash of the
source it was scanned from.  It has partitions, which are caches of their own
and are used by nested builds; a partition exists from its first use until it
is released.
-/

namespace WebBundle

/-- A view with what it was made from. -/
structure CachedModule where
  hash : Digest
  kind : ModuleKind
  view : Scan.View

/-- Views of modules, and the partitions by their names. -/
inductive Cache where
  | mk (modules : List (ModuleId × CachedModule)) (partitions : List (String × Cache))
  deriving Inhabited

namespace Cache

/-- A cache in which nothing is kept. -/
def empty : Cache := mk [] []

/-- The kept modules. -/
def modules : Cache → List (ModuleId × CachedModule)
  | mk modules _ => modules

/-- The partitions. -/
def partitions : Cache → List (String × Cache)
  | mk _ partitions => partitions

/-- The number of kept modules. -/
def size (cache : Cache) : Nat := cache.modules.length

/-- The module that is kept under an id, if it was scanned from a source with the
same hash. -/
def get? (cache : Cache) (id : ModuleId) (hash : Digest) : Option CachedModule :=
  ((cache.modules.find? fun entry => entry.1 = id).map Prod.snd).filter fun module =>
    module.hash = hash

/-- Keeps a module in place of the one that was kept under its id. -/
def insert (cache : Cache) (id : ModuleId) (module : CachedModule) : Cache :=
  mk ((id, module) :: cache.modules.filter fun entry => entry.1 ≠ id) cache.partitions

/-- The partition with a name, if it exists. -/
def partition? (cache : Cache) (name : String) : Option Cache :=
  (cache.partitions.find? fun entry => entry.1 = name).map Prod.snd

/-- Puts a cache in the place of a partition. -/
def setPartition (cache : Cache) (name : String) (partition : Cache) : Cache :=
  mk cache.modules ((name, partition) :: cache.partitions.filter fun entry => entry.1 ≠ name)

/-- Makes sure that a partition exists. -/
def claim (cache : Cache) (name : String) : Cache :=
  match cache.partition? name with
  | some _ => cache
  | none => cache.setPartition name empty

/-- Drops a partition with everything in it. -/
def release (cache : Cache) (name : String) : Cache :=
  mk cache.modules (cache.partitions.filter fun entry => entry.1 ≠ name)

/-- The cache behind the names of nested partitions. -/
def at? (cache : Cache) : List String → Option Cache
  | [] => some cache
  | name :: rest => (cache.partition? name).bind fun partition => partition.at? rest

/-- Changes the cache behind the names of nested partitions, if it exists. -/
def modifyAt (change : Cache → Cache) : (path : List String) → Cache → Cache
  | [], cache => change cache
  | name :: rest, cache =>
    match cache.partition? name with
    | some partition => cache.setPartition name (modifyAt change rest partition)
    | none => cache

end Cache

end WebBundle
