import WebBundle.Build.Cache
import WebBundle.Diagnostics
import WebBundle.Plugin.Basic

/-!
# Sessions

A build and the builds that are nested in it share a session: the diagnostics,
the cache and what the plugins remember.  A build that was cancelled while it
waited gives its partition back only when the whole session comes to rest, so
such releases are noted and done at the end.
-/

namespace WebBundle

/-- What the builds of one session share. -/
structure Session where
  cache : Cache := .empty
  diagnostics : Diagnostics := {}
  plugins : PluginMemory := {}
  /-- Partitions to release at the end: where they are and what they are called. -/
  releases : List (List String × String) := []
  deriving Inhabited

namespace Session

/-- Adds a warning. -/
def warn (session : Session) (warning : Report) : Session :=
  { session with diagnostics := session.diagnostics.warn warning }

/-- Makes sure that a partition exists. -/
def claim (session : Session) (path : List String) (name : String) : Session :=
  { session with cache := session.cache.modifyAt (·.claim name) path }

/-- Releases a partition. -/
def release (session : Session) (path : List String) (name : String) : Session :=
  { session with cache := session.cache.modifyAt (·.release name) path }

/-- Notes a partition that is released at the end. -/
def releaseLater (session : Session) (path : List String) (name : String) : Session :=
  { session with releases := session.releases ++ [(path, name)] }

/-- Does the releases that were noted. -/
def settle (session : Session) : Session :=
  { session.releases.foldl (fun session (path, name) => session.release path name) session with
    releases := [] }

end Session

end WebBundle
