import WebBundle.Json.Document
import WebBundle.Path
import WebBundle.Resolver.Failure

/-!
# Packages

A directory with a package file is a package.  The file names the main files,
says what stands in for its files in a browser, and maps the subpaths that the
package exports, and the names it imports, to targets.  A target depends on the
conditions that hold.
-/

namespace WebBundle.Resolver

/-- A directory with its package file. -/
structure Package where
  directory : String
  json : Json

namespace Package

/-- The path of the package file. -/
def file (package : Package) : String := Path.join package.directory "package.json"

/-- A field of the package file. -/
def field? (package : Package) (key : String) : Option Json := package.json.member? key

/-- A path continued within a directory; an absolute path stands alone. -/
def within (directory path : String) : String :=
  if Path.isAbsolute path then path else Path.ofNames (Path.namesFrom (Path.names directory) path)

/-- The name of the package. -/
def name? (package : Package) : Option String := (package.field? "name").bind Json.string?

/-- The main files that the given fields name. -/
def mainFiles (package : Package) (fields : List String) : List String :=
  fields.filterMap fun field => (package.field? field).bind Json.string?

/-- What is put in the place of a file or of a request. -/
def replacement (place : String) : Json → Except Failure (Option String)
  | .string value => .ok value
  | .bool false => .error (.ignored place)
  | _ => .ok none

/-- The members of the browser map. -/
def browserMap (package : Package) : List (String × Json) :=
  match package.field? "browser" with
  | some (.object members) => members.filterMap fun (key, value) => key.map (·, value)
  | _ => []

/-- What the browser map puts in the place of a file. -/
def fileReplacement (package : Package) (path : String) : Except Failure (Option String) :=
  match package.browserMap.find? fun (key, _) => within package.directory key = path with
  | some (_, value) => replacement path value
  | none => .ok none

/-- What the browser map puts in the place of a request from a directory. -/
def requestReplacement (package : Package) (directory request : String) :
    Except Failure (Option String) :=
  match package.browserMap.find? fun (key, _) => key = request with
  | some (_, value) => replacement directory value
  | none => .ok none

end Package

/-! ## Targets of exports and imports -/

/-- What a subpath or an import is mapped to. -/
inductive Target where
  | path (path : String)
  /-- A request for another package. -/
  | request (specifier : String)
  deriving DecidableEq, Repr

/-- A map of a package, and the key that was matched. -/
structure Matched where
  package : Package
  isImport : Bool
  key : String
  /-- What the pattern of the key stands for. -/
  wildcard : Option (List Char)
  conditions : List String

namespace Matched

/-- A target with the matched text in place of every `*`; a directory target
continues with the matched text. -/
def expand (matched : Matched) (target : String) : Except Failure String :=
  match matched.wildcard with
  | none => .ok target
  | some wildcard =>
    if matched.key.toList.contains '*' || target.toList.contains '*' then
      .ok (String.ofList (target.toList.flatMap fun c => if c = '*' then wildcard else [c]))
    else if matched.key.toList.getLast? = some '/' && target.toList.getLast? = some '/' then
      .ok (target ++ String.ofList wildcard)
    else .error (.folderMapping matched.package.file)

/-- Whether a target leaves its package. -/
def leavesPackage (target : String) : Bool :=
  (Path.components target).zipIdx.any fun (component, index) =>
    match component with
    | .parent => true
    | .current => 0 < index
    | .normal name => name.toLower = "node_modules"
    | .root => false

/-- The target that a text stands for. -/
def textTarget (matched : Matched) (target : String) : Except Failure (Option Target) :=
  let invalid (target : String) : Failure :=
    .invalidTarget target matched.key matched.package.file
  if target.startsWith "./" then do
    let expanded ← matched.expand target
    if leavesPackage expanded then throw (invalid expanded)
    return some (.path (Package.within matched.package.directory expanded))
  else if !matched.isImport || target.startsWith "../" || target.startsWith "/" then
    throw (invalid target)
  else do
    return some (.request (← matched.expand target))

mutual

/-- The target of a mapped value under the conditions that hold. -/
def target (matched : Matched) : Json → Except Failure (Option Target)
  | .string (some text) => matched.textTarget text
  | .object members => matched.conditionalTarget members
  | .array [] =>
    .error (.notExported ((matched.wildcard.map String.ofList).getD ".") matched.package.file)
  | .array items => .ok (matched.firstTarget items)
  | _ => .ok none

/-- The target of the first condition that holds and has one. -/
def conditionalTarget (matched : Matched) :
    List (Option String × Json) → Except Failure (Option Target)
  | [] => .ok none
  | (key, value) :: rest =>
    if key = some "default" || matched.conditions.any fun condition => key = some condition then
      match matched.target value with
      | .error failure => .error failure
      | .ok (some target) => .ok (some target)
      | .ok none => matched.conditionalTarget rest
    else matched.conditionalTarget rest

/-- The first target of several values; those without one are skipped. -/
def firstTarget (matched : Matched) : List Json → Option Target
  | [] => none
  | value :: rest =>
    match matched.target value with
    | .ok (some target) => some target
    | _ => matched.firstTarget rest

end

end Matched

/-- Whether a key is more specific than another one: its fixed start is longer,
or as long and the key is longer. -/
def isMoreSpecific (key other : List Char) : Bool :=
  let start (key : List Char) : Nat :=
    if key.contains '*' then (key.takeWhile (· ≠ '*')).length + 1 else key.length
  if start key ≠ start other then start other < start key
  else if !other.contains '*' then true
  else if !key.contains '*' then false
  else other.length < key.length

/-- What a key with a pattern, or the key of a directory, leaves of a name. -/
def wildcardOf? (key name : List Char) : Option (List Char) :=
  let isPattern := match key with
    | '.' :: '/' :: _ | '#' :: _ => true
    | _ => false
  if !isPattern then none
  else if key.contains '*' then
    let start := key.takeWhile (· ≠ '*')
    let trailer := (key.dropWhile (· ≠ '*')).drop 1
    let fits := start.isPrefixOf name && !trailer.contains '*' &&
      (trailer.isEmpty || (key.length ≤ name.length && trailer.isSuffixOf name))
    if fits then some ((name.drop start.length).take (name.length - start.length - trailer.length))
    else none
  else if key.getLast? = some '/' && key.isPrefixOf name then some (name.drop key.length)
  else none

/-- The most specific key of a map that fits a name, with its value and what the
pattern leaves. -/
def bestKey? (name : List Char) (members : List (Option String × Json)) :
    Option (String × Json × List Char) :=
  members.foldl (fun best (key, value) =>
    match key with
    | none => best
    | some key =>
      match wildcardOf? key.toList name with
      | none => best
      | some wildcard =>
        match best with
        | none => some (key, value, wildcard)
        | some (bestKey, _, _) =>
          if isMoreSpecific key.toList bestKey.toList then some (key, value, wildcard) else best)
    none

namespace Package

/-- The target of a name in a map of the package. -/
def mapped (package : Package) (isImport : Bool) (conditions : List String) (name : String)
    (map : Json) : Except Failure (Option Target) :=
  match map with
  | .object members =>
    if name.toList.getLast? = some '/' then .ok none
    else
      let exact := if name.toList.contains '*' then none else map.member? name
      match exact with
      | some value => ({ package, isImport, key := name, wildcard := none, conditions } :
          Matched).target value
      | none =>
        match bestKey? name.toList members with
        | some (key, value, wildcard) =>
          ({ package, isImport, key, wildcard := some wildcard, conditions } : Matched).target value
        | none => .ok none
  | _ => .ok none

/-- The value that is exported for the package itself. -/
def mainExport? (map : Json) : Option Json :=
  match map with
  | .string _ | .array _ => some map
  | .object members =>
    match map.member? "." with
    | some value => some value
    | none =>
      let isPath (key : Option String) : Bool := match key with
        | some key => key.startsWith "./" || key.startsWith "#"
        | none => false
      if members.any fun member => isPath member.1 then none else some map
  | _ => none

/-- Whether a map mixes subpaths with conditions. -/
def mixesKeys : Json → Bool
  | .object members =>
    let isPath (key : Option String) : Bool := match key with
      | some key => key.startsWith "." || key.startsWith "#"
      | none => false
    (members.any fun member => isPath member.1) && members.any fun member => !isPath member.1
  | _ => false

/-- The target of an exported subpath.  A query or a fragment behind the package
itself makes it another subpath, which is not exported. -/
def exported (package : Package) (conditions : List String) (subpath ending : String)
    (map : Json) : Except Failure Target :=
  if mixesKeys map then .error (.mixedKeys package.file)
  else if subpath = "." && ending ≠ "" then .error (.notExported ("./" ++ ending) package.file)
  else do
    let main ← if subpath = "." then
        match mainExport? map with
        | some value => ({ package, isImport := false, key := ".", wildcard := none, conditions } :
            Matched).target value
        | none => pure none
      else pure none
    match main with
    | some target => return target
    | none =>
      match ← package.mapped false conditions subpath map with
      | some target => return target
      | none => throw (.notExported subpath package.file)

end Package

end WebBundle.Resolver
