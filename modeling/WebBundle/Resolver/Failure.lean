/-!
# Failed resolutions

Every way in which a request can fail to lead to a file, with its message.
-/

namespace WebBundle.Resolver

/-- Why a request was not resolved. -/
inductive Failure where
  | emptySpecifier (specifier : String)
  | notFound (specifier : String)
  /-- A package asks for nothing to be loaded in place of a file. -/
  | ignored (path : String)
  | notExported (subpath package : String)
  | importNotDefined (specifier package : String)
  | invalidSpecifier (specifier package : String)
  | invalidTarget (target key package : String)
  | mixedKeys (package : String)
  | folderMapping (package : String)
  | invalidPackage (package : String)
  | recursion
  deriving DecidableEq, Repr

namespace Failure

/-- The message of a failure. -/
def message : Failure → String
  | emptySpecifier specifier =>
    "The specifiers must be a non-empty string. Received \"" ++ specifier ++ "\""
  | notFound specifier => "Cannot find module '" ++ specifier ++ "'"
  | ignored path => "Path is ignored " ++ path
  | notExported subpath package =>
    "Package subpath '" ++ subpath ++ "' is not defined by \"exports\" in " ++ package
  | importNotDefined specifier package =>
    "Package import specifier \"" ++ specifier ++ "\" is not defined in package " ++ package
  | invalidSpecifier specifier package =>
    "Invalid module \"" ++ specifier ++
      "\" specifier is not a valid subpath for the \"exports\" resolution of " ++ package
  | invalidTarget target key package =>
    "Invalid \"exports\" target \"" ++ target ++ "\" defined for '" ++ key ++
      "' in the package config " ++ package
  | mixedKeys package =>
    "Invalid package config \"" ++ package ++
      "\", \"exports\" cannot contain some keys starting with '.' and some not. The exports " ++
      "object must either be an object of package subpath keys or an object of main entry " ++
      "condition name keys only."
  | folderMapping package => "Expecting folder to folder mapping. \"" ++ package ++
      "\" should end with \"/\""
  | invalidPackage package => "Invalid package config \"" ++ package ++ "\""
  | recursion => "Recursion in resolving"

/-- Whether the file was left out on purpose. -/
def isIgnored : Failure → Bool
  | ignored _ => true
  | _ => false

end Failure

end WebBundle.Resolver
