import WebBundle.Text.Quoted

/-!
# Chunks

A chunk is one function call that receives the global object.  It holds a table
of modules by their stable ids, the function that runs a module when it is
required first, a few helpers, and at its end the call that requires the entry.
-/

namespace WebBundle.Output

/-- Names that the code of modules uses. -/
structure RuntimeNames where
  require : String := "__houdini_require__"
  publicPath : String := "__houdini_require__.p"
  globalObject : String := "__houdini_require__.g"
  markNamespace : String := "__houdini_require__.r"
  defineGetters : String := "__houdini_require__.e"
  defaultOf : String := "__houdini_require__.d"
  exportAll : String := "__houdini_require__.s"
  compileWasm : String := "__houdini_require__.w"

/-- The names of the runtime. -/
def runtimeNames : RuntimeNames := {}

/-- Lines of code, each ended by a line feed. -/
def codeLines (lines : List String) : String :=
  String.join (lines.map (· ++ "\n"))

/-- The function that requires a module. -/
def requireFunction : List String :=
  ["  function __houdini_require__(id) \x7b",
   "    var cached = __houdini_module_cache__[id];",
   "    if (cached !== undefined) return cached.exports;",
   "    var module = (__houdini_module_cache__[id] = \x7b exports: \x7b\x7d \x7d);",
   "    __houdini_modules__[id].call(module.exports, module, module.exports, __houdini_require__);",
   "    return module.exports;",
   "  \x7d"]

/-- The helpers for namespaces, getters, default imports, star exports and
WebAssembly. -/
def helpers : List String :=
  ["  __houdini_require__.r = function (exports) \x7b",
   "    if (typeof Symbol !== \"undefined\" && Symbol.toStringTag) \x7b",
   "      Object.defineProperty(exports, Symbol.toStringTag, \x7b value: \"Module\" \x7d);",
   "    \x7d",
   "    Object.defineProperty(exports, \"__esModule\", \x7b value: true \x7d);",
   "  \x7d;",
   "  __houdini_require__.e = function (exports, getters) \x7b",
   "    for (var key in getters) \x7b",
   "      if (!Object.prototype.hasOwnProperty.call(exports, key)) \x7b",
   "        Object.defineProperty(exports, key, \x7b enumerable: true, get: getters[key] \x7d);",
   "      \x7d",
   "    \x7d",
   "  \x7d;",
   "  __houdini_require__.d = function (module) \x7b",
   "    return module && module.__esModule ? module[\"default\"] : module;",
   "  \x7d;",
   "  __houdini_require__.s = function (exports, from) \x7b",
   "    Object.keys(from).forEach(function (key) \x7b",
   "      if (key !== \"default\" && !Object.prototype.hasOwnProperty.call(exports, key)) \x7b",
   "        Object.defineProperty(exports, key, \x7b",
   "          enumerable: true,",
   "          get: function () \x7b return from[key]; \x7d",
   "        \x7d);",
   "      \x7d",
   "    \x7d);",
   "  \x7d;",
   "  __houdini_require__.w = function (url) \x7b",
   "    return WebAssembly.compileStreaming(fetch(url));",
   "  \x7d;"]

/-- The start of the function that finds the public path when the chunk runs. -/
def publicPathSearch : List String :=
  ["(function () \x7b",
   "    var script = __houdini_global__.document && __houdini_global__.document.currentScript;",
   "    var location = __houdini_global__.location;",
   "    var url = script ? script.src : (location && location.href) || \"\";"]

/-- What a chunk is made of. -/
structure ChunkParts where
  /-- The stable ids and the functions of the modules. -/
  modules : List (String × String)
  entry : String
  globalObject : String
  publicPath : String
  /-- How many directories the chunk lies below the output directory. -/
  depth : Nat

/-- The expression for the public path: a text, or the directory of the chunk's
own url and the way up from there. -/
def publicPathCode (parts : ChunkParts) : String :=
  if parts.publicPath ≠ "auto" then Quoted.literal parts.publicPath
  else
    let up := String.join (List.replicate parts.depth "../")
    codeLines publicPathSearch ++
      "    return url.replace(/[?#].*$/, \"\").replace(/[^\\/]*$/, \"\") + " ++
      Quoted.literal up ++ ";\n  \x7d)()"

/-- One module in the table. -/
def moduleEntry (entry : String × String) : String :=
  "    " ++ Quoted.literal entry.1 ++ ": " ++ entry.2 ++ ",\n"

/-- The code of a chunk. -/
def chunkCode (parts : ChunkParts) : String :=
  "(function (__houdini_global__) \x7b\n  var __houdini_modules__ = \x7b\n" ++
    String.join (parts.modules.map moduleEntry) ++
    "  \x7d;\n  var __houdini_module_cache__ = \x7b\x7d;\n" ++
    codeLines requireFunction ++
    "  " ++ runtimeNames.publicPath ++ " = " ++ publicPathCode parts ++ ";\n" ++
    "  " ++ runtimeNames.globalObject ++ " = __houdini_global__;\n" ++
    codeLines helpers ++
    "  " ++ runtimeNames.require ++ "(" ++ Quoted.literal parts.entry ++ ");\n" ++
    "\x7d)(" ++ parts.globalObject ++ ");\n"

end WebBundle.Output
