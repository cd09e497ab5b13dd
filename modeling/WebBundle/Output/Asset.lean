import WebBundle.Digest
import WebBundle.Filename.Template
import WebBundle.Output.Module
import WebBundle.Text.FileName
import WebBundle.Text.Printable

/-!
# Output of a build

A build gives one chunk for each entry and one file for each module that is
emitted beside them.  Names are made from templates with the name of the entry,
its number, the hash of the whole build and the hash of the content.  A file
that is emitted twice with the same content is kept once.
-/

namespace WebBundle

/-- A file of the output; a chunk is a text. -/
structure Asset where
  filename : String
  content : ByteArray
  isChunk : Bool

namespace Output

/-- The bytes that a module adds to the hash of the build. -/
def hashedModule (module : Module) : List ByteArray :=
  let content := match module.content with
    | .script view => view.source.toUTF8
    | .asset bytes => bytes
  [module.stableId.toUTF8, ⟨#[0]⟩, content, ⟨#[0]⟩]

/-- The bytes whose hash names a build: its modules and the settings that the
code of chunks depends on. -/
def hashedBuild (options : Options) (graph : Graph) : ByteArray :=
  (graph.modules.flatMap hashedModule ++
    [options.globalObject.toUTF8, options.publicPath.toUTF8]).foldl (· ++ ·) ByteArray.empty

/-- The hash of a build. -/
def buildHash (options : Options) (graph : Graph) : String :=
  (Digest.ofBytes (hashedBuild options graph)).toHex

/-- The file that a module is emitted as, if it is. -/
def emittedFile? (options : Options) (module : Module) : Option Asset :=
  module.content.bytes?.map fun bytes =>
    let hash := (Digest.ofBytes bytes).toHex
    let name := Text.sanitizeFileName (Path.representativeName module.id.text)
    let extension := (Path.extension? module.id.text).getD ""
    { filename := Filename.render options.assetFilenames
        ⟨some name, none, some hash, some hash, some extension⟩
      content := bytes
      isChunk := false }

/-- The stable id behind each import record of a module. -/
def targets (graph : Graph) (module : Module) (record : Nat) : String :=
  match module.dependencies[record]?.bind fun number => graph.modules[number]? with
  | some target => target.stableId
  | none => ""

/-- The code of a module. -/
def moduleCode (options : Options) (graph : Graph) (module : Module) : String :=
  match module.content with
  | .script view => scriptCode (targets graph module) view
  | .asset _ =>
    assetCode (((emittedFile? options module).map Asset.filename).getD "") options.wasmLoading

/-- The modules of the chunk of a numbered entry: their stable ids and their code. -/
def table (options : Options) (graph : Graph) (entry : Nat) : List (String × String) :=
  (graph.reachable entry).filterMap fun number =>
    graph.modules[number]?.map fun module => (module.stableId, moduleCode options graph module)

/-- The name of an entry: the one it was given, or the one of its file. -/
def entryName (given : Option String) (entry : Module) : String :=
  match given with
  | some name => name
  | none => Text.sanitizeFileName (Path.representativeName entry.id.text)

/-- The number of directories in a filename. -/
def directoryDepth (filename : String) : Nat := filename.toList.count '/'

/-- The chunk of a numbered entry.  Its name is made in two steps, because the
hash of its content is known only when the code is there. -/
def chunk (options : Options) (graph : Graph) (hash : String)
    (entry : (Option String × Nat) × Nat) : Option Asset :=
  let ((given, number), index) := entry
  graph.modules[number]?.map fun module =>
    let preliminary := Filename.render options.entryFilenames
      ⟨some (entryName given module), some (toString index), some hash, none, some "js"⟩
    let code := chunkCode
      { modules := table options graph number
        entry := module.stableId
        globalObject := options.globalObject
        publicPath := options.publicPath
        depth := directoryDepth preliminary }
    let filename := if Filename.hasContentHash options.entryFilenames then
        Filename.render preliminary ⟨none, none, none, some (Digest.ofText code).toHex, none⟩
      else preliminary
    { filename, content := code.toUTF8, isChunk := true }

/-- The files of a build: its chunks, then the emitted files. -/
def generate (options : Options) (graph : Graph) : List Asset :=
  let hash := buildHash options graph
  graph.entries.zipIdx.filterMap (chunk options graph hash) ++
    graph.modules.filterMap (emittedFile? options)

/-- Files of nested builds in the order of their names. -/
def sortByName (assets : List Asset) : List Asset :=
  assets.mergeSort fun first second => first.filename ≤ second.filename

/-- Whether two files have the same content; a text is never the same as bytes. -/
def hasSameContent (first second : Asset) : Bool :=
  first.isChunk = second.isChunk && first.content.data = second.content.data

/-- The first file that has the name of an earlier one and other content. -/
def conflict? : (kept : List Asset) → List Asset → Option String
  | _, [] => none
  | kept, asset :: rest =>
    match kept.find? fun other => other.filename = asset.filename with
    | some other =>
      if hasSameContent other asset then conflict? kept rest else some asset.filename
    | none => conflict? (kept ++ [asset]) rest

/-- The files with each name kept once, where it comes first. -/
def firstOfEachName : (names : List String) → List Asset → List Asset
  | _, [] => []
  | names, asset :: rest =>
    if names.contains asset.filename then firstOfEachName names rest
    else asset :: firstOfEachName (asset.filename :: names) rest

/-- The message for two different files of one name. -/
def conflictMessage (filename : String) : String :=
  "Multiple files with different content were emitted to the same filename " ++
    Printable.quote filename

/-- The files of the output, or the name of a file that is not unique. -/
def finalize (assets : List Asset) : Except String (List Asset) :=
  match conflict? [] assets with
  | some filename => .error filename
  | none => .ok (firstOfEachName [] assets)

end Output

end WebBundle
