import WebBundle.Proofs.Filename.Depth
import WebBundle.Proofs.Output.Chunks

/-!
# What the hash of a build covers

The hash of a build is taken of the stable ids and the contents of its modules, each with a
NUL behind it, and of two settings with nothing between them.  If the parts hold no NULs, they
can be read back from these bytes.  The code of a chunk depends on them, and on more: on where
imports lead, how sources are edited, what emitted files are called and how they are loaded.
If these agree as well, builds with equal bytes render equal chunks.
-/

namespace WebBundle

/-! ## Walks -/

theorem Graph.walk_congr {graph other : Graph}
    (hdependencies : ∀ number, graph.dependenciesOf number = other.dependenciesOf number)
    (visited stack : List Nat) : graph.walk visited stack = other.walk visited stack := by
  induction visited, stack using walk.induct graph with
  | case1 visited => rw [walk, walk]
  | case2 visited number rest hvisited ih => rw [walk, walk, if_pos hvisited, if_pos hvisited, ih]
  | case3 visited number rest hvisited ih =>
      rw [walk, walk, if_neg hvisited, if_neg hvisited, ih, hdependencies]

namespace Output

open Scan

variable {first second : Options} {graph other : Graph}

/-! ## Bytes -/

/-- The bytes of a module that are hashed besides its stable id. -/
def contentBytes (module : Module) : ByteArray :=
  match module.content with
  | .script view => view.source.toUTF8
  | .asset bytes => bytes

/-- What is hashed of a module, as one text. -/
def hashedBytes (module : Module) : List UInt8 :=
  module.stableId.toUTF8.data.toList ++ 0 :: ((contentBytes module).data.toList ++ [0])

theorem toList_foldl_append (parts : List ByteArray) (start : ByteArray) :
    (parts.foldl (· ++ ·) start).data.toList =
      start.data.toList ++ parts.flatMap fun part => part.data.toList := by
  induction parts generalizing start with
  | nil => simp
  | cons part rest ih => simp [ih]

theorem flatMap_hashedModule (module : Module) :
    ((hashedModule module).flatMap fun part => part.data.toList) = hashedBytes module := by
  rw [hashedModule, hashedBytes, contentBytes]
  cases module.content <;> simp

theorem toList_hashedBuild (options : Options) (graph : Graph) :
    (hashedBuild options graph).data.toList = graph.modules.flatMap hashedBytes ++
      (options.globalObject.toUTF8.data.toList ++ options.publicPath.toUTF8.data.toList) := by
  rw [hashedBuild, toList_foldl_append, List.flatMap_append, List.flatMap_assoc]
  simp only [flatMap_hashedModule]
  simp

theorem hashedBuild_congr
    (hmodules : graph.modules.map hashedBytes = other.modules.map hashedBytes)
    (hglobal : first.globalObject = second.globalObject)
    (hpublic : first.publicPath = second.publicPath) :
    hashedBuild first graph = hashedBuild second other := by
  apply ByteArray.ext
  apply Array.toList_inj.mp
  rw [toList_hashedBuild, toList_hashedBuild, List.flatMap, List.flatMap, hmodules, hglobal,
    hpublic]

/-- What stands in front of the first NUL can be read back. -/
theorem append_nul_inj {start others rest more : List UInt8} (hstart : 0 ∉ start)
    (hothers : 0 ∉ others) (h : start ++ 0 :: rest = others ++ 0 :: more) :
    start = others ∧ rest = more := by
  induction start generalizing others with
  | nil =>
      cases others with
      | nil => exact ⟨rfl, (List.cons.inj h).2⟩
      | cons byte others => exact absurd (List.cons.inj h).1 (List.ne_of_not_mem_cons hothers)
  | cons byte start ih =>
      cases others with
      | nil => exact absurd (List.cons.inj h).1.symm (List.ne_of_not_mem_cons hstart)
      | cons next others =>
          obtain ⟨rfl, htail⟩ := List.cons.inj h
          obtain ⟨rfl, hrest⟩ := ih (List.not_mem_of_not_mem_cons hstart)
            (List.not_mem_of_not_mem_cons hothers) htail
          exact ⟨rfl, hrest⟩

/-! ## What is not hashed -/

/-- What the code of a module depends on and the hash of its build leaves out: where its imports
lead, how its source is edited, what its file is called, and how long the file is. -/
structure Unhashed where
  dependencies : List Nat
  view : Option View
  file : Option (String × Nat)

/-- What is not hashed of a module. -/
def unhashed (options : Options) (module : Module) : Unhashed where
  dependencies := module.dependencies
  view := module.content.view?.map fun view => { view with source := "" }
  file := (emittedFile? options module).map fun file => (file.filename, file.content.size)

/-- Two builds agree on what is not hashed. -/
structure SameUnhashed (first : Options) (graph : Graph) (second : Options) (other : Graph) :
    Prop where
  wasmLoading : first.wasmLoading = second.wasmLoading
  globalObject : first.globalObject.toUTF8.size = second.globalObject.toUTF8.size
  modules : ∀ {number : Nat} {module target : Module}, graph.modules[number]? = some module →
    other.modules[number]? = some target → unhashed first module = unhashed second target

/-- A module whose hashed texts hold no NUL. -/
structure IsFramed (module : Module) : Prop where
  stableId : 0 ∉ module.stableId.toUTF8.data.toList
  source : ∀ view, module.content = .script view → 0 ∉ view.source.toUTF8.data.toList

/-- A build whose hashed texts hold no NUL. -/
structure Framed (options : Options) (graph : Graph) : Prop where
  modules : ∀ module ∈ graph.modules, IsFramed module
  globalObject : 0 ∉ options.globalObject.toUTF8.data.toList
  publicPath : 0 ∉ options.publicPath.toUTF8.data.toList

theorem Framed.settings {options : Options} (h : Framed options graph) :
    0 ∉ options.globalObject.toUTF8.data.toList ++ options.publicPath.toUTF8.data.toList :=
  fun hnul => (List.mem_append.mp hnul).elim h.globalObject h.publicPath

/-! ## Reading the bytes back -/

theorem content_of_unhashed {module target : Module} (hmodule : IsFramed module)
    (htarget : IsFramed target) (hrest : unhashed first module = unhashed second target)
    {rest more : List UInt8}
    (h : (contentBytes module).data.toList ++ 0 :: rest =
      (contentBytes target).data.toList ++ 0 :: more) :
    (contentBytes module).data.toList = (contentBytes target).data.toList ∧ rest = more := by
  have hview := congrArg Unhashed.view hrest
  have hfile := congrArg Unhashed.file hrest
  rw [contentBytes, contentBytes] at h ⊢
  cases hcontent : module.content with
  | script view =>
      cases hother : target.content with
      | script next =>
          simp only [hcontent, hother] at h ⊢
          exact append_nul_inj (hmodule.source view hcontent) (htarget.source next hother) h
      | asset bytes => simp [unhashed, hcontent, hother, ModuleContent.view?] at hview
  | asset bytes =>
      cases hother : target.content with
      | script next => simp [unhashed, hcontent, hother, ModuleContent.view?] at hview
      | asset others =>
          have hsize : bytes.size = others.size := by
            simp [unhashed, emittedFile?, hcontent, hother, ModuleContent.bytes?] at hfile
            exact hfile.2
          simp only [hcontent, hother] at h ⊢
          obtain ⟨hbytes, htail⟩ := List.append_inj h (by simpa using hsize)
          exact ⟨hbytes, (List.cons.inj htail).2⟩

/-- The hashed parts of the modules are read back from the bytes in front of the settings. -/
theorem modules_of_hashedBytes {modules others : List Module}
    (hmodules : ∀ module ∈ modules, IsFramed module) (hothers : ∀ module ∈ others, IsFramed module)
    (hrest : ∀ {number : Nat} {module target : Module}, modules[number]? = some module →
      others[number]? = some target → unhashed first module = unhashed second target)
    {rest more : List UInt8} (hend : 0 ∉ rest) (hmore : 0 ∉ more)
    (h : modules.flatMap hashedBytes ++ rest = others.flatMap hashedBytes ++ more) :
    List.Forall₂ (fun module target => module.stableId.toUTF8.data.toList =
        target.stableId.toUTF8.data.toList ∧
      (contentBytes module).data.toList = (contentBytes target).data.toList) modules others ∧
      rest = more := by
  induction modules generalizing others with
  | nil =>
      cases others with
      | nil => exact ⟨.nil, h⟩
      | cons target others =>
          -- The other build hashes a module, so it has a NUL where this one has none.
          refine absurd ?_ hend
          rw [List.flatMap_nil, List.nil_append] at h
          simp [h, hashedBytes]
  | cons module modules ih =>
      cases others with
      | nil =>
          refine absurd ?_ hmore
          rw [List.flatMap_nil, List.nil_append] at h
          simp [← h, hashedBytes]
      | cons target others =>
          obtain ⟨hmodule, hmodules⟩ := List.forall_mem_cons.mp hmodules
          obtain ⟨htarget, hothers⟩ := List.forall_mem_cons.mp hothers
          simp only [List.flatMap_cons, hashedBytes, List.append_assoc, List.cons_append,
            List.nil_append] at h
          obtain ⟨hid, hcontent⟩ := append_nul_inj hmodule.stableId htarget.stableId h
          obtain ⟨hbytes, htail⟩ := content_of_unhashed hmodule htarget
            (@hrest 0 module target rfl rfl) hcontent
          obtain ⟨hsame, hsettings⟩ := ih hmodules hothers
            (fun hmodule htarget => @hrest (_ + 1) _ _ hmodule htarget) htail
          exact ⟨.cons ⟨hid, hbytes⟩ hsame, hsettings⟩

theorem eq_of_utf8 {text other : String}
    (h : text.toUTF8.data.toList = other.toUTF8.data.toList) : text = other := by
  apply String.toByteArray_inj.mp
  apply ByteArray.ext
  exact Array.toList_inj.mp h

theorem view_eq_of_source {view other : View} (hsource : view.source = other.source)
    (hrest : ({ view with source := "" } : View) = { other with source := "" }) : view = other := by
  cases view
  cases other
  cases hsource
  simpa using hrest

/-! ## Equal chunks -/

/-- Two modules that agree on all that their code depends on, apart from the targets of their
imports and from the way in which files are loaded. -/
structure SameModule (first second : Options) (module target : Module) : Prop where
  stableId : module.stableId = target.stableId
  content : (contentBytes module).data.toList = (contentBytes target).data.toList
  unhashed : unhashed first module = unhashed second target

/-- Two builds that agree on all that their chunks depend on. -/
structure SameBuild (first : Options) (graph : Graph) (second : Options) (other : Graph) :
    Prop where
  wasmLoading : first.wasmLoading = second.wasmLoading
  globalObject : first.globalObject = second.globalObject
  publicPath : first.publicPath = second.publicPath
  modules : List.Forall₂ (SameModule first second) graph.modules other.modules

/-- Builds with the same hashed bytes agree on everything if they agree on what is not hashed. -/
theorem sameBuild_of_hashedBuild (hfirst : Framed first graph) (hsecond : Framed second other)
    (hrest : SameUnhashed first graph second other)
    (hbytes : hashedBuild first graph = hashedBuild second other) :
    SameBuild first graph second other := by
  have hlists := congrArg (fun bytes : ByteArray => bytes.data.toList) hbytes
  simp only [toList_hashedBuild] at hlists
  obtain ⟨hmodules, hsettings⟩ := modules_of_hashedBytes hfirst.modules hsecond.modules
    hrest.modules hfirst.settings hsecond.settings hlists
  obtain ⟨hglobal, hpublic⟩ := List.append_inj hsettings (by simpa using hrest.globalObject)
  refine ⟨hrest.wasmLoading, eq_of_utf8 hglobal, eq_of_utf8 hpublic, ?_⟩
  apply List.forall₂_iff_get.mpr
  obtain ⟨hlength, hsame⟩ := List.forall₂_iff_get.mp hmodules
  refine ⟨hlength, ?_⟩
  intro number hmodule htarget
  obtain ⟨hid, hcontent⟩ := hsame number hmodule htarget
  exact ⟨eq_of_utf8 hid, hcontent, hrest.modules (List.getElem?_eq_getElem hmodule)
    (List.getElem?_eq_getElem htarget)⟩

namespace SameBuild

variable (h : SameBuild first graph second other)
include h

theorem getElem? (number : Nat) :
    (graph.modules[number]? = none ∧ other.modules[number]? = none) ∨
      ∃ module target, graph.modules[number]? = some module ∧
        other.modules[number]? = some target ∧ SameModule first second module target := by
  obtain ⟨hlength, hsame⟩ := List.forall₂_iff_get.mp h.modules
  by_cases hnumber : number < graph.modules.length
  · have hother : number < other.modules.length := hlength ▸ hnumber
    exact .inr ⟨_, _, List.getElem?_eq_getElem hnumber, List.getElem?_eq_getElem hother,
      hsame number hnumber hother⟩
  · rw [List.getElem?_eq_none (Nat.le_of_not_lt hnumber),
      List.getElem?_eq_none (hlength ▸ Nat.le_of_not_lt hnumber)]
    exact .inl ⟨rfl, rfl⟩

theorem reachable (entry : Nat) : graph.reachable entry = other.reachable entry := by
  rw [Graph.reachable, Graph.reachable, Graph.walk_congr]
  intro number
  rw [Graph.dependenciesOf, Graph.dependenciesOf]
  rcases h.getElem? number with ⟨hnone, hother⟩ | ⟨module, target, hmodule, htarget, hsame⟩
  · rw [hnone, hother]
  · rw [hmodule, htarget]
    exact congrArg Unhashed.dependencies hsame.unhashed

theorem targets {module target : Module} (hsame : SameModule first second module target) :
    targets graph module = targets other target := by
  funext record
  have hdependencies : module.dependencies = target.dependencies :=
    congrArg Unhashed.dependencies hsame.unhashed
  rw [Output.targets, Output.targets, hdependencies]
  cases target.dependencies[record]? with
  | none => rfl
  | some number =>
      rcases h.getElem? number with ⟨hnone, hother⟩ | ⟨module, target, hmodule, htarget, hsame⟩
      · simp only [Option.bind_some, hnone, hother]
      · simp only [Option.bind_some, hmodule, htarget, hsame.stableId]

theorem moduleCode {module target : Module} (hsame : SameModule first second module target) :
    moduleCode first graph module = moduleCode second other target := by
  have hcontent := hsame.content
  have hview := congrArg Unhashed.view hsame.unhashed
  have hfile := congrArg (fun rest => rest.file.map Prod.fst) hsame.unhashed
  simp only [unhashed, Option.map_map, Function.comp_def] at hview hfile
  rw [contentBytes, contentBytes] at hcontent
  rw [Output.moduleCode, Output.moduleCode]
  cases hscript : module.content with
  | script view =>
      cases hother : target.content with
      | script next =>
          simp only [hscript, hother, ModuleContent.view?, Option.map_some, Option.some.injEq]
            at hcontent hview ⊢
          rw [h.targets hsame, view_eq_of_source (eq_of_utf8 hcontent) hview]
      | asset bytes => simp [hscript, hother, ModuleContent.view?] at hview
  | asset bytes =>
      cases hother : target.content with
      | script next => simp [hscript, hother, ModuleContent.view?] at hview
      | asset others =>
          simp only
          rw [h.wasmLoading]
          congr 2

theorem table (entry : Nat) : table first graph entry = table second other entry := by
  rw [Output.table, Output.table, h.reachable]
  apply List.filterMap_congr
  intro number _
  rcases h.getElem? number with ⟨hnone, hother⟩ | ⟨module, target, hmodule, htarget, hsame⟩
  · simp only [hnone, hother, Option.map_none]
  · simp only [hmodule, htarget, Option.map_some, hsame.stableId, h.moduleCode hsame]

end SameBuild

theorem directoryDepth_withContentHash (template preliminary code : String) :
    directoryDepth (if Filename.hasContentHash template then
      Filename.render preliminary ⟨none, none, none, some (Digest.ofText code).toHex, none⟩
      else preliminary) = directoryDepth preliminary := by
  by_cases hhash : Filename.hasContentHash template = true
  · rw [if_pos hhash]
    exact Filename.directoryDepth_render_contentHash _ (Digest.slash_notMem_toHex _)
  · rw [if_neg hhash]

/-- What the chunk of an entry holds. -/
theorem content_of_chunk {options : Options} {hash : String} {given : Option String}
    {number index : Nat} {asset : Asset}
    (hchunk : chunk options graph hash ((given, number), index) = some asset) :
    ∃ module, graph.modules[number]? = some module ∧
      asset.content = (chunkCode ⟨table options graph number, module.stableId,
        options.globalObject, options.publicPath, directoryDepth asset.filename⟩).toUTF8 := by
  rw [chunk, Option.map_eq_some_iff] at hchunk
  obtain ⟨module, hmodule, hasset⟩ := hchunk
  refine ⟨module, hmodule, ?_⟩
  rw [← hasset, directoryDepth_withContentHash]

theorem exists_chunk {number : Nat} {module : Module}
    (hmodule : graph.modules[number]? = some module) (options : Options) (hash : String)
    (given : Option String) (index : Nat) :
    ∃ asset, chunk options graph hash ((given, number), index) = some asset := by
  simp only [chunk, hmodule, Option.map_some]
  exact ⟨_, rfl⟩

/-- How deep a chunk lies counts only if it looks for the public path. -/
theorem publicPathCode_congr {rows : List (String × String)}
    {entry globalObject publicPath : String} {depth other : Nat}
    (hdepth : publicPath = "auto" → depth = other) :
    publicPathCode ⟨rows, entry, globalObject, publicPath, depth⟩ =
      publicPathCode ⟨rows, entry, globalObject, publicPath, other⟩ := by
  unfold publicPathCode
  dsimp only
  by_cases hauto : publicPath = "auto"
  · rw [hdepth hauto]
  · rw [if_pos hauto, if_pos hauto]

theorem chunkCode_congr {rows : List (String × String)} {entry globalObject publicPath : String}
    {depth other : Nat} (hdepth : publicPath = "auto" → depth = other) :
    chunkCode ⟨rows, entry, globalObject, publicPath, depth⟩ =
      chunkCode ⟨rows, entry, globalObject, publicPath, other⟩ := by
  have hpath := @publicPathCode_congr rows entry globalObject publicPath depth other hdepth
  unfold chunkCode
  dsimp only
  generalize publicPathCode ⟨rows, entry, globalObject, publicPath, depth⟩ = path at hpath ⊢
  rw [hpath]

/-- Two builds whose hashed bytes are equal give the entries of one stable id the same code, if
the hashed texts hold no NUL and the builds agree on what is not hashed: where imports lead, how
sources are edited, how long emitted files are, what they are called and how they are loaded, how
long the name of the global object is and, if a chunk looks for the public path, how deep it
lies. -/
theorem chunk_eq_of_hashedBuild (hfirst : Framed first graph) (hsecond : Framed second other)
    (hrest : SameUnhashed first graph second other)
    (hbytes : hashedBuild first graph = hashedBuild second other)
    (hapart : (graph.modules.map Module.stableId).Nodup)
    {number entry : Nat} (hentry : graph.modules[number]?.map Module.stableId =
      other.modules[entry]?.map Module.stableId)
    {hash digest : String} {given name : Option String} {index position : Nat} {asset file : Asset}
    (hasset : chunk first graph hash ((given, number), index) = some asset)
    (hfile : chunk second other digest ((name, entry), position) = some file)
    (hdepth : first.publicPath = "auto" →
      directoryDepth asset.filename = directoryDepth file.filename) :
    asset.content = file.content := by
  have hsame := sameBuild_of_hashedBuild hfirst hsecond hrest hbytes
  obtain ⟨module, hmodule, hcontent⟩ := content_of_chunk hasset
  obtain ⟨target, htarget, hother⟩ := content_of_chunk hfile
  have hnumber : number = entry := by
    rcases hsame.getElem? entry with ⟨_, hnone⟩ | ⟨twin, _, htwin, hfound, hids⟩
    · rw [htarget] at hnone
      cases hnone
    · rw [hmodule, hfound, Option.map_some, Option.map_some, ← hids.stableId] at hentry
      have hless : number < (graph.modules.map Module.stableId).length := by
        rw [List.length_map]
        exact (List.getElem?_eq_some_iff.mp hmodule).1
      apply (List.getElem?_inj hless hapart).mp
      rw [List.getElem?_map, List.getElem?_map, hmodule, htwin, Option.map_some,
        Option.map_some, hentry]
  subst hnumber
  rw [hmodule, htarget, Option.map_some, Option.map_some, Option.some.injEq] at hentry
  rw [hcontent, hother, hentry, hsame.table, hsame.globalObject, ← hsame.publicPath]
  exact congrArg String.toUTF8 (chunkCode_congr hdepth)

end Output

namespace World

open Output

/-- The options of another build of these modules, which names its output differently. -/
def renamedCircle : Options :=
  { forCircle.options with entryFilenames := "[name]-[hash].js", directory := "out" }

set_option maxRecDepth 10000 in
/-- Under both names the chunk has the same code. -/
theorem chunk_eq_of_hashedBuild_circle :
    ∃ graph last asset file,
      (forCircle.world circle).scanStage 3 forCircle.start = some (.ok (graph, last)) ∧
      chunk forCircle.options graph (buildHash forCircle.options graph) ((none, 0), 0) =
        some asset ∧
      chunk renamedCircle graph (buildHash renamedCircle graph) ((some "n", 0), 1) = some file ∧
      asset.content = file.content := by
  have hcases : ((forCircle.world circle).scanStage 3 forCircle.start).any (fun stage =>
      stage.toOption.any fun found =>
        decide ((found.1.modules.map Module.stableId).Nodup) &&
          found.1.modules[0]?.isSome &&
          found.1.modules.all fun module =>
            decide (0 ∉ module.stableId.toUTF8.data.toList) &&
              module.content.view?.all fun view =>
                decide (0 ∉ view.source.toUTF8.data.toList)) = true := by
    decide +kernel
  obtain ⟨stage, hstage, hfound⟩ := (Option.any_eq_true _ _).mp hcases
  cases stage with
  | error ended => cases hfound
  | ok found =>
      obtain ⟨graph, last⟩ := found
      simp only [Except.toOption, Option.any_some, Bool.and_eq_true, decide_eq_true_eq,
        List.all_eq_true, Option.isSome_iff_exists] at hfound
      obtain ⟨⟨hnodup, module, hmodule⟩, hplain⟩ := hfound
      have hmodules : ∀ module ∈ graph.modules, IsFramed module := by
        intro module hmodule
        obtain ⟨hid, hsource⟩ := hplain module hmodule
        refine ⟨hid, ?_⟩
        intro view hview
        rw [hview] at hsource
        exact of_decide_eq_true hsource
      obtain ⟨asset, hasset⟩ := exists_chunk hmodule forCircle.options
        (buildHash forCircle.options graph) none 0
      obtain ⟨file, hfile⟩ := exists_chunk hmodule renamedCircle
        (buildHash renamedCircle graph) (some "n") 1
      refine ⟨graph, last, asset, file, hstage, hasset, hfile, ?_⟩
      have hrest : SameUnhashed forCircle.options graph renamedCircle graph := by
        refine ⟨rfl, rfl, ?_⟩
        rintro number module target hmodule htarget
        rw [hmodule, Option.some.injEq] at htarget
        rw [htarget]
        rfl
      exact chunk_eq_of_hashedBuild ⟨hmodules, by decide +kernel, by decide +kernel⟩
        ⟨hmodules, by decide +kernel, by decide +kernel⟩ hrest (hashedBuild_congr rfl rfl rfl)
        hnodup rfl hasset hfile (fun hauto => absurd hauto (by decide))

/-- A bundler whose entry is an emitted file. -/
def forFile (loading : WasmLoading) : Bundler :=
  .fresh { input := [⟨none, "./w.wasm"⟩], workingDirectory := "/p"
           entryFilenames := "[name]-[hash].js", assetFilenames := "[name].[ext]"
           wasmLoading := loading } [] []

set_option maxRecDepth 10000 in
/-- The way in which files are loaded is not hashed: two builds have the same hash and different
code. -/
theorem hash_misses_loading :
    ∃ graph other last reached asset file,
      ((forFile .fetch).world circle).scanStage 2 (forFile .fetch).start =
        some (.ok (graph, last)) ∧
      ((forFile .none).world circle).scanStage 2 (forFile .none).start =
        some (.ok (other, reached)) ∧
      hashedBuild (forFile .fetch).options graph = hashedBuild (forFile .none).options other ∧
      graph.modules[0]?.map Module.stableId = other.modules[0]?.map Module.stableId ∧
      chunk (forFile .fetch).options graph (buildHash (forFile .fetch).options graph)
        ((none, 0), 0) = some asset ∧
      chunk (forFile .none).options other (buildHash (forFile .none).options other)
        ((none, 0), 0) = some file ∧
      asset.content ≠ file.content := by
  have hcases : (((forFile .fetch).world circle).scanStage 2 (forFile .fetch).start).any
      (fun stage => stage.toOption.any fun found =>
        (((forFile .none).world circle).scanStage 2 (forFile .none).start).any
          fun stage => stage.toOption.any fun given =>
            decide (found.1.modules.map hashedBytes = given.1.modules.map hashedBytes) &&
              decide (found.1.modules[0]?.map Module.stableId =
                given.1.modules[0]?.map Module.stableId) &&
              (chunk (forFile .fetch).options found.1
                (buildHash (forFile .fetch).options found.1) ((none, 0), 0)).any fun asset =>
                (chunk (forFile .none).options given.1
                  (buildHash (forFile .none).options given.1) ((none, 0), 0)).any fun file =>
                    decide (asset.content.size ≠ file.content.size)) = true := by
    decide +kernel
  obtain ⟨stage, hstage, hfound⟩ := (Option.any_eq_true _ _).mp hcases
  cases stage with
  | error ended => cases hfound
  | ok found =>
      obtain ⟨graph, last⟩ := found
      rw [Except.toOption, Option.any_some] at hfound
      obtain ⟨next, hnext, hgiven⟩ := (Option.any_eq_true _ _).mp hfound
      cases next with
      | error ended => cases hgiven
      | ok given =>
          obtain ⟨other, reached⟩ := given
          simp only [Except.toOption, Option.any_some, Bool.and_eq_true, decide_eq_true_eq,
            Option.any_eq_true] at hgiven
          obtain ⟨⟨hbytes, hids⟩, asset, hasset, file, hfile, hsize⟩ := hgiven
          refine ⟨graph, other, last, reached, asset, file, hstage, hnext,
            hashedBuild_congr hbytes rfl rfl, hids, hasset, hfile, ?_⟩
          intro hcontent
          exact hsize (congrArg ByteArray.size hcontent)

end World

end WebBundle
