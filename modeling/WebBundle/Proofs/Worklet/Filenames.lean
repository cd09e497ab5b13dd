import Mathlib.Algebra.Order.BigOperators.Group.List
import WebBundle.Proofs.Build.Transparency
import WebBundle.Proofs.Output.Named
import WebBundle.Proofs.Worklet.Emitted

/-!
# Worklets do not share files

The chunks of two worklets are named by one template, in which hashes are cut at the same place
and have the same length.  So the names of the chunks are made of parts of the same lengths if
the entries have names of the same length, and then the names of the entries stand at the same
place; else the longer name of an entry makes the longer name of a chunk.
-/

namespace WebBundle

theorem Digest.length_toHex (digest : Digest) : digest.toHex.toList.length = 32 := by
  have hdigits : ∀ width value, (hexDigits width value).length = width := by
    intro width
    induction width with
    | zero => exact fun _ => rfl
    | succ width ih => exact fun value => by rw [hexDigits, List.length_append, ih]; rfl
  rw [toHex, String.toList_ofList, hdigits]

namespace Filename

/-! ## Templates that name the entry -/

/-- A template with a placeholder for the name of the entry. -/
def NamesEntry (template : String) : Prop :=
  ∃ modifiers, .placeholder ⟨.name, modifiers⟩ ∈ pieces template.toList

theorem mem_pieces_insertWorklet {text : List Char} {placeholder : Placeholder}
    (hmem : .placeholder placeholder ∈ pieces text) :
    .placeholder placeholder ∈ pieces (insertWorklet text) := by
  by_cases hends : ∃ front letters, EndsInExtension text front letters
  · obtain ⟨front, letters, hends⟩ := hends
    have hopen : '[' ∉ letters := hends.notMem rfl
    have hclose : ']' ∉ letters := hends.notMem rfl
    rw [hends.1, pieces_append (by simp [hopen]) (by simp [hclose]), List.mem_append] at hmem
    rw [insertWorklet_of_endsInExtension hends, List.append_assoc,
      pieces_append (by simp [hopen]) (by simp [hclose]), List.mem_append]
    rcases hmem with hfront | hliteral
    · exact .inl hfront
    · simp at hliteral
  · rwa [insertWorklet_of_not_endsInExtension hends]

/-- The names of worklets have the name of the entry where those of their parent have it. -/
theorem NamesEntry.workletTemplate {template : String} (h : NamesEntry template) :
    NamesEntry (workletTemplate template) := by
  obtain ⟨modifiers, hmem⟩ := h
  refine ⟨modifiers, ?_⟩
  rw [pieces_workletTemplate, List.mem_map]
  exact ⟨_, mem_pieces_insertWorklet hmem, rfl⟩

/-! ## Lengths -/

/-- Values that differ at most in the name of the entry and in hashes of one length. -/
structure Values.SameLengths (first second : Values) : Prop where
  id : first.id = second.id
  ext : first.ext = second.ext
  hash : first.hash.map (·.toList.length) = second.hash.map (·.toList.length)
  contentHash :
    first.contentHash.map (·.toList.length) = second.contentHash.map (·.toList.length)

theorem length_truncated {first second : Option String} (text : List Char) (count : Nat)
    (hsame : first.map (·.toList.length) = second.map (·.toList.length)) :
    ((first.map fun hash => hash.toList.take count).getD text).length =
      ((second.map fun hash => hash.toList.take count).getD text).length := by
  cases first <;> cases second <;> simp_all

/-- The shorter name makes the shorter part. -/
theorem Piece.length_render_le {first second : Values} (hsame : first.SameLengths second)
    {name other : String} (hfirst : first.name = some name) (hsecond : second.name = some other)
    (hle : name.toList.length ≤ other.toList.length) (piece : Piece) :
    (piece.render first).length ≤ (piece.render second).length := by
  cases piece with
  | literal c => exact Nat.le_refl _
  | placeholder hole =>
      rw [render, render, Placeholder.value?, Placeholder.value?]
      cases hole.field with
      | name =>
          rw [hfirst, hsecond]
          exact hle
      | id => rw [hsame.id]
      | hash => exact Nat.le_of_eq (length_truncated _ _ hsame.hash)
      | contentHash | chunkHash => exact Nat.le_of_eq (length_truncated _ _ hsame.contentHash)
      | ext => rw [hsame.ext]
      | extName => rw [hsame.ext]

/-- Parts that make one text, and of which none of the first is longer than that of the second,
are the same. -/
theorem eq_of_flatMap_eq {α β : Type} {items : List α} {first second : α → List β}
    (hle : ∀ item, (first item).length ≤ (second item).length)
    (hsame : items.flatMap first = items.flatMap second) :
    ∀ item ∈ items, first item = second item := by
  induction items with
  | nil => exact List.forall_mem_nil _
  | cons item rest ih =>
      rw [List.flatMap_cons, List.flatMap_cons] at hsame
      have hrest : (rest.flatMap first).length ≤ (rest.flatMap second).length := by
        rw [List.length_flatMap, List.length_flatMap]
        exact List.sum_le_sum fun other _ => hle other
      have hitem : (first item).length = (second item).length := by
        have htotal := congrArg List.length hsame
        rw [List.length_append, List.length_append] at htotal
        have := hle item
        omega
      obtain ⟨hhead, htail⟩ := List.append_inj hsame hitem
      exact List.forall_mem_cons.mpr ⟨hhead, ih htail⟩

/-- A template that names the entry gives different names to entries of different names,
whatever the hashes are. -/
theorem name_eq_of_render_eq {template : String} (htemplate : NamesEntry template)
    {first second : Values} (hsame : first.SameLengths second) {name other : String}
    (hfirst : first.name = some name) (hsecond : second.name = some other)
    (hrender : render template first = render template second) : name = other := by
  obtain ⟨modifiers, hmem⟩ := htemplate
  rw [← String.toList_inj, toList_render, toList_render] at hrender
  have hpart : Piece.render first (.placeholder ⟨.name, modifiers⟩) =
      Piece.render second (.placeholder ⟨.name, modifiers⟩) := by
    rcases Nat.le_total name.toList.length other.toList.length with hle | hle
    · exact eq_of_flatMap_eq (Piece.length_render_le hsame hfirst hsecond hle) hrender _ hmem
    · have hback : second.SameLengths first :=
        ⟨hsame.id.symm, hsame.ext.symm, hsame.hash.symm, hsame.contentHash.symm⟩
      exact (eq_of_flatMap_eq (Piece.length_render_le hback hsecond hfirst hle) hrender.symm
        _ hmem).symm
  rw [Piece.render, Piece.render, Placeholder.value?, Placeholder.value?] at hpart
  simpa only [hfirst, hsecond, Option.map_some, Option.getD_some, String.toList_inj] using hpart

end Filename

namespace World

open Filename Output

variable {world : World} {limit : Nat} {start inner : BuildStart}

/-! ## Nested builds -/

/-- A nested build names its chunk by the template for worklets of the build around it. -/
theorem entryFilenames_of_nestedIn (hinner : inner ∈ world.nestedIn limit start) :
    inner.plan.options.entryFilenames =
      workletTemplate start.plan.options.chunkFilenames := by
  obtain ⟨visit, _, hstarted⟩ := List.mem_filterMap.mp hinner
  rw [startedBy] at hstarted
  cases hloading : world.loading start.plan visit.1 (world.pluginsOf start.plan.plugins)
      visit.2 with
  | done result running =>
      rw [hloading] at hstarted
      cases hstarted
  | nested job before =>
      rw [hloading] at hstarted
      cases hstarted
      obtain ⟨_, _, _, _, _, _, _, rfl, _⟩ := loading_eq_nested hloading
      rfl

theorem sameLengths_preliminaryValues {first second : String}
    (hlength : first.toList.length = second.toList.length) (name other : String) (index : Nat) :
    (preliminaryValues first name index).SameLengths (preliminaryValues second other index) :=
  ⟨rfl, rfl, congrArg some hlength, rfl⟩

/-- The chunk that a nested build gives first is named by the name of its only entry and by a
hash of one length. -/
theorem filename_of_nestedIn (hinner : inner ∈ world.nestedIn limit start) {depth : Nat}
    {name : String} {chunk : Asset} {others : List Asset}
    (hchunk : world.GivesChunk depth inner name chunk others) :
    ∃ digest : Digest, chunk.filename =
      render (workletTemplate start.plan.options.chunkFilenames)
        (preliminaryValues digest.toHex name 0) := by
  obtain ⟨_, graph, _, _, _, _, hmade⟩ := hchunk.made
  obtain ⟨module, _, hfilename⟩ := filename_of_chunk hmade
  refine ⟨Digest.ofBytes (hashedBuild inner.plan.options graph), ?_⟩
  rw [hfilename, entryFilenames_of_nestedIn hinner, not_hasContentHash_workletTemplate,
    if_neg Bool.false_ne_true, buildHash, entryName]

/-- The entry chunks of two nested builds of one build have different names if their entries
have, whatever the hashes and contents of the nested builds are. -/
theorem worklet_files_apart {first second : BuildStart}
    (htemplate : NamesEntry start.plan.options.chunkFilenames)
    (hfirst : first ∈ world.nestedIn limit start) (hsecond : second ∈ world.nestedIn limit start)
    {name other request wanted : String}
    (hname : first.plan.options.input = [⟨some name, request⟩])
    (hother : second.plan.options.input = [⟨some other, wanted⟩]) (hne : name ≠ other)
    {depth bound : Nat} {assets files : List Asset} (hassets : world.Gives depth first assets)
    (hfiles : world.Gives bound second files) :
    ∃ chunk others file rest, assets = chunk :: others ∧ files = file :: rest ∧
      world.GivesChunk depth first name chunk others ∧
      world.GivesChunk bound second other file rest ∧ chunk.filename ≠ file.filename := by
  obtain ⟨chunk, others, rfl, hchunk⟩ := givesChunk_of_gives hname hassets
  obtain ⟨file, rest, rfl, hfile⟩ := givesChunk_of_gives hother hfiles
  refine ⟨chunk, others, file, rest, rfl, rfl, hchunk, hfile, fun hsame => hne ?_⟩
  obtain ⟨digest, hdigest⟩ := filename_of_nestedIn hfirst hchunk
  obtain ⟨hash, hhash⟩ := filename_of_nestedIn hsecond hfile
  rw [hdigest, hhash] at hsame
  have hlengths := sameLengths_preliminaryValues
    (digest.length_toHex.trans hash.length_toHex.symm) name other 0
  exact name_eq_of_render_eq htemplate.workletTemplate hlengths rfl rfl hsame

/-- What is found of a run that gives files. -/
theorem exists_gives_of_any {depth : Nat}
    (h : ((world.runFrom depth start).any fun ended => ended.1.outcome.assets?.isSome) = true) :
    ∃ assets, world.Gives depth start assets := by
  obtain ⟨⟨ended, session⟩, hrun, hended⟩ := (Option.any_eq_true _ _).mp h
  obtain ⟨assets, hassets⟩ := Option.isSome_iff_exists.mp hended
  exact ⟨assets, ended, session, hrun, Outcome.assets?_eq_some.mp hassets⟩

/-- A script that asks for a first and for a tenth worklet itself. -/
def tenthWorklet : FileTree :=
  ⟨[(["p"], .directory),
    (["p", "m.js"], .file ("import 'css-worklet-loader?\x7b\"name\":\"1\"\x7d!./a.js';" ++
      "import 'css-worklet-loader?\x7b\"name\":\"10\"\x7d!./a.js'").toUTF8),
    (["p", "a.js"], .file "1".toUTF8)]⟩

/-- A bundler that puts hashes in front of the names of worklets and behind them. -/
def forWorklets : Bundler :=
  .fresh { input := [⟨none, "./m.js"⟩], workingDirectory := "/p"
           chunkFilenames := "[hash:2][name:1][hash].js" } [.worklets {}] [0]

set_option maxRecDepth 10000 in
/-- The names of both worklets differ, though one name of an entry begins with the other one. -/
theorem worklet_files_apart_tenth :
    ∃ first second chunk others file rest,
      first ∈ (forWorklets.world tenthWorklet).nestedIn 3 forWorklets.start ∧
      second ∈ (forWorklets.world tenthWorklet).nestedIn 3 forWorklets.start ∧
      (forWorklets.world tenthWorklet).GivesChunk 2 first "1" chunk others ∧
      (forWorklets.world tenthWorklet).GivesChunk 2 second "10" file rest ∧
      chunk.filename ≠ file.filename := by
  generalize hworld : forWorklets.world tenthWorklet = world
  have hcases : (world.nestedIn 3 forWorklets.start).map (fun inner =>
      (inner.plan.options.input, (world.runFrom 2 inner).any fun ended =>
        ended.1.outcome.assets?.isSome)) =
      [([⟨some "1", "./a.js"⟩], true), ([⟨some "10", "./a.js"⟩], true)] := by
    rw [← hworld]
    decide +kernel
  have htemplate : NamesEntry forWorklets.start.plan.options.chunkFilenames :=
    ⟨[['1']], by decide +kernel⟩
  generalize hnested : world.nestedIn 3 forWorklets.start = nested at hcases
  obtain ⟨first, more, rfl, hone, hmore⟩ := List.map_eq_cons_iff.mp hcases
  obtain ⟨second, _, rfl, htwo, _⟩ := List.map_eq_cons_iff.mp hmore
  obtain ⟨hname, hfirst⟩ := Prod.mk.inj hone
  obtain ⟨hother, hsecond⟩ := Prod.mk.inj htwo
  obtain ⟨assets, hassets⟩ := exists_gives_of_any hfirst
  obtain ⟨files, hfiles⟩ := exists_gives_of_any hsecond
  obtain ⟨chunk, others, file, rest, -, -, hchunk, hfile, hne⟩ :=
    worklet_files_apart htemplate (by rw [hnested]; simp) (by rw [hnested]; simp)
      hname hother (by decide) hassets hfiles
  exact ⟨first, second, chunk, others, file, rest, by simp, by simp, hchunk, hfile, hne⟩

end World

end WebBundle
