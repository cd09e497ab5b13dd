import Mathlib.Data.List.Pairwise
import Mathlib.Data.List.Perm.Subperm
import WebBundle.Proofs.Output.Order

/-!
# Files are kept once

Files are put together in the order in which they come.  A file whose name has come before is
left out if its content is the same, and otherwise it is a conflict that ends the build.  So
what is kept are the files whose names come first, and putting these together once more, as the
build around a nested one does, changes nothing.
-/

namespace WebBundle

/-- Two files have one name and different contents; a text is never the same as bytes. -/
def Asset.Conflicts (first second : Asset) : Prop :=
  first.filename = second.filename ∧
    ¬ (first.isChunk = second.isChunk ∧ first.content = second.content)

namespace Output

/-- No file has the name of an earlier one and other content. -/
def Agreeing (assets : List Asset) : Prop :=
  assets.Pairwise fun first second => ¬ first.Conflicts second

/-- A file is the first one, in the order of the list, that conflicts with an earlier one. -/
def FirstConflict (assets : List Asset) (asset : Asset) : Prop :=
  ∃ before after, assets = before ++ asset :: after ∧ Agreeing before ∧
    ∃ other ∈ before, other.Conflicts asset

/-- Whether the name of a file at some place does not come earlier in the list. -/
def comesFirst (assets : List Asset) (place : Asset × Nat) : Bool :=
  (assets.take place.2).all fun other => other.filename ≠ place.1.filename

/-- The files whose names do not come earlier in the list, in their order. -/
def firstOccurrences (assets : List Asset) : List Asset :=
  (assets.zipIdx.filter (comesFirst assets)).map Prod.fst

variable {assets kept seen before rest : List Asset} {asset other : Asset} {names : List String}

/-! ## Conflicts -/

theorem conflicts_iff : other.Conflicts asset ↔ other.filename = asset.filename ∧ other ≠ asset := by
  refine and_congr_right fun hname => not_congr ⟨fun hsame => ?_, fun hsame => hsame ▸ ⟨rfl, rfl⟩⟩
  exact eq_of_hasSameContent hname (by simp [hasSameContent, hsame])

theorem hasSameContent_iff (hname : other.filename = asset.filename) :
    hasSameContent other asset = true ↔ ¬ other.Conflicts asset := by
  rw [conflicts_iff]
  refine ⟨fun hsame h => h.2 (eq_of_hasSameContent hname hsame), fun h => ?_⟩
  obtain rfl : other = asset := by_contra fun hother => h ⟨hname, hother⟩
  simp [hasSameContent]

theorem agreeing_append : Agreeing (seen ++ assets) ↔
    Agreeing seen ∧ Agreeing assets ∧ ∀ first ∈ seen, ∀ second ∈ assets, ¬ first.Conflicts second :=
  List.pairwise_append

/-- A file may join others if one of them has its name and content, or none its name. -/
theorem Agreeing.snoc (h : Agreeing seen)
    (hasset : ∀ other ∈ seen, ¬ other.Conflicts asset) : Agreeing (seen ++ [asset]) :=
  agreeing_append.mpr ⟨h, List.pairwise_singleton _ _, fun other hother _ hsecond =>
    List.mem_singleton.mp hsecond ▸ hasset other hother⟩

/-- Among files without a conflict, a name belongs to one file. -/
theorem Agreeing.eq_of_filename (h : Agreeing assets) (hasset : asset ∈ assets)
    (hother : other ∈ assets) (hname : asset.filename = other.filename) : asset = other := by
  have hsymm : Std.Symm fun first second : Asset => ¬ first.Conflicts second :=
    ⟨fun first second h hconflict => h (by
      rw [conflicts_iff] at hconflict ⊢
      exact ⟨hconflict.1.symm, hconflict.2.symm⟩)⟩
  by_contra hne
  exact List.Pairwise.forall h hasset hother hne (conflicts_iff.mpr ⟨hname, hne⟩)

/-- The kept files are those of the files seen so far that have the first of each name. -/
def Sees (kept seen : List Asset) : Prop :=
  ∀ name, (kept.find? fun other => other.filename = name) =
    seen.find? fun other => other.filename = name

theorem Sees.old (h : Sees kept seen) {known : Asset}
    (hknown : (seen.find? fun other => other.filename = asset.filename) = some known) :
    Sees kept (seen ++ [asset]) := by
  intro name
  rw [h name, List.find?_append]
  by_cases hname : asset.filename = name
  · rw [← hname, hknown]
    rfl
  · simp [hname]

theorem Sees.new (h : Sees kept seen) : Sees (kept ++ [asset]) (seen ++ [asset]) := by
  intro name
  rw [List.find?_append, List.find?_append, h name]

/-- The search for a conflict behind files that have none: it finds the first one. -/
theorem conflict?_spec (hsees : Sees kept seen) (hseen : Agreeing seen) :
    match conflict? kept assets with
    | none => Agreeing (seen ++ assets)
    | some name => ∃ asset, asset.filename = name ∧ ∃ before after,
        assets = before ++ asset :: after ∧ Agreeing (seen ++ before) ∧
          ∃ other ∈ seen ++ before, other.Conflicts asset := by
  induction assets generalizing kept seen with
  | nil =>
      rw [List.append_nil]
      exact hseen
  | cons asset rest ih =>
      have hmore {next : List Asset} (hnext : Sees next (seen ++ [asset]))
          (hasset : ∀ other ∈ seen, ¬ other.Conflicts asset) :
          match conflict? next rest with
          | none => Agreeing (seen ++ asset :: rest)
          | some name => ∃ found, found.filename = name ∧ ∃ before after,
              asset :: rest = before ++ found :: after ∧ Agreeing (seen ++ before) ∧
                ∃ other ∈ seen ++ before, other.Conflicts found := by
        have hrest := ih hnext (hseen.snoc hasset)
        simp only [List.append_assoc, List.singleton_append] at hrest
        split
        · rename_i hnone
          rw [hnone] at hrest
          exact hrest
        · rename_i name hsome
          rw [hsome] at hrest
          obtain ⟨found, hname, before, after, rfl, hbefore, hother⟩ := hrest
          exact ⟨found, hname, asset :: before, after, rfl, hbefore, hother⟩
      rw [conflict?, hsees]
      cases hfind : seen.find? fun other => other.filename = asset.filename with
      | none =>
          refine hmore hsees.new fun other hother hconflict => ?_
          simpa [hconflict.1] using List.find?_eq_none.mp hfind other hother
      | some known =>
          have hknown : known ∈ seen := List.mem_of_find?_eq_some hfind
          have hname : known.filename = asset.filename := by simpa using List.find?_some hfind
          dsimp only
          by_cases hsame : hasSameContent known asset = true
          · rw [if_pos hsame]
            refine hmore (hsees.old hfind) fun other hother hconflict => ?_
            obtain rfl := hseen.eq_of_filename hother hknown (hconflict.1.trans hname.symm)
            exact (hasSameContent_iff hname).mp hsame hconflict
          · rw [if_neg hsame]
            refine ⟨asset, rfl, [], rest, rfl, ?_, known, ?_, ?_⟩
            · rwa [List.append_nil]
            · rwa [List.append_nil]
            · exact by_contra fun hagree => hsame ((hasSameContent_iff hname).mpr hagree)

/-- There is at most one first conflict. -/
theorem FirstConflict.eq (h : FirstConflict assets asset) (hother : FirstConflict assets other) :
    asset = other := by
  -- in front of a first conflict there cannot be another one
  have hsame : ∀ {first second : Asset} {early late more after rest : List Asset}, Agreeing late →
      (∃ other ∈ early, other.Conflicts first) → late = early ++ more →
        first :: after = more ++ second :: rest → first = second := by
    intro first second early late more after rest hlate hconflict heq hrest
    cases more with
    | nil => exact (List.cons_eq_cons.mp hrest).1
    | cons next more =>
        obtain ⟨rfl, -⟩ := List.cons_eq_cons.mp hrest
        obtain ⟨other, hother, hconflict⟩ := hconflict
        subst heq
        exact absurd hconflict ((agreeing_append.mp hlate).2.2 other hother first List.mem_cons_self)
  obtain ⟨before, after, rfl, hbefore, hconflict⟩ := h
  obtain ⟨early, late, hlist, hearly, hconflicts⟩ := hother
  rcases List.append_eq_append_iff.mp hlist with ⟨more, heq, hrest⟩ | ⟨more, heq, hrest⟩
  · exact hsame hearly hconflict heq hrest
  · exact (hsame hbefore hconflicts heq hrest).symm

theorem FirstConflict.not_agreeing (h : FirstConflict assets asset) : ¬ Agreeing assets := by
  obtain ⟨before, after, rfl, -, other, hother, hconflict⟩ := h
  exact fun hagree =>
    (agreeing_append.mp hagree).2.2 other hother asset List.mem_cons_self hconflict

/-- Files that do not agree have a first conflict. -/
theorem conflict?_cases (assets : List Asset) :
    (conflict? [] assets = none ∧ Agreeing assets) ∨
      ∃ asset, conflict? [] assets = some asset.filename ∧ FirstConflict assets asset := by
  have hsees : Sees [] [] := fun _ => rfl
  have hspec := @conflict?_spec assets _ _ hsees .nil
  split at hspec
  · rename_i hnone
    exact .inl ⟨hnone, hspec⟩
  · rename_i name hsome
    obtain ⟨asset, rfl, before, after, rfl, hbefore, hother⟩ := hspec
    exact .inr ⟨asset, hsome, before, after, rfl, hbefore, hother⟩

/-! ## First occurrences -/

/-- What is left of files behind others that have some names. -/
theorem firstOfEachName_eq (hnames : ∀ name, names.contains name = true ↔
      ∃ other ∈ before, other.filename = name) :
    firstOfEachName names rest =
      ((rest.zipIdx before.length).filter (comesFirst (before ++ rest))).map Prod.fst := by
  induction rest generalizing names before with
  | nil => rfl
  | cons asset rest ih =>
      have hlist : before ++ asset :: rest = before ++ [asset] ++ rest := by simp
      have hlength : before.length + 1 = (before ++ [asset]).length := by simp
      have hfirst : comesFirst (before ++ asset :: rest) (asset, before.length) =
          !names.contains asset.filename := by
        rw [comesFirst, List.take_left, Bool.eq_iff_iff, Bool.not_eq_true', ← Bool.not_eq_true,
          hnames, List.all_eq_true]
        simp
      have hmore (name : String) : (∃ other ∈ before ++ [asset], other.filename = name) ↔
          (∃ other ∈ before, other.filename = name) ∨ asset.filename = name := by
        simp only [List.mem_append, List.mem_singleton, or_and_right, exists_or, exists_eq_left]
      rw [firstOfEachName, List.zipIdx_cons]
      cases hknown : names.contains asset.filename with
      | true =>
          rw [hknown, Bool.not_true] at hfirst
          rw [List.filter_cons_of_neg (Bool.not_eq_true _ ▸ hfirst), hlength, hlist, if_pos rfl]
          refine ih fun name => ?_
          rw [hmore, hnames]
          exact ⟨.inl, Or.rec id fun hname => hname ▸ (hnames _).mp hknown⟩
      | false =>
          rw [hknown, Bool.not_false] at hfirst
          rw [List.filter_cons_of_pos hfirst, hlength, hlist, if_neg Bool.false_ne_true,
            List.map_cons]
          refine congrArg (asset :: ·) (ih fun name => ?_)
          rw [List.contains_cons, Bool.or_eq_true, beq_iff_eq, hnames, hmore]
          exact ⟨Or.rec (fun h => .inr h.symm) .inl, Or.rec .inr fun h => .inl h.symm⟩

/-- Files without a conflict are kept where their names come first. -/
theorem finalize_of_agreeing (h : Agreeing assets) :
    finalize assets = .ok (firstOccurrences assets) := by
  have hkept := @firstOfEachName_eq [] assets [] (by simp)
  rcases conflict?_cases assets with ⟨hnone, -⟩ | ⟨asset, -, hconflict⟩
  · rw [finalize, hnone]
    exact congrArg _ hkept
  · exact absurd h hconflict.not_agreeing

theorem finalize_of_conflict (h : FirstConflict assets asset) :
    finalize assets = .error asset.filename := by
  rcases conflict?_cases assets with ⟨-, hagree⟩ | ⟨other, hsome, hother⟩
  · exact absurd hagree h.not_agreeing
  · rw [finalize, hsome, h.eq hother]

theorem agreeing_of_finalize (hfinal : finalize assets = .ok kept) :
    Agreeing assets ∧ kept = firstOccurrences assets := by
  rcases conflict?_cases assets with ⟨-, hagree⟩ | ⟨asset, -, hconflict⟩
  · rw [finalize_of_agreeing hagree] at hfinal
    cases hfinal
    exact ⟨hagree, rfl⟩
  · rw [finalize_of_conflict hconflict] at hfinal
    cases hfinal

/-! ## Putting files together once more -/

/-- Files with names of their own are all kept. -/
theorem finalize_of_nodup (hnodup : (assets.map Asset.filename).Nodup) :
    finalize assets = .ok assets := by
  have hagree : Agreeing assets :=
    (List.pairwise_map.mp hnodup).imp fun hname hconflict => hname hconflict.1
  have hfinal := finalize_of_agreeing hagree
  obtain ⟨hkept, hsublist, -, -⟩ := kept_of_finalizeFrom .empty hfinal
  have hsubset : assets ⊆ firstOccurrences assets := fun asset hasset =>
    (hkept asset hasset).resolve_left List.not_mem_nil
  have hlength := (List.subperm_of_subset hnodup.of_map hsubset).length_le
  rw [hfinal, hsublist.eq_of_length_le hlength]

/-- Behind other files, files and the first of each name among them are put together alike. -/
theorem finalizeFrom_absorb {known : List String} (h : NamesOf names kept)
    (hagree : Agreeing assets) (hknown : ∀ asset ∈ assets, known.contains asset.filename = true →
      (kept.find? fun other => other.filename = asset.filename) = some asset) (back : List Asset) :
    finalizeFrom names kept (firstOfEachName known assets ++ back) =
      finalizeFrom names kept (assets ++ back) := by
  induction assets generalizing names kept known with
  | nil => rfl
  | cons asset rest ih =>
      obtain ⟨hfirst, hrest⟩ := List.pairwise_cons.mp hagree
      obtain ⟨hasset, hothers⟩ := List.forall_mem_cons.mp hknown
      have hsame : hasSameContent asset asset = true := by simp [hasSameContent]
      -- a later file with the name of this one is this one
      have htwin : ∀ other ∈ rest, other.filename = asset.filename → other = asset := by
        intro other hother hname
        by_contra hne
        exact hfirst other hother (conflicts_iff.mpr ⟨hname.symm, fun heq => hne heq.symm⟩)
      rw [firstOfEachName, List.cons_append]
      cases hseen : known.contains asset.filename with
      | true =>
          rw [if_pos rfl, ih h hrest hothers, finalizeFrom_known h _ (hasset hseen), if_pos hsame]
      | false =>
          rw [if_neg Bool.false_ne_true, List.cons_append]
          cases hfind : kept.find? fun other => other.filename = asset.filename with
          | some other =>
              rw [finalizeFrom_known h _ hfind, finalizeFrom_known h _ hfind]
              split
              · rename_i hcontent
                have hname : other.filename = asset.filename := by simpa using List.find?_some hfind
                obtain rfl := eq_of_hasSameContent hname hcontent
                refine ih h hrest fun later hlater hcontains => ?_
                rw [List.contains_cons, Bool.or_eq_true, beq_iff_eq] at hcontains
                rcases hcontains with hname | hcontains
                · rw [htwin later hlater hname, hfind]
                · exact hothers later hlater hcontains
              · rfl
          | none =>
              rw [finalizeFrom_new h _ hfind, finalizeFrom_new h _ hfind]
              refine congrArg _ (ih (h.keep asset) hrest fun later hlater hcontains => ?_)
              rw [List.contains_cons, Bool.or_eq_true, beq_iff_eq] at hcontains
              rcases hcontains with hname | hcontains
              · rw [find?_keep hfind hname.symm, htwin later hlater hname]
              · rw [List.find?_append, hothers later hlater hcontains]
                rfl

/-- Wherever files without a conflict stand, the first of each name can stand for all of them. -/
theorem finalize_absorb (front back : List Asset) (hagree : Agreeing assets) :
    finalize (front ++ firstOfEachName [] assets ++ back) = finalize (front ++ assets ++ back) := by
  have hfrom : ∀ {names : List String} {kept : List Asset}, NamesOf names kept →
      finalizeFrom names kept (front ++ (firstOfEachName [] assets ++ back)) =
        finalizeFrom names kept (front ++ (assets ++ back)) := by
    induction front with
    | nil => exact fun h => finalizeFrom_absorb h hagree (fun _ _ hnone => Bool.noConfusion hnone) back
    | cons asset front ih =>
        intro names kept h
        rw [List.cons_append, List.cons_append]
        cases hfind : kept.find? fun other => other.filename = asset.filename with
        | some other => rw [finalizeFrom_known h _ hfind, finalizeFrom_known h _ hfind, ih h]
        | none => rw [finalizeFrom_new h _ hfind, finalizeFrom_new h _ hfind, ih (h.keep asset)]
  rw [List.append_assoc, List.append_assoc]
  exact hfrom .empty

/-- Some files are what is left when each name is kept once. -/
structure KeepsFirst (assets kept : List Asset) : Prop where
  eq : kept = firstOccurrences assets
  sublist : kept.Sublist assets
  names : (kept.map Asset.filename).Nodup
  /-- No name and no content is lost. -/
  present : ∀ asset ∈ assets, ∃ other ∈ kept, other.filename = asset.filename ∧
    other.isChunk = asset.isChunk ∧ other.content = asset.content
  head : kept.head? = assets.head?
  /-- Whatever order they are put in, putting them together again keeps them all. -/
  again : ∀ others, others.Perm kept → finalize others = .ok others
  /-- Among the files of another build they can stand for all files. -/
  within : ∀ front back, finalize (front ++ kept ++ back) = finalize (front ++ assets ++ back)

theorem keepsFirst_of_finalize (hfinal : finalize assets = .ok kept) : KeepsFirst assets kept := by
  obtain ⟨hagree, heq⟩ := agreeing_of_finalize hfinal
  obtain ⟨hkept, hsublist, hnodup, -⟩ := kept_of_finalizeFrom .empty hfinal
  have hfirst : kept = firstOfEachName [] assets := by
    rw [heq, firstOccurrences, @firstOfEachName_eq [] assets [] (by simp)]
    rfl
  refine ⟨heq, hsublist, hnodup, fun asset hasset => ?_, ?_, fun others hperm => ?_, ?_⟩
  · exact ⟨asset, (hkept asset hasset).resolve_left List.not_mem_nil, rfl, rfl, rfl⟩
  · rw [hfirst]
    cases assets <;> rfl
  · exact finalize_of_nodup ((hperm.map Asset.filename).nodup_iff.mpr hnodup)
  · exact fun front back => hfirst ▸ finalize_absorb front back hagree

/-- Putting files together fails exactly if two of them have one name and different contents, and
it names the first file that conflicts with an earlier one, as does the report of the build.
Otherwise each name is kept where it comes first, and nothing changes when the files that are
kept are put together again inside of another build. -/
theorem finalize_keeps_first (assets : List Asset) :
    ((∃ name, finalize assets = .error name) ↔
      ∃ first ∈ assets, ∃ second ∈ assets, first.Conflicts second) ∧
    (∀ name, finalize assets = .error name ↔
      ∃ asset, FirstConflict assets asset ∧ asset.filename = name) ∧
    (∀ kept, finalize assets = .ok kept → KeepsFirst assets kept) ∧
    ∀ plan graph running,
      generate plan.options graph ++ sortByName running.emitted = assets →
        (∀ asset, FirstConflict assets asset → World.finish plan graph running = .reports
          [{ message := "Multiple files with different content were emitted to the same filename " ++
              Printable.quote asset.filename }]) ∧
        (Agreeing assets → World.finish plan graph running = .assets (firstOccurrences assets)) := by
  have hname (name : String) : finalize assets = .error name ↔
      ∃ asset, FirstConflict assets asset ∧ asset.filename = name := by
    constructor
    · intro hfinal
      rcases conflict?_cases assets with ⟨-, hagree⟩ | ⟨asset, -, hconflict⟩
      · rw [finalize_of_agreeing hagree] at hfinal
        cases hfinal
      · rw [finalize_of_conflict hconflict] at hfinal
        cases hfinal
        exact ⟨asset, hconflict, rfl⟩
    · rintro ⟨asset, hconflict, rfl⟩
      exact finalize_of_conflict hconflict
  refine ⟨⟨?_, ?_⟩, hname, fun kept => keepsFirst_of_finalize, ?_⟩
  · rintro ⟨name, hfinal⟩
    obtain ⟨asset, ⟨before, after, rfl, -, other, hother, hconflict⟩, -⟩ := (hname name).mp hfinal
    exact ⟨other, List.mem_append_left _ hother, asset,
      List.mem_append_right _ List.mem_cons_self, hconflict⟩
  · rintro ⟨first, hfirst, second, hsecond, hconflict⟩
    rcases conflict?_cases assets with ⟨-, hagree⟩ | ⟨asset, -, hfound⟩
    · rw [conflicts_iff] at hconflict
      exact absurd (hagree.eq_of_filename hfirst hsecond hconflict.1) hconflict.2
    · exact ⟨asset.filename, finalize_of_conflict hfound⟩
  · rintro plan graph running rfl
    refine ⟨fun asset hconflict => ?_, fun hagree => ?_⟩
    · rw [World.finish, finalize_of_conflict hconflict]
      rfl
    · rw [World.finish, finalize_of_agreeing hagree]

/-- A chunk, a file that two nested builds emit, and another chunk of the first name. -/
def repeatedAssets : List Asset :=
  [⟨"main.js", ⟨#[1]⟩, true⟩, ⟨"a.wasm", ⟨#[0]⟩, false⟩, ⟨"0.js", ⟨#[2]⟩, true⟩,
    ⟨"a.wasm", ⟨#[0]⟩, false⟩]

/-- The file that comes twice is kept once, and with other content it is a conflict. -/
theorem finalize_keeps_first_repeated :
    (∃ kept, finalize repeatedAssets = .ok kept ∧ KeepsFirst repeatedAssets kept ∧
      kept.map Asset.filename = ["main.js", "a.wasm", "0.js"]) ∧
    finalize (repeatedAssets ++ [⟨"0.js", ⟨#[2]⟩, false⟩, ⟨"main.js", ⟨#[]⟩, true⟩]) =
      .error "0.js" := by
  constructor
  · have hok : ((finalize repeatedAssets).toOption.map fun kept => kept.map Asset.filename) =
        some ["main.js", "a.wasm", "0.js"] := by decide +kernel
    cases hfinal : finalize repeatedAssets with
    | error name =>
        rw [hfinal] at hok
        cases hok
    | ok kept =>
        rw [hfinal] at hok
        exact ⟨kept, rfl, (finalize_keeps_first _).2.2.1 kept hfinal, Option.some.inj hok⟩
  · refine ((finalize_keeps_first _).2.1 "0.js").mpr ⟨⟨"0.js", ⟨#[2]⟩, false⟩, ?_, rfl⟩
    refine ⟨repeatedAssets, [⟨"main.js", ⟨#[]⟩, true⟩], rfl, ?_, ⟨"0.js", ⟨#[2]⟩, true⟩, ?_, rfl, ?_⟩
    · simp [repeatedAssets, Agreeing, Asset.Conflicts]
    · simp [repeatedAssets]
    · exact fun hsame => Bool.noConfusion hsame.1

end Output

end WebBundle
