import Mathlib.Data.List.Nodup
import WebBundle.Build.Run

/-!
# The order of nested builds

The files of nested builds are collected in the order in which the nested builds end.
They are put in the order of their names, which keeps the order of files with one name.
Files with one name are the same file, or else any order of them is the same conflict: so
the files of the output, or the conflict that is reported, are the same whatever order the
nested builds end in.
-/

namespace WebBundle

namespace Output

theorem eq_of_hasSameContent {first second : Asset} (hname : first.filename = second.filename)
    (hsame : hasSameContent first second = true) : first = second := by
  rw [hasSameContent, Bool.and_eq_true, decide_eq_true_eq, decide_eq_true_eq] at hsame
  obtain ⟨filename, ⟨content⟩, isChunk⟩ := first
  obtain ⟨otherName, ⟨otherContent⟩, otherChunk⟩ := second
  cases hname
  cases hsame.1
  cases hsame.2
  rfl

theorem hasSameContent_comm (first second : Asset) :
    hasSameContent first second = hasSameContent second first := by
  rw [Bool.eq_iff_iff]
  simp only [hasSameContent, Bool.and_eq_true, decide_eq_true_eq]
  exact and_congr eq_comm eq_comm

/-- The names of the files that are kept. -/
def NamesOf (names : List String) (kept : List Asset) : Prop :=
  ∀ name, names.contains name = (kept.find? fun other => other.filename = name).isSome

theorem NamesOf.empty : NamesOf [] [] := fun _ => rfl

theorem NamesOf.keep {names : List String} {kept : List Asset} (h : NamesOf names kept)
    (asset : Asset) : NamesOf (asset.filename :: names) (kept ++ [asset]) := by
  intro name
  rw [List.contains_cons, h name, List.find?_append, Option.isSome_or, Bool.or_comm]
  congr 1
  by_cases hname : asset.filename = name
  · simp [hname]
  · have hother : ¬ name = asset.filename := fun hsame => hname hsame.symm
    simp [hname, hother]

/-- What becomes of files behind those that are kept. -/
def finalizeFrom (names : List String) (kept assets : List Asset) : Except String (List Asset) :=
  match conflict? kept assets with
  | some filename => .error filename
  | none => .ok (firstOfEachName names assets)

theorem finalizeFrom_known {names : List String} {kept : List Asset} (h : NamesOf names kept)
    {asset other : Asset} (rest : List Asset)
    (hfind : kept.find? (fun other => other.filename = asset.filename) = some other) :
    finalizeFrom names kept (asset :: rest) =
      if hasSameContent other asset then finalizeFrom names kept rest
      else .error asset.filename := by
  have hknown : names.contains asset.filename = true := by rw [h, hfind]; rfl
  simp only [finalizeFrom, conflict?, hfind, firstOfEachName, hknown, if_true]
  cases hasSameContent other asset <;> rfl

theorem finalizeFrom_new {names : List String} {kept : List Asset} (h : NamesOf names kept)
    {asset : Asset} (rest : List Asset)
    (hfind : kept.find? (fun other => other.filename = asset.filename) = none) :
    finalizeFrom names kept (asset :: rest) =
      (finalizeFrom (asset.filename :: names) (kept ++ [asset]) rest).map (asset :: ·) := by
  have hnew : names.contains asset.filename = false := by rw [h, hfind]; rfl
  simp only [finalizeFrom, conflict?, hfind, firstOfEachName, hnew, Bool.false_eq_true, if_false]
  split <;> rfl

theorem find?_keep {kept : List Asset} {asset other : Asset}
    (hfind : kept.find? (fun other => other.filename = asset.filename) = none)
    (hname : asset.filename = other.filename) :
    (kept ++ [asset]).find? (fun kept => kept.filename = other.filename) = some asset := by
  rw [← hname, List.find?_append, hfind]
  simp

/-- Two files with one name may change places. -/
theorem finalizeFrom_swap {names : List String} {kept : List Asset} (h : NamesOf names kept)
    (before : List Asset) {first second : Asset} (rest : List Asset)
    (hname : first.filename = second.filename) :
    finalizeFrom names kept (before ++ first :: second :: rest) =
      finalizeFrom names kept (before ++ second :: first :: rest) := by
  induction before generalizing names kept with
  | nil =>
      rw [List.nil_append, List.nil_append]
      cases hfind : kept.find? fun other => other.filename = first.filename with
      | some other =>
          have hsecond := hfind
          rw [hname] at hsecond
          rw [finalizeFrom_known h _ hfind, finalizeFrom_known h _ hsecond,
            finalizeFrom_known h _ hsecond, finalizeFrom_known h _ hfind, hname]
          split <;> split <;> rfl
      | none =>
          have hsecond := hfind
          rw [hname] at hsecond
          rw [finalizeFrom_new h _ hfind, finalizeFrom_new h _ hsecond,
            finalizeFrom_known (h.keep first) _ (find?_keep hfind hname),
            finalizeFrom_known (h.keep second) _ (find?_keep hsecond hname.symm),
            hasSameContent_comm second first]
          split
          · rename_i hsame
            cases eq_of_hasSameContent hname hsame
            rfl
          · rw [hname]
            rfl
  | cons asset before ih =>
      rw [List.cons_append, List.cons_append]
      cases hfind : kept.find? fun other => other.filename = asset.filename with
      | some other => rw [finalizeFrom_known h _ hfind, finalizeFrom_known h _ hfind, ih h]
      | none => rw [finalizeFrom_new h _ hfind, finalizeFrom_new h _ hfind, ih (h.keep asset)]

theorem finalize_swap (before : List Asset) {first second : Asset} (rest : List Asset)
    (hname : first.filename = second.filename) :
    finalize (before ++ first :: second :: rest) = finalize (before ++ second :: first :: rest) :=
  finalizeFrom_swap .empty before rest hname

/-- A file may move to the front of files that all have its name. -/
theorem finalize_move (before : List Asset) {asset : Asset} (named rest : List Asset)
    (hnames : ∀ other ∈ named, other.filename = asset.filename) :
    finalize (before ++ named ++ asset :: rest) = finalize (before ++ asset :: named ++ rest) := by
  induction named generalizing before with
  | nil => rw [List.append_nil, List.append_assoc]; rfl
  | cons other named ih =>
      have hrest := ih (before ++ [other]) fun other hother =>
        hnames other (List.mem_cons_of_mem _ hother)
      have hswap := finalize_swap before (named ++ rest) (hnames other List.mem_cons_self)
      simp only [List.append_assoc, List.cons_append, List.nil_append] at hrest hswap ⊢
      exact hrest.trans hswap

/-- Files in the order of their names. -/
def Ordered (assets : List Asset) : Prop :=
  assets.Pairwise fun first second => first.filename ≤ second.filename

/-- The order of files with one name has no effect on the output. -/
theorem finalize_of_ordered (before : List Asset) {assets others : List Asset}
    (hassets : Ordered assets) (hothers : Ordered others) (hperm : assets.Perm others) :
    finalize (before ++ assets) = finalize (before ++ others) := by
  induction assets generalizing before others with
  | nil => rw [hperm.nil_eq]
  | cons asset rest ih =>
      obtain ⟨hleast, hrest⟩ := List.pairwise_cons.mp hassets
      obtain ⟨named, later, rfl⟩ := List.append_of_mem (hperm.subset List.mem_cons_self)
      -- What stands before the file has its name, since both lists are ordered.
      have hnames : ∀ other ∈ named, other.filename = asset.filename := by
        intro other hother
        refine String.le_antisymm ?_ ?_
        · exact (List.pairwise_append.mp hothers).2.2 other hother asset List.mem_cons_self
        · rcases List.mem_cons.mp (hperm.symm.subset (List.mem_append_left _ hother)) with
            rfl | hmem
          · exact String.le_refl _
          · exact hleast other hmem
      have hsub : (named ++ later).Sublist (named ++ asset :: later) :=
        List.Sublist.append_left (List.sublist_cons_self asset later) named
      have hsame : rest.Perm (named ++ later) :=
        List.Perm.cons_inv (hperm.trans List.perm_middle)
      calc
        finalize (before ++ asset :: rest) = finalize (before ++ [asset] ++ rest) := by simp
        _ = finalize (before ++ [asset] ++ (named ++ later)) :=
          ih (before ++ [asset]) hrest (List.Pairwise.sublist hsub hothers) hsame
        _ = finalize (before ++ asset :: named ++ later) := by simp
        _ = finalize (before ++ named ++ asset :: later) :=
          (finalize_move before named later hnames).symm
        _ = finalize (before ++ (named ++ asset :: later)) := by rw [List.append_assoc]

theorem ordered_sortByName (assets : List Asset) : Ordered (sortByName assets) := by
  have hsorted : (sortByName assets).Pairwise fun first second =>
      decide (first.filename ≤ second.filename) = true := List.pairwise_mergeSort
    (fun first second third hfirst hsecond => by
      rw [decide_eq_true_eq] at hfirst hsecond ⊢
      exact String.le_trans hfirst hsecond)
    (fun first second => by
      rw [Bool.or_eq_true, decide_eq_true_eq, decide_eq_true_eq]
      exact String.le_total first.filename second.filename) assets
  exact hsorted.imp of_decide_eq_true

theorem sortByName_perm (assets : List Asset) : (sortByName assets).Perm assets :=
  List.mergeSort_perm assets _

/-! ## What is kept -/

/-- Files that are put together without a conflict are all kept, once for each name. -/
theorem kept_of_finalizeFrom {names : List String} {kept assets rest : List Asset}
    (h : NamesOf names kept) (hfinal : finalizeFrom names kept assets = .ok rest) :
    (∀ asset ∈ assets, asset ∈ kept ∨ asset ∈ rest) ∧ rest.Sublist assets ∧
      (rest.map Asset.filename).Nodup ∧ ∀ asset ∈ rest, names.contains asset.filename = false := by
  induction assets generalizing names kept rest with
  | nil =>
      cases hfinal
      exact ⟨List.forall_mem_nil _, .slnil, List.nodup_nil, List.forall_mem_nil _⟩
  | cons asset assets ih =>
      cases hfind : kept.find? fun other => other.filename = asset.filename with
      | some other =>
          rw [finalizeFrom_known h assets hfind] at hfinal
          split at hfinal
          · rename_i hsame
            obtain ⟨hkept, hsublist, hnodup, hnew⟩ := ih h hfinal
            have hname : other.filename = asset.filename := by
              simpa using List.find?_some hfind
            refine ⟨List.forall_mem_cons.mpr ⟨.inl ?_, hkept⟩, hsublist.cons asset, hnodup, hnew⟩
            rw [← eq_of_hasSameContent hname hsame]
            exact List.mem_of_find?_eq_some hfind
          · cases hfinal
      | none =>
          rw [finalizeFrom_new h assets hfind] at hfinal
          cases hmore : finalizeFrom (asset.filename :: names) (kept ++ [asset]) assets with
          | error filename =>
              rw [hmore] at hfinal
              cases hfinal
          | ok more =>
              rw [hmore] at hfinal
              cases hfinal
              obtain ⟨hkept, hsublist, hnodup, hnew⟩ := ih (h.keep asset) hmore
              simp only [List.contains_cons, Bool.or_eq_false_iff, beq_eq_false_iff_ne] at hnew
              refine ⟨List.forall_mem_cons.mpr ⟨.inr List.mem_cons_self, ?_⟩,
                hsublist.cons_cons asset, ?_, List.forall_mem_cons.mpr ⟨?_, fun other hother =>
                  (hnew other hother).2⟩⟩
              · intro other hother
                rcases hkept other hother with hbefore | hafter
                · rcases List.mem_append.mp hbefore with hbefore | hsame
                  · exact .inl hbefore
                  · rw [List.mem_singleton.mp hsame]
                    exact .inr List.mem_cons_self
                · exact .inr (List.mem_cons_of_mem _ hafter)
              · rw [List.map_cons, List.nodup_cons]
                refine ⟨fun hmem => ?_, hnodup⟩
                obtain ⟨other, hother, hname⟩ := List.mem_map.mp hmem
                exact (hnew other hother).1 hname
              · rw [h, hfind]
                rfl

/-- The files of an output are those that were put together, once for each name. -/
theorem kept_of_finalize {assets kept : List Asset} (hfinal : finalize assets = .ok kept) :
    (∀ asset, asset ∈ kept ↔ asset ∈ assets) ∧ (kept.map Asset.filename).Nodup := by
  obtain ⟨hkept, hsublist, hnodup, _⟩ := kept_of_finalizeFrom .empty hfinal
  exact ⟨fun asset => ⟨fun hmem => hsublist.subset hmem, fun hmem =>
    (hkept asset hmem).resolve_left List.not_mem_nil⟩, hnodup⟩

/-- A name of an output is the name of one file. -/
theorem eq_of_filename {assets kept : List Asset} (hfinal : finalize assets = .ok kept)
    {first second : Asset} (hfirst : first ∈ kept) (hsecond : second ∈ kept)
    (hname : first.filename = second.filename) : first = second :=
  List.inj_on_of_nodup_map (kept_of_finalize hfinal).2 hfirst hsecond hname

end Output

/-- The files of nested builds give the same output in whatever order they were
collected: the same files in the same order, or a report of the same conflict.  So a
build ends in the same way. -/
theorem World.conclude_perm {emitted collected : List Asset} (hperm : emitted.Perm collected) :
    (∀ own, Output.finalize (own ++ Output.sortByName emitted) =
        Output.finalize (own ++ Output.sortByName collected)) ∧
      ∀ plan result (running : Running),
        World.conclude plan result { running with emitted } =
          World.conclude plan result { running with emitted := collected } := by
  have hfinalize (own : List Asset) : Output.finalize (own ++ Output.sortByName emitted) =
      Output.finalize (own ++ Output.sortByName collected) :=
    Output.finalize_of_ordered own (Output.ordered_sortByName emitted)
      (Output.ordered_sortByName collected)
      ((Output.sortByName_perm emitted).trans
        (hperm.trans (Output.sortByName_perm collected).symm))
  refine ⟨hfinalize, fun plan result running => ?_⟩
  cases result with
  | error failure => cases failure <;> rfl
  | ok graph => simp only [World.conclude, World.finish, hfinalize]

/-- Three files of nested builds, two of them with one name and different content. -/
theorem World.conclude_perm_shared :
    let first : Asset := ⟨"shared.wasm", ⟨#[0]⟩, false⟩
    let second : Asset := ⟨"shared.wasm", ⟨#[1]⟩, false⟩
    let third : Asset := ⟨"0.worklet.js", ⟨#[]⟩, true⟩
    [first, second, third].Perm [second, third, first] ∧
      ∀ own, Output.finalize (own ++ Output.sortByName [first, second, third]) =
        Output.finalize (own ++ Output.sortByName [second, third, first]) := by
  intro first second third
  have hperm : [first, second, third].Perm [second, third, first] :=
    (List.perm_append_comm : ([first] ++ [second, third]).Perm ([second, third] ++ [first]))
  exact ⟨hperm, (World.conclude_perm hperm).1⟩

end WebBundle
