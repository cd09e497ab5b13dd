import WebBundle.Proofs.Syntax.Plain
import WebBundle.Worklet.Compilation

/-!
# The code of worklet modules

The module that stands for a worklet assigns a sum of a property and a string.  Whatever
the name of the worklet file, its code is read as this one statement, in which there is
nothing to scan.
-/

namespace WebBundle.Worklet

open Syntax Reading

/-! ## Tokens -/

/-- The url of a file is the sum of a property and a string. -/
theorem spells_url (text rest : List Char) {kinds : List TokenKind} (hrest : Spells rest kinds) :
    Spells ("__houdini_require__.p + ".toList ++ (Quoted.encode text ++ rest))
      (.word .other "__houdini_require__" false :: .mark .dot :: .word .other "p" false ::
        .mark .plus :: .string (String.ofList text) false :: kinds) := by
  have hstring := (lexes_blank (lexes_encode text rest)).spells hrest
  generalize Quoted.encode text ++ rest = tail at hstring ⊢
  have hrequire : Lexes ("__houdini_require__.p + ".toList ++ tail)
      (.word .other "__houdini_require__" false) (".p + ".toList ++ tail) := fun _ _ _ => ⟨rfl, rfl⟩
  have hdot : Lexes (".p + ".toList ++ tail) (.mark .dot) ("p + ".toList ++ tail) :=
    fun _ _ _ => ⟨rfl, rfl⟩
  have hpath : Lexes ("p + ".toList ++ tail) (.word .other "p" false) (" + ".toList ++ tail) :=
    fun _ _ _ => ⟨rfl, rfl⟩
  have hplus : Lexes (" + ".toList ++ tail) (.mark .plus) (' ' :: tail) :=
    fun _ _ _ => ⟨rfl, rfl⟩
  exact hrequire.spells (hdot.spells (hpath.spells (hplus.spells hstring)))

theorem spells_code (text : List Char) :
    Spells (exportsStart ++ ("__houdini_require__.p + ".toList ++ (Quoted.encode text ++ [';'])))
      [.word .module_ "module" false, .mark .dot, .word .other "exports" false, .mark .assign,
        .word .other "__houdini_require__" false, .mark .dot, .word .other "p" false,
        .mark .plus, .string (String.ofList text) false, .mark .semicolon, .finish] := by
  have hfinish : Lexes [] .finish [] := fun _ _ _ => ⟨rfl, rfl⟩
  have hsemicolon : Lexes [';'] (.mark .semicolon) [] := fun _ _ _ => ⟨rfl, rfl⟩
  have hend : Spells [';'] [.mark .semicolon, .finish] :=
    hsemicolon.spells ⟨[], hfinish, trivial⟩
  have hurl := spells_url text [';'] hend
  generalize "__houdini_require__.p + ".toList ++ (Quoted.encode text ++ [';']) = tail at hurl ⊢
  obtain ⟨hmodule, hdot, hexports, hassign⟩ := lexes_exportsStart tail
  exact hmodule.spells (hdot.spells (hexports.spells (hassign.spells hurl.blank)))

/-! ## The program -/

section Program

variable {context : Context} {progress : Progress}

/-- The whole program is one assignment. -/
theorem programBody_code {depth : Nat} (hroom : Grammar.Roomy (depth + 8) context)
    {target exports name member value : String} {lone : Bool}
    (hyields : Yields progress.token
      [.word .module_ target false, .mark .dot, .word .other exports false, .mark .assign,
        .word .other name false, .mark .dot, .word .other member false,
        .mark .plus, .string value lone, .mark .semicolon, .finish]) :
    ∃ span statement last,
      programBody (Grammar.ofDepth (depth + 10)) context progress =
        some (⟨.program, span, [statement]⟩, last) ∧ IsPlain statement := by
  simp only [Yields] at hyields
  obtain ⟨htarget, hdot, hexports, hassign, hname, hnext, hmember, hplus, hstring, hsemicolon,
    hfinish, -⟩ := hyields
  have hsource : (pass (pass (pass (pass progress)))).token =
      progress.token.next.next.next.next := by
    simp only [pass_token]
  have hyields : Yields (pass (pass (pass (pass progress)))).token
      [.word .other name false, .mark .dot, .word .other member false, .mark .plus,
        .string value lone, .mark .semicolon] := by
    rw [hsource]
    exact ⟨hname, hnext, hmember, hplus, hstring, hsemicolon, trivial⟩
  obtain ⟨span, left, inner, right, stop, hsum, hstop⟩ :=
    Grammar.assignment_sum hroom (.inr rfl) hyields .semicolon
  rw [hsource] at hstop
  have hproperty : IsPlain ⟨.staticMember member false, left,
      [⟨.reference (.ofText name), inner, []⟩]⟩ :=
    .mk (.member _ _) (by simpa using .leaf (.reference _) _)
  have hplain : IsPlain ⟨.binary "+", span, [⟨.staticMember member false, left,
      [⟨.reference (.ofText name), inner, []⟩]⟩, ⟨.stringLiteral value lone, right, []⟩]⟩ :=
    .mk (.binary _) (by simpa using ⟨hproperty, .leaf (.string _ _) _⟩)
  exact programBody_exports hroom ⟨htarget, hdot, hexports, hassign, trivial⟩ hsum hplain
    (by rw [hstop]; exact hsemicolon) (by rw [hstop]; exact hfinish)

end Program

/-- The code of a worklet module, character by character. -/
theorem toList_moduleCode (file : String) :
    (moduleCode file).toList = exportsStart ++
      ("__houdini_require__.p + ".toList ++ (Quoted.encode file.toList ++ [';'])) := by
  have hfront : "module.exports = __houdini_require__.p + ".toList =
      exportsStart ++ "__houdini_require__.p + ".toList := by decide
  -- the text in front stays folded: it is long enough to stop the rewriting
  have hcode (front : String) : (front ++ Quoted.literal file ++ ";").toList =
      front.toList ++ (Quoted.encode file.toList ++ [';']) := by
    rw [String.toList_append, String.toList_append, List.append_assoc, Quoted.literal,
      String.toList_ofList]
    rfl
  exact (hcode _).trans ((congrArg (· ++ _) hfront).trans (List.append_assoc _ _ _))

/-- Worklet modules keep their code, and there is nothing to scan in it. -/
theorem read_moduleCode {file : String} {program : Program}
    (hread : ModuleSource.read .script (moduleCode file) = .ok program) :
    program.source = moduleCode file ∧ program.sites Scan.isScanned = [] := by
  have htext := toList_moduleCode file
  have hyields := (spells_code file.toList).yields_firstToken fun hhash => by cases hhash
  rw [← htext, ← Cursor.ofText] at hyields
  generalize moduleCode file = source at hread hyields ⊢
  have hdepth : 16 * (source.toList.length + 4) = 16 * source.toList.length + 54 + 10 := by omega
  have hroom : Grammar.Roomy (16 * source.toList.length + 54 + 8)
      { hasTypes := false, limit := source.toList.length + 4 } :=
    { Grammar.roomy_atStart source.toList.length with depth := by omega }
  obtain ⟨span, statement, last, hbody, hplain⟩ :=
    @programBody_code _ (.atStart source) _ hroom _ _ _ _ _ _ hyields
  rw [← hdepth] at hbody
  obtain ⟨found, hfound, hvalid, hsource, hsites⟩ := read?_plain hplain hbody
  cases (readScript_of_read? hfound hvalid).symm.trans hread
  exact ⟨hsource, hsites⟩

end WebBundle.Worklet
