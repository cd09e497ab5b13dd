import WebBundle.Module.Source
import WebBundle.Proofs.Syntax.Standalone
import WebBundle.Scan.Findings

/-!
# Plain trees

A tree of literals, operators and assignments to properties declares nothing, opens no scope and
has nothing to scan in it.  So the code of a module that only exports a plain value is a program,
and there is nothing to scan in it.
-/

namespace WebBundle.Syntax

/-- Kinds of nodes that neither declare nor call anything. -/
inductive Kind.IsPlain : Kind → Prop where
  | reference (name : Identifier.Name) : IsPlain (.reference name)
  | null : IsPlain .nullLiteral
  | boolean (value : Bool) : IsPlain (.booleanLiteral value)
  | number (spelling : List Char) : IsPlain (.numberLiteral spelling)
  | string (value : String) (lone : Bool) : IsPlain (.stringLiteral value lone)
  | array (comma : Bool) : IsPlain (.arrayLiteral comma)
  | object (comma : Bool) : IsPlain (.objectLiteral comma)
  | property : IsPlain (.property false false)
  | unary (operator : String) : IsPlain (.unary operator)
  | binary (operator : String) : IsPlain (.binary operator)
  | assignment (operator : String) : IsPlain (.assignment operator)
  | member (name : String) (optional : Bool) : IsPlain (.staticMember name optional)
  | statement : IsPlain .expressionStatement

/-- A tree of plain nodes only. -/
inductive IsPlain : Node → Prop where
  | mk {kind : Kind} {span : Span} {children : List Node} :
      kind.IsPlain → (∀ child ∈ children, IsPlain child) → IsPlain ⟨kind, span, children⟩

theorem IsPlain.leaf {kind : Kind} (hkind : kind.IsPlain) (span : Span) :
    IsPlain ⟨kind, span, []⟩ :=
  .mk hkind fun _ hchild => by cases hchild

variable {node : Node} {nodes : List Node}

theorem sitesFromAll_of_forall
    (h : ∀ node ∈ nodes, ∀ bound, sitesFrom Scan.isScanned bound node = [])
    (bound inner : List String) (outside : Nat) :
    sitesFromAll Scan.isScanned bound inner outside nodes = [] := by
  induction nodes generalizing outside with
  | nil => rw [sitesFromAll]
  | cons node rest ih =>
      rw [List.forall_mem_cons] at h
      cases outside <;> rw [sitesFromAll, h.1, ih h.2, List.append_nil]

/-- Nothing is scanned in a plain tree. -/
theorem IsPlain.sites (h : IsPlain node) :
    ∀ bound, sitesFrom Scan.isScanned bound node = [] := by
  induction h with
  | @mk kind span children hkind _ ih =>
      intro bound
      have hscanned : Scan.isScanned kind = false := by cases hkind <;> rfl
      rw [sitesFrom, hscanned, sitesFromAll_of_forall ih]
      rfl

theorem haveOnlyPatternDefaults_of_forall
    (h : ∀ node ∈ nodes, hasOnlyPatternDefaults node = true) :
    haveOnlyPatternDefaults nodes = true := by
  induction nodes with
  | nil => rw [haveOnlyPatternDefaults]
  | cons node rest ih =>
      rw [List.forall_mem_cons] at h
      rw [haveOnlyPatternDefaults, h.1, ih h.2, Bool.and_self]

theorem IsPlain.hasOnlyPatternDefaults (h : IsPlain node) : hasOnlyPatternDefaults node = true := by
  induction h with
  | mk hkind _ ih =>
      have hchildren := haveOnlyPatternDefaults_of_forall ih
      cases hkind <;> simpa only [Syntax.hasOnlyPatternDefaults] using hchildren

theorem exportedNamesIn_of_forall (h : ∀ node ∈ nodes, allExportedNames node = []) :
    exportedNamesIn nodes = [] := by
  induction nodes with
  | nil => rw [exportedNamesIn]
  | cons node rest ih =>
      rw [List.forall_mem_cons] at h
      rw [exportedNamesIn, h.1, ih h.2, List.append_nil]

theorem IsPlain.allExportedNames (h : IsPlain node) : allExportedNames node = [] := by
  induction h with
  | mk hkind _ ih =>
      rw [Syntax.allExportedNames, exportedNamesIn_of_forall ih]
      cases hkind <;> rfl

theorem declarationsIn_of_forall
    (h : ∀ node ∈ nodes, blockDeclarations node = [] ∧ variableDeclarations node = []) :
    blockDeclarationsIn nodes = [] ∧ variableDeclarationsIn nodes = [] := by
  induction nodes with
  | nil => rw [blockDeclarationsIn, variableDeclarationsIn]; exact ⟨rfl, rfl⟩
  | cons node rest ih =>
      rw [List.forall_mem_cons] at h
      rw [blockDeclarationsIn, variableDeclarationsIn, h.1.1, h.1.2, (ih h.2).1, (ih h.2).2]
      exact ⟨rfl, rfl⟩

/-- A plain tree declares nothing around it. -/
theorem IsPlain.declarations (h : IsPlain node) :
    blockDeclarations node = [] ∧ variableDeclarations node = [] := by
  induction h with
  | mk hkind _ ih =>
      obtain ⟨hblock, hvariable⟩ := declarationsIn_of_forall ih
      cases hkind <;>
        simp [blockDeclarations, ownDeclarations, variableDeclarations, hblock, hvariable,
          Kind.opensScope, Kind.keepsVariables]

theorem haveValidScopes_of_forall (h : ∀ node ∈ nodes, hasValidScopes node = true) :
    haveValidScopes nodes = true := by
  induction nodes with
  | nil => rw [haveValidScopes]
  | cons node rest ih =>
      rw [List.forall_mem_cons] at h
      rw [haveValidScopes, h.1, ih h.2, Bool.and_self]

theorem IsPlain.hasValidScopes (h : IsPlain node) : hasValidScopes node = true := by
  induction h with
  | mk hkind _ ih =>
      rw [Syntax.hasValidScopes, haveValidScopes_of_forall ih]
      cases hkind <;> rfl

/-! ## Programs of one statement -/

theorem programBody_statements {grammar : Grammar} {context : Context} {progress last : Progress}
    (hbody : Grammar.statements grammar true context progress = some (nodes, last))
    (hend : last.token.kind = .finish) :
    programBody grammar context progress =
      some (⟨.program, ⟨0, last.token.stop.offset⟩, nodes⟩, last) := by
  simp [programBody, hbody, hend]

/-- The code in front of a value that a module exports. -/
def exportsStart : List Char := "module.exports = ".toList

/-- The four tokens in front of the value. -/
theorem lexes_exportsStart (tail : List Char) :
    Lexes (exportsStart ++ tail) (.word .module_ "module" false) (".exports = ".toList ++ tail) ∧
      Lexes (".exports = ".toList ++ tail) (.mark .dot) ("exports = ".toList ++ tail) ∧
      Lexes ("exports = ".toList ++ tail) (.word .other "exports" false) (" = ".toList ++ tail) ∧
      Lexes (" = ".toList ++ tail) (.mark .assign) (' ' :: tail) :=
  ⟨fun _ _ _ => ⟨rfl, rfl⟩, fun _ _ _ => ⟨rfl, rfl⟩, fun _ _ _ => ⟨rfl, rfl⟩,
    fun _ _ _ => ⟨rfl, rfl⟩⟩

section Statement

open Reading

variable {context : Context} {progress stop : Progress} {depth : Nat}

/-- The whole program assigns a value to a property of `module`. -/
theorem programBody_exports (hroom : Grammar.Roomy (depth + 8) context) {target exports : String}
    (hyields : Yields progress.token
      [.word .module_ target false, .mark .dot, .word .other exports false, .mark .assign])
    (hvalue : Grammar.ofDepth (depth + 8) .assignment context
      (pass (pass (pass (pass progress)))) = some (node, stop))
    (hplain : IsPlain node) (hsemicolon : stop.token.kind = .mark .semicolon)
    (hfinish : stop.token.next.kind = .finish) :
    ∃ span statement last,
      programBody (Grammar.ofDepth (depth + 10)) context progress =
        some (⟨.program, span, [statement]⟩, last) ∧ IsPlain statement := by
  obtain ⟨htarget, hdot, hexports, hassign, -⟩ := hyields
  have hlimit : 0 < context.limit := Nat.zero_lt_of_lt hroom.limit
  have hoperand : Grammar.IsOperand progress.token.kind := by
    rw [htarget]
    exact .name target (.inl rfl)
  have hleft := Grammar.unary_member (depth + 5) hroom.limit hroom.types (.inl rfl) htarget hdot
    hexports (by rw [hassign]; exact .operand .assign)
  have hmarked : (pass (pass (pass progress))).token.kind = .mark .assign := hassign
  have hproperty : Grammar.ofDepth (depth + 8) (.operators 0) context progress = _ :=
    Grammar.operators_operand 0 hlimit hoperand hleft (by rw [hmarked]; exact .assign)
  have hassignment : Grammar.ofDepth (depth + 9) .assignment context progress = _ :=
    Grammar.assignment_to_member hroom.arrow hoperand (by rw [hdot]; decide) hproperty hmarked
      hvalue
  have hstatement := Grammar.expressionStatement_assignment hlimit hassignment hsemicolon
  rw [← Grammar.statement_module false hroom.types htarget] at hstatement
  have hread : Grammar.ofDepth (depth + 10) (.statement false) context progress = _ := hstatement
  have hstatements := Grammar.statements_single hroom.limit htarget hread
    (by rw [pass_token]; exact hfinish)
  refine ⟨_, _, _, programBody_statements hstatements (by rw [pass_token]; exact hfinish), ?_⟩
  have hproperty : IsPlain ⟨.staticMember exports false,
      ⟨progress.token.start.offset, progress.token.next.next.stop.offset⟩,
      [⟨.reference (.ofText target), progress.token.span, []⟩]⟩ :=
    .mk (.member _ _) (by simpa using .leaf (.reference _) _)
  exact .mk .statement (by simpa using .mk (.assignment _) (by simpa using ⟨hproperty, hplain⟩))

end Statement

/-- A program of one plain statement is valid, keeps its source and has nothing to scan in it. -/
theorem read?_plain {source : String} {span : Span} {last : Progress} (hplain : IsPlain node)
    (hbody : readStart? programBody source = some (⟨.program, span, [node]⟩, last)) :
    ∃ program, Program.read? false source = some program ∧ program.isValid = true ∧
      program.source = source ∧ program.sites Scan.isScanned = [] := by
  obtain ⟨hblock, hvariable⟩ := hplain.declarations
  have hdefaults : hasOnlyPatternDefaults ⟨.program, span, [node]⟩ = true := by
    simp only [hasOnlyPatternDefaults, haveOnlyPatternDefaults, hplain.hasOnlyPatternDefaults,
      Bool.and_self]
  have hexports : allExportedNames ⟨.program, span, [node]⟩ = [] := by
    simp only [allExportedNames, exportedNamesIn, hplain.allExportedNames, exportedNames,
      List.append_nil]
  refine ⟨⟨source, ⟨.program, span, [node]⟩, last.comments.reverse⟩, ?_, ?_, rfl, ?_⟩
  · rw [Program.read?_eq, hbody]
    simp [hdefaults, hexports]
  · simp [Program.isValid, hasValidScopes, haveValidScopes, hplain.hasValidScopes,
      scopeDeclarations, Kind.opensScope, blockDeclarationsIn, variableDeclarationsIn, hblock,
      hvariable, hasClash]
  · simp [Program.sites, sitesFrom, sitesFromAll, Scan.isScanned, Kind.outerChildren, hplain.sites]

/-- A valid program is a script. -/
theorem readScript_of_read? {source : String} {program : Program}
    (hread : Program.read? false source = some program) (hvalid : program.isValid = true) :
    ModuleSource.readScript source = .ok program := by
  rw [ModuleSource.readScript, ModuleSource.readProgram, hread]
  exact if_pos hvalid

end WebBundle.Syntax
