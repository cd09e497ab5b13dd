import WebBundle.Proofs.Build.ColdScan
import WebBundle.Proofs.Json.Data
import WebBundle.Proofs.Json.Trimmed
import WebBundle.Proofs.Output.Rendering

/-!
# JSON modules

The code of a JSON module assigns the document to `module.exports`.  What the reader of JSON takes
is an expression of scripts, so every document gives a program.  There is nothing to scan in it,
and the module is rendered as its code.
-/

namespace WebBundle

open Syntax Reading Grammar

namespace ModuleSource

/-- The code of a JSON module, character by character. -/
theorem toList_jsonScript (text : String) :
    (jsonScript text).toList = exportsStart ++ (trim text.toList ++ [';']) := by
  -- the text in front stays folded: it is long enough to stop the rewriting
  have hcode (front : String) (value : List Char) :
      (front ++ String.ofList value ++ ";").toList = front.toList ++ (value ++ [';']) := by
    rw [String.toList_append, String.toList_append, String.toList_ofList, List.append_assoc]
    rfl
  exact hcode _ _

/-- A value that is exported is one plain statement. -/
theorem programBody_value {fuel depth : Nat} {tail : List Char} {value : Json} {context : Context}
    {progress : Progress} (hread : Json.readValue? fuel tail = some (value, [';']))
    (hroom : Roomy (depth + 8) context) (hspacious : Spacious tail.length (depth + 8) context)
    (hat : ReadAt progress.token (exportsStart ++ tail)) :
    ∃ span statement last,
      programBody (ofDepth (depth + 10)) context progress =
        some (⟨.program, span, [statement]⟩, last) ∧ IsPlain statement := by
  obtain ⟨hmodule, hdot, hexports, hassign⟩ := lexes_exportsStart tail
  have hatDot := hat.next hmodule
  have hatExports := hatDot.next hdot
  have hatAssign := hatExports.next hexports
  have hatValue := (hatAssign.next hassign).blank
  simp only [← pass_token] at hatValue
  have hclosing : Closing [';'] := ⟨';', by decide, [], rfl⟩
  obtain ⟨-, node, stop, hnode, hstop, hplain⟩ :=
    (allRead fuel).value hread hclosing hspacious _ hatValue
  have hsemicolon : Lexes [';'] (.mark .semicolon) [] := fun _ _ _ => ⟨rfl, rfl⟩
  have hfinish : Lexes [] .finish [] := fun _ _ _ => ⟨rfl, rfl⟩
  exact programBody_exports hroom
    ⟨hat.kind hmodule, hatDot.kind hdot, hatExports.kind hexports, hatAssign.kind hassign, trivial⟩
    hnode hplain (hstop.kind hsemicolon) ((hstop.next hsemicolon).kind hfinish)

/-- The code of a JSON module is one plain statement. -/
theorem programBody_jsonScript {text : String} {value : Json}
    (hread : Json.read? text = some value) :
    ∃ span statement last,
      readStart? programBody (jsonScript text) = some (⟨.program, span, [statement]⟩, last) ∧
        IsPlain statement := by
  obtain ⟨fuel, hvalue⟩ := Json.readValue?_trim hread
  replace hvalue := hvalue [';'] (Json.stops_cons.mpr (by decide))
  have hcode := toList_jsonScript text
  generalize ModuleSource.trim text.toList ++ [';'] = tail at hvalue hcode
  generalize jsonScript text = source at hcode
  have hat : ReadAt (Progress.atStart source).token (exportsStart ++ tail) := by
    rw [← hcode]
    exact readAt_firstToken (by rw [hcode]; nofun)
  have hsize : source.toList.length = tail.length + 17 := by
    have hstart : exportsStart.length = 17 := by decide
    rw [hcode, List.length_append, hstart, Nat.add_comm]
  have hdepth : 16 * (source.toList.length + 4) = 16 * source.toList.length + 54 + 10 := by omega
  simp only [readStart?]
  rw [hdepth]
  generalize Progress.atStart source = progress at hat
  have hroom : Roomy (16 * source.toList.length + 54 + 8)
      { hasTypes := false, limit := source.toList.length + 4 } :=
    { roomy_atStart source.toList.length with depth := by omega }
  have hspacious : Spacious tail.length (16 * source.toList.length + 54 + 8)
      { hasTypes := false, limit := source.toList.length + 4 } :=
    ⟨by omega, by change _ < source.toList.length + 4; omega, rfl, rfl⟩
  exact programBody_value hvalue hroom hspacious hat

end ModuleSource

namespace Scan

open ModuleSource

/-- A program without sites gives nothing, whatever the hooks are. -/
theorem scan_of_no_sites {σ : Type} {program : Program} (hsites : program.sites isScanned = [])
    (hooks : List (Hook σ)) (state : σ) : scan hooks program state = ({}, state) := by
  rw [scan, hsites, List.foldl_nil]

/-- A document with white space around it, an exponent, a surrogate pair and a repeated key. -/
def spacedDocument : String :=
  "\n\x7b \"a\": [-2.5e3, \"\\ud83d\\ude00\"], \"a\": \x7b\x7d \x7d\t"

end Scan

end WebBundle
