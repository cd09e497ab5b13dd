import WebBundle.Proofs.Json.Parts
import WebBundle.Proofs.Worklet.Request

/-!
# Which texts are requests

A text is read as a loader request, or as the id of a worklet module, exactly if it is the
fixed start, one JSON value that gives the query, an exclamation mark and the request.  The
boundary needs no search for the mark: a JSON value ends where its reader ends it, and an
exclamation mark goes on with no number.
-/

namespace WebBundle.Worklet

open Json

theorem behind?_eq_some_iff {start text behind : List Char} :
    behind? start text = some behind ↔ text = start ++ behind := by
  constructor
  · intro hread
    fun_induction behind? start text with
    | case1 text =>
        cases hread
        rfl
    | case2 => cases hread
    | case3 expected start text ih => rw [List.cons_append, ← ih hread]
    | case4 => cases hread
  · rintro rfl
    exact behind?_append start behind

/-- What is split off a text is one JSON value, with a mark behind it. -/
theorem split?_eq_some_iff {start text request : List Char} {json : Json} :
    split? start text = some (json, request) ↔
      ∃ part, text = start ++ part ++ '!' :: request ∧ readPart? part = some (json, []) := by
  constructor
  · intro hsplit
    rw [split?] at hsplit
    split at hsplit
    · cases hsplit
    · rename_i behind hbehind
      split at hsplit
      · rename_i found later hread
        cases hsplit
        obtain ⟨part, rfl, htakes⟩ := readPart?_takes hread
        have halone := htakes [] stops_nil
        rw [List.append_nil] at halone
        rw [behind?_eq_some_iff, ← List.append_assoc] at hbehind
        exact ⟨part, hbehind, halone⟩
      · cases hsplit
  · rintro ⟨part, rfl, hread⟩
    obtain ⟨value, hvalue, htakes⟩ := readPart?_takes hread
    rw [List.append_nil] at hvalue
    subst hvalue
    rw [split?, List.append_assoc, behind?_append]
    simp only [htakes ('!' :: request) (stops_cons.mpr (by decide))]

/-- What a text says that reads as a request: a start, one JSON value that gives the query, a
mark, and the request. -/
theorem map_split?_eq_some_iff {Query : Type} {start : List Char} {ofJson? : Json → Option Query}
    {text request : String} {query : Query} :
    (split? start text.toList).bind
        (fun (json, behind) => (ofJson? json).map (·, String.ofList behind)) =
        some (query, request) ↔
      ∃ part json, text = String.ofList start ++ part ++ "!" ++ request ∧
        readPart? part.toList = some (json, []) ∧ ofJson? json = some query := by
  simp only [Option.bind_eq_some_iff, Option.map_eq_some_iff, Prod.exists, Prod.mk.injEq,
    split?_eq_some_iff]
  constructor
  · rintro ⟨json, behind, ⟨part, htext, hread⟩, found, hfound, rfl, rfl⟩
    refine ⟨String.ofList part, json, ?_, by rwa [String.toList_ofList], hfound⟩
    rw [← String.toList_inj, htext]
    simp
  · rintro ⟨part, json, rfl, hread, hfound⟩
    exact ⟨json, request.toList, ⟨part.toList, by simp, hread⟩, query, hfound, rfl,
      String.ofList_toList⟩

theorem decodeLoaderRequest?_eq_some_iff {text request : String} {query : LoaderQuery} :
    decodeLoaderRequest? text = some (query, request) ↔
      ∃ part json, text = String.ofList loaderStart ++ part ++ "!" ++ request ∧
        readPart? part.toList = some (json, []) ∧ LoaderQuery.ofJson? json = some query := by
  rw [← map_split?_eq_some_iff, decodeLoaderRequest?]
  cases split? loaderStart text.toList <;> rfl

theorem decodeModuleId?_eq_some_iff {text request : String} {query : ModuleQuery} :
    decodeModuleId? text = some (query, request) ↔
      ∃ part json, text = String.ofList moduleStart ++ part ++ "!" ++ request ∧
        readPart? part.toList = some (json, []) ∧ ModuleQuery.ofJson? json = some query := by
  rw [← map_split?_eq_some_iff, decodeModuleId?]
  cases split? moduleStart text.toList <;> rfl

/-- The two kinds of request differ in their first character. -/
theorem behind?_other (text : List Char) :
    behind? moduleStart (loaderStart ++ text) = none ∧
      behind? loaderStart (moduleStart ++ text) = none :=
  ⟨rfl, rfl⟩

theorem decodeModuleId?_encodeLoaderRequest (query : LoaderQuery) (request : String) :
    decodeModuleId? (encodeLoaderRequest query request) = none := by
  rw [decodeModuleId?, encodeLoaderRequest, String.toList_ofList, split?, List.append_assoc,
    (behind?_other _).1]

theorem decodeLoaderRequest?_encodeModuleId (query : ModuleQuery) (request : String) :
    decodeLoaderRequest? (encodeModuleId query request) = none := by
  rw [decodeLoaderRequest?, encodeModuleId, String.toList_ofList, split?, List.append_assoc,
    (behind?_other _).2]

theorem encodeLoaderRequest_inj {first second : LoaderQuery} {request other : String} :
    encodeLoaderRequest first request = encodeLoaderRequest second other ↔
      first = second ∧ request = other := by
  constructor
  · intro heq
    have hread := congrArg decodeLoaderRequest? heq
    rw [decode_encodeLoaderRequest, decode_encodeLoaderRequest, Option.some.injEq,
      Prod.mk.injEq] at hread
    exact hread
  · rintro ⟨rfl, rfl⟩
    rfl

/-- Both kinds of request read back as what they were written from, so what is written is different
for different queries or requests; neither kind is read as the other; and a text is read as a
request exactly if it is the start of its kind, one JSON value that gives the query, an
exclamation mark, and the request as it is. -/
theorem request_codec :
    (∀ query request,
      decodeLoaderRequest? (encodeLoaderRequest query request) = some (query, request)) ∧
    (∀ query request, decodeModuleId? (encodeModuleId query request) = some (query, request)) ∧
    Function.Injective (Function.uncurry encodeLoaderRequest) ∧
    Function.Injective (Function.uncurry encodeModuleId) ∧
    (∀ query request, decodeModuleId? (encodeLoaderRequest query request) = none) ∧
    (∀ query request, decodeLoaderRequest? (encodeModuleId query request) = none) ∧
    (∀ text query request, decodeLoaderRequest? text = some (query, request) ↔
      ∃ part json, text = String.ofList loaderStart ++ part ++ "!" ++ request ∧
        readPart? part.toList = some (json, []) ∧ LoaderQuery.ofJson? json = some query) ∧
    (∀ text query request, decodeModuleId? text = some (query, request) ↔
      ∃ part json, text = String.ofList moduleStart ++ part ++ "!" ++ request ∧
        readPart? part.toList = some (json, []) ∧ ModuleQuery.ofJson? json = some query) := by
  refine ⟨decode_encodeLoaderRequest, decode_encodeModuleId, ?_, ?_,
    decodeModuleId?_encodeLoaderRequest, decodeLoaderRequest?_encodeModuleId,
    fun _ _ _ => decodeLoaderRequest?_eq_some_iff, fun _ _ _ => decodeModuleId?_eq_some_iff⟩
  · rintro ⟨first, request⟩ ⟨second, other⟩ heq
    exact Prod.ext_iff.mpr (encodeLoaderRequest_inj.mp heq)
  · rintro ⟨first, request⟩ ⟨second, other⟩ heq
    exact Prod.ext_iff.mpr (encodeModuleId_inj.mp heq)

end WebBundle.Worklet
