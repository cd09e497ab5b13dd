import WebBundle.Proofs.Text.Quoted
import WebBundle.Worklet.Request

/-!
# Worklet requests read back

What is written as a loader request or as the id of a worklet module is read back as
the same query and the same request, whatever they contain.  So different queries or
requests never share a spelling.
-/

namespace WebBundle.Worklet

open Json Quoted

theorem behind?_append (start text : List Char) : behind? start (start ++ text) = some text := by
  induction start with
  | nil => rfl
  | cons c start ih =>
      rw [List.cons_append, behind?, if_pos rfl]
      exact ih

theorem skipBlank_cons {c : Char} (hc : isBlank c = false) (rest : List Char) :
    skipBlank (c :: rest) = c :: rest := by
  rw [skipBlank, List.dropWhile_cons_of_neg (by simp [hc])]

theorem encode_append (text : String) (rest : List Char) :
    encode text.toList ++ rest = '"' :: (text.toList.flatMap escape ++ '"' :: rest) := by
  rw [encode, List.append_assoc, List.cons_append, List.cons_append, List.nil_append]

/-- The reader of values takes a quoted text as a string. -/
theorem readValue?_encode (fuel : Nat) (text : String) (rest : List Char) :
    readValue? (fuel + 1) (encode text.toList ++ rest) = some (.string (some text), rest) := by
  rw [encode_append]
  simp only [readValue?, readString?_encode, Option.map_some]

theorem skipBlank_encode (text : String) (rest : List Char) :
    skipBlank (encode text.toList ++ rest) = encode text.toList ++ rest := by
  rw [encode_append, skipBlank_cons (by decide)]

/-- The last member of an object. -/
theorem readMembers?_last (fuel : Nat) (key value : String) (rest : List Char) :
    readMembers? (fuel + 2)
        (encode key.toList ++ ':' :: (encode value.toList ++ '\x7d' :: rest)) =
      some ([(some key, .string (some value))], rest) := by
  rw [encode_append, readMembers?]
  simp only [readString?_encode]
  rw [skipBlank_cons (by decide)]
  simp only [skipBlank_encode, readValue?_encode]
  rw [skipBlank_cons (by decide)]
  rfl

/-- A member of an object with more members behind it. -/
theorem readMembers?_more (fuel : Nat) (key value : String) (rest : List Char) :
    readMembers? (fuel + 2)
        (encode key.toList ++ ':' :: (encode value.toList ++ ',' :: rest)) =
      (readMembers? (fuel + 1) (skipBlank rest)).map fun (members, rest) =>
        ((some key, .string (some value)) :: members, rest) := by
  rw [encode_append, readMembers?]
  simp only [readString?_encode]
  rw [skipBlank_cons (by decide)]
  simp only [skipBlank_encode, readValue?_encode]
  rw [skipBlank_cons (by decide)]
  rfl

theorem readValue?_object (fuel : Nat) (key : String) (rest : List Char) :
    readValue? (fuel + 1) ('\x7b' :: (encode key.toList ++ rest)) =
      (readMembers? fuel (encode key.toList ++ rest)).map fun (members, rest) =>
        (.object members, rest) := by
  rw [readValue?, skipBlank_encode, encode_append]
  rfl

theorem readPart?_object (key : String) (rest : List Char) :
    ∃ fuel, readPart? ('\x7b' :: (encode key.toList ++ rest)) =
      (readMembers? (fuel + 3) (encode key.toList ++ rest)).map fun (members, rest) =>
        (.object members, rest) := by
  refine ⟨2 * (encode key.toList ++ rest).length, ?_⟩
  rw [readPart?, skipBlank_cons (by decide), List.length_cons]
  exact readValue?_object _ key rest

/-- The object that spells the query of a loader request. -/
theorem readPart?_loaderQuery (query : LoaderQuery) (rest : List Char) :
    readPart? (query.spell ++ rest) =
      some (.object [(some "name", .string (some query.name))], rest) := by
  have hspell : query.spell ++ rest = '\x7b' :: (encode "name".toList ++
      ':' :: (encode query.name.toList ++ '\x7d' :: rest)) := by
    change ('\x7b' :: (encode "name".toList ++ ':' :: encode query.name.toList) ++
      ['\x7d']) ++ rest = _
    simp only [List.cons_append, List.append_assoc, List.nil_append]
  obtain ⟨fuel, hpart⟩ := readPart?_object "name"
    (':' :: (encode query.name.toList ++ '\x7d' :: rest))
  rw [hspell, hpart, readMembers?_last]
  rfl

/-- The object that spells the query of a worklet module. -/
theorem readPart?_moduleQuery (query : ModuleQuery) (rest : List Char) :
    readPart? (query.spell ++ rest) =
      some (.object [(some "name", .string (some query.name)),
        (some "context", .string (some query.context))], rest) := by
  have hspell : query.spell ++ rest = '\x7b' :: (encode "name".toList ++
      ':' :: (encode query.name.toList ++ ',' :: (encode "context".toList ++
        ':' :: (encode query.context.toList ++ '\x7d' :: rest)))) := by
    change ('\x7b' :: (encode "name".toList ++ ':' :: encode query.name.toList) ++
      ',' :: (encode "context".toList ++ ':' :: encode query.context.toList) ++
        ['\x7d']) ++ rest = _
    simp only [List.cons_append, List.append_assoc, List.nil_append]
  obtain ⟨fuel, hpart⟩ := readPart?_object "name"
    (':' :: (encode query.name.toList ++ ',' :: (encode "context".toList ++
      ':' :: (encode query.context.toList ++ '\x7d' :: rest))))
  rw [hspell, hpart, readMembers?_more, skipBlank_encode, readMembers?_last]
  rfl

/-- A loader request reads back. -/
theorem decode_encodeLoaderRequest (query : LoaderQuery) (request : String) :
    decodeLoaderRequest? (encodeLoaderRequest query request) = some (query, request) := by
  rw [decodeLoaderRequest?, encodeLoaderRequest, String.toList_ofList, split?,
    List.append_assoc, behind?_append]
  simp only [readPart?_loaderQuery, String.ofList_toList]
  rfl

/-- The id of a worklet module reads back. -/
theorem decode_encodeModuleId (query : ModuleQuery) (request : String) :
    decodeModuleId? (encodeModuleId query request) = some (query, request) := by
  rw [decodeModuleId?, encodeModuleId, String.toList_ofList, split?,
    List.append_assoc, behind?_append]
  simp only [readPart?_moduleQuery, String.ofList_toList]
  rfl

theorem isLoaderRequest_encode (query : LoaderQuery) (request : String) :
    isLoaderRequest (encodeLoaderRequest query request) = true := by
  rw [isLoaderRequest, encodeLoaderRequest, String.toList_ofList, List.append_assoc,
    behind?_append]
  rfl

theorem isModuleId_encode (query : ModuleQuery) (request : String) :
    isModuleId (encodeModuleId query request) = true := by
  rw [isModuleId, encodeModuleId, String.toList_ofList, List.append_assoc, behind?_append]
  rfl

/-- Ids of worklet modules are the same only for the same query and request. -/
theorem encodeModuleId_inj {first second : ModuleQuery} {request other : String} :
    encodeModuleId first request = encodeModuleId second other ↔
      first = second ∧ request = other := by
  constructor
  · intro heq
    have hread := congrArg decodeModuleId? heq
    rw [decode_encodeModuleId, decode_encodeModuleId, Option.some.injEq,
      Prod.mk.injEq] at hread
    exact hread
  · rintro ⟨rfl, rfl⟩
    rfl

end WebBundle.Worklet
