import WebBundle.Proofs.Output.Named
import WebBundle.Proofs.Path.Below

/-!
# Public paths that chunks find

A chunk whose public path is `auto` takes the URL it was loaded from, cuts its own name off and
walks up as many directories as it lies below the output directory.  These are counted in the name
that the chunk has before the hash of its content is known.  They are as many in its final name, so
wherever the output directory is published, the walk leads back to it.
-/

namespace WebBundle

namespace Path

/-! ## Directories -/

/-- Directories one below the other, each with its slash. -/
def below (directories : List (List Char)) : List Char := directories.flatMap (· ++ ['/'])

theorem below_append (before after : List (List Char)) :
    below (before ++ after) = below before ++ below after := List.flatMap_append

theorem joinSegments_concat (directories : List (List Char)) (name : List Char) :
    joinSegments (directories ++ [name]) = below directories ++ name := by
  induction directories with
  | nil => rfl
  | cons first rest ih =>
      rw [below, List.flatMap_cons, List.append_assoc, List.append_assoc, List.singleton_append,
        List.cons_append, ← below, ← ih]
      cases rest <;> rfl

/-- Texts without a slash are the segments of what is made of them. -/
theorem segments_below {directories : List (List Char)} {name : List Char}
    (hdirectories : ∀ directory ∈ directories, '/' ∉ directory) (hname : '/' ∉ name) :
    segments (below directories ++ name) = directories ++ [name] := by
  rw [← joinSegments_concat]
  refine segments_joinSegments ?_ (by simp)
  intro part hpart
  rcases List.mem_append.mp hpart with hpart | hpart
  · exact hdirectories part hpart
  · rwa [List.mem_singleton.mp hpart]

/-- A text is made of its directories and what stands behind the last slash. -/
theorem exists_below (text : List Char) : ∃ directories name,
    text = below directories ++ name ∧ segments text = directories ++ [name] ∧
      (∀ directory ∈ directories, '/' ∉ directory) ∧ '/' ∉ name := by
  induction text with
  | nil => exact ⟨[], [], rfl, rfl, by simp, by simp⟩
  | cons c rest ih =>
      obtain ⟨directories, name, rfl, -, hdirectories, hname⟩ := ih
      by_cases hc : c = '/'
      · subst hc
        have hmore : ∀ directory ∈ [] :: directories, '/' ∉ directory := by simpa using hdirectories
        exact ⟨[] :: directories, name, rfl, segments_below hmore hname, hmore, hname⟩
      · cases directories with
        | nil =>
            have hmore : '/' ∉ c :: name := by simpa [Ne.symm hc] using hname
            exact ⟨[], c :: name, rfl, @segments_below [] (c :: name) (by simp) hmore, by simp,
              hmore⟩
        | cons first more =>
            have hmore : ∀ directory ∈ (c :: first) :: more, '/' ∉ directory := by
              simpa [Ne.symm hc] using hdirectories
            exact ⟨(c :: first) :: more, name, rfl, segments_below hmore hname, hmore, hname⟩

theorem joinSegments_segments (text : List Char) : joinSegments (segments text) = text := by
  obtain ⟨directories, name, htext, hsegments, -, -⟩ := exists_below text
  rw [hsegments, joinSegments_concat, ← htext]

/-- Behind a slash, directories end with a slash. -/
theorem exists_eq_concat_slash (directories : List (List Char)) :
    ∃ front, '/' :: below directories = front ++ ['/'] := by
  rcases List.eq_nil_or_concat directories with rfl | ⟨rest, last, rfl⟩
  · exact ⟨[], rfl⟩
  · exact ⟨'/' :: (below rest ++ last), by simp [below]⟩

theorem count_below {directories : List (List Char)}
    (hdirectories : ∀ directory ∈ directories, '/' ∉ directory) :
    (below directories).count '/' = directories.length := by
  induction directories with
  | nil => rfl
  | cons first rest ih =>
      rw [List.forall_mem_cons] at hdirectories
      rw [below, List.flatMap_cons, List.count_append, List.count_append,
        List.count_eq_zero.mpr hdirectories.1, ← below, ih hdirectories.2, List.length_cons,
        List.count_singleton_self, Nat.zero_add, Nat.add_comm]

end Path

/-! ## URLs -/

/-- A URL without a query and without a fragment: its scheme and authority, and its path behind the
first slash. -/
structure Url where
  origin : List Char
  path : List Char
  noQuery : '?' ∉ origin ++ '/' :: path
  noFragment : '#' ∉ origin ++ '/' :: path

namespace Url

/-- A URL as it is written. -/
def text (url : Url) : List Char := url.origin ++ '/' :: url.path

/-- Takes the dot segments out of a path, of which some segments are kept already; those are given
from the last one to the first.  A path that ends in a dot segment is that of a directory. -/
def removeDots : (kept : List (List Char)) → List (List Char) → List (List Char)
  | kept, [] => kept.reverse
  | kept, [last] =>
    if last = ['.'] then ([] :: kept).reverse
    else if last = ['.', '.'] then ([] :: kept.tail).reverse
    else (last :: kept).reverse
  | kept, segment :: next :: rest =>
    if segment = ['.'] then removeDots kept (next :: rest)
    else if segment = ['.', '.'] then removeDots kept.tail (next :: rest)
    else removeDots (segment :: kept) (next :: rest)

/-- A URL without dot segments, as it is written. -/
def normalized (url : Url) : List Char :=
  url.origin ++ '/' :: Path.joinSegments (removeDots [] (Path.segments url.path))

/-- Segments that are no dot segments. -/
def Plain (segments : List (List Char)) : Prop := ['.'] ∉ segments ∧ ['.', '.'] ∉ segments

variable {kept rest segments directories : List (List Char)}

theorem removeDots_cons (segment : List Char) (hrest : rest ≠ []) :
    removeDots kept (segment :: rest) =
      removeDots (if segment = ['.'] then kept else if segment = ['.', '.'] then kept.tail
        else segment :: kept) rest := by
  cases rest with
  | nil => exact absurd rfl hrest
  | cons next more =>
      rw [removeDots]
      split
      · rfl
      · split <;> rfl

theorem removeDots_plain (h : Plain segments) :
    removeDots kept segments = kept.reverse ++ segments := by
  induction segments generalizing kept with
  | nil => simp [removeDots]
  | cons segment rest ih =>
      simp only [Plain, List.mem_cons, not_or] at h
      obtain ⟨⟨hcurrent, hrestCurrent⟩, hparent, hrestParent⟩ := h
      by_cases hrest : rest = []
      · subst hrest
        rw [removeDots, if_neg (Ne.symm hcurrent), if_neg (Ne.symm hparent), List.reverse_cons]
      · rw [removeDots_cons segment hrest, if_neg (Ne.symm hcurrent), if_neg (Ne.symm hparent),
          ih ⟨hrestCurrent, hrestParent⟩, List.reverse_cons, List.append_assoc]
        rfl

/-- Going down and then up again as often leads nowhere. -/
theorem removeDots_climb (h : Plain directories) (hrest : rest ≠ []) :
    removeDots kept (directories ++ (List.replicate directories.length ['.', '.'] ++ rest)) =
      removeDots kept rest := by
  induction directories generalizing kept rest with
  | nil => rfl
  | cons directory more ih =>
      simp only [Plain, List.mem_cons, not_or] at h
      obtain ⟨⟨hcurrent, hmoreCurrent⟩, hparent, hmoreParent⟩ := h
      rw [List.length_cons, List.replicate_succ', List.append_assoc, List.singleton_append,
        List.cons_append, removeDots_cons directory (by simp), if_neg (Ne.symm hcurrent),
        if_neg (Ne.symm hparent), ih ⟨hmoreCurrent, hmoreParent⟩ (by simp),
        removeDots_cons _ hrest]
      rfl

/-- What is kept of the directories in front does not depend on what follows. -/
theorem removeDots_append (kept directories : List (List Char)) : ∃ before, ∀ rest, rest ≠ [] →
    removeDots kept (directories ++ rest) = removeDots before rest := by
  induction directories generalizing kept with
  | nil => exact ⟨kept, fun rest _ => rfl⟩
  | cons directory more ih =>
      obtain ⟨before, hbefore⟩ := ih (if directory = ['.'] then kept else
        if directory = ['.', '.'] then kept.tail else directory :: kept)
      refine ⟨before, fun rest hrest => ?_⟩
      rw [List.cons_append, removeDots_cons directory (by simp [hrest]), hbefore rest hrest]

/-- A text up to its last slash. -/
def directoryOf (text : List Char) : List Char := (text.reverse.dropWhile (· ≠ '/')).reverse

/-- A URL without dot segments stays as it is. -/
theorem normalized_of_plain {url : Url} (h : Plain (Path.segments url.path)) :
    url.normalized = url.text := by
  rw [normalized, removeDots_plain h, List.reverse_nil, List.nil_append,
    Path.joinSegments_segments, text]

theorem directoryOf_append (front : List Char) {name : List Char} (hname : '/' ∉ name) :
    directoryOf (front ++ '/' :: name) = front ++ ['/'] := by
  have hdrop : (name.reverse ++ '/' :: front.reverse).dropWhile (· ≠ '/') =
      '/' :: front.reverse := by
    rw [List.dropWhile_append_of_pos]
    · rfl
    · intro c hc
      refine decide_eq_true ?_
      rintro rfl
      exact hname (List.mem_reverse.mp hc)
  rw [directoryOf, List.reverse_append, List.reverse_cons, List.append_assoc, List.singleton_append,
    hdrop, List.reverse_cons, List.reverse_reverse]

/-- The characters that end a line. -/
def lineTerminators : List Char := ['\n', '\r', '\u2028', '\u2029']

/-- No character of a text ends a line. -/
def oneLine (text : List Char) : Bool := text.all (!lineTerminators.contains ·)

/-- A text up to the first `?` or `#` behind which its last line goes on to the end. -/
def withoutQuery : List Char → List Char
  | [] => []
  | c :: rest =>
    if (c = '?' ∨ c = '#') ∧ oneLine rest then []
    else c :: withoutQuery rest

/-- What may follow the name of a file in a URL: nothing, a query or a fragment. -/
inductive IsQuery : List Char → Prop
  | none : IsQuery []
  | some {c : Char} {rest : List Char} : c = '?' ∨ c = '#' → oneLine rest → IsQuery (c :: rest)

theorem withoutQuery_append {front query : List Char} (hquestion : '?' ∉ front)
    (hhash : '#' ∉ front) (hquery : IsQuery query) : withoutQuery (front ++ query) = front := by
  induction front with
  | nil =>
      cases hquery with
      | none => rfl
      | some hstart hline => exact if_pos ⟨hstart, hline⟩
  | cons c rest ih =>
      rw [List.mem_cons, not_or] at hquestion hhash
      have hc : ¬((c = '?' ∨ c = '#') ∧ oneLine (rest ++ query)) :=
        fun h => h.1.elim (Ne.symm hquestion.1) (Ne.symm hhash.1)
      rw [List.cons_append, withoutQuery, if_neg hc, ih hquestion.2 hhash.2]

end Url

namespace Output

/-! ## Public paths -/

/-- The way up from a directory. -/
def climb (depth : Nat) : List Char := Path.below (List.replicate depth ['.', '.'])

/-- What the code of an `auto` public path gives in a chunk that was loaded from a URL. -/
def foundPublicPath (depth : Nat) (url : List Char) : List Char :=
  Url.directoryOf (Url.withoutQuery url) ++ climb depth

/-- The directories in a filename. -/
def directories (filename : String) : List (List Char) :=
  (Path.segments filename.toList).dropLast

/-- A filename that is read in a URL as the path it is: no segment is empty or a dot segment, and no
character begins a query or a fragment. -/
structure IsUrlPath (filename : String) : Prop where
  noEmpty : [] ∉ Path.segments filename.toList
  plain : Url.Plain (Path.segments filename.toList)
  noQuery : '?' ∉ filename.toList
  noFragment : '#' ∉ filename.toList

/-- How often a pattern stands in a text. -/
def occurrences (pattern text : List Char) : Nat := text.tails.countP fun tail => pattern <+: tail

variable {pattern before after : List Char}

theorem occurrences_cons (pattern : List Char) (c : Char) (text : List Char) :
    occurrences pattern (c :: text) =
      occurrences pattern text + if pattern <+: c :: text then 1 else 0 := by
  rw [occurrences, List.tails_cons, List.countP_cons, occurrences]
  simp

/-- A pattern does not reach over a character that it does not have. -/
theorem prefix_append_cons {c : Char} (hc : c ∉ pattern) :
    pattern <+: before ++ c :: after ↔ pattern <+: before := by
  refine ⟨fun h => ?_, fun h => h.trans (List.prefix_append _ _)⟩
  rcases List.prefix_or_prefix_of_prefix h (List.prefix_append before (c :: after)) with
    hshort | ⟨more, rfl⟩
  · exact hshort
  · cases more with
    | nil => rw [List.append_nil]
    | cons next more =>
        rw [List.prefix_append_right_inj, List.cons_prefix_cons] at h
        exact absurd (h.1 ▸ List.mem_append_right before List.mem_cons_self) hc

theorem occurrences_append_cons {c : Char} (hc : c ∉ pattern) (hpattern : pattern ≠ []) :
    occurrences pattern (before ++ c :: after) =
      occurrences pattern before + occurrences pattern after := by
  induction before with
  | nil =>
      have hhead : ¬ pattern <+: c :: after := by
        intro h
        cases pattern with
        | nil => exact hpattern rfl
        | cons first rest => exact hc ((List.cons_prefix_cons.mp h).1 ▸ List.mem_cons_self)
      have hnil : occurrences pattern [] = 0 := by
        simp [occurrences, hpattern]
      rw [List.nil_append, occurrences_cons, if_neg hhead, hnil, Nat.zero_add, Nat.add_zero]
  | cons first rest ih =>
      rw [List.cons_append, occurrences_cons, occurrences_cons, ih, ← List.cons_append]
      simp only [prefix_append_cons hc]
      omega

theorem occurrences_climb (depth : Nat) : occurrences ['.', '.', '/'] (climb depth) = depth := by
  induction depth with
  | zero => rfl
  | succ depth ih =>
      have hclimb : climb (depth + 1) = '.' :: '.' :: '/' :: climb depth := rfl
      rw [hclimb, occurrences_cons, occurrences_cons, occurrences_cons, ih]
      simp

/-- The code of an `auto` public path in front of the way up. -/
def publicPathStart : String :=
  codeLines publicPathSearch ++
    "    return url.replace(/[?#].*$/, \"\").replace(/[^\\/]*$/, \"\") + "

theorem toList_join_replicate (depth : Nat) :
    (String.join (List.replicate depth "../")).toList = climb depth := by
  induction depth with
  | zero => rfl
  | succ depth ih =>
      rw [List.replicate_succ, String.join_cons, String.toList_append, ih]
      rfl

theorem flatMap_escape_climb (depth : Nat) : (climb depth).flatMap Quoted.escape = climb depth := by
  induction depth with
  | zero => rfl
  | succ depth ih =>
      have hclimb : climb (depth + 1) = ['.', '.', '/'] ++ climb depth := rfl
      rw [hclimb, List.flatMap_append, ih]
      rfl

theorem toList_publicPathCode {parts : ChunkParts} (hauto : parts.publicPath = "auto") :
    (publicPathCode parts).toList =
      publicPathStart.toList ++ '"' :: (climb parts.depth ++ '"' :: ";\n  \x7d)()".toList) := by
  rw [publicPathCode, if_neg (not_not_intro hauto)]
  simp only [String.toList_append, Quoted.literal, String.toList_ofList, Quoted.encode,
    toList_join_replicate, flatMap_escape_climb, publicPathStart]
  simp

/-- The code of the public path walks up as often as the chunk lies deep. -/
theorem occurrences_publicPathCode {parts : ChunkParts} (hauto : parts.publicPath = "auto") :
    occurrences ['.', '.', '/'] (publicPathCode parts).toList = parts.depth := by
  have hstart : occurrences ['.', '.', '/'] publicPathStart.toList = 0 := by decide +kernel
  have hend : occurrences ['.', '.', '/'] ";\n  \x7d)()".toList = 0 := by decide
  rw [toList_publicPathCode hauto, occurrences_append_cons (by simp) (by simp),
    occurrences_append_cons (by simp) (by simp), hstart, occurrences_climb, hend, Nat.zero_add,
    Nat.add_zero]

theorem directoryDepth_eq (filename : String) :
    directoryDepth filename = (directories filename).length := by
  obtain ⟨front, name, htext, hsegments, hfront, hname⟩ := Path.exists_below filename.toList
  rw [directoryDepth, directories, hsegments, List.dropLast_concat, htext, List.count_append,
    Path.count_below hfront, List.count_eq_zero.mpr hname, Nat.add_zero]

theorem notMem_climb {c : Char} (hdot : c ≠ '.') (hslash : c ≠ '/') (depth : Nat) :
    c ∉ climb depth := by
  intro hmem
  obtain ⟨segment, hsegment, hc⟩ := List.mem_flatMap.mp hmem
  rw [List.eq_of_mem_replicate hsegment] at hc
  simp [hdot, hslash] at hc

/-- A URL behind some directories is cut behind them. -/
theorem directoryOf_below (origin : List Char) (directories : List (List Char)) {name : List Char}
    (hname : '/' ∉ name) :
    Url.directoryOf (origin ++ '/' :: (Path.below directories ++ name)) =
      origin ++ '/' :: Path.below directories := by
  obtain ⟨front, hfront⟩ := Path.exists_eq_concat_slash directories
  calc Url.directoryOf (origin ++ '/' :: (Path.below directories ++ name))
    _ = Url.directoryOf ((origin ++ front) ++ '/' :: name) := by
        rw [← List.cons_append, hfront]
        simp
    _ = origin ++ '/' :: Path.below directories := by
        rw [Url.directoryOf_append _ hname, List.append_assoc, hfront]

/-- The way down into some directories and up again has their names and as many dots. -/
theorem segments_climb {above inside : List (List Char)} (habove : ∀ segment ∈ above, '/' ∉ segment)
    (hinside : ∀ segment ∈ inside, '/' ∉ segment) :
    Path.segments (Path.below above ++ (Path.below inside ++ climb inside.length)) =
      above ++ (inside ++ (List.replicate inside.length ['.', '.'] ++ [[]])) := by
  have hpath : Path.below above ++ (Path.below inside ++ climb inside.length) =
      Path.below (above ++ (inside ++ List.replicate inside.length ['.', '.'])) := by
    rw [Path.below_append, Path.below_append, climb]
  have hslash : ∀ segment ∈ above ++ (inside ++ List.replicate inside.length ['.', '.']),
      '/' ∉ segment := by
    intro segment hmem
    rcases List.mem_append.mp hmem with hmem | hmem
    · exact habove segment hmem
    · rcases List.mem_append.mp hmem with hmem | hmem
      · exact hinside segment hmem
      · rw [List.eq_of_mem_replicate hmem]
        decide
  rw [hpath, ← List.append_nil (Path.below _), Path.segments_below hslash List.not_mem_nil]
  simp

/-- Whoever cuts the name off a file in a published directory and climbs as high as the file lies
deep is in the directory. -/
theorem exists_url_of_climb {filename : String} (hfilename : IsUrlPath filename) {base : Url}
    (hbase : base.text.getLast? = some '/') : ∃ url : Url, url.origin = base.origin ∧
      url.text = Url.directoryOf (base.text ++ filename.toList) ++
        climb (directories filename).length ∧
      url.normalized = base.normalized := by
  obtain ⟨origin, path, hquestion, hhash⟩ := base
  obtain ⟨above, last, rfl, habove, haboveSlash, hlast⟩ := Path.exists_below path
  obtain ⟨inside, name, htext, hinside, hinsideSlash, hname⟩ := Path.exists_below filename.toList
  have hplain : Url.Plain inside := by
    have hplain := hfilename.plain
    rw [hinside] at hplain
    exact ⟨mt (List.mem_append_left _) hplain.1, mt (List.mem_append_left _) hplain.2⟩
  obtain rfl : last = [] := by
    by_contra hne
    rw [Url.text, ← List.cons_append, ← List.append_assoc, List.getLast?_append_of_ne_nil _ hne]
      at hbase
    exact hlast (List.mem_of_getLast? hbase)
  rw [directories, hinside, List.dropLast_concat]
  have hkept (c : Char) (hdot : c ≠ '.') (hslash : c ≠ '/')
      (hc : c ∉ origin ++ '/' :: (Path.below above ++ [])) (hfile : c ∉ filename.toList) :
      c ∉ origin ++ '/' :: (Path.below above ++ (Path.below inside ++ climb inside.length)) := by
    have hclimb := notMem_climb hdot hslash inside.length
    rw [htext] at hfile
    simp only [List.mem_append, List.mem_cons, List.append_nil, not_or] at hc hfile ⊢
    exact ⟨hc.1, hc.2.1, hc.2.2, hfile.1, hclimb⟩
  refine ⟨⟨origin, Path.below above ++ (Path.below inside ++ climb inside.length),
    hkept '?' (by decide) (by decide) hquestion hfilename.noQuery,
    hkept '#' (by decide) (by decide) hhash hfilename.noFragment⟩, rfl, ?_, ?_⟩
  · have hfile := directoryOf_below origin (above ++ inside) hname
    rw [Path.below_append, List.append_assoc] at hfile
    simp only [Url.text, List.append_nil, List.append_assoc, List.cons_append, htext, hfile]
  · obtain ⟨kept, hkept⟩ := Url.removeDots_append [] above
    rw [Url.normalized, Url.normalized, segments_climb haboveSlash hinsideSlash, habove,
      hkept _ (by simp), hkept _ (by simp), Url.removeDots_climb hplain (by simp)]

/-- The public path that a chunk finds.  In the code of a chunk whose public path is `auto` the way
up is as long as the final name of the chunk has directories, although it is counted before the
hash of the content is put into the name.  So if the name is read in a URL as the path it is, a
chunk that was loaded from below any directory finds this directory, whatever query or fragment it
was loaded with. -/
theorem chunk_finds_directory {options : Options} {graph : Graph} {number : Nat} {module : Module}
    (hmodule : graph.modules[number]? = some module) (hauto : options.publicPath = "auto")
    (hash : String) (given : Option String) (index : Nat) :
    ∃ asset parts, chunk options graph hash ((given, number), index) = some asset ∧
      asset.content = (chunkCode parts).toUTF8 ∧
      parts.publicPath = "auto" ∧ parts.depth = (directories asset.filename).length ∧
      occurrences "../".toList (publicPathCode parts).toList =
        (directories asset.filename).length ∧
      (IsUrlPath asset.filename → ∀ base : Url, base.text.getLast? = some '/' →
        ∃ url : Url, url.origin = base.origin ∧
          url.text = Url.directoryOf (base.text ++ asset.filename.toList) ++ climb parts.depth ∧
          (∀ query, Url.IsQuery query →
            foundPublicPath parts.depth (base.text ++ asset.filename.toList ++ query) = url.text) ∧
          url.normalized = base.normalized ∧
          (Url.Plain (Path.segments base.path) → url.normalized = base.text)) := by
  obtain ⟨asset, hasset⟩ := exists_chunk hmodule options hash given index
  obtain ⟨entry, hentry, hcontent⟩ := content_of_chunk hasset
  have hdepth := directoryDepth_eq asset.filename
  refine ⟨asset, _, hasset, hcontent, hauto, hdepth, ?_, ?_⟩
  · rw [← hdepth]
    exact occurrences_publicPathCode hauto
  · intro hfilename base hbase
    obtain ⟨url, horigin, htext, hnormalized⟩ := exists_url_of_climb hfilename hbase
    rw [← hdepth] at htext
    refine ⟨url, horigin, htext, ?_, hnormalized, ?_⟩
    · intro query hquery
      have hfront (c : Char) (hc : c ∉ base.text) (hfile : c ∉ asset.filename.toList) :
          c ∉ base.text ++ asset.filename.toList :=
        fun hmem => (List.mem_append.mp hmem).elim hc hfile
      rw [foundPublicPath, Url.withoutQuery_append (hfront '?' base.noQuery hfilename.noQuery)
        (hfront '#' base.noFragment hfilename.noFragment) hquery, htext]
    · intro hplain
      rw [hnormalized, Url.normalized_of_plain hplain]

/-- Options under which chunks lie in directories and are named by their content. -/
def namedInDirectories : Options :=
  { workingDirectory := "/p", entryFilenames := "js/[name]/[contenthash].js", publicPath := "auto" }

/-- A published directory. -/
def publishedAt : Url := ⟨"https://host".toList, "static/".toList, by decide, by decide⟩

/-- The final name lies in two directories whatever the hash of the content is. -/
theorem toList_of_hash (hash : String) :
    (Filename.render "js/app/[contenthash].js" { contentHash := some hash }).toList =
      Path.below ["js".toList, "app".toList] ++ (hash.toList.take 8 ++ ".js".toList) := by
  have hpieces : Filename.pieces "js/app/[contenthash].js".toList =
      "js/app/".toList.map .literal ++
        .placeholder ⟨.contentHash, []⟩ :: ".js".toList.map .literal := by decide +kernel
  have htext : "js/app/".toList = Path.below ["js".toList, "app".toList] := by decide
  have hcut : Filename.Piece.render { contentHash := some hash }
      (.placeholder ⟨.contentHash, []⟩) = hash.toList.take 8 := rfl
  rw [Filename.toList_render, hpieces, List.flatMap_append, List.flatMap_cons, hcut,
    Filename.flatMap_render_literal, Filename.flatMap_render_literal, htext]

/-- It is read in a URL as the path it is. -/
theorem isUrlPath_of_hash {filename : String} {hash : List Char}
    (hhash : ∀ c ∈ hash, c ∈ "0123456789abcdef".toList)
    (hfilename : filename.toList =
      Path.below ["js".toList, "app".toList] ++ (hash ++ ".js".toList)) :
    IsUrlPath filename ∧ (directories filename).length = 2 := by
  have hnone (c : Char) (hc : c ∉ "0123456789abcdef".toList) (hrest : c ∉ ".js".toList) :
      c ∉ hash ++ ".js".toList := fun hmem =>
    (List.mem_append.mp hmem).elim (fun h => hc (hhash c h)) hrest
  have hfront : ∀ directory ∈ ["js".toList, "app".toList], '/' ∉ directory := by decide
  have hsegments := Path.segments_below hfront (hnone '/' (by decide) (by decide))
  rw [← hfilename] at hsegments
  have hlast {segment : List Char}
      (hmem : segment ∈ ["js".toList, "app".toList] ++ [hash ++ ".js".toList]) :
      segment = "app".toList ∨ segment.getLast? = some 's' := by
    simp only [List.mem_append, List.mem_cons, List.not_mem_nil, or_false] at hmem
    rcases hmem with (rfl | rfl) | rfl
    · exact .inr rfl
    · exact .inl rfl
    · exact .inr (by simp)
  have hfree (c : Char) (hc : c ∉ "0123456789abcdef".toList) (hrest : c ∉ ".js".toList)
      (habove : c ∉ Path.below ["js".toList, "app".toList]) : c ∉ filename.toList := by
    rw [hfilename]
    exact fun hmem => (List.mem_append.mp hmem).elim habove (hnone c hc hrest)
  refine ⟨⟨?_, ⟨?_, ?_⟩, hfree '?' (by decide) (by decide) (by decide),
    hfree '#' (by decide) (by decide) (by decide)⟩, by rw [directories, hsegments]; rfl⟩
  all_goals
    rw [hsegments]
    intro hmem
    exact (hlast hmem).elim (by decide) (by decide)

theorem chunk_finds_directory_hashed : ∃ asset parts url,
    oneScript.modules[0]? = some ⟨⟨"/p/a.js"⟩, "./a.js", .script, .script { source := "1" }, []⟩ ∧
    namedInDirectories.publicPath = "auto" ∧
    chunk namedInDirectories oneScript "" ((some "app", 0), 0) = some asset ∧
    asset.content = (chunkCode parts).toUTF8 ∧
    occurrences "../".toList (publicPathCode parts).toList = 2 ∧
    IsUrlPath asset.filename ∧
    foundPublicPath 2 (publishedAt.text ++ asset.filename.toList ++ "?v=1".toList) =
      Url.text url ∧
    url.normalized = publishedAt.text := by
  obtain ⟨asset, parts, hasset, hcontent, -, hdepth, hoccurrences, hfound⟩ :=
    @chunk_finds_directory namedInDirectories oneScript 0 _ rfl rfl "" (some "app") 0
  obtain ⟨module, -, hfilename⟩ := filename_of_chunk hasset
  have hpreliminary : Filename.render namedInDirectories.entryFilenames
      (preliminaryValues "" (entryName (some "app") module) 0) = "js/app/[contenthash].js" := by
    rw [entryName]
    decide +kernel
  rw [if_pos (by decide +kernel), hpreliminary] at hfilename
  have htext := toList_of_hash (Digest.ofBytes asset.content).toHex
  rw [← hfilename] at htext
  have hdigits : ∀ c ∈ (Digest.ofBytes asset.content).toHex.toList.take 8,
      c ∈ "0123456789abcdef".toList := fun c hc =>
    by_contra fun hother => Digest.notMem_toHex _ hother (List.mem_of_mem_take hc)
  obtain ⟨hpath, hcount⟩ := isUrlPath_of_hash hdigits htext
  obtain ⟨url, -, -, hquery, -, hnormalized⟩ := hfound hpath publishedAt (by decide)
  rw [hdepth, hcount] at hquery
  exact ⟨asset, parts, url, rfl, rfl, hasset, hcontent, hoccurrences.trans hcount, hpath,
    hquery _ (.some (.inl rfl) (by decide)), hnormalized (by unfold Url.Plain; decide)⟩

end Output

end WebBundle
