import WebBundle.Proofs.Edits.Marks

/-!
# What readers leave behind

A reader is described by what holds in front of it and behind it.  Along a sequence of
readers the nodes read so far are carried on together with the progress where they began:
they fit the source between there and the current token.  So the description of a construct
follows its reader step by step, and each step adds its nodes at the end.

Types are taken out of a source before it is scanned; all of this is about places where no
types may be written.
-/

namespace WebBundle.Syntax

open Scan (isScanned)

/-! ## Progress -/

namespace Progress

/-- Where the current token begins. -/
def here (progress : Progress) : Nat := progress.token.start.offset

/-- The current token and the end of the last one stand in the source, in this order. -/
structure Placed (source : String) (progress : Progress) : Prop where
  token : progress.token.Placed source
  lastStop : (String.Pos.Raw.mk progress.lastStop).IsValid source
  le : progress.lastStop ≤ progress.here

end Progress

/-- How far reading has come since it was at an origin: the nodes that have been read fit
the source between there and the current token.  At least one token is known to have been
taken if `taken` is true. -/
structure Reached (source : String) (taken : Bool) (origin : Progress) (nodes : List Node)
    (progress : Progress) : Prop where
  begins : origin.Placed source
  placed : progress.Placed source
  here_le : origin.here ≤ progress.here
  lastStop_le : origin.lastStop ≤ progress.lastStop
  here_lt : taken = true → origin.here < progress.lastStop
  fits : Fits source origin.here progress.here nodes

/-- A node has been read that covers everything from an offset to the last token. -/
structure Held (source : String) (origin : Progress) (start : Nat) (node : Node)
    (progress : Progress) : Prop extends Reached source true origin [node] progress where
  span_eq : node.span = ⟨start, progress.lastStop⟩

/-- Nodes have been read one behind the other, and the first of them lies apart from the
marks of the others. -/
structure Row (source : String) (taken : Bool) (origin : Progress) (nodes : List Node)
    (progress : Progress) : Prop extends Reached source taken origin nodes progress where
  first : ∀ node rest, nodes = node :: rest →
    Scattered source origin.here progress.here (node.span :: marksOf rest)

variable {source : String} {taken more : Bool} {origin middle final : Progress}

namespace Reached

variable {given nodes : List Node}

theorem refl (h : origin.Placed source) : Reached source false origin [] origin where
  begins := h
  placed := h
  here_le := Nat.le_refl _
  lastStop_le := Nat.le_refl _
  here_lt := nofun
  fits := .nil

theorem ofEq (h : origin.Placed source) (heq : middle = origin) :
    Reached source false origin [] middle := by
  subst heq
  exact refl h

theorem trans (hfirst : Reached source taken origin given middle)
    (hsecond : Reached source more middle nodes final) :
    Reached source (taken || more) origin (given ++ nodes) final where
  begins := hfirst.begins
  placed := hsecond.placed
  here_le := Nat.le_trans hfirst.here_le hsecond.here_le
  lastStop_le := Nat.le_trans hfirst.lastStop_le hsecond.lastStop_le
  here_lt := by
    intro htaken
    cases hmore : more with
    | true => exact Nat.lt_of_le_of_lt hfirst.here_le (hsecond.here_lt hmore)
    | false =>
        rw [hmore, Bool.or_false] at htaken
        exact Nat.lt_of_lt_of_le (hfirst.here_lt htaken) hsecond.lastStop_le
  fits := hfirst.fits.append hsecond.fits hfirst.here_le hsecond.here_le

theorem pass (hfirst : Reached source taken origin given middle)
    (hsecond : Reached source more middle [] final) :
    Reached source (taken || more) origin given final :=
  List.append_nil given ▸ hfirst.trans hsecond

theorem weaken (h : Reached source taken origin nodes middle) :
    Reached source false origin nodes middle :=
  { h with here_lt := nofun }

theorem forget (h : Reached source (taken || more) origin nodes middle) :
    Reached source taken origin nodes middle :=
  { h with here_lt := fun htaken => h.here_lt (by rw [htaken, Bool.true_or]) }

/-- The nodes may be replaced by others that fit. -/
theorem exchange (h : Reached source taken origin given middle)
    (hfits : Fits source origin.here middle.here nodes) :
    Reached source taken origin nodes middle :=
  { h with fits := hfits }

/-- The range from the origin to the last token. -/
theorem covers (h : Reached source true origin nodes middle) :
    Span.Covers source origin.here middle.here ⟨origin.here, middle.lastStop⟩ where
  lo_le := Nat.le_refl _
  lt := h.here_lt rfl
  le_hi := h.placed.le
  start := h.begins.token.start.isValid
  stop := h.placed.lastStop

end Reached

theorem Held.after {start : Nat} {node : Node} (hpassed : Reached source taken origin [] middle)
    (h : Held source middle start node final) : Held source origin start node final where
  toReached := Bool.or_true taken ▸ hpassed.trans h.toReached
  span_eq := h.span_eq

namespace Row

variable {nodes : List Node}

theorem nil (h : Reached source taken origin [] middle) : Row source taken origin [] middle where
  toReached := h
  first := nofun

theorem pass (h : Row source taken origin nodes middle)
    (hpassed : Reached source more middle [] final) : Row source taken origin nodes final where
  toReached := (h.toReached.pass hpassed).forget
  first node rest hnodes := (h.first node rest hnodes).mono (Nat.le_refl _) hpassed.here_le

theorem snoc {node : Node} (h : Row source taken origin nodes middle)
    (hheld : Held source middle middle.here node final) :
    Row source taken origin (nodes ++ [node]) final where
  toReached := (h.toReached.trans hheld.toReached).forget
  first first rest hnodes := by
    cases nodes with
    | nil =>
        obtain ⟨rfl, rfl⟩ := List.cons_eq_cons.mp hnodes
        rw [hheld.span_eq]
        exact .singleton (hheld.covers.mono h.here_le (Nat.le_refl _))
    | cons head tail =>
        obtain ⟨rfl, rfl⟩ := List.cons_eq_cons.mp hnodes
        change Scattered source _ _ (head.span :: marksOf (tail ++ [node]))
        rw [marksOf_append, ← List.cons_append]
        exact (h.first head tail rfl).append hheld.fits.marks h.here_le hheld.here_le

end Row

namespace Reading

variable {α β : Type} {pre : Progress → Prop} {first : Reading α} {rest : α → Reading β}
variable {post : β → Progress → Prop}

/-! ## Triples -/

/-- Where no types may be written, a reader that is run where `pre` holds and that does not
refuse leaves a result and a progress for which `post` holds. -/
def Triple (pre : Progress → Prop) (reader : Reading α) (post : α → Progress → Prop) : Prop :=
  ∀ context progress value last, context.hasTypes = false → pre progress →
    reader context progress = some (value, last) → post value last

namespace Triple

variable {mid : α → Progress → Prop} {reader other : Reading β}

theorem bind (hfirst : Triple pre first mid) (hrest : ∀ value, Triple (mid value) (rest value) post) :
    Triple pre (first >>= rest) post := by
  intro context progress value last hcontext hpre hread
  rw [bind_apply] at hread
  split at hread
  · cases hread
  · rename_i between after hbetween
    exact hrest between _ _ _ _ hcontext (hfirst _ _ _ _ hcontext hpre hbetween) hread

/-- The same with what holds in between. -/
theorem through (mid : α → Progress → Prop) (hfirst : Triple pre first mid)
    (hrest : ∀ value, Triple (mid value) (rest value) post) : Triple pre (first >>= rest) post :=
  hfirst.bind hrest

protected theorem pure {value : β} (h : ∀ progress, pre progress → post value progress) :
    Triple pre (pure value) post := by
  intro context progress found last _ hpre hread
  cases hread
  exact h progress hpre

theorem value {result : α} (h : Triple pre (rest result) post) :
    Triple pre (Pure.pure result >>= rest) post := h

/-- A fact about no progress may be used. -/
theorem fact {condition : Prop} (h : condition → Triple pre reader post) :
    Triple (fun progress => pre progress ∧ condition) reader post :=
  fun _ _ _ _ hcontext hpre hread => h hpre.2 _ _ _ _ hcontext hpre.1 hread

theorem refuse : Triple pre Reading.refuse post := by
  intro context progress value last _ _ hread
  cases hread

theorem mono {strong : Progress → Prop} {weak : β → Progress → Prop} (h : Triple pre reader post)
    (hpre : ∀ progress, strong progress → pre progress)
    (hpost : ∀ value progress, post value progress → weak value progress) :
    Triple strong reader weak :=
  fun _ _ _ _ hcontext hstrong hread => hpost _ _ (h _ _ _ _ hcontext (hpre _ hstrong) hread)

theorem choose {condition : Prop} [Decidable condition] (hthen : Triple pre reader post)
    (helse : Triple pre other post) :
    Triple pre (if condition then reader else other) post := by
  split
  · exact hthen
  · exact helse

theorem skip {condition : Bool} (hcondition : condition = false) (helse : Triple pre other post) :
    Triple pre (if condition = true then reader else other) post := by
  rw [if_neg (Bool.eq_false_iff.mp hcondition)]
  exact helse

/-- The context tells that no types may be written. -/
theorem context {rest : Context → Reading β}
    (h : ∀ context : Context, context.hasTypes = false → Triple pre (rest context) post) :
    Triple pre (Reading.context >>= rest) post :=
  fun context _ _ _ hcontext hpre hread => h context hcontext _ _ _ _ hcontext hpre hread

theorem within {change : Context → Context} (h : Triple pre reader post)
    (hchange : ∀ context, (change context).hasTypes = context.hasTypes) :
    Triple pre (Reading.within change reader) post :=
  fun context _ _ _ hcontext hpre hread =>
    h _ _ _ _ ((hchange context).trans hcontext) hpre hread

theorem orElse (hreader : Triple pre reader post) (hother : Triple pre other post) :
    Triple pre (Reading.orElse reader other) post := by
  intro context progress value last hcontext hpre hread
  rw [Reading.orElse] at hread
  split at hread
  · rename_i result hresult
    exact hreader _ _ _ _ hcontext hpre (hresult.trans hread)
  · exact hother _ _ _ _ hcontext hpre hread

/-- A reader that refuses leaves everything as it is. -/
theorem optional {after : Option β → Progress → Prop} (hreader : Triple pre reader post)
    (hsome : ∀ value progress, post value progress → after (some value) progress)
    (hnone : ∀ progress, pre progress → after none progress) :
    Triple pre (Reading.optional reader) after :=
  .orElse (.bind hreader fun value => .pure fun progress => hsome value progress) (.pure hnone)

/-- A reader that always refuses gives nothing. -/
theorem refused {reader : Reading α} {rest : Option α → Reading β}
    (hreader : Triple pre reader fun _ _ => False) (hrest : Triple pre (rest none) post) :
    Triple pre (Reading.optional reader >>= rest) post := by
  refine .through (fun found progress => found = none ∧ pre progress) ?_ fun found => ?_
  · exact .optional hreader (fun _ _ h => h.elim) fun _ h => ⟨rfl, h⟩
  · intro context progress value last hcontext hpre hread
    obtain ⟨rfl, hprogress⟩ := hpre
    exact hrest _ _ _ _ hcontext hprogress hread

/-- What every step of a repetition keeps holds at its end. -/
theorem iterate (invariant : α → Progress → Prop) {step : α → Reading (Option α)}
    (hstep : ∀ value, Triple (invariant value) (step value) fun next =>
      invariant (next.getD value)) (value : α) :
    Triple (invariant value) (Reading.iterate step value) invariant := by
  have hfor : ∀ limit value, Triple (invariant value) (iterateFor step limit value) invariant := by
    intro limit
    induction limit with
    | zero => exact fun _ => .refuse
    | succ limit ih =>
        intro value
        refine .bind (hstep value) fun found => ?_
        cases found with
        | none => exact .pure fun _ h => h
        | some next => exact ih next
  exact .context fun context _ => hfor context.limit value

/-- What every step of a collection keeps, for what has been collected so far, holds at
its end. -/
theorem collect (invariant : List β → Progress → Prop) {step : Reading (Option β)}
    (hstep : ∀ found, Triple (invariant found) step fun
      | some value => invariant (found ++ [value])
      | none => invariant found) :
    Triple (invariant []) (Reading.collect step) invariant := by
  have hfor : ∀ limit found, Triple (invariant found) (collectFor step limit)
      fun values => invariant (found ++ values) := by
    intro limit
    induction limit with
    | zero => exact fun _ => .refuse
    | succ limit ih =>
        intro found
        refine .bind (hstep found) fun next => ?_
        cases next with
        | none => exact .pure fun _ h => (List.append_nil found).symm ▸ h
        | some value =>
            refine .bind (ih (found ++ [value])) fun values => .pure fun _ h => ?_
            rwa [List.append_assoc] at h
  exact .context fun context _ => hfor context.limit []

end Triple

/-! ## Results of readers -/

/-- A reader whose results have a property, wherever it begins. -/
def Gives (reader : Reading α) (property : α → Prop) : Prop :=
  Triple (fun _ => True) reader fun value _ => property value

namespace Gives

variable {property : α → Prop} {wanted : β → Prop} {reader other : Reading β}

theorem bind (hfirst : Gives first property)
    (hrest : ∀ value, property value → Gives (rest value) wanted) :
    Gives (first >>= rest) wanted := by
  refine .through (fun value _ => property value) hfirst fun value => ?_
  exact fun _ _ _ _ hcontext hvalue hread => hrest value hvalue _ _ _ _ hcontext trivial hread

theorem anything : Gives reader fun _ => True := fun _ _ _ _ _ _ _ => trivial

/-- Whatever the first reader gives. -/
theorem after (hrest : ∀ value, Gives (rest value) wanted) : Gives (first >>= rest) wanted :=
  .bind .anything fun value _ => hrest value

protected theorem pure {value : β} (h : wanted value) : Gives (pure value) wanted :=
  Triple.pure fun _ _ => h

theorem refuse : Gives Reading.refuse wanted := Triple.refuse

theorem choose {condition : Prop} [Decidable condition] (hthen : Gives reader wanted)
    (helse : Gives other wanted) : Gives (if condition then reader else other) wanted :=
  Triple.choose hthen helse

theorem skip {condition : Bool} (hcondition : condition = false) (helse : Gives other wanted) :
    Gives (if condition = true then reader else other) wanted :=
  Triple.skip hcondition helse

theorem context {rest : Context → Reading β}
    (h : ∀ context : Context, context.hasTypes = false → Gives (rest context) wanted) :
    Gives (Reading.context >>= rest) wanted :=
  Triple.context h

theorem within {change : Context → Context} (h : Gives reader wanted)
    (hchange : ∀ context, (change context).hasTypes = context.hasTypes) :
    Gives (Reading.within change reader) wanted :=
  Triple.within h hchange

theorem node {kind : Kind} {start : Nat} {children : List Node} {wanted : Node → Prop}
    (h : ∀ span, wanted ⟨kind, span, children⟩) :
    Gives (Reading.node kind start children) wanted := by
  intro context progress value last _ _ hread
  cases hread
  exact h _

/-- What the items of a collection have in common. -/
theorem collect {step : Reading (Option β)} (hstep : Gives step fun found => ∀ value ∈ found, wanted value) :
    Gives (Reading.collect step) fun values => ∀ value ∈ values, wanted value := by
  refine (Triple.collect (fun found _ => ∀ value ∈ found, wanted value) fun found => ?_).mono
    (fun _ _ => List.forall_mem_nil _) fun _ _ h => h
  intro context progress next last hcontext hfound hread
  have hnext := hstep _ _ _ _ hcontext trivial hread
  cases next with
  | none => exact hfound
  | some value =>
      exact List.forall_mem_append.mpr ⟨hfound, List.forall_mem_singleton.mpr (hnext value rfl)⟩

theorem commaList {close : Mark} (h : Gives reader wanted) :
    Gives (Reading.commaList close reader) fun values => ∀ value ∈ values, wanted value := by
  refine .collect (.after fun closed => .choose (.pure nofun) (h.bind fun value hvalue => ?_))
  have hgiven : Gives (pure (some value)) fun found => ∀ value ∈ found, wanted value :=
    .pure fun _ hmem => Option.some_inj.mp hmem ▸ hvalue
  exact .after fun atEnd => .choose (.after fun _ => hgiven) hgiven

theorem commaSequence (h : Gives reader wanted) :
    Gives (Reading.commaSequence reader) fun values => ∀ value ∈ values, wanted value := by
  have hmore : Gives (do if ← Reading.eatMark .comma then return some (← reader) else return none)
      fun found => ∀ value ∈ found, wanted value :=
    .after fun found => .choose
      (h.bind fun value hvalue => .pure fun _ hmem => Option.some_inj.mp hmem ▸ hvalue)
      (.pure nofun)
  exact h.bind fun first hfirst => (Gives.collect hmore).bind fun others hothers =>
    .pure (List.forall_mem_cons.mpr ⟨hfirst, hothers⟩)

end Gives

/-- What a reader gives may be used behind it. -/
theorem Triple.giving {property : α → Prop} (mid : α → Progress → Prop)
    (hgives : Gives first property) (hfirst : Triple pre first mid)
    (hrest : ∀ value, property value → Triple (mid value) (rest value) post) :
    Triple pre (first >>= rest) post := by
  refine .through (fun value progress => mid value progress ∧ property value) ?_ fun value =>
    .fact (hrest value)
  exact fun _ _ _ _ hcontext hpre hread =>
    ⟨hfirst _ _ _ _ hcontext hpre hread, hgives _ _ _ _ hcontext trivial hread⟩

/-! ## Kinds of readers -/

/-- A reader that only looks. -/
def Looks (reader : Reading α) : Prop :=
  ∀ context progress value last, context.hasTypes = false →
    reader context progress = some (value, last) → last = progress

/-- A reader that only looks and that gives the same answer everywhere. -/
def Answers (reader : Reading α) (answer : α) : Prop :=
  ∀ context progress value last, context.hasTypes = false →
    reader context progress = some (value, last) → value = answer ∧ last = progress

/-- A reader that reads some nodes, wherever it begins. -/
def Reads (source : String) (taken : Bool) (nodes : α → List Node) (reader : Reading α) : Prop :=
  ∀ origin : Progress, origin.Placed source →
    Triple (· = origin) reader fun value => Reached source taken origin (nodes value)

/-- A reader that reads tokens and no nodes of account. -/
def Passes (source : String) (taken : Bool) (reader : Reading α) : Prop :=
  Reads source taken (fun _ => []) reader

/-- A reader that reads nodes without anything that is scanned. -/
def Names (source : String) (nodes : α → List Node) (reader : Reading α) : Prop :=
  ∀ origin : Progress, origin.Placed source →
    Triple (· = origin) reader fun value progress =>
      Reached source false origin [] progress ∧ Plain (nodes value)

/-- A reader of a node that covers all that is taken. -/
def Whole (source : String) (reader : Reading Node) : Prop :=
  ∀ origin : Progress, origin.Placed source →
    Triple (· = origin) reader (Held source origin origin.here)

namespace Looks

theorem bind (hfirst : Looks first) (hrest : ∀ value, Looks (rest value)) :
    Looks (first >>= rest) := by
  intro context progress value last hcontext hread
  rw [bind_apply] at hread
  split at hread
  · cases hread
  · rename_i between after hbetween
    rw [hrest between _ _ _ _ hcontext hread, hfirst _ _ _ _ hcontext hbetween]

protected theorem pure (value : α) : Looks (pure value) := by
  intro context progress found last _ hread
  cases hread
  rfl

theorem refuse : Looks (Reading.refuse (α := α)) := by
  intro context progress found last _ hread
  cases hread

theorem choose {condition : Prop} [Decidable condition] {yes no : Reading α} (hyes : Looks yes)
    (hno : Looks no) : Looks (if condition then yes else no) := by
  split
  · exact hyes
  · exact hno

theorem check (condition : Bool) : Looks (Reading.check condition) := .choose (.pure ()) .refuse

theorem context : Looks Reading.context := fun _ _ _ _ _ hread => by cases hread; rfl

theorem progress : Looks Reading.progress := fun _ _ _ _ _ hread => by cases hread; rfl

theorem token : Looks Reading.token := progress.bind fun _ => .pure _

theorem tokenKind : Looks Reading.tokenKind := token.bind fun _ => .pure _

theorem peek : Looks Reading.peek := token.bind fun _ => .pure _

theorem position : Looks Reading.position := token.bind fun _ => .pure _

theorem isMark (mark : Mark) : Looks (Reading.isMark mark) := tokenKind.bind fun _ => .pure _

theorem isWord (word : Word) : Looks (Reading.isWord word) :=
  tokenKind.bind fun kind => by cases kind <;> exact .pure _

theorem isPlainWord (word : Word) : Looks (Reading.isPlainWord word) :=
  tokenKind.bind fun kind => by cases kind <;> exact .pure _

theorem canEndStatement : Looks Reading.canEndStatement := by
  refine token.bind fun token => ?_
  split <;> exact .pure _

end Looks

namespace Answers

variable {answer : β} {reader other : Reading β}

protected theorem pure (answer : β) : Answers (pure answer) answer := by
  intro context progress value last _ hread
  cases hread
  exact ⟨rfl, rfl⟩

theorem look (hfirst : Looks first) (hrest : ∀ value, Answers (rest value) answer) :
    Answers (first >>= rest) answer := by
  intro context progress value last hcontext hread
  rw [bind_apply] at hread
  split at hread
  · cases hread
  · rename_i between after hbetween
    cases hfirst _ _ _ _ hcontext hbetween
    exact hrest between _ _ _ _ hcontext hread

theorem context {rest : Context → Reading β}
    (h : ∀ context : Context, context.hasTypes = false → Answers (rest context) answer) :
    Answers (Reading.context >>= rest) answer :=
  fun context _ _ _ hcontext hread => h context hcontext _ _ _ _ hcontext hread

theorem take {condition : Bool} (hcondition : condition = true) (h : Answers reader answer) :
    Answers (if condition = true then reader else other) answer := by
  rw [if_pos hcondition]
  exact h

theorem skip {condition : Bool} (hcondition : condition = false) (h : Answers other answer) :
    Answers (if condition = true then reader else other) answer := by
  rw [if_neg (Bool.eq_false_iff.mp hcondition)]
  exact h

theorem bind {found : α} (hfirst : Answers first found) (hrest : Answers (rest found) answer) :
    Answers (first >>= rest) answer := by
  intro context progress value last hcontext hread
  rw [bind_apply] at hread
  split at hread
  · cases hread
  · rename_i between after hbetween
    obtain ⟨rfl, rfl⟩ := hfirst _ _ _ _ hcontext hbetween
    exact hrest _ _ _ _ hcontext hread

theorem looks {answer : α} {reader : Reading α} (h : Answers reader answer) : Looks reader :=
  fun _ _ _ _ hcontext hread => (h _ _ _ _ hcontext hread).2

end Answers

theorem Whole.reads {reader : Reading Node} (h : Whole source reader) :
    Reads source true (fun node => [node]) reader :=
  fun origin hplaced => (h origin hplaced).mono (fun _ h => h) fun _ _ h => h.toReached

theorem Reads.weaken {nodes : α → List Node} {reader : Reading α}
    (h : Reads source taken nodes reader) : Reads source false nodes reader :=
  fun origin hplaced => (h origin hplaced).mono (fun _ h => h) fun _ _ h => h.weaken

/-! ## Going on -/

namespace Triple

variable {given : List Node} {nodes : α → List Node}

theorem look (hfirst : Looks first) (hrest : ∀ value, Triple pre (rest value) post) :
    Triple pre (first >>= rest) post := by
  refine .through (fun _ => pre) ?_ hrest
  intro context progress value last hcontext hpre hread
  exact hfirst _ _ _ _ hcontext hread ▸ hpre

theorem take {condition : Bool} {reader other : Reading β} (hcondition : condition = true)
    (hthen : Triple pre reader post) :
    Triple pre (if condition = true then reader else other) post := by
  rw [if_pos hcondition]
  exact hthen

/-- A condition that does not hold. -/
theorem fail {condition : Bool} {rest : Unit → Reading β} (hcondition : condition = false) :
    Triple pre (Reading.check condition >>= rest) post := by
  subst hcondition
  exact .through (fun _ _ => False) .refuse fun _ _ _ _ _ _ hfalse => hfalse.elim

theorem answer {answer : α} (hfirst : Answers first answer)
    (hrest : Triple pre (rest answer) post) : Triple pre (first >>= rest) post := by
  intro context progress value last hcontext hpre hread
  rw [bind_apply] at hread
  split at hread
  · cases hread
  · rename_i between after hbetween
    obtain ⟨rfl, rfl⟩ := hfirst _ _ _ _ hcontext hbetween
    exact hrest _ _ _ _ hcontext hpre hread

/-- Behind a reader its nodes are there too. -/
theorem append {reader : Reading α} (h : Reads source more nodes reader) :
    Triple (Reached source taken origin given) reader fun value =>
      Reached source (taken || more) origin (given ++ nodes value) :=
  fun _ _ _ _ hcontext hpre hread =>
    hpre.trans (h _ hpre.placed _ _ _ _ hcontext rfl hread)

theorem read (hfirst : Reads source more nodes first)
    (hrest : ∀ value, Triple (Reached source (taken || more) origin (given ++ nodes value))
      (rest value) post) :
    Triple (Reached source taken origin given) (first >>= rest) post :=
  .bind (.append hfirst) hrest

theorem pass (hfirst : Passes source more first)
    (hrest : ∀ value, Triple (Reached source (taken || more) origin given) (rest value) post) :
    Triple (Reached source taken origin given) (first >>= rest) post :=
  .bind (.append hfirst) fun value => (List.append_nil given).symm ▸ hrest value

theorem nameGiving {property : α → Prop} (hfirst : Names source nodes first)
    (hgives : Gives first property)
    (hrest : ∀ value, Plain (nodes value) → property value →
      Triple (Reached source taken origin given) (rest value) post) :
    Triple (Reached source taken origin given) (first >>= rest) post := by
  refine .giving (fun value progress =>
    Reached source taken origin given progress ∧ Plain (nodes value)) hgives ?_ fun value hvalue =>
      .fact fun hplain => hrest value hplain hvalue
  intro context progress value last hcontext hpre hread
  obtain ⟨hreached, hplain⟩ := hfirst _ hpre.placed _ _ _ _ hcontext rfl hread
  exact ⟨Bool.or_false taken ▸ hpre.pass hreached, hplain⟩

theorem name (hfirst : Names source nodes first)
    (hrest : ∀ value, Plain (nodes value) →
      Triple (Reached source taken origin given) (rest value) post) :
    Triple (Reached source taken origin given) (first >>= rest) post :=
  .nameGiving hfirst .anything fun value hplain _ => hrest value hplain

/-- Other nodes that fit as well take the place of those that have been read. -/
theorem exchange {others : List Node} {reader : Reading β}
    (hfits : ∀ progress, Reached source taken origin given progress →
      Fits source origin.here progress.here others)
    (h : Triple (Reached source taken origin others) reader post) :
    Triple (Reached source taken origin given) reader post :=
  h.mono (fun _ h => h.exchange (hfits _ h)) fun _ _ h => h

theorem weaken {reader : Reading β} (h : Triple (Reached source false origin given) reader post) :
    Triple (Reached source taken origin given) reader post :=
  h.mono (fun _ h => h.weaken) fun _ _ h => h

/-- The progress itself is looked at. -/
theorem progress {rest : Progress → Reading β}
    (h : ∀ progress, pre progress → Triple (· = progress) (rest progress) post) :
    Triple pre (Reading.progress >>= rest) post :=
  fun _ progress _ _ hcontext hpre hread => h progress hpre _ _ _ _ hcontext rfl hread

end Triple

/-- The progress in front of a reader may be named. -/
theorem Triple.fixed {reader : Reading β}
    (h : ∀ progress, pre progress → Triple (· = progress) reader post) : Triple pre reader post :=
  fun _ progress _ _ hcontext hpre hread => h progress hpre _ _ _ _ hcontext rfl hread

/-- Nothing has been read yet. -/
theorem Triple.reach {reader : Reading α} {post : α → Progress → Prop}
    (hplaced : origin.Placed source) (h : Triple (Reached source false origin []) reader post) :
    Triple (· = origin) reader post :=
  h.mono (fun _ hpre => .ofEq hplaced hpre) fun _ _ h => h

theorem Reads.begin {nodes : α → List Node} {reader : Reading α}
    (h : ∀ origin, Triple (Reached source false origin []) reader fun value =>
      Reached source taken origin (nodes value)) : Reads source taken nodes reader :=
  fun origin hplaced => .reach hplaced (h origin)

theorem Names.begin {nodes : α → List Node} {reader : Reading α}
    (h : ∀ origin, Triple (Reached source false origin []) reader fun value progress =>
      Reached source false origin [] progress ∧ Plain (nodes value)) :
    Names source nodes reader :=
  fun origin hplaced => .reach hplaced (h origin)

theorem Whole.position {rest : Nat → Reading Node}
    (h : ∀ origin : Progress, origin.Placed source →
      Triple (· = origin) (rest origin.here) (Held source origin origin.here)) :
    Whole source (Reading.position >>= rest) := by
  intro origin hplaced context progress value last hcontext hpre hread
  subst hpre
  exact h progress hplaced _ _ _ _ hcontext rfl hread

theorem Whole.begin {rest : Nat → Reading Node}
    (h : ∀ origin : Progress, Triple (Reached source false origin []) (rest origin.here)
      (Held source origin origin.here)) : Whole source (Reading.position >>= rest) :=
  .position fun origin hplaced => .reach hplaced (h origin)

/-- The first part covers all that has been taken so far. -/
theorem Whole.holding {first : Reading Node} {rest : Nat → Node → Reading Node}
    (hfirst : Whole source first)
    (h : ∀ (origin : Progress) (node : Node), Triple (Held source origin origin.here node)
      (rest origin.here node) (Held source origin origin.here)) :
    Whole source (Reading.position >>= fun start => first >>= rest start) :=
  .position fun origin hplaced => .bind (hfirst origin hplaced) fun node => h origin node

theorem Whole.look {rest : α → Reading Node} (hfirst : Looks first)
    (hrest : ∀ value, Whole source (rest value)) : Whole source (first >>= rest) :=
  fun origin hplaced => .look hfirst fun value => hrest value origin hplaced

theorem Reads.look {rest : α → Reading β} {nodes : β → List Node} (hfirst : Looks first)
    (hrest : ∀ value, Reads source taken nodes (rest value)) :
    Reads source taken nodes (first >>= rest) :=
  fun origin hplaced => .look hfirst fun value => hrest value origin hplaced

/-! ## Nodes -/

namespace Triple

variable {given children : List Node} {kind : Kind} {start : Nat}

/-- A node takes the place of its parts. -/
theorem node (hkind : kind.isFree = true) :
    Triple (Reached source taken origin children) (Reading.node kind start children)
      fun node => Reached source taken origin [node] := by
  intro context progress value last _ hpre hread
  cases hread
  exact hpre.exchange (hpre.fits.free hkind)

/-- A node takes the place of the last nodes that have been read. -/
theorem nodeBehind (given : List Node) (hkind : kind.isFree = true) :
    Triple (Reached source taken origin (given ++ children)) (Reading.node kind start children)
      fun node => Reached source taken origin (given ++ [node]) := by
  intro context progress value last _ hpre hread
  cases hread
  exact hpre.exchange (hpre.fits.like ((Like.refl given).append (.free hkind _ _)))

/-- A node that begins at its first token takes the place of its parts. -/
theorem held (hkind : kind.isFree = true) :
    Triple (Reached source true origin children) (Reading.node kind start children)
      (Held source origin start) := by
  intro context progress value last _ hpre hread
  cases hread
  exact { hpre.exchange (hpre.fits.free hkind) with span_eq := rfl }

/-- A node that is regular because of its parts. -/
theorem leaf (hkind : isScanned kind = false)
    (hregular : ∀ span, Node.Regular ⟨kind, span, children⟩) :
    Triple (Reached source true origin children) (Reading.node kind start children)
      (Held source origin start) := by
  intro context progress value last _ hpre hread
  cases hread
  exact { hpre.exchange (hpre.fits.node hkind (hregular _)) with span_eq := rfl }

/-- A node of which nothing is scanned. -/
theorem named (hkind : isScanned kind = false)
    (hregular : ∀ span, Node.Regular ⟨kind, span, children⟩) (hchildren : Plain children) :
    Triple (Reached source taken origin []) (Reading.node kind start children)
      fun node progress => Reached source false origin [] progress ∧ Plain [node] := by
  intro context progress value last _ hpre hread
  cases hread
  exact ⟨hpre.weaken, hchildren.node hkind (hregular _)⟩

/-- A node that is marked as a whole. -/
theorem marked (hmarks : ∀ span, Node.marks ⟨kind, span, children⟩ = [span])
    (hregular : ∀ span, Node.Regular ⟨kind, span, children⟩) (hchildren : Plain children) :
    Triple (Reached source true origin []) (Reading.node kind origin.here children)
      fun node => Reached source true origin [node] := by
  intro context progress value last _ hpre hread
  cases hread
  exact hpre.exchange (.whole hpre.covers hchildren (hmarks _) (hregular _))

/-- In place of a part that is missing there is a node that covers nothing. -/
theorem missing {reader : Reading β}
    (h : Triple (Reached source taken origin (given ++ [Node.missing])) reader post) :
    Triple (Reached source taken origin given) reader post :=
  .exchange (fun _ h => h.fits.append Plain.missing.fits h.here_le (Nat.le_refl _)) h

/-- A part that may be missing. -/
theorem part {condition : Prop} [Decidable condition] {reader : Reading Node}
    {rest : Node → Reading β} (hreader : Reads source more (fun node => [node]) reader)
    (hrest : ∀ node, Triple (Reached source taken origin (given ++ [node])) (rest node) post) :
    Triple (Reached source taken origin given)
      (if condition then reader >>= rest else Pure.pure Node.missing >>= rest) post := by
  split
  · exact .bind (.append hreader) fun node => (hrest node).mono (fun _ h => h.forget) fun _ _ h => h
  · exact .missing (.value (hrest _))

end Triple

/-! ## Tokens -/

theorem placed_pass {progress : Progress} (h : progress.Placed source) :
    (pass progress).Placed source where
  token := h.token.next
  lastStop := h.token.stop.isValid
  le := Token.stop_le_next progress.token

theorem Passes.advance : Passes source true Reading.advance := by
  intro origin hplaced context progress value last _ hpre hread
  subst hpre
  have hkind : progress.token.kind ≠ .invalid ∧ progress.token.kind ≠ .finish := by
    constructor <;> intro hkind <;> simp [Reading.advance, hkind] at hread
  rw [advance_apply hkind.1 hkind.2] at hread
  cases hread
  have hstop := Token.stop_le_next progress.token
  exact {
    begins := hplaced
    placed := placed_pass hplaced
    here_le := Nat.le_trans hplaced.token.le hstop
    lastStop_le := Nat.le_trans hplaced.le hplaced.token.le
    here_lt := fun _ => hplaced.token.lt hkind.2 hkind.1
    fits := .nil }

/-- The current token itself is looked at. -/
theorem Triple.token {rest : Token → Reading β}
    (h : ∀ progress, pre progress → Triple (· = progress) (rest progress.token) post) :
    Triple pre (Reading.token >>= rest) post :=
  fun _ progress _ _ hcontext hpre hread => h progress hpre _ _ _ _ hcontext rfl hread

/-- The place of the current token is looked at. -/
theorem Triple.here {rest : Nat → Reading β}
    (h : ∀ progress, pre progress → Triple (· = progress) (rest progress.here) post) :
    Triple pre (Reading.position >>= rest) post :=
  fun _ progress _ _ hcontext hpre hread => h progress hpre _ _ _ _ hcontext rfl hread

/-- A token that has been read again in its own place becomes the current one. -/
theorem Triple.setToken {given : List Node} {here : Progress} {token : Token} {reader : Reading β}
    (hhere : Reached source taken origin given here) (hplaced : token.Placed source)
    (hstart : token.start = here.token.start)
    (h : Triple (Reached source taken origin given) reader post) :
    Triple (· = here) (Reading.setToken token >>= fun _ => reader) post := by
  intro context progress value last hcontext hpre hread
  subst hpre
  have hsame : { progress with token }.here = progress.here := congrArg Cursor.offset hstart
  refine h context { progress with token } value last hcontext ?_ hread
  exact {
    begins := hhere.begins
    placed := ⟨hplaced, hhere.placed.lastStop, hsame ▸ hhere.placed.le⟩
    here_le := hsame ▸ hhere.here_le
    lastStop_le := hhere.lastStop_le
    here_lt := hhere.here_lt
    fits := hsame ▸ hhere.fits }

/-- A reader that tells whether it has taken a token. -/
def Eats (source : String) (reader : Reading Bool) : Prop :=
  ∀ origin : Progress, origin.Placed source → Triple (· = origin) reader fun found progress =>
    if found then Reached source true origin [] progress else progress = origin

namespace Eats

variable {reader : Reading Bool}

theorem advance {condition : Prop} [Decidable condition] :
    Eats source (if condition then do let _ ← Reading.advance; return true else return false) := by
  intro origin hplaced
  refine .choose ?_ (.pure fun _ h => h)
  exact .bind (Passes.advance origin hplaced) fun _ => .pure fun _ h => h

theorem look {α : Type} {first : Reading α} {rest : α → Reading Bool} (hfirst : Looks first)
    (hrest : ∀ value, Eats source (rest value)) : Eats source (first >>= rest) :=
  fun origin hplaced => .look hfirst fun value => hrest value origin hplaced

theorem eatMark (mark : Mark) : Eats source (Reading.eatMark mark) :=
  look (Looks.isMark mark) fun _ => advance

theorem eatWord (word : Word) : Eats source (Reading.eatWord word) := by
  refine look (Looks.isWord word) fun found => ?_
  intro origin hplaced
  refine .choose ?_ (.pure fun _ h => h)
  refine .look (Looks.isPlainWord word) fun plain => .look (Looks.check plain) fun _ => ?_
  exact .bind (Passes.advance origin hplaced) fun _ => .pure fun _ h => h

theorem passes (h : Eats source reader) : Passes source false reader := by
  intro origin hplaced
  refine (h origin hplaced).mono (fun _ h => h) fun found progress hfound => ?_
  cases found with
  | true => exact Reached.weaken hfound
  | false =>
      cases hfound
      exact .refl hplaced

/-- What must be taken is taken. -/
theorem expect (h : Eats source reader) :
    Passes source true (reader >>= fun found => Reading.check found) := by
  intro origin hplaced
  refine .bind (h origin hplaced) fun found => ?_
  cases found with
  | true => exact .pure fun _ h => h
  | false => exact .refuse

end Eats

theorem Passes.expectMark (mark : Mark) : Passes source true (Reading.expectMark mark) :=
  (Eats.eatMark mark).expect

theorem Passes.expectWord (word : Word) : Passes source true (Reading.expectWord word) :=
  (Eats.eatWord word).expect

/-- If nothing is taken, what held in front still holds. -/
theorem Triple.eat {given : List Node} {reader : Reading Bool} {yes no : Reading β}
    (heats : Eats source reader)
    (hpre : ∀ progress, pre progress → Reached source taken origin given progress)
    (hyes : Triple (Reached source true origin given) yes post) (hno : Triple pre no post) :
    Triple pre (reader >>= fun found => if found = true then yes else no) post := by
  intro context progress value last hcontext hprogress hread
  rw [bind_apply] at hread
  split at hread
  · cases hread
  · rename_i found after hfound
    have hafter := heats progress (hpre progress hprogress).placed _ _ _ _ hcontext rfl hfound
    cases found with
    | true =>
        have hpassed := (hpre progress hprogress).pass hafter
        rw [Bool.or_true] at hpassed
        exact hyes _ _ _ _ hcontext hpassed hread
    | false =>
        cases hafter
        exact hno _ _ _ _ hcontext hprogress hread

theorem Passes.look {α β : Type} {first : Reading α} {rest : α → Reading β} (hfirst : Looks first)
    (hrest : ∀ value, Passes source taken (rest value)) :
    Passes source taken (first >>= rest) :=
  Reads.look hfirst hrest

/-- A reader that only looks takes nothing. -/
theorem Looks.passes {reader : Reading α} (h : Looks reader) : Passes source false reader := by
  intro origin hplaced context progress value last hcontext hpre hread
  cases hpre
  cases h _ _ _ _ hcontext hread
  exact .refl hplaced

theorem Passes.endStatement : Passes source false Reading.endStatement := by
  refine Reads.begin fun origin => .eat (Eats.eatMark _) (fun _ h => h) ?_ ?_
  · exact .pure fun _ h => h.weaken
  · exact .look Looks.canEndStatement fun found => .append (Looks.check found).passes

/-! ## Lists -/

theorem Reads.collect {nodes : α → List Node} {step : Reading (Option α)}
    (hstep : Reads source false (fun found => found.elim [] nodes) step) :
    Reads source false (fun values => values.flatMap nodes) (Reading.collect step) := by
  refine .begin fun origin => ?_
  refine .collect (fun values => Reached source false origin (values.flatMap nodes)) fun found =>
     (Triple.append hstep).mono (fun _ h => h) fun next progress h => ?_
  cases next with
  | none =>
      change Reached source false origin (found.flatMap nodes ++ []) progress at h
      rwa [List.append_nil] at h
  | some value =>
      change Reached source false origin ((found ++ [value]).flatMap nodes) progress
      rw [List.flatMap_append, List.flatMap_singleton]
      exact h

/-- Items with commas between them. -/
theorem Reads.commaList {nodes : α → List Node} {close : Mark} {item : Reading α}
    (hitem : Reads source false nodes item) :
    Reads source false (fun values => values.flatMap nodes) (Reading.commaList close item) := by
  refine .collect (.look (Looks.isMark close) fun closed => ?_)
  refine .begin fun origin => .choose (.pure fun _ h => h) ?_
  refine .read hitem fun value => .look (Looks.isMark close) fun atEnd => ?_
  refine .choose (.pass (Passes.expectMark _).weaken fun _ => ?_) ?_
  · exact .pure fun _ h => h
  · exact .pure fun _ h => h

/-- Names with commas between them. -/
theorem Names.commaList {nodes : α → List Node} {close : Mark} {item : Reading α}
    (hitem : Names source nodes item) :
    Names source (fun values => values.flatMap nodes) (Reading.commaList close item) := by
  refine .begin fun origin => .mono (.collect (fun values progress =>
    Reached source false origin [] progress ∧ Plain (values.flatMap nodes)) fun found => ?_)
    (fun _ h => ⟨h, .nil⟩) fun _ _ h => h
  refine .look (Looks.isMark close) fun closed => .choose (.pure fun _ h => h) (.fact fun hfound => ?_)
  refine .name hitem fun value hvalue => .look (Looks.isMark close) fun atEnd => ?_
  have hvalues : Plain ((found ++ [value]).flatMap nodes) := by
    rw [List.flatMap_append, List.flatMap_singleton]
    exact hfound.append hvalue
  refine .choose (.pass (Passes.expectMark _).weaken fun _ => ?_) ?_
  · exact .pure fun _ h => ⟨h, hvalues⟩
  · exact .pure fun _ h => ⟨h, hvalues⟩

theorem Passes.collect {step : Reading (Option α)} (hstep : Passes source false step) :
    Passes source false (Reading.collect step) := by
  refine Reads.begin fun origin => ?_
  refine .collect (fun _ => Reached source false origin []) fun found => ?_
  exact (Triple.append hstep).mono (fun _ h => h) fun next _ h => by cases next <;> exact h

theorem Reads.collectNodes {step : Reading (Option Node)}
    (hstep : Reads source false (fun found => found.elim [] fun node => [node]) step) :
    Reads source false (fun nodes => nodes) (Reading.collect step) := by
  have h := Reads.collect hstep
  simp only [List.flatMap_singleton'] at h
  exact h

theorem Reads.collectMap (node : α → Node) {step : Reading (Option α)}
    (hstep : Reads source false (fun found => found.elim [] fun value => [node value]) step) :
    Reads source false (fun values => values.map node) (Reading.collect step) := by
  have h := Reads.collect hstep
  simp only [← List.map_eq_flatMap] at h
  exact h

theorem Reads.commaNodes {close : Mark} {item : Reading Node}
    (hitem : Reads source false (fun node => [node]) item) :
    Reads source false (fun nodes => nodes) (Reading.commaList close item) := by
  have h : Reads source false (fun nodes => nodes.flatMap fun node => [node])
      (Reading.commaList close item) := .commaList hitem
  simp only [List.flatMap_singleton'] at h
  exact h

theorem Reads.commaSequence {nodes : α → List Node} {item : Reading α}
    (hitem : Reads source taken nodes item) :
    Reads source taken (fun values => values.flatMap nodes) (Reading.commaSequence item) := by
  have hmore : Reads source false (fun found => found.elim [] nodes)
      (do if ← Reading.eatMark .comma then return some (← item) else return none) := by
    refine .begin fun origin => .eat (Eats.eatMark _) (fun _ h => h) ?_ (.pure fun _ h => h)
    exact .read hitem fun value => .pure fun _ h => h.weaken
  refine .begin fun origin => .read hitem fun first => ?_
  refine .read (.collect hmore) fun rest => .pure fun _ h => ?_
  rw [Bool.false_or, Bool.or_false] at h
  exact h

theorem Reads.sequenceNodes {item : Reading Node}
    (hitem : Reads source taken (fun node => [node]) item) :
    Reads source taken (fun nodes => nodes) (Reading.commaSequence item) := by
  have h := Reads.commaSequence hitem
  simp only [List.flatMap_singleton'] at h
  exact h

theorem Triple.passRow {nodes : List Node} {first : Reading α} {rest : α → Reading β}
    {post : β → Progress → Prop} (hfirst : Passes source more first)
    (hrest : ∀ value, Triple (Row source taken origin nodes) (rest value) post) :
    Triple (Row source taken origin nodes) (first >>= rest) post := by
  refine .through (fun _ => Row source taken origin nodes) ?_ hrest
  exact fun _ _ _ _ hcontext hpre hread =>
    hpre.pass (hfirst _ hpre.placed _ _ _ _ hcontext rfl hread)

/-- Nodes with commas between them stand in a row. -/
theorem Triple.row {close : Mark} {item : Reading Node} (hitem : Whole source item) :
    Triple (Reached source taken origin []) (Reading.commaList close item)
      (Row source taken origin) := by
  refine .mono (.collect (Row source taken origin) fun found => ?_) (fun _ h => .nil h)
    fun _ _ h => h
  refine .look (Looks.isMark close) fun closed => .choose (.pure fun _ h => h) ?_
  have hrow : Triple (Row source taken origin found) item
      fun node => Row source taken origin (found ++ [node]) :=
    fun _ _ _ _ hcontext hpre hread =>
      hpre.snoc (hitem _ hpre.placed _ _ _ _ hcontext rfl hread)
  refine .bind hrow fun node => .look (Looks.isMark close) fun atEnd => ?_
  refine .choose (.passRow (Passes.expectMark _) fun _ => ?_) (.pure fun _ h => h)
  exact .pure fun _ h => h

/-- A single node of a sequence covers all that has been taken. -/
theorem Triple.single {item : Reading Node} (hplaced : origin.Placed source)
    (hitem : Whole source item) :
    Triple (· = origin) (Reading.commaSequence item) fun nodes progress =>
      Reached source true origin nodes progress ∧
        ∀ node, nodes = [node] → Held source origin origin.here node progress := by
  refine .bind (hitem origin hplaced) fun first => ?_
  refine .through (fun found progress => Reached source true origin (first :: found) progress ∧
    (found = [] → Held source origin origin.here first progress)) ?_ fun rest => ?_
  · refine .mono (.collect _ fun found => ?_) (fun _ h => ⟨h.toReached, fun _ => h⟩) fun _ _ h => h
    refine .eat (Eats.eatMark _) (fun _ h => h.1) ?_ (.pure fun _ h => h)
    refine .read hitem.reads fun next => .pure fun _ h => ⟨h, fun hnil => ?_⟩
    exact absurd hnil (List.append_ne_nil_of_right_ne_nil _ (List.cons_ne_nil _ _))
  · refine .pure fun progress h => ⟨h.1, fun node hnodes => ?_⟩
    obtain ⟨rfl, hrest⟩ := List.cons_eq_cons.mp hnodes
    exact h.2 hrest

end Reading

end WebBundle.Syntax
