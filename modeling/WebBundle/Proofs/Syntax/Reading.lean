import WebBundle.Syntax.Reading

/-!
# Running readers

A reader is run on a context and a progress.  What the small readers do is stated once,
so that the reader of a construct can be followed step by step.
-/

namespace WebBundle.Syntax.Reading

variable {α β : Type} {context : Context} {progress : Progress}

@[simp]
theorem bind_apply (first : Reading α) (rest : α → Reading β) :
    (first >>= rest) context progress = match first context progress with
      | none => none
      | some (value, progress) => rest value context progress := rfl

@[simp]
theorem pure_apply (value : α) :
    (pure value : Reading α) context progress = some (value, progress) := rfl

@[simp]
theorem context_apply : Reading.context context progress = some (context, progress) := rfl

@[simp]
theorem progress_apply : Reading.progress context progress = some (progress, progress) := rfl

@[simp]
theorem within_apply (change : Context → Context) (reader : Reading α) :
    within change reader context progress = reader (change context) progress := rfl

@[simp]
theorem token_apply : token context progress = some (progress.token, progress) := rfl

@[simp]
theorem tokenKind_apply : tokenKind context progress = some (progress.token.kind, progress) := rfl

@[simp]
theorem peek_apply : peek context progress = some (progress.token.next, progress) := rfl

@[simp]
theorem position_apply :
    position context progress = some (progress.token.start.offset, progress) := rfl

@[simp]
theorem node_apply (kind : Kind) (start : Nat) (children : List Node) :
    node kind start children context progress =
      some (⟨kind, ⟨start, progress.lastStop⟩, children⟩, progress) := rfl

@[simp]
theorem check_true : check true context progress = some ((), progress) := rfl

@[simp]
theorem isMark_apply (mark : Mark) : isMark mark context progress =
    some (decide (progress.token.kind = .mark mark), progress) := rfl

/-- The progress behind the current token. -/
def pass (progress : Progress) : Progress where
  token := progress.token.next
  lastStop := progress.token.stop.offset
  comments := progress.token.next.comments.reverse.map (progress.token.next.start.offset, ·) ++
    progress.comments

@[simp]
theorem pass_token (progress : Progress) : (pass progress).token = progress.token.next := rfl

@[simp]
theorem pass_lastStop (progress : Progress) :
    (pass progress).lastStop = progress.token.stop.offset := rfl

theorem advance_apply (hvalid : progress.token.kind ≠ .invalid)
    (hmore : progress.token.kind ≠ .finish) :
    advance context progress = some (progress.token, pass progress) := by
  rw [advance.eq_def]
  split
  · rename_i hkind
    exact absurd hkind hvalid
  · rename_i hkind
    exact absurd hkind hmore
  · rfl

/-- A punctuator is taken where it stands. -/
theorem eatMark_of_mark {mark : Mark} (hkind : progress.token.kind = .mark mark) :
    eatMark mark context progress = some (true, pass progress) := by
  have hadvance : advance context progress = some (progress.token, pass progress) :=
    advance_apply (by simp [hkind]) (by simp [hkind])
  simp [eatMark, hkind, hadvance]

/-- A punctuator is not taken where another one stands. -/
theorem eatMark_of_ne {mark : Mark} (hkind : progress.token.kind ≠ .mark mark) :
    eatMark mark context progress = some (false, progress) := by
  simp [eatMark, hkind]

theorem expectMark_of_mark {mark : Mark} (hkind : progress.token.kind = .mark mark) :
    expectMark mark context progress = some ((), pass progress) := by
  simp [expectMark, eatMark_of_mark hkind]

/-- A step that gives nothing ends the repetition. -/
theorem iterate_done {step : α → Reading (Option α)} {value : α} (hlimit : 0 < context.limit)
    (hstep : step value context progress = some (none, progress)) :
    iterate step value context progress = some (value, progress) := by
  obtain ⟨limit, hlimit⟩ : ∃ limit, context.limit = limit + 1 := ⟨context.limit - 1, by omega⟩
  simp [iterate, hlimit, iterateFor, hstep]

/-- One step, and then a step that gives nothing. -/
theorem iterate_once {step : α → Reading (Option α)} {value next : α} {last : Progress}
    (hlimit : 1 < context.limit) (hstep : step value context progress = some (some next, last))
    (hdone : step next context last = some (none, last)) :
    iterate step value context progress = some (next, last) := by
  obtain ⟨limit, hlimit⟩ : ∃ limit, context.limit = limit + 2 := ⟨context.limit - 2, by omega⟩
  simp [iterate, hlimit, iterateFor, hstep, hdone]

/-- A list of one item. -/
theorem commaList_single {last : Progress} {close : Mark} {item : Reading α} {value : α}
    (hlimit : 1 < context.limit) (hmore : progress.token.kind ≠ .mark close)
    (hitem : item context progress = some (value, last))
    (hclose : last.token.kind = .mark close) :
    commaList close item context progress = some ([value], last) := by
  obtain ⟨limit, hlimit⟩ : ∃ limit, context.limit = limit + 2 := ⟨context.limit - 2, by omega⟩
  simp [commaList, collect, hlimit, collectFor, hmore, hitem, hclose]

end WebBundle.Syntax.Reading
