import WebBundle.Syntax.Literal

/-!
# Writing comments

Comments in front of a statement or a member are kept.  A comment on a line of its
own stays on one, and what follows a comment on the same line stays behind it.
Comments that say that a call has no effect are no part of the text around them;
they are written with the call.
-/

namespace WebBundle.Syntax.Writing

/-- The indentation of a depth. -/
def tabs (depth : Nat) : String := String.ofList (List.replicate depth '\t')

/-- The comments of a program with the offset of the token behind each. -/
abbrev Comments := List (Nat × Comment)

/-- What a comment says, without its delimiters and the blanks in front. -/
def contentOf (comment : Comment) : List Char :=
  (comment.text.drop 2).dropWhile isBlank

/-- Whether a comment says something about a call or a function in a fixed form. -/
def announces (form : String) (comment : Comment) : Bool :=
  match contentOf comment with
  | mark :: rest => (mark = '@' || mark = '#') && form.toList.isPrefixOf rest
  | [] => false

/-- Whether a comment says that the call behind it has no effect. -/
def isPureMark (comment : Comment) : Bool := announces "__PURE__" comment

/-- Whether a comment is an instruction that is not written as a comment. -/
def isInstruction (comment : Comment) : Bool :=
  isPureMark comment || announces "__NO_SIDE_EFFECTS__" comment

/-- The comments in front of the token at an offset. -/
def commentsAt (comments : Comments) (offset : Nat) : List Comment :=
  comments.filterMap fun (target, comment) =>
    if target = offset && !isInstruction comment then some comment else none

/-- Whether a call at an offset is said to have no effect. -/
def isPureAt (comments : Comments) (offset : Nat) : Bool :=
  comments.any fun (target, comment) => target = offset && isPureMark comment

/-- The lines of a text. -/
def linesOf : List Char → List (List Char)
  | [] => [[]]
  | c :: rest =>
    if isLineEnd c then [] :: linesOf rest
    else
      match linesOf rest with
      | [] => [[c]]
      | first :: more => (c :: first) :: more

/-- The text of one comment; the further lines of a block get the indentation of
the place. -/
def commentText (depth : Nat) (comment : Comment) : String :=
  if comment.isLine then String.ofList comment.text
  else
    match linesOf comment.text with
    | [] => ""
    | first :: rest =>
      rest.foldl (fun text line =>
        text ++ "\n" ++ tabs depth ++ String.ofList (line.dropWhile isBlank)) (String.ofList first)

/-- What is written before something: a text, and whether a space takes the place of
the indentation behind it. -/
structure Lead where
  text : String := ""
  isAttached : Bool := false

/-- What stands in front of the first comment. -/
def beforeFirst (depth : Nat) (isAttached : Bool) (comment : Comment) : String :=
  match isAttached, comment.startsLine with
  | true, true => "\n "
  | true, false => " "
  | false, _ => tabs depth

/-- What stands in front of a comment behind another one. -/
def beforeNext (depth : Nat) (comment : Comment) : String :=
  if comment.startsLine then "\n" ++ tabs depth else ""

/-- Comments in front of something. -/
def leadOf (depth : Nat) (isAttached : Bool) : List Comment → Lead
  | [] => { isAttached }
  | first :: rest =>
    let last := rest.getLastD first
    let text := rest.foldl
      (fun text comment => text ++ beforeNext depth comment ++ commentText depth comment)
      (beforeFirst depth isAttached first ++ commentText depth first)
    if last.isLine || last.endsLine then { text := text ++ "\n" }
    else { text, isAttached := true }

end WebBundle.Syntax.Writing
