import Cascade.Captures
import Cascade.Regex.Plan

/-!
# Matching a plan at a place

The matcher goes through the ways in which a plan can match in order of preference. What is to be
matched behind a plan is a *continuation*: a plan succeeds in the first way in which its
continuation does. A round of a loop that makes no progress is the last one, even if more rounds
are due.

* `run`: matches a plan at a place in front of a continuation.
* `run_empty`, `run_concat`, `run_either`: how plans are put together.
-/

namespace Cascade.Regex

/-- A place in a text. -/
structure Cursor where
  /-- The characters before the place, the nearest first. -/
  before : Text
  /-- The characters behind the place. -/
  behind : Text
  /-- The byte position of the place. -/
  offset : Nat
  deriving DecidableEq, Inhabited

namespace Cursor

/-- The start of a text. -/
def start (text : Text) : Cursor :=
  ⟨[], text, 0⟩

/-- The place behind the next character. -/
@[inline] def next? (c : Cursor) : Option (Char × Cursor) :=
  match c.behind with
  | [] => none
  | x :: rest => some (x, ⟨x :: c.before, rest, c.offset + x.utf8Size⟩)

/-- The next character and the place behind it, if it stands before the byte position `stop`. -/
@[inline] def step? (c : Cursor) (stop : Nat) : Option (Char × Cursor) :=
  if c.offset < stop then c.next? else none

/-- The place before the last character. -/
def previous? (c : Cursor) : Option Cursor :=
  match c.before with
  | [] => none
  | x :: rest => some ⟨rest, x :: c.behind, c.offset - x.utf8Size⟩

/-- The place before the last `count` characters. -/
def back? : (count : Nat) → Cursor → Option Cursor
  | 0, c => some c
  | count + 1, c => do back? count (← c.previous?)

/-- Whether a part of a word stands on one side of the place and none on the other. Nothing stands
behind a place where both the text and what may be matched of it, up to `stop`, have just begun. -/
def atWordBoundary (c : Cursor) (stop : Nat) : Bool :=
  let behind := if c.before.isEmpty && stop ≤ c.offset then none else c.behind.head?
  c.before.head?.any Unicode.isWordPart != behind.any Unicode.isWordPart

/-- Whether the place is one that an anchor asks for. -/
def atAnchor (c : Cursor) (stop : Nat) : Anchor → Bool
  -- no line starts behind a line feed at the end of the text
  | .lineStart => c.before.isEmpty || (c.before.head? = some '\n' && !c.behind.isEmpty)
  | .lineEnd => c.behind.isEmpty || c.behind.head? = some '\n'
  | .textStart => c.before.isEmpty
  | .textEnd => c.behind.isEmpty
  | .lastLineEnd => c.behind.isEmpty || c.behind = ['\n']
  | .wordBoundary => c.atWordBoundary stop
  | .noWordBoundary => !c.atWordBoundary stop

/-- The place behind a text, if it comes next and does not go beyond the byte position `stop`. -/
def pass? (stop : Nat) (ignoreCase : Bool) : Text → Cursor → Option Cursor
  | [], c => some c
  | x :: rest, c => do
    let (y, c) ← c.step? stop
    if x = y || (ignoreCase && Unicode.fold x = Unicode.fold y) then pass? stop ignoreCase rest c
    else none

end Cursor

/-- Where a group has started and stopped. -/
structure Mark where
  /-- The place where the group started. -/
  first : Cursor
  /-- The place where it stopped. -/
  last : Cursor

/-- The characters between two places. -/
def Mark.text (m : Mark) : Text :=
  Text.takeBytes (m.last.offset - m.first.offset) m.first.behind

/-- What a group captured. -/
def Mark.group (m : Mark) : Group :=
  ⟨m.text, ⟨m.first.offset, m.last.offset⟩⟩

/-- What the groups have captured so far, by number, the latest first. A group that has been entered
and not left again has captured nothing yet. -/
abbrev Marks := List (Nat × Option Mark)

/-- What a group has captured last. -/
def Marks.last? (marks : Marks) (number : Nat) : Option Mark :=
  (marks.lookup number).join

/-- Where a match ends, and what its groups have captured. -/
abbrev Outcome := Option (Cursor × Marks)

/-- What is to be matched behind a plan. -/
abbrev Continuation := Cursor → Marks → Outcome

/-- The first outcome, or the second if there is none. -/
@[inline] def orElse (a : Outcome) (b : Unit → Outcome) : Outcome :=
  match a with
  | some r => some r
  | none => b ()

/-- What becomes of a loop after one of its rounds. -/
inductive RoundResult where
  /-- The round has made progress, and the loop goes on. -/
  | progress
  /-- The round has brought nothing new, and the loop ends. -/
  | idle
  /-- The round has moved a capture of the empty text to another place, which is no match. -/
  | astray
  deriving DecidableEq

/-- The result of a round that has matched the empty text at `offset`. `fresh` is the number of
marks that were made in the round, which are the latest. The first of the groups in `watched` that
starts in the round and had not captured the empty text before makes it progress. -/
def roundResult (watched : List Nat) (offset : Nat) : (fresh : Nat) → Marks → RoundResult
  | fresh + 1, (number, none) :: older =>
    -- groups that were entered earlier in the round come first
    match roundResult watched offset fresh older with
    | .progress => .progress
    | result =>
      if watched.contains number then
        match Marks.last? older number with
        | none => .progress
        | some mark =>
          if mark.first.offset ≠ mark.last.offset then .progress
          else if mark.last.offset ≠ offset then .astray
          else result
      else result
  | fresh + 1, _ :: older => roundResult watched offset fresh older
  | _, _ => .idle

/-- Runs a body exactly `count` times. -/
def times (body : Continuation → Continuation) : (count : Nat) → Continuation → Continuation
  | 0, k, c, marks => k c marks
  | count + 1, k, c, marks => body (times body count k) c marks

/-- Runs a body up to `count` times and at least `due` times, more rounds first if the loop is
greedy. If the rounds are `checked`, a round that makes no progress is the last one. -/
def rounds (body : Continuation → Continuation) (greedy checked : Bool) (watched : List Nat)
    (k : Continuation) : (count due : Nat) → Continuation
  | 0, _, c, marks => k c marks
  | count + 1, due, c, marks =>
    -- a lazy loop first tries to end, a greedy one last
    orElse (if due = 0 && !greedy then k c marks else none) fun _ =>
      orElse (body (fun c' marks' =>
          let result :=
            if checked && c'.offset = c.offset then
              if watched.isEmpty then .idle
              else roundResult watched c.offset (marks'.length - marks.length) marks'
            else .progress
          match result with
          | .progress => rounds body greedy checked watched k count (due - 1) c' marks'
          -- the loop ends here even if more rounds are due
          | .idle => k c' marks'
          | .astray => none) c marks) fun _ =>
        if due = 0 && greedy then k c marks else none

/-- Runs the rounds of a loop in a text that ends at `stop`. For each place in the text, a loop
without a limit of its own can make a round that is not empty and one for each group that makes
progress by capturing the empty text there. -/
def runLoop (stop : Nat) (body : Continuation → Continuation) (bounds : Bounds) (layout : Layout)
    (nullable : Bool) (watched : List Nat) (k : Continuation) : Continuation :=
  let most := bounds.most.getD ((stop + 1) * (watched.length + 1))
  match layout with
  | .unrolled => rounds body bounds.greedy false watched k most bounds.least
  | .headed => times body bounds.least (rounds body bounds.greedy nullable watched k most 0)
  | .counted => rounds body bounds.greedy nullable watched k most bounds.least

/-- Runs a body at one of `count` places from `c` back, the nearest to `c` first, such that it ends
at `target`. -/
def endingAt (body : Continuation → Continuation) (target : Nat) (marks : Marks) :
    (count : Nat) → (c : Cursor) → Outcome
  | 0, _ => none
  | count + 1, c =>
    -- a way to match that ends elsewhere is none, so the body goes on with the next one
    orElse (body (fun c' marks' => if c'.offset = target then some (c', marks') else none) c marks)
      fun _ =>
        match c.previous? with
        | some c => endingAt body target marks count c
        | none => none

/-- Runs a body of some length before a place, as near to it as the length allows. -/
def runBehind (body : Continuation → Continuation) (length : Length) (c : Cursor) (marks : Marks) :
    Outcome := do
  let places := (length.most.getD (length.least + c.offset)) - length.least + 1
  endingAt body c.offset marks places (← c.back? length.least)

/-- Goes on behind what one of some groups has captured: the first one in the list that comes next.
A group that has captured more than is left of the text ends the search. -/
def referTo (stop : Nat) (ignoreCase : Bool) (c : Cursor) (marks : Marks) (k : Continuation) :
    List Nat → Outcome
  | [] => none
  | number :: rest =>
    match marks.last? number with
    -- a group that has captured nothing does not count
    | none => referTo stop ignoreCase c marks k rest
    | some mark =>
      match c.pass? stop ignoreCase mark.text with
      | some c => k c marks
      | none =>
        if stop < c.offset + mark.text.byteLength then none
        else referTo stop ignoreCase c marks k rest

/-- Matches a plan at a place in front of a continuation. No character behind the byte position
`stop` is matched, though anchors see it. -/
def run (stop : Nat) : Plan → Continuation → Continuation
  | .text ignoreCase t, k, c, marks =>
    match c.pass? stop ignoreCase t with
    | some c => k c marks
    | none => none
  | .set s, k, c, marks =>
    match c.step? stop with
    | some (x, c) => if s.contains x then k c marks else none
    | none => none
  | .concat a b, k, c, marks => run stop a (run stop b k) c marks
  | .either a b, k, c, marks => orElse (run stop a k c marks) fun _ => run stop b k c marks
  | .group number body, k, c, marks =>
    -- while the group is open, a reference to it from inside does not match
    run stop body (fun c' marks' => k c' ((number, some ⟨c, c'⟩) :: marks')) c
      ((number, none) :: marks)
  | .loop body bounds layout nullable watched, k, c, marks =>
    runLoop stop (run stop body) bounds layout nullable watched k c marks
  | .atomic body, k, c, marks =>
    -- the body does not know what comes behind it, so it settles for its first way to match
    match run stop body (fun c marks => some (c, marks)) c marks with
    | some (c, marks) => k c marks
    | none => none
  | .anchor a, k, c, marks => if c.atAnchor stop a then k c marks else none
  | .ahead negated body, k, c, marks =>
    match run stop body (fun c marks => some (c, marks)) c marks, negated with
    | some (_, marks), false => k c marks
    | none, true => k c marks
    | _, _ => none
  | .behind negated length body, k, c, marks =>
    -- a body of more than one length could go beyond the place where it should end
    let stop := if length.isExact then stop else c.offset
    match runBehind (run stop body) length c marks, negated with
    | some (_, marks), false => k c marks
    | none, true => k c marks
    | _, _ => none
  | .backref groups ignoreCase, k, c, marks => referTo stop ignoreCase c marks k groups.reverse

/-- The empty plan leaves all to what comes behind it. -/
theorem run_empty (stop : Nat) (k : Continuation) : run stop .empty k = k := rfl

/-- Matching one thing after the other is matching the first in front of the second. -/
theorem run_concat (stop : Nat) (a b : Plan) (k : Continuation) :
    run stop (.concat a b) k = run stop a (run stop b k) := rfl

/-- The second alternative counts only where the first leads to no match. -/
theorem run_either (stop : Nat) (a b : Plan) (k : Continuation) (c : Cursor) (marks : Marks) :
    run stop (.either a b) k c marks =
      orElse (run stop a k c marks) fun _ => run stop b k c marks := rfl

end Cascade.Regex
