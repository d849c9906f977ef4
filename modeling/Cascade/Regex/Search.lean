import Cascade.Regex.Matcher
import Cascade.Regex.Parser.Pattern

/-!
# All matches of a pattern in a text

Matches are searched from left to right, each behind the one before it. The text before a place
stays visible to anchors and to expressions that look behind. An empty match at the end of the
match before it is refused, and the search goes on one character further.
-/

namespace Cascade.Regex

/-- Sets of characters such that whatever a plan matches has a character of each of them. -/
def Plan.needs : Plan → List CharSet
  | .text ignoreCase t => t.map fun c => if ignoreCase then .folded (.char c) else .char c
  | .set s => [s]
  | .concat a b => a.needs ++ b.needs
  | .either a b =>
    match a.needs, b.needs with
    | s :: _, t :: _ => [.union s t]
    | _, _ => []
  | .group _ body | .atomic body => body.needs
  | .loop body bounds _ _ _ => if bounds.least = 0 then [] else body.needs
  | .anchor _ | .ahead _ _ | .behind _ _ _ | .backref _ _ => []

/-- Whether a text has a character of each set. -/
def hasAll (sets : List CharSet) (text : Text) : Bool :=
  sets.all fun s => text.any s.contains

/-- The first place from `c` on where a plan matches in a text of `stop` bytes: the place, and the
outcome there. At most `fuel` places are tried. -/
def firstFrom (stop : Nat) (p : Plan) : (fuel : Nat) → Cursor → Option (Cursor × Cursor × Marks)
  | 0, _ => none
  | fuel + 1, c =>
    match run stop p (fun c marks => some (c, marks)) c [] with
    | some (last, marks) => some (c, last, marks)
    | none =>
      match c.next? with
      | some (_, c) => firstFrom stop p fuel c
      | none => none

/-- The groups of a match. -/
def captures (r : Regex) (first last : Cursor) (marks : Marks) : Captures :=
  { groups := some (Mark.group ⟨first, last⟩) ::
      (List.range r.groups).map fun i => (marks.last? (i + 1)).map Mark.group
    names := r.names }

/-- The matches from a place on in a text of `stop` bytes, `ended` being the end of the match before
it. A text in which something is missing that every match has is not searched. -/
def scanFrom (stop : Nat) (needs : List CharSet) (r : Regex) (ended : Option Nat) :
    (fuel : Nat) → Cursor → List Match
  | 0, _ => []
  | fuel + 1, c =>
    match if hasAll needs c.behind then firstFrom stop r.plan (stop + 1) c else none with
    | none => []
    | some (first, last, marks) =>
      if first.offset = last.offset ∧ ended = some last.offset then
        -- the refused match stands at `c` itself, because nothing is left between the two
        match c.next? with
        | some (_, c) => scanFrom stop needs r ended fuel c
        | none => []
      else
        ⟨⟨first.offset, last.offset⟩, captures r first last marks⟩ ::
          scanFrom stop needs r (some last.offset) fuel last

/-- All matches of a pattern in a text, from left to right. Each step either finds a match that is
not empty, passes over a character or finds an empty match, so that two steps for each character
are enough. -/
def scan (r : Regex) (text : Text) : List Match :=
  scanFrom text.byteLength r.plan.needs r none (2 * text.length + 2) (Cursor.start text)

end Cascade.Regex
