import Cascade.Grammar.Wiring
import Cascade.Proofs.Text.Trim

/-!
# What an outline says

The parser of outlines goes through the lines with the open header and the last items in hand. What
a line means can be told without these, by looking back at the lines before it: an item belongs to
the nearest line above that is less deep.

* `InOrder`: what a line has to be like, given the lines before it.
* `edgesFrom`: the edges of lines that are in order.
* `read_eq`: what is read of a line, in terms of what it says.
* `Tracks`: what the parser has in hand is what is found by looking back.
* `describes_parse`: the parser accepts the lines that are in order and gives their edges, and
  reports the first line that is not in order.
-/

namespace Cascade.Wiring

open Text

/-! ## Lines -/

/-- What a line says, without blanks behind it and spaces in front of it. -/
def content (raw : Text) : Text :=
  (trimEnd raw).dropWhile (· = ' ')

/-- The number of spaces in front of a line. -/
def spaces (raw : Text) : Nat :=
  ((trimEnd raw).takeWhile (· = ' ')).length

/-- How deep a line is indented. -/
def depth (raw : Text) : Nat :=
  spaces raw / 2

/-- The line is blank or a comment. -/
def isIgnored (raw : Text) : Bool :=
  content raw = [] || ['#'].isPrefixOf (content raw)

/-- The line ends in a colon. -/
def isOpen (raw : Text) : Bool :=
  (dropEnding? [':'] (content raw)).isSome

/-- The name on a line, which is what stands behind the hyphen of an item, and in front of the colon
if there is one. -/
def lineName (raw : Text) : Text :=
  let text := if depth raw = 0 then content raw else (content raw).drop 2
  trim ((dropEnding? [':'] text).getD text)

/-- The nearest line that is less deep, neither blank nor a comment. -/
def nearest? (earlier : List Text) (d : Nat) : Option Text :=
  earlier.reverse.find? fun raw => !isIgnored raw && depth raw < d

/-- A line at the margin that ends in a colon and has a name. -/
structure IsHeader (raw : Text) : Prop where
  depth_eq : depth raw = 0
  isOpen : isOpen raw
  name_ne : lineName raw ≠ []

/-- A line that starts with a hyphen and a space and has a name. The nearest line that is less deep
is one level less deep, and ends in a colon. -/
structure IsItem (earlier : List Text) (raw : Text) : Prop where
  depth_pos : 1 ≤ depth raw
  marked : ['-', ' '] <+: content raw
  name_ne : lineName raw ≠ []
  below : ∃ above, nearest? earlier (depth raw) = some above ∧ depth above + 1 = depth raw ∧
    isOpen above

/-- A line that says something is indented by an even number of spaces and no tab, and is a header
or an item. -/
structure Valid (earlier : List Text) (raw : Text) : Prop where
  no_tab : ¬ ['\t'] <+: content raw
  even : spaces raw % 2 = 0
  form : IsHeader raw ∨ IsItem earlier raw

/-- A line has nothing wrong with it, given the lines before it. -/
def InOrder (earlier : List Text) (raw : Text) : Prop :=
  isIgnored raw ∨ Valid earlier raw

/-- The edge that a line adds, if it is an item. -/
def edgesOf (earlier : List Text) (raw : Text) : List Edge :=
  if isIgnored raw ∨ depth raw = 0 then []
  else
    match nearest? earlier (depth raw) with
    | none => []
    | some above => [⟨lineName above, lineName raw, earlier.length + 1⟩]

/-- The edges of lines, `earlier` being the lines before them. -/
def edgesFrom (earlier : List Text) : List Text → List Edge
  | [] => []
  | raw :: rest => edgesOf earlier raw ++ edgesFrom (earlier ++ [raw]) rest

/-! ## Reading one line -/

variable {earlier : List Text} {raw : Text} {levels : List Level} {d : Nat}

/-- The name on a line, and whether the line ends in a colon. -/
def Level.ofLine (raw : Text) : Level :=
  ⟨lineName raw, Wiring.isOpen raw⟩

/-- What a line is longer than what it says are its spaces in front. -/
theorem length_sub_length_content (raw : Text) :
    (trimEnd raw).length - (content raw).length = spaces raw := by
  have hsplit := congrArg List.length (List.takeWhile_append_dropWhile (p := (· = ' '))
    (l := trimEnd raw))
  rw [List.length_append] at hsplit
  unfold content spaces
  omega

/-- What a line says ends in a character that is not blank. -/
theorem content_eq_nil_or (raw : Text) :
    content raw = [] ∨ ∃ front c, content raw = front ++ [c] ∧ isBlank c = false := by
  rcases trimEnd_eq_nil_or raw with h | ⟨front, c, h, hc⟩
  · exact .inl (by rw [content, h]; rfl)
  · refine .inr ⟨front.dropWhile (· = ' '), c, ?_, hc⟩
    have hspace : c ≠ ' ' := by rintro rfl; contradiction
    rw [content, h, List.dropWhile_append]
    split
    · next hnil => simp [List.isEmpty_iff.1 hnil, hspace]
    · rfl

/-- The text behind the marker of an item says what the line says. -/
theorem Level.ofItem_eq {text : Text} (hdepth : depth raw ≠ 0)
    (hcontent : content raw = '-' :: ' ' :: text) : Level.ofItem text = Level.ofLine raw := by
  obtain ⟨front, c, rfl, hc⟩ : ∃ front c, text = front ++ [c] ∧ isBlank c = false := by
    rcases content_eq_nil_or raw with hnil | ⟨front, c, hlast, hc⟩
    · simp [hcontent] at hnil
    · rcases List.eq_nil_or_concat' text with rfl | ⟨rest, c', rfl⟩
      · -- a marker with nothing behind it would have lost its blank
        rw [hcontent, show ['-', ' '] = ['-'] ++ [' '] from rfl] at hlast
        obtain ⟨-, hspace⟩ := List.append_inj' hlast rfl
        cases hspace
        contradiction
      · rw [hcontent, ← List.cons_append, ← List.cons_append] at hlast
        obtain ⟨-, hlast⟩ := List.append_inj' hlast rfl
        cases hlast
        exact ⟨rest, c, rfl, hc⟩
  have hopen : Wiring.isOpen raw = decide (c = ':') := by
    rw [Wiring.isOpen, hcontent, ← List.cons_append, ← List.cons_append, dropEnding?_concat]
    by_cases hcolon : c = ':' <;> simp [hcolon]
  rw [Level.ofItem, trim_concat hc, Level.ofLine, hopen, lineName, if_neg hdepth, hcontent,
    List.drop_succ_cons, List.drop_succ_cons, List.drop_zero, dropEnding?_concat,
    dropEnding?_concat]
  by_cases hcolon : c = ':'
  · simp [hcolon, trim_trimStart]
  · simp [hcolon, ← trim_concat hc]

/-- Ignored are the lines that say nothing and those that are comments. -/
theorem isIgnored_iff : isIgnored raw ↔ content raw = [] ∨ ['#'] <+: content raw := by
  simp [isIgnored]

/-- What is read of a line, in terms of what it says. -/
theorem read_eq (raw : Text) : Line.read raw =
    if isIgnored raw then .ok .ignored
    else if ['\t'] <+: content raw then .error .tab
    else if spaces raw % 2 ≠ 0 then .error .oddIndent
    else if depth raw = 0 then
      if isOpen raw then
        if lineName raw = [] then .error .blankHeader else .ok (.header (lineName raw))
      else .error .noHeader
    else if ['-', ' '] <+: content raw then .ok (.item (depth raw) (Level.ofLine raw))
    else .error .noItem := by
  have hcontent : (trimEnd raw).dropWhile (· = ' ') = content raw := rfl
  simp only [Line.read, hcontent, length_sub_length_content]
  split
  · next hnil => rw [if_pos (isIgnored_iff.2 (.inl hnil))]
  · next rest hmark => rw [if_pos (isIgnored_iff.2 (.inr ⟨rest, hmark.symm⟩))]
  · next rest htab =>
    have hsaid : ¬ isIgnored raw := by simp [isIgnored, htab]
    rw [if_neg hsaid, if_pos ⟨rest, htab.symm⟩]
  · next hnil hmark htab =>
    have hsaid : ¬ isIgnored raw := by
      rw [isIgnored_iff]
      rintro (h | ⟨rest, h⟩)
      · exact hnil h
      · exact hmark rest h.symm
    have hspaces : ¬ ['\t'] <+: content raw := fun ⟨rest, h⟩ => htab rest h.symm
    -- lines with an even number of spaces stand at the margin only if they have none
    have hmargin : spaces raw % 2 = 0 → (spaces raw = 0 ↔ depth raw = 0) := by
      unfold depth
      omega
    rw [if_neg hsaid, if_neg hspaces]
    by_cases heven : spaces raw % 2 = 0
    · rw [if_neg (not_not.2 heven), if_neg (not_not.2 heven)]
      by_cases hdepth : depth raw = 0
      · rw [if_pos ((hmargin heven).2 hdepth), if_pos hdepth]
        cases hname : dropEnding? [':'] (content raw) <;> simp [isOpen, lineName, hdepth, hname]
      · rw [if_neg (mt (hmargin heven).1 hdepth), if_neg hdepth]
        cases htext : ['-', ' '].isPrefixOf? (content raw) with
        | none =>
          rw [if_neg]
          rintro ⟨text, hmarked⟩
          rw [isPrefixOf?_eq_some_iff.2 hmarked] at htext
          contradiction
        | some text =>
          rw [isPrefixOf?_eq_some_iff] at htext
          rw [if_pos ⟨text, htext⟩, ← Level.ofItem_eq hdepth htext.symm]
          rfl
    · rw [if_pos heven, if_pos heven]

/-! ## The levels in hand -/

/-- What the parser has in hand after the lines `earlier` is what is found by looking back: the last
level below depth `d` is the nearest line that is less deep, if that is one level less deep. -/
def Tracks (earlier : List Text) (levels : List Level) : Prop :=
  ∀ d, 1 ≤ d → ∀ level, levels[d - 1]? = some level ↔
    ∃ above, nearest? earlier d = some above ∧ depth above + 1 = d ∧ Level.ofLine above = level

/-- The nearest line that is less deep is the last one, if that says something and is less deep. -/
theorem nearest?_concat (earlier : List Text) (raw : Text) (d : Nat) :
    nearest? (earlier ++ [raw]) d =
      if ¬ isIgnored raw ∧ depth raw < d then some raw else nearest? earlier d := by
  simp only [nearest?, List.reverse_append, List.reverse_singleton, List.singleton_append,
    List.find?_cons]
  by_cases hraw : isIgnored raw = true <;> by_cases hdepth : depth raw < d <;> simp [hraw, hdepth]

/-- There is no level in hand at the start. -/
theorem Tracks.nil : Tracks [] [] := by
  simp [Tracks, nearest?]

/-- An ignored line leaves the levels as they are. -/
theorem Tracks.ignored (h : Tracks earlier levels) (hraw : isIgnored raw) :
    Tracks (earlier ++ [raw]) levels := by
  simpa [Tracks, nearest?_concat, hraw] using h

/-- A line that says something closes the levels that are at least as deep, and opens its own. -/
theorem Tracks.concat (h : Tracks earlier levels) (hraw : ¬ isIgnored raw)
    (hdepth : depth raw ≤ levels.length) :
    Tracks (earlier ++ [raw]) (levels.take (depth raw) ++ [Level.ofLine raw]) := by
  intro d hd level
  rw [nearest?_concat]
  have hlength : (levels.take (depth raw)).length = depth raw := by simp [hdepth]
  by_cases hdeeper : depth raw < d
  · rw [if_pos ⟨hraw, hdeeper⟩, List.getElem?_append_right (by omega), hlength]
    constructor
    · intro hlevel
      obtain ⟨hlt, hlevel⟩ := List.getElem?_eq_some_iff.1 hlevel
      rw [List.length_singleton] at hlt
      exact ⟨raw, rfl, by omega, by simpa using hlevel⟩
    · rintro ⟨above, habove, rfl, rfl⟩
      cases habove
      simp
  · rw [if_neg fun hboth => hdeeper hboth.2, List.getElem?_append_left (by omega),
      List.getElem?_take_of_lt (by omega)]
    exact h d hd level

/-! ## Going through the lines -/

/-- An item can be put under the level above it if that is open and the item has a name. -/
theorem parentOf_eq_ok_iff {entry parent : Level} :
    parentOf levels d entry = .ok parent ↔
      levels[d - 1]? = some parent ∧ parent.isOpen ∧ entry.name ≠ [] := by
  cases levels with
  | nil => simp [parentOf]
  | cons first rest =>
    unfold parentOf
    cases habove : (first :: rest)[d - 1]? with
    | none => simp
    | some level =>
      by_cases hopen : level.isOpen <;> by_cases hname : entry.name = [] <;> simp [hopen, hname]
      · rintro rfl
        simp [hopen]
      · rintro rfl
        simpa using hopen

/-- An item is in order if the parser finds a level to put it under, and then adds its edge. -/
theorem Tracks.isItem_iff (h : Tracks earlier levels) (hdepth : 1 ≤ depth raw)
    (hmarked : ['-', ' '] <+: content raw) :
    IsItem earlier raw ↔ ∃ parent, parentOf levels (depth raw) (Level.ofLine raw) = .ok parent := by
  simp only [parentOf_eq_ok_iff, h _ hdepth]
  constructor
  · rintro ⟨-, -, hname, above, hnearest, hone, hopen⟩
    exact ⟨Level.ofLine above, ⟨above, hnearest, hone, rfl⟩, hopen, hname⟩
  · rintro ⟨_, ⟨above, hnearest, hone, rfl⟩, hopen, hname⟩
    exact ⟨hdepth, hmarked, hname, above, hnearest, hone, hopen⟩

/-- An item that is put under a level has the edge from that level to its name. -/
theorem Tracks.edgesOf_eq {parent : Level} (h : Tracks earlier levels) (hsaid : ¬ isIgnored raw)
    (hdepth : 1 ≤ depth raw)
    (hparent : parentOf levels (depth raw) (Level.ofLine raw) = .ok parent) :
    edgesOf earlier raw = [⟨parent.name, lineName raw, earlier.length + 1⟩] := by
  obtain ⟨hlevel, -, -⟩ := parentOf_eq_ok_iff.1 hparent
  obtain ⟨above, hnearest, -, rfl⟩ := (h _ hdepth parent).1 hlevel
  have hinside : ¬ (isIgnored raw ∨ depth raw = 0) := by
    rintro (hignored | hmargin)
    · exact hsaid hignored
    · omega
  rw [edgesOf, if_neg hinside, hnearest]
  rfl

/-- All lines are in order, `earlier` being the lines before them. -/
def AllInOrder (earlier lines : List Text) : Prop :=
  ∀ before raw after, lines = before ++ raw :: after → InOrder (earlier ++ before) raw

theorem allInOrder_nil (earlier : List Text) : AllInOrder earlier [] := by
  intro before raw after h
  simp at h

/-- A line in order may come before others that are. -/
theorem AllInOrder.cons {rest : List Text} (hraw : InOrder earlier raw)
    (hrest : AllInOrder (earlier ++ [raw]) rest) : AllInOrder earlier (raw :: rest) := by
  intro before raw' after h
  cases before with
  | nil =>
    cases h
    simpa using hraw
  | cons first before =>
    cases h
    simpa using hrest before raw' after rfl

/-- The first line that is not in order has the given number, `earlier` being the lines before. -/
def FirstFault (earlier lines : List Text) (number : Nat) : Prop :=
  ∃ before raw after, lines = before ++ raw :: after ∧ AllInOrder earlier before ∧
    ¬ InOrder (earlier ++ before) raw ∧ number = (earlier ++ before).length + 1

/-- A line in order may come before the first fault. -/
theorem FirstFault.cons {rest : List Text} {number : Nat} (hraw : InOrder earlier raw)
    (h : FirstFault (earlier ++ [raw]) rest number) : FirstFault earlier (raw :: rest) number := by
  obtain ⟨before, raw', after, rfl, hbefore, hfault, rfl⟩ := h
  refine ⟨raw :: before, raw', after, rfl, hbefore.cons hraw, ?_⟩
  simpa using hfault

/-- What the parser is to give for lines: their edges if they are all in order, and else the number
of the first that is not. -/
def Describes (earlier lines : List Text) : Except Fault (List Edge) → Prop
  | .ok edges => AllInOrder earlier lines ∧ edges = edgesFrom earlier lines
  | .error fault => FirstFault earlier lines fault.line

variable {rest : List Text} {result : Except Fault (List Edge)}

/-- A first line that is not in order is the fault. -/
theorem Describes.error (hraw : ¬ InOrder earlier raw) (m : Malformation) :
    Describes earlier (raw :: rest) (.error ⟨earlier.length + 1, m⟩) :=
  ⟨[], raw, rest, rfl, allInOrder_nil earlier, by simpa using hraw, by simp⟩

/-- A line in order puts its edge, if it has one, in front of those behind it. -/
theorem Describes.cons (hraw : InOrder earlier raw) (h : Describes (earlier ++ [raw]) rest result) :
    Describes earlier (raw :: rest) (result.map (edgesOf earlier raw ++ ·)) := by
  cases result with
  | ok edges => exact ⟨h.1.cons hraw, by rw [h.2]; rfl⟩
  | error fault => exact FirstFault.cons hraw h

/-- A line in order without an edge changes nothing. -/
theorem Describes.cons_of_edgesOf_eq_nil (hraw : InOrder earlier raw)
    (hedges : edgesOf earlier raw = []) (h : Describes (earlier ++ [raw]) rest result) :
    Describes earlier (raw :: rest) result := by
  have := h.cons hraw
  rw [hedges] at this
  cases result <;> exact this

/-- Items do not stand at the margin. -/
theorem IsItem.depth_ne (h : IsItem earlier raw) : depth raw ≠ 0 :=
  Nat.one_le_iff_ne_zero.1 h.depth_pos

/-- A line that is neither a header nor an item is not in order, unless it says nothing. -/
theorem not_inOrder (hsaid : ¬ isIgnored raw) (hheader : ¬ IsHeader raw)
    (hitem : ¬ IsItem earlier raw) : ¬ InOrder earlier raw
  | .inl hignored => hsaid hignored
  | .inr hvalid => hvalid.form.elim hheader hitem

/-- The parser describes the lines it goes through. -/
theorem describes_parseLines (lines : List Text) (h : Tracks earlier levels) :
    Describes earlier lines (parseLines (earlier.length + 1) levels lines) := by
  induction lines generalizing earlier levels with
  | nil => exact ⟨allInOrder_nil earlier, rfl⟩
  | cons raw rest ih =>
    have hnumber : earlier.length + 1 + 1 = (earlier ++ [raw]).length + 1 := by simp
    rw [parseLines, hnumber, read_eq]
    -- the cases are those of reading a line, in the order in which they are told apart
    split_ifs with hignored htab heven hdepth hopen hname hmarked
    · exact (ih (h.ignored hignored)).cons_of_edgesOf_eq_nil (.inl hignored)
        (by simp [edgesOf, hignored])
    · exact .error (fun horder => horder.elim hignored fun hvalid => hvalid.no_tab htab) _
    · exact .error (fun horder => horder.elim hignored fun hvalid => heven hvalid.even) _
    · exact .error (not_inOrder hignored (fun hheader => hheader.name_ne hname)
        fun hitem => hitem.depth_ne hdepth) _
    · have hlevels := h.concat hignored (by omega)
      rw [hdepth, Level.ofLine, hopen] at hlevels
      have hvalid : Valid earlier raw := ⟨htab, not_not.1 heven, .inl ⟨hdepth, hopen, hname⟩⟩
      exact (ih hlevels).cons_of_edgesOf_eq_nil (.inr hvalid) (by simp [edgesOf, hdepth])
    · exact .error (not_inOrder hignored (fun hheader => hopen hheader.isOpen)
        fun hitem => hitem.depth_ne hdepth) _
    · have hinside : 1 ≤ depth raw := Nat.one_le_iff_ne_zero.2 hdepth
      have hitem := h.isItem_iff hinside hmarked
      dsimp only
      cases hparent : parentOf levels (depth raw) (Level.ofLine raw) with
      | error m =>
        simp only [hparent, reduceCtorEq, exists_false, iff_false] at hitem
        exact .error (not_inOrder hignored (fun hheader => hdepth hheader.depth_eq) hitem) m
      | ok parent =>
        have hvalid : Valid earlier raw :=
          ⟨htab, not_not.1 heven, .inr (hitem.2 ⟨parent, hparent⟩)⟩
        -- the level above is in hand, so the item is at most one level deeper
        have hlength : depth raw ≤ levels.length := by
          obtain ⟨hlevel, -, -⟩ := parentOf_eq_ok_iff.1 hparent
          have := (List.getElem?_eq_some_iff.1 hlevel).1
          omega
        have hrest := (ih (h.concat hignored hlength)).cons (.inr hvalid)
        rw [h.edgesOf_eq hignored hinside hparent] at hrest
        revert hrest
        generalize parseLines _ _ rest = result
        cases result <;> exact id
    · exact .error (not_inOrder hignored (fun hheader => hdepth hheader.depth_eq)
        fun hitem => hmarked hitem.marked) _

/-- Text is accepted as an outline if all its lines are in order, each given those above it, and has
the edges of its lines then. The first line that is not in order is reported. -/
theorem describes_parse (source : Text) : Describes [] (fields '\n' source) (parse source) :=
  describes_parseLines _ Tracks.nil

end Cascade.Wiring
