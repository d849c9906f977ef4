import Cascade.Proofs.Grammar.Scan
import Cascade.Proofs.Regex.Match
import Mathlib.Algebra.Order.Group.Nat

/-!
# What is matched stands in the text

The matcher only goes from one place in a text to another one that is not before it, and what it
marks lies between two such places. So each match that is reported stands in the text where it says,
and so does what its groups have captured. The search goes on where a match has ended, and refuses
what it has found there already.

* `Cursor.StandsIn`, `Mark.StandsIn`: places in a text, and parts of it that are marked.
* `Plan.Matches.standing`: the matcher goes from places in a text to places in it.
* `advances_scan`, `advances_of_compile`: matches come one behind the other.
* `reliable_compiler`: regular expressions can be relied on.
-/

namespace Cascade.Regex

variable {stop fuel : Nat} {p : Plan} {r : Regex} {c c' first last : Cursor} {marks : Marks}
  {needs : List CharSet} {ended : Option Nat} {text : Text} {m : Match} {mark : Mark}

/-! ## Places -/

namespace Cursor

/-- A place stands in a text: what is before it and what is behind it make up the text, and its
position is the number of bytes before it. -/
structure StandsIn (text : Text) (c : Cursor) : Prop where
  append_eq : c.before.reverse ++ c.behind = text
  offset_eq : c.offset = Text.byteLength c.before.reverse

/-- The start of a text stands in it. -/
theorem standsIn_start (text : Text) : (start text).StandsIn text :=
  ⟨rfl, rfl⟩

namespace StandsIn

variable {x : Char} {ignoreCase : Bool} {t : Text} {count : Nat}

/-- The place behind a character stands in the text, and it is a later one. -/
theorem next (h : c.StandsIn text) (hnext : c.next? = some (x, c')) :
    c'.StandsIn text ∧ c.offset < c'.offset := by
  unfold next? at hnext
  split at hnext
  · contradiction
  · next y rest hbehind =>
    obtain ⟨rfl, rfl⟩ : y = x ∧ _ := by simpa using hnext
    have hpos : 0 < y.utf8Size := y.utf8Size_pos
    refine ⟨⟨?_, ?_⟩, Nat.lt_add_of_pos_right hpos⟩
    · simp [← h.append_eq, hbehind]
    · simp [h.offset_eq, Text.byteLength_append, Text.byteLength]

/-- A step leads to a later place in the text. -/
theorem step (h : c.StandsIn text) (hstep : c.step? stop = some (x, c')) :
    c'.StandsIn text ∧ c.offset < c'.offset := by
  unfold step? at hstep
  split at hstep
  · exact h.next hstep
  · contradiction

theorem previous (h : c.StandsIn text) (hprevious : c.previous? = some c') : c'.StandsIn text := by
  unfold previous? at hprevious
  split at hprevious
  · contradiction
  · next x rest hbefore =>
    obtain rfl := Option.some.inj hprevious
    refine ⟨?_, ?_⟩
    · simp [← h.append_eq, hbefore]
    · simp [h.offset_eq, hbefore, Text.byteLength_append, Text.byteLength]

theorem back (h : c.StandsIn text) (hback : c.back? count = some c') : c'.StandsIn text := by
  induction count generalizing c with
  | zero =>
    obtain rfl := Option.some.inj hback
    exact h
  | succ count ih =>
    obtain ⟨before, hbefore, hback⟩ := Option.bind_eq_some_iff.1 hback
    exact ih (h.previous hbefore) hback

/-- The place behind a text that comes next stands in the text, and it is no earlier one. -/
theorem pass (h : c.StandsIn text) (hpass : c.pass? stop ignoreCase t = some c') :
    c'.StandsIn text ∧ c.offset ≤ c'.offset := by
  induction t generalizing c with
  | nil =>
    obtain rfl := Option.some.inj hpass
    exact ⟨h, Nat.le_refl _⟩
  | cons x rest ih =>
    rw [pass?, Option.bind_eq_bind, Option.bind_eq_some_iff] at hpass
    obtain ⟨⟨y, between⟩, hstep, hpass⟩ := hpass
    obtain ⟨hbetween, hlt⟩ := h.step hstep
    dsimp only at hpass
    split at hpass
    · obtain ⟨hc', hle⟩ := ih hbetween hpass
      exact ⟨hc', hlt.le.trans hle⟩
    · contradiction

/-- What a part of a pattern reaches is a place in the same text, and not an earlier one. -/
theorem reaches (h : c.StandsIn text) (hreaches : c.Reaches c') :
    c'.StandsIn text ∧ c.offset ≤ c'.offset := by
  induction hreaches with
  | refl => exact ⟨h, Nat.le_refl _⟩
  | tail _ hnext ih =>
    obtain ⟨x, hnext⟩ := hnext
    obtain ⟨hc', hlt⟩ := ih.1.next hnext
    exact ⟨hc', ih.2.trans hlt.le⟩

/-- What is between two places is what stands behind the one but not behind the other. -/
theorem exists_between (h : c.StandsIn text) (h' : c'.StandsIn text)
    (hle : c.offset ≤ c'.offset) :
    ∃ between : Text, c'.before.reverse = c.before.reverse ++ between ∧
      c.behind = between ++ c'.behind := by
  rw [h.offset_eq, h'.offset_eq] at hle
  exact Text.append_eq_append_of_byteLength_le (h.append_eq.trans h'.append_eq.symm) hle

/-- A place is known by its position. -/
theorem eq_of_offset_eq (h : c.StandsIn text) (h' : c'.StandsIn text)
    (heq : c.offset = c'.offset) : c = c' := by
  have hbytes : Text.byteLength c.before.reverse = Text.byteLength c'.before.reverse := by
    rw [← h.offset_eq, heq, h'.offset_eq]
  obtain ⟨hbefore, hbehind⟩ :=
    Text.append_inj_of_byteLength_eq (h.append_eq.trans h'.append_eq.symm) hbytes
  cases c
  cases c'
  simp_all

end StandsIn

end Cursor

/-- What is marked lies between two places in a text. -/
structure Mark.StandsIn (text : Text) (mark : Mark) : Prop where
  first : mark.first.StandsIn text
  last : mark.last.StandsIn text
  offset_le : mark.first.offset ≤ mark.last.offset

/-- What is marked stands in the text where the mark says. -/
theorem Mark.StandsIn.at (h : mark.StandsIn text) : text.At mark.group.span mark.group.text := by
  obtain ⟨between, hbefore, hbehind⟩ := h.first.exists_between h.last h.offset_le
  have hlast : mark.last.offset = mark.first.offset + between.byteLength := by
    rw [h.last.offset_eq, hbefore, Text.byteLength_append, ← h.first.offset_eq]
  have htext : mark.text = between := by
    rw [Mark.text, hlast, Nat.add_sub_cancel_left, hbehind, Text.takeBytes_append]
  refine ⟨mark.first.before.reverse, mark.last.behind, ?_, h.first.offset_eq.symm, ?_⟩
  · rw [group, htext, ← hbefore, h.last.append_eq]
  · rw [group, htext, ← hbefore, h.last.offset_eq]

/-! ## The matcher -/

/-- A place stands in a text, and so does all that has been marked on the way to it. -/
def Standing (text : Text) (s : Cursor × Marks) : Prop :=
  s.1.StandsIn text ∧ ∀ number mark, (number, some mark) ∈ s.2 → mark.StandsIn text

/-- The matcher goes from places in a text to places in it that are not before them. -/
theorem Plan.Matches.standing {s s' : Cursor × Marks} (h : p.Matches stop s s')
    (hs : Standing text s) : Standing text s' ∧ s.1.offset ≤ s'.1.offset := by
  -- a loop goes round by round, looking around comes back to where it has begun
  induction p generalizing stop s s' with
  | text ignoreCase t =>
    obtain ⟨hpass, hmarks⟩ := h
    obtain ⟨hplace, hle⟩ := hs.1.pass hpass
    exact ⟨⟨hplace, hmarks ▸ hs.2⟩, hle⟩
  | set chars =>
    obtain ⟨x, hstep, -, hmarks⟩ := h
    obtain ⟨hplace, hlt⟩ := hs.1.step hstep
    exact ⟨⟨hplace, hmarks ▸ hs.2⟩, hlt.le⟩
  | concat a b iha ihb =>
    obtain ⟨between, ha, hb⟩ := h
    obtain ⟨hbetween, hle⟩ := iha ha hs
    obtain ⟨hs', hle'⟩ := ihb hb hbetween
    exact ⟨hs', hle.trans hle'⟩
  | either a b iha ihb =>
    rcases h with ha | hb
    · exact iha ha hs
    · exact ihb hb hs
  | group number body ih =>
    obtain ⟨inside, hinside, rfl⟩ := h
    have hentered : Standing text (s.1, (number, none) :: s.2) :=
      ⟨hs.1, fun number' mark hmark => hs.2 number' mark (by simpa using hmark)⟩
    obtain ⟨⟨hplace, hmarks⟩, hle⟩ := ih hinside hentered
    refine ⟨⟨hplace, fun number' mark hmark => ?_⟩, hle⟩
    rcases List.mem_cons.1 hmark with hthis | hmark
    · -- the group itself lies between where it was entered and where it was left
      obtain ⟨-, rfl⟩ : number' = number ∧ mark = ⟨s.1, inside.1⟩ := by simpa using hthis
      exact ⟨hs.1, hplace, hle⟩
    · exact hmarks number' mark hmark
  | loop body bounds layout nullable watched ih =>
    induction h with
    | refl => exact ⟨hs, Nat.le_refl _⟩
    | tail _ hround ihrounds =>
      obtain ⟨hs', hle⟩ := ih hround ihrounds.1
      exact ⟨hs', ihrounds.2.trans hle⟩
  | atomic body ih => exact ih h hs
  | anchor a =>
    obtain ⟨-, rfl⟩ := h
    exact ⟨hs, Nat.le_refl _⟩
  | ahead negated body ih =>
    cases negated with
    | false =>
      obtain ⟨hplace, last, hbody⟩ := h
      obtain ⟨⟨-, hmarks⟩, -⟩ := ih hbody hs
      exact ⟨⟨hplace ▸ hs.1, hmarks⟩, hplace ▸ Nat.le_refl _⟩
    | true =>
      obtain ⟨-, rfl⟩ := h
      exact ⟨hs, Nat.le_refl _⟩
  | behind negated length body ih =>
    cases negated with
    | false =>
      obtain ⟨hplace, count, first, last, hback, -, hbody⟩ := h
      obtain ⟨⟨-, hmarks⟩, -⟩ := ih hbody ⟨hs.1.back hback, hs.2⟩
      exact ⟨⟨hplace ▸ hs.1, hmarks⟩, hplace ▸ Nat.le_refl _⟩
    | true =>
      obtain ⟨-, rfl⟩ := h
      exact ⟨hs, Nat.le_refl _⟩
  | backref groups ignoreCase =>
    obtain ⟨number, -, mark, -, hpass, hmarks⟩ := h
    obtain ⟨hplace, hle⟩ := hs.1.pass hpass
    exact ⟨⟨hplace, hmarks ▸ hs.2⟩, hle⟩

/-- A match that is found at a place lies in the text from there on, with all that is marked. -/
theorem standing_of_run (hfirst : first.StandsIn text)
    (h : run stop p (fun c marks => some (c, marks)) first [] = some (last, marks)) :
    Standing text (last, marks) ∧ first.offset ≤ last.offset :=
  (matches_of_run h).standing ⟨hfirst, fun _ _ hmark => absurd hmark List.not_mem_nil⟩

/-! ## The matches in a text -/

/-- Where a match is found that is tried first, it is the one that a search finds. -/
theorem firstFrom_of_run
    (h : run stop p (fun c marks => some (c, marks)) first [] = some (last, marks)) :
    firstFrom stop p (fuel + 1) first = some (first, last, marks) := by
  rw [firstFrom, h]

/-- Each match is found by the matcher at a place in the text, not before where the search began. -/
theorem exists_run_of_mem_scanFrom (hc : c.StandsIn text)
    (h : m ∈ scanFrom stop needs r ended fuel c) :
    ∃ first last marks, first.StandsIn text ∧ c.offset ≤ first.offset ∧
      run stop r.plan (fun c marks => some (c, marks)) first [] = some (last, marks) ∧
      m = ⟨⟨first.offset, last.offset⟩, captures r first last marks⟩ := by
  induction fuel generalizing ended c with
  | zero => simp [scanFrom] at h
  | succ fuel ih =>
    rw [scanFrom] at h
    split at h
    · simp at h
    · next first last marks hfound =>
      obtain ⟨hreaches, hrun⟩ := run_of_firstFrom (Option.ite_none_right_eq_some.1 hfound).2
      obtain ⟨hfirst, hle⟩ := hc.reaches hreaches
      -- what is found by a search that goes on at a later place is not found before this one
      have hlater {c' : Cursor} {ended : Option Nat} (hc' : c'.StandsIn text)
          (hle : c.offset ≤ c'.offset) (h : m ∈ scanFrom stop needs r ended fuel c') :
          ∃ first last marks, first.StandsIn text ∧ c.offset ≤ first.offset ∧
            run stop r.plan (fun c marks => some (c, marks)) first [] = some (last, marks) ∧
            m = ⟨⟨first.offset, last.offset⟩, captures r first last marks⟩ := by
        obtain ⟨first, last, marks, hfirst, hle', hm⟩ := ih hc' h
        exact ⟨first, last, marks, hfirst, hle.trans hle', hm⟩
      split at h
      · split at h
        · next x c' hnext =>
          obtain ⟨hc', hlt⟩ := hc.next hnext
          exact hlater hc' hlt.le h
        · simp at h
      · rcases List.mem_cons.1 h with rfl | h
        · exact ⟨first, last, marks, hfirst, hle, hrun, rfl⟩
        · obtain ⟨⟨hlast, -⟩, hle'⟩ := standing_of_run hfirst hrun
          exact hlater hlast (hle.trans hle') h

/-- No match starts before the place where the search does. -/
theorem offset_le_of_mem_scanFrom (hc : c.StandsIn text)
    (h : m ∈ scanFrom stop needs r ended fuel c) : c.offset ≤ m.span.start := by
  obtain ⟨first, last, marks, -, hle, -, rfl⟩ := exists_run_of_mem_scanFrom hc h
  exact hle

/-- The empty match at the end of the match before is refused, so that the next one starts later. -/
theorem offset_lt_of_mem_scanFrom (hc : c.StandsIn text)
    (hrun : run stop r.plan (fun c marks => some (c, marks)) c [] = some (c, marks))
    (h : m ∈ scanFrom stop needs r (some c.offset) fuel c) : c.offset < m.span.start := by
  cases fuel with
  | zero => simp [scanFrom] at h
  | succ fuel =>
    rw [scanFrom, firstFrom_of_run hrun] at h
    split at h
    · simp at h
    · next first last marks' hfound =>
      obtain ⟨-, hsame⟩ := Option.ite_none_right_eq_some.1 hfound
      obtain ⟨rfl, rfl, -⟩ : c = first ∧ c = last ∧ _ := by simpa using hsame
      rw [if_pos ⟨rfl, rfl⟩] at h
      split at h
      · next x c' hnext =>
        obtain ⟨hc', hlt⟩ := hc.next hnext
        exact hlt.trans_le (offset_le_of_mem_scanFrom hc' h)
      · simp at h

/-- Matches come one behind the other. -/
theorem advances_scanFrom (hc : c.StandsIn text) :
    ((scanFrom stop needs r ended fuel c).map Match.span).Pairwise fun s s' =>
      s.start < s'.start ∧ s.stop ≤ s'.start := by
  induction fuel generalizing ended c with
  | zero => exact .nil
  | succ fuel ih =>
    rw [scanFrom]
    split
    · exact .nil
    · next first last marks hfound =>
      obtain ⟨hreaches, hrun⟩ := run_of_firstFrom (Option.ite_none_right_eq_some.1 hfound).2
      have hfirst := (hc.reaches hreaches).1
      obtain ⟨⟨hlast, -⟩, hle⟩ := standing_of_run hfirst hrun
      split
      · split
        · next x c' hnext => exact ih (hc.next hnext).1
        · exact .nil
      · refine List.pairwise_cons.2 ⟨List.forall_mem_map.2 fun m hm => ?_, ih hlast⟩
        have hstop : last.offset ≤ m.span.start := offset_le_of_mem_scanFrom hlast hm
        refine ⟨?_, hstop⟩
        rcases Nat.lt_or_eq_of_le hle with hlt | heq
        · exact hlt.trans_le hstop
        · -- behind an empty match, the same one is found again
          obtain rfl : first = last := hfirst.eq_of_offset_eq hlast heq
          exact offset_lt_of_mem_scanFrom hfirst hrun hm

/-- Each match of a search starts behind where the one before it started, and not before that one
ended. -/
theorem advances_scan (r : Regex) (text : Text) :
    ((r.scan text).map Match.span).Pairwise fun s s' =>
      s.start < s'.start ∧ s.stop ≤ s'.start :=
  advances_scanFrom (Cursor.standsIn_start text)

/-- The text of a match is what lies between the two places. -/
theorem whole_captures (r : Regex) (first last : Cursor) (marks : Marks) :
    (captures r first last marks).whole = (Mark.mk first last).text := by
  have hget : (captures r first last marks).get? 0 =
      if (Mark.mk first last).text.isEmpty then none else some (Mark.mk first last).text := rfl
  rw [Captures.whole, hget]
  split
  · next hempty => exact (List.isEmpty_iff.1 hempty).symm
  · rfl

/-- What the groups of a match have captured stands in the text, and the first of them is the match
itself. -/
theorem standing_of_mem_scan (h : m ∈ r.scan text) :
    text.At m.span m.captures.whole ∧
      ∀ group, some group ∈ m.captures.groups → text.At group.span group.text := by
  obtain ⟨first, last, marks, hfirst, -, hrun, rfl⟩ :=
    exists_run_of_mem_scanFrom (Cursor.standsIn_start text) h
  obtain ⟨⟨hlast, hmarks⟩, hle⟩ := standing_of_run hfirst hrun
  have hwhole : Mark.StandsIn text ⟨first, last⟩ := ⟨hfirst, hlast, hle⟩
  refine ⟨?_, fun group hgroup => ?_⟩
  · rw [whole_captures]
    exact hwhole.at
  · rcases List.mem_cons.1 hgroup with hgroup | hgroup
    · obtain rfl := Option.some.inj hgroup
      exact hwhole.at
    · obtain ⟨i, -, hmark⟩ := List.mem_map.1 hgroup
      obtain ⟨mark, hlast?, rfl⟩ := Option.map_eq_some_iff.1 hmark
      obtain ⟨before, after, rfl, -⟩ :=
        List.lookup_eq_some_iff.1 (Option.join_eq_some_iff.1 hlast?)
      exact (hmarks (i + 1) mark (by simp)).at

/-- A pattern that has been compiled searches as its regular expression does. -/
theorem exists_scan_eq_of_compile {source : Text} {p : Pattern}
    (h : Pattern.compile compiler source = .ok p) : ∃ r : Regex, p.scan = r.scan := by
  obtain ⟨c, hc, rfl⟩ := Pattern.compile_eq_ok_iff.1 h
  obtain ⟨r, -, rfl⟩ := compile_eq_ok_iff.1 hc
  exact ⟨r, funext r.scan_compiled⟩

/-- The matches of a pattern that has been compiled come one behind the other. -/
theorem advances_of_compile {source : Text} {p : Pattern}
    (h : Pattern.compile compiler source = .ok p) : p.Advances := by
  intro text
  obtain ⟨r, hr⟩ := exists_scan_eq_of_compile h
  rw [hr]
  exact r.advances_scan text

/-- Regular expressions can be relied on: what they report stands in the text, in order. -/
theorem reliable_compiler : compiler.Reliable where
  faithful source p h text m hm := by
    obtain ⟨r, hr⟩ := exists_scan_eq_of_compile h
    exact (standing_of_mem_scan (hr ▸ hm)).1
  ordered source p h := (advances_of_compile h).ordered
  capturesFaithfully source p h text m hm := by
    obtain ⟨r, hr⟩ := exists_scan_eq_of_compile h
    exact (standing_of_mem_scan (hr ▸ hm)).2

end Cascade.Regex
