import Cascade.Grammar.Reference
import Mathlib.Data.List.Infix
import Mathlib.Data.List.TakeWhile

/-!
# Where references stand in patterns

A pattern is cut into segments from left to right. Which references it contains can be told without
that: no two of them overlap, so they are all the parts of the pattern that read `<<name>>`.

* `Mentions`, `Plain`: a reference stands in a pattern, or none does.
* `mem_segments_iff`: the references among the segments are those that stand in the pattern.
* `segments_append`: a pattern can be cut where no reference goes on.
* `reference_induction`: a pattern is either plain or has a first reference, and text behind it.
-/

namespace Cascade.Reference

/-- A reference as it is written. -/
def written (name : Text) : Text :=
  '<' :: '<' :: (name ++ ['>', '>'])

/-- A reference to a rule stands somewhere in a pattern. -/
def Mentions (pattern name : Text) : Prop :=
  Token.isRuleName name ∧ written name <:+: pattern

/-- No reference stands in a pattern. -/
def Plain (pattern : Text) : Prop :=
  ∀ name, ¬ Mentions pattern name

variable {pattern name text before after : Text} {c : Char} {skip : Nat}

/-- A reference that is written stands there. -/
theorem mentions_written (hname : Token.isRuleName name) (before after : Text) :
    Mentions (before ++ written name ++ after) name :=
  ⟨hname, before, after, rfl⟩

/-- A reference stands there as well if text is put in front. -/
theorem Mentions.append_left (h : Mentions text name) (before : Text) :
    Mentions (before ++ text) name :=
  ⟨h.1, h.2.trans (List.suffix_append before text).isInfix⟩

/-! ## Reading one reference -/

/-- The name that is read at the start of a text is that of the reference that is written there. -/
theorem nameAt?_eq_some_iff :
    nameAt? text = some name ↔ Token.isRuleName name ∧ written name <+: text := by
  constructor
  · intro h
    unfold nameAt? at h
    split at h
    · next rest =>
      simp only [Option.ite_none_right_eq_some, Option.some.injEq] at h
      obtain ⟨⟨hname, hbehind⟩, rfl⟩ := h
      obtain ⟨behind, hbehind⟩ := List.isPrefixOf_iff_prefix.1 hbehind
      refine ⟨hname, behind, ?_⟩
      calc written (rest.takeWhile Token.isNameChar) ++ behind
          = '<' :: '<' :: (rest.takeWhile Token.isNameChar ++ (['>', '>'] ++ behind)) := by
            simp [written]
        _ = '<' :: '<' :: rest := by rw [hbehind, List.takeWhile_append_dropWhile]
    · contradiction
  · rintro ⟨hname, behind, rfl⟩
    have hchars : ∀ c ∈ name, Token.isNameChar c := Token.isNameChar_of_isRuleName hname
    -- the name ends at the first closing sign, which stands in no name
    have htake : (name ++ '>' :: '>' :: behind).takeWhile Token.isNameChar = name := by
      rw [List.takeWhile_append_of_pos hchars]
      simp [show Token.isNameChar '>' = false by decide]
    have hdrop : (name ++ '>' :: '>' :: behind).dropWhile Token.isNameChar =
        '>' :: '>' :: behind := by
      rw [List.dropWhile_append_of_pos hchars]
      simp [show Token.isNameChar '>' = false by decide]
    have hspelled : written name ++ behind = '<' :: '<' :: (name ++ '>' :: '>' :: behind) := by
      simp [written]
    rw [hspelled]
    simp only [nameAt?, htake, hdrop]
    simp [hname]

/-- A reference that has begun does not run into this text. -/
def Apart (text : Text) : Prop :=
  ∀ begun, begun ≠ [] → nameAt? (begun ++ text) = nameAt? begun

/-- Characters that can stand in references. -/
def isReferenceChar (c : Char) : Bool :=
  c = '<' || c = '>' || Token.isNameChar c

/-- References consist of characters that can stand in references. -/
theorem isReferenceChar_of_mem_written (hname : Token.isRuleName name) (h : c ∈ written name) :
    isReferenceChar c := by
  simp only [written, List.mem_cons, List.mem_append, List.not_mem_nil, or_false] at h
  rcases h with rfl | rfl | h | rfl | rfl
  · rfl
  · rfl
  · simp [isReferenceChar, Token.isNameChar_of_isRuleName hname c h]
  · rfl
  · rfl

/-- A reference that begins before a text either ends before it or goes on in it. -/
theorem prefix_or_exists_of_prefix_append {begun : Text} (h : written name <+: begun ++ text) :
    written name <+: begun ∨ ∃ more, more ≠ [] ∧ written name = begun ++ more ∧ more <+: text := by
  rcases List.prefix_or_prefix_of_prefix h (List.prefix_append begun text) with hbegun | hover
  · exact .inl hbegun
  · obtain ⟨more, hmore⟩ := hover
    by_cases hnil : more = []
    · subst hnil
      exact .inl ⟨[], by simpa using hmore.symm⟩
    · rw [← hmore, List.prefix_append_right_inj] at h
      exact .inr ⟨more, hnil, hmore.symm, h⟩

/-- A text is apart if no reference that begins before it can go on in it. -/
theorem apart_of_forall (h : ∀ name begun more, Token.isRuleName name → begun ≠ [] → more ≠ [] →
    written name = begun ++ more → ¬ more <+: text) : Apart text := by
  intro begun hbegun
  refine Option.ext fun name => ?_
  rw [nameAt?_eq_some_iff, nameAt?_eq_some_iff]
  constructor
  · rintro ⟨hname, hprefix⟩
    rcases prefix_or_exists_of_prefix_append hprefix with hinside | ⟨more, hne, hmore, hover⟩
    · exact ⟨hname, hinside⟩
    · exact absurd hover (h name begun more hname hbegun hne hmore)
  · rintro ⟨hname, hprefix⟩
    exact ⟨hname, hprefix.trans (List.prefix_append ..)⟩

/-- No reference goes on in a character that cannot stand in one. -/
theorem apart_cons (hc : isReferenceChar c = false) (rest : Text) : Apart (c :: rest) := by
  refine apart_of_forall fun name begun more hname _ hne hmore hover => ?_
  obtain ⟨d, more, rfl⟩ := List.exists_cons_of_ne_nil hne
  obtain ⟨rfl, -⟩ := List.cons_prefix_cons.1 hover
  have hmem : isReferenceChar d := isReferenceChar_of_mem_written hname (by simp [hmore])
  rw [hc] at hmem
  contradiction

/-- Behind its first two signs, no reference has the sign that opens one. -/
theorem not_mem_of_isRuleName (hname : Token.isRuleName name) : '<' ∉ name ++ ['>', '>'] := by
  intro h
  rcases List.mem_append.1 h with h | h
  · exact absurd (Token.isNameChar_of_isRuleName hname _ h) (by decide)
  · simp at h

/-- The only sign inside a reference that could begin another one is its second. -/
theorem eq_of_written_eq_append {begun more : Text} (hname : Token.isRuleName name)
    (hbegun : begun ≠ []) (h : written name = begun ++ '<' :: more) :
    more = name ++ ['>', '>'] := by
  obtain ⟨first, begun, rfl⟩ := List.exists_cons_of_ne_nil hbegun
  obtain ⟨-, h⟩ : '<' = first ∧ '<' :: (name ++ ['>', '>']) = begun ++ '<' :: more :=
    List.cons.inj h
  cases begun with
  | nil => exact (List.cons.inj h).2.symm
  | cons second begun =>
    have hinside : name ++ ['>', '>'] = begun ++ '<' :: more := (List.cons.inj h).2
    exact absurd (by simp [hinside]) (not_mem_of_isRuleName hname)

/-- No reference goes on in another one: what stands behind its second sign is a name. -/
theorem apart_written (name after : Text) : Apart (written name ++ after) := by
  refine apart_of_forall fun other begun more hother hbegun hne hmore hover => ?_
  obtain ⟨c, more, rfl⟩ := List.exists_cons_of_ne_nil hne
  obtain ⟨rfl, hrest⟩ : c = '<' ∧ more <+: '<' :: (name ++ ['>', '>'] ++ after) :=
    List.cons_prefix_cons.1 hover
  -- it would go on with its second sign, and its name would begin with the one here
  obtain rfl : more = other ++ ['>', '>'] := eq_of_written_eq_append hother hbegun hmore
  rcases List.prefix_cons_iff.1 hrest with hnil | ⟨rest, hsign, -⟩
  · simp at hnil
  · exact not_mem_of_isRuleName hother (by simp [hsign])

/-! ## Segments -/

/-- What is skipped is no segment. -/
theorem segmentsFrom_length_append (passed rest : Text) :
    segmentsFrom passed.length (passed ++ rest) = segments rest := by
  induction passed with
  | nil => rfl
  | cons c passed ih => simpa [segmentsFrom] using ih

/-- A reference at the start of a pattern is its first segment. -/
theorem segments_written_append (hname : Token.isRuleName name) (after : Text) :
    segments (written name ++ after) = .rule name :: segments after := by
  have hat : nameAt? (written name ++ after) = some name :=
    nameAt?_eq_some_iff.2 ⟨hname, List.prefix_append ..⟩
  have hpassed : ('<' :: (name ++ ['>', '>'])).length = name.length + 3 := by simp
  have hsplit : written name ++ after = '<' :: ('<' :: (name ++ ['>', '>']) ++ after) := rfl
  rw [hsplit] at hat ⊢
  rw [segments, segmentsFrom, if_pos rfl, hat]
  dsimp only
  rw [← hpassed, segmentsFrom_length_append]

/-- With some of it skipped, a pattern can still be cut where no reference goes on. -/
theorem segmentsFrom_append (h : Apart after) (hskip : skip ≤ before.length) :
    segmentsFrom skip (before ++ after) = segmentsFrom skip before ++ segments after := by
  induction before generalizing skip with
  | nil =>
    obtain rfl : skip = 0 := by simpa using hskip
    rfl
  | cons c rest ih =>
    rw [List.cons_append, segmentsFrom, segmentsFrom]
    split
    · rw [← List.cons_append, h (c :: rest) (by simp)]
      split
      · next name hat =>
        -- the reference ends before the cut
        have hlength := (nameAt?_eq_some_iff.1 hat).2.length_le
        simp only [written, List.length_cons, List.length_append, List.length_nil] at hlength
        rw [ih (by omega), List.cons_append]
      · rw [ih (Nat.zero_le _), List.cons_append]
    · rw [List.length_cons] at hskip
      exact ih (by omega)

/-- A pattern can be cut where no reference goes on. -/
theorem segments_append (h : Apart after) (before : Text) :
    segments (before ++ after) = segments before ++ segments after :=
  segmentsFrom_append h (Nat.zero_le _)

/-- A reference among the segments stands in the pattern. -/
theorem mentions_of_mem_segmentsFrom (h : .rule name ∈ segmentsFrom skip pattern) :
    Mentions pattern name := by
  induction pattern generalizing skip with
  | nil => simp [segmentsFrom] at h
  | cons c rest ih =>
    rw [segmentsFrom] at h
    split at h
    · split at h
      · next found hat =>
        rcases List.mem_cons.1 h with hfound | h
        · obtain rfl : name = found := by simpa using hfound
          obtain ⟨hname, hprefix⟩ := nameAt?_eq_some_iff.1 hat
          exact ⟨hname, hprefix.isInfix⟩
        · exact (ih h).append_left [c]
      · exact (ih (by simpa using h)).append_left [c]
    · exact (ih h).append_left [c]

/-- The references among the segments of a pattern are those that stand in it. -/
theorem mem_segments_iff : .rule name ∈ segments pattern ↔ Mentions pattern name := by
  refine ⟨mentions_of_mem_segmentsFrom, ?_⟩
  rintro ⟨hname, before, after, rfl⟩
  rw [List.append_assoc, segments_append (apart_written name after), segments_written_append hname]
  simp

/-- Where no reference begins, the first character is a segment of its own. -/
theorem segments_cons_of_nameAt?_eq_none (h : nameAt? (c :: after) = none) :
    segments (c :: after) = .literal c :: segments after := by
  rw [segments, segmentsFrom, if_pos rfl, h]
  rfl

/-- Without references, all segments are characters. -/
theorem Plain.segments_eq (h : Plain pattern) : segments pattern = pattern.map .literal := by
  induction pattern with
  | nil => rfl
  | cons c rest ih =>
    have hat : nameAt? (c :: rest) = none := by
      rw [Option.eq_none_iff_forall_not_mem]
      intro name hname
      obtain ⟨hname, hprefix⟩ := nameAt?_eq_some_iff.1 hname
      exact h name ⟨hname, hprefix.isInfix⟩
    have hrest : Plain rest := fun name hname => h name (hname.append_left [c])
    rw [segments_cons_of_nameAt?_eq_none hat, ih hrest, List.map_cons]

/-! ## Patterns without references -/

/-- Without references are the patterns with no reference among their segments. -/
theorem plain_iff : Plain pattern ↔ ∀ name, .rule name ∉ segments pattern := by
  simp [Plain, mem_segments_iff]

/-- If all segments are characters, there are no references. -/
theorem plain_of_segments (h : segments pattern = pattern.map .literal) : Plain pattern := by
  simp [plain_iff, h]

theorem plain_nil : Plain [] := by
  simp [plain_iff, segments, segmentsFrom]

/-- A reference has signs that other text may do without. -/
theorem plain_of_not_mem (h : '<' ∉ pattern) : Plain pattern := by
  rintro name ⟨-, hpart⟩
  exact h (hpart.subset (by simp [written]))

/-- A character that cannot stand in a reference is a segment of its own. -/
theorem segments_cons (hc : isReferenceChar c = false) (after : Text) :
    segments (c :: after) = .literal c :: segments after := by
  refine segments_cons_of_nameAt?_eq_none (Option.eq_none_iff_forall_not_mem.2 fun name hname => ?_)
  obtain ⟨-, hprefix⟩ := nameAt?_eq_some_iff.1 hname
  obtain ⟨rfl, -⟩ : '<' = c ∧ _ := List.cons_prefix_cons.1 hprefix
  contradiction

/-- Two texts without references stay so around a character that cannot stand in one. -/
theorem Plain.append_cons (hbefore : Plain before) (hc : isReferenceChar c = false)
    (hafter : Plain after) : Plain (before ++ c :: after) := by
  rw [plain_iff] at *
  intro name hname
  rw [segments_append (apart_cons hc after), segments_cons hc] at hname
  rcases List.mem_append.1 hname with hname | hname
  · exact hbefore name hname
  · exact hafter name (by simpa using hname)

/-! ## The first reference -/

/-- In front of the first reference all segments are characters. -/
theorem segments_reference (hbefore : Plain before) (hname : Token.isRuleName name)
    (after : Text) : segments (before ++ written name ++ after) =
      before.map .literal ++ .rule name :: segments after := by
  rw [List.append_assoc, segments_append (apart_written name after), hbefore.segments_eq,
    segments_written_append hname]

/-- Behind the first reference stand the other ones. -/
theorem mentions_reference_iff {other : Text} (hbefore : Plain before)
    (hname : Token.isRuleName name) :
    Mentions (before ++ written name ++ after) other ↔ other = name ∨ Mentions after other := by
  rw [← mem_segments_iff, segments_reference hbefore hname, ← mem_segments_iff]
  simp

/-- A pattern without references is plain, and any other has a first one. -/
theorem plain_or_reference (pattern : Text) :
    Plain pattern ∨ ∃ before name after, Plain before ∧ Token.isRuleName name ∧
      pattern = before ++ written name ++ after := by
  induction pattern with
  | nil => exact .inl plain_nil
  | cons c rest ih =>
    cases hat : nameAt? (c :: rest) with
    | some name =>
      obtain ⟨hname, after, hafter⟩ := nameAt?_eq_some_iff.1 hat
      exact .inr ⟨[], name, after, plain_nil, hname, hafter.symm⟩
    | none =>
      -- one more character makes a reference only if that begins with it
      have hcons {text : Text} (htext : text <+: rest) (h : Plain text) : Plain (c :: text) := by
        rintro name ⟨hname, hpart⟩
        rcases List.infix_cons_iff.1 hpart with hprefix | hpart
        · have hstart : written name <+: c :: rest :=
            hprefix.trans (List.cons_prefix_cons.2 ⟨rfl, htext⟩)
          rw [nameAt?_eq_some_iff.2 ⟨hname, hstart⟩] at hat
          contradiction
        · exact h name ⟨hname, hpart⟩
      rcases ih with hplain | ⟨before, name, after, hbefore, hname, rfl⟩
      · exact .inl (hcons (List.prefix_refl rest) hplain)
      · refine .inr ⟨c :: before, name, after, hcons ?_ hbefore, hname, rfl⟩
        rw [List.append_assoc]
        exact List.prefix_append ..

/-- What holds of plain texts, and of a text with a reference in front of which it is plain if it
holds of what stands behind, holds of all texts. -/
theorem reference_induction {motive : Text → Prop}
    (plain : ∀ pattern, Plain pattern → motive pattern)
    (reference : ∀ before name after, Plain before → Token.isRuleName name → motive after →
      motive (before ++ written name ++ after)) (pattern : Text) : motive pattern := by
  induction hlength : pattern.length using Nat.strong_induction_on generalizing pattern with
  | _ n ih =>
    rcases plain_or_reference pattern with hplain | ⟨before, name, after, hbefore, hname, rfl⟩
    · exact plain pattern hplain
    · have hshorter : after.length < n := by
        rw [← hlength]
        simp [written]
        omega
      exact reference before name after hbefore hname (ih _ hshorter after rfl)

end Cascade.Reference
