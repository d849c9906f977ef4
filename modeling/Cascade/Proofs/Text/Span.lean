import Cascade.Text.Basic

/-!
# Parts of a text and where they stand

A span that lies in a text and does not cut a character cuts out one part of it. Parts that stand
behind one another can all be replaced at once, and what stands between them is kept.

* `At`: a part of a text stands where a span says; `slice?_eq_some_iff` says that this is the case
  exactly if cutting it out does not go wrong.
* `Replaced`: parts of a text are replaced by others, and nothing else is changed.
* `replaced_splice`, `rebuild?_eq_some_splice`: this is what `splice` does, without a cut that goes
  wrong.
-/

namespace Cascade

/-- A span that is moved by a number of bytes. -/
def Span.shift (n : Nat) (s : Span) : Span :=
  ⟨n + s.start, n + s.stop⟩

namespace Text

variable {text a b c d part : Text} {span : Span}

/-- A part stands in a text where a span says. -/
def At (text : Text) (span : Span) (part : Text) : Prop :=
  ∃ before behind, text = before ++ part ++ behind ∧ byteLength before = span.start ∧
    byteLength (before ++ part) = span.stop

/-- Each character takes a byte at least. -/
theorem length_le_byteLength (text : Text) : text.length ≤ byteLength text := by
  induction text with
  | nil => exact Nat.le_refl _
  | cons c rest ih =>
    have hpos : 0 < c.utf8Size := c.utf8Size_pos
    simp only [byteLength, List.length_cons]
    omega

/-- Only the empty text has no bytes. -/
theorem byteLength_eq_zero (h : byteLength text = 0) : text = [] := by
  have hle := length_le_byteLength text
  exact List.length_eq_zero_iff.1 (by omega)

/-- Of two beginnings of a text, the one with less bytes is the beginning of the other. -/
theorem append_eq_append_of_byteLength_le (h : a ++ b = c ++ d)
    (hle : byteLength a ≤ byteLength c) : ∃ e, c = a ++ e ∧ b = e ++ d := by
  rcases List.append_eq_append_iff.1 h with ⟨e, hc, hb⟩ | ⟨e, rfl, rfl⟩
  · exact ⟨e, hc, hb⟩
  -- the other way round, nothing is left between the two ends, as each character has a byte
  · have hzero : byteLength e = 0 := by
      rw [byteLength_append] at hle
      omega
    obtain rfl := byteLength_eq_zero hzero
    exact ⟨[], by simp, by simp⟩

/-- A text has one beginning of each number of bytes. -/
theorem append_inj_of_byteLength_eq (h : a ++ b = c ++ d) (heq : byteLength a = byteLength c) :
    a = c ∧ b = d := by
  obtain ⟨e, rfl, rfl⟩ := append_eq_append_of_byteLength_le h (Nat.le_of_eq heq)
  have hzero : byteLength e = 0 := by
    rw [byteLength_append] at heq
    omega
  obtain rfl := byteLength_eq_zero hzero
  exact ⟨by simp, by simp⟩

@[simp]
theorem takeBytes_append (a b : Text) : takeBytes (byteLength a) (a ++ b) = a := by
  induction a with
  | nil =>
    cases b with
    | nil => rfl
    | cons c rest =>
      have hpos : 0 < c.utf8Size := c.utf8Size_pos
      simp [takeBytes, byteLength]
      omega
  | cons c rest ih => simp [takeBytes, byteLength, ih]

@[simp]
theorem dropBytes_append (a b : Text) : dropBytes (byteLength a) (a ++ b) = b := by
  have hall := take_append_drop (byteLength a) (a ++ b)
  rw [takeBytes_append] at hall
  exact List.append_cancel_left hall

/-- The part of a text that stands where a span says is what `slice` cuts out. -/
theorem slice_eq_of_at (h : At text span part) : slice text span = part := by
  obtain ⟨before, behind, rfl, hstart, hstop⟩ := h
  rw [slice, ← hstart, List.append_assoc, dropBytes_append]
  have hlength : span.stop - byteLength before = byteLength part := by
    rw [byteLength_append] at hstop
    omega
  rw [hlength, takeBytes_append]

/-- A span is as long as the part that stands there. -/
theorem At.stop_eq (h : At text span part) : span.stop = span.start + byteLength part := by
  obtain ⟨before, behind, -, hstart, hstop⟩ := h
  rw [← hstop, byteLength_append, hstart]

/-- A part of a text has characters of the text only. -/
theorem At.subset (h : At text span part) : part ⊆ text := by
  obtain ⟨before, behind, rfl, -, -⟩ := h
  exact fun c hc => List.mem_append_left _ (List.mem_append_right _ hc)

/-- Where the whole text is wanted, no part but the text itself stands. -/
theorem at_whole_iff : At text ⟨0, byteLength text⟩ part ↔ part = text := by
  constructor
  · rintro ⟨before, behind, htext, hbefore, hstop⟩
    obtain rfl := byteLength_eq_zero hbefore
    have hbehind : byteLength behind = 0 := by
      have hlength : byteLength part = byteLength (part ++ behind) := by
        simpa [htext] using hstop
      rw [byteLength_append] at hlength
      omega
    obtain rfl := byteLength_eq_zero hbehind
    simpa using htext.symm
  · rintro rfl
    exact ⟨[], [], by simp, rfl, rfl⟩

/-- A part stands where it stood if text is put behind. -/
theorem At.append_right (h : At text span part) (b : Text) : At (text ++ b) span part := by
  obtain ⟨before, behind, rfl, hstart, hstop⟩ := h
  exact ⟨before, behind ++ b, by simp, hstart, hstop⟩

/-- A part moves by the bytes of what is put in front. -/
theorem At.append_left (h : At text span part) (a : Text) :
    At (a ++ text) (span.shift (byteLength a)) part := by
  obtain ⟨before, behind, rfl, hstart, hstop⟩ := h
  refine ⟨a ++ before, behind, by simp, ?_, ?_⟩
  · rw [byteLength_append, hstart]
    rfl
  · rw [List.append_assoc, byteLength_append, hstop]
    rfl

/-! ## Cuts that can go wrong -/

/-- What stands before and behind a byte position. There is no such position behind the end of a
text, or inside a character. -/
def splitAt? : Nat → Text → Option (Text × Text)
  | 0, text => some ([], text)
  | _ + 1, [] => none
  | n + 1, c :: rest =>
    if c.utf8Size ≤ n + 1 then
      (splitAt? (n + 1 - c.utf8Size) rest).map fun (before, behind) => (c :: before, behind)
    else none

/-- The part of a text between two byte positions, if there are such positions in this order. -/
def slice? (text : Text) (span : Span) : Option Text := do
  let (front, _) ← splitAt? span.stop text
  let (_, part) ← splitAt? span.start front
  return part

/-- A text in which edits replace the spans, made from parts that are cut out of the text from byte
position `last` on; none if a cut goes wrong. -/
def rebuild? (text : Text) (last : Nat) : List (Span × Text) → Option Text
  | [] => slice? text ⟨last, byteLength text⟩
  | (span, replacement) :: edits => do
    let gap ← slice? text ⟨last, span.start⟩
    let rest ← rebuild? text span.stop edits
    return gap ++ replacement ++ rest

/-- A text is split at a byte position if its front has that many bytes. -/
theorem splitAt?_eq_some_iff {n : Nat} :
    splitAt? n text = some (a, b) ↔ text = a ++ b ∧ byteLength a = n := by
  induction n, text using splitAt?.induct generalizing a with
  | case1 text =>
    rw [splitAt?, Option.some.injEq, Prod.mk.injEq]
    constructor
    · rintro ⟨rfl, rfl⟩
      exact ⟨rfl, rfl⟩
    · rintro ⟨rfl, hlength⟩
      obtain rfl := byteLength_eq_zero hlength
      exact ⟨rfl, rfl⟩
  | case2 n =>
    -- the text ends before the position
    constructor
    · intro h
      contradiction
    · rintro ⟨h, hlength⟩
      obtain ⟨rfl, rfl⟩ := List.append_eq_nil_iff.1 h.symm
      contradiction
  | case3 n c rest hle ih =>
    rw [splitAt?, if_pos hle, Option.map_eq_some_iff]
    constructor
    · rintro ⟨⟨before, behind⟩, hsplit, h⟩
      obtain ⟨rfl, rfl⟩ : c :: before = a ∧ behind = b := by simpa using h
      obtain ⟨rfl, hlength⟩ := ih.1 hsplit
      refine ⟨rfl, ?_⟩
      rw [byteLength, hlength]
      omega
    · rintro ⟨h, hlength⟩
      cases a with
      | nil => contradiction
      | cons c' a =>
        obtain ⟨rfl, rfl⟩ : c = c' ∧ rest = a ++ b := by simpa using h
        rw [byteLength] at hlength
        exact ⟨(a, b), ih.2 ⟨rfl, by omega⟩, rfl⟩
  | case4 n c rest hle =>
    -- the position is inside of the first character
    rw [splitAt?, if_neg hle]
    constructor
    · intro h
      contradiction
    · rintro ⟨h, hlength⟩
      cases a with
      | nil => contradiction
      | cons c' a =>
        obtain ⟨rfl, rfl⟩ : c = c' ∧ rest = a ++ b := by simpa using h
        rw [byteLength] at hlength
        omega

/-- A part can be cut out exactly if it stands there. -/
theorem slice?_eq_some_iff : slice? text span = some part ↔ At text span part := by
  unfold slice? At
  constructor
  · intro h
    simp only [Option.bind_eq_bind, Option.bind_eq_some_iff, Prod.exists, Option.pure_def,
      Option.some.injEq] at h
    obtain ⟨front, behind, hfront, before, _, hbefore, rfl⟩ := h
    obtain ⟨rfl, hstop⟩ := splitAt?_eq_some_iff.1 hfront
    obtain ⟨rfl, hstart⟩ := splitAt?_eq_some_iff.1 hbefore
    exact ⟨before, behind, rfl, hstart, hstop⟩
  · rintro ⟨before, behind, rfl, hstart, hstop⟩
    rw [splitAt?_eq_some_iff.2 ⟨rfl, hstop⟩]
    simp [splitAt?_eq_some_iff.2 ⟨rfl, hstart⟩]

/-! ## Replacing parts -/

/-- An edit with the part of the text that it replaces. -/
structure Change where
  /-- Where the part stands. -/
  span : Span
  /-- The part that is replaced. -/
  old : Text
  /-- What replaces it. -/
  new : Text

/-- A change as `splice` is told of it. -/
def Change.edit (c : Change) : Span × Text :=
  (c.span, c.new)

/-- `Replaced offset changes before after`: the parts of `before`, which starts at byte position
`offset`, are replaced as the changes say. They stand in this order, and nothing else is changed. -/
inductive Replaced : Nat → List Change → Text → Text → Prop where
  | nil (offset rest) : Replaced offset [] rest rest
  | cons {offset gap old new changes rest rest'}
      (hrest : Replaced (offset + byteLength gap + byteLength old) changes rest rest') :
      Replaced offset
        (⟨⟨offset + byteLength gap, offset + byteLength gap + byteLength old⟩, old, new⟩ :: changes)
        (gap ++ old ++ rest) (gap ++ new ++ rest')

/-- A change that is made further behind. -/
def Change.shift (n : Nat) (c : Change) : Change :=
  { c with span := c.span.shift n }

namespace Replaced

variable {offset : Nat} {changes later : List Change} {a' b' : Text}

/-- A change where the text starts. -/
theorem cons_of_start {old new : Text} (h : Replaced (offset + byteLength old) changes b b') :
    Replaced offset (⟨⟨offset, offset + byteLength old⟩, old, new⟩ :: changes) (old ++ b)
      (new ++ b') :=
  @cons offset [] old new changes b b' h

/-- What stands before the first change is kept. -/
theorem append_gap (h : Replaced (offset + byteLength a) changes b b') :
    Replaced offset changes (a ++ b) (a ++ b') := by
  generalize hoffset : offset + byteLength a = start at h
  cases h with
  | nil => exact .nil _ _
  | @cons _ gap old new changes rest rest' hrest =>
    have hgap : start + byteLength gap = offset + byteLength (a ++ gap) := by
      rw [← hoffset, byteLength_append, Nat.add_assoc]
    rw [hgap] at hrest ⊢
    simpa using @cons offset (a ++ gap) old new changes rest rest' hrest

/-- Two texts behind one another are changed one by one. -/
theorem append (h : Replaced offset changes a a')
    (h' : Replaced (offset + byteLength a) later b b') :
    Replaced offset (changes ++ later) (a ++ b) (a' ++ b') := by
  induction h with
  | nil => exact append_gap h'
  | @cons offset gap old new changes rest rest' _ ih =>
    have hlater := ih (by
      have hlength : offset + byteLength (gap ++ old ++ rest) =
          offset + byteLength gap + byteLength old + byteLength rest := by
        simp only [byteLength_append]
        omega
      rwa [hlength] at h')
    simpa using @cons offset gap old new _ _ _ hlater

/-- Nothing of the result is left open by the changes. -/
theorem unique (h : Replaced offset changes a b) (h' : Replaced offset changes a b') : b = b' := by
  induction h generalizing b' with
  | nil =>
    cases h'
    rfl
  | @cons offset gap old new changes rest rest' _ ih =>
    generalize hbefore : gap ++ old ++ rest = before at h'
    generalize hchange : (⟨⟨offset + byteLength gap, offset + byteLength gap + byteLength old⟩, old,
      new⟩ : Change) = change at h'
    cases h' with
    | @cons _ gap' old' new' _ behind behind' hrest =>
      -- both first changes are the same, so the gaps before them have the same number of bytes
      obtain ⟨⟨hstart, -⟩, rfl, rfl⟩ : (offset + byteLength gap = offset + byteLength gap' ∧ _) ∧
          old = old' ∧ new = new' := by simpa using hchange
      rw [List.append_assoc, List.append_assoc] at hbefore
      obtain ⟨rfl, hbehind⟩ := append_inj_of_byteLength_eq hbefore (by omega)
      obtain rfl := List.append_cancel_left hbehind
      rw [ih hrest]

/-- If the whole text moves, the changes move with it. -/
theorem shift (h : Replaced offset changes a b) (n : Nat) :
    Replaced (n + offset) (changes.map (Change.shift n)) a b := by
  induction h with
  | nil => exact .nil _ _
  | @cons offset gap old new changes rest rest' _ ih =>
    simp only [← Nat.add_assoc] at ih
    simpa [Change.shift, Span.shift, Nat.add_assoc] using
      @cons (n + offset) gap old new _ _ _ ih

/-- A text is as before if each part is replaced by itself. -/
theorem eq_of_kept (h : Replaced offset changes a b) (hkept : ∀ c ∈ changes, c.new = c.old) :
    b = a := by
  induction h with
  | nil => rfl
  | cons _ ih =>
    have hnew := hkept _ List.mem_cons_self
    simp only at hnew
    rw [hnew, ih fun c hc => hkept c (List.mem_cons_of_mem _ hc)]

/-- If all parts but one are replaced by themselves, then only this one is replaced. -/
theorem exists_of_kept (h : Replaced offset changes a b) (hnodup : changes.Nodup) {c : Change}
    (hc : c ∈ changes) (hkept : ∀ c' ∈ changes, c' ≠ c → c'.new = c'.old) :
    ∃ before behind, a = before ++ (c.old ++ behind) ∧ b = before ++ (c.new ++ behind) ∧
      offset + byteLength before = c.span.start := by
  induction h with
  | nil => contradiction
  | @cons offset gap old new changes rest rest' hrest ih =>
    obtain ⟨hfirst, hlater⟩ := List.nodup_cons.1 hnodup
    rcases List.mem_cons.1 hc with rfl | hc
    · -- the changes behind it are none of it
      have hsame : rest' = rest := hrest.eq_of_kept fun c' hc' =>
        hkept c' (List.mem_cons_of_mem _ hc') fun heq => hfirst (heq ▸ hc')
      refine ⟨gap, rest, by simp, by simp [hsame], rfl⟩
    · obtain ⟨before, behind, rfl, rfl, hstart⟩ := ih hlater hc fun c' hc' =>
        hkept c' (List.mem_cons_of_mem _ hc')
      have hold : new = old := hkept _ List.mem_cons_self fun heq => hfirst (heq ▸ hc)
      refine ⟨gap ++ old ++ before, behind, by simp, by simp [hold], ?_⟩
      rw [← hstart, byteLength_append, byteLength_append]
      omega

end Replaced

/-- Spans stand behind one another. -/
def InOrder (spans : List Span) : Prop :=
  spans.Pairwise fun s s' => s.stop ≤ s'.start

/-- Putting edits in their places replaces what stood there, and cuts no character apart. -/
theorem replaced_spliceFrom (front rest : Text) {changes : List Change}
    (hat : ∀ c ∈ changes, At (front ++ rest) c.span c.old)
    (hfront : ∀ c ∈ changes, byteLength front ≤ c.span.start)
    (horder : InOrder (changes.map Change.span)) :
    Replaced (byteLength front) changes rest
        (spliceFrom (byteLength front) rest (changes.map Change.edit)) ∧
      rebuild? (front ++ rest) (byteLength front) (changes.map Change.edit) =
        some (spliceFrom (byteLength front) rest (changes.map Change.edit)) := by
  -- `front` has been passed and `rest` is left, and what is cut is always the whole text
  induction changes generalizing front rest with
  | nil =>
    refine ⟨.nil _ _, slice?_eq_some_iff.2 ⟨front, [], ?_, rfl, rfl⟩⟩
    simp [spliceFrom]
  | cons change changes ih =>
    obtain ⟨span, old, new⟩ := change
    obtain ⟨before, behind, htext, hstart, hstop⟩ := hat _ List.mem_cons_self
    simp only at hstart hstop
    obtain ⟨hnext, hlater⟩ := List.pairwise_cons.1 horder
    have hle : byteLength front ≤ byteLength before :=
      hstart ▸ hfront _ List.mem_cons_self
    rw [List.append_assoc] at htext
    obtain ⟨gap, rfl, rfl⟩ := append_eq_append_of_byteLength_le htext hle
    -- the text behind the first change starts where its span stops
    have hwhole : front ++ (gap ++ (old ++ behind)) = (front ++ gap ++ old) ++ behind := by simp
    obtain ⟨hreplaced, hrebuild⟩ := ih (front ++ gap ++ old) behind
      (fun c hc => hwhole ▸ hat c (List.mem_cons_of_mem _ hc))
      (fun c hc => hstop ▸ hnext _ (List.mem_map_of_mem hc)) hlater
    rw [hstop] at hreplaced hrebuild
    have hgap : span.start - byteLength front = byteLength gap := by
      rw [byteLength_append] at hstart
      omega
    have hold : span.stop - byteLength front = byteLength (gap ++ old) := by
      rw [byteLength_append, byteLength_append] at hstop
      rw [byteLength_append]
      omega
    have hsplice : spliceFrom (byteLength front) (gap ++ (old ++ behind))
        ((⟨span, old, new⟩ :: changes).map Change.edit) =
          gap ++ new ++ spliceFrom span.stop behind (changes.map Change.edit) := by
      simp only [List.map_cons, Change.edit, spliceFrom]
      rw [hgap, hold, takeBytes_append, ← List.append_assoc gap, dropBytes_append]
    have hspan : span = ⟨byteLength front + byteLength gap,
        byteLength front + byteLength gap + byteLength old⟩ := by
      rw [byteLength_append, hstart] at hstop
      rw [byteLength_append] at hstart
      rw [hstart, hstop]
    have hslice : slice? (front ++ (gap ++ (old ++ behind))) ⟨byteLength front, span.start⟩ =
        some gap := by
      refine slice?_eq_some_iff.2 ⟨front, old ++ behind, by simp, rfl, hstart⟩
    rw [hsplice]
    constructor
    · subst hspan
      simpa using Replaced.cons hreplaced
    · rw [← hwhole] at hrebuild
      rw [List.map_cons, rebuild?]
      simp only [Change.edit] at hrebuild ⊢
      rw [hslice, hrebuild]
      rfl

/-- Changes of parts that stand in a text, one behind the other, are what `splice` makes. -/
theorem replaced_splice {changes : List Change} (hat : ∀ c ∈ changes, At text c.span c.old)
    (horder : InOrder (changes.map Change.span)) :
    Replaced 0 changes text (text.splice (changes.map Change.edit)) :=
  (replaced_spliceFrom [] text hat (fun _ _ => Nat.zero_le _) horder).1

/-- No cut goes wrong when parts that stand in a text, one behind the other, are replaced. -/
theorem rebuild?_eq_some_splice {changes : List Change}
    (hat : ∀ c ∈ changes, At text c.span c.old) (horder : InOrder (changes.map Change.span)) :
    rebuild? text 0 (changes.map Change.edit) = some (text.splice (changes.map Change.edit)) :=
  (replaced_spliceFrom [] text hat (fun _ _ => Nat.zero_le _) horder).2

end Text

end Cascade
