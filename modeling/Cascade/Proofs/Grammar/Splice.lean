import Cascade.Grammar.Replacement
import Cascade.Proofs.Grammar.Expansion
import Cascade.Proofs.Grammar.Segment
import Cascade.Proofs.Pattern.Groups
import Cascade.Proofs.Regex.Opening
import Cascade.Proofs.Text.Numeral

/-!
# Groups in the patterns of references

References are replaced by text, and an engine reads the pattern as a whole when all of them are. So
the groups in the patterns of the rules referred to are groups of the pattern too. If the engine
numbers groups by parenthesis, they are numbered together with those that are written in the
pattern, and found under the same names.

* `Origin`, `Spliced`: a pattern whose references have been replaced, with where its characters
  come from.
* `Spliced.written`, `Spliced.guarded`, `Spliced.ordered`: characters come from the patterns of
  rules, what is put around them opens no group, and those of the pattern itself stay in order.
* `Numbered`, `Expands`: how groups are numbered together, and what is found under their numbers
  and names.
* `groups_of_compile`: this holds for the patterns of each grammar that is compiled.
-/

namespace Cascade

namespace Reference

/-- Where a character of a pattern comes from, once the references in it have been replaced. -/
inductive Origin where
  /-- It is written in the pattern of a rule, behind `place` other characters. -/
  | written (rule : Text) (place : Nat)
  /-- It has been put around the pattern of a rule, or in its place. -/
  | added
  deriving DecidableEq

/-- Characters with where they come from. -/
abbrev Marked := List (Char × Origin)

/-- A part of the pattern of a rule behind some others of its characters. -/
def marks (rule : Text) (passed : Text) : Text → Marked
  | [] => []
  | c :: rest => (c, .written rule passed.length) :: marks rule (passed ++ [c]) rest

/-- Characters that have been added. -/
def added (text : Text) : Marked :=
  text.map (·, .added)

/-- What is put in for a reference if the pattern of the rule has been put into it. -/
def framed (name : Text) (inner : Marked) : Marked :=
  added "(?:".toList ++ inner ++ added ('|' :: (Token.fragment name ++ [')']))

/-- A part of the pattern of a rule whose references have been replaced, each character with where
it comes from. In the pattern, `passed` stands before the part, and `within` are the rules whose
patterns are being resolved. -/
inductive Spliced (patterns : Text → Option (Option Text)) :
    (within : List Text) → (rule passed part : Text) → Marked → Prop
  | plain {within : List Text} {rule passed part : Text} (hplain : Plain part) :
      Spliced patterns within rule passed part (marks rule passed part)
  | token {within : List Text} {rule passed before name after : Text} {rest : Marked}
      (hbefore : Plain before) (hname : Token.isRuleName name)
      (htoken : TokensOnly patterns within name)
      (hafter : Spliced patterns within rule (passed ++ (before ++ written name)) after rest) :
      Spliced patterns within rule passed (before ++ written name ++ after)
        (marks rule passed before ++ added (alternatives none name) ++ rest)
  | nested {within : List Text} {rule passed before name after inner : Text}
      {marked rest : Marked} (hbefore : Plain before) (hname : Token.isRuleName name)
      (hinner : patterns name = some (some inner)) (hwithin : name ∉ within)
      (hspliced : Spliced patterns (name :: within) name [] inner marked)
      (hafter : Spliced patterns within rule (passed ++ (before ++ written name)) after rest) :
      Spliced patterns within rule passed (before ++ written name ++ after)
        (marks rule passed before ++ framed name marked ++ rest)

variable {patterns : Text → Option (Option Text)} {within : List Text}
  {pattern passed part before name after rule other text : Text} {result : Except Text Text}
  {c : Char} {i : Nat} {marked a b : Marked}

/-! ## Texts with origins -/

/-- The marks leave the characters of a part as they are. -/
@[simp]
theorem map_fst_marks (rule passed text : Text) : (marks rule passed text).map Prod.fst = text := by
  induction text generalizing passed with
  | nil => rfl
  | cons c rest ih => rw [marks, List.map_cons, ih]

/-- The marks leave added characters as they are. -/
@[simp]
theorem map_fst_added (text : Text) : (added text).map Prod.fst = text := by
  simp [added, Function.comp_def]

/-- Without its marks, what is put in for a reference is what stands there in the pattern. -/
@[simp]
theorem map_fst_framed (name : Text) (inner : Marked) :
    (framed name inner).map Prod.fst = alternatives (some (inner.map Prod.fst)) name := by
  simp [framed, alternatives]

/-- The characters of a resolved pattern have origins. -/
theorem Resolves.exists_spliced (h : Resolves patterns within pattern result) :
    ∀ text, result = .ok text → ∀ rule passed,
      ∃ marked, Spliced patterns within rule passed pattern marked ∧
        marked.map Prod.fst = text := by
  induction h with
  | plain hplain =>
    rintro text ⟨⟩ rule passed
    exact ⟨_, .plain hplain, map_fst_marks ..⟩
  | unknown => simp
  | @token within before name after result hbefore hname htoken _ ih =>
    intro text htext rule passed
    obtain ⟨rest, hrest, rfl⟩ := map_eq_ok.1 htext
    obtain ⟨marked, hmarked, rfl⟩ := ih rest hrest rule (passed ++ (before ++ written name))
    exact ⟨_, .token hbefore hname htoken hmarked, by simp⟩
  | fails => simp
  | @nested within before name after inner literal result hbefore hname hinner hwithin _ _ ihinner
      ihafter =>
    intro text htext rule passed
    obtain ⟨rest, hrest, rfl⟩ := map_eq_ok.1 htext
    -- inside of the reference, places are those of the other pattern
    obtain ⟨marked, hmarked, rfl⟩ := ihinner literal rfl name []
    obtain ⟨others, hothers, rfl⟩ := ihafter rest hrest rule (passed ++ (before ++ written name))
    exact ⟨_, .nested hbefore hname hinner hwithin hmarked hothers, by simp⟩

/-! ## Where characters come from -/

/-- A character that has been added is written in no rule. -/
theorem not_mem_added : (c, .written rule i) ∉ added text := by
  simp [added]

/-- What is put around the pattern of a rule comes from no rule. -/
theorem mem_framed_iff : (c, .written rule i) ∈ framed name marked ↔
    (c, .written rule i) ∈ marked := by
  simp [framed, not_mem_added]

/-- Each character of a part stands in the pattern where its origin says. -/
theorem of_mem_marks (h : (c, .written other i) ∈ marks rule passed part) :
    other = rule ∧ passed.length ≤ i ∧ i < (passed ++ part).length ∧
      (passed ++ part)[i]? = some c := by
  induction part generalizing passed with
  | nil => contradiction
  | cons d rest ih =>
    rw [marks, List.mem_cons] at h
    rcases h with heq | h
    · obtain ⟨rfl, rfl, rfl⟩ : c = d ∧ other = rule ∧ i = passed.length := by simpa using heq
      simp
    · obtain ⟨hrule, hle, hlt, hchar⟩ := ih h
      rw [List.length_append, List.length_singleton] at hle
      rw [List.append_assoc, List.singleton_append] at hlt hchar
      exact ⟨hrule, by omega, hlt, hchar⟩

/-- A character is written in the part itself, or in the pattern of a rule whose pattern has been
put in. -/
theorem Spliced.written (h : Spliced patterns within rule passed part marked)
    (hmem : (c, .written other i) ∈ marked) :
    other = rule ∧ passed.length ≤ i ∧ (passed ++ part)[i]? = some c ∨
      other ∉ within ∧ ∃ raw, patterns other = some (some raw) ∧ raw[i]? = some c := by
  -- what is written in front of the first reference stands in all of the part
  have hfront {rule passed before name after : Text}
      (hmem : (c, .written other i) ∈ marks rule passed before) :
      other = rule ∧ passed.length ≤ i ∧
        (passed ++ (before ++ Reference.written name ++ after))[i]? = some c := by
    obtain ⟨hrule, hle, hlt, hchar⟩ := of_mem_marks hmem
    refine ⟨hrule, hle, ?_⟩
    rw [List.append_assoc before, ← List.append_assoc passed, List.getElem?_append_left hlt, hchar]
  -- and what is written behind it as well
  have hbehind {rule passed before name after : Text} {Q : Prop}
      (h : other = rule ∧ (passed ++ (before ++ Reference.written name)).length ≤ i ∧
        (passed ++ (before ++ Reference.written name) ++ after)[i]? = some c ∨ Q) :
      other = rule ∧ passed.length ≤ i ∧
        (passed ++ (before ++ Reference.written name ++ after))[i]? = some c ∨ Q := by
    refine h.imp_left fun ⟨hrule, hle, hchar⟩ => ⟨hrule, ?_, ?_⟩
    · rw [List.length_append] at hle
      omega
    · rwa [List.append_assoc] at hchar
  induction h with
  | plain =>
    obtain ⟨hrule, hle, -, hchar⟩ := of_mem_marks hmem
    exact .inl ⟨hrule, hle, hchar⟩
  | token _ _ _ _ ih =>
    simp only [List.mem_append, not_mem_added, or_false] at hmem
    rcases hmem with hmem | hmem
    · exact .inl (hfront hmem)
    · exact hbehind (ih hmem)
  | nested _ _ hinner hwithin _ _ ihinner ihafter =>
    simp only [List.mem_append, mem_framed_iff] at hmem
    rcases hmem with (hmem | hmem) | hmem
    · exact .inl (hfront hmem)
    · -- the pattern that has been put in is that of a rule that was not being resolved
      rcases ihinner hmem with ⟨rfl, -, hchar⟩ | ⟨hother, hraw⟩
      · exact .inr ⟨hwithin, _, hinner, hchar⟩
      · exact .inr ⟨fun hin => hother (List.mem_cons_of_mem _ hin), hraw⟩
    · exact hbehind (ihafter hmem)

/-! ## What is put around patterns -/

/-- The parentheses that have been added open no capturing groups. -/
def Guarded (marked : Marked) : Prop :=
  ∀ rest, ('(', .added) :: rest <:+ marked → ∃ more, rest.map Prod.fst = '?' :: ':' :: more

/-- Where no parenthesis has been added, each one that has been added opens no group. -/
theorem Guarded.of_not_mem (h : ('(', .added) ∉ marked) : Guarded marked :=
  fun _ hsuffix => absurd (hsuffix.subset List.mem_cons_self) h

/-- One part may stand behind another if added parentheses open no group in either. -/
theorem Guarded.append (ha : Guarded a) (hb : Guarded b) : Guarded (a ++ b) := by
  rintro rest ⟨before, hbefore⟩
  rcases List.append_eq_append_iff.1 hbefore with ⟨begun, rfl, hrest⟩ | ⟨_, rfl, rfl⟩
  · cases begun with
    | nil => exact hb rest (hrest ▸ List.suffix_refl _)
    | cons e begun =>
      obtain ⟨rfl, rfl⟩ := List.cons.inj hrest
      obtain ⟨more, hmore⟩ := ha begun (List.suffix_append ..)
      exact ⟨more ++ b.map Prod.fst, by simp [hmore]⟩
  · exact hb rest (List.suffix_append ..)

/-- The group around what is put in for a reference does not capture. -/
theorem Guarded.group (h : Guarded marked) : Guarded (added "(?:".toList ++ marked) := by
  have hgroup : added "(?:".toList ++ marked =
      ('(', .added) :: ('?', .added) :: (':', .added) :: marked := rfl
  intro rest hsuffix
  rw [hgroup, List.suffix_cons_iff, List.suffix_cons_iff, List.suffix_cons_iff] at hsuffix
  rcases hsuffix with heq | heq | heq | hsuffix
  · obtain ⟨-, rfl⟩ := List.cons.inj heq
    exact ⟨marked.map Prod.fst, rfl⟩
  · simp at heq
  · simp at heq
  · exact h rest hsuffix

/-- Characters may be added if there is no parenthesis among them. -/
theorem guarded_added (h : '(' ∉ text) : Guarded (added text) :=
  .of_not_mem (by simpa [added] using h)

/-- In a part that is written in a rule, no parenthesis has been added. -/
theorem guarded_marks : Guarded (marks rule passed part) := by
  refine .of_not_mem ?_
  induction part generalizing passed with
  | nil => simp [marks]
  | cons c rest ih => simp [marks, ih]

/-- The parentheses that are added when references are replaced open no group. -/
theorem Spliced.guarded (h : Spliced patterns within rule passed part marked) : Guarded marked := by
  have hending (name : Text) : '(' ∉ Token.fragment name ++ [')'] := by
    simp [not_mem_fragment (show '('.toNat < 0x80 by decide) (by decide) name]
  induction h with
  | plain => exact guarded_marks
  | @token within rule passed before name after rest _ _ _ _ ih =>
    have himage : added (alternatives none name) =
        added "(?:".toList ++ added (Token.fragment name ++ [')']) := by
      simp [alternatives, added]
    rw [himage]
    exact (guarded_marks.append (guarded_added (hending name)).group).append ih
  | @nested within rule passed before name after inner marked rest _ _ _ _ _ _ ihinner ihafter =>
    have himage : framed name marked =
        added "(?:".toList ++ (marked ++ added ('|' :: (Token.fragment name ++ [')']))) := by
      simp [framed]
    have hbar : '(' ∉ '|' :: (Token.fragment name ++ [')']) := by
      simpa using hending name
    rw [himage]
    exact (guarded_marks.append (ihinner.append (guarded_added hbar)).group).append ihafter

/-! ## Characters in order -/

/-- The characters of a rule come in the order in which its pattern has them. -/
def InOrder (rule : Text) (marked : Marked) : Prop :=
  marked.Pairwise fun e e' => ∀ i j, e.2 = .written rule i → e'.2 = .written rule j → i < j

/-- What has no character of a rule has them in order. -/
theorem InOrder.of_not_mem (h : ∀ c i, (c, .written rule i) ∉ marked) : InOrder rule marked := by
  refine List.pairwise_of_forall_mem_list fun e he _ _ i _ hi _ => ?_
  exact absurd (hi ▸ he : (e.1, Origin.written rule i) ∈ marked) (h e.1 i)

/-- One part may stand behind another if the characters of the rule do. -/
theorem InOrder.append (ha : InOrder rule a) (hb : InOrder rule b)
    (hcross : ∀ c i d j, (c, .written rule i) ∈ a → (d, .written rule j) ∈ b → i < j) :
    InOrder rule (a ++ b) := by
  refine List.pairwise_append.2 ⟨ha, hb, ?_⟩
  rintro ⟨c, _⟩ hc ⟨d, _⟩ hd i j rfl rfl
  exact hcross c i d j hc hd

/-- The characters of a part stand in the order in which they are written. -/
theorem inOrder_marks : InOrder rule (marks rule passed part) := by
  induction part generalizing passed with
  | nil => exact .nil
  | cons c rest ih =>
    refine List.pairwise_cons.2 ⟨?_, ih⟩
    rintro ⟨d, _⟩ hd i j hi rfl
    obtain ⟨-, hle, -, -⟩ := of_mem_marks hd
    obtain rfl : passed.length = i := by simpa using hi
    rw [List.length_append, List.length_singleton] at hle
    omega

/-- Something without characters of a rule may stand between two parts of its pattern. -/
theorem InOrder.insert {mid rest : Marked} (hmid : ∀ c i, (c, .written rule i) ∉ mid)
    (hrest : InOrder rule rest)
    (hle : ∀ c i, (c, .written rule i) ∈ rest → (passed ++ before).length ≤ i) :
    InOrder rule (marks rule passed before ++ mid ++ rest) := by
  refine .append (inOrder_marks.append (.of_not_mem hmid) ?_) hrest ?_
  · exact fun _ _ d j _ hd => absurd hd (hmid d j)
  · intro c i d j hc hd
    have hfront : (c, Origin.written rule i) ∈ marks rule passed before :=
      (List.mem_append.1 hc).resolve_right (hmid c i)
    exact (of_mem_marks hfront).2.2.1.trans_le (hle d j hd)

/-- What comes from the pattern of the rule itself comes from the part, as the rule itself is not
put in for references. -/
theorem Spliced.le_of_mem (h : Spliced patterns within rule passed part marked)
    (hrule : rule ∈ within) (hmem : (c, .written rule i) ∈ marked) : passed.length ≤ i := by
  rcases h.written hmem with ⟨-, hle, -⟩ | ⟨hother, -⟩
  · exact hle
  · exact absurd hrule hother

/-- The characters of a part stay in order. -/
theorem Spliced.inOrder (h : Spliced patterns within rule passed part marked)
    (hrule : rule ∈ within) : InOrder rule marked := by
  have hbefore (passed before name : Text) :
      (passed ++ before).length ≤ (passed ++ (before ++ Reference.written name)).length := by
    simp
  induction h with
  | plain => exact inOrder_marks
  | token _ _ _ hafter ih =>
    exact .insert (fun _ _ => not_mem_added) (ih hrule) fun _ _ hmem =>
      (hbefore ..).trans (hafter.le_of_mem hrule hmem)
  | nested _ _ _ hwithin hspliced hafter _ ihafter =>
    refine .insert (fun c i hmem => ?_) (ihafter hrule) fun _ _ hmem =>
      (hbefore ..).trans (hafter.le_of_mem hrule hmem)
    rcases hspliced.written (mem_framed_iff.1 hmem) with ⟨rfl, -⟩ | ⟨hother, -⟩
    · exact hwithin hrule
    · exact hother (List.mem_cons_of_mem _ hrule)

end Reference

namespace Grammar

open Cascade.Pattern (Parenthesis Grouping Found shown)
open Cascade.Replacement (Segment expand? groupText)
open Reference (Resolves Spliced Origin Marked InOrder Guarded)

variable {compiler : PatternCompiler} {grouping : Grouping} {ds : List Definition}
  {root wiring raw rule key : Text} {d : Definition} {g : Grammar} {marked : Marked}
  {parentheses : List Parenthesis} {i number : Nat}

/-! ## How groups are numbered -/

/-- Whether a group opens at a parenthesis that is written in the pattern of a rule. -/
def isOwn (rule : Text) (marked : Marked) (p : Parenthesis) : Bool :=
  match marked[p.place]? with
  | some (_, .written other _) => other = rule
  | _ => false

/-- The numbers of the groups that are written in the pattern of a rule, in order. -/
def ownNumbers (rule : Text) (marked : Marked) (parentheses : List Parenthesis) : List Nat :=
  ((parentheses.zipIdx 1).filter fun entry => isOwn rule marked entry.1).map Prod.snd

/-- The numbers of the groups that have been put in for references, in order. -/
def otherNumbers (rule : Text) (marked : Marked) (parentheses : List Parenthesis) : List Nat :=
  ((parentheses.zipIdx 1).filter fun entry => !isOwn rule marked entry.1).map Prod.snd

/-- The groups that are written in the pattern of a rule and those that have been put in for
references are numbered together. -/
structure Numbered (patterns : Text → Option (Option Text)) (rule : Text) (marked : Marked)
    (parentheses : List Parenthesis) : Prop where
  /-- The numbers follow the places of the parentheses. -/
  order : parentheses.Pairwise fun p p' => p.place < p'.place
  /-- Each parenthesis is written in the pattern of the rule itself or of one that has been put
  in. -/
  parenthesis : ∀ p ∈ parentheses, ∃ other i raw, marked[p.place]? = some ('(', .written other i) ∧
    patterns other = some (some raw) ∧ raw[i]? = some '('
  /-- The groups that are written in the pattern of the rule come in the order in which they are
  written. -/
  own_order : parentheses.Pairwise fun p p' => ∀ c i c' i',
    marked[p.place]? = some (c, .written rule i) →
      marked[p'.place]? = some (c', .written rule i') → i < i'
  /-- Each number belongs to a group that is written in the pattern or to one that has been put
  in. -/
  either : (ownNumbers rule marked parentheses ++ otherNumbers rule marked parentheses).Perm
    (List.range' 1 parentheses.length)
  /-- A group that is written in the pattern has as many numbers before its own as there are groups
  of both kinds before it. -/
  own_eq : ∀ i number, (ownNumbers rule marked parentheses)[i]? = some number →
    number = i + 1 + (otherNumbers rule marked parentheses).countP (· < number)

/-- Of things that are numbered, the `i`th one that is selected comes behind `i` that are selected
and behind those that are not. -/
theorem eq_add_countP {α : Type} (selected : α → Bool) (l : List α) (first : Nat)
    (h : (((l.zipIdx first).filter (selected ·.1)).map Prod.snd)[i]? = some number) :
    number = i + first +
      (((l.zipIdx first).filter (! selected ·.1)).map Prod.snd).countP (· < number) := by
  induction l generalizing first i with
  | nil => simp at h
  | cons a l ih =>
    by_cases ha : selected a
    · cases i with
      | zero =>
        obtain rfl : first = number := by simpa [ha] using h
        -- all that come behind have a greater number
        have hnone : (((l.zipIdx (first + 1)).filter (! selected ·.1)).map Prod.snd).countP
            (· < first) = 0 := by
          refine List.countP_eq_zero.2 fun later hlater => ?_
          obtain ⟨entry, hentry, rfl⟩ := List.mem_map.1 hlater
          have hle := List.le_snd_of_mem_zipIdx (List.mem_filter.1 hentry).1
          simp only [decide_eq_true_eq]
          omega
        simpa [ha] using hnone
      | succ i =>
        have hrest := ih (first + 1) (by simpa [ha] using h)
        simp only [List.zipIdx_cons, List.filter_cons, ha, Bool.not_true, Bool.false_eq_true,
          if_false]
        omega
    · have hrest := ih (first + 1) (by simpa [ha] using h)
      -- the first one is not selected, and is counted on the other side
      have hlt : first < number := by omega
      simp only [List.zipIdx_cons, List.filter_cons, ha, Bool.not_false, if_true, List.map_cons,
        List.countP_cons, hlt, decide_true]
      omega

/-- Each group is either written in a pattern or has been put in. -/
theorem numbers_perm (rule : Text) (marked : Marked) (parentheses : List Parenthesis) :
    (ownNumbers rule marked parentheses ++ otherNumbers rule marked parentheses).Perm
      (List.range' 1 parentheses.length) := by
  rw [ownNumbers, otherNumbers, ← List.map_append]
  have hall := (List.filter_append_perm
    (fun entry : Parenthesis × Nat => isOwn rule marked entry.1)
    (parentheses.zipIdx 1)).map Prod.snd
  rwa [List.zipIdx_map_snd] at hall

/-- A parenthesis that opens a group comes from the pattern of a rule. -/
theorem exists_written_of_drop {patterns : Text → Option (Option Text)} {rest : Text} {place : Nat}
    (h : Spliced patterns [rule] rule [] raw marked) (hraw : patterns rule = some (some raw))
    (hdrop : (marked.map Prod.fst).drop place = '(' :: rest)
    (hcaptures : ∀ more, rest ≠ '?' :: ':' :: more) :
    ∃ other i inner, marked[place]? = some ('(', .written other i) ∧
      patterns other = some (some inner) ∧ inner[i]? = some '(' := by
  rw [← List.map_drop] at hdrop
  obtain ⟨⟨c, origin⟩, behind, hbehind, rfl, rfl⟩ := List.map_eq_cons_iff.1 hdrop
  have hplace : marked[place]? = some ('(', origin) := by
    rw [← List.head?_drop, hbehind]
    rfl
  cases origin with
  | added =>
    obtain ⟨more, hmore⟩ := h.guarded behind (hbehind ▸ List.drop_suffix ..)
    exact absurd hmore (hcaptures more)
  | written other i =>
    have hmem : ('(', Origin.written other i) ∈ marked := List.mem_of_getElem? hplace
    rcases h.written hmem with ⟨rfl, -, hchar⟩ | ⟨-, inner, hinner, hchar⟩
    · exact ⟨other, i, raw, hplace, hraw, hchar⟩
    · exact ⟨other, i, inner, hplace, hinner, hchar⟩

/-- The groups of a pattern whose references have been replaced are numbered together, those that
are written in it among those that are not. -/
theorem numbered_of_spliced {patterns : Text → Option (Option Text)}
    (h : Spliced patterns [rule] rule [] raw marked) (hraw : patterns rule = some (some raw))
    (horder : parentheses.Pairwise fun p p' => p.place < p'.place)
    (hopens : ∀ p ∈ parentheses, ∃ rest, (marked.map Prod.fst).drop p.place = '(' :: rest ∧
      ∀ more, rest ≠ '?' :: ':' :: more) :
    Numbered patterns rule marked parentheses where
  order := horder
  parenthesis p hp := by
    obtain ⟨rest, hdrop, hcaptures⟩ := hopens p hp
    exact exists_written_of_drop h hraw hdrop hcaptures
  own_order := by
    refine horder.imp fun {p p'} hlt c i c' i' hc hc' => ?_
    obtain ⟨hp, hget⟩ := List.getElem?_eq_some_iff.1 hc
    obtain ⟨hp', hget'⟩ := List.getElem?_eq_some_iff.1 hc'
    have hinOrder := h.inOrder (List.mem_singleton_self rule)
    exact List.pairwise_iff_getElem.1 hinOrder p.place p'.place hp hp' hlt i i' (by rw [hget])
      (by rw [hget'])
  either := numbers_perm rule marked parentheses
  own_eq _ _ hi := eq_add_countP (isOwn rule marked) parentheses 1 hi

/-! ## What is found -/

/-- Templates put a text in for the number of a group, behind a dollar sign or in braces. -/
def Inserts (captures : Captures) (number : Nat) (text : Text) : Prop :=
  (∀ key, Text.numeral? key = some number →
    expand? (groupText captures) (Segment.key key).write = some text) ∧
  ∀ d : Char, d.isDigit → Text.numeral? [d] = some number →
    expand? (groupText captures) (Segment.digit d).write = some text

/-- A template of one segment is expanded to the value of the segment. -/
theorem expand?_write {lookup : Text → Text} {s : Segment} (h : Replacement.IsTemplate [s]) :
    expand? lookup s.write = some (s.value lookup) := by
  simpa [Replacement.written, Replacement.values] using Replacement.expand?_written h

/-- The digits of a number have no brace among them. -/
theorem brace_not_mem (h : Text.numeral? key = some number) : '\x7d' ∉ key := by
  have hbrace {digits : Text} (h : Text.IsDigits digits) : '\x7d' ∉ digits :=
    fun hmem => absurd (h.2 _ hmem) (by decide)
  cases Text.numeral?_eq_some_iff.1 h with
  | plain hdigits => exact hbrace hdigits
  | signed hdigits => simpa using hbrace hdigits

/-- Templates put in what is found under a number, and nothing if that is none. -/
theorem inserts_get? (captures : Captures) (number : Nat) :
    Inserts captures number ((captures.get? number).getD []) := by
  have hgroup {key : Text} (hkey : Text.numeral? key = some number) :
      groupText captures key = (captures.get? number).getD [] := by
    rw [groupText, hkey]
  refine ⟨fun key hkey => ?_, fun d hd hkey => ?_⟩
  · rw [expand?_write (.key (brace_not_mem hkey) .nil), Segment.value, hgroup hkey]
  · rw [expand?_write (.digit hd .nil), Segment.value, hgroup hkey]

/-- What is found in a match, by number, by name and in templates. -/
structure Reported (parentheses : List Parenthesis) (captured : Nat → Option Group) (m : Match) :
    Prop extends Found parentheses captured m where
  /-- Templates put in what the group with a number has captured. -/
  inserts : ∀ i p, parentheses[i]? = some p →
    Inserts m.captures (i + 1) ((shown (captured p.place)).getD [])

/-- What is found by number is what templates put in. -/
theorem reported_of_found {captured : Nat → Option Group} {m : Match}
    (h : Found parentheses captured m) : Reported parentheses captured m where
  toFound := h
  inserts i p hp := h.get?_eq i p hp ▸ inserts_get? m.captures (i + 1)

/-- Let an engine number groups by opening parenthesis. The pattern of a rule is compiled from the
written one in which each reference has been replaced. Which of its parentheses open groups is for
the engine to say, but each of them comes from the written pattern of the rule or from that of a
rule that has been put in, and groups of both kinds are numbered together. What they capture in a
match is found under these numbers, in templates as well, and under a name from either kind of
group. -/
theorem groups_of_compile (hengine : compiler.NumbersByParenthesis grouping)
    (h : compile compiler ds root wiring = .ok g) (hd : d ∈ ds) (hraw : d.pattern? = some raw) :
    ∃ r p marked, g.rule? d.name = some r ∧ r.pattern? = some p ∧
      Spliced (patternNamed ds) [d.name] d.name [] raw marked ∧
      Pattern.compile compiler (marked.map Prod.fst) = .ok p ∧
      Numbered (patternNamed ds) d.name marked (grouping.parentheses (marked.map Prod.fst)) ∧
      ∀ text, List.Forall₂ (Reported (grouping.parentheses (marked.map Prod.fst)))
        (grouping.captured (marked.map Prod.fst) text) (p.scan text) := by
  obtain ⟨r, hr, hreads⟩ := exists_rule_of_compile h hd
  generalize hpattern : r.pattern? = pattern? at hreads
  cases hreads with
  | container hnone => simp [hraw] at hnone
  | @pattern raw' source p hraw' hresolves hcompile =>
    obtain rfl : raw = raw' := Option.some.inj (hraw.symm.trans hraw')
    obtain ⟨marked, hmarked, rfl⟩ := hresolves.exists_spliced source rfl d.name []
    have hown : patternNamed ds d.name = some (some raw) :=
      patternNamed_eq_some (outcome_of_compile h).1.names.distinct hd hraw
    obtain ⟨c, hc, -⟩ := Pattern.compile_eq_ok_iff.1 hcompile
    refine ⟨r, p, marked, hr, hpattern, hmarked, hcompile, ?_, fun text => ?_⟩
    · exact numbered_of_spliced hmarked hown (hengine.order hc) (hengine.parenthesis hc)
    · exact (hengine.found hcompile text).imp fun _ _ => reported_of_found

/-- Three rules, the last of which refers to the second one. Both have a group with the same
name. -/
def pairs : List Definition :=
  [⟨"Root".toList, none, .identity⟩, ⟨['q'], some "(?<n>a)".toList, .identity⟩,
    ⟨['r'], some "<<q>>(?<n>b)".toList, .identity⟩]

theorem mem_pairs :
    (⟨['r'], some "<<q>>(?<n>b)".toList, .identity⟩ : Definition) ∈ pairs := by
  simp [pairs]

/-- Regular expressions number groups by opening parenthesis, so what has been said holds for the
last of the three rules. -/
theorem groups_of_compile_pairs : Regex.compiler.NumbersByParenthesis Regex.grouping ∧
    ∃ g r p marked, compile Regex.compiler pairs "Root".toList "Root:\n  - r".toList = .ok g ∧
      g.rule? ['r'] = some r ∧ r.pattern? = some p ∧
      Spliced (patternNamed pairs) [['r']] ['r'] [] "<<q>>(?<n>b)".toList marked ∧
      Numbered (patternNamed pairs) ['r'] marked
        (Regex.grouping.parentheses (marked.map Prod.fst)) ∧
      ∀ text, List.Forall₂ (Reported (Regex.grouping.parentheses (marked.map Prod.fst)))
        (Regex.grouping.captured (marked.map Prod.fst) text) (p.scan text) := by
  have hengine : Regex.compiler.NumbersByParenthesis Regex.grouping :=
    Regex.numbersByParenthesis_compiler
  obtain ⟨g, hcompile⟩ := exists_eq_ok_of_isOk
    (x := compile Regex.compiler pairs "Root".toList "Root:\n  - r".toList) (by decide +kernel)
  obtain ⟨r, p, marked, hr, hpattern, hmarked, -, hnumbered, hreported⟩ :=
    groups_of_compile hengine hcompile mem_pairs rfl
  exact ⟨hengine, g, r, p, marked, hcompile, hr, hpattern, hmarked, hnumbered, hreported⟩

/-- The pattern of the last rule, its reference replaced. -/
def markedPair : Marked :=
  Reference.framed ['q'] (Reference.marks ['q'] [] "(?<n>a)".toList) ++
    Reference.marks ['r'] "<<q>>".toList "(?<n>b)".toList

theorem plain_first : Reference.Plain "(?<n>a)".toList :=
  Reference.plain_of_segments (by decide)

theorem plain_second : Reference.Plain "(?<n>b)".toList :=
  Reference.plain_of_segments (by decide)

theorem isRuleName_q : Token.isRuleName ['q'] := by decide

theorem patternNamed_q : patternNamed pairs ['q'] = some (some "(?<n>a)".toList) := rfl

theorem resolves_pair : Resolves (patternNamed pairs) [['r']] "<<q>>(?<n>b)".toList
    (.ok (markedPair.map Prod.fst)) := by
  have hnested := Resolves.nested Reference.plain_nil isRuleName_q patternNamed_q
    (show ['q'] ∉ [['r']] by decide) (.plain plain_first) (.plain plain_second)
  exact hnested

/-- The reference in the last of the three rules is replaced by the pattern of the second one. -/
theorem spliced_pair :
    Spliced (patternNamed pairs) [['r']] ['r'] [] "<<q>>(?<n>b)".toList markedPair :=
  .nested Reference.plain_nil isRuleName_q patternNamed_q (by decide) (.plain plain_first)
    (.plain plain_second)

/-- The groups of a pattern do not keep the numbers that they have among themselves, nor their names
to themselves: the one group of `<<q>>(?<n>b)` has the second number, and under its name the text of
the group in the pattern of the other rule is found. -/
theorem exists_renumbered : ∃ g r p m,
    compile Regex.compiler pairs "Root".toList "Root:\n  - r".toList = .ok g ∧
      g.rule? ['r'] = some r ∧ r.pattern? = some p ∧
      Spliced (patternNamed pairs) [['r']] ['r'] [] "<<q>>(?<n>b)".toList markedPair ∧
      p.source = markedPair.map Prod.fst ∧
      ownNumbers ['r'] markedPair (Regex.grouping.parentheses p.source) = [2] ∧
      m ∈ p.scan ['a', 'b'] ∧ m.captures.get? 1 = some ['a'] ∧
      m.captures.get? 2 = some ['b'] ∧ m.captures.named? ['n'] = some ['a'] := by
  obtain ⟨g, hcompile⟩ := exists_eq_ok_of_isOk
    (x := compile Regex.compiler pairs "Root".toList "Root:\n  - r".toList) (by decide +kernel)
  obtain ⟨r, hr, hreads⟩ := exists_rule_of_compile hcompile mem_pairs
  generalize hpattern : r.pattern? = pattern? at hreads
  cases hreads with
  | container hnone => simp at hnone
  | @pattern raw source p hraw hresolves hread =>
    obtain rfl : "<<q>>(?<n>b)".toList = raw := Option.some.inj hraw
    obtain rfl : source = markedPair.map Prod.fst := Except.ok.inj (hresolves.unique resolves_pair)
    have hfound : (Pattern.compile Regex.compiler (markedPair.map Prod.fst)).toOption.map (fun p =>
        (ownNumbers ['r'] markedPair (Regex.grouping.parentheses (markedPair.map Prod.fst)),
          (p.scan ['a', 'b']).map fun m =>
            [m.captures.get? 1, m.captures.get? 2, m.captures.named? ['n']])) =
        some ([2], [[some ['a'], some ['b'], some ['a']]]) := by decide +kernel
    simp only [hread, Except.toOption, Option.map_some, Option.some.injEq, Prod.mk.injEq] at hfound
    obtain ⟨hown, hscan⟩ := hfound
    obtain ⟨m, hm, hcaptures⟩ := List.mem_map.1
      (hscan ▸ List.mem_singleton_self [some ['a'], some ['b'], some ['a']])
    obtain ⟨hfirst, hsecond, hnamed⟩ : m.captures.get? 1 = some ['a'] ∧
        m.captures.get? 2 = some ['b'] ∧ m.captures.named? ['n'] = some ['a'] := by
      simpa using hcaptures
    have hsource : p.source = markedPair.map Prod.fst := source_of_compile hread
    exact ⟨g, r, p, m, hcompile, hr, hpattern, spliced_pair, hsource, hsource ▸ hown, hm, hfirst,
      hsecond, hnamed⟩

end Grammar

end Cascade
