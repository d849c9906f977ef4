import Cascade.Proofs.Pattern.Groups
import Cascade.Proofs.Regex.Match
import Cascade.Proofs.Regex.Reading
import Mathlib.Data.List.Induction

/-!
# How groups are numbered

A reader that goes on in a pattern opens groups at parentheses that it passes over, one behind the
other. So the groups of a pattern are numbered by where their parentheses stand, whether they have
names or not, and the table of names has the numbers of all groups with a name in that order.

* `Opens`, `Advances`: the groups that are opened in a part of a pattern.
* `opens_of_parse`: a pattern opens its groups from its start on.
* `drop_place`, `pairwise_place`: where the parentheses of groups stand in a pattern.
* `lookup_nameTable`: the groups with a name.
* `numbersByParenthesis_compiler`: regular expressions number groups by parenthesis.
-/

namespace Cascade.Regex

namespace Parser

open Std.Do

set_option mvcgen.warning false

variable {p p' p'' p₀ : Progress} {opened opened' : List Opening} {o : Options}

/-! ## Groups that are opened -/

/-- Some of a pattern has been read, and groups have been opened in it: each at a parenthesis that
has been passed over, and each behind the one before it. -/
structure Opens (p p' : Progress) (opened : List Opening) : Prop where
  suffix : p'.rest <:+ p.rest
  openings : p'.openings = p.openings ++ opened
  parenthesis : ∀ o ∈ opened, ∃ text, '(' :: text <:+ p.rest ∧ text.length = o.behind ∧
    ∀ more, text ≠ '?' :: ':' :: more
  passed : ∀ o ∈ opened, p'.rest.length ≤ o.behind
  order : opened.Pairwise fun o o' => o'.behind < o.behind

/-- The groups that two readers open one after the other are opened by both together. -/
theorem Opens.trans (h : Opens p p' opened) (h' : Opens p' p'' opened') :
    Opens p p'' (opened ++ opened') := by
  refine ⟨h'.suffix.trans h.suffix, ?_, fun o ho => ?_, fun o ho => ?_, ?_⟩
  · rw [h'.openings, h.openings, List.append_assoc]
  · rcases List.mem_append.1 ho with ho | ho
    · exact h.parenthesis o ho
    · obtain ⟨text, htext, hbehind⟩ := h'.parenthesis o ho
      exact ⟨text, htext.trans h.suffix, hbehind⟩
  · rcases List.mem_append.1 ho with ho | ho
    · exact Nat.le_trans h'.suffix.length_le (h.passed o ho)
    · exact h'.passed o ho
  · refine List.pairwise_append.2 ⟨h.order, h'.order, fun o ho o' ho' => ?_⟩
    -- the parenthesis of the later group is still to be read when the earlier one has been passed
    obtain ⟨text, htext, hbehind, -⟩ := h'.parenthesis o' ho'
    have hlength := htext.length_le
    have hpassed := h.passed o ho
    rw [List.length_cons] at hlength
    omega

/-- Some of a pattern has been read, and groups have been opened in it. -/
def Advances (p p' : Progress) : Prop :=
  ∃ opened, Opens p p' opened

/-- A reader that opens no groups goes on in the pattern. -/
@[grind →]
theorem Passes.advances (h : Passes p p') : Advances p p' :=
  ⟨[], ⟨h.suffix, by simp [h.openings], by simp, by simp, .nil⟩⟩

/-- A reader that does nothing opens no groups. -/
@[grind .]
theorem Advances.refl (p : Progress) : Advances p p :=
  (Passes.refl p).advances

/-- Two readers one after the other go on in the pattern if each of them does. -/
@[grind →]
theorem Advances.trans (h : Advances p p') (h' : Advances p' p'') : Advances p p'' := by
  obtain ⟨opened, h⟩ := h
  obtain ⟨opened', h'⟩ := h'
  exact ⟨opened ++ opened', h.trans h'⟩

/-- More may have been passed over before. -/
theorem Advances.of_suffix (h : Advances p' p'') (hrest : p'.rest <:+ p.rest)
    (hopenings : p'.openings = p.openings) : Advances p p'' :=
  Advances.trans (Passes.advances ⟨hrest, hopenings⟩) h

/-- A group is opened once the signs behind its parenthesis have been passed over. -/
theorem Passes.advances_opening {name? : Option Text} (h : Passes p p')
    (hcaptures : ∀ more, p.rest ≠ '?' :: ':' :: more)
    (hbody : Advances { p' with openings := p'.openings ++ [⟨p.rest.length, name?⟩] } p'') :
    Advances (Sign.openGroup.unread p) p'' := by
  have hopens : Opens (Sign.openGroup.unread p)
      { p' with openings := p'.openings ++ [⟨p.rest.length, name?⟩] }
      [⟨p.rest.length, name?⟩] := by
    refine ⟨h.suffix.trans (List.suffix_cons ..), ?_, ?_, ?_, ?_⟩
    · simp [h.openings, Sign.unread]
    · simpa using ⟨p.rest, List.suffix_refl _, rfl, hcaptures⟩
    · simpa using h.suffix.length_le
    · exact List.pairwise_singleton ..
  exact Advances.trans ⟨_, hopens⟩ hbody

local grind_pattern Passes.advances_opening =>
  Advances { p' with openings := p'.openings ++ [⟨p.rest.length, name?⟩] } p'',
    Advances (Sign.openGroup.unread p) p''
local grind_pattern List.suffix_cons => a :: l
local grind_pattern Advances.of_suffix => Advances p' p'', Advances p p''

/-- Opening a group notes its name and the place of its parenthesis. -/
@[spec]
theorem openGroup_spec (behind : Nat) (name? : Option Text) :
    Yields p₀ (openGroup behind name?) fun _ p =>
      p = { p₀ with openings := p₀.openings ++ [⟨behind, name?⟩] } := by
  mvcgen [openGroup]
  grind

/-- The progress before the sign that has been read behind a group, if one has. -/
@[grind]
def Group.unread (g : Group) (p : Progress) : Progress :=
  match g with
  | .options _ behind => behind.unread p
  | _ => p

section

variable {inner : Options → Sign → Parser Read}
  (hinner : ∀ {p₀ : Progress} (o : Options) (s : Sign),
    Yields p₀ (inner o s) fun r p => Advances (s.unread p₀) (r.2.unread p))

include hinner

/-- What stands in a group goes on up to the parenthesis that closes it. -/
theorem closed_spec (o : Options) : Yields p₀ (closed inner o) fun _ => Advances p₀ := by
  mvcgen [closed, hinner]
  grind

/-- A capturing group is opened before what stands in it. -/
theorem capture_spec (o : Options) (behind : Nat) (name? : Option Text) :
    Yields p₀ (capture inner o behind name?) fun _ =>
      Advances { p₀ with openings := p₀.openings ++ [⟨behind, name?⟩] } := by
  have hclosed := fun {p₀} => @closed_spec p₀ inner hinner
  mvcgen [capture, hclosed]
  grind

/-- A group goes on behind its opening parenthesis, which may open a capturing one. -/
theorem group_spec (o : Options) :
    Yields p₀ (group inner o) fun g p => Advances (Sign.openGroup.unread p₀) (g.unread p) := by
  have hclosed := fun {p₀} => @closed_spec p₀ inner hinner
  have hcapture := fun {p₀} => @capture_spec p₀ inner hinner
  mvcgen [group, hclosed, hcapture, hinner] <;> grind

/-- A piece goes on from its first sign. -/
theorem piece_spec (depth : Nat) (o : Options) (s : Sign) :
    Yields p₀ (piece inner depth o s) fun r p => Advances (s.unread p₀) (r.2.unread p) := by
  have hgroup := fun {p₀} => @group_spec p₀ inner hinner
  cases s <;> mvcgen [piece, hgroup] <;> grind

/-- The pieces of a branch go on one after the other. -/
theorem branch_spec (depth : Nat) (o : Options) (fuel : Nat) (s : Sign) :
    Yields p₀ (branch inner depth o fuel s) fun r p =>
      Advances (s.unread p₀) (r.2.unread p) := by
  have hpiece := fun {p₀} => @piece_spec p₀ inner hinner
  induction fuel generalizing p₀ s with
  | zero => cases s <;> mvcgen [branch] <;> grind
  | succ fuel ih => cases s <;> mvcgen [branch, hpiece, ih] <;> grind

/-- Alternatives go on one after the other. -/
theorem alternatives_spec (depth : Nat) (o : Options) (fuel : Nat) (s : Sign) :
    Yields p₀ (alternatives inner depth o fuel s) fun r p =>
      Advances (s.unread p₀) (r.2.unread p) := by
  have hbranch := fun {p₀} => @branch_spec p₀ inner hinner
  -- the groups of the alternatives that follow are opened behind those of the first one
  induction fuel generalizing p₀ s with
  | zero => mvcgen [alternatives]
  | succ fuel ih => mvcgen [alternatives, hbranch, ih] <;> grind

end

/-- An expression goes on from its first sign, however deep it is nested. -/
theorem expr_spec (depth : Nat) (o : Options) (s : Sign) :
    Yields p₀ (expr depth o s) fun r p => Advances (s.unread p₀) (r.2.unread p) := by
  -- the alternatives in a group are read with one level less left
  induction depth generalizing p₀ o s with
  | zero => mvcgen [expr]
  | succ depth ih =>
    have halternatives := fun {p₀} => @alternatives_spec p₀ (expr depth) ih
    refine .of_forall fun Q hQ => ?_
    mvcgen [expr, halternatives]
    grind

/-- A whole pattern is gone through from its beginning. -/
theorem pattern_spec : Yields p₀ pattern fun _ => Advances p₀ := by
  mvcgen [pattern, expr_spec]
  grind

/-! ## The table of names -/

/-- The numbers of the groups with a name, in order. -/
def numbersNamed (name : Text) (openings : List Opening) : List Nat :=
  ((openings.zipIdx 1).filter fun (o, _) => o.name? = some name).map Prod.snd

/-- The names in a table are sorted, and none comes twice. -/
def Sorted (table : List (Text × List Nat)) : Prop :=
  table.Pairwise fun entry entry' => compare entry.1 entry'.1 = .lt

variable {table : List (Text × List Nat)} {name name' : Text} {group : Nat}

/-- An entry of the table is the one that has been added to or one that was there. -/
theorem mem_addName {entry : Text × List Nat} (h : entry ∈ addName name group table) :
    entry.1 = name ∨ ∃ entry' ∈ table, entry'.1 = entry.1 := by
  induction table with
  | nil => exact .inl (congrArg Prod.fst (List.mem_singleton.1 h))
  | cons head rest ih =>
    obtain ⟨n, groups⟩ := head
    rw [addName] at h
    split at h
    · rcases List.mem_cons.1 h with rfl | h
      · exact .inl rfl
      · exact .inr ⟨entry, h, rfl⟩
    · rcases List.mem_cons.1 h with rfl | h
      · exact .inr ⟨(n, groups), List.mem_cons_self, rfl⟩
      · exact .inr ⟨entry, List.mem_cons_of_mem _ h, rfl⟩
    · rcases List.mem_cons.1 h with rfl | h
      · exact .inr ⟨(n, groups), List.mem_cons_self, rfl⟩
      · exact (ih h).imp_right fun ⟨entry', hentry', hname⟩ =>
          ⟨entry', List.mem_cons_of_mem _ hentry', hname⟩

/-- The table stays sorted when a group is added for a name. -/
theorem Sorted.addName (h : Sorted table) : Sorted (addName name group table) := by
  induction table with
  | nil => exact List.pairwise_singleton ..
  | cons head rest ih =>
    obtain ⟨n, groups⟩ := head
    obtain ⟨hhead, hrest⟩ := List.pairwise_cons.1 h
    rw [Parser.addName]
    split
    · next hlt =>
      refine List.pairwise_cons.2 ⟨fun entry hentry => ?_, h⟩
      rcases List.mem_cons.1 hentry with rfl | hentry
      · exact hlt
      · exact Std.TransCmp.lt_trans hlt (hhead entry hentry)
    · exact List.pairwise_cons.2 ⟨hhead, hrest⟩
    · next hgt =>
      refine List.pairwise_cons.2 ⟨fun entry hentry => ?_, ih hrest⟩
      rcases mem_addName hentry with hname | ⟨entry', hentry', hname⟩
      · exact hname ▸ Std.OrientedCmp.gt_iff_lt.1 hgt
      · exact hname ▸ hhead entry' hentry'

/-- A name that comes before all names in a table is not in it. -/
theorem lookup_eq_none (h : ∀ entry ∈ table, compare name entry.1 = .lt) :
    table.lookup name = none := by
  refine List.lookup_eq_none_iff.2 fun entry hentry => ?_
  have hlt := h entry hentry
  rw [bne_iff_ne]
  rintro rfl
  simp [Std.compare_self] at hlt

theorem lookup_cons (name name' : Text) (groups : List Nat) (table : List (Text × List Nat)) :
    ((name, groups) :: table).lookup name' =
      if name' = name then some groups else table.lookup name' := by
  by_cases h : name' = name
  · simp [h]
  · simp [List.lookup_cons, h, beq_false_of_ne h]

/-- A group is added last for its name, and all other names stay as they are. -/
theorem lookup_addName (h : Sorted table) : (addName name group table).lookup name' =
    if name' = name then some ((table.lookup name).getD [] ++ [group]) else table.lookup name' := by
  induction table with
  | nil => exact lookup_cons name name' [group] []
  | cons head rest ih =>
    obtain ⟨n, groups⟩ := head
    obtain ⟨hhead, hrest⟩ := List.pairwise_cons.1 h
    rw [addName]
    split
    · next hlt =>
      -- as names are sorted, one that comes before the first of them is none of them
      have hnone : ((n, groups) :: rest).lookup name = none := by
        refine lookup_eq_none fun entry hentry => ?_
        rcases List.mem_cons.1 hentry with rfl | hentry
        · exact hlt
        · exact Std.TransCmp.lt_trans hlt (hhead entry hentry)
      rw [hnone, lookup_cons]
      rfl
    · next heq =>
      obtain rfl := Std.compare_eq_iff_eq.1 heq
      rw [lookup_cons, lookup_cons, lookup_cons, if_pos rfl]
      split <;> rfl
    · next hgt =>
      have hne : name ≠ n := by
        rintro rfl
        simp [Std.compare_self] at hgt
      rw [lookup_cons, ih hrest, lookup_cons, lookup_cons, if_neg hne]
      split
      · next hname => rw [if_neg (hname ▸ hne.symm)]
      · rfl

/-- One more group has the next number. -/
theorem numbersNamed_append (name : Text) (openings : List Opening) (o : Opening) :
    numbersNamed name (openings ++ [o]) = numbersNamed name openings ++
      if o.name? = some name then [openings.length + 1] else [] := by
  by_cases hname : o.name? = some name <;>
    simp [numbersNamed, List.zipIdx_append, hname, Nat.add_comm]

/-- One more group is added to the table if it has a name. -/
theorem nameTable_append (openings : List Opening) (o : Opening) :
    nameTable (openings ++ [o]) = match o.name? with
      | some name => addName name (openings.length + 1) (nameTable openings)
      | none => nameTable openings := by
  cases hname : o.name? <;> simp [nameTable, List.zipIdx_append, hname, Nat.add_comm]

/-- The table of names is sorted. -/
theorem sorted_nameTable (openings : List Opening) : Sorted (nameTable openings) := by
  induction openings using List.reverseRecOn with
  | nil => exact .nil
  | append_singleton openings o ih =>
    rw [nameTable_append]
    split
    · exact ih.addName
    · exact ih

/-- Under a name stand the numbers of all groups with the name. -/
theorem lookup_nameTable (name : Text) (openings : List Opening) :
    ((nameTable openings).lookup name).getD [] = numbersNamed name openings := by
  induction openings using List.reverseRecOn with
  | nil => rfl
  | append_singleton openings o ih =>
    rw [nameTable_append, numbersNamed_append, ← ih]
    cases hname : o.name? with
    | none => simp
    | some other =>
      dsimp only
      rw [lookup_addName (sorted_nameTable openings)]
      by_cases hsame : name = other
      · subst hsame
        simp
      · simp [hsame, Ne.symm hsame]

end Parser

open Cascade.Pattern (Parenthesis Grouping)
open Cascade.Regex.Parser (Opens numbersNamed nameTable)

variable {source text : Text} {r : Regex} {o : Opening}

/-! ## The groups of a pattern -/

/-- What is read keeps the text of the pattern, names the groups that have been opened, and has
opened them from the start of the text on. -/
theorem opens_of_parse (h : parse source = .ok r) : r.source = source ∧
    r.names = nameTable r.openings ∧ ∃ p, Opens ⟨source, []⟩ p r.openings := by
  unfold parse at h
  obtain ⟨⟨e, p⟩, hrun, h⟩ := bind_eq_ok.1 h
  dsimp only at h
  split at h
  · contradiction
  · obtain ⟨plan, -, h⟩ := bind_eq_ok.1 h
    obtain rfl := Except.ok.inj h
    obtain ⟨opened, hopened⟩ : Parser.Advances ⟨source, []⟩ p := Parser.pattern_spec.of_run hrun
    obtain rfl : p.openings = opened := by simpa using hopened.openings
    exact ⟨rfl, rfl, p, hopened⟩

/-- Where the parenthesis of a group stands in its pattern. -/
def place (r : Regex) (o : Opening) : Nat :=
  r.source.length - (o.behind + 1)

/-- Groups are opened by parentheses that may open them. -/
theorem drop_place (h : parse source = .ok r) (ho : o ∈ r.openings) :
    ∃ rest, source.drop (r.place o) = '(' :: rest ∧ ∀ more, rest ≠ '?' :: ':' :: more := by
  obtain ⟨hsource, -, p, hopens⟩ := opens_of_parse h
  obtain ⟨rest, ⟨before, hbefore⟩, hbehind, hcaptures⟩ := hopens.parenthesis o ho
  obtain rfl : before ++ '(' :: rest = source := hbefore
  have hplace : r.place o = before.length := by simp [place, hsource, ← hbehind]
  exact ⟨rest, by rw [hplace, List.drop_left], hcaptures⟩

/-- A group that is opened before another one has its parenthesis before that of the other. -/
theorem pairwise_place (h : parse source = .ok r) :
    (r.openings.map r.place).Pairwise (· < ·) := by
  obtain ⟨hsource, -, p, hopens⟩ := opens_of_parse h
  refine List.pairwise_map.2 (hopens.order.imp_of_mem fun {o o'} ho ho' hlt => ?_)
  obtain ⟨text, htext, hbehind, -⟩ := hopens.parenthesis o ho
  have hlength : ('(' :: text).length ≤ source.length := htext.length_le
  rw [List.length_cons] at hlength
  rw [place, place, hsource]
  omega

/-! ## Regular expressions as an engine -/

/-- The parentheses at which the groups of a regular expression open. -/
def parentheses (r : Regex) : List Parenthesis :=
  r.openings.map fun o => ⟨r.place o, o.name?⟩

/-- What the group that opens at a place has captured in a match. -/
def capturedAt (r : Regex) (m : Match) (place : Nat) : Option Group := do
  let i ← r.parentheses.findIdx? fun p => p.place = place
  m.captures.groups[i + 1]?.join

/-- How the groups of regular expressions are told from one another. -/
def grouping : Grouping where
  parentheses source := ((parse source).toOption.map parentheses).getD []
  captured source text :=
    ((parse source).toOption.map fun r => (r.scan text).map r.capturedAt).getD []

/-- The parentheses that open groups are those that have been noted in reading. -/
theorem parentheses_of_parse (h : parse source = .ok r) :
    grouping.parentheses source = r.parentheses := by
  simp [grouping, h, Except.toOption]

/-- What groups have captured is told by the matches of the regular expression. -/
theorem captured_of_parse (h : parse source = .ok r) :
    grouping.captured source text = (r.scan text).map r.capturedAt := by
  simp [grouping, h, Except.toOption]

/-- The parentheses of groups are told from one another by their places. -/
theorem findIdx?_place (h : parse source = .ok r) {i : Nat} (hi : i < r.parentheses.length) :
    (r.parentheses.findIdx? fun p => p.place = r.parentheses[i].place) = some i := by
  have hlt : r.parentheses.Pairwise fun p p' => p.place < p'.place :=
    List.pairwise_map.2 (List.pairwise_map.1 (pairwise_place h))
  refine List.findIdx?_eq_some_iff_getElem.2 ⟨hi, by simp, fun j hj => ?_⟩
  have hless := List.pairwise_iff_getElem.1 hlt j i (Nat.lt_trans hj hi) hi hj
  simpa using Nat.ne_of_lt hless

/-- The groups of a match are those that open at the parentheses, one by one. -/
theorem groups_eq_of_mem_scan {m : Match} (hparse : parse source = .ok r) (h : m ∈ r.scan text) :
    ∃ whole : Group, m.captures.groups =
      some whole :: r.parentheses.map fun p => r.capturedAt m p.place := by
  obtain ⟨first, last, marks, -, rfl⟩ := exists_matches_of_mem_scan h
  refine ⟨_, congrArg _ (List.ext_getElem (by simp [parentheses, groups]) fun i hi hi' => ?_)⟩
  rw [List.length_map] at hi'
  simp only [List.getElem_map, capturedAt, findIdx?_place hparse hi', Option.bind_eq_bind,
    Option.bind_some, captures, List.getElem?_cons_succ, List.getElem?_map]
  simp at hi
  simp [hi]

/-- Regular expressions number groups by opening parenthesis. -/
theorem numbersByParenthesis_compiler : compiler.NumbersByParenthesis grouping where
  parenthesis source c hc := by
    obtain ⟨r, hparse, rfl⟩ := compile_eq_ok_iff.1 hc
    rw [parentheses_of_parse hparse]
    exact List.forall_mem_map.2 fun o ho => drop_place hparse ho
  order source c hc := by
    obtain ⟨r, hparse, rfl⟩ := compile_eq_ok_iff.1 hc
    rw [parentheses_of_parse hparse]
    exact List.pairwise_map.2 (List.pairwise_map.1 (pairwise_place hparse))
  numbered source c hc text := by
    obtain ⟨r, hparse, rfl⟩ := compile_eq_ok_iff.1 hc
    rw [parentheses_of_parse hparse, captured_of_parse hparse]
    refine List.forall₂_map_left_iff.2 (List.forall₂_map_right_iff.2 ?_)
    exact List.forall₂_same.2 fun m hm => groups_eq_of_mem_scan hparse hm
  named source c hc name := by
    obtain ⟨r, hparse, rfl⟩ := compile_eq_ok_iff.1 hc
    rw [parentheses_of_parse hparse]
    change (r.names.lookup name).getD [] = _
    rw [(opens_of_parse hparse).2.1, Parser.lookup_nameTable]
    simp [Pattern.numbersNamed, numbersNamed, parentheses, List.zipIdx_map, List.filter_map,
      Function.comp_def]

end Cascade.Regex
