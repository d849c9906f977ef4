import Cascade.Grammar.Compile
import Cascade.Proofs.Grammar.Mention
import Mathlib.Logic.Relation

/-!
# Resolving references

References are resolved down to a number of levels that is given in advance. No definition needs
more levels than there are definitions, since those that are being resolved all have different
names. So the recursion can be told without a bound, and always comes to an end.

* `Resolves`: what resolving a pattern comes to, without a bound on the levels.
* `resolves_resolve`, `Resolves.unique`: it comes to one result, the one that is computed.
* `Dangling`: a name without a definition is referred to, or is behind references.
* `Resolves.dangling`, `Resolves.not_dangling`: a pattern is resolved unless a name is dangling.
-/

namespace Cascade.Reference

/-- References to this name match tokens only: the rule has no pattern, or it is being resolved. -/
def TokensOnly (patterns : Text → Option (Option Text)) (within : List Text) (name : Text) : Prop :=
  patterns name = some none ∨ name ∈ within ∧ ∃ inner, patterns name = some (some inner)

/-- What resolving a pattern comes to, `within` being the rules whose patterns are being resolved.
References are replaced from the left. A name without a rule ends everything; the pattern of a rule
that is not being resolved is resolved in turn. -/
inductive Resolves (patterns : Text → Option (Option Text)) :
    List Text → Text → Except Text Text → Prop
  | plain {within : List Text} {pattern : Text} :
      Plain pattern → Resolves patterns within pattern (.ok pattern)
  | unknown {within : List Text} {before name after : Text} :
      Plain before → Token.isRuleName name → patterns name = none →
        Resolves patterns within (before ++ written name ++ after) (.error name)
  | token {within : List Text} {before name after : Text} {result : Except Text Text} :
      Plain before → Token.isRuleName name → TokensOnly patterns within name →
        Resolves patterns within after result →
          Resolves patterns within (before ++ written name ++ after)
            (result.map (before ++ alternatives none name ++ ·))
  | fails {within : List Text} {before name after inner error : Text} :
      Plain before → Token.isRuleName name → patterns name = some (some inner) → name ∉ within →
        Resolves patterns (name :: within) inner (.error error) →
          Resolves patterns within (before ++ written name ++ after) (.error error)
  | nested {within : List Text} {before name after inner literal : Text}
      {result : Except Text Text} :
      Plain before → Token.isRuleName name → patterns name = some (some inner) → name ∉ within →
        Resolves patterns (name :: within) inner (.ok literal) →
          Resolves patterns within after result →
            Resolves patterns within (before ++ written name ++ after)
              (result.map (before ++ alternatives (some literal) name ++ ·))

variable {patterns : Text → Option (Option Text)} {within within' : List Text}
  {pattern before name after inner error : Text} {result result' : Except Text Text} {depth : Nat}

/-! ## One reference at a time -/

/-- What a reference is replaced by when there are `depth` levels left below it. -/
def replacement (patterns : Text → Option (Option Text)) (depth : Nat) (within : List Text)
    (name : Text) : Except Text Text :=
  match patterns name with
  | none => .error name
  | some none => .ok (alternatives none name)
  | some (some inner) =>
    if within.contains name then .ok (alternatives none name)
    else do
      let literal ← resolve patterns depth (name :: within) inner
      return alternatives (some literal) name

theorem resolve_succ (patterns : Text → Option (Option Text)) (depth : Nat) (within : List Text)
    (pattern : Text) : resolve patterns (depth + 1) within pattern =
      substitute (replacement patterns depth within) (segments pattern) := rfl

/-- Characters in front of references stay as they are. -/
theorem substitute_literals (reference : Text → Except Text Text) (before : Text)
    (rest : List Segment) : substitute reference (before.map .literal ++ rest) =
      (substitute reference rest).map (before ++ ·) := by
  induction before with
  | nil => cases hrest : substitute reference rest <;> simp [hrest, Except.map]
  | cons c before ih =>
    rw [List.map_cons, List.cons_append, substitute, ih]
    cases substitute reference rest <;> rfl

/-- A pattern without references resolves to itself. -/
theorem resolve_plain (h : Plain pattern) :
    resolve patterns (depth + 1) within pattern = .ok pattern := by
  rw [resolve_succ, h.segments_eq, ← List.append_nil (List.map _ _), substitute_literals]
  simp [substitute, Except.map]

/-- The text in front of the first reference is kept, the reference is replaced, and what stands
behind it is resolved. -/
theorem resolve_reference (hbefore : Plain before) (hname : Token.isRuleName name) :
    resolve patterns (depth + 1) within (before ++ written name ++ after) =
      replacement patterns depth within name >>= fun text =>
        (resolve patterns (depth + 1) within after).map (before ++ text ++ ·) := by
  rw [resolve_succ, segments_reference hbefore hname, substitute_literals, substitute]
  cases replacement patterns depth within name with
  | error e => rfl
  | ok text =>
    rw [resolve_succ]
    cases substitute (replacement patterns depth within) (segments after) with
    | error e => rfl
    | ok rest => exact congrArg Except.ok (List.append_assoc ..).symm

/-- A reference to a name that is not there fails with this name. -/
theorem replacement_unknown (h : patterns name = none) :
    replacement patterns depth within name = .error name := by
  rw [replacement, h]

/-- A reference to a rule that gives tokens only becomes the fragment of its tokens. -/
theorem replacement_token (h : TokensOnly patterns within name) :
    replacement patterns depth within name = .ok (alternatives none name) := by
  unfold replacement
  rcases h with h | ⟨hwithin, inner, h⟩
  · rw [h]
  · rw [h]
    exact if_pos (List.contains_iff_mem.2 hwithin)

/-- A reference to another pattern becomes what that resolves to, or a token of its rule. -/
theorem replacement_nested (h : patterns name = some (some inner)) (hwithin : name ∉ within) :
    replacement patterns depth within name =
      (resolve patterns depth (name :: within) inner).map
        fun literal => alternatives (some literal) name := by
  unfold replacement
  rw [h]
  dsimp only
  rw [if_neg (mt List.contains_iff_mem.1 hwithin)]
  cases resolve patterns depth (name :: within) inner <;> rfl

/-! ## The end of the recursion -/

/-- The number of definitions whose patterns are not being resolved. -/
def waiting (ds : List Definition) (within : List Text) : Nat :=
  ds.countP fun d => d.name ∉ within

open Grammar (patternNamed)

/-- A definition whose pattern begins to be resolved no longer waits. -/
theorem waiting_cons_lt {ds : List Definition} {found : Option Text}
    (h : patternNamed ds name = some found) (hwithin : name ∉ within) :
    waiting ds (name :: within) < waiting ds within := by
  obtain ⟨d, hfind, -⟩ := Option.map_eq_some_iff.1 h
  have hd : d.name = name := by simpa using List.find?_some hfind
  obtain ⟨before, after, rfl⟩ := List.append_of_mem (List.mem_of_find?_eq_some hfind)
  have hmono (ds : List Definition) : waiting ds (name :: within) ≤ waiting ds within :=
    List.countP_mono_left fun d _ hout => by simp_all
  have hbefore := hmono before
  have hafter := hmono after
  -- this definition is counted no more, and none of the others is counted anew
  have hsplit (within : List Text) : waiting (before ++ d :: after) within =
      waiting before within + (waiting after within + if d.name ∉ within then 1 else 0) := by
    simp [waiting, List.countP_append, List.countP_cons]
  rw [hsplit, hsplit, if_neg (by simp [hd]), if_pos (by rwa [hd])]
  omega

/-- With enough levels left for the definitions that wait, resolving follows the recursion to its
end. -/
theorem resolves_resolve {ds : List Definition} (h : waiting ds within < depth) (pattern : Text) :
    Resolves (patternNamed ds) within pattern (resolve (patternNamed ds) depth within pattern) := by
  -- the levels go down with the definitions that wait; on one level the pattern gets shorter
  induction depth generalizing within pattern with
  | zero => contradiction
  | succ depth ihdepth =>
    induction pattern using reference_induction with
    | plain pattern hplain =>
      rw [resolve_plain hplain]
      exact .plain hplain
    | reference before name after hbefore hname ihafter =>
      rw [resolve_reference hbefore hname]
      cases hfound : patternNamed ds name with
      | none =>
        rw [replacement_unknown hfound]
        exact .unknown hbefore hname hfound
      | some found =>
        by_cases htoken : TokensOnly (patternNamed ds) within name
        · rw [replacement_token htoken]
          exact .token hbefore hname htoken ihafter
        · simp only [TokensOnly, hfound, Option.some.injEq, not_or, not_and] at htoken
          obtain ⟨inner, rfl⟩ := Option.ne_none_iff_exists'.1 htoken.1
          have hwithin : name ∉ within := fun hmem => htoken.2 hmem ⟨inner, rfl⟩
          have hwaiting : waiting ds (name :: within) < depth :=
            (waiting_cons_lt hfound hwithin).trans_le (Nat.le_of_lt_succ h)
          have hinner := ihdepth hwaiting inner
          rw [replacement_nested hfound hwithin]
          cases hliteral : resolve (patternNamed ds) depth (name :: within) inner with
          | error error =>
            rw [hliteral] at hinner
            exact .fails hbefore hname hfound hwithin hinner
          | ok literal =>
            rw [hliteral] at hinner
            exact .nested hbefore hname hfound hwithin hinner ihafter

/-- What a pattern comes to is computed if there are enough levels. -/
theorem Resolves.exists_resolve_eq (h : Resolves patterns within pattern result) :
    ∃ enough, ∀ depth, enough ≤ depth → resolve patterns (depth + 1) within pattern = result := by
  induction h with
  | plain hplain => exact ⟨0, fun depth _ => resolve_plain hplain⟩
  | unknown hbefore hname hnone =>
    refine ⟨0, fun depth _ => ?_⟩
    rw [resolve_reference hbefore hname, replacement_unknown hnone]
    rfl
  | token hbefore hname htoken _ ih =>
    obtain ⟨enough, ih⟩ := ih
    refine ⟨enough, fun depth hdepth => ?_⟩
    rw [resolve_reference hbefore hname, replacement_token htoken, ih depth hdepth]
    rfl
  | fails hbefore hname hinner hwithin _ ih =>
    obtain ⟨enough, ih⟩ := ih
    refine ⟨enough + 1, fun depth hdepth => ?_⟩
    obtain ⟨below, rfl⟩ := Nat.exists_eq_add_of_le' (Nat.le_of_add_left_le hdepth)
    rw [resolve_reference hbefore hname, replacement_nested hinner hwithin,
      ih below (by omega)]
    rfl
  | nested hbefore hname hinner hwithin _ _ ihinner ihafter =>
    obtain ⟨enough, ihinner⟩ := ihinner
    obtain ⟨enough', ihafter⟩ := ihafter
    -- one level is for the reference itself, those below are for what it refers to
    refine ⟨max (enough + 1) enough', fun depth hdepth => ?_⟩
    obtain ⟨below, rfl⟩ : ∃ below, depth = below + 1 := ⟨depth - 1, by omega⟩
    rw [resolve_reference hbefore hname, replacement_nested hinner hwithin,
      ihinner below (by omega), ihafter (below + 1) (by omega)]
    rfl

/-- A pattern comes to one result. -/
theorem Resolves.unique (h : Resolves patterns within pattern result)
    (h' : Resolves patterns within pattern result') : result = result' := by
  obtain ⟨enough, h⟩ := h.exists_resolve_eq
  obtain ⟨enough', h'⟩ := h'.exists_resolve_eq
  rw [← h (max enough enough') (le_max_left ..), h' _ (le_max_right ..)]

/-! ## Names without rules -/

/-- The pattern of a rule refers to a name. -/
def Refers (patterns : Text → Option (Option Text)) (rule name : Text) : Prop :=
  ∃ pattern, patterns rule = some (some pattern) ∧ Mentions pattern name

/-- A name is no rule, but is referred to by a rule, or by one that can be reached from it through
references. -/
def Dangling (patterns : Text → Option (Option Text)) (rule name : Text) : Prop :=
  ∃ last, Relation.ReflTransGen (Refers patterns) rule last ∧ Refers patterns last name ∧
    patterns name = none

/-- A name is no rule, but is referred to in a text, or behind references to rules that are not to
be avoided. -/
inductive Meets (patterns : Text → Option (Option Text)) (avoided : List Text) :
    Text → Text → Prop
  | here {text name : Text} : Mentions text name → patterns name = none →
      Meets patterns avoided text name
  | behind {text next inner name : Text} : Mentions text next → next ∉ avoided →
      patterns next = some (some inner) → Meets patterns avoided inner name →
        Meets patterns avoided text name

variable {avoided : List Text} {text other rule : Text}

/-- What a pattern refers to passes a dangling name on to it. -/
theorem Refers.dangling (h : Refers patterns rule other) (hother : Dangling patterns other name) :
    Dangling patterns rule name := by
  obtain ⟨last, hreach, hlast⟩ := hother
  exact ⟨last, .head h hreach, hlast⟩

/-- A rule that something is dangling from has a pattern. -/
theorem Dangling.exists_pattern (h : Dangling patterns rule name) :
    ∃ pattern, patterns rule = some (some pattern) := by
  obtain ⟨last, hreach, hlast, -⟩ := h
  rcases hreach.cases_head with rfl | ⟨next, hnext, -⟩
  · exact ⟨_, hlast.choose_spec.1⟩
  · exact ⟨_, hnext.choose_spec.1⟩

/-- Nothing is avoided: what a pattern meets is what is dangling from its rule. -/
theorem meets_nil_iff (hrule : patterns rule = some (some pattern)) :
    Meets patterns [] pattern name ↔ Dangling patterns rule name := by
  constructor
  · intro h
    induction h generalizing rule with
    | here hmentions hnone => exact ⟨rule, .refl, ⟨_, hrule, hmentions⟩, hnone⟩
    | behind hmentions _ hnext _ ih => exact Refers.dangling ⟨_, hrule, hmentions⟩ (ih hnext)
  · rintro ⟨last, hreach, hlast, hnone⟩
    induction hreach using Relation.ReflTransGen.head_induction_on generalizing pattern with
    | refl =>
      obtain ⟨found, hfound, hmentions⟩ := hlast
      obtain rfl : pattern = found := by simpa [hrule] using hfound
      exact .here hmentions hnone
    | head hstep hreach ih =>
      obtain ⟨found, hfound, hmentions⟩ := hstep
      obtain rfl : pattern = found := by simpa [hrule] using hfound
      obtain ⟨inner, hinner⟩ := Dangling.exists_pattern ⟨last, hreach, hlast, hnone⟩
      exact .behind hmentions List.not_mem_nil hinner (ih hinner)

theorem Meets.of_cons (h : Meets patterns (other :: avoided) text name) :
    Meets patterns avoided text name := by
  induction h with
  | here hmentions hnone => exact .here hmentions hnone
  | behind hmentions hnext hinner _ ih =>
    exact .behind hmentions (fun hmem => hnext (List.mem_cons_of_mem _ hmem)) hinner ih

/-- What a text meets is met without a certain rule, or starting from that rule without coming back
to it. -/
theorem Meets.avoid (hother : patterns other = some (some inner))
    (h : Meets patterns avoided text name) :
    Meets patterns (other :: avoided) text name ∨ Meets patterns (other :: avoided) inner name := by
  induction h with
  | here hmentions hnone => exact .inl (.here hmentions hnone)
  | @behind text next inner' name hmentions hnext hinner _ ih =>
    rcases ih with ih | ih
    · by_cases hsame : next = other
      · subst hsame
        obtain rfl : inner = inner' := by simpa [hother] using hinner
        exact .inr ih
      · exact .inl (.behind hmentions (by simp [hsame, hnext]) hinner ih)
    · exact .inr ih

/-- What is to be reported of a pattern: a name without a rule that it meets, if there is one. -/
def Reports (patterns : Text → Option (Option Text)) (within : List Text) (pattern : Text) :
    Except Text Text → Prop
  | .ok _ => ∀ name, ¬ Meets patterns within pattern name
  | .error name => Meets patterns within pattern name

theorem Meets.append_left (h : Meets patterns avoided text name) (before : Text) :
    Meets patterns avoided (before ++ text) name := by
  cases h with
  | here hmentions hnone => exact .here (hmentions.append_left before) hnone
  | behind hmentions hnext hinner h => exact .behind (hmentions.append_left before) hnext hinner h

/-- A pattern meets nothing if neither its first reference nor what stands behind it does. -/
theorem not_meets_reference (hbefore : Plain before) (hname : Token.isRuleName name)
    (hknown : patterns name ≠ none)
    (hinner : ∀ inner, name ∉ within → patterns name = some (some inner) →
      ¬ Meets patterns within inner other)
    (hafter : ¬ Meets patterns within after other) :
    ¬ Meets patterns within (before ++ written name ++ after) other := by
  rintro (⟨hmentions, hnone⟩ | ⟨hmentions, hnext, hfound, h⟩)
  · rcases (mentions_reference_iff hbefore hname).1 hmentions with rfl | hmentions
    · exact hknown hnone
    · exact hafter (.here hmentions hnone)
  · rcases (mentions_reference_iff hbefore hname).1 hmentions with rfl | hmentions
    · exact hinner _ hnext hfound h
    · exact hafter (.behind hmentions hnext hfound h)

/-- Resolving a pattern reports what it meets. -/
theorem Resolves.reports (h : Resolves patterns within pattern result) :
    Reports patterns within pattern result := by
  induction h with
  | plain hplain =>
    rintro name (⟨hmentions, -⟩ | ⟨hmentions, -⟩)
    · exact hplain _ hmentions
    · exact hplain _ hmentions
  | unknown hbefore hname hnone =>
    exact .here (mentions_written hname _ _) hnone
  | @token within before name after result hbefore hname htoken _ ih =>
    cases result with
    | error error => exact ih.append_left _
    | ok rest =>
      refine fun other => not_meets_reference hbefore hname ?_ (fun inner hwithin hinner => ?_)
        (ih other)
      · rcases htoken with h | ⟨-, inner, h⟩ <;> simp [h]
      · rcases htoken with h | ⟨hmem, -⟩
        · simp [h] at hinner
        · exact absurd hmem hwithin
  | fails hbefore hname hinner hwithin _ ih =>
    exact .behind (mentions_written hname _ _) hwithin hinner ih.of_cons
  | @nested within before name after inner literal result hbefore hname hinner hwithin _ _ ihinner
      ihafter =>
    cases result with
    | error error => exact ihafter.append_left _
    | ok rest =>
      refine fun other => not_meets_reference hbefore hname (by simp [hinner]) ?_ (ihafter other)
      rintro inner' - hinner' hmeets
      obtain rfl : inner = inner' := by simpa [hinner] using hinner'
      -- a way through the rule itself would come back to its start
      rcases hmeets.avoid hinner with h | h
      · exact ihinner other h
      · exact ihinner other h

/-- What is dangling from a rule is met by its pattern without coming back to the rule. -/
theorem Dangling.meets (hrule : patterns rule = some (some pattern))
    (h : Dangling patterns rule name) : Meets patterns [rule] pattern name := by
  rcases ((meets_nil_iff hrule).2 h).avoid hrule with h | h
  · exact h
  · exact h

/-- A name that ends the resolving of a rule is dangling from it. -/
theorem Resolves.dangling (hrule : patterns rule = some (some pattern))
    (h : Resolves patterns [rule] pattern (.error name)) : Dangling patterns rule name :=
  (meets_nil_iff hrule).1 h.reports.of_cons

/-- Nothing is dangling from a rule that can be resolved. -/
theorem Resolves.not_dangling (hrule : patterns rule = some (some pattern))
    (h : Resolves patterns [rule] pattern (.ok text)) : ¬ Dangling patterns rule name :=
  fun hname => h.reports name (hname.meets hrule)

end Cascade.Reference
