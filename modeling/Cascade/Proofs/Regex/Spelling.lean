import Cascade.Proofs.Regex.Match
import Cascade.Proofs.Regex.Search

/-!
# Patterns that read as they stand

Characters outside of ASCII have no special meaning in a regular expression. What is made of them,
and of loops around ranges of them, is read as what it looks like, however many such parts there
are.

* `parse_spelling`: what is read is a text and a loop for each stretch, one behind the other.
* `language_plan`: the words of such a pattern.
* `hasUsualMeaning_compiler`: regular expressions give such patterns their usual meaning.
-/

namespace Cascade

namespace Pattern.Stretch

open Cascade.Regex

/-- The range of a stretch as a set of characters. -/
def range (s : Stretch) : CharSet :=
  .range s.first.toNat s.last.toNat

/-- What stretches mean, with a text behind the last of them. -/
def expr (ending : Text) : List Stretch → Expr
  | [] => .text false ending
  | s :: others => .concat (.text false s.text) (.concat (.loop (.set s.range) .plus)
      (expr ending others))

/-- How stretches are matched, with a text behind the last of them. -/
def plan (ending : Text) : List Stretch → Plan
  | [] => .text false ending
  | s :: others => .concat (.text false s.text)
      (.concat (.loop (.set s.range) .plus .headed false []) (plan ending others))

end Pattern.Stretch

namespace Regex

open Cascade.Pattern
open scoped Computability

/-! ## Reading a stretch -/

namespace Parser

variable {α β : Type} {p p' : Progress} {gs : List Opening} {c : Char} {t more ending : Text}
  {behind : Sign} {inner : Options → Sign → Parser Read}

/-- A reader goes on where the one before it has stopped. -/
theorem run_bind {m : Parser α} {f : α → Parser β} {a : α} (h : m.run p = .ok (a, p')) :
    (m >>= f).run p = (f a).run p' := by
  rw [StateT.run_bind, h]
  rfl

theorem run_rest (p : Progress) : rest.run p = .ok (p.rest, p) := rfl

/-- The next character is taken. -/
theorem run_next? (c : Char) (more : Text) (gs : List Opening) :
    next?.run ⟨c :: more, gs⟩ = .ok (some c, ⟨more, gs⟩) := rfl

theorem run_lift {a : α} (p : Progress) :
    (liftM (Except.ok a : Except Error α) : Parser α).run p = .ok (a, p) := rfl

/-- A character that does not come next is not accepted. -/
theorem run_accept_of_ne {d : Char} (h : c ≠ d) :
    (accept [c]).run ⟨d :: more, gs⟩ = .ok (false, ⟨d :: more, gs⟩) := by
  have hnone : [c].isPrefixOf? (d :: more) = none := by
    rw [List.isPrefixOf?, if_neg (by simpa using h)]
  rw [accept, run_bind (run_rest _), hnone]
  rfl

/-- A character outside of ASCII is none of ASCII. -/
theorem ne_of_wide {d : Char} (hc : 0x80 ≤ c.toNat) (hd : d.toNat < 0x80) : c ≠ d := by
  rintro rfl
  omega

/-- A character is known by its number. -/
theorem charOf?_toNat (c : Char) : charOf? c.toNat = some c := by
  rw [charOf?, if_pos (show c.toNat.isValidChar from c.valid), Char.ofNat_toNat]

/-- Where no comment opens, nothing is skipped. -/
theorem run_skipTrivia (fuel : Nat) (hc : c ≠ '(') :
    (skipTrivia .none fuel).run ⟨c :: more, gs⟩ = .ok ((), ⟨c :: more, gs⟩) := by
  cases fuel with
  | zero => rfl
  | succ fuel =>
    rw [skipTrivia, run_bind (run_rest _)]
    split
    · next heq => exact absurd (List.cons.inj heq).1 hc
    · simp [Options.none]
      rfl
    · rfl

/-- Outside of ASCII each character is the sign for itself. -/
theorem run_sign_code (hc : 0x80 ≤ c.toNat) :
    (sign .none).run ⟨c :: more, gs⟩ = .ok (.code c.toNat, ⟨more, gs⟩) := by
  have hne {d : Char} (hd : d.toNat < 0x80) : c ≠ d := ne_of_wide hc hd
  rw [sign, run_bind (run_rest _), run_bind (run_skipTrivia _ (hne (by decide))),
    run_bind (run_next? ..)]
  split
  -- all other signs are those of ASCII characters
  all_goals try next heq => exact absurd (Option.some.inj heq) (hne (by decide))
  · contradiction
  · next heq =>
    obtain rfl := Option.some.inj heq
    rfl

/-- In a class, a character beyond the signs stands for itself. -/
theorem run_classSign_code (hc : 0x80 ≤ c.toNat) :
    classSign.run ⟨c :: more, gs⟩ = .ok (.code c.toNat, ⟨more, gs⟩) := by
  have hne {d : Char} (hd : d.toNat < 0x80) : c ≠ d := ne_of_wide hc hd
  rw [classSign, run_bind (run_next? ..)]
  split
  all_goals try next heq => exact absurd (Option.some.inj heq) (hne (by decide))
  · contradiction
  · next heq =>
    obtain rfl := Option.some.inj heq
    rfl

/-- The first character of a range is kept until the second one is read. -/
theorem addMember_first (s : Stretch) : ClassState.start.addMember ⟨s.first.toNat, false⟩ =
    .ok ⟨.empty, none, .member ⟨s.first.toNat, false⟩⟩ := rfl

/-- The last character of a range closes it. -/
theorem addMember_last (s : Stretch) :
    ClassState.addMember ⟨.empty, none, .range ⟨s.first.toNat, false⟩⟩ ⟨s.last.toNat, false⟩ =
      .ok ⟨⟨s.range, .none, true⟩, none, .complete⟩ := by
  simp [ClassState.addMember, ClassState.add, Content.range, Content.union, Content.join,
    Content.empty, Stretch.range, s.le, s.wide]

/-- The signs of a range make a class. -/
theorem run_classParts (nested : Parser Content) (s : Stretch) {fuel : Nat} (hfuel : 4 ≤ fuel) :
    (classParts nested fuel .start (.code s.first.toNat)).run
      ⟨'-' :: s.last :: ']' :: more, gs⟩ = .ok (⟨s.range, .none, true⟩, ⟨more, gs⟩) := by
  obtain ⟨fuel, rfl⟩ := Nat.exists_eq_add_of_le' hfuel
  have hwide : 0x80 ≤ s.last.toNat := s.wide.trans s.le
  have hhyphen : classSign.run ⟨'-' :: s.last :: ']' :: more, gs⟩ =
      .ok (.hyphen, ⟨s.last :: ']' :: more, gs⟩) := rfl
  have hlast : classSign.run ⟨s.last :: ']' :: more, gs⟩ =
      .ok (.code s.last.toNat, ⟨']' :: more, gs⟩) := run_classSign_code hwide
  have hclosing : classSign.run ⟨']' :: more, gs⟩ = .ok (.closing, ⟨more, gs⟩) := rfl
  simp only [classParts, decide_eq_false (Nat.not_lt.2 s.wide), addMember_first,
    run_bind (run_lift _), run_bind hhyphen, run_bind hlast, decide_eq_false (Nat.not_lt.2 hwide),
    addMember_last, run_bind hclosing]
  rfl

/-- A class of one range is read behind its opening bracket. -/
theorem run_charClass (s : Stretch) (depth : Nat) :
    (charClass .none (depth + 1)).run ⟨s.first :: '-' :: s.last :: ']' :: more, gs⟩ =
      .ok (.set s.range, ⟨more, gs⟩) := by
  rw [charClass, classBody]
  simp only [bind_assoc]
  rw [run_bind (run_accept_of_ne (ne_of_wide s.wide (by decide)).symm),
    run_bind (run_classSign_code s.wide)]
  simp only [pure_bind, bind_assoc]
  rw [run_bind (run_rest _), run_bind (run_classParts _ s (by simp))]
  rfl

/-- A loop for at least one round, behind which something plain comes. -/
theorem run_loops_plus (s : CharSet) (depth : Nat) (hc : 0x80 ≤ c.toNat) :
    (loops .none (depth + 1) false (.set s) (.rounds ⟨1, none, .greedy⟩)).run ⟨c :: more, gs⟩ =
      .ok ((.loop (.set s) .plus, .code c.toNat), ⟨more, gs⟩) := by
  have happly : Rounds.apply ⟨1, none, .greedy⟩ (.set s) = .ok (.loop (.set s) .plus) := rfl
  rw [loops]
  · simp only [Expr.isPlace, Bool.false_eq_true, if_false, happly, run_bind (run_lift _),
      run_bind (run_sign_code hc), reduceCtorEq, and_false]
    cases depth <;> rfl
  · intros
    contradiction

/-- The sign for at least one round, behind which something plain comes. -/
theorem run_sign_plus (hc : 0x80 ≤ c.toNat) : (sign .none).run ⟨'+' :: c :: more, gs⟩ =
    .ok (.rounds ⟨1, none, .greedy⟩, ⟨c :: more, gs⟩) := by
  have hmode : (mode true true).run ⟨c :: more, gs⟩ = .ok (.greedy, ⟨c :: more, gs⟩) := by
    have hlazy : (accept ['?']).run ⟨c :: more, gs⟩ = .ok (false, ⟨c :: more, gs⟩) :=
      run_accept_of_ne (ne_of_wide hc (by decide)).symm
    have hpossessive : (accept ['+']).run ⟨c :: more, gs⟩ = .ok (false, ⟨c :: more, gs⟩) :=
      run_accept_of_ne (ne_of_wide hc (by decide)).symm
    simp only [mode, if_true, run_bind hlazy, run_bind hpossessive, Bool.false_eq_true, if_false]
    rfl
  rw [sign, run_bind (run_rest _), run_bind (run_skipTrivia _ (by decide)),
    run_bind (run_next? ..)]
  exact run_bind hmode

/-- Plain characters are read up to a class or the end. -/
theorem run_characters {fuel : Nat} (ht : ∀ d ∈ t, 0x80 ≤ d.toNat) (hfuel : t.length < fuel)
    (hbehind : behind = .openClass ∨ behind = .stop)
    (hsign : (sign .none).run ⟨more, gs⟩ = .ok (behind, p)) :
    (characters .none fuel (.code c.toNat)).run ⟨t ++ more, gs⟩ = .ok ((c :: t, behind), p) := by
  induction fuel generalizing c t with
  | zero => contradiction
  | succ fuel ih =>
    simp only [characters, charOf?_toNat]
    cases t with
    | nil =>
      have hend : (characters .none fuel behind).run p = .ok (([], behind), p) := by
        rcases hbehind with rfl | rfl <;> cases fuel <;> rfl
      rw [List.nil_append, run_bind hsign, run_bind hend]
      rfl
    | cons d t =>
      obtain ⟨hd, ht⟩ := List.forall_mem_cons.1 ht
      rw [List.cons_append, run_bind (run_sign_code hd),
        run_bind (ih ht (Nat.lt_of_succ_lt_succ hfuel))]
      rfl

/-- A plain text is a piece. -/
theorem run_piece_text (ht : ∀ d ∈ t, 0x80 ≤ d.toNat) (depth : Nat)
    (hbehind : behind = .openClass ∨ behind = .stop)
    (hsign : (sign .none).run ⟨more, gs⟩ = .ok (behind, p)) :
    (piece inner depth .none (.code c.toNat)).run ⟨t ++ more, gs⟩ =
      .ok ((.text false (c :: t), behind), p) := by
  have hfuel : t.length < (t ++ more).length + 1 := by
    rw [List.length_append]
    omega
  have hcharacters := run_characters (c := c) ht hfuel hbehind hsign
  have hloops (e : Expr) : (loops .none depth false e behind).run p = .ok ((e, behind), p) := by
    rcases hbehind with rfl | rfl <;> cases depth <;> rfl
  rw [piece, run_bind (run_rest _), run_bind hcharacters]
  exact hloops _

/-- A class with its loop is a piece. -/
theorem run_piece_loop (s : Stretch) (depth : Nat) (hc : 0x80 ≤ c.toNat) :
    (piece inner (depth + 1) .none .openClass).run
      ⟨s.first :: '-' :: s.last :: ']' :: '+' :: c :: more, gs⟩ =
        .ok ((.loop (.set s.range) .plus, .code c.toNat), ⟨more, gs⟩) := by
  rw [piece, run_bind (run_charClass s depth), run_bind (run_sign_plus hc), run_loops_plus _ _ hc]

/-! ## Reading all stretches -/

/-- The spelling begins with a character that stands for itself. -/
theorem exists_spelling_eq_cons (h : IsPlain ending) (stretches : List Stretch) :
    ∃ c more, Stretch.spelling ending stretches = c :: more ∧ 0x80 ≤ c.toNat := by
  cases stretches with
  | nil =>
    obtain ⟨c, more, rfl⟩ := List.exists_cons_of_ne_nil h.ne_nil
    exact ⟨c, more, rfl, h.wide c List.mem_cons_self⟩
  | cons s others =>
    obtain ⟨c, t, htext⟩ := List.exists_cons_of_ne_nil s.isPlain.ne_nil
    refine ⟨c, _, by rw [Stretch.spelling, htext]; rfl, s.isPlain.wide c ?_⟩
    exact htext ▸ List.mem_cons_self

/-- The spelling is longer than what there is of stretches, so that the bound on the steps is high
enough. -/
theorem length_lt_spelling (h : IsPlain ending) (stretches : List Stretch) :
    2 * stretches.length < (Stretch.spelling ending stretches).length := by
  induction stretches with
  | nil => exact List.length_pos_iff.2 h.ne_nil
  | cons s others ih =>
    simp only [Stretch.spelling, List.length_append, List.length_cons]
    omega

/-- Each stretch is two pieces, and the text behind the last one is a piece. -/
theorem run_branch (h : IsPlain ending) (stretches : List Stretch) {fuel : Nat} (depth : Nat)
    (hfuel : 2 * stretches.length < fuel)
    (hmore : Stretch.spelling ending stretches = c :: more) :
    (branch inner (depth + 1) .none fuel (.code c.toNat)).run ⟨more, gs⟩ =
      .ok ((some (Stretch.expr ending stretches), .stop), ⟨[], gs⟩) := by
  induction stretches generalizing fuel c more with
  | nil =>
    obtain ⟨fuel, rfl⟩ := Nat.exists_eq_add_of_lt hfuel
    -- only the text at the end is left, which is one piece
    obtain rfl : ending = c :: more := hmore
    have hpiece : (piece inner (depth + 1) .none (.code c.toNat)).run ⟨more ++ [], gs⟩ =
        .ok ((.text false (c :: more), .stop), ⟨[], gs⟩) :=
      run_piece_text (fun d hd => h.wide d (List.mem_cons_of_mem c hd)) (depth + 1) (.inr rfl) rfl
    rw [List.append_nil] at hpiece
    have hend (fuel : Nat) : (branch inner (depth + 1) .none fuel .stop).run ⟨[], gs⟩ =
        .ok ((none, .stop), ⟨[], gs⟩) := by
      cases fuel <;> rfl
    rw [branch, run_bind hpiece, run_bind (hend _)]
    · rfl
    all_goals nofun
  | cons s others ih =>
    rw [List.length_cons] at hfuel
    obtain ⟨fuel, rfl⟩ := Nat.exists_eq_add_of_le' (show 2 ≤ fuel by omega)
    obtain ⟨c', t, htext⟩ := List.exists_cons_of_ne_nil s.isPlain.ne_nil
    obtain ⟨d, more', hothers, hd⟩ := exists_spelling_eq_cons h others
    rw [Stretch.spelling, htext, hothers, List.cons_append] at hmore
    obtain ⟨rfl, rfl⟩ := List.cons.inj hmore
    have hwide : ∀ d ∈ t, 0x80 ≤ d.toNat :=
      fun d hd => s.isPlain.wide d (htext ▸ List.mem_cons_of_mem c' hd)
    -- the text of the stretch is a piece, as it ends where the range opens
    have hpiece : (piece inner (depth + 1) .none (.code c'.toNat)).run
        ⟨t ++ '[' :: s.first :: '-' :: s.last :: ']' :: '+' :: d :: more', gs⟩ =
          .ok ((.text false (c' :: t), .openClass),
            ⟨s.first :: '-' :: s.last :: ']' :: '+' :: d :: more', gs⟩) :=
      run_piece_text hwide (depth + 1) (.inl rfl) rfl
    -- the range is repeated, and this is a piece as well; the other stretches are behind it
    have hbehind : (branch inner (depth + 1) .none (fuel + 1) .openClass).run
        ⟨s.first :: '-' :: s.last :: ']' :: '+' :: d :: more', gs⟩ =
          .ok ((some (.concat (.loop (.set s.range) .plus) (Stretch.expr ending others)), .stop),
            ⟨[], gs⟩) := by
      rw [branch, run_bind (run_piece_loop s depth hd), run_bind (ih (by omega) hothers)]
      · rfl
      all_goals nofun
    rw [branch, run_bind hpiece, run_bind hbehind, Stretch.expr, htext]
    · rfl
    all_goals nofun

/-- A pattern made of stretches is read as what they mean. -/
theorem run_pattern (h : IsPlain ending) (stretches : List Stretch) :
    pattern.run ⟨Stretch.spelling ending stretches, []⟩ =
      .ok (Stretch.expr ending stretches, ⟨[], []⟩) := by
  obtain ⟨c, more, hspelling, hc⟩ := exists_spelling_eq_cons h stretches
  have hlength : 2 * stretches.length < more.length + 2 := by
    have hle := length_lt_spelling h stretches
    rw [hspelling] at hle
    simp only [List.length_cons] at hle
    omega
  have hexpr : (Parser.expr maxDepth .none (.code c.toNat)).run ⟨more, []⟩ =
      .ok ((Stretch.expr ending stretches, .stop), ⟨[], []⟩) := by
    rw [maxDepth, Parser.expr, run_bind (run_rest _), alternatives,
      run_bind (run_branch h stretches 4094 hlength hspelling)]
    rfl
  rw [pattern, hspelling, run_bind (run_sign_code hc), run_bind hexpr]
  rfl

end Parser

end Regex

namespace Pattern.Stretch

open Cascade.Regex
open scoped Computability

variable {ending u : Text} (stretches : List Stretch)

/-- Nothing is referred to in such a pattern. -/
theorem references_expr : (expr ending stretches).references = [] := by
  induction stretches with
  | nil => rfl
  | cons s others ih => simp [expr, Expr.references, ih]

/-- No text meets another one, a loop being between them. -/
theorem joined_expr : (expr ending stretches).joined = expr ending stretches := by
  induction stretches with
  | nil => rfl
  | cons s others ih =>
    obtain ⟨c, t, htext⟩ := List.exists_cons_of_ne_nil s.isPlain.ne_nil
    simp [expr, Expr.joined, Expr.append, Expr.cons, ih, htext]

/-- The expression that is read is planned as it stands. -/
theorem plan_expr (g : Groups) : (expr ending stretches).plan g = .ok (plan ending stretches) := by
  induction stretches with
  | nil => rfl
  | cons s others ih =>
    simp only [expr, Expr.plan, ih]
    rfl

/-- A pattern made of stretches is matched by a text and a loop for each of them. -/
theorem parse_spelling (h : IsPlain ending) : parse (spelling ending stretches) =
    .ok ⟨spelling ending stretches, plan ending stretches, [], []⟩ := by
  rw [parse, Parser.run_pattern h]
  change (do
    if (expr ending stretches).references.any (· > 0) then throw Error.unknownGroupNumber
    let plan ← (expr ending stretches).joined.plan _
    return (⟨spelling ending stretches, plan, [], []⟩ : Regex)) = _
  rw [references_expr, joined_expr, plan_expr]
  rfl

/-! ## Words -/

/-- The plan is a regular expression. -/
theorem isRegular_plan : (plan ending stretches).IsRegular := by
  induction stretches with
  | nil => exact .text ending
  | cons s others ih =>
    refine .concat (.text s.text) (.concat (.loop _ _ _ _ (.set s.range) ?_) ih)
    rintro ⟨c, -, hc⟩
    contradiction

/-- At least one character of a set, again and again. -/
theorem mem_language_loop_set_iff {s : CharSet} {greedy nullable : Bool} {watched : List Nat} :
    u ∈ (Plan.loop (.set s) ⟨1, none, greedy⟩ .headed nullable watched).language ↔
      u ≠ [] ∧ ∀ c ∈ u, s.contains c := by
  rw [Plan.language_loop, pow_one]
  constructor
  · intro hu
    obtain ⟨_, ⟨c, hc, rfl⟩, w, hw, rfl⟩ := Language.mem_mul.1 hu
    obtain ⟨words, rfl, hwords⟩ := Language.mem_kstar.1 hw
    refine ⟨by simp, ?_⟩
    rintro d (_ | ⟨_, hd⟩)
    · exact hc
    · obtain ⟨word, hword, hd⟩ := List.mem_flatten.1 hd
      obtain ⟨c', hc', rfl⟩ := hwords word hword
      rwa [List.mem_singleton.1 hd]
  · rintro ⟨hne, hall⟩
    obtain ⟨c, t, rfl⟩ := List.exists_cons_of_ne_nil hne
    obtain ⟨hc, ht⟩ := List.forall_mem_cons.1 hall
    refine Language.append_mem_mul (a := [c]) ⟨c, hc, rfl⟩ ?_
    refine Language.mem_kstar.2 ⟨t.map ([·]), ?_, ?_⟩
    · rw [← List.flatMap_def, List.flatMap_singleton']
    · simp only [List.mem_map]
      rintro _ ⟨d, hd, rfl⟩
      exact ⟨d, ht d hd, rfl⟩

/-- The plan of stretches has their words. -/
theorem language_plan : (plan ending stretches).language = language ending stretches := by
  induction stretches with
  | nil => rfl
  | cons s others ih =>
    have hruns : (Plan.loop (.set s.range) .plus .headed false []).language = s.runs := by
      ext u
      rw [show Bounds.plus = ⟨1, none, true⟩ from rfl, mem_language_loop_set_iff]
      simp [runs, Has, range, CharSet.contains]
      rfl
    rw [language, ← ih, ← hruns]
    rfl

end Pattern.Stretch

namespace Regex

open Cascade.Pattern

/-- Regular expressions give literal characters, ranges and the sign for at least one their usual
meaning. -/
theorem hasUsualMeaning_compiler : compiler.HasUsualMeaning := by
  intro ending stretches hending
  have hparse := Stretch.parse_spelling stretches hending
  generalize hr : (⟨_, _, _, _⟩ : Regex) = r at hparse
  have hplan : r.plan = Stretch.plan ending stretches := hr ▸ rfl
  have hnil : [] ∉ r.plan.language := by
    rw [hplan, Stretch.language_plan]
    exact Stretch.nil_notMem_language hending stretches
  refine ⟨_, Pattern.compile_eq_ok_iff.2 ⟨_, compile_eq_ok_iff.2 ⟨r, hparse, rfl⟩, rfl⟩,
    fun text => ?_⟩
  have hleftmost := leftmost_scan (hplan ▸ Stretch.isRegular_plan stretches) hnil text
  rw [hplan, Stretch.language_plan] at hleftmost
  dsimp only
  rwa [scan_compiled]

end Regex

end Cascade
