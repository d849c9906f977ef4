import Cascade.Proofs.Except
import Cascade.Regex.Compiler
import Mathlib.Data.List.Basic
import Mathlib.Logic.Relation

/-!
# What is matched

The matcher goes through the ways to match one after the other. Each of them follows the structure
of the plan: what the whole matches is made up of what its parts match.

* `Plan.Matches`: the ways in which a plan can match, the marks included.
* `follows_run`: the matcher finds one of them, or nothing.
* `exists_matches_of_mem_scan`: the matches of a pattern in a text.
* `scan_compiled`, `compile_eq_ok_iff`: what the engine makes of a pattern.
-/

namespace Cascade.Regex

open Relation (ReflTransGen)

/-- A plan can match from one place to another, changing the marks. Which of the ways is preferred,
and how many rounds a loop takes, is left open. -/
def Plan.Matches (stop : Nat) : Plan → Cursor × Marks → Cursor × Marks → Prop
  | .text ignoreCase t, s, s' => s.1.pass? stop ignoreCase t = some s'.1 ∧ s'.2 = s.2
  | .set chars, s, s' => ∃ x, s.1.step? stop = some (x, s'.1) ∧ chars.contains x ∧ s'.2 = s.2
  | .concat a b, s, s' => ∃ between, a.Matches stop s between ∧ b.Matches stop between s'
  | .either a b, s, s' => a.Matches stop s s' ∨ b.Matches stop s s'
  | .group number body, s, s' =>
    ∃ inside, body.Matches stop (s.1, (number, none) :: s.2) inside ∧
      s' = (inside.1, (number, some ⟨s.1, inside.1⟩) :: inside.2)
  | .loop body _ _ _ _, s, s' => ReflTransGen (body.Matches stop) s s'
  | .atomic body, s, s' => body.Matches stop s s'
  | .anchor a, s, s' => s.1.atAnchor stop a ∧ s' = s
  | .ahead false body, s, s' => s'.1 = s.1 ∧ ∃ last, body.Matches stop s (last, s'.2)
  | .ahead true body, s, s' =>
    run stop body (fun c marks => some (c, marks)) s.1 s.2 = none ∧ s' = s
  | .behind false length body, s, s' =>
    s'.1 = s.1 ∧ ∃ count first last, s.1.back? count = some first ∧ last.offset = s.1.offset ∧
      body.Matches (if length.isExact then stop else s.1.offset) (first, s.2) (last, s'.2)
  | .behind true length body, s, s' =>
    runBehind (run (if length.isExact then stop else s.1.offset) body) length s.1 s.2 = none ∧
      s' = s
  | .backref groups ignoreCase, s, s' =>
    ∃ number ∈ groups, ∃ mark, s.2.last? number = some mark ∧
      s.1.pass? stop ignoreCase mark.text = some s'.1 ∧ s'.2 = s.2

/-! ## The matcher -/

/-- A step goes on in one of the ways that a relation allows, or fails. -/
def Follows (step : Continuation → Continuation)
    (R : Cursor × Marks → Cursor × Marks → Prop) : Prop :=
  ∀ ⦃k c marks out⦄, step k c marks = some out → ∃ s, R (c, marks) s ∧ k s.1 s.2 = some out

section

variable {step : Continuation → Continuation} {R : Cursor × Marks → Cursor × Marks → Prop}
  {k : Continuation} {c : Cursor} {marks : Marks} {out : Cursor × Marks}

theorem orElse_eq_some {a : Outcome} {b : Unit → Outcome} (h : orElse a b = some out) :
    a = some out ∨ b () = some out := by
  cases a with
  | none => exact .inr h
  | some r => exact .inl h

theorem Follows.times (h : Follows step R) (count : Nat) :
    Follows (times step count) (ReflTransGen R) := by
  intro k c marks out hout
  induction count generalizing c marks with
  | zero => exact ⟨_, .refl, hout⟩
  | succ count ih =>
    obtain ⟨s, hs, hrest⟩ := h hout
    obtain ⟨s', hs', hk⟩ := ih hrest
    exact ⟨s', .head hs hs', hk⟩

theorem Follows.rounds (h : Follows step R) (greedy checked : Bool) (watched : List Nat)
    (count due : Nat) :
    Follows (rounds step greedy checked watched · count due) (ReflTransGen R) := by
  intro k c marks out hout
  induction count generalizing c marks due with
  | zero => exact ⟨_, .refl, hout⟩
  | succ count ih =>
    have hend {last : Prop} [Decidable last]
        (hend : (if last then k c marks else none) = some out) :
        ∃ s, ReflTransGen R (c, marks) s ∧ k s.1 s.2 = some out := by
      split at hend
      · exact ⟨_, .refl, hend⟩
      · contradiction
    rcases orElse_eq_some hout with hlazy | hout
    · exact hend hlazy
    rcases orElse_eq_some hout with hround | hgreedy
    · obtain ⟨s, hs, hafter⟩ := h hround
      -- the loop goes on behind the round, or ends there
      dsimp only at hafter
      split at hafter
      · obtain ⟨s', hs', hk⟩ := ih _ hafter
        exact ⟨s', .head hs hs', hk⟩
      · exact ⟨s, .single hs, hafter⟩
      · contradiction
    · exact hend hgreedy

theorem Follows.runLoop (h : Follows step R) (stop : Nat) (bounds : Bounds) (layout : Layout)
    (nullable : Bool) (watched : List Nat) :
    Follows (runLoop stop step bounds layout nullable watched) (ReflTransGen R) := by
  intro k c marks out hout
  cases layout with
  | unrolled => exact h.rounds _ _ _ _ _ hout
  | counted => exact h.rounds _ _ _ _ _ hout
  | headed =>
    obtain ⟨s, hs, hrest⟩ := h.times _ hout
    obtain ⟨s', hs', hk⟩ := h.rounds _ _ _ _ _ hrest
    exact ⟨s', hs.trans hs', hk⟩

/-- Some characters further back than a place that is some characters back. -/
theorem back?_add {count more : Nat} {c' c'' : Cursor} (h : c.back? count = some c')
    (h' : c'.back? more = some c'') : c.back? (count + more) = some c'' := by
  induction count generalizing c with
  | zero =>
    obtain rfl := Option.some.inj h
    rwa [Nat.zero_add]
  | succ count ih =>
    obtain ⟨before, hbefore, hback⟩ := Option.bind_eq_some_iff.1 h
    rw [Nat.succ_add]
    exact Option.bind_eq_some_iff.2 ⟨before, hbefore, ih hback⟩

/-- A body that ends at some place has begun somewhere before the first place that is tried. -/
theorem Follows.endingAt (h : Follows step R) {target count : Nat}
    (hout : endingAt step target marks count c = some out) :
    ∃ back first, c.back? back = some first ∧ R (first, marks) out ∧ out.1.offset = target := by
  induction count generalizing c with
  | zero => contradiction
  | succ count ih =>
    rcases orElse_eq_some hout with hhere | hbefore
    · obtain ⟨s, hs, hends⟩ := h hhere
      split at hends
      · next hoffset =>
        obtain rfl : s = out := Option.some.inj hends
        exact ⟨0, c, rfl, hs, hoffset⟩
      · contradiction
    · split at hbefore
      · next before hprevious =>
        obtain ⟨back, first, hback, hfirst⟩ := ih hbefore
        exact ⟨back + 1, first, Option.bind_eq_some_iff.2 ⟨before, hprevious, hback⟩, hfirst⟩
      · contradiction

/-- A body that is looked for before a place has begun some characters back and ends there. -/
theorem Follows.runBehind (h : Follows step R) {length : Length}
    (hout : runBehind step length c marks = some out) :
    ∃ back first, c.back? back = some first ∧ R (first, marks) out ∧
      out.1.offset = c.offset := by
  obtain ⟨start, hstart, hending⟩ := Option.bind_eq_some_iff.1 hout
  obtain ⟨back, first, hback, hfirst⟩ := h.endingAt hending
  exact ⟨length.least + back, first, back?_add hstart hback, hfirst⟩

theorem follows_referTo (stop : Nat) (ignoreCase : Bool) (groups : List Nat)
    (h : referTo stop ignoreCase c marks k groups = some out) :
    ∃ number ∈ groups, ∃ mark c', marks.last? number = some mark ∧
      c.pass? stop ignoreCase mark.text = some c' ∧ k c' marks = some out := by
  induction groups with
  | nil => contradiction
  | cons number rest ih =>
    have hlater (h : referTo stop ignoreCase c marks k rest = some out) :
        ∃ number' ∈ number :: rest, ∃ mark c', marks.last? number' = some mark ∧
          c.pass? stop ignoreCase mark.text = some c' ∧ k c' marks = some out := by
      obtain ⟨number', hnumber, hfound⟩ := ih h
      exact ⟨number', List.mem_cons_of_mem _ hnumber, hfound⟩
    rw [referTo] at h
    split at h
    · exact hlater h
    · next mark hmark =>
      split at h
      · next c' hpass => exact ⟨number, List.mem_cons_self, mark, c', hmark, hpass, h⟩
      · split at h
        · contradiction
        · exact hlater h

end

/-- The matcher finds one of the ways in which a plan can match and in which its continuation can go
on, or nothing. -/
theorem follows_run (p : Plan) (stop : Nat) : Follows (run stop p) (p.Matches stop) := by
  -- what comes behind a part is its continuation, so the parts can be taken one after the other
  induction p generalizing stop with
  | text ignoreCase t =>
    intro k c marks out hout
    rw [run] at hout
    split at hout
    · next c' hpass => exact ⟨(c', marks), ⟨hpass, rfl⟩, hout⟩
    · contradiction
  | set chars =>
    intro k c marks out hout
    rw [run] at hout
    split at hout
    · next x c' hstep =>
      split at hout
      · next hx => exact ⟨(c', marks), ⟨x, hstep, hx, rfl⟩, hout⟩
      · contradiction
    · contradiction
  | concat a b iha ihb =>
    intro k c marks out hout
    obtain ⟨between, ha, hrest⟩ := iha stop hout
    obtain ⟨s, hb, hk⟩ := ihb stop hrest
    exact ⟨s, ⟨between, ha, hb⟩, hk⟩
  | either a b iha ihb =>
    intro k c marks out hout
    rcases orElse_eq_some hout with hfirst | hsecond
    · obtain ⟨s, hs, hk⟩ := iha stop hfirst
      exact ⟨s, .inl hs, hk⟩
    · obtain ⟨s, hs, hk⟩ := ihb stop hsecond
      exact ⟨s, .inr hs, hk⟩
  | group number body ih =>
    -- the marks are changed before the body and behind it, where its continuation begins
    intro k c marks out hout
    obtain ⟨inside, hinside, hk⟩ := ih stop hout
    exact ⟨_, ⟨inside, hinside, rfl⟩, hk⟩
  | loop body bounds layout nullable watched ih =>
    intro k c marks out hout
    exact (ih stop).runLoop stop bounds layout nullable watched hout
  | atomic body ih =>
    -- here the body has a continuation of its own, which takes any place
    intro k c marks out hout
    rw [run] at hout
    split at hout
    · next last marks' hbody =>
      obtain ⟨s, hs, hsame⟩ := ih stop hbody
      obtain rfl : s = (last, marks') := Option.some.inj hsame
      exact ⟨_, hs, hout⟩
    · contradiction
  | anchor a =>
    intro k c marks out hout
    rw [run] at hout
    split at hout
    · next hanchor => exact ⟨(c, marks), ⟨hanchor, rfl⟩, hout⟩
    · contradiction
  | ahead negated body ih =>
    intro k c marks out hout
    cases hbody : run stop body (fun c marks => some (c, marks)) c marks with
    | none =>
      cases negated with
      | false => simp [run, hbody] at hout
      | true => exact ⟨(c, marks), ⟨hbody, rfl⟩, by simpa [run, hbody] using hout⟩
    | some found =>
      cases negated with
      | false =>
        obtain ⟨s, hs, hsame⟩ := ih stop hbody
        obtain rfl : s = found := Option.some.inj hsame
        exact ⟨(c, s.2), ⟨rfl, s.1, hs⟩, by simpa [run, hbody] using hout⟩
      | true => simp [run, hbody] at hout
  | behind negated length body ih =>
    intro k c marks out hout
    cases hbody :
      runBehind (run (if length.isExact then stop else c.offset) body) length c marks with
    | none =>
      cases negated with
      | false => simp [run, hbody] at hout
      | true => exact ⟨(c, marks), ⟨hbody, rfl⟩, by simpa [run, hbody] using hout⟩
    | some found =>
      cases negated with
      | false =>
        obtain ⟨back, first, hback, hfirst, hoffset⟩ := (ih _).runBehind hbody
        exact ⟨(c, found.2), ⟨rfl, back, first, found.1, hback, hoffset, hfirst⟩,
          by simpa [run, hbody] using hout⟩
      | true => simp [run, hbody] at hout
  | backref groups ignoreCase =>
    intro k c marks out hout
    obtain ⟨number, hnumber, mark, c', hmark, hpass, hk⟩ := follows_referTo stop ignoreCase _ hout
    exact ⟨(c', marks), ⟨number, List.mem_reverse.1 hnumber, mark, hmark, hpass, rfl⟩, hk⟩

/-! ## The matches of a pattern in a text -/

variable {r : Regex} {text : Text} {m : Match}

/-- One place is reached from another by going on character by character. -/
def Cursor.Reaches : Cursor → Cursor → Prop :=
  ReflTransGen fun c c' => ∃ x, c.next? = some (x, c')

/-- The first match begins at a place that is reached, and is what is found there. -/
theorem run_of_firstFrom {stop fuel : Nat} {p : Plan} {c first last : Cursor} {marks : Marks}
    (h : firstFrom stop p fuel c = some (first, last, marks)) :
    c.Reaches first ∧
      run stop p (fun c marks => some (c, marks)) first [] = some (last, marks) := by
  induction fuel generalizing c with
  | zero => contradiction
  | succ fuel ih =>
    rw [firstFrom] at h
    split at h
    · next last' marks' hrun =>
      obtain ⟨rfl, rfl, rfl⟩ : c = first ∧ last' = last ∧ marks' = marks := by simpa using h
      exact ⟨.refl, hrun⟩
    · split at h
      · next x c' hnext =>
        obtain ⟨hreaches, hrun⟩ := ih h
        exact ⟨.head ⟨x, hnext⟩ hreaches, hrun⟩
      · contradiction

/-- What is found at a place is one of the ways in which the plan can match there. -/
theorem matches_of_run {stop : Nat} {p : Plan} {first last : Cursor} {marks : Marks}
    (h : run stop p (fun c marks => some (c, marks)) first [] = some (last, marks)) :
    p.Matches stop (first, []) (last, marks) := by
  obtain ⟨s, hs, hsame⟩ := follows_run p stop h
  obtain rfl : s = (last, marks) := Option.some.inj hsame
  exact hs

theorem exists_matches_of_mem_scanFrom {stop fuel : Nat} {needs : List CharSet}
    {ended : Option Nat} {c : Cursor} (h : m ∈ scanFrom stop needs r ended fuel c) :
    ∃ first last marks, r.plan.Matches stop (first, []) (last, marks) ∧
      m = ⟨⟨first.offset, last.offset⟩, captures r first last marks⟩ := by
  induction fuel generalizing ended c with
  | zero => simp [scanFrom] at h
  | succ fuel ih =>
    rw [scanFrom] at h
    split at h
    · simp at h
    · next first last marks hfound =>
      have hmatches : r.plan.Matches stop (first, []) (last, marks) :=
        matches_of_run (run_of_firstFrom (Option.ite_none_right_eq_some.1 hfound).2).2
      split at h
      · split at h
        · exact ih h
        · simp at h
      · rcases List.mem_cons.1 h with rfl | h
        · exact ⟨first, last, marks, hmatches, rfl⟩
        · exact ih h

/-- A match in a text is a way in which the plan can match, with what the marks say is captured. -/
theorem exists_matches_of_mem_scan (h : m ∈ r.scan text) :
    ∃ first last marks, r.plan.Matches text.byteLength (first, []) (last, marks) ∧
      m = ⟨⟨first.offset, last.offset⟩, captures r first last marks⟩ :=
  exists_matches_of_mem_scanFrom h

/-- The matches of a regular expression as a compiled pattern are its own. -/
theorem scan_compiled (r : Regex) (text : Text) : r.compiled.scan text = r.scan text := by
  simp only [CompiledPattern.scan, compiled, search, List.filterMap_map]
  refine (List.filterMap_congr (g := some) fun m hm => ?_).trans List.filterMap_some
  obtain ⟨first, last, marks, -, rfl⟩ := exists_matches_of_mem_scan hm
  rfl

/-- What is compiled is a regular expression that has been read. -/
theorem compile_eq_ok_iff {source : Text} {c : CompiledPattern} :
    compiler.compile source = .ok c ↔ ∃ r, parse source = .ok r ∧ r.compiled = c := by
  change ((parse source).map compiled).mapError Error.message = .ok c ↔ _
  cases parse source <;> simp [Except.map, Except.mapError]

end Cascade.Regex
