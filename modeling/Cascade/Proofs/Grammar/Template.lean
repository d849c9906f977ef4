import Cascade.Grammar.Replacement
import Cascade.Proofs.Engine.Semantics
import Cascade.Script

/-!
# What the hooks of templates do

The hooks of a rule that is given by a template read the node they are called for, and leave all
states alone.

* `succeeds_capture`, `succeeds_substitute`: the texts that they give.
* `Hooks.IsIdentity`: the hooks that keep the matched text.
-/

namespace Cascade

variable {v : View} {text : Text} {t : Tree} {template? : Option Text} {inline : Bool}

theorem keepText_succeeds_iff :
    Hooks.keepText.Succeeds v text t ↔ text = v.node.matched ∧ t = v.withStates v.states := by
  have hkeep : (Hooks.keepText.run v).run v.states = .ok (v.node.matched, v.states) := rfl
  constructor
  · rintro ⟨states, hrun, rfl⟩
    rw [hkeep] at hrun
    obtain ⟨rfl, rfl⟩ : v.node.matched = text ∧ v.states = states := by simpa using hrun
    exact ⟨rfl, rfl⟩
  · rintro ⟨rfl, rfl⟩
    exact ⟨v.states, hkeep, rfl⟩

theorem succeeds_keepText (h : Hooks.keepText.Succeeds v text t) : text = v.node.matched :=
  (keepText_succeeds_iff.1 h).1

theorem succeeds_maskText (h : Hooks.maskText.Succeeds v text t) :
    text = v.node.token?.getD [] := by
  obtain ⟨states, hrun, -⟩ := h
  have hmask : (Hooks.maskText.run v).run v.states = .ok (v.node.token?.getD [], v.states) := rfl
  rw [hmask] at hrun
  exact (congrArg Prod.fst (Except.ok.inj hrun)).symm

/-- A rule that is inline substitutes the working text, and any other the token. -/
theorem succeeds_substitute (h : (Replacement.substitute inline).Succeeds v text t) :
    text = if inline then v.node.working else v.node.token?.getD [] := by
  cases inline with
  | false => exact succeeds_maskText h
  | true =>
    obtain ⟨states, hrun, -⟩ := h
    have hwork : ((Replacement.substitute true).run v).run v.states =
        .ok (v.node.working, v.states) := rfl
    rw [hwork] at hrun
    exact (congrArg Prod.fst (Except.ok.inj hrun)).symm

/-- The hook with a template runs by whether its node has captures and whether the template can be
expanded. -/
theorem run_capture (v : View) (template : Text) :
    ((Replacement.capture (some template)).run v).run v.states =
      match v.node.captures? with
      | none => .ok (template, v.states)
      | some captures =>
        match Replacement.expand? (Replacement.groupText captures) template with
        | some text => .ok (text, v.states)
        | none => .error (Replacement.unclosedMessage template) := by
  -- reading the node changes no state, so the states in the end are those at the start
  have hbind : ((Replacement.capture (some template)).run v).run v.states =
      ((match v.node.captures? with
        | none => return template
        | some captures =>
          match Replacement.expand? (Replacement.groupText captures) template with
          | some text => return text
          | none => HookM.fail (Replacement.unclosedMessage template) : HookM Text).run v).run
        v.states := rfl
  rw [hbind]
  cases v.node.captures? with
  | none => rfl
  | some captures =>
    simp only
    cases Replacement.expand? (Replacement.groupText captures) template <;> rfl

/-- The modified text is the matched text, the template itself, or what the template stands for. -/
theorem succeeds_capture (h : (Replacement.capture template?).Succeeds v text t) :
    template? = none ∧ text = v.node.matched ∨
      ∃ template, template? = some template ∧
        (v.node.captures? = none ∧ text = template ∨
          ∃ captures, v.node.captures? = some captures ∧
            Replacement.expand? (Replacement.groupText captures) template = some text) := by
  cases template? with
  | none => exact .inl ⟨rfl, succeeds_keepText h⟩
  | some template =>
    obtain ⟨states, hrun, -⟩ := h
    rw [run_capture] at hrun
    refine .inr ⟨template, rfl, ?_⟩
    split at hrun
    · next hcaptures =>
      exact .inl ⟨hcaptures, (congrArg Prod.fst (Except.ok.inj hrun)).symm⟩
    · next captures hcaptures =>
      split at hrun
      · next expanded hexpand =>
        obtain ⟨rfl, -⟩ : expanded = text ∧ v.states = states := by simpa using hrun
        exact .inr ⟨captures, hcaptures, hexpand⟩
      · contradiction

/-- The hooks that keep the matched text: those of a rule without hooks of its own, those of a rule
without scripts, and those of a rule without a template. -/
inductive Hooks.IsIdentity : Hooks → Prop where
  | default : IsIdentity .identity
  | unscripted : IsIdentity (Scripts.hooks ⟨none, none, none⟩)
  | untemplated (inline : Bool) : IsIdentity (Replacement.hooks none inline)

namespace Hooks.IsIdentity

variable {hooks : Hooks}

theorem eq_matched (h : hooks.IsIdentity) (hcapture : hooks.onCapture.Succeeds v text t) :
    text = v.node.matched := by
  cases h with
  | default => exact succeeds_keepText hcapture
  | unscripted => exact succeeds_keepText hcapture
  | untemplated inline => exact succeeds_keepText hcapture

theorem eq_working_or_token (h : hooks.IsIdentity)
    (hsubstitute : hooks.onSubstitute.Succeeds v text t) :
    text = v.node.working ∨ text = v.node.token?.getD [] := by
  cases h with
  | default => exact .inr (succeeds_maskText hsubstitute)
  | unscripted => exact .inr (succeeds_maskText hsubstitute)
  | untemplated inline =>
    have hsubstituted : text = if inline then v.node.working else v.node.token?.getD [] :=
      succeeds_substitute hsubstitute
    split at hsubstituted
    · exact .inl hsubstituted
    · exact .inr hsubstituted

end Hooks.IsIdentity

end Cascade
