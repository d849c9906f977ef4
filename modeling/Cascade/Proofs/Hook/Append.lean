import Cascade.Proofs.State.Entries
import Cascade.Script

/-!
# Hooks that only append to states

A hook that changes states with the operations of hooks only, whatever else it does, appends entries
to the state of its node and to that of the parse, and takes none away.

* `HookM.Appends`: hooks that only append, closed under putting parts together.
* `Script.appends_run`, `Replacement.append_hooks`: scripts and templates only append.
-/

namespace Cascade

namespace HookM

variable {α β : Type}

/-- A hook that succeeds leaves states with entries appended to those that it has found. -/
def Appends (hook : HookM α) : Prop :=
  ∀ v s a s', (hook.run v).run s = .ok (a, s') →
    ∃ own global, s' = ⟨s.own.putAll own, s.global.putAll global⟩

/-- A hook that always succeeds with entries appended. -/
theorem appends_of_run {hook : HookM α}
    (h : ∀ v s, ∃ a own global,
      (hook.run v).run s = .ok (a, ⟨s.own.putAll own, s.global.putAll global⟩)) : hook.Appends := by
  intro v s a s' hrun
  obtain ⟨a', own, global, hok⟩ := h v s
  obtain ⟨-, rfl⟩ := Prod.mk.inj (Except.ok.inj (hrun.symm.trans hok))
  exact ⟨own, global, rfl⟩

/-- A hook that does nothing appends nothing. -/
theorem appends_pure (a : α) : Appends (pure a : HookM α) :=
  appends_of_run fun _ _ => ⟨a, [], [], rfl⟩

theorem appends_read : Appends (read : HookM View) :=
  appends_of_run fun v _ => ⟨v, [], [], rfl⟩

theorem appends_get : Appends (get : HookM States) :=
  appends_of_run fun _ s => ⟨s, [], [], rfl⟩

/-- A value for the own state is appended to it. -/
theorem appends_putLocal (key : Text) (value : Json) : (putLocal key value).Appends :=
  appends_of_run fun _ _ => ⟨(), [(key, value)], [], rfl⟩

/-- A value for the global state is appended to it. -/
theorem appends_putGlobal (key : Text) (value : Json) : (putGlobal key value).Appends :=
  appends_of_run fun _ _ => ⟨(), [], [(key, value)], rfl⟩

/-- A sum for the own state is appended to it. -/
theorem appends_incrementLocal (key : Text) (delta : Int) : (incrementLocal key delta).Appends :=
  appends_of_run fun _ _ => ⟨_, [(key, _)], [], rfl⟩

/-- A sum for the global state is appended to it. -/
theorem appends_incrementGlobal (key : Text) (delta : Int) : (incrementGlobal key delta).Appends :=
  appends_of_run fun _ _ => ⟨_, [], [(key, _)], rfl⟩

/-- The flag that skips a rule is appended to the own state. -/
theorem appends_skipRule (rule : Text) : (skipRule rule).Appends :=
  appends_putLocal _ _

/-- The flag that skips all rules is appended to the own state. -/
theorem appends_skipAll : skipAll.Appends :=
  appends_putLocal _ _

/-- A hook that fails appends nothing. -/
theorem appends_fail (message : Text) : Appends (fail message : HookM α) :=
  fun _ _ _ _ h => nomatch (h : Except.error message = .ok _)

/-- Entries that are appended later come behind. -/
theorem Appends.bind {hook : HookM α} {f : α → HookM β} (h : hook.Appends)
    (hf : ∀ a, (f a).Appends) : (hook >>= f).Appends := by
  intro v s b s' hrun
  have hsplit : ((hook >>= f).run v).run s =
      (hook.run v).run s >>= fun r => ((f r.1).run v).run r.2 := rfl
  rw [hsplit] at hrun
  cases hfirst : (hook.run v).run s with
  | error message =>
    rw [hfirst] at hrun
    exact nomatch (hrun : Except.error message = .ok _)
  | ok result =>
    rw [hfirst] at hrun
    obtain ⟨own, global, hresult⟩ := h v s result.1 result.2 hfirst
    obtain ⟨own', global', rfl⟩ := hf result.1 v result.2 b s' hrun
    exact ⟨own ++ own', global ++ global', by simp [hresult]⟩

theorem appends_node : node.Appends :=
  appends_read.bind fun _ => appends_pure _

end HookM

/-- Hooks all three of which only append. -/
structure Hooks.Append (h : Hooks) : Prop where
  capture : h.onCapture.Appends
  substitute : h.onSubstitute.Appends
  resolve : h.onResolve.Appends

open HookM

/-- Hooks that do nothing append nothing. -/
theorem Hooks.append_identity : Hooks.identity.Append :=
  ⟨appends_node.bind fun _ => appends_pure _, appends_node.bind fun _ => appends_pure _,
    appends_pure _⟩

namespace Replacement

/-- A template reads no state and appends nothing. -/
theorem appends_capture (template? : Option Text) : (capture template?).Appends := by
  cases template? with
  | none => exact Hooks.append_identity.capture
  | some template =>
    refine appends_node.bind fun n => ?_
    cases n.captures? with
    | none => exact appends_pure _
    | some captures =>
      dsimp only
      split
      · exact appends_pure _
      · exact appends_fail _

/-- The hooks of a template append nothing. -/
theorem append_hooks (template? : Option Text) (inline : Bool) :
    (hooks template? inline).Append := by
  refine ⟨appends_capture template?, ?_, appends_pure _⟩
  cases inline
  · exact Hooks.append_identity.substitute
  · exact appends_node.bind fun _ => appends_pure _

end Replacement

namespace Script

/-- Looking up a value appends nothing. -/
theorem appends_lookUp (target : Target) (field : Field) : (lookUp target field).Appends :=
  appends_read.bind fun _ => appends_pure _

/-- A condition that is tested appends nothing. -/
theorem appends_holds (text : Text) (condition : Condition) : (condition.holds text).Appends := by
  cases condition with
  | group => exact appends_node.bind fun _ => appends_pure _
  | ownFlag | globalFlag => exact appends_get.bind fun _ => appends_pure _
  | _ => exact appends_pure _

/-- A stage of hooks that append only appends. -/
theorem appends_runHooks {hooks : Hooks} (h : hooks.Append) (stage : Stage) (text : Text) :
    (runHooks hooks stage text).Appends := by
  cases stage with
  | capture => exact h.capture
  | substitute => exact h.substitute
  | resolve => exact h.resolve.bind fun _ => appends_pure _

/-- One step of a script only appends. -/
theorem appends_step (stage : Stage) (text : Text) (action : Action) :
    (action.step stage text).Appends := by
  cases action with
  | number =>
    simp only [Action.step]
    split
    · exact appends_pure _
    · exact appends_fail _
  | load target field => exact appends_lookUp target field
  | add target field => exact (appends_lookUp target field).bind fun _ => appends_pure _
  | group | capture => exact appends_node.bind fun _ => appends_pure _
  | unmask | debug => exact appends_read.bind fun _ => appends_pure _
  | putLocal key value => exact (appends_putLocal key value).bind fun _ => appends_pure _
  | putGlobal key value => exact (appends_putGlobal key value).bind fun _ => appends_pure _
  | saveLocal key => exact (appends_putLocal key _).bind fun _ => appends_pure _
  | saveGlobal key => exact (appends_putGlobal key _).bind fun _ => appends_pure _
  | incrementLocal key delta =>
    exact (appends_incrementLocal key delta).bind fun _ => appends_pure _
  | incrementGlobal key delta =>
    exact (appends_incrementGlobal key delta).bind fun _ => appends_pure _
  | getLocal | getGlobal => exact appends_get.bind fun _ => appends_pure _
  | skip rule => exact (appends_skipRule rule).bind fun _ => appends_pure _
  | skipAll => exact appends_skipAll.bind fun _ => appends_pure _
  | fail | failWithText => exact appends_fail _
  | default => exact appends_runHooks Hooks.append_identity stage text
  | template replacement? inline =>
    exact appends_runHooks (Replacement.append_hooks replacement? inline) stage text
  | _ => exact appends_pure _

mutual

/-- An action of a script only appends, however often its steps are repeated. -/
theorem appends_runAction (stage : Stage) (text : Text) (action : Action) :
    (runAction stage text action).Appends := by
  cases action with
  | branch condition yes no =>
    rw [runAction]
    refine (appends_holds text condition).bind fun b => ?_
    cases b
    · exact appends_runFrom stage text no
    · exact appends_runFrom stage text yes
  | _ =>
    rw [runAction]
    · exact appends_step stage text _
    · simp

/-- The actions of a script only append, one after the other. -/
theorem appends_runFrom (stage : Stage) (text : Text) (actions : List Action) :
    (runFrom stage text actions).Appends := by
  cases actions with
  | nil =>
    rw [runFrom]
    exact appends_pure text
  | cons action rest =>
    rw [runFrom]
    exact (appends_runAction stage text action).bind fun text => appends_runFrom stage text rest

end

/-- Whatever a script does, it only appends to states. -/
theorem appends_run (stage : Stage) (script : Script) : (script.run stage).Appends :=
  appends_runFrom stage [] script

end Script

/-- The hooks that scripts make only append to states. -/
theorem Scripts.append_hooks (s : Scripts) : s.hooks.Append := by
  obtain ⟨capture?, substitute?, resolve?⟩ := s
  refine ⟨?_, ?_, ?_⟩
  · cases capture? with
    | none => exact Hooks.append_identity.capture
    | some script => exact Script.appends_run .capture script
  · cases substitute? with
    | none => exact Hooks.append_identity.substitute
    | some script => exact Script.appends_run .substitute script
  · cases resolve? with
    | none => exact Hooks.append_identity.resolve
    | some script => exact (Script.appends_run .resolve script).bind fun _ => appends_pure _

end Cascade
