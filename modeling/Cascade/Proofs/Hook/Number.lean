import Cascade.Proofs.Tree.Renumber
import Cascade.Script

/-!
# Hooks that do not read the numbers of rules

Such a hook does the same where the numbers of rules are replaced by other ones, no two by the same.
The hooks that keep and mask texts are of this kind, and so are those of templates and scripts.

* `HookM.IgnoresNumbers`: the hooks, closed under putting parts together.
* `Script.ignoresNumbers_run`, `Replacement.ignoreNumbers_hooks`: scripts and templates.
-/

namespace Cascade

namespace HookM

variable {α β : Type}

/-- A hook does the same where the numbers of rules are replaced by other ones. -/
def IgnoresNumbers (hook : HookM α) : Prop :=
  ∀ f : RuleId → RuleId, f.Injective → ∀ v s,
    (hook.run (v.renumber f)).run s = (hook.run v).run s

/-- A hook that does not even read its view. -/
theorem ignoresNumbers_of_forall {hook : HookM α} (h : ∀ v v', hook.run v = hook.run v') :
    hook.IgnoresNumbers := by
  intro f _ v s
  rw [h _ v]

/-- A hook that does nothing sees no numbers. -/
theorem ignoresNumbers_pure (a : α) : IgnoresNumbers (pure a : HookM α) :=
  ignoresNumbers_of_forall fun _ _ => rfl

/-- A hook sees no numbers in its states. -/
theorem ignoresNumbers_get : IgnoresNumbers (get : HookM States) :=
  ignoresNumbers_of_forall fun _ _ => rfl

/-- A hook that fails sees no numbers. -/
theorem ignoresNumbers_fail (message : Text) : IgnoresNumbers (fail message : HookM α) :=
  ignoresNumbers_of_forall fun _ _ => rfl

/-- One hook behind another sees no numbers if neither does. -/
theorem IgnoresNumbers.bind {hook : HookM α} {k : α → HookM β} (h : hook.IgnoresNumbers)
    (hk : ∀ a, (k a).IgnoresNumbers) : (hook >>= k).IgnoresNumbers := by
  intro f hf v s
  have hsplit (v : View) : ((hook >>= k).run v).run s =
      (hook.run v).run s >>= fun r => ((k r.1).run v).run r.2 := rfl
  rw [hsplit, hsplit, h f hf]
  exact congrArg (_ >>= ·) (funext fun r => hk r.1 f hf v r.2)

/-- What is read of a view may not depend on numbers. -/
theorem ignoresNumbers_read_bind {k : View → HookM α} (h : ∀ v, (k v).IgnoresNumbers)
    (hread : ∀ f v, k (v.renumber f) = k v) : IgnoresNumbers (read >>= k) := by
  intro f hf v s
  have hrun (v : View) : ((read >>= k : HookM α).run v).run s = ((k v).run v).run s := rfl
  rw [hrun, hrun, hread, h v f hf]

/-- A hook sees no numbers in its node if it does not depend on that of the rule. -/
theorem ignoresNumbers_node_bind {k : Node → HookM α} (h : ∀ n, (k n).IgnoresNumbers)
    (hread : ∀ n, k n.unnumbered = k n) : IgnoresNumbers (node >>= k) :=
  ignoresNumbers_read_bind (fun v => h v.node) fun _ _ => View.field_renumber _ hread

end HookM

/-- Hooks none of which reads the numbers of rules. -/
structure Hooks.IgnoreNumbers (h : Hooks) : Prop where
  capture : h.onCapture.IgnoresNumbers
  substitute : h.onSubstitute.IgnoresNumbers
  resolve : h.onResolve.IgnoresNumbers

open HookM

/-- Hooks that do nothing see no numbers. -/
theorem Hooks.ignoreNumbers_identity : Hooks.identity.IgnoreNumbers :=
  ⟨ignoresNumbers_node_bind (fun _ => ignoresNumbers_pure _) fun _ => rfl,
    ignoresNumbers_node_bind (fun _ => ignoresNumbers_pure _) fun _ => rfl, ignoresNumbers_pure _⟩

namespace Replacement

/-- A template sees no numbers. -/
theorem ignoresNumbers_capture (template? : Option Text) : (capture template?).IgnoresNumbers := by
  cases template? with
  | none => exact Hooks.ignoreNumbers_identity.capture
  | some template =>
    refine ignoresNumbers_node_bind (fun n => ?_) fun _ => rfl
    cases n.captures? with
    | none => exact ignoresNumbers_pure _
    | some captures =>
      dsimp only
      split
      · exact ignoresNumbers_pure _
      · exact ignoresNumbers_fail _

/-- The hooks of a template do not read the numbers of rules. -/
theorem ignoreNumbers_hooks (template? : Option Text) (inline : Bool) :
    (hooks template? inline).IgnoreNumbers := by
  refine ⟨ignoresNumbers_capture template?, ?_, ignoresNumbers_pure _⟩
  cases inline
  · exact Hooks.ignoreNumbers_identity.substitute
  · exact ignoresNumbers_node_bind (fun _ => ignoresNumbers_pure _) fun _ => rfl

end Replacement

namespace Script

variable {f : RuleId → RuleId}

/-- The same node is looked up, whatever the numbers of rules. -/
theorem node?_renumber (target : Target) (v : View) :
    target.node? (v.renumber f) = target.node? v := by
  cases target with
  | self | root => rfl
  | parent => exact View.field_renumber Node.parent? fun _ => rfl
  | previous => exact View.field_renumber Node.previous? fun _ => rfl
  | next => exact View.field_renumber Node.next? fun _ => rfl
  | first => exact View.field_renumber (fun n => n.children.head?) fun _ => rfl
  | last => exact View.field_renumber (fun n => n.children.getLast?) fun _ => rfl

/-- The fields of a node do not depend on the numbers of rules. -/
theorem text_renumber (t : Tree) (id : NodeId) (field : Field) :
    field.text (t.renumber f) id = field.text t id := by
  have hnode {β : Type} (field : Node → β) (hfield : ∀ n, field n.unnumbered = field n)
      (i : NodeId) : field ((t.renumber f).node i) = field (t.node i) :=
    Tree.field_node_renumber field hfield i
  cases field with
  | id => rfl
  | childTexts =>
    simp only [Field.text, hnode Node.children fun _ => rfl,
      hnode Node.matched fun _ => rfl]
  | unmasked => exact Tree.unmasked_renumber t id
  | rendered => exact Tree.rendered_renumber t id
  | nodes => exact congrArg Text.decimal Tree.size_renumber
  | matched => exact hnode Node.matched (fun _ => rfl) id
  | modified => exact hnode Node.modified (fun _ => rfl) id
  | working => exact hnode Node.working (fun _ => rfl) id
  | token => exact hnode (fun n => n.token?.getD []) (fun _ => rfl) id
  | rule => exact hnode (fun n => n.rule.name) (fun _ => rfl) id
  | span =>
    exact hnode (fun n =>
      Text.decimal n.span.start ++ ['.', '.'] ++ Text.decimal n.span.stop) (fun _ => rfl) id
  | children => exact hnode (fun n => Text.decimal n.children.length) (fun _ => rfl) id

/-- A node is shown to people without the number of its rule. -/
theorem nodeDebug_renumber (t : Tree) (id : NodeId) :
    (t.renumber f).nodeDebug id = t.nodeDebug id := by
  have hname : ((t.renumber f).node id).rule.name = (t.node id).rule.name :=
    Tree.field_node_renumber (fun n => n.rule.name) (fun _ => rfl) id
  have hspan : ((t.renumber f).node id).span = (t.node id).span :=
    Tree.field_node_renumber Node.span (fun _ => rfl) id
  have hworking : ((t.renumber f).node id).working = (t.node id).working :=
    Tree.field_node_renumber Node.working (fun _ => rfl) id
  unfold Tree.nodeDebug
  dsimp only
  rw [hname, hspan, hworking]

/-- Looking up a value sees no numbers. -/
theorem ignoresNumbers_lookUp (target : Target) (field : Field) :
    (lookUp target field).IgnoresNumbers := by
  refine ignoresNumbers_read_bind (fun _ => ignoresNumbers_pure _) fun f v => ?_
  rw [node?_renumber]
  cases target.node? v with
  | none => rfl
  | some id => exact congrArg pure (text_renumber v.tree id field)

/-- A condition that is tested sees no numbers. -/
theorem ignoresNumbers_holds (text : Text) (condition : Condition) :
    (condition.holds text).IgnoresNumbers := by
  cases condition with
  | group => exact ignoresNumbers_node_bind (fun _ => ignoresNumbers_pure _) fun _ => rfl
  | ownFlag | globalFlag => exact ignoresNumbers_get.bind fun _ => ignoresNumbers_pure _
  | _ => exact ignoresNumbers_pure _

/-- A stage of hooks that see no numbers sees none. -/
theorem ignoresNumbers_runHooks {hooks : Hooks} (h : hooks.IgnoreNumbers) (stage : Stage)
    (text : Text) : (runHooks hooks stage text).IgnoresNumbers := by
  cases stage with
  | capture => exact h.capture
  | substitute => exact h.substitute
  | resolve => exact h.resolve.bind fun _ => ignoresNumbers_pure _

/-- One step of a script sees no numbers. -/
theorem ignoresNumbers_step (stage : Stage) (text : Text) (action : Action) :
    (action.step stage text).IgnoresNumbers := by
  cases action with
  | number =>
    simp only [Action.step]
    split
    · exact ignoresNumbers_pure _
    · exact ignoresNumbers_fail _
  | load target field => exact ignoresNumbers_lookUp target field
  | add target field =>
    exact (ignoresNumbers_lookUp target field).bind fun _ => ignoresNumbers_pure _
  | group | capture =>
    exact ignoresNumbers_node_bind (fun _ => ignoresNumbers_pure _) fun _ => rfl
  | unmask =>
    exact ignoresNumbers_read_bind (fun _ => ignoresNumbers_pure _) fun _ v =>
      congrArg pure (Tree.unmask_renumber v.tree text)
  | debug =>
    exact ignoresNumbers_read_bind (fun _ => ignoresNumbers_pure _) fun _ v =>
      congrArg pure (nodeDebug_renumber v.tree v.id)
  | default => exact ignoresNumbers_runHooks Hooks.ignoreNumbers_identity stage text
  | template replacement? inline =>
    exact ignoresNumbers_runHooks (Replacement.ignoreNumbers_hooks replacement? inline) stage text
  | _ => exact ignoresNumbers_of_forall fun _ _ => rfl

mutual

/-- An action of a script sees no numbers, however often its steps are repeated. -/
theorem ignoresNumbers_runAction (stage : Stage) (text : Text) (action : Action) :
    (runAction stage text action).IgnoresNumbers := by
  cases action with
  | branch condition yes no =>
    rw [runAction]
    refine (ignoresNumbers_holds text condition).bind fun b => ?_
    cases b
    · exact ignoresNumbers_runFrom stage text no
    · exact ignoresNumbers_runFrom stage text yes
  | _ =>
    rw [runAction]
    · exact ignoresNumbers_step stage text _
    · simp

/-- The actions of a script see no numbers, one after the other. -/
theorem ignoresNumbers_runFrom (stage : Stage) (text : Text) (actions : List Action) :
    (runFrom stage text actions).IgnoresNumbers := by
  cases actions with
  | nil =>
    rw [runFrom]
    exact ignoresNumbers_pure text
  | cons action rest =>
    rw [runFrom]
    exact (ignoresNumbers_runAction stage text action).bind fun text =>
      ignoresNumbers_runFrom stage text rest

end

/-- A script has no way to read the numbers of rules. -/
theorem ignoresNumbers_run (stage : Stage) (script : Script) :
    (script.run stage).IgnoresNumbers :=
  ignoresNumbers_runFrom stage [] script

end Script

/-- The hooks that scripts make do not read the numbers of rules. -/
theorem Scripts.ignoreNumbers_hooks (s : Scripts) : s.hooks.IgnoreNumbers := by
  obtain ⟨capture?, substitute?, resolve?⟩ := s
  refine ⟨?_, ?_, ?_⟩
  · cases capture? with
    | none => exact Hooks.ignoreNumbers_identity.capture
    | some script => exact Script.ignoresNumbers_run .capture script
  · cases substitute? with
    | none => exact Hooks.ignoreNumbers_identity.substitute
    | some script => exact Script.ignoresNumbers_run .substitute script
  · cases resolve? with
    | none => exact Hooks.ignoreNumbers_identity.resolve
    | some script =>
      exact (Script.ignoresNumbers_run .resolve script).bind fun _ => ignoresNumbers_pure _

end Cascade
