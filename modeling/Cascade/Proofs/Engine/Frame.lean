import Cascade.Proofs.Engine.Semantics
import Cascade.Proofs.Tree.Steps

/-!
# What a part of a parse leaves alone

A task works below one node. It adds nodes, but leaves all nodes alone that were there before, its
own node apart, and of its own node it changes only what it is there to change.

* `Frame`: what is left alone below a node, and `Frame.trans` for one part behind the other.
* `Runs.frame`: the frame of a task.
-/

namespace Cascade

/-- What is left alone on the way from `t` to `t'` by work below the node `p`; of `p` itself, at
least what `mask` does not hide. -/
structure Frame (p : NodeId) (mask : Node → Node) (t t' : Tree) : Prop where
  /-- No node is lost. -/
  size_le : t.size ≤ t'.size
  /-- The other nodes stay as they are. -/
  node_eq : ∀ i < t.size, i ≠ p → t'.node i = t.node i
  /-- The node keeps what is not hidden. -/
  mask_eq : mask (t'.node p) = mask (t.node p)
  /-- Children of the node are only added, and those that are added are new. -/
  children : ∀ i ∈ (t'.node p).children, i ∈ (t.node p).children ∨ t.size ≤ i ∧ i < t'.size

namespace Frame

variable {p id : NodeId} {mask mask' : Node → Node} {t t₁ t₂ : Tree}

theorem refl (p : NodeId) (mask : Node → Node) (t : Tree) : Frame p mask t t :=
  ⟨le_rfl, fun _ _ _ => rfl, rfl, fun _ => .inl⟩

theorem trans (h : Frame p mask t t₁) (h' : Frame p mask t₁ t₂) : Frame p mask t t₂ where
  size_le := h.size_le.trans h'.size_le
  node_eq i hi hip := (h'.node_eq i (hi.trans_le h.size_le) hip).trans (h.node_eq i hi hip)
  mask_eq := h'.mask_eq.trans h.mask_eq
  children i hi := by
    rcases h'.children i hi with hi | hi
    · rcases h.children i hi with hi | hi
      · exact .inl hi
      · exact .inr ⟨hi.1, hi.2.trans_le h'.size_le⟩
    · exact .inr ⟨h.size_le.trans hi.1, hi.2⟩

/-- A mask that hides more. -/
theorem mono (h : Frame p mask t t₁) (hmask : ∀ n n', mask n = mask n' → mask' n = mask' n') :
    Frame p mask' t t₁ :=
  { h with mask_eq := hmask _ _ h.mask_eq }

/-- Work below a new node is work below any node that was there before. -/
theorem inner (h : Frame p mask t t₁) (h' : Frame id mask' t₁ t₂) (hp : p < t.size)
    (hid : t.size ≤ id) : Frame p mask t t₂ := by
  -- no node of `t` is the one that the second part works below
  have hnode (i : NodeId) (hi : i < t.size) : t₂.node i = t₁.node i :=
    h'.node_eq i (hi.trans_le h.size_le) (hi.trans_le hid).ne
  refine ⟨h.size_le.trans h'.size_le, fun i hi hip => ?_, ?_, fun i hi => ?_⟩
  · rw [hnode i hi, h.node_eq i hi hip]
  · rw [hnode p hp, h.mask_eq]
  · rw [hnode p hp] at hi
    exact (h.children i hi).imp_right (And.imp_right (·.trans_le h'.size_le))

/-- A change of the one node that leaves its children alone. -/
theorem of_update (hsize : t₁.size = t.size) (hnode : ∀ i, i ≠ p → t₁.node i = t.node i)
    (hmask : mask (t₁.node p) = mask (t.node p))
    (hchildren : (t₁.node p).children = (t.node p).children) : Frame p mask t t₁ :=
  ⟨hsize.ge, fun i _ hi => hnode i hi, hmask, fun _ hi => .inl (hchildren ▸ hi)⟩

/-- Work that starts with the node of a match does not lose it. -/
theorem lt_size_of_addMatch {child : Rule} {m : Match}
    (h : Frame id mask (Engine.addMatch t p child m) t₁) : t.size < t₁.size := by
  have hle := h.size_le
  rwa [Tree.size_addMatch] at hle

end Frame

/-- A node without what changes while it is resolved. -/
def Node.core (n : Node) : Node :=
  { n with modified := [], working := [], localState := .empty, children := [] }

/-- A node without what changes while its children are searched for. -/
def Node.withoutWork (n : Node) : Node :=
  { n with working := [], children := [] }

/-- A node without its children. -/
def Node.childless (n : Node) : Node :=
  { n with children := [] }

theorem Node.withoutWork_eq_of_childless_eq {n n' : Node} (h : n.childless = n'.childless) :
    n.withoutWork = n'.withoutWork := by
  have hwork := congrArg withoutWork h
  exact hwork

theorem Node.core_eq_of_withoutWork_eq {n n' : Node} (h : n.withoutWork = n'.withoutWork) :
    n.core = n'.core := by
  have hcore := congrArg core h
  exact hcore

theorem Node.fixed_eq_of_core_eq {n n' : Node} (h : n.core = n'.core) : n.fixed = n'.fixed := by
  have hfixed := congrArg Node.fixed h
  exact hfixed

namespace Engine

open Cascade.Tree

namespace Task

/-- The node below which a task works. -/
def id : Task → NodeId
  | node id _ => id
  | search p _ => p
  | resolve p _ _ => p

/-- What a task does not change in its own node. -/
def mask : Task → Node → Node
  | node _ _ => Node.core
  | search _ _ => Node.withoutWork
  | resolve _ _ _ => Node.childless

/-- The node of a task is there, and is still without children if it is to be resolved. -/
def Ready (task : Task) (t : Tree) : Prop :=
  task.id < t.size ∧ match task with
    | node id _ => (t.node id).children = []
    | _ => True

variable {t : Tree} {p : NodeId} {child : Rule} {states : States}

/-- The node of a match is ready to be resolved. -/
theorem ready_addMatch {m : Match} (hp : p < t.size) :
    (Task.node t.size child).Ready (addMatch t p child m) := by
  refine ⟨by simp [Task.id], ?_⟩
  simp [node_addMatch hp, matchNode, Node.fresh]

/-- The text of a node may be searched when its modified text has been set. -/
theorem ready_setModified {rules : List RuleId} {text : Text} (hp : p < t.size) :
    (Task.search p rules).Ready ((View.withStates ⟨t, p⟩ states).setModified p text) :=
  ⟨by simpa [Task.id] using hp, trivial⟩

/-- The text of a node may be searched again when a pass has set it. -/
theorem ready_setWorking {rules : List RuleId} {text : Text} (hp : p < t.size) :
    (Task.search p rules).Ready (t.setWorking p text) :=
  ⟨by simpa [Task.id] using hp, trivial⟩

/-- Further matches may be resolved when one has been replaced. -/
theorem ready_withStates {id : NodeId} {found : List Match} (hp : p < t.size) :
    (Task.resolve p child found).Ready (View.withStates ⟨t, id⟩ states) :=
  ⟨by simpa [Task.id] using hp, trivial⟩

end Task

variable {g : Grammar} {levels : Nat} {task : Task} {t t' : Tree} {events : List Event}
  {edits : List (Span × Text)}

theorem frame_withStates {id : NodeId} (h : id < t.size) (states : States) :
    Frame id Node.core t (View.withStates ⟨t, id⟩ states) :=
  .of_update View.size_withStates (fun _ hi => View.node_withStates_of_ne hi)
    (by rw [View.node_withStates_self (v := ⟨t, id⟩) h]; rfl)
    (by rw [View.node_withStates_self (v := ⟨t, id⟩) h])

theorem frame_setModified {id : NodeId} {text : Text} (h : id < t.size) :
    Frame id Node.core t (t.setModified id text) :=
  .of_update size_setModified (fun _ hi => node_setModified_of_ne hi)
    (by rw [node_setModified_self h]; rfl) (by rw [node_setModified_self h])

theorem frame_setWorking {id : NodeId} {text : Text} (h : id < t.size) :
    Frame id Node.withoutWork t (t.setWorking id text) :=
  .of_update size_setWorking (fun _ hi => node_setWorking_of_ne hi)
    (by rw [node_setWorking_self h]; rfl) (by rw [node_setWorking_self h])

/-- Ordering the children of a node that had none at first changes new nodes only. -/
theorem frame_linkChildren {id : NodeId} {t₁ : Tree} (h : Frame id Node.core t t₁)
    (hid : id < t.size) (hchildren : (t.node id).children = []) :
    Frame id Node.core t (t₁.linkChildren id) := by
  -- links are set in the children, and these have all been added on the way
  have hnew (i : NodeId) (hi : i ∈ (t₁.node id).children) : t.size ≤ i ∧ i < t₁.size := by
    simpa [hchildren] using h.children i hi
  have hself : id ∉ (t₁.node id).children := fun hi => absurd (hnew id hi).1 hid.not_ge
  have hlink := node_linkChildren_self (hid.trans_le h.size_le) hself
  refine ⟨by simpa using h.size_le, fun i hi hne => ?_, ?_, fun i hi => ?_⟩
  · have hc : i ∉ (t₁.node id).children := fun hc => absurd (hnew i hc).1 hi.not_ge
    rw [node_linkChildren_of_not_mem hne hc, h.node_eq i hi hne]
  · rw [hlink, ← h.mask_eq]
    rfl
  · rw [hlink] at hi
    exact .inr (by simpa using hnew i ((sortByStart_perm _).mem_iff.1 hi))

theorem frame_addMatch {p : NodeId} {child : Rule} {m : Match} (hp : p < t.size) :
    Frame p Node.childless t (addMatch t p child m) := by
  refine ⟨by simp, fun i hi hip => ?_, ?_, fun i hi => ?_⟩
  · rw [node_addMatch hp, if_neg hi.ne, if_neg hip]
  · rw [node_addMatch hp, if_neg hp.ne, if_pos rfl]
    rfl
  · rw [node_addMatch hp, if_neg hp.ne, if_pos rfl] at hi
    rcases List.mem_append.1 hi with hi | hi
    · exact .inl hi
    · obtain rfl : i = t.size := by simpa using hi
      exact .inr (by simp)

/-- A task leaves alone what is not its own. -/
theorem Runs.frame (h : Runs g levels task t events edits t') (hready : task.Ready t) :
    Frame task.id task.mask t t' := by
  -- the larger the task, the more its mask hides, so the frame of each part is one of the whole
  induction h with
  | @node levels id rule t t₁ t₂ t₃ text events hcapture _ hresolve ih =>
    obtain ⟨s₁, -, rfl⟩ := hcapture
    obtain ⟨s₃, -, rfl⟩ := hresolve
    obtain ⟨hid, hchildren⟩ : id < t.size ∧ (t.node id).children = [] := hready
    have hcaptured : Frame id Node.core t ((View.withStates ⟨t, id⟩ s₁).setModified id text) :=
      (frame_withStates hid s₁).trans (frame_setModified (by simpa using hid))
    have hsearched : Frame id Node.withoutWork _ t₂ := ih ⟨hid.trans_le hcaptured.size_le, trivial⟩
    have hlinked := frame_linkChildren
      (hcaptured.trans (hsearched.mono fun _ _ => Node.core_eq_of_withoutWork_eq)) hid hchildren
    exact hlinked.trans (frame_withStates (hid.trans_le hlinked.size_le) s₃)
  | searchNil => exact .refl ..
  | searchSkip _ _ ih => exact ih hready
  | @searchPass levels p id ids child pattern t t₁ t₂ events later edits _ _ _ ih ih' =>
    obtain ⟨hp, -⟩ : p < t.size ∧ True := hready
    have hresolved : Frame p Node.childless t t₁ := ih ⟨hp, trivial⟩
    have hp₁ : p < t₁.size := hp.trans_le hresolved.size_le
    have hmatched : Frame p Node.withoutWork t t₁ :=
      hresolved.mono fun _ _ => Node.withoutWork_eq_of_childless_eq
    exact (hmatched.trans (frame_setWorking hp₁)).trans
      (ih' (Task.ready_setWorking hp₁))
  | resolveNil => exact .refl ..
  | @resolveCons levels p child m found t t₁ t₂ t₃ replacement events later edits _ hsub _ ih ih' =>
    obtain ⟨s, -, rfl⟩ := hsub
    obtain ⟨hp, -⟩ : p < t.size ∧ True := hready
    have hnode : Frame t.size Node.core (addMatch t p child m) t₁ := ih (Task.ready_addMatch hp)
    have hid : t.size < t₁.size := hnode.lt_size_of_addMatch
    -- for the parent, all of this happens below a node that has just been added
    have hsubstituted := hnode.trans (frame_withStates hid s)
    have hmatch : Frame p Node.childless t _ := (frame_addMatch hp).inner hsubstituted hp le_rfl
    exact hmatch.trans (ih' ⟨hp.trans_le hmatch.size_le, trivial⟩)

end Engine

end Cascade
