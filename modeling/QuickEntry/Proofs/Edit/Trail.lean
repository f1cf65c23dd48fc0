import QuickEntry.Proofs.Edit.Command
import QuickEntry.Proofs.Edit.Move
import QuickEntry.Proofs.Edit.Variant
import QuickEntry.Proofs.Invariant

/-! Trails: lists of commands that lead from one canvas to another, and that lead back when they are
reverted. -/

namespace QuickEntry

variable {g : Grain} {again : Prop}

/-- Field commands of a node that lead from some fields to others. -/
inductive Refilled (g : Grain) (id : NodeId) :
    OrderedMap String String → List Command → OrderedMap String String → Prop
  /-- Fields that are alike need no commands. -/
  | alike {a b : OrderedMap String String} (same : g.Fields a b) : Refilled g id a [] b
  /-- A field is set or removed, and what was there can be put back. -/
  | put {a : OrderedMap String String} {name : String} {value : Option String}
      (back : g.Fields ((a.put name value).put name (a.get? name)) a) :
      Refilled g id a [.setField id name (a.get? name) value] (a.put name value)
  /-- One list of commands comes after the other. -/
  | append {a b c : OrderedMap String String} {before after : List Command}
      (first : Refilled g id a before b) (second : Refilled g id b after c) :
      Refilled g id a (before ++ after) c

namespace Workspace

/-- A detached node that is remade from a bare one by field commands is like it without any
commands, and otherwise has the shape that it derives. -/
structure Remade (g : Grain) (ws : Workspace) (bare full : Node) (sets : List Command) : Prop where
  unset : sets = [] → bare.Alike g full
  set : sets ≠ [] → ws.Steady g full

end Workspace

/-- One step from a canvas to another, with the commands that it logs. -/
inductive Turn (g : Grain) (again : Prop) : Canvas → List Command → Canvas → Prop
  /-- A bare node is created and gets its fields. -/
  | born {c : Canvas} {bare full : Node} {sets : List Command}
      (absent : c.workspace.node? full.id = none) (variant : bare.Variant full)
      (known : sets ≠ [] → ∃ kind, BlockKind.ofName? full.kind = some kind)
      (filled : Refilled g full.id bare.fields sets full.fields)
      (remade : again → c.workspace.Remade g bare full sets) :
      Turn g again c (.create bare :: sets) { c with workspace := c.workspace.added full }
  /-- A node loses its fields and is deleted. -/
  | gone {c : Canvas} {bare full : Node} {sets : List Command}
      (absent : c.workspace.node? full.id = none) (variant : bare.Variant full)
      (known : sets ≠ [] → ∃ kind, BlockKind.ofName? full.kind = some kind)
      (emptied : Refilled g full.id full.fields sets bare.fields)
      (remade : c.workspace.Remade g bare full sets) :
      Turn g again { c with workspace := c.workspace.added full } (sets ++ [.delete bare]) c
  /-- A node is moved. -/
  | moved {c : Canvas} {ws : Workspace} {child : NodeId} {source target : Option Link}
      (linked : c.workspace.Linked) (made : c.workspace.Moved child source target ws) :
      Turn g again c [.move child source target] { c with workspace := ws }
  /-- Another node is selected. -/
  | selected {c : Canvas} {id : Option NodeId} :
      Turn g again c [.select c.selection id] { c with selection := id }
  /-- A field of a node is set that has the shape that it derives; this cannot be made again. -/
  | changed {c : Canvas} {ws : Workspace} {id : NodeId} {n : Node} {name : String}
      {value old : Option String} (once : ¬again) (linked : c.workspace.Linked)
      (found : c.workspace.node? id = some n) (steady : c.workspace.Steady g n)
      (back : g.Fields ((n.fields.put name value).put name (n.field? name)) n.fields)
      (made : c.workspace.setField id name value = .ok (old, ws)) :
      Turn g again c [.setField id name old value] { c with workspace := ws }

/-- Steps from a canvas to another, with canvases that are alike taken for the same. -/
inductive Trail (g : Grain) (again : Prop) : Canvas → List Command → Canvas → Prop
  /-- Canvases that are alike need no commands. -/
  | alike {c c' : Canvas} (same : c.Alike g c') : Trail g again c [] c'
  /-- One step is made. -/
  | turn {c c' : Canvas} {commands : List Command} (made : Turn g again c commands c') :
      Trail g again c commands c'
  /-- One list of commands comes after the other. -/
  | append {a b c : Canvas} {before after : List Command} (first : Trail g again a before b)
      (second : Trail g again b after c) : Trail g again a (before ++ after) c

namespace Trail

/-- A trail may start from a like canvas. -/
theorem of_alike {a b c : Canvas} {commands : List Command} (same : a.Alike g b)
    (trail : Trail g again b commands c) : Trail g again a commands c :=
  -- What is alike needs no command.
  (Trail.alike same).append trail

/-- A trail may end at a like canvas. -/
theorem to_alike {a b c : Canvas} {commands : List Command} (trail : Trail g again a commands b)
    (same : b.Alike g c) : Trail g again a commands c := by
  -- No commands are added.
  have last : Trail g again b [] c := .alike same
  have longer := trail.append last
  rwa [List.append_nil] at longer

end Trail

/-- Commands are reverted one after the other, with the commands that make them again. -/
inductive Reverts (nesting : Nat) : List Command → Canvas → List Command → Canvas → Prop
  /-- There is nothing to revert. -/
  | nil {c : Canvas} : Reverts nesting [] c [] c
  /-- One command is reverted, and then the others. -/
  | cons {command redo : Command} {a b c : Canvas} {commands redos : List Command}
      (reverted : (Canvas.revertWithin nesting command).on a = (.ok redo, b))
      (others : Reverts nesting commands b redos c) :
      Reverts nesting (command :: commands) a (redo :: redos) c

namespace Reverts

variable {nesting : Nat} {a b c : Canvas} {before after before' after' : List Command}

/-- Commands are reverted after others. -/
theorem append (first : Reverts nesting before a before' b)
    (second : Reverts nesting after b after' c) :
    Reverts nesting (before ++ after) a (before' ++ after') c := by
  -- The first list is reverted command by command.
  induction first with
  | nil => exact second
  | cons reverted _ ih => exact .cons reverted (ih second)

/-- What is reverted one after the other is reverted as a whole. -/
theorem on_revertEach {commands redos : List Command} (reverts : Reverts nesting commands a redos c)
    (reverted : List Command) :
    (Canvas.revertEach (Canvas.revertWithin nesting) reverted commands).on a =
      (.ok (reverted.reverse ++ redos), c) := by
  -- No command is refused, so that nothing has to be made again.
  induction reverts generalizing reverted with
  | nil => simp [Canvas.revertEach]
  | cons made _ ih =>
    rename_i command redo a b c commands redos _
    have unfolded : Canvas.revertEach (Canvas.revertWithin nesting) reverted (command :: commands) =
        ((Canvas.revertWithin nesting command).orAfter
          (reverted.forM fun again => (Canvas.revertWithin nesting again).regardless)) >>=
          fun again => Canvas.revertEach (Canvas.revertWithin nesting) (again :: reverted)
            commands := rfl
    rw [unfolded, Attempt.on_bind, Attempt.on_orAfter, made]
    simpa using ih (redo :: reverted)

/-- What is reverted one after the other is reverted as a batch. -/
theorem on_revert {commands redos : List Command}
    (reverts : Reverts (Command.deepest commands) commands.reverse a redos c) :
    (Canvas.revert (.batch commands)).on a = (.ok (.batch redos), c) := by
  -- A batch reverts its members from the last to the first.
  have members := reverts.on_revertEach []
  have unfolded : Canvas.revert (.batch commands) =
      Canvas.revertEach (Canvas.revertWithin (Command.deepest commands)) [] commands.reverse >>=
        fun redos => pure (.batch redos) := rfl
  rw [unfolded, Attempt.on_bind, members]
  rfl

/-- Reverting commands keeps the graph well-formed. -/
theorem wellFormed {commands redos : List Command} (reverts : Reverts nesting commands a redos c)
    (wf : a.workspace.WellFormed) : c.workspace.WellFormed := by
  -- Reverting each command does.
  induction reverts with
  | nil => exact wf
  | cons made _ ih =>
    rename_i command redo a b c commands redos _
    have next := (Workspace.invariant_wellFormed.revertWithin nesting command).on wf
    rw [made] at next
    exact ih next

end Reverts

/-- Field commands lead from a detached node to a variant of it, which is the same node if there are
none, and otherwise has the shape that it derives. -/
structure Retouched (g : Grain) (ws : Workspace) (id : NodeId) (x : Node) (commands : List Command)
    (y : Node) : Prop where
  variant : x.Variant y
  refilled : Refilled g id x.fields commands y.fields
  unset : commands = [] → y = x
  set : commands ≠ [] → ws.Current y

namespace Retouched

variable {ws : Workspace} {id : NodeId} {x y z : Node}

/-- Without commands a node stays what it is. -/
theorem nil (detached : x.isDetached = true) : Retouched g ws id x [] x :=
  ⟨.refl detached, .alike (.refl _), fun _ => rfl, fun some => absurd rfl some⟩

/-- Setting a field of a detached node of a known kind succeeds and retouches the node. -/
theorem single (found : ws.node? id = some x) (detached : x.isDetached = true) {kind : BlockKind}
    (known : BlockKind.ofName? x.kind = some kind) (name : String) (value : Option String)
    (back : g.Fields ((x.fields.put name value).put name (x.field? name)) x.fields) :
    ∃ y, ws.setField id name value = .ok (x.field? name, ws.replaced id y) ∧
      Retouched g ws id x [.setField id name (x.field? name) value] y ∧
      y.fields = x.fields.put name value := by
  -- A node without connections always takes the new shape, so nothing can stand in the way.
  obtain ⟨y, made, variant, fields, current⟩ :=
    Workspace.setField_of_isDetached found detached known name value
  refine ⟨y, made, ⟨variant, ?_, ?_, fun _ => current⟩, fields⟩
  · rw [fields]
    exact .put back
  · intro none
    cases none

/-- A retouched node can be retouched further. -/
theorem append {before after : List Command} (found : ws.node? id = some x)
    (first : Retouched g ws id x before y)
    (second : Retouched g (ws.replaced id y) id y after z) :
    Retouched g ws id x (before ++ after) z := by
  refine ⟨first.variant.trans second.variant, first.refilled.append second.refilled, ?_, ?_⟩
  · intro none
    obtain ⟨empty, empty'⟩ := List.append_eq_nil_iff.mp none
    exact (second.unset empty').trans (first.unset empty)
  · intro some
    -- The last command decides the shape.
    by_cases empty : after = []
    · rw [second.unset empty]
      exact first.set fun none => some (by rw [none, empty]; rfl)
    · have kind := first.variant.kind
      rw [Workspace.Current, ← Workspace.shapeOf_replaced found kind
        (second.variant.kind.trans kind)]
      exact second.set empty

end Retouched

/-- Field commands of a node are reverted: from the node `x` with the fields after them to a node
`y` with the fields `a` before them, by way of commands that lead back again. -/
structure TakenBack (g : Grain) (nesting : Nat) (id : NodeId) (c : Canvas)
    (a : OrderedMap String String) (sets : List Command) (x : Node) (redos : List Command)
    (y : Node) : Prop where
  reverts : Reverts nesting sets.reverse c redos { c with workspace := c.workspace.replaced id y }
  fields : g.Fields a y.fields
  retouched : Retouched g c.workspace id x redos y
  empty : redos = [] ↔ sets = []

namespace TakenBack

variable {nesting : Nat} {id : NodeId} {c : Canvas} {a : OrderedMap String String} {x : Node}

/-- Where nothing was set, nothing is taken back. -/
theorem nil (found : c.workspace.node? id = some x) (detached : x.isDetached = true)
    (same : g.Fields a x.fields) : TakenBack g nesting id c a [] x [] x := by
  -- Nothing was changed, so the node is replaced by itself.
  refine ⟨?_, same, .nil detached, Iff.rfl⟩
  rw [Workspace.replaced_self found]
  exact .nil

/-- A field of a detached node gets its old value back, and the new one can be put in again. -/
theorem single {name : String} {value : Option String}
    (found : c.workspace.node? id = some x) (detached : x.isDetached = true) {kind : BlockKind}
    (known : BlockKind.ofName? x.kind = some kind)
    (back : g.Fields ((a.put name value).put name (a.get? name)) a)
    (same : g.Fields (a.put name value) x.fields) :
    ∃ y, TakenBack g nesting id c a [.setField id name (a.get? name) value] x
      [.setField id name value (a.get? name)] y := by
  have there : x.field? name = value := by
    rw [Node.field?, ← same.same name, OrderedMap.get?_put, if_pos rfl]
  -- Taking the value back restores the old fields, and putting it in again the new ones.
  have restored : g.Fields a (x.fields.put name (a.get? name)) :=
    back.symm.trans (same.put name _)
  have forth : g.Fields ((x.fields.put name (a.get? name)).put name (x.field? name)) x.fields := by
    rw [there]
    exact (restored.symm.put name value).trans same
  obtain ⟨y, made, retouched, fields⟩ :=
    Retouched.single found detached known name (a.get? name) forth
  rw [there] at retouched
  refine ⟨y, .cons (Canvas.on_revert_setField made) .nil, ?_, retouched, by simp⟩
  rw [fields]
  exact restored

/-- The later of two lists of commands is taken back first. -/
theorem append {b : OrderedMap String String} {before after redos redos' : List Command}
    {y z : Node} (found : c.workspace.node? id = some x)
    (second : TakenBack g nesting id c b after x redos y)
    (first : TakenBack g nesting id { c with workspace := c.workspace.replaced id y } a before y
      redos' z) :
    TakenBack g nesting id c a (before ++ after) x (redos ++ redos') z := by
  -- The later changes are taken back first, on the canvas that the earlier ones have left.
  refine ⟨?_, first.fields, second.retouched.append found first.retouched, ?_⟩
  · have reverts := first.reverts
    rw [Workspace.replaced_replaced found] at reverts
    rw [List.reverse_append]
    exact second.reverts.append reverts
  · rw [List.append_eq_nil_iff, List.append_eq_nil_iff, second.empty, first.empty, and_comm]

end TakenBack

/-- Field commands of a detached node can be taken back. -/
theorem Refilled.revert {id : NodeId} {a b : OrderedMap String String} {sets : List Command}
    (filled : Refilled g id a sets b) (nesting : Nat) {c : Canvas} {x : Node}
    (found : c.workspace.node? id = some x) (detached : x.isDetached = true)
    (known : sets ≠ [] → ∃ kind, BlockKind.ofName? x.kind = some kind)
    (fields : g.Fields b x.fields) : ∃ redos y, TakenBack g nesting id c a sets x redos y := by
  induction filled generalizing c x with
  | alike same => exact ⟨[], x, .nil found detached (same.trans fields)⟩
  | put back =>
    obtain ⟨kind, known⟩ := known (by simp)
    obtain ⟨y, single⟩ := TakenBack.single found detached known back fields
    exact ⟨_, y, single⟩
  | append first second ih ih' =>
    -- The later commands are reverted first.
    obtain ⟨redos, y, after⟩ := ih' found detached (fun some => known (by simp [some])) fields
    have found' : (c.workspace.replaced id y).node? id = some y := by
      rw [Workspace.node?_replaced found, if_pos rfl]
    have variant := after.retouched.variant
    obtain ⟨redos', z, before⟩ :=
      ih (c := { c with workspace := c.workspace.replaced id y }) found' variant.detached'
        (fun some => by
          rw [variant.kind]
          exact known (by simp [some])) after.fields
    exact ⟨redos ++ redos', z, after.append found before⟩

end QuickEntry
