import QuickEntry.Proofs.Edit.Traced

/-! Steps that cannot be reverted: what was reverted of them is made again, which leads back if each
command was met as it had left the canvas. -/

namespace QuickEntry

variable {g : Grain}

namespace Command

/-- A command that holds others. -/
def isBatch : Command → Bool
  | batch _ => true
  | _ => false

/-- A command by which a node came. -/
def isCreation : Command → Bool
  | create _ => true
  | _ => false

/-- A command by which a node went. -/
def isDeletion : Command → Bool
  | delete _ => true
  | _ => false

/-- A command that changed a field. -/
def isField : Command → Bool
  | setField .. => true
  | _ => false

end Command

namespace Canvas

/-- A canvas shows what a command has left: the field has the new value and its node the shape that
it derives, the node takes the new place, or the new node is selected. -/
def Shows (c : Canvas) : Command → Prop
  -- A node that came or went is looked at when the command is reverted.
  | .setField id name _ new =>
    ∃ n ∈ c.workspace.node? id, n.field? name = new ∧ c.workspace.Current n
  | .move child _ new => c.workspace.placeOf? child = new
  | .select _ new => c.selection = new
  | _ => True

instance (c : Canvas) : ∀ command, Decidable (c.Shows command)
  | .setField id name _ new =>
    inferInstanceAs (Decidable (∃ n ∈ c.workspace.node? id,
      n.field? name = new ∧ c.workspace.shapeOf n = .ok n.connectors))
  | .move child _ new => inferInstanceAs (Decidable (c.workspace.placeOf? child = new))
  | .select _ new => inferInstanceAs (Decidable (c.selection = new))
  | .create _ | .delete _ | .batch _ => .isTrue trivial

/-- Commands are met as they have left the canvas when they are reverted one after the other, as far
as they can be reverted. -/
def ShowsEach (c : Canvas) : List Command → Prop
  | [] => True
  | command :: rest =>
    match (revert command).on c with
    | (.ok _, next) => c.Shows command ∧ next.ShowsEach rest
    | (.error _, _) => True

instance decidableShowsEach : ∀ (commands : List Command) (c : Canvas),
    Decidable (c.ShowsEach commands)
  | [], _ => .isTrue trivial
  | command :: rest, c =>
    match reverted : (revert command).on c with
    | (.ok _, next) =>
      have := decidableShowsEach rest next
      decidable_of_iff (c.Shows command ∧ next.ShowsEach rest) (by rw [ShowsEach, reverted])
    | (.error _, _) => .isTrue (by rw [ShowsEach, reverted]; trivial)

/-- How deep batches may be nested makes no difference to a single command. -/
theorem revertWithin_of_single {command : Command} (single : command.isBatch = false)
    (nesting : Nat) : revertWithin nesting command = revert command := by
  -- Only a batch uses up nesting.
  cases command with
  | batch members => cases single
  | _ => cases nesting <;> rfl

/-- A creation is reverted by removing the node, or not at all. -/
theorem on_revert_creation (node : Node) (c : Canvas) :
    (revert (.create node)).on c =
      match c.workspace.remove node.id with
      | .ok (removed, ws) => (.ok (.delete removed), { c with workspace := ws })
      | .error e => (.error e, c) :=
  -- The node is taken out, as it is by then.
  on_delete node.id c

/-- A deletion is reverted by inserting the node, or not at all. -/
theorem on_revert_deletion (node : Node) (c : Canvas) :
    (revert (.delete node)).on c =
      match c.workspace.insert node with
      | .ok ws => (.ok (.create node), { c with workspace := ws })
      | .error e => (.error e, c) :=
  -- The node is put in, as the command has kept it.
  on_create node c

/-- A field command is reverted by setting the field, or not at all. -/
theorem on_revert_value (id : NodeId) (name : String) (old new : Option String) (c : Canvas) :
    (revert (.setField id name old new)).on c =
      match c.workspace.setField id name old with
      | .ok (_, ws) => (.ok (.setField id name new old), { c with workspace := ws })
      | .error e => (.error e, c) := by
  -- The command is undone by setting the old value.
  have unfolded : revert (.setField id name old new) =
      setField id name old >>= fun _ => pure (Command.setField id name new old) := rfl
  rw [unfolded, Attempt.on_bind, on_setField]
  cases c.workspace.setField id name old <;> rfl

/-- A move is reverted by moving the node. -/
theorem on_revert_place (child : NodeId) (old new : Option Link) (c : Canvas) :
    (revert (.move child old new)).on c =
      match (Workspace.move child old).on c.workspace with
      | (.ok _, ws) => (.ok (.move child new old), { c with workspace := ws })
      | (.error e, ws) => (.error e, { c with workspace := ws }) := by
  -- The command is undone by moving the block to its old place.
  have unfolded : revert (.move child old new) =
      move child old >>= fun _ => pure (Command.move child new old) := rfl
  rw [unfolded, Attempt.on_bind, on_move]
  cases (Workspace.move child old).on c.workspace with
  | mk outcome ws => cases outcome <;> rfl

/-- Revert commands one after the other, regardless of refusals. -/
def repair (nesting : Nat) (commands : List Command) : Attempt Canvas Unit :=
  commands.forM fun command => (revertWithin nesting command).regardless

/-- A repair is never refused. -/
theorem on_repair (nesting : Nat) (commands : List Command) :
    ∀ c : Canvas, ((repair nesting commands).on c).1 = .ok () := by
  -- By induction on the commands: the outcome of each reversal is ignored.
  induction commands with
  | nil => exact fun _ => rfl
  | cons command rest ih => exact fun c => ih ((revertWithin nesting command).on c).2

/-- A single command comes before the others, and if it cannot be reverted, those before it are made
again. -/
theorem on_revertEach_cons {command : Command} (single : command.isBatch = false) (nesting : Nat)
    (reverted rest : List Command) (c : Canvas) :
    (revertEach (revertWithin nesting) reverted (command :: rest)).on c =
      match (revert command).on c with
      | (.ok redo, next) => (revertEach (revertWithin nesting) (redo :: reverted) rest).on next
      | (.error e, next) => (.error e, ((repair nesting reverted).on next).2) := by
  have unfolded : revertEach (revertWithin nesting) reverted (command :: rest) =
      (revertWithin nesting command).orAfter (repair nesting reverted) >>=
        fun again => revertEach (revertWithin nesting) (again :: reverted) rest := rfl
  rw [unfolded, Attempt.on_bind, Attempt.on_orAfter, revertWithin_of_single single]
  cases (revert command).on c with
  | mk outcome next =>
    cases outcome with
    | ok redo => rfl
    | error e =>
      -- The repair itself is never refused.
      have repaired := on_repair nesting reverted next
      dsimp only
      revert repaired
      cases (repair nesting reverted).on next with
      | mk result after =>
        rintro ⟨⟩
        rfl

/-- A batch is reverted by reverting its members, last to first. -/
theorem on_revert_batch (members : List Command) (c : Canvas) :
    (revert (.batch members)).on c =
      match (revertEach (revertWithin (Command.deepest members)) [] members.reverse).on c with
      | (.ok again, next) => (.ok (.batch again), next)
      | (.error e, next) => (.error e, next) := by
  -- A batch is undone member by member, from the last.
  have unfolded : revert (.batch members) =
      revertEach (revertWithin (Command.deepest members)) [] members.reverse >>= fun again =>
        pure (.batch again) := rfl
  rw [unfolded, Attempt.on_bind]
  cases (revertEach (revertWithin (Command.deepest members)) [] members.reverse).on c with
  | mk outcome next => cases outcome <;> rfl

variable {c next : Canvas} {command redo : Command}

/-- A single command that cannot be reverted leaves the canvas as it is. -/
theorem on_revert_of_error (linked : c.workspace.Linked) (single : command.isBatch = false)
    {e : EditError} (refused : (revert command).on c = (.error e, next)) : next = c := by
  -- Each primitive changes nothing when it is refused.
  cases command with
  | create node =>
    rw [on_revert_creation] at refused
    split at refused <;> cases refused
    rfl
  | delete node =>
    rw [on_revert_deletion] at refused
    split at refused <;> cases refused
    rfl
  | setField id name old new =>
    rw [on_revert_value] at refused
    split at refused <;> cases refused
    rfl
  | move child old new =>
    rw [on_revert_place] at refused
    split at refused <;> cases refused
    rename_i moved
    rw [linked.on_move_of_error moved]
  | select old new => cases refused
  | batch members => cases single

/-- Reverting a single command is a step, if the command is met as it has left the canvas. The order
of the nodes is lost when a node is taken out, and is asked for when a field is set. -/
theorem trail_revert (wf : c.workspace.WellFormed) (single : command.isBatch = false)
    (shows : c.Shows command) (mixed : ¬g.fieldOrder)
    (creation : command.isCreation = true → ¬g.nodeOrder)
    (field : command.isField = true → g.nodeOrder)
    (made : (revert command).on c = (.ok redo, next)) : Trail g False c [redo] next := by
  have linked := wf.toLinked
  cases command with
  | create node =>
    rw [on_revert_creation] at made
    split at made <;> cases made
    rename_i removed
    exact Draft.trail_remove linked (creation rfl) removed
  | delete node =>
    rw [on_revert_deletion] at made
    split at made <;> cases made
    rename_i inserted
    obtain ⟨absent, detached, rfl⟩ := Workspace.insert_eq_ok_iff.mp inserted
    exact .turn (.born absent (.refl detached) (fun some => absurd rfl some) (.alike (.refl _))
      False.elim)
  | setField id name old new =>
    rw [on_revert_value] at made
    split at made <;> cases made
    rename_i set
    -- The value that was recorded is the one that is replaced.
    obtain ⟨n, found, value, current⟩ := shows
    obtain ⟨m, shape, known, _, _, present, _⟩ := (Workspace.setField_eq_ok_iff linked).mp set
    cases found.symm.trans known
    rw [← value, ← present]
    refine .turn (.changed not_false linked found ⟨current, fun _ => .inl (field rfl)⟩ ?_ set)
    exact ⟨OrderedMap.same_put_put _ _ _, fun ordered => absurd ordered mixed⟩
  | move child old new =>
    rw [on_revert_place] at made
    split at made <;> cases made
    rename_i moved
    -- The place that was recorded is the one that the node leaves.
    have is := linked.on_move_eq_ok_iff.mp moved
    rw [← is.source.symm.trans shows]
    exact .turn (.moved linked is)
  | select old new =>
    cases made
    cases shows
    exact .turn .selected
  | batch members => cases single

end Canvas

/-- Commands of which each one may be reverted in the middle of a step, at a grain: they are single,
and as to the order of the nodes, only those count that are reverted before others. -/
structure Command.Fit (g : Grain) (commands : List Command) : Prop where
  single : ∀ command ∈ commands, command.isBatch = false
  creation : ∀ command ∈ commands.dropLast, command.isCreation = true → ¬g.nodeOrder
  field : ∀ command ∈ commands, command.isField = true → g.nodeOrder

/-- A repair reverts all commands, if none is refused. -/
theorem Reverts.on_repair {nesting : Nat} {a c : Canvas} {commands redos : List Command}
    (reverts : Reverts nesting commands a redos c) :
    (Canvas.repair nesting commands).on a = (.ok (), c) := by
  -- By induction on the reversals, none of which fails here.
  induction reverts with
  | nil => rfl
  | @cons command redo a b c commands redos reverted others ih =>
    have unfolded : Canvas.repair nesting (command :: commands) =
        (Canvas.revertWithin nesting command).regardless >>= fun _ =>
          Canvas.repair nesting commands := rfl
    rw [unfolded, Attempt.on_bind, Attempt.on_regardless, reverted]
    exact ih

/-- If reverting commands fails half-way, each of those before was met as it had left the canvas,
and a trail leads from the start to where the first of these was reverted, then the canvas is left
like that start. -/
theorem Canvas.revertEach_of_error {start : Canvas} (nesting : Nat) (mixed : ¬g.fieldOrder)
    (commands : List Command) :
    ∀ {c after : Canvas} {reverted : List Command} {e : EditError},
      Trail g False start reverted.reverse c → c.workspace.WellFormed → Command.Fit g commands →
      c.ShowsEach commands →
      (revertEach (revertWithin nesting) reverted commands).on c = (.error e, after) →
      start.Alike g after ∧ after.workspace.WellFormed := by
  induction commands with
  | nil =>
    intro c after reverted e _ _ _ _ failed
    cases failed
  | cons command rest ih =>
    intro c after reverted e trail wf fit shows failed
    have single := fit.single command List.mem_cons_self
    rw [on_revertEach_cons single] at failed
    cases made : (revert command).on c with
    | mk outcome next =>
      rw [ShowsEach, made] at shows
      rw [made] at failed
      cases outcome with
      | ok redo =>
        -- The command is reverted, so that it is not the last one.
        obtain ⟨shown, others⟩ := shows
        cases rest with
        | nil => cases failed
        | cons second rest =>
          have step := trail_revert wf single shown mixed
            (fit.creation command (by simp)) (fit.field command List.mem_cons_self) made
          have wf' : next.workspace.WellFormed := by
            have keeps := (Workspace.invariant_wellFormed.revert command).on wf
            rwa [made] at keeps
          refine ih ?_ wf' ⟨?_, ?_, ?_⟩ others failed
          · rw [List.reverse_cons]
            exact trail.append step
          · exact fun other member => fit.single other (List.mem_cons_of_mem _ member)
          · exact fun other member => fit.creation other (by
              rw [List.dropLast_cons_of_ne_nil (by simp)]
              exact List.mem_cons_of_mem _ member)
          · exact fun other member => fit.field other (List.mem_cons_of_mem _ member)
      | error e =>
        -- The canvas is still where the last command before was reverted.
        have same := on_revert_of_error wf.toLinked single made
        subst same
        obtain ⟨redos, back, reverts, alike, _⟩ := trail.revert (.refl next) wf nesting
        rw [List.reverse_reverse] at reverts
        cases failed
        rw [reverts.on_repair]
        exact ⟨alike, reverts.wellFormed wf⟩

namespace Command

/-- A step at which nothing depends on the order of the nodes where that may be lost: a node may
come only before all else and go only after all else, or no field is set. -/
def Orderly : Command → Prop
  -- No batch is inside another one.
  | batch members =>
    (∀ member ∈ members, member.isBatch = false) ∧
      ((∀ member ∈ members.tail, member.isCreation = false) ∧
          (∀ member ∈ members.dropLast, member.isDeletion = false) ∨
        ∀ member ∈ members, member.isField = false)
  | _ => False

/-- Every orderly step is fit to be reverted at some grain that counts the selection but not the
order of fields. -/
theorem Orderly.fit {members : List Command} (orderly : (batch members).Orderly) :
    ∃ g : Grain, ¬g.fieldOrder ∧ g.selection ∧ Fit g members.reverse := by
  -- The two kinds of orderly batches leave two different things open.
  obtain ⟨single, ⟨creation, _⟩ | field⟩ := orderly
  · -- No node is taken out before something else is reverted.
    refine ⟨⟨True, False, True⟩, not_false, trivial, ?_, ?_, fun _ _ _ => trivial⟩
    · exact fun command member => single command (List.mem_reverse.mp member)
    · intro command member created
      rw [List.dropLast_reverse, List.mem_reverse] at member
      rw [creation command member] at created
      cases created
  · refine ⟨⟨False, False, True⟩, not_false, trivial, ?_, fun _ _ _ => not_false, ?_⟩
    · exact fun command member => single command (List.mem_reverse.mp member)
    · intro command member set
      rw [field command (List.mem_reverse.mp member)] at set
      cases set

end Command

/-- An orderly step that cannot be reverted leaves the canvas as it was, up to the order of nodes
and fields, if all that was reverted of it was met as it had left the canvas. -/
theorem Canvas.on_revert_batch_of_error {c after : Canvas} {members : List Command}
    (wf : c.workspace.WellFormed) (orderly : (Command.batch members).Orderly)
    (shows : c.ShowsEach members.reverse) {e : EditError}
    (failed : (revert (.batch members)).on c = (.error e, after)) :
    ∃ g : Grain, g.selection ∧ c.Alike g after ∧ after.workspace.WellFormed := by
  -- What kind of batch it is says up to what the canvas comes back, and the selection is always
  -- part of it.
  obtain ⟨g, mixed, counted, fit⟩ := orderly.fit
  rw [on_revert_batch] at failed
  cases made : (revertEach (revertWithin (Command.deepest members)) [] members.reverse).on c with
  | mk outcome next =>
    rw [made] at failed
    cases outcome with
    | ok again => cases failed
    | error e =>
      cases failed
      obtain ⟨alike, wf'⟩ :=
        revertEach_of_error _ mixed members.reverse (.alike (.refl c)) wf fit shows made
      exact ⟨g, counted, alike, wf'⟩

end QuickEntry
