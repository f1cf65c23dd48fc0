import Mathlib.Data.List.Forall2
import QuickEntry.Proofs.Edit.Failure
import QuickEntry.Proofs.Edit.Step

/-! The steps of a session are orderly, and stay so when they are undone and redone. -/

namespace QuickEntry

namespace Command

/-- Of two commands the one makes again what the other took back. -/
structure Mirrors (command redo : Command) : Prop where
  batch : redo.isBatch = command.isBatch
  creation : redo.isCreation = command.isDeletion
  deletion : redo.isDeletion = command.isCreation
  field : redo.isField = command.isField

/-- What holds of commands holds of those that mirror them, if mirroring keeps it. -/
theorem forall_mirrors {P Q : Command → Prop} (keeps : ∀ {a b}, Mirrors a b → P a → Q b)
    {commands redos : List Command} (mirrors : List.Forall₂ Mirrors commands redos)
    (holds : ∀ command ∈ commands, P command) : ∀ redo ∈ redos, Q redo := by
  -- One command after the other.
  induction mirrors with
  | nil => exact fun _ member => nomatch member
  | cons first _ ih =>
    simp only [List.mem_cons, forall_eq_or_imp] at holds ⊢
    exact ⟨keeps first holds.1, ih holds.2⟩

/-- Leaving out the first commands on both sides leaves commands that mirror each other. -/
theorem tail_mirrors {commands redos : List Command}
    (mirrors : List.Forall₂ Mirrors commands redos) :
    List.Forall₂ Mirrors commands.tail redos.tail := by
  -- The first pair is dropped on both sides.
  cases mirrors with
  | nil => exact .nil
  | cons _ others => exact others

/-- The step that makes an orderly one again is orderly. -/
theorem Orderly.mirrored {members redos : List Command} (orderly : (Command.batch members).Orderly)
    (mirrors : List.Forall₂ Mirrors members.reverse redos) : (Command.batch redos).Orderly := by
  -- The last of the members is mirrored first.
  have turned : List.Forall₂ Mirrors members redos.reverse := by
    rw [← List.forall₂_reverse_iff, List.reverse_reverse]
    exact mirrors
  obtain ⟨single, order⟩ := orderly
  refine ⟨?_, ?_⟩
  · exact forall_mirrors (fun mirror is => mirror.batch.trans is) mirrors
      fun command member => single command (List.mem_reverse.mp member)
  · rcases order with ⟨creation, deletion⟩ | field
    · refine .inl ⟨?_, fun redo member => ?_⟩
      · refine forall_mirrors (fun mirror is => mirror.creation.trans is) (tail_mirrors mirrors) ?_
        intro command member
        rw [List.tail_reverse, List.mem_reverse] at member
        exact deletion command member
      · refine forall_mirrors (fun mirror is => mirror.deletion.trans is) (tail_mirrors turned)
          creation redo ?_
        rw [List.tail_reverse, List.mem_reverse]
        exact member
    · exact .inr (forall_mirrors (fun mirror is => mirror.field.trans is) mirrors
        fun command member => field command (List.mem_reverse.mp member))

end Command

namespace Canvas

variable {c next : Canvas} {command redo : Command}

/-- The command that makes a single one again mirrors it. -/
theorem mirrors_revert (single : command.isBatch = false)
    (made : (revert command).on c = (.ok redo, next)) : command.Mirrors redo := by
  -- A creation is undone by a deletion and conversely, any other command by one of its own kind.
  cases command with
  | create node =>
    rw [on_revert_creation] at made
    split at made <;> cases made
    exact ⟨rfl, rfl, rfl, rfl⟩
  | delete node =>
    rw [on_revert_deletion] at made
    split at made <;> cases made
    exact ⟨rfl, rfl, rfl, rfl⟩
  | setField id name old new =>
    rw [on_revert_value] at made
    split at made <;> cases made
    exact ⟨rfl, rfl, rfl, rfl⟩
  | move child old new =>
    rw [on_revert_place] at made
    split at made <;> cases made
    exact ⟨rfl, rfl, rfl, rfl⟩
  | select old new =>
    cases made
    exact ⟨rfl, rfl, rfl, rfl⟩
  | batch members => cases single

/-- The commands that make some single ones again mirror them. -/
theorem mirrors_revertEach (nesting : Nat) (commands : List Command) :
    ∀ {c next : Canvas} {reverted redos : List Command},
      (∀ command ∈ commands, command.isBatch = false) →
      (revertEach (revertWithin nesting) reverted commands).on c = (.ok redos, next) →
      ∃ more, redos = reverted.reverse ++ more ∧ List.Forall₂ Command.Mirrors commands more := by
  -- By induction on the commands; the list of what was undone grows in front, so it is reversed at
  -- the end.
  induction commands with
  | nil =>
    intro c next reverted redos _ made
    cases made
    exact ⟨[], (List.append_nil _).symm, .nil⟩
  | cons command rest ih =>
    intro c next reverted redos single made
    have first := single command List.mem_cons_self
    rw [on_revertEach_cons first] at made
    cases outcome : (revert command).on c with
    | mk result middle =>
      rw [outcome] at made
      cases result with
      | ok redo =>
        obtain ⟨more, rfl, mirrors⟩ :=
          ih (fun other member => single other (List.mem_cons_of_mem _ member)) made
        exact ⟨redo :: more, by simp, .cons (mirrors_revert first outcome) mirrors⟩
      | error e => cases made

/-- The step that makes an orderly one again is orderly. -/
theorem orderly_revert (orderly : command.Orderly)
    (made : (revert command).on c = (.ok redo, next)) : redo.Orderly := by
  -- The members are undone from the last to the first, so what was last among them is now first.
  cases command with
  | batch members =>
    rw [on_revert_batch] at made
    cases reverted : (revertEach (revertWithin (Command.deepest members)) []
        members.reverse).on c with
    | mk outcome middle =>
      rw [reverted] at made
      cases outcome with
      | error e => cases made
      | ok again =>
        cases made
        obtain ⟨more, rfl, mirrors⟩ := mirrors_revertEach _ members.reverse
          (fun command member => orderly.1 command (List.mem_reverse.mp member)) reverted
        exact orderly.mirrored mirrors
  | _ => exact orderly.elim

end Canvas

namespace Draft

/-- A log of commands that come after a creation, if there is one, and by which no node goes. -/
structure Founding (log : List Command) : Prop where
  single : ∀ command ∈ log, command.isBatch = false
  lasting : ∀ command ∈ log, command.isDeletion = false
  first : ∀ command ∈ log.dropLast, command.isCreation = false

/-- A log of commands by which no field is set. -/
structure Fieldless (log : List Command) : Prop where
  single : ∀ command ∈ log, command.isBatch = false
  field : ∀ command ∈ log, command.isField = false

/-- Nothing is set in an empty log. -/
theorem fieldless_of_nil {log : List Command} (empty : log = []) : Fieldless log := by
  -- There are no commands.
  subst empty
  exact ⟨(fun _ member => nomatch member), (fun _ member => nomatch member)⟩

/-- A creation founds a log. -/
theorem founding_create (node : Node) : Founding [.create node] :=
  -- A single command has none behind it.
  ⟨by simp [Command.isBatch], by simp [Command.isDeletion], by simp⟩

/-- A log is still founding with one more command by which no node comes or goes. -/
theorem Founding.cons {log : List Command} (founding : Founding log) {command : Command}
    (single : command.isBatch = false) (lasting : command.isDeletion = false)
    (first : command.isCreation = false) : Founding (command :: log) := by
  -- The log has its newest command in front, so the creation it starts with stays last.
  refine ⟨?_, ?_, ?_⟩
  · exact List.forall_mem_cons.mpr ⟨single, founding.single⟩
  · exact List.forall_mem_cons.mpr ⟨lasting, founding.lasting⟩
  · cases log with
    | nil => exact fun _ member => nomatch member
    | cons second rest =>
      rw [List.dropLast_cons_of_ne_nil (by simp)]
      exact List.forall_mem_cons.mpr ⟨first, founding.first⟩

/-- A log is still without fields with one more command by which none is set. -/
theorem Fieldless.cons {log : List Command} (fieldless : Fieldless log) {command : Command}
    (single : command.isBatch = false) (field : command.isField = false) :
    Fieldless (command :: log) :=
  -- The command in front sets no field either.
  ⟨List.forall_mem_cons.mpr ⟨single, fieldless.single⟩,
    List.forall_mem_cons.mpr ⟨field, fieldless.field⟩⟩

/-- The edits of a founding log are an orderly step. -/
theorem Founding.orderly {d : Draft} (founding : Founding d.log) : d.command.Orderly := by
  -- The log is read backwards: its last command comes first in the batch.
  refine ⟨fun command member => founding.single command (List.mem_reverse.mp member),
    .inl ⟨fun command member => ?_, fun command member => ?_⟩⟩
  · rw [List.tail_reverse, List.mem_reverse] at member
    exact founding.first command member
  · exact founding.lasting command (List.mem_reverse.mp (List.dropLast_subset _ member))

/-- The edits of a log without fields are an orderly step. -/
theorem Fieldless.orderly {d : Draft} (fieldless : Fieldless d.log) : d.command.Orderly :=
  -- The log is read backwards, which changes none of its members.
  ⟨fun command member => fieldless.single command (List.mem_reverse.mp member),
    .inr fun command member => fieldless.field command (List.mem_reverse.mp member)⟩

section Logs

variable {L : List Command → Prop}

/-- An edit keeps a property of the log that every command of the edit keeps. -/
theorem logs_record {edit : Attempt Canvas Command}
    (logs : ∀ {c command next}, edit.on c = (.ok command, next) →
      ∀ log, L log → L (command :: log)) :
    (record edit).Keeps fun d => L d.log := by
  -- A recorded edit that fails leaves the log as it is.
  intro d holds
  rw [on_record]
  cases made : edit.on d.canvas with
  | mk outcome next =>
    cases outcome with
    | ok command => exact logs made d.log holds
    | error e => exact holds

/-- Moving a node keeps what a move keeps in the log. -/
theorem logs_move (moves : ∀ child old new log, L log → L (.move child old new :: log))
    (child : NodeId) (target : Option Link) : (move child target).Keeps fun d => L d.log := by
  -- It is recorded or left out.
  refine (keeps_view _).bind fun node => ?_
  split
  · exact Attempt.keeps_pure _
  · refine logs_record fun {c command next} made => ?_
    rw [Canvas.on_move] at made
    split at made <;> cases made
    exact moves child _ target

/-- Selecting a node keeps what a selection keeps in the log. -/
theorem logs_select (selects : ∀ old new log, L log → L (.select old new :: log))
    (id : Option NodeId) : (select id).Keeps fun d => L d.log := by
  -- It is recorded or left out.
  refine Attempt.keeps_get.bind fun d => ?_
  split
  · refine logs_record fun {c command next} made => ?_
    cases made
    exact selects _ id
  · exact Attempt.keeps_pure _

/-- Setting a field keeps what a field command keeps in the log. -/
theorem logs_setField (sets : ∀ id name old new log, L log → L (.setField id name old new :: log))
    (id : NodeId) (name : String) (value : Option String) :
    (setField id name value).Keeps fun d => L d.log := by
  -- The command names the field and both of its values.
  refine logs_record fun {c command next} made => ?_
  rw [Canvas.on_setField] at made
  split at made <;> cases made
  exact sets id name _ value

/-- Deleting a node keeps what a deletion keeps in the log. -/
theorem logs_delete (deletes : ∀ node log, L log → L (.delete node :: log)) (id : NodeId) :
    (record (Canvas.delete id)).Keeps fun d => L d.log := by
  -- The command carries the node that was taken out.
  refine logs_record fun {c command next} made => ?_
  rw [Canvas.on_delete] at made
  split at made <;> cases made
  exact deletes _

end Logs

/-- Inserting the node of an option founds a log. -/
theorem founds_insertion (o : BlockOption) (selected : Option NodeId) (reach : Reach) :
    (Session.insertion o selected reach).Ensures (fun d => d.log = [])
      (fun _ d => Founding d.log) fun _ => True := by
  -- The node is created first, and nothing goes afterwards.
  have creates : ∀ node, (record (Canvas.create node)).Ensures (fun d => d.log = [])
      (fun _ d => Founding d.log) fun _ => True := by
    intro node d empty
    rw [on_record, Canvas.on_create]
    cases d.canvas.workspace.insert node with
    | error e => trivial
    | ok ws =>
      show Founding (.create node :: d.log)
      rw [empty]
      exact founding_create node
  have makes : ∀ mutation, (make o.kind mutation).Keeps fun d => d.log = [] := by
    intro mutation d empty
    rw [on_make]
    cases d.canvas.workspace.make o.kind mutation <;> exact empty
  have instantiates : (instantiate o).Ensures (fun d => d.log = []) (fun _ d => Founding d.log)
      fun _ => True := by
    refine (Attempt.keeps_ofExcept _).ensures.bind fun mutation => ?_
    -- What comes after the creation sets fields, which keeps the log founded on it.
    refine (makes mutation).ensures.bind fun node => (creates node).bind fun _ => ?_
    refine ((Attempt.keeps_forM fun field _ => ?_).bind fun _ => Attempt.keeps_pure _).ensures
    exact logs_setField (L := Founding) (fun _ _ _ _ _ founding => founding.cons rfl rfl rfl) _ _ _
  exact ensures_insertion (Q := fun d => Founding d.log) instantiates
    (logs_move fun _ _ _ _ founding => founding.cons rfl rfl rfl)
    (logs_select fun _ _ _ founding => founding.cons rfl rfl rfl) (fun _ _ => trivial) selected
    reach

/-- Deleting a subtree sets no field. -/
theorem fieldless_deleteSubtree (id : NodeId) :
    (deleteSubtree id).Keeps fun d => Fieldless d.log :=
  -- A deletion moves, selects and deletes, and sets no field.
  keeps_deleteSubtree (logs_move fun _ _ _ _ fieldless => fieldless.cons rfl rfl)
    (logs_select fun _ _ _ fieldless => fieldless.cons rfl rfl)
    (logs_delete fun _ _ fieldless => fieldless.cons rfl rfl) id

end Draft

end QuickEntry
