import CardForm.Proofs.Obstacle
import CardForm.Proofs.Written.Template

/-!
# What comes back can be written again

Extras that come back are some of those that were written, in their portable form, which brings no
obstacle to writing them. So what comes back of a value that can be written can be written too
(`Format.Unobstructed.isWritable_reread`).
-/
namespace CardForm

open Obstacle (Kept)

/-! ## Values of any content -/

namespace Json

/-- There is no obstacle in the portable form of a value where there is none in the value. -/
theorem kept_obstacle_portable (value : Json) (room : Nat) :
    Kept (value.obstacle room) (value.portable.obstacle room) := by
  induction value using induct generalizing room with
  | null | bool | str => exact id
  | num n =>
    rw [portable]
    split
    · exact id
    · cases room <;> exact id
  | arr items ih =>
    cases room with
    | zero =>
      intro free
      cases free
    | succ room =>
      rw [Kept, portable, portableItems_eq_map, obstacle, obstacle, obstacleOfItems_eq_none_iff,
        obstacleOfItems_eq_none_iff, List.forall_mem_map]
      exact fun free item mem => ih item mem room (free item mem)
  | obj members ih =>
    cases room with
    | zero =>
      intro free
      cases free
    | succ room =>
      rw [Kept, portable, portableMembers_eq_map, obstacle, obstacle, obstacleOfMembers_eq_none_iff,
        obstacleOfMembers_eq_none_iff, List.forall_mem_map]
      exact fun free member mem =>
        ⟨(free member mem).1, ih member mem room (free member mem).2⟩

end Json

namespace Members

/-- There is no obstacle in the portable form of an object where there is none in the object. -/
theorem kept_obstacle_portable (room : Nat) (members : Members) :
    Kept (members.obstacle room) (members.portable.obstacle room) := by
  rw [Kept, obstacle_eq_none_iff, obstacle_eq_none_iff]
  intro free member mem
  obtain ⟨before, inMembers, rfl⟩ := exists_of_mem_portable mem
  exact before.2.kept_obstacle_portable room (free before inMembers)

/-- There is no obstacle in the extras that are shown where there is none in the extras. -/
theorem kept_obstacle_shown (room : Nat) (extras : Members) :
    Kept (extras.obstacle room) ((shown extras).obstacle room) := by
  rw [Kept, obstacle_eq_none_iff, obstacle_eq_none_iff]
  rintro free ⟨name, value⟩ mem
  obtain ⟨found, inExtras, _, rfl⟩ := mem_shown_iff.1 mem
  exact found.kept_obstacle_portable room (free _ inExtras)

end Members

/-! ## Formats -/

namespace Format

variable {α : Type} [Writable α] {format : Format α}

/-- There is no obstacle in what comes back of a value where there is none in the value. -/
def Unobstructed (format : Format α) : Prop :=
  ∀ value room, Kept (Writable.obstacle value room) (Writable.obstacle (format.reread value) room)

/-- What comes back of a value that can be written can be written. -/
theorem Unobstructed.isWritable_reread (unobstructed : format.Unobstructed) {value : α}
    (writable : Writable.isWritable value = true) :
    Writable.isWritable (format.reread value) = true :=
  Writable.isWritable_iff.2 (unobstructed value _ (Writable.isWritable_iff.1 writable))

end Format

open Members (kept_obstacle_portable kept_obstacle_shown)

/-! ## Fields -/

/-- Media come back without an obstacle. -/
theorem Media.unobstructed : format.Unobstructed := fun media room =>
  kept_obstacle_shown room media.extras

/-- Options with an image come back without an obstacle. -/
theorem PicturedOption.unobstructed : format.Unobstructed := fun option room =>
  kept_obstacle_shown room option.extras

/-- Options come back without an obstacle. -/
theorem FieldOption.kept_obstacle_reread (room : Nat) :
    ∀ option, Kept (obstacle option room) (obstacle (format.reread option) room)
  | plain _ => id
  | pictured option => PicturedOption.unobstructed option room

/-- Conditions come back without an obstacle. -/
theorem Condition.unobstructed : format.Unobstructed := fun condition room =>
  kept_obstacle_shown room condition.extras

/-- Groups of conditions come back without an obstacle. -/
theorem ConditionGroup.unobstructed : format.Unobstructed := fun group room =>
  .first? <| .cons (.findSome?_map (Condition.unobstructed · room) group.conditions) <|
    .cons (kept_obstacle_shown room group.extras) .nil

/-- Jumps come back without an obstacle. -/
theorem Jump.unobstructed : format.Unobstructed := fun jump room =>
  .first? <| .cons (ConditionGroup.unobstructed jump.conditions room) <|
    .cons (kept_obstacle_shown room jump.extras) .nil

/-- Relabellings come back without an obstacle. -/
theorem Relabelling.unobstructed : format.Unobstructed := fun relabelling room =>
  .first? <| .cons (ConditionGroup.unobstructed relabelling.conditions room) <|
    .cons (kept_obstacle_shown room relabelling.extras) .nil

/-- Conditional rules come back without an obstacle. -/
theorem Logic.unobstructed : format.Unobstructed := fun logic room =>
  .first? <| .cons (.bind_map (ConditionGroup.unobstructed · (room - 1)) logic.showIf) <|
    .cons (.bind_map (ConditionGroup.unobstructed · (room - 1)) logic.hideIf) <|
    .cons (.bind_map (.findSome?_map (Jump.unobstructed · room)) logic.jumps) <|
    .cons (.bind_map (.findSome?_map (Relabelling.unobstructed · room)) logic.labels) <|
    .cons (kept_obstacle_shown room logic.extras) .nil

/-- Fields come back without an obstacle. -/
theorem Field.unobstructed : format.Unobstructed := fun field room =>
  .first? <| .cons
      (.bind_map (.findSome?_map (FieldOption.kept_obstacle_reread room)) field.options) <|
    .cons (.bind_map (Media.unobstructed · room) field.media) <|
    .cons (.bind_map (Logic.unobstructed · room) field.logic) <|
    .cons (kept_obstacle_shown room field.extras) .nil

/-! ## Flows -/

/-- Positions come back without an obstacle. -/
theorem Position.unobstructed : format.Unobstructed := fun position room =>
  kept_obstacle_shown room position.extras

/-- Viewports come back without an obstacle. -/
theorem Viewport.unobstructed : format.Unobstructed := fun viewport room =>
  kept_obstacle_shown room viewport.extras

/-- Payloads of questions come back without an obstacle. -/
theorem QuestionData.unobstructed : format.Unobstructed := fun data room =>
  .first? <| .cons (Field.unobstructed data.field room) <|
    .cons (.bind_map (Media.unobstructed · room) data.media) <|
    .cons (kept_obstacle_shown room data.extras) .nil

/-- Payloads of statements come back without an obstacle. -/
theorem StatementData.unobstructed : format.Unobstructed := fun data room =>
  .first? <| .cons (.bind_map (Media.unobstructed · room) data.media) <|
    .cons (kept_obstacle_shown room data.extras) .nil

/-- Payloads of markers come back without an obstacle. -/
theorem MarkerData.unobstructed : format.Unobstructed := fun data room =>
  kept_obstacle_shown room data.extras

/-- Cards come back without an obstacle where their payloads do. -/
theorem Card.kept_obstacle_reread {α : Type} [Writable α] {payload : Format α}
    (unobstructed : payload.Unobstructed) (card : Card α) (room : Nat) {next : Card α}
    (position : next.position = Position.format.reread card.position)
    (data : next.data = payload.reread card.data) (extras : next.extras = Members.shown card.extras) :
    Kept (card.obstacle room) (next.obstacle room) := by
  rw [obstacle, obstacle, position, data, extras]
  exact .first? <| .cons (Position.unobstructed card.position room) <|
    .cons (unobstructed card.data room) <| .cons (kept_obstacle_shown room card.extras) .nil

/-- Nodes come back without an obstacle. -/
theorem Node.unobstructed : format.Unobstructed
  | start card, room => card.kept_obstacle_reread MarkerData.unobstructed room rfl rfl rfl
  | finish card, room => card.kept_obstacle_reread MarkerData.unobstructed room rfl rfl rfl
  | question card, room => card.kept_obstacle_reread QuestionData.unobstructed room rfl rfl rfl
  | statement card, room => card.kept_obstacle_reread StatementData.unobstructed room rfl rfl rfl

/-- Payloads of edges come back without an obstacle. -/
theorem EdgeData.unobstructed : format.Unobstructed := fun data room =>
  .first? <| .cons (data.condition.kept_obstacle_portable room) <|
    .cons (kept_obstacle_shown room data.extras) .nil

/-- Edge specifications come back without an obstacle. -/
theorem EdgeSpec.unobstructed : format.Unobstructed := fun spec room =>
  .first? <| .cons (.bind_map (EdgeData.unobstructed · room) spec.data) <|
    .cons (kept_obstacle_shown room spec.extras) .nil

/-- Edges come back without an obstacle. -/
theorem Edge.unobstructed : format.Unobstructed := fun edge room =>
  .first? <| .cons (.bind_map (EdgeData.unobstructed · room) edge.data) <|
    .cons (kept_obstacle_shown room edge.extras) .nil

/-- Flows come back without an obstacle. -/
theorem Flow.unobstructed : format.Unobstructed := fun flow room =>
  .first? <| .cons (.findSome?_map (Node.unobstructed · room) flow.nodes) <|
    .cons (.findSome?_map (Edge.unobstructed · room) flow.edges) <|
    .cons (.bind_map (Viewport.unobstructed · room) flow.viewport) <|
    .cons (kept_obstacle_shown room flow.extras) .nil

/-! ## Envelopes and records -/

/-- Envelopes come back without an obstacle. -/
theorem Envelope.unobstructed : format.Unobstructed := fun envelope room =>
  .first? <| .cons (.bind_map (Flow.unobstructed · room) envelope.flow) <|
    .cons (.bind_map (.findSome?_map (Field.unobstructed · room)) envelope.fields) <|
    .cons (.bind_map (.findSome?_map (EdgeSpec.unobstructed · room)) envelope.edges) <|
    .cons (.bind_map (kept_obstacle_portable room) envelope.cardSettings) <|
    .cons (.bind_map (kept_obstacle_portable room) envelope.styling) <|
    .cons (.bind_map (kept_obstacle_portable room) envelope.profileEstimation) <|
    .cons (kept_obstacle_shown room envelope.extras) .nil

/-- Records come back without an obstacle. -/
theorem Record.unobstructed : format.Unobstructed := fun record room =>
  .first? <| .cons (.findSome?_map (Field.unobstructed · room) record.fields) <|
    .cons (kept_obstacle_portable room record.cardSettings) <|
    .cons (.bind_map (kept_obstacle_portable room) record.styling) <|
    .cons (.bind_map (kept_obstacle_portable room) record.profileEstimation) <|
    .cons (kept_obstacle_shown room record.extras) .nil

end CardForm
