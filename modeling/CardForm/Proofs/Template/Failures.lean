import CardForm.Proofs.Flow.Readable
import CardForm.Proofs.Flow.Wired
import CardForm.Proofs.Template.Import
import CardForm.Template.Store

/-!
# Failures that nobody is told of

Importing an envelope, finding one in a text, and opening, exporting, saving and applying a form are
to fail with refusals only. Each of them has further failures, and this module says exactly when
(`Record.leaves_iff`). There are four sources: a statement that is shown but whose identifier cannot
be that of a field, a stored viewport that cannot be read, an integer of too many digits in a text,
and a flow that cannot be written. The first is met by flows that are loaded without a fault: a flow
that is loaded need not stand for a field list (`Flow.exists_unfit`).

The definitions take values of any size. A machine does not: it has no room for a copy of a value that
is too deep, and it tells of no integer of too many digits. Values are therefore said to be moderate
(`Json.IsModerate`) where that could be met.
-/
namespace CardForm

/-! ## Refusals -/

namespace Failure

variable {α β : Type} {failure : Failure} {outcome : Except Failure α} {allowed : Set Failure}

/-- The refusals of a flow, or of a template with a flow. -/
def refusals : Set Failure := {failure | ∃ reasons, failure = invalidFlow reasons}

/-- The refusals of a template. -/
def templateRefusals : Set Failure := insert notEnvelope refusals

/-- A template is refused for not being one, or with reasons. -/
theorem mem_templateRefusals_iff :
    failure ∈ templateRefusals ↔ failure = notEnvelope ∨ ∃ reasons, failure = invalidFlow reasons :=
  Iff.rfl

/-- Failures of which a caller is told: the refusals of flows are among them, and what cannot be read or
written is not. -/
structure Told (allowed : Set Failure) : Prop where
  /-- Any flow may be refused. -/
  invalidFlow : ∀ reasons, .invalidFlow reasons ∈ allowed
  /-- What cannot be read is not among them. -/
  unfit : ∀ faults, .unfit faults ∉ allowed
  /-- What cannot be written is not among them. -/
  unwritten : ∀ found, ofObstacle found ∉ allowed

/-- Callers are told of refusals. -/
theorem told_refusals : Told refusals where
  invalidFlow reasons := ⟨reasons, rfl⟩
  unfit := by rintro faults ⟨_, ⟨⟩⟩
  unwritten := by rintro (_ | _) ⟨_, ⟨⟩⟩

/-- Callers are told of refusals of templates. -/
theorem told_templateRefusals : Told templateRefusals where
  invalidFlow reasons := .inr ⟨reasons, rfl⟩
  unfit := by rintro faults (⟨⟨⟩⟩ | ⟨_, ⟨⟩⟩)
  unwritten := by rintro (_ | _) (⟨⟨⟩⟩ | ⟨_, ⟨⟩⟩)

/-- An operation fails otherwise than it may. -/
def Leaves (allowed : Set Failure) (outcome : Except Failure α) : Prop :=
  ∃ failure ∉ allowed, outcome = .error failure

/-- An operation that succeeds does not fail. -/
@[simp] theorem not_leaves_ok {value : α} : ¬Leaves allowed (.ok value) := by
  rintro ⟨_, _, ⟨⟩⟩

/-- An operation with a single failure fails otherwise than it may where it may not fail so. -/
@[simp] theorem leaves_error_iff : Leaves allowed (.error failure : Except Failure α) ↔
    failure ∉ allowed := by
  simp [Leaves]

/-- Of two operations one after the other the first one fails so, or the second one after it. -/
theorem leaves_bind_iff {next : α → Except Failure β} :
    Leaves allowed (outcome >>= next) ↔
      Leaves allowed outcome ∨ ∃ value, outcome = .ok value ∧ Leaves allowed (next value) := by
  cases outcome <;> simp [bind, Except.bind]

/-- Applying a function makes no difference to failures. -/
theorem leaves_map_iff {f : α → β} :
    Leaves allowed (outcome.map f) ↔ Leaves allowed outcome := by
  cases outcome <;> simp [Except.map]

namespace Told

/-- Parts that cannot be read are a refusal where an operation says so. -/
theorem not_leaves_orRefused (told : Told allowed) {reading : Reading α} :
    ¬Leaves allowed reading.orRefused := by
  cases reading with
  | ok value => exact not_leaves_ok
  | faulty faults => exact leaves_error_iff.not.2 (not_not.2 (told.invalidFlow _))

/-- Parts that cannot be read are no refusal otherwise. -/
theorem leaves_orUnfit_iff (told : Told allowed) {reading : Reading α} :
    Leaves allowed reading.orUnfit ↔ ∃ faults, reading = .faulty faults := by
  cases reading with
  | ok value => exact iff_of_false not_leaves_ok (by rintro ⟨_, ⟨⟩⟩)
  | faulty faults => exact iff_of_true (leaves_error_iff.2 (told.unfit faults)) ⟨faults, rfl⟩

/-- That a value cannot be written is no refusal. -/
theorem leaves_write_iff [Writable α] (told : Told allowed) {value : α} :
    Leaves allowed (Writable.write value) ↔ Writable.isWritable value = false := by
  unfold Writable.write Writable.isWritable
  cases Writable.obstacle value Json.writableNesting with
  | none => exact iff_of_false not_leaves_ok Bool.noConfusion
  | some found => exact iff_of_true (leaves_error_iff.2 (told.unwritten found)) rfl

end Told

end Failure

open Failure (Leaves Told refusals templateRefusals mem_templateRefusals_iff told_refusals
  told_templateRefusals leaves_bind_iff leaves_map_iff leaves_error_iff not_leaves_ok)

variable {allowed : Set Failure}

/-! ## Flows -/

namespace Flow

variable {flow : Flow} {value : Json}

/-- That a flow stands for no field list is no refusal. -/
theorem leaves_linear_iff (told : Told allowed) : Leaves allowed flow.linear ↔ flow.ShowsUnnamed := by
  by_cases unnamed : flow.ShowsUnnamed
  · obtain ⟨faults, isError⟩ := exists_unfit_linear unnamed
    rw [isError]
    exact iff_of_true (leaves_error_iff.2 (told.unfit faults)) unnamed
  · obtain ⟨fields, isLinear⟩ := exists_linear_of_named unnamed
    rw [isLinear]
    exact iff_of_false not_leaves_ok unnamed

/-- A flow that is not loaded is refused. -/
theorem not_leaves_load (told : Told allowed) : ¬Leaves allowed (load value) := by
  unfold load
  split
  · exact told.not_leaves_orRefused
  · exact leaves_error_iff.not.2 (not_not.2 (told.invalidFlow _))

/-- A flow that is not loaded is refused with reasons. -/
theorem exists_reasons_of_load {failure : Failure} (fails : load value = .error failure) :
    ∃ reasons, failure = .invalidFlow reasons := by
  have notLeaves : ¬Leaves refusals (load value) := not_leaves_load told_refusals
  rw [fails, leaves_error_iff, not_not] at notLeaves
  exact notLeaves

end Flow

/-! ## Envelopes -/

namespace Envelope

variable {value : Json} {envelope : Envelope} {members : Members} {text : Text}

/-- A value looks like an envelope, its parts are loaded, and the flow among them shows a statement
without a name. -/
def BringsUnnamed (value : Json) : Prop :=
  ∃ members envelope, value = .obj members ∧ looksRight value = true ∧
    loadParts members = .ok envelope ∧ ∃ flow ∈ envelope.flow, flow.ShowsUnnamed

/-- The flow of the reduced form shows no statement without a name. -/
theorem not_showsUnnamed_expanded
    (valid : ∀ fields ∈ envelope.fields, ∀ field ∈ fields, Field.format.Valid field) :
    ¬envelope.expanded.ShowsUnnamed := by
  have valid := forall_mem_fields valid
  rintro ⟨node, inShown, unnamed⟩
  have mem := Flow.mem_of_mem_shownNodes inShown
  unfold expanded at mem
  split at mem
  · exact Flow.not_unnamed_of_mem_column
      (fun field mem => valid field (Flow.mem_of_mem_reachedFields (Flow.mem_firstsAfter mem).1)) mem
      unnamed
  · exact Flow.not_unnamed_of_mem_column (fun field mem => valid field (Flow.mem_firstsAfter mem).1)
      mem unnamed

/-- The parts of an envelope that are not loaded are refused. -/
theorem not_leaves_loadParts (told : Told allowed) : ¬Leaves allowed (loadParts members) := by
  unfold loadParts
  split
  · exact told.not_leaves_orRefused
  · rw [leaves_bind_iff]
    rintro (leaves | ⟨flow, _, leaves⟩)
    · exact Flow.not_leaves_load told leaves
    · exact told.not_leaves_orRefused leaves

/-- The fields of an envelope whose parts were loaded can be read once they were written. -/
theorem valid_of_loadParts (loads : loadParts members = .ok envelope) :
    ∀ fields ∈ envelope.fields, ∀ field ∈ fields, Field.format.Valid field := by
  unfold loadParts at loads
  split at loads
  · exact valid_of_ofMembers (Members.wellKeyed_eq_ok_iff.1 (Reading.orRefused_eq_ok_iff.1 loads)).2
  · obtain ⟨flow, _, loads⟩ := Failure.bind_eq_ok_iff.1 loads
    exact valid_of_ofMembers (Members.wellKeyed_eq_ok_iff.1 (Reading.orRefused_eq_ok_iff.1 loads)).2

/-- An envelope fails to be completed where its flow shows a statement without a name. -/
theorem leaves_completed_iff (told : Told allowed) (loads : loadParts members = .ok envelope) :
    Leaves allowed envelope.completed ↔ ∃ flow ∈ envelope.flow, flow.ShowsUnnamed := by
  rw [completed, withFlow, leaves_map_iff, Flow.leaves_linear_iff told]
  cases same : envelope.flow with
  | none => exact iff_of_false (not_showsUnnamed_expanded (valid_of_loadParts loads)) (by simp)
  | some flow => simp

/-- An import fails otherwise than by a refusal exactly where a statement without a name is brought. -/
theorem leaves_load_iff : Leaves templateRefusals (load value) ↔ BringsUnnamed value := by
  constructor
  · intro leaves
    unfold load at leaves
    split at leaves
    · rename_i members
      split at leaves
      · rename_i looks
        obtain leaves | ⟨envelope, loads, leaves⟩ := leaves_bind_iff.1 leaves
        · exact absurd leaves (not_leaves_loadParts told_templateRefusals)
        · exact ⟨members, envelope, rfl, looks, loads,
            (leaves_completed_iff told_templateRefusals loads).1 leaves⟩
      · exact absurd (.inl rfl) (leaves_error_iff.1 leaves)
    · exact absurd (.inl rfl) (leaves_error_iff.1 leaves)
  · rintro ⟨members, envelope, rfl, looks, loads, unnamed⟩
    rw [load, if_pos looks, leaves_bind_iff]
    exact .inr ⟨envelope, loads, (leaves_completed_iff told_templateRefusals loads).2 unnamed⟩

/-! ## Envelopes in free text -/

/-- What the fenced blocks of a text hold, and what begins at its braces where the text has a key of an
envelope. -/
def candidates (text : Text) : List (Except Json.Refusal Json) :=
  (fencedTexts text).map Json.read ++
    if hasMarker text then (bracedTexts text).map frontValue else []

variable {candidate : Except Json.Refusal Json} {found others : List (Except Json.Refusal Json)}

/-- A candidate is passed over: it is not read, but not for the digits of an integer, or it is refused as
an envelope. -/
def PassedOver (candidate : Except Json.Refusal Json) : Prop :=
  (∃ refusal, candidate = .error refusal ∧ ∀ count, refusal ≠ .tooManyDigits count) ∨
    ∃ value, candidate = .ok value ∧ ∃ failure ∈ templateRefusals, load value = .error failure

/-- A candidate ends the search without an envelope: it holds an integer of too many digits, or it brings
a statement without a name. -/
def Breaks (candidate : Except Json.Refusal Json) : Prop :=
  (∃ count, candidate = .error (.tooManyDigits count)) ∨
    ∃ value, candidate = .ok value ∧ BringsUnnamed value

/-- The first of some candidates that is not passed over ends the search without an envelope. -/
def FirstBreaks (found : List (Except Json.Refusal Json)) : Prop :=
  ∃ before candidate after, found = before ++ candidate :: after ∧
    (∀ passed ∈ before, PassedOver passed) ∧ Breaks candidate

/-- The search goes on exactly after a candidate that is passed over. -/
theorem ofCandidate_eq_none_iff : ofCandidate candidate = .ok none ↔ PassedOver candidate := by
  cases candidate with
  | error refusal => cases refusal <;> simp [ofCandidate, PassedOver]
  | ok value =>
    cases loads : load value with
    | ok envelope => simp [ofCandidate, PassedOver, loads]
    | error failure =>
      cases failure <;> simp [ofCandidate, PassedOver, loads, mem_templateRefusals_iff]

/-- The search fails exactly at a candidate that ends it without an envelope. -/
theorem exists_ofCandidate_eq_error_iff :
    (∃ failure, ofCandidate candidate = .error failure) ↔ Breaks candidate := by
  cases candidate with
  | error refusal => cases refusal <;> simp [ofCandidate, Breaks]
  | ok value =>
    have breaks : Breaks (.ok value) ↔ Leaves templateRefusals (load value) := by
      simp [Breaks, leaves_load_iff]
    rw [breaks]
    cases loads : load value with
    | ok envelope => simp [ofCandidate, loads]
    | error failure => cases failure <;> simp [ofCandidate, loads, mem_templateRefusals_iff]

/-- The first of some candidates is passed over, or it ends the search. -/
theorem firstBreaks_cons_iff : FirstBreaks (candidate :: others) ↔
    Breaks candidate ∨ PassedOver candidate ∧ FirstBreaks others := by
  constructor
  · rintro ⟨before, first, after, same, passed, breaks⟩
    cases before with
    | nil =>
      cases same
      exact .inl breaks
    | cons head rest =>
      cases same
      rw [List.forall_mem_cons] at passed
      exact .inr ⟨passed.1, rest, first, after, rfl, passed.2, breaks⟩
  · rintro (breaks | ⟨here, before, first, after, rfl, passed, breaks⟩)
    · exact ⟨[], candidate, others, rfl, fun _ mem => absurd mem List.not_mem_nil, breaks⟩
    · exact ⟨candidate :: before, first, after, rfl, List.forall_mem_cons.2 ⟨here, passed⟩, breaks⟩

/-- Of two groups of candidates the first one ends the search, or it is passed over and the second one
does. -/
theorem firstBreaks_append_iff : FirstBreaks (found ++ others) ↔
    FirstBreaks found ∨ (∀ passed ∈ found, PassedOver passed) ∧ FirstBreaks others := by
  induction found with
  | nil => simp [FirstBreaks]
  | cons candidate rest ih =>
    rw [List.cons_append, firstBreaks_cons_iff, firstBreaks_cons_iff, ih, List.forall_mem_cons]
    tauto

section FirstAmong

variable {read : Text → Except Json.Refusal Json} {texts : List Text}

/-- No envelope is found among candidates that are all passed over. -/
theorem firstAmong_eq_none_iff :
    firstAmong read texts = .ok none ↔ ∀ passed ∈ texts.map read, PassedOver passed := by
  induction texts with
  | nil => simp [firstAmong]
  | cons text rest ih =>
    rw [List.map_cons, List.forall_mem_cons, ← ih, ← ofCandidate_eq_none_iff, firstAmong]
    split
    · rename_i isNone
      exact (and_iff_right isNone).symm
    · rename_i notNone
      exact iff_of_false notNone fun both => notNone both.1

/-- The search among candidates fails exactly where the first one that is not passed over ends it
without an envelope. -/
theorem exists_firstAmong_eq_error_iff :
    (∃ failure, firstAmong read texts = .error failure) ↔ FirstBreaks (texts.map read) := by
  induction texts with
  | nil => simp [firstAmong, FirstBreaks]
  | cons text rest ih =>
    rw [List.map_cons, firstBreaks_cons_iff, ← ih, ← ofCandidate_eq_none_iff,
      ← exists_ofCandidate_eq_error_iff, firstAmong]
    split
    · rename_i isNone
      simp [isNone]
    · rename_i notNone
      exact (or_iff_left fun both => notNone both.1).symm

end FirstAmong

/-- The search in a text fails exactly where the first of its candidates that is not passed over ends it
without an envelope. -/
theorem exists_extract?_eq_error_iff :
    (∃ failure, extract? text = .error failure) ↔ FirstBreaks (candidates text) := by
  rw [candidates, firstBreaks_append_iff, ← exists_firstAmong_eq_error_iff, ← firstAmong_eq_none_iff,
    extract?]
  split
  · rename_i isNone
    split
    · rw [← exists_firstAmong_eq_error_iff]
      simp [isNone, searched]
    · simp [isNone, FirstBreaks]
  · rename_i notNone
    exact (or_iff_left fun both => notNone both.1).symm

end Envelope

/-! ## Values of moderate size -/

namespace Json

mutual

/-- How many digits the longest integer in a value has. -/
def digits : Json → Nat
  | num (.int n) => (Text.ofNat n.natAbs).length
  | arr items => digitsOfItems items
  | obj members => digitsOfMembers members
  | _ => 0

/-- `digits` of the item with the longest integer. -/
def digitsOfItems : List Json → Nat
  | [] => 0
  | item :: rest => max (digits item) (digitsOfItems rest)

/-- `digits` of the value of the member with the longest integer. -/
def digitsOfMembers : List (Text × Json) → Nat
  | [] => 0
  | (_, value) :: rest => max (digits value) (digitsOfMembers rest)

end

/-- How deep a value may be for a machine to copy it. This is more than may be written, so a value that is
too deep to be written may still be copied. -/
def copyableNesting : Nat := 400

/-- A value that a machine can copy and whose integers it can tell of. -/
structure IsModerate (value : Json) : Prop where
  /-- It is not too deep to be copied. -/
  nesting_le : value.nesting ≤ copyableNesting
  /-- Its integers have not too many digits. -/
  digits_le : value.digits ≤ Numeral.digitLimit

end Json

/-- A form whose settings and fields are of moderate size. -/
structure Record.IsModerate (record : Record) : Prop where
  /-- Its card settings are. -/
  cardSettings : (Json.obj record.cardSettings).IsModerate
  /-- Its fields are. -/
  fields : (Writable.toJson record.fields).IsModerate

/-! ## Records -/

/-- A flow cannot be stored: it shows a statement without a name, or it cannot be written. -/
def Flow.Unstorable (flow : Flow) : Prop := flow.ShowsUnnamed ∨ Writable.isWritable flow = false

namespace Record

variable {record : Record} {flow : Flow} {value : Json}

/-- No flow is stored, and the stored viewport is an object that cannot be read. -/
def ViewportUnreadable (record : Record) : Prop :=
  (Json.obj record.cardSettings).get flowSetting = .null ∧
    ∃ members faults, (Json.obj record.cardSettings).get viewportSetting = .obj members ∧
      Viewport.read (.obj members) = .faulty faults

/-- A form fails to be opened otherwise than by a refusal exactly where its viewport is needed and cannot
be read. -/
theorem leaves_flow_iff (told : Told allowed) :
    Leaves allowed record.flow ↔ record.ViewportUnreadable := by
  unfold Record.flow ViewportUnreadable
  split
  · rename_i isNull
    rw [leaves_map_iff, storedViewport, isNull]
    split
    · rename_i members isObject
      rw [leaves_map_iff, told.leaves_orUnfit_iff, isObject]
      simp
    · rename_i notObject
      refine iff_of_false not_leaves_ok ?_
      rintro ⟨_, members, _, isObject, _⟩
      exact notObject members isObject
  · rename_i notNull
    rw [leaves_map_iff]
    exact iff_of_false (Flow.not_leaves_load told) fun unreadable => notNull unreadable.1

/-- A loaded flow fails to be stored exactly where it cannot be. -/
theorem leaves_withFlow_iff (told : Told allowed) :
    Leaves allowed (record.withFlow flow) ↔ flow.Unstorable := by
  rw [withFlow, leaves_bind_iff, Flow.leaves_linear_iff told, Flow.Unstorable]
  refine or_congr_right' fun named => ?_
  obtain ⟨fields, isLinear⟩ := Flow.exists_linear_of_named named
  simp only [isLinear, Except.ok.injEq, exists_eq_left', leaves_bind_iff, told.leaves_write_iff]
  simp [pure, Except.pure]

/-- A flow given as JSON fails to be saved otherwise than by a refusal exactly where it is loaded and
cannot be stored. -/
theorem leaves_saveJson_iff (told : Told allowed) :
    Leaves allowed (record.saveJson value) ↔
      ∃ loaded, Flow.load value = .ok loaded ∧ loaded.Unstorable := by
  rw [saveJson, leaves_bind_iff, or_iff_right (Flow.not_leaves_load told)]
  simp only [leaves_withFlow_iff told]

/-- A flow fails to be saved otherwise than by a refusal exactly where it cannot be written for the check,
or it is loaded after that and cannot be stored. -/
theorem leaves_save_iff (told : Told allowed) :
    Leaves allowed (record.save flow) ↔ Writable.isWritable flow = false ∨
      ∃ loaded, Flow.load flow.toJson = .ok loaded ∧ loaded.Unstorable := by
  rw [save, leaves_bind_iff, told.leaves_write_iff]
  refine or_congr_right' fun writable => ?_
  rw [Bool.not_eq_false] at writable
  simp only [leaves_saveJson_iff told, Writable.write_eq_ok_iff, writable, true_and, exists_eq_left']
  rfl

/-- When importing, finding, opening, exporting, saving and applying fail otherwise than by a refusal, and
when a flow stands for a field list. What is read from outside or copied on the way is of moderate size:
the proof has no use for that, but on a machine the operation fails beyond it. A flow that is saved as it
is, or with an envelope, is written first and no deeper than that. -/
theorem leaves_iff (record : Record) (envelope : Envelope) (flow : Flow) (value graph : Json)
    (text : Text) :
    (value.IsModerate →
      (Leaves templateRefusals (Envelope.load value) ↔ Envelope.BringsUnnamed value)) ∧
    ((∀ found, .ok found ∈ Envelope.candidates text → found.IsModerate) →
      ((∃ failure, Envelope.extract? text = .error failure) ↔
        Envelope.FirstBreaks (Envelope.candidates text))) ∧
    (record.IsModerate →
      (Leaves refusals record.flow ↔ record.ViewportUnreadable) ∧
      (Leaves refusals record.envelope ↔ record.ViewportUnreadable)) ∧
    (graph.IsModerate →
      (Leaves refusals (record.saveJson graph) ↔
        ∃ loaded, Flow.load graph = .ok loaded ∧ loaded.Unstorable)) ∧
    (Leaves refusals (record.save flow) ↔ Writable.isWritable flow = false ∨
      ∃ loaded, Flow.load flow.toJson = .ok loaded ∧ loaded.Unstorable) ∧
    (Leaves refusals (record.apply envelope) ↔
      Writable.isWritable (envelope.flow.getD envelope.expanded) = false ∨
        ∃ loaded, Flow.load (envelope.flow.getD envelope.expanded).toJson = .ok loaded ∧
          loaded.Unstorable) ∧
    (flow.toJson.IsModerate → ((∃ fields, flow.linear = .ok fields) ↔ ¬flow.ShowsUnnamed)) := by
  have told := told_refusals
  refine ⟨fun _ => Envelope.leaves_load_iff, fun _ => Envelope.exists_extract?_eq_error_iff, fun _ => ?_,
    fun _ => leaves_saveJson_iff told, leaves_save_iff told, leaves_save_iff told,
    fun _ => Flow.exists_linear_iff⟩
  exact ⟨leaves_flow_iff told, leaves_map_iff.trans (leaves_flow_iff told)⟩

end Record

/-! ## A statement without a name -/

namespace Flow

/-- A chain through a statement that has no identifier for its field. -/
def nameless : Flow := stated []

/-- That chain is loaded. -/
theorem load_nameless : load nameless.toJson = .ok nameless := load_stated []

/-- That chain shows its statement. -/
theorem showsUnnamed_nameless : nameless.ShowsUnnamed :=
  showsUnnamed_stated fun name => name.2 rfl

/-- An envelope with it brings a statement without a name. -/
theorem bringsUnnamed_nameless :
    Envelope.BringsUnnamed (.obj [(Envelope.flowKey.camel, nameless.toJson)]) := by
  have loads : Envelope.loadParts [(Envelope.flowKey.camel, nameless.toJson)] =
      .ok { flow := some nameless } :=
    Failure.bind_eq_ok_iff.2 ⟨nameless, load_nameless, rfl⟩
  exact ⟨_, _, rfl, rfl, loads, nameless, rfl, showsUnnamed_nameless⟩

/-- It cannot be saved. -/
theorem unstorable_nameless : nameless.Unstorable := .inl showsUnnamed_nameless

end Flow

namespace Record

/-- A form without a flow, whose viewport cannot be read. -/
def unplaced : Record := { cardSettings := [(viewportSetting, .obj [])] }

/-- Its viewport is needed. -/
theorem viewportUnreadable_unplaced : unplaced.ViewportUnreadable := ⟨rfl, _, _, rfl, rfl⟩

/-- A text with an object that is no envelope has a single candidate. -/
theorem candidates_quoted : Envelope.candidates "\x7b\"a\":[]\x7d \"schema\"" =
    [.ok (.obj [("a", .arr [])])] := by
  have noBlocks : Fence.bodies "\x7b\"a\":[]\x7d \"schema\"" = [] := by
    rw [Fence.bodies]
    rfl
  have front : Envelope.frontValue "\x7b\"a\":[]\x7d \"schema\"" = .ok (.obj [("a", .arr [])]) := by
    cbv
  rw [Envelope.candidates, Envelope.fencedTexts, noBlocks, if_pos (by decide)]
  exact congrArg (fun value => [value]) front

/-- Such a text breaks nothing. -/
theorem not_firstBreaks_quoted :
    ¬Envelope.FirstBreaks (Envelope.candidates "\x7b\"a\":[]\x7d \"schema\"") := by
  rw [candidates_quoted, Envelope.firstBreaks_cons_iff]
  rintro ((⟨_, ⟨⟩⟩ | ⟨_, ⟨⟩, _, _, ⟨⟩, looks, _⟩) | ⟨_, _, _, _, nothing, _⟩)
  · exact nomatch looks
  · exact absurd nothing.symm (List.append_ne_nil_of_right_ne_nil _ (List.cons_ne_nil _ _))

/-- A flow with a statement without a name is neither imported, saved nor applied, and no form is opened or
exported whose viewport cannot be read; these fail by no refusal. -/
theorem leaves_iff_nameless :
    Leaves templateRefusals (Envelope.load (.obj [(Envelope.flowKey.camel, Flow.nameless.toJson)])) ∧
      (¬∃ failure, Envelope.extract? "\x7b\"a\":[]\x7d \"schema\"" = .error failure) ∧
      Leaves refusals unplaced.flow ∧ Leaves refusals unplaced.envelope ∧
      Leaves refusals (unplaced.saveJson Flow.nameless.toJson) ∧
      Leaves refusals (unplaced.save Flow.nameless) ∧
      Leaves refusals (unplaced.apply { flow := some Flow.nameless }) ∧
      ¬∃ fields, Flow.nameless.linear = .ok fields := by
  obtain ⟨imports, finds, opens, savesJson, saves, applies, isLinear⟩ :=
    leaves_iff unplaced { flow := some Flow.nameless } Flow.nameless
      (.obj [(Envelope.flowKey.camel, Flow.nameless.toJson)]) Flow.nameless.toJson
      "\x7b\"a\":[]\x7d \"schema\""
  have moderate : Flow.nameless.toJson.IsModerate := ⟨by decide, by decide⟩
  obtain ⟨opens, exports⟩ := opens ⟨⟨by decide, by decide⟩, ⟨by decide, by decide⟩⟩
  have isCandidate : ∀ found, .ok found ∈ Envelope.candidates "\x7b\"a\":[]\x7d \"schema\"" →
      found.IsModerate := by
    rw [candidates_quoted]
    rintro _ mem
    cases List.mem_singleton.1 mem
    exact ⟨by decide, by decide⟩
  have unstorable : ∃ loaded, Flow.load Flow.nameless.toJson = .ok loaded ∧ loaded.Unstorable :=
    ⟨Flow.nameless, Flow.load_nameless, Flow.unstorable_nameless⟩
  exact ⟨(imports ⟨by decide, by decide⟩).2 Flow.bringsUnnamed_nameless,
    (finds isCandidate).not.2 not_firstBreaks_quoted, opens.2 viewportUnreadable_unplaced,
    exports.2 viewportUnreadable_unplaced, (savesJson moderate).2 unstorable, saves.2 (.inr unstorable),
    applies.2 (.inr unstorable), (isLinear moderate).not.2 (not_not.2 Flow.showsUnnamed_nameless)⟩

end Record

/-- A flow is loaded that stands for no field list, so that the import of an envelope with it fails by no
refusal; nor does a form with a viewport that cannot be read. -/
theorem Flow.exists_unfit :
    ∃ value flow, load value = .ok flow ∧ (¬∃ fields, flow.linear = .ok fields) ∧
      Leaves templateRefusals (Envelope.load (.obj [(Envelope.flowKey.camel, value)])) ∧
      ∃ record : Record, Leaves refusals record.flow :=
  ⟨_, nameless, load_nameless, exists_linear_iff.not.2 (not_not.2 showsUnnamed_nameless),
    Envelope.leaves_load_iff.2 bringsUnnamed_nameless, Record.unplaced,
    (Record.leaves_flow_iff told_refusals).2 Record.viewportUnreadable_unplaced⟩

end CardForm
