import CardForm.Proofs.Flow.Appended
import CardForm.Proofs.Flow.Chain
import Mathlib.Data.Nat.Find

/-!
# Piping keys

A new question gets the first of the numbered piping keys that no answer shown is named by. There is one,
because the keys are told apart by their numbers (`Flow.pipingKeyAt_inj`) and so cannot all be taken. A key
has no spacing around it, so the answer to the new question is named by it; where the answers were told
apart by their names before, they are still (`Flow.newPipingKey_fresh`).
-/
namespace CardForm

/-- A field with a piping key that has no spacing around it is named by it. -/
theorem Field.pipingToken_of_key {field : Field} {key : Text} (isKey : field.pipingKey = some key)
    (trimmed : key.trim CodePoint.isSpacing = key) (notEmpty : key ≠ []) :
    field.pipingToken = key := by
  obtain ⟨c, rest, rfl⟩ := List.exists_cons_of_ne_nil notEmpty
  rw [pipingToken, isKey, Option.map_some, trimmed]

namespace Flow

variable {flow next : Flow} {fields : List Field} {id : Text}

/-! ## The numbered keys -/

/-- The piping keys are told apart by their numbers. -/
theorem pipingKeyAt_inj {m n : Nat} : pipingKeyAt m = pipingKeyAt n ↔ m = n := by
  have numbered {n : Nat} (pos : n ≠ 0) : pipingKeyAt n = "question_" ++ Text.ofNat n := if_neg pos
  -- the key without a number is too short for one with a number
  have bare {n : Nat} (pos : n ≠ 0) : pipingKeyAt 0 ≠ pipingKeyAt n := by
    intro same
    have lengths := congrArg List.length same
    rw [numbered pos, List.length_append] at lengths
    have short : (pipingKeyAt 0).length = 8 := by decide
    have long : ("question_" : Text).length = 9 := by decide
    omega
  by_cases zero : m = 0 <;> by_cases otherZero : n = 0
  · exact iff_of_true (by rw [zero, otherZero]) (by rw [zero, otherZero])
  · rw [zero]
    exact iff_of_false (bare otherZero) (Ne.symm otherZero)
  · rw [otherZero]
    exact iff_of_false (Ne.symm (bare zero)) zero
  · rw [numbered zero, numbered otherZero, List.append_right_inj, Text.ofNat_inj]

/-- No character of a piping key is spacing. -/
theorem isSpacing_of_mem_pipingKeyAt {place : Nat} {c : CodePoint} (mem : c ∈ pipingKeyAt place) :
    c.isSpacing = false := by
  have stem : ∀ c ∈ ("question_" : Text), c.isSpacing = false := by decide
  have bare : ∀ c ∈ ("question" : Text), c.isSpacing = false := by decide
  unfold pipingKeyAt at mem
  split at mem
  · exact bare c mem
  · rcases List.mem_append.1 mem with inStem | inDigits
    · exact stem c inStem
    · have range := Text.isDigit_of_mem_ofNat inDigits
      simp only [CodePoint.isDigit, Bool.and_eq_true, decide_eq_true_eq] at range
      simp only [CodePoint.isSpacing, CodePoint.isBlank, Bool.or_eq_false_iff, Bool.and_eq_false_iff,
        decide_eq_false_iff_not, beq_eq_false_iff_ne]
      omega

/-- A piping key is not empty. -/
theorem pipingKeyAt_ne_nil (place : Nat) : pipingKeyAt place ≠ [] := by
  unfold pipingKeyAt
  split
  · decide
  · exact List.append_ne_nil_of_left_ne_nil (by decide) _

/-- Of the piping keys the one of some number is the first that is not used. -/
structure FirstFree (used : List Text) (place : Nat) : Prop where
  /-- It is not used. -/
  free : pipingKeyAt place ∉ used
  /-- All before it are. -/
  taken : ∀ earlier < place, pipingKeyAt earlier ∈ used

/-- Among the keys, as many as are used and one more, there is one that is not used: they cannot all be
taken, because they are told apart. -/
theorem exists_free (used : List Text) : ∃ place ≤ used.length, pipingKeyAt place ∉ used := by
  by_contra allTaken
  simp only [not_exists, not_and, not_not] at allTaken
  have distinct : ((List.range (used.length + 1)).map pipingKeyAt).Nodup :=
    List.nodup_range.map fun m n same => pipingKeyAt_inj.1 same
  have subset : (List.range (used.length + 1)).map pipingKeyAt ⊆ used := by
    intro key mem
    obtain ⟨place, inRange, rfl⟩ := List.mem_map.1 mem
    exact allTaken place (Nat.le_of_lt_succ (List.mem_range.1 inRange))
  have tooMany := (List.subperm_of_subset distinct subset).length_le
  rw [List.length_map, List.length_range] at tooMany
  omega

/-- One piping key is the first that is not used, and it comes after no more keys than there are used
ones. -/
theorem exists_firstFree (used : List Text) : ∃ place ≤ used.length, FirstFree used place := by
  classical
  obtain ⟨bound, le, free⟩ := exists_free used
  have someFree : ∃ place, pipingKeyAt place ∉ used := ⟨bound, free⟩
  refine ⟨Nat.find someFree, Nat.le_trans (Nat.find_min' someFree free) le,
    Nat.find_spec someFree, fun earlier before => ?_⟩
  exact not_not.1 (Nat.find_min someFree before)

/-- The key that is taken is the first that is not used. -/
theorem freePipingKey_eq {used : List Text} {place : Nat} (within : place ≤ used.length)
    (isFirst : FirstFree used place) : freePipingKey used = pipingKeyAt place := by
  have found : ((List.range (used.length + 1)).map pipingKeyAt).find? (fun key => !used.contains key) =
      some (pipingKeyAt place) := by
    refine List.find?_eq_some_iff_getElem.2 ⟨by simpa using isFirst.free, place, ?_, ?_, ?_⟩
    · rw [List.length_map, List.length_range]
      exact Nat.lt_succ_of_le within
    · rw [List.getElem_map, List.getElem_range]
    · intro earlier before
      rw [List.getElem_map, List.getElem_range]
      simpa using isFirst.taken earlier before
  rw [freePipingKey, found, Option.getD_some]

/-- A flow that stands for fields gives a new question the first piping key by which none of them is
named. -/
theorem exists_newPipingKey (isLinear : flow.linear = .ok fields) :
    ∃ place ≤ fields.length, flow.newPipingKey = .ok (pipingKeyAt place) ∧
      FirstFree (fields.map Field.pipingToken) place := by
  obtain ⟨place, within, isFirst⟩ := exists_firstFree (fields.map Field.pipingToken)
  refine ⟨place, List.length_map Field.pipingToken ▸ within, ?_, isFirst⟩
  rw [newPipingKey, isLinear, ← freePipingKey_eq within isFirst]
  rfl

/-! ## Names of answers -/

/-- The field of a new question with a numbered key is named by the key. -/
theorem pipingToken_newQuestion {place : Nat} {y : Number} {field : Field}
    (isShown : (newQuestion id (some (pipingKeyAt place)) y).field? = .ok (some field)) :
    field.pipingToken = pipingKeyAt place := by
  cases isShown
  have trimmed : (pipingKeyAt place).trim CodePoint.isSpacing = pipingKeyAt place :=
    Text.trim_eq_self fun c mem => isSpacing_of_mem_pipingKeyAt mem
  exact Field.pipingToken_of_key rfl trimmed (pipingKeyAt_ne_nil place)

/-- The last node of the identifier of a new question is that question, with the piping key that was new
before. -/
theorem Wired.lastNode?_addQuestion (wired : flow.Wired)
    (adds : flow.addWithId .question id = .ok next) :
    ∃ key y, flow.newPipingKey = .ok key ∧ next.lastNode? id = some (newQuestion id (some key) y) := by
  obtain ⟨_, y, node, isNew, rfl⟩ := wired.exists_of_addWithId adds
  obtain ⟨key, isKey, named⟩ := Failure.bind_eq_ok_iff.1 isNew
  obtain ⟨found, isId, same⟩ := Failure.bind_eq_ok_iff.1 named
  obtain ⟨_, rfl⟩ := cardId_eq_ok_iff.1 isId
  cases same
  have bears : (newQuestion found (some key) y).id = found := rfl
  refine ⟨key, y, isKey, ?_⟩
  rw [lastNode?, List.reverse_append, List.reverse_singleton, List.singleton_append,
    List.find?_cons_of_pos (by simp [bears])]

/-- Answers that are told apart by their names still are with a new question. -/
theorem Wired.nodup_pipingToken (wired : flow.Wired) (synced : flow.Synced)
    (isLinear : flow.linear = .ok fields) (apart : (fields.map Field.pipingToken).Nodup)
    (adds : flow.addWithId .question id = .ok next) :
    ∃ shown, next.linear = .ok shown ∧ (shown.map Field.pipingToken).Nodup := by
  have named := exists_linear_iff.1 ⟨fields, isLinear⟩
  obtain ⟨new, field, before, after, isLast, isField, _, wasLinear, reached, notReached⟩ :=
    (wired.extends_addWithId synced named adds).fields
  rw [isLinear, Except.ok.injEq] at wasLinear
  subst wasLinear
  by_cases reaches : flow.ReachesLast
  · obtain ⟨place, _, isNewKey, isFirst⟩ := exists_newPipingKey isLinear
    obtain ⟨key, y, isKey, isQuestion⟩ := wired.lastNode?_addQuestion adds
    obtain rfl : pipingKeyAt place = key := Except.ok.inj (isNewKey.symm.trans isKey)
    obtain rfl : newQuestion id (some (pipingKeyAt place)) y = new :=
      Option.some.inj (isQuestion.symm.trans isLast)
    refine ⟨_, reached reaches, ?_⟩
    have token := pipingToken_newQuestion isField
    have free := isFirst.free
    rw [List.map_append] at apart free
    rw [List.map_append, List.map_cons, List.nodup_middle, List.nodup_cons, token]
    exact ⟨free, apart⟩
  · exact ⟨_, notReached reaches, apart⟩

/-- A new question of a flow that stands for fields gets the first of the numbered piping keys by which none
of them is named; no more keys are tried than there are fields, and one more. Where the flow was loaded, its
copies are up to date and its fields are told apart by these names, a question can be added under each
identifier that is not in use and that a field can bear, and the fields are still told apart by their
names. -/
theorem newPipingKey_fresh (isLinear : flow.linear = .ok fields) :
    (∃ place ≤ fields.length, flow.newPipingKey = .ok (pipingKeyAt place) ∧
        FirstFree (fields.map Field.pipingToken) place) ∧
      ∀ value, load value = .ok flow → flow.Synced → (fields.map Field.pipingToken).Nodup →
        ∀ wanted randomDigits,
          ((∃ next, flow.add .question wanted randomDigits = .ok next) ↔
            newId wanted randomDigits ∉ flow.ids ∧
              Format.name.Valid (newId wanted randomDigits)) ∧
          ∀ next, flow.add .question wanted randomDigits = .ok next →
            ∃ shown, next.linear = .ok shown ∧ (shown.map Field.pipingToken).Nodup := by
  refine ⟨exists_newPipingKey isLinear, ?_⟩
  intro value loads synced apart wanted randomDigits
  refine ⟨?_, fun next adds => ?_⟩
  · rw [exists_add_iff]
    simp [isLinear]
  · exact (sound_of_load loads).wired.nodup_pipingToken synced isLinear apart adds

/-- A chain through a question named as the second key and one named as the first. -/
def keyedChain : Flow := chain [.bare "question_1", .bare "question"] none

/-- A new question gets the third key there, and the three answers are told apart. -/
theorem newPipingKey_fresh_taken :
    keyedChain.newPipingKey = .ok "question_2" ∧
      ∃ next shown, keyedChain.add .question "c" [] = .ok next ∧ next.linear = .ok shown ∧
        (shown.map Field.pipingToken).Nodup := by
  have fieldsRead := Field.exists_read_bare ["question_1", "question"] (by decide)
  have isLinear : keyedChain.linear = .ok [.bare "question_1", .bare "question"] :=
    (linear_chain_read _ none fieldsRead).2.2.2.2
  have valid := Field.valid_bare ["question_1", "question"] (by decide)
  have once : format.Each .once keyedChain := each_chain_bare ["question_1", "question"]
  have loads : load keyedChain.toJson = .ok keyedChain :=
    (load_toJson_eq_ok_iff once).2 ⟨sound_chain valid none, valid_chain valid, rfl⟩
  obtain ⟨⟨place, within, isKey, isFirst⟩, adding⟩ := newPipingKey_fresh isLinear
  obtain ⟨able, apart⟩ := adding _ loads (synced_chain _ none) (by decide) "c" []
  obtain ⟨next, adds⟩ := able.2 ⟨by decide, by decide, by decide⟩
  obtain ⟨shown, isShown, distinct⟩ := apart next adds
  refine ⟨?_, next, shown, adds, isShown, distinct⟩
  have notFree : ∀ place < 2, pipingKeyAt place ∈
      [Field.bare "question_1", .bare "question"].map Field.pipingToken := by decide
  have isThird : place = 2 :=
    Nat.le_antisymm within (Nat.le_of_not_lt fun less => isFirst.free (notFree place less))
  rw [isKey, isThird]
  rfl

end Flow

end CardForm
