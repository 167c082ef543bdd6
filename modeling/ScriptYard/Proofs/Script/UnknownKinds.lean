import Mathlib.Data.List.Forall2
import ScriptYard.Proofs.Script.Library
import ScriptYard.Script.Validation

/-!
# What becomes of unknown kinds

An action of an unknown kind is written with a tag that says so and with its kind in a field of its own, but the reader
takes the tag for the kind and passes over the field. The tree that is read back has the same shape, and at each place
the action that `Action.reread` says (`Action.walk_reread`): the kind of an unknown one is always the tag. A validator
finds the same errors and warnings, except that unknown kinds go by the tag (`Validator.check_reread`).

`unknown_kinds_are_kept_iff` says when this makes no difference: exactly when every unknown kind is called by the tag in
the first place.
-/

namespace ScriptYard

namespace Action

/-- Wherever there is an action of an unknown kind in one list, there is one of the same kind in the other. -/
def KeepKinds (actions actions' : List Action) : Prop :=
  List.Forall₂ (fun a b => ∀ kind, a = .unsupported kind → b = .unsupported kind) actions actions'

mutual

/-- The tree has the same shape, and each of its actions is read for itself. -/
theorem walk_reread (a : Action) : a.reread.walk = a.walk.map reread := by
  match a with
  | .condition check onTrue onFalse breakOnTrue d =>
    simp only [reread, walk, walkList_reread onTrue, walkList_reread onFalse, List.map_cons, List.map_append]
  | .loop interval n body d => simp only [reread, walk, walkList_reread body, List.map_cons]
  | .call .. | .templateMatch .. | .readText .. | .wait .. | .setVariable .. | .restart _ | .unsupported _ => rfl

theorem walkList_reread (actions : List Action) : walkList (rereadList actions) = (walkList actions).map reread := by
  match actions with
  | [] => rfl
  | a :: rest => simp only [rereadList, walkList, walk_reread a, walkList_reread rest, List.map_append]

end

mutual

theorem depth_reread (a : Action) : a.reread.depth = a.depth := by
  match a with
  | .condition check onTrue onFalse breakOnTrue d =>
    simp only [reread, depth, depthOfList_reread onTrue, depthOfList_reread onFalse]
  | .loop interval n body d => simp only [reread, depth, depthOfList_reread body]
  | .call .. | .templateMatch .. | .readText .. | .wait .. | .setVariable .. | .restart _ | .unsupported _ => rfl

theorem depthOfList_reread (actions : List Action) : depthOfList (rereadList actions) = depthOfList actions := by
  match actions with
  | [] => rfl
  | a :: rest => simp only [rereadList, depthOfList, depth_reread a, depthOfList_reread rest]

end

/-- Reading actions for themselves keeps their kinds if those that are unknown are called by the tag. -/
theorem keepKinds_map_reread_iff (actions : List Action) :
    KeepKinds actions (actions.map reread) ↔ ∀ kind, .unsupported kind ∈ actions → kind = "unsupported" := by
  rw [KeepKinds, List.forall₂_map_right_iff, List.forall₂_same]
  constructor
  · intro h kind h_mem
    exact (unsupported.inj (h _ h_mem kind rfl)).symm
  · rintro h a h_a kind rfl
    rw [h kind h_a, reread]

end Action

/-! ### Validation -/

/-- The error with an unknown kind called by the tag. -/
def ValidationError.reread : ValidationError → ValidationError
  | .unsupportedKind script _ => .unsupportedKind script "unsupported"
  | e => e

namespace ValidationReport

/-- The report with unknown kinds called by the tag. -/
def reread (r : ValidationReport) : ValidationReport := ⟨r.errors.map ValidationError.reread, r.warnings⟩

@[simp] theorem reread_append (r r' : ValidationReport) : (r ++ r').reread = r.reread ++ r'.reread := by
  show ValidationReport.mk ((r.errors ++ r'.errors).map ValidationError.reread) (r.warnings ++ r'.warnings) = _
  rw [List.map_append]
  rfl

@[simp] theorem reread_all (reports : List ValidationReport) : (all reports).reread = all (reports.map reread) := by
  simp [all, reread, List.map_flatMap, List.flatMap_map]

/-- A report without errors over unknown kinds is what it is. -/
theorem reread_errorIf {e : ValidationError} (h : e.reread = e) (b : Bool) : (errorIf b e).reread = errorIf b e := by
  cases b with
  | false => rfl
  | true => exact congrArg error h

theorem reread_warningIf (b : Bool) (w : ValidationWarning) : (warningIf b w).reread = warningIf b w := by
  cases b <;> rfl

end ValidationReport

namespace Validator

variable (v : Validator)

theorem checkCall_reread (script capability action : String) :
    (v.checkCall script capability action).reread = v.checkCall script capability action := by
  unfold checkCall
  split
  · rfl
  · split
    · rfl
    · exact ValidationReport.reread_errorIf rfl _

theorem checkException_reread (known : Option (List String)) (owner : String) (script : Option String) :
    (checkException known owner script).reread = checkException known owner script := by
  unfold checkException
  split
  · split
    · exact ValidationReport.reread_errorIf rfl _
    · rfl
  · rfl

/-- What is found about an action is found about the one that is read for it. -/
theorem checkAction_reread (script : String) (a : Action) :
    v.checkAction script a.reread = (v.checkAction script a).reread := by
  cases a with
  -- a call is checked in the catalog of capabilities, which has no kinds in it
  | call c d =>
    simp only [Action.reread, checkAction]
    split
    · rfl
    · exact (v.checkCall_reread ..).symm
  | condition check onTrue onFalse breakOnTrue d =>
    cases check with
    | templateMatch => exact (ValidationReport.reread_errorIf rfl _).symm
    | variableCompare => rfl
  | loop interval n body d =>
    simp only [Action.reread, checkAction, ValidationReport.reread_append, ValidationReport.reread_warningIf]
    split <;> rfl
  | wait duration d =>
    simp only [Action.reread, checkAction]
    split <;> rfl
  | templateMatch | setVariable => exact (ValidationReport.reread_errorIf rfl _).symm
  | readText | restart | unsupported => rfl

/-- **A validator finds the same in the script that is read back**, except for how it calls unknown kinds. -/
theorem check_reread (s : ScriptDefinition) : v.check s.reread = (v.check s).reread := by
  have h_empty : s.reread.actions.isEmpty = s.actions.isEmpty := by
    rw [ScriptDefinition.reread, Action.rereadList_eq_map, List.isEmpty_map]
  have h_depth : s.reread.maxDepth = s.maxDepth := Action.depthOfList_reread s.actions
  have h_walk : Action.walkList s.reread.actions = (Action.walkList s.actions).map Action.reread :=
    Action.walkList_reread s.actions
  have h_actions : (v.checkAction s.id ∘ Action.reread) = ValidationReport.reread ∘ v.checkAction s.id :=
    funext (v.checkAction_reread s.id)
  have h_same : s.reread.id = s.id ∧ s.reread.exceptionScript = s.exceptionScript := ⟨rfl, rfl⟩
  simp only [check, ValidationReport.reread_append, ValidationReport.reread_all, checkException_reread, h_empty,
    h_depth, h_walk, h_same, List.map_map, h_actions, ValidationReport.reread_warningIf,
    ValidationReport.reread_errorIf (e := .emptyScript s.id) rfl]

/-- An unknown kind is reported wherever it stands. -/
theorem unsupportedKind_mem_check {s : ScriptDefinition} {kind : String}
    (h : .unsupported kind ∈ Action.walkList s.actions) : .unsupportedKind s.id kind ∈ (v.check s).errors :=
  List.mem_append_right _ (List.mem_flatMap.mpr ⟨_, List.mem_map_of_mem h, List.mem_singleton_self _⟩)

/-- The errors stay what they are exactly if the unknown kinds do. -/
theorem errors_reread_iff (s : ScriptDefinition) : (v.check s.reread).errors = (v.check s).errors ↔
    ∀ kind, .unsupported kind ∈ Action.walkList s.actions → kind = "unsupported" := by
  constructor
  · intro h kind h_kind
    rw [check_reread, ValidationReport.reread] at h
    have h_same := List.map_inj_left.mp (h.trans (List.map_id _).symm)
    exact (ValidationError.unsupportedKind.inj (h_same _ (v.unsupportedKind_mem_check h_kind))).2.symm
  · intro h
    rw [s.reread_eq_self_iff.mpr h]

end Validator

/-! ### Reading what was written -/

/-- **Unknown kinds are kept exactly if they are called by the tag.** A tree that was read from a document is read
back place by place; each unknown kind in it stays the same only if it is `unsupported`, and if all of them are, the
tree is read back as it was. So is a script. What a validator finds in a script that is read back is what it finds in
the script, but with this name for every unknown kind. -/
theorem unknown_kinds_are_kept_iff (v : Value) (a : Action) (s : ScriptDefinition) :
    (v.WellFormed → Action.ofValue v = .ok a →
      ∃ b, Action.ofValue a.toValue = .ok b ∧ b.walk = a.walk.map Action.reread ∧
        (Action.KeepKinds a.walk b.walk ↔ ∀ kind, .unsupported kind ∈ a.walk → kind = "unsupported") ∧
        (b = a ↔ ∀ kind, .unsupported kind ∈ a.walk → kind = "unsupported")) ∧
    (s.InRange →
      ∃ s', ScriptDefinition.shape.ofValue s.toValue = .ok s' ∧
        Action.walkList s'.actions = (Action.walkList s.actions).map Action.reread ∧
        (s' = s ↔ ∀ kind, .unsupported kind ∈ Action.walkList s.actions → kind = "unsupported") ∧
        ∀ validator : Validator, validator.check s' = (validator.check s).reread ∧
          ((validator.check s').errors = (validator.check s).errors ↔
            ∀ kind, .unsupported kind ∈ Action.walkList s.actions → kind = "unsupported")) := by
  refine ⟨fun h_v h_a => ?_, fun h_s => ?_⟩
  · have h_in_range := Action.inRange_of_ofValue v h_v h_a
    refine ⟨a.reread, a.ofValue_toValue_eq h_in_range, a.walk_reread, ?_, a.reread_eq_self_iff⟩
    rw [a.walk_reread]
    exact Action.keepKinds_map_reread_iff a.walk
  · have h_read : ScriptDefinition.shape.ofValue s.toValue = .ok s.reread := by
      rw [RecordShape.ofValue, ScriptDefinition.toValue, ScriptDefinition.read_toDocument_eq h_s (le_refl _)]
      rfl
    exact ⟨s.reread, h_read, Action.walkList_reread s.actions, s.reread_eq_self_iff,
      fun validator => ⟨validator.check_reread s, validator.errors_reread_iff s⟩⟩

/-- An object of an unknown type inside a loop. -/
def odyssey : Value :=
  .object [("actions", .array [.object [("type", .string "teleport")]]), ("max_iterations", .nat 1),
    ("type", .string "loop")]

/-- A script of the action that the object stands for. -/
def odysseyScript : ScriptDefinition :=
  { id := "s", actions := [.loop Finite64.one 1 [.unsupported "teleport"] none] }

/-- The unknown kind is read from the document, but not from what is written for it. -/
theorem odyssey_is_read_back :
    (∃ b, Action.ofValue (Action.toValue (.loop Finite64.one 1 [.unsupported "teleport"] none)) = .ok b ∧
      b.walk.map Action.kind = ["loop", "unsupported"]) ∧
    ∃ s', ScriptDefinition.shape.ofValue odysseyScript.toValue = .ok s' ∧
      (Validator.check {} s').errors = [.unsupportedKind "s" "unsupported"] := by
  have h_object : (Value.object [("type", .string "teleport")]).WellFormed :=
    .object _ (List.pairwise_singleton _ _) (List.forall_mem_singleton.mpr (.string _))
  have h_odyssey : odyssey.WellFormed := by
    refine .object _ (by unfold Fields.Sorted; decide) ?_
    simp only [List.forall_mem_cons]
    exact ⟨.array _ (List.forall_mem_singleton.mpr h_object), Value.wellFormed_nat (by decide), .string _, nofun⟩
  have h_script : odysseyScript.InRange :=
    { priority := nofun, maxRetries := nofun, vars := .object _ List.Pairwise.nil nofun,
      actions := Action.inRange_of_ofValue odyssey h_odyssey rfl }
  -- both ways: the value is well formed, and the script is in range
  obtain ⟨h_value, h_read⟩ := unknown_kinds_are_kept_iff odyssey
    (.loop Finite64.one 1 [.unsupported "teleport"] none) odysseyScript
  obtain ⟨b, h_b, h_walk, -⟩ := h_value h_odyssey rfl
  obtain ⟨s', h_s', -, -, h_check⟩ := h_read h_script
  exact ⟨⟨b, h_b, h_walk ▸ rfl⟩, s', h_s', (h_check {}).1 ▸ rfl⟩

/-- The kind of an action that was read as unknown is lost once the action is written and read again. -/
theorem teleport_is_forgotten : ∃ a b, Action.ofValue (.object [("type", .string "teleport")]) = .ok a ∧
    Action.ofValue a.toValue = .ok b ∧ ¬Action.KeepKinds a.walk b.walk := by
  refine ⟨.unsupported "teleport", .unsupported "unsupported", rfl, Action.ofValue_unsupported "teleport", fun h => ?_⟩
  obtain - | ⟨h_kind, -⟩ := h
  exact absurd (Action.unsupported.inj (h_kind "teleport" rfl)) (by decide)

end ScriptYard
