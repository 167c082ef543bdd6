import Mathlib.Data.List.Nodup
import ScriptYard.Script.Parse
import ScriptYard.Script.Validation

/-!
# The references of a library

A library that was parsed has no flaw of structure, so that no two of its groups and no two of its scripts
share an id. A library that a validator found valid refers to nothing that it does not have: the group of a
script is one of its groups, and the exception script of a group or of a script is one of its scripts, unless
the validator knows of scripts outside. `ScriptLibrary.Closed` is both together, which is all that an engine
needs to know of a library that it is to serve (`closed_of_valid`).
-/

namespace ScriptYard

theorem ValidationReport.errors_errorIf {b : Bool} {e : ValidationError}
    (h : (ValidationReport.errorIf b e).errors = []) : b = false := by
  cases b with
  | false => rfl
  | true => cases h

namespace ScriptLibrary

/-- No id is used twice, and no reference leads out of the library. -/
structure Closed (l : ScriptLibrary) : Prop where
  /-- Groups have different ids. -/
  groups_nodup : (l.groups.map (·.id)).Nodup
  /-- Scripts have different ids. -/
  scripts_nodup : (l.scripts.map (·.id)).Nodup
  /-- The group of a script is there. -/
  group_of_script : ∀ s ∈ l.scripts, ∀ g ∈ s.group, g ∈ l.groups.map (·.id)
  /-- The exception script of a group is there. -/
  exception_of_group : ∀ g ∈ l.groups, ∀ id ∈ g.exceptionScript, id ∈ l.scripts.map (·.id)
  /-- The exception script of a script is there. -/
  exception_of_script : ∀ s ∈ l.scripts, ∀ id ∈ s.exceptionScript, id ∈ l.scripts.map (·.id)

/-! ### What the parser finds out -/

/-- A search for flaws that goes from each element to the rest only if the id of the element was not seen
before, and is seen from then on, finds nothing only where all ids differ. -/
theorem nodup_of_unseen {α : Type} {id : α → String} {search : List String → List α → Option StructureFlaw}
    (h_search : ∀ seen a rest, search seen (a :: rest) = none →
      id a ∉ seen ∧ search (id a :: seen) rest = none)
    {seen : List String} {as : List α} (h : search seen as = none) :
    (as.map id).Nodup ∧ ∀ i ∈ as.map id, i ∉ seen := by
  induction as generalizing seen with
  | nil => exact ⟨List.nodup_nil, fun _ h_i => absurd h_i List.not_mem_nil⟩
  | cons a as ih =>
    obtain ⟨h_new, h_rest⟩ := h_search seen a as h
    obtain ⟨h_nodup, h_apart⟩ := ih h_rest
    refine ⟨List.nodup_cons.mpr ⟨fun h_a => h_apart _ h_a List.mem_cons_self, h_nodup⟩, ?_⟩
    exact List.forall_mem_cons.mpr ⟨h_new, fun i h_i h_seen => h_apart i h_i (List.mem_cons_of_mem _ h_seen)⟩

theorem nodup_of_groupFlaw? {groups : List GroupDefinition} (h : groupFlaw? [] groups = none) :
    (groups.map (·.id)).Nodup := by
  refine (nodup_of_unseen (fun seen g rest h => ?_) h).1
  unfold groupFlaw? at h
  split at h
  · cases h
  · split at h
    · cases h
    · next h_new => exact ⟨by simpa using h_new, h⟩

theorem nodup_of_scriptFlaw? {scripts : List ScriptDefinition} (h : scriptFlaw? [] scripts = none) :
    (scripts.map (·.id)).Nodup := by
  refine (nodup_of_unseen (fun seen s rest h => ?_) h).1
  unfold scriptFlaw? at h
  split at h
  · cases h
  · split at h
    · cases h
    · next h_new => exact ⟨by simpa using h_new, h⟩

/-- A library that was parsed has no flaw. -/
theorem flaw?_of_parse {f : DocumentFormat} {text : String} {l : ScriptLibrary} (h : parse f text = .ok l) :
    l.flaw? = none := by
  unfold parse at h
  cases h_read : f.read text shape with
  | error err =>
    rw [h_read] at h
    cases h
  | ok l' =>
    rw [h_read] at h
    cases h_flaw : l'.flaw? with
    | some flaw => simp [bind, Except.bind, h_flaw, throw, throwThe, MonadExceptOf.throw] at h
    | none =>
      simp [bind, Except.bind, h_flaw, pure, Except.pure] at h
      rwa [← h]

/-! ### What the validator finds out -/

/-- An exception script that causes no error is known. -/
theorem mem_of_checkException {known : List String} {owner id : String} {script : Option String}
    (h : (Validator.checkException (some known) owner script).errors = []) (h_id : id ∈ script) :
    id ∈ known := by
  cases h_id
  simpa using ValidationReport.errors_errorIf h

/-- A group that causes no error is there. -/
theorem mem_of_checkGroup {groups : List GroupDefinition} {s : ScriptDefinition} {g : String}
    (h : (Validator.checkGroup groups s).errors = []) (h_g : g ∈ s.group) : g ∈ groups.map (·.id) := by
  unfold Validator.checkGroup at h
  rw [Option.mem_def.mp h_g] at h
  simpa using ValidationReport.errors_errorIf h

/-- **A library that was parsed and is valid** uses no id twice and refers to nothing outside. -/
theorem closed_of_valid {f : DocumentFormat} {text : String} {l : ScriptLibrary} {v : Validator}
    (h_parse : parse f text = .ok l) (h_known : v.knownScripts.getD [] = [])
    (h_valid : (v.checkLibrary l).isValid = true) : l.Closed := by
  obtain ⟨h_groupFlaw, h_scriptFlaw⟩ := Option.or_eq_none_iff.mp (flaw?_of_parse h_parse)
  have h_errors : (v.checkLibrary l).errors = [] := List.isEmpty_iff.mp h_valid
  obtain ⟨h_groups, h_scripts⟩ := List.append_eq_nil_iff.mp h_errors
  have h_group : ∀ g ∈ l.groups, (Validator.checkException (some (l.scripts.map (·.id))) g.id
      g.exceptionScript).errors = [] :=
    fun g h_g => List.flatMap_eq_nil_iff.mp h_groups _ (List.mem_map_of_mem h_g)
  have h_script : ∀ s ∈ l.scripts, (Validator.checkGroup l.groups s).errors = [] ∧
      (Validator.checkException (some (l.scripts.map (·.id))) s.id s.exceptionScript).errors = [] := by
    intro s h_s
    have h_both := List.flatMap_eq_nil_iff.mp h_scripts _ (List.mem_map_of_mem h_s)
    obtain ⟨h_group, h_check⟩ := List.append_eq_nil_iff.mp h_both
    obtain ⟨h_check, -⟩ := List.append_eq_nil_iff.mp h_check
    obtain ⟨h_check, -⟩ := List.append_eq_nil_iff.mp h_check
    obtain ⟨-, h_exception⟩ := List.append_eq_nil_iff.mp h_check
    -- no script but those of the library is known
    rw [h_known] at h_exception
    exact ⟨h_group, h_exception⟩
  exact {
    groups_nodup := nodup_of_groupFlaw? h_groupFlaw
    scripts_nodup := nodup_of_scriptFlaw? h_scriptFlaw
    group_of_script := fun s h_s g h_g => mem_of_checkGroup (h_script s h_s).1 h_g
    exception_of_group := fun g h_g id h_id => mem_of_checkException (h_group g h_g) h_id
    exception_of_script := fun s h_s id h_id => mem_of_checkException (h_script s h_s).2 h_id }

end ScriptLibrary

end ScriptYard
