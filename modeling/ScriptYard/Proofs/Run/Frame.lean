import ScriptYard.Proofs.Run.Failures
import ScriptYard.Proofs.Run.Pieces

/-!
# Which variables a script can change

Each action names the variables that it may set (`Action.ownWrites`): the one it stores its result in or
assigns to, and those that the coordinates, the screenshot and the confidence in a result go to.
`Action.writes` collects the names over the whole tree of an action, whether or not a run reaches them.

A process that sets no other variables than these is `Process.SetsOnly` them, and the property is kept by
sequencing, so a tree has it if its pieces do (`Process.Compositional`). Everything that a run sets on the
way, finished or not, is then among the names (`Going.Journey.bindings_subset`), and the variables outside
of them stand at every moment as they stood at the start: `Going.only_written_variables_change`.
-/

namespace ScriptYard

/-! ### The names that are written -/

/-- The variables that hold the place of a template that was found. -/
def Variables.matchNames : List String := [matchX, matchY, matchConfidence]

/-- The variables that what a condition asks may set. -/
def Check.writes : Check → List String
  | .templateMatch .. => Variables.matchNames
  | .variableCompare .. => []

namespace Action

/-- The variables that an action may set, apart from the sequences in it. -/
def ownWrites : Action → List String
  | .call c _ => c.storeResult.toList ++ [Variables.matchX, Variables.matchY, Variables.screenshot]
  | .condition check .. => check.writes
  | .templateMatch s _ => s.storeResult.toList ++ Variables.matchNames
  | .readText t _ => t.storeResult.toList
  | .setVariable name _ _ => [name]
  | .loop .. | .wait .. | .restart _ | .unsupported _ => []

/-- The variables that the actions in some trees may set. -/
def writesOf (actions : List Action) : List String := (walkList actions).flatMap ownWrites

/-- The variables that the actions in a tree may set. -/
def writes (a : Action) : List String := a.walk.flatMap ownWrites

end Action

/-! ### Processes that set only some variables -/

namespace Process

variable {α β : Type}

/-- No variable is set but those of some names. -/
def SetsOnly (names : List String) : Process α → Prop
  | .done _ => True
  | .poll k => ∀ b, SetsOnly names (k b)
  | .cancel k | .touch k => SetsOnly names k
  | .look k => ∀ vars, SetsOnly names (k vars)
  | .assign name _ k => name ∈ names ∧ SetsOnly names k
  | .call _ k => ∀ reply, SetsOnly names (k reply)
  | .sleep _ k => ∀ passed, SetsOnly names (k passed)

variable {names : List String}

theorem SetsOnly.bind {p : Process α} {f : α → Process β} (h : p.SetsOnly names)
    (h_f : ∀ a, (f a).SetsOnly names) : (p.bind f).SetsOnly names := by
  induction p with
  | done a => exact h_f a
  | cancel k ih | touch k ih => exact ih h
  | assign name value k ih => exact ⟨h.1, ih h.2⟩
  | poll k ih | look k ih | call r k ih | sleep time k ih => exact fun x => ih x (h x)

theorem compositional_setsOnly (names : List String) : Compositional fun p => p.SetsOnly names where
  done _ := trivial
  bind := SetsOnly.bind
  isCancelled := fun _ => trivial
  cancelRun := trivial
  noteProgress := trivial
  sleep _ := fun _ => trivial

theorem setsOnly_assignAll {bs : List (String × Value)} (h : bs.map Prod.fst ⊆ names) :
    (assignAll bs).SetsOnly names := by
  induction bs with
  | nil => trivial
  | cons b bs ih =>
    rw [List.map_cons, List.cons_subset] at h
    exact ⟨h.1, ih h.2⟩

end Process

/-! ### The names of bindings -/

theorem map_fst_storeBindings (name : Option String) (v : Value) :
    (storeBindings name v).map Prod.fst = name.toList := by
  cases name <;> rfl

/-- The names in a result are bound to coordinates and a screenshot. -/
theorem Value.map_fst_bindings_subset (v : Value) :
    v.bindings.map Prod.fst ⊆ [Variables.matchX, Variables.matchY, Variables.screenshot] := by
  cases v with
  | object fields =>
    -- the fields of a match and of a screenshot are looked for apart
    have h_place : (placeBindings fields).map Prod.fst ⊆ [Variables.matchX, Variables.matchY] := by
      unfold placeBindings
      split
      · exact List.Subset.refl _
      · exact List.nil_subset _
    have h_screenshot : (screenshotBindings fields).map Prod.fst ⊆ [Variables.screenshot] := by
      unfold screenshotBindings
      cases Fields.get? fields "screenshot_path" with
      | some path => exact List.Subset.refl _
      | none => exact List.nil_subset _
    rw [Value.bindings, List.map_append]
    exact List.append_subset.mpr ⟨List.Subset.trans h_place (List.subset_append_left _ [Variables.screenshot]),
      List.Subset.trans h_screenshot (List.subset_append_right [Variables.matchX, Variables.matchY] _)⟩
  | _ => exact List.nil_subset _

/-! ### Pieces of actions -/

open Process

variable {names : List String}

theorem setsOnly_storeResult {name : Option String} (h : name.toList ⊆ names) (v : Value) :
    (storeResult name v).SetsOnly names := by
  rw [storeResult_eq]
  exact setsOnly_assignAll ((map_fst_storeBindings name v).symm ▸ h)

theorem setsOnly_bindMatch (h : Variables.matchNames ⊆ names) (m : TemplateMatch) :
    (bindMatch m).SetsOnly names := by
  -- the three assignments in a row
  show (assignAll [(Variables.matchX, .int m.x), (Variables.matchY, .int m.y),
    (Variables.matchConfidence, .float m.confidence)]).SetsOnly names
  exact setsOnly_assignAll h

theorem setsOnly_executeCall {c : CapabilityCall}
    (h : c.storeResult.toList ++ [Variables.matchX, Variables.matchY, Variables.screenshot] ⊆ names) :
    (executeCall c).SetsOnly names := by
  have h_result : ∀ v, (bindResult c.storeResult v).SetsOnly names := by
    intro v
    obtain ⟨h_store, h_names⟩ := List.append_subset.mp h
    rw [bindResult_eq]
    refine setsOnly_assignAll ?_
    rw [List.map_append, map_fst_storeBindings]
    exact List.append_subset.mpr ⟨h_store, List.Subset.trans v.map_fst_bindings_subset h_names⟩
  intro vars reply
  cases reply with
  | error e => trivial
  | ok v => exact (h_result v).bind fun _ => trivial

theorem setsOnly_evaluate {check : Check} (h : check.writes ⊆ names) : (evaluate check).SetsOnly names := by
  cases check with
  | variableCompare name op value => exact fun _ => trivial
  | templateMatch path threshold image =>
    intro vars
    simp only [Process.bind]
    cases vars.optionalImage? image with
    | none => trivial
    | some image =>
      intro reply
      cases reply with
      | error e => trivial
      | ok m =>
        simp only [Process.bind]
        split
        · exact (setsOnly_bindMatch h m).bind fun _ => trivial
        · trivial

theorem setsOnly_executeSearch {s : TemplateSearch} (h : s.storeResult.toList ++ Variables.matchNames ⊆ names) :
    (executeSearch s).SetsOnly names := by
  obtain ⟨h_store, h_match⟩ := List.append_subset.mp h
  intro vars
  simp only [Process.bind]
  split
  · intro reply
    cases reply with
    | error e => trivial
    | ok m =>
      -- first the result under its name, then the place of the match
      refine (setsOnly_storeResult h_store m.toValue).bind fun _ => ?_
      split
      · exact (setsOnly_bindMatch h_match m).bind fun _ => trivial
      · trivial
  · trivial

theorem setsOnly_executeReading {t : TextReading} (h : t.storeResult.toList ⊆ names) :
    (executeReading t).SetsOnly names := by
  intro vars
  simp only [Process.bind]
  split
  · intro reply
    cases reply with
    | error e => trivial
    | ok text => exact (setsOnly_storeResult h (.string text)).bind fun _ => trivial
  · trivial

theorem setsOnly_executeAssignment {name : String} (h : name ∈ names) (value : Value) :
    (executeAssignment name value).SetsOnly names := by
  unfold executeAssignment
  split
  · trivial
  · exact fun vars => ⟨h, trivial⟩

/-- **What an action does by itself** sets no other variables than it names. -/
theorem Action.piece_setsOnly {a : Action} (h : a.ownWrites ⊆ names) : a.Piece fun p => p.SetsOnly names := by
  cases a with
  | call c d => exact setsOnly_executeCall h
  | condition check onTrue onFalse brk d => exact setsOnly_evaluate h
  | templateMatch s d => exact setsOnly_executeSearch h
  | readText t d => exact setsOnly_executeReading h
  | setVariable name value d => exact setsOnly_executeAssignment (h (List.mem_singleton_self _)) value
  | loop | wait | restart | unsupported => trivial

/-- The pieces of some trees set no other variables than the trees name. -/
theorem Action.pieces_setsOnly (actions : List Action) :
    ∀ b ∈ actions, b.Piece fun p => p.SetsOnly (actions.flatMap ownWrites) := fun b h_b =>
  piece_setsOnly fun _ h_n => List.mem_flatMap.mpr ⟨b, h_b, h_n⟩

/-! ### Runs -/

/-- Some variables come out of others by changes to those of some names, and no variable that was set is
unset. -/
structure Variables.ChangedWithin (names : List String) (vars vars' : Variables) : Prop where
  /-- The variables of other names are as before. -/
  kept : ∀ name, name ∉ names → Fields.get? vars' name = Fields.get? vars name
  /-- What was set is set. -/
  bound : ∀ name, (Fields.get? vars name).isSome → (Fields.get? vars' name).isSome

theorem Variables.ChangedWithin.assignAll (vars : Variables) {bs : List (String × Value)}
    (h : bs.map Prod.fst ⊆ names) : ChangedWithin names vars (vars.assignAll bs) := by
  induction bs generalizing vars with
  | nil => exact ⟨fun _ _ => rfl, fun _ h => h⟩
  | cons b bs ih =>
    rw [List.map_cons, List.cons_subset] at h
    have h_rest := ih (Fields.insert vars b.1 b.2) h.2
    refine ⟨fun name h_name => (h_rest.kept name h_name).trans ?_, fun name h_bound => h_rest.bound name ?_⟩
    · -- another name than the one that is set first
      rw [Fields.get?_insert, if_neg]
      rintro rfl
      exact h_name h.1
    · rw [Fields.get?_insert]
      split
      · rfl
      · exact h_bound

namespace Going

variable {α : Type} {g g' : Going α} {d : Option Deed} {ds : List Deed}

/-- **One step.** It sets one of the names if it sets anything, and what is left sets only these. -/
theorem Step.setsOnly (h_step : g.Step d g') (h : g.process.SetsOnly names) :
    g'.process.SetsOnly names ∧ (Deed.bindings d.toList).map Prod.fst ⊆ names := by
  cases h_step with
  -- only an assignment binds
  | poll k c => exact ⟨h c.cancelled, List.nil_subset _⟩
  | look k c => exact ⟨h c.vars, List.nil_subset _⟩
  | assign name value k c => exact ⟨h.2, List.cons_subset.mpr ⟨h.1, List.nil_subset _⟩⟩
  | answer r k c reply => exact ⟨h reply, List.nil_subset _⟩
  | wake time k c passed => exact ⟨h passed, List.nil_subset _⟩
  | cancel | touch | call | stopInCall | stopInSleep => exact ⟨h, List.nil_subset _⟩

/-- **A whole journey**, to wherever the run has come. -/
theorem Journey.bindings_subset (h_journey : g.Journey ds g') (h : g.process.SetsOnly names) :
    g'.process.SetsOnly names ∧ (Deed.bindings ds).map Prod.fst ⊆ names := by
  induction h_journey with
  | refl => exact ⟨h, List.nil_subset _⟩
  | step _ h_step ih =>
    obtain ⟨h_rest, h_one⟩ := h_step.setsOnly ih.1
    rw [Deed.bindings_append, List.map_append]
    exact ⟨h_rest, List.append_subset.mpr ⟨ih.2, h_one⟩⟩
  | stop _ ih =>
    -- a cancellation from outside binds nothing
    rw [Deed.bindings_append, show Deed.bindings [.stopped] = [] from rfl, List.append_nil]
    exact ih

theorem Journey.changedWithin (h_journey : g.Journey ds g') (h : g.process.SetsOnly names) :
    g.context.vars.ChangedWithin names g'.context.vars := by
  rw [h_journey.vars_eq]
  exact .assignAll _ (h_journey.bindings_subset h).2

/-- **Only written variables change.** For every action, every sequence of actions and every script, from
every context, whatever calls come back with and whenever the run is cancelled: wherever the run has come, at
its end or on the way to it, the variables that no action of the tree writes are what they were at the
start, and no variable that was set then is unset. -/
theorem only_written_variables_change (c : RunContext) (ds : List Deed) :
    (∀ (a : Action) g, Journey ⟨a.execute, c, false⟩ ds g →
      c.vars.ChangedWithin a.writes g.context.vars) ∧
    (∀ (actions : List Action) g, Journey ⟨Action.executeAll actions (.ok .null), c, false⟩ ds g →
      c.vars.ChangedWithin (Action.writesOf actions) g.context.vars) ∧
    (∀ (actions : List Action) g, Journey ⟨runActions actions 0 .null, c, false⟩ ds g →
      c.vars.ChangedWithin (Action.writesOf actions) g.context.vars) := by
  refine ⟨fun a g h_journey => ?_, fun actions g h_journey => ?_, fun actions g h_journey => ?_⟩
  · exact h_journey.changedWithin
      ((compositional_setsOnly a.writes).execute a (Action.pieces_setsOnly a.walk))
  · exact h_journey.changedWithin
      ((compositional_setsOnly _).executeAll actions _ (Action.pieces_setsOnly (Action.walkList actions)))
  · exact h_journey.changedWithin
      ((compositional_setsOnly _).runActions actions 0 .null (Action.pieces_setsOnly (Action.walkList actions)))

/-- In the script of two taps and an assignment, and in a world in which calls fail, a variable that is named
nowhere keeps its value, though the run fails. -/
theorem bystander_keeps_its_value :
    ∃ ds e c', Journey ⟨runActions tapsThenAssign 0 .null, { vars := [("kept", .bool true)] }, false⟩ ds
        ⟨.done e, c', false⟩ ∧
      e.state = .failed ∧ Action.writesOf tapsThenAssign = ["match_x", "match_y", "screenshot", "later"] ∧
      Fields.get? c'.vars "kept" = some (.bool true) := by
  obtain ⟨ds, h⟩ := course_play failingWorld (runActions tapsThenAssign 0 .null)
    ⟨0, { vars := [("kept", .bool true)] }, ()⟩
  have h_changed := (only_written_variables_change _ ds).2.2 tapsThenAssign _ h.journey
  exact ⟨ds, _, _, h.journey, rfl, rfl, h_changed.kept "kept" (by decide)⟩

end Going

end ScriptYard
