import ScriptYard.Proofs.Run.Accounts
import ScriptYard.Proofs.Run.Pieces
import ScriptYard.Proofs.Run.Sequence

/-!
# Variables that are not read make no difference

Each action names the variables that it may read (`Action.ownReads`): those that a text `$name` in its
parameters, in its value or in place of its image refers to, and the one that a comparison names.
`Action.reads` collects the names over the whole tree of an action.

A process is `Process.ReadsOnly` some names if after every look it goes on in the same way for all variables
that agree on them. From two stages that differ only in other variables such a process has the same play
(`Process.ReadsOnly.play`), which is said of the actions of every script in
`unread_variables_make_no_difference`: the result, the deeds, the calls with their parameters and times, and
every variable on which the two stages agreed or that is set on the way.

That variables are resolved in one pass is what the whole rests on: what a variable holds is not looked
through for further references, so `Value.references` need not know it.
-/

namespace ScriptYard

/-! ### The names that are read -/

mutual

/-- The variables that the references in a value refer to, at any depth. -/
def Value.references : Value → List String
  | .string s => (reference? s).toList
  | .array items => referencesOfItems items
  | .object fields => referencesOfFields fields
  | .null | .bool _ | .number _ => []

/-- `Value.references` over some items. -/
def Value.referencesOfItems : List Value → List String
  | [] => []
  | v :: rest => v.references ++ referencesOfItems rest

/-- `Value.references` over some fields; the names of fields are no references. -/
def Value.referencesOfFields : List (String × Value) → List String
  | [] => []
  | (_, v) :: rest => v.references ++ referencesOfFields rest

end

/-- The variable that a text in place of an image refers to. -/
def imageReferences (image : Option String) : List String := (image.bind reference?).toList

section Reads

/-! The name of the variable on the left of a comparison may be written as a reference. What is left of such
a name is a parameter, `left`; `referencedName` is what runs make of it. -/

variable (left : String → String)

/-- The variables that what a condition asks may read. -/
def Check.reads : Check → List String
  | .templateMatch _ _ image => imageReferences image
  | .variableCompare name _ value => left name :: value.references

namespace Action

/-- The variables that an action may read, apart from the sequences in it. -/
def ownReads : Action → List String
  | .call c _ => Value.referencesOfFields c.params
  | .condition check .. => check.reads left
  | .templateMatch s _ => imageReferences s.inputImage
  | .readText t _ => imageReferences t.inputImage
  | .setVariable _ value _ => value.references
  | .loop .. | .wait .. | .restart _ | .unsupported _ => []

/-- The variables that the actions in a tree may read. -/
def reads (a : Action) : List String := a.walk.flatMap (ownReads left)

/-- The variables that the actions in some trees may read. -/
def readsOf (actions : List Action) : List String := (walkList actions).flatMap (ownReads left)

end Action

end Reads

namespace Variables

/-- The variables of some names are set alike, or not at all. -/
def AgreesOn (names : List String) (vars vars' : Variables) : Prop :=
  ∀ name ∈ names, Fields.get? vars name = Fields.get? vars' name

variable {names : List String} {vars vars' : Variables}

theorem AgreesOn.mono {fewer : List String} (h : AgreesOn names vars vars') (h_fewer : fewer ⊆ names) :
    AgreesOn fewer vars vars' := fun name h_name => h name (h_fewer h_name)

theorem AgreesOn.insert (h : AgreesOn names vars vars') (name : String) (value : Value) :
    AgreesOn names (Fields.insert vars name value) (Fields.insert vars' name value) := by
  intro other h_other
  rw [Fields.get?_insert, Fields.get?_insert, h other h_other]

theorem resolveText_congr {text : String} (h : AgreesOn (reference? text).toList vars vars') :
    resolveText vars text = resolveText vars' text := by
  unfold resolveText
  cases h_name : reference? text with
  | none => rfl
  | some name => rw [Option.bind_some, Option.bind_some, h name (by simp [h_name])]

mutual

/-- A value is resolved with the variables that it refers to. -/
theorem resolve_congr (v : Value) (h : AgreesOn v.references vars vars') :
    resolve vars v = resolve vars' v := by
  match v with
  | .string s => exact resolveText_congr h
  | .array items => exact congrArg Value.array (resolveItems_congr items h)
  | .object fields => exact congrArg Value.object (resolveFields_congr fields h)
  | .null | .bool _ | .number _ => rfl

theorem resolveItems_congr (items : List Value) (h : AgreesOn (Value.referencesOfItems items) vars vars') :
    resolveItems vars items = resolveItems vars' items := by
  match items with
  | [] => rfl
  | v :: rest =>
    rw [resolveItems, resolveItems, resolve_congr v (h.mono (List.subset_append_left _ _)),
      resolveItems_congr rest (h.mono (List.subset_append_right _ _))]

theorem resolveFields_congr (fields : List (String × Value))
    (h : AgreesOn (Value.referencesOfFields fields) vars vars') :
    resolveFields vars fields = resolveFields vars' fields := by
  match fields with
  | [] => rfl
  | (n, v) :: rest =>
    rw [resolveFields, resolveFields, resolve_congr v (h.mono (List.subset_append_left _ _)),
      resolveFields_congr rest (h.mono (List.subset_append_right _ _))]

end

theorem optionalImage?_congr {image : Option String} (h : AgreesOn (imageReferences image) vars vars') :
    vars.optionalImage? image = vars'.optionalImage? image := by
  cases image with
  | none => rfl
  | some text =>
    have h_lookup : vars.lookup? text = vars'.lookup? text := by
      unfold lookup?
      cases h_name : reference? text with
      | none => rfl
      | some name => exact h name (by simp [imageReferences, h_name])
    show vars.image? text = vars'.image? text
    rw [image?, image?, h_lookup]

end Variables

/-! ### Processes that read only some variables -/

namespace Process

variable {α β : Type}

/-- After every look the process goes on alike for all variables that agree on some names. -/
def ReadsOnly (names : List String) : Process α → Prop
  | .done _ => True
  | .poll k => ∀ b, ReadsOnly names (k b)
  | .cancel k | .touch k | .assign _ _ k => ReadsOnly names k
  | .look k => (∀ vars vars', Variables.AgreesOn names vars vars' → k vars = k vars') ∧
      ∀ vars, ReadsOnly names (k vars)
  | .call _ k => ∀ reply, ReadsOnly names (k reply)
  | .sleep _ k => ∀ passed, ReadsOnly names (k passed)

variable {names : List String} {p : Process α}

namespace ReadsOnly

theorem bind {f : α → Process β} (h : p.ReadsOnly names) (h_f : ∀ a, (f a).ReadsOnly names) :
    (p.bind f).ReadsOnly names := by
  induction p with
  | done a => exact h_f a
  | cancel k ih | touch k ih | assign name value k ih => exact ih h
  | look k ih =>
    exact ⟨fun vars vars' h_agree => congrArg (fun q => q.bind f) (h.1 vars vars' h_agree),
      fun vars => ih vars (h.2 vars)⟩
  | poll k ih | call r k ih | sleep time k ih => exact fun x => ih x (h x)

theorem map (h : p.ReadsOnly names) (f : α → β) : (p.map f).ReadsOnly names := h.bind fun _ => trivial

/-- Noting the deeds reads nothing. -/
theorem noting (h : p.ReadsOnly names) : p.noting.ReadsOnly names := by
  induction p with
  | done a => trivial
  | touch k ih => exact ih h
  | cancel k ih | assign name value k ih => exact (ih h).map _
  | look k ih =>
    exact ⟨fun vars vars' h_agree => congrArg Process.noting (h.1 vars vars' h_agree),
      fun vars => ih vars (h.2 vars)⟩
  | poll k ih | sleep time k ih => exact fun x => ih x (h x)
  | call r k ih => exact fun reply => (ih reply (h reply)).map _

/-- Moments in which the world may cancel the run read nothing. -/
theorem exposed (h : p.ReadsOnly names) : p.exposed.ReadsOnly names := by
  induction p with
  | done a => trivial
  | cancel k ih | touch k ih | assign name value k ih => exact fun _ => ih h
  | look k ih =>
    exact ⟨fun vars vars' h_agree => congrArg (fun q => sleep .zero fun _ => q.exposed) (h.1 vars vars' h_agree),
      fun vars _ => ih vars (h.2 vars)⟩
  | poll k ih => exact fun b => ih b (h b)
  | call r k ih | sleep time k ih => exact fun x _ => ih x (h x)

theorem paced (h : p.ReadsOnly names) (everywhere : Bool) : (p.paced everywhere).ReadsOnly names := by
  cases everywhere with
  | false => exact h
  | true => exact h.exposed

end ReadsOnly

theorem compositional_readsOnly (names : List String) : Compositional fun p => p.ReadsOnly names where
  done _ := trivial
  bind := ReadsOnly.bind
  isCancelled := fun _ => trivial
  cancelRun := trivial
  noteProgress := trivial
  sleep _ := fun _ => trivial

theorem readsOnly_assignAll (bs : List (String × Value)) : (assignAll bs).ReadsOnly names := by
  induction bs with
  | nil => trivial
  | cons b bs ih => exact ih

end Process

/-! ### Pieces of actions -/

open Process

variable {names : List String}

/-- What a reply is bound to is set without a look. -/
theorem readsOnly_bindResult (name : Option String) (v : Value) : (bindResult name v).ReadsOnly names := by
  rw [bindResult_eq]
  exact readsOnly_assignAll _

theorem readsOnly_storeResult (name : Option String) (v : Value) : (storeResult name v).ReadsOnly names := by
  rw [storeResult_eq]
  exact readsOnly_assignAll _

theorem readsOnly_executeCall {c : CapabilityCall} (h : Value.referencesOfFields c.params ⊆ names) :
    (executeCall c).ReadsOnly names := by
  refine ⟨fun vars vars' h_agree => ?_, fun vars reply => ?_⟩
  · simp only [Process.bind]
    rw [Variables.resolveFields_congr c.params (h_agree.mono h)]
    refine congrArg (Process.call _) (funext fun reply => ?_)
    cases reply <;> rfl
  · cases reply with
    | error e => trivial
    | ok v => exact (readsOnly_bindResult c.storeResult v).bind fun _ => trivial

theorem readsOnly_evaluate {check : Check} (h : check.reads referencedName ⊆ names) :
    (evaluate check).ReadsOnly names := by
  cases check with
  | variableCompare name op value =>
    obtain ⟨h_left, h_right⟩ := List.cons_subset.mp h
    refine ⟨fun vars vars' h_agree => ?_, fun vars => trivial⟩
    simp only [Process.bind]
    -- the variable of the comparison is read, and those that its value names
    rw [h_agree _ h_left, Variables.resolve_congr value (h_agree.mono h_right)]
  | templateMatch path threshold image =>
    refine ⟨fun vars vars' h_agree => ?_, fun vars => ?_⟩
    · simp only [Process.bind]
      rw [Variables.optionalImage?_congr (h_agree.mono h)]
    · simp only [Process.bind]
      cases vars.optionalImage? image with
      | none => trivial
      | some image =>
        intro reply
        cases reply with
        | error e => trivial
        | ok m =>
          simp only [Process.bind]
          split <;> trivial

theorem readsOnly_executeSearch {s : TemplateSearch} (h : imageReferences s.inputImage ⊆ names) :
    (executeSearch s).ReadsOnly names := by
  refine ⟨fun vars vars' h_agree => ?_, fun vars => ?_⟩
  · simp only [Process.bind]
    rw [Variables.optionalImage?_congr (h_agree.mono h)]
  · simp only [Process.bind]
    split
    · intro reply
      cases reply with
      | error e => trivial
      | ok m =>
        refine (readsOnly_storeResult s.storeResult m.toValue).bind fun _ => ?_
        split <;> trivial
    · trivial

theorem readsOnly_executeReading {t : TextReading} (h : imageReferences t.inputImage ⊆ names) :
    (executeReading t).ReadsOnly names := by
  refine ⟨fun vars vars' h_agree => ?_, fun vars => ?_⟩
  · simp only [Process.bind]
    rw [Variables.optionalImage?_congr (h_agree.mono h)]
  · simp only [Process.bind]
    split
    · intro reply
      cases reply with
      | error e => trivial
      | ok text => exact (readsOnly_storeResult t.storeResult (.string text)).bind fun _ => trivial
    · trivial

theorem readsOnly_executeAssignment {value : Value} (h : value.references ⊆ names) (name : String) :
    (executeAssignment name value).ReadsOnly names := by
  unfold executeAssignment
  split
  · trivial
  · refine ⟨fun vars vars' h_agree => ?_, fun vars => trivial⟩
    simp only [Process.bind]
    rw [Variables.resolve_congr value (h_agree.mono h)]

/-- **What an action does by itself** reads no other variables than it names. -/
theorem Action.piece_readsOnly {a : Action} (h : a.ownReads referencedName ⊆ names) :
    a.Piece fun p => p.ReadsOnly names := by
  cases a with
  | call c d => exact readsOnly_executeCall h
  | condition check onTrue onFalse brk d => exact readsOnly_evaluate h
  | templateMatch s d => exact readsOnly_executeSearch h
  | readText t d => exact readsOnly_executeReading h
  | setVariable name value d => exact readsOnly_executeAssignment h name
  | loop | wait | restart | unsupported => trivial

/-- The pieces of some trees read no other variables than the trees name. -/
theorem Action.pieces_readsOnly (actions : List Action) :
    ∀ b ∈ actions, b.Piece fun p => p.ReadsOnly (actions.flatMap (ownReads referencedName)) :=
  fun b h_b => piece_readsOnly fun _ h_n => List.mem_flatMap.mpr ⟨b, h_b, h_n⟩

/-! ### Plays with other variables -/

/-- The stage with other variables. -/
def Stage.withVars {σ : Type} (s : Stage σ) (vars : Variables) : Stage σ :=
  s.update fun c => { c with vars := vars }

theorem Stage.advance_withVars {σ : Type} (s : Stage σ) (vars : Variables) (moment : Moment)
    (cancelled : Bool) (world : σ) :
    (s.withVars vars).advance moment cancelled world = (s.advance moment cancelled world).withVars vars := by
  cases cancelled <;> rfl

theorem Stage.vars_advance {σ : Type} (s : Stage σ) (moment : Moment) (cancelled : Bool) (world : σ) :
    (s.advance moment cancelled world).context.vars = s.context.vars := by
  cases cancelled <;> rfl

namespace Process

variable {α σ : Type} {names : List String} {p : Process α}

/-- **One process, two plays.** The stages differ in variables that are not read; the plays have the same
result and end on stages that differ in variables only. -/
theorem ReadsOnly.play (h : p.ReadsOnly names) (w : World σ) (s : Stage σ) (vars : Variables)
    (h_agree : s.context.vars.AgreesOn names vars) :
    ∃ vars', p.play w (s.withVars vars) = ((p.play w s).1, (p.play w s).2.withVars vars') := by
  induction p generalizing s vars with
  | done a => exact ⟨vars, rfl⟩
  | poll k ih => exact ih s.context.cancelled (h _) s vars h_agree
  | cancel k ih => exact ih h (s.update .cancel) vars h_agree
  | touch k ih => exact ih h (s.update fun c => { c with lastActivity := s.now }) vars h_agree
  | look k ih =>
    -- what follows the look is the same process in both plays
    show ∃ vars', (k vars).play w (s.withVars vars) = _
    rw [← h.1 _ _ h_agree]
    exact ih s.context.vars (h.2 _) s vars h_agree
  | assign name value k ih =>
    exact ih h (s.update fun c => { c with vars := Fields.insert c.vars name value })
      (Fields.insert vars name value) (h_agree.insert name value)
  | call r k ih =>
    -- the world is asked the same at the same time, so it answers the same
    obtain ⟨⟨back, world⟩, h_back⟩ : ∃ b, w.call s.world s.now r = b := ⟨_, rfl⟩
    have h_back' : w.call (s.withVars vars).world (s.withVars vars).now r = (back, world) := h_back
    rw [← s.vars_advance back.moment back.cancelled world] at h_agree
    obtain ⟨vars', h_play⟩ := ih back.reply (h _) _ vars h_agree
    refine ⟨vars', ?_⟩
    rw [← Stage.advance_withVars] at h_play
    simp only [Process.play, h_back, h_back']
    exact h_play
  | sleep time k ih =>
    have h_same : (s.withVars vars).context.cancelled = s.context.cancelled := rfl
    simp only [Process.play, h_same]
    split
    · exact ih false (h _) s vars h_agree
    · obtain ⟨⟨back, world⟩, h_back⟩ : ∃ b, w.sleep s.world s.now time = b := ⟨_, rfl⟩
      have h_back' : w.sleep (s.withVars vars).world (s.withVars vars).now time = (back, world) := h_back
      rw [← s.vars_advance back.moment back.cancelled world] at h_agree
      obtain ⟨vars', h_play⟩ := ih (!back.cancelled) (h _) _ vars h_agree
      refine ⟨vars', ?_⟩
      rw [← Stage.advance_withVars] at h_play
      simp only [h_back, h_back']
      exact h_play

/-! ### What is seen of a play -/

/-- The deeds that a process yields are those it yields with moments for the world in between. -/
theorem Yields.exposed {P : List Deed → α → Prop} {ds : List Deed} (h : p.Yields P ds) :
    p.exposed.Yields P ds := by
  induction p generalizing ds with
  | done a => exact h
  | poll k ih => exact fun b => ih b (h b)
  | cancel k ih | touch k ih | assign name value k ih => exact fun _ => ih h
  | look k ih | call r k ih | sleep time k ih => exact fun x _ => ih x (h x)

variable (everywhere : Bool) (w : World σ) (p) (s : Stage (σ × List (Moment × Request)))

/-- The play of a process with a note of its deeds, in a world that records the calls: the result, the deeds,
and the stage at the end. -/
def recorded : (α × List Deed) × Stage (σ × List (Moment × Request)) :=
  (p.noting.paced everywhere).play w.logging s

/-- A note of the deeds changes nothing. -/
theorem play_eq_recorded :
    (p.paced everywhere).play w.logging s =
      ((p.recorded everywhere w s).1.1, (p.recorded everywhere w s).2) := by
  have h_play : ((p.noting.map Prod.fst).paced everywhere).play w.logging s =
      ((p.recorded everywhere w s).1.1, (p.recorded everywhere w s).2) := by
    rw [Process.map, play_paced_bind, play_paced_done]
    rfl
  rw [map_fst_noting] at h_play
  exact h_play

/-- The variables at the end are those of the beginning with the noted assignments. -/
theorem vars_recorded :
    (p.recorded everywhere w s).2.context.vars =
      s.context.vars.assignAll (Deed.bindings (p.recorded everywhere w s).1.2) := by
  have h_noted : (p.noting.paced everywhere).Yields (fun ds x => ds = x.2) [] := by
    have h_noting : p.noting.Yields (fun ds x => ds = x.2) [] := (p.yields_true []).noting.mono fun _ _ h => h.1
    cases everywhere with
    | false => exact h_noting
    | true => exact h_noting.exposed
  obtain ⟨ds, h_course⟩ := Going.course_play w.logging (p.noting.paced everywhere) s
  have h_own : Deed.own ds = (p.recorded everywhere w s).1.2 := h_course.journey.yields h_noted
  rw [← h_own, Deed.bindings_own]
  exact h_course.vars_eq

end Process

/-- Assignments bring together what they assign, and keep together what agreed before. -/
theorem Variables.get?_assignAll_congr {vars vars' : Variables} {name : String} (bs : List (String × Value))
    (h : Fields.get? vars name = Fields.get? vars' name ∨ name ∈ bs.map Prod.fst) :
    Fields.get? (vars.assignAll bs) name = Fields.get? (vars'.assignAll bs) name := by
  induction bs generalizing vars vars' with
  | nil => exact h.resolve_right List.not_mem_nil
  | cons b bs ih =>
    refine ih ?_
    rw [Fields.get?_insert, Fields.get?_insert]
    split
    · exact .inl rfl
    · next h_name =>
      refine h.imp_right fun h_mem => ?_
      exact (List.mem_cons.mp h_mem).resolve_left fun h => h_name h.symm

open Process

/-- From a stage, and from the stage with other variables, a process cannot be told apart in a world, but by
variables that it does not set. -/
structure Process.Alike {α σ : Type} (p : Process α) (everywhere : Bool) (w : World σ)
    (s : Stage (σ × List (Moment × Request))) (vars : Variables) : Prop where
  /-- It gives the same. -/
  result : (p.recorded everywhere w (s.withVars vars)).1.1 = (p.recorded everywhere w s).1.1
  /-- It does the same, in the same order. -/
  deeds : (p.recorded everywhere w (s.withVars vars)).1.2 = (p.recorded everywhere w s).1.2
  /-- It makes the same calls at the same times. -/
  calls : (p.recorded everywhere w (s.withVars vars)).2.world.2 = (p.recorded everywhere w s).2.world.2
  /-- It ends at the same time, in the same state of the world, and with the same cancellation and progress. -/
  stage : (p.recorded everywhere w (s.withVars vars)).2 =
    (p.recorded everywhere w s).2.withVars (p.recorded everywhere w (s.withVars vars)).2.context.vars
  /-- Variables that agreed before, and variables that are set on the way, agree at the end. -/
  vars : ∀ name,
    Fields.get? s.context.vars name = Fields.get? vars name ∨
      name ∈ (Deed.bindings (p.recorded everywhere w s).1.2).map Prod.fst →
    Fields.get? (p.recorded everywhere w (s.withVars vars)).2.context.vars name =
      Fields.get? (p.recorded everywhere w s).2.context.vars name

theorem Process.ReadsOnly.alike {α σ : Type} {names : List String} {p : Process α} (h : p.ReadsOnly names)
    (everywhere : Bool) (w : World σ) (s : Stage (σ × List (Moment × Request))) {vars : Variables}
    (h_agree : s.context.vars.AgreesOn names vars) : p.Alike everywhere w s vars := by
  -- all but the last part is read off the one play with notes
  obtain ⟨vars', h_play⟩ := (h.noting.paced everywhere).play w.logging s vars h_agree
  have h_recorded : p.recorded everywhere w (s.withVars vars) =
      ((p.recorded everywhere w s).1, (p.recorded everywhere w s).2.withVars vars') := h_play
  refine ⟨?_, ?_, ?_, ?_, fun name h_name => ?_⟩
  · rw [h_recorded]
  · rw [h_recorded]
  · rw [h_recorded]
    rfl
  · rw [h_recorded]
    rfl
  · -- both plays make the same assignments
    rw [vars_recorded, vars_recorded, h_recorded]
    exact (Variables.get?_assignAll_congr _ h_name).symm

/-- **Variables that are not read make no difference.** An action, a sequence of actions or a script is played
twice in the same world, which answers as it likes, takes the time it likes, and cancels the run while it waits
or, `everywhere`, at any moment. The second time other variables are set, but those in the tree's read set are
set alike or not at all. Then the two plays are alike. -/
theorem unread_variables_make_no_difference {σ : Type} (everywhere : Bool) (w : World σ)
    (s : Stage (σ × List (Moment × Request))) (vars : Variables) :
    (∀ a : Action, s.context.vars.AgreesOn (a.reads referencedName) vars →
      a.execute.Alike everywhere w s vars) ∧
    (∀ actions : List Action, s.context.vars.AgreesOn (Action.readsOf referencedName actions) vars →
      (Action.executeAll actions (.ok .null)).Alike everywhere w s vars) ∧
    (∀ actions : List Action, s.context.vars.AgreesOn (Action.readsOf referencedName actions) vars →
      (runActions actions 0 .null).Alike everywhere w s vars) := by
  refine ⟨fun a h_agree => ?_, fun actions h_agree => ?_, fun actions h_agree => ?_⟩
  · exact ((compositional_readsOnly _).execute a (Action.pieces_readsOnly a.walk)).alike everywhere w s h_agree
  · exact ((compositional_readsOnly _).executeAll actions _
      (Action.pieces_readsOnly (Action.walkList actions))).alike everywhere w s h_agree
  · exact ((compositional_readsOnly _).runActions actions 0 .null
      (Action.pieces_readsOnly (Action.walkList actions))).alike everywhere w s h_agree

/-- A call that is given a variable, and an assignment of the same variable to another one. -/
def tapAndRemember : List Action :=
  [.call ⟨"device", "tap", [("at", .string "$place")], none⟩ none,
    .setVariable "last" (.string "$place") none]

/-- The script reads the place only. Whatever was remembered before, the same call is made, and the same is
remembered at the end. -/
theorem earlier_memory_makes_no_difference :
    let start : Stage (Unit × List (Moment × Request)) := ⟨0, { vars := [("place", .nat 7)] }, (), []⟩
    let vars : Variables := [("last", .bool true), ("place", .nat 7)]
    let script := runActions tapAndRemember 0 .null
    Action.readsOf referencedName tapAndRemember = ["place", "place"] ∧
      start.context.vars.AgreesOn (Action.readsOf referencedName tapAndRemember) vars ∧
      script.Alike true Going.interruptingWorld start vars ∧
      (script.recorded true Going.interruptingWorld (start.withVars vars)).2.world.2 =
        [(0, .invoke "device" "tap" [("at", .nat 7)])] := by
  intro start vars script
  have h_reads : Action.readsOf referencedName tapAndRemember = ["place", "place"] := by decide
  have h_agree : start.context.vars.AgreesOn (Action.readsOf referencedName tapAndRemember) vars := by
    rw [h_reads]
    simp [Variables.AgreesOn, start, vars]
  have h_alike := (unread_variables_make_no_difference true Going.interruptingWorld start vars).2.2
    tapAndRemember h_agree
  exact ⟨h_reads, h_agree, h_alike, h_alike.calls.trans rfl⟩

/-! ### A name that is only a dollar sign -/

/-- The text without a dollar sign in front, whatever is left of it. -/
def dropDollar (text : String) : String :=
  match text.toList with
  | '$' :: rest => String.ofList rest
  | _ => text

/-- A comparison of the variable whose name is a dollar sign. -/
def compareDollar : Action := .condition (.variableCompare "$" .eq (.bool true)) [] [] false none

/-- A lone dollar sign is no reference, so the variable on the left of this comparison is the one of that
very name; it is read although it is not the variable of the name without the dollar sign. -/
theorem lone_dollar_names_itself :
    let start : Stage (Unit × List (Moment × Request)) := ⟨0, { vars := [("$", .bool true)] }, (), []⟩
    start.context.vars.AgreesOn (compareDollar.reads dropDollar) [] ∧
      ¬compareDollar.execute.Alike false Going.interruptingWorld start [] := by
  intro start
  refine ⟨?_, fun h => absurd h.result ?_⟩
  · rw [show compareDollar.reads dropDollar = [""] by decide]
    simp [Variables.AgreesOn, start]
  · decide

end ScriptYard
