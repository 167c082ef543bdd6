import ScriptYard.Proofs.Run.Endings
import ScriptYard.Proofs.Run.Pieces

/-!
# The images that calls are about

The image services, the search for a template and the reading of a text, take the path of an image. An action
names it by a reference: a literal, or a variable that is bound to a text or to an object which holds the path
under `screenshot_path` or under `path`.

What can be hoped for is the first path that the value of the reference holds, where a path is a text that is not
empty (`Value.firstPath?`). What is taken is `Value.image?`: a text by itself has to be non-empty, but of an
object the first of the two entries that is there is taken for the path, whatever it is. The two differ on two
kinds of objects. An empty text in that entry goes to the service as it is (`Value.NamesEmptyPath`), and an entry
`screenshot_path` that is no text keeps the path beside it from being found (`Value.HidesPath`).

`image_services_get_first_paths` is what this makes of runs: every call of an image service is about the image
that is taken from the value which an action of the script refers to at that moment, and every action whose
reference leads to an image calls its service. `Process.CallsFit` carries the variables along a process, so that
the calls can be compared with what the references stand for when they are made.
-/

namespace ScriptYard

/-- The image that a call of an image service is about. -/
def Request.image? : Request → Option String
  | .matchTemplate image _ _ | .readText image _ => some image
  | .invoke .. => none

/-! ### Values that images are taken from -/

namespace Value

/-- The path that a value is: a text that is not empty. -/
def path? (v : Value) : Option String := v.text?.filter fun s => !s.isEmpty

/-- The first path that a value holds: the value itself, or else, in an object, the one under `screenshot_path`
and then the one under `path`. -/
def firstPath? : Value → Option String
  | .object fields =>
    ((Fields.get? fields "screenshot_path").bind path?).or ((Fields.get? fields "path").bind path?)
  | v => v.path?

/-- The path that is taken from a value. -/
def image? : Value → Option String
  | .object fields => ((Fields.get? fields "screenshot_path").or (Fields.get? fields "path")).bind text?
  | v => v.path?

/-- The value is an object that has an empty text where its path is taken from. -/
def NamesEmptyPath (v : Value) : Prop :=
  ∃ fields, v = .object fields ∧
    (Fields.get? fields "screenshot_path").or (Fields.get? fields "path") = some (.string "")

/-- The value is an object with a path that is not looked at, since there is something else before it that is
no text. -/
def HidesPath (v : Value) : Prop :=
  ∃ fields shot, v = .object fields ∧ Fields.get? fields "screenshot_path" = some shot ∧ shot.text? = none ∧
    ((Fields.get? fields "path").bind path?).isSome

variable {v : Value} {path : String}

theorem text?_eq_some_iff {s : String} : v.text? = some s ↔ v = .string s := by
  cases v <;> simp [text?]

theorem path?_eq_some_iff : v.path? = some path ↔ v = .string path ∧ path ≠ "" := by
  rw [path?, Option.filter_eq_some_iff, text?_eq_some_iff]
  simp

/-- Apart from the empty text, a text is a path. -/
theorem path?_eq_text? (h : v ≠ .string "") : v.path? = v.text? := by
  refine Option.ext fun s => ?_
  rw [path?_eq_some_iff, text?_eq_some_iff, and_iff_left_iff_imp]
  rintro rfl rfl
  exact h rfl

/-- A path is never empty. -/
theorem firstPath?_ne_empty (h : v.firstPath? = some path) : path ≠ "" := by
  cases v with
  | object fields =>
    rcases Option.or_eq_some_iff.mp h with h_shot | ⟨-, h_path⟩
    · obtain ⟨shot, -, h_shot⟩ := Option.bind_eq_some_iff.mp h_shot
      exact (path?_eq_some_iff.mp h_shot).2
    · obtain ⟨other, -, h_other⟩ := Option.bind_eq_some_iff.mp h_path
      exact (path?_eq_some_iff.mp h_other).2
  | _ => exact (path?_eq_some_iff.mp h).2

/-- **An empty path is taken from the objects that name one**, and from nothing else. -/
theorem image?_eq_empty_iff : v.image? = some "" ↔ v.NamesEmptyPath := by
  cases v with
  | object fields =>
    rw [image?, Option.bind_eq_some_iff]
    simp [text?_eq_some_iff, NamesEmptyPath]
  | _ => simp [image?, path?_eq_some_iff, NamesEmptyPath]

theorem HidesPath.image?_eq_none (h : v.HidesPath) : v.image? = none := by
  obtain ⟨fields, shot, rfl, h_shot, h_text, -⟩ := h
  rw [image?, h_shot, Option.some_or, Option.bind_some, h_text]

theorem HidesPath.isSome_firstPath? (h : v.HidesPath) : v.firstPath?.isSome := by
  obtain ⟨fields, shot, rfl, h_shot, h_text, h_path⟩ := h
  have h_none : shot.path? = none := by rw [path?, h_text]; rfl
  rwa [firstPath?, h_shot, Option.bind_some, h_none, Option.none_or]

/-- **The first path of a value is taken**, except from the objects that name an empty one or hide the one they
have. -/
theorem image?_eq_firstPath?_iff : v.image? = v.firstPath? ↔ ¬v.NamesEmptyPath ∧ ¬v.HidesPath := by
  refine ⟨fun h => ⟨fun h_named => ?_, fun h_hidden => ?_⟩, fun ⟨h_named, h_hidden⟩ => ?_⟩
  · exact firstPath?_ne_empty (h ▸ image?_eq_empty_iff.mpr h_named) rfl
  · have h_some := h_hidden.isSome_firstPath?
    rw [← h, h_hidden.image?_eq_none] at h_some
    cases h_some
  · cases v with
    | object fields =>
      rw [image?, firstPath?]
      cases h_shot : Fields.get? fields "screenshot_path" with
      | none =>
        cases h_path : Fields.get? fields "path" with
        | none => rfl
        | some path =>
          have h_ne : path ≠ .string "" := fun h => h_named ⟨fields, rfl, by rw [h_shot, h_path, h]; rfl⟩
          exact (path?_eq_text? h_ne).symm
      | some shot =>
        have h_ne : shot ≠ .string "" := fun h => h_named ⟨fields, rfl, by rw [h_shot, h]; rfl⟩
        rw [Option.some_or, Option.bind_some, Option.bind_some, path?_eq_text? h_ne]
        cases h_text : shot.text? with
        | some s => rfl
        | none =>
          -- nothing is hidden behind an entry that is no text
          rw [Option.none_or, eq_comm, ← Option.not_isSome_iff_eq_none]
          exact fun h_path => h_hidden ⟨fields, shot, rfl, h_shot, h_text, h_path⟩
    | _ => rfl

example : (object [("path", .string "/tmp/a.png"), ("screenshot_path", .null)]).image? = none := rfl

/-- A path that is taken is the first one of the value, if it is not empty. -/
theorem ne_empty_iff (h : v.image? = some path) : path ≠ "" ↔ v.firstPath? = some path := by
  refine ⟨fun h_ne => ?_, firstPath?_ne_empty⟩
  rw [← h, eq_comm, image?_eq_firstPath?_iff, ← image?_eq_empty_iff, h, Option.some_inj]
  refine ⟨h_ne, fun h_hidden => ?_⟩
  rw [h_hidden.image?_eq_none] at h
  cases h

end Value

/-- What a reference leads to is taken from the value that it stands for. -/
theorem Variables.image?_eq (vars : Variables) (reference : String) :
    vars.image? reference = (vars.lookup? reference).bind Value.image? := by
  unfold Variables.image?
  cases vars.lookup? reference with
  | none => rfl
  | some v =>
    cases v with
    | string s => cases h : s.isEmpty <;> simp [Value.image?, Value.path?, Value.text?, Option.filter, h]
    | _ => rfl

theorem Variables.optionalImage?_eq (vars : Variables) (reference : Option String) :
    vars.optionalImage? reference = (reference.bind vars.lookup?).bind Value.image? := by
  rw [Variables.optionalImage?, Option.bind_assoc]
  exact congrArg _ (funext vars.image?_eq)

/-! ### Actions that need images -/

namespace Action

/-- The reference to the image that an action by itself needs, unless it lacks the template to look for. -/
def imageReference? : Action → Option String
  | .condition (.templateMatch _ _ image) .. => image
  | .templateMatch s _ => s.templatePath.bind fun _ => s.inputImage
  | .readText t _ => t.inputImage
  | _ => none

/-- The value that the reference stands for. -/
def imageValue? (vars : Variables) (a : Action) : Option Value := a.imageReference?.bind vars.lookup?

/-- What an action does that needs an image and has none: a condition is false, and a leaf fails. -/
def unseeing : Action → Process ActionResult
  | .condition (.templateMatch ..) _ onFalse _ _ => do
    let r ← executeAll onFalse (.ok .null)
    if r.success then return .ok (.object [("condition_result", .bool false)]) else return r
  | .templateMatch .. => return .ofError (.invalidParams "template_match requires input_image and template_path")
  | .readText .. => return .ofError (.invalidParams "ocr requires input_image")
  | a => a.execute

variable {a : Action} {now : Moment} {c : RunContext}

/-- What an action does behind what it is about: a leaf notes its progress. -/
def noted (isLeaf : Bool) (r : ActionResult) : Process ActionResult :=
  if r.success && isLeaf then .touch (.done r) else .done r

theorem noted_false : noted false = .done := by
  funext r
  rw [noted, Bool.and_false, if_neg Bool.false_ne_true]

/-- An action that is begun gets past its guard. -/
theorem settle_guarded {α : Type} {isLeaf : Bool} {body : Process ActionResult} {k : ActionResult → Process α}
    (h : c.cancelled = false) :
    ((guarded isLeaf body).bind k).settle now c = ((body.bind (noted isLeaf)).bind k).settle now c := by
  show Process.settle now (Process.bind (if c.cancelled = true then _ else _) k) c = _
  rw [if_neg (h ▸ Bool.false_ne_true)]
  rfl

/-- **An action that has an image calls its service** with it. -/
theorem settle_of_image {α : Type} {image : String} (h : c.cancelled = false)
    (h_image : (a.imageValue? c.vars).bind Value.image? = some image) (k : ActionResult → Process α) :
    ∃ r k', (a.execute.bind k).settle now c = (.call r k', c) ∧ r.image? = some image := by
  cases a with
  | condition check =>
    cases check with
    | variableCompare => cases h_image
    | templateMatch =>
      rw [imageValue?, imageReference?, ← Variables.optionalImage?_eq] at h_image
      rw [execute, settle_guarded h]
      simp only [evaluate, Process.vars, Process.request, bind, Process.bind, Process.settle, h_image]
      exact ⟨_, _, rfl, rfl⟩
  | templateMatch s =>
    -- a search without a template has no image value at all
    cases h_template : s.templatePath with
    | none => simp [imageValue?, imageReference?, h_template] at h_image
    | some template =>
      rw [imageValue?, imageReference?, h_template, Option.bind_some, ← Variables.optionalImage?_eq] at h_image
      rw [execute, settle_guarded h]
      simp only [executeSearch, Process.vars, Process.request, bind, Process.bind, Process.settle, h_image, h_template]
      exact ⟨_, _, rfl, rfl⟩
  | readText =>
    rw [imageValue?, imageReference?, ← Variables.optionalImage?_eq] at h_image
    rw [execute, settle_guarded h]
    simp only [executeReading, Process.vars, Process.request, bind, Process.bind, Process.settle, h_image]
    exact ⟨_, _, rfl, rfl⟩
  | call | loop | wait | setVariable | restart | unsupported => cases h_image

/-- **An action that has no image goes on without it.** -/
theorem settle_of_no_image {α : Type} (h : c.cancelled = false)
    (h_image : (a.imageValue? c.vars).bind Value.image? = none) (k : ActionResult → Process α) :
    (a.execute.bind k).settle now c = (a.unseeing.bind k).settle now c := by
  cases a with
  | condition check =>
    cases check with
    | variableCompare => rfl
    | templateMatch =>
      rw [imageValue?, imageReference?, ← Variables.optionalImage?_eq] at h_image
      rw [execute, settle_guarded h, noted_false, Process.bind_done]
      simp only [evaluate, Process.vars, bind, Process.bind, Process.settle, h_image]
      rfl
  | templateMatch s =>
    rw [execute, settle_guarded h]
    simp only [executeSearch, Process.vars, bind, Process.bind, Process.settle]
    -- the template is missing, or it is there and the image is missing
    cases h_template : s.templatePath with
    | none => cases c.vars.optionalImage? s.inputImage <;> rfl
    | some template =>
      rw [imageValue?, imageReference?, h_template, Option.bind_some, ← Variables.optionalImage?_eq] at h_image
      rw [h_image]
      rfl
  | readText =>
    rw [imageValue?, imageReference?, ← Variables.optionalImage?_eq] at h_image
    rw [execute, settle_guarded h]
    simp only [executeReading, Process.vars, bind, Process.bind, Process.settle, h_image]
    rfl
  | call | loop | wait | setVariable | restart | unsupported => rfl

end Action

/-! ### Calls that fit the variables -/

namespace Process

/-- Every call of the process fits the variables at the moment when it is made. -/
def CallsFit {α : Type} (P : Variables → Request → Prop) : Process α → Variables → Prop
  | .done _, _ => True
  | .poll k, vars => ∀ b, CallsFit P (k b) vars
  | .cancel k, vars => CallsFit P k vars
  | .touch k, vars => CallsFit P k vars
  | .look k, vars => CallsFit P (k vars) vars
  | .assign name value k, vars => CallsFit P k (Fields.insert vars name value)
  | .call r k, vars => P vars r ∧ ∀ reply, CallsFit P (k reply) vars
  | .sleep _ k, vars => ∀ passed, CallsFit P (k passed) vars

namespace CallsFit

variable {α β : Type} {P : Variables → Request → Prop} {vars : Variables}

theorem bind {p : Process α} {f : α → Process β} (h : p.CallsFit P vars)
    (h_f : ∀ a vars, (f a).CallsFit P vars) : (p.bind f).CallsFit P vars := by
  induction p generalizing vars with
  | done a => exact h_f a vars
  | cancel k ih | touch k ih | assign name value k ih => exact ih h
  | look k ih => exact ih vars h
  | poll k ih | sleep time k ih => exact fun x => ih x (h x)
  | call r k ih => exact ⟨h.1, fun reply => ih reply (h.2 reply)⟩

/-- Assignments call nothing. -/
theorem assignAll (bs : List (String × Value)) : (Process.assignAll bs).CallsFit P vars := by
  induction bs generalizing vars with
  | nil => trivial
  | cons b bs ih => exact ih

theorem storeResult (name : Option String) (v : Value) : (storeResult name v).CallsFit P vars := by
  rw [storeResult_eq]
  exact assignAll _

theorem bindResult (name : Option String) (v : Value) : (bindResult name v).CallsFit P vars := by
  rw [bindResult_eq]
  exact assignAll _

theorem executeCall {c : CapabilityCall} (h : ∀ params, P vars (.invoke c.capability c.action params)) :
    (executeCall c).CallsFit P vars := by
  refine ⟨h _, fun reply => ?_⟩
  cases reply with
  | error e => trivial
  | ok v => exact (bindResult c.storeResult v).bind fun _ _ => trivial

theorem evaluate {path : String} {threshold : Finite64} {reference : Option String}
    (h : ∀ image, vars.optionalImage? reference = some image → P vars (.matchTemplate image path threshold)) :
    (evaluate (.templateMatch path threshold reference)).CallsFit P vars := by
  simp only [ScriptYard.evaluate, Process.vars, Bind.bind, Process.bind, CallsFit]
  cases h_image : vars.optionalImage? reference with
  | none => trivial
  | some image =>
    refine ⟨h image h_image, fun reply => ?_⟩
    cases reply with
    | error e => trivial
    | ok m =>
      simp only [Process.bind]
      split <;> trivial

theorem executeSearch {s : TemplateSearch} (h : ∀ image template, vars.optionalImage? s.inputImage = some image →
      s.templatePath = some template → P vars (.matchTemplate image template s.threshold)) :
    (executeSearch s).CallsFit P vars := by
  simp only [ScriptYard.executeSearch, Process.vars, Bind.bind, Process.bind, CallsFit]
  split
  · next image template h_image h_template =>
    refine ⟨h image template h_image h_template, fun reply => ?_⟩
    cases reply with
    | error e => trivial
    | ok m =>
      refine (storeResult s.storeResult m.toValue).bind fun _ _ => ?_
      split <;> trivial
  · trivial

theorem executeReading {t : TextReading}
    (h : ∀ image, vars.optionalImage? t.inputImage = some image → P vars (.readText image t.region)) :
    (executeReading t).CallsFit P vars := by
  simp only [ScriptYard.executeReading, Process.vars, Bind.bind, Process.bind, CallsFit]
  split
  · next image h_image =>
    refine ⟨h image h_image, fun reply => ?_⟩
    cases reply with
    | error e => trivial
    | ok text => exact (storeResult t.storeResult (.string text)).bind fun _ _ => trivial
  · trivial

theorem executeAssignment (name : String) (value : Value) : (executeAssignment name value).CallsFit P vars := by
  unfold ScriptYard.executeAssignment
  split <;> trivial

/-- That its calls fit, whatever the variables are at first, is a property that a script has if its pieces do. -/
theorem compositional (P : Variables → Request → Prop) :
    Compositional fun {_} p => ∀ vars, p.CallsFit P vars where
  done _ _ := trivial
  bind h h_f vars := (h vars).bind h_f
  isCancelled _ _ := trivial
  cancelRun _ := trivial
  noteProgress _ := trivial
  sleep _ _ _ := trivial

end CallsFit

end Process

namespace Going

variable {α : Type} {P : Variables → Request → Prop} {g g' : Going α} {d : Option Deed} {ds : List Deed}

/-- The calls that are left to a run fit its variables. -/
def CallsFit (P : Variables → Request → Prop) (g : Going α) : Prop := g.process.CallsFit P g.context.vars

theorem CallsFit.step (h : g.CallsFit P) (h_step : g.Step d g') : g'.CallsFit P := by
  cases h_step with
  | poll k c => exact h c.cancelled
  | cancel | touch | look | assign | call | stopInCall | stopInSleep => exact h
  | answer r k c reply => exact h.2 reply
  | wake time k c passed => exact h passed

theorem CallsFit.journey (h : g.CallsFit P) (h_journey : g.Journey ds g') : g'.CallsFit P := by
  induction h_journey with
  | refl => exact h
  | step _ h_step ih => exact ih.step h_step
  | stop _ ih => exact ih

/-- A call that is made fits the variables of the moment. -/
theorem CallsFit.called {r : Request} (h : g.CallsFit P) (h_step : g.Step (some (.called r)) g') :
    P g.context.vars r := by
  cases h_step with
  | call r k c => exact h.1

end Going

/-! ### The images that a script is about -/

namespace Action

variable {actions : List Action} {a : Action} {vars : Variables}

/-- If the call is one of an image service, then it is about an image that one of the actions refers to. -/
def Refers (actions : List Action) (vars : Variables) (r : Request) : Prop :=
  ∀ image, r.image? = some image →
    ∃ a ∈ walkList actions, ∃ v, a.imageValue? vars = some v ∧ v.image? = some image

/-- The image that an action of the tree has is one that the tree refers to. -/
theorem refers_of_image {r : Request} {image : String} (h_a : a ∈ walkList actions)
    (h_image : (a.imageValue? vars).bind Value.image? = some image) (h_r : r.image? = some image) :
    Refers actions vars r := by
  rintro other h_other
  obtain rfl : other = image := Option.some.inj (h_other.symm.trans h_r)
  obtain ⟨v, h_value, h_v⟩ := Option.bind_eq_some_iff.mp h_image
  exact ⟨a, h_a, v, h_value, h_v⟩

/-- **The calls that an action makes by itself** are about images that it refers to. -/
theorem piece_callsFit (h_a : a ∈ walkList actions) :
    a.Piece fun {_} p => ∀ vars, p.CallsFit (Refers actions) vars := by
  cases a with
  | call c _ =>
    -- a call of a capability is about no image
    exact fun vars => .executeCall fun _ _ h => by cases h
  | condition check =>
    cases check with
    | variableCompare name op value => exact fun _ => trivial
    | templateMatch path threshold reference =>
      refine fun vars => .evaluate fun image h_image => refers_of_image h_a ?_ rfl
      rw [imageValue?, imageReference?, ← Variables.optionalImage?_eq, h_image]
  | templateMatch s _ =>
    refine fun vars => .executeSearch fun image template h_image h_template => refers_of_image h_a ?_ rfl
    rw [imageValue?, imageReference?, h_template, Option.bind_some, ← Variables.optionalImage?_eq, h_image]
  | readText t _ =>
    refine fun vars => .executeReading fun image h_image => refers_of_image h_a ?_ rfl
    rw [imageValue?, imageReference?, ← Variables.optionalImage?_eq, h_image]
  | setVariable name value _ => exact fun vars => .executeAssignment name value
  | loop | wait | restart | unsupported => trivial

end Action

namespace Going

/-- What a process does at once is part of its course. -/
theorem course_settle {α : Type} (now : Moment) (p : Process α) (c : RunContext) :
    ∃ ds, Course ⟨p, c, false⟩ ds ⟨(p.settle now c).1, (p.settle now c).2, false⟩ := by
  induction p generalizing c with
  | done a => exact ⟨[], .refl _⟩
  | call r k => exact ⟨[], .refl _⟩
  | poll k ih =>
    obtain ⟨ds, h⟩ := ih c.cancelled c
    exact ⟨_, h.head (.poll k c)⟩
  | cancel k ih =>
    obtain ⟨ds, h⟩ := ih c.cancel
    exact ⟨_, h.head (.cancel k c)⟩
  | touch k ih =>
    obtain ⟨ds, h⟩ := ih { c with lastActivity := now }
    exact ⟨_, h.head (.touch k c now)⟩
  | look k ih =>
    obtain ⟨ds, h⟩ := ih c.vars c
    exact ⟨_, h.head (.look k c)⟩
  | assign name value k ih =>
    obtain ⟨ds, h⟩ := ih { c with vars := Fields.insert c.vars name value }
    exact ⟨_, h.head (.assign name value k c)⟩
  -- a cancelled run wakes at once, another one stays asleep
  | sleep time k ih =>
    rw [Process.settle]
    split
    · next h_cancelled =>
      obtain ⟨ds, h⟩ := ih false c
      exact ⟨_, h.head (.wake time k c false fun _ => h_cancelled)⟩
    · exact ⟨[], .refl _⟩

/-- **The image services get the first paths**, unless an object names an empty path or hides the one it has.
Every call of an image service is about the image that is taken from a value to which an action of the script
refers at that moment; it is the first path of that value, or it is empty and the value names an empty path. An
action that finds an image calls its service with it, and one that finds none goes on without. -/
theorem image_services_get_first_paths (actions : List Action) (c : RunContext) :
    (∀ ds g g' r image, Journey ⟨runActions actions 0 .null, c, false⟩ ds g → g.Step (some (.called r)) g' →
      r.image? = some image →
      ∃ a ∈ Action.walkList actions, ∃ v, a.imageValue? g.context.vars = some v ∧ v.image? = some image ∧
        (image = "" ↔ v.NamesEmptyPath) ∧ (image ≠ "" ↔ v.firstPath? = some image)) ∧
    (∀ (α : Type) (k : ActionResult → Process α) (a : Action) (now : Moment) (c : RunContext),
      c.cancelled = false →
      (∀ image, (a.imageValue? c.vars).bind Value.image? = some image →
        ∃ r k', (a.execute.bind k).settle now c = (.call r k', c) ∧ r.image? = some image) ∧
      ((a.imageValue? c.vars).bind Value.image? = none →
        (a.execute.bind k).settle now c = (a.unseeing.bind k).settle now c)) ∧
    ∀ v : Value, v.image? = v.firstPath? ↔ ¬v.NamesEmptyPath ∧ ¬v.HidesPath := by
  refine ⟨fun ds g g' r image h_journey h_step h_image => ?_, fun α k a now c h => ⟨fun image h_image => ?_, ?_⟩,
    fun v => Value.image?_eq_firstPath?_iff⟩
  · have h_start : CallsFit (Action.Refers actions) ⟨runActions actions 0 .null, c, false⟩ :=
      (Process.CallsFit.compositional _).runActions actions 0 .null (fun a => Action.piece_callsFit) c.vars
    obtain ⟨a, h_a, v, h_value, h_v⟩ := (h_start.journey h_journey).called h_step image h_image
    refine ⟨a, h_a, v, h_value, h_v, ?_, Value.ne_empty_iff h_v⟩
    rw [← Value.image?_eq_empty_iff, h_v, Option.some_inj]
  · exact Action.settle_of_image h h_image k
  · exact fun h_image => Action.settle_of_no_image h h_image k

/-- A text is read from the picture that a variable is bound to. -/
def readShot : List Action := [.readText ⟨some "$shot", none, none⟩ none]

/-- What is known when a camera has told only where its picture is. -/
def placedShot : RunContext where
  vars := [("shot", .object [("path", .string "/tmp/a.png")])]

/-- **A picture is read where it is.** -/
theorem shot_is_read_in_its_place :
    (∃ ds g g' r, Journey ⟨runActions readShot 0 .null, placedShot, false⟩ ds g ∧
      g.Step (some (.called r)) g' ∧ r.image? = some "/tmp/a.png" ∧
      ∃ a ∈ Action.walkList readShot, ∃ v, a.imageValue? g.context.vars = some v ∧
        v.image? = some "/tmp/a.png" ∧
        ("/tmp/a.png" = "" ↔ v.NamesEmptyPath) ∧ ("/tmp/a.png" ≠ "" ↔ v.firstPath? = some "/tmp/a.png")) ∧
    ∀ a ∈ readShot, ∃ r k', (a.execute.bind Process.done).settle 0 placedShot = (.call r k', placedShot) ∧
      r.image? = some "/tmp/a.png" := by
  obtain ⟨k, h_settle⟩ : ∃ k, (runActions readShot 0 .null).settle 0 placedShot =
    (.call (.readText "/tmp/a.png" none) k, placedShot) := ⟨_, rfl⟩
  obtain ⟨ds, h_course⟩ := course_settle 0 (runActions readShot 0 .null) placedShot
  rw [h_settle] at h_course
  obtain ⟨h_calls, h_acts, -⟩ := image_services_get_first_paths readShot placedShot
  refine ⟨⟨ds, _, _, _, h_course.journey, .call _ k _, rfl, ?_⟩, fun a h_a => ?_⟩
  · exact h_calls ds _ _ _ _ h_course.journey (.call _ k _) rfl
  · obtain rfl := List.mem_singleton.mp h_a
    exact (h_acts ActionResult .done _ 0 placedShot rfl).1 _ rfl

/-- What is known when a camera has told that its picture is not where it should be. -/
def misplacedShot : RunContext where
  vars := [("shot", .object [("path", .string "/tmp/a.png"), ("screenshot_path", .string "")])]

/-- **An empty path may be read**: that of a picture which is elsewhere. -/
theorem misplaced_shot_is_read_nowhere :
    ¬ ∀ (actions : List Action) (c : RunContext) ds g g' r image,
      Journey ⟨runActions actions 0 .null, c, false⟩ ds g → g.Step (some (.called r)) g' →
      r.image? = some image → image ≠ "" := by
  intro h
  obtain ⟨k, h_settle⟩ : ∃ k, (runActions readShot 0 .null).settle 0 misplacedShot =
    (.call (.readText "" none) k, misplacedShot) := ⟨_, rfl⟩
  obtain ⟨ds, h_course⟩ := course_settle 0 (runActions readShot 0 .null) misplacedShot
  rw [h_settle] at h_course
  exact h readShot misplacedShot ds _ _ _ "" h_course.journey (.call _ k _) rfl rfl

end Going

end ScriptYard
