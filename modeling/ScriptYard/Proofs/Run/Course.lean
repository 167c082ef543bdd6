import Mathlib.Data.Nat.Notation
import ScriptYard.Run.Context
import ScriptYard.Run.Interpreter
import ScriptYard.Run.Live

/-!
# The courses of runs

What happens in a run is a `Going.Course`: a sequence of small steps, each of which may be a `Deed` that
can be told from outside. A run looks at its cancellation and at its variables, notes progress, sets a
variable, cancels itself, makes a call, or sleeps. While it waits, in a call or in a sleep, it may be
cancelled from outside at any moment and any number of times, and nothing is assumed of what calls come
back with. The plays of runs in worlds are courses (`Going.course_play`).

`Process.Heedful` says of a process that it heeds the cancellation. Its `Standing` is what it may do
next: once it has looked and found that it is not cancelled it is `free`; behind a call it owes the
bindings of the reply, in their order, and as soon as it has made them it has to look again, as it has
behind every sleep. `heedful_runActions` says so of the actions of every script, at every depth. The
places where a script makes calls are its `CallSite`s, and what the reply to a call is bound to is
`Request.bindings`.

`Process.Tells` says of a process that it ends with the state cancelled if it found so in its last look,
and if nothing can have cancelled it since.
-/

namespace ScriptYard

/-! ### Steps and courses -/

/-- What a run does, or what happens to it while it waits. -/
inductive Deed where
  /-- It cancels itself. -/
  | restarted
  /-- It is cancelled from outside. -/
  | stopped
  /-- It sets a variable. -/
  | assigned (name : String) (value : Value)
  /-- A call begins. -/
  | called (request : Request)
  /-- A call comes back. -/
  | answered (request : Request) (reply : request.Reply)

namespace Deed

/-- The deed cancels the run. -/
def Cancels : Deed → Prop
  | .restarted | .stopped => True
  | .assigned .. | .called _ | .answered .. => False

/-- The variable that a deed sets, and its value. -/
def binding? : Deed → Option (String × Value)
  | .assigned name value => some (name, value)
  | .restarted | .stopped | .called _ | .answered .. => none

/-- The variables that some deeds set, in the order of time. -/
def bindings (ds : List Deed) : List (String × Value) := ds.filterMap binding?

end Deed

/-- The variables after some assignments. -/
def Variables.assignAll (vars : Variables) (bs : List (String × Value)) : Variables :=
  bs.foldl (fun vars b => Fields.insert vars b.1 b.2) vars

/-- A run under way. -/
structure Going (α : Type) where
  /-- What is left to do. -/
  process : Process α
  /-- What the run keeps. -/
  context : RunContext
  /-- Whether the call that comes next has begun and has not come back yet. -/
  calling : Bool := false

namespace Going

variable {α : Type}

/-- A step of a run, with the deed that it is. -/
inductive Step : Going α → Option Deed → Going α → Prop where
  /-- The run looks at its cancellation. -/
  | poll (k : Bool → Process α) (c : RunContext) : Step ⟨.poll k, c, false⟩ none ⟨k c.cancelled, c, false⟩
  /-- It cancels itself. -/
  | cancel (k : Process α) (c : RunContext) :
    Step ⟨.cancel k, c, false⟩ (some .restarted) ⟨k, c.cancel, false⟩
  /-- It notes progress. -/
  | touch (k : Process α) (c : RunContext) (now : Moment) :
    Step ⟨.touch k, c, false⟩ none ⟨k, { c with lastActivity := now }, false⟩
  | look (k : Variables → Process α) (c : RunContext) : Step ⟨.look k, c, false⟩ none ⟨k c.vars, c, false⟩
  /-- It sets a variable. -/
  | assign (name : String) (value : Value) (k : Process α) (c : RunContext) :
    Step ⟨.assign name value k, c, false⟩ (some (.assigned name value))
      ⟨k, { c with vars := Fields.insert c.vars name value }, false⟩
  /-- It makes a call. -/
  | call (r : Request) (k : r.Reply → Process α) (c : RunContext) :
    Step ⟨.call r k, c, false⟩ (some (.called r)) ⟨.call r k, c, true⟩
  /-- It is cancelled while it waits for the reply. -/
  | stopInCall (r : Request) (k : r.Reply → Process α) (c : RunContext) :
    Step ⟨.call r k, c, true⟩ (some .stopped) ⟨.call r k, c.cancel, true⟩
  /-- The reply comes. -/
  | answer (r : Request) (k : r.Reply → Process α) (c : RunContext) (reply : r.Reply) :
    Step ⟨.call r k, c, true⟩ (some (.answered r reply)) ⟨k reply, c, false⟩
  /-- It is cancelled while it sleeps. -/
  | stopInSleep (time : Span) (k : Bool → Process α) (c : RunContext) :
    Step ⟨.sleep time k, c, false⟩ (some .stopped) ⟨.sleep time k, c.cancel, false⟩
  /-- The sleep ends, before its time only if the run is cancelled. -/
  | wake (time : Span) (k : Bool → Process α) (c : RunContext) (passed : Bool)
    (h : passed = false → c.cancelled = true) : Step ⟨.sleep time k, c, false⟩ none ⟨k passed, c, false⟩

/-- Some steps in a row, with their deeds. -/
inductive Course : Going α → List Deed → Going α → Prop where
  /-- No step. -/
  | refl (g : Going α) : Course g [] g
  /-- One more step. -/
  | step {g g' g'' : Going α} {ds : List Deed} {d : Option Deed} (h : Course g ds g')
    (h_step : Step g' d g'') : Course g (ds ++ d.toList) g''

namespace Course

variable {g g' g'' : Going α} {ds ds' : List Deed} {d : Option Deed}

theorem trans (h : Course g ds g') (h' : Course g' ds' g'') : Course g (ds ++ ds') g'' := by
  induction h' with
  | refl =>
    rw [List.append_nil]
    exact h
  | step _ h_step ih =>
    rw [← List.append_assoc]
    exact ih.step h_step

theorem head (h_step : Step g d g') (h : Course g' ds g'') : Course g (d.toList ++ ds) g'' :=
  ((Course.refl g).step h_step).trans h

/-- The variables change by the assignments and by nothing else. -/
theorem vars_eq (h : Course g ds g') :
    g'.context.vars = g.context.vars.assignAll (Deed.bindings ds) := by
  induction h with
  | refl => rfl
  | step h h_step ih =>
    rw [Deed.bindings, List.filterMap_append, Variables.assignAll, List.foldl_append]
    rw [Deed.bindings, Variables.assignAll] at ih
    rw [← ih]
    cases h_step <;> rfl

/-- A run is cancelled if it was at first, or if it was cancelled on the way. -/
theorem cancelled_iff (h : Course g ds g') :
    g'.context.cancelled = true ↔ g.context.cancelled = true ∨ ∃ d ∈ ds, d.Cancels := by
  induction h with
  | refl => simp
  | step h h_step ih =>
    cases h_step with
    | cancel k c | stopInCall r k c | stopInSleep time k c =>
      exact ⟨fun _ => .inr ⟨_, List.mem_append_right _ (List.mem_singleton_self _), trivial⟩, fun _ => rfl⟩
    | assign name value k c | call r k c | answer r k c reply =>
      simpa [Deed.Cancels, or_and_right, exists_or] using ih
    | poll | touch | look | wake => simpa using ih

end Course

theorem course_play {σ : Type} (w : World σ) (p : Process α) (s : Stage σ) :
    ∃ ds, Course ⟨p, s.context, false⟩ ds ⟨.done (p.play w s).1, (p.play w s).2.context, false⟩ := by
  induction p generalizing s with
  | done a => exact ⟨[], .refl _⟩
  | poll k ih =>
    obtain ⟨ds, h⟩ := ih s.context.cancelled s
    exact ⟨_, h.head (.poll k s.context)⟩
  | cancel k ih =>
    obtain ⟨ds, h⟩ := ih (s.update .cancel)
    exact ⟨_, h.head (.cancel k s.context)⟩
  | touch k ih =>
    obtain ⟨ds, h⟩ := ih (s.update fun c => { c with lastActivity := s.now })
    exact ⟨_, h.head (.touch k s.context s.now)⟩
  | look k ih =>
    obtain ⟨ds, h⟩ := ih s.context.vars s
    exact ⟨_, h.head (.look k s.context)⟩
  | assign name value k ih =>
    obtain ⟨ds, h⟩ := ih (s.update fun c => { c with vars := Fields.insert c.vars name value })
    exact ⟨_, h.head (.assign name value k s.context)⟩
  | call r k ih =>
    obtain ⟨⟨back, world⟩, h_back⟩ : ∃ b, w.call s.world s.now r = b := ⟨_, rfl⟩
    obtain ⟨ds, h⟩ := ih back.reply (s.advance back.moment back.cancelled world)
    rw [Process.play, h_back]
    -- the world may cancel the run before it answers
    cases h_cancelled : back.cancelled with
    | false =>
      simp only [h_cancelled] at h ⊢
      exact ⟨_, (h.head (.answer r k s.context back.reply)).head (.call r k s.context)⟩
    | true =>
      simp only [h_cancelled] at h ⊢
      exact ⟨_, ((h.head (.answer r k s.context.cancel back.reply)).head
        (.stopInCall r k s.context)).head (.call r k s.context)⟩
  | sleep time k ih =>
    rw [Process.play]
    split
    · next h_cancelled =>
      obtain ⟨ds, h⟩ := ih false s
      exact ⟨_, h.head (.wake time k s.context false fun _ => h_cancelled)⟩
    · obtain ⟨⟨back, world⟩, h_back⟩ : ∃ b, w.sleep s.world s.now time = b := ⟨_, rfl⟩
      obtain ⟨ds, h⟩ := ih (!back.cancelled) (s.advance back.moment back.cancelled world)
      rw [h_back]
      cases h_cancelled : back.cancelled with
      | false =>
        simp only [h_cancelled] at h ⊢
        exact ⟨_, h.head (.wake time k s.context true fun h => by cases h)⟩
      | true =>
        simp only [h_cancelled] at h ⊢
        exact ⟨_, (h.head (.wake time k s.context.cancel false fun _ => rfl)).head
          (.stopInSleep time k s.context)⟩

end Going

/-! ### Calls and their bindings -/

/-- A place in a script where a call is made. -/
structure CallSite where
  /-- The call that is made with these variables, if one is. -/
  request : Variables → Option Request
  /-- The variable that takes the result. -/
  store : Option String

/-- The call is one that is made at the place, with some variables. -/
def CallSite.Makes (s : CallSite) (r : Request) : Prop := ∃ vars, s.request vars = some r

/-- Where a call of a capability is made. -/
def CapabilityCall.site (c : CapabilityCall) : CallSite where
  request vars := some (.invoke c.capability c.action (Variables.resolveFields vars c.params))
  store := c.storeResult

/-- Where a template is looked for. -/
def TemplateSearch.site (s : TemplateSearch) : CallSite where
  request vars := do
    let image ← vars.optionalImage? s.inputImage
    let template ← s.templatePath
    return .matchTemplate image template s.threshold
  store := s.storeResult

def TextReading.site (t : TextReading) : CallSite where
  request vars := (vars.optionalImage? t.inputImage).map fun image => .readText image t.region
  store := t.storeResult

/-- Where what a condition asks is a call. -/
def Check.sites : Check → List CallSite
  | .templateMatch path threshold image =>
    [⟨fun vars => (vars.optionalImage? image).map fun image => .matchTemplate image path threshold, none⟩]
  | .variableCompare .. => []

namespace Action

mutual

/-- The places of an action, and of all below it, where calls are made. -/
def callSites : Action → List CallSite
  | .call c _ => [c.site]
  | .condition check onTrue onFalse _ _ => check.sites ++ callSitesOf onTrue ++ callSitesOf onFalse
  | .loop _ _ body _ => callSitesOf body
  | .templateMatch s _ => [s.site]
  | .readText t _ => [t.site]
  | .wait .. | .setVariable .. | .restart _ | .unsupported _ => []

/-- The places of some actions where calls are made. -/
def callSitesOf : List Action → List CallSite
  | [] => []
  | a :: rest => a.callSites ++ callSitesOf rest

end

end Action

/-- What a result is bound to if a variable takes it. -/
def storeBindings (name : Option String) (v : Value) : List (String × Value) :=
  name.toList.map fun n => (n, v)

/-- What the place that a result names is bound to: both coordinates or neither. -/
def placeBindings (fields : Fields Value) : List (String × Value) :=
  match fields.get? "x", fields.get? "y" with
  | some x, some y => [(Variables.matchX, x), (Variables.matchY, y)]
  | _, _ => []

/-- What the screenshot that a result names is bound to. -/
def screenshotBindings (fields : Fields Value) : List (String × Value) :=
  (fields.get? "screenshot_path").toList.map fun path => (Variables.screenshot, path)

/-- What the names in the result of a capability are bound to. -/
def Value.bindings : Value → List (String × Value)
  | .object fields => placeBindings fields ++ screenshotBindings fields
  | _ => []

/-- What a template that was found is bound to. -/
def TemplateMatch.bindings (m : TemplateMatch) : List (String × Value) :=
  if m.found then
    [(Variables.matchX, .int m.x), (Variables.matchY, .int m.y),
      (Variables.matchConfidence, .float m.confidence)]
  else []

/-- What the reply to a call is bound to, if a variable takes the result. -/
def Request.bindings (store : Option String) : (r : Request) → r.Reply → List (String × Value)
  | .invoke .., .ok v => storeBindings store v ++ v.bindings
  | .matchTemplate .., .ok m => storeBindings store m.toValue ++ m.bindings
  | .readText .., .ok text => storeBindings store (.string text)
  | .invoke .., .error _ | .matchTemplate .., .error _ | .readText .., .error _ => []

namespace Process

/-- Sets some variables, one after the other. -/
def assignAll : List (String × Value) → Process Unit
  | [] => .done ()
  | b :: bs => .assign b.1 b.2 (assignAll bs)

theorem assignAll_append (bs bs' : List (String × Value)) :
    assignAll (bs ++ bs') = (assignAll bs).bind fun _ => assignAll bs' := by
  induction bs with
  | nil => rfl
  | cons b bs ih =>
    rw [List.cons_append, assignAll, ih]
    rfl

end Process

theorem storeResult_eq (name : Option String) (v : Value) :
    storeResult name v = Process.assignAll (storeBindings name v) := by
  cases name <;> rfl

theorem bindPlace_eq (fields : Fields Value) :
    bindPlace fields = Process.assignAll (placeBindings fields) := by
  unfold bindPlace placeBindings
  cases fields.get? "x" with
  | none => rfl
  | some x => cases fields.get? "y" <;> rfl

theorem bindScreenshot_eq (fields : Fields Value) :
    bindScreenshot fields = Process.assignAll (screenshotBindings fields) := by
  unfold bindScreenshot screenshotBindings
  cases fields.get? "screenshot_path" <;> rfl

/-- What is set from the result of a capability are its bindings. -/
theorem bindResult_eq (name : Option String) (v : Value) :
    bindResult name v = Process.assignAll (storeBindings name v ++ v.bindings) := by
  rw [Process.assignAll_append, ← storeResult_eq]
  unfold bindResult Value.bindings
  cases v with
  | object fields =>
    simp only [Process.assignAll_append, ← bindPlace_eq, ← bindScreenshot_eq]
    rfl
  | _ => rfl

/-! ### Processes that heed the cancellation -/

/-- What a process may do before it looks at its cancellation again. -/
inductive Standing where
  /-- Anything: it has looked and is not cancelled. -/
  | free
  /-- To make these assignments, and no call. -/
  | owing (bindings : List (String × Value))

/-- Nothing is owed. -/
def Standing.Clear : Standing → Prop
  | .free => True
  | .owing bindings => bindings = []

namespace Process

variable {α β : Type}

/-- The process heeds its cancellation and makes its calls at these places. -/
def Heedful (sites : List CallSite) : Standing → Process α → Prop
  | s, .done _ => s.Clear
  | s, .poll k => s.Clear ∧ Heedful sites (.owing []) (k true) ∧ Heedful sites .free (k false)
  | s, .cancel k => s.Clear ∧ Heedful sites (.owing []) k
  | s, .touch k => Heedful sites s k
  | s, .look k => ∀ vars, Heedful sites s (k vars)
  | .free, .assign _ _ k => Heedful sites .free k
  | .owing bs, .assign name value k => ∃ rest, bs = (name, value) :: rest ∧ Heedful sites (.owing rest) k
  | .free, .call r k => ∃ site ∈ sites, site.Makes r ∧
      ∀ reply, Heedful sites (.owing (r.bindings site.store reply)) (k reply)
  | .owing _, .call _ _ => False
  | s, .sleep _ k => s.Clear ∧ ∀ passed, Heedful sites (.owing []) (k passed)

variable {sites : List CallSite} {s : Standing} {p : Process α} {f : α → Process β}

namespace Heedful

/-- Two heedful processes in a row: the first leaves nothing owed. -/
theorem bind (h : p.Heedful sites s) (h_f : ∀ a s', s'.Clear → (f a).Heedful sites s') :
    (p.bind f).Heedful sites s := by
  induction p generalizing s with
  | done a => exact h_f a s h
  | poll k ih => exact ⟨h.1, ih true h.2.1, ih false h.2.2⟩
  -- a cancellation is done only where nothing is owed
  | cancel k ih => exact ⟨h.1, ih h.2⟩
  | touch k ih => exact ih h
  | look k ih => exact fun vars => ih vars (h vars)
  | assign name value k ih =>
    cases s with
    | free => exact ih h
    | owing bs =>
      obtain ⟨rest, h_bs, h_k⟩ := h
      exact ⟨rest, h_bs, ih h_k⟩
  | call r k ih =>
    cases s with
    | free =>
      obtain ⟨site, h_site, h_makes, h_k⟩ := h
      exact ⟨site, h_site, h_makes, fun reply => ih reply (h_k reply)⟩
    | owing bs => exact h.elim
  | sleep time k ih => exact ⟨h.1, fun passed => ih passed (h.2 passed)⟩

/-- The assignments that are owed can be made. -/
theorem assignAll (bs : List (String × Value)) {rest : List (String × Value)} {f : Unit → Process β}
    (h : (f ()).Heedful sites (.owing rest)) :
    ((Process.assignAll bs).bind f).Heedful sites (.owing (bs ++ rest)) := by
  induction bs with
  | nil => exact h
  | cons b bs ih => exact ⟨bs ++ rest, rfl, ih⟩

theorem assignAll_last (bs : List (String × Value)) {f : Unit → Process β}
    (h : (f ()).Heedful sites (.owing [])) :
    ((Process.assignAll bs).bind f).Heedful sites (.owing bs) := by
  have h_all := assignAll bs h
  rw [List.append_nil] at h_all
  exact h_all

end Heedful

/-- A pause sleeps, or looks at the cancellation. -/
theorem heedful_pause (time : Span) (h : s.Clear) : (pause time).Heedful sites s := by
  unfold pause
  split
  · exact ⟨h, rfl, trivial⟩
  · exact ⟨h, fun _ => rfl⟩

end Process

open Process

variable {sites : List CallSite} {s : Standing}

/-! ### Pieces of actions -/

/-- What is set from a search are its bindings. -/
theorem heedful_bindMatch {α : Type} (m : TemplateMatch) {p : Process α} (h : p.Heedful sites (.owing [])) :
    (if m.found then (bindMatch m).bind fun _ => p else p).Heedful sites (.owing m.bindings) := by
  unfold TemplateMatch.bindings
  split
  · exact ⟨_, rfl, _, rfl, _, rfl, h⟩
  · exact h

theorem heedful_executeCall (c : CapabilityCall) (h_site : c.site ∈ sites) :
    (executeCall c).Heedful sites .free := by
  have h_ok : ∀ v : Value, ((bindResult c.storeResult v).bind fun _ => .done (ActionResult.ok v)).Heedful sites
      (.owing (storeBindings c.storeResult v ++ v.bindings)) := by
    intro v
    rw [bindResult_eq]
    exact Heedful.assignAll_last _ rfl
  intro vars
  refine ⟨c.site, h_site, ⟨vars, rfl⟩, fun reply => ?_⟩
  cases reply with
  | error e => rfl
  | ok v => exact h_ok v

theorem heedful_evaluate (check : Check) (h_sites : check.sites ⊆ sites) :
    (evaluate check).Heedful sites .free := by
  cases check with
  | variableCompare name op value => exact fun _ => trivial
  | templateMatch path threshold image =>
    intro vars
    simp only [Process.bind]
    cases h_image : vars.optionalImage? image with
    | none => trivial
    | some found =>
      refine ⟨_, h_sites (List.mem_singleton_self _), ⟨vars, by simp [h_image]⟩, fun reply => ?_⟩
      cases reply with
      | error e => rfl
      | ok m =>
        -- the match is what the site stores, and the last thing that is done
        exact heedful_bindMatch m rfl

theorem heedful_executeSearch (t : TemplateSearch) (h_site : t.site ∈ sites) :
    (executeSearch t).Heedful sites .free := by
  intro vars
  simp only [Process.bind]
  split
  · next image template h_image h_template =>
    have h_makes : t.site.Makes (.matchTemplate image template t.threshold) :=
      ⟨vars, by simp [TemplateSearch.site, h_image, h_template]⟩
    refine ⟨t.site, h_site, h_makes, fun reply => ?_⟩
    cases reply with
    | error e => rfl
    | ok m =>
      -- first the result is stored, then the place of the match: what is owed, in its order
      show ((storeResult t.storeResult m.toValue).bind fun _ =>
        if m.found then (bindMatch m).bind fun _ => .done (ActionResult.ok m.toValue)
        else .done (ActionResult.ok m.toValue)).Heedful sites
          (.owing (storeBindings t.storeResult m.toValue ++ m.bindings))
      rw [storeResult_eq]
      exact Heedful.assignAll _ (heedful_bindMatch m rfl)
  · trivial

theorem heedful_executeReading (t : TextReading) (h_site : t.site ∈ sites) :
    (executeReading t).Heedful sites .free := by
  intro vars
  simp only [Process.bind]
  split
  · next image h_image =>
    refine ⟨t.site, h_site, ⟨vars, by simp [TextReading.site, h_image]⟩, fun reply => ?_⟩
    cases reply with
    | error e => rfl
    | ok text =>
      -- only the text is stored, if at all
      show ((storeResult t.storeResult (.string text)).bind fun _ =>
        .done (ActionResult.ok (.object [("text", .string text)]))).Heedful sites
          (.owing (storeBindings t.storeResult (.string text)))
      rw [storeResult_eq]
      exact Heedful.assignAll_last _ rfl
  · trivial

theorem heedful_executeWait (time : Span) (h : s.Clear) : (executeWait time).Heedful sites s := by
  refine (heedful_pause time h).bind fun passed s' h' => ?_
  cases passed <;> exact h'

theorem heedful_executeAssignment (name : String) (value : Value) :
    (executeAssignment name value).Heedful sites .free := by
  unfold executeAssignment
  split
  · trivial
  · exact fun vars => trivial

/-- The look before an action frees it. -/
theorem heedful_guarded (isLeaf : Bool) {body : Process ActionResult} (h_body : body.Heedful sites .free)
    (h : s.Clear) : (guarded isLeaf body).Heedful sites s := by
  refine ⟨h, rfl, h_body.bind fun r s' h' => ?_⟩
  simp only
  split <;> exact h'

/-! ### Actions and scripts -/

/-- A loop looks before every pass, and behind every pause between two. -/
theorem heedful_runLoop (interval : Span) {pass : Process PassEnd}
    (h_pass : ∀ s : Standing, s.Clear → pass.Heedful sites s) (remaining made : ℕ) (h : s.Clear) :
    (runLoop interval pass remaining made).Heedful sites s := by
  induction remaining generalizing made s with
  | zero => exact h
  | succ remaining ih =>
    -- the pass begins where the look has just found no cancellation
    refine ⟨h, rfl, (h_pass .free trivial).bind fun passEnd s' h' => ?_⟩
    cases passEnd with
    | failed | broken | cancelled => exact h'
    | finished =>
      simp only
      split
      · exact h'
      · refine (heedful_pause interval h').bind fun passed s'' h'' => ?_
        cases passed with
        | false => exact h''
        | true => exact ih (made + 1) h''

namespace Action

mutual

theorem heedful_execute (a : Action) (h_sites : a.callSites ⊆ sites) (s : Standing) (h : s.Clear) :
    a.execute.Heedful sites s := by
  match a with
  | .call c _ => exact heedful_guarded true (heedful_executeCall c (h_sites (List.mem_singleton_self _))) h
  | .condition check onTrue onFalse _ _ =>
    simp only [callSites, List.append_subset] at h_sites
    obtain ⟨⟨h_check, h_true⟩, h_false⟩ := h_sites
    refine heedful_guarded false ((heedful_evaluate check h_check).bind fun answer s' h' => ?_) h
    -- the branch that is taken looks for itself before it does anything
    cases answer with
    | error e => exact h'
    | ok outcome =>
      cases outcome with
      | true =>
        refine (heedful_executeAll onTrue _ h_true s' h').bind fun r s'' h'' => ?_
        simp only
        split <;> exact h''
      | false =>
        refine (heedful_executeAll onFalse _ h_false s' h').bind fun r s'' h'' => ?_
        simp only
        split <;> exact h''
  | .loop interval n body _ =>
    exact heedful_guarded false (heedful_runLoop _ (heedful_executePass body h_sites) n 0 trivial) h
  | .templateMatch t _ =>
    exact heedful_guarded true (heedful_executeSearch t (h_sites (List.mem_singleton_self _))) h
  | .readText t _ =>
    exact heedful_guarded true (heedful_executeReading t (h_sites (List.mem_singleton_self _))) h
  | .wait duration _ => exact heedful_guarded true (heedful_executeWait _ trivial) h
  | .setVariable name value _ => exact heedful_guarded true (heedful_executeAssignment name value) h
  | .restart _ => exact heedful_guarded true ⟨trivial, rfl⟩ h
  | .unsupported kind => exact heedful_guarded true trivial h

theorem heedful_executeAll (actions : List Action) (last : ActionResult)
    (h_sites : callSitesOf actions ⊆ sites) (s : Standing) (h : s.Clear) : (executeAll actions last).Heedful sites s := by
  match actions with
  | [] => exact h
  | a :: rest =>
    simp only [callSitesOf, List.append_subset] at h_sites
    refine ⟨h, rfl, (heedful_execute a h_sites.1 .free trivial).bind fun r s' h' => ?_⟩
    split
    · exact heedful_executeAll rest r h_sites.2 s' h'
    · exact h'

theorem heedful_executePass (actions : List Action) (h_sites : callSitesOf actions ⊆ sites)
    (s : Standing) (h : s.Clear) : (executePass actions).Heedful sites s := by
  match actions with
  | [] => exact h
  | a :: rest =>
    simp only [callSitesOf, List.append_subset] at h_sites
    refine ⟨h, rfl, (heedful_execute a h_sites.1 .free trivial).bind fun r s' h' => ?_⟩
    split
    · refine Heedful.bind (p := noteProgress) h' fun _ s'' h'' => ?_
      split
      · exact h''
      · exact heedful_executePass rest h_sites.2 s'' h''
    · exact h'

end

end Action

/-- **The actions of every script heed the cancellation**, and make their calls at its call sites. -/
theorem heedful_runActions (actions : List Action) (executed : ℕ) (result : Value)
    (h_sites : Action.callSitesOf actions ⊆ sites) (h : s.Clear) :
    (runActions actions executed result).Heedful sites s := by
  induction actions generalizing executed result s with
  | nil => exact h
  | cons a rest ih =>
    simp only [Action.callSitesOf, List.append_subset] at h_sites
    refine ⟨h, rfl, (a.heedful_execute h_sites.1 .free trivial).bind fun r s' h' => ⟨h', rfl, ?_⟩⟩
    simp only [Process.bind]
    cases r.failure with
    | some f => trivial
    | none => exact ih (executed + 1) r.data h_sites.2 trivial

/-! ### Processes that tell their cancellation -/

/-- The process ends as cancelled if and only if its last look found it cancelled, and nothing can have
cancelled it since. `known` is what the last look found, as long as that is sure. -/
def Process.Tells (known : Option Bool) : Process RunEnd → Prop
  | .done e => ∃ b, known = some b ∧ (e.state = .cancelled ↔ b = true)
  | .poll k => Tells (some true) (k true) ∧ Tells (some false) (k false)
  | .cancel k => Tells none k
  | .touch k => Tells known k
  | .look k => ∀ vars, Tells known (k vars)
  | .assign _ _ k => Tells known k
  | .call _ k => ∀ reply, Tells none (k reply)
  | .sleep _ k => ∀ passed, Tells none (k passed)

theorem Process.Tells.bind {α : Type} {f : α → Process RunEnd} (h_f : ∀ a known, (f a).Tells known)
    (p : Process α) (known : Option Bool) : (p.bind f).Tells known := by
  induction p generalizing known with
  | done a => exact h_f a known
  | poll k ih => exact ⟨ih true _, ih false _⟩
  | cancel k ih | touch k ih | assign name value k ih => exact ih _
  | look k ih | call r k ih | sleep time k ih => exact fun x => ih x _

/-- **A script tells whether it was cancelled**: it looks behind its last action. -/
theorem tells_runActions (actions : List Action) (executed : ℕ) (result : Value) (known : Option Bool)
    (h : actions ≠ [] ∨ known = some false) : (runActions actions executed result).Tells known := by
  induction actions generalizing executed result known with
  | nil =>
    obtain rfl : known = some false := h.resolve_left fun h => h rfl
    exact ⟨false, rfl, by simp⟩
  | cons a rest ih =>
    refine ⟨⟨true, rfl, by simp [RunEnd.cancelled]⟩, Tells.bind (fun r known => ?_) a.execute _⟩
    refine ⟨⟨true, rfl, by simp [RunEnd.cancelled]⟩, ?_⟩
    simp only [Process.bind]
    cases r.failure with
    | some f => exact ⟨false, rfl, by simp⟩
    | none => exact ih (executed + 1) r.data (some false) (.inr rfl)

end ScriptYard
