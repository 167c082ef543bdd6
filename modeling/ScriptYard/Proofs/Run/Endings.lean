import ScriptYard.Proofs.Run.Course

/-!
# What processes end with

`Process.Yields P` says of a process that `P` holds at each of its ends: of its result, and of the deeds that
are done on the way, whatever the replies, the looks and the sleeps are. It composes along `Process.bind`
(`Process.Yields.bind`), so it is proved of a process piece by piece; and a journey of a process to an end
brings it about (`Going.Journey.yields`). A `Going.Journey` is a course in which the run may be cancelled from
outside at every moment, also where it does not wait. The deeds counted are those of the run itself,
`Deed.own`: a cancellation from outside leaves no trace in a process.

`Process.map` is a process with another result, and has the journeys of the process it is made of
(`Going.journey_map_iff`).
-/

namespace ScriptYard

namespace Process

variable {α β γ : Type}

theorem bind_assoc (p : Process α) (f : α → Process β) (g : β → Process γ) :
    (p.bind f).bind g = p.bind fun a => (f a).bind g := by
  induction p with
  | done a => rfl
  | poll k ih => exact congrArg Process.poll (funext ih)
  | cancel k ih => exact congrArg Process.cancel ih
  | touch k ih => exact congrArg Process.touch ih
  | look k ih => exact congrArg Process.look (funext ih)
  | assign name value k ih => exact congrArg (Process.assign name value) ih
  | call r k ih => exact congrArg (Process.call r) (funext ih)
  | sleep time k ih => exact congrArg (Process.sleep time) (funext ih)

theorem bind_done (p : Process α) : p.bind .done = p := by
  induction p with
  | done a => rfl
  | poll k ih => exact congrArg Process.poll (funext ih)
  | cancel k ih => exact congrArg Process.cancel ih
  | touch k ih => exact congrArg Process.touch ih
  | look k ih => exact congrArg Process.look (funext ih)
  | assign name value k ih => exact congrArg (Process.assign name value) ih
  | call r k ih => exact congrArg (Process.call r) (funext ih)
  | sleep time k ih => exact congrArg (Process.sleep time) (funext ih)

/-- The process with another result. -/
def map (f : α → β) (p : Process α) : Process β := p.bind fun a => .done (f a)

end Process

theorem Deed.bindings_append (ds ds' : List Deed) : bindings (ds ++ ds') = bindings ds ++ bindings ds' :=
  List.filterMap_append ..

theorem Variables.assignAll_append (vars : Variables) (bs bs' : List (String × Value)) :
    vars.assignAll (bs ++ bs') = (vars.assignAll bs).assignAll bs' := List.foldl_append ..

/-! ### Cancellations at every moment -/

namespace Going

/-- Some steps in a row, with their deeds, and cancellations from outside between them. -/
inductive Journey {α : Type} : Going α → List Deed → Going α → Prop where
  /-- No step. -/
  | refl (g : Going α) : Journey g [] g
  /-- One more step. -/
  | step {g g' g'' : Going α} {ds : List Deed} {d : Option Deed} (h : Journey g ds g')
    (h_step : Step g' d g'') : Journey g (ds ++ d.toList) g''
  /-- The run is cancelled. -/
  | stop {g g' : Going α} {ds : List Deed} (h : Journey g ds g') :
    Journey g (ds ++ [.stopped]) { g' with context := g'.context.cancel }

theorem Course.journey {α : Type} {g g' : Going α} {ds : List Deed} (h : g.Course ds g') :
    g.Journey ds g' := by
  induction h with
  | refl => exact .refl _
  | step _ h_step ih => exact ih.step h_step

/-- The variables change by the assignments and by nothing else. -/
theorem Journey.vars_eq {α : Type} {g g' : Going α} {ds : List Deed} (h : g.Journey ds g') :
    g'.context.vars = g.context.vars.assignAll (Deed.bindings ds) := by
  induction h with
  | refl => rfl
  | step _ h_step ih =>
    rw [Deed.bindings_append, Variables.assignAll_append, ← ih]
    exact ((Course.refl _).step h_step).vars_eq
  | stop _ ih =>
    rw [Deed.bindings_append, Variables.assignAll_append, ← ih]
    rfl

/-! ### Journeys of a process with another result -/

variable {α β : Type} {f : α → β} {p : Process α} {c : RunContext} {calling : Bool} {g : Going β}

theorem Step.of_map {d : Option Deed} (h : Step ⟨p.map f, c, calling⟩ d g) :
    ∃ p', g.process = p'.map f ∧ Step ⟨p, c, calling⟩ d ⟨p', g.context, g.calling⟩ := by
  -- `map` is opened on each process, or `cases` would not see which step it takes
  cases p with
  | done a => cases h
  | poll k =>
    change Step ⟨.poll fun b => (k b).map f, c, calling⟩ d g at h
    cases h
    exact ⟨_, rfl, .poll k c⟩
  | cancel k =>
    change Step ⟨.cancel (k.map f), c, calling⟩ d g at h
    cases h
    exact ⟨_, rfl, .cancel k c⟩
  | touch k =>
    change Step ⟨.touch (k.map f), c, calling⟩ d g at h
    cases h
    exact ⟨_, rfl, .touch k c _⟩
  | look k =>
    change Step ⟨.look fun vars => (k vars).map f, c, calling⟩ d g at h
    cases h
    exact ⟨_, rfl, .look k c⟩
  | assign name value k =>
    change Step ⟨.assign name value (k.map f), c, calling⟩ d g at h
    cases h
    exact ⟨_, rfl, .assign name value k c⟩
  | call r k =>
    change Step ⟨.call r fun reply => (k reply).map f, c, calling⟩ d g at h
    cases h with
    | call => exact ⟨.call r k, rfl, .call r k c⟩
    | stopInCall => exact ⟨.call r k, rfl, .stopInCall r k c⟩
    | answer _ _ _ reply => exact ⟨k reply, rfl, .answer r k c reply⟩
  | sleep time k =>
    change Step ⟨.sleep time fun passed => (k passed).map f, c, calling⟩ d g at h
    cases h with
    | stopInSleep => exact ⟨.sleep time k, rfl, .stopInSleep time k c⟩
    | wake _ _ _ passed h => exact ⟨k passed, rfl, .wake time k c passed h⟩

theorem Journey.of_map {ds : List Deed} (h : Journey ⟨p.map f, c, calling⟩ ds g) :
    ∃ p', g.process = p'.map f ∧ Journey ⟨p, c, calling⟩ ds ⟨p', g.context, g.calling⟩ := by
  induction h with
  | refl => exact ⟨p, rfl, .refl _⟩
  | @step g' _ _ _ _ h_step ih =>
    obtain ⟨p', h_process, h_journey⟩ := ih
    obtain ⟨process, context, calling⟩ := g'
    obtain rfl : process = p'.map f := h_process
    obtain ⟨p'', h_next, h_step'⟩ := h_step.of_map
    exact ⟨p'', h_next, h_journey.step h_step'⟩
  | stop _ ih =>
    obtain ⟨p', h_process, h_journey⟩ := ih
    exact ⟨p', h_process, h_journey.stop⟩

/-- The run with another result. -/
def map (f : α → β) (g : Going α) : Going β := ⟨g.process.map f, g.context, g.calling⟩

theorem Step.map {g g' : Going α} {d : Option Deed} (h : g.Step d g') (f : α → β) :
    (g.map f).Step d (g'.map f) := by
  cases h with
  | poll k c => exact .poll (fun b => (k b).map f) c
  | cancel k c => exact .cancel (k.map f) c
  | touch k c now => exact .touch (k.map f) c now
  | look k c => exact .look (fun vars => (k vars).map f) c
  | assign name value k c => exact .assign name value (k.map f) c
  | call r k c => exact .call r (fun reply => (k reply).map f) c
  | stopInCall r k c => exact .stopInCall r (fun reply => (k reply).map f) c
  | answer r k c reply => exact .answer r (fun reply => (k reply).map f) c reply
  | stopInSleep time k c => exact .stopInSleep time (fun passed => (k passed).map f) c
  | wake time k c passed h => exact .wake time (fun passed => (k passed).map f) c passed h

theorem Journey.map {g g' : Going α} {ds : List Deed} (h : g.Journey ds g') (f : α → β) :
    (g.map f).Journey ds (g'.map f) := by
  induction h with
  | refl => exact .refl _
  | step _ h_step ih => exact ih.step (h_step.map f)
  | stop _ ih => exact ih.stop

/-- The journeys to an end are those of the process with the former result. -/
theorem journey_map_iff {ds : List Deed} {b : β} {c' : RunContext} :
    Journey ⟨p.map f, c, calling⟩ ds ⟨.done b, c', false⟩ ↔
      ∃ a, f a = b ∧ Journey ⟨p, c, calling⟩ ds ⟨.done a, c', false⟩ := by
  refine ⟨fun h => ?_, ?_⟩
  · obtain ⟨p', h_end, h_journey⟩ := h.of_map
    cases p' with
    | done a => exact ⟨a, (Process.done.inj h_end).symm, h_journey⟩
    | _ => cases h_end
  · rintro ⟨a, rfl, h⟩
    exact h.map f

end Going

/-! ### The deeds on the way to an end -/

namespace Deed

/-- Whether the run does it itself. -/
def isOwn : Deed → Bool
  | .stopped => false
  | .restarted | .assigned .. | .called _ | .answered .. => true

/-- The deeds of the run itself. -/
def own (ds : List Deed) : List Deed := ds.filter isOwn

theorem own_append (ds ds' : List Deed) : own (ds ++ ds') = own ds ++ own ds' := List.filter_append ..

/-- Cancellations from outside bind nothing. -/
theorem bindings_own (ds : List Deed) : bindings (own ds) = bindings ds := by
  induction ds with
  | nil => rfl
  | cons d ds ih =>
    rw [← List.singleton_append, own_append, bindings_append, bindings_append, ih]
    cases d <;> rfl

end Deed

namespace Process

variable {α β : Type}

/-- What holds of the result of the process, and of the deeds on the way to it behind some others, at each
of its ends. -/
def Yields (P : List Deed → α → Prop) : List Deed → Process α → Prop
  | ds, .done a => P ds a
  | ds, .poll k => ∀ b, Yields P ds (k b)
  | ds, .cancel k => Yields P (ds ++ [.restarted]) k
  | ds, .touch k => Yields P ds k
  | ds, .look k => ∀ vars, Yields P ds (k vars)
  | ds, .assign name value k => Yields P (ds ++ [.assigned name value]) k
  | ds, .call r k => ∀ reply, Yields P (ds ++ [.called r, .answered r reply]) (k reply)
  | ds, .sleep _ k => ∀ passed, Yields P ds (k passed)

theorem yields_true (p : Process α) (ds : List Deed) : p.Yields (fun _ _ => True) ds := by
  induction p generalizing ds with
  | done a => trivial
  | cancel k ih | touch k ih | assign name value k ih => exact ih _
  | poll k ih | look k ih | call r k ih | sleep time k ih => exact fun x => ih x _

namespace Yields

variable {P : List Deed → α → Prop} {Q : List Deed → β → Prop} {p : Process α} {ds : List Deed}

/-- Processes in a row. -/
theorem bind {f : α → Process β} (h : p.Yields P ds) (h_f : ∀ ds a, P ds a → (f a).Yields Q ds) :
    (p.bind f).Yields Q ds := by
  induction p generalizing ds with
  | done a => exact h_f ds a h
  | cancel k ih | touch k ih | assign name value k ih => exact ih h
  | poll k ih | look k ih | call r k ih | sleep time k ih => exact fun x => ih x (h x)

theorem mono {P' : List Deed → α → Prop} (h : p.Yields P ds) (h_imp : ∀ ds a, P ds a → P' ds a) :
    p.Yields P' ds := by
  rw [← bind_done p]
  exact h.bind h_imp

theorem map {f : α → β} (h : p.Yields (fun ds a => Q ds (f a)) ds) : (p.map f).Yields Q ds :=
  h.bind fun _ _ h => h

/-- Deeds of before may be left out of account. -/
theorem behind (before : List Deed) (h : p.Yields (fun ds a => P (before ++ ds) a) ds) :
    p.Yields P (before ++ ds) := by
  induction p generalizing ds with
  | done a => exact h
  | touch k ih => exact ih h
  | cancel k ih | assign name value k ih =>
    rw [Yields, List.append_assoc]
    exact ih h
  | poll k ih | look k ih | sleep time k ih => exact fun x => ih x (h x)
  | call r k ih =>
    intro reply
    rw [List.append_assoc]
    exact ih reply (h reply)

end Yields

end Process

namespace Going

variable {α : Type} {P : List Deed → α → Prop} {g g' : Going α} {ds before : List Deed}

/-- What the process of a run that has done some deeds yields. -/
inductive Yields (P : List Deed → α → Prop) : List Deed → Going α → Prop where
  /-- The run does not wait for a reply. -/
  | moving (ds : List Deed) (p : Process α) (c : RunContext) (h : p.Yields P ds) : Yields P ds ⟨p, c, false⟩
  /-- It does. -/
  | calling (ds : List Deed) (r : Request) (k : r.Reply → Process α) (c : RunContext)
    (h : ∀ reply, (k reply).Yields P (ds ++ [.called r, .answered r reply])) :
    Yields P (ds ++ [.called r]) ⟨.call r k, c, true⟩

theorem Yields.step {d : Option Deed} (h : g.Yields P ds) (h_step : g.Step d g') :
    g'.Yields P (ds ++ Deed.own d.toList) := by
  have h_silent : ds ++ Deed.own (none : Option Deed).toList = ds := List.append_nil ds
  cases h_step with
  | poll k c =>
    obtain ⟨_, _, _, h⟩ := h
    rw [h_silent]
    exact .moving ds _ c (h c.cancelled)
  | look k c =>
    obtain ⟨_, _, _, h⟩ := h
    rw [h_silent]
    exact .moving ds _ c (h c.vars)
  | touch k c now =>
    obtain ⟨_, _, _, h⟩ := h
    rw [h_silent]
    exact .moving ds k _ h
  | wake time k c passed =>
    obtain ⟨_, _, _, h⟩ := h
    rw [h_silent]
    exact .moving ds _ c (h passed)
  | cancel k c | assign name value k c =>
    obtain ⟨_, _, _, h⟩ := h
    exact .moving _ k _ h
  | call r k c =>
    obtain ⟨_, _, _, h⟩ := h
    exact .calling ds r k c h
  | stopInSleep time k c =>
    obtain ⟨_, _, _, h⟩ := h
    rw [show ds ++ Deed.own (some Deed.stopped).toList = ds from List.append_nil ds]
    exact .moving ds _ _ h
  | stopInCall r k c =>
    -- the request stays without an answer
    obtain - | ⟨ds, _, _, _, h⟩ := h
    rw [show ds ++ [.called r] ++ Deed.own (some Deed.stopped).toList = ds ++ [.called r] from
      List.append_nil _]
    exact .calling ds r k _ h
  | answer r k c reply =>
    obtain - | ⟨ds, _, _, _, h⟩ := h
    rw [List.append_assoc]
    exact .moving _ _ c (h reply)

theorem Yields.stop (h : g.Yields P ds) : Yields P ds { g with context := g.context.cancel } := by
  cases h with
  | moving _ p c h => exact .moving ds p _ h
  | calling ds r k c h => exact .calling ds r k _ h

theorem Yields.journey (h : g.Yields P before) (h_journey : g.Journey ds g') :
    g'.Yields P (before ++ Deed.own ds) := by
  induction h_journey with
  | refl =>
    rw [show before ++ Deed.own [] = before from List.append_nil before]
    exact h
  | step _ h_step ih =>
    rw [Deed.own_append, ← List.append_assoc]
    exact ih.step h_step
  | stop _ ih =>
    rw [Deed.own_append, ← List.append_assoc, show Deed.own [.stopped] = [] from rfl, List.append_nil]
    exact ih.stop

/-- **A journey to an end** brings about what the process yields. -/
theorem Journey.yields {p : Process α} {a : α} {c c' : RunContext}
    (h_journey : Journey ⟨p, c, false⟩ ds ⟨.done a, c', false⟩) (h : p.Yields P []) : P (Deed.own ds) a := by
  have h_end : Yields P ([] ++ Deed.own ds) ⟨.done a, c', false⟩ := (Yields.moving [] p c h).journey h_journey
  rw [List.nil_append] at h_end
  generalize Deed.own ds = own at h_end ⊢
  obtain ⟨_, _, _, h_a⟩ := h_end
  exact h_a

end Going

end ScriptYard
