import ScriptYard.Proofs.Run.Course

/-!
# Cancellations of runs are heeded

A run is `Going.Sound` if it heeds its cancellation and, once it is cancelled, is not free to do what it
likes: it owes the bindings of a reply at most. Every step of a sound run leads to a sound run
(`Going.Sound.step`), also those in which it is cancelled. From there on the run is followed by what it
owes (`Going.Owes`): no step of it is a call, and what it sets is the next binding that it owes. A run that
is cancelled while it waits for a reply owes nothing until the reply comes, and then its bindings
(`Going.course_in_call`).

`Going.cancellation_is_heeded` says it of the actions of every script, together with what the report of the
run says: that it was cancelled if and only if it was.
-/

namespace ScriptYard

namespace Going

variable {α : Type} {sites : List CallSite} {g g' : Going α} {d : Option Deed} {ds : List Deed}
  {bs : List (String × Value)}

/-! ### Sound runs -/

/-- The run heeds its cancellation. -/
inductive Sound (sites : List CallSite) : Going α → Prop where
  /-- It does not wait for a reply, and is not free if it is cancelled. -/
  | moving (s : Standing) (p : Process α) (c : RunContext) (h : p.Heedful sites s)
    (h_owing : c.cancelled = true → ∃ bs, s = .owing bs) : Sound sites ⟨p, c, false⟩
  /-- It waits for the reply to a call of one of its call sites, and owes the bindings of it. -/
  | calling (site : CallSite) (r : Request) (k : r.Reply → Process α) (c : RunContext)
    (h_site : site ∈ sites) (h_makes : site.Makes r)
    (h : ∀ reply, (k reply).Heedful sites (.owing (r.bindings site.store reply))) :
    Sound sites ⟨.call r k, c, true⟩

/-- **One step.** A sound run stays sound, also when it is cancelled. -/
theorem Sound.step (h : g.Sound sites) (h_step : g.Step d g') : g'.Sound sites := by
  cases h_step with
  | poll k c =>
    obtain ⟨s, _, _, ⟨-, h_on, h_off⟩, -⟩ := h
    -- the run is free only if the look found no cancellation
    cases h_cancelled : c.cancelled with
    | true => exact .moving (.owing []) _ c h_on fun _ => ⟨[], rfl⟩
    | false => exact .moving .free _ c h_off fun h => by rw [h_cancelled] at h; cases h
  | cancel k c =>
    obtain ⟨s, _, _, ⟨-, h_k⟩, -⟩ := h
    exact .moving (.owing []) k _ h_k fun _ => ⟨[], rfl⟩
  | touch k c now =>
    obtain ⟨s, _, _, h_k, h_owing⟩ := h
    exact .moving s k _ h_k h_owing
  | look k c =>
    obtain ⟨s, _, _, h_k, h_owing⟩ := h
    exact .moving s _ c (h_k c.vars) h_owing
  | assign name value k c =>
    obtain ⟨s, _, _, h_k, h_owing⟩ := h
    cases s with
    | free => exact .moving .free k _ h_k h_owing
    | owing bs =>
      obtain ⟨rest, -, h_k⟩ := h_k
      exact .moving (.owing rest) k _ h_k fun _ => ⟨rest, rfl⟩
  | call r k c =>
    obtain ⟨s, _, _, h_call, -⟩ := h
    cases s with
    | free =>
      obtain ⟨site, h_site, h_makes, h_k⟩ := h_call
      exact .calling site r k c h_site h_makes h_k
    | owing bs => exact h_call.elim
  | stopInCall r k c =>
    obtain - | ⟨site, _, _, _, h_site, h_makes, h_k⟩ := h
    exact .calling site r k _ h_site h_makes h_k
  | answer r k c reply =>
    obtain - | ⟨site, _, _, _, -, -, h_k⟩ := h
    exact .moving _ _ c (h_k reply) fun _ => ⟨_, rfl⟩
  | stopInSleep time k c =>
    obtain ⟨s, _, _, ⟨h_clear, h_k⟩, -⟩ := h
    exact .moving (.owing []) _ _ ⟨rfl, h_k⟩ fun _ => ⟨[], rfl⟩
  | wake time k c passed =>
    obtain ⟨s, _, _, ⟨-, h_k⟩, -⟩ := h
    exact .moving (.owing []) _ c (h_k passed) fun _ => ⟨[], rfl⟩

theorem Sound.course (h : g.Sound sites) (h_course : g.Course ds g') : g'.Sound sites := by
  induction h_course with
  | refl => exact h
  | step _ h_step ih => exact ih.step h_step

/-- The run of a script is sound from its start. -/
theorem sound_runActions (actions : List Action) (c : RunContext) :
    Sound (Action.callSitesOf actions) ⟨runActions actions 0 .null, c, false⟩ :=
  .moving (.owing []) _ c (heedful_runActions actions 0 .null (fun _ h => h) rfl) fun _ => ⟨[], rfl⟩

/-! ### Cancelled runs -/

/-- The run is cancelled, and owes no more than these bindings. -/
structure Owes (sites : List CallSite) (g : Going α) (bs : List (String × Value)) : Prop where
  /-- It does not wait for a reply. -/
  moving : g.calling = false
  cancelled : g.context.cancelled = true
  /-- It makes the bindings and then heeds its cancellation. -/
  heedful : g.process.Heedful sites (.owing bs)

namespace Owes

/-- A step of a cancelled run begins no call, and sets nothing but the first binding that is owed. -/
theorem step (h : g.Owes sites bs) (h_step : g.Step d g') :
    (∀ r, .called r ∉ d.toList) ∧ ∃ bs', g'.Owes sites bs' ∧ bs = Deed.bindings d.toList ++ bs' := by
  obtain ⟨h_moving, h_cancelled, h⟩ := h
  cases h_step with
  -- the look finds the cancellation; nothing is owed behind it
  | poll k c =>
    obtain ⟨h_clear, h_on, -⟩ := h
    refine ⟨by simp, [], ⟨rfl, h_cancelled, ?_⟩, h_clear⟩
    show (k c.cancelled).Heedful sites (.owing [])
    rw [show c.cancelled = true from h_cancelled]
    exact h_on
  | cancel k c => exact ⟨by simp, [], ⟨rfl, rfl, h.2⟩, h.1⟩
  | touch k c now => exact ⟨by simp, bs, ⟨rfl, h_cancelled, h⟩, rfl⟩
  | look k c => exact ⟨by simp, bs, ⟨rfl, h_cancelled, h c.vars⟩, rfl⟩
  | assign name value k c =>
    obtain ⟨rest, h_bs, h_k⟩ := h
    exact ⟨by simp, rest, ⟨rfl, h_cancelled, h_k⟩, h_bs⟩
  -- whoever owes bindings makes no call
  | call r k c => exact h.elim
  | stopInCall | answer => cases h_moving
  | stopInSleep time k c => exact ⟨by simp, bs, ⟨rfl, rfl, h⟩, rfl⟩
  | wake time k c passed => exact ⟨by simp, [], ⟨rfl, h_cancelled, h.2 passed⟩, h.1⟩

/-- **A whole course of a cancelled run.** It begins no call, and sets the bindings that are owed, one
after the other. -/
theorem course (h : g.Owes sites bs) (h_course : g.Course ds g') :
    (∀ r, .called r ∉ ds) ∧ ∃ bs', g'.Owes sites bs' ∧ bs = Deed.bindings ds ++ bs' := by
  induction h_course with
  | refl => exact ⟨by simp, bs, h, rfl⟩
  | step h_course h_step ih =>
    obtain ⟨h_quiet, bs', h_owes, h_bs⟩ := ih
    obtain ⟨h_quiet', bs'', h_owes', h_bs'⟩ := h_owes.step h_step
    refine ⟨fun r h_r => ?_, bs'', h_owes', ?_⟩
    · exact (List.mem_append.mp h_r).elim (h_quiet r) (h_quiet' r)
    · rw [h_bs, h_bs', Deed.bindings, Deed.bindings, Deed.bindings, List.filterMap_append, List.append_assoc]

/-- At the end of a run nothing is owed any more. -/
theorem eq_nil_of_done {a : α} {c : RunContext} (h : Owes sites ⟨.done a, c, false⟩ bs) : bs = [] := h.heedful

end Owes

/-- The course of a run that is cancelled while it waits for the reply to a call. Until the reply comes
nothing is set; then its bindings are owed. -/
theorem course_in_call {site : CallSite} {r : Request} {k : r.Reply → Process α} {c : RunContext}
    (h_k : ∀ reply, (k reply).Heedful sites (.owing (r.bindings site.store reply)))
    (h_cancelled : c.cancelled = true) (h_course : Course ⟨.call r k, c, true⟩ ds g') :
    (∀ r, .called r ∉ ds) ∧
      ((Deed.bindings ds = [] ∧ ∃ c', g' = ⟨.call r k, c', true⟩ ∧ c'.cancelled = true) ∨
        ∃ reply bs, .answered r reply ∈ ds ∧ g'.Owes sites bs ∧
          r.bindings site.store reply = Deed.bindings ds ++ bs) := by
  generalize h_g : (⟨.call r k, c, true⟩ : Going α) = g at h_course
  induction h_course with
  | refl =>
    subst h_g
    exact ⟨by simp, .inl ⟨rfl, c, rfl, h_cancelled⟩⟩
  | step h_course h_step ih =>
    obtain ⟨h_quiet, ⟨h_none, c', rfl, h_c'⟩ | ⟨reply, bs, h_reply, h_owes, h_bs⟩⟩ := ih
    · -- the run still waits
      cases h_step with
      | stopInCall =>
        refine ⟨fun r h_r => ?_, .inl ⟨?_, c'.cancel, rfl, rfl⟩⟩
        · exact (List.mem_append.mp h_r).elim (h_quiet r) (by simp)
        · rw [Deed.bindings, List.filterMap_append, ← Deed.bindings, h_none]
          rfl
      | answer _ _ _ reply =>
        refine ⟨fun r h_r => ?_, .inr ⟨reply, _, ?_, ⟨rfl, h_c', h_k reply⟩, ?_⟩⟩
        · exact (List.mem_append.mp h_r).elim (h_quiet r) (by simp)
        · exact List.mem_append_right _ (List.mem_singleton_self _)
        · rw [Deed.bindings, List.filterMap_append, ← Deed.bindings, h_none]
          rfl
    · -- the reply has come, and what is set are its bindings
      obtain ⟨h_quiet', bs', h_owes', h_bs'⟩ := h_owes.step h_step
      refine ⟨fun r h_r => ?_, .inr ⟨reply, bs', List.mem_append_left _ h_reply, h_owes', ?_⟩⟩
      · exact (List.mem_append.mp h_r).elim (h_quiet r) (h_quiet' r)
      · rw [h_bs, h_bs', Deed.bindings, Deed.bindings, Deed.bindings, List.filterMap_append,
          List.append_assoc]

/-! ### Reports -/

/-- What the last look of a run found is still so. -/
def Telling (g : Going RunEnd) : Prop :=
  ∃ known, g.process.Tells known ∧ ∀ b, known = some b → g.context.cancelled = b

theorem Telling.step {g g' : Going RunEnd} (h : g.Telling) (h_step : g.Step d g') : g'.Telling := by
  obtain ⟨known, h_tells, h_known⟩ := h
  cases h_step with
  -- a look tells what is known from now on, and only a deed from outside makes it unknown
  | poll k c =>
    refine ⟨some c.cancelled, ?_, fun b h_b => Option.some.inj h_b⟩
    show (k c.cancelled).Tells _
    cases c.cancelled with
    | true => exact h_tells.1
    | false => exact h_tells.2
  | cancel k c => exact ⟨none, h_tells, fun b h_b => by cases h_b⟩
  | touch k c now => exact ⟨known, h_tells, h_known⟩
  | look k c => exact ⟨known, h_tells c.vars, h_known⟩
  | assign name value k c => exact ⟨known, h_tells, h_known⟩
  | call r k c | stopInCall r k c | stopInSleep time k c => exact ⟨none, h_tells, fun b h_b => by cases h_b⟩
  | answer r k c reply => exact ⟨none, h_tells reply, fun b h_b => by cases h_b⟩
  | wake time k c passed => exact ⟨none, h_tells passed, fun b h_b => by cases h_b⟩

theorem Telling.course {g g' : Going RunEnd} (h : g.Telling) (h_course : g.Course ds g') : g'.Telling := by
  induction h_course with
  | refl => exact h
  | step _ h_step ih => exact ih.step h_step

/-- A run that tells its cancellation ends as cancelled if and only if it is. -/
theorem Telling.done {e : RunEnd} {c : RunContext} (h : Telling ⟨.done e, c, false⟩) :
    e.state = .cancelled ↔ c.cancelled = true := by
  obtain ⟨known, ⟨b, rfl, h_state⟩, h_known⟩ := h
  rw [h_state, show c.cancelled = b from h_known b rfl]

/-! ### The whole -/

/-- **Cancellations are heeded at every depth.** For every list of actions that is not empty, everything
that a run of it may start with, and every course of the run, whatever calls come back with and whenever
the run is cancelled by itself, in a call or in a sleep:

* the report of the run says that it was cancelled if and only if it is cancelled when it ends, which it is
  if it was at the start or if any deed cancelled it;
* after a deed that cancels it no call begins, and no variable is set, unless a call was waited for: then
  only bindings of the reply to that call are set, all of them if the run ends;
* a run that is cancelled at the start makes no call and sets no variable. -/
theorem cancellation_is_heeded (actions : List Action) (nonempty : actions ≠ []) (c : RunContext) :
    let start : Going RunEnd := ⟨runActions actions 0 .null, c, false⟩
    (∀ ds e c', start.Course ds ⟨.done e, c', false⟩ →
      (∀ (i : RunInfo) begun finished,
        (i.report c' e begun finished).state = .cancelled ↔ c'.cancelled = true) ∧
      (c'.cancelled = true ↔ c.cancelled = true ∨ ∃ d ∈ ds, d.Cancels)) ∧
    (∀ ds g d g' ds' g'', start.Course ds g → g.Step (some d) g' → d.Cancels → g'.Course ds' g'' →
      (∀ r, .called r ∉ ds') ∧
      g''.context.vars = g.context.vars.assignAll (Deed.bindings ds') ∧
      (g.calling = false → Deed.bindings ds' = []) ∧
      (g.calling = true → ∃ r k, g.process = .call r k ∧
        ∃ site ∈ Action.callSitesOf actions, site.Makes r ∧
          (Deed.bindings ds' = [] ∨
            ∃ reply, .answered r reply ∈ ds' ∧ Deed.bindings ds' <+: r.bindings site.store reply) ∧
          ∀ e c', g'' = ⟨.done e, c', false⟩ →
            ∃ reply, .answered r reply ∈ ds' ∧ Deed.bindings ds' = r.bindings site.store reply)) ∧
    (c.cancelled = true → ∀ ds g, start.Course ds g →
      (∀ r, .called r ∉ ds) ∧ g.context.vars = c.vars) := by
  intro start
  have h_sound := sound_runActions actions c
  refine ⟨fun ds e c' h_course => ⟨fun i begun finished => ?_, h_course.cancelled_iff⟩, ?_, ?_⟩
  · have h_start : start.Telling :=
      ⟨none, tells_runActions actions 0 .null none (.inl nonempty), fun b h_b => by cases h_b⟩
    exact (h_start.course h_course).done
  · intro ds g d g' ds' g'' h_before h_step h_cancels h_after
    have h_g := h_sound.course h_before
    have h_vars := h_after.vars_eq
    cases h_step with
    | assign | call | answer => exact h_cancels.elim
    -- no call was waited for, so nothing is owed
    | cancel k c₁ =>
      obtain ⟨s, _, _, ⟨-, h_k⟩, -⟩ := h_g
      have h_owes : Owes (Action.callSitesOf actions) ⟨k, c₁.cancel, false⟩ [] := ⟨rfl, rfl, h_k⟩
      obtain ⟨h_quiet, bs, -, h_bs⟩ := h_owes.course h_after
      exact ⟨h_quiet, h_vars, fun _ => (List.append_eq_nil_iff.mp h_bs.symm).1, fun h => by cases h⟩
    | stopInSleep time k c₁ =>
      obtain ⟨s, _, _, ⟨-, h_k⟩, -⟩ := h_g
      have h_owes : Owes (Action.callSitesOf actions) ⟨.sleep time k, c₁.cancel, false⟩ [] :=
        ⟨rfl, rfl, rfl, h_k⟩
      obtain ⟨h_quiet, bs, -, h_bs⟩ := h_owes.course h_after
      exact ⟨h_quiet, h_vars, fun _ => (List.append_eq_nil_iff.mp h_bs.symm).1, fun h => by cases h⟩
    -- the reply to the call may still be stored, as its site says
    | stopInCall r k c₁ =>
      obtain - | ⟨site, _, _, _, h_site, h_makes, h_k⟩ := h_g
      obtain ⟨h_quiet, h_cases⟩ := course_in_call h_k (show c₁.cancel.cancelled = true from rfl) h_after
      refine ⟨h_quiet, h_vars, fun h => (by cases h), fun _ => ⟨r, k, rfl, site, h_site, h_makes, ?_, ?_⟩⟩
      · rcases h_cases with ⟨h_none, -⟩ | ⟨reply, bs, h_reply, -, h_bs⟩
        · exact .inl h_none
        · exact .inr ⟨reply, h_reply, bs, h_bs.symm⟩
      · rintro e c' rfl
        rcases h_cases with ⟨-, c'', h_eq, -⟩ | ⟨reply, bs, h_reply, h_owes, h_bs⟩
        · cases h_eq
        · rw [h_owes.eq_nil_of_done, List.append_nil] at h_bs
          exact ⟨reply, h_reply, h_bs.symm⟩
  · intro h_cancelled ds g h_course
    have h_owes : Owes (Action.callSitesOf actions) start [] :=
      ⟨rfl, h_cancelled, heedful_runActions actions 0 .null (fun _ h => h) rfl⟩
    obtain ⟨h_quiet, bs, -, h_bs⟩ := h_owes.course h_course
    refine ⟨h_quiet, ?_⟩
    rw [h_course.vars_eq, (List.append_eq_nil_iff.mp h_bs.symm).1]
    rfl

/-- A call whose result is stored, and an assignment behind it. -/
def callThenAssign : List Action :=
  [.call ⟨"device", "tap", [], some "tapped"⟩ none, .setVariable "later" (.bool true) none]

/-- A world in which every run is cancelled during its calls, and calls that succeed say so. -/
def interruptingWorld : World Unit where
  call _ now r := (⟨now, true, match r with
    | .invoke .. => .ok (.bool true)
    | .matchTemplate .. => .error (.actionFailed "")
    | .readText .. => .ok ""⟩, ())
  sleep _ now _ := (⟨now, true⟩, ())

/-- The run is reported as cancelled, though its call succeeded; the result of the call is bound, and the
assignment is not made. -/
theorem interrupted_call_is_reported :
    callThenAssign ≠ [] ∧ ∃ ds e c',
      Course ⟨runActions callThenAssign 0 .null, {}, false⟩ ds ⟨.done e, c', false⟩ ∧
        c'.vars = [("tapped", .bool true)] ∧
        ∀ i begun finished, (RunInfo.report i c' e begun finished).state = .cancelled := by
  have h_nonempty : callThenAssign ≠ [] := by simp [callThenAssign]
  obtain ⟨ds, h⟩ := course_play interruptingWorld (runActions callThenAssign 0 .null) ⟨0, {}, ()⟩
  refine ⟨h_nonempty, ds, _, _, h, rfl, fun i begun finished => ?_⟩
  exact (((cancellation_is_heeded callThenAssign h_nonempty {}).1 ds _ _ h).1 i begun finished).mpr rfl

end Going

end ScriptYard
