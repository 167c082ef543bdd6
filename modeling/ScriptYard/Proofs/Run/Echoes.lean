import ScriptYard.Proofs.Run.Endings

/-!
# Processes that echo each other

Two processes echo each other (`Process.Echoes`) if they make the same calls, sleep for the same times, and set
and look at the same variables in the same order, so that only looks at the cancellation and notes of progress
that one of them has and the other one has not tell them apart. A look that only one of them makes must not
matter: where it finds the run cancelled, this process is at its end, and the other one comes to a related end by
looks alone (`Process.Stops`).

How much that asks for depends on what may happen between two looks. If nothing can (`prompt`), a second look
finds what the first one found, and so it is with a run in a world (`Process.Echoes.play`): the same calls are
made at the same times, and what the run keeps is the same but for its last progress (`Stage.Alike`). If the run
may be cancelled at every moment, every journey of one of the processes to an end has a journey of the other one
beside it with the same deeds (`Process.Echoes.journey`).
-/

namespace ScriptYard

namespace Process

variable {α β γ : Type}

/-- A process that finds the run cancelled whenever it looks does nothing but look and note progress, and its
result is this. -/
inductive Stops : Process α → α → Prop where
  /-- It is at its end. -/
  | done (a : α) : Stops (.done a) a
  /-- It looks. -/
  | poll {k : Bool → Process α} {a : α} (h : Stops (k true) a) : Stops (.poll k) a
  /-- It notes progress. -/
  | touch {k : Process α} {a : α} (h : Stops k a) : Stops (.touch k) a
  /-- It sleeps, which may end at once. -/
  | sleep (time : Span) {k : Bool → Process α} {a : α} (h : ∀ passed, Stops (k passed) a) : Stops (.sleep time k) a

namespace Stops

theorem eq_of_done {a b : α} (h : Stops (.done a) b) : a = b := by
  cases h
  rfl

theorem map {p : Process α} {a : α} (h : p.Stops a) (f : α → β) : (p.map f).Stops (f a) := by
  induction h with
  | done a => exact .done (f a)
  | poll _ ih => exact .poll ih
  | touch _ ih => exact .touch ih
  | sleep time _ ih => exact .sleep time ih

/-- A pause stops if what follows does, however the pause ends. -/
theorem pause_bind (time : Span) {f : Bool → Process α} {a : α} (h : ∀ passed, (f passed).Stops a) :
    ((pause time).bind f).Stops a := by
  unfold pause
  split
  · exact .poll (h false)
  · exact .sleep time h

end Stops

/-- Two processes do the same, but for looks at the cancellation and notes of progress, and end with related
results. `clear` tells whether it is known that the run is not cancelled; a look that finds so makes it known if
nothing happens between two looks (`prompt`). -/
inductive Echoes (prompt : Bool) (R : α → β → Prop) : (clear : Bool) → Process α → Process β → Prop where
  /-- Both are at their ends. -/
  | done {clear : Bool} {a : α} {b : β} (h : R a b) : Echoes prompt R clear (.done a) (.done b)
  /-- Both look at the cancellation. -/
  | poll {clear : Bool} {k : Bool → Process α} {k' : Bool → Process β}
    (h_on : clear = false → Echoes prompt R false (k true) (k' true))
    (h_off : Echoes prompt R prompt (k false) (k' false)) : Echoes prompt R clear (.poll k) (.poll k')
  /-- Only the first one does. -/
  | pollLeft {clear : Bool} {k : Bool → Process α} {q : Process β}
    (h_on : clear = false → ∃ a b, k true = .done a ∧ q.Stops b ∧ R a b)
    (h_off : Echoes prompt R prompt (k false) q) : Echoes prompt R clear (.poll k) q
  /-- Only the second one does. -/
  | pollRight {clear : Bool} {p : Process α} {k : Bool → Process β}
    (h_on : clear = false → ∃ a b, p.Stops a ∧ k true = .done b ∧ R a b)
    (h_off : Echoes prompt R prompt p (k false)) : Echoes prompt R clear p (.poll k)
  /-- Only the first one notes progress. -/
  | touchLeft {clear : Bool} {p : Process α} {q : Process β} (h : Echoes prompt R clear p q) :
    Echoes prompt R clear (.touch p) q
  /-- Only the second one does. -/
  | touchRight {clear : Bool} {p : Process α} {q : Process β} (h : Echoes prompt R clear p q) :
    Echoes prompt R clear p (.touch q)
  /-- Both cancel the run. -/
  | cancel {clear : Bool} {p : Process α} {q : Process β} (h : Echoes prompt R false p q) :
    Echoes prompt R clear (.cancel p) (.cancel q)
  /-- Both look at the variables. -/
  | look {clear : Bool} {k : Variables → Process α} {k' : Variables → Process β}
    (h : ∀ vars, Echoes prompt R clear (k vars) (k' vars)) : Echoes prompt R clear (.look k) (.look k')
  /-- Both set a variable. -/
  | assign (name : String) (value : Value) {clear : Bool} {p : Process α} {q : Process β}
    (h : Echoes prompt R clear p q) : Echoes prompt R clear (.assign name value p) (.assign name value q)
  /-- Both make a call. -/
  | call (r : Request) {clear : Bool} {k : r.Reply → Process α} {k' : r.Reply → Process β}
    (h : ∀ reply, Echoes prompt R false (k reply) (k' reply)) : Echoes prompt R clear (.call r k) (.call r k')
  /-- Both sleep. -/
  | sleep (time : Span) {clear : Bool} {k : Bool → Process α} {k' : Bool → Process β}
    (h : ∀ passed, Echoes prompt R false (k passed) (k' passed)) :
    Echoes prompt R clear (.sleep time k) (.sleep time k')

namespace Echoes

variable {prompt clear : Bool} {R : α → β → Prop} {p : Process α} {q : Process β}

theorem symm (h : Echoes prompt R clear p q) : Echoes prompt (fun b a => R a b) clear q p := by
  induction h with
  | done h => exact .done h
  | poll _ _ ih_on ih_off => exact .poll ih_on ih_off
  -- what the one does beside the other, the other does beside the one
  | pollLeft h_on _ ih =>
    refine .pollRight (fun h => ?_) ih
    obtain ⟨a, b, h_k, h_q, h_R⟩ := h_on h
    exact ⟨b, a, h_q, h_k, h_R⟩
  | pollRight h_on _ ih =>
    refine .pollLeft (fun h => ?_) ih
    obtain ⟨a, b, h_p, h_k, h_R⟩ := h_on h
    exact ⟨b, a, h_k, h_p, h_R⟩
  | touchLeft _ ih => exact .touchRight ih
  | touchRight _ ih => exact .touchLeft ih
  | cancel _ ih => exact .cancel ih
  | look _ ih => exact .look ih
  | assign name value _ ih => exact .assign name value ih
  | call r _ ih => exact .call r ih
  | sleep time _ ih => exact .sleep time ih

/-- What holds whether or not the run is cancelled holds if it is not. -/
theorem weaken (h : Echoes prompt R false p q) (clear : Bool) : Echoes prompt R clear p q := by
  -- the induction needs the index to be a variable
  generalize h_known : false = known at h
  induction h with
  | done h => exact .done h
  | poll h_on h_off => exact .poll (fun _ => h_on h_known.symm) h_off
  | pollLeft h_on h_off => exact .pollLeft (fun _ => h_on h_known.symm) h_off
  | pollRight h_on h_off => exact .pollRight (fun _ => h_on h_known.symm) h_off
  | touchLeft _ ih => exact .touchLeft (ih h_known)
  | touchRight _ ih => exact .touchRight (ih h_known)
  | cancel h => exact .cancel h
  | look _ ih => exact .look fun vars => ih vars h_known
  | assign name value _ ih => exact .assign name value (ih h_known)
  | call r h => exact .call r h
  | sleep time h => exact .sleep time h

/-- Behind one and the same process, processes that echo each other. -/
theorem bind_same (p : Process γ) {f : γ → Process α} {g : γ → Process β}
    (h : ∀ c, Echoes prompt R false (f c) (g c)) : Echoes prompt R clear (p.bind f) (p.bind g) := by
  -- the common part has all its looks in pairs
  induction p generalizing clear with
  | done c => exact (h c).weaken clear
  | poll k ih => exact .poll (fun _ => ih true) (ih false)
  | cancel k ih => exact .cancel ih
  | touch k ih => exact .touchLeft (.touchRight ih)
  | look k ih => exact .look fun vars => ih vars
  | assign name value k ih => exact .assign name value ih
  | call r k ih => exact .call r fun reply => ih reply
  | sleep time k ih => exact .sleep time fun passed => ih passed

/-- The second process with another result. -/
theorem map_right {S : α → γ → Prop} {f : β → γ} (h : Echoes prompt R clear p q)
    (h_S : ∀ a b, R a b → S a (f b)) : Echoes prompt S clear p (q.map f) := by
  induction h with
  | done h => exact .done (h_S _ _ h)
  | poll _ _ ih_on ih_off => exact .poll ih_on ih_off
  | pollLeft h_on _ ih =>
    refine .pollLeft (fun h => ?_) ih
    obtain ⟨a, b, h_k, h_q, h_R⟩ := h_on h
    exact ⟨a, f b, h_k, h_q.map f, h_S a b h_R⟩
  -- a look of the second process that ends it ends it with the other result
  | pollRight h_on _ ih =>
    refine .pollRight (fun h => ?_) ih
    obtain ⟨a, b, h_p, h_k, h_R⟩ := h_on h
    exact ⟨a, f b, h_p, congrArg (Process.map f) h_k, h_S a b h_R⟩
  | touchLeft _ ih => exact .touchLeft ih
  | touchRight _ ih => exact .touchRight ih
  | cancel _ ih => exact .cancel ih
  | look _ ih => exact .look ih
  | assign name value _ ih => exact .assign name value ih
  | call r _ ih => exact .call r ih
  | sleep time _ ih => exact .sleep time ih

end Echoes

end Process

/-! ### In a world -/

/-- Two runs keep the same, but for their last progress. -/
structure RunContext.Alike (c d : RunContext) : Prop where
  /-- The variables. -/
  vars : d.vars = c.vars
  /-- Whether the run is cancelled. -/
  cancelled : d.cancelled = c.cancelled

namespace RunContext.Alike

variable {c d e : RunContext}

theorem refl (c : RunContext) : c.Alike c := ⟨rfl, rfl⟩

theorem symm (h : c.Alike d) : d.Alike c := ⟨h.vars.symm, h.cancelled.symm⟩

theorem trans (h : c.Alike d) (h' : d.Alike e) : c.Alike e :=
  ⟨h'.vars.trans h.vars, h'.cancelled.trans h.cancelled⟩

theorem cancel (h : c.Alike d) : c.cancel.Alike d.cancel := ⟨h.vars, rfl⟩

theorem touch (c : RunContext) (now : Moment) : c.Alike { c with lastActivity := now } := ⟨rfl, rfl⟩

theorem assign (h : c.Alike d) (name : String) (value : Value) :
    RunContext.Alike { c with vars := Fields.insert c.vars name value }
      { d with vars := Fields.insert d.vars name value } :=
  ⟨congrArg (Fields.insert · name value) h.vars, h.cancelled⟩

end RunContext.Alike

/-- Two stages are the same but for the last progress of the run. -/
structure Stage.Alike {σ : Type} (s t : Stage σ) : Prop where
  /-- The clock. -/
  now : t.now = s.now
  /-- What the run keeps. -/
  context : s.context.Alike t.context
  /-- The world, with all that has happened in it. -/
  world : t.world = s.world

namespace Stage.Alike

variable {σ : Type} {s t u : Stage σ}

theorem refl (s : Stage σ) : s.Alike s := ⟨rfl, .refl s.context, rfl⟩

theorem symm (h : s.Alike t) : t.Alike s := ⟨h.now.symm, h.context.symm, h.world.symm⟩

theorem trans (h : s.Alike t) (h' : t.Alike u) : s.Alike u :=
  ⟨h'.now.trans h.now, h.context.trans h'.context, h'.world.trans h.world⟩

theorem touch (s : Stage σ) : s.Alike (s.update fun c => { c with lastActivity := s.now }) :=
  ⟨rfl, .touch s.context s.now, rfl⟩

theorem advance (h : s.Alike t) (moment : Moment) (cancelled : Bool) (world : σ) :
    (s.advance moment cancelled world).Alike (t.advance moment cancelled world) := by
  cases cancelled with
  | true => exact ⟨rfl, h.context.cancel, rfl⟩
  | false => exact ⟨rfl, h.context, rfl⟩

end Stage.Alike

namespace Process

variable {α β σ : Type} {s t : Stage σ}

theorem eq_false_of_cancelled {clear : Bool} (h_clear : clear = true → s.context.cancelled = false)
    (h_s : s.context.cancelled = true) : clear = false := by
  cases clear with
  | true => exact absurd ((h_clear rfl).symm.trans h_s) Bool.false_ne_true
  | false => rfl

/-- A cancelled run that stops changes nothing. -/
theorem Stops.play {p : Process α} {a : α} (h : p.Stops a) (w : World σ) (h_s : s.context.cancelled = true) :
    ∃ s', p.play w s = (a, s') ∧ s.Alike s' := by
  induction h generalizing s with
  | done a => exact ⟨s, rfl, .refl s⟩
  | poll _ ih =>
    rw [Process.play, h_s]
    exact ih h_s
  | touch _ ih =>
    obtain ⟨s', h_play, h_alike⟩ := ih (s := s.update fun c => { c with lastActivity := s.now }) h_s
    exact ⟨s', h_play, (Stage.Alike.touch s).trans h_alike⟩
  | sleep time _ ih =>
    rw [Process.play, if_pos h_s]
    exact ih false h_s

/-- **Processes that echo each other** do the same in a world. -/
theorem Echoes.play {R : α → β → Prop} {clear : Bool} {p : Process α} {q : Process β} (h : Echoes true R clear p q)
    (w : World σ) (h_alike : s.Alike t) (h_clear : clear = true → s.context.cancelled = false) :
    R (p.play w s).1 (q.play w t).1 ∧ (p.play w s).2.Alike (q.play w t).2 := by
  induction h generalizing s t with
  | done h => exact ⟨h, h_alike⟩
  | poll _ _ ih_on ih_off =>
    simp only [Process.play, h_alike.context.cancelled]
    cases h_s : s.context.cancelled with
    | true => exact ih_on (eq_false_of_cancelled h_clear h_s) h_alike fun h => absurd h Bool.false_ne_true
    | false => exact ih_off h_alike fun _ => h_s
  | @pollLeft _ k q h_on _ ih =>
    rw [show (Process.poll k).play w s = (k s.context.cancelled).play w s from rfl]
    cases h_s : s.context.cancelled with
    | true =>
      -- the first process is at its end, and the second one comes to its own without doing anything
      obtain ⟨a, b, h_k, h_q, h_R⟩ := h_on (eq_false_of_cancelled h_clear h_s)
      obtain ⟨t', h_play, h_t'⟩ := h_q.play w (h_alike.context.cancelled.trans h_s)
      rw [h_k, h_play]
      exact ⟨h_R, h_alike.trans h_t'⟩
    | false => exact ih h_alike fun _ => h_s
  | @pollRight _ p k h_on _ ih =>
    rw [show (Process.poll k).play w t = (k t.context.cancelled).play w t from rfl, h_alike.context.cancelled]
    cases h_s : s.context.cancelled with
    | true =>
      obtain ⟨a, b, h_p, h_k, h_R⟩ := h_on (eq_false_of_cancelled h_clear h_s)
      obtain ⟨s', h_play, h_s'⟩ := h_p.play w h_s
      rw [h_k, h_play]
      exact ⟨h_R, h_s'.symm.trans h_alike⟩
    | false => exact ih h_alike fun _ => h_s
  | touchLeft _ ih => exact ih ((Stage.Alike.touch s).symm.trans h_alike) h_clear
  | touchRight _ ih => exact ih (h_alike.trans (.touch t)) h_clear
  | cancel _ ih =>
    exact ih ⟨h_alike.now, h_alike.context.cancel, h_alike.world⟩ fun h => absurd h Bool.false_ne_true
  | look _ ih =>
    rw [Process.play, Process.play, h_alike.context.vars]
    exact ih s.context.vars h_alike h_clear
  | assign name value _ ih =>
    exact ih ⟨h_alike.now, h_alike.context.assign name value, h_alike.world⟩ h_clear
  | call r _ ih =>
    rw [Process.play, Process.play, h_alike.world, h_alike.now]
    exact ih _ (h_alike.advance _ _ _) fun h => absurd h Bool.false_ne_true
  | sleep time _ ih =>
    rw [Process.play, Process.play, h_alike.context.cancelled, h_alike.world, h_alike.now]
    split
    · exact ih false h_alike fun h => absurd h Bool.false_ne_true
    · exact ih _ (h_alike.advance _ _ _) fun h => absurd h Bool.false_ne_true

end Process

/-! ### With cancellations at every moment -/

namespace Going

variable {α β : Type}

theorem Journey.trans {g g' g'' : Going α} {ds ds' : List Deed} (h : g.Journey ds g') (h' : g'.Journey ds' g'') :
    g.Journey (ds ++ ds') g'' := by
  induction h' with
  | refl =>
    rw [List.append_nil]
    exact h
  | step _ h_step ih =>
    rw [← List.append_assoc]
    exact ih.step h_step
  | stop _ ih =>
    rw [← List.append_assoc]
    exact ih.stop

/-- A step that is no deed, and then a journey. -/
theorem Journey.silent {g g' g'' : Going α} {ds : List Deed} (h_step : Step g none g') (h : g'.Journey ds g'') :
    g.Journey ds g'' := ((Journey.refl g).step h_step).trans h

theorem Step.poll_eq (k : Bool → Process α) {c : RunContext} {cancelled : Bool} (h : c.cancelled = cancelled) :
    Step ⟨.poll k, c, false⟩ none ⟨k cancelled, c, false⟩ := by
  subst h
  exact .poll k c

/-- A cancelled run that stops can come to its end without a deed. -/
theorem exists_journey_of_stops {p : Process α} {a : α} {c : RunContext} (h : p.Stops a) (h_c : c.cancelled = true) :
    ∃ c', Journey ⟨p, c, false⟩ [] ⟨.done a, c', false⟩ ∧ c.Alike c' := by
  induction h generalizing c with
  | done a => exact ⟨c, .refl _, .refl c⟩
  | @poll k a _ ih =>
    obtain ⟨c', h_journey, h_alike⟩ := ih h_c
    exact ⟨c', h_journey.silent (.poll_eq k h_c), h_alike⟩
  | touch _ ih =>
    obtain ⟨c', h_journey, h_alike⟩ := ih (c := { c with lastActivity := c.lastActivity }) h_c
    exact ⟨c', h_journey.silent (.touch _ c c.lastActivity), h_alike⟩
  | sleep time _ ih =>
    obtain ⟨c', h_journey, h_alike⟩ := ih false h_c
    exact ⟨c', h_journey.silent (.wake time _ c false fun _ => h_c), h_alike⟩

/-- A run that stops is cancelled, and goes on to stop; the only deeds are cancellations from outside. -/
theorem stops_of_step {p : Process α} {a : α} {c : RunContext} (h : p.Stops a) {g : Going α} {deed : Option Deed}
    (h_step : Step ⟨p, c, false⟩ deed g) (h_c : c.cancelled = true) :
    ∃ p' c', g = ⟨p', c', false⟩ ∧ p'.Stops a ∧ c'.cancelled = true ∧
      (deed = none ∧ c.Alike c' ∨ deed = some .stopped ∧ c.cancel.Alike c') := by
  cases h with
  | done a => cases h_step
  | poll h =>
    cases h_step with
    | poll k c => exact ⟨_, c, rfl, h_c ▸ h, h_c, .inl ⟨rfl, .refl c⟩⟩
  | touch h =>
    cases h_step with
    | touch k c now => exact ⟨_, { c with lastActivity := now }, rfl, h, h_c, .inl ⟨rfl, .touch c now⟩⟩
  | sleep time h =>
    cases h_step with
    | stopInSleep time k c => exact ⟨_, _, rfl, .sleep time h, rfl, .inr ⟨rfl, .refl c.cancel⟩⟩
    | wake time k c passed => exact ⟨_, c, rfl, h passed, h_c, .inl ⟨rfl, .refl c⟩⟩

/-- A run beside another one that it echoes. -/
inductive Beside (R : α → β → Prop) : Going α → Going β → Prop where
  /-- Neither waits for a reply. -/
  | moving {p : Process α} {q : Process β} {c d : RunContext} (h : p.Echoes false R false q) (h_alike : c.Alike d) :
    Beside R ⟨p, c, false⟩ ⟨q, d, false⟩
  /-- Both wait for the reply to a call. -/
  | calling (r : Request) {k : r.Reply → Process α} {k' : r.Reply → Process β} {c d : RunContext}
    (h : ∀ reply, (k reply).Echoes false R false (k' reply)) (h_alike : c.Alike d) :
    Beside R ⟨.call r k, c, true⟩ ⟨.call r k', d, true⟩
  /-- The second one has found the run cancelled and is at its end; the first one comes to its own end. -/
  | stopping {p : Process α} {a : α} {b : β} {c d : RunContext} (h : p.Stops a) (h_R : R a b)
    (h_c : c.cancelled = true) (h_alike : c.Alike d) : Beside R ⟨p, c, false⟩ ⟨.done b, d, false⟩

variable {R : α → β → Prop} {c d : RunContext}

theorem Beside.stop {g : Going α} {g' : Going β} (h : Beside R g g') :
    Beside R { g with context := g.context.cancel } { g' with context := g'.context.cancel } := by
  cases h with
  | moving h h_alike => exact .moving h h_alike.cancel
  | calling r h h_alike => exact .calling r h h_alike.cancel
  | stopping h h_R _ h_alike => exact .stopping h h_R rfl h_alike.cancel

/-- A step of a run that stops. -/
theorem Beside.step_of_stops {p : Process α} {a : α} {b : β} (h : p.Stops a) (h_R : R a b) (h_c : c.cancelled = true)
    (h_alike : c.Alike d) {g : Going α} {deed : Option Deed} (h_step : Step ⟨p, c, false⟩ deed g) :
    ∃ g', Journey ⟨.done b, d, false⟩ deed.toList g' ∧ Beside R g g' := by
  obtain ⟨p', c', rfl, h', h_c', ⟨rfl, h_same⟩ | ⟨rfl, h_same⟩⟩ := stops_of_step h h_step h_c
  · exact ⟨_, .refl _, .stopping h' h_R h_c' (h_same.symm.trans h_alike)⟩
  · exact ⟨_, (Journey.refl _).stop, .stopping h' h_R h_c' (h_same.symm.trans h_alike.cancel)⟩

/-- A step of a run that does not wait for a reply. The run beside it first makes the looks and the notes of
progress that it has for itself. -/
theorem Beside.step_of_echoes {clear : Bool} {p : Process α} {q : Process β} (h : p.Echoes false R clear q)
    (h_known : clear = false) (h_alike : c.Alike d) {g : Going α} {deed : Option Deed}
    (h_step : Step ⟨p, c, false⟩ deed g) :
    ∃ g', Journey ⟨q, d, false⟩ deed.toList g' ∧ Beside R g g' := by
  -- the induction is on the relation, so that the looks and notes of the second run alone come to an end
  induction h generalizing d with
  | done h => cases h_step
  | @poll _ k k' h_on h_off =>
    cases h_step with
    | poll k c =>
      refine ⟨_, (Journey.refl _).step (.poll k' d), ?_⟩
      rw [h_alike.cancelled]
      cases c.cancelled with
      | true => exact .moving (h_on h_known) h_alike
      | false => exact .moving h_off h_alike
  | @pollLeft _ k q h_on h_off =>
    cases h_step with
    | poll k c =>
      cases h_c : c.cancelled with
      | true =>
        -- the second run stops at once
        obtain ⟨a, b, h_k, h_q, h_R⟩ := h_on h_known
        obtain ⟨d', h_journey, h_d'⟩ := exists_journey_of_stops h_q (h_alike.cancelled.trans h_c)
        exact ⟨_, h_journey, .stopping (h_k ▸ .done a) h_R h_c (h_alike.trans h_d')⟩
      | false => exact ⟨_, .refl _, .moving h_off h_alike⟩
  | @pollRight _ p k h_on h_off ih =>
    cases h_c : c.cancelled with
    | true =>
      -- the second run is at its end before the first one has found anything
      obtain ⟨a, b, h_p, h_k, h_R⟩ := h_on h_known
      obtain ⟨g', h_journey, h_beside⟩ := step_of_stops h_p h_R h_c h_alike h_step
      exact ⟨g', h_journey.silent (h_k ▸ Step.poll_eq k (h_alike.cancelled.trans h_c)), h_beside⟩
    | false =>
      obtain ⟨g', h_journey, h_beside⟩ := ih rfl h_alike h_step
      exact ⟨g', h_journey.silent (.poll_eq k (h_alike.cancelled.trans h_c)), h_beside⟩
  | @touchLeft _ p q h =>
    cases h_step with
    | touch k c now => exact ⟨_, .refl _, .moving (h_known ▸ h) ((RunContext.Alike.touch c now).symm.trans h_alike)⟩
  | @touchRight _ p q h ih =>
    obtain ⟨g', h_journey, h_beside⟩ := ih h_known (h_alike.trans (.touch d 0)) h_step
    exact ⟨g', h_journey.silent (.touch q d 0), h_beside⟩
  | @cancel _ p q h =>
    cases h_step with
    | cancel k c => exact ⟨_, (Journey.refl _).step (.cancel q d), .moving h h_alike.cancel⟩
  | @look _ k k' h =>
    cases h_step with
    | look k c =>
      refine ⟨_, (Journey.refl _).step (.look k' d), ?_⟩
      rw [h_alike.vars]
      exact .moving (h_known ▸ h c.vars) h_alike
  | @assign name value _ p q h =>
    cases h_step with
    | assign name value k c =>
      exact ⟨_, (Journey.refl _).step (.assign name value q d), .moving (h_known ▸ h) (h_alike.assign name value)⟩
  | @call r _ k k' h =>
    cases h_step with
    | call r k c => exact ⟨_, (Journey.refl _).step (.call r k' d), .calling r h h_alike⟩
  | @sleep time _ k k' h =>
    cases h_step with
    | stopInSleep time k c =>
      exact ⟨_, (Journey.refl _).step (.stopInSleep time k' d), .moving (.sleep time h) h_alike.cancel⟩
    | wake time k c passed h_passed =>
      have h_wake := Step.wake time k' d passed fun h_early => h_alike.cancelled.trans (h_passed h_early)
      exact ⟨_, (Journey.refl _).step h_wake, .moving (h passed) h_alike⟩

/-- **A step of one run** has a journey with the same deed beside it. -/
theorem Beside.step {g g₁ : Going α} {g' : Going β} {deed : Option Deed} (h : Beside R g g') (h_step : g.Step deed g₁) :
    ∃ g₁', g'.Journey deed.toList g₁' ∧ Beside R g₁ g₁' := by
  cases h with
  | moving h h_alike => exact step_of_echoes h rfl h_alike h_step
  | stopping h h_R h_c h_alike => exact step_of_stops h h_R h_c h_alike h_step
  | @calling r k k' c d h h_alike =>
    cases h_step with
    | stopInCall r k c =>
      exact ⟨_, (Journey.refl _).step (.stopInCall r k' d), .calling r h h_alike.cancel⟩
    | answer r k c reply => exact ⟨_, (Journey.refl _).step (.answer r k' d reply), .moving (h reply) h_alike⟩

/-- So has a journey. -/
theorem Beside.journey {g g₁ : Going α} {g' : Going β} {ds : List Deed} (h : Beside R g g')
    (h_journey : g.Journey ds g₁) : ∃ g₁', g'.Journey ds g₁' ∧ Beside R g₁ g₁' := by
  induction h_journey with
  | refl => exact ⟨g', .refl g', h⟩
  | step _ h_step ih =>
    obtain ⟨_, h_first, h_beside⟩ := ih
    obtain ⟨g₁', h_next, h_beside'⟩ := h_beside.step h_step
    exact ⟨g₁', h_first.trans h_next, h_beside'⟩
  | stop _ ih =>
    obtain ⟨_, h_first, h_beside⟩ := ih
    exact ⟨_, h_first.stop, h_beside.stop⟩

/-- A run beside which another one is at its end comes to its own without a deed. -/
theorem exists_end_of_echoes {clear : Bool} {p : Process α} {q : Process β} (h : p.Echoes false R clear q)
    (h_known : clear = false) {a : α} (h_p : p = .done a) (h_alike : c.Alike d) :
    ∃ b d', Journey ⟨q, d, false⟩ [] ⟨.done b, d', false⟩ ∧ R a b ∧ c.Alike d' := by
  induction h generalizing d with
  | @done _ a' b h => exact ⟨b, d, .refl _, Process.done.inj h_p ▸ h, h_alike⟩
  -- a look that the first process does not make: both of its answers lead to an end
  | @pollRight _ p k h_on h_off ih =>
    cases h_d : d.cancelled with
    | true =>
      obtain ⟨a', b, h_stops, h_k, h_R⟩ := h_on h_known
      rw [h_p] at h_stops
      exact ⟨b, d, (Journey.refl _).silent (h_k ▸ Step.poll_eq k h_d), h_stops.eq_of_done ▸ h_R, h_alike⟩
    | false =>
      obtain ⟨b, d', h_journey, h_R, h_d'⟩ := ih rfl h_p h_alike
      exact ⟨b, d', h_journey.silent (.poll_eq k h_d), h_R, h_d'⟩
  | @touchRight _ p q h ih =>
    obtain ⟨b, d', h_journey, h_R, h_d'⟩ := ih h_known h_p (h_alike.trans (.touch d 0))
    exact ⟨b, d', h_journey.silent (.touch q d 0), h_R, h_d'⟩
  -- in all other cases the first process has something left to do
  | _ => cases h_p

theorem Beside.exists_end {a : α} {g' : Going β} (h : Beside R ⟨.done a, c, false⟩ g') :
    ∃ b d, g'.Journey [] ⟨.done b, d, false⟩ ∧ R a b ∧ c.Alike d := by
  cases h with
  | moving h h_alike => exact exists_end_of_echoes h rfl rfl h_alike
  | stopping h h_R _ h_alike => exact ⟨_, _, .refl _, h.eq_of_done ▸ h_R, h_alike⟩

end Going

/-- **Processes that echo each other** have the same journeys to an end, with cancellations at every moment: the
same deeds, the same variables, and related results. -/
theorem Process.Echoes.journey {α β : Type} {R : α → β → Prop} {p : Process α} {q : Process β}
    (h : p.Echoes false R false q) {c c' : RunContext} {ds : List Deed} {a : α}
    (h_journey : Going.Journey ⟨p, c, false⟩ ds ⟨.done a, c', false⟩) :
    ∃ b d', R a b ∧ Going.Journey ⟨q, c, false⟩ ds ⟨.done b, d', false⟩ ∧ c'.Alike d' := by
  obtain ⟨g', h_first, h_beside⟩ := (Going.Beside.moving h (.refl c)).journey h_journey
  obtain ⟨b, d', h_last, h_R, h_alike⟩ := h_beside.exists_end
  have h_whole := h_first.trans h_last
  rw [List.append_nil] at h_whole
  exact ⟨b, d', h_R, h_whole, h_alike⟩

end ScriptYard
