import ScriptYard.Proofs.Run.Course
import ScriptYard.Script.Validation

/-!
# How long a run makes no progress

A watchdog finds a run stalled when the run has noted no progress for longer than a threshold. A run notes
progress behind every leaf that succeeds and behind every step of the body of a loop; if calls are answered at
once, it spends time in its waits and in the pauses of its loops only. A validator that knows the threshold
warns of every one of these sleeps that is longer by itself.

That is not enough: a pause is no progress, and neither is the end of a condition, so that sleeps which follow
one another add up (`unwarned_run_may_stall`). `Action.lull` reads off a script how long the time without
progress can become, along any path through its conditions and loops, where a parameter tells how much each
sleep counts. `idlesWithin_runActions` is the bound for every such weight: what an action does to the time
without progress is what it does to the `Lull`. In milliseconds the bound is `Action.longestLull`, and if every
sleep counts as one it is the greatest number of `Action.sleepsInARow`, each of them no longer than the
threshold (`unwarned_run_idles_in_its_lulls`).

`Process.spells` are the stretches of a play in which what the run keeps stays as it is; every moment from the
start of the play to its end is in one of them (`exists_mem_spells`). `Process.IdlesWithin` says of a process
by itself that it never goes without progress for longer than a limit, and `IdlesWithin.idle_le` that this is
so in all spells of its plays in a `World.Prompt`.
-/

namespace ScriptYard

/-! ### What others see of a run -/

/-- What a run keeps for a while. -/
structure Spell where
  /-- What it keeps. -/
  context : RunContext
  /-- From when on. -/
  since : Moment
  /-- Up to when. -/
  till : Moment
deriving DecidableEq, Repr

namespace Stage

variable {σ : Type} {s : Stage σ} {n c limit : ℕ}

/-- What the run keeps from now up to a moment. -/
def spell (s : Stage σ) (till : Moment) : Spell := ⟨s.context, s.now, till⟩

/-- The milliseconds since the last progress. -/
def idle (s : Stage σ) : ℕ := s.now - s.context.lastActivity

theorem idle_at_le (h : s.idle ≤ c) (h_fits : c + n ≤ limit) {moment : Moment} (h_moment : moment ≤ s.now + n) :
    moment - s.context.lastActivity ≤ limit := by
  have h_later : ∀ now last n : ℕ, now + n - last ≤ now - last + n := by omega
  calc moment - s.context.lastActivity
    _ ≤ s.now + n - s.context.lastActivity := Nat.sub_le_sub_right h_moment _
    _ ≤ s.idle + n := h_later _ _ _
    _ ≤ c + n := Nat.add_le_add_right h n
    _ ≤ limit := h_fits

theorem idle_advance_le (h : s.idle ≤ c) (n : ℕ) (world : σ) :
    (s.advance (s.now + n) false world).idle ≤ c + n :=
  idle_at_le h (Nat.le_refl _) (Nat.le_refl _)

end Stage

namespace Process

variable {α β σ : Type}

/-- What the run keeps when, in a play of the process. -/
def spells (w : World σ) : Process α → Stage σ → List Spell
  | .done _, s => [s.spell s.now]
  | .poll k, s => s.spell s.now :: spells w (k s.context.cancelled) s
  | .cancel k, s => s.spell s.now :: spells w k (s.update .cancel)
  | .touch k, s => s.spell s.now :: spells w k (s.update fun c => { c with lastActivity := s.now })
  | .look k, s => s.spell s.now :: spells w (k s.context.vars) s
  | .assign name value k, s =>
    s.spell s.now :: spells w k (s.update fun c => { c with vars := Fields.insert c.vars name value })
  | .call r k, s =>
    let (back, world) := w.call s.world s.now r
    s.spell back.moment :: spells w (k back.reply) (s.advance back.moment back.cancelled world)
  | .sleep time k, s =>
    if s.context.cancelled then s.spell s.now :: spells w (k false) s
    else
      let (back, world) := w.sleep s.world s.now time
      s.spell back.moment :: spells w (k (!back.cancelled)) (s.advance back.moment back.cancelled world)

/-- The last spell is the end of the play. -/
theorem getLast?_spells (w : World σ) (p : Process α) (s : Stage σ) :
    (p.spells w s).getLast? = some ((p.play w s).2.spell (p.play w s).2.now) := by
  -- another spell in front leaves the last one, if there is one
  have h_cons : ∀ (x : Spell) (l : List Spell) (y : Spell),
      l.getLast? = some y → (x :: l).getLast? = some y := by
    intro x l y h
    rw [List.getLast?_cons, h]
    rfl
  induction p generalizing s with
  | done a => rfl
  | poll k ih | look k ih => exact h_cons _ _ _ (ih _ s)
  | cancel k ih | touch k ih | assign name value k ih => exact h_cons _ _ _ (ih _)
  | call r k ih => exact h_cons _ _ _ (ih _ _)
  | sleep time k ih =>
    simp only [spells, play]
    split
    · exact h_cons _ _ _ (ih false s)
    · exact h_cons _ _ _ (ih _ _)

/-- **Every moment** of the play, from its start to its end, is in a spell. -/
theorem exists_mem_spells (w : World σ) (p : Process α) (s : Stage σ) {moment : Moment}
    (h_since : s.now ≤ moment) (h_till : moment ≤ (p.play w s).2.now) :
    ∃ x ∈ p.spells w s, x.since ≤ moment ∧ moment ≤ x.till := by
  have h_later : ∀ {x : Spell} {l : List Spell}, (∃ y ∈ l, y.since ≤ moment ∧ moment ≤ y.till) →
      ∃ y ∈ x :: l, y.since ≤ moment ∧ moment ≤ y.till := by
    rintro x l ⟨y, h_y, h_in⟩
    exact ⟨y, List.mem_cons_of_mem _ h_y, h_in⟩
  induction p generalizing s with
  | done a => exact ⟨_, List.mem_singleton_self _, h_since, h_till⟩
  | poll k ih | look k ih => exact h_later (ih _ s h_since h_till)
  | cancel k ih | touch k ih | assign name value k ih => exact h_later (ih (s.update _) h_since h_till)
  | call r k ih =>
    -- before the reply, or behind it
    by_cases h_back : moment ≤ (w.call s.world s.now r).1.moment
    · exact ⟨_, List.mem_cons_self, h_since, h_back⟩
    · exact h_later (ih _ _ (Nat.le_of_not_le h_back) h_till)
  | sleep time k ih =>
    simp only [spells, play] at h_till ⊢
    split
    · next h_cancelled =>
      rw [if_pos h_cancelled] at h_till
      exact h_later (ih false s h_since h_till)
    · next h_uncancelled =>
      rw [if_neg h_uncancelled] at h_till
      by_cases h_back : moment ≤ (w.sleep s.world s.now time).1.moment
      · exact ⟨_, List.mem_cons_self, h_since, h_back⟩
      · exact h_later (ih _ _ (Nat.le_of_not_le h_back) h_till)

end Process

/-- The world answers every call at once, lets every sleep last as long as it is to, and cancels nobody. -/
structure World.Prompt {σ : Type} (w : World σ) : Prop where
  /-- Calls are answered at once. -/
  call : ∀ (world : σ) (now : Moment) (r : Request),
    (w.call world now r).1.moment = now ∧ (w.call world now r).1.cancelled = false
  /-- Sleeps end in time. -/
  sleep : ∀ (world : σ) (now : Moment) (time : Span), (w.sleep world now time).1 = ⟨now + time.millisUp, false⟩

/-! ### Processes that make progress often enough -/

namespace Process

variable {α β σ : Type} {limit c : ℕ} {Q Q' : α → ℕ → Prop}

/-- From a point where a run has made no progress for `c` milliseconds, it makes none for `limit` milliseconds
at most, if calls are answered at once; what it ends with and how long it has made no progress then are as `Q`
says. -/
def IdlesWithin (limit : ℕ) (Q : α → ℕ → Prop) : Process α → (c : ℕ) → Prop
  | .done a, c => Q a c
  | .poll k, c => ∀ b, IdlesWithin limit Q (k b) c
  | .cancel k, c | .assign _ _ k, c => IdlesWithin limit Q k c
  | .touch k, _ => IdlesWithin limit Q k 0
  | .look k, c => ∀ vars, IdlesWithin limit Q (k vars) c
  | .call _ k, c => ∀ reply, IdlesWithin limit Q (k reply) c
  | .sleep time k, c => c + time.millisUp ≤ limit ∧ IdlesWithin limit Q (k true) (c + time.millisUp) ∧
    IdlesWithin limit Q (k false) c

namespace IdlesWithin

variable {p : Process α} {f : α → Process β} {R : β → ℕ → Prop}

theorem mono (h : p.IdlesWithin limit Q c) (h_Q : ∀ a d, Q a d → Q' a d) : p.IdlesWithin limit Q' c := by
  induction p generalizing c with
  | done a => exact h_Q a c h
  | cancel k ih | assign name value k ih | touch k ih => exact ih h
  | poll k ih | look k ih | call r k ih => exact fun x => ih x (h x)
  | sleep time k ih => exact ⟨h.1, ih true h.2.1, ih false h.2.2⟩

theorem bind (h : p.IdlesWithin limit (fun a d => (f a).IdlesWithin limit R d) c) :
    (p.bind f).IdlesWithin limit R c := by
  induction p generalizing c with
  | done a => exact h
  | cancel k ih | assign name value k ih | touch k ih => exact ih h
  | poll k ih | look k ih | call r k ih => exact fun x => ih x (h x)
  | sleep time k ih => exact ⟨h.1, ih true h.2.1, ih false h.2.2⟩

/-- **In a prompt world** the time since the last progress is never longer. -/
theorem idle_le {w : World σ} (h_w : w.Prompt) (h : p.IdlesWithin limit Q c) {s : Stage σ}
    (h_start : s.idle ≤ c) (h_limit : c ≤ limit) {x : Spell} (h_x : x ∈ p.spells w s) {moment : Moment}
    (h_moment : moment ≤ x.till) : moment - x.context.lastActivity ≤ limit := by
  -- what is seen at once, up to now, and what is seen later
  have h_now : ∀ {s : Stage σ} {c : ℕ}, s.idle ≤ c → c ≤ limit → x = s.spell s.now →
      moment - x.context.lastActivity ≤ limit := by
    rintro s c h_start h_limit rfl
    exact Stage.idle_at_le (n := 0) h_start h_limit h_moment
  have h_cons : ∀ {s : Stage σ} {c : ℕ} {l : List Spell}, s.idle ≤ c → c ≤ limit → x ∈ s.spell s.now :: l →
      (x ∈ l → moment - x.context.lastActivity ≤ limit) → moment - x.context.lastActivity ≤ limit := by
    intro s c l h_start h_limit h_x h_later
    rcases List.mem_cons.mp h_x with h_x | h_x
    · exact h_now h_start h_limit h_x
    · exact h_later h_x
  induction p generalizing s c with
  | done a => exact h_now h_start h_limit (List.mem_singleton.mp h_x)
  | poll k ih | look k ih =>
    exact h_cons h_start h_limit h_x fun h_x => ih _ (h _) h_start h_limit h_x
  | cancel k ih =>
    exact h_cons h_start h_limit h_x fun h_x => ih h (s := s.update .cancel) h_start h_limit h_x
  | assign name value k ih =>
    exact h_cons h_start h_limit h_x fun h_x =>
      ih h (s := s.update fun c => { c with vars := Fields.insert c.vars name value }) h_start h_limit h_x
  | touch k ih =>
    refine h_cons h_start h_limit h_x fun h_x => ih h (Nat.le_of_eq ?_) (Nat.zero_le _) h_x
    exact Nat.sub_self _
  | call r k ih =>
    obtain ⟨h_when, h_calm⟩ := h_w.call s.world s.now r
    simp only [spells] at h_x
    rw [h_when, h_calm] at h_x
    exact h_cons h_start h_limit h_x fun h_x =>
      ih _ (h _) (s := s.advance s.now false (w.call s.world s.now r).2) h_start h_limit h_x
  | sleep time k ih =>
    obtain ⟨h_fits, h_passed, h_broken⟩ := h
    simp only [spells] at h_x
    split at h_x
    · exact h_cons h_start h_limit h_x fun h_x => ih false h_broken h_start h_limit h_x
    · rw [h_w.sleep] at h_x
      rcases List.mem_cons.mp h_x with rfl | h_x
      · exact Stage.idle_at_le h_start h_fits h_moment
      · exact ih true h_passed (Stage.idle_advance_le h_start _ _) h_fits h_x

end IdlesWithin

end Process

/-! ### The lulls of a script -/

/-- How long there was no progress, up to some point of a script. -/
structure Lull where
  /-- The longest time without progress. -/
  longest : ℕ
  /-- The time since the last progress. -/
  current : ℕ
deriving DecidableEq, Repr

namespace Lull

/-- After more time without progress. -/
def grown (l : Lull) (k : ℕ) : Lull := ⟨max l.longest (l.current + k), l.current + k⟩

theorem longest_le_grown (l : Lull) (k : ℕ) : l.longest ≤ (l.grown k).longest := Nat.le_max_left _ _

/-- After some progress. -/
def ended (l : Lull) : Lull := ⟨l.longest, 0⟩

/-- Where it may have been one or the other. -/
def either (l l' : Lull) : Lull := ⟨max l.longest l'.longest, max l.current l'.current⟩

/-- After some passes of a loop, with a pause between any two. -/
def loop (pause : ℕ) (pass : Lull → Lull) : (passes : ℕ) → Lull → Lull
  | 0, l => l
  | n + 1, l => if n = 0 then pass l else loop pause pass n ((pass l).grown pause)

theorem longest_le_loop {pause : ℕ} {pass : Lull → Lull} (h_pass : ∀ l, l.longest ≤ (pass l).longest)
    (passes : ℕ) (l : Lull) : l.longest ≤ (loop pause pass passes l).longest := by
  induction passes generalizing l with
  | zero => exact Nat.le_refl _
  | succ n ih =>
    unfold loop
    split
    · exact h_pass l
    · exact Nat.le_trans (h_pass l) (Nat.le_trans (longest_le_grown _ pause) (ih _))

end Lull

namespace Action

/-- The sleep of an action by itself: that of a wait, or the pause between two passes of a loop. -/
def sleep? : Action → Option Span
  | .wait duration _ => some (Span.ofSeconds duration)
  | .loop interval .. => some (Span.ofSeconds interval)
  | _ => none

mutual

/-- The lull after an action that succeeds, where `weight` tells how much a sleep counts. -/
def lull (weight : Span → ℕ) : Action → Lull → Lull
  | .condition _ onTrue onFalse _ _, l => (lullAll weight onTrue l).either (lullAll weight onFalse l)
  | .loop interval n body _, l => Lull.loop (weight (Span.ofSeconds interval)) (lullPass weight body) n l
  | .wait duration _, l => (l.grown (weight (Span.ofSeconds duration))).ended
  | _, l => l.ended

/-- The lull after a sequence of actions that succeeds. -/
def lullAll (weight : Span → ℕ) : List Action → Lull → Lull
  | [], l => l
  | a :: rest, l => lullAll weight rest (lull weight a l)

/-- The lull after a pass through the body of a loop: every step of it is progress. -/
def lullPass (weight : Span → ℕ) : List Action → Lull → Lull
  | [], l => l
  | a :: rest, l => lullPass weight rest (lull weight a l).ended

end

/-- The longest sum, in milliseconds, of sleeps that follow one another without progress in between. -/
def longestLull (actions : List Action) : ℕ := (lullAll Span.millisUp actions ⟨0, 0⟩).longest

/-- The greatest number of sleeps that follow one another without progress in between. A sleep of no time is
none. -/
def sleepsInARow (actions : List Action) : ℕ :=
  (lullAll (fun time => if time = .zero then 0 else 1) actions ⟨0, 0⟩).longest

/-! ### Lulls only become longer -/

mutual

theorem longest_le_lull (weight : Span → ℕ) (a : Action) (l : Lull) :
    l.longest ≤ (a.lull weight l).longest := by
  match a with
  | .condition _ onTrue _ _ _ =>
    exact Nat.le_trans (longest_le_lullAll weight onTrue l) (Nat.le_max_left _ _)
  | .loop _ n body _ => exact Lull.longest_le_loop (longest_le_lullPass weight body) n l
  | .wait .. => exact Lull.longest_le_grown l _
  | .call .. | .templateMatch .. | .readText .. | .setVariable .. | .restart _ | .unsupported _ =>
    exact Nat.le_refl _

theorem longest_le_lullAll (weight : Span → ℕ) (actions : List Action) (l : Lull) :
    l.longest ≤ (lullAll weight actions l).longest := by
  match actions with
  | [] => exact Nat.le_refl _
  | a :: rest => exact Nat.le_trans (longest_le_lull weight a l) (longest_le_lullAll weight rest _)

theorem longest_le_lullPass (weight : Span → ℕ) (actions : List Action) (l : Lull) :
    l.longest ≤ (lullPass weight actions l).longest := by
  match actions with
  | [] => exact Nat.le_refl _
  | a :: rest =>
    exact Nat.le_trans (longest_le_lull weight a l) (longest_le_lullPass weight rest (lull weight a l).ended)

end

end Action

/-! ### Pieces of actions -/

namespace Process

variable {α β : Type} {p : Process α} {f : α → Process β} {limit c : ℕ}

/-- The process takes no time and makes no progress, if calls are answered at once. -/
def Timeless (p : Process α) : Prop := ∀ limit c, p.IdlesWithin limit (fun _ d => d = c) c

theorem Timeless.bind (h : p.Timeless) (h_f : ∀ a, (f a).Timeless) : (p.bind f).Timeless := by
  intro limit c
  refine IdlesWithin.bind ((h limit c).mono ?_)
  rintro a d rfl
  exact h_f a limit d

theorem timeless_done (a : α) : (Process.done a).Timeless := fun _ _ => rfl

theorem timeless_assignAll (bs : List (String × Value)) : (assignAll bs).Timeless := by
  intro limit c
  induction bs with
  | nil => exact rfl
  | cons b bs ih => exact ih

/-- A pause lasts as long as it is to, if nothing ends it. -/
theorem idlesWithin_pause {time : Span} (h : c + time.millisUp ≤ limit) :
    (pause time).IdlesWithin limit (fun passed d => passed = true → d ≤ c + time.millisUp) c := by
  unfold pause
  split
  · exact fun _ _ => Nat.le_add_right _ _
  · exact ⟨h, fun _ => Nat.le_refl _, fun h_passed => nomatch h_passed⟩

end Process

open Process

theorem timeless_storeResult (name : Option String) (v : Value) : (storeResult name v).Timeless := by
  rw [storeResult_eq]
  exact timeless_assignAll _

theorem timeless_bindMatch (m : TemplateMatch) : (bindMatch m).Timeless := by
  -- the three assignments in a row
  show (assignAll [(Variables.matchX, .int m.x), (Variables.matchY, .int m.y),
    (Variables.matchConfidence, .float m.confidence)]).Timeless
  exact timeless_assignAll _

theorem timeless_executeCall (call : CapabilityCall) : (executeCall call).Timeless := by
  have h_result : ∀ v, (bindResult call.storeResult v).Timeless := by
    intro v
    rw [bindResult_eq]
    exact timeless_assignAll _
  intro limit c vars reply
  cases reply with
  | error e => exact rfl
  | ok v => exact (h_result v).bind (fun _ => timeless_done _) limit c

theorem timeless_evaluate (check : Check) : (evaluate check).Timeless := by
  intro limit c
  cases check with
  | variableCompare name op value => exact fun _ => rfl
  | templateMatch path threshold image =>
    intro vars
    simp only [Process.bind]
    cases vars.optionalImage? image with
    | none => exact rfl
    | some image =>
      intro reply
      cases reply with
      | error e => exact rfl
      | ok m =>
        simp only [Process.bind]
        split
        · -- a match is stored without a pause
          exact (timeless_bindMatch m).bind (fun _ => timeless_done _) limit c
        · exact rfl

theorem timeless_executeSearch (s : TemplateSearch) : (executeSearch s).Timeless := by
  intro limit c vars
  simp only [Process.bind]
  split
  · intro reply
    cases reply with
    | error e => exact rfl
    | ok m =>
      refine (timeless_storeResult s.storeResult m.toValue).bind (fun _ => ?_) limit c
      split
      · exact (timeless_bindMatch m).bind fun _ => timeless_done _
      · exact timeless_done _
  · exact rfl

theorem timeless_executeReading (t : TextReading) : (executeReading t).Timeless := by
  intro limit c vars
  simp only [Process.bind]
  split
  · intro reply
    cases reply with
    | error e => exact rfl
    | ok text => exact (timeless_storeResult t.storeResult _).bind (fun _ => timeless_done _) limit c
  · exact rfl

theorem timeless_executeAssignment (name : String) (value : Value) :
    (executeAssignment name value).Timeless := by
  intro limit c
  unfold executeAssignment
  split
  · exact rfl
  · exact fun _ => rfl

/-! ### Actions keep to their lulls -/

section Bounds

variable {weight : Span → ℕ} {unit limit c : ℕ} {l : Lull}

/-- An action ends without success, or the time since the last progress is no longer than the lull tells. -/
def Lull.Bounds (unit : ℕ) (l : Lull) (r : ActionResult) (d : ℕ) : Prop :=
  r.success = true → d ≤ unit * l.current

/-- The same of a pass through the body of a loop. A condition that ends the loop is progress. -/
def Lull.BoundsPass (unit : ℕ) (l : Lull) : PassEnd → ℕ → Prop
  | .finished, d => d ≤ unit * l.current
  | .broken, d => d = 0
  | .failed r, _ => r.success = false
  | .cancelled, _ => True

theorem idlesWithin_guarded {isLeaf : Bool} {body : Process ActionResult} {Q : ActionResult → ℕ → Prop}
    (h_cancelled : Q .cancelled c)
    (h : body.IdlesWithin limit (fun r d => Q r (if r.success && isLeaf then 0 else d)) c) :
    (guarded isLeaf body).IdlesWithin limit Q c := by
  intro cancelled
  cases cancelled with
  | true => exact h_cancelled
  | false =>
    refine IdlesWithin.bind (p := body) (h.mono fun r d h_r => ?_)
    by_cases h_progress : (r.success && isLeaf) = true
    · rw [if_pos h_progress] at h_r
      simp only [h_progress, if_true]
      exact h_r
    · rw [if_neg h_progress] at h_r
      simp only [Bool.of_not_eq_true h_progress, Bool.false_eq_true, if_false]
      exact h_r

/-- An action that holds others is no progress by itself. -/
theorem idlesWithin_branch {body : Process ActionResult} (h : body.IdlesWithin limit (l.Bounds unit) c) :
    (guarded false body).IdlesWithin limit (l.Bounds unit) c := by
  refine idlesWithin_guarded (fun h => nomatch h) (h.mono fun r d h_r => ?_)
  rw [Bool.and_false]
  exact h_r

/-- A leaf that succeeds is progress. -/
theorem idlesWithin_leaf {body : Process ActionResult} {Q : ActionResult → ℕ → Prop}
    (h : body.IdlesWithin limit Q c) : (guarded true body).IdlesWithin limit (l.ended.Bounds unit) c := by
  refine idlesWithin_guarded (fun h => nomatch h) (h.mono fun r d _ h_success => ?_)
  rw [h_success]
  exact Nat.zero_le _

/-- The branch of a condition that is taken decides how long there was no progress. -/
theorem idlesWithin_outcome {branch : Process ActionResult} {l' : Lull} {data : Value}
    (h : branch.IdlesWithin limit (l.Bounds unit) c) (h_longer : l.current ≤ l'.current) :
    (branch.bind fun r => if r.success then .done (.ok data) else .done r).IdlesWithin limit
      (l'.Bounds unit) c := by
  refine IdlesWithin.bind (h.mono fun r d h_r => ?_)
  split
  · next h_success => exact fun _ => Nat.le_trans (h_r h_success) (Nat.mul_le_mul_left unit h_longer)
  · next h_failure => exact fun h_success => absurd h_success h_failure

/-- A sleep fits where the lull with it does. -/
theorem Lull.fits_of_grown {time k : ℕ} (h_time : time ≤ unit * k) (h_c : c ≤ unit * l.current)
    (h_limit : unit * (l.grown k).longest ≤ limit) :
    c + time ≤ unit * (l.grown k).current ∧ c + time ≤ limit := by
  have h_sum : c + time ≤ unit * (l.current + k) := by
    rw [Nat.mul_add]
    exact Nat.add_le_add h_c h_time
  exact ⟨h_sum, Nat.le_trans h_sum (Nat.le_trans (Nat.mul_le_mul_left unit (Nat.le_max_right _ _)) h_limit)⟩

theorem Lull.longest_le_of_le {l' : Lull} (h_longer : l.longest ≤ l'.longest)
    (h_limit : unit * l'.longest ≤ limit) : unit * l.longest ≤ limit :=
  Nat.le_trans (Nat.mul_le_mul_left unit h_longer) h_limit

theorem idlesWithin_executeWait {time : Span} (h_time : time.millisUp ≤ unit * weight time)
    (h_c : c ≤ unit * l.current) (h_limit : unit * (l.grown (weight time)).longest ≤ limit) :
    (executeWait time).IdlesWithin limit (fun _ _ => True) c := by
  obtain ⟨-, h_fits⟩ := Lull.fits_of_grown h_time h_c h_limit
  refine IdlesWithin.bind ((idlesWithin_pause h_fits).mono fun passed d _ => ?_)
  cases passed <;> trivial

/-- **Loops.** A lull goes on from one pass into the next over the pause between them. -/
theorem idlesWithin_runLoop {interval : Span} {pass : Process PassEnd} {after : Lull → Lull} {k : ℕ}
    (h_interval : interval.millisUp ≤ unit * k) (h_longer : ∀ l, l.longest ≤ (after l).longest)
    (h_pass : ∀ (l : Lull) (c : ℕ), c ≤ unit * l.current → unit * (after l).longest ≤ limit →
      pass.IdlesWithin limit ((after l).BoundsPass unit) c)
    (remaining made : ℕ) (h_c : c ≤ unit * l.current)
    (h_limit : unit * (Lull.loop k after remaining l).longest ≤ limit) :
    (runLoop interval pass remaining made).IdlesWithin limit
      ((Lull.loop k after remaining l).Bounds unit) c := by
  induction remaining generalizing made l c with
  | zero => exact fun _ => h_c
  | succ remaining ih =>
    intro cancelled
    cases cancelled with
    | true => exact fun h => nomatch h
    | false =>
      -- the first pass, whether there are more or not
      have h_first : unit * (after l).longest ≤ limit := by
        refine Lull.longest_le_of_le ?_ h_limit
        unfold Lull.loop
        split
        · exact Nat.le_refl _
        · exact Nat.le_trans (Lull.longest_le_grown _ k) (Lull.longest_le_loop h_longer remaining _)
      refine IdlesWithin.bind (p := pass) ((h_pass l c h_c h_first).mono fun passEnd d h_end => ?_)
      cases passEnd with
      | failed r =>
        intro h_success
        rw [show r.success = false from h_end] at h_success
        cases h_success
      | broken =>
        obtain rfl : d = 0 := h_end
        exact fun _ => Nat.zero_le _
      | cancelled => exact fun h => nomatch h
      | finished =>
        unfold Lull.loop at h_limit ⊢
        simp only
        split
        · exact fun _ => h_end
        · rename_i h_more
          rw [if_neg h_more] at h_limit
          -- the pause, and the other passes behind it
          have h_grown : unit * ((after l).grown k).longest ≤ limit :=
            Lull.longest_le_of_le (Lull.longest_le_loop h_longer remaining _) h_limit
          obtain ⟨h_sum, h_fits⟩ := Lull.fits_of_grown h_interval h_end h_grown
          refine IdlesWithin.bind ((idlesWithin_pause h_fits).mono fun passed d' h_passed => ?_)
          cases passed with
          | true => exact ih (made + 1) (Nat.le_trans (h_passed rfl) h_sum) h_limit
          | false => exact fun h => nomatch h

mutual

/-- **Actions.** -/
theorem idlesWithin_execute (a : Action)
    (h_sleeps : ∀ b ∈ a.walk, ∀ t ∈ b.sleep?, t.millisUp ≤ unit * weight t) {l : Lull} {c : ℕ}
    (h_c : c ≤ unit * l.current) (h_limit : unit * (a.lull weight l).longest ≤ limit) :
    a.execute.IdlesWithin limit ((a.lull weight l).Bounds unit) c := by
  have h_own : ∀ t ∈ a.sleep?, t.millisUp ≤ unit * weight t := h_sleeps a a.mem_walk_self
  match a with
  | .call request _ => exact idlesWithin_leaf (timeless_executeCall request limit c)
  | .templateMatch s _ => exact idlesWithin_leaf (timeless_executeSearch s limit c)
  | .readText t _ => exact idlesWithin_leaf (timeless_executeReading t limit c)
  | .setVariable name value _ => exact idlesWithin_leaf (timeless_executeAssignment name value limit c)
  | .restart _ => exact idlesWithin_leaf (Q := fun _ _ => True) trivial
  | .unsupported kind => exact idlesWithin_leaf (Q := fun _ _ => True) trivial
  -- the only leaf that takes time without progress
  | .wait duration _ => exact idlesWithin_leaf (idlesWithin_executeWait (h_own _ rfl) h_c h_limit)
  | .condition check onTrue onFalse _ _ =>
    -- the lull of a condition is the longer one of its branches
    have h_true := idlesWithin_executeAll onTrue (.ok .null)
      (fun b h_b => h_sleeps b (List.mem_cons_of_mem _ (List.mem_append_left _ h_b))) h_c
      (Lull.longest_le_of_le (Nat.le_max_left _ _) h_limit)
    have h_false := idlesWithin_executeAll onFalse (.ok .null)
      (fun b h_b => h_sleeps b (List.mem_cons_of_mem _ (List.mem_append_right _ h_b))) h_c
      (Lull.longest_le_of_le (Nat.le_max_right _ _) h_limit)
    refine idlesWithin_branch (IdlesWithin.bind ((timeless_evaluate check limit c).mono ?_))
    rintro answer d rfl
    cases answer with
    | error e => exact fun h => nomatch h
    | ok outcome =>
      cases outcome with
      | true => exact idlesWithin_outcome h_true (Nat.le_max_left _ _)
      | false => exact idlesWithin_outcome h_false (Nat.le_max_right _ _)
  | .loop interval n body _ =>
    -- the pause of the loop is a sleep of its own between two passes
    refine idlesWithin_branch (idlesWithin_runLoop (h_own _ rfl) (Action.longest_le_lullPass weight body)
      (fun l c h_c h_limit => ?_) n 0 h_c h_limit)
    exact idlesWithin_executePass body (fun b h_b => h_sleeps b (List.mem_cons_of_mem _ h_b)) h_c h_limit

/-- **Sequences of actions.** -/
theorem idlesWithin_executeAll (actions : List Action) (last : ActionResult)
    (h_sleeps : ∀ b ∈ Action.walkList actions, ∀ t ∈ b.sleep?, t.millisUp ≤ unit * weight t) {l : Lull} {c : ℕ}
    (h_c : c ≤ unit * l.current) (h_limit : unit * (Action.lullAll weight actions l).longest ≤ limit) :
    (Action.executeAll actions last).IdlesWithin limit ((Action.lullAll weight actions l).Bounds unit) c := by
  match actions with
  | [] => exact fun _ => h_c
  | a :: rest =>
    have h_a := idlesWithin_execute a (fun b h_b => h_sleeps b (List.mem_append_left _ h_b)) h_c
      (Lull.longest_le_of_le (Action.longest_le_lullAll weight rest _) h_limit)
    intro cancelled
    cases cancelled with
    | true => exact fun h => nomatch h
    | false =>
      refine IdlesWithin.bind (p := a.execute) (h_a.mono fun r d h_r => ?_)
      split
      · -- the next action begins with the lull that this one left
        next h_success =>
        exact idlesWithin_executeAll rest r (fun b h_b => h_sleeps b (List.mem_append_right _ h_b))
          (h_r h_success) h_limit
      · next h_failure => exact fun h_success => absurd h_success h_failure

/-- **Passes of loops.** -/
theorem idlesWithin_executePass (actions : List Action)
    (h_sleeps : ∀ b ∈ Action.walkList actions, ∀ t ∈ b.sleep?, t.millisUp ≤ unit * weight t) {l : Lull} {c : ℕ}
    (h_c : c ≤ unit * l.current) (h_limit : unit * (Action.lullPass weight actions l).longest ≤ limit) :
    (Action.executePass actions).IdlesWithin limit ((Action.lullPass weight actions l).BoundsPass unit) c := by
  match actions with
  | [] => exact h_c
  | a :: rest =>
    have h_a := idlesWithin_execute a (fun b h_b => h_sleeps b (List.mem_append_left _ h_b)) h_c
      (Lull.longest_le_of_le (Action.longest_le_lullPass weight rest (a.lull weight l).ended) h_limit)
    intro cancelled
    cases cancelled with
    | true => trivial
    | false =>
      refine IdlesWithin.bind (p := a.execute) (h_a.mono fun r d _ => ?_)
      split
      · -- the step was progress, whatever it was
        show IdlesWithin limit _ (if a.mayBreak && Action.isTrueCondition r then _ else _) 0
        split
        · exact rfl
        · exact idlesWithin_executePass rest (fun b h_b => h_sleeps b (List.mem_append_right _ h_b))
            (Nat.zero_le _) h_limit
      · next h_failure => exact Bool.of_not_eq_true h_failure

end

/-- **Whole scripts.** -/
theorem idlesWithin_runActions (actions : List Action) (executed : ℕ) (result : Value)
    (h_sleeps : ∀ b ∈ Action.walkList actions, ∀ t ∈ b.sleep?, t.millisUp ≤ unit * weight t)
    (h_c : c ≤ unit * l.current) (h_limit : unit * (Action.lullAll weight actions l).longest ≤ limit) :
    (runActions actions executed result).IdlesWithin limit (fun _ _ => True) c := by
  induction actions generalizing executed result l c with
  | nil => trivial
  | cons a rest ih =>
    -- the lull of the first action is not longer than that of the whole script
    have h_a := idlesWithin_execute a (fun b h_b => h_sleeps b (List.mem_append_left _ h_b)) h_c
      (Lull.longest_le_of_le (Action.longest_le_lullAll weight rest _) h_limit)
    intro cancelled
    cases cancelled with
    | true => trivial
    | false =>
      refine IdlesWithin.bind (p := a.execute) (h_a.mono fun r d h_r => ?_)
      intro cancelled
      cases cancelled with
      | true => trivial
      | false =>
        obtain ⟨data, - | f⟩ := r
        · exact ih _ _ (fun b h_b => h_sleeps b (List.mem_append_right _ h_b)) (h_r rfl) h_limit
        · trivial

end Bounds

/-! ### The warnings of validators -/

/-- The warning is about a sleep that is longer than the stall threshold. -/
def ValidationWarning.isLong : ValidationWarning → Bool
  | .longInterval .. | .longWait .. => true
  | .deepNesting .. | .idleLoop _ | .autostartWithoutGroup _ => false

namespace Validator

variable {v : Validator} {T : Span} {s : ScriptDefinition} {a : Action}

/-- What the report on an action warns of is in the report on the script. -/
theorem warnings_checkAction_subset (h_a : a ∈ Action.walkList s.actions) :
    (v.checkAction s.id a).warnings ⊆ (v.check s).warnings := by
  intro x h_x
  exact List.mem_append_right _ (List.mem_flatMap.mpr ⟨_, List.mem_map_of_mem h_a, h_x⟩)

theorem le_of_isLong_eq_none {x : Finite64} (h_T : v.stallThreshold = some T) (h : v.isLong x = none) :
    Span.ofSeconds x ≤ T := by
  unfold isLong at h
  rw [h_T, Option.filter_eq_none_iff] at h
  exact Nat.le_of_not_lt fun h_lt => h T rfl (decide_eq_true h_lt)

/-- Without a warning, no sleep is longer than the threshold. -/
theorem sleep_le (h_T : v.stallThreshold = some T) (h_calm : ∀ x ∈ (v.check s).warnings, x.isLong = false)
    (h_a : a ∈ Action.walkList s.actions) {t : Span} (h_t : t ∈ a.sleep?) : t ≤ T := by
  have h_quiet : ∀ x ∈ (v.checkAction s.id a).warnings, x.isLong = false :=
    fun x h_x => h_calm x (warnings_checkAction_subset h_a h_x)
  cases a with
  -- a longer sleep would be warned of by the check of this very action
  | wait duration _ =>
    cases h_t
    refine le_of_isLong_eq_none h_T (Option.eq_none_iff_forall_not_mem.mpr fun t h_long => ?_)
    rw [checkAction, Option.mem_def.mp h_long] at h_quiet
    cases h_quiet _ (List.mem_singleton_self _)
  | loop interval n _ _ =>
    cases h_t
    refine le_of_isLong_eq_none h_T (Option.eq_none_iff_forall_not_mem.mpr fun t h_long => ?_)
    rw [checkAction, Option.mem_def.mp h_long] at h_quiet
    cases h_quiet _ (List.mem_append_right _ (List.mem_singleton_self _))
  | call | condition | templateMatch | readText | setVariable | restart | unsupported => cases h_t

end Validator

/-! ### Runs of scripts without warnings -/

namespace Span

variable {a b : Span}

theorem millisUp_le (h : a ≤ b) : a.millisUp ≤ b.millisUp := Nat.div_le_div_right (Nat.add_le_add_right h _)

theorem millisUp_ofMillis (n : ℕ) : (ofMillis n).millisUp = n := by
  show (n * 1000000 + 999999) / 1000000 = n
  omega

theorem ofMillis_le {m n : ℕ} (h : m ≤ n) : ofMillis m ≤ ofMillis n := Nat.mul_le_mul_right _ h

end Span

/-- A run that has not been idle for long is not found stalled. -/
theorem TrackedRun.stall?_eq_none {r : TrackedRun} {threshold : Span} {now : Moment}
    (h : r.context.idle now ≤ threshold) : r.stall? threshold now = none := by
  refine if_neg fun h_stalled => ?_
  exact Nat.not_lt.mpr h (of_decide_eq_true (Bool.and_eq_true_iff.mp h_stalled).2)

section

variable {σ : Type} {w : World σ} {start : Stage σ} {x : Spell} {moment : Moment}

/-- **A bound for every weight.** If sleeps last no longer than their weight, the run is idle for no longer
than the lulls of its script. -/
theorem idle_le_of_weight {weight : Span → ℕ} {unit : ℕ} {actions : List Action}
    (h_sleeps : ∀ a ∈ Action.walkList actions, ∀ t ∈ a.sleep?, t.millisUp ≤ unit * weight t) (h_w : w.Prompt)
    (h_start : start.context.lastActivity = start.now) (h_x : x ∈ (runActions actions 0 .null).spells w start)
    (h_till : moment ≤ x.till) :
    x.context.idle moment ≤ .ofMillis (unit * (Action.lullAll weight actions ⟨0, 0⟩).longest) := by
  have h_idle : start.idle ≤ 0 := by
    unfold Stage.idle
    rw [h_start]
    exact Nat.le_of_eq (Nat.sub_self _)
  have h_within := idlesWithin_runActions (l := ⟨0, 0⟩) actions 0 .null h_sleeps (Nat.zero_le _) (Nat.le_refl _)
  exact Span.ofMillis_le (h_within.idle_le h_w h_idle (Nat.zero_le _) h_x h_till)

end

/-- **Idle time in scripts without warnings.** At every moment of a run in a prompt world the time since its
last progress is within the lulls of the script, whose sleeps are no longer than the threshold of the validator.
A watchdog whose threshold is not below that never finds the run stalled; in particular, one with the threshold
of the validator does not if no two sleeps follow one another. -/
theorem unwarned_run_idles_in_its_lulls {σ : Type} (w : World σ) (v : Validator) (T : Span)
    (s : ScriptDefinition) (start : Stage σ) (h_T : v.stallThreshold = some T)
    (h_calm : ∀ x ∈ (v.check s).warnings, x.isLong = false) (h_w : w.Prompt)
    (h_start : start.context.lastActivity = start.now) :
    ∀ x ∈ (runActions s.actions 0 .null).spells w start, ∀ moment, x.since ≤ moment → moment ≤ x.till →
      x.context.idle moment ≤ .ofMillis (Action.longestLull s.actions) ∧
      x.context.idle moment ≤ .ofMillis (Action.sleepsInARow s.actions * T.millisUp) ∧
      (∀ info live threshold,
        .ofMillis (min (Action.longestLull s.actions) (Action.sleepsInARow s.actions * T.millisUp)) ≤
          threshold →
        TrackedRun.stall? threshold moment ⟨info, x.context, live⟩ = none) ∧
      (T = .ofMillis T.millis → Action.sleepsInARow s.actions ≤ 1 →
        x.context.idle moment ≤ T ∧
          ∀ info live, TrackedRun.stall? T moment ⟨info, x.context, live⟩ = none) := by
  intro x h_x moment _ h_till
  -- each sleep weighs what it lasts, in milliseconds
  have h_longest : x.context.idle moment ≤ .ofMillis (Action.longestLull s.actions) := by
    rw [← Nat.one_mul (Action.longestLull _)]
    exact idle_le_of_weight (fun a _ t _ => Nat.le_of_eq (Nat.one_mul _).symm) h_w h_start h_x h_till
  -- each sleep weighs one, if it lasts at all, in units of the threshold
  have h_count : x.context.idle moment ≤ .ofMillis (Action.sleepsInARow s.actions * T.millisUp) := by
    rw [Nat.mul_comm]
    refine idle_le_of_weight (fun a h_a t h_t => ?_) h_w h_start h_x h_till
    split
    · next h_zero =>
      rw [h_zero]
      exact Nat.zero_le _
    · rw [Nat.mul_one]
      exact Span.millisUp_le (Validator.sleep_le h_T h_calm h_a h_t)
  refine ⟨h_longest, h_count, fun info live threshold h_threshold => ?_, fun h_whole h_few => ?_⟩
  · refine TrackedRun.stall?_eq_none (Nat.le_trans ?_ h_threshold)
    rcases Nat.le_total (Action.longestLull s.actions) (Action.sleepsInARow s.actions * T.millisUp) with h | h
    · rw [Nat.min_eq_left h]
      exact h_longest
    · rw [Nat.min_eq_right h]
      exact h_count
  · have h_idle : x.context.idle moment ≤ T := by
      refine Nat.le_trans h_count ?_
      rw [h_whole, Span.millisUp_ofMillis]
      exact Nat.mul_le_mul_right _ (Nat.le_trans (Nat.mul_le_mul_right _ h_few) (Nat.le_of_eq (Nat.one_mul _)))
    exact ⟨h_idle, fun info live => TrackedRun.stall?_eq_none h_idle⟩

/-- A world that answers at once that nothing works. -/
def promptWorld : World Unit where
  call _ now _ := (⟨now, false, .error (.actionFailed "")⟩, ())
  sleep _ now time := (⟨now + time.millisUp, false⟩, ())

theorem prompt_promptWorld : promptWorld.Prompt := ⟨fun _ _ _ => ⟨rfl, rfl⟩, fun _ _ _ => rfl⟩

/-- A loop that waits in every pass as long as it pauses between two. -/
def doze : ScriptDefinition where
  id := "doze"
  actions := [.loop Finite64.one 2 [.wait Finite64.one none] none]

/-- A loop with a pause, and a wait behind it. -/
def stroll : ScriptDefinition where
  id := "stroll"
  actions := [.loop Finite64.one 3 [.setVariable "seen" (.bool true) none] none, .wait Finite64.one none]

/-- What is validated against a threshold of one second. -/
def oneSecondValidator : Validator where
  stallThreshold := some (.ofSecs 1)

/-- **Without a warning, a run may stall.** The pause of the loop and the wait behind it are together longer
than the threshold. -/
theorem unwarned_run_may_stall :
    ¬ ∀ (σ : Type) (w : World σ) (v : Validator) (T : Span) (s : ScriptDefinition) (start : Stage σ),
      v.stallThreshold = some T → (∀ x ∈ (v.check s).warnings, x.isLong = false) → w.Prompt →
      start.context.lastActivity = start.now → start.context.cancelled = false →
      ∀ x ∈ (runActions s.actions 0 .null).spells w start, ∀ moment, x.since ≤ moment → moment ≤ x.till →
        x.context.idle moment ≤ T ∧ ∀ info, TrackedRun.stall? T moment ⟨info, x.context, true⟩ = none := by
  intro h
  have h_spell : ⟨{ lastActivity := 1000 }, 2000, 3000⟩ ∈
      (runActions doze.actions 0 .null).spells promptWorld ⟨0, {}, ()⟩ := by decide
  have h_calm : ∀ x ∈ (oneSecondValidator.check doze).warnings, x.isLong = false := fun _ h_x => nomatch h_x
  have h_idle := (h Unit promptWorld oneSecondValidator (.ofSecs 1) doze ⟨0, {}, ()⟩ rfl h_calm
    prompt_promptWorld rfl rfl _ h_spell 3000 (by decide) (by decide)).1
  exact absurd h_idle (by decide)

/-- The pauses and the wait are each as long as the threshold, with progress between any two of them. -/
theorem stroll_is_never_stalled :
    oneSecondValidator.stallThreshold = some (.ofSecs 1) ∧
    (∀ x ∈ (oneSecondValidator.check stroll).warnings, x.isLong = false) ∧ promptWorld.Prompt ∧
    Action.sleepsInARow stroll.actions = 1 ∧
    ∀ x ∈ (runActions stroll.actions 0 .null).spells promptWorld ⟨0, {}, ()⟩, ∀ moment, x.since ≤ moment →
      moment ≤ x.till → ∀ info live, TrackedRun.stall? (.ofSecs 1) moment ⟨info, x.context, live⟩ = none := by
  have h_calm : ∀ x ∈ (oneSecondValidator.check stroll).warnings, x.isLong = false := fun _ h_x => nomatch h_x
  refine ⟨rfl, h_calm, prompt_promptWorld, rfl, fun x h_x moment h_since h_till info live => ?_⟩
  obtain ⟨-, -, -, h_never⟩ := unwarned_run_idles_in_its_lulls promptWorld oneSecondValidator (.ofSecs 1) stroll
    ⟨0, {}, ()⟩ rfl h_calm prompt_promptWorld rfl x h_x moment h_since h_till
  exact (h_never rfl (by decide)).2 info live

end ScriptYard
