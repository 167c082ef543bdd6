import ScriptYard.Proofs.Run.Echoes
import ScriptYard.Proofs.Run.Sequence

/-!
# Loops and their unrollings

A loop looks at the cancellation and pauses by itself, and carries out its body by `Action.executePass`; a sequence
of actions is carried out by `Action.executeAll`. Still a loop does what the sequence does that is got by unrolling it
(`Action.unrolled`): the body, a wait, the body, and so on.

Between the two stands `Action.executeUntil`, the sequence that stops behind the first action that ends the loop.
`echoes_runLoop` says that the loop echoes it; the only looks that one of them makes and the other one does not are
those before a pass of the loop, and those before and at the wait of the sequence. `exists_unrolledPlay` says which
actions of the unrolling are carried out in a world. `loop_goes_as_its_unrolling` puts the two together.
-/

namespace ScriptYard

open Process

namespace Action

/-! ### The actions of a loop in a row -/

/-- The actions of a loop of so many passes one after the other: the body, a wait, the body, and so on. -/
def unrolled (interval : Finite64) (body : List Action) (passes : ℕ) : List Action :=
  [.wait interval none].intercalate (List.replicate passes body)

theorem unrolled_one (interval : Finite64) (body : List Action) : unrolled interval body 1 = body :=
  List.append_nil body

theorem unrolled_add_two (interval : Finite64) (body : List Action) (n : ℕ) :
    unrolled interval body (n + 2) = body ++ .wait interval none :: unrolled interval body (n + 1) := rfl

theorem length_unrolled (interval : Finite64) (body : List Action) (n : ℕ) :
    (unrolled interval body (n + 1)).length = n * (body.length + 1) + body.length := by
  induction n with
  | zero => rw [Nat.zero_add, unrolled_one, Nat.zero_mul, Nat.zero_add]
  | succ n ih =>
    rw [unrolled_add_two, List.length_append, List.length_cons, ih, Nat.succ_mul]
    omega

/-- The passes that have begun when so many actions of the unrolled loop have, if its body has `size` actions: those
whose first action is one of them. -/
def passesBegun (size made : ℕ) : ℕ := (List.range made).countP fun i => size + 1 ∣ i

variable {size : ℕ}

theorem passesBegun_eq_div (size made : ℕ) : passesBegun size made = (made + size) / (size + 1) := by
  induction made with
  | zero => rw [Nat.zero_add, Nat.div_eq_of_lt (Nat.lt_succ_self size)]; rfl
  | succ made ih =>
    rw [passesBegun, List.range_succ, List.countP_append, ← passesBegun, ih, Nat.add_right_comm, Nat.succ_div]
    have h_dvd : size + 1 ∣ made + size + 1 ↔ size + 1 ∣ made := Nat.dvd_add_left (Nat.dvd_refl (size + 1))
    simp only [List.countP_singleton, h_dvd, decide_eq_true_eq]

theorem passesBegun_mul (pass : ℕ) : passesBegun size (pass * (size + 1)) = pass := by
  rw [passesBegun_eq_div, Nat.add_comm, Nat.add_mul_div_right _ _ (Nat.succ_pos size),
    Nat.div_eq_of_lt (Nat.lt_succ_self size), Nat.zero_add]

theorem passesBegun_inside (pass : ℕ) {i : ℕ} (h_pos : 0 < i) (h_le : i ≤ size) :
    passesBegun size (pass * (size + 1) + i) = pass + 1 := by
  have h_shift : pass * (size + 1) + i + size = (i - 1) + (pass + 1) * (size + 1) := by
    rw [Nat.succ_mul]
    omega
  rw [passesBegun_eq_div, h_shift, Nat.add_mul_div_right _ _ (Nat.succ_pos size), Nat.div_eq_of_lt (by omega),
    Nat.zero_add]

/-- All passes have begun at the end. -/
theorem passesBegun_length_unrolled (interval : Finite64) {body : List Action} (h_body : 0 < body.length) (passes : ℕ) :
    passesBegun body.length (unrolled interval body passes).length = passes := by
  cases passes with
  | zero => rfl
  | succ n => rw [length_unrolled, passesBegun_inside n h_body (Nat.le_refl _)]

/-- Only actions of the body may end the loop. -/
theorem mayBreak_of_mem_unrolled {interval : Finite64} {body : List Action} (h : ∀ a ∈ body, a.mayBreak = false)
    {passes : ℕ} {a : Action} (h_a : a ∈ unrolled interval body passes) : a.mayBreak = false := by
  induction passes with
  | zero => cases h_a
  | succ n ih =>
    cases n with
    | zero =>
      rw [unrolled_one] at h_a
      exact h a h_a
    | succ n =>
      rw [unrolled_add_two, List.mem_append, List.mem_cons] at h_a
      -- an action of the body, the pause between two passes, or one of a later pass
      rcases h_a with h_a | rfl | h_a
      · exact h a h_a
      · rfl
      · exact ih h_a

theorem not_dvd_inside (pass : ℕ) {i : ℕ} (h_pos : 0 < i) (h_le : i ≤ size) : ¬(size + 1) ∣ pass * (size + 1) + i := by
  rw [Nat.dvd_add_right (Nat.dvd_mul_left _ _)]
  exact Nat.not_dvd_of_pos_of_lt h_pos (Nat.lt_succ_of_le h_le)

/-! ### Up to the end of the loop -/

/-- What a sequence of actions does until one of them ends the loop around it, behind `made` actions; with the
number of actions that have begun then. -/
def executeUntil : List Action → (made : ℕ) → Process (PassEnd × ℕ)
  | [], made => .done (.finished, made)
  | a :: rest, made => .poll fun
    | true => .done (.cancelled, made)
    | false => a.execute.bind fun r =>
      if r.success then
        if a.mayBreak && isTrueCondition r then .done (.broken, made + 1) else executeUntil rest (made + 1)
      else .done (.failed r, made + 1)

end Action

/-- A pass that ends like this, as the result of a sequence. -/
def PassEnd.result : PassEnd → ActionResult
  | .finished | .broken => .ok .null
  | .failed r => r
  | .cancelled => .cancelled

open ScriptYard.Action

/-- The result of a loop of so many passes whose unrolling comes to an end like this. What a wait between two passes
gives is no result of the loop. -/
def loopResult (size passes : ℕ) : PassEnd × ℕ → ActionResult
  | (.finished, _) => loopFinished passes
  | (.broken, made) => loopBroken (passesBegun size made)
  | (.cancelled, made) => loopCancelled (passesBegun size made)
  | (.failed r, made) => if size + 1 ∣ made then loopCancelled (passesBegun size made) else r

/-- The result of a loop goes with the end of its unrolling. -/
structure LoopEnds (prompt : Bool) (size passes : ℕ) (r : ActionResult) (e : PassEnd × ℕ) : Prop where
  /-- Both fail alike. -/
  failure : r.failure = e.1.result.failure
  /-- If nothing happens between two looks at the cancellation, the end of the unrolling says all about the result. -/
  result : prompt = true → r = loopResult size passes e

/-! ### One step of each -/

theorem executePass_cons (a : Action) (rest : List Action) :
    executePass (a :: rest) = .poll fun
      | true => .done .cancelled
      | false => a.execute.bind fun r =>
        if r.success then .touch (if a.mayBreak && isTrueCondition r then .done .broken else executePass rest)
        else .done (.failed r) := by
  refine congrArg Process.poll (funext fun cancelled => ?_)
  cases cancelled <;> rfl

/-- What a loop does behind a pass. -/
def behindPass (interval : Span) (pass : Process PassEnd) (remaining made : ℕ) : PassEnd → Process ActionResult
  | .failed r => .done r
  | .broken => .done (loopBroken (made + 1))
  | .cancelled => .done (loopCancelled (made + 1))
  | .finished =>
    if remaining = 0 then .done (loopFinished (made + 1))
    else (pause interval).bind fun passed =>
      if passed then runLoop interval pass remaining (made + 1) else .done (loopCancelled (made + 1))

theorem runLoop_succ (interval : Span) (pass : Process PassEnd) (remaining made : ℕ) :
    runLoop interval pass (remaining + 1) made = .poll fun
      | true => .done (loopCancelled made)
      | false => pass.bind (behindPass interval pass remaining made) := by
  refine congrArg Process.poll (funext fun cancelled => ?_)
  cases cancelled with
  | true => rfl
  | false =>
    refine congrArg pass.bind (funext fun e => ?_)
    cases e <;> rfl

theorem executeUntil_wait (interval : Finite64) (rest : List Action) (made : ℕ) :
    executeUntil (.wait interval none :: rest) made = .poll fun
      | true => .done (.cancelled, made)
      | false => .poll fun
        | true => .done (.failed .cancelled, made + 1)
        | false => (pause (Span.ofSeconds interval)).bind fun passed =>
          if passed then .touch (executeUntil rest (made + 1)) else .done (.failed .cancelled, made + 1) := by
  refine congrArg Process.poll (funext fun cancelled => ?_)
  cases cancelled with
  | true => rfl
  | false =>
    refine congrArg Process.poll (funext fun cancelled => ?_)
    cases cancelled with
    | true => rfl
    | false =>
      -- three layers around the pause: the wait, its guard, and the sequence
      show (((pause _).bind _).bind _).bind _ = (pause _).bind _
      rw [bind_assoc, bind_assoc]
      refine congrArg (pause _).bind (funext fun passed => ?_)
      cases passed <;> rfl

section Loop

variable {prompt clear : Bool} {interval : Finite64} {body : List Action} {passes : ℕ}

/-- A pass, and the same part of the unrolling. -/
theorem echoes_executePass {pass : Process PassEnd} {remaining made : ℕ} {tail : List Action}
    (h_tail : (behindPass (Span.ofSeconds interval) pass remaining made .finished).Echoes prompt
      (LoopEnds prompt body.length passes) false (executeUntil tail (made * (body.length + 1) + body.length)))
    (rest : List Action) (i : ℕ) (h_i : i + rest.length = body.length) (h_clear : i = 0 → clear = prompt) :
    ((executePass rest).bind (behindPass (Span.ofSeconds interval) pass remaining made)).Echoes prompt
      (LoopEnds prompt body.length passes) clear (executeUntil (rest ++ tail) (made * (body.length + 1) + i)) := by
  induction rest generalizing i clear with
  | nil =>
    rw [← h_i] at h_tail ⊢
    exact h_tail.weaken clear
  | cons a rest ih =>
    have h_next : i + 1 + rest.length = body.length := by
      rw [← h_i, List.length_cons]
      omega
    have h_le : i + 1 ≤ body.length := h_next ▸ Nat.le_add_right _ _
    rw [executePass_cons]
    refine .poll (fun h_known => .done ⟨rfl, fun h_prompt => ?_⟩) ?_
    · -- the first look of a pass finds nothing new if nothing happens between two looks
      have h_pos : 0 < i := by
        rcases Nat.eq_zero_or_pos i with h | h
        · rw [h_clear h, h_prompt] at h_known
          exact absurd h_known.symm Bool.false_ne_true
        · exact h
      rw [loopResult, passesBegun_inside made h_pos (Nat.le_of_succ_le h_le)]
    · -- the child is the same on both sides; behind it, only the loop notes progress
      show ((a.execute.bind _).bind _).Echoes _ _ _ (a.execute.bind _)
      rw [bind_assoc]
      refine .bind_same a.execute fun r => ?_
      split
      · refine .touchLeft ?_
        split
        · refine .done ⟨rfl, fun _ => ?_⟩
          rw [loopResult, Nat.add_assoc, passesBegun_inside made (Nat.succ_pos i) h_le]
        · rw [Nat.add_assoc]
          exact ih (i + 1) h_next fun h => absurd h (Nat.succ_ne_zero i)
      · refine .done ⟨rfl, fun _ => ?_⟩
        rw [loopResult, Nat.add_assoc, if_neg (not_dvd_inside made (Nat.succ_pos i) h_le)]

/-- The pause behind a pass and the wait that stands for it, with a next pass to come. -/
theorem echoes_pause {pass : Process PassEnd} {remaining made : ℕ} {tail : List Action}
    (h_body : 0 < body.length)
    (h_tail : (runLoop (Span.ofSeconds interval) pass (remaining + 1) (made + 1)).Echoes prompt
      (LoopEnds prompt body.length passes) false (executeUntil tail ((made + 1) * (body.length + 1)))) :
    (behindPass (Span.ofSeconds interval) pass (remaining + 1) made .finished).Echoes prompt
      (LoopEnds prompt body.length passes) false
      (executeUntil (.wait interval none :: tail) (made * (body.length + 1) + body.length)) := by
  have h_made : made * (body.length + 1) + body.length + 1 = (made + 1) * (body.length + 1) := by
    rw [Nat.succ_mul, Nat.add_assoc]
  have h_before : LoopEnds prompt body.length passes (loopCancelled (made + 1))
      (.cancelled, made * (body.length + 1) + body.length) := by
    refine ⟨rfl, fun _ => ?_⟩
    rw [loopResult, passesBegun_inside made h_body (Nat.le_refl _)]
  have h_within : LoopEnds prompt body.length passes (loopCancelled (made + 1))
      (.failed .cancelled, (made + 1) * (body.length + 1)) := by
    refine ⟨rfl, fun _ => ?_⟩
    rw [loopResult, if_pos (Nat.dvd_mul_left _ _), passesBegun_mul]
  -- cancelled in front of the pause, the loop finds it in the pause or right behind it
  have h_stops : (behindPass (Span.ofSeconds interval) pass (remaining + 1) made .finished).Stops
      (loopCancelled (made + 1)) := by
    refine .pause_bind _ fun passed => ?_
    cases passed with
    | false => exact .done _
    | true =>
      rw [if_pos rfl, runLoop_succ]
      exact .poll (.done _)
  -- the looks before and at the wait have no counterpart, the pause itself is the same
  rw [executeUntil_wait, h_made]
  refine .pollRight (fun _ => ⟨_, _, h_stops, rfl, h_before⟩) ?_
  refine .pollRight (fun _ => ⟨_, _, h_stops, rfl, h_within⟩) ?_
  refine Echoes.weaken (.bind_same _ fun passed => ?_) prompt
  cases passed with
  | false => exact .done h_within
  | true => exact .touchRight h_tail

/-- **A loop and its unrolling**, behind some passes. -/
theorem echoes_runLoop (prompt clear : Bool) (interval : Finite64) (h_body : body ≠ []) (remaining made : ℕ)
    (h_passes : made + remaining = passes) :
    (runLoop (Span.ofSeconds interval) (executePass body) remaining made).Echoes prompt
      (LoopEnds prompt body.length passes) clear
      (executeUntil (unrolled interval body remaining) (made * (body.length + 1))) := by
  induction remaining generalizing clear made with
  | zero =>
    refine .done ⟨rfl, fun _ => ?_⟩
    rw [loopResult, ← h_passes, Nat.add_zero]
  | succ remaining ih =>
    have h_made : made + 1 + remaining = passes := by
      rw [← h_passes, Nat.add_right_comm, Nat.add_assoc]
    have h_next := ih false (made + 1) h_made
    obtain ⟨tail, h_unrolled, h_tail⟩ : ∃ tail, unrolled interval body (remaining + 1) = body ++ tail ∧
        (behindPass (Span.ofSeconds interval) (executePass body) remaining made .finished).Echoes prompt
          (LoopEnds prompt body.length passes) false (executeUntil tail (made * (body.length + 1) + body.length)) := by
      cases remaining with
      | zero =>
        refine ⟨[], (unrolled_one interval body).trans (List.append_nil body).symm, .done ⟨rfl, fun _ => ?_⟩⟩
        rw [loopResult, h_passes]
      | succ remaining =>
        have h_pos : 0 < body.length := List.length_pos_iff.mpr h_body
        exact ⟨_, unrolled_add_two interval body remaining, echoes_pause h_pos h_next⟩
    rw [h_unrolled, runLoop_succ]
    -- where the loop finds the run cancelled before a pass, the unrolling is about to look, too
    have h_stops : (executeUntil (body ++ tail) (made * (body.length + 1))).Stops
        (.cancelled, made * (body.length + 1)) := by
      obtain ⟨a, rest, rfl⟩ := List.exists_cons_of_ne_nil h_body
      exact .poll (.done _)
    have h_ends : LoopEnds prompt body.length passes (loopCancelled made) (.cancelled, made * (body.length + 1)) := by
      refine ⟨rfl, fun _ => ?_⟩
      rw [loopResult, passesBegun_mul]
    exact .pollLeft (fun _ => ⟨_, _, rfl, h_stops, h_ends⟩)
      (echoes_executePass h_tail body 0 (Nat.zero_add _) fun _ => rfl)

end Loop

/-! ### The unrolling as a sequence -/

section Sequence

variable {σ : Type} {w : World σ} {s : Stage σ} {a : Action} {rest actions : List Action} {last : ActionResult}

theorem executeAll_cons (a : Action) (rest : List Action) (last : ActionResult) :
    executeAll (a :: rest) last = .poll fun
      | true => .done .cancelled
      | false => a.execute.bind fun r => if r.success then executeAll rest r else .done r := by
  refine congrArg Process.poll (funext fun cancelled => ?_)
  cases cancelled <;> rfl

/-- Where nothing may end the loop, its unrolling fails as the sequence does. -/
theorem map_executeUntil (h : ∀ a ∈ actions, a.mayBreak = false) (h_last : last.failure = none) (made : ℕ) :
    (executeUntil actions made).map (·.1.result.failure) = (executeAll actions last).map (·.failure) := by
  induction actions generalizing last made with
  | nil => exact congrArg Process.done h_last.symm
  | cons a rest ih =>
    obtain ⟨h_a, h_rest⟩ := List.forall_mem_cons.mp h
    rw [executeAll_cons]
    refine congrArg Process.poll (funext fun cancelled => ?_)
    cases cancelled with
    | true => rfl
    | false =>
      show (a.execute.bind _).bind _ = (a.execute.bind _).bind _
      rw [bind_assoc, bind_assoc]
      refine congrArg a.execute.bind (funext fun r => ?_)
      -- as the action may not break, the test behind it is void
      rw [h_a, Bool.false_and, if_neg Bool.false_ne_true]
      split
      · next h_r => exact ih h_rest (Option.isNone_iff_eq_none.mp h_r) (made + 1)
      · rfl

theorem play_executeAll (w : World σ) (s : Stage σ) (actions : List Action) (last : ActionResult) (made : ℕ) :
    (executeAll actions last).play w s =
      (((executeCounted actions last made).play w s).1.1, ((executeCounted actions last made).play w s).2) := by
  rw [← map_executeCounted actions last made, Process.map, play_bind]
  rfl

theorem play_executeCounted_cons (h : s.context.cancelled = false) (made : ℕ) :
    (executeCounted (a :: rest) last made).play w s =
      if (a.execute.play w s).1.success then
        (executeCounted rest (a.execute.play w s).1 (made + 1)).play w (a.execute.play w s).2
      else (((a.execute.play w s).1, made + 1), (a.execute.play w s).2) := by
  simp only [executeCounted, Process.play, h, play_bind]
  split <;> rfl

theorem play_executeUntil_cons (h : s.context.cancelled = false) (made : ℕ) :
    (executeUntil (a :: rest) made).play w s =
      if (a.execute.play w s).1.success then
        if a.mayBreak && isTrueCondition (a.execute.play w s).1 then ((.broken, made + 1), (a.execute.play w s).2)
        else (executeUntil rest (made + 1)).play w (a.execute.play w s).2
      else ((.failed (a.execute.play w s).1, made + 1), (a.execute.play w s).2) := by
  simp only [executeUntil, Process.play, h, play_bind]
  split
  · split <;> rfl
  · rfl

theorem play_executeAll_cons (h : s.context.cancelled = false) :
    (executeAll (a :: rest) last).play w s =
      if (a.execute.play w s).1.success then
        (executeAll rest (a.execute.play w s).1).play w (a.execute.play w s).2
      else a.execute.play w s := by
  simp only [executeAll_cons, Process.play, h, play_bind]
  split <;> rfl

theorem play_executeAll_of_cancelled (h : s.context.cancelled = true) :
    (executeAll (a :: rest) last).play w s = (.cancelled, s) := by
  simp only [executeAll_cons, Process.play, h]

/-- Among some actions that are carried out in turn, the one at this place is a condition that may end the loop
around it, and it is true and does not fail. -/
def BreaksAt (w : World σ) (s : Stage σ) (actions : List Action) (i : ℕ) : Prop :=
  ∃ a, actions[i]? = some a ∧ a.mayBreak = true ∧
    ((executeAll (actions.take (i + 1)) (.ok .null)).play w s).1.success = true ∧
    isTrueCondition ((executeAll (actions.take (i + 1)) (.ok .null)).play w s).1 = true

theorem not_breaksAt_of_cancelled (h : s.context.cancelled = true) (i : ℕ) : ¬BreaksAt w s actions i := by
  rintro ⟨a, h_a, -, h_success, -⟩
  cases actions with
  | nil => cases h_a
  | cons b rest =>
    rw [List.take_succ_cons, play_executeAll_of_cancelled h] at h_success
    exact absurd h_success Bool.false_ne_true

theorem not_breaksAt_of_failed (h : s.context.cancelled = false) (h_a : (a.execute.play w s).1.success = false)
    (i : ℕ) : ¬BreaksAt w s (a :: rest) i := by
  rintro ⟨-, -, -, h_success, -⟩
  rw [List.take_succ_cons, play_executeAll_cons h, if_neg (by rw [h_a]; exact Bool.false_ne_true), h_a] at h_success
  exact absurd h_success Bool.false_ne_true

theorem breaksAt_zero_iff (h : s.context.cancelled = false) (h_a : (a.execute.play w s).1.success = true) :
    BreaksAt w s (a :: rest) 0 ↔ (a.mayBreak && isTrueCondition (a.execute.play w s).1) = true := by
  have h_play : (executeAll [a] (.ok .null)).play w s = a.execute.play w s := by
    rw [play_executeAll_cons h, if_pos h_a]
    rfl
  simp [BreaksAt, h_play, h_a]

theorem breaksAt_succ_iff (h : s.context.cancelled = false) (h_a : (a.execute.play w s).1.success = true) (i : ℕ) :
    BreaksAt w s (a :: rest) (i + 1) ↔ BreaksAt w (a.execute.play w s).2 rest i := by
  unfold BreaksAt
  rw [List.getElem?_cons_succ, List.take_succ_cons, play_executeAll_cons h, if_pos h_a]
  cases rest with
  | nil => simp
  | cons b rest => rw [List.take_succ_cons, executeAll_cons, executeAll_cons]

/-- How many of some actions a loop around them carries out: all of them, or those up to the first one that ends
it (`broke`). -/
inductive CarriesOut (w : World σ) (s : Stage σ) (actions : List Action) : (broke : Bool) → ℕ → Prop where
  /-- No action ends the loop. -/
  | whole (h : ∀ i, ¬BreaksAt w s actions i) : CarriesOut w s actions false actions.length
  /-- This one does, and none before it. -/
  | upTo (i : ℕ) (h : BreaksAt w s actions i) (h_first : ∀ j < i, ¬BreaksAt w s actions j) :
    CarriesOut w s actions true (i + 1)

theorem CarriesOut.cons {broke : Bool} {k : ℕ} (h : s.context.cancelled = false)
    (h_a : (a.execute.play w s).1.success = true)
    (h_on : ¬(a.mayBreak && isTrueCondition (a.execute.play w s).1) = true)
    (h_rest : CarriesOut w (a.execute.play w s).2 rest broke k) : CarriesOut w s (a :: rest) broke (k + 1) := by
  have h_none : ∀ i, (∀ j < i, ¬BreaksAt w (a.execute.play w s).2 rest j) →
      ∀ j < i + 1, ¬BreaksAt w s (a :: rest) j := by
    intro i h_first j h_j
    cases j with
    | zero => rwa [breaksAt_zero_iff h h_a]
    | succ j =>
      rw [breaksAt_succ_iff h h_a]
      exact h_first j (Nat.lt_of_succ_lt_succ h_j)
  cases h_rest with
  | whole h_rest => exact .whole fun i => h_none i (fun j _ => h_rest j) i (Nat.lt_succ_self i)
  | upTo i h_i h_first => exact .upTo (i + 1) ((breaksAt_succ_iff h h_a i).mpr h_i) (h_none i h_first)

/-- How the unrolling of a loop ends: the part of it that the loop carries out ends with `r`, and the actions that
have begun then end with `begun`. -/
def unrollingEnd (broke : Bool) (r begun : ActionResult) : PassEnd :=
  if r.success then if broke then .broken else .finished
  else if begun.success then .cancelled else .failed r

theorem unrollingEnd_of_success {broke : Bool} {r begun : ActionResult} (h : r.success = true) :
    unrollingEnd broke r begun = if broke then .broken else .finished := if_pos h

theorem unrollingEnd_of_failed {broke : Bool} {r begun : ActionResult} (h : r.success = false) :
    unrollingEnd broke r begun = if begun.success then .cancelled else .failed r :=
  if_neg (h ▸ Bool.false_ne_true)

/-- The play of an unrolling behind `made` actions, and that of the `count` actions of it that the loop carries out:
they end on the same stage when `m` of them have begun, the second one with `r`. -/
structure UnrolledPlay (w : World σ) (s : Stage σ) (actions : List Action) (last : ActionResult) (made : ℕ)
    (broke : Bool) (count m : ℕ) (r : ActionResult) (t : Stage σ) : Prop where
  /-- The loop carries out so many actions. -/
  carriesOut : CarriesOut w s actions broke count
  /-- The play of these actions. -/
  sequence : (executeCounted (actions.take count) last made).play w s = ((r, made + m), t)
  unrolling : (executeUntil actions made).play w s =
    ((unrollingEnd broke r ((executeAll (actions.take m) last).play w s).1, made + m), t)
  /-- They fail alike. -/
  failure : (unrollingEnd broke r ((executeAll (actions.take m) last).play w s).1).result.failure = r.failure
  /-- A sequence whose last action ends the loop succeeds. -/
  broken : broke = true → r.success = true
  /-- In one that succeeds, all actions have begun. -/
  all : r.success = true → m = count

theorem unrolledPlay_nil (h_last : last.success = true) (made : ℕ) :
    UnrolledPlay w s [] last made false 0 0 last s := by
  have h_none : ∀ i, ¬BreaksAt w s [] i := by
    rintro i ⟨a, h_a, -⟩
    cases h_a
  refine ⟨.whole h_none, rfl, ?_, ?_, fun _ => h_last, fun _ => rfl⟩
  · rw [unrollingEnd_of_success h_last]
    rfl
  · rw [unrollingEnd_of_success h_last]
    exact (Option.isNone_iff_eq_none.mp h_last).symm

/-- The run is found cancelled before the first action. -/
theorem unrolledPlay_of_cancelled (h : s.context.cancelled = true) (h_last : last.success = true) (made : ℕ) :
    UnrolledPlay w s (a :: rest) last made false (a :: rest).length 0 .cancelled s := by
  have h_begun : ((executeAll ((a :: rest).take 0) last).play w s).1 = last := rfl
  refine ⟨.whole (not_breaksAt_of_cancelled h), ?_, ?_, ?_, fun h => absurd h Bool.false_ne_true,
    fun h => absurd h Bool.false_ne_true⟩
  · simp only [List.take_length, executeCounted, Process.play, h, Nat.add_zero]
  · rw [h_begun, unrollingEnd_of_failed rfl, if_pos h_last]
    simp only [executeUntil, Process.play, h, Nat.add_zero]
  · rw [h_begun, unrollingEnd_of_failed rfl, if_pos h_last]
    rfl

/-- The first action fails. -/
theorem unrolledPlay_of_failed (h : s.context.cancelled = false) (h_a : (a.execute.play w s).1.success = false)
    (made : ℕ) : UnrolledPlay w s (a :: rest) last made false (a :: rest).length 1 (a.execute.play w s).1
      (a.execute.play w s).2 := by
  have h_fails : ¬(a.execute.play w s).1.success = true := h_a ▸ Bool.false_ne_true
  have h_begun : ((executeAll ((a :: rest).take 1) last).play w s).1 = (a.execute.play w s).1 := by
    rw [List.take_succ_cons, play_executeAll_cons h, if_neg h_fails]
  refine ⟨.whole (not_breaksAt_of_failed h h_a), ?_, ?_, ?_, fun h => absurd h Bool.false_ne_true,
    fun h => absurd h h_fails⟩
  · rw [List.take_length, play_executeCounted_cons h, if_neg h_fails]
  · rw [play_executeUntil_cons h, if_neg h_fails, h_begun, unrollingEnd_of_failed h_a, if_neg h_fails]
  · rw [h_begun, unrollingEnd_of_failed h_a, if_neg h_fails]
    rfl

/-- The first action ends the loop. -/
theorem unrolledPlay_of_broken (h : s.context.cancelled = false) (h_a : (a.execute.play w s).1.success = true)
    (h_on : (a.mayBreak && isTrueCondition (a.execute.play w s).1) = true) (made : ℕ) :
    UnrolledPlay w s (a :: rest) last made true 1 1 (a.execute.play w s).1 (a.execute.play w s).2 := by
  refine ⟨.upTo 0 ((breaksAt_zero_iff h h_a).mpr h_on) fun j h_j => absurd h_j (Nat.not_lt_zero j), ?_, ?_, ?_,
    fun _ => h_a, fun _ => rfl⟩
  · rw [List.take_succ_cons, play_executeCounted_cons h, if_pos h_a]
    rfl
  · rw [play_executeUntil_cons h, if_pos h_a, if_pos h_on, unrollingEnd_of_success h_a, if_pos rfl]
  · rw [unrollingEnd_of_success h_a, if_pos rfl]
    exact (Option.isNone_iff_eq_none.mp h_a).symm

/-- The first action succeeds and does not end the loop, and so it goes on. -/
theorem UnrolledPlay.cons {made count m : ℕ} {broke : Bool} {r : ActionResult} {t : Stage σ}
    (h : s.context.cancelled = false) (h_a : (a.execute.play w s).1.success = true)
    (h_on : ¬(a.mayBreak && isTrueCondition (a.execute.play w s).1) = true)
    (h_rest : UnrolledPlay w (a.execute.play w s).2 rest (a.execute.play w s).1 (made + 1) broke count m r t) :
    UnrolledPlay w s (a :: rest) last made broke (count + 1) (m + 1) r t := by
  have h_made : made + 1 + m = made + (m + 1) := by omega
  have h_begun : ((executeAll ((a :: rest).take (m + 1)) last).play w s).1 =
      ((executeAll (rest.take m) (a.execute.play w s).1).play w (a.execute.play w s).2).1 := by
    rw [List.take_succ_cons, play_executeAll_cons h, if_pos h_a]
  refine ⟨h_rest.carriesOut.cons h h_a h_on, ?_, ?_, ?_, h_rest.broken, fun h_r => congrArg (· + 1) (h_rest.all h_r)⟩
  · rw [List.take_succ_cons, play_executeCounted_cons h, if_pos h_a, h_rest.sequence, h_made]
  · rw [play_executeUntil_cons h, if_pos h_a, if_neg h_on, h_rest.unrolling, h_made, h_begun]
  · rw [h_begun]
    exact h_rest.failure

/-- **The unrolling in a world** goes as the sequence of the actions that the loop carries out. -/
theorem exists_unrolledPlay (w : World σ) (s : Stage σ) (actions : List Action) (last : ActionResult)
    (h_last : last.success = true) (made : ℕ) :
    ∃ broke count m r t, UnrolledPlay w s actions last made broke count m r t := by
  induction actions generalizing s last made with
  | nil => exact ⟨_, _, _, _, _, unrolledPlay_nil h_last made⟩
  | cons a rest ih =>
    cases h : s.context.cancelled with
    | true => exact ⟨_, _, _, _, _, unrolledPlay_of_cancelled h h_last made⟩
    | false =>
      cases h_a : (a.execute.play w s).1.success with
      | false => exact ⟨_, _, _, _, _, unrolledPlay_of_failed h h_a made⟩
      | true =>
        -- a success that ends the loop, or one behind which the rest is carried out
        by_cases h_on : (a.mayBreak && isTrueCondition (a.execute.play w s).1) = true
        · exact ⟨_, _, _, _, _, unrolledPlay_of_broken h h_a h_on made⟩
        · obtain ⟨broke, count, m, r, t, h_rest⟩ := ih (a.execute.play w s).2 (a.execute.play w s).1 h_a (made + 1)
          exact ⟨broke, count + 1, m + 1, r, t, h_rest.cons h h_a h_on⟩

theorem CarriesOut.eq_length {broke : Bool} {k : ℕ} (h : CarriesOut w s actions broke k)
    (h_never : ∀ a ∈ actions, a.mayBreak = false) : broke = false ∧ k = actions.length := by
  cases h with
  | whole => exact ⟨rfl, rfl⟩
  | upTo i h =>
    obtain ⟨a, h_a, h_breaks, -⟩ := h
    exact absurd h_breaks (h_never a (List.mem_of_getElem? h_a) ▸ Bool.false_ne_true)

end Sequence

/-! ### The loop -/

/-- Behind one look at the cancellation an action without progress of its own is what it does. -/
theorem guarded_false (body : Process ActionResult) :
    guarded false body = .poll fun
      | true => .done .cancelled
      | false => body := by
  refine congrArg Process.poll (funext fun cancelled => ?_)
  cases cancelled with
  | true => rfl
  | false =>
    refine Eq.trans (congrArg body.bind (funext fun r => ?_)) body.bind_done
    generalize r.success = success
    cases success <;> rfl

/-- With cancellations at every moment, each of two processes can go as the other one does: with the same deeds, to
the same failure or success, the same variables, and cancelled or not. -/
structure SameJourneys (p q : Process ActionResult) : Prop where
  /-- The second as the first. -/
  there {c c' : RunContext} {ds : List Deed} {r : ActionResult}
    (h : Going.Journey ⟨p, c, false⟩ ds ⟨.done r, c', false⟩) :
    ∃ r' d', r'.failure = r.failure ∧ Going.Journey ⟨q, c, false⟩ ds ⟨.done r', d', false⟩ ∧ c'.Alike d'
  /-- The first as the second. -/
  back {c c' : RunContext} {ds : List Deed} {r : ActionResult}
    (h : Going.Journey ⟨q, c, false⟩ ds ⟨.done r, c', false⟩) :
    ∃ r' d', r'.failure = r.failure ∧ Going.Journey ⟨p, c, false⟩ ds ⟨.done r', d', false⟩ ∧ c'.Alike d'

theorem sameJourneys_of_echoes {p q : Process ActionResult}
    (h : p.Echoes false (fun r f => r.failure = f) false (q.map (·.failure))) : SameJourneys p q where
  there h_journey := by
    obtain ⟨f, d', h_f, h_map, h_alike⟩ := h.journey h_journey
    obtain ⟨r', h_r', h_q⟩ := Going.journey_map_iff.mp h_map
    exact ⟨r', d', h_r'.trans h_f.symm, h_q, h_alike⟩
  back h_journey := by
    obtain ⟨r', d', h_f, h_p, h_alike⟩ := h.symm.journey (Going.journey_map_iff.mpr ⟨_, rfl, h_journey⟩)
    exact ⟨r', d', h_f, h_p, h_alike⟩

theorem exists_journey_of_failures {p q : Process ActionResult} (h : p.map (·.failure) = q.map (·.failure))
    {c c' : RunContext} {ds : List Deed} {r : ActionResult}
    (h_journey : Going.Journey ⟨p, c, false⟩ ds ⟨.done r, c', false⟩) :
    ∃ r', r'.failure = r.failure ∧ Going.Journey ⟨q, c, false⟩ ds ⟨.done r', c', false⟩ := by
  have h_map : Going.Journey ⟨p.map (·.failure), c, false⟩ ds ⟨.done r.failure, c', false⟩ :=
    Going.journey_map_iff.mpr ⟨r, rfl, h_journey⟩
  rw [h] at h_map
  exact Going.journey_map_iff.mp h_map

theorem SameJourneys.of_failures {p q q' : Process ActionResult} (h : SameJourneys p q)
    (h_q : q.map (·.failure) = q'.map (·.failure)) : SameJourneys p q' where
  there h_journey := by
    obtain ⟨r, d, h_r, h_q_journey, h_alike⟩ := h.there h_journey
    obtain ⟨r', h_r', h_journey'⟩ := exists_journey_of_failures h_q h_q_journey
    exact ⟨r', d, h_r'.trans h_r, h_journey', h_alike⟩
  back h_journey := by
    obtain ⟨r, h_r, h_q_journey⟩ := exists_journey_of_failures h_q.symm h_journey
    obtain ⟨r', d, h_r', h_journey', h_alike⟩ := h.back h_q_journey
    exact ⟨r', d, h_r'.trans h_r, h_journey', h_alike⟩

/-- **With cancellations at every moment**, a loop has the journeys of its unrolling up to the condition that ends
it, behind a look at the cancellation. -/
theorem sameJourneys_unrolling (interval : Finite64) (passes : ℕ) {body : List Action} (h_body : body ≠ [])
    (description : Option String) :
    SameJourneys (Action.loop interval passes body description).execute
      (guarded false ((executeUntil (unrolled interval body passes) 0).map (·.1.result))) := by
  refine sameJourneys_of_echoes ?_
  have h_echoes := echoes_runLoop false false interval h_body passes 0 (Nat.zero_add passes)
  rw [Nat.zero_mul] at h_echoes
  have h_results := h_echoes.map_right (f := (·.1.result)) (S := fun r r' => r.failure = r'.failure)
    fun _ _ h => h.failure
  have h_failures := h_results.map_right (f := (·.failure)) (S := fun r f => r.failure = f) fun _ _ h => h
  rw [execute, guarded_false, guarded_false]
  exact .poll (fun _ => .done rfl) h_failures

/-- The play of a loop of so many passes whose body has `size` actions, beside that of the `count` actions of its
unrolling that it carries out, of which `made` have begun. The last one ended the loop (`broke`), or not. If all that
have begun succeed (`found`) and the sequence fails, it has found the run cancelled before the next one. -/
structure GoesAs {σ : Type} (loop sequence : ActionResult × Stage σ) (size passes count made : ℕ)
    (broke found : Bool) : Prop where
  /-- The same has happened in the world at the same times, and the clock, the variables and the cancellation are the
  same. -/
  stage : loop.2.Alike sequence.2
  /-- Both succeed, or both fail alike. -/
  failure : loop.1.failure = sequence.1.failure
  /-- A loop that a condition ended succeeds. -/
  broken : broke = true → sequence.1.success = true
  /-- If they succeed, all actions have begun. -/
  all : sequence.1.success = true → made = count
  /-- The result of a loop that succeeds tells the passes that have begun, and whether a condition ended it. -/
  succeeded : sequence.1.success = true → loop.1 =
    if broke then loopBroken (passesBegun size made) else loopFinished (passesBegun size made)
  /-- If none did, all passes have begun. -/
  finished : sequence.1.success = true → broke = false → passesBegun size made = passes
  /-- The result of a loop that fails tells them where the loop itself found the run cancelled, before an action or
  in a pause. Otherwise it is the result of the action that failed. -/
  failed : sequence.1.success = false → loop.1 =
    if found = true ∨ size + 1 ∣ made then loopCancelled (passesBegun size made) else sequence.1

/-- A loop in a world. -/
theorem goesAs_unrolling {σ : Type} (w : World σ) (interval : Finite64) (passes : ℕ) {body : List Action}
    (h_body : body ≠ []) (description : Option String) {s : Stage σ} (h_s : s.context.cancelled = false) :
    let row := unrolled interval body passes
    ∃ broke count, CarriesOut w s row broke count ∧
      let made := ((executeCounted (row.take count) (.ok .null) 0).play w s).1.2
      GoesAs ((Action.loop interval passes body description).execute.play w s)
        ((executeAll (row.take count) (.ok .null)).play w s) body.length passes count made broke
        ((executeAll (row.take made) (.ok .null)).play w s).1.success := by
  intro row
  obtain ⟨broke, count, m, r, t, h⟩ := exists_unrolledPlay w s row (.ok .null) rfl 0
  obtain ⟨h_count, h_counted, h_until, h_alike, h_broken, h_all⟩ := h
  rw [Nat.zero_add] at h_counted h_until
  have h_sequence : (executeAll (row.take count) (.ok .null)).play w s = (r, t) := by
    rw [play_executeAll w s _ _ 0, h_counted]
  have h_loop : (Action.loop interval passes body description).execute.play w s =
      (runLoop (Span.ofSeconds interval) (executePass body) passes 0).play w s := by
    simp only [execute, guarded_false, Process.play, h_s]
  have h_echoes := echoes_runLoop true true interval h_body passes 0 (Nat.zero_add passes)
  rw [Nat.zero_mul] at h_echoes
  obtain ⟨⟨h_failure, h_result⟩, h_stage⟩ := h_echoes.play w (.refl s) fun _ => h_s
  rw [show unrolled interval body passes = row from rfl, h_until] at h_failure h_result h_stage
  -- a loop that nothing ends makes all its passes
  have h_whole : r.success = true → broke = false → passesBegun body.length m = passes := by
    intro h_r h_broke
    rw [h_all h_r]
    cases h_count with
    | whole => exact passesBegun_length_unrolled interval (List.length_pos_iff.mpr h_body) passes
    | upTo => cases h_broke
  refine ⟨broke, count, h_count, ?_⟩
  rw [h_counted, h_sequence, h_loop]
  refine ⟨h_stage, h_failure.trans h_alike, h_broken, h_all, fun h_r => ?_, h_whole, fun h_r => ?_⟩
  · rw [h_result rfl, unrollingEnd_of_success h_r]
    cases broke with
    | true => rfl
    | false => exact congrArg loopFinished (h_whole h_r rfl).symm
  · rw [h_result rfl, unrollingEnd_of_failed h_r]
    cases ((executeAll (row.take m) (.ok .null)).play w s).1.success with
    | true => rfl
    | false => simp [loopResult]

/-- **A loop equals its unrolling.** A loop with a body that is not empty is carried out in a world, from a stage on
which the run is not cancelled. Beside it the actions of its unrolling are carried out as a sequence: all of them, or
those up to the first direct child of the loop that ends it, by being true and not failing. Then

* both have made the same calls with the same parameters at the same times, and end at the same time, with the same
  variables, and alike cancelled or not;
* both succeed, or both fail with the same failure; if a direct child ended the loop, both succeed;
* the result of a loop that succeeds tells how many passes have begun, and these are all passes unless a child ended it;
* so does the result of a loop that finds the run cancelled before an action or in a pause; where a direct child fails,
  cancelled or not, the result of the loop is that of the child.

If the run may be cancelled at every moment, the loop and its unrolling up to the child that ends it have the same
journeys. Where no direct child may end the loop, the whole unrolling is carried out, whatever stands deeper. -/
theorem loop_goes_as_its_unrolling {σ : Type} (w : World σ) (interval : Finite64) (passes : ℕ) (body : List Action)
    (description : Option String) (h_body : body ≠ []) (s : Stage (σ × List (Moment × Request)))
    (h_s : s.context.cancelled = false) :
    let row := unrolled interval body passes
    let loop := (Action.loop interval passes body description).execute
    (∃ broke count, CarriesOut w.logging s row broke count ∧
      let made := ((executeCounted (row.take count) (.ok .null) 0).play w.logging s).1.2
      GoesAs (loop.play w.logging s) ((executeAll (row.take count) (.ok .null)).play w.logging s)
        body.length passes count made broke ((executeAll (row.take made) (.ok .null)).play w.logging s).1.success) ∧
    SameJourneys loop (guarded false ((executeUntil row 0).map (·.1.result))) ∧
    ((∀ a ∈ body, a.mayBreak = false) →
      (∀ broke count, CarriesOut w.logging s row broke count → broke = false ∧ row.take count = row) ∧
      SameJourneys loop (guarded false (executeAll row (.ok .null)))) := by
  intro row loop
  have h_journeys := sameJourneys_unrolling interval passes h_body description
  refine ⟨goesAs_unrolling w.logging interval passes h_body description h_s, h_journeys, fun h_never => ?_⟩
  -- what is asked of the body holds of the whole row
  have h_row : ∀ a ∈ row, a.mayBreak = false := fun a h_a => mayBreak_of_mem_unrolled h_never h_a
  refine ⟨fun broke count h_count => ?_, h_journeys.of_failures ?_⟩
  · obtain ⟨h_broke, rfl⟩ := h_count.eq_length h_row
    exact ⟨h_broke, List.take_length⟩
  · rw [guarded_false, guarded_false]
    refine congrArg Process.poll (funext fun cancelled => ?_)
    cases cancelled with
    | true => rfl
    | false =>
      refine Eq.trans (bind_assoc _ _ _) ?_
      exact map_executeUntil h_row rfl 0

/-- A world in which every call takes five milliseconds and is answered with its number. -/
def countingWorld : World ℕ where
  call made now r := (⟨now + 5, false, match r with
    | .invoke .. => .ok (.nat (made + 1))
    | .matchTemplate .. => .error (.actionFailed "")
    | .readText .. => .ok ""⟩, made + 1)
  sleep made now time := (⟨now + time.millisUp, false⟩, made)

/-- Where runs start in it. -/
def countingStart : Stage (ℕ × List (Moment × Request)) := ⟨0, {}, 0, []⟩

/-- What a loop does that polls until it is told two. -/
def pollUntilTwo : List Action :=
  [.call ⟨"device", "poll", [], some "n"⟩ none, .condition (.variableCompare "n" .eq (.nat 2)) [] [] true none]

/-- The condition ends the loop in its second pass, behind a pause of a second. -/
theorem two_is_polled_in_the_second_pass :
    let loop := (Action.loop Finite64.one 5 pollUntilTwo none).execute.play countingWorld.logging countingStart
    let row := unrolled Finite64.one pollUntilTwo 5
    pollUntilTwo ≠ [] ∧ countingStart.context.cancelled = false ∧ loop.1 = loopBroken 2 ∧
      loop.2.world.2 = [(0, .invoke "device" "poll" []), (1005, .invoke "device" "poll" [])] ∧
      ∃ count, CarriesOut countingWorld.logging countingStart row true count ∧ passesBegun 2 count = 2 ∧
        loop.2.Alike ((executeAll (row.take count) (.ok .null)).play countingWorld.logging countingStart).2 := by
  intro loop row
  have h_nonempty : pollUntilTwo ≠ [] := List.cons_ne_nil _ _
  have h_loop : loop.1 = loopBroken 2 := by decide
  have h_calls : loop.2.world.2 = [(0, .invoke "device" "poll" []), (1005, .invoke "device" "poll" [])] := by decide
  obtain ⟨⟨broke, count, h_count, h⟩, -⟩ :=
    loop_goes_as_its_unrolling countingWorld Finite64.one 5 pollUntilTwo none h_nonempty countingStart rfl
  have h_success := Option.isNone_iff_eq_none.mpr (h.failure.symm.trans (congrArg ActionResult.failure h_loop))
  -- the number of passes is read off the result of the loop
  have h_result := h_loop.symm.trans (h.succeeded h_success)
  rw [h.all h_success] at h_result
  refine ⟨h_nonempty, rfl, h_loop, h_calls, count, ?_⟩
  cases broke with
  | false => exact absurd h_result (by simp [loopBroken, loopFinished, ActionResult.ok])
  | true =>
    have h_passes : ((2 : ℕ) : Int) = (passesBegun pollUntilTwo.length count : ℕ) := by
      simpa [loopBroken, ActionResult.ok, Value.nat] using h_result
    exact ⟨h_count, (Int.ofNat_inj.mp h_passes).symm, h.stage⟩

/-- A condition that cancels the run and then waits for no time. -/
def restartWithin : Action :=
  .condition (.variableCompare "x" .eq .null) [.restart none, .wait (Finite64.zero false) none] [] false none

/-- **A cancelled child speaks for its loop.** The run is found cancelled within the first pass, by the wait below the
only child of the loop. The result of the loop is that of the child, and says nothing of the pass that has begun. -/
theorem cancelled_child_speaks_for_its_loop :
    let pause := Finite64.zero false
    let loop := (Action.loop pause 2 [restartWithin] none).execute.play countingWorld.logging countingStart
    let row := unrolled pause [restartWithin] 2
    loop.1.isCancelled = true ∧ loop.1.data.get? "iterations" = none ∧
      passesBegun 1 ((executeCounted row (.ok .null) 0).play countingWorld.logging countingStart).1.2 = 1 :=
  ⟨rfl, rfl, rfl⟩

end ScriptYard
