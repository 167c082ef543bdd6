import ScriptYard.Proofs.Run.Lulls
import ScriptYard.Proofs.Run.Sequence

/-!
# What the last activity of a run is

What a run keeps of its activity is one moment. Two places set it: `guarded`, behind a leaf that succeeds at any
depth, and `Action.executePass`, behind a step of the body of a loop that does. Others read the time since then
while the run waits.

A `Chronicle` is a part of a run together with a record of it. In the record stand the stretches in which the run
waits, with what it keeps there (`Entry.seen`), and between them the ends of actions: of every action at every
depth, whatever its result (`Entry.ended`), and once more of those that stand in the body of a loop
(`Entry.stepped`). `Action.chronicle` goes with `Action.execute` and `scriptChronicle` with `runActions`. They do
not set the moment themselves, and which of the ends are progress (`Entry.progress?`) is said of entries alone,
so that the record can be held against what the run keeps.

`Chronicle.Tells` says that a chronicle ends as the process does, has seen what is seen in it, and finds at every
stretch the moment of the last progress in front of it. It is kept by sequencing (`Chronicle.Tells.bind`). A
process that notes no progress has it (`Chronicle.Tells.of`); where progress is noted, an entry stands in front
(`Chronicle.Tells.progressed`). With them it goes through the tree of actions (`tells_chronicle`).

The world may cancel the run while it waits, or, if the process is `Process.exposed`, at any moment.
-/

namespace ScriptYard

/-! ### Records -/

/-- What is written down of a run. -/
inductive Entry where
  /-- The run keeps this while it waits. -/
  | seen (spell : Spell)
  | ended (a : Action) (r : ActionResult) (moment : Moment)
  /-- An action in the body of a loop ended, and with it a step of the loop. -/
  | stepped (a : Action) (r : ActionResult) (moment : Moment)

namespace Entry

/-- What is seen of the run. -/
def seen? : Entry → Option Spell
  | .seen x => some x
  | .ended .. | .stepped .. => none

/-- The moment of the entry, if it tells of progress: of the end of a leaf that succeeded, or of a step of a loop
that did. -/
def progress? : Entry → Option Moment
  | .seen _ => none
  | .ended a r moment => if r.success && a.isLeaf then some moment else none
  | .stepped _ r moment => if r.success then some moment else none

/-- The moment of the last progress of which a record tells, where there was some at a moment before. -/
def latest (before : Moment) : List Entry → Moment
  | [] => before
  | e :: record => latest (e.progress?.getD before) record

/-- Wherever the run is seen in a record, it keeps the moment of the last progress. -/
def Dated (before : Moment) : List Entry → Prop
  | [] => True
  | e :: record => (∀ x ∈ e.seen?, x.context.lastActivity = before) ∧ Dated (e.progress?.getD before) record

theorem latest_append (before : Moment) (record record' : List Entry) :
    latest before (record ++ record') = latest (latest before record) record' := by
  induction record generalizing before with
  | nil => rfl
  | cons e record ih => exact ih _

theorem dated_append {before : Moment} {record record' : List Entry} :
    Dated before (record ++ record') ↔ Dated before record ∧ Dated (latest before record) record' := by
  induction record generalizing before with
  | nil => exact (and_iff_right trivial).symm
  | cons e record ih => exact (and_congr_right fun _ => ih).trans and_assoc.symm

/-- Where a run is only seen, there is no progress. -/
theorem latest_map_seen (before : Moment) (spells : List Spell) : latest before (spells.map seen) = before := by
  induction spells with
  | nil => rfl
  | cons x spells ih => exact ih

theorem dated_map_seen {before : Moment} {spells : List Spell} :
    Dated before (spells.map seen) ↔ ∀ x ∈ spells, x.context.lastActivity = before := by
  induction spells with
  | nil => exact iff_of_true trivial fun _ h => absurd h List.not_mem_nil
  | cons x spells ih =>
    rw [List.map_cons, Dated, List.forall_mem_cons, ← ih]
    exact and_congr_left fun _ => by simp [seen?]

theorem seen?_eq_some_iff {e : Entry} {x : Spell} : e.seen? = some x ↔ e = .seen x := by
  cases e <;> simp [seen?]

theorem seen?_map_seen (spells : List Spell) : (spells.map seen).filterMap seen? = spells := by
  rw [List.filterMap_map]
  exact List.filterMap_some

end Entry

/-! ### What is seen of a process -/

namespace Process

variable {α β σ : Type}

/-- What the run keeps while it waits, in a play of the process. -/
def waits (w : World σ) : Process α → Stage σ → List Spell
  | .done _, _ => []
  | .poll k, s => waits w (k s.context.cancelled) s
  | .cancel k, s => waits w k (s.update .cancel)
  | .touch k, s => waits w k (s.update fun c => { c with lastActivity := s.now })
  | .look k, s => waits w (k s.context.vars) s
  | .assign name value k, s => waits w k (s.update fun c => { c with vars := Fields.insert c.vars name value })
  | .call r k, s =>
    let (back, world) := w.call s.world s.now r
    s.spell back.moment :: waits w (k back.reply) (s.advance back.moment back.cancelled world)
  | .sleep time k, s =>
    if s.context.cancelled then waits w (k false) s
    else
      let (back, world) := w.sleep s.world s.now time
      s.spell back.moment :: waits w (k (!back.cancelled)) (s.advance back.moment back.cancelled world)

theorem waits_bind (w : World σ) (p : Process α) (f : α → Process β) (s : Stage σ) :
    (p.bind f).waits w s = p.waits w s ++ (f (p.play w s).1).waits w (p.play w s).2 := by
  induction p generalizing s with
  | done a => rfl
  | poll k ih | look k ih => exact ih _ s
  | cancel k ih | touch k ih | assign name value k ih => exact ih _
  | call r k ih => exact congrArg (List.cons _) (ih _ _)
  | sleep time k ih =>
    simp only [Process.bind, waits, play]
    split
    · exact ih false s
    · exact congrArg (List.cons _) (ih _ _)

/-- **Every moment** of a play is in a stretch in which the run waits, or is its end. -/
theorem exists_mem_waits (w : World σ) (p : Process α) (s : Stage σ) {moment : Moment} (h_since : s.now ≤ moment)
    (h_till : moment ≤ (p.play w s).2.now) :
    (∃ x ∈ p.waits w s, x.since ≤ moment ∧ moment ≤ x.till) ∨ moment = (p.play w s).2.now := by
  -- a stretch that is followed by others
  have h_wait : ∀ {x : Spell} {l : List Spell} {last : Moment}, x.since ≤ moment →
      (x.till ≤ moment → (∃ y ∈ l, y.since ≤ moment ∧ moment ≤ y.till) ∨ moment = last) →
      (∃ y ∈ x :: l, y.since ≤ moment ∧ moment ≤ y.till) ∨ moment = last := by
    intro x l last h_x h_l
    by_cases h_in : moment ≤ x.till
    · exact .inl ⟨x, List.mem_cons_self, h_x, h_in⟩
    · exact (h_l (Nat.le_of_not_le h_in)).imp_left fun ⟨y, h_y, h⟩ => ⟨y, List.mem_cons_of_mem _ h_y, h⟩
  induction p generalizing s with
  | done a => exact .inr (Nat.le_antisymm h_till h_since)
  | poll k ih | look k ih => exact ih _ s h_since h_till
  | cancel k ih | touch k ih | assign name value k ih => exact ih (s.update _) h_since h_till
  | call r k ih => exact h_wait h_since fun h_back => ih _ _ h_back h_till
  | sleep time k ih =>
    simp only [waits, play] at h_till ⊢
    split
    · next h_cancelled =>
      rw [if_pos h_cancelled] at h_till
      exact ih false s h_since h_till
    · next h_uncancelled =>
      rw [if_neg h_uncancelled] at h_till
      exact h_wait h_since fun h_back => ih _ _ h_back h_till

theorem waits_paced_bind (everywhere : Bool) (w : World σ) (p : Process α) (f : α → Process β) (s : Stage σ) :
    ((p.bind f).paced everywhere).waits w s =
      (p.paced everywhere).waits w s ++ ((f ((p.paced everywhere).play w s).1).paced everywhere).waits w
        ((p.paced everywhere).play w s).2 := by
  cases everywhere with
  | false => exact waits_bind w p f s
  | true =>
    show ((p.bind f).exposed).waits w s = _
    rw [exposed_bind]
    exact waits_bind w p.exposed (fun a => (f a).exposed) s

/-! ### Processes that note no progress -/

/-- No progress is noted in the process. -/
def Quiet : Process α → Prop
  | .done _ => True
  | .touch _ => False
  | .poll k => ∀ b, Quiet (k b)
  | .cancel k | .assign _ _ k => Quiet k
  | .look k => ∀ vars, Quiet (k vars)
  | .call _ k => ∀ reply, Quiet (k reply)
  | .sleep _ k => ∀ passed, Quiet (k passed)

namespace Quiet

variable {p : Process α}

theorem bind {f : α → Process β} (h : p.Quiet) (h_f : ∀ a, (f a).Quiet) : (p.bind f).Quiet := by
  induction p with
  | done a => exact h_f a
  | touch k ih => exact h.elim
  | cancel k ih | assign name value k ih => exact ih h
  | poll k ih | look k ih | call r k ih | sleep time k ih => exact fun x => ih x (h x)

theorem exposed (h : p.Quiet) : p.exposed.Quiet := by
  induction p with
  | done a => trivial
  | touch k ih => exact h.elim
  | poll k ih => exact fun b => ih b (h b)
  | cancel k ih | assign name value k ih => exact fun _ => ih h
  | look k ih | call r k ih | sleep time k ih => exact fun x _ => ih x (h x)

theorem paced (h : p.Quiet) (everywhere : Bool) : (p.paced everywhere).Quiet := by
  cases everywhere with
  | false => exact h
  | true => exact h.exposed

/-- The last activity stays what it was. -/
theorem lastActivity (h : p.Quiet) (w : World σ) (s : Stage σ) :
    (∀ x ∈ p.waits w s, x.context.lastActivity = s.context.lastActivity) ∧
      (p.play w s).2.context.lastActivity = s.context.lastActivity := by
  -- a cancellation in a wait changes nothing of it
  have h_advance : ∀ (s : Stage σ) (moment : Moment) (cancelled : Bool) (world : σ),
      (s.advance moment cancelled world).context.lastActivity = s.context.lastActivity := by
    intro s moment cancelled world
    cases cancelled <;> rfl
  induction p generalizing s with
  | done a => exact ⟨fun _ h_x => absurd h_x List.not_mem_nil, rfl⟩
  | touch k ih => exact h.elim
  | poll k ih | look k ih => exact ih _ (h _) s
  | cancel k ih | assign name value k ih => exact ih h (s.update _)
  | call r k ih =>
    have h_rest := ih (w.call s.world s.now r).1.reply (h _)
      (s.advance (w.call s.world s.now r).1.moment (w.call s.world s.now r).1.cancelled (w.call s.world s.now r).2)
    rw [h_advance] at h_rest
    exact ⟨List.forall_mem_cons.mpr ⟨rfl, h_rest.1⟩, h_rest.2⟩
  | sleep time k ih =>
    simp only [waits, play]
    split
    · exact ih false (h _) s
    · have h_rest := ih (!(w.sleep s.world s.now time).1.cancelled) (h _)
        (s.advance (w.sleep s.world s.now time).1.moment (w.sleep s.world s.now time).1.cancelled
          (w.sleep s.world s.now time).2)
      rw [h_advance] at h_rest
      exact ⟨List.forall_mem_cons.mpr ⟨rfl, h_rest.1⟩, h_rest.2⟩

end Quiet

/-- A process after which the time without progress is always what it was cannot have noted any. -/
theorem Timeless.quiet {p : Process α} (h : p.Timeless) : p.Quiet := by
  -- after progress it would be nothing, and one millisecond before cannot come back without a sleep
  have h_lost : ∀ {q : Process α}, ¬ q.IdlesWithin 0 (fun _ d => d = 1) 0 := by
    intro q h_q
    induction q with
    | done a => cases h_q
    | poll k ih => exact ih true (h_q true)
    | cancel k ih | assign name value k ih | touch k ih => exact ih h_q
    | look k ih => exact ih [] (h_q [])
    | call r k ih => exact ih (.error (.actionFailed "")) (h_q _)
    | sleep time k ih => exact ih false h_q.2.2
  have h_one := h 0 1
  clear h
  induction p with
  | done a => trivial
  | touch k ih => exact h_lost h_one
  | cancel k ih | assign name value k ih => exact ih h_one
  | poll k ih | look k ih | call r k ih => exact fun x => ih x (h_one x)
  | sleep time k ih => exact absurd h_one.1 (by omega)

theorem quiet_pause (time : Span) : (pause time).Quiet := by
  unfold pause
  split <;> exact fun _ => trivial

end Process

/-! ### Chronicles -/

/-- A part of a run that ends with an `α`: from every stage, how it ends there, and the record of it. -/
def Chronicle (σ α : Type) : Type := Stage σ → (α × Stage σ) × List Entry

namespace Chronicle

variable {σ α β : Type}

/-- One part of a run, then another that depends on its result. -/
def bind (c : Chronicle σ α) (f : α → Chronicle σ β) : Chronicle σ β := fun s =>
  let part := c s
  let rest := f part.1.1 part.1.2
  (rest.1, part.2 ++ rest.2)

instance : Monad (Chronicle σ) where
  pure a := fun s => ((a, s), [])
  bind := bind

/-- A process of which it is written down what is seen of it. -/
def of (w : World σ) (everywhere : Bool) (p : Process α) : Chronicle σ α := fun s =>
  ((p.paced everywhere).play w s, ((p.paced everywhere).waits w s).map .seen)

/-- An entry is made, with its moment. -/
def note (entry : Moment → Entry) : Chronicle σ Unit := fun s => (((), s), [entry s.now])

theorem bind_assoc {γ : Type} (c : Chronicle σ α) (f : α → Chronicle σ β) (g : β → Chronicle σ γ) :
    (c >>= f >>= g) = c >>= fun a => f a >>= g :=
  funext fun _ => Prod.ext rfl (List.append_assoc _ _ _)

end Chronicle

open Chronicle

section Chronicles

variable {σ : Type} (w : World σ) (everywhere : Bool)

/-- The chronicle of an action with what goes before and after it. -/
def guardedChronicle (a : Action) (body : Chronicle σ ActionResult) : Chronicle σ ActionResult := do
  if ← of w everywhere Process.isCancelled then
    note (.ended a .cancelled)
    return .cancelled
  else
    let r ← body
    note (.ended a r)
    if r.success && a.isLeaf then of w everywhere Process.noteProgress
    return r

def loopChronicle (interval : Span) (pass : Chronicle σ PassEnd) :
    (remaining : ℕ) → (made : ℕ) → Chronicle σ ActionResult
  | 0, made => return loopFinished made
  | remaining + 1, made => do
    if ← of w everywhere Process.isCancelled then return loopCancelled made
    else
      match ← pass with
      | .failed r => return r
      | .broken => return loopBroken (made + 1)
      | .cancelled => return loopCancelled (made + 1)
      | .finished =>
        if remaining = 0 then return loopFinished (made + 1)
        else if ← of w everywhere (Process.pause interval) then loopChronicle interval pass remaining (made + 1)
        else return loopCancelled (made + 1)

namespace Action

mutual

def chronicle : Action → Chronicle σ ActionResult
  | .call c d => guardedChronicle w everywhere (.call c d) (of w everywhere (executeCall c))
  | .condition check onTrue onFalse breakOnTrue d =>
    guardedChronicle w everywhere (.condition check onTrue onFalse breakOnTrue d) do
      match ← of w everywhere (evaluate check) with
      | .error e => return callFailure e
      | .ok outcome =>
        let r ← if outcome then chronicleAll onTrue (.ok .null) else chronicleAll onFalse (.ok .null)
        if r.success then return .ok (.object [("condition_result", .bool outcome)]) else return r
  | .loop interval n body d =>
    guardedChronicle w everywhere (.loop interval n body d)
      (loopChronicle w everywhere (Span.ofSeconds interval) (chroniclePass body) n 0)
  | .templateMatch s d => guardedChronicle w everywhere (.templateMatch s d) (of w everywhere (executeSearch s))
  | .readText t d => guardedChronicle w everywhere (.readText t d) (of w everywhere (executeReading t))
  | .wait duration d =>
    guardedChronicle w everywhere (.wait duration d) (of w everywhere (executeWait (Span.ofSeconds duration)))
  | .setVariable name value d =>
    guardedChronicle w everywhere (.setVariable name value d) (of w everywhere (executeAssignment name value))
  | .restart d => guardedChronicle w everywhere (.restart d) (of w everywhere executeRestart)
  | .unsupported kind =>
    guardedChronicle w everywhere (.unsupported kind) (return .ofError (.unsupportedAction kind))

/-- The chronicle of a sequence of actions. -/
def chronicleAll : List Action → (last : ActionResult) → Chronicle σ ActionResult
  | [], last => return last
  | a :: rest, _ => do
    if ← of w everywhere Process.isCancelled then return .cancelled
    else
      let r ← chronicle a
      if r.success then chronicleAll rest r else return r

/-- The chronicle of a pass through the body of a loop. -/
def chroniclePass : List Action → Chronicle σ PassEnd
  | [] => return .finished
  | a :: rest => do
    if ← of w everywhere Process.isCancelled then return .cancelled
    else
      let r ← chronicle a
      note (.stepped a r)
      if r.success then do
        of w everywhere Process.noteProgress
        if mayBreak a && isTrueCondition r then return .broken else chroniclePass rest
      else return .failed r

end

end Action

/-- The chronicle of the actions of a script. -/
def scriptChronicle : List Action → (executed : ℕ) → (result : Value) → Chronicle σ RunEnd
  | [], executed, result => return ⟨.completed, executed, result, none⟩
  | a :: rest, executed, result => do
    if ← of w everywhere Process.isCancelled then return .cancelled executed result
    else
      let r ← a.chronicle w everywhere
      if ← of w everywhere Process.isCancelled then return .cancelled (executed + 1) result
      else
        match r.failure with
        | some f => return ⟨.failed, executed + 1, result, some f⟩
        | none => scriptChronicle rest (executed + 1) r.data

/-! ### What chronicles tell -/

/-- The chronicle is one of the process, and its record has the last activity right. -/
structure Chronicle.Tells {α : Type} (c : Chronicle σ α) (p : Process α) : Prop where
  /-- It ends as the process does. -/
  play : ∀ s, (c s).1 = (p.paced everywhere).play w s
  /-- What is seen of it is seen of the process. -/
  seen : ∀ s, (c s).2.filterMap Entry.seen? = (p.paced everywhere).waits w s
  /-- Wherever the run is seen, it keeps the moment of the last progress in the record. -/
  dated : ∀ s, Entry.Dated s.context.lastActivity (c s).2
  /-- So it does at the end. -/
  latest : ∀ s, (c s).1.2.context.lastActivity = Entry.latest s.context.lastActivity (c s).2

namespace Chronicle.Tells

variable {w everywhere} {α β : Type} {c : Chronicle σ α} {p : Process α}

theorem pure (a : α) : (Pure.pure a : Chronicle σ α).Tells w everywhere (.done a) where
  play := fun s => (Process.play_paced_done everywhere w s a).symm
  seen := fun s => by cases everywhere <;> rfl
  dated := fun _ => trivial
  latest := fun _ => rfl

theorem bind {f : α → Chronicle σ β} {g : α → Process β} (h : c.Tells w everywhere p)
    (h_f : ∀ a, (f a).Tells w everywhere (g a)) : (c >>= f).Tells w everywhere (p.bind g) where
  play := fun s => by
    rw [Process.play_paced_bind, ← h.play]
    exact (h_f _).play _
  seen := fun s => by
    rw [Process.waits_paced_bind, ← h.play, ← h.seen, ← (h_f _).seen]
    exact List.filterMap_append
  -- the second part is dated from the last progress of the first
  dated := fun s => by
    refine Entry.dated_append.mpr ⟨h.dated s, ?_⟩
    rw [← h.latest]
    exact (h_f _).dated _
  latest := fun s => by
    refine ((h_f _).latest _).trans ?_
    rw [h.latest]
    exact (Entry.latest_append _ _ _).symm

/-- A process in which no progress is noted. -/
theorem of (h : p.Quiet) : (Chronicle.of w everywhere p).Tells w everywhere p where
  play := fun _ => rfl
  seen := fun _ => Entry.seen?_map_seen _
  dated := fun s => Entry.dated_map_seen.mpr ((h.paced everywhere).lastActivity w s).1
  latest := fun s => ((h.paced everywhere).lastActivity w s).2.trans (Entry.latest_map_seen _ _).symm

/-- An entry that tells of no progress. -/
theorem noted {entry : Moment → Entry} (h_entry : ∀ m, (entry m).seen? = none ∧ (entry m).progress? = none)
    (h : c.Tells w everywhere p) : (note entry >>= fun _ => c).Tells w everywhere p := by
  have h_note : (note entry : Chronicle σ Unit).Tells w everywhere (.done ()) :=
  { play := fun s => (Process.play_paced_done everywhere w s ()).symm
    seen := fun s => by
      show [entry s.now].filterMap Entry.seen? = _
      rw [List.filterMap_cons_none (h_entry _).1]
      cases everywhere <;> rfl
    dated := fun s => ⟨by simp [(h_entry _).1], trivial⟩
    latest := fun s => by
      show _ = (entry s.now).progress?.getD _
      rw [(h_entry _).2]
      rfl }
  exact h_note.bind fun _ => h

/-- An entry that tells of progress, and the note that the run makes of it. -/
theorem progressed {entry : Moment → Entry}
    (h_entry : ∀ m, (entry m).seen? = none ∧ (entry m).progress? = some m) (h : c.Tells w everywhere p) :
    (note entry >>= fun _ => Chronicle.of w everywhere Process.noteProgress >>= fun _ => c).Tells w everywhere
      (Process.noteProgress.bind fun _ => p) := by
  -- what comes behind the note, in the same moment or exposed to the world, notes nothing more
  obtain ⟨k, h_k, h_quiet⟩ : ∃ k, Process.noteProgress.paced everywhere = .touch k ∧ k.Quiet := by
    cases everywhere with
    | false => exact ⟨_, rfl, trivial⟩
    | true => exact ⟨_, rfl, fun _ => trivial⟩
  have h_progress : (note entry >>= fun _ => Chronicle.of w everywhere Process.noteProgress).Tells w everywhere
      Process.noteProgress :=
  { play := fun _ => rfl
    seen := fun s => by
      show (entry s.now :: ((Process.noteProgress.paced everywhere).waits w s).map .seen).filterMap _ = _
      rw [List.filterMap_cons_none (h_entry _).1]
      exact Entry.seen?_map_seen _
    dated := fun s => by
      refine ⟨by simp [(h_entry _).1], ?_⟩
      show Entry.Dated ((entry s.now).progress?.getD _) (((Process.noteProgress.paced everywhere).waits w s).map .seen)
      rw [(h_entry _).2, h_k]
      exact Entry.dated_map_seen.mpr (h_quiet.lastActivity w (s.update fun c => { c with lastActivity := s.now })).1
    latest := fun s => by
      show ((Process.noteProgress.paced everywhere).play w s).2.context.lastActivity =
        Entry.latest ((entry s.now).progress?.getD _) _
      rw [(h_entry _).2, h_k]
      refine (h_quiet.lastActivity w (s.update fun c => { c with lastActivity := s.now })).2.trans ?_
      exact (Entry.latest_map_seen _ _).symm }
  rw [← bind_assoc]
  exact h_progress.bind fun _ => h

end Chronicle.Tells

variable {w everywhere}

theorem tells_isCancelled :
    (of w everywhere Process.isCancelled).Tells w everywhere Process.isCancelled :=
  .of fun _ => trivial

/-- **Every action.** Its end is written down whatever it is, and is progress where `guarded` notes some. -/
theorem tells_guardedChronicle (a : Action) {body : Chronicle σ ActionResult} {p : Process ActionResult}
    (h : body.Tells w everywhere p) :
    (guardedChronicle w everywhere a body).Tells w everywhere (guarded a.isLeaf p) := by
  refine tells_isCancelled.bind fun cancelled => ?_
  cases cancelled with
  | true => exact .noted (fun _ => ⟨rfl, rfl⟩) (.pure _)
  | false =>
    refine h.bind fun r => ?_
    cases h_progress : r.success && a.isLeaf with
    | true =>
      simp only [if_true]
      exact .progressed (fun _ => ⟨rfl, if_pos h_progress⟩) (.pure r)
    | false =>
      simp only [Bool.false_eq_true, if_false]
      exact .noted (fun _ => ⟨rfl, if_neg (by simp [h_progress])⟩) (.pure r)

theorem tells_loopChronicle (interval : Span) {pass : Chronicle σ PassEnd} {p : Process PassEnd}
    (h : pass.Tells w everywhere p) (remaining made : ℕ) :
    (loopChronicle w everywhere interval pass remaining made).Tells w everywhere
      (runLoop interval p remaining made) := by
  induction remaining generalizing made with
  | zero => exact .pure _
  | succ remaining ih =>
    refine tells_isCancelled.bind fun cancelled => ?_
    cases cancelled with
    | true => exact .pure _
    | false =>
      refine h.bind fun passEnd => ?_
      cases passEnd with
      | failed | broken | cancelled => exact .pure _
      | finished =>
        simp only
        split
        · exact .pure _
        · -- a pause is no progress
          refine (Tells.of (Process.quiet_pause interval)).bind fun passed => ?_
          cases passed with
          | false => exact .pure _
          | true => exact ih (made + 1)

/-- What a condition makes of the result of its branch. -/
theorem tells_branch (outcome : Bool) {branch : Chronicle σ ActionResult} {p : Process ActionResult}
    (h : branch.Tells w everywhere p) :
    (branch >>= fun r =>
      if r.success then pure (ActionResult.ok (.object [("condition_result", .bool outcome)])) else pure r).Tells
        w everywhere (p.bind fun r =>
          if r.success then pure (ActionResult.ok (.object [("condition_result", .bool outcome)])) else pure r) := by
  refine h.bind fun r => ?_
  split <;> exact .pure _

theorem quiet_executeWait (time : Span) : (executeWait time).Quiet := by
  refine (Process.quiet_pause time).bind fun passed => ?_
  cases passed <;> trivial

mutual

/-- **Actions.** -/
theorem tells_chronicle (a : Action) : (a.chronicle w everywhere).Tells w everywhere a.execute := by
  match a with
  | .call c d => exact tells_guardedChronicle _ (.of (timeless_executeCall c).quiet)
  | .condition check onTrue onFalse breakOnTrue d =>
    -- a check makes no progress; the branch behind it is a sequence
    refine tells_guardedChronicle _ ((Tells.of (timeless_evaluate check).quiet).bind fun answer => ?_)
    cases answer with
    | error e => exact .pure _
    | ok outcome =>
      cases outcome with
      | true => exact tells_branch true (tells_chronicleAll onTrue _)
      | false => exact tells_branch false (tells_chronicleAll onFalse _)
  | .loop interval n body d =>
    exact tells_guardedChronicle _ (tells_loopChronicle _ (tells_chroniclePass body) n 0)
  | .templateMatch s d => exact tells_guardedChronicle _ (.of (timeless_executeSearch s).quiet)
  | .readText t d => exact tells_guardedChronicle _ (.of (timeless_executeReading t).quiet)
  | .wait duration d => exact tells_guardedChronicle _ (.of (quiet_executeWait _))
  | .setVariable name value d => exact tells_guardedChronicle _ (.of (timeless_executeAssignment name value).quiet)
  | .restart d => exact tells_guardedChronicle _ (.of trivial)
  | .unsupported kind => exact tells_guardedChronicle _ (.pure _)

/-- **Sequences of actions.** -/
theorem tells_chronicleAll (actions : List Action) (last : ActionResult) :
    (Action.chronicleAll w everywhere actions last).Tells w everywhere (Action.executeAll actions last) := by
  match actions with
  | [] => exact .pure _
  | a :: rest =>
    refine tells_isCancelled.bind fun cancelled => ?_
    cases cancelled with
    | true => exact .pure _
    | false =>
      refine (tells_chronicle a).bind fun r => ?_
      split
      · exact tells_chronicleAll rest r
      · exact .pure r

/-- **Passes of loops.** -/
theorem tells_chroniclePass (actions : List Action) :
    (Action.chroniclePass w everywhere actions).Tells w everywhere (Action.executePass actions) := by
  match actions with
  | [] => exact .pure _
  | a :: rest =>
    refine tells_isCancelled.bind fun cancelled => ?_
    cases cancelled with
    | true => exact .pure _
    | false =>
      refine (tells_chronicle a).bind fun r => ?_
      cases h_success : r.success with
      | false =>
        simp only [Bool.false_eq_true, if_false]
        -- a failed action is no progress, a successful one is, and is written down as such
        exact .noted (fun _ => ⟨rfl, if_neg (by simp [h_success])⟩) (.pure _)
      | true =>
        simp only [if_true]
        refine .progressed (fun _ => ⟨rfl, if_pos h_success⟩) ?_
        split
        · exact .pure _
        · exact tells_chroniclePass rest

end

/-- **Whole scripts.** -/
theorem tells_scriptChronicle (actions : List Action) (executed : ℕ) (result : Value) :
    (scriptChronicle w everywhere actions executed result).Tells w everywhere
      (runActions actions executed result) := by
  induction actions generalizing executed result with
  | nil => exact .pure _
  | cons a rest ih =>
    refine tells_isCancelled.bind fun cancelled => ?_
    cases cancelled with
    | true => exact .pure _
    | false =>
      refine (tells_chronicle a).bind fun r => tells_isCancelled.bind fun cancelled => ?_
      cases cancelled with
      | true => exact .pure _
      | false =>
        -- behind a failure the script does nothing more
        obtain ⟨data, - | f⟩ := r
        · exact ih (executed + 1) data
        · exact .pure _

end Chronicles

/-- **The time since the last activity is the time since the last progress.** The actions of a script are run from any
stage in any world, which may cancel the run while it waits or, if it is exposed, at any moment. The chronicle of the
script ends as the run does, and its record, with the end of the run behind it, has what is seen of the run. Every
moment from the start to the end is in what is seen. There the run has been idle since the last progress that stands
in front of it in the record, or since the moment that it kept at first if none does. -/
theorem idle_since_last_progress {σ : Type} (w : World σ) (everywhere : Bool) (actions : List Action)
    (start : Stage σ) :
    let run := (runActions actions 0 .null).paced everywhere
    let told := scriptChronicle w everywhere actions 0 .null start
    let last := told.1.2.spell told.1.2.now
    let record := told.2 ++ [.seen last]
    told.1 = run.play w start ∧
    record.filterMap Entry.seen? = run.waits w start ++ [last] ∧
    (∀ moment, start.now ≤ moment → moment ≤ told.1.2.now →
      ∃ x, .seen x ∈ record ∧ x.since ≤ moment ∧ moment ≤ x.till) ∧
    ∀ before x after, record = before ++ .seen x :: after → ∀ moment,
      x.context.idle moment = .ofMillis (moment - Entry.latest start.context.lastActivity before) := by
  intro run told last record
  have h : (scriptChronicle w everywhere actions 0 .null).Tells w everywhere (runActions actions 0 .null) :=
    tells_scriptChronicle actions 0 .null
  have h_seen : record.filterMap Entry.seen? = run.waits w start ++ [last] := by
    show (told.2 ++ [Entry.seen last]).filterMap _ = _
    rw [List.filterMap_append, h.seen]
    rfl
  -- the last spell is dated by the last entry of the record
  have h_dated : Entry.Dated start.context.lastActivity record := by
    refine Entry.dated_append.mpr ⟨h.dated start, ?_, trivial⟩
    intro x h_x
    cases h_x
    exact h.latest start
  refine ⟨h.play start, h_seen, fun moment h_since h_till => ?_, fun before x after h_split moment => ?_⟩
  · have h_in : ∃ x ∈ run.waits w start ++ [last], x.since ≤ moment ∧ moment ≤ x.till := by
      have h_end : told.1.2 = (run.play w start).2 := congrArg Prod.snd (h.play start)
      rw [h_end] at h_till
      -- a moment is in a wait, or it is the moment of the end
      rcases Process.exists_mem_waits w run start h_since h_till with ⟨x, h_x, h_moment⟩ | rfl
      · exact ⟨x, List.mem_append_left _ h_x, h_moment⟩
      · rw [← h_end]
        exact ⟨last, by simp, Nat.le_refl _, Nat.le_refl _⟩
    rw [← h_seen] at h_in
    obtain ⟨x, h_x, h_moment⟩ := h_in
    obtain ⟨e, h_e, h_eq⟩ := List.mem_filterMap.mp h_x
    exact ⟨x, Entry.seen?_eq_some_iff.mp h_eq ▸ h_e, h_moment⟩
  · rw [h_split, Entry.dated_append] at h_dated
    have h_last : x.context.lastActivity = Entry.latest start.context.lastActivity before := h_dated.2.1 x rfl
    rw [RunContext.idle, h_last]

/-- A condition, a loop of two passes with a pause of a second in which the same condition is looked at, and a wait of
a second. -/
def lookout : List Action :=
  let look : Action := .condition (.variableCompare "x" .eq .null) [] [] false none
  [look, .loop Finite64.one 2 [look] none, .wait Finite64.one none]

/-- The condition is progress in each pass of the loop only, and the wait is at its end: in front of it, the run has
been idle for as long as it waits. -/
theorem lookout_is_idle_in_its_wait :
    let told := scriptChronicle promptWorld false lookout 0 .null ⟨500, { lastActivity := 200 }, ()⟩
    told.2.filterMap Entry.progress? = [500, 1500, 2500] ∧
      ∃ before x after, told.2 ++ [.seen (told.1.2.spell told.1.2.now)] = before ++ .seen x :: after ∧
        x.since = 1500 ∧ x.till = 2500 ∧ x.context.idle 2100 = .ofMillis 600 := by
  intro told
  obtain ⟨-, -, -, h_idle⟩ :=
    idle_since_last_progress promptWorld false lookout ⟨500, { lastActivity := 200 }, ()⟩
  have h_split : told.2 ++ [.seen (told.1.2.spell told.1.2.now)] = told.2.take 7 ++
      .seen ⟨{ lastActivity := 1500 }, 1500, 2500⟩ :: (told.2.drop 8 ++ [.seen (told.1.2.spell told.1.2.now)]) := rfl
  exact ⟨rfl, _, _, _, h_split, rfl, rfl, h_idle _ _ _ h_split 2100⟩

end ScriptYard
