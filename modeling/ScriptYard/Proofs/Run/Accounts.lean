import ScriptYard.Proofs.Run.Endings

/-!
# Accounts of runs

A run shows its deeds, but not to which action they belong, which actions it reached, and what they gave. An
`Account` is a process that tells this as well. `Action.account` does what `Action.execute` does and tells, in
the order of time, of every leaf and every check of a condition that was tried and of every result that an
action or a sequence gave; `scriptAccount` does so for a whole script. Forgetting what is told leaves the
process itself (`Action.erase_account`, `erase_scriptAccount`), so the journeys of a run are those of its account
(`Account.recounts_iff`), and the deeds that an account tells of are those of the run (`Account.Holds`).

What is told at all ends of an account is proved piece by piece: `Account.Holds.bind` composes it, and
`Composes` collects what a property of accounts has to say about tries, results and accounts in a row for it
to hold of every script (`Composes.scriptAccount`).
-/

namespace ScriptYard

/-- Something that an account of a run tells. -/
inductive Note where
  /-- A leaf, or what a condition asks, was tried: the deeds done for it, and how it failed if it did. -/
  | tried (a : Action) (deeds : List Deed) (failure : Option Failure)
  /-- An action, or a sequence of actions inside another, ended with a result. -/
  | gave (r : ActionResult)

/-- A process that also gives an account of itself. -/
def Account (α : Type) : Type := Process (α × List Note)

namespace Process

variable {α : Type}

/-- The process with the deeds it does. -/
def noting : Process α → Process (α × List Deed)
  | .done a => .done (a, [])
  | .poll k => .poll fun b => (k b).noting
  | .cancel k => .cancel (k.noting.map fun x => (x.1, .restarted :: x.2))
  | .touch k => .touch k.noting
  | .look k => .look fun vars => (k vars).noting
  | .assign name value k => .assign name value (k.noting.map fun x => (x.1, .assigned name value :: x.2))
  | .call r k => .call r fun reply =>
    (k reply).noting.map fun x => (x.1, .called r :: .answered r reply :: x.2)
  | .sleep time k => .sleep time fun passed => (k passed).noting

theorem map_fst_noting (p : Process α) : p.noting.map Prod.fst = p := by
  -- what a deed adds to the notes is forgotten with them
  have h_map : ∀ (q : Process (α × List Deed)) (f : List Deed → List Deed),
      (q.map fun x => (x.1, f x.2)).map Prod.fst = q.map Prod.fst := fun q f => bind_assoc q _ _
  induction p with
  | done a => rfl
  | poll k ih => exact congrArg Process.poll (funext ih)
  | cancel k ih => exact congrArg Process.cancel ((h_map _ _).trans ih)
  | touch k ih => exact congrArg Process.touch ih
  | look k ih => exact congrArg Process.look (funext ih)
  | assign name value k ih => exact congrArg (Process.assign name value) ((h_map _ _).trans ih)
  | call r k ih =>
    refine congrArg (Process.call r) (funext fun reply => ?_)
    exact (h_map _ fun ds => .called r :: .answered r reply :: ds).trans (ih reply)
  | sleep time k ih => exact congrArg (Process.sleep time) (funext ih)

end Process

namespace Account

variable {α β : Type}

/-- Accounts in a row. -/
def bind (p : Account α) (f : α → Account β) : Account β :=
  Process.bind p fun x => Process.map (fun y => (y.1, x.2 ++ y.2)) (f x.1)

instance : Monad Account where
  pure a := Process.done (a, [])
  bind := bind

/-- A process of which nothing is told. -/
def silent (p : Process α) : Account α := p.map fun a => (a, [])

/-- A process of which it is told that it was a try of an action. -/
def tried (a : Action) (failure : α → Option Failure) (p : Process α) : Account α :=
  p.noting.map fun x => (x.1, [.tried a x.2 (failure x.1)])

/-- An account at the end of which the result is told. -/
def giving (p : Account ActionResult) : Account ActionResult :=
  Process.map (fun x => (x.1, x.2 ++ [.gave x.1])) p

/-- What is left of an account if nothing is told. -/
def erase (p : Account α) : Process α := Process.map Prod.fst p

theorem erase_bind {p : Account α} {f : α → Account β} {q : Process α} {g : α → Process β}
    (h : p.erase = q) (h_f : ∀ a, (f a).erase = g a) : (p >>= f).erase = q.bind g := by
  subst h
  obtain rfl : (fun a => (f a).erase) = g := funext h_f
  have h_told : ∀ x : α × List Note,
      (Process.map (fun y => (y.1, x.2 ++ y.2)) (f x.1)).map Prod.fst = (f x.1).erase :=
    fun x => Process.bind_assoc (f x.1) _ _
  calc (p >>= f).erase
      = Process.bind p fun x => (Process.map (fun y => (y.1, x.2 ++ y.2)) (f x.1)).map Prod.fst :=
        Process.bind_assoc p _ _
    _ = Process.bind p fun x => (f x.1).erase := congrArg (Process.bind p) (funext h_told)
    _ = p.erase.bind fun a => (f a).erase :=
        (Process.bind_assoc p (fun x => .done x.1) fun a => (f a).erase).symm

theorem erase_silent (p : Process α) : (silent p).erase = p :=
  (Process.bind_assoc p _ _).trans (Process.bind_done p)

theorem erase_tried (a : Action) (failure : α → Option Failure) (p : Process α) :
    (tried a failure p).erase = p :=
  (Process.bind_assoc p.noting _ _).trans p.map_fst_noting

theorem erase_giving (p : Account ActionResult) : p.giving.erase = p.erase := Process.bind_assoc p _ _

end Account

/-! ### The accounts of actions and scripts -/

/-- How a check failed, if it did. -/
def checkFailure : Except CapabilityError Bool → Option Failure
  | .ok _ => none
  | .error e => (callFailure e).failure

/-- The account of what goes before and after every action. -/
def guardedAccount (isLeaf : Bool) (body : Account ActionResult) : Account ActionResult := .giving do
  if ← Account.silent Process.isCancelled then return .cancelled
  else
    let r ← body
    if r.success && isLeaf then Account.silent Process.noteProgress
    return r

def leafAccount (a : Action) (body : Process ActionResult) : Account ActionResult :=
  guardedAccount true (.tried a (·.failure) body)

def loopAccount (interval : Span) (pass : Account PassEnd) :
    (remaining : ℕ) → (made : ℕ) → Account ActionResult
  | 0, made => return loopFinished made
  | remaining + 1, made => do
    if ← Account.silent Process.isCancelled then return loopCancelled made
    else
      match ← pass with
      | .failed r => return r
      | .broken => return loopBroken (made + 1)
      | .cancelled => return loopCancelled (made + 1)
      | .finished =>
        if remaining = 0 then return loopFinished (made + 1)
        else if ← Account.silent (Process.pause interval) then loopAccount interval pass remaining (made + 1)
        else return loopCancelled (made + 1)

namespace Action

mutual

def account : Action → Account ActionResult
  | .call c d => leafAccount (.call c d) (executeCall c)
  | .condition check onTrue onFalse breakOnTrue d =>
    guardedAccount false do
      match ← Account.tried (.condition check onTrue onFalse breakOnTrue d) checkFailure (evaluate check) with
      | .error e => return callFailure e
      | .ok outcome =>
        let r ← if outcome then (accountAll onTrue (.ok .null)).giving
          else (accountAll onFalse (.ok .null)).giving
        if r.success then return .ok (.object [("condition_result", .bool outcome)]) else return r
  | .loop interval n body _ =>
    guardedAccount false (loopAccount (Span.ofSeconds interval) (accountPass body) n 0)
  | .templateMatch s d => leafAccount (.templateMatch s d) (executeSearch s)
  | .readText t d => leafAccount (.readText t d) (executeReading t)
  | .wait duration d => leafAccount (.wait duration d) (executeWait (Span.ofSeconds duration))
  | .setVariable name value d => leafAccount (.setVariable name value d) (executeAssignment name value)
  | .restart d => leafAccount (.restart d) executeRestart
  | .unsupported kind => leafAccount (.unsupported kind) (return .ofError (.unsupportedAction kind))

/-- The account of a sequence of actions. -/
def accountAll : List Action → (last : ActionResult) → Account ActionResult
  | [], last => return last
  | a :: rest, _ => do
    if ← Account.silent Process.isCancelled then return .cancelled
    else
      let r ← account a
      if r.success then accountAll rest r else return r

/-- The account of a pass through the body of a loop. -/
def accountPass : List Action → Account PassEnd
  | [] => return .finished
  | a :: rest => do
    if ← Account.silent Process.isCancelled then return .cancelled
    else
      let r ← account a
      if r.success then do
        Account.silent Process.noteProgress
        if mayBreak a && isTrueCondition r then return .broken else accountPass rest
      else return .failed r

end

end Action

/-- The account of the actions of a script. -/
def scriptAccount : List Action → (executed : ℕ) → (result : Value) → Account RunEnd
  | [], executed, result => return ⟨.completed, executed, result, none⟩
  | a :: rest, executed, result => do
    if ← Account.silent Process.isCancelled then return .cancelled executed result
    else
      let r ← a.account
      if ← Account.silent Process.isCancelled then return .cancelled (executed + 1) result
      else
        match r.failure with
        | some f => return ⟨.failed, executed + 1, result, some f⟩
        | none => scriptAccount rest (executed + 1) r.data

/-! ### Accounts are of the runs themselves -/

open Account

theorem erase_guardedAccount (isLeaf : Bool) {body : Account ActionResult} {p : Process ActionResult}
    (h : body.erase = p) : (guardedAccount isLeaf body).erase = guarded isLeaf p := by
  refine (erase_giving _).trans (erase_bind (erase_silent _) fun cancelled => ?_)
  cases cancelled with
  | true => rfl
  | false =>
    refine erase_bind h fun r => ?_
    split <;> rfl

theorem erase_leafAccount (a : Action) (body : Process ActionResult) :
    (leafAccount a body).erase = guarded true body :=
  erase_guardedAccount true (erase_tried a _ body)

theorem erase_loopAccount (interval : Span) {pass : Account PassEnd} {p : Process PassEnd}
    (h : pass.erase = p) (remaining made : ℕ) :
    (loopAccount interval pass remaining made).erase = runLoop interval p remaining made := by
  -- by the passes that remain; the looks and pauses between them are silent
  induction remaining generalizing made with
  | zero => rfl
  | succ remaining ih =>
    refine erase_bind (erase_silent _) fun cancelled => ?_
    cases cancelled with
    | true => rfl
    | false =>
      refine erase_bind h fun passEnd => ?_
      cases passEnd with
      | failed | broken | cancelled => rfl
      | finished =>
        simp only
        split
        · rfl
        · refine erase_bind (erase_silent _) fun passed => ?_
          cases passed with
          | false => rfl
          | true => exact ih (made + 1)

namespace Action

mutual

/-- What an action does is what its account does. -/
theorem erase_account (a : Action) : a.account.erase = a.execute := by
  match a with
  | .call c d => exact erase_leafAccount _ _
  -- the only action with a note of its own: of the check, before the branch
  | .condition check onTrue onFalse breakOnTrue d =>
    refine erase_guardedAccount false (erase_bind (erase_tried _ _ _) fun answer => ?_)
    cases answer with
    | error e => rfl
    | ok outcome =>
      cases outcome with
      | true =>
        refine erase_bind ((erase_giving _).trans (erase_accountAll onTrue _)) fun r => ?_
        cases h_success : r.success <;> simp only [h_success] <;> rfl
      | false =>
        refine erase_bind ((erase_giving _).trans (erase_accountAll onFalse _)) fun r => ?_
        cases h_success : r.success <;> simp only [h_success] <;> rfl
  | .loop interval n body d =>
    exact erase_guardedAccount false (erase_loopAccount _ (erase_accountPass body) n 0)
  | .templateMatch s d => exact erase_leafAccount _ _
  | .readText t d => exact erase_leafAccount _ _
  | .wait duration d => exact erase_leafAccount _ _
  | .setVariable name value d => exact erase_leafAccount _ _
  | .restart d => exact erase_leafAccount _ _
  | .unsupported kind => exact erase_leafAccount _ _

theorem erase_accountAll (actions : List Action) (last : ActionResult) :
    (accountAll actions last).erase = executeAll actions last := by
  match actions with
  | [] => rfl
  | a :: rest =>
    refine erase_bind (erase_silent _) fun cancelled => ?_
    cases cancelled with
    | true => rfl
    | false =>
      refine erase_bind (erase_account a) fun r => ?_
      split
      · exact erase_accountAll rest r
      · rfl

theorem erase_accountPass (actions : List Action) : (accountPass actions).erase = executePass actions := by
  match actions with
  | [] => rfl
  | a :: rest =>
    refine erase_bind (erase_silent _) fun cancelled => ?_
    cases cancelled with
    | true => rfl
    | false =>
      refine erase_bind (erase_account a) fun r => ?_
      split
      · refine erase_bind (erase_silent _) fun _ => ?_
        split
        · rfl
        · exact erase_accountPass rest
      · rfl

end

end Action

theorem erase_scriptAccount (actions : List Action) (executed : ℕ) (result : Value) :
    (scriptAccount actions executed result).erase = runActions actions executed result := by
  induction actions generalizing executed result with
  | nil => rfl
  | cons a rest ih =>
    refine erase_bind (erase_silent _) fun cancelled => ?_
    cases cancelled with
    | true => rfl
    | false =>
      -- a script looks at the cancellation before and behind every action
      refine erase_bind a.erase_account fun r => erase_bind (erase_silent _) fun cancelled => ?_
      cases cancelled with
      | true => rfl
      | false =>
        obtain ⟨data, - | f⟩ := r
        · exact ih (executed + 1) data
        · rfl

/-! ### What holds of all that is told -/

/-- The deeds of which some notes tell. -/
def Note.told (notes : List Note) : List Deed := notes.flatMap fun
  | .tried _ ds _ => ds
  | .gave _ => []

theorem Note.told_append (notes notes' : List Note) : told (notes ++ notes') = told notes ++ told notes' :=
  List.flatMap_append

/-- The deeds that are noted are those that are done. -/
theorem Process.Yields.noting {α : Type} {P : List Deed → α → Prop} {p : Process α} {ds : List Deed}
    (h : p.Yields P ds) : p.noting.Yields (fun ds' x => ds' = ds ++ x.2 ∧ P ds' x.1) ds := by
  induction p generalizing ds with
  | done a => exact ⟨(List.append_nil ds).symm, h⟩
  | touch k ih => exact ih h
  | poll k ih | look k ih | sleep time k ih => exact fun x => ih x (h x)
  -- the deed stands in front of those that are noted later
  | cancel k ih | assign name value k ih =>
    refine ((ih h).mono fun ds' x h_x => ?_).map
    rw [List.append_assoc] at h_x
    exact h_x
  | call r k ih =>
    intro reply
    refine ((ih reply (h reply)).mono fun ds' x h_x => ?_).map
    rw [List.append_assoc] at h_x
    exact h_x

namespace Account

variable {α β : Type}

/-- At every end of the account the notes tell of all deeds, and something holds of them and of the
result. -/
def Holds (Q : α → List Note → Prop) (p : Account α) : Prop :=
  Process.Yields (fun ds x => Note.told x.2 = ds ∧ Q x.1 x.2) [] p

namespace Holds

variable {Q : α → List Note → Prop} {R : β → List Note → Prop} {p : Account α}

theorem bind {f : α → Account β} (h : p.Holds Q)
    (h_f : ∀ a notes, Q a notes → (f a).Holds fun b notes' => R b (notes ++ notes')) :
    (p >>= f).Holds R := by
  refine Process.Yields.bind h fun ds x ⟨h_told, h_Q⟩ => Process.Yields.map ?_
  -- `h_f` counts the deeds from the start of `f`, here those of `p` stand before them
  rw [← List.append_nil ds]
  refine Process.Yields.behind ds (Process.Yields.mono (h_f x.1 x.2 h_Q) ?_)
  rintro ds' y ⟨h_told', h_R⟩
  exact ⟨by rw [Note.told_append, h_told, h_told'], h_R⟩

theorem pure {a : α} (h : Q a []) : (Pure.pure a : Account α).Holds Q := ⟨rfl, h⟩

/-- A process that does no deed, of which nothing is told, may go first. -/
theorem silent_bind {p : Process β} {f : β → Account α} (h : p.Yields (fun ds _ => ds = []) [])
    (h_f : ∀ b, (f b).Holds Q) : (silent p >>= f).Holds Q := by
  have h_silent : (silent p).Holds fun _ notes => notes = [] := by
    refine Process.Yields.map (h.mono ?_)
    rintro ds b rfl
    exact ⟨rfl, rfl⟩
  refine h_silent.bind ?_
  rintro b notes rfl
  exact h_f b

theorem tried {a : Action} {failure : α → Option Failure} {p : Process α}
    (h : p.Yields (fun ds x => Q x [.tried a ds (failure x)]) []) : (Account.tried a failure p).Holds Q := by
  refine Process.Yields.map (h.noting.mono ?_)
  rintro ds ⟨x, ds'⟩ ⟨rfl, h_x⟩
  exact ⟨List.append_nil _, h_x⟩

theorem giving {Q : ActionResult → List Note → Prop} {p : Account ActionResult}
    (h : p.Holds fun r notes => Q r (notes ++ [.gave r])) : p.giving.Holds Q := by
  refine Process.Yields.map (Process.Yields.mono h ?_)
  rintro ds x ⟨rfl, h_x⟩
  refine ⟨?_, h_x⟩
  rw [Note.told_append]
  exact List.append_nil _

end Holds

end Account

/-- What holds wherever what an action tries has ended: of the deeds done for it and of the failure. A loop
tries nothing by itself. -/
def Action.Attempts (P : List Deed → Option Failure → Prop) : Action → Prop
  | .call c _ => (executeCall c).Yields (fun ds r => P ds r.failure) []
  | .condition check _ _ _ _ => (evaluate check).Yields (fun ds answer => P ds (checkFailure answer)) []
  | .loop .. => True
  | .templateMatch s _ => (executeSearch s).Yields (fun ds r => P ds r.failure) []
  | .readText t _ => (executeReading t).Yields (fun ds r => P ds r.failure) []
  | .wait duration _ => (executeWait (Span.ofSeconds duration)).Yields (fun ds r => P ds r.failure) []
  | .setVariable name value _ => (executeAssignment name value).Yields (fun ds r => P ds r.failure) []
  | .restart _ => executeRestart.Yields (fun ds r => P ds r.failure) []
  | .unsupported kind => P [] (some ⟨(EngineError.unsupportedAction kind).message, .fatal⟩)

/-- A property of a failure and of notes that goes from the parts of a run to the whole: the notes of what
comes first may be put before the others if it did not fail. -/
structure Composes (Q : Option Failure → List Note → Prop) : Prop where
  /-- Nothing is told and nothing fails. -/
  nothing : Q none []
  /-- The run is found cancelled. -/
  cancelled : Q ActionResult.cancelled.failure []
  /-- A result is told behind what led to it. -/
  gave : ∀ r notes, Q r.failure notes → Q r.failure (notes ++ [.gave r])
  /-- One thing after another. -/
  append : ∀ o notes notes', Q none notes → Q o notes' → Q o (notes ++ notes')

/-- How a pass failed, if it did. -/
def PassEnd.failure : PassEnd → Option Failure
  | .failed r => r.failure
  | .finished | .broken | .cancelled => none

theorem yields_pause (time : Span) : (Process.pause time).Yields (fun ds _ => ds = []) [] := by
  unfold Process.pause
  split <;> exact fun _ => rfl

/-- A property of failures and notes holds at every end of an account behind what was told before. -/
def Account.Keeps {α : Type} (Q : Option Failure → List Note → Prop) (failure : α → Option Failure)
    (before : List Note) (p : Account α) : Prop :=
  p.Holds fun a notes => Q (failure a) (before ++ notes)

namespace Account.Keeps

variable {α β : Type} {Q : Option Failure → List Note → Prop} {failure : α → Option Failure}
  {failure' : β → Option Failure} {before : List Note} {p : Account α}

theorem pure {a : α} (h : Q (failure a) before) : (Pure.pure a : Account α).Keeps Q failure before := by
  refine Holds.pure ?_
  rw [List.append_nil]
  exact h

theorem silent_bind {p : Process β} {f : β → Account α} (h : p.Yields (fun ds _ => ds = []) [])
    (h_f : ∀ b, (f b).Keeps Q failure before) : (silent p >>= f).Keeps Q failure before :=
  Holds.silent_bind h h_f

theorem bind {f : α → Account β} (h : p.Keeps Q failure before)
    (h_f : ∀ a notes, Q (failure a) notes → (f a).Keeps Q failure' notes) :
    (p >>= f).Keeps Q failure' before := by
  refine Holds.bind h fun a notes h_a => Process.Yields.mono (h_f a _ h_a) ?_
  rintro ds x ⟨h_told, h_x⟩
  rw [List.append_assoc] at h_x
  exact ⟨h_told, h_x⟩

end Account.Keeps

namespace Composes

variable {Q : Option Failure → List Note → Prop} (h : Composes Q)
include h

/-- What follows a success. -/
theorem behind {α : Type} {failure : α → Option Failure} {before : List Note} {p : Account α}
    (h_before : Q none before) (h_p : p.Keeps Q failure []) : p.Keeps Q failure before :=
  Process.Yields.mono h_p fun _ x h_x => ⟨h_x.1, h.append _ before x.2 h_before h_x.2⟩

/-- The cancellation is found behind a success. -/
theorem stopped {r : ActionResult} {before : List Note} (h_before : Q none before)
    (h_r : r.failure = ActionResult.cancelled.failure) :
    (Pure.pure r : Account ActionResult).Keeps Q ActionResult.failure before := by
  refine h.behind h_before (.pure ?_)
  rw [h_r]
  exact h.cancelled

theorem giving {p : Account ActionResult} {before : List Note} (h_p : p.Keeps Q ActionResult.failure before) :
    p.giving.Keeps Q ActionResult.failure before := by
  refine Holds.giving (Process.Yields.mono h_p ?_)
  rintro ds x ⟨h_told, h_x⟩
  refine ⟨h_told, ?_⟩
  show Q x.1.failure (before ++ (x.2 ++ [.gave x.1]))
  rw [← List.append_assoc]
  exact h.gave x.1 _ h_x

theorem guardedAccount (isLeaf : Bool) {body : Account ActionResult}
    (h_body : body.Keeps Q ActionResult.failure []) :
    (guardedAccount isLeaf body).Keeps Q ActionResult.failure [] := by
  refine h.giving (.silent_bind (fun _ => rfl) fun cancelled => ?_)
  cases cancelled with
  | true => exact .pure h.cancelled
  | false =>
    refine h_body.bind fun r notes h_r => ?_
    split
    · exact .silent_bind rfl fun _ => .pure h_r
    · exact .pure h_r

theorem leafAccount (a : Action) {body : Process ActionResult}
    (h_body : body.Yields (fun ds r => Q r.failure [.tried a ds r.failure]) []) :
    (leafAccount a body).Keeps Q ActionResult.failure [] :=
  h.guardedAccount true (.tried h_body)

theorem loopAccount (interval : Span) {pass : Account PassEnd} (h_pass : pass.Keeps Q PassEnd.failure [])
    (remaining made : ℕ) : (loopAccount interval pass remaining made).Keeps Q ActionResult.failure [] := by
  induction remaining generalizing made with
  | zero => exact .pure h.nothing
  | succ remaining ih =>
    refine .silent_bind (fun _ => rfl) fun cancelled => ?_
    cases cancelled with
    | true => exact .pure h.cancelled
    | false =>
      -- what a pass noted stays in front of what the next ones note
      refine h_pass.bind fun passEnd notes h_notes => ?_
      cases passEnd with
      | failed r => exact .pure h_notes
      | broken => exact .pure h_notes
      | cancelled => exact h.stopped h_notes rfl
      | finished =>
        simp only
        split
        · exact .pure h_notes
        · refine .silent_bind (yields_pause interval) fun passed => ?_
          cases passed with
          | false => exact h.stopped h_notes rfl
          | true => exact h.behind h_notes (ih (made + 1))

/-- A condition, of which each branch is a sequence. -/
theorem branch {branch : Account ActionResult} (outcome : Bool) (h_branch : branch.Keeps Q ActionResult.failure []) :
    (branch.giving >>= fun r =>
      if r.success then Pure.pure (ActionResult.ok (.object [("condition_result", .bool outcome)]))
      else Pure.pure r).Keeps Q ActionResult.failure [] := by
  refine (h.giving h_branch).bind fun r notes h_r => ?_
  split
  · next h_success =>
    -- the result is another one, but a success as well
    rw [Option.isNone_iff_eq_none.mp h_success] at h_r
    exact .pure h_r
  · exact .pure h_r

mutual

theorem account (a : Action) (h_tried : ∀ b ∈ a.walk, b.Attempts fun ds o => Q o [.tried b ds o]) :
    a.account.Keeps Q ActionResult.failure [] := by
  match a with
  | .call c d => exact h.leafAccount _ (h_tried _ (List.mem_singleton_self _))
  | .condition check onTrue onFalse breakOnTrue d =>
    rw [Action.walk] at h_tried
    -- the parts of a condition are walked: itself, then each branch
    have h_check : (Account.tried (.condition check onTrue onFalse breakOnTrue d) checkFailure
        (evaluate check)).Keeps Q checkFailure [] := .tried (h_tried _ List.mem_cons_self)
    have h_true : (Action.accountAll onTrue (.ok .null)).Keeps Q ActionResult.failure [] :=
      accountAll onTrue _ rfl fun b h_b => h_tried b (List.mem_cons_of_mem _ (List.mem_append_left _ h_b))
    have h_false : (Action.accountAll onFalse (.ok .null)).Keeps Q ActionResult.failure [] :=
      accountAll onFalse _ rfl fun b h_b => h_tried b (List.mem_cons_of_mem _ (List.mem_append_right _ h_b))
    refine h.guardedAccount false (h_check.bind fun answer notes h_notes => ?_)
    cases answer with
    | error e => exact .pure h_notes
    | ok outcome =>
      cases outcome with
      | true => exact h.behind h_notes (h.branch true h_true)
      | false => exact h.behind h_notes (h.branch false h_false)
  -- a loop tries nothing itself, its pass does
  | .loop interval n body d =>
    rw [Action.walk] at h_tried
    have h_pass : (Action.accountPass body).Keeps Q PassEnd.failure [] :=
      accountPass body fun b h_b => h_tried b (List.mem_cons_of_mem _ h_b)
    exact h.guardedAccount false (h.loopAccount _ h_pass n 0)
  | .templateMatch s d => exact h.leafAccount _ (h_tried _ (List.mem_singleton_self _))
  | .readText t d => exact h.leafAccount _ (h_tried _ (List.mem_singleton_self _))
  | .wait duration d => exact h.leafAccount _ (h_tried _ (List.mem_singleton_self _))
  | .setVariable name value d => exact h.leafAccount _ (h_tried _ (List.mem_singleton_self _))
  | .restart d => exact h.leafAccount _ (h_tried _ (List.mem_singleton_self _))
  | .unsupported kind => exact h.leafAccount _ (h_tried _ (List.mem_singleton_self _))

theorem accountAll (actions : List Action) (last : ActionResult) (h_last : last.failure = none)
    (h_tried : ∀ b ∈ Action.walkList actions, b.Attempts fun ds o => Q o [.tried b ds o]) :
    (Action.accountAll actions last).Keeps Q ActionResult.failure [] := by
  match actions with
  | [] =>
    refine .pure ?_
    rw [h_last]
    exact h.nothing
  | a :: rest =>
    rw [Action.walkList] at h_tried
    refine .silent_bind (fun _ => rfl) fun cancelled => ?_
    cases cancelled with
    | true => exact .pure h.cancelled
    | false =>
      refine (account a fun b h_b => h_tried b (List.mem_append_left _ h_b)).bind fun r notes h_r => ?_
      split
      · next h_success =>
        -- behind a success, the rest is an account of its own
        have h_none : r.failure = none := Option.isNone_iff_eq_none.mp h_success
        rw [h_none] at h_r
        exact h.behind h_r (accountAll rest r h_none fun b h_b => h_tried b (List.mem_append_right _ h_b))
      · exact .pure h_r

theorem accountPass (actions : List Action)
    (h_tried : ∀ b ∈ Action.walkList actions, b.Attempts fun ds o => Q o [.tried b ds o]) :
    (Action.accountPass actions).Keeps Q PassEnd.failure [] := by
  match actions with
  | [] => exact .pure h.nothing
  | a :: rest =>
    rw [Action.walkList] at h_tried
    refine .silent_bind (fun _ => rfl) fun cancelled => ?_
    cases cancelled with
    | true => exact .pure h.nothing
    | false =>
      refine (account a fun b h_b => h_tried b (List.mem_append_left _ h_b)).bind fun r notes h_r => ?_
      split
      · -- a pass goes on only behind a success, which left no failure in the notes
        next h_success =>
        rw [Option.isNone_iff_eq_none.mp h_success] at h_r
        refine .silent_bind rfl fun _ => ?_
        split
        · exact .pure h_r
        · exact h.behind h_r (accountPass rest fun b h_b => h_tried b (List.mem_append_right _ h_b))
      · exact .pure h_r

end

end Composes

/-- What the end of the run of a script makes of the failure of its actions: it is the end of the run, unless
the run is found cancelled. -/
def RunEnd.Concludes (e : RunEnd) (o : Option Failure) : Prop :=
  (∃ executed result, e = .cancelled executed result) ∨ e.failure = o ∧ ∀ f, o = some f → e.state = .failed

theorem Composes.scriptAccount {Q : Option Failure → List Note → Prop} (h : Composes Q)
    (actions : List Action) (executed : ℕ) (result : Value)
    (h_tried : ∀ b ∈ Action.walkList actions, b.Attempts fun ds o => Q o [.tried b ds o]) :
    (scriptAccount actions executed result).Holds fun e notes => ∃ o, Q o notes ∧ e.Concludes o := by
  induction actions generalizing executed result with
  | nil => exact .pure ⟨none, h.nothing, .inr ⟨rfl, fun f h_f => by cases h_f⟩⟩
  | cons a rest ih =>
    rw [Action.walkList] at h_tried
    have h_rest := fun executed result =>
      ih executed result fun b h_b => h_tried b (List.mem_append_right _ h_b)
    refine .silent_bind (fun _ => rfl) fun cancelled => ?_
    cases cancelled with
    | true => exact .pure ⟨none, h.nothing, .inl ⟨_, _, rfl⟩⟩
    | false =>
      have h_action := h.account a fun b h_b => h_tried b (List.mem_append_left _ h_b)
      refine Holds.bind h_action fun r notes h_r => .silent_bind (fun _ => rfl) fun cancelled => ?_
      obtain ⟨data, failure⟩ := r
      cases cancelled with
      | true =>
        -- a failure of the action is told, but not what the script ends with
        refine .pure ⟨failure, ?_, .inl ⟨_, _, rfl⟩⟩
        rw [List.append_nil]
        exact h_r
      | false =>
        cases failure with
        | some f =>
          refine .pure ⟨some f, ?_, .inr ⟨rfl, fun _ _ => rfl⟩⟩
          rw [List.append_nil]
          exact h_r
        | none =>
          refine Process.Yields.mono (h_rest (executed + 1) data) ?_
          rintro ds x ⟨h_told, o, h_o, h_e⟩
          exact ⟨h_told, o, h.append o notes x.2 h_r h_o, h_e⟩

/-! ### Journeys and their accounts -/

namespace Account

variable {α : Type} {p : Account α} {c c' : RunContext} {ds : List Deed} {a : α} {notes : List Note}

/-- A journey from one context to another ends with a result, and this is what the account tells of it. -/
def Recounts (p : Account α) (c : RunContext) (ds : List Deed) (a : α) (notes : List Note) (c' : RunContext) :
    Prop :=
  Going.Journey (α := α × List Note) ⟨p, c, false⟩ ds ⟨.done (a, notes), c', false⟩

/-- **The journeys of an account are those of the process.** -/
theorem recounts_iff {q : Process α} (h : p.erase = q) :
    Going.Journey ⟨q, c, false⟩ ds ⟨.done a, c', false⟩ ↔ ∃ notes, p.Recounts c ds a notes c' := by
  subst h
  refine Going.journey_map_iff.trans ⟨?_, ?_⟩
  · rintro ⟨⟨_, notes⟩, rfl, h_account⟩
    exact ⟨notes, h_account⟩
  · rintro ⟨notes, h_account⟩
    exact ⟨(a, notes), rfl, h_account⟩

/-- An account tells of all deeds of the run. -/
theorem Holds.recounts {Q : α → List Note → Prop} (h : p.Holds Q) (h_recounts : p.Recounts c ds a notes c') :
    Note.told notes = Deed.own ds ∧ Q a notes :=
  h_recounts.yields h

end Account

end ScriptYard
