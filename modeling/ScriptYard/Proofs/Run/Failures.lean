import ScriptYard.Proofs.Run.Accounts

/-!
# The first failure is final

`Action.FailsWith` says how an action can fail that was tried: each kind of action has its own failures, and
an attempt that fails has bound nothing (`Action.attempts`).

What follows a failure is nothing but results: an account is `Conclusive` if behind a try that failed it tells
only of results, all of which have the same failure. Every account of a script is
(`first_failure_is_final`), so the first failure crosses all actions and sequences around it as it is.
-/

namespace ScriptYard

/-! ### How actions fail -/

/-- The failure of an error of a capability or an image service. -/
def CapabilityError.failure (e : CapabilityError) : Failure := ⟨(EngineError.capability e).message, .transient⟩

def unfitParameters (reason : String) : Failure := ⟨(EngineError.invalidParams reason).message, .fatal⟩

/-- The failure of a search for a template that has no image to look in, or no template. -/
def searchUnfit : Failure := unfitParameters "template_match requires input_image and template_path"

/-- The failure of a reading that has no image. -/
def readingUnfit : Failure := unfitParameters "ocr requires input_image"

/-- The failure of an action of an unknown kind. -/
def unsupportedKind (kind : String) : Failure := ⟨(EngineError.unsupportedAction kind).message, .fatal⟩

/-- The failure of what the cancellation ended. -/
def cancelledFailure : Failure := ⟨EngineError.cancelled.message, .cancelled⟩

/-- How an action can fail when it is tried; a condition, when what it asks is. -/
def Action.FailsWith : Action → Failure → Prop
  | .call .., f | .condition (.templateMatch ..) .., f => ∃ e : CapabilityError, f = e.failure
  | .templateMatch .., f => f = searchUnfit ∨ ∃ e : CapabilityError, f = e.failure
  | .readText .., f => f = readingUnfit ∨ ∃ e : CapabilityError, f = e.failure
  | .wait .., f => f = cancelledFailure
  | .setVariable name _ _, f =>
    isBlankText name = true ∧ f = unfitParameters "set_variable requires a name"
  | .unsupported kind, f => f = unsupportedKind kind
  | .condition (.variableCompare ..) .., _ | .loop .., _ | .restart _, _ => False

theorem callFailure_eq (e : CapabilityError) : (callFailure e).failure = some e.failure := by
  cases e <;> rfl

/-- How what was tried can end: if it failed, it has bound nothing, and its failure has a property. -/
def FailsOnly (P : Failure → Prop) (ds : List Deed) (o : Option Failure) : Prop :=
  ∀ f, o = some f → Deed.bindings ds = [] ∧ P f

namespace FailsOnly

variable {P P' : Failure → Prop} {ds : List Deed}

theorem success : FailsOnly P ds none := fun _ h => by cases h

theorem failure {f : Failure} (h_ds : Deed.bindings ds = []) (h : P f) : FailsOnly P ds (some f) := by
  rintro _ ⟨⟩
  exact ⟨h_ds, h⟩

end FailsOnly

/-- What ends with a success does not fail, whatever it does before. -/
theorem yields_success {α : Type} {P : Failure → Prop} (p : Process α) (v : Value) (ds : List Deed) :
    (p.bind fun _ => .done (ActionResult.ok v)).Yields (fun ds r => FailsOnly P ds r.failure) ds :=
  (p.yields_true ds).bind fun _ _ _ => .success

/-- The failure of a call, which was all that was done. -/
theorem failsOnly_call {P : Failure → Prop} (r : Request) (e : CapabilityError) (h : P e.failure) :
    FailsOnly P [.called r, .answered r (.error e)] (callFailure e).failure := by
  rw [callFailure_eq]
  exact .failure rfl h

theorem attempts_executeCall (c : CapabilityCall) :
    (executeCall c).Yields (fun ds r => FailsOnly (∃ e : CapabilityError, · = e.failure) ds r.failure) [] := by
  intro vars reply
  cases reply with
  | ok v => exact yields_success _ v _
  | error e => exact failsOnly_call _ e ⟨e, rfl⟩

theorem attempts_evaluate_match (path : String) (threshold : Finite64) (image : Option String) :
    (evaluate (.templateMatch path threshold image)).Yields
      (fun ds answer => FailsOnly (∃ e : CapabilityError, · = e.failure) ds (checkFailure answer)) [] := by
  intro vars
  simp only [Process.bind]
  split
  · exact .success
  · intro reply
    cases reply with
    | error e => exact failsOnly_call _ e ⟨e, rfl⟩
    | ok m =>
      -- whether the match was found or not, the attempt succeeded
      show (if m.found then (bindMatch m).bind fun _ => Process.done (Except.ok m.found)
        else Process.done (Except.ok m.found)).Yields _ _
      split
      · exact (Process.yields_true _ _).bind fun _ _ _ => .success
      · exact .success

theorem attempts_executeSearch (s : TemplateSearch) :
    (executeSearch s).Yields
      (fun ds r => FailsOnly (fun f => f = searchUnfit ∨ ∃ e : CapabilityError, f = e.failure) ds r.failure) [] := by
  intro vars
  simp only [Process.bind]
  split
  · intro reply
    cases reply with
    | error e => exact failsOnly_call _ e (.inr ⟨e, rfl⟩)
    | ok m =>
      show ((storeResult s.storeResult m.toValue).bind fun _ =>
        if m.found then (bindMatch m).bind fun _ => .done (ActionResult.ok m.toValue)
        else .done (ActionResult.ok m.toValue)).Yields _ _
      refine (Process.yields_true _ _).bind fun ds _ _ => ?_
      split
      · exact yields_success _ _ ds
      · exact .success
  · -- without a template or an image no call is made
    exact .failure rfl (.inl rfl)

theorem attempts_executeReading (t : TextReading) :
    (executeReading t).Yields
      (fun ds r => FailsOnly (fun f => f = readingUnfit ∨ ∃ e : CapabilityError, f = e.failure) ds r.failure) [] := by
  intro vars
  simp only [Process.bind]
  split
  · intro reply
    cases reply with
    | error e => exact failsOnly_call _ e (.inr ⟨e, rfl⟩)
    | ok text => exact yields_success _ _ _
  · exact .failure rfl (.inl rfl)

theorem attempts_executeWait (time : Span) :
    (executeWait time).Yields (fun ds r => FailsOnly (· = cancelledFailure) ds r.failure) [] := by
  refine (yields_pause time).bind ?_
  rintro ds passed rfl
  cases passed with
  | true => exact .success
  | false => exact .failure rfl rfl

theorem attempts_executeAssignment (name : String) (value : Value) :
    (executeAssignment name value).Yields (fun ds r => FailsOnly
      (fun f => isBlankText name = true ∧ f = unfitParameters "set_variable requires a name") ds r.failure) [] := by
  unfold executeAssignment
  split
  · next h_blank => exact .failure rfl ⟨h_blank, rfl⟩
  · exact fun vars => .success

/-- **How attempts fail.** What was done for an action that failed has bound nothing, and the failure is one
of its own. -/
theorem Action.attempts (a : Action) : a.Attempts (FailsOnly a.FailsWith) := by
  match a with
  | .call c _ => exact attempts_executeCall c
  | .condition (.templateMatch path threshold image) .. => exact attempts_evaluate_match path threshold image
  | .condition (.variableCompare ..) .. => exact fun vars => .success
  | .loop .. => trivial
  | .templateMatch s _ => exact attempts_executeSearch s
  | .readText t _ => exact attempts_executeReading t
  | .wait duration _ => exact attempts_executeWait _
  | .setVariable name value _ => exact attempts_executeAssignment name value
  | .restart _ => exact .success
  | .unsupported kind => exact .failure rfl rfl

theorem Action.Attempts.mono {P P' : List Deed → Option Failure → Prop} {a : Action} (h : a.Attempts P)
    (h_imp : ∀ ds o, P ds o → P' ds o) : a.Attempts P' := by
  match a with
  | .call .. | .condition .. | .templateMatch .. | .readText .. | .wait .. | .setVariable .. =>
    exact Process.Yields.mono h fun ds r h_r => h_imp ds _ h_r
  | .restart _ => exact h_imp [.restarted] none h
  | .loop .. => trivial
  | .unsupported kind => exact h_imp [] _ h

/-! ### What follows a failure -/

/-- The note tells of nothing but a result that has failed in this way. -/
def Note.Passes (f : Failure) : Note → Prop
  | .gave r => r.failure = some f
  | .tried .. => False

/-- Behind the first try that failed there are only results, and all of them, as the failure of the whole,
are its failure. -/
def Conclusive (o : Option Failure) : List Note → Prop
  | [] => True
  | .gave _ :: notes | .tried _ _ none :: notes => Conclusive o notes
  | .tried _ ds (some f) :: notes => o = some f ∧ Deed.bindings ds = [] ∧ ∀ n ∈ notes, n.Passes f

theorem conclusive_composes : Composes Conclusive where
  nothing := trivial
  cancelled := trivial
  -- nothing is tried behind the result that is given
  gave r notes h := by
    induction notes with
    | nil => trivial
    | cons n notes ih =>
      match n, h with
      | .gave _, h | .tried _ _ none, h => exact ih h
      | .tried _ ds (some f), ⟨h_f, h_ds, h_after⟩ =>
        refine ⟨h_f, h_ds, fun n h_n => ?_⟩
        rcases List.mem_append.mp h_n with h_n | h_n
        · exact h_after n h_n
        · obtain rfl := List.mem_singleton.mp h_n
          exact h_f
  -- the first part ended without a failure, so that no try in it failed
  append o notes notes' h h' := by
    induction notes with
    | nil => exact h'
    | cons n notes ih =>
      match n, h with
      | .gave _, h | .tried _ _ none, h => exact ih h

theorem conclusive_tried (a : Action) : a.Attempts fun ds o => Conclusive o [.tried a ds o] := by
  refine a.attempts.mono fun ds o h => ?_
  cases o with
  | none => trivial
  | some f => exact ⟨rfl, (h f rfl).1, fun n h_n => by cases h_n⟩

theorem Conclusive.split {o : Option Failure} {a : Action} {ds : List Deed} {f : Failure}
    {before after : List Note} (h : Conclusive o (before ++ .tried a ds (some f) :: after)) :
    o = some f ∧ Deed.bindings ds = [] ∧ ∀ n ∈ after, n.Passes f := by
  induction before with
  | nil => exact h
  | cons n before ih =>
    match n, h with
    | .gave _, h | .tried _ _ none, h => exact ih h
    | .tried _ _ (some f'), ⟨_, _, h_after⟩ =>
      -- a second try would not be a result
      exact (h_after (.tried a ds (some f)) (List.mem_append_right _ List.mem_cons_self)).elim

/-- A run from `c` to `c'` with the deeds `ds`, in which a try with the deeds `tried` fails between some
notes and some others: the failure is final. -/
structure FinalFailure (c c' : RunContext) (ds : List Deed) (before : List Note) (tried : List Deed)
    (f : Failure) (after : List Note) : Prop where
  /-- The try binds nothing. -/
  unbound : Deed.bindings tried = []
  /-- Nothing is tried any more: only results follow, of everything around the try, and all have its
  failure. -/
  results : ∀ n ∈ after, ∃ r, n = .gave r ∧ r.failure = some f
  /-- The run does nothing any more. -/
  deeds : Deed.own ds = Note.told before ++ tried
  /-- The variables stay as they were before the try. -/
  vars : c'.vars = c.vars.assignAll (Deed.bindings (Note.told before))

open Going

/-- A failure in a conclusive account of a journey is final. -/
theorem Conclusive.final {α : Type} {p : Process α} {x : α} {c c' : RunContext} {ds tried : List Deed}
    {o : Option Failure} {a : Action} {f : Failure} {before after : List Note}
    (h_journey : Journey ⟨p, c, false⟩ ds ⟨.done x, c', false⟩)
    (h_told : Note.told (before ++ .tried a tried (some f) :: after) = Deed.own ds)
    (h : Conclusive o (before ++ .tried a tried (some f) :: after)) :
    FinalFailure c c' ds before tried f after ∧ o = some f := by
  obtain ⟨h_o, h_unbound, h_after⟩ := h.split
  have h_results : ∀ n ∈ after, ∃ r, n = .gave r ∧ r.failure = some f := by
    intro n h_n
    have h_passes := h_after n h_n
    cases n with
    | gave r => exact ⟨r, rfl, h_passes⟩
    | tried => exact h_passes.elim
  -- results tell of no deeds
  have h_silent : Note.told after = [] := by
    refine List.flatMap_eq_nil_iff.mpr fun n h_n => ?_
    obtain ⟨r, rfl, -⟩ := h_results n h_n
    rfl
  have h_deeds : Deed.own ds = Note.told before ++ tried := by
    rw [← h_told, Note.told_append]
    show Note.told before ++ (tried ++ Note.told after) = _
    rw [h_silent, List.append_nil]
  refine ⟨⟨h_unbound, h_results, h_deeds, ?_⟩, h_o⟩
  have h_vars := h_journey.vars_eq
  rw [← Deed.bindings_own, h_deeds, Deed.bindings_append, h_unbound, List.append_nil] at h_vars
  exact h_vars

/-- The journeys of a process are those of its conclusive account, and a failure in one is final. -/
theorem Account.Keeps.final {p : Account ActionResult} {q : Process ActionResult} {c c' : RunContext}
    {ds : List Deed} {r : ActionResult} (h : p.Keeps Conclusive ActionResult.failure []) (h_erase : p.erase = q) :
    (Journey ⟨q, c, false⟩ ds ⟨.done r, c', false⟩ ↔ ∃ notes, p.Recounts c ds r notes c') ∧
      ∀ notes, p.Recounts c ds r notes c' → Note.told notes = Deed.own ds ∧
        ∀ before b tried f after, notes = before ++ .tried b tried (some f) :: after →
          FinalFailure c c' ds before tried f after ∧ r.failure = some f := by
  refine ⟨Account.recounts_iff h_erase, fun notes h_recounts => ?_⟩
  obtain ⟨h_told, h_conclusive⟩ := h.recounts h_recounts
  refine ⟨h_told, ?_⟩
  rintro before b tried f after rfl
  exact Conclusive.final h_recounts h_told h_conclusive

/-- The process ends as cancelled only if a look has found so. -/
def Process.Honest : (found : Bool) → Process RunEnd → Prop
  | found, .done e => e.state = .cancelled → found = true
  | found, .poll k => Honest true (k true) ∧ Honest found (k false)
  | found, .cancel k | found, .touch k | found, .assign _ _ k => Honest found k
  | found, .look k => ∀ vars, Honest found (k vars)
  | found, .call _ k => ∀ reply, Honest found (k reply)
  | found, .sleep _ k => ∀ passed, Honest found (k passed)

theorem Process.Honest.bind {α : Type} {f : α → Process RunEnd} (h_f : ∀ a found, (f a).Honest found)
    (p : Process α) (found : Bool) : (p.bind f).Honest found := by
  induction p generalizing found with
  | done a => exact h_f a found
  | poll k ih => exact ⟨ih true _, ih false _⟩
  | cancel k ih | touch k ih | assign name value k ih => exact ih _
  | look k ih | call r k ih | sleep time k ih => exact fun x => ih x _

theorem honest_runActions (actions : List Action) (executed : ℕ) (result : Value) (found : Bool) :
    (runActions actions executed result).Honest found := by
  induction actions generalizing executed result found with
  | nil => exact fun h => by cases h
  | cons a rest ih =>
    refine ⟨fun _ => rfl, Process.Honest.bind (fun r found => ?_) a.execute _⟩
    refine ⟨fun _ => rfl, ?_⟩
    simp only [Process.bind]
    cases r.failure with
    | some f => exact fun h => by cases h
    | none => exact ih _ _ _

/-- What a look has found is still so. -/
theorem Going.Journey.honest {g g' : Going RunEnd} {ds : List Deed} (h_journey : g.Journey ds g')
    (h : ∃ found, g.process.Honest found ∧ (found = true → g.context.cancelled = true)) :
    ∃ found, g'.process.Honest found ∧ (found = true → g'.context.cancelled = true) := by
  induction h_journey with
  | refl => exact h
  | stop _ ih =>
    obtain ⟨found, h_honest, -⟩ := ih
    exact ⟨found, h_honest, fun _ => rfl⟩
  | step _ h_step ih =>
    obtain ⟨found, h_honest, h_found⟩ := ih
    cases h_step with
    | poll k c =>
      -- the look finds what the context says
      obtain ⟨vars, cancelled, lastActivity⟩ := c
      cases cancelled with
      | true => exact ⟨true, h_honest.1, fun _ => rfl⟩
      | false => exact ⟨found, h_honest.2, h_found⟩
    | cancel k c => exact ⟨found, h_honest, fun _ => rfl⟩
    | stopInCall r k c | stopInSleep time k c => exact ⟨found, h_honest, fun _ => rfl⟩
    | touch k c now | assign name value k c | call r k c => exact ⟨found, h_honest, h_found⟩
    | look k c => exact ⟨found, h_honest c.vars, h_found⟩
    | answer r k c reply => exact ⟨found, h_honest reply, h_found⟩
    | wake time k c passed => exact ⟨found, h_honest passed, h_found⟩

/-- The run of a script ends as cancelled only if it is. -/
theorem cancelled_of_state {actions : List Action} {c c' : RunContext} {ds : List Deed} {e : RunEnd}
    (h_journey : Journey ⟨runActions actions 0 .null, c, false⟩ ds ⟨.done e, c', false⟩)
    (h_state : e.state = .cancelled) : c'.cancelled = true := by
  obtain ⟨found, h_honest, h_found⟩ := h_journey.honest
    ⟨false, honest_runActions actions 0 .null false, fun h => by cases h⟩
  exact h_found (h_honest h_state)

/-- **The first failure is final and reaches the top unchanged.** The journeys of an action, of a sequence
of actions and of a whole script, from every context, whatever the world does and whenever it cancels the run,
are those of their accounts, which tell of all their deeds. Wherever in an account a leaf or the check of a
condition fails, that is the end: the try binds nothing, nothing is tried and nothing is done behind it, and
every action and sequence around it gives exactly its failure. So do the action or the sequence as a whole;
the script is reported as failed with it unless the run is cancelled at the end. -/
theorem first_failure_is_final (c c' : RunContext) (ds : List Deed) :
    (∀ (a : Action) (r : ActionResult),
      (Journey ⟨a.execute, c, false⟩ ds ⟨.done r, c', false⟩ ↔ ∃ notes, a.account.Recounts c ds r notes c') ∧
      ∀ notes, a.account.Recounts c ds r notes c' → Note.told notes = Deed.own ds ∧
        ∀ before b tried f after, notes = before ++ .tried b tried (some f) :: after →
          FinalFailure c c' ds before tried f after ∧ r.failure = some f) ∧
    (∀ (actions : List Action) (r : ActionResult),
      (Journey ⟨Action.executeAll actions (.ok .null), c, false⟩ ds ⟨.done r, c', false⟩ ↔
        ∃ notes, (Action.accountAll actions (.ok .null)).Recounts c ds r notes c') ∧
      ∀ notes, (Action.accountAll actions (.ok .null)).Recounts c ds r notes c' →
        Note.told notes = Deed.own ds ∧
        ∀ before b tried f after, notes = before ++ .tried b tried (some f) :: after →
          FinalFailure c c' ds before tried f after ∧ r.failure = some f) ∧
    (∀ (actions : List Action) (e : RunEnd),
      (Journey ⟨runActions actions 0 .null, c, false⟩ ds ⟨.done e, c', false⟩ ↔
        ∃ notes, (scriptAccount actions 0 .null).Recounts c ds e notes c') ∧
      ∀ notes, (scriptAccount actions 0 .null).Recounts c ds e notes c' → Note.told notes = Deed.own ds ∧
        ∀ before b tried f after, notes = before ++ .tried b tried (some f) :: after →
          FinalFailure c c' ds before tried f after ∧
          (c'.cancelled = false → ∀ (i : RunInfo) begun finished,
            (i.report c' e begun finished).state = .failed ∧
            (i.report c' e begun finished).error = some f.error ∧
            (i.report c' e begun finished).failureKind = some f.kind)) := by
  refine ⟨fun a r => ?_, fun actions r => ?_, fun actions e => ?_⟩
  · have h_keeps := conclusive_composes.account a fun b _ => conclusive_tried b
    exact h_keeps.final a.erase_account
  · have h_keeps := conclusive_composes.accountAll actions (.ok .null) rfl fun b _ => conclusive_tried b
    exact h_keeps.final (Action.erase_accountAll actions _)
  · have h_holds := conclusive_composes.scriptAccount actions 0 .null fun b _ => conclusive_tried b
    refine ⟨Account.recounts_iff (erase_scriptAccount actions 0 _), fun notes h_recounts => ?_⟩
    obtain ⟨h_told, o, h, h_e⟩ := h_holds.recounts h_recounts
    refine ⟨h_told, ?_⟩
    rintro before b tried f after rfl
    obtain ⟨h_final, rfl⟩ := h.final h_recounts h_told
    refine ⟨h_final, fun h_free i begun finished => ?_⟩
    rcases h_e with ⟨executed, result, rfl⟩ | ⟨h_failure, h_state⟩
    · -- the script ends as cancelled only if it is, and `h_free` says that it is not
      have h_journey := (Account.recounts_iff (erase_scriptAccount actions 0 .null)).mpr ⟨_, h_recounts⟩
      rw [cancelled_of_state h_journey rfl] at h_free
      cases h_free
    · refine ⟨h_state f rfl, ?_, ?_⟩
      · show e.failure.map (·.error) = some f.error
        rw [h_failure]
        rfl
      · show e.failure.map (·.kind) = some f.kind
        rw [h_failure]
        rfl

/-- A loop of calls, and an assignment behind it. -/
def tapsThenAssign : List Action :=
  [.loop (.zero false) 2 [.call ⟨"device", "tap", [], none⟩ none, .wait (.zero false) none] none,
    .setVariable "later" (.bool true) none]

/-- A world in which every call fails. -/
def failingWorld : World Unit where
  call _ now _ := (⟨now, false, .error (.actionFailed "no device")⟩, ())
  sleep _ now _ := (⟨now, false⟩, ())

/-- The call in the first pass of the loop fails: nothing but its result and that of the loop is told after
it, no variable is set, and the script fails with its error. -/
theorem failing_call_ends_all : ∃ ds e notes c',
    (scriptAccount tapsThenAssign 0 .null).Recounts {} ds e notes c' ∧ c'.vars = [] ∧
      notes.length = 3 ∧
      ∀ (i : RunInfo) begun finished, (i.report c' e begun finished).error = some "no device" := by
  obtain ⟨ds, h⟩ := course_play failingWorld (scriptAccount tapsThenAssign 0 .null) ⟨0, {}, ()⟩
  obtain ⟨h_told, h_first⟩ := (first_failure_is_final {} _ ds).2.2 tapsThenAssign _ |>.2 _ h.journey
  obtain ⟨h_final, h_report⟩ := h_first [] (.call ⟨"device", "tap", [], none⟩ none) _
    ⟨"no device", .transient⟩ _ rfl
  exact ⟨ds, _, _, _, h.journey, h_final.vars, rfl, fun i begun finished => (h_report rfl i begun finished).2.1⟩

end ScriptYard
