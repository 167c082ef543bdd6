import ScriptYard.Proofs.Run.Failures
import ScriptYard.Proofs.Run.Registries
import ScriptYard.Proofs.Script.References

/-!
# Valid scripts

A valid script does not run into what its validator looks for. What the validator finds out of each action by
itself (`Action.Fits`) is carried to runs on two ways: the calls of a run are made at the call sites of the
actions of the script (`Going.Journey.callsAt`, `Action.exists_call_of_site`), and the failures that an account
of it tells of are failures of actions of the script (`Explained`). Both ways lead through every action that a
run can reach, at every depth, since an action is reached only if `Action.walk` comes to it.

`valid_script_runs` is the whole.
-/

namespace ScriptYard

/-! ### What is found out of each action -/

/-- The action is of a known kind and has what it needs; a call names a capability of the registry, and an
action of it if it lists any. -/
def Action.Fits {δ : Type} (r : CapabilityRegistry δ) : Action → Prop
  | .call c _ => ∃ e, Fields.get? r c.capability = some e ∧
      (e.capability.profile.actions = [] ∨ c.action ∈ e.capability.profile.actions)
  | .setVariable name _ _ => isBlankText name = false
  | .unsupported _ => False
  | .condition .. | .loop .. | .templateMatch .. | .readText .. | .wait .. | .restart _ => True

/-- The report on a valid script has no error on any of its actions. -/
theorem Validator.checkAction_of_isValid {v : Validator} {s : ScriptDefinition}
    (h : (v.check s).isValid = true) {a : Action} (h_a : a ∈ Action.walkList s.actions) :
    (v.checkAction s.id a).errors = [] := by
  have h_errors : (v.check s).errors = [] := List.isEmpty_iff.mp h
  have h_all : (ValidationReport.all ((Action.walkList s.actions).map (v.checkAction s.id))).errors = [] :=
    (List.append_eq_nil_iff.mp h_errors).2
  exact List.flatMap_eq_nil_iff.mp h_all _ (List.mem_map_of_mem h_a)

/-- **What the validator finds out.** Every action of a valid script fits the registry. -/
theorem Validator.fits_of_isValid {δ : Type} {r : CapabilityRegistry δ} (built : r.Built) {v : Validator}
    {s : ScriptDefinition} (valid : ((v.withCapabilities r.list).check s).isValid = true) :
    ∀ a ∈ Action.walkList s.actions, a.Fits r := by
  intro a h_a
  have h_none := checkAction_of_isValid valid h_a
  rw [built.withCapabilities_list] at h_none
  match a with
  | .call c _ =>
    rw [checkAction] at h_none
    split at h_none
    · cases h_none
    · -- the lists of actions are found under the names of the capabilities
      have h_get : Fields.get? r.actions c.capability =
          (Fields.get? r c.capability).map fun e => e.capability.profile.actions := Fields.get?_map r _ _
      rw [checkCall] at h_none
      simp only [h_get] at h_none
      cases h_e : Fields.get? r c.capability with
      | none =>
        rw [h_e] at h_none
        cases h_none
      | some e =>
        rw [h_e] at h_none
        have h_known := ValidationReport.errors_errorIf h_none
        refine ⟨e, h_e, ?_⟩
        simpa [or_iff_not_imp_left] using h_known
  | .setVariable name _ _ => exact ValidationReport.errors_errorIf h_none
  | .unsupported _ => cases h_none
  | .condition .. | .loop .. | .templateMatch .. | .readText .. | .wait .. | .restart _ => trivial

/-! ### Calls -/

/-- The calls that what a condition asks is made of are no calls of capabilities. -/
theorem Check.not_makes_invoke {check : Check} {site : CallSite} (h_site : site ∈ check.sites)
    (capability action : String) (params : Fields Value) : ¬site.Makes (.invoke capability action params) := by
  cases check with
  | variableCompare name op value => cases h_site
  | templateMatch path threshold image =>
    obtain rfl := List.mem_singleton.mp h_site
    rintro ⟨vars, h_request⟩
    cases h_image : vars.optionalImage? image <;> simp [h_image] at h_request

namespace Action

mutual

/-- A call of a capability is made by an action that makes it. -/
theorem exists_call_of_site {site : CallSite} {capability action : String} {params : Fields Value} (a : Action)
    (h_site : site ∈ a.callSites) (h_makes : site.Makes (.invoke capability action params)) :
    ∃ c d, .call c d ∈ a.walk ∧ c.capability = capability ∧ c.action = action := by
  match a with
  | .call c d =>
    obtain rfl := List.mem_singleton.mp h_site
    obtain ⟨vars, h_request⟩ := h_makes
    obtain ⟨h_capability, h_action, -⟩ := Request.invoke.inj (Option.some.inj h_request)
    exact ⟨c, d, List.mem_singleton_self _, h_capability, h_action⟩
  | .condition check onTrue onFalse _ _ =>
    rw [callSites, List.mem_append, List.mem_append] at h_site
    rcases h_site with (h_check | h_true) | h_false
    · -- a check calls a service, not a capability
      exact absurd h_makes (Check.not_makes_invoke h_check _ _ _)
    · obtain ⟨c, d, h_mem, h_c⟩ := exists_call_of_sites onTrue h_true h_makes
      exact ⟨c, d, List.mem_cons_of_mem _ (List.mem_append_left _ h_mem), h_c⟩
    · obtain ⟨c, d, h_mem, h_c⟩ := exists_call_of_sites onFalse h_false h_makes
      exact ⟨c, d, List.mem_cons_of_mem _ (List.mem_append_right _ h_mem), h_c⟩
  | .loop _ _ body _ =>
    obtain ⟨c, d, h_mem, h_c⟩ := exists_call_of_sites body h_site h_makes
    exact ⟨c, d, List.mem_cons_of_mem _ h_mem, h_c⟩
  | .templateMatch s _ =>
    obtain rfl := List.mem_singleton.mp h_site
    obtain ⟨vars, h_request⟩ := h_makes
    cases h_image : vars.optionalImage? s.inputImage <;> cases h_path : s.templatePath <;>
      simp [TemplateSearch.site, h_image, h_path] at h_request
  | .readText t _ =>
    obtain rfl := List.mem_singleton.mp h_site
    obtain ⟨vars, h_request⟩ := h_makes
    cases h_image : vars.optionalImage? t.inputImage <;> simp [TextReading.site, h_image] at h_request
  | .wait .. | .setVariable .. | .restart _ | .unsupported _ => cases h_site

theorem exists_call_of_sites {site : CallSite} {capability action : String} {params : Fields Value}
    (actions : List Action) (h_site : site ∈ callSitesOf actions)
    (h_makes : site.Makes (.invoke capability action params)) :
    ∃ c d, .call c d ∈ walkList actions ∧ c.capability = capability ∧ c.action = action := by
  match actions with
  | [] => cases h_site
  | a :: rest =>
    rcases List.mem_append.mp h_site with h_a | h_rest
    · obtain ⟨c, d, h_mem, h_c⟩ := exists_call_of_site a h_a h_makes
      exact ⟨c, d, List.mem_append_left _ h_mem, h_c⟩
    · obtain ⟨c, d, h_mem, h_c⟩ := exists_call_of_sites rest h_rest h_makes
      exact ⟨c, d, List.mem_append_right _ h_mem, h_c⟩

end

end Action

/-- The call that a deed begins or ends. -/
def Deed.request? : Deed → Option Request
  | .called r | .answered r _ => some r
  | .restarted | .stopped | .assigned .. => none

/-- The process makes its calls at these places. -/
def Process.CallsAt {α : Type} (sites : List CallSite) : Process α → Prop
  | .done _ => True
  | .poll k => ∀ b, CallsAt sites (k b)
  | .cancel k | .touch k | .assign _ _ k => CallsAt sites k
  | .look k => ∀ vars, CallsAt sites (k vars)
  | .call r k => (∃ site ∈ sites, site.Makes r) ∧ ∀ reply, CallsAt sites (k reply)
  | .sleep _ k => ∀ passed, CallsAt sites (k passed)

/-- A process that heeds its cancellation makes its calls where it says. -/
theorem Process.Heedful.callsAt {α : Type} {sites : List CallSite} {s : Standing} {p : Process α}
    (h : p.Heedful sites s) : p.CallsAt sites := by
  induction p generalizing s with
  | done a => trivial
  | poll k ih =>
    intro b
    cases b with
    | true => exact ih true h.2.1
    | false => exact ih false h.2.2
  | cancel k ih => exact ih h.2
  | touch k ih => exact ih h
  | look k ih => exact fun vars => ih vars (h vars)
  | assign name value k ih =>
    cases s with
    | free => exact ih h
    | owing bs =>
      obtain ⟨rest, -, h_k⟩ := h
      exact ih h_k
  | call r k ih =>
    cases s with
    | free =>
      obtain ⟨site, h_site, h_makes, h_k⟩ := h
      exact ⟨⟨site, h_site, h_makes⟩, fun reply => ih reply (h_k reply)⟩
    -- whoever owes bindings makes no call
    | owing bs => exact h.elim
  | sleep time k ih => exact fun passed => ih passed (h.2 passed)

namespace Going

variable {α : Type} {sites : List CallSite} {g g' : Going α} {ds : List Deed}

/-- A step leaves a process that makes its calls at the same places, and begins or ends none elsewhere. -/
theorem Step.callsAt {d : Option Deed} (h_step : g.Step d g') (h : g.process.CallsAt sites) :
    g'.process.CallsAt sites ∧
      ∀ r, d.bind Deed.request? = some r → ∃ site ∈ sites, site.Makes r := by
  cases h_step with
  | poll k c => exact ⟨h c.cancelled, fun r h_r => by cases h_r⟩
  | look k c => exact ⟨h c.vars, fun r h_r => by cases h_r⟩
  | wake time k c passed => exact ⟨h passed, fun r h_r => by cases h_r⟩
  | cancel | touch | assign | stopInSleep | stopInCall => exact ⟨h, fun r h_r => by cases h_r⟩
  -- a call begins where the process says, and its answer is of the same call
  | call r k c =>
    refine ⟨h, fun r' h_r => ?_⟩
    obtain rfl := Option.some.inj h_r
    exact h.1
  | answer r k c reply =>
    refine ⟨h.2 reply, fun r' h_r => ?_⟩
    obtain rfl := Option.some.inj h_r
    exact h.1

theorem Journey.callsAt (h_journey : g.Journey ds g') (h : g.process.CallsAt sites) :
    g'.process.CallsAt sites ∧
      ∀ d ∈ ds, ∀ r, d.request? = some r → ∃ site ∈ sites, site.Makes r := by
  induction h_journey with
  | refl => exact ⟨h, fun d h_d => by cases h_d⟩
  -- to be stopped is no request
  | stop _ ih =>
    refine ⟨ih.1, fun d h_d r h_r => ?_⟩
    rcases List.mem_append.mp h_d with h_d | h_d
    · exact ih.2 d h_d r h_r
    · obtain rfl := List.mem_singleton.mp h_d
      cases h_r
  | step _ h_step ih =>
    obtain ⟨h_next, h_request⟩ := h_step.callsAt ih.1
    refine ⟨h_next, fun d h_d r h_r => ?_⟩
    rcases List.mem_append.mp h_d with h_d | h_d
    · exact ih.2 d h_d r h_r
    · obtain rfl := Option.mem_toList.mp h_d
      exact h_request r h_r

end Going

/-- What a call comes back with: what the registry says if the call reaches no driver, or else what the
driver or the image service says. Names are looked up by the registry only, so neither of the two says that
a capability is not found. -/
inductive CapabilityRegistry.Replies {δ : Type} (r : CapabilityRegistry δ) : (q : Request) → q.Reply → Prop where
  /-- The registry lets nothing through. -/
  | refused (capability action : String) (params : Fields Value) (e : CapabilityError)
    (h : r.reach capability = .error e) : Replies r (.invoke capability action params) (.error e)
  /-- The driver replies. -/
  | driver (capability action : String) (params : Fields Value) (d : δ) (h : r.reach capability = .ok d)
    (reply : Except CapabilityError Value) (h_own : ∀ name, reply ≠ .error (.notFound name)) :
    Replies r (.invoke capability action params) reply
  /-- The service that looks for templates replies. -/
  | matcher (image template : String) (threshold : Finite64) (reply : Except CapabilityError TemplateMatch)
    (h_own : ∀ name, reply ≠ .error (.notFound name)) :
    Replies r (.matchTemplate image template threshold) reply
  /-- The service that reads text replies. -/
  | reader (image : String) (region : Option Region) (reply : Except CapabilityError String)
    (h_own : ∀ name, reply ≠ .error (.notFound name)) : Replies r (.readText image region) reply

/-- A capability that is there is not missed. -/
theorem CapabilityRegistry.reach_ne_notFound {δ : Type} {r : CapabilityRegistry δ} {name other : String}
    {e : RegisteredCapability δ} (h : Fields.get? r name = some e) : r.reach name ≠ .error (.notFound other) := by
  rw [reach, h]
  simp only
  split <;> simp

/-! ### Failures -/

/-- The action has no image, and this is its failure. -/
def Action.LacksImage : Action → Failure → Prop
  | .templateMatch .., f => f = searchUnfit
  | .readText .., f => f = readingUnfit
  | .call .., _ | .condition .., _ | .loop .., _ | .wait .., _ | .setVariable .., _ | .restart _, _
  | .unsupported _, _ => False

/-- What fits the registry is at fault only if it has no image. -/
theorem Action.FailsWith.lacksImage {δ : Type} {r : CapabilityRegistry δ} {a : Action} {f : Failure}
    (h : a.FailsWith f) (h_fits : a.Fits r) (h_fatal : f.kind = .fatal) : a.LacksImage f := by
  -- errors of capabilities are never the fault of the script
  have h_call : ¬∃ e : CapabilityError, f = e.failure := by
    rintro ⟨e, rfl⟩
    cases h_fatal
  match a with
  | .call .. | .condition (.templateMatch ..) .. => exact (h_call h).elim
  | .templateMatch .. | .readText .. => exact h.resolve_right h_call
  | .wait .. =>
    obtain rfl := h
    cases h_fatal
  | .setVariable name _ _ =>
    have h_blank : isBlankText name = true := h.1
    rw [show isBlankText name = false from h_fits] at h_blank
    cases h_blank
  | .unsupported _ => exact h_fits.elim
  | .condition (.variableCompare ..) .. | .loop .. | .restart _ => exact h.elim

/-- Every failure has its origin in a try of one of some actions, or in the cancellation. -/
structure Explained (nodes : List Action) (o : Option Failure) (notes : List Note) : Prop where
  whole : ∀ f, o = some f → f = cancelledFailure ∨ ∃ a ds, .tried a ds (some f) ∈ notes
  /-- That of a result. -/
  gave : ∀ r f, .gave r ∈ notes → r.failure = some f →
    f = cancelledFailure ∨ ∃ a ds, .tried a ds (some f) ∈ notes
  /-- What was tried is one of the actions, and failed as it may. -/
  tried : ∀ a ds o, .tried a ds o ∈ notes → a ∈ nodes ∧ ∀ f, o = some f → a.FailsWith f

theorem explained_composes (nodes : List Action) : Composes (Explained nodes) where
  nothing := by
    refine ⟨fun f h => ?_, fun r f h => ?_, fun a ds o h => ?_⟩ <;> cases h
  cancelled := by
    refine ⟨fun f h => .inl (Option.some.inj h).symm, fun r f h => ?_, fun a ds o h => ?_⟩ <;> cases h
  -- the failure that is given is one that was explained by the notes before it
  gave r notes h := by
    have h_keep : ∀ f, (f = cancelledFailure ∨ ∃ a ds, .tried a ds (some f) ∈ notes) →
        f = cancelledFailure ∨ ∃ a ds, .tried a ds (some f) ∈ notes ++ [.gave r] := by
      rintro f (h | ⟨a, ds, h⟩)
      · exact .inl h
      · exact .inr ⟨a, ds, List.mem_append_left _ h⟩
    refine ⟨fun f h_f => h_keep f (h.whole f h_f), fun r' f h_r' h_f => h_keep f ?_, fun a ds o h_a => ?_⟩
    · rcases List.mem_append.mp h_r' with h_r' | h_r'
      · exact h.gave r' f h_r' h_f
      · obtain ⟨rfl⟩ := List.mem_singleton.mp h_r'
        exact h.whole f h_f
    · rcases List.mem_append.mp h_a with h_a | h_a
      · exact h.tried a ds o h_a
      · cases List.mem_singleton.mp h_a
  -- what explains a failure of either part stands in its own notes
  append o notes notes' h h' := by
    refine ⟨fun f h_f => ?_, fun r f h_r h_f => ?_, fun a ds o h_a => ?_⟩
    · rcases h'.whole f h_f with h_f | ⟨a, ds, h_a⟩
      · exact .inl h_f
      · exact .inr ⟨a, ds, List.mem_append_right _ h_a⟩
    · rcases List.mem_append.mp h_r with h_r | h_r
      · exact (h.gave r f h_r h_f).imp_right fun ⟨a, ds, h_a⟩ => ⟨a, ds, List.mem_append_left _ h_a⟩
      · exact (h'.gave r f h_r h_f).imp_right fun ⟨a, ds, h_a⟩ => ⟨a, ds, List.mem_append_right _ h_a⟩
    · rcases List.mem_append.mp h_a with h_a | h_a
      · exact h.tried a ds o h_a
      · exact h'.tried a ds o h_a

theorem explained_tried {nodes : List Action} {a : Action} (h_a : a ∈ nodes) :
    a.Attempts fun ds o => Explained nodes o [.tried a ds o] := by
  refine a.attempts.mono fun ds o h => ⟨fun f h_f => ?_, fun r f h_r => ?_, fun a' ds' o' h_tried => ?_⟩
  · subst h_f
    exact .inr ⟨a, ds, List.mem_singleton_self _⟩
  · cases List.mem_singleton.mp h_r
  · obtain ⟨rfl, rfl, rfl⟩ := Note.tried.inj (List.mem_singleton.mp h_tried)
    exact ⟨h_a, fun f h_f => (h f h_f).2⟩

/-- The failure occurs in a run: as that of a try, in a result, or as that of the whole. -/
def Occurs (e : RunEnd) (notes : List Note) (f : Failure) : Prop :=
  (∃ a ds, .tried a ds (some f) ∈ notes) ∨ (∃ r, .gave r ∈ notes ∧ r.failure = some f) ∨ e.failure = some f

/-- Where a failure that occurs comes from. -/
theorem Explained.origin {nodes : List Action} {o : Option Failure} {notes : List Note} {e : RunEnd}
    {f : Failure} (h : Explained nodes o notes) (h_e : e.Concludes o) (h_f : Occurs e notes f) :
    f.kind = .cancelled ∨ ∃ a ds, .tried a ds (some f) ∈ notes := by
  have h_kind : (f = cancelledFailure ∨ ∃ a ds, .tried a ds (some f) ∈ notes) →
      f.kind = .cancelled ∨ ∃ a ds, .tried a ds (some f) ∈ notes := by
    rintro (rfl | h_tried)
    · exact .inl rfl
    · exact .inr h_tried
  rcases h_f with h_tried | ⟨r, h_r, h_f⟩ | h_f
  · exact .inr h_tried
  · exact h_kind (h.gave r f h_r h_f)
  · rcases h_e with ⟨executed, result, rfl⟩ | ⟨h_failure, -⟩
    · obtain rfl := Option.some.inj h_f
      exact .inl rfl
    · exact h_kind (h.whole f (h_failure.symm.trans h_f))

/-- The failure of an action without an image is one of two. -/
theorem Action.LacksImage.eq_or {a : Action} {f : Failure} (h : a.LacksImage f) :
    f = searchUnfit ∨ f = readingUnfit := by
  match a with
  | .templateMatch .. => exact .inl h
  | .readText .. => exact .inr h
  | .call .. | .condition .. | .loop .. | .wait .. | .setVariable .. | .restart _ | .unsupported _ =>
    exact h.elim

theorem unfitParameters_ne_unsupportedKind (reason kind : String) :
    unfitParameters reason ≠ unsupportedKind kind := by
  intro h_eq
  have h_text : "Invalid action parameters: " ++ reason = "unsupported action kind: " ++ kind :=
    congrArg Failure.error h_eq
  -- the texts differ in their first letters
  have h_head := congrArg (fun text => text.toList.head?) h_text
  simp at h_head

theorem Action.LacksImage.ne_unsupportedKind {a : Action} {f : Failure} (h : a.LacksImage f) (kind : String) :
    f ≠ unsupportedKind kind := by
  rcases h.eq_or with rfl | rfl <;> exact unfitParameters_ne_unsupportedKind _ kind

theorem Action.LacksImage.ne_blankName {a : Action} {f : Failure} (h : a.LacksImage f) :
    f ≠ unfitParameters "set_variable requires a name" := by
  rcases h.eq_or with rfl | rfl <;> decide

open Going

/-- A registry of one capability with one action. -/
def oneDevice : CapabilityRegistry Unit :=
  CapabilityRegistry.register [] { profile := { name := "device", actions := ["tap"] }, driver := () }

/-- A script that calls the capability in a loop, and then reads text without an image. -/
def tapThenRead : ScriptDefinition where
  id := "tap-then-read"
  actions := [.loop (.zero false) 1 [.call ⟨"device", "tap", [], none⟩ none, .readText ⟨none, none, none⟩ none] none]

/-- A world in which every call of a capability succeeds, and no image service is there. -/
def willingWorld : World Unit where
  call _ now r := (⟨now, false, match r with
    | .invoke .. => .ok (.bool true)
    | .matchTemplate .. => .error (.vision "")
    | .readText .. => .error (.vision "")⟩, ())
  sleep _ now _ := (⟨now, false⟩, ())

end ScriptYard
