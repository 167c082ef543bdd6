import ScriptYard.Proofs.Number.Nearest
import ScriptYard.Proofs.Run.Lulls

/-!
# Which sleeps are warned of

A validator that knows the stall threshold warns of every wait, and of every loop, that sleeps for longer. Scripts
write the time as a number of seconds, of which the validator and the run both make a span. So the number that is
warned of is not simply one above the threshold: `Finite64.Exceeds` is what the conversion makes of it.

The conversion goes to the nearest nanosecond, a tie to the even one, and a number that is a whole nanosecond above
the threshold or not above it at all is on the right side of every rounding. But from 2 ^ 64 seconds on a number
stands for no time. No wait of this size is warned of, and none is made: the warnings are about what a run does, and
not about what its script says (`stall_warnings_of_check`).
-/

namespace ScriptYard

/-! ### Numbers of seconds beyond a span -/

/-- A quotient is rounded to more than `m` if it is above the middle of `m` and `m + 1`, or is the middle and `m`
is odd. -/
theorem Binary64.lt_divNearestEven_iff {n d : ℕ} (h_d : 0 < d) (m : ℕ) :
    m < divNearestEven n d ↔ (2 * m + 1) * d < 2 * n ∨ (2 * m + 1) * d = 2 * n ∧ m % 2 = 1 := by
  have h_div : n = d * (n / d) + n % d := (Nat.div_add_mod n d).symm
  have h_mod : n % d < d := Nat.mod_lt n h_d
  unfold divNearestEven
  simp only [beq_iff_eq]
  generalize n / d = q at h_div ⊢
  generalize n % d = r at h_div h_mod ⊢
  have h_middle : (2 * m + 1) * d = 2 * (m * d) + d := by ring
  rw [h_middle, h_div, Nat.mul_comm d q]
  -- compared with the quotient: below it, the quotient itself, where the remainder decides, or above
  rcases Nat.lt_trichotomy m q with h | rfl | h
  · have h_next : m * d + d ≤ q * d := Nat.succ_mul m d ▸ Nat.mul_le_mul_right d h
    split_ifs <;> omega
  · split_ifs <;> omega
  · have h_next : q * d + d ≤ m * d := Nat.succ_mul q d ▸ Nat.mul_le_mul_right d h
    split_ifs <;> omega

namespace Finite64

variable {x : Finite64} {t : Span}

/-- The exact count of the nanoseconds in a number of seconds. -/
def nanos (x : Finite64) : ℚ := x.value * 10 ^ 9

/-- The number of seconds stands for more time than a span. -/
def Exceeds (x : Finite64) (t : Span) : Prop :=
  x.value < 2 ^ 64 ∧ (t.nanos + 1 / 2 < x.nanos ∨ x.nanos = t.nanos + 1 / 2 ∧ t.nanos % 2 = 1)

/-- A number that is not above a span does not exceed it. -/
theorem not_exceeds_of_le (h : x.nanos ≤ t.nanos) : ¬x.Exceeds t := by
  rintro ⟨-, h_more | ⟨h_tie, -⟩⟩ <;> linarith

/-- A number that is a nanosecond above a span exceeds it, if it is not too large. -/
theorem exceeds_iff_of_le (h : t.nanos + 1 ≤ x.nanos) : x.Exceeds t ↔ x.value < 2 ^ 64 := by
  refine and_iff_left (.inl ?_)
  linarith

theorem value_nonpos (h : x.negative = true) : x.value ≤ 0 := by
  rw [x.value_eq, if_pos h, neg_nonpos]
  exact x.magnitude_nonneg

theorem value_of_nonneg (h : x.negative = false) : x.value = x.quotient.1 / x.quotient.2 := by
  rw [value, numerator, h, if_neg Bool.false_ne_true, Int.cast_natCast]

/-- The span of a number of seconds is the nearest one to it, unless it is negative or too large. -/
theorem ofSeconds_eq (x : Finite64) : Span.ofSeconds x = if x.negative = true ∨ 2 ^ 64 ≤ x.value then .zero
    else ⟨Binary64.divNearestEven (x.quotient.1 * 1000000000) x.quotient.2⟩ := by
  unfold Span.ofSeconds
  cases h : x.negative with
  | true => simp
  | false =>
    have h_huge : twoTo 64 * x.quotient.2 ≤ x.quotient.1 ↔ 2 ^ 64 ≤ x.value := by
      rw [value_of_nonneg h, le_div_iff₀ x.cast_quotient_pos]
      exact_mod_cast Iff.rfl
    simp [h_huge]

/-- From 2 ^ 64 seconds on, a number stands for no time. -/
theorem ofSeconds_eq_zero (h : 2 ^ 64 ≤ x.value) : Span.ofSeconds x = .zero := by
  rw [ofSeconds_eq, if_pos (.inr h)]

/-- **The span of a number of seconds is longer than another one** if the number exceeds that. -/
theorem lt_ofSeconds_iff : t < Span.ofSeconds x ↔ x.Exceeds t := by
  rw [ofSeconds_eq]
  split
  · next h =>
    refine iff_of_false (Nat.not_lt_zero _) ?_
    rcases h with h_negative | h_huge
    · refine not_exceeds_of_le (le_trans ?_ (Nat.cast_nonneg _))
      exact mul_nonpos_of_nonpos_of_nonneg (value_nonpos h_negative) (by norm_num)
    · exact fun h => absurd h.1 (not_lt.mpr h_huge)
  · next h =>
    rw [not_or, Bool.not_eq_true, not_le] at h
    have h_pos := x.cast_quotient_pos
    -- both sides compare the nanoseconds with the middle between two spans
    have h_nanos : x.nanos = ((x.quotient.1 * 1000000000 : ℕ) : ℚ) / x.quotient.2 := by
      rw [nanos, value_of_nonneg h.1]
      push_cast
      ring
    refine (Binary64.lt_divNearestEven_iff x.quotient_pos t.nanos).trans ?_
    rw [Exceeds, and_iff_right h.2, h_nanos]
    generalize x.quotient.1 * 1000000000 = n
    rw [lt_div_iff₀ h_pos, div_eq_iff h_pos.ne']
    have h_left : ((2 * t.nanos + 1) * x.quotient.2 < 2 * n) ↔ ((t.nanos : ℚ) + 1 / 2) * x.quotient.2 < n := by
      rw [← Nat.cast_lt (α := ℚ)]
      push_cast
      constructor <;> intro h <;> linarith
    have h_middle : ((2 * t.nanos + 1) * x.quotient.2 = 2 * n) ↔ (n : ℚ) = ((t.nanos : ℚ) + 1 / 2) * x.quotient.2 := by
      rw [← Nat.cast_inj (R := ℚ)]
      push_cast
      constructor <;> intro h <;> linarith
    rw [h_left, h_middle]

instance : Decidable (x.Exceeds t) := decidable_of_iff _ lt_ofSeconds_iff

end Finite64

/-! ### Warnings of long sleeps -/

namespace Action

/-- The number of seconds that an action by itself sleeps for. -/
def seconds? : Action → Option Finite64
  | .wait duration _ => some duration
  | .loop interval .. => some interval
  | _ => none

theorem sleep?_eq (a : Action) : a.sleep? = a.seconds?.map Span.ofSeconds := by
  cases a <;> rfl

/-- The warning that an action by itself calls for, if its number of seconds exceeds the threshold. -/
def stallWarning? (script : String) (T : Span) : Action → Option ValidationWarning
  | .wait duration _ => if duration.Exceeds T then some (.longWait script duration T) else none
  | .loop interval .. => if interval.Exceeds T then some (.longInterval script interval T) else none
  | _ => none

theorem isSome_stallWarning? {a : Action} {x : Finite64} (h : a.seconds? = some x) (script : String) (T : Span) :
    (a.stallWarning? script T).isSome ↔ x.Exceeds T := by
  cases a with
  | wait | loop =>
    obtain rfl := Option.some.inj h
    simp [stallWarning?]
  | call | condition | templateMatch | readText | setVariable | restart | unsupported => cases h

end Action

/-- The warnings that the sleeps of a script call for, in the order of its actions. -/
def ScriptDefinition.stallWarnings (T : Span) (s : ScriptDefinition) : List ValidationWarning :=
  (Action.walkList s.actions).filterMap (Action.stallWarning? s.id T)

namespace ValidationReport

def longSleeps (r : ValidationReport) : List ValidationWarning := r.warnings.filter (·.isLong)

@[simp] theorem longSleeps_empty : ({} : ValidationReport).longSleeps = [] := rfl

@[simp] theorem longSleeps_append (a b : ValidationReport) :
    (a ++ b).longSleeps = a.longSleeps ++ b.longSleeps := List.filter_append ..

@[simp] theorem longSleeps_all (reports : List ValidationReport) :
    (all reports).longSleeps = reports.flatMap longSleeps := List.filter_flatMap ..

@[simp] theorem longSleeps_error (e : ValidationError) : (error e).longSleeps = [] := rfl

@[simp] theorem longSleeps_errorIf (b : Bool) (e : ValidationError) : (errorIf b e).longSleeps = [] := by
  cases b <;> rfl

/-- Other warnings are not about sleeps. -/
theorem longSleeps_warningIf {w : ValidationWarning} (h : w.isLong = false) (b : Bool) :
    (warningIf b w).longSleeps = [] := by
  cases b
  · rfl
  · exact List.filter_cons_of_neg (Bool.not_eq_true _ ▸ h)

end ValidationReport

namespace Validator

open ValidationReport

variable {v : Validator} {T : Span}

theorem isLong_eq (h_T : v.stallThreshold = some T) (x : Finite64) :
    v.isLong x = if x.Exceeds T then some T else none := by
  unfold isLong
  rw [h_T, Option.filter_some]
  simp only [decide_eq_true_eq, Finite64.lt_ofSeconds_iff]

theorem longSleeps_checkCall (v : Validator) (script capability action : String) :
    (v.checkCall script capability action).longSleeps = [] := by
  unfold checkCall
  split
  · rfl
  · split <;> simp

/-- **What an action by itself is warned of** is what it calls for. -/
theorem longSleeps_checkAction (h_T : v.stallThreshold = some T) (script : String) (a : Action) :
    (v.checkAction script a).longSleeps = (a.stallWarning? script T).toList := by
  cases a with
  -- waits and loops are what is warned of; all other warnings are of another kind
  | wait duration _ =>
    rw [checkAction, isLong_eq h_T, Action.stallWarning?]
    by_cases h : duration.Exceeds T <;> simp [h, longSleeps, warning, ValidationWarning.isLong]
  | loop interval n _ _ =>
    rw [checkAction, isLong_eq h_T, Action.stallWarning?, longSleeps_append, longSleeps_warningIf rfl]
    by_cases h : interval.Exceeds T <;> simp [h, longSleeps, warning, ValidationWarning.isLong]
  | call c =>
    rw [checkAction]
    split
    · rfl
    · exact longSleeps_checkCall v _ _ _
  | condition check =>
    cases check with
    | variableCompare => rfl
    | templateMatch => exact longSleeps_errorIf _ _
  | templateMatch | setVariable => exact longSleeps_errorIf _ _
  | readText | restart | unsupported => rfl

theorem longSleeps_checkException (known : Option (List String)) (owner : String) (script : Option String) :
    (checkException known owner script).longSleeps = [] := by
  unfold checkException
  split
  · split <;> simp
  · rfl

/-- **What a script is warned of** is what its actions call for, one by one. -/
theorem longSleeps_check (h_T : v.stallThreshold = some T) (s : ScriptDefinition) :
    (v.check s).longSleeps = s.stallWarnings T := by
  have h_depth := longSleeps_warningIf (w := .deepNesting s.id s.maxDepth) rfl (recommendedDepth < s.maxDepth)
  have h_actions : (Action.walkList s.actions).flatMap (fun a => (v.checkAction s.id a).longSleeps) =
      s.stallWarnings T := by
    simp only [longSleeps_checkAction h_T]
    exact (List.filterMap_eq_flatMap_toList ..).symm
  rw [check, longSleeps_append, longSleeps_append, longSleeps_append, longSleeps_errorIf,
    longSleeps_checkException, h_depth, longSleeps_all, List.flatMap_map, h_actions]
  rfl

theorem longSleeps_checkGroup (groups : List GroupDefinition) (s : ScriptDefinition) :
    (checkGroup groups s).longSleeps = [] := by
  unfold checkGroup
  split
  · exact longSleeps_errorIf _ _
  · exact longSleeps_warningIf rfl _

/-- A library is warned of what its scripts are. -/
theorem longSleeps_checkLibrary (h_T : v.stallThreshold = some T) (l : ScriptLibrary) :
    (v.checkLibrary l).longSleeps = l.scripts.flatMap (·.stallWarnings T) := by
  have h_groups : ∀ ids, l.groups.flatMap (fun g =>
      (checkException (some ids) g.id g.exceptionScript).longSleeps) = [] := fun ids =>
    List.flatMap_eq_nil_iff.mpr fun g _ => longSleeps_checkException (some ids) g.id g.exceptionScript
  rw [checkLibrary, longSleeps_append, longSleeps_all, longSleeps_all, List.flatMap_map, List.flatMap_map, h_groups,
    List.nil_append]
  refine List.flatMap_congr fun s _ => ?_
  rw [longSleeps_append, longSleeps_checkGroup, List.nil_append]
  -- which scripts are known makes no difference
  refine longSleeps_check ?_ s
  exact h_T

/-- **The warnings of long sleeps.** They are those which the actions of a script call for, each one by itself and
in order, and an action calls for one exactly if it would sleep for longer than the threshold. A number of seconds
that is above the threshold by a nanosecond or more does so if it is less than 2 ^ 64, and one that is not above the
threshold never does. A larger number is no time at all when the script runs. -/
theorem stall_warnings_of_check (h_T : v.stallThreshold = some T) :
    (∀ s : ScriptDefinition, (v.check s).warnings.filter (·.isLong) = s.stallWarnings T) ∧
    (∀ l : ScriptLibrary, (v.checkLibrary l).warnings.filter (·.isLong) = l.scripts.flatMap (·.stallWarnings T)) ∧
    ∀ (script : String) (a : Action) (x : Finite64), a.seconds? = some x →
      ((a.stallWarning? script T).isSome ↔ ∃ t ∈ a.sleep?, T < t) ∧
      (T.nanos + 1 ≤ x.nanos → ((a.stallWarning? script T).isSome ↔ x.value < 2 ^ 64)) ∧
      (x.nanos ≤ T.nanos → a.stallWarning? script T = none) ∧
      (2 ^ 64 ≤ x.value → a.stallWarning? script T = none ∧ a.sleep? = some .zero) := by
  refine ⟨longSleeps_check h_T, longSleeps_checkLibrary h_T, fun script a x h => ?_⟩
  have h_warned := Action.isSome_stallWarning? h script T
  have h_sleep : a.sleep? = some (Span.ofSeconds x) := by rw [a.sleep?_eq, h, Option.map_some]
  have h_none : ¬x.Exceeds T → a.stallWarning? script T = none := fun h_not =>
    Option.not_isSome_iff_eq_none.mp (h_warned.not.mpr h_not)
  refine ⟨?_, fun h_more => ?_, fun h_less => h_none (Finite64.not_exceeds_of_le h_less), fun h_huge => ⟨?_, ?_⟩⟩
  · rw [h_warned, h_sleep, ← Finite64.lt_ofSeconds_iff]
    simp
  · exact h_warned.trans (Finite64.exceeds_iff_of_le h_more)
  · exact h_none fun h_exceeds => absurd h_exceeds.1 (not_lt.mpr h_huge)
  · rw [h_sleep, Finite64.ofSeconds_eq_zero h_huge]

theorem canonical_twoSeconds : Finite64.Canonical (twoTo 52) (-51) := by decide

def twoSeconds : Finite64 := ⟨false, twoTo 52, -51, canonical_twoSeconds⟩

/-- A loop that pauses for longer than a second, around a condition that waits for a second or for two. -/
def vigil : ScriptDefinition where
  id := "vigil"
  actions := [.loop twoSeconds 3 [.condition (.variableCompare "seen" .eq (.bool true))
    [.wait Finite64.one none] [.wait twoSeconds none] false none] none]

/-- Of the two waits the longer one is warned of, behind the loop around it. -/
theorem vigil_is_warned_twice :
    oneSecondValidator.stallThreshold = some (.ofSecs 1) ∧
    (oneSecondValidator.check vigil).warnings.filter (·.isLong) =
      [.longInterval "vigil" twoSeconds (.ofSecs 1), .longWait "vigil" twoSeconds (.ofSecs 1)] ∧
    ((Span.ofSecs 1).nanos + 1 ≤ twoSeconds.nanos ∧
      ((Action.wait twoSeconds none).stallWarning? "vigil" (.ofSecs 1)).isSome) ∧
    (Finite64.one.nanos ≤ (Span.ofSecs 1).nanos ∧
      (Action.wait Finite64.one none).stallWarning? "vigil" (.ofSecs 1) = none) := by
  obtain ⟨h_check, -, h_actions⟩ := stall_warnings_of_check (v := oneSecondValidator) (T := .ofSecs 1) rfl
  have h_one : Finite64.one.nanos = 10 ^ 9 := by
    norm_num [Finite64.nanos, Finite64.value_eq, Finite64.magnitude, Finite64.one, twoTo]
  have h_two : twoSeconds.value = 2 := by
    norm_num [Finite64.value_eq, Finite64.magnitude, twoSeconds, twoTo]
  have h_more : ((Span.ofSecs 1).nanos : ℚ) + 1 ≤ twoSeconds.nanos := by norm_num [Finite64.nanos, h_two, Span.ofSecs]
  have h_not_more : Finite64.one.nanos ≤ (Span.ofSecs 1).nanos := by norm_num [h_one, Span.ofSecs]
  refine ⟨rfl, (h_check vigil).trans (by decide), ⟨h_more, ?_⟩, h_not_more, ?_⟩
  · exact ((h_actions "vigil" _ _ rfl).2.1 h_more).mpr (by norm_num [h_two])
  · exact (h_actions "vigil" _ _ rfl).2.2.1 h_not_more

def eonSeconds : Finite64 := ⟨false, 6103515625000000, 14, by decide⟩

/-- A script that waits for all of them. -/
def eon : ScriptDefinition where
  id := "eon"
  actions := [.wait eonSeconds none]

/-- **A wait may be too long to be warned of.** -/
theorem eon_is_not_warned_of :
    ¬ ∀ (v : Validator) (T : Span) (s : ScriptDefinition), v.stallThreshold = some T →
      ∀ a ∈ Action.walkList s.actions, ∀ x, a.seconds? = some x → T.nanos + 1 ≤ x.nanos →
        ∃ w ∈ (v.check s).warnings, w.isLong = true := by
  intro h
  have h_above : ((Span.ofSecs 1).nanos : ℚ) + 1 ≤ eonSeconds.nanos := by
    norm_num [Finite64.nanos, Finite64.value_eq, Finite64.magnitude, eonSeconds, Span.ofSecs]
  have h_none : (oneSecondValidator.check eon).warnings = [] := by decide
  obtain ⟨w, h_w, -⟩ := h oneSecondValidator (.ofSecs 1) eon rfl _ (List.mem_singleton_self _) _ rfl h_above
  rw [h_none] at h_w
  cases h_w

end Validator

end ScriptYard
