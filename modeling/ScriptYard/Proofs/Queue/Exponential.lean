import ScriptYard.Proofs.Number.Rounding
import ScriptYard.Proofs.Queue.Backoff

/-!
# Delays that grow

The delay of an exponential backoff is a product of milliseconds, of which only the whole ones of the first delay are
multiplied. Where there is one at least, and the factor is one or more, no rounding of the product takes the millisecond
away (`Binary64.IsOneOrMore`), so that every attempt has to wait. A first delay of less than a millisecond counts as
none, and stays none whatever it is multiplied by, unless the factor has grown beyond all numbers: that product is no
number, and the bound takes its place.

`exponential_backs_off_iff` says where the delay is one (`Backoff.Counts`), and what becomes of a task that is retried
after it.
-/

namespace ScriptYard

namespace Span

theorem le_refl (s : Span) : s ≤ s := Nat.le_refl _

theorem shorter_le_right (a b : Span) : a.shorter b ≤ b := by
  unfold shorter
  split
  · next h => exact h
  · exact le_refl b

theorem lt_shorter {a b c : Span} (h_b : a < b) (h_c : a < c) : a < b.shorter c := by
  unfold shorter
  split
  · exact h_b
  · exact h_c

theorem ofMillis_pos {n : ℕ} (h : 0 < n) : zero < ofMillis n := Nat.mul_pos h (by decide)

/-- The whole milliseconds of a span are none exactly if it is shorter than one. -/
theorem millis_pos_iff (s : Span) : 0 < s.millis ↔ ofMillis 1 ≤ s :=
  Nat.div_pos_iff.trans (and_iff_right (by decide))

end Span

namespace Backoff

variable {initial bound : Span} {multiplier : Binary64}

/-- The power of the factor by which the first delay is multiplied for an attempt. -/
def factor (multiplier : Binary64) (attempt : ℕ) : Binary64 := multiplier.pow (min (attempt - 1) exponentLimit)

/-- The delay of an attempt does not come to nothing: the first delay has a whole millisecond, or the factor is beyond
all numbers. -/
def Counts (initial : Span) (multiplier : Binary64) (attempt : ℕ) : Prop :=
  Span.ofMillis 1 ≤ initial ∨ factor multiplier attempt = .infinite false

/-! ### The product -/

/-- The delay that a product of milliseconds stands for. -/
def ofProduct (bound : Span) : Binary64 → Span
  | .finite x =>
    if x.negative && !x.isZero then bound
    else (Span.ofMillis ((Binary64.finite x).toNatClamped (twoTo 64 - 1))).shorter bound
  | _ => bound

theorem delay_exponential (attempt : ℕ) : (exponential initial multiplier bound).delay attempt =
    ofProduct bound ((Binary64.ofNat initial.millis).mul (factor multiplier attempt)) := by
  unfold delay factor ofProduct
  rfl

theorem ofProduct_le (bound : Span) (x : Binary64) : ofProduct bound x ≤ bound := by
  unfold ofProduct
  split
  · split
    · exact Span.le_refl bound
    · exact Span.shorter_le_right _ bound
  · exact Span.le_refl bound

/-- A product that is one or more stands for a millisecond or more, up to the bound. -/
theorem ofProduct_pos (h_bound : Span.zero < bound) {x : Binary64} (h : x.IsOneOrMore) :
    Span.zero < ofProduct bound x := by
  cases x with
  | finite x =>
    have h : x.IsOneOrMore := h
    have h_whole : 0 < (Binary64.finite x).toNatClamped (twoTo 64 - 1) := by
      simp only [Binary64.toNatClamped, h.negative, Bool.false_eq_true, if_false]
      exact Nat.lt_min.mpr ⟨Nat.div_pos h.le x.quotient_pos, by decide⟩
    simp only [ofProduct, h.negative, Bool.false_and, Bool.false_eq_true, if_false]
    exact Span.lt_shorter (Span.ofMillis_pos h_whole) h_bound
  | infinite _ | nan => exact h_bound

theorem ofProduct_zero (bound : Span) (negative : Bool) : ofProduct bound (.finite (.zero negative)) = .zero := by
  have h_zero : (Finite64.zero negative).isZero = true := rfl
  have h_none : (Finite64.zero negative).quotient.1 = 0 := rfl
  have h_whole : (Binary64.finite (.zero negative)).toNatClamped (twoTo 64 - 1) = 0 := by
    simp only [Binary64.toNatClamped, h_none, Nat.zero_div, Nat.zero_min, ite_self]
  simp only [ofProduct, h_zero, h_whole, Bool.not_true, Bool.and_false, Bool.false_eq_true, if_false]
  exact if_pos (Nat.zero_le _)

/-- Nothing is multiplied to nothing, by a number. -/
theorem mul_zero_finite (y : Finite64) : (Binary64.ofNat 0).mul (.finite y) = .finite (.zero y.negative) := by
  have h_zero : Binary64.ofNat 0 = .finite (.zero false) := rfl
  have h_none : (Finite64.zero false).quotient.1 = 0 := rfl
  have h_sign : ((Finite64.zero false).negative != y.negative) = y.negative := by cases y.negative <;> rfl
  rw [h_zero]
  simp only [Binary64.mul, h_none, Nat.zero_mul, h_sign]
  rfl

/-! ### The delay -/

/-- The delay of an attempt is a delay exactly where it does not come to nothing. -/
theorem delay_pos_iff (h_bound : Span.zero < bound) (h_factor : multiplier.IsOneOrMore) (attempt : ℕ) :
    Span.zero < (exponential initial multiplier bound).delay attempt ↔ Counts initial multiplier attempt := by
  have h_pow : (factor multiplier attempt).IsOneOrMore := h_factor.pow _
  rw [delay_exponential, Counts, ← Span.millis_pos_iff]
  rcases Nat.eq_zero_or_pos initial.millis with h_none | h_some
  · -- zero times any finite factor is nothing; only an infinite one exceeds the bound
    rw [h_none]
    cases h_value : factor multiplier attempt with
    | finite y =>
      rw [mul_zero_finite, ofProduct_zero]
      refine iff_of_false (Nat.lt_irrefl 0) ?_
      rintro (h | h)
      · exact Nat.lt_irrefl 0 h
      · cases h
    | infinite s =>
      rw [h_value] at h_pow
      obtain rfl : s = false := h_pow
      exact iff_of_true h_bound (.inr rfl)
    | nan =>
      rw [h_value] at h_pow
      exact h_pow.elim
  · exact iff_of_true (ofProduct_pos h_bound ((Binary64.isOneOrMore_ofNat h_some).mul h_pow)) (.inl h_some)

/-- The factor of the first attempt is one. -/
theorem factor_one (multiplier : Binary64) : factor multiplier 1 = .finite Finite64.one := by
  unfold factor Binary64.pow Binary64.powLoop
  rfl

end Backoff

/-! ### The next attempt -/

/-- The time of the next attempt is still to come where the delay is one and is kept. -/
theorem not_retryTime_le (now : Instant) {delay : Span} (h_some : Span.zero < delay)
    (h_kept : delay ≤ longestRetryDelay) : ¬retryTime now delay ≤ now := by
  rw [(retryTime_eq_after_iff now delay).mpr h_kept]
  exact now.not_after_le h_some

theorem retryTime_le {now : Instant} (h_clock : now.nanos < 2000000000) {delay : Span}
    (h : ¬(Span.zero < delay ∧ delay ≤ longestRetryDelay)) : retryTime now delay ≤ now := by
  unfold retryTime
  split
  · next h_kept =>
    obtain rfl : delay = .zero := by
      have h_none : ¬Span.zero < delay := fun h_some => h ⟨h_some, h_kept⟩
      exact congrArg Span.mk (Nat.eq_zero_of_not_pos h_none)
    exact now.after_zero_le h_clock
  · exact now.le_refl

namespace GroupQueue

/-- What a failed run leaves waiting is due exactly if the time of the attempt has come. -/
theorem isDue_retried {q : GroupQueue} {x : Task} {now : Instant} {attempt : ℕ} (h_status : x.status = .pending)
    (h_at : x.scheduledAt = some (retryTime now (q.retryPolicy.backoff.delay attempt))) :
    x.isDue now = decide (retryTime now (q.retryPolicy.backoff.delay attempt) ≤ now) := by
  simp only [Task.isDue, h_status, h_at, beq_self_eq_true, Bool.true_and]

/-- **An exponential backoff backs off exactly if its first delay has a whole millisecond, or its factor has grown
beyond all numbers.** Then a task that is retried is not due again at once, if the delay is also one that is kept. -/
theorem exponential_backs_off_iff (initial bound : Span) (multiplier : Finite64) (attempt : ℕ)
    (h_bound : Span.zero < bound) (h_factor : Finite64.one.compare multiplier ≠ .gt) :
    let backoff := Backoff.exponential initial (.finite multiplier) bound
    let delay := backoff.delay attempt
    (Span.zero < delay ∧ delay ≤ bound ↔ Backoff.Counts initial (.finite multiplier) attempt) ∧
    ∀ (q q' : GroupQueue) (t : Task) (f : Failure) (now : Instant), q.retryPolicy.backoff = backoff →
      q.running = some t → q.complete t.id (.failed f) now = .ok (.retrying attempt, q') →
      ∃ x, x.id = t.id ∧ q'.pending.Perm (x :: q.pending) ∧
        (Backoff.Counts initial (.finite multiplier) attempt ∧ delay ≤ longestRetryDelay → x.isDue now = false) ∧
        (now.nanos < 2000000000 → x.isDue now = false →
          Backoff.Counts initial (.finite multiplier) attempt ∧ delay ≤ longestRetryDelay) := by
  intro backoff delay
  have h_delay : Span.zero < delay ↔ Backoff.Counts initial (.finite multiplier) attempt :=
    Backoff.delay_pos_iff h_bound (show (Binary64.finite multiplier).IsOneOrMore from
      Finite64.isOneOrMore_iff.mpr h_factor) attempt
  refine ⟨?_, fun q q' t f now h_backoff h_run h => ?_⟩
  · rw [h_delay, and_iff_left]
    rw [show delay = _ from Backoff.delay_exponential attempt]
    exact Backoff.ofProduct_le bound _
  · -- the entry is due by its time alone, and its time is that of the delay
    obtain ⟨x, l₁, l₂, h_id, h_status, -, h_at, h_split, rfl⟩ := exists_retried h_run h
    have h_due := isDue_retried h_status h_at
    rw [h_backoff] at h_due
    refine ⟨x, h_id, h_split ▸ List.perm_middle, ?_⟩
    rw [h_due, ← h_delay, decide_eq_false_iff_not]
    refine ⟨fun ⟨h_some, h_kept⟩ => not_retryTime_le now h_some h_kept, fun h_clock h_later => ?_⟩
    -- without a delay the time is `now` up to the leap second, which `h_clock` excludes
    by_contra h_none
    exact h_later (retryTime_le h_clock h_none)

/-- The number two. -/
def two : Finite64 := ⟨false, twoTo 52, -51, by decide⟩

/-- A queue in which a task is running, and is retried after a delay that is doubled with every attempt. -/
def doubling (initial : Span) : GroupQueue :=
  { id := "g", name := "", running := some oldTask,
    retryPolicy := { backoff := .exponential initial (.finite two) (.ofSecs 60) } }

/-- A second that is doubled with every attempt is a delay for the third one, and the task of the first one is not due
at once. -/
theorem doubled_second_backs_off :
    (Span.zero < (Backoff.exponential (.ofSecs 1) (.finite two) (.ofSecs 60)).delay 3 ∧
      (Backoff.exponential (.ofSecs 1) (.finite two) (.ofSecs 60)).delay 3 ≤ .ofSecs 60) ∧
    ∃ q' x, (doubling (.ofSecs 1)).complete "t" (.failed ⟨"x", .transient⟩) (.ofMillis 10) = .ok (.retrying 1, q') ∧
      q'.pending.Perm [x] ∧ x.isDue (.ofMillis 10) = false := by
  have h_third := exponential_backs_off_iff (.ofSecs 1) (.ofSecs 60) two 3 (by decide) (by decide)
  have h_first := exponential_backs_off_iff (.ofSecs 1) (.ofSecs 60) two 1 (by decide) (by decide)
  have h_counts : ∀ n, Backoff.Counts (.ofSecs 1) (.finite two) n := fun n => .inl (by decide)
  have h_kept := Nat.le_trans (h_first.1.mpr (h_counts 1)).2 (show Span.ofSecs 60 ≤ longestRetryDelay by decide)
  obtain ⟨x, -, h_waits, h_later, -⟩ := h_first.2 (doubling (.ofSecs 1)) _ oldTask ⟨"x", .transient⟩ (.ofMillis 10)
    rfl rfl rfl
  exact ⟨h_third.1.mpr (h_counts 3), _, x, rfl, h_waits, h_later ⟨h_counts 1, h_kept⟩⟩

/-- With a first delay of half a millisecond the task is given out again at once. -/
theorem half_a_millisecond_is_no_delay :
    (Backoff.exponential ⟨500000⟩ (.finite two) (.ofSecs 60)).delay 1 = .zero ∧
    ∃ q' u q'', (doubling ⟨500000⟩).complete "t" (.failed ⟨"x", .transient⟩) (.ofMillis 10) = .ok (.retrying 1, q') ∧
      q'.dequeue (.ofMillis 10) = some (u, q'') ∧ u.id = "t" := by
  have h_none : (Backoff.exponential ⟨500000⟩ (.finite two) (.ofSecs 60)).delay 1 = .zero := by
    rw [Backoff.delay_exponential, Backoff.factor_one]
    exact (congrArg _ (Backoff.mul_zero_finite Finite64.one)).trans (Backoff.ofProduct_zero _ _)
  obtain ⟨q', h⟩ : ∃ q', (doubling ⟨500000⟩).complete "t" (.failed ⟨"x", .transient⟩) (.ofMillis 10) =
      .ok (.retrying 1, q') := ⟨_, rfl⟩
  obtain ⟨x, l₁, l₂, h_id, h_status, -, h_at, h_split, rfl⟩ := exists_retried (t := oldTask) rfl h
  obtain ⟨rfl, rfl⟩ := List.append_eq_nil_iff.mp h_split.symm
  have h_due : x.isDue (.ofMillis 10) = true := by
    rw [isDue_retried h_status h_at, show (doubling ⟨500000⟩).retryPolicy.backoff.delay 1 = .zero from h_none]
    decide
  exact ⟨h_none, _, _, _, h, dequeue_eq_some_iff.mpr ⟨rfl, rfl, [], x, [], rfl, h_due, by simp, rfl, rfl⟩, h_id⟩

end GroupQueue

end ScriptYard
