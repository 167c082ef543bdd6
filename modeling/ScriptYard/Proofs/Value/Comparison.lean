import Mathlib.Data.String.Basic
import Mathlib.Order.Compare
import ScriptYard.Proofs.Number.Nearest
import ScriptYard.Proofs.Value.Fields
import ScriptYard.Run.Context
import ScriptYard.Run.Interpreter

/-!
# Comparisons as orders

Two numbers are compared by the exact values of the numbers of the format that stand for them, two strings by the
order of strings. Both are linear orders, and each of the six operators says of two things in a linear order what its
symbol says (`CompareOperator.Holds`, `Value.compare_number`, `Value.compare_string`). All that holds between the
operators follows from this, for the two kinds of pairs at once (`Value.coherent_of_holds`). A pair that is neither has
no order (`Value.Comparable`), and then only equality and its negation can be true of it.

Equality of two numbers is equality of their places in that order, and every other equality is `Value.same`, which
goes through arrays and objects and compares a number inside them with its kind. `Value.Alike` says what it means for
two values to have one structure, whatever relation their numbers stand in.

What is compared of an integer is the number of the format nearest to it (`Number.isNearest_toFloat`). Rounding keeps
the order but not the difference of two integers, so comparison is exact where both numbers are numbers of the format,
and in general never the reverse of the exact one.
-/

namespace ScriptYard

namespace CompareOperator

/-- What an operator says of two things in a linear order. -/
def Holds {α : Type} [LinearOrder α] (op : CompareOperator) (p q : α) : Prop :=
  match op with
  | .eq => p = q
  | .ne => p ≠ q
  | .gt => q < p
  | .lt => p < q
  | .ge => q ≤ p
  | .le => p ≤ q

/-- Whether the operator asks which of two things is the greater one. -/
def IsOrdering : CompareOperator → Prop
  | .eq | .ne => False
  | .gt | .lt | .ge | .le => True

variable {α : Type} [LinearOrder α]

/-- An operator accepts how two things in a linear order compare exactly if it holds of them. -/
theorem accepts_iff (op : CompareOperator) {p q : α} {o : Ordering} (h_lt : o = .lt ↔ p < q) (h_eq : o = .eq ↔ p = q) :
    op.accepts o = true ↔ op.Holds p q := by
  have h_gt : o = .gt ↔ q < p := by
    rw [← not_le, le_iff_lt_or_eq, ← h_lt, ← h_eq]
    cases o <;> decide
  cases op with
  | eq => exact beq_iff_eq.trans h_eq
  | ne => exact bne_iff_ne.trans (not_congr h_eq)
  | gt => exact beq_iff_eq.trans h_gt
  | lt => exact beq_iff_eq.trans h_lt
  | ge => exact bne_iff_ne.trans ((not_congr h_lt).trans not_lt)
  | le => exact bne_iff_ne.trans ((not_congr h_gt).trans not_lt)

end CompareOperator

namespace Number

theorem same_refl (n : Number) : n.same n = true := by
  cases n with
  | int i => exact beq_self_eq_true i
  | float x => exact Finite64.sameValue_iff.mpr rfl

theorem same_symm {m n : Number} (h : m.same n = true) : n.same m = true := by
  cases m <;> cases n
  · rw [beq_iff_eq.mp h]
    exact beq_self_eq_true _
  · exact h
  · exact h
  · exact Finite64.sameValue_iff.mpr (Finite64.sameValue_iff.mp h).symm

theorem same_trans {l m n : Number} (h : l.same m = true) (h' : m.same n = true) : l.same n = true := by
  cases l <;> cases m <;> cases n <;> try contradiction
  · rw [beq_iff_eq.mp h]
    exact h'
  · exact Finite64.sameValue_iff.mpr ((Finite64.sameValue_iff.mp h).trans (Finite64.sameValue_iff.mp h'))

/-- Both numbers are integers, or both are floating-point numbers. -/
def SameKind : Number → Number → Prop
  | .int _, .int _ | .float _, .float _ => True
  | _, _ => False

/-- Inside a value, two numbers are the same if they have one value and one kind. -/
theorem same_iff_value {m n : Number} : m.same n = true ↔ m.value = n.value ∧ m.SameKind n := by
  cases m <;> cases n
  · exact beq_iff_eq.trans ⟨fun h => ⟨congrArg Int.cast h, trivial⟩, fun h => Int.cast_inj.mp h.1⟩
  · exact ⟨nofun, fun h => h.2.elim⟩
  · exact ⟨nofun, fun h => h.2.elim⟩
  · exact Finite64.sameValue_iff.trans (and_iff_left trivial).symm

end Number

namespace Value

/-! ### Numbers and strings -/

/-- Two numbers, or two strings. -/
def Comparable : Value → Value → Prop
  | .number _, .number _ | .string _, .string _ => True
  | _, _ => False

theorem Comparable.symm {a b : Value} (h : a.Comparable b) : b.Comparable a := by
  cases a <;> cases b <;> exact h

theorem Comparable.eq_number {m : Number} {b : Value} (h : Comparable (.number m) b) : ∃ n, b = .number n := by
  cases b with
  | number n => exact ⟨n, rfl⟩
  | _ => exact h.elim

theorem Comparable.eq_string {s : String} {b : Value} (h : Comparable (.string s) b) : ∃ t, b = .string t := by
  cases b with
  | string t => exact ⟨t, rfl⟩
  | _ => exact h.elim

/-- **Two numbers compare as the values do that stand for them.** -/
theorem compare_number (m n : Number) (op : CompareOperator) :
    compare (.number m) op (.number n) = true ↔ op.Holds m.toFloat.value n.toFloat.value := by
  have h := op.accepts_iff (Finite64.compare_eq_lt_iff (x := m.toFloat) (y := n.toFloat)) Finite64.compare_eq_eq_iff
  cases op <;> exact h

/-- **Two strings compare as strings are ordered.** -/
theorem compare_string (s t : String) (op : CompareOperator) :
    compare (.string s) op (.string t) = true ↔ op.Holds s t := by
  have h := op.accepts_iff (compare_lt_iff_lt (a := s) (b := t)) compare_eq_iff_eq
  cases op with
  | eq => exact beq_iff_eq
  | ne => exact bne_iff_ne
  | gt | lt | ge | le => exact h

/-- An ordering operator that is true of two values is so of two numbers or two strings. -/
theorem comparable_of_compare {a b : Value} {op : CompareOperator} (h_op : op.IsOrdering) (h : a.compare op b = true) :
    a.Comparable b := by
  cases op with
  | eq | ne => exact h_op.elim
  | gt | lt | ge | le => cases a <;> cases b <;> trivial

/-- What the operators have to do with one another, of two values that compare as two things in a linear order. -/
theorem coherent_of_holds {α : Type} [LinearOrder α] {a b : Value} {p q : α}
    (h : ∀ op, a.compare op b = true ↔ op.Holds p q) (h' : ∀ op, b.compare op a = true ↔ op.Holds q p) :
    [a.compare .lt b, a.compare .eq b, b.compare .lt a].count true = 1 ∧
      (a.compare .le b = true ↔ a.compare .lt b = true ∨ a.compare .eq b = true) ∧
      (a.compare .ge b = true ↔ b.compare .le a = true) ∧
      (a.compare .gt b = true ↔ b.compare .lt a = true) := by
  refine ⟨?_, ?_, ?_, ?_⟩
  · have h_eq : a.compare .eq b = decide (p = q) := by rw [Bool.eq_iff_iff, h, decide_eq_true_iff]; rfl
    have h_lt : a.compare .lt b = decide (p < q) := by rw [Bool.eq_iff_iff, h, decide_eq_true_iff]; rfl
    have h_gt : b.compare .lt a = decide (q < p) := by rw [Bool.eq_iff_iff, h', decide_eq_true_iff]; rfl
    rw [h_eq, h_lt, h_gt]
    -- exactly one of the three holds of the things, and so of the values
    rcases lt_trichotomy p q with h_p | rfl | h_p
    · simp [h_p, h_p.ne, h_p.asymm]
    · simp
    · simp [h_p, h_p.ne', h_p.asymm]
  · rw [h, h, h]
    exact le_iff_lt_or_eq
  · rw [h, h']
    exact Iff.rfl
  · rw [h, h']
    exact Iff.rfl

/-! ### One structure -/

/-- Two values are alike: they have one structure, with the same null and truth values, strings and names of fields,
and corresponding numbers in it stand in a relation. -/
inductive Alike (R : Number → Number → Prop) : Value → Value → Prop where
  | null : Alike R .null .null
  | bool (b : Bool) : Alike R (.bool b) (.bool b)
  | number {m n : Number} (h : R m n) : Alike R (.number m) (.number n)
  | string (s : String) : Alike R (.string s) (.string s)
  | array {xs ys : List Value} (h_length : xs.length = ys.length)
      (h : ∀ (i : ℕ) (x y : Value), xs[i]? = some x → ys[i]? = some y → Alike R x y) : Alike R (.array xs) (.array ys)
  | object {fs gs : List (String × Value)} (h_names : Fields.names fs = Fields.names gs)
      (h : ∀ (i : ℕ) (f g : String × Value), fs[i]? = some f → gs[i]? = some g → Alike R f.2 g.2) :
      Alike R (.object fs) (.object gs)

namespace Alike

variable {R S : Number → Number → Prop} {a b c : Value}

theorem mono (h : ∀ m n, R m n → S m n) (h_alike : a.Alike R b) : a.Alike S b := by
  induction h_alike with
  | null => exact .null
  | bool b => exact .bool b
  | number h_n => exact .number (h _ _ h_n)
  | string s => exact .string s
  | array h_length _ ih => exact .array h_length ih
  | object h_names _ ih => exact .object h_names ih

theorem refl (h : ∀ n, R n n) (a : Value) : a.Alike R a := by
  match a with
  | .null => exact .null
  | .bool b => exact .bool b
  | .number n => exact .number (h n)
  | .string s => exact .string s
  -- the same place holds the same value on both sides
  | .array xs =>
    refine .array rfl fun i x y h_x h_y => ?_
    obtain rfl : x = y := Option.some.inj (h_x.symm.trans h_y)
    have h_mem := List.mem_of_getElem? h_x
    exact refl h x
  | .object fs =>
    refine .object rfl fun i f g h_f h_g => ?_
    obtain rfl : f = g := Option.some.inj (h_f.symm.trans h_g)
    have h_mem := List.mem_of_getElem? h_f
    exact refl h f.2
termination_by sizeOf a
decreasing_by
  · have := List.sizeOf_lt_of_mem h_mem
    simp
    omega
  · have := List.sizeOf_lt_of_mem h_mem
    have : sizeOf f.2 < sizeOf f := by cases f; simp
    simp
    omega

theorem symm (h : ∀ m n, R m n → R n m) (h_alike : a.Alike R b) : b.Alike R a := by
  induction h_alike with
  | null => exact .null
  | bool b => exact .bool b
  | number h_n => exact .number (h _ _ h_n)
  | string s => exact .string s
  | array h_length _ ih => exact .array h_length.symm fun i x y h_x h_y => ih i y x h_y h_x
  | object h_names _ ih => exact .object h_names.symm fun i f g h_f h_g => ih i g f h_g h_f

theorem trans (h : ∀ l m n, R l m → R m n → R l n) (h_ab : a.Alike R b) (h_bc : b.Alike R c) : a.Alike R c := by
  induction h_ab generalizing c with
  | null | bool _ | string _ => exact h_bc
  | number h_m =>
    cases h_bc with
    | number h_n => exact .number (h _ _ _ h_m h_n)
  | @array xs ys h_length _ ih =>
    cases h_bc with
    | @array _ zs h_length' h_zs =>
      refine .array (h_length.trans h_length') fun i x z h_x h_z => ?_
      -- the item between them
      have h_i : i < ys.length := h_length ▸ (List.getElem?_eq_some_iff.mp h_x).1
      have h_y := List.getElem?_eq_getElem h_i
      exact ih i x _ h_x h_y (h_zs i _ z h_y h_z)
  | @object fs gs h_names _ ih =>
    cases h_bc with
    | @object _ hs h_names' h_hs =>
      refine .object (h_names.trans h_names') fun i f g h_f h_g => ?_
      have h_length : fs.length = gs.length := by simpa [Fields.names] using congrArg List.length h_names
      have h_i : i < gs.length := h_length ▸ (List.getElem?_eq_some_iff.mp h_f).1
      have h_m := List.getElem?_eq_getElem h_i
      exact ih i f _ h_f h_m (h_hs i _ g h_m h_g)

end Alike

/-! ### Equality -/

mutual

/-- **Equality goes through the structure of values**, down to numbers of one kind. -/
theorem same_iff (a b : Value) : a.same b = true ↔ a.Alike (fun m n => m.same n = true) b := by
  match a with
  | .null =>
    cases b with
    | null => exact iff_of_true rfl .null
    | _ => exact ⟨nofun, nofun⟩
  | .bool p =>
    cases b with
    | bool q =>
      rw [same, beq_iff_eq]
      exact ⟨fun h => h ▸ .bool p, fun h => by cases h; rfl⟩
    | _ => exact ⟨nofun, nofun⟩
  | .number m =>
    cases b with
    | number n => exact ⟨fun h => .number h, fun h => by cases h; assumption⟩
    | _ => exact ⟨nofun, nofun⟩
  | .string s =>
    cases b with
    | string t =>
      rw [same, beq_iff_eq]
      exact ⟨fun h => h ▸ .string s, fun h => by cases h; rfl⟩
    | _ => exact ⟨nofun, nofun⟩
  -- arrays and objects go down to their parts, and the induction is on those
  | .array xs =>
    cases b with
    | array ys =>
      rw [same, sameItems_iff]
      exact ⟨fun h => .array h.1 h.2, fun h => by cases h; exact ⟨‹_›, ‹_›⟩⟩
    | _ => exact ⟨nofun, nofun⟩
  | .object fs =>
    cases b with
    | object gs =>
      rw [same, sameFields_iff]
      exact ⟨fun h => .object h.1 h.2, fun h => by cases h; exact ⟨‹_›, ‹_›⟩⟩
    | _ => exact ⟨nofun, nofun⟩

theorem sameItems_iff (xs ys : List Value) :
    sameItems xs ys = true ↔ xs.length = ys.length ∧ ∀ (i : ℕ) (x y : Value), xs[i]? = some x → ys[i]? = some y →
      x.Alike (fun m n => m.same n = true) y := by
  match xs, ys with
  | [], [] => exact iff_of_true rfl ⟨rfl, nofun⟩
  | [], _ :: _ | _ :: _, [] => exact ⟨nofun, fun h => nomatch h.1⟩
  | x :: xs, y :: ys =>
    rw [sameItems, Bool.and_eq_true, same_iff x y, sameItems_iff xs ys, List.length_cons, List.length_cons,
      Nat.succ_inj]
    refine ⟨fun ⟨h_x, h_length, h_rest⟩ => ⟨h_length, fun i => ?_⟩, fun ⟨h_length, h⟩ =>
      ⟨h 0 x y rfl rfl, h_length, fun i => h (i + 1)⟩⟩
    cases i with
    | zero => rintro _ _ ⟨⟩ ⟨⟩; exact h_x
    | succ i => exact h_rest i

theorem sameFields_iff (fs gs : List (String × Value)) :
    sameFields fs gs = true ↔ Fields.names fs = Fields.names gs ∧ ∀ (i : ℕ) (f g : String × Value), fs[i]? = some f →
      gs[i]? = some g → f.2.Alike (fun m n => m.same n = true) g.2 := by
  match fs, gs with
  | [], [] => exact iff_of_true rfl ⟨rfl, nofun⟩
  | [], _ :: _ | _ :: _, [] => exact ⟨nofun, fun h => nomatch h.1⟩
  | (m, x) :: fs, (n, y) :: gs =>
    rw [sameFields, Bool.and_eq_true, Bool.and_eq_true, beq_iff_eq, same_iff x y, sameFields_iff fs gs, Fields.names,
      Fields.names, Fields.names, Fields.names, List.map_cons, List.map_cons, List.cons.injEq]
    refine ⟨fun ⟨⟨h_name, h_x⟩, h_names, h_rest⟩ => ⟨⟨h_name, h_names⟩, fun i => ?_⟩, fun ⟨⟨h_name, h_names⟩, h⟩ =>
      ⟨⟨h_name, h 0 (m, x) (n, y) rfl rfl⟩, h_names, fun i => h (i + 1)⟩⟩
    cases i with
    | zero => rintro _ _ ⟨⟩ ⟨⟩; exact h_x
    | succ i => exact h_rest i

end

/-- A number equals the numbers that the same value stands for. -/
theorem equals_number {m : Number} {b : Value} :
    equals (.number m) b = true ↔ ∃ n, b = .number n ∧ m.toFloat.value = n.toFloat.value := by
  cases b with
  | number n =>
    refine (compare_number m n .eq).trans ⟨fun h => ⟨n, rfl, h⟩, ?_⟩
    rintro ⟨_, ⟨⟩, h⟩
    exact h
  | null | bool | string | array | object => exact ⟨nofun, fun ⟨_, h, _⟩ => nomatch h⟩

/-- Two values that are not both numbers are equal if they are alike. -/
theorem equals_iff_alike {a b : Value} (h : ¬∃ m n, a = .number m ∧ b = .number n) :
    a.equals b = true ↔ a.Alike (fun m n => m.same n = true) b := by
  have h_same : a.equals b = a.same b := by
    cases a with
    | number m =>
      cases b with
      | number n => exact absurd ⟨m, n, rfl, rfl⟩ h
      | null | bool | string | array | object => rfl
    | null | bool | string | array | object => rfl
  rw [h_same, same_iff]

theorem equals_refl (a : Value) : a.equals a = true := by
  cases a with
  | number m => exact equals_number.mpr ⟨m, rfl, rfl⟩
  | null | bool | string | array | object =>
    exact (equals_iff_alike (by rintro ⟨_, _, ⟨⟩, _⟩)).mpr (.refl Number.same_refl _)

theorem equals_symm {a b : Value} (h : a.equals b = true) : b.equals a = true := by
  cases a with
  | number m =>
    obtain ⟨n, rfl, h_value⟩ := equals_number.mp h
    exact equals_number.mpr ⟨m, rfl, h_value.symm⟩
  | null | bool | string | array | object =>
    have h_alike := (equals_iff_alike (by rintro ⟨_, _, ⟨⟩, _⟩)).mp h
    exact (equals_iff_alike (by rintro ⟨_, _, _, ⟨⟩⟩)).mpr (h_alike.symm fun _ _ => Number.same_symm)

theorem equals_trans {a b c : Value} (h : a.equals b = true) (h' : b.equals c = true) : a.equals c = true := by
  cases a with
  | number m =>
    obtain ⟨n, rfl, h_value⟩ := equals_number.mp h
    obtain ⟨o, rfl, h_value'⟩ := equals_number.mp h'
    exact equals_number.mpr ⟨o, rfl, h_value.trans h_value'⟩
  | null | bool | string | array | object =>
    have h_alike := (equals_iff_alike (by rintro ⟨_, _, ⟨⟩, _⟩)).mp h
    have h_b : ¬∃ n o, b = .number n ∧ c = .number o := by
      rintro ⟨_, _, rfl, -⟩
      nomatch h_alike
    exact (equals_iff_alike (by rintro ⟨_, _, ⟨⟩, _⟩)).mpr
      (h_alike.trans (fun _ _ _ => Number.same_trans) ((equals_iff_alike h_b).mp h'))

/-- **The six operators are coherent.** One of two operators of equality negates the other, and equality is an
equivalence. Of two numbers, and of two strings, exactly one is below the other or they are equal, and the further
operators say what this makes them say; what is below is transitive. Of every other pair, one with an unbound variable
for its left side included, no ordering operator is true. -/
theorem comparisons_are_coherent (a b c : Value) :
    a.compare .ne b = !a.compare .eq b ∧
    (a.compare .eq a = true ∧ (a.compare .eq b = true → b.compare .eq a = true) ∧
      (a.compare .eq b = true → b.compare .eq c = true → a.compare .eq c = true)) ∧
    (a.Comparable b →
      [a.compare .lt b, a.compare .eq b, b.compare .lt a].count true = 1 ∧
      (a.compare .le b = true ↔ a.compare .lt b = true ∨ a.compare .eq b = true) ∧
      (a.compare .ge b = true ↔ b.compare .le a = true) ∧
      (a.compare .gt b = true ↔ b.compare .lt a = true)) ∧
    (a.compare .lt b = true → b.compare .lt c = true → a.compare .lt c = true) ∧
    (¬a.Comparable b → ∀ op : CompareOperator, op.IsOrdering → a.compare op b = false ∧ b.compare op a = false) ∧
    ∀ (name : String) (op : CompareOperator) (context : RunContext) (now : Moment), op.IsOrdering →
      Fields.get? context.vars (referencedName name) = none →
      (evaluate (.variableCompare name op b)).settle now context = (.done (.ok false), context) := by
  have h_none : ∀ {x y : Value}, ¬x.Comparable y → ∀ op : CompareOperator, op.IsOrdering → x.compare op y = false :=
    fun h op h_op => Bool.eq_false_iff.mpr fun h_true => h (comparable_of_compare h_op h_true)
  refine ⟨rfl, ⟨equals_refl a, equals_symm, equals_trans⟩, fun h => ?_, fun h h' => ?_,
    fun h op h_op => ⟨h_none h op h_op, h_none (fun h_swap => h h_swap.symm) op h_op⟩, ?_⟩
  · cases a with
    | number m =>
      cases b with
      | number n => exact coherent_of_holds (compare_number m n) (compare_number n m)
      | _ => exact h.elim
    | string s =>
      cases b with
      | string t => exact coherent_of_holds (compare_string s t) (compare_string t s)
      | _ => exact h.elim
    | _ => exact h.elim
  · -- the value in the middle ties the kinds of the other two together
    have h_ab := comparable_of_compare (show CompareOperator.IsOrdering .lt from trivial) h
    have h_bc := comparable_of_compare (show CompareOperator.IsOrdering .lt from trivial) h'
    cases b with
    | number n =>
      obtain ⟨m, rfl⟩ := h_ab.symm.eq_number
      obtain ⟨o, rfl⟩ := h_bc.eq_number
      rw [compare_number] at h h' ⊢
      exact lt_trans h h'
    | string t =>
      obtain ⟨s, rfl⟩ := h_ab.symm.eq_string
      obtain ⟨u, rfl⟩ := h_bc.eq_string
      rw [compare_string] at h h' ⊢
      exact lt_trans h h'
    | _ => exact h_bc.elim
  · intro name op context now h_op h_unbound
    have h_false := h_none (x := .null) (y := Variables.resolve context.vars b) id op h_op
    show (Process.done (Except.ok _), context) = _
    rw [h_unbound, Option.getD_none, h_false]

/-- One lies below one and a half, and a reading of it is refused where the variable is unbound. -/
theorem one_lies_below_one_and_a_half :
    let one : Value := .int 1
    let more : Value := .float ⟨false, 3 * twoTo 51, -52, by decide⟩
    one.Comparable more ∧ one.compare .lt more = true ∧ one.compare .eq more = false ∧ more.compare .gt one = true ∧
      ¬one.Comparable (.string "2") ∧ one.compare .le (.string "2") = false := by
  intro one more
  have h_kinds : one.Comparable more := trivial
  have h_string : ¬one.Comparable (.string "2") := id
  have h_lt : one.compare .lt more = true := by decide
  obtain ⟨-, -, h_number, -⟩ := comparisons_are_coherent one more one
  obtain ⟨-, -, -, -, h_mixed, -⟩ := comparisons_are_coherent one (.string "2") one
  have h_count := (h_number h_kinds).1
  refine ⟨h_kinds, h_lt, ?_, by decide, h_string, (h_mixed h_string .le trivial).1⟩
  -- of the three only one is true
  rw [h_lt] at h_count
  exact Bool.eq_false_iff.mpr fun h_eq => by
    rw [h_eq] at h_count
    cases h : more.compare .lt one <;> rw [h] at h_count <;> cases h_count

/-! ### Exact values -/

/-- **Numbers are compared by the nearest numbers of the format, and all else by its structure.** The comparison of two
numbers is exact where both are numbers of the format, and never the reverse of the exact one. Of values that are not
both numbers, equal ones have one structure with numbers of one value in corresponding places; and they are equal if
these are of one kind besides. -/
theorem numbers_compare_by_nearest (a b : Value) (h_a : a.WellFormed) (h_b : b.WellFormed) :
    (∀ m n, a = .number m → b = .number n →
      m.toFloat.IsNearest m.value ∧ n.toFloat.IsNearest n.value ∧
      (∀ op, a.compare op b = true ↔ op.Holds m.toFloat.value n.toFloat.value) ∧
      (m.IsExact → n.IsExact → ∀ op, a.compare op b = true ↔ op.Holds m.value n.value) ∧
      (m.value ≤ n.value → a.compare .le b = true) ∧ (a.compare .lt b = true → m.value < n.value)) ∧
    (∀ x : Finite64, Number.IsExact (.float x)) ∧ (∀ i : ℤ, i.natAbs ≤ twoTo 53 → Number.IsExact (.int i)) ∧
    ((¬∃ m n, a = .number m ∧ b = .number n) →
      (a.compare .eq b = true → a.Alike (fun m n => m.value = n.value) b) ∧
      (a.Alike (fun m n => m.value = n.value ∧ m.SameKind n) b → a.compare .eq b = true)) := by
  refine ⟨?_, fun x => ⟨x, rfl⟩, fun i => Number.isExact_int, fun h_not => ?_⟩
  · rintro m n rfl rfl
    have h_m : m.InRange := by cases h_a; assumption
    have h_n : n.InRange := by cases h_b; assumption
    have h_le : m.value ≤ n.value → m.toFloat.value ≤ n.toFloat.value := Number.toFloat_mono h_m h_n
    refine ⟨Number.isNearest_toFloat h_m, Number.isNearest_toFloat h_n, compare_number m n, ?_, ?_, ?_⟩
    · rintro ⟨x, h_x⟩ ⟨y, h_y⟩ op
      rw [compare_number, Number.value_toFloat h_m h_x, Number.value_toFloat h_n h_y]
    · exact fun h => (compare_number m n .le).mpr (h_le h)
    · intro h
      have h_lt : m.toFloat.value < n.toFloat.value := (compare_number m n .lt).mp h
      -- rounding is monotone, so a strict order of the rounded numbers is not reversed
      have h_ge := mt (Number.toFloat_mono h_n h_m) (not_le.mpr h_lt)
      exact not_le.mp h_ge
  · -- beside numbers, equality is that of the structure
    have h_equals : a.compare .eq b = true ↔ a.Alike (fun m n => m.value = n.value ∧ m.SameKind n) b := by
      show a.equals b = true ↔ _
      rw [equals_iff_alike h_not]
      exact ⟨.mono fun _ _ => Number.same_iff_value.mp, .mono fun _ _ => Number.same_iff_value.mpr⟩
    exact ⟨fun h => (h_equals.mp h).mono fun _ _ h_n => h_n.1, h_equals.mpr⟩

/-- Two integers that lie between the same neighbours in the format are equal, and a number that equals another one need
not do so in an array. -/
theorem neighbours_compare_as_equal :
    let big : Number := .int (twoTo 53)
    let next : Number := .int (twoTo 53 + 1)
    let three : Number := .int 3
    let half_six : Number := .float ⟨false, 3 * twoTo 51, -51, by decide⟩
    (big.InRange ∧ next.InRange ∧ compare (.number next) .eq (.number big) = true ∧ next.value ≠ big.value) ∧
      compare (.number three) .eq (.number half_six) = true ∧ three.value = half_six.value ∧
      compare (.array [.number three]) .eq (.array [.number half_six]) = false := by
  intro big next three half_six
  refine ⟨⟨⟨by decide, by decide⟩, ⟨by decide, by decide⟩, by decide, ?_⟩, by decide, ?_, by decide⟩
  · exact fun h => absurd (Int.cast_inj.mp h) (by decide)
  · -- three and six halves are one number of the format
    have h_same : three.toFloat.compare half_six.toFloat = .eq := by decide
    have h_exact : three.IsExact := Number.isExact_int (by decide)
    obtain ⟨x, h_x⟩ := h_exact
    have h_range : three.InRange := ⟨by decide, by decide⟩
    rw [← Number.value_toFloat h_range h_x]
    exact Finite64.compare_eq_eq_iff.mp h_same

/-- Three and the number next to it in the format are compared by their values, and three equals itself in an array. -/
theorem next_to_three_is_more :
    let three : Number := .int 3
    let next : Number := .float ⟨false, 3 * twoTo 51 + 1, -51, by decide⟩
    let row : Value := .array [.number three]
    WellFormed (.number three) ∧ WellFormed (.number next) ∧ WellFormed row ∧
      three.toFloat.IsNearest three.value ∧ three.IsExact ∧ next.IsExact ∧
      (compare (.number three) .lt (.number next) = true ↔ three.value < next.value) ∧ three.value < next.value ∧
      row.compare .eq row = true := by
  intro three next row
  have h_three : WellFormed (.number three) := .number _ ⟨by decide, by decide⟩
  have h_next : WellFormed (.number next) := .number _ trivial
  have h_row : WellFormed row := .array _ fun v h_v => by rwa [List.mem_singleton.mp h_v]
  obtain ⟨h_numbers, h_floats, h_ints, -⟩ := numbers_compare_by_nearest _ _ h_three h_next
  obtain ⟨h_nearest, -, -, h_exact, -, h_less⟩ := h_numbers three next rfl rfl
  obtain ⟨-, -, -, h_rest⟩ := numbers_compare_by_nearest row row h_row h_row
  have h_three_exact : three.IsExact := h_ints 3 (by decide)
  -- the row is an array, so its equality is that of its parts
  have h_not : ¬∃ m n, row = .number m ∧ row = .number n := fun ⟨_, _, h, _⟩ => nomatch (h : Value.array _ = _)
  refine ⟨h_three, h_next, h_row, h_nearest, h_three_exact, h_floats _, h_exact h_three_exact (h_floats _) .lt,
    h_less (by decide), (h_rest h_not).2 (.refl (fun n => ⟨rfl, ?_⟩) row)⟩
  cases n <;> trivial

end Value

end ScriptYard
