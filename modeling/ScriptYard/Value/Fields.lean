/-!
# Named fields in key order

`Fields α` holds one value of `α` under each of finitely many names, as a list in ascending order
of the names. Objects of data documents and the variables of a script are both of this kind, and
everything that shows them shows them in that order, which is the order of code points.

`Fields.insert` and `Fields.ofList` keep the order (`Fields.Sorted`); a later entry replaces an
earlier one of the same name.
-/

namespace ScriptYard

/-- Values under names, in ascending order of the names. -/
abbrev Fields (α : Type) := List (String × α)

namespace Fields

variable {α β : Type}

/-- The names stand in strictly ascending order. -/
def Sorted (fields : Fields α) : Prop := fields.Pairwise (fun a b => a.1 < b.1)

/-- The value under a name. -/
def get? (fields : Fields α) (name : String) : Option α :=
  match fields with
  | [] => none
  | (n, v) :: rest => if n == name then some v else get? rest name

/-- Whether a name is present. -/
def contains (fields : Fields α) (name : String) : Bool := (fields.get? name).isSome

/-- The fields with a value put under a name, in the place of any value it had. -/
def insert (fields : Fields α) (name : String) (value : α) : Fields α :=
  match fields with
  | [] => [(name, value)]
  | (n, v) :: rest =>
    if name == n then (name, value) :: rest
    else if name < n then (name, value) :: (n, v) :: rest
    else (n, v) :: insert rest name value

/-- The fields without a name. -/
def erase (fields : Fields α) (name : String) : Fields α := fields.filter (fun f => f.1 != name)

/-- The names, in order. -/
def names (fields : Fields α) : List String := fields.map (·.1)

/-- The fields of a list of pairs, the last pair of a name counting. -/
def ofList (pairs : List (String × α)) : Fields α :=
  pairs.foldl (fun fields p => fields.insert p.1 p.2) []

/-- The fields of `extra` put over those of `fields`. -/
def extend (fields extra : Fields α) : Fields α :=
  extra.foldl (fun fields p => fields.insert p.1 p.2) fields

/-! ### Lemmas -/

@[simp] theorem get?_nil (name : String) : get? ([] : Fields α) name = none := rfl

@[simp] theorem get?_cons (n : String) (v : α) (rest : Fields α) (name : String) :
    get? ((n, v) :: rest) name = if n == name then some v else get? rest name := rfl

/-- A name just inserted is found, and every other name is found as before. -/
theorem get?_insert (fields : Fields α) (name other : String) (value : α) :
    (fields.insert name value).get? other =
      if name = other then some value else fields.get? other := by
  induction fields with
  | nil => simp [insert]
  | cons f rest ih =>
    obtain ⟨n, v⟩ := f
    unfold insert
    split
    · rename_i h
      have : name = n := by simpa using h
      subst this
      by_cases ho : name = other <;> simp [ho]
    · rename_i h
      have hne : name ≠ n := by simpa using h
      split
      · by_cases ho : name = other <;> simp [ho]
      · by_cases ho : n = other
        · subst ho; simp [hne]
        · simp [ho, ih]

/-- A name just erased is absent, and every other name is found as before. -/
theorem get?_erase (fields : Fields α) (name other : String) :
    (fields.erase name).get? other = if name = other then none else fields.get? other := by
  induction fields with
  | nil => simp [erase]
  | cons f rest ih =>
    obtain ⟨n, v⟩ := f
    simp only [erase, List.filter_cons] at ih ⊢
    by_cases hn : n = name
    · subst hn
      simp only [bne_self_eq_false, Bool.false_eq_true, if_false, ih, get?_cons]
      by_cases ho : n = other <;> simp [ho]
    · have : (n != name) = true := by simp [hn]
      simp only [this, if_true, get?_cons, ih]
      by_cases ho : n = other
      · subst ho; simp [Ne.symm hn]
      · simp [ho]

end Fields

end ScriptYard
