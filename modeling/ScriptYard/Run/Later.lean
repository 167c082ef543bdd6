import ScriptYard.Run.Context

/-!
# What is left of a process

Carrying a process on leaves less to do: `Process.Later q p` says that `q` is left when a part of `p`
has been done. Nothing has less and less left for ever (`Process.later_wf`), and what is left where a
process settles is the process itself or something later (`Process.settle_later`). So whoever carries
a process on from one place where it settles to the next comes to its end.
-/

namespace ScriptYard

namespace Process

variable {α : Type}

/-- What may come right after the first step of a process. -/
inductive Next : Process α → Process α → Prop
  | poll (k : Bool → Process α) (b : Bool) : Next (k b) (.poll k)
  | cancel (k : Process α) : Next k (.cancel k)
  | touch (k : Process α) : Next k (.touch k)
  | look (k : Variables → Process α) (vars : Variables) : Next (k vars) (.look k)
  | assign (name : String) (value : Value) (k : Process α) : Next k (.assign name value k)
  | call (r : Request) (k : r.Reply → Process α) (reply : r.Reply) : Next (k reply) (.call r k)
  | sleep (time : Span) (k : Bool → Process α) (passed : Bool) : Next (k passed) (.sleep time k)

/-- What may be left of a process after some steps, at least one. -/
def Later : Process α → Process α → Prop := Relation.TransGen Next

theorem next_acc (p : Process α) : Acc Next p := by
  induction p with
  | done a => exact ⟨_, fun _ h => nomatch h⟩
  | poll k ih => exact ⟨_, fun _ h => by cases h; exact ih _⟩
  | cancel k ih => exact ⟨_, fun _ h => by cases h; exact ih⟩
  | touch k ih => exact ⟨_, fun _ h => by cases h; exact ih⟩
  | look k ih => exact ⟨_, fun _ h => by cases h; exact ih _⟩
  | assign name value k ih => exact ⟨_, fun _ h => by cases h; exact ih⟩
  | call r k ih => exact ⟨_, fun _ h => by cases h; exact ih _⟩
  | sleep time k ih => exact ⟨_, fun _ h => by cases h; exact ih _⟩

/-- There is no endless descent to what is left. -/
theorem later_wf : WellFounded (Later (α := α)) := WellFounded.transGen ⟨next_acc⟩

instance : WellFoundedRelation (Process α) := ⟨Later, later_wf⟩

/-- What comes after a later process is later. -/
theorem Later.trans_next {p q r : Process α} (h : Next r q) : q = p ∨ Later q p → Later r p
  | .inl e => e ▸ .single h
  | .inr l => Relation.TransGen.trans (.single h) l

/-- Where a process settles is at its start or later. -/
theorem settle_later (now : Moment) (p : Process α) (c : RunContext) :
    (p.settle now c).1 = p ∨ Later (p.settle now c).1 p := by
  have step {p q r : Process α} (h : q = r ∨ Later q r) (n : Next r p) : q = p ∨ Later q p :=
    .inr (h.elim (fun e => e ▸ .single n) (fun l => l.tail n))
  fun_induction settle now p c with
  | case1 => exact .inl rfl
  | case2 k c ih => exact step ih (.poll _ _)
  | case3 k c ih => exact step ih (.cancel _)
  | case4 k c ih => exact step ih (.touch _)
  | case5 k c ih => exact step ih (.look _ _)
  | case6 name value k c ih => exact step ih (.assign _ _ _)
  | case7 => exact .inl rfl
  | case8 time k c h ih => exact step ih (.sleep _ _ _)
  | case9 => exact .inl rfl

end Process

end ScriptYard
