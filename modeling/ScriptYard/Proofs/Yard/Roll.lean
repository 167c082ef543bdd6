import ScriptYard.Proofs.Yard.Cancellation

/-!
# Runs that began

A `Yard.Roll` is a list of the runs of a yard that have begun. It goes on with every move if the run that
begins in it is added (`Yard.Roll.step`), also when the runs themselves are long finished, and no id is
listed twice.

A run is `Yard.Silenced` once it has begun and is cancelled or at its end. It may be finished and taken away
later, but it never goes on again (`Yard.Silenced.step`). As ids are not issued twice, no other run takes
its id.
-/

namespace ScriptYard

namespace Yard

structure Roll (y : Yard) (began : List RunInfo) : Prop where
  /-- A run that has begun is listed. -/
  enrolled : ∀ r ∈ y.engine.runs, r.begunAt.isSome = true → r.info ∈ began
  /-- A run of a listed id has begun. -/
  begun : ∀ r ∈ y.engine.runs, r.info.id ∈ began.map (·.id) → r.begunAt.isSome = true
  /-- The ids of the list were issued. -/
  issued : ∀ i ∈ began, ∃ k < y.engine.issued, i.id = Engine.idText k
  /-- None is listed twice. -/
  distinct : (began.map (·.id)).Nodup
  /-- The ids of the tasks of listed runs were issued. -/
  tasks : ∀ i ∈ began, ∀ t, i.task = some t → ∃ k < y.engine.issued, t = Engine.idText k

/-- The run of the id began, and it is cancelled or at its end as long as it is there. -/
structure Silenced (y : Yard) (id : String) : Prop where
  issued : ∃ k < y.engine.issued, id = Engine.idText k
  /-- The run is cancelled or at its end. -/
  runs : ∀ r ∈ y.engine.runs, r.info.id = id → r.begunAt.isSome = true ∧
    (r.context.cancelled = true ∨ r.process.end?.isSome = true)

variable {y : Yard} {m : Move} {began : List RunInfo} {id : String} {i : RunInfo}

/-! ### The run that begins in a move -/

/-- The run that begins in a move is there, and has not begun before. -/
theorem mem_entered (h : y.Ordered) : i ∈ y.entered m ↔
    ∃ r ∈ y.engine.runs, r.info = i ∧ r.begunAt = none ∧ ∃ c, m = .begin r.number c := by
  unfold entered
  rw [Option.mem_toList, Option.map_eq_some_iff]
  constructor
  · rintro ⟨r, h_r, rfl⟩
    cases m with
    | begin n c =>
      obtain ⟨h_find, h_none⟩ := Option.filter_eq_some_iff.mp h_r
      obtain rfl : r.number = n := by simpa using List.find?_some h_find
      exact ⟨r, List.mem_of_find?_eq_some h_find, rfl, Option.isNone_iff_eq_none.mp h_none, c, rfl⟩
    -- no other move begins a run
    | _ => cases h_r
  · rintro ⟨r, h_r, rfl, h_none, c, rfl⟩
    refine ⟨r, ?_, rfl⟩
    rw [starter?, h.run?_eq h_r, Option.filter_some, h_none]
    rfl

theorem nodup_entered (y : Yard) (m : Move) : ((y.entered m).map (·.id)).Nodup := by
  unfold entered
  cases y.starter? m with
  | none => exact List.nodup_nil
  | some r => exact List.nodup_singleton _

namespace Roll

/-- The ids of the list and of the run that begins were issued. -/
theorem issued_append (h_roll : y.Roll began) (h : y.Ordered) (h_named : y.Named)
    (h_i : i ∈ began ++ y.entered m) : ∃ k < y.engine.issued, i.id = Engine.idText k := by
  rcases List.mem_append.mp h_i with h_i | h_i
  · exact h_roll.issued i h_i
  · obtain ⟨r, h_r, rfl, -⟩ := (mem_entered h).mp h_i
    exact h_named.id_issued h h_r

/-- The run that begins is not listed before. -/
theorem distinct_append (h_roll : y.Roll began) (h : y.Ordered) (m : Move) :
    ((began ++ y.entered m).map (·.id)).Nodup := by
  rw [List.map_append, List.nodup_append]
  refine ⟨h_roll.distinct, y.nodup_entered m, ?_⟩
  rintro id h_id _ h_id' rfl
  obtain ⟨i, h_i, rfl⟩ := List.mem_map.mp h_id'
  obtain ⟨r, h_r, rfl, h_none, -⟩ := (mem_entered h).mp h_i
  have h_begun := h_roll.begun r h_r h_id
  rw [h_none] at h_begun
  cases h_begun

/-- **Every move keeps the roll**, if the run that begins in it is added. -/
theorem step (h_roll : y.Roll began) (h : y.Ordered) (h_named : y.Named) (m : Move) :
    (y.step m).Roll (began ++ y.entered m) where
  enrolled := fun r' h_r' h_begun => by
    obtain ⟨r, h_r, h_on, h_iff⟩ | ⟨-, -, h_none, -⟩ := (y.turn m).origin h h_r'
    · rw [h_on.info]
      cases h_was : r.begunAt with
      | some time =>
        have h_old : r.begunAt.isSome = true := by rw [h_was]; rfl
        exact List.mem_append_left _ (h_roll.enrolled r h_r h_old)
      | none =>
        -- it has begun in this move
        rw [h_was] at h_iff
        have h_move : ∃ c, m = .begin r.number c := by simpa [h_begun] using h_iff
        exact List.mem_append_right _ ((mem_entered h).mpr ⟨r, h_r, rfl, h_was, h_move⟩)
    · rw [h_none] at h_begun
      cases h_begun
  begun := fun r' h_r' h_id => by
    obtain ⟨i, h_i, h_eq⟩ := List.mem_map.mp h_id
    obtain ⟨r, h_r, h_on, h_iff⟩ | ⟨h_number, h_name, -⟩ := (y.turn m).origin h h_r'
    · rw [h_on.info] at h_eq
      rcases List.mem_append.mp h_i with h_i | h_i
      · exact h_iff.mpr (.inl (h_roll.begun r h_r (List.mem_map.mpr ⟨i, h_i, h_eq⟩)))
      · obtain ⟨r₁, h_r₁, rfl, -, h_move⟩ := (mem_entered h).mp h_i
        obtain rfl := h_named.eq_of_id_eq h h_r₁ h_r h_eq
        exact h_iff.mpr (.inr h_move)
    · -- the id of a new run is in no list
      rw [h_name, h_number] at h_eq
      exact absurd h_eq (ne_of_issued (h_roll.issued_append h h_named h_i))
  issued := fun _ h_i => issued_mono (h_roll.issued_append h h_named h_i) (h.issued_step m)
  distinct := h_roll.distinct_append h m
  tasks := fun i h_i t h_t => by
    refine issued_mono ?_ (h.issued_step m)
    rcases List.mem_append.mp h_i with h_i | h_i
    · exact h_roll.tasks i h_i t h_t
    · obtain ⟨r, h_r, rfl, -⟩ := (mem_entered h).mp h_i
      exact h.task_issued h_r h_t

end Roll

/-- **Every move leaves a silenced run silenced.** -/
theorem Silenced.step (h_id : y.Silenced id) (h : y.Ordered) (m : Move) : (y.step m).Silenced id := by
  refine ⟨issued_mono h_id.issued (h.issued_step m), fun r' h_r' h_eq => ?_⟩
  obtain ⟨r, h_r, h_on, h_iff⟩ | ⟨h_number, h_name, -⟩ := (y.turn m).origin h h_r'
  · rw [h_on.info] at h_eq
    obtain ⟨h_begun, h_quiet⟩ := h_id.runs r h_r h_eq
    refine ⟨h_iff.mpr (.inl h_begun), ?_⟩
    rcases h_quiet with h_cancelled | h_end
    · exact .inl (h_on.cancelled h_cancelled)
    · rw [h_on.ended h_end]
      exact .inr h_end
  · rw [← h_eq, h_name, h_number] at h_id
    exact absurd rfl (ne_of_issued h_id.issued)

/-- **A run that began is silenced** when it is told to stop as long as it is live. -/
theorem Roll.silenced_stop (h_roll : y.Roll began) (h_i : i ∈ began) :
    (y.step (.stop fun r => r.isLive && r.info.id == i.id)).Silenced i.id := by
  refine ⟨h_roll.issued i h_i, fun r' h_r' h_id => ?_⟩
  obtain ⟨r, h_r, rfl⟩ := List.mem_map.mp h_r'
  have h_same : r.info.id = i.id := by
    split at h_id
    · exact h_id
    · exact h_id
  have h_begun : r.begunAt.isSome = true := h_roll.begun r h_r (List.mem_map.mpr ⟨i, h_i, h_same.symm⟩)
  -- a run that has begun is live unless it is at its end
  cases h_end : r.process.end? with
  | none =>
    have h_live : (r.isLive && r.info.id == i.id) = true := by
      simp [EngineRun.isLive, h_begun, h_end, h_same]
    rw [if_pos h_live]
    exact ⟨h_begun, .inl rfl⟩
  | some x =>
    have h_over : ¬ (r.isLive && r.info.id == i.id) = true := by simp [EngineRun.isLive, h_end]
    rw [if_neg h_over, h_end]
    exact ⟨h_begun, .inr rfl⟩

end Yard

end ScriptYard
