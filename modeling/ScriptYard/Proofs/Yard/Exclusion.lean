import ScriptYard.Proofs.Yard.Order

/-!
# How many runs a group has

A queue has one run at most (`Yard.Ordered.eq_of_place_eq`), and the groups that exist have different ids
(`Engine.Distinct`), so that the runs of tasks of these groups exclude each other. Groups may be removed
while a run of theirs is in the middle of a call, however, which nothing interrupts. Such a run is
`Engine.LeftBehind`: it stays among the live ones under the id of its group, which is free to be used again.

`Yard.live_of_group_le_one_iff` tells exactly what comes of this. Two tasks of one group are under way at
the same time if and only if one of them was left behind by the removal of its group
(`Yard.two_live_of_group` is a case). Without removals it does not happen
(`Yard.live_of_group_le_one_of_kept`).
-/

namespace ScriptYard

namespace Engine

/-- The groups of all queues, and whether they still exist. -/
def labels (e : Engine) : List (String × Bool) := e.queues.map fun h => (h.queue.id, h.listed)

/-- No two groups that exist have the same id. -/
def Distinct (e : Engine) : Prop :=
  ∀ (p p' : ℕ) (g : String), e.labels[p]? = some (g, true) → e.labels[p']? = some (g, true) → p = p'

/-- The group of the queue at a place was removed. -/
def Unlisted (e : Engine) (p : ℕ) : Prop := ∃ g, e.labels[p]? = some (g, false)

/-- The run is one of a task whose group was removed. -/
def LeftBehind (e : Engine) (r : EngineRun) : Prop := ∃ p ∈ r.place, ∃ g, e.labels[p]? = some (g, false)

/-- The live runs of tasks of a group. -/
def workers (e : Engine) (group : String) : List EngineRun :=
  e.runs.filter fun r => r.isLive && (r.info.task.isSome && r.info.group == group)

variable {e e' : Engine} {p : ℕ} {g : String} {q q' : GroupQueue}

/-- What is listed as the runs of tasks of a group are its workers. -/
theorem length_liveRuns_filter (e : Engine) (g : String) :
    (e.liveRuns.filter fun r => r.info.task.isSome && r.info.group == g).length = (e.workers g).length := by
  have h_perm : e.liveRuns.Perm e.table.live := List.mergeSort_perm _ _
  have h_live : e.table.live = (e.runs.filter (·.isLive)).map (·.tracked) := List.filter_map
  rw [(h_perm.filter _).length_eq, h_live, List.filter_map, List.length_map, List.filter_filter]
  refine congrArg List.length (List.filter_congr fun r _ => ?_)
  rw [Bool.and_comm]
  rfl

/-! ### The groups that exist -/

/-- The label of a place names the group of its queue. -/
theorem labels_of_queueAt (h_at : e.queueAt p = some q) : ∃ listed, e.labels[p]? = some (q.id, listed) := by
  obtain ⟨h, h_p, rfl⟩ := queueAt_eq_some.mp h_at
  refine ⟨h.listed, ?_⟩
  unfold labels
  rw [List.getElem?_map, h_p]
  rfl

theorem labels_setQueue (h_at : e.queueAt p = some q) (h_id : q'.id = q.id) :
    (e.setQueue p q').labels = e.labels := by
  obtain ⟨h, h_p, rfl⟩ := queueAt_eq_some.mp h_at
  refine List.ext_getElem? fun p' => ?_
  unfold labels setQueue
  rw [List.getElem?_map, List.getElem?_map]
  by_cases h_eq : p = p'
  · rw [← h_eq, List.getElem?_modify_eq, h_p]
    simp only [Option.map_eq_map, Option.map_some, h_id]
  · rw [List.getElem?_modify_ne _ _ h_eq]

theorem labels_unlist (e : Engine) (p : ℕ) :
    (e.unlist p).labels = e.labels.modify p fun l => (l.1, false) := by
  refine List.ext_getElem? fun p' => ?_
  unfold labels unlist
  rw [List.getElem?_map]
  by_cases h_eq : p = p'
  · rw [← h_eq, List.getElem?_modify_eq, List.getElem?_modify_eq, List.getElem?_map]
    simp only [Option.map_eq_map, Option.map_map]
    rfl
  · rw [List.getElem?_modify_ne _ _ h_eq, List.getElem?_modify_ne _ _ h_eq, List.getElem?_map]

/-- The id of a group that is created is not in use. -/
theorem labels_createGroup {id name : String} (h : e.createGroup id name = .ok e') :
    e'.labels = e.labels ++ [(id, true)] ∧ (id, true) ∉ e.labels := by
  refine ⟨?_, fun h_mem => ?_⟩
  · rw [createGroup_eq_ok h]
    exact List.map_append
  · -- a group that exists under the id is found, and the creation is refused
    obtain ⟨x, h_x, h_label⟩ := List.mem_map.mp h_mem
    obtain ⟨h_id, h_listed⟩ := Prod.mk.inj h_label
    have h_some : (e.queue? (e.freshQueue id name).id).isSome = true :=
      List.find?_isSome.mpr
        ⟨x.queue, List.mem_map_of_mem (List.mem_filter.mpr ⟨h_x, h_listed⟩), beq_iff_eq.mpr h_id⟩
    unfold createGroup addQueue at h
    rw [if_pos h_some] at h
    cases h

theorem labels_launch (e : Engine) (p : ℕ) (t : Task) (c : Clock) : (e.launch p t c).labels = e.labels := by
  cases h_at : e.queueAt p with
  | none =>
    have h_p : e.queues[p]? = none := by simpa [queueAt] using h_at
    unfold launch
    rw [h_p]
  | some q =>
    obtain ⟨r, -, -, -, -, -, -, -, h_launch⟩ := launch_spec h_at t c
    rw [h_launch]
    exact labels_setQueue h_at (q.after_fixed (.attach t.id (idText e.issued) ⟨e.issued⟩)).1

theorem labels_finish {n : ℕ} {c : Clock} {report : RunReport} (h : e.finish n c = some (report, e')) :
    e'.labels = e.labels := by
  obtain ⟨r, -, -, -, ⟨-, rfl⟩ | ⟨p, q, t, -, h_at, -, rfl⟩⟩ := finish_cases h
  · rfl
  · exact labels_setQueue h_at (q.after_fixed _).1

namespace Distinct

theorem append (h : e.Distinct) (h_labels : e'.labels = e.labels ++ [(g, true)])
    (h_new : (g, true) ∉ e.labels) : e'.Distinct := by
  -- a place has a group that was there before, or it is the new one
  have h_old : ∀ (p : ℕ) (g' : String), e'.labels[p]? = some (g', true) →
      e.labels[p]? = some (g', true) ∨ p = e.labels.length ∧ g' = g := by
    intro p g' h_p
    rw [h_labels] at h_p
    by_cases h_lt : p < e.labels.length
    · rw [List.getElem?_append_left h_lt] at h_p
      exact .inl h_p
    · rw [List.getElem?_append_right (Nat.le_of_not_lt h_lt), List.getElem?_singleton] at h_p
      split at h_p
      · cases h_p
        exact .inr ⟨by omega, rfl⟩
      · cases h_p
  intro p p' g' h_p h_p'
  rcases h_old p g' h_p with h_was | ⟨h_last, rfl⟩
  · rcases h_old p' g' h_p' with h_was' | ⟨-, rfl⟩
    · exact h p p' g' h_was h_was'
    · exact absurd (List.mem_of_getElem? h_was) h_new
  · rcases h_old p' g' h_p' with h_was' | ⟨h_last', -⟩
    · exact absurd (List.mem_of_getElem? h_was') h_new
    · rw [h_last, h_last']

theorem unlist (h : e.Distinct) (h_labels : e'.labels = e.labels.modify p fun l => (l.1, false)) :
    e'.Distinct := by
  -- what still exists existed before, at the same place
  have h_old : ∀ (p' : ℕ) (g : String), e'.labels[p']? = some (g, true) → e.labels[p']? = some (g, true) := by
    intro p' g h_p'
    rw [h_labels] at h_p'
    by_cases h_eq : p = p'
    · rw [h_eq, List.getElem?_modify_eq] at h_p'
      obtain ⟨l, -, h_l⟩ := Option.map_eq_some_iff.mp h_p'
      cases h_l
    · rw [List.getElem?_modify_ne _ _ h_eq] at h_p'
      exact h_p'
  exact fun p p' g h_p h_p' => h p p' g (h_old p g h_p) (h_old p' g h_p')

end Distinct

end Engine

namespace Yard

open Engine

variable {y : Yard} {r r' : EngineRun} {p : ℕ} {g : String}

theorem labels_operate (y : Yard) (place : ℕ) (op : QueueOp) :
    (y.operate place op).engine.labels = y.engine.labels := by
  unfold operate
  split
  · next q h_at => exact labels_setQueue h_at (q.after_fixed op).1
  · rfl

theorem labels_goOn (y : Yard) (run : ℕ) (f : EngineRun → Option (Process RunEnd × RunContext)) :
    (y.goOn run f).engine.labels = y.engine.labels := by
  unfold goOn
  split <;> rfl

/-- Groups are created and removed by the moves for this only. -/
theorem labels_step (y : Yard) (m : Move) :
    (y.step m).engine.labels = y.engine.labels ∨
      (∃ id, (y.step m).engine.labels = y.engine.labels ++ [(id, true)] ∧ (id, true) ∉ y.engine.labels) ∨
      ∃ p, m = .unlist p ∧ (y.step m).engine.labels = y.engine.labels.modify p fun l => (l.1, false) := by
  cases m with
  | createGroup id name =>
    simp only [step]
    split
    · next e h_e => exact .inr (.inl ⟨id, labels_createGroup h_e⟩)
    · exact .inl rfl
  | unlist place => exact .inr (.inr ⟨place, rfl, labels_unlist _ _⟩)
  -- operations of queues, launches and ends keep all groups with their switches
  | setEnabled | setExceptionScript | submit | cancel | cancelAll => exact .inl (labels_operate y _ _)
  | handOut place now =>
    simp only [step, handOut]
    split
    · exact .inl (labels_operate y _ _)
    · exact .inl rfl
  | launch index c =>
    simp only [step, launch]
    split
    · exact .inl (labels_launch _ _ _ _)
    · exact .inl rfl
  | work | reply | wake => exact .inl (labels_goOn y _ _)
  | finish run c =>
    simp only [step, finish]
    split
    · next h_fin => exact .inl (labels_finish h_fin)
    · exact .inl rfl
  | openRun | begin | stop | catalog | switch => exact .inl rfl

/-- A group that was removed stays so. -/
theorem unlisted_step (h : y.engine.Unlisted p) (m : Move) : (y.step m).engine.Unlisted p := by
  obtain ⟨g, h_p⟩ := h
  obtain h_same | ⟨id, h_labels, -⟩ | ⟨p', -, h_labels⟩ := y.labels_step m
  · exact ⟨g, h_same ▸ h_p⟩
  · refine ⟨g, ?_⟩
    rw [h_labels]
    exact List.getElem?_append_left (List.getElem?_eq_some_iff.mp h_p).1 ▸ h_p
  · refine ⟨g, ?_⟩
    rw [h_labels]
    by_cases h_eq : p' = p
    · rw [h_eq, List.getElem?_modify_eq, h_p]
      rfl
    · rw [List.getElem?_modify_ne _ _ h_eq, h_p]

theorem unlisted_run (h : y.engine.Unlisted p) (moves : List Move) : (y.run moves).engine.Unlisted p := by
  induction moves generalizing y with
  | nil => exact h
  | cons m moves ih => exact ih (unlisted_step h m)

/-- Every run keeps the ids of groups apart. -/
theorem distinct_run (h : y.engine.Distinct) (moves : List Move) : (y.run moves).engine.Distinct := by
  induction moves generalizing y with
  | nil => exact h
  | cons m moves ih =>
    refine ih ?_
    obtain h_same | ⟨id, h_labels, h_new⟩ | ⟨p, -, h_labels⟩ := y.labels_step m
    · unfold Distinct
      rw [h_same]
      exact h
    · exact h.append h_labels h_new
    · exact h.unlist h_labels

/-- Groups that are not removed stay. -/
theorem listed_run (h : ∀ l ∈ y.engine.labels, l.2 = true) {moves : List Move}
    (h_kept : ∀ p, .unlist p ∉ moves) : ∀ l ∈ (y.run moves).engine.labels, l.2 = true := by
  induction moves generalizing y with
  | nil => exact h
  | cons m moves ih =>
    refine ih (fun l h_l => ?_) fun p h_p => h_kept p (List.mem_cons_of_mem m h_p)
    obtain h_same | ⟨id, h_labels, -⟩ | ⟨p, rfl, -⟩ := y.labels_step m
    · exact h l (h_same ▸ h_l)
    · rw [h_labels] at h_l
      rcases List.mem_append.mp h_l with h_l | h_l
      · exact h l h_l
      · rw [List.mem_singleton.mp h_l]
    · exact absurd List.mem_cons_self (h_kept p)

/-! ### Runs of one group -/

namespace Ordered

/-- The run of a task whose group still exists is at the place of this group. -/
theorem labels_of_kept (h : y.Ordered) (h_r : r ∈ y.engine.runs) (h_task : r.info.task.isSome = true)
    (h_kept : ¬ y.engine.LeftBehind r) :
    ∃ p, r.place = some p ∧ y.engine.labels[p]? = some (r.info.group, true) := by
  obtain ⟨books, h_books⟩ := h.books
  obtain ⟨t, h_task⟩ := Option.isSome_iff_exists.mp h_task
  obtain ⟨p, u, h_place, ⟨q, h_at, h_run⟩, -, h_group, -⟩ := h.placed_of_task h_r h_task
  have h_id : r.info.group = q.id := h_group.trans (h_books.running_group h_at h_run)
  obtain ⟨listed, h_label⟩ := labels_of_queueAt h_at
  cases listed with
  | false => exact absurd ⟨p, h_place, q.id, h_label⟩ h_kept
  | true => exact ⟨p, h_place, h_id ▸ h_label⟩

/-- **Runs of tasks exclude each other** in a group as long as the group of neither was removed. -/
theorem eq_of_group_eq (h : y.Ordered) (h_distinct : y.engine.Distinct) (h_r : r ∈ y.engine.workers g)
    (h_r' : r' ∈ y.engine.workers g) (h_kept : ¬ y.engine.LeftBehind r)
    (h_kept' : ¬ y.engine.LeftBehind r') : r = r' := by
  obtain ⟨h_mem, h_r⟩ := List.mem_filter.mp h_r
  obtain ⟨h_mem', h_r'⟩ := List.mem_filter.mp h_r'
  simp only [Bool.and_eq_true, beq_iff_eq] at h_r h_r'
  obtain ⟨-, h_task, rfl⟩ := h_r
  obtain ⟨-, h_task', h_group⟩ := h_r'
  -- both are at the place of the one group of this id
  obtain ⟨p, h_place, h_p⟩ := h.labels_of_kept h_mem h_task h_kept
  obtain ⟨p', h_place', h_p'⟩ := h.labels_of_kept h_mem' h_task' h_kept'
  rw [h_group] at h_p'
  obtain rfl := h_distinct p p' r.info.group h_p h_p'
  exact h.eq_of_place_eq h_mem h_mem' h_place h_place'

theorem nodup_workers (h : y.Ordered) (g : String) : (y.engine.workers g).Nodup :=
  (h.sound.numbers.of_map _).sublist List.filter_sublist

/-- If nothing was left behind in a group, it has one live run of a task at most. -/
theorem length_workers_le_one (h : y.Ordered) (h_distinct : y.engine.Distinct)
    (h_kept : ∀ r ∈ y.engine.workers g, ¬ y.engine.LeftBehind r) : (y.engine.workers g).length ≤ 1 := by
  have h_nodup := h.nodup_workers g
  cases h_ws : y.engine.workers g with
  | nil => exact Nat.zero_le _
  | cons a l =>
    cases l with
    | nil => exact Nat.le_refl _
    | cons b l =>
      have h_a : a ∈ y.engine.workers g := h_ws ▸ List.mem_cons_self
      have h_b : b ∈ y.engine.workers g := h_ws ▸ List.mem_cons_of_mem a List.mem_cons_self
      have h_eq : a = b := h.eq_of_group_eq h_distinct h_a h_b (h_kept a h_a) (h_kept b h_b)
      rw [h_ws, h_eq] at h_nodup
      exact absurd List.mem_cons_self (List.nodup_cons.mp h_nodup).1

end Ordered

theorem distinct_idle (settings : EngineSettings) : (idle settings).engine.Distinct :=
  fun _ _ _ h => nomatch h

/-- **How many tasks of a group are under way.** After any moves of an engine, whatever their order, the
live runs of tasks of a group are one at most if and only if every run among them that was left behind by
the removal of its group is the only one. -/
theorem live_of_group_le_one_iff (settings : EngineSettings) (moves : List Move) (g : String) :
    let e := ((idle settings).run moves).engine
    (e.liveRuns.filter fun r => r.info.task.isSome && r.info.group == g).length ≤ 1 ↔
      ∀ r ∈ e.workers g, e.LeftBehind r → e.workers g = [r] := by
  intro e
  have h : ((idle settings).run moves).Ordered := (Ordered.idle settings).run moves
  have h_distinct := distinct_run (distinct_idle settings) moves
  rw [length_liveRuns_filter]
  constructor
  · -- where there is one at most, a run that was left behind is that one
    intro h_le r h_r _
    obtain ⟨r', h_eq⟩ := List.length_eq_one_iff.mp
      (Nat.le_antisymm h_le (List.length_pos_of_mem h_r))
    rw [h_eq] at h_r ⊢
    rw [List.mem_singleton.mp h_r]
  · -- and where there are two, neither was left behind, so that they exclude each other
    intro h_only
    by_cases h_left : ∃ r ∈ e.workers g, e.LeftBehind r
    · obtain ⟨r, h_r, h_behind⟩ := h_left
      rw [h_only r h_r h_behind]
      exact Nat.le_refl 1
    · exact h.length_workers_le_one h_distinct fun r h_r h_behind => h_left ⟨r, h_r, h_behind⟩

/-- A task whose one action is a call. -/
def callTask (group : String) : Task where
  id := ""
  group := group
  script := "script"
  actions := [.call ⟨"dev", "tap", [], none⟩ none]
  createdAt := .ofMillis 0

/-- A group is removed in the middle of a call and created again, and a task of each is under way. -/
def reopening : List Move :=
  [.createGroup "g" "G", .submit 0 (callTask "g"), .handOut 0 (.ofMillis 0), .launch 0 {}, .begin 1 {},
    .work 1 0, .work 1 0,
    .unlist 0, .cancelAll 0 (.ofMillis 0), .stop (·.info.group == "g"),
    .createGroup "g" "G", .submit 1 (callTask "g"), .handOut 1 (.ofMillis 0), .launch 0 {}, .begin 3 {}]

/-- Two tasks of one group can be under way at the same time. -/
theorem two_live_of_group :
    ¬ ∀ (settings : EngineSettings) (moves : List Move) (g : String),
      (((idle settings).run moves).engine.liveRuns.filter fun r =>
        r.info.task.isSome && r.info.group == g).length ≤ 1 := by
  intro h
  have h_le := h {} reopening "g"
  rw [length_liveRuns_filter] at h_le
  revert h_le
  decide

/-- **Without removals** of groups, there is one live run of a task of each group at most. -/
theorem live_of_group_le_one_of_kept (settings : EngineSettings) (moves : List Move)
    (h_kept : ∀ p, .unlist p ∉ moves) (g : String) :
    (((idle settings).run moves).engine.liveRuns.filter fun r =>
      r.info.task.isSome && r.info.group == g).length ≤ 1 := by
  have h : ((idle settings).run moves).Ordered := (Ordered.idle settings).run moves
  have h_listed := listed_run (y := idle settings) (fun l h_l => absurd h_l List.not_mem_nil) h_kept
  rw [length_liveRuns_filter]
  refine h.length_workers_le_one (distinct_run (distinct_idle settings) moves) fun r _ h_behind => ?_
  obtain ⟨p, -, g', h_label⟩ := h_behind
  exact absurd (h_listed _ (List.mem_of_getElem? h_label)) Bool.false_ne_true

end Yard

end ScriptYard
