import ScriptYard.Command.Perform
import ScriptYard.Proofs.Script.References
import ScriptYard.Proofs.Value.Fields
import ScriptYard.Proofs.Yard.Catalog

/-!
# Serving a library

An engine that is to serve a library takes in its scripts and groups and then queues the scripts that are
started with it, one after the other; the default group is created when the first script without a group
needs it, unless the library has a group of that name. Each of these steps can be refused, but none is if the
library uses no id twice and refers to nothing outside (`ScriptLibrary.Closed`).

`Serving.engine` says which engine there is at each point: what its groups are, and which scripts were queued.
That every step leads from one such engine to the next is `Serving.autostart_engine`, and what can be seen of
the last of them is `valid_library_is_served`. The scripts of a catalog can be replaced but never go away
(`Engine.Operation.contains_scripts`), so that a script that is named for stalled runs is found whenever a run
stalls.
-/

namespace ScriptYard

/-- A library that is served, and what is chosen about it. -/
structure Serving where
  library : ScriptLibrary
  settings : EngineSettings
  /-- The group of scripts that have none. -/
  defaultGroup : String
  /-- The time of day. -/
  now : Instant

namespace Serving

variable (v : Serving)

/-- The engine before anything is done. -/
def blank : Engine := { settings := v.settings }

def groupOf (s : ScriptDefinition) : String := s.group.getD v.defaultGroup

/-- The task of a script that is queued as the `n`-th. -/
def opening (n : ℕ) (s : ScriptDefinition) : Task where
  id := Engine.idText n
  group := v.groupOf s
  script := s.displayName
  scriptId := some s.id
  actions := s.actions
  vars := s.vars
  exceptionScript := s.exceptionScript
  priority := s.priority.getD 0
  createdAt := v.now
  maxRetries := s.maxRetries.getD v.settings.defaultMaxRetries

/-- The tasks of some scripts that are queued one after the other. -/
def openings (queued : List ScriptDefinition) : List Task := queued.mapIdx v.opening

/-- The group that is created for scripts that have none. -/
def spareGroup : GroupDefinition := { id := v.defaultGroup, name := v.defaultGroup }

/-- The groups there are when some scripts were queued: those of the library, and the default group if a
script needed it and the library does not have it. -/
def groups (queued : List ScriptDefinition) : List GroupDefinition :=
  if (v.library.group? v.defaultGroup).isNone && queued.any (·.group.isNone)
  then v.library.groups ++ [v.spareGroup] else v.library.groups

/-- The queue of a group when some tasks were queued. -/
def queue (tasks : List Task) (g : GroupDefinition) : GroupQueue :=
  { v.blank.definedQueue g with
    pending := (tasks.filter (·.group == g.id)).foldl (fun line t => GroupQueue.insertByPriority t line) [] }

/-- The engine that has some groups and in which some scripts were queued. -/
def engine (groups : List GroupDefinition) (queued : List ScriptDefinition) : Engine where
  settings := v.settings
  scripts := Fields.ofList (v.library.scripts.map fun s => (s.id, s))
  queues := groups.map fun g => ⟨v.queue (v.openings queued) g, true⟩
  issued := queued.length

variable {v} {groups : List GroupDefinition} {queued : List ScriptDefinition} {s : ScriptDefinition}

theorem openings_concat (queued : List ScriptDefinition) (s : ScriptDefinition) :
    v.openings (queued ++ [s]) = v.openings queued ++ [v.opening queued.length s] :=
  List.mapIdx_concat

/-! ### Groups and queues -/

/-- The place of a group among the groups is the place of its queue. -/
theorem place?_engine (g : String) :
    (v.engine groups queued).place? g = groups.findIdx? (·.id == g) := by
  unfold Engine.place? engine
  rw [List.findIdx?_map]
  rfl

theorem queue?_engine (g : String) :
    (v.engine groups queued).queue? g =
      (groups.find? (·.id == g)).map (v.queue (v.openings queued)) := by
  have h_listed : (v.engine groups queued).listedQueues = groups.map (v.queue (v.openings queued)) := by
    simp [Engine.listedQueues, engine, List.filter_map, Function.comp_def]
  unfold Engine.queue?
  rw [h_listed, List.find?_map]
  rfl

theorem isNone_queue?_engine (g : String) :
    ((v.engine groups queued).queue? g).isNone = true ↔ g ∉ groups.map (·.id) := by
  rw [queue?_engine, Option.isNone_map]
  simp

theorem queueAt_engine (p : ℕ) :
    (v.engine groups queued).queueAt p = groups[p]?.map (v.queue (v.openings queued)) := by
  unfold Engine.queueAt engine
  rw [List.getElem?_map, Option.map_map]
  rfl

/-- A task that is queued goes to the queue of its group and to no other. -/
theorem queue_concat (tasks : List Task) (n : ℕ) (s : ScriptDefinition) (g : GroupDefinition) :
    v.queue (tasks ++ [v.opening n s]) g =
      if v.groupOf s = g.id then (v.queue tasks g).after (.enqueue (v.opening n s)) else v.queue tasks g := by
  split
  · next h =>
    have h_ok : (v.queue tasks g).enqueue (v.opening n s) = .ok { v.queue tasks g with
        pending := GroupQueue.insertByPriority (v.opening n s) (v.queue tasks g).pending } := if_pos h
    -- the tasks of the group are those of before and this one, in the order of their queueing
    have h_here : (tasks ++ [v.opening n s]).filter (·.group == g.id) =
        tasks.filter (·.group == g.id) ++ [v.opening n s] := by
      simp [opening, h]
    rw [GroupQueue.after, h_ok]
    simp only [queue, h_here, List.foldl_append, List.foldl_cons, List.foldl_nil]
  · next h =>
    have h_away : (tasks ++ [v.opening n s]).filter (·.group == g.id) = tasks.filter (·.group == g.id) := by
      simp [opening, h]
    simp only [queue, h_away]

/-- Where the groups have different ids, the change of one queue is a change of the queue of one group. -/
theorem modify_map_of_findIdx? {β : Type} {F F' : GroupDefinition → β} {f : β → β} {i : String} {p : ℕ}
    (h_nodup : (groups.map (·.id)).Nodup) (h_p : groups.findIdx? (·.id == i) = some p)
    (h_here : ∀ g ∈ groups[p]?, f (F g) = F' g) (h_away : ∀ g, g.id ≠ i → F g = F' g) :
    (groups.map F).modify p f = groups.map F' := by
  induction groups generalizing p with
  | nil => cases h_p
  | cons g groups ih =>
    obtain ⟨h_g, h_rest⟩ := List.nodup_cons.mp h_nodup
    rw [List.findIdx?_cons] at h_p
    by_cases h_eq : g.id = i
    · rw [if_pos (beq_iff_eq.mpr h_eq)] at h_p
      cases h_p
      refine congrArg₂ List.cons (h_here g rfl) (List.map_congr_left fun g' h_g' => h_away g' fun h_id => ?_)
      -- no later group has the id again, so the rest is not touched
      exact h_g (List.mem_map.mpr ⟨g', h_g', h_id.trans h_eq.symm⟩)
    · rw [if_neg (by simpa using h_eq)] at h_p
      obtain ⟨p', h_p', rfl⟩ := Option.map_eq_some_iff.mp h_p
      exact congrArg₂ List.cons (h_away g h_eq) (ih h_rest h_p' h_here)

/-! ### Steps -/

/-- Every script of the library is found in the catalog. -/
theorem get?_catalog (h_closed : v.library.Closed) (h_s : s ∈ v.library.scripts) :
    (v.engine groups queued).scripts.get? s.id = some s := by
  cases h_get : (v.engine groups queued).scripts.get? s.id with
  | none =>
    have h_name : s.id ∉ (v.library.scripts.map fun s => (s.id, s)).map Prod.fst :=
      fun h_mem => Fields.get?_eq_none_iff.mp h_get (Fields.mem_names_ofList.mpr h_mem)
    exact absurd (List.mem_map_of_mem (List.mem_map_of_mem h_s)) h_name
  | some s' =>
    obtain ⟨s'', h_s'', h_eq⟩ := List.mem_map.mp (Fields.mem_of_mem_ofList (Fields.mem_of_get? h_get))
    obtain ⟨h_id, rfl⟩ := Prod.mk.inj h_eq
    rw [List.inj_on_of_nodup_map h_closed.scripts_nodup h_s'' h_s h_id]

/-- A script is queued in its group. -/
theorem submitScript_engine (queued : List ScriptDefinition) (h_closed : v.library.Closed)
    (h_s : s ∈ v.library.scripts) (h_nodup : (groups.map (·.id)).Nodup)
    (h_group : v.groupOf s ∈ groups.map (·.id)) :
    (v.engine groups queued).submitScript (v.groupOf s) s.id none v.now =
      .ok (Engine.idText queued.length, v.engine groups (queued ++ [s])) := by
  have h_task : (v.engine groups queued).taskOf s (v.groupOf s) none v.now = v.opening queued.length s := rfl
  -- the group of the script is one of those that are there
  obtain ⟨p, h_p⟩ : ∃ p, groups.findIdx? (·.id == v.groupOf s) = some p := by
    obtain ⟨g, h_g, h_id⟩ := List.mem_map.mp h_group
    refine Option.isSome_iff_exists.mp ?_
    rw [List.findIdx?_isSome]
    exact List.any_eq_true.mpr ⟨g, h_g, beq_iff_eq.mpr h_id⟩
  have h_place : (v.engine groups queued).place? (v.groupOf s) = some p := (place?_engine _).trans h_p
  obtain ⟨q, -, h_at, -⟩ := Engine.queue_of_place? h_place
  rw [Engine.submitScript_of_get? (get?_catalog h_closed h_s), h_task,
    Engine.submitTask_of_place? (t := v.opening queued.length s) h_place h_at]
  rw [queueAt_engine] at h_at
  obtain ⟨g, h_g, rfl⟩ := Option.map_eq_some_iff.mp h_at
  have h_queues : (v.engine groups queued).queues.modify p (fun h => { h with
      queue := (v.queue (v.openings queued) g).after (.enqueue (v.opening queued.length s)) }) =
      (v.engine groups (queued ++ [s])).queues := by
    -- only the queue of that group changes: others filter the new task away
    refine modify_map_of_findIdx? h_nodup h_p (fun g' h_g' => ?_) fun g' h_ne => ?_
    · obtain rfl : g = g' := Option.some.inj (h_g.symm.trans h_g')
      have h_id : v.groupOf s = g.id := by
        obtain ⟨h_lt, h_beq, -⟩ := List.findIdx?_eq_some_iff_getElem.mp h_p
        rw [List.getElem?_eq_getElem h_lt] at h_g
        obtain rfl := Option.some.inj h_g
        exact (beq_iff_eq.mp h_beq).symm
      rw [openings_concat, queue_concat, if_pos h_id]
    · rw [openings_concat, queue_concat, if_neg h_ne.symm]
  simp only [Engine.setQueue, h_queues]
  simp [engine, opening]

theorem isNone_group? {g : String} :
    (v.library.group? g).isNone = true ↔ g ∉ v.library.groups.map (·.id) := by
  simp [ScriptLibrary.group?]

theorem mem_groups_of_mem {g : String} (h : g ∈ v.library.groups.map (·.id)) :
    g ∈ (v.groups queued).map (·.id) := by
  unfold groups
  split
  · rw [List.map_append]
    exact List.mem_append_left _ h
  · exact h

/-- A script whose group is there needs no other. -/
theorem groups_concat_of_mem (h : v.groupOf s ∈ (v.groups queued).map (·.id)) :
    v.groups (queued ++ [s]) = v.groups queued := by
  cases h_group : s.group with
  | some g =>
    unfold groups
    simp [h_group]
  | none =>
    have h_default : v.groupOf s = v.defaultGroup := by simp [groupOf, h_group]
    rw [h_default] at h
    unfold groups at h ⊢
    cases h_any : queued.any (·.group.isNone) with
    | true => simp [h_any]
    | false =>
      -- no script has needed the default group yet, so that it is one of the library
      rw [h_any, Bool.and_false, if_neg Bool.false_ne_true] at h
      have h_own : (v.library.group? v.defaultGroup).isNone = false :=
        Bool.eq_false_iff.mpr fun h_none => isNone_group?.mp h_none h
      simp [h_own]

/-- A script whose group is not there is the first one that needs the default group. -/
theorem groups_concat_of_not_mem (h_closed : v.library.Closed) (h_s : s ∈ v.library.scripts)
    (h : v.groupOf s ∉ (v.groups queued).map (·.id)) :
    v.groupOf s = v.defaultGroup ∧ (v.library.group? v.defaultGroup).isNone = true ∧
      (∀ s' ∈ queued, s'.group ≠ none) ∧ v.groups (queued ++ [s]) = v.groups queued ++ [v.spareGroup] := by
  cases h_group : s.group with
  -- a library that is closed has the groups that its scripts name
  | some g =>
    have h_own : v.groupOf s = g := by simp [groupOf, h_group]
    exact absurd (mem_groups_of_mem (h_own ▸ h_closed.group_of_script s h_s g h_group)) h
  | none =>
    have h_default : v.groupOf s = v.defaultGroup := by simp [groupOf, h_group]
    rw [h_default] at h
    have h_foreign : (v.library.group? v.defaultGroup).isNone = true :=
      isNone_group?.mpr fun h_own => h (mem_groups_of_mem h_own)
    have h_any : queued.any (·.group.isNone) = false := by
      -- an earlier script without a group would have brought the default group
      refine Bool.eq_false_iff.mpr fun h_any => h ?_
      simp [groups, h_foreign, h_any, spareGroup]
    refine ⟨h_default, h_foreign, fun s' h_s' h_none => ?_, ?_⟩
    · exact absurd (List.any_eq_false.mp h_any s' h_s') (by simp [h_none])
    · simp [groups, h_foreign, h_any, h_group]

theorem nodup_groups (queued : List ScriptDefinition) (h_closed : v.library.Closed) :
    ((v.groups queued).map (·.id)).Nodup := by
  unfold groups
  split
  · next h =>
    have h_foreign := isNone_group?.mp (Bool.and_eq_true_iff.mp h).1
    rw [List.map_append]
    have h_apart : (v.library.groups.map (·.id)).Disjoint [v.spareGroup.id] := by simpa [spareGroup] using h_foreign
    exact List.Nodup.append h_closed.groups_nodup (List.nodup_singleton _) h_apart
  · exact h_closed.groups_nodup

/-- The default group is created when nothing was queued for it. -/
theorem createGroup_engine (h_new : v.defaultGroup ∉ groups.map (·.id))
    (h_queued : ∀ s ∈ queued, v.groupOf s ≠ v.defaultGroup) :
    (v.engine groups queued).createGroup v.defaultGroup v.defaultGroup =
      .ok (v.engine (groups ++ [v.spareGroup]) queued) := by
  have h_none : (v.engine groups queued).queue? v.defaultGroup = none :=
    Option.isNone_iff_eq_none.mp ((isNone_queue?_engine _).mpr h_new)
  -- nothing was queued for it, so the fresh queue is what it should be
  have h_empty : (v.openings queued).filter (·.group == v.spareGroup.id) = [] := by
    refine List.filter_eq_nil_iff.mpr fun t h_t => ?_
    obtain ⟨i, h_i, rfl⟩ := List.mem_mapIdx.mp h_t
    simpa [opening, spareGroup] using h_queued _ (List.getElem_mem h_i)
  have h_queue : v.queue (v.openings queued) v.spareGroup =
      (v.engine groups queued).freshQueue v.defaultGroup v.defaultGroup := by
    have h_name : v.spareGroup.displayName = v.defaultGroup := ite_self _
    unfold queue Engine.definedQueue
    rw [h_empty, h_name]
    rfl
  unfold Engine.createGroup
  rw [Engine.addQueue_of_new h_none, ← h_queue]
  simp [Engine.pushQueue, engine]

/-- **A step**: the group of the script is there, or is created, and the script is queued. -/
theorem autostart_engine (h_closed : v.library.Closed) (h_queued : queued ⊆ v.library.scripts)
    (h_s : s ∈ v.library.scripts) :
    (v.engine (v.groups queued) queued).autostart v.library v.defaultGroup v.now s =
      .ok (v.engine (v.groups (queued ++ [s])) (queued ++ [s])) := by
  unfold Engine.autostart
  by_cases h : v.groupOf s ∈ (v.groups queued).map (·.id)
  · have h_found : ((v.engine (v.groups queued) queued).queue? (v.groupOf s)).isNone = false :=
      Bool.eq_false_iff.mpr fun h_none => (isNone_queue?_engine _).mp h_none h
    have h_submit := submitScript_engine queued h_closed h_s (nodup_groups queued h_closed) h
    unfold groupOf at h_found h_submit
    rw [groups_concat_of_mem h]
    simp [h_found, h_submit, bind, Except.bind, pure, Except.pure]
  · obtain ⟨h_default, h_foreign, h_needless, h_groups⟩ := groups_concat_of_not_mem h_closed h_s h
    have h_new : v.defaultGroup ∉ (v.groups queued).map (·.id) := h_default ▸ h
    have h_missing : ((v.engine (v.groups queued) queued).queue? v.defaultGroup).isNone = true :=
      (isNone_queue?_engine _).mpr h_new
    -- all scripts before have groups of the library, and the default group is none of them
    have h_elsewhere : ∀ s' ∈ queued, v.groupOf s' ≠ v.defaultGroup := by
      intro s' h_s' h_eq
      obtain ⟨g, h_g⟩ := Option.ne_none_iff_exists'.mp (h_needless s' h_s')
      have h_own : v.groupOf s' = g := by simp [groupOf, h_g]
      exact isNone_group?.mp h_foreign
        (h_eq ▸ h_own ▸ h_closed.group_of_script s' (h_queued h_s') g h_g)
    have h_create := createGroup_engine h_new h_elsewhere
    have h_submit := submitScript_engine queued h_closed h_s
      (nodup_groups (queued ++ [s]) h_closed) (by simp [h_groups, h_default, spareGroup])
    rw [h_groups] at h_submit ⊢
    unfold groupOf at h_default h_submit
    rw [h_default] at h_submit ⊢
    simp [h_foreign, h_missing, h_create, h_submit, bind, Except.bind, pure, Except.pure]

/-- The scripts and groups of the library are taken in. -/
theorem loadLibrary_blank (h_closed : v.library.Closed) :
    v.blank.loadLibrary v.library = (.ok (), v.engine v.library.groups []) := by
  have h_scripts : v.library.scripts.foldl Engine.registerScript v.blank = v.engine [] [] := by
    rw [Engine.foldl_registerScript]
    simp only [engine, Fields.ofList, List.foldl_map]
    rfl
  have h_groups : ∀ groups, (v.engine [] []).pushGroups groups = v.engine groups [] := by
    intro groups
    simp [Engine.pushGroups, engine, openings, queue, Engine.definedQueue, Engine.freshQueue,
      GroupQueue.create, blank]
  unfold Engine.loadLibrary
  rw [h_scripts]
  obtain h_all | ⟨made, g, rest, h_eq, h_old, -⟩ := Engine.addGroups_cases v.library.groups (v.engine [] [])
  · rw [h_all, h_groups]
  · -- the group that would be refused has the id of one before
    have h_nodup := h_closed.groups_nodup
    rw [h_eq, List.map_append] at h_nodup
    have h_new : g.id ∉ made.map (·.id) := fun h_mem =>
      List.disjoint_of_nodup_append h_nodup h_mem List.mem_cons_self
    rw [h_groups, ← Option.not_isNone, (isNone_queue?_engine _).mpr h_new] at h_old
    cases h_old

/-- **The library is served**: nothing is refused, and the engine is the last one. -/
theorem serve_blank (h_closed : v.library.Closed) :
    v.blank.serve v.library v.defaultGroup v.now =
      .ok (v.engine (v.groups v.library.autostartScripts) v.library.autostartScripts) := by
  have h_steps : ∀ rest queued : List ScriptDefinition,
      queued ⊆ v.library.scripts → rest ⊆ v.library.scripts →
      rest.foldlM (fun e s => e.autostart v.library v.defaultGroup v.now s)
          (v.engine (v.groups queued) queued) =
        Except.ok (v.engine (v.groups (queued ++ rest)) (queued ++ rest)) := by
    intro rest
    -- by the scripts that are left: the engine is that of those queued so far
    induction rest with
    | nil =>
      intro queued _ _
      rw [List.append_nil]
      rfl
    | cons s rest ih =>
      intro queued h_queued h_rest
      obtain ⟨h_s, h_rest⟩ := List.cons_subset.mp h_rest
      rw [List.foldlM_cons, autostart_engine h_closed h_queued h_s, List.append_cons queued s rest]
      have h_next : queued ++ [s] ⊆ v.library.scripts :=
        List.append_subset.mpr ⟨h_queued, List.cons_subset.mpr ⟨h_s, List.nil_subset _⟩⟩
      exact ih (queued ++ [s]) h_next h_rest
  have h_start : v.groups [] = v.library.groups := by simp [groups]
  have h_all := h_steps v.library.autostartScripts [] (List.nil_subset _) (List.filter_subset_self _)
  unfold Engine.serve
  rw [loadLibrary_blank h_closed]
  rw [h_start] at h_all
  exact h_all

/-! ### What can be seen of the engine -/

/-- The scripts that are named for stalled runs. -/
def exceptionScripts (l : ScriptLibrary) : List String :=
  l.groups.filterMap (·.exceptionScript) ++ l.scripts.filterMap (·.exceptionScript)

/-- The engine is set up for the library: nothing else has happened in it. -/
structure Ready (v : Serving) (e : Engine) : Prop where
  /-- The groups are those of the library, and the default group if a script needs it and the library does not
  have it. -/
  groups : e.listedQueues.map (·.id) = (v.groups v.library.autostartScripts).map (·.id)
  /-- No group was removed. -/
  listed : ∀ h ∈ e.queues, h.listed = true
  /-- Every group is as it is defined. -/
  defined : ∀ g ∈ v.groups v.library.autostartScripts, ∃ q, e.queue? g.id = some q ∧
    q.name = g.displayName ∧ q.enabled = g.enabled ∧ q.exceptionScript = g.exceptionScript
  /-- The group of every task is there. -/
  placed : ∀ t ∈ v.openings v.library.autostartScripts, (e.queue? t.group).isSome = true
  /-- What waits in a queue are the tasks of its group. -/
  pending : ∀ h ∈ e.queues,
    h.queue.pending.Perm ((v.openings v.library.autostartScripts).filter (·.group == h.queue.id))
  /-- Nothing is running and nothing came to its end. -/
  idle : e.runs = [] ∧ ∀ h ∈ e.queues, h.queue.running = none ∧ h.queue.history = []
  catalog : ∀ s ∈ v.library.scripts, e.scripts.get? s.id = some s
  /-- So are the scripts that are named for stalled runs. -/
  known : ∀ id ∈ exceptionScripts v.library, e.scripts.contains id = true

/-- A line that tasks were put into holds these tasks. -/
theorem perm_foldl_insertByPriority (tasks line : List Task) :
    (tasks.foldl (fun line t => GroupQueue.insertByPriority t line) line).Perm (line ++ tasks) := by
  induction tasks generalizing line with
  | nil => simp
  | cons t tasks ih =>
    refine (ih _).trans (((GroupQueue.insertByPriority_perm t line).append_right tasks).trans ?_)
    exact List.perm_middle.symm

/-- A script that is named for stalled runs is one of the library. -/
theorem mem_of_exceptionScripts {l : ScriptLibrary} (h_closed : l.Closed) {id : String}
    (h_id : id ∈ exceptionScripts l) : id ∈ l.scripts.map (·.id) := by
  rcases List.mem_append.mp h_id with h_id | h_id
  · obtain ⟨g, h_g, h_id⟩ := List.mem_filterMap.mp h_id
    exact h_closed.exception_of_group g h_g id h_id
  · obtain ⟨s, h_s, h_id⟩ := List.mem_filterMap.mp h_id
    exact h_closed.exception_of_script s h_s id h_id

/-- The group of a script that was queued is there. -/
theorem groupOf_mem_groups (h_closed : v.library.Closed) (h_queued : queued ⊆ v.library.scripts)
    (h_s : s ∈ queued) : v.groupOf s ∈ (v.groups queued).map (·.id) := by
  cases h_group : s.group with
  | some g =>
    have h_own : v.groupOf s = g := by simp [groupOf, h_group]
    rw [h_own]
    exact mem_groups_of_mem (h_closed.group_of_script s (h_queued h_s) g h_group)
  | none =>
    have h_default : v.groupOf s = v.defaultGroup := by simp [groupOf, h_group]
    have h_any : queued.any (·.group.isNone) = true := List.any_eq_true.mpr ⟨s, h_s, by simp [h_group]⟩
    rw [h_default]
    by_cases h_own : v.defaultGroup ∈ v.library.groups.map (·.id)
    · exact mem_groups_of_mem h_own
    · simp [groups, isNone_group?.mpr h_own, h_any, spareGroup]

/-- The queue of a group is found by its id. -/
theorem queue?_engine_of_mem (h_nodup : (groups.map (·.id)).Nodup) {g : GroupDefinition} (h_g : g ∈ groups) :
    (v.engine groups queued).queue? g.id = some (v.queue (v.openings queued) g) := by
  rw [queue?_engine]
  cases h_find : groups.find? (·.id == g.id) with
  | none => exact absurd (List.find?_eq_none.mp h_find g h_g) (by simp)
  | some g' =>
    have h_id : g'.id = g.id := by simpa using List.find?_some h_find
    rw [List.inj_on_of_nodup_map h_nodup (List.mem_of_find?_eq_some h_find) h_g h_id]
    rfl

theorem ready_engine (h_closed : v.library.Closed) :
    v.Ready (v.engine (v.groups v.library.autostartScripts) v.library.autostartScripts) where
  groups := by
    simp [Engine.listedQueues, engine, List.filter_map, Function.comp_def]
    exact fun _ _ => rfl
  listed := by
    intro h h_mem
    obtain ⟨g, -, rfl⟩ := List.mem_map.mp h_mem
    rfl
  defined := by
    intro g h_g
    exact ⟨_, queue?_engine_of_mem (nodup_groups _ h_closed) h_g, rfl, rfl, rfl⟩
  placed := by
    intro t h_t
    obtain ⟨i, h_i, rfl⟩ := List.mem_mapIdx.mp h_t
    have h_started : v.library.autostartScripts ⊆ v.library.scripts := List.filter_subset_self _
    have h_there := groupOf_mem_groups h_closed h_started (List.getElem_mem h_i)
    obtain ⟨g, h_g, h_id⟩ := List.mem_map.mp h_there
    -- the group of a task is that of its script
    change (Engine.queue? _ (v.groupOf _)).isSome = true
    rw [← h_id, queue?_engine_of_mem (nodup_groups _ h_closed) h_g]
    rfl
  pending := by
    intro h h_mem
    obtain ⟨g, -, rfl⟩ := List.mem_map.mp h_mem
    exact perm_foldl_insertByPriority _ []
  idle := by
    refine ⟨rfl, fun h h_mem => ?_⟩
    obtain ⟨g, -, rfl⟩ := List.mem_map.mp h_mem
    exact ⟨rfl, rfl⟩
  catalog := fun s h_s => get?_catalog h_closed h_s
  known := by
    intro id h_id
    obtain ⟨s, h_s, rfl⟩ := List.mem_map.mp (mem_of_exceptionScripts h_closed h_id)
    exact Option.isSome_iff_exists.mpr ⟨s, get?_catalog h_closed h_s⟩

end Serving

/-- **A library that is valid can be served.** Nothing is refused when an engine is set up for a library that
was parsed and found valid by a validator that knows of no scripts outside; and no script that the library
names for stalled runs is ever missing when it is to be queued, whatever the engine does after that. -/
theorem valid_library_is_served (v : Serving) (f : DocumentFormat) (text : String) (validator : Validator)
    (h_parse : ScriptLibrary.parse f text = .ok v.library) (h_known : validator.knownScripts.getD [] = [])
    (h_valid : (validator.checkLibrary v.library).isValid = true) :
    ∃ e, ({ settings := v.settings } : Engine).serve v.library v.defaultGroup v.now = .ok e ∧ v.Ready e ∧
      ∀ id ∈ Serving.exceptionScripts v.library, ∀ e', Relation.ReflTransGen Engine.Operation e e' →
        ∀ group now err, e'.submitExceptionScript group id now = .error err → err = .groupNotFound group := by
  have h_closed := ScriptLibrary.closed_of_valid h_parse h_known h_valid
  have h_ready := Serving.ready_engine h_closed
  refine ⟨_, Serving.serve_blank h_closed, h_ready, fun id h_id e' h_steps group now err h_err => ?_⟩
  -- the script was in the catalog at first, and no operation takes it away
  have h_still : e'.scripts.contains id = true := by
    clear h_err
    induction h_steps with
    | refl => exact h_ready.known id h_id
    | tail _ h_op ih => exact h_op.contains_scripts ih
  exact Engine.submitExceptionScript_error h_still h_err

/-- A library of a script without a group that is started with it and handles its own stalled runs, and of a
disabled group. -/
def lonelyLibrary : String :=
  "\x7b\"groups\":[\x7b\"id\":\"g\",\"enabled\":false,\"exception_script\":\"s\"\x7d]," ++
    "\"scripts\":[\x7b\"id\":\"s\",\"exception_script\":\"s\",\"autostart\":true," ++
    "\"actions\":[\x7b\"type\":\"restart\"\x7d]\x7d]\x7d"

/-- It is served with the default group. -/
theorem lonely_library_is_served :
    ∃ l e, ScriptLibrary.parse .json lonelyLibrary = .ok l ∧ l.autostartScripts.length = 1 ∧
      ({} : Engine).serve l "default" ⟨0, 0⟩ = .ok e ∧ e.listedQueues.map (·.id) = ["g", "default"] := by
  -- the text is parsed and checked by evaluation; what follows from that is the theorem
  have h_eval : (match ScriptLibrary.parse .json lonelyLibrary with
    | .ok l => (({} : Validator).checkLibrary l).isValid && l.autostartScripts.length == 1 &&
        (Serving.groups ⟨l, {}, "default", ⟨0, 0⟩⟩ l.autostartScripts).map (·.id) == ["g", "default"]
    | .error _ => false) = true := by decide +kernel
  cases h_parse : ScriptLibrary.parse .json lonelyLibrary with
  | error err =>
    rw [h_parse] at h_eval
    cases h_eval
  | ok l =>
    rw [h_parse] at h_eval
    simp only [Bool.and_eq_true, beq_iff_eq] at h_eval
    obtain ⟨⟨h_valid, h_length⟩, h_groups⟩ := h_eval
    obtain ⟨e, h_serve, h_ready, -⟩ :=
      valid_library_is_served ⟨l, {}, "default", ⟨0, 0⟩⟩ .json lonelyLibrary {} h_parse rfl h_valid
    exact ⟨l, e, rfl, h_length, h_serve, h_ready.groups.trans h_groups⟩

end ScriptYard
