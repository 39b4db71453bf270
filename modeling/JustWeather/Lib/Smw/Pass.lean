import JustWeather.Lib.LinkedList.Refinement
import JustWeather.Lib.Smw

/-!
# Lib/Smw/Pass — one pass over the task list

`smw.c` over the linked list and the blocks of the tasks.  While `smw_work` walks the list a
callback may call `smw_create_task` and `smw_destroy_task`; what it calls is the environment's
choice, at every turn anew.  The walk keeps the pointer to the next node, and that node is the head
of what is left of the list whatever the callback did to its own (`returns_callback`), so a pass
comes to every task that was there (`work_fair`).
-/

open CLib Fallible Chain LinkedList

/-- `g_smw`: the nodes of `tasks`, whose items point to the tasks, and what the tasks hold. -/
structure SmwMemory (κ : Type) where
  tasks : ListMemory TaskHandle
  blocks : Memory κ

/-- A computation of the scheduler that can fault. -/
abbrev SmwM (κ : Type) := StateT (SmwMemory κ) (Except Fault)

/-- A call of the scheduler, with what memory there is for it. -/
inductive SmwCall (κ : Type)
  | create (taskOk nodeOk : Bool) (context : κ)
  | destroy (task : TaskHandle)

/-- What the scheduler does: a callback is called, a task is registered, or one is to go. -/
inductive SmwEvent (κ : Type)
  | called (task : SmwTask κ)
  | created (task : SmwTask κ)
  | destroyed (task : TaskHandle)

namespace SmwMemory

variable {κ : Type}

/-! ## The scheduler -/

/-- `smw_init`. -/
def init : SmwMemory κ := ⟨LinkedList.create, Memory.empty⟩

/-- A computation on the task list. -/
def onTasks {α : Type} (x : ListM TaskHandle α) : SmwM κ α := fun s =>
  (x s.tasks).map fun r => (r.1, { s with tasks := r.2 })

/-- `malloc(sizeof(SmwTask))`, and the assignment of its fields. -/
def mallocTask (context : κ) : SmwM κ TaskHandle := fun s =>
  .ok (s.blocks.next, { s with blocks := (s.blocks.alloc context).2 })

/-- `task->context`. -/
def derefTask (task : TaskHandle) : SmwM κ κ := fun s =>
  (s.blocks.read task).map fun context => (context, s)

/-- `free(task)`. -/
def freeTask (task : TaskHandle) : SmwM κ Unit := fun s =>
  (s.blocks.free task).map fun blocks => ((), { s with blocks })

/-- `smw_create_task`. -/
def createTask (taskOk nodeOk : Bool) (context : κ) : SmwM κ (Option TaskHandle) := do
  if taskOk then
    let task ← mallocTask context
    if (← onTasks (append nodeOk task)) ≠ 0 then
      freeTask task
      return none
    else return some task
  else return none

/-- `while (node) { … }` of `smw_destroy_task`, of at most so many turns. -/
def destroyFrom (task : TaskHandle) : ℕ → Option ℕ → SmwM κ Unit
  | _, none => return ()
  | 0, some _ => throw .endless
  | fuel + 1, some b => do
    let node ← onTasks (deref (some b))
    if node.item = task then
      let (_, disposed) ← onTasks (remove true (some b))
      disposed.forM freeTask
    else destroyFrom task fuel node.front

/-- `smw_destroy_task`.  A walk of more turns than there are nodes would not end. -/
def destroyTask (task : Option TaskHandle) : SmwM κ Unit := do
  match task with
  | none => return ()
  | some task =>
    let s ← get
    destroyFrom task s.tasks.nodes.next s.tasks.list.head

/-- A call a callback makes. -/
def perform : SmwCall κ → SmwM κ (List (SmwEvent κ))
  | .create taskOk nodeOk context => do
    match ← createTask taskOk nodeOk context with
    | none => return []
    | some task => return [.created ⟨task, context⟩]
  | .destroy task => do
    destroyTask (some task)
    return [.destroyed task]

/-- What a callback does to the scheduler: the calls it makes, in turn. -/
def callback : List (SmwCall κ) → SmwM κ (List (SmwEvent κ))
  | [] => return []
  | c :: cs => do
    let evs ← perform c
    let evs' ← callback cs
    return evs ++ evs'

/-- `while (node) { … }` of `smw_work`, of at most so many turns: `env` says what the callback does
that is called at the `turn`.  Every task has a callback. -/
def workFrom (env : ℕ → SmwTask κ → List (SmwCall κ)) :
    ℕ → ℕ → Option ℕ → SmwM κ (List (SmwEvent κ))
  | _, _, none => return []
  | 0, _, some _ => throw .endless
  | fuel + 1, turn, some b => do
    let node ← onTasks (deref (some b))
    let context ← derefTask node.item
    let evs ← callback (env turn ⟨node.item, context⟩)
    let evs' ← workFrom env fuel (turn + 1) node.front
    return .called ⟨node.item, context⟩ :: evs ++ evs'

/-- `smw_work`, of at most so many turns. -/
def work (env : ℕ → SmwTask κ → List (SmwCall κ)) (fuel : ℕ) : SmwM κ (List (SmwEvent κ)) := do
  workFrom env fuel 0 (← get).tasks.list.head

/-! ## The task list in memory -/

variable {s s' : SmwMemory κ} {l l₁ l₂ new : List (ℕ × SmwTask κ)} {e : ℕ × SmwTask κ}
  {evs evs' : List (SmwEvent κ)} {own : TaskHandle}

/-- The node of a task: where it is, and what its item points to. -/
def node (e : ℕ × SmwTask κ) : ℕ × TaskHandle := (e.1, e.2.handle)

/-- **The memory holds these tasks**, each in a node at its place. -/
structure Lists (l : List (ℕ × SmwTask κ)) (s : SmwMemory κ) : Prop where
  nodes : Holds (l.map node) s.tasks
  blocks : ∀ e ∈ l, s.blocks.cell e.2.handle = some e.2.context
  nodup : (l.map fun e => e.2.handle).Nodup

/-- These tasks are registered, in this order. -/
def Registered (tasks : List (SmwTask κ)) (s : SmwMemory κ) : Prop :=
  ∃ l, Lists l s ∧ l.map Prod.snd = tasks

theorem lists_init : Lists [] (init : SmwMemory κ) :=
  ⟨holds_create, nofun, List.nodup_nil⟩

theorem Lists.lt_next (h : Lists l s) (he : e ∈ l) : e.2.handle < s.blocks.next :=
  Memory.lt_next (h.blocks e he)

/-- A task leaves the list and the others are still there. -/
theorem Lists.sublist (h : Lists l s) (hl : l₁.Sublist l) (hnodes : Holds (l₁.map node) s'.tasks)
    (hblocks : ∀ e ∈ l₁, s'.blocks.cell e.2.handle = s.blocks.cell e.2.handle) : Lists l₁ s' :=
  ⟨hnodes, fun e he => (hblocks e he).trans (h.blocks e (hl.subset he)), h.nodup.sublist (hl.map _)⟩

theorem returns_onTasks {α : Type} {x : ListM TaskHandle α} {Q : α → ListMemory TaskHandle → Prop}
    (h : Returns x s.tasks Q) :
    Returns (onTasks x) s fun a s' => Q a s'.tasks ∧ s'.blocks = s.blocks := by
  obtain ⟨a, t, hx, hQ⟩ := h
  exact ⟨a, ⟨t, s.blocks⟩, by rw [onTasks, hx]; rfl, hQ, rfl⟩

theorem returns_freeTask {task : TaskHandle} {context : κ}
    (h : s.blocks.cell task = some context) :
    Returns (freeTask task) s fun _ s' =>
      s'.tasks = s.tasks ∧ Memory.Puts task none s.blocks s'.blocks := by
  obtain ⟨m, hm, hput⟩ := Memory.exists_put h none
  refine ⟨(), ⟨s.tasks, m⟩, ?_, rfl, hput⟩
  change (s.blocks.put task none).map _ = _
  rw [hm]
  rfl

/-- **`smw_create_task` puts a task at the end of the list**, under a handle no task had, or leaves
the list as it was. -/
theorem returns_createTask (h : Lists l s) (taskOk nodeOk : Bool) (context : κ) :
    Returns (createTask taskOk nodeOk context) s fun r s' => s.blocks.next ≤ s'.blocks.next ∧
      if taskOk && nodeOk then
        r = some s.blocks.next ∧ ∃ b, Lists (l ++ [(b, ⟨s.blocks.next, context⟩)]) s'
      else r = none ∧ Lists l s' := by
  cases taskOk with
  | false => exact Returns.pure ⟨le_rfl, rfl, h⟩
  | true =>
    have hcell : ∀ e ∈ l, (s.blocks.alloc context).2.cell e.2.handle = some e.2.context :=
      fun e he => Memory.cell_alloc_of_some (h.blocks e he) context
    have hself : (s.blocks.alloc context).2.cell s.blocks.next = some context :=
      Memory.cell_alloc_self _ _
    refine Returns.bind (Q := fun task t => task = s.blocks.next ∧
      t = { s with blocks := (s.blocks.alloc context).2 }) ⟨_, _, rfl, rfl, rfl⟩ ?_
    rintro _ _ ⟨rfl, rfl⟩
    refine (returns_onTasks (s := ⟨s.tasks, (s.blocks.alloc context).2⟩)
      (returns_append h.nodes nodeOk s.blocks.next)).bind fun {code t} ht => ?_
    obtain ⟨ht, hblocks : t.blocks = (s.blocks.alloc context).2⟩ := ht
    cases nodeOk with
    | false =>
      obtain ⟨rfl, htasks⟩ := ht
      refine (returns_freeTask (hblocks.symm ▸ hself)).bind fun {_ u} hu => Returns.pure ?_
      obtain ⟨htasks', hput⟩ := hu
      refine ⟨?_, rfl, h.sublist (List.Sublist.refl l) ?_ fun e he => ?_⟩
      · rw [hput.1, hblocks]
        exact Nat.le_succ _
      · rw [htasks', htasks]
        exact h.nodes
      · rw [hput.cell_of_ne (Nat.ne_of_lt (h.lt_next he)), hblocks, hcell e he, h.blocks e he]
    | true =>
      obtain ⟨rfl, hnodes⟩ := ht
      refine Returns.pure ⟨?_, rfl, s.tasks.nodes.next, ?_, ?_, ?_⟩
      · rw [hblocks]
        exact Nat.le_succ _
      · rw [List.map_append]
        exact hnodes
      · intro e he
        rw [hblocks]
        rcases List.mem_append.mp he with he | he
        · exact hcell e he
        · obtain rfl := List.mem_singleton.mp he
          exact hself
      · rw [List.map_append, List.nodup_append']
        refine ⟨h.nodup, List.nodup_singleton _, fun a ha hnew => ?_⟩
        obtain ⟨e, he, rfl⟩ := List.mem_map.mp ha
        exact Nat.ne_of_lt (h.lt_next he) (List.mem_singleton.mp hnew)

/-- A list without the task of a handle. -/
def without (task : TaskHandle) (l : List (ℕ × SmwTask κ)) : List (ℕ × SmwTask κ) :=
  l.filter (·.2.handle ≠ task)

/-- No other node has the task of a node. -/
theorem handle_ne (h : ((l₁ ++ e :: l₂).map fun e => e.2.handle).Nodup) {e' : ℕ × SmwTask κ}
    (he' : e' ∈ l₁ ++ l₂) : e'.2.handle ≠ e.2.handle := by
  rw [List.map_append, List.map_cons, List.nodup_middle, List.nodup_cons, ← List.map_append] at h
  exact fun heq => h.1 (heq ▸ List.mem_map_of_mem he')

theorem without_of_nodup (h : ((l₁ ++ e :: l₂).map fun e => e.2.handle).Nodup) :
    without e.2.handle (l₁ ++ e :: l₂) = l₁ ++ l₂ := by
  rw [without, List.filter_append, List.filter_cons_of_neg (by simp), ← List.filter_append]
  exact List.filter_eq_self.mpr fun e' he' => decide_eq_true (handle_ne h he')

/-- The node of a task is removed, and the task with it. -/
theorem returns_removeTask (h : Lists (l₁ ++ e :: l₂) s) :
    Returns (do
        let (_, disposed) ← onTasks (remove true (some e.1))
        disposed.forM freeTask : SmwM κ Unit) s fun _ s' =>
      Lists (l₁ ++ l₂) s' ∧ s'.blocks.next = s.blocks.next ∧ s'.tasks.nodes.cell e.1 = none := by
  have hnodes := h.nodes
  rw [List.map_append, List.map_cons] at hnodes
  refine (returns_onTasks (returns_remove hnodes true)).bind ?_
  rintro _ u ⟨⟨rfl, hnodes', hgone⟩, hblocks⟩
  have hcell : u.blocks.cell e.2.handle = some e.2.context := by
    rw [hblocks]
    exact h.blocks e (by simp)
  refine (returns_freeTask hcell).bind fun {_ v} hv => Returns.pure ?_
  obtain ⟨htasks, hput⟩ := hv
  have hsub : (l₁ ++ l₂).Sublist (l₁ ++ e :: l₂) := (List.sublist_cons_self e l₂).append_left l₁
  refine ⟨h.sublist hsub ?_ fun e' he' => ?_, ?_, ?_⟩
  · rw [htasks, List.map_append]
    exact hnodes'
  · rw [hput.cell_of_ne (handle_ne h.nodup he'), hblocks]
  · rw [hput.1, hblocks]
  · rw [htasks]
    exact hgone

/-- The walk reads a node, and leaves everything as it is. -/
theorem deref_node (h : Lists (l₁ ++ e :: l₂) s) : onTasks (deref (some e.1)) s
    = .ok (⟨last (l₁.map node) none, first (l₂.map node) none, e.2.handle⟩, s) := by
  have hnodes := h.nodes
  rw [List.map_append, List.map_cons] at hnodes
  obtain ⟨_, _, hd, rfl, rfl⟩ := returns_deref hnodes.chain.links
  change (deref (some (node e).1) s.tasks).map _ = _
  rw [hd]
  rfl

theorem derefTask_of_mem (h : Lists l s) (he : e ∈ l) :
    derefTask e.2.handle s = .ok (e.2.context, s) := by
  rw [derefTask, Memory.read_of_cell (h.blocks e he)]
  rfl

/-- The search comes to the task's node, which is removed with the task, or to the end. -/
theorem returns_destroyFrom (task : TaskHandle) {fuel : ℕ} (h : Lists (l₁ ++ l₂) s)
    (hne : ∀ e ∈ l₁, e.2.handle ≠ task) (hfuel : l₂.length ≤ fuel) :
    Returns (destroyFrom task fuel (first (l₂.map node) none)) s fun _ s' =>
      Lists (without task (l₁ ++ l₂)) s' ∧ s'.blocks.next = s.blocks.next ∧
        ∀ e ∈ l₁ ++ l₂, e.2.handle = task → s'.tasks.nodes.cell e.1 = none := by
  induction l₂ generalizing l₁ fuel with
  | nil =>
    rw [List.map_nil, first_nil, destroyFrom, without, List.append_nil,
      List.filter_eq_self.mpr fun e he => decide_eq_true (hne e he)]
    exact Returns.pure ⟨List.append_nil l₁ ▸ h, rfl, fun e he heq => absurd heq (hne e he)⟩
  | cons e l₂ ih =>
    cases fuel with
    | zero => cases hfuel
    | succ fuel =>
      refine Returns.bind (Q := fun n t => n.item = e.2.handle ∧
        n.front = first (l₂.map node) none ∧ t = s) ⟨_, _, deref_node h, rfl, rfl, rfl⟩ ?_
      rintro n t ⟨hitem, hfront, rfl⟩
      by_cases heq : n.item = task
      · rw [if_pos heq]
        obtain rfl := hitem.symm.trans heq
        rw [without_of_nodup h.nodup]
        refine (returns_removeTask h).mono fun hr => ⟨hr.1, hr.2.1, fun e' he' heq' => ?_⟩
        obtain rfl : e' = e := List.inj_on_of_nodup_map h.nodup he' (by simp) heq'
        exact hr.2.2
      · rw [if_neg heq, hfront]
        have h' : Lists ((l₁ ++ [e]) ++ l₂) t := by
          rw [List.append_assoc]
          exact h
        have hne' : ∀ e' ∈ l₁ ++ [e], e'.2.handle ≠ task := by
          intro e' he'
          rcases List.mem_append.mp he' with he' | he'
          · exact hne e' he'
          · exact List.mem_singleton.mp he' ▸ hitem ▸ heq
        have hrest := ih h' hne' (Nat.le_of_succ_le_succ hfuel)
        rwa [List.append_assoc] at hrest

/-- **`smw_destroy_task` takes the task off the list** and releases its node, if it is there. -/
theorem returns_destroyTask (h : Lists l s) (task : TaskHandle) :
    Returns (destroyTask (some task)) s fun _ s' =>
      Lists (without task l) s' ∧ s'.blocks.next = s.blocks.next ∧
        ∀ e ∈ l, e.2.handle = task → s'.tasks.nodes.cell e.1 = none := by
  refine Returns.bind (Q := fun t u => t = s ∧ u = s) ⟨s, s, rfl, rfl, rfl⟩ ?_
  rintro _ _ ⟨rfl, rfl⟩
  rw [h.nodes.head]
  refine returns_destroyFrom task (show Lists ([] ++ l) _ from h) nofun ?_
  have hlen := h.nodes.length_le
  rwa [List.length_map] at hlen

/-! ## One turn -/

/-- The tasks whose callbacks were called, in that order. -/
def called (evs : List (SmwEvent κ)) : List (SmwTask κ) :=
  evs.filterMap fun
    | .called task => some task
    | _ => none

/-- The tasks that were created, in that order. -/
def created (evs : List (SmwEvent κ)) : List (SmwTask κ) :=
  evs.filterMap fun
    | .created task => some task
    | _ => none

/-- The tasks that were destroyed. -/
def destroyed (evs : List (SmwEvent κ)) : List TaskHandle :=
  evs.filterMap fun
    | .destroyed task => some task
    | _ => none

@[simp] theorem called_append (evs evs' : List (SmwEvent κ)) :
    called (evs ++ evs') = called evs ++ called evs' := List.filterMap_append

@[simp] theorem created_append (evs evs' : List (SmwEvent κ)) :
    created (evs ++ evs') = created evs ++ created evs' := List.filterMap_append

@[simp] theorem destroyed_append (evs evs' : List (SmwEvent κ)) :
    destroyed (evs ++ evs') = destroyed evs ++ destroyed evs' := List.filterMap_append

/-- The tasks of a list that were not destroyed. -/
def kept (evs : List (SmwEvent κ)) (l : List (ℕ × SmwTask κ)) : List (ℕ × SmwTask κ) :=
  l.filter (·.2.handle ∉ destroyed evs)

theorem kept_append (evs : List (SmwEvent κ)) (l₁ l₂ : List (ℕ × SmwTask κ)) :
    kept evs (l₁ ++ l₂) = kept evs l₁ ++ kept evs l₂ := List.filter_append ..

theorem kept_kept (evs evs' : List (SmwEvent κ)) (l : List (ℕ × SmwTask κ)) :
    kept evs' (kept evs l) = kept (evs ++ evs') l := by
  rw [kept, kept, List.filter_filter]
  exact List.filter_congr fun e _ => by simp [Bool.and_comm]

theorem kept_eq_self (h : ∀ e ∈ l, e.2.handle ∉ destroyed evs) : kept evs l = l :=
  List.filter_eq_self.mpr fun e he => decide_eq_true (h e he)

/-- The calls create no task. -/
def Quiet (calls : List (SmwCall κ)) : Prop :=
  ∀ taskOk nodeOk context, .create taskOk nodeOk context ∉ calls

/-- The calls destroy no task but that one. -/
def Owns (own : TaskHandle) (calls : List (SmwCall κ)) : Prop :=
  ∀ task, .destroy task ∈ calls → task = own

/-- **Tasks created between two states**: no two have one handle, and no task had it before. -/
structure Fresh (s s' : SmwMemory κ) (new : List (ℕ × SmwTask κ)) : Prop where
  le : ∀ e ∈ new, s.blocks.next ≤ e.2.handle
  lt : ∀ e ∈ new, e.2.handle < s'.blocks.next
  nodup : (new.map fun e => e.2.handle).Nodup
  next_le : s.blocks.next ≤ s'.blocks.next

theorem Fresh.nil (h : s.blocks.next ≤ s'.blocks.next) : Fresh s s' [] :=
  ⟨nofun, nofun, List.nodup_nil, h⟩

theorem Fresh.append {t : SmwMemory κ} {new' : List (ℕ × SmwTask κ)} (h : Fresh s t new)
    (h' : Fresh t s' new') : Fresh s s' (new ++ new') := by
  refine ⟨fun e he => ?_, fun e he => ?_, ?_, h.next_le.trans h'.next_le⟩
  · rcases List.mem_append.mp he with he | he
    · exact h.le e he
    · exact h.next_le.trans (h'.le e he)
  · rcases List.mem_append.mp he with he | he
    · exact (h.lt e he).trans_le h'.next_le
    · exact h'.lt e he
  · rw [List.map_append, List.nodup_append']
    refine ⟨h.nodup, h'.nodup, fun a ha ha' => ?_⟩
    obtain ⟨e, he, rfl⟩ := List.mem_map.mp ha
    obtain ⟨e', he', heq⟩ := List.mem_map.mp ha'
    exact Nat.lt_irrefl _ (((h'.le e' he').trans_eq heq).trans_lt (h.lt e he))

/-- A task that was there is none of those created since. -/
theorem Fresh.kept (h : Fresh s s' new) (hown : own < s.blocks.next)
    (howns : ∀ task ∈ destroyed evs, task = own) : kept evs new = new :=
  kept_eq_self fun e he hd => Nat.ne_of_gt (hown.trans_le (h.le e he)) (howns _ hd)

/-- **What calls that destroy their own task do to a list of tasks.**  Those they create come to its
end, under handles no task had. -/
structure Turn (own : TaskHandle) (calls : List (SmwCall κ)) (l : List (ℕ × SmwTask κ))
    (s : SmwMemory κ) (evs : List (SmwEvent κ)) (new : List (ℕ × SmwTask κ))
    (s' : SmwMemory κ) : Prop where
  lists : Lists (kept evs l ++ new) s'
  created_eq : new.map Prod.snd = created evs
  called_eq : called evs = []
  owns : ∀ task ∈ destroyed evs, task = own
  fresh : Fresh s s' new
  quiet : Quiet calls → new = []

theorem Turn.append {calls calls' : List (SmwCall κ)} {new' : List (ℕ × SmwTask κ)}
    {t : SmwMemory κ} (h : Turn own calls l s evs new t) (hown : own < s.blocks.next)
    (h' : Turn own calls' (kept evs l ++ new) t evs' new' s') :
    Turn own (calls ++ calls') l s (evs ++ evs') (new ++ new') s' := by
  refine ⟨?_, ?_, ?_, ?_, h.fresh.append h'.fresh, fun hquiet => ?_⟩
  · have hlists := h'.lists
    rwa [kept_append, kept_kept, h.fresh.kept hown h'.owns, List.append_assoc] at hlists
  · rw [List.map_append, h.created_eq, h'.created_eq, created_append]
  · rw [called_append, h.called_eq, h'.called_eq, List.append_nil]
  · intro task htask
    rw [destroyed_append] at htask
    exact (List.mem_append.mp htask).elim (h.owns task) (h'.owns task)
  · rw [h.quiet fun _ _ _ hc => hquiet _ _ _ (List.mem_append_left _ hc),
      h'.quiet fun _ _ _ hc => hquiet _ _ _ (List.mem_append_right _ hc), List.append_nil]

theorem Turn.nil (own : TaskHandle) (h : Lists l s) : Turn own [] l s [] [] s := by
  refine ⟨?_, rfl, rfl, by simp [destroyed], .nil le_rfl, fun _ => rfl⟩
  rwa [kept_eq_self (by simp [destroyed]), List.append_nil]

theorem returns_perform (h : Lists l s) {c : SmwCall κ} (hown : Owns own [c]) :
    Returns (perform c) s fun evs s' => ∃ new, Turn own [c] l s evs new s' := by
  cases c with
  | create taskOk nodeOk context =>
    refine (returns_createTask h taskOk nodeOk context).bind fun {r t} ht => ?_
    obtain ⟨hnext, ht⟩ := ht
    have hquiet : ¬ Quiet [SmwCall.create taskOk nodeOk context] := fun hq =>
      hq _ _ _ (List.mem_singleton_self _)
    split at ht
    · obtain ⟨rfl, b, hlists⟩ := ht
      refine Returns.pure ⟨[(b, ⟨s.blocks.next, context⟩)], ?_, rfl, rfl, by simp [destroyed],
        ⟨by simp, ?_, List.nodup_singleton _, hnext⟩, fun hq => absurd hq hquiet⟩
      · rwa [kept_eq_self (by simp [destroyed])]
      · exact fun e he => hlists.lt_next (List.mem_append_right l he)
    · obtain ⟨rfl, hlists⟩ := ht
      refine Returns.pure ⟨[], ?_, rfl, rfl, by simp [destroyed], .nil hnext, fun _ => rfl⟩
      rwa [kept_eq_self (by simp [destroyed]), List.append_nil]
  | destroy task =>
    obtain rfl := hown task (List.mem_singleton_self _)
    refine (returns_destroyTask h task).bind fun {_ t} ht => Returns.pure ?_
    obtain ⟨hlists, hnext, -⟩ := ht
    refine ⟨[], ?_, rfl, rfl, by simp [destroyed], .nil hnext.ge, fun _ => rfl⟩
    have hkept : kept [.destroyed task] l = without task l := by simp [kept, without, destroyed]
    rwa [hkept, List.append_nil]

/-- **A callback that destroys its own task leaves the rest of the list as it was**, and what it
created at the end. -/
theorem returns_callback (h : Lists l s) {calls : List (SmwCall κ)} (hown : Owns own calls)
    (hlt : own < s.blocks.next) :
    Returns (callback calls) s fun evs s' => ∃ new, Turn own calls l s evs new s' := by
  induction calls generalizing l s with
  | nil => exact Returns.pure ⟨[], .nil own h⟩
  | cons c calls ih =>
    have hc : Owns own [c] := fun task htask =>
      hown task (List.mem_cons.mpr (Or.inl (List.mem_singleton.mp htask)))
    refine (returns_perform h hc).bind fun {evs t} ht => ?_
    obtain ⟨new, ht⟩ := ht
    refine (ih ht.lists (fun task htask => hown task (List.mem_cons_of_mem c htask))
      (hlt.trans_le ht.fresh.next_le)).bind fun {evs' u} hu => ?_
    obtain ⟨new', hu⟩ := hu
    exact Returns.pure ⟨new ++ new', ht.append hlt hu⟩

/-! ## A pass -/

variable {env : ℕ → SmwTask κ → List (SmwCall κ)}

/-- **What some turns of a pass do to a list of tasks**: the created ones come to its end. -/
structure Turns (l : List (ℕ × SmwTask κ)) (s : SmwMemory κ) (evs : List (SmwEvent κ))
    (new : List (ℕ × SmwTask κ)) (s' : SmwMemory κ) : Prop where
  lists : Lists (kept evs (l ++ new)) s'
  created_eq : new.map Prod.snd = created evs
  fresh : Fresh s s' new

theorem Turns.nil (h : Lists l s) : Turns l s [] [] s := by
  refine ⟨?_, rfl, .nil le_rfl⟩
  rwa [List.append_nil, kept_eq_self (by simp [destroyed])]

/-- One turn, and the ones after it. -/
theorem Turn.cons {calls : List (SmwCall κ)} {new' : List (ℕ × SmwTask κ)} {t : SmwMemory κ}
    (h : Turn own calls l s evs new t) (hown : own < s.blocks.next)
    (h' : Turns (kept evs l ++ new) t evs' new' s') (task : SmwTask κ) :
    Turns l s (.called task :: evs ++ evs') (new ++ new') s' := by
  have hfresh := h.fresh.append h'.fresh
  refine ⟨?_, ?_, hfresh⟩
  · have hlists := h'.lists
    rw [List.append_assoc, ← hfresh.kept hown h.owns, ← kept_append, kept_kept] at hlists
    exact hlists
  · rw [List.map_append, h.created_eq, h'.created_eq]
    simp [created]

/-- One turn of the walk: the callback of the node's task is called, and the walk goes on at the
node that came next before that. -/
theorem exists_turn (h : Lists (l₁ ++ e :: l₂) s) (turn : ℕ)
    (hown : Owns e.2.handle (env turn e.2)) :
    ∃ evs new t, Turn e.2.handle (env turn e.2) (l₁ ++ e :: l₂) s evs new t ∧
      kept evs (l₁ ++ e :: l₂) = kept evs (l₁ ++ [e]) ++ l₂ ∧
      ∀ n evs' s', (∀ fuel, n ≤ fuel →
          workFrom env fuel (turn + 1) (first (l₂.map node) none) t = .ok (evs', s')) →
        ∀ fuel, n + 1 ≤ fuel →
          workFrom env fuel turn (some e.1) s = .ok (.called e.2 :: evs ++ evs', s') := by
  have he : e ∈ l₁ ++ e :: l₂ := by simp
  obtain ⟨evs, t, hcall, new, hturn⟩ := returns_callback h hown (h.lt_next he)
  refine ⟨evs, new, t, hturn, ?_, fun n evs' s' hrest fuel hfuel => ?_⟩
  · have hl₂ : kept evs l₂ = l₂ := kept_eq_self fun e' he' hd =>
      handle_ne h.nodup (List.mem_append_right l₁ he') (hturn.owns _ hd)
    rw [List.append_cons, kept_append, hl₂]
  · obtain ⟨fuel, rfl⟩ := Nat.exists_eq_add_one.mpr (Nat.zero_lt_of_lt hfuel)
    refine (bind_of_ok (deref_node h)).trans ?_
    rw [bind_of_ok (derefTask_of_mem h he), bind_of_ok hcall,
      bind_of_ok (hrest fuel (Nat.le_of_succ_le_succ hfuel))]
    rfl

theorem called_turn (task : SmwTask κ) (h : called evs = []) :
    called (.called task :: evs ++ evs') = task :: called evs' := by
  change task :: called (evs ++ evs') = _
  rw [called_append, h, List.nil_append]

/-- Tasks whose callbacks create none are walked to the end, each called once. -/
theorem exists_workFrom_quiet {olds : List TaskHandle}
    (hown : ∀ turn task, Owns task.handle (env turn task))
    (hquiet : ∀ turn task, task.handle ∉ olds → Quiet (env turn task)) (h : Lists (l ++ new) s)
    (hnew : ∀ e ∈ new, e.2.handle ∉ olds) (turn : ℕ) :
    ∃ n evs s' made,
      (∀ fuel, n ≤ fuel →
        workFrom env fuel turn (first (new.map node) none) s = .ok (evs, s')) ∧
      Turns (l ++ new) s evs made s' ∧ called evs = new.map Prod.snd := by
  induction new generalizing l s turn with
  | nil =>
    refine ⟨0, [], s, [], fun fuel _ => ?_, .nil h, rfl⟩
    cases fuel <;> rfl
  | cons e new ih =>
    have he : e.2.handle < s.blocks.next := h.lt_next (by simp)
    obtain ⟨evs, made, t, hturn, hkept, hwalk⟩ := exists_turn h turn (hown turn e.2)
    obtain rfl := hturn.quiet (hquiet turn e.2 (hnew e (List.mem_cons_self ..)))
    have hlists := hturn.lists
    rw [List.append_nil] at hlists
    obtain ⟨n, evs', s', made', hrun, hturns, hcalled⟩ :=
      ih (hkept ▸ hlists) (fun e' he' => hnew e' (List.mem_cons_of_mem e he')) (turn + 1)
    refine ⟨n + 1, .called e.2 :: evs ++ evs', s', made', hwalk n evs' s' hrun, ?_, ?_⟩
    · refine hturn.cons he ?_ e.2
      rw [List.append_nil]
      exact hkept ▸ hturns
    · rw [called_turn e.2 hturn.called_eq, hcalled]
      rfl

/-- **The walk comes to every old task**, whatever the callbacks create on the way, and to some of
the new ones. -/
theorem exists_workFrom {olds : List TaskHandle} {old new : List (ℕ × SmwTask κ)}
    (hown : ∀ turn task, Owns task.handle (env turn task))
    (hquiet : ∀ turn task, task.handle ∉ olds → Quiet (env turn task))
    (holds : ∀ task ∈ olds, task < s.blocks.next) (h : Lists (l ++ (old ++ new)) s)
    (hnew : ∀ e ∈ new, e.2.handle ∉ olds) (turn : ℕ) :
    ∃ n evs s' made later,
      (∀ fuel, n ≤ fuel →
        workFrom env fuel turn (first ((old ++ new).map node) none) s = .ok (evs, s')) ∧
      Turns (l ++ (old ++ new)) s evs made s' ∧
      called evs = old.map Prod.snd ++ later ∧ later.Sublist ((new ++ made).map Prod.snd) := by
  -- The old tasks that are left decrease; with none left no more are created.
  induction old generalizing l new s turn with
  | nil =>
    obtain ⟨n, evs, s', made, hrun, hturns, hcalled⟩ :=
      exists_workFrom_quiet hown hquiet h hnew turn
    refine ⟨n, evs, s', made, new.map Prod.snd, hrun, hturns, hcalled, ?_⟩
    exact (List.sublist_append_left new made).map _
  | cons e old ih =>
    rw [List.cons_append] at h ⊢
    have he : e.2.handle < s.blocks.next := h.lt_next (by simp)
    obtain ⟨evs, made, t, hturn, hkept, hwalk⟩ := exists_turn h turn (hown turn e.2)
    by_cases hrest : old ++ new = []
    · -- The walk saved no next node: what this callback created is for the next pass.
      obtain ⟨rfl, rfl⟩ := List.append_eq_nil_iff.mp hrest
      refine ⟨1, .called e.2 :: evs ++ [], t, made ++ [], [],
        hwalk 0 [] t fun fuel _ => by cases fuel <;> rfl, hturn.cons he (.nil hturn.lists) e.2, ?_,
        List.nil_sublist _⟩
      rw [called_turn e.2 hturn.called_eq]
      rfl
    · have hlists := hturn.lists
      rw [hkept, List.append_assoc, List.append_assoc] at hlists
      have hnew' : ∀ e' ∈ new ++ made, e'.2.handle ∉ olds := by
        intro e' he'
        rcases List.mem_append.mp he' with he' | he'
        · exact hnew e' he'
        · exact fun hold => Nat.lt_irrefl _ ((holds _ hold).trans_le (hturn.fresh.le e' he'))
      obtain ⟨n, evs', s', made', later, hrun, hturns, hcalled, hsub⟩ :=
        ih (fun task htask => (holds task htask).trans_le hturn.fresh.next_le) hlists hnew'
          (turn + 1)
      rw [← List.append_assoc, List.map_append, first_append,
        first_ne_none (by simpa using hrest) _ none] at hrun
      refine ⟨n + 1, .called e.2 :: evs ++ evs', s', made ++ made', later,
        hwalk n evs' s' hrun, ?_, ?_, ?_⟩
      · refine hturn.cons he ?_ e.2
        rw [← List.append_assoc old, ← List.append_assoc] at hturns
        rw [hkept]
        exact hturns
      · rw [called_turn e.2 hturn.called_eq, hcalled]
        rfl
      · rwa [List.append_assoc] at hsub

/-- **A pass is fair.**  Callbacks that destroy no task but their own, where those of tasks created
in the pass create none, let it end; each task that was there is called once, in registration order,
the created ones at most once; no access goes wrong; and the tasks that were not destroyed are left,
the old ones before the new. -/
theorem work_fair {tasks : List (SmwTask κ)} (h : Registered tasks s)
    (hown : ∀ turn task, Owns task.handle (env turn task))
    (hquiet : ∀ turn task, task.handle ∉ tasks.map SmwTask.handle → Quiet (env turn task)) :
    ∃ n evs s' later, (∀ fuel, n ≤ fuel → work env fuel s = .ok (evs, s')) ∧
      called evs = tasks ++ later ∧ later.Sublist (created evs) ∧
      ((called evs).map SmwTask.handle).Nodup ∧
      Registered ((tasks ++ created evs).filter (·.handle ∉ destroyed evs)) s' ∧
      s'.tasks.list.size = ((tasks ++ created evs).filter (·.handle ∉ destroyed evs)).length := by
  obtain ⟨l, hl, rfl⟩ := h
  have holds : ∀ task ∈ (l.map Prod.snd).map SmwTask.handle, task < s.blocks.next := by
    intro task htask
    rw [List.map_map] at htask
    obtain ⟨e, he, rfl⟩ := List.mem_map.mp htask
    exact hl.lt_next he
  obtain ⟨n, evs, s', made, later, hrun, hturns, hcalled, hsub⟩ :=
    exists_workFrom hown hquiet holds
      (show Lists ([] ++ (l ++ [])) s by rwa [List.append_nil, List.nil_append]) nofun 0
  rw [List.append_nil, List.nil_append] at hturns
  rw [List.nil_append, hturns.created_eq] at hsub
  rw [List.append_nil] at hrun
  have hkept : (kept evs (l ++ made)).map Prod.snd
      = (l.map Prod.snd ++ created evs).filter (·.handle ∉ destroyed evs) := by
    rw [kept, ← hturns.created_eq, ← List.map_append, List.filter_map]
    rfl
  refine ⟨n, evs, s', later, fun fuel hfuel => ?_, hcalled, hsub, ?_, ⟨_, hturns.lists, hkept⟩, ?_⟩
  · rw [work]
    refine (bind_of_ok (show (get : SmwM κ (SmwMemory κ)) s = .ok (s, s) from rfl)).trans ?_
    rw [hl.nodes.head]
    exact hrun fuel hfuel
  · -- The handles of the old tasks are below those of the created ones.
    rw [hcalled, List.map_append, List.nodup_append']
    have hmade := hturns.fresh.nodup
    refine ⟨?_, ?_, ?_⟩
    · rw [List.map_map]
      exact hl.nodup
    · refine List.Nodup.sublist (hsub.map _) ?_
      rw [← hturns.created_eq, List.map_map]
      exact hmade
    · intro task hold hlater
      obtain ⟨t, ht, rfl⟩ := List.mem_map.mp hlater
      have hmem := hsub.subset ht
      rw [← hturns.created_eq] at hmem
      obtain ⟨e, he, rfl⟩ := List.mem_map.mp hmem
      exact Nat.lt_irrefl _ ((holds _ hold).trans_le (hturns.fresh.le e he))
  · rw [hturns.lists.nodes.size, List.length_map, ← hkept, List.length_map]

/-- Two tasks in memory. -/
theorem lists_two : ∃ evs s,
    callback [.create true true 7, .create true true 8] (init : SmwMemory ℕ) = .ok (evs, s) ∧
    Lists [(0, ⟨0, 7⟩), (1, ⟨1, 8⟩)] s := by
  refine ⟨_, _, rfl, ⟨⟨rfl, rfl, trivial⟩, rfl, rfl, rfl, by decide⟩, ?_, by decide⟩
  intro e he
  simp only [List.mem_cons, List.not_mem_nil, or_false] at he
  rcases he with rfl | rfl <;> rfl

/-- The first of two tasks destroys itself and creates another. -/
theorem work_fair_relay :
    ∃ evs₀ s, callback [.create true true 7, .create true true 8] (init : SmwMemory ℕ)
        = .ok (evs₀, s) ∧
      ∃ n evs s' later,
        (∀ fuel, n ≤ fuel → work (fun _ (task : SmwTask ℕ) => if task.handle = 0 then
          [.destroy 0, .create true true 9] else []) fuel s = .ok (evs, s')) ∧
        called evs = [⟨0, 7⟩, ⟨1, 8⟩] ++ later ∧ later.Sublist (created evs) ∧
        ((called evs).map SmwTask.handle).Nodup ∧
        Registered ((([⟨0, 7⟩, ⟨1, 8⟩] : List (SmwTask ℕ)) ++ created evs).filter
          (·.handle ∉ destroyed evs)) s' ∧
        s'.tasks.list.size = ((([⟨0, 7⟩, ⟨1, 8⟩] : List (SmwTask ℕ)) ++ created evs).filter
          (·.handle ∉ destroyed evs)).length := by
  obtain ⟨evs, s, hs, hlists⟩ := lists_two
  refine ⟨evs, s, hs, work_fair ⟨_, hlists, rfl⟩ ?_ ?_⟩
  · intro _ task own hmem
    split at hmem
    · simp_all
    · cases hmem
  · intro _ task hnot _ _ _ hmem
    rw [if_neg (by simp_all)] at hmem
    cases hmem

end SmwMemory
