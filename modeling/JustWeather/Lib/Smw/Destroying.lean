import JustWeather.Lib.Smw.Pass
import JustWeather.Machinery.Trace

/-!
# Lib/Smw/Destroying — passes whose callbacks destroy any task

`smw_work` saves the next node before it calls a callback, so a callback may destroy its own task
and any that was called before.  When it destroys the task of the saved node, the walk goes on at a
node that is gone.  That is all that can go wrong (`safe_pass_iff`).
-/

open CLib Fallible Chain LinkedList

/-! ## Nodes that are gone -/

namespace LinkedList

variable {ι α : Type}

/-- The computation gives no node out again. -/
def Ages (x : ListM ι α) : Prop :=
  Preserves (fun s s' => s.nodes.Later s'.nodes) x

theorem Ages.bind {β : Type} {x : ListM ι α} {f : α → ListM ι β} (hx : Ages x)
    (hf : ∀ a, Ages (f a)) : Ages (x >>= f) :=
  Preserves.bind (fun h h' => h.trans h') hx hf

theorem ages_pure (a : α) : Ages (pure a : ListM ι α) := .pure (fun _ => .refl _) a

theorem ages_get : Ages (get : ListM ι (ListMemory ι)) := by
  rintro s _ _ ⟨⟩
  exact .refl _

theorem ages_modifyList (f : LinkedList → LinkedList) : Ages (modifyList f : ListM ι Unit) := by
  rintro s _ _ ⟨⟩
  exact .refl _

theorem ages_deref (node : Option ℕ) : Ages (deref node : ListM ι (Node ι)) := by
  intro s n s' h
  cases node with
  | none => cases h
  | some b =>
    obtain ⟨_, -, hr⟩ := exists_of_map h
    cases hr
    exact .refl _

theorem ages_calloc (item : ι) : Ages (calloc item) := by
  rintro s _ _ ⟨⟩
  exact Memory.later_alloc ..

theorem ages_assign (b : ℕ) (f : Node ι → Node ι) : Ages (assign b f) := by
  intro s _ s' h
  obtain ⟨n, -, h⟩ := exists_of_bind_pure h
  obtain ⟨nodes, hput, hr⟩ := exists_of_map h
  cases hr
  exact Memory.later_of_put hput

theorem ages_free (b : ℕ) : Ages (free b : ListM ι Unit) := by
  intro s _ s' h
  obtain ⟨nodes, hput, hr⟩ := exists_of_map h
  cases hr
  exact Memory.later_of_put hput

theorem ages_linkFront (back front : Option ℕ) : Ages (linkFront back front : ListM ι Unit) := by
  cases back with
  | none => exact ages_modifyList fun list => { list with head := front }
  | some b => exact ages_assign b _

theorem ages_linkBack (front back : Option ℕ) : Ages (linkBack front back : ListM ι Unit) := by
  cases front with
  | none => exact ages_modifyList fun list => { list with tail := back }
  | some b => exact ages_assign b _

theorem ages_append (alloc : Bool) (item : ι) : Ages (append alloc item) := by
  cases alloc with
  | false => exact ages_pure _
  | true =>
    refine (ages_calloc item).bind fun newNode => (ages_modifyList _).bind fun _ =>
      ages_get.bind fun s => ?_
    rcases s.list.tail with _ | tail
    · exact (ages_modifyList _).bind fun _ => (ages_modifyList _).bind fun _ => ages_pure _
    · exact (ages_assign _ _).bind fun _ => (ages_assign _ _).bind fun _ =>
        (ages_modifyList _).bind fun _ => ages_pure _

theorem ages_remove (dispose : Bool) (item : Option ℕ) :
    Ages (remove dispose item : ListM ι (ℤ × List ι)) := by
  cases item with
  | none => exact ages_pure _
  | some b =>
    exact (ages_deref _).bind fun node => (ages_linkFront _ _).bind fun _ =>
      (ages_linkBack _ _).bind fun _ => (ages_modifyList _).bind fun _ =>
      (ages_assign b _).bind fun _ => (ages_assign b _).bind fun _ => (ages_deref _).bind fun _ =>
      (ages_free b).bind fun _ => ages_pure _

end LinkedList

namespace SmwMemory

variable {κ α : Type}

/-- The computation gives no node of the task list out again. -/
def Ages (x : SmwM κ α) : Prop :=
  Preserves (fun s s' => s.tasks.nodes.Later s'.tasks.nodes) x

theorem Ages.bind {β : Type} {x : SmwM κ α} {f : α → SmwM κ β} (hx : Ages x)
    (hf : ∀ a, Ages (f a)) : Ages (x >>= f) :=
  Preserves.bind (fun h h' => h.trans h') hx hf

theorem ages_pure (a : α) : Ages (pure a : SmwM κ α) := .pure (fun _ => .refl _) a

theorem ages_onTasks {x : ListM TaskHandle α} (hx : LinkedList.Ages x) :
    Ages (onTasks x : SmwM κ α) := by
  intro s a s' h
  obtain ⟨⟨b, t⟩, ht, hr⟩ := exists_of_map h
  cases hr
  exact hx _ _ _ ht

theorem ages_freeTask (task : TaskHandle) : Ages (freeTask task : SmwM κ Unit) := by
  intro s _ s' h
  obtain ⟨blocks, -, hr⟩ := exists_of_map h
  cases hr
  exact .refl _

theorem ages_forM (tasks : List TaskHandle) : Ages (tasks.forM freeTask : SmwM κ Unit) := by
  induction tasks with
  | nil => exact ages_pure _
  | cons task tasks ih => exact (ages_freeTask task).bind fun _ => ih

theorem ages_createTask (taskOk nodeOk : Bool) (context : κ) :
    Ages (createTask taskOk nodeOk context) := by
  cases taskOk with
  | false => exact ages_pure _
  | true =>
    have hmalloc : Ages (mallocTask context) := by
      rintro s _ _ ⟨⟩
      exact .refl _
    refine hmalloc.bind fun task => (ages_onTasks (ages_append _ _)).bind fun code => ?_
    split
    · exact (ages_freeTask task).bind fun _ => ages_pure _
    · exact ages_pure _

theorem ages_destroyFrom (task : TaskHandle) (fuel : ℕ) (cur : Option ℕ) :
    Ages (destroyFrom task fuel cur : SmwM κ Unit) := by
  induction fuel generalizing cur with
  | zero =>
    cases cur with
    | none => exact ages_pure _
    | some b => exact .throw _
  | succ fuel ih =>
    cases cur with
    | none => exact ages_pure _
    | some b =>
      refine (ages_onTasks (ages_deref _)).bind fun node => ?_
      split
      · refine (ages_onTasks (ages_remove _ _)).bind fun r => ?_
        exact ages_forM r.2
      · exact ih _

theorem ages_destroyTask (task : Option TaskHandle) :
    Ages (destroyTask task : SmwM κ Unit) := by
  cases task with
  | none => exact ages_pure _
  | some task =>
    have hget : Ages (get : SmwM κ (SmwMemory κ)) := by
      rintro s _ _ ⟨⟩
      exact .refl _
    exact hget.bind fun s => ages_destroyFrom task _ _

theorem ages_perform (c : SmwCall κ) : Ages (perform c) := by
  cases c with
  | create taskOk nodeOk context =>
    refine (ages_createTask taskOk nodeOk context).bind fun task => ?_
    cases task with
    | none => exact ages_pure _
    | some task => exact ages_pure _
  | destroy task => exact (ages_destroyTask (some task)).bind fun _ => ages_pure _

/-- **A callback gives no node out again.** -/
theorem ages_callback (calls : List (SmwCall κ)) : Ages (callback calls) := by
  induction calls with
  | nil => exact ages_pure _
  | cons c calls ih => exact (ages_perform c).bind fun _ => ih.bind fun _ => ages_pure _

/-! ## A pass, turn by turn -/

variable {env : ℕ → SmwTask κ → List (SmwCall κ)} {tasks : List (SmwTask κ)} {s s' : SmwMemory κ}
  {l l₁ l₂ new : List (ℕ × SmwTask κ)} {evs evs' : List (SmwEvent κ)} {n : ℕ}

/-- Where a pass is: the node it goes on with, and the memory. -/
structure Walk (κ : Type) where
  cur : Option ℕ
  memory : SmwMemory κ

/-- The body of the loop of `smw_work`, at a node: what happens, and the next node. -/
def takeTurn (calls : SmwTask κ → List (SmwCall κ)) (b : ℕ) :
    SmwM κ (List (SmwEvent κ) × Option ℕ) := do
  let node ← onTasks (deref (some b))
  let context ← derefTask node.item
  let evs ← callback (calls ⟨node.item, context⟩)
  return (.called ⟨node.item, context⟩ :: evs, node.front)

/-- One turn of the loop, if it goes on. -/
def Walk.step (calls : SmwTask κ → List (SmwCall κ)) (w : Walk κ) :
    Except Fault (Walk κ × List (SmwEvent κ)) :=
  match w.cur with
  | none => .ok (w, [])
  | some b => (takeTurn calls b w.memory).map fun r => (⟨r.1.2, r.2⟩, r.1.1)

theorem step_of_takeTurn {calls : SmwTask κ → List (SmwCall κ)} {b : ℕ} {next : Option ℕ}
    (h : takeTurn calls b s = .ok ((evs, next), s')) :
    Walk.step calls ⟨some b, s⟩ = .ok (⟨next, s'⟩, evs) := by
  change (takeTurn calls b s).map _ = _
  rw [h]
  rfl

theorem step_of_error {calls : SmwTask κ → List (SmwCall κ)} {b : ℕ} {e : Fault}
    (h : takeTurn calls b s = .error e) : Walk.step calls ⟨some b, s⟩ = .error e := by
  change (takeTurn calls b s).map _ = _
  rw [h]
  rfl

/-- The first turns of a pass. -/
def turns (env : ℕ → SmwTask κ → List (SmwCall κ)) (n : ℕ) (s : SmwMemory κ) :
    Except Fault (Walk κ × List (SmwEvent κ)) :=
  Trace.run Walk.step ((List.range n).map env) ⟨s.tasks.list.head, s⟩

/-- One turn more. -/
theorem turns_succ {w w' : Walk κ} (h : turns env n s = .ok (w, evs))
    (hstep : w.step (env n) = .ok (w', evs')) : turns env (n + 1) s = .ok (w', evs ++ evs') := by
  rw [turns, List.range_succ, List.map_append]
  exact Trace.run_concat h hstep

theorem turns_succ_of_error {w : Walk κ} {e : Fault} (h : turns env n s = .ok (w, evs))
    (hstep : w.step (env n) = .error e) : turns env (n + 1) s = .error e := by
  rw [turns, List.range_succ, List.map_append]
  exact Trace.run_append_error h hstep []

theorem run_of_none (is : List (SmwTask κ → List (SmwCall κ))) (s : SmwMemory κ) :
    Trace.run Walk.step is ⟨none, s⟩ = .ok (⟨none, s⟩, []) := by
  induction is with
  | nil => rfl
  | cons i is ih =>
    have hi : Walk.step i ⟨none, s⟩ = .ok (⟨none, s⟩, []) := rfl
    rw [Trace.run_cons_of_ok hi, ih]
    rfl

theorem workFrom_succ (env : ℕ → SmwTask κ → List (SmwCall κ)) (fuel turn b : ℕ) :
    workFrom env (fuel + 1) turn (some b) = do
      let r ← takeTurn (env turn) b
      let evs' ← workFrom env fuel (turn + 1) r.2
      return r.1 ++ evs' := by
  simp only [workFrom, takeTurn, bind_assoc, pure_bind]

/-- The loop is its turns, and ends when there is no next node. -/
theorem workFrom_eq (env : ℕ → SmwTask κ → List (SmwCall κ)) (fuel turn : ℕ) (cur : Option ℕ)
    (s : SmwMemory κ) :
    workFrom env fuel turn cur s
      = (Trace.run Walk.step ((List.range fuel).map fun i => env (turn + i)) ⟨cur, s⟩).bind
        fun r => if r.1.cur = none then .ok (r.2, r.1.memory) else .error Fault.endless := by
  induction fuel generalizing turn cur s with
  | zero => cases cur <;> rfl
  | succ fuel ih =>
    cases cur with
    | none =>
      rw [run_of_none]
      rfl
    | some b =>
      have hrange : (List.range (fuel + 1)).map (fun i => env (turn + i))
          = env turn :: (List.range fuel).map fun i => env (turn + 1 + i) := by
        rw [List.range_succ_eq_map, List.map_cons, List.map_map]
        simp [Function.comp_def, Nat.add_assoc, Nat.add_comm 1]
      rw [workFrom_succ, hrange]
      rcases hturn : takeTurn (env turn) b s with e | ⟨⟨evs, next⟩, t⟩
      · rw [bind_of_error hturn, Trace.run_cons_of_error (step_of_error hturn)]
        rfl
      · rw [bind_of_ok hturn, Trace.run_cons_of_ok (step_of_takeTurn hturn)]
        have hrest := ih (turn + 1) next t
        rcases hrun : Trace.run Walk.step ((List.range fuel).map fun i => env (turn + 1 + i))
          ⟨next, t⟩ with e | ⟨w, evs'⟩
        · rw [hrun] at hrest
          rw [bind_of_error hrest]
          rfl
        · rw [hrun] at hrest
          change _ = if w.cur = none then Except.ok (evs ++ evs', w.memory)
            else .error Fault.endless
          by_cases hend : w.cur = none
          · rw [bind_of_ok (hrest.trans (if_pos hend)), if_pos hend]
            rfl
          · rw [bind_of_error (hrest.trans (if_neg hend)), if_neg hend]

/-- **A pass is its turns**, and ends when there is no next node. -/
theorem work_eq (env : ℕ → SmwTask κ → List (SmwCall κ)) (fuel : ℕ) (s : SmwMemory κ) :
    work env fuel s = (turns env fuel s).bind fun r =>
      if r.1.cur = none then .ok (r.2, r.1.memory) else .error Fault.endless := by
  have h := workFrom_eq env fuel 0 s.tasks.list.head s
  simp only [Nat.zero_add] at h
  exact h

/-! ## What a callback does -/

/-- **What a callback does to a list of tasks**, whatever it calls: the nodes of the tasks it
destroys are gone, and what it created and left is at the end. -/
structure Does (calls : List (SmwCall κ)) (l : List (ℕ × SmwTask κ)) (evs : List (SmwEvent κ))
    (new : List (ℕ × SmwTask κ)) (s' : SmwMemory κ) : Prop where
  lists : Lists (kept evs l ++ new) s'
  called_eq : called evs = []
  mem_destroyed : ∀ task, task ∈ destroyed evs ↔ .destroy task ∈ calls
  gone : ∀ e ∈ l, e.2.handle ∈ destroyed evs → s'.tasks.nodes.cell e.1 = none

theorem Lists.place_lt (h : Lists l s) {e : ℕ × SmwTask κ} (he : e ∈ l) :
    e.1 < s.tasks.nodes.next :=
  lt_next_of_chain h.nodes.chain (List.mem_map_of_mem (List.mem_map_of_mem he))

theorem Does.append {calls calls' : List (SmwCall κ)} {new' : List (ℕ × SmwTask κ)}
    {t u : SmwMemory κ} (hl : ∀ e ∈ l, e.1 < t.tasks.nodes.next) (h : Does calls l evs new t)
    (hlater : t.tasks.nodes.Later u.tasks.nodes)
    (h' : Does calls' (kept evs l ++ new) evs' new' u) :
    Does (calls ++ calls') l (evs ++ evs') (kept evs' new ++ new') u := by
  refine ⟨?_, ?_, fun task => ?_, fun e he hd => ?_⟩
  · rw [← List.append_assoc, ← kept_kept, ← kept_append]
    exact h'.lists
  · rw [called_append, h.called_eq, h'.called_eq]
    rfl
  · rw [destroyed_append, List.mem_append, List.mem_append, h.mem_destroyed, h'.mem_destroyed]
  · by_cases hevs : e.2.handle ∈ destroyed evs
    · exact hlater.cell _ (hl e he) (h.gone e he hevs)
    · rw [destroyed_append, List.mem_append] at hd
      exact h'.gone e (List.mem_append_left _ (List.mem_filter.mpr ⟨he, decide_eq_true hevs⟩))
        (hd.resolve_left hevs)

theorem exists_perform (h : Lists l s) (c : SmwCall κ) :
    Returns (perform c) s fun evs s' => ∃ new, Does [c] l evs new s' := by
  cases c with
  | create taskOk nodeOk context =>
    refine (returns_createTask h taskOk nodeOk context).bind fun {r t} ht => ?_
    obtain ⟨-, ht⟩ := ht
    split at ht
    · obtain ⟨rfl, b, hlists⟩ := ht
      refine Returns.pure ⟨[(b, ⟨s.blocks.next, context⟩)], ?_, rfl, by simp [destroyed],
        by simp [destroyed]⟩
      rwa [kept_eq_self (by simp [destroyed])]
    · obtain ⟨rfl, hlists⟩ := ht
      refine Returns.pure ⟨[], ?_, rfl, by simp [destroyed], by simp [destroyed]⟩
      rwa [kept_eq_self (by simp [destroyed]), List.append_nil]
  | destroy task =>
    refine (returns_destroyTask h task).bind fun {_ t} ht => Returns.pure ?_
    obtain ⟨hlists, -, hgone⟩ := ht
    refine ⟨[], ?_, rfl, by simp [destroyed], fun e he hd => hgone e he ?_⟩
    · have hkept : kept [.destroyed task] l = without task l := by simp [kept, without, destroyed]
      rwa [hkept, List.append_nil]
    · simpa [destroyed] using hd

/-- **A callback returns**, whatever it calls. -/
theorem exists_callback (h : Lists l s) (calls : List (SmwCall κ)) :
    Returns (callback calls) s fun evs s' => ∃ new, Does calls l evs new s' := by
  induction calls generalizing l s with
  | nil =>
    refine Returns.pure ⟨[], ?_, rfl, by simp [destroyed], by simp [destroyed]⟩
    rwa [kept_eq_self (by simp [destroyed]), List.append_nil]
  | cons c calls ih =>
    obtain ⟨evs, t, hc, new, ht⟩ := exists_perform h c
    obtain ⟨evs', u, hcalls, new', hu⟩ := ih ht.lists
    refine ⟨evs ++ evs', u, ?_, kept evs' new ++ new', ?_⟩
    · refine (bind_of_ok hc).trans ?_
      rw [bind_of_ok hcalls]
      rfl
    · have hl : ∀ e ∈ l, e.1 < t.tasks.nodes.next := fun e he =>
        (h.place_lt he).trans_le (ages_perform c _ _ _ hc).next_le
      exact Does.append hl ht (ages_callback calls _ _ _ hcalls) hu

/-- Whatever is created and destroyed, the scheduler holds a list of tasks. -/
theorem exists_registered (h : Lists l s) (calls : List (SmwCall κ)) :
    Returns (callback calls) s fun _ s' => ∃ tasks, Registered tasks s' := by
  refine (exists_callback h calls).mono fun {evs s'} ht => ?_
  obtain ⟨new, hdoes⟩ := ht
  exact ⟨_, _, hdoes.lists, rfl⟩

/-- A turn at a node of the list. -/
theorem exists_takeTurn {e : ℕ × SmwTask κ} (h : Lists (l₁ ++ e :: l₂) s)
    (calls : SmwTask κ → List (SmwCall κ)) :
    ∃ evs new s', takeTurn calls e.1 s
        = .ok ((.called e.2 :: evs, first (l₂.map node) none), s') ∧
      Does (calls e.2) (l₁ ++ e :: l₂) evs new s' := by
  obtain ⟨evs, s', hcall, new, hdoes⟩ := exists_callback h (calls e.2)
  refine ⟨evs, new, s', ?_, hdoes⟩
  refine (bind_of_ok (deref_node h)).trans ?_
  rw [bind_of_ok (derefTask_of_mem h (by simp)), bind_of_ok hcall]
  rfl

/-! ## Safe passes -/

/-- The walk is still to come to the task. -/
def Ahead (task : SmwTask κ) (w : Walk κ) : Prop :=
  ∃ l₁ l₂, Lists (l₁ ++ l₂) w.memory ∧ w.cur = first (l₂.map node) none ∧
    task ∈ l₂.map Prod.snd

/-- **Destroying tasks in a pass is safe**: nothing that was released is accessed, a pass only fails
by not ending; and a task that was there at the start was called, was destroyed, or lies ahead, and
that for no more turns than there were tasks. -/
structure SafePass (env : ℕ → SmwTask κ → List (SmwCall κ)) (tasks : List (SmwTask κ))
    (s : SmwMemory κ) : Prop where
  live : ∀ fuel fault, work env fuel s = .error fault → fault = .endless
  met : ∀ n w evs, turns env n s = .ok (w, evs) → ∀ task ∈ tasks,
    task ∈ called evs ∨ task.handle ∈ destroyed evs ∨ (n < tasks.length ∧ Ahead task w)

/-- The callback of the turn destroys the task of the next node, the one the walk has saved. -/
def DestroysNext (calls : SmwTask κ → List (SmwCall κ)) (w : Walk κ) : Prop :=
  ∃ l₁ e e' l₂, Lists (l₁ ++ e :: e' :: l₂) w.memory ∧ w.cur = some e.1 ∧
    .destroy e'.2.handle ∈ calls e.2

/-- **After such a turn the walk is at a node that is gone.** -/
theorem exists_step_of_destroysNext {calls : SmwTask κ → List (SmwCall κ)} {w : Walk κ}
    (h : DestroysNext calls w) (calls' : SmwTask κ → List (SmwCall κ)) :
    ∃ w' evs, Walk.step calls w = .ok (w', evs) ∧ Walk.step calls' w' = .error .notLive := by
  obtain ⟨l₁, e, e', l₂, hlists, hcur, hmem⟩ := h
  obtain ⟨cur, s⟩ := w
  obtain rfl : cur = some e.1 := hcur
  obtain ⟨evs, new, s', hturn, hdoes⟩ := exists_takeTurn hlists calls
  have hgone : s'.tasks.nodes.cell e'.1 = none :=
    hdoes.gone e' (by simp) ((hdoes.mem_destroyed _).mpr hmem)
  refine ⟨_, _, step_of_takeTurn hturn, step_of_error (bind_of_error ?_)⟩
  change (deref (some e'.1) s'.tasks).map _ = _
  rw [deref, Memory.read, hgone]
  rfl

/-- **The next turn accesses it.** -/
theorem work_of_destroysNext {w : Walk κ} (hturns : turns env n s = .ok (w, evs))
    (hnext : DestroysNext (env n) w) : work env (n + 2) s = .error .notLive := by
  obtain ⟨w', evs', hstep, hgone⟩ := exists_step_of_destroysNext hnext (env (n + 1))
  rw [work_eq, turns_succ_of_error (turns_succ hturns hstep) hgone]
  rfl

/-- **A pass on its course**: the walk has a part of the list ahead, where the tasks that were there
at the start come first. -/
structure OnCourse (tasks : List (SmwTask κ)) (n : ℕ) (evs : List (SmwEvent κ)) (w : Walk κ)
    (l old new : List (ℕ × SmwTask κ)) : Prop where
  lists : Lists (l ++ (old ++ new)) w.memory
  cur : w.cur = first ((old ++ new).map node) none
  length_le : old.length ≤ tasks.length - n
  met : ∀ task ∈ tasks, task ∈ called evs ∨ task.handle ∈ destroyed evs ∨ task ∈ old.map Prod.snd

/-- What comes first in a list that begins with an entry is the entry and what comes first in the
rest. -/
theorem exists_of_append_eq_cons {α : Type} {old new rest : List α} {a : α}
    (h : old ++ new = a :: rest) :
    ∃ old' new', rest = old' ++ new' ∧ (∀ b ∈ old, b = a ∨ b ∈ old') ∧
      old'.length = old.length - 1 := by
  cases old with
  | nil => exact ⟨[], rest, rfl, nofun, rfl⟩
  | cons b old =>
    obtain ⟨rfl, rfl⟩ := List.cons.inj h
    exact ⟨old, new, rfl, fun c hc => List.mem_cons.mp hc, rfl⟩

/-- A turn meets its own task and those it destroys; the others that were ahead still are. -/
theorem OnCourse.met_turn {w : Walk κ} {old old' : List (ℕ × SmwTask κ)} {e : ℕ × SmwTask κ}
    (h : OnCourse tasks n evs w l old new) (hold : ∀ x ∈ old, x = e ∨ x ∈ old')
    (evs' : List (SmwEvent κ)) :
    ∀ task ∈ tasks, task ∈ called (evs ++ .called e.2 :: evs') ∨
      task.handle ∈ destroyed (evs ++ .called e.2 :: evs') ∨
      task ∈ (kept evs' old').map Prod.snd := by
  intro task htask
  rw [called_append, destroyed_append, List.mem_append, List.mem_append]
  rcases h.met task htask with hcalled | hdestroyed | hmem
  · exact Or.inl (Or.inl hcalled)
  · exact Or.inr (Or.inl (Or.inl hdestroyed))
  · obtain ⟨x, hx, rfl⟩ := List.mem_map.mp hmem
    rcases hold x hx with rfl | hx
    · exact Or.inl (Or.inr (List.mem_cons_self ..))
    · by_cases hd : x.2.handle ∈ destroyed evs'
      · exact Or.inr (Or.inl (Or.inr hd))
      · exact Or.inr (Or.inr (List.mem_map_of_mem
          (List.mem_filter.mpr ⟨hx, decide_eq_true hd⟩)))

/-- **A turn that does not destroy the next task keeps the pass on its course.** -/
theorem OnCourse.step {w : Walk κ} {old : List (ℕ × SmwTask κ)}
    {calls : SmwTask κ → List (SmwCall κ)} (h : OnCourse tasks n evs w l old new)
    (hno : ¬ DestroysNext calls w) :
    ∃ w' evs' l' old' new', Walk.step calls w = .ok (w', evs') ∧
      OnCourse tasks (n + 1) (evs ++ evs') w' l' old' new' := by
  obtain ⟨cur, s⟩ := w
  obtain rfl : cur = first ((old ++ new).map node) none := h.cur
  have hlists : Lists (l ++ (old ++ new)) s := h.lists
  have hlen := h.length_le
  rcases hahead : old ++ new with _ | ⟨e, rest⟩
  · obtain ⟨rfl, rfl⟩ := List.append_eq_nil_iff.mp hahead
    refine ⟨_, [], l, [], [], rfl, hlists, rfl, Nat.zero_le _, ?_⟩
    rw [List.append_nil]
    exact h.met
  · rw [hahead] at hlists hno
    obtain ⟨old', new', rfl, hold, hlen'⟩ := exists_of_append_eq_cons hahead
    obtain ⟨evs', made, s', hturn, hdoes⟩ := exists_takeTurn hlists calls
    have hmet' := h.met_turn hold evs'
    have hlen'' : (kept evs' old').length ≤ tasks.length - (n + 1) := by
      have hfilter : (kept evs' old').length ≤ old'.length := List.length_filter_le ..
      omega
    have hlists' := hdoes.lists
    rcases hrest : old' ++ new' with _ | ⟨e', rest⟩
    · -- No next node was saved: what the callback created is behind the walk.
      obtain ⟨rfl, rfl⟩ := List.append_eq_nil_iff.mp hrest
      refine ⟨⟨none, s'⟩, _, kept evs' (l ++ [e]) ++ made, [], [], step_of_takeTurn hturn, ?_, rfl,
        Nat.zero_le _, hmet'⟩
      rw [List.append_nil, List.append_nil]
      exact hlists'
    · -- The next task is still there, and so is its node.
      rw [hrest] at hlists hlists' hturn
      have hkept : e'.2.handle ∉ destroyed evs' := fun hd =>
        hno ⟨l, e, e', rest, hlists, rfl, (hdoes.mem_destroyed _).mp hd⟩
      refine ⟨⟨some e'.1, s'⟩, _, kept evs' (l ++ [e]), kept evs' old', kept evs' new' ++ made,
        step_of_takeTurn hturn, ?_, ?_, hlen'', hmet'⟩
      · rw [← List.append_assoc, ← List.append_assoc, List.append_assoc (kept evs' (l ++ [e])),
          ← kept_append, ← kept_append, hrest, List.append_assoc, List.singleton_append]
        exact hlists'
      · have hcons : kept evs' (e' :: rest) = e' :: kept evs' rest :=
          List.filter_cons_of_pos (decide_eq_true hkept)
        rw [← List.append_assoc, ← kept_append, hrest, hcons]
        rfl

/-- **A pass whose turns do not destroy the next task stays on its course.** -/
theorem exists_turns {l : List (ℕ × SmwTask κ)} (h : Lists l s) (htasks : l.map Prod.snd = tasks)
    (hno : ∀ n w evs, turns env n s = .ok (w, evs) → ¬ DestroysNext (env n) w) (n : ℕ) :
    ∃ w evs l old new, turns env n s = .ok (w, evs) ∧ OnCourse tasks n evs w l old new := by
  induction n with
  | zero =>
    refine ⟨⟨s.tasks.list.head, s⟩, [], [], l, [], rfl, ?_, ?_, ?_, fun task htask => ?_⟩
    · rwa [List.append_nil]
    · rw [List.append_nil]
      exact h.nodes.head
    · rw [← htasks, List.length_map]
      exact le_rfl
    · exact Or.inr (Or.inr (htasks ▸ htask))
  | succ n ih =>
    obtain ⟨w, evs, l, old, new, hturns, hcourse⟩ := ih
    obtain ⟨w', evs', l', old', new', hstep, hcourse'⟩ := hcourse.step (hno n w evs hturns)
    exact ⟨w', evs ++ evs', l', old', new', turns_succ hturns hstep, hcourse'⟩

/-- **Destroying tasks in a pass is safe exactly when no callback destroys the task of the next
node.** -/
theorem safe_pass_iff (env : ℕ → SmwTask κ → List (SmwCall κ)) (h : Registered tasks s) :
    SafePass env tasks s ↔
      ∀ n w evs, turns env n s = .ok (w, evs) → ¬ DestroysNext (env n) w := by
  constructor
  · intro hsafe n w evs hturns hnext
    cases hsafe.live (n + 2) .notLive (work_of_destroysNext hturns hnext)
  · intro hno
    obtain ⟨l, hl, htasks⟩ := h
    refine ⟨fun fuel fault hfault => ?_, fun n w evs hturns task htask => ?_⟩
    · obtain ⟨w, evs, -, -, -, hturns, -⟩ := exists_turns hl htasks hno fuel
      rw [work_eq, hturns] at hfault
      change (if w.cur = none then _ else _) = _ at hfault
      split at hfault
      · cases hfault
      · cases hfault
        rfl
    · obtain ⟨w', evs', l', old, new, hturns', hcourse⟩ := exists_turns hl htasks hno n
      cases hturns.symm.trans hturns'
      refine (hcourse.met task htask).imp_right (Or.imp_right fun hmem => ⟨?_, ?_⟩)
      · have hpos : 0 < old.length := by
          obtain ⟨x, hx, -⟩ := List.mem_map.mp hmem
          exact List.length_pos_of_mem hx
        have hlen := hcourse.length_le
        omega
      · refine ⟨l', old ++ new, hcourse.lists, hcourse.cur, ?_⟩
        rw [List.map_append]
        exact List.mem_append_left _ hmem

/-- The next task is another one. -/
theorem not_destroysNext_of_owns {calls : SmwTask κ → List (SmwCall κ)} {w : Walk κ}
    (hown : ∀ task, Owns task.handle (calls task)) : ¬ DestroysNext calls w := by
  rintro ⟨l₁, e, e', l₂, hlists, -, hmem⟩
  exact handle_ne hlists.nodup (show e' ∈ l₁ ++ e' :: l₂ by simp) (hown e.2 _ hmem)

/-- Every task destroys itself and creates two others. -/
theorem safe_pass_own : ∃ evs s,
    callback [.create true true 7, .create true true 8] (init : SmwMemory ℕ) = .ok (evs, s) ∧
    SafePass (fun _ task => [.destroy task.handle, .create true true 9, .create true true 9])
      [⟨0, 7⟩, ⟨1, 8⟩] s := by
  obtain ⟨evs, s, hs, hlists⟩ := lists_two
  refine ⟨evs, s, hs, (safe_pass_iff _ ⟨_, hlists, rfl⟩).mpr fun n w evs _ =>
    not_destroysNext_of_owns fun task own hmem => ?_⟩
  simpa using hmem

/-- The first of two tasks destroys the second. -/
theorem not_safe_pass : ∃ evs s,
    callback [.create true true 7, .create true true 8] (init : SmwMemory ℕ) = .ok (evs, s) ∧
    Registered [⟨0, 7⟩, ⟨1, 8⟩] s ∧
    ¬ SafePass (fun _ task => if task.handle = 0 then [.destroy 1] else [])
      [⟨0, 7⟩, ⟨1, 8⟩] s := by
  obtain ⟨evs, s, hs, hlists⟩ := lists_two
  refine ⟨evs, s, hs, ⟨_, hlists, rfl⟩, fun hsafe => ?_⟩
  have hnext : DestroysNext (fun task : SmwTask ℕ => if task.handle = 0 then [.destroy 1] else [])
      ⟨s.tasks.list.head, s⟩ :=
    ⟨[], (0, ⟨0, 7⟩), (1, ⟨1, 8⟩), [], hlists, hlists.nodes.head, by simp⟩
  cases hsafe.live 2 .notLive (work_of_destroysNext (n := 0) rfl hnext)

end SmwMemory
