import JustWeather.Server.WeatherServer.MainLoop

/-!
# Server/WeatherServer/Passes — every task has its turn in every pass

Each pass of the loop of `main` is a run of the server that comes to every task that was registered
when it began, once and in the order of registration, and to each that is registered on the way at
most once (`Passes`).  So what holds of the server whatever the order of the turns holds of the loop
(`loops`).
-/

open CLib Fallible Chain SmwMemory

namespace ServerMemory

variable {l l₁ l₂ new : List Listed} {e : Listed} {m : ServerMemory} {s : WeatherServer}
  {t : ServerTick} {env : ℕ → ServerTick}

/-! ## A pass -/

/-- The turns that come to these tasks, as the environment has them. -/
def ticksFrom (env : ℕ → ServerTick) : ℕ → List TaskHandle → List ServerTick
  | _, [] => []
  | turn, handle :: handles =>
    { env turn with task := handle } :: ticksFrom env (turn + 1) handles

/-- A turn for each task that is left, and one for what the TCP server may register. -/
def left (l : List Listed) : ℕ := l.length + l.countP Listed.Accepts

theorem left_append (l new : List Listed) (h : ∀ e ∈ new, ¬ e.Accepts) :
    left (l ++ new) = left l + new.length := by
  have hnone : new.countP Listed.Accepts = 0 :=
    List.countP_eq_zero.mpr fun e he => by rw [decide_eq_true_eq]; exact h e he
  rw [left, left, List.length_append, List.countP_append, hnone]
  omega

/-- A turn leaves less of the walk, whatever it registers. -/
theorem After.left_lt {kept : List Listed} {m' : ServerMemory} {s' : WeatherServer}
    (h : After l₁ e l₂ s kept new m' s') : left (l₂ ++ new) < left (e :: l₂) := by
  rw [left_append l₂ new h.registers.connection, left, left, List.length_cons]
  by_cases he : e.Accepts
  · have hlen := h.registers.length
    rw [List.countP_cons_of_pos (by rwa [decide_eq_true_eq])]
    omega
  · rw [h.quiet he, List.countP_cons_of_neg (by rwa [decide_eq_true_eq]), List.length_nil]
    omega

theorem first_entries_append (h : l ≠ []) (new : List Listed) :
    first (((l ++ new).map Listed.entry).map node) none
      = first ((l.map Listed.entry).map node) none := by
  rw [List.map_append, List.map_append, first_append]
  exact first_ne_none (by simpa using h) _ none

/-- **The tasks a walk comes to**: those that are left, in their order, and none twice. -/
structure Comes (l : List Listed) (s : WeatherServer) (handles : List TaskHandle) : Prop where
  old : l.map Listed.handle <+: handles
  nodup : handles.Nodup
  mem : ∀ handle ∈ handles, handle ∈ l.map Listed.handle ∨ s.smw.next ≤ handle

/-- The task whose turn it was, and those the walk comes to after it. -/
theorem After.comes {kept : List Listed} {m' : ServerMemory} {s' : WeatherServer}
    {handles : List TaskHandle} (h : After l₁ e l₂ s kept new m' s')
    (hf : Follows (l₁ ++ e :: l₂) m s) (hcomes : Comes (l₂ ++ new) s' handles) :
    Comes (e :: l₂) s (e.handle :: handles) := by
  have hnodup := hf.nodup
  rw [List.map_append, List.map_cons, List.nodup_middle, List.nodup_cons, List.mem_append]
    at hnodup
  have hmem : ∀ handle ∈ handles, handle ∈ l₂.map Listed.handle ∨ s.smw.next ≤ handle := by
    intro handle hin
    rcases hcomes.mem handle hin with hin | hge
    · rw [List.map_append, List.mem_append] at hin
      refine hin.imp_right fun hin => ?_
      obtain ⟨e', he', rfl⟩ := List.mem_map.mp hin
      exact h.registers.next_le e' he'
    · exact Or.inr (h.next_le.trans hge)
  refine ⟨?_, List.nodup_cons.mpr ⟨fun hin => ?_, hcomes.nodup⟩, fun handle hin => ?_⟩
  · have hold := hcomes.old
    rw [List.map_append] at hold
    exact (List.prefix_cons_inj e.handle).mpr ((List.prefix_append _ _).trans hold)
  · rcases hmem e.handle hin with hin | hge
    · exact hnodup.1 (Or.inr hin)
    · exact Nat.lt_irrefl _ ((hf.handle_lt (by simp)).trans_le hge)
  · rcases List.mem_cons.mp hin with rfl | hin
    · exact Or.inl (List.mem_cons_self ..)
    · exact (hmem handle hin).imp_left (List.mem_cons_of_mem e.handle)

theorem Follows.comes (h : Follows (l₁ ++ l₂) m s) : Comes l₂ s (l₂.map Listed.handle) := by
  have hnodup := h.nodup
  rw [List.map_append] at hnodup
  exact ⟨List.prefix_rfl, hnodup.of_append_right, fun _ h => Or.inl h⟩

/-- The server in memory has come where the server has, and shown what it showed. -/
def Mirrors (r : ServerMemory × List HTTPServerConnection.Event)
    (r' : WeatherServer × List HTTPServerConnection.Event) : Prop :=
  (∃ l, Follows l r.1 r'.1) ∧
    r.2.map HTTPServerConnection.Event.plain = r'.2.map HTTPServerConnection.Event.plain

/-- A turn of the walk: the next node is the one that came next before the callback. -/
theorem workFrom_succ (h : Follows (l₁ ++ e :: l₂) m s) (fuel turn : ℕ) :
    workFrom env (fuel + 1) turn (some e.place) m = (do
      let evs ← callback (env turn) e.task.context
      let evs' ← workFrom env fuel (turn + 1) (first ((l₂.map Listed.entry).map node) none)
      return evs ++ evs' : ServerM (List HTTPServerConnection.Event)) m := by
  have hlists := h.lists
  rw [List.map_append, List.map_cons] at hlists
  have htask : onSmw (derefTask e.task.handle) m = .ok (e.task.context, m) :=
    onSmw_of_ok (derefTask_of_mem h.lists (List.mem_map_of_mem (by simp)))
  exact (bind_of_ok (onSmw_of_ok (deref_node hlists))).trans (bind_of_ok htask)

/-- What the turns after one show comes after what it showed. -/
theorem matches_rest {x : ServerM (List HTTPServerConnection.Event)} {m' : ServerMemory}
    {s' : WeatherServer} {ticks : List ServerTick} {evs evs' : List HTTPServerConnection.Event}
    (hw : s.work t = .ok (s', evs'))
    (hevs : evs.map HTTPServerConnection.Event.plain = evs'.map HTTPServerConnection.Event.plain)
    (h : Matches Mirrors ((x m').map fun r => (r.2, r.1))
      (Trace.run WeatherServer.work ticks s')) :
    Matches Mirrors (((do
        let evs' ← x
        return evs ++ evs' : ServerM (List HTTPServerConnection.Event)) m').map fun r => (r.2, r.1))
      (Trace.run WeatherServer.work (t :: ticks) s) := by
  have hx : ((do
        let evs' ← x
        return evs ++ evs' : ServerM (List HTTPServerConnection.Event)) m').map
          (fun r => (r.2, r.1))
      = ((x m').map fun r => (r.2, r.1)).map fun r => (r.1, evs ++ r.2) := by
    rcases hm : x m' with f | r
    · rw [bind_of_error hm]
      rfl
    · rw [bind_of_ok hm]
      rfl
  rw [hx, Trace.run_cons_of_ok hw]
  refine h.map fun {r r'} hr => ⟨hr.1, ?_⟩
  rw [List.map_append, List.map_append, hevs, hr.2]

/-- **The walk follows a run of the server** that comes to the tasks that are left. -/
theorem exists_workFrom (env : ℕ → ServerTick) {fuel : ℕ} (h : Follows (l₁ ++ l₂) m s)
    (hfuel : left l₂ ≤ fuel) (turn : ℕ) : ∃ handles, Comes l₂ s handles ∧
      Matches Mirrors ((workFrom env fuel turn (first ((l₂.map Listed.entry).map node) none) m).map
          fun r => (r.2, r.1))
        (Trace.run WeatherServer.work (ticksFrom env turn handles) s) := by
  induction fuel generalizing l₁ l₂ m s turn with
  | zero =>
    obtain rfl : l₂ = [] := List.length_eq_zero_iff.mp (by rw [left] at hfuel; omega)
    exact ⟨[], h.comes, ⟨_, h⟩, rfl⟩
  | succ fuel ih =>
    rcases l₂ with _ | ⟨e, l₂⟩
    · exact ⟨[], h.comes, ⟨_, h⟩, rfl⟩
    · change ∃ handles, Comes (e :: l₂) s handles ∧ Matches Mirrors
        ((workFrom env (fuel + 1) turn (some e.place) m).map fun r => (r.2, r.1)) _
      rw [workFrom_succ h]
      have hmatch := matches_callback h (env turn)
      rcases hx : callback (env turn) e.task.context m with f | ⟨evs, m'⟩ <;>
      rcases hy : s.work { env turn with task := e.handle } with f' | ⟨s', evs'⟩ <;>
      rw [hx, hy] at hmatch
      · refine ⟨_, h.comes, ?_⟩
        rw [bind_of_error hx, List.map_cons, ticksFrom, Trace.run_cons_of_error hy]
        exact hmatch
      · exact hmatch.elim
      · exact hmatch.elim
      · obtain ⟨⟨kept, new, hafter⟩, hevs⟩ := hmatch
        rw [bind_of_ok hx]
        by_cases hl₂ : l₂ = []
        · -- the walk saved no next node: what this callback registered is for the next pass
          subst hl₂
          refine ⟨[e.handle], h.comes, matches_rest hy hevs ?_⟩
          cases fuel <;> exact ⟨⟨_, hafter.follows⟩, rfl⟩
        · -- less is left than before, so there are turns enough
          obtain ⟨handles, hcomes, hrest⟩ :=
            ih hafter.follows (Nat.le_of_lt_succ (hafter.left_lt.trans_le hfuel)) (turn + 1)
          rw [first_entries_append hl₂] at hrest
          exact ⟨e.handle :: handles, hafter.comes h hcomes, matches_rest hy hevs hrest⟩

/-- **A pass follows a run of the server** that comes to every task once. -/
theorem exists_step (h : Follows l m s) (env : ℕ → ServerTick) :
    ∃ handles, s.smw.tasks.map SmwTask.handle <+: handles ∧ handles.Nodup ∧
      Matches Mirrors (step env m)
        (Trace.run WeatherServer.work (ticksFrom env 0 handles) s) := by
  have hfuel : left l ≤ m.smw.tasks.nodes.next + 1 := by
    have hlen := h.lists.nodes.length_le
    rw [List.length_map, List.length_map] at hlen
    exact Nat.add_le_add hlen h.accepts
  obtain ⟨handles, hcomes, hmatch⟩ :=
    exists_workFrom env (show Follows ([] ++ l) m s from h) hfuel 0
  refine ⟨handles, ?_, hcomes.nodup, ?_⟩
  · rw [h.twins, List.map_map]
    exact hcomes.old
  · rw [← h.lists.nodes.head] at hmatch
    exact hmatch

/-! ## The loop of `main` -/

/-- **The turns are passes**, one for each that the environment makes: each comes to every task that
is registered when it begins, in the order of registration, and to no task twice. -/
inductive Passes : List (ℕ → ServerTick) → WeatherServer → List ServerTick → Prop
  | nil (s : WeatherServer) : Passes [] s []
  | cons {env : ℕ → ServerTick} {envs : List (ℕ → ServerTick)} {s : WeatherServer}
      {handles : List TaskHandle} {ticks : List ServerTick}
      (old : s.smw.tasks.map SmwTask.handle <+: handles) (nodup : handles.Nodup)
      (rest : ∀ s' evs, Trace.run WeatherServer.work (ticksFrom env 0 handles) s = .ok (s', evs) →
        Passes envs s' ticks) :
      Passes (env :: envs) s (ticksFrom env 0 handles ++ ticks)

/-- The passes the environment makes follow a run of the server, from wherever they begin. -/
theorem exists_passes (h : Follows l m s) (envs : List (ℕ → ServerTick)) :
    ∃ ticks, Passes envs s ticks ∧
      Matches Mirrors (Trace.run step envs m) (Trace.run WeatherServer.work ticks s) := by
  induction envs generalizing l m s with
  | nil => exact ⟨[], .nil s, ⟨_, h⟩, rfl⟩
  | cons env envs ih =>
    obtain ⟨handles, hold, hnodup, hmatch⟩ := exists_step h env
    rcases hx : step env m with f | ⟨m', evs⟩ <;>
    rcases hy : Trace.run WeatherServer.work (ticksFrom env 0 handles) s with f' | ⟨s', evs'⟩ <;>
    rw [hx, hy] at hmatch
    · refine ⟨ticksFrom env 0 handles ++ [], .cons hold hnodup fun s' evs hs => ?_, ?_⟩
      · cases hy.symm.trans hs
      · rw [Trace.run_cons_of_error hx, List.append_nil, hy]
        exact hmatch
    · exact hmatch.elim
    · exact hmatch.elim
    · obtain ⟨⟨l', hfollows⟩, hevs⟩ := hmatch
      obtain ⟨ticks, hpasses, hrest⟩ := ih hfollows
      refine ⟨ticksFrom env 0 handles ++ ticks, .cons hold hnodup fun t evs ht => ?_, ?_⟩
      · obtain ⟨rfl, -⟩ := Prod.ext_iff.mp (Except.ok.inj (hy.symm.trans ht))
        exact hpasses
      · rw [Trace.run_cons_of_ok hx, Trace.run_append hy]
        refine hrest.map fun {r r'} hr => ⟨hr.1, ?_⟩
        rw [List.map_append, List.map_append, hevs, hr.2]

theorem exists_start : ∃ m, start = .ok m ∧
    Follows [⟨0, ⟨0, .tcpServer⟩, 0⟩, ⟨1, ⟨1, .httpServer⟩, 1⟩, ⟨2, ⟨2, .weatherServer⟩, 2⟩] m
      WeatherServer.initiate := by
  refine ⟨_, rfl, ⟨⟨⟨rfl, rfl, rfl, trivial⟩, rfl, rfl, rfl, by decide⟩, fun e he => ?_,
    by decide⟩, rfl, ⟨rfl, .nil, rfl, rfl⟩, fun e he b hb => ?_, by decide⟩
  · simp only [List.map_cons, List.map_nil, List.mem_cons, List.not_mem_nil, or_false] at he
    rcases he with rfl | rfl | rfl <;> rfl
  · simp only [List.mem_cons, List.not_mem_nil, or_false] at he
    rcases he with rfl | rfl | rfl <;> cases hb

/-- **The loop of `main` is a run of the server.**  However the callbacks add to the task list in
memory and take from it while it is walked, the passes do what some run of the server does that
comes to every registered task once a pass.  The memory holds the tasks of the server; a pass faults
only where that run does, in a connection, so no access to a node or a task goes wrong and every
pass ends. -/
theorem loops (envs : List (ℕ → ServerTick)) : ∃ m ticks, start = .ok m ∧
    Passes envs WeatherServer.initiate ticks ∧
    Matches Mirrors (Trace.run step envs m)
      (Trace.run WeatherServer.work ticks WeatherServer.initiate) ∧
    ∀ f, Trace.run step envs m = .error f → HTTPServerConnection.Own f := by
  obtain ⟨m, hstart, hfollows⟩ := exists_start
  obtain ⟨ticks, hpasses, hmatch⟩ := exists_passes hfollows envs
  refine ⟨m, ticks, hstart, hpasses, hmatch, fun f hf => ?_⟩
  rcases hrun : Trace.run WeatherServer.work ticks WeatherServer.initiate with f' | r <;>
  rw [hf, hrun] at hmatch
  · obtain rfl : f = f' := hmatch
    exact WeatherServer.own_of_run hrun
  · exact hmatch.elim

/-- A pass in which a socket comes, and every connection reads a request for the homepage. -/
def homepagePass (turn : ℕ) : ServerTick :=
  ⟨turn, turn == 0, .all, WeatherServer.homepageTick, fun _ => (none, 0), true⟩

/-- The task that is registered on the way has its turn in the same pass. -/
example : (start.bind (Trace.run step [homepagePass, homepagePass])).toOption.map
    (fun r => (r.2.length, r.1.smw.tasks.list.size,
      r.1.connections.map fun c => c.connection.state))
      = some (3, 5, [.send, .send]) := by
  decide +kernel

end ServerMemory
