import JustWeather.Lib.HttpServerConnection.Segmentation
import JustWeather.Server.WeatherServer.Instances
import Mathlib.Data.List.Perm.Basic

/-!
# Server/WeatherServer/Holdings — what a server holds, on every run

The tasks of a server are the three it starts with and one for each connection that got one and was
not torn down; its open sockets are those of the connections that were not.  Every turn keeps the
balance (`Holds.work`), so in no run is a socket lost or closed twice, or a connection torn down
twice (`holds_of_run`).
-/

open CLib

/-! ## The books -/

/-- The task of connection number `b`, as the scheduler has it. -/
def ServedConnection.entry (b : ℕ) (c : ServedConnection) : Option (SmwTask ServerContext) :=
  c.connection.task.map fun h => ⟨h, .connection b⟩

/-- The socket of a connection: `tcp_client_dispose` leaves `-1` for it. -/
def ServedConnection.socket (c : ServedConnection) : Option ℕ := c.connection.fd.toNat?

namespace WeatherServer

variable {s s' : WeatherServer} {alloc : AcceptAlloc} {t : ServerTick} {ticks : List ServerTick}
  {evs evs' : List HTTPServerConnection.Event} {cs : List ServedConnection}
  {c d : ServedConnection} {b i : ℕ} {own : List (SmwTask ServerContext)}

/-- The tasks of the connections, from number `b` on, in the order they were accepted. -/
def entries : ℕ → List ServedConnection → List (SmwTask ServerContext)
  | _, [] => []
  | b, c :: cs => (c.entry b).toList ++ entries (b + 1) cs

/-- The sockets of the connections. -/
def held (cs : List ServedConnection) : List ℕ := cs.filterMap ServedConnection.socket

theorem mem_entries {task : SmwTask ServerContext} : task ∈ entries b cs ↔
    ∃ i, ∃ c : ServedConnection, cs[i]? = some c ∧ c.entry (b + i) = some task := by
  induction cs generalizing b with
  | nil => simp [entries]
  | cons c cs ih =>
    rw [entries, List.mem_append, Option.mem_toList, ih]
    constructor
    · rintro (hc | ⟨i, d, hd, hentry⟩)
      · exact ⟨0, c, rfl, hc⟩
      · exact ⟨i + 1, d, hd, by rwa [Nat.add_right_comm, Nat.add_assoc] at hentry⟩
    · rintro ⟨_ | i, d, hd, hentry⟩
      · obtain rfl := Option.some.inj hd
        exact Or.inl hentry
      · exact Or.inr ⟨i, d, hd, by rwa [Nat.add_right_comm, Nat.add_assoc]⟩

theorem entries_concat (cs : List ServedConnection) (c : ServedConnection) (b : ℕ) :
    entries b (cs ++ [c]) = entries b cs ++ (c.entry (b + cs.length)).toList := by
  induction cs generalizing b with
  | nil => simp [entries]
  | cons d cs ih =>
    rw [List.cons_append, entries, entries, ih, List.append_assoc, List.length_cons,
      Nat.add_right_comm, Nat.add_assoc]

/-- A connection in the place of one with the same task. -/
theorem entries_set_of_eq (hc : cs[i]? = some c) (h : d.connection.task = c.connection.task) :
    entries b (cs.set i d) = entries b cs := by
  induction cs generalizing b i with
  | nil => cases hc
  | cons e cs ih =>
    cases i with
    | zero =>
      obtain rfl := Option.some.inj hc
      rw [List.set_cons_zero, entries, entries, ServedConnection.entry, ServedConnection.entry, h]
    | succ i => rw [List.set_cons_succ, entries, entries, ih hc]

/-- A connection without a task in the place of one that has one. -/
theorem entries_set_of_none {h : TaskHandle} (hc : cs[i]? = some c)
    (htask : c.connection.task = some h) (hd : d.connection.task = none)
    (hnodup : ((entries b cs).map SmwTask.handle).Nodup) :
    entries b (cs.set i d) = (entries b cs).eraseP (·.handle == h) := by
  induction cs generalizing b i with
  | nil => cases hc
  | cons e cs ih =>
    cases i with
    | zero =>
      obtain rfl := Option.some.inj hc
      simp [entries, ServedConnection.entry, htask, hd]
    | succ i =>
      rw [entries, List.map_append, List.nodup_append] at hnodup
      -- the task is in the rest, so it is not the one of the first
      have hmem : (⟨h, .connection (b + 1 + i)⟩ : SmwTask ServerContext) ∈ entries (b + 1) cs :=
        mem_entries.mpr ⟨i, c, hc, by rw [ServedConnection.entry, htask]; rfl⟩
      have hne : ∀ task ∈ (e.entry b).toList, ¬ (task.handle == h) = true := by
        intro task htask' heq
        exact hnodup.2.2 _ (List.mem_map_of_mem htask') _ (List.mem_map_of_mem hmem)
          (beq_iff_eq.mp heq)
      rw [List.set_cons_succ, entries, entries, ih hc hnodup.2.1, List.eraseP_append_right _ hne]

/-- A connection in the place of one with the same socket. -/
theorem held_set_of_eq (hc : cs[i]? = some c) (h : d.socket = c.socket) :
    held (cs.set i d) = held cs := by
  induction cs generalizing i with
  | nil => cases hc
  | cons e cs ih =>
    cases i with
    | zero =>
      obtain rfl := Option.some.inj hc
      rw [List.set_cons_zero, held, held, List.filterMap_cons, List.filterMap_cons, h]
    | succ i =>
      have hrest := ih hc
      rw [held, held] at hrest
      rw [List.set_cons_succ, held, held, List.filterMap_cons, List.filterMap_cons, hrest]

/-- A connection without a socket in the place of one that has one. -/
theorem held_set_of_none {fd : ℕ} (hc : cs[i]? = some c) (hfd : c.socket = some fd)
    (hd : d.socket = none) : (held cs).Perm (fd :: held (cs.set i d)) := by
  induction cs generalizing i with
  | nil => cases hc
  | cons e cs ih =>
    cases i with
    | zero =>
      obtain rfl := Option.some.inj hc
      rw [List.set_cons_zero, held, held, List.filterMap_cons, List.filterMap_cons, hfd, hd]
    | succ i =>
      rw [List.set_cons_succ, held, held, List.filterMap_cons, List.filterMap_cons]
      rcases e.socket with _ | fd'
      · exact ih hc
      · exact ((ih hc).cons fd').trans (.swap ..)

/-- Which sockets are held is all that counts, not in which order. -/
theorem allClosedBut_congr {sockets : Sockets} {live live' : List ℕ}
    (h : sockets.AllClosedBut live) (hmem : ∀ fd, fd ∈ live ↔ fd ∈ live') :
    sockets.AllClosedBut live' := by
  obtain ⟨hcount, hclosed, hlive⟩ := h
  refine ⟨fun fd hfd => ?_, hclosed, fun fd hfd => hlive fd ((hmem fd).mpr hfd)⟩
  rw [hcount fd hfd]
  exact if_congr (hmem fd) rfl rfl

/-! ## The balance -/

/-- **The balance of a server** that has shown `evs`: its tasks are its own and those of the
connections, in the order they were accepted; each socket that was accepted was closed once or is
held by one connection; a connection that has a task has its socket; and each connection was
disposed of once or has its socket. -/
structure Holds (own : List (SmwTask ServerContext)) (s : WeatherServer)
    (evs : List HTTPServerConnection.Event) : Prop where
  others : ∀ task ∈ own, ∀ b, task.context ≠ .connection b
  tasks : s.smw.tasks = own ++ entries 0 s.connections
  sockets : s.sockets.AllClosedBut (held s.connections)
  nodup : (held s.connections).Nodup
  owns : ∀ c ∈ s.connections, c.connection.task.isSome → c.socket.isSome
  disposals : evs.count .disposed + (held s.connections).length = s.connections.length

theorem holds_initiate : Holds initiate.smw.tasks initiate [] :=
  ⟨by simp [initiate, Smw.createTask, Smw.init], rfl,
    ⟨fun _ h => absurd h (Nat.not_lt_zero _), fun _ h => (List.not_mem_nil h).elim,
    fun _ h => (List.not_mem_nil h).elim⟩, List.nodup_nil,
    fun _ h => (List.not_mem_nil h).elim, rfl⟩

/-- **The connection whose turn it is has that task**, and with it its socket. -/
theorem Holds.of_turn (h : Holds own s evs) (hturn : s.turn t = some (.connection b)) :
    ∃ c fd, s.connections[b]? = some c ∧ c.connection.task = some t.task ∧ c.socket = some fd := by
  obtain ⟨task, hfind, hcontext⟩ := Option.map_eq_some_iff.mp hturn
  have hbeq := List.find?_some hfind
  have hhandle : task.handle = t.task := beq_iff_eq.mp hbeq
  have hmem := List.mem_of_find?_eq_some hfind
  rw [h.tasks, List.mem_append] at hmem
  rcases hmem with hmem | hmem
  · exact absurd hcontext (h.others task hmem b)
  · obtain ⟨i, c, hc, hentry⟩ := mem_entries.mp hmem
    obtain ⟨handle, htask, rfl⟩ := Option.map_eq_some_iff.mp hentry
    obtain rfl : 0 + i = b := ServerContext.connection.inj hcontext
    rw [Nat.zero_add]
    obtain ⟨fd, hfd⟩ := Option.isSome_iff_exists.mp
      (h.owns c (List.mem_of_getElem? hc) (by rw [htask]; rfl))
    exact ⟨c, fd, hc, htask.trans (congrArg some hhandle), hfd⟩

theorem entry_initiate (fd : ℤ) (task : Option TaskHandle) (context : Option ℕ) (b : ℕ) :
    (⟨HTTPServerConnection.initiate fd task, context⟩ : ServedConnection).entry b
      = task.map fun h => ⟨h, .connection b⟩ := rfl

theorem tasks_createTask {κ : Type} (taskOk nodeOk : Bool) (context : κ) (smw : Smw κ) :
    (smw.createTask taskOk nodeOk context).2.tasks = smw.tasks ++
      ((smw.createTask taskOk nodeOk context).1.map fun h => ⟨h, context⟩).toList := by
  rw [Smw.createTask]
  split
  · rfl
  · exact (List.append_nil _).symm

/-- **An accept keeps the balance**, whatever there is memory for. -/
theorem Holds.accept (h : Holds own s evs) (alloc : AcceptAlloc) :
    Holds own (s.tcpServerAccept alloc) evs := by
  have hnew : s.sockets.opened ∉ held s.connections := fun hmem =>
    Nat.lt_irrefl _ (h.sockets.2.2 _ hmem)
  cases hc : alloc.connection with
  | false =>
    rw [tcpServerAccept_of_no_connection hc]
    exact ⟨h.others, h.tasks, h.sockets.socket.close hnew, h.nodup, h.owns, h.disposals⟩
  | true =>
    rw [tcpServerAccept_of_connection hc]
    have hheld : ∀ d : ServedConnection, d.socket = some s.sockets.opened →
        (held (s.connections ++ [d])).Perm (s.sockets.opened :: held s.connections) := by
      intro d hd
      rw [held, List.filterMap_append, List.filterMap_cons, hd]
      exact List.perm_append_singleton ..
    refine ⟨h.others, ?_, ?_, ?_, fun c hmem htask => ?_, ?_⟩
    · rw [tasks_createTask, h.tasks, entries_concat, Nat.zero_add, entry_initiate,
        List.append_assoc]
    · exact allClosedBut_congr h.sockets.socket fun fd => (hheld _ rfl).mem_iff.symm
    · exact (hheld _ rfl).nodup_iff.mpr (List.nodup_cons.mpr ⟨hnew, h.nodup⟩)
    · rcases List.mem_append.mp hmem with hmem | hmem
      · exact h.owns c hmem htask
      · obtain rfl := List.mem_singleton.mp hmem
        rfl
    · rw [(hheld _ rfl).length_eq, List.length_cons, List.length_append, List.length_singleton,
        ← h.disposals, Nat.add_assoc]

/-- Only a connection that is to be disposed of is. -/
theorem disposed_notMem {onRequest : HTTPServerConnection.OnRequest}
    {tick : HTTPServerConnection.Tick} {x y : Smw ServerContext × HTTPServerConnection}
    (h : HTTPServerConnection.taskWork onRequest tick x = .ok (y, evs))
    (hstate : x.2.state ≠ .dispose) : .disposed ∉ evs := by
  obtain ⟨smw, c⟩ := x
  cases hc : c.state with
  | dispose => exact absurd hc hstate
  | receive =>
    rw [HTTPServerConnection.taskWork_of_receive smw hc] at h
    obtain ⟨o, ho, hy⟩ := Fallible.exists_of_map h
    obtain ⟨-, rfl⟩ := Prod.ext_iff.mp hy
    rcases HTTPServerConnection.receive_events ho with hevs | ⟨e, hevs, -⟩ <;> simp [hevs]
  | send =>
    rw [HTTPServerConnection.taskWork_of_send smw hc] at h
    obtain ⟨o, ho, hy⟩ := Fallible.exists_of_map h
    obtain ⟨-, rfl⟩ := Prod.ext_iff.mp hy
    rcases HTTPServerConnection.send_cases tick.send c with
      ⟨hs, -⟩ | ⟨hs, -⟩ | ⟨-, hs⟩ | ⟨_, _, -, -, -, hs⟩ <;> cases hs.symm.trans ho <;> simp

/-- **A turn of a connection disposes of it, or leaves it what it holds.** -/
theorem connectionTaskWork_cases (h : s.connectionTaskWork t b = .ok (s', evs)) :
    ∃ c d, s.connections[b]? = some c ∧ s'.connections = s.connections.set b d ∧
      ((d.connection.task = none ∧ d.socket = none ∧
          s'.smw = s.smw.destroyTask c.connection.task ∧
          s'.sockets = closeConnection c.connection.fd s.sockets ∧ evs = [.disposed]) ∨
        (HTTPServerConnection.Keeps c.connection d.connection ∧ s'.smw = s.smw ∧
          s'.sockets = s.sockets ∧ .disposed ∉ evs)) := by
  rw [connectionTaskWork] at h
  split at h
  · cases h
  · rename_i c hc
    obtain ⟨r, hwork, hr⟩ := Fallible.exists_of_map h
    obtain ⟨rfl, rfl⟩ := Prod.ext_iff.mp hr
    refine ⟨c, ⟨r.1.2, c.context⟩, hc, rfl, ?_⟩
    rcases HTTPServerConnection.taskWork_keeps hwork with ⟨hstate, hd⟩ | ⟨hstate, hsmw, hkeeps⟩
    · rw [HTTPServerConnection.taskWork_of_dispose s.smw hstate] at hwork
      obtain rfl := Except.ok.inj hwork
      exact Or.inl ⟨rfl, rfl, rfl, by rw [hstate], rfl⟩
    · refine Or.inr ⟨hkeeps, hsmw, ?_, disposed_notMem hwork hstate⟩
      dsimp only
      split
      · exact absurd ‹_› hstate
      · rfl

/-- **Every turn keeps the balance.** -/
theorem Holds.work (h : Holds own s evs) (hw : s.work t = .ok (s', evs')) :
    Holds own s' (evs ++ evs') := by
  rcases work_cases hw with ⟨rfl, hturn⟩ | ⟨hturn, -, rfl⟩ | ⟨b, hturn, hw⟩
  · have hevs : evs' = [] := by
      rw [WeatherServer.work] at hw
      split at hw
      case h_5 b hb => exact absurd hb (hturn b)
      all_goals exact (Prod.ext_iff.mp (Except.ok.inj hw)).2.symm
    rwa [hevs, List.append_nil]
  · have hevs : evs' = [] := by
      rw [WeatherServer.work, hturn] at hw
      exact (Prod.ext_iff.mp (Except.ok.inj hw)).2.symm
    rw [hevs, List.append_nil]
    exact h.accept t.alloc
  · obtain ⟨c, fd, hc, htask, hfd⟩ := h.of_turn hturn
    obtain ⟨c', d, hc', hconn, hd⟩ := connectionTaskWork_cases hw
    obtain rfl := Option.some.inj (hc.symm.trans hc')
    obtain ⟨hlt, -⟩ := List.getElem?_eq_some_iff.mp hc
    rcases hd with ⟨hnone, hgone, hsmw, hsockets, rfl⟩ | ⟨hkeeps, hsmw, hsockets, hno⟩
    · -- the books lose one task and one socket, and gain one disposal
      have hheld := held_set_of_none hc hfd hgone
      have hnodup := hheld.nodup_iff.mp h.nodup
      have hclose : closeConnection c.connection.fd s.sockets = s.sockets.close fd := by
        have hint : c.connection.fd = fd := Int.mem_toNat?.mp hfd
        rw [closeConnection, hint, if_pos (Int.natCast_nonneg fd), Int.toNat_natCast]
      refine ⟨h.others, ?_, ?_, ?_, fun e hmem he => ?_, ?_⟩
      · have hall := s.smw.tasks_nodup
        rw [h.tasks, List.map_append, List.nodup_append] at hall
        have hmem : (⟨t.task, .connection b⟩ : SmwTask ServerContext) ∈ entries 0 s.connections :=
          mem_entries.mpr ⟨b, c, hc, by rw [ServedConnection.entry, htask, Nat.zero_add]; rfl⟩
        have hne : ∀ task ∈ own, ¬ (task.handle == t.task) = true := by
          intro task htask' heq
          exact hall.2.2 _ (List.mem_map_of_mem htask') _ (List.mem_map_of_mem hmem)
            (beq_iff_eq.mp heq)
        rw [hsmw, htask, hconn, entries_set_of_none hc htask hnone hall.2.1, Smw.destroyTask]
        dsimp only
        rw [h.tasks, List.eraseP_append_right _ hne]
      · rw [hsockets, hclose, hconn]
        exact (allClosedBut_congr h.sockets fun _ => hheld.mem_iff).close
          (List.nodup_cons.mp hnodup).1
      · rw [hconn]
        exact (List.nodup_cons.mp hnodup).2
      · rw [hconn] at hmem
        rcases List.mem_or_eq_of_mem_set hmem with hmem | rfl
        · exact h.owns e hmem he
        · rw [hnone] at he
          cases he
      · have hlen := hheld.length_eq
        have hdisposals := h.disposals
        rw [List.length_cons] at hlen
        rw [hconn, List.length_set, List.count_append, List.count_singleton_self]
        omega
    · have hsocket : d.socket = c.socket := congrArg Int.toNat? hkeeps.fd
      refine ⟨h.others, ?_, ?_, ?_, fun e hmem he => ?_, ?_⟩
      · rw [hsmw, hconn, h.tasks, entries_set_of_eq hc hkeeps.task]
      · rw [hsockets, hconn, held_set_of_eq hc hsocket]
        exact h.sockets
      · rw [hconn, held_set_of_eq hc hsocket]
        exact h.nodup
      · rw [hconn] at hmem
        rcases List.mem_or_eq_of_mem_set hmem with hmem | rfl
        · exact h.owns e hmem he
        · rw [hsocket, hfd]
          rfl
      · rw [hconn, held_set_of_eq hc hsocket, List.length_set, List.count_append,
          List.count_eq_zero.mpr hno, Nat.add_zero, h.disposals]

theorem Holds.run (h : Holds own s evs)
    (hrun : Trace.run WeatherServer.work ticks s = .ok (s', evs')) : Holds own s' (evs ++ evs') :=
  Trace.run_invariant (P := fun _ s' evs' => Holds own s' (evs ++ evs'))
    (by rwa [List.append_nil]) (fun hs hw => by
      rw [← List.append_assoc]
      exact hs.work hw) hrun

/-- **A server keeps its books in every run**: whatever the order of the turns and whatever runs out
of memory, no socket is lost or closed twice, no task is left behind by a connection that is gone,
and no connection is disposed of twice. -/
theorem holds_of_run (h : Trace.run work ticks initiate = .ok (s, evs)) :
    Holds initiate.smw.tasks s evs :=
  holds_initiate.run h

/-- A connection that was served and is gone, in the books. -/
theorem holds_homepage : ∃ s evs, Trace.run work homepageTicks initiate = .ok (s, evs) ∧
    held s.connections = [] ∧ s.sockets.closed = [0] ∧ Holds initiate.smw.tasks s evs := by
  have hrun : (Trace.run work homepageTicks initiate).toOption.map
      (fun r => (held r.1.connections, r.1.sockets.closed)) = some ([], [0]) := by
    decide +kernel
  obtain ⟨⟨s, evs⟩, hrun, hend⟩ := Fallible.exists_of_toOption hrun
  obtain ⟨hheld, hclosed⟩ := Prod.ext_iff.mp hend
  exact ⟨s, evs, hrun, hheld, hclosed, holds_of_run hrun⟩

end WeatherServer
