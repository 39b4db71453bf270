import JustWeather.Lib.Smw.Pass
import JustWeather.Server.WeatherServer.Alike

/-!
# Server/WeatherServer/MainLoop — the loop of `main`, over the task list in memory

`while (1) { smw_work(…); }` walks the list of tasks in memory while the callbacks it calls add to
the list and take from it.  The memory follows the server with its list of tasks (`Follows`): each
turn of a task does to the nodes what it does to the list (`matches_callback`).
-/

open CLib Fallible SmwMemory

/-- The server as `main` runs it: the task list in memory, and what the tasks work on. -/
structure ServerMemory where
  smw : SmwMemory ServerContext
  sockets : Sockets
  connections : List ServedConnection
  instanceBlocks : List WeatherServerInstance
  instances : List ℕ

/-- A computation of the server that can fault. -/
abbrev ServerM := StateT ServerMemory (Except Fault)

namespace ServerMemory

/-! ## The callbacks -/

/-- A computation of the scheduler. -/
def onSmw {α : Type} (x : SmwM ServerContext α) : ServerM α := fun m =>
  (x m.smw).map fun r => (r.1, { m with smw := r.2 })

/-- The server, for a computation that leaves the task list alone. -/
def server (m : ServerMemory) : WeatherServer :=
  ⟨Smw.init, m.sockets, m.connections, m.instanceBlocks, m.instances⟩

/-- What the server has become in such a computation. -/
def become (s : WeatherServer) : ServerM Unit :=
  modify fun m => ⟨m.smw, s.sockets, s.connections, s.instanceBlocks, s.instances⟩

/-- `http_server_connection_initiate_ptr`. -/
def httpServerConnectionInitiate (alloc : AcceptAlloc) (fd : ℕ) : ServerM (Option ℕ) := do
  if alloc.connection then
    let b := (← get).connections.length
    let task ← onSmw (createTask alloc.task alloc.node (.connection b))
    modify fun m =>
      { m with connections := m.connections ++ [⟨HTTPServerConnection.initiate fd task, none⟩] }
    return some b
  else return none

/-- `http_server_on_accept`. -/
def httpServerOnAccept (alloc : AcceptAlloc) (fd : ℕ) : ServerM ℤ := do
  match ← httpServerConnectionInitiate alloc fd with
  | none => return -1
  | some b =>
    become ((← get).server.weatherServerOnHttpConnection alloc b).2
    return 0

/-- `tcp_server_accept`, with a socket from `accept`. -/
def tcpServerAccept (alloc : AcceptAlloc) : ServerM Unit := do
  let (fd, sockets) := (← get).sockets.socket
  modify fun m => { m with sockets }
  if (← httpServerOnAccept alloc fd) ≠ 0 then
    modify fun m => { m with sockets := m.sockets.close fd }

/-- `http_server_connection_task_work` on the connection `b`; `http_server_connection_dispose` calls
`smw_destroy_task` first. -/
def connectionTaskWork (t : ServerTick) (b : ℕ) : ServerM (List HTTPServerConnection.Event) := do
  match (← get).connections[b]? with
  | none => throw .notLive
  | some c =>
    if c.connection.state = .dispose then
      onSmw (destroyTask c.connection.task)
    let (s, evs) ← liftM ((← get).server.connectionTaskWork t b)
    become s
    return evs

/-- The callback of a task. -/
def callback (t : ServerTick) : ServerContext → ServerM (List HTTPServerConnection.Event)
  | .tcpServer => do
    if t.accepts then tcpServerAccept t.alloc
    return []
  | .httpServer => return []
  | .weatherServer => return []
  | .connection b => connectionTaskWork t b

/-! ## The loop -/

/-- `while (node) { … }` of `smw_work`, of at most so many turns: `env` says what the environment
does in the `turn`. -/
def workFrom (env : ℕ → ServerTick) :
    ℕ → ℕ → Option ℕ → ServerM (List HTTPServerConnection.Event)
  | _, _, none => return []
  | 0, _, some _ => throw .endless
  | fuel + 1, turn, some b => do
    let node ← onSmw (onTasks (LinkedList.deref (some b)))
    let context ← onSmw (derefTask node.item)
    let evs ← callback (env turn) context
    let evs' ← workFrom env fuel (turn + 1) node.front
    return evs ++ evs'

/-- `smw_work`.  A pass registers one task at most, so it has one turn more than there are nodes at
most, unless it does not end. -/
def work (env : ℕ → ServerTick) : ServerM (List HTTPServerConnection.Event) := do
  let m ← get
  workFrom env (m.smw.tasks.nodes.next + 1) 0 m.smw.tasks.list.head

/-- `smw_work`, as a step of a run. -/
def step (env : ℕ → ServerTick) (m : ServerMemory) :
    Except Fault (ServerMemory × List HTTPServerConnection.Event) :=
  (work env m).map fun r => (r.2, r.1)

/-- The server when the loop begins: its three tasks are registered. -/
def start : Except Fault ServerMemory :=
  (SmwMemory.callback [.create true true .tcpServer, .create true true .httpServer,
    .create true true .weatherServer] SmwMemory.init).map fun r => ⟨r.2, Sockets.none, [], [], []⟩

end ServerMemory

/-! ## The task list in memory, and the list of tasks -/

/-- A task that is registered: the place of its node, the task, and its handle where the server has
a list of tasks. -/
structure Listed where
  place : ℕ
  task : SmwTask ServerContext
  handle : TaskHandle

namespace Listed

/-- The task with its node. -/
def entry (e : Listed) : ℕ × SmwTask ServerContext := (e.place, e.task)

/-- The task, where the server has a list of tasks. -/
def twin (e : Listed) : SmwTask ServerContext := ⟨e.handle, e.task.context⟩

/-- It is the task of the TCP server. -/
abbrev Accepts (e : Listed) : Prop := e.task.context = .tcpServer

end Listed

namespace ServerMemory

variable {l l₁ l₂ new : List Listed} {e : Listed} {m : ServerMemory} {s : WeatherServer}
  {t : ServerTick} {env : ℕ → ServerTick}

/-- **The server in memory follows the server**: the nodes hold its tasks, in this order, and each
connection has the task that is registered for it. -/
structure Follows (l : List Listed) (m : ServerMemory) (s : WeatherServer) : Prop where
  lists : Lists (l.map Listed.entry) m.smw
  twins : s.smw.tasks = l.map Listed.twin
  alike : WeatherServer.Alike m.server s
  served : ∀ e ∈ l, ∀ b, e.task.context = .connection b → ∃ c d, m.connections[b]? = some c ∧
    s.connections[b]? = some d ∧ c.connection.task = some e.task.handle ∧
      d.connection.task = some e.handle
  accepts : l.countP Listed.Accepts ≤ 1

theorem Follows.handle_lt (h : Follows l m s) (he : e ∈ l) : e.handle < s.smw.next := by
  refine s.smw.tasks_lt e.twin ?_
  rw [h.twins]
  exact List.mem_map_of_mem he

theorem Follows.nodup (h : Follows l m s) : (l.map Listed.handle).Nodup := by
  have hnodup := s.smw.tasks_nodup
  rwa [h.twins, List.map_map] at hnodup

/-- The task that has gone from the nodes. -/
theorem Follows.without (h : Follows (l₁ ++ e :: l₂) m s) :
    SmwMemory.without e.task.handle ((l₁ ++ e :: l₂).map Listed.entry)
      = (l₁ ++ l₂).map Listed.entry := by
  have hnodup := h.lists.nodup
  rw [List.map_append, List.map_cons] at hnodup ⊢
  rw [List.map_append]
  exact without_of_nodup hnodup

theorem Follows.turn (h : Follows l m s) (he : e ∈ l) (t : ServerTick) :
    s.turn { t with task := e.handle } = some e.task.context := by
  have hmem : e.twin ∈ s.smw.tasks := by
    rw [h.twins]
    exact List.mem_map_of_mem he
  rw [WeatherServer.turn, Keyed.find?_eq_some s.smw.tasks_nodup (k := e.handle)
    (fun _ => beq_iff_eq) hmem rfl]
  rfl

theorem onSmw_of_ok {α : Type} {x : SmwM ServerContext α} {a : α}
    {smw : SmwMemory ServerContext} (h : x m.smw = .ok (a, smw)) :
    onSmw x m = .ok (a, { m with smw }) := by
  rw [onSmw, h]
  rfl

/-! ## Accepting -/

/-- **What an accept leaves in memory** when there is memory for the connection. -/
theorem tcpServerAccept_of_connection {alloc : AcceptAlloc} {r : Option TaskHandle}
    {smw : SmwMemory ServerContext} (h : alloc.connection = true)
    (hcreate : createTask alloc.task alloc.node (.connection m.connections.length) m.smw
      = .ok (r, smw)) :
    tcpServerAccept alloc m = .ok ((),
      { smw
        sockets := m.sockets.socket.2
        connections := m.connections ++ [⟨HTTPServerConnection.initiate m.sockets.opened r,
          if alloc.instanceBlock then some m.instanceBlocks.length else none⟩]
        instanceBlocks := m.instanceBlocks ++
          if alloc.instanceBlock then [⟨m.connections.length⟩] else []
        instances := m.instances ++
          if alloc.instanceBlock && alloc.instanceNode then [m.instanceBlocks.length]
          else [] }) := by
  have hinit : httpServerConnectionInitiate alloc m.sockets.opened
      { m with sockets := m.sockets.socket.2 } = .ok (some m.connections.length,
        { m with
          smw
          sockets := m.sockets.socket.2
          connections := m.connections ++
            [⟨HTTPServerConnection.initiate m.sockets.opened r, none⟩] }) := by
    have hsmw : onSmw (createTask alloc.task alloc.node (.connection m.connections.length))
        { m with sockets := m.sockets.socket.2 }
          = .ok (r, { m with smw, sockets := m.sockets.socket.2 }) :=
      onSmw_of_ok hcreate
    rw [httpServerConnectionInitiate, if_pos h]
    refine (bind_of_ok rfl).trans ?_
    exact (bind_of_ok hsmw).trans rfl
  have haccept : httpServerOnAccept alloc m.sockets.opened
      { m with sockets := m.sockets.socket.2 } = .ok (0, _) :=
    (bind_of_ok hinit).trans rfl
  refine (bind_of_ok rfl).trans ((bind_of_ok rfl).trans ((bind_of_ok haccept).trans ?_))
  rw [if_neg (not_not_intro rfl)]
  refine congrArg (fun m => Except.ok ((), m)) ?_
  simp only [WeatherServer.weatherServerOnHttpConnection,
    WeatherServer.weatherServerInstanceInitiate, server]
  cases alloc.instanceBlock with
  | false => simp
  | true =>
    cases alloc.instanceNode <;> simp [WeatherServer.setCallback, WeatherServer.modify_concat]

theorem tcpServerAccept_of_no_connection {alloc : AcceptAlloc} (h : alloc.connection = false) :
    tcpServerAccept alloc m
      = .ok ((), { m with sockets := m.sockets.socket.2.close m.sockets.opened }) := by
  have hinit : httpServerConnectionInitiate alloc m.sockets.opened
      { m with sockets := m.sockets.socket.2 }
        = .ok (none, { m with sockets := m.sockets.socket.2 }) := by
    rw [httpServerConnectionInitiate, h]
    rfl
  have haccept : httpServerOnAccept alloc m.sockets.opened
      { m with sockets := m.sockets.socket.2 } = .ok (-1, _) :=
    (bind_of_ok hinit).trans rfl
  exact (bind_of_ok rfl).trans ((bind_of_ok rfl).trans ((bind_of_ok haccept).trans rfl))

/-- What an accept registers: a task for a connection, under a handle no task had. -/
structure Registers (s : WeatherServer) (new : List Listed) : Prop where
  length : new.length ≤ 1
  next_le : ∀ e ∈ new, s.smw.next ≤ e.handle
  connection : ∀ e ∈ new, ¬ e.Accepts

theorem registers_nil (s : WeatherServer) : Registers s [] := ⟨Nat.zero_le 1, nofun, nofun⟩

/-- Connections that were there stay where they are when one comes. -/
theorem served_append {cs ds cs' ds' : List ServedConnection} {task handle : TaskHandle} {b : ℕ}
    (h : ∃ c d, cs[b]? = some c ∧ ds[b]? = some d ∧ c.connection.task = some task ∧
      d.connection.task = some handle) :
    ∃ c d, (cs ++ cs')[b]? = some c ∧ (ds ++ ds')[b]? = some d ∧
      c.connection.task = some task ∧ d.connection.task = some handle := by
  obtain ⟨c, d, hc, hd, htask⟩ := h
  obtain ⟨hlt, -⟩ := List.getElem?_eq_some_iff.mp hc
  obtain ⟨hlt', -⟩ := List.getElem?_eq_some_iff.mp hd
  exact ⟨c, d, (List.getElem?_append_left hlt).trans hc, (List.getElem?_append_left hlt').trans hd,
    htask⟩

/-- **An accept in memory follows an accept.** -/
theorem Follows.accept (h : Follows l m s) (alloc : AcceptAlloc) :
    Returns (tcpServerAccept alloc) m fun _ m' =>
      ∃ new, Follows (l ++ new) m' (s.tcpServerAccept alloc) ∧ Registers s new ∧
        s.smw.next ≤ (s.tcpServerAccept alloc).smw.next := by
  have hsockets : m.sockets = s.sockets := h.alike.sockets
  cases hconn : alloc.connection with
  | false =>
    refine ⟨(), _, tcpServerAccept_of_no_connection hconn, [], ?_, registers_nil s, ?_⟩
    · rw [WeatherServer.tcpServerAccept_of_no_connection hconn, List.append_nil]
      exact ⟨h.lists, h.twins, ⟨by rw [← hsockets]; rfl, h.alike.connections,
        h.alike.instanceBlocks, h.alike.instances⟩, h.served, h.accepts⟩
    · rw [WeatherServer.tcpServerAccept_of_no_connection hconn]
  | true =>
    have hlen : m.connections.length = s.connections.length := h.alike.connections.length_eq
    have hlast : ∀ c, (s.connections ++ [c])[m.connections.length]? = some c := by
      rw [hlen]
      exact fun _ => List.getElem?_concat_length
    obtain ⟨r, smw, hcreate, -, hr⟩ := returns_createTask h.lists alloc.task alloc.node
      (.connection m.connections.length)
    have hstep := tcpServerAccept_of_connection hconn hcreate
    rw [WeatherServer.tcpServerAccept_of_connection hconn]
    refine ⟨(), _, hstep, ?_⟩
    rw [Smw.createTask]
    split at hr <;> rename_i hboth
    · obtain ⟨rfl, place, hlists⟩ := hr
      rw [if_pos hboth]
      refine ⟨[⟨place, ⟨m.smw.blocks.next, .connection m.connections.length⟩, s.smw.next⟩],
        ⟨?_, ?_, h.alike.accept alloc _ _ rfl, fun e he b hb => ?_, ?_⟩, ⟨le_rfl, ?_, ?_⟩,
        Nat.le_succ _⟩
      · rw [List.map_append]
        exact hlists
      · rw [List.map_append, ← h.twins, hlen]
        rfl
      · rcases List.mem_append.mp he with he | he
        · exact served_append (h.served e he b hb)
        · obtain rfl := List.mem_singleton.mp he
          obtain rfl := ServerContext.connection.inj hb
          exact ⟨_, _, List.getElem?_concat_length, hlast _, rfl, rfl⟩
      · rw [List.countP_append, List.countP_cons_of_neg (by simp)]
        exact h.accepts
      · intro e he
        obtain rfl := List.mem_singleton.mp he
        exact le_rfl
      · intro e he
        obtain rfl := List.mem_singleton.mp he
        simp
    · obtain ⟨rfl, hlists⟩ := hr
      rw [if_neg hboth]
      refine ⟨[], ⟨?_, ?_, h.alike.accept alloc _ _ rfl, fun e he b hb => ?_, ?_⟩,
        registers_nil s, le_rfl⟩
      · rwa [List.append_nil]
      · rw [List.append_nil, h.twins]
      · rw [List.append_nil] at he
        exact served_append (h.served e he b hb)
      · rw [List.append_nil]
        exact h.accepts

/-! ## One turn -/

/-- The tasks after a turn of `e`: it has gone or not, and an accept may have registered one. -/
structure After (l₁ : List Listed) (e : Listed) (l₂ : List Listed) (s : WeatherServer)
    (kept new : List Listed) (m' : ServerMemory) (s' : WeatherServer) : Prop where
  follows : Follows (l₁ ++ kept ++ (l₂ ++ new)) m' s'
  registers : Registers s new
  quiet : ¬ e.Accepts → new = []
  next_le : s.smw.next ≤ s'.smw.next

theorem After.of_follows {kept : List Listed} {m' : ServerMemory} {s' : WeatherServer}
    (h : Follows (l₁ ++ kept ++ l₂) m' s') (hnext : s.smw.next ≤ s'.smw.next) :
    After l₁ e l₂ s kept [] m' s' :=
  ⟨by rwa [List.append_nil], registers_nil s, fun _ => rfl, hnext⟩

/-- A task that has gone, among tasks of other handles. -/
theorem eraseP_twin (h : ((l₁ ++ e :: l₂).map Listed.handle).Nodup) :
    ((l₁ ++ e :: l₂).map Listed.twin).eraseP (·.handle == e.handle)
      = (l₁ ++ l₂).map Listed.twin := by
  rw [List.map_append, List.map_cons, List.nodup_middle, List.nodup_cons, List.mem_append] at h
  rw [List.map_append, List.map_cons, List.eraseP_append_right, List.eraseP_cons_of_pos,
    List.map_append]
  · exact beq_self_eq_true _
  · intro task htask heq
    obtain ⟨e', he', rfl⟩ := List.mem_map.mp htask
    exact h.1 (Or.inl (beq_iff_eq.mp heq ▸ List.mem_map_of_mem he'))

theorem connectionTaskWork_eq {b : ℕ} {c : ServedConnection} {smw : SmwMemory ServerContext}
    (hc : m.connections[b]? = some c)
    (hsmw : c.connection.state = .dispose → destroyTask c.connection.task m.smw = .ok ((), smw))
    (hno : c.connection.state ≠ .dispose → smw = m.smw) :
    connectionTaskWork t b m = (m.server.connectionTaskWork t b).map fun r =>
      (r.2, ⟨smw, r.1.sockets, r.1.connections, r.1.instanceBlocks, r.1.instances⟩) := by
  rw [connectionTaskWork]
  refine (bind_of_ok rfl).trans ?_
  rw [hc]
  dsimp only
  have hlive : ∀ m' : ServerMemory, m' = { m with smw } → (do
        let (s, evs) ← liftM ((← get).server.connectionTaskWork t b)
        become s
        return evs : ServerM (List HTTPServerConnection.Event)) m'
      = (m.server.connectionTaskWork t b).map fun r =>
        (r.2, ⟨smw, r.1.sockets, r.1.connections, r.1.instanceBlocks, r.1.instances⟩) := by
    rintro _ rfl
    refine (bind_of_ok rfl).trans ?_
    change (liftM (m.server.connectionTaskWork t b) >>= _ :
      ServerM (List HTTPServerConnection.Event)) _ = _
    rcases m.server.connectionTaskWork t b with f | r
    · exact bind_of_error rfl
    · exact (bind_of_ok rfl).trans rfl
  split
  · rename_i hstate
    exact (bind_of_ok (onSmw_of_ok (hsmw hstate))).trans (hlive _ rfl)
  · rename_i hstate
    exact hlive m (by rw [hno hstate])

/-- Two tasks are not for one connection. -/
theorem Follows.ne_of_served (h : Follows (l₁ ++ e :: l₂) m s) {b b' : ℕ} {e' : Listed}
    (hb : e.task.context = .connection b) (he' : e' ∈ l₁ ++ l₂)
    (hb' : e'.task.context = .connection b') : b ≠ b' := by
  rintro rfl
  have hnodup := h.nodup
  rw [List.map_append, List.map_cons, List.nodup_middle, List.nodup_cons, ← List.map_append]
    at hnodup
  have hmem : e' ∈ l₁ ++ e :: l₂ := ((List.sublist_cons_self e l₂).append_left l₁).subset he'
  obtain ⟨_, d, -, hd, -, htask⟩ := h.served e (by simp) b hb
  obtain ⟨_, d', -, hd', -, htask'⟩ := h.served e' hmem b hb'
  obtain rfl := Option.some.inj (hd.symm.trans hd')
  exact hnodup.1 (Option.some.inj (htask.symm.trans htask') ▸ List.mem_map_of_mem he')

/-- The connection has had its turn, and its task has gone with it or not. -/
theorem Follows.set (h : Follows (l₁ ++ e :: l₂) m s) {b : ℕ} {c d : ServedConnection}
    {kept : List Listed} {m' : ServerMemory} {s' : WeatherServer}
    (hb : e.task.context = .connection b) (hkept : kept.Sublist [e])
    (hlists : Lists ((l₁ ++ kept ++ l₂).map Listed.entry) m'.smw)
    (htwins : s'.smw.tasks = (l₁ ++ kept ++ l₂).map Listed.twin)
    (halike : WeatherServer.Alike m'.server s') (hconn : m'.connections = m.connections.set b c)
    (hconn' : s'.connections = s.connections.set b d)
    (hkeeps : e ∈ kept → c.connection.task = some e.task.handle ∧
      d.connection.task = some e.handle) : Follows (l₁ ++ kept ++ l₂) m' s' := by
  have hsub : (l₁ ++ kept ++ l₂).Sublist (l₁ ++ e :: l₂) := by
    rw [List.append_assoc]
    exact (hkept.append_right l₂).append_left l₁
  refine ⟨hlists, htwins, halike, fun e' he' b' hb' => ?_, hsub.countP_le.trans h.accepts⟩
  rw [hconn, hconn']
  by_cases hmem : e' ∈ l₁ ++ l₂
  · have hne := h.ne_of_served hb hmem hb'
    rw [List.getElem?_set_ne hne, List.getElem?_set_ne hne]
    exact h.served e' (hsub.subset he') b' hb'
  · have hin : e' ∈ kept := by
      simp only [List.mem_append, not_or] at he' hmem
      exact (he'.resolve_right hmem.2).resolve_left hmem.1
    obtain rfl := List.mem_singleton.mp (hkept.subset hin)
    obtain rfl : b = b' := ServerContext.connection.inj (hb.symm.trans hb')
    obtain ⟨_, _, hc, hd, -⟩ := h.served e' (by simp) b hb
    obtain ⟨hlt, -⟩ := List.getElem?_eq_some_iff.mp hc
    obtain ⟨hlt', -⟩ := List.getElem?_eq_some_iff.mp hd
    exact ⟨c, d, List.getElem?_set_self hlt, List.getElem?_set_self hlt', hkeeps hin⟩

/-- **A turn of a connection in memory follows its turn.** -/
theorem matches_connectionTaskWork {b : ℕ} (h : Follows (l₁ ++ e :: l₂) m s)
    (hb : e.task.context = .connection b) (t : ServerTick) :
    Matches (fun r r' => (∃ kept new, After l₁ e l₂ s kept new r.2 r'.1) ∧
        r.1.map HTTPServerConnection.Event.plain = r'.2.map HTTPServerConnection.Event.plain)
      (connectionTaskWork t b m) (s.connectionTaskWork t b) := by
  obtain ⟨c, d, hc, hd, htask, htask'⟩ := h.served e (by simp) b hb
  have hstate : c.connection.state = d.connection.state := h.alike.state hc hd
  have hmatch := WeatherServer.matches_connectionTaskWork h.alike t b
  -- only a connection that is to be disposed of touches the task list
  by_cases hdispose : c.connection.state = .dispose
  · obtain ⟨_, smw, hdestroy, hgone, -⟩ := returns_destroyTask h.lists e.task.handle
    rw [← htask] at hdestroy
    rw [connectionTaskWork_eq hc (fun _ => hdestroy) (absurd hdispose)]
    rcases hx : m.server.connectionTaskWork t b with f | ⟨x, evs⟩ <;>
    rcases hy : s.connectionTaskWork t b with f' | ⟨y, evs'⟩ <;> rw [hx, hy] at hmatch
    · exact hmatch
    · exact hmatch.elim
    · exact hmatch.elim
    · obtain ⟨halike, hevs⟩ := hmatch
      obtain ⟨_, c', -, hconn, -⟩ := WeatherServer.exists_of_connectionTaskWork hx
      obtain ⟨_, d', hd', hconn', -, -, -, hsmw⟩ := WeatherServer.exists_of_connectionTaskWork hy
      obtain rfl := Option.some.inj (hd.symm.trans hd')
      obtain ⟨-, -, hsmw⟩ := hsmw.resolve_right fun hno => hno.1 (hstate ▸ hdispose)
      rw [htask'] at hsmw
      refine ⟨⟨[], [], .of_follows (h.set hb (List.nil_sublist _) ?_ ?_ ?_ hconn hconn' nofun) ?_⟩,
        hevs⟩
      · rwa [h.without, ← List.append_nil l₁] at hgone
      · rw [hsmw, Smw.destroyTask]
        dsimp only
        rw [h.twins, eraseP_twin h.nodup, List.append_nil]
      · exact ⟨halike.sockets, halike.connections, halike.instanceBlocks, halike.instances⟩
      · rw [hsmw]
        exact le_rfl
  · rw [connectionTaskWork_eq hc (fun h => absurd h hdispose) fun _ => rfl]
    rcases hx : m.server.connectionTaskWork t b with f | ⟨x, evs⟩ <;>
    rcases hy : s.connectionTaskWork t b with f' | ⟨y, evs'⟩ <;> rw [hx, hy] at hmatch
    · exact hmatch
    · exact hmatch.elim
    · exact hmatch.elim
    · obtain ⟨halike, hevs⟩ := hmatch
      obtain ⟨_, c', hc', hconn, -, -, -, hkeeps⟩ :=
        WeatherServer.exists_of_connectionTaskWork hx
      obtain ⟨_, d', hd', hconn', -, -, -, hkeeps'⟩ :=
        WeatherServer.exists_of_connectionTaskWork hy
      obtain rfl := Option.some.inj (hc.symm.trans hc')
      obtain rfl := Option.some.inj (hd.symm.trans hd')
      obtain ⟨-, hkeeps, -⟩ := hkeeps.resolve_left fun hyes => hdispose hyes.1
      obtain ⟨-, hkeeps', hsmw⟩ := hkeeps'.resolve_left fun hyes => hdispose (hstate.trans hyes.1)
      refine ⟨⟨[e], [], .of_follows (h.set hb (List.Sublist.refl _) ?_ ?_ ?_ hconn hconn' fun _ =>
        ⟨hkeeps.task.trans htask, hkeeps'.task.trans htask'⟩) (by rw [hsmw])⟩, hevs⟩
      · rw [List.append_assoc]
        exact h.lists
      · rw [hsmw, h.twins, List.append_assoc]
        rfl
      · exact ⟨halike.sockets, halike.connections, halike.instanceBlocks, halike.instances⟩

/-- **A turn in memory follows a turn of the task.** -/
theorem matches_callback (h : Follows (l₁ ++ e :: l₂) m s) (t : ServerTick) :
    Matches (fun r r' => (∃ kept new, After l₁ e l₂ s kept new r.2 r'.1) ∧
        r.1.map HTTPServerConnection.Event.plain = r'.2.map HTTPServerConnection.Event.plain)
      (callback t e.task.context m) (s.work { t with task := e.handle }) := by
  rw [WeatherServer.work, h.turn (by simp) t]
  have hidle : After l₁ e l₂ s [e] [] m s := by
    refine .of_follows ?_ le_rfl
    rwa [List.append_assoc]
  rcases hcontext : e.task.context with _ | _ | _ | b
  · cases haccepts : t.accepts with
    | false =>
      rw [callback, haccepts]
      exact ⟨⟨[e], [], hidle⟩, rfl⟩
    | true =>
      obtain ⟨_, m', haccept, new, hfollows, hregisters, hnext⟩ := h.accept t.alloc
      have hstep : callback t .tcpServer m = .ok ([], m') := by
        rw [callback, haccepts]
        exact (bind_of_ok haccept).trans rfl
      rw [hstep]
      refine ⟨⟨[e], new, ?_, hregisters, absurd hcontext, hnext⟩, rfl⟩
      rw [List.append_assoc] at hfollows ⊢
      exact hfollows
  · exact ⟨⟨[e], [], hidle⟩, rfl⟩
  · exact ⟨⟨[e], [], hidle⟩, rfl⟩
  · exact matches_connectionTaskWork h hcontext t

end ServerMemory
