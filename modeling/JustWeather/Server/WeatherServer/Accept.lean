import JustWeather.Lib.HttpServerConnection.Frame
import JustWeather.Server.WeatherServer

/-!
# Server/WeatherServer/Accept — accepting is all or nothing, or is it

`tcp_server_accept` closes the socket when there is no memory for the connection, and only then; an
allocation that fails further down leaves the connection as it is.  So a socket is served or let go
of exactly when its connection has no memory or everything else has (`allOrNothing_iff`).
-/

open CLib

namespace WeatherServer

variable {s s' : WeatherServer} {alloc : AcceptAlloc} {t : ServerTick} {ticks : List ServerTick}
  {evs : List HTTPServerConnection.Event}

/-! ## What a server holds for a socket -/

/-- **The socket is served**: its connection is scheduled and has its instance and the callback of
the instance, and the server lists the instance. -/
def Serves (s : WeatherServer) (fd : ℕ) : Prop :=
  ∃ b c h i, s.connections[b]? = some c ∧ c.connection.fd = (fd : ℤ) ∧ c.connection.task = some h ∧
    ⟨h, .connection b⟩ ∈ s.smw.tasks ∧ c.context = some i ∧ s.instanceBlocks[i]? = some ⟨b⟩ ∧
      i ∈ s.instances

/-- **The socket is let go of**: it is closed, and there is no task, connection or instance that was
not there before. -/
structure LetsGo (s s' : WeatherServer) (fd : ℕ) : Prop where
  closed : fd ∈ s'.sockets.closed
  smw : s'.smw = s.smw
  connections : s'.connections = s.connections
  instanceBlocks : s'.instanceBlocks = s.instanceBlocks
  instances : s'.instances = s.instances

/-- `tcp_server_accept` served the socket it got, or let go of it. -/
def AllOrNothing (s s' : WeatherServer) : Prop :=
  s'.Serves s.sockets.opened ∨ LetsGo s s' s.sockets.opened

/-- There is no memory for the connection, or there is memory for everything. -/
def Suffices (alloc : AcceptAlloc) : Prop :=
  alloc.connection = false ∨
    (alloc.task = true ∧ alloc.node = true ∧ alloc.instanceBlock = true ∧ alloc.instanceNode = true)

/-! ## One accept -/

theorem tcpServerAccept_of_no_connection (h : alloc.connection = false) (s : WeatherServer) :
    s.tcpServerAccept alloc =
      { s with sockets := s.sockets.socket.2.close s.sockets.opened } := by
  simp [tcpServerAccept, httpServerOnAccept, httpServerConnectionInitiate, h, Sockets.socket]

theorem modify_concat {α : Type} (f : α → α) (l : List α) (a : α) :
    (l ++ [a]).modify l.length f = l ++ [f a] := by
  induction l with
  | nil => rfl
  | cons b l ih => simpa using ih

/-- **What an accept leaves** when there is memory for the connection. -/
theorem tcpServerAccept_of_connection (h : alloc.connection = true) (s : WeatherServer) :
    s.tcpServerAccept alloc =
      { smw := (s.smw.createTask alloc.task alloc.node (.connection s.connections.length)).2
        sockets := s.sockets.socket.2
        connections := s.connections ++ [⟨HTTPServerConnection.initiate s.sockets.opened
          (s.smw.createTask alloc.task alloc.node (.connection s.connections.length)).1,
          if alloc.instanceBlock then some s.instanceBlocks.length else none⟩]
        instanceBlocks := s.instanceBlocks ++
          if alloc.instanceBlock then [⟨s.connections.length⟩] else []
        instances := s.instances ++
          if alloc.instanceBlock && alloc.instanceNode then [s.instanceBlocks.length]
          else [] } := by
  simp only [tcpServerAccept, httpServerOnAccept, httpServerConnectionInitiate, h, if_true,
    weatherServerOnHttpConnection, weatherServerInstanceInitiate, Sockets.socket]
  cases alloc.instanceBlock with
  | false => simp
  | true => cases alloc.instanceNode <;> simp [setCallback, modify_concat]

/-! ## Every reachable server -/

/-- What the server holds is what it was given: descriptors that were opened, instances that were
made. -/
structure Inv (s : WeatherServer) : Prop where
  fd : ∀ c ∈ s.connections, c.connection.fd < s.sockets.opened
  instances : ∀ i ∈ s.instances, i < s.instanceBlocks.length

theorem Inv.accept (h : Inv s) (alloc : AcceptAlloc) : Inv (s.tcpServerAccept alloc) := by
  cases hc : alloc.connection with
  | false =>
    rw [tcpServerAccept_of_no_connection hc]
    exact ⟨fun c hmem => (h.fd c hmem).trans (by simp [Sockets.socket, Sockets.close]), h.instances⟩
  | true =>
    rw [tcpServerAccept_of_connection hc]
    refine ⟨fun c hmem => ?_, fun i hmem => ?_⟩
    · rcases List.mem_append.mp hmem with hmem | hmem
      · exact (h.fd c hmem).trans (by simp [Sockets.socket])
      · obtain rfl := List.mem_singleton.mp hmem
        simp [HTTPServerConnection.initiate, Sockets.socket]
    · dsimp only at hmem ⊢
      rw [List.length_append]
      rcases List.mem_append.mp hmem with hmem | hmem
      · exact Nat.lt_add_right _ (h.instances i hmem)
      · cases hi : alloc.instanceBlock <;> simp_all

/-- **A turn of a connection** leaves the server as it is but for the connection, or disposes it. -/
theorem exists_of_connectionTaskWork {b : ℕ} (h : s.connectionTaskWork t b = .ok (s', evs)) :
    ∃ c d, s.connections[b]? = some c ∧
      s'.connections = s.connections.set b { c with connection := d } ∧
      s'.instanceBlocks = s.instanceBlocks ∧ s'.instances = s.instances ∧
      s'.sockets.opened = s.sockets.opened ∧
      ((c.connection.state = .dispose ∧ d.fd = -1 ∧ s'.smw = s.smw.destroyTask c.connection.task) ∨
        (c.connection.state ≠ .dispose ∧ HTTPServerConnection.Keeps c.connection d ∧
          s'.smw = s.smw)) := by
  rw [connectionTaskWork] at h
  split at h
  · cases h
  · rename_i c hc
    obtain ⟨⟨⟨smw, d⟩, evs'⟩, hwork, hs⟩ := Fallible.exists_of_map h
    obtain ⟨rfl, -⟩ := Prod.ext_iff.mp hs
    refine ⟨c, d, hc, rfl, rfl, rfl, ?_, ?_⟩
    · dsimp only
      split
      · rw [closeConnection]
        split <;> rfl
      · rfl
    · rcases HTTPServerConnection.taskWork_keeps hwork with ⟨hstate, hd⟩ | ⟨hstate, hsmw, hkeeps⟩
      · obtain ⟨rfl, rfl⟩ := Prod.ext_iff.mp hd
        exact Or.inl ⟨hstate, rfl, rfl⟩
      · exact Or.inr ⟨hstate, hkeeps, hsmw⟩

/-- **What a turn can do**: nothing, an accept, or a turn of a connection. -/
theorem work_cases (h : s.work t = .ok (s', evs)) :
    (s' = s ∧ ∀ b, s.turn t ≠ some (.connection b)) ∨
      (s.turn t = some .tcpServer ∧ t.accepts = true ∧ s' = s.tcpServerAccept t.alloc) ∨
      ∃ b, s.turn t = some (.connection b) ∧ s.connectionTaskWork t b = .ok (s', evs) := by
  rw [work] at h
  split at h <;> rename_i hturn
  · exact Or.inl ⟨(Prod.ext_iff.mp (Except.ok.inj h)).1.symm, by simp [hturn]⟩
  · obtain ⟨rfl, -⟩ := Prod.ext_iff.mp (Except.ok.inj h)
    dsimp only
    split
    · rename_i haccepts
      exact Or.inr (Or.inl ⟨hturn, haccepts, rfl⟩)
    · exact Or.inl ⟨rfl, by simp [hturn]⟩
  · exact Or.inl ⟨(Prod.ext_iff.mp (Except.ok.inj h)).1.symm, by simp [hturn]⟩
  · exact Or.inl ⟨(Prod.ext_iff.mp (Except.ok.inj h)).1.symm, by simp [hturn]⟩
  · exact Or.inr (Or.inr ⟨_, hturn, h⟩)

theorem Inv.work (h : Inv s) (hw : s.work t = .ok (s', evs)) : Inv s' := by
  rcases work_cases hw with ⟨rfl, -⟩ | ⟨-, -, rfl⟩ | ⟨b, -, hw⟩
  · exact h
  · exact h.accept t.alloc
  · obtain ⟨c, d, hc, hconn, hblocks, hinst, hopened, hd⟩ := exists_of_connectionTaskWork hw
    refine ⟨fun c' hmem => ?_, fun i hi => ?_⟩
    · rw [hconn] at hmem
      rw [hopened]
      rcases List.mem_or_eq_of_mem_set hmem with hmem | rfl
      · exact h.fd c' hmem
      · have hfd := h.fd c (List.mem_of_getElem? hc)
        rcases hd with ⟨-, hfd', -⟩ | ⟨-, hkeeps, -⟩
        · dsimp only
          omega
        · exact hkeeps.fd ▸ hfd
    · rw [hblocks]
      exact h.instances i (hinst ▸ hi)

theorem inv_initiate : Inv initiate := ⟨nofun, nofun⟩

theorem inv_of_run (h : Trace.run work ticks initiate = .ok (s, evs)) : Inv s :=
  Trace.run_invariant (P := fun _ s _ => Inv s) inv_initiate (fun hs hw => hs.work hw) h

/-! ## All or nothing -/

instance (alloc : AcceptAlloc) : Decidable (Suffices alloc) := inferInstanceAs (Decidable (_ ∨ _))

theorem allOrNothing_of_suffices (h : Suffices alloc) (s : WeatherServer) :
    AllOrNothing s (s.tcpServerAccept alloc) := by
  cases hc : alloc.connection with
  | false =>
    rw [tcpServerAccept_of_no_connection hc]
    exact Or.inr ⟨List.mem_cons_self .., rfl, rfl, rfl, rfl⟩
  | true =>
    obtain ⟨htask, hnode, hinst, hlist⟩ := h.resolve_left (by simp [hc])
    rw [tcpServerAccept_of_connection hc]
    refine Or.inl ⟨s.connections.length, _, s.smw.next, s.instanceBlocks.length,
      List.getElem?_concat_length, rfl, ?_, ?_, ?_, ?_, ?_⟩
    · simp [HTTPServerConnection.initiate, Smw.createTask, htask, hnode]
    · simp [Smw.createTask, htask, hnode]
    · simp [hinst]
    · simp [hinst]
    · simp [hinst, hlist]

/-- **An accept that ran out of memory further down is neither.** -/
theorem suffices_of_allOrNothing (hinv : Inv s) (h : AllOrNothing s (s.tcpServerAccept alloc)) :
    Suffices alloc := by
  cases hc : alloc.connection with
  | false => exact Or.inl hc
  | true =>
    rw [tcpServerAccept_of_connection hc] at h
    rcases h with ⟨b, c, hd, i, hb, hfd, htask, -, hctx, -, hlist⟩ | hgone
    · -- only the connection that was accepted last has this socket
      have hcase : c ∈ s.connections ∨ c = _ :=
        (List.mem_append.mp (List.mem_of_getElem? hb)).imp_right List.mem_singleton.mp
      rcases hcase with hmem | rfl
      · have hlt := hinv.fd c hmem
        omega
      · obtain ⟨hinst, hi⟩ : alloc.instanceBlock = true ∧ s.instanceBlocks.length = i := by
          simpa using hctx
        obtain ⟨⟨htask, hnode⟩, -⟩ : (alloc.task = true ∧ alloc.node = true) ∧ s.smw.next = hd := by
          rw [HTTPServerConnection.initiate, Smw.createTask] at htask
          split at htask
          · rename_i hboth
            exact ⟨by simpa using hboth, Option.some.inj htask⟩
          · cases htask
        refine Or.inr ⟨htask, hnode, hinst, ?_⟩
        by_contra hno
        have hmem : i ∈ s.instances := by simpa [hno] using hlist
        exact absurd (hinv.instances i hmem) (by omega)
    · have hlen := congrArg List.length hgone.connections
      simp at hlen

/-- The scheduled connections have their callback. -/
def Answers (s : WeatherServer) : Prop :=
  ∀ task ∈ s.smw.tasks, ∀ b, task.context = .connection b →
    ∃ c i, s.connections[b]? = some c ∧ c.context = some i

/-- The turn is an accept that runs out of memory for something but the connection. -/
def Overtaxes (t : ServerTick) (s : WeatherServer) : Prop :=
  s.turn t = some .tcpServer ∧ t.accepts = true ∧ ¬ Suffices t.alloc

theorem Answers.accept (h : Answers s) (hs : Suffices alloc) :
    Answers (s.tcpServerAccept alloc) := by
  cases hc : alloc.connection with
  | false =>
    rw [tcpServerAccept_of_no_connection hc]
    exact h
  | true =>
    obtain ⟨-, -, hinst, -⟩ := hs.resolve_left (by simp [hc])
    rw [tcpServerAccept_of_connection hc]
    intro task hmem b hb
    rcases Smw.mem_createTask hmem with hmem | rfl
    · obtain ⟨c, i, hget, hctx⟩ := h task hmem b hb
      obtain ⟨hlt, -⟩ := List.getElem?_eq_some_iff.mp hget
      exact ⟨c, i, (List.getElem?_append_left hlt).trans hget, hctx⟩
    · obtain rfl := ServerContext.connection.inj hb
      exact ⟨_, _, List.getElem?_concat_length, if_pos hinst⟩

theorem Answers.work (h : Answers s) (hw : s.work t = .ok (s', evs)) (ht : ¬ Overtaxes t s) :
    Answers s' := by
  rcases work_cases hw with ⟨rfl, -⟩ | ⟨hturn, haccepts, rfl⟩ | ⟨b, -, hw⟩
  · exact h
  · have hs : Suffices t.alloc := by
      by_contra hno
      exact ht ⟨hturn, haccepts, hno⟩
    exact h.accept hs
  · obtain ⟨c, d, hc, hconn, -, -, -, hd⟩ := exists_of_connectionTaskWork hw
    have hsub : ∀ task ∈ s'.smw.tasks, task ∈ s.smw.tasks := by
      intro task hmem
      rcases hd with ⟨-, -, hsmw⟩ | ⟨-, -, hsmw⟩ <;> rw [hsmw] at hmem
      · exact Smw.mem_of_mem_destroyTask hmem
      · exact hmem
    intro task hmem b' hb'
    obtain ⟨c', i, hget, hctx⟩ := h task (hsub task hmem) b' hb'
    rw [hconn]
    by_cases hbb : b = b'
    · subst hbb
      obtain rfl := Option.some.inj (hc.symm.trans hget)
      obtain ⟨hlt, -⟩ := List.getElem?_eq_some_iff.mp hc
      exact ⟨{ c with connection := d }, i, List.getElem?_set_self hlt, hctx⟩
    · exact ⟨c', i, by rwa [List.getElem?_set_ne hbb], hctx⟩

theorem answers_of_run (hs : Answers s) (h : Trace.run work ticks s = .ok (s', evs))
    (hno : ¬ Trace.Visits work Overtaxes ticks s) : Answers s' :=
  Trace.run_invariant_of_not_visits hs (fun ht hturn hw => ht.work hw hturn) hno h

theorem answers_initiate : Answers initiate := by
  intro task hmem b hb
  have hcontext : ∀ task ∈ initiate.smw.tasks, ∀ b, task.context ≠ .connection b := by
    simp [initiate, Smw.createTask, Smw.init]
  exact absurd hb (hcontext task hmem b)

/-- **Accepting is all or nothing exactly when there is no memory for the connection, or memory for
everything**; and as long as every accept was so, the connection that has its turn has its
callback. -/
theorem allOrNothing_iff (h : Trace.run work ticks initiate = .ok (s, evs)) :
    (∀ alloc, AllOrNothing s (s.tcpServerAccept alloc) ↔
      alloc.connection = false ∨ (alloc.task = true ∧ alloc.node = true ∧
        alloc.instanceBlock = true ∧ alloc.instanceNode = true)) ∧
      (¬ Trace.Visits work Overtaxes ticks initiate → ∀ t b, s.turn t = some (.connection b) →
        ∃ c i, s.connections[b]? = some c ∧ c.context = some i) := by
  refine ⟨fun alloc => ⟨suffices_of_allOrNothing (inv_of_run h), fun hs =>
    allOrNothing_of_suffices hs s⟩, fun hno t b hturn => ?_⟩
  obtain ⟨task, hfind, hb⟩ := Option.map_eq_some_iff.mp hturn
  exact answers_of_run answers_initiate h hno task (List.mem_of_find?_eq_some hfind) b hb

/-- With memory for everything the first socket is served. -/
theorem allOrNothing_all : AllOrNothing initiate (initiate.tcpServerAccept .all) :=
  ((allOrNothing_iff (show Trace.run work [] initiate = .ok (initiate, []) from rfl)).1 .all).mpr
    (Or.inr ⟨rfl, rfl, rfl, rfl⟩)

theorem homepage_ne : bytes "GET / HTTP/1.1\r\n\r\n" ≠ [] := by decide

theorem length_homepage_le :
    (bytes "GET / HTTP/1.1\r\n\r\n").length ≤ HTTPServerConnection.chunkSize := by
  decide

/-- A tick that reads a whole request for the homepage. -/
def homepageTick : HTTPServerConnection.Tick :=
  HTTPServerConnection.readTick (bytes "GET / HTTP/1.1\r\n\r\n") homepage_ne length_homepage_le

/-- **A connection without an instance** is scheduled all the same, and its request is dispatched
through a callback nobody set. -/
theorem allOrNothing_no_instance : ∃ s,
    Trace.run work [⟨0, true, { AcceptAlloc.all with instanceBlock := false },
      HTTPServerConnection.idleTick, fun _ => (none, 0), true⟩] initiate = .ok (s, []) ∧
    ¬ AllOrNothing initiate s ∧
    work ⟨3, false, .all, homepageTick, fun _ => (none, 0), true⟩ s
      = .error (.callback .indeterminate) := by
  refine ⟨initiate.tcpServerAccept { AcceptAlloc.all with instanceBlock := false }, rfl, ?_, ?_⟩
  · intro h
    exact absurd (suffices_of_allOrNothing inv_initiate h) (by decide)
  · exact Fallible.eq_error_of_fault (by decide +kernel)

end WeatherServer
