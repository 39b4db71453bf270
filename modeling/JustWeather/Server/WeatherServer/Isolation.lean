import JustWeather.Lib.HttpServerConnection.Plain
import JustWeather.Machinery.Component
import JustWeather.Server.WeatherServer.Accept

/-!
# Server/WeatherServer/Isolation — a connection does not see the others

All the connections of a server share its scheduler, its sockets and its callback.  Each is a
component of it all the same (`component`): in any run of the server it lives through its own turns
as it would alone, so two connections that get the same turns do the same, in the same server or in
two (`isolation`).
-/

open CLib HTTPServerConnection

/-- What a turn brings to the connection whose turn it is. -/
structure ConnectionTick where
  tick : HTTPServerConnection.Tick
  current : WeatherServerInstance.Current
  response : Bool

/-- The part of a tick of the server that is for the connection. -/
def ServerTick.forConnection (t : ServerTick) : ConnectionTick :=
  ⟨t.connection, t.current, t.response⟩

namespace ServedConnection

variable {c d : ServedConnection} {k : ConnectionTick} {ks : List ConnectionTick}
  {evs : List HTTPServerConnection.Event}

/-- The connection without the numbers of its socket, its task and its instance. -/
def plain (c : ServedConnection) : ServedConnection :=
  ⟨c.connection.plain, c.context.map fun _ => 0⟩

/-- The callback of a connection. -/
def onRequest (k : ConnectionTick) (c : ServedConnection) : OnRequest :=
  match c.context with
  | none => fun _ => .error .indeterminate
  | some _ => WeatherServerInstance.onRequest k.current k.response

/-- `http_server_connection_task_work`, of a connection that is alone. -/
def work (k : ConnectionTick) (c : ServedConnection) :
    Except Fault (ServedConnection × List HTTPServerConnection.Event) :=
  ((taskWork (c.onRequest k) k.tick ((Smw.init : Smw Unit), c.connection)).map view).map fun r =>
    (⟨r.1, c.context⟩, r.2)

/-- A connection that was just accepted, with its instance or without one. -/
def fresh (context : Option ℕ) : ServedConnection := ⟨initiate 0 none, context⟩

theorem blind_onRequest (k : ConnectionTick) (c : ServedConnection) : Blind (c.onRequest k) := by
  rw [onRequest]
  split <;> exact fun _ => rfl

theorem onRequest_plain (k : ConnectionTick) (c : ServedConnection) :
    c.plain.onRequest k = c.onRequest k := by
  obtain ⟨c, _ | i⟩ := c <;> rfl

/-- A connection keeps its instance. -/
theorem context_of_work (h : c.work k = .ok (d, evs)) : d.context = c.context := by
  obtain ⟨r, -, hr⟩ := Fallible.exists_of_map h
  exact (congrArg (fun p => p.1.context) hr).symm

theorem context_of_run (h : Trace.run work ks c = .ok (d, evs)) : d.context = c.context :=
  Trace.run_invariant (P := fun _ d _ => d.context = c.context) rfl
    (fun hd hw => (context_of_work hw).trans hd) h

end ServedConnection

namespace WeatherServer

variable {s s' : WeatherServer} {t : ServerTick} {ticks : List ServerTick}
  {evs evs' : List HTTPServerConnection.Event} {b : ℕ} {c : ServedConnection}

/-! ## A connection as a component -/

/-- The connection's turn is a step it takes alone. -/
theorem work_of_connectionTaskWork (hc : s.connections[b]? = some c)
    (h : s.connectionTaskWork t b = .ok (s', evs)) : ∃ d : ServedConnection,
      c.plain.work t.forConnection = .ok (d.plain, evs.map Event.plain) ∧
        s'.connections = s.connections.set b d := by
  rw [connectionTaskWork, hc] at h
  obtain ⟨r, hwork, hr⟩ := Fallible.exists_of_map h
  obtain ⟨rfl, rfl⟩ := Prod.ext_iff.mp hr
  refine ⟨⟨r.1.2, c.context⟩, ?_, rfl⟩
  have hsame : WeatherServer.onRequest t c = c.onRequest t.forConnection := rfl
  rw [hsame] at hwork
  have hview := view_taskWork_plain (c.blind_onRequest t.forConnection) t.connection
    (Smw.init : Smw Unit) s.smw c.connection
  rw [hwork] at hview
  rw [ServedConnection.work, ServedConnection.onRequest_plain]
  exact congrArg (Except.map fun r : HTTPServerConnection × List HTTPServerConnection.Event =>
    ((⟨r.1, c.plain.context⟩ : ServedConnection), r.2)) hview

/-- A connection is as it was after a turn that is not its own. -/
theorem connection_of_turn_ne (h : s.work t = .ok (s', evs))
    (hturn : s.turn t ≠ some (.connection b)) (hc : s.connections[b]? = some c) :
    s'.connections[b]? = some c := by
  obtain ⟨hlt, -⟩ := List.getElem?_eq_some_iff.mp hc
  rcases work_cases h with ⟨rfl, -⟩ | ⟨-, -, rfl⟩ | ⟨b', hturn', hwork⟩
  · exact hc
  · cases halloc : t.alloc.connection with
    | false => rwa [tcpServerAccept_of_no_connection halloc]
    | true =>
      rw [tcpServerAccept_of_connection halloc]
      dsimp only
      rwa [List.getElem?_append_left hlt]
  · have hne : b' ≠ b := by
      rintro rfl
      exact hturn hturn'
    obtain ⟨_, _, -, hconn, -⟩ := exists_of_connectionTaskWork hwork
    rwa [hconn, List.getElem?_set_ne hne]

/-- **Connection number `b`, as a component of the server.** -/
def component (b : ℕ) : Trace.Component ConnectionTick ServedConnection
    HTTPServerConnection.Event work where
  part s := s.connections[b]?.map ServedConnection.plain
  input t s := if s.turn t = some (.connection b) then some t.forConnection else none
  move := ServedConnection.work
  see := Event.plain
  Fresh c := ∃ context, c = ServedConnection.fresh context
  part_own := by
    intro t s s' evs k c hin hpart hwork
    obtain ⟨c, hc, rfl⟩ := Option.map_eq_some_iff.mp hpart
    obtain ⟨hlt, -⟩ := List.getElem?_eq_some_iff.mp hc
    split at hin
    · rename_i hturn
      obtain rfl := Option.some.inj hin
      rw [work, hturn] at hwork
      obtain ⟨d, hd, hconn⟩ := work_of_connectionTaskWork hc hwork
      exact ⟨d.plain, hd, by rw [hconn, List.getElem?_set_self hlt, Option.map_some]⟩
    · cases hin
  part_other := by
    intro t s s' evs c hin hpart hwork
    obtain ⟨c, hc, rfl⟩ := Option.map_eq_some_iff.mp hpart
    have hturn : s.turn t ≠ some (.connection b) := fun hturn => by simp [hturn] at hin
    rw [connection_of_turn_ne hwork hturn hc]
    rfl
  fresh_of_part := by
    intro t s s' evs c hnone hwork hpart
    have hge : s.connections.length ≤ b := by
      rwa [Option.map_eq_none_iff, List.getElem?_eq_none_iff] at hnone
    obtain ⟨c, hc, rfl⟩ := Option.map_eq_some_iff.mp hpart
    obtain ⟨hlt, hget⟩ := List.getElem?_eq_some_iff.mp hc
    rcases work_cases hwork with ⟨rfl, -⟩ | ⟨-, -, rfl⟩ | ⟨b', hturn, hwork⟩
    · exact absurd hlt (Nat.not_lt_of_le hge)
    · cases halloc : t.alloc.connection with
      | false =>
        rw [tcpServerAccept_of_no_connection halloc] at hlt
        exact absurd hlt (Nat.not_lt_of_le hge)
      | true =>
        rw [tcpServerAccept_of_connection halloc] at hc
        dsimp only at hc
        rw [List.getElem?_append_right hge] at hc
        obtain rfl := List.mem_singleton.mp (List.mem_of_getElem? hc)
        exact ⟨_, rfl⟩
    · obtain ⟨_, _, -, hconn, -⟩ := exists_of_connectionTaskWork hwork
      rw [hconn, List.length_set] at hlt
      exact absurd hlt (Nat.not_lt_of_le hge)

/-- What the turns of connection number `b` brought it, in a run from the start. -/
abbrev turns (b : ℕ) (ticks : List ServerTick) : List ConnectionTick :=
  (component b).inputs ticks initiate

/-- What connection number `b` did in a run from the start. -/
abbrev deeds (b : ℕ) (ticks : List ServerTick) : List HTTPServerConnection.Event :=
  (component b).events ticks initiate

/-- In a turn that is not its own a connection does nothing. -/
theorem deeds_of_turn_ne (h : Trace.run work ticks initiate = .ok (s, evs))
    (hturn : s.turn t ≠ some (.connection b)) : deeds b (ticks ++ [t]) = deeds b ticks := by
  have hown : (component b).own t s = none := by
    rw [Trace.Component.own]
    rcases (component b).part s with _ | c
    · rfl
    · exact if_neg hturn
  have hgather : deeds b (ticks ++ [t]) = deeds b ticks ++ (component b).deed t s :=
    Trace.gather_concat h t
  rw [hgather, Trace.Component.deed, hown]
  exact List.append_nil _

/-- In its own turn it does what the server shows. -/
theorem deeds_of_turn (h : Trace.run work ticks initiate = .ok (s, evs))
    (hturn : s.turn t = some (.connection b)) (hc : s.connections[b]? = some c)
    (hw : s.work t = .ok (s', evs')) :
    deeds b (ticks ++ [t]) = deeds b ticks ++ evs'.map Event.plain := by
  have hpart : (component b).part s = some c.plain := congrArg (Option.map _) hc
  have hown : (component b).own t s = some t.forConnection :=
    (Trace.Component.own_of_part hpart t).trans (if_pos hturn)
  have hgather : deeds b (ticks ++ [t]) = deeds b ticks ++ (component b).deed t s :=
    Trace.gather_concat h t
  rw [hgather, Trace.Component.deed, hown, hw]
  rfl

/-- **A connection lives as it would alone.** -/
theorem life_of_connection (h : Trace.run work ticks initiate = .ok (s, evs))
    (hc : s.connections[b]? = some c) :
    Trace.run ServedConnection.work (turns b ticks) (ServedConnection.fresh c.plain.context)
      = .ok (c.plain, deeds b ticks) := by
  have hnone : (component b).part initiate = none := rfl
  have hpart : (component b).part s = some c.plain := by
    change s.connections[b]?.map ServedConnection.plain = some c.plain
    rw [hc]
    rfl
  obtain ⟨_, ⟨context, rfl⟩, hrun⟩ := (component b).run_born hnone h hpart
  have hcontext : c.plain.context = context := ServedConnection.context_of_run hrun
  rw [hcontext]
  exact hrun

/-! ## Two connections -/

variable {s₁ s₂ : WeatherServer} {ticks₁ ticks₂ : List ServerTick}
  {evs₁ evs₂ : List HTTPServerConnection.Event} {b₁ b₂ : ℕ} {c₁ c₂ : ServedConnection}

/-- **Connections that get the same turns do the same**, whatever else goes on around them: the
rest of the server, its other connections, the order the scheduler comes to them, and the memory
for them, leave no trace in what a connection does or holds. -/
theorem isolation (h₁ : Trace.run work ticks₁ initiate = .ok (s₁, evs₁))
    (h₂ : Trace.run work ticks₂ initiate = .ok (s₂, evs₂)) (hc₁ : s₁.connections[b₁]? = some c₁)
    (hc₂ : s₂.connections[b₂]? = some c₂) (hcontext : c₁.context.isSome = c₂.context.isSome)
    (hturns : turns b₁ ticks₁ = turns b₂ ticks₂) :
    c₁.plain = c₂.plain ∧ deeds b₁ ticks₁ = deeds b₂ ticks₂ := by
  have hsame : c₁.plain.context = c₂.plain.context := by
    obtain ⟨c₁, _ | i₁⟩ := c₁ <;> obtain ⟨c₂, _ | i₂⟩ := c₂
    · rfl
    · cases hcontext
    · cases hcontext
    · rfl
  have hrun₁ := life_of_connection h₁ hc₁
  have hrun₂ := life_of_connection h₂ hc₂
  rw [hturns, hsame, hrun₂] at hrun₁
  obtain ⟨hc, hevs⟩ := Prod.ext_iff.mp (Except.ok.inj hrun₁)
  exact ⟨hc.symm, hevs.symm⟩

/-- A tick in which a socket comes and its connection reads the start of a request. -/
def startTick (task : TaskHandle) : ServerTick :=
  ⟨task, true, .all, readTick (bytes "GET ") (by decide) (by decide), fun _ => (none, 0), true⟩

/-- A connection that is alone, and one that came after another and is served before it. -/
theorem isolation_start : ∃ s₁ s₂ c₁ c₂,
    Trace.run work [startTick 0, startTick 3] initiate = .ok (s₁, []) ∧
    Trace.run work [startTick 0, startTick 0, startTick 4, startTick 3] initiate = .ok (s₂, []) ∧
    s₁.connections[0]? = some c₁ ∧ s₂.connections[1]? = some c₂ ∧ c₁.plain = c₂.plain ∧
      deeds 0 [startTick 0, startTick 3]
        = deeds 1 [startTick 0, startTick 0, startTick 4, startTick 3] := by
  have h₁ : Trace.run work [startTick 0, startTick 3] initiate = .ok (_, []) := rfl
  have h₂ : Trace.run work [startTick 0, startTick 0, startTick 4, startTick 3] initiate
      = .ok (_, []) := rfl
  exact ⟨_, _, _, _, h₁, h₂, rfl, rfl, isolation h₁ h₂ rfl rfl rfl rfl⟩

end WeatherServer
