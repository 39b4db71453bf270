import JustWeather.Server.WeatherServer.Holdings
import JustWeather.Server.WeatherServer.StartUp

/-!
# Server/WeatherServer/ShutDown — how the server goes down

`weather_server_dispose` takes the tasks of the weather server, the HTTP server and the TCP server
from the scheduler, and nothing else: no connection is torn down.  The connections there are go on
to their end by themselves, and none comes after them (`serves_out`).
-/

/-- `tcp_server_dispose`. -/
def TCPServer.dispose {κ : Type} (server : TCPServer) (smw : Smw κ) : Smw κ :=
  smw.destroyTask server.task

/-- `http_server_dispose`. -/
def HTTPServer.dispose {κ : Type} (server : HTTPServer) (smw : Smw κ) : Smw κ :=
  (server.tcpServer.dispose smw).destroyTask server.task

/-- `weather_server_dispose`. -/
def WeatherServer.Members.dispose {κ : Type} (server : WeatherServer.Members) (smw : Smw κ) :
    Smw κ :=
  (server.httpServer.dispose smw).destroyTask server.task

namespace WeatherServer

variable {α : Type} {e : StartUp α} {server : WeatherServer.Members} {s s' : WeatherServer}
  {t : ServerTick} {ticks ticks' : List ServerTick} {evs evs' : List HTTPServerConnection.Event}
  {own : List (SmwTask ServerContext)}

/-- The server after `weather_server_dispose` on its members. -/
def shutDown (server : WeatherServer.Members) (s : WeatherServer) : WeatherServer :=
  { s with smw := server.dispose s.smw }

/-- The members of a server that came up know its three tasks. -/
theorem tasks_of_succeeds (h : e.Succeeds) (server : WeatherServer.Members) :
    (e.main server).1.httpServer.tcpServer.task = some 0 ∧
      (e.main server).1.httpServer.task = some 1 ∧ (e.main server).1.task = some 2 := by
  have hp : e.process = ⟨.none, some Smw.init⟩ := by rw [StartUp.process, if_pos h.smwInit]
  rcases tcpServerInitiate_cases e.tcp .tcpServer server.httpServer.tcpServer e.process with
    ⟨a, fd, net, -, -, -, -, -, hr⟩ | ⟨hno, -⟩
  · rw [StartUp.main, StartUp.weatherServerInitiate, StartUp.httpServerInitiate, hr, h.task, h.http,
      h.weather, hp]
    exact ⟨rfl, rfl, rfl⟩
  · exact absurd ⟨h.address, h.listens⟩ hno

/-- **What `weather_server_dispose` leaves**: the tasks of the connections. -/
theorem Holds.shutDown (he : e.Succeeds) (h : Holds initiate.smw.tasks s evs) :
    Holds [] (s.shutDown (e.main server).1) evs := by
  obtain ⟨htcp, hhttp, hweather⟩ := tasks_of_succeeds he server
  have htasks : s.smw.tasks
      = ⟨0, .tcpServer⟩ :: ⟨1, .httpServer⟩ :: ⟨2, .weatherServer⟩ :: entries 0 s.connections :=
    h.tasks
  refine ⟨fun _ hmem => (List.not_mem_nil hmem).elim, ?_, h.sockets, h.nodup, h.owns, h.disposals⟩
  rw [WeatherServer.shutDown, Members.dispose, HTTPServer.dispose, TCPServer.dispose, htcp, hhttp,
    hweather]
  simp [Smw.destroyTask, htasks]

/-- Without a task of its own to accept with, a server accepts nobody. -/
theorem Holds.work_of_no_accept (h : Holds own s evs)
    (hown : ∀ task ∈ own, task.context ≠ .tcpServer)
    (hw : s.work t = .ok (s', evs')) : s'.connections.length = s.connections.length ∧
      s'.sockets.opened = s.sockets.opened := by
  rcases work_cases hw with ⟨rfl, -⟩ | ⟨hturn, -, -⟩ | ⟨b, -, hw⟩
  · exact ⟨rfl, rfl⟩
  · obtain ⟨task, hfind, hcontext⟩ := Option.map_eq_some_iff.mp hturn
    have hmem := List.mem_of_find?_eq_some hfind
    rw [h.tasks, List.mem_append] at hmem
    rcases hmem with hmem | hmem
    · exact absurd hcontext (hown task hmem)
    · obtain ⟨i, c, -, hentry⟩ := mem_entries.mp hmem
      obtain ⟨handle, -, rfl⟩ := Option.map_eq_some_iff.mp hentry
      cases hcontext
  · obtain ⟨c, d, -, hconn, -, -, hopened, -⟩ := exists_of_connectionTaskWork hw
    exact ⟨by rw [hconn, List.length_set], hopened⟩

theorem Holds.run_of_no_accept (h : Holds own s evs)
    (hown : ∀ task ∈ own, task.context ≠ .tcpServer)
    (hrun : Trace.run WeatherServer.work ticks s = .ok (s', evs')) :
    s'.connections.length = s.connections.length ∧ s'.sockets.opened = s.sockets.opened := by
  refine (Trace.run_invariant (P := fun _ s' evs' => Holds own s' (evs ++ evs') ∧
    s'.connections.length = s.connections.length ∧ s'.sockets.opened = s.sockets.opened)
    ⟨by rwa [List.append_nil], rfl, rfl⟩ ?_ hrun).2
  rintro js u u' evs₁ evs₂ t ⟨hholds, hlen, hopened⟩ hw
  obtain ⟨hlen', hopened'⟩ := hholds.work_of_no_accept hown hw
  rw [← List.append_assoc]
  exact ⟨hholds.work hw, hlen'.trans hlen, hopened'.trans hopened⟩

/-- A server that comes up on the first address. -/
def onFirst : StartUp ℕ := ⟨true, ⟨some [(4, .bound)], true, .all⟩, .all, true, .all⟩

/-- The ticks up to the dispatch of a request, and those after it, with a turn to accept among them.
-/
def answeredTicks : List ServerTick × List ServerTick :=
  (homepageTicks.take 2, smoothTick 0 HTTPServerConnection.idleTick :: homepageTicks.drop 2)

end WeatherServer
