import JustWeather.Machinery.Trace
import JustWeather.Server.WeatherServerInstance

/-!
# Server/WeatherServer — the server: accepting, and the tasks it runs

A socket goes from `tcp_server_accept` through `http_server_on_accept` and
`weather_server_on_http_connection` to a connection with a task and an instance.  The scheduler then
comes to one task after the other, in an order the environment chooses (`work`).
-/

open CLib

/-- The context of a task: one of the three the server starts with, or a connection. -/
inductive ServerContext
  | tcpServer
  | httpServer
  | weatherServer
  | connection (b : ℕ)
  deriving DecidableEq

/-- An `HTTPServerConnection` as the server has it: `context` is the `WeatherServerInstance` that
was set with `weather_server_instance_on_request`, and `none` as long as the block has there what
`malloc` left. -/
structure ServedConnection where
  connection : HTTPServerConnection
  context : Option ℕ
  deriving DecidableEq

/-- `WeatherServerInstance`. -/
structure WeatherServerInstance where
  connection : ℕ
  deriving DecidableEq

/-- `WeatherServer`, with the scheduler, the sockets and the blocks of the connections and of the
instances.  These blocks are never freed, so a pointer to one is its position. -/
structure WeatherServer where
  smw : Smw ServerContext
  sockets : Sockets
  connections : List ServedConnection
  instanceBlocks : List WeatherServerInstance
  instances : List ℕ

/-- Which allocations of the accept path succeed: the connection, its task, the node for the task,
the instance, the node for the instance. -/
structure AcceptAlloc where
  connection : Bool
  task : Bool
  node : Bool
  instanceBlock : Bool
  instanceNode : Bool
  deriving DecidableEq

/-- Every allocation succeeds. -/
def AcceptAlloc.all : AcceptAlloc := ⟨true, true, true, true, true⟩

/-- A call of the scheduler, and what the environment does in it. -/
structure ServerTick where
  /-- whose turn it is -/
  task : TaskHandle
  /-- whether `accept` gives a socket -/
  accepts : Bool
  alloc : AcceptAlloc
  connection : HTTPServerConnection.Tick
  /-- what `open_meteo_handler_current` answers -/
  current : WeatherServerInstance.Current
  /-- whether there is memory for the response -/
  response : Bool

namespace WeatherServer

/-! ## Accepting -/

/-- `http_server_connection_initiate_ptr`: the connection, unless there is no memory for it. -/
def httpServerConnectionInitiate (alloc : AcceptAlloc) (fd : ℕ) (s : WeatherServer) :
    Option ℕ × WeatherServer :=
  if alloc.connection then
    let b := s.connections.length
    let (task, smw) := s.smw.createTask alloc.task alloc.node (.connection b)
    (some b, { s with
      smw, connections := s.connections ++ [⟨HTTPServerConnection.initiate fd task, none⟩] })
  else (none, s)

/-- `http_server_connection_set_callback`. -/
def setCallback (b i : ℕ) (s : WeatherServer) : WeatherServer :=
  { s with connections := s.connections.modify b fun c => { c with context := some i } }

/-- `weather_server_instance_initiate_ptr`: the instance, unless there is no memory for it. -/
def weatherServerInstanceInitiate (alloc : AcceptAlloc) (b : ℕ) (s : WeatherServer) :
    Option ℕ × WeatherServer :=
  if alloc.instanceBlock then
    let i := s.instanceBlocks.length
    (some i, setCallback b i { s with instanceBlocks := s.instanceBlocks ++ [⟨b⟩] })
  else (none, s)

/-- `weather_server_on_http_connection`: the result of `linked_list_append` is not looked at. -/
def weatherServerOnHttpConnection (alloc : AcceptAlloc) (b : ℕ) (s : WeatherServer) :
    ℤ × WeatherServer :=
  match weatherServerInstanceInitiate alloc b s with
  | (none, s) => (-1, s)
  | (some i, s) =>
    (0, if alloc.instanceNode then { s with instances := s.instances ++ [i] } else s)

/-- `http_server_on_accept`: the result of `onConnection` is not looked at. -/
def httpServerOnAccept (alloc : AcceptAlloc) (fd : ℕ) (s : WeatherServer) : ℤ × WeatherServer :=
  match httpServerConnectionInitiate alloc fd s with
  | (none, s) => (-1, s)
  | (some b, s) => (0, (weatherServerOnHttpConnection alloc b s).2)

/-- `tcp_server_accept`, with a socket from `accept`. -/
def tcpServerAccept (alloc : AcceptAlloc) (s : WeatherServer) : WeatherServer :=
  let (fd, sockets) := s.sockets.socket
  let (result, s) := httpServerOnAccept alloc fd { s with sockets }
  if result ≠ 0 then { s with sockets := s.sockets.close fd } else s

/-! ## The tasks -/

/-- The callback of a connection. -/
def onRequest (t : ServerTick) (c : ServedConnection) : HTTPServerConnection.OnRequest :=
  match c.context with
  | none => fun _ => .error .indeterminate
  | some _ => WeatherServerInstance.onRequest t.current t.response

/-- `tcp_client_dispose` on the descriptor of a connection. -/
def closeConnection (fd : ℤ) (sockets : Sockets) : Sockets :=
  if 0 ≤ fd then sockets.close fd.toNat else sockets

/-- `http_server_connection_task_work` on the connection `b`. -/
def connectionTaskWork (t : ServerTick) (b : ℕ) (s : WeatherServer) :
    Except Fault (WeatherServer × List HTTPServerConnection.Event) :=
  match s.connections[b]? with
  | none => .error .notLive
  | some c => (HTTPServerConnection.taskWork (onRequest t c) t.connection (s.smw, c.connection)).map
      fun r => ({ s with
        smw := r.1.1
        connections := s.connections.set b { c with connection := r.1.2 }
        sockets := match c.connection.state with
          | .dispose => closeConnection c.connection.fd s.sockets
          | _ => s.sockets }, r.2)

/-- The task the scheduler comes to: none, when it is not registered. -/
def turn (t : ServerTick) (s : WeatherServer) : Option ServerContext :=
  (s.smw.tasks.find? (·.handle == t.task)).map SmwTask.context

/-- One call of the scheduler.  The tasks of the HTTP server and of the weather server do nothing:
`weather_server_instance_work` is empty. -/
def work (t : ServerTick) (s : WeatherServer) :
    Except Fault (WeatherServer × List HTTPServerConnection.Event) :=
  match s.turn t with
  | none => .ok (s, [])
  | some .tcpServer => .ok (if t.accepts then s.tcpServerAccept t.alloc else s, [])
  | some .httpServer => .ok (s, [])
  | some .weatherServer => .ok (s, [])
  | some (.connection b) => s.connectionTaskWork t b

/-- `weather_server_initiate`, with the memory and the socket it needs: its socket is not one that
was accepted. -/
def initiate : WeatherServer where
  smw := (((Smw.init.createTask true true .tcpServer).2
    |>.createTask true true .httpServer).2
    |>.createTask true true .weatherServer).2
  sockets := Sockets.none
  connections := []
  instanceBlocks := []
  instances := []

end WeatherServer
