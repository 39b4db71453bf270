import JustWeather.Lib.TcpServer
import JustWeather.Server.WeatherServer

/-!
# Server/WeatherServer/StartUp — how the server comes up

`weather_server_initiate` calls `http_server_initiate`, and that calls `tcp_server_initiate`;
neither looks at what the one below it returned, nor whether its own task and list are there, and
`main` does not look either.  So start-up only reports as it is to when nothing fails
(`reported_iff`); the server is then what `WeatherServer.initiate` says (`main_of_succeeds`).
-/

/-- What the server meets on its way up: the memory for the list of `smw_init`, what
`tcp_server_initiate` meets, the memory for the task of the HTTP server, for the list of the
instances and for the task of the weather server. -/
structure StartUp (α : Type) where
  smwInit : Bool
  tcp : TcpSetup α
  http : TaskAlloc
  instances : Bool
  weather : TaskAlloc

/-- `HTTPServer`. -/
structure HTTPServer where
  tcpServer : TCPServer
  task : Option TaskHandle

/-- The members of the `WeatherServer` of `main`. -/
structure WeatherServer.Members where
  httpServer : HTTPServer
  instances : Option (List ℕ)
  task : Option TaskHandle

namespace StartUp

variable {α : Type} (e : StartUp α)

/-! ## The initialisers -/

/-- `http_server_initiate`: neither the result of `tcp_server_initiate` nor its own task is looked
at. -/
def httpServerInitiate (server : HTTPServer) (p : Process α ServerContext) :
    ℤ × HTTPServer × Process α ServerContext :=
  let (_, tcpServer, p) := tcpServerInitiate e.tcp .tcpServer server.tcpServer p
  let (task, p) := p.createTask e.http .httpServer
  (0, ⟨tcpServer, task⟩, p)

/-- `weather_server_initiate`: nor is the result of `http_server_initiate`, the list or the task. -/
def weatherServerInitiate (server : WeatherServer.Members) (p : Process α ServerContext) :
    ℤ × WeatherServer.Members × Process α ServerContext :=
  let (_, httpServer, p) := e.httpServerInitiate server.httpServer p
  let instances := if e.instances then some [] else none
  let (task, p) := p.createTask e.weather .weatherServer
  (0, ⟨httpServer, instances, task⟩, p)

/-- The process after `smw_init`. -/
def process : Process α ServerContext := ⟨.none, if e.smwInit then some Smw.init else none⟩

/-- `main`, up to its loop: the server, whatever was in its memory, and the process it runs in. -/
def main (server : WeatherServer.Members) : WeatherServer.Members × Process α ServerContext :=
  (e.weatherServerInitiate server e.process).2

/-! ## What they are to report -/

/-- The server listens, and its task is scheduled. -/
def Listens (r : WeatherServer.Members × Process α ServerContext) : Prop :=
  (∃ a, e.tcp.address = some a ∧ r.1.httpServer.tcpServer.ListensOn r.2.net a) ∧
    r.2.Scheduled .tcpServer r.1.httpServer.tcpServer.task

/-- **Start-up reports failure**: `tcp_server_initiate` reports what it did, the two above it return
`0` only if it did and they have what is theirs, and the loop of `main` only runs a server that
listens. -/
structure Reported (server : WeatherServer.Members) : Prop where
  tcp : TcpReported e.tcp .tcpServer e.process
    (tcpServerInitiate e.tcp .tcpServer server.httpServer.tcpServer e.process)
  http : let r := e.httpServerInitiate server.httpServer e.process
    r.1 = 0 →
      (tcpServerInitiate e.tcp .tcpServer server.httpServer.tcpServer e.process).1 = 0 ∧
      r.2.2.Scheduled .httpServer r.2.1.task
  weather : let r := e.weatherServerInitiate server e.process
    r.1 = 0 →
      (tcpServerInitiate e.tcp .tcpServer server.httpServer.tcpServer e.process).1 = 0 ∧
      r.2.2.Scheduled .weatherServer r.2.1.task ∧ r.2.1.instances.isSome = true
  loop : e.Listens (e.main server)

/-- Nothing fails: an address gets a socket and is bound, `listen` succeeds, and there is all the
memory. -/
structure Succeeds : Prop where
  smwInit : e.smwInit = true
  address : e.tcp.address.isSome = true
  listens : e.tcp.listens = true
  task : e.tcp.alloc = .all
  http : e.http = .all
  instances : e.instances = true
  weather : e.weather = .all

/-! ## What they do report -/

variable {e} {server : WeatherServer.Members}

@[simp] theorem process_isSome : (process e).smw.isSome = e.smwInit := by
  rw [process]
  cases e.smwInit <;> rfl

theorem httpServerInitiate_isSome (server : HTTPServer) (p : Process α ServerContext) :
    (e.httpServerInitiate server p).2.2.smw.isSome = p.smw.isSome :=
  Process.createTask_isSome.trans tcpServerInitiate_isSome

/-- The task of the HTTP server is there when there is the memory for it. -/
theorem http_scheduled_iff (server : HTTPServer) (p : Process α ServerContext) :
    (e.httpServerInitiate server p).2.2.Scheduled .httpServer
      (e.httpServerInitiate server p).2.1.task ↔ p.smw.isSome = true ∧ e.http = .all := by
  rw [← tcpServerInitiate_isSome (p := p)]
  exact Process.scheduled_createTask_iff

/-- The task of the weather server is there when there is the memory for it. -/
theorem weather_scheduled_iff (server : WeatherServer.Members) (p : Process α ServerContext) :
    (e.weatherServerInitiate server p).2.2.Scheduled .weatherServer
      (e.weatherServerInitiate server p).2.1.task ↔ p.smw.isSome = true ∧ e.weather = .all := by
  rw [← httpServerInitiate_isSome (e := e) server.httpServer p]
  exact Process.scheduled_createTask_iff

/-- What `tcp_server_initiate` left is there when the loop begins. -/
theorem listens_main (h : TcpReported e.tcp .tcpServer e.process
      (tcpServerInitiate e.tcp .tcpServer server.httpServer.tcpServer e.process))
    (hcode : (tcpServerInitiate e.tcp .tcpServer server.httpServer.tcpServer e.process).1 = 0) :
    e.Listens (e.main server) := by
  obtain ⟨a, ha, hlistens⟩ := h.address hcode
  refine ⟨⟨a, ha, ?_⟩, (h.task hcode).createTask.createTask⟩
  have hnet : (e.main server).2.net
      = (tcpServerInitiate e.tcp .tcpServer server.httpServer.tcpServer e.process).2.2.net :=
    Process.createTask_net.trans Process.createTask_net
  rw [hnet]
  exact hlistens

/-- **Start-up reports as it is to only when nothing fails.** -/
theorem reported_iff (e : StartUp α) (server : WeatherServer.Members) :
    e.Reported server ↔ e.Succeeds := by
  constructor
  · intro h
    obtain ⟨hcode, hhttp⟩ := h.http rfl
    obtain ⟨-, hweather, hinstances⟩ := h.weather rfl
    obtain ⟨haddress, hlistens⟩ := tcpServerInitiate_eq_zero_iff.mp hcode
    obtain ⟨-, htask⟩ := (tcpServerInitiate_reported_iff ..).mp h.tcp ⟨haddress, hlistens⟩
    obtain ⟨hsmw, hhttp⟩ := (http_scheduled_iff ..).mp hhttp
    refine ⟨process_isSome ▸ hsmw, haddress, hlistens, htask, hhttp, ?_,
      ((weather_scheduled_iff ..).mp hweather).2⟩
    by_contra hno
    rw [weatherServerInitiate, if_neg hno] at hinstances
    cases hinstances
  · intro h
    have hsmw : e.process.smw.isSome = true := process_isSome.trans h.smwInit
    have hcode : (tcpServerInitiate e.tcp .tcpServer server.httpServer.tcpServer e.process).1 = 0 :=
      tcpServerInitiate_eq_zero_iff.mpr ⟨h.address, h.listens⟩
    have htcp := (tcpServerInitiate_reported_iff e.tcp .tcpServer server.httpServer.tcpServer
      e.process).mpr fun _ => ⟨hsmw, h.task⟩
    refine ⟨htcp, fun _ => ⟨hcode, (http_scheduled_iff ..).mpr ⟨hsmw, h.http⟩⟩, fun _ => ⟨hcode,
      (weather_scheduled_iff ..).mpr ⟨hsmw, h.weather⟩, ?_⟩, listens_main htcp hcode⟩
    rw [weatherServerInitiate, if_pos h.instances]
    rfl

/-- Every address is in use. -/
def portInUse : StartUp ℕ :=
  ⟨true, ⟨some [(4, .refused), (6, .refused)], true, .all⟩, .all, true, .all⟩

/-- There is no memory for the task of the TCP server. -/
def noTask : StartUp ℕ :=
  ⟨true, ⟨some [(4, .bound)], true, ⟨false, true⟩⟩, .all, true, .all⟩

/-- What is in the memory of `main`. -/
def garbage : WeatherServer.Members := ⟨⟨⟨0, none⟩, none⟩, none, none⟩

/-- A server whose port is in use comes up all the same, and one without a task is reported as
listening. -/
theorem not_reported :
    ((portInUse.weatherServerInitiate garbage portInUse.process).1 = 0 ∧
      ¬ portInUse.Listens (portInUse.main garbage) ∧ ¬ portInUse.Reported garbage) ∧
    ((tcpServerInitiate noTask.tcp .tcpServer garbage.httpServer.tcpServer noTask.process).1 = 0 ∧
      ¬ noTask.Reported garbage) := by
  refine ⟨⟨rfl, fun h => ?_, fun h => ?_⟩, rfl, fun h => ?_⟩
  · obtain ⟨⟨a, ha, -⟩, -⟩ := h
    cases ha
  · have hcode := (h.http rfl).1
    cases hcode
  · obtain ⟨t, smw, ht, -⟩ := h.tcp.task rfl
    cases ht

/-- **When nothing fails the server is that of `WeatherServer.initiate`.** -/
theorem main_of_succeeds (h : e.Succeeds) (server : WeatherServer.Members) :
    (e.main server).2.smw = some WeatherServer.initiate.smw ∧
      (e.main server).1.instances = some WeatherServer.initiate.instances := by
  have hp : e.process = ⟨.none, some Smw.init⟩ := by rw [process, if_pos h.smwInit]
  rcases tcpServerInitiate_cases e.tcp .tcpServer server.httpServer.tcpServer e.process with
    ⟨a, fd, net, -, -, -, -, -, hr⟩ | ⟨hno, -⟩
  · rw [main, weatherServerInitiate, httpServerInitiate, hr, h.task, h.http, h.weather,
      if_pos h.instances, hp]
    exact ⟨rfl, rfl⟩
  · exact absurd ⟨h.address, h.listens⟩ hno

end StartUp
