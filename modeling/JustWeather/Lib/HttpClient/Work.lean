import JustWeather.CLib.Memory
import JustWeather.Lib.HttpClient
import JustWeather.Lib.Smw
import JustWeather.Machinery.Trace

/-!
# Lib/HttpClient/Work — the client as the scheduler runs it

`http_client_work` from tick to tick, until `http_client_dispose` frees the client: the timeout test
before the state, connecting, and what the client holds on the way (its task, its socket, its
`TCPClient`, its buffers).
-/

open CLib

/-- What the environment does in one tick. -/
structure HttpClientTick where
  monTime : UInt64
  /-- whether there is memory for the `TCPClient` -/
  tcpAlloc : Bool
  /-- what `getaddrinfo` gives, and what becomes of each address -/
  addresses : Option (List Attempt)
  /-- `SO_ERROR`, unless `getsockopt` fails -/
  soError : Option ℕ
  /-- whether there is memory for `write_buffer` -/
  writeAlloc : Bool
  send : Send
  recv : Recv HttpClient.chunkSize
  alloc : HttpClient.ReadAlloc

/-- A tick in which the environment does what a client needs, and the socket delivers nothing. -/
def HttpClientTick.smooth (monTime : UInt64) : HttpClientTick where
  monTime
  tcpAlloc := true
  addresses := some [.initiated]
  soError := some 0
  writeAlloc := true
  send := .accepts ⟨4096, by decide⟩
  recv := .wouldBlock
  alloc := .all

/-- An `http_client` that a task was registered for, with what it holds outside its block: the
scheduler's tasks, the sockets, the `TCPClient` blocks. -/
structure HttpClientRun (κ : Type) where
  client : HttpClient
  task : Option TaskHandle
  timeout : UInt64
  timer : UInt64
  tcpConn : Option ℕ
  tcpClients : Memory TCPClient
  sockets : Sockets
  smw : Smw κ
  /-- the client's block was freed -/
  freed : Bool

namespace HttpClientRun

variable {κ : Type}

/-- `EINPROGRESS` and `EALREADY`. -/
def pending : List ℕ := [115, 114]

/-- `if (callback != NULL) callback("TIMEOUT", NULL)`. -/
def notifyTimeout (r : HttpClientRun κ) : List HttpClient.Event :=
  if r.client.callback then [.called (bytes "TIMEOUT") none] else []

/-- `http_client_dispose`. -/
def dispose (r : HttpClientRun κ) : HttpClientRun κ :=
  { r with smw := r.smw.destroyTask r.task, freed := true }

/-- The state a handler returns is the client's. -/
def enter (r : HttpClientRun κ) (o : HttpClient.Outcome) :
    HttpClientRun κ × List HttpClient.Event :=
  ({ r with client := { o.client with state := o.next } }, o.events)

/-- `client->tcp_conn`, of a client that has one. -/
def conn (r : HttpClientRun κ) : Except Fault TCPClient :=
  match r.tcpConn with
  | none => .error .nullAccess
  | some b => r.tcpClients.read b

/-- `http_client_work_connect`. -/
def workConnect (t : HttpClientTick) (r : HttpClientRun κ) :
    Except Fault (HttpClientRun κ × List HttpClient.Event) :=
  if t.tcpAlloc then
    let (b, tcpClients) := r.tcpClients.alloc ⟨none⟩
    let (tcpClient, sockets) := tcpClientConnect t.addresses r.sockets
    match tcpClient.fd with
    | none => (tcpClients.free b).map fun tcpClients =>
        { r with tcpClients, sockets }.enter ⟨.dispose, r.client,
          r.client.notify (bytes "ERROR") (bytes "Failed to initiate connection")⟩
    | some _ => (tcpClients.write b tcpClient).map fun tcpClients =>
        { r with tcpClients, sockets, tcpConn := some b }.enter ⟨.connecting, r.client, []⟩
  else .ok (r.enter ⟨.dispose, r.client,
    r.client.notify (bytes "ERROR") (bytes "Memory allocation failed")⟩)

/-- `http_client_work_connecting`, of a client that has a `TCPClient`. -/
def connectingOn (t : HttpClientTick) (c : HttpClient) (tcpClient : TCPClient) :
    HttpClient.Outcome :=
  match tcpClient.fd, t.soError with
  | none, _ => ⟨.dispose, c, []⟩
  | some _, none => ⟨.dispose, c, []⟩
  | some _, some error =>
    if error = 0 then ⟨.writing, c, []⟩
    else if error ∈ pending then ⟨.connecting, c, []⟩
    else ⟨.dispose, c, c.notify (bytes "ERROR") (bytes "Connection failed")⟩

/-- `http_client_work_connecting`. -/
def workConnecting (t : HttpClientTick) (r : HttpClientRun κ) :
    Except Fault (HttpClientRun κ × List HttpClient.Event) :=
  match r.tcpConn with
  | none => .ok (r.enter ⟨.dispose, r.client, []⟩)
  | some b => (r.tcpClients.read b).map fun tcpClient =>
      r.enter (connectingOn t r.client tcpClient)

/-- What `send` meets on the descriptor of a `TCPClient`. -/
def sendOn (t : HttpClientTick) (tcpClient : TCPClient) : Send :=
  if tcpClient.fd.isSome then t.send else .error

/-- What `recv` meets there. -/
def recvOn (t : HttpClientTick) (tcpClient : TCPClient) : Recv HttpClient.chunkSize :=
  if tcpClient.fd.isSome then t.recv else .error

/-- `http_client_work_writing`: without a block for the request there is no `send`. -/
def workWriting (t : HttpClientTick) (r : HttpClientRun κ) :
    Except Fault (HttpClientRun κ × List HttpClient.Event) :=
  if r.client.writeBuffer.isSome || t.writeAlloc then
    r.conn.bind fun tcpClient =>
      (r.client.workWriting t.writeAlloc (sendOn t tcpClient)).map r.enter
  else (r.client.workWriting t.writeAlloc t.send).map r.enter

/-- `http_client_work_reading`. -/
def workReading (t : HttpClientTick) (r : HttpClientRun κ) :
    Except Fault (HttpClientRun κ × List HttpClient.Event) :=
  r.conn.bind fun tcpClient => (r.client.workReading t.alloc (recvOn t tcpClient)).map r.enter

/-- What `http_client_work_done` reports. -/
def report (c : HttpClient) : List HttpClient.Event :=
  let body := cstr (c.body.getD [])
  if 200 ≤ c.statusCode ∧ c.statusCode < 300 then c.notify (bytes "RESPONSE") body
  else c.notify (bytes "ERROR") (snprintf 256 (bytes "HTTP " ++ decimalInt c.statusCode ++
    bytes ": " ++ body)).1

/-- The buffers `http_client_work_done` frees. -/
def releaseBuffers (c : HttpClient) : HttpClient :=
  { c with readBuffer := [], body := none, writeBuffer := none }

/-- `http_client_work_done`.  The `TCPClient` is disconnected, and its block stays. -/
def workDone (r : HttpClientRun κ) : Except Fault (HttpClientRun κ × List HttpClient.Event) :=
  let o : HttpClient.Outcome := ⟨.dispose, releaseBuffers r.client, report r.client⟩
  match r.tcpConn with
  | none => .ok (r.enter o)
  | some b => do
    let tcpClient ← r.tcpClients.read b
    let (tcpClient, sockets) := tcpClientDisconnect tcpClient r.sockets
    let tcpClients ← r.tcpClients.write b tcpClient
    return { r with tcpClients, sockets, tcpConn := none }.enter o

/-- `switch (_Client->state)`. -/
def dispatch (t : HttpClientTick) (r : HttpClientRun κ) :
    Except Fault (HttpClientRun κ × List HttpClient.Event) :=
  match r.client.state with
  | .init => .ok (r.enter r.client.workInit)
  | .connect => r.workConnect t
  | .connecting => r.workConnecting t
  | .writing => r.workWriting t
  | .reading => r.workReading t
  | .done => r.workDone
  | .dispose => .ok (r.dispose, [])

/-- The timeout has come: the timer was set, and `timer + timeout`, a sum of two `uint64_t`, is not
after the tick. -/
def TimedOut (t : HttpClientTick) (r : HttpClientRun κ) : Prop :=
  r.timer ≠ 0 ∧ r.timer + r.timeout ≤ t.monTime

instance (t : HttpClientTick) (r : HttpClientRun κ) : Decidable (TimedOut t r) :=
  inferInstanceAs (Decidable (_ ∧ _))

/-- `if (_Client->timer == 0) { _Client->timer = _MonTime; }`. -/
def setTimer (t : HttpClientTick) (r : HttpClientRun κ) : HttpClientRun κ :=
  if r.timer = 0 then { r with timer := t.monTime } else r

/-- `http_client_work`.  A client that was freed is not there any more. -/
def work (t : HttpClientTick) (r : HttpClientRun κ) :
    Except Fault (HttpClientRun κ × List HttpClient.Event) :=
  if r.freed then .error .notLive
  else if TimedOut t r then .ok (r.dispose, r.notifyTimeout)
  else (r.setTimer t).dispatch t

/-- The client `http_client_get` registers in a block of zeros, with its task in the scheduler. -/
def zeroed (url : List Byte) (callback : Bool) (timeout : UInt64) (task : TaskHandle)
    (smw : Smw κ) : HttpClientRun κ where
  client :=
    { state := .init, url, callback, writeBuffer := none, writeSize := 0, writeOffset := 0,
      readBuffer := [], bodyStart := 0, contentLen := 0, statusCode := 0, body := none,
      hostname := [], path := [], port := [] }
  task := some task
  timeout
  timer := 0
  tcpConn := none
  tcpClients := Memory.empty
  sockets := Sockets.none
  smw
  freed := false

end HttpClientRun
