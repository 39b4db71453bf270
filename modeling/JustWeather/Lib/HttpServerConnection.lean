import JustWeather.Lib.MessageHead
import JustWeather.Lib.Smw
import JustWeather.Lib.TcpClient

/-!
# Lib/HttpServerConnection — one accepted connection

The connection of `http_server_connection.c`: a record three handlers share, run by the scheduler
through `taskWork`.  The environment's share of one tick (what `recv` and `send` meet, which
allocations succeed) is a `Tick`; what the outside sees of it is a list of `Event`s.
-/

open CLib

/-- `HttpServerConnectionState`. -/
inductive HttpServerConnectionState
  | send
  | receive
  | dispose
  deriving DecidableEq, Repr

/-- `HTTPServerConnection`.  A `char*` field is the C string it points to and `none` for `NULL`;
`read_buffer` is the block of its `read_buffer_size` bytes, empty for `NULL`. -/
structure HTTPServerConnection where
  fd : ℤ
  task : Option TaskHandle
  state : HttpServerConnectionState
  method : Option (List Byte)
  requestPath : Option (List Byte)
  host : Option (List Byte)
  contentLen : ℕ
  readBuffer : List Byte
  body : Option (List Byte)
  bodyStart : ℕ
  writeBuffer : Option (List Byte)
  writeSize : ℕ
  writeOffset : ℕ
  deriving DecidableEq

namespace HTTPServerConnection

/-- `CHUNK_SIZE`. -/
def chunkSize : ℕ := 256

/-- What the outside sees of a tick. -/
inductive Event
  /-- `onRequest` was called, on this connection -/
  | request (connection : HTTPServerConnection)
  /-- the socket took these bytes -/
  | accepted (bs : List Byte)
  /-- `send` failed, and not because it would block -/
  | sendError
  /-- the connection was torn down -/
  | disposed
  deriving DecidableEq

/-- Which allocations of `http_server_connection_receive` succeed: the grown `read_buffer`, the copy
of the head, the three strings, the body. -/
structure ReceiveAlloc where
  readBuffer : Bool
  headers : Bool
  method : Bool
  requestPath : Bool
  host : Bool
  body : Bool
  deriving DecidableEq

/-- Every allocation succeeds. -/
def ReceiveAlloc.all : ReceiveAlloc := ⟨true, true, true, true, true, true⟩

/-- The return code of a handler, the connection after it, and its events. -/
structure Outcome where
  code : ℤ
  connection : HTTPServerConnection
  events : List Event
  deriving DecidableEq

/-- What a callback puts into the connection: a block for `write_buffer`, and `write_size`. -/
structure Response where
  writeBuffer : List Byte
  writeSize : ℕ
  deriving DecidableEq

/-- An `onRequest` callback: it reads the connection and sets `write_buffer` and `write_size`, or
leaves both as they are. -/
abbrev OnRequest := HTTPServerConnection → Except Fault (Option Response)

/-- `http_server_connection_initiate`, with the handle `smw_create_task` gave. -/
def initiate (fd : ℤ) (task : Option TaskHandle) : HTTPServerConnection where
  fd := fd
  task := task
  state := .receive
  method := none
  requestPath := none
  host := none
  contentLen := 0
  readBuffer := []
  body := none
  bodyStart := 0
  writeBuffer := none
  writeSize := 0
  writeOffset := 0

/-! ## The head of a request -/

/-- What the head of a request says, apart from where its body is. -/
structure RequestFields where
  method : List Byte
  requestPath : List Byte
  host : List Byte
  deriving DecidableEq, Repr

/-- The text after `Host:`, or the value it has when there is none. -/
def scanHost (text : List Byte) : List Byte :=
  match strstr text (bytes "Host:") with
  | none => []
  | some found => (scanToken 255 (found.drop 5)).1

/-- `sscanf(headers, "%7s %255s", method, request_path)`, and the host. -/
def readRequest (text : List Byte) : RequestFields :=
  let (method, rest) := scanToken 7 text
  { method := method
    requestPath := (scanToken 255 rest).1
    host := scanHost text }

/-! ## Receiving -/

/-- `strdup`. -/
def strdup (ok : Bool) (s : List Byte) : Option (List Byte) := if ok then some s else none

/-- `realloc` and `memcpy`. -/
def grow (chunk : List Byte) (c : HTTPServerConnection) : Except Fault HTTPServerConnection :=
  if c.readBuffer.length + chunk.length < sizeMod then
    .ok { c with readBuffer := c.readBuffer ++ chunk }
  else .error .blockTooSmall

/-- A chunk that `size_t` counts with what is there is added. -/
theorem grow_of_lt {c : HTTPServerConnection} {chunk : List Byte}
    (h : (c.readBuffer ++ chunk).length < sizeMod) :
    c.grow chunk = .ok { c with readBuffer := c.readBuffer ++ chunk } := by
  rw [List.length_append] at h
  exact if_pos h

theorem grow_of_le {c : HTTPServerConnection} {chunk : List Byte}
    (h : sizeMod ≤ (c.readBuffer ++ chunk).length) : c.grow chunk = .error .blockTooSmall := by
  rw [List.length_append] at h
  exact if_neg (Nat.not_lt.mpr h)

theorem of_grow {c d : HTTPServerConnection} {chunk : List Byte} (h : c.grow chunk = .ok d) :
    d = { c with readBuffer := c.readBuffer ++ chunk } ∧
      (c.readBuffer ++ chunk).length < sizeMod := by
  rcases Nat.lt_or_ge (c.readBuffer ++ chunk).length sizeMod with hlt | hge
  · exact ⟨Except.ok.inj (h.symm.trans (grow_of_lt hlt)), hlt⟩
  · cases h.symm.trans (grow_of_le hge)

/-- The connection with a head read into it. -/
def setHead (a : ReceiveAlloc) (h : MessageHead RequestFields) (c : HTTPServerConnection) :
    HTTPServerConnection :=
  { c with
    method := strdup a.method h.fields.method
    requestPath := strdup a.requestPath h.fields.requestPath
    host := strdup a.host h.fields.host
    contentLen := h.contentLen
    bodyStart := h.bodyStart }

/-- `if (connection->body_start == 0) { … }`: `none` is the early return when the head has no
memory to be copied to. -/
def latch (a : ReceiveAlloc) (c : HTTPServerConnection) :
    Except Fault (Option HTTPServerConnection) :=
  if c.bodyStart = 0 then
    match endOfHeaders c.readBuffer with
    | .error f => .error f
    | .ok none => .ok (some c)
    | .ok (some headerEnd) =>
      if a.headers then
        .ok (some (c.setHead a (parseHead readRequest (c.readBuffer.take headerEnd))))
      else .ok none
  else .ok (some c)

/-- The connection after a callback. -/
def respond (r : Option Response) (c : HTTPServerConnection) : HTTPServerConnection :=
  match r with
  | none => c
  | some r => { c with writeBuffer := some r.writeBuffer, writeSize := r.writeSize }

/-- `connection->state = …SEND; connection->onRequest(connection->context);` -/
def request (onRequest : OnRequest) (c : HTTPServerConnection) : Except Fault Outcome :=
  match onRequest { c with state := .send } with
  | .error f => .error (.callback f)
  | .ok r => .ok ⟨0, { c with state := .send }.respond r, [.request { c with state := .send }]⟩

/-- The completeness test, `body_start + content_len` taken as a `size_t`. -/
def complete (c : HTTPServerConnection) : Bool :=
  sizeAdd c.bodyStart c.contentLen ≤ c.readBuffer.length && 0 < c.bodyStart

/-- What follows the head: wait, dispatch, or copy the body and dispatch. -/
def finish (onRequest : OnRequest) (a : ReceiveAlloc) (c : HTTPServerConnection) :
    Except Fault Outcome :=
  if c.complete then
    if c.method = some (bytes "GET") then c.request onRequest
    else if a.body then
      if c.bodyStart + c.contentLen ≤ c.readBuffer.length then
        { c with body := some ((c.readBuffer.drop c.bodyStart).take c.contentLen) }.request
          onRequest
      else .error .copyPastEnd
    else .ok ⟨-1, { c with body := none }, []⟩
  else .ok ⟨0, c, []⟩

/-- The part of `http_server_connection_receive` after the bytes are in `read_buffer`. -/
def process (onRequest : OnRequest) (a : ReceiveAlloc) (c : HTTPServerConnection) :
    Except Fault Outcome :=
  match c.latch a with
  | .error f => .error f
  | .ok none => .ok ⟨-1, c, []⟩
  | .ok (some c) => c.finish onRequest a

/-- `http_server_connection_receive`. -/
def receive (onRequest : OnRequest) (a : ReceiveAlloc) (r : Recv chunkSize)
    (c : HTTPServerConnection) : Except Fault Outcome :=
  let (bytesRead, chunk) := tcpClientRead r
  if bytesRead < 0 then .ok ⟨-1, c, []⟩
  else if bytesRead = 0 then .ok ⟨0, c, []⟩
  else if a.readBuffer then
    match c.grow chunk with
    | .error f => .error f
    | .ok c => c.process onRequest a
  else .ok ⟨-1, c, []⟩

/-! ## Sending and disposing -/

/-- What follows a `send` that returned `sent` and did not fail for good. -/
def advance (sent : ℤ) (c : HTTPServerConnection) : HTTPServerConnection :=
  let c := if 0 < sent then { c with writeOffset := c.writeOffset + sent.toNat } else c
  if c.writeSize ≤ c.writeOffset then { c with state := .dispose } else c

/-- `http_server_connection_send`. -/
def send (s : Send) (c : HTTPServerConnection) : Except Fault Outcome :=
  match c.writeBuffer with
  | none => .ok ⟨0, c, []⟩
  | some buffer =>
    if c.writeSize ≤ c.writeOffset then .ok ⟨0, c, []⟩
    else if buffer.length < c.writeSize then .error .sendPastEnd
    else
      let r := tcpClientWrite s ((buffer.drop c.writeOffset).take (c.writeSize - c.writeOffset))
      if r.sent < 0 && !r.again then .ok ⟨-1, { c with state := .dispose }, [.sendError]⟩
      else .ok ⟨0, c.advance r.sent, [.accepted r.accepted]⟩

/-- `http_server_connection_dispose`: the task leaves the scheduler, the socket is closed and every
buffer released. -/
def dispose {κ : Type} (smw : Smw κ) (c : HTTPServerConnection) : Smw κ × HTTPServerConnection :=
  (smw.destroyTask c.task,
    { c with
      fd := -1
      task := none
      method := none
      requestPath := none
      host := none
      contentLen := 0
      readBuffer := []
      body := none
      bodyStart := 0
      writeBuffer := none
      writeSize := 0
      writeOffset := 0 })

/-- What the environment does in one tick: the answer to the call the tick makes. -/
structure Tick where
  recv : Recv chunkSize
  alloc : ReceiveAlloc
  send : Send

/-- `http_server_connection_task_work`. -/
def taskWork {κ : Type} (onRequest : OnRequest) (t : Tick) (s : Smw κ × HTTPServerConnection) :
    Except Fault ((Smw κ × HTTPServerConnection) × List Event) :=
  match s.2.state with
  | .receive => (s.2.receive onRequest t.alloc t.recv).map fun o => ((s.1, o.connection), o.events)
  | .send => (s.2.send t.send).map fun o => ((s.1, o.connection), o.events)
  | .dispose => .ok (s.2.dispose s.1, [.disposed])

end HTTPServerConnection
