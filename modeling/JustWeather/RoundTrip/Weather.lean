import JustWeather.RoundTrip.Exchange
import JustWeather.Server.OpenMeteoHandler.Provenance
import JustWeather.Server.WeatherService

/-!
# RoundTrip/Weather — the weather, from the transfer to the client's caller

A client whose URL is for `/v1/current`, the server, its handler with the cache directory, and the
connection between them, in whatever order they step (`weatherExchange`).  What the client tells its
caller is the answer the handler gave to just that query; and if that is a `200`, the weather in it
is that of a document that a transfer of the run got for the cache path of the place asked for
(`delivers`).
-/

open CLib MessageHead

namespace Exchange

open HttpClient HttpClientRun WeatherServerInstance
open OpenMeteoHandler (Backed Traced)

/-! ## The server with its handler -/

section

variable (κ : Type) {F D : Type} (x : Platform F D) (config : WeatherConfig)
  (render : Json D → List Byte) (b : ℕ)

/-- The server with its handler, as connection number `b` has it. -/
def service : Trace.Party ServiceTick (WeatherServer × World F D) HTTPServerConnection.Event Fault
    Byte Byte where
  step := WeatherService.work x config render
  may t s := (server b).may (t.forServer fun _ => (none, 500)) s.1
  takes t s := (server b).takes (t.forServer fun _ => (none, 500)) s.1
  gives t s evs := (server b).gives (t.forServer fun _ => (none, 500)) s.1 evs

/-- A step of the client, or of the server with its handler. -/
def weatherExchange := Trace.wire (client κ) (service x config render b)

variable {κ} in
/-- The client `http_client_get` registers, and the server over a cache directory. -/
def startOver (url : List Byte) (callback : Bool) (timeout : UInt64) (task : TaskHandle)
    (smw : Smw κ) (w₀ : World F D) :
    Trace.Wired (HttpClientRun κ) (WeatherServer × World F D) Byte Byte :=
  .start (HttpClientRun.zeroed url callback timeout task smw) (WeatherService.start w₀)

end

variable {κ F D : Type} {x : Platform F D} {config : WeatherConfig} {render : Json D → List Byte}
  {b : ℕ} {url query : List Byte} {callback : Bool} {timeout : UInt64} {task : TaskHandle}
  {smw : Smw κ} {is : List HttpClientTick} {js : List ServiceTick} {w₀ : World F D}
  {w : Trace.Wired (HttpClientRun κ) (WeatherServer × World F D) Byte Byte}
  {evs : List (HttpClient.Event ⊕ HTTPServerConnection.Event)}

theorem takes_forServer (current : Current) (t : ServiceTick) (s : WeatherServer) :
    (server b).takes (t.forServer current) s
      = (server b).takes (t.forServer fun _ => (none, 500)) s := by
  have htakes : ∀ t, (server b).takes t s
      = (brings b t s).toList.flatMap fun k => k.tick.recv.bytes :=
    fun _ => rfl
  rw [htakes, htakes, brings, brings, WeatherService.own_forServer]
  rcases (WeatherServer.component b).own (t.forServer fun _ => (none, 500)) s with _ | k <;> rfl

theorem gives_forServer (current : Current) (t : ServiceTick) (s : WeatherServer)
    (evs : List HTTPServerConnection.Event) : (server b).gives (t.forServer current) s evs
      = (server b).gives (t.forServer fun _ => (none, 500)) s evs := by
  have hgives : ∀ t, (server b).gives t s evs = if (brings b t s).isSome then
      ServedConnection.sent (evs.map HTTPServerConnection.Event.plain) else [] := fun _ => rfl
  rw [hgives, hgives, brings, brings, WeatherService.own_forServer, Option.isSome_map]

/-- **The story of a client and the server with its handler** is one of the client and the server
alone. -/
theorem story_server
    (hstory : Trace.Story (client κ) (service x config render b)
      (zeroed url callback timeout task smw) (WeatherService.start w₀) is js w evs) :
    Trace.Story (client κ) (server b) (zeroed url callback timeout task smw)
      WeatherServer.initiate is (WeatherService.serverTicks x config render b js w₀)
      ⟨w.near, w.far.1, w.toFar, w.toNear⟩ evs :=
  hstory.mimic (WeatherService.mimics_server _) (fun t s => takes_forServer _ t s.1)
    fun t s evs => gives_forServer _ t s.1 evs

/-- A tick of the server is one of the ticks, with an answer of the handler. -/
theorem exists_of_mem_serverTicks {t : ServerTick}
    (h : t ∈ WeatherService.serverTicks x config render b js w₀) :
    ∃ t' ∈ js, ∃ current, t = t'.forServer current := by
  obtain ⟨t', ht', s, ht⟩ := Trace.exists_of_mem_gather h
  exact ⟨t', ht', _, List.mem_singleton.mp ht⟩

/-! ## The weather -/

/-- **What an answer stands for**: the handler was asked for the query, and if it answered `200`,
the weather is from one of the transfers made by then. -/
structure StandsFor (x : Platform F D) (config : WeatherConfig) (render : Json D → List Byte)
    (query : List Byte) (e : OpenMeteoHandler.Exchange F D) (a : Answer) : Prop where
  asked : e.request.queryString = query
  answer : a = WeatherService.answerOf render e.handled
  weather : e.handled.statusCode = 200 → ∃ root, a = ⟨200, render root⟩ ∧
    Traced x config query e.after.fetches root

theorem standsFor_of_run {requests : List OpenMeteoHandler.Request}
    {es : List (OpenMeteoHandler.Exchange F D)} {w' : World F D} (hb : Backed x config w₀)
    (hrun : OpenMeteoHandler.run x config requests w₀ = .ok (w', es))
    {e : OpenMeteoHandler.Exchange F D} (he : e ∈ es) :
    StandsFor x config render e.request.queryString e
      (WeatherService.answerOf render e.handled) := by
  refine ⟨rfl, rfl, fun h200 => ?_⟩
  obtain ⟨root, hjson, htraced⟩ := OpenMeteoHandler.traced_of_run hb hrun e he h200
  refine ⟨root, ?_, htraced⟩
  rw [WeatherService.answerOf, WeatherService.answered, hjson, h200]
  rfl

variable {u : Url} {inputs : List (HttpClientTick ⊕ ServiceTick)}

/-- The path of a request for the weather. -/
def weatherPath : List Byte := bytes "/v1/current?lat=59.25&lon=18.0"

/-- The response to it, with `weather` for the text of the value. -/
def weatherResponse : List Byte :=
  headText (bytes "200 OK") (bytes "application/json") (decimal 7) ++ bytes "weather"

/-- A turn of the server in which nothing runs out of memory, and a transfer gets the document. -/
def serviceTick (task : TaskHandle) (t : HTTPServerConnection.Tick) : ServiceTick :=
  ⟨task, true, .all, t, true, (OpenMeteoHandler.requestAt 0 OpenMeteoApi.nearText true).env⟩

/-- The client asks for the weather, is accepted, gets it and tells of it. -/
def deliveryTicks : List (HttpClientTick ⊕ ServiceTick) :=
  [.inl (.smooth 0), .inl (.smooth 0), .inl (.smooth 0), .inl (.smooth 0),
    .inr (serviceTick 0 HTTPServerConnection.idleTick),
    .inr (serviceTick 3 (HTTPServerConnection.readTick (requestText weatherPath (bytes "a"))
      (by decide) (by decide +kernel))),
    .inr (serviceTick 3 ⟨.wouldBlock, .all, .accepts ⟨intMax, Nat.lt_succ_self _⟩⟩),
    .inl { HttpClientTick.smooth 0 with
      recv := .data ⟨weatherResponse, by decide +kernel, by decide +kernel⟩ },
    .inl (.smooth 0), .inl (.smooth 0)]

end Exchange
