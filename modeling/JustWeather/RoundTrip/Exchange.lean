import JustWeather.Lib.HttpClient.Telling
import JustWeather.Machinery.Wire
import JustWeather.RoundTrip.Request
import JustWeather.Server.WeatherServer.Serving

/-!
# RoundTrip/Exchange — a client and the server, and the bytes between them

A client whose socket the server accepts as its connection number `b`.  The two step in any order,
each with whatever its own side of the world does, and the server serves its other connections in
between (`exchange`).  Whatever that order, the client tells its caller nothing but a failure, or
what the server answers to the request the client's URL stands for (`agrees`).
-/

open CLib MessageHead

namespace Exchange

variable {κ : Type} {b : ℕ}

/-! ## The two parties -/

/-- The client, until it is freed. -/
def client (κ : Type) :
    Trace.Party HttpClientTick (HttpClientRun κ) HttpClient.Event Fault Byte Byte where
  step := HttpClientRun.work
  may _ r := !r.freed
  takes := HttpClientRun.takes
  gives _ _ evs := HttpClient.acceptedBytes evs

/-- What a tick of the server brings to connection number `b`. -/
def brings (b : ℕ) (t : ServerTick) (s : WeatherServer) : Option ConnectionTick :=
  (WeatherServer.component b).own t s

/-- Connection number `b` is at the point of calling `recv`. -/
def listens (b : ℕ) (s : WeatherServer) : Bool :=
  s.connections[b]?.any fun c => c.connection.state = .receive

/-- The server, as connection number `b` has it: a turn in which there is no `recv` brings no
bytes. -/
def server (b : ℕ) :
    Trace.Party ServerTick WeatherServer HTTPServerConnection.Event Fault Byte Byte where
  step := WeatherServer.work
  may t s := (brings b t s).isNone || listens b s || t.connection.recv.bytes.isEmpty
  takes t s := (brings b t s).toList.flatMap fun k => k.tick.recv.bytes
  gives t s evs :=
    if (brings b t s).isSome then
      ServedConnection.sent (evs.map HTTPServerConnection.Event.plain)
    else []

/-- A step of the client or of the server. -/
def exchange (κ : Type) (b : ℕ) := Trace.wire (client κ) (server b)

/-- The client `http_client_get` registers, and the server. -/
def start (url : List Byte) (callback : Bool) (timeout : UInt64) (task : TaskHandle)
    (smw : Smw κ) : Trace.Wired (HttpClientRun κ) WeatherServer Byte Byte :=
  .start (HttpClientRun.zeroed url callback timeout task smw) WeatherServer.initiate

/-! ## What the server was given, and what it gave -/

/-- A turn in which there is memory stores what it brings. -/
theorem taken_server {ticks : List ServerTick}
    (h : ∀ k ∈ WeatherServer.turns b ticks, k.tick.alloc.readBuffer = true) :
    (server b).taken ticks WeatherServer.initiate
      = ServedConnection.stored (WeatherServer.turns b ticks) := by
  have hgather : (server b).taken ticks WeatherServer.initiate
      = (WeatherServer.turns b ticks).flatMap fun k => k.tick.recv.bytes :=
    (Trace.gather_flatMap _ _ _ _).symm
  rw [hgather, ServedConnection.stored, HTTPServerConnection.received, List.map_map,
    ← List.flatMap_def]
  refine List.flatMap_congr fun k hk => ?_
  rw [Function.comp_apply, HTTPServerConnection.stored, h k hk, if_pos rfl]

theorem given_server (ticks : List ServerTick) :
    (server b).given ticks WeatherServer.initiate
      = ServedConnection.sent (WeatherServer.deeds b ticks) := by
  rw [Trace.Party.given, ServedConnection.sent, WeatherServer.deeds, Trace.Component.events,
    Trace.gather_flatMap]
  congr 1
  funext t s
  have hgives : ∀ evs, (server b).gives t s evs
      = if ((WeatherServer.component b).own t s).isSome then
          ServedConnection.sent (evs.map HTTPServerConnection.Event.plain) else [] := fun _ => rfl
  have hstep : (server b).step = WeatherServer.work := rfl
  rw [Trace.Party.gift, Trace.Component.deed, hstep]
  simp only [hgives]
  rcases (WeatherServer.component b).own t s with _ | k
  · rcases WeatherServer.work t s with f | ⟨s', evs⟩ <;> rfl
  · rcases WeatherServer.work t s with f | ⟨s', evs⟩ <;> rfl

theorem given_client {r r' : HttpClientRun κ} {ticks : List HttpClientTick}
    {evs : List HttpClient.Event}
    (h : Trace.run HttpClientRun.work ticks r = .ok (r', evs)) :
    (client κ).given ticks r = HttpClient.acceptedBytes evs :=
  Trace.Party.given_eq_flatMap (P := client κ) (fun _ _ _ => rfl) h

/-- A turn is one of the ticks. -/
theorem exists_tick {ticks : List ServerTick} {k : ConnectionTick}
    (h : k ∈ WeatherServer.turns b ticks) : ∃ t ∈ ticks, k = t.forConnection := by
  obtain ⟨t, ht, s, hk⟩ := Trace.exists_of_mem_gather h
  refine ⟨t, ht, ?_⟩
  obtain ⟨c, -, hin⟩ := Option.bind_eq_some_iff.mp (Option.mem_toList.mp hk)
  change (if s.turn t = some (.connection b) then some t.forConnection else none) = some k at hin
  split at hin
  · exact (Option.some.inj hin).symm
  · cases hin

/-! ## What the client was told -/

open HttpClient HttpClientRun WeatherServerInstance

/-- The calls that tell of an answer: the short report, and the body or the error. -/
def answerCalls (callback : Bool) (a : Answer) : List HttpClient.Event :=
  let d := { idle with callback, statusCode := a.status, body := some a.body }
  info d ++ report d

theorem notify_congr {c d : HttpClient} (h : c.callback = d.callback) (event response : List Byte) :
    c.notify event response = d.notify event response := by
  rw [notify, notify, h]

theorem info_congr {c d : HttpClient} (hcb : c.callback = d.callback)
    (hstatus : c.statusCode = d.statusCode) (hbody : c.body.getD [] = d.body.getD []) :
    info c = info d ∧ report c = report d := by
  rw [info, info, responseInfo, responseInfo, report, report, hstatus, hbody, notify_congr hcb,
    notify_congr hcb, notify_congr hcb]
  exact ⟨rfl, rfl⟩

/-- **A client that has decoded the start of a response has the answer.** -/
theorem Decodes.answer {read : List Byte} {d : HttpClient} {a : Answer}
    {w : HTTPServerConnection.Response} (hd : Decodes read d) (hw : Carries w a)
    (hpre : read <+: w.writeBuffer.take w.writeSize) :
    d.statusCode = a.status ∧ d.body.getD [] = a.body := by
  obtain ⟨h, hm, hstatus, hbody⟩ := hd
  obtain ⟨reason, contentType, hr, ht, hwritten⟩ := hw.written
  have hlen : a.body.length < sizeMod := by
    have := congrArg List.length hwritten
    rw [List.length_take_of_le hw.le, List.length_append] at this
    have := hw.lt
    omega
  obtain ⟨rest, hrest⟩ := hpre
  have hmsg := Framing.message_append hm rest
  rw [hrest, hwritten, message_headText hw.status.1 hw.status.2 hr ht hlen] at hmsg
  obtain rfl := Option.some.inj hmsg
  -- the message ends where the response does, so nothing of it is still on its way
  have hle := (message_framing_iff.mp hm).2
  have hfull : read = w.writeBuffer.take w.writeSize := by
    rw [← hrest]
    have htotal := congrArg List.length hrest
    rw [hwritten, List.length_append, List.length_append] at htotal
    change (headText (statusText a.status reason) contentType (decimal a.body.length)).length +
      a.body.length ≤ read.length at hle
    have hnil : rest = [] := List.length_eq_zero_iff.mp (by omega)
    rw [hnil, List.append_nil]
  refine ⟨hstatus, ?_⟩
  rw [hbody, hfull, hwritten]
  change (if a.body.length = 0 then none else some (((_ ++ a.body).drop (List.length _)).take
    a.body.length)).getD [] = a.body
  rw [List.drop_left, List.take_length]
  split
  · rename_i hzero
    exact (List.length_eq_zero_iff.mp hzero).symm
  · rfl

/-- **What was told agrees with the server**, which has taken the ticks `js`: it is nothing, or a
failure, or tells of the answer to the request of connection number `b`, which the server read off
the start of the client's. -/
def Agrees (b : ℕ) (callback : Bool) (request : List Byte) (js : List ServerTick)
    (told : List HttpClient.Event) : Prop :=
  told = [] ∨ (∃ c, TellsFailure c told) ∨
    ∃ k ∈ WeatherServer.turns b js, ∃ r,
      ServedConnection.requested (WeatherServer.deeds b js) = [r] ∧
      (∃ s, s <+: request ∧ ServedConnection.IsRequestOf s r) ∧
      told <+: answerCalls callback (answer k.current r)

variable {url : List Byte} {callback : Bool} {timeout : UInt64} {task : TaskHandle} {smw : Smw κ}
  {is : List HttpClientTick} {js : List ServerTick}
  {w : Trace.Wired (HttpClientRun κ) WeatherServer Byte Byte}
  {evs : List (HttpClient.Event ⊕ HTTPServerConnection.Event)}

/-- The bytes a client has read are the start of the answer to its request. -/
theorem exists_carries {read : List Byte}
    (hmem : ∀ t ∈ js, t.connection.alloc.readBuffer = true)
    (hstory : Trace.Story (client κ) (server b) (zeroed url callback timeout task smw)
      WeatherServer.initiate is js w evs)
    (hsent : acceptedBytes (Trace.nearEvents evs) <+: requestOf url)
    (hread : read = (client κ).taken is (zeroed url callback timeout task smw)) (hne : read ≠ []) :
    ∃ k ∈ WeatherServer.turns b js, ∃ r x,
      ServedConnection.requested (WeatherServer.deeds b js) = [r] ∧
      (∃ s, s <+: requestOf url ∧ ServedConnection.IsRequestOf s r) ∧
      Carries x (answer k.current r) ∧ read <+: x.writeBuffer.take x.writeSize := by
  have hturns : ∀ k ∈ WeatherServer.turns b js, k.tick.alloc.readBuffer = true := by
    intro k hk
    obtain ⟨t, ht, rfl⟩ := exists_tick hk
    exact hmem t ht
  have htoFar := hstory.toFar
  rw [given_client hstory.near, taken_server hturns] at htoFar
  have htoNear := hstory.toNear
  rw [given_server, ← hread] at htoNear
  have hreads : read <+: ServedConnection.sent (WeatherServer.deeds b js) := ⟨_, htoNear.symm⟩
  have hstored : ServedConnection.stored (WeatherServer.turns b js) <+: requestOf url :=
    (show _ <+: acceptedBytes (Trace.nearEvents evs) from ⟨_, htoFar.symm⟩).trans hsent
  rcases WeatherServer.isServed_of_run (b := b) hstory.far with ⟨-, hnone, -⟩ |
    ⟨-, -, -, -, hnone, -⟩ |
    ⟨k, r, x, hreq, ⟨pre, post, hsplit, hr⟩, hx, hpre, -⟩
  · rw [hnone] at hreads
    exact absurd (List.prefix_nil.mp hreads) hne
  · rw [hnone] at hreads
    exact absurd (List.prefix_nil.mp hreads) hne
  · have hk : k ∈ WeatherServer.turns b js := by rw [hsplit]; simp
    refine ⟨k, hk, r, x, hreq, ⟨_, ?_, hr⟩, hx, hreads.trans hpre⟩
    have hhead : ServedConnection.stored (pre ++ [k]) <+:
        ServedConnection.stored (WeatherServer.turns b js) := by
      refine ⟨ServedConnection.stored post, ?_⟩
      rw [hsplit, ServedConnection.stored, ServedConnection.stored, ServedConnection.stored,
        ← HTTPServerConnection.received_append, ← List.map_append, List.append_assoc]
      rfl
    exact hhead.trans hstored

/-- **What the client has told agrees with the server**, whatever the request. -/
theorem exists_told (hnul : (0 : Byte) ∉ url) (hbody : ∀ t ∈ is, t.alloc.body = true)
    (hmem : ∀ t ∈ js, t.connection.alloc.readBuffer = true)
    (hstory : Trace.Story (client κ) (server b) (zeroed url callback timeout task smw)
      WeatherServer.initiate is js w evs) :
    ∃ told last, calls (Trace.nearEvents evs) = told ++ last ∧
      (last = [] ∨ w.near.freed = true ∧ last = timeoutCall callback) ∧
      Agrees b callback (requestOf url) js told := by
  obtain ⟨hsent, -, told, last, htold, hcalls, hlast⟩ :=
    (lives_of_run hnul hbody hstory.near).exists_told
  refine ⟨told, last, hcalls, hlast, ?_⟩
  have hanswer : ∀ {d : HttpClient}, d.callback = callback →
      Decodes (HttpClientRun.taken is (zeroed url callback timeout task smw)) d →
      ∃ k ∈ WeatherServer.turns b js, ∃ r,
        ServedConnection.requested (WeatherServer.deeds b js) = [r] ∧
        (∃ s, s <+: requestOf url ∧ ServedConnection.IsRequestOf s r) ∧
        info d ++ report d = answerCalls callback (answer k.current r) := by
    intro d hcb hd
    have hne : HttpClientRun.taken is (zeroed url callback timeout task smw) ≠ [] := by
      rintro hnil
      obtain ⟨h, hm, -⟩ := hd
      rw [hnil] at hm
      cases hm
    obtain ⟨k, hk, r, x, hreq, hr, hx, hpre⟩ := exists_carries hmem hstory hsent rfl hne
    obtain ⟨hstatus, hbody⟩ := Decodes.answer hd hx hpre
    refine ⟨k, hk, r, hreq, hr, ?_⟩
    obtain ⟨hinfo, hreport⟩ := info_congr (d := { idle with
      callback, statusCode := (answer k.current r).status
      body := some (answer k.current r).body }) hcb hstatus hbody
    rw [hinfo, hreport]
    rfl
  rcases htold with _ | ⟨c, -, hfail⟩ | ⟨d, hcb, hd⟩ | ⟨d, hcb, hd⟩
  · exact Or.inl rfl
  · exact Or.inr (Or.inl ⟨c, hfail⟩)
  · obtain ⟨k, hk, r, hreq, hr, hcalls⟩ := hanswer hcb hd
    exact Or.inr (Or.inr ⟨k, hk, r, hreq, hr, by rw [← hcalls]; exact List.prefix_append _ _⟩)
  · obtain ⟨k, hk, r, hreq, hr, hcalls⟩ := hanswer hcb hd
    exact Or.inr (Or.inr ⟨k, hk, r, hreq, hr, by rw [← hcalls]⟩)

/-! ## A plain URL -/

variable {u : Url} {inputs : List (HttpClientTick ⊕ ServerTick)}

/-- **The request a URL stands for**, as the server has it before it. -/
def asked (u : Url) : HTTPServerConnection :=
  { HTTPServerConnection.initiate 0 none with
    method := some (bytes "GET")
    requestPath := some u.path
    readBuffer := requestText u.path u.hostname }

theorem requestOf_of_parseUrl (hu : parseUrl url = some u) :
    requestOf url = requestText u.path u.hostname := by
  rw [requestOf, hu]

/-- **The server reads no request off the start of a plain one but the whole of it.** -/
theorem of_isRequestOf {s : List Byte} {r : HTTPServerConnection} (hnul : (0 : Byte) ∉ url)
    (hu : parseUrl url = some u) (hp : Plain u.path u.hostname) (hs : s <+: requestOf url)
    (hr : ServedConnection.IsRequestOf s r) :
    r.readBuffer = requestText u.path u.hostname ∧ r.method = some (bytes "GET") ∧
      r.requestPath = some u.path := by
  have hparsed := parsedUrl_of_parseUrl hnul hu
  rw [requestOf_of_parseUrl hu] at hs
  obtain ⟨rest, hrest⟩ := hs
  obtain ⟨h, hhead, hmethod, hpath, hle⟩ := hr.head
  have hwhole := headOf_append hhead rest
  rw [hrest, headOf_parsed hparsed hp.path_word hp.hostname_word] at hwhole
  obtain rfl := Option.some.inj hwhole
  refine ⟨?_, ?_, ?_⟩
  · rw [hr.readBuffer]
    have hlen := congrArg List.length hrest
    rw [List.length_append] at hlen
    have hmod : (requestText u.path u.hostname).length < sizeMod := by
      have := length_requestOf_lt hnul
      rw [requestOf_of_parseUrl hu] at this
      exact this.trans (by decide)
    dsimp only at hle
    rw [hp.length, sizeAdd_of_lt (by omega)] at hle
    have hnil : rest = [] := List.length_eq_zero_iff.mp (by omega)
    rw [← hrest, hnil, List.append_nil]
  · rw [hmethod, readRequest_method]
  · rw [hpath, readRequest_requestPath hparsed.path_ne_nil hp.path_le hp.path_word]

theorem answer_asked {r : HTTPServerConnection} (current : Current)
    (hread : r.readBuffer = requestText u.path u.hostname) (hmethod : r.method = some (bytes "GET"))
    (hpath : r.requestPath = some u.path) : answer current r = answer current (asked u) := by
  rw [answer, answer, hread, hmethod, hpath]
  rfl

/-- The request for an echo. -/
def echoRequest : List Byte := requestText (bytes "/echo") (bytes "a")

/-- A turn of the connection `3` is the task of, in which nothing runs out of memory. -/
def echoTick (t : HTTPServerConnection.Tick) : ServerTick :=
  ⟨3, false, .all, t, fun _ => (none, 500), true⟩

/-- The client asks for an echo, is accepted, gets it and tells of it. -/
def echoTicks : List (HttpClientTick ⊕ ServerTick) :=
  [.inl (.smooth 0), .inl (.smooth 0), .inl (.smooth 0), .inl (.smooth 0),
    .inr (WeatherServer.startTick 0),
    .inr (echoTick (HTTPServerConnection.readTick echoRequest (by decide) (by decide))),
    .inr (echoTick ⟨.wouldBlock, .all, .accepts ⟨intMax, Nat.lt_succ_self _⟩⟩),
    .inl { HttpClientTick.smooth 0 with
      recv := .data ⟨headText (bytes "200 OK") (bytes "text/plain") (decimal echoRequest.length) ++
        echoRequest, by decide, by decide +kernel⟩ },
    .inl (.smooth 0), .inl (.smooth 0)]

end Exchange
