import JustWeather.Lib.HttpClient.Progress
import JustWeather.RoundTrip.Exchange
import JustWeather.Server.WeatherServer.Progress

/-!
# RoundTrip/Completing — an exchange that nothing has broken can be completed

Wherever a client and the server are with each other, as long as the client has not given up and its
connection was not cut off, there is a way on that ends with the client telling the server's answer
(`completes`): the client finishes its request, the server reads it and answers, the client reads
the answer to its end.  So neither of the two is ever left waiting for good by the way the steps
fell, or by the way the bytes were cut.
-/

open CLib MessageHead HttpClient HttpClientRun WeatherServerInstance

namespace Exchange

variable {κ : Type} {b : ℕ} {url : List Byte} {callback : Bool} {timeout : UInt64}
  {task : TaskHandle} {smw : Smw κ} {inputs : List (HttpClientTick ⊕ ServerTick)}
  {w : Trace.Wired (HttpClientRun κ) WeatherServer Byte Byte}
  {evs : List (HttpClient.Event ⊕ HTTPServerConnection.Event)} {c : ServedConnection} {u : Url}

/-- **An exchange that is going on**: it came about with memory for everything, the client is there
and has time. -/
structure Going (b : ℕ) (url : List Byte) (callback : Bool) (timeout : UInt64) (task : TaskHandle)
    (smw : Smw κ) (inputs : List (HttpClientTick ⊕ ServerTick))
    (w : Trace.Wired (HttpClientRun κ) WeatherServer Byte Byte)
    (evs : List (HttpClient.Event ⊕ HTTPServerConnection.Event)) : Prop where
  run : Trace.run (exchange κ b) inputs (start url callback timeout task smw) = .ok (w, evs)
  body : ∀ t, .inl t ∈ inputs → t.alloc.body = true
  alloc : ∀ t, .inr t ∈ inputs → t.connection.alloc = .all
  live : w.near.freed = false
  time : HasTime w.near

/-- **Where the two are**: what the client has sent, the connection has stored or is on its way to
it; what the connection has sent, the client has read or is on its way to it. -/
structure Meets (callback : Bool) (url : List Byte) (inputs : List (HttpClientTick ⊕ ServerTick))
    (w : Trace.Wired (HttpClientRun κ) WeatherServer Byte Byte)
    (evs : List (HttpClient.Event ⊕ HTTPServerConnection.Event)) (c : ServedConnection)
    (sent read : List Byte) (ks : List ConnectionTick)
    (deeds : List HTTPServerConnection.Event) : Prop where
  lives : Lives callback url sent read (calls (Trace.nearEvents evs)) w.near
  life : Trace.run ServedConnection.work ks (ServedConnection.fresh c.plain.context)
    = .ok (c.plain, deeds)
  ticks : ∀ k ∈ ks, ∃ t, .inr t ∈ inputs ∧ k = t.forConnection
  shown : ∀ e ∈ deeds, e ∈ (Trace.farEvents evs).map HTTPServerConnection.Event.plain
  toFar : sent = ServedConnection.stored ks ++ w.toFar
  toNear : ServedConnection.sent deeds = read ++ w.toNear

theorem Going.exists_meets (hg : Going b url callback timeout task smw inputs w evs)
    (hnul : (0 : Byte) ∉ url) (hc : w.far.connections[b]? = some c) :
    ∃ sent read ks deeds, Meets callback url inputs w evs c sent read ks deeds := by
  obtain ⟨is, js, hstory, his, hjs⟩ := Trace.exists_story hg.run
  have hturns : ∀ k ∈ WeatherServer.turns b js, ∃ t, .inr t ∈ inputs ∧ k = t.forConnection := by
    intro k hk
    obtain ⟨t, ht, rfl⟩ := exists_tick hk
    exact ⟨t, hjs t ht, rfl⟩
  refine ⟨_, _, WeatherServer.turns b js, WeatherServer.deeds b js,
    lives_of_run hnul (fun t ht => hg.body t (his t ht)) hstory.near,
    WeatherServer.life_of_connection hstory.far hc, hturns, fun e he => ?_, ?_, ?_⟩
  · exact (WeatherServer.component b).mem_of_mem_events hstory.far he
  · have htoFar := hstory.toFar
    rwa [given_client hstory.near, taken_server] at htoFar
    intro k hk
    obtain ⟨t, ht, rfl⟩ := hturns k hk
    exact congrArg _ (hg.alloc t ht)
  · have htoNear := hstory.toNear
    rwa [given_server] at htoNear

/-! ## One step -/

/-- **A tick of the client**, while the clock stands still. -/
theorem Going.near {t : HttpClientTick} {r' : HttpClientRun κ} {evs' : List HttpClient.Event}
    (hg : Going b url callback timeout task smw inputs w evs) (hnul : (0 : Byte) ∉ url)
    (hbody : t.alloc.body = true) (ht : t.monTime = w.near.timer)
    (hpre : delivered t w.near.client <+: w.toNear) (hstate : w.near.client.state ≠ .dispose)
    (hw : w.near.dispatch t = .ok (r', evs')) :
    Going b url callback timeout task smw (inputs ++ [.inl t])
      { w with
        near := r'
        toFar := w.toFar ++ acceptedBytes evs'
        toNear := w.toNear.drop (delivered t w.near.client).length } (evs ++ evs'.map .inl) := by
  obtain ⟨is, js, hstory, his, -⟩ := Trace.exists_story hg.run
  have hlives := lives_of_run hnul (fun t ht => hg.body t (his t ht)) hstory.near
  obtain ⟨hwork, htakes⟩ := work_of_hasTime hg.time hg.live ht
  have hsteps := dispatch_steps (hlives.phase hg.live) hstate hw
  refine ⟨Trace.run_concat hg.run ?_, fun t' ht' => ?_, fun t' ht' => ?_,
    hsteps.freed.trans hg.live, hg.time.of_keeps (dispatch_keeps hw)⟩
  · have hstep := Trace.wire_inl (P := client κ) (Q := server b) (i := t) (w := w)
      (show (!w.near.freed) = true by rw [hg.live]; rfl)
      (show takes t w.near <+: w.toNear by rwa [htakes]) (hwork.trans hw)
    rw [show (client κ).takes t w.near = delivered t w.near.client from htakes] at hstep
    exact hstep
  · rcases List.mem_append.mp ht' with ht' | ht'
    · exact hg.body t' ht'
    · cases List.mem_singleton.mp ht'
      exact hbody
  · rcases List.mem_append.mp ht' with ht' | ht'
    · exact hg.alloc t' ht'
    · cases List.mem_singleton.mp ht'

/-- **A turn of the connection.** -/
theorem Going.far {t : ServerTick} {d : ServedConnection}
    {evs' : List HTTPServerConnection.Event}
    (hg : Going b url callback timeout task smw inputs w evs)
    (hturn : w.far.turn t = some (.connection b)) (hc : w.far.connections[b]? = some c)
    (halloc : t.connection.alloc = .all)
    (hmay : c.connection.state = .receive ∨ t.connection.recv.bytes = [])
    (hpre : t.connection.recv.bytes <+: w.toFar)
    (h : c.plain.work t.forConnection = .ok (d, evs')) :
    ∃ s' c', ∃ evs'' : List HTTPServerConnection.Event,
      Going b url callback timeout task smw (inputs ++ [.inr t])
        { w with
          far := s'
          toNear := w.toNear ++ ServedConnection.sent evs'
          toFar := w.toFar.drop t.connection.recv.bytes.length } (evs ++ evs''.map .inr) ∧
      s'.connections[b]? = some c' ∧ c'.plain = d ∧
      (c.connection.state ≠ .dispose → s'.smw = w.far.smw) := by
  obtain ⟨s', c', evs'', hwork, hevs, hc', hd, hsmw⟩ := WeatherServer.exists_work hturn hc h
  have hbrings : brings b t w.far = some t.forConnection := by
    rw [brings, Trace.Component.own_of_part (c := c.plain)]
    · exact if_pos hturn
    · exact congrArg (Option.map _) hc
  have htakes : (server b).takes t w.far = t.connection.recv.bytes := by
    change (brings b t w.far).toList.flatMap _ = _
    rw [hbrings]
    exact List.append_nil _
  have hgives : (server b).gives t w.far evs'' = ServedConnection.sent evs' := by
    change (if (brings b t w.far).isSome then _ else _) = _
    rw [hbrings, ← hevs]
    rfl
  refine ⟨s', c', evs'', ⟨Trace.run_concat hg.run ?_, fun t' ht' => ?_, fun t' ht' => ?_, hg.live,
    hg.time⟩, hc', hd, hsmw⟩
  · have hstep := Trace.wire_inr (P := client κ) (Q := server b) (j := t) (w := w) ?_
      (by rwa [htakes]) hwork
    · rwa [htakes, hgives] at hstep
    · change ((brings b t w.far).isNone || listens b w.far
        || t.connection.recv.bytes.isEmpty) = true
      rcases hmay with hstate | hnil
      · simp [listens, hc, hstate]
      · simp [hnil]
  · rcases List.mem_append.mp ht' with ht' | ht'
    · exact hg.body t' ht'
    · cases List.mem_singleton.mp ht'
  · rcases List.mem_append.mp ht' with ht' | ht'
    · exact hg.alloc t' ht'
    · cases List.mem_singleton.mp ht'
      exact halloc

/-! ## The client comes to read -/

theorem Going.exists_lives (hg : Going b url callback timeout task smw inputs w evs)
    (hnul : (0 : Byte) ∉ url) :
    ∃ sent read, Lives callback url sent read (calls (Trace.nearEvents evs)) w.near := by
  obtain ⟨is, js, hstory, his, -⟩ := Trace.exists_story hg.run
  exact ⟨_, _, lives_of_run hnul (fun t ht => hg.body t (his t ht)) hstory.near⟩

/-- How many ticks there are before the client reads. -/
def ticksLeft : HttpClientState → ℕ
  | .init => 4
  | .connect => 3
  | .connecting => 2
  | .writing => 1
  | _ => 0

theorem onward_of_early {state : HttpClientState} (h : state ∈ early) :
    ticksLeft (onward state) + 1 = ticksLeft state ∧
      (onward state ∈ early ∨ onward state = .reading) ∧ state ≠ .reading ∧ state ≠ .dispose := by
  cases state <;> first | decide | exact absurd h (by decide)

/-- **The client comes to read.** -/
theorem Going.exists_reading {n : ℕ} (hg : Going b url callback timeout task smw inputs w evs)
    (hnul : (0 : Byte) ∉ url) (hu : parseUrl url ≠ none)
    (hstate : w.near.client.state ∈ early ∨ w.near.client.state = .reading)
    (hn : ticksLeft w.near.client.state = n) : ∃ inputs' w' evs', inputs <+: inputs' ∧
      Going b url callback timeout task smw inputs' w' evs' ∧ w'.near.client.state = .reading ∧
      w'.far = w.far ∧ Trace.farEvents evs' = Trace.farEvents evs := by
  induction n generalizing inputs w evs with
  | zero =>
    rcases hstate with hstate | hstate
    · have := (onward_of_early hstate).1
      omega
    · exact ⟨inputs, w, evs, List.prefix_rfl, hg, hstate, rfl, rfl⟩
  | succ n ih =>
    rcases hstate with hstate | hstate
    · obtain ⟨hleft, hnext, hread, hdisp⟩ := onward_of_early hstate
      obtain ⟨sent, read, hlives⟩ := hg.exists_lives hnul
      obtain ⟨r', evs', hw, hr'⟩ := hlives.exists_onward hnul hu hg.live hstate w.near.timer
      have hgoing := hg.near hnul rfl rfl (by rw [delivered_of_state hread]; exact List.nil_prefix)
        hdisp hw
      rw [← hr'] at hnext hleft
      obtain ⟨inputs', w', evs'', hpre, hgoing', hstate', hfar, hevs⟩ := ih hgoing hnext
        (by change ticksLeft r'.client.state = n; omega)
      refine ⟨inputs', w', evs'', (List.prefix_append _ _).trans hpre, hgoing', hstate', hfar, ?_⟩
      rw [hevs, Trace.farEvents_append, Trace.farEvents_inl, List.append_nil]
    · rw [hstate] at hn
      cases hn

/-! ## The connection answers -/

/-- The head of the request of a plain URL. -/
theorem bare_request (hnul : (0 : Byte) ∉ url) (hu : parseUrl url = some u)
    (hp : Plain u.path u.hostname) : ∃ head, ServedConnection.Bare (requestOf url) head ∧
      head.fields.requestPath.length ≤ 255 := by
  have hparsed := parsedUrl_of_parseUrl hnul hu
  have hlen := length_requestOf_lt hnul
  rw [requestOf_of_parseUrl hu] at hlen ⊢
  refine ⟨_, ⟨headOf_parsed hparsed hp.path_word hp.hostname_word, hp.length, rfl, by omega⟩, ?_⟩
  dsimp only
  rw [readRequest_requestPath hparsed.path_ne_nil hp.path_le hp.path_word]
  exact hp.path_le

/-- The connection is ready to be served: it has its instance, and the scheduler has its task. -/
structure Ready (b : ℕ) (s : WeatherServer) (c : ServedConnection) : Prop where
  connection : s.connections[b]? = some c
  context : c.context.isSome
  registered : WeatherServer.Registered b s

/-- The connection after a turn is ready again. -/
theorem Ready.of_work {s' : WeatherServer} {c' d : ServedConnection} {k : ConnectionTick}
    {evs' : List HTTPServerConnection.Event} (h : Ready b w.far c)
    (hwork : c.plain.work k = .ok (d, evs')) (hc' : s'.connections[b]? = some c')
    (hd : c'.plain = d) (hsmw : s'.smw = w.far.smw) : Ready b s' c' := by
  refine ⟨hc', ?_, ?_⟩
  · have hctx := ServedConnection.context_of_work hwork
    rw [← hd] at hctx
    have hsome := congrArg Option.isSome hctx
    change (c'.context.map _).isSome = (c.context.map _).isSome at hsome
    rw [Option.isSome_map, Option.isSome_map] at hsome
    exact hsome.trans h.context
  · obtain ⟨task, htask⟩ := h.registered
    exact ⟨task, by rwa [hsmw]⟩

/-- A chunk from the front of a queue, after what was taken of it before. -/
theorem exists_chunk {before queue full : List Byte} {size : ℕ} (h : before ++ queue = full)
    (hne : queue ≠ []) (hsize : 4 ≤ size) (hfull : 4 ≤ full.length) : ∃ bs, bs ≠ [] ∧
      bs.length ≤ size ∧ bs <+: queue ∧ before ++ bs <+: full ∧ 4 ≤ (before ++ bs).length := by
  have hpos := List.length_pos_iff.mpr hne
  have hlen := congrArg List.length h
  rw [List.length_append] at hlen
  refine ⟨queue.take size, ?_, List.length_take_le _ _, List.take_prefix _ _, ?_, ?_⟩
  · rw [← List.length_pos_iff, List.length_take]
    omega
  · rw [← h]
    exact (List.prefix_append_right_inj before).mpr (List.take_prefix _ _)
  · rw [List.length_append, List.length_take]
    omega

/-- **A turn that brings the next chunk of the request.** -/
theorem Going.exists_receive (hg : Going b url callback timeout task smw inputs w evs)
    (hnul : (0 : Byte) ∉ url) (hu : parseUrl url = some u) (hp : Plain u.path u.hostname)
    (hread : w.near.client.state = .reading) (hready : Ready b w.far c)
    (hstate : c.connection.state = .receive) : ∃ inputs' w' evs' c',
      inputs <+: inputs' ∧ Going b url callback timeout task smw inputs' w' evs' ∧
      w'.near = w.near ∧ Ready b w'.far c' ∧ w'.toFar.length < w.toFar.length ∧
      (c'.connection.state = .receive ∨
        c'.connection.state = .send ∧ c'.connection.writeBuffer.isSome) := by
  obtain ⟨head, hbare, hpath⟩ := bare_request hnul hu hp
  obtain ⟨sent, read, ks, deeds, hm⟩ := hg.exists_meets hnul hready.connection
  obtain ⟨-, -, -, -, hsent⟩ := hm.lives.exists_waiting hg.live hread
  have hqueue := hm.toFar.symm.trans hsent
  have halloc : ∀ k ∈ ks, k.tick.alloc = .all := by
    intro k hk
    obtain ⟨t, ht, rfl⟩ := hm.ticks k hk
    exact hg.alloc t ht
  obtain ⟨hw, hcomp, -⟩ := ServedConnection.waits_of_run hm.life halloc hstate
  have hne : w.toFar ≠ [] := by
    intro hnil
    rw [hnil, List.append_nil] at hqueue
    cases hcomp.symm.trans ((hbare.complete_iff (hqueue ▸ List.prefix_rfl) hw).mpr hqueue)
  have h4 : 4 ≤ (requestOf url).length := by
    have := (bodyStart_bounds hbare.headed).1
    rwa [hbare.bodyStart] at this
  obtain ⟨bs, hbs, hle, hpre, hstored, hfour⟩ :=
    exists_chunk hqueue hne (show 4 ≤ HTTPServerConnection.chunkSize by decide) h4
  have hctx : c.plain.context.isSome := by
    change (c.context.map _).isSome
    rw [Option.isSome_map]
    exact hready.context
  obtain ⟨d, evs', hwork, hd⟩ :=
    ServedConnection.exists_receive hbare hw hctx hpath hbs hle hstored hfour
  obtain ⟨handle, hturn⟩ := hready.registered
  obtain ⟨s', c', evs'', hg', hc', hplain, hsmw⟩ := hg.far
    (t := ⟨handle, false, .all, (ServedConnection.chunkTurn bs hbs hle).tick,
      (ServedConnection.chunkTurn bs hbs hle).current, true⟩)
    hturn hready.connection rfl (Or.inl hstate) hpre hwork
  have hstate' : c'.connection.state = d.connection.state := by
    rw [← hplain]
    rfl
  have hbuf : c'.connection.writeBuffer = d.connection.writeBuffer := by
    rw [← hplain]
    rfl
  refine ⟨_, _, _, c', List.prefix_append _ _, hg', rfl,
    hready.of_work hwork hc' hplain (hsmw (by simp [hstate])), ?_, ?_⟩
  · have := List.length_pos_iff.mpr hbs
    have := hpre.length_le
    change (w.toFar.drop bs.length).length < w.toFar.length
    rw [List.length_drop]
    omega
  · rw [hstate', hbuf]
    split at hd
    · exact Or.inr hd
    · exact Or.inl hd

/-- **The connection reads the request**, and has a response to it. -/
theorem Going.exists_answering {n : ℕ} (hg : Going b url callback timeout task smw inputs w evs)
    (hnul : (0 : Byte) ∉ url) (hu : parseUrl url = some u) (hp : Plain u.path u.hostname)
    (hread : w.near.client.state = .reading) (hready : Ready b w.far c)
    (hstate : c.connection.state = .receive) (hn : w.toFar.length < n) : ∃ inputs' w' evs' c',
      inputs <+: inputs' ∧ Going b url callback timeout task smw inputs' w' evs' ∧
      w'.near = w.near ∧ Ready b w'.far c' ∧ c'.connection.state = .send ∧
      c'.connection.writeBuffer.isSome := by
  induction n generalizing inputs w evs c with
  | zero => exact absurd hn (Nat.not_lt_zero _)
  | succ n ih =>
    obtain ⟨inputs₁, w₁, evs₁, c₁, hpre, hg₁, hnear, hready₁, hless, hstate₁ | hsend⟩ :=
      hg.exists_receive hnul hu hp hread hready hstate
    · obtain ⟨inputs₂, w₂, evs₂, c₂, hpre₂, hg₂, hnear₂, hrest⟩ :=
        ih hg₁ (by rw [hnear]; exact hread) hready₁ hstate₁ (by omega)
      exact ⟨inputs₂, w₂, evs₂, c₂, hpre.trans hpre₂, hg₂, hnear₂.trans hnear, hrest⟩
    · exact ⟨inputs₁, w₁, evs₁, c₁, hpre, hg₁, hnear, hready₁, hsend⟩

/-! ## The connection sends its response -/

/-- **The connection has sent its response**: all of it is before the offset, or the connection was
given up for no other reason. -/
def Finished (c : ServedConnection)
    (evs : List (HttpClient.Event ⊕ HTTPServerConnection.Event)) : Prop :=
  (c.connection.writeBuffer.isSome ∧ c.connection.writeSize ≤ c.connection.writeOffset) ∨
    (c.connection.state = .dispose ∧ .sendError ∉ Trace.farEvents evs)

theorem plain_eq_sendError {e : HTTPServerConnection.Event} (h : e.plain = .sendError) :
    e = .sendError := by
  cases e <;> first | rfl | cases h

theorem writeBuffer_of_waits {A : HTTPServerConnection.ReceiveAlloc → Prop} {s : List Byte}
    {r : HTTPServerConnection} (hw : HTTPServerConnection.Waits A 0 none s r) :
    r.writeBuffer = none := by
  obtain ⟨rfl, -⟩ | ⟨a, h, -, -, rfl⟩ := hw <;> rfl

/-- A connection that is finished has sent the whole of its response. -/
theorem Meets.exists_full {sent read : List Byte} {ks : List ConnectionTick}
    {deeds : List HTTPServerConnection.Event}
    (hm : Meets callback url inputs w evs c sent read ks deeds) (hf : Finished c evs) :
    ∃ k r x, k ∈ ks ∧ Carries x (answer k.current r) ∧
      ServedConnection.sent deeds = x.writeBuffer.take x.writeSize := by
  have hno : .sendError ∈ deeds → .sendError ∉ Trace.farEvents evs → False := by
    intro he hnone
    obtain ⟨e, hmem, heq⟩ := List.mem_map.mp (hm.shown _ he)
    exact hnone (plain_eq_sendError heq ▸ hmem)
  have hmem : ∀ {k r o}, ServedConnection.Dispatched ks k r o → k ∈ ks := by
    rintro k r o ⟨⟨pre, post, rfl, -⟩, -⟩
    simp
  rcases ServedConnection.phase_of_run hm.life with ⟨hw, -, -⟩ | ⟨k, r, -, hstate, hbuf, -⟩ |
    ⟨k, r, x, hd, hbuf, hsize, hstate, hle, -, hsent, -⟩ |
    ⟨k, r, x, hd, -, hbuf, -, -, hdone⟩
  · exfalso
    rcases hf with ⟨hsome, -⟩ | ⟨hdisp, -⟩
    · cases hsome.symm.trans (congrArg Option.isSome
        (writeBuffer_of_waits (r := c.plain.connection) hw))
    · cases hw.state.symm.trans hdisp
  · exfalso
    rcases hf with ⟨hsome, -⟩ | ⟨hdisp, -⟩
    · cases hsome.symm.trans (congrArg Option.isSome hbuf)
    · cases hstate.symm.trans hdisp
  · refine ⟨k, r, x, hmem hd, WeatherServer.carries_of_dispatched hd, ?_⟩
    have hall : c.plain.connection.writeOffset = x.writeSize := by
      rcases hf with ⟨-, hge⟩ | ⟨hdisp, hnone⟩
      · rw [← hsize]
        exact le_antisymm (hsize ▸ hle) hge
      · rcases hstate with hstate | ⟨-, hall | he⟩
        · cases hstate.symm.trans hdisp
        · exact hall
        · exact (hno he hnone).elim
    rw [hsent, hall]
  · refine ⟨k, r, x, hmem hd, WeatherServer.carries_of_dispatched hd, ?_⟩
    rcases hf with ⟨hsome, -⟩ | ⟨-, hnone⟩
    · cases hsome.symm.trans (congrArg Option.isSome hbuf)
    · exact hdone.resolve_right fun he => hno he hnone

/-- A response is no longer than its block. -/
theorem Meets.writeSize_le {sent read buffer : List Byte} {ks : List ConnectionTick}
    {deeds : List HTTPServerConnection.Event}
    (hm : Meets callback url inputs w evs c sent read ks deeds)
    (hbuffer : c.connection.writeBuffer = some buffer) :
    c.connection.writeSize ≤ buffer.length := by
  rcases ServedConnection.phase_of_run hm.life with ⟨hw, -, -⟩ | ⟨k, r, -, -, hbuf, -⟩ |
    ⟨k, r, x, hd, hbuf, hsize, -⟩ | ⟨k, r, x, hd, -, hbuf, -⟩
  · cases (writeBuffer_of_waits hw).symm.trans hbuffer
  · cases hbuf.symm.trans hbuffer
  · obtain rfl := Option.some.inj (hbuf.symm.trans hbuffer)
    have hle := (WeatherServer.carries_of_dispatched hd).le
    rwa [← hsize] at hle
  · cases hbuf.symm.trans hbuffer

/-- **The connection sends its response.** -/
theorem Going.exists_finished {n : ℕ} (hg : Going b url callback timeout task smw inputs w evs)
    (hnul : (0 : Byte) ∉ url) (hready : Ready b w.far c) (hbuf : c.connection.writeBuffer.isSome)
    (hstate : c.connection.state = .send ∨ c.connection.writeSize ≤ c.connection.writeOffset)
    (hn : c.connection.writeSize - c.connection.writeOffset < n) : ∃ inputs' w' evs' c',
      inputs <+: inputs' ∧ Going b url callback timeout task smw inputs' w' evs' ∧
      w'.near = w.near ∧ w'.far.connections[b]? = some c' ∧ Finished c' evs' := by
  induction n generalizing inputs w evs c with
  | zero => exact absurd hn (Nat.not_lt_zero _)
  | succ n ih =>
    by_cases hdone : c.connection.writeSize ≤ c.connection.writeOffset
    · exact ⟨inputs, w, evs, c, List.prefix_rfl, hg, rfl, hready.connection, Or.inl ⟨hbuf, hdone⟩⟩
    · have hsend := hstate.resolve_right hdone
      obtain ⟨buffer, hbuffer⟩ := Option.isSome_iff_exists.mp hbuf
      obtain ⟨_, _, _, _, hm⟩ := hg.exists_meets hnul hready.connection
      have hle := hm.writeSize_le hbuffer
      obtain ⟨d, evs', hwork, hb, hs, hoff, hnext⟩ :=
        ServedConnection.exists_send (c := c.plain) hsend hbuffer (Nat.not_le.mp hdone) hle
      obtain ⟨handle, hturn⟩ := hready.registered
      obtain ⟨s', c', evs'', hg', hc', hplain, hsmw⟩ := hg.far
        (t := ⟨handle, false, .all, ServedConnection.sendTurn.tick,
          ServedConnection.sendTurn.current, true⟩)
        hturn hready.connection rfl (Or.inr rfl) List.nil_prefix hwork
      have hready' := hready.of_work hwork hc' hplain (hsmw (by simp [hsend]))
      rw [← hplain] at hb hs hoff hnext
      obtain ⟨inputs₂, w₂, evs₂, c₂, hpre₂, hg₂, hnear₂, hrest⟩ :=
        ih hg' hready' ((congrArg Option.isSome hb).trans hbuf) hnext (by
          change c'.connection.writeSize = c.connection.writeSize at hs
          change c.connection.writeOffset < c'.connection.writeOffset at hoff
          omega)
      exact ⟨inputs₂, w₂, evs₂, c₂, (List.prefix_append _ _).trans hpre₂, hg₂, hnear₂, hrest⟩

/-! ## The client reads the response -/

theorem Finished.near {evs' : List HttpClient.Event} (h : Finished c evs) :
    Finished c (evs ++ evs'.map .inl) := by
  rwa [Finished, Trace.farEvents_append, Trace.farEvents_inl, List.append_nil]

/-- **A tick that brings the next chunk of the response.** -/
theorem Going.exists_read (hg : Going b url callback timeout task smw inputs w evs)
    (hnul : (0 : Byte) ∉ url) (hread : w.near.client.state = .reading)
    (hc : w.far.connections[b]? = some c) (hf : Finished c evs) : ∃ inputs' w' evs',
      inputs <+: inputs' ∧ Going b url callback timeout task smw inputs' w' evs' ∧
      w'.far = w.far ∧ Finished c evs' ∧ w'.toNear.length < w.toNear.length ∧
      (w'.near.client.state = .done ∨ w'.near.client.state = .reading) := by
  obtain ⟨sent, read, ks, deeds, hm⟩ := hg.exists_meets hnul hc
  obtain ⟨k, r, x, -, hx, hfull⟩ := hm.exists_full hf
  obtain ⟨reason, contentType, hr, ht, hwritten⟩ := hx.written
  have hqueue : read ++ w.toNear = x.writeBuffer.take x.writeSize := hm.toNear.symm.trans hfull
  have hlt : (x.writeBuffer.take x.writeSize).length < sizeMod := by
    rw [List.length_take_of_le hx.le]
    exact hx.lt
  have hexact := congrArg List.length hwritten
  rw [List.length_append] at hexact
  have hmsg := message_headText hx.status.1 hx.status.2 hr ht
    (show (answer k.current r).body.length < sizeMod by omega)
  rw [← hwritten] at hmsg
  obtain ⟨c₀, hfresh, hclient, hmore, -⟩ := hm.lives.exists_waiting hg.live hread
  have hne : w.toNear ≠ [] := by
    intro hnil
    rw [hnil, List.append_nil] at hqueue
    have hno := noWrap_of_message hmsg hlt
    rw [← hqueue] at hno hmsg
    cases hmore.symm.trans ((complete_iff_message hfresh hno).mpr ⟨_, hmsg⟩)
  have h4 : 4 ≤ (x.writeBuffer.take x.writeSize).length := by
    have := bodyStart_bounds (message_framing_iff.mp hmsg).1
    omega
  obtain ⟨bs, hbs, hle, hpre, hstored, hfour⟩ :=
    exists_chunk hqueue hne (show 4 ≤ HttpClient.chunkSize by decide) h4
  obtain ⟨r', evs', hw, hstate⟩ :=
    hm.lives.exists_read hg.live hread hmsg hexact hlt hbs hle hstored
    hfour w.near.timer
  have hdelivered : delivered (chunkTick w.near.timer bs hbs hle) w.near.client = bs :=
    if_pos hread
  refine ⟨_, _, _, List.prefix_append _ _,
    hg.near hnul rfl rfl (by rwa [hdelivered]) (by simp [hread]) hw, rfl, hf.near, ?_, ?_⟩
  · have := List.length_pos_iff.mpr hbs
    have := hpre.length_le
    change (w.toNear.drop (delivered _ w.near.client).length).length < w.toNear.length
    rw [hdelivered, List.length_drop]
    omega
  · change r'.client.state = .done ∨ r'.client.state = .reading
    rw [hstate]
    split
    · exact Or.inl rfl
    · exact Or.inr rfl

/-- **The client reads the response to its end.** -/
theorem Going.exists_done {n : ℕ} (hg : Going b url callback timeout task smw inputs w evs)
    (hnul : (0 : Byte) ∉ url) (hread : w.near.client.state = .reading)
    (hc : w.far.connections[b]? = some c) (hf : Finished c evs) (hn : w.toNear.length < n) :
    ∃ inputs' w' evs', inputs <+: inputs' ∧
      Going b url callback timeout task smw inputs' w' evs' ∧ w'.near.client.state = .done := by
  induction n generalizing inputs w evs with
  | zero => exact absurd hn (Nat.not_lt_zero _)
  | succ n ih =>
    obtain ⟨inputs₁, w₁, evs₁, hpre, hg₁, hfar, hf₁, hless, hdone | hread₁⟩ :=
      hg.exists_read hnul hread hc hf
    · exact ⟨inputs₁, w₁, evs₁, hpre, hg₁, hdone⟩
    · obtain ⟨inputs₂, w₂, evs₂, hpre₂, hrest⟩ := ih hg₁ hread₁ (hfar ▸ hc) hf₁ (by omega)
      exact ⟨inputs₂, w₂, evs₂, hpre.trans hpre₂, hrest⟩

/-! ## The client reports -/

/-- A client that is done has the answer to its request. -/
theorem Going.exists_answer (hg : Going b url callback timeout task smw inputs w evs)
    (hnul : (0 : Byte) ∉ url) (hu : parseUrl url = some u) (hp : Plain u.path u.hostname)
    (hdone : w.near.client.state = .done) : ∃ t, .inr t ∈ inputs ∧
      calls (Trace.nearEvents evs) ++ report w.near.client
        = answerCalls callback (answer t.current (asked u)) := by
  obtain ⟨is, js, hstory, his, hjs⟩ := Trace.exists_story hg.run
  have hlives := lives_of_run hnul (fun t ht => hg.body t (his t ht)) hstory.near
  obtain ⟨hdecodes, htold⟩ := hlives.decodes hg.live hdone
  have hne : HttpClientRun.taken is (zeroed url callback timeout task smw) ≠ [] := by
    intro hnil
    obtain ⟨h, hm, -⟩ := hdecodes
    rw [hnil] at hm
    cases hm
  obtain ⟨k, hk, r, x, -, ⟨s, hs, hr⟩, hx, hpre⟩ := exists_carries
    (fun t ht => congrArg _ (hg.alloc t (hjs t ht))) hstory hlives.exists_told.1 rfl hne
  obtain ⟨t, ht, rfl⟩ := exists_tick hk
  obtain ⟨hread, hmethod, hpath⟩ := of_isRequestOf hnul hu hp hs hr
  rw [answer_asked _ hread hmethod hpath] at hx
  obtain ⟨hstatus, hbody⟩ := Decodes.answer hdecodes hx hpre
  obtain ⟨hinfo, hreport⟩ := info_congr (d := { idle with
    callback, statusCode := (answer t.current (asked u)).status
    body := some (answer t.current (asked u)).body }) hlives.hcallback hstatus hbody
  refine ⟨t, hjs t ht, ?_⟩
  rw [htold, hinfo, hreport]
  rfl

/-- A client that is to be disposed of is freed by its next tick. -/
theorem Going.exists_disposed (hg : Going b url callback timeout task smw inputs w evs)
    (hstate : w.near.client.state = .dispose) : ∃ x w',
      Trace.run (exchange κ b) (inputs ++ [x]) (start url callback timeout task smw)
        = .ok (w', evs) ∧ w'.near.freed = true := by
  obtain ⟨hwork, htakes⟩ := work_of_hasTime (t := .smooth w.near.timer) hg.time hg.live rfl
  have hdispatch : w.near.dispatch (.smooth w.near.timer) = .ok (w.near.dispose, []) := by
    rw [dispatch, hstate]
  have hnothing : takes (.smooth w.near.timer) w.near = [] :=
    htakes.trans (delivered_of_state (by simp [hstate]))
  have hstep := Trace.wire_inl (P := client κ) (Q := server b) (i := .smooth w.near.timer) (w := w)
    (show (!w.near.freed) = true by rw [hg.live]; rfl)
    (show takes (.smooth w.near.timer) w.near <+: w.toNear by rw [hnothing]; exact List.nil_prefix)
    (hwork.trans hdispatch)
  have hrun := Trace.run_concat hg.run hstep
  rw [List.map_nil, List.append_nil] at hrun
  exact ⟨_, _, hrun, rfl⟩

/-- **The client reports, and is freed.** -/
theorem Going.exists_freed (hg : Going b url callback timeout task smw inputs w evs)
    (hnul : (0 : Byte) ∉ url) (hdone : w.near.client.state = .done) :
    ∃ inputs' w' evs', inputs <+: inputs' ∧
      Trace.run (exchange κ b) inputs' (start url callback timeout task smw) = .ok (w', evs') ∧
      w'.near.freed = true ∧ calls (Trace.nearEvents evs')
        = calls (Trace.nearEvents evs) ++ report w.near.client := by
  obtain ⟨sent, read, hlives⟩ := hg.exists_lives hnul
  obtain ⟨r', hw, hstate⟩ := hlives.exists_report hg.live hdone (.smooth w.near.timer)
  have hg' := hg.near hnul rfl rfl
    (by rw [delivered_of_state (by simp [hdone])]; exact List.nil_prefix) (by simp [hdone]) hw
  obtain ⟨x, w', hrun, hfreed⟩ := hg'.exists_disposed hstate
  refine ⟨_, w', _, (List.prefix_append _ _).trans (List.prefix_append _ _), hrun, hfreed, ?_⟩
  rw [Trace.nearEvents_append, Trace.nearEvents_inl, calls_append, calls_report]

/-! ## The way on -/

/-- **What has not been cut off can be finished**, once the client reads. -/
theorem Going.exists_done_of_reading (hg : Going b url callback timeout task smw inputs w evs)
    (hnul : (0 : Byte) ∉ url) (hu : parseUrl url = some u) (hp : Plain u.path u.hostname)
    (hread : w.near.client.state = .reading) (hc : w.far.connections[b]? = some c)
    (hready : c.connection.state ≠ .dispose → Ready b w.far c)
    (hbuf : c.connection.state = .send → c.connection.writeBuffer.isSome)
    (hsend : c.connection.state = .dispose → .sendError ∉ Trace.farEvents evs) :
    ∃ inputs' w' evs', inputs <+: inputs' ∧
      Going b url callback timeout task smw inputs' w' evs' ∧ w'.near.client.state = .done := by
  have hanswers : ∀ {inputs₁ w₁ evs₁ c₁}, inputs <+: inputs₁ →
      Going b url callback timeout task smw inputs₁ w₁ evs₁ → w₁.near = w.near →
      Ready b w₁.far c₁ → c₁.connection.state = .send → c₁.connection.writeBuffer.isSome →
      ∃ inputs' w' evs', inputs <+: inputs' ∧
        Going b url callback timeout task smw inputs' w' evs' ∧ w'.near.client.state = .done := by
    intro inputs₁ w₁ evs₁ c₁ hpre₁ hg₁ hnear₁ hready₁ hstate₁ hbuf₁
    obtain ⟨inputs₂, w₂, evs₂, c₂, hpre₂, hg₂, hnear₂, hc₂, hf₂⟩ :=
      hg₁.exists_finished hnul hready₁ hbuf₁ (Or.inl hstate₁) (Nat.lt_succ_self _)
    obtain ⟨inputs₃, w₃, evs₃, hpre₃, hg₃, hdone⟩ :=
      hg₂.exists_done hnul (by rw [hnear₂, hnear₁]; exact hread) hc₂ hf₂ (Nat.lt_succ_self _)
    exact ⟨inputs₃, w₃, evs₃, hpre₁.trans (hpre₂.trans hpre₃), hg₃, hdone⟩
  rcases hstate : c.connection.state with _ | _ | _
  · exact hanswers List.prefix_rfl hg rfl (hready (by simp [hstate])) hstate (hbuf hstate)
  · obtain ⟨inputs₁, w₁, evs₁, c₁, hpre₁, hg₁, hnear₁, hready₁, hstate₁, hbuf₁⟩ :=
      hg.exists_answering hnul hu hp hread (hready (by simp [hstate])) hstate (Nat.lt_succ_self _)
    exact hanswers hpre₁ hg₁ hnear₁ hready₁ hstate₁ hbuf₁
  · exact hg.exists_done hnul hread hc (Or.inr ⟨hstate, hsend hstate⟩) (Nat.lt_succ_self _)

end Exchange
