import JustWeather.Lib.HttpClient.Completion

/-!
# Lib/HttpClient/Sameness — the fields no tick reads before it assigns them

`write_size` and `write_offset` are assigned with the request, `status_code` with the head.  Clients
that differ there alone are `Alike`, and a tick leaves them alike after the same events
(`work_matches`); so are clients whose URL is refused, whatever they differ in.
-/

open CLib

namespace HttpClient

variable {c d : HttpClient} {a : ReadAlloc}

/-- **The clients differ in nothing a handler reads**: in `write_size` and `write_offset` without a
request to send, and in `status_code` before a head. -/
def Alike (c d : HttpClient) : Prop :=
  ∃ writeSize writeOffset statusCode, d = { c with writeSize, writeOffset, statusCode } ∧
    (c.writeBuffer ≠ none → writeSize = c.writeSize ∧ writeOffset = c.writeOffset) ∧
    (c.bodyStart ≠ 0 ∨ c.state = .done → statusCode = c.statusCode)

/-- The client in the state a handler returns. -/
def Outcome.entered (o : Outcome) : HttpClient := { o.client with state := o.next }

/-- The handlers leave alike clients, after the same events. -/
def Outcome.Alike (o o' : Outcome) : Prop :=
  HttpClient.Alike o.entered o'.entered ∧ o.events = o'.events

theorem Alike.refl (c : HttpClient) : Alike c c :=
  ⟨_, _, _, rfl, fun _ => ⟨rfl, rfl⟩, fun _ => rfl⟩

/-- A handler that returns a state other than `done`. -/
theorem Alike.entered {next : HttpClientState} {evs : List Event} (h : Alike c d)
    (hnext : next ≠ .done) : Outcome.Alike ⟨next, c, evs⟩ ⟨next, d, evs⟩ := by
  obtain ⟨ws, wo, sc, rfl, hw, hs⟩ := h
  refine ⟨⟨ws, wo, sc, rfl, hw, fun hb => hs (Or.inl ?_)⟩, rfl⟩
  exact hb.resolve_right hnext

/-- A handler that reports and gives up. -/
theorem Alike.notify (h : Alike c d) (event response : List Byte) :
    Outcome.Alike ⟨.dispose, c, c.notify event response⟩
      ⟨.dispose, d, d.notify event response⟩ := by
  obtain ⟨ws, wo, sc, rfl, -⟩ := id h
  exact h.entered (by simp)

theorem workInit_alike (h : Alike c d) : Outcome.Alike c.workInit d.workInit := by
  obtain ⟨ws, wo, sc, rfl, hw, hs⟩ := id h
  rw [workInit, workInit]
  dsimp only
  split
  · exact h.entered (by simp)
  · rename_i u _
    have hu : Alike { c with hostname := u.hostname, port := u.port, path := u.path }
        { c with
          writeSize := ws, writeOffset := wo, statusCode := sc
          hostname := u.hostname, port := u.port, path := u.path } :=
      ⟨ws, wo, sc, rfl, hw, hs⟩
    split
    · exact hu.entered (by simp)
    · exact hu.entered (by simp)

theorem sendRequest_alike (s : Send) (buffer : List Byte) {sc : ℤ}
    (hs : c.bodyStart ≠ 0 ∨ c.state = .done → sc = c.statusCode) :
    Fallible.Matches Outcome.Alike (c.sendRequest s buffer)
      ({ c with statusCode := sc }.sendRequest s buffer) := by
  have hc : Alike c { c with statusCode := sc } := ⟨_, _, sc, rfl, fun _ => ⟨rfl, rfl⟩, hs⟩
  rw [sendRequest.eq_def, sendRequest.eq_def]
  dsimp only
  split
  · rfl
  · cases s with
    | wouldBlock => exact hc.entered (by simp)
    | error => exact hc.entered (by simp)
    | accepts room =>
      dsimp only
      split
      · exact Alike.entered ⟨_, _, sc, rfl, fun _ => ⟨rfl, rfl⟩, hs⟩ (by simp)
      · exact Alike.entered ⟨_, _, sc, rfl, fun _ => ⟨rfl, rfl⟩, hs⟩ (by simp)

theorem workWriting_alike (h : Alike c d) (alloc : Bool) (s : Send) :
    Fallible.Matches Outcome.Alike (c.workWriting alloc s) (d.workWriting alloc s) := by
  obtain ⟨ws, wo, sc, rfl, hw, hs⟩ := id h
  rw [workWriting, workWriting]
  dsimp only
  split
  · rename_i buffer hbuf
    obtain ⟨rfl, rfl⟩ := hw (by simp [hbuf])
    exact sendRequest_alike s buffer hs
  · split
    · exact sendRequest_alike (c := c.format) s _ hs
    · exact h.entered (by simp)

/-- The head is looked for in the same bytes. -/
theorem latch_alike (h : Alike c d) :
    Fallible.Matches (Option.Rel Alike) (c.latch a) (d.latch a) := by
  obtain ⟨ws, wo, sc, rfl, hw, hs⟩ := id h
  rw [latch, latch]
  dsimp only
  split
  · split
    · rfl
    · exact .some h
    · split
      · exact .some ⟨ws, wo, _, rfl, hw, fun _ => rfl⟩
      · exact .none
  · exact .some h

theorem takeBody_alike (h : Alike c d) (hstatus : d.statusCode = c.statusCode) :
    Fallible.Matches (fun c' d' => Alike c' d' ∧ d'.statusCode = c'.statusCode)
      (c.takeBody a) (d.takeBody a) := by
  obtain ⟨ws, wo, sc, rfl, hw, -⟩ := id h
  obtain rfl : sc = c.statusCode := hstatus
  rw [takeBody, takeBody]
  dsimp only
  split
  · split
    · split
      · exact ⟨⟨ws, wo, _, rfl, hw, fun _ => rfl⟩, rfl⟩
      · rfl
    · exact ⟨⟨ws, wo, _, rfl, hw, fun _ => rfl⟩, rfl⟩
  · exact ⟨h, rfl⟩

/-- A response that is complete has its head, so the status is its own. -/
theorem finish_alike (h : Alike c d) :
    Fallible.Matches Outcome.Alike (c.finish a) (d.finish a) := by
  obtain ⟨ws, wo, sc, rfl, hw, hs⟩ := id h
  have hcomplete : complete { c with writeSize := ws, writeOffset := wo, statusCode := sc }
      = complete c := rfl
  rw [finish, finish, hcomplete]
  split
  · rename_i hdone
    have hstart : c.bodyStart ≠ 0 := by
      rw [complete, Bool.and_eq_true, decide_eq_true_eq] at hdone
      exact Nat.ne_of_gt hdone.1
    have hbody := takeBody_alike (a := a) h (hs (Or.inl hstart))
    rcases hc : c.takeBody a with e | c' <;>
      rcases hd : takeBody a { c with writeSize := ws, writeOffset := wo, statusCode := sc } with
        e' | d' <;> rw [hc, hd] at hbody
    · exact hbody
    · exact hbody.elim
    · exact hbody.elim
    · obtain ⟨⟨ws', wo', sc', rfl, hw', -⟩, hstatus⟩ := hbody
      obtain rfl : sc' = c'.statusCode := hstatus
      exact ⟨⟨ws', wo', _, rfl, hw', fun _ => rfl⟩, rfl⟩
  · exact h.entered (by simp)

theorem process_alike (h : Alike c d) :
    Fallible.Matches Outcome.Alike (c.process a) (d.process a) := by
  have hlatch := latch_alike (a := a) h
  rw [process, process]
  rcases hc : c.latch a with e | o <;> rcases hd : d.latch a with e' | o' <;> rw [hc, hd] at hlatch
  · exact hlatch
  · exact hlatch.elim
  · exact hlatch.elim
  · cases hlatch with
    | some h' => exact finish_alike h'
    | none =>
      obtain ⟨ws, wo, sc, rfl, -⟩ := id h
      exact h.entered (by simp)

theorem workReading_alike (h : Alike c d) (r : Recv chunkSize) :
    Fallible.Matches Outcome.Alike (c.workReading a r) (d.workReading a r) := by
  obtain ⟨ws, wo, sc, rfl, hw, hs⟩ := id h
  rw [workReading, workReading]
  dsimp only
  split
  · exact h.entered (by simp)
  · split
    · exact h.entered (by simp)
    · split
      · rw [grow, grow]
        by_cases hlen : c.readBuffer.length + (tcpClientRead r).2.length < sizeMod
        · simp only [hlen, if_true]
          exact process_alike ⟨ws, wo, sc, rfl, hw, hs⟩
        · simp only [hlen, if_false]
          rfl
      · exact h.entered (by simp)

end HttpClient

namespace HttpClientRun

open HttpClient

variable {κ : Type} {r r' : HttpClientRun κ} {t : HttpClientTick} {o o' : Outcome}

/-- The client is to report its URL or to be disposed: no request comes of it. -/
def Refused (c : HttpClient) : Prop :=
  c.state = .dispose ∨ c.state = .init ∧ parseUrl c.url = none

/-- **The runs differ in nothing a tick reads.** -/
def Same (r r' : HttpClientRun κ) : Prop :=
  ∃ d, r' = { r with client := d } ∧
    (Alike r.client d ∨ Refused r.client ∧ d.state = r.client.state ∧ d.url = r.client.url ∧
      d.callback = r.client.callback)

theorem enter_same {d : HttpClient} (h : Outcome.Alike o o') :
    Trace.Alike Same (r.enter o) ({ r with client := d }.enter o') :=
  ⟨⟨_, rfl, Or.inl h.1⟩, h.2⟩

theorem workConnect_matches {d : HttpClient} (h : Alike r.client d) :
    Fallible.Matches (Trace.Alike Same) (r.workConnect t)
      ({ r with client := d }.workConnect t) := by
  rw [workConnect, workConnect]
  dsimp only
  split
  · split
    · refine (Fallible.Matches.refl _).map fun hm => ?_
      subst hm
      exact enter_same (h.notify _ _)
    · refine (Fallible.Matches.refl _).map fun hm => ?_
      subst hm
      exact enter_same (h.entered (by simp))
  · exact enter_same (h.notify _ _)

theorem connectingOn_alike {c d : HttpClient} (h : Alike c d) (tcpClient : TCPClient) :
    Outcome.Alike (connectingOn t c tcpClient) (connectingOn t d tcpClient) := by
  rw [connectingOn, connectingOn]
  split
  · exact h.entered (by simp)
  · exact h.entered (by simp)
  · split
    · exact h.entered (by simp)
    · split
      · exact h.entered (by simp)
      · exact h.notify _ _

theorem workConnecting_matches {d : HttpClient} (h : Alike r.client d) :
    Fallible.Matches (Trace.Alike Same) (r.workConnecting t)
      ({ r with client := d }.workConnecting t) := by
  rw [workConnecting, workConnecting]
  dsimp only
  split
  · exact enter_same (h.entered (by simp))
  · refine (Fallible.Matches.refl _).map fun hm => ?_
    subst hm
    exact enter_same (connectingOn_alike h _)

theorem workWriting_matches {d : HttpClient} (h : Alike r.client d) :
    Fallible.Matches (Trace.Alike Same) (r.workWriting t)
      ({ r with client := d }.workWriting t) := by
  have hbuf : d.writeBuffer = r.client.writeBuffer := by
    obtain ⟨ws, wo, sc, rfl, -⟩ := h
    rfl
  rw [workWriting, workWriting]
  dsimp only
  rw [hbuf]
  split
  · refine (Fallible.Matches.refl r.conn).bind fun hm => ?_
    subst hm
    exact (workWriting_alike h _ _).map enter_same
  · exact (workWriting_alike h _ _).map enter_same

theorem workReading_matches {d : HttpClient} (h : Alike r.client d) :
    Fallible.Matches (Trace.Alike Same) (r.workReading t)
      ({ r with client := d }.workReading t) := by
  rw [workReading, workReading]
  refine (Fallible.Matches.refl r.conn).bind fun hm => ?_
  subst hm
  exact (workReading_alike h _).map enter_same

theorem workDone_matches {d : HttpClient} (h : Alike r.client d) (hstate : r.client.state = .done) :
    Fallible.Matches (Trace.Alike Same) r.workDone ({ r with client := d }.workDone) := by
  obtain ⟨ws, wo, sc, rfl, -, hs⟩ := id h
  obtain rfl := hs (Or.inr hstate)
  have ho : Outcome.Alike ⟨.dispose, releaseBuffers r.client, report r.client⟩
      ⟨.dispose, releaseBuffers { r.client with writeSize := ws, writeOffset := wo },
        report { r.client with writeSize := ws, writeOffset := wo }⟩ :=
    Alike.entered ⟨ws, wo, _, rfl, fun hb => absurd rfl hb, fun _ => rfl⟩ (by simp)
  rw [workDone, workDone]
  dsimp only
  split
  · exact enter_same ho
  · refine (Fallible.Matches.refl _).bind fun hm => ?_
    subst hm
    refine (Fallible.Matches.refl _).bind fun hm => ?_
    subst hm
    exact enter_same ho

/-- A client whose URL is refused reports it and is disposed, whatever else it holds. -/
theorem refused_matches {d : HttpClient} (h : Refused r.client) (hstate : d.state = r.client.state)
    (hurl : d.url = r.client.url) (hcb : d.callback = r.client.callback) :
    Fallible.Matches (Trace.Alike Same) (r.dispatch t) ({ r with client := d }.dispatch t) := by
  rw [dispatch, dispatch]
  dsimp only
  rw [hstate]
  rcases h with hs | ⟨hs, hparse⟩ <;> rw [hs]
  · exact ⟨⟨d, rfl, Or.inr ⟨Or.inl hs, hstate, hurl, hcb⟩⟩, rfl⟩
  · dsimp only
    rw [workInit, workInit, hurl, hparse, notify, notify, hcb]
    exact ⟨⟨{ d with state := .dispose }, rfl, Or.inr ⟨Or.inl rfl, rfl, hurl, hcb⟩⟩, rfl⟩

theorem dispatch_matches (h : Same r r') :
    Fallible.Matches (Trace.Alike Same) (r.dispatch t) (r'.dispatch t) := by
  obtain ⟨d, rfl, h | ⟨h, hstate, hurl, hcb⟩⟩ := h
  · have hstate : d.state = r.client.state := by
      obtain ⟨ws, wo, sc, rfl, -⟩ := h
      rfl
    rw [dispatch, dispatch]
    dsimp only
    rw [hstate]
    split
    · exact enter_same (workInit_alike h)
    · exact workConnect_matches h
    · exact workConnecting_matches h
    · exact workWriting_matches h
    · exact workReading_matches h
    · rename_i hs
      exact workDone_matches h hs
    · exact ⟨⟨d, rfl, Or.inl h⟩, rfl⟩
  · exact refused_matches h hstate hurl hcb

theorem Same.setTimer (h : Same r r') (t : HttpClientTick) :
    Same (r.setTimer t) (r'.setTimer t) := by
  obtain ⟨d, rfl, h⟩ := h
  rw [HttpClientRun.setTimer, HttpClientRun.setTimer]
  dsimp only
  split <;> exact ⟨d, rfl, h⟩

theorem Same.notifyTimeout (h : Same r r') : r.notifyTimeout = r'.notifyTimeout := by
  obtain ⟨d, rfl, ⟨ws, wo, sc, rfl, -⟩ | ⟨-, -, -, hcb⟩⟩ := h
  · rfl
  · rw [HttpClientRun.notifyTimeout, HttpClientRun.notifyTimeout, hcb]

theorem Same.dispose (h : Same r r') : Same r.dispose r'.dispose := by
  obtain ⟨d, rfl, h⟩ := h
  exact ⟨d, rfl, h⟩

/-- **A tick does the same to both.** -/
theorem work_matches (h : Same r r') :
    Fallible.Matches (Trace.Alike Same) (r.work t) (r'.work t) := by
  have hfreed : r'.freed = r.freed := by
    obtain ⟨d, rfl, -⟩ := h
    rfl
  have hlate : TimedOut t r' ↔ TimedOut t r := by
    obtain ⟨d, rfl, -⟩ := h
    exact Iff.rfl
  rw [work, work]
  simp only [hfreed, hlate]
  split
  · rfl
  · split
    · exact ⟨h.dispose, h.notifyTimeout⟩
    · exact dispatch_matches (h.setTimer t)

/-- No request comes of a client whose URL is refused. -/
theorem refused_of_work {evs : List Event} (h : Refused r.client) (hw : r.work t = .ok (r', evs)) :
    Refused r'.client := by
  rw [work] at hw
  split at hw
  · cases hw
  · split at hw
    · obtain ⟨rfl, -⟩ := Prod.ext_iff.mp (Except.ok.inj hw)
      exact h
    · rw [dispatch, setTimer_client] at hw
      rcases h with hs | ⟨hs, hparse⟩ <;> rw [hs] at hw
      · obtain ⟨rfl, -⟩ := Prod.ext_iff.mp (Except.ok.inj hw)
        rw [Refused, dispose, setTimer_client]
        exact Or.inl hs
      · obtain ⟨rfl, -⟩ := Prod.ext_iff.mp (Except.ok.inj hw)
        refine Or.inl ?_
        rw [workInit, hparse]
        rfl

end HttpClientRun
