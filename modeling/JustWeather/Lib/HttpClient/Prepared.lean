import JustWeather.Lib.HttpClient.Completion

/-!
# Lib/HttpClient/Prepared — what a request finds when it comes to write and to read

Up to the state that writes nothing touches the buffers, so a request finds there what the client
began with: nothing, for a client that began with nothing (`prepared_of_dispatch`).
-/

open CLib

namespace HttpClient

/-- What came in: the buffer, the body, where it starts, how long it is. -/
def inbound (c : HttpClient) : List Byte × Option (List Byte) × ℕ × ℕ :=
  (c.readBuffer, c.body, c.bodyStart, c.contentLen)

/-- The client has what the states up to the one it is in need: no request before one is written,
and nothing that came in before it reads. -/
def Prepared (c : HttpClient) : Prop :=
  match c.state with
  | .init | .connect | .connecting => c.writeBuffer = none ∧ c.inbound = ([], none, 0, 0)
  | .writing => c.inbound = ([], none, 0, 0)
  | _ => True

theorem sendRequest_inbound {s : Send} {buffer : List Byte} {c : HttpClient} {o : Outcome}
    (h : c.sendRequest s buffer = .ok o) :
    o.client.inbound = c.inbound ∧ (o.next = .reading → o.client.writeBuffer = none) := by
  rw [sendRequest.eq_def] at h
  split at h
  · cases h
  · split at h
    · obtain rfl := Except.ok.inj h
      exact ⟨rfl, fun hnext => by cases hnext⟩
    · obtain rfl := Except.ok.inj h
      exact ⟨rfl, fun hnext => by cases hnext⟩
    · dsimp only at h
      split at h
      · obtain rfl := Except.ok.inj h
        exact ⟨rfl, fun _ => rfl⟩
      · obtain rfl := Except.ok.inj h
        exact ⟨rfl, fun hnext => by cases hnext⟩

theorem workWriting_inbound {alloc : Bool} {s : Send} {c : HttpClient} {o : Outcome}
    (h : c.workWriting alloc s = .ok o) :
    o.client.inbound = c.inbound ∧ (o.next = .reading → o.client.writeBuffer = none) := by
  rw [workWriting] at h
  split at h
  · exact sendRequest_inbound h
  · split at h
    · exact sendRequest_inbound (c := c.format) h
    · obtain rfl := Except.ok.inj h
      exact ⟨rfl, fun hnext => by cases hnext⟩

theorem workInit_inbound (c : HttpClient) : c.workInit.client.inbound = c.inbound ∧
    c.workInit.client.writeBuffer = c.writeBuffer := by
  obtain ⟨u, hu | hu⟩ := HttpClientRun.workInit_client c
  · rw [hu]
    exact ⟨rfl, rfl⟩
  · rw [hu]
    exact ⟨rfl, rfl⟩

end HttpClient

namespace HttpClientRun

open HttpClient

variable {κ : Type} {r r' : HttpClientRun κ} {t : HttpClientTick} {evs : List Event}

theorem workConnect_inbound (h : r.workConnect t = .ok (r', evs)) :
    r'.client.inbound = r.client.inbound ∧ r'.client.writeBuffer = r.client.writeBuffer := by
  rw [workConnect] at h
  dsimp only at h
  split at h
  · split at h
    · obtain ⟨m, -, hr⟩ := Fallible.exists_of_map h
      obtain ⟨rfl, -⟩ := Prod.ext_iff.mp hr
      exact ⟨rfl, rfl⟩
    · obtain ⟨m, -, hr⟩ := Fallible.exists_of_map h
      obtain ⟨rfl, -⟩ := Prod.ext_iff.mp hr
      exact ⟨rfl, rfl⟩
  · obtain ⟨rfl, -⟩ := Prod.ext_iff.mp (Except.ok.inj h)
    exact ⟨rfl, rfl⟩

theorem workConnecting_inbound (h : r.workConnecting t = .ok (r', evs)) :
    r'.client.inbound = r.client.inbound ∧ r'.client.writeBuffer = r.client.writeBuffer := by
  rw [workConnecting] at h
  split at h
  · obtain ⟨rfl, -⟩ := Prod.ext_iff.mp (Except.ok.inj h)
    exact ⟨rfl, rfl⟩
  · obtain ⟨tcpClient, -, hr⟩ := Fallible.exists_of_map h
    obtain ⟨rfl, -⟩ := Prod.ext_iff.mp hr
    have hclient : (connectingOn t r.client tcpClient).client = r.client := by
      rw [connectingOn]
      split
      · rfl
      · rfl
      · split
        · rfl
        · split <;> rfl
    rw [enter, hclient]
    exact ⟨rfl, rfl⟩

theorem workWriting_run_inbound (h : r.workWriting t = .ok (r', evs)) :
    r'.client.inbound = r.client.inbound ∧
      (r'.client.state = .reading → r'.client.writeBuffer = none) := by
  obtain ⟨s, o, ho, hro⟩ : ∃ s o, r.client.workWriting t.writeAlloc s = .ok o ∧
      r.enter o = (r', evs) := by
    rw [workWriting] at h
    split at h
    · rcases hconn : r.conn with e | tcpClient
      · rw [hconn] at h
        cases h
      · rw [hconn] at h
        exact ⟨_, Fallible.exists_of_map h⟩
    · exact ⟨_, Fallible.exists_of_map h⟩
  obtain ⟨rfl, -⟩ := Prod.ext_iff.mp hro
  exact workWriting_inbound ho

/-- **What a tick needs the ticks before it prepare**, and a client that comes to write or to read
finds nothing there. -/
theorem prepared_of_dispatch (h : Prepared r.client) (hs : Steps t r r' evs)
    (hw : r.dispatch t = .ok (r', evs)) : Prepared r'.client ∧
      ((r'.client.state = .writing ∨ r'.client.state = .reading) →
        r'.client.state ≠ r.client.state →
          r'.client.writeBuffer = none ∧ r'.client.inbound = ([], none, 0, 0)) := by
  obtain ⟨n, hmoves, -⟩ := hs.moves
  rw [dispatch] at hw
  rw [Prepared] at h ⊢
  cases hstate : r.client.state <;> rw [hstate] at h hw hmoves
  case init =>
    obtain ⟨rfl, -⟩ := Prod.ext_iff.mp (Except.ok.inj hw)
    obtain ⟨hrec, hbuf⟩ := workInit_inbound r.client
    have hkept := And.intro (hbuf.trans h.1) (hrec.trans h.2)
    generalize hnext : (r.enter r.client.workInit).1.client.state = next at hmoves ⊢
    cases hmoves
    · exact ⟨trivial, by simp⟩
    · exact ⟨hkept, by simp⟩
  case connect =>
    obtain ⟨hrec, hbuf⟩ := workConnect_inbound hw
    have hkept := And.intro (hbuf.trans h.1) (hrec.trans h.2)
    generalize hnext : r'.client.state = next at hmoves ⊢
    cases hmoves
    · exact ⟨trivial, by simp⟩
    · exact ⟨hkept, by simp⟩
  case connecting =>
    obtain ⟨hrec, hbuf⟩ := workConnecting_inbound hw
    have hkept := And.intro (hbuf.trans h.1) (hrec.trans h.2)
    generalize hnext : r'.client.state = next at hmoves ⊢
    cases hmoves
    case unknown => exact ⟨trivial, by simp⟩
    case awaits => exact ⟨hkept, by simp⟩
    case connected => exact ⟨hkept.2, fun _ _ => hkept⟩
    case unreachable => exact ⟨trivial, by simp⟩
  case writing =>
    obtain ⟨hrec, hbuf⟩ := workWriting_run_inbound hw
    generalize hnext : r'.client.state = next at hmoves hbuf ⊢
    cases hmoves
    case unsent => exact ⟨trivial, by simp⟩
    case sends => exact ⟨hrec.trans h, by simp⟩
    case sent => exact ⟨trivial, fun _ _ => ⟨hbuf rfl, hrec.trans h⟩⟩
  all_goals
    generalize hnext : r'.client.state = next at hmoves ⊢
    cases hmoves <;> exact ⟨trivial, by simp⟩

/-! ## A request that is sent -/

theorem hostname_of_parseUrl {url : List Byte} {u : Url} (h : parseUrl url = some u) :
    u.hostname.length ≠ 0 := by
  rw [parseUrl] at h
  dsimp only at h
  split at h
  · cases h
  · rename_i hlen
    obtain rfl := Option.some.inj h
    exact fun hzero => hlen (Or.inl hzero)

/-- A tick at time `0` leaves the timer off. -/
theorem work_smooth (hlive : r.freed = false) (htimer : r.timer = 0) :
    r.work (.smooth 0) = r.dispatch (.smooth 0) := by
  have hon : r.setTimer (.smooth 0) = r := by
    rw [setTimer, if_pos htimer]
    cases r
    obtain rfl := htimer
    rfl
  rw [work, if_neg (by simp [hlive]), if_neg (fun hlate => hlate.1 htimer), hon]

/-- The client goes on to a state with what it had. -/
structure Carries (next : HttpClientState) (r r' : HttpClientRun κ) : Prop where
  state : r'.client.state = next
  freed : r'.freed = r.freed
  timer : r'.timer = r.timer
  writeBuffer : r'.client.writeBuffer = r.client.writeBuffer
  inbound : r'.client.inbound = r.client.inbound

theorem smooth_init {u : Url} (hstate : r.client.state = .init)
    (hparse : parseUrl r.client.url = some u) :
    ∃ r', r.dispatch (.smooth 0) = .ok (r', []) ∧ Carries .connect r r' := by
  refine ⟨{ r with client := { r.client with
    state := .connect, hostname := u.hostname, port := u.port, path := u.path } }, ?_,
    ⟨rfl, rfl, rfl, rfl, rfl⟩⟩
  rw [dispatch, hstate]
  dsimp only
  rw [workInit, hparse]
  dsimp only
  rw [if_neg (hostname_of_parseUrl hparse)]
  rfl

theorem smooth_connect (hstate : r.client.state = .connect) :
    ∃ r', r.dispatch (.smooth 0) = .ok (r', []) ∧ Carries .connecting r r' ∧
      ∃ b fd, r'.tcpConn = some b ∧ r'.tcpClients.cell b = some ⟨some fd⟩ := by
  obtain ⟨m, hm, hput⟩ := Memory.exists_put (Memory.cell_alloc_self ⟨none⟩ r.tcpClients)
    (some ⟨some r.sockets.opened⟩)
  refine ⟨{ r with
    client := { r.client with state := .connecting }, tcpClients := m
    sockets := r.sockets.socket.2, tcpConn := some r.tcpClients.next }, ?_,
    ⟨rfl, rfl, rfl, rfl, rfl⟩, _, _, rfl, hput.cell_self⟩
  have hwrite : Memory.write r.tcpClients.next ⟨some r.sockets.opened⟩
      (r.tcpClients.alloc ⟨none⟩).2 = .ok m := hm
  rw [dispatch, hstate]
  exact congrArg (Except.map _) hwrite

theorem smooth_connecting {b fd : ℕ} (hstate : r.client.state = .connecting)
    (hb : r.tcpConn = some b) (hcell : r.tcpClients.cell b = some ⟨some fd⟩) :
    ∃ r', r.dispatch (.smooth 0) = .ok (r', []) ∧ Carries .writing r r' := by
  refine ⟨{ r with client := { r.client with state := .writing } }, ?_, ⟨rfl, rfl, rfl, rfl, rfl⟩⟩
  rw [dispatch, hstate]
  dsimp only
  rw [workConnecting, hb]
  dsimp only
  rw [Memory.read_of_cell hcell, ← hb]
  rfl

end HttpClientRun
