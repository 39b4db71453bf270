import JustWeather.Lib.HttpClient.Telling
import JustWeather.Lib.HttpClient.Timeout

/-!
# Lib/HttpClient/Progress — a client that nothing holds up

When the clock stands still, and what a tick needs is there, the client takes its next step: up to
the state that reads (`exists_onward`), by each chunk of the response (`exists_read`), and to the
report and the end (`exists_report`).
-/

open CLib MessageHead

namespace HttpClientRun

open HttpClient

variable {κ : Type} {r r' : HttpClientRun κ} {t : HttpClientTick} {evs told : List Event}
  {url sent read bs : List Byte} {callback : Bool} {m : UInt64}

/-! ## The clock -/

/-- **There is time left**, and will be as long as the clock stands still. -/
def HasTime (r : HttpClientRun κ) : Prop := r.timer = 0 ∨ r.timer < r.timer + r.timeout

/-- A tick at the time the timer has. -/
theorem work_of_hasTime (h : HasTime r) (hlive : r.freed = false) (ht : t.monTime = r.timer) :
    r.work t = r.dispatch t ∧ takes t r = delivered t r.client := by
  have hlate : ¬ TimedOut t r := by
    rintro ⟨hne, hle⟩
    rw [ht] at hle
    rcases h with hzero | hlt
    · exact hne hzero
    · exact absurd hlt (UInt64.not_lt.mpr hle)
  have hset : r.setTimer t = r := by
    rw [setTimer]
    split
    · rename_i hzero
      rw [ht, hzero]
      cases r
      obtain rfl := hzero
      rfl
    · rfl
  refine ⟨?_, takes_of_not_timedOut hlate⟩
  rw [work, if_neg (by simp [hlive]), if_neg hlate, hset]

theorem HasTime.of_keeps (h : HasTime r) (hk : Keeps r r' evs) : HasTime r' := by
  rw [HasTime, hk.timer, hk.timeout]
  exact h

/-! ## Up to the response -/

/-- The state after one that is before the response, when nothing fails. -/
def onward : HttpClientState → HttpClientState
  | .init => .connect
  | .connect => .connecting
  | .connecting => .writing
  | .writing => .reading
  | state => state

/-- A tick does not look at the clock once it is in its state. -/
theorem dispatch_smooth (m : UInt64) (r : HttpClientRun κ) :
    r.dispatch (.smooth m) = r.dispatch (.smooth 0) := rfl

/-- A socket with room for the rest of the request takes it. -/
theorem sendRequest_rest {c : HttpClient} {request : List Byte} {room : Fin (intMax + 1)}
    (h : Loaded request c sent) (hroom : request.length ≤ room) :
    ∃ o, c.sendRequest (.accepts room) (request ++ [0]) = .ok o ∧ o.next = .reading := by
  have hsize := h.writeSize
  have hle := h.le
  have hrest : (((request ++ [0]).drop c.writeOffset).take (c.writeSize - c.writeOffset)).take room
      = request.drop c.writeOffset := by
    rw [hsize, rest_of_request (by omega), List.take_of_length_le]
    rw [List.length_drop]
    omega
  rw [sendRequest.eq_def, if_neg (by rw [List.length_append, hsize]; omega)]
  dsimp only
  rw [hrest, if_pos (by rw [List.length_drop]; omega)]
  exact ⟨_, rfl, rfl⟩

theorem exists_workWriting {c : HttpClient} (hnul : (0 : Byte) ∉ url)
    (h : IsWriting (requestOf url) c sent) : ∃ o,
      c.workWriting true (HttpClientTick.smooth 0).send = .ok o ∧ o.next = .reading := by
  have hlen := length_requestOf_lt hnul
  have hroom : (requestOf url).length ≤ (⟨4096, by decide⟩ : Fin (intMax + 1)).val := by
    change _ ≤ 4096
    omega
  rcases h with ⟨hnone, hrequest, -⟩ | hloaded
  · rw [HttpClient.workWriting, hnone]
    dsimp only
    rw [if_pos rfl, format_eq (hrequest ▸ hlen), hrequest]
    exact sendRequest_rest ⟨rfl, Nat.zero_le _, rfl, List.take_zero.symm⟩ hroom
  · rw [HttpClient.workWriting, hloaded.buffer]
    exact sendRequest_rest hloaded hroom

/-! ## The stage of a state -/

theorem Lives.url_eq (h : Lives callback url sent read told r) (hlive : r.freed = false)
    (hs : r.client.state = .init) : r.client.url = url := by
  rcases h.stage with ⟨-, hurl, -⟩ | ⟨hstate, -⟩ | ⟨c₀, hf, -, hclient, -⟩ | ⟨hstate, -⟩ |
    ⟨-, -, -, -, -, -, ⟨-, hstate⟩ | ⟨hfreed, -⟩⟩
  · exact hurl hs
  · cases hs.symm.trans hstate
  · cases (hs.symm.trans (congrArg HttpClient.state hclient)).trans
      ((waiting_state c₀ read).trans hf.state)
  · cases hs.symm.trans hstate
  · cases hs.symm.trans hstate
  · cases hlive.symm.trans hfreed

theorem Lives.isWriting (h : Lives callback url sent read told r) (hlive : r.freed = false)
    (hs : r.client.state = .writing) : IsWriting (requestOf url) r.client sent := by
  rcases h.stage with ⟨hstate, -⟩ | ⟨-, hwriting, -⟩ | ⟨c₀, hf, -, hclient, -⟩ | ⟨hstate, -⟩ |
    ⟨-, -, -, -, -, -, ⟨-, hstate⟩ | ⟨hfreed, -⟩⟩
  · rw [hs] at hstate
    simp at hstate
  · exact hwriting
  · cases (hs.symm.trans (congrArg HttpClient.state hclient)).trans
      ((waiting_state c₀ read).trans hf.state)
  · cases hs.symm.trans hstate
  · cases hs.symm.trans hstate
  · cases hlive.symm.trans hfreed

theorem Lives.exists_waiting (h : Lives callback url sent read told r) (hlive : r.freed = false)
    (hs : r.client.state = .reading) : ∃ c₀, Fresh c₀ ∧ r.client = waiting c₀ read ∧
      (waiting c₀ read).complete = false ∧ sent = requestOf url := by
  rcases h.stage with ⟨hstate, -⟩ | ⟨hstate, -⟩ | ⟨c₀, hf, -, hclient, -, hmore, hsent, -⟩ |
    ⟨hstate, -⟩ | ⟨-, -, -, -, -, -, ⟨-, hstate⟩ | ⟨hfreed, -⟩⟩
  · rw [hs] at hstate
    simp at hstate
  · cases hs.symm.trans hstate
  · exact ⟨c₀, hf, hclient, hmore, hsent⟩
  · cases hs.symm.trans hstate
  · cases hs.symm.trans hstate
  · cases hlive.symm.trans hfreed

theorem Lives.decodes (h : Lives callback url sent read told r) (hlive : r.freed = false)
    (hs : r.client.state = .done) : Decodes read r.client ∧ told = info r.client := by
  rcases h.stage with ⟨hstate, -⟩ | ⟨hstate, -⟩ | ⟨c₀, hf, -, hclient, -⟩ |
    ⟨-, hdecodes, -, htold⟩ | ⟨-, -, -, -, -, -, ⟨-, hstate⟩ | ⟨hfreed, -⟩⟩
  · rw [hs] at hstate
    simp at hstate
  · cases hs.symm.trans hstate
  · cases (hs.symm.trans (congrArg HttpClient.state hclient)).trans
      ((waiting_state c₀ read).trans hf.state)
  · exact ⟨hdecodes, htold⟩
  · cases hs.symm.trans hstate
  · cases hlive.symm.trans hfreed

/-! ## The steps -/

/-- The states before the response. -/
def early : List HttpClientState := [.init, .connect, .connecting, .writing]

/-- **Up to the response, a client whose URL is accepted goes on.** -/
theorem Lives.exists_onward (h : Lives callback url sent read told r) (hnul : (0 : Byte) ∉ url)
    (hu : parseUrl url ≠ none) (hlive : r.freed = false) (hstate : r.client.state ∈ early)
    (m : UInt64) : ∃ r' evs, r.dispatch (.smooth m) = .ok (r', evs) ∧
      r'.client.state = onward r.client.state := by
  rw [dispatch_smooth]
  have hphase := h.phase hlive
  rw [Phase] at hphase
  simp only [early, List.mem_cons, List.not_mem_nil, or_false] at hstate
  rcases hstate with hs | hs | hs | hs <;> rw [hs] at hphase ⊢
  · obtain ⟨u, hu'⟩ := Option.ne_none_iff_exists'.mp hu
    obtain ⟨r', hr', hc⟩ := smooth_init hs (by rw [h.url_eq hlive hs]; exact hu')
    exact ⟨r', [], hr', hc.state⟩
  · obtain ⟨r', hr', hc, -⟩ := smooth_connect hs
    exact ⟨r', [], hr', hc.state⟩
  · obtain ⟨b, fd, hb, hcell, -⟩ := hphase
    obtain ⟨r', hr', hc⟩ := smooth_connecting hs hb hcell
    exact ⟨r', [], hr', hc.state⟩
  · obtain ⟨o, ho, hnext⟩ := exists_workWriting hnul (h.isWriting hlive hs)
    refine ⟨(r.enter o).1, o.events, ?_, hnext⟩
    rw [dispatch, hs]
    dsimp only
    rw [workWriting_of_connected hphase]
    exact congrArg (Except.map r.enter) ho

/-- A tick that brings a chunk of a response, with memory for everything. -/
def chunkTick (m : UInt64) (bs : List Byte) (hne : bs ≠ []) (hle : bs.length ≤ chunkSize) :
    HttpClientTick :=
  { HttpClientTick.smooth m with recv := .data ⟨bs, hne, hle⟩ }

/-- **Each chunk of a response is read**: the last makes the client done, the others make it wait
on. -/
theorem Lives.exists_read {full : List Byte} {head : MessageHead ℤ}
    (h : Lives callback url sent read told r) (hlive : r.freed = false)
    (hs : r.client.state = .reading) (hm : (framing scanStatus).message full = some head)
    (hexact : full.length = head.bodyStart + head.contentLen) (hlt : full.length < sizeMod)
    (hne : bs ≠ []) (hle : bs.length ≤ chunkSize) (hpre : read ++ bs <+: full)
    (h4 : 4 ≤ (read ++ bs).length) (m : UInt64) : ∃ r' evs,
      r.dispatch (chunkTick m bs hne hle) = .ok (r', evs) ∧
        r'.client.state = if read ++ bs = full then .done else .reading := by
  obtain ⟨c₀, hf, hclient, -, -⟩ := h.exists_waiting hlive hs
  have hphase := h.phase hlive
  rw [Phase, hs] at hphase
  obtain ⟨rest, hrest⟩ := hpre
  have hhead := (message_framing_iff.mp hm).1
  have hno : NoWrap scanStatus (read ++ bs) := by
    have := noWrap_of_message hm hlt
    rw [← hrest] at this
    exact this.of_append
  have hlt' : (read ++ bs).length < sizeMod := by
    have := congrArg List.length hrest
    rw [List.length_append] at this
    omega
  have hwhole : (waiting c₀ (read ++ bs)).complete = true ↔ read ++ bs = full := by
    rw [complete_iff_message hf hno]
    constructor
    · rintro ⟨head', hm'⟩
      obtain ⟨hhead', hle'⟩ := message_framing_iff.mp hm'
      rw [← hrest, headOf_append hhead' rest] at hhead
      obtain rfl := Option.some.inj hhead
      have hlen := congrArg List.length hrest
      rw [List.length_append] at hlen
      have hnil : rest = [] := List.length_eq_zero_iff.mp (by omega)
      rw [← hrest, hnil, List.append_nil]
    · rintro heq
      exact ⟨head, heq ▸ hm⟩
  have hwork : ∃ d evs, (waiting c₀ read).readWork ⟨.data ⟨bs, hne, hle⟩, .all⟩ = .ok (d, evs) ∧
      d.state = if read ++ bs = full then .done else .reading := by
    rcases readWork_waiting (t := ⟨.data ⟨bs, hne, hle⟩, .all⟩) hf rfl hne h4 hlt' with
      ⟨hd, hcomp⟩ | ⟨hd, hcomp, -⟩ | ⟨-, -, -, -, hbad, -⟩ | ⟨-, hcomp, -, hfit⟩ | ⟨-, -, hbad⟩
    · have hmore : read ++ bs ≠ full := by
        intro heq
        cases hcomp.symm.trans (hwhole.mpr heq)
      refine ⟨_, _, hd, ?_⟩
      rw [if_neg hmore, waiting_state, hf.state]
    · refine ⟨_, _, hd, ?_⟩
      rw [if_pos (hwhole.mp hcomp)]
    · cases hbad
    · exact absurd (fits_of_complete hf hcomp hno) hfit
    · cases (hbad rest).symm.trans (show headOf scanStatus ((read ++ bs) ++ rest) = some head by
        rw [hrest, hhead])
  obtain ⟨d, evs, hread, hstate⟩ := hwork
  rw [← hclient, readWork_of_reading hs] at hread
  obtain ⟨o, ho, hd⟩ := Fallible.exists_of_map hread
  obtain ⟨rfl, rfl⟩ := Prod.ext_iff.mp hd
  refine ⟨(r.enter o).1, o.events, ?_, hstate⟩
  rw [dispatch, hs]
  dsimp only
  rw [workReading_of_connected hphase]
  exact congrArg (Except.map r.enter) ho

/-- **A client that is done reports**, and is disposed of. -/
theorem Lives.exists_report (h : Lives callback url sent read told r) (hlive : r.freed = false)
    (hs : r.client.state = .done) (t : HttpClientTick) : ∃ r',
      r.dispatch t = .ok (r', report r.client) ∧ r'.client.state = .dispose := by
  have hphase := h.phase hlive
  rw [Phase, hs] at hphase
  obtain ⟨b, fd, hb, hcell, -⟩ := hphase
  obtain ⟨tcpClients, hput, -⟩ := Memory.exists_put hcell (some ⟨none⟩)
  have hwrite : r.tcpClients.write b ⟨none⟩ = .ok tcpClients := hput
  have hdone : r.workDone = .ok ({ r with
      tcpClients, sockets := r.sockets.close fd, tcpConn := none }.enter
        ⟨.dispose, releaseBuffers r.client, report r.client⟩) := by
    rw [workDone, hb]
    dsimp only
    rw [Memory.read_of_cell hcell]
    exact congrArg (fun x : Except Fault (Memory TCPClient) => x.bind fun tcpClients =>
      .ok ({ r with
      tcpClients, sockets := r.sockets.close fd, tcpConn := none }.enter
        ⟨.dispose, releaseBuffers r.client, report r.client⟩)) hwrite
  have hdispatch : r.dispatch t = r.workDone := by rw [dispatch, hs]
  rw [hdispatch, hdone]
  exact ⟨_, rfl, rfl⟩

end HttpClientRun
