import JustWeather.Lib.HttpClient.Reading
import JustWeather.Lib.HttpClient.Work
import JustWeather.Machinery.Fallible

/-!
# Lib/HttpClient/Completion — how often the callback is called

A client walks from `init` to `dispose`, and `Moves` says what each tick on the way can do: the
state it leads to and how often the callback is called.  Counting from the end, a run calls the
callback once exactly when no tick finds the client done, and an end for want of a socket status
coincides with a late timeout (`callbacks_eq_one_iff`).
-/

open CLib

namespace HttpClient

variable {c : HttpClient} {o : Outcome} {a : ReadAlloc}

/-- How often the callback is called. -/
def callbacks (evs : List Event) : ℕ :=
  evs.countP fun
    | .called _ _ => true
    | .accepted _ => false

@[simp] theorem callbacks_nil : callbacks [] = 0 := rfl

@[simp] theorem callbacks_append (evs evs' : List Event) :
    callbacks (evs ++ evs') = callbacks evs + callbacks evs' := List.countP_append

theorem callbacks_notify (h : c.callback = true) (event response : List Byte) :
    callbacks (c.notify event response) = 1 := by
  rw [notify, if_pos h]
  rfl

/-! ## One handler -/

/-- What a handler does to the callback: it stays as it is, and where one is installed it is called
that often on the way to that state. -/
structure Calls (c : HttpClient) (o : Outcome) (next : HttpClientState) (n : ℕ) : Prop where
  next : o.next = next
  events : c.callback = true → callbacks o.events = n
  callback : o.client.callback = c.callback

theorem workInit_calls (c : HttpClient) :
    Calls c c.workInit .dispose 1 ∨ Calls c c.workInit .connect 0 := by
  rw [workInit]
  split
  · exact Or.inl ⟨rfl, fun hcb => callbacks_notify hcb _ _, rfl⟩
  · dsimp only
    split
    · exact Or.inl ⟨rfl, fun hcb => callbacks_notify hcb _ _, rfl⟩
    · exact Or.inr ⟨rfl, fun _ => rfl, rfl⟩

theorem sendRequest_calls {s : Send} {buffer : List Byte}
    (h : sendRequest s buffer c = .ok o) :
    Calls c o .dispose 1 ∨ Calls c o .writing 0 ∨ Calls c o .reading 0 := by
  rw [sendRequest.eq_def] at h
  split at h
  · cases h
  · split at h
    · obtain rfl := Except.ok.inj h
      exact Or.inr (Or.inl ⟨rfl, fun _ => rfl, rfl⟩)
    · obtain rfl := Except.ok.inj h
      exact Or.inl ⟨rfl, fun hcb => callbacks_notify hcb _ _, rfl⟩
    · dsimp only at h
      split at h
      · obtain rfl := Except.ok.inj h
        exact Or.inr (Or.inr ⟨rfl, fun _ => rfl, rfl⟩)
      · obtain rfl := Except.ok.inj h
        exact Or.inr (Or.inl ⟨rfl, fun _ => rfl, rfl⟩)

theorem workWriting_calls {alloc : Bool} {s : Send}
    (h : workWriting alloc s c = .ok o) :
    Calls c o .dispose 1 ∨ Calls c o .writing 0 ∨ Calls c o .reading 0 := by
  rw [workWriting] at h
  split at h
  · exact sendRequest_calls h
  · split at h
    · rcases sendRequest_calls (c := c.format) h with hc | hc | hc
      · exact Or.inl ⟨hc.next, hc.events, hc.callback⟩
      · exact Or.inr (Or.inl ⟨hc.next, hc.events, hc.callback⟩)
      · exact Or.inr (Or.inr ⟨hc.next, hc.events, hc.callback⟩)
    · obtain rfl := Except.ok.inj h
      exact Or.inl ⟨rfl, fun hcb => callbacks_notify hcb _ _, rfl⟩

theorem latch_callback {c' : HttpClient} (h : c.latch a = .ok (some c')) :
    c'.callback = c.callback := by
  rw [latch] at h
  split at h
  · split at h
    · cases h
    · obtain rfl := Option.some.inj (Except.ok.inj h)
      rfl
    · split at h
      · obtain rfl := Option.some.inj (Except.ok.inj h)
        rfl
      · cases h
  · obtain rfl := Option.some.inj (Except.ok.inj h)
    rfl

theorem takeBody_callback {c' : HttpClient} (h : c.takeBody a = .ok c') :
    c'.callback = c.callback := by
  rcases takeBody_cases a c with ⟨hc, -⟩ | ⟨hc, -⟩
  · obtain rfl := Except.ok.inj (hc.symm.trans h)
    rw [taken]
    split <;> rfl
  · cases hc.symm.trans h

theorem process_calls (h : c.process a = .ok o) :
    Calls c o .dispose 1 ∨ Calls c o .reading 0 ∨ Calls c o .done 1 := by
  rw [process] at h
  split at h
  · cases h
  · obtain rfl := Except.ok.inj h
    exact Or.inl ⟨rfl, fun hcb => callbacks_notify hcb _ _, rfl⟩
  · rename_i c' hlatch
    have hcb' := latch_callback hlatch
    rw [finish] at h
    split at h
    · split at h
      · cases h
      · rename_i d hbody
        obtain rfl := Except.ok.inj h
        have hd := (takeBody_callback hbody).trans hcb'
        exact Or.inr (Or.inr ⟨rfl, fun hcb => callbacks_notify (hd.trans hcb) _ _, hd⟩)
    · obtain rfl := Except.ok.inj h
      exact Or.inr (Or.inl ⟨rfl, fun _ => rfl, hcb'⟩)

theorem workReading_calls {r : Recv chunkSize}
    (h : c.workReading a r = .ok o) :
    Calls c o .dispose 1 ∨ Calls c o .reading 0 ∨ Calls c o .done 1 := by
  rw [workReading] at h
  dsimp only at h
  split at h
  · obtain rfl := Except.ok.inj h
    exact Or.inl ⟨rfl, fun hcb => callbacks_notify hcb _ _, rfl⟩
  · split at h
    · obtain rfl := Except.ok.inj h
      exact Or.inr (Or.inl ⟨rfl, fun _ => rfl, rfl⟩)
    · split at h
      · split at h
        · cases h
        · rename_i d hgrow
          obtain ⟨rfl, -⟩ := of_grow hgrow
          rcases process_calls (c := { c with readBuffer := c.readBuffer ++ (tcpClientRead r).2 }) h
            with hc | hc | hc
          · exact Or.inl ⟨hc.next, hc.events, hc.callback⟩
          · exact Or.inr (Or.inl ⟨hc.next, hc.events, hc.callback⟩)
          · exact Or.inr (Or.inr ⟨hc.next, hc.events, hc.callback⟩)
      · obtain rfl := Except.ok.inj h
        exact Or.inl ⟨rfl, fun hcb => callbacks_notify hcb _ _, rfl⟩

end HttpClient

namespace HttpClientRun

open HttpClient

variable {κ : Type} {r r' : HttpClientRun κ} {t : HttpClientTick} {ticks : List HttpClientTick}
  {evs : List Event} {o : Outcome}

/-! ## What a client holds -/

/-- The client's buffers are not there. -/
structure NoBuffers (c : HttpClient) : Prop where
  writeBuffer : c.writeBuffer = none
  readBuffer : c.readBuffer = []
  body : c.body = none

/-- **A client that holds nothing yet.** -/
structure Idle (r : HttpClientRun κ) : Prop where
  tcpConn : r.tcpConn = none
  tcpClients : ∀ b, r.tcpClients.cell b = none
  sockets : r.sockets.AllClosed
  buffers : NoBuffers r.client

/-- **A client with a connection**: its `TCPClient` is there, and its socket open. -/
def Connected (r : HttpClientRun κ) : Prop :=
  ∃ b fd, r.tcpConn = some b ∧ r.tcpClients.cell b = some ⟨some fd⟩ ∧ r.sockets.AllClosedBut [fd]

/-- **A client after `http_client_work_done`**: it holds nothing, and its `TCPClient` is there. -/
structure Closed (r : HttpClientRun κ) : Prop where
  tcpConn : r.tcpConn = none
  tcpClients : ∃ b v, r.tcpClients.cell b = some v
  sockets : r.sockets.AllClosed
  buffers : NoBuffers r.client

/-- What a client holds in the state it is in. -/
def Phase (r : HttpClientRun κ) : Prop :=
  match r.client.state with
  | .init | .connect => Idle r
  | .connecting | .writing | .reading | .done => Connected r
  | .dispose => Idle r ∨ Connected r ∨ Closed r

/-- The tick connects a client that is to be connected. -/
def Initiates (t : HttpClientTick) : Prop := t.tcpAlloc = true ∧ Connects t.addresses

instance (t : HttpClientTick) : Decidable (Initiates t) := inferInstanceAs (Decidable (_ ∧ _))

/-! ## One tick -/

/-- **What a tick can do to the state**, and how often it calls the callback on the way. -/
inductive Moves (t : HttpClientTick) : HttpClientState → HttpClientState → ℕ → Prop
  | refused : Moves t .init .dispose 1
  | parsed : Moves t .init .connect 0
  | unconnected (h : ¬ Initiates t) : Moves t .connect .dispose 1
  | initiated (h : Initiates t) : Moves t .connect .connecting 0
  | unknown (h : t.soError = none) : Moves t .connecting .dispose 0
  | awaits (h : t.soError ≠ none) : Moves t .connecting .connecting 0
  | connected (h : t.soError ≠ none) : Moves t .connecting .writing 0
  | unreachable (h : t.soError ≠ none) : Moves t .connecting .dispose 1
  | unsent : Moves t .writing .dispose 1
  | sends : Moves t .writing .writing 0
  | sent : Moves t .writing .reading 0
  | unread : Moves t .reading .dispose 1
  | reads : Moves t .reading .reading 0
  | read : Moves t .reading .done 1
  | reported : Moves t .done .dispose 1

/-- What a client holds after a tick. -/
def After (t : HttpClientTick) (r r' : HttpClientRun κ) : Prop :=
  match r.client.state with
  | .init => Idle r'
  | .connect => if Initiates t then Connected r' else Idle r'
  | .connecting | .writing | .reading => Connected r'
  | .done => Closed r'
  | .dispose => False

/-- **What a tick does that is not the last.** -/
structure Steps (t : HttpClientTick) (r r' : HttpClientRun κ) (evs : List Event) : Prop where
  moves : ∃ n, Moves t r.client.state r'.client.state n ∧
    (r.client.callback = true → callbacks evs = n)
  callback : r'.client.callback = r.client.callback
  freed : r'.freed = r.freed
  task : r'.task = r.task
  after : After t r r'

theorem allClosedBut_connect (addresses : Option (List Attempt)) {sockets : Sockets}
    (h : sockets.AllClosed) :
    (tcpClientConnect addresses sockets).2.AllClosedBut
        (tcpClientConnect addresses sockets).1.fd.toList ∧
      ((tcpClientConnect addresses sockets).1.fd.isSome ↔ Connects addresses) := by
  cases addresses with
  | none => exact ⟨h, by simp [tcpClientConnect, Connects]⟩
  | some l =>
    obtain ⟨hclosed, hsome⟩ := connectFrom_allClosedBut l h
    exact ⟨hclosed, by simpa [tcpClientConnect, Connects] using hsome⟩

/-- A client that is not connected ends as it is, with one call. -/
theorem unconnected_steps {tcpClients : Memory TCPClient} {sockets : Sockets}
    (hstate : r.client.state = .connect) (hno : ¬ Initiates t)
    (hidle : Idle { r with tcpClients, sockets }) (text : List Byte) :
    Steps t r ({ r with tcpClients, sockets }.enter
        ⟨.dispose, r.client, r.client.notify (bytes "ERROR") text⟩).1
      (r.client.notify (bytes "ERROR") text) := by
  refine ⟨⟨1, ?_, fun hcb => callbacks_notify hcb _ _⟩, rfl, rfl, rfl, ?_⟩
  · rw [hstate]
    exact .unconnected hno
  · rw [After, hstate]
    dsimp only
    rw [if_neg hno]
    exact ⟨hidle.tcpConn, hidle.tcpClients, hidle.sockets, hidle.buffers.1, hidle.buffers.2,
      hidle.buffers.3⟩

theorem workConnect_steps (hstate : r.client.state = .connect) (hidle : Idle r)
    (h : r.workConnect t = .ok (r', evs)) : Steps t r r' evs := by
  rw [workConnect] at h
  split at h
  case isFalse halloc =>
    obtain ⟨rfl, rfl⟩ := Prod.ext_iff.mp (Except.ok.inj h)
    exact unconnected_steps hstate (fun hi => halloc hi.1) hidle _
  case isTrue halloc =>
    obtain ⟨hsockets, hsome⟩ := allClosedBut_connect t.addresses hidle.sockets
    have hcell := Memory.cell_alloc_self ⟨none⟩ r.tcpClients
    dsimp only [Memory.alloc_fst] at h
    split at h
    · rename_i hfd
      obtain ⟨m, hm, hput⟩ := Memory.exists_put hcell none
      rw [show Memory.free _ _ = _ from hm] at h
      obtain ⟨rfl, rfl⟩ := Prod.ext_iff.mp (Except.ok.inj h)
      rw [hfd] at hsockets hsome
      refine unconnected_steps hstate (fun hi => by simpa using hsome.mpr hi.2) ?_ _
      exact ⟨hidle.tcpConn, fun b => (hput.cell_of_alloc b).trans (hidle.tcpClients b), hsockets,
        hidle.buffers⟩
    · rename_i fd hfd
      obtain ⟨m, hm, hput⟩ := Memory.exists_put hcell
        (some (tcpClientConnect t.addresses r.sockets).1)
      rw [show Memory.write _ _ _ = _ from hm] at h
      obtain ⟨rfl, rfl⟩ := Prod.ext_iff.mp (Except.ok.inj h)
      rw [hfd] at hsockets hsome
      have hcell' : m.cell r.tcpClients.next = some ⟨some fd⟩ := by rw [hput.cell_self, ← hfd]
      have hyes : Initiates t := ⟨halloc, hsome.mp rfl⟩
      refine ⟨⟨0, ?_, fun _ => rfl⟩, rfl, rfl, rfl, ?_⟩
      · rw [hstate]
        exact .initiated hyes
      · rw [After, hstate]
        dsimp only
        rw [if_pos hyes]
        exact ⟨_, fd, rfl, hcell', hsockets⟩

/-- A handler that leaves the connection alone. -/
theorem enter_steps {n : ℕ} {state next : HttpClientState} (hstate : r.client.state = state)
    (hconn : Connected r) (hmoves : Moves t state next n) (hc : Calls r.client o next n)
    (hon : state = .connecting ∨ state = .writing ∨ state = .reading) :
    Steps t r (r.enter o).1 (r.enter o).2 := by
  have hstate' : (r.enter o).1.client.state = next := hc.next
  have hconn' : Connected (r.enter o).1 := hconn
  refine ⟨⟨n, by rwa [hstate, hstate'], hc.events⟩, hc.callback, rfl, rfl, ?_⟩
  rw [After, hstate]
  rcases hon with rfl | rfl | rfl <;> exact hconn'

theorem conn_eq {b fd : ℕ} (hb : r.tcpConn = some b)
    (hcell : r.tcpClients.cell b = some ⟨some fd⟩) : r.conn = .ok ⟨some fd⟩ := by
  rw [conn, hb]
  exact Memory.read_of_cell hcell

theorem connectingOn_moves (t : HttpClientTick) (c : HttpClient) (fd : ℕ) :
    ∃ next n, Moves t .connecting next n ∧ Calls c (connectingOn t c ⟨some fd⟩) next n := by
  rcases hso : t.soError with _ | error
  · refine ⟨.dispose, 0, .unknown hso, ?_⟩
    rw [connectingOn, hso]
    exact ⟨rfl, fun _ => rfl, rfl⟩
  · have hne : t.soError ≠ none := by simp [hso]
    rw [connectingOn, hso]
    dsimp only
    split
    · exact ⟨.writing, 0, .connected hne, ⟨rfl, fun _ => rfl, rfl⟩⟩
    · split
      · exact ⟨.connecting, 0, .awaits hne, ⟨rfl, fun _ => rfl, rfl⟩⟩
      · exact ⟨.dispose, 1, .unreachable hne, ⟨rfl, fun hcb => callbacks_notify hcb _ _, rfl⟩⟩

theorem workConnecting_steps (hstate : r.client.state = .connecting) (hconn : Connected r)
    (h : r.workConnecting t = .ok (r', evs)) : Steps t r r' evs := by
  obtain ⟨b, fd, hb, hcell, -⟩ := id hconn
  rw [workConnecting, hb] at h
  dsimp only at h
  rw [Memory.read_of_cell hcell] at h
  obtain ⟨rfl, rfl⟩ := Prod.ext_iff.mp (Except.ok.inj h)
  obtain ⟨next, n, hmoves, hc⟩ := connectingOn_moves t r.client fd
  exact enter_steps hstate hconn hmoves hc (by simp)

theorem workWriting_steps (hstate : r.client.state = .writing) (hconn : Connected r)
    (h : r.workWriting t = .ok (r', evs)) : Steps t r r' evs := by
  obtain ⟨b, fd, hb, hcell, -⟩ := id hconn
  obtain ⟨s, o, ho, hro⟩ : ∃ s o, r.client.workWriting t.writeAlloc s = .ok o ∧
      r.enter o = (r', evs) := by
    rw [workWriting] at h
    split at h
    · rw [conn_eq hb hcell] at h
      exact ⟨_, Fallible.exists_of_map h⟩
    · exact ⟨_, Fallible.exists_of_map h⟩
  obtain ⟨rfl, rfl⟩ := Prod.ext_iff.mp hro
  rcases workWriting_calls ho with hc | hc | hc
  · exact enter_steps hstate hconn .unsent hc (by simp)
  · exact enter_steps hstate hconn .sends hc (by simp)
  · exact enter_steps hstate hconn .sent hc (by simp)

theorem workReading_steps (hstate : r.client.state = .reading) (hconn : Connected r)
    (h : r.workReading t = .ok (r', evs)) : Steps t r r' evs := by
  obtain ⟨b, fd, hb, hcell, -⟩ := id hconn
  rw [workReading, conn_eq hb hcell] at h
  obtain ⟨o, ho, hro⟩ := Fallible.exists_of_map h
  obtain ⟨rfl, rfl⟩ := Prod.ext_iff.mp hro
  rcases workReading_calls ho with hc | hc | hc
  · exact enter_steps hstate hconn .unread hc (by simp)
  · exact enter_steps hstate hconn .reads hc (by simp)
  · exact enter_steps hstate hconn .read hc (by simp)

theorem callbacks_report {c : HttpClient} (hcb : c.callback = true) : callbacks (report c) = 1 := by
  rw [report]
  split <;> exact callbacks_notify hcb _ _

theorem workDone_steps (hstate : r.client.state = .done) (hconn : Connected r)
    (h : r.workDone = .ok (r', evs)) : Steps t r r' evs := by
  obtain ⟨b, fd, hb, hcell, hsockets⟩ := hconn
  obtain ⟨m, hm, hput⟩ := Memory.exists_put hcell (some ⟨none⟩)
  rw [workDone, hb] at h
  dsimp only at h
  obtain ⟨_, hread, h⟩ := Fallible.exists_of_bind_pure h
  obtain rfl := Except.ok.inj ((Memory.read_of_cell hcell).symm.trans hread)
  obtain ⟨_, hwrite, h⟩ := Fallible.exists_of_bind_pure h
  obtain rfl := Except.ok.inj (hm.symm.trans hwrite)
  obtain ⟨rfl, rfl⟩ := Prod.ext_iff.mp (Except.ok.inj h)
  have hclosed : (r.sockets.close fd).AllClosed := hsockets.close List.not_mem_nil
  refine ⟨⟨1, ?_, fun hcb => callbacks_report hcb⟩, rfl, rfl, rfl, ?_⟩
  · rw [hstate]
    exact .reported
  · rw [After, hstate]
    exact ⟨rfl, ⟨b, _, hput.cell_self⟩, hclosed, rfl, rfl, rfl⟩

theorem workInit_client (c : HttpClient) : ∃ u : Url, c.workInit.client = c ∨
    c.workInit.client = { c with hostname := u.hostname, port := u.port, path := u.path } := by
  rw [workInit]
  split
  · exact ⟨⟨[], [], []⟩, Or.inl rfl⟩
  · rename_i u _
    refine ⟨u, Or.inr ?_⟩
    dsimp only
    split <;> rfl

theorem workInit_steps (hstate : r.client.state = .init) (hidle : Idle r) :
    Steps t r (r.enter r.client.workInit).1 (r.enter r.client.workInit).2 := by
  have hbuffers : NoBuffers r.client.workInit.client := by
    obtain ⟨u, hu | hu⟩ := workInit_client r.client
    · rw [hu]
      exact hidle.buffers
    · rw [hu]
      exact ⟨hidle.buffers.1, hidle.buffers.2, hidle.buffers.3⟩
  have hidle' : Idle (r.enter r.client.workInit).1 :=
    ⟨hidle.tcpConn, hidle.tcpClients, hidle.sockets, hbuffers.1, hbuffers.2, hbuffers.3⟩
  obtain ⟨next, n, hmoves, hc⟩ : ∃ next n, Moves t .init next n ∧
      Calls r.client r.client.workInit next n := by
    rcases workInit_calls r.client with hc | hc
    · exact ⟨_, _, .refused, hc⟩
    · exact ⟨_, _, .parsed, hc⟩
  have hstate' : (r.enter r.client.workInit).1.client.state = next := hc.next
  refine ⟨⟨n, by rwa [hstate, hstate'], hc.events⟩, hc.callback, rfl, rfl, ?_⟩
  rw [After, hstate]
  exact hidle'

/-- **A tick that is not the last moves to a state**, and the client holds what it is to hold. -/
theorem dispatch_steps (hphase : Phase r) (hstate : r.client.state ≠ .dispose)
    (h : r.dispatch t = .ok (r', evs)) : Steps t r r' evs := by
  rw [Phase] at hphase
  rw [dispatch] at h
  split at h <;> rename_i hs <;> rw [hs] at hphase
  · obtain ⟨rfl, rfl⟩ := Prod.ext_iff.mp (Except.ok.inj h)
    exact workInit_steps hs hphase
  · exact workConnect_steps hs hphase h
  · exact workConnecting_steps hs hphase h
  · exact workWriting_steps hs hphase h
  · exact workReading_steps hs hphase h
  · exact workDone_steps hs hphase h
  · exact absurd hs hstate

theorem Steps.phase (h : Steps t r r' evs) : Phase r' := by
  obtain ⟨n, hmoves, -⟩ := h.moves
  have hafter := h.after
  rw [After] at hafter
  rw [Phase]
  generalize r.client.state = s at hmoves hafter
  generalize r'.client.state = s' at hmoves
  cases hmoves with
  | refused => exact Or.inl hafter
  | parsed => exact hafter
  | unconnected hi => exact Or.inl (by simpa [hi] using hafter)
  | initiated hi => simpa [hi] using hafter
  | reported => exact Or.inr (Or.inr hafter)
  | unknown | unreachable | unsent | unread => exact Or.inr (Or.inl hafter)
  | _ => exact hafter

@[simp] theorem setTimer_client (t : HttpClientTick) (r : HttpClientRun κ) :
    (r.setTimer t).client = r.client := by
  rw [setTimer]
  split <;> rfl

theorem setTimer_steps (h : Steps t (r.setTimer t) r' evs) : Steps t r r' evs := by
  rw [setTimer] at h
  split at h
  · exact ⟨h.moves, h.callback, h.freed, h.task, h.after⟩
  · exact h

theorem Idle.setTimer (h : Idle r) (t : HttpClientTick) : Idle (r.setTimer t) := by
  rw [HttpClientRun.setTimer]
  split
  · exact ⟨h.tcpConn, h.tcpClients, h.sockets, h.buffers⟩
  · exact h

theorem Closed.setTimer (h : Closed r) (t : HttpClientTick) : Closed (r.setTimer t) := by
  rw [HttpClientRun.setTimer]
  split
  · exact ⟨h.tcpConn, h.tcpClients, h.sockets, h.buffers⟩
  · exact h

theorem Connected.setTimer (h : Connected r) (t : HttpClientTick) : Connected (r.setTimer t) := by
  rw [HttpClientRun.setTimer]
  split <;> exact h

theorem Phase.setTimer (h : Phase r) (t : HttpClientTick) : Phase (r.setTimer t) := by
  rw [Phase, setTimer_client]
  rw [Phase] at h
  split <;> rename_i hs <;> rw [hs] at h
  · exact Idle.setTimer h t
  · exact Idle.setTimer h t
  · exact Connected.setTimer h t
  · exact Connected.setTimer h t
  · exact Connected.setTimer h t
  · exact Connected.setTimer h t
  · exact h.imp (Idle.setTimer · t) (Or.imp (Connected.setTimer · t) (Closed.setTimer · t))

/-- **What a tick of `http_client_work` does**: the client times out, is disposed, or takes a step.
-/
theorem work_cases (hphase : Phase r) (h : r.work t = .ok (r', evs)) : r.freed = false ∧
    ((TimedOut t r ∧ r' = r.dispose ∧ evs = r.notifyTimeout) ∨
      (¬ TimedOut t r ∧ r.client.state = .dispose ∧ r' = (r.setTimer t).dispose ∧ evs = []) ∨
      (¬ TimedOut t r ∧ Steps t r r' evs)) := by
  rw [work] at h
  split at h
  · cases h
  · rename_i hfreed
    refine ⟨by simpa using hfreed, ?_⟩
    split at h
    · rename_i hlate
      obtain ⟨rfl, rfl⟩ := Prod.ext_iff.mp (Except.ok.inj h)
      exact Or.inl ⟨hlate, rfl, rfl⟩
    · rename_i hlate
      by_cases hstate : r.client.state = .dispose
      · rw [dispatch, setTimer_client, hstate] at h
        obtain ⟨rfl, rfl⟩ := Prod.ext_iff.mp (Except.ok.inj h)
        exact Or.inr (Or.inl ⟨hlate, hstate, rfl, rfl⟩)
      · refine Or.inr (Or.inr ⟨hlate, setTimer_steps ?_⟩)
        exact dispatch_steps (hphase.setTimer t) (by rwa [setTimer_client]) h

/-- A client that was freed gets no more ticks. -/
theorem run_of_freed (hfreed : r.freed = true) (h : Trace.run work ticks r = .ok (r', evs)) :
    ticks = [] ∧ r' = r ∧ evs = [] := by
  cases ticks with
  | nil =>
    obtain ⟨rfl, rfl⟩ := Prod.ext_iff.mp (Except.ok.inj h)
    exact ⟨rfl, rfl, rfl⟩
  | cons t ticks =>
    obtain ⟨_, _, _, hstep, -⟩ := Trace.exists_of_run_cons h
    rw [work, if_pos hfreed] at hstep
    cases hstep

/-! ## A whole run -/

/-- The tick finds the client done. -/
def FindsDone (_ : HttpClientTick) (r : HttpClientRun κ) : Prop := r.client.state = .done

/-- The tick cannot tell whether the client is connected. -/
def StatusUnknown (t : HttpClientTick) (r : HttpClientRun κ) : Prop :=
  r.client.state = .connecting ∧ ¬ TimedOut t r ∧ t.soError = none

/-- The timeout comes when the client is to be disposed. -/
def LateTimeout (t : HttpClientTick) (r : HttpClientRun κ) : Prop :=
  r.client.state = .dispose ∧ TimedOut t r

/-- How often the callback is called on the way to the end of a run, from a state on. -/
def Balance (state : HttpClientState) (n : ℕ) (done unknown late : Prop) : Prop :=
  match state with
  | .dispose => ¬ done ∧ ¬ unknown ∧ (late ∧ n = 1 ∨ ¬ late ∧ n = 0)
  | .done => done ∧ 1 ≤ n
  | _ => n = 1 ↔ ¬ done ∧ (unknown ↔ late)

theorem balance_of_timedOut (state : HttpClientState) :
    Balance state 1 (state = .done) False (state = .dispose) := by
  cases state <;> simp [Balance]

/-- **A step adds to the balance of what follows it.** -/
theorem Moves.balance {state next : HttpClientState} {n m : ℕ} {done unknown late : Prop}
    (h : Moves t state next n) (hnext : Balance next m done unknown late) :
    Balance state (n + m) (state = .done ∨ done) (state = .connecting ∧ t.soError = none ∨ unknown)
      late := by
  cases h with
  | unknown hso | unreachable hso | unconnected _ =>
    obtain ⟨hd, hu, ⟨hl, rfl⟩ | ⟨hl, rfl⟩⟩ := hnext <;> simp [Balance, *]
  | refused | unsent | unread =>
    obtain ⟨hd, hu, ⟨hl, rfl⟩ | ⟨hl, rfl⟩⟩ := hnext <;> simp [Balance, *]
  | read =>
    have hm : m ≠ 0 := Nat.ne_of_gt hnext.2
    simp [Balance, hm, hnext.1]
  | reported => exact ⟨Or.inl rfl, Nat.le_add_right 1 m⟩
  | awaits hso | connected hso => simpa [Balance, hso] using hnext
  | _ => simpa [Balance] using hnext

theorem balance_of_run (hphase : Phase r) (hcb : r.client.callback = true)
    (hlive : r.freed = false) (h : Trace.run work ticks r = .ok (r', evs))
    (hfreed : r'.freed = true) :
    Balance r.client.state (callbacks evs) (Trace.Visits work FindsDone ticks r)
      (Trace.Visits work StatusUnknown ticks r) (Trace.Visits work LateTimeout ticks r) := by
  induction ticks generalizing r evs with
  | nil =>
    obtain ⟨rfl, -⟩ := Prod.ext_iff.mp (Except.ok.inj h)
    cases hlive.symm.trans hfreed
  | cons t ticks ih =>
    obtain ⟨r₁, evs₁, evs₂, hstep, hrest, rfl⟩ := Trace.exists_of_run_cons h
    simp only [Trace.visits_cons_of_ok hstep]
    obtain ⟨-, ⟨hlate, rfl, rfl⟩ | ⟨hlate, hstate, rfl, rfl⟩ | ⟨hlate, hs⟩⟩ :=
      work_cases hphase hstep
    · obtain ⟨rfl, -, rfl⟩ := run_of_freed rfl hrest
      have hone : callbacks r.notifyTimeout = 1 := by
        rw [notifyTimeout, if_pos hcb]
        rfl
      have hb := balance_of_timedOut r.client.state
      simpa [hone, FindsDone, StatusUnknown, LateTimeout, hlate] using hb
    · obtain ⟨rfl, -, rfl⟩ := run_of_freed rfl hrest
      simp [Balance, hstate, FindsDone, StatusUnknown, LateTimeout, hlate]
    · obtain ⟨n, hmoves, hn⟩ := hs.moves
      have hb := hmoves.balance (ih hs.phase (hs.callback.trans hcb) (hs.freed.trans hlive) hrest)
      simpa [hn hcb, FindsDone, StatusUnknown, LateTimeout, hlate] using hb

/-- **A client as `http_client_get` is to register it**: in the first state, holding nothing. -/
structure Initial (r : HttpClientRun κ) : Prop where
  state : r.client.state = .init
  idle : Idle r
  live : r.freed = false

theorem initial_zeroed (url : List Byte) (callback : Bool) (timeout : UInt64) (task : TaskHandle)
    (smw : Smw κ) : Initial (zeroed url callback timeout task smw) :=
  ⟨rfl, ⟨rfl, fun _ => rfl, ⟨by simp [zeroed, Sockets.none], by simp [zeroed, Sockets.none], nofun⟩,
    rfl, rfl, rfl⟩, rfl⟩

/-- **A run calls the callback once exactly when no tick finds the client done**, and a status of
the socket that is not to be had goes with a timeout in the last tick. -/
theorem callbacks_eq_one_iff (hr : Initial r) (hcb : r.client.callback = true)
    (h : Trace.run work ticks r = .ok (r', evs)) (hfreed : r'.freed = true) :
    callbacks evs = 1 ↔ ¬ Trace.Visits work FindsDone ticks r ∧
      (Trace.Visits work StatusUnknown ticks r ↔ Trace.Visits work LateTimeout ticks r) := by
  have hphase : Phase r := by
    rw [Phase, hr.state]
    exact hr.idle
  have hb := balance_of_run hphase hcb hr.live h hfreed
  rwa [hr.state] at hb

/-- A URL without a host is reported once. -/
theorem callbacks_badUrl :
    ∃ r' evs, Trace.run work [.smooth 0, .smooth 0]
        (zeroed (bytes "/") true 10000 0 (Smw.init : Smw Unit)) = .ok (r', evs) ∧
      ¬ Trace.Visits work FindsDone [.smooth 0, .smooth 0]
        (zeroed (bytes "/") true 10000 0 (Smw.init : Smw Unit)) ∧
      (Trace.Visits work StatusUnknown [.smooth 0, .smooth 0]
          (zeroed (bytes "/") true 10000 0 (Smw.init : Smw Unit)) ↔
        Trace.Visits work LateTimeout [.smooth 0, .smooth 0]
          (zeroed (bytes "/") true 10000 0 (Smw.init : Smw Unit))) := by
  have hrun : (Trace.run work [.smooth 0, .smooth 0]
      (zeroed (bytes "/") true 10000 0 (Smw.init : Smw Unit))).toOption.map
        (fun r => (r.1.freed, callbacks r.2)) = some (true, 1) := by
    decide +kernel
  obtain ⟨⟨r', evs⟩, hrun, hend⟩ := Fallible.exists_of_toOption hrun
  obtain ⟨hfreed, hone⟩ := Prod.ext_iff.mp hend
  exact ⟨r', evs, hrun, (callbacks_eq_one_iff (initial_zeroed _ _ _ _ _) rfl hrun hfreed).mp hone⟩

/-- **A response is reported twice.** -/
theorem callbacks_response :
    ∃ r' evs, Trace.run work [.smooth 0, .smooth 0, .smooth 0, .smooth 0,
        { HttpClientTick.smooth 0 with
          recv := .data ⟨bytes "HTTP/1.1 200 OK\r\n\r\n", by decide +kernel, by decide +kernel⟩ },
        .smooth 0, .smooth 0]
        (zeroed (bytes "a") true 10000 0 (Smw.init : Smw Unit)) = .ok (r', evs) ∧
      r'.freed = true ∧ callbacks evs = 2 := by
  have hrun : (Trace.run work [.smooth 0, .smooth 0, .smooth 0, .smooth 0,
      { HttpClientTick.smooth 0 with
        recv := .data ⟨bytes "HTTP/1.1 200 OK\r\n\r\n", by decide +kernel, by decide +kernel⟩ },
      .smooth 0, .smooth 0]
      (zeroed (bytes "a") true 10000 0 (Smw.init : Smw Unit))).toOption.map
        (fun r => (r.1.freed, callbacks r.2)) = some (true, 2) := by
    decide +kernel
  obtain ⟨⟨r', evs⟩, hrun, hend⟩ := Fallible.exists_of_toOption hrun
  obtain ⟨hfreed, htwo⟩ := Prod.ext_iff.mp hend
  exact ⟨r', evs, hrun, hfreed, htwo⟩

end HttpClientRun
