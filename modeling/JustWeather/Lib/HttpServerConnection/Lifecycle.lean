import JustWeather.Lib.HttpServerConnection.Steps

/-!
# Lib/HttpServerConnection/Lifecycle — the whole life of a connection

The scheduler calls the connection's task whenever it comes to it, and the rest of the program
creates and destroys tasks of its own in between (`step`).  A connection is in one of three phases
(`Phase`): it receives, it answers, or it is disposed of and has no task left.  Each phase says what
has happened so far, and every law of a connection's life is read off it (`lifecycle`).
-/

open CLib MessageHead

namespace HTTPServerConnection

/-! ## The scheduler and the connection -/

/-- Whose task it is: the connection's, or another one's. -/
inductive Owner
  | connection
  | other (id : ℕ)
  deriving DecidableEq

variable {onRequest : OnRequest} {fd : ℤ} {task : Option TaskHandle} {smw : Smw Owner}
  {x y : Smw Owner × HTTPServerConnection} {seen seen' : List Seen} {i : Input}

/-- What happens next: the scheduler comes to the connection's task, or somebody else creates or
destroys a task. -/
inductive Input
  | tick (t : Tick)
  | create (taskOk nodeOk : Bool) (id : ℕ)
  | destroy (handle : TaskHandle)

/-- What is seen: the connection's task was called, or the connection did something. -/
inductive Seen
  | called
  | event (e : Event)
  deriving DecidableEq

/-- The connection's task is registered. -/
def registered (smw : Smw Owner) : Bool := smw.tasks.any (·.context = .connection)

/-- The task of this handle is the connection's. -/
def owns (smw : Smw Owner) (handle : TaskHandle) : Bool :=
  smw.tasks.any fun t => t.handle = handle ∧ t.context = .connection

/-- One step of the program around a connection.  The scheduler calls only registered tasks, and
nobody but the connection destroys the connection's task. -/
def step (onRequest : OnRequest) (i : Input) (x : Smw Owner × HTTPServerConnection) :
    Except Fault ((Smw Owner × HTTPServerConnection) × List Seen) :=
  match i with
  | .tick t =>
    if registered x.1 then
      (taskWork onRequest t x).map fun r => (r.1, .called :: r.2.map .event)
    else .ok (x, [])
  | .create taskOk nodeOk id => .ok (((x.1.createTask taskOk nodeOk (.other id)).2, x.2), [])
  | .destroy handle =>
    if owns x.1 handle then .ok (x, []) else .ok ((x.1.destroyTask (some handle), x.2), [])

/-- A connection is accepted: it gets a task, if there is memory for one. -/
def accept (taskOk nodeOk : Bool) (smw : Smw Owner) (fd : ℤ) : Smw Owner × HTTPServerConnection :=
  let r := smw.createTask taskOk nodeOk .connection
  (r.2, initiate fd r.1)

/-! ## What a run shows -/

/-- The connections the callback was called on. -/
def requests (seen : List Seen) : List HTTPServerConnection :=
  seen.filterMap fun
    | .event (.request c) => some c
    | _ => none

/-- The bytes the socket took. -/
def accepted (seen : List Seen) : List Byte :=
  seen.flatMap fun
    | .event (.accepted bs) => bs
    | _ => []

theorem requests_append (as bs : List Seen) :
    requests (as ++ bs) = requests as ++ requests bs := List.filterMap_append

theorem accepted_append (as bs : List Seen) :
    accepted (as ++ bs) = accepted as ++ accepted bs := List.flatMap_append

/-! ## The phases -/

/-- A request may be handed on: its head was read, and every string of it is there. -/
structure Parsed (c : HTTPServerConnection) : Prop where
  bodyStart : 0 < c.bodyStart
  method : c.method.isSome
  requestPath : c.requestPath.isSome
  host : c.host.isSome

/-- **The phase a connection is in**, with what it has shown so far. -/
inductive Phase (fd : ℤ) (task : Option TaskHandle) (c : HTTPServerConnection) (seen : List Seen) :
    Prop
  /-- it waits for the rest of a request, and has done nothing -/
  | receives (s : List Byte) (hw : Waits (· = .all) fd task s c) (hlt : s.length < sizeMod)
      (hreq : requests seen = []) (hacc : accepted seen = []) (hdisp : .event .disposed ∉ seen)
  /-- its one request was answered with `b`, and the socket has taken what lies before the offset -/
  | answers (r : HTTPServerConnection) (b : List Byte) (hr : Parsed r)
      (hreq : requests seen = [r]) (hstate : c.state ≠ .receive) (hb : c.writeBuffer = some b)
      (hle : c.writeOffset ≤ c.writeSize) (hacc : accepted seen = b.take c.writeOffset)
      (hdone : c.state = .dispose → c.writeOffset = c.writeSize ∨ .event .sendError ∈ seen)
      (hdisp : .event .disposed ∉ seen)
  /-- it is disposed of, and that was the last thing it did -/
  | closed (r : HTTPServerConnection) (before : List Seen) (hr : Parsed r)
      (hreq : requests seen = [r]) (hstate : c.state = .dispose) (htask : c.task = none)
      (hoff : c.writeOffset = 0) (hseen : seen = before ++ [.event .disposed])
      (hdisp : .event .disposed ∉ before)

/-- A registered task of the connection is the one the connection knows. -/
def Owned (x : Smw Owner × HTTPServerConnection) : Prop :=
  ∀ t ∈ x.1.tasks, t.context = .connection → x.2.task = some t.handle

/-- The moves of `state`. -/
def Moves (a b : HttpServerConnectionState) : Prop :=
  a = b ∨ (a = .receive ∧ b = .send) ∨ (a = .send ∧ b = .dispose)

/-- The receive path of a tick does not run out of memory. -/
def Plenty (i : Input) : Prop := ∀ t, i = .tick t → t.alloc = .all

theorem registered_iff : registered smw = true ↔ ∃ t ∈ smw.tasks, t.context = .connection := by
  simp [registered]

/-- A request that is dispatched with memory for everything is whole. -/
theorem Waits.parsed {s : List Byte} {d : HTTPServerConnection} (hw : Waits (· = .all) fd task s d)
    (hcomp : d.complete = true) : Parsed d.dispatched := by
  obtain ⟨a, h, rfl, hs, rfl, -⟩ := hw.of_complete hcomp
  have h4 := (bodyStart_bounds hs).1
  rw [dispatched]
  split
  · exact ⟨Nat.lt_of_lt_of_le (by decide) h4, rfl, rfl, rfl⟩
  · exact ⟨Nat.lt_of_lt_of_le (by decide) h4, rfl, rfl, rfl⟩

section TaskWork

variable {t : Tick} {evs : List Event}

/-- What one call of the connection's task keeps: the phase goes on, the state moves forward, and
the connection gives up its socket only when all is sent or a `send` failed. -/
structure Kept (fd : ℤ) (task : Option TaskHandle) (x y : Smw Owner × HTTPServerConnection)
    (seen seen' : List Seen) : Prop where
  phase : Phase fd task y.2 (seen ++ seen')
  owned : Owned y
  moves : Moves x.2.state y.2.state
  entered : x.2.state ≠ .dispose → y.2.state = .dispose →
    y.2.writeOffset = y.2.writeSize ∨ .event .sendError ∈ seen'

/-- A tick of a connection that receives. -/
theorem kept_of_receives {s : List Byte} (hset : ∀ c r, onRequest c = .ok r → r.isSome)
    (ht : t.alloc = .all) (hown : Owned x) (hw : Waits (· = .all) fd task s x.2)
    (hlt : s.length < sizeMod) (hreq : requests seen = []) (hacc : accepted seen = [])
    (hdisp : .event .disposed ∉ seen) (h : taskWork onRequest t x = .ok (y, evs)) :
    Kept fd task x y seen (.called :: evs.map .event) := by
  rcases hw.of_ok ht hlt h with ⟨d, rfl, rfl, hw', hlt'⟩ | ⟨d, r, rfl, rfl, hr, hw', hcomp⟩
  · refine ⟨.receives _ hw' hlt' ?_ ?_ ?_, fun u hu hctx => ?_, ?_, fun _ hd => ?_⟩
    · rw [requests_append, hreq]
      rfl
    · rw [accepted_append, hacc]
      rfl
    · simpa using hdisp
    · rw [hw'.task_eq, ← hw.task_eq]
      exact hown u hu hctx
    · exact Or.inl (hw.state.trans hw'.state.symm)
    · cases hw'.state.symm.trans hd
  · obtain ⟨w, rfl⟩ := Option.isSome_iff_exists.mp (hset _ _ hr)
    have hstate : (d.dispatched.respond (some w)).state = .send := by simp
    have hoff : (d.dispatched.respond (some w)).writeOffset = 0 := by
      rw [← hw'.writeOffset.1, respond, dispatched]
      split <;> rfl
    have htask : (d.dispatched.respond (some w)).task = x.2.task := by
      rw [hw.task_eq, ← hw'.task_eq, respond, dispatched]
      split <;> rfl
    refine ⟨.answers d.dispatched w.writeBuffer (hw'.parsed hcomp) ?_ ?_ rfl ?_ ?_ ?_ ?_,
      fun u hu hctx => ?_, ?_, fun _ hd => ?_⟩
    · rw [requests_append, hreq]
      rfl
    · simp
    · rw [hoff]
      exact Nat.zero_le _
    · rw [accepted_append, hacc, hoff]
      rfl
    · intro hd
      cases hstate.symm.trans hd
    · simpa using hdisp
    · rw [htask]
      exact hown u hu hctx
    · exact Or.inr (Or.inl ⟨hw.state, hstate⟩)
    · cases hstate.symm.trans hd

/-- A tick of a connection that sends. -/
theorem kept_of_sends {r : HTTPServerConnection} {b : List Byte} (hown : Owned x) (hr : Parsed r)
    (hreq : requests seen = [r]) (hstate : x.2.state = .send) (hb : x.2.writeBuffer = some b)
    (hle : x.2.writeOffset ≤ x.2.writeSize) (hacc : accepted seen = b.take x.2.writeOffset)
    (hdisp : .event .disposed ∉ seen) (h : taskWork onRequest t x = .ok (y, evs)) :
    Kept fd task x y seen (.called :: evs.map .event) := by
  rw [taskWork_of_send x.1 hstate] at h
  rcases send_cases t.send x.2 with ⟨hs, -⟩ | ⟨hs, -⟩ | ⟨-, hs⟩ | ⟨b', n, hb', -, hn, hs⟩
  · rw [hs] at h
    cases h
    refine ⟨.answers r b hr ?_ (by simp [hstate]) hb hle ?_ (fun hd => ?_) (by simpa using hdisp),
      hown, Or.inl rfl, fun hne hd => absurd hd hne⟩
    · rw [requests_append, hreq]
      rfl
    · rw [accepted_append, hacc]
      exact List.append_nil _
    · cases hstate.symm.trans hd
  · rw [hs] at h
    cases h
  · rw [hs] at h
    cases h
    refine ⟨.answers r b hr ?_ (by simp) hb hle ?_ (fun _ => Or.inr (by simp))
      (by simpa using hdisp), hown, Or.inr (Or.inr ⟨hstate, rfl⟩), fun _ _ => Or.inr (by simp)⟩
    · rw [requests_append, hreq]
      rfl
    · rw [accepted_append, hacc]
      exact List.append_nil _
  · obtain rfl : b = b' := Option.some.inj (hb.symm.trans hb')
    rw [hs] at h
    cases h
    have hdone : (if x.2.writeSize ≤ x.2.writeOffset + n then HttpServerConnectionState.dispose
        else x.2.state) = .dispose → x.2.writeOffset + n = x.2.writeSize := by
      intro hd
      by_contra hne
      rw [if_neg (by omega), hstate] at hd
      cases hd
    refine ⟨.answers r b hr ?_ ?_ hb hn ?_ (fun hd => Or.inl (hdone hd)) (by simpa using hdisp),
      hown, ?_, fun _ hd => Or.inl (hdone hd)⟩
    · rw [requests_append, hreq]
      rfl
    · dsimp only
      split
      · simp
      · simp [hstate]
    · rw [accepted_append, hacc]
      change b.take x.2.writeOffset ++ ((b.drop x.2.writeOffset).take n ++ []) = _
      rw [List.append_nil, ← List.take_add]
    · dsimp only
      split
      · exact Or.inr (Or.inr ⟨hstate, rfl⟩)
      · exact Or.inl rfl

/-- The tick that disposes of a connection. -/
theorem kept_of_disposes {r : HTTPServerConnection} (hown : Owned x) (hr : Parsed r)
    (hreq : requests seen = [r]) (hstate : x.2.state = .dispose) (hdisp : .event .disposed ∉ seen)
    (h : taskWork onRequest t x = .ok (y, evs)) :
    Kept fd task x y seen (.called :: evs.map .event) := by
  rw [taskWork_of_dispose x.1 hstate] at h
  cases h
  refine ⟨.closed r (seen ++ [.called]) hr ?_ hstate rfl rfl (by simp) (by simpa using hdisp),
    fun u hu hctx => ?_, Or.inl (by rw [hstate, dispose, hstate]), fun hne _ => absurd hstate hne⟩
  · rw [requests_append, hreq]
    rfl
  · -- the connection's own task is the one that was destroyed
    have htask := hown u (Smw.mem_of_mem_destroyTask hu) hctx
    rw [dispose, htask] at hu
    exact absurd rfl (Smw.handle_ne_of_mem_destroyTask hu)

/-- **One call of the connection's task keeps the phase.** -/
theorem Phase.taskWork (hset : ∀ c r, onRequest c = .ok r → r.isSome) (ht : t.alloc = .all)
    (hp : Phase fd task x.2 seen) (hown : Owned x) (hreg : registered x.1 = true)
    (h : HTTPServerConnection.taskWork onRequest t x = .ok (y, evs)) :
    Kept fd task x y seen (.called :: evs.map .event) := by
  rcases hp with ⟨s, hw, hlt, hreq, hacc, hdisp⟩ |
    ⟨r, b, hr, hreq, hstate, hb, hle, hacc, hdone, hdisp⟩ | ⟨-, -, -, -, -, htask, -⟩
  · exact kept_of_receives hset ht hown hw hlt hreq hacc hdisp h
  · rcases hs : x.2.state with _ | _ | _
    · exact kept_of_sends hown hr hreq hs hb hle hacc hdisp h
    · exact absurd hs hstate
    · exact kept_of_disposes hown hr hreq hs hdisp h
  · obtain ⟨u, hu, hctx⟩ := registered_iff.mp hreg
    cases htask.symm.trans (hown u hu hctx)

end TaskWork

/-! ## Runs -/

/-- **Every step keeps the phase.** -/
theorem Phase.step (hset : ∀ c r, onRequest c = .ok r → r.isSome) (hi : Plenty i)
    (hp : Phase fd task x.2 seen) (hown : Owned x)
    (h : HTTPServerConnection.step onRequest i x = .ok (y, seen')) :
    Kept fd task x y seen seen' := by
  rcases i with t | ⟨taskOk, nodeOk, id⟩ | handle
  · rw [HTTPServerConnection.step] at h
    by_cases hreg : registered x.1
    · rw [if_pos hreg] at h
      rcases hw : HTTPServerConnection.taskWork onRequest t x with f | ⟨z, evs⟩
      · rw [hw] at h
        cases h
      · rw [hw] at h
        cases h
        exact hp.taskWork hset (hi t rfl) hown hreg hw
    · rw [if_neg hreg] at h
      cases h
      exact ⟨by rwa [List.append_nil], hown, Or.inl rfl, fun hne hd => absurd hd hne⟩
  · cases h
    refine ⟨by rwa [List.append_nil], fun u hu hctx => ?_, Or.inl rfl, fun hne hd => absurd hd hne⟩
    rcases Smw.mem_createTask hu with hu | rfl
    · exact hown u hu hctx
    · cases hctx
  · rw [HTTPServerConnection.step] at h
    split at h
    · cases h
      exact ⟨by rwa [List.append_nil], hown, Or.inl rfl, fun hne hd => absurd hd hne⟩
    · cases h
      exact ⟨by rwa [List.append_nil], fun u hu hctx => hown u (Smw.mem_of_mem_destroyTask hu) hctx,
        Or.inl rfl, fun hne hd => absurd hd hne⟩

/-- A connection that was just accepted receives, and owns the only task there is for it. -/
theorem phase_accept {taskOk nodeOk : Bool} (hnew : ∀ t ∈ smw.tasks, t.context ≠ .connection) :
    Phase fd (smw.createTask taskOk nodeOk .connection).1 (accept taskOk nodeOk smw fd).2 [] ∧
      Owned (accept taskOk nodeOk smw fd) := by
  refine ⟨.receives [] waits_initiate (by decide) rfl rfl (by simp), fun u hu hctx => ?_⟩
  rw [accept, Smw.createTask] at hu ⊢
  split at hu
  · rcases List.mem_append.mp hu with hu | hu
    · exact absurd hctx (hnew u hu)
    · obtain rfl := List.mem_singleton.mp hu
      rw [if_pos (by assumption)]
      rfl
  · exact absurd hctx (hnew u hu)

/-- **Every run keeps the phase.** -/
theorem run_phase {inputs : List Input} {taskOk nodeOk : Bool}
    (hset : ∀ c r, onRequest c = .ok r → r.isSome)
    (hnew : ∀ t ∈ smw.tasks, t.context ≠ .connection) (halloc : ∀ i ∈ inputs, Plenty i)
    (h : Trace.run (step onRequest) inputs (accept taskOk nodeOk smw fd) = .ok (x, seen)) :
    Phase fd (smw.createTask taskOk nodeOk .connection).1 x.2 seen ∧ Owned x := by
  refine Trace.run_invariant (P := fun js x seen => (∀ i ∈ js, Plenty i) →
    Phase fd (smw.createTask taskOk nodeOk .connection).1 x.2 seen ∧ Owned x) ?_ ?_ h halloc
  · exact fun _ => phase_accept hnew
  · intro js x y seen seen' i ih hstep halloc
    obtain ⟨hp, hown⟩ := ih fun j hj => halloc j (by simp [hj])
    have hkept := hp.step hset (halloc i (by simp)) hown hstep
    exact ⟨hkept.phase, hkept.owned⟩

/-- A step in which a `send` is shown to fail is a tick whose `send` fails. -/
theorem exists_of_sendError (h : step onRequest i x = .ok (y, seen'))
    (hmem : .event .sendError ∈ seen') : ∃ t, i = .tick t ∧ t.send = .error := by
  rcases i with t | ⟨taskOk, nodeOk, id⟩ | handle
  · rw [step] at h
    split at h
    · obtain ⟨⟨⟨smw', d⟩, evs⟩, hwork, hy⟩ := Fallible.exists_of_map h
      obtain ⟨-, rfl⟩ := Prod.ext_iff.mp hy
      exact ⟨t, rfl, send_eq_error hwork (by simpa using hmem)⟩
    · cases h
      cases hmem
  · cases h
    cases hmem
  · rw [step] at h
    split at h <;> cases h <;> cases hmem

/-- **The life of a connection.**  At every moment of every run: the callback was called at most
once, and only with a parsed request; the offset is at most the size; until the connection is
disposed of, the socket has taken exactly the bytes before the offset, and the connection is up for
disposal only if that is all of them or a `send` failed, of a tick in which the socket did; once it
is disposed of its task is not called again. And the next step moves the state forward or leaves it.
-/
theorem lifecycle (onRequest : OnRequest) (hset : ∀ c r, onRequest c = .ok r → r.isSome)
    (taskOk nodeOk : Bool) (smw : Smw Owner) (fd : ℤ)
    (hnew : ∀ t ∈ smw.tasks, t.context ≠ .connection) {inputs : List Input}
    (halloc : ∀ i ∈ inputs, Plenty i) {x : Smw Owner × HTTPServerConnection} {seen : List Seen}
    (h : Trace.run (step onRequest) inputs (accept taskOk nodeOk smw fd) = .ok (x, seen)) :
    (requests seen).length ≤ 1 ∧ (∀ c ∈ requests seen, Parsed c) ∧
    x.2.writeOffset ≤ x.2.writeSize ∧
    (.event .disposed ∉ seen →
      accepted seen = (x.2.writeBuffer.getD []).take x.2.writeOffset) ∧
    (.event .disposed ∉ seen → x.2.state = .dispose →
      x.2.writeOffset = x.2.writeSize ∨ .event .sendError ∈ seen) ∧
    (.event .sendError ∈ seen → ∃ t, .tick t ∈ inputs ∧ t.send = .error) ∧
    (∀ before after, seen = before ++ .event .disposed :: after → .called ∉ after) ∧
    ∀ i y seen', Plenty i → step onRequest i x = .ok (y, seen') →
      Moves x.2.state y.2.state ∧
      (x.2.state ≠ .dispose → y.2.state = .dispose →
        y.2.writeOffset = y.2.writeSize ∨ .event .sendError ∈ seen') ∧
      (.event .sendError ∈ seen' → ∃ t, i = .tick t ∧ t.send = .error) := by
  obtain ⟨hp, hown⟩ := run_phase hset hnew halloc h
  have hfails : .event .sendError ∈ seen → ∃ t, .tick t ∈ inputs ∧ t.send = .error := by
    intro hmem
    obtain ⟨pre, i, post, _, _, _, _, rfl, -, hstep, hin⟩ := Trace.exists_of_mem_events h hmem
    obtain ⟨t, rfl, ht⟩ := exists_of_sendError hstep hin
    exact ⟨t, by simp, ht⟩
  have hnext : ∀ i y seen', Plenty i → step onRequest i x = .ok (y, seen') →
      Moves x.2.state y.2.state ∧ (x.2.state ≠ .dispose → y.2.state = .dispose →
        y.2.writeOffset = y.2.writeSize ∨ .event .sendError ∈ seen') ∧
      (.event .sendError ∈ seen' → ∃ t, i = .tick t ∧ t.send = .error) := by
    intro i y seen' hi hstep
    have hkept := hp.step hset hi hown hstep
    exact ⟨hkept.moves, hkept.entered, exists_of_sendError hstep⟩
  have hnot : .event .disposed ∉ seen →
      ∀ before after, seen = before ++ .event .disposed :: after → .called ∉ after := by
    rintro hdisp before after rfl
    exact absurd (by simp) hdisp
  obtain ⟨s, hw, -, hreq, hacc, hdisp⟩ | ⟨r, b, hr, hreq, -, hb, hle, hacc, hdone, hdisp⟩ |
    ⟨r, before, hr, hreq, -, -, hoff, rfl, hdisp⟩ := hp
  · refine ⟨by simp [hreq], by simp [hreq], hw.writeOffset.1.trans_le (Nat.zero_le _), fun _ => ?_,
      fun _ hs => ?_, hfails, hnot hdisp, hnext⟩
    · rw [hacc, hw.writeOffset.1, List.take_zero]
    · cases hw.state.symm.trans hs
  · exact ⟨by simp [hreq], by simp [hreq, hr], hle, fun _ => by rw [hacc, hb, Option.getD_some],
      fun _ => hdone, hfails, hnot hdisp, hnext⟩
  · refine ⟨by simp [hreq], by simp [hreq, hr], by rw [hoff]; exact Nat.zero_le _,
      fun hno => absurd (by simp) hno, fun hno => absurd (by simp) hno, hfails,
      fun a b hsplit => ?_,
      hnext⟩
    rcases List.eq_nil_or_concat b with rfl | ⟨b, e, rfl⟩
    · simp
    · rw [List.concat_eq_append, ← List.cons_append, ← List.append_assoc] at hsplit
      have := List.append_inj_left' hsplit rfl
      exact absurd (by rw [this]; simp) hdisp

/-- A callback that answers every request with `hi`. -/
def greet : OnRequest := fun _ => .ok (some ⟨bytes "hi", 2⟩)

/-- One request, room for its answer in one `send`, and one tick more. -/
def greetInputs : List Input :=
  [.tick (readTick (bytes "GET / HTTP/1.1\r\n\r\n") (by decide) (by decide)),
    .tick ⟨.wouldBlock, .all, .accepts 2⟩, .tick idleTick]

theorem plenty_greetInputs : ∀ i ∈ greetInputs, Plenty i := by
  simp [greetInputs, Plenty, readTick, idleTick]

/-- The run ends with the disposal. -/
theorem lifecycle_greet : ∃ x seen,
    Trace.run (step greet) greetInputs (accept true true Smw.init 4) = .ok (x, seen) ∧
      (requests seen).length ≤ 1 ∧ .event .disposed ∈ seen :=
  ⟨_, _, rfl, (lifecycle greet (fun _ _ h => by cases h; rfl) true true Smw.init 4
    (by simp [Smw.init]) plenty_greetInputs rfl).1, by decide⟩

end HTTPServerConnection
