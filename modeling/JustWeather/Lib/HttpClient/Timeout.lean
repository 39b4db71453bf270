import JustWeather.Lib.HttpClient.Completion

/-!
# Lib/HttpClient/Timeout — when the timeout comes

`http_client_work` compares the tick with `timer + timeout`, a sum of two `uint64_t`, and keeps the
time of its first tick in `timer`, where `0` says that there is none.  So the timeout comes at the
first tick that is `timeout` after the first exactly when the first tick is not at time `0` and the
sum does not wrap (`inTime_iff`).
-/

open CLib

namespace HttpClient

variable {c : HttpClient} {o : Outcome} {a : ReadAlloc} {evs evs' : List Event}

/-! ## What the handlers report -/

/-- The callback got a response with each event. -/
def Answers (evs : List Event) : Prop := ∀ event, .called event none ∉ evs

theorem answers_nil : Answers [] := fun _ => List.not_mem_nil

theorem answers_accepted (bs : List Byte) : Answers [.accepted bs] := fun event h => by
  cases List.mem_singleton.mp h

theorem answers_notify (event response : List Byte) (c : HttpClient) :
    Answers (c.notify event response) := by
  intro event' h
  rw [notify] at h
  split at h
  · cases List.mem_singleton.mp h
  · cases h

theorem workInit_answers (c : HttpClient) : Answers c.workInit.events := by
  rw [workInit]
  split
  · exact answers_notify _ _ _
  · dsimp only
    split
    · exact answers_notify _ _ _
    · exact answers_nil

theorem sendRequest_answers {s : Send} {buffer : List Byte} (h : sendRequest s buffer c = .ok o) :
    Answers o.events := by
  rw [sendRequest.eq_def] at h
  split at h
  · cases h
  · split at h
    · obtain rfl := Except.ok.inj h
      exact answers_nil
    · obtain rfl := Except.ok.inj h
      exact answers_notify _ _ _
    · dsimp only at h
      split at h
      · obtain rfl := Except.ok.inj h
        exact answers_accepted _
      · obtain rfl := Except.ok.inj h
        exact answers_accepted _

theorem workWriting_answers {alloc : Bool} {s : Send} (h : workWriting alloc s c = .ok o) :
    Answers o.events := by
  rw [workWriting] at h
  split at h
  · exact sendRequest_answers h
  · split at h
    · exact sendRequest_answers (c := c.format) h
    · obtain rfl := Except.ok.inj h
      exact answers_notify _ _ _

theorem process_answers (h : c.process a = .ok o) : Answers o.events := by
  rw [process] at h
  split at h
  · cases h
  · obtain rfl := Except.ok.inj h
    exact answers_notify _ _ _
  · rw [finish] at h
    split at h
    · split at h
      · cases h
      · obtain rfl := Except.ok.inj h
        exact answers_notify _ _ _
    · obtain rfl := Except.ok.inj h
      exact answers_nil

theorem workReading_answers {r : Recv chunkSize} (h : c.workReading a r = .ok o) :
    Answers o.events := by
  rw [workReading] at h
  dsimp only at h
  split at h
  · obtain rfl := Except.ok.inj h
    exact answers_notify _ _ _
  · split at h
    · obtain rfl := Except.ok.inj h
      exact answers_nil
    · split at h
      · split at h
        · cases h
        · exact process_answers h
      · obtain rfl := Except.ok.inj h
        exact answers_notify _ _ _

end HttpClient

namespace HttpClientRun

open HttpClient

variable {κ : Type} {r r' r₀ : HttpClientRun κ} {t t₀ : HttpClientTick}
  {ticks pre : List HttpClientTick} {evs : List Event} {o : Outcome}

/-! ## One tick -/

/-- A handler leaves the timer, the timeout and the callback as they are, and reports no timeout. -/
structure Keeps (r r' : HttpClientRun κ) (evs : List Event) : Prop where
  timer : r'.timer = r.timer
  timeout : r'.timeout = r.timeout
  callback : r'.client.callback = r.client.callback
  answers : Answers evs

theorem enter_keeps (hcb : o.client.callback = r.client.callback) (ho : Answers o.events) :
    Keeps r (r.enter o).1 (r.enter o).2 :=
  ⟨rfl, rfl, hcb, ho⟩

theorem workConnect_keeps (h : r.workConnect t = .ok (r', evs)) : Keeps r r' evs := by
  rw [workConnect] at h
  split at h
  · dsimp only at h
    split at h
    · obtain ⟨m, -, hm⟩ := Fallible.exists_of_map h
      obtain ⟨rfl, rfl⟩ := Prod.ext_iff.mp hm
      exact ⟨rfl, rfl, rfl, answers_notify _ _ _⟩
    · obtain ⟨m, -, hm⟩ := Fallible.exists_of_map h
      obtain ⟨rfl, rfl⟩ := Prod.ext_iff.mp hm
      exact ⟨rfl, rfl, rfl, answers_nil⟩
  · obtain ⟨rfl, rfl⟩ := Prod.ext_iff.mp (Except.ok.inj h)
    exact enter_keeps rfl (answers_notify _ _ _)

theorem connectingOn_answers (t : HttpClientTick) (c : HttpClient) (tcpClient : TCPClient) :
    (connectingOn t c tcpClient).client = c ∧ Answers (connectingOn t c tcpClient).events := by
  rw [connectingOn]
  split
  · exact ⟨rfl, answers_nil⟩
  · exact ⟨rfl, answers_nil⟩
  · split
    · exact ⟨rfl, answers_nil⟩
    · split
      · exact ⟨rfl, answers_nil⟩
      · exact ⟨rfl, answers_notify _ _ _⟩

theorem workConnecting_keeps (h : r.workConnecting t = .ok (r', evs)) : Keeps r r' evs := by
  rw [workConnecting] at h
  split at h
  · obtain ⟨rfl, rfl⟩ := Prod.ext_iff.mp (Except.ok.inj h)
    exact enter_keeps rfl answers_nil
  · obtain ⟨tcpClient, -, hr⟩ := Fallible.exists_of_map h
    obtain ⟨rfl, rfl⟩ := Prod.ext_iff.mp hr
    obtain ⟨hc, ho⟩ := connectingOn_answers t r.client tcpClient
    exact enter_keeps (congrArg HttpClient.callback hc) ho

theorem workWriting_keeps (h : r.workWriting t = .ok (r', evs)) : Keeps r r' evs := by
  obtain ⟨s, o, ho, hro⟩ : ∃ s o, r.client.workWriting t.writeAlloc s = .ok o ∧
      r.enter o = (r', evs) := by
    rw [workWriting] at h
    split at h
    · obtain ⟨tcpClient, -, h⟩ := Fallible.exists_of_bind_pure h
      exact ⟨_, Fallible.exists_of_map h⟩
    · exact ⟨_, Fallible.exists_of_map h⟩
  obtain ⟨rfl, rfl⟩ := Prod.ext_iff.mp hro
  refine enter_keeps ?_ (workWriting_answers ho)
  rcases workWriting_calls ho with hc | hc | hc <;> exact hc.callback

theorem workReading_keeps (h : r.workReading t = .ok (r', evs)) : Keeps r r' evs := by
  rw [workReading] at h
  obtain ⟨tcpClient, -, h⟩ := Fallible.exists_of_bind_pure h
  obtain ⟨o, ho, hro⟩ := Fallible.exists_of_map h
  obtain ⟨rfl, rfl⟩ := Prod.ext_iff.mp hro
  refine enter_keeps ?_ (workReading_answers ho)
  rcases workReading_calls ho with hc | hc | hc <;> exact hc.callback

theorem report_answers (c : HttpClient) : Answers (report c) := by
  rw [report]
  split <;> exact answers_notify _ _ _

theorem workDone_keeps (h : r.workDone = .ok (r', evs)) : Keeps r r' evs := by
  rw [workDone] at h
  dsimp only at h
  split at h
  · obtain ⟨rfl, rfl⟩ := Prod.ext_iff.mp (Except.ok.inj h)
    exact enter_keeps rfl (report_answers _)
  · obtain ⟨tcpClient, -, h⟩ := Fallible.exists_of_bind_pure h
    obtain ⟨tcpClients, -, h⟩ := Fallible.exists_of_bind_pure h
    obtain ⟨rfl, rfl⟩ := Prod.ext_iff.mp (Except.ok.inj h)
    exact ⟨rfl, rfl, rfl, report_answers _⟩

/-- **No state handler touches the timer**, and none reports a timeout. -/
theorem dispatch_keeps (h : r.dispatch t = .ok (r', evs)) : Keeps r r' evs := by
  rw [dispatch] at h
  split at h
  · obtain ⟨rfl, rfl⟩ := Prod.ext_iff.mp (Except.ok.inj h)
    refine enter_keeps ?_ (workInit_answers _)
    rcases workInit_calls r.client with hc | hc <;> exact hc.callback
  · exact workConnect_keeps h
  · exact workConnecting_keeps h
  · exact workWriting_keeps h
  · exact workReading_keeps h
  · exact workDone_keeps h
  · obtain ⟨rfl, rfl⟩ := Prod.ext_iff.mp (Except.ok.inj h)
    exact ⟨rfl, rfl, rfl, answers_nil⟩

/-- The tick raises the TIMEOUT event. -/
def RaisesTimeout (t : HttpClientTick) (r : HttpClientRun κ) : Prop :=
  ∃ r' evs, r.work t = .ok (r', evs) ∧ .called (bytes "TIMEOUT") none ∈ evs

/-- **The event is raised by the test before the state**, and by nothing else. -/
theorem raisesTimeout_iff (hlive : r.freed = false) (hcb : r.client.callback = true) :
    RaisesTimeout t r ↔ TimedOut t r := by
  have hwork : r.work t = if TimedOut t r then .ok (r.dispose, r.notifyTimeout)
      else (r.setTimer t).dispatch t := by
    rw [work, if_neg (by simp [hlive])]
  constructor
  · rintro ⟨r', evs, h, hmem⟩
    by_contra hlate
    rw [hwork, if_neg hlate] at h
    exact (dispatch_keeps h).answers _ hmem
  · intro hlate
    refine ⟨r.dispose, r.notifyTimeout, by rw [hwork, if_pos hlate], ?_⟩
    rw [notifyTimeout, if_pos hcb]
    exact List.mem_singleton_self _

/-- **A tick that leaves the client there did not time it out**, and sets the timer if it was not
set. -/
theorem live_of_work (h : r.work t = .ok (r', evs)) (hlive : r'.freed = false) :
    r.freed = false ∧ ¬ TimedOut t r ∧ Keeps (r.setTimer t) r' evs := by
  rw [work] at h
  split at h
  · cases h
  · rename_i hfreed
    split at h
    · obtain ⟨rfl, -⟩ := Prod.ext_iff.mp (Except.ok.inj h)
      cases hlive
    · rename_i hlate
      exact ⟨by simpa using hfreed, hlate, dispatch_keeps h⟩

/-! ## From the first tick on -/

/-- A client that is there after the ticks `t₀ :: pre`: its timer has the time of `t₀`, and no tick
of `pre` came after `timer + timeout`. -/
structure Started (r₀ : HttpClientRun κ) (t₀ : HttpClientTick) (pre : List HttpClientTick)
    (r : HttpClientRun κ) : Prop where
  timer : r.timer = t₀.monTime
  timeout : r.timeout = r₀.timeout
  callback : r.client.callback = r₀.client.callback
  before : ∀ u ∈ pre, ¬ t₀.monTime + r₀.timeout ≤ u.monTime

/-- The first tick. -/
theorem started_of_work (htimer : r₀.timer = 0) (h : r₀.work t₀ = .ok (r, evs))
    (hlive : r.freed = false) : Started r₀ t₀ [] r := by
  obtain ⟨-, -, hkeeps⟩ := live_of_work h hlive
  rw [setTimer, if_pos htimer] at hkeeps
  exact ⟨hkeeps.timer, hkeeps.timeout, hkeeps.callback, by simp⟩

/-- Any later tick, of a client whose first tick was not at time `0`. -/
theorem Started.work {pre : List HttpClientTick} (hs : Started r₀ t₀ pre r)
    (h₀ : t₀.monTime ≠ 0) (h : r.work t = .ok (r', evs)) (hlive : r'.freed = false) :
    Started r₀ t₀ (pre ++ [t]) r' := by
  obtain ⟨-, hlate, hkeeps⟩ := live_of_work h hlive
  have hset : r.timer ≠ 0 := by rwa [hs.timer]
  rw [setTimer, if_neg hset] at hkeeps
  refine ⟨hkeeps.timer.trans hs.timer, hkeeps.timeout.trans hs.timeout,
    hkeeps.callback.trans hs.callback, fun u hu => ?_⟩
  rcases List.mem_append.mp hu with hu | hu
  · exact hs.before u hu
  · rw [List.mem_singleton.mp hu]
    intro hle
    refine hlate ⟨hset, ?_⟩
    rwa [hs.timer, hs.timeout]

/-- **A client that is still there has not timed out**, and its timer has the time of the first
tick. -/
theorem started_of_run (htimer : r₀.timer = 0) (h₀ : t₀.monTime ≠ 0)
    (h : Trace.run work (t₀ :: pre) r₀ = .ok (r, evs)) (hlive : r.freed = false) :
    Started r₀ t₀ pre r := by
  obtain ⟨r₁, evs₁, evs₂, hfirst, hrest, -⟩ := Trace.exists_of_run_cons h
  refine Trace.run_invariant (P := fun js r _ => r.freed = false → Started r₀ t₀ js r)
    (started_of_work htimer hfirst) ?_ hrest hlive
  intro js r r' evs evs' t ih hstep hlive
  have hlive' : r.freed = false := (live_of_work hstep hlive).1
  exact (ih hlive').work h₀ hstep hlive

/-! ## The timeout as natural numbers -/

/-- The tick is `timeout` after the first one. -/
def Passed (timeout : UInt64) (t₀ t : HttpClientTick) : Prop :=
  timeout.toNat ≤ t.monTime.toNat - t₀.monTime.toNat

/-- **The timeout comes in time**: of the ticks after the first, the event is raised at the first
that is `timeout` after it, and at no other. -/
def InTime (r₀ : HttpClientRun κ) (t₀ : HttpClientTick) (ticks : List HttpClientTick) : Prop :=
  ∀ pre t post, ticks = pre ++ t :: post →
    ∀ r evs, Trace.run work (t₀ :: pre) r₀ = .ok (r, evs) → r.freed = false →
      (RaisesTimeout t r ↔ Passed r₀.timeout t₀ t ∧ ∀ u ∈ pre, ¬ Passed r₀.timeout t₀ u)

/-- The times do not decrease. -/
def NonDecreasing (ticks : List HttpClientTick) : Prop :=
  ticks.Pairwise fun t u => t.monTime ≤ u.monTime

/-- A sum that does not wrap is compared as natural numbers are. -/
theorem add_le_iff_passed {timeout : UInt64} (hle : t₀.monTime ≤ t.monTime)
    (hlt : t₀.monTime.toNat + timeout.toNat < 2 ^ 64) :
    t₀.monTime + timeout ≤ t.monTime ↔ Passed timeout t₀ t := by
  rw [UInt64.le_iff_toNat_le] at hle ⊢
  rw [UInt64.toNat_add, Nat.mod_eq_of_lt hlt, Passed]
  omega

/-- A sum that wraps has come before the first tick. -/
theorem add_le_of_wrap {time timeout : UInt64} (hge : 2 ^ 64 ≤ time.toNat + timeout.toNat) :
    time + timeout ≤ time := by
  have htime := time.toNat_lt
  have htimeout := timeout.toNat_lt
  rw [UInt64.le_iff_toNat_le, UInt64.toNat_add]
  omega

/-- In a run that starts later than `0`, with a sum that does not wrap, the timeout comes in
time. -/
theorem inTime_of_lt (htimer : r₀.timer = 0) (hcb : r₀.client.callback = true)
    (h₀ : t₀.monTime ≠ 0) (hlt : t₀.monTime.toNat + r₀.timeout.toNat < 2 ^ 64)
    (hsorted : NonDecreasing (t₀ :: ticks)) : InTime r₀ t₀ ticks := by
  rintro pre t post rfl r evs hrun hlive
  have hs := started_of_run htimer h₀ hrun hlive
  have hle : ∀ u ∈ pre ++ t :: post, t₀.monTime ≤ u.monTime := (List.pairwise_cons.mp hsorted).1
  have hbefore : ∀ u ∈ pre, ¬ Passed r₀.timeout t₀ u := fun u hu hpassed =>
    hs.before u hu ((add_le_iff_passed (hle u (by simp [hu])) hlt).mpr hpassed)
  rw [raisesTimeout_iff hlive (hs.callback.trans hcb), TimedOut, hs.timer, hs.timeout,
    and_iff_right h₀, add_le_iff_passed (hle t (by simp)) hlt]
  exact (and_iff_left hbefore).symm

/-- What the law says of the second tick. -/
theorem InTime.second {ticks : List HttpClientTick} (h : InTime r₀ t₀ (t :: ticks))
    (hcb : r₀.client.callback = true) (hs : Started r₀ t₀ [] r) (hwork : r₀.work t₀ = .ok (r, evs))
    (hlive : r.freed = false) : TimedOut t r ↔ Passed r₀.timeout t₀ t := by
  have := h [] t ticks rfl r _ (Trace.run_cons_of_ok hwork) hlive
  rw [raisesTimeout_iff hlive (hs.callback.trans hcb)] at this
  rw [this, and_iff_left (by simp)]

/-- **When the timeout comes in time**: whatever the ticks and whatever the states do with them,
exactly when the first tick is not at time `0`, which the timer has for no time at all, and
`timer + timeout` does not wrap. -/
theorem inTime_iff (htimer : r₀.timer = 0) (hcb : r₀.client.callback = true)
    (hfirst : ∃ r evs, r₀.work t₀ = .ok (r, evs) ∧ r.freed = false) :
    (∀ ticks, NonDecreasing (t₀ :: ticks) → InTime r₀ t₀ ticks) ↔
      t₀.monTime ≠ 0 ∧ t₀.monTime.toNat + r₀.timeout.toNat < 2 ^ 64 := by
  obtain ⟨r, evs, hwork, hlive⟩ := hfirst
  have hs := started_of_work htimer hwork hlive
  refine ⟨fun h => ?_, fun ⟨h₀, hlt⟩ ticks => inTime_of_lt htimer hcb h₀ hlt⟩
  -- one more tick, as late as it takes
  have hnext : ∀ t : HttpClientTick, t₀.monTime ≤ t.monTime →
      (TimedOut t r ↔ Passed r₀.timeout t₀ t) := fun t hle =>
    (h [t] (by simp [NonDecreasing, hle])).second hcb hs hwork hlive
  refine ⟨fun h₀ => ?_, ?_⟩
  · have hpassed : Passed r₀.timeout t₀ { t₀ with monTime := r₀.timeout } := by
      rw [Passed, h₀]
      exact Nat.le_refl _
    have hlate := (hnext _ (by rw [h₀]; exact UInt64.zero_le)).mpr hpassed
    exact hlate.1 (by rw [hs.timer, h₀])
  · by_contra hwrap
    have hadd := add_le_of_wrap (Nat.not_lt.mp hwrap)
    have hset : t₀.monTime ≠ 0 := by
      intro h₀
      rw [h₀] at hwrap
      exact hwrap ((Nat.zero_add _).trans_lt r₀.timeout.toNat_lt)
    have hlate : TimedOut t₀ r := ⟨by rwa [hs.timer], by rwa [hs.timer, hs.timeout]⟩
    have hpassed := (hnext t₀ (UInt64.le_refl _)).mp hlate
    rw [Passed, Nat.sub_self] at hpassed
    have := t₀.monTime.toNat_lt
    omega

/-- A client that is given ten seconds, with ticks from `1` on. -/
theorem inTime_of_one :
    InTime (zeroed (bytes "a") true 10000 0 (Smw.init : Smw Unit)) (.smooth 1)
      [.smooth 500, .smooth 10001] :=
  (inTime_iff rfl rfl ⟨_, _, rfl, rfl⟩).mpr ⟨by decide, by decide⟩ _
    (by simp [NonDecreasing, HttpClientTick.smooth])

/-- A timeout of five that is missed at `10`, in a run that starts at `0`; and one that comes with
the second tick, in a run that starts where the sum wraps. -/
theorem not_inTime_of_zero :
    ¬ InTime (zeroed (bytes "a") true 5 0 (Smw.init : Smw Unit)) (.smooth 0) [.smooth 10] ∧
      ¬ InTime (zeroed (bytes "a") true 5 0 (Smw.init : Smw Unit)) (.smooth 18446744073709551614)
        [.smooth 18446744073709551614] := by
  refine ⟨fun h => ?_, fun h => ?_⟩
  · obtain ⟨r, evs, hwork, hlive⟩ : ∃ r evs,
        (zeroed (bytes "a") true 5 0 (Smw.init : Smw Unit)).work (.smooth 0) = .ok (r, evs) ∧
          r.freed = false := ⟨_, _, rfl, rfl⟩
    have hs := started_of_work rfl hwork hlive
    have hlate := (h.second rfl hs hwork hlive).mpr (by decide : 5 ≤ 10 - 0)
    exact hlate.1 hs.timer
  · obtain ⟨r, evs, hwork, hlive⟩ : ∃ r evs,
        (zeroed (bytes "a") true 5 0 (Smw.init : Smw Unit)).work (.smooth 18446744073709551614)
          = .ok (r, evs) ∧ r.freed = false := ⟨_, _, rfl, rfl⟩
    have hs := started_of_work rfl hwork hlive
    have hlate : TimedOut (.smooth 18446744073709551614) r := by
      rw [TimedOut, hs.timer, hs.timeout]
      decide
    have hpassed := (h.second rfl hs hwork hlive).mp hlate
    rw [Passed, Nat.sub_self] at hpassed
    exact absurd hpassed (by decide)

end HttpClientRun
