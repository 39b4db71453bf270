import JustWeather.Lib.HttpServerConnection.Bounds

/-!
# Lib/HttpServerConnection/Segmentation — the cuts of a request do not show

Where memory does not run out, a connection refines the accumulating reader of the framing
(`dispatch_eq_read`): it calls the callback in the tick, and with the head, the reader answers with.
What a callback sees is therefore a function of the stream (`dispatch_segmentation`).
-/

open CLib MessageHead

namespace HTTPServerConnection

variable {κ : Type} {onRequest : OnRequest} {fd : ℤ} {task : Option TaskHandle} {smw : Smw κ}
  {c d : HTTPServerConnection} {ticks : List Tick} {s : List Byte} {k : ℕ}
  {h : MessageHead RequestFields}

/-- The connection a callback was called on. -/
def Event.connection? : Event → Option HTTPServerConnection
  | .request c => some c
  | _ => none

/-- The tick in which the callback is called first, and the connection it is called on. -/
def dispatch (onRequest : OnRequest) :
    List Tick → Smw κ × HTTPServerConnection → Option (ℕ × HTTPServerConnection)
  | [], _ => none
  | t :: ts, x =>
    match taskWork onRequest t x with
    | .error _ => none
    | .ok (y, evs) =>
      match evs.findSome? Event.connection? with
      | some c => some (0, c)
      | none => (dispatch onRequest ts y).map fun r => (r.1 + 1, r.2)

/-- The connection a callback is called on, when the stream so far is `s` and its head `h`. -/
def called (fd : ℤ) (task : Option TaskHandle) (s : List Byte) (h : MessageHead RequestFields) :
    HTTPServerConnection :=
  ((filled fd task s).setHead .all h).dispatched

/-! ## The refinement -/

theorem not_mayFail_all : ¬ MayFail (· = .all) := by
  rintro ⟨a, rfl, hfail | hfail⟩ <;> cases hfail

/-- With memory for everything a connection is complete as soon as it holds the message. -/
theorem Waits.message (hw : Waits (· = .all) fd task s d) (hno : NoWrap readRequest s) :
    (d.complete = false ∧ (framing readRequest).message s = none) ∨
    ∃ h, d.complete = true ∧ (framing readRequest).message s = some h ∧
      d = (filled fd task s).setHead .all h := by
  obtain ⟨rfl, hs | hfail⟩ | ⟨a, h, rfl, hs, rfl⟩ := hw
  · refine Or.inl ⟨?_, ?_⟩
    · rw [← Bool.not_eq_true, complete_iff]
      exact fun hc => absurd hc.2 (Nat.lt_irrefl 0)
    · rcases hm : (framing readRequest).message s with _ | h
      · rfl
      · cases hs.symm.trans (Framing.message_eq_some_iff.mp hm).1
  · exact absurd hfail not_mayFail_all
  · have hadd := sizeAdd_of_lt (hno h hs)
    have h4 := (bodyStart_bounds hs).1
    by_cases hle : h.bodyStart + h.contentLen ≤ s.length
    · refine Or.inr ⟨h, complete_iff.mpr ⟨?_, ?_⟩, Framing.message_eq_some_iff.mpr ⟨hs, hle⟩, rfl⟩
      · exact hadd.trans_le hle
      · exact Nat.lt_of_lt_of_le (by decide) h4
    · refine Or.inl ⟨?_, ?_⟩
      · rw [← Bool.not_eq_true, complete_iff]
        exact fun hc => hle (hadd.symm.trans_le hc.1)
      · rcases hm : (framing readRequest).message s with _ | h'
        · rfl
        · obtain ⟨hs', hle'⟩ := Framing.message_eq_some_iff.mp hm
          cases hs.symm.trans hs'
          exact absurd hle' hle

/-- **A tick without a request leaves the callback to the ticks after it.** -/
theorem dispatch_cons_of_quiet {t : Tick} {x y : Smw κ × HTTPServerConnection} {evs : List Event}
    (h : taskWork onRequest t x = .ok (y, evs)) (hquiet : evs.filterMap Event.connection? = []) :
    dispatch onRequest (t :: ticks) x
      = (dispatch onRequest ticks y).map fun r => (r.1 + 1, r.2) := by
  have hnone : evs.findSome? Event.connection? = none := by
    rw [← List.head?_filterMap, hquiet]
    rfl
  rw [dispatch, h]
  dsimp only
  rw [hnone]

theorem dispatch_cons_of_request {t : Tick} {x y : Smw κ × HTTPServerConnection}
    (h : taskWork onRequest t x = .ok (y, [.request d])) :
    dispatch onRequest (t :: ticks) x = some (0, d) := by
  rw [dispatch, h]
  rfl

/-- **One tick of a connection that waits**: it goes on waiting, it calls the callback with the
message, or its search is lost and no message will come. -/
theorem Waits.tick_message {t : Tick} (hw : Waits (· = .all) fd task s c)
    (hret : ∀ c, ∃ r, onRequest c = .ok r) (halloc : t.alloc = .all)
    (hwait : (framing readRequest).message s = none)
    (h4 : stored t ≠ [] → 4 ≤ (s ++ stored t).length) (hlt : (s ++ stored t).length < sizeMod)
    (hno : NoWrap readRequest (s ++ stored t)) (smw : Smw κ) :
    (∃ d, taskWork onRequest t (smw, c) = .ok ((smw, d), []) ∧
      Waits (· = .all) fd task (s ++ stored t) d ∧
      (framing readRequest).message (s ++ stored t) = none) ∨
    (∃ h y, taskWork onRequest t (smw, c)
        = .ok (y, [.request (called fd task (s ++ stored t) h)]) ∧
      (framing readRequest).message (s ++ stored t) = some h) ∨
    (taskWork onRequest t (smw, c) = .error .intOverflow ∧
      ∀ m, headOf readRequest (s ++ stored t ++ m) = none) := by
  by_cases hnil : stored t = []
  · refine Or.inl ⟨c, hw.tick_of_stored_nil hnil smw, ?_, ?_⟩
    · rwa [hnil, List.append_nil]
    · rwa [hnil, List.append_nil]
  · rcases hw.tick onRequest halloc hnil (h4 hnil) hlt smw with
      ⟨d, hd, hw', hcomp | hfail⟩ | ⟨d, hd, hw', hcomp, -⟩ | ⟨d, -, hw', hcomp, hshort⟩ |
        ⟨hd, -, hall⟩
    · rcases hw'.message hno with ⟨-, hnone⟩ | ⟨h, hyes, -⟩
      · exact Or.inl ⟨d, hd, hw', hnone⟩
      · cases hcomp.symm.trans hyes
    · exact absurd hfail not_mayFail_all
    · rcases hw'.message hno with ⟨hbad, -⟩ | ⟨h, -, hm, rfl⟩
      · cases hcomp.symm.trans hbad
      · obtain ⟨r, hr⟩ := hret (called fd task (s ++ stored t) h)
        rw [request_dispatched, ← called, hr] at hd
        exact Or.inr (Or.inl ⟨h, _, hd, hm⟩)
    · have := hw'.le_of_complete hcomp hno
      omega
    · exact Or.inr (Or.inr ⟨hd, hall⟩)

/-- A stream without a head holds no message. -/
theorem message_eq_none_of_headOf (hs : headOf readRequest s = none) :
    (framing readRequest).message s = none := by
  rcases hm : (framing readRequest).message s with _ | h
  · rfl
  · cases hs.symm.trans (Framing.message_eq_some_iff.mp hm).1

/-- **A connection refines the reader of the framing.** -/
theorem dispatch_eq_read (hret : ∀ c, ∃ r, onRequest c = .ok r)
    (halloc : ∀ t ∈ ticks, t.alloc = .all) (hw : Waits (· = .all) fd task s c)
    (hwait : (framing readRequest).message s = none)
    (hlt : (s ++ received ticks).length < sizeMod)
    (hno : NoWrap readRequest (s ++ received ticks))
    (h4 : ∀ pre, pre <+: ticks.map stored → s ++ pre.flatten = [] ∨ 4 ≤ (s ++ pre.flatten).length) :
    dispatch onRequest ticks (smw, c)
      = ((framing readRequest).read s (ticks.map stored)).map fun r =>
        (r.1, called fd task r.2.2 r.2.1) := by
  induction ticks generalizing s c with
  | nil => rfl
  | cons t ticks ih =>
    rw [received_cons, ← List.append_assoc] at hlt hno
    have halloc' : ∀ u ∈ ticks, u.alloc = .all := fun u hu => halloc u (List.mem_cons_of_mem _ hu)
    have h4' : ∀ pre, pre <+: ticks.map stored →
        s ++ stored t ++ pre.flatten = [] ∨ 4 ≤ (s ++ stored t ++ pre.flatten).length := by
      intro pre hpre
      have := h4 (stored t :: pre) (by
        rw [List.map_cons]
        exact (List.prefix_cons_inj _).mpr hpre)
      rwa [List.flatten_cons, ← List.append_assoc] at this
    have hlt₁ : (s ++ stored t).length < sizeMod := by
      rw [List.length_append] at hlt
      omega
    have h4₁ : stored t ≠ [] → 4 ≤ (s ++ stored t).length := by
      intro hne
      rcases h4' [] List.nil_prefix with hnil | hlen
      · exact absurd hnil (by simp [hne])
      · simpa using hlen
    rcases hw.tick_message hret (halloc t (by simp)) hwait h4₁ hlt₁ hno.of_append smw with
      ⟨d, hd, hw', hnone⟩ | ⟨h, y, hd, hm⟩ | ⟨hd, hall⟩
    · rw [dispatch_cons_of_quiet hd rfl, ih halloc' hw' hnone hlt hno h4', List.map_cons,
        Framing.read, hnone]
      dsimp only
      rw [Option.map_map, Option.map_map]
      rfl
    · rw [dispatch_cons_of_request hd, List.map_cons, Framing.read, hm]
      rfl
    · have hnone : (framing readRequest).read s ((t :: ticks).map stored) = none := by
        rw [Framing.read_eq_none_iff hwait, List.map_cons, List.flatten_cons, ← List.append_assoc]
        exact message_eq_none_of_headOf (hall _)
      rw [dispatch, hd, hnone]
      rfl

/-! ## What is dispatched -/

theorem filterMap_connection_of_no_request {evs : List Event} (h : ∀ c, .request c ∉ evs) :
    evs.filterMap Event.connection? = [] := by
  rw [List.filterMap_eq_nil_iff]
  intro e he
  cases e with
  | request c => exact absurd he (h c)
  | _ => rfl

/-- **A tick calls the callback once at most**, and then the connection no longer receives. -/
theorem taskWork_requests {t : Tick} {x y : Smw κ × HTTPServerConnection} {evs : List Event}
    (h : taskWork onRequest t x = .ok (y, evs)) :
    evs.filterMap Event.connection? = [] ∨ ∃ e, evs = [.request e] ∧ y.2.state = .send := by
  obtain ⟨smw, c⟩ := x
  by_cases hc : c.state = .receive
  · rw [taskWork_of_receive smw hc] at h
    rcases ho : c.receive onRequest t.alloc t.recv with f | o
    · rw [ho] at h
      cases h
    · rw [ho] at h
      cases h
      rcases receive_events ho with hnil | ⟨e, he, hs⟩
      · exact Or.inl (by rw [hnil]; rfl)
      · exact Or.inr ⟨e, he, hs⟩
  · rcases taskWork_of_ne_receive onRequest t smw hc with ⟨_, _, _, hd, -, hno⟩ | hd
    · cases hd.symm.trans h
      exact Or.inl (filterMap_connection_of_no_request hno)
    · cases hd.symm.trans h

/-- A connection that no longer receives calls nobody. -/
theorem run_of_ne_receive {x y : Smw κ × HTTPServerConnection} {evs : List Event}
    (hx : x.2.state ≠ .receive) (h : Trace.run (taskWork onRequest) ticks x = .ok (y, evs)) :
    evs.filterMap Event.connection? = [] := by
  have key := Trace.run_invariant (P := fun _ z evs => z.2.state ≠ .receive ∧
    evs.filterMap Event.connection? = []) ⟨hx, rfl⟩ ?_ h
  · exact key.2
  · rintro js ⟨smw₁, c₁⟩ z evs₁ evs₂ t ⟨hne, hnil⟩ hstep
    rcases taskWork_of_ne_receive onRequest t smw₁ hne with ⟨_, _, _, hd, hne', hno⟩ | hd
    · cases hd.symm.trans hstep
      refine ⟨hne', ?_⟩
      rw [List.filterMap_append, hnil, List.nil_append, filterMap_connection_of_no_request hno]
    · cases hd.symm.trans hstep

/-- **A run calls the callback once at most**, on the connection `dispatch` finds. -/
theorem requests_eq {x y : Smw κ × HTTPServerConnection} {evs : List Event}
    (h : Trace.run (taskWork onRequest) ticks x = .ok (y, evs)) :
    evs.filterMap Event.connection? = ((dispatch onRequest ticks x).map Prod.snd).toList := by
  induction ticks generalizing x evs with
  | nil =>
    obtain ⟨rfl, rfl⟩ : x = y ∧ [] = evs := by simpa using h
    rfl
  | cons t ticks ih =>
    rcases hstep : taskWork onRequest t x with f | ⟨z, evs₁⟩
    · rw [Trace.run_cons_of_error hstep] at h
      cases h
    · rw [Trace.run_cons_of_ok hstep] at h
      rcases hrun : Trace.run (taskWork onRequest) ticks z with f | ⟨y', evs₂⟩
      · rw [hrun] at h
        cases h
      · rw [hrun] at h
        obtain ⟨rfl, rfl⟩ : y' = y ∧ evs₁ ++ evs₂ = evs := by simpa [Except.map] using h
        rw [List.filterMap_append]
        rcases taskWork_requests hstep with hquiet | ⟨e, rfl, hs⟩
        · rw [hquiet, List.nil_append, ih hrun, dispatch_cons_of_quiet hstep hquiet]
          rcases dispatch onRequest ticks z with _ | r <;> rfl
        · rw [run_of_ne_receive (by rw [hs]; simp) hrun, dispatch_cons_of_request hstep]
          rfl

/-- What is dispatched carries the head of the stream, wherever its body ends. -/
theorem head_of_dispatch {A : ReceiveAlloc → Prop} (hA : ∀ t ∈ ticks, A t.alloc)
    (hw : Waits A fd task s c) (hlt : s.length < sizeMod)
    (h : dispatch onRequest ticks (smw, c) = some (k, d)) :
    ∃ a p h, A a ∧ headOf readRequest (s ++ received ticks) = some h ∧
      d = ((filled fd task p).setHead a h).dispatched := by
  induction ticks generalizing s c k with
  | nil => cases h
  | cons t ticks ih =>
    rw [dispatch] at h
    rcases hstep : taskWork onRequest t (smw, c) with f | ⟨y, evs⟩
    · rw [hstep] at h
      cases h
    · rw [hstep] at h
      dsimp only at h
      rw [received_cons, ← List.append_assoc]
      rcases hw.of_ok (x := (smw, c)) (hA t (by simp)) hlt hstep with
        ⟨b, rfl, rfl, hw', hlt'⟩ | ⟨b, r, rfl, rfl, -, hw', hcomp⟩
      · dsimp only [List.findSome?_nil] at h
        obtain ⟨⟨j, e⟩, hj, hje⟩ := Option.map_eq_some_iff.mp h
        cases hje
        exact ih (fun u hu => hA u (List.mem_cons_of_mem _ hu)) hw' hlt' hj
      · obtain ⟨a, hd, ha, hs, rfl, -⟩ := hw'.of_complete hcomp
        obtain ⟨-, rfl⟩ : 0 = k ∧ _ = d := by simpa [Event.connection?] using h
        exact ⟨a, s ++ stored t, hd, ha, headOf_append hs _, rfl⟩

/-! ## Segmentation independence -/

/-- The reads of `ticks` deliver `s`, nothing runs out of memory, and the first read that delivers
anything delivers four bytes. -/
structure Delivers (s : List Byte) (ticks : List Tick) : Prop where
  alloc : ∀ t ∈ ticks, t.alloc = .all
  received : received ticks = s
  longFirst : LongFirst (ticks.map stored)

/-- `k` is the first tick after which `n` bytes have arrived. -/
def FirstAt (ticks : List Tick) (n k : ℕ) : Prop :=
  k < ticks.length ∧ n ≤ (HTTPServerConnection.received (ticks.take (k + 1))).length ∧
    ∀ j ≤ k, (HTTPServerConnection.received (ticks.take j)).length < n

/-- Any stream can be delivered, in reads of `chunkSize` bytes and a last one. -/
theorem exists_received (s : List Byte) :
    ∃ ticks, (∀ t ∈ ticks, t.alloc = .all) ∧ HTTPServerConnection.received ticks = s := by
  induction hn : s.length using Nat.strongRecOn generalizing s with
  | _ n ih =>
    rcases eq_or_ne s [] with rfl | hne
    · exact ⟨[], by simp, rfl⟩
    · have hpos : 0 < s.length := List.length_pos_iff.mpr hne
      have hsize : chunkSize = 256 := rfl
      obtain ⟨ticks, halloc, hrec⟩ :=
        ih (s.drop chunkSize).length (by rw [List.length_drop]; omega) _ rfl
      have htake : s.take chunkSize ≠ [] := by simp [hne, hsize]
      refine ⟨readTick (s.take chunkSize) htake (by simp) :: ticks, ?_, ?_⟩
      · simpa [readTick] using halloc
      · rw [received_cons, hrec]
        exact List.take_append_drop _ _

theorem exists_delivers (h4 : 4 ≤ s.length) : ∃ ticks, Delivers s ticks := by
  have hsize : chunkSize = 256 := rfl
  obtain ⟨ticks, halloc, hrec⟩ := exists_received (s.drop chunkSize)
  have hlen : (s.take chunkSize).length = min 256 s.length := by rw [List.length_take, hsize]
  have htake : s.take chunkSize ≠ [] := by
    intro hnil
    rw [hnil, List.length_nil] at hlen
    omega
  refine ⟨readTick (s.take chunkSize) htake (by simp) :: ticks, ?_, ?_, ?_⟩
  · simpa [readTick] using halloc
  · rw [received_cons, hrec]
    exact List.take_append_drop _ _
  · intro chunk hchunk
    have hfirst : stored (readTick (s.take chunkSize) htake (by simp)) = s.take chunkSize := rfl
    rw [List.map_cons, hfirst, List.find?_cons_of_pos (by simpa using htake)] at hchunk
    obtain rfl := Option.some.inj hchunk
    omega

theorem Delivers.dispatch_eq (hd : Delivers s ticks) (hret : ∀ c, ∃ r, onRequest c = .ok r)
    (hlt : s.length < sizeMod) (hno : NoWrap readRequest s) :
    dispatch onRequest ticks (smw, initiate fd task)
      = ((framing readRequest).read [] (ticks.map stored)).map fun r =>
        (r.1, called fd task r.2.2 r.2.1) := by
  refine dispatch_eq_read hret hd.alloc waits_initiate rfl ?_ ?_ fun pre hpre => ?_
  · rwa [List.nil_append, hd.received]
  · rwa [List.nil_append, hd.received]
  · obtain ⟨rest, hrest⟩ := hpre
    have := hd.longFirst
    rw [← hrest] at this
    exact this.of_append.length_flatten

theorem flatten_take_stored (ticks : List Tick) (j : ℕ) :
    ((ticks.map stored).take j).flatten = HTTPServerConnection.received (ticks.take j) := by
  rw [← List.map_take, flatten_map_stored]

/-- What a run hands to its callback, and when. -/
theorem Delivers.dispatch_cases (hd : Delivers s ticks) (smw : Smw κ) (fd : ℤ)
    (task : Option TaskHandle) (hret : ∀ c, ∃ r, onRequest c = .ok r) (hlt : s.length < sizeMod)
    (hno : NoWrap readRequest s) :
    (dispatch onRequest ticks (smw, initiate fd task) = none ∧
      (framing readRequest).message s = none) ∨
    ∃ h k p, (framing readRequest).message s = some h ∧ p <+: s ∧
      h.bodyStart + h.contentLen ≤ p.length ∧
      dispatch onRequest ticks (smw, initiate fd task) = some (k, called fd task p h) ∧
      FirstAt ticks (h.bodyStart + h.contentLen) k := by
  rw [hd.dispatch_eq hret hlt hno]
  have hs : [] ++ (ticks.map stored).flatten = s := hd.received
  rcases hr : (framing readRequest).read [] (ticks.map stored) with _ | ⟨k, h, p⟩
  · rw [Framing.read_eq_none_iff rfl, hs] at hr
    exact Or.inl ⟨rfl, hr⟩
  · have hm := Framing.read_message hr
    rw [hs] at hm
    obtain ⟨hk, rfl, hp, hbefore⟩ := Framing.read_eq_some hr
    rw [List.length_map] at hk
    rw [List.nil_append, flatten_take_stored] at hp ⊢
    have hcut : ∀ j, HTTPServerConnection.received (ticks.take j) ++
        HTTPServerConnection.received (ticks.drop j) = s := by
      intro j
      rw [← received_append, List.take_append_drop, hd.received]
    have hle := (Framing.message_eq_some_iff.mp hp).2
    refine Or.inr ⟨h, k, _, hm, ⟨_, hcut (k + 1)⟩, hle, rfl, hk, hle, fun j hj => ?_⟩
    by_contra hge
    have hhead := (Framing.message_eq_some_iff.mp hm).1
    rw [← hcut j] at hhead
    have hmsg := message_of_le hhead (Nat.not_lt.mp hge)
    rcases Nat.eq_zero_or_pos j with rfl | hpos
    · cases hmsg
    · have := hbefore j hpos hj
      rw [List.nil_append, flatten_take_stored] at this
      cases this.symm.trans hmsg

/-- What a callback reads off the connection it is called on. -/
theorem called_fields (fd : ℤ) (task : Option TaskHandle) {p : List Byte} (hp : p <+: s)
    (hle : h.bodyStart + h.contentLen ≤ p.length) :
    (called fd task p h).method = some h.fields.method ∧
    (called fd task p h).requestPath = some h.fields.requestPath ∧
    (called fd task p h).host = some h.fields.host ∧
    (called fd task p h).contentLen = h.contentLen ∧
    (called fd task p h).bodyStart = h.bodyStart ∧
    (called fd task p h).body = if h.fields.method = bytes "GET" then none
      else some ((s.drop h.bodyStart).take h.contentLen) := by
  obtain ⟨m, rfl⟩ := hp
  have hslice : ((p ++ m).drop h.bodyStart).take h.contentLen
      = (p.drop h.bodyStart).take h.contentLen := by
    rw [List.drop_append_of_le_length (by omega),
      List.take_append_of_le_length (by simp only [List.length_drop]; omega)]
  have hmethod : ((filled fd task p).setHead .all h).method = some h.fields.method := rfl
  rw [called, dispatched, hmethod, hslice]
  by_cases hget : h.fields.method = bytes "GET"
  · rw [if_pos (by rw [hget]), if_pos hget]
    exact ⟨rfl, rfl, rfl, rfl, rfl, rfl⟩
  · rw [if_neg (fun hc => hget (Option.some.inj hc)), if_neg hget]
    exact ⟨rfl, rfl, rfl, rfl, rfl, rfl⟩

/-- **Segmentation independence of the request reader.**  Two ways of cutting one stream either both
leave the callback uncalled, and then the stream holds no whole message, or both call it, each in
the tick that brings the last byte of the message, and with the same request. -/
theorem dispatch_segmentation (onRequest : OnRequest) (hret : ∀ c, ∃ r, onRequest c = .ok r)
    (smw : Smw κ) (fd : ℤ) (task : Option TaskHandle) {ts us : List Tick} (hts : Delivers s ts)
    (hus : Delivers s us) (hlt : s.length < sizeMod) (hno : NoWrap readRequest s) :
    (dispatch onRequest ts (smw, initiate fd task) = none ∧
      dispatch onRequest us (smw, initiate fd task) = none ∧
      (framing readRequest).message s = none) ∨
    ∃ k j c d i, dispatch onRequest ts (smw, initiate fd task) = some (k, c) ∧
      dispatch onRequest us (smw, initiate fd task) = some (j, d) ∧
      Search.IsFirst blankLine s i ∧ FirstAt ts (i + 4 + c.contentLen) k ∧
      FirstAt us (i + 4 + c.contentLen) j ∧ c.bodyStart = i + 4 ∧ d.bodyStart = c.bodyStart ∧
      d.contentLen = c.contentLen ∧ d.method = c.method ∧ d.requestPath = c.requestPath ∧
      d.host = c.host ∧ d.body = c.body ∧
      (c.method ≠ some (bytes "GET") → c.body = some ((s.drop (i + 4)).take c.contentLen)) := by
  rcases hts.dispatch_cases smw fd task hret hlt hno with
    ⟨hnone, hmsg⟩ | ⟨h, k, p, hmsg, hp, hle, hk, hfirst⟩
  · rcases hus.dispatch_cases smw fd task hret hlt hno with ⟨hnone', -⟩ | ⟨h, j, q, hmsg', -⟩
    · exact Or.inl ⟨hnone, hnone', hmsg⟩
    · cases hmsg.symm.trans hmsg'
  · rcases hus.dispatch_cases smw fd task hret hlt hno with
      ⟨-, hmsg'⟩ | ⟨h', j, q, hmsg', hq, hle', hj, hfirst'⟩
    · cases hmsg.symm.trans hmsg'
    · obtain rfl : h = h' := Option.some.inj (hmsg.symm.trans hmsg')
      obtain ⟨i, hi, hstart⟩ := isFirst_blankLine (Framing.message_eq_some_iff.mp hmsg).1
      obtain ⟨hm, hpath, hhost, hlen, hbody, hb⟩ := called_fields fd task hp hle
      obtain ⟨hm', hpath', hhost', hlen', hbody', hb'⟩ := called_fields fd task hq hle'
      rw [hstart] at hfirst hfirst' hb
      refine Or.inr ⟨k, j, _, _, i, hk, hj, hi, by rwa [hlen], by rwa [hlen],
        hbody.trans hstart, hbody'.trans hbody.symm, hlen'.trans hlen.symm, hm'.trans hm.symm,
        hpath'.trans hpath.symm, hhost'.trans hhost.symm, ?_, fun hne => ?_⟩
      · rw [hb', hb, hstart]
      · rw [hb, hlen, if_neg]
        intro hget
        exact hne (by rw [hm, hget])

/-- One request in one read, and in two with a tick without data between them. -/
theorem dispatch_segmentation_get : ∃ k j c d,
    dispatch silent [readTick (bytes "GET / HTTP/1.1\r\n\r\n") (by decide) (by decide)]
      ((Smw.init : Smw Unit), initiate 4 none) = some (k, c) ∧
    dispatch silent [readTick (bytes "GET / HTTP/1.1\r") (by decide) (by decide), idleTick,
      readTick (bytes "\n\r\n") (by decide) (by decide)]
      ((Smw.init : Smw Unit), initiate 4 none) = some (j, d) ∧ d.requestPath = c.requestPath := by
  have hno : NoWrap readRequest (bytes "GET / HTTP/1.1\r\n\r\n") := by
    intro h hs
    obtain rfl : _ = h := Option.some.inj (rfl.trans hs)
    decide
  have hone : Delivers (bytes "GET / HTTP/1.1\r\n\r\n")
      [readTick (bytes "GET / HTTP/1.1\r\n\r\n") (by decide) (by decide)] :=
    ⟨by simp [readTick], rfl, by decide⟩
  have htwo : Delivers (bytes "GET / HTTP/1.1\r\n\r\n")
      [readTick (bytes "GET / HTTP/1.1\r") (by decide) (by decide), idleTick,
        readTick (bytes "\n\r\n") (by decide) (by decide)] :=
    ⟨by simp [readTick, idleTick], rfl, by decide⟩
  rcases dispatch_segmentation silent (fun c => ⟨none, rfl⟩) (Smw.init : Smw Unit) 4 none hone htwo
    (by decide) hno with
    ⟨-, -, hm⟩ | ⟨k, j, c, d, i, hk, hj, -, -, -, -, -, -, -, hpath, -⟩
  · cases hm
  · exact ⟨k, j, c, d, hk, hj, hpath⟩

end HTTPServerConnection
