import JustWeather.Lib.HttpServerConnection.Bounds
import Mathlib.Data.Bool.AllAny

/-!
# Lib/HttpServerConnection/RequestLine — what is taken of a request line

The method and the path are read with `%7s` and `%255s` out of a head that may say more.  The
numbers in the header file are 9 and 256: so a method of eight letters, which has room in its array,
leaves its last letter to the path.  What a callback sees is the request line exactly when both
tokens fit their conversions and there was memory for the two strings (`request_line_whole_iff`).
-/

open CLib MessageHead Search

namespace HTTPServerConnection

/-! ## The tokens of a request line -/

/-- A token of a request line: not empty, no white space, no terminator. -/
structure Token (s : List Byte) : Prop where
  ne_nil : s ≠ []
  word : ∀ b ∈ s, isSpace b = false
  zero_notMem : (0 : Byte) ∉ s

/-- `METHOD_MAX_LEN`. -/
def methodMaxLen : ℕ := 9

/-- `REQUEST_PATH_MAX_LEN`. -/
def requestPathMaxLen : ℕ := 256

variable {m target rest : List Byte}

/-- **Both tokens are read whole exactly when they fit their conversions.** -/
theorem readRequest_eq_iff (hm : Token m) (ht : Token target) (rest : List Byte) :
    ((readRequest (m ++ 32 :: (target ++ 32 :: rest))).method = m ∧
      (readRequest (m ++ 32 :: (target ++ 32 :: rest))).requestPath = target) ↔
    m.length ≤ 7 ∧ target.length ≤ 255 := by
  constructor
  · rintro ⟨hmethod, hpath⟩
    exact ⟨hmethod ▸ length_scanToken_le _ _, hpath ▸ length_scanToken_le _ _⟩
  · rintro ⟨hmlen, htlen⟩
    rw [readRequest, scanToken_append hm.ne_nil hm.word hmlen (by decide)]
    dsimp only
    rw [scanToken_cons (by decide), scanToken_append ht.ne_nil ht.word htlen (by decide)]
    exact ⟨rfl, rfl⟩

/-- A head that begins with a request line is read from its tokens on. -/
theorem fields_of_headOf (hm : Token m) (ht : Token target) {h : MessageHead RequestFields}
    (hhead : headOf readRequest (m ++ 32 :: (target ++ 32 :: rest)) = some h) :
    ∃ rest', h.fields = readRequest (m ++ 32 :: (target ++ 32 :: rest')) := by
  have hsplit : ∀ r, m ++ 32 :: (target ++ 32 :: r) = (m ++ 32 :: (target ++ [32])) ++ r := by
    intro r
    simp
  have hcr : (13 : Byte) ∉ m ++ 32 :: (target ++ [32]) := by
    have hword : ∀ {s : List Byte}, Token s → (13 : Byte) ∉ s :=
      fun hs h13 => absurd (hs.word 13 h13) (by decide)
    simp [hword hm, hword ht]
  have hzero : ∀ b ∈ m ++ 32 :: (target ++ [32]), (b != 0) = true := by
    intro b hb
    rw [bne_iff_ne]
    rintro rfl
    simp [hm.zero_notMem, ht.zero_notMem] at hb
  rw [hsplit] at hhead
  obtain ⟨e, he, rfl⟩ := headOf_eq_some_iff.mp hhead
  obtain ⟨i, hi, -, rfl⟩ := headEnd_eq_some_iff.mp he
  -- the blank line is behind the two tokens
  have hfirst := firstOcc_eq_some_iff.mpr hi
  rw [blankLine, firstOcc_append_of_head_notMem hcr] at hfirst
  obtain ⟨j, -, rfl⟩ := Option.map_eq_some_iff.mp hfirst
  refine ⟨cstr (rest.take (j + 4)), ?_⟩
  rw [parseHead, Nat.add_assoc, List.take_length_add_append, cstr,
    List.takeWhile_append_of_pos hzero, ← cstr, ← hsplit]

/-! ## What is dispatched -/

variable {κ : Type} {onRequest : OnRequest} {smw : Smw κ} {fd : ℤ} {task : Option TaskHandle}
  {ticks : List Tick} {x y : Smw κ × HTTPServerConnection} {evs : List Event} {t : Tick}
  {c d : HTTPServerConnection} {s : List Byte}

/-- A connection that dispatches was receiving, and waits on what was stored. -/
theorem waits_of_requesting {smw' : Smw κ} {evs' : List Event}
    (h : connectionRun onRequest smw fd task ticks = .ok ((smw', d), evs))
    (hstep : taskWork onRequest t (smw', d) = .ok (y, evs')) (hc : .request c ∈ evs') :
    smw' = smw ∧ Waits (fun _ => True) fd task (received ticks) d ∧
      (received ticks).length < sizeMod := by
  have hlong : LongFirst ((ticks ++ [t]).map stored) := by
    by_contra hshort
    have hfail : connectionRun onRequest smw fd task (ticks ++ [t]) = .error .readPastEnd :=
      run_of_not_longFirst hshort
    cases hfail.symm.trans (Trace.run_concat h hstep)
  have hd : d.state = .receive := by
    by_contra hne
    rcases taskWork_of_ne_receive onRequest t smw' hne with ⟨_, _, _, hd, -, hno⟩ | hd
    · cases hd.symm.trans hstep
      exact hno c hc
    · cases hd.symm.trans hstep
  obtain ⟨rfl, hw, hlt, -⟩ := run_waits (A := fun _ => True) (fun _ _ => trivial)
    (longFirst_of_concat hlong) h hd
  exact ⟨rfl, hw, hlt⟩

/-- **What a callback is called on**: the head of what was received so far, in a connection that
holds all of it, and a body too unless the method is `GET`. -/
theorem exists_of_requesting {smw' : Smw κ} {evs' : List Event}
    (h : connectionRun onRequest smw fd task ticks = .ok ((smw', d), evs))
    (hstep : taskWork onRequest t (smw', d) = .ok (y, evs')) (hc : .request c ∈ evs') :
    ∃ a hd r, headOf readRequest (received (ticks ++ [t])) = some hd ∧
      c = ((filled fd task (received (ticks ++ [t]))).setHead a hd).dispatched ∧
      (received (ticks ++ [t])).length < sizeMod ∧
      (c.method = some (bytes "GET") ∨
        hd.bodyStart + hd.contentLen ≤ (received (ticks ++ [t])).length) ∧
      onRequest c = .ok r ∧ y = (smw', c.respond r) := by
  obtain ⟨rfl, hw, hlt⟩ := waits_of_requesting h hstep hc
  have hrec : received (ticks ++ [t]) = received ticks ++ stored t := by
    rw [received_append, received_singleton]
  have hne : stored t ≠ [] := by
    intro hnil
    cases (hw.tick_of_stored_nil hnil smw').symm.trans hstep
    cases hc
  have h4 : 4 ≤ (received ticks ++ stored t).length := by
    by_contra hshort
    cases (hw.tick_of_short onRequest hne (Nat.not_le.mp hshort) smw').symm.trans hstep
  have hlt' : (received ticks ++ stored t).length < sizeMod := by
    by_contra hge
    cases (hw.tick_of_full hne (Nat.not_lt.mp hge) smw').symm.trans hstep
  rcases hw.tick onRequest trivial hne h4 hlt' smw' with
    ⟨b, hb, -⟩ | ⟨b, hb, hw', hcomp, hbody⟩ | ⟨b, hb, -⟩ | ⟨hb, -⟩
  · cases hb.symm.trans hstep
    cases hc
  · rw [request_dispatched] at hb
    rcases hr : onRequest b.dispatched with f | r
    · rw [hr] at hb
      cases hb.symm.trans hstep
    · rw [hr] at hb
      cases hb.symm.trans hstep
      obtain rfl : c = b.dispatched := by simpa using hc
      obtain ⟨a, hd, -, hs, rfl, -⟩ := hw'.of_complete hcomp
      rw [hrec]
      exact ⟨a, hd, r, hs, rfl, hlt', by simpa [setHead, filled] using hbody, hr, rfl⟩
  · cases hb.symm.trans hstep
  · cases hb.symm.trans hstep

/-- The same of a run that comes to a dispatch. -/
theorem exists_of_requested (h : connectionRun onRequest smw fd task ticks = .ok (x, evs))
    (hc : .request c ∈ evs) :
    ∃ pre t post a hd, ticks = pre ++ t :: post ∧
      headOf readRequest (received (pre ++ [t])) = some hd ∧
      c = ((filled fd task (received (pre ++ [t]))).setHead a hd).dispatched ∧
      (received (pre ++ [t])).length < sizeMod := by
  obtain ⟨pre, t, post, ⟨smw', b⟩, y, evs₁, evs₂, rfl, hpre, hstep, hmem⟩ :=
    Trace.exists_of_mem_events h hc
  obtain ⟨a, hd, r, hs, hconn, hlt, -⟩ := exists_of_requesting hpre hstep hmem
  exact ⟨pre, t, post, a, hd, rfl, hs, hconn, hlt⟩

/-! ## The memory for the two strings -/

/-- The tick finds the head, and has memory to copy it. -/
def ReadsHead (t : Tick) (c : HTTPServerConnection) : Prop :=
  c.state = .receive ∧ c.bodyStart = 0 ∧ stored t ≠ [] ∧ t.alloc.headers = true ∧
    headOf readRequest (c.readBuffer ++ stored t) ≠ none

/-- The tick that finds the head has no memory for the method or none for the path. -/
def Forgets (t : Tick) (x : Smw κ × HTTPServerConnection) : Prop :=
  ReadsHead t x.2 ∧ ¬ (t.alloc.method = true ∧ t.alloc.requestPath = true)

/-- A connection that has read its head has both strings. -/
def Remembers (c : HTTPServerConnection) : Prop :=
  c.bodyStart ≠ 0 → c.method ≠ none ∧ c.requestPath ≠ none

theorem strdup_ne_none_iff {ok : Bool} {text : List Byte} :
    strdup ok text ≠ none ↔ ok = true := by
  simp [Option.ne_none_iff_exists', strdup_eq_some_iff]

theorem remembers_filled (fd : ℤ) (task : Option TaskHandle) (s : List Byte) :
    Remembers (filled fd task s) := fun h => absurd rfl h

theorem remembers_setHead {a : ReceiveAlloc} {h : MessageHead RequestFields}
    (hs : h.bodyStart ≠ 0) :
    Remembers (c.setHead a h) ↔ a.method = true ∧ a.requestPath = true := by
  rw [Remembers, setHead]
  dsimp only
  rw [strdup_ne_none_iff, strdup_ne_none_iff]
  exact ⟨fun h => h hs, fun h _ => h⟩

/-- The search for the head keeps both strings, where it has memory for them. -/
theorem Waits.latch_remembers (hw : Waits (fun _ => True) fd task s c) (hne : stored t ≠ [])
    (h4 : 4 ≤ (s ++ stored t).length) (hlt : (s ++ stored t).length < sizeMod)
    {r : Option HTTPServerConnection} (smw : Smw κ)
    (h : { c with readBuffer := c.readBuffer ++ stored t }.latch t.alloc = .ok r) :
    Remembers (r.getD { c with readBuffer := c.readBuffer ++ stored t }) ↔
      ¬ Forgets t (smw, c) ∧ Remembers c := by
  obtain ⟨rfl, -⟩ | ⟨a, hd, -, hs, rfl⟩ := hw
  · have hfilled := remembers_filled fd task (s ++ stored t)
    rcases latch_cases (c := filled fd task (s ++ stored t)) t.alloc rfl h4 hlt with
      ⟨hl, hnone⟩ | ⟨hd, hl, hsome, hheaders⟩ | ⟨hl, hfail⟩ | ⟨hl, -⟩
    · cases hl.symm.trans h
      exact iff_of_true hfilled ⟨fun hf => hf.1.2.2.2.2 hnone, remembers_filled fd task s⟩
    · have hstart : hd.bodyStart ≠ 0 := by
        have := bodyStart_bounds hsome
        omega
      cases hl.symm.trans h
      rw [Option.getD_some, remembers_setHead hstart]
      have hreads : ReadsHead t (filled fd task s) :=
        ⟨rfl, rfl, hne, hheaders, fun hnone => by cases hnone.symm.trans hsome⟩
      exact ⟨fun hboth => ⟨fun hf => hf.2 hboth, remembers_filled fd task s⟩,
        fun hno => by_contra fun hboth => hno.1 ⟨hreads, hboth⟩⟩
    · cases hl.symm.trans h
      refine iff_of_true hfilled ⟨fun hf => ?_, remembers_filled fd task s⟩
      cases hfail.symm.trans hf.1.2.2.2.1
    · cases hl.symm.trans h
  · -- the head is there already
    have hstart : hd.bodyStart ≠ 0 := by
      have := bodyStart_bounds hs
      omega
    have hl : { (filled fd task s).setHead a hd with
        readBuffer := ((filled fd task s).setHead a hd).readBuffer ++ stored t }.latch t.alloc
        = .ok (some { (filled fd task s).setHead a hd with
          readBuffer := ((filled fd task s).setHead a hd).readBuffer ++ stored t }) := if_neg hstart
    cases hl.symm.trans h
    exact ⟨fun hr => ⟨fun hf => hstart hf.1.2.1, hr⟩, fun hr => hr.2⟩

theorem not_forgets_of_stored_nil (hs : stored t = []) (x : Smw κ × HTTPServerConnection) :
    ¬ Forgets t x := fun hf => hf.1.2.2.1 hs

/-- **A tick of a connection that waits** forgets a string, or all that it has read it remembers. -/
theorem Waits.remembers_of_ok (hw : Waits (fun _ => True) fd task s c)
    (h : taskWork onRequest t (smw, c) = .ok (y, evs)) :
    (evs = [] ∧ (Remembers y.2 ↔ ¬ Forgets t (smw, c) ∧ Remembers c)) ∨
    ∃ d, evs = [.request d.dispatched] ∧ y.2.state = .send ∧ d.bodyStart ≠ 0 ∧
      (Remembers d ↔ ¬ Forgets t (smw, c) ∧ Remembers c) := by
  by_cases hs : stored t = []
  · cases (hw.tick_of_stored_nil hs smw).symm.trans h
    exact Or.inl ⟨rfl, (and_iff_right (not_forgets_of_stored_nil hs _)).symm⟩
  · have h4 : 4 ≤ (s ++ stored t).length := by
      by_contra hshort
      cases (hw.tick_of_short onRequest hs (Nat.not_le.mp hshort) smw).symm.trans h
    have hlt' : (s ++ stored t).length < sizeMod := by
      by_contra hge
      cases (hw.tick_of_full hs (Nat.not_lt.mp hge) smw).symm.trans h
    have hgrow := grow_of_lt (c := c) (show (c.readBuffer ++ stored t).length < sizeMod by
      rwa [hw.readBuffer])
    rw [taskWork_of_receive smw hw.state, receive_of_stored hs, hgrow, Except.bind, process] at h
    rcases hl : { c with readBuffer := c.readBuffer ++ stored t }.latch t.alloc with f | r
    · rw [hl] at h
      cases h
    · have hr := hw.latch_remembers hs h4 hlt' smw hl
      rw [hl] at h
      rcases r with _ | d
      · cases h
        exact Or.inl ⟨rfl, hr⟩
      · dsimp only at h
        rw [Option.getD_some] at hr
        rcases finish_cases onRequest t.alloc d with
          ⟨hf, -⟩ | ⟨hf, hcomp, -⟩ | ⟨hf, -⟩ | ⟨hf, -⟩
        · rw [hf] at h
          cases h
          exact Or.inl ⟨rfl, hr⟩
        · rw [hf, request_dispatched] at h
          have hstart : d.bodyStart ≠ 0 := (Nat.pos_iff_ne_zero.mp (complete_iff.mp hcomp).2)
          rcases hcall : onRequest d.dispatched with f | r'
          · rw [hcall] at h
            cases h
          · rw [hcall] at h
            cases h
            exact Or.inr ⟨d, rfl, by simp, hstart, hr⟩
        · rw [hf] at h
          cases h
        · rw [hf] at h
          cases h
          exact Or.inl ⟨rfl, hr⟩

/-- A connection that no longer receives reads no head. -/
theorem not_visits_forgets (hc : x.2.state ≠ .receive) :
    ¬ Trace.Visits (taskWork onRequest) Forgets ticks x := by
  induction ticks generalizing x with
  | nil => exact not_false
  | cons t ticks ih =>
    rintro (hf | ⟨y, evs, hy, hv⟩)
    · exact hc hf.1.1
    · rcases taskWork_of_ne_receive onRequest t x.1 hc with ⟨_, _, _, hd, hne, -⟩ | hd
      · cases hd.symm.trans hy
        exact ih hne hv
      · cases hd.symm.trans hy

/-- No later tick calls the callback again. -/
theorem not_mem_of_ne_receive (hx : x.2.state ≠ .receive)
    (h : Trace.run (taskWork onRequest) ticks x = .ok (y, evs)) : .request c ∉ evs := by
  intro hc
  induction ticks generalizing x evs with
  | nil =>
    obtain ⟨-, rfl⟩ : x = y ∧ [] = evs := by simpa using h
    cases hc
  | cons t ticks ih =>
    obtain ⟨z, evs₁, evs₂, hz, hrun, rfl⟩ := Trace.exists_of_run_cons h
    rcases taskWork_of_ne_receive onRequest t x.1 hx with ⟨_, _, _, hd, hne, hno⟩ | hd
    · cases hd.symm.trans hz
      rcases List.mem_append.mp hc with hc | hc
      · exact hno c hc
      · exact ih hne hrun hc
    · cases hd.symm.trans hz

/-- **What is dispatched has both strings exactly when no tick forgot one.** -/
theorem Waits.remembers_iff (hw : Waits (fun _ => True) fd task s c) (hlt : s.length < sizeMod)
    (h : Trace.run (taskWork onRequest) ticks (smw, c) = .ok (x, evs)) (hd : .request d ∈ evs) :
    (d.method ≠ none ∧ d.requestPath ≠ none) ↔
      ¬ Trace.Visits (taskWork onRequest) Forgets ticks (smw, c) ∧ Remembers c := by
  induction ticks generalizing s c evs with
  | nil =>
    obtain ⟨-, rfl⟩ : (smw, c) = x ∧ [] = evs := by simpa using h
    cases hd
  | cons t ticks ih =>
    obtain ⟨y, evs₁, evs₂, hy, hrun, rfl⟩ := Trace.exists_of_run_cons h
    rw [Trace.visits_cons_of_ok hy, not_or]
    rcases hw.remembers_of_ok hy with ⟨rfl, hr⟩ | ⟨b, rfl, hsend, hstart, hr⟩
    · rcases hw.of_ok trivial hlt hy with ⟨b, rfl, -, hw', hlt'⟩ | ⟨b, r, -, hno, -⟩
      · rw [ih hw' hlt' hrun (by simpa using hd), hr]
        tauto
      · cases hno
    · have hne : y.2.state ≠ .receive := by
        rw [hsend]
        exact nofun
      have hbd : d = b.dispatched := by
        rcases List.mem_append.mp hd with hd | hd
        · simpa using hd
        · exact absurd hd (not_mem_of_ne_receive hne hrun)
      rw [hbd, dispatched_method, dispatched_requestPath, and_iff_left (not_visits_forgets hne),
        ← hr, Remembers]
      exact ⟨fun hboth _ => hboth, fun hboth => hboth hstart⟩

/-! ## The request line -/

/-- **The request line is taken whole or refused**: what is dispatched has both tokens, and a
request with a token that does not fit its array is not dispatched. -/
structure TakenWhole (m target : List Byte) (evs : List Event) : Prop where
  whole : ∀ c, .request c ∈ evs → c.method = some m ∧ c.requestPath = some target
  refused : methodMaxLen - 1 < m.length ∨ requestPathMaxLen - 1 < target.length →
    ∀ c, .request c ∉ evs

/-- **A request line that is dispatched was taken whole exactly when** the method has at most seven
letters and the target at most 255, and no tick that read the head was short of memory for them. -/
theorem request_line_whole_iff (hm : Token m) (ht : Token target)
    (hline : received ticks = m ++ 32 :: (target ++ 32 :: rest))
    (h : connectionRun onRequest smw fd task ticks = .ok (x, evs)) (hc : .request c ∈ evs) :
    TakenWhole m target evs ↔ m.length ≤ 7 ∧ target.length ≤ 255 ∧
      ¬ Trace.Visits (taskWork onRequest) Forgets ticks (smw, initiate fd task) := by
  have hwaits : Waits (fun _ => True) fd task [] (initiate fd task) := waits_initiate
  -- what is dispatched has the tokens the head says, if it has any
  have hsame : ∀ d, .request d ∈ evs → ((d.method = some m ∧ d.requestPath = some target) ↔
      (m.length ≤ 7 ∧ target.length ≤ 255) ∧
        ¬ Trace.Visits (taskWork onRequest) Forgets ticks (smw, initiate fd task)) := by
    intro d hd
    have hmem := hwaits.remembers_iff (by decide) h hd
    rw [and_iff_left (show Remembers (initiate fd task) from remembers_filled fd task [])] at hmem
    obtain ⟨pre, t, post, a, hhead, hticks, hs, rfl, -⟩ := exists_of_requested h hd
    have hall : headOf readRequest (received ticks) = some hhead := by
      rw [hticks, List.append_cons, received_append]
      exact headOf_append hs _
    rw [hline] at hall
    obtain ⟨rest', hfields⟩ := fields_of_headOf hm ht hall
    rw [← hmem, ← readRequest_eq_iff hm ht rest', ← hfields, dispatched_method,
      dispatched_requestPath, setHead]
    dsimp only
    rw [strdup_eq_some_iff, strdup_eq_some_iff, strdup_ne_none_iff, strdup_ne_none_iff]
    tauto
  constructor
  · intro htaken
    obtain ⟨⟨hmlen, htlen⟩, hno⟩ := (hsame c hc).mp (htaken.whole c hc)
    exact ⟨hmlen, htlen, hno⟩
  · rintro ⟨hmlen, htlen, hno⟩
    refine ⟨fun d hd => (hsame d hd).mpr ⟨⟨hmlen, htlen⟩, hno⟩, fun hlong => ?_⟩
    have hmax : methodMaxLen - 1 = 8 ∧ requestPathMaxLen - 1 = 255 := ⟨rfl, rfl⟩
    omega

/-- A request for the weather, in one read. -/
theorem request_line_whole_current : ∃ x c, connectionRun silent (Smw.init : Smw Unit) 4 none
      [readTick (bytes "GET /v1/current?lat=59.33&lon=18.07 HTTP/1.1\r\n\r\n") (by decide)
        (by decide)] = .ok (x, [.request c]) ∧
    TakenWhole (bytes "GET") (bytes "/v1/current?lat=59.33&lon=18.07") [.request c] := by
  have hrun : ∃ x c, connectionRun silent (Smw.init : Smw Unit) 4 none
      [readTick (bytes "GET /v1/current?lat=59.33&lon=18.07 HTTP/1.1\r\n\r\n") (by decide)
        (by decide)] = .ok (x, [.request c]) := ⟨_, _, rfl⟩
  have hline : received
      [readTick (bytes "GET /v1/current?lat=59.33&lon=18.07 HTTP/1.1\r\n\r\n") (by decide)
        (by decide)] = bytes "GET" ++
      32 :: (bytes "/v1/current?lat=59.33&lon=18.07" ++ 32 :: bytes "HTTP/1.1\r\n\r\n") := rfl
  obtain ⟨x, c, hrun⟩ := hrun
  have hm : Token (bytes "GET") :=
    ⟨by decide, List.all_iff_forall_prop.mp (by decide), by decide⟩
  have ht : Token (bytes "/v1/current?lat=59.33&lon=18.07") :=
    ⟨by decide, List.all_iff_forall_prop.mp (by decide), by decide⟩
  refine ⟨x, c, hrun, (request_line_whole_iff hm ht hline hrun (List.mem_singleton.mpr rfl)).mpr
    ⟨by decide, by decide, ?_⟩⟩
  rintro (hf | ⟨y, evs, -, hv⟩)
  · exact hf.2 ⟨rfl, rfl⟩
  · exact hv

/-- **A method of eight letters**, which has room in its array, leaves its last letter to the
path. -/
theorem request_line_cut : ∃ x c, connectionRun silent (Smw.init : Smw Unit) 4 none
      [readTick (bytes "PROPFIND / HTTP/1.1\r\n\r\n") (by decide) (by decide)]
      = .ok (x, [.request c]) ∧
    c.method = some (bytes "PROPFIN") ∧ c.requestPath = some (bytes "D") ∧
    ¬ TakenWhole (bytes "PROPFIND") (bytes "/") [.request c] := by
  refine ⟨_, _, rfl, rfl, rfl, fun htaken => ?_⟩
  have := (htaken.whole _ (List.mem_singleton.mpr rfl)).1
  exact absurd this (by decide)

end HTTPServerConnection
