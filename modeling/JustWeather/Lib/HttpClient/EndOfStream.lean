import JustWeather.Lib.HeaderFields
import JustWeather.Lib.HttpClient.Decoding

/-!
# Lib/HttpClient/EndOfStream — what the client makes of a server that closes

`tcp_client_read` has one `0` for a socket with nothing to read and for one that was closed, so the
close changes nothing (`readWork_of_closed`): a client is done by then, has given up by then, or
waits for the timeout.  A head that announces no length should end at the close, and one that
announces more than came in an error.  It is as it should be exactly when the head announces no more
than came, and the client had what it waits for (`endsRight_iff`).
-/

open CLib MessageHead

namespace HttpClient

variable {c₀ c d : HttpClient} {ticks pre : List ReadTick} {t : ReadTick} {s m : List Byte}
  {evs : List Event}

/-! ## Before the close -/

/-- The tick ends the reading with an error: `recv` fails, or there is no memory for the buffer or
for the copy of the head. -/
def GivesUp (t : ReadTick) (c : HttpClient) : Prop :=
  c.state = .reading ∧ (goesOn t = false ∨ t.recv.bytes ≠ [] ∧ t.alloc.headers = false ∧
    c.bodyStart = 0 ∧ headEnd (c.readBuffer ++ t.recv.bytes) ≠ none)

/-- There is a head in the bytes, and `body_start + content_len`, taken as a `size_t`, is among
them: what the client waits for. -/
def Suffices (s : List Byte) : Prop :=
  ∃ h, headOf scanStatus s = some h ∧ sizeAdd h.bodyStart h.contentLen ≤ s.length

/-- A tick brings what the client waits for; where there is memory for a body, it can be indexed by
a `size_t`. -/
def Arrives (ticks : List ReadTick) : Prop :=
  ∃ pre t post, ticks = pre ++ t :: post ∧ (received (pre ++ [t])).length < sizeMod ∧
    ¬ Suffices (received pre) ∧ Suffices (received (pre ++ [t])) ∧
    (t.alloc.body = true → NoWrap scanStatus (received (pre ++ [t])))

theorem suffices_iff_complete (hf : Fresh c₀) :
    Suffices s ↔ (waiting c₀ s).complete = true := by
  constructor
  · rintro ⟨h, hs, hle⟩
    have h4 := (bodyStart_bounds hs).1
    rw [complete_iff, waiting_readBuffer, waiting_of_some hs]
    exact ⟨Nat.lt_of_lt_of_le (by decide) h4, hle⟩
  · intro hcomp
    obtain ⟨h, hs, -, hle⟩ := exists_of_complete hf hcomp
    exact ⟨h, hs, hle⟩

theorem Suffices.append (hs : Suffices s) (m : List Byte) : Suffices (s ++ m) := by
  obtain ⟨h, hs, hle⟩ := hs
  refine ⟨h, headOf_append hs m, hle.trans ?_⟩
  rw [List.length_append]
  exact Nat.le_add_right _ _

theorem Arrives.append (h : Arrives ticks) (more : List ReadTick) : Arrives (ticks ++ more) := by
  obtain ⟨pre, t, post, rfl, h⟩ := h
  exact ⟨pre, t, post ++ more, by simp, h⟩

/-- A run in which it arrives received it. -/
theorem Arrives.suffices (h : Arrives ticks) : Suffices (received ticks) := by
  obtain ⟨pre, t, post, rfl, -, -, hyes, -⟩ := h
  rw [List.append_cons, received_append]
  exact hyes.append _

/-- Where a tick has not brought what the client waits for, a later one does; where it has, its body
can be indexed. -/
theorem Arrives.of_not_suffices {post : List ReadTick} (h : Arrives (pre ++ t :: post))
    (hno : ¬ Suffices (received pre)) :
    ∃ m, (received (pre ++ [t]) ++ m).length < sizeMod ∧ Suffices (received (pre ++ [t]) ++ m) ∧
      (Suffices (received (pre ++ [t])) → t.alloc.body = true →
        NoWrap scanStatus (received (pre ++ [t]))) := by
  obtain ⟨pre', t', post', heq, hlt, hno', hyes, hwrap⟩ := h
  have hpre : pre ++ [t] <+: pre ++ t :: post := ⟨post, by simp⟩
  have hpre' : pre' ++ [t'] <+: pre ++ t :: post := ⟨post', by simp [heq]⟩
  have hsame : pre' ++ [t'] = pre ++ [t] → ∃ m, (received (pre ++ [t]) ++ m).length < sizeMod ∧
      Suffices (received (pre ++ [t]) ++ m) ∧
      (Suffices (received (pre ++ [t])) → t.alloc.body = true →
        NoWrap scanStatus (received (pre ++ [t]))) := by
    intro h
    obtain ⟨rfl, rfl⟩ := List.append_singleton_inj.mp h
    refine ⟨[], ?_⟩
    rw [List.append_nil]
    exact ⟨hlt, hyes, fun _ => hwrap⟩
  rcases List.prefix_or_prefix_of_prefix hpre' hpre with h | h
  · rcases List.prefix_concat_iff.mp h with h | ⟨rest, rfl⟩
    · exact hsame h
    · rw [received_append] at hno
      exact absurd (hyes.append _) hno
  · rcases List.prefix_concat_iff.mp h with h | ⟨rest, rfl⟩
    · exact hsame h.symm
    · rw [List.append_assoc, received_append] at hlt hyes
      rw [received_append] at hno'
      exact ⟨_, hlt, hyes, fun hs => absurd (hs.append _) hno'⟩

/-- A body that fits what there is of it does not wrap. -/
theorem noWrap_of_bodyFits (hlt : s.length < sizeMod)
    (hfit : 0 < (waiting c₀ s).contentLen → (waiting c₀ s).BodyFits) : NoWrap scanStatus s := by
  intro h hs
  rw [waiting_of_some hs] at hfit
  have hstart := (bodyStart_bounds hs).2.2
  rcases Nat.eq_zero_or_pos h.contentLen with hzero | hpos
  · omega
  · have hle : h.bodyStart + h.contentLen ≤ s.length := (hfit hpos).2
    omega

theorem mem_notify (hcb : c.callback = true) (event text : List Byte) :
    .called event (some text) ∈ c.notify event text := by
  rw [notify, if_pos hcb]
  exact List.mem_singleton_self _

/-- A run that was ok had its first kept chunk long enough. -/
theorem longFirst_of_run (hf : Fresh c₀) (h : readRun c₀ pre = .ok (c, evs)) :
    LongFirst (kept pre) := by
  by_contra hshort
  cases (run_of_not_longFirst hf hshort).symm.trans h

/-- Without memory for the copy of a head that just came, nothing is read off it. -/
theorem process_of_no_headers {chunk : List Byte} (hf : Fresh c₀)
    (hs : headOf scanStatus s = none) (hend : headEnd (s ++ chunk) ≠ none)
    (hlt : (s ++ chunk).length < sizeMod) {a : ReadAlloc} (ha : a.headers = false) :
    { waiting c₀ s with readBuffer := s ++ chunk }.process a
      = .ok ⟨.dispose, { waiting c₀ s with readBuffer := s ++ chunk },
        c₀.notify (bytes "ERROR") (bytes "Memory allocation failed")⟩ := by
  obtain ⟨e, he⟩ := Option.ne_none_iff_exists'.mp hend
  have h4 : 4 ≤ (s ++ chunk).length := by
    have := headEnd_le_length he
    omega
  have hstart : (waiting c₀ s).bodyStart = 0 := by rw [waiting_of_none hs, filled, hf.bodyStart]
  have hlatch : { waiting c₀ s with readBuffer := s ++ chunk }.latch a = .ok none := by
    rw [latch, if_pos hstart]
    dsimp only
    rcases endOfHeaders_cases h4 hlt with hsearch | ⟨-, -, hnone⟩
    · rw [hsearch, he]
      exact if_neg (by simp [ha])
    · have := hnone []
      rw [List.append_nil, he] at this
      cases this
  rw [process, hlatch]
  dsimp only
  rw [notify, notify, waiting_callback]

/-- A client that gives up says so. -/
theorem GivesUp.exists_readWork (h : GivesUp t c) (hf : Fresh c₀)
    (hrun : readRun c₀ pre = .ok (c, evs)) :
    ∃ d text, c.readWork t = .ok (d, c₀.notify (bytes "ERROR") text) ∧ d.state = .dispose := by
  obtain ⟨hc, hgives⟩ := h
  have hlong : LongFirst (kept (pre ++ [])) := by
    rw [List.append_nil]
    exact longFirst_of_run hf hrun
  obtain ⟨-, rfl, hlt⟩ := run_waiting hf hlong hrun hc
  rw [readWork_of_reading hc]
  rcases ht : goesOn t
  · obtain ⟨text, hwork⟩ := workReading_of_not_goesOn ht (waiting c₀ (received pre))
    rw [hwork, notify, waiting_callback, ← notify]
    exact ⟨_, text, rfl, rfl⟩
  · obtain ⟨hne, hheaders, hstart, hend⟩ := hgives.resolve_left (by simp [ht])
    rw [waiting_readBuffer] at hend
    have hnone : headOf scanStatus (received pre) = none := by
      rcases hs : headOf scanStatus (received pre) with _ | h
      · rfl
      · have h4 := (bodyStart_bounds hs).1
        rw [waiting_of_some hs] at hstart
        exact absurd hstart (by simp only [setHead]; omega)
    obtain ⟨h, hs⟩ : ∃ h, headOf scanStatus (received pre ++ t.recv.bytes) = some h := by
      obtain ⟨e, he⟩ := Option.ne_none_iff_exists'.mp hend
      exact ⟨_, by rw [headOf, he]; rfl⟩
    have hlt' := length_append_lt hnone hs (length_bytes_le t)
    have hgrow : (waiting c₀ (received pre)).grow t.recv.bytes
        = .ok { waiting c₀ (received pre) with readBuffer := received pre ++ t.recv.bytes } := by
      rw [grow_of_lt (by rwa [waiting_readBuffer]), waiting_readBuffer]
    rw [workReading_of_bytes ht hne, hgrow]
    simp only [Except.bind]
    rw [process_of_no_headers hf hnone hend hlt' hheaders]
    exact ⟨_, bytes "Memory allocation failed", rfl, rfl⟩

/-- A client that reads no more stays as it is. -/
theorem readRun_of_ne_reading (hc : c.state ≠ .reading) (ticks : List ReadTick) :
    readRun c ticks = .ok (c, []) := by
  rw [readRun]
  induction ticks with
  | nil => rfl
  | cons t ticks ih =>
    rw [Trace.run_cons_of_ok (readWork_of_ne_reading hc t), ih]
    rfl

/-- **A run that gives up ends in an ERROR event**, whatever comes later. -/
theorem run_of_givesUp (hf : Fresh c₀) (h : Trace.Visits readWork GivesUp pre c₀) :
    ∃ d evs, readRun c₀ pre = .ok (d, evs) ∧ d.state = .dispose ∧
      (c₀.callback = true → ∃ text, .called (bytes "ERROR") (some text) ∈ evs) := by
  obtain ⟨pre, t, post, c, evs, rfl, hrun, hgives⟩ := Trace.visits_iff.mp h
  obtain ⟨d, text, hwork, hd⟩ := hgives.exists_readWork hf hrun
  have hrest : Trace.run readWork post d = .ok (d, []) :=
    readRun_of_ne_reading (by simp [hd]) post
  refine ⟨d, evs ++ (c₀.notify (bytes "ERROR") text ++ []), ?_, hd, fun hcb => ⟨text, ?_⟩⟩
  · rw [readRun, Trace.run_append hrun, Trace.run_cons_of_ok hwork, hrest]
    rfl
  · have := mem_notify hcb (bytes "ERROR") text
    simp [this]

/-- **One tick of a client that waits**: it waits on, is done with what it waited for, gives up, or
fails. -/
theorem readWork_cases (hf : Fresh c₀)
    (hrun : readRun c₀ pre = .ok (waiting c₀ (received pre), evs))
    (hno : ¬ Suffices (received pre)) (hlong : LongFirst (kept (pre ++ [t]))) :
    ((waiting c₀ (received pre)).readWork t = .ok (waiting c₀ (received (pre ++ [t])), []) ∧
      ¬ Suffices (received (pre ++ [t]))) ∨
    (∃ d evs, (waiting c₀ (received pre)).readWork t = .ok (d, evs) ∧ d.state = .done ∧
      Arrives (pre ++ [t])) ∨
    GivesUp t (waiting c₀ (received pre)) ∨
    ∃ f, (waiting c₀ (received pre)).readWork t = .error f ∧
      ∀ post, ¬ Arrives (pre ++ t :: post) := by
  have hc : (waiting c₀ (received pre)).state = .reading := by rw [waiting_state, hf.state]
  obtain ⟨hgo, -, -⟩ := run_waiting hf hlong hrun hc
  have hrec : received (pre ++ [t]) = received pre ++ t.recv.bytes := by
    rw [received_append, received_singleton]
  by_cases ht : goesOn t = true
  · by_cases hnil : t.recv.bytes = []
    · rw [hrec, hnil, List.append_nil]
      exact Or.inl ⟨readWork_of_bytes_nil hf ht hnil, hno⟩
    · rcases Nat.lt_or_ge (received pre ++ t.recv.bytes).length sizeMod with hlt | hge
      · rcases readWork_waiting hf ht hnil (length_received_concat hgo hlong ht hnil) hlt with
          ⟨hd, hmore⟩ | ⟨hd, hcomp, hfit⟩ | ⟨d, evs, -, -, hheaders, hnone, hend⟩ |
            ⟨hd, hcomp, hbody, hfit⟩ | ⟨hd, -, hnone⟩
        · refine Or.inl ⟨by rw [hrec]; exact hd, ?_⟩
          rw [hrec, suffices_iff_complete hf, hmore]
          exact Bool.false_ne_true
        · refine Or.inr (Or.inl ⟨_, _, hd, rfl, pre, t, [], rfl, ?_⟩)
          rw [hrec]
          exact ⟨hlt, hno, (suffices_iff_complete hf).mpr hcomp, fun hbody =>
            noWrap_of_bodyFits hlt fun hpos => hfit hpos hbody⟩
        · refine Or.inr (Or.inr (Or.inl ⟨hc, Or.inr ⟨hnil, hheaders, ?_, ?_⟩⟩))
          · rw [waiting_of_none hnone, filled, hf.bodyStart]
          · rwa [waiting_readBuffer]
        · refine Or.inr (Or.inr (Or.inr ⟨_, hd, fun post harrives => ?_⟩))
          obtain ⟨m, -, -, hwrap⟩ := harrives.of_not_suffices hno
          rw [hrec, suffices_iff_complete hf] at hwrap
          exact hfit (fits_of_complete hf hcomp (hwrap hcomp hbody))
        · refine Or.inr (Or.inr (Or.inr ⟨_, hd, fun post harrives => ?_⟩))
          obtain ⟨m, -, ⟨h, hs, -⟩, -⟩ := harrives.of_not_suffices hno
          rw [hrec] at hs
          cases (hnone m).symm.trans hs
      · refine Or.inr (Or.inr (Or.inr
          ⟨_, readWork_of_full hf ht hnil hge, fun post harrives => ?_⟩))
        obtain ⟨m, hlt, -⟩ := harrives.of_not_suffices hno
        rw [hrec, List.length_append] at hlt
        omega
  · exact Or.inr (Or.inr (Or.inl ⟨hc, Or.inl (by simpa using ht)⟩))

/-- **What the ticks before a close come to**: the client waits on, is done with what it waited for,
gave up, or failed. -/
theorem run_cases (hf : Fresh c₀) (hlong : LongFirst (kept pre)) :
    (∃ evs, readRun c₀ pre = .ok (waiting c₀ (received pre), evs) ∧ ¬ Suffices (received pre)) ∨
    (∃ d evs, readRun c₀ pre = .ok (d, evs) ∧ d.state = .done ∧ Arrives pre) ∨
    Trace.Visits readWork GivesUp pre c₀ ∨
    ∃ f, readRun c₀ pre = .error f ∧ ∀ post, ¬ Arrives (pre ++ post) := by
  induction pre using List.reverseRecOn with
  | nil =>
    have hnil : ¬ Suffices (received []) := by
      rintro ⟨h, hs, -⟩
      cases hs
    have hrun : readRun c₀ [] = .ok (waiting c₀ [], []) := by
      rw [waiting_nil hf]
      rfl
    exact Or.inl ⟨[], hrun, hnil⟩
  | append_singleton pre t ih =>
    rcases ih (longFirst_kept_of_append hlong) with
      ⟨evs, hrun, hno⟩ | ⟨d, evs, hrun, hd, harrives⟩ | hgives | ⟨f, hrun, hno⟩
    · rcases readWork_cases hf hrun hno hlong with
        ⟨hwork, hno⟩ | ⟨d, evs', hwork, hd⟩ | hgives | ⟨f, hwork, hno⟩
      · exact Or.inl ⟨_, Trace.run_concat hrun hwork, hno⟩
      · exact Or.inr (Or.inl ⟨d, _, Trace.run_concat hrun hwork, hd⟩)
      · exact Or.inr (Or.inr (Or.inl ((Trace.visits_concat hrun).mpr (Or.inr hgives))))
      · refine Or.inr (Or.inr (Or.inr ⟨f, Trace.run_append_error hrun hwork [], fun post => ?_⟩))
        rw [List.append_assoc]
        exact hno post
    · have hwork := readWork_of_ne_reading (c := d) (by simp [hd]) t
      exact Or.inr (Or.inl ⟨d, _, Trace.run_concat hrun hwork, hd, harrives.append [t]⟩)
    · exact Or.inr (Or.inr (Or.inl (hgives.append [t])))
    · refine Or.inr (Or.inr (Or.inr ⟨f, Trace.run_append_of_error hrun [t], fun post => ?_⟩))
      rw [List.append_assoc]
      exact hno _

/-! ## The close -/

/-- A close looks like a socket with nothing to read. -/
theorem readWork_of_closed (hclose : t.recv = .closed) (c : HttpClient) :
    c.readWork t = .ok (c, []) := by
  by_cases hc : c.state = .reading
  · have hgo : goesOn t = true := by rw [goesOn, hclose]
    have hnil : t.recv.bytes = [] := by rw [hclose]; rfl
    rw [readWork_of_reading hc, workReading_of_bytes_nil hgo hnil]
    simp only [Except.map]
    rw [← hc]
  · exact readWork_of_ne_reading hc t

/-- No whole head came, or fewer bytes after it than its `Content-Length` field says. -/
def CutShort (s : List Byte) : Prop :=
  headOf scanStatus s = none ∨ ∃ h n, headOf scanStatus s = some h ∧
    HeaderField.announced (s.take h.bodyStart) = some n ∧ s.length < h.bodyStart + n

/-- **How the reading ends at a close**: the client leaves the reading state; where the head
announces no length, at the close and with all that followed for its body; and where the message was
cut short, with an ERROR event. -/
structure Ended (c₀ : HttpClient) (pre : List ReadTick) (d : HttpClient) (evs : List Event) :
    Prop where
  left : d.state ≠ .reading
  atClose : ∀ h, headOf scanStatus (received pre) = some h →
    HeaderField.announced ((received pre).take h.bodyStart) = none →
    (∃ c evs, readRun c₀ pre = .ok (c, evs) ∧ c.state = .reading) ∧ d.state = .done ∧
      d.body.getD [] = (received pre).drop h.bodyStart
  cutShort : CutShort (received pre) → d.state = .dispose ∧
    (c₀.callback = true → ∃ text, .called (bytes "ERROR") (some text) ∈ evs)

/-- **The close ends the reading as it should.** -/
def EndsRight (c₀ : HttpClient) (pre : List ReadTick) (t : ReadTick) : Prop :=
  ∃ d evs, readRun c₀ (pre ++ [t]) = .ok (d, evs) ∧ Ended c₀ pre d evs

/-- **When the end of the stream ends the reading as it should**: the head there is announces a
length; and a read had failed or memory run out before, or, after a first chunk long enough for the
search, the client had what it waits for, and that was all the head announces. -/
theorem endsRight_iff (hf : Fresh c₀) (hclose : t.recv = .closed) :
    EndsRight c₀ pre t ↔
      (∀ h, headOf scanStatus (received pre) = some h →
        HeaderField.announced ((received pre).take h.bodyStart) ≠ none) ∧
      (Trace.Visits readWork GivesUp pre c₀ ∨
        LongFirst (kept pre) ∧ Arrives pre ∧ ¬ CutShort (received pre)) := by
  constructor
  · rintro ⟨d, evs, hrun, hend⟩
    obtain ⟨c, evs₁, evs₂, hrun₁, hwork, rfl⟩ := Trace.exists_of_run_concat hrun
    cases (readWork_of_closed hclose c).symm.trans hwork
    refine ⟨fun h hs hnone => ?_, ?_⟩
    · obtain ⟨⟨c', evs', hrun', hc'⟩, -⟩ := hend.atClose h hs hnone
      cases hrun'.symm.trans hrun₁
      exact hend.left hc'
    · have hlong := longFirst_of_run hf hrun₁
      rcases run_cases hf hlong with
        ⟨evs', hrun', -⟩ | ⟨d', evs', hrun', hd, harrives⟩ | hgives | ⟨f, hrun', -⟩
      · cases hrun'.symm.trans hrun₁
        exact absurd (by rw [waiting_state, hf.state]) hend.left
      · cases hrun'.symm.trans hrun₁
        refine Or.inr ⟨hlong, harrives, fun hcut => ?_⟩
        cases hd.symm.trans (hend.cutShort hcut).1
      · exact Or.inl hgives
      · cases hrun'.symm.trans hrun₁
  · rintro ⟨hannounced, hends⟩
    have hgave : Trace.Visits readWork GivesUp pre c₀ → EndsRight c₀ pre t := by
      intro hgives
      obtain ⟨d, evs, hrun, hd, herror⟩ := run_of_givesUp hf hgives
      refine ⟨d, evs ++ [], Trace.run_concat hrun (readWork_of_closed hclose d), by simp [hd],
        fun h hs hnone => absurd hnone (hannounced h hs), fun _ => ⟨hd, ?_⟩⟩
      rwa [List.append_nil]
    rcases hends with hgives | ⟨hlong, harrives, hcut⟩
    · exact hgave hgives
    · rcases run_cases hf hlong with
        ⟨evs, -, hno⟩ | ⟨d, evs, hrun, hd, -⟩ | hgives | ⟨f, -, hno⟩
      · exact absurd harrives.suffices hno
      · exact ⟨d, evs ++ [], Trace.run_concat hrun (readWork_of_closed hclose d), by simp [hd],
          fun h hs hnone => absurd hnone (hannounced h hs), fun h => absurd h hcut⟩
      · exact hgave hgives
      · exact absurd (by simpa using harrives) (hno [])

/-- A close after the two bytes the head announces. -/
theorem endsRight_of_two :
    EndsRight idle
      [readTick (bytes "HTTP/1.1 200 OK\r\nContent-Length: 2\r\n\r\nhi") (by decide) (by decide)]
      ⟨.closed, .all⟩ := by
  have hs : headOf scanStatus (bytes "HTTP/1.1 200 OK\r\nContent-Length: 2\r\n\r\nhi")
      = some ⟨200, 2, 38⟩ := by decide
  have hhead : ∀ h, headOf scanStatus
      (bytes "HTTP/1.1 200 OK\r\nContent-Length: 2\r\n\r\nhi") = some h → h = ⟨200, 2, 38⟩ :=
    fun h hs' => Option.some.inj (hs'.symm.trans hs)
  have hannounced : HeaderField.announced
      ((bytes "HTTP/1.1 200 OK\r\nContent-Length: 2\r\n\r\nhi").take 38) = some 2 := by decide
  have harrives : Arrives
      [readTick (bytes "HTTP/1.1 200 OK\r\nContent-Length: 2\r\n\r\nhi") (by decide)
        (by decide)] := by
    refine ⟨[], _, [], rfl, by decide, ?_, ⟨_, hs, by decide⟩, fun _ h hs' => ?_⟩
    · rintro ⟨h, hs', -⟩
      cases hs'
    · obtain rfl := hhead h hs'
      decide
  have hwhole : ¬ CutShort (bytes "HTTP/1.1 200 OK\r\nContent-Length: 2\r\n\r\nhi") := by
    rintro (hnone | ⟨h, n, hs', hn, hlt⟩)
    · cases hs.symm.trans hnone
    · obtain rfl := hhead h hs'
      obtain rfl := Option.some.inj (hannounced.symm.trans hn)
      exact absurd hlt (by decide)
  refine (endsRight_iff fresh_idle rfl).mpr ⟨fun h hs' hnone => ?_, Or.inr ⟨by decide, harrives,
    hwhole⟩⟩
  obtain rfl := hhead h hs'
  cases hannounced.symm.trans hnone

/-- A client that is done with the head before the close, where the head announces nothing. -/
theorem not_endsRight_of_done {h : MessageHead ℤ}
    (hs : headOf scanStatus (received pre) = some h)
    (hnone : HeaderField.announced ((received pre).take h.bodyStart) = none)
    (hdone : ∃ c evs, readRun c₀ pre = .ok (c, evs) ∧ c.state = .done) : ¬ EndsRight c₀ pre t := by
  rintro ⟨d, evs, -, hend⟩
  obtain ⟨⟨c, evs, hrun, hreading⟩, -⟩ := hend.atClose h hs hnone
  obtain ⟨c', evs', hrun', hdone⟩ := hdone
  cases hrun'.symm.trans hrun
  cases hdone.symm.trans hreading

/-- A close after two of five bytes; one after a head that announces nothing; and one after a head
that announces nothing and has the words in another name. -/
theorem not_endsRight_of_five :
    ¬ EndsRight idle
        [readTick (bytes "HTTP/1.1 200 OK\r\nContent-Length: 5\r\n\r\nhi") (by decide)
          (by decide)] ⟨.closed, .all⟩ ∧
      ¬ EndsRight idle
        [readTick (bytes "HTTP/1.1 200 OK\r\n\r\nhi") (by decide) (by decide)]
        ⟨.closed, .all⟩ ∧
      ¬ EndsRight idle
        [readTick (bytes "HTTP/1.1 200 OK\r\nX-Content-Length: 2\r\n\r\nhi") (by decide)
          (by decide)] ⟨.closed, .all⟩ := by
  refine ⟨?_, ?_, ?_⟩
  · rintro ⟨d, evs, hrun, hend⟩
    have hreads : ∃ c, readRun idle
        [readTick (bytes "HTTP/1.1 200 OK\r\nContent-Length: 5\r\n\r\nhi") (by decide)
          (by decide), ⟨.closed, .all⟩] = .ok (c, []) ∧ c.state = .reading := ⟨_, by rfl, by rfl⟩
    obtain ⟨c, hc, hreading⟩ := hreads
    cases hc.symm.trans hrun
    exact hend.left hreading
  · have hs : headOf scanStatus (bytes "HTTP/1.1 200 OK\r\n\r\nhi") = some ⟨200, 0, 19⟩ := by
      decide
    exact not_endsRight_of_done hs (by decide) ⟨_, _, by rfl, by rfl⟩
  · have hs : headOf scanStatus (bytes "HTTP/1.1 200 OK\r\nX-Content-Length: 2\r\n\r\nhi")
        = some ⟨200, 2, 40⟩ := by decide
    exact not_endsRight_of_done hs (by decide) ⟨_, _, by rfl, by rfl⟩

end HttpClient
