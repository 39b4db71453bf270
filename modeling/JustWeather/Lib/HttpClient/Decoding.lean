import JustWeather.Lib.HttpClient.Bounds

/-!
# Lib/HttpClient/Decoding — a whole response is decoded, however it is cut

When the reads deliver one message and no byte more, the client waits until the last byte is there
(`Delivers.run_of_short`) and is then done, with the status and the body of the message
(`Delivers.run_of_whole`).
-/

open CLib MessageHead

namespace HttpClient

variable {c₀ : HttpClient} {ticks pre : List ReadTick} {s : List Byte} {h : MessageHead ℤ}

/-- The reads of `ticks` deliver `s`, nothing fails or runs out of memory, and the first read that
delivers anything delivers four bytes. -/
structure Delivers (s : List Byte) (ticks : List ReadTick) : Prop where
  goesOn : ∀ t ∈ ticks, goesOn t = true
  alloc : ∀ t ∈ ticks, t.alloc = .all
  received : received ticks = s
  longFirst : LongFirst (kept ticks)

/-- The ticks up to some moment deliver what they deliver. -/
theorem Delivers.of_prefix (hd : Delivers s ticks) (hpre : pre <+: ticks) :
    Delivers (HttpClient.received pre) pre ∧ HttpClient.received pre <+: s := by
  obtain ⟨post, rfl⟩ := hpre
  have hgo : ∀ t ∈ pre, HttpClient.goesOn t = true := fun t ht => hd.goesOn t (by simp [ht])
  refine ⟨⟨hgo, fun t ht => hd.alloc t (by simp [ht]), rfl, ?_⟩, HttpClient.received post, ?_⟩
  · exact longFirst_of_concat hgo hd.longFirst
  · rw [← hd.received, received_append]

/-- **A client is complete when it holds the message.** -/
theorem complete_iff_message (hf : Fresh c₀) (hno : NoWrap scanStatus s) :
    (waiting c₀ s).complete = true ↔ ∃ h, (framing scanStatus).message s = some h := by
  constructor
  · intro hcomp
    obtain ⟨h, hs, -, hle⟩ := exists_of_complete hf hcomp
    rw [sizeAdd_of_lt (hno h hs)] at hle
    exact ⟨h, message_framing_iff.mpr ⟨hs, hle⟩⟩
  · rintro ⟨h, hm⟩
    obtain ⟨hs, hle⟩ := message_framing_iff.mp hm
    have h4 := (bodyStart_bounds hs).1
    rw [complete_iff, waiting_readBuffer, waiting_of_some hs]
    refine ⟨Nat.lt_of_lt_of_le (by decide) h4, ?_⟩
    exact (sizeAdd_of_lt (hno h hs)).trans_le hle

/-- A message that fits its stream does not wrap. -/
theorem noWrap_of_message (hm : (framing scanStatus).message s = some h)
    (hlt : s.length < sizeMod) : NoWrap scanStatus s := by
  intro h' hs'
  obtain ⟨hs, hle⟩ := message_framing_iff.mp hm
  obtain rfl := Option.some.inj (hs.symm.trans hs')
  exact Nat.lt_of_le_of_lt hle hlt

/-- **Before the last byte of the message the client waits.** -/
theorem Delivers.run_of_short (hd : Delivers s ticks) (hf : Fresh c₀)
    (hm : (framing scanStatus).message s = some h) (hlt : s.length < sizeMod) (hpre : pre <+: ticks)
    (hshort : (HttpClient.received pre).length < h.bodyStart + h.contentLen) :
    readRun c₀ pre = .ok (waiting c₀ (HttpClient.received pre), []) := by
  obtain ⟨hd', m, rfl⟩ := hd.of_prefix hpre
  have hs := (message_framing_iff.mp hm).1
  have hno := noWrap_of_message hm hlt
  refine run_of_not_complete hf hd'.goesOn hd'.longFirst ?_ hs ?_ fun t ht => by
    rw [hd'.alloc t ht]
    rfl
  · rintro pre' ⟨rest, rfl⟩
    rw [received_append, List.append_assoc] at hno hs
    rw [← Bool.not_eq_true, complete_iff_message hf hno.of_append]
    rintro ⟨h', hm'⟩
    obtain ⟨hs', hle⟩ := message_framing_iff.mp hm'
    obtain rfl := Option.some.inj (hs.symm.trans (headOf_append hs' _))
    rw [received_append, List.length_append] at hshort
    omega
  · rw [List.length_append] at hlt
    omega

theorem taken_statusCode (a : ReadAlloc) (c : HttpClient) :
    (c.taken a).statusCode = c.statusCode := by
  rw [taken]
  split <;> rfl

/-- The body a client takes when there is memory for it. -/
theorem taken_body (c : HttpClient) : (c.taken .all).body = if c.contentLen = 0 then c.body
    else some ((c.readBuffer.drop c.bodyStart).take c.contentLen) := by
  rw [taken]
  by_cases hzero : c.contentLen = 0
  · rw [if_pos hzero, if_neg (by omega)]
  · rw [if_neg hzero, if_pos (by omega)]
    rfl

/-- What a client that is done has decoded. -/
structure Decoded (h : MessageHead ℤ) (s : List Byte) (d : HttpClient) : Prop where
  state : d.state = .done
  statusCode : d.statusCode = h.fields
  body : d.body = if h.contentLen = 0 then none else some (s.drop h.bodyStart)

/-- The tick that brings the last byte. -/
theorem Delivers.readWork_last {t : ReadTick} (hd : Delivers s (pre ++ [t])) (hf : Fresh c₀)
    (hbody : c₀.body = none) (hm : (framing scanStatus).message s = some h)
    (hexact : s.length = h.bodyStart + h.contentLen) (hlt : s.length < sizeMod)
    (hne : t.recv.bytes ≠ []) :
    ∃ d evs, (waiting c₀ (HttpClient.received pre)).readWork t = .ok (d, evs) ∧ Decoded h s d := by
  have hrec : HttpClient.received pre ++ t.recv.bytes = s := by
    rw [← received_singleton t, ← received_append, hd.received]
  have hs := (message_framing_iff.mp hm).1
  have hno := noWrap_of_message hm hlt
  have hcomp := (complete_iff_message hf hno).mpr ⟨h, hm⟩
  have halloc : t.alloc = .all := hd.alloc t (by simp)
  have h4 := length_received_concat (fun u hu => hd.goesOn u (by simp [hu])) hd.longFirst
    (hd.goesOn t (by simp)) hne
  have hwork := readWork_waiting (s := HttpClient.received pre) hf (hd.goesOn t (by simp)) hne h4
  rw [hrec] at hwork
  rcases hwork hlt with
    ⟨-, hbad⟩ | ⟨hwork, -⟩ | ⟨d, evs, -, -, hbad, -⟩ | ⟨-, -, -, hfit⟩ | ⟨-, -, hbad⟩
  · cases hbad.symm.trans hcomp
  · rw [waiting_of_some hs, halloc] at hwork
    refine ⟨_, _, hwork, rfl, taken_statusCode _ _, ?_⟩
    have htake : (s.drop h.bodyStart).take h.contentLen = s.drop h.bodyStart :=
      List.take_of_length_le (by rw [List.length_drop]; omega)
    rw [← htake, ← hbody]
    exact taken_body _
  · rw [halloc] at hbad
    cases hbad
  · exact absurd (fits_of_complete hf hcomp hno) hfit
  · have := hbad []
    rw [List.append_nil, hs] at this
    cases this

/-- **With the last byte of the message the client is done**, and has decoded it. -/
theorem Delivers.run_of_whole (hd : Delivers s ticks) (hf : Fresh c₀) (hbody : c₀.body = none)
    (hm : (framing scanStatus).message s = some h) (hexact : s.length = h.bodyStart + h.contentLen)
    (hlt : s.length < sizeMod) :
    ∃ d evs, readRun c₀ ticks = .ok (d, evs) ∧ Decoded h s d := by
  induction ticks using List.reverseRecOn with
  | nil =>
    have hs := (message_framing_iff.mp hm).1
    rw [← hd.received] at hs
    cases hs
  | append_singleton ticks t ih =>
    have hpre : ticks <+: ticks ++ [t] := List.prefix_append _ _
    have hrec : HttpClient.received ticks ++ t.recv.bytes = s := by
      rw [← received_singleton t, ← received_append, hd.received]
    by_cases hnil : t.recv.bytes = []
    · rw [hnil, List.append_nil] at hrec
      obtain ⟨d, evs, hrun, hdec⟩ := ih (by simpa only [hrec] using (hd.of_prefix hpre).1)
      have hne : d.state ≠ .reading := by rw [hdec.state]; simp
      exact ⟨d, evs ++ [], Trace.run_concat hrun (readWork_of_ne_reading hne t), hdec⟩
    · have hshort : (HttpClient.received ticks).length < h.bodyStart + h.contentLen := by
        have := List.length_pos_iff.mpr hnil
        rw [← hexact, ← hrec, List.length_append]
        omega
      obtain ⟨d, evs, hwork, hdec⟩ := hd.readWork_last hf hbody hm hexact hlt hnil
      exact ⟨d, [] ++ evs, Trace.run_concat (hd.run_of_short hf hm hlt hpre hshort) hwork, hdec⟩

end HttpClient
