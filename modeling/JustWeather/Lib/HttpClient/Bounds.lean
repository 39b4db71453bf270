import JustWeather.Lib.HttpClient.Reading

/-!
# Lib/HttpClient/Bounds — where a run of the client leaves its buffer

The client's half of `Lib/HttpServerConnection/Bounds`.  A read error or a failed `realloc` ends the
reading, so only the chunks kept before count (`kept`).
-/

open CLib MessageHead

namespace HttpClient

variable {c₀ c : HttpClient} {ticks pre post : List ReadTick} {t : ReadTick} {evs : List Event}

/-- A run of the reading state. -/
def readRun (c₀ : HttpClient) (ticks : List ReadTick) : Except Fault (HttpClient × List Event) :=
  Trace.run readWork ticks c₀

/-- The bytes a run of ticks delivers. -/
def received (ticks : List ReadTick) : List Byte := (ticks.map fun t => t.recv.bytes).flatten

/-- The chunks a client keeps: those before the first tick that ends the reading. -/
def kept (ticks : List ReadTick) : List (List Byte) :=
  (ticks.takeWhile goesOn).map fun t => t.recv.bytes

@[simp] theorem received_append (ts us : List ReadTick) :
    received (ts ++ us) = received ts ++ received us := by
  simp [received]

@[simp] theorem received_singleton (t : ReadTick) : received [t] = t.recv.bytes := by
  simp [received]

theorem kept_append (h : ∀ t ∈ pre, goesOn t = true) :
    kept (pre ++ post) = pre.map (fun t => t.recv.bytes) ++ kept post := by
  rw [kept, kept, List.takeWhile_append_of_pos h, List.map_append]

theorem kept_eq (h : ∀ t ∈ ticks, goesOn t = true) :
    kept ticks = ticks.map fun t => t.recv.bytes := by
  rw [kept, List.takeWhile_eq_self_iff.mpr h]

theorem length_bytes_le (t : ReadTick) : t.recv.bytes.length ≤ 4096 := by
  rcases t.recv with chunk | _ | _ | _
  · exact chunk.length_le
  all_goals exact Nat.zero_le _

/-- Where a chunk was kept, at least four bytes were. -/
theorem length_received_concat (hpre : ∀ t ∈ pre, goesOn t = true)
    (hlong : LongFirst (kept (pre ++ t :: post))) (ht : goesOn t = true)
    (hne : t.recv.bytes ≠ []) : 4 ≤ (received pre ++ t.recv.bytes).length := by
  have hall : ∀ u ∈ pre ++ [t], goesOn u = true := by
    intro u hu
    rcases List.mem_append.mp hu with hu | hu
    · exact hpre u hu
    · rwa [List.mem_singleton.mp hu]
  rw [List.append_cons, kept_append hall] at hlong
  have hflat : ((pre ++ [t]).map fun t => t.recv.bytes).flatten = received pre ++ t.recv.bytes := by
    rw [← received_singleton t, ← received_append]
    rfl
  rcases hlong.of_append.length_flatten with hnil | h4
  · rw [hflat] at hnil
    exact absurd (List.append_eq_nil_iff.mp hnil).2 hne
  · rwa [hflat] at h4

theorem longFirst_of_concat (hpre : ∀ t ∈ pre, goesOn t = true)
    (hlong : LongFirst (kept (pre ++ post))) : LongFirst (kept pre) := by
  rw [kept_append hpre, ← kept_eq hpre] at hlong
  exact hlong.of_append

/-- What is kept first is kept of the first ticks. -/
theorem longFirst_kept_of_append (hlong : LongFirst (kept (pre ++ post))) :
    LongFirst (kept pre) := by
  by_cases hgo : ∀ t ∈ pre, goesOn t = true
  · exact longFirst_of_concat hgo hlong
  · rwa [kept, List.takeWhile_append, if_neg fun h => hgo (List.takeWhile_eq_self_iff.mp
      ((List.takeWhile_prefix _).eq_of_length h)), ← kept] at hlong

/-- **A run that still reads waits on what it was sent.** -/
theorem run_waiting (hf : Fresh c₀) (hlong : LongFirst (kept (ticks ++ post)))
    (h : readRun c₀ ticks = .ok (c, evs)) (hc : c.state = .reading) :
    (∀ t ∈ ticks, goesOn t = true) ∧ c = waiting c₀ (received ticks) ∧
      (received ticks).length < sizeMod := by
  refine Trace.run_invariant (P := fun js c _ => ∀ post, LongFirst (kept (js ++ post)) →
    c.state = .reading → (∀ t ∈ js, goesOn t = true) ∧ c = waiting c₀ (received js) ∧
      (received js).length < sizeMod) ?_ ?_ h post hlong hc
  · intro _ _ _
    exact ⟨by simp, (waiting_nil hf).symm, by decide⟩
  · intro js c₁ c₂ evs₁ evs₂ t ih hstep post hlong hc
    by_cases hc₁ : c₁.state = .reading
    · obtain ⟨hgo, rfl, hlt⟩ := ih (t :: post) (by simpa using hlong) hc₁
      rw [received_append, received_singleton]
      rcases readWork_step hf hlt (length_received_concat hgo (by simpa using hlong)) with
        ⟨hd, ht, hlt'⟩ | ⟨d, evs, hd, hne⟩ | ⟨f, hd, -⟩
      · cases hd.symm.trans hstep
        refine ⟨fun u hu => ?_, rfl, hlt'⟩
        rcases List.mem_append.mp hu with hu | hu
        · exact hgo u hu
        · rwa [List.mem_singleton.mp hu]
      · cases hd.symm.trans hstep
        exact absurd hc hne
      · cases hd.symm.trans hstep
    · cases (readWork_of_ne_reading hc₁ t).symm.trans hstep
      exact absurd hc hc₁

/-- **How a step of a run can fail.** -/
theorem step_fault {f : Fault} (hf : Fresh c₀) (hlong : LongFirst (kept (pre ++ t :: post)))
    (h : readRun c₀ pre = .ok (c, evs)) (hstep : c.readWork t = .error f) :
    (∀ u ∈ pre ++ [t], goesOn u = true) ∧ ReadFault c₀ (received (pre ++ [t])) f := by
  by_cases hc : c.state = .reading
  · obtain ⟨hgo, rfl, hlt⟩ := run_waiting hf hlong h hc
    rw [received_append, received_singleton]
    rcases readWork_step hf hlt (length_received_concat hgo hlong) with
      ⟨hd, -⟩ | ⟨d, evs, hd, -⟩ | ⟨g, hd, ht, hg⟩
    · cases hd.symm.trans hstep
    · cases hd.symm.trans hstep
    · cases hd.symm.trans hstep
      refine ⟨fun u hu => ?_, hg⟩
      rcases List.mem_append.mp hu with hu | hu
      · exact hgo u hu
      · rwa [List.mem_singleton.mp hu]
  · cases (readWork_of_ne_reading hc t).symm.trans hstep

/-! ## Searching past the end -/

/-- A run without a chunk does nothing. -/
theorem run_of_bytes_nil (hf : Fresh c₀) (hgo : ∀ t ∈ ticks, goesOn t = true)
    (h : ∀ t ∈ ticks, t.recv.bytes = []) : readRun c₀ ticks = .ok (c₀, []) := by
  rw [readRun]
  induction ticks with
  | nil => rfl
  | cons t ticks ih =>
    have hd : c₀.readWork t = .ok (c₀, []) := by
      have := readWork_of_bytes_nil (s := []) hf (hgo t (by simp)) (h t (by simp))
      rwa [waiting_nil hf] at this
    rw [Trace.run_cons_of_ok hd, ih (fun u hu => hgo u (List.mem_cons_of_mem _ hu))
      fun u hu => h u (List.mem_cons_of_mem _ hu)]
    rfl

/-- **A first chunk of fewer than four bytes is searched past its end.** -/
theorem run_of_not_longFirst (hf : Fresh c₀) (h : ¬ LongFirst (kept ticks)) :
    readRun c₀ ticks = .error .readPastEnd := by
  obtain ⟨pre, chunk, post, hmap, hpre, hne, hlt⟩ := exists_of_not_longFirst h
  obtain ⟨us, us', hus, rfl, hus'⟩ := List.map_eq_append_iff.mp hmap
  obtain ⟨t, vs, rfl, rfl, rfl⟩ := List.map_eq_cons_iff.mp hus'
  have hgo : ∀ u ∈ us ++ t :: vs, goesOn u = true := by
    rw [← hus]
    exact fun u hu => List.mem_takeWhile_imp hu
  obtain ⟨rest, hrest⟩ := List.takeWhile_prefix (l := ticks) goesOn
  rw [← hrest, hus, List.append_assoc, List.cons_append]
  refine Trace.run_append_error (run_of_bytes_nil hf (fun u hu => hgo u (by simp [hu]))
    fun u hu => hpre _ (List.mem_map_of_mem hu)) ?_ _
  have hgrow : c₀.grow t.recv.bytes = .ok (filled c₀ t.recv.bytes) := by
    have hsize : sizeMod = 2 ^ 64 := rfl
    rw [grow, hf.readBuffer, if_pos]
    · rfl
    · simp only [List.length_nil]
      omega
  have hlatch : (filled c₀ t.recv.bytes).latch t.alloc = .error .readPastEnd := by
    have hstart : (filled c₀ t.recv.bytes).bodyStart = 0 := hf.bodyStart
    have he : endOfHeaders (filled c₀ t.recv.bytes).readBuffer = .error .readPastEnd :=
      endOfHeaders_short hlt
    rw [latch, if_pos hstart, he]
  rw [readWork_of_reading hf.state, workReading_of_bytes (hgo t (by simp)) hne, hgrow]
  simp only [Except.bind, process, hlatch]
  rfl

/-- A run whose first chunk is long enough is never searched past its end, and loses the index of
the search only on a buffer `int` cannot index. -/
theorem run_of_longFirst (hf : Fresh c₀) (hlong : LongFirst (kept ticks)) :
    readRun c₀ ticks ≠ .error .readPastEnd ∧
    ((received ticks).length < intMax → readRun c₀ ticks ≠ .error .intOverflow) := by
  have key : ∀ f, readRun c₀ ticks = .error f →
      f ≠ .readPastEnd ∧ (f = .intOverflow → intMax ≤ (received ticks).length) := by
    intro f hfail
    obtain ⟨pre, t, post, c, evs, rfl, hpre, hstep⟩ := Trace.run_error hfail
    obtain ⟨-, hfault⟩ := step_fault hf hlong hpre hstep
    rw [List.append_cons, received_append, List.length_append]
    obtain - | ⟨hbig, -⟩ | - := hfault
    · exact ⟨by simp, by simp⟩
    · exact ⟨by simp, fun _ => by omega⟩
    · exact ⟨by simp, by simp⟩
  exact ⟨fun h => (key _ h).1 rfl, fun hlt h => absurd ((key _ h).2 rfl) (Nat.not_le.mpr hlt)⟩

/-! ## Bodies -/

/-- A client that is complete has room for the body and holds it, unless the end of the body
wrapped. -/
theorem fits_of_complete {s : List Byte} (hf : Fresh c₀) (hcomp : (waiting c₀ s).complete = true)
    (hno : NoWrap scanStatus s) : (waiting c₀ s).BodyFits := by
  obtain ⟨h, hs, heq, hle⟩ := exists_of_complete hf hcomp
  have hlt := hno h hs
  have h4 := (bodyStart_bounds hs).1
  rw [sizeAdd_of_lt hlt] at hle
  rw [heq]
  refine ⟨?_, hle⟩
  change h.contentLen < sizeAdd h.contentLen 1
  rw [sizeAdd_of_lt (by omega)]
  exact Nat.lt_succ_self _

/-- **A run whose bodies do not wrap copies only what it holds.** -/
theorem run_of_noWrap (hf : Fresh c₀)
    (hno : LongFirst (kept ticks) → NoWrap scanStatus (kept ticks).flatten) :
    readRun c₀ ticks ≠ .error .copyPastEnd := by
  by_cases hlong : LongFirst (kept ticks)
  · intro h
    obtain ⟨pre, t, post, c, evs, rfl, hpre, hstep⟩ := Trace.run_error h
    obtain ⟨hgo, hfault⟩ := step_fault hf hlong hpre hstep
    have hno := hno hlong
    rw [List.append_cons, kept_append hgo, List.flatten_append] at hno
    obtain - | - | ⟨hcomp, hfit⟩ := hfault
    exact hfit (fits_of_complete hf hcomp hno.of_append)
  · rw [run_of_not_longFirst hf hlong]
    simp

/-- **A run that was never complete waits on what it was sent.** -/
theorem run_of_not_complete {m : List Byte} {h : MessageHead ℤ} (hf : Fresh c₀)
    (hgo : ∀ t ∈ ticks, goesOn t = true) (hlong : LongFirst (kept ticks))
    (hwait : ∀ pre, pre <+: ticks → (waiting c₀ (received pre)).complete = false)
    (hsome : headOf scanStatus (received ticks ++ m) = some h)
    (hlt : (received ticks).length < sizeMod) (hheaders : ∀ t ∈ ticks, t.alloc.headers = true) :
    readRun c₀ ticks = .ok (waiting c₀ (received ticks), []) := by
  induction ticks using List.reverseRecOn generalizing m with
  | nil =>
    rw [show received [] = [] from rfl, waiting_nil hf]
    rfl
  | append_singleton ticks t ih =>
    have hno := hwait _ (List.prefix_refl _)
    rw [received_append, received_singleton] at hno hsome hlt ⊢
    have hgo₁ : ∀ u ∈ ticks, goesOn u = true := fun u hu => hgo u (by simp [hu])
    have ht : goesOn t = true := hgo t (by simp)
    have hlong₁ : LongFirst (kept ticks) := longFirst_of_concat hgo₁ hlong
    have hlt₁ : (received ticks).length < sizeMod := by
      rw [List.length_append] at hlt
      omega
    have hrun := ih hgo₁ hlong₁ (fun pre hpre => hwait pre (hpre.trans (List.prefix_append _ _)))
      (by rwa [List.append_assoc] at hsome) hlt₁ fun u hu => hheaders u (by simp [hu])
    refine Trace.run_concat hrun ?_
    by_cases hnil : t.recv.bytes = []
    · rw [hnil, List.append_nil]
      exact readWork_of_bytes_nil hf ht hnil
    · rcases readWork_waiting hf ht hnil (length_received_concat hgo₁ hlong ht hnil) hlt with
        ⟨hd, -⟩ | ⟨-, hcomp, -⟩ | ⟨d, evs, -, -, hfail, -⟩ | ⟨-, hcomp, -⟩ | ⟨-, -, hall⟩
      · exact hd
      · cases hno.symm.trans hcomp
      · cases (hheaders t (by simp)).symm.trans hfail
      · cases hno.symm.trans hcomp
      · cases hsome.symm.trans (hall m)

/-- A run that has not been sent a whole head yet has only filled the buffer. -/
theorem run_of_headOf_none {m : List Byte} {h : MessageHead ℤ} (hf : Fresh c₀)
    (hgo : ∀ t ∈ ticks, goesOn t = true) (hlong : LongFirst (kept ticks))
    (hnone : headOf scanStatus (received ticks) = none)
    (hsome : headOf scanStatus (received ticks ++ m) = some h)
    (hlt : (received ticks).length < sizeMod) (hheaders : ∀ t ∈ ticks, t.alloc.headers = true) :
    readRun c₀ ticks = .ok (waiting c₀ (received ticks), []) := by
  refine run_of_not_complete hf hgo hlong ?_ hsome hlt hheaders
  rintro pre ⟨rest, rfl⟩
  rw [← Bool.not_eq_true]
  intro hcomp
  obtain ⟨h', hs, -⟩ := exists_of_complete hf hcomp
  rw [received_append] at hnone
  cases (headOf_append hs (received rest)).symm.trans hnone

/-- The ticks a client keeps a chunk of, with memory for everything. -/
def plenty (ticks : List ReadTick) : List ReadTick :=
  (ticks.takeWhile goesOn).map fun t => { t with alloc := .all }

theorem goesOn_of_mem_plenty {ticks : List ReadTick} (ht : t ∈ plenty ticks) :
    goesOn t = true := by
  obtain ⟨u, hu, rfl⟩ := List.mem_map.mp ht
  have hgo := List.mem_takeWhile_imp hu
  rcases hr : u.recv with _ | _ | _ | _ <;> simp [goesOn, hr, ReadAlloc.all] at hgo ⊢

theorem kept_plenty (ticks : List ReadTick) : kept (plenty ticks) = kept ticks := by
  rw [kept_eq fun t ht => goesOn_of_mem_plenty ht, plenty, List.map_map]
  rfl

theorem received_eq (h : ∀ t ∈ ticks, goesOn t = true) : received ticks = (kept ticks).flatten := by
  rw [received, kept_eq h]

/-- A client with the head of a body that wraps is complete, and short of the body. -/
theorem complete_of_wrap (c₀ : HttpClient) {s : List Byte} {h : MessageHead ℤ}
    (hs : headOf scanStatus s = some h) (hlt : s.length < sizeMod)
    (hge : sizeMod ≤ h.bodyStart + h.contentLen) :
    (waiting c₀ s).complete = true ∧ 0 < (waiting c₀ s).contentLen ∧ ¬ (waiting c₀ s).BodyFits := by
  obtain ⟨-, -, hle⟩ := bodyStart_bounds hs
  have hadd := sizeAdd_lt_left (by omega) (contentLen_lt hs) hge
  refine ⟨?_, ?_, fun hfit => ?_⟩
  · rw [complete_iff, waiting_of_some hs]
    simp only [setHead, filled]
    omega
  · rw [waiting_of_some hs]
    simp only [setHead]
    omega
  · have hbig := hfit.2
    rw [waiting_readBuffer, waiting_of_some hs] at hbig
    simp only [setHead, filled] at hbig
    omega

/-- The tick that brings the head of a body that wraps copies the body. -/
theorem run_concat_of_wrap {h : MessageHead ℤ} (hf : Fresh c₀)
    (hgo : ∀ u ∈ ticks ++ [t], goesOn u = true) (halloc : ∀ u ∈ ticks ++ [t], u.alloc = .all)
    (hlong : LongFirst (kept (ticks ++ [t]))) (hnone : headOf scanStatus (received ticks) = none)
    (hs : headOf scanStatus (received ticks ++ t.recv.bytes) = some h)
    (hge : sizeMod ≤ h.bodyStart + h.contentLen) :
    readRun c₀ (ticks ++ [t]) = .error .copyPastEnd := by
  have hgo₁ : ∀ u ∈ ticks, goesOn u = true := fun u hu => hgo u (by simp [hu])
  have ht : goesOn t = true := hgo t (by simp)
  have hne : t.recv.bytes ≠ [] := by
    intro hnil
    rw [hnil, List.append_nil, hnone] at hs
    cases hs
  have hlt := length_append_lt hnone hs (length_bytes_le t)
  have hrun := run_of_headOf_none hf hgo₁ (longFirst_of_concat hgo₁ hlong) hnone hs
    (by rw [List.length_append] at hlt; omega)
    fun u hu => by rw [halloc u (by simp [hu])]; rfl
  obtain ⟨hcomp, hpos, hover⟩ := complete_of_wrap c₀ hs hlt hge
  refine Trace.run_append_error hrun ?_ []
  rcases readWork_waiting hf ht hne (length_received_concat hgo₁ hlong ht hne) hlt with
    ⟨-, hno⟩ | ⟨-, -, hfit⟩ | ⟨d, evs, -, -, hfail, -⟩ | ⟨hd, -⟩ | ⟨-, -, hall⟩
  · cases hno.symm.trans hcomp
  · exact absurd (hfit hpos (by rw [halloc t (by simp)]; rfl)) hover
  · rw [halloc t (by simp)] at hfail
    cases hfail
  · exact hd
  · have hhead := hall []
    rw [List.append_nil, hs] at hhead
    cases hhead

/-- **A body whose end wraps is copied past the end**, when memory does not run out. -/
theorem exists_run_of_wrap (hf : Fresh c₀) (hgo : ∀ t ∈ ticks, goesOn t = true)
    (halloc : ∀ t ∈ ticks, t.alloc = .all) (hlong : LongFirst (kept ticks))
    (hwrap : ¬ NoWrap scanStatus (received ticks)) :
    ∃ pre, pre <+: ticks ∧ readRun c₀ pre = .error .copyPastEnd := by
  induction ticks using List.reverseRecOn with
  | nil => exact absurd (fun _ hs => by cases hs) hwrap
  | append_singleton ticks t ih =>
    by_cases hno : NoWrap scanStatus (received ticks)
    · rw [received_append, received_singleton] at hwrap
      obtain ⟨hnone, h, hs, hge⟩ := exists_of_not_noWrap hno hwrap
      exact ⟨ticks ++ [t], List.prefix_refl _,
        run_concat_of_wrap hf hgo halloc hlong hnone hs hge⟩
    · have hgo₁ : ∀ u ∈ ticks, goesOn u = true := fun u hu => hgo u (by simp [hu])
      obtain ⟨pre, hpre, hbad⟩ := ih hgo₁ (fun u hu => halloc u (by simp [hu]))
        (longFirst_of_concat hgo₁ hlong) hno
      exact ⟨pre, hpre.trans (List.prefix_append _ _), hbad⟩

end HttpClient
