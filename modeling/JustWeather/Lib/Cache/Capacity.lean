import JustWeather.Lib.Cache.History

/-!
# Lib/Cache/Capacity — how many entries there are, and what a failed `cache_set` loses

`cache_set` makes room before it looks for memory: it takes out the entry of its key, and then the
oldest entry if the cache is full.  One eviction is room enough unless the cache is for no entries
at all (`within_capacity_iff`); and what was taken out is gone when there is no memory for the new
entry (`set_keeps_iff`).
-/

open CLib Fallible LinkedList

namespace Cache

variable {s s' : ListMemory CacheEntry} {entries entries' : List CacheEntry} {key : List Byte}
  {now : ℤ} {cache : Cache} {c : CacheCall} {calls : List (ℤ × CacheCall)}

theorem Has.unique (h : Has entries s) (h' : Has entries' s) : entries = entries' := by
  obtain ⟨l, hl, rfl⟩ := h
  obtain ⟨l', hl', rfl⟩ := h'
  rw [hl.unique hl']

theorem Has.size (h : Has entries s) : s.list.size = entries.length := by
  obtain ⟨l, hl, rfl⟩ := h
  rw [hl.size, List.length_map]

/-! ## How many entries -/

/-- A `cache_set` that has the memory it needs. -/
def Stores : CacheCall → Prop
  | .set alloc _ _ _ => alloc.ok = true
  | _ => False

theorem length_withRoom_lt (hmax : 0 < cache.maxSize) (h : entries.length ≤ cache.maxSize) :
    (withRoom cache entries).length < cache.maxSize := by
  rw [withRoom]
  split
  · rw [List.length_tail]
    omega
  · omega

/-- **One call of a cache that is for at least one entry.** -/
theorem length_plain_le (hmax : 0 < cache.maxSize) (h : entries.length ≤ cache.maxSize)
    (now : ℤ) (c : CacheCall) : (plain cache now c entries).1.length ≤ cache.maxSize := by
  rcases plain_sublist cache now c entries with hsub | ⟨alloc, key, data, ttl, -, heq⟩
  · exact hsub.length_le.trans h
  · have hroom := length_withRoom_lt hmax ((without_sublist key entries).length_le.trans h)
    rw [heq, List.length_append]
    exact hroom

theorem length_entriesAfter_le (hmax : 0 < cache.maxSize) (calls : List (ℤ × CacheCall)) :
    (entriesAfter cache calls).length ≤ cache.maxSize := by
  induction calls using List.reverseRecOn with
  | nil => exact Nat.zero_le _
  | append_singleton calls c ih =>
    rw [entriesAfter_concat]
    exact length_plain_le hmax ih c.1 c.2

/-- A call that stores nothing adds no entry. -/
theorem plain_sublist_of_not_stores (hc : ¬ Stores c) (cache : Cache) (now : ℤ)
    (entries : List CacheEntry) : (plain cache now c entries).1.Sublist entries := by
  cases c with
  | set alloc key data ttl =>
    simp only [plain, Bool.eq_false_iff.mpr hc]
    exact (withRoom_sublist cache _).trans (without_sublist key entries)
  | get alloc key =>
    rcases plain_sublist cache now (.get alloc key) entries with hsub | ⟨_, _, _, _, hset, -⟩
    · exact hsub
    · cases hset
  | remove key => exact without_sublist key entries
  | clear => exact List.nil_sublist entries

theorem entriesAfter_of_not_stores (h : ∀ c ∈ calls, ¬ Stores c.2) :
    entriesAfter cache calls = [] := by
  induction calls using List.reverseRecOn with
  | nil => rfl
  | append_singleton calls c ih =>
    have hsub := plain_sublist_of_not_stores (h c (by simp)) cache c.1 (entriesAfter cache calls)
    rw [ih fun c' hc' => h c' (List.mem_append_left _ hc')] at hsub
    rw [entriesAfter_concat, ih fun c' hc' => h c' (List.mem_append_left _ hc')]
    exact List.sublist_nil.mp hsub

theorem plain_ne_nil_of_stores (hc : Stores c) (cache : Cache) (now : ℤ)
    (entries : List CacheEntry) : (plain cache now c entries).1 ≠ [] := by
  cases c with
  | set alloc key data ttl =>
    have hok : alloc.ok = true := hc
    simp [plain, hok]
  | get alloc key => cases hc
  | remove key => cases hc
  | clear => cases hc

/-- **After each of the calls** the cache holds at most as many entries as it is for. -/
def WithinCapacity (cache : Cache) (calls : List (ℤ × CacheCall)) : Prop :=
  ∀ pre, pre <+: calls → ∃ s replies entries,
    Trace.run (step cache) pre create = .ok (s, replies) ∧ Has entries s ∧
      s.list.size = entries.length ∧ entries.length ≤ cache.maxSize

theorem within_iff_length : WithinCapacity cache calls ↔
    ∀ pre, pre <+: calls → (entriesAfter cache pre).length ≤ cache.maxSize := by
  refine forall₂_congr fun pre _ => ?_
  obtain ⟨s, replies, hrun, hs⟩ := exists_run cache pre
  constructor
  · rintro ⟨s', replies', entries, hrun', hs', -, hle⟩
    obtain ⟨rfl, -⟩ := Prod.ext_iff.mp (Except.ok.inj (hrun.symm.trans hrun'))
    rwa [hs.unique hs']
  · intro hle
    exact ⟨s, replies, _, hrun, hs, hs.size, hle⟩

/-- **When the cache keeps to its size**: it is for at least one entry, or nothing is stored. -/
theorem within_capacity_iff (cache : Cache) (calls : List (ℤ × CacheCall)) :
    WithinCapacity cache calls ↔ 0 < cache.maxSize ∨ ∀ c ∈ calls, ¬ Stores c.2 := by
  rw [within_iff_length]
  constructor
  · intro h
    by_contra hno
    obtain ⟨hmax, hstores⟩ := not_or.mp hno
    push Not at hstores
    obtain ⟨c, hc, hset⟩ := hstores
    obtain ⟨pre, post, rfl⟩ := List.append_of_mem hc
    have hle := h (pre ++ [c]) ⟨post, by simp⟩
    rw [entriesAfter_concat] at hle
    refine plain_ne_nil_of_stores hset cache c.1 (entriesAfter cache pre) ?_
    exact List.length_eq_zero_iff.mp (by omega)
  · rintro (hmax | hnone) pre hpre
    · exact length_entriesAfter_le hmax pre
    · rw [entriesAfter_of_not_stores fun c hc => hnone c (hpre.subset hc)]
      exact Nat.zero_le _

/-- A cache for no entries has one after a call that stores. -/
theorem not_within_capacity_of_zero :
    ¬ WithinCapacity ⟨0, 60⟩ [(0, .set ⟨true, true, true, true⟩ [97] [1] 0)] := by
  rw [within_iff_length]
  intro h
  exact absurd (h _ (List.prefix_refl _)) (by decide)

/-! ## A set that fails -/

/-- **The call returns, and if it returns `-1` the entries are what they were.** -/
def KeepsOnFailure (cache : Cache) (now : ℤ) (alloc : CacheAlloc) (key data : List Byte) (ttl : ℤ)
    (s : ListMemory CacheEntry) : Prop :=
  ∃ code s', set cache now alloc key data ttl s = .ok (code, s') ∧
    (code = -1 → ∀ entries, Has entries s → Has entries s')

/-- Nothing has to go for a new entry of that key. -/
def Roomy (cache : Cache) (key : List Byte) (entries : List CacheEntry) : Prop :=
  (∀ e ∈ entries, e.key ≠ key) ∧ (entries = [] ∨ entries.length < cache.maxSize)

instance (cache : Cache) (key : List Byte) (entries : List CacheEntry) :
    Decidable (Roomy cache key entries) := inferInstanceAs (Decidable (_ ∧ _))

theorem withRoom_eq_self_iff :
    withRoom cache entries = entries ↔ entries = [] ∨ entries.length < cache.maxSize := by
  rw [withRoom]
  split
  case isTrue hfull =>
    cases entries with
    | nil => simp
    | cons e entries => simpa using hfull
  case isFalse hroom => simp [Nat.not_le.mp hroom]

/-- **What makes room keeps everything** exactly when nothing has to go. -/
theorem withRoom_without_eq_self_iff :
    withRoom cache (without key entries) = entries ↔ Roomy cache key entries := by
  constructor
  · intro h
    have hlen := (withRoom_sublist cache (without key entries)).length_le
    rw [h] at hlen
    have hwithout := (without_sublist key entries).eq_of_length_le hlen
    rw [hwithout] at h
    refine ⟨fun e he hk => ?_, withRoom_eq_self_iff.mp h⟩
    exact List.eraseP_eq_self_iff.mp hwithout e he (decide_eq_true hk)
  · rintro ⟨hne, hroom⟩
    rw [without_of_ne hne]
    exact withRoom_eq_self_iff.mpr hroom

theorem keepsOnFailure_iff (h : Has entries s) (cache : Cache) (now : ℤ) (alloc : CacheAlloc)
    (key data : List Byte) (ttl : ℤ) : KeepsOnFailure cache now alloc key data ttl s ↔
      alloc.ok = true ∨ Roomy cache key entries := by
  obtain ⟨code, s', hset, hs', hcode⟩ := returns_set h cache now alloc key data ttl
  have hkeeps : KeepsOnFailure cache now alloc key data ttl s ↔ (code = -1 → Has entries s') := by
    constructor
    · rintro ⟨code', t, hset', hkept⟩ hfail
      obtain ⟨rfl, rfl⟩ := Prod.ext_iff.mp (Except.ok.inj (hset.symm.trans hset'))
      exact hkept hfail entries h
    · intro hkept
      refine ⟨code, s', hset, fun hfail entries' h' => ?_⟩
      rw [← h.unique h']
      exact hkept hfail
  rw [hkeeps]
  cases hok : alloc.ok with
  | true =>
    simp only [plain, hok, if_true] at hcode
    have hne : code ≠ -1 := by
      rw [← CacheReply.code.inj hcode]
      decide
    exact iff_of_true (fun hfail => absurd hfail hne) (Or.inl rfl)
  | false =>
    simp only [plain, hok, Bool.false_eq_true, if_false] at hcode hs'
    rw [← CacheReply.code.inj hcode, ← withRoom_without_eq_self_iff]
    refine ⟨fun hkept => Or.inr (hs'.unique (hkept rfl)), fun hroomy _ => ?_⟩
    rw [← hroomy.resolve_left Bool.false_ne_true]
    exact hs'

/-- **When a failed `cache_set` loses nothing**: there was memory after all, or room for the entry
without the old one of its key or the oldest. -/
theorem set_keeps_iff (cache : Cache) (calls : List (ℤ × CacheCall)) (now : ℤ) (alloc : CacheAlloc)
    (key data : List Byte) (ttl : ℤ) :
    ∃ s replies entries, Trace.run (step cache) calls create = .ok (s, replies) ∧ Has entries s ∧
      (KeepsOnFailure cache now alloc key data ttl s ↔
        alloc.ok = true ∨ Roomy cache key entries) := by
  obtain ⟨s, replies, hrun, hs⟩ := exists_run cache calls
  exact ⟨s, replies, _, hrun, hs, keepsOnFailure_iff hs cache now alloc key data ttl⟩

/-- A key that is set again, and a new key in a full cache, without memory for the entry. -/
theorem not_keepsOnFailure :
    (∃ s replies, Trace.run (step ⟨2, 60⟩) [(0, .set ⟨true, true, true, true⟩ [97] [1] 0)] create
        = .ok (s, replies) ∧
      ¬ KeepsOnFailure ⟨2, 60⟩ 0 ⟨false, true, true, true⟩ [97] [2] 0 s) ∧
    ∃ s replies, Trace.run (step ⟨1, 60⟩) [(0, .set ⟨true, true, true, true⟩ [97] [1] 0)] create
        = .ok (s, replies) ∧
      ¬ KeepsOnFailure ⟨1, 60⟩ 0 ⟨false, true, true, true⟩ [98] [2] 0 s := by
  refine ⟨?_, ?_⟩
  · obtain ⟨s, replies, hrun, hs⟩ := exists_run ⟨2, 60⟩
      [(0, .set ⟨true, true, true, true⟩ [97] [1] 0)]
    refine ⟨s, replies, hrun, fun hkeeps => ?_⟩
    exact absurd ((keepsOnFailure_iff hs _ _ _ _ _ _).mp hkeeps) (by decide)
  · obtain ⟨s, replies, hrun, hs⟩ := exists_run ⟨1, 60⟩
      [(0, .set ⟨true, true, true, true⟩ [97] [1] 0)]
    refine ⟨s, replies, hrun, fun hkeeps => ?_⟩
    exact absurd ((keepsOnFailure_iff hs _ _ _ _ _ _).mp hkeeps) (by decide)

end Cache
