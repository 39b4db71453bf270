import JustWeather.Lib.Cache
import JustWeather.Machinery.Keyed

/-!
# Lib/Cache/History — what a cache returns, from what was called

The entries stand in the order in which they were set, so the one that goes when there is no room is
the one set longest ago.  An entry is lost to a call that touches its key, to its expiry, or to as
many other keys as the cache has room for (`Kept`).
-/

open CLib Fallible LinkedList

namespace Cache

variable {s : ListMemory CacheEntry} {entries : List CacheEntry} {e : CacheEntry}
  {key : List Byte} {keys : List (List Byte)} {now : ℤ} {cache : Cache} {c : CacheCall}
  {calls pre post : List (ℤ × CacheCall)}

/-! ## Distinct keys -/

/-- The keys of entries. -/
def keysOf (entries : List CacheEntry) : List (List Byte) := entries.map CacheEntry.key

theorem without_sublist (key : List Byte) (entries : List CacheEntry) :
    (without key entries).Sublist entries := List.eraseP_sublist

theorem withRoom_sublist (cache : Cache) (entries : List CacheEntry) :
    (withRoom cache entries).Sublist entries := by
  rw [withRoom]
  split
  · exact List.tail_sublist entries
  · exact List.Sublist.refl entries

theorem key_ne_of_mem_without (h : (keysOf entries).Nodup) (he : e ∈ without key entries) :
    e.key ≠ key :=
  Keyed.ne_of_mem_eraseP h (fun _ => decide_eq_true_iff) he

theorem find?_of_mem (h : (keysOf entries).Nodup) (he : e ∈ entries) (hk : e.key = key) :
    entries.find? (·.key = key) = some e :=
  Keyed.find?_eq_some h (fun _ => decide_eq_true_iff) he hk

/-- The entries a call leaves are old ones, or the new one of a `cache_set` after them. -/
theorem plain_sublist (cache : Cache) (now : ℤ) (c : CacheCall) (entries : List CacheEntry) :
    (plain cache now c entries).1.Sublist entries ∨ ∃ alloc key data ttl,
      c = .set alloc key data ttl ∧ (plain cache now c entries).1
        = withRoom cache (without key entries) ++ [entryOf cache now key data ttl] := by
  cases c with
  | set alloc key data ttl =>
    cases hok : alloc.ok with
    | false =>
      left
      simp only [plain, hok]
      exact (withRoom_sublist cache _).trans (without_sublist key entries)
    | true => exact Or.inr ⟨alloc, key, data, ttl, rfl, by simp [plain, hok]⟩
  | get alloc key =>
    left
    rw [plain]
    split
    · exact List.Sublist.refl entries
    · split
      · exact without_sublist key entries
      · exact List.Sublist.refl entries
  | remove key => exact Or.inl (without_sublist key entries)
  | clear => exact Or.inl (List.nil_sublist entries)

/-- **A call keeps the keys distinct.** -/
theorem nodup_plain (h : (keysOf entries).Nodup) (cache : Cache) (now : ℤ) (c : CacheCall) :
    (keysOf (plain cache now c entries).1).Nodup := by
  rcases plain_sublist cache now c entries with hsub | ⟨alloc, key, data, ttl, rfl, heq⟩
  · exact h.sublist (hsub.map _)
  · have hsub := withRoom_sublist cache (without key entries)
    rw [heq, keysOf, List.map_append, List.nodup_append']
    refine ⟨h.sublist ((hsub.trans (without_sublist key entries)).map _), List.nodup_singleton _,
      ?_⟩
    intro k hk hnew
    obtain rfl := List.mem_singleton.mp hnew
    obtain ⟨e, he, hek⟩ := List.mem_map.mp hk
    exact key_ne_of_mem_without h (hsub.subset he) hek

theorem nodup_entriesAfter (cache : Cache) (calls : List (ℤ × CacheCall)) :
    (keysOf (entriesAfter cache calls)).Nodup := by
  induction calls using List.reverseRecOn with
  | nil => exact List.nodup_nil
  | append_singleton calls c ih =>
    rw [entriesAfter_concat]
    exact nodup_plain ih cache c.1 c.2

/-! ## What an entry was set by -/

/-- The call sets or removes the key, or all keys. -/
def Disturbs (key : List Byte) : CacheCall → Prop
  | .set _ k _ _ | .remove k => k = key
  | .get _ _ => False
  | .clear => True

/-- None of the calls sets or removes the key. -/
def Undisturbed (key : List Byte) (calls : List (ℤ × CacheCall)) : Prop :=
  ∀ c ∈ calls, ¬ Disturbs key c.2

/-- **The entry is the one of the last `cache_set` of its key**, after which these calls were made,
none of which removed the key. -/
def LastSet (cache : Cache) (calls : List (ℤ × CacheCall)) (e : CacheEntry)
    (post : List (ℤ × CacheCall)) : Prop :=
  ∃ pre now alloc ttl, calls = pre ++ (now, .set alloc e.key e.data ttl) :: post ∧
    e = entryOf cache now e.key e.data ttl ∧ Undisturbed e.key post

/-- The keys that were set. -/
def setKeys (calls : List (ℤ × CacheCall)) : List (List Byte) :=
  calls.filterMap fun
    | (_, .set _ key _ _) => some key
    | _ => none

theorem mem_setKeys {alloc : CacheAlloc} {data : List Byte} {ttl : ℤ}
    (h : (now, CacheCall.set alloc key data ttl) ∈ calls) : key ∈ setKeys calls :=
  List.mem_filterMap.mpr ⟨_, h, rfl⟩

/-- An entry a call leaves is one it did not touch, or the one it set. -/
theorem mem_plain (h : (keysOf entries).Nodup) (he : e ∈ (plain cache now c entries).1) :
    (e ∈ entries ∧ ¬ Disturbs e.key c) ∨
      ∃ alloc ttl, c = .set alloc e.key e.data ttl ∧ e = entryOf cache now e.key e.data ttl := by
  have hset : ∀ {key : List Byte}, e ∈ withRoom cache (without key entries) →
      e ∈ entries ∧ key ≠ e.key := by
    intro key hmem
    have hwithout := (withRoom_sublist cache _).subset hmem
    exact ⟨(without_sublist key entries).subset hwithout, (key_ne_of_mem_without h hwithout).symm⟩
  cases c with
  | set alloc key data ttl =>
    rw [plain] at he
    split at he
    · rcases List.mem_append.mp he with he | he
      · exact Or.inl (hset he)
      · obtain rfl := List.mem_singleton.mp he
        exact Or.inr ⟨alloc, ttl, rfl, rfl⟩
    · exact Or.inl (hset he)
  | get alloc key =>
    rw [plain] at he
    refine Or.inl ⟨?_, not_false⟩
    split at he
    · exact he
    · split at he
      · exact (without_sublist key entries).subset he
      · exact he
  | remove key =>
    exact Or.inl ⟨(without_sublist key entries).subset he, (key_ne_of_mem_without h he).symm⟩
  | clear => cases he

/-- **Each entry is the one of the last `cache_set` of its key.** -/
theorem exists_lastSet (he : e ∈ entriesAfter cache calls) :
    ∃ post, LastSet cache calls e post := by
  induction calls using List.reverseRecOn with
  | nil => cases he
  | append_singleton calls c ih =>
    rw [entriesAfter_concat] at he
    rcases mem_plain (nodup_entriesAfter cache calls) he with ⟨he, hc⟩ | ⟨alloc, ttl, hc, heq⟩
    · obtain ⟨post, pre, t, alloc, ttl, rfl, heq, hpost⟩ := ih he
      refine ⟨post ++ [c], pre, t, alloc, ttl, by simp, heq, fun d hd => ?_⟩
      rcases List.mem_append.mp hd with hd | hd
      · exact hpost d hd
      · exact List.mem_singleton.mp hd ▸ hc
    · exact ⟨[], calls, c.1, alloc, ttl, by rw [← hc], heq, nofun⟩

/-! ## What keeps an entry -/

/-- **The entry is there, and the entries behind it have keys of these.** -/
def Kept (keys : List (List Byte)) (e : CacheEntry) (entries : List CacheEntry) : Prop :=
  ∃ before after, entries = before ++ e :: after ∧ ∀ e' ∈ after, e'.key ∈ keys

theorem Kept.mem (h : Kept keys e entries) : e ∈ entries := by
  obtain ⟨before, after, rfl, -⟩ := h
  simp

theorem Kept.without (h : Kept keys e entries) (hne : e.key ≠ key) :
    Kept keys e (without key entries) := by
  obtain ⟨before, after, rfl, hafter⟩ := h
  by_cases hbefore : ∃ e' ∈ before, e'.key = key
  · obtain ⟨e', he', hk⟩ := hbefore
    refine ⟨Cache.without key before, after, ?_, hafter⟩
    rw [Cache.without, List.eraseP_append_left (by simpa using hk) _ he']
    rfl
  · refine ⟨before, Cache.without key after, ?_, fun e' he' =>
      hafter e' ((without_sublist key after).subset he')⟩
    rw [Cache.without, List.eraseP_append_right _ (by simpa using hbefore),
      List.eraseP_cons_of_neg (by simpa using hne)]
    rfl

/-- An entry does not go for want of room while there is room for it and the keys behind it. -/
theorem Kept.withRoom (h : Kept keys e entries) (hnodup : (keysOf entries).Nodup)
    (hkey : ∀ e' ∈ entries, e'.key ≠ key) (hmem : key ∈ keys)
    (hroom : keys.dedup.length < cache.maxSize) : Kept keys e (withRoom cache entries) := by
  rw [Cache.withRoom]
  split
  case isFalse => exact h
  case isTrue hfull =>
    obtain ⟨before, after, rfl, hafter⟩ := h
    cases before with
    | cons e' before => exact ⟨before, after, rfl, hafter⟩
    | nil =>
      -- The entry is the oldest, and the keys behind it are too many with the new one.
      exfalso
      have hafter' : (key :: keysOf after).Nodup := by
        refine List.nodup_cons.mpr ⟨fun hk => ?_, (List.nodup_cons.mp hnodup).2⟩
        obtain ⟨e', he', hk⟩ := List.mem_map.mp hk
        exact hkey e' (List.mem_cons_of_mem e he') hk
      have hlen : (key :: keysOf after).length ≤ keys.dedup.length := by
        refine Keyed.length_le_dedup (f := id) (by rwa [List.map_id]) fun k hk => ?_
        rcases List.mem_cons.mp hk with rfl | hk
        · exact hmem
        · obtain ⟨e', he', rfl⟩ := List.mem_map.mp hk
          exact hafter e' he'
      rw [List.length_cons, keysOf, List.length_map] at hlen
      rw [List.nil_append, List.length_cons] at hfull
      omega

/-- **An entry is kept by a call that does not touch its key**, before it expires, while there is
room for the keys that are set. -/
theorem Kept.plain (h : Kept keys e entries) (hnodup : (keysOf entries).Nodup)
    (hc : ¬ Disturbs e.key c) (hnow : now ≤ e.expiry) (hkeys : setKeys [(now, c)] ⊆ keys)
    (hroom : keys.dedup.length < cache.maxSize) : Kept keys e (plain cache now c entries).1 := by
  cases c with
  | set alloc key data ttl =>
    have hkey : key ∈ keys := hkeys (mem_setKeys (List.mem_singleton_self _))
    have hsub := (without_sublist key entries).map CacheEntry.key
    have hkept := (h.without fun heq => hc heq.symm).withRoom (hnodup.sublist hsub)
      (fun _ he' => key_ne_of_mem_without hnodup he') hkey hroom
    rw [Cache.plain]
    split
    · obtain ⟨before, after, heq, hafter⟩ := hkept
      refine ⟨before, after ++ [entryOf cache now key data ttl], ?_, fun e' he' => ?_⟩
      · simp [heq]
      · rcases List.mem_append.mp he' with he' | he'
        · exact hafter e' he'
        · exact List.mem_singleton.mp he' ▸ hkey
    · exact hkept
  | get alloc key =>
    by_cases hk : e.key = key
    · rw [plain_get_of_not_expired cache alloc (find?_of_mem hnodup h.mem hk)
        (by simpa [isExpired] using hnow)]
      exact h
    · rw [Cache.plain]
      split
      · exact h
      · split
        · exact h.without hk
        · exact h
  | remove key => exact h.without fun heq => hc heq.symm
  | clear => exact absurd trivial hc

/-- **An entry is kept from its `cache_set` on.** -/
theorem kept_entriesAfter {t : ℤ} {alloc : CacheAlloc} {ttl : ℤ} (hok : alloc.ok = true)
    (he : e = entryOf cache t e.key e.data ttl) (hpost : Undisturbed e.key post)
    (htimes : ∀ c ∈ post, c.1 ≤ e.expiry) (hkeys : setKeys post ⊆ keys)
    (hroom : keys.dedup.length < cache.maxSize) (pre : List (ℤ × CacheCall)) :
    Kept keys e (entriesAfter cache (pre ++ (t, .set alloc e.key e.data ttl) :: post)) := by
  induction post using List.reverseRecOn with
  | nil =>
    refine ⟨Cache.withRoom cache (Cache.without e.key (entriesAfter cache pre)), [], ?_, nofun⟩
    rw [entriesAfter_concat, Cache.plain]
    dsimp only
    rw [if_pos hok, ← he]
  | append_singleton post c ih =>
    rw [setKeys, List.filterMap_append] at hkeys
    have hkept := ih (fun d hd => hpost d (List.mem_append_left _ hd))
      (fun d hd => htimes d (List.mem_append_left _ hd))
      fun k hk => hkeys (List.mem_append_left _ hk)
    rw [← List.cons_append, ← List.append_assoc, entriesAfter_concat]
    exact hkept.plain (nodup_entriesAfter cache _) (hpost c (by simp)) (htimes c (by simp))
      (fun k hk => hkeys (List.mem_append_right _ hk)) hroom

/-- All allocations of a `cache_set` succeed. -/
def Succeeds : CacheCall → Prop
  | .set alloc _ _ _ => alloc.ok = true
  | _ => True

/-- **The cache is sound and retains.**  After successful calls, with a clock that does not go back,
no two entries have one key; what `cache_get` returns is what the last `cache_set` of the key put
there, and the key was not removed since and is not expired; and it returns that while fewer other
keys were set since than the cache has room for. -/
theorem get_sound_and_retained (hok : ∀ c ∈ calls, Succeeds c.2)
    (htimes : (calls.map Prod.fst ++ [now]).Pairwise (· ≤ ·)) (key : List Byte) :
    ∃ s replies, Trace.run (step cache) calls create = .ok (s, replies) ∧
      (∃ entries, Has entries s ∧ (keysOf entries).Nodup) ∧
      ∃ data s', Cache.get now true key s = .ok (data, s') ∧
        (∀ bytes, data = some bytes → ∃ e post, LastSet cache calls e post ∧ e.key = key ∧
          e.data = bytes ∧ now ≤ e.expiry) ∧
        ∀ e post, LastSet cache calls e post → e.key = key → now ≤ e.expiry →
          (setKeys post).dedup.length < cache.maxSize → data = some e.data := by
  obtain ⟨s, replies, hrun, hs⟩ := exists_run cache calls
  have hnodup := nodup_entriesAfter cache calls
  obtain ⟨data, s', hget, -, hreply⟩ := returns_get hs cache now true key
  refine ⟨s, replies, hrun, ⟨_, hs, hnodup⟩, data, s', hget, ?_, ?_⟩
  · rintro bytes rfl
    rcases hfind : (entriesAfter cache calls).find? (·.key = key) with _ | e
    · simp only [plain, hfind] at hreply
      cases hreply
    · have hk : e.key = key := by simpa using List.find?_some hfind
      by_cases hexp : isExpired now e = true
      · rw [plain_get_of_expired cache true hfind hexp] at hreply
        cases hreply
      · rw [plain_get_of_not_expired cache true hfind hexp] at hreply
        obtain ⟨post, hlast⟩ := exists_lastSet (List.mem_of_find?_eq_some hfind)
        exact ⟨e, post, hlast, hk, by simpa using hreply, by simpa [isExpired] using hexp⟩
  · rintro e post ⟨pre, t, alloc, ttl, rfl, he, hpost⟩ rfl hexp hroom
    have hlate : ∀ c ∈ post, c.1 ≤ e.expiry := by
      intro c hc
      refine Int.le_trans ((List.pairwise_append.mp htimes).2.2 c.1 ?_ now (by simp)) hexp
      exact List.mem_map_of_mem (by simp [hc])
    have hkept := kept_entriesAfter (hok (t, .set alloc e.key e.data ttl) (by simp)) he hpost hlate
      (List.Subset.refl _) hroom pre
    rw [plain_get_of_not_expired cache true (find?_of_mem hnodup hkept.mem rfl)
      (by simpa [isExpired] using hexp)] at hreply
    exact (CacheReply.data.inj hreply).symm

/-- Of two keys in a cache for two the older is there until it expires. -/
theorem get_retained_older :
    ∃ s replies data s', Trace.run (step ⟨2, 60⟩)
        [(0, .set ⟨true, true, true, true⟩ [97] [1] 5),
          (1, .set ⟨true, true, true, true⟩ [98] [2] 0)] create = .ok (s, replies) ∧
      Cache.get 5 true [97] s = .ok (data, s') ∧ data = some [1] := by
  obtain ⟨s, replies, hrun, -, data, s', hget, -, hretained⟩ := get_sound_and_retained
    (show ∀ c ∈ [(0, CacheCall.set ⟨true, true, true, true⟩ [97] [1] 5),
      (1, .set ⟨true, true, true, true⟩ [98] [2] 0)], Succeeds c.2 by simp [Succeeds]; decide)
    (show List.Pairwise (· ≤ ·) (_ ++ [(5 : ℤ)]) by decide) [97]
  refine ⟨s, replies, data, s', hrun, hget, hretained ⟨[97], [1], 0, 5⟩ _
    ⟨[], 0, ⟨true, true, true, true⟩, 5, rfl, rfl, ?_⟩ rfl (by decide) (by decide)⟩
  simp [Undisturbed, Disturbs]

end Cache
