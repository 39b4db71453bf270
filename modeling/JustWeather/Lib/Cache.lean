import JustWeather.Lib.LinkedList.Refinement

/-!
# Lib/Cache — the key/value cache

`cache.c` over the linked list of its entries.  A call reads the clock at most once, at `now`.  The
entries are those of the same call on a plain list (`returns_perform`), so what the cache does over
time is asked of plain lists.
-/

open CLib Fallible LinkedList

/-- `CacheEntry`; `data_size` is the length of `data`, and every expiry fits `time_t`. -/
structure CacheEntry where
  key : List Byte
  data : List Byte
  timestamp : ℤ
  expiry : ℤ
  deriving DecidableEq

/-- `Cache`, but for the entries. -/
structure Cache where
  maxSize : ℕ
  defaultTtl : ℤ

/-- What the allocations of `cache_set` come to. -/
structure CacheAlloc where
  entry : Bool
  key : Bool
  data : Bool
  node : Bool
  deriving DecidableEq

/-- There is memory for all of them. -/
def CacheAlloc.ok (alloc : CacheAlloc) : Bool :=
  alloc.entry && alloc.key && alloc.data && alloc.node

/-- A call on a cache.  `alloc` of a `get` is whether there is memory for the copy. -/
inductive CacheCall
  | set (alloc : CacheAlloc) (key data : List Byte) (ttl : ℤ)
  | get (alloc : Bool) (key : List Byte)
  | remove (key : List Byte)
  | clear
  deriving DecidableEq

/-- What a call returns. -/
inductive CacheReply
  | code (code : ℤ)
  | data (data : Option (List Byte))
  | done
  deriving DecidableEq

namespace Cache

/-! ## The calls -/

/-- `is_expired`. -/
def isExpired (now : ℤ) (entry : CacheEntry) : Bool := entry.expiry < now

/-- `LinkedList_foreach` of `cache_remove`.  A walk of more turns than there are nodes would not
end, here and below. -/
def removeFrom (key : List Byte) : ℕ → ℕ → Option ℕ → ListM CacheEntry Unit
  | _, _, none => return ()
  | 0, _, some _ => throw .endless
  | fuel + 1, index, some b => do
    let node ← deref (some b)
    if node.item.key = key then
      let _ ← pop true index
      return ()
    else removeFrom key fuel (index + 1) node.front

/-- `cache_remove`. -/
def remove (key : List Byte) : ListM CacheEntry Unit := do
  let s ← get
  removeFrom key s.nodes.next 0 s.list.head

/-- `LinkedList_foreach` of `cache_get`. -/
def getFrom (now : ℤ) (alloc : Bool) (key : List Byte) :
    ℕ → Option ℕ → ListM CacheEntry (Option (List Byte))
  | _, none => return none
  | 0, some _ => throw .endless
  | fuel + 1, some b => do
    let node ← deref (some b)
    if node.item.key = key then
      if isExpired now node.item then
        remove key
        return none
      else return if alloc then some node.item.data else none
    else getFrom now alloc key fuel node.front

/-- `cache_get`. -/
def get (now : ℤ) (alloc : Bool) (key : List Byte) : ListM CacheEntry (Option (List Byte)) := do
  let s ← MonadState.get
  getFrom now alloc key s.nodes.next s.list.head

/-- The entry `cache_set` makes. -/
def entryOf (cache : Cache) (now : ℤ) (key data : List Byte) (ttl : ℤ) : CacheEntry :=
  ⟨key, data, now, now + if 0 < ttl then ttl else cache.defaultTtl⟩

/-- `if (cache->entries->size >= cache->max_size) { … }` of `cache_set`. -/
def evict (cache : Cache) : ListM CacheEntry Unit := do
  let list := (← MonadState.get).list
  if cache.maxSize ≤ list.size then
    match list.head with
    | none => return ()
    | some b => remove (← deref (some b)).item.key
  else return ()

/-- `cache_set`. -/
def set (cache : Cache) (now : ℤ) (alloc : CacheAlloc) (key data : List Byte) (ttl : ℤ) :
    ListM CacheEntry ℤ := do
  remove key
  evict cache
  if alloc.entry && alloc.key && alloc.data then
    if (← append alloc.node (entryOf cache now key data ttl)) ≠ 0 then return -1 else return 0
  else return -1

/-- A call, at its time. -/
def perform (cache : Cache) (now : ℤ) : CacheCall → ListM CacheEntry CacheReply
  | .set alloc key data ttl => return .code (← set cache now alloc key data ttl)
  | .get alloc key => return .data (← get now alloc key)
  | .remove key => do
    remove key
    return .done
  | .clear => do
    let _ ← LinkedList.clear true
    return .done

/-- A call as a step of a run. -/
def step (cache : Cache) (c : ℤ × CacheCall) (s : ListMemory CacheEntry) :
    Except Fault (ListMemory CacheEntry × List CacheReply) :=
  (perform cache c.1 c.2 s).map fun r => (r.2, [r.1])

/-! ## The calls on a plain list -/

/-- The entries without the one of a key. -/
def without (key : List Byte) (entries : List CacheEntry) : List CacheEntry :=
  entries.eraseP (·.key = key)

/-- Room for one more entry. -/
def withRoom (cache : Cache) (entries : List CacheEntry) : List CacheEntry :=
  if cache.maxSize ≤ entries.length then entries.tail else entries

/-- **The same call on a plain list of entries.** -/
def plain (cache : Cache) (now : ℤ) :
    CacheCall → List CacheEntry → List CacheEntry × CacheReply
  | .set alloc key data ttl, entries =>
    let entries := withRoom cache (without key entries)
    if alloc.ok then (entries ++ [entryOf cache now key data ttl], .code 0)
    else (entries, .code (-1))
  | .get alloc key, entries =>
    match entries.find? (·.key = key) with
    | none => (entries, .data none)
    | some entry =>
      if isExpired now entry then (without key entries, .data none)
      else (entries, .data (if alloc then some entry.data else none))
  | .remove key, entries => (without key entries, .done)
  | .clear, _ => ([], .done)

/-! ## The cache is its plain list -/

variable {s s' : ListMemory CacheEntry} {entries : List CacheEntry}
  {l l₁ l₂ : List (ℕ × CacheEntry)} {key : List Byte} {now : ℤ}

/-- The cache holds these entries. -/
def Has (entries : List CacheEntry) (s : ListMemory CacheEntry) : Prop :=
  ∃ l, Holds l s ∧ l.map Prod.snd = entries

theorem has_create : Has [] (create : ListMemory CacheEntry) := ⟨[], holds_create, rfl⟩

theorem without_append_cons {e : CacheEntry} {entries₁ entries₂ : List CacheEntry}
    (hne : ∀ e ∈ entries₁, e.key ≠ key) (he : e.key = key) :
    without key (entries₁ ++ e :: entries₂) = entries₁ ++ entries₂ := by
  rw [without, List.eraseP_append_right _ (by simpa using hne),
    List.eraseP_cons_of_pos (by simpa using he)]

theorem without_of_ne (hne : ∀ e ∈ entries, e.key ≠ key) : without key entries = entries :=
  List.eraseP_of_forall_not (by simpa using hne)

theorem key_ne_concat {p : ℕ × CacheEntry} (hne : ∀ e ∈ l.map Prod.snd, e.key ≠ key)
    (hp : p.2.key ≠ key) : ∀ e ∈ (l ++ [p]).map Prod.snd, e.key ≠ key := by
  intro e he
  rw [List.map_append] at he
  rcases List.mem_append.mp he with he | he
  · exact hne e he
  · exact List.mem_singleton.mp he ▸ hp

theorem returns_removeFrom {fuel : ℕ} (h : Holds (l₁ ++ l₂) s)
    (hne : ∀ e ∈ l₁.map Prod.snd, e.key ≠ key) (hfuel : l₂.length ≤ fuel) :
    Returns (removeFrom key fuel l₁.length (Chain.first l₂ none)) s fun _ s' =>
      Has (without key ((l₁ ++ l₂).map Prod.snd)) s' := by
  induction l₂ generalizing l₁ fuel with
  | nil =>
    rw [Chain.first_nil, removeFrom, List.append_nil, without_of_ne hne]
    exact Returns.pure ⟨l₁, List.append_nil l₁ ▸ h, rfl⟩
  | cons p l₂ ih =>
    cases fuel with
    | zero => cases hfuel
    | succ fuel =>
      refine (returns_deref h.chain.links).bind ?_
      rintro n _ ⟨rfl, rfl⟩
      refine Returns.ite (fun heq : p.2.key = key => ?_) fun heq : p.2.key ≠ key => ?_
      · rw [List.map_append, List.map_cons, without_append_cons hne heq]
        refine (returns_pop h true).bind ?_
        rintro _ _ ⟨rfl, h'⟩
        exact Returns.pure ⟨_, h', List.map_append⟩
      · have hrest := ih (show Holds ((l₁ ++ [p]) ++ l₂) _ by rwa [List.append_assoc])
          (key_ne_concat hne heq) (Nat.le_of_succ_le_succ hfuel)
        rwa [List.length_append, List.length_singleton, List.append_assoc] at hrest

/-- **`cache_remove` takes out the first entry of the key.** -/
theorem returns_remove (h : Has entries s) (key : List Byte) :
    Returns (remove key) s fun _ s' => Has (without key entries) s' := by
  obtain ⟨l, hl, rfl⟩ := h
  refine returns_get.bind ?_
  rintro _ _ ⟨rfl, rfl⟩
  rw [hl.head]
  exact returns_removeFrom (show Holds ([] ++ l) _ from hl) nofun hl.length_le

theorem plain_get_of_expired {e : CacheEntry} (cache : Cache) (alloc : Bool)
    (hfind : entries.find? (·.key = key) = some e) (hexp : isExpired now e = true) :
    plain cache now (.get alloc key) entries = (without key entries, .data none) := by
  simp only [plain, hfind, if_pos hexp]

theorem plain_get_of_not_expired {e : CacheEntry} (cache : Cache) (alloc : Bool)
    (hfind : entries.find? (·.key = key) = some e) (hexp : ¬ isExpired now e = true) :
    plain cache now (.get alloc key) entries
      = (entries, .data (if alloc then some e.data else none)) := by
  simp only [plain, hfind, if_neg hexp]

theorem plain_get_of_absent (cache : Cache) (alloc : Bool) (hne : ∀ e ∈ entries, e.key ≠ key) :
    plain cache now (.get alloc key) entries = (entries, .data none) := by
  have hfind : entries.find? (·.key = key) = none :=
    List.find?_eq_none.mpr fun e he => by simpa using hne e he
  simp only [plain, hfind]

/-- The search of `cache_get`, from a node on. -/
theorem returns_getFrom {fuel : ℕ} {alloc : Bool} (h : Holds (l₁ ++ l₂) s)
    (hfuel : l₂.length ≤ fuel) (hne : ∀ e ∈ l₁.map Prod.snd, e.key ≠ key) (cache : Cache) :
    Returns (getFrom now alloc key fuel (Chain.first l₂ none)) s fun r s' =>
      Has (plain cache now (.get alloc key) ((l₁ ++ l₂).map Prod.snd)).1 s' ∧
        (plain cache now (.get alloc key) ((l₁ ++ l₂).map Prod.snd)).2 = .data r := by
  induction l₂ generalizing l₁ fuel with
  | nil =>
    rw [Chain.first_nil, getFrom, List.append_nil, plain_get_of_absent cache alloc hne]
    exact Returns.pure ⟨⟨l₁, List.append_nil l₁ ▸ h, rfl⟩, rfl⟩
  | cons p l₂ ih =>
    cases fuel with
    | zero => cases hfuel
    | succ fuel =>
      refine (returns_deref h.chain.links).bind ?_
      rintro n _ ⟨rfl, rfl⟩
      refine Returns.ite (fun heq : p.2.key = key => ?_) fun heq : p.2.key ≠ key => ?_
      · have hfind : ((l₁ ++ p :: l₂).map Prod.snd).find? (·.key = key) = some p.2 := by
          rw [List.map_append, List.map_cons, List.find?_append,
            List.find?_eq_none.mpr fun e he => by simpa using hne e he,
            List.find?_cons_of_pos (by simpa using heq)]
          rfl
        refine Returns.ite (fun hexp => ?_) fun hexp => ?_
        · rw [plain_get_of_expired cache alloc hfind hexp]
          exact (returns_remove ⟨_, h, rfl⟩ key).bind fun h' => Returns.pure ⟨h', rfl⟩
        · rw [plain_get_of_not_expired cache alloc hfind hexp]
          exact Returns.pure ⟨⟨_, h, rfl⟩, rfl⟩
      · have hrest := ih (show Holds ((l₁ ++ [p]) ++ l₂) _ by rwa [List.append_assoc])
          (Nat.le_of_succ_le_succ hfuel) (key_ne_concat hne heq)
        rwa [List.append_assoc] at hrest

theorem returns_get (h : Has entries s) (cache : Cache) (now : ℤ) (alloc : Bool)
    (key : List Byte) :
    Returns (get now alloc key) s fun r s' =>
      Has (plain cache now (.get alloc key) entries).1 s' ∧
        (plain cache now (.get alloc key) entries).2 = .data r := by
  obtain ⟨l, hl, rfl⟩ := h
  refine LinkedList.returns_get.bind ?_
  rintro _ _ ⟨rfl, rfl⟩
  rw [hl.head]
  exact returns_getFrom (show Holds ([] ++ l) _ from hl) hl.length_le nofun cache

/-- The oldest entry goes when there is no room. -/
theorem returns_evict (h : Has entries s) (cache : Cache) :
    Returns (evict cache) s fun _ s' => Has (withRoom cache entries) s' := by
  obtain ⟨l, hl, rfl⟩ := h
  refine LinkedList.returns_get.bind ?_
  rintro _ _ ⟨rfl, rfl⟩
  dsimp only
  rw [withRoom, List.length_map, hl.size, hl.head]
  refine Returns.ite (fun hfull => ?_) fun hroom => ?_
  · rw [if_pos hfull]
    cases l with
    | nil => exact Returns.pure ⟨[], hl, rfl⟩
    | cons p l =>
      refine (returns_deref hl.chain.1).bind ?_
      rintro _ _ ⟨rfl, rfl⟩
      refine (returns_remove ⟨_, hl, rfl⟩ p.2.key).mono fun h' => ?_
      rwa [List.map_cons, without, List.eraseP_cons_of_pos (by simp)] at h'
  · rw [if_neg hroom]
    exact Returns.pure ⟨l, hl, rfl⟩

theorem returns_append (h : Has entries s) (alloc : Bool) (e : CacheEntry) :
    Returns (append alloc e) s fun code s' =>
      if alloc then code = 0 ∧ Has (entries ++ [e]) s' else code = 1 ∧ Has entries s' := by
  obtain ⟨l, hl, rfl⟩ := h
  refine (LinkedList.returns_append hl alloc e).mono fun hs => ?_
  cases alloc with
  | false => exact ⟨hs.1, l, hs.2 ▸ hl, rfl⟩
  | true => exact ⟨hs.1, _, hs.2, by rw [List.map_append]; rfl⟩

theorem returns_set (h : Has entries s) (cache : Cache) (now : ℤ) (alloc : CacheAlloc)
    (key data : List Byte) (ttl : ℤ) :
    Returns (set cache now alloc key data ttl) s fun r s' =>
      Has (plain cache now (.set alloc key data ttl) entries).1 s' ∧
        (plain cache now (.set alloc key data ttl) entries).2 = .code r := by
  refine (returns_remove h key).bind fun {_ t} ht => ?_
  refine (returns_evict ht cache).bind fun {_ u} hu => ?_
  rw [plain, CacheAlloc.ok]
  refine Returns.ite (fun hmem => ?_) fun hmem => ?_
  · rw [hmem, Bool.true_and]
    refine (returns_append hu alloc.node (entryOf cache now key data ttl)).bind fun {_ v} hv => ?_
    cases hnode : alloc.node with
    | false =>
      rw [hnode] at hv
      obtain ⟨rfl, hv⟩ := hv
      exact Returns.pure ⟨hv, rfl⟩
    | true =>
      rw [hnode] at hv
      obtain ⟨rfl, hv⟩ := hv
      exact Returns.pure ⟨hv, rfl⟩
  · rw [Bool.eq_false_iff.mpr hmem, Bool.false_and]
    exact Returns.pure ⟨hu, rfl⟩

/-- **A call on the cache is the call on the plain list of its entries.** -/
theorem returns_perform (h : Has entries s) (cache : Cache) (now : ℤ) (c : CacheCall) :
    Returns (perform cache now c) s fun r s' =>
      Has (plain cache now c entries).1 s' ∧ (plain cache now c entries).2 = r := by
  cases c with
  | set alloc key data ttl =>
    exact (returns_set h cache now alloc key data ttl).bind fun hr => Returns.pure hr
  | get alloc key => exact (returns_get h cache now alloc key).bind fun hr => Returns.pure hr
  | remove key => exact (returns_remove h key).bind fun hr => Returns.pure ⟨hr, rfl⟩
  | clear =>
    obtain ⟨l, hl, rfl⟩ := h
    exact (returns_clear hl true).bind fun hr => Returns.pure ⟨⟨[], hr.2, rfl⟩, rfl⟩

/-! ## Runs -/

/-- The entries after a sequence of calls, each at its time. -/
def entriesAfter (cache : Cache) (calls : List (ℤ × CacheCall)) : List CacheEntry :=
  calls.foldl (fun entries c => (plain cache c.1 c.2 entries).1) []

@[simp] theorem entriesAfter_nil (cache : Cache) : entriesAfter cache [] = [] := rfl

theorem entriesAfter_concat (cache : Cache) (calls : List (ℤ × CacheCall)) (c : ℤ × CacheCall) :
    entriesAfter cache (calls ++ [c]) = (plain cache c.1 c.2 (entriesAfter cache calls)).1 :=
  List.foldl_concat ..

/-- **A cache that was created runs**, and holds the entries of the same calls on a plain list. -/
theorem exists_run (cache : Cache) (calls : List (ℤ × CacheCall)) :
    ∃ s replies, Trace.run (step cache) calls create = .ok (s, replies) ∧
      Has (entriesAfter cache calls) s := by
  induction calls using List.reverseRecOn with
  | nil => exact ⟨create, [], rfl, has_create⟩
  | append_singleton calls c ih =>
    obtain ⟨s, replies, hrun, hs⟩ := ih
    obtain ⟨r, s', hc, hs', -⟩ := returns_perform hs cache c.1 c.2
    have hstep : step cache c s = .ok (s', [r]) := by
      rw [step, hc]
      rfl
    exact ⟨s', _, Trace.run_concat hrun hstep, (entriesAfter_concat cache calls c).symm ▸ hs'⟩

end Cache
