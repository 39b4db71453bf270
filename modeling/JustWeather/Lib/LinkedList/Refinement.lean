import JustWeather.Lib.LinkedList
import JustWeather.Machinery.Chain
import JustWeather.Machinery.Trace
import Mathlib.Data.List.Perm.Subperm

/-!
# Lib/LinkedList/Refinement — the linked list is a sequence

What a list holds is a chain of nodes between `head` and `tail` (`Holds`).  Surgery at a place works
on the two halves of the chain around it: `Near` is the half `head` leads to, `Far` the half that
ends at `tail`, and each operation that changes a link touches one of them (`returns_linkFront`,
`returns_linkBack`).  A sequence of calls then does to the items what it does to a plain list
(`run_refines`).
-/

open CLib Fallible Chain

namespace LinkedList

variable {ι : Type} {s s' : ListMemory ι} {l l₁ l₂ : List (ℕ × ι)} {p : ℕ × ι}
  {back front : Option ℕ}
  {a b : ℕ} {x : ι} {n : Node ι}

/-! ## Access to a node -/

theorem returns_deref (h : s.nodes.cell b = some n) :
    Returns (deref (some b)) s fun m s' => m = n ∧ s' = s :=
  ⟨n, s, by rw [deref, Memory.read_of_cell h]; rfl, rfl, rfl⟩

theorem returns_calloc (x : ι) :
    Returns (calloc x) s fun b s' =>
      b = s.nodes.next ∧ s' = { s with nodes := (s.nodes.alloc ⟨none, none, x⟩).2 } :=
  ⟨_, _, rfl, rfl, rfl⟩

theorem returns_assign (h : s.nodes.cell b = some n) (f : Node ι → Node ι) :
    Returns (assign b f) s fun _ s' =>
      s'.list = s.list ∧ Memory.Puts b (some (f n)) s.nodes s'.nodes := by
  obtain ⟨m, hm, hput⟩ := Memory.exists_put h (some (f n))
  refine ⟨(), ⟨s.list, m⟩, ?_, rfl, hput⟩
  rw [assign, Memory.read_of_cell h]
  change (s.nodes.put b (some (f n))).map _ = _
  rw [hm]
  rfl

theorem returns_free (h : s.nodes.cell b = some n) :
    Returns (free b) s fun _ s' => s'.list = s.list ∧ Memory.Puts b none s.nodes s'.nodes := by
  obtain ⟨m, hm, hput⟩ := Memory.exists_put h none
  refine ⟨(), ⟨s.list, m⟩, ?_, rfl, hput⟩
  change (s.nodes.put b none).map _ = _
  rw [hm]
  rfl

theorem returns_modifyList (f : LinkedList → LinkedList) :
    Returns (modifyList f) s fun _ s' => s' = { s with list := f s.list } :=
  ⟨_, _, rfl, rfl⟩

theorem returns_get : Returns (get : ListM ι (ListMemory ι)) s fun t s' => t = s ∧ s' = s :=
  ⟨_, _, rfl, rfl, rfl⟩

/-! ## Halves of a list -/

/-- The node at a place. -/
def At (s : ListMemory ι) (a : ℕ) (back front : Option ℕ) (item : ι) : Prop :=
  s.nodes.cell a = some ⟨back, front, item⟩

/-- The places of nodes. -/
def places (l : List (ℕ × ι)) : List ℕ := l.map Prod.fst

@[simp] theorem places_nil : places ([] : List (ℕ × ι)) = [] := rfl

@[simp] theorem places_cons (p : ℕ × ι) (l : List (ℕ × ι)) :
    places (p :: l) = p.1 :: places l := rfl

@[simp] theorem places_append (l₁ l₂ : List (ℕ × ι)) :
    places (l₁ ++ l₂) = places l₁ ++ places l₂ := List.map_append

/-- **The half of a list that `head` leads to**, and what its last node links to. -/
structure Near (l : List (ℕ × ι)) (front : Option ℕ) (s : ListMemory ι) : Prop where
  chain : Chain (At s) none l front
  head : s.list.head = first l front

/-- **The half of a list that ends at `tail`**, and what its first node links back to. -/
structure Far (back : Option ℕ) (l : List (ℕ × ι)) (s : ListMemory ι) : Prop where
  chain : Chain (At s) back l none
  tail : s.list.tail = last l back

/-- **A list holds these nodes**, each a place and an item. -/
structure Holds (l : List (ℕ × ι)) (s : ListMemory ι) : Prop where
  chain : Chain (At s) none l none
  head : s.list.head = first l none
  tail : s.list.tail = last l none
  size : s.list.size = l.length
  nodup : (places l).Nodup

/-- The nodes at these places are the same in both. -/
def Agree (l : List ℕ) (s s' : ListMemory ι) : Prop := ∀ a ∈ l, s'.nodes.cell a = s.nodes.cell a

theorem Agree.chain (hs : Agree (places l) s s') (h : Chain (At s) back l front) :
    Chain (At s') back l front :=
  h.mono fun _ hp _ _ hAt => (hs _ (List.mem_map_of_mem hp)).trans hAt

theorem Agree.near (hs : Agree (places l) s s') (hhead : s'.list.head = s.list.head)
    (h : Near l front s) : Near l front s' :=
  ⟨hs.chain h.chain, hhead.trans h.head⟩

theorem Agree.far (hs : Agree (places l) s s') (htail : s'.list.tail = s.list.tail)
    (h : Far back l s) : Far back l s' :=
  ⟨hs.chain h.chain, htail.trans h.tail⟩

/-- **A list is its two halves.** -/
theorem holds_append : Holds (l₁ ++ l₂) s ↔ Near l₁ (first l₂ none) s ∧ Far (last l₁ none) l₂ s ∧
    s.list.size = l₁.length + l₂.length ∧ (places (l₁ ++ l₂)).Nodup := by
  constructor
  · rintro ⟨hchain, hhead, htail, hsize, hnodup⟩
    obtain ⟨h₁, h₂⟩ := chain_append.mp hchain
    rw [first_append] at hhead
    rw [last_append] at htail
    rw [List.length_append] at hsize
    exact ⟨⟨h₁, hhead⟩, ⟨h₂, htail⟩, hsize, hnodup⟩
  · rintro ⟨⟨h₁, hhead⟩, ⟨h₂, htail⟩, hsize, hnodup⟩
    refine ⟨chain_append.mpr ⟨h₁, h₂⟩, ?_, ?_, ?_, hnodup⟩
    · rw [hhead, first_append]
    · rw [htail, last_append]
    · rw [hsize, List.length_append]

theorem cell_of_chain (h : Chain (At s) back l front) (ha : a ∈ places l) :
    ∃ n, s.nodes.cell a = some n := by
  obtain ⟨p, hp, rfl⟩ := List.mem_map.mp ha
  obtain ⟨l₁, l₂, rfl⟩ := List.append_of_mem hp
  exact ⟨_, h.links⟩

theorem lt_next_of_chain (h : Chain (At s) back l front) (ha : a ∈ places l) :
    a < s.nodes.next := by
  obtain ⟨n, hn⟩ := cell_of_chain h ha
  exact Memory.lt_next hn

theorem holds_create : Holds [] (create : ListMemory ι) :=
  ⟨trivial, rfl, rfl, rfl, List.nodup_nil⟩

/-- **What a list holds is one sequence of nodes.** -/
theorem Holds.unique {l' : List (ℕ × ι)} (h : Holds l s) (h' : Holds l' s) : l = l' := by
  refine Chain.unique (fun hAt hAt' => ?_) h.chain h'.chain (h.head.symm.trans h'.head)
  obtain ⟨-, hfront, hitem⟩ := Node.mk.inj (Option.some.inj (hAt.symm.trans hAt'))
  exact ⟨hfront, hitem⟩

/-! ## Surgery -/

/-- What a new link in one half of a list leaves as it was: the nodes elsewhere, and the size. -/
structure Elsewhere (l : List ℕ) (s s' : ListMemory ι) : Prop where
  cell : ∀ a ∉ l, s'.nodes.cell a = s.nodes.cell a
  size : s'.list.size = s.list.size

theorem Elsewhere.agree {l l' : List ℕ} (h : Elsewhere l s s') (hl : l'.Disjoint l) :
    Agree l' s s' :=
  fun _ ha => h.cell _ (hl ha)

theorem elsewhere_of_puts {l : List ℕ} {o : Option (Node ι)} (hlist : s'.list = s.list)
    (hput : Memory.Puts b o s.nodes s'.nodes) (hb : b ∈ l) : Elsewhere l s s' :=
  ⟨fun _ ha => hput.cell_of_ne fun h => ha (h ▸ hb), by rw [hlist]⟩

/-- **A new link at the end of the near half.** -/
theorem returns_linkFront (h : Near l front s) (hnodup : (places l).Nodup) (v : Option ℕ) :
    Returns (linkFront (last l none) v) s fun _ s' =>
      Near l v s' ∧ Elsewhere (places l) s s' ∧ s'.list.tail = s.list.tail := by
  rcases List.eq_nil_or_concat l with rfl | ⟨l, p, rfl⟩
  · exact ⟨(), _, rfl, ⟨trivial, rfl⟩, ⟨fun _ _ => rfl, rfl⟩, rfl⟩
  · rw [List.concat_eq_append] at h hnodup ⊢
    rw [last_concat]
    have hp : At s p.1 (last l none) front p.2 := h.chain.links
    refine (returns_assign hp _).mono fun {_ s'} hs => ?_
    obtain ⟨hlist, hput⟩ := hs
    have hne : ∀ q ∈ l, q.1 ≠ p.1 := by
      intro q hq hqp
      rw [places_append, List.nodup_append] at hnodup
      exact hnodup.2.2 q.1 (List.mem_map_of_mem hq) p.1 (List.mem_singleton_self _) hqp
    refine ⟨⟨h.chain.setFront (fun q hq _ _ hAt => ?_) fun b f hAt => ?_, ?_⟩, ?_, by rw [hlist]⟩
    · exact (hput.cell_of_ne (hne q hq)).trans hAt
    · obtain ⟨rfl, -⟩ : last l none = b ∧ front = f := by simpa [At] using hp.symm.trans hAt
      exact hput.cell_self
    · rw [hlist, h.head, first_ne_none (by simp)]
    · exact elsewhere_of_puts hlist hput (by simp)

/-- **A new link at the end of the far half.** -/
theorem returns_linkBack (h : Far back l s) (hnodup : (places l).Nodup) (v : Option ℕ) :
    Returns (linkBack (first l none) v) s fun _ s' =>
      Far v l s' ∧ Elsewhere (places l) s s' ∧ s'.list.head = s.list.head := by
  cases l with
  | nil =>
    exact ⟨(), _, rfl, ⟨trivial, rfl⟩, ⟨fun _ _ => rfl, rfl⟩, rfl⟩
  | cons p l =>
    have hp : At s p.1 back (first l none) p.2 := h.chain.1
    refine (returns_assign hp _).mono fun {_ s'} hs => ?_
    obtain ⟨hlist, hput⟩ := hs
    have hne : ∀ q ∈ l, q.1 ≠ p.1 := by
      intro q hq hqp
      exact (List.nodup_cons.mp hnodup).1 (hqp ▸ List.mem_map_of_mem hq)
    refine ⟨⟨h.chain.setBack (fun q hq _ _ hAt => ?_) fun b f hAt => ?_, ?_⟩, ?_, by rw [hlist]⟩
    · exact (hput.cell_of_ne (hne q hq)).trans hAt
    · obtain ⟨-, rfl⟩ : back = b ∧ first l none = f := by simpa [At] using hp.symm.trans hAt
      exact hput.cell_self
    · rw [hlist, h.tail]
      rfl
    · exact elsewhere_of_puts hlist hput (by simp)

/-- **A node is linked in** after the near half and before the far half. -/
theorem holds_link (hnear : Near l₁ (some a) s) (hfar : Far (some a) l₂ s)
    (ha : At s a (last l₁ none) (first l₂ none) x) (hsize : s.list.size = l₁.length + l₂.length + 1)
    (hnodup : (places (l₁ ++ l₂)).Nodup) (hfresh : a ∉ places (l₁ ++ l₂)) :
    Holds (l₁ ++ (a, x) :: l₂) s := by
  refine holds_append.mpr ⟨hnear, ⟨⟨ha, hfar.chain⟩, hfar.tail⟩, ?_, ?_⟩
  · rw [hsize, List.length_cons]
    omega
  · rw [places_append, places_cons, List.nodup_middle, List.nodup_cons, ← places_append]
    exact ⟨hfresh, hnodup⟩

/-- A node that is counted and not linked in yet, and the two halves it goes between. -/
structure Pending (l₁ l₂ : List (ℕ × ι)) (a : ℕ) (back front : Option ℕ) (x : ι)
    (s : ListMemory ι) : Prop where
  near : Near l₁ (first l₂ none) s
  far : Far (last l₁ none) l₂ s
  node : At s a back front x
  size : s.list.size = l₁.length + l₂.length + 1
  nodup : (places (l₁ ++ l₂)).Nodup
  fresh : a ∉ places (l₁ ++ l₂)

theorem pending_of_alloc (h : Holds (l₁ ++ l₂) s) (x : ι) :
    Pending l₁ l₂ s.nodes.next none none x
      ⟨{ s.list with size := s.list.size + 1 }, (s.nodes.alloc ⟨none, none, x⟩).2⟩ := by
  have hfresh : s.nodes.next ∉ places (l₁ ++ l₂) := fun ha =>
    Nat.lt_irrefl _ (lt_next_of_chain h.chain ha)
  obtain ⟨hnear, hfar, hsize, hnodup⟩ := holds_append.mp h
  have hcell : ∀ {l : List (ℕ × ι)}, (∀ a ∈ places l, a ∈ places (l₁ ++ l₂)) → ∀ b ∈ places l,
      (s.nodes.alloc ⟨none, none, x⟩).2.cell b = s.nodes.cell b :=
    fun hl b hb => Memory.cell_alloc_of_ne (fun heq => hfresh (heq ▸ hl b hb)) _
  refine ⟨Agree.near (hcell ?_) rfl hnear, Agree.far (hcell ?_) rfl hfar,
    Memory.cell_alloc_self _ _, ?_, hnodup, hfresh⟩
  · simp +contextual
  · simp +contextual
  · exact congrArg (· + 1) hsize

/-- The links of the node that is not linked in are set. -/
theorem Pending.returns_assign {back' front' : Option ℕ} {f : Node ι → Node ι}
    (h : Pending l₁ l₂ a back front x s) (hf : f ⟨back, front, x⟩ = ⟨back', front', x⟩) :
    Returns (assign a f) s fun _ s' => Pending l₁ l₂ a back' front' x s' := by
  refine (LinkedList.returns_assign h.node f).mono fun {_ s'} hs => ?_
  obtain ⟨hlist, hput⟩ := hs
  have hcell : ∀ {l : List (ℕ × ι)}, (∀ b ∈ places l, b ∈ places (l₁ ++ l₂)) →
      Agree (places l) s s' :=
    fun hl b hb => hput.cell_of_ne fun heq => h.fresh (heq ▸ hl b hb)
  refine ⟨Agree.near (hcell ?_) (by rw [hlist]) h.near, Agree.far (hcell ?_) (by rw [hlist]) h.far,
    hput.cell_self.trans (congrArg some hf), by rw [hlist, h.size], h.nodup, h.fresh⟩
  · simp +contextual
  · simp +contextual

theorem Pending.returns_setBack (h : Pending l₁ l₂ a back front x s) (v : Option ℕ) :
    Returns (setBack a v) s fun _ s' => Pending l₁ l₂ a v front x s' :=
  h.returns_assign rfl

theorem Pending.returns_setFront (h : Pending l₁ l₂ a back front x s) (v : Option ℕ) :
    Returns (setFront a v) s fun _ s' => Pending l₁ l₂ a back v x s' :=
  h.returns_assign rfl

/-- **The near half is linked to the new node.** -/
theorem Pending.returns_linkFront (h : Pending l₁ l₂ a back front x s) :
    Returns (linkFront (last l₁ none) (some a)) s fun _ s' =>
      Near l₁ (some a) s' ∧ Far (last l₁ none) l₂ s' ∧ At s' a back front x ∧
        s'.list.size = l₁.length + l₂.length + 1 := by
  have hnodup := h.nodup
  rw [places_append, List.nodup_append'] at hnodup
  refine (LinkedList.returns_linkFront h.near hnodup.1 _).mono fun hs => ?_
  obtain ⟨hnear, hsame, htail⟩ := hs
  refine ⟨hnear, (hsame.agree fun _ h₂ h₁ => hnodup.2.2 h₁ h₂).far htail h.far, ?_,
    hsame.size.trans h.size⟩
  exact (hsame.cell a fun ha => h.fresh (by simp [ha])).trans h.node

/-- The new node becomes the tail. -/
theorem Pending.returns_tail (h : Pending l [] a back front x s) (hnear : Near l (some a) s')
    (hnode : At s' a (last l none) none x) (hsize : s'.list.size = l.length + 1) :
    Returns (modifyList fun list => { list with tail := some a }) s' fun _ s' =>
      Holds (l ++ [(a, x)]) s' :=
  (returns_modifyList _).mono fun hs => hs ▸
    holds_link ⟨hnear.chain, hnear.head⟩ ⟨trivial, rfl⟩ hnode hsize h.nodup h.fresh

/-- **`linked_list_append` adds a node at the end**, or changes nothing for want of memory. -/
theorem returns_append (h : Holds l s) (alloc : Bool) (x : ι) :
    Returns (append alloc x) s fun code s' =>
      if alloc then code = 0 ∧ Holds (l ++ [(s.nodes.next, x)]) s' else code = 1 ∧ s' = s := by
  cases alloc with
  | false => exact Returns.pure ⟨rfl, rfl⟩
  | true =>
    have hp := pending_of_alloc ((List.append_nil l).symm ▸ h) x
    refine (returns_calloc x).bind ?_
    rintro _ _ ⟨rfl, rfl⟩
    refine Returns.bind (Q := fun _ => Pending l [] s.nodes.next none none x)
      ⟨_, _, rfl, hp⟩ fun {_ t} hp => ?_
    refine returns_get.bind ?_
    rintro _ _ ⟨rfl, rfl⟩
    have htail := hp.far.tail
    rcases List.eq_nil_or_concat l with rfl | ⟨l, p, rfl⟩
    · rw [htail]
      refine hp.returns_linkFront.bind fun {_ u} hu => ?_
      obtain ⟨hnear, -, hnode, hsize⟩ := hu
      exact (hp.returns_tail hnear hnode hsize).bind fun hl => Returns.pure ⟨rfl, hl⟩
    · rw [List.concat_eq_append] at hp htail ⊢
      rw [last_nil, last_concat] at htail
      rw [htail]
      refine (hp.returns_setBack (some p.1)).bind fun hp => ?_
      have hlink := hp.returns_linkFront
      rw [last_concat] at hlink
      refine hlink.bind fun {_ u} hu => ?_
      obtain ⟨hnear, -, hnode, hsize⟩ := hu
      rw [← last_concat l p none] at hnode
      exact (hp.returns_tail hnear hnode hsize).bind fun hl => Returns.pure ⟨rfl, hl⟩

/-! ## Walks -/

/-- **Going on that many links** from the head of a chain. -/
theorem returns_walkFront (h : Chain (At s) back l front) {n : ℕ} (hn : n ≤ l.length) :
    Returns (walkFront n (first l front)) s fun cur s' =>
      cur = first (l.drop n) front ∧ s' = s := by
  induction n generalizing l back with
  | zero => exact Returns.pure ⟨rfl, rfl⟩
  | succ n ih =>
    cases l with
    | nil => cases hn
    | cons p l =>
      refine (returns_deref h.1).bind ?_
      rintro _ _ ⟨rfl, rfl⟩
      exact ih h.2 (Nat.le_of_succ_le_succ hn)

/-- Going back that many links from its tail. -/
theorem returns_walkBack (h : Chain (At s) back l front) {n : ℕ} (hn : n ≤ l.length) :
    Returns (walkBack n (last l back)) s fun cur s' =>
      cur = last (l.take (l.length - n)) back ∧ s' = s := by
  induction n generalizing l front with
  | zero => exact Returns.pure ⟨by rw [Nat.sub_zero, List.take_length], rfl⟩
  | succ n ih =>
    rcases List.eq_nil_or_concat l with rfl | ⟨l, p, rfl⟩
    · cases hn
    · rw [List.concat_eq_append] at h hn ⊢
      rw [List.length_append, List.length_singleton] at hn
      rw [last_concat]
      refine (returns_deref h.links).bind ?_
      rintro _ _ ⟨rfl, rfl⟩
      refine (ih (chain_append.mp h).1 (Nat.le_of_succ_le_succ hn)).mono ?_
      rintro _ _ ⟨rfl, rfl⟩
      rw [List.length_append, List.length_singleton, Nat.add_sub_add_right,
        List.take_append_of_le_length (Nat.sub_le ..)]
      exact ⟨rfl, rfl⟩

/-- **`linked_list_get_index` returns the node at the index**, from whichever end it walks. -/
theorem returns_getIndex (h : Holds l s) (index : ℕ) :
    Returns (getIndex index) s fun node s' => node = (places l)[index]? ∧ s' = s := by
  refine returns_get.bind ?_
  rintro _ _ ⟨rfl, rfl⟩
  dsimp only
  rw [h.size, h.head, h.tail]
  split
  case isTrue hlen =>
    exact Returns.pure ⟨(List.getElem?_eq_none (by rwa [places, List.length_map])).symm, rfl⟩
  case isFalse hlen =>
    obtain ⟨l₁, p, l₂, rfl, rfl⟩ : ∃ l₁ p l₂, l = l₁ ++ p :: l₂ ∧ l₁.length = index :=
      ⟨l.take index, l[index], l.drop (index + 1), by simp, by simp; omega⟩
    have hnode : (places (l₁ ++ p :: l₂))[l₁.length]? = some p.1 := by simp [places]
    rw [hnode]
    split
    · refine (returns_walkFront h.chain (by simp)).mono ?_
      rintro _ _ ⟨rfl, rfl⟩
      simp
    · refine (returns_walkBack h.chain (by simp; omega)).mono ?_
      rintro _ _ ⟨rfl, rfl⟩
      refine ⟨?_, rfl⟩
      have hlen : (l₁ ++ p :: l₂).length - ((l₁ ++ p :: l₂).length - 1 - l₁.length)
          = l₁.length + 1 := by
        simp only [List.length_append, List.length_cons]
        omega
      rw [hlen, List.take_length_add_append, List.take_one, last_append]
      rfl

/-- **`linked_list_insert` puts a node before the one at the index**, or at the end. -/
theorem returns_insert (h : Holds l s) (alloc : Bool) (index : ℕ) (x : ι) :
    Returns (insert alloc index x) s fun code s' =>
      if alloc then code = 0 ∧ Holds (l.take index ++ (s.nodes.next, x) :: l.drop index) s'
      else code = 1 ∧ s' = s := by
  refine returns_get.bind ?_
  rintro _ _ ⟨rfl, rfl⟩
  rw [h.size]
  split
  case isTrue hlen =>
    rw [List.take_of_length_le hlen, List.drop_of_length_le hlen]
    exact returns_append h alloc x
  case isFalse hlen =>
    obtain ⟨l₁, p, l₂, rfl, rfl⟩ : ∃ l₁ p l₂, l = l₁ ++ p :: l₂ ∧ l₁.length = index :=
      ⟨l.take index, l[index], l.drop (index + 1), by simp, by simp; omega⟩
    refine (returns_getIndex h _).bind ?_
    rintro _ _ ⟨rfl, rfl⟩
    have hnode : (places (l₁ ++ p :: l₂))[l₁.length]? = some p.1 := by simp [places]
    rw [hnode, List.take_left, List.drop_left]
    cases alloc with
    | false => exact Returns.pure ⟨rfl, rfl⟩
    | true =>
      have hp := pending_of_alloc h x
      refine (returns_calloc x).bind ?_
      rintro _ _ ⟨rfl, rfl⟩
      refine Returns.bind (Q := fun _ => Pending l₁ (p :: l₂) _ none none x)
        ⟨_, _, rfl, hp⟩ fun {_ t} hp => ?_
      refine (returns_deref hp.far.chain.1).bind ?_
      rintro _ _ ⟨rfl, rfl⟩
      refine (hp.returns_setBack _).bind fun {_ t} hp => ?_
      refine (hp.returns_setFront _).bind fun {_ t} hp => ?_
      refine (returns_deref hp.far.chain.1).bind ?_
      rintro _ _ ⟨rfl, rfl⟩
      refine hp.returns_linkFront.bind fun {_ u} hu => ?_
      obtain ⟨hnear, hfar, hnode, hsize⟩ := hu
      have hnodup := List.nodup_append'.mp (places_append l₁ (p :: l₂) ▸ hp.nodup)
      refine (returns_linkBack hfar hnodup.2.1 (some _)).bind fun {_ v} hv => ?_
      obtain ⟨hfar', hsame, hhead⟩ := hv
      refine Returns.pure ⟨rfl, holds_link ?_ hfar' ?_ (hsame.size.trans hsize) hp.nodup hp.fresh⟩
      · exact (hsame.agree hnodup.2.2).near hhead hnear
      · refine (hsame.cell _ fun ha => hp.fresh ?_).trans hnode
        rw [places_append]
        exact List.mem_append_right _ ha

theorem Holds.of_puts {o : Option (Node ι)} (h : Holds l s) (hlist : s'.list = s.list)
    (hput : Memory.Puts b o s.nodes s'.nodes) (hb : b ∉ places l) : Holds l s' := by
  have hcells : Agree (places l) s s' := fun a ha => hput.cell_of_ne fun hab => hb (hab ▸ ha)
  refine ⟨hcells.chain h.chain, ?_, ?_, ?_, h.nodup⟩
  · rw [hlist, h.head]
  · rw [hlist, h.tail]
  · rw [hlist, h.size]

/-- A node outside the list is written to. -/
theorem Holds.returns_assign (h : Holds l s) (hb : b ∉ places l) (hn : s.nodes.cell b = some n)
    (f : Node ι → Node ι) :
    Returns (assign b f) s fun _ s' => Holds l s' ∧ s'.nodes.cell b = some (f n) :=
  (LinkedList.returns_assign hn f).mono fun hs => ⟨h.of_puts hs.1 hs.2 hb, hs.2.cell_self⟩

/-- **`linked_list_remove` takes the node out** and releases it, and its item is the one that is
released. -/
theorem returns_remove (h : Holds (l₁ ++ p :: l₂) s) (dispose : Bool) :
    Returns (remove dispose (some p.1)) s fun r s' =>
      r = (0, if dispose then [p.2] else []) ∧ Holds (l₁ ++ l₂) s' ∧ s'.nodes.cell p.1 = none := by
  obtain ⟨hnear, hfar, hsize, hnodup⟩ := holds_append.mp h
  rw [places_append, places_cons, List.nodup_middle, List.nodup_cons, ← places_append] at hnodup
  obtain ⟨hp, hnodup⟩ := hnodup
  have hsplit := List.nodup_append'.mp (places_append l₁ l₂ ▸ hnodup)
  rw [places_append, List.mem_append, not_or] at hp
  -- The halves are linked to each other.
  refine (returns_deref hfar.chain.1).bind ?_
  rintro _ _ ⟨rfl, rfl⟩
  refine (returns_linkFront hnear hsplit.1 _).bind fun {_ t} ht => ?_
  obtain ⟨hnear, hsame₁, htail⟩ := ht
  have hnode := (hsame₁.cell _ hp.1).trans hfar.chain.1
  have hfar : Far (some p.1) l₂ t :=
    (hsame₁.agree fun _ h₂ h₁ => hsplit.2.2 h₁ h₂).far htail ⟨hfar.chain.2, hfar.tail⟩
  refine (returns_linkBack hfar hsplit.2.1 _).bind fun {_ u} hu => ?_
  obtain ⟨hfar, hsame₂, hhead⟩ := hu
  have hnear := (hsame₂.agree hsplit.2.2).near hhead hnear
  have hnode := (hsame₂.cell _ hp.2).trans hnode
  have hsize := hsame₂.size.trans (hsame₁.size.trans hsize)
  refine Returns.bind (Q := fun _ t => Holds (l₁ ++ l₂) t ∧ t.nodes.cell p.1 = _)
    ⟨_, _, rfl, ?_, hnode⟩ fun {_ v} hv => ?_
  · refine holds_append.mpr ⟨⟨hnear.chain, hnear.head⟩, ⟨hfar.chain, hfar.tail⟩, ?_, hnodup⟩
    simp [hsize]
  -- What is left to do touches the node alone.
  have hout : p.1 ∉ places (l₁ ++ l₂) := by simp [hp]
  refine (hv.1.returns_assign hout hv.2 _).bind fun {_ v} hv => ?_
  refine (hv.1.returns_assign hout hv.2 _).bind fun {_ v} hv => ?_
  refine (returns_deref hv.2).bind ?_
  rintro _ _ ⟨rfl, rfl⟩
  refine (returns_free hv.2).bind fun {_ w} hw => ?_
  exact Returns.pure ⟨rfl, hv.1.of_puts hw.1 hw.2 hout, hw.2.cell_self⟩

/-- `linked_list_pop` takes the node at the index out. -/
theorem returns_pop (h : Holds (l₁ ++ p :: l₂) s) (dispose : Bool) :
    Returns (pop dispose l₁.length) s fun r s' =>
      r = (0, if dispose then [p.2] else []) ∧ Holds (l₁ ++ l₂) s' := by
  refine (returns_getIndex h _).bind ?_
  rintro _ _ ⟨rfl, rfl⟩
  have hnode : (places (l₁ ++ p :: l₂))[l₁.length]? = some p.1 := by simp [places]
  rw [hnode]
  exact (returns_remove h dispose).mono fun hr => ⟨hr.1, hr.2.1⟩

theorem returns_pop_of_le (h : Holds l s) (dispose : Bool) {index : ℕ} (hlen : l.length ≤ index) :
    Returns (pop dispose index) s fun r s' => r = (1, []) ∧ s' = s := by
  refine (returns_getIndex h _).bind ?_
  rintro _ _ ⟨rfl, rfl⟩
  rw [List.getElem?_eq_none (by rwa [places, List.length_map])]
  exact Returns.pure ⟨rfl, rfl⟩

/-- The loop of `linked_list_clear` comes to the end of the chain and releases each item. -/
theorem returns_clearFrom (dispose : Bool) {fuel : ℕ} (h : Chain (At s) back l none)
    (hnodup : (places l).Nodup) (hfuel : l.length ≤ fuel) :
    Returns (clearFrom dispose fuel (first l none)) s fun r _ =>
      r = if dispose then l.map Prod.snd else [] := by
  induction l generalizing s fuel back with
  | nil =>
    rw [first_nil, clearFrom]
    exact Returns.pure (by simp)
  | cons p l ih =>
    cases fuel with
    | zero => cases hfuel
    | succ fuel =>
      obtain ⟨hp, hnodup⟩ := List.nodup_cons.mp hnodup
      refine (returns_deref h.1).bind ?_
      rintro _ _ ⟨rfl, rfl⟩
      refine (returns_free h.1).bind fun {_ t} ht => ?_
      obtain ⟨-, hput⟩ := ht
      have hrest : Chain (At t) (some p.1) l none :=
        Agree.chain (fun a ha => hput.cell_of_ne fun hap => hp (hap ▸ ha)) h.2
      refine (ih hrest hnodup (Nat.le_of_succ_le_succ hfuel)).bind ?_
      rintro _ _ rfl
      exact Returns.pure (by cases dispose <;> rfl)

/-- There are no more nodes than were given out. -/
theorem Holds.length_le (h : Holds l s) : l.length ≤ s.nodes.next := by
  have hsub : places l ⊆ List.range s.nodes.next := fun a ha =>
    List.mem_range.mpr (lt_next_of_chain h.chain ha)
  have hlen := (List.subperm_of_subset h.nodup hsub).length_le
  rwa [List.length_range, places, List.length_map] at hlen

theorem returns_clear (h : Holds l s) (dispose : Bool) :
    Returns (clear dispose) s fun r s' =>
      r = (if dispose then l.map Prod.snd else []) ∧ Holds [] s' := by
  refine returns_get.bind ?_
  rintro _ _ ⟨rfl, rfl⟩
  rw [h.head]
  refine (returns_clearFrom dispose h.chain h.nodup h.length_le).bind ?_
  rintro _ _ rfl
  refine (returns_modifyList _).bind ?_
  rintro _ _ rfl
  exact Returns.pure ⟨rfl, trivial, rfl, rfl, rfl, List.nodup_nil⟩

/-! ## Calls -/

/-- A call, with what memory there is for it.  A node to remove is one `LinkedList_foreach` comes
to, whichever it is. -/
inductive Call (ι : Type)
  | append (alloc : Bool) (item : ι)
  | insert (alloc : Bool) (index : ℕ) (item : ι)
  | pop (dispose : Bool) (index : ℕ)
  | remove (dispose : Bool) (position : ℕ)
  | getIndex (index : ℕ)
  | clear (dispose : Bool)

/-- What a call returns: a code and the items released, or the item of the node returned. -/
inductive Reply (ι : Type)
  | code (code : ℤ) (disposed : List ι)
  | item (item : Option ι)
  | cleared (disposed : List ι)
  deriving DecidableEq

/-- A call on a linked list. -/
def Call.perform : Call ι → ListM ι (Reply ι)
  | .append alloc item => return .code (← LinkedList.append alloc item) []
  | .insert alloc index item => return .code (← LinkedList.insert alloc index item) []
  | .pop dispose index => do
    let (code, disposed) ← LinkedList.pop dispose index
    return .code code disposed
  | .remove dispose position => do
    let node ← foreach position (← get).list.head
    let (code, disposed) ← LinkedList.remove dispose node
    return .code code disposed
  | .getIndex index => do
    match ← LinkedList.getIndex index with
    | none => return .item none
    | some b => return .item (some (← deref (some b)).item)
  | .clear dispose => return .cleared (← LinkedList.clear dispose)

/-- The item at an index is taken out of a plain list. -/
def takeOut (dispose : Bool) (index : ℕ) (items : List ι) : List ι × Reply ι :=
  match items[index]? with
  | none => (items, .code 1 [])
  | some item => (items.eraseIdx index, .code 0 (if dispose then [item] else []))

/-- **The same call on a plain list.** -/
def Call.plain : Call ι → List ι → List ι × Reply ι
  | .append true item, items => (items ++ [item], .code 0 [])
  | .insert true index item, items => (items.take index ++ item :: items.drop index, .code 0 [])
  | .append false _, items | .insert false _ _, items => (items, .code 1 [])
  | .pop dispose index, items | .remove dispose index, items => takeOut dispose index items
  | .getIndex index, items => (items, .item items[index]?)
  | .clear dispose, items => ([], .cleared (if dispose then items else []))

/-- A sequence of calls on a plain list. -/
def plainRun : List (Call ι) → List ι → List ι × List (Reply ι)
  | [], items => (items, [])
  | c :: cs, items =>
    let (items, reply) := c.plain items
    let (items, replies) := plainRun cs items
    (items, reply :: replies)

/-- A call as a step of a run. -/
def step (c : Call ι) (s : ListMemory ι) : Except Fault (ListMemory ι × List (Reply ι)) :=
  (c.perform s).map fun r => (r.2, [r.1])

theorem returns_foreach (h : Chain (At s) back l none) (n : ℕ) :
    Returns (foreach n (first l none)) s fun node s' => node = (places l)[n]? ∧ s' = s := by
  induction l generalizing n back with
  | nil => cases n <;> exact Returns.pure ⟨rfl, rfl⟩
  | cons p l ih =>
    cases n with
    | zero => exact Returns.pure ⟨rfl, rfl⟩
    | succ n =>
      refine (returns_deref h.1).bind ?_
      rintro _ _ ⟨rfl, rfl⟩
      exact ih h.2 n

theorem split_of_getElem? (hp : l[a]? = some p) :
    ∃ l₁ l₂, l = l₁ ++ p :: l₂ ∧ l₁.length = a := by
  obtain ⟨ha, rfl⟩ := List.getElem?_eq_some_iff.mp hp
  exact ⟨l.take a, l.drop (a + 1), by simp, by simp; omega⟩

theorem plain_takeOut (l₁ l₂ : List (ℕ × ι)) (p : ℕ × ι) (dispose : Bool) :
    takeOut dispose l₁.length ((l₁ ++ p :: l₂).map Prod.snd)
      = ((l₁ ++ l₂).map Prod.snd, .code 0 (if dispose then [p.2] else [])) := by
  have hget : ((l₁ ++ p :: l₂).map Prod.snd)[l₁.length]? = some p.2 := by simp
  rw [takeOut, hget]
  simp [List.eraseIdx_append_of_length_le]

theorem plain_takeOut_of_le (hlen : l.length ≤ a) (dispose : Bool) :
    takeOut dispose a (l.map Prod.snd) = (l.map Prod.snd, .code 1 []) := by
  rw [takeOut, List.getElem?_eq_none (by rwa [List.length_map])]

/-- **A call on the linked list is the call on the plain list.** -/
theorem Holds.returns_perform (h : Holds l s) (c : Call ι) :
    Returns c.perform s fun reply s' => ∃ l', Holds l' s' ∧
      c.plain (l.map Prod.snd) = (l'.map Prod.snd, reply) := by
  cases c with
  | append alloc item =>
    refine (returns_append h alloc item).bind fun {_ _} hc => Returns.pure ?_
    cases alloc with
    | false =>
      obtain ⟨rfl, rfl⟩ := hc
      exact ⟨l, h, rfl⟩
    | true =>
      obtain ⟨rfl, h'⟩ := hc
      exact ⟨_, h', by simp [Call.plain]⟩
  | insert alloc index item =>
    refine (returns_insert h alloc index item).bind fun {_ _} hc => Returns.pure ?_
    cases alloc with
    | false =>
      obtain ⟨rfl, rfl⟩ := hc
      exact ⟨l, h, rfl⟩
    | true =>
      obtain ⟨rfl, h'⟩ := hc
      exact ⟨_, h', by simp [Call.plain, List.map_take, List.map_drop]⟩
  | pop dispose index =>
    rcases hp : l[index]? with _ | p
    · have hlen := List.getElem?_eq_none_iff.mp hp
      refine (returns_pop_of_le h dispose hlen).bind ?_
      rintro _ _ ⟨rfl, rfl⟩
      exact Returns.pure ⟨l, h, plain_takeOut_of_le hlen dispose⟩
    · obtain ⟨l₁, l₂, rfl, rfl⟩ := split_of_getElem? hp
      refine (returns_pop h dispose).bind ?_
      rintro _ _ ⟨rfl, h'⟩
      exact Returns.pure ⟨_, h', plain_takeOut l₁ l₂ p dispose⟩
  | remove dispose position =>
    refine returns_get.bind ?_
    rintro _ _ ⟨rfl, rfl⟩
    rw [h.head]
    refine (returns_foreach h.chain position).bind ?_
    rintro _ _ ⟨rfl, rfl⟩
    rw [places, List.getElem?_map]
    rcases hp : l[position]? with _ | p
    · have hlen := List.getElem?_eq_none_iff.mp hp
      exact Returns.pure ⟨l, h, plain_takeOut_of_le hlen dispose⟩
    · obtain ⟨l₁, l₂, rfl, rfl⟩ := split_of_getElem? hp
      refine (returns_remove h dispose).bind ?_
      rintro _ _ ⟨rfl, h', -⟩
      exact Returns.pure ⟨_, h', plain_takeOut l₁ l₂ p dispose⟩
  | getIndex index =>
    refine (returns_getIndex h index).bind ?_
    rintro _ _ ⟨rfl, rfl⟩
    rw [places, List.getElem?_map]
    rcases hp : l[index]? with _ | p
    · exact Returns.pure ⟨l, h, by simp [Call.plain, hp]⟩
    · obtain ⟨l₁, l₂, rfl, rfl⟩ := split_of_getElem? hp
      refine (returns_deref h.chain.links).bind ?_
      rintro _ _ ⟨rfl, rfl⟩
      exact Returns.pure ⟨_, h, by simp [Call.plain]⟩
  | clear dispose =>
    refine (returns_clear h dispose).bind ?_
    rintro _ _ ⟨rfl, h'⟩
    exact Returns.pure ⟨_, h', rfl⟩

theorem Holds.run (h : Holds l s) (calls : List (Call ι)) :
    ∃ l' s', Trace.run step calls s = .ok (s', (plainRun calls (l.map Prod.snd)).2) ∧
      Holds l' s' ∧ l'.map Prod.snd = (plainRun calls (l.map Prod.snd)).1 := by
  induction calls generalizing l s with
  | nil => exact ⟨l, s, rfl, h, rfl⟩
  | cons c calls ih =>
    obtain ⟨reply, t, hc, l', hl', hplain⟩ := h.returns_perform c
    obtain ⟨l'', s', hrun, hl'', hitems⟩ := ih hl'
    have hstep : step c s = .ok (t, [reply]) := by
      rw [step, hc]
      rfl
    refine ⟨l'', s', ?_, hl'', ?_⟩
    · rw [Trace.run_cons_of_ok hstep, hrun, plainRun, hplain]
      rfl
    · rw [plainRun, hplain, hitems]

/-! ## Well-formed lists -/

/-- `node->front` of a node of the memory. -/
def Front (s : ListMemory ι) (a : ℕ) (front : Option ℕ) : Prop :=
  ∃ back item, s.nodes.cell a = some ⟨back, front, item⟩

/-- `node->back` of a node of the memory. -/
def Back (s : ListMemory ι) (a : ℕ) (back : Option ℕ) : Prop :=
  ∃ front item, s.nodes.cell a = some ⟨back, front, item⟩

/-- **The representation is well formed**, of a list with these nodes. -/
structure WellFormed (l : List (ℕ × ι)) (s : ListMemory ι) : Prop where
  distinct : (places l).Nodup
  size : s.list.size = l.length
  front : Visits (Front s) s.list.head (places l)
  back : Visits (Back s) s.list.tail (places l).reverse
  front_ends : (places l).getLast? = s.list.tail
  back_ends : (places l).head? = s.list.head
  head_back : ∀ a, s.list.head = some a → Back s a none
  tail_front : ∀ a, s.list.tail = some a → Front s a none
  items : ∀ p ∈ l, ∃ n, s.nodes.cell p.1 = some n ∧ n.item = p.2
  head_none : s.list.head = none ↔ s.list.size = 0
  tail_none : s.list.tail = none ↔ s.list.size = 0

theorem Holds.wellFormed (h : Holds l s) : WellFormed l s := by
  have hhead : s.list.head = none ↔ s.list.size = 0 := by
    rw [h.head, h.size, first_eq_none_iff, List.length_eq_zero_iff]
  have htail : s.list.tail = none ↔ s.list.size = 0 := by
    rw [h.tail, h.size, last_eq_none_iff, List.length_eq_zero_iff]
  refine ⟨h.nodup, h.size, ?_, ?_, ?_, ?_, ?_, ?_, ?_, hhead, htail⟩
  · exact h.head ▸ h.chain.visits_front
  · exact h.tail ▸ h.chain.visits_back
  · rw [h.tail]
    rcases List.eq_nil_or_concat l with rfl | ⟨l, p, rfl⟩
    · rfl
    · simp [places]
  · rw [h.head]
    cases l <;> rfl
  · intro a ha
    rw [h.head] at ha
    cases l with
    | nil => cases ha
    | cons p l =>
      obtain rfl : p.1 = a := by simpa using ha
      exact ⟨_, _, h.chain.1⟩
  · intro a ha
    rw [h.tail] at ha
    rcases List.eq_nil_or_concat l with rfl | ⟨l, p, rfl⟩
    · cases ha
    · rw [List.concat_eq_append] at h ha
      obtain rfl : p.1 = a := by simpa using ha
      exact ⟨_, _, h.chain.links⟩
  · intro p hp
    obtain ⟨l₁, l₂, rfl⟩ := List.append_of_mem hp
    exact ⟨_, h.chain.links, rfl⟩

/-- **The linked list is a sequence.**  Whatever is called on a list that was created, no access
goes wrong, the list stays well formed, its items and all that was returned are those of the same
calls on a plain list, and `linked_list_get_index` returns the node at the index. -/
theorem run_refines (calls : List (Call ι)) :
    ∃ l s, Trace.run step calls create = .ok (s, (plainRun calls []).2) ∧
      WellFormed l s ∧ l.map Prod.snd = (plainRun calls []).1 ∧
      ∀ index, getIndex index s = .ok ((l[index]?).map Prod.fst, s) := by
  obtain ⟨l, s, hrun, hl, hitems⟩ := holds_create.run calls
  refine ⟨l, s, hrun, hl.wellFormed, hitems, fun index => ?_⟩
  obtain ⟨_, _, hget, rfl, rfl⟩ := returns_getIndex hl index
  rw [hget, places, List.getElem?_map]

end LinkedList
