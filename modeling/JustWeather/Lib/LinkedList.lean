import JustWeather.CLib.Memory

/-!
# Lib/LinkedList — the doubly linked list

`linked_list.c` over a memory of nodes.  A function of the source is a computation that changes the
list and the memory, and can fault; where it takes a `free_function`, the items that function is
called on are part of what it returns.
-/

open CLib

/-- `Node`. -/
structure Node (ι : Type) where
  back : Option ℕ
  front : Option ℕ
  item : ι

/-- `LinkedList`.  There is no memory for more nodes than a `size_t` counts. -/
structure LinkedList where
  head : Option ℕ
  tail : Option ℕ
  size : ℕ

/-- A list, and the memory its nodes are in. -/
structure ListMemory (ι : Type) where
  list : LinkedList
  nodes : Memory (Node ι)

/-- A computation on a list that can fault. -/
abbrev ListM (ι : Type) := StateT (ListMemory ι) (Except Fault)

namespace LinkedList

variable {ι : Type}

/-! ## Nodes -/

/-- An access through a pointer to a node. -/
def deref (node : Option ℕ) : ListM ι (Node ι) := fun s =>
  match node with
  | none => .error .nullAccess
  | some b => (s.nodes.read b).map fun n => (n, s)

/-- `calloc(1, sizeof(Node))`, and `new_node->item = item`. -/
def calloc (item : ι) : ListM ι ℕ := fun s =>
  .ok (s.nodes.next, { s with nodes := (s.nodes.alloc ⟨none, none, item⟩).2 })

/-- An assignment to a field of a node. -/
def assign (b : ℕ) (f : Node ι → Node ι) : ListM ι Unit := fun s =>
  (s.nodes.read b).bind fun n => (s.nodes.write b (f n)).map fun nodes => ((), { s with nodes })

/-- `node->front = front`. -/
def setFront (b : ℕ) (front : Option ℕ) : ListM ι Unit := assign b fun n => { n with front }

/-- `node->back = back`. -/
def setBack (b : ℕ) (back : Option ℕ) : ListM ι Unit := assign b fun n => { n with back }

/-- `free(node)`. -/
def free (b : ℕ) : ListM ι Unit := fun s =>
  (s.nodes.free b).map fun nodes => ((), { s with nodes })

/-- An assignment to a field of the list. -/
def modifyList (f : LinkedList → LinkedList) : ListM ι Unit :=
  modify fun s => { s with list := f s.list }

/-- `if (back != NULL) { back->front = front; } else { list->head = front; }` -/
def linkFront (back front : Option ℕ) : ListM ι Unit :=
  match back with
  | some b => setFront b front
  | none => modifyList fun list => { list with head := front }

/-- `if (front != NULL) { front->back = back; } else { list->tail = back; }` -/
def linkBack (front back : Option ℕ) : ListM ι Unit :=
  match front with
  | some b => setBack b back
  | none => modifyList fun list => { list with tail := back }

/-- The node `LinkedList_foreach` comes to after that many turns, or `NULL` when it ends before. -/
def foreach : ℕ → Option ℕ → ListM ι (Option ℕ)
  | _, none => return none
  | 0, some b => return some b
  | n + 1, some b => do foreach n (← deref (some b)).front

/-! ## The operations -/

/-- `linked_list_create`, when there is memory for it. -/
def create : ListMemory ι := ⟨⟨none, none, 0⟩, Memory.empty⟩

/-- `while (pos < index) { cur = cur->front; pos++; }`, of that many turns. -/
def walkFront : ℕ → Option ℕ → ListM ι (Option ℕ)
  | 0, cur => return cur
  | n + 1, cur => do walkFront n (← deref cur).front

/-- `while (pos > index) { cur = cur->back; pos--; }`, of that many turns. -/
def walkBack : ℕ → Option ℕ → ListM ι (Option ℕ)
  | 0, cur => return cur
  | n + 1, cur => do walkBack n (← deref cur).back

/-- `linked_list_get_index`. -/
def getIndex (index : ℕ) : ListM ι (Option ℕ) := do
  let list := (← get).list
  if list.size ≤ index then return none
  else if index ≤ list.size / 2 then walkFront index list.head
  else walkBack (list.size - 1 - index) list.tail

/-- `linked_list_append`; `alloc` is whether there is memory for the node, here and below. -/
def append (alloc : Bool) (item : ι) : ListM ι ℤ := do
  if alloc then
    let newNode ← calloc item
    modifyList fun list => { list with size := list.size + 1 }
    match (← get).list.tail with
    | none => modifyList fun list => { list with head := some newNode }
    | some tail =>
      setBack newNode (some tail)
      setFront tail (some newNode)
    modifyList fun list => { list with tail := some newNode }
    return 0
  else return 1

/-- `linked_list_insert`. -/
def insert (alloc : Bool) (index : ℕ) (item : ι) : ListM ι ℤ := do
  if (← get).list.size ≤ index then append alloc item
  else
    match ← getIndex index with
    | none => return 1
    | some target =>
      if alloc then
        let newNode ← calloc item
        modifyList fun list => { list with size := list.size + 1 }
        setBack newNode (← deref (some target)).back
        setFront newNode (some target)
        linkFront (← deref (some target)).back (some newNode)
        setBack target (some newNode)
        return 0
      else return 1

/-- `linked_list_remove`: the code, and the item `free_function` is called on, if there is one. -/
def remove (dispose : Bool) (item : Option ℕ) : ListM ι (ℤ × List ι) := do
  match item with
  | none => return (1, [])
  | some b =>
    let node ← deref item
    linkFront node.back node.front
    linkBack node.front node.back
    modifyList fun list => { list with size := list.size - 1 }
    setBack b none
    setFront b none
    let value := (← deref item).item
    free b
    return (0, if dispose then [value] else [])

/-- `linked_list_pop`. -/
def pop (dispose : Bool) (index : ℕ) : ListM ι (ℤ × List ι) := do
  match ← getIndex index with
  | none => return (1, [])
  | some item => remove dispose (some item)

/-- `while (cur) { … }` of `linked_list_clear`.  A turn releases a node, so a loop of more turns
than there are nodes has come to one that was released. -/
def clearFrom (dispose : Bool) : ℕ → Option ℕ → ListM ι (List ι)
  | _, none => return []
  | 0, some _ => throw .notLive
  | fuel + 1, some cur => do
    let node ← deref (some cur)
    free cur
    let disposed ← clearFrom dispose fuel node.front
    return if dispose then node.item :: disposed else disposed

/-- `linked_list_clear`: the items `free_function` is called on. -/
def clear (dispose : Bool) : ListM ι (List ι) := do
  let s ← get
  let disposed ← clearFrom dispose s.nodes.next s.list.head
  modifyList fun _ => ⟨none, none, 0⟩
  return disposed

end LinkedList
