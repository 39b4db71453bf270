import Mathlib.Data.List.Induction
import Mathlib.Data.List.TakeWhile

/-!
# Machinery/Parameters — texts of parameters

A text of parameters is cut at a separator, where runs of separators count as one and may stand at
both ends (`Joins`), and a parameter is cut at its first equals sign.  A reader that goes through
the parameters and overwrites what it found ends with the last of each kind (`foldl_overwrite`).
-/

namespace Parameters

variable {α β : Type*} [DecidableEq α] {sep eq : α} {ps : List (List α)} {p word v text : List α}

/-! ## The parameters of a text -/

/-- What stands between the separators and is not empty. -/
def fields (sep : α) (text : List α) : List (List α) := (text.splitOn sep).filter (· ≠ [])

/-- **The text joins the parameters**: one separator or more between them, and any number before the
first and after the last. -/
inductive Joins (sep : α) : List (List α) → List α → Prop
  | nil : Joins sep [] []
  | last (p : List α) : Joins sep [p] p
  | separator {ps : List (List α)} {text : List α} (h : Joins sep ps text) :
    Joins sep ps (sep :: text)
  | cons (p : List α) {ps : List (List α)} {text : List α} (h : Joins sep ps text) :
    Joins sep (p :: ps) (p ++ sep :: text)

/-- **The parameters that were joined are found.** -/
theorem Joins.fields_eq (h : Joins sep ps text) (hps : ∀ p ∈ ps, p ≠ [] ∧ sep ∉ p) :
    fields sep text = ps := by
  induction h with
  | nil => rfl
  | last p =>
    obtain ⟨hne, hsep⟩ := hps p (List.mem_singleton_self p)
    simp [fields, List.splitOn_eq_singleton hsep, hne]
  | separator h ih =>
    rw [fields, List.splitOn_cons_eq_if_modifyHead, if_pos (beq_self_eq_true sep),
      List.filter_cons_of_neg (by simp)]
    exact ih hps
  | cons p h ih =>
    obtain ⟨hne, hsep⟩ := hps p (List.mem_cons_self ..)
    rw [fields, List.splitOn_append_cons_self_of_not_mem hsep,
      List.filter_cons_of_pos (by simpa using hne)]
    exact congrArg (p :: ·) (ih fun q hq => hps q (List.mem_cons_of_mem p hq))

/-! ## A parameter -/

/-- The name of a parameter: what stands before its first `eq`. -/
def name (eq : α) (p : List α) : List α := p.takeWhile (· ≠ eq)

/-- The value of a parameter: what stands after its first `eq`. -/
def value (eq : α) (p : List α) : List α := (p.dropWhile (· ≠ eq)).drop 1

theorem name_append (hword : eq ∉ word) (v : List α) : name eq (word ++ eq :: v) = word := by
  have hall : ∀ b ∈ word, decide (b ≠ eq) = true := fun b hb =>
    decide_eq_true fun h => hword (h ▸ hb)
  rw [name, List.takeWhile_append_of_pos hall, List.takeWhile_cons_of_neg (by simp),
    List.append_nil]

theorem value_append (hword : eq ∉ word) (v : List α) : value eq (word ++ eq :: v) = v := by
  have hall : ∀ b ∈ word, decide (b ≠ eq) = true := fun b hb =>
    decide_eq_true fun h => hword (h ▸ hb)
  rw [value, List.dropWhile_append_of_pos hall, List.dropWhile_cons_of_neg (by simp)]
  rfl

/-- **A parameter that starts with a name and `eq`** has the name, and a value. -/
theorem isPrefixOf_iff (hword : eq ∉ word) :
    (word ++ [eq]).isPrefixOf p = true ↔ name eq p = word ∧ eq ∈ p := by
  rw [List.isPrefixOf_iff_prefix]
  constructor
  · rintro ⟨v, rfl⟩
    rw [List.append_assoc, List.singleton_append, name_append hword]
    simp
  · rintro ⟨rfl, hmem⟩
    have hne : p.dropWhile (· ≠ eq) ≠ [] := by
      intro hnil
      simpa using List.dropWhile_eq_nil_iff.mp hnil eq hmem
    obtain ⟨b, rest, hrest⟩ := List.exists_cons_of_ne_nil hne
    have hb := List.head?_dropWhile_not (fun b => decide (b ≠ eq)) p
    rw [hrest] at hb
    obtain rfl : b = eq := by simpa using hb
    refine ⟨rest, ?_⟩
    rw [List.append_assoc, List.singleton_append, ← hrest]
    exact List.takeWhile_append_dropWhile

/-! ## The last of a kind -/

/-- **What is found last is kept.** -/
theorem foldl_overwrite {γ : Type*} (f : γ → Option β) (l : List γ) (found : Option β) :
    l.foldl (fun found a => (f a).or found) found = (l.filterMap f).getLast?.or found := by
  induction l using List.reverseRecOn with
  | nil => rfl
  | append_singleton l a ih =>
    rw [List.foldl_append, List.foldl_cons, List.foldl_nil, ih, List.filterMap_append]
    cases hf : f a <;> simp [hf]

/-- The same of two kinds at once. -/
theorem foldl_overwrite_pair {γ δ : Type*} (f : γ → Option β) (g : γ → Option δ) (l : List γ)
    (found : Option β × Option δ) :
    l.foldl (fun found a => ((f a).or found.1, (g a).or found.2)) found
      = ((l.filterMap f).getLast?.or found.1, (l.filterMap g).getLast?.or found.2) := by
  rw [← foldl_overwrite, ← foldl_overwrite]
  induction l generalizing found with
  | nil => rfl
  | cons a l ih => exact ih _

end Parameters
