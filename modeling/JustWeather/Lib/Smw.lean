import JustWeather.Machinery.Keyed
import Mathlib.Data.List.Nodup

/-!
# Lib/Smw — the task list of the scheduler

`g_smw.tasks` is a list of tasks, each with the context its callback is called with.  A task has an
identity of its own, the handle `smw_create_task` returns: no two tasks ever created share one.
-/

/-- The handle of an `SmwTask`. -/
abbrev TaskHandle := ℕ

/-- An `SmwTask`: its handle and the context of its callback, out of a type `κ` of contexts. -/
structure SmwTask (κ : Type) where
  handle : TaskHandle
  context : κ

/-- `Smw`: the tasks in registration order, and the handle the next one gets. -/
structure Smw (κ : Type) where
  tasks : List (SmwTask κ)
  next : TaskHandle
  tasks_lt : ∀ t ∈ tasks, t.handle < next
  tasks_nodup : (tasks.map SmwTask.handle).Nodup

namespace Smw

variable {κ : Type}

/-- `smw_init`: no tasks. -/
def init : Smw κ := ⟨[], 0, by simp, by simp⟩

/-- `smw_create_task`: the task and its list node are two allocations, and without both there is no
task. -/
def createTask (taskOk nodeOk : Bool) (context : κ) (smw : Smw κ) : Option TaskHandle × Smw κ :=
  if taskOk && nodeOk then
    (some smw.next,
      { tasks := smw.tasks ++ [⟨smw.next, context⟩]
        next := smw.next + 1
        tasks_lt := by
          intro t ht
          rcases List.mem_append.mp ht with ht | ht
          · exact Nat.lt_succ_of_lt (smw.tasks_lt t ht)
          · obtain rfl := List.mem_singleton.mp ht
            exact Nat.lt_succ_self _
        tasks_nodup := by
          rw [List.map_append, List.nodup_append]
          refine ⟨smw.tasks_nodup, List.nodup_singleton _, ?_⟩
          intro h hh next hnext
          obtain ⟨t, ht, rfl⟩ := List.mem_map.mp hh
          rw [List.map_singleton, List.mem_singleton] at hnext
          exact hnext ▸ Nat.ne_of_lt (smw.tasks_lt t ht) })
  else (none, smw)

/-- `smw_destroy_task`: the first node that holds the task is removed. -/
def destroyTask (task : Option TaskHandle) (smw : Smw κ) : Smw κ :=
  match task with
  | none => smw
  | some h =>
    { smw with
      tasks := smw.tasks.eraseP (·.handle == h)
      tasks_lt := fun t ht => smw.tasks_lt t (List.mem_of_mem_eraseP ht)
      tasks_nodup := smw.tasks_nodup.sublist (List.eraseP_sublist.map _) }

theorem mem_of_mem_destroyTask {task : Option TaskHandle} {smw : Smw κ} {t : SmwTask κ}
    (ht : t ∈ (smw.destroyTask task).tasks) : t ∈ smw.tasks := by
  cases task with
  | none => exact ht
  | some h => exact List.mem_of_mem_eraseP ht

/-- A task that was destroyed is gone: no two nodes hold it. -/
theorem handle_ne_of_mem_destroyTask {h : TaskHandle} {smw : Smw κ} {t : SmwTask κ}
    (ht : t ∈ (smw.destroyTask (some h)).tasks) : t.handle ≠ h :=
  Keyed.ne_of_mem_eraseP smw.tasks_nodup (fun _ => beq_iff_eq) ht

theorem mem_createTask {taskOk nodeOk : Bool} {context : κ} {smw : Smw κ} {t : SmwTask κ}
    (ht : t ∈ (smw.createTask taskOk nodeOk context).2.tasks) :
    t ∈ smw.tasks ∨ t = ⟨smw.next, context⟩ := by
  rw [createTask] at ht
  split at ht
  · simpa using ht
  · exact Or.inl ht

end Smw
