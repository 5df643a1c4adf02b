import IBotCoreApi.Library.Runs
import Mathlib.Data.List.Perm.Basic

namespace Redelivery

variable {σ μ ι : Type*}

/-- A queue, and the state that its worker changes. -/
structure System (σ μ : Type*) where
  state : σ
  queue : List μ

structure Delivery (ι : Type*) where
  position : ℕ
  input : ι
  acknowledged : Bool

/-- The messages that a worker publishes when it gets one, and the state that it leaves. -/
abbrev Worker (σ μ ι : Type*) := μ → ι → σ → List μ × σ

def deliver (worker : Worker σ μ ι) : Runs.Machine (System σ μ) (Delivery ι) (Option μ) :=
  fun system delivery =>
    match system.queue[delivery.position]? with
    | none => (none, system)
    | some message =>
      let (published, state) := worker message delivery.input system.state
      let kept :=
        if delivery.acknowledged then system.queue.eraseIdx delivery.position else system.queue
      (some message, ⟨state, kept ++ published⟩)

variable {worker : Worker σ μ ι} {system : System σ μ} {delivery : Delivery ι} {message : μ}

theorem deliver_of_none (h : system.queue[delivery.position]? = none) :
    (deliver worker system delivery).2 = system := by
  simp only [deliver, h]

theorem deliver_of_some (h : system.queue[delivery.position]? = some message) :
    (deliver worker system delivery).2.state =
      (worker message delivery.input system.state).2 := by
  simp only [deliver, h]

/-- What waits after a delivery waited before, or the worker has published it. -/
theorem mem_queue_deliver {waiting : μ} (h : waiting ∈ (deliver worker system delivery).2.queue) :
    waiting ∈ system.queue ∨ ∃ message, system.queue[delivery.position]? = some message ∧
      waiting ∈ (worker message delivery.input system.state).1 := by
  cases hmessage : system.queue[delivery.position]? with
  | none =>
    rw [deliver_of_none hmessage] at h
    exact .inl h
  | some message =>
    simp only [deliver, hmessage] at h
    rcases List.mem_append.mp h with hkept | hpublished
    · split at hkept
      · exact .inl (List.mem_of_mem_eraseIdx hkept)
      · exact .inl hkept
    · exact .inr ⟨message, rfl, hpublished⟩

theorem perm_queue_deliver (hmessage : system.queue[delivery.position]? = some message)
    (hack : delivery.acknowledged = true)
    (hnone : (worker message delivery.input system.state).1 = []) :
    (message :: (deliver worker system delivery).2.queue).Perm system.queue := by
  obtain ⟨hposition, rfl⟩ := List.getElem?_eq_some_iff.mp hmessage
  simp only [deliver, hmessage, hack, if_true, hnone, List.append_nil]
  exact List.getElem_cons_eraseIdx_perm hposition

variable (worker) in
theorem deliver_single (hqueue : system.queue = [message]) (hack : delivery.acknowledged = true) :
    (deliver worker system delivery).2 = system ∨
      ((deliver worker system delivery).2 =
        ⟨(worker message delivery.input system.state).2,
          (worker message delivery.input system.state).1⟩) := by
  cases hposition : delivery.position with
  | zero =>
    right
    simp only [deliver, hqueue, hposition, hack, List.getElem?_cons_zero, if_true,
      List.eraseIdx_cons_zero, List.nil_append]
  | succ position =>
    left
    exact deliver_of_none (by simp [hqueue, hposition])

end Redelivery
