/-
**What is observed of a run.**

Something is to be seen of some of the states of a run: a callback is called, or a reply is given.
What is seen in the course of some steps is the list of all this, in order.  A run from one state
to another is *observed* with such a list, and runs that follow each other are observed with one
list behind the other.

Main definitions:

* `Tracepoint.Machine.observed` — what is seen in the first steps of a run;
* `Tracepoint.Machine.Leads` — **steps lead from one state to another, with what is seen
  meanwhile**.

Main results:

* `Tracepoint.Machine.observed_add` — what is seen first comes first;
* `Tracepoint.Machine.observed_of_isOver` — what has been seen at the end is all;
* `Tracepoint.Machine.Leads.trans` — runs that follow each other.
-/

import Tracepoint.Proofs.Machine.Run

set_option relaxedAutoImplicit false
set_option autoImplicit false

namespace Tracepoint

variable {σ α : Type}

namespace Machine

/-- What is seen of the states before step `n`, in order. -/
def observed (m : Machine σ) (look : State σ → Option α) (s : State σ) (n : ℕ) : List α :=
  (List.range n).filterMap fun i => look (m.states s i)

/-- What is seen first comes first. -/
theorem observed_add (m : Machine σ) (look : State σ → Option α) (s : State σ) (n k : ℕ) :
    m.observed look s (n + k) = m.observed look s n ++ m.observed look (m.states s n) k := by
  simp only [observed, List.range_add, List.filterMap_append, List.filterMap_map]
  congr 2
  funext i
  simp only [Function.comp_apply, Nat.add_comm n i, states_add]

theorem observed_one (m : Machine σ) (look : State σ → Option α) (s : State σ) :
    m.observed look s 1 = (look s).toList := by
  cases h : look s <;> simp [observed, List.range_succ, h]

/-- If nothing is to be seen of states in which nothing is left to do, all has been seen when the
first of them is reached. -/
theorem observed_of_isOver {m : Machine σ} {look : State σ → Option α}
    (hlook : ∀ s : State σ, s.isOver = true → look s = none) {s : State σ} {n k : ℕ}
    (hover : (m.states s n).isOver = true) (h : n ≤ k) :
    m.observed look s k = m.observed look s n := by
  obtain ⟨d, rfl⟩ := Nat.exists_eq_add_of_le h
  have hnone : m.observed look (m.states s n) d = [] := by
    refine List.filterMap_eq_nil_iff.2 fun i _ => ?_
    rw [states_of_isOver hover]
    exact hlook _ hover
  rw [observed_add, hnone, List.append_nil]

/-- What has been seen at one end of a run has been seen at any other. -/
theorem observed_unique {m : Machine σ} {look : State σ → Option α}
    (hlook : ∀ s : State σ, s.isOver = true → look s = none) {s : State σ} {n k : ℕ}
    (hn : (m.states s n).isOver = true) (hk : (m.states s k).isOver = true) :
    m.observed look s n = m.observed look s k := by
  rcases Nat.le_total n k with h | h
  · exact (observed_of_isOver hlook hn h).symm
  · exact observed_of_isOver hlook hk h

/-- **`n` steps lead from one state to another**, and `xs` is what is seen meanwhile. -/
structure Leads (m : Machine σ) (look : State σ → Option α) (s : State σ) (n : ℕ) (xs : List α)
    (s' : State σ) : Prop where
  states : m.states s n = s'
  observed : m.observed look s n = xs

namespace Leads

variable {m : Machine σ} {look : State σ → Option α} {s s' s'' : State σ} {n k : ℕ}
  {xs ys : List α}

theorem refl (m : Machine σ) (look : State σ → Option α) (s : State σ) : m.Leads look s 0 [] s :=
  ⟨rfl, rfl⟩

/-- **Runs that follow each other** are one run, and what is seen in the first one comes first. -/
theorem trans (h : m.Leads look s n xs s') (h' : m.Leads look s' k ys s'') :
    m.Leads look s (n + k) (xs ++ ys) s'' := by
  obtain ⟨rfl, rfl⟩ := h
  obtain ⟨rfl, rfl⟩ := h'
  exact ⟨by rw [Nat.add_comm, states_add], m.observed_add look s n k⟩

theorem step (m : Machine σ) (look : State σ → Option α) (s : State σ) :
    m.Leads look s 1 (look s).toList (m.advance s) :=
  ⟨rfl, m.observed_one look s⟩

/-- A step at which nothing is to be seen. -/
theorem step_of_none (hs : look s = none) : m.Leads look s 1 [] (m.advance s) := by
  have h := step m look s
  rwa [hs] at h

end Leads

end Machine

end Tracepoint
