/-
**What an activation reports next.**

Between two reports of an activation other activations may come and go: a function that is called,
or a generator that is asked for an item, with all that they call in turn.  The activation waits
meanwhile, and the pile below the others is left as it is.  So it goes on from where it was, with
what an instruction does when it is done with the one that it has waited for, or with the exception
that has left it.

The exchanges of an activation are therefore found by their depth: from its opening on, as long as
the thread is no lower, they are those at the depth of the opening.

Main definitions:

* `Tracepoint.Thread.FollowedBy` — what an activation reports next;
* `Tracepoint.Exchange.own` — **the exchanges of an activation**;
* `Tracepoint.Exchange.Succeeds` — an exchange is the next one of its activation;
* `Tracepoint.Exchange.Stands` — how a thread stands to the activation of an earlier exchange.

Main results:

* `Tracepoint.Exchange.stands_next`, `Tracepoint.Exchange.Stands.above_next` — one exchange, of the
  activation and above it;
* `Tracepoint.Activity.Course.isChain_own` — **the exchanges of an activation follow each other**.
-/

import Mathlib.Data.List.Chain
import Tracepoint.Proofs.Control.Bracket

set_option relaxedAutoImplicit false
set_option autoImplicit false

namespace Tracepoint

/-! ### What follows a report -/

namespace Thread

/-- **What an activation reports next** when nobody objects to its reports: it goes on, an exception
is sent on its way, or the activation that it was waiting for is over, with an exception or as the
last one of a generator. -/
inductive FollowedBy (t : Thread) (j : Juncture) : Activity → Prop
  | goes {a : Activity} (ha : t.Goes j a) : FollowedBy t j a
  | resolves {e : Exception} (hj : j = .raised e) : FollowedBy t j (t.route e)
  | meets {e : Exception} (hj : j.works = true) : FollowedBy t j (t.raise e)
  | stops {e : Exception} (hj : j.works = true)
      (ht : t.frame.Tells .stopIteration e.told .stopped) :
      FollowedBy t j (t.report .stopIteration e.told .stopped)

theorem FollowedBy.continues {t : Thread} {j : Juncture} {a : Activity} (h : t.FollowedBy j a) :
    t.Continues a := by
  cases h with
  | goes ha => exact ha.proceeds.continues
  | resolves => exact t.continues_route _
  | meets => exact (moves_refl t).continues_raise _
  | stops _ ht => exact (moves_refl t).continues_stop ht

/-- A thread is determined by its limit and its pile. -/
theorem eq_of_pile {t t' : Thread} (hlimit : t'.limit = t.limit) (hpile : t'.pile = t.pile) :
    t' = t := by
  obtain ⟨limit, top, below, depth, hdepth⟩ := t
  obtain ⟨limit', top', below', depth', hdepth'⟩ := t'
  obtain ⟨rfl, rfl⟩ := List.cons.inj hpile
  obtain rfl : limit' = limit := hlimit
  obtain rfl : depth' = depth := hdepth'.trans hdepth.symm
  rfl

theorem Moves.depth {t t' : Thread} (h : t.Moves t') : t'.depth = t.depth := by
  rw [t'.depth_eq, t.depth_eq, h.below]

theorem depth_of_pop? {t caller : Thread} (h : t.pop? = some caller) :
    caller.depth < t.depth := by
  rw [t.depth_eq, caller.depth_eq, (pile_of_pop? h).1, pile, List.length_cons]
  omega

theorem Enters.works {h : Heap} {t : Thread} {j : Juncture} {callee : Activation}
    (he : t.Enters h j callee) : j.works = true := by
  cases he <;> rfl

end Thread

namespace Exchange

/-! ### The exchanges of an activation -/

/-- **The exchanges of an activation** at a depth among those behind its opening: as long as the
thread is no lower, those at this depth. -/
def own (depth : ℕ) (xs : List Exchange) : List Exchange :=
  (xs.takeWhile fun x => depth ≤ x.thread.depth).filter fun x => x.thread.depth = depth

section Own

variable {d : ℕ} {x : Exchange}

theorem own_cons_of_eq (h : x.thread.depth = d) (xs : List Exchange) :
    own d (x :: xs) = x :: own d xs := by
  simp [own, h]

theorem own_cons_of_gt (h : d < x.thread.depth) (xs : List Exchange) :
    own d (x :: xs) = own d xs := by
  have hle : d ≤ x.thread.depth := by omega
  have hne : x.thread.depth ≠ d := by omega
  simp [own, hle, hne]

theorem own_cons_of_lt (h : x.thread.depth < d) (xs : List Exchange) : own d (x :: xs) = [] := by
  have hnot : ¬ d ≤ x.thread.depth := by omega
  simp [own, hnot]

end Own

/-- **An exchange is the next one of the activation** after another one. -/
structure Succeeds (y x : Exchange) : Prop where
  stays : y.closes = false
  follows : y.thread.FollowedBy y.juncture x.report

/-- **How a thread stands to an activation** after an exchange `y` of it: the activation is about to
make its next report, it waits for others above it, or it is gone. -/
inductive Stands (y : Exchange) : Activity → Prop
  | own {a : Activity} (hy : y.closes = false) (ha : y.thread.FollowedBy y.juncture a) : Stands y a
  | above {t : Thread} {o : Occurrence} {j : Juncture} (inner : List Activation)
      (hy : y.closes = false) (hj : y.juncture.works = true) (hlimit : t.limit = y.thread.limit)
      (hbelow : t.below = inner ++ y.thread.pile) : Stands y (.reporting t o j)
  | gone {a : Activity} (ha : ∀ t o j, a = .reporting t o j → t.depth < y.thread.depth) : Stands y a

/-- What the activation below reports has been left to it. -/
theorem Stands.of_continues {y : Exchange} {caller : Thread} {a : Activity}
    (hc : caller.Continues a) (hlt : caller.depth < y.thread.depth) : Stands y a := by
  refine .gone fun t o j ha => ?_
  obtain ⟨t', e, d, j', hmoves, -, -, rfl⟩ := hc
  obtain ⟨rfl, -, -⟩ := Activity.reporting.inj ha
  rw [hmoves.depth]
  exact hlt

/-- Others that go on stay above the activation. -/
theorem Stands.above_of_continues {y : Exchange} {t : Thread} {a : Activity}
    {inner : List Activation} (hy : y.closes = false) (hj : y.juncture.works = true)
    (hlimit : t.limit = y.thread.limit) (hbelow : t.below = inner ++ y.thread.pile)
    (hc : t.Continues a) : Stands y a := by
  obtain ⟨t', e, d, j, hmoves, -, -, rfl⟩ := hc
  exact .above inner hy hj (hmoves.limit.trans hlimit) (hmoves.below.trans hbelow)

section Next

variable {x : Exchange} (hr : x.thread.Reports x.occurrence x.juncture) (hok : x.answer = .ok ())
include hr hok

/-- **After an exchange of the activation** it goes on, waits, or is gone. -/
theorem stands_next : Stands x x.next := by
  have hturn := turn_next hr
  have hcloses := closes_eq hr
  generalize x.next = a at hturn
  cases hturn with
  | goes _ hj ha => exact .own (hcloses.trans hj) (.goes ha)
  | fails hfault =>
      rw [hok] at hfault
      cases hfault
  | @resolves e hj =>
      have hcarried : e.carried x.answer = e := by
        rw [hok]
        rfl
      rw [hcarried]
      refine .own (hcloses.trans ?_) (.resolves hj)
      rw [hj]
      rfl
  | enters _ he =>
      refine .above [] (hcloses.trans ?_) he.works rfl rfl
      rw [hok]
      exact he.closes_eq_false
  | leaves _ _ hp ha => exact .of_continues ha.proceeds.continues (Thread.depth_of_pop? hp)
  | stops _ _ _ hp ht =>
      exact .of_continues ((Thread.moves_refl _).continues_stop ht) (Thread.depth_of_pop? hp)
  | unwinds _ hp =>
      exact .of_continues ((Thread.moves_refl _).continues_raise _) (Thread.depth_of_pop? hp)
  | strays _ _ _ hp =>
      exact .of_continues ((Thread.moves_refl _).continues_raise _) (Thread.depth_of_pop? hp)
  | ends =>
      refine .gone fun t o j ha => ?_
      cases ha

/-- **After an exchange above the activation** it still waits, or goes on where it was. -/
theorem Stands.above_next {y : Exchange} {inner : List Activation} (hy : y.closes = false)
    (hj : y.juncture.works = true) (hlimit : x.thread.limit = y.thread.limit)
    (hbelow : x.thread.below = inner ++ y.thread.pile) : Stands y x.next := by
  have hturn := turn_next hr
  -- an activation that is left is the one that was waited for, or it was higher up the pile
  have left : ∀ {caller : Thread} {a : Activity}, x.thread.pop? = some caller →
      caller.Continues a → (caller = y.thread → y.thread.FollowedBy y.juncture a) →
      Stands y a := by
    intro caller a hp hc hfollows
    obtain ⟨hpile, hcaller⟩ := Thread.pile_of_pop? hp
    rw [hbelow] at hpile
    cases inner with
    | nil =>
        have heq := Thread.eq_of_pile (hcaller.trans hlimit) hpile.symm
        exact .own hy (hfollows heq)
    | cons b inner =>
        obtain ⟨-, hrest⟩ := List.cons.inj hpile
        exact .above_of_continues hy hj (hcaller.trans hlimit) hrest.symm hc
  generalize x.next = a at hturn
  cases hturn with
  | goes _ _ ha => exact .above_of_continues hy hj hlimit hbelow ha.proceeds.continues
  | fails hfault =>
      rw [hok] at hfault
      cases hfault
  | resolves => exact .above_of_continues hy hj hlimit hbelow (x.thread.continues_route _)
  | enters _ he =>
      refine .above (x.thread.top :: inner) hy hj hlimit ?_
      show x.thread.pile = _
      rw [Thread.pile, hbelow, List.cons_append]
  | leaves _ _ hp ha =>
      refine left hp ha.proceeds.continues ?_
      rintro rfl
      exact .goes (.works hj ha)
  | stops _ _ _ hp ht =>
      refine left hp ((Thread.moves_refl _).continues_stop ht) ?_
      rintro rfl
      exact .stops hj ht
  | unwinds _ hp =>
      refine left hp ((Thread.moves_refl _).continues_raise _) ?_
      rintro rfl
      exact .meets hj
  | strays _ _ _ hp =>
      refine left hp ((Thread.moves_refl _).continues_raise _) ?_
      rintro rfl
      exact .meets hj
  | ends _ hp =>
      rw [Thread.below_of_pop?_eq_none hp, Thread.pile] at hbelow
      simp at hbelow

end Next

end Exchange

namespace Activity

/-- **The exchanges of an activation follow each other**, whatever comes and goes in between. -/
theorem Course.isChain_own {a b : Activity} {xs : List Exchange} (h : Course a xs b)
    (ha : a.Sound) (hok : ∀ x ∈ xs, x.answer = .ok ()) {y : Exchange} (hy : y.Stands a) :
    List.IsChain Exchange.Succeeds (y :: Exchange.own y.thread.depth xs) := by
  induction h generalizing y with
  | refl a => exact List.isChain_singleton y
  | @step x xs b _ ih =>
      have hr : x.thread.Reports x.occurrence x.juncture := ha
      have hanswer := hok x (List.mem_cons_self ..)
      have hrest := fun {z : Exchange} (hz : z.Stands x.next) =>
        ih (Exchange.sound_next ha) (fun z hz => hok z (List.mem_cons_of_mem _ hz)) hz
      generalize hreport : x.report = a at hy
      cases hy with
      | own hstays hfollows =>
          have hdepth : x.thread.depth = y.thread.depth := by
            obtain ⟨t, _, _, _, hmoves, -, -, rfl⟩ := hfollows.continues
            obtain ⟨hthread, -, -⟩ := Activity.reporting.inj hreport
            rw [hthread, hmoves.depth]
          rw [Exchange.own_cons_of_eq hdepth, List.isChain_cons_cons, ← hdepth]
          exact ⟨⟨hstays, hreport ▸ hfollows⟩, hrest (Exchange.stands_next hr hanswer)⟩
      | above inner hstays hj hlimit hbelow =>
          obtain ⟨rfl, -, -⟩ := Activity.reporting.inj hreport
          have hdepth : y.thread.depth < x.thread.depth := by
            rw [x.thread.depth_eq, hbelow, y.thread.depth_eq, List.length_append, Thread.pile,
              List.length_cons]
            omega
          rw [Exchange.own_cons_of_gt hdepth]
          exact hrest (Exchange.Stands.above_next hr hanswer hstays hj hlimit hbelow)
      | gone hgone =>
          rw [Exchange.own_cons_of_lt (hgone _ _ _ hreport.symm)]
          exact List.isChain_singleton y

end Activity

end Tracepoint
