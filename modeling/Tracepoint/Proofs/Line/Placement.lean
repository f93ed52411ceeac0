/-
**Where lines are reported.**

Every frame has a journal, and the journal decides whether the line of an instruction is reported.
The frames of a run are told apart by where they sit: a frame of a generator sits with the
generator, wherever it is run, and any other one at a place in a pile.  At one place many frames sit
one after the other, and each of them begins a new journal when it is entered first.

The argument goes along the steps of a run.  An answer is written into the journal of the frame that
has reported; all other frames that run, wait or are suspended sit elsewhere, since no generator has
its frame in two places.  So the journals of those agree as before, and that of the frame which
reports next agrees too.

Main definitions:

* `Tracepoint.Seat` — where frames sit;
* `Tracepoint.Machine.journal` — **the journals of a run**;
* `Tracepoint.State.Recounted` — all journals agree;
* `Tracepoint.Exchange.Places` — **the rule of lines**, for one report.

Main results:

* `Tracepoint.Thread.seat_notMem` — no two frames sit in one place;
* `Tracepoint.Machine.recounted_advance` — one step;
* `Tracepoint.Activity.Course.determined` — what is reported depends on answers and heaps alone;
* `Tracepoint.Machine.lines_placed` — **lines are reported where the rule says**, in every run.
-/

import Tracepoint.Proofs.Control.Reconstruction
import Tracepoint.Proofs.Generator.Progress
import Tracepoint.Proofs.Line.Journal

set_option relaxedAutoImplicit false
set_option autoImplicit false

namespace Tracepoint

variable {σ : Type}

/-! ### Seats -/

/-- **Where a frame sits**: with its generator, or in the pile of a thread, over so many threads and
so many activations. -/
inductive Seat where
  | generator (g : ℕ)
  | place (rank depth : ℕ)
  deriving DecidableEq

/-- The seat of an activation that has so many threads and so many activations below it. -/
def Activation.seat (rank depth : ℕ) (a : Activation) : Seat :=
  a.generator.elim (.place rank depth) .generator

/-- The seat of the activation on top of a thread. -/
def Thread.seat (rank : ℕ) (t : Thread) : Seat := t.top.seat rank t.below.length

namespace Seat

/-- The seats of a pile of activations. -/
def ofPile (rank : ℕ) : List Activation → List Seat
  | [] => []
  | a :: below => a.seat rank below.length :: ofPile rank below

/-- The seats of what a thread is doing. -/
def ofActivity (rank : ℕ) : Activity → List Seat
  | .reporting t _ _ => ofPile rank t.pile
  | .finished _ => []

/-- The seats of threads, each of which has the following ones below it. -/
def ofActivities : List Activity → List Seat
  | [] => []
  | a :: rest => ofActivity rest.length a ++ ofActivities rest

theorem mem_ofPile {q : Seat} {rank : ℕ} {pile : List Activation} (h : q ∈ ofPile rank pile) :
    (∃ g ∈ pile.filterMap Activation.generator, q = .generator g) ∨
      ∃ depth < pile.length, q = .place rank depth := by
  induction pile with
  | nil => cases h
  | cons a below ih =>
      rcases List.mem_cons.1 h with rfl | h
      · cases hg : a.generator with
        | none => exact Or.inr ⟨below.length, by simp, by rw [Activation.seat, hg]; rfl⟩
        | some g => exact Or.inl ⟨g, by simp [hg], by rw [Activation.seat, hg]; rfl⟩
      · rcases ih h with ⟨g, hg, rfl⟩ | ⟨depth, hlt, rfl⟩
        · refine Or.inl ⟨g, ?_, rfl⟩
          rw [List.filterMap_cons]
          split
          · exact hg
          · exact List.mem_cons_of_mem _ hg
        · exact Or.inr ⟨depth, by rw [List.length_cons]; omega, rfl⟩

theorem mem_ofActivities {q : Seat} {as : List Activity} (h : q ∈ ofActivities as) :
    (∃ g ∈ as.flatMap Activity.owners, q = .generator g) ∨
      ∃ rank < as.length, ∃ depth, q = .place rank depth := by
  induction as with
  | nil => cases h
  | cons a rest ih =>
      rw [List.flatMap_cons, List.length_cons]
      rcases List.mem_append.1 h with h | h
      · cases a with
        | finished r => cases h
        | reporting t o j =>
            rcases mem_ofPile h with ⟨g, hg, rfl⟩ | ⟨depth, -, rfl⟩
            · exact Or.inl ⟨g, List.mem_append_left _ hg, rfl⟩
            · exact Or.inr ⟨rest.length, by omega, depth, rfl⟩
      · rcases ih h with ⟨g, hg, rfl⟩ | ⟨rank, hlt, depth, rfl⟩
        · exact Or.inl ⟨g, List.mem_append_right _ hg, rfl⟩
        · exact Or.inr ⟨rank, by omega, depth, rfl⟩

end Seat

namespace Thread

theorem seat_of_none {t : Thread} (h : t.top.generator = none) (rank : ℕ) :
    t.seat rank = .place rank t.below.length := by
  rw [seat, Activation.seat, h]
  rfl

theorem seat_of_some {t : Thread} {g : ℕ} (h : t.top.generator = some g) (rank : ℕ) :
    t.seat rank = .generator g := by
  rw [seat, Activation.seat, h]
  rfl

theorem Moves.seat {t t' : Thread} (h : t.Moves t') (rank : ℕ) : t'.seat rank = t.seat rank := by
  rw [Thread.seat, Thread.seat, Activation.seat, Activation.seat, h.generator, h.below]

/-- **No two frames sit in one place**: none below, and none in the threads below. -/
theorem seat_notMem {t : Thread} {rest : List Activity}
    (h : (t.owners ++ rest.flatMap Activity.owners).Nodup) :
    t.seat rest.length ∉ Seat.ofPile rest.length t.below ∧
      t.seat rest.length ∉ Seat.ofActivities rest := by
  cases hg : t.top.generator with
  | none =>
      rw [seat_of_none hg]
      refine ⟨fun hmem => ?_, fun hmem => ?_⟩
      · rcases Seat.mem_ofPile hmem with ⟨_, _, hseat⟩ | ⟨depth, hlt, hseat⟩
        · cases hseat
        · cases hseat
          omega
      · rcases Seat.mem_ofActivities hmem with ⟨_, _, hseat⟩ | ⟨rank, hlt, _, hseat⟩
        · cases hseat
        · cases hseat
          omega
  | some g =>
      rw [seat_of_some hg]
      rw [owners_of_some hg, List.cons_append, List.nodup_cons, List.mem_append, not_or] at h
      obtain ⟨⟨hbelow, hrest⟩, -⟩ := h
      refine ⟨fun hmem => ?_, fun hmem => ?_⟩
      · rcases Seat.mem_ofPile hmem with ⟨_, hg', hseat⟩ | ⟨_, _, hseat⟩
        · cases hseat
          exact hbelow hg'
        · cases hseat
      · rcases Seat.mem_ofActivities hmem with ⟨_, hg', hseat⟩ | ⟨_, _, _, hseat⟩
        · cases hseat
          exact hrest hg'
        · cases hseat

end Thread

/-! ### The journals of a run -/

/-- The journal behind which a report is made: a frame that starts has not reported anything. -/
def Exchange.past (xs : List Exchange) (o : Occurrence) : List Exchange :=
  if o.event = .frameStart then [] else xs

/-- The journals when an exchange has been made above so many threads. -/
def Exchange.recorded (x : Exchange) (rank : ℕ) (journal : Seat → List Exchange) :
    Seat → List Exchange :=
  Function.update journal (x.thread.seat rank)
    (past (journal (x.thread.seat rank)) x.occurrence ++ [x])

/-- **Exchanges are those of one frame**, that of an activation, from its start on. -/
structure Exchange.AreOf (xs : List Exchange) (a : Activation) : Prop where
  address : ∀ x ∈ xs, x.thread.frame.address = a.frame.address
  code : ∀ x ∈ xs, x.thread.frame.code = a.frame.code
  generator : ∀ x ∈ xs, x.thread.top.generator = a.generator
  start : ∀ x later, xs = x :: later → x.event = .frameStart ∧ ∀ y ∈ later, y.event ≠ .frameStart

/-- The number of threads below the innermost one. -/
def State.rank (s : State σ) : ℕ := s.activities.tail.length

/-- **The journal of each seat** before step `n`: the exchanges of the frame that sits there or has
sat there last, from its start on. -/
def Machine.journal (m : Machine σ) (s : State σ) : ℕ → Seat → List Exchange
  | 0 => fun _ => []
  | n + 1 =>
      match m.exchange? (m.states s n) with
      | none => m.journal s n
      | some x => x.recorded (m.states s n).rank (m.journal s n)

namespace Exchange

section Own

variable {xs : List Exchange} {x : Exchange} {a : Activation} {o : Occurrence}

theorem areOf_nil (a : Activation) : AreOf [] a :=
  ⟨List.forall_mem_nil _, List.forall_mem_nil _, List.forall_mem_nil _,
    fun _ _ h => absurd h.symm (List.cons_ne_nil _ _)⟩

/-- The exchanges of a frame that goes on are its exchanges still. -/
theorem AreOf.moves {t t' : Thread} (h : AreOf xs t.top) (hm : t.Moves t') : AreOf xs t'.top :=
  ⟨fun x hx => (h.address x hx).trans hm.frame.address.symm,
    fun x hx => (h.code x hx).trans hm.frame.code.symm,
    fun x hx => (h.generator x hx).trans hm.generator.symm, h.start⟩

/-- One exchange more of the frame. -/
theorem AreOf.concat (h : AreOf xs x.thread.top) (hstart : xs = [] ↔ x.event = .frameStart) :
    AreOf (xs ++ [x]) x.thread.top := by
  have all : ∀ {P : Exchange → Prop}, (∀ y ∈ xs, P y) → P x → ∀ y ∈ xs ++ [x], P y := by
    intro P hxs hx
    exact List.forall_mem_append.2 ⟨hxs, List.forall_mem_singleton.2 hx⟩
  refine ⟨all h.address rfl, all h.code rfl, all h.generator rfl, fun y later heq => ?_⟩
  cases xs with
  | nil =>
      obtain ⟨rfl, rfl⟩ := List.cons.inj heq
      exact ⟨hstart.1 rfl, List.forall_mem_nil _⟩
  | cons z xs =>
      obtain ⟨rfl, rfl⟩ := List.cons.inj heq
      obtain ⟨hz, hlater⟩ := h.start z xs rfl
      refine ⟨hz, List.forall_mem_append.2 ⟨hlater, List.forall_mem_singleton.2 ?_⟩⟩
      exact fun hx => List.cons_ne_nil _ _ (hstart.2 hx)

theorem past_of_start (ho : o.event = .frameStart) : past xs o = [] := if_pos ho

theorem past_of_ne (ho : o.event ≠ .frameStart) : past xs o = xs := if_neg ho

end Own

end Exchange

/-! ### Journals that agree -/

section Agreeing

/-- Journals agree with activations that wait. -/
def AllAwait (journal : Seat → List Exchange) (rank : ℕ) : List Activation → Prop
  | [] => True
  | a :: below =>
      (Exchange.Awaits (journal (a.seat rank below.length)) a ∧
          Exchange.AreOf (journal (a.seat rank below.length)) a) ∧
        AllAwait journal rank below

/-- **A journal agrees with what its frame reports next**, and is that of the frame. -/
structure Exchange.Precedes (xs : List Exchange) (t : Thread) (o : Occurrence) (j : Juncture) :
    Prop where
  recounts : Recounts xs t o j
  areOf : AreOf xs t.top
  start : xs = [] ↔ o.event = .frameStart

/-- Journals agree with all frames of a thread. -/
def Activity.Recounted (journal : Seat → List Exchange) (rank : ℕ) : Activity → Prop
  | .reporting t o j =>
      Exchange.Precedes (Exchange.past (journal (t.seat rank)) o) t o j ∧
        AllAwait journal rank t.below
  | .finished _ => True

/-- Journals agree with all frames in piles. -/
def AllRecounted (journal : Seat → List Exchange) : List Activity → Prop
  | [] => True
  | a :: rest => a.Recounted journal rest.length ∧ AllRecounted journal rest

/-- **A journal agrees with a frame that is suspended**: it remembers no line if it has never run,
and otherwise the latest one, and its yield was the last that it has reported. -/
structure Rests (xs : List Exchange) (a : Activation) : Prop where
  jumped : a.frame.jumped = false
  fresh : a.frame.started = false → a.frame.lastLine = none
  memory : a.frame.started = true → a.frame.lastLine = Exchange.latestLine xs
  yielded : a.frame.started = true → ∃ before y, xs = before ++ [y] ∧ y.event = .frameYield
  areOf : a.frame.started = true → Exchange.AreOf xs a

/-- **All journals agree** in a state. -/
structure State.Recounted (journal : Seat → List Exchange) (s : State σ) : Prop where
  activities : AllRecounted journal s.activities
  suspended : ∀ g f, s.world.heap.generatorState g = .suspended f →
    Rests (journal (.generator g)) ⟨f, some g⟩

variable {journal journal' : Seat → List Exchange} {rank : ℕ}

/-- Only the journals of those who wait matter. -/
theorem AllAwait.congr {pile : List Activation} (h : AllAwait journal rank pile)
    (hsame : ∀ q ∈ Seat.ofPile rank pile, journal' q = journal q) :
    AllAwait journal' rank pile := by
  induction pile with
  | nil => trivial
  | cons a below ih =>
      refine ⟨?_, ih h.2 fun q hq => hsame q (List.mem_cons_of_mem _ hq)⟩
      rw [hsame _ (List.mem_cons_self ..)]
      exact h.1

/-- Only the journals of those in piles matter. -/
theorem AllRecounted.congr {as : List Activity} (h : AllRecounted journal as)
    (hsame : ∀ q ∈ Seat.ofActivities as, journal' q = journal q) :
    AllRecounted journal' as := by
  induction as with
  | nil => trivial
  | cons a rest ih =>
      have hfirst := fun q hq => hsame q (List.mem_append_left _ hq)
      refine ⟨?_, ih h.2 fun q hq => hsame q (List.mem_append_right _ hq)⟩
      cases a with
      | finished r => trivial
      | reporting t o j =>
          refine ⟨?_, h.1.2.congr fun q hq => hfirst q (List.mem_cons_of_mem _ hq)⟩
          have htop : journal' (t.seat rest.length) = journal (t.seat rest.length) :=
            hfirst _ (List.mem_cons_self ..)
          rw [htop]
          exact h.1.1

/-- A frame that starts agrees with any journal. -/
theorem rests_start {a : ℕ} {code : Code} {args : List Value} {f : Frame}
    (h : Frame.start a code args = .ok f) (xs : List Exchange) (generator : Option ℕ) :
    Rests xs ⟨f, generator⟩ := by
  unfold Frame.start at h
  split at h
  · cases h
    exact ⟨rfl, fun _ => rfl, nofun, nofun, nofun⟩
  · cases h

/-- A frame that goes on from where it was suspended agrees with its journal. -/
theorem Rests.precedes_enter {xs : List Exchange} {t t' : Thread} {o : Occurrence} {j : Juncture}
    (h : Rests xs t.top) (henter : t.enter = .reporting t' o j) :
    Exchange.Precedes (Exchange.past xs o) t' o j := by
  have hevent : o.event = if t.frame.started then .frameResume else .frameStart := by
    cases henter
    rfl
  cases hs : t.frame.started with
  | false =>
      rw [hs, if_neg Bool.false_ne_true] at hevent
      rw [Exchange.past_of_start hevent]
      refine ⟨?_, Exchange.areOf_nil _, fun _ => hevent, fun _ => rfl⟩
      have hlast : t.frame.lastLine = Exchange.latestLine [] := h.fresh hs
      refine Exchange.recounts_enter hlast h.jumped (fun before y hxs => ?_) henter
      simp at hxs
  | true =>
      rw [hs, if_pos rfl] at hevent
      have hne : o.event ≠ .frameStart := by
        rw [hevent]
        exact nofun
      obtain ⟨before, y, rfl, hy⟩ := h.yielded hs
      have hown := h.areOf hs
      rw [Exchange.past_of_ne hne]
      refine ⟨?_, ?_, fun hnil => by simp at hnil, fun hno => absurd hno hne⟩
      · have hlast : t.frame.lastLine = Exchange.latestLine (before ++ [y]) := h.memory hs
        refine Exchange.recounts_enter hlast h.jumped (fun before' y' hxs => ?_) henter
        rw [← List.head_eq_of_cons_eq (List.append_inj' hxs rfl).2]
        exact hy
      · cases henter
        exact ⟨hown.address, hown.code, hown.generator, hown.start⟩

end Agreeing

/-! ### One step -/

section Exchanging

variable {journal : Seat → List Exchange} {rank : ℕ} {x : Exchange}

theorem Exchange.recorded_self :
    x.recorded rank journal (x.thread.seat rank) =
      past (journal (x.thread.seat rank)) x.occurrence ++ [x] :=
  Function.update_self ..

theorem Exchange.recorded_of_ne {q : Seat} (hq : q ≠ x.thread.seat rank) :
    x.recorded rank journal q = journal q :=
  Function.update_of_ne hq ..

/-- A frame that goes on has started before. -/
theorem Exchange.event_ne_of_tells {f : Frame} {e : Event} {d : Detail} {j : Juncture}
    (h : f.Tells e d j) (hj : j ≠ .entered) : e ≠ .frameStart := by
  intro he
  have hopens := (Thread.opensFrame_iff h).1 (by rw [he]; rfl)
  exact hj hopens

/-- The frame of an activation that comes on top starts, or agrees with its journal. -/
theorem Thread.Enters.rests {callee : Activation}
    (he : x.thread.Enters x.heap x.juncture callee)
    (hsuspended : ∀ g f, x.heap.generatorState g = .suspended f →
      Seat.generator g ≠ x.thread.seat rank ∧ Rests (journal (.generator g)) ⟨f, some g⟩) :
    Rests (x.recorded rank journal ((x.thread.push callee).seat rank)) callee := by
  generalize x.juncture = j at he
  cases he with
  | call _ _ _ _ hf => exact rests_start hf _ _
  | @loop _ _ g _ f _ _ _ _ hg =>
      obtain ⟨hne, hrests⟩ := hsuspended g f hg
      rw [Thread.seat_of_some rfl, Exchange.recorded_of_ne hne]
      exact hrests

/-- **The frames of a thread that goes on** agree with their journals, if none of those that wait
and none that are suspended sit where the frame sits that has reported. -/
theorem Activity.Recounted.next (h : x.report.Recounted journal rank) (hx : x.report.Valid)
    (hbelow : x.thread.seat rank ∉ Seat.ofPile rank x.thread.below)
    (hsuspended : ∀ g f, x.heap.generatorState g = .suspended f →
      Seat.generator g ≠ x.thread.seat rank ∧ Rests (journal (.generator g)) ⟨f, some g⟩) :
    x.next.Recounted (x.recorded rank journal) rank := by
  have hr : x.thread.Reports x.occurrence x.juncture := hx.1
  obtain ⟨⟨hrecounts, hown, hstart⟩, hawait⟩ : Exchange.Precedes
      (Exchange.past (journal (x.thread.seat rank)) x.occurrence) x.thread x.occurrence x.juncture ∧
        AllAwait journal rank x.thread.below := h
  have hown' := hown.concat hstart
  have hkept : AllAwait (x.recorded rank journal) rank x.thread.below := by
    refine hawait.congr fun q hq => Exchange.recorded_of_ne ?_
    rintro rfl
    exact hbelow hq
  have hshift := (Exchange.turn_next hr).shift
  generalize hnext : x.next = a at hshift
  cases hshift with
  | stays hstays hc =>
      obtain ⟨t, e, d, j, hmoves, ht, hj, rfl⟩ := hc
      have hne := Exchange.event_ne_of_tells ht hj
      refine ⟨?_, ?_⟩
      · rw [Exchange.past_of_ne hne, hmoves.seat, Exchange.recorded_self]
        exact ⟨hrecounts.next hx hstays hnext hj, hown'.moves hmoves,
          fun hnil => by simp at hnil, fun hno => absurd hno hne⟩
      · rw [hmoves.below]
        exact hkept
  | @enters callee hok he =>
      have hrests := he.rests hsuspended
      refine ⟨Rests.precedes_enter (t := x.thread.push callee) hrests rfl, ?_, hkept⟩
      have hseat : x.thread.top.seat rank x.thread.below.length = x.thread.seat rank := rfl
      rw [hseat, Exchange.recorded_self]
      exact ⟨hrecounts.awaits hr hok he, hown'⟩
  | @leaves caller _ hcloses hp hc =>
      obtain ⟨t, e, d, j, hmoves, ht, hj, rfl⟩ := hc
      have hne := Exchange.event_ne_of_tells ht hj
      rw [(Thread.pile_of_pop? hp).1] at hkept
      obtain ⟨⟨hwaited, hcaller⟩, hbelow'⟩ := hkept
      refine ⟨?_, ?_⟩
      · rw [Exchange.past_of_ne hne, hmoves.seat]
        refine ⟨hwaited.recounts hx hcloses hp hnext, hcaller.moves hmoves, fun hnil => ?_,
          fun hno => absurd hno hne⟩
        obtain ⟨before, y, hxs, -⟩ := hwaited.last
        have hempty : before ++ [y] = [] := hxs.symm.trans hnil
        simp at hempty
      · rw [hmoves.below]
        exact hbelow'
  | ends => trivial

/-- **What an exchange leaves suspended** agrees with its journal. -/
theorem rests_resume (hx : x.report.Valid) (h : x.report.Recounted journal rank)
    (hsuspended : ∀ g f, x.heap.generatorState g = .suspended f →
      Seat.generator g ≠ x.thread.seat rank ∧ Rests (journal (.generator g)) ⟨f, some g⟩)
    {g : ℕ} {f : Frame}
    (hf : (x.thread.resume x.heap x.juncture x.answer).1.generatorState g = .suspended f) :
    Rests (x.recorded rank journal (.generator g)) ⟨f, some g⟩ := by
  have hr : x.thread.Reports x.occurrence x.juncture := hx.1
  have hpassage := Thread.passage_resume (h := x.heap) hr x.answer
  rcases hpassage.evolves.suspended g f hf with hold | ⟨-, a, code, args, -, -, hstart⟩ | hput
  · obtain ⟨hne, hrests⟩ := hsuspended g f hold
    rw [Exchange.recorded_of_ne hne]
    exact hrests
  · exact rests_start hstart _ _
  · -- the frame has just yielded
    obtain ⟨hg, ⟨v, hj⟩, -, rfl⟩ := hput
    have hstarted : x.thread.frame.advance.started = true := Awaiting.started hr.sound
    have hevent : x.event = .frameYield := (Exchange.tells_juncture hr hj).at_yielding.1
    have hown := h.1.areOf.concat h.1.start
    rw [← Thread.seat_of_some hg rank, Exchange.recorded_self]
    refine ⟨rfl, fun hno => ?_, fun _ => h.1.recounts.lastLine_eq,
      fun _ => ⟨_, x, rfl, hevent⟩, fun _ => ?_⟩
    · rw [hstarted] at hno
      cases hno
    · exact ⟨hown.address, hown.code, fun y hy => (hown.generator y hy).trans hg, hown.start⟩

end Exchanging

namespace Machine

/-- **Journals go on agreeing** in every step. -/
theorem recounted_advance {m : Machine σ} {s : State σ} {journal : Seat → List Exchange}
    (h : s.Recounted journal) (hs : s.Valid) (ha : s.world.heap.Accounts s.owners) :
    (m.advance s).Recounted (match m.exchange? s with
      | none => journal
      | some x => x.recorded s.rank journal) := by
  have hstride := m.stride_advance s
  generalize m.advance s = s' at hstride
  cases hstride with
  | aside hx _ hgenerators hactivities =>
      rw [hx]
      refine ⟨?_, fun g f hf => h.suspended g f ?_⟩
      · have hall := h.activities
        rcases hactivities with he | ⟨r, he⟩
        · rwa [he] at hall
        · rw [he] at hall
          exact hall.2
      · rw [Heap.generatorState, ← hgenerators]
        exact hf
  | @call limit callable args k hf =>
      have hx : m.exchange? s = none := by simp [exchange?, hf]
      have hrunning : s.activities = s.levels.filterMap Level.activity? := by
        rw [State.activities, hf]
        rfl
      rw [hx]
      refine ⟨⟨?_, ?_⟩, fun g f hf => ?_⟩
      · show (Activity.call s.world.heap limit callable args).2.Recounted _ _
        rcases Activity.call_cases s.world.heap limit callable args with
          ⟨r, hr, -⟩ | ⟨_, _, f, -, -, -, hstart, -, henter⟩
        · rw [hr]
          trivial
        · have hrests := rests_start hstart
          rw [henter]
          exact ⟨Rests.precedes_enter (t := Thread.start limit ⟨f, none⟩) (hrests _ none) rfl,
            trivial⟩
      · have hall := h.activities
        rwa [hrunning] at hall
      · rcases (Activity.evolves_call s.world.heap limit callable args).suspended g f hf with
          hold | ⟨-, _, _, _, -, -, hstart⟩ | hno
        · exact h.suspended g f hold
        · exact rests_start hstart _ _
        · exact hno.elim
  | @exchange x levels k hx hheap hactivities hl =>
      rw [hx]
      have hvalid := hs.report hx
      have hall := h.activities
      have hrank : s.rank = (levels.filterMap Level.activity?).length := by
        rw [State.rank, hactivities]
        rfl
      have howners : s.owners =
          x.thread.owners ++ (levels.filterMap Level.activity?).flatMap Activity.owners := by
        rw [State.owners, hactivities]
        rfl
      rw [hactivities] at hall
      obtain ⟨hbelow, hrest⟩ := Thread.seat_notMem (howners ▸ ha.nodup)
      -- no generator that is suspended has its frame in a pile
      have hsuspended : ∀ g f, x.heap.generatorState g = .suspended f →
          Seat.generator g ≠ x.thread.seat s.rank ∧ Rests (journal (.generator g)) ⟨f, some g⟩ := by
        intro g f hg
        rw [hheap] at hg
        refine ⟨fun heq => ?_, h.suspended g f hg⟩
        cases hgenerator : x.thread.top.generator with
        | none =>
            rw [Thread.seat_of_none hgenerator] at heq
            cases heq
        | some g' =>
            rw [Thread.seat_of_some hgenerator] at heq
            cases heq
            have hmem : g ∈ s.owners := by
              rw [howners, Thread.owners_of_some hgenerator]
              exact List.mem_append_left _ (List.mem_cons_self ..)
            rw [ha.running, hg] at hmem
            cases hmem
      rw [hrank] at hsuspended ⊢
      refine ⟨⟨?_, ?_⟩, fun g f hf => ?_⟩
      · have hnext := hall.1.next hvalid hbelow hsuspended
        rw [Exchange.next, hheap] at hnext
        exact hnext
      · refine hall.2.congr fun q hq => Exchange.recorded_of_ne ?_
        rintro rfl
        exact hrest hq
      · refine rests_resume hvalid hall.1 hsuspended ?_
        rw [hheap]
        exact hf

theorem recounted_states (m : Machine σ) {w : World σ} (hw : w.heap.Loaded) (script : Script σ)
    (n : ℕ) : (m.states (.initial w script) n).Recounted (m.journal (.initial w script) n) := by
  induction n with
  | zero =>
      refine ⟨trivial, fun g f hf => ?_⟩
      have hlt := Heap.lt_size_of_suspended hf
      rw [show (m.states (.initial w script) 0).world.heap.generators = #[] from hw.fresh] at hlt
      cases hlt
  | succ n ih =>
      rw [states_succ]
      exact recounted_advance ih (m.valid_states hw script n) (m.accounts_states hw script n)

end Machine

/-! ### What is armed does not matter -/

/-- How an exchange was answered, and in which heap. -/
def Exchange.response (x : Exchange) : Heap × Except Exception Unit := (x.heap, x.answer)

/-- **What is reported depends on the answers and their heaps alone**: of the tools that listen, and
of the events that they have armed, nothing else is seen. -/
theorem Activity.Course.determined {a b b' : Activity} {xs ys : List Exchange}
    (h : a.Course xs b) (h' : a.Course ys b')
    (hsame : ys.map Exchange.response = xs.map Exchange.response) : ys = xs := by
  induction h generalizing ys with
  | refl => exact List.map_eq_nil_iff.1 hsame
  | @step x xs b _ ih =>
      generalize hreport : x.report = a at h'
      cases h' with
      | refl => cases hsame
      | @step y ys _ h' =>
          obtain ⟨hresponse, hrest⟩ := List.cons.inj hsame
          obtain rfl : y = x := by
            cases x
            cases y
            cases hreport
            cases hresponse
            rfl
          rw [ih h' hrest]

namespace Machine

/-- A call that is under way is a course of its exchanges from where it begins. -/
theorem exists_course_exchanges {m : Machine σ} {s : State σ} {limit : ℕ} {callable : Value}
    {args : List Value} {k : Except Exception Value → Script σ} {n : ℕ}
    (hcall : s.focus = .script (.call limit callable args k)) (hn : m.Underway s n) :
    ∃ a, (Activity.call s.world.heap limit callable args).2.Course (m.exchanges s n) a := by
  cases n with
  | zero => exact ⟨_, .refl _⟩
  | succ n =>
      obtain ⟨a, -, hcourse⟩ := exists_course hcall hn
      exact ⟨a, hcourse⟩

end Machine

/-! ### The rule of lines -/

/-- **The rule of lines**, for a report that a frame makes behind its journal.  When control has got
to an instruction, its line is reported if it starts there and is news, and otherwise the
instruction itself; behind the line comes the instruction, unless a callback has objected; and
whatever else the instruction leads to comes behind it. -/
structure Exchange.Places (xs : List Exchange) (t : Thread) (o : Occurrence) : Prop where
  /-- The journal is of the activation on top. -/
  own : AreOf xs t.top
  /-- It has entries as soon as the frame has been started. -/
  start : xs = [] ↔ o.event = .frameStart
  /-- An instruction is reported behind its line, or when control has got there and the line is no
  news; the line is reported when it is. -/
  turned : o.event = .line ∨ o.event = .instruction →
    (∃ before y, xs = before ++ [y] ∧ y.event = .line ∧ y.answer = .ok () ∧ y.thread = t ∧
        o.event = .instruction) ∨
      (Arrived xs t.frame.pc ∧
        (o.event = .line ↔
          t.frame.code.Announces t.frame.pc (ReachedByJump xs) (latestLine xs)) ∧
        (o.event = .line → ∃ n, t.frame.code.line? t.frame.pc = some n ∧
          o.payload.detail = .line n))
  /-- Behind a line comes the instruction, or a fault. -/
  behind : ∀ before y, xs = before ++ [y] → y.event = .line → t = y.thread ∧
    (y.answer = .ok () → o.event = .instruction) ∧ ∀ f, y.answer = .error f → o.event = .raise
  /-- Where control is directed, an instruction is turned to. -/
  directed : ∀ before y, xs = before ++ [y] → y.event.directs = true → y.answer = .ok () →
    o.event = .line ∨ o.event = .instruction
  /-- What an instruction leads to comes behind its report. -/
  inside : o.event.isInside = true → Started xs t.frame.pc
  /-- An exception comes from an instruction that was reported, or from a callback. -/
  raised : o.event = .raise →
    Started xs t.frame.pc ∨ ∃ before y f, xs = before ++ [y] ∧ y.answer = .error f

theorem Event.begins_iff {e : Event} : e.begins = true ↔ e = .line ∨ e = .instruction := by
  cases e <;> simp [begins]

theorem Exchange.Precedes.places {xs : List Exchange} {t : Thread} {o : Occurrence} {j : Juncture}
    (h : Precedes xs t o j) : Places xs t o :=
  ⟨h.areOf, h.start, fun hbegins => h.recounts.begun (Event.begins_iff.2 hbegins),
    h.recounts.behind,
    fun before y hxs hdirects hok =>
      Event.begins_iff.1 (h.recounts.directed before y hxs hdirects hok),
    h.recounts.started, h.recounts.raised⟩

namespace Machine

/-- **Lines are reported where the rule says**, in every run of built code, whatever the callbacks
do: every report obeys the rule behind the journal of its frame.  Nor does it matter what is armed:
a call whose reports get the same answers in the same heaps makes the same reports. -/
theorem lines_placed (m : Machine σ) {w : World σ} (hw : w.heap.Loaded) (script : Script σ) :
    (∀ n t o j k, (m.states (.initial w script) n).focus = .thread (.reporting t o j) k →
      Exchange.Places
        (Exchange.past (m.journal (.initial w script) n
          (t.seat (m.states (.initial w script) n).rank)) o) t o) ∧
    ∀ i limit callable args k n,
      (m.states (.initial w script) i).focus = .script (.call limit callable args k) →
      m.Underway (m.states (.initial w script) i) n →
      ∀ {τ : Type} (m' : Machine τ) (s' : State τ) k' n',
        s'.focus = .script (.call limit callable args k') → m'.Underway s' n' →
        s'.world.heap = (m.states (.initial w script) i).world.heap →
        (m'.exchanges s' n').map Exchange.response =
          (m.exchanges (m.states (.initial w script) i) n).map Exchange.response →
        m'.exchanges s' n' = m.exchanges (m.states (.initial w script) i) n := by
  refine ⟨fun n t o j k hf => ?_, ?_⟩
  · have hall := (m.recounted_states hw script n).activities
    have hactivities : (m.states (.initial w script) n).activities =
        .reporting t o j ::
          (m.states (.initial w script) n).levels.filterMap Level.activity? := by
      rw [State.activities, hf]
      rfl
    rw [State.rank, hactivities]
    rw [hactivities] at hall
    exact hall.1.1.places
  · intro i limit callable args k n hcall hn τ m' s' k' n' hcall' hn' hheap hsame
    obtain ⟨a, hcourse⟩ := exists_course_exchanges hcall hn
    obtain ⟨a', hcourse'⟩ := exists_course_exchanges hcall' hn'
    rw [hheap] at hcourse'
    exact hcourse.determined hcourse' hsame

/-- A function that runs for ever on its second line. -/
def spin : Code where
  name := "spin"
  firstLine := 3
  params := 0
  locals := 0
  isGenerator := false
  rows := #[⟨.nop, some 3, true⟩, ⟨.nop, some 4, true⟩, ⟨.jump ⟨0⟩, some 4, false⟩]
  labels := #[1]
  handlers := []
  consts := #[]

/-- It is called while nobody listens. -/
def unheard : World Unit := ⟨.empty, { Heap.empty with codes := #[spin] }, ()⟩

def spinning : State Unit := .initial unheard (.call 9 (.function 0) [] fun _ => .done)

theorem loaded_unheard : unheard.heap.Loaded := by
  have hspin : spin.Built := Source.built_of_build
    (s := ⟨"spin", 3, 0, false, [.label, .line 3, .emit .nop, .line 4, .bind ⟨0⟩, .emit .nop,
      .emit (.jump ⟨0⟩)]⟩)
    rfl
  refine ⟨fun a code hc => ?_, rfl⟩
  match a with
  | 0 =>
      cases hc
      exact hspin
  | a + 1 => cases hc

/-- The line of the loop is reported again, though it is the latest line, since the frame has jumped
there. -/
theorem spinning_placed :
    ∃ t o j k, (agreeing.states spinning 8).focus = .thread (.reporting t o j) k ∧
      o.event = .line ∧ o.payload.detail = .line 4 ∧
      Exchange.latestLine (agreeing.journal spinning 8 (t.seat 0)) = some 4 ∧
      Exchange.Places (agreeing.journal spinning 8 (t.seat 0)) t o := by
  obtain ⟨t, o, j, k, hf, hevent, hdetail, hlast⟩ :
      ∃ t o j k, (agreeing.states spinning 8).focus = .thread (.reporting t o j) k ∧
        o.event = .line ∧ o.payload.detail = .line 4 ∧
        Exchange.latestLine (agreeing.journal spinning 8 (t.seat 0)) = some 4 :=
    ⟨_, _, _, _, rfl, rfl, rfl, by decide +kernel⟩
  have hrank : (agreeing.states spinning 8).rank = 0 := by decide +kernel
  have hplaces := (lines_placed agreeing loaded_unheard
    (.call 9 (.function 0) [] fun _ => .done)).1 8 t o j k hf
  rw [show State.initial unheard (.call 9 (.function 0) [] fun _ => .done) = spinning from rfl,
    hrank, Exchange.past_of_ne (by rw [hevent]; exact nofun)] at hplaces
  exact ⟨t, o, j, k, hf, hevent, hdetail, hlast, hplaces⟩

end Machine

end Tracepoint
