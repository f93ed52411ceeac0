/-
**What loops get, and how often their bodies run.**

An iterator belongs to no loop.  Several loops may ask it for items, in the bodies of each other, in
functions that these call and in callbacks, and in whatever order; lists that iterators were made
for may grow meanwhile.  All of them together get the items that the iterator was made with, one
after the other, and then nothing more.

A loop that gets an item reports a branch into its body.  Unless a callback objects, the body begins
next.  So in a run the items that loops have got are those with which a body has begun, those to
which there was an objection, and those of branches that are still being reported.

Main definitions:

* `Tracepoint.Machine.gathered` — what is read off the states of a run, in order;
* `Tracepoint.Machine.got?`, `Tracepoint.Machine.begins?`, `Tracepoint.Machine.objects?` — an item
  that a loop gets in a step, with which its body begins, or to which there is an objection;
* `Tracepoint.Machine.Makes` — an iterator is made;
* `Tracepoint.Machine.Iterates` — **loops go over what was there when they began**.

Main results:

* `Tracepoint.Machine.supplies_advance` — what a step does to iterators;
* `Tracepoint.Machine.Makes.conserved` — **in a run no item is lost or repeated**;
* `Tracepoint.Machine.gathered_perm` — what becomes of the items;
* `Tracepoint.Machine.loops_iterate` — **loops go over what was there when they began**, in every
  run.
-/

import Tracepoint.Code.Draft
import Tracepoint.Proofs.Generator.LifeCycle
import Tracepoint.Proofs.Loop.Supply

set_option relaxedAutoImplicit false
set_option autoImplicit false

namespace Tracepoint

variable {σ : Type}

/-! ### What happens in a step -/

/-- The items with which branches into bodies of loops are being reported. -/
def State.offers (s : State σ) : List (ℕ × Value) := s.activities.filterMap Activity.offer?

/-- What a thread has got comes before what those that wait for it have. -/
theorem offers_of_cons {a : Activity} {rest : List Activity} :
    (a :: rest).filterMap Activity.offer? =
      a.offer?.toList ++ rest.filterMap Activity.offer? := by
  rw [List.filterMap_cons]
  cases a.offer? <;> rfl

theorem State.offers_follow (w : World σ) (levels : List (Level σ)) (go : Heap → Heap × Activity)
    (k : Except Exception Value → Script σ) :
    (State.follow w levels go k).offers =
      (go w.heap).2.offer?.toList ++
        (levels.filterMap Level.activity?).filterMap Activity.offer? :=
  offers_of_cons

/-- **A loop asks an iterator for an item**: nobody has objected to its instruction. -/
structure Exchange.Asks (x : Exchange) (a : ℕ) : Prop where
  juncture : x.juncture = .instruction
  answer : x.answer = .ok ()
  loop : ∃ exit, x.thread.Draws a exit

/-- A loop over a value starts: nobody has objected to its instruction. -/
structure Exchange.StartsLoop (x : Exchange) (v : Value) (rest : List Value) : Prop where
  juncture : x.juncture = .instruction
  answer : x.answer = .ok ()
  current : x.thread.frame.current? = some .getIter
  stack : x.thread.frame.stack = v :: rest

namespace Machine

/-- **The item that a loop gets** in the next step, with its iterator. -/
def got? (m : Machine σ) (s : State σ) : Option (ℕ × Value) :=
  (m.exchange? s).bind fun x => x.next.offer?

/-- **The item with which the body of a loop begins** in the next step. -/
def begins? (m : Machine σ) (s : State σ) : Option (ℕ × Value) :=
  (m.exchange? s).bind fun x => if x.answer.toBool then x.report.offer? else none

/-- The item for which the body of a loop does not begin, since a callback objects. -/
def objects? (m : Machine σ) (s : State σ) : Option (ℕ × Value) :=
  (m.exchange? s).bind fun x => if x.answer.toBool then none else x.report.offer?

/-- What is read off the first `n` states of a run, in order. -/
def gathered (m : Machine σ) (s : State σ) (f : State σ → Option (ℕ × Value)) (n : ℕ) :
    List (ℕ × Value) :=
  Heap.givenBefore (fun i => f (m.states s i)) n

theorem gathered_succ (m : Machine σ) (s : State σ) (f : State σ → Option (ℕ × Value)) (n : ℕ) :
    m.gathered s f (n + 1) = m.gathered s f n ++ (f (m.states s n)).toList :=
  Heap.givenBefore_succ ..

/-- An account that is carried on: what has come in is what has gone out in two ways, and what is
left. -/
theorem perm_carry {α : Type} {outs outs' left ins out out' left' inn : List α}
    (h : (outs ++ outs' ++ left).Perm ins) (hstep : (out ++ out' ++ left').Perm (inn ++ left)) :
    ((outs ++ out) ++ (outs' ++ out') ++ left').Perm (ins ++ inn) := by
  calc ((outs ++ out) ++ (outs' ++ out') ++ left')
    _ = outs ++ (out ++ (outs' ++ (out' ++ left'))) := by simp only [List.append_assoc]
    List.Perm _ (outs ++ (outs' ++ (out ++ (out' ++ left')))) :=
      (List.perm_append_comm_assoc ..).append_left outs
    _ = outs ++ outs' ++ (out ++ out' ++ left') := by simp only [List.append_assoc]
    List.Perm _ (outs ++ outs' ++ (inn ++ left)) := hstep.append_left _
    List.Perm _ (inn ++ (outs ++ outs' ++ left)) := List.perm_append_comm_assoc ..
    List.Perm _ (inn ++ ins) := h.append_left inn
    List.Perm _ (ins ++ inn) := List.perm_append_comm

section Steps

variable {m : Machine σ} {s : State σ}

/-- What an answer without a fault has led to. -/
theorem follows_of_ok {x : Exchange} {j : Juncture} (hx : m.exchange? s = some x)
    (hj : x.juncture = j) (hanswer : x.answer = .ok ()) {h : Heap} {a : Activity}
    (hnext : x.thread.resume s.world.heap j (.ok ()) = (h, a)) :
    (m.advance s).world = { s.world with heap := h } ∧
      ∃ k, (m.advance s).focus = .thread a k := by
  subst hj
  rw [← hanswer, ← (advance_of_exchange? hx).1] at hnext
  exact follows_of_exchange? hx hnext

/-- What a call from outside has led to. -/
theorem follows_of_call {limit : ℕ} {callable : Value} {args : List Value}
    {k : Except Exception Value → Script σ} (hf : s.focus = .script (.call limit callable args k))
    {h : Heap} {a : Activity} (hcall : Activity.call s.world.heap limit callable args = (h, a)) :
    (m.advance s).world = { s.world with heap := h } ∧ (m.advance s).focus = .thread a k := by
  obtain ⟨w, levels, focus⟩ := s
  obtain rfl : focus = .script (.call limit callable args k) := hf
  constructor
  · show (⟨_, (Activity.call w.heap limit callable args).1, _⟩ : World σ) = _
    rw [hcall]
  · show Focus.thread (Activity.call w.heap limit callable args).2 k = _
    rw [hcall]

section Asking

variable {x : Exchange} {a : ℕ}

/-- A loop that asks an iterator gets the first item that is left. -/
theorem gets_of_asks (hx : m.exchange? s = some x) (ha : x.Asks a) {v : Value} {rest : List Value}
    (hv : s.world.heap.remaining a = v :: rest) :
    m.got? s = some (a, v) ∧ (m.advance s).world.heap.remaining a = rest ∧
      ∃ k, (m.advance s).focus = .thread ((x.thread.withFrame (x.thread.frame.push v)).report
        .branch (.branch (offsetOf (x.thread.frame.pc + 1)))
        (.transferring (x.thread.frame.pc + 1) false)) k := by
  obtain ⟨exit, hd⟩ := ha.loop
  obtain ⟨it, rfl, hnext⟩ := hd.gets hv
  obtain ⟨hworld, k, hfocus⟩ := follows_of_ok hx ha.juncture ha.answer hnext
  refine ⟨?_, ?_, k, hfocus⟩
  · rw [got?, hx, Option.bind_some, Exchange.next, ha.juncture, ha.answer,
      (advance_of_exchange? hx).1, hnext]
    exact hd.offer?_produce _ v
  · rw [hworld]
    exact Heap.remaining_setIteration (Heap.lt_size_of_remaining hv) it

/-- A loop that asks an iterator with nothing left is done, and changes nothing. -/
theorem exhausted_of_asks (hx : m.exchange? s = some x) (ha : x.Asks a)
    (hv : s.world.heap.remaining a = []) : (m.advance s).world = s.world ∧
      ∃ b k, (m.advance s).focus = .thread b k ∧ x.thread.Exhausts b := by
  obtain ⟨exit, hd⟩ := ha.loop
  obtain ⟨l, hi, ht⟩ := hd.loop
  obtain ⟨hworld, k, hfocus⟩ := follows_of_ok hx ha.juncture ha.answer (hd.exhausts hv)
  exact ⟨hworld, _, k, hfocus, l, exit, hi, ht, rfl⟩

end Asking

/-- **What a step does to iterators.** -/
theorem supplies_advance (hs : ∀ t o j, .reporting t o j ∈ s.activities → t.Reports o j) :
    s.world.heap.Supplies (m.advance s).world.heap (m.got? s) := by
  have hstride := m.stride_advance s
  generalize m.advance s = s' at hstride
  cases hstride with
  | aside hx _ _ _ _ hiterators =>
      rw [got?, hx]
      exact .rests hiterators
  | call hf =>
      have hx : m.exchange? s = none := by simp only [exchange?, hf]
      rw [got?, hx]
      exact Activity.supplies_call ..
  | @exchange x levels k hx hh =>
      have hr : x.thread.Reports x.occurrence x.juncture := hs _ _ _ (report_mem_of_exchange? hx)
      rw [got?, hx, Option.bind_some, Exchange.next, hh]
      exact Thread.supplied_resume hr s.world.heap x.answer

/-- **What a step does to the items that loops have got.** -/
theorem perm_advance (m : Machine σ) (s : State σ) :
    ((m.begins? s).toList ++ (m.objects? s).toList ++ (m.advance s).offers).Perm
      ((m.got? s).toList ++ s.offers) := by
  have hstride := m.stride_advance s
  generalize m.advance s = s' at hstride
  cases hstride with
  | aside hx _ _ ha =>
      have hoffers : s'.offers = s.offers := by
        rcases ha with ha | ⟨r, ha⟩
        · rw [State.offers, State.offers, ha]
        · rw [State.offers, State.offers, ha]
          rfl
      rw [begins?, objects?, got?, hx, hoffers]
      exact .refl _
  | @call limit callable args k hf =>
      have hx : m.exchange? s = none := by simp only [exchange?, hf]
      have ha : s.activities = s.levels.filterMap Level.activity? := by
        rw [State.activities, hf]
        rfl
      rw [begins?, objects?, got?, hx, State.offers_follow, Activity.offer?_call, State.offers, ha]
      exact .refl _
  | @exchange x levels k hx hh ha =>
      have hbefore : s.offers = x.report.offer?.toList ++
          (levels.filterMap Level.activity?).filterMap Activity.offer? := by
        rw [State.offers, ha, offers_of_cons]
      have hanswered : (m.begins? s).toList ++ (m.objects? s).toList = x.report.offer?.toList := by
        rw [begins?, objects?, hx]
        cases hanswer : x.answer.toBool <;> simp [hanswer]
      rw [State.offers_follow, hbefore, hanswered, got?, hx, Option.bind_some, Exchange.next, hh]
      exact List.perm_append_comm_assoc ..

end Steps

/-! ### Runs -/

/-- **In a step an iterator is made**, for certain items. -/
structure Makes (m : Machine σ) (s : State σ) (n a : ℕ) (items : List Value) : Prop where
  address : a = (m.states s n).world.heap.iterators.size
  size : a < (m.states s (n + 1)).world.heap.iterators.size
  remaining : (m.states s (n + 1)).world.heap.remaining a = items

theorem Makes.of_world {m : Machine σ} {s : State σ} {n : ℕ} {it : Iteration}
    (hw : (m.states s (n + 1)).world = { (m.states s n).world with
      heap := ((m.states s n).world.heap.addIterator it).1 }) :
    m.Makes s n (m.states s n).world.heap.iterators.size it.toList := by
  refine ⟨rfl, ?_, ?_⟩
  · rw [hw]
    simp [Heap.addIterator]
  · rw [hw]
    exact Heap.remaining_addIterator ..

/-- **Loops go over what was there when they began**, in a run: -/
structure Iterates (m : Machine σ) (s : State σ) : Prop where
  /-- a loop over a list, a tuple or a text gets a new iterator, for the items or characters that
  are there then; -/
  makes : ∀ n x v rest items, m.exchange? (m.states s n) = some x → x.StartsLoop v rest →
    (m.states s n).world.heap.Holds v items →
    ∃ a k, m.Makes s n a items ∧ (m.states s (n + 1)).focus = .thread (x.thread.withFrame
      (Frame.advance { x.thread.frame with stack := .iterator a :: rest })).fetch k
  /-- one over an iterator goes on with that; -/
  again : ∀ n x a rest, m.exchange? (m.states s n) = some x → x.StartsLoop (.iterator a) rest →
    (m.states s (n + 1)).world = (m.states s n).world ∧ ∃ k, (m.states s (n + 1)).focus =
      .thread (x.thread.withFrame x.thread.frame.advance).fetch k
  /-- a range is a new iterator, for exactly the integers within its bounds, in ascending order; -/
  ranges : ∀ n x start stop args, m.exchange? (m.states s n) = some x →
    x.juncture = .called (.native .range) args → x.answer = .ok () →
    Value.Bounds start stop args → ∃ a k, ∃ ints : List Int64,
      m.Makes s n a (ints.map .int) ∧ ints.Pairwise (· < ·) ∧
      (∀ i, i ∈ ints ↔ start ≤ i ∧ i < stop) ∧ (m.states s (n + 1)).focus =
        .thread (x.thread.report .nativeReturn (.call (.native .range) args.head?)
          (.nativeReturned (.iterator a))) k
  /-- so it is when it is called from outside; -/
  outside : ∀ n limit start stop args k,
    (m.states s n).focus = .script (.call limit (.native .range) args k) →
    Value.Bounds start stop args → ∃ a, ∃ ints : List Int64,
      m.Makes s n a (ints.map .int) ∧ ints.Pairwise (· < ·) ∧
      (∀ i, i ∈ ints ↔ start ≤ i ∧ i < stop) ∧
      (m.states s (n + 1)).focus = .thread (.finished (.ok (.iterator a))) k
  /-- counting up within a range does not overflow; -/
  counts : ∀ (next stop : Int64) v it, (Iteration.range next stop).next = some (v, it) →
    ∃ succ, v = .int next ∧ it = .range succ stop ∧ succ.toInt = next.toInt + 1
  /-- a loop that asks an iterator gets the first item that is left, and reports a branch into its
  body; -/
  gets : ∀ n x a v rest, m.exchange? (m.states s n) = some x → x.Asks a →
    (m.states s n).world.heap.remaining a = v :: rest →
    m.got? (m.states s n) = some (a, v) ∧
      (m.states s (n + 1)).world.heap.remaining a = rest ∧
      ∃ k, (m.states s (n + 1)).focus = .thread ((x.thread.withFrame (x.thread.frame.push v)).report
        .branch (.branch (offsetOf (x.thread.frame.pc + 1)))
        (.transferring (x.thread.frame.pc + 1) false)) k
  /-- if nothing is left, it is exhausted, and nothing has changed; -/
  exhausted : ∀ n x a, m.exchange? (m.states s n) = some x → x.Asks a →
    (m.states s n).world.heap.remaining a = [] →
    (m.states s (n + 1)).world = (m.states s n).world ∧
      ∃ b k, (m.states s (n + 1)).focus = .thread b k ∧ x.thread.Exhausts b
  /-- and nothing is left ever after; -/
  fused : ∀ n a, a < (m.states s n).world.heap.iterators.size →
    (m.states s n).world.heap.remaining a = [] →
    ∀ k, n ≤ k → (m.states s k).world.heap.remaining a = []
  /-- all loops together get the items that an iterator was made for, each once and in order; -/
  conserves : ∀ i a items, m.Makes s i a items → ∀ n, i < n →
    Heap.itemsOf a (m.gathered s m.got? n) ++ (m.states s n).world.heap.remaining a = items
  /-- so do the loops of any number of threads on one heap, in whatever order these go on, and
  whatever else becomes of the heap; -/
  interleaved : ∀ turns : ℕ → Exchange, (∀ n, (turns n).report.Sound) →
    (∀ n, (turns (n + 1)).heap.iterators = ((turns n).thread.resume (turns n).heap
      (turns n).juncture (turns n).answer).1.iterators) →
    ∀ n a, a < (turns 0).heap.iterators.size →
      Heap.itemsOf a (Heap.givenBefore (fun i => (turns i).next.offer?) n) ++
        (turns n).heap.remaining a = (turns 0).heap.remaining a
  /-- with an item that a loop has got its body begins, unless a callback objects; -/
  begins : ∀ n x a v, m.exchange? (m.states s n) = some x → x.report.offer? = some (a, v) →
    x.answer = .ok () → m.begins? (m.states s n) = some (a, v) ∧
      (∃ rest, x.thread.frame.stack = v :: .iterator a :: rest) ∧
      ∃ k, (m.states s (n + 1)).focus = .thread
        (x.thread.withFrame (x.thread.frame.goto (x.thread.frame.pc + 1) false)).fetch k
  /-- that, an objection or a branch that is still being reported is what becomes of each item; -/
  becomes : ∀ n, (m.gathered s m.begins? n ++ m.gathered s m.objects? n ++
    (m.states s n).offers).Perm (m.gathered s m.got? n)
  /-- so when nothing is left, nobody has objected and nothing is being reported, bodies have begun
  once with each item. -/
  rounds : ∀ i a items n, m.Makes s i a items → i < n →
    (m.states s n).world.heap.remaining a = [] →
    Heap.itemsOf a (m.gathered s m.objects? n) = [] →
    Heap.itemsOf a (m.states s n).offers = [] →
    (Heap.itemsOf a (m.gathered s m.begins? n)).Perm items

section Runs

variable (m : Machine σ) (w : World σ) (script : Script σ)

theorem supplies_states (n : ℕ) :
    (m.states (.initial w script) n).world.heap.Supplies
      (m.states (.initial w script) (n + 1)).world.heap
      (m.got? (m.states (.initial w script) n)) := by
  rw [states_succ]
  exact supplies_advance fun t o j hmem => ((m.history_states w script n).reports t o j hmem).1

/-- **All that an iterator has given and has left is what it was made for.** -/
theorem Makes.conserved {i n a : ℕ} {items : List Value}
    (hm : m.Makes (.initial w script) i a items) (hi : i < n) :
    Heap.itemsOf a (m.gathered (.initial w script) m.got? n) ++
      (m.states (.initial w script) n).world.heap.remaining a = items := by
  have hsupplies := m.supplies_states w script
  have hbefore : Heap.itemsOf a (m.gathered (.initial w script) m.got? (i + 1)) = [] := by
    have hle := Nat.le_of_eq hm.address.symm
    rw [gathered_succ, Heap.itemsOf_append, (hsupplies i).itemsOf_of_le hle, List.append_nil]
    exact Heap.Supplies.givenBefore_of_le hsupplies hle
  refine (Heap.Supplies.conserves_all hsupplies hi hm.size).trans ?_
  change Heap.itemsOf a (m.gathered (.initial w script) m.got? (i + 1)) ++ _ = _
  rw [hbefore, hm.remaining, List.nil_append]

/-- **What becomes of the items** that loops have got. -/
theorem gathered_perm (n : ℕ) :
    (m.gathered (.initial w script) m.begins? n ++ m.gathered (.initial w script) m.objects? n ++
      (m.states (.initial w script) n).offers).Perm
        (m.gathered (.initial w script) m.got? n) := by
  induction n with
  | zero => exact .refl _
  | succ n ih =>
      have hstep := m.perm_advance (m.states (.initial w script) n)
      rw [← states_succ] at hstep
      simp only [gathered_succ]
      exact perm_carry ih hstep

/-- **Bodies begin once with each item** of an iterator with which loops are done. -/
theorem Makes.perm_begins {i n a : ℕ} {items : List Value}
    (hm : m.Makes (.initial w script) i a items) (hi : i < n)
    (hleft : (m.states (.initial w script) n).world.heap.remaining a = [])
    (hno : Heap.itemsOf a (m.gathered (.initial w script) m.objects? n) = [])
    (hnone : Heap.itemsOf a (m.states (.initial w script) n).offers = []) :
    (Heap.itemsOf a (m.gathered (.initial w script) m.begins? n)).Perm items := by
  have hitems := hm.conserved m w script hi
  have hperm := (m.gathered_perm w script n).filterMap
    fun p => if p.1 = a then some p.2 else none
  change (Heap.itemsOf a _).Perm (Heap.itemsOf a _) at hperm
  rw [hleft, List.append_nil] at hitems
  rwa [Heap.itemsOf_append, Heap.itemsOf_append, hno, hnone, List.append_nil, List.append_nil,
    hitems] at hperm

/-- The body of a loop begins behind the loop. -/
theorem begins_of_offer {n a : ℕ} {v : Value} {x : Exchange}
    (hx : m.exchange? (m.states (.initial w script) n) = some x)
    (ho : x.report.offer? = some (a, v)) (hanswer : x.answer = .ok ()) :
    (∃ rest, x.thread.frame.stack = v :: .iterator a :: rest) ∧
      ∃ k, (m.states (.initial w script) (n + 1)).focus = .thread
        (x.thread.withFrame (x.thread.frame.goto (x.thread.frame.pc + 1) false)).fetch k := by
  obtain ⟨⟨pc, hj⟩, -, hstack⟩ := Activity.offer?_eq_some_iff.1 ho
  have hr : x.thread.Reports x.occurrence x.juncture :=
    ((m.history_states w script n).reports _ _ _ (report_mem_of_exchange? hx)).1
  have hpc : pc = x.thread.frame.pc + 1 := by
    have htells := Exchange.tells_juncture hr hj
    generalize x.event = event, x.occurrence.payload.detail = d at htells
    cases htells with
    | pass => rfl
  rw [states_succ, ← hpc]
  exact ⟨hstack, (follows_of_ok hx hj hanswer rfl).2⟩

/-- **Loops go over what was there when they began**, in every run. -/
theorem loops_iterate : m.Iterates (.initial w script) where
  makes n x v rest items hx hb hv := by
    obtain ⟨hworld, k, hfocus⟩ := follows_of_ok hx hb.juncture hb.answer
      (Thread.resume_getIter hb.current hb.stack hv)
    rw [← states_succ] at hworld hfocus
    exact ⟨_, k, .of_world hworld, hfocus⟩
  again n x a rest hx hb := by
    rw [states_succ]
    exact follows_of_ok hx hb.juncture hb.answer
      (Thread.resume_getIter_iterator hb.current hb.stack)
  ranges n x start stop args hx hj hanswer hargs := by
    obtain ⟨hworld, k, hfocus⟩ := follows_of_ok hx hj hanswer (Thread.resume_range hargs)
    rw [← states_succ] at hworld hfocus
    exact ⟨_, k, Word.upTo start stop, .of_world hworld, Word.ascending_upTo start stop,
      fun i => Word.mem_upTo, hfocus⟩
  outside n limit start stop args k hf hargs := by
    obtain ⟨hworld, hfocus⟩ := follows_of_call hf (Activity.call_range limit hargs)
    rw [← states_succ] at hworld hfocus
    exact ⟨_, Word.upTo start stop, .of_world hworld, Word.ascending_upTo start stop,
      fun i => Word.mem_upTo, hfocus⟩
  counts next stop v it h := by
    rw [Iteration.next] at h
    split at h
    · rename_i hlt
      cases h
      exact ⟨_, rfl, rfl, Word.toInt_succ hlt⟩
    · cases h
  gets n x a v rest hx ha hv := by
    rw [states_succ]
    exact gets_of_asks hx ha hv
  exhausted n x a hx ha hv := by
    rw [states_succ]
    exact exhausted_of_asks hx ha hv
  fused n a ha hv k hk :=
    Heap.Supplies.remaining_eq_nil (m.supplies_states w script) hk ha hv
  conserves i a items hm n hi := hm.conserved m w script hi
  interleaved turns hsound hnext n a ha := by
    have hsupplies : ∀ n, (turns n).heap.Supplies (turns (n + 1)).heap (turns n).next.offer? := by
      intro n
      have hr : (turns n).thread.Reports (turns n).occurrence (turns n).juncture := hsound n
      exact (Thread.supplied_resume hr ..).congr (hnext n)
    exact Heap.Supplies.conserves_all hsupplies (Nat.zero_le n) ha
  begins n x a v hx ho hanswer := by
    refine ⟨?_, m.begins_of_offer w script hx ho hanswer⟩
    rw [begins?, hx, Option.bind_some, hanswer]
    exact ho
  becomes := m.gathered_perm w script
  rounds i a items n hm hi := hm.perm_begins m w script hi

end Runs

/-- A function with a loop whose body appends to the list that it goes over. -/
def growing : Source where
  name := "growing"
  firstLine := 1
  directives := [.label, .label, .load (.int 1), .load (.int 2), .emit (.buildList 2),
    .emit (.storeLocal 0), .emit (.loadLocal 0), .emit .getIter, .bind ⟨0⟩, .emit (.forIter ⟨1⟩),
    .emit (.storeLocal 1), .load (.native .append), .emit (.loadLocal 0), .emit (.loadLocal 1),
    .emit (.call 2), .emit .pop, .emit (.jump ⟨0⟩), .bind ⟨1⟩, .emit (.loadLocal 0), .emit .ret]

/-- The function is called by a script. -/
def grown : State Unit :=
  .initial ⟨.empty, { Heap.empty with codes := growing.build.toOption.toArray }, ()⟩
    (.call 1 (.function 0) [] fun _ => .done)

/-- The body begins with the two items that are there at first, though there are four in the end. -/
example : (agreeing.gathered grown agreeing.begins? 50,
    (agreeing.states grown 50).world.heap.items 0, (agreeing.states grown 50).isOver) =
      ([(0, .int 1), (0, .int 2)], #[.int 1, .int 2, .int 1, .int 2], true) := rfl

end Machine

end Tracepoint
