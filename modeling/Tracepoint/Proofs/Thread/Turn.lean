/-
**What a thread does from one report to the next.**

A thread reports, gets an answer and goes on until it reports again or is over.  This module says
once what can come of an answer; whatever is proved about threads is read off this.

Most answers let the activation on top go on.  At a call and in a loop over a generator another
activation may come on top, which waits for nothing but room.  A return or a yield that nobody
objects to, and an exception that leaves the frame, take the activation off, and the one below goes
on.  Where only the pile matters, the turns are told apart as shifts of it.

Main definitions:

* `Tracepoint.Thread.Enters` — another activation comes on top;
* `Tracepoint.Thread.Sound` — every activation waits for the one above at a call or in a loop;
* `Tracepoint.Thread.Turn`, `Tracepoint.Thread.Shift` — **what can come of an answer**;
* `Tracepoint.Heap.Runnable` — what can be called so that an activation is entered;
* `Tracepoint.Thread.Reports`, `Tracepoint.Activity.Sound` — reports that a thread can make.

Main results:

* `Tracepoint.Thread.goesOn_execute` — what the instructions lead to;
* `Tracepoint.Thread.turn_resume` — **every answer leads to one of the turns**;
* `Tracepoint.Activity.call_cases` — what a call from outside leads to;
* `Tracepoint.Activity.sound_call`, `Tracepoint.Activity.sound_resume` — threads stay sound.
-/

import Tracepoint.Proofs.Thread.Telling

set_option relaxedAutoImplicit false
set_option autoImplicit false

namespace Tracepoint

/-! ### Activations that come and go -/

/-- An activation can wait for another one: at a call for that of a function, in a loop for that
of the generator that it loops over. -/
def Activation.AwaitedBy (a caller : Activation) : Prop :=
  match a.generator with
  | none => ∃ n, caller.frame.current? = some (.call n)
  | some g => ∃ l target rest, caller.frame.current? = some (.forIter l) ∧
      caller.frame.code.target? l = some target ∧ caller.frame.stack = .generator g :: rest

/-- An activation can go on when the one that it waits for is over. -/
theorem Activation.AwaitedBy.exists_current {a caller : Activation} (h : a.AwaitedBy caller) :
    ∃ i, caller.frame.current? = some i ∧ i.isTerminator = false := by
  unfold AwaitedBy at h
  split at h
  · obtain ⟨n, hn⟩ := h
    exact ⟨_, hn, rfl⟩
  · obtain ⟨l, target, rest, hl, -⟩ := h
    exact ⟨_, hl, rfl⟩

/-- **Activations wait for each other**: each of them has been started and waits for the one above
at a place where it can do so, and the last one waits for a call from outside, as no generator
does. -/
inductive Awaiting : List Activation → Prop
  | root {a : Activation} (hs : a.frame.started = true) (hg : a.generator = none) : Awaiting [a]
  | above {a caller : Activation} {rest : List Activation} (hs : a.frame.started = true)
      (ha : a.AwaitedBy caller) (h : Awaiting (caller :: rest)) : Awaiting (a :: caller :: rest)

theorem Awaiting.started {a : Activation} {rest : List Activation} (h : Awaiting (a :: rest)) :
    a.frame.started = true := by
  cases h <;> assumption

/-- Whether an activation waits or is waited for depends on the generator whose it is, but not on
its frame, as long as it is on top. -/
theorem Awaiting.congr {a a' : Activation} {rest : List Activation} (h : Awaiting (a :: rest))
    (hs : a'.frame.started = true) (hg : a'.generator = a.generator) : Awaiting (a' :: rest) := by
  cases h with
  | root _ hroot => exact .root hs (hg.trans hroot)
  | above _ ha hrest => exact .above hs (by simpa only [Activation.AwaitedBy, hg] using ha) hrest

/-- Whether an answer at a juncture takes the activation on top off its thread. -/
def Juncture.closes : Juncture → Except Exception Unit → Bool
  | .returning _, .ok () | .yielding _, .ok () | .unwound _, _ => true
  | _, _ => false

/-- An instruction that goes on takes no activation off. -/
theorem Juncture.closes_of_works {j : Juncture} (h : j.works = true) :
    j.closes (.ok ()) = false := by
  cases j <;> first | rfl | cases h

/-- The exception that is on its way after an answer: a fault takes its place. -/
def Exception.carried (e : Exception) : Except Exception Unit → Exception
  | .ok () => e
  | .error fault => fault

namespace Thread

/-- The activations of a thread, the one that runs first. -/
def pile (t : Thread) : List Activation := t.top :: t.below

/-- **Another activation comes on top**, which the present one waits for: that of a function that is
called with the arguments that it takes, or that of a generator that is suspended.  There has to be
room for it. -/
inductive Enters (h : Heap) (t : Thread) : Juncture → Activation → Prop
  | call {n a : ℕ} {code : Code} {args : List Value} {f : Frame} (hroom : t.hasRoom = true)
      (hi : t.frame.current? = some (.call n)) (hc : h.code? a = some code)
      (hg : code.isGenerator = false) (hf : Frame.start a code args = .ok f) :
      Enters h t (.called (.function a) args) ⟨f, none⟩
  | loop {l : Label} {exit g : ℕ} {rest : List Value} {f : Frame} (hroom : t.hasRoom = true)
      (hi : t.frame.current? = some (.forIter l)) (ht : t.frame.code.target? l = some exit)
      (hs : t.frame.stack = .generator g :: rest) (hg : h.generatorState g = .suspended f) :
      Enters h t .instruction ⟨f, some g⟩

theorem Enters.awaited {h : Heap} {t : Thread} {j : Juncture} {callee : Activation}
    (he : t.Enters h j callee) : callee.AwaitedBy t.top := by
  cases he with
  | call _ hi => exact ⟨_, hi⟩
  | loop _ hi ht hs => exact ⟨_, _, _, hi, ht, hs⟩

theorem Enters.closes_eq_false {h : Heap} {t : Thread} {j : Juncture} {callee : Activation}
    (he : t.Enters h j callee) : j.closes (.ok ()) = false := by
  cases he <;> rfl

/-- **A thread is sound** if its activations wait for each other. -/
def Sound (t : Thread) : Prop := Awaiting t.pile

theorem pop?_eq_none {t : Thread} (h : t.below = []) : t.pop? = none := by
  unfold pop?
  split
  · rfl
  · simp_all

theorem pop?_eq_some {t : Thread} {a : Activation} {rest : List Activation}
    (h : t.below = a :: rest) :
    ∃ caller, t.pop? = some caller ∧ caller.limit = t.limit ∧ caller.top = a ∧
      caller.below = rest := by
  unfold pop?
  split
  · simp_all
  · rename_i b rest' hb
    rw [h] at hb
    cases hb
    exact ⟨_, rfl, rfl, rfl, rfl⟩

theorem pile_of_pop? {t caller : Thread} (h : t.pop? = some caller) :
    t.below = caller.pile ∧ caller.limit = t.limit := by
  cases hb : t.below with
  | nil =>
      rw [pop?_eq_none hb] at h
      cases h
  | cons a rest =>
      obtain ⟨caller', hp, hlimit, htop, hbelow⟩ := pop?_eq_some hb
      rw [h] at hp
      cases hp
      exact ⟨by rw [pile, htop, hbelow], hlimit⟩

theorem below_of_pop?_eq_none {t : Thread} (h : t.pop? = none) : t.below = [] := by
  cases hb : t.below with
  | nil => rfl
  | cons a rest =>
      obtain ⟨caller, hp, -⟩ := pop?_eq_some hb
      rw [h] at hp
      cases hp

theorem Sound.pop? {t caller : Thread} (hs : t.Sound) (hp : t.pop? = some caller) :
    t.top.AwaitedBy caller.top ∧ caller.Sound := by
  rw [Sound, pile, (pile_of_pop? hp).1] at hs
  cases hs with
  | above _ ha hrest => exact ⟨ha, hrest⟩

/-- The activation of a generator is never the last one of a pile. -/
theorem Sound.exists_caller {t : Thread} {g : ℕ} (hs : t.Sound)
    (hg : t.top.generator = some g) : ∃ caller, t.pop? = some caller := by
  cases hp : t.pop? with
  | some caller => exact ⟨caller, rfl⟩
  | none =>
      rw [Sound, pile, below_of_pop?_eq_none hp] at hs
      cases hs with
      | root _ hnone =>
          rw [hg] at hnone
          cases hnone

/-! ### Ordinary exceptions -/

theorem mayRaise_underflow (f : Frame) : f.MayRaise .stackUnderflow := .ordinary (by decide)

/-- Arguments are taken from the stack, the last one on top. -/
theorem takeArgs_of_stack {f : Frame} {args rest : List Value}
    (hs : f.stack = args.reverse ++ rest) :
    takeArgs f args.length = .ok (args, { f with stack := rest }) := by
  have htake : f.stack.take args.length = args.reverse := by
    rw [hs, List.take_left' (by simp)]
  have hdrop : f.stack.drop args.length = rest := by
    rw [hs, List.drop_left' (by simp)]
  simp [takeArgs, htake, hdrop]

theorem stack_of_takeArgs {f f' : Frame} {n : ℕ} {args : List Value}
    (h : takeArgs f n = .ok (args, f')) :
    args.length = n ∧ f.stack = args.reverse ++ f'.stack ∧ f' = { f with stack := f'.stack } := by
  unfold takeArgs at h
  simp only at h
  split at h
  · rename_i hlength
    cases h
    exact ⟨by rw [List.length_reverse, hlength],
      by rw [List.reverse_reverse, List.take_append_drop], rfl⟩
  · cases h

theorem takeArgs_alike {f f' : Frame} {n : ℕ} {args : List Value}
    (h : takeArgs f n = .ok (args, f')) : f.Alike f' := by
  unfold takeArgs at h
  simp only at h
  split at h
  · cases h
    exact f.alike_stack _
  · cases h

theorem takeArgs_mayRaise {f : Frame} {n : ℕ} {e : Exception} (h : takeArgs f n = .error e) :
    f.MayRaise e := by
  unfold takeArgs at h
  simp only at h
  split at h
  · cases h
  · cases h
    exact mayRaise_underflow f

theorem kind_of_operate {h : Heap} {op : BinaryOperator} {v w : Value} {e : Exception}
    (he : (h.operate op v w).2 = .error e) : e.kind ≠ .runtimeError := by
  have hofInt : ∀ n, Value.ofInt n = .error e → e.kind ≠ .runtimeError := fun n hn => by
    unfold Value.ofInt at hn
    split at hn <;> cases hn
    decide
  unfold Heap.operate at he
  split at he
  case h_5 a b =>
    have hdivision : Value.floorDiv a b = .error e := he
    rcases Value.floorDiv_cases a b with h | h | ⟨w, h⟩ <;> rw [hdivision] at h <;> cases h <;>
      decide
  case h_2 | h_3 | h_4 => exact hofInt _ he
  case h_9 =>
    cases he
    exact nofun
  all_goals cases he

theorem kind_of_iterate {h : Heap} {v : Value} {e : Exception}
    (he : (h.iterate v).2 = .error e) : e.kind ≠ .runtimeError := by
  unfold Heap.iterate at he
  split at he
  · cases he
  · cases he
  · split at he <;> cases he
    exact nofun

theorem kind_of_callNative {h : Heap} {callable : Value} {args : List Value} {e : Exception}
    (he : (callNative h callable args).2 = .error e) : e.kind ≠ .runtimeError := by
  have hlength : ∀ v, Value.ofNat <$> h.length v = .error e → e.kind ≠ .runtimeError := by
    intro v hv
    cases hl : h.length v with
    | ok n =>
        rw [hl] at hv
        cases hv
    | error e' =>
        rw [hl] at hv
        cases hv
        unfold Heap.length at hl
        split at hl <;> cases hl
        exact nofun
  unfold callNative at he
  split at he
  · unfold Heap.runNative at he
    split at he
    case h_1 => exact hlength _ he
    all_goals
      cases he
      try exact nofun
  · cases he
    exact nofun

/-! ### What comes of an answer -/

/-- The activation on top goes on, or another one comes on top of it. -/
def GoesOn (h : Heap) (t : Thread) (j : Juncture) (a : Activity) : Prop :=
  t.Performs a ∨ ∃ callee, t.Enters h j callee ∧ a = (t.push callee).enter

section Executing

variable {h : Heap} {t : Thread}

theorem goesOn_advanceIterator {l : Label} {exit : ℕ}
    (hi : t.frame.current? = some (.forIter l)) (ht : t.frame.code.target? l = some exit)
    {iterator : Value} {rest : List Value} (hs : t.frame.stack = iterator :: rest) :
    t.GoesOn h .instruction (t.advanceIterator h exit iterator).2 := by
  unfold advanceIterator
  split
  · split
    · exact Or.inl (performs_produce hi _)
    · exact Or.inl (performs_exhaust hi ht)
  · rename_i g
    split
    · exact Or.inl (performs_fail (.refl _) (Frame.mayRaise_of_kind nofun))
    · exact Or.inl (performs_exhaust hi ht)
    · rename_i frame hg
      split
      · rename_i hroom
        exact Or.inr ⟨⟨frame, some g⟩, .loop hroom hi ht hs hg, rfl⟩
      · exact Or.inl (performs_fail (.refl _) (Frame.mayRaise_of_kind nofun))
  · exact Or.inl (performs_fail (.refl _) (Frame.mayRaise_of_kind nofun))

/-- **What an instruction leads to**, at the instruction. -/
theorem goesOn_execute {i : Instruction} (hi : t.frame.current? = some i) :
    t.GoesOn h .instruction (t.execute h i).2 := by
  have hstack := fun stack => t.frame.alike_stack stack
  have underflow : ∀ {f}, t.frame.Alike f →
      t.GoesOn h .instruction (t.fail h f .stackUnderflow).2 :=
    fun hf => Or.inl (performs_fail hf (mayRaise_underflow _))
  cases i with
  | nop => exact Or.inl (performs_next (.refl _) hi rfl rfl)
  | loadConst k =>
      simp only [execute]
      split
      · exact Or.inl (performs_next (t.frame.alike_push _) hi rfl rfl)
      · exact Or.inl (performs_fail (.refl _) (.ordinary (by decide)))
  | loadLocal slot =>
      simp only [execute]
      split
      · exact Or.inl (performs_next (t.frame.alike_push _) hi rfl rfl)
      · rename_i hslot
        exact Or.inl (performs_fail (.refl _) (.slot hi rfl (Array.getElem?_eq_none_iff.1 hslot)))
  | storeLocal slot =>
      simp only [execute]
      split
      · exact underflow (.refl _)
      · rename_i v stack hs
        split
        · rw [store_eq]
          exact Or.inl (performs_next (t.frame.alike_store slot v stack) hi rfl rfl)
        · rename_i hslot
          exact Or.inl (performs_fail (hstack stack) (.slot hi rfl (Nat.le_of_not_lt hslot)))
  | pop =>
      simp only [execute]
      split
      · exact underflow (.refl _)
      · exact Or.inl (performs_next (hstack _) hi rfl rfl)
  | buildList n =>
      simp only [execute]
      split
      · rename_i hargs
        exact Or.inl (performs_fail (.refl _) (takeArgs_mayRaise hargs))
      · rename_i items f hargs
        have hf : t.frame.Alike (f.push (h.addList items.toArray).2) :=
          (takeArgs_alike hargs).trans (f.alike_push _)
        exact Or.inl (performs_next hf hi rfl rfl)
  | binary op =>
      simp only [execute]
      split
      · split
        · exact Or.inl (performs_next (hstack _) hi rfl rfl)
        · rename_i e he
          have hkind := kind_of_operate (congrArg Prod.snd he)
          exact Or.inl (performs_fail (hstack _) (Frame.mayRaise_of_kind hkind))
      · exact underflow (hstack _)
  | call n =>
      simp only [execute]
      split
      · rename_i hargs
        exact Or.inl (performs_fail (.refl _) (takeArgs_mayRaise hargs))
      · rename_i args f hargs
        have hf := takeArgs_alike hargs
        split
        · exact underflow hf
        · rename_i callable stack hs
          have hf' : t.frame.Alike { f with stack } := hf.trans (f.alike_stack stack)
          exact Or.inl (.tells hf' (.call (hf'.current?.trans hi) callable args) rfl nofun)
  | ret =>
      simp only [execute]
      split
      · exact underflow (.refl _)
      · rename_i v stack hs
        have hi' := (hstack stack).current?.trans hi
        exact Or.inl (.tells (hstack stack) (.ret hi' v) rfl nofun)
  | yield =>
      simp only [execute]
      split
      · exact underflow (.refl _)
      · rename_i v stack hs
        have hi' := (hstack stack).current?.trans hi
        exact Or.inl (.tells (hstack stack) (.yield hi' v) rfl nofun)
  | raise =>
      simp only [execute]
      split
      · exact underflow (.refl _)
      · rename_i hs
        exact Or.inl (performs_fail (hstack _) (.own hi hs))
      · exact Or.inl (performs_fail (hstack _) (Frame.mayRaise_of_kind nofun))
  | jump l =>
      simp only [execute]
      split
      · rename_i ht
        exact Or.inl (performs_fail (.refl _) (.label hi rfl ht))
      · rename_i target ht
        exact Or.inl (performs_transfer (.refl _) (.jump hi ht) hi rfl)
  | popJumpIfFalse l =>
      simp only [execute]
      split
      · exact underflow (.refl _)
      · rename_i v stack hs
        split
        · exact Or.inl (performs_transfer (hstack stack)
            (.pass (f := { t.frame with stack }) hi rfl) hi rfl)
        · split
          · rename_i ht
            exact Or.inl (performs_fail (hstack _) (.label hi rfl ht))
          · rename_i target ht
            exact Or.inl (performs_transfer (hstack stack)
              (.branch (f := { t.frame with stack }) hi rfl ht) hi rfl)
  | getIter =>
      simp only [execute]
      split
      · exact underflow (.refl _)
      · split
        · exact Or.inl (performs_next (hstack _) hi rfl rfl)
        · rename_i e he
          have hkind := kind_of_iterate (congrArg Prod.snd he)
          exact Or.inl (performs_fail (hstack _) (Frame.mayRaise_of_kind hkind))
  | forIter l =>
      simp only [execute]
      split
      · rename_i ht
        exact Or.inl (performs_fail (.refl _) (.label hi rfl ht))
      · rename_i exit ht
        split
        · exact underflow (.refl _)
        · rename_i hs
          exact goesOn_advanceIterator hi ht hs
  | matchException kind =>
      simp only [execute]
      split
      · exact underflow (.refl _)
      · exact Or.inl (performs_next (t.frame.alike_push _) hi rfl rfl)
      · exact Or.inl (performs_fail (.refl _) (Frame.mayRaise_of_kind nofun))

/-- What a call leads to, at the instruction that makes it. -/
theorem goesOn_makeCall {n : ℕ} (hi : t.frame.current? = some (.call n)) (callable : Value)
    (args : List Value) :
    t.GoesOn h (.called callable args) (t.makeCall h callable args).2 := by
  unfold makeCall
  split
  · rename_i a
    split
    · exact Or.inl (performs_fail (.refl _) (Frame.mayRaise_of_kind nofun))
    · rename_i code hc
      split
      · rename_i e hf
        have hkind : e.kind ≠ .runtimeError := by
          unfold Frame.start at hf
          split at hf <;> cases hf
          exact nofun
        exact Or.inl (performs_fail (.refl _) (Frame.mayRaise_of_kind hkind))
      · rename_i frame hf
        split
        · exact Or.inl (performs_next (t.frame.alike_push _) hi rfl rfl)
        · rename_i hg
          split
          · rename_i hroom
            have hg' : code.isGenerator = false := by simpa using hg
            exact Or.inr ⟨⟨frame, none⟩, .call hroom hi hc hg' hf, rfl⟩
          · exact Or.inl (performs_fail (.refl _) (Frame.mayRaise_of_kind nofun))
  · split
    · exact Or.inl (.tells (.refl _) (.nativeReturn hi _ args _) rfl nofun)
    · rename_i e he
      have hkind := kind_of_callNative (congrArg Prod.snd he)
      exact Or.inl (.tells (.refl _)
        (.nativeRaise hi _ args (Exception.not_mem_internal hkind)) rfl nofun)

end Executing

/-- **What can come of an answer.**

Without a fault the activation on top goes on, or another one comes on top, or the one on top is
over and the one below goes on, which reports it first if it has been looping over a generator that
has returned.  With a fault it stays where it is.  An exception that was raised is
sent to its handler or out of the frame, and one that has left the frame is raised in the one below.
A frame that yields though it is no generator's leaves with an exception. -/
inductive Turn (h : Heap) (t : Thread) (j : Juncture) (r : Except Exception Unit) :
    Activity → Prop
  | goes {a : Activity} (hr : r = .ok ()) (hj : j.closes r = false) (hc : t.Goes j a) :
      Turn h t j r a
  | fails {t' : Thread} {fault : Exception} (hr : r = .error fault) (hj : j.closes r = false)
      (ht : t.Alike t') : Turn h t j r (t'.raise fault)
  | resolves {e : Exception} (hj : j = .raised e) : Turn h t j r (t.route (e.carried r))
  | enters {callee : Activation} (hr : r = .ok ()) (he : t.Enters h j callee) :
      Turn h t j r (t.push callee).enter
  | leaves {caller : Thread} {a : Activity} (hr : r = .ok ()) (hj : j.closes r = true)
      (hp : t.pop? = some caller) (hc : caller.Performs a) : Turn h t j r a
  | stops {g : ℕ} {v : Value} {caller : Thread} (hr : r = .ok ()) (hj : j = .returning v)
      (hg : t.top.generator = some g) (hp : t.pop? = some caller)
      (ht : caller.frame.Tells .stopIteration (stopIteration h v).told .stopped) :
      Turn h t j r (caller.report .stopIteration (stopIteration h v).told .stopped)
  | unwinds {e : Exception} {caller : Thread} (hj : j = .unwound e) (hp : t.pop? = some caller) :
      Turn h t j r (caller.raise (e.carried r))
  | strays {v : Value} {caller : Thread} (hr : r = .ok ()) (hj : j = .yielding v)
      (hg : t.top.generator = none) (hp : t.pop? = some caller) :
      Turn h t j r (caller.raise .strayYield)
  | ends (hj : j.closes r = true) (hp : t.pop? = none) {result : Except Exception Value}
      (hresult : ∀ e, result = .error e →
        (∃ v, j = .yielding v) ∨ ∃ e', j = .unwound e' ∧ e = e'.carried r) :
      Turn h t j r (.finished result)

/-- What can come of an answer, as far as the pile is concerned: the activation on top goes on,
another one comes on top, or the one below goes on, if there is one. -/
inductive Shift (h : Heap) (t : Thread) (j : Juncture) (r : Except Exception Unit) :
    Activity → Prop
  | stays {a : Activity} (hj : j.closes r = false) (hc : t.Continues a) : Shift h t j r a
  | enters {callee : Activation} (hr : r = .ok ()) (he : t.Enters h j callee) :
      Shift h t j r (t.push callee).enter
  | leaves {caller : Thread} {a : Activity} (hj : j.closes r = true) (hp : t.pop? = some caller)
      (hc : caller.Continues a) : Shift h t j r a
  | ends (hj : j.closes r = true) (hp : t.pop? = none) (result : Except Exception Value) :
      Shift h t j r (.finished result)

theorem continues_route (t : Thread) (e : Exception) : t.Continues (t.route e) := by
  have hroutes := t.routes_route e
  generalize t.route e = a at hroutes
  cases hroutes with
  | unwinds => exact (moves_refl t).continues (.unwind e) nofun
  | handles hh stack =>
      have hmoves := (t.frame.alike_stack stack).goto (.handler hh) true
      exact (moves_withFrame hmoves).continues (.handle e) nofun

theorem Turn.shift {h : Heap} {t : Thread} {j : Juncture} {r : Except Exception Unit}
    {a : Activity} (ht : t.Turn h j r a) : t.Shift h j r a := by
  cases ht with
  | goes _ hj hc => exact .stays hj hc.proceeds.continues
  | fails _ hj ha => exact .stays hj (ha.moves.continues_raise _)
  | resolves hj => exact .stays (by rw [hj]; rfl) (t.continues_route _)
  | enters hr he => exact .enters hr he
  | leaves _ hj hp hc => exact .leaves hj hp hc.proceeds.continues
  | stops hr hj _ hp ht =>
      exact .leaves (by rw [hr, hj]; rfl) hp ((moves_refl _).continues ht nofun)
  | unwinds hj hp => exact .leaves (by rw [hj]; rfl) hp ((moves_refl _).continues_raise _)
  | strays hr hj _ hp => exact .leaves (by rw [hr, hj]; rfl) hp ((moves_refl _).continues_raise _)
  | ends hj hp => exact .ends hj hp _

theorem Performs.turn {h : Heap} {t : Thread} {j : Juncture} {a : Activity} (ha : t.Performs a)
    (hj : j.works = true) : t.Turn h j (.ok ()) a :=
  .goes rfl (Juncture.closes_of_works hj) (.works hj ha)

theorem GoesOn.turn {h : Heap} {t : Thread} {j : Juncture} {a : Activity} (hg : t.GoesOn h j a)
    (hj : j.works = true) : t.Turn h j (.ok ()) a := by
  rcases hg with ha | ⟨callee, he, rfl⟩
  · exact ha.turn hj
  · exact .enters rfl he

section Leaving

variable {h : Heap} {t : Thread}

theorem turn_unwound (r : Except Exception Unit) (e : Exception) :
    t.Turn h (.unwound e) r (t.leaveRaising (e.carried r)) := by
  unfold leaveRaising
  split
  · rename_i hp
    refine .ends rfl hp fun e' he' => Or.inr ⟨e, rfl, ?_⟩
    cases he'
    rfl
  · rename_i caller hp
    exact .unwinds rfl hp

theorem turn_leaveReturning (hs : t.Sound)
    (hg : ∀ caller, t.pop? = some caller → t.top.generator = none) (h' : Heap) (v : Value) :
    t.Turn h (.returning v) (.ok ()) (t.leaveReturning h' v).2 := by
  unfold leaveReturning
  split
  · rename_i hp
    exact .ends rfl hp fun e he => by cases he
  · rename_i caller hp
    have hawaited := (hs.pop? hp).1
    simp only [Activation.AwaitedBy, hg caller hp] at hawaited
    obtain ⟨n, hi⟩ := hawaited
    exact .leaves rfl rfl hp (performs_next (caller.frame.alike_push v) hi rfl rfl)

theorem turn_leaveByReturn (hs : t.Sound) (v : Value) :
    t.Turn h (.returning v) (.ok ()) (t.leaveByReturn h v).2 := by
  unfold leaveByReturn
  split
  · rename_i g caller hg hp
    have hawaited := (hs.pop? hp).1
    simp only [Activation.AwaitedBy, hg] at hawaited
    obtain ⟨l, target, rest, hl, ht, -⟩ := hawaited
    exact .stops rfl rfl hg hp (.stop hl ht _)
  · rename_i hno
    refine turn_leaveReturning hs (fun caller hp => ?_) _ v
    cases hg : t.top.generator with
    | none => rfl
    | some g => exact absurd hp (hno g caller hg)

theorem turn_leaveByYield (hs : t.Sound) (h' : Heap) (v : Value) :
    t.Turn h (.yielding v) (.ok ()) (t.leaveByYield h' v).2 := by
  unfold leaveByYield
  split
  · rename_i g caller hg hp
    have hawaited := (hs.pop? hp).1
    simp only [Activation.AwaitedBy, hg] at hawaited
    obtain ⟨l, target, rest, hl, -⟩ := hawaited
    exact .leaves rfl rfl hp (performs_produce hl v)
  · rename_i hno
    simp only [leaveRaising]
    split
    · rename_i hp
      exact .ends rfl hp fun _ _ => Or.inl ⟨v, rfl⟩
    · rename_i caller hp
      refine .strays rfl rfl ?_ hp
      cases hg : t.top.generator with
      | none => rfl
      | some g => exact absurd hp (hno g caller hg)

end Leaving

theorem performs_leaveLoop {h : Heap} {t : Thread} {l : Label} {exit : ℕ}
    (hi : t.frame.current? = some (.forIter l)) (ht : t.frame.code.target? l = some exit) :
    t.Performs (t.leaveLoop h).2 := by
  have hexit : t.loopExit? = some exit := by
    unfold loopExit?
    rw [show t.frame.code.instruction? t.frame.pc = some (.forIter l) from hi]
    exact ht
  simp only [leaveLoop, hexit]
  exact performs_exhaust hi ht

/-- **Every answer leads to one of the turns.** -/
theorem turn_resume {t : Thread} {e : Event} {d : Detail} {j : Juncture} (hs : t.Sound)
    (ht : t.frame.Tells e d j) (h : Heap) (r : Except Exception Unit) :
    t.Turn h j r (t.resume h j r).2 := by
  have arrives : ∀ {pc : ℕ} {jumped : Bool}, t.frame.code.Leads t.frame.pc pc →
      t.Turn h (.transferring pc jumped) (.ok ())
        (t.withFrame (t.frame.goto pc jumped)).fetch := fun hpc =>
    .goes rfl rfl (.arrives rfl ((Frame.Alike.refl _).goto hpc _))
  cases r with
  | ok u =>
      cases ht with
      | start | resume => exact .goes rfl rfl (.arrives rfl (Frame.Alike.refl _).moves)
      | line hi => exact .goes rfl rfl (.begins hi)
      | @instruction i hi =>
          have hcurrent : t.frame.code.instruction? t.frame.pc = some i := hi
          simp only [resume, proceed, executeCurrent, hcurrent]
          exact (goesOn_execute hi).turn rfl
      | call hi callable args => exact (goesOn_makeCall hi callable args).turn rfl
      | nativeReturn hi _ _ v =>
          exact (performs_next (h := h) (t.frame.alike_push v) hi rfl rfl).turn rfl
      | nativeRaise _ _ _ he => exact Performs.turn (.fails (.refl _) (.ordinary he)) rfl
      | ret _ v => exact turn_leaveByReturn hs v
      | yield _ v => exact turn_leaveByYield hs h v
      | jump hi hl => exact arrives (.jump hi rfl hl)
      | pass hi hn => exact arrives (.next hi hn)
      | branch hi hl htarget => exact arrives (.jump hi hl htarget)
      | stop hi hl e => exact (performs_leaveLoop hi hl).turn rfl
      | raise e => exact .resolves rfl
      | handle e => exact .goes rfl rfl (.arrives rfl (t.frame.alike_push _).moves)
      | unwind e => exact turn_unwound _ e
  | error fault =>
      cases ht with
      | raise e => exact .resolves rfl
      | handle e => exact .fails rfl rfl (alike_withFrame (t.frame.alike_push _))
      | unwind e => exact turn_unwound _ e
      | _ => exact .fails rfl rfl (.refl t)

/-- **Whenever an activation can come on top, it does**; if it is a generator's, that runs now. -/
theorem resume_of_enters {h : Heap} {t : Thread} {j : Juncture} {callee : Activation}
    (he : t.Enters h j callee) :
    t.resume h j (.ok ()) =
      (callee.generator.elim h (h.setGenerator · .running), (t.push callee).enter) := by
  cases he with
  | call hroom _ hc hg hf =>
      simp [resume, proceed, makeCall, hc, hf, hg, hroom]
  | @loop l _ _ _ _ hroom hi ht hs hg =>
      have hcurrent : t.frame.code.instruction? t.frame.pc = some (.forIter l) := hi
      simp [resume, proceed, executeCurrent, hcurrent, execute, ht, hs, advanceIterator, hg, hroom]

end Thread

/-! ### What comes of a call from outside -/

/-- A call of the value with these arguments runs a code unit, if there is room. -/
def Heap.Runnable (h : Heap) (callable : Value) (args : List Value) : Prop :=
  ∃ a code, callable = .function a ∧ h.code? a = some code ∧ args.length = code.params ∧
    code.isGenerator = false

namespace Frame

theorem exists_start {a : ℕ} {code : Code} {args : List Value} (h : args.length = code.params) :
    ∃ f, start a code args = .ok f := by
  rw [start, if_pos h]
  exact ⟨_, rfl⟩

/-- A frame starts at the first instruction, with a local for each argument. -/
theorem of_start {a : ℕ} {code : Code} {args : List Value} {f : Frame}
    (h : start a code args = .ok f) :
    args.length = code.params ∧ f.address = a ∧ f.code = code ∧ f.pc = 0 ∧ f.started = false ∧
      f.locals.size = args.length + (code.locals - args.length) := by
  unfold start at h
  split at h
  · rename_i hargs
    cases h
    exact ⟨hargs, rfl, rfl, rfl, rfl, by simp⟩
  · cases h

end Frame

namespace Activity

/-- A call from outside enters the activation of a function, or it is over at once. -/
theorem call_cases (h : Heap) (limit : ℕ) (callable : Value) (args : List Value) :
    (∃ r, (call h limit callable args).2 = .finished r ∧
        ¬ (h.Runnable callable args ∧ 0 < limit)) ∨
      ∃ a code f, callable = .function a ∧ h.code? a = some code ∧ code.isGenerator = false ∧
        Frame.start a code args = .ok f ∧ 0 < limit ∧
        (call h limit callable args).2 = (Thread.start limit ⟨f, none⟩).enter := by
  unfold call
  split
  · rename_i a
    split
    · rename_i hc
      refine Or.inl ⟨_, rfl, ?_⟩
      rintro ⟨⟨a', code, ha, hcode, -⟩, -⟩
      cases ha
      rw [hc] at hcode
      cases hcode
    · rename_i code hc
      have same : ∀ {P : Prop}, ¬ (args.length = code.params ∧ code.isGenerator = false ∧ P) →
          ¬ (h.Runnable (.function a) args ∧ P) := by
        rintro P hno ⟨⟨a', code', ha, hc', hargs, hg⟩, hP⟩
        cases ha
        rw [hc] at hc'
        cases hc'
        exact hno ⟨hargs, hg, hP⟩
      split
      · rename_i e hf
        refine Or.inl ⟨_, rfl, same fun hall => ?_⟩
        obtain ⟨f, hf'⟩ := Frame.exists_start (a := a) hall.1
        rw [hf] at hf'
        cases hf'
      · rename_i f hf
        split
        · rename_i hg
          exact Or.inl ⟨_, rfl, same fun hall => by simp [hall.2.1] at hg⟩
        · rename_i hg
          have hg' : code.isGenerator = false := by simpa using hg
          split
          · rename_i hlimit
            exact Or.inr ⟨a, code, f, rfl, hc, hg', hf, hlimit, rfl⟩
          · rename_i hlimit
            exact Or.inl ⟨_, rfl, same fun hall => hlimit hall.2.2⟩
  · rename_i hno
    refine Or.inl ⟨_, rfl, ?_⟩
    rintro ⟨⟨a, code, ha, -⟩, -⟩
    exact hno a ha

end Activity

/-! ### Threads stay sound -/

namespace Thread

/-- **A report that a thread can make**: at its current instruction, in its code unit, with the
detail that belongs to the juncture. -/
structure Reports (t : Thread) (o : Occurrence) (j : Juncture) : Prop where
  sound : t.Sound
  unit : o.payload.unit = .loaded t.frame.address t.frame.code
  offset : o.payload.offset = t.frame.offset
  tells : t.frame.Tells o.event o.payload.detail j

end Thread

/-- What a thread is doing is sound if it reports what it can report. -/
def Activity.Sound : Activity → Prop
  | .reporting t o j => t.Reports o j
  | .finished _ => True

namespace Thread

theorem Sound.moves {t t' : Thread} (hs : t.Sound) (h : t.Moves t') : t'.Sound := by
  rw [Sound, pile, h.below]
  exact Awaiting.congr hs (h.frame.started.trans (Awaiting.started hs)) h.generator

theorem Continues.sound {t : Thread} {a : Activity} (h : t.Continues a) (hs : t.Sound) :
    a.Sound := by
  obtain ⟨t', e, d, j, hmoves, ht, -, rfl⟩ := h
  exact ⟨hs.moves hmoves, rfl, rfl, ht⟩

/-- The thread of an activation that is entered. -/
def entered (t : Thread) : Thread := t.withFrame { t.frame with started := true }

theorem tells_enter (t : Thread) : t.entered.frame.Tells
    (if t.frame.started then .frameResume else .frameStart) (.code none) .entered := by
  split
  · exact .resume
  · exact .start

theorem Enters.sound {h : Heap} {t : Thread} {j : Juncture} {callee : Activation}
    (he : t.Enters h j callee) (hs : t.Sound) : (t.push callee).enter.Sound :=
  ⟨.above rfl he.awaited hs, rfl, rfl, tells_enter _⟩

end Thread

namespace Activity

theorem sound_call (h : Heap) (limit : ℕ) (callable : Value) (args : List Value) :
    (call h limit callable args).2.Sound := by
  rcases call_cases h limit callable args with ⟨r, hr, -⟩ | ⟨_, _, f, -, -, -, -, -, henter⟩
  · rw [hr]
    trivial
  · rw [henter]
    exact ⟨.root rfl rfl, rfl, rfl, Thread.tells_enter _⟩

/-- **Threads stay sound**, whatever the answers are and whatever has become of the heap. -/
theorem sound_resume {t : Thread} {o : Occurrence} {j : Juncture} (hr : t.Reports o j) (h : Heap)
    (r : Except Exception Unit) : (t.resume h j r).2.Sound := by
  have hshift := (Thread.turn_resume hr.sound hr.tells h r).shift
  generalize (t.resume h j r).2 = a at hshift
  cases hshift with
  | stays _ hc => exact hc.sound hr.sound
  | enters _ he => exact he.sound hr.sound
  | leaves _ hp hc => exact hc.sound (hr.sound.pop? hp).2
  | ends => trivial

end Activity

end Tracepoint
