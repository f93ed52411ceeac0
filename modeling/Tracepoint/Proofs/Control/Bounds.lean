/-
**Code that was built stays in its bounds.**

What the checks of a draft establish about a code unit is kept by everything that runs it: the
instruction pointer of a frame stays in the code, whether the frame goes on, jumps, enters a
handler, or waits in a generator; and a frame always has all its locals.  So the internal exceptions
never come from the machine itself.  As they are values like others, a callback may answer with one,
or a program may raise one that it was given; from then on they are on their way like others.

Main definitions:

* `Tracepoint.Frame.Valid`, `Tracepoint.Activation.Valid`, `Tracepoint.Heap.Valid`,
  `Tracepoint.Activity.Valid` — **what is kept**;
* `Tracepoint.Heap.Loaded` — a heap in which code units were loaded and nothing has run;
* `Tracepoint.Frame.InBounds` — a frame is where it should be;
* `Tracepoint.Activity.met?` — the exception that is raised, or that is the result of the call.

Main results:

* `Tracepoint.Thread.valid_resume`, `Tracepoint.Activity.valid_call` — one answer, and one call;
* `Tracepoint.Exchange.source_of_internal` — where an internal exception comes from;
* `Tracepoint.Machine.built_code_in_bounds` — **built code stays in its bounds**, in every run.
-/

import Tracepoint.Proofs.Code.Built
import Tracepoint.Proofs.Control.Resolution

set_option relaxedAutoImplicit false
set_option autoImplicit false

namespace Tracepoint

variable {σ : Type}

/-! ### Valid frames -/

/-- **A valid frame**: of a code unit that was built, at one of its instructions, and with all its
locals. -/
structure Frame.Valid (f : Frame) : Prop where
  built : f.code.Built
  pc : f.pc < f.code.size
  locals : f.locals.size = f.code.locals

namespace Frame

theorem Valid.moves {f f' : Frame} (h : f.Valid) (hm : f.Moves f') : f'.Valid := by
  refine ⟨by rw [hm.code]; exact h.built, ?_, by rw [hm.locals, hm.code]; exact h.locals⟩
  rw [hm.code]
  rcases hm.pc with hpc | hleads
  · rw [hpc]
    exact h.pc
  · exact h.built.leads hleads

theorem Valid.exists_current {f : Frame} (h : f.Valid) : ∃ i, f.current? = some i :=
  Code.exists_instruction h.pc

theorem valid_start {a : ℕ} {code : Code} {args : List Value} {f : Frame} (hc : code.Built)
    (hf : start a code args = .ok f) : f.Valid := by
  obtain ⟨hargs, -, hcode, hpc, -, hlocals⟩ := of_start hf
  have hparams := hc.params_le
  refine ⟨by rwa [hcode], by rw [hcode, hpc]; exact hc.size_pos, ?_⟩
  rw [hlocals, hcode]
  omega

/-- **Nothing is missing at the instruction of a valid frame**; an internal exception there is the
program's own. -/
theorem Valid.own_of_mayRaise {f : Frame} (h : f.Valid) {e : Exception} (he : f.MayRaise e)
    (hi : e ∈ Exception.internal) :
    f.current? = some .raise ∧ ∃ rest, f.stack = .exception e :: rest := by
  cases he with
  | ordinary hno => exact absurd hi hno
  | own hraise hs => exact ⟨hraise, _, hs⟩
  | label hcurrent hl ht =>
      obtain ⟨target, htarget, -⟩ := h.built.exists_target hcurrent hl
      rw [ht] at htarget
      cases htarget
  | slot hcurrent hs hsize =>
      have hlt := h.built.slot_lt hcurrent hs
      rw [h.locals] at hsize
      omega

end Frame

/-- **A valid activation**: it has a generator exactly if its code unit is a generator's. -/
structure Activation.Valid (a : Activation) : Prop where
  frame : a.frame.Valid
  generator : a.generator.isSome = a.frame.code.isGenerator

/-- **A valid heap**: all code units were built, and so were those of suspended frames. -/
structure Heap.Valid (h : Heap) : Prop where
  built : ∀ a code, h.code? a = some code → code.Built
  suspended : ∀ g f, h.generatorState g = .suspended f → f.Valid ∧ f.code.isGenerator = true

/-- A valid thread does what it can do and all its activations are valid. -/
def Activity.Valid : Activity → Prop
  | .reporting t o j => t.Reports o j ∧ ∀ a ∈ t.pile, a.Valid
  | .finished _ => True

theorem Heap.Valid.evolves {h h' : Heap} {putAside : ℕ → Frame → Prop} (hv : h.Valid)
    (he : h.Evolves putAside h')
    (haside : ∀ g f, putAside g f → f.Valid ∧ f.code.isGenerator = true) : h'.Valid := by
  refine ⟨fun a code hc => hv.built a code ?_, fun g f hf => ?_⟩
  · rwa [Heap.code?, he.codes] at hc
  · rcases he.suspended g f hf with hold | ⟨-, a, code, args, hc, hg, hstart⟩ | hput
    · exact hv.suspended g f hold
    · refine ⟨Frame.valid_start (hv.built a code hc) hstart, ?_⟩
      rwa [(Frame.of_start hstart).2.2.1]
    · exact haside g f hput

namespace Thread

variable {h : Heap} {t : Thread}

theorem Continues.valid {a : Activity} (hc : t.Continues a) (hs : t.Sound)
    (hv : ∀ b ∈ t.pile, b.Valid) : a.Valid := by
  have hsound := hc.sound hs
  obtain ⟨t', e, d, j, hm, -, -, rfl⟩ := hc
  refine ⟨hsound, fun b hb => ?_⟩
  rw [pile, hm.below] at hb
  rcases List.mem_cons.1 hb with rfl | hb
  · have htop := hv t.top (List.mem_cons_self ..)
    refine ⟨htop.frame.moves hm.frame, ?_⟩
    have hcode : t'.top.frame.code = t.top.frame.code := hm.frame.code
    rw [hm.generator, hcode]
    exact htop.generator
  · exact hv b (List.mem_cons_of_mem _ hb)

/-- An activation that comes on top is valid. -/
theorem Enters.valid {j : Juncture} {callee : Activation} (he : t.Enters h j callee)
    (hh : h.Valid) : callee.Valid := by
  cases he with
  | call _ _ hc hg hf =>
      refine ⟨Frame.valid_start (hh.built _ _ hc) hf, ?_⟩
      show false = _
      rw [(Frame.of_start hf).2.2.1, hg]
  | loop _ _ _ _ hg =>
      obtain ⟨hframe, hgenerator⟩ := hh.suspended _ _ hg
      exact ⟨hframe, hgenerator.symm⟩

theorem valid_enter {callee : Activation} (hsound : (t.push callee).enter.Sound)
    (hv : ∀ b ∈ t.pile, b.Valid) (hc : callee.Valid) : (t.push callee).enter.Valid := by
  refine ⟨hsound, fun b hb => ?_⟩
  rcases List.mem_cons.1 hb with rfl | hb
  · exact ⟨⟨hc.frame.built, hc.frame.pc, hc.frame.locals⟩, hc.generator⟩
  · exact hv b hb

/-- **Threads stay valid.** -/
theorem valid_resume {o : Occurrence} {j : Juncture} (hr : t.Reports o j)
    (hv : ∀ b ∈ t.pile, b.Valid) (hh : h.Valid) (r : Except Exception Unit) :
    (t.resume h j r).2.Valid := by
  have hshift := (turn_resume hr.sound hr.tells h r).shift
  generalize (t.resume h j r).2 = a at hshift
  cases hshift with
  | stays _ hc => exact hc.valid hr.sound hv
  | enters _ he => exact valid_enter (he.sound hr.sound) hv (he.valid hh)
  | leaves _ hp hc =>
      refine hc.valid (hr.sound.pop? hp).2 fun b hb => hv b (List.mem_cons_of_mem _ ?_)
      rwa [(pile_of_pop? hp).1]
  | ends => trivial

/-- A valid frame that is put aside is at an instruction behind its yield. -/
theorem valid_of_putsAside (hv : t.top.Valid) {g : ℕ} {f : Frame} (hp : t.PutsAside g f) :
    f.Valid ∧ f.code.isGenerator = true := by
  obtain ⟨-, hyield, rfl⟩ := hp
  refine ⟨hv.frame.moves ((Frame.Alike.refl _).goto (.next hyield rfl) false), ?_⟩
  exact hv.frame.built.isGenerator_of_yield hyield

end Thread

theorem Activity.valid_call {h : Heap} (hh : h.Valid) (limit : ℕ) (callable : Value)
    (args : List Value) : (call h limit callable args).2.Valid := by
  have hsound := sound_call h limit callable args
  rcases call_cases h limit callable args with ⟨r, hr, -⟩ | ⟨a, code, f, -, hc, hg, hf, -, henter⟩
  · rw [hr]
    trivial
  · rw [henter] at hsound ⊢
    refine ⟨hsound, fun b hb => ?_⟩
    obtain rfl := List.mem_singleton.1 hb
    have hframe := Frame.valid_start (hh.built a code hc) hf
    refine ⟨⟨hframe.built, hframe.pc, hframe.locals⟩, ?_⟩
    show false = f.code.isGenerator
    rw [(Frame.of_start hf).2.2.1, hg]

/-! ### Internal exceptions -/

/-- The exception that is just raised, or that is the result of the call. -/
def Activity.met? : Activity → Option Exception
  | .reporting _ _ (.raised e) => some e
  | .finished (.error e) => some e
  | _ => none

namespace Thread

theorem met?_route (t : Thread) (e : Exception) : (t.route e).met? = none := by
  have hroutes := t.routes_route e
  generalize t.route e = a at hroutes
  cases hroutes <;> rfl

/-- What a valid activation does by itself does not meet an internal exception, unless the program
raises one that it has. -/
theorem Proceeds.own_of_met? {t : Thread} {a : Activity} (hp : t.Proceeds a)
    (hv : t.frame.Valid) {e : Exception} (hm : a.met? = some e) (he : e ∈ Exception.internal) :
    t.frame.current? = some .raise ∧ ∃ rest, t.frame.stack = .exception e :: rest := by
  cases hp with
  | @reports _ _ _ j _ _ hj =>
      -- Only a raise meets an exception, and its juncture is not plain.
      cases j <;> cases hm
      cases hj
  | fails _ hmay =>
      cases hm
      exact hv.own_of_mayRaise hmay he
  | lost hmoves hnone =>
      obtain ⟨i, hi⟩ := (hv.moves hmoves.frame).exists_current
      rw [hnone] at hi
      cases hi

/-- A valid activation that yields has a generator and an activation that waits for it. -/
theorem exists_caller_of_yielding {t : Thread} {o : Occurrence} {v : Value}
    (hr : t.Reports o (.yielding v)) (hv : t.top.Valid) :
    ∃ g caller, t.top.generator = some g ∧ t.pop? = some caller := by
  have hgenerator := hv.frame.built.isGenerator_of_yield hr.tells.at_yielding.2
  have hsome := hv.generator.trans hgenerator
  obtain ⟨g, hg⟩ := Option.isSome_iff_exists.1 hsome
  obtain ⟨caller, hp⟩ := hr.sound.exists_caller hg
  exact ⟨g, caller, hg, hp⟩

end Thread

namespace Exchange

/-- **Where an internal exception comes from**: a callback has answered with it, it was on its way
already, or the program raises it. -/
theorem source_of_internal {x : Exchange} (hv : x.report.Valid) {e : Exception}
    (hm : x.next.met? = some e) (he : e ∈ Exception.internal) :
    x.answer = .error e ∨ (x.event = .frameUnwind ∧ x.occurrence.payload.detail = e.told) ∨
      (x.thread.frame.current? = some .raise ∧
        ∃ rest, x.thread.frame.stack = .exception e :: rest) := by
  obtain ⟨hr, hpile⟩ : x.thread.Reports x.occurrence x.juncture ∧ ∀ a ∈ x.thread.pile, a.Valid :=
    hv
  have htop := hpile x.thread.top (List.mem_cons_self ..)
  have hturn := turn_next hr
  have unwound : ∀ e', x.juncture = .unwound e' → e'.carried x.answer = e →
      x.answer = .error e ∨ (x.event = .frameUnwind ∧ x.occurrence.payload.detail = e.told) := by
    intro e' hj hcarried
    cases ha : x.answer with
    | error fault =>
        rw [ha] at hcarried
        cases hcarried
        exact Or.inl rfl
    | ok u =>
        rw [ha] at hcarried
        cases hcarried
        rw [hj] at hr
        exact Or.inr (hr.tells.at_unwound)
  generalize x.next = a at hturn hm
  cases hturn with
  | goes _ _ hc => exact Or.inr (Or.inr (hc.proceeds.own_of_met? htop.frame hm he))
  | fails hanswer =>
      cases hm
      exact Or.inl hanswer
  | resolves =>
      rw [Thread.met?_route] at hm
      cases hm
  | enters => cases hm
  | @leaves caller _ _ _ hp hc =>
      -- the one below waits at an instruction that raises nothing
      obtain ⟨i, hi, hno⟩ := (hr.sound.pop? hp).1.exists_current
      have hbelow : caller.top ∈ x.thread.pile := by
        rw [Thread.pile, (Thread.pile_of_pop? hp).1]
        exact List.mem_cons_of_mem _ (List.mem_cons_self ..)
      have hraise : caller.top.frame.current? = some .raise :=
        (hc.proceeds.own_of_met? (hpile _ hbelow).frame hm he).1
      rw [hi, Option.some.injEq] at hraise
      rw [hraise] at hno
      cases hno
  | stops => cases hm
  | unwinds hj hp =>
      cases hm
      exact (unwound _ hj rfl).imp_right Or.inl
  | strays _ hj hnone =>
      rw [hj] at hr
      obtain ⟨g, -, hg, -⟩ := Thread.exists_caller_of_yielding hr htop
      rw [hnone] at hg
      cases hg
  | @ends hj hp result hresult =>
      cases result with
      | ok v => cases hm
      | error e' =>
          obtain rfl : e' = e := Option.some.inj hm
          rcases hresult e' rfl with ⟨v, hyielding⟩ | ⟨e'', hunwound, rfl⟩
          · rw [hyielding] at hr
            obtain ⟨-, caller, -, hcaller⟩ := Thread.exists_caller_of_yielding hr htop
            rw [hp] at hcaller
            cases hcaller
          · exact (unwound _ hunwound rfl).imp_right Or.inl

end Exchange

/-! ### Runs -/

/-- **A heap in which code units were loaded** and nothing has run. -/
structure Heap.Loaded (h : Heap) : Prop where
  built : ∀ a code, h.code? a = some code → code.Built
  fresh : h.generators = #[]

theorem Heap.Loaded.valid {h : Heap} (hh : h.Loaded) : h.Valid := by
  refine ⟨hh.built, fun g f hf => ?_⟩
  have hlt := lt_size_of_suspended hf
  rw [hh.fresh] at hlt
  cases hlt

/-- **A frame is where it should be**: at an instruction, with all its locals, among them one for
each parameter, and what the instruction names is there. -/
structure Frame.InBounds (f : Frame) : Prop where
  pc : f.pc < f.code.size
  locals : f.locals.size = f.code.locals
  params : f.code.params ≤ f.code.locals
  label : ∀ i l, f.current? = some i → i.target? = some l →
    ∃ target, f.code.target? l = some target ∧ target < f.code.size
  slot : ∀ i slot, f.current? = some i → i.slot? = some slot → slot < f.locals.size

theorem Frame.Valid.inBounds {f : Frame} (h : f.Valid) : f.InBounds :=
  ⟨h.pc, h.locals, h.built.params_le, fun _ _ hi hl => h.built.exists_target hi hl,
    fun _ _ hi hs => by rw [h.locals]; exact h.built.slot_lt hi hs⟩

/-- A valid state: its heap and all its threads are valid. -/
structure State.Valid (s : State σ) : Prop where
  heap : s.world.heap.Valid
  activities : ∀ a ∈ s.activities, a.Valid

/-- What is answered in a valid state is the report of a valid thread. -/
theorem State.Valid.report {m : Machine σ} {s : State σ} {x : Exchange} (hs : s.Valid)
    (hx : m.exchange? s = some x) : x.report.Valid :=
  hs.activities _ (Machine.report_mem_of_exchange? hx)

namespace Machine

/-- **States stay valid.** -/
theorem valid_advance {m : Machine σ} {s : State σ} (hs : s.Valid) : (m.advance s).Valid := by
  have hstride := m.stride_advance s
  generalize m.advance s = s' at hstride
  have followed : ∀ {levels : List (Level σ)} {go : Heap → Heap × Activity}
      {k : Except Exception Value → Script σ}, levels <:+ s.levels →
      (go s.world.heap).1.Valid → (go s.world.heap).2.Valid →
      (State.follow s.world levels go k).Valid := by
    intro levels go k hl hheap hactivity
    refine ⟨hheap, fun a ha => ?_⟩
    have hmem : a ∈ (go s.world.heap).2 :: levels.filterMap Level.activity? := ha
    rcases List.mem_cons.1 hmem with rfl | hmem
    · exact hactivity
    · exact hs.activities a (List.mem_append_right _ ((hl.filterMap _).subset hmem))
  cases hstride with
  | aside _ hcodes hgenerators ha =>
      refine ⟨hs.heap.evolves (Heap.Alike.evolves ⟨hcodes, hgenerators⟩) (fun _ _ => False.elim),
        fun a hmem => hs.activities a (subset_of_aside ha hmem)⟩
  | call =>
      exact followed List.suffix_rfl
        (hs.heap.evolves (Activity.evolves_call ..) (fun _ _ => False.elim))
        (Activity.valid_call hs.heap ..)
  | @exchange x levels k hx _ _ hl =>
      obtain ⟨hreports, hpile⟩ : x.thread.Reports x.occurrence x.juncture ∧
          ∀ a ∈ x.thread.pile, a.Valid := hs.report hx
      exact followed hl
        (hs.heap.evolves (Thread.evolves_resume hreports x.answer)
          fun _ _ => Thread.valid_of_putsAside (hpile _ (List.mem_cons_self ..)))
        (Thread.valid_resume hreports hpile hs.heap x.answer)

theorem valid_states (m : Machine σ) {w : World σ} (hw : w.heap.Loaded) (script : Script σ)
    (n : ℕ) : (m.states (.initial w script) n).Valid := by
  have hinitial : (State.initial w script).Valid := by
    refine ⟨hw.valid, fun a ha => ?_⟩
    cases ha
  exact states_invariant (P := State.Valid) (fun _ => valid_advance) hinitial n

/-- **Built code stays in its bounds**, in every run, whatever the callbacks do: every frame that
runs, waits or is suspended is where it should be; a frame that yields is a generator's, and a loop
waits for it; and no internal exception comes from the machine. -/
theorem built_code_in_bounds (m : Machine σ) {w : World σ} (hw : w.heap.Loaded)
    (script : Script σ) (n : ℕ) :
    (∀ t o j, .reporting t o j ∈ (m.states (.initial w script) n).activities →
      (∀ a ∈ t.pile, a.frame.InBounds) ∧
        ∀ v, j = .yielding v → ∃ g caller, t.top.generator = some g ∧ t.pop? = some caller) ∧
    (∀ g f, (m.states (.initial w script) n).world.heap.generatorState g = .suspended f →
      f.InBounds) ∧
    ∀ x, m.exchange? (m.states (.initial w script) n) = some x →
      ∀ e ∈ Exception.internal, x.next.met? = some e →
        x.answer = .error e ∨ (x.event = .frameUnwind ∧ x.occurrence.payload.detail = e.told) ∨
          (x.thread.frame.current? = some .raise ∧
            ∃ rest, x.thread.frame.stack = .exception e :: rest) := by
  have hvalid := m.valid_states hw script n
  refine ⟨fun t o j hmem => ?_, fun g f hf => (hvalid.heap.suspended g f hf).1.inBounds,
    fun x hx e he hm => ?_⟩
  · obtain ⟨hr, hpile⟩ : t.Reports o j ∧ ∀ a ∈ t.pile, a.Valid := hvalid.activities _ hmem
    refine ⟨fun a ha => (hpile a ha).frame.inBounds, fun v hj => ?_⟩
    rw [hj] at hr
    exact Thread.exists_caller_of_yielding hr (hpile _ (List.mem_cons_self ..))
  · exact Exchange.source_of_internal (hvalid.report hx) hm he

/-- The code units of the loop and of its generator are built from these sources. -/
theorem loaded_listening : listening.heap.Loaded := by
  have honce : once.Built := Source.built_of_build
    (s := ⟨"once", 1, 0, true, [.load (.int 7), .emit .yield, .emit (.loadConst 0), .emit .ret]⟩)
    rfl
  have hdrain : drain.Built := Source.built_of_build
    (s := ⟨"drain", 5, 1, false, [.label, .label, .emit (.loadLocal 0), .bind ⟨1⟩,
      .emit (.forIter ⟨0⟩), .emit .pop, .emit (.jump ⟨1⟩), .bind ⟨0⟩, .emit (.loadLocal 0),
      .emit .ret, .handler ⟨⟨1⟩, ⟨0⟩, ⟨0⟩, 0⟩]⟩)
    rfl
  refine ⟨fun a code hc => ?_, rfl⟩
  match a with
  | 0 =>
      cases hc
      exact honce
  | 1 =>
      cases hc
      exact hdrain
  | a + 2 => cases hc

/-- While the generator yields, its frame and that of the loop are where they should be. -/
theorem looping_in_bounds :
    ∃ t o j, .reporting t o j ∈ (objecting.states looping 9).activities ∧
      o.event = .frameYield ∧ t.pile.length = 2 ∧ ∀ a ∈ t.pile, a.frame.InBounds := by
  have hbounds := (built_code_in_bounds objecting loaded_listening
    (.call 9 (.function 0) [] fun r =>
      .call 9 (.function 1) r.toOption.toList fun _ => .done) 9).1
  refine ⟨_, _, _, List.mem_cons_self .., rfl, rfl, (hbounds _ _ _ (List.mem_cons_self ..)).1⟩

end Machine

end Tracepoint
