/-
**A trace that is repeated repeats itself.**

A trace runs a sample as often as it is asked to.  The machine carries two things from one run to
the next: what was made on the heap, which makes no difference to the sample, and what the callbacks
have disabled.  If the callbacks disable nothing, or if what they have disabled is restored, each
run is traced like the first one.  If not, nothing is left to be heard after the first run.

Main definitions:

* `Tracepoint.Sample.ComesTo` — the outcome of a sample that nobody listens to;
* `Tracepoint.Trace.Ready` — a tool will listen in the next run with a slot.

Main results:

* `Tracepoint.Trace.exists_arm` — a trace is armed with nothing disabled;
* `Tracepoint.Trace.runs_succ_eq`, `Tracepoint.Trace.runs_eq` — **one run and many**;
* `Tracepoint.Trace.repeated_trace` — **the lines and outcomes of a repeated trace**.
-/

import Tracepoint.Proofs.Trace.Settling

set_option relaxedAutoImplicit false
set_option autoImplicit false

namespace Tracepoint

/-! ### Arming -/

namespace Registry

variable {r : Registry} {tool : Tool} {s : Slot}

/-- A tool listens with what an operation writes into its slot, if nobody else has a callback. -/
theorem listens_publish (hr : r.Reachable)
    (hothers : ∀ u, u ≠ tool → ∀ e, (r.slot u).callback? e = none) {op : Operation}
    {tables : Tables} {previous : Option Callback}
    (hop : r.apply op = (r.publish tables, .ok previous)) (hputs : r.tables.Puts tool s tables)
    (hinUse : s.inUse = true)
    (hcallbacks : ∀ e c, s.callback? e = some c → c = Trace.callback e) :
    (r.publish tables).Listens tool s where
  reachable := by
    have happly : (r.apply op).1 = r.publish tables := by rw [hop]
    exact happly ▸ hr.after (.operate op)
  slot := by rw [slot_publish, hputs.slot, if_pos rfl]
  inUse := hinUse
  callbacks := hcallbacks
  others u hu e := by
    rw [slot_publish, hputs.slot, if_neg (Ne.symm hu)]
    exact hothers u hu e

/-- A slot is taken for a trace. -/
theorem exists_claim (tool : Tool) (name : String) :
    ∃ r s, empty.apply (.claim tool name) = (r, .ok none) ∧ r.Listens tool s ∧ s.disabled = ∅ := by
  have hop : empty.apply (.claim tool name) =
      (empty.publish (empty.tables.setOwner tool (some name)), .ok none) := by
    rw [apply_claim, slot_empty]
    rfl
  have hputs : empty.tables.Puts tool { Slot.vacant with owner := some name }
      (empty.tables.setOwner tool (some name)) := by
    rw [← slot_empty tool]
    exact Registry.empty.tables.puts_setOwner tool _
  refine ⟨_, _, hop, listens_publish .empty ?_ hop hputs rfl ?_, rfl⟩
  · intro u _ e
    rw [slot_empty, Slot.callback?_vacant]
  · intro e c hc
    rw [show ({ Slot.vacant with owner := some name } : Slot).callback? e =
      Slot.vacant.callback? e from rfl, Slot.callback?_vacant] at hc
    cases hc

namespace Listens

/-- A callback of a trace is put in. -/
theorem exists_register (h : r.Listens tool s) (hs : s.disabled = ∅) (e : Event) :
    ∃ r' s' previous, r.apply (.register tool e (some (Trace.callback e))) = (r', .ok previous) ∧
      r'.Listens tool s' ∧ s'.disabled = ∅ := by
  have hinUse : (r.slot tool).inUse = true := by rw [h.slot, h.inUse]
  have hop := apply_register_some r tool e (Trace.callback e)
  rw [if_pos (show (Trace.callback e).shape = e.shape from rfl), if_pos hinUse] at hop
  have hputs : r.tables.Puts tool (s.setCallback e (some (Trace.callback e)))
      (r.tables.setCallback tool e (some (Trace.callback e))) := by
    rw [← h.slot]
    exact r.tables.puts_setCallback ..
  refine ⟨_, _, _, hop, listens_publish h.reachable h.others hop hputs h.inUse ?_, hs⟩
  intro f c hc
  rw [Slot.callback?_setCallback] at hc
  split at hc
  · rename_i hef
    cases hc
    rw [hef]
  · exact h.callbacks f c hc

/-- Events are armed for a trace, everywhere or in one code unit. -/
theorem exists_set (h : r.Listens tool s) (hs : s.disabled = ∅) {events : EventSet}
    (hevents : events.armsDerivedAlone = false) (code : CodeId) (onlyThere : Bool) :
    ∃ r' s', r.apply (if onlyThere then .setLocal tool code events else .setGlobal tool events) =
      (r', .ok none) ∧ r'.Listens tool s' ∧ s'.disabled = ∅ := by
  have hinUse : (r.slot tool).inUse = true := by rw [h.slot, h.inUse]
  cases onlyThere with
  | true =>
      have hop := apply_setLocal r tool code events
      rw [hevents, if_neg Bool.false_ne_true, if_pos hinUse] at hop
      have hputs : r.tables.Puts tool (s.setLocal code events)
          (r.tables.setLocal tool code events) := by
        rw [← h.slot]
        exact r.tables.puts_setLocal tool code events
      exact ⟨_, _, hop,
        listens_publish h.reachable h.others hop hputs h.inUse h.callbacks, hs⟩
  | false =>
      have hop := apply_setGlobal r tool events
      rw [hevents, if_neg Bool.false_ne_true, if_pos hinUse] at hop
      have hputs : r.tables.Puts tool (s.setGlobal events) (r.tables.setGlobal tool events) := by
        rw [← h.slot]
        exact r.tables.puts_setGlobal tool events
      exact ⟨_, _, hop,
        listens_publish h.reachable h.others hop hputs h.inUse h.callbacks, hs⟩

end Listens

end Registry

namespace Trace

section Operations

variable {r r' : Registry} {op : Operation} {ops more : List Operation}

theorem operateAll_cons {previous : Option Callback} (h : r.apply op = (r', .ok previous)) :
    operateAll r (op :: ops) = operateAll r' ops := by
  simp only [operateAll, List.foldlM_cons, h]
  rfl

theorem operateAll_append (h : operateAll r ops = .ok r') :
    operateAll r (ops ++ more) = operateAll r' more := by
  rw [operateAll] at h
  rw [operateAll, List.foldlM_append, h]
  rfl

end Operations

/-- The callbacks of a trace are put in one after the other. -/
theorem exists_registers {r : Registry} {tool : Tool} {s : Slot} (h : r.Listens tool s)
    (hs : s.disabled = ∅) (events : List Event) :
    ∃ r' s', operateAll r (events.map fun e => .register tool e (some (callback e))) = .ok r' ∧
      r'.Listens tool s' ∧ s'.disabled = ∅ := by
  induction events generalizing r s with
  | nil => exact ⟨r, s, rfl, h, hs⟩
  | cons e events ih =>
      obtain ⟨r₁, s₁, previous, hop, hlistens₁, hs₁⟩ := h.exists_register hs e
      obtain ⟨r₂, s₂, hrest, hlistens₂, hs₂⟩ := ih hlistens₁ hs₁
      exact ⟨r₂, s₂, (operateAll_cons hop).trans hrest, hlistens₂, hs₂⟩

/-- **A trace is armed**, with nothing disabled, if its events are not refused. -/
theorem exists_arm {o : Options} (hevents : o.events.armsDerivedAlone = false) (code : CodeId) :
    ∃ r s, operateAll .empty (arming o code) = .ok r ∧ r.Listens o.tool s ∧ s.disabled = ∅ := by
  obtain ⟨r₁, s₁, hclaim, hlistens₁, hs₁⟩ := Registry.exists_claim o.tool "vigil trace"
  obtain ⟨r₂, s₂, hregister, hlistens₂, hs₂⟩ :=
    exists_registers hlistens₁ hs₁ o.events.delivered.toList
  obtain ⟨r₃, s₃, hset, hlistens₃, hs₃⟩ := hlistens₂.exists_set hs₂ hevents code o.onlyEntry
  refine ⟨r₃, s₃, ?_, hlistens₃, hs₃⟩
  rw [arming, List.cons_append, operateAll_cons hclaim, operateAll_append hregister,
    operateAll_cons hset]
  rfl

/-! ### Runs -/

/-- **A tool will listen in the next run** with a slot, in which what was disabled is restored if
the options ask for it. -/
def Ready (o : Options) (w : World Memory) (s : Slot) : Prop :=
  ∃ s', w.registry.Listens o.tool s' ∧
    (if o.restart && w.memory.outcomes.size != 0 then s'.enabled else s') = s

section Runs

variable {o : Options} {entry : Value} {codes : Array Code} {reports : List (String × Site)}
  {result : Except Exception Value}

/-- **One run** leaves the tool with the slot after the reports. -/
theorem runs_succ_eq (hsettles : entry.Settles codes o.maxDepth reports result)
    (hshort : Brief reports) {w : World Memory} (hheap : w.heap.codes = codes)
    {s : Slot} (hready : Ready o w s) (n : ℕ) :
    ∃ w', runs o entry (n + 1) w = runs o entry n w' ∧ w'.heap.codes = codes ∧
      w'.registry.Listens o.tool (s.after o.answer reports) ∧
      w'.memory.lines = w.memory.lines ++ (s.lines o.answer reports).toArray ∧
      w'.memory.outcomes = w.memory.outcomes.push result := by
  obtain ⟨last, hlast, htells⟩ := hsettles w.heap hheap
  have hlistens : (if o.restart && w.memory.outcomes.size != 0 then w.registry.restart
      else w.registry).Listens o.tool s := by
    obtain ⟨s', hs', hnext⟩ := hready
    split
    · rename_i hrestart
      rw [← hnext, if_pos hrestart]
      exact hs'.restart
    · rename_i hrestart
      rwa [← hnext, if_neg hrestart]
  obtain ⟨r', hr', honce⟩ := callOnce_eq htells hshort hlistens w.memory
  refine ⟨⟨r', last, w.memory.lines ++ (s.lines o.answer reports).toArray,
    w.memory.outcomes.push result⟩, ?_, hlast, hr', rfl, rfl⟩
  rw [runs]
  simp only [honce]
  rfl

/-- **Many runs**, if the tool has always the same slot before a run. -/
theorem runs_eq (hsettles : entry.Settles codes o.maxDepth reports result)
    (hshort : Brief reports) {s : Slot}
    (hsame : (if o.restart then (s.after o.answer reports).enabled
      else s.after o.answer reports) = s) (n : ℕ) {w : World Memory}
    (hheap : w.heap.codes = codes) (hready : Ready o w s) :
    ∃ w' s', runs o entry n w = some w' ∧ w'.registry.Listens o.tool s' ∧
      w'.memory.lines.toList = w.memory.lines.toList ++
        (List.replicate n (s.lines o.answer reports)).flatten ∧
      w'.memory.outcomes.toList = w.memory.outcomes.toList ++ List.replicate n result := by
  induction n generalizing w with
  | zero =>
      obtain ⟨s', hs', -⟩ := hready
      exact ⟨w, s', rfl, hs', by simp, by simp⟩
  | succ n ih =>
      obtain ⟨w₁, hruns₁, hheap₁, hlistens₁, hlines₁, houtcomes₁⟩ :=
        runs_succ_eq hsettles hshort hheap hready n
      have hready₁ : Ready o w₁ s := by
        refine ⟨_, hlistens₁, ?_⟩
        rw [houtcomes₁, Array.size_push]
        simpa using hsame
      obtain ⟨w₂, s₂, hruns₂, hlistens₂, hlines₂, houtcomes₂⟩ := ih hheap₁ hready₁
      refine ⟨w₂, s₂, hruns₁.trans hruns₂, hlistens₂, ?_, ?_⟩
      · rw [hlines₂, hlines₁, List.replicate_succ, List.flatten_cons]
        simp
      · rw [houtcomes₂, houtcomes₁, List.replicate_succ]
        simp

end Runs

/-! ### Traces -/

/-- The slot is taken again at the end of a trace. -/
theorem exists_free {r : Registry} {tool : Tool} {s : Slot} (h : r.Listens tool s) :
    ∃ r', operateAll r [.free tool] = .ok r' := by
  have hop := r.apply_free tool
  rw [if_pos (by rw [h.slot, h.inUse])] at hop
  exact ⟨_, operateAll_cons hop⟩

section Traces

variable {o : Options} {entry : Value} {heap : Heap} {reports : List (String × Site)}
  {result : Except Exception Value} {r : Registry} {s : Slot}

/-- All runs of a trace: if the callbacks disable and nothing is restored, there are lines of the
first run only, and otherwise the same lines of each. -/
theorem exists_runs (hsettles : entry.Settles heap.codes o.maxDepth reports result)
    (hshort : Brief reports) (hr : r.Listens o.tool s) (hs : s.disabled = ∅)
    (hn : 1 ≤ o.repetitions) :
    ∃ w s', runs o entry o.repetitions ⟨r, heap, default⟩ = some w ∧ w.registry.Listens o.tool s' ∧
      w.memory.lines.toList =
        (if o.disable && !o.restart then s.lines o.answer reports
          else (List.replicate o.repetitions (s.lines o.answer reports)).flatten) ∧
      w.memory.outcomes.toList = List.replicate o.repetitions result := by
  have hready : Ready o ⟨r, heap, default⟩ s := by
    refine ⟨s, hr, if_neg ?_⟩
    rw [Bool.and_eq_true, not_and]
    exact fun _ => Bool.false_ne_true
  by_cases hsilent : (o.disable && !o.restart) = true
  · obtain ⟨hdisable, hrestart⟩ := Bool.and_eq_true_iff.1 hsilent
    rw [Bool.not_eq_true'] at hrestart
    have hanswer : o.answer = .disable := if_pos hdisable
    obtain ⟨hnothing, hsame⟩ := s.lines_after reports
    obtain ⟨n, hrepetitions⟩ := Nat.exists_eq_add_of_le' hn
    obtain ⟨w₁, hruns₁, hheap₁, hlistens₁, hlines₁, houtcomes₁⟩ :=
      runs_succ_eq hsettles hshort (w := ⟨r, heap, default⟩) rfl hready n
    rw [hanswer] at hlistens₁
    have hready₁ : Ready o w₁ (s.after .disable reports) :=
      ⟨_, hlistens₁, by rw [hrestart]; rfl⟩
    obtain ⟨w₂, s₂, hruns₂, hlistens₂, hlines₂, houtcomes₂⟩ :=
      runs_eq hsettles hshort (by rw [hrestart, hanswer]; exact hsame) n hheap₁ hready₁
    refine ⟨w₂, s₂, ?_, hlistens₂, ?_, ?_⟩
    · rw [hrepetitions, hruns₁, hruns₂]
    · rw [if_pos hsilent, hlines₂, hlines₁, hanswer, hnothing]
      simp [show (default : Memory).lines = #[] from rfl]
    · rw [hrepetitions, houtcomes₂, houtcomes₁, List.replicate_succ]
      simp [show (default : Memory).outcomes = #[] from rfl]
  · have hsame : (if o.restart then (s.after o.answer reports).enabled
        else s.after o.answer reports) = s := by
      cases hrestart : o.restart with
      | true =>
          rw [if_pos rfl, Slot.enabled_after, Slot.enabled, ← hs]
      | false =>
          have hanswer : o.answer = .proceed := by
            refine if_neg fun hdisable => hsilent ?_
            rw [hdisable, hrestart]
            rfl
          rw [if_neg Bool.false_ne_true, hanswer, Slot.after_proceed]
    obtain ⟨w, s', hruns, hlistens, hlines, houtcomes⟩ :=
      runs_eq hsettles hshort hsame o.repetitions (w := ⟨r, heap, default⟩) rfl hready
    refine ⟨w, s', hruns, hlistens, ?_, houtcomes⟩
    rw [if_neg hsilent]
    exact hlines

/-- A trace comes to a report. -/
theorem exists_run {sample : Sample} (hfind : Sample.find? sample.name = some sample)
    (hload : sample.load .empty = .ok (entry, heap))
    (harm : operateAll .empty (arming o (codeOf entry)) = .ok r)
    (hsettles : entry.Settles heap.codes o.maxDepth reports result)
    (hshort : Brief reports) (hr : r.Listens o.tool s) (hs : s.disabled = ∅)
    (hn : 1 ≤ o.repetitions) :
    ∃ report, run sample.name o = .ok report ∧
      report.lines = (if o.disable && !o.restart then s.lines o.answer reports
        else (List.replicate o.repetitions (s.lines o.answer reports)).flatten) ∧
      report.outcomes = List.replicate o.repetitions result := by
  obtain ⟨w, s', hruns, hlistens, hlines, houtcomes⟩ := exists_runs hsettles hshort hr hs hn
  obtain ⟨r', hfree⟩ := exists_free hlistens
  refine ⟨⟨w.memory.lines.toList, w.memory.outcomes.toList, w.heap⟩, ?_, hlines, houtcomes⟩
  simp only [run, hfind, hload, harm, hruns, hfree, Except.mapError, bind, Except.bind, pure,
    Except.pure]

end Traces

end Trace

namespace Sample

/-- Each sample is found by its name. -/
theorem find?_of_mem : ∀ s ∈ all, find? s.name = some s := by
  simp only [all, List.forall_mem_cons]
  refine ⟨rfl, rfl, rfl, rfl, rfl, rfl, rfl, rfl, rfl, rfl, rfl, rfl, rfl, rfl, rfl, rfl, rfl, rfl,
    rfl, List.forall_mem_nil _⟩

/-- **The outcome of a sample that nobody listens to**, whatever callbacks there might be. -/
def ComesTo (s : Sample) (limit : ℕ) (r : Except Exception Value) : Prop :=
  ∃ entry heap, s.load .empty = .ok (entry, heap) ∧
    ∀ {σ : Type} (behave : Callback → Payload → Script σ) (memory : σ),
      ∃ w, (Machine.of behave).Returns ⟨.empty, heap, memory⟩ limit entry [] w r

theorem comesTo_of_settles {s : Sample} {entry : Value} {heap : Heap} {limit : ℕ}
    {reports : List (String × Site)} {r : Except Exception Value}
    (hload : s.load .empty = .ok (entry, heap))
    (hsettles : entry.Settles heap.codes limit reports r) : s.ComesTo limit r := by
  refine ⟨entry, heap, hload, fun behave memory => ?_⟩
  obtain ⟨last, -, htells⟩ := hsettles heap rfl
  have hquiet : QuietCallbacks (fun _ => False) behave := fun _ _ hnobody => hnobody.elim
  obtain ⟨w, -, hreturns⟩ := (Machine.exists_returns_iff hquiet
    (w := ⟨.empty, heap, memory⟩) (Registry.hasOnly_empty _) limit entry [] last r).2
      ⟨_, htells.unheard⟩
  exact ⟨w, hreturns⟩

end Sample

namespace Trace

/-- **A trace that is repeated repeats itself.**  If what the callbacks disable is never restored,
the lines are those of a single run, and otherwise they are those of a single run over and over.
The outcomes are always that of the sample if nobody listens. -/
theorem repeated_trace {s : Sample} (hs : s ∈ Sample.all) (o : Options)
    (hcall : o.events.has .nativeReturn = true ∨ o.events.has .nativeRaise = true →
      o.events.has .call = true) {n : ℕ} (hn : 1 ≤ n) :
    ∃ once many r, run s.name { o with repetitions := 1 } = .ok once ∧
      run s.name { o with repetitions := n } = .ok many ∧ s.ComesTo o.maxDepth r ∧
      many.lines = (if o.disable = true ∧ o.restart = false then once.lines
        else (List.replicate n once.lines).flatten) ∧
      many.outcomes = List.replicate n r := by
  have hevents : o.events.armsDerivedAlone = false := by
    rw [EventSet.armsDerivedAlone, Bool.and_eq_false_iff, Bool.not_eq_false', Bool.or_eq_false_iff]
    by_cases hc : o.events.has .call = true
    · exact Or.inr hc
    · simpa [hc] using mt hcall hc
  obtain ⟨entry, heap, hload, hlimits⟩ := Sample.settles_of_mem hs
  obtain ⟨reports, result, hshort, hsettles⟩ := hlimits o.maxDepth
  obtain ⟨r, slot, harm, hlistens, hdisabled⟩ := exists_arm hevents (codeOf entry)
  have hfind := Sample.find?_of_mem s hs
  obtain ⟨once, hrunOnce, hlinesOnce, -⟩ := exists_run (o := { o with repetitions := 1 })
    hfind hload harm hsettles hshort hlistens hdisabled (Nat.le_refl 1)
  obtain ⟨many, hrunMany, hlinesMany, houtcomes⟩ := exists_run (o := { o with repetitions := n })
    hfind hload harm hsettles hshort hlistens hdisabled hn
  refine ⟨once, many, result, hrunOnce, hrunMany, Sample.comesTo_of_settles hload hsettles, ?_,
    houtcomes⟩
  have honce : once.lines = slot.lines o.answer reports := by
    rw [hlinesOnce]
    split
    · rfl
    · exact List.append_nil _
  rw [honce, hlinesMany]
  show (if o.disable && !o.restart then slot.lines o.answer reports
    else (List.replicate n (slot.lines o.answer reports)).flatten) = _
  cases o.disable <;> cases o.restart <;> rfl

/-- A loop whose lines are disabled as they are met, and restored before the second run. -/
theorem floop_repeated :
    ∃ once many r,
      run "floop" { events := .single .line, disable := true, restart := true } = .ok once ∧
      run "floop" { events := .single .line, disable := true, restart := true, repetitions := 2 } =
        .ok many ∧
      once.lines = ["LINE              floop@0 line 21", "LINE              floop@8 line 22",
        "LINE              floop@12 line 21"] ∧
      many.lines = once.lines ++ once.lines ∧ many.outcomes = [r, r] := by
  obtain ⟨once, many, r, honce, hmany, -, hlines, houtcomes⟩ :=
    repeated_trace (s := Sample.all[7]) (List.getElem_mem _)
      { events := .single .line, disable := true, restart := true } (by decide) (n := 2) (by decide)
  have hcomputed : (run "floop" { events := .single .line, disable := true, restart := true
      }).toOption.map Report.lines = some ["LINE              floop@0 line 21",
        "LINE              floop@8 line 22", "LINE              floop@12 line 21"] := by
    decide +kernel
  have hfound : run "floop" { events := .single .line, disable := true, restart := true } =
      .ok once := honce
  rw [hfound] at hcomputed
  refine ⟨once, many, r, hfound, hmany, Option.some.inj hcomputed, ?_, houtcomes⟩
  rw [hlines, if_neg (by decide)]
  simp

end Trace

end Tracepoint
