/-
**What a trace writes of one run.**

The callbacks of a trace do no more than write a line and answer, and the answer may be that nothing
more is to be reported of the event at the place.  So what a trace writes of a run is settled by two
things: what the thread comes to tell if nobody answers it, and the slot of the one tool that
listens.  From report to report the slot either stays as it is or has one more site disabled.

A thread tells the same wherever its values are on the heap.

Main definitions:

* `Tracepoint.Activity.Tells` — **the reports of a thread that nobody answers**, each as a line and
  a site, and what the thread comes to;
* `Tracepoint.Slot.told`, `Tracepoint.Slot.after` — a slot after one report, and after many;
* `Tracepoint.Slot.lines` — **the lines that are written of reports**;
* `Tracepoint.Registry.Listens` — one tool listens with the callbacks of a trace.

Main results:

* `Tracepoint.Activity.Tells.behind` — **the same is told in any heap**;
* `Tracepoint.Slot.lines_after` — what was disabled once is silent for good;
* `Tracepoint.Trace.report_reaches`, `Tracepoint.Trace.thread_reaches` — **one report and a whole
  run** under a listening tool;
* `Tracepoint.Trace.callOnce_eq` — a run of a trace.
-/

import Tracepoint.Proofs.Delivery.Projection
import Tracepoint.Proofs.Registry.Recall
import Tracepoint.Proofs.Thread.Moved
import Tracepoint.Proofs.Thread.Suspension

set_option relaxedAutoImplicit false
set_option autoImplicit false

namespace Tracepoint

/-! ### What a thread comes to tell -/

/-- **The reports of a thread that nobody answers**, in order: what would be written of each of them
and where it is made, and the heap and the result in the end.  All threads on the way are of a
kind. -/
inductive Activity.Tells (kind : Thread → Prop) :
    Heap × Activity → List (String × Site) → Heap × Except Exception Value → Prop
  | finished (h : Heap) (r : Except Exception Value) : Tells kind (h, .finished r) [] (h, r)
  | reporting {h : Heap} {t : Thread} {o : Occurrence} {j : Juncture}
      {reports : List (String × Site)} {last : Heap × Except Exception Value} (ht : kind t)
      (rest : Tells kind (t.proceed h j) reports last) :
      Tells kind (h, .reporting t o j) ((Trace.line h o, o.site) :: reports) last

namespace Activity.Tells

variable {kind : Thread → Prop} {p : Heap × Activity} {reports : List (String × Site)}
  {last : Heap × Except Exception Value}

/-- The thread goes on to its next report as often as it reports. -/
theorem unheard (hp : Tells kind p reports last) :
    Activity.unheard^[reports.length] p = (last.1, .finished last.2) := by
  induction hp with
  | finished h r => rfl
  | reporting ht rest ih =>
      rw [List.length_cons, Function.iterate_succ_apply]
      exact ih

/-- **The same is told in any heap**, and under any limit that makes no difference to the threads on
the way. -/
theorem behind (hp : Tells kind p reports last) (g : Heap) {limit : ℕ}
    (hroom : ∀ t, kind t → (t.behind g limit).hasRoom = t.hasRoom) :
    Tells (fun _ => True) (turnBehind g limit p) reports
      (last.1.behind g, resultBehind g last.2) := by
  induction hp with
  | finished h r => exact .finished ..
  | @reporting h t o j reports last ht rest ih =>
      rw [← t.proceed_behind g limit h (hroom t ht) j] at ih
      have htells : Tells (fun _ => True) (turnBehind g limit (h, .reporting t o j))
          ((Trace.line (h.behind g) (o.behind g), (o.behind g).site) :: reports)
          (last.1.behind g, resultBehind g last.2) := .reporting trivial ih
      rwa [Trace.line_behind, Occurrence.site_behind] at htells

/-- The code units stay where they are. -/
theorem codes_eq (hp : Tells kind p reports last) (hs : p.2.Sound) :
    last.1.codes = p.1.codes := by
  induction hp with
  | finished h r => rfl
  | @reporting h t o j reports last ht rest ih =>
      have hs' : (t.proceed h j).2.Sound := sound_resume hs h (.ok ())
      exact (ih hs').trans (Thread.evolves_resume (h := h) hs (.ok ())).codes

end Activity.Tells

/-! ### A slot and what its tool hears -/

namespace Slot

/-- A slot after a report at a place, to which its callbacks give an answer. -/
def told (action : Action) (s : Slot) (site : Site) : Slot :=
  match action with
  | .proceed => s
  | .disable =>
      if (s.target? site).isSome then { s with disabled := s.disabled.insert site } else s

/-- **A slot after reports.** -/
def after (action : Action) (s : Slot) (reports : List (String × Site)) : Slot :=
  reports.foldl (fun s report => s.told action report.2) s

/-- **The lines that are written of reports**: those of the reports that the tool hears. -/
def lines (action : Action) : Slot → List (String × Site) → List String
  | _, [] => []
  | s, (line, site) :: reports =>
      (if (s.target? site).isSome then [line] else []) ++ (s.told action site).lines action reports

theorem after_cons (action : Action) (s : Slot) (line : String) (site : Site)
    (reports : List (String × Site)) :
    s.after action ((line, site) :: reports) = (s.told action site).after action reports := rfl

/-- A slot changes in no more than what is disabled. -/
theorem told_eq (action : Action) (s : Slot) (site : Site) :
    s.told action site = { s with disabled := (s.told action site).disabled } := by
  cases action with
  | proceed => rfl
  | disable =>
      unfold told
      dsimp only
      split <;> rfl

theorem enabled_told (action : Action) (s : Slot) (site : Site) :
    (s.told action site).enabled = s.enabled := by
  rw [told_eq]
  rfl

theorem enabled_after (action : Action) (s : Slot) (reports : List (String × Site)) :
    (s.after action reports).enabled = s.enabled := by
  induction reports generalizing s with
  | nil => rfl
  | cons report reports ih =>
      obtain ⟨line, site⟩ := report
      rw [after_cons, ih, enabled_told]

/-- If the callbacks disable nothing, nothing changes. -/
theorem after_proceed (s : Slot) (reports : List (String × Site)) :
    s.after .proceed reports = s := by
  induction reports with
  | nil => rfl
  | cons report reports ih => exact ih

/-- The tool does not hear of a place. -/
theorem target?_eq_none_iff {s : Slot} {site : Site} :
    s.target? site = none ↔ (s.effective site.code).has site.event = false ∨
      s.isDisabled site = true ∨ s.callback? site.event = none := by
  unfold target?
  cases (s.effective site.code).has site.event <;> cases s.isDisabled site <;> simp

/-- What is disabled besides makes nothing heard. -/
theorem target?_insert_of_none {s : Slot} {site : Site} (h : s.target? site = none)
    (entry : Site) :
    ({ s with disabled := s.disabled.insert entry } : Slot).target? site = none := by
  rw [target?_eq_none_iff] at h ⊢
  rcases h with heffective | hdisabled | hcallback
  · exact Or.inl heffective
  · obtain ⟨covering, hmem, hcovers⟩ := isDisabled_iff.1 hdisabled
    exact Or.inr (Or.inl (isDisabled_iff.2
      ⟨covering, SiteSet.mem_insert.2 (Or.inr hmem), hcovers⟩))
  · exact Or.inr (Or.inr hcallback)

/-- What is disabled is not heard. -/
theorem target?_insert_self (s : Slot) (site : Site) :
    ({ s with disabled := s.disabled.insert site } : Slot).target? site = none := by
  rw [target?_eq_none_iff]
  exact Or.inr (Or.inl (isDisabled_iff.2
    ⟨site, SiteSet.mem_insert.2 (Or.inl rfl), rfl, rfl, Or.inl rfl⟩))

theorem target?_told_of_none {s : Slot} {site : Site} (h : s.target? site = none)
    (action : Action) (other : Site) : (s.told action other).target? site = none := by
  cases action with
  | proceed => exact h
  | disable =>
      unfold told
      dsimp only
      split
      · exact target?_insert_of_none h other
      · exact h

/-- What is not heard is not heard later. -/
theorem target?_after_of_none {s : Slot} {site : Site} (h : s.target? site = none)
    (action : Action) (reports : List (String × Site)) :
    (s.after action reports).target? site = none := by
  induction reports generalizing s with
  | nil => exact h
  | cons report reports ih => exact ih (target?_told_of_none h action report.2)

/-- A callback that disables hears of a place once. -/
theorem target?_told_self (s : Slot) (site : Site) :
    (s.told .disable site).target? site = none := by
  unfold told
  dsimp only
  split
  · exact s.target?_insert_self site
  · rename_i hnone
    simpa using hnone

/-- **No place that was reported is heard afterwards**, if the callbacks disable. -/
theorem target?_after_eq_none {s : Slot} {reports : List (String × Site)} :
    ∀ report ∈ reports, (s.after .disable reports).target? report.2 = none := by
  induction reports generalizing s with
  | nil => exact List.forall_mem_nil _
  | cons report reports ih =>
      obtain ⟨line, site⟩ := report
      rw [List.forall_mem_cons]
      exact ⟨target?_after_of_none (s.target?_told_self site) .disable reports, ih⟩

/-- Of what is not heard nothing is written, and nothing is disabled. -/
theorem lines_of_silent {s : Slot} {reports : List (String × Site)}
    (h : ∀ report ∈ reports, s.target? report.2 = none) (action : Action) :
    s.lines action reports = [] ∧ s.after action reports = s := by
  induction reports with
  | nil => exact ⟨rfl, rfl⟩
  | cons report reports ih =>
      obtain ⟨line, site⟩ := report
      obtain ⟨hnone, hrest⟩ := List.forall_mem_cons.1 h
      have htold : s.told action site = s := by
        cases action with
        | proceed => rfl
        | disable => exact if_neg (by simp [hnone])
      obtain ⟨hlines, hafter⟩ := ih hrest
      rw [lines, after_cons, htold, hlines, hafter, hnone]
      exact ⟨rfl, rfl⟩

/-- **What was disabled once is silent for good**: of the same reports nothing is written a second
time, and the slot stays as it is. -/
theorem lines_after (s : Slot) (reports : List (String × Site)) :
    (s.after .disable reports).lines .disable reports = [] ∧
      (s.after .disable reports).after .disable reports = s.after .disable reports :=
  lines_of_silent target?_after_eq_none .disable

end Slot

/-! ### One tool listens -/

namespace Registry

/-- **One tool listens**: its slot has an owner and the callbacks of a trace, and nobody else has a
callback. -/
structure Listens (r : Registry) (tool : Tool) (s : Slot) : Prop where
  reachable : r.Reachable
  slot : r.slot tool = s
  inUse : s.inUse = true
  callbacks : ∀ e c, s.callback? e = some c → c = Trace.callback e
  others : ∀ u, u ≠ tool → ∀ e, (r.slot u).callback? e = none

namespace Listens

variable {r : Registry} {tool : Tool} {s : Slot}

/-- A report goes to the tool or to nobody. -/
theorem targets_eq (h : r.Listens tool s) (site : Site) :
    r.targets site = (s.target? site).toList.map fun c => (tool, c) := by
  have hmine : r.target? tool site = s.target? site := by rw [Registry.target?_eq, h.slot]
  have honly : ∀ target ∈ r.targets site, target.1 = tool := by
    rintro ⟨u, c⟩ htarget
    by_contra hne
    have hc := (target?_eq_some.1 (mem_targets.1 htarget)).2.2
    rw [h.others u hne] at hc
    cases hc
  cases htarget : s.target? site with
  | none =>
      refine List.eq_nil_iff_forall_not_mem.2 ?_
      rintro ⟨u, c⟩ hmem
      obtain rfl : u = tool := honly _ hmem
      rw [mem_targets, hmine, htarget] at hmem
      cases hmem
  | some c =>
      obtain ⟨front, back, hsplit, hfront, hback⟩ := targets_split (hmine.trans htarget)
      have hfront_nil : front = [] := List.eq_nil_iff_forall_not_mem.2 fun target hmem =>
        Fin.ne_of_lt (hfront target hmem) (honly target (by rw [hsplit]; simp [hmem]))
      have hback_nil : back = [] := List.eq_nil_iff_forall_not_mem.2 fun target hmem =>
        Fin.ne_of_gt (hback target hmem) (honly target (by rw [hsplit]; simp [hmem]))
      rw [hsplit, hfront_nil, hback_nil]
      rfl

/-- The tool still listens when something is disabled for it. -/
theorem disable (h : r.Listens tool s) (site : Site) :
    (r.disable tool site).Listens tool { s with disabled := s.disabled.insert site } where
  reachable := h.reachable.after (.disable tool site)
  slot := by rw [slot_disable, if_pos rfl, h.slot]
  inUse := h.inUse
  callbacks := h.callbacks
  others u hu e := by rw [slot_disable, if_neg (Ne.symm hu), h.others u hu e]

/-- The tool still listens when everything is reported again. -/
theorem restart (h : r.Listens tool s) : r.restart.Listens tool s.enabled where
  reachable := h.reachable.after (.operate .restart)
  slot := by rw [slot_restart, h.slot]; rfl
  inUse := h.inUse
  callbacks := h.callbacks
  others u hu e := by rw [slot_restart]; exact h.others u hu e

end Listens

end Registry

/-! ### Bounded stretches of a run -/

namespace Machine

variable {σ : Type}

/-- A state comes at most so many steps after another one. -/
def ReachesWithin (m : Machine σ) (bound : ℕ) (s s' : State σ) : Prop :=
  ∃ n ≤ bound, m.states s n = s'

theorem ReachesWithin.trans {m : Machine σ} {a b : ℕ} {s s' s'' : State σ}
    (h : m.ReachesWithin a s s') (h' : m.ReachesWithin b s' s'') :
    m.ReachesWithin (a + b) s s'' := by
  obtain ⟨n, hn, rfl⟩ := h
  obtain ⟨k, hk, rfl⟩ := h'
  exact ⟨k + n, by omega, m.states_add s k n⟩

/-- A run is over when nothing is left to do. -/
theorem run_of_states {m : Machine σ} {s : State σ} {n fuel : ℕ} (hn : n < fuel)
    (hover : (m.states s n).isOver = true) : m.run fuel s = some (m.states s n).world := by
  induction n generalizing s fuel with
  | zero =>
      obtain ⟨fuel, rfl⟩ := Nat.exists_eq_add_of_lt hn
      exact if_pos hover
  | succ n ih =>
      obtain ⟨fuel, rfl⟩ : ∃ k, fuel = k + 1 := ⟨fuel - 1, by omega⟩
      rw [run]
      split
      · rename_i hdone
        rw [states_of_isOver hdone]
      · rw [states_succ'] at hover ⊢
        exact ih (by omega) hover

theorem ReachesWithin.run {m : Machine σ} {bound fuel : ℕ} {s s' : State σ}
    (h : m.ReachesWithin bound s s') (hover : s'.isOver = true) (hbound : bound < fuel) :
    m.run fuel s = some s'.world := by
  obtain ⟨n, hn, rfl⟩ := h
  exact run_of_states (by omega) hover

end Machine

/-! ### A run under a listening tool -/

namespace Trace

theorem eventOf_callback (e : Event) : eventOf (callback e) = e := by
  cases e <;> rfl

section Run

variable {r : Registry} {tool : Tool} {s : Slot} (action : Action)

section Report

variable {o : Occurrence} (h : Heap) (memory : Memory) (t : Thread) (j : Juncture)
  (k : Except Exception Value → Script Memory)

/-- A report that the tool does not hear changes nothing, and the thread goes on. -/
theorem silent_report_reaches (hr : r.Listens tool s) (htarget : s.target? o.site = none) :
    (Machine.of (printer action)).ReachesWithin 2
      ⟨⟨r, h, memory⟩, [], .thread (.reporting t o j) k⟩
      ⟨⟨r, (t.proceed h j).1, memory⟩, [], .thread (t.proceed h j).2 k⟩ := by
  have hpending : (r.dispatch o).pending = [] := by
    rw [Registry.dispatch, hr.targets_eq, htarget]
    rfl
  rcases Machine.openDispatch_cases (printer action) (w := ⟨r, h, memory⟩) hr.reachable [] o
    (.thread t j k) with hopen | ⟨-, hclosed⟩
  · refine ⟨2, Nat.le_refl 2, ?_⟩
    rw [Machine.states_succ', Machine.states_succ', Machine.states_zero]
    show Machine.advance _ (Machine.openDispatch _ _ _ _ _) = _
    rw [hopen]
    exact Machine.advanceDispatch_nil hpending
  · exact ⟨1, by omega, hclosed⟩

/-- Of a report that the tool hears its callback writes the line, and the thread goes on. -/
theorem heard_report_reaches (hr : r.Listens tool s) (hshape : o.payload.shape = o.event.shape)
    {c : Callback} (htarget : s.target? o.site = some c) :
    ∃ r', r'.Listens tool (s.told action o.site) ∧
      (Machine.of (printer action)).ReachesWithin 6
        ⟨⟨r, h, memory⟩, [], .thread (.reporting t o j) k⟩
        ⟨⟨r', (t.proceed h j).1, { memory with lines := memory.lines.push (line h o) }⟩, [],
          .thread (t.proceed h j).2 k⟩ := by
  have hmine : r.target? tool o.site = some c := by rw [Registry.target?_eq, hr.slot, htarget]
  obtain rfl : c = callback o.event := by
    refine hr.callbacks o.event c ?_
    rw [← hr.slot]
    exact (Registry.target?_eq_some.1 hmine).2.2
  have hpending : (r.dispatch o).pending = [(tool, callback o.event)] := by
    rw [Registry.dispatch, hr.targets_eq, htarget]
    rfl
  have hopen := Machine.openDispatch_of_target? (printer action) (w := ⟨r, h, memory⟩)
    hr.reachable hmine [] (.thread t j k)
  -- nothing changes before the tool is called, so that it is called as the snapshot says
  have hcalled : (Machine.of (printer action)).advanceDispatch ⟨r, h, memory⟩ []
      (r.dispatch o) (.thread t j k) =
        ⟨⟨r, h, memory⟩, [⟨tool, callback o.event, ⟨o, [], r.version⟩, .thread t j k⟩],
          .script (printer action (callback o.event) o.payload)⟩ :=
    Machine.advanceDispatch_some hpending (if_pos rfl) hshape.symm
  -- the callback looks around, writes and answers, and then the dispatch is over
  obtain ⟨r', hr', hanswered⟩ : ∃ r', r'.Listens tool (s.told action o.site) ∧
      (Machine.of (printer action)).states ⟨⟨r, h, memory⟩,
          [⟨tool, callback o.event, ⟨o, [], r.version⟩, .thread t j k⟩],
          .script (printer action (callback o.event) o.payload)⟩ 4 =
        ⟨⟨r', (t.proceed h j).1, { memory with
            lines := memory.lines.push (line h ⟨eventOf (callback o.event), o.payload⟩) }⟩,
          [], .thread (t.proceed h j).2 k⟩ := by
    cases action with
    | proceed => exact ⟨r, hr, rfl⟩
    | disable =>
        refine ⟨r.disable tool o.site, ?_, rfl⟩
        rw [Slot.told, htarget]
        exact hr.disable o.site
  rw [eventOf_callback] at hanswered
  refine ⟨r', hr', 6, Nat.le_refl 6, ?_⟩
  rw [Machine.states_succ', Machine.states_succ']
  show Machine.states _ (Machine.advance _ (Machine.openDispatch _ _ _ _ _)) 4 = _
  rw [hopen]
  show Machine.states _ (Machine.advanceDispatch _ _ _ _ _) 4 = _
  rw [hcalled, hanswered]

/-- **One report.**  The tool writes its line if it hears of the place, and the thread goes on. -/
theorem report_reaches (hr : r.Listens tool s) (hshape : o.payload.shape = o.event.shape) :
    ∃ r', r'.Listens tool (s.told action o.site) ∧
      (Machine.of (printer action)).ReachesWithin 6
        ⟨⟨r, h, memory⟩, [], .thread (.reporting t o j) k⟩
        ⟨⟨r', (t.proceed h j).1, { memory with
            lines := memory.lines ++ (s.lines action [(line h o, o.site)]).toArray }⟩, [],
          .thread (t.proceed h j).2 k⟩ := by
  cases htarget : s.target? o.site with
  | none =>
      have hsilent : ∀ report ∈ [(line h o, o.site)], s.target? report.2 = none := by
        simpa using htarget
      obtain ⟨hlines, hafter⟩ := Slot.lines_of_silent hsilent action
      have htold : s.told action o.site = s := hafter
      obtain ⟨n, hn, hreach⟩ := silent_report_reaches action h memory t j k hr htarget
      refine ⟨r, by rwa [htold], n, by omega, ?_⟩
      rw [hlines, hreach]
      simp
  | some c =>
      have hlines : s.lines action [(line h o, o.site)] = [line h o] := by
        simp [Slot.lines, htarget]
      obtain ⟨r', hr', hreach⟩ := heard_report_reaches action h memory t j k hr hshape htarget
      refine ⟨r', hr', ?_⟩
      rw [hlines]
      simpa using hreach

end Report

/-- **A whole run.**  Under a listening tool a thread comes to what it comes to if nobody answers,
and the tool writes the lines of what it hears. -/
theorem thread_reaches {p : Heap × Activity} {reports : List (String × Site)}
    {last : Heap × Except Exception Value} {kind : Thread → Prop}
    (hp : Activity.Tells kind p reports last) (hs : p.2.Sound) (hr : r.Listens tool s)
    (memory : Memory) (k : Except Exception Value → Script Memory) :
    ∃ r', r'.Listens tool (s.after action reports) ∧
      (Machine.of (printer action)).ReachesWithin (6 * reports.length)
        ⟨⟨r, p.1, memory⟩, [], .thread p.2 k⟩
        ⟨⟨r', last.1, { memory with
            lines := memory.lines ++ (s.lines action reports).toArray }⟩, [],
          .thread (.finished last.2) k⟩ := by
  induction hp generalizing r s memory with
  | finished h result =>
      refine ⟨r, hr, 0, Nat.le_refl 0, ?_⟩
      simp [Slot.lines]
  | @reporting h t o j reports last ht rest ih =>
      have hs' : (t.proceed h j).2.Sound := Activity.sound_resume hs h (.ok ())
      obtain ⟨r₁, hr₁, hreport⟩ :=
        report_reaches action h memory t j k hr (Frame.Tells.shape_eq hs.tells)
      obtain ⟨r₂, hr₂, hrest⟩ := ih hs' hr₁ _
      refine ⟨r₂, hr₂, ?_⟩
      have hboth := hreport.trans hrest
      have hlines : s.lines action ((line h o, o.site) :: reports) =
          s.lines action [(line h o, o.site)] ++ (s.told action o.site).lines action reports := by
        simp [Slot.lines]
      rw [hlines, List.length_cons, Nat.mul_succ, Nat.add_comm]
      simpa using hboth

/-- Reports that are few enough: a script is given the steps for all of them. -/
def Brief (reports : List (String × Site)) : Prop := reports.length < 0x100000000

/-- What the callbacks of a trace answer. -/
def Options.answer (o : Options) : Action := if o.disable then .disable else .proceed

/-- **A run of a trace** comes to its end, with the lines of what the tool hears and the result of
the call. -/
theorem callOnce_eq {o : Options} {entry : Value} {h : Heap} {reports : List (String × Site)}
    {last : Heap × Except Exception Value} {kind : Thread → Prop}
    (hp : Activity.Tells kind (Activity.call h o.maxDepth entry []) reports last)
    (hshort : Brief reports) (hr : r.Listens tool s) (memory : Memory) :
    ∃ r', r'.Listens tool (s.after o.answer reports) ∧
      (machine o).perform ⟨r, h, memory⟩ (callOnce o entry) =
        some ⟨r', last.1, memory.lines ++ (s.lines o.answer reports).toArray,
          memory.outcomes.push last.2⟩ := by
  obtain ⟨r', hr', hreach⟩ := thread_reaches o.answer hp (Activity.sound_call ..) hr memory
    fun result => .remember (fun m => { m with outcomes := m.outcomes.push result }) .done
  refine ⟨r', hr', ?_⟩
  have hfirst : (machine o).ReachesWithin 1 (.initial ⟨r, h, memory⟩ (callOnce o entry))
      ⟨⟨r, (Activity.call h o.maxDepth entry []).1, memory⟩, [],
        .thread (Activity.call h o.maxDepth entry []).2 fun result =>
          .remember (fun m => { m with outcomes := m.outcomes.push result }) .done⟩ :=
    ⟨1, Nat.le_refl 1, rfl⟩
  have hlast : (machine o).ReachesWithin 2
      ⟨⟨r', last.1, { memory with
          lines := memory.lines ++ (s.lines o.answer reports).toArray }⟩, [],
        .thread (.finished last.2) fun result =>
          .remember (fun m => { m with outcomes := m.outcomes.push result }) .done⟩
      ⟨⟨r', last.1, memory.lines ++ (s.lines o.answer reports).toArray,
        memory.outcomes.push last.2⟩, [], .script .done⟩ := ⟨2, Nat.le_refl 2, rfl⟩
  refine ((hfirst.trans hreach).trans hlast).run rfl ?_
  rw [Brief] at hshort
  rw [Machine.patience]
  omega

end Run

end Trace

end Tracepoint
