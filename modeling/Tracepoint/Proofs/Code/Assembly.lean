/-
**The code unit that was written.**

The instructions of a draft, their lines, the constants, the labels and the handlers are kept side
by side, and a directive adds to some of them only.  This module reads them off the list of
directives instead: how many instructions were emitted before a place in the list, which constants
were made, which line was announced last.  What is read off in this way is what the code unit
answers when it is asked.

A label that is bound twice, or was not made before, is refused; the draft stays as it was and can
be written on.  So the directives that count are those that were heeded.

Main definitions:

* `Tracepoint.Directive.emission?`, `Tracepoint.Directive.emissions`,
  `Tracepoint.Directive.constants`, … — what a list of directives says;
* `Tracepoint.Draft.persist`, `Tracepoint.Draft.heeded` — writing on after refusals;
* `Tracepoint.Draft.Records` — the draft holds what the directives say;
* `Tracepoint.Source.Assembles` — **the code unit holds what the directives say**.

Main results:

* `Tracepoint.Draft.Records.of_adds` — one directive;
* `Tracepoint.Draft.Records.persist` — any number of directives;
* `Tracepoint.Source.assembled_as_written` — **every code unit that is built is the one that was
  written**.
-/

import Mathlib.Data.List.Induction
import Tracepoint.Proofs.Code.Innermost

set_option relaxedAutoImplicit false
set_option autoImplicit false

namespace Tracepoint

/-! ### What directives say -/

namespace Directive

/-- The instruction that a directive emits, if it does, when so many constants were made before
it. -/
@[simp] def emission? (made : ℕ) : Directive → Option Instruction
  | emit i => some i
  | load _ => some (.loadConst (min made lastWord))
  | _ => none

@[simp] def emits (directive : Directive) : Bool := (directive.emission? 0).isSome

/-- The constant that a directive makes. -/
@[simp] def constant? : Directive → Option Value
  | constant v | load v => some v
  | _ => none

/-- The line that a directive announces. -/
@[simp] def line? : Directive → Option ℕ
  | line n => some n
  | _ => none

/-- The number of parameters that a directive sets. -/
@[simp] def params? : Directive → Option ℕ
  | params n => some n
  | _ => none

/-- The handler that a directive registers. -/
@[simp] def handler? : Directive → Option LabelledHandler
  | handler h => some h
  | _ => none

def binds : Directive → Bool
  | bind _ => true
  | _ => false

theorem emits_eq (directive : Directive) (made : ℕ) :
    directive.emits = (directive.emission? made).isSome := by
  cases directive <;> rfl

/-- The number of instructions that are emitted. -/
def emissions (written : List Directive) : ℕ := written.countP emits

/-- The constants, in the order in which they are made. -/
def constants (written : List Directive) : List Value := written.filterMap constant?

/-- The line that is announced last. -/
def lastLine? (written : List Directive) : Option ℕ := (written.filterMap line?).getLast?

/-- The numbers of parameters that are set. -/
def arities (written : List Directive) : List ℕ := written.filterMap params?

/-- The handlers, in the order of registration. -/
def handlers (written : List Directive) : List LabelledHandler := written.filterMap handler?

/-- **A line is announced behind the last instruction.** -/
def AnnouncesLine (written : List Directive) : Prop :=
  ∃ before n, before ++ [.line n] <+: written ∧ emissions before = emissions written

/-- **The instruction with a given index**: what is written before it, and what is emitted. -/
structure Emission (written : List Directive) (i : ℕ) (before : List Directive)
    (instruction : Instruction) : Prop where
  index : emissions before = i
  occurs : ∃ directive, before ++ [directive] <+: written ∧
    directive.emission? (constants before).length = some instruction

variable {written before : List Directive} {directive : Directive}

theorem emissions_concat (written : List Directive) (directive : Directive) :
    emissions (written ++ [directive]) = emissions written + if directive.emits then 1 else 0 := by
  rw [emissions, List.countP_append, List.countP_singleton]
  rfl

theorem emissions_le_of_prefix (h : before <+: written) : emissions before ≤ emissions written :=
  h.sublist.countP_le

/-- Every index below the number of instructions is that of one. -/
theorem exists_emission {i : ℕ} (hi : i < emissions written) :
    ∃ before instruction, Emission written i before instruction := by
  induction written using List.reverseRecOn with
  | nil => exact absurd hi (Nat.not_lt_zero i)
  | append_singleton written directive ih =>
      rcases Nat.lt_or_ge i (emissions written) with hlt | hge
      · obtain ⟨before, instruction, hindex, x, hprefix, hx⟩ := ih hlt
        exact ⟨before, instruction, hindex, x, hprefix.trans (List.prefix_append ..), hx⟩
      -- otherwise the last directive emits it
      · rw [emissions_concat] at hi
        have hemits : directive.emits = true := by
          by_contra hno
          rw [if_neg hno] at hi
          omega
        rw [if_pos hemits] at hi
        rw [emits_eq directive (constants written).length, Option.isSome_iff_exists] at hemits
        obtain ⟨instruction, hinstruction⟩ := hemits
        exact ⟨written, instruction, by omega, directive, List.prefix_refl _, hinstruction⟩

theorem announcesLine_concat :
    AnnouncesLine (written ++ [directive]) ↔
      (∃ n, directive = .line n) ∨ (directive.emits = false ∧ AnnouncesLine written) := by
  constructor
  · rintro ⟨before, n, hprefix, hcount⟩
    rw [emissions_concat] at hcount
    rcases List.prefix_concat_iff.1 hprefix with heq | hprefix
    · exact Or.inl ⟨n, (List.append_singleton_inj.1 heq).2.symm⟩
    · have hle := emissions_le_of_prefix ((List.prefix_append ..).trans hprefix)
      split at hcount
      · omega
      · rename_i hno
        exact Or.inr ⟨Bool.eq_false_iff.2 hno, before, n, hprefix, hcount⟩
  · rintro (⟨n, rfl⟩ | ⟨hno, before, n, hprefix, hcount⟩)
    · exact ⟨written, n, List.prefix_refl _, (emissions_concat written (.line n)).symm⟩
    · refine ⟨before, n, hprefix.trans (List.prefix_append ..), ?_⟩
      rw [emissions_concat, hno, hcount]
      rfl

theorem AnnouncesLine.isSome_lastLine? (h : AnnouncesLine written) :
    (lastLine? written).isSome = true := by
  obtain ⟨before, n, ⟨behind, rfl⟩, -⟩ := h
  simp [lastLine?, line?, List.getLast?_append]

end Directive

/-! ### Drafts -/

namespace Draft

/-- The draft after some directives, of which those that are refused change nothing. -/
def persist (d : Draft) : List Directive → Draft
  | [] => d
  | directive :: rest =>
      match d.perform directive with
      | .ok d' => d'.persist rest
      | .error _ => d.persist rest

/-- The directives that are not refused. -/
def heeded (d : Draft) : List Directive → List Directive
  | [] => []
  | directive :: rest =>
      match d.perform directive with
      | .ok d' => directive :: d'.heeded rest
      | .error _ => d.heeded rest

/-- **What a directive adds to a draft.** -/
structure Adds (d : Draft) (directive : Directive) (d' : Draft) : Prop where
  rows : d'.rows.toList = d.rows.toList ++ (directive.emission? d.consts.size).toList.map
    fun i => ⟨i, d.currentLine, d.lineIsNew && d.currentLine.isSome⟩
  line : d'.currentLine = directive.line?.or d.currentLine
  isNew : d'.lineIsNew = (directive.line?.isSome || d.lineIsNew && !directive.emits)
  consts : d'.consts.toList = d.consts.toList ++ directive.constant?.toList
  labels : ∀ (l : Label) (i : ℕ), d'.labels[l.number]? = some (some i) ↔
    d.labels[l.number]? = some (some i) ∨ (directive = .bind l ∧ i = d.rows.size)
  handlers : d'.handlers = d.handlers ++ directive.handler?.toList
  params : d'.params = directive.params?.getD d.params
  reserved : ∀ n, d'.reserved ≤ n ↔ d.reserved ≤ n ∧ ∀ p ∈ directive.params?, p ≤ n

theorem labels_bind {d d' : Draft} {l : Label} (h : d.bind l = .ok d') (l' : Label) (i : ℕ) :
    d'.labels[l'.number]? = some (some i) ↔
      d.labels[l'.number]? = some (some i) ∨ (Directive.bind l = .bind l' ∧ i = d.rows.size) := by
  unfold bind at h
  split at h <;> cases h
  rename_i hl
  rw [Array.getElem?_setIfInBounds]
  by_cases heq : l = l'
  · subst heq
    rw [if_pos rfl, if_pos (Array.getElem?_eq_some_iff.1 hl).1, hl]
    simp [eq_comm]
  · have hne : l.number ≠ l'.number := by
      intro hnumber
      cases l
      cases l'
      exact heq (congrArg Label.mk hnumber)
    simp [heq, hne]

theorem adds_of_perform {d d' : Draft} {directive : Directive}
    (h : d.perform directive = .ok d') : d.Adds directive d' := by
  cases directive with
  | bind l =>
      have hlabels := labels_bind h
      simp only [perform, bind] at h
      split at h <;> cases h
      constructor <;> simp_all
  | label =>
      cases h
      -- the new label stands nowhere
      constructor <;> simp [Array.getElem?_push]
      grind
  | params n =>
      cases h
      constructor
      case reserved =>
        intro m
        simp only [setParams, Directive.params?, Option.mem_some, forall_eq']
        exact Nat.max_le
      all_goals simp [setParams]
  | _ =>
      cases h
      constructor <;> simp [addConst, emit]

open Directive

/-- **The draft holds what the directives say.** -/
structure Records (d : Draft) (arity : ℕ) (written : List Directive) : Prop where
  size : d.rows.size = emissions written
  row : ∀ before directive, before ++ [directive] <+: written →
    ∀ instruction, directive.emission? (constants before).length = some instruction →
      ∃ starts, d.rows[emissions before]? = some ⟨instruction, lastLine? before, starts⟩ ∧
        (starts = true ↔ AnnouncesLine before)
  line : d.currentLine = lastLine? written
  isNew : d.lineIsNew = true ↔ AnnouncesLine written
  consts : d.consts.toList = constants written
  label : ∀ (l : Label) (i : ℕ), d.labels[l.number]? = some (some i) ↔
    ∃ before, before ++ [.bind l] <+: written ∧ emissions before = i
  handlers : d.handlers = Directive.handlers written
  params : d.params = (arities written).getLastD arity
  reserved : ∀ n, d.reserved ≤ n ↔ ∀ p ∈ arity :: arities written, p ≤ n

variable {d d' : Draft} {arity : ℕ} {written : List Directive} {directive : Directive}

theorem records_start (name : String) (firstLine arity : ℕ) (isGenerator : Bool) :
    (start name firstLine arity isGenerator).Records arity [] where
  size := rfl
  row before directive h := by simp at h
  line := rfl
  isNew := by
    constructor
    · intro h
      cases h
    · rintro ⟨before, n, h, -⟩
      simp at h
  consts := rfl
  label l i := by simp [start]
  handlers := rfl
  params := rfl
  reserved n := by simp [start, arities]

/-- The rows after one more directive: an instruction is the new one, or was there before. -/
theorem Records.row_of_adds (h : d.Records arity written) (hadds : d.Adds directive d')
    {before : List Directive} {x : Directive} (hx : before ++ [x] <+: written ++ [directive])
    {i : Instruction} (hi : x.emission? (constants before).length = some i) :
    ∃ starts, d'.rows[emissions before]? = some ⟨i, lastLine? before, starts⟩ ∧
      (starts = true ↔ AnnouncesLine before) := by
  rw [← Array.getElem?_toList, hadds.rows]
  rcases List.prefix_concat_iff.1 hx with heq | hprefix
  · obtain ⟨rfl, rfl⟩ := List.append_singleton_inj.1 heq
    have hmade : d.consts.size = (constants before).length := by
      rw [← h.consts, Array.length_toList]
    rw [List.getElem?_append_right (by simp [h.size]), hmade, hi]
    refine ⟨d.lineIsNew && d.currentLine.isSome, by simp [h.size, h.line], ?_⟩
    rw [Bool.and_eq_true, h.isNew, h.line, and_iff_left_of_imp]
    exact AnnouncesLine.isSome_lastLine?
  · obtain ⟨starts, hrow, hstarts⟩ := h.row before x hprefix i hi
    rw [← Array.getElem?_toList] at hrow
    have hlt := (List.getElem?_eq_some_iff.1 hrow).1
    exact ⟨starts, by rw [List.getElem?_append_left hlt, hrow], hstarts⟩

/-- The places where a label is bound, after one more directive. -/
theorem Records.label_of_adds (h : d.Records arity written) (hadds : d.Adds directive d')
    (l : Label) (i : ℕ) : d'.labels[l.number]? = some (some i) ↔
      ∃ before, before ++ [.bind l] <+: written ++ [directive] ∧ emissions before = i := by
  rw [hadds.labels, h.label, h.size]
  constructor
  · rintro (⟨before, hprefix, hi⟩ | ⟨rfl, hi⟩)
    · exact ⟨before, hprefix.trans (List.prefix_append ..), hi⟩
    · exact ⟨written, List.prefix_refl _, hi.symm⟩
  · rintro ⟨before, hprefix, hi⟩
    rcases List.prefix_concat_iff.1 hprefix with heq | hprefix
    · obtain ⟨rfl, rfl⟩ := List.append_singleton_inj.1 heq
      exact Or.inr ⟨rfl, hi.symm⟩
    · exact Or.inl ⟨before, hprefix, hi⟩

/-- **One more directive.** -/
theorem Records.of_adds (h : d.Records arity written) (hadds : d.Adds directive d') :
    d'.Records arity (written ++ [directive]) where
  size := by
    rw [← Array.length_toList, hadds.rows, List.length_append, Array.length_toList, h.size,
      emissions_concat, emits_eq directive d.consts.size]
    cases directive.emission? d.consts.size <;> rfl
  row before x hx i hi := h.row_of_adds hadds hx hi
  line := by
    rw [hadds.line, h.line]
    cases directive <;> simp [lastLine?]
  isNew := by
    rw [hadds.isNew, announcesLine_concat, ← h.isNew]
    cases directive <;> simp
  consts := by
    rw [hadds.consts, h.consts]
    cases directive <;> simp [constants]
  label := h.label_of_adds hadds
  handlers := by
    rw [hadds.handlers, h.handlers]
    cases directive <;> simp [Directive.handlers]
  params := by
    rw [hadds.params, h.params]
    cases directive <;> simp [arities]
  reserved n := by
    rw [hadds.reserved, h.reserved]
    cases directive <;> simp [arities, or_imp, forall_and, and_assoc]

/-- **Any number of directives**, of which some may be refused. -/
theorem Records.persist (h : d.Records arity written) (rest : List Directive) :
    (d.persist rest).Records arity (written ++ d.heeded rest) := by
  induction rest generalizing d written with
  | nil => rwa [heeded, List.append_nil]
  | cons directive rest ih =>
      unfold Draft.persist heeded
      cases hd : d.perform directive with
      | error e => exact ih h
      | ok d' =>
          have hrest := ih (h.of_adds (adds_of_perform hd))
          rwa [List.append_assoc] at hrest

/-- Nothing is refused but the binding of a label. -/
theorem binds_of_perform_eq_error {e : BuildError} (h : d.perform directive = .error e) :
    directive.binds = true := by
  cases directive with
  | bind l => rfl
  | _ => cases h

theorem filter_heeded (d : Draft) (rest : List Directive) :
    (d.heeded rest).filter (!·.binds) = rest.filter (!·.binds) := by
  induction rest generalizing d with
  | nil => rfl
  | cons directive rest ih =>
      unfold heeded
      cases hd : d.perform directive with
      | error e =>
          show (d.heeded rest).filter _ = _
          rw [ih d, List.filter_cons_of_neg (by simp [binds_of_perform_eq_error hd])]
      | ok d' =>
          show (directive :: d'.heeded rest).filter _ = _
          rw [List.filter_cons, List.filter_cons, ih d']

theorem length_heeded_le (d : Draft) (rest : List Directive) :
    (d.heeded rest).length ≤ rest.length := by
  induction rest generalizing d with
  | nil => exact Nat.le_refl 0
  | cons directive rest ih =>
      unfold heeded
      cases d.perform directive with
      | error e => exact Nat.le_succ_of_le (ih d)
      | ok d' => exact Nat.succ_le_succ (ih d')

/-- If nothing is refused, everything is heeded. -/
theorem foldlM_eq_ok_iff {d d' : Draft} {rest : List Directive} :
    rest.foldlM Draft.perform d = .ok d' ↔ d.heeded rest = rest ∧ d.persist rest = d' := by
  induction rest generalizing d with
  | nil => simp [heeded, persist, pure, Except.pure]
  | cons directive rest ih =>
      rw [List.foldlM_cons, heeded, persist]
      cases d.perform directive with
      | error e =>
          have hne : d.heeded rest ≠ directive :: rest := by
            intro heq
            have hle := d.length_heeded_le rest
            rw [heq, List.length_cons] at hle
            omega
          simp [Bind.bind, Except.bind, hne]
      | ok d' => simpa [Bind.bind, Except.bind] using ih (d := d')

end Draft

/-! ### Code units -/

namespace Code

/-- Every local that is named is below a bound. -/
def NamesBelow (c : Code) (n : ℕ) : Prop :=
  ∀ i instruction, c.instruction? i = some instruction →
    ∀ slot, instruction.slot? = some slot → slot < n

/-- A handler is the one that was registered, with its labels resolved. -/
structure Resolves (c : Code) (registered : LabelledHandler) (h : Handler) : Prop where
  start : c.target? registered.start = some h.start
  stop : c.target? registered.stop = some h.stop
  target : c.target? registered.target = some h.target
  depth : h.depth = registered.depth

/-- A label that an instruction names, or a handler as its target. -/
def Uses (c : Code) (registered : List LabelledHandler) (l : Label) : Prop :=
  (∃ i instruction, c.instruction? i = some instruction ∧ instruction.target? = some l) ∨
    ∃ h ∈ registered, h.target = l

end Code

open Directive

/-- **The code unit holds what the directives say.** -/
structure Source.Assembles (s : Source) (written : List Directive) (c : Code) : Prop where
  size : c.size = emissions written
  /-- The instruction with an index is the one that was emitted with it. -/
  instruction : ∀ i instruction,
    c.instruction? i = some instruction ↔ ∃ before, Emission written i before instruction
  /-- Its line is the one that was announced last. -/
  line : ∀ {i before instruction}, Emission written i before instruction →
    c.line? i = lastLine? before
  /-- It starts its line if the line was announced behind the instruction before. -/
  startsLine : ∀ {i before instruction}, Emission written i before instruction →
    (c.startsLine i = true ↔ AnnouncesLine before)
  /-- A label is at the instruction that follows its binding. -/
  target : ∀ l i, c.target? l = some i ↔
    ∃ before, before ++ [.bind l] <+: written ∧ emissions before = i
  used : ∀ l, c.Uses (Directive.handlers written) l → ∃ i, c.target? l = some i ∧ i < c.size
  const : ∀ k, c.const? k = (constants written)[k]?
  /-- What a `load` pushes is its own constant, if 32 bits are enough for the index. -/
  loads : ∀ before v, before ++ [.load v] <+: written →
    (constants before).length ≤ lastWord →
      ∃ k, c.instruction? (emissions before) = some (.loadConst k) ∧ c.const? k = some v
  params : c.params = (arities written).getLastD s.params
  /-- The locals are those that are named and those for any number of parameters that was set. -/
  reserved : ∀ n, c.locals ≤ n ↔ (∀ p ∈ s.params :: arities written, p ≤ n) ∧ c.NamesBelow n
  /-- Unless the number of parameters was lowered, the number of locals is the larger one of the
  number of parameters and of one more than the last local that is named. -/
  locals : (∀ p ∈ s.params :: arities written, p ≤ c.params) →
    ∀ n, c.locals ≤ n ↔ c.params ≤ n ∧ c.NamesBelow n
  handlers : List.Forall₂ c.Resolves (Directive.handlers written) c.handlers
  lineAt : ∀ i < c.size, c.lineAt? (offsetOf i) = c.line? i
  offset : ∀ i < c.size, ∀ j < c.size, offsetOf i = offsetOf j → i = j

variable {d : Draft} {s : Source} {c : Code} {written : List Directive}

namespace Draft.Records

/-- An emission of the list is a row of the code unit. -/
theorem exists_row (h : d.Records s.params written) (hf : d.Finishes c) {i : ℕ}
    {before : List Directive} {instruction : Instruction}
    (he : Emission written i before instruction) :
    ∃ starts, c.rows[i]? = some ⟨instruction, lastLine? before, starts⟩ ∧
      (starts = true ↔ AnnouncesLine before) := by
  obtain ⟨rfl, directive, hprefix, hdirective⟩ := he
  rw [hf.rows]
  exact h.row before directive hprefix instruction hdirective

theorem instruction?_iff (h : d.Records s.params written) (hf : d.Finishes c) (i : ℕ)
    (instruction : Instruction) :
    c.instruction? i = some instruction ↔ ∃ before, Emission written i before instruction := by
  constructor
  · intro hi
    have hlt : i < emissions written := by
      rw [← h.size, ← hf.rows]
      exact Code.lt_size_of_instruction? hi
    obtain ⟨before, emitted, he⟩ := exists_emission hlt
    obtain ⟨starts, hrow, -⟩ := h.exists_row hf he
    rw [Code.instruction?, hrow, Option.map_some, Option.some.injEq] at hi
    exact ⟨before, hi ▸ he⟩
  · rintro ⟨before, he⟩
    obtain ⟨starts, hrow, -⟩ := h.exists_row hf he
    rw [Code.instruction?, hrow, Option.map_some]

theorem target?_iff (h : d.Records s.params written) (hf : d.Finishes c) (l : Label) (i : ℕ) :
    c.target? l = some i ↔ ∃ before, before ++ [.bind l] <+: written ∧ emissions before = i := by
  rw [← h.label, ← Array.getElem?_toList, hf.labels, List.getElem?_map, Array.getElem?_toList,
    Code.target?, Option.map_eq_some_iff]
  simp

theorem locals_iff (h : d.Records s.params written) (hf : d.Finishes c) (n : ℕ) :
    c.locals ≤ n ↔ (∀ p ∈ s.params :: arities written, p ≤ n) ∧ c.NamesBelow n := by
  rw [hf.locals, d.locals_le_iff, h.reserved]
  refine and_congr_right fun _ => ⟨fun hall i instruction hi => ?_, fun hall instruction hi => ?_⟩
  · exact hall instruction (hf.mem_instructions hi)
  · obtain ⟨i, hi⟩ := List.mem_iff_getElem?.1 hi
    exact hall i instruction ((hf.instruction?_eq i).trans hi)

theorem const?_eq (h : d.Records s.params written) (hf : d.Finishes c) (k : ℕ) :
    c.const? k = (constants written)[k]? := by
  rw [Code.const?, hf.consts, ← Array.getElem?_toList, h.consts]

theorem resolves (h : d.Records s.params written) (hf : d.Finishes c) :
    List.Forall₂ c.Resolves (Directive.handlers written) c.handlers := by
  rw [← h.handlers]
  refine (mapM_eq_ok_iff.1 hf.resolved).imp fun registered handler hh => ?_
  obtain ⟨⟨hstart, hstop, htarget, hdepth⟩, -⟩ := resolveHandler_eq_ok hh
  exact ⟨hstart, hstop, htarget, hdepth⟩

/-- What a `load` emits is its own constant, if 32 bits are enough for the index. -/
theorem exists_constant (h : d.Records s.params written) (hf : d.Finishes c)
    {before : List Directive} {v : Value} (hload : before ++ [.load v] <+: written)
    (hmade : (constants before).length ≤ lastWord) :
    ∃ k, c.instruction? (emissions before) = some (.loadConst k) ∧ c.const? k = some v := by
  refine ⟨(constants before).length, ?_, ?_⟩
  · refine (h.instruction?_iff hf _ _).2 ⟨before, rfl, .load v, hload, ?_⟩
    rw [emission?, Nat.min_eq_left hmade]
  · obtain ⟨behind, rfl⟩ := hload
    rw [h.const?_eq hf]
    simp [constants]

/-- The labels that are used stand at instructions. -/
theorem exists_target (h : d.Records s.params written) (hf : d.Finishes c) (hb : c.Built)
    {l : Label} (hl : c.Uses (Directive.handlers written) l) :
    ∃ i, c.target? l = some i ∧ i < c.size := by
  rcases hl with ⟨i, instruction, hi, hl⟩ | ⟨registered, hmem, rfl⟩
  · exact hb.exists_target hi hl
  · obtain ⟨handler, -, hresolve⟩ := (mem_of_mapM hf.resolved).2 registered (h.handlers ▸ hmem)
    obtain ⟨⟨-, -, htarget, -⟩, -, -, hlt⟩ := resolveHandler_eq_ok hresolve
    exact ⟨handler.target, htarget, by rwa [Code.size, hf.rows]⟩

theorem assembles (h : d.Records s.params written) (hf : d.Finishes c) (hb : c.Built) :
    s.Assembles written c where
  size := by rw [Code.size, hf.rows, h.size]
  instruction := h.instruction?_iff hf
  line he := by
    obtain ⟨starts, hrow, -⟩ := h.exists_row hf he
    rw [Code.line?, hrow, Option.bind_some]
  startsLine he := by
    obtain ⟨starts, hrow, hstarts⟩ := h.exists_row hf he
    rw [Code.startsLine, hrow, Option.map_some, Option.getD_some, hstarts]
  target := h.target?_iff hf
  used l := h.exists_target hf hb
  const := h.const?_eq hf
  loads before v := h.exists_constant hf
  params := by rw [hf.params, h.params]
  reserved := h.locals_iff hf
  locals hall n := by
    have hparams : c.params = (arities written).getLastD s.params := by rw [hf.params, h.params]
    refine (h.locals_iff hf n).trans (and_congr_left fun _ => ⟨fun hle => ?_, fun hle p hp => ?_⟩)
    · exact hle c.params (hparams ▸ List.getLastD_mem_cons ..)
    · exact Nat.le_trans (hall p hp) hle
  handlers := h.resolves hf
  lineAt i hi := by rw [Code.lineAt?, hb.offsetOf_eq hi, Nat.mul_div_cancel_left i (by decide)]
  offset i hi j hj heq := by
    rw [hb.offsetOf_eq hi, hb.offsetOf_eq hj] at heq
    omega

end Draft.Records

theorem Draft.Written.persist (h : d.Written) (rest : List Directive) :
    (d.persist rest).Written := by
  induction rest generalizing d with
  | nil => exact h
  | cons directive rest ih =>
      unfold Draft.persist
      cases hd : d.perform directive with
      | error e => exact ih h
      | ok d' => exact ih (h.perform hd)

namespace Source

/-- A source is built as a whole if nothing of it is refused. -/
theorem build_eq_ok_iff (h : (s.draft.persist s.directives).finish = .ok c) :
    s.build = .ok c ↔ s.draft.heeded s.directives = s.directives := by
  constructor
  · intro hb
    unfold build at hb
    cases hw : s.write with
    | error e =>
        rw [hw] at hb
        cases hb
    | ok d => exact (Draft.foldlM_eq_ok_iff.1 hw).1
  · intro hall
    have hw : s.write = .ok (s.draft.persist s.directives) :=
      Draft.foldlM_eq_ok_iff.2 ⟨hall, rfl⟩
    rw [build, hw]
    exact h

/-- **Every code unit that is built is the one that was written.**  Only the bindings that were
refused do not count, and there are none in a source that is built as a whole. -/
theorem assembled_as_written (h : (s.draft.persist s.directives).finish = .ok c) :
    s.Assembles (s.draft.heeded s.directives) c ∧
      (s.draft.heeded s.directives).filter (!·.binds) = s.directives.filter (!·.binds) ∧
      (s.build = .ok c ↔ s.draft.heeded s.directives = s.directives) := by
  have hstart : s.draft.Records s.params [] := Draft.records_start ..
  have hrecords := hstart.persist s.directives
  have hwritten : (s.draft.persist s.directives).Written := (Draft.Written.start ..).persist _
  exact ⟨hrecords.assembles (Draft.finishes_of_finish h) ⟨_, hwritten, h⟩, Draft.filter_heeded ..,
    build_eq_ok_iff h⟩

/-- A loop without an end, whose label is bound a second time before the second instruction. -/
def rebinding : Source where
  name := "rebinding"
  firstLine := 1
  directives := [.label, .line 2, .bind ⟨0⟩, .load (.int 1), .bind ⟨0⟩, .line 3, .emit .pop,
    .emit (.jump ⟨0⟩)]

/-- The second binding does not count. -/
theorem rebinding_assembled : ∃ c, (rebinding.draft.persist rebinding.directives).finish = .ok c ∧
    rebinding.Assembles [.label, .line 2, .bind ⟨0⟩, .load (.int 1), .line 3, .emit .pop,
      .emit (.jump ⟨0⟩)] c :=
  ⟨_, rfl, (assembled_as_written (s := rebinding) rfl).1⟩

end Source

end Tracepoint
