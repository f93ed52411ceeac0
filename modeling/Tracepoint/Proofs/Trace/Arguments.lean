/-
**The arguments of a trace are read exactly.**

Each argument gives a value to one field of the options.  What is accepted is said here form by
form, with the values that it gives, and what is refused is said with its error; each argument is
the one or the other, and reading follows that.  Then the options are what the arguments give to
each field at last, and the first argument that is refused decides the error.

The fields of the options have values of different types.  They are numbered here, with the type
of each, so that what becomes of a field is said once for all of them.

Main definitions:

* `Tracepoint.Tool.Written` — a text writes a tool, by a well-known name or as a number;
* `Tracepoint.Trace.IsCount` — a text writes a number that can be a count;
* `Tracepoint.Trace.Field`, `Tracepoint.Trace.Setting` — the fields, and a value for one of them;
* `Tracepoint.Trace.Writes`, `Tracepoint.Trace.Refused` — the arguments that are options, with what
  they set, and those that are none, with the error;
* `Tracepoint.Trace.Exchanged` — two neighbours that set different fields change places.

Main results:

* `Tracepoint.Trace.reads_set` — each argument is accepted or refused, and set accordingly;
* `Tracepoint.Trace.Options.get_foldl_put` — **the last value counts**;
* `Tracepoint.Trace.options_read_exactly` — the options of all lists of arguments.
-/

import Mathlib.Logic.Relation
import Tracepoint.Proofs.Text.EventList
import Tracepoint.Trace.Options

set_option relaxedAutoImplicit false
set_option autoImplicit false

namespace Tracepoint

open Text (Alike IsNumeral)

/-! ### Tools -/

namespace Tool

/-- The tools that have a name. -/
def wellKnown : List (String × Tool) :=
  [("debugger", debugger), ("coverage", coverage), ("profiler", profiler),
    ("optimizer", optimizer)]

/-- A text writes a tool by its name, whatever the case of its letters, or by its number. -/
def Written (text : String) (t : Tool) : Prop :=
  (∃ name, (name, t) ∈ wellKnown ∧ Alike text name) ∨ IsNumeral text t.val

theorem parse?_of_mem {text name : String} {t : Tool} (hmem : (name, t) ∈ wellKnown)
    (h : Text.lower text = name) : parse? text = some t := by
  unfold parse?
  rw [h]
  simp only [wellKnown, List.mem_cons, Prod.mk.injEq, List.not_mem_nil, or_false] at hmem
  rcases hmem with ⟨rfl, rfl⟩ | ⟨rfl, rfl⟩ | ⟨rfl, rfl⟩ | ⟨rfl, rfl⟩ <;> rfl

/-- Any other word is read as a number. -/
theorem parse?_of_not_mem {text : String} (h : ∀ p ∈ wellKnown, Text.lower text ≠ p.1) :
    parse? text =
      (Text.parseUnsigned 0x100000000 (Text.lower text)).bind fun n => (ofNat n).toOption := by
  unfold parse?
  simp only [wellKnown, List.forall_mem_cons] at h
  obtain ⟨hdebugger, hcoverage, hprofiler, hoptimizer, -⟩ := h
  simp only [hdebugger, hcoverage, hprofiler, hoptimizer, if_false]

theorem toOption_ofNat_eq_some_iff {n : ℕ} {t : Tool} :
    (ofNat n).toOption = some t ↔ n = t.val := by
  unfold ofNat
  split
  · rename_i h
    simp only [Except.toOption, Option.some.injEq]
    exact Fin.ext_iff
  · rename_i h
    simp only [Except.toOption, reduceCtorEq, false_iff]
    rintro rfl
    exact h t.isLt

/-- **The tools that are read** are those that a text writes. -/
theorem parse?_eq_some_iff {text : String} {t : Tool} :
    parse? text = some t ↔ Written text t := by
  have hlower : ∀ p ∈ wellKnown, Text.lower p.1 = p.1 := by decide
  have hletter : ∀ p ∈ wellKnown, 'r' ∈ p.1.toList := by decide
  constructor
  · intro h
    by_cases hknown : ∃ p ∈ wellKnown, Text.lower text = p.1
    · obtain ⟨⟨name, u⟩, hmem, hname⟩ := hknown
      rw [parse?_of_mem hmem hname, Option.some.injEq] at h
      subst h
      exact Or.inl ⟨name, hmem, Text.alike_iff.2 (hname.trans (hlower _ hmem).symm)⟩
    · rw [parse?_of_not_mem fun p hp heq => hknown ⟨p, hp, heq⟩, Option.bind_eq_some_iff] at h
      obtain ⟨n, hn, ht⟩ := h
      rw [toOption_ofNat_eq_some_iff] at ht
      subst ht
      exact Or.inr (Text.isNumeral_lower.1 (Text.parseUnsigned_eq_some_iff.1 hn).1)
  · rintro (⟨name, hmem, halike⟩ | hnum)
    · have hname := hlower (name, t) hmem
      exact parse?_of_mem hmem ((Text.alike_iff.1 halike).trans hname)
    -- a numeral has no letters, and there is one in each name
    · have hother : ∀ p ∈ wellKnown, Text.lower text ≠ p.1 := fun p hp heq => by
        have hr := hletter p hp
        rw [← heq] at hr
        exact absurd ((Text.isNumeral_lower.2 hnum).no_letters 'r' hr) (by decide)
      have hlt : t.val < 0x100000000 := Nat.lt_of_lt_of_le t.isLt (by decide)
      rw [parse?_of_not_mem hother, Option.bind_eq_some_iff]
      exact ⟨t.val, Text.parseUnsigned_eq_some_iff.2 ⟨Text.isNumeral_lower.2 hnum, hlt⟩,
        toOption_ofNat_eq_some_iff.2 rfl⟩

end Tool

namespace Trace

/-! ### Fields of the options -/

/-- The fields of the options. -/
inductive Field where
  | events
  | tool
  | onlyEntry
  | disable
  | repetitions
  | restart
  | maxDepth
  deriving DecidableEq

/-- The values of a field. -/
abbrev Field.Value : Field → Type
  | events => EventSet
  | tool => Tool
  | onlyEntry | disable | restart => Bool
  | repetitions | maxDepth => ℕ

/-- A value for one of the fields. -/
structure Setting where
  field : Field
  value : field.Value

/-- The value for this field, if it is one for it. -/
def Setting.value? (s : Setting) (f : Field) : Option f.Value :=
  if h : s.field = f then some (h ▸ s.value) else none

theorem Setting.value?_of_ne {s : Setting} {f : Field} (h : s.field ≠ f) : s.value? f = none :=
  dif_neg h

namespace Options

def get (o : Options) : (f : Field) → f.Value
  | .events => o.events
  | .tool => o.tool
  | .onlyEntry => o.onlyEntry
  | .disable => o.disable
  | .repetitions => o.repetitions
  | .restart => o.restart
  | .maxDepth => o.maxDepth

/-- The options with another value for one field. -/
def put (o : Options) : Setting → Options
  | ⟨.events, s⟩ => { o with events := s }
  | ⟨.tool, t⟩ => { o with tool := t }
  | ⟨.onlyEntry, b⟩ => { o with onlyEntry := b }
  | ⟨.disable, b⟩ => { o with disable := b }
  | ⟨.repetitions, n⟩ => { o with repetitions := n }
  | ⟨.restart, b⟩ => { o with restart := b }
  | ⟨.maxDepth, n⟩ => { o with maxDepth := n }

/-- Options are what they have in their fields. -/
theorem ext_get {o o' : Options} (h : ∀ f, o.get f = o'.get f) : o = o' := by
  obtain ⟨events, tool, onlyEntry, disable, repetitions, restart, maxDepth⟩ := o
  obtain rfl : events = _ := h .events
  obtain rfl : tool = _ := h .tool
  obtain rfl : onlyEntry = _ := h .onlyEntry
  obtain rfl : disable = _ := h .disable
  obtain rfl : repetitions = _ := h .repetitions
  obtain rfl : restart = _ := h .restart
  obtain rfl : maxDepth = _ := h .maxDepth
  rfl

/-- A setting changes its own field and no other. -/
theorem get_put (o : Options) (s : Setting) (f : Field) :
    (o.put s).get f = (s.value? f).getD (o.get f) := by
  obtain ⟨g, v⟩ := s
  cases g <;> cases f <;> rfl

/-- **The last value counts**: after any settings a field has the value of the last one for it, and
without any the value that it had before. -/
theorem get_foldl_put (settings : List Setting) (o : Options) (f : Field) :
    (settings.foldl put o).get f = (settings.filterMap fun s => s.value? f).getLastD (o.get f) := by
  induction settings generalizing o with
  | nil => rfl
  | cons s settings ih =>
      rw [List.foldl_cons, ih, get_put, List.filterMap_cons]
      cases s.value? f with
      | none => rfl
      | some v => exact (List.getLastD_cons ..).symm

/-- Settings of different fields do not meet. -/
theorem put_comm {s t : Setting} (h : s.field ≠ t.field) (o : Options) :
    (o.put s).put t = (o.put t).put s := by
  refine ext_get fun f => ?_
  simp only [get_put]
  by_cases hs : s.field = f
  · rw [Setting.value?_of_ne fun ht => h (hs.trans ht.symm), Option.getD_none, Option.getD_none]
  · rw [Setting.value?_of_ne hs, Option.getD_none, Option.getD_none]

end Options

/-! ### Arguments -/

/-- A text writes a number that can be a count: not zero, and at most a full word of 64 bits. -/
def IsCount (text : String) (n : ℕ) : Prop :=
  IsNumeral text n ∧ 1 ≤ n ∧ n ≤ 0xFFFFFFFFFFFFFFFF

/-- The argument is a well-formed option, which sets this. -/
inductive Writes : String → Setting → Prop where
  | onlyEntry : Writes "--local" ⟨.onlyEntry, true⟩
  | disable : Writes "--disable" ⟨.disable, true⟩
  | restart : Writes "--restart" ⟨.restart, true⟩
  | events {list : String} {s : EventSet} (h : EventSet.Lists list s) :
      Writes ("--events=" ++ list) ⟨.events, s⟩
  | tool {text : String} {t : Tool} (h : Tool.Written text t) :
      Writes ("--tool=" ++ text) ⟨.tool, t⟩
  | repetitions {text : String} {n : ℕ} (h : IsCount text n) :
      Writes ("--repeat=" ++ text) ⟨.repetitions, n⟩
  | maxDepth {text : String} {n : ℕ} (h : IsCount text n) :
      Writes ("--max-depth=" ++ text) ⟨.maxDepth, n⟩

/-- The options that stand for themselves. -/
def words : List String := ["--local", "--disable", "--restart"]

/-- What options with a value begin with. -/
def leads : List String := ["--events=", "--tool=", "--repeat=", "--max-depth="]

/-- The argument is no option, for this reason. -/
inductive Refused : String → OptionError → Prop where
  | events {list piece : String} (h : EventSet.FirstIllegible list piece) :
      Refused ("--events=" ++ list) (.event ⟨Text.trim piece⟩)
  | tool {text : String} (h : ∀ t, ¬Tool.Written text t) :
      Refused ("--tool=" ++ text) (.tool text)
  | repetitions {text : String} (h : ∀ n, ¬IsCount text n) :
      Refused ("--repeat=" ++ text) (.count text "--repeat")
  | maxDepth {text : String} (h : ∀ n, ¬IsCount text n) :
      Refused ("--max-depth=" ++ text) (.count text "--max-depth")
  | unknown {arg : String} (hwords : arg ∉ words)
      (hleads : ∀ lead ∈ leads, ∀ text, arg ≠ lead ++ text) : Refused arg (.unknownOption arg)

/-! ### Values of options -/

theorem parseEvents_eq_ok_iff {list : String} {s : EventSet} :
    parseEvents list = .ok s ↔ EventSet.Lists list s := by
  rw [← EventSet.parse_eq_ok_iff, parseEvents]
  cases EventSet.parse list <;> simp

theorem parseEvents_of_firstIllegible {list piece : String}
    (h : EventSet.FirstIllegible list piece) :
    parseEvents list = .error (.event ⟨Text.trim piece⟩) := by
  rw [parseEvents, EventSet.parse_eq_error_iff.2 ⟨piece, h, rfl⟩]

theorem parseTool_eq_ok_iff {text : String} {t : Tool} :
    parseTool text = .ok t ↔ Tool.Written text t := by
  rw [← Tool.parse?_eq_some_iff, parseTool]
  cases Tool.parse? text <;> simp

theorem parseTool_of_not_written {text : String} (h : ∀ t, ¬Tool.Written text t) :
    parseTool text = .error (.tool text) := by
  have hnone : Tool.parse? text = none :=
    Option.eq_none_iff_forall_ne_some.2 fun t ht => h t (Tool.parse?_eq_some_iff.1 ht)
  rw [parseTool, hnone]

theorem isCount_iff {text : String} {n : ℕ} :
    IsCount text n ↔ Text.parseUnsigned 0x10000000000000000 text = some n ∧ 1 ≤ n := by
  rw [IsCount, Text.parseUnsigned_eq_some_iff, and_assoc]
  refine and_congr_right fun _ => ?_
  omega

theorem parseCount_eq_ok_iff {option text : String} {n : ℕ} :
    parseCount option text = .ok n ↔ IsCount text n := by
  rw [isCount_iff, parseCount]
  cases Text.parseUnsigned 0x10000000000000000 text with
  | none => simp
  | some m =>
      cases m with
      | zero =>
          simp only [reduceCtorEq, Option.some.injEq, false_iff]
          omega
      | succ m =>
          simp only [Except.ok.injEq, Option.some.injEq]
          omega

theorem parseCount_of_not_isCount {option text : String} (h : ∀ n, ¬IsCount text n) :
    parseCount option text = .error (.count text option) := by
  unfold parseCount
  split
  · rename_i n hn
    exact absurd (isCount_iff.2 ⟨hn, Nat.succ_pos n⟩) (h (n + 1))
  · rfl

/-! ### One argument -/

theorem after?_eq_some_iff {lead arg text : String} :
    after? lead arg = some text ↔ arg = lead ++ text := by
  unfold after?
  rw [Option.map_eq_some_iff, ← String.toList_inj, String.toList_append]
  constructor
  · rintro ⟨cs, hcs, rfl⟩
    rw [String.toList_ofList]
    exact (List.isPrefixOf?_eq_some_iff_append_eq.1 hcs).symm
  · intro h
    exact ⟨text.toList, List.isPrefixOf?_eq_some_iff_append_eq.2 h.symm, String.ofList_toList⟩

theorem after?_append (lead text : String) : after? lead (lead ++ text) = some text :=
  after?_eq_some_iff.2 rfl

/-- No argument begins with each of two texts, unless one of these begins with the other. -/
theorem after?_append_eq_none {lead lead' : String} (text : String)
    (h : ¬lead.toList <+: lead'.toList ∧ ¬lead'.toList <+: lead.toList) :
    after? lead' (lead ++ text) = none := by
  refine Option.eq_none_iff_forall_ne_some.2 fun text' h' => ?_
  rw [after?_eq_some_iff, ← String.toList_inj, String.toList_append, String.toList_append] at h'
  have hbegins := List.prefix_append lead'.toList text'.toList
  rw [← h'] at hbegins
  rcases List.prefix_or_prefix_of_prefix (List.prefix_append lead.toList text.toList) hbegins with
    hlead | hlead
  · exact h.1 hlead
  · exact h.2 hlead

namespace Options

theorem set_events (o : Options) (text : String) :
    o.set ("--events=" ++ text) = (fun s => o.put ⟨.events, s⟩) <$> parseEvents text := by
  unfold set
  rw [after?_append]
  exact (map_eq_pure_bind _ _).symm

theorem set_tool (o : Options) (text : String) :
    o.set ("--tool=" ++ text) = (fun t => o.put ⟨.tool, t⟩) <$> parseTool text := by
  unfold set
  rw [after?_append, after?_append_eq_none text (by decide)]
  exact (map_eq_pure_bind _ _).symm

theorem set_repetitions (o : Options) (text : String) :
    o.set ("--repeat=" ++ text) =
      (fun n => o.put ⟨.repetitions, n⟩) <$> parseCount "--repeat" text := by
  unfold set
  rw [after?_append, after?_append_eq_none text (by decide),
    after?_append_eq_none text (by decide)]
  exact (map_eq_pure_bind _ _).symm

theorem set_maxDepth (o : Options) (text : String) :
    o.set ("--max-depth=" ++ text) =
      (fun n => o.put ⟨.maxDepth, n⟩) <$> parseCount "--max-depth" text := by
  unfold set
  rw [after?_append, after?_append_eq_none text (by decide),
    after?_append_eq_none text (by decide), after?_append_eq_none text (by decide)]
  exact (map_eq_pure_bind _ _).symm

theorem set_of_unknown {arg : String} (hwords : arg ∉ words)
    (hleads : ∀ lead ∈ leads, ∀ text, arg ≠ lead ++ text) (o : Options) :
    o.set arg = .error (.unknownOption arg) := by
  have hafter : ∀ lead ∈ leads, after? lead arg = none := fun lead hlead =>
    Option.eq_none_iff_forall_ne_some.2 fun text h =>
      hleads lead hlead text (after?_eq_some_iff.1 h)
  simp only [leads, List.forall_mem_cons] at hafter
  obtain ⟨hevents, htool, hrepeat, hdepth, -⟩ := hafter
  simp only [words, List.mem_cons, List.not_mem_nil, or_false, not_or] at hwords
  obtain ⟨hlocal, hdisable, hrestart⟩ := hwords
  unfold set
  rw [hevents, htool, hrepeat, hdepth]
  simp only [hlocal, hdisable, hrestart, if_false]

end Options

/-- Each argument is an option, or it is none for one of the reasons. -/
theorem writes_or_refused (arg : String) : (∃ s, Writes arg s) ∨ ∃ e, Refused arg e := by
  by_cases hleads : ∀ lead ∈ leads, ∀ text, arg ≠ lead ++ text
  · by_cases hwords : arg ∈ words
    · simp only [words, List.mem_cons, List.not_mem_nil, or_false] at hwords
      rcases hwords with rfl | rfl | rfl
      · exact Or.inl ⟨_, .onlyEntry⟩
      · exact Or.inl ⟨_, .disable⟩
      · exact Or.inl ⟨_, .restart⟩
    · exact Or.inr ⟨_, .unknown hwords hleads⟩
  · simp only [not_forall, not_not] at hleads
    obtain ⟨lead, hlead, text, rfl⟩ := hleads
    -- an option with a value is well-formed or not as the value is
    simp only [leads, List.mem_cons, List.not_mem_nil, or_false] at hlead
    rcases hlead with rfl | rfl | rfl | rfl
    · cases hparse : EventSet.parse text with
      | ok s => exact Or.inl ⟨_, .events (EventSet.parse_eq_ok_iff.1 hparse)⟩
      | error err =>
          obtain ⟨piece, hpiece, -⟩ := EventSet.parse_eq_error_iff.1 hparse
          exact Or.inr ⟨_, .events hpiece⟩
    · by_cases h : ∃ t, Tool.Written text t
      · exact Or.inl ⟨_, .tool h.choose_spec⟩
      · exact Or.inr ⟨_, .tool (not_exists.1 h)⟩
    · by_cases h : ∃ n, IsCount text n
      · exact Or.inl ⟨_, .repetitions h.choose_spec⟩
      · exact Or.inr ⟨_, .repetitions (not_exists.1 h)⟩
    · by_cases h : ∃ n, IsCount text n
      · exact Or.inl ⟨_, .maxDepth h.choose_spec⟩
      · exact Or.inr ⟨_, .maxDepth (not_exists.1 h)⟩

/-- **Each argument is read or refused** by its form. -/
theorem reads_set : Text.Reads Options.set Writes Refused Options.put where
  taken {o arg s} h := by
    cases h with
    | onlyEntry => rfl
    | disable => rfl
    | restart => rfl
    | events h => rw [Options.set_events, parseEvents_eq_ok_iff.2 h]; rfl
    | tool h => rw [Options.set_tool, parseTool_eq_ok_iff.2 h]; rfl
    | repetitions h => rw [Options.set_repetitions, parseCount_eq_ok_iff.2 h]; rfl
    | maxDepth h => rw [Options.set_maxDepth, parseCount_eq_ok_iff.2 h]; rfl
  refused {o arg e} h := by
    cases h with
    | events h => rw [Options.set_events, parseEvents_of_firstIllegible h]; rfl
    | tool h => rw [Options.set_tool, parseTool_of_not_written h]; rfl
    | repetitions h => rw [Options.set_repetitions, parseCount_of_not_isCount h]; rfl
    | maxDepth h => rw [Options.set_maxDepth, parseCount_of_not_isCount h]; rfl
    | unknown hwords hleads => exact Options.set_of_unknown hwords hleads o
  total := writes_or_refused

/-! ### All arguments -/

/-- Two neighbours that set different fields have changed places. -/
inductive Exchanged : List String → List String → Prop where
  | swap {a b : String} {s t : Setting} (before behind : List String) (ha : Writes a s)
      (hb : Writes b t) (hne : s.field ≠ t.field) :
      Exchanged (before ++ a :: b :: behind) (before ++ b :: a :: behind)

theorem parse_eq_ok_iff {args : List String} {o : Options} :
    Options.parse args = .ok o ↔
      ∃ settings, List.Forall₂ Writes args settings ∧
        ∀ f, o.get f = (settings.filterMap fun s => s.value? f).getLastD (Options.get {} f) := by
  rw [Options.parse, reads_set.foldlM_eq_ok_iff]
  constructor
  · rintro ⟨settings, hwrites, rfl⟩
    exact ⟨settings, hwrites, Options.get_foldl_put settings {}⟩
  · rintro ⟨settings, hwrites, hget⟩
    refine ⟨settings, hwrites, Options.ext_get fun f => ?_⟩
    rw [Options.get_foldl_put, hget]

theorem parse_exchanged {args args' : List String} (h : Exchanged args args') :
    Options.parse args' = Options.parse args := by
  cases h with
  | swap before behind ha hb hne =>
      exact reads_set.foldlM_swap hb ha (Options.put_comm hne.symm) before behind {}

/-- **The arguments of a trace are read exactly.**  They are refused if one of them is no option,
and the first that is none gives the error.  Otherwise each field has the value of the last argument
for it, or its default.  Arguments for different fields may change places. -/
theorem options_read_exactly (args : List String) :
    ((∃ e, Options.parse args = .error e) ↔ ∃ arg ∈ args, ∀ s, ¬Writes arg s) ∧
      (∀ e, Options.parse args = .error e ↔
        ∃ before arg behind, args = before ++ arg :: behind ∧
          (∀ a ∈ before, ∃ s, Writes a s) ∧ (∀ s, ¬Writes arg s) ∧ Refused arg e) ∧
      (∀ o, Options.parse args = .ok o ↔
        ∃ settings, List.Forall₂ Writes args settings ∧
          ∀ f, o.get f = (settings.filterMap fun s => s.value? f).getLastD (Options.get {} f)) ∧
      ∀ args', Relation.ReflTransGen Exchanged args args' →
        Options.parse args' = Options.parse args := by
  refine ⟨reads_set.exists_error_iff, fun e => ?_, fun o => parse_eq_ok_iff, fun args' h => ?_⟩
  · rw [Options.parse, reads_set.foldlM_eq_error_iff]
    constructor
    · rintro ⟨before, arg, behind, heq, hbefore, hrefused⟩
      exact ⟨before, arg, behind, heq, hbefore, reads_set.not_read {} hrefused, hrefused⟩
    · rintro ⟨before, arg, behind, heq, hbefore, -, hrefused⟩
      exact ⟨before, arg, behind, heq, hbefore, hrefused⟩
  · induction h with
    | refl => rfl
    | tail _ hstep ih => exact (parse_exchanged hstep).trans ih

example : (Options.parse ["--repeat=2", "--tool=Profiler", "--repeat=+07"]).toOption.map
    (fun o => (o.repetitions, o.tool)) = some (7, Tool.profiler) := rfl

end Trace

end Tracepoint
