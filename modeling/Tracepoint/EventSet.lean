/-
**Sets of events.**

A set of events is a word of 32 bits with one bit for each event, at the place of the event in the
fixed order.  The sets are what tools arm.  A word may have bits beyond the places of events; such
bits name nothing, and a raw word that has some of them is refused.  Whoever has a set already can
have put them in, and they are kept as they are.

A set is *stored* without its derived events and *delivered* with them: arming the call event is
what lets the return and the failure of native callees through.  A set that names a derived event
but not the call event is refused.

Main definitions:

* `Tracepoint.EventSet` — the sets, with membership, union, difference and the list of events;
* `Tracepoint.EventSet.full`, `Tracepoint.EventSet.unknown` — the set of all events, and what a set
  has beyond it;
* `Tracepoint.EventSet.NamesOnlyEvents` — each bit of a set is the place of an event;
* `Tracepoint.EventSet.ofBits` — the set of a raw word, unless a bit of the word names no event;
* `Tracepoint.EventSet.stored`, `Tracepoint.EventSet.delivered` — the derived events removed and
  added;
* `Tracepoint.EventSet.armsDerivedAlone` — the condition of refusal;
* `Tracepoint.EventSet.parse` — the set of a comma-separated list of names.
-/

import Tracepoint.Event
import Tracepoint.Text.Pieces

set_option relaxedAutoImplicit false
set_option autoImplicit false

namespace Tracepoint

/-- A set of events, as a word. -/
structure EventSet where
  bits : UInt32
  deriving DecidableEq

/-- A raw word with a bit that names no event. -/
structure UnknownEventBits where
  bits : UInt32
  unknown : UInt32
  deriving DecidableEq

/-- A name that no event has. -/
structure UnknownEvent where
  text : String
  deriving DecidableEq

def UnknownEventBits.message (e : UnknownEventBits) : String :=
  let hex (n : UInt32) := String.ofList (Nat.toDigits 16 n.toNat)
  "invalid event set 0x" ++ hex e.bits ++ ": bits 0x" ++ hex e.unknown ++ " name no event"

def UnknownEvent.message (e : UnknownEvent) : String :=
  "unknown event '" ++ e.text ++ "'"

/-- The event of a name, or the name that no event has. -/
def Event.parse (text : String) : Except UnknownEvent Event :=
  match Event.parse? text with
  | some e => .ok e
  | none => .error ⟨text⟩

namespace EventSet

/-! ### Membership and set operations -/

def empty : EventSet := ⟨0⟩

instance : EmptyCollection EventSet := ⟨empty⟩

instance : Inhabited EventSet := ⟨∅⟩

/-- The set of all events. -/
def full : EventSet := ⟨0x7fff⟩

def single (e : Event) : EventSet := ⟨.ofBitVec (BitVec.twoPow 32 e.index)⟩

/-- Whether the word has a bit at a place. -/
def bit (s : EventSet) (i : Nat) : Bool := s.bits.toBitVec.getLsbD i

def has (s : EventSet) (e : Event) : Bool := s.bit e.index

def union (s t : EventSet) : EventSet := ⟨s.bits ||| t.bits⟩

instance : Union EventSet := ⟨union⟩

def diff (s t : EventSet) : EventSet := ⟨s.bits &&& ~~~ t.bits⟩

instance : SDiff EventSet := ⟨diff⟩

/-- Whether the word has no bit, be it the place of an event or not. -/
def isEmpty (s : EventSet) : Bool := s.bits == 0

def toList (s : EventSet) : List Event := Event.all.filter s.has

def ofList (es : List Event) : EventSet := es.foldl (fun s e => s ∪ single e) ∅

/-! ### Raw words -/

/-- The bits of the word that name no event. -/
def unknown (s : EventSet) : EventSet := s \ full

/-- Each bit of the word is the place of an event. -/
def NamesOnlyEvents (s : EventSet) : Prop := ∀ i, s.bit i = true → ∃ e : Event, e.index.val = i

/-- The set of a raw word, or the word with its bits that name no event. -/
def ofBits (bits : UInt32) : Except UnknownEventBits EventSet :=
  let s : EventSet := ⟨bits⟩
  if s.unknown.isEmpty then .ok s else .error ⟨bits, s.unknown.bits⟩

/-! ### Derived events -/

/-- The events that are armed through their parent only. -/
def derived : EventSet := single .nativeReturn ∪ single .nativeRaise

/-- Whether the set names a derived event without the event it accompanies. -/
def armsDerivedAlone (s : EventSet) : Bool :=
  (s.has .nativeReturn || s.has .nativeRaise) && !s.has .call

/-- The set without derived events: the form in which sets are kept. -/
def stored (s : EventSet) : EventSet := s \ derived

/-- The set with the derived events whose parent it has: what is delivered for it. -/
def delivered (s : EventSet) : EventSet := if s.has .call then s ∪ derived else s

/-! ### Names -/

def text (s : EventSet) : String :=
  if s.isEmpty then "NO_EVENTS" else " | ".intercalate (s.toList.map Event.name)

/-- The set that one trimmed piece of a list names. -/
def parsePiece (piece : String) : Except UnknownEvent EventSet :=
  if Text.sameIgnoringCase piece "all" then .ok full else single <$> Event.parse piece

def pieces (list : String) : List String :=
  ((Text.splitAt ',' list.toList).map fun piece => Text.trim (String.ofList piece)).filter (· ≠ "")

/-- The events that a comma-separated list names; the word for all of them is `all`. -/
def parse (list : String) : Except UnknownEvent EventSet :=
  (pieces list).foldlM (fun s piece => return s ∪ (← parsePiece piece)) ∅

/-! ### What the operations do to bits -/

theorem ext_bit {s t : EventSet} (h : ∀ i, s.bit i = t.bit i) : s = t := by
  obtain ⟨s⟩ := s
  obtain ⟨t⟩ := t
  congr 1
  exact UInt32.toBitVec_inj.1 (BitVec.eq_of_getLsbD_eq fun i _ => h i)

@[simp] theorem bit_empty (i : Nat) : (∅ : EventSet).bit i = false := BitVec.getLsbD_zero

@[simp] theorem bit_union (s t : EventSet) (i : Nat) : (s ∪ t).bit i = (s.bit i || t.bit i) :=
  BitVec.getLsbD_or

@[simp] theorem bit_diff (s t : EventSet) (i : Nat) : (s \ t).bit i = (s.bit i && !t.bit i) := by
  show (s.bits.toBitVec &&& ~~~ t.bits.toBitVec).getLsbD i =
    (s.bits.toBitVec.getLsbD i && !t.bits.toBitVec.getLsbD i)
  by_cases hi : i < 32
  · simp [hi]
  · simp [BitVec.getLsbD_of_ge _ _ (Nat.le_of_not_lt hi)]

@[simp] theorem bit_single (e : Event) (i : Nat) : (single e).bit i = decide (e.index.val = i) := by
  have hi : e.index.val < 32 := Nat.lt_trans e.index.isLt (by decide)
  show (BitVec.twoPow 32 e.index).getLsbD i = _
  simp [BitVec.getLsbD_twoPow, hi]

/-- The events have the first fifteen places. -/
theorem exists_index_iff {i : Nat} : (∃ e : Event, e.index.val = i) ↔ i < 15 := by
  constructor
  · rintro ⟨e, rfl⟩
    exact e.index.isLt
  · intro hi
    have hall : ∀ j : Fin 15, ∃ e ∈ Event.all, e.index = j := by decide
    obtain ⟨e, -, he⟩ := hall ⟨i, hi⟩
    exact ⟨e, congrArg Fin.val he⟩

@[simp] theorem bit_full (i : Nat) : full.bit i = decide (i < 15) := by
  by_cases hi : i < 32
  · have hall : ∀ j : Fin 32, full.bit j = decide (j.val < 15) := by decide
    exact hall ⟨i, hi⟩
  · have hlarge : ¬ i < 15 := fun h => hi (Nat.lt_trans h (by decide))
    rw [decide_eq_false hlarge]
    exact BitVec.getLsbD_of_ge _ _ (Nat.le_of_not_lt hi)

theorem isEmpty_iff {s : EventSet} : s.isEmpty ↔ s = ∅ := by
  obtain ⟨b⟩ := s
  simp [isEmpty, EmptyCollection.emptyCollection, empty]

@[simp] theorem union_empty (s : EventSet) : s ∪ ∅ = s := ext_bit fun i => by simp

/-! ### What the operations do to membership -/

/-- Sets that name only events are equal if they have the same ones. -/
theorem NamesOnlyEvents.ext {s t : EventSet} (hs : s.NamesOnlyEvents) (ht : t.NamesOnlyEvents)
    (h : ∀ e, s.has e = t.has e) : s = t := by
  refine ext_bit fun i => ?_
  by_cases hi : ∃ e : Event, e.index.val = i
  · obtain ⟨e, rfl⟩ := hi
    exact h e
  · rw [Bool.eq_false_iff.2 (mt (hs i) hi), Bool.eq_false_iff.2 (mt (ht i) hi)]

@[simp] theorem has_empty (e : Event) : (∅ : EventSet).has e = false := bit_empty _

@[simp] theorem has_full (e : Event) : full.has e = true := by
  rw [has, bit_full]
  exact decide_eq_true e.index.isLt

@[simp] theorem has_single (e f : Event) : (single e).has f = decide (e = f) := by
  rw [has, bit_single]
  exact decide_eq_decide.2 ⟨fun h => Event.index_injective (Fin.ext h), fun h => by rw [h]⟩

@[simp] theorem has_union (s t : EventSet) (e : Event) : (s ∪ t).has e = (s.has e || t.has e) :=
  bit_union ..

/-- An event is in a union over a list if it is in one of the sets. -/
theorem has_foldl_union {α : Type} (f : α → EventSet) (e : Event) (l : List α) (s : EventSet) :
    (l.foldl (fun all x => all ∪ f x) s).has e = (s.has e || l.any fun x => (f x).has e) := by
  induction l generalizing s with
  | nil => simp
  | cons x l ih => simp [ih, Bool.or_assoc]

@[simp] theorem has_diff (s t : EventSet) (e : Event) : (s \ t).has e = (s.has e && !t.has e) :=
  bit_diff ..

/-- A derived event is one with a parent. -/
@[simp] theorem has_derived (e : Event) : derived.has e = e.isDerived := by
  cases e <;> rfl

@[simp] theorem has_stored (s : EventSet) (e : Event) :
    s.stored.has e = (s.has e && !e.isDerived) := by
  simp [stored]

/-- What is delivered for a set beyond its own events are the derived ones, with the call event. -/
@[simp] theorem has_delivered (s : EventSet) (e : Event) :
    s.delivered.has e = (s.has e || s.has .call && e.isDerived) := by
  unfold delivered
  split <;> simp_all

/-- What is delivered for a set is delivered for a larger one. -/
theorem has_delivered_mono {s t : EventSet} (h : ∀ e, s.has e = true → t.has e = true) {e : Event}
    (he : s.delivered.has e = true) : t.delivered.has e = true := by
  simp only [has_delivered, Bool.or_eq_true, Bool.and_eq_true] at he ⊢
  exact he.imp (h e) fun hcall => ⟨h .call hcall.1, hcall.2⟩

@[simp] theorem mem_toList {s : EventSet} {e : Event} : e ∈ s.toList ↔ s.has e := by
  simp [toList, Event.mem_all]

/-! ### Sets that name only events -/

theorem namesOnlyEvents_empty : NamesOnlyEvents ∅ := by
  intro i h
  rw [bit_empty] at h
  cases h

theorem namesOnlyEvents_full : NamesOnlyEvents full := by
  intro i h
  rw [bit_full, decide_eq_true_eq] at h
  exact exists_index_iff.2 h

theorem namesOnlyEvents_single (e : Event) : NamesOnlyEvents (single e) := by
  intro i h
  rw [bit_single, decide_eq_true_eq] at h
  exact ⟨e, h⟩

theorem NamesOnlyEvents.union {s t : EventSet} (hs : s.NamesOnlyEvents) (ht : t.NamesOnlyEvents) :
    (s ∪ t).NamesOnlyEvents := by
  intro i h
  rw [bit_union, Bool.or_eq_true] at h
  exact h.elim (hs i) (ht i)

theorem namesOnlyEvents_iff {s : EventSet} : s.NamesOnlyEvents ↔ s.unknown = ∅ := by
  have hbit : ∀ i, s.unknown.bit i = (s.bit i && !decide (i < 15)) := fun i => by
    rw [unknown, bit_diff, bit_full]
  constructor
  · intro h
    refine ext_bit fun i => ?_
    rw [hbit, bit_empty]
    cases hi : s.bit i with
    | false => rfl
    | true => simp [exists_index_iff.1 (h i hi)]
  · intro h i hi
    have hnone := hbit i
    rw [h, bit_empty, hi, Bool.true_and, eq_comm, Bool.not_eq_false', decide_eq_true_eq] at hnone
    exact exists_index_iff.2 hnone

end EventSet

end Tracepoint
