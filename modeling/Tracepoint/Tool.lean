/-
**Tools and sets of tools.**

A tool observes a running program from one of six slots.  Some slots are known by a name.  A set
of tools is a word with one bit for each slot.

Main definitions:

* `Tracepoint.Tool` — the slots;
* `Tracepoint.Tool.ofNat` — the slot of a number;
* `Tracepoint.Tool.parse?` — the slot of a number or of a well-known name;
* `Tracepoint.ToolSet` — the sets, with membership, insertion and removal.
-/

import Tracepoint.Text.Decimal
import Tracepoint.Text.LetterCase

set_option relaxedAutoImplicit false
set_option autoImplicit false

namespace Tracepoint

/-- The slot of a tool. -/
abbrev Tool := Fin 6

/-- A number that is no slot. -/
structure InvalidTool where
  number : Nat
  deriving DecidableEq

def InvalidTool.message (e : InvalidTool) : String :=
  "invalid tool " ++ toString e.number ++ " (must be between 0 and 5)"

namespace Tool

def all : List Tool := [0, 1, 2, 3, 4, 5]

def debugger : Tool := 0

def coverage : Tool := 1

def profiler : Tool := 2

def optimizer : Tool := 5

/-- The slot of a number, or the number that is no slot. -/
def ofNat (n : Nat) : Except InvalidTool Tool :=
  if h : n < 6 then .ok ⟨n, h⟩ else .error ⟨n⟩

def bit (t : Tool) : Nat := (BitVec.twoPow 6 t).toNat

/-- The slot that a text writes as a number or as a well-known name. -/
def parse? (text : String) : Option Tool :=
  let word := Text.lower text
  if word = "debugger" then some debugger
  else if word = "coverage" then some coverage
  else if word = "profiler" then some profiler
  else if word = "optimizer" then some optimizer
  else (Text.parseUnsigned 0x100000000 word).bind fun n => (ofNat n).toOption

theorem mem_all (t : Tool) : t ∈ all := by
  revert t; decide

end Tool

/-- A set of tools. -/
structure ToolSet where
  bits : BitVec 6
  deriving DecidableEq

namespace ToolSet

def empty : ToolSet := ⟨0⟩

instance : EmptyCollection ToolSet := ⟨empty⟩

instance : Inhabited ToolSet := ⟨∅⟩

/-- The set of the low bits of a word; the bits above the last slot are ignored. -/
def ofBits (bits : UInt8) : ToolSet := ⟨BitVec.ofNat 6 bits.toNat⟩

def has (s : ToolSet) (t : Tool) : Bool := s.bits.getLsb t

def insert (s : ToolSet) (t : Tool) : ToolSet := ⟨s.bits ||| BitVec.twoPow 6 t⟩

def erase (s : ToolSet) (t : Tool) : ToolSet := ⟨s.bits &&& ~~~ BitVec.twoPow 6 t⟩

def toList (s : ToolSet) : List Tool := Tool.all.filter s.has

def ofList (ts : List Tool) : ToolSet := ts.foldl insert ∅

def size (s : ToolSet) : Nat := s.toList.length

def isEmpty (s : ToolSet) : Bool := s.bits == 0

def text (s : ToolSet) : String :=
  "\x7b" ++ ", ".intercalate (s.toList.map fun t => toString t.val) ++ "\x7d"

def filter (p : Tool → Bool) : ToolSet := ofList (Tool.all.filter p)

/-! ### What the operations do to membership -/

@[simp] theorem has_empty (t : Tool) : (∅ : ToolSet).has t = false := by
  revert t; decide

@[simp] theorem has_insert (s : ToolSet) (t u : Tool) :
    (s.insert t).has u = (s.has u || decide (t = u)) := by
  show (s.bits ||| BitVec.twoPow 6 t).getLsbD u = (s.bits.getLsbD u || decide (t = u))
  rw [BitVec.getLsbD_or]
  congr 1
  revert t u; decide

@[simp] theorem has_erase (s : ToolSet) (t u : Tool) :
    (s.erase t).has u = (s.has u && !decide (t = u)) := by
  show (s.bits &&& ~~~ BitVec.twoPow 6 t).getLsbD u = (s.bits.getLsbD u && !decide (t = u))
  rw [BitVec.getLsbD_and]
  congr 1
  revert t u; decide

@[simp] theorem mem_toList {s : ToolSet} {t : Tool} : t ∈ s.toList ↔ s.has t := by
  simp [toList, Tool.mem_all]

theorem has_foldl_insert (ts : List Tool) (s : ToolSet) (u : Tool) :
    (ts.foldl insert s).has u ↔ s.has u ∨ u ∈ ts := by
  induction ts generalizing s with
  | nil => simp
  | cons t ts ih =>
      rw [List.foldl_cons, ih, has_insert, Bool.or_eq_true, decide_eq_true_eq, List.mem_cons,
        or_assoc, @eq_comm _ t]

@[simp] theorem has_filter (p : Tool → Bool) (t : Tool) : (filter p).has t = p t := by
  rw [filter, ofList, Bool.eq_iff_iff, has_foldl_insert]
  simp [Tool.mem_all]

theorem isEmpty_iff {s : ToolSet} : s.isEmpty = true ↔ ∀ t, s.has t = false := by
  rw [isEmpty, beq_iff_eq]
  constructor
  · intro h t
    rw [has, h]
    exact BitVec.getLsbD_zero
  · intro h
    refine BitVec.eq_of_getLsbD_eq fun i hi => ?_
    have hbit : s.bits.getLsbD i = false := h ⟨i, hi⟩
    exact hbit.trans BitVec.getLsbD_zero.symm

end ToolSet

end Tracepoint
