/-
**Addresses do not matter.**

Lists, iterators and generators are known by their addresses, and what is made next goes to the next
address.  So a heap that holds other things in front gives other addresses to the same values.  No
program can tell: if all addresses of a heap are moved behind those of another one, then what is
computed is the same with all addresses moved, and texts and truth values, which contain no
addresses, are the same.

This module says so for everything that is done to values.  The code units stay where they are, and
only their constants are moved.

Main definitions:

* `Tracepoint.Value.behind`, `Tracepoint.Frame.behind`, `Tracepoint.Heap.behind` — **values, frames
  and heaps with their addresses moved behind a heap**;
* `Tracepoint.resultBehind` — a value or an exception.

Main results:

* `Tracepoint.Heap.equal_behind`, `Tracepoint.Heap.shown_behind`, `Tracepoint.Heap.isTruthy_behind`
  — what is seen of values;
* `Tracepoint.Heap.operate_behind`, `Tracepoint.Heap.iterate_behind`,
  `Tracepoint.Heap.runNative_behind` — **what is computed**.
-/

import Tracepoint.Proofs.Value.Levels
import Tracepoint.Value.Arithmetic
import Tracepoint.Value.Iteration
import Tracepoint.Value.Native

set_option relaxedAutoImplicit false
set_option autoImplicit false

namespace Tracepoint

/-! ### Moving addresses -/

mutual

/-- **A value with its addresses moved behind those of a heap.** -/
def Value.behind (g : Heap) : Value → Value
  | .null => .null
  | .bool b => .bool b
  | .int n => .int n
  | .str s => .str s
  | .tuple items => .tuple (Value.allBehind g items)
  | .list a => .list (g.lists.size + a)
  | .function a => .function a
  | .native f => .native f
  | .exception e => .exception e
  | .iterator a => .iterator (g.iterators.size + a)
  | .generator a => .generator (g.generators.size + a)

def Value.allBehind (g : Heap) : List Value → List Value
  | [] => []
  | v :: vs => Value.behind g v :: Value.allBehind g vs

end

theorem Value.allBehind_eq_map (g : Heap) (vs : List Value) :
    Value.allBehind g vs = vs.map (Value.behind g) := by
  induction vs with
  | nil => rfl
  | cons v vs ih => rw [allBehind, ih, List.map_cons]

/-- A value or an exception with its addresses moved; exceptions have none. -/
def resultBehind (g : Heap) : Except Exception Value → Except Exception Value
  | .ok v => .ok (v.behind g)
  | .error e => .error e

/-- The constants of a code unit are moved. -/
def Code.behind (g : Heap) (c : Code) : Code := { c with consts := c.consts.map (Value.behind g) }

def Frame.behind (g : Heap) (f : Frame) : Frame :=
  { f with
    code := f.code.behind g
    locals := f.locals.map (Value.behind g)
    stack := f.stack.map (Value.behind g) }

def Iteration.behind (g : Heap) : Iteration → Iteration
  | .items rest => .items (rest.map (Value.behind g))
  | .range next stop => .range next stop

def GeneratorState.behind (g : Heap) : GeneratorState → GeneratorState
  | .suspended f => .suspended (f.behind g)
  | .running => .running
  | .finished => .finished

def Generator.behind (g : Heap) (x : Generator) : Generator := { x with state := x.state.behind g }

/-- **A heap behind another one**, whose lists, iterators and generators stand in front. -/
def Heap.behind (h g : Heap) : Heap where
  codes := h.codes.map (Code.behind g)
  lists := g.lists ++ h.lists.map (Array.map (Value.behind g))
  iterators := g.iterators ++ h.iterators.map (Iteration.behind g)
  generators := g.generators ++ h.generators.map (Generator.behind g)

section Arrays

variable {α : Type}

/-- What is behind an array is found behind its addresses. -/
theorem getElem?_behind (xs ys : Array α) (i : ℕ) : (xs ++ ys)[xs.size + i]? = ys[i]? := by
  rw [Array.getElem?_append_right (Nat.le_add_right ..), Nat.add_sub_cancel_left]

theorem setIfInBounds_behind (xs ys : Array α) (i : ℕ) (a : α) :
    (xs ++ ys).setIfInBounds (xs.size + i) a = xs ++ ys.setIfInBounds i a := by
  rw [Array.setIfInBounds_append_right (Nat.le_add_right ..), Nat.add_sub_cancel_left]

theorem modify_behind (xs ys : Array α) (i : ℕ) (f : α → α) :
    (xs ++ ys).modify (xs.size + i) f = xs ++ ys.modify i f := by
  refine Array.ext_getElem? fun k => ?_
  rcases Nat.lt_or_ge k xs.size with hk | hk
  · have hne : ¬ xs.size + i = k := by omega
    rw [Array.getElem?_modify, if_neg hne, Array.getElem?_append_left hk,
      Array.getElem?_append_left hk]
  · obtain ⟨l, rfl⟩ := Nat.exists_eq_add_of_le hk
    rw [Array.getElem?_modify, getElem?_behind, getElem?_behind, Array.getElem?_modify]
    simp

theorem modify_map {β : Type} (xs : Array α) (i : ℕ) (f : α → β) (m : α → α) (m' : β → β)
    (h : ∀ a, m' (f a) = f (m a)) : (xs.map f).modify i m' = (xs.modify i m).map f := by
  refine Array.ext_getElem? fun k => ?_
  rw [Array.getElem?_modify, Array.getElem?_map, Array.getElem?_map, Array.getElem?_modify]
  split
  · cases xs[k]? <;> simp [h]
  · rfl

end Arrays

namespace Heap

variable (h g : Heap)

/-! ### What is held by address -/

theorem code?_behind (a : ℕ) : (h.behind g).code? a = (h.code? a).map (Code.behind g) := by
  rw [code?, code?, behind, Array.getElem?_map]

theorem items_behind (a : ℕ) :
    (h.behind g).items (g.lists.size + a) = (h.items a).map (Value.behind g) := by
  rw [items, items, behind, getElem?_behind, Array.getElem?_map]
  cases h.lists[a]? <;> simp

theorem iteration_behind (a : ℕ) :
    (h.behind g).iteration (g.iterators.size + a) = (h.iteration a).behind g := by
  rw [iteration, iteration, behind, getElem?_behind, Array.getElem?_map]
  cases h.iterators[a]? <;> rfl

theorem generatorState_behind (a : ℕ) :
    (h.behind g).generatorState (g.generators.size + a) = (h.generatorState a).behind g := by
  rw [generatorState, generatorState, behind, getElem?_behind, Array.getElem?_map]
  cases h.generators[a]? <;> rfl

theorem generatorName_behind (a : ℕ) :
    (h.behind g).generatorName (g.generators.size + a) = h.generatorName a := by
  rw [generatorName, generatorName, behind, getElem?_behind, Array.getElem?_map]
  cases h.generators[a]? <;> rfl

theorem functionName_behind (a : ℕ) : (h.behind g).functionName a = h.functionName a := by
  rw [functionName, functionName, code?_behind]
  cases h.code? a <;> rfl

/-! ### What is made and changed -/

theorem addList_behind (items : Array Value) :
    (h.behind g).addList (items.map (Value.behind g)) =
      ((h.addList items).1.behind g, (h.addList items).2.behind g) := by
  simp [addList, behind, Value.behind]

theorem addIterator_behind (it : Iteration) :
    (h.behind g).addIterator (it.behind g) =
      ((h.addIterator it).1.behind g, (h.addIterator it).2.behind g) := by
  simp [addIterator, behind, Value.behind]

theorem addGenerator_behind (f : Frame) :
    (h.behind g).addGenerator (f.behind g) =
      ((h.addGenerator f).1.behind g, (h.addGenerator f).2.behind g) := by
  simp [addGenerator, behind, Value.behind, Generator.behind, GeneratorState.behind, Frame.behind,
    Code.behind]

theorem appendItem_behind (a : ℕ) (v : Value) :
    (h.behind g).appendItem (g.lists.size + a) (v.behind g) = (h.appendItem a v).behind g := by
  simp only [appendItem, behind, modify_behind]
  rw [modify_map _ _ _ (·.push v) _ (fun items => (Array.map_push ..).symm)]

theorem setIteration_behind (a : ℕ) (it : Iteration) :
    (h.behind g).setIteration (g.iterators.size + a) (it.behind g) =
      (h.setIteration a it).behind g := by
  simp only [setIteration, behind, setIfInBounds_behind, Array.map_setIfInBounds]

theorem setGenerator_behind (a : ℕ) (s : GeneratorState) :
    (h.behind g).setGenerator (g.generators.size + a) (s.behind g) =
      (h.setGenerator a s).behind g := by
  simp only [setGenerator, behind, modify_behind]
  have hmodify := modify_map h.generators a (Generator.behind g)
    (fun x : Generator => { x with state := s }) (fun x => { x with state := s.behind g })
    fun _ => rfl
  rw [hmodify]

end Heap

/-! ### What is seen of values -/

namespace Value

variable {g : Heap}

@[simp] theorem typeName_behind (v : Value) : (v.behind g).typeName = v.typeName := by
  cases v <;> rfl

mutual

/-- Values are equal exactly if they are with their addresses moved, if it is so for lists. -/
theorem same_behind {lists lists' : ℕ → ℕ → Bool}
    (hlists : ∀ a b, lists' (g.lists.size + a) (g.lists.size + b) = lists a b) (v w : Value) :
    Value.same lists' (v.behind g) (w.behind g) = Value.same lists v w := by
  cases v with
  | tuple as =>
      cases w with
      | tuple bs =>
          have hitems := sameItems_behind hlists as bs
          simp only [behind, same, hitems]
          simp only [allBehind_eq_map, List.length_map]
      | _ => rfl
  | list a =>
      cases w with
      | list b => exact hlists a b
      | _ => rfl
  | iterator a | generator a =>
      cases w <;> simp [behind, same]
  | _ => cases w <;> rfl

theorem sameItems_behind {lists lists' : ℕ → ℕ → Bool}
    (hlists : ∀ a b, lists' (g.lists.size + a) (g.lists.size + b) = lists a b)
    (vs ws : List Value) :
    Value.sameItems lists' (allBehind g vs) (allBehind g ws) = Value.sameItems lists vs ws := by
  cases vs with
  | nil => cases ws <;> rfl
  | cons v vs =>
      cases ws with
      | nil => rfl
      | cons w ws =>
          simp only [allBehind, sameItems, same_behind hlists v w, sameItems_behind hlists vs ws]

end

mutual

/-- A value is shown as it is with its addresses moved, if it is so for lists. -/
theorem render_behind {h : Heap} {lists lists' : ℕ → String}
    (hlists : ∀ a, lists' (g.lists.size + a) = lists a) (v : Value) :
    (v.behind g).render (h.behind g) lists' = v.render h lists := by
  cases v with
  | bool b => rw [behind, render_bool, render_bool]
  | tuple items =>
      have hitems := renderItems_behind (h := h) hlists items
      have hcomma : trailingComma (allBehind g items) = trailingComma items := by
        cases items with
        | nil => rfl
        | cons v vs => cases vs <;> rfl
      rw [behind, render_tuple, render_tuple, hitems, hcomma]
  | list a => exact hlists a
  | function a => rw [behind, render_function, render_function, Heap.functionName_behind]
  | generator a => rw [behind, render_generator, render_generator, Heap.generatorName_behind]
  | _ => rfl

theorem renderItems_behind {h : Heap} {lists lists' : ℕ → String}
    (hlists : ∀ a, lists' (g.lists.size + a) = lists a) (vs : List Value) :
    renderItems (h.behind g) lists' (allBehind g vs) = renderItems h lists vs := by
  cases vs with
  | nil => rfl
  | cons v vs =>
      rw [allBehind, renderItems_cons, renderItems_cons, render_behind hlists v,
        renderItems_behind hlists vs]

end

end Value

namespace Heap

variable (h g : Heap)

theorem contains_map_add (n : ℕ) (opened : List ℕ) (a : ℕ) :
    (opened.map (n + ·)).contains (n + a) = opened.contains a := by
  rw [Bool.eq_iff_iff, List.contains_iff_mem, List.contains_iff_mem, List.mem_map]
  constructor
  · rintro ⟨b, hb, hba⟩
    obtain rfl : b = a := by omega
    exact hb
  · intro ha
    exact ⟨a, ha, rfl⟩

/-- Lists are equal exactly if they are with their addresses moved. -/
theorem sameList_behind (levels : ℕ) (opened : List ℕ) (a b : ℕ) :
    (h.behind g).sameList levels (opened.map (g.lists.size + ·)) (g.lists.size + a)
      (g.lists.size + b) = h.sameList levels opened a b := by
  induction levels generalizing opened a b with
  | zero => simp [sameList]
  | succ levels ih =>
      have hitems : Value.sameItems ((h.behind g).sameList levels
            ((a :: b :: opened).map (g.lists.size + ·)))
          (Value.allBehind g (h.items a).toList) (Value.allBehind g (h.items b).toList) =
            Value.sameItems (h.sameList levels (a :: b :: opened)) (h.items a).toList
              (h.items b).toList :=
        Value.sameItems_behind (fun c d => ih (a :: b :: opened) c d) _ _
      rw [sameList, sameList, contains_map_add, contains_map_add, items_behind, items_behind,
        Array.size_map, Array.size_map, Array.toList_map, Array.toList_map,
        ← Value.allBehind_eq_map, ← Value.allBehind_eq_map]
      have heq : (g.lists.size + a == g.lists.size + b) = (a == b) := by
        rw [Bool.eq_iff_iff, beq_iff_eq, beq_iff_eq]
        omega
      rw [heq]
      congr 2

/-- A list is shown as it is with its addresses moved. -/
theorem renderList_behind (levels : ℕ) (opened : List ℕ) (a : ℕ) :
    (h.behind g).renderList levels (opened.map (g.lists.size + ·)) (g.lists.size + a) =
      h.renderList levels opened a := by
  induction levels generalizing opened a with
  | zero => rfl
  | succ levels ih =>
      have hitems : ∀ v : Value, (v.behind g).render (h.behind g)
            ((h.behind g).renderList levels ((a :: opened).map (g.lists.size + ·))) =
          v.render h (h.renderList levels (a :: opened)) :=
        Value.render_behind fun b => ih (a :: opened) b
      rw [renderList, renderList, contains_map_add, items_behind, Array.toList_map, List.map_map]
      congr 5
      funext v
      exact hitems v

/-- **Values are equal exactly if they are with their addresses moved.** -/
theorem equal_behind (v w : Value) :
    (h.behind g).equal (v.behind g) (w.behind g) = h.equal v w := by
  unfold equal
  have hlevels : h.sameList (h.lists.size + 1) [] =
      h.sameList ((h.behind g).lists.size + 1) [] := by
    refine h.sameList_levels ?_ ?_ <;> rw [unopened_nil]
    · omega
    · simp only [behind, Array.size_append, Array.size_map]
      omega
  rw [hlevels]
  exact Value.same_behind (fun a b => h.sameList_behind g _ [] a b) v w

/-- **A value is shown as it is with its addresses moved.** -/
theorem shown_behind (v : Value) : (h.behind g).shown (v.behind g) = h.shown v := by
  unfold shown
  have hlevels : h.renderList (h.lists.size + 1) [] =
      h.renderList ((h.behind g).lists.size + 1) [] := by
    refine h.renderList_levels ?_ ?_ <;> rw [unopened_nil]
    · omega
    · simp only [behind, Array.size_append, Array.size_map]
      omega
  rw [hlevels]
  exact Value.render_behind (fun a => h.renderList_behind g _ [] a) v

theorem shownArgument_behind (v : Option Value) :
    (h.behind g).shownArgument (v.map (Value.behind g)) = h.shownArgument v := by
  cases v with
  | none => rfl
  | some v => exact h.shown_behind g v

theorem shownCallable_behind (v : Value) :
    (h.behind g).shownCallable (v.behind g) = h.shownCallable v := by
  have hname : (h.behind g).callableName? (v.behind g) = h.callableName? v := by
    cases v with
    | function a => exact congrArg some (h.functionName_behind g a)
    | _ => rfl
  rw [shownCallable, shownCallable, hname, shown_behind]

theorem isTruthy_behind (v : Value) : (h.behind g).isTruthy (v.behind g) = h.isTruthy v := by
  cases v with
  | tuple items =>
      show (!(Value.allBehind g items).isEmpty) = !items.isEmpty
      rw [Value.allBehind_eq_map, List.isEmpty_map]
  | list a =>
      show (!((h.behind g).items (g.lists.size + a)).isEmpty) = !(h.items a).isEmpty
      rw [items_behind, Array.isEmpty, Array.isEmpty, Array.size_map]
  | _ => rfl

theorem length_behind (v : Value) : (h.behind g).length (v.behind g) = h.length v := by
  cases v with
  | tuple items =>
      show Except.ok (Value.allBehind g items).length = Except.ok items.length
      rw [Value.allBehind_eq_map, List.length_map]
  | list a =>
      show Except.ok ((h.behind g).items (g.lists.size + a)).size = Except.ok (h.items a).size
      rw [items_behind, Array.size_map]
  | _ => rfl

theorem nominalSize_behind (v : Value) :
    (h.behind g).nominalSize (v.behind g) = h.nominalSize v := by
  cases v with
  | tuple items =>
      show 40 + 8 * (Value.allBehind g items).length = 40 + 8 * items.length
      rw [Value.allBehind_eq_map, List.length_map]
  | list a =>
      show 56 + 8 * ((h.behind g).items (g.lists.size + a)).size = 56 + 8 * (h.items a).size
      rw [items_behind, Array.size_map]
  | _ => rfl

/-! ### What is computed -/

end Heap

/-- A heap and a result, both moved. -/
def outcomeBehind (g : Heap) (p : Heap × Except Exception Value) : Heap × Except Exception Value :=
  (p.1.behind g, resultBehind g p.2)

theorem resultBehind_ofInt (g : Heap) (n : Int) :
    resultBehind g (Value.ofInt n) = Value.ofInt n := by
  unfold Value.ofInt
  split <;> rfl

theorem resultBehind_floorDiv (g : Heap) (a b : Int64) :
    resultBehind g (Value.floorDiv a b) = Value.floorDiv a b := by
  rcases Value.floorDiv_cases a b with h | h | ⟨w, h⟩ <;> rw [h] <;> rfl

theorem behind_ofNat (g : Heap) (n : ℕ) : (Value.ofNat n).behind g = Value.ofNat n := by
  unfold Value.ofNat
  split <;> rfl

namespace Heap

variable (h g : Heap)

theorem succeed_addList_behind (items : Array Value) :
    succeed ((h.behind g).addList (items.map (Value.behind g))) =
      outcomeBehind g (succeed (h.addList items)) := by
  rw [addList_behind]
  rfl

theorem succeed_addIterator_behind (it : Iteration) :
    succeed ((h.behind g).addIterator (it.behind g)) =
      outcomeBehind g (succeed (h.addIterator it)) := by
  rw [addIterator_behind]
  rfl

/-- **Operators compute the same.** -/
theorem operate_behind (op : BinaryOperator) (v w : Value) :
    (h.behind g).operate op (v.behind g) (w.behind g) = outcomeBehind g (h.operate op v w) := by
  cases op with
  | eq =>
      show (h.behind g, Except.ok (Value.bool ((h.behind g).equal (v.behind g) (w.behind g)))) = _
      rw [equal_behind]
      rfl
  | add =>
      cases v with
      | int a =>
          cases w with
          | int b =>
              show (h.behind g, Value.ofInt (a.toInt + b.toInt)) =
                (h.behind g, resultBehind g (Value.ofInt (a.toInt + b.toInt)))
              rw [resultBehind_ofInt]
          | _ => rfl
      | list a =>
          cases w with
          | list b =>
              show succeed ((h.behind g).addList ((h.behind g).items (g.lists.size + a) ++
                (h.behind g).items (g.lists.size + b))) =
                  outcomeBehind g (succeed (h.addList (h.items a ++ h.items b)))
              rw [items_behind, items_behind, ← Array.map_append, succeed_addList_behind]
          | _ => rfl
      | _ => cases w <;> rfl
  | sub | mul =>
      cases v with
      | int a =>
          cases w with
          | int b => exact congrArg (Prod.mk _) (resultBehind_ofInt g _).symm
          | _ => rfl
      | _ => cases w <;> rfl
  | floorDiv =>
      cases v with
      | int a =>
          cases w with
          | int b => exact congrArg (Prod.mk _) (resultBehind_floorDiv g _ _).symm
          | _ => rfl
      | _ => cases w <;> rfl
  | lt =>
      cases v with
      | int a => cases w <;> rfl
      | _ => cases w <;> rfl

theorem snapshot?_behind (v : Value) :
    (h.behind g).snapshot? (v.behind g) = (h.snapshot? v).map (List.map (Value.behind g)) := by
  cases v with
  | list a =>
      show some ((h.behind g).items (g.lists.size + a)).toList = _
      rw [items_behind, Array.toList_map]
      rfl
  | tuple items =>
      show some (Value.allBehind g items) = _
      rw [Value.allBehind_eq_map]
      rfl
  | str s =>
      show some _ = some (List.map _ (List.map _ _))
      rw [List.map_map]
      rfl
  | _ => rfl

theorem iterate_of_snapshot? {v : Value} {items : List Value} (hs : h.snapshot? v = some items) :
    h.iterate v = succeed (h.addIterator (.items items)) := by
  cases v with
  | list | tuple | str => simp only [iterate, hs]
  | _ => cases hs

/-- **Values are iterated over the same.** -/
theorem iterate_behind (v : Value) :
    (h.behind g).iterate (v.behind g) = outcomeBehind g (h.iterate v) := by
  cases hs : h.snapshot? v with
  | some items =>
      have hs' : (h.behind g).snapshot? (v.behind g) = some (items.map (Value.behind g)) := by
        rw [snapshot?_behind, hs]
        rfl
      rw [h.iterate_of_snapshot? hs, (h.behind g).iterate_of_snapshot? hs']
      exact h.succeed_addIterator_behind g (.items items)
  | none =>
      cases v with
      | list | tuple | str => cases hs
      | _ => rfl

/-- **Native functions do the same.** -/
theorem runNative_behind (f : Native) (args : List Value) :
    (h.behind g).runNative f (args.map (Value.behind g)) =
      outcomeBehind g (h.runNative f args) := by
  cases f with
  | len =>
      match args with
      | [v] =>
          show (h.behind g, Value.ofNat <$> (h.behind g).length (v.behind g)) =
            (h.behind g, resultBehind g (Value.ofNat <$> h.length v))
          rw [length_behind]
          cases h.length v with
          | error e => rfl
          | ok n => exact congrArg (fun v => (h.behind g, Except.ok v)) (behind_ofNat g n).symm
      | [] | _ :: _ :: _ => simp [runNative, outcomeBehind, resultBehind]
  | sizeof =>
      match args with
      | [v] =>
          show (h.behind g, Except.ok (Value.ofNat ((h.behind g).nominalSize (v.behind g)))) =
            (h.behind g, Except.ok ((Value.ofNat (h.nominalSize v)).behind g))
          rw [nominalSize_behind, behind_ofNat]
      | [] | _ :: _ :: _ => simp [runNative, outcomeBehind, resultBehind]
  | append =>
      match args with
      | [v, w] =>
          cases v with
          | list a =>
              show ((h.behind g).appendItem (g.lists.size + a) (w.behind g), Except.ok Value.null) =
                ((h.appendItem a w).behind g, Except.ok Value.null)
              rw [appendItem_behind]
          | _ => rfl
      | [] | [_] | _ :: _ :: _ :: _ => simp [runNative, outcomeBehind, resultBehind]
  | range =>
      match args with
      | [v] =>
          cases v with
          | int n => exact h.succeed_addIterator_behind g (.range 0 n)
          | _ => rfl
      | [v, w] =>
          cases v with
          | int n =>
              cases w with
              | int k => exact h.succeed_addIterator_behind g (.range n k)
              | _ => rfl
          | _ => cases w <;> rfl
      | [] | _ :: _ :: _ :: _ => simp [runNative, outcomeBehind, resultBehind]

end Heap

end Tracepoint
