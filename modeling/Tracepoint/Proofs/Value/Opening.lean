/-
**One stack of open lists.**

While a list is being compared or shown it is open, and whoever comes to it again must not look into
it.  The open lists stand on one stack, which both sides of a comparison share.  To enter a list puts
it on the stack, unless it stands there already; to leave it takes it away again.  A comparison enters
the lists of both sides, and if it can enter only one of them it leaves that one at once.

Here both are evaluated with this stack, step by step and with as much fuel as one likes.  No list is
entered that is open, so each list that is looked into leaves fewer that can be, and with more fuel
than there are such lists the evaluation comes to its end.  Then the stack is what it was, and the
result is the one that the definitions of equality and of what is shown give, which pass the open
lists down instead.

What is shown is drawn first, as a tree in which a list that was not entered is a leaf.  It is drawn
so exactly where the value comes back to a list: at a list that stands on the way already.

Main definitions:

* `Tracepoint.Evaluation`, `Tracepoint.Heap.holding` — evaluations with a stack, and how a list is
  looked into;
* `Tracepoint.Value.compare`, `Tracepoint.Value.draw` — **comparing and showing, with the stack**;
* `Tracepoint.Evaluation.Settles` — an evaluation comes to its end, enters no open list and leaves the
  stack as it was;
* `Tracepoint.Heap.Recurs`, `Tracepoint.Heap.Depicts` — where a value comes back to an open list, and
  pictures that say so.

Main results:

* `Tracepoint.Evaluation.settles_holding` — **a list that is held is left again**;
* `Tracepoint.Heap.settles_compareLists`, `Tracepoint.Heap.settles_drawList` — fuel for every list
  that can be opened is enough;
* `Tracepoint.Heap.cyclic_safe` — **comparing and showing are safe**, whatever lies within itself.
-/

import Tracepoint.Proofs.Value.Structural

set_option relaxedAutoImplicit false
set_option autoImplicit false

namespace Tracepoint

/-! ### Evaluations with a stack -/

/-- What is done with the stack of open lists. -/
inductive Mark where
  | enter (a : ℕ)
  | leave (a : ℕ)

/-- The stack afterwards, the latest list first.  Of a list that stood on it twice the latest one
would be taken away. -/
def Mark.after : Mark → List ℕ → List ℕ
  | enter a, opened => a :: opened
  | leave a, opened => opened.erase a

/-- An evaluation on a stack of open lists: its result, what it did with the stack and the stack it
leaves, unless it runs out of fuel. -/
def Evaluation (α : Type) : Type := List ℕ → Option (α × List Mark × List ℕ)

namespace Evaluation

variable {α β : Type}

instance : Monad Evaluation where
  pure x opened := some (x, [], opened)
  bind e k opened := do
    let (x, marks, opened) ← e opened
    let (y, marks', opened) ← k x opened
    some (y, marks ++ marks', opened)

def outOfFuel : Evaluation α := fun _ => none

/-- Enters a list, unless it is open. -/
def enter (a : ℕ) : Evaluation Bool := fun opened =>
  if opened.contains a then some (false, [], opened) else some (true, [.enter a], a :: opened)

def leave (a : ℕ) : Evaluation Unit := fun opened =>
  some ((), [.leave a], opened.erase a)

end Evaluation

/-- **To look into a list**: it is entered, and left when one is done.  The items of a list that is
open are not given. -/
def Heap.holding {α : Type} (h : Heap) (a : ℕ) (k : Option (List Value) → Evaluation α) :
    Evaluation α := do
  if ← Evaluation.enter a then
    let x ← k (some (h.items a).toList)
    Evaluation.leave a
    pure x
  else k none

mutual

/-- Compares two values, given how lists are compared. -/
def Value.compare (lists : ℕ → ℕ → Evaluation Bool) : Value → Value → Evaluation Bool
  | .tuple as, .tuple bs =>
      if as.length = bs.length then Value.compareItems lists as bs else pure false
  | .list a, .list b => lists a b
  | v, w => pure (v.same (fun _ _ => false) w)

/-- Compares rows item by item, up to the first difference. -/
def Value.compareItems (lists : ℕ → ℕ → Evaluation Bool) :
    List Value → List Value → Evaluation Bool
  | [], [] => pure true
  | v :: vs, w :: ws => do
      if ← Value.compare lists v w then Value.compareItems lists vs ws else pure false
  | _, _ => pure false

end

/-- Compares two lists.  Both are entered, also if the first one is open. -/
def Heap.compareLists (h : Heap) : ℕ → ℕ → ℕ → Evaluation Bool
  | 0, _, _ => Evaluation.outOfFuel
  | fuel + 1, a, b =>
      if a = b then pure true
      else
        h.holding a fun as => h.holding b fun bs =>
          match as, bs with
          | some as, some bs =>
              if as.length = bs.length then Value.compareItems (h.compareLists fuel) as bs
              else pure false
          | _, _ => pure false

/-! ### Pictures -/

/-- A value as it is drawn: a list that was open is not drawn again. -/
inductive Picture where
  | leaf (v : Value)
  | tuple (items : List Picture)
  | list (a : ℕ) (items : List Picture)
  | again (a : ℕ)

mutual

/-- The text of a picture. -/
def Picture.text (h : Heap) : Picture → String
  | .leaf v => v.render h fun _ => ""
  | .tuple items =>
      "(" ++ ", ".intercalate (Picture.texts h items) ++ Value.trailingComma items ++ ")"
  | .list _ items => "[" ++ ", ".intercalate (Picture.texts h items) ++ "]"
  | .again _ => "[...]"

def Picture.texts (h : Heap) : List Picture → List String
  | [] => []
  | p :: ps => Picture.text h p :: Picture.texts h ps

end

mutual

/-- The value that is drawn. -/
def Picture.value : Picture → Value
  | .leaf v => v
  | .tuple items => .tuple (Picture.values items)
  | .list a _ | .again a => .list a

def Picture.values : List Picture → List Value
  | [] => []
  | p :: ps => Picture.value p :: Picture.values ps

end

/-- The pictures directly inside a picture. -/
def Picture.contents : Picture → List Picture
  | .tuple items | .list _ items => items
  | _ => []

/-- The picture at a position of a picture. -/
def Picture.at? : Picture → List ℕ → Option Picture
  | pic, [] => some pic
  | pic, i :: p => pic.contents[i]?.bind fun q => q.at? p

mutual

/-- Draws a value, given how lists are drawn. -/
def Value.draw (lists : ℕ → Evaluation Picture) : Value → Evaluation Picture
  | .tuple items => do return .tuple (← Value.drawItems lists items)
  | .list a => lists a
  | v => pure (.leaf v)

def Value.drawItems (lists : ℕ → Evaluation Picture) : List Value → Evaluation (List Picture)
  | [] => pure []
  | v :: vs => do
      let pic ← Value.draw lists v
      let pics ← Value.drawItems lists vs
      return pic :: pics

end

/-- Draws a list. -/
def Heap.drawList (h : Heap) : ℕ → ℕ → Evaluation Picture
  | 0, _ => Evaluation.outOfFuel
  | fuel + 1, a =>
      h.holding a fun items =>
        match items with
        | some items => do return .list a (← Value.drawItems (h.drawList fuel) items)
        | none => pure (.again a)

/-! ### Evaluations that settle -/

namespace Evaluation

variable {α β : Type} {opened : List ℕ}

/-- The stack after all that is done with it. -/
def stackAfter (marks : List Mark) (opened : List ℕ) : List ℕ :=
  marks.foldl (fun opened m => m.after opened) opened

/-- No list is entered that is open. -/
def Guarded : List ℕ → List Mark → Prop
  | _, [] => True
  | opened, m :: marks => (∀ a, m = .enter a → a ∉ opened) ∧ Guarded (m.after opened) marks

/-- **An evaluation settles**: it comes to its end with a result of some kind, enters no list that is
open, and leaves the stack as it was. -/
def Settles (e : Evaluation α) (opened : List ℕ) (result : α → Prop) : Prop :=
  ∃ x marks, e opened = some (x, marks, opened) ∧ Guarded opened marks ∧
    stackAfter marks opened = opened ∧ result x

theorem guarded_append {marks marks' : List Mark} :
    Guarded opened (marks ++ marks') ↔
      Guarded opened marks ∧ Guarded (stackAfter marks opened) marks' := by
  induction marks generalizing opened with
  | nil => simp [Guarded, stackAfter]
  | cons m marks ih =>
      rw [List.cons_append, Guarded, Guarded, ih, and_assoc]
      rfl

theorem stackAfter_append (marks marks' : List Mark) (opened : List ℕ) :
    stackAfter (marks ++ marks') opened = stackAfter marks' (stackAfter marks opened) :=
  List.foldl_append

theorem settles_pure {x : α} {result : α → Prop} (hx : result x) :
    Settles (pure x) opened result :=
  ⟨x, [], rfl, trivial, rfl, hx⟩

theorem Settles.imp {e : Evaluation α} {result result' : α → Prop}
    (he : Settles e opened result) (himp : ∀ x, result x → result' x) :
    Settles e opened result' := by
  obtain ⟨x, marks, hrun, hguarded, hstack, hx⟩ := he
  exact ⟨x, marks, hrun, hguarded, hstack, himp x hx⟩

/-- One evaluation after another. -/
theorem Settles.bind {e : Evaluation α} {k : α → Evaluation β} {result : α → Prop}
    {result' : β → Prop} (he : Settles e opened result)
    (hk : ∀ x, result x → Settles (k x) opened result') :
    Settles (e >>= k) opened result' := by
  obtain ⟨x, marks, hrun, hguarded, hstack, hx⟩ := he
  obtain ⟨y, marks', hrun', hguarded', hstack', hy⟩ := hk x hx
  refine ⟨y, marks ++ marks', ?_, guarded_append.2 ⟨hguarded, ?_⟩, ?_, hy⟩
  · simp only [Bind.bind, hrun, hrun', Option.bind_some]
  · rwa [hstack]
  · rw [stackAfter_append, hstack, hstack']

/-- **A list that is held is left again**, and meanwhile the stack is what it was with this list. -/
theorem settles_holding {h : Heap} {a : ℕ} {k : Option (List Value) → Evaluation α}
    {result : α → Prop}
    (hentered : a ∉ opened → Settles (k (some (h.items a).toList)) (a :: opened) result)
    (hopen : a ∈ opened → Settles (k none) opened result) :
    Settles (h.holding a k) opened result := by
  by_cases ha : a ∈ opened
  · obtain ⟨x, marks, hrun, hguarded, hstack, hx⟩ := hopen ha
    refine ⟨x, marks, ?_, hguarded, hstack, hx⟩
    simp [Heap.holding, enter, Bind.bind, ha, hrun]
  · obtain ⟨x, marks, hrun, hguarded, hstack, hx⟩ := hentered ha
    refine ⟨x, .enter a :: (marks ++ [.leave a]), ?_, ⟨?_, guarded_append.2 ⟨hguarded, ?_⟩⟩, ?_, hx⟩
    · simp [Heap.holding, enter, leave, Bind.bind, pure, ha, hrun]
    · rintro _ ⟨⟩
      exact ha
    · exact ⟨nofun, trivial⟩
    · change stackAfter (marks ++ [.leave a]) (a :: opened) = opened
      rw [stackAfter_append, hstack]
      exact List.erase_cons_head ..

end Evaluation

open Evaluation

/-! ### Comparing -/

section Compare

variable {lists : ℕ → ℕ → Evaluation Bool} {lists' : ℕ → ℕ → Bool} {opened : List ℕ}

theorem Value.settles_compareItems {vs ws : List Value}
    (hitems : ∀ v ∈ vs, ∀ w, Settles (Value.compare lists v w) opened (· = v.same lists' w)) :
    Settles (Value.compareItems lists vs ws) opened (· = Value.sameItems lists' vs ws) := by
  induction vs generalizing ws with
  | nil => cases ws <;> exact settles_pure rfl
  | cons v vs ih =>
      cases ws with
      | nil => exact settles_pure rfl
      | cons w ws =>
          unfold Value.compareItems Value.sameItems
          refine (hitems v (List.mem_cons_self ..) w).bind ?_
          rintro _ rfl
          cases v.same lists' w with
          | false => exact settles_pure rfl
          | true => exact ih fun v hv => hitems v (List.mem_cons_of_mem _ hv)

/-- **Values are compared as their lists are.** -/
theorem Value.settles_compare
    (hlists : ∀ a b, Settles (lists a b) opened (· = lists' a b)) (v w : Value) :
    Settles (v.compare lists w) opened (· = v.same lists' w) := by
  induction v using Value.induction_items generalizing w with
  | leaf v hv =>
      cases v with
      | tuple items => exact hv.elim
      | list a => exact hv.elim
      | _ => cases w <;> exact settles_pure rfl
  | list a =>
      cases w with
      | list b => exact hlists a b
      | _ => exact settles_pure rfl
  | tuple as ih =>
      cases w with
      | tuple bs =>
          unfold Value.compare Value.same
          by_cases hlength : as.length = bs.length
          · rw [if_pos hlength, beq_iff_eq.2 hlength, Bool.true_and]
            exact Value.settles_compareItems ih
          · rw [if_neg hlength, beq_false_of_ne hlength, Bool.false_and]
            exact settles_pure rfl
      | _ => exact settles_pure rfl

end Compare

namespace Heap

variable {h : Heap} {v w : Value} {opened : List ℕ}

/-- Of the open lists it matters only which they are. -/
theorem sameList_congr {levels : ℕ} {opened opened' : List ℕ}
    (hopen : ∀ c, c ∈ opened ↔ c ∈ opened') :
    h.sameList levels opened = h.sameList levels opened' := by
  induction levels generalizing opened opened' with
  | zero => rfl
  | succ levels ih =>
      funext a b
      have hbelow : h.sameList levels (a :: b :: opened) = h.sameList levels (a :: b :: opened') :=
        ih fun c => by simp [hopen]
      have hcontains : ∀ c, opened.contains c = opened'.contains c := fun c => by
        rw [Bool.eq_iff_iff, List.contains_iff_mem, List.contains_iff_mem, hopen]
      rw [sameList, sameList, hbelow, hcontains, hcontains]

/-- **Lists are compared as equality says**, with fuel for every list that can be opened. -/
theorem settles_compareLists {fuel : ℕ} (hf : h.unopened opened < fuel) (a b : ℕ) :
    Settles (h.compareLists fuel a b) opened (· = h.sameList fuel opened a b) := by
  induction fuel generalizing opened a b with
  | zero => cases hf
  | succ fuel ih =>
      unfold compareLists sameList
      by_cases hab : a = b
      · rw [if_pos hab]
        exact settles_pure (by simp [hab])
      rw [if_neg hab, beq_false_of_ne hab, Bool.false_or]
      refine settles_holding (fun ha => ?entered) fun ha => ?openLeft
      case openLeft =>
        have hfalse : false = (!opened.contains a && !opened.contains b &&
            (h.items a).size == (h.items b).size && Value.sameItems
              (h.sameList fuel (a :: b :: opened)) (h.items a).toList (h.items b).toList) := by
          simp [ha]
        exact settles_holding (fun _ => settles_pure hfalse) fun _ => settles_pure hfalse
      refine settles_holding (fun hb => ?both) fun hb => ?openRight
      case openRight =>
        have hb : b ∈ opened := (List.mem_cons.1 hb).resolve_left (Ne.symm hab)
        exact settles_pure (by simp [hb])
      have hb : b ∉ opened := fun hmem => hb (List.mem_cons_of_mem a hmem)
      have hopen : ∀ c, c ∈ b :: a :: opened ↔ c ∈ a :: b :: opened := fun c => by
        simp only [List.mem_cons]
        tauto
      simp only [List.contains_eq_mem, ha, hb, decide_false, Bool.not_false, Bool.true_and,
        ← Array.length_toList]
      by_cases hlength : (h.items a).toList.length = (h.items b).toList.length
      · rw [if_pos hlength, beq_iff_eq.2 hlength, Bool.true_and, ← sameList_congr hopen]
        rcases Nat.lt_or_ge a h.lists.size with hlt | hle
        · -- one list fewer can be opened below
          have hfewer := unopened_cons_lt hlt ha
          have hle := h.unopened_cons_le b (a :: opened)
          exact Value.settles_compareItems fun v _ w =>
            Value.settles_compare (fun a' b' => ih (by omega) a' b') v w
        · -- there are no items
          rw [items_of_le hle] at hlength ⊢
          rw [List.length_eq_zero_iff.1 hlength.symm]
          exact settles_pure rfl
      · rw [if_neg hlength, beq_false_of_ne hlength, Bool.false_and]
        exact settles_pure rfl

/-! ### Drawing -/

/-- **At the position `p` the value comes back to a list**: one that was open before, or that stands
on the way. -/
def Recurs (h : Heap) (opened : List ℕ) (v : Value) (p : List ℕ) : Prop :=
  ∃ a, h.valueAt? v p = some (.list a) ∧ (a ∈ opened ∨ h.Passes v p a)

/-- **A picture shows a value**: it draws what stands at each position, up to where the value comes
back to a list, and there and only there it leaves the list out. -/
structure Depicts (h : Heap) (opened : List ℕ) (v : Value) (pic : Picture) : Prop where
  faithful : ∀ p q, pic.at? p = some q →
    h.valueAt? v p = some q.value ∧ ((∃ a, q = .again a) ↔ h.Recurs opened v p)
  complete : ∀ p x, h.valueAt? v p = some x →
    (∀ q, q <+: p → q ≠ p → ¬h.Recurs opened v q) → ∃ q, pic.at? p = some q

theorem recurs_nil : h.Recurs opened v [] ↔ ∃ a ∈ opened, v = .list a := by
  unfold Recurs
  simp only [valueAt?_nil, Option.some.injEq, passes_nil, or_false]
  exact exists_congr fun a => and_comm

/-- Below a list, it counts as open. -/
theorem recurs_list_cons {a i : ℕ} {p : List ℕ} (hw : (h.items a).toList[i]? = some w) :
    h.Recurs opened (.list a) (i :: p) ↔ h.Recurs (a :: opened) w p := by
  unfold Recurs
  rw [valueAt?_cons_of_some (v := .list a) hw]
  refine exists_congr fun c => and_congr_right fun _ => ?_
  have hcontents : (h.contents (.list a))[i]? = some w := hw
  rw [passes_cons, hcontents, List.mem_cons]
  simp only [Value.list.injEq, Option.some.injEq, exists_eq_left', eq_comm (a := c)]
  tauto

theorem recurs_tuple_cons {vs : List Value} {i : ℕ} {p : List ℕ} (hw : vs[i]? = some w) :
    h.Recurs opened (.tuple vs) (i :: p) ↔ h.Recurs opened w p := by
  unfold Recurs
  rw [valueAt?_cons_of_some (v := .tuple vs) hw]
  refine exists_congr fun c => and_congr_right fun _ => ?_
  have hcontents : (h.contents (.tuple vs))[i]? = some w := hw
  rw [passes_cons, hcontents]
  simp

/-- A list that is open is left out. -/
theorem depicts_again {a : ℕ} (ha : a ∈ opened) : h.Depicts opened (.list a) (.again a) where
  faithful p q hq := by
    cases p with
    | nil =>
        obtain rfl := Option.some.inj hq
        exact ⟨rfl, iff_of_true ⟨a, rfl⟩ (recurs_nil.2 ⟨a, ha, rfl⟩)⟩
    | cons i p => cases hq
  complete p x hx hbefore := by
    cases p with
    | nil => exact ⟨_, rfl⟩
    | cons i p =>
        exact absurd (recurs_nil.2 ⟨a, ha, rfl⟩) (hbefore [] List.nil_prefix nofun)

/-- A picture shows a value that is drawn if the pictures in it show the items, while the lists of
`opened'` are open. -/
theorem depicts_of_items (opened' : List ℕ) {pic : Picture} (hvalue : pic.value = v)
    (hagain : ¬∃ a, pic = .again a) (hroot : ¬h.Recurs opened v [])
    (hbelow : ∀ i p w, (h.contents v)[i]? = some w →
      (h.Recurs opened v (i :: p) ↔ h.Recurs opened' w p))
    (hitems : List.Forall₂ (h.Depicts opened') (h.contents v) pic.contents) :
    h.Depicts opened v pic := by
  obtain ⟨hlength, hget⟩ := List.forall₂_iff_get.1 hitems
  have hitem : ∀ (i : ℕ) w q, (h.contents v)[i]? = some w → pic.contents[i]? = some q →
      h.Depicts opened' w q := by
    intro i w q hw hq
    obtain ⟨hi, rfl⟩ := List.getElem?_eq_some_iff.1 hw
    obtain ⟨hi', rfl⟩ := List.getElem?_eq_some_iff.1 hq
    exact hget i hi hi'
  constructor
  · intro p q hq
    cases p with
    | nil =>
        obtain rfl := Option.some.inj hq
        exact ⟨congrArg some hvalue.symm, iff_of_false hagain hroot⟩
    | cons i p =>
        obtain ⟨r, hr, hq⟩ := Option.bind_eq_some_iff.1 hq
        obtain ⟨hi, -⟩ := List.getElem?_eq_some_iff.1 hr
        have hw := List.getElem?_eq_getElem (hlength ▸ hi)
        obtain ⟨hvalue, hiff⟩ := (hitem i _ r hw hr).faithful p q hq
        rw [valueAt?_cons_of_some hw, hbelow i p _ hw]
        exact ⟨hvalue, hiff⟩
  · intro p x hx hbefore
    cases p with
    | nil => exact ⟨pic, rfl⟩
    | cons i p =>
        obtain ⟨w, hw, hx⟩ := valueAt?_cons_eq_some.1 hx
        obtain ⟨hi, -⟩ := List.getElem?_eq_some_iff.1 hw
        have hr := List.getElem?_eq_getElem (hlength ▸ hi)
        obtain ⟨q, hq⟩ := (hitem i w _ hw hr).complete p x hx fun q hprefix hne hrecurs =>
          hbefore (i :: q) (List.cons_prefix_cons.2 ⟨rfl, hprefix⟩)
            (fun heq => hne (List.cons.inj heq).2) ((hbelow i q w hw).2 hrecurs)
        exact ⟨q, Option.bind_eq_some_iff.2 ⟨_, hr, hq⟩⟩

theorem depicts_leaf (hv : v.IsLeaf) : h.Depicts opened v (.leaf v) := by
  have hnone : h.contents v = [] := contents_of_leaf hv
  refine depicts_of_items opened rfl nofun ?_ ?_ ?_
  · rw [recurs_nil]
    rintro ⟨a, -, rfl⟩
    exact hv
  · intro i p w hw
    rw [hnone] at hw
    cases hw
  · rw [hnone]
    exact .nil

theorem values_eq_of_depicts {vs : List Value} {pics : List Picture}
    (hitems : List.Forall₂ (h.Depicts opened) vs pics) : Picture.values pics = vs := by
  induction hitems with
  | nil => rfl
  | cons hitem _ ih =>
      rw [Picture.values, ih, ← Option.some.inj (hitem.faithful [] _ rfl).1]

theorem depicts_tuple {vs : List Value} {pics : List Picture}
    (hitems : List.Forall₂ (h.Depicts opened) vs pics) :
    h.Depicts opened (.tuple vs) (.tuple pics) := by
  refine depicts_of_items opened (congrArg Value.tuple (values_eq_of_depicts hitems)) nofun ?_
    (fun i p w hw => recurs_tuple_cons hw) hitems
  rw [recurs_nil]
  exact nofun

/-- The items of a list are drawn while it is open. -/
theorem depicts_list {a : ℕ} {pics : List Picture} (ha : a ∉ opened)
    (hitems : List.Forall₂ (h.Depicts (a :: opened)) (h.items a).toList pics) :
    h.Depicts opened (.list a) (.list a pics) := by
  refine depicts_of_items (a :: opened) rfl nofun ?_ (fun i p w hw => recurs_list_cons hw) hitems
  rw [recurs_nil]
  rintro ⟨b, hb, ⟨⟩⟩
  exact ha hb

end Heap

theorem Value.trailingComma_eq {α β : Type} {r : α → β → Prop} {as : List α} {bs : List β}
    (hitems : List.Forall₂ r as bs) : trailingComma bs = trailingComma as := by
  rcases hitems with _ | ⟨_, _ | _⟩ <;> rfl

theorem Value.render_of_leaf (h : Heap) {v : Value} (lists lists' : ℕ → String) (hv : v.IsLeaf) :
    v.render h lists = v.render h lists' := by
  cases v with
  | tuple items => exact hv.elim
  | list a => exact hv.elim
  | bool b => cases b <;> rfl
  | _ => rfl

section Draw

variable {h : Heap} {lists : ℕ → Evaluation Picture} {lists' : ℕ → String} {opened : List ℕ}

theorem Value.settles_drawItems {vs : List Value}
    (hitems : ∀ v ∈ vs, Settles (Value.draw lists v) opened fun pic =>
      pic.text h = v.render h lists' ∧ h.Depicts opened v pic) :
    Settles (Value.drawItems lists vs) opened fun pics =>
      Picture.texts h pics = Value.renderItems h lists' vs ∧
        List.Forall₂ (h.Depicts opened) vs pics := by
  induction vs with
  | nil => exact settles_pure ⟨rfl, .nil⟩
  | cons v vs ih =>
      unfold Value.drawItems
      refine (hitems v (List.mem_cons_self ..)).bind ?_
      rintro pic ⟨htext, hitem⟩
      refine (ih fun v hv => hitems v (List.mem_cons_of_mem _ hv)).bind ?_
      rintro pics ⟨htexts, hrest⟩
      refine settles_pure ⟨?_, .cons hitem hrest⟩
      rw [Picture.texts, Value.renderItems_cons, htext, htexts]

/-- **Values are drawn as their lists are.** -/
theorem Value.settles_draw
    (hlists : ∀ a, Settles (lists a) opened fun pic =>
      pic.text h = lists' a ∧ h.Depicts opened (.list a) pic) (v : Value) :
    Settles (v.draw lists) opened fun pic =>
      pic.text h = v.render h lists' ∧ h.Depicts opened v pic := by
  induction v using Value.induction_items with
  | leaf v hv =>
      have hdraw : v.draw lists = pure (.leaf v) := by
        cases v with
        | tuple items => exact hv.elim
        | list a => exact hv.elim
        | _ => rfl
      rw [hdraw]
      exact settles_pure ⟨Value.render_of_leaf h _ _ hv, Heap.depicts_leaf hv⟩
  | list a => exact hlists a
  | tuple vs ih =>
      unfold Value.draw
      refine (Value.settles_drawItems ih).bind ?_
      rintro pics ⟨htexts, hitems⟩
      refine settles_pure ⟨?_, Heap.depicts_tuple hitems⟩
      rw [Picture.text, Value.render_tuple, htexts, Value.trailingComma_eq hitems]

end Draw

namespace Heap

variable {h : Heap} {opened : List ℕ}

/-- **Lists are drawn as they are shown**, with fuel for every list that can be opened. -/
theorem settles_drawList {fuel : ℕ} (hf : h.unopened opened < fuel) (a : ℕ) :
    Settles (h.drawList fuel a) opened fun pic =>
      pic.text h = h.renderList fuel opened a ∧ h.Depicts opened (.list a) pic := by
  induction fuel generalizing opened a with
  | zero => cases hf
  | succ fuel ih =>
      unfold drawList renderList
      refine settles_holding (fun ha => ?entered) fun ha => ?again
      case again =>
        rw [if_pos (List.contains_iff_mem.2 ha)]
        exact settles_pure ⟨rfl, depicts_again ha⟩
      have hcontains : ¬opened.contains a = true := fun hmem => ha (List.contains_iff_mem.1 hmem)
      rw [if_neg hcontains, ← Value.renderItems_eq_map]
      rcases Nat.lt_or_ge a h.lists.size with hlt | hle
      · -- one list fewer can be opened below
        have hfewer := unopened_cons_lt hlt ha
        have hitems : ∀ v ∈ (h.items a).toList,
            Settles (v.draw (h.drawList fuel)) (a :: opened) fun pic =>
              pic.text h = v.render h (h.renderList fuel (a :: opened)) ∧
                h.Depicts (a :: opened) v pic := fun v _ =>
          Value.settles_draw (fun b => ih (by omega) b) v
        refine (Value.settles_drawItems hitems).bind ?_
        rintro pics ⟨htexts, hitems⟩
        refine settles_pure ⟨?_, depicts_list ha hitems⟩
        rw [Picture.text, htexts]
      · -- there are no items
        have hnone : (h.items a).toList = [] := by rw [items_of_le hle]
        rw [hnone]
        refine settles_pure ⟨rfl, depicts_list ha ?_⟩
        rw [hnone]
        exact .nil

/-- A value as it is shown while the lists of `opened` are open. -/
def shownWhile (h : Heap) (opened : List ℕ) (v : Value) : String :=
  v.render h (h.renderList (h.lists.size + 1) opened)

theorem shownWhile_nil (h : Heap) (v : Value) : h.shownWhile [] v = h.shown v := rfl

/-- **Comparing and showing are safe**, whatever lies within itself and whatever is open already.
With fuel for every list that can be opened they come to their end, enter no list that is open and
leave the stack as it was.  Their results are equality and the shown text, of a picture that leaves a
list out exactly where the value comes back to it.  A value equals itself, and it does not matter
which value stands on which side. -/
theorem cyclic_safe (h : Heap) (v w : Value) :
    (∀ opened, ∀ fuel > h.unopened opened,
      Settles (v.compare (h.compareLists fuel) w) opened (· = h.equalWhile opened v w) ∧
        Settles (v.draw (h.drawList fuel)) opened fun pic =>
          pic.text h = h.shownWhile opened v ∧ h.Depicts opened v pic) ∧
      (∀ opened, h.equalWhile opened v v = true ∧
        h.equalWhile opened v w = h.equalWhile opened w v) ∧
      h.equalWhile [] v w = h.equal v w ∧ h.shownWhile [] v = h.shown v := by
  refine ⟨fun opened fuel hf => ?_, fun opened => ⟨?_, ?_⟩, h.equalWhile_nil v w,
    h.shownWhile_nil v⟩
  · have hle : h.unopened opened < h.lists.size + 1 := by
      have hcard := h.unopened_le opened
      omega
    constructor
    · rw [equalWhile, h.sameList_levels hle hf]
      exact Value.settles_compare (fun a b => settles_compareLists hf a b) v w
    · rw [shownWhile, h.renderList_levels hle hf]
      exact Value.settles_draw (fun a => settles_drawList hf a) v
  · exact equalWhile_iff.2 ⟨rfl, h.not_cutOff_self opened v⟩
  · rw [Bool.eq_iff_iff, equalWhile_iff, equalWhile_iff, cutOff_comm, eq_comm]

/-- Two lists that hold each other and nothing else. -/
def entangled : Heap := { empty with lists := #[#[.list 1], #[.list 0]] }

/-- They are not equal, and in each of them the other one is looked into. -/
theorem entangled_safe :
    Settles (Value.compare (entangled.compareLists 3) (.list 0) (.list 1)) [] (· = false) ∧
      Settles (Value.draw (entangled.drawList 3) (.list 0)) [] fun pic =>
        pic.text entangled = "[[[...]]]" ∧ entangled.Depicts [] (.list 0) pic := by
  have hfuel : 3 > entangled.unopened [] := by
    rw [unopened_nil]
    decide
  obtain ⟨hcompare, hdraw⟩ := (cyclic_safe entangled (.list 0) (.list 1)).1 [] 3 hfuel
  exact ⟨hcompare.imp fun _ hx => hx.trans rfl, hdraw.imp fun _ hx => ⟨hx.1.trans rfl, hx.2⟩⟩

end Heap

end Tracepoint
