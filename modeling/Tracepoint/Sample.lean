/-
**Sample programs.**

A few small programs to watch.  Each of them is a function without parameters; some call further
functions, which are loaded before it.  Their line numbers are laid out as if all functions stood
in one source text.

Main definitions:

* `Tracepoint.Loader` — loading code units into a heap;
* `Tracepoint.Sample`, `Tracepoint.Sample.all` — the programs, with a name and a summary.
-/

import Tracepoint.Code.Draft
import Tracepoint.Heap

set_option relaxedAutoImplicit false
set_option autoImplicit false

namespace Tracepoint

/-! ### Loading -/

/-- Loading code units into a heap, unless one of them is refused. -/
abbrev Loader := StateT Heap (Except BuildError)

/-- Loads one code unit and gives the function of it. -/
def Loader.load (source : Source) : Loader Value := do
  let code ← source.build
  modifyGet fun h => let (h, f) := h.addCode code; (f, h)

/-- A program with a name. -/
structure Sample where
  name : String
  summary : String
  load : Loader Value

namespace Sample

/-! ### Phrases -/

def returnNull : List Directive :=
  [.load .null, .emit .ret]

/-- Stores an integer into the first local, on a line of its own. -/
def store (line : Nat) (n : Int64) : List Directive :=
  [.line line, .load (.int n), .emit (.storeLocal 0)]

/-- Calls a function without arguments, on a line of its own, and drops its value. -/
def callStatement (line : Nat) (f : Value) : List Directive :=
  [.line line, .load f, .emit (.call 0), .emit .pop]

/-- Loops over the value on the stack and returns.  The labels are the first two. -/
def drainLoop (header body : Nat) : List Directive :=
  let top : Label := ⟨0⟩
  let exit : Label := ⟨1⟩
  [.label, .label, .emit .getIter, .bind top, .emit (.forIter exit), .emit (.storeLocal 0),
    .line body, .emit .nop, .emit (.jump top), .bind exit, .line header] ++ returnNull

/-- Runs statements that may fail, with a handler for one class of exceptions.  The statements
begin on `line`, the handler on `handlerLine`. -/
def tryExcept (line : Nat) (statements : List Directive) (handlerLine : Nat)
    (kind : ExceptionClass) : List Directive :=
  let start : Label := ⟨0⟩
  let stop : Label := ⟨1⟩
  let handler : Label := ⟨2⟩
  let reraise : Label := ⟨3⟩
  [.label, .label, .label, .label, .line line, .emit .nop, .bind start] ++ statements ++
    [.emit .pop, .bind stop] ++ returnNull ++
    [.bind handler, .line handlerLine, .emit (.matchException kind),
      .emit (.popJumpIfFalse reraise), .line (handlerLine + 1), .emit .pop] ++ returnNull ++
    [.bind reraise, .line handlerLine, .emit .raise, .handler ⟨start, stop, handler, 0⟩]

/-! ### Functions -/

def justPass : Loader Value :=
  .load { name := "just_pass", firstLine := 154, directives := .line 155 :: returnNull }

def justRaise : Loader Value :=
  .load {
    name := "just_raise", firstLine := 163
    directives := [.line 164, .load (.exception ⟨.exception, ""⟩), .emit .raise] }

def justCall : Loader Value :=
  .load {
    name := "just_call", firstLine := 173
    directives := [.line 174, .load (.native .len), .emit (.buildList 0), .emit (.call 1),
      .emit .pop] ++ returnNull }

def caught : Loader Value :=
  .load {
    name := "caught", firstLine := 184
    directives := tryExcept 185 [.line 186, .load (.int 1), .load (.int 0),
      .emit (.binary .floorDiv)] 187 .exception }

def nestedCall : Loader Value := do
  let callee ← justPass
  .load {
    name := "nested_call", firstLine := 199
    directives := callStatement 200 callee ++ returnNull }

def f1 : Loader Value :=
  .load { name := "f1", firstLine := 13, directives := .line 14 :: returnNull }

def f2 : Loader Value :=
  .load {
    name := "f2", firstLine := 16
    directives := [.line 17, .load (.native .len), .emit (.buildList 0), .emit (.call 1),
      .emit .pop, .line 18, .load (.native .sizeof), .load (.int 0), .emit (.call 1),
      .emit .pop] ++ returnNull }

def floop : Loader Value :=
  .load {
    name := "floop", firstLine := 20
    directives := [.line 21, .load (.tuple [.int 0, .int 1])] ++ drainLoop 21 22 }

def yieldsTwice : Loader Value :=
  .load {
    name := "gen", firstLine := 24, isGenerator := true
    directives := [.line 25, .load .null, .emit .yield, .line 26, .load .null, .emit .yield] ++
      returnNull }

def g1 : Loader Value := do
  let generator ← yieldsTwice
  .load {
    name := "g1", firstLine := 28
    directives := [.line 29, .load generator, .emit (.call 0)] ++ drainLoop 29 30 }

def linear : Loader Value :=
  .load {
    name := "linear", firstLine := 580
    directives := store 581 1 ++ store 582 2 ++ store 583 3 ++ store 584 4 ++ store 585 5 ++
      returnNull }

def branch : Loader Value :=
  let otherwise : Label := ⟨0⟩
  let after : Label := ⟨1⟩
  .load {
    name := "branch", firstLine := 590
    directives := [.label, .label, .line 591, .load (.native .len), .load (.str "true"),
      .emit (.call 1), .load (.int 4), .emit (.binary .eq), .emit (.popJumpIfFalse otherwise)] ++
      store 592 2 ++ store 593 3 ++ [.emit (.jump after), .bind otherwise] ++ store 595 5 ++
      [.bind after] ++ store 596 6 ++ returnNull }

def tryExceptRaising : Loader Value :=
  let start : Label := ⟨0⟩
  let stop : Label := ⟨1⟩
  .load {
    name := "try_except", firstLine := 600
    directives := [.label, .label, .line 601, .emit .nop, .bind start] ++ store 602 2 ++
      [.line 603, .load (.exception ⟨.keyError, ""⟩), .emit .raise, .bind stop, .line 604,
        .emit .pop] ++ store 605 5 ++ store 606 6 ++ returnNull ++
      [.handler ⟨start, stop, stop, 0⟩] }

def tryNoRaise : Loader Value :=
  let start : Label := ⟨0⟩
  let stop : Label := ⟨1⟩
  let after : Label := ⟨2⟩
  .load {
    name := "try_no_raise", firstLine := 610
    directives := [.label, .label, .label, .line 611, .emit .nop, .bind start] ++ store 612 2 ++
      store 613 3 ++ [.emit (.jump after), .bind stop, .line 614, .emit .pop] ++ store 615 5 ++
      [.bind after] ++ store 616 6 ++ returnNull ++ [.handler ⟨start, stop, stop, 0⟩] }

def loopBranch : Loader Value :=
  let top : Label := ⟨0⟩
  let otherwise : Label := ⟨1⟩
  let exit : Label := ⟨2⟩
  .load {
    name := "loop_branch", firstLine := 620
    directives := [.label, .label, .label] ++ store 621 1 ++
      [.line 622, .load (.native .range), .load (.int 2), .emit (.call 1), .emit .getIter,
        .bind top, .emit (.forIter exit), .emit (.storeLocal 1), .line 623, .emit (.loadLocal 1),
        .emit (.popJumpIfFalse otherwise)] ++ store 624 4 ++
      [.emit (.jump top), .bind otherwise] ++ store 626 6 ++
      [.emit (.jump top), .bind exit, .line 622] ++ returnNull }

def returningGenerator : Loader Value :=
  .load {
    name := "gen", firstLine := 645, isGenerator := true
    directives := [.line 646, .load (.int 1), .emit .yield, .line 647, .load (.int 2),
      .emit .ret] }

def implicitStopIteration : Loader Value := do
  let generator ← returningGenerator
  .load {
    name := "implicit_stop_iteration", firstLine := 650
    directives := [.line 651, .load generator, .emit (.call 0)] ++ drainLoop 651 652 }

def nativeCall : Loader Value :=
  .load {
    name := "c_call", firstLine := 660
    directives := store 661 1 ++ [.line 662, .load (.native .append), .emit (.buildList 0),
      .load (.int 2), .emit (.call 2), .emit .pop] ++ store 663 3 ++ returnNull }

def nativeRaise : Loader Value :=
  .load {
    name := "c_raise", firstLine := 670
    directives := tryExcept 671 [.line 672, .load (.native .len), .load (.int 1),
      .emit (.call 1)] 673 .typeError }

/-- A function that calls its second argument with a smaller first one, down to zero. -/
def countdownBody : Loader Value :=
  let base : Label := ⟨0⟩
  .load {
    name := "countdown", firstLine := 700, params := 2
    directives := [.label, .line 701, .load (.int 0), .emit (.loadLocal 0), .emit (.binary .lt),
      .emit (.popJumpIfFalse base), .line 702, .emit (.loadLocal 1), .emit (.loadLocal 0),
      .load (.int 1), .emit (.binary .sub), .emit (.loadLocal 1), .emit (.call 2), .emit .ret,
      .bind base, .line 703, .load (.int 0), .emit .ret] }

def countdown : Loader Value := do
  let body ← countdownBody
  .load {
    name := "run_countdown", firstLine := 710
    directives := [.line 711, .load body, .load (.int 20), .load body, .emit (.call 2),
      .emit .ret] }

/-- A function that calls most of the others and takes an exception of one of them. -/
def mixed : Loader Value := do
  let start : Label := ⟨0⟩
  let stop : Label := ⟨1⟩
  let after : Label := ⟨2⟩
  let first := callStatement 681 (← nestedCall)
  let second := callStatement 682 (← caught)
  let third := callStatement 683 (← g1)
  let fourth := callStatement 684 (← justCall)
  let fifth := callStatement 685 (← nativeRaise)
  let last := callStatement 687 (← justRaise)
  .load {
    name := "mixed", firstLine := 680
    directives := [.label, .label, .label] ++ first ++ second ++ third ++ fourth ++ fifth ++
      [.line 686, .emit .nop, .bind start] ++ last ++
      [.emit (.jump after), .bind stop, .line 688, .emit .pop, .bind after, .line 689] ++
      returnNull ++ [.handler ⟨start, stop, stop, 0⟩] }

/-! ### The programs -/

def all : List Sample :=
  [⟨"just_pass", "returns immediately", justPass⟩,
    ⟨"just_raise", "raises Exception and does not catch it", justRaise⟩,
    ⟨"just_call", "calls the native len([])", justCall⟩,
    ⟨"caught", "divides by zero inside try/except Exception", caught⟩,
    ⟨"nested_call", "calls just_pass", nestedCall⟩,
    ⟨"f1", "pass", f1⟩,
    ⟨"f2", "calls len([]) and sizeof(0)", f2⟩,
    ⟨"floop", "loops over a two-item tuple", floop⟩,
    ⟨"g1", "loops over a generator that yields twice", g1⟩,
    ⟨"linear", "five straight-line statements", linear⟩,
    ⟨"branch", "if/else on len('true') == 4", branch⟩,
    ⟨"try_except", "raises KeyError inside try and handles it", tryExceptRaising⟩,
    ⟨"try_no_raise", "try block that completes normally", tryNoRaise⟩,
    ⟨"loop_branch", "for a in range(2) with an if/else body", loopBranch⟩,
    ⟨"implicit_stop_iteration", "loops over a generator that returns a value",
      implicitStopIteration⟩,
    ⟨"c_call", "calls the native append([], 2)", nativeCall⟩,
    ⟨"c_raise", "len(1) raises TypeError, caught by the caller", nativeRaise⟩,
    ⟨"countdown", "recurses twenty calls deep", countdown⟩,
    ⟨"mixed", "calls, generators, native calls and exceptions together", mixed⟩]

def find? (name : String) : Option Sample :=
  all.find? fun s => s.name = name

end Sample

end Tracepoint
