/-
**Sites: events at places.**

A site is an event at an offset of a code unit.  Sites are ordered by their code units first, by
their offsets next and by their events last, so that sets of them can be searched; two sets with
the same sites are equal.

Main definitions:

* `Tracepoint.Site` — the sites;
* `Tracepoint.Site.compare` — their order;
* `Tracepoint.SiteSet` — sets of sites.
-/

import Std.Data.ExtTreeSet
import Tracepoint.Code.Identity
import Tracepoint.Event

set_option relaxedAutoImplicit false
set_option autoImplicit false

namespace Tracepoint

/-- An event at a place in a code unit. -/
structure Site where
  event : Event
  code : CodeId
  offset : Nat
  deriving DecidableEq, Inhabited

/-! ### The order of sites -/

/-- The order of sites: by code unit, by offset, by event. -/
def Site.compare : Site → Site → Ordering :=
  compareLex (compareOn Site.code)
    (compareLex (compareOn Site.offset) (compareOn fun s => s.event.index))

instance : Std.TransCmp Site.compare :=
  inferInstanceAs (Std.TransCmp (compareLex _ (compareLex _ _)))

/-- Sites that are neither before nor behind each other are equal. -/
instance : Std.LawfulEqCmp Site.compare where
  eq_of_compare {s t} h := by
    obtain ⟨e, c, o⟩ := s
    obtain ⟨f, d, p⟩ := t
    simp only [Site.compare, compareLex, compareOn, Ordering.then_eq_eq,
      Std.LawfulEqOrd.compare_eq_iff_eq] at h
    obtain ⟨hc, ho, he⟩ := h
    rw [hc, ho, Event.index_injective he]

/-! ### Sets of sites -/

/-- A set of sites. -/
abbrev SiteSet := Std.ExtTreeSet Site Site.compare

/-- A set has the site that was put into it and those it had before. -/
theorem SiteSet.mem_insert {sites : SiteSet} {s t : Site} :
    t ∈ sites.insert s ↔ s = t ∨ t ∈ sites := by
  rw [Std.ExtTreeSet.mem_insert, Std.LawfulEqCmp.compare_eq_iff_eq]

/-- To put a site into a set that has it changes nothing. -/
theorem SiteSet.insert_of_mem {sites : SiteSet} {site : Site} (h : site ∈ sites) :
    sites.insert site = sites := by
  refine Std.ExtTreeSet.ext_mem fun x => ?_
  rw [SiteSet.mem_insert]
  constructor
  · rintro (rfl | hx)
    · exact h
    · exact hx
  · exact Or.inr

end Tracepoint
