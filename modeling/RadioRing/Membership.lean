import RadioRing.AddressMap
/-!
# Membership — who takes turns

A `Membership` records, for every address of a fixed roster, whether its node takes turns.  The
turn order follows from the addresses alone: `successor` is **the next eligible address above, or
failing that the lowest one**, so nodes with equal tables agree on who comes next.
-/

namespace RadioRing

/-- Whether each address of the roster is eligible for a turn. -/
abbrev Membership := AddressMap Bool

namespace Membership

/-- Nobody of the roster is eligible. -/
def ofRoster (roster : List Address) : Membership := AddressMap.ofKeys roster false

/-- The flag of `a`; an address outside the roster is never eligible. -/
def isEligible (m : Membership) (a : Address) : Bool := (m.get? a).getD false

/-- The table with the flag of `a` set, if `a` is in the roster. -/
def mark (m : Membership) (a : Address) (eligible : Bool) : Membership :=
  m.map fun x flag => if x = a then eligible else flag

/-- Whether setting the flag of `a` would change the table. -/
def isNews (m : Membership) (a : Address) (eligible : Bool) : Bool :=
  m.contains a && m.isEligible a ≠ eligible

/-- Every eligible address, ascending. -/
def eligible (m : Membership) : List Address :=
  m.entries.filterMap fun e => if e.2 then some e.1 else none

/-- The eligible address that follows `a` around the ring, never `a` itself. -/
def successor (m : Membership) (a : Address) : Option Address :=
  match m.eligible.find? fun x => a < x with
  | some next => some next
  | none => m.eligible.find? fun x => x < a

/-- Whether some address outside `excluded` is eligible. -/
def anyBesides (m : Membership) (excluded : List Address) : Bool :=
  m.eligible.any fun x => x ∉ excluded

/-- The eligible addresses and some more, ascending and each of them once. -/
def eligibleWith (m : Membership) (more : List Address) : List Address :=
  (AddressMap.ofKeys (m.eligible ++ more) ()).keys

@[simp] theorem keys_mark (m : Membership) (a : Address) (eligible : Bool) :
    (m.mark a eligible).keys = m.keys :=
  AddressMap.keys_map m _

end Membership

end RadioRing
