import RadioRing.Medium.Basic
/-!
# Medium/Rules — rejecting copies by what they are

A `DropRule` describes copies by sender, destination, receiver and first byte, and may be good for a
limited number of copies.  A list of rules rejects a copy if **one of them describes it and is not
used up**; the first such rule is the one that is used.
-/

namespace RadioRing

/-- A description of copies to reject; what is not given fits every copy. -/
structure DropRule where
  sender : Option Address := none
  dest : Option Address := none
  receiver : Option Address := none
  firstByte : Option UInt8 := none
  /-- How many copies it may still reject. -/
  remaining : Option Nat := none
deriving DecidableEq, Inhabited, Repr

namespace DropRule

/-- Whether a value is the one that is asked for, if one is. -/
def fits {β : Type} [DecidableEq β] (wanted : Option β) (x : β) : Bool :=
  match wanted with
  | some w => w = x
  | none => true

/-- Whether a copy is of the kind that the rule describes. -/
def describes (r : DropRule) (e : Envelope) (receiver : Address) : Bool :=
  fits r.sender e.sender && fits r.dest e.dest && fits r.receiver receiver &&
    match r.firstByte with
    | some b => e.bytes.head? = some b
    | none => true

/-- The rules after they were asked about a copy, and whether one of them rejects it. -/
def ask (e : Envelope) (receiver : Address) : List DropRule → Bool × List DropRule
  | [] => (false, [])
  | r :: rest =>
    if r.describes e receiver ∧ r.remaining ≠ some 0 then
      (true, { r with remaining := r.remaining.map (· - 1) } :: rest)
    else
      let (rejected, rest) := ask e receiver rest
      (rejected, r :: rest)

instance : DropFilter (List DropRule) where
  rejects rules e receiver := ask e receiver rules

end DropRule

end RadioRing
