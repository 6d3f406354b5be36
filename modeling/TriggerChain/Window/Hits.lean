import Std.Data.ExtTreeMap
import TriggerChain.Record.Primitive

/-!
# Hit counts

How often each channel is hit by the elements of a window. Only channels that are hit have
an entry, so the number of entries is the number of distinct channels. The entries stand in
a balanced tree, and how it is balanced cannot be seen: equal counts are equal values.
-/

namespace TriggerChain

/-- A table of hit counts. -/
structure HitCounts where
  /-- The channels that are hit, each with its count. -/
  table : Std.ExtTreeMap Channel UInt32 := {}
  deriving DecidableEq, Repr, Inhabited

namespace HitCounts

/-- The channels that are hit, each with its count, ascending in the channel. -/
def entries (h : HitCounts) : List (Channel × UInt32) := h.table.toList

/-- How often a channel is hit. -/
def count (h : HitCounts) (c : Channel) : UInt32 := h.table.getD c 0

/-- The channels that are hit, ascending. -/
def channels (h : HitCounts) : List Channel := h.table.keys

/-- The number of distinct channels. -/
def size (h : HitCounts) : Nat := h.table.size

/-! ## One hit -/

/-- Counts one hit more. A count that does not fit its word stops the run. -/
def addHit (h : HitCounts) (c : Channel) : Except Fault HitCounts :=
  let n := h.count c
  if n.toNat + 1 < UInt32.size then .ok { table := h.table.insert c (n + 1) }
  else .error .sumOverflow

/-- Counts one hit less. A channel leaves the table with its last hit. -/
def releaseHit (h : HitCounts) (c : Channel) : Except Fault HitCounts :=
  match h.table[c]? with
  | none => .error (.unmatchedRelease c)
  | some n =>
    if n = 0 then .error .differenceOverflow
    else if n = 1 then .ok { table := h.table.erase c }
    else .ok { table := h.table.insert c (n - 1) }

/-! ## The hits of an element -/

/-- Counts one hit more on each of some channels, with repetition. -/
def add (h : HitCounts) (cs : List Channel) : Except Fault HitCounts := cs.foldlM addHit h

/-- Counts one hit less on each of some channels, with repetition. -/
def release (h : HitCounts) (cs : List Channel) : Except Fault HitCounts :=
  cs.foldlM releaseHit h

end HitCounts

end TriggerChain
