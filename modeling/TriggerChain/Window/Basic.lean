import TriggerChain.Record.Activity
import TriggerChain.Window.Hits

/-!
# Sliding windows

A window holds the elements that began within one window length, in the order of their
start times, and keeps two aggregates in step with them: the summed charge and the hit
count of each channel. Primitives arrive in order and go to the end; activities may arrive
late and are put behind every element that began no later.
-/

namespace TriggerChain

/-! ## Elements -/

/-- What a window needs to know of its elements. -/
class Element (τ : Type) where
  /-- When the element began. -/
  timeStart : τ → Ticks
  /-- What the element adds to the charge of a window. -/
  charge : τ → Charge
  /-- The channels that the element hits, one entry per hit. -/
  channels : τ → List Channel
  /-- The channel that the element is filed under. -/
  leadChannel : τ → Channel
  /-- The time over threshold of the element, summed over its primitives. -/
  totSum : τ → Except Fault Ticks
  /-- Whether elements are delivered in the order of their start times. -/
  inOrder : Bool

instance : Element Primitive where
  timeStart p := p.timeStart
  charge p := p.adcIntegral.toUInt64
  channels p := [p.channel]
  leadChannel p := p.channel
  totSum p := .ok p.timeOverThreshold
  inOrder := true

instance : Element Activity where
  timeStart a := a.timeStart
  charge a := a.adcIntegral
  channels a := a.channels
  leadChannel a := a.channelStart
  totSum a := Ticks.total (a.inputs.map (·.timeOverThreshold))
  inOrder := false

/-! ## Windows -/

/-- A window of elements, with its aggregates. -/
structure Window (τ : Type) where
  /-- When the first element began; zero if there is none. -/
  timeStart : Ticks := 0
  /-- The summed charge of the elements. -/
  adcIntegral : Charge := 0
  /-- How often each channel is hit. -/
  hits : HitCounts := {}
  /-- The elements, as they are kept. -/
  elements : Array τ := #[]
  deriving DecidableEq, Repr, Inhabited

namespace Window

variable {τ : Type}

/-- The window that holds nothing. -/
def empty : Window τ := {}

/-- The elements. -/
def inputs (w : Window τ) : List τ := w.elements.toList

/-- Whether the window holds nothing. -/
def isEmpty (w : Window τ) : Bool := w.elements.isEmpty

theorem isEmpty_iff {w : Window τ} : w.isEmpty = true ↔ w.inputs = [] :=
  Array.isEmpty_iff.trans Array.toList_eq_nil_iff.symm

/-- The number of elements. -/
def size (w : Window τ) : Nat := w.elements.size

/-- The number of distinct channels hit. -/
def channelsHit (w : Window τ) : Nat := w.hits.size

variable [Element τ]

/-- Whether an element that begins at `time` still fits a window of the given length. -/
def admits (w : Window τ) (time length : Ticks) : Bool :=
  decide (time.since w.timeStart < length)

/-- Puts an element where it belongs among elements in the order of their start times: at the
    end if they are delivered in order, and else in front of the first one that began later. -/
def insert (x : τ) (xs : Array τ) : Array τ :=
  if Element.inOrder τ then xs.push x
  else
    let later := fun e => !decide (Element.timeStart e ≤ Element.timeStart x)
    xs.insertIdx (xs.findIdx later) x Array.findIdx_le_size

/-- When the first of some elements began; zero if there is none. -/
def firstStart (xs : Array τ) : Ticks := (xs[0]?.map Element.timeStart).getD 0

/-- Adds an element. -/
def add (w : Window τ) (x : τ) : Except Fault (Window τ) := do
  let adcIntegral ← w.adcIntegral.plus (Element.charge x)
  let hits ← w.hits.add (Element.channels x)
  let elements := insert x w.elements
  return { timeStart := firstStart elements, adcIntegral, hits, elements }

/-- The window that holds one element and nothing else. -/
def reset (x : τ) : Except Fault (Window τ) := empty.add x

/-- Takes the contribution of an element out of the aggregates. The elements themselves
    stay as they are. -/
def release (w : Window τ) (e : τ) : Except Fault (Window τ) :=
  if w.adcIntegral < Element.charge e then .error .aggregateUnderflow
  else do
    let hits ← w.hits.release (Element.channels e)
    return { w with adcIntegral := w.adcIntegral - Element.charge e, hits }

/-- Whether an element began `length` ticks or more before `now`. -/
def expired (now length : Ticks) (e : τ) : Bool :=
  decide (length ≤ now.since (Element.timeStart e))

/-- Drops every leading element that is a window length or more older than the incoming
    one, then adds the incoming one. If nothing is left the window starts over. -/
def slide (w : Window τ) (x : τ) (length : Ticks) : Except Fault (Window τ) := do
  let old := w.elements.takeWhile (expired (Element.timeStart x) length)
  let kept := w.elements.extract old.size
  -- What leaves is taken out of the aggregates before anything is cut.
  let released ← old.foldlM release w
  if kept.isEmpty then reset x
  else
    let young : Window τ := { released with timeStart := firstStart kept, elements := kept }
    young.add x

end Window

end TriggerChain
