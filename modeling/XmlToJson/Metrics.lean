import XmlToJson.Binary64.Basic

/-!
# Counters of a conversion

What a conversion has met: how much text, how many elements and attributes, how deep the elements
nest, and how often each sort of markup was skipped.
-/

namespace XmlToJson

/-- The counters of a conversion. -/
structure Metrics where
  characters : Nat := 0
  elements : Nat := 0
  attributes : Nat := 0
  /-- The greatest depth of an element; an outermost element has depth one. -/
  depth : Nat := 0
  comments : Nat := 0
  declarations : Nat := 0
  instructions : Nat := 0
  cdataSections : Nat := 0
  deriving DecidableEq, Repr

namespace Metrics

/-- Takes note of an element at the given depth. -/
def recordDepth (metrics : Metrics) (depth : Nat) : Metrics :=
  { metrics with depth := max metrics.depth depth }

/-- Counts an element at the given depth. -/
def countElement (metrics : Metrics) (depth : Nat) : Metrics :=
  { metrics with elements := metrics.elements + 1 }.recordDepth depth

def countAttribute (metrics : Metrics) : Metrics :=
  { metrics with attributes := metrics.attributes + 1 }

def countComment (metrics : Metrics) : Metrics :=
  { metrics with comments := metrics.comments + 1 }

def countDeclaration (metrics : Metrics) : Metrics :=
  { metrics with declarations := metrics.declarations + 1 }

def countInstruction (metrics : Metrics) : Metrics :=
  { metrics with instructions := metrics.instructions + 1 }

def countCdata (metrics : Metrics) : Metrics :=
  { metrics with cdataSections := metrics.cdataSections + 1 }

/-- The number of characters for each second of a conversion that took `milliseconds`; zero for one
that took no time.  A number of characters beyond every floating-point number gives nothing. -/
def charactersPerSecond? (characters : Int) (milliseconds : Binary64) : Option Binary64 :=
  match milliseconds.compareInt? 0 with
  | some .lt | some .eq => some (.zero false)
  | _ =>
      let count := Binary64.ofInt characters
      if count.isFinite then some ((count.mul (.ofInt 1000)).div milliseconds) else none

end Metrics

end XmlToJson
