import BusNode.Error
/-!
# What a Datapool must be to have code

`Datapool.fault?` names the first thing that is wrong, list by list and element by element.
-/

namespace BusNode

/-- The run-time library counts data sets in a byte. -/
def maxDataSets : Nat := 255

namespace Element

/-- Whether the factor, as a compiler reads it, is a positive number. -/
def hasValidFactor (e : Element) : Bool :=
  e.factor.isFinite &&
    match Literal.rounded e.factor with
    | .ok f => f.isPositive && f.isFinite
    | .error _ => false

/-- All contents: the default, the limits, and one for each data set. -/
def contents (e : Element) : List Content := e.default :: e.min :: e.max :: e.dataSetValues

def contentFault? (e : Element) (c : Content) : Option ElementFault :=
  if c.length ≠ e.count.toNat then some (.length e.count.toNat c.length)
  else (c.find? (·.type ≠ e.type)).map fun v => .type e.type v.type

/-- The first fault of an element of a list with `sets` data sets. -/
def fault? (sets : Nat) (e : Element) : Option ElementFault :=
  if !e.hasValidFactor then some (.factor e.factor)
  else if e.dataSetValues.length ≠ sets then some (.dataSets e.dataSetValues.length sets)
  else e.contents.findSome? e.contentFault?

end Element

namespace Datapool

def listFault? (d : Datapool) (l : ElementList) : Option Structural :=
  if maxDataSets < l.dataSets.length then some (.tooManyDataSets l.name d.name l.dataSets.length)
  else l.elements.findSome? fun e =>
    (e.fault? l.dataSets.length).map (.element s!"{d.name}::{l.name}::{e.name}")

def fault? (d : Datapool) : Option Structural :=
  if d.isEmpty then some (.emptyDatapool d.name) else d.lists.findSome? d.listFault?

end Datapool

end BusNode
