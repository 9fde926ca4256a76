import BusNode.Can.Basic
/-!
# Multiplex groups

The signals that a message carries for one value of its multiplexer: first the multiplexer, then the signals of the
value, then the signals that are always there, each in the order of the message. A message without a multiplexer has
one group of all signals, and a message without signals has none.
-/

namespace BusNode.Can

structure MuxGroup where
  value : UInt16
  /-- Indices of signals of the message. -/
  signals : List Nat
  deriving DecidableEq, Repr

namespace MuxGroup

/-- Puts a value into an ascending list, once. -/
def insertValue (v : UInt16) : List UInt16 → List UInt16
  | [] => [v]
  | w :: ws => if v < w then v :: w :: ws else if v = w then w :: ws else w :: insertValue v ws

/-- The value that a signal depends on. -/
def dependsOn? : MuxRole → Option UInt16
  | .multiplexed v => some v
  | _ => none

/-- The values that signals depend on, ascending. -/
def values (signals : List Signal) : List UInt16 :=
  (signals.filterMap fun s => dependsOn? s.mux).foldr insertValue []

/-- The indices of the signals of a role. -/
def withRole (role : MuxRole) (signals : List Signal) : List Nat :=
  (signals.zipIdx.filter fun e => e.1.mux = role).map (·.2)

/-- The groups of the signals of a message, by ascending value. -/
def ofSignals (signals : List Signal) : List MuxGroup :=
  if signals.isEmpty then []
  else
    match signals.findIdx? (·.mux = .multiplexer) with
    | none => [⟨0, List.range signals.length⟩]
    | some m =>
      (match values signals with
        | [] => [0]
        | vs => vs).map fun v => ⟨v, m :: (withRole (.multiplexed v) signals ++ withRole .none signals)⟩

end MuxGroup

end BusNode.Can
