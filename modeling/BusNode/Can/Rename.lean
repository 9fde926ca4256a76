import BusNode.Can.Basic
import BusNode.Datapool.Basic
/-!
# Names of signal elements

In the code of a Datapool that holds signals, an element that a message carries is named after the message and itself,
of several messages after the last one. All other elements keep their names.
-/

namespace BusNode

open Can

namespace ElementList

/-- Names the element of a signal after a message; `before` is the list with the names it had at first. -/
def renameSignal (before : ElementList) (m : Message) (l : ElementList) (s : Signal) : ElementList :=
  match before.elements[s.elementIndex.toNat]? with
  | none => l
  | some e => { l with
      elements := l.elements.modify s.elementIndex.toNat ({ · with name := s!"{m.name}_{e.name}" }) }

/-- Names the elements of the signals of messages. -/
def renameSignals (l : ElementList) (messages : List Message) : ElementList :=
  messages.foldl (fun l' m => m.signals.foldl (l.renameSignal m) l') l

end ElementList

namespace Datapool

/-- Names the elements of one interface. -/
def renameInterface (d : Datapool) (interface : Nat) (c : Container) : Datapool :=
  { d with
    lists := (d.lists.modify (Direction.tx.listIndex interface) (·.renameSignals c.txMessages)).modify
      (Direction.rx.listIndex interface) (·.renameSignals c.rxMessages) }

/-- Names the elements of the signals of a protocol, on the 256 interfaces that a node may have. -/
def renameSignals (d : Datapool) (p : Protocol) : Datapool :=
  (p.containers.zipIdx.take 256).foldl (fun d' (c, i) => d'.renameInterface i c) d

end Datapool

end BusNode
