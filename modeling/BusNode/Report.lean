import BusNode.Error
/-!
# Reports

* `Event` — what a run tells while it goes on;
* `Report` — the events of a computation and its result; the events before a failure stay;
* `Report.lift` — a computation that only errors end, as part of one that an overflow may end as well.
-/

namespace BusNode

inductive EventLevel where
  | error
  | warning
  | info
  | debug
  deriving DecidableEq, Repr

inductive EventContent where
  | text (s : String)
  | error (e : ExportError)
  deriving DecidableEq

structure Event where
  level : EventLevel
  /-- What the event is about; may be empty. -/
  subject : String
  content : EventContent
  deriving DecidableEq

namespace Event

/-- One artifact of an application. -/
def artifact (application stem : String) : String := s!"[data_block={application}, artifact={stem}] "

/-- An application. -/
def application (name : String) : String := s!"[data_block={name}] "

def info (subject text : String) : Event := ⟨.info, subject, .text text⟩
def debug (subject text : String) : Event := ⟨.debug, subject, .text text⟩
def warning (subject text : String) : Event := ⟨.warning, subject, .text text⟩
def error (subject text : String) : Event := ⟨.error, subject, .text text⟩
def failure (subject : String) (e : ExportError) : Event := ⟨.error, subject, .error e⟩

/-- The text of an event; an error of the file system is told in full. -/
def text (e : Event) : String :=
  e.subject ++
    match e.content with
    | .text s => s
    | .error x => x.message x.reason

end Event

/-- The events of a computation in order, and its result. -/
structure Report (ε α : Type) where
  events : List Event
  result : Except ε α

namespace Report

variable {ε α β : Type}

def ofExcept (x : Except ε α) : Report ε α := ⟨[], x⟩
def tell (e : Event) : Report ε Unit := ⟨[e], .ok ()⟩
def fail (e : ε) : Report ε α := ⟨[], .error e⟩

def bind (x : Report ε α) (f : α → Report ε β) : Report ε β :=
  match x.result with
  | .ok a => ⟨x.events ++ (f a).events, (f a).result⟩
  | .error e => ⟨x.events, .error e⟩

instance : Monad (Report ε) where
  pure a := ⟨[], .ok a⟩
  bind := bind

/-- The result, with an event if it is an error. -/
def onError (x : Report ExportError α) (event : ExportError → Event) : Report ExportError α :=
  match x.result with
  | .ok _ => x
  | .error e => ⟨x.events ++ [event e], x.result⟩

/-- The result, with an event if it is an error; a run that ends at a number tells nothing more. -/
def onRefusal (x : Report Stop α) (event : ExportError → Event) : Report Stop α :=
  match x.result with
  | .error (.refused e) => ⟨x.events ++ [event e], x.result⟩
  | _ => x

/-- A computation in which every number fits, as part of one in which it may not. -/
def lift (x : Report ExportError α) : Report Stop α := ⟨x.events, x.result.mapError .refused⟩

/-- What may be refused, as part of such a computation. -/
def orRefuse (x : Except ExportError α) : Report Stop α := (ofExcept x).lift

@[simp] theorem result_pure (a : α) : (pure a : Report ε α).result = .ok a := rfl

@[simp] theorem result_bind (x : Report ε α) (f : α → Report ε β) :
    (x >>= f).result = x.result >>= fun a => (f a).result := by
  show (bind x f).result = _
  unfold bind
  cases x.result <;> rfl

@[simp] theorem result_ofExcept (x : Except ε α) : (ofExcept x).result = x := rfl

@[simp] theorem result_onError (x : Report ExportError α) (event : ExportError → Event) :
    (x.onError event).result = x.result := by
  unfold onError
  split <;> rfl

@[simp] theorem result_onRefusal (x : Report Stop α) (event : ExportError → Event) :
    (x.onRefusal event).result = x.result := by
  unfold onRefusal
  split <;> rfl

@[simp] theorem result_lift (x : Report ExportError α) : x.lift.result = x.result.mapError .refused := rfl

@[simp] theorem result_orRefuse (x : Except ExportError α) : (orRefuse x).result = x.mapError .refused := rfl

end Report

end BusNode
