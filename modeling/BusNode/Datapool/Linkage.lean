import BusNode.Code.Literal
/-!
# Linkage of Datapools

How an application reaches a Datapool.
-/

namespace BusNode

inductive Linkage where
  /-- Owned by the application itself. -/
  | own
  /-- Owned by another application and reached through the diagnostic driver. -/
  | remote
  /-- Owned by another application and open to all. -/
  | remotePublic
  deriving DecidableEq, Repr

namespace Linkage

def isRemote (l : Linkage) : Bool := l ≠ .own

/-- The linkage in the Datapool record; layouts below 4 know a flag only. -/
def text (version : Nat) (l : Linkage) : String :=
  if version < 4 then Literal.flag l.isRemote
  else match l with
    | .own => "OSY_DPA_DATA_POOL_LOCAL"
    | .remote => "OSY_DPA_DATA_POOL_REMOTE"
    | .remotePublic => "OSY_DPA_DATA_POOL_REMOTE_PUBLIC"

def name : Linkage → String
  | .own => "Local"
  | .remote => "Remote"
  | .remotePublic => "RemotePublic"

def codec : Codec Linkage := .enumeration [.own, .remote, .remotePublic] name

end Linkage

end BusNode
