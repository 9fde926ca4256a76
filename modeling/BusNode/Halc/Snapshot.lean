import BusNode.Halc.Basic
/-!
# Hardware channels in a snapshot
-/

namespace BusNode.Halc

namespace SafetyMode

def name : SafetyMode → String
  | .twoLevelsWithDropping => "TwoLevelsWithDropping"
  | .twoLevelsWithoutDropping => "TwoLevelsWithoutDropping"
  | .oneLevelAllSafe => "OneLevelAllSafe"
  | .oneLevelAllNonSafe => "OneLevelAllNonSafe"

def codec : Codec SafetyMode :=
  .enumeration [.twoLevelsWithDropping, .twoLevelsWithoutDropping, .oneLevelAllSafe, .oneLevelAllNonSafe] name

end SafetyMode

namespace Variant

def name : Variant → String
  | .safe => "Safe"
  | .nonSafe => "NonSafe"

def codec : Codec Variant := .enumeration [.safe, .nonSafe] name

end Variant

namespace Parameter

def codec : Codec Parameter := .record
  (.cons "name" .string .required <| .cons "value_type" ScalarType.codec .required .nil)
  (fun p => (p.name, p.type, ()))
  (fun (name, type, ()) => ⟨name, type⟩)

end Parameter

namespace Channel

def codec : Codec Channel := .record
  (.cons "name" .string .required <|
   .cons "comment" .string (.default "") <|
   .cons "safety_relevant" .bool (.default false) <|
   .cons "use_case" .uint32 .required <|
   .cons "values" (.list Scalar.codec) (.default []) .nil)
  (fun c => (c.name, c.comment, c.isSafety, c.useCase, c.values, ()))
  (fun (name, comment, isSafety, useCase, values, ()) => ⟨name, comment, isSafety, useCase, values⟩)

end Channel

namespace Domain

def codec : Codec Domain := .record
  (.cons "name" .string .required <|
   .cons "parameters" (.list Parameter.codec) (.default []) <|
   .cons "domain_values" (.list Scalar.codec) (.default []) <|
   .cons "channels" (.list Channel.codec) (.default []) .nil)
  (fun d => (d.name, d.parameters, d.domainValues, d.channels, ()))
  (fun (name, parameters, domainValues, channels, ()) => ⟨name, parameters, domainValues, channels⟩)

end Domain

namespace Config

def codec : Codec Config := .record
  (.cons "safety_mode" SafetyMode.codec .required <| .cons "domains" (.list Domain.codec) .required .nil)
  (fun c => (c.safetyMode, c.domains, ()))
  (fun (mode, domains, ()) => ⟨mode, domains⟩)

end Config

end BusNode.Halc
