import BusNode.Code.Literal
import BusNode.Proofs.Acceptance
/-!
# Values that have a literal

* `Scalar.isFinite` — whether a value is a number;
* `Literal.decides_scalar` — just such a value has a literal, and the error tells the value that has none.
-/

namespace BusNode

/-- Whether the value is a number. -/
def Scalar.isFinite : Scalar → Bool
  | .f32 v => v.isFinite
  | .f64 v => v.isFinite
  | _ => true

/-- The value without literal that an error tells. -/
inductive LiteralError.IsOf : Scalar → LiteralError → Prop
  | single {v : Binary32} (h : v.isFinite = false) : IsOf (.f32 v) (.notFinite v.convert)
  | double {v : Binary64} (h : v.isFinite = false) : IsOf (.f64 v) (.notFinite v)

namespace Literal

theorem decides_double (v : Binary64) : Decides (double v) (v.isFinite = true) (LiteralError.IsOf (.f64 v)) := by
  unfold double
  split
  · rename_i h
    exact .ok _ h
  · rename_i h
    exact .error h (.double (Bool.eq_false_iff.2 h))

theorem decides_single (v : Binary32) : Decides (single v) (v.isFinite = true) (LiteralError.IsOf (.f32 v)) := by
  unfold single
  split
  · rename_i h
    exact .ok _ h
  · rename_i h
    exact .error h (.single (Bool.eq_false_iff.2 h))

theorem decides_scalar (v : Scalar) : Decides (scalar v) (v.isFinite = true) (LiteralError.IsOf v) := by
  cases v with
  | f32 v => exact decides_single v
  | f64 v => exact decides_double v
  | _ => exact .ok _ rfl

end Literal

end BusNode
