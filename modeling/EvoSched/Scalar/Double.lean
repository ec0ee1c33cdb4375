import EvoSched.Decimal.Shortest
import EvoSched.Scalar

set_option autoImplicit false

namespace EvoSched

instance : Scalar Float where
  decLt := inferInstance
  decLe := inferInstance
  ofInt := Binary64.ofInt
  isFinite := Float.isFinite
  truncate? := Binary64.truncate?
  intLe := Binary64.intLe
  text := Decimal.shortest
  fixed := Decimal.fixed

end EvoSched
