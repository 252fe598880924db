import Mathlib

namespace DistributedMathArh

instance atLeastTwo_two : Nat.AtLeastTwo 2 := inferInstance

instance neZero_two : NeZero 2 := inferInstance

instance neZero_three : NeZero 3 := inferInstance

end DistributedMathArh
