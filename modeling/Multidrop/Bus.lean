import Multidrop.Link
import Multidrop.Lock
import Multidrop.Wire

/-!
# Buses

What all who talk over a link share: the link, the wire behind it, the lock
that lets one of them at a time send and receive, and the clock.

Whatever is done on a bus is an activity that takes turns. A turn makes one
call on the wire, or moves on without one; an activity that has to wait stays
as it is, and the turn is tried again later.

## Main definitions

* `Bus`: The link, the wire, the lock and the clock.
* `Turn`: What a turn of an activity leads to.
-/

namespace Multidrop

/-- What all who talk over a link share. -/
structure Bus where
  /-- The time since the start. -/
  now : Duration := 0
  link : Link := {}
  wire : Wire := {}
  lock : Lock := {}
  deriving DecidableEq

/-- What a turn of an activity leads to. -/
inductive Turn (σ α : Type) where
  /-- The activity goes on from another state. -/
  | again (next : σ)
  /-- Nothing can be done before the wire or the clock moves. -/
  | waiting
  /-- The activity is over. -/
  | over (result : α)

end Multidrop
