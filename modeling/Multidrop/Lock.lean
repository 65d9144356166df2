/-!
# Locks

A lock has one holder at a time. Whoever asks while it is held stands in
line, and a release hands the lock to the one who has stood there longest, so
nobody who asks later can come first.

## Main definitions

* `Lock`: The holder and the line.
* `Lock.request`, `Lock.release`, `Lock.leave`: Asking, handing on, and giving
  up.
-/

namespace Multidrop

/-- A lock: who holds it, and who waits for it, the longest first. -/
structure Lock where
  holder : Option Nat := none
  line : List Nat := []
  deriving DecidableEq

namespace Lock

/-- Ask for the lock. -/
def request (who : Nat) (l : Lock) : Lock :=
  match l.holder with
  | none => { l with holder := some who }
  | some _ => { l with line := l.line ++ [who] }

/-- Hand the lock on. -/
def release (l : Lock) : Lock :=
  { holder := l.line.head?, line := l.line.tail }

/-- Give up the lock, or the place in line. -/
def leave (who : Nat) (l : Lock) : Lock :=
  if l.holder = some who then l.release else { l with line := l.line.erase who }

/-- Whether between two moments the lock went to someone who stood in line. -/
def handedOver (before after : Lock) : Bool :=
  match after.holder with
  | none => false
  | some who => before.line.contains who

end Lock

end Multidrop
