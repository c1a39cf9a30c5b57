/-
**A buffer with a recorded length, taken away and given back.**

A component keeps a buffer and, beside it, the length it believes the buffer to have. The buffer may be
replaced by one of another capacity; it may be taken away, which leaves the recorded length as it is;
and one that was taken away comes back, unless there is a new one by then. Buffers are taken away and
come back like brackets, to any depth.

* `Slot.Exact`: the recorded length is that of the buffer, or of the one that was taken away last.
* `Slot.Exact.step`: it stays so.
-/

import Mathlib.Algebra.Order.Ring.Int

namespace Ubus.Lib

/-- The capacity of the buffer that is there, the recorded length, and the capacities of the buffers
that were taken away, the last one first. -/
structure Slot where
  attached : Option Nat
  recorded : Nat
  saved : List Nat

namespace Slot

/-- What may happen to the buffer. -/
inductive Step : Slot → Slot → Prop where
  | replace (slot : Slot) (cap : Nat) : Step slot { slot with attached := some cap, recorded := cap }
  | detach (slot : Slot) (cap : Nat) (here : slot.attached = some cap) :
    Step slot { slot with attached := none, saved := cap :: slot.saved }
  | restore (slot : Slot) (cap : Nat) (others : List Nat) (taken : slot.saved = cap :: others) :
    Step slot { slot with attached := slot.attached.or (some cap), saved := others }

/-- **The recorded length is the true one**, also that of the buffer to come back. -/
structure Exact (slot : Slot) : Prop where
  attached : ∀ cap, slot.attached = some cap → slot.recorded = cap
  saved : slot.attached = none → ∀ cap others, slot.saved = cap :: others → slot.recorded = cap

namespace Exact

variable {slot slot' : Slot}

theorem step (exact : Exact slot) (next : Step slot slot') : Exact slot' := by
  cases next with
  | replace cap =>
    constructor
    · intro other same
      exact Option.some.inj same
    · intro empty
      cases empty
  | detach cap here =>
    constructor
    · intro other same
      cases same
    · intro _ first others same
      obtain ⟨rfl, -⟩ := List.cons.inj same
      exact exact.attached cap here
  | restore cap others taken =>
    rcases here : slot.attached with _ | current
    · constructor
      · intro other same
        obtain rfl := Option.some.inj same
        exact exact.saved here cap others taken
      · intro empty
        cases empty
    · constructor
      · intro other same
        obtain rfl := Option.some.inj same
        exact exact.attached current here
      · intro empty
        cases empty

end Exact

end Slot

end Ubus.Lib
