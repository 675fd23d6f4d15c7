import Modbus.Link.Journal

/-! Clocks. The time of a journal goes on for ever, but a clock has a last time that it can tell.
Where work has to wait until a later one, it comes to a fault of the clock instead of a result, and
nothing is done after that. Only deadlines that are worked out can be too late: a pause, or a wait
for a peer, that is too long for the clock is cut short instead. -/

namespace Modbus

inductive ClockFault where
  /-- A deadline lies after the last time of the clock. -/
  | overflow
deriving DecidableEq

/-- The deadlines that have been set since the earlier journal `before`. -/
def Journal.setSince (before j : Journal) : List Nat := j.deadlines.drop before.deadlines.length

namespace Clock

/-- The last millisecond of a clock that counts seconds in a signed word of 64 bits. -/
def lastTime : Nat := UInt64.size / 2 * 1000 - 1

/-- The longest duration in whole milliseconds; durations count seconds in a word of 64 bits. -/
def longest : Nat := UInt64.size * 1000 - 1

/-- Work on a clock that tells no time after `horizon`. -/
def run {ε σ α : Type} (horizon : Nat) (journal : σ → Journal) (work : EStateM ε σ α) (s : σ) :
    Except ClockFault (EStateM.Result ε σ α) :=
  let result := work s
  let s' := match result with
    | .ok _ s' | .error _ s' => s'
  if ∀ t ∈ (journal s).setSince (journal s'), t ≤ horizon then .ok result else .error .overflow

end Clock

end Modbus
