/-! The text of a duration that counts milliseconds. -/

namespace Modbus.Text

/-- The last `digits` decimal digits of `n`, without zeros at the end. -/
def fraction (digits n : Nat) : List Char :=
  let shown := ((List.range digits).map fun i => Nat.digitChar (n / Nat.pow 10 (digits - 1 - i) % 10))
  (shown.reverse.dropWhile (· == '0')).reverse

/-- A duration in seconds from one second on, in milliseconds below it; none at all counts as
nanoseconds. -/
def duration (ms : Nat) : String :=
  if ms = 0 then "0ns"
  else if ms < 1000 then toString ms ++ "ms"
  else
    match fraction 3 (ms % 1000) with
    | [] => toString (ms / 1000) ++ "s"
    | shown => toString (ms / 1000) ++ "." ++ String.ofList shown ++ "s"

end Modbus.Text
