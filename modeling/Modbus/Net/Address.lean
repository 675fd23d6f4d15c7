import Modbus.Text.Hex

/-! Internet addresses: their text in both versions of the protocol, and reading that text. -/

namespace Modbus.Net

/-- An address of either version of the internet protocol. -/
inductive IpAddress where
  | v4 (a b c d : UInt8)
  | v6 (groups : List UInt16)
deriving DecidableEq

structure Run where
  start : Nat
  length : Nat
deriving DecidableEq

/-- The first of the longest runs of zeros. `current` ends before `groups`, which begin at
`index`. -/
def longestRun (groups : List UInt16) (index : Nat) (current longest : Run) : Run :=
  match groups with
  | [] => longest
  | g :: rest =>
    if g = 0 then
      let current : Run := if current.length = 0 then ⟨index, 1⟩
        else ⟨current.start, current.length + 1⟩
      longestRun rest (index + 1) current
        (if longest.length < current.length then current else longest)
    else longestRun rest (index + 1) ⟨0, 0⟩ longest

/-- Groups in base 16, separated by colons. -/
def groupsText (groups : List UInt16) : String :=
  ":".intercalate (groups.map fun g => Text.lowerHex g.toNat)

/-- Four bytes in base 10, separated by dots. -/
def dotted (a b c d : UInt8) : String :=
  ".".intercalate ([a, b, c, d].map fun x => toString x.toNat)

namespace IpAddress

/-- The text of an address. Of version 6, two colons stand for the first longest run of at least
two zero groups, and the part of an address that was mapped from version 4 is dotted. -/
def text : IpAddress → String
  | v4 a b c d => dotted a b c d
  | v6 [0, 0, 0, 0, 0, 0xFFFF, hi, lo] =>
    "::ffff:" ++ dotted (hi >>> 8).toUInt8 hi.toUInt8 (lo >>> 8).toUInt8 lo.toUInt8
  | v6 groups =>
    let zeros := longestRun groups 0 ⟨0, 0⟩ ⟨0, 0⟩
    if 1 < zeros.length then
      groupsText (groups.take zeros.start) ++ "::" ++
        groupsText (groups.drop (zeros.start + zeros.length))
    else groupsText groups

end IpAddress

/-! ### Reading

A reader takes what it reads off the front of the text, or fails. -/

def digit? (base : Nat) (c : Char) : Option Nat := (Text.hexDigit? c).filter (· < base)

def digits (base : Nat) : List Char → List Nat × List Char
  | [] => ([], [])
  | c :: rest =>
    match digit? base c with
    | some d => let (ds, left) := digits base rest; (d :: ds, left)
    | none => ([], c :: rest)

/-- A number below `limit`, written with at least one digit, at most `maxDigits` of them if that
is given, and without a zero in front of other digits unless `padded`. -/
def number? (base : Nat) (maxDigits : Option Nat) (padded : Bool) (limit : Nat)
    (s : List Char) : Option (Nat × List Char) :=
  let (ds, left) := digits base s
  let value := ds.foldl (fun n d => base * n + d) 0
  if ds.isEmpty || maxDigits.any (· < ds.length) || limit ≤ value ||
    (!padded && ds.head? == some 0 && 1 < ds.length) then none
  else some (value, left)

def after? (c : Char) : List Char → Option (List Char)
  | x :: rest => if x = c then some rest else none
  | [] => none

def byte? (s : List Char) : Option (UInt8 × List Char) :=
  (number? 10 (some 3) false 256 s).map fun (n, left) => (UInt8.ofNat n, left)

def group? (s : List Char) : Option (UInt16 × List Char) :=
  (number? 16 (some 4) true 65536 s).map fun (n, left) => (UInt16.ofNat n, left)

def dotted? (s : List Char) : Option ((UInt8 × UInt8 × UInt8 × UInt8) × List Char) := do
  let (a, s) ← byte? s
  let (b, s) ← byte? (← after? '.' s)
  let (c, s) ← byte? (← after? '.' s)
  let (d, s) ← byte? (← after? '.' s)
  return ((a, b, c, d), s)

/-- Groups of an address of version 6. -/
structure Groups where
  groups : List UInt16
  /-- Whether the last two groups were written as dotted bytes. -/
  dotted : Bool
  rest : List Char

/-- As many groups as there are, at most `limit`, separated by colons; `first` says that none has
been read yet. The last two may be dotted bytes. -/
def readGroups (first : Bool) : Nat → List Char → Groups
  | 0, s => ⟨[], false, s⟩
  | limit + 1, s =>
    match (if first then some s else after? ':' s) with
    | none => ⟨[], false, s⟩
    | some t =>
      match (if limit = 0 then none else dotted? t) with
      | some ((a, b, c, d), left) =>
        ⟨[(a.toUInt16 <<< 8) ||| b.toUInt16, (c.toUInt16 <<< 8) ||| d.toUInt16], true, left⟩
      | none =>
        match group? t with
        | none => ⟨[], false, s⟩
        | some (g, left) =>
          let more := readGroups false limit left
          { more with groups := g :: more.groups }

/-- An address of version 6: eight groups, or fewer around two colons that stand for at least one
zero group. -/
def v6? (s : List Char) : Option (List UInt16 × List Char) := do
  let front := readGroups true 8 s
  if front.groups.length = 8 then return (front.groups, front.rest)
  if front.dotted then none
  else
    let s ← after? ':' (← after? ':' front.rest)
    let back := readGroups true (7 - front.groups.length) s
    let zeros := List.replicate (8 - front.groups.length - back.groups.length) 0
    return (front.groups ++ zeros ++ back.groups, back.rest)

def v4? (s : List Char) : Option (IpAddress × List Char) :=
  (dotted? s).map fun ((a, b, c, d), left) => (.v4 a b c d, left)

def IpAddress.ofText? (s : String) : Option IpAddress :=
  match v4? s.toList with
  | some (address, []) => some address
  | some _ => none
  | none =>
    match v6? s.toList with
    | some (groups, []) => some (.v6 groups)
    | _ => none

/-! ### Socket addresses -/

/-- An address and a port; `scope` is the zone of an address of version 6, or 0. -/
structure SocketAddress where
  ip : IpAddress
  port : UInt16
  scope : UInt32
deriving DecidableEq

namespace SocketAddress

/-- The text of a socket address; an address of version 6 stands in brackets. -/
def text (a : SocketAddress) : String :=
  let port := ":" ++ toString a.port.toNat
  match a.ip with
  | .v4 .. => a.ip.text ++ port
  | .v6 _ =>
    let zone := if a.scope = 0 then "" else "%" ++ toString a.scope.toNat
    "[" ++ a.ip.text ++ zone ++ "]" ++ port

/-- A port behind a colon, to the end of the text. -/
def port? (s : List Char) : Option UInt16 := do
  let (n, left) ← number? 10 none true 65536 (← after? ':' s)
  if left.isEmpty then some (UInt16.ofNat n) else none

def zone? (s : List Char) : Option (UInt32 × List Char) :=
  match after? '%' s with
  | none => some (0, s)
  | some t => (number? 10 none true 4294967296 t).map fun (n, left) => (UInt32.ofNat n, left)

def ofText? (s : String) : Option SocketAddress :=
  match v4? s.toList with
  | some (ip, left) => (port? left).map fun port => ⟨ip, port, 0⟩
  | none => do
    let (groups, left) ← v6? (← after? '[' s.toList)
    let (scope, left) ← zone? left
    let port ← port? (← after? ']' left)
    return ⟨.v6 groups, port, scope⟩

end SocketAddress

end Modbus.Net
