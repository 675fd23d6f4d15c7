/-! Text of numbers in base 16 and of lists, as the messages and renderings of this library use
them. -/

namespace Modbus.Text

/-- The upper case digit of a number below 16. -/
def upperDigit (n : Nat) : Char := (Nat.digitChar n).toUpper

def hex2 (b : UInt8) : String :=
  String.ofList [upperDigit (b.toNat / 16), upperDigit (b.toNat % 16)]

def hex4 (w : UInt16) : String :=
  String.ofList [upperDigit (w.toNat / 4096), upperDigit (w.toNat / 256 % 16),
    upperDigit (w.toNat / 16 % 16), upperDigit (w.toNat % 16)]

/-- The lower case digits of a number, without leading zeros. -/
def lowerHex (n : Nat) : String := String.ofList (Nat.toDigits 16 n)

/-- The lowest `n` digits of a number, in lower case. -/
def hexDigits (n v : Nat) : String :=
  let digits := Nat.toDigits 16 v
  String.ofList (List.replicate (n - digits.length) '0' ++ digits.drop (digits.length - n))

def hexDigit? (c : Char) : Option Nat :=
  if '0' ≤ c ∧ c ≤ '9' then some (c.toNat - 48)
  else if 'a' ≤ c ∧ c ≤ 'f' then some (c.toNat - 87)
  else if 'A' ≤ c ∧ c ≤ 'F' then some (c.toNat - 55)
  else none

def ofHexDigits? (digits : List Char) : Option Nat :=
  (digits.mapM hexDigit?).map (·.foldl (16 * · + ·) 0)

/-- Two lower case digits for each byte. -/
def hexBytes (bytes : List UInt8) : String := String.join (bytes.map fun b => hexDigits 2 b.toNat)

def ofHexBytes? : List Char → Option (List UInt8)
  | [] => some []
  | hi :: lo :: rest => do
    let b ← ofHexDigits? [hi, lo]
    return UInt8.ofNat b :: (← ofHexBytes? rest)
  | _ => none

/-- Items in square brackets, separated by a comma and a space. -/
def bracketed (items : List String) : String := "[" ++ ", ".intercalate items ++ "]"

structure Field where
  name : String
  text : String

/-- A record as `Name \x7b field: text, … \x7d`; `..` stands for fields that are not shown. -/
def record (name : String) (fields : List Field) (complete : Bool) : String :=
  let shown := fields.map fun f => f.name ++ ": " ++ f.text
  let shown := if complete then shown else shown ++ [".."]
  name ++ " \x7b " ++ ", ".intercalate shown ++ " \x7d"

/-- A value under the name of its kind, as `Name(text)`. -/
def tagged (name text : String) : String := name ++ "(" ++ text ++ ")"

end Modbus.Text
