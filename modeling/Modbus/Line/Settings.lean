import Modbus.Text.Blank
import Modbus.Text.Hex

/-! Settings of a serial line: speed, parity and stop bits, their text, and the time that
characters and the gap between frames take. -/

namespace Modbus.Line

inductive Parity where
  | none
  | even
  | odd
deriving DecidableEq

def Parity.letter : Parity → Char
  | none => 'N'
  | even => 'E'
  | odd => 'O'

def Parity.ofLetter? (c : Char) : Option Parity :=
  if c = 'N' ∨ c = 'n' then some none
  else if c = 'E' ∨ c = 'e' then some even
  else if c = 'O' ∨ c = 'o' then some odd
  else Option.none

/-- How characters are sent on a serial line; each has eight data bits. -/
structure Settings where
  baudRate : UInt32
  parity : Parity
  stopBits : UInt8
deriving DecidableEq

namespace Settings

def standard : Settings := ⟨19200, .even, 1⟩

/-- The number of bits of a character: a start bit, the data, and parity and stop bits. -/
def bitsPerCharacter (s : Settings) : Nat :=
  1 + 8 + (if s.parity = .none then 0 else 1) + s.stopBits.toNat

/-- The microseconds that a character takes. -/
def characterTime (s : Settings) : Nat := s.bitsPerCharacter * 1000000 / s.baudRate.toNat

/-- The nanoseconds of silence between frames: three and a half characters, and a fixed time on
fast lines. -/
def silentInterval (s : Settings) : Nat :=
  if 19200 < s.baudRate then 1750000 else s.characterTime * 1000 * 7 / 2

def text (s : Settings) : String :=
  toString s.baudRate.toNat ++ String.singleton s.parity.letter ++ toString s.stopBits.toNat

end Settings

inductive SettingsFault where
  | missingParity
  | baudRate
  | parity
  | stopBits
deriving DecidableEq

def SettingsFault.message : SettingsFault → String
  | missingParity => "missing parity"
  | baudRate => "invalid baud rate"
  | parity => "invalid parity"
  | stopBits => "invalid stop bits"

def decimal (digits : List Char) : Nat := digits.foldl (fun n c => 10 * n + (c.toNat - 48)) 0

/-- The stop bits that stand behind a parity; without any there are two in place of a parity. -/
def stopBits? (parity : Parity) : List Char → Option UInt8
  | [] => some (if parity = .none then 2 else 1)
  | ['1'] => some 1
  | ['2'] => some 2
  | _ => none

/-- Settings from a text such as `19200E1`, with or without white space around it: digits, a
letter for the parity, and the number of stop bits, which may be left out. -/
def Settings.ofText (text : String) : Except SettingsFault Settings :=
  let s := Text.trim text.toList
  let digits := s.takeWhile (·.isDigit)
  match s.dropWhile (·.isDigit) with
  | [] => .error .missingParity
  | letter :: rest =>
    if digits.isEmpty ∨ UInt32.size ≤ decimal digits ∨ decimal digits = 0 then .error .baudRate
    else
      match Parity.ofLetter? letter with
      | none => .error .parity
      | some parity =>
        match stopBits? parity rest with
        | none => .error .stopBits
        | some bits => .ok ⟨UInt32.ofNat (decimal digits), parity, bits⟩

/-! ### Transmitters -/

inductive Standard where
  | rs232
  | rs485
deriving DecidableEq

/-- Whether the line that requests to send is used, and which level switches the transmitter on. -/
inductive RequestToSend where
  | none
  | up
  | down
deriving DecidableEq

structure Transmitter where
  standard : Standard
  rts : RequestToSend
  /-- Microseconds between switching and sending. -/
  delay : UInt32
deriving DecidableEq

def Transmitter.idle : Transmitter := ⟨.rs232, .none, 0⟩

/-- Whether the transmitter is switched on for every frame and off after it. -/
def Transmitter.toggles (t : Transmitter) : Bool := t.standard == .rs485 && t.rts != .none

end Modbus.Line
