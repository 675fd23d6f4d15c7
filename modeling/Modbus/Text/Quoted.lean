import Modbus.Text.Hex
import Modbus.Text.Hidden

/-! Quoted text: between quotes, with a backslash before a quote or a backslash, and with every
character that cannot be shown as its code point. -/

namespace Modbus.Text

/-- A character by its code point, as `\u{7f}`. -/
def codePoint (c : Char) : List Char := ("\\u\x7b" ++ lowerHex c.toNat ++ "\x7d").toList

def quoteChar (c : Char) : List Char :=
  if c = '"' then ['\\', '"']
  else if c = '\\' then ['\\', '\\']
  else if c = '\t' then ['\\', 't']
  else if c = '\r' then ['\\', 'r']
  else if c = '\n' then ['\\', 'n']
  else if c.toNat = 0 then ['\\', '0']
  else if c.toNat < 0x20 || c.toNat = 0x7F || isHidden c then codePoint c
  else [c]

def quoted (s : String) : String :=
  String.ofList ('"' :: s.toList.flatMap quoteChar ++ ['"'])

end Modbus.Text
