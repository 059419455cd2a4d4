import Conduit.Text.Printable

/-!
Quoted text as diagnostics show it: in double quotes, with a backslash before quotes and backslashes,
short escapes for tab, line feed, carriage return and NUL, and hexadecimal escapes for every other
character that would not be seen.
-/
namespace Conduit.Text

def hexDigits (n : Nat) : List Char := Nat.toDigits 16 n

def escapeByNumber (c : Char) : List Char :=
  '\\' :: 'u' :: '\x7b' :: (hexDigits c.toNat ++ ['\x7d'])

def quoteChar (c : Char) : List Char :=
  if c = '"' then ['\\', '"']
  else if c = '\\' then ['\\', '\\']
  else if c = '\t' then ['\\', 't']
  else if c = '\n' then ['\\', 'n']
  else if c = '\r' then ['\\', 'r']
  else if c = Char.ofNat 0 then ['\\', '0']
  else if isCombining c || !isPrintable c then escapeByNumber c
  else [c]

def quoted (s : String) : String :=
  String.ofList ('"' :: (s.toList.flatMap quoteChar ++ ['"']))

end Conduit.Text
