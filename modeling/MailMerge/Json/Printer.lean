/-
# Compact JSON text

The text of a value without spaces. Strings escape the quote, the backslash and the control
characters below the space, and nothing else. A floating-point number is written by its shortest
decimal and always shows a fraction or an exponent.
-/

import MailMerge.Decimal.FloatText
import MailMerge.Json.Value
import MailMerge.Text.Lines

namespace MailMerge.Json

open MailMerge.Text

/-- Floating-point numbers are positional while the leading digit has an exponent from minus five
to fifteen; beyond that the exponent shows its sign. -/
def floatLayout : Decimal.FloatLayout where
  leastPositional := -5
  greatestPositional := 15
  wholeSuffix := ['.', '0']
  exponentMark := ['e']
  positiveExponentSign := ['+']

/-- A character inside a string. -/
def escapeChar (c : Char) : List Char :=
  if c = '"' then ['\\', '"']
  else if c = '\\' then ['\\', '\\']
  else if c.toNat = 8 then ['\\', 'b']
  else if c.toNat = 9 then ['\\', 't']
  else if c.toNat = 10 then ['\\', 'n']
  else if c.toNat = 12 then ['\\', 'f']
  else if c.toNat = 13 then ['\\', 'r']
  else if c.toNat < 32 then
    ['\\', 'u', '0', '0', hexDigitLower (c.toNat / 16), hexDigitLower (c.toNat % 16)]
  else [c]

/-- A string in quotes. -/
def writeString (s : String) : List Char :=
  '"' :: s.toList.flatMap escapeChar ++ ['"']

/-- A number. -/
def Number.write : Number → List Char
  | .integer n =>
    if n.val < 0 then '-' :: decimalDigits n.val.natAbs else decimalDigits n.val.natAbs
  | .float x => floatLayout.write x

/-- A list of written items in brackets. -/
def writeArray (items : List (List Char)) : List Char :=
  '[' :: joinWith [','] items ++ [']']

/-- A list of keys and written values in braces, in the given order. -/
def writeObject (members : List (String × List Char)) : List Char :=
  '\x7b' :: joinWith [','] (members.map fun (key, value) => writeString key ++ ':' :: value) ++
    ['\x7d']

mutual

/-- The text of a value. -/
def Value.write : Value → List Char
  | .null => ['n', 'u', 'l', 'l']
  | .bool true => ['t', 'r', 'u', 'e']
  | .bool false => ['f', 'a', 'l', 's', 'e']
  | .number n => n.write
  | .string s => writeString s
  | .array items => writeArray (writeItems items)
  | .object members => writeObject (writeMembers members)

/-- The texts of the items of an array. -/
def writeItems : List Value → List (List Char)
  | [] => []
  | item :: items => item.write :: writeItems items

/-- The keys of an object with the texts of their values. -/
def writeMembers : List (String × Value) → List (String × List Char)
  | [] => []
  | (key, value) :: members => (key, value.write) :: writeMembers members

end

/-- The text of a value as a string. -/
def Value.compact (value : Value) : String :=
  String.ofList value.write

end MailMerge.Json
