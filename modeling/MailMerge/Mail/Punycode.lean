/-
# Punycode

Labels of any script spelled in ASCII. The ASCII characters of a label come first; after a hyphen,
every other character is told by the number of steps from the one before, where a step goes to the
next position in the label and, from the last position, to the next code point. Numbers are written
in base thirty-six with digits whose range adapts to the size of earlier numbers.
-/

import MailMerge.Text.Ascii

namespace MailMerge.Mail.Punycode

/-- The digit of a value below thirty-six: letters, then decimal digits. -/
def digit (value : Nat) : Char :=
  if value < 26 then Char.ofNat ('a'.toNat + value) else Char.ofNat ('0'.toNat + (value - 26))

/-- The least value at which a digit at a place does not end a number. Places count from one. -/
def threshold (bias place : Nat) : Nat := min 26 (max 1 (36 * place - bias))

/-- The digits of a number, least significant first. -/
def digits (bias place n : Nat) : List Char :=
  let t := threshold bias place
  if n < t then [digit n]
  else digit (t + (n - t) % (36 - t)) :: digits bias (place + 1) ((n - t) / (36 - t))
termination_by n
decreasing_by
  have positive : 1 ≤ threshold bias place := by unfold threshold; omega
  have reduced := Nat.div_le_self (n - threshold bias place) (36 - threshold bias place)
  omega

/-- Scale a step count down until the usual digits can tell it, counting the scalings. -/
def scaled (steps scalings : Nat) : Nat × Nat :=
  if 455 < steps then scaled (steps / 35) (scalings + 1) else (steps, scalings)
termination_by steps
decreasing_by omega

/-- The bias after a number was written. `count` characters are in place then. -/
def nextBias (steps count : Nat) (isFirst : Bool) : Nat :=
  let steps := if isFirst then steps / 700 else steps / 2
  let (steps, scalings) := scaled (steps + steps / count) 0
  36 * scalings + 36 * steps / (steps + 38)

/-- A label that is being spelled. -/
structure Spelling where
  written : List Char
  /-- Steps since the last character. -/
  steps : Nat
  bias : Nat
  /-- The number of characters in place. -/
  count : Nat

/-- Pass a position of the label while characters of one code point are put in place. -/
def Spelling.pass (code : Nat) (spelling : Spelling) (c : Char) : Spelling :=
  if c.toNat < code then { spelling with steps := spelling.steps + 1 }
  else if c.toNat = code then
    { written := spelling.written ++ digits spelling.bias 1 spelling.steps
      steps := 0
      bias := nextBias spelling.steps (spelling.count + 1) spelling.written.isEmpty
      count := spelling.count + 1 }
  else spelling

/-- Put the characters of increasing code points in place. Those below `next` are in place. -/
def spell (label : List Char) (next : Nat) (spelling : Spelling) : List Nat → List Char
  | [] => spelling.written
  | code :: codes =>
    let before := { spelling with
      steps := spelling.steps + (code - next) * (spelling.count + 1) }
    let after := label.foldl (Spelling.pass code) before
    spell label (code + 1) { after with steps := after.steps + 1 } codes

/-- The spelling of a label. -/
def encode (label : List Char) : List Char :=
  let basic := label.filter fun c => c.toNat < 128
  let codes := ((label.map Char.toNat).filter fun code => 128 ≤ code).mergeSort.eraseDups
  basic ++ (if basic.isEmpty then [] else ['-']) ++
    spell label 128 ⟨[], 0, 72, basic.length⟩ codes

end MailMerge.Mail.Punycode
