/-
# Lines

Line endings and the division of a text into lines. Templates may end their lines with a line
feed, a carriage return or both; everything after rendering uses the line feed alone.
-/

namespace MailMerge.Text

/-- Turn every carriage return, with the line feed that may follow it, into one line feed. -/
def unifyLineEndings : List Char → List Char
  | [] => []
  | '\r' :: '\n' :: rest => '\n' :: unifyLineEndings rest
  | '\r' :: rest => '\n' :: unifyLineEndings rest
  | c :: rest => c :: unifyLineEndings rest

/-- A text with every line ending written as a line feed. -/
def normalizeLineEndings (text : String) : String :=
  String.ofList (unifyLineEndings text.toList)

/-- Divide a text at every occurrence of `mark`; there is always at least one part. -/
def partsAt (mark : Char) : List Char → List (List Char)
  | [] => [[]]
  | c :: rest =>
    if c = mark then [] :: partsAt mark rest
    else match partsAt mark rest with
      | [] => [[c]]
      | part :: parts => (c :: part) :: parts

/-- Drop one carriage return from the end of a line. -/
def dropFinalReturn (line : List Char) : List Char :=
  match line.getLast? with
  | some '\r' => line.dropLast
  | _ => line

/-- The lines of a text. A line ends at a line feed, which takes one carriage return before it
along; a last line without a line feed keeps what it holds, and is no line when it is empty. -/
def lines (text : List Char) : List (List Char) :=
  match (partsAt '\n' text).reverse with
  | [] => []
  | last :: ended =>
    let closed := ended.reverse.map dropFinalReturn
    if last.isEmpty then closed else closed ++ [last]

/-- Divide a text at its first empty line: what stands before the first two line feeds in a row,
and what stands after them. -/
def splitAtEmptyLine : List Char → Option (List Char × List Char)
  | [] => none
  | '\n' :: '\n' :: rest => some ([], rest)
  | c :: rest => (splitAtEmptyLine rest).map fun (before, after) => (c :: before, after)

/-- Parts of a text joined with `separator` between neighbours. -/
def joinWith (separator : List Char) : List (List Char) → List Char
  | [] => []
  | [part] => part
  | part :: parts => part ++ separator ++ joinWith separator parts

end MailMerge.Text
