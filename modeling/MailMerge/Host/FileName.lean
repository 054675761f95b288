/-
# File names

The last name of a path and the ending of a name. A path that leads upwards at its end, or nowhere,
has no last name; an ending follows the last dot of a name unless the name begins with it.
-/

import MailMerge.Text.Lines

namespace MailMerge.Host

open MailMerge.Text

/-- The last name of a path. Empty parts and parts that stay in place are passed over. -/
def lastName? (path : List Char) : Option (List Char) :=
  let names := (partsAt '/' path).filter fun part => part != [] && part != ['.']
  names.getLast?.filter fun name => name != ['.', '.']

/-- The ending of a file name, without its dot. -/
def ending? (name : List Char) : Option (List Char) :=
  match (partsAt '.' name).reverse with
  | last :: before =>
    if before.isEmpty ∨ before = [[]] then none else some last
  | [] => none

end MailMerge.Host
