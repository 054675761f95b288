/-
# JSON values

The values that templates are filled with, that annotate trace entries and that options hold.
Integers of a signed or an unsigned 64-bit word are kept exactly and every other number as a
floating-point number. The members of an object are kept in increasing order of their keys, which
is the order of their UTF-8 bytes, and a key occurs once.
-/

namespace MailMerge.Json

/-- The integers that are kept exactly: those of a signed or an unsigned word of 64 bits. -/
abbrev Integer := { n : Int // -9223372036854775808 ≤ n ∧ n < 18446744073709551616 }

/-- A JSON number. -/
inductive Number where
  | integer (n : Integer)
  | float (x : Float)

/-- A JSON value. -/
inductive Value where
  | null
  | bool (b : Bool)
  | number (n : Number)
  | string (s : String)
  | array (items : List Value)
  | object (members : List (String × Value))
  deriving Inhabited

/-- The members of an object. -/
abbrev Members := List (String × Value)

/-- The natural number that is one of the exact integers, or the greatest of these. -/
def Integer.ofNat (n : Nat) : Integer :=
  ⟨min n 18446744073709551615, by omega⟩

/-- A natural number as a JSON number. -/
def Number.ofNat (n : Nat) : Number :=
  .integer (.ofNat n)

/-- The natural number a JSON number is, when it is an exact integer and not negative. -/
def Number.toNat? : Number → Option Nat
  | .integer n => if 0 ≤ n.val then some n.val.toNat else none
  | .float _ => none

/-- A natural number as a JSON value. -/
def Value.ofNat (n : Nat) : Value :=
  .number (.ofNat n)

/-- A text as a JSON value. -/
def Value.ofText (text : List Char) : Value :=
  .string (String.ofList text)

namespace Members

/-- The value of a key. -/
def get? (members : Members) (key : String) : Option Value :=
  match members with
  | [] => none
  | (k, value) :: rest => if k = key then some value else get? rest key

/-- Give a key a value: in place when the key is there, else at the place its order asks for. -/
def insert (members : Members) (key : String) (value : Value) : Members :=
  match members with
  | [] => [(key, value)]
  | (k, v) :: rest =>
    if key < k then (key, value) :: (k, v) :: rest
    else if key = k then (key, value) :: rest
    else (k, v) :: insert rest key value

/-- The members with the given keys and values. Of two values for a key the later counts. -/
def ofList (pairs : List (String × Value)) : Members :=
  pairs.foldl (fun members (key, value) => members.insert key value) []

/-- The keys, in increasing order. -/
def keys (members : Members) : List String :=
  members.map Prod.fst

end Members

end MailMerge.Json
