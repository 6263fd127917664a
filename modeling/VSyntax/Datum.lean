import VSyntax.Calendar
import VSyntax.Decimal.Shortest
import VSyntax.Limit
import VSyntax.Quoted

/-!
# Data

The values that a configuration can hold, whatever their kind: keyword lists are data until they are
checked. The module also says how messages write a value and name its kind, which values cannot be
written, and when two values count as the same entry of a list.
-/
namespace VSyntax

/-- A value of a configuration. A table keeps its entries in the order they were written in. -/
inductive Datum where
  | null
  | bool (b : Bool)
  | int (n : Int)
  | real (x : Binary64)
  | text (s : String)
  | date (d : Date)
  | time (t : ClockTime)
  | dateTime (t : DateTime)
  | list (items : List Datum)
  | table (entries : List (String × Datum))
  deriving Repr, Inhabited

namespace Datum

/-- The name of a value's kind in messages. -/
def kindName : Datum → String
  | .null => "NoneType"
  | .bool _ => "bool"
  | .int _ => "int"
  | .real _ => "float"
  | .text _ => "str"
  | .date _ => "date"
  | .time _ => "time"
  | .dateTime _ => "datetime"
  | .list _ => "list"
  | .table _ => "dict"

/-- The name of a value's kind where messages also say where the kind is from. -/
def fullKindName (d : Datum) : String :=
  match d with
  | .date _ | .time _ | .dateTime _ => "datetime." ++ d.kindName
  | _ => d.kindName

/-! ## Written form -/

mutual
/-- The written form of a value in messages. -/
def write : Datum → String
  | .null => "None"
  | .bool b => if b then "True" else "False"
  | .int n => Numeral.int n
  | .real x => Decimal.write x
  | .text s => Quoted.ofString s
  | .date d => d.write
  | .time t => t.write
  | .dateTime t => t.write
  | .list items => "[" ++ writeItems items ++ "]"
  | .table entries => "\x7b" ++ writeEntries entries ++ "\x7d"
/-- The items of a list, parted by commas. -/
def writeItems : List Datum → String
  | [] => ""
  | [d] => d.write
  | d :: ds => d.write ++ ", " ++ writeItems ds
/-- The entries of a table, parted by commas. -/
def writeEntries : List (String × Datum) → String
  | [] => ""
  | [(k, d)] => Quoted.ofString k ++ ": " ++ d.write
  | (k, d) :: rest => Quoted.ofString k ++ ": " ++ d.write ++ ", " ++ writeEntries rest
end

mutual
/-- The first limit that the writing of a value hits where there is room for `room` values inside
each other. -/
def writeLimit? : Nat → Datum → Option Limit
  | 0, _ => some .depthWritten
  | room + 1, d =>
    match d with
    | .int n => if 10 ^ Integer.digitLimit ≤ n.natAbs then some .digitsWritten else none
    | .dateTime t => if room + 1 < t.depth then some .depthWritten else none
    | .list items => itemsLimit? room items
    | .table entries => entriesLimit? room entries
    | _ => none
/-- The first limit that the writing of the items of a list hits. -/
def itemsLimit? : Nat → List Datum → Option Limit
  | _, [] => none
  | room, d :: ds => writeLimit? room d <|> itemsLimit? room ds
/-- The first limit that the writing of the entries of a table hits. A key needs no more room than
its value. -/
def entriesLimit? : Nat → List (String × Datum) → Option Limit
  | _, [] => none
  | room, (_, d) :: rest => writeLimit? room d <|> entriesLimit? room rest
end

/-! ## Sameness -/

/-- The number that a value stands for, as `mantissa · 2 ^ exponent`; a truth value stands for one
or zero. -/
def number? : Datum → Option (Int × Int)
  | .bool b => some (if b then 1 else 0, 0)
  | .int n => some (n, 0)
  | .real (.finite negative m e) => some (if negative then -m else m, e)
  | _ => none

/-- Whether two numbers given by mantissa and exponent are equal. -/
def sameNumber (a b : Int × Int) : Bool :=
  let e := min a.2 b.2
  a.1 * (Nat.pow 2 (a.2 - e).toNat : Int) == b.1 * (Nat.pow 2 (b.2 - e).toNat : Int)

mutual
/-- Whether two values count as the same entry: numbers by their value, tables whatever their
order. -/
def same : Datum → Datum → Bool
  | .null, .null => true
  | .text a, .text b => a == b
  | .date a, .date b => a == b
  | .time a, .time b => a == b
  | .dateTime a, .dateTime b => a.same b
  | .list a, .list b => sameItems a b
  | .table a, .table b => a.length == b.length && sameEntries a b
  | .real (.infinite a), .real (.infinite b) => a == b
  | a, b =>
    match a.number?, b.number? with
    | some m, some n => sameNumber m n
    | _, _ => false
/-- Whether two lists hold the same items in the same order. -/
def sameItems : List Datum → List Datum → Bool
  | [], [] => true
  | a :: as, b :: bs => same a b && sameItems as bs
  | _, _ => false
/-- Whether each entry of the first table is in the second. -/
def sameEntries : List (String × Datum) → List (String × Datum) → Bool
  | [], _ => true
  | (k, a) :: rest, bs =>
    (match bs.lookup k with
      | some b => same a b
      | none => false) && sameEntries rest bs
end

/-- The items that a value yields when it is gone through: the characters of a text, the items of a
list, the names of a table. -/
def items? : Datum → Option (List Datum)
  | .text s => some (s.toList.map fun c => .text (String.singleton c))
  | .list items => some items
  | .table entries => some (entries.map fun e => .text e.1)
  | _ => none

end Datum

end VSyntax
