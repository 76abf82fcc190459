import Std.Data.ExtTreeMap
import LoomHost.Core.Streams
import LoomHost.Lib.Decimal

/-!
# Keymap Tables

The tables of key codes of `loom-proto/src/keymap.rs`, parsed from the text of a CSV
file: comments and blank lines are skipped, and any other line has a code and what it
is mapped to in its first two columns.

The text is a list of characters. A piece of it is quoted in a message as by `{:?}`,
which goes by the tables of Unicode beyond ASCII: these are a parameter.

## Main definitions

* `lines`: The lines of a text.
* `parseI64`: Reading a code.
* `Keymap`: A table.
* `escapeDebug`, `debug`: Quoting.
* `fromCsv`, `get`: Parsing a table, and looking into it.
-/

namespace LoomHost

open Streams

/-- A one-directional table of key codes. -/
structure Keymap where
  map : Std.ExtTreeMap Int64 Int64 := ∅

namespace Keymap

/-- Without the carriage return at the end, if there is one. -/
def stripCr (line : List Char) : List Char :=
  if line.getLast? = some '\r' then line.dropLast else line

/-- The lines, given what is between the line feeds. A carriage return belongs to the
    line feed after it, and what is left after the last line feed is a line if it is
    not empty. -/
def lineEnds : List (List Char) → List (List Char)
  | [] => []
  | [last] => if last.isEmpty then [] else [last]
  | line :: rest => stripCr line :: lineEnds rest

/-- The lines of a text. -/
def lines (text : List Char) : List (List Char) := lineEnds (text.splitOn '\n')

/-- The decimal parser of the standard library: a sign may come first, and the number
    has to fit. -/
def parseI64 (tok : List Char) : Option Int64 :=
  match tok with
  | [] => none
  | ['+'] => none
  | ['-'] => none
  | '+' :: digits => (Decimal.read (2 ^ 63) 0 digits).map fun n : ℕ => Int64.ofInt n
  | '-' :: digits => (Decimal.read (2 ^ 63 + 1) 0 digits).map fun n : ℕ => Int64.ofInt (-n)
  | digits => (Decimal.read (2 ^ 63) 0 digits).map fun n : ℕ => Int64.ofInt n

section Quoting

/-- Whether a character is written as itself between double quotes, if it has no
    escape of its own. -/
def prints (printable : Char → Bool) (c : Char) : Bool :=
  if c.toNat < 0x80 then 0x20 ≤ c.toNat && c.toNat < 0x7f else printable c

/-- A character between double quotes. -/
def escapeDebug (printable : Char → Bool) (c : Char) : List Char :=
  if c = '\x00' then ['\\', '0']
  else if c = '\t' then ['\\', 't']
  else if c = '\r' then ['\\', 'r']
  else if c = '\n' then ['\\', 'n']
  else if c = '\\' then ['\\', '\\']
  else if c = '\x22' then ['\\', '\x22']
  else if prints printable c then [c]
  else ['\\', 'u', '\x7b'] ++ Nat.toDigits 16 c.toNat ++ ['\x7d']

/-- The text in double quotes. A character is `printable` if the tables of Unicode
    call it that, and it does not extend a grapheme. -/
def debug (printable : Char → Bool) (text : List Char) : String :=
  String.ofList (['\x22'] ++ text.flatMap (escapeDebug printable) ++ ['\x22'])

/-- A quote, a tab and a control character within the double quotes. -/
example : (debug (fun _ => true) ['a', '\x22', '\t', '\x7f']).toList =
    ['\x22', 'a', '\\', '\x22', '\\', 't', '\\', 'u', '\x7b', '7', 'f', '\x7d', '\x22'] := by
  decide

end Quoting

variable (printable : Char → Bool)

/-- The rows from the line with index `idx` on, into the table so far. -/
def fromLines (map : Std.ExtTreeMap Int64 Int64) (idx : ℕ) :
    List (List Char) → Except String (Std.ExtTreeMap Int64 Int64)
  | [] => .ok map
  | line :: rest =>
    let line := trim line
    if line.isEmpty || line.head? = some '#' then fromLines map (idx + 1) rest
    else
      match line.splitOn ',' with
      | a :: b :: _ =>
        let a := trim a
        let b := trim b
        match parseI64 a with
        | none =>
          .error ("line " ++ toString (idx + 1) ++ ": bad 'from' value " ++ debug printable a)
        | some source =>
          match parseI64 b with
          | none =>
            .error ("line " ++ toString (idx + 1) ++ ": bad 'to' value " ++ debug printable b)
          | some target => fromLines (map.insert source target) (idx + 1) rest
      | _ => .error ("line " ++ toString (idx + 1) ++ ": expected 'from,to'")

/-- Parse a keymap from CSV text. The error is the text of `Error::Keymap`. -/
def fromCsv (text : List Char) : Except String Keymap :=
  (fromLines printable ∅ 0 (lines text)).map fun map => { map }

/-- Look up a code. -/
def get (km : Keymap) (code : Int64) : Option Int64 := km.map[code]?

end Keymap

end LoomHost
