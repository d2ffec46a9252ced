import Reflash.Bytes
import Reflash.Text.Digits

/-!
# Reflash.Bench.Digest — byte strings, long lists and times in a transcript

A transcript stays short and does not depend on when it was made: long byte strings are summed up, the middle of
a long list is left out, and the time in a file name is masked.
-/

namespace Reflash.Bench

/-- The lower-case hexadecimal digits of every byte. -/
def hexBytes (bytes : Bytes) : String := String.ofList (bytes.flatMap Text.lowerPair)

/-- All bytes of a short string; of a long one its length, both ends and the sum of its bytes. -/
def digest (bytes : Bytes) : String :=
  let n := bytes.length
  if n ≤ 16 then hexBytes bytes
  else Text.decimal n ++ ":" ++ hexBytes (bytes.take 8) ++ ".." ++ hexBytes (bytes.drop (n - 4)) ++ ":"
    ++ Text.decimal (bytes.foldl (fun sum b => sum + b.toNat) 0)

/-- The first and the last hundred lines, with a note of how many were left out between them. -/
def shorten (lines : List String) : List String :=
  let n := lines.length
  if n ≤ 200 then lines
  else lines.take 100 ++ ["... " ++ Text.decimal (n - 200) ++ " omitted ..."] ++ lines.drop (n - 100)

/-- The lines of what was printed line by line; a line may hold more line ends.  What follows the last line end
counts when the list is shortened, and is then dropped. -/
def textLines (printed : List String) : List String :=
  (shorten (printed.flatMap (fun line => (Text.fields '\n' line.toList).map String.ofList) ++ [""])).dropLast

/-- Whether a character may stand in a stamp of a time where the pattern has `p`; `0` stands for any digit. -/
def fitsStamp (p c : Char) : Bool := if p = '0' then c.isDigit else p = c

/-- How a stamp of a time is written. -/
def stampPattern : List Char := "0000-00-00-00_00_00".toList

/-- Puts `<TS>` in the place of every stamp of a time; `skip` characters are still to be left out. -/
def maskFrom : (skip : Nat) → List Char → List Char
  | _, [] => []
  | skip + 1, _ :: rest => maskFrom skip rest
  | 0, c :: rest =>
    let head := (c :: rest).take stampPattern.length
    if head.length = stampPattern.length && (stampPattern.zip head).all fun (p, x) => fitsStamp p x then
      "<TS>".toList ++ maskFrom (stampPattern.length - 1) rest
    else c :: maskFrom 0 rest

/-- Puts `<TS>` in the place of every stamp of a time. -/
def maskStamps (text : String) : String := String.ofList (maskFrom 0 text.toList)

end Reflash.Bench
