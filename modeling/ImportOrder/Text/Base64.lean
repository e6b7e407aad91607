import ImportOrder.Text.Basic

/-!
# Base64

Six bits a character, four characters for three bytes. Characters outside the alphabet are skipped, and nothing
is read after the equals signs that fill up the last four.
-/

namespace ImportOrder.Base64

/-- The characters by the six bits that they stand for. -/
def alphabet : Text :=
  "ABCDEFGHIJKLMNOPQRSTUVWXYZabcdefghijklmnopqrstuvwxyz0123456789+/".toList

/-- The six bits of a character. -/
def bits? (c : Char) : Option Nat :=
  alphabet.findIdx? (· == c)

/-- The six-bit numbers of a text up to its end or to equals signs that complete four characters, and whether
that is where it ends. `fill` counts the equals signs since the last number. -/
def collect (count fill : Nat) : Text → List Nat × Bool
  | [] => ([], count % 4 == 0)
  | c :: rest =>
    if c == '=' then
      if 2 ≤ count % 4 then
        if 4 ≤ count % 4 + (fill + 1) then ([], true) else collect count (fill + 1) rest
      else collect count fill rest
    else
      match bits? c with
      | none => collect count fill rest
      | some n =>
        let (numbers, ended) := collect (count + 1) 0 rest
        (n :: numbers, ended)

/-- The whole bytes that six-bit numbers hold. -/
def bytesOf : List Nat → List UInt8
  | a :: b :: c :: d :: rest =>
    (a * 4 + b / 16).toUInt8 :: (b % 16 * 16 + c / 4).toUInt8 :: (c % 4 * 64 + d).toUInt8 :: bytesOf rest
  | [a, b, c] => [(a * 4 + b / 16).toUInt8, (b % 16 * 16 + c / 4).toUInt8]
  | [a, b] => [(a * 4 + b / 16).toUInt8]
  | _ => []

/-- The bytes that a text stands for, unless its last four characters are not complete. -/
def decode? (t : Text) : Option (List UInt8) :=
  let (numbers, ended) := collect 0 0 t
  if ended then some (bytesOf numbers) else none

end ImportOrder.Base64
