import ImportOrder.Decimal
import ImportOrder.Value.Basic

/-!
# Values as keys

Numbers of all types are one key when they are equal, and truth values count as one and zero. Moments are one key
when they are the same, though shown by other clocks. What is no number is the same key as itself only where it is
written by its name. A repeated key keeps its first place.
-/

namespace ImportOrder.Value

/-- The whole number that a floating-point number equals, if it does. -/
def wholeOf? (bits : UInt64) : Option Int :=
  let magnitude := bits &&& 0x7fffffffffffffff
  if infinity ≤ magnitude then none
  else
    let b := Decimal.Binary.ofBits magnitude
    let num := b.m * Nat.pow 2 b.q.toNat
    let den := Nat.pow 2 (-b.q).toNat
    if num % den = 0 then
      let n : Int := (num / den : Nat)
      some (if bits >>> 63 = 1 then -n else n)
    else none

/-- The whole number that a value equals, if it does. -/
def integral? : Value → Option Int
  | bool b => some (if b then 1 else 0)
  | int n => some n
  | real bits => wholeOf? bits
  | _ => none

/-- Whether two values are the same key. -/
def sameKey (a b : Value) : Bool :=
  match integral? a, integral? b with
  | some m, some n => m == n
  | none, none =>
    match a, b with
    | null, null => true
    | real x, real y => x == y && x != namelessNan
    | text s, text t => s == t
    | bytes s, bytes t => s == t
    | date d, date e => d == e
    | moment m, moment n => m.same n
    | _, _ => false
  | _, _ => false

/-- Sets what stands at a key; a new key goes to the end. -/
def setAt {α : Type} (key : Value) (entry : α) : List (Value × α) → List (Value × α)
  | [] => [(key, entry)]
  | first :: rest =>
    if sameKey first.1 key then (first.1, entry) :: rest else first :: setAt key entry rest

end ImportOrder.Value
