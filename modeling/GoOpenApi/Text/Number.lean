import GoOpenApi.Text.Blank

/-!
Reading whole numbers. A number is a run of digits, perhaps after one sign; blanks,
underscores and an empty run are refused, and so is a value outside the asked range.
-/

namespace GoOpenApi.Text

def digitValue? (base : Nat) (c : Char) : Option Nat :=
  let n := c.toNat
  let v? :=
    if 48 ≤ n && n ≤ 57 then some (n - 48)
    else if 97 ≤ n && n ≤ 122 then some (n - 87)
    else if 65 ≤ n && n ≤ 90 then some (n - 55)
    else none
  v?.filter (· < base)

/-- The number that a run of digits continues from `acc`. -/
def digitsFrom (base : Nat) : Nat → List Char → Option Nat
  | acc, [] => some acc
  | acc, c :: cs => (digitValue? base c).bind fun d ↦ digitsFrom base (acc * base + d) cs

/-- The value of a non-empty run of digits. -/
def digits? (base : Nat) : List Char → Option Nat
  | [] => none
  | cs => digitsFrom base 0 cs

/-- A number that may be written after a plus sign. -/
def natural? (base : Nat) : List Char → Option Nat
  | '+' :: cs => digits? base cs
  | cs => digits? base cs

/-- A number that may be written after a sign. -/
def integer? (base : Nat) : List Char → Option Int
  | '-' :: cs => (digits? base cs).map fun n ↦ -(n : Int)
  | '+' :: cs => (digits? base cs).map Int.ofNat
  | cs => (digits? base cs).map Int.ofNat

/-- A number of `bits` bits. -/
def unsigned? (bits base : Nat) (cs : List Char) : Option Nat :=
  (natural? base cs).filter (· < Nat.pow 2 bits)

/-- A number of `bits` bits, one of them the sign. -/
def signed? (bits base : Nat) (cs : List Char) : Option Int :=
  let limit := Int.ofNat (Nat.pow 2 (bits - 1))
  (integer? base cs).filter fun n ↦ -limit ≤ n && n < limit

/-- The lowest `width` hexadecimal digits of `n`. -/
def hexList : Nat → Nat → List Char
  | 0, _ => []
  | width + 1, n => hexList width (n / 16) ++ [Nat.digitChar (n % 16)]

end GoOpenApi.Text
