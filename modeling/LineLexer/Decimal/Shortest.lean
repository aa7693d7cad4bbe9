/-!
The shortest decimal text of a floating-point number. A double is `mantissa * 2 ^ exponent`, and the
reals that round to it form an interval; of the decimals with the fewest digits in that interval the
nearest is taken, and of two equally near the even one. All of this is exact arithmetic on natural
numbers. How the digits are laid out is a record of its own.
-/

namespace LineLexer.Decimal

/-- The magnitude `mantissa * 2 ^ exponent` of a double. -/
structure Binary where
  mantissa : Nat
  exponent : Int
  deriving DecidableEq, Repr

/-- The number `digits * 10 ^ exponent`. -/
structure Scaled where
  digits : Nat
  exponent : Int
  deriving DecidableEq, Repr

namespace Binary

/-- The magnitude that the bits of a finite double stand for. -/
def ofBits (bits : Nat) : Binary :=
  let fraction := bits % Nat.pow 2 52
  match bits / Nat.pow 2 52 % Nat.pow 2 11 with
  | 0 => ⟨fraction, -1074⟩
  | biased + 1 => ⟨fraction + Nat.pow 2 52, biased - 1074⟩

/-- `b * 2 ^ e` on the common scale of `2 ^ e` and `10 ^ k`. -/
def onScale (b : Nat) (e k : Int) : Nat := b * Nat.pow 2 e.toNat * Nat.pow 10 (-k).toNat

/-- `c * 10 ^ k` on the common scale of `2 ^ e` and `10 ^ k`. -/
def decimalOnScale (c : Nat) (e k : Int) : Nat := c * Nat.pow 10 k.toNat * Nat.pow 2 (-e).toNat

/-- The reals that round to the double, in quarters of its last place; the ends count if the
mantissa is even. A power of two has a nearer neighbour below, except at the bottom. -/
def interval (x : Binary) : Nat × Nat :=
  let below := if x.mantissa = Nat.pow 2 52 ∧ x.exponent ≠ -1074 then 1 else 2
  (4 * x.mantissa - below, 4 * x.mantissa + 2)

/-- Whether `c * 10 ^ k` rounds to the double. -/
def holds (x : Binary) (c : Nat) (k : Int) : Bool :=
  let (low, high) := x.interval
  let e := x.exponent - 2
  let c := decimalOnScale c e k
  if x.mantissa % 2 = 0 then onScale low e k ≤ c && c ≤ onScale high e k
  else onScale low e k < c && c < onScale high e k

/-- The greatest multiple of `10 ^ k` that is not above the double. -/
def floor (x : Binary) (k : Int) : Nat :=
  onScale x.mantissa x.exponent k / (Nat.pow 10 k.toNat * Nat.pow 2 (-x.exponent).toNat)

/-- The exponent of the leading decimal digit of a positive double. -/
def leading (x : Binary) : Int := (Nat.toDigits 10 (x.floor (-400))).length - 401

/-- The nearer of the multiples of `10 ^ k` around the double that rounds to it. -/
def nearest? (x : Binary) (k : Int) : Option Nat :=
  let low := x.floor k
  let value := onScale x.mantissa x.exponent k
  let below := value - decimalOnScale low x.exponent k
  let above := decimalOnScale (low + 1) x.exponent k - value
  match x.holds low k, x.holds (low + 1) k with
  | true, true => some (if below < above ∨ (below = above ∧ low % 2 = 0) then low else low + 1)
  | true, false => some low
  | false, true => some (low + 1)
  | false, false => none

end Binary

namespace Scaled

/-- The same number without zeros at the end of its digits. -/
def normal (x : Scaled) : Scaled :=
  if x.digits ≠ 0 ∧ x.digits % 10 = 0 then normal ⟨x.digits / 10, x.exponent + 1⟩ else x
termination_by x.digits
decreasing_by omega

end Scaled

/-- The shortest decimal that reads back as the given double. Seventeen digits always do. -/
def shortest (x : Binary) : Scaled :=
  if x.mantissa = 0 then ⟨0, 0⟩
  else
    let found := (List.range 17).findSome? fun (n : Nat) =>
      let k := x.leading - n
      (x.nearest? k).map fun digits => Scaled.mk digits k
    (found.getD ⟨x.mantissa, x.exponent⟩).normal

/-- The exponents of the leading digit, from `least` to `greatest`, for which no exponent is
written. -/
structure Layout where
  least : Int
  greatest : Int

namespace Layout

def zeros (n : Nat) : List Char := List.replicate n '0'

/-- Digits with a point after the one of weight one, and at least one digit on both sides. -/
def point (digits : List Char) (leading : Int) : List Char :=
  if leading < 0 then '0' :: '.' :: zeros (-leading - 1).toNat ++ digits
  else
    let whole := leading.toNat + 1
    if digits.length ≤ whole then digits ++ zeros (whole - digits.length) ++ ['.', '0']
    else digits.take whole ++ '.' :: digits.drop whole

def scientific (digits : List Char) (leading : Int) : List Char :=
  let tail := digits.drop 1
  digits.take 1 ++ (if tail.isEmpty then [] else '.' :: tail)
    ++ 'e' :: (if leading < 0 then '-' else '+') :: Nat.toDigits 10 leading.natAbs

def render (l : Layout) (x : Scaled) : List Char :=
  let digits := Nat.toDigits 10 x.digits
  let leading := x.exponent + digits.length - 1
  if l.least ≤ leading ∧ leading ≤ l.greatest then point digits leading
  else scientific digits leading

end Layout

/-- The text of a finite double. Zero keeps its sign. -/
def text (l : Layout) (x : Float) : String :=
  let bits := x.toBits.toNat
  let sign := if bits / Nat.pow 2 63 = 1 then ['-'] else []
  String.ofList (sign ++ l.render (shortest (.ofBits bits)))

end LineLexer.Decimal
