import ExchangeGateway.Connector
import ExchangeGateway.Lib.FixedPoint

/-! Exact fixed-point decimals (`core/decimal.cpp`). Machine integers are integers with an
explicit reduction: `wide` for the 128-bit intermediates and `longLong` for the cast back to
64 bits, both two's complement. -/
namespace ExchangeGateway

structure Decimal where
  unscaled : ℤ := 0
  scale : ℕ := 0
  deriving DecidableEq, Repr

def kMaxDecimalScale : ℕ := 8
def kMaxInternalScale : ℕ := 16
def kLlMax : ℤ := 2 ^ 63 - 1
def kLlMin : ℤ := -2 ^ 63

/-- Reduction to a signed 128-bit integer (`Wide`). -/
def wide (x : ℤ) : ℤ := x.bmod (2 ^ 128)

/-- Reduction to a signed 64-bit integer (`static_cast<long long>`). -/
def longLong (x : ℤ) : ℤ := x.bmod (2 ^ 64)

def pow10 : ℕ → ℤ
  | 0 => 1
  | exponent + 1 => wide (pow10 exponent * 10)

/-- Rescale both operands to their common (max) scale. -/
def Decimal.aligned (lhs rhs : Decimal) : ℤ × ℤ :=
  let scale := max lhs.scale rhs.scale
  (wide (lhs.unscaled * pow10 (scale - lhs.scale)),
    wide (rhs.unscaled * pow10 (scale - rhs.scale)))

def fitsLl (value : ℤ) : Bool := value ≤ kLlMax && value ≥ kLlMin

def Decimal.normalized (value : Decimal) : Decimal :=
  let (unscaled, scale) := FixedPoint.stripZeros value.unscaled value.scale
  if unscaled = 0 then ⟨unscaled, 0⟩ else ⟨unscaled, scale⟩

def overflowError (op : String) : Error := ⟨"protocol", "decimal " ++ op ++ " overflow"⟩

structure DecimalScan where
  unscaled : ℤ := 0
  scale : ℕ := 0
  inFraction : Bool := false
  anyDigit : Bool := false
  deriving DecidableEq, Repr

def invalidDecimal (text : List Char) : Error :=
  ⟨"protocol", "invalid decimal string: " ++ String.ofList text⟩

/-- The character loop of `parse_signed_decimal` over the rest of `text`. -/
def scanDecimal (text : List Char) : List Char → DecimalScan → Result DecimalScan
  | [], scan => .ok scan
  | c :: rest, scan =>
    if c = '.' then
      if scan.inFraction then .error (invalidDecimal text)
      else scanDecimal text rest { scan with inFraction := true }
    else if c < '0' || c > '9' then .error (invalidDecimal text)
    else if scan.inFraction && scan.scale ≥ kMaxDecimalScale then
      .error ⟨"protocol", "more than " ++ toString kMaxDecimalScale ++ " fractional digits: " ++
        String.ofList text⟩
    else
      let digit : ℤ := (c.toNat : ℤ) - '0'.toNat
      -- both overflow builtins: the multiplication first, then the addition
      if !fitsLl (scan.unscaled * 10) || !fitsLl (scan.unscaled * 10 + digit) then
        .error (overflowError "parse")
      else
        scanDecimal text rest
          { scan with
            unscaled := scan.unscaled * 10 + digit
            anyDigit := true
            scale := if scan.inFraction then scan.scale + 1 else scan.scale }

/-- `parse_signed_decimal` after the sign was removed from the view. -/
def parseMagnitude (negative : Bool) (text : List Char) : Result Decimal :=
  if text = [] || text.head? = some '.' || text.getLast? = some '.' then
    .error (invalidDecimal text)
  else
    match scanDecimal text text {} with
    | .error error => .error error
    | .ok scan =>
      if !scan.anyDigit then .error (invalidDecimal text)
      else .ok (Decimal.normalized
        ⟨if negative then -scan.unscaled else scan.unscaled, scan.scale⟩)

def parseSignedDecimal (text : String) : Result Decimal :=
  match text.toList with
  | [] => .error (invalidDecimal [])
  | c :: rest => if c = '-' then parseMagnitude true rest else parseMagnitude false (c :: rest)

def parseDecimal (text : String) : Result Decimal :=
  if text.toList.head? = some '-' then
    .error ⟨"protocol", "negative values are not accepted here: " ++ text⟩
  else parseSignedDecimal text

def decimalToString (value : Decimal) : String :=
  if value.scale = 0 then toString value.unscaled
  else
    let digits := (Nat.repr value.unscaled.natAbs).toList.leftpad (value.scale + 1) '0'
    let split := digits.length - value.scale
    let text := digits.take split ++ '.' :: digits.drop split
    String.ofList (if value.unscaled < 0 then '-' :: text else text)

def Decimal.compare (lhs rhs : Decimal) : ℤ :=
  let (lhs, rhs) := lhs.aligned rhs
  if lhs < rhs then -1 else if lhs > rhs then 1 else 0

def Decimal.isZero (value : Decimal) : Bool := value.unscaled = 0

def Decimal.negate (value : Decimal) : Decimal := ⟨longLong (-value.unscaled), value.scale⟩

def Decimal.add (lhs rhs : Decimal) : Result Decimal :=
  let scale := max lhs.scale rhs.scale
  let (lhs, rhs) := lhs.aligned rhs
  let sum := wide (lhs + rhs)
  if !fitsLl sum then .error (overflowError "add") else .ok (Decimal.normalized ⟨longLong sum, scale⟩)

def Decimal.sub (lhs rhs : Decimal) : Result Decimal :=
  let scale := max lhs.scale rhs.scale
  let (lhs, rhs) := lhs.aligned rhs
  let difference := wide (lhs - rhs)
  if !fitsLl difference then .error (overflowError "sub")
  else .ok (Decimal.normalized ⟨longLong difference, scale⟩)

/-- The difference clamped at zero. The cast to 64 bits is not checked. -/
def Decimal.subClampedZero (lhs rhs : Decimal) : Decimal :=
  let scale := max lhs.scale rhs.scale
  let (lhs, rhs) := lhs.aligned rhs
  if lhs ≤ rhs then {}
  else Decimal.normalized ⟨longLong (wide (lhs - rhs)), scale⟩

def Decimal.mul (lhs rhs : Decimal) : Result Decimal :=
  let product := wide (lhs.unscaled * rhs.unscaled)
  if !fitsLl product then .error (overflowError "mul")
  else .ok (Decimal.normalized ⟨longLong product, lhs.scale + rhs.scale⟩)

/-- The operands of `div` with the fractional digits that make the integer quotient carry
`maxScale` of them. -/
def Decimal.divOperands (lhs rhs : Decimal) (maxScale : ℕ) : ℤ × ℤ :=
  let common := max lhs.scale rhs.scale
  (wide (lhs.unscaled * pow10 (common - lhs.scale + maxScale)),
    wide (rhs.unscaled * pow10 (common - rhs.scale)))

/-- The magnitude of a 128-bit integer; that of the least one is not representable. -/
def wideMagnitude (x : ℤ) : ℤ := if x < 0 then wide (-x) else x

def roundedQuotient (lhs rhs : ℤ) : ℤ :=
  if wide (lhs.tmod rhs * 2) ≥ rhs then wide (lhs.tdiv rhs + 1) else lhs.tdiv rhs

def Decimal.div (lhs rhs : Decimal) (maxScale : ℤ) : Result Decimal :=
  if rhs.unscaled = 0 then .error ⟨"protocol", "decimal div by zero"⟩
  else if maxScale < 0 || maxScale > kMaxInternalScale then
    .error ⟨"protocol", "decimal div scale out of range"⟩
  else
    let (lhs, rhs) := lhs.divOperands rhs maxScale.toNat
    let negative := (lhs < 0) != (rhs < 0)
    let magnitude := roundedQuotient (wideMagnitude lhs) (wideMagnitude rhs)
    let quotient := if negative then wide (-magnitude) else magnitude
    if !fitsLl quotient then .error (overflowError "div")
    else .ok (Decimal.normalized ⟨longLong quotient, maxScale.toNat⟩)

end ExchangeGateway
