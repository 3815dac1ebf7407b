import Mathlib.Algebra.GroupWithZero.Nat
import Mathlib.Algebra.Ring.Int.Defs
import Mathlib.Data.Char
import Mathlib.Data.List.Lex
import Emane.Lib.Text

/-!
This module contains the values of configuration parameters, each of one of several types, and the
conversion of the text of a parameter to a number, a truth value or an address.
-/

namespace Emane
namespace ParameterConvert

inductive ConversionException where
  | emptyString
  | outOfRange (parameter : Text)
  | invalidCharacter (parameter : Text) (c : Char)
  | invalidBoolean (parameter : Text)
  | invalidIPAddress (parameter : Text)
  deriving DecidableEq

/--
The second one is the exception of `std::string::substr`.
-/
inductive Exception where
  | conversion (e : ConversionException)
  | outOfRange
  deriving DecidableEq

structure Floating (δ : Type) where
  lt : δ → δ → Bool
  strtod : Text → δ × Bool × Text
  lowest : δ
  max : δ
  floatLowest : δ
  floatMax : δ
  toFloat : δ → δ

def powerOf10 (parameter : Text) : Nat :=
  match parameter.getLast? with
  | some 'G' => 9
  | some 'M' => 6
  | some 'K' => 3
  | _ => 0

def isBlank (c : Char) : Bool :=
  c = ' ' || c = Char.ofNat 9

def stripLeadingWhitespace (s : Text) : Text :=
  if s.all isBlank then s else s.dropWhile isBlank

def movePoint (power : Nat) (s : Text) : Text :=
  match s.idxOf? '.' with
  | some indexPoint =>
    let numberOfDigitsAfterPoint := s.length - indexPoint - 1
    let s :=
      if numberOfDigitsAfterPoint > power then
        s.take (indexPoint + power) ++ '.' :: s.drop (indexPoint + power)
      else
        s ++ List.replicate (power - numberOfDigitsAfterPoint) '0'
    -- the original decimal point
    s.eraseIdx indexPoint
  | none => s ++ List.replicate power '0'

def stripLeadingZeros (s : Text) : Except Exception Text :=
  let sign := if s.head? = some '+' ∨ s.head? = some '-' then 1 else 0
  match (s.drop sign).dropWhile (fun c => c = '0') with
  | [] => .error .outOfRange
  | digits => .ok (s.take sign ++ digits)

def scaleNumericalStringRepresentation (parameter : Text) : Except Exception Text :=
  if powerOf10 parameter ≠ 0 then
    stripLeadingZeros (movePoint (powerOf10 parameter) (stripLeadingWhitespace parameter.dropLast))
  else
    .ok parameter

def cString (s : Text) : Text :=
  s.takeWhile (fun c => c.toNat ≠ 0)

def digitValue (c : Char) : Nat :=
  if c.isDigit then
    c.toNat - 48
  else if c.isLower then
    c.toNat - 87
  else if c.isUpper then
    c.toNat - 55
  else
    36

structure Number where
  negative : Bool
  magnitude : Nat
  rest : Text
  deriving DecidableEq

def basePart : Text → Nat × Text
  | '0' :: x :: d :: rest =>
    if (x = 'x' ∨ x = 'X') ∧ digitValue d < 16 then (16, d :: rest) else (8, '0' :: x :: d :: rest)
  | '0' :: rest => (8, '0' :: rest)
  | s => (10, s)

def strtol (s : Text) : Number :=
  let trimmed := s.dropWhile Text.isSpace
  let unsigned := if trimmed.head? = some '-' ∨ trimmed.head? = some '+' then trimmed.tail else trimmed
  let base := (basePart unsigned).1
  let digits := (basePart unsigned).2
  if (digits.takeWhile (fun c => digitValue c < base)) = [] then
    ⟨false, 0, s⟩
  else
    ⟨trimmed.head? = some '-', (digits.takeWhile (fun c => digitValue c < base)).foldl
      (fun n c => n * base + digitValue c) 0,
      digits.dropWhile (fun c => digitValue c < base)⟩

def checkEnd {β : Type} (parameter rest : Text) (value : β) : Except Exception β :=
  match rest with
  | [] => .ok value
  | c :: _ => .error (.conversion (.invalidCharacter parameter c))

def toINT64 (min max : Int) (parameter : Text) : Except Exception Int :=
  if parameter = [] then
    .error (.conversion .emptyString)
  else do
    let tmpParameter ← scaleNumericalStringRepresentation parameter
    let number := strtol (cString tmpParameter)
    let value := if number.negative then -(number.magnitude : Int) else number.magnitude
    if value < -2^63 ∨ value > 2^63 - 1 ∨ value < min ∨ value > max then
      .error (.conversion (.outOfRange parameter))
    else
      checkEnd parameter number.rest value

def toUINT64 (min max : Nat) (parameter : Text) : Except Exception Nat :=
  if parameter = [] then
    .error (.conversion .emptyString)
  else do
    let tmpParameter ← scaleNumericalStringRepresentation parameter
    let number := strtol (cString tmpParameter)
    let value := if number.negative then (2^64 - number.magnitude) % 2^64 else number.magnitude
    if number.magnitude > 2^64 - 1 ∨ value < min ∨ value > max then
      .error (.conversion (.outOfRange parameter))
    else
      checkEnd parameter number.rest value

def strcasecmp (s t : Text) : Bool :=
  (cString s).map Char.toLower = t

def toBool (parameter : Text) : Except Exception Bool :=
  if strcasecmp parameter ['o', 'n'] || strcasecmp parameter ['y', 'e', 's'] || strcasecmp parameter
    ['t', 'r', 'u', 'e']
      || strcasecmp parameter ['1'] then
    .ok true
  else if strcasecmp parameter ['o', 'f', 'f'] || strcasecmp parameter
    ['n', 'o'] || strcasecmp parameter ['f', 'a', 'l', 's', 'e']
      || strcasecmp parameter ['0'] then
    .ok false
  else
    .error (.conversion (.invalidBoolean parameter))

def toDouble {δ : Type} (f : Floating δ) (min max : δ) (parameter : Text) : Except Exception δ :=
  if parameter = [] then
    .error (.conversion .emptyString)
  else do
    let tmpParameter ← scaleNumericalStringRepresentation parameter
    let number := f.strtod (cString tmpParameter)
    if number.2.1 ∨ f.lt number.1 min ∨ f.lt max number.1 then
      .error (.conversion (.outOfRange parameter))
    else
      checkEnd parameter number.2.2 number.1

def toINETAddr {α : Type} (set : Text → Option α) (parameter : Text) : Except Exception α :=
  match set parameter with
  | some addr => .ok addr
  | none => .error (.conversion (.invalidIPAddress parameter))

end ParameterConvert

inductive AnyType where
  | int64
  | uint64
  | int32
  | uint32
  | int16
  | uint16
  | int8
  | uint8
  | float
  | double
  | inetAddr
  | bool
  | string
  deriving DecidableEq

inductive Any (δ α : Type) where
  | int64 (value : Int64)
  | uint64 (value : UInt64)
  | int32 (value : Int32)
  | uint32 (value : UInt32)
  | int16 (value : Int16)
  | uint16 (value : UInt16)
  | int8 (value : Int8)
  | uint8 (value : UInt8)
  | float (value : δ)
  | double (value : δ)
  | inetAddr (value : α)
  | bool (value : Bool)
  | string (value : Text)
  deriving DecidableEq

inductive AnyException where
  | conversionFailure (e : ParameterConvert.ConversionException)
  | typeMismatch
  deriving DecidableEq

structure Platform (δ α : Type) where
  floating : ParameterConvert.Floating δ
  doubleToString : δ → Text
  floatToString : δ → Text
  addrSet : Text → Option α
  addrStr : α → Text
  pcreCompile : Text → Bool
  pcreExec : Text → Text → Bool

namespace Any

variable {δ α : Type}

def getType : Any δ α → AnyType
  | int64 _ => .int64
  | uint64 _ => .uint64
  | int32 _ => .int32
  | uint32 _ => .uint32
  | int16 _ => .int16
  | uint16 _ => .uint16
  | int8 _ => .int8
  | uint8 _ => .uint8
  | float _ => .float
  | double _ => .double
  | inetAddr _ => .inetAddr
  | bool _ => .bool
  | string _ => .string

def signedToString (n : Int) : Text :=
  if n < 0 then '-' :: Text.decimal n.natAbs else Text.decimal n.natAbs

def toString (p : Platform δ α) : Any δ α → Text
  | int64 value => signedToString value.toInt
  | uint64 value => Text.decimal value.toNat
  | int32 value => signedToString value.toInt
  | uint32 value => Text.decimal value.toNat
  | int16 value => signedToString value.toInt
  | uint16 value => Text.decimal value.toNat
  | int8 value => signedToString value.toInt
  | uint8 value => Text.decimal value.toNat
  | float value => p.floatToString value
  | double value => p.doubleToString value
  | inetAddr value => p.addrStr value
  | bool value => Text.decimal value.toNat
  | string value => value

def lt (p : Platform δ α) : Any δ α → Any δ α → Except AnyException Bool
  | int64 a, int64 b => .ok (a < b)
  | int32 a, int32 b => .ok (a < b)
  | int16 a, int16 b => .ok (a < b)
  | int8 a, int8 b => .ok (a < b)
  | uint64 a, uint64 b => .ok (a < b)
  | uint32 a, uint32 b => .ok (a < b)
  | uint16 a, uint16 b => .ok (a < b)
  | uint8 a, uint8 b => .ok (a < b)
  | bool a, bool b => .ok (a.toNat < b.toNat)
  | float a, float b => .ok (p.floating.lt a b)
  | double a, double b => .ok (p.floating.lt a b)
  | string a, string b => .ok (a < b)
  | _, _ => .error .typeMismatch

inductive CreateException where
  | any (e : AnyException)
  | outOfRange
  deriving DecidableEq

def converted {β : Type} (any : β → Any δ α) (r : Except ParameterConvert.Exception β)
    : Except CreateException (Any δ α) :=
  -- a `ConversionException` is caught, the exception of `std::string::substr` is not
  match r with
  | .ok value => .ok (any value)
  | .error (.conversion e) => .error (.any (.conversionFailure e))
  | .error .outOfRange => .error .outOfRange

open ParameterConvert in
def create (p : Platform δ α) (value : Text) : AnyType → Except CreateException (Any δ α)
  | .int64 => converted (fun n => int64 (.ofInt n)) (toINT64 (-2^63) (2^63 - 1) value)
  | .uint64 => converted (fun n => uint64 (.ofNat n)) (toUINT64 0 (2^64 - 1) value)
  | .int32 => converted (fun n => int32 (.ofInt n)) (toINT64 (-2^31) (2^31 - 1) value)
  | .uint32 => converted (fun n => uint32 (.ofNat n)) (toUINT64 0 (2^32 - 1) value)
  | .int16 => converted (fun n => int16 (.ofInt n)) (toINT64 (-2^15) (2^15 - 1) value)
  | .uint16 => converted (fun n => uint16 (.ofNat n)) (toUINT64 0 (2^16 - 1) value)
  | .int8 => converted (fun n => int8 (.ofInt n)) (toINT64 (-2^7) (2^7 - 1) value)
  | .uint8 => converted (fun n => uint8 (.ofNat n)) (toUINT64 0 (2^8 - 1) value)
  | .float =>
    converted (fun d => float (p.floating.toFloat d))
      (toDouble p.floating p.floating.floatLowest p.floating.floatMax value)
  | .double => converted double (toDouble p.floating p.floating.lowest p.floating.max value)
  | .inetAddr => converted inetAddr (toINETAddr p.addrSet value)
  | .bool => converted bool (toBool value)
  | .string => .ok (string (cString value))

end Any
end Emane
