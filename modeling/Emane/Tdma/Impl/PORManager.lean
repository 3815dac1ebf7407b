import Mathlib.Algebra.Order.Floor.Ring
import Mathlib.Data.Rat.Floor
import Emane.Lib.SortedMap
import Emane.Configuration.Impl.ParameterConvert

/-!
This module contains the curves of the packet completion rate: the document that they are loaded
from, the interpolation between the entries of a curve, and the lookup of a probability of
reception. Numbers of floating point are exact here.
-/

namespace Emane
namespace Tdma
namespace Pcr

open ParameterConvert

def collapse (s : Text) : Text :=
  Text.join ' '
    ((Text.split ' '
    (s.map (fun c => if c.toNat = 9 ∨ c.toNat = 10 ∨ c.toNat = 13 then ' ' else c))).filter
    (· ≠ []))

def Digits (s : Text) : Prop :=
  s ≠ [] ∧ ∀ c ∈ s, c.isDigit = true

instance (s : Text) : Decidable (Digits s) :=
  @instDecidableAnd _ _ inferInstance (List.decidableBAll _ s)

def IntegerPart (s : Text) : Prop :=
  s = ['0'] ∨ (Digits s ∧ s.head? ≠ some '0')

instance (s : Text) : Decidable (IntegerPart s) :=
  inferInstanceAs (Decidable (_ ∨ _))

def Decimals (s : Text) : Prop :=
  s = [] ∨ (Digits s.tail ∧ s.tail.length ≤ 2)

instance (s : Text) : Decidable (Decimals s) :=
  inferInstanceAs (Decidable (_ ∨ _))

def SINRType (s : Text) : Prop :=
  ∃ sign whole rest, collapse s = sign ++ (whole ++ rest)
    ∧ (sign = [] ∨ sign = ['+'] ∨ sign = ['-']) ∧ IntegerPart whole ∧ Decimals rest

def PORType (s : Text) : Prop :=
  ∃ whole rest, collapse s = whole ++ rest ∧ IntegerPart whole ∧ Decimals rest

def SIPrefixType (s : Text) : Prop :=
  ∃ whole rest suffix, collapse s = whole ++ (rest ++ suffix) ∧ Digits whole
    ∧ (rest = [] ∨ Digits rest.tail)
    ∧ (suffix = [] ∨ suffix = ['G'] ∨ suffix = ['M'] ∨ suffix = ['K'])

def UnsignedShort (s : Text) : Prop :=
  ∃ sign whole, collapse s = sign ++ whole ∧ Digits whole ∧ Nat.ofDigitChars 10 whole 0 < 2^16
    ∧ (sign = [] ∨ sign = ['+'] ∨ (sign = ['-'] ∧ Nat.ofDigitChars 10 whole 0 = 0))

structure Entry where
  sinr : Option {s : Text // SINRType s}
  por : Option {s : Text // PORType s}

structure DataRate where
  bps : {s : Text // SIPrefixType s}
  entries : List Entry
  nonempty : entries ≠ []

structure Document where
  packetsize : {s : Text // UnsignedShort s}
  dataRates : List DataRate
  nonempty : dataRates ≠ []

/--
The last one is a step that the language does not define: a text is read that is not there, or a
difference is not a number of 32 bits.
-/
inductive LoadException where
  | conversion (e : Exception)
  | duplicateSinr (dataRate : Nat) (sinr : Text)
  | duplicateDatarate (dataRate : Nat)
  | undefined
  deriving DecidableEq

def convert {α : Type} : Except Exception α → Except LoadException α
  | .ok a => .ok a
  | .error e => .error (.conversion e)

def scaleFloatToInteger (sValue : Text) : Text :=
  match sValue.idxOf? '.' with
  | some indexPoint =>
    let numberOfDigitsAfterPoint := sValue.length - indexPoint - 1
    let position := sValue.length - (numberOfDigitsAfterPoint - 2)
    let s :=
      if numberOfDigitsAfterPoint > 2 then
        sValue.take position ++ '.' :: sValue.drop position
      else
        sValue ++ List.replicate (2 - numberOfDigitsAfterPoint) '0'
    -- the original decimal point
    s.eraseIdx indexPoint
  | none => sValue ++ List.replicate 2 '0'

abbrev Curve := SortedMap Int ℚ

structure Limited where
  minScaledSINR : Int
  maxScaledSINR : Int
  curve : Curve

structure PORManager where
  dataRateTable : SortedMap Nat Limited
  defaultCurveDataRate : Nat
  modifierLengthBytes : Nat

namespace Curve

def insertAll (curve : Curve) (points : List (Int × ℚ)) : Curve :=
  points.foldl (fun curve e => curve.insert e.1 e.2) curve

def between (x0 x1 : Int) (y1 slope : ℚ) : List (Int × ℚ) :=
  (List.range (x1 - x0).toNat).map (fun (j : Nat) => (x0 + j, y1 - (x1 - (x0 + j : Int)) * slope))

def interpolate : List (Int × ℚ) → Curve → Except LoadException Curve
  | (x0, y0) :: (x1, y1) :: points, interpolation =>
    if x1 - x0 > 2^31 - 1 then
      .error .undefined
    else
      interpolate ((x1, y1) :: points)
        (interpolation.insertAll (between x0 x1 y1 ((y1 - y0) / (x1 - x0))))
  | _, interpolation => .ok interpolation

end Curve

section

variable (f : Floating ℚ)

def loadEntry (e : Entry) : Except LoadException (Int × ℚ) :=
  match e.sinr with
  | none => .error .undefined
  | some sinr => do
    let scaledSINR ← convert (toINT64 (-2^31) (2^31 - 1) (scaleFloatToInteger sinr.val))
    match e.por with
    | none => .error .undefined
    | some por => do
      let value ← convert (toDouble f f.floatLowest f.floatMax por.val)
      return (scaledSINR, f.toFloat value / 100)

def insertEntry (dataRate : Nat) (l : Limited) (e : Entry) : Except LoadException Limited := do
  let (scaledSINR, por) ← loadEntry f e
  if l.curve.contains scaledSINR then
    throw (.duplicateSinr dataRate ((e.sinr.map Subtype.val).getD []))
  else
    return ⟨min scaledSINR l.minScaledSINR, max scaledSINR l.maxScaledSINR, l.curve.insert scaledSINR por⟩

def loadEntries (dataRate : Nat) (entries : List Entry) : Except LoadException Limited := do
  let l ← entries.foldlM (insertEntry f dataRate) ⟨2^31 - 1, -2^31, .empty⟩
  let interpolation ← Curve.interpolate l.curve.toList .empty
  return { l with curve := l.curve.insertAll interpolation.toList }

namespace PORManager

def init : PORManager :=
  ⟨.empty, 0, 0⟩

def addDataRate (m : PORManager) (d : DataRate) : Except LoadException PORManager := do
  let dataRate ← convert (toUINT64 0 (2^64 - 1) d.bps.val)
  let m := if m.dataRateTable.toList = [] then { m with defaultCurveDataRate := dataRate } else m
  let l ← loadEntries f dataRate d.entries
  if m.dataRateTable.contains dataRate then
    throw (.duplicateDatarate dataRate)
  else
    return { m with dataRateTable := m.dataRateTable.insert dataRate l }

def load (m : PORManager) (document : Document) : Except LoadException PORManager := do
  let packetSize ← convert (toUINT64 0 (2^16 - 1) document.packetsize.val)
  document.dataRates.foldlM (addDataRate f) { m with modifierLengthBytes := packetSize }

end PORManager

end

def truncate (q : ℚ) : Int :=
  if 0 ≤ q then ⌊q⌋ else ⌈q⌉

def PORManager.getPOR (powf : ℚ → ℚ → ℚ) (m : PORManager) (dataRate : Nat) (sinr : ℚ) (packetLengthBytes : Nat) : Option ℚ := do
  -- there is nothing for a number that is not one of 32 bits, and without any curve
  let l ← (m.dataRateTable.find? dataRate).or (m.dataRateTable.find? m.defaultCurveDataRate)
  let scaled := truncate (sinr * 100)
  if scaled < -2^31 ∨ scaled > 2^31 - 1 then
    none
  else if scaled < l.minScaledSINR then
    return 0
  else if scaled > l.maxScaledSINR then
    return 1
  else
    match l.curve.find? scaled with
    | some por =>
      if m.modifierLengthBytes ≠ 0 then return powf por (packetLengthBytes / m.modifierLengthBytes) else return por
    | none => return 0

end Pcr
end Tdma
end Emane
