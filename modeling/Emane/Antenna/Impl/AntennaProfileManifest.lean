import Emane.Configuration.Impl.ParameterConvert
import Emane.Lib.RangeTable

/-!
This module contains antenna patterns and the manifest of antenna profiles. The documents are as
the document type definitions admit them, gains and placements are of the type that the conversion
to `double` has as a parameter.
-/

namespace Emane

open ParameterConvert (toINT64 toUINT64 toDouble Floating)

namespace AntennaProfile

inductive Exception where
  | unableToRead (uri : Text)
  | validationFailure (uri : Text)
  | elevationMinMax (uri : Text) (min max : Int)
  | elevationOrder (uri : Text) (min max : Int)
  | bearingMinMax (uri : Text) (elevationMin elevationMax min max : Int)
  | bearingOrder (uri : Text) (elevationMin elevationMax min max : Int)
  | duplicateProfile (id : Nat)
  | conversion (e : ParameterConvert.Exception)
  deriving DecidableEq

structure Bearing where
  min : Text
  max : Text
  gains : List Text
  some_gain : gains ≠ []

structure Elevation where
  min : Text
  max : Text
  bearings : List Bearing

inductive Role where
  | antennapattern
  | blockagepattern
  deriving DecidableEq

abbrev Document := Role → Option (List Elevation)

structure Profile where
  id : Text
  antennapatternuri : Text
  blockagepatternuri : Option Text
  placement : Option (Text × Text × Text)

structure Numbers (δ : Type) extends Floating δ where
  dbmMin : δ
  zero : δ

def Numbers.missing {δ : Type} (f : Numbers δ) : Role → δ
  | .antennapattern => f.dbmMin
  | .blockagepattern => f.zero

end AntennaProfile

open AntennaProfile

def toINT16 (parameter : Text) : Except AntennaProfile.Exception Int :=
  (toINT64 (-2^15) (2^15 - 1) parameter).mapError .conversion

def toGain {δ : Type} (f : Floating δ) (parameter : Text) : Except AntennaProfile.Exception δ :=
  (toDouble f f.lowest f.max parameter).mapError .conversion

structure AntennaPattern (δ : Type) where
  elevationBearingGainMap : SortedMap Int (Option (SortedMap Int δ))
  missingValue : δ

namespace AntennaPattern

variable {δ : Type} (f : Floating δ) (missingValue : δ) (uri : Text)

def readBearing (elevationMin elevationMax : Int) (s : Int × SortedMap Int δ) (node : Bearing)
    : Except Exception (Int × SortedMap Int δ) := do
  let min ← toINT16 node.min
  let max ← toINT16 node.max
  if min > max then
    .error (.bearingMinMax uri elevationMin elevationMax min max)
  else if s.1 ≥ min ∧ s.2.toList ≠ [] then
    .error (.bearingOrder uri elevationMin elevationMax min max)
  else
    let map ← node.gains.foldlM (fun m gain => do
      let value ← toGain f gain
      .ok (RangeTable.add missingValue m min max value)) s.2
    .ok (max, map)

def readElevation (s : Int × SortedMap Int (Option (SortedMap Int δ))) (node : Elevation)
    : Except Exception (Int × SortedMap Int (Option (SortedMap Int δ))) := do
  let min ← toINT16 node.min
  let max ← toINT16 node.max
  if min > max then
    .error (.elevationMinMax uri min max)
  else if s.1 ≥ min ∧ s.2.toList ≠ [] then
    .error (.elevationOrder uri min max)
  else
    let bearings ← node.bearings.foldlM (readBearing f missingValue uri min max) (0, .empty)
    .ok (max, RangeTable.add none s.2 min max (some bearings.2))

def create (document : Document) (role : Role) : Except Exception (AntennaPattern δ) := do
  let s ← ((document role).getD []).foldlM (readElevation f missingValue uri) (0, .empty)
  .ok ⟨s.2, missingValue⟩

def getGain (p : AntennaPattern δ) (bearing elevation : Int16) : δ :=
  let bearing := if bearing = 360 then 0 else bearing
  match p.elevationBearingGainMap.lowerBound elevation.toInt with
  | some (_, some bearings) =>
    match bearings.lowerBound bearing.toInt with
    | some (_, gain) => gain
    | none => p.missingValue
  | _ => p.missingValue

end AntennaPattern

structure AntennaProfileManifest (δ : Type) where
  antennaPatternStore : Text → Option (AntennaPattern δ)
  profiles : Nat → Option (AntennaPattern δ × Option (AntennaPattern δ) × δ × δ × δ)

namespace AntennaProfileManifest

variable {δ : Type} (f : Numbers δ)

def empty : AntennaProfileManifest δ :=
  ⟨fun _ => none, fun _ => none⟩

abbrev Documents := Text → Except Exception Document

variable (documents : Documents)

def pattern (m : AntennaProfileManifest δ) (uri : Text) (role : Role)
    : Except Exception (AntennaPattern δ × AntennaProfileManifest δ) :=
  match m.antennaPatternStore uri with
  | some p => .ok (p, m)
  | none => do
    let document ← documents uri
    let p ← AntennaPattern.create f.toFloating (f.missing role) uri document role
    .ok (p, { m with antennaPatternStore := Function.update m.antennaPatternStore uri (some p) })

def placement (profile : Profile) : Except Exception (δ × δ × δ) :=
  match profile.placement with
  | none => .ok (f.zero, f.zero, f.zero)
  | some (north, east, up) => do
    let north ← toGain f.toFloating north
    let east ← toGain f.toFloating east
    let up ← toGain f.toFloating up
    .ok (north, east, up)

def blockagePattern (m : AntennaProfileManifest δ) (profile : Profile)
    : Except Exception (Option (AntennaPattern δ) × AntennaProfileManifest δ) :=
  match profile.blockagepatternuri.getD [] with
  | [] => .ok (none, m)
  | uri => do
    let s ← m.pattern f documents uri .blockagepattern
    .ok (some s.1, s.2)

def loadProfile (m : AntennaProfileManifest δ) (profile : Profile)
    : Except Exception (AntennaProfileManifest δ) := do
  let id ← (toUINT64 0 (2^16 - 1) profile.id).mapError .conversion
  let placement ← placement f profile
  let antenna ← m.pattern f documents profile.antennapatternuri .antennapattern
  let blockage ← antenna.2.blockagePattern f documents profile
  if (blockage.2.profiles id).isSome then
    .error (.duplicateProfile id)
  else
    .ok { blockage.2 with profiles := Function.update blockage.2.profiles id (some
      (antenna.1, blockage.1, placement)) }

def load (profiles : List Profile) : Except Exception (AntennaProfileManifest δ) :=
  profiles.foldlM (loadProfile f documents) empty

def getProfileInfo (m : AntennaProfileManifest δ) (id : Nat)
    : Option (AntennaPattern δ × Option (AntennaPattern δ) × δ × δ × δ) :=
  m.profiles id

end AntennaProfileManifest
end Emane
