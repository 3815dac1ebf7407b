import Mathlib.Algebra.Order.Floor.Ring
import Mathlib.Data.Rat.Floor
import Emane.Lib.SortedMap
import Emane.Packet.Impl.Packet

/-!
This module contains the location manager of the physical layer with its cache. Angles and
positions are exact numbers, the conversion to earth-centered coordinates and the distance between
these are parameters.
-/

namespace Emane

structure Position where
  latitudeDegrees : ℚ
  longitudeDegrees : ℚ
  altitudeMeters : ℚ
  deriving DecidableEq

def Position.origin : Position := ⟨0, 0, 0⟩

structure Orientation where
  rollDegrees : ℚ
  pitchDegrees : ℚ
  yawDegrees : ℚ
  deriving DecidableEq

def Orientation.level : Orientation := ⟨0, 0, 0⟩

structure Velocity where
  azimuthDegrees : ℚ
  elevationDegrees : ℚ
  magnitudeMetersPerSecond : ℚ
  deriving DecidableEq

def Velocity.rest : Velocity := ⟨0, 0, 0⟩

structure Location where
  nemId : NEMId
  position : Position
  orientation : Option Orientation
  velocity : Option Velocity
  deriving DecidableEq

structure Geometry (E D : Type) where
  defaultECEF : E
  positionECEF : Position → E
  distance : E → E → D
  zero : D

def degreesTo360 (val : ℚ) : ℚ :=
  val - 360 * ⌊val / 360⌋

def neg90ToPos90Degrees (val : ℚ) : ℚ :=
  if val > 90 then
    if val < 270 then val - 180 else val - 360
  else
    val

def adjustOrientation (orientation : Orientation) (velocity : Velocity) : Orientation where
  rollDegrees := orientation.rollDegrees
  pitchDegrees := neg90ToPos90Degrees
    (degreesTo360 (velocity.elevationDegrees + orientation.pitchDegrees))
  yawDegrees := degreesTo360 (velocity.azimuthDegrees + orientation.yawDegrees)

structure PositionOrientationVelocity (E : Type) where
  position : Position
  orientation : Orientation
  velocity : Velocity
  valid : Bool
  hasOrientation : Bool
  hasVelocity : Bool
  positionECEF : E
  adjustedOrientation : Orientation

variable {E D : Type} (geo : Geometry E D)

namespace PositionOrientationVelocity

def default : PositionOrientationVelocity E where
  position := .origin
  orientation := .level
  velocity := .rest
  valid := false
  hasOrientation := false
  hasVelocity := false
  positionECEF := geo.defaultECEF
  adjustedOrientation := .level

def create (location : Location) : PositionOrientationVelocity E where
  position := location.position
  orientation := location.orientation.getD .level
  velocity := location.velocity.getD .rest
  valid := true
  hasOrientation := location.orientation.isSome
  hasVelocity := location.velocity.isSome
  positionECEF := geo.positionECEF location.position
  adjustedOrientation := adjustOrientation (location.orientation.getD .level)
    (location.velocity.getD .rest)

variable (p : PositionOrientationVelocity E) (location : Location)

def same : Bool :=
  location.position = p.position
    && location.orientation.all (fun orientation => orientation = p.orientation)
    && location.velocity.all (fun velocity => velocity = p.velocity)

def update : Bool × PositionOrientationVelocity E :=
  if p.same location then
    (false, p)
  else
    let orientation := location.orientation.getD p.orientation
    let velocity := location.velocity.getD p.velocity
    (true, {
      position := location.position
      orientation := orientation
      velocity := velocity
      valid := true
      hasOrientation := p.hasOrientation || location.orientation.isSome
      hasVelocity := p.hasVelocity || location.velocity.isSome
      positionECEF := if location.position = p.position then p.positionECEF else geo.positionECEF
        location.position
      adjustedOrientation :=
        if location.orientation.isSome || location.velocity.isSome then
          adjustOrientation orientation velocity
        else
          p.adjustedOrientation
    })

end PositionOrientationVelocity

structure LocationInfo (E D : Type) where
  localPOV : PositionOrientationVelocity E
  remotePOV : PositionOrientationVelocity E
  distanceMeters : D

def LocationInfo.create (localPOV remotePOV : PositionOrientationVelocity E) : LocationInfo E D where
  localPOV := localPOV
  remotePOV := remotePOV
  distanceMeters :=
    if localPOV.position = remotePOV.position then
      geo.zero
    else
      geo.distance localPOV.positionECEF remotePOV.positionECEF

structure LocationManager (E D : Type) where
  nemId : NEMId
  localPOV : PositionOrientationVelocity E
  locationStore : SortedMap NEMId (PositionOrientationVelocity E)
  locationInfoCache : SortedMap NEMId (LocationInfo E D)

namespace LocationManager

def create (nemId : NEMId) : LocationManager E D where
  nemId := nemId
  localPOV := .default geo
  locationStore := .empty
  locationInfoCache := .empty

variable (m : LocationManager E D)

def updateLocation (location : Location) : LocationManager E D :=
  if m.nemId = location.nemId then
    let (changed, pov) := m.localPOV.update geo location
    { m with
      localPOV := pov
      locationInfoCache := if changed then .empty else m.locationInfoCache }
  else
    match m.locationStore.find? location.nemId with
    | some pov =>
      let (changed, pov) := pov.update geo location
      { m with
        locationStore := m.locationStore.set location.nemId pov
        locationInfoCache := if changed then m.locationInfoCache.erase location.nemId
          else m.locationInfoCache }
    | none => { m with locationStore := m.locationStore.set location.nemId (.create geo location) }

def update (locations : List Location) : LocationManager E D :=
  locations.foldl (updateLocation geo) m

def getLocationInfo (remoteNEMId : NEMId) : Option (LocationInfo E D) × LocationManager E D :=
  if m.localPOV.valid then
    match m.locationInfoCache.find? remoteNEMId with
    | some info => (some info, m)
    | none =>
      match m.locationStore.find? remoteNEMId with
      | some pov =>
        let info := LocationInfo.create geo m.localPOV pov
        (some info, { m with locationInfoCache := m.locationInfoCache.set remoteNEMId info })
      | none => (none, m)
  else
    (none, m)

end LocationManager

inductive LocationManager.Call where
  | update (locations : List Location)
  | getLocationInfo (remoteNEMId : NEMId)
  deriving DecidableEq

def LocationManager.call (m : LocationManager E D) : Call → LocationManager E D
  | .update locations => m.update geo locations
  | .getLocationInfo remoteNEMId => (m.getLocationInfo geo remoteNEMId).2

end Emane
