import Emane.Lib.Machine
import Emane.Location.Impl.LocationManager

/-!
This module contains that the location manager answers like one without a cache that stores what
was last given for each node, in every run in which no location is taken for one that is already
there although it is not.
-/

namespace Emane

def Location.after (location : Location) (old : Option Location) : Location :=
  { location with
    orientation := location.orientation.or (old.bind Location.orientation)
    velocity := location.velocity.or (old.bind Location.velocity) }

abbrev LastLocations := NEMId → Option Location

namespace LastLocations

def remember (last : LastLocations) (location : Location) : LastLocations :=
  Function.update last location.nemId (some (location.after (last location.nemId)))

def call (last : LastLocations) : LocationManager.Call → LastLocations
  | .update locations => locations.foldl remember last
  | .getLocationInfo _ => last

end LastLocations

variable {E D : Type} (geo : Geometry E D)

def LastLocations.getLocationInfo (last : LastLocations) (nemId remoteNEMId : NEMId)
    : Option (LocationInfo E D) := do
  let own ← last nemId
  let remote ← last remoteNEMId
  return .create geo (.create geo own) (.create geo remote)

def PositionOrientationVelocity.slips (p : PositionOrientationVelocity E) (location : Location) : Bool :=
  location.position = p.position
    && (!p.valid
      || (p.same location
        && ((location.orientation.isSome && !p.hasOrientation)
          || (location.velocity.isSome && !p.hasVelocity))))

namespace LocationManager

def slips (m : LocationManager E D) (location : Location) : Bool :=
  if m.nemId = location.nemId then
    m.localPOV.slips location
  else
    (m.locationStore.find? location.nemId).any (fun pov => pov.slips location)

def steady (m : LocationManager E D) : Call → Prop
  | .update locations => Guarded (fun m l => some (m.updateLocation geo l))
    (fun m l => m.slips l = false) m locations
  | .getLocationInfo _ => True

instance (m : LocationManager E D) (c : Call) : Decidable (m.steady geo c) :=
  match c with
  | .update locations =>
    inferInstanceAs
      (Decidable (Guarded (fun m l => some (m.updateLocation geo l))
      (fun m l => m.slips l = false) m locations))
  | .getLocationInfo _ => isTrue trivial

def Call.Received (calls : List Call) (nemId : NEMId) : Prop :=
  ∃ locations, .update locations ∈ calls ∧ ∃ location ∈ locations, location.nemId = nemId

end LocationManager

namespace PositionOrientationVelocity

theorem adjustOrientation_default : adjustOrientation .level .rest = .level := by
  decide +kernel

theorem update_default {location : Location} (hslips : (default geo).slips location = false)
    : (default geo).update geo location = (true, create geo (location.after none)) := by
  have hposition : location.position ≠ .origin := by
    intro heq
    simp [slips, default, heq] at hslips
  obtain ⟨nemId, position, orientation, velocity⟩ := location
  have hadjust := adjustOrientation_default
  unfold update same create Location.after default
  cases orientation with
  | none =>
    cases velocity with
    | none => simp_all
    | some velocity => simp_all
  | some orientation =>
    cases velocity with
    | none => simp_all
    | some velocity => simp_all

theorem update_create {old location : Location} (hslips : (create geo old).slips location = false)
    : ((create geo old).update geo location).2 = create geo (location.after (some old))
        ∧ (((create geo old).update geo location).1 = false
            → ((create geo old).update geo location).2 = create geo old) := by
  have hkeep : ((create geo old).update geo location).1 = false
      → ((create geo old).update geo location).2 = create geo old := by
    unfold update
    split
    . exact fun _ => rfl
    . exact fun h => by cases h
  refine ⟨?_, hkeep⟩
  obtain ⟨nemId, position, orientation, velocity⟩ := location
  obtain ⟨nemId', position', orientation', velocity'⟩ := old
  unfold update
  split
  . next hsame =>
    unfold slips at hslips
    unfold same at hsame
    unfold create at hslips hsame ⊢
    unfold Location.after
    cases orientation with
    | none =>
      cases velocity with
      | none => simp_all
      | some velocity =>
        cases velocity' with
        | none => simp_all [same]
        | some velocity' => simp_all
    | some orientation =>
      cases orientation' with
      | none => simp_all [same]
      | some orientation' =>
        cases velocity with
        | none => simp_all
        | some velocity =>
          cases velocity' with
          | none => simp_all [same]
          | some velocity' => simp_all
  . unfold create Location.after
    cases orientation with
    | none =>
      cases velocity with
      | none => simp_all
      | some velocity => simp_all [Bool.or_comm]
    | some orientation =>
      cases velocity with
      | none => simp_all
      | some velocity => simp_all

end PositionOrientationVelocity

structure LocationManager.Mirrors (m : LocationManager E D) (nemId : NEMId) (last : LastLocations)
    : Prop where
  self : m.nemId = nemId
  localPOV : m.localPOV = (last nemId).elim (.default geo) (.create geo)
  locationStore : ∀ n, m.locationStore.find? n = if n = nemId then none else (last n).map (.create geo)
  cache : ∀ n info, m.locationInfoCache.find? n = some info
    → ∃ pov, m.locationStore.find? n = some pov ∧ info = .create geo m.localPOV pov

namespace LocationManager

variable {geo} {m : LocationManager E D} {nemId : NEMId} {last : LastLocations} {location : Location}

theorem Mirrors.create (nemId : NEMId)
    : (create geo nemId : LocationManager E D).Mirrors geo nemId (fun _ => none) := by
  constructor
  . rfl
  . rfl
  . intro n
    split
    . exact SortedMap.find?_empty n
    . exact SortedMap.find?_empty n
  . intro n info hfind
    cases hfind

theorem Mirrors.updateLocal (h : m.Mirrors geo nemId last) (heq : location.nemId = nemId)
    (hslips : m.slips location = false)
    : (m.updateLocation geo location).Mirrors geo nemId (last.remember location) := by
  have hself : m.nemId = location.nemId := h.self.trans heq.symm
  rw [slips, if_pos hself, h.localPOV] at hslips
  have hupdate : (m.localPOV.update geo location).2 = .create geo (location.after (last nemId))
      ∧ ((m.localPOV.update geo location).1 = false
          → (m.localPOV.update geo location).2 = m.localPOV) := by
    rw [h.localPOV]
    cases hold : last nemId with
    | none =>
      rw [hold] at hslips
      rw [Option.elim_none, PositionOrientationVelocity.update_default geo hslips]
      exact ⟨rfl, fun hfalse => by cases hfalse⟩
    | some old =>
      rw [hold] at hslips
      exact PositionOrientationVelocity.update_create geo hslips
  obtain ⟨hpov, hkeep⟩ := hupdate
  unfold updateLocation
  rw [if_pos hself]
  constructor
  . exact h.self
  . simp only [hpov, LastLocations.remember, heq, Function.update_self, Option.elim_some]
  . intro n
    rw [h.locationStore]
    split
    . rfl
    . next hne => rw [LastLocations.remember, Function.update_of_ne (heq ▸ hne)]
  . intro n info hfind
    simp only at hfind ⊢
    split at hfind
    . cases hfind
    . next hsame =>
      rw [hkeep (Bool.eq_false_iff.mpr hsame)]
      exact h.cache n info hfind

theorem Mirrors.updateRemote (h : m.Mirrors geo nemId last) (hne : location.nemId ≠ nemId)
    (hslips : m.slips location = false)
    : (m.updateLocation geo location).Mirrors geo nemId (last.remember location) := by
  have hself : m.nemId ≠ location.nemId := fun heq => hne (heq.symm.trans h.self)
  have hlocal : m.localPOV = (last.remember location nemId).elim (.default geo) (.create geo) := by
    rw [h.localPOV, LastLocations.remember, Function.update_of_ne hne.symm]
  have hstore : ∀ n, (m.locationStore.set location.nemId
    (.create geo (location.after (last location.nemId)))).find? n
      = if n = nemId then none else (last.remember location n).map (.create geo) := by
    intro n
    rw [SortedMap.find?_set]
    by_cases hn : n = location.nemId
    . rw [if_pos hn, if_neg (hn ▸ hne), hn, LastLocations.remember, Function.update_self, Option.map_some]
    . rw [if_neg hn, h.locationStore, LastLocations.remember, Function.update_of_ne hn]
  have hfind := h.locationStore location.nemId
  rw [if_neg hne] at hfind
  rw [slips, if_neg hself, hfind] at hslips
  unfold updateLocation
  rw [if_neg hself, hfind]
  cases hold : last location.nemId with
  | none =>
    rw [hold] at hstore hfind
    have hcreate : PositionOrientationVelocity.create geo (location.after none)
        = .create geo location := by
      simp [PositionOrientationVelocity.create, Location.after]
    rw [hcreate] at hstore
    refine ⟨h.self, hlocal, hstore, ?_⟩
    intro n info hcached
    obtain ⟨pov, hpov, hinfo⟩ := h.cache n info hcached
    refine ⟨pov, ?_, hinfo⟩
    simp only [Option.map_none]
    rw [SortedMap.find?_set, if_neg]
    . exact hpov
    . rintro rfl
      rw [hfind] at hpov
      cases hpov
  | some old =>
    rw [hold] at hslips hstore hfind
    obtain ⟨hpov, hkeep⟩ := PositionOrientationVelocity.update_create geo hslips
    refine ⟨h.self, hlocal, ?_, ?_⟩
    . simp only [Option.map_some, hpov]
      exact hstore
    . intro n info hcached
      simp only [Option.map_some] at hcached ⊢
      rw [SortedMap.find?_set]
      split at hcached
      . rw [SortedMap.find?_erase] at hcached
        split at hcached
        . cases hcached
        . next hn =>
          rw [if_neg hn]
          exact h.cache n info hcached
      . next hsame =>
        obtain ⟨pov, hstored, hinfo⟩ := h.cache n info hcached
        split
        . next hn =>
          refine ⟨_, rfl, ?_⟩
          rw [hn, hfind, Option.map_some, Option.some.injEq] at hstored
          rw [hkeep (Bool.eq_false_iff.mpr hsame), hstored]
          exact hinfo
        . exact ⟨pov, hstored, hinfo⟩

theorem Mirrors.updateLocation (h : m.Mirrors geo nemId last) (hslips : m.slips location = false)
    : (m.updateLocation geo location).Mirrors geo nemId (last.remember location) := by
  by_cases heq : location.nemId = nemId
  . exact h.updateLocal heq hslips
  . exact h.updateRemote heq hslips

theorem Mirrors.update (h : m.Mirrors geo nemId last) {locations : List Location}
    (hsteady : m.steady geo (.update locations))
    : (m.update geo locations).Mirrors geo nemId (locations.foldl LastLocations.remember last) := by
  induction locations generalizing m last with
  | nil => exact h
  | cons location locations ih => exact ih (h.updateLocation hsteady.1) (hsteady.2 _ rfl)

theorem Mirrors.getLocationInfo (h : m.Mirrors geo nemId last) (remoteNEMId : NEMId)
    : (m.getLocationInfo geo remoteNEMId).2.Mirrors geo nemId last := by
  unfold LocationManager.getLocationInfo
  split
  . split
    . exact h
    . split
      . next pov hpov =>
        refine ⟨h.self, h.localPOV, h.locationStore, ?_⟩
        intro n info hcached
        simp only [SortedMap.find?_set] at hcached ⊢
        split at hcached
        . next hn =>
          rw [Option.some.injEq] at hcached
          exact ⟨pov, hn ▸ hpov, hcached.symm⟩
        . exact h.cache n info hcached
      . exact h
  . exact h

theorem Mirrors.answer (h : m.Mirrors geo nemId last) {remoteNEMId : NEMId} (hne : remoteNEMId ≠ nemId)
    : (m.getLocationInfo geo remoteNEMId).1 = last.getLocationInfo geo nemId remoteNEMId := by
  have hstored := h.locationStore remoteNEMId
  rw [if_neg hne] at hstored
  unfold LocationManager.getLocationInfo LastLocations.getLocationInfo
  cases hown : last nemId with
  | none =>
    rw [h.localPOV, hown]
    rfl
  | some own =>
    have hlocal : m.localPOV = .create geo own := by
      rw [h.localPOV, hown, Option.elim_some]
    rw [if_pos (by rw [hlocal]; rfl)]
    cases hcached : m.locationInfoCache.find? remoteNEMId with
    | some info =>
      obtain ⟨pov, hpov, hinfo⟩ := h.cache remoteNEMId info hcached
      rw [hstored, Option.map_eq_some_iff] at hpov
      obtain ⟨remote, hremote, rfl⟩ := hpov
      simp only [hremote, Option.bind_eq_bind, Option.bind_some, hinfo, hlocal]
      rfl
    | none =>
      rw [hstored]
      cases hremote : last remoteNEMId with
      | none => rfl
      | some remote =>
        simp only [Option.map_some, Option.bind_eq_bind, Option.bind_some, hlocal]
        rfl

theorem isSome_foldl_remember (locations : List Location) (last : LastLocations) (n : NEMId)
    : (locations.foldl LastLocations.remember last n).isSome = true ↔ (last n).isSome = true
        ∨ ∃ location ∈ locations, location.nemId = n := by
  induction locations generalizing last with
  | nil => simp
  | cons location locations ih =>
    rw [List.foldl_cons, ih, LastLocations.remember]
    by_cases hn : n = location.nemId
    . subst hn
      simp
    . simp [Function.update_of_ne hn, Ne.symm hn]

theorem isSome_foldl_call (calls : List Call) (last : LastLocations) (n : NEMId)
    : (calls.foldl LastLocations.call last n).isSome = true ↔ (last n).isSome = true
        ∨ Call.Received calls n := by
  unfold Call.Received
  induction calls generalizing last with
  | nil => simp
  | cons c calls ih =>
    rw [List.foldl_cons, ih]
    cases c with
    | update locations =>
      simp only [LastLocations.call, isSome_foldl_remember, List.mem_cons, Call.update.injEq,
        or_and_right, exists_or, exists_eq_left,
        or_assoc]
    | getLocationInfo remoteNEMId => simp [LastLocations.call]

theorem mirrors_of_guarded {calls : List Call} (h : m.Mirrors geo nemId last)
    (hguarded : Guarded (fun m c => some (m.call geo c)) (steady geo) m calls)
    : (calls.foldl (call geo) m).Mirrors geo nemId (calls.foldl LastLocations.call last) := by
  induction calls generalizing m last with
  | nil => exact h
  | cons c calls ih =>
    apply ih _ (hguarded.2 _ rfl)
    cases c with
    | update locations => exact h.update hguarded.1
    | getLocationInfo remoteNEMId => exact h.getLocationInfo remoteNEMId

theorem getLocationInfo_of_guarded (geo : Geometry E D) (nemId : NEMId) (calls : List Call)
    (hguarded : Guarded (fun m c => some (m.call geo c)) (steady geo) (create geo nemId) calls)
    (remoteNEMId : NEMId) (hremote : remoteNEMId ≠ nemId)
    : (((calls.foldl (call geo) (create geo nemId)).getLocationInfo geo remoteNEMId).1.isSome = true
          ↔ Call.Received calls nemId ∧ Call.Received calls remoteNEMId)
        ∧ ((calls.foldl (call geo) (create geo nemId)).getLocationInfo geo remoteNEMId).1
            = (calls.foldl LastLocations.call (fun _ => none)).getLocationInfo geo nemId remoteNEMId := by
  have hanswer := (mirrors_of_guarded (.create nemId) hguarded).answer hremote
  refine ⟨?_, hanswer⟩
  have hown := isSome_foldl_call calls (fun _ => none) nemId
  have hother := isSome_foldl_call calls (fun _ => none) remoteNEMId
  simp only [Option.isSome_none, Bool.false_eq_true, false_or] at hown hother
  rw [hanswer, ← hown, ← hother, LastLocations.getLocationInfo]
  cases calls.foldl LastLocations.call (fun _ => none) nemId with
  | none => simp
  | some own =>
    cases calls.foldl LastLocations.call (fun _ => none) remoteNEMId with
    | none => simp
    | some remote => simp

def movingCalls : List Call :=
  [.update [⟨1, ⟨10, 20, 0⟩, none, none⟩, ⟨2, ⟨11, 20, 0⟩, none, none⟩], .getLocationInfo 2,
    .update [⟨2, ⟨12, 20, 0⟩, none, some ⟨90, 0, 5⟩⟩, ⟨1, ⟨0, 0, 0⟩, some ⟨0, 0, 0⟩, none⟩]]

def planar : Geometry ℚ ℚ where
  defaultECEF := 0
  positionECEF := fun position => position.latitudeDegrees
  distance := fun x y => |y - x|
  zero := 0

theorem getLocationInfo_of_guarded_moving
    : ((movingCalls.foldl (call planar) (create planar 1)).getLocationInfo planar 2).1
        = (movingCalls.foldl LastLocations.call (fun _ => none)).getLocationInfo planar 1 2 := by
  exact (getLocationInfo_of_guarded planar 1 movingCalls (by decide +kernel) 2 (by decide)).2

theorem not_getLocationInfo_transparent
    : ¬ ∀ (nemId : NEMId) (calls : List Call) (remoteNEMId : NEMId), remoteNEMId ≠ nemId →
        (((calls.foldl (call planar) (create planar nemId)).getLocationInfo planar
          remoteNEMId).1.isSome = true
          ↔ Call.Received calls nemId ∧ Call.Received calls remoteNEMId) := by
  intro h
  have hreceived :=
    (h 1 [.update [⟨1, .origin, none, none⟩, ⟨2, ⟨1, 1, 0⟩, none, none⟩]] 2 (by decide)).mpr
    ⟨⟨_, List.mem_singleton.mpr rfl, _, List.mem_cons_self, rfl⟩,
      ⟨_, List.mem_singleton.mpr rfl, _, List.mem_cons_of_mem _ List.mem_cons_self, rfl⟩⟩
  exact absurd hreceived (by decide +kernel)

end LocationManager
end Emane
