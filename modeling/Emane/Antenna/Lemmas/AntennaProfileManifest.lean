import Emane.Antenna.Impl.AntennaProfileManifest

/-!
This module contains what antenna patterns and manifests of profiles say.
-/

namespace Emane

open RangeTable
open ParameterConvert (toINT64)

variable {δ : Type} {f : ParameterConvert.Floating δ} {missing : δ} {uri : Text}

namespace AntennaProfile

abbrev Table (δ : Type) := List (Range (List (Range (List δ))))

def readRange {α : Type} (min max : Text) (value : Except Exception α) : Except Exception (Range α) := do
  let low ← toINT16 min
  let high ← toINT16 max
  let value ← value
  .ok ⟨low, high, value⟩

def Bearing.range (f : ParameterConvert.Floating δ) (node : Bearing)
    : Except Exception (Range (List δ)) :=
  readRange node.min node.max (node.gains.mapM (toGain f))

def Elevation.range (f : ParameterConvert.Floating δ) (node : Elevation)
    : Except Exception (Range (List (Range (List δ)))) :=
  readRange node.min node.max (node.bearings.mapM (Bearing.range f))

def Document.table (f : ParameterConvert.Floating δ) (document : Document) (role : Role)
    : Except Exception (Table δ) :=
  ((document role).getD []).mapM (Elevation.range f)

namespace Table

def WellOrdered (table : Table δ) : Prop :=
  Range.Ordered table ∧ ∀ r ∈ table, Range.Ordered r.value

def Gain (missing : δ) (table : Table δ) (bearing elevation : Int) (gain : δ) : Prop :=
  (∃ r ∈ table, r.Has elevation ∧ ∃ s ∈ r.value, s.Has bearing ∧ s.value.getLast? = some gain)
    ∨ ((∀ r ∈ table, r.Has elevation → ∀ s ∈ r.value, ¬s.Has bearing) ∧ gain = missing)

structure Fits (table : Table δ) : Prop where
  elevation : ∀ r ∈ table, -2^15 ≤ r.low ∧ r.high < 2^15
  bearing : ∀ r ∈ table, ∀ s ∈ r.value, -2^15 ≤ s.low ∧ s.high < 2^15
  gains : ∀ r ∈ table, ∀ s ∈ r.value, s.value ≠ []

end Table

theorem readRange_eq_ok_iff {α : Type} {min max : Text} {value : Except Exception α} {r : Range α}
    : readRange min max value = .ok r ↔ toINT16 min = .ok r.low ∧ toINT16 max = .ok r.high
        ∧ value = .ok r.value := by
  unfold readRange
  simp only [bind_eq_ok_iff, Except.ok.injEq]
  constructor
  . rintro ⟨low, hlow, high, hhigh, v, hv, rfl⟩
    exact ⟨hlow, hhigh, hv⟩
  . rintro ⟨hlow, hhigh, hv⟩
    exact ⟨_, hlow, _, hhigh, _, hv, rfl⟩

theorem eq_of_checkEnd {β : Type} {parameter rest : Text} {a b : β}
    (h : ParameterConvert.checkEnd parameter rest a = .ok b) : a = b := by
  unfold ParameterConvert.checkEnd at h
  split at h
  . exact Except.ok.inj h
  . cases h

theorem toINT16_bounds {parameter : Text} {v : Int} (h : toINT16 parameter = .ok v)
    : -2^15 ≤ v ∧ v < 2^15 := by
  have hconvert : toINT64 (-2^15) (2^15 - 1) parameter = .ok v := by
    unfold toINT16 at h
    cases hx : toINT64 (-2^15) (2^15 - 1) parameter with
    | ok v' => exact congrArg Except.ok (Except.ok.inj (hx ▸ h))
    | error e => cases hx ▸ h
  unfold toINT64 at hconvert
  split_ifs at hconvert
  obtain ⟨s, -, hconvert⟩ := bind_eq_ok_iff.mp hconvert
  dsimp only at hconvert
  split_ifs at hconvert
  all_goals
    have hv := eq_of_checkEnd hconvert
    omega

theorem readRange_fits {α : Type} {min max : Text} {value : Except Exception α} {r : Range α}
    (h : readRange min max value = .ok r)
    : -2^15 ≤ r.low ∧ r.high < 2^15 := by
  obtain ⟨hlow, hhigh, -⟩ := readRange_eq_ok_iff.mp h
  exact ⟨(toINT16_bounds hlow).1, (toINT16_bounds hhigh).2⟩

theorem Bearing.range_gains {node : Bearing} {r : Range (List δ)} (h : node.range f = .ok r)
    : r.value ≠ [] := by
  have hgains := mapM_eq_ok_iff.mp (readRange_eq_ok_iff.mp h).2.2
  intro hnil
  rw [hnil] at hgains
  exact node.some_gain (List.forall₂_nil_right_iff.mp hgains)

theorem Document.table_fits {document : Document} {role : Role} {table : Table δ}
    (h : document.table f role = .ok table) : table.Fits := by
  have hread := fun r (hr : r ∈ table) => exists_of_mem_right (mapM_eq_ok_iff.mp h) hr
  have hbearing : ∀ r ∈ table, ∀ s ∈ r.value, ∃ node : Bearing, node.range f = .ok s :=
      fun r hr s hs => by
    obtain ⟨node, -, hnode⟩ := hread r hr
    obtain ⟨node', -, hnode'⟩ := exists_of_mem_right
      (mapM_eq_ok_iff.mp (readRange_eq_ok_iff.mp hnode).2.2) hs
    exact ⟨node', hnode'⟩
  refine ⟨fun r hr => ?_, fun r hr s hs => ?_, fun r hr s hs => ?_⟩
  . obtain ⟨node, -, hnode⟩ := hread r hr
    exact readRange_fits hnode
  . obtain ⟨node, hnode⟩ := hbearing r hr s hs
    exact readRange_fits hnode
  . obtain ⟨node, hnode⟩ := hbearing r hr s hs
    exact Bearing.range_gains hnode

end AntennaProfile

namespace AntennaPattern

open AntennaProfile

theorem foldlM_gains_iff {μ : Type} {put : μ → δ → μ} {gains : List Text} {m m' : μ}
    : gains.foldlM (fun m gain => do
        let value ← toGain f gain
        (.ok (put m value) : Except Exception μ)) m = .ok m'
        ↔
      ∃ vs, gains.mapM (toGain f) = .ok vs ∧ m' = vs.foldl put m := by
  simp only [mapM_eq_ok_iff]
  induction gains generalizing m with
  | nil => exact ⟨fun h => ⟨[], .nil, (Except.ok.inj h).symm⟩, fun ⟨vs, hvs, hm⟩ => by
      obtain rfl := List.forall₂_nil_left_iff.mp hvs
      exact congrArg Except.ok hm.symm⟩
  | cons gain gains ih =>
    simp only [List.foldlM_cons, bind_eq_ok_iff, Except.ok.injEq, ih, List.forall₂_cons_left_iff]
    constructor
    . rintro ⟨_, ⟨v, hv, rfl⟩, vs, hvs, rfl⟩
      exact ⟨v :: vs, ⟨v, vs, hv, hvs, rfl⟩, rfl⟩
    . rintro ⟨_, ⟨v, vs, hv, hvs, rfl⟩, rfl⟩
      exact ⟨_, ⟨v, hv, rfl⟩, vs, hvs, rfl⟩

theorem readBearing_eq_ok_iff {elevationMin elevationMax : Int} {s s' : Int × SortedMap Int δ}
    {node : Bearing}
    : readBearing f missing uri elevationMin elevationMax s node = .ok s'
        ↔
      ∃ r, node.range f = .ok r ∧ r.low ≤ r.high ∧ (s.2.toList ≠ [] → s.1 < r.low)
          ∧ s' = (r.high, put missing id s.2 r) := by
  unfold readBearing Bearing.range
  simp only [bind_eq_ok_iff, readRange_eq_ok_iff]
  constructor
  . rintro ⟨low, hlow, high, hhigh, h⟩
    split_ifs at h with hle hafter
    simp only [bind_eq_ok_iff, foldlM_gains_iff] at h
    obtain ⟨_, ⟨vs, hvs, rfl⟩, h⟩ := h
    exact ⟨⟨low, high, vs⟩, ⟨hlow, hhigh, hvs⟩, not_lt.mp hle, fun hs => not_le.mp
      (fun hge => hafter ⟨hge, hs⟩), (Except.ok.inj h).symm⟩
  . rintro ⟨r, ⟨hlow, hhigh, hvs⟩, hle, hafter, rfl⟩
    refine ⟨_, hlow, _, hhigh, ?_⟩
    rw [if_neg (not_lt.mpr hle), if_neg (fun h => not_lt.mpr h.1 (hafter h.2))]
    simp only [bind_eq_ok_iff, foldlM_gains_iff]
    exact ⟨_, ⟨_, hvs, rfl⟩, rfl⟩

def bearings (missing : δ) (rs : List (Range (List δ))) : List (Option (SortedMap Int δ)) :=
  [some (build missing id rs)]

def ofTable (missing : δ) (table : Table δ) : AntennaPattern δ :=
  ⟨build none (bearings missing) table, missing⟩

theorem foldlM_readBearing_iff {elevationMin elevationMax : Int} {nodes : List Bearing}
    {s' : Int × SortedMap Int δ}
    : nodes.foldlM (readBearing f missing uri elevationMin elevationMax) (0, .empty) = .ok s'
        ↔
      ∃ rs, nodes.mapM (Bearing.range f) = .ok rs ∧ Range.Ordered rs
          ∧ s' = (rs.foldl (fun _ r => r.high) 0, build missing id rs) := by
  rw [foldlM_ordered_iff (fun _ _ _ => readBearing_eq_ok_iff)]
  . simp only [mapM_eq_ok_iff]
    simp [build]
  . exact fun _ _ h => Bearing.range_gains h

theorem readElevation_eq_ok_iff {s s' : Int × SortedMap Int (Option (SortedMap Int δ))} {node : Elevation}
    : readElevation f missing uri s node = .ok s'
        ↔
      ∃ r, (node.range f = .ok r ∧ Range.Ordered r.value) ∧ r.low ≤ r.high
        ∧ (s.2.toList ≠ [] → s.1 < r.low)
        ∧ s' = (r.high, put none (bearings missing) s.2 r) := by
  unfold readElevation Elevation.range
  simp only [bind_eq_ok_iff, readRange_eq_ok_iff]
  constructor
  . rintro ⟨low, hlow, high, hhigh, h⟩
    split_ifs at h with hle hafter
    simp only [bind_eq_ok_iff, foldlM_readBearing_iff] at h
    obtain ⟨_, ⟨rs, hrs, hordered, rfl⟩, h⟩ := h
    exact ⟨⟨low, high, rs⟩, ⟨⟨hlow, hhigh, hrs⟩, hordered⟩, not_lt.mp hle, fun hs => not_le.mp
      (fun hge => hafter ⟨hge, hs⟩),
      (Except.ok.inj h).symm⟩
  . rintro ⟨r, ⟨⟨hlow, hhigh, hrs⟩, hordered⟩, hle, hafter, rfl⟩
    refine ⟨_, hlow, _, hhigh, ?_⟩
    rw [if_neg (not_lt.mpr hle), if_neg (fun h => not_lt.mpr h.1 (hafter h.2))]
    simp only [bind_eq_ok_iff, foldlM_readBearing_iff]
    exact ⟨_, ⟨_, hrs, hordered, rfl⟩, rfl⟩

theorem create_eq_ok_iff {document : Document} {role : Role} {p : AntennaPattern δ}
    : create f missing uri document role = .ok p
        ↔
      ∃ table : Table δ, document.table f role = .ok table ∧ table.WellOrdered
          ∧ p = ofTable missing table := by
  have hloop := foldlM_ordered_iff (fun s c s' => @readElevation_eq_ok_iff δ f missing uri s s' c)
    (fun _ _ _ => List.cons_ne_nil _ _)
  unfold create Document.table
  simp only [bind_eq_ok_iff, hloop, mapM_eq_ok_iff]
  constructor
  . rintro ⟨_, ⟨table, hread, hordered, -, rfl⟩, hp⟩
    refine ⟨table, hread.imp (fun _ _ h => h.1), ⟨hordered, fun r hr => ?_⟩, (Except.ok.inj hp).symm⟩
    obtain ⟨_, -, h⟩ := exists_of_mem_right hread hr
    exact h.2
  . rintro ⟨table, hread, ⟨hordered, hbearings⟩, rfl⟩
    obtain ⟨hlength, hzip⟩ := List.forall₂_iff_zip.mp hread
    have hread : List.Forall₂
        (fun node r => Elevation.range f node = .ok r ∧ Range.Ordered r.value) _ table :=
      List.forall₂_iff_zip.mpr ⟨hlength, fun hmem => ⟨hzip hmem, hbearings _ (List.of_mem_zip hmem).2⟩⟩
    exact ⟨_, ⟨table, hread, hordered, fun h => absurd rfl h, rfl⟩, rfl⟩

def turn (bearing : Int16) : Int :=
  if bearing = 360 then 0 else bearing.toInt

variable {table : Table δ} {bearing elevation : Int16} {gain : δ}

theorem neg_le_turn (bearing : Int16) : -2^15 ≤ turn bearing := by
  unfold turn
  split
  . decide
  . exact bearing.le_toInt

theorem getGain_eq (table : Table δ)
    : (ofTable missing table).getGain bearing elevation
        =
      match ((build none (bearings missing) table).lowerBound elevation.toInt).map Prod.snd with
      | some (some m) => ((m.lowerBound (turn bearing)).map Prod.snd).getD missing
      | _ => missing := by
  have hturn : (if bearing = 360 then (0 : Int16) else bearing).toInt = turn bearing := apply_ite ..
  unfold getGain ofTable
  simp only [hturn]
  cases (build none (bearings missing) table).lowerBound elevation.toInt with
  | none => rfl
  | some e =>
    obtain ⟨k, m⟩ := e
    cases m with
    | none => rfl
    | some m =>
      simp only [Option.map_some]
      cases m.lowerBound (turn bearing) with
      | none => rfl
      | some _ => rfl

theorem getGain_of_gain (hfits : table.Fits) (hordered : table.WellOrdered) (h : table.Gain missing (turn bearing) elevation.toInt gain)
    : (ofTable missing table).getGain bearing elevation = gain := by
  have helevation : Holds none (bearings missing) table (build none (bearings missing) table) :=
    holds_build (fun _ _ => List.cons_ne_nil _ _) hordered.1
  have hfound : ∀ r ∈ table, r.Has elevation.toInt
      → (ofTable missing table).getGain bearing elevation = (((build missing id r.value).lowerBound (turn bearing)).map Prod.snd).getD missing :=
    fun r hr hhas => by rw [getGain_eq, helevation.lowerBound_of_has hordered.1 hfits.elevation hr hhas]; rfl
  have hbearing : ∀ r ∈ table, Holds missing id r.value (build missing id r.value) :=
    fun r hr => holds_build (hfits.gains r hr) (hordered.2 r hr)
  rcases h with ⟨r, hr, hhas, s, hs, hsec, hlast⟩ | ⟨hnone, rfl⟩
  . rw [hfound r hr hhas, (hbearing r hr).lowerBound_of_has (hordered.2 r hr) (hfits.bearing r hr) hs hsec]
    exact congrArg (Option.getD · missing) hlast
  . by_cases hany : ∃ r ∈ table, r.Has elevation.toInt
    . obtain ⟨r, hr, hhas⟩ := hany
      rw [hfound r hr hhas]
      cases hbound : (build gain id r.value).lowerBound (turn bearing) with
      | none => rfl
      | some e => exact (hbearing r hr).lowerBound_of_not_has (hordered.2 r hr) (hfits.bearing r hr) (neg_le_turn _) (hnone r hr hhas) hbound
    . rw [getGain_eq]
      cases hbound : (build none (bearings gain) table).lowerBound elevation.toInt with
      | none => rfl
      | some e =>
        have := helevation.lowerBound_of_not_has hordered.1 hfits.elevation elevation.le_toInt (fun r hr hhas => hany ⟨r, hr, hhas⟩) hbound
        rw [Option.map_some, this]

theorem gain_iff (hfits : table.Fits) (hordered : table.WellOrdered)
    : table.Gain missing (turn bearing) elevation.toInt gain
        ↔ (ofTable missing table).getGain bearing elevation = gain := by
  refine ⟨getGain_of_gain hfits hordered, ?_⟩
  rintro rfl
  by_cases hany : ∃ r ∈ table, r.Has elevation.toInt ∧ ∃ s ∈ r.value, s.Has (turn bearing)
  . obtain ⟨r, hr, hhas, s, hs, hsec⟩ := hany
    have hlast := List.getLast?_eq_some_getLast (hfits.gains r hr s hs)
    have hgain : table.Gain missing (turn bearing) elevation.toInt _ := .inl
      ⟨r, hr, hhas, s, hs, hsec, hlast⟩
    exact getGain_of_gain hfits hordered hgain ▸ hgain
  . have hgain : table.Gain missing (turn bearing) elevation.toInt missing :=
      .inr ⟨fun r hr hhas s hs hsec => hany ⟨r, hr, hhas, s, hs, hsec⟩, rfl⟩
    exact (getGain_of_gain hfits hordered hgain).symm ▸ hgain

end AntennaPattern

namespace AntennaProfile

def Profile.document (profile : Profile) : Role → Option Text
  | .antennapattern => some profile.antennapatternuri
  | .blockagepattern =>
    match profile.blockagepatternuri.getD [] with
    | [] => none
    | uri => some uri

def Profile.Is (profile : Profile) (id : Nat) : Prop :=
  (ParameterConvert.toUINT64 0 (2^16 - 1) profile.id).mapError Exception.conversion = .ok id

end AntennaProfile

namespace AntennaProfileManifest

open AntennaProfile

abbrev Info (δ : Type) := AntennaPattern δ × Option (AntennaPattern δ) × δ × δ × δ

def Info.pattern (info : Info δ) : Role → Option (AntennaPattern δ)
  | .antennapattern => some info.1
  | .blockagepattern => info.2.1

variable {f : Numbers δ} {documents : Documents} {m m' : AntennaProfileManifest δ}

def Alone (f : Numbers δ) (documents : Documents) (role : Role) (uri : Text) (p : AntennaPattern δ)
    : Prop :=
  ∃ document, documents uri = .ok document
    ∧ AntennaPattern.create f.toFloating (f.missing role) uri document role = .ok p

structure Loaded (f : Numbers δ) (documents : Documents) (done : List Profile)
    (m : AntennaProfileManifest δ) : Prop where
  store : ∀ uri p, m.antennaPatternStore uri = some p → ∃ profile ∈ done, ∃ role,
    profile.document role = some uri ∧ Alone f documents role uri p
  info : ∀ profile ∈ done, ∃ id info, profile.Is id ∧ m.getProfileInfo id = some info
    ∧ ∀ role, Option.Rel (fun uri p => m.antennaPatternStore uri = some p) (profile.document role)
      (Info.pattern info role)

theorem rel_mono {α β : Type} {r s : α → β → Prop} (h : ∀ a b, r a b → s a b) {a : Option α}
    {b : Option β} (hr : Option.Rel r a b)
    : Option.Rel s a b := by
  cases hr with
  | none => exact .none
  | some hr => exact .some (h _ _ hr)

theorem pattern_spec {role : Role} {p : AntennaPattern δ}
    (h : m.pattern f documents uri role = .ok (p, m'))
    : m'.profiles = m.profiles ∧ m'.antennaPatternStore uri = some p
        ∧ (∀ u q, m.antennaPatternStore u = some q → m'.antennaPatternStore u = some q)
        ∧ ∀ u q, m'.antennaPatternStore u = some q → m.antennaPatternStore u = some q
            ∨ (u = uri ∧ Alone f documents role u q) := by
  unfold pattern at h
  cases hstore : m.antennaPatternStore uri with
  | some q =>
    rw [hstore] at h
    cases h
    exact ⟨rfl, hstore, fun _ _ hq => hq, fun _ _ hq => .inl hq⟩
  | none =>
    rw [hstore] at h
    obtain ⟨document, hdocument, h⟩ := bind_eq_ok_iff.mp h
    obtain ⟨q, hcreate, h⟩ := bind_eq_ok_iff.mp h
    cases h
    refine ⟨rfl, Function.update_self .., fun u r hr => ?_, fun u r hr => ?_⟩
    . refine (Function.update_of_ne (fun heq => ?_) ..).trans hr
      rw [heq, hstore] at hr
      cases hr
    . by_cases heq : u = uri
      . subst heq
        obtain rfl := Option.some.inj
          ((Function.update_self (f := m.antennaPatternStore) ..).symm.trans hr)
        exact .inr ⟨rfl, document, hdocument, hcreate⟩
      . exact .inl ((Function.update_of_ne heq ..).symm.trans hr)

theorem blockagePattern_spec {profile : Profile} {b : Option (AntennaPattern δ)}
    (h : m.blockagePattern f documents profile = .ok (b, m'))
    : m'.profiles = m.profiles
        ∧ (∀ u q, m.antennaPatternStore u = some q → m'.antennaPatternStore u = some q)
        ∧ Option.Rel (fun uri p => m'.antennaPatternStore uri = some p)
          (profile.document .blockagepattern) b
        ∧ ∀ u q, m'.antennaPatternStore u = some q
          → m.antennaPatternStore u = some q ∨ (profile.document .blockagepattern = some u
              ∧ Alone f documents .blockagepattern u q) := by
  unfold blockagePattern at h
  unfold Profile.document
  cases huri : profile.blockagepatternuri.getD [] with
  | nil =>
    rw [huri] at h
    cases h
    exact ⟨rfl, fun _ _ hq => hq, .none, fun _ _ hq => .inl hq⟩
  | cons c cs =>
    rw [huri] at h
    obtain ⟨⟨p, m₁⟩, hpattern, h⟩ := bind_eq_ok_iff.mp h
    cases h
    obtain ⟨hprofiles, hstored, hkeep, hback⟩ := pattern_spec hpattern
    exact ⟨hprofiles, hkeep, .some hstored, fun u q hq => (hback u q hq).imp_right
      (fun hnew => ⟨congrArg some hnew.1.symm, hnew.2⟩)⟩

theorem Loaded.step {done : List Profile} {profile : Profile} (h : Loaded f documents done m)
    (hload : m.loadProfile f documents profile = .ok m')
    : Loaded f documents (done ++ [profile]) m' := by
  obtain ⟨id, hid, hload⟩ := bind_eq_ok_iff.mp hload
  obtain ⟨placement, -, hload⟩ := bind_eq_ok_iff.mp hload
  obtain ⟨⟨antenna, m₁⟩, hantenna, hload⟩ := bind_eq_ok_iff.mp hload
  obtain ⟨⟨blockage, m₂⟩, hblockage, hload⟩ := bind_eq_ok_iff.mp hload
  split_ifs at hload with hnew
  cases hload
  obtain ⟨hprofiles, huri, hkeep, hback⟩ := pattern_spec hantenna
  obtain ⟨hprofiles₂, hkeep₂, hrel, hback₂⟩ := blockagePattern_spec hblockage
  have hmem : profile ∈ done ++ [profile] := List.mem_append_right _ (List.mem_singleton_self _)
  refine ⟨fun u q hq => ?_, fun old hold => ?_⟩
  . rcases hback₂ u q hq with hq | hq
    . rcases hback u q hq with hq | ⟨rfl, halone⟩
      . obtain ⟨old, hold, hrest⟩ := h.store u q hq
        exact ⟨old, List.mem_append_left _ hold, hrest⟩
      . exact ⟨profile, hmem, .antennapattern, rfl, halone⟩
    . exact ⟨profile, hmem, .blockagepattern, hq⟩
  . rcases List.mem_append.mp hold with hold | hold
    . obtain ⟨id', info, his, hinfo, hpatterns⟩ := h.info old hold
      refine ⟨id', info, his, ?_, fun role => rel_mono (fun u q hq => hkeep₂ u q (hkeep u q hq))
        (hpatterns role)⟩
      have hinfo₂ : m₂.profiles id' = some info := (congrFun (hprofiles₂.trans hprofiles) id').trans hinfo
      refine (Function.update_of_ne (fun heq => hnew ?_) ..).trans hinfo₂
      rw [← heq, hinfo₂, Option.isSome_some]
    . obtain rfl := List.mem_singleton.mp hold
      refine ⟨id, _, hid, Function.update_self .., fun role => ?_⟩
      cases role with
      | antennapattern => exact .some (hkeep₂ _ _ huri)
      | blockagepattern => exact hrel

theorem loaded_of_load {profiles : List Profile} (h : load f documents profiles = .ok m)
    : Loaded f documents profiles m := by
  have hrun : Ensures (load f documents profiles)
      (Loaded f documents ([] ++ profiles.flatMap (fun profile => [profile]))) (fun _ => True) := by
    refine Ensures.foldlM_trace (fun done m profile _ hdone => ?_)
      ⟨fun _ _ h => (by cases h), fun _ h => absurd h List.not_mem_nil⟩
    cases hstep : m.loadProfile f documents profile with
    | ok m' => exact hdone.step hstep
    | error e => trivial
  rw [List.nil_append, List.flatMap_singleton'] at hrun
  exact hrun.of_ok h

def LooksUp (f : Numbers δ) : Prop :=
  ∀ (missing : δ) (uri : Text) (document : Document) (role : Role) (p : AntennaPattern δ),
    AntennaPattern.create f.toFloating missing uri document role = .ok p
      → ∃ table : Table δ, document.table f.toFloating role = .ok table ∧ table.WellOrdered
        ∧ ∀ bearing elevation gain, p.getGain bearing elevation = gain
          ↔ table.Gain missing (AntennaPattern.turn bearing) elevation.toInt gain

def Separate (f : Numbers δ) (documents : Documents) (profiles : List Profile)
    (m : AntennaProfileManifest δ) : Prop :=
  ∀ profile ∈ profiles, ∃ id info, profile.Is id ∧ m.getProfileInfo id = some info
    ∧ ∀ role, Option.Rel (fun uri p => ∃ alone, Alone f documents role uri alone
      ∧ ∀ bearing elevation, p.getGain bearing elevation = alone.getGain bearing elevation)
      (profile.document role) (Info.pattern info role)

def Agrees (f : Numbers δ) (document : Document) : Prop :=
  ∃ table table' : Table δ, document.table f.toFloating .antennapattern = .ok table
    ∧ document.table f.toFloating .blockagepattern = .ok table'
    ∧ table.WellOrdered ∧ table'.WellOrdered
    ∧ ∀ (bearing elevation : Int16) gain, table.Gain f.dbmMin
      (AntennaPattern.turn bearing) elevation.toInt gain
      ↔ table'.Gain f.zero (AntennaPattern.turn bearing) elevation.toInt gain

theorem looksUp (f : Numbers δ) : LooksUp f := by
  intro missing uri document role p h
  obtain ⟨table, htable, hordered, rfl⟩ := AntennaPattern.create_eq_ok_iff.mp h
  exact ⟨table, htable, hordered,
    fun _ _ _ => (AntennaPattern.gain_iff (Document.table_fits htable) hordered).symm⟩

theorem agrees_iff {uri : Text} {document : Document}
    : Agrees f document
        ↔
      ∃ p q, AntennaPattern.create f.toFloating f.dbmMin uri document .antennapattern = .ok p
        ∧ AntennaPattern.create f.toFloating f.zero uri document .blockagepattern = .ok q
        ∧ ∀ bearing elevation, p.getGain bearing elevation = q.getGain bearing elevation := by
  simp only [AntennaPattern.create_eq_ok_iff]
  constructor
  . rintro ⟨table, table', htable, htable', hordered, hordered', hgains⟩
    refine ⟨_, _, ⟨table, htable, hordered, rfl⟩, ⟨table', htable', hordered', rfl⟩,
      fun bearing elevation => Eq.symm ?_⟩
    rw [← AntennaPattern.gain_iff (Document.table_fits htable') hordered', ← hgains,
      AntennaPattern.gain_iff (Document.table_fits htable) hordered]
  . rintro ⟨_, _, ⟨table, htable, hordered, rfl⟩, ⟨table', htable', hordered', rfl⟩, hgains⟩
    refine ⟨table, table', htable, htable', hordered, hordered', fun bearing elevation gain => ?_⟩
    rw [AntennaPattern.gain_iff (Document.table_fits htable) hordered, AntennaPattern.gain_iff
      (Document.table_fits htable') hordered', hgains]

theorem Separate.pattern {profiles : List Profile} (h : Separate f documents profiles m)
    (hloaded : Loaded f documents profiles m)
    {profile : Profile} (hmem : profile ∈ profiles) {role : Role} {uri : Text}
    (hrole : profile.document role = some uri)
    : ∃ p alone, m.antennaPatternStore uri = some p ∧ Alone f documents role uri alone
        ∧ ∀ bearing elevation, p.getGain bearing elevation = alone.getGain bearing elevation := by
  obtain ⟨id, info, hid, hinfo, hrel⟩ := h profile hmem
  obtain ⟨id', info', hid', hinfo', hrel'⟩ := hloaded.info profile hmem
  obtain rfl := Except.ok.inj (hid.symm.trans hid')
  obtain rfl := Option.some.inj (hinfo.symm.trans hinfo')
  have hrel := hrel role
  have hrel' := hrel' role
  rw [hrole] at hrel hrel'
  cases hpattern : Info.pattern info role with
  | none =>
    rw [hpattern] at hrel
    cases hrel
  | some p =>
    rw [hpattern] at hrel hrel'
    cases hrel with
    | some halone =>
      cases hrel' with
      | some hstore => exact ⟨p, _, hstore, halone.choose_spec.1, halone.choose_spec.2⟩

theorem load_separate_iff (profiles : List Profile) (hload : load f documents profiles = .ok m)
    : LooksUp f ∧ Separate f documents profiles m
        ↔
      ∀ uri, (∃ profile ∈ profiles, profile.document .antennapattern = some uri)
        → (∃ profile ∈ profiles, profile.document .blockagepattern = some uri)
        → ∀ document, documents uri = .ok document → Agrees f document := by
  have hloaded := loaded_of_load hload
  refine (and_iff_right (looksUp f)).trans
    ⟨fun h uri hantenna hblockage document hdocument => ?_, fun h profile hmem => ?_⟩
  . obtain ⟨a, ha, hantenna⟩ := hantenna
    obtain ⟨b, hb, hblockage⟩ := hblockage
    obtain ⟨p, alone, hstore, ⟨d, hd, hcreate⟩, hgains⟩ := h.pattern hloaded ha hantenna
    obtain ⟨q, alone', hstore', ⟨d', hd', hcreate'⟩, hgains'⟩ := h.pattern hloaded hb hblockage
    obtain rfl := Except.ok.inj (hdocument.symm.trans hd)
    obtain rfl := Except.ok.inj (hdocument.symm.trans hd')
    obtain rfl := Option.some.inj (hstore.symm.trans hstore')
    exact agrees_iff.mpr ⟨alone, alone', hcreate, hcreate',
      fun bearing elevation => (hgains bearing elevation).symm.trans (hgains' bearing elevation)⟩
  . obtain ⟨id, info, hid, hinfo, hrel⟩ := hloaded.info profile hmem
    refine ⟨id, info, hid, hinfo, fun role => ?_⟩
    have hrel := hrel role
    generalize hdocument : profile.document role = uri at hrel ⊢
    generalize Info.pattern info role = pattern at hrel ⊢
    cases hrel with
    | none => exact .none
    | @some uri p hstore =>
      obtain ⟨other, hother, role', hrole, document, hread, hcreate⟩ := hloaded.store uri p hstore
      -- either the pattern is one of this role, or the document is for both
      cases role with
      | antennapattern =>
        cases role' with
        | antennapattern => exact .some ⟨p, ⟨document, hread, hcreate⟩, fun _ _ => rfl⟩
        | blockagepattern =>
          obtain ⟨a, b, ha, hb, hgains⟩ := agrees_iff.mp
            (h uri ⟨profile, hmem, hdocument⟩ ⟨other, hother, hrole⟩ document hread)
          obtain rfl := Except.ok.inj (hcreate.symm.trans hb)
          exact .some ⟨a, ⟨document, hread, ha⟩, fun bearing elevation => (hgains bearing elevation).symm⟩
      | blockagepattern =>
        cases role' with
        | antennapattern =>
          obtain ⟨a, b, ha, hb, hgains⟩ := agrees_iff.mp
            (h uri ⟨other, hother, hrole⟩ ⟨profile, hmem, hdocument⟩ document hread)
          obtain rfl := Except.ok.inj (hcreate.symm.trans ha)
          exact .some ⟨b, ⟨document, hread, hb⟩, hgains⟩
        | blockagepattern => exact .some ⟨p, ⟨document, hread, hcreate⟩, fun _ _ => rfl⟩

def wholeNumbers : Numbers Int where
  lt a b := a < b
  strtod s :=
    let number := ParameterConvert.strtol s
    (if number.negative then -number.magnitude else number.magnitude, false, number.rest)
  lowest := -10000
  max := 10000
  floatLowest := -10000
  floatMax := 10000
  toFloat := id
  dbmMin := -327
  zero := 0

def everywhere (gain : Text) : List Elevation :=
  [⟨['-', '9', '0'], ['9', '0'], [⟨['0'], ['3', '5', '9'], [gain], List.cons_ne_nil _ _⟩]⟩]

def sharedDocuments : Documents := fun uri =>
  if uri = ['a'] then
    .ok (fun
      | .antennapattern => some (everywhere ['1', '0'])
      | .blockagepattern => some (everywhere ['-', '5']))
  else
    .error (.unableToRead uri)

theorem load_shared
    : (load wholeNumbers sharedDocuments [⟨['1'], ['a'], some ['a'], none⟩]).toOption.map
          (fun m => (m.getProfileInfo 1).map (fun info => info.2.1.map (fun p => p.getGain 0 0)))
        = some (some (some 10))
      ∧ (AntennaPattern.create wholeNumbers.toFloating 0 ['a']
        (fun _ => some (everywhere ['-', '5'])) .blockagepattern).toOption.map
          (fun p => p.getGain 0 0)
        = some (-5) := by
  decide +kernel

def readable : Documents := fun _ => .ok (fun _ => some (everywhere ['1', '0']))

theorem load_separate_iff_distinct
    : ∃ m, load wholeNumbers readable
        [⟨['1'], ['a'], some ['b'], none⟩, ⟨['2'], ['a'], none, none⟩] = .ok m
        ∧ Separate wholeNumbers readable
            [⟨['1'], ['a'], some ['b'], none⟩, ⟨['2'], ['a'], none, none⟩] m := by
  cases hload : load wholeNumbers readable
      [⟨['1'], ['a'], some ['b'], none⟩, ⟨['2'], ['a'], none, none⟩] with
  | ok m =>
    refine ⟨m, rfl, ((load_separate_iff _ hload).mpr ?_).2⟩
    intro uri hantenna hblockage
    simp only [List.exists_mem_cons_iff, List.not_mem_nil, Profile.document, Option.getD_some,
      Option.getD_none, Option.some.injEq,
      false_and, exists_false, or_false, reduceCtorEq, or_self] at hantenna hblockage
    rw [← hblockage] at hantenna
    cases hantenna
  | error e =>
    have hok : (load wholeNumbers readable
        [⟨['1'], ['a'], some ['b'], none⟩, ⟨['2'], ['a'], none, none⟩]).isOk = true := by
      decide +kernel
    rw [hload] at hok
    cases hok

end AntennaProfileManifest
end Emane
