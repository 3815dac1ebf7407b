import Mathlib.Data.List.Nodup
import Emane.Dlep.Impl.ProtocolConfigImpl

/-!
This module contains what a map between ids and names has after a mapping has been inserted, and
how such a map goes with a map of infos.
-/

namespace Emane
namespace Dlep

namespace IdNameMap

variable {map map' : IdNameMap} {id : UInt32} {name mapname : String}

theorem left_eq_some_iff : map.left id = some name ↔ (id, name) ∈ map.entries := by
  unfold left
  constructor
  . intro h
    obtain ⟨entry, hfind, hname⟩ := Option.map_eq_some_iff.mp h
    have hid : entry.1 = id := by simpa using List.find?_some hfind
    rw [← hid, ← hname]
    exact List.mem_of_find?_eq_some hfind
  . intro hmem
    have hsome : (map.entries.find? (fun entry => entry.1 = id)).isSome := by
      rw [List.find?_isSome]
      exact ⟨_, hmem, by simp⟩
    obtain ⟨entry, hfind⟩ := Option.isSome_iff_exists.mp hsome
    have hid : entry.1 = id := by simpa using List.find?_some hfind
    have heq : entry = (id, name) :=
      List.inj_on_of_nodup_map map.nodup_ids (List.mem_of_find?_eq_some hfind) hmem hid
    rw [hfind, heq]
    rfl

theorem right_eq_some_iff : map.right name = some id ↔ (id, name) ∈ map.entries := by
  unfold right
  constructor
  . intro h
    obtain ⟨entry, hfind, hid⟩ := Option.map_eq_some_iff.mp h
    have hname : entry.2 = name := by simpa using List.find?_some hfind
    rw [← hid, ← hname]
    exact List.mem_of_find?_eq_some hfind
  . intro hmem
    have hsome : (map.entries.find? (fun entry => entry.2 = name)).isSome := by
      rw [List.find?_isSome]
      exact ⟨_, hmem, by simp⟩
    obtain ⟨entry, hfind⟩ := Option.isSome_iff_exists.mp hsome
    have hname : entry.2 = name := by simpa using List.find?_some hfind
    have heq : entry = (id, name) :=
      List.inj_on_of_nodup_map map.nodup_names (List.mem_of_find?_eq_some hfind) hmem hname
    rw [hfind, heq]
    rfl

theorem right_iff_left : map.right name = some id ↔ map.left id = some name := by
  rw [right_eq_some_iff, left_eq_some_iff]

theorem notMem_ids_of_left (h : map.left id = none) : id ∉ map.entries.map Prod.fst := by
  intro hmem
  obtain ⟨entry, hentry, rfl⟩ := List.mem_map.mp hmem
  rw [left_eq_some_iff.mpr (show (entry.1, entry.2) ∈ map.entries from hentry)] at h
  cases h

theorem notMem_names_of_right (h : map.right name = none) : name ∉ map.entries.map Prod.snd := by
  intro hmem
  obtain ⟨entry, hentry, rfl⟩ := List.mem_map.mp hmem
  rw [right_eq_some_iff.mpr (show (entry.1, entry.2) ∈ map.entries from hentry)] at h
  cases h

theorem entries_insert (hid : map.left id = none) (hname : map.right name = none)
    : (map.insert id name).entries = (id, name) :: map.entries := by
  unfold insert
  rw [dif_pos ⟨notMem_ids_of_left hid, notMem_names_of_right hname⟩]

theorem insert_of_left (h : map.left id = some name) : map.insert id name = map := by
  have hmem := List.mem_map_of_mem (f := Prod.fst) (left_eq_some_iff.mp h)
  unfold insert
  rw [dif_neg]
  rintro ⟨hnot, -⟩
  exact hnot hmem

end IdNameMap

namespace ProtocolConfigImpl

variable {map map' : IdNameMap} {id : UInt32} {name mapname : String}

theorem insertIdNameMapping_cases (h : insertIdNameMapping map id name mapname = .ok map')
    : (map.left id = some name ∧ map' = map)
        ∨ (map.left id = none ∧ map.right name = none ∧ map' = map.insert id name) := by
  unfold insertIdNameMapping at h
  cases hleft : map.left id with
  | some other =>
    left
    rw [hleft] at h
    by_cases hother : other = name
    . subst hother
      have hright : map.right other = some id := IdNameMap.right_iff_left.mpr hleft
      simp only [hright, Option.filter_some, ne_eq, not_true_eq_false, decide_false,
        Bool.false_eq_true, ite_false] at h
      exact ⟨rfl, by rw [← Except.ok.inj h, IdNameMap.insert_of_left hleft]⟩
    . rw [Option.filter_some, if_pos (by simpa using hother)] at h
      cases h
  | none =>
    right
    rw [hleft] at h
    cases hright : map.right name with
    | some other =>
      rw [hright] at h
      by_cases hother : other = id
      . rw [hother, IdNameMap.right_iff_left, hleft] at hright
        cases hright
      . rw [Option.filter_some, if_pos (by simpa using hother)] at h
        cases h
    | none =>
      rw [hright] at h
      exact ⟨rfl, rfl, (Except.ok.inj h).symm⟩

theorem left_insertIdNameMapping (h : insertIdNameMapping map id name mapname = .ok map') (id' : UInt32)
    : map'.left id' = if id' = id then some name else map.left id' := by
  rcases insertIdNameMapping_cases h with ⟨hleft, rfl⟩ | ⟨hleft, hright, rfl⟩
  . split
    . next heq => rw [heq, hleft]
    . rfl
  . unfold IdNameMap.left
    rw [IdNameMap.entries_insert hleft hright, List.find?_cons]
    by_cases heq : id' = id
    . simp [heq]
    . simp [heq, Ne.symm heq]

theorem right_insertIdNameMapping (h : insertIdNameMapping map id name mapname = .ok map')
    (name' : String)
    : map'.right name' = if name' = name then some id else map.right name' := by
  rcases insertIdNameMapping_cases h with ⟨hleft, rfl⟩ | ⟨hleft, hright, rfl⟩
  . split
    . next heq => rw [heq, IdNameMap.right_iff_left, hleft]
    . rfl
  . unfold IdNameMap.right
    rw [IdNameMap.entries_insert hleft hright, List.find?_cons]
    by_cases heq : name' = name
    . simp [heq]
    . simp [heq, Ne.symm heq]

structure Agree {ι : Type} (getId : ι → UInt32) (getName : ι → String) (names : IdNameMap)
    (infos : SortedMap UInt32 ι)
    : Prop where
  left : ∀ id, names.left id = (infos.find? id).map getName
  id : ∀ id info, infos.find? id = some info → getId info = id

namespace Agree

variable {ι : Type} {getId : ι → UInt32} {getName : ι → String} {names names' : IdNameMap}
  {infos : SortedMap UInt32 ι}
  {info : ι}

theorem empty : Agree getId getName .empty .empty := by
  constructor
  . intro id
    rfl
  . intro id info h
    cases h

theorem left_of_find? (h : Agree getId getName names infos) (hinfo : infos.find? id = some info)
    : names.left id = some (getName info) := by
  rw [h.left, hinfo]
  rfl

theorem exists_info (h : Agree getId getName names infos) (hname : names.left id = some name)
    : ∃ info, infos.find? id = some info ∧ getName info = name := by
  rw [h.left] at hname
  exact Option.map_eq_some_iff.mp hname

theorem set (h : Agree getId getName names infos)
    (hnames : ∀ id', names'.left id' = if id' = id then some name else names.left id')
    (hid : getId info = id)
    (hname : getName info = name)
    : Agree getId getName names' (infos.set id info) := by
  constructor
  . intro id'
    rw [hnames, SortedMap.find?_set]
    split
    . rw [← hname]
      rfl
    . exact h.left id'
  . intro id' info' hinfo
    rw [SortedMap.find?_set] at hinfo
    split at hinfo
    . next heq =>
      rw [← Option.some.inj hinfo, heq, hid]
    . exact h.id id' info' hinfo

theorem find?_name (h : Agree getId getName names infos) (hname : names.right name = some id)
    : ∃ info, infos.find? id = some info ∧
        (infos.toList.map (fun e => e.2)).find? (fun info => getName info = name) = some info := by
  obtain ⟨info, hinfo, rfl⟩ := h.exists_info (IdNameMap.right_iff_left.mp hname)
  have hmem : info ∈ infos.toList.map (fun e => e.2) :=
    List.mem_map.mpr ⟨(id, info), (SortedMap.find?_eq_some_iff infos id info).mp hinfo, rfl⟩
  have hsome : ((infos.toList.map (fun e => e.2)).find?
      (fun info' => getName info' = getName info)).isSome := by
    rw [List.find?_isSome]
    exact ⟨info, hmem, by simp⟩
  obtain ⟨info', hfind⟩ := Option.isSome_iff_exists.mp hsome
  obtain ⟨⟨id', _⟩, hmem', rfl⟩ := List.mem_map.mp (List.mem_of_find?_eq_some hfind)
  have hinfo' := (SortedMap.find?_eq_some_iff infos id' _).mpr hmem'
  -- the name leads to the id
  have hsame : some id' = some id := by
    rw [← hname, ← IdNameMap.right_iff_left.mpr (h.left_of_find? hinfo')]
    congr 1
    simpa using List.find?_some hfind
  rw [Option.some.inj hsame, hinfo] at hinfo'
  exact ⟨info, hinfo, by rw [hfind, Option.some.inj hinfo']⟩

theorem find?_name_none (h : Agree getId getName names infos) (hname : names.right name = none)
    : (infos.toList.map (fun e => e.2)).find? (fun info => getName info = name) = none := by
  rw [List.find?_eq_none]
  intro info hmem hsame
  obtain ⟨⟨id, _⟩, hmem', rfl⟩ := List.mem_map.mp hmem
  have hright := IdNameMap.right_iff_left.mpr
    (h.left_of_find? ((SortedMap.find?_eq_some_iff infos id _).mpr hmem'))
  rw [show getName _ = name by simpa using hsame, hname] at hright
  cases hright

end Agree
end ProtocolConfigImpl
end Dlep
end Emane
