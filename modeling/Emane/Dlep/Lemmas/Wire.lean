import Emane.Dlep.Lemmas.Tiles

/-!
This module contains the building and the parsing of signals and messages: which of them come back
from their bytes, and what is known of bytes that are parsed without an error.
-/

namespace Emane
namespace Dlep

open Reader

namespace IdNameMap

variable {map : IdNameMap}

theorem exists_left_of_right {name : String} {id : SignalIdType} (h : map.right name = some id)
    : ∃ name', map.left id = some name' := by
  obtain ⟨entry, hfind, hid⟩ := Option.map_eq_some_iff.mp h
  have hmem := List.mem_of_find?_eq_some hfind
  have hsome : (map.entries.find? (fun entry => entry.1 = id)).isSome := by
    rw [List.find?_isSome]
    exact ⟨entry, hmem, by simpa using hid⟩
  obtain ⟨entry', hfind'⟩ := Option.isSome_iff_exists.mp hsome
  refine ⟨entry'.2, ?_⟩
  unfold left
  rw [hfind']
  rfl

end IdNameMap

namespace Wire

variable {cfg : MessageConfig}

def prefixBytes (cfg : MessageConfig) (isSignal : Bool) : Bytes :=
  if isSignal then cfg.signalPrefix else []

structure HasHeader (cfg : MessageConfig) (isSignal : Bool) (bytes : Bytes) (id : SignalIdType)
    (signalLen : Nat)
    (body : Bytes) : Prop where
  bytes_eq : bytes = prefixBytes cfg isSignal
    ++ (BigEndian.digits cfg.signalIdSize id.toNat
      ++ (BigEndian.digits cfg.signalLengthSize signalLen ++ body))
  id_lt : id.toNat < 256^cfg.signalIdSize.val
  length_lt : signalLen < 256^cfg.signalLengthSize.val

def Known (cfg : MessageConfig) (isSignal : Bool) (id : SignalIdType) : Prop :=
  ∃ name, (if isSignal then cfg.getSignalName id else cfg.getMessageName id) = .ok name

theorem known_of_getSignalId {name : String} {id : SignalIdType} {isSignal : Bool}
    (h : cfg.getSignalId name = .ok (id, isSignal))
    : Known cfg isSignal id := by
  unfold MessageConfig.getSignalId at h
  split at h
  . next hright =>
    cases h
    obtain ⟨name', hleft⟩ := IdNameMap.exists_left_of_right hright
    refine ⟨name', ?_⟩
    rw [if_pos rfl]
    unfold MessageConfig.getSignalName
    rw [hleft]
  . split at h
    . next hright =>
      cases h
      obtain ⟨name', hleft⟩ := IdNameMap.exists_left_of_right hright
      refine ⟨name', ?_⟩
      rw [if_neg (by decide)]
      unfold MessageConfig.getMessageName
      rw [hleft]
    . cases h

theorem error_of_not_known {isSignal : Bool} {id : SignalIdType} (h : ¬ Known cfg isSignal id)
    : (if isSignal then cfg.getSignalName id else cfg.getMessageName id) = .error
        (.badSignalId (toString id.toNat)) := by
  unfold Known at h
  cases isSignal with
  | true =>
    unfold MessageConfig.getSignalName at h ⊢
    cases hleft : cfg.signalMap.left id with
    | none => rfl
    | some name => simp [hleft] at h
  | false =>
    unfold MessageConfig.getMessageName at h ⊢
    cases hleft : cfg.messageMap.left id with
    | none => rfl
    | some name => simp [hleft] at h

theorem length_lt_eight {fieldSize : FieldSizeInBytes} {n : Nat} (h : n < 256^fieldSize.val)
    : n < 256^8 := by
  exact Nat.lt_of_lt_of_le h (Nat.pow_le_pow_right (by decide) fieldSize.property.2)

theorem digits_inj {fieldSize : FieldSizeInBytes} {n n' : Nat} (h : n < 256^fieldSize.val)
    (h' : n' < 256^fieldSize.val)
    (heq : BigEndian.digits fieldSize n = BigEndian.digits fieldSize n')
    : n = n' := by
  have hwidth : 8 * fieldSize.val ≤ 64 := Nat.mul_le_mul_left 8 fieldSize.property.2
  rw [← BigEndian.foldl_digits h hwidth, heq, BigEndian.foldl_digits h' hwidth]

theorem HasHeader.unique {isSignal : Bool} {bytes body body' : Bytes} {id id' : SignalIdType}
    {signalLen signalLen' : Nat}
    (h : HasHeader cfg isSignal bytes id signalLen body)
    (h' : HasHeader cfg isSignal bytes id' signalLen' body')
    : id = id' ∧ signalLen = signalLen' ∧ body = body' := by
  have hbytes := h.bytes_eq
  rw [h'.bytes_eq, List.append_cancel_left_eq] at hbytes
  obtain ⟨hid, htail⟩ := List.append_inj hbytes (by rw [BigEndian.length_digits, BigEndian.length_digits])
  obtain ⟨hlength, hbody⟩ := List.append_inj htail
    (by rw [BigEndian.length_digits, BigEndian.length_digits])
  refine ⟨?_, ?_, hbody.symm⟩
  . exact UInt32.toNat.inj (digits_inj h.id_lt h'.id_lt hid.symm)
  . exact digits_inj h.length_lt h'.length_lt hlength.symm

namespace ProtocolMessage

theorem bailout_eq_empty_iff {logPrefix err : String} : bailout logPrefix err = "" ↔ err = "" := by
  unfold bailout
  split
  . next hne =>
    constructor
    . intro h
      exact (String.append_eq_empty_iff.mp (String.append_eq_empty_iff.mp h).1).1
    . intro h
      exact absurd h hne
  . rfl

theorem caught_of_thrown {e : Error} (h : e.Thrown) : ∃ err, caught (.error e) = .ok err ∧ err ≠ "" := by
  cases e with
  | lengthError what => exact ⟨what, rfl, h⟩
  | invalidArgument what => exact ⟨what, rfl, h⟩
  | badDataItemId what => exact ⟨what, rfl, h⟩
  | undefinedBehaviour => exact h.elim

theorem skipPrefix_cons (signalPrefix : Bytes) (ch b : UInt8) (chs bytes : Bytes)
    : skipPrefix signalPrefix (ch :: chs) (b :: bytes)
        =
      if b ≠ ch then
        .ok (.error ("signal prefix " ++ text signalPrefix ++ " mismatch: " ++ text
          [b] ++ " != " ++ text [ch]))
      else
        skipPrefix signalPrefix chs bytes := by
  rfl

theorem skipPrefix_cases (signalPrefix : Bytes) {chs bytes : Bytes} (h : chs.length ≤ bytes.length)
    : (∃ rest, bytes = chs ++ rest ∧ skipPrefix signalPrefix chs bytes = .ok (.ok rest))
        ∨ ∃ err, skipPrefix signalPrefix chs bytes = .ok (.error err) ∧ err ≠ "" := by
  induction chs generalizing bytes with
  | nil => exact Or.inl ⟨bytes, rfl, rfl⟩
  | cons ch chs ih =>
    cases bytes with
    | nil => simp at h
    | cons b bytes =>
      rw [skipPrefix_cons]
      by_cases hb : b = ch
      . rw [if_neg (not_not.mpr hb)]
        cases ih (Nat.le_of_succ_le_succ h) with
        | inl hrest =>
          obtain ⟨rest, hbytes, hskip⟩ := hrest
          exact Or.inl ⟨rest, by rw [hb, hbytes, List.cons_append], hskip⟩
        | inr herr => exact Or.inr herr
      . rw [if_pos hb]
        refine Or.inr ⟨_, rfl, ?_⟩
        intro hempty
        have hempty' := (String.append_eq_empty_iff.mp (String.append_eq_empty_iff.mp hempty).1).2
        revert hempty'
        decide

theorem skipPrefix_append (signalPrefix chs rest : Bytes)
    : skipPrefix signalPrefix chs (chs ++ rest) = .ok (.ok rest) := by
  induction chs with
  | nil => rfl
  | cons ch chs ih =>
    rw [List.cons_append, skipPrefix_cons, if_neg (not_not.mpr rfl)]
    exact ih

def parsed (pm : ProtocolMessage) (id : SignalIdType) (dataItems : List DataItem) : ProtocolMessage :=
  { pm with signalId := id, signalIdInitialized := true, dataItems := dataItems }

theorem parseBody_of_header {pm : ProtocolMessage} {body : Bytes} {id : SignalIdType} {signalLen : Nat}
    (hid : id.toNat < 256^cfg.signalIdSize.val) (hlength : signalLen < 256^cfg.signalLengthSize.val)
    (hknown : Known cfg pm.isSignal id)
    : parseBody cfg pm
        (BigEndian.digits cfg.signalIdSize id.toNat
          ++ (BigEndian.digits cfg.signalLengthSize signalLen ++ body))
        =
      (parsed pm id (parseDataItems cfg body.length body []).1,
        (parseDataItems cfg body.length body []).2.map .error) := by
  have hreadId := reads_deserializeSized 4 cfg.signalIdSize.property.2 id.toNat_lt hid
  have hreadLength := reads_deserializeSized 8 cfg.signalLengthSize.property.2
    (length_lt_eight hlength) hlength
  obtain ⟨name, hname⟩ := hknown
  unfold parseBody
  rw [hreadId]
  simp only [UInt32.ofNat_toNat]
  rw [hreadLength]
  unfold getSignalName
  rw [hname]
  rfl

theorem parseBody_cases (pm : ProtocolMessage) (bytes : Bytes)
    : (∃ id signalLen body,
        bytes = BigEndian.digits cfg.signalIdSize id.toNat
          ++ (BigEndian.digits cfg.signalLengthSize signalLen ++ body)
          ∧ id.toNat < 256^cfg.signalIdSize.val
          ∧ signalLen < 256^cfg.signalLengthSize.val
          ∧ Known cfg pm.isSignal id)
        ∨ ∃ pm' e err, parseBody cfg pm bytes = (pm', some e) ∧ caught e = .ok err ∧ err ≠ "" := by
  unfold parseBody
  cases hid : (deserializeSized 4 cfg.signalIdSize).run bytes with
  | error e =>
    have hthrown := (throws_deserializeSized 4 cfg.signalIdSize bytes).of_error hid
    obtain ⟨err, hcaught, hne⟩ := caught_of_thrown hthrown
    exact Or.inr ⟨_, _, err, rfl, hcaught, hne⟩
  | ok x =>
    obtain ⟨id, bytes'⟩ := x
    obtain ⟨hbytes, hidFits, hidLt⟩ := (run_deserializeSized_iff cfg.signalIdSize.property.2).mp hid
    have hofNat : (UInt32.ofNat id).toNat = id := UInt32.toNat_ofNat_of_lt' hidLt
    simp only
    cases hlength : (deserializeSized 8 cfg.signalLengthSize).run bytes' with
    | error e =>
      have hthrown := (throws_deserializeSized 8 cfg.signalLengthSize bytes').of_error hlength
      obtain ⟨err, hcaught, hne⟩ := caught_of_thrown hthrown
      exact Or.inr ⟨_, _, err, rfl, hcaught, hne⟩
    | ok y =>
      obtain ⟨signalLen, body⟩ := y
      obtain ⟨hbytes', hlengthFits, _⟩ :=
        (run_deserializeSized_iff cfg.signalLengthSize.property.2).mp hlength
      unfold getSignalName
      by_cases hknown : Known cfg pm.isSignal (UInt32.ofNat id)
      . left
        refine ⟨UInt32.ofNat id, signalLen, body, ?_, ?_, hlengthFits, hknown⟩
        . rw [hbytes, hbytes', hofNat]
        . rw [hofNat]
          exact hidFits
      . right
        rw [error_of_not_known hknown]
        exact ⟨{ pm with signalId := UInt32.ofNat id, signalIdInitialized := true }, _, _, rfl, rfl,
          Nat.repr_ne_empty⟩

variable {isSignal : Bool} {bytes body : Bytes} {id : SignalIdType} {signalLen : Nat}

theorem parse_of_header (h : HasHeader cfg isSignal bytes id signalLen body)
    (hknown : Known cfg isSignal id)
    (pm : ProtocolMessage) (logPrefix : String)
    : parse cfg pm bytes isSignal logPrefix
        =
      match parseDataItems cfg body.length body [] with
      | (dataItems, none) =>
        .ok ("", parsed { pm with msgbuf := bytes, isSignal := isSignal } id dataItems)
      | (dataItems, some e) =>
        (caught (.error e)).map
          (fun err => (bailout logPrefix err,
              parsed { pm with msgbuf := bytes, isSignal := isSignal } id dataItems)) := by
  have hlong : ¬ (isSignal ∧ bytes.length ≤ cfg.signalPrefix.length) := by
    rintro ⟨hsignal, hle⟩
    have hsize := cfg.signalIdSize.property.1
    rw [h.bytes_eq, hsignal] at hle
    unfold prefixBytes at hle
    rw [if_pos rfl, List.length_append, List.length_append, BigEndian.length_digits] at hle
    omega
  have hskip : skipPrefix cfg.signalPrefix (if isSignal then cfg.signalPrefix else []) bytes
      = .ok (.ok
        (BigEndian.digits cfg.signalIdSize id.toNat
            ++ (BigEndian.digits cfg.signalLengthSize signalLen ++ body))) := by
    rw [h.bytes_eq]
    exact skipPrefix_append _ _ _
  have hbody := @parseBody_of_header cfg
    { pm with msgbuf := bytes, isSignal := isSignal, dataItems := [] } body id
    signalLen h.id_lt h.length_lt hknown
  unfold parse parseBuffer
  rw [if_neg hlong, hskip]
  simp only [bind, Except.bind]
  rw [hbody]
  cases hitems : parseDataItems cfg body.length body [] with
  | mk dataItems e =>
    cases e with
    | none => rfl
    | some e =>
      cases caught (.error e) with
      | error e' => rfl
      | ok err => rfl

theorem parse_cases (pm : ProtocolMessage) (bytes : Bytes) (isSignal : Bool) (logPrefix : String)
    : (∃ id signalLen body, HasHeader cfg isSignal bytes id signalLen body ∧ Known cfg isSignal id)
        ∨ ∃ err pm', parse cfg pm bytes isSignal logPrefix = .ok (err, pm') ∧ err ≠ "" := by
  unfold parse parseBuffer
  by_cases hshort : isSignal ∧ bytes.length ≤ cfg.signalPrefix.length
  . right
    rw [if_pos hshort]
    refine ⟨_, _, rfl, ?_⟩
    rw [ne_eq, bailout_eq_empty_iff, String.append_eq_empty_iff]
    intro hempty
    revert hempty
    simp
  -- from here on the loop over the prefix has enough bytes
  . have hlong : (prefixBytes cfg isSignal).length ≤ bytes.length := by
      unfold prefixBytes
      cases isSignal with
      | false => exact Nat.zero_le _
      | true =>
        rw [if_pos rfl]
        have hnot : ¬ bytes.length ≤ cfg.signalPrefix.length := fun hle => hshort ⟨rfl, hle⟩
        omega
    rw [if_neg hshort]
    cases skipPrefix_cases cfg.signalPrefix hlong with
    | inr herr =>
      right
      obtain ⟨err, hskip, hne⟩ := herr
      unfold prefixBytes at hskip
      rw [hskip]
      refine ⟨_, _, rfl, ?_⟩
      rw [ne_eq, bailout_eq_empty_iff]
      exact hne
    | inl hrest =>
      obtain ⟨rest, hbytes, hskip⟩ := hrest
      cases @parseBody_cases cfg
          { pm with msgbuf := bytes, isSignal := isSignal, dataItems := [] } rest with
      | inl hheader =>
        left
        obtain ⟨id, signalLen, body, hrest, hid, hlength, hknown⟩ := hheader
        refine ⟨id, signalLen, body, ⟨?_, hid, hlength⟩, hknown⟩
        rw [hbytes, hrest]
      | inr herr =>
        right
        obtain ⟨pm', e, err, hbody, hcaught, hne⟩ := herr
        unfold prefixBytes at hskip
        rw [hskip]
        simp only [bind, Except.bind]
        rw [hbody]
        simp only
        rw [hcaught]
        refine ⟨_, _, rfl, ?_⟩
        rw [ne_eq, bailout_eq_empty_iff]
        exact hne

theorem parseDataItems_nil (fuel : Nat) (acc : List DataItem)
    : parseDataItems cfg fuel [] acc = (acc, none) := by
  cases fuel with
  | zero => rfl
  | succ fuel => rfl

theorem parseDataItems_of_runsPast {rest : Bytes} (h : DataItem.RunsPast cfg.toProtocolConfig rest)
    {fuel : Nat}
    (hfuel : rest.length ≤ fuel) (acc : List DataItem)
    : parseDataItems cfg fuel rest acc = (acc, some .undefinedBehaviour) := by
  have hrun := run_deserializeDataItem_undefined_iff.mpr h
  obtain ⟨id, diLength, behind, hheader, _⟩ := h
  have hne : ¬ rest.isEmpty = true := by simpa using hheader.ne_nil
  cases fuel with
  | zero =>
    have hnil : rest = [] := List.length_eq_zero_iff.mp (by omega)
    exact absurd hnil hheader.ne_nil
  | succ fuel =>
    unfold parseDataItems
    rw [if_neg hne, hrun]

theorem parse_of_tiles {dataItems : List DataItem} (h : HasHeader cfg isSignal bytes id signalLen body)
    (hknown : Known cfg isSignal id) (htiles : Tiles cfg body dataItems) (pm : ProtocolMessage)
    (logPrefix : String)
    : parse cfg pm bytes isSignal logPrefix
        =
      .ok ("", parsed { pm with msgbuf := bytes, isSignal := isSignal } id dataItems) := by
  obtain ⟨fuel', _, hloop⟩ := @parseDataItems_of_tiles cfg dataItems body [] htiles body.length
    (by simp) []
  rw [List.append_nil, parseDataItems_nil, List.nil_append] at hloop
  rw [parse_of_header h hknown, hloop]

theorem parse_of_runsPastBehind (h : HasHeader cfg isSignal bytes id signalLen body)
    (hknown : Known cfg isSignal id)
    (hpast : RunsPastBehind cfg body) (pm : ProtocolMessage) (logPrefix : String)
    : parse cfg pm bytes isSignal logPrefix = .error .undefinedBehaviour := by
  obtain ⟨dataItems, front, rest, rfl, htiles, hrest⟩ := hpast
  obtain ⟨fuel, hfuel, hloop⟩ := @parseDataItems_of_tiles cfg dataItems front rest htiles
    (front ++ rest).length (by simp) []
  rw [parseDataItems_of_runsPast hrest hfuel] at hloop
  rw [parse_of_header h hknown, hloop]
  rfl

theorem parse_of_thrown (h : HasHeader cfg isSignal bytes id signalLen body)
    (hknown : Known cfg isSignal id) {e : Error}
    (hthrown : e.Thrown) (hloop : (parseDataItems cfg body.length body []).2 = some e)
    (pm : ProtocolMessage)
    (logPrefix : String)
    : ∃ err pm', parse cfg pm bytes isSignal logPrefix = .ok (err, pm') ∧ err ≠ "" := by
  obtain ⟨err, hcaught, hne⟩ := caught_of_thrown hthrown
  rw [parse_of_header h hknown]
  cases hitems : parseDataItems cfg body.length body [] with
  | mk dataItems e' =>
    rw [hitems] at hloop
    simp only at hloop
    rw [hloop]
    simp only
    rw [hcaught]
    refine ⟨_, _, rfl, ?_⟩
    intro hempty
    exact hne (bailout_eq_empty_iff.mp hempty)

def ParsesSoundly (cfg : MessageConfig) (isSignal : Bool) (bytes : Bytes) : Prop :=
  ∀ pm logPrefix, ∃ err pm',
    parse cfg pm bytes isSignal logPrefix = .ok (err, pm')
      ∧ (err = "" → ∃ id body, HasHeader cfg isSignal bytes id body.length body
        ∧ Tiles cfg body pm'.dataItems)

def RunsAway (cfg : MessageConfig) (isSignal : Bool) (bytes : Bytes) : Prop :=
  ∃ id signalLen body, HasHeader cfg isSignal bytes id signalLen body ∧ Known cfg isSignal id
    ∧ RunsPastBehind cfg body

def LengthRight (cfg : MessageConfig) (isSignal : Bool) (bytes : Bytes) : Prop :=
  ∀ id signalLen body dataItems,
    HasHeader cfg isSignal bytes id signalLen body → Known cfg isSignal id → Tiles cfg body dataItems →
      signalLen = body.length

theorem parsesSoundly_iff (cfg : MessageConfig) (isSignal : Bool) (bytes : Bytes)
    : ParsesSoundly cfg isSignal bytes ↔ ¬ RunsAway cfg isSignal bytes
        ∧ LengthRight cfg isSignal bytes := by
  constructor
  . intro h
    obtain ⟨err, pm', hparse, hsuccess⟩ := h empty ""
    constructor
    . rintro ⟨id, signalLen, body, hheader, hknown, hpast⟩
      rw [parse_of_runsPastBehind hheader hknown hpast] at hparse
      cases hparse
    . intro id signalLen body dataItems hheader hknown htiles
      rw [parse_of_tiles hheader hknown htiles] at hparse
      cases hparse
      obtain ⟨id', body', hheader', _⟩ := hsuccess rfl
      obtain ⟨_, hlength, hbody⟩ := hheader.unique hheader'
      rw [hlength, hbody]
  . rintro ⟨haway, hright⟩ pm logPrefix
    cases @parse_cases cfg pm bytes isSignal logPrefix with
    | inr herr =>
      obtain ⟨err, pm', hparse, hne⟩ := herr
      exact ⟨err, pm', hparse, fun hempty => absurd hempty hne⟩
    | inl hheader =>
      obtain ⟨id, signalLen, body, hheader, hknown⟩ := hheader
      rcases @parseDataItems_cases cfg body.length body (Nat.le_refl _) [] with
        ⟨dataItems, htiles, _⟩ | ⟨hpast, _⟩ | ⟨e, hthrown, hloop⟩
      . refine ⟨_, _, parse_of_tiles hheader hknown htiles pm logPrefix, ?_⟩
        intro _
        have hlength := hright id signalLen body dataItems hheader hknown htiles
        rw [hlength] at hheader
        exact ⟨id, body, hheader, htiles⟩
      . exact absurd ⟨id, signalLen, body, hheader, hknown, hpast⟩ haway
      . obtain ⟨err, pm', hparse, hne⟩ := parse_of_thrown hheader hknown hthrown hloop pm logPrefix
        exact ⟨err, pm', hparse, fun hempty => absurd hempty hne⟩

end ProtocolMessage

end Wire

end Dlep
end Emane
