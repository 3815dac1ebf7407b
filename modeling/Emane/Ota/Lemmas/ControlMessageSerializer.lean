import Emane.Ota.Impl.ControlMessageSerializer
import Emane.Packet.Lemmas.Packet

/-!
This module contains what the two ways to read control messages make of bytes, in one piece or in
segments.
-/

namespace Emane

theorem ControlMessage.ne_otaTransmitter
    : (102 : ControlMessageId) ≠ EMANE_CONTROL_MEASSGE_OTA_TRANSMITTER := by
  decide

namespace ControlMessageSerializer

theorem ntohs_digits {n : Nat} (h : n < 2^16) : ntohs (BigEndian.digits 2 n) = n := by
  exact BigEndian.foldl_digits (by omega) (by omega)

theorem digits_ntohs {bytes : Bytes} (h : bytes.length = 2)
    : BigEndian.digits 2 (ntohs bytes) = bytes ∧ ntohs bytes < 2^16 := by
  exact BigEndian.digits_foldl h (by omega)

structure Fits (msgs : List SerializedControlMessage) : Prop where
  count : msgs.length < 2^16
  lengths : ∀ msg ∈ msgs, msg.serialization.length < 2^16

def messageBytes (msg : SerializedControlMessage) : Bytes :=
  BigEndian.digits 2 msg.serializedId.toNat ++ BigEndian.digits 2 msg.serialization.length
    ++ msg.serialization

theorem length_messageBytes (msg : SerializedControlMessage)
    : (messageBytes msg).length = 4 + msg.serialization.length := by
  simp only [messageBytes, List.length_append, BigEndian.length_digits]

variable (msgs : List SerializedControlMessage)

theorem flatten_getVectorIO_eq
    : ( getVectorIO msgs).flatten = BigEndian.digits 2 msgs.length ++ msgs.flatMap messageBytes := by
  unfold getVectorIO
  rw [List.flatten_cons]
  congr 1
  induction msgs with
  | nil => rfl
  | cons msg msgs ih =>
    rw [List.flatMap_cons, List.flatten_append, List.flatMap_cons, ih]
    simp [messageBytes]

theorem getLength_eq : getLength msgs = ( getVectorIO msgs).flatten.length := by
  rw [flatten_getVectorIO_eq, List.length_append, BigEndian.length_digits, List.length_flatMap]
  unfold getLength
  simp only [length_messageBytes]

theorem getLength_cons (msg : SerializedControlMessage) (msgs : List SerializedControlMessage)
    : getLength (msg :: msgs) = 4 + msg.serialization.length + getLength msgs := by
  simp only [getLength, List.map_cons, List.sum_cons]
  omega

theorem length_lt_getLength : msgs.length < getLength msgs := by
  induction msgs with
  | nil => decide
  | cons msg msgs ih =>
    rw [List.length_cons, getLength_cons]
    omega

theorem length_serialization_lt_getLength {msgs : List SerializedControlMessage}
    {msg : SerializedControlMessage} (hmsg : msg ∈ msgs)
    : msg.serialization.length < getLength msgs := by
  induction msgs with
  | nil => exact absurd hmsg List.not_mem_nil
  | cons first msgs ih =>
    rw [getLength_cons]
    rw [List.mem_cons] at hmsg
    rcases hmsg with rfl | hmsg
    . omega
    . have hlt := ih hmsg
      omega

section

variable {mem : Nat → UInt8} {start : Nat}

variable {length : Nat}

theorem create_go_succ {msg : SerializedControlMessage} (hmsg : msg.serialization.length < 2^16)
    (hholds : Memory.Holds mem start (messageBytes msg)) (count : Nat)
    (hlength : (messageBytes msg).length ≤ length)
    : create.go mem (count + 1) start length
        =
      let rest := create.go mem count (start + (messageBytes msg).length)
        (length - (messageBytes msg).length)
      (⟨start, 4⟩ :: ⟨start + 4, msg.serialization.length⟩ :: rest.1,
          rest.2.map (fun msgs => msg :: msgs)) := by
  unfold messageBytes at hholds
  rw [Memory.holds_append_iff, Memory.holds_append_iff, List.length_append, BigEndian.length_digits,
    BigEndian.length_digits] at hholds
  obtain ⟨⟨hid, hlen⟩, hdata⟩ := hholds
  unfold Memory.Holds at hid hlen hdata
  rw [BigEndian.length_digits] at hid hlen
  have hserializedId : UInt16.ofNat (ntohs (Memory.load mem start 2)) = msg.serializedId := by
    rw [hid, ntohs_digits msg.serializedId.toNat_lt, UInt16.ofNat_toNat]
  have hmessageLength : ntohs (Memory.load mem (start + 2) 2) = msg.serialization.length := by
    rw [hlen, ntohs_digits hmsg]
  rw [length_messageBytes] at hlength ⊢
  have hstart : start + (4 + msg.serialization.length) = start + 4 + msg.serialization.length := by omega
  have hrest : length - (4 + msg.serialization.length) = length - 4 - msg.serialization.length := by omega
  rw [hstart, hrest]
  conv =>
    lhs
    unfold create.go
  rw [if_pos (by omega)]
  simp only [hserializedId, hmessageLength]
  rw [if_pos (by omega)]
  simp only [hdata]

variable {msgs : List SerializedControlMessage}

theorem create_go_succ_iff {count : Nat}
    : (create.go mem (count + 1) start length).2 = .ok msgs
        ↔
      ∃ msg msgs',
        msgs = msg :: msgs'
          ∧ msg.serialization.length < 2^16
          ∧ Memory.Holds mem start (messageBytes msg)
          ∧ (messageBytes msg).length ≤ length
          ∧ (create.go mem count (start + (messageBytes msg).length)
              (length - (messageBytes msg).length)).2 = .ok msgs' := by
  constructor
  . intro hgo
    unfold create.go at hgo
    split at hgo
    . simp only at hgo
      split at hgo
      . next hle =>
        have hid := @digits_ntohs (Memory.load mem start 2) (Memory.length_load _ _ _)
        have hmessageLength := @digits_ntohs (Memory.load mem (start + 2) 2) (Memory.length_load _ _ _)
        generalize hmsg : SerializedControlMessage.mk (UInt16.ofNat (ntohs (Memory.load mem start 2)))
          (Memory.load mem (start + 4) (ntohs (Memory.load mem (start + 2) 2))) = msg at hgo
        have hserialization : msg.serialization.length = ntohs (Memory.load mem (start + 2) 2) := by
          rw [← hmsg]
          exact Memory.length_load _ _ _
        have hlength := length_messageBytes msg
        generalize hrest : create.go mem count (start + 4 + ntohs (Memory.load mem (start + 2) 2))
          (length - 4 - ntohs (Memory.load mem (start + 2) 2)) = rest at hgo
        obtain ⟨accesses, result⟩ := rest
        cases result with
        | error e => simp [Except.map] at hgo
        | ok msgs' =>
          simp only [Except.map, Except.ok.injEq] at hgo
          refine ⟨msg, msgs', hgo.symm, by omega, ?_, by omega, ?_⟩
          . unfold messageBytes
            rw [hserialization, hmessageLength.1, Memory.holds_append_iff,
              Memory.holds_append_iff, ← hmsg]
            simp only [UInt16.toNat_ofNat', Nat.mod_eq_of_lt hid.2, hid.1, Memory.length_load,
              List.length_append, Memory.Holds,
              and_self]
          . rw [hlength, hserialization, ← Nat.add_assoc, ← Nat.sub_sub, hrest]
      . simp at hgo
    . simp at hgo
  . rintro ⟨msg, msgs', rfl, hmsg, hholds, hlength, hrest⟩
    rw [create_go_succ hmsg hholds count hlength]
    simp only [hrest]
    rfl

theorem create_go_eq_ok_iff {count : Nat}
    : (create.go mem count start length).2 = .ok msgs
        ↔
      msgs.length = count
        ∧ (∀ msg ∈ msgs, msg.serialization.length < 2^16)
        ∧ Memory.Holds mem start (msgs.flatMap messageBytes)
        ∧ (msgs.flatMap messageBytes).length ≤ length := by
  induction count generalizing msgs start length with
  | zero =>
    unfold create.go
    constructor
    . intro h
      cases h
      simp [Memory.Holds, Memory.load]
    . rintro ⟨hlength, _⟩
      rw [List.eq_nil_of_length_eq_zero hlength]
  | succ count ih =>
    rw [create_go_succ_iff]
    constructor
    . rintro ⟨msg, msgs', rfl, hmsg, hholds, hle, hrest⟩
      rw [ih] at hrest
      obtain ⟨hcount, hlengths, hholds', hle'⟩ := hrest
      rw [List.flatMap_cons, Memory.holds_append_iff, List.length_append, List.length_cons,
        List.forall_mem_cons]
      exact ⟨by omega, ⟨hmsg, hlengths⟩, ⟨hholds, hholds'⟩, by omega⟩
    . rintro ⟨hcount, hlengths, hholds, hle⟩
      cases msgs with
      | nil => simp at hcount
      | cons msg msgs' =>
        rw [List.flatMap_cons, Memory.holds_append_iff] at hholds
        rw [List.flatMap_cons, List.length_append] at hle
        rw [List.forall_mem_cons] at hlengths
        rw [List.length_cons] at hcount
        refine ⟨msg, msgs', rfl, hlengths.1, hholds.1, by omega, ?_⟩
        rw [ih]
        exact ⟨by omega, hlengths.2, hholds.2, by omega⟩

theorem create_eq_ok_iff
    : (create mem start length).2 = .ok msgs
        ↔
      Fits msgs ∧ Memory.Holds mem start ( getVectorIO msgs).flatten
          ∧ ( getVectorIO msgs).flatten.length ≤ length := by
  have hcount := @digits_ntohs (Memory.load mem start 2) (Memory.length_load _ _ _)
  rw [flatten_getVectorIO_eq, Memory.holds_append_iff, List.length_append, BigEndian.length_digits]
  unfold create
  split
  . rw [create_go_eq_ok_iff]
    constructor
    . rintro ⟨hlength, hlengths, hholds, hle⟩
      refine ⟨⟨by omega, hlengths⟩, ⟨?_, hholds⟩, by omega⟩
      rw [hlength, hcount.1]
      unfold Memory.Holds
      rw [Memory.length_load]
    . rintro ⟨hfits, ⟨hheader, hholds⟩, hle⟩
      unfold Memory.Holds at hheader
      rw [BigEndian.length_digits] at hheader
      refine ⟨?_, hfits.lengths, hholds, by omega⟩
      rw [hheader, ntohs_digits hfits.count]
  . simp only [reduceCtorEq, false_iff, not_and]
    intro _ _
    omega

theorem create_of_holds (hlength : getLength msgs < 2^16)
    (hholds : Memory.Holds mem start ( getVectorIO msgs).flatten)
    : (create mem start (getLength msgs)).2 = .ok msgs := by
  have hcount := length_lt_getLength msgs
  rw [create_eq_ok_iff]
  refine ⟨⟨by omega, ?_⟩, hholds, Nat.le_of_eq (getLength_eq msgs).symm⟩
  intro msg hmsg
  have hlt := length_serialization_lt_getLength hmsg
  omega

end

theorem create_go_inside (mem : Nat → UInt8) (count start length : Nat)
    : ∀ access ∈ (create.go mem count start length).1,
        start ≤ access.start ∧ access.start + access.length ≤ start + length := by
  induction count generalizing start length with
  | zero => simp [create.go]
  | succ count ih =>
    unfold create.go
    split
    . next hheader =>
      simp only
      split
      . next hmessage =>
        intro access haccess
        simp only [List.mem_cons] at haccess
        rcases haccess with rfl | rfl | haccess
        . simp only
          omega
        . simp only
          omega
        . have hrest := ih _ _ access haccess
          omega
      . intro access haccess
        rw [List.mem_singleton] at haccess
        rw [haccess]
        simp only
        omega
    . simp

theorem create_inside (mem : Nat → UInt8) (start length : Nat)
    : ∀ access ∈ (create mem start length).1, start ≤ access.start
        ∧ access.start + access.length ≤ start + length := by
  unfold create
  split
  . next hlength =>
    intro access haccess
    simp only [List.mem_cons] at haccess
    rcases haccess with rfl | haccess
    . simp only
      omega
    . have hrest := create_go_inside mem _ _ _ access haccess
      omega
  . simp

def messageSegments (msg : SerializedControlMessage) : List Bytes :=
  [BigEndian.digits 2 msg.serializedId.toNat ++ BigEndian.digits 2 msg.serialization.length,
    msg.serialization]

theorem getVectorIO_eq
    : getVectorIO msgs = BigEndian.digits 2 msgs.length :: msgs.flatMap messageSegments := by
  rfl

section

variable {iov : List Bytes}

theorem drop_of_getElem? {i : Nat} {header data : Bytes} (hheader : iov[i * 2 + 1]? = some header)
    (hdata : iov[i * 2 + 2]? = some data)
    : iov.drop (i * 2 + 1) = header :: data :: iov.drop ((i + 1) * 2 + 1) := by
  rw [List.getElem?_eq_some_iff] at hheader hdata
  obtain ⟨hi, rfl⟩ := hheader
  obtain ⟨hi', rfl⟩ := hdata
  rw [List.drop_eq_getElem_cons hi, List.drop_eq_getElem_cons hi']
  congr 3
  omega

theorem createVector_go_succ_iff {count i : Nat} {msgs : List SerializedControlMessage}
    : (∃ accesses, createVector.go iov (count + 1) i = some (accesses, .ok msgs))
        ↔
      ∃ msg msgs',
        msgs = msg :: msgs'
          ∧ msg.serialization.length < 2^16
          ∧ iov.drop (i * 2 + 1) = messageSegments msg ++ iov.drop ((i + 1) * 2 + 1)
          ∧ ∃ accesses, createVector.go iov count (i + 1) = some (accesses, .ok msgs') := by
  constructor
  . rintro ⟨accesses, hgo⟩
    unfold createVector.go at hgo
    simp only [Option.bind_eq_bind, Option.bind_eq_some_iff] at hgo
    obtain ⟨header, hheader, hgo⟩ := hgo
    split at hgo
    . next hfour =>
      rw [Option.bind_eq_some_iff] at hgo
      obtain ⟨data, hdata, hgo⟩ := hgo
      split at hgo
      . next hlength =>
        rw [Option.bind_eq_some_iff] at hgo
        obtain ⟨⟨accesses', result⟩, hrest, hgo⟩ := hgo
        simp only [Option.pure_def, Option.some.injEq, Prod.mk.injEq] at hgo
        obtain ⟨_, hresult⟩ := hgo
        cases result with
        | error e => simp [Except.map] at hresult
        | ok msgs' =>
          have hid := @digits_ntohs (header.take 2) (by rw [List.length_take]; omega)
          have hmessageLength := @digits_ntohs ((header.drop 2).take 2)
            (by rw [List.length_take, List.length_drop]; omega)
          have hdrop : (header.drop 2).take 2 = header.drop 2 :=
            List.take_of_length_le (by rw [List.length_drop]; omega)
          simp only [Except.map, Except.ok.injEq] at hresult
          refine ⟨_, msgs', hresult.symm, ?_, ?_, accesses', hrest⟩
          . rw [List.length_take]
            omega
          . rw [drop_of_getElem? hheader hdata]
            have hdataLength : (data.take (ntohs ((header.drop 2).take 2))) = data :=
              List.take_of_length_le (by omega)
            simp only [messageSegments, hdataLength, hlength]
            rw [hmessageLength.1, UInt16.toNat_ofNat', Nat.mod_eq_of_lt hid.2, hid.1, hdrop,
              List.take_append_drop]
            rfl
      . simp at hgo
    . simp at hgo
  . rintro ⟨msg, msgs', rfl, hlength, hdrop, accesses, hrest⟩
    have hheader : iov[i * 2 + 1]?
        = some (BigEndian.digits 2 msg.serializedId.toNat
            ++ BigEndian.digits 2 msg.serialization.length) := by
      have hzero := congrArg (fun segments => segments[0]?) hdrop
      simpa [messageSegments] using hzero
    have hdata : iov[i * 2 + 2]? = some msg.serialization := by
      have hone := congrArg (fun segments => segments[1]?) hdrop
      simpa [messageSegments] using hone
    have htake : (BigEndian.digits 2 msg.serializedId.toNat
      ++ BigEndian.digits 2 msg.serialization.length).take 2
        = BigEndian.digits 2 msg.serializedId.toNat := List.take_left' (BigEndian.length_digits _ _)
    have hlast : ((BigEndian.digits 2 msg.serializedId.toNat
      ++ BigEndian.digits 2 msg.serialization.length).drop 2).take 2
        = BigEndian.digits 2 msg.serialization.length := by
      rw [List.drop_left' (BigEndian.length_digits _ _)]
      exact List.take_of_length_le (by rw [BigEndian.length_digits])
    unfold createVector.go
    simp only [hheader, hdata, hrest, Option.bind_eq_bind, Option.bind_some, htake, hlast,
      ntohs_digits hlength,
      ntohs_digits msg.serializedId.toNat_lt, UInt16.ofNat_toNat, List.take_length,
        Option.pure_def, Except.map]
    exact ⟨_, rfl⟩

theorem createVector_go_eq_ok_iff {count i : Nat} {msgs : List SerializedControlMessage}
    (hcount : i * 2 + 1 + count * 2 ≤ iov.length)
    : (∃ accesses, createVector.go iov count i = some (accesses, .ok msgs))
        ↔
      msgs.length = count
        ∧ (∀ msg ∈ msgs, msg.serialization.length < 2^16)
        ∧ msgs.flatMap messageSegments <+: iov.drop (i * 2 + 1) := by
  induction count generalizing msgs i with
  | zero =>
    unfold createVector.go
    constructor
    . rintro ⟨accesses, h⟩
      simp only [Option.some.injEq, Prod.mk.injEq, Except.ok.injEq] at h
      rw [← h.2]
      simp
    . rintro ⟨hlength, _⟩
      rw [List.eq_nil_of_length_eq_zero hlength]
      exact ⟨[], rfl⟩
  | succ count ih =>
    rw [createVector_go_succ_iff]
    constructor
    . rintro ⟨msg, msgs', rfl, hmsg, hdrop, hrest⟩
      rw [ih (by omega)] at hrest
      obtain ⟨hlength, hlengths, hsegments⟩ := hrest
      rw [List.flatMap_cons, hdrop, List.prefix_append_right_inj, List.length_cons, List.forall_mem_cons]
      exact ⟨by omega, ⟨hmsg, hlengths⟩, hsegments⟩
    . rintro ⟨hlength, hlengths, hsegments⟩
      cases msgs with
      | nil => simp at hlength
      | cons msg msgs' =>
        rw [List.flatMap_cons] at hsegments
        rw [List.forall_mem_cons] at hlengths
        rw [List.length_cons] at hlength
        obtain ⟨beyond, hbeyond⟩ := hsegments
        have hdrop : iov.drop ((i + 1) * 2 + 1) = msgs'.flatMap messageSegments ++ beyond := by
          rw [show (i + 1) * 2 + 1 = i * 2 + 1
            + 2 by omega, ← List.drop_drop, ← hbeyond, List.append_assoc]
          rfl
        refine ⟨msg, msgs', rfl, hlengths.1, ?_, ?_⟩
        . rw [hdrop, ← hbeyond, List.append_assoc]
        . rw [ih (by omega), hdrop]
          exact ⟨by omega, hlengths.2, List.prefix_append _ _⟩

theorem createVector_eq_ok_iff {msgs : List SerializedControlMessage}
    : (∃ accesses, createVector iov = some (accesses, .ok msgs))
        ↔
      iov = [] ∧ msgs = [] ∨ Fits msgs ∧ getVectorIO msgs <+: iov := by
  rw [getVectorIO_eq]
  unfold createVector
  split
  . constructor
    . rintro ⟨accesses, h⟩
      simp only [Option.some.injEq, Prod.mk.injEq, Except.ok.injEq] at h
      exact .inl ⟨rfl, h.2.symm⟩
    . rintro (⟨_, rfl⟩ | ⟨_, hprefix⟩)
      . exact ⟨[], rfl⟩
      . have hlength := hprefix.length_le
        simp at hlength
  . next header segments =>
    simp only [reduceCtorEq, false_and, false_or]
    split
    . next htwo =>
      have hcount := digits_ntohs htwo
      split
      . next hle =>
        rw [List.length_cons, Nat.add_sub_cancel] at hle
        have hgo := @createVector_go_eq_ok_iff (header :: segments) (ntohs header) 0 msgs
          (by rw [List.length_cons]; omega)
        have hresult : (∃ accesses, (createVector.go (header :: segments) (ntohs header) 0).bind
              (fun result => some (VectorAccess.mk 0 0 2 :: result.1, result.2)) = some
                (accesses, .ok msgs))
            ↔ ∃ accesses, createVector.go (header :: segments) (ntohs header) 0
                = some (accesses, .ok msgs) := by
          cases createVector.go (header :: segments) (ntohs header) 0 with
          | none => simp
          | some result => simp [Prod.ext_iff]
        apply hresult.trans
        rw [hgo, List.cons_prefix_cons]
        constructor
        . rintro ⟨hlength, hlengths, hsegments⟩
          refine ⟨⟨by omega, hlengths⟩, ?_, hsegments⟩
          rw [hlength, hcount.1]
        . rintro ⟨hfits, hheader, hsegments⟩
          refine ⟨?_, hfits.lengths, hsegments⟩
          rw [← hheader, ntohs_digits hfits.count]
      . next hle =>
        rw [List.length_cons, Nat.add_sub_cancel] at hle
        simp only [Option.some.injEq, Prod.mk.injEq, reduceCtorEq, and_false, exists_const,
          false_iff, not_and]
        intro hfits hprefix
        rw [List.cons_prefix_cons] at hprefix
        have hlength := hprefix.2.length_le
        apply hle
        rw [← hprefix.1, ntohs_digits hfits.count]
        simp [messageSegments] at hlength
        omega
    . next htwo =>
      simp only [Option.some.injEq, Prod.mk.injEq, reduceCtorEq, and_false, exists_const,
        false_iff, not_and]
      intro _ hprefix
      rw [List.cons_prefix_cons] at hprefix
      rw [← hprefix.1, BigEndian.length_digits] at htwo
      exact htwo rfl

theorem createVector_go_inside {count i : Nat} (hcount : i * 2 + 1 + count * 2 ≤ iov.length)
    : ∃ accesses result,
        createVector.go iov count i = some (accesses, result)
          ∧ ∀ access ∈ accesses, ∃ segment, iov[access.segment]? = some segment
          ∧ access.start + access.length ≤ segment.length := by
  induction count generalizing i with
  | zero => exact ⟨[], .ok [], rfl, by simp⟩
  | succ count ih =>
    obtain ⟨accesses, result, hrest, hinside⟩ := @ih (i + 1) (by omega)
    have hheader : iov[i * 2 + 1]? = some (iov[i * 2 + 1]) := List.getElem?_eq_getElem (by omega)
    have hdata : iov[i * 2 + 2]? = some (iov[i * 2 + 2]) := List.getElem?_eq_getElem (by omega)
    unfold createVector.go
    simp only [hheader, hdata, hrest, Option.bind_eq_bind, Option.bind_some, Option.pure_def]
    split
    . next hfour =>
      have hfirst : ∃ segment, iov[i * 2 + 1]? = some segment
        ∧ 0 + 4 ≤ segment.length := ⟨_, hheader, by omega⟩
      split
      . next hlength =>
        have hsecond : ∃ segment, iov[i * 2 + 2]? = some segment
            ∧ 0 + ntohs ((iov[i * 2 + 1].drop 2).take 2) ≤ segment.length := ⟨_, hdata, by omega⟩
        refine ⟨_, _, rfl, ?_⟩
        rw [List.forall_mem_cons, List.forall_mem_cons]
        exact ⟨hfirst, hsecond, hinside⟩
      . refine ⟨_, _, rfl, ?_⟩
        rw [List.forall_mem_singleton]
        exact hfirst
    . exact ⟨_, _, rfl, by simp⟩

theorem createVector_inside (iov : List Bytes)
    : ∃ accesses result,
        createVector iov = some (accesses, result)
          ∧ ∀ access ∈ accesses, ∃ segment, iov[access.segment]? = some segment
          ∧ access.start + access.length ≤ segment.length := by
  unfold createVector
  split
  . exact ⟨[], .ok [], rfl, by simp⟩
  . next header segments =>
    split
    . next htwo =>
      have hfirst : ∃ segment, (header :: segments)[0]? = some segment
        ∧ 0 + 2 ≤ segment.length := ⟨header, rfl, by omega⟩
      simp only
      split
      . next hle =>
        rw [List.length_cons, Nat.add_sub_cancel] at hle
        obtain ⟨accesses, result, hgo, hinside⟩ := @createVector_go_inside (header :: segments)
          (ntohs header) 0
          (by rw [List.length_cons]; omega)
        refine ⟨⟨0, 0, 2⟩ :: accesses, result, ?_, ?_⟩
        . simp [hgo]
        . rw [List.forall_mem_cons]
          exact ⟨hfirst, hinside⟩
      . refine ⟨_, _, rfl, ?_⟩
        rw [List.forall_mem_singleton]
        exact hfirst
    . exact ⟨[], _, rfl, by simp⟩

end

theorem create_createVector
    : (∀ msgs : List SerializedControlMessage,
        Fits msgs
          →
        (∀ (mem : Nat → UInt8) (start : Nat),
          Memory.Holds mem start ( getVectorIO msgs).flatten
            →
          (create mem start ( getVectorIO msgs).flatten.length).2 = .ok msgs)
          ∧ ∃ accesses, createVector ( getVectorIO msgs) = some (accesses, .ok msgs))
        ∧ (∀ (iov : List Bytes) (accesses : List VectorAccess) (msgs : List SerializedControlMessage),
        iov ≠ []
          →
        createVector iov = some (accesses, .ok msgs)
          →
        ∀ (mem : Nat → UInt8) (start : Nat),
          Memory.Holds mem start iov.flatten
            →
          (create mem start iov.flatten.length).2 = .ok msgs)
        ∧ (∀ iov : List Bytes, ∃ accesses result,
        createVector iov = some (accesses, result)
          ∧ ∀ access ∈ accesses, ∃ segment, iov[access.segment]? = some segment
          ∧ access.start + access.length ≤ segment.length)
        ∧ (∀ (mem : Nat → UInt8) (start length : Nat),
        ∀ access ∈ (create mem start length).1, start ≤ access.start
            ∧ access.start + access.length ≤ start + length) := by
  refine ⟨?_, ?_, createVector_inside, create_inside⟩
  . intro msgs hfits
    constructor
    . intro mem start hholds
      exact create_eq_ok_iff.mpr ⟨hfits, hholds, Nat.le_refl _⟩
    . exact createVector_eq_ok_iff.mpr (.inr ⟨hfits, List.prefix_refl _⟩)
  . intro iov accesses msgs hne hcreate mem start hholds
    rcases createVector_eq_ok_iff.mp ⟨accesses, hcreate⟩ with ⟨hnil, _⟩ | ⟨hfits, segments, rfl⟩
    . exact absurd hnil hne
    . rw [List.flatten_append] at hholds ⊢
      rw [Memory.holds_append_iff] at hholds
      rw [List.length_append]
      exact create_eq_ok_iff.mpr ⟨hfits, hholds.1, Nat.le_add_right _ _⟩

def twoMessages : List SerializedControlMessage :=
  [⟨108, [8, 1]⟩, ⟨102, []⟩]

theorem create_createVector_example
    : (create (Memory.ofList ( getVectorIO twoMessages).flatten (fun _ => 0)) 0
        ( getVectorIO twoMessages).flatten.length).2
        =
      .ok twoMessages
        ∧ ∃ accesses, createVector ( getVectorIO twoMessages) = some (accesses, .ok twoMessages) := by
  have hboth := create_createVector.1 twoMessages ⟨by decide, by decide⟩
  exact ⟨hboth.1 _ 0 (Memory.holds_ofList _ _), hboth.2⟩

theorem create_createVector_counterexample
    : (createVector [] = some ([], .ok [])
        ∧ (create (fun _ => 0) 0 ([] : List Bytes).flatten.length).2 ≠ .ok [])
        ∧ ¬ ∃ accesses, createVector ( getVectorIO [⟨102, List.replicate (2^16) 0⟩])
          = some (accesses, .ok [⟨102, List.replicate (2^16) 0⟩]) := by
  refine ⟨⟨rfl, by decide⟩, ?_⟩
  rw [createVector_eq_ok_iff]
  rintro (⟨hnil, _⟩ | ⟨hfits, _⟩)
  . exact List.cons_ne_nil _ _ hnil
  . have hlength := hfits.lengths _ List.mem_cons_self
    rw [List.length_replicate] at hlength
    exact absurd hlength (Nat.lt_irrefl _)

end ControlMessageSerializer
end Emane
