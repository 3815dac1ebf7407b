import Mathlib.Data.List.Basic
import Mathlib.Algebra.BigOperators.Group.List.Basic

/-!
This module contains message formats: what a serializer and a parser have in common is a codec.
-/

namespace Emane

/--
The parser gives back what was serialized. A message is not empty and its length is one of 16
bits.
-/
structure Codec (α : Type u) where
  encode : α → List UInt8
  decode : List UInt8 → Option α
  decode_encode : ∀ a, decode (encode a) = some a
  length_pos : ∀ a, 0 < (encode a).length
  length_lt : ∀ a, (encode a).length < 2^16

namespace Protobuf

def varint.go : Nat → Nat → List UInt8
  | 0, _ => []
  | k + 1, n => if n < 128 then [.ofNat n] else .ofNat (n % 128 + 128) :: varint.go k (n / 128)

def varint (n : Nat) : List UInt8 :=
  varint.go 10 n

def readVarint.go : Nat → List UInt8 → Option (Nat × List UInt8)
  | 0, _ => none
  | _ + 1, [] => none
  | k + 1, b :: bs =>
    if b.toNat < 128 then some (b.toNat, bs)
    else (readVarint.go k bs).map (fun res => (b.toNat - 128 + 128 * res.1, res.2))

def readVarint (bs : List UInt8) : Option (Nat × List UInt8) :=
  readVarint.go 10 bs

theorem readVarint_go_varint (k n : Nat) (h : n < 128 ^ (k + 1)) (rest : List UInt8)
    : readVarint.go (k + 1) (varint.go (k + 1) n ++ rest) = some (n, rest) := by
  induction k generalizing n with
  | zero =>
    rw [zero_add, pow_one] at h
    have hdigit : (UInt8.ofNat n).toNat = n := by
      rw [UInt8.toNat_ofNat']
      omega
    unfold varint.go
    rw [if_pos h]
    simp only [List.singleton_append, readVarint.go]
    rw [if_pos (by omega), hdigit]
  | succ k ih =>
    unfold varint.go
    split
    . next hlt =>
      have hdigit : (UInt8.ofNat n).toNat = n := by
        rw [UInt8.toNat_ofNat']
        omega
      simp only [List.singleton_append, readVarint.go]
      rw [if_pos (by omega), hdigit]
    . next hge =>
      have hdigit : (UInt8.ofNat (n % 128 + 128)).toNat = n % 128 + 128 := by
        rw [UInt8.toNat_ofNat']
        omega
      have hquotient : n / 128 < 128 ^ (k + 1) := by
        exact Nat.div_lt_of_lt_mul (by omega)
      rw [List.cons_append, readVarint.go, if_neg (by omega), ih (n / 128) hquotient, hdigit,
        Option.map_some]
      have hsum : n % 128 + 128 - 128 + 128 * (n / 128) = n := by omega
      rw [hsum]

variable {n : Nat}

theorem readVarint_varint (h : n < 2^64) (rest : List UInt8)
    : readVarint (varint n ++ rest) = some (n, rest) := by
  exact readVarint_go_varint 9 n (by omega) rest

theorem length_varint_go_le (k n : Nat) : (varint.go k n).length ≤ k := by
  induction k generalizing n with
  | zero => exact Nat.le_refl 0
  | succ k ih =>
    unfold varint.go
    split
    . simp
    . have hrest := ih (n / 128)
      simp only [List.length_cons]
      omega

theorem length_varint_le (n : Nat) : (varint n).length ≤ 10 := by
  exact length_varint_go_le 10 n

theorem length_varint_pos (n : Nat) : 0 < (varint n).length := by
  unfold varint varint.go
  split
  . simp
  . simp

inductive Wire where
  | number
  | bytes
  deriving DecidableEq

inductive Value where
  | number (n : Nat)
  | bytes (bs : List UInt8)
  deriving DecidableEq

namespace Value

def wire : Value → Wire
  | number _ => .number
  | bytes _ => .bytes

def Fits : Value → Prop
  | number n => n < 2^64
  | bytes bs => bs.length < 2^64

def write : Value → List UInt8
  | number n => varint n
  | bytes bs => varint bs.length ++ bs

def read : Wire → List UInt8 → Option (Value × List UInt8)
  | .number, bs => (readVarint bs).map (fun res => (.number res.1, res.2))
  | .bytes, bs =>
    match readVarint bs with
    | some (n, bs) => if n ≤ bs.length then some (.bytes (bs.take n), bs.drop n) else none
    | none => none

theorem read_write {v : Value} (h : v.Fits) (rest : List UInt8)
    : read v.wire (v.write ++ rest) = some (v, rest) := by
  cases v with
  | number n =>
    simp only [wire, write, read]
    rw [readVarint_varint h, Option.map_some]
  | bytes bs =>
    simp only [wire, write, read, List.append_assoc]
    rw [readVarint_varint h]
    simp

end Value

def key (field : Nat) : Wire → Nat
  | .number => 8 * field
  | .bytes => 8 * field + 2

def writeRecord (field : Nat) : List Value → List UInt8
  | [] => []
  | v :: vs => varint (key field v.wire) ++ (v.write ++ writeRecord (field + 1) vs)

def readRecord (field : Nat) : List Wire → List UInt8 → Option (List Value)
  | [], [] => some []
  | [], _ :: _ => none
  | w :: ws, bs =>
    match readVarint bs with
    | some (k, bs) =>
      if k = key field w then
        match Value.read w bs with
        | some (v, bs) => (readRecord (field + 1) ws bs).map (fun vs => v :: vs)
        | none => none
      else
        none
    | none => none

theorem readRecord_writeRecord (field : Nat) (vs : List Value) (hfits : ∀ v ∈ vs, v.Fits)
    (hfield : field + vs.length < 2^32)
    : readRecord field (vs.map Value.wire) (writeRecord field vs) = some vs := by
  induction vs generalizing field with
  | nil => rfl
  | cons v vs ih =>
    have hkey : key field v.wire < 2^64 := by
      unfold key
      split
      . omega
      . omega
    simp only [List.map_cons, writeRecord, readRecord]
    rw [readVarint_varint hkey]
    simp only [↓reduceIte]
    rw [Value.read_write (hfits v List.mem_cons_self)]
    simp only
    rw [ih (field + 1) (fun w hw => hfits w (List.mem_cons_of_mem _ hw))
      (by simp only [List.length_cons] at hfield; omega)]
    rfl

theorem length_writeRecord_pos {field : Nat} {vs : List Value} (h : vs ≠ [])
    : 0 < (writeRecord field vs).length := by
  cases vs with
  | nil => exact absurd rfl h
  | cons v vs =>
    have hkey := length_varint_pos (key field v.wire)
    simp only [writeRecord, List.length_append]
    omega

theorem length_writeRecord_le (field : Nat) (vs : List Value) (h : ∀ v ∈ vs, v.wire = .number)
    : (writeRecord field vs).length ≤ 20 * vs.length := by
  induction vs generalizing field with
  | nil => exact Nat.le_refl 0
  | cons v vs ih =>
    have hrest := ih (field + 1) (fun w hw => h w (List.mem_cons_of_mem _ hw))
    have hkey := length_varint_le (key field v.wire)
    cases v with
    | number n =>
      have hvalue := length_varint_le n
      simp only [writeRecord, Value.write, List.length_append, List.length_cons]
      omega
    | bytes bs => cases h _ List.mem_cons_self

variable {bs rest : List UInt8}

theorem readVarint_go_suffix {k : Nat} (h : readVarint.go k bs = some (n, rest)) : rest <:+ bs := by
  induction k generalizing bs n rest with
  | zero => simp [readVarint.go] at h
  | succ k ih =>
    cases bs with
    | nil => simp [readVarint.go] at h
    | cons b bs =>
      unfold readVarint.go at h
      split at h
      . simp only [Option.some.injEq, Prod.mk.injEq] at h
        rw [← h.2]
        exact List.suffix_cons b bs
      . rw [Option.map_eq_some_iff] at h
        obtain ⟨⟨m, rest'⟩, hrest, heq⟩ := h
        cases heq
        exact (ih hrest).trans (List.suffix_cons b bs)

theorem readVarint_suffix (h : readVarint bs = some (n, rest)) : rest <:+ bs := by
  exact readVarint_go_suffix h

variable {w : Wire}

theorem Value.read_suffix {v : Value} (h : Value.read w bs = some (v, rest))
    : rest <:+ bs ∧ ∀ b, v = .bytes b → b <:+: bs := by
  unfold Value.read at h
  split at h
  . rw [Option.map_eq_some_iff] at h
    obtain ⟨⟨n, rest'⟩, hread, heq⟩ := h
    obtain ⟨rfl, rfl⟩ := heq
    refine ⟨readVarint_suffix hread, ?_⟩
    intro b hb
    cases hb
  . split at h
    . next n bs' hread =>
      split at h
      . obtain ⟨rfl, rfl⟩ := h
        have hsuffix := readVarint_suffix hread
        refine ⟨(List.drop_suffix n bs').trans hsuffix, ?_⟩
        intro b hb
        cases hb
        have htake : bs'.take n <:+: bs' := ⟨[], bs'.drop n, by simp⟩
        exact htake.trans hsuffix.isInfix
      . simp at h
    . simp at h

variable {vs : List Value}

theorem isInfix_of_field {k : Nat} {v : Value} {bs' : List UInt8}
    (hkey : readVarint bs = some (k, bs')) (hvalue : Value.read w bs' = some (v, rest))
    (hvs : ∀ b, .bytes b ∈ vs → b <:+: rest)
    : ∀ b, .bytes b ∈ v :: vs → b <:+: bs := by
  have hsuffix := readVarint_suffix hkey
  obtain ⟨hrest, hbytes⟩ := Value.read_suffix hvalue
  intro b hb
  rw [List.mem_cons] at hb
  cases hb with
  | inl heq => exact (hbytes b heq.symm).trans hsuffix.isInfix
  | inr hmem => exact (hvs b hmem).trans (hrest.trans hsuffix).isInfix

variable {field : Nat}

theorem readRecord_isInfix {ws : List Wire}
    (h : readRecord field ws bs = some vs)
    : ∀ b, .bytes b ∈ vs → b <:+: bs := by
  induction ws generalizing field bs vs with
  | nil =>
    cases bs with
    | nil =>
      simp only [readRecord, Option.some.injEq] at h
      simp [← h]
    | cons b bs => simp [readRecord] at h
  | cons w ws ih =>
    unfold readRecord at h
    split at h
    . next k bs' hkey =>
      split at h
      . split at h
        . next v rest hvalue =>
          rw [Option.map_eq_some_iff] at h
          obtain ⟨vs', hvs', rfl⟩ := h
          exact isInfix_of_field hkey hvalue (ih hvs')
        . simp at h
      . simp at h
    . simp at h

def writeRepeated (field : Nat) (vs : List Value) : List UInt8 :=
  vs.flatMap (fun v => varint (key field v.wire) ++ v.write)

def readRepeated.go (field : Nat) (w : Wire) : Nat → List UInt8 → Option (List Value)
  | _, [] => some []
  | 0, _ :: _ => none
  | fuel + 1, bs =>
    match readVarint bs with
    | some (k, bs) =>
      if k = key field w then
        match Value.read w bs with
        | some (v, bs) => (readRepeated.go field w fuel bs).map (fun vs => v :: vs)
        | none => none
      else
        none
    | none => none

def readRepeated (field : Nat) (w : Wire) (bs : List UInt8) : Option (List Value) :=
  readRepeated.go field w bs.length bs

theorem length_le_writeRepeated (field : Nat) (vs : List Value)
    : vs.length ≤ (writeRepeated field vs).length := by
  induction vs with
  | nil => exact Nat.le_refl 0
  | cons v vs ih =>
    have hkey := length_varint_pos (key field v.wire)
    unfold writeRepeated at ih ⊢
    simp only [List.flatMap_cons, List.length_append, List.length_cons]
    omega

variable {fuel : Nat}

theorem readRepeated_go_writeRepeated (hfield : field < 2^32) (vs : List Value)
    (hvs : ∀ v ∈ vs, v.wire = w ∧ v.Fits) (hfuel : vs.length ≤ fuel)
    : readRepeated.go field w fuel (writeRepeated field vs) = some vs := by
  induction vs generalizing fuel with
  | nil => simp [writeRepeated, readRepeated.go]
  | cons v vs ih =>
    obtain ⟨hwire, hfits⟩ := hvs v List.mem_cons_self
    obtain ⟨fuel, rfl⟩ : ∃ n, fuel = n + 1 := ⟨fuel - 1, by simp only [List.length_cons] at hfuel; omega⟩
    have hrest := ih (fun v' hv' => hvs v' (List.mem_cons_of_mem _ hv')) (Nat.le_of_succ_le_succ hfuel)
    have hwrite : writeRepeated field (v :: vs) = varint
        (key field w) ++ (v.write ++ writeRepeated field vs) := by
      unfold writeRepeated
      rw [List.flatMap_cons, hwire, List.append_assoc]
    have hkey : key field w < 2^64 := by
      unfold key
      split
      . omega
      . omega
    have hread := Value.read_write hfits (writeRepeated field vs)
    rw [hwire] at hread
    have hpos := length_varint_pos (key field w)
    rw [hwrite]
    cases hbs : varint (key field w) ++ (v.write ++ writeRepeated field vs) with
    | nil =>
      have hlength := congrArg List.length hbs
      simp only [List.length_append, List.length_nil] at hlength
      omega
    | cons b bs =>
      unfold readRepeated.go
      rw [← hbs, readVarint_varint hkey]
      simp only [↓reduceIte, hread, hrest, Option.map_some]

theorem readRepeated_writeRepeated {field : Nat} (hfield : field < 2^32) {w : Wire} {vs : List Value}
    (hvs : ∀ v ∈ vs, v.wire = w ∧ v.Fits)
    : readRepeated field w (writeRepeated field vs) = some vs := by
  exact readRepeated_go_writeRepeated hfield vs hvs (length_le_writeRepeated field vs)

theorem readRepeated_go_isInfix
    (h : readRepeated.go field w fuel bs = some vs)
    : ∀ b, .bytes b ∈ vs → b <:+: bs := by
  induction fuel generalizing bs vs with
  | zero =>
    cases bs with
    | nil =>
      simp only [readRepeated.go, Option.some.injEq] at h
      simp [← h]
    | cons b bs => simp [readRepeated.go] at h
  | succ fuel ih =>
    cases bs with
    | nil =>
      simp only [readRepeated.go, Option.some.injEq] at h
      simp [← h]
    | cons c cs =>
      unfold readRepeated.go at h
      split at h
      . next k bs' hkey =>
        split at h
        . split at h
          . next v rest hvalue =>
            rw [Option.map_eq_some_iff] at h
            obtain ⟨vs', hvs', rfl⟩ := h
            exact isInfix_of_field hkey hvalue (ih hvs')
          . simp at h
        . simp at h
      . simp at h

theorem readRepeated_isInfix (h : readRepeated field w bs = some vs)
    : ∀ b, .bytes b ∈ vs → b <:+: bs := by
  exact readRepeated_go_isInfix h

theorem length_le_writeRecord {field : Nat} {vs : List Value} {v : Value} (h : v ∈ vs)
    : v.write.length ≤ (writeRecord field vs).length := by
  induction vs generalizing field with
  | nil => simp at h
  | cons v' vs ih =>
    simp only [writeRecord, List.length_append]
    rw [List.mem_cons] at h
    cases h with
    | inl heq =>
      rw [heq]
      omega
    | inr hmem =>
      have hrest := @ih (field + 1) hmem
      omega

theorem length_write_le_writeRepeated {field : Nat} {vs : List Value} {v : Value} (h : v ∈ vs)
    : v.write.length ≤ (writeRepeated field vs).length := by
  induction vs with
  | nil => simp at h
  | cons v' vs ih =>
    unfold writeRepeated at ih ⊢
    simp only [List.flatMap_cons, List.length_append]
    rw [List.mem_cons] at h
    cases h with
    | inl heq =>
      rw [heq]
      omega
    | inr hmem =>
      have hrest := ih hmem
      omega

theorem Value.length_le_write (bs : List UInt8) : bs.length ≤ (Value.bytes bs).write.length := by
  simp only [Value.write, List.length_append]
  omega

def readPacked.go : Nat → List UInt8 → Option (List Nat)
  | _, [] => some []
  | 0, _ :: _ => none
  | fuel + 1, bs =>
    match readVarint bs with
    | some (n, bs) => (readPacked.go fuel bs).map (fun ns => n :: ns)
    | none => none

def readPacked (bs : List UInt8) : Option (List Nat) :=
  readPacked.go bs.length bs

theorem readPacked_go_flatMap_varint (ns : List Nat) (hns : ∀ n ∈ ns, n < 2^64) (hfuel : ns.length ≤ fuel)
    : readPacked.go fuel (ns.flatMap varint) = some ns := by
  induction ns generalizing fuel with
  | nil => simp [readPacked.go]
  | cons n ns ih =>
    obtain ⟨fuel, rfl⟩ : ∃ m, fuel = m + 1 := ⟨fuel - 1, by simp only [List.length_cons] at hfuel; omega⟩
    have hrest := ih (fun m hm => hns m (List.mem_cons_of_mem _ hm)) (Nat.le_of_succ_le_succ hfuel)
    have hread := readVarint_varint (hns n List.mem_cons_self) (ns.flatMap varint)
    have hpos := length_varint_pos n
    rw [List.flatMap_cons]
    cases hbs : varint n ++ ns.flatMap varint with
    | nil =>
      have hlength := congrArg List.length hbs
      simp only [List.length_append, List.length_nil] at hlength
      omega
    | cons b bs =>
      unfold readPacked.go
      rw [← hbs, hread]
      simp only [hrest, Option.map_some]

theorem readPacked_flatMap_varint {ns : List Nat} (hns : ∀ n ∈ ns, n < 2^64)
    : readPacked (ns.flatMap varint) = some ns := by
  apply readPacked_go_flatMap_varint ns hns
  clear hns
  induction ns with
  | nil => exact Nat.le_refl 0
  | cons n ns ih =>
    have hpos := length_varint_pos n
    simp only [List.flatMap_cons, List.length_append, List.length_cons]
    omega

def numbers {α : Type u} (fields : α → List Nat) (ofFields : List Nat → Option α) (count : Nat)
    (hcount : ∀ a, (fields a).length = count)
    (hpos : 0 < count) (hlt : count < 2^8) (hfits : ∀ a, ∀ n ∈ fields a, n < 2^64)
    (hfields : ∀ a, ofFields (fields a) = some a)
    : Codec α where
  encode a := writeRecord 1 ((fields a).map .number)
  decode bs :=
    match readRecord 1 (List.replicate count .number) bs with
    | some vs => ofFields (vs.map (fun v => match v with | .number n => n | .bytes _ => 0))
    | none => none
  decode_encode a := by
    have hwires : List.replicate count .number = ((fields a).map Value.number).map Value.wire := by
      rw [← hcount a, List.map_map, List.eq_replicate_iff.mpr ⟨List.length_map _, ?_⟩]
      intro w hw
      obtain ⟨n, -, rfl⟩ := List.mem_map.mp hw
      rfl
    have hread : readRecord 1 (List.replicate count .number) (writeRecord 1 ((fields a).map .number))
        = some ((fields a).map .number) := by
      rw [hwires]
      apply readRecord_writeRecord
      . intro v hv
        obtain ⟨n, hn, rfl⟩ := List.mem_map.mp hv
        exact hfits a n hn
      . rw [List.length_map, hcount a]
        omega
    simp only [hread, List.map_map]
    rw [← hfields a]
    congr 1
    exact List.map_id _
  length_pos a := by
    apply length_writeRecord_pos
    intro hnil
    rw [List.map_eq_nil_iff] at hnil
    have hzero := hcount a
    rw [hnil] at hzero
    simp only [List.length_nil] at hzero
    omega
  length_lt a := by
    have hle := length_writeRecord_le 1 ((fields a).map .number) (by
      intro v hv
      obtain ⟨n, -, rfl⟩ := List.mem_map.mp hv
      rfl)
    rw [List.length_map, hcount a] at hle
    omega

end Protobuf
end Emane
