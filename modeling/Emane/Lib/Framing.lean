import Mathlib.Data.List.Infix
import Emane.Lib.Digits

/-!
This module contains streams of messages that are received in pieces: an array of a fixed size
that is read and written in runs, how far a sequence of frames is there, and messages that each
stand behind their length.
-/

namespace Emane

structure Buffer (β : Type u) (size : Nat) where
  cells : List β
  length_cells : cells.length = size

namespace Buffer

variable {β : Type u} {size : Nat}

def fill (size : Nat) (b : β) : Buffer β size :=
  ⟨List.replicate size b, List.length_replicate⟩

def read (buf : Buffer β size) (start length : Nat) : Option (List β) :=
  if start + length ≤ size then
    some ((buf.cells.drop start).take length)
  else
    none

def write (buf : Buffer β size) (start : Nat) (bs : List β) : Option (Buffer β size) :=
  if h : start + bs.length ≤ size then
    some {
      cells := buf.cells.take start ++ bs ++ buf.cells.drop (start + bs.length)
      length_cells := by
        have hsize := buf.length_cells
        simp only [List.length_append, List.length_take, List.length_drop]
        omega
    }
  else
    none

def move (buf : Buffer β size) (dst src length : Nat) : Option (Buffer β size) := do
  buf.write dst (← buf.read src length)

def front (buf : Buffer β size) (length : Nat) : List β :=
  buf.cells.take length

variable {buf : Buffer β size}

theorem length_front {n : Nat} (h : n ≤ size) : (buf.front n).length = n := by
  unfold front
  rw [List.length_take, buf.length_cells]
  omega

theorem read_front {n : Nat} (h : n ≤ size) : buf.read 0 n = some (buf.front n) := by
  unfold read
  rw [if_pos (by omega)]
  rfl

theorem front_front {n k : Nat} (h : k ≤ n) : (buf.front n).take k = buf.front k := by
  unfold front
  rw [List.take_take, Nat.min_eq_left h]

theorem write_front {n : Nat} {bs : List β} (h : n + bs.length ≤ size)
    : ∃ buf', buf.write n bs = some buf' ∧ buf'.front (n + bs.length) = buf.front n ++ bs := by
  have hsize := buf.length_cells
  unfold write
  rw [dif_pos h]
  refine ⟨_, rfl, ?_⟩
  apply List.take_left'
  simp only [List.length_append, List.length_take]
  omega

theorem move_front {n length : Nat} (h : n + length ≤ size)
    : ∃ buf', buf.move 0 n length = some buf' ∧ buf'.front length = (buf.front (n + length)).drop n := by
  have hsize := buf.length_cells
  have hread : buf.read n length = some ((buf.cells.drop n).take length) := by
    unfold read
    rw [if_pos h]
  have hlength : ((buf.cells.drop n).take length).length = length := by
    rw [List.length_take, List.length_drop]
    omega
  obtain ⟨buf', hwrite, hfront⟩ := @write_front β size buf 0 ((buf.cells.drop n).take length) (by omega)
  refine ⟨buf', ?_, ?_⟩
  . unfold move
    rw [hread]
    exact hwrite
  . rw [hlength, Nat.zero_add] at hfront
    rw [hfront]
    unfold front
    rw [List.take_zero, List.nil_append, List.drop_take, Nat.add_sub_cancel_left]

end Buffer

namespace Framing

variable {β : Type u}

def Incomplete : List (List β) → List β → Prop
  | [], pending => pending = []
  | frame :: _, pending => pending <+: frame ∧ pending ≠ frame

def Split (frames : List (List β)) (received : List β) (done : List (List β)) (pending : List β) : Prop :=
  ∃ later, frames = done ++ later ∧ received = done.flatten ++ pending ∧ Incomplete later pending

variable {frames later done done' : List (List β)} {received pending pending' : List β}

theorem Incomplete.nil (hne : ∀ frame ∈ frames, frame ≠ []) : Incomplete frames ([] : List β) := by
  cases frames with
  | nil => rfl
  | cons frame frames => exact ⟨List.nil_prefix, (hne frame List.mem_cons_self).symm⟩

theorem Incomplete.length_lt {frame : List β} (h : Incomplete (frame :: frames) pending)
    : pending.length < frame.length := by
  obtain ⟨hpart, hne⟩ := h
  apply Nat.lt_of_le_of_ne hpart.length_le
  intro hlength
  exact hne (hpart.eq_of_length hlength)

theorem split_nil (hne : ∀ frame ∈ frames, frame ≠ []) : Split frames [] [] ([] : List β) := by
  exact ⟨frames, rfl, rfl, Incomplete.nil hne⟩

theorem split_of_isPrefix (h : received <+: frames.flatten)
    : ∃ done pending, Split frames received done pending := by
  induction frames generalizing received with
  | nil =>
    have hnil : received = [] := List.prefix_nil.mp h
    exact ⟨[], [], [], rfl, hnil, rfl⟩
  | cons frame frames ih =>
    rw [List.flatten_cons] at h
    by_cases hlt : received.length < frame.length
    . have hpart : received <+: frame := List.prefix_of_prefix_length_le h (List.prefix_append _ _)
        (Nat.le_of_lt hlt)
      refine ⟨[], received, frame :: frames, rfl, rfl, hpart, ?_⟩
      intro heq
      rw [heq] at hlt
      exact Nat.lt_irrefl _ hlt
    . have hframe : frame <+: received := List.prefix_of_prefix_length_le
        (List.prefix_append _ _) h (by omega)
      obtain ⟨rest, rfl⟩ := hframe
      rw [List.prefix_append_right_inj] at h
      obtain ⟨done, pending, later, hframes, hrest, hlater⟩ := ih h
      refine ⟨frame :: done, pending, later, ?_, ?_, hlater⟩
      . rw [hframes, List.cons_append]
      . rw [hrest, List.flatten_cons, List.append_assoc]

theorem Split.append {chunk : List β} (h : Split frames received done pending)
    (hchunk : received ++ chunk <+: frames.flatten)
    : ∃ done' pending',
        Split frames (received ++ chunk) (done ++ done') pending'
          ∧ pending ++ chunk = done'.flatten ++ pending'
          ∧ ∃ later, frames = done ++ done' ++ later ∧ Incomplete later pending' := by
  obtain ⟨later, rfl, rfl, _⟩ := h
  rw [List.flatten_append, List.append_assoc, List.prefix_append_right_inj] at hchunk
  obtain ⟨done', pending', later', rfl, hcontent, hlater⟩ := split_of_isPrefix hchunk
  refine ⟨done', pending', ⟨later', ?_, ?_, hlater⟩, hcontent, later', ?_, hlater⟩
  . rw [List.append_assoc]
  . rw [List.append_assoc, hcontent, List.flatten_append, List.append_assoc]
  . rw [List.append_assoc]

theorem Split.eq_of_isPrefix (h : Split frames received done pending)
    (h' : Split frames received done' pending')
    (hle : done <+: done')
    : done = done' ∧ pending = pending' := by
  obtain ⟨later, hframes, hreceived, hlater⟩ := h
  obtain ⟨later', hframes', hreceived', hlater'⟩ := h'
  obtain ⟨more, rfl⟩ := hle
  rw [hreceived, List.flatten_append, List.append_assoc, List.append_cancel_left_eq] at hreceived'
  rw [hframes, List.append_assoc, List.append_cancel_left_eq] at hframes'
  cases more with
  | nil =>
    rw [List.append_nil]
    exact ⟨rfl, hreceived'⟩
  | cons frame more =>
    -- a whole frame would be pending
    rw [hframes', List.cons_append] at hlater
    have hlt := hlater.length_lt
    rw [hreceived', List.flatten_cons, List.length_append, List.length_append] at hlt
    omega

theorem Split.unique (h : Split frames received done pending) (h' : Split frames received done' pending')
    : done = done' ∧ pending = pending' := by
  have hdone : done <+: frames := by
    obtain ⟨later, hframes, _⟩ := h
    rw [hframes]
    exact List.prefix_append _ _
  have hdone' : done' <+: frames := by
    obtain ⟨later, hframes, _⟩ := h'
    rw [hframes]
    exact List.prefix_append _ _
  cases List.prefix_or_prefix_of_prefix hdone hdone' with
  | inl hle => exact h.eq_of_isPrefix h' hle
  | inr hle =>
    obtain ⟨hd, hp⟩ := h'.eq_of_isPrefix h hle
    exact ⟨hd.symm, hp.symm⟩

theorem Split.of_flatten (h : Split frames frames.flatten done pending)
    : done = frames ∧ pending = [] := by
  have hall : Split frames frames.flatten frames [] := by
    refine ⟨[], ?_, ?_, rfl⟩
    . rw [List.append_nil]
    . rw [List.append_nil]
  exact h.unique hall

end Framing

namespace LengthPrefix

def length (bs : List UInt8) : Nat :=
  bs.foldl (BigEndian.shiftIn 32) 0

def frame (body : List UInt8) : List UInt8 :=
  BigEndian.digits 4 body.length ++ body

def stream (bodies : List (List UInt8)) : List UInt8 :=
  (bodies.map frame).flatten

def Fits (body : List UInt8) : Prop :=
  0 < body.length ∧ body.length < 2^32

structure Receiver where
  size : Nat
  buffer : List UInt8
  deriving DecidableEq

namespace Receiver

def start : Receiver where
  size := 0
  buffer := []

def wanted (r : Receiver) : Nat :=
  if r.size = 0 then 4 - r.buffer.length else r.size - r.buffer.length

def take (r : Receiver) (piece : List UInt8) : Receiver × Option (List UInt8) :=
  let buffer := r.buffer ++ piece
  if r.size = 0 then
    if buffer.length = 4 then
      (⟨length buffer, []⟩, none)
    else
      (⟨0, buffer⟩, none)
  else if buffer.length = r.size then
    (start, some buffer)
  else
    (⟨r.size, buffer⟩, none)

def pending (r : Receiver) : List UInt8 :=
  if r.size = 0 then r.buffer else BigEndian.digits 4 r.size ++ r.buffer

structure Sound (r : Receiver) : Prop where
  size_lt : r.size < 2^32
  length_lt : r.buffer.length < if r.size = 0 then 4 else r.size

end Receiver

theorem length_digits {n : Nat} (h : n < 2^32) : length (BigEndian.digits 4 n) = n := by
  exact BigEndian.foldl_digits (by omega) (by decide)

theorem length_frame (body : List UInt8) : (frame body).length = 4 + body.length := by
  rw [frame, List.length_append, BigEndian.length_digits]

@[simp]
theorem stream_nil : stream [] = [] := by
  rfl

@[simp]
theorem stream_cons (body : List UInt8) (bodies : List (List UInt8))
    : stream (body :: bodies) = frame body ++ stream bodies := by
  rfl

@[simp]
theorem stream_append (bodies bodies' : List (List UInt8))
    : stream (bodies ++ bodies') = stream bodies ++ stream bodies' := by
  simp [stream]

namespace Receiver

variable {r : Receiver} {bodies : List (List UInt8)} {piece : List UInt8}

@[simp]
theorem pending_start : start.pending = [] := by
  rfl

theorem sound_start : start.Sound := by
  exact ⟨by decide, by decide⟩

theorem eq_length_of_isPrefix {header rest : List UInt8} (hheader : header.length = 4)
    (hfits : ∀ body ∈ bodies, Fits body)
    (hstream : header ++ rest <+: stream bodies)
    : ∃ body later, bodies = body :: later ∧ header = BigEndian.digits 4 body.length
        ∧ length header = body.length
        ∧ rest <+: body ++ stream later := by
  cases bodies with
  | nil =>
    have hnil := List.prefix_nil.mp hstream
    rw [List.append_eq_nil_iff] at hnil
    rw [hnil.1] at hheader
    cases hheader
  | cons body later =>
    rw [stream_cons, frame, List.append_assoc] at hstream
    have hdigits : header = BigEndian.digits 4 body.length := by
      have hprefixes := List.prefix_or_prefix_of_prefix ((List.prefix_append header rest).trans hstream)
        (List.prefix_append (BigEndian.digits 4 body.length) (body ++ stream later))
      have hlength : header.length = (BigEndian.digits 4 body.length).length := by
        rw [hheader, BigEndian.length_digits]
      cases hprefixes with
      | inl h => exact h.eq_of_length hlength
      | inr h => exact (h.eq_of_length hlength.symm).symm
    refine ⟨body, later, rfl, hdigits, ?_, ?_⟩
    . rw [hdigits]
      exact length_digits (hfits body List.mem_cons_self).2
    . rw [hdigits, List.prefix_append_right_inj] at hstream
      exact hstream

/--
A receiver that takes no more than it wants stays in the same message, or it has exactly the
message that is the next one of the stream.
-/
theorem take_of_isPrefix (hr : r.Sound) (hfits : ∀ body ∈ bodies, Fits body)
    (hwanted : piece.length ≤ r.wanted)
    (hstream : r.pending ++ piece <+: stream bodies)
    : (r.take piece).1.Sound
        ∧ ((r.take piece).2 = none ∧ (r.take piece).1.pending = r.pending ++ piece
        ∨ ∃ body later, bodies = body :: later ∧ r.take piece = (start, some body)
            ∧ r.pending ++ piece = frame body) := by
  have hsize := hr.size_lt
  have hlength := hr.length_lt
  unfold pending wanted at *
  unfold take
  by_cases hzero : r.size = 0
  . simp only [hzero, if_true] at hstream hwanted hlength ⊢
    by_cases hfour : (r.buffer ++ piece).length = 4
    . rw [← List.append_nil (r.buffer ++ piece)] at hstream
      obtain ⟨body, later, rfl, hdigits, hbody, _⟩ := eq_length_of_isPrefix hfour hfits hstream
      have hfit := hfits body List.mem_cons_self
      simp only [hfour, if_true, hbody]
      have hne : body.length ≠ 0 := Nat.pos_iff_ne_zero.mp hfit.1
      refine ⟨⟨hfit.2, ?_⟩, .inl ⟨trivial, ?_⟩⟩
      . simp [hne, hfit.1]
      . simp [hne, hdigits]
    . simp only [hfour, if_false]
      refine ⟨⟨by simp, ?_⟩, .inl ⟨trivial, by simp⟩⟩
      rw [List.length_append] at hfour
      simp only [if_true, List.length_append]
      omega
  . simp only [hzero, if_false] at hstream hwanted hlength ⊢
    rw [List.append_assoc] at hstream
    obtain ⟨body, later, rfl, hdigits, hbody, hrest⟩ :=
      eq_length_of_isPrefix (BigEndian.length_digits 4 r.size) hfits hstream
    rw [length_digits hsize] at hbody
    by_cases hall : (r.buffer ++ piece).length = r.size
    . simp only [hall, if_true]
      have hcontent : r.buffer ++ piece = body := by
        have hpart := List.prefix_of_prefix_length_le hrest (List.prefix_append body _) (by omega)
        exact hpart.eq_of_length (by omega)
      refine ⟨sound_start, .inr ⟨body, later, rfl, ?_, ?_⟩⟩
      . rw [hcontent]
      . rw [List.append_assoc, hcontent, hbody, frame]
    . simp only [hall, if_false, hzero]
      refine ⟨⟨hsize, ?_⟩, .inl ⟨trivial, ?_⟩⟩
      . rw [List.length_append] at hall
        simp only [hzero, if_false, List.length_append]
        omega
      . rw [List.append_assoc]

theorem eq_nil_of_pending_eq (hr : r.Sound) (hfits : ∀ body ∈ bodies, Fits body)
    (hpending : r.pending = stream bodies)
    : bodies = [] := by
  have hsize := hr.size_lt
  have hlength := hr.length_lt
  unfold pending at hpending
  by_cases hzero : r.size = 0
  . rw [if_pos hzero] at hpending hlength
    cases bodies with
    | nil => rfl
    | cons body later =>
      rw [hpending, stream_cons, List.length_append, length_frame] at hlength
      omega
  . rw [if_neg hzero] at hpending hlength
    have hstream : BigEndian.digits 4 r.size ++ r.buffer <+: stream bodies := by rw [hpending]
    obtain ⟨body, later, rfl, hdigits, hbody, _⟩ :=
      eq_length_of_isPrefix (BigEndian.length_digits 4 r.size) hfits hstream
    rw [length_digits hsize] at hbody
    rw [stream_cons, frame, List.append_assoc, hdigits, List.append_cancel_left_eq] at hpending
    rw [hpending, List.length_append] at hlength
    omega

/--
The bodies are the messages that the receiver still has to get, and `rest` is on its way to it. If
the connection has been lost then the stream may end too early.
-/
structure Follows (r : Receiver) (lost : Bool) (rest : List UInt8) (bodies : List (List UInt8))
    : Prop where
  sound : r.Sound
  fits : ∀ body ∈ bodies, Fits body
  isPrefix : r.pending ++ rest <+: stream bodies
  all : lost = false → r.pending ++ rest = stream bodies

variable {lost : Bool} {rest : List UInt8}

theorem follows_start : start.Follows false [] [] := by
  exact ⟨sound_start, by simp, by simp, by simp⟩

theorem Follows.take (h : r.Follows lost (piece ++ rest) bodies) (hwanted : piece.length ≤ r.wanted)
    : ((r.take piece).2 = none ∧ (r.take piece).1.pending = r.pending ++ piece
        ∧ (r.take piece).1.Follows lost rest bodies)
        ∨ ∃ body later, bodies = body :: later ∧ r.take piece = (start, some body)
            ∧ start.Follows lost rest later := by
  have hpiece : r.pending ++ piece <+: stream bodies := by
    apply List.IsPrefix.trans _ h.isPrefix
    rw [← List.append_assoc]
    exact List.prefix_append _ _
  obtain ⟨hsound, hnone | ⟨body, later, rfl, htake, hframe⟩⟩ :=
    take_of_isPrefix h.sound h.fits hwanted hpiece
  . refine .inl ⟨hnone.1, hnone.2, hsound, h.fits, ?_, ?_⟩
    . rw [hnone.2, List.append_assoc]
      exact h.isPrefix
    . intro hlost
      rw [hnone.2, List.append_assoc]
      exact h.all hlost
  . refine .inr ⟨body, later, rfl, htake, sound_start, ?_, ?_, ?_⟩
    . intro b hb
      exact h.fits b (List.mem_cons_of_mem body hb)
    . have hpart := h.isPrefix
      rw [← List.append_assoc, hframe, stream_cons, List.prefix_append_right_inj] at hpart
      exact hpart
    . intro hlost
      have hall := h.all hlost
      rw [← List.append_assoc, hframe, stream_cons, List.append_cancel_left_eq] at hall
      exact hall

theorem Follows.write (h : r.Follows lost rest bodies) {body : List UInt8} (hfits : Fits body)
    : r.Follows lost (if lost then rest else rest ++ frame body) (bodies ++ [body]) := by
  have hbodies : ∀ b ∈ bodies ++ [body], Fits b := by
    intro b hb
    rw [List.mem_append, List.mem_singleton] at hb
    cases hb with
    | inl hmem => exact h.fits b hmem
    | inr heq => exact heq ▸ hfits
  cases lost with
  | true =>
    refine ⟨h.sound, hbodies, ?_, by simp⟩
    rw [stream_append]
    exact h.isPrefix.trans (List.prefix_append _ _)
  | false =>
    have hall := h.all rfl
    have heq : r.pending ++ (rest ++ frame body) = stream (bodies ++ [body]) := by
      rw [← List.append_assoc, hall, stream_append, stream_cons, stream_nil, List.append_nil]
    refine ⟨h.sound, hbodies, ?_, fun _ => heq⟩
    simp [heq]

theorem Follows.cut (h : r.Follows lost rest bodies) (n : Nat) : r.Follows true (rest.take n) bodies := by
  refine ⟨h.sound, h.fits, ?_, by simp⟩
  exact ((List.prefix_append_right_inj _).mpr (List.take_prefix n rest)).trans h.isPrefix

theorem Follows.eq_nil (h : r.Follows false [] bodies) : bodies = [] := by
  have hall := h.all rfl
  rw [List.append_nil] at hall
  exact eq_nil_of_pending_eq h.sound h.fits hall

end Receiver
end LengthPrefix
end Emane
