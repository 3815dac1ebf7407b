import Emane.Dlep.Impl.Wire
import Emane.Dlep.Lemmas.DataItem

/-!
This module contains the reassembly of the stream of a session: for which messages the calls of
`handle_peer_signal` are the messages, however the stream is cut.
-/

namespace Emane
namespace Dlep

open Reader

structure SessionMessage (cfg : MessageConfig) where
  id : SignalIdType
  body : Bytes
  id_lt : id.toNat < 256^cfg.signalIdSize.val
  length_lt : body.length < 256^cfg.signalLengthSize.val

namespace SessionMessage

variable {cfg : MessageConfig} (m : SessionMessage cfg)

def header : Bytes :=
  BigEndian.digits cfg.signalIdSize m.id.toNat ++ BigEndian.digits cfg.signalLengthSize m.body.length

def bytes : Bytes :=
  m.header ++ m.body

theorem length_header : m.header.length = cfg.signalIdSize.val + cfg.signalLengthSize.val := by
  unfold header
  rw [List.length_append, BigEndian.length_digits, BigEndian.length_digits]

theorem length_bytes
    : m.bytes.length = cfg.signalIdSize.val + cfg.signalLengthSize.val + m.body.length := by
  unfold bytes
  rw [List.length_append, length_header]

theorem bytes_ne_nil : m.bytes ≠ [] := by
  have hsize := cfg.signalIdSize.property.1
  rw [← List.length_pos_iff, length_bytes]
  omega

theorem isCompleteMessage_header (rest : Bytes)
    : Wire.isCompleteMessage cfg (m.header ++ rest)
        =
      .ok (if m.bytes.length % 2^64 ≤ (m.header ++ rest).length then some (m.bytes.length % 2^64)
          else none) := by
  have hlength := m.length_header
  have hid := reads_deserializeSized 4 cfg.signalIdSize.property.2 m.id.toNat_lt m.id_lt
  have hlt : m.body.length < 256^8 :=
    Nat.lt_of_lt_of_le m.length_lt (Nat.pow_le_pow_right (by decide) cfg.signalLengthSize.property.2)
  have hlen := reads_deserializeSized 8 cfg.signalLengthSize.property.2 hlt m.length_lt
  have hlong : ¬ (m.header ++ rest).length < cfg.signalIdSize.val + cfg.signalLengthSize.val := by
    rw [List.length_append]
    omega
  have hrun : (deserializeSized 4 cfg.signalIdSize).run (m.header ++ rest)
      = .ok (m.id.toNat, BigEndian.digits cfg.signalLengthSize m.body.length ++ rest) := by
    unfold header
    rw [List.append_assoc]
    exact hid _
  unfold Wire.isCompleteMessage
  rw [if_neg hlong, hrun]
  simp only [bind, Except.bind]
  rw [hlen rest, length_bytes]
  rfl

variable {m}

theorem isCompleteMessage_bytes (hsize : m.bytes.length < 2^64) (rest : Bytes)
    : Wire.isCompleteMessage cfg (m.bytes ++ rest) = .ok (some m.bytes.length) := by
  have hheader := m.isCompleteMessage_header (m.body ++ rest)
  rw [← List.append_assoc, ← bytes, Nat.mod_eq_of_lt hsize, List.length_append,
    if_pos (Nat.le_add_right _ _)] at hheader
  exact hheader

theorem isCompleteMessage_of_length_lt {bytes : Bytes}
    (h : bytes.length < cfg.signalIdSize.val + cfg.signalLengthSize.val)
    : Wire.isCompleteMessage cfg bytes = .ok none := by
  unfold Wire.isCompleteMessage
  rw [if_pos h]
  rfl

theorem isCompleteMessage_part (hsize : m.bytes.length < 2^64) {part : Bytes} (hpart : part <+: m.bytes)
    (hlt : part.length < m.bytes.length)
    : Wire.isCompleteMessage cfg part = .ok none := by
  -- the length can only be read when the header is there
  by_cases hheader : part.length < m.header.length
  . rw [length_header] at hheader
    exact isCompleteMessage_of_length_lt hheader
  . have hle : m.header <+: part := List.prefix_of_prefix_length_le
      (List.prefix_append _ _) hpart (by omega)
    obtain ⟨rest, rfl⟩ := hle
    rw [isCompleteMessage_header, Nat.mod_eq_of_lt hsize, if_neg (by omega)]

end SessionMessage

namespace Receiver

variable {cfg : MessageConfig}

def pending (r : Receiver) : Bytes :=
  r.signalRecvBuffer.front r.signalRecvLen

def Within (r : Receiver) : Prop :=
  r.signalRecvLen ≤ maxSignalSize

variable {r : Receiver}

theorem Within.length_pending (h : r.Within) : r.pending.length = r.signalRecvLen := by
  exact Buffer.length_front h

theorem Within.room_pos_iff (h : r.Within) : 0 < r.room ↔ r.pending.length < maxSignalSize := by
  rw [h.length_pending]
  unfold room
  omega

theorem start_within : start.Within := by
  exact Nat.zero_le _

theorem start_pending : start.pending = [] := by
  rfl

theorem handleSignals_of_incomplete (h : r.Within)
    (hpending : Wire.isCompleteMessage cfg r.pending = .ok none)
    (fuel : Nat)
    : handleSignals cfg (fuel + 1) r = .ok ([], r) := by
  unfold handleSignals
  rw [Buffer.read_front h]
  unfold pending at hpending
  simp only [inBounds, bind, Except.bind]
  rw [hpending]
  rfl

theorem moveToFront_eq_ok (h : r.Within) {frame rest : Bytes} (hpending : r.pending = frame ++ rest)
    : ∃ buffer, r.moveToFront frame.length rest.length = .ok buffer
        ∧ buffer.front rest.length = rest := by
  have hlength := h.length_pending
  rw [hpending, List.length_append] at hlength
  unfold Within at h
  unfold pending at hpending
  unfold moveToFront
  split
  . obtain ⟨buffer, hbuffer, hfront⟩ := @Buffer.move_front UInt8 maxSignalSize r.signalRecvBuffer
      frame.length
      rest.length (by omega)
    refine ⟨buffer, ?_, ?_⟩
    . rw [hbuffer]
      rfl
    . rw [hfront, hlength, hpending, List.drop_left]
  . next hpos =>
    have hnil : rest = [] := List.length_eq_zero_iff.mp (by omega)
    refine ⟨r.signalRecvBuffer, rfl, ?_⟩
    rw [hnil]
    rfl

theorem handleSignals_of_complete (h : r.Within) {frame rest : Bytes}
    (hpending : r.pending = frame ++ rest)
    (hcomplete : Wire.isCompleteMessage cfg (frame ++ rest) = .ok (some frame.length)) (fuel : Nat)
    : ∃ r' : Receiver,
        r'.Within
          ∧ r'.pending = rest
          ∧ handleSignals cfg (fuel + 1) r
              = (handleSignals cfg fuel r').map (fun res => (frame :: res.1, res.2)) := by
  have hlength := h.length_pending
  rw [hpending, List.length_append] at hlength
  obtain ⟨buffer, hbuffer, hfront⟩ := moveToFront_eq_ok h hpending
  unfold Within at h
  unfold pending at hpending
  have hread : r.signalRecvBuffer.read 0 frame.length = some frame := by
    rw [Buffer.read_front (by omega), ← Buffer.front_front (n := r.signalRecvLen) (by omega),
      hpending, List.take_left]
  have hrest : r.signalRecvLen - frame.length = rest.length := by omega
  refine ⟨{ signalRecvBuffer := buffer, signalRecvLen := rest.length }, ?_, hfront, ?_⟩
  . unfold Within
    simp only
    omega
  . conv_lhs => unfold handleSignals
    rw [Buffer.read_front h, hpending]
    simp only [inBounds, bind, Except.bind]
    rw [hcomplete]
    simp only [uncaught]
    rw [hread]
    rw [hrest, hbuffer]
    simp only
    cases handleSignals cfg fuel { signalRecvBuffer := buffer, signalRecvLen := rest.length } with
    | error e => rfl
    | ok res => rfl

def frames (msgs : List (SessionMessage cfg)) : List Bytes :=
  msgs.map SessionMessage.bytes

def Fit (msgs : List (SessionMessage cfg)) : Prop :=
  ∀ m ∈ msgs, m.bytes.length ≤ maxSignalSize

theorem lt_of_le_maxSignalSize {n : Nat} (h : n ≤ maxSignalSize) : n < 2^64 := by
  exact Nat.lt_of_le_of_lt h (by decide)

theorem frames_ne_nil {msgs : List (SessionMessage cfg)} : ∀ frame ∈ frames msgs, frame ≠ [] := by
  intro frame hframe
  obtain ⟨m, _, rfl⟩ := List.mem_map.mp hframe
  exact m.bytes_ne_nil

theorem length_le_flatten (msgs : List (SessionMessage cfg))
    : msgs.length ≤ (frames msgs).flatten.length := by
  induction msgs with
  | nil => exact Nat.le_refl _
  | cons m msgs ih =>
    have hpos := List.length_pos_iff.mpr m.bytes_ne_nil
    unfold frames at ih ⊢
    rw [List.length_cons, List.map_cons, List.flatten_cons, List.length_append]
    omega

theorem handleSignals_frames {msgs : List (SessionMessage cfg)} (hfit : Fit msgs) {rest : Bytes}
    (hrest : Wire.isCompleteMessage cfg rest = .ok none) {r : Receiver} (h : r.Within)
    (hpending : r.pending = (frames msgs).flatten ++ rest) {fuel : Nat} (hfuel : msgs.length < fuel)
    : ∃ r' : Receiver, handleSignals cfg fuel r = .ok (frames msgs, r') ∧ r'.Within
        ∧ r'.pending = rest := by
  induction msgs generalizing r fuel with
  | nil =>
    obtain ⟨fuel, rfl⟩ := Nat.exists_eq_add_one_of_ne_zero (Nat.ne_zero_of_lt hfuel)
    have hnone : r.pending = rest := hpending
    rw [← hnone] at hrest
    exact ⟨r, handleSignals_of_incomplete h hrest fuel, h, hnone⟩
  | cons m msgs ih =>
    obtain ⟨fuel, rfl⟩ := Nat.exists_eq_add_one_of_ne_zero (Nat.ne_zero_of_lt hfuel)
    have hsize := lt_of_le_maxSignalSize (hfit m List.mem_cons_self)
    have hcontent : r.pending = m.bytes ++ ((frames msgs).flatten ++ rest) := by
      rw [hpending, ← List.append_assoc]
      rfl
    obtain ⟨r1, h1, hpending1, hturn⟩ :=
      handleSignals_of_complete h hcontent (SessionMessage.isCompleteMessage_bytes hsize _) fuel
    obtain ⟨r', hrun, h', hpending'⟩ :=
      ih (fun m' hm' => hfit m' (List.mem_cons_of_mem _ hm')) h1 hpending1 (Nat.lt_of_succ_lt_succ hfuel)
    refine ⟨r', ?_, h', hpending'⟩
    rw [hturn, hrun]
    rfl

theorem isCompleteMessage_of_incomplete {later : List (SessionMessage cfg)} (hfit : Fit later)
    {rest : Bytes}
    (h : Framing.Incomplete (frames later) rest)
    : Wire.isCompleteMessage cfg rest = .ok none ∧ rest.length < maxSignalSize := by
  cases later with
  | nil =>
    have hnil : rest = [] := h
    have hheader := cfg.signalIdSize.property.1
    rw [hnil]
    refine ⟨SessionMessage.isCompleteMessage_of_length_lt ?_, by decide⟩
    rw [List.length_nil]
    omega
  | cons m later =>
    have hlt := Framing.Incomplete.length_lt h
    have hle := hfit m List.mem_cons_self
    exact ⟨SessionMessage.isCompleteMessage_part (lt_of_le_maxSignalSize hle) h.1 hlt,
      Nat.lt_of_lt_of_le hlt hle⟩

theorem receive_eq (h : r.Within) {chunk : Bytes} (hroom : chunk.length ≤ r.room)
    : ∃ r1 : Receiver,
        r1.Within
          ∧ r1.pending = r.pending ++ chunk
          ∧ receive cfg r chunk
          =
        (handleSignals cfg (r1.pending.length + 1) r1).map
          (fun res => { signals := res.1, receiver := res.2, nextRead := some res.2.room }) := by
  unfold room at hroom
  have hle : r.signalRecvLen + chunk.length ≤ maxSignalSize := by
    unfold Within at h
    omega
  obtain ⟨buffer, hwrite, hfront⟩ := @Buffer.write_front UInt8 maxSignalSize r.signalRecvBuffer
    r.signalRecvLen chunk hle
  have hwithin : ({ signalRecvBuffer := buffer, signalRecvLen :=
    r.signalRecvLen + chunk.length } : Receiver).Within := hle
  refine ⟨_, hwithin, hfront, ?_⟩
  rw [hwithin.length_pending]
  unfold receive
  rw [hwrite]
  simp only [inBounds, bind, Except.bind, handleSessionReceive]
  cases handleSignals cfg (r.signalRecvLen + chunk.length + 1)
      { signalRecvBuffer := buffer, signalRecvLen := r.signalRecvLen + chunk.length } with
  | error e => rfl
  | ok res => rfl

theorem receive_of_split {msgs : List (SessionMessage cfg)} (hfit : Fit msgs) {received : Bytes}
    {done : List Bytes}
    (h : r.Within) (hsplit : Framing.Split (frames msgs) received done r.pending) {chunk : Bytes}
    (hroom : chunk.length ≤ r.room) (hchunk : received ++ chunk <+: (frames msgs).flatten)
    : ∃ res,
        receive cfg r chunk = .ok res
          ∧ res.receiver.Within
          ∧ Framing.Split (frames msgs) (received ++ chunk) (done ++ res.signals) res.receiver.pending
          ∧ 0 < res.receiver.room := by
  obtain ⟨done', pending', hsplit', hcontent, later, hframes, hlater⟩ := hsplit.append hchunk
  obtain ⟨r1, h1, hpending1, hreceive⟩ := @receive_eq cfg r h chunk hroom
  obtain ⟨msgs0, msgs2, rfl, hmsgs0, rfl⟩ := List.map_eq_append_iff.mp hframes
  obtain ⟨msgs0, msgs1, rfl, rfl, rfl⟩ := List.map_eq_append_iff.mp hmsgs0
  have hfit1 : Fit msgs1 := fun m hm => hfit m (by simp [hm])
  have hfit2 : Fit msgs2 := fun m hm => hfit m (by simp [hm])
  obtain ⟨hnone, hlt⟩ := isCompleteMessage_of_incomplete hfit2 hlater
  rw [hcontent] at hpending1
  have hfuel : msgs1.length < r1.pending.length + 1 := by
    have hle := length_le_flatten msgs1
    unfold frames at hle
    rw [hpending1, List.length_append]
    omega
  obtain ⟨r', hrun, h', hpending'⟩ := handleSignals_frames hfit1 hnone h1 hpending1 hfuel
  rw [hrun] at hreceive
  refine ⟨_, hreceive, h', ?_, ?_⟩
  . rw [hpending']
    exact hsplit'
  . rw [h'.room_pos_iff, hpending']
    exact hlt

theorem run_of_split {msgs : List (SessionMessage cfg)} (hfit : Fit msgs) {received : Bytes}
    {done : List Bytes}
    {r : Receiver} (h : r.Within) (hsplit : Framing.Split (frames msgs) received done r.pending)
    (hpos : 0 < r.room)
    {chunks : List Bytes} (hchunks : received ++ chunks.flatten <+: (frames msgs).flatten)
    (hdeliverable : Deliverable cfg r chunks)
    : ∃ signals r',
        run cfg r chunks = .ok (signals, r')
          ∧ Framing.Split (frames msgs) (received ++ chunks.flatten) (done ++ signals) r'.pending
          ∧ 0 < r'.room := by
  induction chunks generalizing r received done with
  | nil =>
    refine ⟨[], r, rfl, ?_, hpos⟩
    rw [List.flatten_nil, List.append_nil, List.append_nil]
    exact hsplit
  | cons chunk chunks ih =>
    rw [List.flatten_cons, ← List.append_assoc] at hchunks ⊢
    have hchunk : received ++ chunk <+: (frames msgs).flatten := (List.prefix_append _ _).trans hchunks
    obtain ⟨res, hreceive, h1, hsplit1, hpos1⟩ := receive_of_split hfit h hsplit hdeliverable.1 hchunk
    obtain ⟨signals, r', hrun, hsplit', hpos'⟩ := ih h1 hsplit1 hpos1 hchunks
      (hdeliverable.2 res hreceive)
    refine ⟨res.signals ++ signals, r', ?_, ?_, hpos'⟩
    . unfold run
      rw [hreceive]
      simp only [bind, Except.bind]
      rw [hrun]
      rfl
    . rw [← List.append_assoc]
      exact hsplit'

/--
The complete messages have been handled, the beginning of the next one is in the buffer, and there
is room to read on.
-/
def Reassembles (msgs : List (SessionMessage cfg)) : Prop :=
  ∀ chunks, chunks.flatten <+: (frames msgs).flatten → Deliverable cfg start chunks →
    ∃ signals r,
      run cfg start chunks = .ok (signals, r)
        ∧ Framing.Split (frames msgs) chunks.flatten signals r.pending
        ∧ (r.pending ≠ [] → 0 < r.room)
        ∧ (chunks.flatten = (frames msgs).flatten → signals = frames msgs ∧ r.pending = [])

theorem reassembles_of_fit {msgs : List (SessionMessage cfg)} (hfit : Fit msgs) : Reassembles msgs := by
  intro chunks hchunks hdeliverable
  have hsplit : Framing.Split (frames msgs) [] [] start.pending := Framing.split_nil frames_ne_nil
  obtain ⟨signals, r, hrun, hsplit', hpos⟩ :=
    run_of_split hfit start_within hsplit (by decide) (by simpa using hchunks) hdeliverable
  refine ⟨signals, r, hrun, hsplit', fun _ => hpos, ?_⟩
  intro hall
  rw [hall] at hsplit'
  exact hsplit'.of_flatten

theorem receive_bytes {m : SessionMessage cfg} (hfit : m.bytes.length ≤ maxSignalSize) (h : r.Within)
    (hpending : r.pending = [])
    : ∃ res,
        receive cfg r m.bytes = .ok res
          ∧ res.signals = [m.bytes]
          ∧ res.receiver.Within
          ∧ res.receiver.pending = [] := by
  have hlength := h.length_pending
  rw [hpending, List.length_nil] at hlength
  obtain ⟨r1, h1, hpending1, hreceive⟩ := @receive_eq cfg r h m.bytes (by unfold room; omega)
  have hcontent : r1.pending = (frames [m]).flatten ++ [] := by
    rw [hpending1, hpending]
    simp [frames]
  have hnone := (@isCompleteMessage_of_incomplete cfg [] (by simp [Fit]) [] rfl).1
  have hfuel : [m].length < r1.pending.length + 1 := by
    have hpos := List.length_pos_iff.mpr m.bytes_ne_nil
    rw [hpending1, hpending, List.nil_append, List.length_singleton]
    omega
  obtain ⟨r', hrun, h', hpending'⟩ := handleSignals_frames
    (by simpa [Fit] using hfit) hnone h1 hcontent hfuel
  rw [hrun] at hreceive
  exact ⟨_, hreceive, rfl, h', hpending'⟩

theorem run_frames_append {msgs : List (SessionMessage cfg)} (hfit : Fit msgs) {r : Receiver}
    (h : r.Within)
    (hpending : r.pending = [])
    : ∃ r' : Receiver,
        r'.Within
          ∧ r'.pending = []
          ∧ ∀ chunks,
          (Deliverable cfg r' chunks → Deliverable cfg r (frames msgs ++ chunks))
            ∧ run cfg r (frames msgs ++ chunks) = (run cfg r' chunks).map
                (fun res => (frames msgs ++ res.1, res.2)) := by
  induction msgs generalizing r with
  | nil =>
    refine ⟨r, h, hpending, ?_⟩
    intro chunks
    refine ⟨id, ?_⟩
    cases hrun : run cfg r chunks with
    | error e => exact hrun
    | ok res => exact hrun
  | cons m msgs ih =>
    have hm := hfit m List.mem_cons_self
    obtain ⟨res, hreceive, hsignals, h1, hpending1⟩ := receive_bytes hm h hpending
    obtain ⟨r', h', hpending', hchunks⟩ := ih (fun m' hm' => hfit m' (List.mem_cons_of_mem _ hm'))
      h1 hpending1
    refine ⟨r', h', hpending', ?_⟩
    intro chunks
    obtain ⟨hdeliverable, hrun⟩ := hchunks chunks
    have hlength := h.length_pending
    rw [hpending, List.length_nil] at hlength
    constructor
    . intro hlast
      refine ⟨by unfold room; omega, ?_⟩
      intro res' hres'
      rw [hreceive, Except.ok.injEq] at hres'
      rw [← hres']
      exact hdeliverable hlast
    . change (receive cfg r m.bytes >>= fun res => run cfg res.receiver (frames msgs ++ chunks)
          >>= fun x =>
        pure (res.signals ++ x.1, x.2)) = _
      rw [hreceive]
      simp only [bind, Except.bind]
      rw [hrun]
      cases run cfg r' chunks with
      | error e => rfl
      | ok res' =>
        rw [hsignals]
        rfl

theorem handleSignals_ne_nil (h : r.Within) {n : Nat}
    (hcomplete : Wire.isCompleteMessage cfg r.pending = .ok (some n))
    {fuel : Nat} {signals : List Bytes} {r' : Receiver}
    (hrun : handleSignals cfg fuel r = .ok (signals, r'))
    : signals ≠ [] := by
  cases fuel with
  | zero => simp [handleSignals] at hrun
  | succ fuel =>
    unfold handleSignals at hrun
    unfold pending at hcomplete
    rw [Buffer.read_front h] at hrun
    simp only [inBounds, bind, Except.bind] at hrun
    rw [hcomplete] at hrun
    simp only [uncaught] at hrun
    split at hrun
    . simp at hrun
    . split at hrun
      . simp at hrun
      . split at hrun
        . simp at hrun
        . simp only [pure, Except.pure, Except.ok.injEq, Prod.mk.injEq] at hrun
          rw [← hrun.1]
          exact List.cons_ne_nil _ _

theorem exists_first_of_not_fit {msgs : List (SessionMessage cfg)} (h : ¬ Fit msgs)
    : ∃ ms m later, msgs = ms ++ m :: later ∧ Fit ms ∧ maxSignalSize < m.bytes.length := by
  induction msgs with
  | nil => simp [Fit] at h
  | cons m msgs ih =>
    by_cases hm : m.bytes.length ≤ maxSignalSize
    . have htail : ¬ Fit msgs := by
        intro hfit
        apply h
        intro m' hm'
        cases List.mem_cons.mp hm' with
        | inl heq =>
          rw [heq]
          exact hm
        | inr hmem => exact hfit m' hmem
      obtain ⟨ms, m', later, rfl, hfit, hlong⟩ := ih htail
      refine ⟨m :: ms, m', later, rfl, ?_, hlong⟩
      intro m'' hm''
      cases List.mem_cons.mp hm'' with
      | inl heq =>
        rw [heq]
        exact hm
      | inr hmem => exact hfit m'' hmem
    . exact ⟨[], m, msgs, rfl, by simp [Fit], Nat.lt_of_not_le hm⟩

section

variable {ms later : List (SessionMessage cfg)} {m : SessionMessage cfg}

theorem split_part {part : Bytes} (hpart : part <+: m.bytes) (hlt : part.length < m.bytes.length)
    : Framing.Split (frames (ms ++ m :: later)) (frames ms ++ [part]).flatten (frames ms) part := by
  refine ⟨frames (m :: later), ?_, ?_, hpart, ?_⟩
  . exact List.map_append
  . rw [List.flatten_append, List.flatten_singleton]
  . intro heq
    rw [heq] at hlt
    exact Nat.lt_irrefl _ hlt

theorem flatten_part_isPrefix {part : Bytes} (hpart : part <+: m.bytes)
    : (frames ms ++ [part]).flatten <+: (frames (ms ++ m :: later)).flatten := by
  have hframes : frames (ms ++ m :: later) = frames ms ++ m.bytes :: frames later := List.map_append
  rw [hframes, List.flatten_append, List.flatten_append, List.flatten_singleton, List.flatten_cons,
    List.prefix_append_right_inj]
  exact hpart.trans (List.prefix_append _ _)

theorem Reassembles.part (h : Reassembles (ms ++ m :: later)) (hfit : Fit ms) {part : Bytes}
    (hpart : part <+: m.bytes)
    (hlt : part.length < m.bytes.length) (hle : part.length ≤ maxSignalSize)
    : ∃ r r' : Receiver,
        r.Within
          ∧ r.pending = []
          ∧ run cfg r [part] = .ok ([], r')
          ∧ r'.pending = part
          ∧ (part ≠ [] → 0 < r'.room) := by
  obtain ⟨r, hwithin, hpending, hchunks⟩ := run_frames_append hfit start_within start_pending
  obtain ⟨hdeliverable, hrun⟩ := hchunks [part]
  have hlength := hwithin.length_pending
  rw [hpending, List.length_nil] at hlength
  have hlast : Deliverable cfg r [part] := ⟨by unfold room; omega, fun _ _ => trivial⟩
  obtain ⟨signals, r', hrun', hsplit, hpos, _⟩ := h _ (flatten_part_isPrefix hpart) (hdeliverable hlast)
  obtain ⟨hsignals, hpending'⟩ := hsplit.unique (split_part hpart hlt)
  rw [hpending'] at hpos
  refine ⟨r, r', hwithin, hpending, ?_, hpending', hpos⟩
  rw [hrun] at hrun'
  cases hpart' : run cfg r [part] with
  | error e =>
    rw [hpart'] at hrun'
    simp [Except.map] at hrun'
  | ok res =>
    rw [hpart', hsignals] at hrun'
    simp only [Except.map, Except.ok.injEq, Prod.mk.injEq, List.append_right_eq_self] at hrun'
    rw [← hrun'.1, ← hrun'.2]

theorem not_reassembles_of_long (hfit : Fit ms) (hlong : maxSignalSize < m.bytes.length)
    : ¬ Reassembles (ms ++ m :: later) := by
  intro h
  by_cases hsize : m.bytes.length < 2^64
  -- the last read fills the buffer
  . have hlength : (m.bytes.take maxSignalSize).length = maxSignalSize := by
      rw [List.length_take, Nat.min_eq_left (Nat.le_of_lt hlong)]
    obtain ⟨r, r', hwithin, hpending, hrun, hpending', hpos⟩ :=
      h.part hfit (List.take_prefix _ _) (by omega) (Nat.le_of_eq hlength)
    have hne : m.bytes.take maxSignalSize ≠ [] := by
      rw [← List.length_pos_iff, hlength]
      decide
    have hroom := hpos hne
    have hfull := congrArg List.length hpending'
    unfold pending Buffer.front at hfull
    rw [List.length_take] at hfull
    unfold room at hroom
    omega
  -- the last read is the header, the size wraps to one that is not larger
  . have hheader := m.length_header
    have hbytes := m.length_bytes
    have hbody : m.body.length < 2^64 :=
      Nat.lt_of_lt_of_le m.length_lt (Nat.pow_le_pow_right (by decide) cfg.signalLengthSize.property.2)
    have hid := cfg.signalIdSize.property
    have hlen := cfg.signalLengthSize.property
    have hmod : m.bytes.length % 2^64 ≤ m.header.length := by omega
    have hmax : m.header.length ≤ maxSignalSize := Nat.le_trans
      (by omega : m.header.length ≤ 16) (by decide)
    obtain ⟨r, r', hwithin, hpending, hrun, hpending', _⟩ := h.part hfit (List.prefix_append _ _)
      (by omega) hmax
    have hlength := hwithin.length_pending
    rw [hpending, List.length_nil] at hlength
    obtain ⟨r1, h1, hpending1, hreceive⟩ := @receive_eq cfg r hwithin m.header (by unfold room; omega)
    have hcomplete := m.isCompleteMessage_header []
    rw [List.append_nil, if_pos hmod] at hcomplete
    rw [hpending, List.nil_append] at hpending1
    rw [← hpending1] at hcomplete
    cases hloop : handleSignals cfg (r1.pending.length + 1) r1 with
    | error e =>
      rw [hloop] at hreceive
      simp [run, hreceive, Except.map, bind, Except.bind] at hrun
    | ok res =>
      rw [hloop] at hreceive
      simp only [run, hreceive, Except.map, bind, Except.bind, pure, Except.pure, List.append_nil,
        Except.ok.injEq,
        Prod.mk.injEq] at hrun
      exact handleSignals_ne_nil h1 hcomplete hloop hrun.1

end

theorem reassembles_iff (cfg : MessageConfig) (msgs : List (SessionMessage cfg))
    : Reassembles msgs ↔ ∀ m ∈ msgs, m.bytes.length ≤ maxSignalSize := by
  constructor
  . intro h
    by_contra hfit
    obtain ⟨ms, m, later, rfl, hms, hlong⟩ := exists_first_of_not_fit hfit
    exact not_reassembles_of_long hms hlong h
  . intro hfit
    exact reassembles_of_fit hfit

def longestMessage : SessionMessage rfc8175Wire where
  id := 3
  body := List.replicate 65535 0
  id_lt := by decide
  length_lt := by
    rw [List.length_replicate]
    decide

theorem length_longestMessage_body : longestMessage.body.length = 65535 := by
  exact List.length_replicate

theorem not_reassembles_longest : ¬ Reassembles [longestMessage] := by
  have hfit : Fit ([] : List (SessionMessage rfc8175Wire)) := by simp [Fit]
  have hlong : maxSignalSize < longestMessage.bytes.length := by
    rw [SessionMessage.length_bytes, length_longestMessage_body]
    decide
  have hnot := @not_reassembles_of_long rfc8175Wire [] [] longestMessage hfit hlong
  exact hnot

end Receiver
end Dlep
end Emane
