import Emane.Tdma.Impl.Queue

/-!
This module contains what one call of `fragmentPacket` cuts out of a packet: the iovec entries do
not matter, only their concatenation does.
-/

namespace Emane
namespace Tdma
namespace Queue
namespace fragmentPacket

theorem go_eq_of_done (bytes : Nat) (entries : List Bytes) (c : Cursor)
    (h : ¬ c.totalBytesCopied < bytes)
    : go bytes entries c = c := by
  cases entries with
  | nil => rfl
  | cons entry entries => simp [go, h]

private theorem take_append_take {entry rest : Bytes} {n m : Nat} (h : m = min n entry.length)
    : entry.take m ++ rest.take (n - m) = (entry ++ rest).take n := by
  rw [List.take_append]
  by_cases hle : n ≤ entry.length
  . have : m = n := by omega
    simp [this, hle]
  . have : m = entry.length := by omega
    rw [this]
    rw [List.take_length]
    have : entry.take n = entry := by
      apply List.take_of_length_le
      omega
    rw [this]

theorem go_eq (bytes : Nat) (entries : List Bytes) (c : Cursor)
    (hvisited : c.totalBytesVisited ≤ c.offset)
    (hlen : c.offset - c.totalBytesVisited ≤ entries.flatten.length)
    (hphase : c.totalBytesCopied < bytes ∨ c.totalBytesVisited = c.offset)
    : ∃ vs,
        go bytes entries c
          =
        ⟨
          c.offset + min (bytes - c.totalBytesCopied)
            (entries.flatten.length - (c.offset - c.totalBytesVisited)),
          c.totalBytesCopied
            + min (bytes - c.totalBytesCopied)
              (entries.flatten.length - (c.offset - c.totalBytesVisited)),
          c.offset + min (bytes - c.totalBytesCopied)
            (entries.flatten.length - (c.offset - c.totalBytesVisited)),
          vs
        ⟩
          ∧ vs.flatten
          =
        c.vectorIOs.flatten
          ++ (entries.flatten.drop (c.offset - c.totalBytesVisited)).take
              (bytes - c.totalBytesCopied) := by
  induction entries generalizing c with
  | nil =>
    simp only [List.flatten_nil, List.length_nil, Nat.le_zero_eq] at hlen
    refine ⟨c.vectorIOs, ?_, by simp⟩
    have : c.totalBytesVisited = c.offset := by omega
    cases c
    simp_all [go]
  | cons entry entries ih =>
    by_cases hcopied : c.totalBytesCopied < bytes
    . simp only [go, hcopied, ↓reduceIte]
      split
      . next hskip =>
        have hlen' : c.offset - (c.totalBytesVisited + entry.length) ≤ entries.flatten.length := by
          simp only [List.flatten_cons, List.length_append] at hlen
          omega
        obtain ⟨vs, heq, hvs⟩ := ih { c with totalBytesVisited := c.totalBytesVisited + entry.length }
          (by simp only; omega) hlen' (Or.inl hcopied)
        refine ⟨vs, ?_, ?_⟩
        . rw [heq]
          simp only [List.flatten_cons, List.length_append, Cursor.mk.injEq, and_true]
          omega
        . rw [hvs]
          simp only [List.flatten_cons]
          rw [List.drop_append]
          have : entry.drop (c.offset - c.totalBytesVisited) = [] := by
            apply List.drop_of_length_le
            omega
          rw [this]
          congr 3
          omega
      . next hskip =>
        have hvis : (if c.totalBytesVisited < c.offset then c.offset else c.totalBytesVisited)
            = c.offset := by
          split
          . rfl
          . omega
        have hamount :
            (if entry.length - (c.offset - c.totalBytesVisited) > bytes - c.totalBytesCopied then
              bytes - c.totalBytesCopied
            else
              entry.length - (c.offset - c.totalBytesVisited))
              =
            min (bytes - c.totalBytesCopied) (entry.length - (c.offset - c.totalBytesVisited)) := by
          split
          . omega
          . omega
        rw [hvis, hamount]
        generalize hk : min (bytes - c.totalBytesCopied)
          (entry.length - (c.offset - c.totalBytesVisited)) = k
        obtain ⟨vs, heq, hvs⟩ := ih {
            totalBytesVisited := c.offset + k
            totalBytesCopied := c.totalBytesCopied + k
            offset := c.offset + k
            vectorIOs := c.vectorIOs ++ [(entry.drop (c.offset - c.totalBytesVisited)).take k]
          } (Nat.le_refl _) (by simp) (Or.inr rfl)
        refine ⟨vs, ?_, ?_⟩
        . rw [heq]
          simp only [List.flatten_cons, List.length_append, Cursor.mk.injEq, and_true]
          omega
        . rw [hvs]
          simp only [Nat.sub_self, List.drop_zero, List.flatten_append, List.flatten_cons,
            List.flatten_nil, List.append_nil, List.append_assoc, List.append_cancel_left_eq]
          rw [List.drop_append_of_le_length (by omega)]
          rw [← take_append_take (m := k) (by rw [List.length_drop]; omega)]
          congr 2
          omega
    . rw [go_eq_of_done _ _ _ hcopied]
      have : c.totalBytesVisited = c.offset := by omega
      refine ⟨c.vectorIOs, ?_, ?_⟩
      . cases c
        simp_all
      . have : bytes - c.totalBytesCopied = 0 := by omega
        simp [this]

end fragmentPacket

theorem fragmentPacket_eq (kind : MessageComponent.Kind) (pkt : DownstreamPacket) (metaInfo : MetaInfo)
    (seq bytes : Nat) (hoffset : metaInfo.offset ≤ pkt.length)
    (hbytes : 0 < bytes ∨ metaInfo.offset < pkt.length)
    : fragmentPacket kind pkt metaInfo seq bytes
        =
      (
        {
          type := kind
          destination := pkt.info.destination
          priority := pkt.info.priority
          data := (pkt.bytes.drop metaInfo.offset).take bytes
          fragmentIndex := metaInfo.index
          fragmentOffset := metaInfo.offset
          fragmentSequence := seq
          moreFragments := metaInfo.offset + min bytes (pkt.length - metaInfo.offset) ≠ pkt.length
        },
        min bytes (pkt.length - metaInfo.offset),
        ⟨metaInfo.index + 1, metaInfo.offset + min bytes (pkt.length - metaInfo.offset)⟩
      ) := by
  by_cases hzero : bytes = 0
  . subst hzero
    have hgo := fragmentPacket.go_eq_of_done 0 pkt.vectorIO ⟨0, 0, metaInfo.offset, []⟩ (by simp)
    unfold fragmentPacket
    rw [hgo]
    have h1 : pkt.length ≠ 0 := by omega
    have h2 : metaInfo.offset ≠ pkt.length := by omega
    simp [h1.symm, h2]
  . have hflat : pkt.vectorIO.flatten.length = pkt.length := pkt.length_bytes
    obtain ⟨vs, heq, hvs⟩ := fragmentPacket.go_eq bytes pkt.vectorIO ⟨0, 0, metaInfo.offset, []⟩
      (by simp) (by simpa [hflat] using hoffset) (by simp only; omega)
    unfold fragmentPacket
    rw [heq]
    simp only [Nat.sub_zero, Nat.zero_add, hflat] at hvs ⊢
    rw [hvs]
    simp [DownstreamPacket.bytes]

end Queue
end Tdma
end Emane
