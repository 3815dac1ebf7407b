import Emane.Transport.Lemmas.EthernetTransport

/-!
This module contains what holds of the frames from upstream and of the frames from the device, one
by one and over a run.
-/

namespace Emane
namespace Transport

open NetUtils

namespace EthernetTransport

variable (t : EthernetTransport)

section

variable {bytes : List UInt8} {beyond : Nat → UInt8}

theorem destination_inside (h : ETH_HEADER_LEN ≤ bytes.length) (toId : List UInt8 → NEMId)
    : (t.destination (Memory.ofList bytes beyond) 0 toId).Within (BufferStep.Inside bytes.length) := by
  unfold destination
  split
  . exact Logged.within_pure _ _
  . rw [Logged.within_bind_iff, Field.within_bytes_iff]
    refine ⟨?_, ?_⟩
    . unfold ETH_HEADER_LEN at h
      change 0 + 0 + 6 ≤ bytes.length
      omega
    . split
      . exact Logged.within_pure _ _
      . exact Logged.within_pure _ _

theorem parseFrame_inside (haccepts : Accepts bytes)
    : (t.parseFrame (Memory.ofList bytes beyond) 0).Within (BufferStep.Inside bytes.length) := by
  have hdestination := @destination_inside t bytes beyond haccepts.eth
  obtain ⟨hwithin, hproto⟩ := @proto_inside bytes beyond haccepts.eth
  unfold parseFrame
  simp only [Logged.within_bind_iff, hproto, hwithin, true_and]
  split
  . next hipv4 =>
    have hlen : 14 + 20 ≤ bytes.length := haccepts.ipv4 hipv4
    have htos := (@read_inside bytes beyond Ip4Header.tos (0 + ETH_HEADER_LEN)
      (show 14 + 1 + 1 ≤ bytes.length by omega)).1
    simp only [Logged.within_bind_iff, hdestination, htos, Logged.within_pure, and_self]
  . split
    . next hipv6 =>
      have hlen : 14 + 40 ≤ bytes.length := haccepts.ipv6 hipv6
      have hver := (@read_inside bytes beyond Ip6Header.ver (0 + ETH_HEADER_LEN)
        (show 14 + 0 + 1 ≤ bytes.length by omega)).1
      have hclas := (@read_inside bytes beyond Ip6Header.clas (0 + ETH_HEADER_LEN)
        (show 14 + 1 + 1 ≤ bytes.length by omega)).1
      simp only [Logged.within_bind_iff, hdestination, hver, hclas, Logged.within_pure, and_self]
    . split
      . simp only [Logged.within_bind_iff, hdestination, Logged.within_pure, and_self]
      . simp only [Logged.within_bind_iff, hdestination, Logged.within_pure, and_self]

end

theorem find?_learn (bytes : List UInt8) (nemId : NEMId) (addr : EtherAddr)
    : (t.learn bytes nemId).macCache.find? addr
        =
      if t.Learns ∧ advertised bytes = some addr then some nemId else t.macCache.find? addr := by
  unfold learn
  by_cases hlearns : t.Learns
  . rw [if_pos hlearns]
    cases advertised bytes with
    | none => simp
    | some addr' =>
      simp only [Option.elim_some, find?_addEntry, hlearns, true_and, Option.some_inj, eq_comm]
  . simp [hlearns]

theorem learn_learns (bytes : List UInt8) (nemId : NEMId) : (t.learn bytes nemId).Learns ↔ t.Learns := by
  unfold learn
  split
  . cases advertised bytes with
    | none => rfl
    | some addr => exact t.addEntry_learns addr nemId
  . rfl

end EthernetTransport

structure Arrival where
  frame : Frame
  beyond : Nat → UInt8
  source : NEMId

namespace Arrival

def mem (a : Arrival) : Nat → UInt8 :=
  Memory.ofList a.frame.val a.beyond

def verdict (a : Arrival) : Int :=
  (verifyFrame a.mem 0 a.frame.val.length).result

def process (a : Arrival) (t : EthernetTransport) : Logged BufferStep (EthernetTransport × List Call) :=
  VirtualTransport.processUpstreamPacket t a.frame a.beyond a.source

structure Checked (a : Arrival) (t : EthernetTransport) : Prop where
  inside : (a.process t).Within (BufferStep.Inside a.frame.val.length)
  calls : a.verdict < 0 → (a.process t).result.2 = []
  unchanged : a.verdict < 0 → (a.process t).result.1 = t

/--
The frame is accepted, and a message of the neighbour discovery is not cut behind its headers
while the cache is used.
-/
def Whole (a : Arrival) (t : EthernetTransport) : Prop :=
  Accepts a.frame.val ∧ (t.Learns → TypeInside a.frame.val)

variable (a : Arrival) (t : EthernetTransport)

theorem accepts_iff : 0 ≤ a.verdict ↔ Accepts a.frame.val := by
  exact (verifyFrame_inside a.frame.property).2

theorem calls_process
    : (a.process t).result.2 = [.updateArpCache a.source, .writev a.frame.val] := by
  rfl

theorem within_process_iff
    : (a.process t).Within (BufferStep.Inside a.frame.val.length)
        ↔
      (t.updateArpCache a.mem 0 a.source).Within (BufferStep.Inside a.frame.val.length) := by
  unfold process VirtualTransport.processUpstreamPacket
  simp only [Logged.within_bind_iff, Logged.within_pure, and_true]
  exact and_iff_right (verifyFrame_inside a.frame.property).1

theorem checked_iff : a.Checked t ↔ a.Whole t := by
  constructor
  . intro h
    have haccepts : Accepts a.frame.val := by
      by_contra hrejected
      have hverdict : a.verdict < 0 := Int.not_le.mp (fun h => hrejected (a.accepts_iff.mp h))
      exact absurd ((a.calls_process t).symm.trans (h.calls hverdict)) (List.cons_ne_nil _ _)
    exact ⟨haccepts, (t.updateArpCache_inside haccepts a.source).1.mp
      ((a.within_process_iff t).mp h.inside)⟩
  . rintro ⟨haccepts, htype⟩
    have hverdict : ¬a.verdict < 0 := Int.not_lt.mpr (a.accepts_iff.mpr haccepts)
    exact ⟨(a.within_process_iff t).mpr ((t.updateArpCache_inside haccepts a.source).1.mpr htype),
      fun h => absurd h hverdict,
      fun h => absurd h hverdict⟩

variable {a t} in
theorem Whole.process_eq (h : a.Whole t) : (a.process t).result.1 = t.learn a.frame.val a.source := by
  exact (t.updateArpCache_inside h.1 a.source).2 h.2

end Arrival

namespace VirtualTransport

def processUpstreamPackets (t : EthernetTransport) (arrivals : List Arrival) : EthernetTransport :=
  arrivals.foldl (fun t a => (a.process t).result.1) t

def lastAdvertiser (arrivals : List Arrival) (addr : EtherAddr) : Option NEMId :=
  ((arrivals.filter (fun a => advertised a.frame.val = some addr)).getLast?).map Arrival.source

theorem lastAdvertiser_concat (arrivals : List Arrival) (a : Arrival) (addr : EtherAddr)
    : lastAdvertiser (arrivals ++ [a]) addr
        =
      if advertised a.frame.val = some addr then some a.source else lastAdvertiser arrivals addr := by
  unfold lastAdvertiser
  split
  . next hadvert => simp [hadvert]
  . next hadvert => simp [hadvert]

theorem readDevice_inside (t : EthernetTransport) (frame : Frame) (beyond : Nat → UInt8)
    : (readDevice t frame beyond).Within (BufferStep.Inside frame.val.length) := by
  obtain ⟨hwithin, hverdict⟩ := @verifyFrame_inside frame.val beyond frame.property
  unfold readDevice
  rw [Logged.within_bind_iff]
  refine ⟨hwithin, ?_⟩
  split
  . exact Logged.within_pure _ _
  . next hnonneg =>
    have haccepts := hverdict.mp (Int.not_lt.mp hnonneg)
    rw [Logged.within_bind_iff]
    refine ⟨t.parseFrame_inside haccepts, ?_⟩
    dsimp only
    split
    . exact Logged.within_pure _ _
    . exact Logged.within_pure _ _

section

variable {t : EthernetTransport} {arrivals : List Arrival}

theorem processUpstreamPackets_concat (a : Arrival)
    : processUpstreamPackets t (arrivals ++ [a])
        = (a.process (processUpstreamPackets t arrivals)).result.1 := by
  exact List.foldl_concat _ _ _ _

theorem processUpstreamPackets_learns (h : ∀ a ∈ arrivals, a.Whole t)
    : ((processUpstreamPackets t arrivals).Learns ↔ t.Learns)
      ∧ ∀ addr, (processUpstreamPackets t arrivals).macCache.find? addr
          =
        (if t.Learns then lastAdvertiser arrivals addr else none).or (t.macCache.find? addr) := by
  induction arrivals using List.reverseRecOn with
  | nil =>
    refine ⟨Iff.rfl, fun addr => ?_⟩
    simp [processUpstreamPackets, lastAdvertiser]
  | append_singleton arrivals a ih =>
    rw [List.forall_mem_append, List.forall_mem_singleton] at h
    obtain ⟨hlearns, hfind⟩ := ih h.1
    have hwhole : a.Whole (processUpstreamPackets t arrivals) := ⟨h.2.1, fun hl => h.2.2 (hlearns.mp hl)⟩
    rw [processUpstreamPackets_concat, hwhole.process_eq]
    refine ⟨(EthernetTransport.learn_learns _ _ _).trans hlearns, fun addr => ?_⟩
    rw [EthernetTransport.find?_learn, hfind, lastAdvertiser_concat]
    simp only [hlearns]
    by_cases hl : t.Learns
    . by_cases hadvert : advertised a.frame.val = some addr
      . simp [hl, hadvert]
      . simp [hl, hadvert]
    . simp [hl]

end

/--
What is promised of a run: every frame is checked in the state that it comes to, the cache is up
to date before and after it, and the frames from the device are read within their bytes.
-/
structure Upholds (t : EthernetTransport) (arrivals : List Arrival) : Prop where
  checked : ∀ before a after, arrivals = before ++ a :: after
    → a.Checked (processUpstreamPackets t before)
  cache : ∀ before after, arrivals = before ++ after →
    ∀ addr, (processUpstreamPackets t before).macCache.find? addr
        =
      (if t.Learns then lastAdvertiser before addr else none).or (t.macCache.find? addr)
  device : ∀ before after, arrivals = before ++ after →
    ∀ frame beyond, (readDevice (processUpstreamPackets t before) frame beyond).Within
      (BufferStep.Inside frame.val.length)

theorem whole_of_checked {t : EthernetTransport} {arrivals : List Arrival}
    (h : ∀ before a after, arrivals = before ++ a :: after → a.Checked (processUpstreamPackets t before))
    : ∀ a ∈ arrivals, a.Whole t := by
  induction arrivals using List.reverseRecOn with
  | nil => exact fun a ha => absurd ha List.not_mem_nil
  | append_singleton arrivals a ih =>
    have hbefore : ∀ a ∈ arrivals, a.Whole t := by
      refine ih (fun before b after heq => h before b (after ++ [a]) ?_)
      rw [heq, List.append_assoc, List.cons_append]
    have hlearns := (processUpstreamPackets_learns hbefore).1
    have hwhole := (a.checked_iff _).mp (h arrivals a [] rfl)
    rw [List.forall_mem_append, List.forall_mem_singleton]
    exact ⟨hbefore, hwhole.1, fun hl => hwhole.2 (hlearns.mpr hl)⟩

theorem upholds_iff (t : EthernetTransport) (arrivals : List Arrival)
    : Upholds t arrivals ↔ ∀ a ∈ arrivals, a.Whole t := by
  constructor
  . exact fun h => whole_of_checked h.checked
  . intro h
    have hshorter : ∀ before after, arrivals = before ++ after → ∀ a ∈ before, a.Whole t := by
      rintro before after rfl
      exact (List.forall_mem_append.mp h).1
    refine ⟨?_, ?_, ?_⟩
    . intro before a after heq
      have hlearns := (processUpstreamPackets_learns (hshorter before (a :: after) heq)).1
      have hwhole := h a (by simp [heq])
      exact (a.checked_iff _).mpr ⟨hwhole.1, fun hl => hwhole.2 (hlearns.mp hl)⟩
    . intro before after heq
      exact (processUpstreamPackets_learns (hshorter before after heq)).2
    . intro before after _ frame beyond
      exact readDevice_inside _ frame beyond

def arpCaching : EthernetTransport :=
  ⟨false, true, .empty⟩

def shortArrival : Arrival :=
  ⟨⟨List.replicate 10 0, by decide⟩, fun _ => 0, 7⟩

def cutArrival : Arrival :=
  ⟨⟨List.replicate 12 0 ++ [0x86, 0xDD] ++ [0x60, 0, 0, 0, 0, 0, 0x3A]
    ++ List.replicate 33 0, by decide⟩, fun _ => 135, 7⟩

theorem not_upholds_shortArrival_cutArrival
    : ¬Upholds arpCaching [shortArrival]
      ∧ shortArrival.verdict = -1
      ∧ (shortArrival.process arpCaching).result.2 = [.updateArpCache 7, .writev (List.replicate 10 0)]
      ∧ BufferStep.read 12 2 ∈ (shortArrival.process arpCaching).log
      ∧ ¬Upholds arpCaching [cutArrival]
      ∧ cutArrival.verdict = 0
      ∧ BufferStep.read 54 1 ∈ (cutArrival.process arpCaching).log
      ∧ (cutArrival.process arpCaching).result.1.macCache.find? 0 = some 7 := by
  refine ⟨?_, by decide +kernel, by decide +kernel, by decide +kernel, ?_, by decide +kernel, by decide +kernel, by decide +kernel⟩
  . exact fun h => absurd (whole_of_checked h.checked _ List.mem_cons_self).1 (by decide)
  . exact fun h => absurd ((whole_of_checked h.checked _ List.mem_cons_self).2 (by decide))
      (by decide +kernel)

end VirtualTransport
end Transport
end Emane
