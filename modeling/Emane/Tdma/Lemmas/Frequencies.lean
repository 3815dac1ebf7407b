import Emane.Tdma.Lemmas.Mentions

/-!
This module contains when the frequencies that the user of the scheduler is told are those of the
slots to send and to receive in.
-/

namespace Emane
namespace Tdma
namespace Events

def SlotInfo.use (info : SlotInfo) : Option Nat :=
  match info.type with
  | .TX => some info.frequency
  | .RX => some info.frequency
  | .IDLE => none

theorem SlotInfo.frequency_of_use {info : SlotInfo} {f : Nat} (h : info.use = some f)
    : info.frequency = f := by
  unfold use at h
  split at h
  . exact Option.some.inj h
  . exact Option.some.inj h
  . cases h

def Uses (slotInfos : List SlotInfo) (frequency : Nat) : Prop :=
  ∃ info ∈ slotInfos, info.use = some frequency

instance Uses.decidable (slotInfos : List SlotInfo) (frequency : Nat)
    : Decidable (Uses slotInfos frequency) :=
  inferInstanceAs (Decidable (∃ info ∈ slotInfos, _))

end Events

namespace EventScheduler

open Events (Uses)
open Events.TDMAScheduleEvent (Message)

def Kept (slotStructure : Events.SlotStructure) (slotInfos mentions : List Events.SlotInfo)
    (frequency : Nat) : Prop :=
  Uses (standing slotStructure mentions) frequency
    ∨ ∃ p ∈ slotInfos.zipIdx, p.1.use = some frequency ∧ ∀ info ∈ mentions, place slotStructure info ≠ p.2

instance Kept.decidable (slotStructure : Events.SlotStructure)
    (slotInfos mentions : List Events.SlotInfo) (frequency : Nat)
    : Decidable (Kept slotStructure slotInfos mentions frequency) :=
  inferInstanceAs (Decidable (_ ∨ _))

theorem kept_iff {slotStructure : Events.SlotStructure} {slotInfos mentions : List Events.SlotInfo}
    {frequency : Nat}
    : Kept slotStructure slotInfos mentions frequency
        ↔
      ∃ info, Results slotStructure slotInfos mentions info ∧ info.use = some frequency := by
  constructor
  . rintro (⟨info, hinfo, huse⟩ | ⟨⟨info, i⟩, hmem, huse, hnone⟩)
    . exact ⟨info, Or.inl hinfo, huse⟩
    . exact ⟨info, Or.inr ⟨i, List.mem_zipIdx_iff_getElem?.mp hmem, hnone⟩, huse⟩
  . rintro ⟨info, hinfo | ⟨i, hi, hnone⟩, huse⟩
    . exact Or.inl ⟨info, hinfo, huse⟩
    . exact Or.inr ⟨⟨info, i⟩, List.mem_zipIdx_iff_getElem?.mpr hi, huse, hnone⟩

def FrequenciesKept (slotStructure : Events.SlotStructure)
    (slotInfos mentions : List Events.SlotInfo) : Prop :=
  (∀ info ∈ mentions, Kept slotStructure slotInfos mentions info.frequency)
    ∧ (∀ info ∈ mentions, ∀ old ∈ slotInfos[place slotStructure info]?, ∀ frequency ∈ old.use,
    Kept slotStructure slotInfos mentions frequency)

instance FrequenciesKept.decidable (slotStructure : Events.SlotStructure)
    (slotInfos mentions : List Events.SlotInfo)
    : Decidable (FrequenciesKept slotStructure slotInfos mentions) :=
  inferInstanceAs (Decidable (_ ∧ _))

theorem frequenciesKept_iff {slotStructure : Events.SlotStructure}
    {slotInfos slotInfos' mentions : List Events.SlotInfo}
    {frequencies : Finset Nat}
    (hfrequencies : ∀ f, f ∈ frequencies ↔ Uses slotInfos f ∨ ∃ info ∈ mentions, info.frequency = f)
    (hslotInfos : ∀ info, info ∈ slotInfos' ↔ Results slotStructure slotInfos mentions info)
    : (∀ f, f ∈ frequencies ↔ Uses slotInfos' f) ↔ FrequenciesKept slotStructure slotInfos mentions := by
  have huses : ∀ f, Uses slotInfos' f ↔ Kept slotStructure slotInfos mentions f := by
    intro f
    unfold Uses
    simp only [kept_iff, hslotInfos]
  simp only [huses, hfrequencies]
  constructor
  . intro h
    constructor
    . exact fun info hinfo => (h _).mp (Or.inr ⟨info, hinfo, rfl⟩)
    . exact fun info _ old hold f hf => (h f).mp (Or.inl ⟨old, List.mem_of_getElem? hold, hf⟩)
  . rintro ⟨hmentions, hold⟩ f
    constructor
    . rintro (⟨old, hmem, huse⟩ | ⟨info, hinfo, rfl⟩)
      . obtain ⟨i, hi⟩ := List.getElem?_of_mem hmem
        by_cases hmention : ∃ info ∈ mentions, place slotStructure info = i
        . obtain ⟨info, hinfo, rfl⟩ := hmention
          exact hold info hinfo old hi f huse
        . refine kept_iff.mpr ⟨old, Or.inr ⟨i, hi, ?_⟩, huse⟩
          exact fun info hinfo heq => hmention ⟨info, hinfo, heq⟩
      . exact hmentions info hinfo
    . intro hf
      obtain ⟨info, hresults, huse⟩ := kept_iff.mp hf
      cases hresults with
      | inl hstanding => exact Or.inr ⟨info, mem_of_mem_standing hstanding, info.frequency_of_use huse⟩
      | inr hother =>
        obtain ⟨i, hi, _⟩ := hother
        exact Or.inl ⟨info, List.mem_of_getElem? hi, huse⟩

theorem not_uses_idleSchedule (framesPerMultiFrame slotsPerFrame frequency : Nat)
    : ¬ Uses (Events.TDMAScheduleEvent.idleSchedule framesPerMultiFrame slotsPerFrame) frequency := by
  rintro ⟨info, hinfo, huse⟩
  unfold Events.TDMAScheduleEvent.idleSchedule at hinfo
  rw [List.mem_flatMap] at hinfo
  obtain ⟨i, -, hi⟩ := hinfo
  rw [List.mem_map] at hi
  obtain ⟨j, -, rfl⟩ := hi
  cases huse

def Agrees (s : EventScheduler) : Prop :=
  ∀ f, f ∈ s.frequencies ↔ Uses s.slotInfos f

theorem agrees_of_cleared {s : EventScheduler} (h : Cleared s) : Agrees s := by
  intro f
  rw [h.frequencies, h.slotInfos]
  simp [Uses]

/--
A full schedule is written over idle slots, an update over the slots that are there.
-/
def LosesNoFrequency (s : EventScheduler) (msg : Option Message) : Prop :=
  ∀ m ∈ msg, s.Accepted m → FrequenciesKept (s.structureOf m) (s.tableOf m) m.mentions

instance LosesNoFrequency.decidable (s : EventScheduler) (msg : Option Message)
    : Decidable (s.LosesNoFrequency msg) :=
  Option.decidableForallMem msg

theorem agrees_iff_of_accepts {s s' : EventScheduler} {m : Message}
    {change : Option Scheduler.ScheduleChange} (hs : s.Agrees)
    (h : Accepts s m change s')
    : s'.Agrees ↔ FrequenciesKept (s.structureOf m) (s.tableOf m) m.mentions := by
  apply frequenciesKept_iff _ h.mem_slotInfos_iff
  intro f
  rw [h.mem_frequencies_iff]
  unfold tableOf
  cases m.slotStructure with
  | some slotStructure => simp only [reduceCtorEq, false_and, not_uses_idleSchedule]
  | none => simp only [hs f, true_and]

theorem agrees_step_iff {s s' : EventScheduler} {msg : Option Message} (hs : s.Agrees)
    (hstep : s.step msg = some s')
    : s'.Agrees ↔ s.LosesNoFrequency msg := by
  obtain ⟨⟨outcome, change, t⟩, hprocess, rfl⟩ := Option.map_eq_some_iff.mp hstep
  rcases accepts_or_not hprocess with ⟨m, rfl, haccepted, haccepts⟩ | ⟨hnot, hrest⟩
  . rw [agrees_iff_of_accepts hs haccepts]
    simp [LosesNoFrequency, haccepted]
  . have hloses : s.LosesNoFrequency msg := fun m hmsg haccepted => absurd haccepted (hnot m hmsg)
    rcases hrest with ⟨rfl, -⟩ | ⟨hcleared, -⟩
    . exact iff_of_true hs hloses
    . exact iff_of_true (agrees_of_cleared hcleared) hloses

theorem change_of_processEvent {s s' : EventScheduler} {msg : Option Message} {outcome : Outcome}
    {change : Option Scheduler.ScheduleChange} (h : s.processEvent msg = some (outcome, change, s'))
    : change = none ∧ s' = s
        ∨ change
        =
      some ⟨s'.frequencies, s'.slotStructure.bandwidth, s'.slotStructure.slotDuration,
          s'.slotStructure.slotOverhead⟩ := by
  rcases accepts_or_not h with ⟨m, -, -, haccepts⟩ | ⟨-, ⟨rfl, rfl⟩ | ⟨hcleared, rfl⟩⟩
  . exact Or.inr haccepts.change
  . exact Or.inl ⟨rfl, rfl⟩
  . right
    rw [hcleared.frequencies, hcleared.slotStructure]

theorem frequencies_agree_iff {msgs : List (Option Message)} {s : EventScheduler}
    (hrun : run step {} msgs = some s)
    : (∀ msgs₁ msg msgs₂ t outcome change t',
        msgs = msgs₁ ++ msg :: msgs₂
          →
        run step {} msgs₁ = some t
          →
        t.processEvent msg = some (outcome, some change, t')
          →
        ∀ f, f ∈ change.frequencies ↔ Uses t'.slotInfos f)
        ↔
      Guarded step LosesNoFrequency {} msgs := by
  have hinit : Agrees {} := agrees_of_cleared ⟨rfl, rfl, rfl, rfl⟩
  rw [← @run_always_iff _ _ step LosesNoFrequency (fun _ => True) Agrees (fun _ _ _ _ _ => trivial)
    (fun _ _ _ _ hs hstep => agrees_step_iff hs hstep) _ _ _ trivial hinit hrun]
  constructor
  . intro h msgs₁
    induction msgs₁ using List.reverseRecOn with
    | nil =>
      intro _ t _ hrun
      cases hrun
      exact hinit
    | append_singleton msgs₁ msg ih =>
      intro msgs₂ t' heq hrun
      rw [run_append, Option.bind_eq_some_iff] at hrun
      obtain ⟨t, hrun, hlast⟩ := hrun
      rw [run_cons, Option.bind_eq_some_iff] at hlast
      obtain ⟨t'', hstep, hlast⟩ := hlast
      cases hlast
      rw [List.append_assoc, List.singleton_append] at heq
      obtain ⟨⟨outcome, change, t''⟩, hprocess, rfl⟩ := Option.map_eq_some_iff.mp hstep
      rcases change_of_processEvent hprocess with ⟨-, rfl⟩ | rfl
      . exact ih (msg :: msgs₂) t'' heq hrun
      . exact h msgs₁ msg msgs₂ t outcome _ t'' heq hrun hprocess
  . intro h msgs₁ msg msgs₂ t outcome change t' heq hrun hprocess
    have hagrees : t'.Agrees := by
      apply h (msgs₁ ++ [msg]) msgs₂ t' (by rw [heq, List.append_assoc, List.singleton_append])
      rw [run_append, hrun, Option.bind_some, run_cons]
      unfold step
      rw [hprocess]
      rfl
    rcases change_of_processEvent hprocess with ⟨hnone, -⟩ | hsome
    . cases hnone
    . cases hsome
      exact hagrees

theorem frequencies_agree_iff_example
    : ∃ s,
        run step {} [
          some { slotStructure := some ⟨1, 2, 2, 1000, 0⟩, frames := [{ index := 1, frequencyHz := some 5 }] },
          some { frames := [{ index := 0, slots := [{ index := 1, type := .RX, rx := { frequencyHz := some 7 } }] }] }
        ] = some s
          ∧ ∀ msgs₁ msg msgs₂ t outcome change t',
          [
            some { slotStructure := some ⟨1, 2, 2, 1000, 0⟩, frames := [{ index := 1, frequencyHz := some 5 }] },
            some { frames := [{ index := 0, slots := [{ index := 1, type := .RX, rx := { frequencyHz := some 7 } }] }] }
          ] = msgs₁ ++ msg :: msgs₂
            →
          run step {} msgs₁ = some t
            →
          t.processEvent msg = some (outcome, some change, t')
            →
          ∀ f, f ∈ change.frequencies ↔ Uses t'.slotInfos f := by
  refine ⟨_, rfl, ?_⟩
  apply (frequencies_agree_iff rfl).mpr
  decide

theorem not_frequencies_agree
    : ¬ ∀ msgs s,
        run step {} msgs = some s
          →
        ∀ msgs₁ msg msgs₂ t outcome change t',
          msgs = msgs₁ ++ msg :: msgs₂
            →
          run step {} msgs₁ = some t
            →
          t.processEvent msg = some (outcome, some change, t')
            →
          ∀ f, f ∈ change.frequencies ↔ Uses t'.slotInfos f := by
  intro h
  have hagree := h [some {
    slotStructure := some ⟨1, 1, 2, 1000, 0⟩
    frames := [{ index := 0, frequencyHz := some 5, slots := [{ index := 0, type := .IDLE }] }]
  }] _ rfl [] _ [] {} _ _ _ rfl rfl rfl
  have huses := (hagree 0).mp (by decide)
  revert huses
  decide

end EventScheduler
end Tdma
end Emane
