import Emane.Tdma.Lemmas.EventScheduler

/-!
This module contains what an accepted event makes of the schedule: every slot that it mentions is
written in its last mention, and the others are left as they are.
-/

namespace Emane
namespace Tdma
namespace Events
namespace TDMAScheduleEvent

def Message.Slot.mention (msg : Message) (frame : Message.Frame) (slot : Message.Slot) : SlotInfo :=
  match slot.type with
  | .TX => {
      type := .TX
      frameIndex := frame.index
      slotIndex := slot.index
      frequency := (slot.tx.frequencyHz <|> frame.frequencyHz <|> msg.frequencyHz).getD 0
      dataRate := (slot.tx.dataRatebps <|> frame.dataRatebps <|> msg.dataRatebps).getD 0
      serviceClass := (slot.tx.serviceClass <|> frame.serviceClass <|> msg.serviceClass).getD 0 % 2^8
      power := (slot.tx.powerdBm <|> frame.powerdBm <|> msg.powerdBm).getD 0
      destination := slot.tx.destination.getD 0 % 2^16
    }
  | .RX => {
      type := .RX
      frameIndex := frame.index
      slotIndex := slot.index
      frequency := (slot.rx.frequencyHz <|> frame.frequencyHz <|> msg.frequencyHz).getD 0
    }
  | .IDLE => { type := .IDLE, frameIndex := frame.index, slotIndex := slot.index }

def Message.Frame.missing (msg : Message) (frame : Message.Frame) : List SlotInfo :=
  match msg.slotStructure with
  | some slotStructure =>
    (missingSlots frame slotStructure.slotsPerFrame).map (fun slotIndex => {
      type := .RX
      frameIndex := frame.index
      slotIndex := slotIndex
      frequency := (frame.frequencyHz <|> msg.frequencyHz).getD 0
    })
  | none => []

def Message.Frame.mentions (msg : Message) (frame : Message.Frame) : List SlotInfo :=
  frame.slots.map (Message.Slot.mention msg frame) ++ Message.Frame.missing msg frame

def Message.mentions (msg : Message) : List SlotInfo :=
  msg.frames.flatMap (Message.Frame.mentions msg)

theorem determine_eq_ok_iff {α : Type} {value : Option α} {exception : SerializationException} {a : α}
    : determine value exception = .ok a ↔ value = some a := by
  cases value with
  | none => simp [determine]
  | some b => simp [determine]

theorem eq_mention_of_slotInfoOf (msg : Message) (frame : Message.Frame) (slot : Message.Slot)
    : Ensures (slotInfoOf msg frame slot) (fun info => info = Message.Slot.mention msg frame slot)
        (fun _ => True) := by
  unfold slotInfoOf Message.Slot.mention
  cases slot.type with
  | TX =>
    apply Ensures.bind_of_fail (fun _ _ => trivial)
    intro frequency hfrequency
    apply Ensures.bind_of_fail (fun _ _ => trivial)
    intro dataRate hdataRate
    apply Ensures.bind_of_fail (fun _ _ => trivial)
    intro serviceClass hserviceClass
    apply Ensures.bind_of_fail (fun _ _ => trivial)
    intro power hpower
    rw [determine_eq_ok_iff] at hfrequency hdataRate hserviceClass hpower
    apply Ensures.ok
    simp only [hfrequency, hdataRate, hserviceClass, hpower, Option.getD_some]
  | RX =>
    apply Ensures.bind_of_fail (fun _ _ => trivial)
    intro frequency hfrequency
    rw [determine_eq_ok_iff] at hfrequency
    apply Ensures.ok
    simp only [hfrequency, Option.getD_some]
  | IDLE => exact Ensures.ok rfl

theorem foldl_place (mentions : List SlotInfo) (event : TDMAScheduleEvent)
    : (mentions.foldl place event).hasStructure = event.hasStructure
        ∧ (mentions.foldl place event).slotStructure = event.slotStructure
        ∧ ∀ f, f ∈ (mentions.foldl place event).frequencies ↔ f ∈ event.frequencies
            ∨ ∃ info ∈ mentions, info.frequency = f := by
  induction mentions generalizing event with
  | nil => simp
  | cons info mentions ih =>
    obtain ⟨hhas, hstructure, hfrequencies⟩ := ih (event.place info)
    refine ⟨hhas, hstructure, ?_⟩
    intro f
    rw [List.foldl_cons, hfrequencies]
    simp only [TDMAScheduleEvent.place, Finset.mem_insert, List.mem_cons, exists_eq_or_imp, @eq_comm _ f]
    rw [or_assoc, or_left_comm]

structure Placed (msg : Message) (mentions : List SlotInfo) (event : TDMAScheduleEvent) : Prop where
  inRange : ∀ slotStructure ∈ msg.slotStructure, ∀ info ∈ mentions,
    EventScheduler.InRange slotStructure (position info)
  eq : event = mentions.foldl place (empty msg)

variable {msg : Message} {mentions : List SlotInfo} {event : TDMAScheduleEvent}

theorem Placed.place (h : Placed msg mentions event)
    {info : SlotInfo}
    (hrange : ∀ slotStructure ∈ msg.slotStructure, EventScheduler.InRange slotStructure (position info))
    : Placed msg (mentions ++ [info]) (event.place info) := by
  constructor
  . intro slotStructure hstructure
    rw [List.forall_mem_append, List.forall_mem_singleton]
    exact ⟨h.inRange slotStructure hstructure, hrange slotStructure hstructure⟩
  . rw [List.foldl_append, h.eq]
    rfl

theorem Placed.structure (h : Placed msg mentions event)
    : event.hasStructure = msg.slotStructure.isSome
        ∧ event.slotStructure = msg.slotStructure.getD {} := by
  obtain ⟨hhas, hstructure, -⟩ := foldl_place mentions (empty msg)
  rw [h.eq, hhas, hstructure]
  unfold empty
  cases msg.slotStructure with
  | none => exact ⟨rfl, rfl⟩
  | some slotStructure => exact ⟨rfl, rfl⟩

theorem Placed.mem_frequencies_iff
    (h : Placed msg mentions event) {f : Nat}
    : f ∈ event.frequencies ↔ ∃ info ∈ mentions, info.frequency = f := by
  have hempty : (empty msg).frequencies = ∅ := by
    unfold empty
    split
    . rfl
    . rfl
  rw [h.eq, (foldl_place mentions (empty msg)).2.2 f, hempty]
  simp only [Finset.notMem_empty, false_or]

theorem Placed.addSlot {frame : Message.Frame}
    (hframe : ∀ slotStructure ∈ msg.slotStructure, frame.index < slotStructure.framesPerMultiFrame)
    (slot : Message.Slot) (h : Placed msg mentions event)
    : Ensures (addSlot msg frame event slot)
        (Placed msg (mentions ++ [Message.Slot.mention msg frame slot]))
        (fun _ => True) := by
  unfold TDMAScheduleEvent.addSlot
  rw [h.structure.1, h.structure.2]
  split
  . trivial
  . next hslot =>
    apply Ensures.bind ((ensures_slotInfoOf msg frame slot).and (eq_mention_of_slotInfoOf msg frame slot))
    rintro _ ⟨⟨hframeIndex, hslotIndex⟩, rfl⟩
    apply Ensures.ok
    apply h.place
    intro slotStructure hstructure
    rw [Option.mem_def.mp hstructure] at hslot
    simp only [Option.isSome_some, Option.getD_some, Bool.true_and, decide_eq_true_eq,
      Nat.not_le] at hslot
    unfold position
    rw [hframeIndex, hslotIndex]
    exact ⟨hframe slotStructure hstructure, hslot⟩

theorem Placed.addMissingSlots {frame : Message.Frame} {slotStructure : SlotStructure}
    (hstructure : msg.slotStructure = some slotStructure)
    (hframe : frame.index < slotStructure.framesPerMultiFrame) (h : Placed msg mentions event)
    : Ensures ((missingSlots frame slotStructure.slotsPerFrame).foldlM (addMissingSlot msg frame) event)
        (Placed msg (mentions ++ Message.Frame.missing msg frame))
        (fun _ => True) := by
  have hmissing : Message.Frame.missing msg frame
      = (missingSlots frame slotStructure.slotsPerFrame).flatMap (fun slotIndex =>
        [⟨.RX, frame.index, slotIndex, (frame.frequencyHz <|> msg.frequencyHz).getD 0, 0, 0, 0, 0⟩]) := by
    unfold Message.Frame.missing
    rw [hstructure]
    exact List.map_eq_flatMap
  rw [hmissing]
  apply Ensures.foldlM_trace _ h
  intro mentions event slotIndex hslotIndex h
  apply Ensures.bind_of_fail (fun _ _ => trivial)
  intro frequency hfrequency
  rw [determine_eq_ok_iff] at hfrequency
  rw [hfrequency, Option.getD_some]
  apply Ensures.ok
  apply h.place
  intro slotStructure' hstructure'
  obtain rfl := Option.some.inj (hstructure.symm.trans hstructure')
  unfold missingSlots at hslotIndex
  rw [List.mem_filter, List.mem_range] at hslotIndex
  exact ⟨hframe, hslotIndex.1⟩

theorem Placed.addFrame (frame : Message.Frame)
    (h : Placed msg mentions event)
    : Ensures (addFrame msg event frame) (Placed msg (mentions ++ Message.Frame.mentions msg frame))
        (fun _ => True) := by
  unfold TDMAScheduleEvent.addFrame
  rw [h.structure.1, h.structure.2]
  split
  . trivial
  . next hrange =>
    have hframe : ∀ slotStructure ∈ msg.slotStructure,
        frame.index < slotStructure.framesPerMultiFrame := by
      intro slotStructure hstructure
      rw [Option.mem_def.mp hstructure] at hrange
      simp only [Option.isSome_some, Option.getD_some, Bool.true_and, decide_eq_true_eq,
        Nat.not_le] at hrange
      exact hrange
    have hslots : Ensures (frame.slots.foldlM (TDMAScheduleEvent.addSlot msg frame) event)
        (Placed msg (mentions ++ frame.slots.flatMap (fun slot => [Message.Slot.mention msg frame slot])))
        (fun _ => True) :=
      Ensures.foldlM_trace (fun mentions event slot _ h => h.addSlot hframe slot) h
    rw [← List.map_eq_flatMap] at hslots
    apply hslots.bind
    intro event h
    unfold Message.Frame.mentions
    rw [h.structure.1, h.structure.2, ← List.append_assoc]
    cases hstructure : msg.slotStructure with
    | some slotStructure => exact h.addMissingSlots hstructure (hframe slotStructure hstructure)
    | none =>
      unfold Message.Frame.missing
      rw [hstructure, List.append_nil]
      exact h

theorem placed_of_ofMessage (hevent : ofMessage (some msg) = .ok event)
    : Placed msg msg.mentions event := by
  have hempty : Placed msg [] (empty msg) := ⟨by simp, rfl⟩
  have hensures : Ensures (ofMessage (some msg))
    (Placed msg ([] ++ msg.frames.flatMap (Message.Frame.mentions msg)))
      (fun _ => True) :=
    Ensures.foldlM_trace (fun mentions event frame _ h => h.addFrame frame) hempty
  exact hensures.of_ok hevent

end TDMAScheduleEvent
end Events

namespace EventScheduler

open Events.TDMAScheduleEvent (Message position)

def place (slotStructure : Events.SlotStructure) (info : Events.SlotInfo) : Nat :=
  placeOf slotStructure (position info) % 2^32

def standing (slotStructure : Events.SlotStructure) : List Events.SlotInfo → List Events.SlotInfo
  | [] => []
  | info :: infos =>
    if ∃ info' ∈ infos, place slotStructure info' = place slotStructure info then
      standing slotStructure infos
    else
      info :: standing slotStructure infos

variable {slotStructure : Events.SlotStructure} {info : Events.SlotInfo}

theorem mem_of_mem_standing {mentions : List Events.SlotInfo}
    (h : info ∈ standing slotStructure mentions)
    : info ∈ mentions := by
  induction mentions with
  | nil => exact h
  | cons info' infos ih =>
    unfold standing at h
    split at h
    . exact List.mem_cons_of_mem _ (ih h)
    . cases List.mem_cons.mp h with
      | inl heq => exact heq ▸ List.mem_cons_self
      | inr hmem => exact List.mem_cons_of_mem _ (ih hmem)

def Results (slotStructure : Events.SlotStructure) (slotInfos mentions : List Events.SlotInfo)
    (info : Events.SlotInfo) : Prop :=
  info ∈ standing slotStructure mentions
    ∨ ∃ i : Nat, slotInfos[i]? = some info ∧ ∀ info' ∈ mentions, place slotStructure info' ≠ i

theorem results_cons_iff {slotInfos infos : List Events.SlotInfo}
    {first : Events.SlotInfo} (hlt : place slotStructure first < slotInfos.length)
    : Results slotStructure slotInfos (first :: infos) info
        ↔
      Results slotStructure (slotInfos.set (place slotStructure first) first) infos info := by
  unfold Results
  simp only [List.getElem?_set, List.forall_mem_cons]
  constructor
  . rintro (hstanding | ⟨i, hi, hne, hnone⟩)
    . unfold standing at hstanding
      split at hstanding
      . exact Or.inl hstanding
      . next hlast =>
        cases List.mem_cons.mp hstanding with
        | inl heq =>
          subst heq
          refine Or.inr ⟨place slotStructure info, ?_, ?_⟩
          . rw [if_pos rfl, if_pos hlt]
          . exact fun info' hinfo' heq => hlast ⟨info', hinfo', heq⟩
        | inr hmem => exact Or.inl hmem
    . refine Or.inr ⟨i, ?_, hnone⟩
      rw [if_neg hne]
      exact hi
  . rintro (hstanding | ⟨i, hi, hnone⟩)
    . left
      unfold standing
      split
      . exact hstanding
      . exact List.mem_cons_of_mem _ hstanding
    . split at hi
      . next hplace =>
        cases hi
        left
        unfold standing
        rw [if_neg]
        . exact List.mem_cons_self
        . rintro ⟨info', hinfo', heq⟩
          exact hnone info' hinfo' (heq.trans hplace)
      . next hplace => exact Or.inr ⟨i, hi, hplace, hnone⟩

theorem mem_setAll_iff {slotInfos mentions : List Events.SlotInfo}
    (hlt : ∀ info ∈ mentions, place slotStructure info < slotInfos.length)
    : info ∈ setAll slotInfos (mentions.map (fun info => (place slotStructure info, info)))
        ↔
      Results slotStructure slotInfos mentions info := by
  induction mentions generalizing slotInfos with
  | nil =>
    unfold Results
    simp [standing, setAll, List.mem_iff_getElem?]
  | cons first infos ih =>
    rw [List.forall_mem_cons] at hlt
    rw [List.map_cons, results_cons_iff hlt.1]
    apply ih
    simp only [List.length_set]
    exact hlt.2

theorem slotInfos_foldl_place (mentions : List Events.SlotInfo) (event : Events.TDMAScheduleEvent)
    : (mentions.foldl Events.TDMAScheduleEvent.place event).slotInfos
        =
      if event.hasStructure then
        setAll event.slotInfos (mentions.map (fun info => (place event.slotStructure info, info)))
      else
        event.slotInfos ++ mentions := by
  induction mentions generalizing event with
  | nil => simp [setAll]
  | cons info mentions ih =>
    rw [List.foldl_cons, ih]
    unfold Events.TDMAScheduleEvent.place
    split
    . rfl
    . rw [List.append_assoc, List.singleton_append]

def Accepted (s : EventScheduler) (m : Message) : Prop :=
  (Events.TDMAScheduleEvent.ofMessage (some m)).isOk = true
    ∧ (m.slotStructure = none → s.slotInfos ≠ [] ∧ ∀ p ∈ m.named, InRange s.slotStructure p)

instance Accepted.decidable (s : EventScheduler) (m : Message) : Decidable (s.Accepted m) :=
  inferInstanceAs (Decidable (_ ∧ _))

def structureOf (s : EventScheduler) (m : Message) : Events.SlotStructure :=
  m.slotStructure.getD s.slotStructure

def tableOf (s : EventScheduler) (m : Message) : List Events.SlotInfo :=
  match m.slotStructure with
  | some slotStructure =>
    Events.TDMAScheduleEvent.idleSchedule slotStructure.framesPerMultiFrame slotStructure.slotsPerFrame
  | none => s.slotInfos

structure Accepts (s : EventScheduler) (m : Message) (change : Option Scheduler.ScheduleChange)
    (s' : EventScheduler)
    : Prop where
  slotStructure : s'.slotStructure = s.structureOf m
  mem_slotInfos_iff : ∀ info, info ∈ s'.slotInfos
    ↔ Results (s.structureOf m) (s.tableOf m) m.mentions info
  mem_frequencies_iff : ∀ f,
    f ∈ s'.frequencies ↔ m.slotStructure = none ∧ f ∈ s.frequencies ∨ ∃ info ∈ m.mentions,
      info.frequency = f
  change : change
    =
    some ⟨s'.frequencies, s'.slotStructure.bandwidth, s'.slotStructure.slotDuration,
      s'.slotStructure.slotOverhead⟩

variable {s : EventScheduler}

theorem Accepts.full {m : Message} {event : Events.TDMAScheduleEvent}
    (hstructure : m.slotStructure = some slotStructure)
    (hevent : Events.TDMAScheduleEvent.ofMessage (some m) = .ok event)
    {accepted : Scheduler.ScheduleChange × EventScheduler}
    (haccepted : accepted = ({ s with
      slotInfos := event.slotInfos
      slotStructure := event.slotStructure
      frequencies := ∅ } : EventScheduler).acceptSchedule event)
    : Accepts s m (some accepted.1) accepted.2 := by
  have hplaced := Events.TDMAScheduleEvent.placed_of_ofMessage hevent
  have hfull := Events.TDMAScheduleEvent.full_of_ofMessage hstructure hevent
  have hempty : Events.TDMAScheduleEvent.empty m
      = ⟨slotStructure, true,
        Events.TDMAScheduleEvent.idleSchedule slotStructure.framesPerMultiFrame
            slotStructure.slotsPerFrame, ∅⟩ := by
    unfold Events.TDMAScheduleEvent.empty
    rw [hstructure]
  have hof : s.structureOf m = slotStructure := by
    unfold structureOf
    rw [hstructure, Option.getD_some]
  subst haccepted
  constructor
  . rw [hof, ← hfull.slotStructure_eq]
    rfl
  . intro info
    change info ∈ event.slotInfos ↔ _
    rw [hplaced.eq, slotInfos_foldl_place, hempty, if_pos rfl, hof]
    unfold tableOf
    rw [hstructure]
    apply mem_setAll_iff
    intro info hinfo
    have hlt := placeOf_lt (hplaced.inRange slotStructure hstructure info hinfo)
    rw [Events.TDMAScheduleEvent.length_idleSchedule]
    exact Nat.lt_of_le_of_lt (Nat.mod_le _ _) hlt
  . intro f
    simp only [acceptSchedule, Finset.mem_union, Finset.notMem_empty, false_or,
      hplaced.mem_frequencies_iff, hstructure,
      reduceCtorEq, false_and]
  . rfl

theorem Accepts.update {m : Message} {event : Events.TDMAScheduleEvent}
    (hstructure : m.slotStructure = none)
    (hevent : Events.TDMAScheduleEvent.ofMessage (some m) = .ok event)
    (hassign : ∀ update ∈ updatesOf s.slotStructure event, update.1 < 2^31
      ∧ update.1 < s.slotInfos.length)
    {accepted : Scheduler.ScheduleChange × EventScheduler}
    (haccepted : accepted = ({ s with
      slotInfos := setAll s.slotInfos
        (updatesOf s.slotStructure event) } : EventScheduler).acceptSchedule event)
    : Accepts s m (some accepted.1) accepted.2 := by
  have hplaced := Events.TDMAScheduleEvent.placed_of_ofMessage hevent
  have hempty : Events.TDMAScheduleEvent.empty m = ⟨{}, false, [], ∅⟩ := by
    unfold Events.TDMAScheduleEvent.empty
    rw [hstructure]
  have hof : s.structureOf m = s.slotStructure := by
    unfold structureOf
    rw [hstructure, Option.getD_none]
  have hslotInfos : event.slotInfos = m.mentions := by
    rw [hplaced.eq, slotInfos_foldl_place, hempty, if_neg (by simp), List.nil_append]
  unfold updatesOf at hassign haccepted
  rw [hslotInfos, List.forall_mem_map] at hassign
  subst haccepted
  constructor
  . rw [hof]
    rfl
  . intro info
    change info ∈ setAll s.slotInfos (event.slotInfos.map _) ↔ _
    rw [hslotInfos, hof]
    unfold tableOf
    rw [hstructure]
    exact mem_setAll_iff (fun info hinfo => (hassign info hinfo).2)
  . intro f
    simp only [acceptSchedule, Finset.mem_union, hplaced.mem_frequencies_iff, hstructure, true_and]
  . rfl

theorem accepts_or_not {s' : EventScheduler} {msg : Option Message} {outcome : Outcome}
    {change : Option Scheduler.ScheduleChange} (h : s.processEvent msg = some (outcome, change, s'))
    : (∃ m, msg = some m ∧ s.Accepted m ∧ Accepts s m change s')
        ∨ (∀ m, msg = some m → ¬ s.Accepted m)
        ∧ (s' = s ∧ change = none ∨ Cleared s' ∧ change = some ⟨∅, 0, 0, 0⟩) := by
  have hrejected : outcome ≠ .scheduleAcceptFull → outcome ≠ .scheduleAcceptUpdate
      → ∀ m, msg = some m → ¬ s.Accepted m := by
    rintro hfull hupdate m rfl haccepted
    obtain ⟨event, hevent⟩ := isOk_iff.mp haccepted.1
    unfold processEvent at h
    simp only [hevent] at h
    cases hstructure : m.slotStructure with
    | some slotStructure =>
      rw [if_pos (Events.TDMAScheduleEvent.full_of_ofMessage hstructure hevent).hasStructure] at h
      simp only [Option.some.injEq, Prod.mk.injEq] at h
      exact hfull h.1.symm
    | none =>
      obtain ⟨hnonempty, hrange⟩ := haccepted.2 hstructure
      have hnone : event.hasStructure = false :=
        (Events.TDMAScheduleEvent.lists_of_ofMessage hstructure hevent).isUpdate
      rw [← (Events.TDMAScheduleEvent.lists_of_ofMessage hstructure hevent).position,
        List.forall_mem_map] at hrange
      have hindexes := indexes_eq s.slotStructure event.slotInfos
      rw [if_pos hrange] at hindexes
      rw [if_neg (by simp [hnone]), if_neg (by simpa using hnonempty), hindexes] at h
      simp only [Option.bind_eq_bind, Option.bind_eq_some_iff, Option.pure_def, Option.some.injEq,
        Prod.mk.injEq] at h
      obtain ⟨slotInfos, -, houtcome, -⟩ := h
      exact hupdate houtcome.symm
  cases Effect.of_processEvent h with
  | full m slotStructure event hmsg hstructure hevent accepted haccepted =>
    subst hmsg
    exact Or.inl ⟨m, rfl, ⟨isOk_iff.mpr ⟨event, hevent⟩, by simp [hstructure]⟩,
      .full hstructure hevent haccepted⟩
  | update m event hmsg hstructure hevent hnonempty hrange hassign accepted haccepted =>
    subst hmsg
    refine Or.inl ⟨m, rfl, ⟨isOk_iff.mpr ⟨event, hevent⟩, fun _ => ⟨hnonempty, ?_⟩⟩,
      .update hstructure hevent hassign haccepted⟩
    rw [← (Events.TDMAScheduleEvent.lists_of_ofMessage hstructure hevent).position, List.forall_mem_map]
    exact hrange
  | beforeFull hempty => exact Or.inr ⟨hrejected (by decide) (by decide), Or.inl ⟨rfl, rfl⟩⟩
  | rejected outcome houtcome =>
    refine Or.inr ⟨hrejected ?_ ?_, Or.inr ⟨cleared_flushSchedule s, rfl⟩⟩
    . rintro rfl
      simp at houtcome
    . rintro rfl
      simp at houtcome

end EventScheduler
end Tdma
end Emane
