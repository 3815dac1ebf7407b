import Mathlib.Algebra.Group.Nat.Defs
import Mathlib.Data.Prod.Lex
import Emane.Lib.SortedMap

/-!
This module contains timers that share one timer of the kernel, it is set to the earliest of them.
A thread runs the callbacks of those that have expired.
-/

namespace Emane

instance instLinearOrderUInt64 : LinearOrder UInt64 where
  le_refl _ := UInt64.le_refl _
  le_trans _ _ _ := UInt64.le_trans
  lt_iff_le_not_ge _ _ := UInt64.lt_iff_le_and_ne.trans (by
    rw [and_congr_right_iff]
    intro hle
    exact ⟨fun hne hge => hne (UInt64.le_antisymm hle hge), fun hge heq => hge (heq ▸ UInt64.le_refl _)⟩)
  le_antisymm _ _ := UInt64.le_antisymm
  le_total _ _ := UInt64.le_total _ _
  toDecidableLE := inferInstance

structure TimerInfo where
  timerId : UInt64
  expireTime : Int
  interval : Int
  scheduleTime : Int
  deriving DecidableEq

namespace TimerInfo

def key (info : TimerInfo) : Int ×ₗ UInt64 :=
  toLex (info.expireTime, info.timerId)

end TimerInfo

structure Timer where
  timePointMap : SortedMultiMap TimerInfo.key
  timerIdMap : SortedMap UInt64 Int
  timerId : UInt64
  armed : Option Int

namespace Timer

def init : Timer where
  timePointMap := .empty
  timerIdMap := .empty
  timerId := 0
  armed := none

def settime (t : Timer) (timePoint : Int) : Timer :=
  -- a time of 0 turns the timer off, with a negative one nothing happens
  if timePoint < 0 then
    t
  else if timePoint = 0 then
    { t with armed := none }
  else
    { t with armed := some timePoint }

def cancel_i (t : Timer) : Timer :=
  t.settime 0

def schedule_i (t : Timer) : Timer :=
  match t.timePointMap.first? with
  | some info => t.settime info.expireTime
  | none => t

def erase (t : Timer) (timePoint : Int) (timerId : UInt64) : Timer :=
  { t with
    timePointMap := t.timePointMap.erase (toLex (timePoint, timerId))
    timerIdMap := t.timerIdMap.erase timerId
  }

def insert (t : Timer) (info : TimerInfo) : Timer :=
  { t with
    timePointMap := t.timePointMap.insert info
    timerIdMap := t.timerIdMap.insert info.timerId info.expireTime
  }

def cancel (t : Timer) (timerId : UInt64) : Timer × Bool :=
  match t.timerIdMap.find? timerId with
  | some timePoint =>
    if (t.timePointMap.first?.map TimerInfo.timerId) = some timerId then
      ((t.cancel_i.erase timePoint timerId).schedule_i, true)
    else
      (t.erase timePoint timerId, true)
  | none => (t, false)

def schedule (t : Timer) (timePoint interval now : Int) : Timer × UInt64 :=
  let timerId := t.timerId + 1
  let info := ⟨timerId, timePoint, interval, now⟩
  match t.timePointMap.first? with
  | none => (({ t with timerId := timerId }.insert info).schedule_i, timerId)
  | some first =>
    if timePoint < first.expireTime then
      (({ t.cancel_i with timerId := timerId }.insert info).schedule_i, timerId)
    else
      ({ t with timerId := timerId }.insert info, timerId)

def reschedule (now : Int) (t : Timer) (info : TimerInfo) : Timer :=
  let t := t.erase info.expireTime info.timerId
  if info.interval ≠ 0 then
    t.insert { info with expireTime := info.expireTime + info.interval, scheduleTime := now }
  else
    t

def expire (t : Timer) (now : Int) : Timer × List TimerInfo :=
  let expired := t.timePointMap.toList.takeWhile (fun info => now ≥ info.expireTime)
  ((expired.foldl (reschedule now) { t with armed := none }).schedule_i, expired)

end Timer

inductive TimerEvent where
  | scheduled (timerId : UInt64) (interval : Int)
  | cancelled (timerId : UInt64) (result : Bool)
  | started (timerId : UInt64)
  deriving DecidableEq

structure TimerThread where
  timer : Timer
  expired : List TimerInfo
  events : List TimerEvent

namespace TimerThread

def init : TimerThread where
  timer := .init
  expired := []
  events := []

inductive Action where
  | schedule (timePoint interval now : Int)
  | cancel (timerId : UInt64)
  | expire (now : Int)
  | callback
  deriving DecidableEq

def step (s : TimerThread) : Action → Option TimerThread
  | .schedule timePoint interval now =>
    let (timer, timerId) := s.timer.schedule timePoint interval now
    some { s with timer := timer, events := s.events ++ [.scheduled timerId interval] }
  | .cancel timerId =>
    let (timer, result) := s.timer.cancel timerId
    some { s with timer := timer, events := s.events ++ [.cancelled timerId result] }
  | .expire now =>
    match s.expired with
    | [] =>
      let (timer, expired) := s.timer.expire now
      some { s with timer := timer, expired := expired }
    | _ :: _ => none
  | .callback =>
    match s.expired with
    | [] => none
    | info :: expired => some { s with expired := expired, events := s.events ++ [.started info.timerId] }

end TimerThread
end Emane
