import Clia.Base
import Mathlib.Logic.Function.Basic
import Mathlib.Data.List.Basic

/-!
# Channels, the poller and the event loop

`reactor/channel.cc`, `reactor/epoller.cc` and the channel part of `reactor/event_loop.cc`. A
channel carries the events a file descriptor is interested in; the poller keeps the map from
descriptors to channels and mirrors the interests in the kernel's epoll list.

Channels are named by a type `Ch` of addresses and functors by a type `F`, so that the reactor
does not depend on what it is used for. All functions here run on the loop's own thread.
-/

namespace Clia.Reactor

/-! ### Event masks -/

abbrev Mask := BitVec 32

def EPOLLIN : Mask := 0x001
def EPOLLPRI : Mask := 0x002
def EPOLLOUT : Mask := 0x004
def EPOLLERR : Mask := 0x008
def EPOLLHUP : Mask := 0x010
def EPOLLRDHUP : Mask := 0x2000

def kNoneEvent : Mask := 0
def kReadEvent : Mask := EPOLLIN ||| EPOLLPRI
def kWriteEvent : Mask := EPOLLOUT

/-- `mask & bits` as a condition. -/
def Mask.has (mask bits : Mask) : Bool := mask &&& bits != 0

theorem has_kWriteEvent (mask : Mask) : Mask.has mask kWriteEvent = mask.getLsbD 2 := by
  have bit : kWriteEvent = BitVec.twoPow 32 2 := by decide
  rw [Mask.has, bit, BitVec.and_twoPow]
  cases mask.getLsbD 2 <;> decide

@[simp] theorem has_write_or_write (mask : Mask) :
    Mask.has (mask ||| kWriteEvent) kWriteEvent = true := by
  rw [has_kWriteEvent]
  simp [kWriteEvent, EPOLLOUT]

@[simp] theorem has_write_andNot_write (mask : Mask) :
    Mask.has (mask &&& ~~~kWriteEvent) kWriteEvent = false := by
  rw [has_kWriteEvent]
  simp [kWriteEvent, EPOLLOUT]

theorem eq_none_of_getLsbD {mask : Mask} {i : Nat} (set : mask.getLsbD i = true) :
    mask ≠ kNoneEvent := by
  rintro rfl
  simp [kNoneEvent] at set

/-! ### Channel -/

/-- `index_`: where the poller has the channel. -/
inductive Index where
  | kNew
  | kAdded
  | kDeleted
  deriving DecidableEq, Repr

structure Channel where
  fd : Nat
  events : Mask
  revents : Mask
  index : Index
  eventHandling : Bool
  addedToLoop : Bool
  tied : Bool
  deriving DecidableEq, Repr

namespace Channel

def new (fd : Nat) : Channel := ⟨fd, 0, 0, .kNew, false, false, false⟩

def isNoneEvent (ch : Channel) : Bool := ch.events == kNoneEvent

def isWriting (ch : Channel) : Bool := ch.events.has kWriteEvent

def isReading (ch : Channel) : Bool := ch.events.has kReadEvent

def tie (ch : Channel) : Channel := { ch with tied := true }

/-- The callbacks a channel can have. -/
inductive Callback where
  | close
  | error
  | read
  | write
  deriving DecidableEq, Repr

/-- `handle_event_with_guard`: the callbacks that a set of received events leads to, in the
order they are called. -/
def callbacks (revents : Mask) : List Callback :=
  (if revents.has EPOLLHUP && !revents.has EPOLLIN then [.close] else []) ++
  (if revents.has EPOLLERR then [.error] else []) ++
  (if revents.has (EPOLLIN ||| EPOLLPRI ||| EPOLLRDHUP) then [.read] else []) ++
  (if revents.has EPOLLOUT then [.write] else [])

end Channel

/-! ### Epoller -/

inductive EpollOp where
  | add
  | mod
  | del
  deriving DecidableEq, Repr

/-- `channels` is the map `channels_`; `interest` is the kernel's list for `epfd_`. -/
structure Epoller (Ch : Type) where
  channels : Nat → Option Ch
  interest : Nat → Option Mask

namespace Epoller

variable {Ch : Type}

def new : Epoller Ch := ⟨fun _ => none, fun _ => none⟩

/-- `::epoll_ctl`: adding fails if the descriptor is there, the others fail if it is not. -/
def epollCtl (interest : Nat → Option Mask) (op : EpollOp) (fd : Nat) (events : Mask) :
    Option (Nat → Option Mask) :=
  match op, interest fd with
  | .add, none => some (Function.update interest fd (some events))
  | .mod, some _ => some (Function.update interest fd (some events))
  | .del, some _ => some (Function.update interest fd none)
  | _, _ => none

/-- `update`: a failure is only logged. -/
def update (ep : Epoller Ch) (op : EpollOp) (ch : Channel) : Epoller Ch :=
  { ep with interest := (epollCtl ep.interest op ch.fd ch.events).getD ep.interest }

variable [DecidableEq Ch]

def updateChannel (ep : Epoller Ch) (self : Ch) (ch : Channel) :
    Except Fault (Epoller Ch × Channel) :=
  match ch.index with
  | .kNew => do
    cassert (ep.channels ch.fd = none) .entryAbsent
    let ep := { ep with channels := Function.update ep.channels ch.fd (some self) }
    let ch := { ch with index := .kAdded }
    return (ep.update .add ch, ch)
  | .kDeleted => do
    cassert (ep.channels ch.fd = some self) .entryPresent
    let ch := { ch with index := .kAdded }
    return (ep.update .add ch, ch)
  | .kAdded => do
    cassert (ep.channels ch.fd = some self) .entryPresent
    if ch.isNoneEvent then
      return (ep.update .del ch, { ch with index := .kDeleted })
    else
      return (ep.update .mod ch, ch)

def removeChannel (ep : Epoller Ch) (self : Ch) (ch : Channel) :
    Except Fault (Epoller Ch × Channel) := do
  cassert (ep.channels ch.fd = some self ∧ ch.isNoneEvent = true) .removableEntry
  cassert (ch.index = .kAdded ∨ ch.index = .kDeleted) .removableIndex
  let ep := { ep with channels := Function.update ep.channels ch.fd none }
  let ep := if ch.index = .kAdded then ep.update .del ch else ep
  return (ep, { ch with index := .kNew })

def hasChannel (ep : Epoller Ch) (self : Ch) (ch : Channel) : Bool :=
  ep.channels ch.fd == some self

end Epoller

/-! ### Event loop -/

structure EventLoop (Ch F : Type) where
  eventHanding : Bool
  callingPendingFunctors : Bool
  currentActiveChannel : Option Ch
  activeChannels : List Ch
  poller : Epoller Ch
  pendingFunctors : List F
  /-- the counter of `wakeup_fd_` -/
  wakeups : Nat

namespace EventLoop

variable {Ch F : Type}

def new (poller : Epoller Ch) : EventLoop Ch F := ⟨false, false, none, [], poller, [], 0⟩

/-- `queue_in_loop`, from the loop's own thread or from another one: push under the mutex,
then `wakeup()` unless the loop thread will look at the queue anyway. -/
def queueInLoop (loop : EventLoop Ch F) (inLoopThread : Bool) (cb : F) : EventLoop Ch F :=
  { loop with
    pendingFunctors := loop.pendingFunctors ++ [cb]
    wakeups :=
      if !inLoopThread || loop.callingPendingFunctors then loop.wakeups + 1 else loop.wakeups }

variable [DecidableEq Ch]

def updateChannel (loop : EventLoop Ch F) (self : Ch) (ch : Channel) :
    Except Fault (EventLoop Ch F × Channel) := do
  let (poller, ch) ← loop.poller.updateChannel self ch
  return ({ loop with poller := poller }, ch)

def removeChannel (loop : EventLoop Ch F) (self : Ch) (ch : Channel) :
    Except Fault (EventLoop Ch F × Channel) := do
  cassert (loop.eventHanding = true →
    loop.currentActiveChannel = some self ∨ self ∉ loop.activeChannels) .notActive
  let (poller, ch) ← loop.poller.removeChannel self ch
  return ({ loop with poller := poller }, ch)

end EventLoop

/-! ### Interest changes

The five setters differ in what they do to `events_`; each then calls `update`. -/

namespace Channel

variable {Ch F : Type} [DecidableEq Ch]

def update (loop : EventLoop Ch F) (self : Ch) (ch : Channel) :
    Except Fault (EventLoop Ch F × Channel) :=
  loop.updateChannel self { ch with addedToLoop := true }

def setEvents (change : Mask → Mask) (loop : EventLoop Ch F) (self : Ch) (ch : Channel) :
    Except Fault (EventLoop Ch F × Channel) :=
  update loop self { ch with events := change ch.events }

def enableReading (loop : EventLoop Ch F) : Ch → Channel → Except Fault (EventLoop Ch F × Channel) :=
  setEvents (fun events => events ||| kReadEvent) loop

def disableReading (loop : EventLoop Ch F) : Ch → Channel → Except Fault (EventLoop Ch F × Channel) :=
  setEvents (fun events => events &&& ~~~kReadEvent) loop

def enableWriting (loop : EventLoop Ch F) : Ch → Channel → Except Fault (EventLoop Ch F × Channel) :=
  setEvents (fun events => events ||| kWriteEvent) loop

def disableWriting (loop : EventLoop Ch F) : Ch → Channel → Except Fault (EventLoop Ch F × Channel) :=
  setEvents (fun events => events &&& ~~~kWriteEvent) loop

def disableAll (loop : EventLoop Ch F) : Ch → Channel → Except Fault (EventLoop Ch F × Channel) :=
  setEvents (fun _ => kNoneEvent) loop

def remove (loop : EventLoop Ch F) (self : Ch) (ch : Channel) :
    Except Fault (EventLoop Ch F × Channel) := do
  cassert (ch.isNoneEvent = true) .noneEvent
  loop.removeChannel self { ch with addedToLoop := false }

end Channel

/-! ### Registration -/

/-- The channel's index agrees with the poller's map and with the kernel's list. -/
def Registered {Ch : Type} (ep : Epoller Ch) (self : Ch) (ch : Channel) : Prop :=
  match ch.index with
  | .kNew => ep.channels ch.fd = none ∧ ep.interest ch.fd = none
  | .kAdded => ep.channels ch.fd = some self ∧ ep.interest ch.fd ≠ none
  | .kDeleted => ep.channels ch.fd = some self ∧ ep.interest ch.fd = none

section

variable {Ch F : Type}

private theorem update_add {ep : Epoller Ch} {ch : Channel} (absent : ep.interest ch.fd = none) :
    ep.update .add ch =
      { ep with interest := Function.update ep.interest ch.fd (some ch.events) } := by
  simp only [Epoller.update, Epoller.epollCtl, absent, Option.getD_some]

private theorem update_mod {ep : Epoller Ch} {ch : Channel} (there : ep.interest ch.fd ≠ none) :
    ep.update .mod ch =
      { ep with interest := Function.update ep.interest ch.fd (some ch.events) } := by
  obtain ⟨mask, found⟩ := Option.ne_none_iff_exists.mp there
  simp only [Epoller.update, Epoller.epollCtl, ← found, Option.getD_some]

private theorem update_del {ep : Epoller Ch} {ch : Channel} (there : ep.interest ch.fd ≠ none) :
    ep.update .del ch = { ep with interest := Function.update ep.interest ch.fd none } := by
  obtain ⟨mask, found⟩ := Option.ne_none_iff_exists.mp there
  simp only [Epoller.update, Epoller.epollCtl, ← found, Option.getD_some]

/-- Where an `update` leaves the channel: only a registered channel that has lost its last
interest leaves the kernel's list. -/
def Channel.nextIndex (ch : Channel) : Index :=
  if ch.index = .kAdded ∧ ch.events = kNoneEvent then .kDeleted else .kAdded

/-- The poller after an `update` of the channel. -/
def Epoller.updated (ep : Epoller Ch) (self : Ch) (ch : Channel) : Epoller Ch :=
  { channels := Function.update ep.channels ch.fd (some self)
    interest := Function.update ep.interest ch.fd
      (if ch.nextIndex = .kAdded then some ch.events else none) }

theorem Registered.updated {ep : Epoller Ch} {self : Ch} {ch : Channel} {flag : Bool} :
    Registered (ep.updated self ch) self { ch with index := ch.nextIndex, addedToLoop := flag } := by
  by_cases lost : ch.index = .kAdded ∧ ch.events = kNoneEvent
  · simp [Registered, Channel.nextIndex, Epoller.updated, lost]
  · simp [Registered, Channel.nextIndex, Epoller.updated, lost]

variable [DecidableEq Ch]

private theorem updateChannel_ok (ep : Epoller Ch) (self : Ch) (ch : Channel)
    (registered : Registered ep self ch) :
    ep.updateChannel self ch = .ok (ep.updated self ch, { ch with index := ch.nextIndex }) := by
  cases known : ch.index with
  | kNew =>
    simp only [Registered, known] at registered
    obtain ⟨absent, quiet⟩ := registered
    simp only [Epoller.updateChannel, known, cassert_pos _ absent, Checked.ok_bind,
      Checked.pure_eq_ok, Epoller.updated, Channel.nextIndex]
    rw [update_add]
    · simp
    · exact quiet
  | kDeleted =>
    simp only [Registered, known] at registered
    obtain ⟨present, quiet⟩ := registered
    have same : Function.update ep.channels ch.fd (some self) = ep.channels := by
      rw [← present, Function.update_eq_self]
    simp only [Epoller.updateChannel, known, cassert_pos _ present, Checked.ok_bind,
      Checked.pure_eq_ok, Epoller.updated, Channel.nextIndex, same]
    rw [update_add]
    · simp
    · exact quiet
  | kAdded =>
    simp only [Registered, known] at registered
    obtain ⟨present, polled⟩ := registered
    have same : Function.update ep.channels ch.fd (some self) = ep.channels := by
      rw [← present, Function.update_eq_self]
    simp only [Epoller.updateChannel, known, cassert_pos _ present, Checked.ok_bind,
      Checked.pure_eq_ok, Epoller.updated, Channel.nextIndex, same]
    by_cases none_event : ch.events = kNoneEvent
    · -- The last interest is gone: `EPOLL_CTL_DEL`, and the map keeps its entry.
      rw [if_pos (by simp [Channel.isNoneEvent, none_event]), update_del polled]
      simp [none_event]
    · rw [if_neg (by simpa [Channel.isNoneEvent] using none_event), update_mod polled]
      simp [none_event, ← known]

/-- `update` on a registered channel raises no assertion and touches nothing but the poller's
entries for its descriptor, the index and the flag. -/
theorem Channel.update_ok (loop : EventLoop Ch F) (self : Ch) (ch : Channel)
    (registered : Registered loop.poller self ch) :
    ch.update loop self = .ok ({ loop with poller := loop.poller.updated self ch },
      { ch with index := ch.nextIndex, addedToLoop := true }) := by
  have ok := updateChannel_ok loop.poller self { ch with addedToLoop := true } registered
  simp only [Channel.update, EventLoop.updateChannel, ok, Checked.ok_bind, Checked.pure_eq_ok]
  rfl

/-- The poller after the removal of a channel. -/
def Epoller.removed (ep : Epoller Ch) (fd : Nat) : Epoller Ch :=
  { channels := Function.update ep.channels fd none
    interest := Function.update ep.interest fd none }

omit [DecidableEq Ch] in
theorem Registered.removed {ep : Epoller Ch} {self : Ch} {ch : Channel} {flag : Bool} :
    Registered (ep.removed ch.fd) self { ch with index := .kNew, addedToLoop := flag } := by
  simp [Registered, Epoller.removed]

private theorem removeChannel_ok (ep : Epoller Ch) (self : Ch) (ch : Channel)
    (registered : Registered ep self ch) (known : ch.index ≠ .kNew)
    (quiet : ch.events = kNoneEvent) :
    ep.removeChannel self ch = .ok (ep.removed ch.fd, { ch with index := .kNew }) := by
  -- The assertions of `Epoller::remove_channel` follow from the registration.
  have none_event : ch.isNoneEvent = true := by simp [Channel.isNoneEvent, quiet]
  have removable : ch.index = .kAdded ∨ ch.index = .kDeleted := by
    cases index_eq : ch.index <;> simp_all
  have present : ep.channels ch.fd = some self := by
    rcases removable with added | deleted
    · simp only [Registered, added] at registered
      exact registered.1
    · simp only [Registered, deleted] at registered
      exact registered.1
  have entry : ep.channels ch.fd = some self ∧ ch.isNoneEvent = true := ⟨present, none_event⟩
  simp only [Epoller.removeChannel, cassert_pos _ entry, cassert_pos _ removable,
    Checked.ok_bind, Checked.pure_eq_ok]
  rcases removable with added | deleted
  · simp only [Registered, added] at registered
    -- The map entry goes first, then the kernel's.
    have unmapped : (Epoller.mk (Function.update ep.channels ch.fd none) ep.interest).update
        .del ch = ep.removed ch.fd := update_del registered.2
    rw [if_pos added, unmapped]
  · simp only [Registered, deleted] at registered
    have same : Function.update ep.interest ch.fd none = ep.interest := by
      rw [← registered.2, Function.update_eq_self]
    rw [if_neg (by simp [deleted]), Epoller.removed, same]

/-- `remove` on a registered channel without interest that the loop is not about to handle. -/
theorem Channel.remove_ok (loop : EventLoop Ch F) (self : Ch) (ch : Channel)
    (registered : Registered loop.poller self ch) (known : ch.index ≠ .kNew)
    (quiet : ch.events = kNoneEvent)
    (inactive : loop.eventHanding = true →
      loop.currentActiveChannel = some self ∨ self ∉ loop.activeChannels) :
    ch.remove loop self = .ok ({ loop with poller := loop.poller.removed ch.fd },
      { ch with index := .kNew, addedToLoop := false }) := by
  have none_event : ch.isNoneEvent = true := by simp [Channel.isNoneEvent, quiet]
  have ok := removeChannel_ok loop.poller self { ch with addedToLoop := false } registered known
    quiet
  simp only [Channel.remove, cassert_pos _ none_event, EventLoop.removeChannel,
    cassert_pos _ inactive, ok, Checked.ok_bind, Checked.pure_eq_ok]

/-- A removal that returns met every assertion on its way. -/
theorem Channel.remove_inv {loop : EventLoop Ch F} {self : Ch} {ch : Channel}
    {result : EventLoop Ch F × Channel} (ok : ch.remove loop self = .ok result) :
    ch.index ≠ .kNew ∧ ch.events = kNoneEvent ∧ (loop.eventHanding = true →
      loop.currentActiveChannel = some self ∨ self ∉ loop.activeChannels) := by
  simp only [Channel.remove, EventLoop.removeChannel, Epoller.removeChannel] at ok
  obtain ⟨_, none_event, ok⟩ := Checked.bind_ok_iff.mp ok
  obtain ⟨_, inactive, ok⟩ := Checked.bind_ok_iff.mp ok
  obtain ⟨_, removed, _⟩ := Checked.bind_ok_iff.mp ok
  obtain ⟨_, _, removed⟩ := Checked.bind_ok_iff.mp removed
  obtain ⟨_, known, _⟩ := Checked.bind_ok_iff.mp removed
  refine ⟨?_, by simpa [Channel.isNoneEvent] using none_event, cassert_ok_iff.mp inactive⟩
  intro new
  simp [new] at known

end

end Clia.Reactor
