import Clia.Reactor.Channel
import Clia.Library.LabelledRun

/-!
# Registration with the kernel

Three places know whether a channel is registered: its index, the map of the poller, and the
interest list of the kernel. Here the kernel's list is modelled in full: an entry has the mask and
the pointer that comes back from `epoll_wait`, and calls of `epoll_ctl` that fail are kept.
`Poller.forget` leaves the coarser poller of the event loop.

Any number of channels with distinct descriptors share the poller, and any of their member
functions may be called in any order.
-/

namespace Clia.Reactor

open LabelledRun

/-- `::epoll_event`. -/
structure EpollEvent (Ch : Type) where
  events : Mask
  ptr : Ch
  deriving DecidableEq, Repr

/-- `failed` are the calls of `epoll_ctl` that returned an error; `eventsSize` is the size of the
vector that `epoll_wait` fills. -/
structure Poller (Ch : Type) where
  channels : Nat → Option Ch
  kernel : Nat → Option (EpollEvent Ch)
  failed : List (EpollOp × Nat)
  eventsSize : Nat

namespace Poller

variable {Ch : Type}

def kInitEventListSize : Nat := 16

def new : Poller Ch := ⟨fun _ => none, fun _ => none, [], kInitEventListSize⟩

/-- `::epoll_ctl`: `EPOLL_CTL_ADD` fails if the descriptor is there, the others if it is not. -/
def epollCtl (kernel : Nat → Option (EpollEvent Ch)) (op : EpollOp) (fd : Nat)
    (event : EpollEvent Ch) : Option (Nat → Option (EpollEvent Ch)) :=
  match op, kernel fd with
  | .add, none => some (Function.update kernel fd (some event))
  | .mod, some _ => some (Function.update kernel fd (some event))
  | .del, some _ => some (Function.update kernel fd none)
  | _, _ => none

/-- `update`: a failure is only logged. -/
def update (p : Poller Ch) (op : EpollOp) (self : Ch) (ch : Channel) : Poller Ch :=
  match epollCtl p.kernel op ch.fd ⟨ch.events, self⟩ with
  | some kernel => { p with kernel := kernel }
  | none => { p with failed := p.failed ++ [(op, ch.fd)] }

variable [DecidableEq Ch]

def updateChannel (p : Poller Ch) (self : Ch) (ch : Channel) :
    Except Fault (Poller Ch × Channel) :=
  match ch.index with
  | .kNew => do
    cassert (p.channels ch.fd = none) .entryAbsent
    let p := { p with channels := Function.update p.channels ch.fd (some self) }
    let ch := { ch with index := .kAdded }
    return (p.update .add self ch, ch)
  | .kDeleted => do
    cassert (p.channels ch.fd = some self) .entryPresent
    let ch := { ch with index := .kAdded }
    return (p.update .add self ch, ch)
  | .kAdded => do
    cassert (p.channels ch.fd = some self) .entryPresent
    if ch.isNoneEvent then
      return (p.update .del self ch, { ch with index := .kDeleted })
    else
      return (p.update .mod self ch, ch)

def removeChannel (p : Poller Ch) (self : Ch) (ch : Channel) :
    Except Fault (Poller Ch × Channel) := do
  cassert (p.channels ch.fd = some self ∧ ch.isNoneEvent = true) .removableEntry
  cassert (ch.index = .kAdded ∨ ch.index = .kDeleted) .removableIndex
  let p := { p with channels := Function.update p.channels ch.fd none }
  let p := if ch.index = .kAdded then p.update .del self ch else p
  return (p, { ch with index := .kNew })

/-- `fill_active_channels`: the active channels, each with what was reported for it. -/
def fillActiveChannels (p : Poller Ch) (objects : Ch → Channel) (reported : List (EpollEvent Ch)) :
    Except Fault (List (Ch × Mask)) := do
  cassert (reported.length ≤ p.eventsSize) .eventsFit
  reported.mapM fun event => do
    cassert (p.channels (objects event.ptr).fd = some event.ptr) .activeEntry
    return (event.ptr, event.events)

/-- The poller as the event loop has it. -/
def forget (p : Poller Ch) : Epoller Ch :=
  ⟨p.channels, fun fd => (p.kernel fd).map EpollEvent.events⟩

/-! ### The coarser poller -/

omit [DecidableEq Ch] in
theorem forget_update (p : Poller Ch) (op : EpollOp) (self : Ch) (ch : Channel) :
    (p.update op self ch).forget = p.forget.update op ch := by
  have mapped : ∀ entry : Option (EpollEvent Ch),
      (fun fd => (Function.update p.kernel ch.fd entry fd).map EpollEvent.events) =
        Function.update (fun fd => (p.kernel fd).map EpollEvent.events) ch.fd
          (entry.map EpollEvent.events) := by
    intro entry
    funext fd
    by_cases same : fd = ch.fd
    · subst same
      simp
    · simp [Function.update_of_ne same]
  cases there : p.kernel ch.fd with
  | none =>
    cases op with
    | add => simp [update, epollCtl, Epoller.update, Epoller.epollCtl, forget, there, mapped]
    | mod => simp [update, epollCtl, Epoller.update, Epoller.epollCtl, forget, there]
    | del => simp [update, epollCtl, Epoller.update, Epoller.epollCtl, forget, there]
  | some event =>
    cases op with
    | add => simp [update, epollCtl, Epoller.update, Epoller.epollCtl, forget, there]
    | mod => simp [update, epollCtl, Epoller.update, Epoller.epollCtl, forget, there, mapped]
    | del => simp [update, epollCtl, Epoller.update, Epoller.epollCtl, forget, there, mapped]

/-- **Refinement**: what the fine poller does is what the event loop's poller does. -/
theorem forget_updateChannel (p : Poller Ch) (self : Ch) (ch : Channel) :
    (p.updateChannel self ch).map (fun result => (result.1.forget, result.2)) =
      p.forget.updateChannel self ch := by
  unfold updateChannel Epoller.updateChannel
  cases ch.index with
  | kNew =>
    by_cases absent : p.channels ch.fd = none
    · have absent' : p.forget.channels ch.fd = none := absent
      simp only [cassert_pos _ absent, cassert_pos _ absent', Checked.ok_bind, Checked.pure_eq_ok,
        Except.map, forget_update]
      rfl
    · have absent' : ¬p.forget.channels ch.fd = none := absent
      simp only [cassert_neg _ absent, cassert_neg _ absent', Checked.error_bind, Except.map]
  | kDeleted =>
    by_cases present : p.channels ch.fd = some self
    · have present' : p.forget.channels ch.fd = some self := present
      simp only [cassert_pos _ present, cassert_pos _ present', Checked.ok_bind,
        Checked.pure_eq_ok, Except.map, forget_update]
    · have present' : ¬p.forget.channels ch.fd = some self := present
      simp only [cassert_neg _ present, cassert_neg _ present', Checked.error_bind, Except.map]
  | kAdded =>
    by_cases present : p.channels ch.fd = some self
    · have present' : p.forget.channels ch.fd = some self := present
      simp only [cassert_pos _ present, cassert_pos _ present', Checked.ok_bind,
        Checked.pure_eq_ok]
      split
      · simp only [Except.map, forget_update]
      · simp only [Except.map, forget_update]
    · have present' : ¬p.forget.channels ch.fd = some self := present
      simp only [cassert_neg _ present, cassert_neg _ present', Checked.error_bind, Except.map]

theorem forget_removeChannel (p : Poller Ch) (self : Ch) (ch : Channel) :
    (p.removeChannel self ch).map (fun result => (result.1.forget, result.2)) =
      p.forget.removeChannel self ch := by
  unfold removeChannel Epoller.removeChannel
  have channels : p.forget.channels = p.channels := rfl
  rw [channels]
  by_cases entry : p.channels ch.fd = some self ∧ ch.isNoneEvent = true
  · by_cases index : ch.index = .kAdded ∨ ch.index = .kDeleted
    · simp only [cassert_pos _ entry, cassert_pos _ index, Checked.ok_bind, Checked.pure_eq_ok,
        Except.map]
      split
      · simp only [forget_update]
        rfl
      · rfl
    · simp only [cassert_pos _ entry, cassert_neg _ index, Checked.ok_bind, Checked.error_bind,
        Except.map]
  · simp only [cassert_neg _ entry, Checked.error_bind, Except.map]

/-! ### One channel -/

omit [DecidableEq Ch] in
theorem update_add {p : Poller Ch} {self : Ch} {ch : Channel} (absent : p.kernel ch.fd = none) :
    p.update .add self ch =
      { p with kernel := Function.update p.kernel ch.fd (some ⟨ch.events, self⟩) } := by
  simp only [update, epollCtl, absent]

omit [DecidableEq Ch] in
theorem update_mod {p : Poller Ch} {self : Ch} {ch : Channel} (there : p.kernel ch.fd ≠ none) :
    p.update .mod self ch =
      { p with kernel := Function.update p.kernel ch.fd (some ⟨ch.events, self⟩) } := by
  obtain ⟨event, found⟩ := Option.ne_none_iff_exists.mp there
  simp only [update, epollCtl, ← found]

omit [DecidableEq Ch] in
theorem update_del {p : Poller Ch} {self : Ch} {ch : Channel} (there : p.kernel ch.fd ≠ none) :
    p.update .del self ch = { p with kernel := Function.update p.kernel ch.fd none } := by
  obtain ⟨event, found⟩ := Option.ne_none_iff_exists.mp there
  simp only [update, epollCtl, ← found]

/-- The three records of a channel agree. -/
def Consistent (p : Poller Ch) (self : Ch) (ch : Channel) : Prop :=
  match ch.index with
  | .kNew => p.channels ch.fd = none ∧ p.kernel ch.fd = none
  | .kAdded => p.channels ch.fd = some self ∧ p.kernel ch.fd = some ⟨ch.events, self⟩
  | .kDeleted => p.channels ch.fd = some self ∧ p.kernel ch.fd = none ∧ ch.events = kNoneEvent

/-- `q` differs from `p` only in the entries for a descriptor; no call of `epoll_ctl` failed. -/
structure TouchesFd (p q : Poller Ch) (fd : Nat) : Prop where
  channels : ∀ fd', fd' ≠ fd → q.channels fd' = p.channels fd'
  kernel : ∀ fd', fd' ≠ fd → q.kernel fd' = p.kernel fd'
  failed : q.failed = p.failed

/-- **`update_channel`** on a channel whose events have just been changed: no assertion and no
`epoll_ctl` fails, and the records agree again. -/
theorem updateChannel_spec {p : Poller Ch} {self : Ch} {ch : Channel}
    (consistent : p.Consistent self ch) (events : Mask) (flag : Bool) :
    ∃ q ch', p.updateChannel self { ch with events := events, addedToLoop := flag } = .ok (q, ch') ∧
      q.Consistent self ch' ∧ ch'.fd = ch.fd ∧ p.TouchesFd q ch.fd := by
  unfold Consistent at consistent
  unfold updateChannel
  cases index : ch.index with
  | kNew =>
    simp only [index] at consistent
    obtain ⟨absent, unpolled⟩ := consistent
    simp only [cassert_pos _ absent, Checked.ok_bind, Checked.pure_eq_ok]
    rw [update_add]
    · refine ⟨_, _, rfl, by simp [Consistent], rfl, ?_⟩
      exact ⟨fun _ other => Function.update_of_ne other _ _,
        fun _ other => Function.update_of_ne other _ _, rfl⟩
    · exact unpolled
  | kDeleted =>
    simp only [index] at consistent
    obtain ⟨present, unpolled, -⟩ := consistent
    simp only [cassert_pos _ present, Checked.ok_bind, Checked.pure_eq_ok]
    rw [update_add]
    · refine ⟨_, _, rfl, by simp [Consistent, present], rfl, ?_⟩
      exact ⟨fun _ _ => rfl, fun _ other => Function.update_of_ne other _ _, rfl⟩
    · exact unpolled
  | kAdded =>
    simp only [index] at consistent
    obtain ⟨present, polled⟩ := consistent
    have there : p.kernel ch.fd ≠ none := by simp [polled]
    simp only [cassert_pos _ present, Checked.ok_bind, Checked.pure_eq_ok]
    by_cases none_event : events = kNoneEvent
    · -- The last interest is gone: the kernel forgets the descriptor, the map does not.
      rw [if_pos (by simp [Channel.isNoneEvent, none_event]), update_del]
      · refine ⟨_, _, rfl, by simp [Consistent, present, none_event], rfl, ?_⟩
        exact ⟨fun _ _ => rfl, fun _ other => Function.update_of_ne other _ _, rfl⟩
      · exact there
    · rw [if_neg (by simpa [Channel.isNoneEvent] using none_event), update_mod]
      · refine ⟨_, _, rfl, by simp [Consistent, present], rfl, ?_⟩
        exact ⟨fun _ _ => rfl, fun _ other => Function.update_of_ne other _ _, rfl⟩
      · exact there

/-- **`remove_channel`** on a registered channel without interest. -/
theorem removeChannel_spec {p : Poller Ch} {self : Ch} {ch : Channel}
    (consistent : p.Consistent self ch) (known : ch.index ≠ .kNew)
    (quiet : ch.events = kNoneEvent) :
    ∃ q ch', p.removeChannel self ch = .ok (q, ch') ∧
      q.Consistent self ch' ∧ ch'.fd = ch.fd ∧ p.TouchesFd q ch.fd := by
  have none_event : ch.isNoneEvent = true := by
    simp [Channel.isNoneEvent, quiet]
  unfold Consistent at consistent
  unfold removeChannel
  cases index : ch.index with
  | kNew => exact absurd index known
  | kAdded =>
    simp only [index] at consistent
    obtain ⟨present, polled⟩ := consistent
    have there : p.kernel ch.fd ≠ none := by simp [polled]
    rw [cassert_pos _ (And.intro present none_event), cassert_pos _ (Or.inl rfl)]
    simp only [Checked.ok_bind, Checked.pure_eq_ok, if_true]
    rw [update_del]
    · refine ⟨_, _, rfl, by simp [Consistent], rfl, ?_⟩
      exact ⟨fun _ other => Function.update_of_ne other _ _,
        fun _ other => Function.update_of_ne other _ _, rfl⟩
    · exact there
  | kDeleted =>
    simp only [index] at consistent
    obtain ⟨present, unpolled, -⟩ := consistent
    rw [cassert_pos _ (And.intro present none_event), cassert_pos _ (Or.inr rfl)]
    -- The kernel does not hold the descriptor: only the map is changed.
    refine ⟨_, _, rfl, by simp [Consistent, unpolled], rfl, ?_⟩
    exact ⟨fun _ other => Function.update_of_ne other _ _, fun _ _ => rfl, rfl⟩

omit [DecidableEq Ch] in
/-- **Frame rule**: the records of a channel with another descriptor are not touched. -/
theorem TouchesFd.consistent {p q : Poller Ch} {fd : Nat} {self : Ch} {ch : Channel}
    (touches : p.TouchesFd q fd) (apart : ch.fd ≠ fd) (consistent : p.Consistent self ch) :
    q.Consistent self ch := by
  unfold Consistent at *
  rw [touches.channels _ apart, touches.kernel _ apart]
  exact consistent

end Poller

/-! ### The channels of one loop -/

/-- The poller of a loop and the channels that it owns, by their addresses. -/
structure Registry (Ch : Type) where
  poller : Poller Ch
  objects : Ch → Channel

/-- The member functions of `Channel` that change its interest. -/
inductive Setter where
  | enableReading
  | disableReading
  | enableWriting
  | disableWriting
  | disableAll
  deriving DecidableEq, Repr

/-- What the member function does to `events_`. -/
def Setter.change : Setter → Mask → Mask
  | .enableReading, events => events ||| kReadEvent
  | .disableReading, events => events &&& ~~~kReadEvent
  | .enableWriting, events => events ||| kWriteEvent
  | .disableWriting, events => events &&& ~~~kWriteEvent
  | .disableAll, _ => kNoneEvent

namespace Registry

/-- `poll` carries what `epoll_wait` has written to `events_`. -/
inductive Label (Ch : Type) where
  | set (self : Ch) (setter : Setter)
  | remove (self : Ch)
  | poll (reported : List (EpollEvent Ch))

variable {Ch : Type}

/-- Before the first call: the channels are constructed, each for its descriptor. -/
def start (fd : Ch → Nat) : Registry Ch := ⟨Poller.new, fun self => Channel.new (fd self)⟩

variable [DecidableEq Ch]

/-- A setter of `Channel`, then `Channel::update`. -/
def set (s : Registry Ch) (self : Ch) (setter : Setter) : Except Fault (Registry Ch) := do
  let ch := s.objects self
  let (poller, ch) ← s.poller.updateChannel self
    { ch with events := setter.change ch.events, addedToLoop := true }
  return ⟨poller, Function.update s.objects self ch⟩

/-- `Channel::remove`. -/
def remove (s : Registry Ch) (self : Ch) : Except Fault (Registry Ch) := do
  let ch := s.objects self
  cassert (ch.isNoneEvent = true) .noneEvent
  let (poller, ch) ← s.poller.removeChannel self { ch with addedToLoop := false }
  return ⟨poller, Function.update s.objects self ch⟩

/-- `set_revents` on each active channel, in the order of the list. -/
def setRevents (objects : Ch → Channel) (active : List (Ch × Mask)) : Ch → Channel :=
  active.foldl (fun objects entry =>
    Function.update objects entry.1 { objects entry.1 with revents := entry.2 }) objects

/-- `Epoller::poll` after `epoll_wait` has returned: a full vector is doubled. -/
def poll (s : Registry Ch) (reported : List (EpollEvent Ch)) : Except Fault (Registry Ch) := do
  if reported.length = 0 then
    return s
  else
    let active ← s.poller.fillActiveChannels s.objects reported
    let size := s.poller.eventsSize
    return ⟨{ s.poller with eventsSize := if reported.length = size then size * 2 else size },
      setRevents s.objects active⟩

def step (s : Registry Ch) : Label Ch → Except Fault (Registry Ch)
  | .set self setter => s.set self setter
  | .remove self => s.remove self
  | .poll reported => s.poll reported

/-- What the callers and the kernel promise: a channel is removed when it is registered and has
no interest; `epoll_wait` reports at most as many events as it is given room for, each for a
descriptor of its list and with the pointer stored there. -/
def Legal (s : Registry Ch) : Label Ch → Prop
  | .set _ _ => True
  | .remove self => (s.objects self).index ≠ .kNew ∧ (s.objects self).events = kNoneEvent
  | .poll reported => reported.length ≤ s.poller.eventsSize ∧
      ∀ event ∈ reported, ∃ fd entry, s.poller.kernel fd = some entry ∧ entry.ptr = event.ptr

/-! ### The invariant -/

/-- All records of all channels agree, the kernel holds only descriptors of channels, and no
`epoll_ctl` has failed. -/
structure Inv (fd : Ch → Nat) (s : Registry Ch) : Prop where
  fds : ∀ c, (s.objects c).fd = fd c
  consistent : ∀ c, s.poller.Consistent c (s.objects c)
  known : ∀ n, s.poller.kernel n ≠ none → ∃ c, fd c = n
  failed : s.poller.failed = []

variable {fd : Ch → Nat} {s : Registry Ch}

omit [DecidableEq Ch] in
theorem Inv.start (fd : Ch → Nat) : Inv fd (start fd) := by
  constructor
  · intro c
    rfl
  · intro c
    exact ⟨rfl, rfl⟩
  · intro n held
    exact absurd rfl held
  · rfl

/-- A call that puts the records of its own channel in order keeps the invariant. -/
theorem Inv.touched (inv : Inv fd s) (distinct : Function.Injective fd) {q : Poller Ch} {self : Ch}
    {ch : Channel} (consistent : q.Consistent self ch) (same : ch.fd = fd self)
    (touches : s.poller.TouchesFd q (fd self)) :
    Inv fd ⟨q, Function.update s.objects self ch⟩ := by
  constructor
  · intro c
    by_cases own : c = self
    · subst own
      simpa using same
    · simpa [Function.update_of_ne own] using inv.fds c
  · intro c
    by_cases own : c = self
    · subst own
      simpa using consistent
    · -- Another channel has another descriptor.
      have apart : (s.objects c).fd ≠ fd self := by
        rw [inv.fds c]
        exact fun equal => own (distinct equal)
      simpa [Function.update_of_ne own] using touches.consistent apart (inv.consistent c)
  · intro n held
    by_cases own : n = fd self
    · exact ⟨self, own.symm⟩
    · apply inv.known n
      rw [← touches.kernel n own]
      exact held
  · rw [touches.failed]
    exact inv.failed

theorem set_ok (inv : Inv fd s) (distinct : Function.Injective fd) (self : Ch) (setter : Setter) :
    ∃ t, s.set self setter = .ok t ∧ Inv fd t := by
  obtain ⟨q, ch, ok, consistent, same, touches⟩ := Poller.updateChannel_spec
    (inv.consistent self) (setter.change (s.objects self).events) true
  rw [inv.fds self] at same touches
  refine ⟨_, ?_, inv.touched distinct consistent same touches⟩
  simp only [set, ok, Checked.ok_bind, Checked.pure_eq_ok]

theorem remove_ok (inv : Inv fd s) (distinct : Function.Injective fd) {self : Ch}
    (known : (s.objects self).index ≠ .kNew) (quiet : (s.objects self).events = kNoneEvent) :
    ∃ t, s.remove self = .ok t ∧ Inv fd t := by
  have consistent : s.poller.Consistent self { s.objects self with addedToLoop := false } :=
    inv.consistent self
  obtain ⟨q, ch, ok, consistent, same, touches⟩ := Poller.removeChannel_spec consistent known quiet
  have none_event : (s.objects self).isNoneEvent = true := by simp [Channel.isNoneEvent, quiet]
  simp only [inv.fds self] at same touches
  refine ⟨_, ?_, inv.touched distinct consistent same touches⟩
  simp only [remove, cassert_pos _ none_event, ok, Checked.ok_bind, Checked.pure_eq_ok]

omit [DecidableEq Ch] in
/-- A descriptor of the kernel's list leads back to the channel that is in the map. -/
theorem Inv.reported (inv : Inv fd s) {n : Nat} {entry : EpollEvent Ch}
    (held : s.poller.kernel n = some entry) :
    s.poller.channels (s.objects entry.ptr).fd = some entry.ptr := by
  obtain ⟨c, rfl⟩ := inv.known n (by simp [held])
  have consistent := inv.consistent c
  rw [← inv.fds c] at held
  unfold Poller.Consistent at consistent
  cases index : (s.objects c).index with
  | kNew => simp [index, held] at consistent
  | kDeleted => simp [index, held] at consistent
  | kAdded =>
    simp only [index, held, Option.some.injEq] at consistent
    obtain ⟨present, rfl⟩ := consistent
    exact present

theorem fillActiveChannels_ok (inv : Inv fd s) {reported : List (EpollEvent Ch)}
    (fits : reported.length ≤ s.poller.eventsSize)
    (held : ∀ event ∈ reported, ∃ n entry, s.poller.kernel n = some entry ∧ entry.ptr = event.ptr) :
    s.poller.fillActiveChannels s.objects reported =
      .ok (reported.map fun event => (event.ptr, event.events)) := by
  have entries : ∀ event ∈ reported,
      s.poller.channels (s.objects event.ptr).fd = some event.ptr := by
    intro event member
    obtain ⟨n, entry, found, pointer⟩ := held event member
    rw [← pointer]
    exact inv.reported found
  simp only [Poller.fillActiveChannels, cassert_pos _ fits, Checked.ok_bind]
  clear fits held
  induction reported with
  | nil => rfl
  | cons event rest ih =>
    have here := entries event (by simp)
    rw [List.mapM_cons, ih (fun later member => entries later (by simp [member]))]
    simp only [cassert_pos _ here, Checked.ok_bind, Checked.pure_eq_ok, List.map_cons]

/-- Only `revents_` of the active channels changes. -/
theorem setRevents_eq (active : List (Ch × Mask)) (objects : Ch → Channel) (c : Ch) :
    ∃ revents, setRevents objects active c = { objects c with revents := revents } := by
  induction active generalizing objects with
  | nil => exact ⟨(objects c).revents, rfl⟩
  | cons entry rest ih =>
    obtain ⟨revents, later⟩ := ih
      (Function.update objects entry.1 { objects entry.1 with revents := entry.2 })
    refine ⟨revents, later.trans ?_⟩
    by_cases own : c = entry.1
    · subst own
      simp
    · simp [Function.update_of_ne own]

theorem poll_ok (inv : Inv fd s) {reported : List (EpollEvent Ch)}
    (fits : reported.length ≤ s.poller.eventsSize)
    (held : ∀ event ∈ reported, ∃ n entry, s.poller.kernel n = some entry ∧ entry.ptr = event.ptr) :
    ∃ t, s.poll reported = .ok t ∧ Inv fd t := by
  unfold poll
  by_cases nothing : reported.length = 0
  · rw [if_pos nothing]
    exact ⟨s, rfl, inv⟩
  · rw [if_neg nothing, fillActiveChannels_ok inv fits held]
    refine ⟨_, rfl, ?_⟩
    constructor
    · intro c
      obtain ⟨revents, same⟩ := setRevents_eq (reported.map fun event => (event.ptr, event.events))
        s.objects c
      simpa [same] using inv.fds c
    · intro c
      obtain ⟨revents, same⟩ := setRevents_eq (reported.map fun event => (event.ptr, event.events))
        s.objects c
      simp only [same]
      exact inv.consistent c
    · exact inv.known
    · exact inv.failed

theorem step_ok (inv : Inv fd s) (distinct : Function.Injective fd) {l : Label Ch}
    (legal : s.Legal l) : ∃ t, step s l = .ok t ∧ Inv fd t := by
  cases l with
  | set self setter => exact set_ok inv distinct self setter
  | remove self => exact remove_ok inv distinct legal.1 legal.2
  | poll reported => exact poll_ok inv legal.1 legal.2

omit [DecidableEq Ch] in
/-- Each value of the index says exactly what the two other records say. -/
theorem Inv.index_iff (inv : Inv fd s) (c : Ch) :
    ((s.objects c).index = .kNew ↔
      s.poller.channels (fd c) = none ∧ s.poller.kernel (fd c) = none) ∧
    ((s.objects c).index = .kAdded ↔
      s.poller.channels (fd c) = some c ∧
        s.poller.kernel (fd c) = some ⟨(s.objects c).events, c⟩) ∧
    ((s.objects c).index = .kDeleted ↔
      s.poller.channels (fd c) = some c ∧ s.poller.kernel (fd c) = none ∧
        (s.objects c).events = kNoneEvent) := by
  have consistent := inv.consistent c
  unfold Poller.Consistent at consistent
  rw [inv.fds c] at consistent
  cases index : (s.objects c).index with
  | kNew =>
    simp only [index] at consistent
    simp [consistent]
  | kAdded =>
    simp only [index] at consistent
    simp [consistent]
  | kDeleted =>
    simp only [index] at consistent
    simp [consistent]

/-- **Registration**: for any channels with distinct descriptors and any sequence of calls of
their setters, removals of registered channels without interest, and polls, no assertion and no
`epoll_ctl` fails, and the index of every channel says where the map and the kernel have it. -/
theorem registration_agrees (fd : Ch → Nat) (distinct : Function.Injective fd)
    (ls : List (Label Ch)) (legal : Along step Legal (Registry.start fd) ls) :
    ∃ s, run step (Registry.start fd) ls = .ok s ∧ s.poller.failed = [] ∧ ∀ c,
      ((s.objects c).index = .kNew ↔
        s.poller.channels (fd c) = none ∧ s.poller.kernel (fd c) = none) ∧
      ((s.objects c).index = .kAdded ↔
        s.poller.channels (fd c) = some c ∧
          s.poller.kernel (fd c) = some ⟨(s.objects c).events, c⟩) ∧
      ((s.objects c).index = .kDeleted ↔
        s.poller.channels (fd c) = some c ∧ s.poller.kernel (fd c) = none ∧
          (s.objects c).events = kNoneEvent) := by
  obtain ⟨s, ran, inv⟩ := run_total_along (fun s l inv legal => step_ok inv distinct legal)
    (Inv.start fd) legal
  refine ⟨s, ran, inv.failed, ?_⟩
  intro c
  exact inv.index_iff c

/-- Two channels: one is registered, reported, loses its interest and is removed while the other
stays. -/
def exampleCalls : List (Label Bool) :=
  [.set false .enableReading, .set true .enableWriting, .poll [⟨EPOLLIN, false⟩],
    .set false .disableAll, .remove false]

theorem exampleCalls_registered :
    ∃ s : Registry Bool, run step (Registry.start Bool.toNat) exampleCalls = .ok s ∧
      s.poller.failed = [] ∧ ((s.objects false).index = .kNew ↔
        s.poller.channels 0 = none ∧ s.poller.kernel 0 = none) := by
  have distinct : Function.Injective Bool.toNat := by
    intro a b
    revert a b
    decide
  have legal : Along step Legal (Registry.start Bool.toNat) exampleCalls := by
    refine ⟨trivial, ?_⟩
    rintro _ ⟨⟩
    refine ⟨trivial, ?_⟩
    rintro _ ⟨⟩
    refine ⟨⟨by decide, ?_⟩, ?_⟩
    · intro event member
      obtain rfl := List.mem_singleton.mp member
      exact ⟨0, ⟨kReadEvent, false⟩, by decide, rfl⟩
    rintro _ ⟨⟩
    refine ⟨trivial, ?_⟩
    rintro _ ⟨⟩
    refine ⟨⟨by decide, by decide⟩, ?_⟩
    intro _ _
    trivial
  obtain ⟨s, ran, failed, agrees⟩ := registration_agrees Bool.toNat distinct exampleCalls legal
  exact ⟨s, ran, failed, (agrees false).1⟩

end Registry

end Clia.Reactor
