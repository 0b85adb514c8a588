import Clia.Net.ServerInvariant

/-!
# The parts of a step

A step of the server on one connection is a sequence of few things: a functor leaves its queue,
events are recorded, a function of the connection runs, the entry in `connections_` goes, a
functor is queued. Each part moves the object and nothing else (`Moves`), and does one thing to
the connection's functors and history.
-/

namespace Clia.Net

open Reactor LabelledRun

/-! ### Moves of one object -/

/-- `t` comes from `s` by work on the connection `id`, whose object was `o` and is `o'`. -/
structure Moves (s t : Server) (id : Nat) (o o' : Object) : Prop
    extends Touches s t id o.conn.fd where
  here : t.objects id = some o'
  home : o'.home = o.home
  ident : o'.conn.id = o.conn.id
  fd : o'.conn.fd = o.conn.fd
  channelFd : o'.conn.channel.fd = o.conn.channel.fd
  objectConnectionCallback : o'.conn.hasConnectionCallback = o.conn.hasConnectionCallback
  objectCloseCallback : o'.conn.hasCloseCallback = o.conn.hasCloseCallback
  registered : (t.session o').IsRegistered
  elsewhere : ∀ i, i ≠ o.home →
    (t.workers i).loop.poller.channels o.conn.fd = (s.workers i).loop.poller.channels o.conn.fd ∧
    (t.workers i).loop.poller.interest o.conn.fd = (s.workers i).loop.poller.interest o.conn.fd
  next : t.next = s.next
  nextId : t.nextId = s.nextId
  allOpened : t.opened = s.opened

namespace Moves

variable {s t u : Server} {id : Nat} {o o' o'' : Object} {stage' : Stage}
  {torn' : Bool}

theorem refl (found : s.objects id = some o) (registered : (s.session o).IsRegistered) :
    Moves s s id o o where
  toTouches := Touches.refl s id o.conn.fd
  here := found
  home := rfl
  ident := rfl
  fd := rfl
  channelFd := rfl
  objectConnectionCallback := rfl
  objectCloseCallback := rfl
  registered := registered
  elsewhere _ _ := ⟨rfl, rfl⟩
  next := rfl
  nextId := rfl
  allOpened := rfl

theorem trans (first : Moves s t id o o') (second : Moves t u id o' o'') :
    Moves s u id o o'' where
  toTouches := first.toTouches.trans (first.fd ▸ second.toTouches)
  here := second.here
  home := second.home.trans first.home
  ident := second.ident.trans first.ident
  fd := second.fd.trans first.fd
  channelFd := second.channelFd.trans first.channelFd
  objectConnectionCallback := second.objectConnectionCallback.trans first.objectConnectionCallback
  objectCloseCallback := second.objectCloseCallback.trans first.objectCloseCallback
  registered := second.registered
  elsewhere i away := by
    obtain ⟨channels, interest⟩ := first.elsewhere i away
    obtain ⟨channels', interest'⟩ := second.elsewhere i (first.home ▸ away)
    rw [first.fd] at channels' interest'
    exact ⟨channels'.trans channels, interest'.trans interest⟩
  next := second.next.trans first.next
  nextId := second.nextId.trans first.nextId
  allOpened := second.allOpened.trans first.allOpened

theorem held (moves : Moves s t id o o') (held : Held s id o) : Held t id o' where
  ident := moves.ident.trans held.ident
  channelFd := by rw [moves.channelFd, moves.fd, held.channelFd]
  connectionCallback := moves.objectConnectionCallback.trans held.connectionCallback
  closeCallback := moves.objectCloseCallback.trans held.closeCallback
  home := by
    rw [moves.home, moves.threads]
    exact held.home
  registered := moves.registered
  elsewhere i away := by
    rw [moves.home] at away
    obtain ⟨channels, interest⟩ := moves.elsewhere i away
    rw [moves.fd, channels, interest]
    exact held.elsewhere i away

/-- The moved object at its new stage. What is asked for is what the stage says anew. -/
theorem placed (moves : Moves s t id o o') (held : Held s id o)
    (shape : stage'.Shape o'.conn) (remote : stage' = .waiting ∨ stage' = .closed → o.home ≠ 0)
    (unerased : torn' = true → stage' ≠ .erased)
    (entry : t.connections o.conn.fd =
      if stage'.mapped = true ∧ torn' = false then some id else none)
    (business : ∀ i, (torn' = true → i = 0 → o.home = 0) →
      t.business i id = stage'.functors torn' o.home id i)
    (leftover : torn' = true → o.home ≠ 0 →
      ∀ cb ∈ t.business 0 id, cb = .removeConnectionInLoop id)
    (dying : torn' = true → s.alive = false)
    (log : phaseOf (t.log id) = some (stage'.phase torn')) : Placed t id o' stage' torn' where
  toHeld := moves.held held
  shape := shape
  remote := moves.home ▸ remote
  unerased := unerased
  entry := moves.fd ▸ entry
  business := moves.home ▸ business
  leftover := moves.home ▸ leftover
  dying torn := moves.alive.trans (dying torn)
  log := log

theorem inv (moves : Moves s t id o o') (inv : Inv s) (found : s.objects id = some o)
    (placed : Placed t id o' stage' torn')
    (started : ∀ i, s.Dispatched i id → o'.conn.state ≠ .kConnecting) : Inv t := by
  have early : id < s.nextId := by
    by_contra late
    have absent := (inv.unborn id (Nat.not_lt.mp late)).1
    rw [found] at absent
    cases absent
  have mine : ∀ id' o₁, s.objects id' = some o₁ → (id' = id ↔ o₁.conn.fd = o.conn.fd) := by
    intro id' o₁ found'
    constructor
    · rintro rfl
      rw [found] at found'
      cases found'
      rfl
    · exact inv.unique id' id o₁ o found' found
  -- The rest is bookkeeping: no descriptor and no address is added.
  refine moves.toTouches.inv inv mine moves.here moves.fd ?_ placed ?_ ?_ ?_ ?_ started
  · rw [moves.allOpened]
    exact inv.opened id o found
  · rw [moves.threads, moves.next]
    exact inv.pool
  · rw [moves.nextId]
    exact early
  · exact Nat.le_of_eq moves.nextId.symm
  · intro id' _ before
    rw [← moves.nextId]
    exact before

end Moves

/-! ### Functors of other connections -/

theorem Functor.concerns_iff {id : Nat} {cb : Functor} (own : cb.concerns id = true) :
    cb.id = id := by
  cases cb <;> simp_all [Functor.concerns, Functor.id]

theorem Functor.not_concerns {id id' : Nat} {cb : Functor} (own : cb.id = id) (other : id' ≠ id) :
    cb.concerns id' = false := by
  by_contra concerns
  rw [Bool.not_eq_false] at concerns
  exact other ((Functor.concerns_iff concerns).symm.trans own)

namespace Server

variable {s : Server} {id id' i j : Nat} {o : Object}

/-! ### Records -/

@[simp] theorem log_push (flag : Bool) (cb : Functor) : (s.push i flag cb).log id = s.log id := rfl

@[simp] theorem log_record_self (events : List Event) :
    (s.record id events).log id = s.log id ++ events := by
  have own : (events.map fun e => (id, e)).filter (fun e => e.1 == id) =
      events.map fun e => (id, e) := List.filter_eq_self.mpr (by simp)
  simp only [log, record, List.filter_append, List.map_append, own, List.map_map]
  congr 1
  exact List.map_id events

theorem log_record_other (events : List Event) (other : id' ≠ id) :
    (s.record id events).log id' = s.log id' := by
  have alien : (events.map fun e => (id, e)).filter (fun e => e.1 == id') = [] :=
    List.filter_eq_nil_iff.mpr (by simpa using fun _ _ => Ne.symm other)
  simp only [log, record, List.filter_append, alien, List.append_nil]

theorem record_moves (found : s.objects id = some o) (registered : (s.session o).IsRegistered)
    (events : List Event) : Moves s (s.record id events) id o o :=
  { Moves.refl found registered with
    log := fun _ other => log_record_other events other }

/-! ### Workers -/

@[simp] theorem setWorker_self (w : Worker) : (s.setWorker i w).workers i = w := by
  simp [setWorker]

theorem setWorker_other (w : Worker) (other : j ≠ i) : (s.setWorker i w).workers j = s.workers j := by
  simp [setWorker, other]

/-- What a worker says of itself is the same at every place if it is at the replaced one. -/
theorem setWorker_apply {α : Type} (view : Worker → α) {w : Worker}
    (same : view w = view (s.workers i)) (j : Nat) :
    view ((s.setWorker i w).workers j) = view (s.workers j) := by
  by_cases here : j = i
  · subst here
    rw [setWorker_self, same]
  · rw [setWorker_other w here]

/-- A loop whose thread only works on its queue for the connection. -/
theorem setWorker_moves (found : s.objects id = some o) (registered : (s.session o).IsRegistered)
    {w : Worker} {functors : List Functor} {wakeups : Nat}
    (loop : w.loop =
      { (s.workers i).loop with pendingFunctors := functors, wakeups := wakeups })
    (dispatch : w.dispatch = (s.workers i).dispatch)
    (batch : (s.workers i).batch = [] → w.batch = [])
    (queued : ∀ id', id' ≠ id →
      w.queued.filter (Functor.concerns id') = (s.workers i).queued.filter (Functor.concerns id')) :
    Moves s (s.setWorker i w) id o o := by
  -- Poller, phases and dispatch are views of the workers that do not change.
  have poller := setWorker_apply (s := s) (i := i) (w := w) (fun w => w.loop.poller)
    (by simp only [loop])
  have others : ∀ j id', id' ≠ id → (s.setWorker i w).business j id' = s.business j id' := by
    intro j id' other
    exact setWorker_apply (fun w => w.queued.filter (Functor.concerns id')) (queued id' other) j
  exact { Moves.refl found registered with
    channels := fun j _ _ => by rw [poller j]
    interest := fun j _ _ => by rw [poller j]
    business := others
    log := fun _ _ => rfl
    calling := setWorker_apply (fun w => w.loop.callingPendingFunctors)
      (by simp only [loop])
    eventHanding := setWorker_apply (fun w => w.loop.eventHanding)
      (by simp only [loop])
    current := setWorker_apply (fun w => w.loop.currentActiveChannel)
      (by simp only [loop])
    dispatch := setWorker_apply Worker.dispatch dispatch
    batch := fun j empty => by
      by_cases here : j = i
      · subst here
        rw [setWorker_self]
        exact batch empty
      · rw [setWorker_other w here]
        exact empty
    registered := by
      simp only [Session.IsRegistered, session, poller o.home]
      exact registered
    elsewhere := fun j _ => ⟨by rw [poller j], by rw [poller j]⟩ }

/-! ### Queues -/

theorem push_queued (flag : Bool) (cb : Functor) :
    ((s.push i flag cb).workers i).queued = (s.workers i).queued ++ [cb] := by
  unfold push
  rw [setWorker_self]
  simp [Worker.queued, EventLoop.queueInLoop]

theorem business_push (flag : Bool) (cb : Functor) : (s.push i flag cb).business j id =
    s.business j id ++ if j = i ∧ cb.concerns id = true then [cb] else [] := by
  unfold business
  by_cases here : j = i
  · subst here
    rw [push_queued, List.filter_append]
    by_cases own : cb.concerns id = true
    · simp [own]
    · simp [own]
  · have apart : ((s.push i flag cb).workers j) = s.workers j := setWorker_other _ here
    simp [apart, here]

theorem push_moves (found : s.objects id = some o) (registered : (s.session o).IsRegistered)
    (i : Nat) (flag : Bool) (cb : Functor) (own : cb.id = id) :
    Moves s (s.push i flag cb) id o o := by
  refine setWorker_moves found registered rfl rfl (fun empty => empty) ?_
  intro id' other
  simp [Worker.queued, EventLoop.queueInLoop, Functor.not_concerns own other]

/-- `s` after the first functor of the batch of loop `i` was taken. -/
def popped (s : Server) (i : Nat) (cb : Functor) (batch : List Functor) : Server :=
  s.setWorker i { s.workers i with batch := batch, ran := (s.workers i).ran ++ [cb] }

theorem popped_moves (found : s.objects id = some o) (registered : (s.session o).IsRegistered)
    {cb : Functor} {batch : List Functor} (queue : (s.workers i).batch = cb :: batch)
    (own : cb.id = id) : Moves s (s.popped i cb batch) id o o := by
  refine setWorker_moves found registered rfl rfl ?_ ?_
  · intro empty
    rw [queue] at empty
    cases empty
  · intro id' other
    simp [Worker.queued, queue, Functor.not_concerns own other]

/-- A functor that moves its connection on was the first one of it in the queue. -/
theorem business_popped {cb : Functor} {batch : List Functor}
    (queue : (s.workers i).batch = cb :: batch) (j id : Nat) : s.business j id =
      (if j = i ∧ cb.concerns id = true then [cb] else []) ++ (s.popped i cb batch).business j id := by
  unfold business popped
  by_cases here : j = i
  · subst here
    rw [setWorker_self]
    by_cases own : cb.concerns id = true
    · simp [Worker.queued, queue, own]
    · simp [Worker.queued, queue, own]
  · simp [setWorker_other _ here, here]

/-! ### The map -/

/-- `s` without the entry for a descriptor. -/
def unmapped (s : Server) (fd : Nat) : Server :=
  { s with connections := Function.update s.connections fd none }

theorem unmapped_moves (found : s.objects id = some o) (registered : (s.session o).IsRegistered) :
    Moves s (s.unmapped o.conn.fd) id o o :=
  { Moves.refl found registered with
    connections := fun _ other => Function.update_of_ne other _ _ }

/-! ### Functions of the connection -/

@[simp] theorem log_commit_self (y : Session) :
    (s.commit id o y).log id = s.log id ++ y.trace.map .effect := by
  have same : (s.commit id o y).log id = (s.record id (y.trace.map .effect)).log id := rfl
  rw [same, log_record_self]

/-- Functions of a connection queue write-complete notifications only. -/
@[simp] theorem business_commit {y : Session} (keeps : Keeps (s.session o) y) :
    (s.commit id o y).business j id' = s.business j id' := by
  obtain ⟨extra, queue, notifications⟩ := keeps.functors
  -- A notification moves no connection on.
  have alien : extra.filter (Functor.concerns id') = [] := by
    apply List.filter_eq_nil_iff.mpr
    intro cb member
    rw [notifications cb member]
    simp [Functor.concerns]
  refine setWorker_apply (s := s) (i := o.home) (fun w => w.queued.filter (Functor.concerns id'))
    ?_ j
  simp only [Worker.queued, queue, session, List.filter_append, alien, List.append_nil]

theorem commit_moves {y : Session} (id : Nat) (channelFd : o.conn.channel.fd = o.conn.fd)
    (keeps : Keeps (s.session o) y) (registered : y.IsRegistered) :
    Moves s (s.commit id o y) id o { o with conn := y.conn } := by
  -- Of the workers only the loop of the connection changes, and there only what `Keeps` allows.
  have view {α : Type} (f : Worker → α)
      (same : f { s.workers o.home with loop := y.loop } = f (s.workers o.home)) :
      ∀ j, f ((s.commit id o y).workers j) = f (s.workers j) := setWorker_apply f same
  exact { Touches.refl s id o.conn.fd with
    objects := fun _ other => Function.update_of_ne other _ _
    channels := fun j fd' other => view (fun w => w.loop.poller.channels fd')
      (keeps.channels fd' (fun eq => other (eq.trans channelFd))) j
    interest := fun j fd' other => view (fun w => w.loop.poller.interest fd')
      (keeps.interest fd' (fun eq => other (eq.trans channelFd))) j
    business := fun _ _ _ => business_commit keeps
    log := fun _ other => log_record_other _ other
    calling := view (fun w => w.loop.callingPendingFunctors) keeps.callingPendingFunctors
    eventHanding := view (fun w => w.loop.eventHanding) keeps.eventHanding
    current := view (fun w => w.loop.currentActiveChannel) keeps.currentActiveChannel
    dispatch := view Worker.dispatch rfl
    batch := fun j empty => (view Worker.batch rfl j).trans empty
    here := Function.update_self _ _ _
    home := rfl
    next := rfl
    nextId := rfl
    allOpened := rfl
    ident := keeps.id
    fd := keeps.fd
    channelFd := keeps.channelFd
    objectConnectionCallback := keeps.connectionCallback
    objectCloseCallback := keeps.closeCallback
    registered := by
      simpa [Session.IsRegistered, session, commit, record, Session.self] using registered
    elsewhere := fun j away => by
      have apart : (s.commit id o y).workers j = s.workers j := setWorker_other _ away
      exact ⟨by rw [apart], by rw [apart]⟩ }

end Server

end Clia.Net
