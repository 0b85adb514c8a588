import Clia.Net.LoopPhases
import Clia.Net.Lifecycle
import Clia.Net.Teardown
import Mathlib.Algebra.BigOperators.Group.Finset.Basic

/-!
# Loops at rest

What the loops of a server have in hand can always be brought to its end, and when all of them wait
with nothing queued, no connection is left behind: those in `connections_` are open, and of the others
nothing is left but the object.

## Main results

* `Server.comes_to_rest`: a server that is alive can come to rest, with system calls that would block
  and a user who takes what has been received.
* `Server.rest_leaves_nothing`: at rest, `connections_` has exactly the connections that can be closed,
  and every other one can be released at once, unknown to every poller.
-/

namespace Clia.Net

open Reactor LabelledRun

/-- The loop waits for events, and nothing is queued for it. -/
structure Worker.AtRest (w : Worker) : Prop where
  waiting : w.loop.eventHanding = false
  calling : w.loop.callingPendingFunctors = false
  pending : w.loop.pendingFunctors = []

instance (w : Worker) : Decidable w.AtRest :=
  decidable_of_iff (w.loop.eventHanding = false ∧ w.loop.callingPendingFunctors = false ∧
    w.loop.pendingFunctors = []) ⟨fun ⟨a, b, c⟩ => ⟨a, b, c⟩, fun ⟨a, b, c⟩ => ⟨a, b, c⟩⟩

def Server.AtRest (s : Server) : Prop := ∀ i < s.threads + 1, (s.workers i).AtRest

instance (s : Server) : Decidable s.AtRest :=
  inferInstanceAs (Decidable (∀ i < s.threads + 1, _))

/-! ### The work in hand -/

/-- A removal leads to a `connect_destoryed`; no other functor leads to another one. -/
def Functor.work : Functor → Nat
  | .removeConnectionInLoop _ => 4
  | _ => 1

theorem Functor.sum_work (cbs : List Functor) :
    (cbs.map fun cb => cb.work + 2).sum = (cbs.map Functor.work).sum + 2 * cbs.length := by
  induction cbs with
  | nil => rfl
  | cons cb cbs ih =>
    simp only [List.map_cons, List.sum_cons, List.length_cons, ih]
    omega

/-- The steps that a loop and the functors it queues can still make, if no new events come. A channel
has four callbacks at most, and the first may queue a removal. -/
def Worker.work (w : Worker) : Nat :=
  (if w.loop.eventHanding then 1 else 0) + 29 * w.dispatch.length + 7 * w.todo.length +
    (if w.loop.callingPendingFunctors then 1 else 0) + (w.batch.map Functor.work).sum +
    (w.loop.pendingFunctors.map fun cb => cb.work + 2).sum

def Server.work (s : Server) : Nat := ∑ i ∈ Finset.range (s.threads + 1), (s.workers i).work

namespace Server

variable {s t : Server} {i id : Nat} {o : Object} {y : Session}

theorem work_of_workers (threads : t.threads = s.threads)
    (workers : ∀ i, (t.workers i).work = (s.workers i).work) : t.work = s.work := by
  unfold work
  rw [threads]
  exact Finset.sum_congr rfl fun i _ => workers i

theorem work_setWorker (inside : i ≤ s.threads) (w : Worker) :
    (s.setWorker i w).work + (s.workers i).work = s.work + w.work := by
  have member : i ∈ Finset.range (s.threads + 1) := Finset.mem_range.mpr (by omega)
  have others : ∑ j ∈ (Finset.range (s.threads + 1)).erase i, ((s.setWorker i w).workers j).work =
      ∑ j ∈ (Finset.range (s.threads + 1)).erase i, (s.workers j).work := by
    apply Finset.sum_congr rfl
    intro j among
    rw [setWorker_other w (Finset.ne_of_mem_erase among)]
  have after := Finset.add_sum_erase _ (fun j => ((s.setWorker i w).workers j).work) member
  have before := Finset.add_sum_erase _ (fun j => (s.workers j).work) member
  simp only [setWorker_self] at after
  have sums : (s.setWorker i w).work =
      ∑ j ∈ Finset.range (s.threads + 1), ((s.setWorker i w).workers j).work := rfl
  rw [sums, ← after, others, work, ← before]
  omega

theorem work_push (inside : i ≤ s.threads) (flag : Bool) (cb : Functor) :
    (s.push i flag cb).work = s.work + (cb.work + 2) := by
  have counted := work_setWorker inside
    { s.workers i with loop := (s.workers i).loop.queueInLoop flag cb }
  have more : Worker.work { s.workers i with loop := (s.workers i).loop.queueInLoop flag cb } =
      (s.workers i).work + (cb.work + 2) := by
    simp [Worker.work, EventLoop.queueInLoop]
    omega
  rw [push]
  omega

/-- A call that queues nothing leaves the work as it is. -/
theorem work_commit (keeps : Keeps (s.session o) y)
    (pending : y.loop.pendingFunctors = (s.session o).loop.pendingFunctors) :
    (s.commit id o y).work = s.work := by
  have same : Worker.work { s.workers o.home with loop := y.loop } = (s.workers o.home).work := by
    simp only [Worker.work, keeps.eventHanding, keeps.callingPendingFunctors, pending]
    rfl
  have workers : ∀ i, ((s.commit id o y).workers i).work = (s.workers i).work :=
    setWorker_apply Worker.work same
  exact work_of_workers rfl workers

/-- Every connection is on one of the loops that are counted. -/
def Homes (s : Server) : Prop := ∀ id o, s.objects id = some o → o.home ≤ s.threads

theorem Homes.commit (homes : s.Homes) (found : s.objects id = some o) (y : Session) :
    (s.commit id o y).Homes := by
  intro id' o' found'
  by_cases same : id' = id
  · subst same
    have there : (s.commit id' o y).objects id' = some { o with conn := y.conn } :=
      Function.update_self _ _ _
    rw [there] at found'
    cases found'
    exact homes id' o found
  · exact homes id' o' ((Function.update_of_ne same _ s.objects).symm.trans found')

theorem work_removeConnectionInLoop (homes : s.Homes) (ok : s.removeConnectionInLoop id = .ok t) :
    t.work = s.work + 3 := by
  unfold removeConnectionInLoop at ok
  split at ok
  · cases ok
  next o found =>
    obtain ⟨_, _, ok⟩ := Checked.bind_ok_iff.mp ok
    cases ok
    have inside : o.home ≤ ((s.unmapped o.conn.fd).record id [.erased]).threads := homes id o found
    exact work_push inside (o.home == 0) (.connectDestoryed id)

theorem work_removeConnection (homes : s.Homes) (ok : s.removeConnection id o = .ok t) :
    t.work ≤ s.work + 6 := by
  unfold removeConnection at ok
  split at ok
  · cases ok
  · split at ok
    · have queued := work_removeConnectionInLoop homes ok
      omega
    · cases ok
      exact Nat.le_of_eq (work_push (Nat.zero_le _) false (.removeConnectionInLoop id))

/-- A call that queues nothing, and does not close. -/
theorem work_onConnection {c : Call} (quiet : ∀ o y, s.objects id = some o →
      c.step (s.session o) = .ok y → y.loop.pendingFunctors = (s.session o).loop.pendingFunctors ∧
        .closeCallback ∉ y.trace)
    (registered : ∀ o, s.objects id = some o → (s.session o).IsRegistered)
    (ok : s.onConnection id (fun x => c.step x) = .ok t) : t.work = s.work := by
  cases found : s.objects id with
  | none =>
    simp only [onConnection, found] at ok
    cases ok
  | some o =>
    obtain ⟨y, called, outcome⟩ := onConnection_ok found ok
    obtain ⟨pending, staying⟩ := quiet o y found called
    rcases outcome with ⟨closing, -⟩ | ⟨-, rfl⟩
    · exact absurd closing staying
    · exact work_commit (Call.step_keeps (registered o found) called).1 pending

end Server

/-! ### Calls that queue nothing -/

namespace Session

variable {x y : Session}

theorem disconnected_pending (x : Session) :
    x.disconnected.loop.pendingFunctors = x.loop.pendingFunctors := by
  rw [disconnected, connectionCallback_loop]
  rfl

theorem connectEstablished_quiet (registered : x.IsRegistered)
    (ok : x.connectEstablished = .ok y) :
    y.loop.pendingFunctors = x.loop.pendingFunctors ∧
      (.closeCallback ∈ y.trace → .closeCallback ∈ x.trace) := by
  rw [connectEstablished_eq registered (connecting_of_connectEstablished ok)] at ok
  cases ok
  constructor
  · rw [established, connectionCallback_loop]
    rfl
  · rw [established, connectionCallback_trace]
    split <;> simp [withEvents]

theorem connectDestoryed_quiet (registered : x.IsRegistered) (ok : x.connectDestoryed = .ok y) :
    y.loop.pendingFunctors = x.loop.pendingFunctors ∧
      (.closeCallback ∈ y.trace → .closeCallback ∈ x.trace) := by
  rw [connectDestoryed_eq registered ok]
  split
  · refine ⟨disconnected_pending x, ?_⟩
    have trace : x.disconnected.removed.trace = x.disconnected.trace := rfl
    rw [trace, disconnected_effects]
    split <;> simp
  · exact ⟨rfl, id⟩

end Session

namespace TcpConnection

/-- On the connection the call returns, queues nothing and does not close. -/
def Idles (conn : TcpConnection) (call : Session → Except Fault Session) : Prop :=
  ∀ x : Session, x.conn = conn → ∃ y, call x = .ok y ∧ Keeps x y ∧
    y.loop.pendingFunctors = x.loop.pendingFunctors ∧
    (.closeCallback ∈ y.trace → .closeCallback ∈ x.trace)

variable (conn : TcpConnection)

theorem idles_handleError : conn.Idles fun x => .ok x.handleError := by
  intro x _
  exact ⟨x, rfl, Keeps.refl x, rfl, fun closing => closing⟩

theorem idles_handleWrite : conn.Idles fun x => x.handleWrite (.failed EWOULDBLOCK) := by
  intro x _
  by_cases writing : x.conn.channel.isWriting = true
  · refine ⟨(x.withOutput x.conn.outputBuffer).emit (.wrote []), ?_, ?_, rfl, ?_⟩
    · simp only [Session.handleWrite, if_pos writing, Buffer.writeFd, Checked.ok_bind]
      rfl
    · exact (Session.withOutput_keeps x _).trans (Session.emit_keeps _ _)
    · simp [Session.emit, Session.withOutput]
  · exact ⟨x, by simp only [Session.handleWrite, if_neg writing], Keeps.refl x, rfl,
      fun closing => closing⟩

/-- There must be room to read. -/
theorem idles_handleRead (empty : conn.inputBuffer.readableBytes = 0)
    (room : 0 < conn.inputBuffer.writableBytes) :
    conn.Idles fun x => x.handleRead (.failed EWOULDBLOCK) := by
  rintro x rfl
  have read : x.conn.inputBuffer.readFd (.failed EWOULDBLOCK) = .ok (-1, x.conn.inputBuffer) :=
    (Buffer.readFd_ok_iff rfl).mpr ⟨room, by simp [empty, Buffer.kExtraSize]⟩
  refine ⟨x.withInput x.conn.inputBuffer, ?_, Session.withInput_keeps _ _, rfl,
    fun closing => closing⟩
  simp only [Session.handleRead, read, Checked.ok_bind]
  rfl

end TcpConnection

/-! ### Functors and callbacks -/

namespace Server

variable {s t : Server} {i id : Nat} {o : Object}

theorem work_connectEstablished
    (registered : ∀ o, s.objects id = some o → (s.session o).IsRegistered)
    (ok : s.connectEstablished id = .ok t) : t.work = s.work := by
  unfold connectEstablished at ok
  split at ok
  · cases ok
  next o _ =>
    have recorded : (s.record id
        [.established ((s.workers o.home).loop.poller.channels o.conn.fd)]).work = s.work :=
      work_of_workers rfl fun _ => rfl
    rw [← recorded]
    refine work_onConnection (c := .connectEstablished) ?_ registered ok
    intro o y found called
    obtain ⟨pending, stays⟩ := Session.connectEstablished_quiet (registered o found) called
    exact ⟨pending, fun closing => List.not_mem_nil (stays closing)⟩

theorem work_connectDestoryed
    (registered : ∀ o, s.objects id = some o → (s.session o).IsRegistered)
    (ok : s.connectDestoryed id = .ok t) : t.work = s.work := by
  unfold connectDestoryed at ok
  split at ok
  · cases ok
  next o _ =>
    have recorded : (s.record id [.destoryed (s.workers o.home).loop.eventHanding]).work = s.work :=
      work_of_workers rfl fun _ => rfl
    rw [← recorded]
    refine work_onConnection (c := .connectDestoryed) ?_ registered ok
    intro o y found called
    obtain ⟨pending, stays⟩ := Session.connectDestoryed_quiet (registered o found) called
    exact ⟨pending, fun closing => List.not_mem_nil (stays closing)⟩

/-- A functor queues less than it was worth. -/
theorem work_runFunctor {cb : Functor} (homes : s.Homes)
    (registered : ∀ id o, s.objects id = some o → (s.session o).IsRegistered)
    (ok : s.runFunctor i cb = .ok t) : t.work < s.work + cb.work := by
  cases cb with
  | connectEstablished id =>
    have same := work_connectEstablished (registered id) ok
    simp [same, Functor.work]
  | removeConnectionInLoop id =>
    simp only [runFunctor] at ok
    split at ok
    · cases ok
    · have queued := work_removeConnectionInLoop homes ok
      simp [queued, Functor.work]
  | connectDestoryed id =>
    have same := work_connectDestoryed (registered id) ok
    simp [same, Functor.work]
  | writeComplete id =>
    cases ok
    simp [Functor.work]
  | sendInLoop id data => cases ok
  | shutdownInLoop id => cases ok

theorem removeConnectionInLoop_ne_disabled : s.removeConnectionInLoop id ≠ .error .disabled := by
  intro failed
  unfold removeConnectionInLoop at failed
  split at failed
  · cases failed
  · rcases Checked.bind_error_iff.mp failed with refused | ⟨_, _, failed⟩
    · cases (Checked.require_error_iff.mp refused).2
    · cases failed

theorem onConnection_ne_disabled {call : Session → Except Fault Session} :
    s.onConnection id call ≠ .error .disabled := by
  intro failed
  unfold onConnection at failed
  split at failed
  · cases failed
  · split at failed
    · cases failed
    · simp only at failed
      split at failed
      · unfold removeConnection at failed
        split at failed
        · cases failed
        · split at failed
          · exact removeConnectionInLoop_ne_disabled failed
          · cases failed
      · cases failed

/-- Only the functors of other threads are no steps of the server. -/
theorem runFunctor_ne_disabled {cb : Functor} (own : cb.IsOwn) :
    s.runFunctor i cb ≠ .error .disabled := by
  intro failed
  cases cb with
  | connectEstablished id =>
    simp only [runFunctor, connectEstablished] at failed
    split at failed
    · cases failed
    · exact onConnection_ne_disabled failed
  | removeConnectionInLoop id =>
    simp only [runFunctor] at failed
    split at failed
    · cases failed
    · exact removeConnectionInLoop_ne_disabled failed
  | connectDestoryed id =>
    simp only [runFunctor, connectDestoryed] at failed
    split at failed
    · cases failed
    · exact onConnection_ne_disabled failed
  | writeComplete id => cases failed
  | sendInLoop id data => exact own
  | shutdownInLoop id => exact own

/-- A call that returns without a close. -/
theorem onConnection_stays {call : Session → Except Fault Session} {y : Session}
    (found : s.objects id = some o) (called : call (s.session o) = .ok y)
    (staying : .closeCallback ∉ y.trace) : s.onConnection id call = .ok (s.commit id o y) := by
  simp only [onConnection, found, called, if_neg staying]

end Server

/-- The steps in which a server comes to rest: the system calls would block, and nothing comes from
outside but that the user takes what was received. -/
def ServerStep.Settles : ServerStep → Prop
  | .callback _ io => io = .nothing ∨ io = .read (.failed EWOULDBLOCK) ∨
      io = .write (.failed EWOULDBLOCK) ∨ io = .accept none
  | .nextChannel _ | .endDispatch _ | .swap _ | .functor _ | .finish _ | .retrieveInput _ _ => True
  | _ => False

/-- What is kept on the way to rest. -/
structure Live (s : Server) : Prop where
  inv : Inv s
  ready : Ready s
  alive : s.alive = true

namespace Live

variable {s t : Server} {i id : Nat} {o : Object}

theorem registered (live : Live s) : ∀ id o, s.objects id = some o → (s.session o).IsRegistered :=
  Server.registered_of_pollers live.inv (fun _ _ found => found) (fun _ => rfl)

theorem homes (live : Live s) : s.Homes := by
  intro id o found
  obtain ⟨stage, torn, placed⟩ := live.inv.placed id o found
  exact placed.home

theorem after {l : ServerStep} (live : Live s) (taken : s.step l = .ok t)
    (alive : t.alive = s.alive) : Live t :=
  ⟨Server.step_inv live.inv taken, live.ready.after live.inv live.alive taken,
    alive.trans live.alive⟩

/-- Some steps that settle lead to less work. -/
def Progresses (s : Server) : Prop :=
  ∃ ls t, (∀ l ∈ ls, ServerStep.Settles l) ∧ run Server.step s ls = .ok t ∧ Live t ∧ t.work < s.work

theorem progresses_of_step {l : ServerStep} (live : Live s) (settles : l.Settles)
    (taken : s.step l = .ok t) (alive : t.alive = s.alive) (less : t.work < s.work) :
    Progresses s :=
  ⟨[l], t, by simpa using settles, by rw [run_cons_ok _ taken]; rfl, live.after taken alive, less⟩

/-- It is enough to progress behind a step that adds no work. -/
theorem progresses_behind {l : ServerStep} (later : Progresses t) (taken : s.step l = .ok t)
    (settles : l.Settles) (same : t.work ≤ s.work) : Progresses s := by
  obtain ⟨ls, u, all, ran, live, less⟩ := later
  refine ⟨l :: ls, u, ?_, ?_, live, Nat.lt_of_lt_of_le less same⟩
  · simpa using ⟨settles, all⟩
  · rw [run_cons_ok _ taken]
    exact ran

/-- A step of a loop that moves only the loop. -/
theorem progresses_of_worker {l : ServerStep} {w : Worker} (live : Live s) (inside : i ≤ s.threads)
    (settles : l.Settles) (taken : s.step l = .ok (s.setWorker i w))
    (less : w.work < (s.workers i).work) : Progresses s := by
  apply live.progresses_of_step settles taken rfl
  have counted := Server.work_setWorker inside w
  omega

/-! ### One step on -/

theorem functor_progresses (live : Live s) (inside : i ≤ s.threads)
    (calling : (s.workers i).loop.callingPendingFunctors = true) {cb : Functor}
    {rest : List Functor} (batch : (s.workers i).batch = cb :: rest) : Progresses s := by
  have pops : s.step (.functor i) = (s.popped i cb rest).runFunctor i cb := by
    simp only [Server.step, calling, batch]
    rfl
  have still := Server.registered_of_pollers live.inv (r := s.popped i cb rest)
    (fun _ _ found => found) (Server.setWorker_apply (fun w => w.loop.poller) rfl)
  cases ran : (s.popped i cb rest).runFunctor i cb with
  | error f =>
    -- Functors of other threads are not queued, and the others go through.
    obtain rfl := live.inv.runFunctor_error live.alive calling batch ran
    have own : cb.IsOwn := (live.ready.tidy i).own cb (by simp [Worker.queued, batch])
    exact absurd ran (Server.runFunctor_ne_disabled own)
  | ok t =>
    refine live.progresses_of_step (l := .functor i) trivial (pops.trans ran)
      (Queues.runFunctor still ran).alive ?_
    have less := Server.work_runFunctor (s := s.popped i cb rest) live.homes still ran
    have counted := Server.work_setWorker inside
      { s.workers i with batch := rest, ran := (s.workers i).ran ++ [cb] }
    have popped : (s.workers i).work = cb.work + Worker.work
        { s.workers i with batch := rest, ran := (s.workers i).ran ++ [cb] } := by
      simp only [Worker.work, batch, List.map_cons, List.sum_cons]
      omega
    rw [Server.popped] at less
    omega

theorem swap_progresses (live : Live s) (inside : i ≤ s.threads)
    (waiting : (s.workers i).loop.eventHanding = false)
    (resting : (s.workers i).loop.callingPendingFunctors = false)
    (some : (s.workers i).loop.pendingFunctors ≠ []) : Progresses s := by
  have taken : s.step (.swap i) = .ok (s.setWorker i { s.workers i with
      batch := (s.workers i).loop.pendingFunctors
      loop := { (s.workers i).loop with callingPendingFunctors := true, pendingFunctors := [] } }) := by
    simp only [Server.step, Checked.require_pos _ (And.intro waiting resting)]
    rfl
  apply live.progresses_of_worker inside (l := .swap i) trivial taken
  have counted := Functor.sum_work (s.workers i).loop.pendingFunctors
  have positive := List.length_pos_iff.mpr some
  simp [Worker.work, resting, waiting, live.inv.idle i resting]
  omega

theorem finish_progresses (live : Live s) (inside : i ≤ s.threads)
    (calling : (s.workers i).loop.callingPendingFunctors = true)
    (batch : (s.workers i).batch = []) : Progresses s := by
  have taken : s.step (.finish i) = .ok (s.setWorker i { s.workers i with
      ran := []
      loop := { (s.workers i).loop with callingPendingFunctors := false } }) := by
    simp only [Server.step, Checked.require_pos _ (And.intro calling batch)]
    rfl
  apply live.progresses_of_worker inside (l := .finish i) trivial taken
  simp [Worker.work, calling]

theorem nextChannel_progresses (live : Live s) (inside : i ≤ s.threads)
    (handling : (s.workers i).loop.eventHanding = true) (todo : (s.workers i).todo = [])
    {channel : ChannelPtr} {revents : Mask} {rest : List (ChannelPtr × Mask)}
    (dispatch : (s.workers i).dispatch = (channel, revents) :: rest) : Progresses s := by
  have taken : s.step (.nextChannel i) = .ok (s.setWorker i { s.workers i with
      dispatch := rest
      todo := Channel.callbacks revents
      loop := { (s.workers i).loop with currentActiveChannel := some channel } }) := by
    simp only [Server.step, handling, todo, dispatch]
  apply live.progresses_of_worker inside (l := .nextChannel i) trivial taken
  have few := callbacks_length revents
  simp only [Worker.work, dispatch, todo, List.length_cons, List.length_nil]
  omega

theorem endDispatch_progresses (live : Live s) (inside : i ≤ s.threads)
    (handling : (s.workers i).loop.eventHanding = true) (todo : (s.workers i).todo = [])
    (dispatch : (s.workers i).dispatch = []) : Progresses s := by
  have taken : s.step (.endDispatch i) = .ok (s.setWorker i { s.workers i with
      loop := { (s.workers i).loop with
        eventHanding := false
        currentActiveChannel := none } }) := by
    simp only [Server.step, Checked.require_pos _ (And.intro handling (And.intro todo dispatch))]
    rfl
  apply live.progresses_of_worker inside (l := .endDispatch i) trivial taken
  simp [Worker.work, handling]

/-! ### One callback on -/

/-- A callback that queues less than its own worth. -/
theorem callback_progresses {cb : Channel.Callback} {rest : List Channel.Callback} {io : Io}
    (live : Live s) (inside : i ≤ s.threads) (todo : (s.workers i).todo = cb :: rest)
    (settles : (ServerStep.callback i io).Settles)
    (ran : (s.setWorker i { s.workers i with todo := rest }).runCallback i cb io = .ok t)
    (less : t.work ≤ (s.setWorker i { s.workers i with todo := rest }).work + 6) :
    Progresses s := by
  have taken : s.step (.callback i io) = .ok t := by
    simp only [Server.step, todo]
    exact ran
  apply live.progresses_of_step settles taken (Queues.runCallback (live.inv.todo rest) ran).alive
  have counted := Server.work_setWorker inside { s.workers i with todo := rest }
  have called : (s.workers i).work = Worker.work { s.workers i with todo := rest } + 7 := by
    simp only [Worker.work, todo, List.length_cons]
    omega
  omega

/-- A callback that queues nothing and does not close. -/
theorem idle_progresses {cb : Channel.Callback} {rest : List Channel.Callback} {io : Io}
    {call : Session → Except Fault Session} (live : Live s) (inside : i ≤ s.threads)
    (todo : (s.workers i).todo = cb :: rest)
    (current : (s.workers i).loop.currentActiveChannel = some (.connection id))
    (settles : (ServerStep.callback i io).Settles) (found : s.objects id = some o)
    (idles : o.conn.Idles call)
    (runs : ∀ r : Server, (r.workers i).loop.currentActiveChannel = some (.connection id) →
      r.runCallback i cb io = r.onConnection id call) : Progresses s := by
  have current' : ((s.setWorker i { s.workers i with todo := rest }).workers
      i).loop.currentActiveChannel = some (.connection id) := by
    rw [Server.setWorker_self]
    exact current
  obtain ⟨y, called, keeps, pending, stays⟩ :=
    idles ((s.setWorker i { s.workers i with todo := rest }).session o) rfl
  have staying : .closeCallback ∉ y.trace := fun closing => List.not_mem_nil (stays closing)
  have ran := (runs _ current').trans (Server.onConnection_stays found called staying)
  apply live.callback_progresses inside todo settles ran
  rw [Server.work_commit keeps pending]
  exact Nat.le_add_right _ _

section Connection

variable {rest : List Channel.Callback}

theorem close_progresses (live : Live s) (inside : i ≤ s.threads)
    (todo : (s.workers i).todo = .close :: rest)
    (current : (s.workers i).loop.currentActiveChannel = some (.connection id)) :
    Progresses s := by
  obtain ⟨o, found, rfl, closes⟩ := live.ready.current i id current
  have inv := live.inv.todo (i := o.home) rest
  obtain ⟨stage, torn, placed⟩ := inv.placed id o found
  have current' : ((s.setWorker o.home { s.workers o.home with todo := rest }).workers
      o.home).loop.currentActiveChannel = some (.connection id) := by
    rw [Server.setWorker_self]
    exact current
  generalize popped : s.setWorker o.home { s.workers o.home with todo := rest } = r
    at inv placed current'
  have here : r.objects id = some o := popped ▸ found
  have alive : r.alive = true := popped ▸ live.alive
  have homes : r.Homes := popped ▸ live.homes
  -- The close callback is the first of the channel, so nothing has closed the connection before.
  have closable : o.conn.Closable := closes (by simp [todo])
  have called := Session.handleClose_eq placed.registered closable
  have set : (r.session o).conn.hasCloseCallback = true := placed.closeCallback
  rw [if_pos set] at called
  have step := Session.handleClose_closes placed.registered placed.connectionCallback
    placed.closeCallback called
  obtain ⟨t, removed⟩ := inv.removeConnection_ok alive here step
  have closing : .closeCallback ∈ ((r.session o).disconnected.emit .closeCallback).trace := by
    simp [step.effects]
  have ran : r.runCallback o.home .close .nothing = .ok t := by
    simp only [Server.runCallback, current', Server.onConnection, here, called, if_pos closing]
    exact removed
  have committed : (r.commit id o ((r.session o).disconnected.emit .closeCallback)).work =
      r.work := Server.work_commit step.toKeeps (Session.disconnected_pending _)
  have queued := Server.work_removeConnection (homes.commit here _) removed
  rw [committed] at queued
  subst popped
  exact live.callback_progresses inside todo (.inl rfl) ran queued

theorem error_progresses (live : Live s) (inside : i ≤ s.threads)
    (todo : (s.workers i).todo = .error :: rest)
    (current : (s.workers i).loop.currentActiveChannel = some (.connection id)) :
    Progresses s := by
  obtain ⟨o, found, -⟩ := live.ready.current i id current
  apply live.idle_progresses inside todo current (.inl rfl) found o.conn.idles_handleError
  intro r here
  simp only [Server.runCallback, here]

/-- The poller may report a channel for writing, and the kernel takes nothing all the same. -/
theorem write_progresses (live : Live s) (inside : i ≤ s.threads)
    (todo : (s.workers i).todo = .write :: rest)
    (current : (s.workers i).loop.currentActiveChannel = some (.connection id)) :
    Progresses s := by
  obtain ⟨o, found, -⟩ := live.ready.current i id current
  apply live.idle_progresses inside todo current (.inr (.inr (.inl rfl))) found
    o.conn.idles_handleWrite
  intro r here
  simp only [Server.runCallback, here]

/-- A read that would block, when there is room to read. -/
theorem blockedRead_progresses (live : Live s) (inside : i ≤ s.threads)
    (todo : (s.workers i).todo = .read :: rest)
    (current : (s.workers i).loop.currentActiveChannel = some (.connection id))
    (found : s.objects id = some o) (empty : o.conn.inputBuffer.readableBytes = 0)
    (room : 0 < o.conn.inputBuffer.writableBytes) : Progresses s := by
  apply live.idle_progresses inside todo current (.inr (.inl rfl)) found
    (o.conn.idles_handleRead empty room)
  intro r here
  simp only [Server.runCallback, here]

/-- The user takes all that has been received first, so that there is room. -/
theorem read_progresses (live : Live s) (inside : i ≤ s.threads)
    (todo : (s.workers i).todo = .read :: rest)
    (current : (s.workers i).loop.currentActiveChannel = some (.connection id)) :
    Progresses s := by
  obtain ⟨o, found, rfl, -⟩ := live.ready.current i id current
  have roomy := live.ready.roomy id o found
  have retrieved : o.conn.inputBuffer.retrieve o.conn.inputBuffer.readableBytes =
      .ok o.conn.inputBuffer.retrieveAll := by
    simp [Buffer.retrieve, cassert_pos]
  -- `y` is the connection with its buffer emptied.
  obtain ⟨y, y_eq⟩ : ∃ y, y = (s.session o).withInput o.conn.inputBuffer.retrieveAll := ⟨_, rfl⟩
  have called : (Call.retrieveInput o.conn.inputBuffer.readableBytes).step (s.session o) =
      .ok y := by
    simp only [Call.step, y_eq, Server.session, retrieved, Checked.ok_bind]
    rfl
  have calls : s.step (.retrieveInput id o.conn.inputBuffer.readableBytes) = s.onConnection id
      fun x => (Call.retrieveInput o.conn.inputBuffer.readableBytes).step x := rfl
  have keeps : Keeps (s.session o) y := y_eq ▸ Session.withInput_keeps _ _
  have taken : s.step (.retrieveInput id o.conn.inputBuffer.readableBytes) =
      .ok (s.commit id o y) := by
    rw [calls]
    exact Server.onConnection_stays found called
      (by simp [y_eq, Session.withInput, Server.session])
  have same : (s.commit id o y).work = s.work := Server.work_commit keeps (by rw [y_eq]; rfl)
  have emptied := live.after taken rfl
  have queues : Queues s (s.commit id o y) := Queues.commit keeps
  have worker := queues.worker o.home
  have there : (s.commit id o y).objects id = some { o with conn := y.conn } :=
    Function.update_self _ _ _
  refine progresses_behind ?_ taken trivial (Nat.le_of_eq same)
  refine emptied.blockedRead_progresses inside (worker.todo.trans todo)
    (worker.current.trans current) there ?_ ?_
  · rw [y_eq]
    exact sizeSub_of_le (Nat.le_refl _)
  · have room := roomy.room
    have writable : y.conn.inputBuffer.writableBytes =
        o.conn.inputBuffer.buffer.length - Buffer.kCheapPrepend := by
      rw [y_eq]
      exact sizeSub_of_le (Nat.le_of_lt room)
    rw [writable]
    omega

end Connection

theorem someCallback_progresses {cb : Channel.Callback} {rest : List Channel.Callback}
    (live : Live s) (inside : i ≤ s.threads) (todo : (s.workers i).todo = cb :: rest) :
    Progresses s := by
  have current_eq : ((s.setWorker i { s.workers i with todo := rest }).workers
      i).loop.currentActiveChannel = (s.workers i).loop.currentActiveChannel := by
    rw [Server.setWorker_self]
  have counted := Nat.le_add_right (s.setWorker i { s.workers i with todo := rest }).work 6
  cases current : (s.workers i).loop.currentActiveChannel with
  | none =>
    -- A loop with callbacks to come has a current channel.
    exact absurd current ((live.ready.tidy i).current (by simp [todo]))
  | some channel =>
    rw [current] at current_eq
    cases channel with
    | connection id =>
      cases cb with
      | close => exact live.close_progresses inside todo current
      | error => exact live.error_progresses inside todo current
      | read => exact live.read_progresses inside todo current
      | write => exact live.write_progresses inside todo current
    | acceptor =>
      cases cb with
      | read =>
        refine live.callback_progresses inside todo (.inr (.inr (.inr rfl))) ?_ counted
        simp only [Server.runCallback, current_eq]
      | _ =>
        refine live.callback_progresses inside todo (.inl rfl) ?_ counted
        simp only [Server.runCallback, current_eq]
    | wakeup j =>
      cases cb with
      | read =>
        generalize popped : s.setWorker i { s.workers i with todo := rest } = r at current_eq
        have ran : r.runCallback i .read .nothing = .ok (r.setWorker i { r.workers i with
            loop := { (r.workers i).loop with wakeups := 0 } }) := by
          simp only [Server.runCallback, current_eq]
        have same : ∀ w : Worker, w.work = (r.workers i).work → (r.setWorker i w).work = r.work :=
          fun w same => Server.work_of_workers rfl (Server.setWorker_apply Worker.work same)
        subst popped
        exact live.callback_progresses inside todo (.inl rfl) ran
          (Nat.le_trans (Nat.le_of_eq (same _ rfl)) counted)
      | _ =>
        refine live.callback_progresses inside todo (.inl rfl) ?_ counted
        simp only [Server.runCallback, current_eq]

/-- **Step lemma**: a server whose loops are not all at rest can settle a bit more. -/
theorem progresses (live : Live s) (busy : ¬s.AtRest) : Progresses s := by
  simp only [Server.AtRest, not_forall] at busy
  obtain ⟨i, below, busy⟩ := busy
  have inside : i ≤ s.threads := Nat.lt_succ_iff.mp below
  cases handling : (s.workers i).loop.eventHanding with
  | true =>
    -- In the dispatch: the next callback, the next channel, or the end.
    cases todo : (s.workers i).todo with
    | cons cb rest => exact live.someCallback_progresses inside todo
    | nil =>
      cases dispatch : (s.workers i).dispatch with
      | cons report rest => exact live.nextChannel_progresses inside handling todo dispatch
      | nil => exact live.endDispatch_progresses inside handling todo dispatch
  | false =>
    cases calling : (s.workers i).loop.callingPendingFunctors with
    | true =>
      cases batch : (s.workers i).batch with
      | cons cb rest => exact live.functor_progresses inside calling batch
      | nil => exact live.finish_progresses inside calling batch
    | false =>
      apply live.swap_progresses inside handling calling
      intro pending
      exact busy ⟨handling, calling, pending⟩

end Live

/-! ### Every reachable server -/

namespace Server

variable {s t : Server} {l : ServerStep} {id i : Nat} {o : Object}

/-- `~TcpServer` is not taken back. -/
theorem alive_before (inv : Inv s) (taken : s.step l = .ok t) (alive : t.alive = true) :
    s.alive = true := by
  by_cases ends : l = .teardown
  · subst ends
    obtain ⟨_, allowed, _⟩ := Checked.bind_ok_iff.mp taken
    exact Checked.require_ok_iff.mp allowed
  · rw [← step_alive inv ends taken]
    exact alive

variable {threads listenfd : Nat} {wakeupfd : Nat → Nat} {message writeComplete : Bool}
  {labels : List ServerStep}

theorem run_live (alive : s.alive = true)
    (reached : run step (start threads listenfd wakeupfd message writeComplete) labels = .ok s) :
    Live s := by
  have preserved : ∀ s l t, (Inv s ∧ (s.alive = true → Ready s)) → step s l = .ok t →
      Inv t ∧ (t.alive = true → Ready t) := by
    rintro s l t ⟨inv, ready⟩ taken
    refine ⟨step_inv inv taken, fun alive => ?_⟩
    have before := alive_before inv taken alive
    exact (ready before).after inv before taken
  obtain ⟨inv, ready⟩ := run_invariant preserved
    ⟨start_inv _ _ _ _ _, fun _ => Ready.start _ _ _ _ _⟩ reached
  exact ⟨inv, ready alive, alive⟩

/-- **Rest can be reached**: from every state of a server that is alive, its loops come to rest in
steps that settle, and the server stays alive. -/
theorem comes_to_rest (threads listenfd : Nat) (wakeupfd : Nat → Nat)
    (message writeComplete : Bool) (labels : List ServerStep) (s : Server)
    (reached : run step (start threads listenfd wakeupfd message writeComplete) labels = .ok s)
    (alive : s.alive = true) :
    ∃ ls t, (∀ l ∈ ls, ServerStep.Settles l) ∧ run step s ls = .ok t ∧ t.alive = true ∧
      t.AtRest := by
  obtain ⟨ls, t, settles, ran, live, rest⟩ :=
    reaches_of_measure work (fun s => Live.progresses) (run_live alive reached)
  exact ⟨ls, t, settles, ran, live.alive, rest⟩

/-- Loop 1 is about to call the close callback of a connection. -/
def hangingLabels : List ServerStep :=
  acceptLabels ++ [.poll 1 [(.connection 0, EPOLLHUP)], .nextChannel 1]

private theorem hanging_state :
    (run step (start 1 3 (fun i => 4 + i) true false) hangingLabels).toOption.map
      (fun s => (s.alive, decide s.AtRest)) = some (true, false) := by
  decide +kernel

theorem hanging_settles : ∃ s ls t,
    run step (start 1 3 (fun i => 4 + i) true false) hangingLabels = .ok s ∧ ¬s.AtRest ∧
      (∀ l ∈ ls, ServerStep.Settles l) ∧ run step s ls = .ok t ∧ t.alive = true ∧ t.AtRest := by
  have state := hanging_state
  cases reached : run step (start 1 3 (fun i => 4 + i) true false) hangingLabels with
  | error f =>
    rw [reached] at state
    cases state
  | ok s =>
    rw [reached] at state
    obtain ⟨alive, busy⟩ := Prod.mk.inj (Option.some.inj state)
    obtain ⟨ls, t, settled⟩ :=
      comes_to_rest 1 3 (fun i => 4 + i) true false hangingLabels s reached alive
    exact ⟨s, ls, t, rfl, of_decide_eq_false busy, settled⟩

/-! ### What is left at rest -/

theorem AtRest.business (rest : s.AtRest) (inv : Inv s) (inside : i ≤ s.threads) (id : Nat) :
    s.business i id = [] := by
  have worker := rest i (Nat.lt_succ_of_le inside)
  have batch := inv.idle i worker.calling
  simp [Server.business, Worker.queued, batch, worker.pending]

/-- At rest a connection is open, or gone. -/
theorem AtRest.stage {stage : Stage} {torn : Bool} (rest : s.AtRest) (inv : Inv s)
    (placed : Placed s id o stage torn) : stage = .open ∧ torn = false ∨ stage = .gone := by
  have mine := placed.business o.home (fun _ home => home)
  rw [rest.business inv placed.home] at mine
  -- Every other stage has a functor on the loop of the connection, or on the base loop.
  cases stage with
  | waiting => simp [Stage.functors] at mine
  | «open» =>
    cases torn with
    | false => exact .inl ⟨rfl, rfl⟩
    | true => simp [Stage.functors, Stage.mapped] at mine
  | closed =>
    cases torn with
    | false =>
      have base := placed.business 0 (by simp)
      rw [rest.business inv (Nat.zero_le _)] at base
      simp [Stage.functors] at base
    | true => simp [Stage.functors, Stage.mapped] at mine
  | erased => simp [Stage.functors] at mine
  | gone => exact .inr rfl

theorem AtRest.unreferenced {torn : Bool} (rest : s.AtRest) (inv : Inv s)
    (tidy : ∀ j, (s.workers j).Tidy) (placed : Placed s id o .gone torn) :
    s.referenced id o = false := by
  have entry := placed.entry
  simp only [Stage.mapped, Bool.false_eq_true, false_and, if_false] at entry
  have current := ((tidy o.home).waits (rest o.home (Nat.lt_succ_of_le placed.home)).waiting).2.2
  have idle : ∀ j < s.threads + 1, (s.workers j).ran ++ (s.workers j).queued = [] := by
    intro j below
    have worker := rest j below
    simp [Worker.queued, (tidy j).ran worker.calling, inv.idle j worker.calling, worker.pending]
  simp only [referenced, entry, current, Bool.or_eq_false_iff, List.any_eq_false, List.mem_range]
  refine ⟨⟨rfl, ?_⟩, rfl⟩
  intro j below
  simp [idle j below]

theorem run_tidy
    (reached : run step (start threads listenfd wakeupfd message writeComplete) labels = .ok s) :
    Inv s ∧ ∀ j, (s.workers j).Tidy := by
  have preserved : ∀ s l t, (Inv s ∧ ∀ j, (s.workers j).Tidy) → step s l = .ok t →
      Inv t ∧ ∀ j, (t.workers j).Tidy := by
    rintro s l t ⟨inv, tidy⟩ taken
    exact ⟨step_inv inv taken, fun j => (step_loop inv taken j).tidy (tidy j)⟩
  exact run_invariant preserved ⟨start_inv _ _ _ _ _, (Ready.start _ _ _ _ _).tidy⟩ reached

/-- **Nothing is left behind**: whenever the loops are at rest, with `~TcpServer` or without,
`connections_` has exactly the connections that can still be closed, each known to the poller of its
own loop; of every other connection only the object is left, which can be released at once and whose
descriptor no poller knows. -/
theorem rest_leaves_nothing (threads listenfd : Nat) (wakeupfd : Nat → Nat)
    (message writeComplete : Bool) (labels : List ServerStep) (s : Server)
    (reached : run step (start threads listenfd wakeupfd message writeComplete) labels = .ok s)
    (rest : s.AtRest) :
    (∀ fd id, s.connections fd = some id ↔
      ∃ o, s.objects id = some o ∧ o.conn.fd = fd ∧ o.conn.Closable) ∧
    ∀ id o, s.objects id = some o →
      (o.conn.Closable →
        (s.workers o.home).loop.poller.channels o.conn.fd = some (.connection id)) ∧
      (¬o.conn.Closable → s.step (.release id) = .ok (s.freed id o.conn.fd) ∧
        ∀ i, (s.workers i).loop.poller.channels o.conn.fd = none ∧
          (s.workers i).loop.poller.interest o.conn.fd = none) := by
  obtain ⟨inv, tidy⟩ := run_tidy reached
  refine ⟨?_, ?_⟩
  · intro fd id
    constructor
    · intro entry
      obtain ⟨o, found, rfl⟩ := inv.mapped fd id entry
      obtain ⟨stage, torn, placed⟩ := inv.placed id o found
      rcases rest.stage inv placed with ⟨rfl, -⟩ | rfl
      · exact ⟨o, found, rfl, placed.shape.1⟩
      · -- A connection that is gone has no entry.
        have none := placed.entry
        rw [entry] at none
        cases none
    · rintro ⟨o, found, rfl, closable⟩
      obtain ⟨stage, torn, placed⟩ := inv.placed id o found
      obtain rfl := placed.shape.open_of_closable closable
      rcases rest.stage inv placed with ⟨-, rfl⟩ | away
      · exact placed.entry
      · cases away
  · intro id o found
    obtain ⟨stage, torn, placed⟩ := inv.placed id o found
    constructor
    · intro closable
      obtain rfl := placed.shape.open_of_closable closable
      have registered := placed.registered
      simp only [Session.IsRegistered, Registered, session, placed.shape.2.2, placed.channelFd]
        at registered
      simpa [Session.self, placed.ident] using registered.1
    · intro closed
      rcases rest.stage inv placed with ⟨rfl, -⟩ | rfl
      · exact absurd placed.shape.1 closed
      · have free := rest.unreferenced inv tidy placed
        obtain ⟨down, -, -, channels, interest, -⟩ := placed.gone_clean
        constructor
        · simp only [step, found, Checked.require_pos _ free, Checked.require_pos _ down]
          rfl
        · intro i
          by_cases here : i = o.home
          · subst here
            exact ⟨channels, interest⟩
          · exact placed.elsewhere i here

/-- The connection is closed, removed and destroyed. -/
def hungUpLabels : List ServerStep :=
  hangingLabels ++ [.callback 1 .nothing, .endDispatch 1, .swap 0, .functor 0, .finish 0, .swap 1,
    .functor 1, .finish 1]

private theorem hungUp_state :
    (run step (start 1 3 (fun i => 4 + i) true false) hungUpLabels).toOption.map
      (fun s => (decide s.AtRest, (s.objects 0).map fun o => o.conn.state)) =
        some (true, some .kDisconnected) := by
  decide +kernel

theorem hungUp_releases : ∃ s o t,
    run step (start 1 3 (fun i => 4 + i) true false) hungUpLabels = .ok s ∧
      s.objects 0 = some o ∧ s.connections o.conn.fd ≠ some 0 ∧ s.step (.release 0) = .ok t := by
  have state := hungUp_state
  cases reached : run step (start 1 3 (fun i => 4 + i) true false) hungUpLabels with
  | error f =>
    rw [reached] at state
    cases state
  | ok s =>
    rw [reached] at state
    obtain ⟨rest, object⟩ := Prod.mk.inj (Option.some.inj state)
    obtain ⟨o, found, down⟩ := Option.map_eq_some_iff.mp object
    obtain ⟨mapped, left⟩ := rest_leaves_nothing 1 3 (fun i => 4 + i) true false hungUpLabels s
      reached (of_decide_eq_true rest)
    have closed : ¬o.conn.Closable := by simp [TcpConnection.Closable, down]
    refine ⟨s, o, _, rfl, found, ?_, ((left 0 o found).2 closed).1⟩
    intro entry
    obtain ⟨o', found', -, closable⟩ := (mapped _ 0).mp entry
    rw [found] at found'
    cases found'
    exact closed closable

end Server

end Clia.Net
