import Clia.Net.InputBuffer
import Clia.Net.ServerStreams

/-!
# The loops between their phases

A loop is in one of three places: it handles events, it runs its functors, or it waits. What it has
in hand there is fixed: `Worker.Tidy` says so for a loop alone, and `Ready` says for a server that is
alive which connections its loops have in hand, and that each of them can still be closed.

The functions of the server and of a connection leave a loop where it is and only queue functors
(`Queues`), so what a step does to a loop is read off its label.
-/

namespace Clia.Net

open Reactor LabelledRun

/-! ### One loop -/

/-- The server queues it. `send_in_loop` and `shutdown_in_loop` are queued from other threads only. -/
def Functor.IsOwn : Functor → Prop
  | .sendInLoop _ _ | .shutdownInLoop _ => False
  | _ => True

/-- A loop that handles no events has none in hand, and one that runs no functors has none behind it.
While it handles events, each channel has its turn once, and the close callback comes first. -/
structure Worker.Tidy (w : Worker) : Prop where
  waits : w.loop.eventHanding = false →
    w.dispatch = [] ∧ w.todo = [] ∧ w.loop.currentActiveChannel = none
  ran : w.loop.callingPendingFunctors = false → w.ran = []
  own : ∀ cb ∈ w.queued, cb.IsOwn
  current : w.todo ≠ [] → w.loop.currentActiveChannel ≠ none
  close : .close ∉ w.todo.tail
  nodup : (w.dispatch.map Prod.fst).Nodup
  apart : ∀ channel, w.loop.currentActiveChannel = some channel →
    channel ∉ w.dispatch.map Prod.fst

/-- The loop is where it was, and only more is queued for it. -/
structure Grown (v w : Worker) : Prop where
  dispatch : w.dispatch = v.dispatch
  todo : w.todo = v.todo
  batch : w.batch = v.batch
  ran : w.ran = v.ran
  eventHanding : w.loop.eventHanding = v.loop.eventHanding
  calling : w.loop.callingPendingFunctors = v.loop.callingPendingFunctors
  current : w.loop.currentActiveChannel = v.loop.currentActiveChannel
  pending : ∃ extra, w.loop.pendingFunctors = v.loop.pendingFunctors ++ extra ∧
    ∀ cb ∈ extra, cb.IsOwn

namespace Grown

variable {u v w : Worker}

theorem refl (w : Worker) : Grown w w :=
  ⟨rfl, rfl, rfl, rfl, rfl, rfl, rfl, [], by simp, by simp⟩

theorem trans (first : Grown u v) (second : Grown v w) : Grown u w where
  dispatch := second.dispatch.trans first.dispatch
  todo := second.todo.trans first.todo
  batch := second.batch.trans first.batch
  ran := second.ran.trans first.ran
  eventHanding := second.eventHanding.trans first.eventHanding
  calling := second.calling.trans first.calling
  current := second.current.trans first.current
  pending := by
    obtain ⟨early, eq, own⟩ := first.pending
    obtain ⟨late, eq', own'⟩ := second.pending
    refine ⟨early ++ late, by rw [eq', eq, List.append_assoc], ?_⟩
    intro cb member
    exact (List.mem_append.mp member).elim (own cb) (own' cb)

theorem tidy (grown : Grown v w) (tidy : v.Tidy) : w.Tidy := by
  obtain ⟨dispatch, todo, batch, ran, eventHanding, calling, current, extra, pending, own⟩ := grown
  constructor
  · rw [eventHanding, dispatch, todo, current]
    exact tidy.waits
  · rw [calling, ran]
    exact tidy.ran
  · intro cb member
    rw [Worker.queued, batch, pending, ← List.append_assoc] at member
    exact (List.mem_append.mp member).elim (tidy.own cb) (own cb)
  · rw [todo, current]
    exact tidy.current
  · rw [todo]
    exact tidy.close
  · rw [dispatch]
    exact tidy.nodup
  · rw [dispatch, current]
    exact tidy.apart

end Grown

/-! ### All loops -/

/-- The server is as alive as it was, and its loops are where they were. -/
structure Queues (s t : Server) : Prop where
  alive : t.alive = s.alive
  threads : t.threads = s.threads
  worker : ∀ i, Grown (s.workers i) (t.workers i)

namespace Queues

variable {s t u : Server} {id i : Nat} {o : Object} {y : Session}

theorem refl (s : Server) : Queues s s := ⟨rfl, rfl, fun _ => Grown.refl _⟩

theorem trans (first : Queues s t) (second : Queues t u) : Queues s u :=
  ⟨second.alive.trans first.alive, second.threads.trans first.threads,
    fun i => (first.worker i).trans (second.worker i)⟩

/-- Work on the objects, the map, the open descriptors and the history. -/
theorem of_workers (alive : t.alive = s.alive) (threads : t.threads = s.threads)
    (workers : t.workers = s.workers) : Queues s t :=
  ⟨alive, threads, fun _ => workers ▸ Grown.refl _⟩

theorem setWorker {w : Worker} (grown : Grown (s.workers i) w) : Queues s (s.setWorker i w) := by
  refine ⟨rfl, rfl, ?_⟩
  intro j
  by_cases here : j = i
  · subst here
    rw [Server.setWorker_self]
    exact grown
  · rw [Server.setWorker_other w here]
    exact Grown.refl _

theorem push (flag : Bool) {cb : Functor} (own : cb.IsOwn) : Queues s (s.push i flag cb) :=
  setWorker ⟨rfl, rfl, rfl, rfl, rfl, rfl, rfl, [cb], rfl, by simpa using own⟩

theorem commit (keeps : Keeps (s.session o) y) : Queues s (s.commit id o y) := by
  obtain ⟨extra, pending, notices⟩ := keeps.functors
  have own : ∀ cb ∈ extra, cb.IsOwn := by
    intro cb member
    rw [notices cb member]
    trivial
  have loops : Queues s (s.setWorker o.home { s.workers o.home with loop := y.loop }) :=
    setWorker ⟨rfl, rfl, rfl, rfl, keeps.eventHanding, keeps.callingPendingFunctors,
      keeps.currentActiveChannel, extra, pending, own⟩
  exact ⟨loops.alive, loops.threads, loops.worker⟩

theorem removeConnectionInLoop (ok : s.removeConnectionInLoop id = .ok t) : Queues s t := by
  unfold Server.removeConnectionInLoop at ok
  split at ok
  · cases ok
  next o _ =>
    obtain ⟨_, _, ok⟩ := Checked.bind_ok_iff.mp ok
    cases ok
    have unmapped : Queues s ((s.unmapped o.conn.fd).record id [.erased]) :=
      of_workers rfl rfl rfl
    exact unmapped.trans (push _ trivial)

theorem removeConnection (ok : s.removeConnection id o = .ok t) : Queues s t := by
  unfold Server.removeConnection at ok
  split at ok
  · cases ok
  · split at ok
    · exact removeConnectionInLoop ok
    · cases ok
      exact push _ trivial

theorem onConnection (call : Call)
    (registered : ∀ o, s.objects id = some o → (s.session o).IsRegistered)
    (ok : s.onConnection id (fun x => call.step x) = .ok t) : Queues s t := by
  cases found : s.objects id with
  | none =>
    simp only [Server.onConnection, found] at ok
    cases ok
  | some o =>
    obtain ⟨y, called, outcome⟩ := Server.onConnection_ok found ok
    have committed : Queues s (s.commit id o y) :=
      commit (Call.step_keeps (registered o found) called).1
    rcases outcome with ⟨-, removed⟩ | ⟨-, rfl⟩
    · exact committed.trans (removeConnection removed)
    · exact committed

theorem connectEstablished
    (registered : ∀ o, s.objects id = some o → (s.session o).IsRegistered)
    (ok : s.connectEstablished id = .ok t) : Queues s t := by
  unfold Server.connectEstablished at ok
  split at ok
  · cases ok
  next o _ =>
    have recorded : Queues s (s.record id
        [.established ((s.workers o.home).loop.poller.channels o.conn.fd)]) :=
      of_workers rfl rfl rfl
    exact recorded.trans (onConnection .connectEstablished registered ok)

theorem connectDestoryed
    (registered : ∀ o, s.objects id = some o → (s.session o).IsRegistered)
    (ok : s.connectDestoryed id = .ok t) : Queues s t := by
  unfold Server.connectDestoryed at ok
  split at ok
  · cases ok
  next o _ =>
    have recorded : Queues s (s.record id [.destoryed (s.workers o.home).loop.eventHanding]) :=
      of_workers rfl rfl rfl
    exact recorded.trans (onConnection .connectDestoryed registered ok)

theorem runFunctor {cb : Functor}
    (registered : ∀ id o, s.objects id = some o → (s.session o).IsRegistered)
    (ok : s.runFunctor i cb = .ok t) : Queues s t := by
  cases cb with
  | connectEstablished id => exact connectEstablished (registered id) ok
  | removeConnectionInLoop id =>
    simp only [Server.runFunctor] at ok
    split at ok
    · cases ok
    · exact removeConnectionInLoop ok
  | connectDestoryed id => exact connectDestoryed (registered id) ok
  | writeComplete id =>
    cases ok
    exact refl s
  | sendInLoop id data => cases ok
  | shutdownInLoop id => cases ok

theorem newConnection (inv : Inv s) {sockfd : Nat} (closed : s.opened sockfd = false)
    (ok : s.newConnection sockfd = .ok t) : Queues s t := by
  rw [Server.newConnection_eq (inv.unmapped closed)] at ok
  have accepted : Queues s (s.accepted sockfd) := of_workers rfl rfl rfl
  have registered := Server.accepted_registered inv closed
  split at ok
  · exact accepted.trans (connectEstablished registered ok)
  · cases ok
    exact accepted.trans (push _ trivial)

theorem runCallback {callback : Channel.Callback} {io : Io} (inv : Inv s)
    (ok : s.runCallback i callback io = .ok t) : Queues s t := by
  have registered := Server.registered_of_pollers inv (fun _ _ found => found) (fun _ => rfl)
  unfold Server.runCallback at ok
  split at ok
  next id _ => exact onConnection .handleClose (registered id) ok
  next id _ => exact onConnection .handleError (registered id) ok
  next id result _ => exact onConnection (.handleRead result) (registered id) ok
  next id result _ => exact onConnection (.handleWrite result) (registered id) ok
  next connfd _ =>
    obtain ⟨_, allowed, ok⟩ := Checked.bind_ok_iff.mp ok
    obtain ⟨-, -, closed⟩ := Checked.require_ok_iff.mp allowed
    exact newConnection inv closed ok
  next =>
    cases ok
    exact refl s
  next =>
    cases ok
    exact setWorker ⟨rfl, rfl, rfl, rfl, rfl, rfl, rfl, [], by simp, by simp⟩
  all_goals
    first
      | (cases ok; done)
      | (cases ok; exact refl s)

end Queues

/-! ### What a step does to a loop -/

/-- The steps of loop `j`, each with what it needs and where it leaves the loop; a step of another loop
or of the user can only queue functors for it. -/
inductive LoopMove (s : Server) (j : Nat) (l : ServerStep) (w : Worker) : Prop
  | grown (foreign : ∀ io, l ≠ .callback j io) (grown : Grown (s.workers j) w)
  | poll (active : List (ChannelPtr × Mask)) (label : l = .poll j active)
      (waiting : (s.workers j).loop.eventHanding = false)
      (reported : ∀ report ∈ active, s.reports j report = true)
      (nodup : (active.map Prod.fst).Nodup)
      (after : w = { s.workers j with
        dispatch := active
        loop := { (s.workers j).loop with
          eventHanding := true
          activeChannels := active.map Prod.fst } })
  | nextChannel (channel : ChannelPtr) (revents : Mask) (rest : List (ChannelPtr × Mask))
      (label : l = .nextChannel j) (handling : (s.workers j).loop.eventHanding = true)
      (dispatch : (s.workers j).dispatch = (channel, revents) :: rest)
      (after : w = { s.workers j with
        dispatch := rest
        todo := Channel.callbacks revents
        loop := { (s.workers j).loop with currentActiveChannel := some channel } })
  | callback (callback : Channel.Callback) (io : Io) (rest : List Channel.Callback)
      (label : l = .callback j io) (todo : (s.workers j).todo = callback :: rest)
      (after : Grown { s.workers j with todo := rest } w)
  | endDispatch (label : l = .endDispatch j) (todo : (s.workers j).todo = [])
      (dispatch : (s.workers j).dispatch = [])
      (after : w = { s.workers j with
        loop := { (s.workers j).loop with eventHanding := false, currentActiveChannel := none } })
  | swap (label : l = .swap j)
      (after : w = { s.workers j with
        batch := (s.workers j).loop.pendingFunctors
        loop := { (s.workers j).loop with callingPendingFunctors := true, pendingFunctors := [] } })
  | functor (cb : Functor) (rest : List Functor) (label : l = .functor j)
      (calling : (s.workers j).loop.callingPendingFunctors = true)
      (batch : (s.workers j).batch = cb :: rest)
      (after : Grown { s.workers j with batch := rest, ran := (s.workers j).ran ++ [cb] } w)
  | finish (label : l = .finish j)
      (after : w = { s.workers j with
        ran := []
        loop := { (s.workers j).loop with callingPendingFunctors := false } })

namespace Server

variable {s t : Server} {l : ServerStep} {i : Nat}

theorem step_loop (inv : Inv s) (taken : s.step l = .ok t) (j : Nat) :
    LoopMove s j l (t.workers j) := by
  have registered := registered_of_pollers inv (fun _ _ found => found) (fun _ => rfl)
  have queued : (∀ i io, l ≠ .callback i io) → Queues s t → LoopMove s j l (t.workers j) :=
    fun quiet queues => .grown (quiet j) (queues.worker j)
  -- A step of loop `i` leaves the others as they are.
  have own : ∀ i w, (∀ i io, l ≠ .callback i io) → t = s.setWorker i w →
      (j = i → LoopMove s j l w) → LoopMove s j l (t.workers j) := by
    rintro i w quiet rfl move
    by_cases here : j = i
    · subst here
      rw [setWorker_self]
      exact move rfl
    · rw [setWorker_other w here]
      exact .grown (quiet j) (Grown.refl _)
  cases l with
  | poll i active =>
    obtain ⟨_, allowed, ok⟩ := Checked.bind_ok_iff.mp taken
    obtain ⟨waiting, -, reported, nodup⟩ := Checked.require_ok_iff.mp allowed
    cases ok
    refine own i _ (by simp) rfl ?_
    rintro rfl
    exact .poll active rfl waiting (List.all_eq_true.mp reported) nodup rfl
  | nextChannel i =>
    simp only [step] at taken
    split at taken
    next channel revents rest handling _ dispatch =>
      cases taken
      refine own i _ (by simp) rfl ?_
      rintro rfl
      exact .nextChannel channel revents rest rfl handling dispatch rfl
    next => cases taken
  | callback i io =>
    simp only [step] at taken
    split at taken
    next callback rest todo =>
      have queues := (Queues.runCallback (inv.todo rest) taken).worker j
      by_cases here : j = i
      · subst here
        rw [setWorker_self] at queues
        exact .callback callback io rest rfl todo queues
      · rw [setWorker_other _ here] at queues
        refine .grown ?_ queues
        rintro _ ⟨⟩
        exact here rfl
    next => cases taken
  | endDispatch i =>
    obtain ⟨_, allowed, ok⟩ := Checked.bind_ok_iff.mp taken
    obtain ⟨-, todo, dispatch⟩ := Checked.require_ok_iff.mp allowed
    cases ok
    refine own i _ (by simp) rfl ?_
    rintro rfl
    exact .endDispatch rfl todo dispatch rfl
  | swap i =>
    obtain ⟨_, _, ok⟩ := Checked.bind_ok_iff.mp taken
    cases ok
    refine own i _ (by simp) rfl ?_
    rintro rfl
    exact .swap rfl rfl
  | functor i =>
    simp only [step] at taken
    split at taken
    next cb rest calling batch =>
      have still := registered_of_pollers inv (r := s.popped i cb rest) (fun _ _ found => found)
        (setWorker_apply (fun w => w.loop.poller) rfl)
      have queues := (Queues.runFunctor still taken).worker j
      by_cases here : j = i
      · subst here
        rw [popped, setWorker_self] at queues
        exact .functor cb rest rfl calling batch queues
      · rw [popped, setWorker_other _ here] at queues
        exact .grown (by simp) queues
    next => cases taken
  | finish i =>
    obtain ⟨_, _, ok⟩ := Checked.bind_ok_iff.mp taken
    cases ok
    refine own i _ (by simp) rfl ?_
    rintro rfl
    exact .finish rfl rfl
  | send id data result =>
    exact queued (by simp) (Queues.onConnection (.send data result) (registered id) taken)
  | shutdown id => exact queued (by simp) (Queues.onConnection .shutdown (registered id) taken)
  | retrieveInput id len =>
    exact queued (by simp) (Queues.onConnection (.retrieveInput len) (registered id) taken)
  | release id =>
    simp only [step] at taken
    split at taken
    · cases taken
    · obtain ⟨_, _, ok⟩ := Checked.bind_ok_iff.mp taken
      obtain ⟨_, _, ok⟩ := Checked.bind_ok_iff.mp ok
      cases ok
      exact .grown (by simp) (Grown.refl _)
  | teardown =>
    obtain ⟨_, _, ok⟩ := Checked.bind_ok_iff.mp taken
    cases ok
    exact .grown (by simp) (Grown.refl _)
  | destroy sockfd =>
    simp only [step] at taken
    split at taken
    next id _ entry =>
      have unmapped : Queues s (s.unmapped sockfd) := Queues.of_workers rfl rfl rfl
      split at taken
      · cases taken
      · split at taken
        · have destroyed : Queues (s.unmapped sockfd) t :=
            Queues.connectDestoryed (registered id) taken
          exact queued (by simp) (unmapped.trans destroyed)
        · cases taken
          exact queued (by simp) (unmapped.trans (Queues.push _ trivial))
    next => cases taken

end Server

/-- The close callback comes first. -/
theorem callbacks_tail (revents : Mask) : .close ∉ (Channel.callbacks revents).tail := by
  unfold Channel.callbacks
  split <;> split <;> split <;> split <;> simp

theorem callbacks_length (revents : Mask) : (Channel.callbacks revents).length ≤ 4 := by
  unfold Channel.callbacks
  split <;> split <;> split <;> split <;> simp

theorem LoopMove.tidy {s : Server} {j : Nat} {l : ServerStep} {w : Worker}
    (move : LoopMove s j l w) (tidy : (s.workers j).Tidy) : w.Tidy := by
  cases move with
  | grown foreign grown => exact grown.tidy tidy
  | poll active label waiting reported nodup after =>
    subst after
    obtain ⟨-, -, none⟩ := tidy.waits waiting
    refine { tidy with waits := nofun, nodup := nodup, apart := ?_ }
    intro channel current
    have some : (s.workers j).loop.currentActiveChannel = some channel := current
    rw [none] at some
    cases some
  | nextChannel channel revents rest label handling dispatch after =>
    subst after
    have nodup := tidy.nodup
    rw [dispatch, List.map_cons, List.nodup_cons] at nodup
    refine { tidy with
      waits := ?_
      current := nofun
      close := callbacks_tail revents
      nodup := nodup.2
      apart := ?_ }
    · intro waiting
      have not : (s.workers j).loop.eventHanding = false := waiting
      rw [handling] at not
      cases not
    · rintro _ ⟨⟩
      exact nodup.1
  | callback callback io rest label todo after =>
    refine after.tidy { tidy with waits := ?_, current := ?_, close := ?_ }
    · intro waiting
      rw [(tidy.waits waiting).2.1] at todo
      cases todo
    · intro _
      exact tidy.current (by simp [todo])
    · have close := tidy.close
      rw [todo, List.tail_cons] at close
      exact fun member => close (List.mem_of_mem_tail member)
  | endDispatch label todo dispatch after =>
    subst after
    exact { tidy with
      waits := fun _ => ⟨dispatch, todo, rfl⟩
      current := fun some => absurd todo some
      apart := nofun }
  | swap label after =>
    subst after
    refine { tidy with ran := nofun, own := ?_ }
    intro cb member
    have pending : cb ∈ (s.workers j).loop.pendingFunctors := by simpa [Worker.queued] using member
    exact tidy.own cb (List.mem_append_right _ pending)
  | functor cb rest label calling batch after =>
    refine after.tidy { tidy with ran := ?_, own := ?_ }
    · intro resting
      have not : (s.workers j).loop.callingPendingFunctors = false := resting
      rw [calling] at not
      cases not
    · intro cb' member
      apply tidy.own cb'
      rw [Worker.queued, batch]
      exact List.mem_cons_of_mem _ member
  | finish label after =>
    subst after
    exact { tidy with ran := fun _ => rfl }

/-! ### Room for input -/

/-- There is room to read into the buffer at the latest when it is empty. -/
structure Buffer.Roomy (b : Buffer) : Prop where
  inv : b.Inv
  room : Buffer.kCheapPrepend < b.buffer.length

namespace Buffer.Roomy

variable {b after : Buffer}

theorem retrieve (roomy : b.Roomy) {len : Nat} (ok : b.retrieve len = .ok after) :
    after.Roomy := by
  obtain ⟨_, asserted, _⟩ := Checked.bind_ok_iff.mp ok
  obtain ⟨_, ok', inv, -⟩ := Buffer.retrieve_spec roomy.inv (cassert_ok_iff.mp asserted)
  rw [ok] at ok'
  cases ok'
  refine ⟨inv, ?_⟩
  rcases Buffer.retrieve_cases ok with ⟨_, rfl⟩ | ⟨_, rfl⟩
  · exact roomy.room
  · exact roomy.room

theorem readFd (roomy : b.Roomy) {result : ReadResult} {n : Int}
    (ok : b.readFd result = .ok (n, after)) : after.Roomy := by
  obtain ⟨_, _, ok⟩ := Checked.bind_ok_iff.mp ok
  obtain ⟨⟨m, c⟩, received, ok⟩ := Checked.bind_ok_iff.mp ok
  obtain ⟨_, _, ok⟩ := Checked.bind_ok_iff.mp ok
  cases ok
  cases result with
  | failed errno =>
    cases received
    exact roomy
  | received bytes =>
    obtain ⟨whole, received', inv, -⟩ := Buffer.receive_spec roomy.inv bytes
    obtain rfl : whole = after := (Prod.mk.inj (Except.ok.inj (received'.symm.trans received))).2
    have grown := (Buffer.receive_room roomy.inv received).1
    exact ⟨inv, Nat.lt_of_lt_of_le roomy.room grown⟩

end Buffer.Roomy

theorem Session.handleClose_inputBuffer {x y : Session} (registered : x.IsRegistered)
    (ok : x.handleClose = .ok y) : y.conn.inputBuffer = x.conn.inputBuffer := by
  rw [(Session.handleClose_inv registered ok).1, Session.disconnected,
    Session.connectionCallback_conn]
  rfl

theorem Call.step_roomy {x y : Session} {call : Call} (roomy : x.conn.inputBuffer.Roomy)
    (registered : x.IsRegistered) (ok : call.step x = .ok y) : y.conn.inputBuffer.Roomy := by
  have same : y.conn.inputBuffer = x.conn.inputBuffer → y.conn.inputBuffer.Roomy := by
    intro same
    rw [same]
    exact roomy
  cases call with
  | connectEstablished =>
    apply same
    rw [Call.step, Session.connectEstablished_eq registered
      (Session.connecting_of_connectEstablished ok)] at ok
    cases ok
    rw [Session.established, Session.connectionCallback_conn]
    rfl
  | handleRead result =>
    obtain ⟨n, inputBuffer, read, outcome⟩ := Session.handleRead_inv ok
    have after : inputBuffer.Roomy := roomy.readFd read
    have still : (x.withInput inputBuffer).IsRegistered := registered
    rcases outcome with ⟨_, rfl⟩ | ⟨_, closed⟩ | ⟨_, rfl⟩
    · split <;> exact after
    · rw [Session.handleClose_inputBuffer still closed]
      exact after
    · exact after
  | handleWrite result => exact same (Session.handleWrite_inputBuffer ok)
  | handleClose => exact same (Session.handleClose_inputBuffer registered ok)
  | handleError =>
    cases ok
    exact roomy
  | connectDestoryed =>
    apply same
    rw [Session.connectDestoryed_eq registered ok]
    split
    · rw [Session.disconnected, Session.removed, Session.connectionCallback_conn]
      rfl
    · rfl
  | send data result =>
    apply same
    simp only [Call.step, Session.send] at ok
    split at ok
    · exact Session.sendInLoop_inputBuffer ok
    · cases ok
      rfl
  | shutdown =>
    cases ok
    apply same
    unfold Session.shutdown
    split
    · rw [Session.shutdownInLoop_conn]
      rfl
    · rfl
  | retrieveInput len =>
    obtain ⟨inputBuffer, retrieved, ok⟩ := Checked.bind_ok_iff.mp ok
    cases ok
    exact roomy.retrieve retrieved
  | storeDisconnecting =>
    cases ok
    exact roomy
  | sendInLoop data result => exact same (Session.sendInLoop_inputBuffer ok)
  | shutdownInLoop =>
    cases ok
    exact same (by rw [Session.shutdownInLoop_conn])

/-! ### A server that is alive -/

/-- `handle_close` takes the connection. -/
def TcpConnection.Closable (c : TcpConnection) : Prop :=
  c.state = .kConnected ∨ c.state = .kDisconnecting

/-- What the loops have in hand: the channels whose turn is to come can be closed, and so can the
current one if its close callback is to come. -/
structure Ready (s : Server) : Prop where
  tidy : ∀ j, (s.workers j).Tidy
  listed : ∀ j id, .connection id ∈ (s.workers j).dispatch.map Prod.fst →
    ∃ o, s.objects id = some o ∧ o.home = j ∧ o.conn.Closable
  current : ∀ j id, (s.workers j).loop.currentActiveChannel = some (.connection id) →
    ∃ o, s.objects id = some o ∧ o.home = j ∧ (.close ∈ (s.workers j).todo → o.conn.Closable)
  roomy : ∀ id o, s.objects id = some o → o.conn.inputBuffer.Roomy

section

variable {s t : Server} {l : ServerStep} {id j : Nat} {o : Object}

/-- A channel that the poller reports is one of a connection that can be closed. -/
theorem Inv.reports_closable (inv : Inv s) {report : ChannelPtr × Mask}
    (reports : s.reports j report = true) (which : report.1 = .connection id) :
    ∃ o, s.objects id = some o ∧ o.home = j ∧ o.conn.Closable := by
  unfold Server.reports at reports
  rw [which] at reports
  cases found : s.objects id with
  | none => simp [found] at reports
  | some o =>
    simp only [found, Bool.and_eq_true, beq_iff_eq] at reports
    obtain ⟨⟨rfl, -⟩, interested⟩ := reports
    refine ⟨o, rfl, rfl, ?_⟩
    obtain ⟨stage, torn, placed⟩ := inv.placed id o found
    have shape := placed.shape
    have registered := placed.registered
    simp only [Session.IsRegistered, Registered, Server.session, placed.channelFd] at registered
    -- Only an added channel is in the interest list, and only an open connection has one.
    cases stage with
    | «open» => exact shape.1
    | _ =>
      simp only [shape.2.1] at registered
      rw [registered.2] at interested
      cases interested

/-- A connection that can be closed, or whose channel is the current one, has its object still after
the step, and can be closed if it could be, unless the step is a callback of its own other than the
error callback. -/
theorem Inv.persists (inv : Inv s) (alive : s.alive = true) (taken : s.step l = .ok t)
    (found : s.objects id = some o) (held : o.conn.Closable ∨
      (s.workers o.home).loop.currentActiveChannel = some (.connection id)) :
    ∃ o', t.objects id = some o' ∧ o'.home = o.home ∧
      (o.conn.Closable → (∀ j io, l = .callback j io →
        (s.workers j).loop.currentActiveChannel = some (.connection id) →
        (s.workers j).todo.head? = some .error) → o'.conn.Closable) := by
  obtain ⟨stage, torn, placed⟩ := inv.placed id o found
  cases Server.step_seen inv taken id with
  | unseen other unseen => exact ⟨o, unseen.object.trans found, rfl, fun closable _ => closable⟩
  | served call called served =>
    obtain ⟨o₁, y, loop, found', registered, ran, there, -⟩ := served
    rw [found] at found'
    cases found'
    refine ⟨_, there, rfl, ?_⟩
    intro closable calm
    obtain rfl : stage = .open := placed.shape.open_of_closable closable
    have stays : NeutralStep ⟨o.conn, loop, []⟩ y → y.conn.Closable :=
      fun neutral => (neutral.shape .open placed.shape).1
    cases l with
    | callback i io =>
      have first : ∀ {callback : Channel.Callback} {todo : List Channel.Callback},
          (s.workers i).loop.currentActiveChannel = some (.connection id) →
          (s.workers i).todo = callback :: todo → callback = .error := by
        intro callback todo current queue
        have first := calm i io rfl current
        rw [queue] at first
        exact Option.some.inj first
      simp only [Server.callOf] at called
      split at called
      next current queue =>
        cases called
        cases first current queue
      next current queue =>
        cases called
        cases ran
        exact stays (Session.handleError_neutral registered)
      next current queue =>
        cases called
        cases first current queue
      next current queue =>
        cases called
        cases first current queue
      next => cases called
    | functor i =>
      exfalso
      simp only [Server.callOf] at called
      split at called
      next batch =>
        cases called
        have connecting : o.conn.state = .kConnecting :=
          Session.connecting_of_connectEstablished ran
        rcases closable with state | state <;> simp [state] at connecting
      next batch =>
        cases called
        cases calling : (s.workers i).loop.callingPendingFunctors with
        | false =>
          simp only [Server.step, calling] at taken
          cases taken
        | true =>
          -- A live server destroys a connection only once it is erased.
          obtain ⟨_, stage, torn, found', erased, -, destroyable, -⟩ :=
            inv.functor_destoryed calling batch
          rw [found] at found'
          cases found'
          rcases destroyable with ⟨rfl, -⟩ | ⟨rfl, -⟩
          · cases erased.shape.open_of_closable closable
          · cases erased.whole alive
      next => cases called
    | send id' data result =>
      cases called
      exact stays (Session.send_neutral registered ran)
    | shutdown id' =>
      cases called
      cases ran
      exact stays (Session.shutdown_neutral registered)
    | retrieveInput id' len =>
      cases called
      obtain ⟨inputBuffer, _, ran⟩ := Checked.bind_ok_iff.mp ran
      cases ran
      exact stays (Session.withInput_neutral registered inputBuffer)
    | destroy sockfd =>
      simp only [Server.step, alive] at taken
      cases taken
    | _ => cases called
  | born uncalled born =>
    have early := inv.early found
    rw [born.1] at early
    exact absurd early (Nat.lt_irrefl _)
  | released uncalled released =>
    exfalso
    have free := released.free o found
    simp only [Server.referenced, Bool.or_eq_false_iff] at free
    rcases held with closable | current
    · obtain rfl : stage = .open := placed.shape.open_of_closable closable
      have entry := placed.entry
      simp [placed.whole alive, Stage.mapped] at entry
      simp [entry] at free
    · simp [current] at free

namespace Ready

/-- Only the loop of a connection handles its channel. -/
theorem current_home (ready : Ready s) (found : s.objects id = some o)
    (current : (s.workers j).loop.currentActiveChannel = some (.connection id)) : o.home = j := by
  obtain ⟨o', found', home, -⟩ := ready.current j id current
  rw [found] at found'
  cases found'
  exact home

/-- A channel that was listed already. -/
theorem still_listed (ready : Ready s) (inv : Inv s) (alive : s.alive = true)
    (taken : s.step l = .ok t) (member : .connection id ∈ (s.workers j).dispatch.map Prod.fst) :
    ∃ o, t.objects id = some o ∧ o.home = j ∧ o.conn.Closable := by
  obtain ⟨o, found, rfl, closable⟩ := ready.listed j id member
  obtain ⟨o', there, home, stays⟩ := inv.persists alive taken found (.inl closable)
  refine ⟨o', there, home, stays closable ?_⟩
  -- A channel whose turn is to come is not the current one of its loop, nor of any other.
  rintro j' io rfl current
  obtain rfl := ready.current_home found current
  exact absurd member ((ready.tidy o.home).apart _ current)

/-- A channel that was the current one already. -/
theorem still_current (ready : Ready s) (inv : Inv s) (alive : s.alive = true)
    (taken : s.step l = .ok t)
    (current : (s.workers j).loop.currentActiveChannel = some (.connection id)) :
    ∃ o, t.objects id = some o ∧ o.home = j ∧
      ((∀ io, l ≠ .callback j io) → .close ∈ (s.workers j).todo → o.conn.Closable) := by
  obtain ⟨o, found, rfl, closes⟩ := ready.current j id current
  obtain ⟨o', there, home, stays⟩ := inv.persists alive taken found (.inr current)
  refine ⟨o', there, home, ?_⟩
  intro quiet member
  refine stays (closes member) ?_
  rintro j' io rfl current'
  obtain rfl := ready.current_home found current'
  exact absurd rfl (quiet io)

theorem listed_after (ready : Ready s) (inv : Inv s) (alive : s.alive = true)
    (taken : s.step l = .ok t) (member : .connection id ∈ (t.workers j).dispatch.map Prod.fst) :
    ∃ o, t.objects id = some o ∧ o.home = j ∧ o.conn.Closable := by
  have still : .connection id ∈ (s.workers j).dispatch.map Prod.fst →
      ∃ o, t.objects id = some o ∧ o.home = j ∧ o.conn.Closable :=
    ready.still_listed inv alive taken
  cases Server.step_loop inv taken j with
  | grown foreign grown => exact still (grown.dispatch ▸ member)
  | poll active label waiting reported nodup after =>
    rw [after] at member
    obtain ⟨report, among, which⟩ := List.mem_map.mp member
    obtain ⟨o, found, rfl, closable⟩ := inv.reports_closable (reported report among) which
    obtain ⟨o', there, home, stays⟩ := inv.persists alive taken found (.inl closable)
    subst label
    exact ⟨o', there, home, stays closable nofun⟩
  | nextChannel channel revents rest label handling dispatch after =>
    rw [after] at member
    exact still (by rw [dispatch]; exact List.mem_cons_of_mem _ member)
  | callback callback io rest label todo after => exact still (after.dispatch ▸ member)
  | endDispatch label todo dispatch after =>
    rw [after] at member
    exact still member
  | swap label after =>
    rw [after] at member
    exact still member
  | functor cb rest label calling batch after => exact still (after.dispatch ▸ member)
  | finish label after =>
    rw [after] at member
    exact still member

theorem current_after (ready : Ready s) (inv : Inv s) (alive : s.alive = true)
    (taken : s.step l = .ok t)
    (current : (t.workers j).loop.currentActiveChannel = some (.connection id)) :
    ∃ o, t.objects id = some o ∧ o.home = j ∧
      (.close ∈ (t.workers j).todo → o.conn.Closable) := by
  have closed : ∀ {todo : List Channel.Callback}, todo = (s.workers j).todo →
      (s.workers j).loop.currentActiveChannel = some (.connection id) →
      (∀ io, l ≠ .callback j io) → ∃ o, t.objects id = some o ∧ o.home = j ∧
        (.close ∈ todo → o.conn.Closable) := by
    rintro _ rfl before quiet
    obtain ⟨o, there, home, closes⟩ := ready.still_current inv alive taken before
    exact ⟨o, there, home, closes quiet⟩
  cases Server.step_loop inv taken j with
  | grown foreign grown => exact closed grown.todo (grown.current ▸ current) foreign
  | poll active label waiting reported nodup after =>
    rw [after] at current
    have before : (s.workers j).loop.currentActiveChannel = some (.connection id) := current
    rw [((ready.tidy j).waits waiting).2.2] at before
    cases before
  | nextChannel channel revents rest label handling dispatch after =>
    rw [after] at current
    cases current
    have member : .connection id ∈ (s.workers j).dispatch.map Prod.fst := by simp [dispatch]
    obtain ⟨o, there, home, closable⟩ := ready.still_listed inv alive taken member
    exact ⟨o, there, home, fun _ => closable⟩
  | callback callback io rest label todo after =>
    obtain ⟨o, there, home, -⟩ :=
      ready.still_current inv alive taken (after.current ▸ current)
    refine ⟨o, there, home, ?_⟩
    -- The close callback comes first, so it is not among those to come.
    intro member
    have once := (ready.tidy j).close
    rw [todo, List.tail_cons] at once
    rw [after.todo] at member
    exact absurd member once
  | endDispatch label todo dispatch after =>
    rw [after] at current
    cases current
  | swap label after =>
    rw [after] at current ⊢
    exact closed rfl current (by simp [label])
  | functor cb rest label calling batch after =>
    exact closed after.todo (after.current ▸ current) (by simp [label])
  | finish label after =>
    rw [after] at current ⊢
    exact closed rfl current (by simp [label])

theorem roomy_after (ready : Ready s) (inv : Inv s) (taken : s.step l = .ok t)
    (found : t.objects id = some o) : o.conn.inputBuffer.Roomy := by
  cases Server.step_seen inv taken id with
  | unseen other unseen => exact ready.roomy id o (unseen.object ▸ found)
  | served call called served =>
    obtain ⟨o₁, y, loop, found', registered, ran, there, -⟩ := served
    rw [there] at found
    cases found
    exact Call.step_roomy (ready.roomy id o₁ found') registered ran
  | born uncalled born =>
    obtain ⟨-, o₁, found₁, sockfd, made⟩ := born
    rw [found] at found₁
    cases found₁
    have fresh : (s.newObject sockfd).conn.inputBuffer.Roomy := by
      refine ⟨Buffer.inv_new _, ?_⟩
      simp [Server.newObject, TcpConnection.accepted, TcpConnection.new, Buffer.new,
        Buffer.kInitialSize]
    rcases made with ⟨rfl, -⟩ | ⟨y, loop, registered, ran, conn, -⟩
    · exact fresh
    · have called : Call.connectEstablished.step ⟨(s.newObject sockfd).conn, loop, []⟩ = .ok y :=
        ran
      rw [conn]
      exact Call.step_roomy fresh registered called
  | released uncalled released =>
    rw [released.object] at found
    cases found

/-- **Step lemma**: every step of a server that is alive keeps it ready. -/
theorem after (ready : Ready s) (inv : Inv s) (alive : s.alive = true)
    (taken : s.step l = .ok t) : Ready t where
  tidy j := (Server.step_loop inv taken j).tidy (ready.tidy j)
  listed _ _ member := ready.listed_after inv alive taken member
  current _ _ current := ready.current_after inv alive taken current
  roomy _ _ found := ready.roomy_after inv taken found

theorem start (threads listenfd : Nat) (wakeupfd : Nat → Nat) (message writeComplete : Bool) :
    Ready (Server.start threads listenfd wakeupfd message writeComplete) where
  tidy j := by
    constructor <;> simp [Server.start, EventLoop.new, Worker.queued]
  listed _ _ member := by cases member
  current _ _ current := by cases current
  roomy _ _ found := by cases found

end Ready

end

end Clia.Net
