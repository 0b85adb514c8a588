import Clia.Net.NextLoop
import Clia.Net.Streams

/-!
# The streams of every connection

What a run of the whole server shows of the bytes of one connection. A step of the server calls at
most one function of one connection (`Server.callOf`), and for every other connection it changes
neither the object nor the effects (`Server.step_seen`); so what holds of the calls on one connection
holds of it in every schedule of the loops, whatever the other connections do.

## Main result

`Server.streams_intact`: in every run and for every connection, what the kernel took is the first part
of what was passed to `send`, in order, and while the object is there the rest is in its output
buffer; likewise what the user took is the first part of what the kernel delivered.
-/

namespace Clia.Net

open Reactor LabelledRun

/-! ### Calls -/

/-- The effects of a history. -/
def effectsOf (log : List Event) : List Effect :=
  log.filterMap fun
    | .effect effect => some effect
    | _ => none

@[simp] theorem effectsOf_append (xs ys : List Event) :
    effectsOf (xs ++ ys) = effectsOf xs ++ effectsOf ys := List.filterMap_append

@[simp] theorem effectsOf_effect (trace : List Effect) : effectsOf (trace.map .effect) = trace := by
  induction trace with
  | nil => rfl
  | cons effect trace ih => simp [effectsOf]

/-- The function that a step calls of a connection that is there already. -/
def Server.callOf (s : Server) : ServerStep → Option (Nat × Call)
  | .callback i io =>
    match (s.workers i).loop.currentActiveChannel, (s.workers i).todo, io with
    | some (.connection id), .close :: _, _ => some (id, .handleClose)
    | some (.connection id), .error :: _, _ => some (id, .handleError)
    | some (.connection id), .read :: _, .read result => some (id, .handleRead result)
    | some (.connection id), .write :: _, .write result => some (id, .handleWrite result)
    | _, _, _ => none
  | .functor i =>
    match (s.workers i).batch with
    | .connectEstablished id :: _ => some (id, .connectEstablished)
    | .connectDestoryed id :: _ => some (id, .connectDestoryed)
    | _ => none
  | .send id data result => some (id, .send data result)
  | .shutdown id => some (id, .shutdown)
  | .retrieveInput id len => some (id, .retrieveInput len)
  | .destroy sockfd =>
    match s.connections sockfd with
    | some id =>
      match s.objects id with
      | some o => if o.home = 0 then some (id, .connectDestoryed) else none
      | none => none
    | none => none
  | _ => none

/-- A step that shows nothing of the connection. -/
structure Unseen (s t : Server) (id : Nat) : Prop where
  object : t.objects id = s.objects id
  effects : effectsOf (t.log id) = effectsOf (s.log id)

/-- A function of the connection was called, on a loop that knows its channel. -/
def Served (s t : Server) (id : Nat) (call : Call) : Prop :=
  ∃ o y, ∃ loop : Loop, s.objects id = some o ∧ Session.IsRegistered ⟨o.conn, loop, []⟩ ∧
    call.step ⟨o.conn, loop, []⟩ = .ok y ∧ t.objects id = some { o with conn := y.conn } ∧
    effectsOf (t.log id) = effectsOf (s.log id) ++ y.trace

/-- `new_connection` has made the object, and established the connection at once or not. -/
def Born (s t : Server) (id : Nat) : Prop :=
  id = s.nextId ∧ ∃ o, t.objects id = some o ∧ ∃ sockfd,
    (o = s.newObject sockfd ∧ effectsOf (t.log id) = [] ∨
      ∃ y, ∃ loop : Loop, Session.IsRegistered ⟨(s.newObject sockfd).conn, loop, []⟩ ∧
        Session.connectEstablished ⟨(s.newObject sockfd).conn, loop, []⟩ = .ok y ∧
        o.conn = y.conn ∧ effectsOf (t.log id) = y.trace)

/-- The object is gone; nothing referred to it. -/
structure Released (s t : Server) (id : Nat) : Prop where
  free : ∀ o, s.objects id = some o → s.referenced id o = false
  object : t.objects id = none
  effects : effectsOf (t.log id) = effectsOf (s.log id)

namespace Unseen

variable {s t u : Server} {id id' i : Nat} {o : Object}

theorem trans (first : Unseen s t id) (second : Unseen t u id) : Unseen s u id :=
  ⟨second.object.trans first.object, second.effects.trans first.effects⟩

/-- What is recorded beside the effects is not seen. -/
theorem record {events : List Event} (none : effectsOf events = []) :
    Unseen s (s.record id' events) id := by
  constructor
  · rfl
  · by_cases own : id = id'
    · subst own
      rw [Server.log_record_self, effectsOf_append, none, List.append_nil]
    · rw [Server.log_record_other events own]

theorem removeConnectionInLoop (ok : s.removeConnectionInLoop id' = .ok t) : Unseen s t id := by
  unfold Server.removeConnectionInLoop at ok
  split at ok
  · cases ok
  next o _ =>
    obtain ⟨_, _, ok⟩ := Checked.bind_ok_iff.mp ok
    cases ok
    have erased : Unseen (s.unmapped o.conn.fd) ((s.unmapped o.conn.fd).record id' [.erased]) id :=
      record rfl
    exact ⟨erased.object, erased.effects⟩

theorem removeConnection (ok : s.removeConnection id' o = .ok t) : Unseen s t id := by
  unfold Server.removeConnection at ok
  split at ok
  · cases ok
  · split at ok
    · exact removeConnectionInLoop ok
    · cases ok
      exact ⟨rfl, rfl⟩

end Unseen

namespace Served

variable {s t u : Server} {id : Nat} {call : Call}

theorem after (first : Unseen s t id) (second : Served t u id call) : Served s u id call := by
  obtain ⟨o, y, loop, found, registered, called, here, trace⟩ := second
  exact ⟨o, y, loop, first.object ▸ found, registered, called, here, first.effects ▸ trace⟩

theorem before (first : Served s t id call) (second : Unseen t u id) : Served s u id call := by
  obtain ⟨o, y, loop, found, registered, called, here, trace⟩ := first
  exact ⟨o, y, loop, found, registered, called, second.object.trans here,
    second.effects.trans trace⟩

end Served

namespace Server

variable {s t r : Server} {id id' i : Nat} {o : Object} {call : Call}

theorem commit_unseen (y : Session) (other : id' ≠ id) : Unseen s (s.commit id o y) id' := by
  constructor
  · exact Function.update_of_ne other _ _
  · have same : (s.commit id o y).log id' = (s.record id (y.trace.map .effect)).log id' := rfl
    rw [same, log_record_other _ other]

theorem commit_served {y : Session} (found : s.objects id = some o)
    (registered : (s.session o).IsRegistered) (called : call.step (s.session o) = .ok y) :
    Served s (s.commit id o y) id call := by
  refine ⟨o, y, (s.workers o.home).loop, found, registered, called, ?_, ?_⟩
  · exact Function.update_self _ _ _
  · rw [log_commit_self, effectsOf_append, effectsOf_effect]

/-- A call of a function of a connection is seen by this connection only. -/
theorem onConnection_seen (call : Call)
    (registered : ∀ o, s.objects id = some o → (s.session o).IsRegistered)
    (ok : s.onConnection id (fun x => call.step x) = .ok t) :
    Served s t id call ∧ ∀ id', id' ≠ id → Unseen s t id' := by
  cases found : s.objects id with
  | none =>
    simp only [onConnection, found] at ok
    cases ok
  | some o =>
    obtain ⟨y, called, outcome⟩ := onConnection_ok found ok
    have served := commit_served found (registered o found) called
    rcases outcome with ⟨-, removed⟩ | ⟨-, rfl⟩
    · -- The close callback removes the connection, which is not seen by any.
      refine ⟨served.before (Unseen.removeConnection removed), ?_⟩
      intro id' other
      exact (commit_unseen y other).trans (Unseen.removeConnection removed)
    · exact ⟨served, fun id' other => commit_unseen y other⟩

/-- A connection is known to the poller of its loop also after steps that leave the pollers. -/
theorem registered_of_pollers (inv : Inv s) (objects : ∀ id o, r.objects id = some o →
      s.objects id = some o)
    (pollers : ∀ i, (r.workers i).loop.poller = (s.workers i).loop.poller) :
    ∀ id o, r.objects id = some o → (r.session o).IsRegistered := by
  intro id o found
  obtain ⟨stage, torn, placed⟩ := inv.placed id o (objects id o found)
  have registered := placed.registered
  simp only [Session.IsRegistered, session, Session.self, pollers] at registered ⊢
  exact registered

/-- The same behind a record of what is no effect. -/
theorem recorded_seen (call : Call) {events : List Event} (none : effectsOf events = [])
    (registered : ∀ o, s.objects id = some o → (s.session o).IsRegistered)
    (ok : (s.record id events).onConnection id (fun x => call.step x) = .ok t) :
    Served s t id call ∧ ∀ id', id' ≠ id → Unseen s t id' := by
  have still : ∀ o, (s.record id events).objects id = some o →
      ((s.record id events).session o).IsRegistered := registered
  obtain ⟨served, others⟩ := onConnection_seen call still ok
  exact ⟨served.after (Unseen.record none), fun id' other =>
    (Unseen.record none).trans (others id' other)⟩

theorem connectEstablished_seen
    (registered : ∀ o, s.objects id = some o → (s.session o).IsRegistered)
    (ok : s.connectEstablished id = .ok t) :
    Served s t id .connectEstablished ∧ ∀ id', id' ≠ id → Unseen s t id' := by
  unfold connectEstablished at ok
  split at ok
  · cases ok
  · exact recorded_seen .connectEstablished rfl registered ok

theorem connectDestoryed_seen
    (registered : ∀ o, s.objects id = some o → (s.session o).IsRegistered)
    (ok : s.connectDestoryed id = .ok t) :
    Served s t id .connectDestoryed ∧ ∀ id', id' ≠ id → Unseen s t id' := by
  unfold connectDestoryed at ok
  split at ok
  · cases ok
  · exact recorded_seen .connectDestoryed rfl registered ok

end Server

/-- What a step that makes this call shows of the connection `id`. -/
inductive Seen (called : Option (Nat × Call)) (s t : Server) (id : Nat) : Prop where
  | unseen (other : ∀ call, called ≠ some (id, call)) (unseen : Unseen s t id)
  | served (call : Call) (own : called = some (id, call)) (served : Served s t id call)
  | born (other : called = none) (born : Born s t id)
  | released (other : called = none) (released : Released s t id)

theorem Seen.of_some {s t : Server} {id id' : Nat} {call : Call}
    (seen : Seen (some (id', call)) s t id) :
    id = id' ∧ Served s t id call ∨ id ≠ id' ∧ Unseen s t id := by
  cases seen with
  | unseen other unseen => exact .inr ⟨fun same => other call (by rw [same]), unseen⟩
  | served call' own served =>
    cases own
    exact .inl ⟨rfl, served⟩
  | born other => cases other
  | released other => cases other

namespace Server

variable {s t r : Server} {id id' i : Nat}

/-- A step that calls one function of one connection, seen from any. -/
theorem seen_of_call {call : Call} (first : ∀ id, Unseen s r id)
    (seen : Served r t id' call ∧ ∀ id, id ≠ id' → Unseen r t id) (id : Nat) :
    Seen (some (id', call)) s t id := by
  by_cases own : id = id'
  · subst own
    exact .served call rfl (seen.1.after (first id))
  · refine .unseen ?_ ((first id).trans (seen.2 id own))
    rintro call' ⟨⟩
    exact own rfl

/-- The new object is registered as a channel that nobody knows yet. -/
theorem accepted_registered (inv : Inv s) {sockfd : Nat} (closed : s.opened sockfd = false) :
    ∀ o, (s.accepted sockfd).objects s.nextId = some o →
      ((s.accepted sockfd).session o).IsRegistered := by
  intro o found
  have here : (s.accepted sockfd).objects s.nextId = some (s.newObject sockfd) :=
    Function.update_self _ _ _
  rw [here] at found
  cases found
  exact (inv.accepted_held closed).registered

theorem newConnection_seen (inv : Inv s) {sockfd : Nat} (closed : s.opened sockfd = false)
    (ok : s.newConnection sockfd = .ok t) (id : Nat) : Unseen s t id ∨ Born s t id := by
  have made : ∀ id, id ≠ s.nextId → Unseen s (s.accepted sockfd) id := fun id other =>
    ⟨Function.update_of_ne other _ _, rfl⟩
  have here : (s.accepted sockfd).objects s.nextId = some (s.newObject sockfd) :=
    Function.update_self _ _ _
  have fresh : effectsOf ((s.accepted sockfd).log s.nextId) = [] := by
    have empty : (s.accepted sockfd).log s.nextId = [] := (inv.unborn s.nextId (Nat.le_refl _)).2
    rw [empty]
    rfl
  rw [newConnection_eq (inv.unmapped closed)] at ok
  split at ok
  · -- The base loop establishes the connection itself.
    obtain ⟨⟨o, y, loop, found, registered, called, there, trace⟩, others⟩ :=
      connectEstablished_seen (accepted_registered inv closed) ok
    by_cases own : id = s.nextId
    · subst own
      rw [here] at found
      cases found
      rw [fresh, List.nil_append] at trace
      exact .inr ⟨rfl, _, there, sockfd, .inr ⟨y, loop, registered, called, rfl, trace⟩⟩
    · exact .inl ((made id own).trans (others id own))
  · cases ok
    by_cases own : id = s.nextId
    · subst own
      exact .inr ⟨rfl, _, here, sockfd, .inl ⟨rfl, fresh⟩⟩
    · exact .inl ((made id own).trans ⟨rfl, rfl⟩)

theorem runFunctor_seen {cb : Functor} {batch : List Functor} (inv : Inv s)
    (queue : (s.workers i).batch = cb :: batch)
    (ok : (s.popped i cb batch).runFunctor i cb = .ok t) (id : Nat) :
    Seen (s.callOf (.functor i)) s t id := by
  have first : ∀ id, Unseen s (s.popped i cb batch) id := fun id => ⟨rfl, rfl⟩
  have registered := registered_of_pollers inv (r := s.popped i cb batch) (fun _ _ found => found)
    (setWorker_apply (fun w => w.loop.poller) rfl)
  cases cb with
  | connectEstablished id' =>
    simp only [callOf, queue]
    exact seen_of_call first (connectEstablished_seen (registered id') ok) id
  | connectDestoryed id' =>
    simp only [callOf, queue]
    exact seen_of_call first (connectDestoryed_seen (registered id') ok) id
  | removeConnectionInLoop id' =>
    simp only [callOf, queue]
    simp only [runFunctor] at ok
    split at ok
    · cases ok
    · exact .unseen (by simp) ((first id).trans (Unseen.removeConnectionInLoop ok))
  | writeComplete id' =>
    simp only [callOf, queue]
    cases ok
    exact .unseen (by simp) (first id)
  | sendInLoop id' data => cases ok
  | shutdownInLoop id' => cases ok

theorem runCallback_seen {callback : Channel.Callback} {todo : List Channel.Callback} {io : Io}
    (inv : Inv s) (queue : (s.workers i).todo = callback :: todo)
    (ok : (s.setWorker i { s.workers i with todo := todo }).runCallback i callback io = .ok t)
    (id : Nat) : Seen (s.callOf (.callback i io)) s t id := by
  have inv' : Inv (s.setWorker i { s.workers i with todo := todo }) := inv.todo todo
  have current : ((s.setWorker i { s.workers i with todo := todo }).workers
      i).loop.currentActiveChannel = (s.workers i).loop.currentActiveChannel := by
    rw [setWorker_self]
  have first : ∀ id, Unseen s (s.setWorker i { s.workers i with todo := todo }) id :=
    fun id => ⟨rfl, rfl⟩
  have registered := registered_of_pollers inv' (fun _ _ found => found) (fun _ => rfl)
  unfold runCallback at ok
  rw [current] at ok
  split at ok
  next here =>
    simp only [callOf, here, queue]
    exact seen_of_call first (onConnection_seen .handleClose (registered _) ok) id
  next here =>
    simp only [callOf, here, queue]
    exact seen_of_call first (onConnection_seen .handleError (registered _) ok) id
  next result here =>
    simp only [callOf, here, queue]
    exact seen_of_call first (onConnection_seen (.handleRead result) (registered _) ok) id
  next result here =>
    simp only [callOf, here, queue]
    exact seen_of_call first (onConnection_seen (.handleWrite result) (registered _) ok) id
  next connfd here =>
    simp only [callOf, here, queue]
    obtain ⟨_, allowed, ok⟩ := Checked.bind_ok_iff.mp ok
    obtain ⟨-, -, closed⟩ := Checked.require_ok_iff.mp allowed
    -- The callback is off the list; the new object does not depend on it.
    rcases newConnection_seen inv' closed ok id with unseen | born
    · exact .unseen (by simp) ((first id).trans unseen)
    · exact .born rfl born
  next here =>
    simp only [callOf, here, queue]
    cases ok
    exact .unseen (by simp) (first id)
  next here =>
    simp only [callOf, here, queue]
    cases ok
    exact .unseen (by simp) ⟨rfl, rfl⟩
  all_goals
    first
      | (cases ok; done)
      | (rename_i here
         simp only [callOf, here, queue]
         cases ok
         exact .unseen (by simp) (first id))

/-- **Step lemma**: a step calls a function of one connection, makes one or lets one go, or it is not
seen by any connection. -/
theorem step_seen {l : ServerStep} (inv : Inv s) (taken : s.step l = .ok t) (id : Nat) :
    Seen (s.callOf l) s t id := by
  have registered := registered_of_pollers inv (fun _ _ found => found) (fun _ => rfl)
  have still : ∀ id, Unseen s s id := fun _ => ⟨rfl, rfl⟩
  cases l with
  | poll i active =>
    obtain ⟨_, _, ok⟩ := Checked.bind_ok_iff.mp taken
    cases ok
    exact .unseen (by simp [callOf]) ⟨rfl, rfl⟩
  | nextChannel i =>
    simp only [step] at taken
    split at taken
    · cases taken
      exact .unseen (by simp [callOf]) ⟨rfl, rfl⟩
    · cases taken
  | callback i io =>
    simp only [step] at taken
    split at taken
    next queue => exact runCallback_seen inv queue taken id
    next => cases taken
  | endDispatch i =>
    obtain ⟨_, _, ok⟩ := Checked.bind_ok_iff.mp taken
    cases ok
    exact .unseen (by simp [callOf]) ⟨rfl, rfl⟩
  | swap i =>
    obtain ⟨_, _, ok⟩ := Checked.bind_ok_iff.mp taken
    cases ok
    exact .unseen (by simp [callOf]) ⟨rfl, rfl⟩
  | functor i =>
    simp only [step] at taken
    split at taken
    next queue => exact runFunctor_seen inv queue taken id
    next => cases taken
  | finish i =>
    obtain ⟨_, _, ok⟩ := Checked.bind_ok_iff.mp taken
    cases ok
    exact .unseen (by simp [callOf]) ⟨rfl, rfl⟩
  | send id' data result =>
    exact seen_of_call still (onConnection_seen (.send data result) (registered id') taken) id
  | shutdown id' =>
    exact seen_of_call still (onConnection_seen .shutdown (registered id') taken) id
  | retrieveInput id' len =>
    exact seen_of_call still (onConnection_seen (.retrieveInput len) (registered id') taken) id
  | release id' =>
    simp only [step] at taken
    split at taken
    · cases taken
    next o found =>
      obtain ⟨_, free, ok⟩ := Checked.bind_ok_iff.mp taken
      obtain ⟨_, _, ok⟩ := Checked.bind_ok_iff.mp ok
      cases ok
      by_cases own : id = id'
      · subst own
        refine .released rfl ⟨?_, Function.update_self _ _ _, rfl⟩
        intro o' found'
        rw [found] at found'
        cases found'
        exact Checked.require_ok_iff.mp free
      · exact .unseen (by simp [callOf]) ⟨Function.update_of_ne own _ _, rfl⟩
  | teardown =>
    obtain ⟨_, _, ok⟩ := Checked.bind_ok_iff.mp taken
    cases ok
    exact .unseen (by simp [callOf]) ⟨rfl, rfl⟩
  | destroy sockfd =>
    simp only [step] at taken
    split at taken
    next id' _ entry =>
      have first : ∀ id, Unseen s (s.unmapped sockfd) id := fun id => ⟨rfl, rfl⟩
      split at taken
      · cases taken
      next o found =>
        have found : s.objects id' = some o := found
        simp only [callOf, entry, found]
        split at taken
        next base =>
          rw [if_pos base]
          exact seen_of_call first (connectDestoryed_seen (registered id') taken) id
        next io =>
          rw [if_neg io]
          cases taken
          exact .unseen (by simp) ((first id).trans ⟨rfl, rfl⟩)
    next => cases taken

end Server

/-! ### The bytes of one connection -/

namespace Server

variable {s t : Server} {l : ServerStep} {id : Nat} {o : Object} {call : Call}
  {view : TcpConnection → Call → List UInt8}

/-- What a step contributes for the connection `id`, by the call it makes. -/
def perCall (view : TcpConnection → Call → List UInt8) (id : Nat) (s : Server) (l : ServerStep) :
    List UInt8 :=
  match s.callOf l, s.objects id with
  | some (id', call), some o => if id' = id then view o.conn call else []
  | _, _ => []

/-- What the steps of a run contribute, in order. -/
def collected (view : TcpConnection → Call → List UInt8) (id : Nat)
    (done : List (Server × ServerStep)) : List UInt8 :=
  done.flatMap fun (s, l) => perCall view id s l

/-- The bytes passed to `send` and taken. -/
def sentOn : Nat → List (Server × ServerStep) → List UInt8 := collected TcpConnection.accepts

/-- The bytes that the kernel delivered. -/
def receivedOn : Nat → List (Server × ServerStep) → List UInt8 := collected TcpConnection.receives

/-- The bytes that the user took from the input buffer. -/
def retrievedOn : Nat → List (Server × ServerStep) → List UInt8 := collected TcpConnection.retrieves

theorem perCall_other (other : ∀ call, s.callOf l ≠ some (id, call)) : perCall view id s l = [] := by
  unfold perCall
  split
  next id' call o called found =>
    by_cases own : id' = id
    · exact absurd (own ▸ called) (other call)
    · exact if_neg own
  next => rfl

theorem perCall_own (own : s.callOf l = some (id, call)) (found : s.objects id = some o) :
    perCall view id s l = view o.conn call := by
  simp [perCall, own, found]

theorem collected_other {done : List (Server × ServerStep)}
    (other : ∀ call, s.callOf l ≠ some (id, call)) :
    collected view id (done ++ [(s, l)]) = collected view id done := by
  simp [collected, perCall_other other]

theorem collected_own {done : List (Server × ServerStep)} (own : s.callOf l = some (id, call))
    (found : s.objects id = some o) :
    collected view id (done ++ [(s, l)]) = collected view id done ++ view o.conn call := by
  simp [collected, perCall_own own found]

/-- The server itself never stores to `state_` from another thread. -/
theorem callOf_ne_store (called : s.callOf l = some (id, call)) : call ≠ .storeDisconnecting := by
  rintro rfl
  unfold callOf at called
  split at called
  all_goals try split at called
  all_goals try split at called
  all_goals try split at called
  all_goals cases called

/-- The bytes of the connection that is called. -/
theorem served_streams {sent received retrieved : List UInt8} (served : Served s t id call)
    (found : s.objects id = some o) (own : call ≠ .storeDisconnecting)
    (streams : Streams o.conn (effectsOf (s.log id)) sent received retrieved) :
    ∃ y, ∃ loop : Loop, Session.IsRegistered ⟨o.conn, loop, []⟩ ∧
      call.step ⟨o.conn, loop, []⟩ = .ok y ∧ t.objects id = some { o with conn := y.conn } ∧
      effectsOf (t.log id) = effectsOf (s.log id) ++ y.trace ∧
      Streams y.conn (effectsOf (t.log id)) (sent ++ o.conn.accepts call)
        (received ++ o.conn.receives call) (retrieved ++ o.conn.retrieves call) := by
  obtain ⟨o', y, loop, found', registered, called, there, trace⟩ := served
  rw [found] at found'
  cases found'
  have kept := Call.step_streams streams registered own called
  rw [← trace] at kept
  exact ⟨y, loop, registered, called, there, trace, kept⟩

/-- What the steps so far have done to the bytes of `id`: nothing before it is made; while the object
is there nothing is lost; and what was in its buffers when it went stays behind. -/
structure StreamInv (id : Nat) (s : Server) (done : List (Server × ServerStep)) : Prop where
  inv : Inv s
  unborn : s.nextId ≤ id → sentOn id done = [] ∧ receivedOn id done = [] ∧ retrievedOn id done = []
  here : ∀ o, s.objects id = some o → Streams o.conn (effectsOf (s.log id)) (sentOn id done)
    (receivedOn id done) (retrievedOn id done)
  gone : s.objects id = none → written (effectsOf (s.log id)) <+: sentOn id done ∧
    retrievedOn id done <+: receivedOn id done

/-- The bytes of a connection that was just made. -/
theorem born_streams (born : Born s t id) : ∃ o, t.objects id = some o ∧
    Streams o.conn (effectsOf (t.log id)) [] [] [] := by
  obtain ⟨-, o, found, sockfd, made⟩ := born
  refine ⟨o, found, ?_⟩
  have fresh : Streams (s.newObject sockfd).conn [] [] [] [] := Streams.new _ _ _ _ _ _
  rcases made with ⟨rfl, trace⟩ | ⟨y, loop, registered, called, conn, trace⟩
  · rw [trace]
    exact fresh
  · have own : Call.connectEstablished ≠ .storeDisconnecting := by simp
    rw [conn, trace]
    exact Call.step_streams fresh registered own called

theorem StreamInv.initial {done : List (Server × ServerStep)} (inv : StreamInv id s done) :
    written (effectsOf (s.log id)) <+: sentOn id done ∧
      retrievedOn id done <+: receivedOn id done := by
  cases found : s.objects id with
  | none => exact inv.gone found
  | some o => exact (inv.here o found).initial

/-- Step lemma. -/
theorem streamInv_step {done : List (Server × ServerStep)} (inv : StreamInv id s done)
    (taken : s.step l = .ok t) : StreamInv id t (done ++ [(s, l)]) := by
  have inv' := step_inv inv.inv taken
  have grows := step_nextId inv.inv taken
  have late : t.nextId ≤ id → sentOn id done = [] ∧ receivedOn id done = [] ∧
      retrievedOn id done = [] := fun late => inv.unborn (Nat.le_trans grows late)
  cases step_seen inv.inv taken id with
  | unseen other unseen =>
    constructor
    · exact inv'
    · simpa only [sentOn, receivedOn, retrievedOn, collected_other other] using late
    · intro o found
      simpa only [sentOn, receivedOn, retrievedOn, collected_other other, unseen.effects] using
        inv.here o (unseen.object ▸ found)
    · intro absent
      simpa only [sentOn, receivedOn, retrievedOn, collected_other other, unseen.effects] using
        inv.gone (unseen.object ▸ absent)
  | served call own served =>
    obtain ⟨o, found⟩ : ∃ o, s.objects id = some o := by
      obtain ⟨o, -, -, found, -⟩ := served
      exact ⟨o, found⟩
    obtain ⟨y, -, -, -, there, -, kept⟩ :=
      served_streams served found (callOf_ne_store own) (inv.here o found)
    constructor
    · exact inv'
    · intro late
      have absent := (inv.inv.unborn id (Nat.le_trans grows late)).1
      rw [found] at absent
      cases absent
    · intro o' found'
      rw [there] at found'
      cases found'
      simpa only [sentOn, receivedOn, retrievedOn, collected_own own found] using kept
    · intro absent
      rw [there] at absent
      cases absent
  | born other born =>
    have uncalled : ∀ call, s.callOf l ≠ some (id, call) := by simp [other]
    obtain ⟨o, found, streams⟩ := born_streams born
    have here : id = s.nextId := born.1
    obtain ⟨sent, received, retrieved⟩ := inv.unborn (Nat.le_of_eq here.symm)
    simp only [sentOn, receivedOn, retrievedOn] at sent received retrieved
    constructor
    · exact inv'
    · intro late
      have absent := (inv'.unborn id late).1
      rw [found] at absent
      cases absent
    · intro o' found'
      rw [found] at found'
      cases found'
      simpa only [sentOn, receivedOn, retrievedOn, collected_other uncalled, sent, received,
        retrieved] using streams
    · intro absent
      rw [found] at absent
      cases absent
  | released other released =>
    have uncalled : ∀ call, s.callOf l ≠ some (id, call) := by simp [other]
    constructor
    · exact inv'
    · simpa only [sentOn, receivedOn, retrievedOn, collected_other uncalled] using late
    · intro o found
      rw [released.object] at found
      cases found
    · intro _
      -- What the buffers held goes with the object.
      simpa only [sentOn, receivedOn, retrievedOn, collected_other uncalled, released.effects] using
        inv.initial

/-- **The streams of every connection**: in every run of the server, whatever its loops and the other
connections do, the bytes that the kernel took from a connection are the first part of the bytes
that were passed to its `send` and taken, in order, and the bytes that the user took from it are the
first part of those that the kernel delivered to it. While the object is there the rest is in its
buffers, and its channel has write interest exactly if it is not down and bytes wait. -/
theorem streams_intact {threads listenfd : Nat} {wakeupfd : Nat → Nat}
    {message writeComplete : Bool} {steps : List ServerStep}
    (ran : run step (start threads listenfd wakeupfd message writeComplete) steps = .ok s)
    (id : Nat) :
    let done := trail step (start threads listenfd wakeupfd message writeComplete) steps
    written (effectsOf (s.log id)) <+: sentOn id done ∧ retrievedOn id done <+: receivedOn id done ∧
    ∀ o, s.objects id = some o →
      written (effectsOf (s.log id)) ++ o.conn.outputBuffer.readable = sentOn id done ∧
      retrievedOn id done ++ o.conn.inputBuffer.readable = receivedOn id done ∧
      (o.conn.channel.isWriting = true ↔
        o.conn.state ≠ .kDisconnected ∧ o.conn.outputBuffer.readable ≠ []) := by
  have initial : StreamInv id (start threads listenfd wakeupfd message writeComplete) [] := by
    constructor
    · exact start_inv threads listenfd wakeupfd message writeComplete
    · exact fun _ => ⟨rfl, rfl, rfl⟩
    · rintro o ⟨⟩
    · exact fun _ => ⟨List.prefix_rfl, List.prefix_rfl⟩
  have inv := run_trail (fun _ _ _ _ inv taken => streamInv_step inv taken) initial ran
  refine ⟨inv.initial.1, inv.initial.2, ?_⟩
  intro o found
  have streams := inv.here o found
  exact ⟨streams.output, streams.input, streams.interest⟩

/-- A send that the kernel takes half of, a read, a write event, and a second send behind the rest. -/
def sampleTraffic : List ServerStep :=
  acceptLabels ++
  [.send 0 [1, 2, 3, 4] (.wrote 2), .poll 1 [(.connection 0, EPOLLIN ||| EPOLLOUT)],
    .nextChannel 1, .callback 1 (.read (.received [9, 8])), .callback 1 (.write (.wrote 1)),
    .send 0 [5] (.wrote 1), .retrieveInput 0 1]

theorem sampleTraffic_intact : ∃ s, run step (start 1 3 (fun i => 4 + i) true false) sampleTraffic =
      .ok s ∧ written (effectsOf (s.log 0)) = [1, 2, 3] ∧
    ∀ o, s.objects 0 = some o →
      [1, 2, 3] ++ o.conn.outputBuffer.readable = [1, 2, 3, 4, 5] ∧
      [9] ++ o.conn.inputBuffer.readable = [9, 8] := by
  have bytes : (run step (start 1 3 (fun i => 4 + i) true false) sampleTraffic).toOption.map
      (fun s => written (effectsOf (s.log 0))) = some [1, 2, 3] := by decide +kernel
  have sent : sentOn 0 (trail step (start 1 3 (fun i => 4 + i) true false) sampleTraffic) =
      [1, 2, 3, 4, 5] := by decide +kernel
  have received : receivedOn 0 (trail step (start 1 3 (fun i => 4 + i) true false) sampleTraffic) =
      [9, 8] := by decide +kernel
  have retrieved : retrievedOn 0 (trail step (start 1 3 (fun i => 4 + i) true false) sampleTraffic) =
      [9] := by decide +kernel
  cases ran : run step (start 1 3 (fun i => 4 + i) true false) sampleTraffic with
  | error f =>
    rw [ran] at bytes
    cases bytes
  | ok s =>
    rw [ran] at bytes
    have bytes : written (effectsOf (s.log 0)) = _ := Option.some.inj bytes
    refine ⟨s, rfl, bytes, ?_⟩
    intro o found
    obtain ⟨-, -, waiting⟩ := streams_intact ran 0
    obtain ⟨output, input, -⟩ := waiting o found
    rw [bytes, sent] at output
    rw [retrieved, received] at input
    exact ⟨output, input⟩

end Server

end Clia.Net
