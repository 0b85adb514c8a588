import Clia.Net.ServerSteps

/-!
# Runs of the server

The moves that concern no single connection, the end of an object, and the beginning of
`~TcpServer`; then `Server.step_inv` and the server after `start`. From here on the invariant
holds in every state that a run reaches.
-/

namespace Clia.Net

open Reactor LabelledRun

variable {s t : Server} {id i : Nat} {o : Object} {stage : Stage} {torn : Bool}

/-! ### Moves of a loop -/

/-- A loop that neither touches its poller nor runs a functor that concerns a connection. -/
theorem Inv.worker {w : Worker} (inv : Inv s)
    (poller : w.loop.poller = (s.workers i).loop.poller)
    (queued : ∀ id, w.queued.filter (Functor.concerns id) =
      (s.workers i).queued.filter (Functor.concerns id))
    (calling : w.loop.callingPendingFunctors = true → w.loop.eventHanding = false)
    (idle : w.loop.callingPendingFunctors = false → w.batch = [])
    (dispatched : ∀ id, .connection id ∈ w.dispatch.map Prod.fst ∨
      w.loop.currentActiveChannel = some (.connection id) →
      id < s.nextId ∧ ∀ o, s.objects id = some o → o.conn.state ≠ .kConnecting) :
    Inv (s.setWorker i w) := by
  have same : ∀ j, ((s.setWorker i w).workers j).loop.poller = (s.workers j).loop.poller :=
    Server.setWorker_apply (fun w => w.loop.poller) poller
  have business : ∀ j id, (s.setWorker i w).business j id = s.business j id := fun j id =>
    Server.setWorker_apply (fun w => w.queued.filter (Functor.concerns id)) (queued id) j
  exact { inv with
    placed := fun id o found => by
      obtain ⟨stage, torn, placed⟩ := inv.placed id o found
      exact ⟨stage, torn, placed.frame rfl (fun j => by rw [same j]) (fun j => by rw [same j]) rfl
        (fun j => business j id) (fun dead => dead) rfl⟩
    unpolled := fun fd closed j => by
      rw [same j]
      exact inv.unpolled fd closed j
    unowned := fun id absent j => (business j id).trans (inv.unowned id absent j)
    calling := fun j => by
      by_cases here : j = i
      · subst here
        rw [Server.setWorker_self]
        exact calling
      · rw [Server.setWorker_other w here]
        exact inv.calling j
    idle := fun j => by
      by_cases here : j = i
      · subst here
        rw [Server.setWorker_self]
        exact idle
      · rw [Server.setWorker_other w here]
        exact inv.idle j
    dispatched := fun j id active => by
      unfold Server.Dispatched at active
      by_cases here : j = i
      · subst here
        rw [Server.setWorker_self] at active
        exact dispatched id active
      · rw [Server.setWorker_other w here] at active
        exact inv.dispatched j id active }

/-- A channel that the poller reports is registered, so its connection is past `kConnecting`. -/
theorem Inv.reported (inv : Inv s) {report : ChannelPtr × Mask}
    (reports : s.reports i report = true) (which : report.1 = .connection id) :
    id < s.nextId ∧ ∀ o, s.objects id = some o → o.conn.state ≠ .kConnecting := by
  unfold Server.reports at reports
  rw [which] at reports
  cases found : s.objects id with
  | none => simp [found] at reports
  | some o =>
    simp only [found, Bool.and_eq_true, beq_iff_eq] at reports
    obtain ⟨⟨rfl, known⟩, -⟩ := reports
    refine ⟨inv.early found, ?_⟩
    rintro _ ⟨rfl⟩ connecting
    obtain ⟨stage, torn, placed⟩ := inv.placed id o found
    -- A waiting connection is not registered yet, so the poller cannot name its channel.
    cases placed.shape.connecting_iff.mp connecting
    have registered := placed.registered
    simp only [Session.IsRegistered, Registered, Server.session, placed.shape.2.1,
      placed.channelFd, known] at registered
    cases registered.1

/-! ### The end of an object -/

/-- An object that nothing refers to is gone. -/
theorem Inv.unreferenced (inv : Inv s) (found : s.objects id = some o)
    (free : s.referenced id o = false) :
    ∃ torn, Placed s id o .gone torn ∧ ∀ j, s.business j id = [] := by
  obtain ⟨stage, torn, placed⟩ := inv.placed id o found
  simp only [Server.referenced, Bool.or_eq_false_iff, List.any_eq_false, List.mem_range] at free
  obtain ⟨⟨unmapped, unqueued⟩, -⟩ := free
  have idle : ∀ j, j ≤ s.threads → s.business j id = [] := by
    intro j bound
    refine List.filter_eq_nil_iff.mpr fun cb member concerns => ?_
    refine unqueued j (Nat.lt_succ_of_le bound) (List.any_eq_true.mpr ⟨cb, ?_, ?_⟩)
    · exact List.mem_append_right _ member
    · simp [Functor.concerns_iff concerns]
  -- Every stage but the last keeps an entry or a functor of the connection on its own loop.
  have home := placed.business o.home (fun _ base => base)
  rw [idle o.home placed.home] at home
  have entry : ¬(stage.mapped = true ∧ torn = false) := by
    intro mapped
    rw [placed.entry, if_pos mapped] at unmapped
    simp at unmapped
  have gone : stage = .gone := by
    cases stage with
    | gone => rfl
    | erased => simp [Stage.functors_erased] at home
    | waiting => simp [Stage.functors_waiting] at home
    | «open» =>
      cases torn with
      | false => exact absurd ⟨rfl, rfl⟩ entry
      | true => simp [Stage.functors_open] at home
    | closed =>
      cases torn with
      | false => exact absurd ⟨rfl, rfl⟩ entry
      | true => simp [Stage.functors_closed] at home
  subst gone
  refine ⟨torn, placed, fun j => ?_⟩
  by_cases base : j = 0
  · -- Here a removal that `~TcpServer` has overtaken could have been left; it counts as a reference.
    exact idle j (base ▸ Nat.zero_le _)
  · rw [placed.business j (fun _ zero => absurd zero base)]
    simp [Stage.functors, Stage.mapped]

/-- `s` without the object, its descriptor closed. -/
def Server.freed (s : Server) (id fd : Nat) : Server :=
  { s with
    objects := Function.update s.objects id none
    opened := Function.update s.opened fd false }

theorem Inv.free (inv : Inv s) (found : s.objects id = some o) (placed : Placed s id o .gone torn)
    (idle : ∀ j, s.business j id = []) : Inv (s.freed id o.conn.fd) := by
  -- The descriptor is closed with the object, so no poller may know it any more.
  have unpolled : ∀ j, (s.workers j).loop.poller.channels o.conn.fd = none ∧
      (s.workers j).loop.poller.interest o.conn.fd = none := by
    intro j
    by_cases here : j = o.home
    · have registered := placed.registered
      simp only [Session.IsRegistered, Registered, Server.session, placed.shape.2.1,
        placed.channelFd] at registered
      exact here ▸ registered
    · exact placed.elsewhere j here
  -- What is left was there before, and has another descriptor.
  have others : ∀ id' o', (s.freed id o.conn.fd).objects id' = some o' →
      id' ≠ id ∧ s.objects id' = some o' ∧ o'.conn.fd ≠ o.conn.fd := by
    intro id' o' found'
    have other : id' ≠ id := by
      rintro rfl
      simp [Server.freed] at found'
    have before : s.objects id' = some o' := by simpa [Server.freed, other] using found'
    exact ⟨other, before, fun eq => other (inv.unique id' id o' o before found eq)⟩
  have missing : ∀ id', (s.freed id o.conn.fd).objects id' = none →
      id' = id ∨ s.objects id' = none := by
    intro id' absent
    by_cases same : id' = id
    · exact .inl same
    · exact .inr (by simpa [Server.freed, same] using absent)
  exact {
    connectionCallback := inv.connectionCallback
    pool := inv.pool
    placed := fun id' o' found' => by
      obtain ⟨-, before, -⟩ := others id' o' found'
      obtain ⟨stage', torn', placed'⟩ := inv.placed id' o' before
      exact ⟨stage', torn', placed'.frame rfl (fun _ => rfl) (fun _ => rfl) rfl (fun _ => rfl)
        (fun dead => dead) rfl⟩
    opened := fun id' o' found' => by
      obtain ⟨-, before, apart⟩ := others id' o' found'
      simpa [Server.freed, apart] using inv.opened id' o' before
    unique := fun id₁ id₂ o₁ o₂ found₁ found₂ =>
      inv.unique id₁ id₂ o₁ o₂ (others id₁ o₁ found₁).2.1 (others id₂ o₂ found₂).2.1
    mapped := fun fd' id' entry => by
      obtain ⟨o', before, rfl⟩ := inv.mapped fd' id' entry
      have other : id' ≠ id := by
        rintro rfl
        rw [found] at before
        cases before
        exact Option.some_ne_none _ (entry.symm.trans placed.entry)
      exact ⟨o', by simpa [Server.freed, other] using before, rfl⟩
    unpolled := fun fd' closed j => by
      by_cases own : fd' = o.conn.fd
      · exact own ▸ unpolled j
      · exact inv.unpolled fd' (by simpa [Server.freed, own] using closed) j
    unowned := fun id' absent j => by
      rcases missing id' absent with rfl | before
      · exact idle j
      · exact inv.unowned id' before j
    unborn := fun id' late => by
      obtain ⟨before, log⟩ := inv.unborn id' late
      refine ⟨?_, log⟩
      by_cases same : id' = id
      · simp [Server.freed, same]
      · simpa [Server.freed, same] using before
    released := fun id' absent early => by
      rcases missing id' absent with rfl | before
      · cases torn with
        | false => exact .inl placed.log
        | true => exact .inr ⟨placed.log, placed.dying rfl⟩
      · exact inv.released id' before early
    calling := inv.calling
    idle := inv.idle
    dispatched := fun j id' active => by
      obtain ⟨early, past⟩ := inv.dispatched j id' active
      exact ⟨early, fun o' found' => past o' (others id' o' found').2.1⟩ }

/-! ### `~TcpServer` -/

theorem Inv.teardown (inv : Inv s) : Inv { s with alive := false } :=
  { inv with
    placed := fun id o found => by
      obtain ⟨stage, torn, placed⟩ := inv.placed id o found
      exact ⟨stage, torn, placed.frame rfl (fun _ => rfl) (fun _ => rfl) rfl (fun _ => rfl)
        (fun _ => rfl) rfl⟩
    released := fun id absent early => by
      rcases inv.released id absent early with gone | ⟨gone, -⟩
      · exact .inl gone
      · exact .inr ⟨gone, rfl⟩ }

/-- The connection of an entry of the map. -/
theorem Inv.entry (inv : Inv s) {sockfd : Nat} (entry : s.connections sockfd = some id) :
    ∃ o stage, s.objects id = some o ∧ o.conn.fd = sockfd ∧ Placed s id o stage false ∧
      (stage = .waiting ∨ stage = .open ∨ stage = .closed) := by
  obtain ⟨o, found, rfl⟩ := inv.mapped sockfd id entry
  obtain ⟨stage, torn, placed⟩ := inv.placed id o found
  have mapped := placed.entry
  rw [entry] at mapped
  split at mapped
  next there =>
    obtain ⟨mapped, rfl⟩ := there
    refine ⟨o, stage, found, rfl, placed, ?_⟩
    cases stage <;> simp_all [Stage.mapped]
  next => cases mapped

/-- `~TcpServer` comes to a connection of the base loop, which it destroys at once. -/
theorem Inv.destroy_base (inv : Inv s) (dead : s.alive = false) {sockfd : Nat}
    (entry : s.connections sockfd = some id) :
    ∃ o stage, s.objects id = some o ∧ o.conn.fd = sockfd ∧ Placed s id o stage false ∧
      (o.home = 0 → stage = .open ∧ ∀ t, (s.unmapped sockfd).connectDestoryed id = .ok t →
        ∃ o', Moves s t id o o' ∧ Placed t id o' .gone true) := by
  obtain ⟨o, stage, found, rfl, placed, mapped⟩ := inv.entry entry
  refine ⟨o, stage, found, rfl, placed, fun base => ?_⟩
  have opened : stage = .open := by
    rcases mapped with waiting | opened | closed
    · exact absurd base (placed.remote (.inl waiting))
    · exact opened
    · exact absurd base (placed.remote (.inr closed))
  subst opened
  refine ⟨rfl, fun t ok => ?_⟩
  have unmaps := Server.unmapped_moves found placed.registered
  refine placed.destroy unmaps rfl (Function.update_self _ _ _) ?_ ?_ (fun _ => dead)
    (.inr ⟨rfl, .inl rfl⟩) ok
  · intro j _
    have same : (s.unmapped o.conn.fd).business j id = s.business j id := rfl
    rw [same, placed.business j (by simp)]
    simp [Stage.functors_open]
  · intro _ remote
    exact absurd base remote

/-- For a connection of another loop it queues `connect_destoryed` there. -/
theorem Inv.destroy_io (inv : Inv s) (dead : s.alive = false) (found : s.objects id = some o)
    (placed : Placed s id o stage false) (entry : s.connections o.conn.fd = some id)
    (io : o.home ≠ 0) :
    Inv ((s.unmapped o.conn.fd).push o.home false (.connectDestoryed id)) := by
  obtain ⟨mapped, -⟩ : stage.mapped = true ∧ false = false := by
    by_contra unmapped
    have absent := placed.entry
    rw [if_neg unmapped, entry] at absent
    cases absent
  have unmaps := Server.unmapped_moves found placed.registered
  have pushes := Server.push_moves unmaps.here unmaps.registered o.home false
    (.connectDestoryed id) rfl
  have all := unmaps.trans pushes
  have business : ∀ j, ((s.unmapped o.conn.fd).push o.home false (.connectDestoryed id)).business
      j id = stage.functors false o.home id j ++
        if j = o.home then [.connectDestoryed id] else [] := by
    intro j
    have same : (s.unmapped o.conn.fd).business j id = s.business j id := rfl
    rw [Server.business_push, same, placed.business j (by simp)]
    simp [Functor.concerns]
  have torn : Placed ((s.unmapped o.conn.fd).push o.home false (.connectDestoryed id)) id o stage
      true := by
    refine all.placed placed.toHeld placed.shape placed.remote ?_ ?_ ?_ ?_ (fun _ => dead) ?_
    · rintro - rfl
      simp [Stage.mapped] at mapped
    · simp only [Bool.true_eq_false, and_false, if_false]
      exact Function.update_self _ _ _
    · intro j constrained
      -- Of the base loop's queue nothing is claimed once the connection is torn.
      have away : j ≠ 0 := fun base => io (constrained rfl base)
      rw [business j]
      cases stage <;> simp_all [Stage.functors, Stage.mapped]
    · intro _ _ cb member
      rw [business 0, if_neg (Ne.symm io)] at member
      cases stage <;> simp_all [Stage.functors, Stage.mapped]
    · have same : ((s.unmapped o.conn.fd).push o.home false (.connectDestoryed id)).log id =
          s.log id := rfl
      rw [same, placed.log]
      cases stage <;> simp_all [Stage.phase, Stage.mapped]
  exact inv.move found placed all torn fun waiting => waiting

/-! ### Every step -/

/-- The step takes the callback from the list of the current channel. -/
theorem Inv.todo (inv : Inv s) (todo : List Channel.Callback) :
    Inv (s.setWorker i { s.workers i with todo := todo }) :=
  inv.worker rfl (fun _ => rfl) (inv.calling i) (inv.idle i) (inv.dispatched i)

theorem Inv.runCallback {callback : Channel.Callback} {io : Io} (inv : Inv s)
    (ok : s.runCallback i callback io = .ok t) : Inv t := by
  unfold Server.runCallback at ok
  split at ok
  next => exact inv.onConnection handleClose_staged ok
  next => exact inv.onConnection handleError_staged ok
  next result _ => exact inv.onConnection (handleRead_staged result) ok
  next result _ => exact inv.onConnection (handleWrite_staged result) ok
  next =>
    obtain ⟨_, allowed, ok⟩ := Checked.bind_ok_iff.mp ok
    obtain ⟨-, -, closed⟩ := Checked.require_ok_iff.mp allowed
    -- `accept` returned a descriptor that is not open.
    obtain ⟨t', accepted, kept⟩ := inv.accept closed
    rw [accepted] at ok
    cases ok
    exact kept
  next => cases ok; exact inv
  next =>
    cases ok
    exact inv.worker rfl (fun _ => rfl) (inv.calling i) (inv.idle i) (inv.dispatched i)
  all_goals first | (cases ok; exact inv) | cases ok

theorem Inv.runFunctor {cb : Functor} {batch : List Functor} (inv : Inv s)
    (calling : (s.workers i).loop.callingPendingFunctors = true)
    (queue : (s.workers i).batch = cb :: batch)
    (ok : (s.popped i cb batch).runFunctor i cb = .ok t) : Inv t := by
  cases cb with
  | connectEstablished id =>
    obtain ⟨t', ran, kept⟩ := inv.functor_established queue
    rw [Server.runFunctor, ran] at ok
    cases ok
    exact kept
  | removeConnectionInLoop id =>
    simp only [Server.runFunctor] at ok
    split at ok
    · cases ok
    next there =>
      push Not at there
      have alive : (s.popped i (.removeConnectionInLoop id) batch).alive = true := by
        simpa using there.1
      obtain ⟨-, t', ran, kept⟩ := inv.functor_removal alive queue
      rw [ran] at ok
      cases ok
      exact kept
  | connectDestoryed id =>
    obtain ⟨o, stage, torn, found, placed, -, -, onward⟩ := inv.functor_destoryed calling queue
    obtain ⟨o', moves, gone⟩ := onward t ok
    exact inv.move found placed moves gone (by simp)
  | writeComplete id =>
    cases ok
    refine inv.worker rfl (fun _ => ?_) (inv.calling i) (fun resting => ?_) (inv.dispatched i)
    · simp [Worker.queued, queue, Functor.concerns]
    · rw [show (s.workers i).loop.callingPendingFunctors = false from resting] at calling
      cases calling
  | sendInLoop id data => cases ok
  | shutdownInLoop id => cases ok

/-- **Step lemma**: every step keeps the invariant, with `~TcpServer` or without. -/
theorem Server.step_inv {l : ServerStep} (inv : Inv s) (taken : s.step l = .ok t) : Inv t := by
  cases l with
  | poll i active =>
    obtain ⟨_, allowed, ok⟩ := Checked.bind_ok_iff.mp taken
    obtain ⟨-, resting, reports, -⟩ := Checked.require_ok_iff.mp allowed
    cases ok
    refine inv.worker rfl (fun _ => rfl) (fun calling => ?_) (inv.idle i) fun id member => ?_
    · -- The poller is not entered while functors run.
      rw [show (s.workers i).loop.callingPendingFunctors = true from calling] at resting
      cases resting
    · rcases member with reported | current
      · obtain ⟨report, member, which⟩ := List.mem_map.mp reported
        exact inv.reported (List.all_eq_true.mp reports report member) which
      · exact inv.dispatched i id (.inr current)
  | nextChannel i =>
    simp only [Server.step] at taken
    split at taken
    next channel revents dispatch _ _ queue =>
      cases taken
      refine inv.worker rfl (fun _ => rfl) (inv.calling i) (inv.idle i) fun id member => ?_
      refine inv.dispatched i id (.inl ?_)
      rw [queue]
      rcases member with later | current
      · exact List.mem_cons_of_mem _ later
      · cases current
        exact List.mem_cons_self
    next => cases taken
  | callback i io =>
    simp only [Server.step] at taken
    split at taken
    next => exact (inv.todo _).runCallback taken
    next => cases taken
  | endDispatch i =>
    obtain ⟨_, allowed, ok⟩ := Checked.bind_ok_iff.mp taken
    cases ok
    refine inv.worker rfl (fun _ => rfl) (fun _ => rfl) (inv.idle i) fun id member => ?_
    rcases member with later | current
    · exact inv.dispatched i id (.inl later)
    · cases current
  | swap i =>
    obtain ⟨_, allowed, ok⟩ := Checked.bind_ok_iff.mp taken
    obtain ⟨idle, resting⟩ := Checked.require_ok_iff.mp allowed
    cases ok
    refine inv.worker rfl (fun _ => ?_) (fun _ => idle) (by simp) (inv.dispatched i)
    -- The batch was empty, so the queue as a whole stays what it was.
    simp [Worker.queued, inv.idle i resting]
  | functor i =>
    simp only [Server.step] at taken
    split at taken
    next cb batch calling queue => exact inv.runFunctor calling queue taken
    next => cases taken
  | finish i =>
    obtain ⟨_, allowed, ok⟩ := Checked.bind_ok_iff.mp taken
    obtain ⟨-, done⟩ := Checked.require_ok_iff.mp allowed
    cases ok
    exact inv.worker rfl (fun _ => rfl) (by simp) (fun _ => done) (inv.dispatched i)
  | send id data result => exact inv.onConnection (send_staged data result) taken
  | shutdown id => exact inv.onConnection shutdown_staged taken
  | retrieveInput id len => exact inv.onConnection (retrieve_staged len) taken
  | release id =>
    simp only [Server.step] at taken
    split at taken
    · cases taken
    next o found =>
      obtain ⟨_, allowed, ok⟩ := Checked.bind_ok_iff.mp taken
      obtain ⟨_, _, ok⟩ := Checked.bind_ok_iff.mp ok
      cases ok
      obtain ⟨torn, gone, idle⟩ := inv.unreferenced found (Checked.require_ok_iff.mp allowed)
      exact inv.free found gone idle
  | teardown =>
    obtain ⟨_, _, ok⟩ := Checked.bind_ok_iff.mp taken
    cases ok
    exact inv.teardown
  | destroy sockfd =>
    simp only [Server.step] at taken
    split at taken
    next id dead entry =>
      obtain ⟨o, stage, found, rfl, placed, base⟩ := inv.destroy_base dead entry
      simp only [found] at taken
      split at taken
      next home =>
        obtain ⟨o', moves, gone⟩ := (base home).2 t taken
        exact inv.move found placed moves gone (by simp)
      next io =>
        cases taken
        exact inv.destroy_io dead found placed entry io
    next => cases taken

/-! ### The start -/

theorem Server.start_inv (threads listenfd : Nat) (wakeupfd : Nat → Nat)
    (message writeComplete : Bool) :
    Inv (Server.start threads listenfd wakeupfd message writeComplete) where
  connectionCallback := rfl
  pool := by
    by_cases none : threads = 0
    · exact .inl none
    · exact .inr (Nat.pos_of_ne_zero none)
  placed := by rintro id o ⟨⟩
  opened := by rintro id o ⟨⟩
  unique := by rintro id id' o o' ⟨⟩
  mapped := by rintro fd id ⟨⟩
  unpolled fd closed i := by
    simp only [Server.start, decide_eq_false_iff_not, not_or, not_exists] at closed
    obtain ⟨unlistened, unwoken⟩ := closed
    have other : ¬(i ≤ threads ∧ fd = wakeupfd i) := fun own => unwoken i ⟨own.1, own.2⟩
    simp [Server.start, EventLoop.new, unlistened, other]
  unowned _ _ _ := rfl
  unborn _ _ := ⟨rfl, rfl⟩
  released _ _ early := absurd early (Nat.not_lt_zero _)
  calling _ _ := rfl
  idle _ _ := rfl
  dispatched i id active := by
    rcases active with later | current
    · simp [Server.start] at later
    · cases current

/-- The base loop accepts descriptor 7 and loop 1 establishes the connection. -/
def Server.acceptLabels : List ServerStep :=
  [.poll 0 [(.acceptor, EPOLLIN)], .nextChannel 0, .callback 0 (.accept (some 7)), .endDispatch 0,
    .poll 1 [(.wakeup 1, EPOLLIN)], .nextChannel 1, .callback 1 .nothing, .endDispatch 1,
    .swap 1, .functor 1, .finish 1]

end Clia.Net
