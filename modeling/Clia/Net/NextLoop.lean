import Clia.Net.ServerRun
import Clia.Library.Ring
import Mathlib.Data.Int.CardIntervalMod

/-!
# The loops of the connections

`get_next_loop` deals the connections out to the loops of the pool in turn. Nothing but
`new_connection` moves `next_` or counts connections, and a connection stays on the loop it was
given (`Server.step_settled`).

## Main result

`Server.connections_spread`: in every run the `k`-th connection belongs to loop `k % threads + 1`, so
the loops have been given the same number of connections up to one.
-/

namespace Clia.Net

open Reactor LabelledRun

/-- The settings and the counters of `s`, and no connection on another loop than in `s`. -/
structure Settled (s t : Server) : Prop where
  threads : t.threads = s.threads
  next : t.next = s.next
  nextId : t.nextId = s.nextId
  messageCallback : t.hasMessageCallback = s.hasMessageCallback
  home : ∀ id o, t.objects id = some o → ∃ o', s.objects id = some o' ∧ o.home = o'.home

namespace Settled

variable {s t u : Server} {id i : Nat} {o : Object}

theorem refl (s : Server) : Settled s s :=
  ⟨rfl, rfl, rfl, rfl, fun _ o found => ⟨o, found, rfl⟩⟩

theorem trans (first : Settled s t) (second : Settled t u) : Settled s u := by
  refine ⟨second.threads.trans first.threads, second.next.trans first.next,
    second.nextId.trans first.nextId, second.messageCallback.trans first.messageCallback, ?_⟩
  intro id o found
  obtain ⟨o', found', home'⟩ := second.home id o found
  obtain ⟨o'', found'', home''⟩ := first.home id o' found'
  exact ⟨o'', found'', home'.trans home''⟩

/-- Work on the loops, the map, the open descriptors and the history. -/
theorem of_objects (threads : t.threads = s.threads) (next : t.next = s.next)
    (nextId : t.nextId = s.nextId) (message : t.hasMessageCallback = s.hasMessageCallback)
    (objects : t.objects = s.objects) : Settled s t :=
  ⟨threads, next, nextId, message, fun id o found => ⟨o, by rw [← objects, found], rfl⟩⟩

theorem commit {y : Session} (found : s.objects id = some o) : Settled s (s.commit id o y) := by
  refine ⟨rfl, rfl, rfl, rfl, ?_⟩
  intro id' o' found'
  by_cases own : id' = id
  · subst own
    have here : (s.commit id' o y).objects id' = some { o with conn := y.conn } :=
      Function.update_self _ _ _
    rw [here] at found'
    cases found'
    exact ⟨o, found, rfl⟩
  · have other : (s.commit id o y).objects id' = s.objects id' := Function.update_of_ne own _ _
    exact ⟨o', other ▸ found', rfl⟩

theorem removeConnectionInLoop (ok : s.removeConnectionInLoop id = .ok t) : Settled s t := by
  unfold Server.removeConnectionInLoop at ok
  split at ok
  · cases ok
  · obtain ⟨_, _, ok⟩ := Checked.bind_ok_iff.mp ok
    cases ok
    exact of_objects rfl rfl rfl rfl rfl

theorem removeConnection (ok : s.removeConnection id o = .ok t) : Settled s t := by
  unfold Server.removeConnection at ok
  split at ok
  · cases ok
  · split at ok
    · exact removeConnectionInLoop ok
    · cases ok
      exact of_objects rfl rfl rfl rfl rfl

theorem onConnection {call : Session → Except Fault Session}
    (ok : s.onConnection id call = .ok t) : Settled s t := by
  cases found : s.objects id with
  | none =>
    simp only [Server.onConnection, found] at ok
    cases ok
  | some o =>
    obtain ⟨y, -, ⟨-, removed⟩ | ⟨-, rfl⟩⟩ := Server.onConnection_ok found ok
    · exact (commit found).trans (removeConnection removed)
    · exact commit found

theorem connectEstablished (ok : s.connectEstablished id = .ok t) : Settled s t := by
  unfold Server.connectEstablished at ok
  split at ok
  · cases ok
  next o _ =>
    have recorded : Settled s (s.record id
        [.established ((s.workers o.home).loop.poller.channels o.conn.fd)]) :=
      of_objects rfl rfl rfl rfl rfl
    exact recorded.trans (onConnection ok)

theorem connectDestoryed (ok : s.connectDestoryed id = .ok t) : Settled s t := by
  unfold Server.connectDestoryed at ok
  split at ok
  · cases ok
  next o _ =>
    have recorded : Settled s (s.record id [.destoryed (s.workers o.home).loop.eventHanding]) :=
      of_objects rfl rfl rfl rfl rfl
    exact recorded.trans (onConnection ok)

theorem runFunctor {cb : Functor} (ok : s.runFunctor i cb = .ok t) : Settled s t := by
  cases cb with
  | connectEstablished id => exact connectEstablished ok
  | removeConnectionInLoop id =>
    simp only [Server.runFunctor] at ok
    split at ok
    · cases ok
    · exact removeConnectionInLoop ok
  | connectDestoryed id => exact connectDestoryed ok
  | writeComplete id =>
    cases ok
    exact refl s
  | sendInLoop id data => cases ok
  | shutdownInLoop id => cases ok

end Settled

/-- `new_connection` was called with a descriptor that was not open, and nothing else. -/
def Accepts (s t : Server) : Prop :=
  ∃ r sockfd, Settled s r ∧ Settled (r.accepted sockfd) t

namespace Server

variable {s t : Server} {i : Nat}

theorem newConnection_settled (inv : Inv s) {sockfd : Nat} (closed : s.opened sockfd = false)
    (ok : s.newConnection sockfd = .ok t) : Settled (s.accepted sockfd) t := by
  rw [newConnection_eq (inv.unmapped closed)] at ok
  split at ok
  · exact Settled.connectEstablished ok
  · cases ok
    exact Settled.of_objects rfl rfl rfl rfl rfl

theorem runCallback_settled {callback : Channel.Callback} {io : Io} (inv : Inv s)
    (ok : s.runCallback i callback io = .ok t) : Settled s t ∨ Accepts s t := by
  unfold runCallback at ok
  split at ok
  next => exact .inl (Settled.onConnection ok)
  next => exact .inl (Settled.onConnection ok)
  next => exact .inl (Settled.onConnection ok)
  next => exact .inl (Settled.onConnection ok)
  next connfd _ =>
    obtain ⟨_, allowed, ok⟩ := Checked.bind_ok_iff.mp ok
    obtain ⟨-, -, closed⟩ := Checked.require_ok_iff.mp allowed
    exact .inr ⟨s, connfd, Settled.refl s, newConnection_settled inv closed ok⟩
  all_goals
    first
      | (cases ok; done)
      | (cases ok; exact .inl (Settled.of_objects rfl rfl rfl rfl rfl))

/-- A step settles nothing anew, or it accepts one connection. -/
theorem step_settled {l : ServerStep} (inv : Inv s) (taken : s.step l = .ok t) :
    Settled s t ∨ Accepts s t := by
  cases l with
  | poll i active =>
    obtain ⟨_, _, ok⟩ := Checked.bind_ok_iff.mp taken
    cases ok
    exact .inl (Settled.of_objects rfl rfl rfl rfl rfl)
  | nextChannel i =>
    simp only [step] at taken
    split at taken
    · cases taken
      exact .inl (Settled.of_objects rfl rfl rfl rfl rfl)
    · cases taken
  | callback i io =>
    simp only [step] at taken
    split at taken
    next callback todo queue =>
      have popped : Settled s (s.setWorker i { s.workers i with todo := todo }) :=
        Settled.of_objects rfl rfl rfl rfl rfl
      rcases runCallback_settled (inv.todo todo) taken with settled | ⟨r, sockfd, before, after⟩
      · exact .inl (popped.trans settled)
      · exact .inr ⟨r, sockfd, popped.trans before, after⟩
    next => cases taken
  | endDispatch i =>
    obtain ⟨_, _, ok⟩ := Checked.bind_ok_iff.mp taken
    cases ok
    exact .inl (Settled.of_objects rfl rfl rfl rfl rfl)
  | swap i =>
    obtain ⟨_, _, ok⟩ := Checked.bind_ok_iff.mp taken
    cases ok
    exact .inl (Settled.of_objects rfl rfl rfl rfl rfl)
  | functor i =>
    simp only [step] at taken
    split at taken
    next cb batch _ _ =>
      have popped : Settled s (s.popped i cb batch) := Settled.of_objects rfl rfl rfl rfl rfl
      exact .inl (popped.trans (Settled.runFunctor taken))
    next => cases taken
  | finish i =>
    obtain ⟨_, _, ok⟩ := Checked.bind_ok_iff.mp taken
    cases ok
    exact .inl (Settled.of_objects rfl rfl rfl rfl rfl)
  | send id data result =>
    simp only [step] at taken
    exact .inl (Settled.onConnection taken)
  | shutdown id =>
    simp only [step] at taken
    exact .inl (Settled.onConnection taken)
  | retrieveInput id len =>
    simp only [step] at taken
    exact .inl (Settled.onConnection taken)
  | release id =>
    simp only [step] at taken
    split at taken
    · cases taken
    · obtain ⟨_, _, ok⟩ := Checked.bind_ok_iff.mp taken
      obtain ⟨_, _, ok⟩ := Checked.bind_ok_iff.mp ok
      cases ok
      refine .inl ⟨rfl, rfl, rfl, rfl, ?_⟩
      intro id' o found
      by_cases own : id' = id
      · subst own
        simp at found
      · exact ⟨o, by simpa [own] using found, rfl⟩
  | teardown =>
    obtain ⟨_, _, ok⟩ := Checked.bind_ok_iff.mp taken
    cases ok
    exact .inl (Settled.of_objects rfl rfl rfl rfl rfl)
  | destroy sockfd =>
    simp only [step] at taken
    split at taken
    next id' _ entry =>
      have unmapped : Settled s (s.unmapped sockfd) := Settled.of_objects rfl rfl rfl rfl rfl
      split at taken
      · cases taken
      · split at taken
        · exact .inl (unmapped.trans (Settled.connectDestoryed taken))
        · cases taken
          exact .inl (unmapped.trans (Settled.of_objects rfl rfl rfl rfl rfl))
    next => cases taken

theorem step_nextId {l : ServerStep} (inv : Inv s) (taken : s.step l = .ok t) :
    s.nextId ≤ t.nextId := by
  rcases step_settled inv taken with settled | ⟨r, sockfd, before, after⟩
  · exact Nat.le_of_eq settled.nextId.symm
  · rw [after.nextId, ← before.nextId]
    exact Nat.le_succ _

theorem step_messageCallback {l : ServerStep} (inv : Inv s) (taken : s.step l = .ok t) :
    t.hasMessageCallback = s.hasMessageCallback := by
  rcases step_settled inv taken with settled | ⟨r, sockfd, before, after⟩
  · exact settled.messageCallback
  · exact after.messageCallback.trans before.messageCallback

/-! ### The turns -/

/-- The loop of the connection with this number, in a pool of `size` loops. -/
def turn (size id : Nat) : Nat := if size = 0 then 0 else id % size + 1

/-- `next_` is where the next connection goes, and every connection is where it was to go. -/
structure Spread (size : Nat) (s : Server) : Prop where
  inv : Inv s
  threads : s.threads = size
  next : size ≠ 0 → s.next = s.nextId % size
  home : ∀ id o, s.objects id = some o → o.home = turn size id

theorem Spread.settled {size : Nat} (spread : Spread size s) (settled : Settled s t) (inv : Inv t) :
    Spread size t where
  inv := inv
  threads := settled.threads.trans spread.threads
  next some := by
    rw [settled.next, settled.nextId]
    exact spread.next some
  home id o found := by
    obtain ⟨o', found', home⟩ := settled.home id o found
    exact home.trans (spread.home id o' found')

/-- `get_next_loop` gives the next connection its turn, and `next_` moves on around the pool. -/
theorem Spread.getNextLoop {size : Nat} (spread : Spread size s) :
    s.getNextLoop.1 = turn size s.nextId ∧
      (size ≠ 0 → s.getNextLoop.2 = (s.nextId + 1) % size) := by
  unfold Server.getNextLoop turn
  rw [spread.threads]
  by_cases none : size = 0
  · rw [if_pos none, if_pos none]
    exact ⟨rfl, fun some => absurd none some⟩
  · rw [if_neg none, if_neg none, spread.next none]
    refine ⟨rfl, ?_⟩
    intro _
    have inside : s.nextId % size < size := Nat.mod_lt _ (Nat.pos_of_ne_zero none)
    have around := Ring.next_eq inside
    rw [Nat.mod_add_mod] at around
    rw [← around, Ring.next]
    by_cases wraps : size = s.nextId % size + 1
    · rw [if_pos wraps, if_pos (by omega)]
    · rw [if_neg wraps, if_neg (by omega)]

/-- Step lemma. -/
theorem spread_step {size : Nat} {l : ServerStep} (spread : Spread size s)
    (taken : s.step l = .ok t) : Spread size t := by
  have inv' := step_inv spread.inv taken
  rcases step_settled spread.inv taken with settled | ⟨r, sockfd, before, after⟩
  · exact spread.settled settled inv'
  · have threads : r.threads = size := before.threads.trans spread.threads
    have same : r.getNextLoop = s.getNextLoop := by
      simp only [Server.getNextLoop, before.threads, before.next]
    obtain ⟨home, next⟩ := spread.getNextLoop
    refine ⟨inv', after.threads.trans threads, ?_, ?_⟩
    · intro some
      rw [after.next, after.nextId, Server.accepted]
      simp only [same, before.nextId, next some]
    · intro id o found
      obtain ⟨o', found', kept⟩ := after.home id o found
      rw [kept]
      by_cases own : id = r.nextId
      · subst own
        have here : (r.accepted sockfd).objects r.nextId = some (r.newObject sockfd) :=
          Function.update_self _ _ _
        rw [here] at found'
        cases found'
        simp only [Server.newObject, same, before.nextId, home]
      · have there : (r.accepted sockfd).objects id = r.objects id := Function.update_of_ne own _ _
        rw [there] at found'
        obtain ⟨o'', found'', kept'⟩ := before.home id o' found'
        rw [kept']
        exact spread.home id o'' found''

/-- **Spread of the connections**: in every run of a server with a pool of `size` loops, every
connection belongs to the loop whose turn it was, the base loop if there is no pool; and of the
connections accepted so far every loop of the pool has been given the same number, up to one. -/
theorem connections_spread {size listenfd : Nat} {wakeupfd : Nat → Nat}
    {message writeComplete : Bool} {steps : List ServerStep}
    (ran : run step (start size listenfd wakeupfd message writeComplete) steps = .ok s) :
    (∀ id o, s.objects id = some o → o.home = turn size id) ∧
    ∀ i < size, s.nextId.count (fun id => turn size id = i + 1) =
      s.nextId / size + if i < s.nextId % size then 1 else 0 := by
  have initial : Spread size (start size listenfd wakeupfd message writeComplete) := by
    refine ⟨start_inv size listenfd wakeupfd message writeComplete, rfl, ?_, ?_⟩
    · intro _
      exact (Nat.zero_mod size).symm
    · rintro id o ⟨⟩
  have spread := run_invariant (fun _ _ _ spread taken => spread_step spread taken) initial ran
  refine ⟨spread.home, ?_⟩
  intro i inside
  have turns : ∀ id, turn size id = i + 1 ↔ id ≡ i [MOD size] := by
    intro id
    rw [turn, if_neg (by omega), Nat.ModEq, Nat.mod_eq_of_lt inside]
    omega
  simp only [turns]
  have positive : 0 < size := Nat.lt_of_le_of_lt (Nat.zero_le i) inside
  rw [Nat.count_modEq_card s.nextId positive i, Nat.mod_eq_of_lt inside]

/-- Three connections and two loops: the third is on the first loop again. -/
def sampleAccepts : List ServerStep :=
  [.poll 0 [(.acceptor, EPOLLIN)], .nextChannel 0, .callback 0 (.accept (some 7)), .endDispatch 0,
    .poll 0 [(.acceptor, EPOLLIN)], .nextChannel 0, .callback 0 (.accept (some 8)), .endDispatch 0,
    .poll 0 [(.acceptor, EPOLLIN)], .nextChannel 0, .callback 0 (.accept (some 9)), .endDispatch 0]

theorem sampleAccepts_spread : ∃ s, run step (start 2 3 (fun i => 4 + i) true false) sampleAccepts =
      .ok s ∧ s.nextId = 3 ∧ (∀ o, s.objects 2 = some o → o.home = 1) ∧
    s.nextId.count (fun id => turn 2 id = 1) = 2 := by
  have count : (run step (start 2 3 (fun i => 4 + i) true false) sampleAccepts).toOption.map
      Server.nextId = some 3 := by decide +kernel
  cases ran : run step (start 2 3 (fun i => 4 + i) true false) sampleAccepts with
  | error f =>
    rw [ran] at count
    cases count
  | ok s =>
    rw [ran] at count
    have count : s.nextId = 3 := Option.some.inj count
    obtain ⟨homes, shares⟩ := connections_spread ran
    refine ⟨s, rfl, count, fun o found => homes 2 o found, ?_⟩
    rw [shares 0 (by decide), count]
    rfl

end Server

end Clia.Net
