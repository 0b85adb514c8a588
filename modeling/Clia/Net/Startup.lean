import Clia.Reactor.EventLoopThread

/-!
# The start of a server

`TcpServer::start` with `EventLoopThreadPool::start` inside it, and the calls that hand out the loops
of the pool afterwards. The thread of the base loop makes one `EventLoopThread` after another and waits
in `start_loop` of each; the threads that are there already go on meanwhile. What the destructors do is
left to `EventLoopThread`: here the pool stays.

## Main results

* `Startup.listening_after_live`: when the acceptor listens, every loop of the pool is there, the
  callback has been called once for each, and what `get_next_loop` returns is one of them.
* `Startup.start_can_finish`: as long as nobody quits a loop, `start` can always still come to that.
-/

namespace Clia.Net

open Reactor LabelledRun

/-- Where the thread of the base loop is. -/
inductive StartPc where
  | outside
  /-- in `EventLoopThreadPool::start`, at `i < num_threads_` -/
  | testing (i : Nat)
  /-- in `start_loop` of thread `i` -/
  | starting (i : Nat)
  deriving DecidableEq, Repr

/-- A server and its pool. `startCalls` is `started_` of the server, `poolStarted` that of the pool.
`loops` are the loops of `loops_`, by the numbers of their threads. `baseCalls` is history: the calls
of the callback with the base loop. -/
structure Startup (T F : Type) where
  pc : StartPc
  startCalls : Int32
  poolStarted : Bool
  numThreads : Int
  hasCallback : Bool
  next : Nat
  threads : List (EventLoopThread T F)
  loops : List Nat
  baseCalls : Nat
  listening : Bool

inductive StartFault where
  | disabled
  /-- `assert(!started_)` of the pool -/
  | alreadyStarted
  /-- `assert(!acceptor_->listening())` -/
  | alreadyListening
  /-- `assert(started_)` of the pool -/
  | notStarted
  /-- `loops_[next_]` is not there -/
  | outOfRange
  | thread (i : Nat) (fault : Fault)
  deriving DecidableEq, Repr

namespace Startup

variable {T F : Type}

def new (numThreads : Int) (hasCallback : Bool) : Startup T F :=
  ⟨.outside, 0, false, numThreads, hasCallback, 0, [], [], 0, false⟩

inductive Label (T F : Type) where
  | start
  /-- the head of the loop of the pool's `start` -/
  | test
  /-- a step of thread `i`, or of its owner in `start_loop` -/
  | thread (i : Nat) (l : EventLoopThread.Label T F)
  /-- `loops_.push_back` with what `start_loop` has returned -/
  | storeLoop
  | getNextLoop
  deriving DecidableEq, Repr

def ofDestructor : EventLoopThread.Label T F → Bool
  | .destruct | .testLoop | .loadLoop | .quit | .wakeup | .join => true
  | _ => false

/-- What follows the loop of the pool's `start`. -/
def finish (s : Startup T F) : Except StartFault (Startup T F) := do
  let calls := if s.numThreads = 0 ∧ s.hasCallback = true then s.baseCalls + 1 else s.baseCalls
  Checked.require (s.listening = false) .alreadyListening
  return { s with pc := .outside, baseCalls := calls, listening := true }

/-- `none` is the base loop. -/
def getNextLoop (s : Startup T F) : Except StartFault (Option Nat × Startup T F) := do
  Checked.require (s.poolStarted = true) .notStarted
  if s.loops = [] then
    return (none, s)
  else
    match s.loops[s.next]? with
    | some loop =>
      return (some loop, { s with next := if s.next + 1 ≥ s.loops.length then 0 else s.next + 1 })
    | none => .error .outOfRange

def getAllLoops (s : Startup T F) : Except StartFault (List (Option Nat)) := do
  Checked.require (s.poolStarted = true) .notStarted
  return if s.loops = [] then [none] else s.loops.map some

variable [DecidableEq T]

def step (s : Startup T F) : Label T F → Except StartFault (Startup T F)
  | .start => do
    Checked.require (s.pc = .outside) .disabled
    let counted := { s with startCalls := s.startCalls + 1 }
    if s.startCalls = 0 then
      Checked.require (s.poolStarted = false) .alreadyStarted
      return { counted with poolStarted := true, pc := .testing 0 }
    else
      return counted
  | .test =>
    match s.pc with
    | .testing i =>
      if i < s.numThreads then
        .ok { s with threads := s.threads ++ [EventLoopThread.new s.hasCallback], pc := .starting i }
      else s.finish
    | _ => .error .disabled
  | .thread i l =>
    match s.threads[i]? with
    | some t => do
      Checked.require (ofDestructor l = false) .disabled
      match t.step l with
      | .ok t => return { s with threads := s.threads.set i t }
      | .error f => .error (.thread i f)
    | none => .error .disabled
  | .storeLoop =>
    match s.pc with
    | .starting i =>
      match s.threads[i]? with
      | some t => do
        Checked.require (t.owner = .started) .disabled
        return { s with loops := s.loops ++ [i], pc := .testing (i + 1) }
      | none => .error .disabled
    | _ => .error .disabled
  | .getNextLoop => do
    Checked.require (s.pc = .outside) .disabled
    let (_, t) ← s.getNextLoop
    return t

/-! ### What a step can do -/

inductive Moves (s : Startup T F) : Label T F → Startup T F → Prop
  | start (here : s.pc = .outside) (first : s.startCalls = 0) (fresh : s.poolStarted = false) :
      Moves s .start { s with
        startCalls := s.startCalls + 1, poolStarted := true, pc := .testing 0 }
  | startAgain (here : s.pc = .outside) :
      Moves s .start { s with startCalls := s.startCalls + 1 }
  | newThread (i : Nat) (here : s.pc = .testing i) (more : i < s.numThreads) :
      Moves s .test { s with
        threads := s.threads ++ [EventLoopThread.new s.hasCallback], pc := .starting i }
  | finish (i : Nat) (here : s.pc = .testing i) (all : s.numThreads ≤ i) :
      Moves s .test { s with
        pc := .outside
        baseCalls := if s.numThreads = 0 ∧ s.hasCallback = true then s.baseCalls + 1 else s.baseCalls
        listening := true }
  | thread (i : Nat) (l : EventLoopThread.Label T F) (t t' : EventLoopThread T F)
      (found : s.threads[i]? = some t) (stays : ofDestructor l = false)
      (moves : EventLoopThread.Moves t l t') :
      Moves s (.thread i l) { s with threads := s.threads.set i t' }
  | storeLoop (i : Nat) (t : EventLoopThread T F) (here : s.pc = .starting i)
      (found : s.threads[i]? = some t) (started : t.owner = .started) :
      Moves s .storeLoop { s with loops := s.loops ++ [i], pc := .testing (i + 1) }
  | getNextLoop (loop : Option Nat) (t : Startup T F) (here : s.pc = .outside)
      (got : s.getNextLoop = .ok (loop, t)) : Moves s .getNextLoop t

variable {s t : Startup T F} {l : Label T F}

theorem step_moves (taken : step s l = .ok t) : Moves s l t := by
  cases l with
  | start =>
    obtain ⟨_, here, taken⟩ := Checked.bind_ok_iff.mp taken
    rw [Checked.require_ok_iff] at here
    split at taken
    next first =>
      obtain ⟨fresh, rfl⟩ := Checked.guarded_ok_iff.mp taken
      exact .start here first fresh
    · cases taken
      exact .startAgain here
  | test =>
    simp only [step] at taken
    split at taken
    next i here =>
      split at taken
      next more =>
        cases taken
        exact .newThread i here more
      next all =>
        obtain ⟨_, _, taken⟩ := Checked.bind_ok_iff.mp taken
        cases taken
        exact .finish i here (Int.not_lt.mp all)
    · cases taken
  | thread i l =>
    simp only [step] at taken
    split at taken
    next t found =>
      obtain ⟨_, stays, taken⟩ := Checked.bind_ok_iff.mp taken
      split at taken
      next t' moved =>
        cases taken
        exact .thread i l t t' found (Checked.require_ok_iff.mp stays)
          (EventLoopThread.step_moves moved)
      · cases taken
    · cases taken
  | storeLoop =>
    simp only [step] at taken
    split at taken
    next i here =>
      split at taken
      next t found =>
        obtain ⟨started, rfl⟩ := Checked.guarded_ok_iff.mp taken
        exact .storeLoop i t here found started
      · cases taken
    · cases taken
  | getNextLoop =>
    obtain ⟨_, here, taken⟩ := Checked.bind_ok_iff.mp taken
    obtain ⟨⟨loop, u⟩, got, taken⟩ := Checked.bind_ok_iff.mp taken
    cases taken
    exact .getNextLoop loop _ (Checked.require_ok_iff.mp here) got

/-! ### One thread -/

section

variable {u v : EventLoopThread T F} {l : EventLoopThread.Label T F}

/-- The pool has not come to the destructor of the thread. -/
def Kept (u : EventLoopThread T F) : Prop :=
  u.owner = .outside ∨ u.owner.InStart ∨ u.owner = .started

theorem kept_step (kept : Kept u) (stays : ofDestructor l = false)
    (moves : EventLoopThread.Moves u l v) :
    Kept v ∧ (u.owner = .started → v.owner = .started) := by
  cases moves with
  | startLoop here => exact ⟨.inr (.inl trivial), by simp [here]⟩
  | found here set => exact ⟨.inr (.inr rfl), fun _ => rfl⟩
  | wait here unset => exact ⟨.inr (.inl trivial), by simp [here]⟩
  | wake notified here => exact ⟨.inr (.inl trivial), by simp [here]⟩
  | publish loop here taken =>
    rcases EventLoopThread.notifyOne_owner { u with loop := loop, loopSet := true } with
      same | ⟨start, waits⟩
    · simp only [Kept, same]
      exact ⟨kept, id⟩
    · refine ⟨.inr (.inl (by simp [waits, OwnerPc.InStart])), ?_⟩
      intro started
      simp [started, OwnerPc.InStart] at start
  | construct here => exact ⟨kept, id⟩
  | callback here => exact ⟨kept, id⟩
  | loop l loop foreign here alive later taken => exact ⟨kept, id⟩
  | clear here returned => exact ⟨kept, id⟩
  | destroyLoop here => exact ⟨kept, id⟩
  | _ => cases stays

theorem hasCallback_step (moves : EventLoopThread.Moves u l v) : v.hasCallback = u.hasCallback := by
  cases moves with
  | publish loop here taken => simp
  | _ => rfl

end

/-! ### The whole -/

/-- The first `k` threads have been started. -/
def StartedTo (k : Nat) (threads : List (EventLoopThread T F)) : Prop :=
  ∀ i < k, ∃ u, threads[i]? = some u ∧ u.owner = .started

section

variable {k : Nat} {threads : List (EventLoopThread T F)}

omit [DecidableEq T] in
theorem StartedTo.append (started : StartedTo k threads) (more : List (EventLoopThread T F)) :
    StartedTo k (threads ++ more) := by
  intro i below
  obtain ⟨u, found, owner⟩ := started i below
  have inside := (List.getElem?_eq_some_iff.mp found).1
  exact ⟨u, by rw [List.getElem?_append_left inside, found], owner⟩

omit [DecidableEq T] in
theorem StartedTo.set (started : StartedTo k threads) {i : Nat} {u v : EventLoopThread T F}
    (found : threads[i]? = some u) (kept : u.owner = .started → v.owner = .started) :
    StartedTo k (threads.set i v) := by
  intro j below
  obtain ⟨w, there, owner⟩ := started j below
  by_cases own : i = j
  · subst own
    obtain rfl := Option.some.inj (found.symm.trans there)
    have inside := (List.getElem?_eq_some_iff.mp found).1
    exact ⟨v, by simp [inside], kept owner⟩
  · exact ⟨w, by rw [List.getElem?_set_ne own, there], owner⟩

omit [DecidableEq T] in
theorem StartedTo.succ (started : StartedTo k threads) {u : EventLoopThread T F}
    (found : threads[k]? = some u) (owner : u.owner = .started) : StartedTo (k + 1) threads := by
  intro i below
  by_cases last : i = k
  · subst last
    exact ⟨u, found, owner⟩
  · exact started i (by omega)

end

/-- What is there at each place of `start`. -/
def Place (s : Startup T F) : Prop :=
  match s.pc with
  | .testing i => s.poolStarted = true ∧ s.listening = false ∧ s.baseCalls = 0 ∧
      s.threads.length = i ∧ s.loops = List.range i ∧ i ≤ s.numThreads.toNat ∧ StartedTo i s.threads
  | .starting i => s.poolStarted = true ∧ s.listening = false ∧ s.baseCalls = 0 ∧
      s.threads.length = i + 1 ∧ s.loops = List.range i ∧ i < s.numThreads.toNat ∧ StartedTo i s.threads
  | .outside => s.poolStarted = false ∧ s.listening = false ∧ s.baseCalls = 0 ∧ s.threads = [] ∧
      s.loops = [] ∨
    s.poolStarted = true ∧ s.listening = true ∧
      (s.baseCalls = if s.numThreads = 0 ∧ s.hasCallback = true then 1 else 0) ∧
      s.threads.length = s.numThreads.toNat ∧ s.loops = List.range s.numThreads.toNat ∧
      StartedTo s.numThreads.toNat s.threads

structure Inv (s : Startup T F) : Prop where
  place : Place s
  thread : ∀ u ∈ s.threads, EventLoopThread.Inv u ∧ Kept u ∧ u.hasCallback = s.hasCallback
  next : s.next = 0 ∨ s.next < s.loops.length

omit [DecidableEq T] in
theorem Inv.new (numThreads : Int) (hasCallback : Bool) :
    Inv (new numThreads hasCallback : Startup T F) := by
  constructor
  · exact .inl ⟨rfl, rfl, rfl, rfl, rfl⟩
  · intro u member
    cases member
  · exact .inl rfl

omit [DecidableEq T] in
/-- A step of one thread leaves the place as it is. -/
theorem Place.threads (place : Place s) {threads : List (EventLoopThread T F)}
    (count : threads.length = s.threads.length)
    (kept : ∀ k, StartedTo k s.threads → StartedTo k threads) :
    Place { s with threads := threads } := by
  cases here : s.pc with
  | testing i =>
    simp only [Place, here, count] at place ⊢
    obtain ⟨pool, unheard, uncalled, length, loops, within, started⟩ := place
    exact ⟨pool, unheard, uncalled, length, loops, within, kept i started⟩
  | starting i =>
    simp only [Place, here, count] at place ⊢
    obtain ⟨pool, unheard, uncalled, length, loops, within, started⟩ := place
    exact ⟨pool, unheard, uncalled, length, loops, within, kept i started⟩
  | outside =>
    simp only [Place, here] at place ⊢
    rcases place with ⟨pool, unheard, uncalled, none, empty⟩ |
      ⟨pool, listens, calls, length, loops, started⟩
    · refine .inl ⟨pool, unheard, uncalled, ?_, empty⟩
      rw [← List.length_eq_zero_iff, count, none]
      rfl
    · exact .inr ⟨pool, listens, calls, count.trans length, loops, kept _ started⟩

omit [DecidableEq T] in
/-- What `get_next_loop` returns, and that it does. -/
theorem getNextLoop_cases (started : s.poolStarted = true)
    (next : s.next = 0 ∨ s.next < s.loops.length) :
    s.loops = [] ∧ s.getNextLoop = .ok (none, s) ∨
      ∃ loop, s.loops[s.next]? = some loop ∧ s.getNextLoop =
        .ok (some loop, { s with next := if s.next + 1 ≥ s.loops.length then 0 else s.next + 1 }) := by
  by_cases none : s.loops = []
  · left
    refine ⟨none, ?_⟩
    simp [getNextLoop, Checked.require_pos, started, none]
  · right
    have positive := List.length_pos_iff.mpr none
    have below : s.next < s.loops.length := by omega
    refine ⟨s.loops[s.next], List.getElem?_eq_getElem below, ?_⟩
    simp [getNextLoop, Checked.require_pos, started, none, List.getElem?_eq_getElem below]

omit [DecidableEq T] in
/-- It changes nothing but the number of the next loop. -/
theorem getNextLoop_next {loop : Option Nat} (got : s.getNextLoop = .ok (loop, t))
    (next : s.next = 0 ∨ s.next < s.loops.length) :
    ∃ n, t = { s with next := n } ∧ (n = 0 ∨ n < s.loops.length) := by
  have pool : s.poolStarted = true := by
    obtain ⟨_, pool, _⟩ := Checked.bind_ok_iff.mp got
    exact Checked.require_ok_iff.mp pool
  rcases getNextLoop_cases pool next with ⟨_, same⟩ | ⟨k, found, same⟩
  · obtain ⟨rfl, rfl⟩ := Prod.mk.inj (Except.ok.inj (got.symm.trans same))
    exact ⟨_, rfl, next⟩
  · obtain ⟨rfl, rfl⟩ := Prod.mk.inj (Except.ok.inj (got.symm.trans same))
    refine ⟨_, rfl, ?_⟩
    split
    · exact .inl rfl
    · exact .inr (by omega)

theorem Inv.after (inv : Inv s) (moves : Moves s l t) : Inv t := by
  obtain ⟨place, thread, next⟩ := inv
  cases moves with
  | start here first fresh =>
    simp only [Place, here, fresh] at place
    obtain ⟨_, unheard, uncalled, none, empty⟩ := place.resolve_right (by simp)
    refine ⟨⟨rfl, unheard, uncalled, by simp [none], by simp [empty], Nat.zero_le _, ?_⟩, thread, next⟩
    intro i below
    exact absurd below (Nat.not_lt_zero i)
  | startAgain here =>
    refine ⟨?_, thread, next⟩
    simp only [Place, here] at place ⊢
    exact place
  | newThread i here more =>
    simp only [Place, here] at place
    obtain ⟨pool, unheard, uncalled, count, loops, _, started⟩ := place
    have below : i < s.numThreads.toNat := by omega
    refine ⟨⟨pool, unheard, uncalled, by simp [count], loops, below, ?_⟩, ?_, next⟩
    · exact started.append _
    · intro u member
      rcases List.mem_append.mp member with old | fresh
      · exact thread u old
      · obtain rfl := List.mem_singleton.mp fresh
        exact ⟨EventLoopThread.Inv.new _, .inl rfl, rfl⟩
  | finish i here all =>
    simp only [Place, here] at place
    obtain ⟨pool, unheard, uncalled, count, loops, within, started⟩ := place
    have exact : s.numThreads.toNat = i := by omega
    refine ⟨.inr ⟨pool, rfl, ?_, by simp [count, exact], by simp [loops, exact], ?_⟩, thread, next⟩
    · simp [uncalled]
    · exact exact ▸ started
  | thread i l u v found stays moves =>
    obtain ⟨inv, kept, same⟩ := thread u (List.mem_of_getElem? found)
    obtain ⟨kept', owner⟩ := kept_step kept stays moves
    constructor
    · exact place.threads (List.length_set ..) (fun k started => started.set found owner)
    · intro w member
      rcases List.mem_or_eq_of_mem_set member with old | rfl
      · exact thread w old
      · exact ⟨inv.after moves, kept', (hasCallback_step moves).trans same⟩
    · exact next
  | storeLoop i u here found owner =>
    simp only [Place, here] at place
    obtain ⟨pool, unheard, uncalled, count, loops, within, started⟩ := place
    refine ⟨⟨pool, unheard, uncalled, count, ?_, within, started.succ found owner⟩, thread, ?_⟩
    · simp [loops, List.range_succ]
    · apply next.imp_right
      intro below
      simp only [List.length_append]
      omega
  | getNextLoop loop t here got =>
    obtain ⟨n, rfl, bound⟩ := getNextLoop_next got next
    refine ⟨?_, thread, bound⟩
    simp only [Place, here] at place ⊢
    exact place

/-- Run lemma. -/
theorem reachable {numThreads : Int} {hasCallback : Bool} {ls : List (Label T F)}
    (ran : run step (new numThreads hasCallback) ls = .ok s) :
    Inv s ∧ s.numThreads = numThreads ∧ s.hasCallback = hasCallback := by
  have kept : ∀ s l (t : Startup T F),
      Inv s ∧ s.numThreads = numThreads ∧ s.hasCallback = hasCallback → step s l = .ok t →
        Inv t ∧ t.numThreads = numThreads ∧ t.hasCallback = hasCallback := by
    rintro s l t ⟨inv, same⟩ taken
    have moves := step_moves taken
    refine ⟨inv.after moves, ?_⟩
    cases moves with
    | getNextLoop loop t here got =>
      obtain ⟨n, rfl, _⟩ := getNextLoop_next got inv.next
      exact same
    | _ => exact same
  exact run_invariant kept ⟨Inv.new numThreads hasCallback, rfl, rfl⟩ ran

/-- Nobody has quit a loop of the pool. -/
def Unquit (s : Startup T F) : Prop := ∀ u ∈ s.threads, u.loop.quitCalled = false

instance (s : Startup T F) : Decidable (Unquit s) :=
  inferInstanceAs (Decidable (∀ u ∈ s.threads, _))

/-- **The start**: in every state that is reached before anybody quits a loop of the pool, if the
acceptor listens, then there is one loop for each thread that was asked for, all of them run, and the
callback was called once with each, or once with the base loop if no thread was asked for.
`get_all_loops` then returns these loops, and `get_next_loop` one of them; if there are none, both
return the base loop. -/
theorem listening_after_live (numThreads : Int) (hasCallback : Bool) (ls : List (Label T F))
    (s : Startup T F) (ran : run step (new numThreads hasCallback) ls = .ok s) (unquit : Unquit s)
    (listens : s.listening = true) :
    s.loops = List.range numThreads.toNat ∧ s.threads.length = numThreads.toNat ∧
      (∀ u ∈ s.threads, EventLoopThread.Live u ∧
        u.callbackCalls = if hasCallback then 1 else 0) ∧
      (s.baseCalls = if numThreads = 0 ∧ hasCallback = true then 1 else 0) ∧
      s.getAllLoops = .ok (if numThreads ≤ 0 then [none] else
        (List.range numThreads.toNat).map some) ∧
      ∃ loop t, s.getNextLoop = .ok (loop, t) ∧
        match loop with
        | none => numThreads ≤ 0
        | some k => ∃ u, s.threads[k]? = some u ∧ EventLoopThread.Live u := by
  obtain ⟨inv, rfl, rfl⟩ := reachable ran
  obtain ⟨place, thread, next⟩ := inv
  have there : s.poolStarted = true ∧
      (s.baseCalls = if s.numThreads = 0 ∧ s.hasCallback = true then 1 else 0) ∧
      s.threads.length = s.numThreads.toNat ∧ s.loops = List.range s.numThreads.toNat ∧
      StartedTo s.numThreads.toNat s.threads := by
    cases here : s.pc with
    | testing i => simp [Place, here, listens] at place
    | starting i => simp [Place, here, listens] at place
    | outside =>
      simp only [Place, here] at place
      obtain ⟨pool, _, rest⟩ := place.resolve_left (by simp [listens])
      exact ⟨pool, rest⟩
  obtain ⟨pool, calls, count, loops, started⟩ := there
  have live : ∀ u ∈ s.threads, EventLoopThread.Live u := by
    intro u member
    obtain ⟨i, below, rfl⟩ := List.getElem_of_mem member
    obtain ⟨v, found, owner⟩ := started i (by omega)
    obtain ⟨_, rfl⟩ := List.getElem?_eq_some_iff.mp found
    exact (thread _ member).1.started_live (unquit _ member) owner
  refine ⟨loops, count, ?_, calls, ?_, ?_⟩
  · intro u member
    refine ⟨live u member, ?_⟩
    rw [(live u member).calls, (thread u member).2.2]
  · have empty : List.range s.numThreads.toNat = [] ↔ s.numThreads ≤ 0 := by simp
    rw [getAllLoops, Checked.require_pos _ pool]
    simp only [loops, empty]
    rfl
  · rcases getNextLoop_cases pool next with ⟨empty, got⟩ | ⟨k, found, got⟩
    · refine ⟨_, _, got, ?_⟩
      have none : s.numThreads.toNat = 0 := by simpa [loops] using empty
      show s.numThreads ≤ 0
      omega
    · refine ⟨_, _, got, ?_⟩
      rw [loops] at found
      obtain ⟨below, rfl⟩ := List.getElem?_eq_some_iff.mp found
      simp only [List.length_range, List.getElem_range] at below ⊢
      have inside : s.next < s.threads.length := by omega
      exact ⟨_, List.getElem?_eq_getElem inside, live _ (List.getElem_mem inside)⟩

/-- The owner finds the second thread in its loop only after a wait. -/
def sampleTwo : List (Label Unit Unit) :=
  [.start, .test, .thread 0 .startLoop, .thread 0 .construct, .thread 0 .callback,
    .thread 0 (.loop .publish), .thread 0 .test, .storeLoop, .test, .thread 1 .startLoop,
    .thread 1 .test, .thread 1 .construct, .thread 0 (.loop .callLoop), .thread 1 .callback,
    .thread 1 (.loop .publish), .thread 1 .wake, .thread 1 .test, .storeLoop, .test, .start]

theorem sampleTwo_live :
    ∃ s : Startup Unit Unit, run step (new 2 true) sampleTwo = .ok s ∧ s.loops = [0, 1] ∧
      ∀ u ∈ s.threads, EventLoopThread.Live u := by
  have seen : (run step (new 2 true : Startup Unit Unit) sampleTwo).toOption.map
      (fun s => (decide (Unquit s), s.listening)) = some (true, true) := by decide +kernel
  cases ran : run step (new 2 true : Startup Unit Unit) sampleTwo with
  | error f =>
    rw [ran] at seen
    cases seen
  | ok s =>
    rw [ran] at seen
    obtain ⟨unquit, listens⟩ := Prod.mk.inj (Option.some.inj seen)
    obtain ⟨loops, _, live, _⟩ :=
      listening_after_live 2 true sampleTwo s ran (of_decide_eq_true unquit) listens
    exact ⟨s, rfl, loops, fun u member => (live u member).1⟩

/-! ### The end of `start` -/

/-- The steps of one thread, as steps of the whole. -/
theorem run_thread {i : Nat} {u v : EventLoopThread T F} {ms : List (EventLoopThread.Label T F)}
    (found : s.threads[i]? = some u) (stays : ∀ l ∈ ms, ofDestructor l = false)
    (ran : run EventLoopThread.step u ms = .ok v) :
    run step s (ms.map (.thread i)) = .ok { s with threads := s.threads.set i v } := by
  induction ms generalizing s u with
  | nil =>
    cases ran
    obtain ⟨inside, rfl⟩ := List.getElem?_eq_some_iff.mp found
    simp [run]
  | cons l ms ih =>
    obtain ⟨w, taken, later⟩ := run_cons_inv ran
    have moved : step s (.thread i l) = .ok { s with threads := s.threads.set i w } := by
      simp [step, found, Checked.require_pos, stays l (by simp), taken]
    have inside := (List.getElem?_eq_some_iff.mp found).1
    rw [List.map_cons, run_cons_ok _ moved,
      ih (u := w) (by simp [inside]) (fun l' member => stays l' (by simp [member])) later]
    simp

/-- Steps of the base loop's thread and of the threads of the pool bring `start` to its end. -/
def Finishes (s : Startup T F) : Prop :=
  ∃ ms t, run step s ms = .ok t ∧ t.pc = .outside ∧ t.listening = true

theorem Finishes.run {ms : List (Label T F)} (ran : run step s ms = .ok t) (later : Finishes t) :
    Finishes s := by
  obtain ⟨ms', u, rest, done⟩ := later
  exact ⟨ms ++ ms', u, by rw [run_append, ran, Checked.ok_bind, rest], done⟩

theorem Finishes.step (taken : step s l = .ok t) (later : Finishes t) : Finishes s := by
  have ran : LabelledRun.run Startup.step s [l] = .ok t := by
    rw [run_cons_ok _ taken, LabelledRun.run]
  exact later.run ran

/-- The places that `start` comes to after `start_loop` of thread `i`. -/
def Next (i : Nat) (s t : Startup T F) : Prop :=
  t.pc = .testing (i + 1) ∧ t.threads.length = s.threads.length ∧ t.numThreads = s.numThreads ∧
    t.listening = s.listening

theorem finishes_started {i : Nat} {u : EventLoopThread T F} (here : s.pc = .starting i)
    (found : s.threads[i]? = some u) (started : u.owner = .started)
    (later : ∀ t, Next i s t → Finishes t) : Finishes s := by
  have taken : step s .storeLoop =
      .ok { s with loops := s.loops ++ [i], pc := .testing (i + 1) } := by
    simp [step, here, found, started, Checked.require_pos]
  exact Finishes.step taken (later _ ⟨rfl, rfl, rfl, rfl⟩)

theorem finishes_waiting {i : Nat} {u : EventLoopThread T F} (here : s.pc = .starting i)
    (found : s.threads[i]? = some u) (inv : EventLoopThread.Inv u)
    (unquit : u.loop.quitCalled = false) (start : u.owner.InStart)
    (later : ∀ t, Next i s t → Finishes t) : Finishes s := by
  obtain ⟨ms, part, _, v, ran, started⟩ := inv.returns unquit start
  have all : ∀ l ∈ (EventLoopThread.handshake : List (EventLoopThread.Label T F)),
      ofDestructor l = false := by
    simp [EventLoopThread.handshake, ofDestructor]
  have stays : ∀ l ∈ ms, ofDestructor l = false := fun l member => all l (part.subset member)
  have inside := (List.getElem?_eq_some_iff.mp found).1
  apply Finishes.run (run_thread found stays ran)
  apply finishes_started (s := { s with threads := s.threads.set i v }) here (by simp [inside]) started
  intro t next
  exact later t ⟨next.1, next.2.1.trans (List.length_set ..), next.2.2⟩

theorem finishes_starting {i : Nat} {u : EventLoopThread T F} (here : s.pc = .starting i)
    (found : s.threads[i]? = some u) (inv : EventLoopThread.Inv u) (kept : Kept u)
    (unquit : u.loop.quitCalled = false) (later : ∀ t, Next i s t → Finishes t) : Finishes s := by
  rcases kept with outside | start | started
  · have moved : EventLoopThread.step u .startLoop =
        .ok { u with owner := .testing, thread := .constructing } := by
      simp [EventLoopThread.step, Checked.require_pos, outside]
    have after := inv.after (EventLoopThread.step_moves moved)
    have inside := (List.getElem?_eq_some_iff.mp found).1
    have ran : run EventLoopThread.step u [.startLoop] =
        .ok { u with owner := .testing, thread := .constructing } := by
      rw [run_cons_ok _ moved, run]
    apply Finishes.run (run_thread found (by simp [ofDestructor]) ran)
    apply finishes_waiting (s := { s with threads := s.threads.set i _ }) here
      (List.getElem?_set_self inside) after unquit trivial
    intro t next
    exact later t ⟨next.1, next.2.1.trans (List.length_set ..), next.2.2⟩
  · exact finishes_waiting here found inv unquit start later
  · exact finishes_started here found started later

/-- Induction on the threads that are still to be made. -/
theorem finishes_testing {left i : Nat} (here : s.pc = .testing i) (count : s.threads.length = i)
    (more : s.numThreads.toNat - i = left) (unheard : s.listening = false) : Finishes s := by
  induction left generalizing s i with
  | zero =>
    have all : ¬(i : Int) < s.numThreads := by omega
    refine ⟨[.test], { s with
      pc := .outside
      baseCalls := if s.numThreads = 0 ∧ s.hasCallback = true then s.baseCalls + 1 else s.baseCalls
      listening := true }, ?_, rfl, rfl⟩
    simp [run, step, here, all, finish, Checked.require_pos, unheard]
  | succ left ih =>
    have below : (i : Int) < s.numThreads := by omega
    have taken : step s .test = .ok { s with
        threads := s.threads ++ [EventLoopThread.new s.hasCallback], pc := .starting i } := by
      simp [step, here, below]
    apply Finishes.step taken
    apply finishes_starting (i := i) rfl (by simp [count]; rfl) (EventLoopThread.Inv.new _)
      (.inl rfl) rfl
    rintro t ⟨there, length, same, listening⟩
    apply ih there
    · simp [length, count]
    · rw [same]
      show s.numThreads.toNat - (i + 1) = left
      omega
    · rw [listening, unheard]

/-- **The end of the start**: from every state inside `start` that is reached before anybody quits
a loop of the pool, the threads and their owner can come to the end of the call. -/
theorem start_can_finish (numThreads : Int) (hasCallback : Bool) (ls : List (Label T F))
    (s : Startup T F) (ran : run step (new numThreads hasCallback) ls = .ok s) (unquit : Unquit s)
    (inside : s.pc ≠ .outside) :
    ∃ ms t, run step s ms = .ok t ∧ t.pc = .outside ∧ t.listening = true := by
  show Finishes s
  obtain ⟨place, thread, _⟩ := (reachable ran).1
  cases here : s.pc with
  | outside => exact absurd here inside
  | testing i =>
    simp only [Place, here] at place
    obtain ⟨_, unheard, _, count, _⟩ := place
    exact finishes_testing here count rfl unheard
  | starting i =>
    simp only [Place, here] at place
    obtain ⟨_, unheard, _, count, _⟩ := place
    have last : i < s.threads.length := by omega
    have member := List.getElem_mem last
    apply finishes_starting here (List.getElem?_eq_getElem last) (thread _ member).1
      (thread _ member).2.1 (unquit _ member)
    rintro t ⟨there, length, _, listening⟩
    exact finishes_testing there (length.trans count) rfl (listening.trans unheard)

/-- In `start_loop` of the second of three threads. -/
def sampleInside : List (Label Unit Unit) := sampleTwo.take 12

theorem sampleInside_finishes :
    ∃ s : Startup Unit Unit, run step (new 3 true) sampleInside = .ok s ∧ s.pc = .starting 1 ∧
      ∃ ms t, run step s ms = .ok t ∧ t.pc = .outside ∧ t.listening = true := by
  have seen : (run step (new 3 true : Startup Unit Unit) sampleInside).toOption.map
      (fun s => (decide (Unquit s), s.pc)) = some (true, .starting 1) := by decide +kernel
  cases ran : run step (new 3 true : Startup Unit Unit) sampleInside with
  | error f =>
    rw [ran] at seen
    cases seen
  | ok s =>
    rw [ran] at seen
    obtain ⟨unquit, here⟩ := Prod.mk.inj (Option.some.inj seen)
    exact ⟨s, rfl, here, start_can_finish 3 true sampleInside s ran (of_decide_eq_true unquit)
      (by simp [here])⟩

end Startup

end Clia.Net
