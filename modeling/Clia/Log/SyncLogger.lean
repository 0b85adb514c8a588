import Clia.Log.FileLog
import Mathlib.Data.List.Perm.Basic
import Mathlib.Data.List.Range

/-!
# The synchronous logger

`log/sync_logger.cc` over `log/file_appender.cc` with `thread_safe`: `log` appends its message and
flushes before it returns, in whatever thread calls it. `append` holds the lock of the appender;
`flush` does not: it loads `file_`, and by the time `std::fflush` gets it, another thread's append may
have rolled and closed that stream, or be writing to it. `std::fflush` and `std::fclose` take the
stream's own lock, `fwrite_unlocked` does not.

Both calls take time: a call is inside `append` or inside `std::fflush` over a number of steps of the
others, in sequentially consistent memory. If two of them are at the same `FILE` or at `file_` at a
time and no lock keeps them apart, that is a data race.

## Main results

* `SyncLogger.returned_durable`: in every interleaving without a data race or a flush of a closed
  stream, the files are the messages, each whole and once, in the order of the appends, and a message
  whose call has returned is in them.
* `SyncLogger.kept_apart_safe`: neither occurs if no call is inside `flush` while another one is inside
  `append`.
-/

namespace Clia.Log

open LabelledRun Pieces

/-- Where a call of `log` is behind its filter. `slot` is the number of its append. -/
inductive CallPc where
  /-- about to take the lock in `append` -/
  | append
  /-- in `append_unlocked`, with what its system calls return -/
  | writing (results : Io)
  /-- about to load `file_` in `flush` -/
  | load (slot : Nat)
  /-- about to call `std::fflush` on the stream with this number -/
  | fflush (slot stream : Nat)
  /-- in `std::fflush` -/
  | flushing (slot stream : Nat)
  | returned (slot : Nat)
  deriving DecidableEq, Repr

structure SyncCall where
  message : List UInt8
  pc : CallPc
  deriving DecidableEq, Repr

def SyncCall.slot (call : SyncCall) : Option Nat :=
  match call.pc with
  | .append => none
  | .writing _ => none
  | .load slot => some slot
  | .fflush slot _ => some slot
  | .flushing slot _ => some slot
  | .returned slot => some slot

/-- The call has the lock of the appender. -/
def SyncCall.writing (call : SyncCall) : Bool :=
  match call.pc with
  | .writing _ => true
  | _ => false

/-- The call is behind its load of `file_` in `flush`. -/
def SyncCall.inFlush (call : SyncCall) : Bool :=
  match call.pc with
  | .fflush _ _ => true
  | .flushing _ _ => true
  | _ => false

/-- The logger with its appender, and all calls that have passed the filter. -/
structure SyncLogger where
  level : Level
  file : FileLog
  calls : List SyncCall
  deriving DecidableEq, Repr

inductive SyncLabel where
  /-- a thread enters `log` -/
  | log (level : Level) (message : Option (List UInt8))
  /-- the next step of the `i`-th call -/
  | move (i : Nat) (io : Io)
  deriving DecidableEq, Repr

namespace SyncLogger

def start (level : Level) (rolling : Rolling) : SyncLogger := ⟨level, .start rolling, []⟩

/-- The filter of `log`. -/
def admits (s : SyncLogger) (level : Level) (message : Option (List UInt8)) : Option (List UInt8) :=
  match message with
  | none => none
  | some message =>
    if level.toNat < s.level.toNat ∨ message.length = 0 then none else some message

def goTo (s : SyncLogger) (i : Nat) (call : SyncCall) (pc : CallPc) : SyncLogger :=
  { s with calls := s.calls.set i { call with pc := pc } }

/-- The `FILE` behind a stream: one of its own, or `stderr`, of which there is one only. -/
def fileOf (s : SyncLogger) (stream : Nat) : Option Nat :=
  if s.file.rolling.streams[stream]?.any Stream.opened then some stream else none

/-- The `FILE` that an append with these results writes to. -/
def target (c : RollPolicy) (s : SyncLogger) (results : Io) : Option Nat :=
  let current := s.file.rolling.closed.length
  if s.file.rolling.WillRoll c results.times then if results.opens then some (current + 1) else none
  else s.fileOf current

/-- The call is in `std::fflush` of this `FILE`. -/
def flushes (s : SyncLogger) (file : Option Nat) (call : SyncCall) : Bool :=
  match call.pc with
  | .flushing _ stream => decide (s.fileOf stream = file)
  | _ => false

/-- The call is in an append that writes to this `FILE`. -/
def writes (c : RollPolicy) (s : SyncLogger) (file : Option Nat) (call : SyncCall) : Bool :=
  match call.pc with
  | .writing results => decide (s.target c results = file)
  | _ => false

/-- The call is in an append that replaces `file_`. -/
def replacing (c : RollPolicy) (s : SyncLogger) (call : SyncCall) : Bool :=
  match call.pc with
  | .writing results => decide (s.file.rolling.WillRoll c results.times)
  | _ => false

/-- The next step of a call. -/
def advance (c : RollPolicy) (io : Io) (s : SyncLogger) (i : Nat) (call : SyncCall) :
    Except Fault SyncLogger :=
  let current := s.file.rolling.closed.length
  match call.pc with
  | .append =>
    -- The lock of the appender is taken.
    if s.calls.any SyncCall.writing then .error .disabled
    -- `fwrite_unlocked` does not wait for a `std::fflush`.
    else if s.calls.any (s.flushes (s.target c io)) then .error .dataRace
    else .ok (s.goTo i call (.writing io))
  | .writing results =>
    -- `roll_file` does, to close the stream. It does not close `stderr`.
    if s.replacing c call ∧ s.calls.any (s.flushes (some current)) then .error .disabled
    else do
      let file ← s.file.append c results call.message
      return { s with file := file }.goTo i call (.load s.file.rolling.appended.length)
  | .load slot =>
    if s.calls.any (s.replacing c) then .error .dataRace
    -- The current stream is the one behind the closed ones.
    else .ok (s.goTo i call (.fflush slot current))
  | .fflush slot stream =>
    if s.file.rolling.closed[stream]?.any Stream.opened then .error .useAfterFree
    else if s.calls.any (s.writes c (s.fileOf stream)) then .error .dataRace
    else .ok (s.goTo i call (.flushing slot stream))
  | .flushing slot stream =>
    let file := if stream = current then s.file.flush io else s.file
    .ok ({ s with file := file }.goTo i call (.returned slot))
  | .returned _ => .error .disabled

def step (c : RollPolicy) (s : SyncLogger) : SyncLabel → Except Fault SyncLogger
  | .log level message =>
    match s.admits level message with
    | some message => .ok { s with calls := s.calls ++ [⟨message, .append⟩] }
    | none => .ok s
  | .move i io =>
    match s.calls[i]? with
    | some call => s.advance c io i call
    | none => .error .disabled

/-- The system calls succeed. -/
def Fine (s : SyncLogger) : SyncLabel → Prop
  | .log _ _ => True
  | .move i io => ∀ call ∈ s.calls[i]?, match call.pc with
    | .writing results => s.file.Benign results call.message
    | _ => io.flushes = true

instance (s : SyncLogger) : (label : SyncLabel) → Decidable (s.Fine label)
  | .log _ _ => isTrue trivial
  | .move i io =>
    have (call : SyncCall) : Decidable (match call.pc with
        | .writing results => s.file.Benign results call.message
        | _ => io.flushes = true) := by split <;> infer_instance
    inferInstanceAs (Decidable (∀ call ∈ s.calls[i]?, _))

/-! ### The bytes up to a stream -/

end SyncLogger

namespace FileLog

/-- The bytes of the first streams. -/
def bytesUpTo (f : FileLog) (n : Nat) : Nat :=
  ((f.rolling.streams.take n).map Stream.bytes).flatten.length

variable {c : RollPolicy} {f g : FileLog} {io : Io} {data : List UInt8}

theorem bytesUpTo_all (sound : f.Sound c) :
    f.bytesUpTo (f.rolling.closed.length + 1) = f.rolling.appended.flatten.length := by
  obtain ⟨st, current, _⟩ := sound.current
  have all : f.rolling.streams.take (f.rolling.closed.length + 1) = f.rolling.streams := by
    apply List.take_of_length_le
    rw [Rolling.streams_some current, List.length_append, List.length_singleton]
  rw [bytesUpTo, all, sound.cut.flatten]

/-- Closed streams are complete in their files. -/
theorem bytesUpTo_closed (sound : f.Sound c) {n : Nat} (closed : n ≤ f.rolling.closed.length) :
    f.bytesUpTo n ≤ f.disk.flatten.length := by
  obtain ⟨st, current, _⟩ := sound.current
  have first : f.rolling.streams.take n = f.rolling.closed.take n := by
    rw [Rolling.streams_some current, List.take_append_of_le_length closed]
  rw [bytesUpTo, first, disk, sound.closed, List.flatten_append, List.length_append]
  have part : ((f.rolling.closed.take n).map Stream.bytes).flatten <+:
      (f.rolling.closed.map Stream.bytes).flatten := by
    rw [List.map_take]
    exact flatten_take_le _ _
  exact Nat.le_trans part.length_le (Nat.le_add_right _ _)

/-- An append takes nothing from a stream. -/
theorem bytesUpTo_append (sound : f.Sound c) (benign : f.Benign io data)
    (ok : f.append c io data = .ok g) {n : Nat} (there : n ≤ f.rolling.closed.length + 1) :
    f.bytesUpTo n ≤ g.bytesUpTo n ∧ f.rolling.closed.length ≤ g.rolling.closed.length := by
  obtain ⟨rolling, appended_ok, same⟩ := Checked.bind_ok_iff.mp ok
  obtain rfl := Except.ok.inj same
  have clean : ∀ r ∈ (io.call data).results, r.error = false :=
    fun r member => (benign.1.2.2 r member).1
  obtain ⟨st, current, _⟩ := sound.current
  obtain ⟨_, st', current', ways⟩ := Rolling.append_streams clean current appended_ok
  simp only [bytesUpTo, Rolling.streams_some current, Rolling.streams_some current']
  rcases ways with ⟨closed, _, bytes⟩ | ⟨closed, _⟩
  · rw [closed]
    refine ⟨?_, Nat.le_refl _⟩
    rcases Nat.lt_or_eq_of_le there with inside | rfl
    · rw [List.take_append_of_le_length (by omega), List.take_append_of_le_length (by omega)]
    · -- The current stream is longer by the data.
      rw [List.take_of_length_le (by simp), List.take_of_length_le (by simp)]
      simp [bytes]
  · -- The streams so far come first.
    have first : (f.rolling.closed ++ [st] ++ [st']).take n = (f.rolling.closed ++ [st]).take n :=
      List.take_append_of_le_length (by simpa using there)
    rw [closed, first]
    exact ⟨Nat.le_refl _, by simp⟩

end FileLog

namespace SyncLogger

/-! ### What a step does -/

/-- The step of the `i`-th call, by where it is. -/
inductive Advanced (c : RollPolicy) (io : Io) (s : SyncLogger) (i : Nat) (call : SyncCall) :
    SyncLogger → Prop where
  | entered (here : call.pc = .append) : Advanced c io s i call (s.goTo i call (.writing io))
  | appended {results : Io} {file : FileLog} (here : call.pc = .writing results)
      (ok : s.file.append c results call.message = .ok file) :
      Advanced c io s i call
        ({ s with file := file }.goTo i call (.load s.file.rolling.appended.length))
  | loaded {slot : Nat} (here : call.pc = .load slot) :
      Advanced c io s i call (s.goTo i call (.fflush slot s.file.rolling.closed.length))
  | locked {slot stream : Nat} (here : call.pc = .fflush slot stream) :
      Advanced c io s i call (s.goTo i call (.flushing slot stream))
  | flushed {slot stream : Nat} {file : FileLog} (here : call.pc = .flushing slot stream)
      (flush : file = if stream = s.file.rolling.closed.length then s.file.flush io else s.file) :
      Advanced c io s i call ({ s with file := file }.goTo i call (.returned slot))

section

variable {c : RollPolicy} {s t : SyncLogger} {io : Io} {i : Nat} {call : SyncCall}

theorem advance_cases (taken : s.advance c io i call = .ok t) : Advanced c io s i call t := by
  cases here : call.pc with
  | append =>
    simp only [advance, here] at taken
    split at taken
    next => cases taken
    next =>
      split at taken
      next => cases taken
      next =>
        cases taken
        exact .entered here
  | writing results =>
    simp only [advance, here] at taken
    split at taken
    next => cases taken
    next =>
      obtain ⟨file, ok, same⟩ := Checked.bind_ok_iff.mp taken
      obtain rfl := Except.ok.inj same
      exact .appended here ok
  | load slot =>
    simp only [advance, here] at taken
    split at taken
    next => cases taken
    next =>
      cases taken
      exact .loaded here
  | fflush slot stream =>
    simp only [advance, here] at taken
    split at taken
    next => cases taken
    next =>
      split at taken
      next => cases taken
      next =>
        cases taken
        exact .locked here
  | flushing slot stream =>
    simp only [advance, here] at taken
    obtain rfl := Except.ok.inj taken
    exact .flushed here rfl
  | returned slot =>
    simp only [advance, here] at taken
    cases taken

/-- A call comes in or is filtered out, or one of those that are in moves on. -/
theorem step_cases {label : SyncLabel} (taken : s.step c label = .ok t) :
    (∃ level message, label = .log level message ∧
      (t = s ∨ ∃ m, t = { s with calls := s.calls ++ [⟨m, .append⟩] })) ∨
    ∃ i io call, label = .move i io ∧ s.calls[i]? = some call ∧ Advanced c io s i call t := by
  cases label with
  | log level message =>
    left
    refine ⟨level, message, rfl, ?_⟩
    simp only [step] at taken
    split at taken
    next m admitted => exact Or.inr ⟨m, (Except.ok.inj taken).symm⟩
    next => exact Or.inl (Except.ok.inj taken).symm
  | move i io =>
    right
    simp only [step] at taken
    split at taken
    next call found => exact ⟨i, io, call, rfl, found, advance_cases taken⟩
    next => cases taken

end

/-! ### The invariant -/

/-- Each append is of one call. A call that has loaded `file_` has its message in the streams up to
that one, and one that has returned has it in the files. -/
structure Inv (c : RollPolicy) (s : SyncLogger) : Prop where
  sound : s.file.Sound c
  slots : (s.calls.filterMap SyncCall.slot).Perm (List.range s.file.rolling.appended.length)
  messages : ∀ call ∈ s.calls, ∀ slot, call.slot = some slot →
    s.file.rolling.appended[slot]? = some call.message
  loaded : ∀ call ∈ s.calls, ∀ slot stream,
    call.pc = .fflush slot stream ∨ call.pc = .flushing slot stream →
    stream ≤ s.file.rolling.closed.length ∧
      (s.file.rolling.appended.take (slot + 1)).flatten.length ≤ s.file.bytesUpTo (stream + 1)
  durable : ∀ call ∈ s.calls, ∀ slot, call.pc = .returned slot →
    (s.file.rolling.appended.take (slot + 1)).flatten.length ≤ s.file.disk.flatten.length

section

variable {c : RollPolicy} {s t : SyncLogger} {io : Io} {i : Nat} {call : SyncCall}

theorem mem_set {calls : List SyncCall} {i : Nat} {new other : SyncCall}
    (member : other ∈ calls.set i new) : other = new ∨ other ∈ calls :=
  (List.mem_or_eq_of_mem_set member).symm

/-- The slots of the calls if one of them moves on without an append. -/
private theorem slots_kept {calls : List SyncCall} (found : calls[i]? = some call) {pc : CallPc}
    (same : SyncCall.slot { call with pc := pc } = call.slot) :
    (calls.set i { call with pc := pc }).filterMap SyncCall.slot =
      calls.filterMap SyncCall.slot := by
  induction calls generalizing i with
  | nil => cases found
  | cons first calls ih =>
    cases i with
    | zero =>
      cases found
      rw [List.set_cons_zero, List.filterMap_cons, List.filterMap_cons, same]
    | succ i =>
      rw [List.set_cons_succ, List.filterMap_cons, List.filterMap_cons, ih found]

/-- With an append, its slot comes to them. -/
private theorem slots_grown {calls : List SyncCall} (found : calls[i]? = some call)
    (none : call.slot = none) {pc : CallPc} {slot : Nat}
    (some_slot : SyncCall.slot { call with pc := pc } = some slot) :
    ((calls.set i { call with pc := pc }).filterMap SyncCall.slot).Perm
      (slot :: calls.filterMap SyncCall.slot) := by
  induction calls generalizing i with
  | nil => cases found
  | cons first calls ih =>
    cases i with
    | zero =>
      cases found
      rw [List.set_cons_zero, List.filterMap_cons, List.filterMap_cons, some_slot, none]
    | succ i =>
      rw [List.set_cons_succ, List.filterMap_cons, List.filterMap_cons]
      cases first.slot with
      | none => exact ih found
      | some earlier => exact ((ih found).cons earlier).trans (.swap slot earlier _)

private theorem inv_append {results : Io} {file : FileLog} (inv : s.Inv c)
    (found : s.calls[i]? = some call) (here : call.pc = .writing results)
    (benign : s.file.Benign results call.message)
    (appended_ok : s.file.append c results call.message = .ok file) :
    ({ s with file := file }.goTo i call (.load s.file.rolling.appended.length)).Inv c := by
  obtain ⟨sound, appended, more⟩ := FileLog.append_disk inv.sound benign appended_ok
  have behind : ∀ n ≤ s.file.rolling.appended.length,
      file.rolling.appended.take n = s.file.rolling.appended.take n := by
    intro n le
    rw [appended, List.take_append_of_le_length le]
  -- A slot of an earlier append is a place in the list before this one.
  have earlier : ∀ other ∈ s.calls, ∀ slot, other.slot = some slot →
      slot < s.file.rolling.appended.length := by
    intro other member slot eq
    exact List.getElem?_eq_some_iff.mp (inv.messages other member slot eq) |>.1
  refine ⟨sound, ?_, ?_, ?_, ?_⟩
  · rw [goTo, appended, List.length_append, List.length_singleton, List.range_succ]
    refine (slots_grown found (by simp [SyncCall.slot, here]) rfl).trans ?_
    exact (inv.slots.cons _).trans (List.perm_append_singleton _ _).symm
  · intro other member slot eq
    rcases mem_set member with rfl | old
    · cases eq
      simp [goTo, appended]
    · have below := earlier other old slot eq
      have there := inv.messages other old slot eq
      simp only [goTo, appended, List.getElem?_append_left below, there]
  · intro other member slot stream eq
    rcases mem_set member with rfl | old
    · rcases eq with eq | eq <;> cases eq
    · obtain ⟨bound, bytes⟩ := inv.loaded other old slot stream eq
      have below := earlier other old slot (by rcases eq with eq | eq <;> simp [SyncCall.slot, eq])
      obtain ⟨grown, longer⟩ := FileLog.bytesUpTo_append inv.sound benign appended_ok
        (Nat.succ_le_succ bound)
      refine ⟨Nat.le_trans bound longer, ?_⟩
      simp only [goTo, behind (slot + 1) below]
      exact Nat.le_trans bytes grown
  · intro other member slot eq
    rcases mem_set member with rfl | old
    · cases eq
    · have below := earlier other old slot (by simp [SyncCall.slot, eq])
      simp only [goTo, behind (slot + 1) below]
      exact Nat.le_trans (inv.durable other old slot eq) more

/-- A call goes on with its slot. -/
private theorem inv_goTo (inv : s.Inv c) (found : s.calls[i]? = some call) {pc : CallPc}
    (same : SyncCall.slot { call with pc := pc } = call.slot)
    (loaded : ∀ slot stream, pc = .fflush slot stream ∨ pc = .flushing slot stream →
      stream ≤ s.file.rolling.closed.length ∧
        (s.file.rolling.appended.take (slot + 1)).flatten.length ≤ s.file.bytesUpTo (stream + 1))
    (durable : ∀ slot, pc = .returned slot →
      (s.file.rolling.appended.take (slot + 1)).flatten.length ≤ s.file.disk.flatten.length) :
    (s.goTo i call pc).Inv c := by
  refine ⟨inv.sound, ?_, ?_, ?_, ?_⟩
  · rw [goTo, slots_kept found same]
    exact inv.slots
  · intro other member slot eq
    rcases mem_set member with rfl | old
    · exact inv.messages call (List.mem_of_getElem? found) slot (same.symm.trans eq)
    · exact inv.messages other old slot eq
  · intro other member slot stream eq
    rcases mem_set member with rfl | old
    · exact loaded slot stream eq
    · exact inv.loaded other old slot stream eq
  · intro other member slot eq
    rcases mem_set member with rfl | old
    · exact durable slot eq
    · exact inv.durable other old slot eq

private theorem inv_load (inv : s.Inv c) (found : s.calls[i]? = some call) {slot : Nat}
    (here : call.pc = .load slot) :
    (s.goTo i call (.fflush slot s.file.rolling.closed.length)).Inv c := by
  apply inv_goTo inv found
  · simp [SyncCall.slot, here]
  · -- All that was appended is in the streams up to the current one.
    rintro n stream (eq | eq) <;> cases eq
    refine ⟨Nat.le_refl _, ?_⟩
    rw [FileLog.bytesUpTo_all inv.sound]
    exact (flatten_take_le _ _).length_le
  · intro n eq
    cases eq

/-- The call returns with its message in the files. -/
private theorem inv_returned (inv : s.Inv c) (found : s.calls[i]? = some call) {slot stream : Nat}
    (here : call.pc = .flushing slot stream)
    (settled : s.file.bytesUpTo (stream + 1) ≤ s.file.disk.flatten.length) :
    (s.goTo i call (.returned slot)).Inv c := by
  apply inv_goTo inv found
  · simp [SyncCall.slot, here]
  · rintro n k (eq | eq) <;> cases eq
  · intro n eq
    cases eq
    obtain ⟨_, bytes⟩ :=
      inv.loaded call (List.mem_of_getElem? found) slot stream (Or.inr here)
    exact Nat.le_trans bytes settled

theorem inv_flush (inv : s.Inv c) (flushes : io.flushes = true) :
    Inv c { s with file := s.file.flush io } ∧
      s.file.rolling.appended.flatten.length ≤ (s.file.flush io).disk.flatten.length := by
  obtain ⟨sound, same, disk⟩ := FileLog.flush_disk inv.sound flushes
  have all : (s.file.flush io).disk.flatten.length = s.file.rolling.appended.flatten.length := by
    rw [disk, inv.sound.cut.flatten]
  refine ⟨⟨sound, inv.slots, inv.messages, inv.loaded, ?_⟩, Nat.le_of_eq all.symm⟩
  intro call member slot eq
  rw [all]
  exact (flatten_take_le _ _).length_le

private theorem inv_log (inv : s.Inv c) (m : List UInt8) :
    Inv c { s with calls := s.calls ++ [⟨m, .append⟩] } := by
  have fresh : ∀ {P : SyncCall → Prop}, (∀ call ∈ s.calls, P call) → P ⟨m, .append⟩ →
      ∀ call ∈ s.calls ++ [⟨m, .append⟩], P call := by
    intro P old new call member
    rcases List.mem_append.mp member with among | last
    · exact old call among
    · rw [List.mem_singleton.mp last]
      exact new
  refine ⟨inv.sound, ?_, fresh inv.messages ?_, fresh inv.loaded ?_, fresh inv.durable ?_⟩
  · -- It has no slot yet.
    have none : [(⟨m, .append⟩ : SyncCall)].filterMap SyncCall.slot = [] := rfl
    rw [List.filterMap_append, none, List.append_nil]
    exact inv.slots
  · intro slot eq
    cases eq
  · intro slot stream eq
    rcases eq with eq | eq <;> cases eq
  · intro slot eq
    cases eq

/-- Step lemma. -/
theorem inv_step {label : SyncLabel} (inv : s.Inv c) (fine : s.Fine label)
    (taken : s.step c label = .ok t) : t.Inv c := by
  rcases step_cases taken with ⟨_, _, rfl, rfl | ⟨m, rfl⟩⟩ | ⟨i, io, call, rfl, found, advanced⟩
  · exact inv
  · exact inv_log inv m
  · have fine := fine call found
    cases advanced with
    | entered here =>
      apply inv_goTo inv found
      · simp [SyncCall.slot, here]
      · rintro n k (eq | eq) <;> cases eq
      · intro n eq
        cases eq
    | appended here ok =>
      simp only [here] at fine
      exact inv_append inv found here fine ok
    | loaded here => exact inv_load inv found here
    | locked here =>
      apply inv_goTo inv found
      · simp [SyncCall.slot, here]
      · rintro n k (eq | eq) <;> cases eq
        exact inv.loaded call (List.mem_of_getElem? found) _ _ (Or.inl here)
      · intro n eq
        cases eq
    | @flushed slot stream _ here flush =>
      simp only [here] at fine
      subst flush
      obtain ⟨bound, _⟩ :=
        inv.loaded call (List.mem_of_getElem? found) slot stream (Or.inr here)
      by_cases current : stream = s.file.rolling.closed.length
      · -- The stream is still the current one.
        rw [if_pos current]
        obtain ⟨flushed, all⟩ := inv_flush inv fine
        apply inv_returned flushed found here
        subst current
        have total := FileLog.bytesUpTo_all inv.sound
        exact Nat.le_trans (Nat.le_of_eq total) all
      · -- It was `stderr`, and its file is complete.
        rw [if_neg current]
        have below : stream < s.file.rolling.closed.length := by omega
        exact inv_returned inv found here (FileLog.bytesUpTo_closed inv.sound below)

/-- How a call comes upon another one that no lock keeps away. -/
inductive Unordered (s : SyncLogger) (call : SyncCall) : Fault → Prop where
  /-- Its stream was closed after it had loaded `file_`. -/
  | closed {slot stream : Nat} (here : call.pc = .fflush slot stream)
      (below : stream < s.file.rolling.closed.length) : Unordered s call .useAfterFree
  | append (here : call.pc = .append) (flushing : s.calls.any SyncCall.inFlush = true) :
      Unordered s call .dataRace
  | load {slot : Nat} (here : call.pc = .load slot) (writing : s.calls.any SyncCall.writing = true) :
      Unordered s call .dataRace
  | fflush {slot stream : Nat} (here : call.pc = .fflush slot stream)
      (writing : s.calls.any SyncCall.writing = true) : Unordered s call .dataRace

private theorem any_of_any {p q : SyncCall → Bool} {calls : List SyncCall}
    (implies : ∀ call, p call = true → q call = true) (some : calls.any p = true) :
    calls.any q = true := by
  obtain ⟨call, member, holds⟩ := List.any_eq_true.mp some
  exact List.any_eq_true.mpr ⟨call, member, implies call holds⟩

/-- A call that replaces `file_` is in an append. -/
theorem writing_of_replacing (replaced : s.calls.any (s.replacing c) = true) :
    s.calls.any SyncCall.writing = true := by
  apply any_of_any ?_ replaced
  intro call replaces
  unfold replacing at replaces
  split at replaces
  next results inside => simp [SyncCall.writing, inside]
  next => cases replaces

theorem writing_of_writes {file : Option Nat} (written : s.calls.any (s.writes c file) = true) :
    s.calls.any SyncCall.writing = true := by
  apply any_of_any ?_ written
  intro call writes
  unfold SyncLogger.writes at writes
  split at writes
  next results inside => simp [SyncCall.writing, inside]
  next => cases writes

theorem inFlush_of_flushes {file : Option Nat} (flushed : s.calls.any (s.flushes file) = true) :
    s.calls.any SyncCall.inFlush = true := by
  apply any_of_any ?_ flushed
  intro call flushes
  unfold SyncLogger.flushes at flushes
  split at flushes
  next slot stream inside => simp [SyncCall.inFlush, inside]
  next => cases flushes

/-- A step fails if the label names no step, or if the call comes upon another one. -/
theorem step_fails {label : SyncLabel} {fault : Fault} (inv : s.Inv c) (fine : s.Fine label)
    (failed : s.step c label = .error fault) :
    fault = .disabled ∨ ∃ i io call, label = .move i io ∧ s.calls[i]? = some call ∧
      s.Unordered call fault := by
  cases label with
  | log level message =>
    simp only [step] at failed
    split at failed <;> cases failed
  | move i io =>
    simp only [step] at failed
    split at failed
    next call found =>
      have fine := fine call found
      have unordered : ∀ {f : Fault}, s.Unordered call f → f = .disabled ∨ ∃ j io' call',
          SyncLabel.move i io = .move j io' ∧ s.calls[j]? = some call' ∧ s.Unordered call' f :=
        fun meets => Or.inr ⟨i, io, call, rfl, found, meets⟩
      cases here : call.pc with
      | append =>
        simp only [advance, here] at failed
        split at failed
        next =>
          cases failed
          exact Or.inl rfl
        next =>
          split at failed
          next race =>
            cases failed
            exact unordered (.append here (inFlush_of_flushes race))
          next => cases failed
      | writing results =>
        simp only [here] at fine
        obtain ⟨file, ok⟩ := FileLog.append_returns inv.sound fine
        simp only [advance, here, ok] at failed
        split at failed
        next =>
          cases failed
          exact Or.inl rfl
        next => cases failed
      | load slot =>
        simp only [advance, here] at failed
        split at failed
        next race =>
          cases failed
          exact unordered (.load here (writing_of_replacing race))
        next => cases failed
      | fflush slot stream =>
        simp only [advance, here] at failed
        split at failed
        next opened =>
          cases failed
          obtain ⟨st, closed, _⟩ := (Option.any_eq_true _ _).mp opened
          exact unordered (.closed here (List.getElem?_eq_some_iff.mp closed).1)
        next =>
          split at failed
          next race =>
            cases failed
            exact unordered (.fflush here (writing_of_writes race))
          next => cases failed
      | flushing slot stream =>
        simp only [advance, here] at failed
        cases failed
      | returned slot =>
        simp only [advance, here] at failed
        cases failed
        exact Or.inl rfl
    next =>
      cases failed
      exact Or.inl rfl

theorem inv_start {t : Readings} {opens : Bool} {rolling : Rolling}
    (constructed : Rolling.construct c t opens = .ok rolling) (clock : t.guard ≠ 0)
    (level : Level) : (start level rolling).Inv c := by
  have appended : rolling.appended = [] := by
    rcases Rolling.construct_cases constructed with ⟨_, rfl⟩ | ⟨_, _, rfl⟩ <;> rfl
  have none : ∀ call ∈ (start level rolling).calls, False := by
    intro call member
    cases member
  refine ⟨FileLog.sound_start constructed clock, ?_, fun call member => (none call member).elim,
    fun call member => (none call member).elim, fun call member => (none call member).elim⟩
  simp [start, FileLog.start, appended]

end

/-- Streams of four bytes with two calls, of which the second rolls. -/
def sampleIo (now : Int) : Io := ⟨.at now, List.replicate 8 ⟨2, false⟩, true, true, 0⟩

/-- The steps of a call up to where `std::fflush` begins. -/
def upToFlush (i : Nat) (now : Int) : List SyncLabel := List.replicate 4 (.move i (sampleIo now))

/-- The second call is in its append while the first one returns. -/
def sampleCalls : List SyncLabel :=
  [.log .kInfo (some [1, 2, 3, 4, 5]), .log .kInfo (some [6])] ++ upToFlush 0 1000 ++
    [.move 1 (sampleIo 1001), .move 0 (sampleIo 1001), .move 1 (sampleIo 1001)]

/-- The second call rolls between the load of the first one and its `std::fflush`. -/
example : run (step Rolling.smallPolicy) (start .kInfo Rolling.smallStart)
    [.log .kInfo (some [1, 2, 3, 4, 5]), .log .kInfo (some [6]), .move 0 (sampleIo 1000),
      .move 0 (sampleIo 1000), .move 0 (sampleIo 1000), .move 1 (sampleIo 1001),
      .move 1 (sampleIo 1001), .move 0 (sampleIo 1001)] = .error .useAfterFree := by
  decide +kernel

/-- The second call writes to the stream that the first one is flushing. -/
example : run (step Rolling.smallPolicy) (start .kInfo Rolling.smallStart)
    ([.log .kInfo (some [1]), .log .kInfo (some [2])] ++ upToFlush 0 1000 ++
      [.move 1 (sampleIo 1000)]) = .error .dataRace := by
  rfl

/-! ### Calls that are kept apart -/

/-- No call enters `append` while another is in `flush`, and none enters `flush` while another is in
`append`. -/
def KeptApart (s : SyncLogger) : SyncLabel → Prop
  | .log _ _ => True
  | .move i _ => ∀ call ∈ s.calls[i]?, match call.pc with
    | .append => s.calls.any SyncCall.inFlush = false
    | .load _ => s.calls.any SyncCall.writing = false
    | _ => True

instance (s : SyncLogger) : (label : SyncLabel) → Decidable (s.KeptApart label)
  | .log _ _ => isTrue trivial
  | .move i _ =>
    have (call : SyncCall) : Decidable (match call.pc with
        | .append => s.calls.any SyncCall.inFlush = false
        | .load _ => s.calls.any SyncCall.writing = false
        | _ => True) := by split <;> infer_instance
    inferInstanceAs (Decidable (∀ call ∈ s.calls[i]?, _))

/-- The calls in `flush` have the current stream, and no call is in `append` beside them. -/
structure Apart (s : SyncLogger) : Prop where
  alone : s.calls.any SyncCall.inFlush = true → s.calls.any SyncCall.writing = false
  current : ∀ call ∈ s.calls, ∀ slot stream, call.pc = .fflush slot stream →
    stream = s.file.rolling.closed.length

section

variable {c : RollPolicy} {s t : SyncLogger} {i : Nat} {call : SyncCall}

theorem any_set_false {p : SyncCall → Bool} {calls : List SyncCall} {new : SyncCall}
    (none : calls.any p = false) (not : p new = false) : (calls.set i new).any p = false := by
  rw [List.any_eq_false] at none ⊢
  intro other member
  rcases mem_set member with rfl | old
  · simp [not]
  · exact none other old

theorem any_of_found {p : SyncCall → Bool} (found : s.calls[i]? = some call) (holds : p call = true) :
    s.calls.any p = true := List.any_eq_true.mpr ⟨call, List.mem_of_getElem? found, holds⟩

/-- Nobody is in `flush`. -/
theorem Apart.of_noFlush (none : s.calls.any SyncCall.inFlush = false) : s.Apart := by
  constructor
  · intro some
    rw [none] at some
    cases some
  · intro call member slot stream here
    rw [List.any_eq_false] at none
    exact absurd (by simp [SyncCall.inFlush, here]) (none call member)

/-- Nobody is in `append`. -/
theorem Apart.of_noAppend {f : FileLog} {pc : CallPc} (apart : s.Apart)
    (none : s.calls.any SyncCall.writing = false)
    (notWriting : SyncCall.writing { call with pc := pc } = false)
    (closed : f.rolling.closed = s.file.rolling.closed)
    (current : ∀ slot stream, pc = .fflush slot stream → stream = s.file.rolling.closed.length) :
    Apart ({ s with file := f }.goTo i call pc) := by
  constructor
  · intro _
    exact any_set_false none notWriting
  · intro other member slot stream here
    simp only [goTo, closed]
    rcases mem_set member with rfl | old
    · exact current slot stream here
    · exact apart.current other old slot stream here

/-- Step lemma. -/
theorem apart_step {label : SyncLabel} (apart : s.Apart) (kept : s.KeptApart label)
    (taken : s.step c label = .ok t) : t.Apart := by
  rcases step_cases taken with ⟨_, _, rfl, rfl | ⟨m, rfl⟩⟩ | ⟨i, io, call, rfl, found, advanced⟩
  · exact apart
  · constructor
    · simpa [SyncCall.inFlush, SyncCall.writing] using apart.alone
    · intro call member slot stream here
      rcases List.mem_append.mp member with among | last
      · exact apart.current call among slot stream here
      · rw [List.mem_singleton.mp last] at here
        cases here
  · have kept := kept call found
    cases advanced with
    | entered here =>
      simp only [here] at kept
      exact .of_noFlush (any_set_false kept rfl)
    | @appended results file here ok =>
      -- With this call in `append`, nobody was in `flush`.
      have none : s.calls.any SyncCall.inFlush = false := by
        by_contra some
        have writes := any_of_found found (p := SyncCall.writing) (by simp [SyncCall.writing, here])
        rw [apart.alone (by simpa using some)] at writes
        cases writes
      exact .of_noFlush (any_set_false none rfl)
    | loaded here =>
      simp only [here] at kept
      refine apart.of_noAppend kept rfl rfl ?_
      intro n stream eq
      cases eq
      rfl
    | locked here =>
      have inside := any_of_found found (p := SyncCall.inFlush) (by simp [SyncCall.inFlush, here])
      refine apart.of_noAppend (apart.alone inside) rfl rfl ?_
      intro n k eq
      cases eq
    | flushed here flush =>
      have inside := any_of_found found (p := SyncCall.inFlush) (by simp [SyncCall.inFlush, here])
      refine apart.of_noAppend (apart.alone inside) rfl ?_ ?_
      · rw [flush]
        split <;> rfl
      · intro n k eq
        cases eq

/-- A call that is kept apart from the others comes upon none of them. -/
theorem ordered_of_apart {io : Io} {fault : Fault} (apart : s.Apart)
    (kept : s.KeptApart (.move i io)) (found : s.calls[i]? = some call) :
    ¬s.Unordered call fault := by
  have kept := kept call found
  intro unordered
  cases unordered with
  | @closed slot stream here below =>
    have current := apart.current call (List.mem_of_getElem? found) slot stream here
    omega
  | append here flushing =>
    simp only [here] at kept
    rw [kept] at flushing
    cases flushing
  | load here writing =>
    simp only [here] at kept
    rw [kept] at writing
    cases writing
  | fflush here writing =>
    rw [apart.alone (any_of_found found (by simp [SyncCall.inFlush, here]))] at writing
    cases writing

end

/-- **Kept apart, nothing fails**: in every run in which no call is in `flush` while another one is
in `append`, as if `flush` took the lock as well, only labels that are no step fail. -/
theorem kept_apart_safe {c : RollPolicy} {t : Readings} {opens : Bool} {rolling : Rolling}
    (constructed : Rolling.construct c t opens = .ok rolling) (clock : t.guard ≠ 0) (level : Level)
    (labels : List SyncLabel)
    (fine : Along (step c) (fun s label => s.Fine label ∧ s.KeptApart label) (start level rolling)
      labels) {fault : Fault} (failed : run (step c) (start level rolling) labels = .error fault) :
    fault = .disabled := by
  have preserved : ∀ (s : SyncLogger) label u, s.Inv c ∧ s.Apart →
      s.Fine label ∧ s.KeptApart label → s.step c label = .ok u → u.Inv c ∧ u.Apart := by
    rintro s label u ⟨inv, apart⟩ ⟨fine, kept⟩ taken
    exact ⟨inv_step inv fine taken, apart_step apart kept taken⟩
  have faults : ∀ (s : SyncLogger) label fault, s.Inv c ∧ s.Apart →
      s.Fine label ∧ s.KeptApart label → s.step c label = .error fault → fault = .disabled := by
    rintro s label fault ⟨inv, apart⟩ ⟨fine, kept⟩ failed
    rcases step_fails inv fine failed with disabled | ⟨i, io, call, rfl, found, unordered⟩
    · exact disabled
    · exact absurd unordered (ordered_of_apart apart kept found)
  exact run_fault_along preserved faults
    ⟨inv_start constructed clock level, .of_noFlush rfl⟩ fine failed

/-- The second call begins when the first one has returned, and is told to go on once too often. -/
theorem sampleCalls_apart :
    ∃ fault, run (step Rolling.smallPolicy) (start .kInfo Rolling.smallStart)
      ([.log .kInfo (some [1, 2, 3, 4, 5]), .log .kInfo (some [6])] ++ upToFlush 0 1000 ++
        [.move 0 (sampleIo 1000)] ++ upToFlush 1 1001 ++
        [.move 1 (sampleIo 1001), .move 1 (sampleIo 1001)]) = .error fault ∧ fault = .disabled := by
  have fails : (run (step Rolling.smallPolicy) (start .kInfo Rolling.smallStart)
      ([.log .kInfo (some [1, 2, 3, 4, 5]), .log .kInfo (some [6])] ++ upToFlush 0 1000 ++
        [.move 0 (sampleIo 1000)] ++ upToFlush 1 1001 ++
        [.move 1 (sampleIo 1001), .move 1 (sampleIo 1001)])).toOption.isNone = true := by
    decide +kernel
  cases ran : run (step Rolling.smallPolicy) (start .kInfo Rolling.smallStart)
      ([.log .kInfo (some [1, 2, 3, 4, 5]), .log .kInfo (some [6])] ++ upToFlush 0 1000 ++
        [.move 0 (sampleIo 1000)] ++ upToFlush 1 1001 ++
        [.move 1 (sampleIo 1001), .move 1 (sampleIo 1001)]) with
  | ok s =>
    rw [ran] at fails
    cases fails
  | error fault =>
    have safe := kept_apart_safe Rolling.smallStart_constructed (by decide) .kInfo _
      (by decide +kernel) ran
    exact ⟨fault, rfl, safe⟩

end SyncLogger

end Clia.Log
