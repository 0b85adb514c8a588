import Clia.Net.BufferRefinement

/-!
# Moved-from buffers

The move constructor and the move assignment of `Buffer` take the vector of the source and set its
two indices to `kCheapPrepend`, as in a buffer that was just constructed. But the constructor also
gives the vector `kCheapPrepend` bytes, and a moved-from `std::vector` is empty. So the indices of
the source lie outside of its vector, and `writable_bytes()`, a difference of unsigned numbers,
wraps around.

## Main result

`MoveCall.leaves_empty_iff`: a move leaves its source a valid empty buffer only if it does nothing,
namely as the assignment of an empty buffer to itself.
-/

namespace Clia.Net

open LabelledRun ListStore

namespace Buffer

/-- The source after a move. -/
def movedFrom : Buffer := ⟨[], kCheapPrepend, kCheapPrepend⟩

end Buffer

/-! ### Sequences of calls on one buffer -/

namespace BufferOp

/-- A call on a buffer, behind the results so far. -/
def applyTo (s : List (List UInt8) × Buffer) (op : BufferOp) :
    Except Fault (List (List UInt8) × Buffer) := do
  let (results, b) ← op.apply s.2
  return (s.1 ++ results, b)

/-- The same on a byte queue. -/
def onQueueTo (s : List (List UInt8) × List UInt8) (op : BufferOp) :
    List (List UInt8) × List UInt8 :=
  (s.1 ++ (op.onQueue s.2).1, (op.onQueue s.2).2)

end BufferOp

namespace Buffer

/-- Every sequence of legal calls returns, with the results and the readable bytes of the queue. -/
def BehavesAs (b : Buffer) (queue : List UInt8) : Prop :=
  ∀ ops, Along BufferOp.applyTo (fun s op => op.Legal s.2) ([], b) ops →
    ∃ after, run BufferOp.applyTo ([], b) ops =
        .ok ((ops.foldl BufferOp.onQueueTo ([], queue)).1, after) ∧
      after.readable = (ops.foldl BufferOp.onQueueTo ([], queue)).2

/-- A buffer that keeps the index invariant behaves as the queue of its readable bytes. -/
theorem Inv.behavesAs {b : Buffer} (inv : Inv b) : b.BehavesAs b.readable := by
  have general : ∀ (ops : List BufferOp) (results : List (List UInt8)) (b : Buffer), b.Inv →
      Along BufferOp.applyTo (fun s op => op.Legal s.2) (results, b) ops →
      ∃ after, run BufferOp.applyTo (results, b) ops =
          .ok ((ops.foldl BufferOp.onQueueTo (results, b.readable)).1, after) ∧
        after.readable = (ops.foldl BufferOp.onQueueTo (results, b.readable)).2 := by
    -- Induction on the calls, from any results and any valid buffer.
    intro ops
    induction ops with
    | nil =>
      intro results b _ _
      exact ⟨b, rfl, rfl⟩
    | cons op ops ih =>
      intro results b inv along
      obtain ⟨c, applied, inv', readable_eq⟩ := op.apply_refines inv along.1
      have taken : BufferOp.applyTo (results, b) op =
          .ok (results ++ (op.onQueue b.readable).1, c) := by
        simp only [BufferOp.applyTo, applied, Checked.ok_bind, Checked.pure_eq_ok]
      obtain ⟨after, ran, final⟩ := ih _ c inv' (along.2 _ taken)
      rw [readable_eq] at ran final
      exact ⟨after, by rw [run_cons_ok ops taken, ran]; rfl, final⟩
  exact fun ops along => general ops [] b inv along

/-! ### What a moved-from buffer does -/

theorem movedFrom_not_inv : ¬Inv movedFrom := by
  intro inv
  exact absurd inv.bounded (by decide)

/-- All of the address space seems writable behind the empty vector. -/
theorem movedFrom_writableBytes : movedFrom.writableBytes = UInt64.size - kCheapPrepend := by
  decide

/-- An append goes through without a look at the vector, and stores outside of it. -/
theorem movedFrom_append {data : List UInt8} (fits : data.length ≤ UInt64.size - kCheapPrepend) :
    movedFrom.append data = .error .outOfBounds := by
  have room : ¬movedFrom.writableBytes < data.length := by
    rw [movedFrom_writableBytes]
    omega
  have outside : ¬movedFrom.writerIndex + data.length ≤ movedFrom.buffer.length := by
    simp [movedFrom, kCheapPrepend]
  simp only [append, ensureWritableBytes, if_neg room, Checked.pure_eq_ok, Checked.ok_bind,
    cassert_pos _ (Nat.le_of_not_lt room), copyIn, Checked.require_neg _ outside,
    Checked.error_bind]

/-- So does a read, which even passes the assertion on the first `iovec`. -/
theorem movedFrom_readFd (bytes : List UInt8) :
    movedFrom.readFd (.received bytes) = .error .outOfBounds := by
  have room : 0 < movedFrom.writableBytes := by
    rw [movedFrom_writableBytes]
    decide
  have outside : ∀ data : List UInt8,
      ¬movedFrom.writerIndex + data.length ≤ movedFrom.buffer.length := by
    intro data
    simp [movedFrom, kCheapPrepend]
  simp only [readFd, cassert_pos _ room, Checked.ok_bind, receive, copyIn,
    Checked.require_neg _ (outside _), Checked.error_bind]

theorem movedFrom_not_behavesAs : ¬movedFrom.BehavesAs [] := by
  intro behaves
  obtain ⟨after, ran, _⟩ := behaves [.append [0]] ⟨trivial, fun _ _ => trivial⟩
  have fits : ([0] : List UInt8).length ≤ UInt64.size - kCheapPrepend := by decide
  have overrun : BufferOp.applyTo ([], movedFrom) (.append [0]) = .error .outOfBounds := by
    simp only [BufferOp.applyTo, BufferOp.apply, movedFrom_append fits, Checked.error_bind]
  simp [run, overrun] at ran

end Buffer

/-! ### Moves -/

inductive MoveCall where
  | moveConstruct (name source : Nat)
  | moveAssign (name source : Nat)
  deriving DecidableEq, Repr

namespace MoveCall

def name : MoveCall → Nat
  | .moveConstruct name _ | .moveAssign name _ => name

def source : MoveCall → Nat
  | .moveConstruct _ source | .moveAssign _ source => source

/-- The fields of the source go to the object `name`, and the source is reset. -/
def moved (h : Heap Buffer) (name source : Nat) (oth : Buffer) : Heap Buffer :=
  (h.put name ⟨oth.buffer, oth.readerIndex, oth.writerIndex⟩ []).put source .movedFrom []

/-- A move on the heap of buffers. A call on an object that is not there is no step, and an object
is not constructed from itself. -/
def step (h : Heap Buffer) : MoveCall → Except Fault (Heap Buffer)
  | .moveConstruct name source =>
    match h.objects source with
    | some oth => if source = name then .error .disabled else .ok (moved h name source oth)
    | none => .error .disabled
  | .moveAssign name source =>
    match h.objects name, h.objects source with
    | some _, some oth =>
      -- `if (&oth != this)`: assignment of an object to itself does nothing.
      if source = name then .ok h else .ok (moved h name source oth)
    | _, _ => .error .disabled

/-- The objects of the move exist, and a constructor has a source other than its object. -/
def Legal (h : Heap Buffer) : MoveCall → Prop
  | .moveConstruct name source => source ≠ name ∧ ∃ oth, h.objects source = some oth
  | .moveAssign name source => (∃ b, h.objects name = some b) ∧ ∃ oth, h.objects source = some oth

/-- The assignment of an object to itself. -/
def OnItself : MoveCall → Prop
  | .moveConstruct _ _ => False
  | .moveAssign name source => source = name

/-- The move returns, the destination has the former contents of the source, and the source is a
valid buffer that behaves as an empty queue. -/
def LeavesEmpty (h : Heap Buffer) (m : MoveCall) (oth : Buffer) : Prop :=
  ∃ h', m.step h = .ok h' ∧ (∃ d, h'.objects m.name = some d ∧ d.readable = oth.readable) ∧
    ∃ b, h'.objects m.source = some b ∧ b.Inv ∧ b.BehavesAs []

/-- A move between two objects leaves the source as `movedFrom`. -/
theorem moved_source (h : Heap Buffer) (name source : Nat) (oth : Buffer) :
    (moved h name source oth).objects source = some .movedFrom := by
  simp [moved, Heap.put]

/-- The destination, at least, is right. -/
theorem moved_destination (h : Heap Buffer) {name source : Nat} (different : source ≠ name)
    (oth : Buffer) : (moved h name source oth).objects name = some oth := by
  simp [moved, Heap.put, Function.update_of_ne different.symm]

theorem not_leavesEmpty_of_moved {h : Heap Buffer} {m : MoveCall} {oth : Buffer}
    (taken : m.step h = .ok (moved h m.name m.source oth)) : ¬m.LeavesEmpty h oth := by
  rintro ⟨h', ok, _, b, found, inv, _⟩
  rw [taken] at ok
  cases ok
  rw [moved_source] at found
  cases found
  exact Buffer.movedFrom_not_inv inv

/-- An assignment of an object to itself leaves it as it is. -/
theorem leavesEmpty_self_iff {h : Heap Buffer} {name : Nat} {oth : Buffer}
    (found : h.objects name = some oth) :
    (moveAssign name name).LeavesEmpty h oth ↔ oth.Inv ∧ oth.readable = [] := by
  have taken : (moveAssign name name).step h = .ok h := by
    simp only [step, found, if_true]
  constructor
  · rintro ⟨h', ok, _, b, found', inv, behaves⟩
    rw [taken] at ok
    cases ok
    obtain rfl : oth = b := Option.some.inj (found.symm.trans found')
    apply And.intro inv
    -- No call at all leaves the readable bytes of the queue.
    obtain ⟨after, ran, empty⟩ := behaves [] trivial
    cases ran
    exact empty
  · rintro ⟨inv, empty⟩
    have behaves := inv.behavesAs
    rw [empty] at behaves
    exact ⟨h, taken, ⟨oth, found, rfl⟩, oth, found, inv, behaves⟩

/-- **Moved-from buffers**: for every state of the buffers and every move, the source is left a valid
empty buffer exactly if the move is the assignment of an object to itself, and that object is a
valid empty buffer. -/
theorem leaves_empty_iff {h : Heap Buffer} {m : MoveCall} (legal : m.Legal h) {oth : Buffer}
    (found : h.objects m.source = some oth) :
    m.LeavesEmpty h oth ↔ m.OnItself ∧ oth.Inv ∧ oth.readable = [] := by
  cases m with
  | moveConstruct name source =>
    simp only [MoveCall.source] at found
    have taken : (moveConstruct name source).step h = .ok (moved h name source oth) := by
      simp only [step, found, if_neg legal.1]
    apply iff_of_false (not_leavesEmpty_of_moved taken)
    exact fun condition => condition.1
  | moveAssign name source =>
    simp only [MoveCall.source] at found
    obtain ⟨⟨b, here⟩, _⟩ := legal
    by_cases same : source = name
    · subst same
      rw [leavesEmpty_self_iff found]
      exact (and_iff_right rfl).symm
    · have taken : (moveAssign name source).step h = .ok (moved h name source oth) := by
        simp only [step, here, found, if_neg same]
      apply iff_of_false (not_leavesEmpty_of_moved taken)
      exact fun condition => same condition.1

/-- One buffer, just constructed. -/
def oneBuffer : Heap Buffer := Heap.empty.put 0 (Buffer.new 4) []

/-- It may be assigned to itself. -/
theorem oneBuffer_onItself : (moveAssign 0 0).LeavesEmpty oneBuffer (Buffer.new 4) := by
  have legal : (moveAssign 0 0).Legal oneBuffer := ⟨⟨_, rfl⟩, _, rfl⟩
  apply (leaves_empty_iff legal rfl).mpr
  exact ⟨rfl, Buffer.inv_new 4, Buffer.readable_new 4⟩

/-- As the source of a constructor it is left with its indices outside of its vector, and the next
append of a byte stores there. -/
theorem oneBuffer_moved :
    ¬(moveConstruct 1 0).LeavesEmpty oneBuffer (Buffer.new 4) ∧
      ∃ h b, (moveConstruct 1 0).step oneBuffer = .ok h ∧ h.objects 0 = some b ∧
        b.append [0] = .error .outOfBounds := by
  have taken : (moveConstruct 1 0).step oneBuffer = .ok (moved oneBuffer 1 0 (Buffer.new 4)) := rfl
  have fits : ([0] : List UInt8).length ≤ UInt64.size - Buffer.kCheapPrepend := by decide
  constructor
  · exact not_leavesEmpty_of_moved taken
  · exact ⟨_, _, taken, moved_source _ _ _ _, Buffer.movedFrom_append fits⟩

end MoveCall

end Clia.Net
