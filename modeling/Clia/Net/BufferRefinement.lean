import Clia.Net.Buffer
import Clia.Library.LabelledRun
import Mathlib.Logic.Function.Basic

/-!
# The network buffer is a byte queue

The abstract object is a plain list of bytes: append and a successful read add at the end,
retrieve and a successful write drop from the front, and nothing else changes it. Any number
of buffers live side by side, so that a copy is an object of its own.
-/

namespace Clia.Net

open LabelledRun

/-- A member function of one `Buffer`. Copies involve two and are calls of the heap. `readFd`
stands for the read itself, without the assertion on the first `iovec` and without the copy
into `extrabuf` at the end of `read_fd`. -/
inductive BufferOp where
  | append (data : List UInt8)
  | retrieve (len : Nat)
  | retrieveAsString (len : Nat)
  | retrieveAll
  | retrieveAllAsString
  | ensureWritableBytes (len : Nat)
  | readFd (result : ReadResult)
  | writeFd (result : WriteResult)
  deriving DecidableEq, Repr

namespace BufferOp

/-- The call on a buffer, with the string it returns or the bytes it gave to the kernel. -/
def apply (b : Buffer) : BufferOp → Except Fault (List (List UInt8) × Buffer)
  | .append data => do
    let b ← b.append data
    return ([], b)
  | .retrieve len => do
    let b ← b.retrieve len
    return ([], b)
  | .retrieveAsString len => do
    let (result, b) ← b.retrieveAsString len
    return ([result], b)
  | .retrieveAll => .ok ([], b.retrieveAll)
  | .retrieveAllAsString => do
    let (result, b) ← b.retrieveAllAsString
    return ([result], b)
  | .ensureWritableBytes len => do
    let b ← b.ensureWritableBytes len
    return ([], b)
  | .readFd result => do
    let (_, b) ← b.receive result
    return ([], b)
  | .writeFd result => do
    let (_, taken, b) ← b.writeFd result
    return ([taken], b)

/-- The same call on a byte queue. -/
def onQueue (queue : List UInt8) : BufferOp → List (List UInt8) × List UInt8
  | .append data => ([], queue ++ data)
  | .retrieve len => ([], queue.drop len)
  | .retrieveAsString len => ([queue.take len], queue.drop len)
  | .retrieveAll => ([], [])
  | .retrieveAllAsString => ([queue], [])
  | .ensureWritableBytes _ => ([], queue)
  | .readFd (.received bytes) => ([], queue ++ bytes)
  | .readFd (.failed _) => ([], queue)
  | .writeFd (.wrote n) => ([queue.take n], queue.drop n)
  | .writeFd (.failed _) => ([[]], queue)

/-- What a caller must respect: no more is retrieved than is readable, and `readv` stores no
more than it was given room for. -/
def Legal (b : Buffer) : BufferOp → Prop
  | .retrieve len => len ≤ b.readableBytes
  | .retrieveAsString len => len ≤ b.readableBytes
  | .readFd (.received bytes) => bytes.length ≤ b.writableBytes + Buffer.kExtraSize
  | _ => True

instance (b : Buffer) (op : BufferOp) : Decidable (op.Legal b) :=
  match op with
  | .retrieve len => inferInstanceAs (Decidable (len ≤ b.readableBytes))
  | .retrieveAsString len => inferInstanceAs (Decidable (len ≤ b.readableBytes))
  | .readFd (.received bytes) =>
    inferInstanceAs (Decidable (bytes.length ≤ b.writableBytes + Buffer.kExtraSize))
  | .readFd (.failed _) => isTrue trivial
  | .append _ => isTrue trivial
  | .retrieveAll => isTrue trivial
  | .retrieveAllAsString => isTrue trivial
  | .ensureWritableBytes _ => isTrue trivial
  | .writeFd _ => isTrue trivial

/-- One call on a valid buffer raises no assertion, keeps the index invariant and does to the
readable bytes what the queue operation does. -/
theorem apply_refines {b : Buffer} (inv : b.Inv) (op : BufferOp) (legal : op.Legal b) :
    ∃ after, op.apply b = .ok ((op.onQueue b.readable).1, after) ∧ after.Inv ∧
      after.readable = (op.onQueue b.readable).2 := by
  cases op with
  | append data =>
    obtain ⟨after, ok, inv', eq⟩ := Buffer.append_spec inv data
    exact ⟨after, by simp only [apply, ok, Checked.ok_bind]; rfl, inv', eq⟩
  | retrieve len =>
    obtain ⟨after, ok, inv', eq⟩ := Buffer.retrieve_spec inv legal
    exact ⟨after, by simp only [apply, ok, Checked.ok_bind]; rfl, inv', eq⟩
  | retrieveAsString len =>
    obtain ⟨after, ok, inv', eq⟩ := Buffer.retrieveAsString_spec inv legal
    exact ⟨after, by simp only [apply, ok, Checked.ok_bind]; rfl, inv', eq⟩
  | retrieveAll =>
    exact ⟨b.retrieveAll, rfl, Buffer.inv_retrieveAll inv, Buffer.readable_retrieveAll b⟩
  | retrieveAllAsString =>
    obtain ⟨after, ok, inv', eq⟩ := Buffer.retrieveAsString_spec inv (Nat.le_refl _)
    rw [← inv.readable_length, List.take_length] at ok
    rw [← inv.readable_length, List.drop_length] at eq
    refine ⟨after, ?_, inv', eq⟩
    simp only [apply, Buffer.retrieveAllAsString]
    rw [← inv.readable_length, ok]
    rfl
  | ensureWritableBytes len =>
    obtain ⟨after, ok, inv', _, eq⟩ := Buffer.ensureWritableBytes_spec inv len
    exact ⟨after, by simp only [apply, ok, Checked.ok_bind]; rfl, inv', eq⟩
  | readFd result =>
    cases result with
    | failed errno => exact ⟨b, rfl, inv, rfl⟩
    | received bytes =>
      obtain ⟨after, ok, inv', eq⟩ := Buffer.receive_spec inv bytes
      -- The kernel had room for all it returned, so nothing is cut.
      rw [List.take_of_length_le legal] at ok eq
      exact ⟨after, by simp only [apply, ok, Checked.ok_bind]; rfl, inv', eq⟩
  | writeFd result =>
    cases result with
    | failed errno => exact ⟨b, rfl, inv, rfl⟩
    | wrote n =>
      obtain ⟨after, ok, inv', eq⟩ := Buffer.writeFd_wrote_spec inv n
      exact ⟨after, by simp only [apply, ok, Checked.ok_bind]; rfl, inv', eq⟩

end BufferOp

/-! ### Several buffers -/

/-- Named objects, and what the calls on them returned so far. -/
structure Heap (Obj : Type) where
  objects : Nat → Option Obj
  results : List (List UInt8)

namespace Heap

variable {Obj : Type}

def empty : Heap Obj := ⟨fun _ => none, []⟩

def put (h : Heap Obj) (name : Nat) (obj : Obj) (results : List (List UInt8)) : Heap Obj :=
  ⟨Function.update h.objects name (some obj), h.results ++ results⟩

def map {Obj' : Type} (f : Obj → Obj') (h : Heap Obj) : Heap Obj' :=
  ⟨fun name => (h.objects name).map f, h.results⟩

theorem map_put {Obj' : Type} (f : Obj → Obj') (h : Heap Obj) (name : Nat) (obj : Obj)
    (results : List (List UInt8)) :
    (h.put name obj results).map f = (h.map f).put name (f obj) results := by
  simp only [map, put, Heap.mk.injEq, and_true]
  funext other
  by_cases same : other = name
  · subst same
    simp
  · simp [Function.update_of_ne same]

end Heap

inductive HeapCall where
  | construct (name : Nat) (initialSize : Nat)
  | copyConstruct (name source : Nat)
  | copyAssign (name source : Nat)
  | call (name : Nat) (op : BufferOp)
  deriving DecidableEq, Repr

namespace HeapCall

/-- A call on the heap of buffers. A call on an object that is not there is no step. -/
def step (h : Heap Buffer) : HeapCall → Except Fault (Heap Buffer)
  | .construct name initialSize => .ok (h.put name (Buffer.new initialSize) [])
  | .copyConstruct name source =>
    match h.objects source with
    | some oth => .ok (h.put name ⟨oth.buffer, oth.readerIndex, oth.writerIndex⟩ [])
    | none => .error .disabled
  | .copyAssign name source =>
    match h.objects name, h.objects source with
    | some _, some oth =>
      -- `if (&oth != this)`: assignment of an object to itself does nothing.
      if source = name then .ok h
      else .ok (h.put name ⟨oth.buffer, oth.readerIndex, oth.writerIndex⟩ [])
    | _, _ => .error .disabled
  | .call name op =>
    match h.objects name with
    | some b => do
      let (results, b) ← op.apply b
      return h.put name b results
    | none => .error .disabled

/-- The same call on a heap of byte queues. -/
def onQueues (h : Heap (List UInt8)) : HeapCall → Heap (List UInt8)
  | .construct name _ => h.put name [] []
  | .copyConstruct name source =>
    match h.objects source with
    | some queue => h.put name queue []
    | none => h
  | .copyAssign name source =>
    match h.objects source with
    | some queue => h.put name queue []
    | none => h
  | .call name op =>
    match h.objects name with
    | some queue => h.put name (op.onQueue queue).2 (op.onQueue queue).1
    | none => h

/-- The objects of the call exist and the call respects its preconditions. -/
def Legal (h : Heap Buffer) : HeapCall → Prop
  | .construct _ _ => True
  | .copyConstruct _ source => ∃ oth, h.objects source = some oth
  | .copyAssign name source =>
    (∃ b, h.objects name = some b) ∧ ∃ oth, h.objects source = some oth
  | .call name op => ∃ b, h.objects name = some b ∧ op.Legal b

instance (h : Heap Buffer) (c : HeapCall) : Decidable (c.Legal h) :=
  match c with
  | .construct _ _ => isTrue trivial
  | .copyConstruct _ source =>
    decidable_of_iff ((h.objects source).isSome = true) Option.isSome_iff_exists
  | .copyAssign name source =>
    decidable_of_iff ((h.objects name).isSome = true ∧ (h.objects source).isSome = true)
      (and_congr Option.isSome_iff_exists Option.isSome_iff_exists)
  | .call name op =>
    match found : h.objects name with
    | some b => decidable_of_iff (op.Legal b) (by simp [Legal, found])
    | none => isFalse (by simp [Legal, found])

/-- Every object satisfies the index invariant. -/
def Valid (h : Heap Buffer) : Prop := ∀ name b, h.objects name = some b → b.Inv

private theorem valid_put {h : Heap Buffer} (valid : Valid h) (name : Nat) {b : Buffer}
    (inv : b.Inv) (results : List (List UInt8)) : Valid (h.put name b results) := by
  intro other found eq
  by_cases same : other = name
  · subst same
    simp only [Heap.put, Function.update_self, Option.some.injEq] at eq
    subst eq
    exact inv
  · simp only [Heap.put, Function.update_of_ne same] at eq
    exact valid other found eq

private theorem put_self (h : Heap Buffer) (name : Nat) (b : Buffer)
    (there : h.objects name = some b) : h.put name b [] = h := by
  cases h with
  | mk objects results =>
    simp only [Heap.put, List.append_nil, Heap.mk.injEq, and_true]
    rw [← there, Function.update_eq_self]

/-- Step lemma: a legal call on valid buffers refines the call on their queues. -/
theorem step_refines {h : Heap Buffer} (valid : Valid h) (c : HeapCall) (legal : c.Legal h) :
    ∃ h', c.step h = .ok h' ∧ Valid h' ∧
      h'.map Buffer.readable = c.onQueues (h.map Buffer.readable) := by
  cases c with
  | construct name initialSize =>
    refine ⟨_, rfl, valid_put valid name (Buffer.inv_new initialSize) [], ?_⟩
    rw [Heap.map_put, Buffer.readable_new]
    rfl
  | copyConstruct name source =>
    obtain ⟨oth, found⟩ := legal
    refine ⟨h.put name oth [], by simp only [step, found],
      valid_put valid name (valid source oth found) [], ?_⟩
    rw [Heap.map_put]
    simp only [onQueues, Heap.map, found, Option.map_some]
  | copyAssign name source =>
    obtain ⟨⟨b, here⟩, oth, found⟩ := legal
    refine ⟨h.put name oth [], ?_, valid_put valid name (valid source oth found) [], ?_⟩
    · simp only [step, here, found]
      split
      next same =>
        subst same
        -- Assigned to itself: the queue of the source is the queue that stands there.
        rw [put_self h source oth found]
      next different => rfl
    · rw [Heap.map_put]
      simp only [onQueues, Heap.map, found, Option.map_some]
  | call name op =>
    obtain ⟨b, here, op_legal⟩ := legal
    obtain ⟨after, ok, inv', eq⟩ := op.apply_refines (valid name b here) op_legal
    refine ⟨h.put name after (op.onQueue b.readable).1, ?_, valid_put valid name inv' _, ?_⟩
    · simp only [step, here, ok, Checked.ok_bind, Checked.pure_eq_ok]
    · rw [Heap.map_put, eq]
      simp only [onQueues, Heap.map, here, Option.map_some]

/-- **FIFO refinement**: every sequence of legal calls runs without a failed assertion, keeps
`kCheapPrepend <= reader_index_ <= writer_index_ <= buffer_.size()` on every buffer, and
leaves readable bytes and results equal to those of the byte queues. -/
theorem buffers_refine_queues (calls : List HeapCall)
    (legal : Along step Legal Heap.empty calls) :
    ∃ h, run step Heap.empty calls = .ok h ∧
      (∀ name b, h.objects name = some b →
        Buffer.kCheapPrepend ≤ b.readerIndex ∧ b.readerIndex ≤ b.writerIndex ∧
          b.writerIndex ≤ b.buffer.length) ∧
      h.map Buffer.readable = calls.foldl onQueues Heap.empty := by
  -- By induction on the calls, from any heap of valid buffers.
  have general : ∀ (h₀ : Heap Buffer) (calls : List HeapCall), Valid h₀ →
      Along step Legal h₀ calls → ∃ h, run step h₀ calls = .ok h ∧ Valid h ∧
        h.map Buffer.readable = calls.foldl onQueues (h₀.map Buffer.readable) := by
    intro h₀ calls
    induction calls generalizing h₀ with
    | nil => intro valid _; exact ⟨h₀, rfl, valid, rfl⟩
    | cons c calls ih =>
      intro valid along
      obtain ⟨h₁, taken, valid₁, eq⟩ := step_refines valid c along.1
      obtain ⟨h, ran, valid', final⟩ := ih h₁ valid₁ (along.2 h₁ taken)
      exact ⟨h, by rw [run_cons_ok _ taken, ran], valid', by rw [final, eq]; rfl⟩
  obtain ⟨h, ran, valid, eq⟩ := general Heap.empty calls (by intro name b eq; cases eq) legal
  exact ⟨h, ran, fun name b found => ⟨(valid name b found).prepend,
    (valid name b found).ordered, (valid name b found).bounded⟩, eq⟩

/-- A copy, a read that does not fit the vector, and a partial write. -/
def sampleCalls : List HeapCall :=
  [.construct 0 2, .call 0 (.append [1, 2, 3]), .copyConstruct 1 0,
    .call 0 (.readFd (.received [4, 5])), .call 0 (.writeFd (.wrote 4)),
    .call 1 (.retrieveAsString 2)]

theorem sampleCalls_refine :
    ∃ h, run step Heap.empty sampleCalls = .ok h ∧
      (∀ name b, h.objects name = some b →
        Buffer.kCheapPrepend ≤ b.readerIndex ∧ b.readerIndex ≤ b.writerIndex ∧
          b.writerIndex ≤ b.buffer.length) ∧
      h.map Buffer.readable = sampleCalls.foldl onQueues Heap.empty := by
  apply buffers_refine_queues
  decide

end HeapCall

end Clia.Net
