import Clia.Log.Event

/-!
# Log lines

`log/event.cc`: an `Event` writes its line into 1024 bytes on the stack, a `LargeEvent` into a
`std::stringstream`. Both begin with `tips_message`, take the operands of the log statement and hand
the line to the logger in the destructor. The stream of a `LargeEvent` has no end, so its line is the
plain one. An `Event` has two ways to fall short of it: a text that does not fit fails an assertion,
and an integer within the last 32 bytes is left out without a sign.

## Main result

`Statement.line_agrees`: whatever a thread has logged before, the line of an `Event` is the one of a
`LargeEvent` exactly if every operand finds its room where it stands.
-/

namespace Clia.Log

open CString Container LabelledRun Util

/-- What a log statement hands to the stream: an operand of `<<`, or a call of `format` or an
operand that goes through the `printf` family. -/
inductive Item (Arg : Type) where
  | operand (op : Operand)
  | print (ins : Print Arg)

/-- A log statement: the call of `tips_message`, and the items behind it. -/
structure Statement (Arg : Type) where
  call : LogCall
  items : List (Item Arg)

variable {Arg : Type} (sprint : List UInt8 → List Arg → Formatted)

/-- The text of an item, `convert` and the room aside. -/
def Item.shown : Item Arg → List UInt8
  | .operand op => op.shown
  | .print ins =>
    match ins.formatted sprint with
    | .text bytes => bytes
    | .failed _ _ => []

/-! ### The two streams -/

/-- `<<` and `format` of a `FixedOStream`. -/
def Item.fixed {Nm : Nat} (out : FixedOStream Nm) : Item Arg → Except Fault (FixedOStream Nm)
  | .operand (.text ins) => out.insert ins
  | .operand (.integral val) => out.insertIntegral val
  | .print ins => out.print sprint ins

/-- A `std::stringstream`. Once it is bad, it takes nothing any more. -/
structure StringStream where
  str : List UInt8
  bad : Bool
  deriving DecidableEq, Repr

def StringStream.write (out : StringStream) (bytes : List UInt8) : StringStream :=
  if out.bad then out else { out with str := out.str ++ bytes }

/-- `<<` of a `std::stringstream`, and `LargeEvent::format`. `inserted` is how the library shows
pointers and floating-point numbers. -/
def Item.large (inserted : Print Arg → List UInt8) (out : StringStream) : Item Arg → StringStream
  -- A null pointer leaves the stream bad.
  | .operand (.text (.cstring none)) => { out with bad := true }
  | .operand (.text ins) => out.write ins.text
  -- An `unsigned char` is a character here.
  | .operand (.integral (.unsignedChar val)) => out.write [val]
  | .operand (.integral val) => out.write (signed val.value)
  | .print (.format fmt args) =>
    match sprint fmt args with
    | .text bytes => out.write bytes
    | .failed _ _ => out
  | .print ins => out.write (inserted ins)

/-! ### The two events -/

/-- The stream of an `Event`. -/
def kEventSize : Nat := 1024

namespace Statement

/-- An `Event` from its constructor to `logger_->log`, with the message that the logger gets. -/
def event (zone : LocalTime) (process : Process) (memory : Nat → UInt8) (s : TimeCache)
    (stmt : Statement Arg) : Except Fault (TimeCache × List UInt8) := do
  let (s, tips) ← s.tipsMessage zone process stmt.call
  let out ← run (Item.fixed sprint) (FixedOStream.new kEventSize memory)
    (tips.map Item.operand ++ stmt.items)
  let out ← out.insert (.character 10)
  return (s, out.buffer.contents)

/-- A `LargeEvent`. -/
def largeEvent (zone : LocalTime) (process : Process) (inserted : Print Arg → List UInt8)
    (s : TimeCache) (stmt : Statement Arg) : Except Fault (TimeCache × List UInt8) := do
  let (s, tips) ← s.tipsMessage zone process stmt.call
  let out := (tips.map Item.operand ++ stmt.items).foldl (Item.large sprint inserted) ⟨[], false⟩
  let out := out.write [10]
  return (s, out.str)

/-- What a statement leaves for the next one of its thread. -/
def step (zone : LocalTime) (process : Process) (s : TimeCache) (stmt : Statement Arg) :
    Except Fault TimeCache := s.step zone process stmt.call

/-- All items of the line, with the time as a text. -/
def whole (process : Process) (time : List UInt8) (stmt : Statement Arg) : List (Item Arg) :=
  (.text (.string time) :: stmt.call.origin process).map Item.operand ++ stmt.items ++
    [.operand (.text (.character 10))]

end Statement

/-! ### Room for an item -/

/-- There is room behind `pos` of the `Nm` bytes: for the text and a byte more, and for an integer,
which `convert` only shows without a sign, at least 32 bytes. -/
def Item.Fits (Nm pos : Nat) : Item Arg → Prop
  | .operand (.text ins) => pos + ins.text.length < Nm
  | .operand (.integral val) => 0 ≤ val.value ∧ pos + 32 ≤ Nm
  | .print ins =>
    match ins.formatted sprint with
    | .text bytes => pos + bytes.length < Nm
    | .failed _ _ => False

instance (Nm pos : Nat) (item : Item Arg) : Decidable (item.Fits sprint Nm pos) := by
  unfold Item.Fits
  split
  · infer_instance
  · infer_instance
  · split <;> infer_instance

/-- Every item finds its room where it stands. -/
def Legible (Nm pos : Nat) : List (Item Arg) → Prop
  | [] => True
  | item :: items => item.Fits sprint Nm pos ∧ Legible Nm (pos + (item.shown sprint).length) items

instance Legible.decide (Nm : Nat) : ∀ (pos : Nat) (items : List (Item Arg)),
    Decidable (Legible sprint Nm pos items)
  | _, [] => isTrue trivial
  | pos, item :: items =>
    have := Legible.decide Nm (pos + (item.shown sprint).length) items
    inferInstanceAs (Decidable (_ ∧ _))

/-- The text of a row of items. -/
def shownAll (items : List (Item Arg)) : List UInt8 := items.flatMap (Item.shown sprint)

section

variable {sprint} {Nm : Nat} {out after : FixedOStream Nm}

/-- No integer type has a value of more than twenty digits. -/
theorem integral_small (val : Integral) : val.value.natAbs < 10 ^ 20 := by
  cases val with
  | unsignedChar val => have bound := val.toNat_lt; simp only [Integral.value]; omega
  | unsignedShort val => have bound := val.toNat_lt; simp only [Integral.value]; omega
  | unsignedInt val => have bound := val.toNat_lt; simp only [Integral.value]; omega
  | unsignedLong val => have bound := val.toNat_lt; simp only [Integral.value]; omega
  | unsignedLongLong val => have bound := val.toNat_lt; simp only [Integral.value]; omega
  | short val => have low := val.le_toInt; have high := val.toInt_lt; simp only [Integral.value]; omega
  | int val => have low := val.le_toInt; have high := val.toInt_lt; simp only [Integral.value]; omega
  | long val => have low := val.le_toInt; have high := val.toInt_lt; simp only [Integral.value]; omega
  | longLong val =>
    have low := val.le_toInt
    have high := val.toInt_lt
    simp only [Integral.value]
    omega

/-- An integer with room: its numeral is appended. -/
theorem insertIntegral_fits {val : Integral} (nonneg : 0 ≤ val.value)
    (room : out.buffer.cur + 32 ≤ Nm) :
    ∃ after, out.insertIntegral val = .ok after ∧
      after.buffer.cur = out.buffer.cur + (signed val.value).length ∧
      after.buffer.contents = out.buffer.contents ++ signed val.value := by
  obtain ⟨n, eq⟩ := Int.eq_ofNat_of_zero_le nonneg
  have small := integral_small val
  have short : (decimal n).length ≤ 20 := by
    rw [decimal_length_le_iff (by decide)]
    omega
  have large : 32 ≤ out.buffer.region.length := by
    rw [FixedBuffer.region_length, FixedBuffer.avail]
    omega
  have converted := convert_fits large (by omega : (decimal n).length < _)
  have unsigned : signed n = decimal n := rfl
  rw [FixedOStream.insertIntegral, eq, unsigned]
  exact FixedOStream.insertValue_renders converted (by omega)

/-- One without: nothing is, or `convert` indexes `kDigits` with a negative remainder. -/
theorem insertIntegral_short {val : Integral} (inside : out.buffer.cur < Nm)
    (unfit : ¬(0 ≤ val.value ∧ out.buffer.cur + 32 ≤ Nm))
    (ok : out.insertIntegral val = .ok after) : after.buffer.cur = out.buffer.cur := by
  obtain ⟨⟨bytes, n⟩, converted, ok⟩ := Checked.bind_ok_iff.mp ok
  by_cases room : out.buffer.cur + 32 ≤ Nm
  · have large : 32 ≤ out.buffer.region.length := by
      rw [FixedBuffer.region_length, FixedBuffer.avail]
      omega
    exact absurd ⟨convert_nonneg large converted, room⟩ unfit
  · have small : out.buffer.region.length < 32 := by
      rw [FixedBuffer.region_length, FixedBuffer.avail]
      omega
    rw [convert, if_pos small] at converted
    cases converted
    obtain ⟨buffer, added, ok⟩ := Checked.bind_ok_iff.mp ok
    cases ok
    have nothing := FixedBuffer.add_ok
      { out.buffer with data := store out.buffer.data out.buffer.cur out.buffer.region } 0 inside
    obtain rfl := Except.ok.inj (nothing.symm.trans added)
    rfl

/-- An item that fits is shown. -/
theorem Item.fixed_fits {item : Item Arg} (fits : item.Fits sprint Nm out.buffer.cur) :
    ∃ after, item.fixed sprint out = .ok after ∧
      after.buffer.cur = out.buffer.cur + (item.shown sprint).length ∧
      after.buffer.contents = out.buffer.contents ++ item.shown sprint := by
  cases item with
  | operand op =>
    cases op with
    | text ins =>
      exact ⟨_, FixedOStream.insert_ok out ins fits, rfl, FixedBuffer.contents_pushed _ _⟩
    | integral val => exact insertIntegral_fits fits.1 fits.2
  | print ins =>
    simp only [Item.fixed, Item.shown, FixedOStream.print]
    cases result : ins.formatted sprint with
    | text bytes =>
      simp only [Item.Fits, result] at fits
      exact FixedOStream.printed_ok fits
    | failed code negative => simp [Item.Fits, result] at fits

/-- What an item leaves in the stream is never longer than its text, and only as long if it fits. -/
theorem Item.fixed_inv (int_size : Nm < 2 ^ 31) (inside : out.buffer.cur < Nm) {item : Item Arg}
    (ok : item.fixed sprint out = .ok after) :
    after.buffer.cur < Nm ∧ after.buffer.cur ≤ out.buffer.cur + (item.shown sprint).length ∧
      (after.buffer.cur = out.buffer.cur + (item.shown sprint).length →
        item.Fits sprint Nm out.buffer.cur) := by
  by_cases fits : item.Fits sprint Nm out.buffer.cur
  · obtain ⟨after', ok', cur, _⟩ := Item.fixed_fits fits
    obtain rfl : after' = after := Except.ok.inj (ok'.symm.trans ok)
    refine ⟨?_, Nat.le_of_eq cur, fun _ => fits⟩
    rw [cur]
    cases item with
    | operand op =>
      cases op with
      | text ins => exact fits
      | integral val =>
        have digits := signed_length_le (by decide : 0 < 20) (integral_small val)
        simp only [Item.Fits] at fits
        simp only [Item.shown, Operand.shown]
        omega
    | print ins =>
      simp only [Item.shown]
      cases result : ins.formatted sprint with
      | text bytes => simpa only [Item.Fits, result] using fits
      | failed code negative => simp [Item.Fits, result] at fits
  · cases item with
    | operand op =>
      cases op with
      | text ins =>
        obtain ⟨site, failed⟩ := FixedOStream.insert_full out ins inside (Nat.le_of_not_lt fits)
        rw [Item.fixed, failed] at ok
        cases ok
      | integral val =>
        have same := insertIntegral_short inside fits ok
        have digits : (signed val.value).length ≠ 0 := by
          cases eq : val.value with
          | ofNat n => simpa [signed] using decimal_ne_nil n
          | negSucc n => simp [signed]
        simp only [Item.shown, Operand.shown]
        refine ⟨by omega, by omega, fun longer => ?_⟩
        omega
    | print ins =>
      exfalso
      have cut : ¬out.NotCutOff (ins.formatted sprint) := by
        intro whole
        apply fits
        cases result : ins.formatted sprint with
        | text bytes =>
          simp only [result, FixedOStream.NotCutOff, FixedBuffer.avail] at whole
          simp only [Item.Fits, result]
          omega
        | failed code negative =>
          rw [result] at whole
          exact whole.elim
      rw [Item.fixed, FixedOStream.print, FixedOStream.printed_refused int_size inside cut] at ok
      cases ok

/-! ### The whole line -/

theorem shownAll_cons (item : Item Arg) (items : List (Item Arg)) :
    shownAll sprint (item :: items) = item.shown sprint ++ shownAll sprint items := rfl

theorem shownAll_append (xs ys : List (Item Arg)) :
    shownAll sprint (xs ++ ys) = shownAll sprint xs ++ shownAll sprint ys := List.flatMap_append

/-- Items that all find their room are shown one behind the other. -/
theorem run_legible {items : List (Item Arg)} (legible : Legible sprint Nm out.buffer.cur items) :
    ∃ after, run (Item.fixed sprint) out items = .ok after ∧
      after.buffer.cur = out.buffer.cur + (shownAll sprint items).length ∧
      after.buffer.contents = out.buffer.contents ++ shownAll sprint items := by
  induction items generalizing out with
  | nil => exact ⟨out, rfl, rfl, (List.append_nil _).symm⟩
  | cons item items ih =>
    obtain ⟨first, later⟩ := legible
    obtain ⟨mid, ok, cur, contents⟩ := Item.fixed_fits first
    rw [← cur] at later
    obtain ⟨after, ran, cur', contents'⟩ := ih later
    refine ⟨after, by rw [run_cons_ok _ ok, ran], ?_, ?_⟩
    · rw [cur', cur, shownAll_cons, List.length_append, Nat.add_assoc]
    · rw [contents', contents, shownAll_cons, List.append_assoc]

/-- A row of items is never longer than its text, and only as long if all find their room. -/
theorem run_length (int_size : Nm < 2 ^ 31) (inside : out.buffer.cur < Nm) {items : List (Item Arg)}
    (ran : run (Item.fixed sprint) out items = .ok after) :
    after.buffer.cur < Nm ∧ after.buffer.cur ≤ out.buffer.cur + (shownAll sprint items).length ∧
      (after.buffer.cur = out.buffer.cur + (shownAll sprint items).length →
        Legible sprint Nm out.buffer.cur items) := by
  induction items generalizing out with
  | nil =>
    cases ran
    exact ⟨inside, Nat.le_refl _, fun _ => trivial⟩
  | cons item items ih =>
    obtain ⟨mid, ok, rest⟩ := run_cons_inv ran
    obtain ⟨below, short, fits⟩ := Item.fixed_inv int_size inside ok
    obtain ⟨below', short', legible⟩ := ih below rest
    rw [shownAll_cons, List.length_append]
    refine ⟨below', by omega, ?_⟩
    intro all
    -- No item has lost anything, so each stands where the text has it.
    have here : mid.buffer.cur = out.buffer.cur + (item.shown sprint).length := by omega
    exact ⟨fits here, here ▸ legible (by omega)⟩

end

/-! ### Operands that both streams show alike -/

/-- No null pointer, no `unsigned char`, and of the `printf` family only a `format` that succeeds. -/
def Item.Plain : Item Arg → Prop
  | .operand (.text (.cstring none)) => False
  | .operand (.text _) => True
  | .operand (.integral (.unsignedChar _)) => False
  | .operand (.integral _) => True
  | .print (.format fmt args) => ∃ bytes, sprint fmt args = .text bytes
  | .print _ => False

section

variable {sprint} {inserted : Print Arg → List UInt8}

theorem Item.large_plain {item : Item Arg} (plain : item.Plain sprint) (str : List UInt8) :
    item.large sprint inserted ⟨str, false⟩ = ⟨str ++ item.shown sprint, false⟩ := by
  match item, plain with
  | .operand (.text (.cstring (some text))), _ => rfl
  | .operand (.text (.character val)), _ => rfl
  | .operand (.text (.string text)), _ => rfl
  | .operand (.integral (.short val)), _ => rfl
  | .operand (.integral (.unsignedShort val)), _ => rfl
  | .operand (.integral (.int val)), _ => rfl
  | .operand (.integral (.unsignedInt val)), _ => rfl
  | .operand (.integral (.long val)), _ => rfl
  | .operand (.integral (.unsignedLong val)), _ => rfl
  | .operand (.integral (.unsignedLongLong val)), _ => rfl
  | .operand (.integral (.longLong val)), _ => rfl
  | .print (.format fmt args), ⟨bytes, eq⟩ =>
    simp only [Item.large, Item.shown, Print.formatted, eq]
    rfl

theorem foldl_large {items : List (Item Arg)} (plain : ∀ item ∈ items, item.Plain sprint)
    (str : List UInt8) :
    items.foldl (Item.large sprint inserted) ⟨str, false⟩ = ⟨str ++ shownAll sprint items, false⟩ := by
  induction items generalizing str with
  | nil => simp [shownAll]
  | cons item items ih =>
    rw [List.foldl_cons, Item.large_plain (plain item (by simp)),
      ih (fun item member => plain item (by simp [member])), shownAll_cons, List.append_assoc]

/-- Of a located call all operands of `tips_message` are plain. -/
theorem origin_plain (process : Process) {call : LogCall} (located : call.Located) :
    ∀ item ∈ (call.origin process).map (@Item.operand Arg), item.Plain sprint := by
  obtain ⟨file, _, func⟩ := located
  obtain ⟨path, path_eq⟩ := Option.ne_none_iff_exists'.mp file
  obtain ⟨name, name_eq⟩ := Option.ne_none_iff_exists'.mp func
  intro item member
  simp only [LogCall.origin, path_eq, name_eq, Option.map_some, List.map_cons, List.map_nil,
    List.mem_cons, List.not_mem_nil, or_false] at member
  rcases member with rfl | rfl | rfl | rfl | rfl | rfl | rfl | rfl | rfl | rfl | rfl | rfl | rfl |
    rfl | rfl <;> trivial

end

/-! ### Statement by statement -/

namespace Statement

/-- The `LargeEvent` hands over the whole line, and the `Event` does so exactly if all items find
their room. -/
def Agrees (zone : LocalTime) (process : Process) (memory : Nat → UInt8)
    (inserted : Print Arg → List UInt8) (s : TimeCache) (stmt : Statement Arg) : Prop :=
  ∃ t time, TimeCache.plainTime zone (.now stmt.call.tv) = .ok time ∧
    stmt.largeEvent sprint zone process inserted s =
      .ok (t, shownAll sprint (stmt.whole process time)) ∧
    (stmt.event sprint zone process memory s =
        .ok (t, shownAll sprint (stmt.whole process time)) ↔
      Legible sprint kEventSize 0 (stmt.whole process time))

variable {sprint} {zone : LocalTime} {process : Process} {s : TimeCache} {stmt : Statement Arg}

/-- The items as `tips_message` passes them, with `kTimeBuf` in front. -/
private def passed (process : Process) (t : TimeCache) (stmt : Statement Arg) : List (Item Arg) :=
  (Operand.text (.cstring (some t.timeBuf.bytes)) :: stmt.call.origin process).map .operand ++
    stmt.items ++ [.operand (.text (.character 10))]

private theorem passed_eq (sprint : List UInt8 → List Arg → Formatted) (process : Process)
    {t : TimeCache} {time : List UInt8}
    (text : t.timeBuf.text = time) (stmt : Statement Arg) :
    shownAll sprint (passed process t stmt) = shownAll sprint (stmt.whole process time) ∧
      (Legible sprint kEventSize 0 (passed process t stmt) ↔
        Legible sprint kEventSize 0 (stmt.whole process time)) := by
  have same : (Insertion.cstring (some t.timeBuf.bytes)).text = (Insertion.string time).text := by
    rw [TimeCache.cstring_text, text]
    rfl
  simp only [passed, whole, List.map_cons, List.cons_append, shownAll_cons, Legible, Item.Fits,
    Item.shown, Operand.shown, same, and_self]

theorem agrees (inv : s.Inv zone) (located : stmt.call.Located)
    (begun : 1 ≤ (Timestamp.now stmt.call.tv).secSinceEpoch)
    (plain : ∀ item ∈ stmt.items, item.Plain sprint) (memory : Nat → UInt8)
    (inserted : Print Arg → List UInt8) :
    stmt.Agrees sprint zone process memory inserted s := by
  obtain ⟨t, operands, time, tips, plain_time, text, rfl, _⟩ :=
    @TimeCache.tipsMessage_spec zone process s stmt.call inv located begun
  obtain ⟨shown, legible⟩ := passed_eq sprint process text stmt
  refine ⟨t, time, plain_time, ?_, ?_⟩
  · -- the stream without an end
    have all : ∀ item ∈ (Operand.text (.cstring (some t.timeBuf.bytes)) ::
        stmt.call.origin process).map (@Item.operand Arg) ++ stmt.items,
        item.Plain sprint := by
      intro item member
      rcases List.mem_append.mp member with tip | own
      · rw [List.map_cons] at tip
        rcases List.mem_cons.mp tip with rfl | origin
        · trivial
        · exact origin_plain process located item origin
      · exact plain item own
    have newline : shownAll sprint (passed process t stmt) = shownAll sprint ((Operand.text
        (.cstring (some t.timeBuf.bytes)) :: stmt.call.origin process).map .operand ++ stmt.items) ++
        [10] := shownAll_append _ _
    simp only [largeEvent, tips, Checked.ok_bind, foldl_large all, List.nil_append,
      StringStream.write, Checked.pure_eq_ok]
    rw [← shown, newline]
    rfl
  · -- the stream of `kEventSize` bytes
    rw [← shown, ← legible]
    have ran : ∀ line, stmt.event sprint zone process memory s = .ok (t, line) ↔
        ∃ out, run (Item.fixed sprint) (FixedOStream.new kEventSize memory) (passed process t stmt) =
          .ok out ∧ out.buffer.contents = line := by
      intro line
      have single : ∀ out : FixedOStream kEventSize,
          run (Item.fixed sprint) out [Item.operand (.text (.character 10))] =
            out.insert (.character 10) := by
        intro out
        simp only [run, Item.fixed]
        cases out.insert (.character 10) <;> rfl
      simp only [event, tips, Checked.ok_bind, passed, run_append, single]
      constructor
      · intro ok
        obtain ⟨front, front_ok, ok⟩ := Checked.bind_ok_iff.mp ok
        obtain ⟨out, out_ok, ok⟩ := Checked.bind_ok_iff.mp ok
        cases ok
        exact ⟨out, Checked.bind_ok_iff.mpr ⟨front, front_ok, out_ok⟩, rfl⟩
      · rintro ⟨out, ok, rfl⟩
        obtain ⟨front, front_ok, out_ok⟩ := Checked.bind_ok_iff.mp ok
        rw [front_ok, Checked.ok_bind, out_ok]
        rfl
    rw [ran]
    constructor
    · rintro ⟨out, ok, contents⟩
      obtain ⟨_, _, exact_length⟩ := run_length (by decide) (by decide : 0 < kEventSize) ok
      apply exact_length
      rw [← contents, FixedBuffer.contents_length]
      exact (Nat.zero_add _).symm
    · intro room
      have there : Legible sprint kEventSize (FixedOStream.new kEventSize memory).buffer.cur
          (passed process t stmt) := room
      obtain ⟨out, ok, _, contents⟩ := run_legible there
      exact ⟨out, ok, contents⟩

/-- **Log lines**: over every sequence of statements of a thread whose operands both kinds of events
show alike, a `LargeEvent` hands the logger the plain time, the origin, the operands and a newline,
and an `Event` hands it the same line exactly if every operand finds its room where it stands. -/
theorem line_agrees (zone : LocalTime) (process : Process) (memory : Nat → UInt8)
    (inserted : Print Arg → List UInt8) (stmts : List (Statement Arg))
    (located : ∀ stmt ∈ stmts, stmt.call.Located)
    (begun : ∀ stmt ∈ stmts, 1 ≤ (Timestamp.now stmt.call.tv).secSinceEpoch)
    (plain : ∀ stmt ∈ stmts, ∀ item ∈ stmt.items, item.Plain sprint) :
    Along (step zone process) (fun s stmt => stmt.Agrees sprint zone process memory inserted s)
      TimeCache.start stmts := by
  have known : Along (step zone process) (fun _ stmt => stmt.call.Located ∧
      1 ≤ (Timestamp.now stmt.call.tv).secSinceEpoch ∧ ∀ item ∈ stmt.items, item.Plain sprint)
      TimeCache.start stmts :=
    Along.of_labels (fun stmt member _ =>
      ⟨located stmt member, begun stmt member, plain stmt member⟩) TimeCache.start
  apply known.imp _ _ (TimeCache.inv_start zone)
  · intro s stmt t inv guard taken
    exact TimeCache.step_inv inv guard.1 guard.2.1 taken
  · intro s stmt inv guard
    exact agrees inv guard.1 guard.2.1 guard.2.2 memory inserted

/-- A number behind a text of some length. -/
def sampleStatement (text : Nat) : Statement Int :=
  ⟨TimeCache.callAt 1735689600 5,
    [.operand (.text (.string (List.replicate text 65))), .operand (.integral (.int 7))]⟩

/-- Behind 940 characters the number is within the last 32 bytes of the stream. -/
theorem sampleStatements_agree :
    Legible FixedOStream.verbatim kEventSize 0
      ((sampleStatement 900).whole ⟨42, 43⟩ (ascii "20250101 00:00:00.000005")) ∧
    ¬Legible FixedOStream.verbatim kEventSize 0
      ((sampleStatement 940).whole ⟨42, 43⟩ (ascii "20250101 00:00:00.000005")) ∧
    Along (step TimeCache.utcZone ⟨42, 43⟩) (fun s stmt => stmt.Agrees FixedOStream.verbatim
      TimeCache.utcZone ⟨42, 43⟩ (fun _ => 0) (fun _ => []) s) TimeCache.start
      [sampleStatement 900, sampleStatement 940] := by
  refine ⟨by decide +kernel, by decide +kernel, ?_⟩
  apply line_agrees
  · decide
  · decide
  · intro stmt member item shown
    simp only [sampleStatement, List.mem_cons, List.not_mem_nil, or_false] at member
    rcases member with rfl | rfl
    all_goals
      simp only [List.mem_cons, List.not_mem_nil, or_false] at shown
      rcases shown with rfl | rfl <;> trivial

end Statement

end Clia.Log
