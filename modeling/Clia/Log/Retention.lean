import Clia.Library.Numeral
import Clia.Log.Rolling
import Mathlib.Algebra.Group.Int.Defs

/-!
# The retention of log files

`log/file_appender.cc`: the constructor turns days into seconds, and `roll_file` ends with
`del_old_files`, which compares the names in the log directory with the text of the oldest second that
is kept. That second is found with an `int`.

## Main results

`FileAppender.expiry_exact`: among files that `get_logfilename` has named, the removed ones are exactly
those whose local time comes before that of the cutoff.
`Arguments.window_kept`: a roll keeps the file it opens and all files of the retention period if the
period in seconds is an `int`, and else it does not.
-/

namespace Clia.Log

open CString

/-! ### The order of dates -/

namespace Tm

/-- Year, month, day, hour, minute and second. -/
def parts (tm : Tm) : List Int := [tm.year, tm.month, tm.day, tm.hour, tm.minute, tm.second]

/-- The year has `d` digits, and the other parts at most two. -/
structure Digits (d : Nat) (tm : Tm) : Prop where
  year : 10 ^ (d - 1) ≤ tm.year ∧ tm.year < 10 ^ d
  month : tm.month < 100
  day : tm.day < 100
  hour : tm.hour < 100
  minute : tm.minute < 100
  second : tm.second < 100

theorem Regular.digits {tm : Tm} (regular : tm.Regular) : tm.Digits 4 :=
  ⟨regular.year, regular.month, regular.day, regular.hour, regular.minute, regular.second⟩

/-- The columns of `"%Y%m%d%H%M%S"`. -/
def widths (d : Nat) : List Nat := [d, 2, 2, 2, 2, 2]

def values (tm : Tm) : List Nat :=
  [tm.year.toNat, tm.month, tm.day, tm.hour, tm.minute, tm.second]

namespace Digits

variable {d : Nat} {tm other : Tm}

theorem year_eq (digits : tm.Digits d) :
    ((tm.year.toNat : Nat) : Int) = tm.year ∧ 10 ^ (d - 1) ≤ tm.year.toNat ∧
      tm.year.toNat < 10 ^ d := by
  obtain ⟨low, high⟩ := digits.year
  have positive : (0 : Int) ≤ tm.year := Int.le_trans (Int.le_of_lt (Int.pow_pos (by decide))) low
  have eq : ((tm.year.toNat : Nat) : Int) = tm.year := Int.toNat_of_nonneg positive
  rw [← eq] at low high
  exact ⟨eq, by exact_mod_cast low, by exact_mod_cast high⟩

theorem fits (positive : 0 < d) (digits : tm.Digits d) :
    List.Forall₂ FitsColumn (widths d) tm.values := by
  have two : ∀ n, n < 100 → FitsColumn 2 n := fun n small => ⟨by decide, small⟩
  exact .cons ⟨positive, digits.year_eq.2.2⟩ (.cons (two _ digits.month) (.cons (two _ digits.day)
    (.cons (two _ digits.hour) (.cons (two _ digits.minute) (.cons (two _ digits.second) .nil)))))

/-- The text of such a date fits in the buffer. -/
theorem getDatePrefix_eq (width : 0 < d ∧ d ≤ 21) (digits : tm.Digits d) :
    getDatePrefix 32 tm = columns (widths d) tm.values := by
  obtain ⟨eq, low, _⟩ := digits.year_eq
  have year : tm.yearText = padded d tm.year.toNat := by
    rw [padded_of_le low, Tm.yearText]
    split
    next n same => rw [same]; rfl
    next n same => rw [same] at eq; cases eq
  have text : tm.yearText ++ padded 2 tm.month ++ padded 2 tm.day ++ padded 2 tm.hour ++
      padded 2 tm.minute ++ padded 2 tm.second = columns (widths d) tm.values := by
    rw [year]
    simp [columns, widths, values]
  have length := columns_length (digits.fits width.1)
  simp only [getDatePrefix, text]
  apply if_pos
  rw [length]
  simp only [widths, List.sum_cons, List.sum_nil]
  omega

/-- The dates sort as their texts. -/
theorem getDatePrefix_lt_iff (width : 0 < d ∧ d ≤ 21) (digits : tm.Digits d)
    (others : other.Digits d) :
    getDatePrefix 32 tm < getDatePrefix 32 other ↔ tm.parts < other.parts := by
  rw [digits.getDatePrefix_eq width, others.getDatePrefix_eq width,
    columns_lt_iff (digits.fits width.1) (others.fits width.1)]
  have years := digits.year_eq.1
  have years' := others.year_eq.1
  simp only [values, parts, List.cons_lt_cons_iff]
  rw [← years, ← years']
  simp only [Int.ofNat_lt, Int.ofNat_inj, Int.toNat_natCast, List.not_lt_nil, and_false, or_false]

end Digits

end Tm

/-! ### Expiry -/

/-- The entry is a file that the appender has named at this local time, in any process. -/
def DirEntry.LoggedBy (entry : DirEntry) (a : FileAppender) (tm : Tm) : Prop :=
  entry.regular = true ∧ ∃ pid, a.getLogfilename tm pid = a.directoryPart ++ entry.name

/-- The entry of a file that `get_logfilename` has named. -/
def FileAppender.entry (a : FileAppender) (text : 0 ∉ a.logname) (tm : Tm) (pid : Nat) :
    DirEntry where
  name := getDatePrefix 32 tm ++ ascii "." ++ decimal pid ++ ascii "." ++ a.suffixedLogname
  regular := true
  text := by
    have suffixed : 0 ∉ a.suffixedLogname := by
      unfold FileAppender.suffixedLogname
      split
      · exact text
      · simpa using ⟨text, by decide⟩
    have digits : 0 ∉ decimal pid := fun zero => absurd (decimal_isDigit zero) (by decide)
    have dot : 0 ∉ ascii "." := by decide
    simp only [List.mem_append, getDatePrefix_text, digits, dot, suffixed, or_self,
      not_false_eq_true]

theorem FileAppender.entry_loggedBy (a : FileAppender) (text : 0 ∉ a.logname) (tm : Tm) (pid : Nat) :
    (a.entry text tm pid).LoggedBy a tm :=
  ⟨rfl, pid, rfl⟩

theorem DirEntry.LoggedBy.stamped {entry : DirEntry} {a : FileAppender} {tm : Tm}
    (logged : entry.LoggedBy a tm) : ∃ rest, entry.name = getDatePrefix 32 tm ++ rest := by
  obtain ⟨_, pid, same⟩ := logged
  have name := List.append_cancel_left same
  refine ⟨ascii "." ++ decimal pid ++ ascii "." ++ a.suffixedLogname, ?_⟩
  rw [← name]
  simp only [List.append_assoc]

namespace FileAppender

/-- Only the date in a name is compared. -/
theorem stamp_below_iff (a : FileAppender) (localtime : Int → Tm) (now : Int) {d : Nat}
    (width : 0 < d ∧ d ≤ 21) {tm : Tm} (digits : tm.Digits d)
    (cutoffDigits : (localtime (now - a.retainPeriodSec)).Digits d) (rest : List UInt8) :
    (getDatePrefix 32 tm ++ rest).take (a.cutoff localtime now).length < a.cutoff localtime now ↔
      tm.parts < (localtime (now - a.retainPeriodSec)).parts := by
  have length : (a.cutoff localtime now).length = (getDatePrefix 32 tm).length := by
    rw [cutoff, cutoffDigits.getDatePrefix_eq width, digits.getDatePrefix_eq width,
      columns_length (cutoffDigits.fits width.1), columns_length (digits.fits width.1)]
  rw [length, List.take_left, cutoff, digits.getDatePrefix_lt_iff width cutoffDigits]

/-- **Expiry**: of a directory with files that appenders have named at local times with years of four
digits, exactly the files are left whose time does not come before that of the cutoff. -/
theorem expiry_exact (a : FileAppender) (localtime : Int → Tm) (now : Int)
    (cutoffRegular : (localtime (now - a.retainPeriodSec)).Regular) (dir : Directory)
    (loggedAt : DirEntry → Tm)
    (made : ∀ entry ∈ dir.entries,
      (loggedAt entry).Regular ∧ ∃ b : FileAppender, entry.LoggedBy b (loggedAt entry)) :
    (a.delOldFiles localtime now true dir).entries =
      dir.entries.filter fun entry =>
        ¬(loggedAt entry).parts < (localtime (now - a.retainPeriodSec)).parts := by
  have stays : ∀ entry ∈ dir.entries,
      (entry ∈ (a.delOldFiles localtime now true dir).entries ↔
        ¬(loggedAt entry).parts < (localtime (now - a.retainPeriodSec)).parts) := by
    intro entry member
    obtain ⟨regular, b, logged⟩ := made entry member
    obtain ⟨rest, name⟩ := logged.stamped
    have below := stamp_below_iff a localtime now (by decide) regular.digits cutoffRegular.digits rest
    rw [mem_delOldFiles_iff, name, below]
    simp [member, logged.1]
  apply List.filter_congr
  intro entry member
  have kept := stays entry member
  simp only [delOldFiles, List.mem_filter, member, true_and] at kept
  apply Bool.eq_iff_iff.mpr
  rw [kept, decide_eq_true_eq]

/-- The last second of the day before `summerMidnight`. -/
def secondBefore : Tm := ⟨2024, 7, 4, 23, 59, 59⟩

/-- Two files of the test, one second apart. -/
def twoFiles : Directory where
  entries := [testlog.entry (by decide) secondBefore 42, testlog.entry (by decide) summerMidnight 7]
  distinct := by decide +kernel

/-- The first one is removed, whatever stands behind the date. -/
theorem second_before_removed :
    (testlog.delOldFiles (fun _ => summerMidnight) 1735689600 true twoFiles).entries =
      [testlog.entry (by decide) summerMidnight 7] := by
  have exact_rest := expiry_exact testlog (fun _ => summerMidnight) 1735689600
    ⟨by decide, by decide, by decide, by decide, by decide, by decide⟩ twoFiles
    (fun entry => if entry = testlog.entry (by decide) summerMidnight 7 then summerMidnight
      else secondBefore)
    (by
      intro entry member
      rcases List.mem_pair.mp member with rfl | rfl
      · rw [if_neg (by decide +kernel)]
        exact ⟨⟨by decide, by decide, by decide, by decide, by decide, by decide⟩, testlog,
          testlog.entry_loggedBy _ _ 42⟩
      · rw [if_pos rfl]
        exact ⟨⟨by decide, by decide, by decide, by decide, by decide, by decide⟩, testlog,
          testlog.entry_loggedBy _ _ 7⟩)
  rw [exact_rest]
  decide +kernel

end FileAppender

/-! ### The constructor and the directory -/

/-- `days * 24 * 60 * 60` of an `int`. -/
def secondsOf (days : Int32) : Int32 := days * 24 * 60 * 60

/-- The arguments of the constructor. The log name is a C string, and part of the name of a file. -/
structure Arguments where
  path : List UInt8
  logname : List UInt8
  rollSizeByte : Nat
  rollPeriodDays : Int32
  retainPeriodDay : Int32
  checkEvery : Int32
  text : 0 ∉ logname
  plain : 47 ∉ logname

namespace Arguments

def appender (args : Arguments) : FileAppender where
  path := args.path
  logname := args.logname
  retainPeriodSec := (secondsOf args.retainPeriodDay).toInt

def policy (args : Arguments) (localtime : Int → Tm) (pid : Nat) : RollPolicy where
  appender := args.appender
  rollSizeByte := args.rollSizeByte
  rollPeriodSec := (secondsOf args.rollPeriodDays).toInt
  checkEvery := args.checkEvery.toInt
  localtime := localtime
  pid := pid

end Arguments

/-- `std::fopen` with `"a"`: the file is made if there is none with its name. -/
def Directory.create (dir : Directory) (entry : DirEntry) : Directory where
  entries :=
    if (dir.entries.map DirEntry.name).contains entry.name then dir.entries else dir.entries ++ [entry]
  distinct := by
    split
    next => exact dir.distinct
    next absent =>
      rw [List.contains_iff_mem] at absent
      rw [List.map_append, List.map_singleton, ← List.concat_eq_append]
      exact dir.distinct.concat absent

/-- `roll_file` with what it does to the log directory. `opens` says that `std::fopen` succeeds, and
`listed` that `::opendir` does. It never does for an empty path. -/
def Rolling.rollFileIn (args : Arguments) (localtime : Int → Tm) (pid : Nat) (s : Rolling)
    (t : Readings) (opens listed : Bool) (dir : Directory) : Except Fault (Rolling × Directory) := do
  let next ← s.rollFile (args.policy localtime pid) t opens
  if s.lastRollTime ≠ t.guard then
    let dir := if opens then dir.create (args.appender.entry args.text (localtime t.name) pid) else dir
    return (next, args.appender.delOldFiles localtime t.old (listed && !args.path.isEmpty) dir)
  else return (next, dir)

namespace Arguments

/-- A roll that passes the guard of `roll_file` divides by a positive period. It leaves the file it has
opened, and every file of the appender that is less than the retention period old. -/
def WindowKept (args : Arguments) (localtime : Int → Tm) (pid : Nat) (t : Readings) : Prop :=
  0 < (args.policy localtime pid).rollPeriodSec ∧
  ∀ (s : Rolling) (opens listed : Bool) (dir : Directory), s.lastRollTime ≠ t.guard →
    ∃ next left, s.rollFileIn args localtime pid t opens listed dir = .ok (next, left) ∧
      (opens = true → (args.appender.entry args.text (localtime t.name) pid).name ∈
        left.entries.map DirEntry.name) ∧
      ∀ entry ∈ dir.entries, ∀ stamp, entry.LoggedBy args.appender (localtime stamp) →
        stamp ≤ t.old → t.old - stamp < args.retainPeriodDay.toInt * 86400 → entry ∈ left.entries

/-- The retention period in seconds is an `int`, the rolling period is a positive one up to a multiple
of `2 ^ 32`, and the clock passes no more than the retention period between the name of the new file and
the removal. -/
structure WithinInt (args : Arguments) (t : Readings) : Prop where
  retain : args.retainPeriodDay.toInt ≤ 24855
  roll : 0 < args.rollPeriodDays.toInt * 86400 % 2 ^ 32 ∧
    args.rollPeriodDays.toInt * 86400 % 2 ^ 32 < 2 ^ 31
  tick : t.old - t.name ≤ args.retainPeriodDay.toInt * 86400

end Arguments

/-! ### Seconds as an `int` -/

theorem secondsOf_toInt (days : Int32) :
    (secondsOf days).toInt = (days.toInt * 86400).bmod (2 ^ 32) := by
  rw [secondsOf, Int32.toInt_mul, Int32.toInt_mul, Int32.toInt_mul, Int.bmod_mul_bmod, Int.mul_assoc,
    Int.bmod_mul_bmod]
  have day : days.toInt * (24 : Int32).toInt * ((60 : Int32).toInt * (60 : Int32).toInt) =
      days.toInt * 86400 := by
    change days.toInt * 24 * (60 * 60) = _
    omega
  rw [day]

theorem secondsOf_pos_iff (days : Int32) :
    0 < (secondsOf days).toInt ↔
      0 < days.toInt * 86400 % 2 ^ 32 ∧ days.toInt * 86400 % 2 ^ 32 < 2 ^ 31 := by
  rw [secondsOf_toInt, Int.bmod_def]
  generalize days.toInt * 86400 = seconds
  split <;> omega

/-- Few enough days are counted as they are. -/
theorem secondsOf_exact {days : Int32} (some_days : 1 ≤ days.toInt) (few : days.toInt ≤ 24855) :
    (secondsOf days).toInt = days.toInt * 86400 := by
  rw [secondsOf_toInt, Int.bmod_def]
  split <;> omega

theorem secondsOf_bounds (days : Int32) :
    -2 ^ 31 ≤ (secondsOf days).toInt ∧ (secondsOf days).toInt < 2 ^ 31 := by
  rw [secondsOf_toInt, Int.bmod_def]
  split <;> omega

/-! ### The retention window -/

theorem Directory.name_mem_create (dir : Directory) (entry : DirEntry) :
    entry.name ∈ (dir.create entry).entries.map DirEntry.name := by
  unfold Directory.create
  split
  next present => exact List.contains_iff_mem.mp present
  next => simp

theorem Directory.mem_create {dir : Directory} {entry other : DirEntry} (member : other ∈ dir.entries) :
    other ∈ (dir.create entry).entries := by
  unfold Directory.create
  split
  next => exact member
  next => exact List.mem_append_left _ member

namespace Arguments

variable {args : Arguments} {localtime : Int → Tm} {pid : Nat} {t : Readings} {d : Nat}

/-- The first second that is kept. -/
def oldest (args : Arguments) (t : Readings) : Int := t.old - (secondsOf args.retainPeriodDay).toInt

theorem rollFileIn_eq (nonzero : (args.policy localtime pid).rollPeriodSec ≠ 0) {s : Rolling}
    (passes : s.lastRollTime ≠ t.guard) (opens listed : Bool) (dir : Directory) :
    s.rollFileIn args localtime pid t opens listed dir =
      .ok (s.rolled (args.policy localtime pid) t opens,
        args.appender.delOldFiles localtime t.old (listed && !args.path.isEmpty)
          (if opens then dir.create (args.appender.entry args.text (localtime t.name) pid)
            else dir)) := by
  simp only [Rolling.rollFileIn, Rolling.rollFile, if_pos passes, Checked.require_pos _ nonzero,
    Checked.ok_bind, Checked.pure_eq_ok]

/-- A file that is named in a second from the oldest one on stays. -/
theorem stays (width : 0 < d ∧ d ≤ 21)
    (later : ∀ u v, u ≤ v → ¬(localtime v).parts < (localtime u).parts) {stamp : Int}
    (digits : (localtime stamp).Digits d) (oldestDigits : (localtime (args.oldest t)).Digits d)
    (inside : args.oldest t ≤ stamp) {listed : Bool} {dir : Directory} {entry : DirEntry}
    {rest : List UInt8} (name : entry.name = getDatePrefix 32 (localtime stamp) ++ rest)
    (member : entry ∈ dir.entries) :
    entry ∈ (args.appender.delOldFiles localtime t.old listed dir).entries := by
  refine FileAppender.mem_delOldFiles_iff.mpr ⟨member, ?_⟩
  rintro ⟨_, _, below⟩
  rw [name, FileAppender.stamp_below_iff args.appender localtime t.old width digits oldestDigits]
    at below
  exact later _ _ inside below

/-- A file that is named before goes. -/
theorem goes (width : 0 < d ∧ d ≤ 21)
    (later : ∀ u v, u < v → (localtime u).parts < (localtime v).parts) {stamp : Int}
    (digits : (localtime stamp).Digits d) (oldestDigits : (localtime (args.oldest t)).Digits d)
    (before : stamp < args.oldest t) (dir : Directory) :
    args.appender.entry args.text (localtime stamp) pid ∉
      (args.appender.delOldFiles localtime t.old true dir).entries := by
  intro left
  apply (FileAppender.mem_delOldFiles_iff.mp left).2
  obtain ⟨rest, name⟩ := (args.appender.entry_loggedBy args.text (localtime stamp) pid).stamped
  refine ⟨rfl, rfl, ?_⟩
  rw [name, FileAppender.stamp_below_iff args.appender localtime t.old width digits oldestDigits]
  exact later _ _ before

/-- A condition that is enough, for every clock and a local time that does not go back. -/
theorem windowKept_of_withinInt (someDays : 1 ≤ args.retainPeriodDay.toInt) (width : 0 < d ∧ d ≤ 21)
    (later : ∀ u v, u ≤ v → ¬(localtime v).parts < (localtime u).parts)
    (digits : ∀ u, t.old - args.retainPeriodDay.toInt * 86400 ≤ u → u ≤ t.old →
      (localtime u).Digits d)
    (within : args.WithinInt t) : args.WindowKept localtime pid t := by
  have seconds := secondsOf_exact someDays within.retain
  have oldest_eq : args.oldest t = t.old - args.retainPeriodDay.toInt * 86400 := by
    rw [oldest, seconds]
  have positive := (secondsOf_pos_iff args.rollPeriodDays).mpr within.roll
  have ordered := t.ordered
  have tick := within.tick
  have oldestDigits : (localtime (args.oldest t)).Digits d := digits _ (by omega) (by omega)
  -- Nothing wraps, so the window begins with the oldest second that is kept.
  refine ⟨positive, ?_⟩
  intro s opens listed dir passes
  refine ⟨_, _, rollFileIn_eq (Int.ne_of_gt positive) passes opens listed dir, ?_, ?_⟩
  · rintro rfl
    rw [if_pos rfl]
    obtain ⟨entry, member, same⟩ := List.mem_map.mp
      (dir.name_mem_create (args.appender.entry args.text (localtime t.name) pid))
    obtain ⟨rest, name⟩ := (args.appender.entry_loggedBy args.text (localtime t.name) pid).stamped
    rw [← same] at name ⊢
    exact List.mem_map_of_mem (stays width later (digits _ (by omega) (by omega)) oldestDigits
      (by omega) name member)
  · intro entry member stamp logged past recent
    obtain ⟨rest, name⟩ := logged.stamped
    refine stays width later (digits _ (by omega) past) oldestDigits (by omega) name ?_
    split
    next => exact Directory.mem_create member
    next => exact member

/-- What the property says of a directory that can be listed. -/
theorem WindowKept.left (kept : args.WindowKept localtime pid t) (listable : args.path ≠ [])
    (opens : Bool) (dir : Directory) :
    let left := args.appender.delOldFiles localtime t.old true
      (if opens then dir.create (args.appender.entry args.text (localtime t.name) pid) else dir)
    (opens = true → (args.appender.entry args.text (localtime t.name) pid).name ∈
      left.entries.map DirEntry.name) ∧
    ∀ entry ∈ dir.entries, ∀ stamp, entry.LoggedBy args.appender (localtime stamp) →
      stamp ≤ t.old → t.old - stamp < args.retainPeriodDay.toInt * 86400 → entry ∈ left.entries := by
  obtain ⟨positive, kept⟩ := kept
  -- Some state has its last roll in another second.
  obtain ⟨s, passes⟩ : ∃ s : Rolling, s.lastRollTime ≠ t.guard :=
    ⟨⟨0, t.guard + 1, 0, 0, none, [], [], 0⟩, by simp only [ne_eq]; omega⟩
  obtain ⟨next, left, ok, opened, window⟩ := kept s opens true dir passes
  have listed : (true && !args.path.isEmpty) = true := by simp [listable]
  rw [rollFileIn_eq (Int.ne_of_gt positive) passes, listed] at ok
  cases ok
  exact ⟨opened, window⟩

/-- The local years of all seconds from which on a file can be kept, and of the file that the roll
opens, have `d` digits. -/
def SameDigits (localtime : Int → Tm) (t : Readings) (d : Nat) : Prop :=
  ∀ u, min t.name (t.old - 2 ^ 31) ≤ u → u ≤ t.old + 2 ^ 31 → (localtime u).Digits d

section

variable (width : 0 < d ∧ d ≤ 21)
  (later : ∀ u v, u < v → (localtime u).parts < (localtime v).parts)
  (digits : SameDigits localtime t d) (listable : args.path ≠ [])

include width later digits listable

/-- With more days the product wraps, and a file of the window is removed. -/
theorem retain_of_windowKept (kept : args.WindowKept localtime pid t) :
    args.retainPeriodDay.toInt ≤ 24855 := by
  by_contra many
  obtain ⟨low, high⟩ := secondsOf_bounds args.retainPeriodDay
  -- A file of the last second before the oldest one, or of this second if that is still to come.
  have before : min t.old (args.oldest t - 1) < args.oldest t := by omega
  have stampDigits : (localtime (min t.old (args.oldest t - 1))).Digits d := by
    apply digits <;> simp only [oldest] <;> omega
  have oldestDigits : (localtime (args.oldest t)).Digits d := by
    apply digits <;> simp only [oldest] <;> omega
  obtain ⟨_, window⟩ := kept.left listable false
    ⟨[args.appender.entry args.text (localtime (min t.old (args.oldest t - 1))) pid],
      List.nodup_singleton _⟩
  have stays := window _ (List.mem_singleton_self _) _
    (args.appender.entry_loggedBy args.text _ pid) (by omega) (by simp only [oldest]; omega)
  exact goes width later stampDigits oldestDigits before _ stays

/-- The file that the roll opens is in the window. -/
theorem tick_of_windowKept (someDays : 1 ≤ args.retainPeriodDay.toInt)
    (kept : args.WindowKept localtime pid t) :
    t.old - t.name ≤ args.retainPeriodDay.toInt * 86400 := by
  have few := retain_of_windowKept width later digits listable kept
  by_contra late
  have seconds := secondsOf_exact someDays few
  have ordered := t.ordered
  have before : t.name < args.oldest t := by
    simp only [oldest, seconds]
    omega
  have nameDigits : (localtime t.name).Digits d := by
    apply digits <;> omega
  have oldestDigits : (localtime (args.oldest t)).Digits d := by
    apply digits <;> simp only [oldest, seconds] <;> omega
  obtain ⟨opened, _⟩ := kept.left listable true ⟨[], List.nodup_nil⟩
  obtain ⟨entry, stays, _⟩ := List.mem_map.mp (opened rfl)
  -- There is only the new file.
  have only : entry = args.appender.entry args.text (localtime t.name) pid := by
    have member := (FileAppender.mem_delOldFiles_iff.mp stays).1
    simpa [Directory.create] using member
  subst only
  exact goes width later nameDigits oldestDigits before _ stays

end

/-- **The retention window**: a roll divides by a positive period, keeps the file it opens and all
files of the appender that are less than the retention period old, if the periods are within an `int`
and the local years of the window have the same number of digits. Away from the turn to a year with
one digit more, and for a directory that can be listed, it does so in no other case. -/
theorem window_kept (args : Arguments) (localtime : Int → Tm) (pid : Nat) (t : Readings) (d : Nat)
    (someDays : 1 ≤ args.retainPeriodDay.toInt) (width : 0 < d ∧ d ≤ 21) :
    ((∀ u v, u ≤ v → ¬(localtime v).parts < (localtime u).parts) →
      (∀ u, t.old - args.retainPeriodDay.toInt * 86400 ≤ u → u ≤ t.old → (localtime u).Digits d) →
      args.WithinInt t → args.WindowKept localtime pid t) ∧
    ((∀ u v, u < v → (localtime u).parts < (localtime v).parts) → SameDigits localtime t d →
      args.path ≠ [] → (args.WindowKept localtime pid t ↔ args.WithinInt t)) := by
  refine ⟨windowKept_of_withinInt someDays width, ?_⟩
  intro later digits listable
  constructor
  · intro kept
    exact ⟨retain_of_windowKept width later digits listable kept,
      (secondsOf_pos_iff args.rollPeriodDays).mp kept.1,
      tick_of_windowKept width later digits listable someDays kept⟩
  · intro within
    have few := within.retain
    refine windowKept_of_withinInt someDays width ?_ ?_ within
    · intro u v le before
      rcases Int.lt_or_eq_of_le le with lt | rfl
      · exact List.lt_asymm before (later u v lt)
      · exact List.lt_irrefl _ before
    · intro u low high
      apply digits <;> omega

end Arguments

/-! ### A time zone -/

/-- The month and the day of the month, both from one on, of a day that is counted from zero on. -/
def monthDay (month : Nat) : List Nat → Nat → Nat × Nat
  | [], day => (month, day + 1)
  | length :: lengths, day =>
    if day < length then (month, day + 1) else monthDay (month + 1) lengths (day - length)

def leapYear : List Nat := [31, 29, 31, 30, 31, 30, 31, 31, 30, 31, 30, 31]

def commonYear : List Nat := [31, 28, 31, 30, 31, 30, 31, 31, 30, 31, 30, 31]

/-- The year, the month and the day of a day in four years that begin with a leap year. -/
def dayOfCycle (day : Nat) : Nat × Nat × Nat :=
  if day < 366 then (0, monthDay 1 leapYear day)
  else ((day - 1) / 365, monthDay 1 commonYear ((day - 1) % 365))

/-- `::localtime_r` with the time zone UTC, from 1901 to 2099. The first cycle is that of 1968. -/
def utc (now : Int) : Tm :=
  let day := now / 86400 + 731
  let date := dayOfCycle (day % 1461).toNat
  let second := (now % 86400).toNat
  ⟨1968 + 4 * (day / 1461) + date.1, date.2.1, date.2.2, second / 3600, second / 60 % 60, second % 60⟩

theorem monthDay_bounds (month : Nat) {lengths : List Nat} (short : ∀ length ∈ lengths, length ≤ 31)
    {day : Nat} (inside : day < lengths.sum) :
    (monthDay month lengths day).1 < month + lengths.length ∧
      (monthDay month lengths day).2 ≤ 31 := by
  induction lengths generalizing month day with
  | nil => cases inside
  | cons length lengths ih =>
    have first := short length List.mem_cons_self
    have others : ∀ other ∈ lengths, other ≤ 31 :=
      fun other member => short other (List.mem_cons_of_mem _ member)
    rw [List.sum_cons] at inside
    rw [monthDay, List.length_cons]
    split
    next => exact ⟨by simp only; omega, by simp only; omega⟩
    next =>
      have rest := ih (month + 1) others (by omega : day - length < lengths.sum)
      omega

theorem monthDay_month_le (month : Nat) (lengths : List Nat) (day : Nat) :
    month ≤ (monthDay month lengths day).1 := by
  induction lengths generalizing month day with
  | nil => exact Nat.le_refl _
  | cons length lengths ih =>
    rw [monthDay]
    split
    next => exact Nat.le_refl _
    next => exact Nat.le_trans (Nat.le_succ month) (ih _ _)

theorem monthDay_later (month : Nat) (lengths : List Nat) (day : Nat) :
    (monthDay month lengths day).1 < (monthDay month lengths (day + 1)).1 ∨
      (monthDay month lengths day).1 = (monthDay month lengths (day + 1)).1 ∧
        (monthDay month lengths day).2 < (monthDay month lengths (day + 1)).2 := by
  induction lengths generalizing month day with
  | nil => exact .inr ⟨rfl, Nat.lt_succ_self _⟩
  | cons length lengths ih =>
    by_cases now : day < length
    · rw [monthDay, if_pos now, monthDay]
      split
      next => exact .inr ⟨rfl, Nat.lt_succ_self _⟩
      next =>
        -- The last day of the month.
        exact .inl (monthDay_month_le (month + 1) lengths _)
    · have next_day : day + 1 - length = day - length + 1 := by omega
      rw [monthDay, if_neg now, monthDay, if_neg (by omega), next_day]
      exact ih (month + 1) (day - length)

theorem dayOfCycle_bounds {day : Nat} (inside : day < 1461) :
    (dayOfCycle day).1 < 4 ∧ (dayOfCycle day).2.1 ≤ 12 ∧ (dayOfCycle day).2.2 ≤ 31 := by
  unfold dayOfCycle
  split
  next early =>
    have bounds := monthDay_bounds 1 (by decide : ∀ length ∈ leapYear, length ≤ 31) early
    rw [show leapYear.length = 12 from rfl] at bounds
    simp only
    omega
  next late =>
    have rest : (day - 1) % 365 < commonYear.sum := Nat.mod_lt (day - 1) (by decide)
    have bounds := monthDay_bounds 1 (by decide : ∀ length ∈ commonYear, length ≤ 31) rest
    rw [show commonYear.length = 12 from rfl] at bounds
    simp only
    omega

theorem dayOfCycle_later {day : Nat} (inside : day < 1460) :
    (dayOfCycle day).1 < (dayOfCycle (day + 1)).1 ∨
      (dayOfCycle day).1 = (dayOfCycle (day + 1)).1 ∧
        ((dayOfCycle day).2.1 < (dayOfCycle (day + 1)).2.1 ∨
          (dayOfCycle day).2.1 = (dayOfCycle (day + 1)).2.1 ∧
            (dayOfCycle day).2.2 < (dayOfCycle (day + 1)).2.2) := by
  -- Within the leap year, at its end, and in the three years behind it.
  by_cases leap : day + 1 < 366
  · rw [dayOfCycle, if_pos (by omega), dayOfCycle, if_pos leap]
    exact .inr ⟨rfl, monthDay_later 1 leapYear day⟩
  · by_cases last : day = 365
    · subst last
      decide
    · rw [dayOfCycle, if_neg (by omega), dayOfCycle, if_neg leap]
      by_cases turn : (day - 1) % 365 = 364
      · left
        simp only
        omega
      · have year : (day + 1 - 1) / 365 = (day - 1) / 365 := by omega
        have next_day : (day + 1 - 1) % 365 = (day - 1) % 365 + 1 := by omega
        rw [year, next_day]
        exact .inr ⟨rfl, monthDay_later 1 commonYear _⟩

/-- The next second is later. -/
theorem utc_succ (now : Int) : (utc now).parts < (utc (now + 1)).parts := by
  simp only [Tm.parts, utc, List.cons_lt_cons_iff, List.not_lt_nil, and_false, or_false]
  -- The last second of a day is the only one after which the date changes.
  by_cases midnight : now % 86400 = 86399
  · have day : (now + 1) / 86400 = now / 86400 + 1 := by omega
    rw [day]
    by_cases turn : (now / 86400 + 731) % 1461 = 1460
    · have first : (now / 86400 + 1 + 731) % 1461 = 0 := by omega
      have bounds := dayOfCycle_bounds (by omega : ((now / 86400 + 731) % 1461).toNat < 1461)
      left
      omega
    · have next_day : ((now / 86400 + 1 + 731) % 1461).toNat =
          ((now / 86400 + 731) % 1461).toNat + 1 := by omega
      have cycle : (now / 86400 + 1 + 731) / 1461 = (now / 86400 + 731) / 1461 := by omega
      have later := dayOfCycle_later (by omega : ((now / 86400 + 731) % 1461).toNat < 1460)
      rw [next_day, cycle]
      omega
  · have day : (now + 1) / 86400 = now / 86400 := by omega
    have next_second : ((now + 1) % 86400).toNat = (now % 86400).toNat + 1 := by omega
    rw [day, next_second]
    omega

theorem utc_later (u v : Int) (earlier : u < v) : (utc u).parts < (utc v).parts := by
  induction v, earlier using Int.leInduction with
  | base => exact utc_succ u
  | succ v _ ih => exact List.lt_trans ih (utc_succ v)

theorem utc_digits {now : Int} (low : -2 ^ 31 ≤ now) (high : now < 2 ^ 32) : (utc now).Digits 4 := by
  have bounds := dayOfCycle_bounds
    (by omega : ((now / 86400 + 731) % 1461).toNat < 1461)
  constructor <;> simp only [utc] <;> omega

namespace Arguments

/-- The appender of the test with the constructor's defaults. -/
def defaults : Arguments where
  path := ascii "./"
  logname := ascii "testlog"
  rollSizeByte := 10 * 1024 * 1024
  rollPeriodDays := 1
  retainPeriodDay := 6 * 30
  checkEvery := 1024
  text := by decide
  plain := by decide

theorem utc_sameDigits : SameDigits utc (.at 1735689600) 4 := by
  intro u low high
  simp only [Readings.at] at low high
  apply utc_digits <;> omega

/-- On the first of January 2025 the defaults keep their window. -/
theorem defaults_window_kept : defaults.WindowKept utc 42 (.at 1735689600) :=
  ((window_kept defaults utc 42 (.at 1735689600) 4 (by decide) (by decide)).2 utc_later utc_sameDigits
    (by decide)).mpr ⟨by decide, by decide, by decide⟩

/-- One day more than an `int` holds as seconds. -/
def tooManyDays : Arguments := { defaults with retainPeriodDay := 24856 }

/-- The cutoff is then in the future. -/
theorem too_many_days_not_kept :
    1 ≤ tooManyDays.retainPeriodDay.toInt ∧ 1 ≤ tooManyDays.rollPeriodDays.toInt ∧
      ¬tooManyDays.WindowKept utc 42 (.at 1735689600) := by
  refine ⟨by decide, by decide, ?_⟩
  intro kept
  have few : tooManyDays.retainPeriodDay.toInt ≤ 24855 :=
    retain_of_windowKept (by decide) utc_later utc_sameDigits (by decide) kept
  exact absurd few (by decide)

end Arguments

end Clia.Log
