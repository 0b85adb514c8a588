import Clia.Library.CString
import Mathlib.Data.List.Nodup

/-!
# Log files and their retention

`log/file_appender.cc`: how a log file is named, and which files of the log directory are removed
when a new one is opened. `std::time` and `::localtime_r` are parameters: the clock may show
anything, and the time zone is not the program's.
-/

namespace Clia.Log

open CString

/-- `struct tm`, with the year and the month as they are written. -/
structure Tm where
  year : Int
  month : Nat
  day : Nat
  hour : Nat
  minute : Nat
  second : Nat
  deriving DecidableEq, Repr

/-- `%Y`. -/
def Tm.yearText (tm : Tm) : List UInt8 :=
  match tm.year with
  | .ofNat n => decimal n
  | .negSucc n => ascii "-" ++ decimal (n + 1)

/-- `get_date_prefix` with a buffer of `size` bytes: `strftime` with `"%Y%m%d%H%M%S"`, which
leaves nothing if the text with its terminator does not fit. -/
def getDatePrefix (size : Nat) (tm : Tm) : List UInt8 :=
  let text := tm.yearText ++ padded 2 tm.month ++ padded 2 tm.day ++ padded 2 tm.hour ++
    padded 2 tm.minute ++ padded 2 tm.second
  if text.length < size then text else []

/-- The members that the functions below read. -/
structure FileAppender where
  path : List UInt8
  logname : List UInt8
  retainPeriodSec : Int
  deriving DecidableEq, Repr

/-- A directory entry as `::readdir` returns it. `regular` says that `d_type` is `DT_REG`. -/
structure DirEntry where
  name : List UInt8
  regular : Bool
  text : 0 ∉ name
  deriving DecidableEq, Repr

/-- The content of a directory: no name comes twice. -/
structure Directory where
  entries : List DirEntry
  distinct : (entries.map DirEntry.name).Nodup

namespace FileAppender

def kSuffix : List UInt8 := ascii ".log"

/-- `logname_`, with the suffix unless it has it somewhere already. -/
def suffixedLogname (a : FileAppender) : List UInt8 :=
  if contains a.logname kSuffix then a.logname else a.logname ++ kSuffix

/-- The directory part of a file name of `get_logfilename`. -/
def directoryPart (a : FileAppender) : List UInt8 :=
  if a.path ≠ [] ∧ a.path.getLast? ≠ some 47 then a.path ++ ascii "/" else a.path

/-- `get_logfilename`, with the local time and the process id. -/
def getLogfilename (a : FileAppender) (tm : Tm) (pid : Nat) : List UInt8 :=
  a.directoryPart ++ (getDatePrefix 32 tm ++ ascii "." ++ decimal pid ++ ascii "." ++
    a.suffixedLogname)

/-- The first bytes that the names are compared with. -/
def cutoff (a : FileAppender) (localtime : Int → Tm) (now : Int) : List UInt8 :=
  getDatePrefix 32 (localtime (now - a.retainPeriodSec))

/-- The paths that `del_old_files` collects. `opened` says that `::opendir` succeeds. -/
def oldFiles (a : FileAppender) (localtime : Int → Tm) (now : Int) (opened : Bool)
    (dir : Directory) : List (List UInt8) :=
  let timebuf := a.cutoff localtime now
  if opened then
    (dir.entries.filter fun entry =>
      entry.regular && !decide (strncmp entry.name timebuf timebuf.length ≥ 0)).map fun entry =>
        a.path ++ ascii "/" ++ entry.name
  else []

/-- `del_old_files`: what is left of the directory after `std::remove` of the collected paths. -/
def delOldFiles (a : FileAppender) (localtime : Int → Tm) (now : Int) (opened : Bool)
    (dir : Directory) : Directory where
  entries := dir.entries.filter fun entry =>
    a.path ++ ascii "/" ++ entry.name ∉ a.oldFiles localtime now opened dir
  distinct := dir.distinct.sublist (List.filter_sublist.map _)

/-- A name of the form that `get_logfilename` makes: fourteen digits, a process id, and the
appender's own log name. -/
def IsLogName (a : FileAppender) (name : List UInt8) : Prop :=
  ∃ stamp pid, stamp.length = 14 ∧ (∀ b ∈ stamp, isDigit b = true) ∧ pid ≠ [] ∧
    (∀ b ∈ pid, isDigit b = true) ∧
    name = stamp ++ ascii "." ++ pid ++ ascii "." ++ a.suffixedLogname

end FileAppender

/-! ### Names -/

/-- A local time whose parts have as many digits as the format expects. -/
structure Tm.Regular (tm : Tm) : Prop where
  year : 1000 ≤ tm.year ∧ tm.year < 10000
  month : tm.month < 100
  day : tm.day < 100
  hour : tm.hour < 100
  minute : tm.minute < 100
  second : tm.second < 100

/-- Digits, and the sign of a year before the common era. -/
theorem getDatePrefix_bytes {size : Nat} {tm : Tm} {b : UInt8} (member : b ∈ getDatePrefix size tm) :
    isDigit b = true ∨ b = 45 := by
  unfold getDatePrefix at member
  simp only at member
  split at member
  next =>
    simp only [List.mem_append] at member
    rcases member with ((((year | month) | day) | hour) | minute) | second
    · unfold Tm.yearText at year
      split at year
      · exact .inl (decimal_isDigit year)
      · cases List.mem_append.mp year with
        | inl sign =>
          right
          simpa [ascii] using sign
        | inr digit => exact .inl (decimal_isDigit digit)
    · exact .inl (padded_isDigit month)
    · exact .inl (padded_isDigit day)
    · exact .inl (padded_isDigit hour)
    · exact .inl (padded_isDigit minute)
    · exact .inl (padded_isDigit second)
  next => cases member

theorem getDatePrefix_text (size : Nat) (tm : Tm) : 0 ∉ getDatePrefix size tm := by
  intro member
  cases getDatePrefix_bytes member with
  | inl digit => simp [isDigit] at digit
  | inr sign => cases sign

theorem Tm.Regular.yearText {tm : Tm} (regular : tm.Regular) :
    tm.yearText.length = 4 ∧ ∀ b ∈ tm.yearText, isDigit b = true := by
  obtain ⟨low, high⟩ := regular.year
  unfold Tm.yearText
  split
  next n year =>
    rw [year] at low high
    have low : 1000 ≤ n := Int.ofNat_le.mp low
    have high : n < 10000 := Int.ofNat_lt.mp high
    have many : ¬(decimal n).length ≤ 3 := by
      rw [decimal, List.length_map, Nat.length_toDigits_le_iff (by decide) (by decide)]
      omega
    have few : (decimal n).length ≤ 4 := by
      rw [decimal, List.length_map, Nat.length_toDigits_le_iff (by decide) (by decide)]
      omega
    exact ⟨by omega, fun b member => decimal_isDigit member⟩
  next n year =>
    rw [year] at low
    omega

theorem Tm.Regular.getDatePrefix {tm : Tm} (regular : tm.Regular) :
    (getDatePrefix 32 tm).length = 14 ∧ ∀ b ∈ getDatePrefix 32 tm, isDigit b = true := by
  obtain ⟨year_length, year_digits⟩ := regular.yearText
  have two : ∀ n, n < 100 → (padded 2 n).length = 2 := fun n below =>
    padded_length (by decide) below
  have length : (tm.yearText ++ padded 2 tm.month ++ padded 2 tm.day ++ padded 2 tm.hour ++
      padded 2 tm.minute ++ padded 2 tm.second).length = 14 := by
    simp only [List.length_append, year_length, two _ regular.month, two _ regular.day,
      two _ regular.hour, two _ regular.minute, two _ regular.second]
  have eq : Log.getDatePrefix 32 tm = tm.yearText ++ padded 2 tm.month ++ padded 2 tm.day ++
      padded 2 tm.hour ++ padded 2 tm.minute ++ padded 2 tm.second := by
    simp only [Log.getDatePrefix, length]
    rfl
  rw [eq]
  refine ⟨length, ?_⟩
  simp only [List.mem_append]
  rintro b (((((year | month) | day) | hour) | minute) | second)
  · exact year_digits b year
  · exact padded_isDigit month
  · exact padded_isDigit day
  · exact padded_isDigit hour
  · exact padded_isDigit minute
  · exact padded_isDigit second

namespace FileAppender

variable {a : FileAppender}

/-- What `get_logfilename` names is a log file of the appender. -/
theorem getLogfilename_isLogName (a : FileAppender) {tm : Tm} (regular : tm.Regular) (pid : Nat) :
    ∃ name, a.getLogfilename tm pid = a.directoryPart ++ name ∧ a.IsLogName name := by
  obtain ⟨length, digits⟩ := regular.getDatePrefix
  refine ⟨_, rfl, getDatePrefix 32 tm, decimal pid, length, digits, decimal_ne_nil pid, ?_, rfl⟩
  exact fun b member => decimal_isDigit member

/-! ### Retention -/

/-- The collected paths, by the lexicographic order. -/
theorem mem_oldFiles_iff {localtime : Int → Tm} {now : Int} {opened : Bool} {dir : Directory}
    {path : List UInt8} : path ∈ a.oldFiles localtime now opened dir ↔
      opened = true ∧ ∃ entry ∈ dir.entries, entry.regular = true ∧
        entry.name.take (a.cutoff localtime now).length < a.cutoff localtime now ∧
        path = a.path ++ ascii "/" ++ entry.name := by
  have order : ∀ entry : DirEntry,
      (!decide (strncmp entry.name (a.cutoff localtime now)
        (a.cutoff localtime now).length ≥ 0)) = true ↔
      entry.name.take (a.cutoff localtime now).length < a.cutoff localtime now := by
    intro entry
    have text : 0 ∉ a.cutoff localtime now := getDatePrefix_text 32 _
    have cut := strncmp_neg_iff entry.text text (a.cutoff localtime now).length
    rw [List.take_length] at cut
    rw [← cut]
    simp
  unfold oldFiles
  cases opened with
  | false => simp
  | true =>
    simp only [if_true, List.mem_map, List.mem_filter, Bool.and_eq_true, order, true_and]
    constructor
    · rintro ⟨entry, ⟨member, regular, below⟩, rfl⟩
      exact ⟨entry, member, regular, below, rfl⟩
    · rintro ⟨entry, member, regular, below, rfl⟩
      exact ⟨entry, ⟨member, regular, below⟩, rfl⟩

/-- An entry stays unless it is a regular file whose first bytes are below the cutoff. -/
theorem mem_delOldFiles_iff {localtime : Int → Tm} {now : Int} {opened : Bool} {dir : Directory}
    {entry : DirEntry} : entry ∈ (a.delOldFiles localtime now opened dir).entries ↔
      entry ∈ dir.entries ∧ ¬(opened = true ∧ entry.regular = true ∧
        entry.name.take (a.cutoff localtime now).length < a.cutoff localtime now) := by
  simp only [delOldFiles, List.mem_filter, decide_eq_true_eq, mem_oldFiles_iff]
  refine and_congr_right fun member => not_congr ?_
  constructor
  · rintro ⟨opened, other, there, regular, below, same⟩
    -- The path determines the name, and a name comes once.
    have name : entry.name = other.name := List.append_cancel_left same
    have eq : entry = other := List.inj_on_of_nodup_map dir.distinct member there name
    subst eq
    exact ⟨opened, regular, below⟩
  · rintro ⟨opened, regular, below⟩
    exact ⟨opened, entry, member, regular, below, rfl⟩

/-- **Retention**: a roll keeps every file that is no log file of the appender if and only if no
such regular file has a name that sorts below the cutoff in its first bytes. -/
theorem foreign_files_kept_iff (a : FileAppender) (localtime : Int → Tm) (now : Int)
    (opened : Bool) (dir : Directory) :
    (∀ entry ∈ dir.entries, ¬a.IsLogName entry.name →
      entry ∈ (a.delOldFiles localtime now opened dir).entries) ↔
    (opened = true → ∀ entry ∈ dir.entries, entry.regular = true → ¬a.IsLogName entry.name →
      ¬entry.name.take (a.cutoff localtime now).length < a.cutoff localtime now) := by
  constructor
  · intro kept readable entry member regular foreign below
    have stays := (mem_delOldFiles_iff.mp (kept entry member foreign)).2
    exact stays ⟨readable, regular, below⟩
  · intro above entry member foreign
    refine mem_delOldFiles_iff.mpr ⟨member, ?_⟩
    rintro ⟨readable, regular, below⟩
    exact above readable entry member regular foreign below

/-- The appender of the test: the working directory and half a year. -/
def testlog : FileAppender := ⟨ascii "./", ascii "testlog", 6 * 30 * 24 * 60 * 60⟩

/-- A working directory with a hidden file. -/
def workingDirectory : Directory where
  entries := [⟨ascii ".gitignore", true, by decide⟩, ⟨ascii "main.cc", true, by decide⟩]
  distinct := by decide

/-- The fifth of July 2024, which is half a year before the first of January 2025. -/
def summerMidnight : Tm := ⟨2024, 7, 5, 0, 0, 0⟩

/-- On the first of January 2025 the hidden file is removed. -/
theorem hidden_file_removed :
    ¬∀ entry ∈ workingDirectory.entries, ¬testlog.IsLogName entry.name →
      entry ∈ (testlog.delOldFiles (fun _ => summerMidnight) 1735689600 true
        workingDirectory).entries := by
  intro kept
  have foreign : ¬testlog.IsLogName (ascii ".gitignore") := by
    rintro ⟨stamp, pid, length, digits, -, -, eq⟩
    cases stamp with
    | nil => cases length
    | cons b stamp =>
      have dot : b = 46 := (List.cons.inj eq).1.symm
      have digit := digits b (by simp)
      rw [dot] at digit
      exact absurd digit (by decide)
  have stays := kept ⟨ascii ".gitignore", true, by decide⟩ (by decide) foreign
  exact absurd stays (by decide +kernel)

end FileAppender

end Clia.Log
