import Mathlib.Data.List.Lex
import PamDesktop.Foundations.FileTree
import PamDesktop.Foundations.PathText
import PamDesktop.Foundations.Largest
import PamDesktop.Foundations.Transition

/-!
# Crash reports

Every thread of every process of an application that panics writes a report into one directory and
then removes reports there until eight are left. The threads take their steps in any order, and
each of them can fail or be killed between two of its steps. `crash_reports_kept` says which
reports there are.
-/

namespace PamDesktop.Shell.CrashReports

open Foundations Largest

/-! ## A report -/

/-- `MAX_REPORTS`. -/
def maxReports : Nat := 8

/-- `MAX_BACKTRACE_BYTES`. -/
def maxBacktraceBytes : Nat := 256 * 1024

/-- `CrashLocation`. -/
structure CrashLocation where
  file : String
  line : Nat
  column : Nat
  deriving DecidableEq

/-- `CrashReport`. -/
structure CrashReport where
  schemaVersion : Nat := 1
  surfaceCode : Nat := 3
  applicationId : String
  hostVersion : String
  processId : Nat
  capturedAtUnixMs : Nat
  thread : String
  location : Option CrashLocation
  backtrace : String
  deriving DecidableEq

/-- A process of the application. -/
structure Process where
  applicationId : String
  hostVersion : String
  processId : Nat

/-- What the hook is told of a panic, and reads off. -/
structure Information where
  unixMilliseconds : Nat
  thread : Option String
  location : Option CrashLocation
  backtrace : String

/-- `String::truncate`, which panics where it would cut a character. -/
def truncate : List Char → Nat → Option (List Char)
  | [], _ => some []
  | c :: characters, length =>
      if length = 0 then some []
      else if c.utf8Size ≤ length then
        (truncate characters (length - c.utf8Size)).map (c :: ·)
      else none

/-- The backtrace of a report. -/
def boundedBacktrace (backtrace : String) : Option String :=
  if maxBacktraceBytes < backtrace.utf8ByteSize then
    (truncate backtrace.toList maxBacktraceBytes).map String.ofList
  else some backtrace

/-- The report that `write_report` encodes. A panic of the hook itself ends the process. -/
def crashReport (process : Process) (information : Information) : Option CrashReport :=
  (boundedBacktrace information.backtrace).map fun backtrace =>
    { applicationId := process.applicationId
      hostVersion := process.hostVersion
      processId := process.processId
      capturedAtUnixMs := information.unixMilliseconds
      thread := String.ofList ((information.thread.getD "unnamed").toList.take 80)
      location := information.location
      backtrace }

/-- The name of a report. -/
def CrashReport.fileName (report : CrashReport) : OsString :=
  osString ("crash-" ++ String.ofList (Nat.toDigits 10 report.capturedAtUnixMs) ++ "-" ++
    String.ofList (Nat.toDigits 10 report.processId) ++ ".json")

/-- The name under which it is written, `with_extension("json.tmp")`. -/
def CrashReport.temporaryName (report : CrashReport) : OsString :=
  report.fileName ++ osString ".tmp"

/-- `u8::to_ascii_lowercase`. -/
def byteLowercase (byte : UInt8) : UInt8 := if 65 ≤ byte ∧ byte ≤ 90 then byte + 32 else byte

/-- The entries that `prune` takes for reports. -/
def isReport (name : OsString) : Bool :=
  (String.fromUTF8? ⟨name.toArray⟩).isSome && (osString "crash-").isPrefixOf name &&
    (extension name).any fun ending => ending.map byteLowercase == osString "json"

/-- The order of the names, byte by byte. -/
def nameKey (name : OsString) : List Nat := name.map UInt8.toNat

/-! ## The directory -/

/-- What a file holds. -/
inductive Content where
  | partly
  | whole (report : CrashReport)
  deriving DecidableEq

/-- Where a thread is in its hook. -/
inductive Hook where
  | idle
  | captured (report : CrashReport)
  | created (report : CrashReport)
  | written (report : CrashReport)
  | published
  | listing (present : List OsString)
  | removing (stale : List OsString)
  deriving DecidableEq

/-- The directory and the threads. `published` records the names that reports have had. -/
structure Directory (ι : Type) where
  files : List (OsString × Content)
  hooks : ι → Hook
  published : Finset OsString

/-- What a thread does. It fails, or is killed, wherever it is. -/
inductive Event (ι : Type) where
  | panic (thread : ι) (information : Information)
  | create (thread : ι)
  | write (thread : ι)
  | publish (thread : ι)
  | look (thread : ι)
  | list (thread : ι) (listed : List OsString)
  | remove (thread : ι) (removed : Bool)
  | finish (thread : ι)
  | fail (thread : ι)

variable {ι : Type}

namespace Directory

/-- The names of the files. -/
def names (directory : Directory ι) : List OsString := directory.files.map Prod.fst

/-- A thread comes to another place. -/
def set [DecidableEq ι] (directory : Directory ι) (thread : ι) (hook : Hook) : Directory ι :=
  { directory with hooks := Function.update directory.hooks thread hook }

/-- Without the file of a name, which a listing that is going on need no longer show. -/
def without (directory : Directory ι) (name : OsString) : Directory ι :=
  { directory with
    files := directory.files.filter fun file => file.1 ≠ name
    hooks := fun thread =>
      match directory.hooks thread with
      | .listing present => .listing (present.filter (· ≠ name))
      | hook => hook }

/-- With a new file under a name. -/
def add (directory : Directory ι) (name : OsString) (content : Content) : Directory ι :=
  { directory with files := (name, content) :: directory.files }

/-- With other contents of a file. -/
def fill (directory : Directory ι) (name : OsString) (content : Content) : Directory ι :=
  { directory with
    files := directory.files.map fun file => if file.1 = name then (name, content) else file }

/-- With a file in place of the one that had the name of the report. -/
def put (directory : Directory ι) (name : OsString) (content : Content) : Directory ι :=
  { (directory.without name).add name content with
    published := insert name directory.published }

/-- One step. -/
def next [DecidableEq ι] (processes : ι → Process) (directory : Directory ι) :
    Event ι → Option (Directory ι)
  | .panic thread information =>
      match directory.hooks thread with
      | .idle =>
          match crashReport (processes thread) information with
          | some report => some (directory.set thread (.captured report))
          | none => some directory
      | _ => none
  | .create thread =>
      match directory.hooks thread with
      | .captured report =>
          -- `create_new`
          if ∃ file ∈ directory.files, file.1 = report.temporaryName then none
          else some ((directory.add report.temporaryName .partly).set thread (.created report))
      | _ => none
  | .write thread =>
      match directory.hooks thread with
      | .created report =>
          some ((directory.fill report.temporaryName (.whole report)).set thread (.written report))
      | _ => none
  | .publish thread =>
      match directory.hooks thread with
      | .written report =>
          match directory.files.lookup report.temporaryName with
          | some content =>
              some (((directory.set thread .published).without report.temporaryName).put
                report.fileName content)
          | none => none
      | _ => none
  | .look thread =>
      match directory.hooks thread with
      | .published =>
          some (directory.set thread (.listing (directory.names.filter fun name => isReport name)))
      | _ => none
  | .list thread listed =>
      match directory.hooks thread with
      | .listing _ =>
          -- What is listed has been there at some time, and an entry can be unreadable.
          if listed.Nodup ∧ ∀ name ∈ listed, name ∈ directory.published then
            some (directory.set thread (.removing (excess maxReports nameKey listed)))
          else none
      | _ => none
  | .remove thread removed =>
      match directory.hooks thread with
      | .removing (name :: stale) =>
          some ((if removed then directory.without name else directory).set thread
            (.removing stale))
      | _ => none
  | .finish thread =>
      match directory.hooks thread with
      | .removing [] => some (directory.set thread .idle)
      | _ => none
  | .fail thread => some (directory.set thread .idle)

end Directory

/-- The threads at work. -/
def system [DecidableEq ι] (processes : ι → Process) : System (Directory ι) (Event ι) where
  next := Directory.next processes

/-- The directory that the threads find. -/
def found (files : List (OsString × Content)) : Directory ι where
  files
  hooks := fun _ => .idle
  published := ((files.map Prod.fst).filter fun name => isReport name).toFinset

/-! ## Names -/

theorem name_key_injective : Function.Injective nameKey :=
  List.map_injective_iff.mpr fun _ _ heq => UInt8.toNat_inj.mp heq

/-- What comes before the extension of a report. -/
def CrashReport.stem (report : CrashReport) : OsString :=
  osString "crash-" ++ osString (String.ofList (Nat.toDigits 10 report.capturedAtUnixMs)) ++
    osString "-" ++ osString (String.ofList (Nat.toDigits 10 report.processId))

theorem file_name_eq (report : CrashReport) :
    report.fileName = report.stem ++ 46 :: osString "json" := by
  simp only [CrashReport.fileName, CrashReport.stem, os_string_append]
  rfl

theorem stem_ne_nil (report : CrashReport) : report.stem ≠ [] := by
  unfold CrashReport.stem
  simp only [List.append_assoc]
  exact List.append_ne_nil_of_left_ne_nil (by decide) _

/-- A report that is published is one that `prune` finds. -/
theorem is_report_file_name (report : CrashReport) : isReport report.fileName = true := by
  have hextension : extension report.fileName = some (osString "json") := by
    rw [file_name_eq]
    exact extension_append (stem_ne_nil report) (by decide) (by decide +kernel)
  have hprefix : (osString "crash-").isPrefixOf report.fileName = true := by
    rw [List.isPrefixOf_iff_prefix, CrashReport.fileName]
    simp only [os_string_append, List.append_assoc]
    exact List.prefix_append _ _
  have htext : (String.fromUTF8? ⟨report.fileName.toArray⟩).isSome = true := by
    rw [CrashReport.fileName, from_utf8_os_string]
    rfl
  rw [isReport, htext, hprefix, hextension]
  decide

/-- A report that is being written is one that `prune` does not find. -/
theorem is_report_temporary_name (report : CrashReport) :
    isReport report.temporaryName = false := by
  have hextension : extension report.temporaryName = some (osString "tmp") := by
    have hname : report.temporaryName = report.fileName ++ 46 :: osString "tmp" := rfl
    rw [hname]
    refine extension_append ?_ (by decide) (by decide +kernel)
    rw [file_name_eq]
    exact List.append_ne_nil_of_left_ne_nil (stem_ne_nil report) _
  rw [isReport, hextension]
  have hother : (osString "tmp").map byteLowercase ≠ osString "json" := by decide
  simp [hother]

theorem temporary_ne_report {report : CrashReport} {name : OsString} (h : isReport name = true) :
    report.temporaryName ≠ name := by
  rintro rfl
  rw [is_report_temporary_name] at h
  cases h

/-! ## The order of the names -/

section Order

variable {first second : List Char} {rest rest' : List Nat}

theorem digit_range {c : Char} (h : c.isDigit = true) : 48 ≤ c.toNat ∧ c.toNat ≤ 57 := by
  unfold Char.isDigit at h
  simp only [Bool.and_eq_true, decide_eq_true_eq, ge_iff_le, UInt32.le_iff_toNat_le] at h
  exact h

/-- The value of a numeral, by its first digit. -/
theorem value_cons (c : Char) (digits : List Char) :
    Nat.ofDigitChars 10 (c :: digits) 0 =
      10 ^ digits.length * (c.toNat - 48) + Nat.ofDigitChars 10 digits 0 := by
  rw [Nat.ofDigitChars_cons, Nat.ofDigitChars_eq_ofDigitChars_zero]
  simp

theorem digits_below (h : ∀ c ∈ first, c.isDigit = true) :
    Nat.ofDigitChars 10 first 0 < 10 ^ first.length := by
  induction first with
  | nil => simp
  | cons c digits ih =>
      have hrest := ih fun c hc => h c (List.mem_cons_of_mem _ hc)
      have hdigit := digit_range (h c List.mem_cons_self)
      have hmul : 10 ^ digits.length * (c.toNat - 48) ≤ 10 ^ digits.length * 9 :=
        Nat.mul_le_mul_left _ (by omega)
      rw [value_cons, List.length_cons, Nat.pow_succ]
      omega

/-- Numerals of one length are in the order of their values, whatever follows them. -/
theorem digits_lt (hlength : first.length = second.length)
    (hfirst : ∀ c ∈ first, c.isDigit = true) (hsecond : ∀ c ∈ second, c.isDigit = true)
    (hlt : Nat.ofDigitChars 10 first 0 < Nat.ofDigitChars 10 second 0) :
    first.map Char.toNat ++ rest < second.map Char.toNat ++ rest' := by
  induction first generalizing second with
  | nil =>
      obtain rfl : second = [] := List.length_eq_zero_iff.mp hlength.symm
      exact absurd hlt (Nat.lt_irrefl _)
  | cons c first ih =>
      cases second with
      | nil => cases hlength
      | cons d second =>
          have hlengths : first.length = second.length := by simpa using hlength
          have hc := digit_range (hfirst c List.mem_cons_self)
          have hd := digit_range (hsecond d List.mem_cons_self)
          have hbelow := digits_below fun c hc => hsecond c (List.mem_cons_of_mem _ hc)
          rw [value_cons, value_cons, hlengths] at hlt
          rw [List.map_cons, List.map_cons, List.cons_append, List.cons_append,
            List.cons_lt_cons_iff]
          obtain hless | heq | hmore := Nat.lt_trichotomy c.toNat d.toNat
          · exact .inl hless
          · rw [heq] at hlt
            exact .inr ⟨heq, ih hlengths (fun c hc => hfirst c (List.mem_cons_of_mem _ hc))
              (fun c hc => hsecond c (List.mem_cons_of_mem _ hc)) (by omega)⟩
          · -- a larger first digit outweighs all that follows
            have hmul : 10 ^ second.length * (d.toNat - 48 + 1) ≤
                10 ^ second.length * (c.toNat - 48) := Nat.mul_le_mul_left _ (by omega)
            rw [Nat.mul_succ] at hmul
            omega

/-- The characters of a numeral in a name. -/
theorem name_key_digits (h : ∀ c ∈ first, c.isDigit = true) :
    nameKey (osString (String.ofList first)) = first.map Char.toNat := by
  rw [os_string_of_list]
  induction first with
  | nil => rfl
  | cons c digits ih =>
      have hc := digit_range (h c List.mem_cons_self)
      have hrest := ih fun c hc => h c (List.mem_cons_of_mem _ hc)
      have hbyte : (UInt8.ofNat c.toNat).toNat = c.toNat := by
        rw [UInt8.toNat_ofNat']
        omega
      rw [List.flatMap_cons, utf8_encode_ascii (by omega), List.map_cons, ← hrest]
      show (UInt8.ofNat c.toNat).toNat :: _ = _
      rw [hbyte]
      rfl

/-- Of two reports whose times have as many digits the earlier has the smaller name. -/
theorem name_key_lt {report later : CrashReport}
    (hdigits : (Nat.toDigits 10 report.capturedAtUnixMs).length =
      (Nat.toDigits 10 later.capturedAtUnixMs).length)
    (htime : report.capturedAtUnixMs < later.capturedAtUnixMs) :
    nameKey report.fileName < nameKey later.fileName := by
  have hdigit (value : Nat) : ∀ c ∈ Nat.toDigits 10 value, c.isDigit = true :=
    fun c hc => Nat.isDigit_of_mem_toDigits (by omega) (by omega) hc
  have hname (report : CrashReport) : nameKey report.fileName =
      nameKey (osString "crash-") ++
        ((Nat.toDigits 10 report.capturedAtUnixMs).map Char.toNat ++
          nameKey (osString "-" ++ osString (String.ofList (Nat.toDigits 10 report.processId)) ++
            osString ".json")) := by
    rw [← name_key_digits (hdigit report.capturedAtUnixMs)]
    simp only [CrashReport.fileName, os_string_append, nameKey, List.map_append, List.append_assoc]
  rw [hname, hname]
  refine List.append_left_lt (digits_lt hdigits (hdigit _) (hdigit _) ?_)
  rw [Nat.ofDigitChars_ten_toDigits, Nat.ofDigitChars_ten_toDigits]
  exact htime

end Order

/-! ## What holds between the steps -/

/-- The report whose file the thread is writing. -/
def Hook.writes : Hook → Option CrashReport
  | .created report => some report
  | .written report => some report
  | _ => none

section Invariant

variable {processes : ι → Process} {initial : List (OsString × Content)}
  {directory directory' : Directory ι}

/-- The report of a panic of some thread. -/
def Genuine (processes : ι → Process) (report : CrashReport) : Prop :=
  ∃ thread information, crashReport (processes thread) information = some report

/-- What the place of a thread says. -/
def Directory.Placed (processes : ι → Process) (directory : Directory ι) : Hook → Prop
  | .captured report => Genuine processes report
  | .created report => Genuine processes report ∧ report.temporaryName ∈ directory.names
  | .written report =>
      Genuine processes report ∧ (report.temporaryName, .whole report) ∈ directory.files
  | .removing stale => ∀ name ∈ stale, isReport name = true ∧
      Outranked maxReports nameKey directory.published name
  | _ => True

/-- Between the steps the names are distinct, the largest names that reports have had are there, no
report is there in part, and every thread has the file that it writes to itself. -/
structure Orderly (processes : ι → Process) (initial : List (OsString × Content))
    (directory : Directory ι) : Prop where
  names : directory.names.Nodup
  known : ∀ name ∈ directory.names, isReport name = true → name ∈ directory.published
  reports : ∀ name ∈ directory.published, isReport name = true
  leading : ∀ name ∈ directory.published,
    ¬ Outranked maxReports nameKey directory.published name → name ∈ directory.names
  whole : ∀ file ∈ directory.files, isReport file.1 = true → file ∈ initial ∨
    ∃ report, Genuine processes report ∧ file = (report.fileName, .whole report)
  placed : ∀ thread, directory.Placed processes (directory.hooks thread)
  apart : ∀ thread thread' report report', (directory.hooks thread).writes = some report →
    (directory.hooks thread').writes = some report' →
    report.temporaryName = report'.temporaryName → thread = thread'

/-- The temporary file of every report that is being written is there. -/
theorem Orderly.temporary (h : Orderly processes initial directory) {thread : ι}
    {report : CrashReport} (hwrites : (directory.hooks thread).writes = some report) :
    report.temporaryName ∈ directory.names := by
  have hplaced := h.placed thread
  cases hhook : directory.hooks thread with
  | created report' =>
      rw [hhook] at hplaced hwrites
      obtain rfl : report' = report := Option.some.inj hwrites
      exact hplaced.2
  | written report' =>
      rw [hhook] at hplaced hwrites
      obtain rfl : report' = report := Option.some.inj hwrites
      exact List.mem_map_of_mem hplaced.2
  | _ =>
      rw [hhook] at hwrites
      cases hwrites

/-- A thread comes to a place where it writes to no file that another thread writes to. -/
theorem Orderly.set [DecidableEq ι] (h : Orderly processes initial directory) {thread : ι}
    {hook : Hook} (hplaced : directory.Placed processes hook)
    (hwrites : ∀ report, hook.writes = some report → ∀ other report', other ≠ thread →
      (directory.hooks other).writes = some report' →
      report.temporaryName ≠ report'.temporaryName) :
    Orderly processes initial (directory.set thread hook) where
  names := h.names
  known := h.known
  reports := h.reports
  leading := h.leading
  whole := h.whole
  placed := by
    intro other
    show directory.Placed processes (Function.update directory.hooks thread hook other)
    by_cases heq : other = thread
    · rw [heq, Function.update_self]
      exact hplaced
    · rw [Function.update_of_ne heq]
      exact h.placed other
  apart := by
    intro first second report report' hfirst hsecond hname
    change (Function.update directory.hooks thread hook first).writes = some report at hfirst
    change (Function.update directory.hooks thread hook second).writes = some report' at hsecond
    by_cases heq : first = thread
    · rw [heq, Function.update_self] at hfirst
      by_cases heq' : second = thread
      · exact heq.trans heq'.symm
      · rw [Function.update_of_ne heq'] at hsecond
        exact absurd hname (hwrites report hfirst second report' heq' hsecond)
    · rw [Function.update_of_ne heq] at hfirst
      by_cases heq' : second = thread
      · rw [heq', Function.update_self] at hsecond
        exact absurd hname.symm (hwrites report' hsecond first report heq hfirst)
      · rw [Function.update_of_ne heq'] at hsecond
        exact h.apart first second report report' hfirst hsecond hname

/-- A place where nothing is written. -/
theorem Orderly.set_silent [DecidableEq ι] (h : Orderly processes initial directory) {thread : ι}
    (hook : Hook) (hplaced : directory.Placed processes hook) (hsilent : hook.writes = none) :
    Orderly processes initial (directory.set thread hook) := by
  refine h.set hplaced fun report hwrites => ?_
  rw [hsilent] at hwrites
  cases hwrites

theorem writes_without (name : OsString) (thread : ι) :
    ((directory.without name).hooks thread).writes = (directory.hooks thread).writes := by
  show Hook.writes (match directory.hooks thread with
    | .listing present => .listing (present.filter (· ≠ name))
    | hook => hook) = _
  cases directory.hooks thread <;> rfl

theorem mem_names_without {name other : OsString} :
    other ∈ (directory.without name).names ↔ other ∈ directory.names ∧ other ≠ name := by
  simp only [Directory.names, Directory.without, List.mem_map, List.mem_filter,
    decide_eq_true_eq]
  constructor
  · rintro ⟨file, ⟨hfile, hne⟩, rfl⟩
    exact ⟨⟨file, hfile, rfl⟩, hne⟩
  · rintro ⟨⟨file, hfile, rfl⟩, hne⟩
    exact ⟨file, ⟨hfile, hne⟩, rfl⟩

theorem mem_files_without {name : OsString} {file : OsString × Content} :
    file ∈ (directory.without name).files ↔ file ∈ directory.files ∧ file.1 ≠ name := by
  simp only [Directory.without, List.mem_filter, decide_eq_true_eq]

/-- What a place says is still so without a file that is not the one being written. -/
theorem placed_without {name : OsString} {thread : ι}
    (h : directory.Placed processes (directory.hooks thread))
    (hwrites : ∀ report, (directory.hooks thread).writes = some report →
      report.temporaryName ≠ name) :
    (directory.without name).Placed processes ((directory.without name).hooks thread) := by
  show (directory.without name).Placed processes (match directory.hooks thread with
    | .listing present => .listing (present.filter (· ≠ name))
    | hook => hook)
  cases hhook : directory.hooks thread with
  | created report =>
      rw [hhook] at h hwrites
      exact ⟨h.1, mem_names_without.mpr ⟨h.2, hwrites report rfl⟩⟩
  | written report =>
      rw [hhook] at h hwrites
      exact ⟨h.1, mem_files_without.mpr ⟨h.2, hwrites report rfl⟩⟩
  | removing stale =>
      rw [hhook] at h
      exact h
  | captured report =>
      rw [hhook] at h
      exact h
  | _ => trivial

/-- A file goes that nobody writes to: no report, or one that is outranked. -/
theorem Orderly.without (h : Orderly processes initial directory) {name : OsString}
    (hname : isReport name = true → Outranked maxReports nameKey directory.published name)
    (hwrites : ∀ thread report, (directory.hooks thread).writes = some report →
      report.temporaryName ≠ name) :
    Orderly processes initial (directory.without name) where
  names := h.names.sublist (List.filter_sublist.map _)
  known := fun other hother => h.known other (mem_names_without.mp hother).1
  reports := h.reports
  leading := by
    intro other hother hleading
    refine mem_names_without.mpr ⟨h.leading other hother hleading, ?_⟩
    rintro rfl
    exact hleading (hname (h.reports other hother))
  whole := fun file hfile => h.whole file (mem_files_without.mp hfile).1
  placed := fun thread => placed_without (h.placed thread) (hwrites thread)
  apart := by
    intro first second report report' hfirst hsecond
    rw [writes_without] at hfirst hsecond
    exact h.apart first second report report' hfirst hsecond

/-- What a place says is still so with more files and more names. -/
theorem placed_mono {hook : Hook} (h : directory.Placed processes hook)
    (hfiles : ∀ file ∈ directory.files, file ∈ directory'.files)
    (hpublished : directory.published ⊆ directory'.published) :
    directory'.Placed processes hook := by
  have hnames : ∀ name ∈ directory.names, name ∈ directory'.names := by
    intro name hname
    obtain ⟨file, hfile, rfl⟩ := List.mem_map.mp hname
    exact List.mem_map_of_mem (hfiles file hfile)
  cases hook with
  | created report => exact ⟨h.1, hnames _ h.2⟩
  | written report => exact ⟨h.1, hfiles _ h.2⟩
  | removing stale =>
      intro name hname
      obtain ⟨hreport, houtranked⟩ := h name hname
      exact ⟨hreport, houtranked.mono hpublished⟩
  | captured report => exact h
  | _ => trivial

/-- A file comes that is no report. -/
theorem Orderly.add (h : Orderly processes initial directory) {name : OsString} {content : Content}
    (hreport : isReport name = false) (hname : name ∉ directory.names) :
    Orderly processes initial (directory.add name content) where
  names := List.nodup_cons.mpr ⟨hname, h.names⟩
  known := by
    intro other hother hisreport
    obtain rfl | hother := List.mem_cons.mp hother
    · rw [hreport] at hisreport
      cases hisreport
    · exact h.known other hother hisreport
  reports := h.reports
  leading := fun other hother hleading => List.mem_cons_of_mem _ (h.leading other hother hleading)
  whole := by
    intro file hfile hisreport
    obtain rfl | hfile := List.mem_cons.mp hfile
    · rw [hreport] at hisreport
      cases hisreport
    · exact h.whole file hfile hisreport
  placed := fun thread => placed_mono (h.placed thread)
    (fun file hfile => List.mem_cons_of_mem _ hfile) fun _ hother => hother
  apart := h.apart

theorem names_fill (directory : Directory ι) (name : OsString) (content : Content) :
    (directory.fill name content).names = directory.names := by
  unfold Directory.fill Directory.names
  rw [List.map_map]
  refine List.map_congr_left fun file _ => ?_
  by_cases hname : file.1 = name
  · simp [hname]
  · simp [hname]

theorem mem_files_fill {name : OsString} {content : Content} {file : OsString × Content}
    (hne : file.1 ≠ name) :
    file ∈ (directory.fill name content).files ↔ file ∈ directory.files := by
  simp only [Directory.fill, List.mem_map]
  constructor
  · rintro ⟨other, hother, heq⟩
    by_cases hname : other.1 = name
    · rw [if_pos hname] at heq
      exact absurd (congrArg Prod.fst heq).symm hne
    · rw [if_neg hname] at heq
      exact heq ▸ hother
  · intro hfile
    exact ⟨file, hfile, if_neg hne⟩

theorem filled {name : OsString} (hname : name ∈ directory.names) (content : Content) :
    (name, content) ∈ (directory.fill name content).files := by
  obtain ⟨file, hfile, rfl⟩ := List.mem_map.mp hname
  exact List.mem_map.mpr ⟨file, hfile, if_pos rfl⟩

/-- A file that is no report is filled by the thread that writes it. -/
theorem Orderly.fill (h : Orderly processes initial directory) {name : OsString} {content : Content}
    (hreport : isReport name = false)
    (hother : ∀ thread report, directory.hooks thread = .written report →
      report.temporaryName ≠ name) :
    Orderly processes initial (directory.fill name content) where
  names := names_fill directory name content ▸ h.names
  known := fun other hmem => h.known other (names_fill directory name content ▸ hmem)
  reports := h.reports
  leading := by
    intro other hmem hleading
    rw [names_fill]
    exact h.leading other hmem hleading
  whole := by
    intro file hfile hisreport
    refine h.whole file ((mem_files_fill fun heq => ?_).mp hfile) hisreport
    rw [heq, hreport] at hisreport
    cases hisreport
  placed := by
    intro thread
    have hplaced := h.placed thread
    show (directory.fill name content).Placed processes (directory.hooks thread)
    cases hhook : directory.hooks thread with
    | created report =>
        rw [hhook] at hplaced
        exact ⟨hplaced.1, (names_fill directory name content).symm ▸ hplaced.2⟩
    | written report =>
        rw [hhook] at hplaced
        exact ⟨hplaced.1, (mem_files_fill (hother thread report hhook)).mpr hplaced.2⟩
    | removing stale =>
        rw [hhook] at hplaced
        exact hplaced
    | captured report =>
        rw [hhook] at hplaced
        exact hplaced
    | _ => trivial
  apart := h.apart

/-- A report gets its name, whatever had that name. -/
theorem Orderly.put (h : Orderly processes initial directory) {report : CrashReport}
    (hgenuine : Genuine processes report) :
    Orderly processes initial (directory.put report.fileName (.whole report)) where
  names := by
    refine List.nodup_cons.mpr ⟨fun hmem => ?_, h.names.sublist (List.filter_sublist.map _)⟩
    exact (mem_names_without.mp hmem).2 rfl
  known := by
    intro name hname hisreport
    obtain rfl | hname := List.mem_cons.mp hname
    · exact Finset.mem_insert_self _ _
    · exact Finset.mem_insert_of_mem (h.known name (mem_names_without.mp hname).1 hisreport)
  reports := by
    intro name hname
    obtain rfl | hname := Finset.mem_insert.mp hname
    · exact is_report_file_name report
    · exact h.reports name hname
  leading := by
    intro name hname hleading
    by_cases heq : name = report.fileName
    · exact List.mem_cons.mpr (.inl heq)
    · refine List.mem_cons_of_mem _ (mem_names_without.mpr ⟨?_, heq⟩)
      refine h.leading name ((Finset.mem_insert.mp hname).resolve_left heq) fun houtranked => ?_
      exact hleading (houtranked.mono (Finset.subset_insert _ _))
  whole := by
    intro file hfile hisreport
    obtain rfl | hfile := List.mem_cons.mp hfile
    · exact .inr ⟨report, hgenuine, rfl⟩
    · exact h.whole file (mem_files_without.mp hfile).1 hisreport
  placed := by
    intro thread
    refine placed_mono (placed_without (h.placed thread) fun other _ => ?_)
      (fun file hfile => List.mem_cons_of_mem _ hfile) (Finset.subset_insert _ _)
    exact temporary_ne_report (is_report_file_name report)
  apart := by
    intro first second report report' hfirst hsecond
    change ((directory.without _).hooks first).writes = _ at hfirst
    change ((directory.without _).hooks second).writes = _ at hsecond
    rw [writes_without] at hfirst hsecond
    exact h.apart first second report report' hfirst hsecond

/-- What is read under the name of a report that has been written. -/
theorem Orderly.lookup (h : Orderly processes initial directory) {thread : ι} {report : CrashReport}
    (hhook : directory.hooks thread = .written report) {content : Content}
    (hlookup : directory.files.lookup report.temporaryName = some content) :
    content = .whole report ∧ Genuine processes report := by
  have hplaced := h.placed thread
  rw [hhook] at hplaced
  obtain ⟨before, behind, hfiles, -⟩ := List.lookup_eq_some_iff.mp hlookup
  have hmem : (report.temporaryName, content) ∈ directory.files := by
    rw [hfiles]
    exact List.mem_append_right _ List.mem_cons_self
  have heq := List.inj_on_of_nodup_map h.names hmem hplaced.2 rfl
  exact ⟨congrArg Prod.snd heq, hplaced.1⟩

section Steps

variable {thread : ι} {report : CrashReport}

theorem writes_of_created (h : directory.hooks thread = .created report) :
    (directory.hooks thread).writes = some report := by
  rw [h]
  rfl

theorem writes_of_written (h : directory.hooks thread = .written report) :
    (directory.hooks thread).writes = some report := by
  rw [h]
  rfl

variable [DecidableEq ι]

theorem Orderly.create (h : Orderly processes initial directory)
    (hhook : directory.hooks thread = .captured report)
    (habsent : report.temporaryName ∉ directory.names) :
    Orderly processes initial
      ((directory.add report.temporaryName .partly).set thread (.created report)) := by
  have hgenuine := h.placed thread
  rw [hhook] at hgenuine
  refine (h.add (is_report_temporary_name report) habsent).set
    ⟨hgenuine, List.mem_cons_self⟩ ?_
  intro report' heq other report'' hother hwrites hname
  obtain rfl : report = report' := Option.some.inj heq
  exact habsent (hname ▸ h.temporary hwrites)

theorem Orderly.write (h : Orderly processes initial directory)
    (hhook : directory.hooks thread = .created report) :
    Orderly processes initial
      ((directory.fill report.temporaryName (.whole report)).set thread (.written report)) := by
  have hplaced := h.placed thread
  rw [hhook] at hplaced
  have hother : ∀ other report', directory.hooks other = .written report' →
      report'.temporaryName ≠ report.temporaryName := by
    intro other report' hwritten heq
    have hsame : other = thread := h.apart other thread report' report
      (writes_of_written hwritten) (writes_of_created hhook) heq
    rw [hsame, hhook] at hwritten
    cases hwritten
  refine (h.fill (is_report_temporary_name report) hother).set ⟨hplaced.1, filled hplaced.2 _⟩ ?_
  intro report' heq other report'' hne hwrites hname
  obtain rfl : report = report' := Option.some.inj heq
  exact hne (h.apart other thread report'' report hwrites (writes_of_created hhook) hname.symm)

theorem Orderly.publish (h : Orderly processes initial directory)
    (hhook : directory.hooks thread = .written report) (hgenuine : Genuine processes report) :
    Orderly processes initial
      (((directory.set thread .published).without report.temporaryName).put report.fileName
        (.whole report)) := by
  have hset : Orderly processes initial (directory.set thread .published) :=
    h.set_silent .published trivial rfl
  refine (hset.without (fun hisreport => ?_) fun other report' hother heq => ?_).put hgenuine
  · rw [is_report_temporary_name] at hisreport
    cases hisreport
  · change (Function.update directory.hooks thread .published other).writes = some report' at hother
    by_cases hsame : other = thread
    · rw [hsame, Function.update_self] at hother
      cases hother
    · rw [Function.update_of_ne hsame] at hother
      exact hsame
        (h.apart other thread report' report hother (writes_of_written hhook) heq)

theorem Orderly.list (h : Orderly processes initial directory) {listed : List OsString}
    (hlisted : listed.Nodup) (hknown : ∀ name ∈ listed, name ∈ directory.published) :
    Orderly processes initial
      (directory.set thread (.removing (excess maxReports nameKey listed))) := by
  refine h.set_silent _ (fun name hname => ?_) rfl
  have hmem := mem_listed_of_excess hname
  refine ⟨h.reports name (hknown name hmem), ?_⟩
  refine ((mem_excess_iff name_key_injective hlisted hmem).mp hname).mono ?_
  intro other hother
  exact hknown other (List.mem_toFinset.mp hother)

theorem Orderly.remove (h : Orderly processes initial directory) {name : OsString}
    {stale : List OsString} (hhook : directory.hooks thread = .removing (name :: stale))
    (removed : Bool) :
    Orderly processes initial
      ((if removed then directory.without name else directory).set thread (.removing stale)) := by
  have hplaced := h.placed thread
  rw [hhook] at hplaced
  obtain ⟨hreport, houtranked⟩ := hplaced name List.mem_cons_self
  have hrest : ∀ other ∈ stale, isReport other = true ∧
      Outranked maxReports nameKey directory.published other :=
    fun other hother => hplaced other (List.mem_cons_of_mem _ hother)
  cases removed with
  | false => exact h.set_silent _ hrest rfl
  | true =>
      refine (h.without (fun _ => houtranked) fun _ _ _ => ?_).set_silent _ hrest rfl
      exact temporary_ne_report hreport

/-- One step keeps the directory in order. -/
theorem next_orderly {event : Event ι} (h : Orderly processes initial directory)
    (hnext : directory.next processes event = some directory') :
    Orderly processes initial directory' := by
  cases event with
  | panic thread information =>
      simp only [Directory.next] at hnext
      split at hnext
      · split at hnext
        · next report hreport =>
            obtain rfl := Option.some.inj hnext
            exact h.set_silent (.captured report) ⟨thread, information, hreport⟩ rfl
        · obtain rfl := Option.some.inj hnext
          exact h
      · cases hnext
  | create thread =>
      simp only [Directory.next] at hnext
      split at hnext
      · next report hhook =>
          split at hnext
          · cases hnext
          · next habsent =>
              obtain rfl := Option.some.inj hnext
              exact h.create hhook fun hmem => habsent (List.mem_map.mp hmem)
      · cases hnext
  | write thread =>
      simp only [Directory.next] at hnext
      split at hnext
      · next report hhook =>
          obtain rfl := Option.some.inj hnext
          exact h.write hhook
      · cases hnext
  | publish thread =>
      simp only [Directory.next] at hnext
      split at hnext
      · next report hhook =>
          split at hnext
          · next content hlookup =>
              obtain rfl := Option.some.inj hnext
              obtain ⟨rfl, hgenuine⟩ := h.lookup hhook hlookup
              exact h.publish hhook hgenuine
          · cases hnext
      · cases hnext
  | look thread =>
      simp only [Directory.next] at hnext
      split at hnext
      · obtain rfl := Option.some.inj hnext
        exact h.set_silent (.listing _) trivial rfl
      · cases hnext
  | list thread listed =>
      simp only [Directory.next] at hnext
      split at hnext
      · split at hnext
        · next hlisted =>
            obtain rfl := Option.some.inj hnext
            exact h.list hlisted.1 hlisted.2
        · cases hnext
      · cases hnext
  | remove thread removed =>
      simp only [Directory.next] at hnext
      split at hnext
      · next name stale hhook =>
          obtain rfl := Option.some.inj hnext
          exact h.remove hhook removed
      · cases hnext
  | finish thread =>
      simp only [Directory.next] at hnext
      split at hnext
      · obtain rfl := Option.some.inj hnext
        exact h.set_silent .idle trivial rfl
      · cases hnext
  | fail thread =>
      obtain rfl := Option.some.inj hnext
      exact h.set_silent .idle trivial rfl

end Steps

end Invariant

/-! ## What is left at rest -/

section Settling

variable {processes : ι → Process} {initial : List (OsString × Content)}
  {directory directory' : Directory ι}

/-- A report of this name is there. -/
def Directory.Holds (directory : Directory ι) (name : OsString) : Prop :=
  name ∈ directory.names ∧ isReport name = true

/-- The reports beyond the largest are gone, or the thread sees or removes all of them on its way
from this place. -/
def Directory.SettledBy (directory : Directory ι) : Hook → Prop
  | .published => True
  | .listing present => ∀ name, directory.Holds name → name ∈ present
  | .removing stale => ∀ name, directory.Holds name →
      Outranked maxReports nameKey directory.published name → name ∈ stale
  | _ => ∀ name, directory.Holds name →
      ¬ Outranked maxReports nameKey directory.published name

/-- Some thread settles the directory. -/
def Directory.Settled (directory : Directory ι) : Prop :=
  ∃ thread, directory.SettledBy (directory.hooks thread)

/-- What a listing that is going on has to show. -/
def Hook.present : Hook → List OsString
  | .listing present => present
  | _ => []

/-- The thread has published its report and is not yet done. -/
def Hook.clears : Hook → Bool
  | .published | .listing _ | .removing _ => true
  | _ => false

/-- A step that is no failure of a thread between the publication of its report and the end of its
hook: the listing shows all that was there, and what is to be removed is removed. -/
def Undisturbed (directory : Directory ι) : Event ι → Prop
  | .list thread listed => ∀ name ∈ (directory.hooks thread).present, name ∈ listed
  | .remove _ removed => removed = true
  | .fail thread => (directory.hooks thread).clears = false
  | _ => True

instance (directory : Directory ι) : ∀ event, Decidable (Undisturbed directory event)
  | .list _ listed => inferInstanceAs (Decidable (∀ name ∈ _, name ∈ listed))
  | .remove _ removed => inferInstanceAs (Decidable (removed = true))
  | .fail _ => inferInstanceAs (Decidable (_ = false))
  | .panic _ _ | .create _ | .write _ | .publish _ | .look _ | .finish _ => .isTrue trivial

/-- The same thread settles a directory with no more reports. -/
theorem settled_by_mono {hook : Hook} (h : directory.SettledBy hook)
    (hholds : ∀ name, directory'.Holds name → directory.Holds name)
    (hpublished : directory'.published = directory.published) : directory'.SettledBy hook := by
  cases hook with
  | published => trivial
  | listing present => exact fun name hname => h name (hholds name hname)
  | removing stale =>
      intro name hname houtranked
      exact h name (hholds name hname) (hpublished ▸ houtranked)
  | _ =>
      intro name hname houtranked
      exact h name (hholds name hname) (hpublished ▸ houtranked)

/-- A thread comes to a place from which it settles the directory if it did so before. -/
theorem Directory.Settled.set [DecidableEq ι] (h : directory.Settled) {thread : ι} {hook : Hook}
    (hthread : directory.SettledBy (directory.hooks thread) → directory.SettledBy hook) :
    (directory.set thread hook).Settled := by
  obtain ⟨settler, hsettler⟩ := h
  refine ⟨settler, ?_⟩
  show directory.SettledBy (Function.update directory.hooks thread hook settler)
  by_cases heq : settler = thread
  · rw [heq] at hsettler ⊢
    rw [Function.update_self]
    exact hthread hsettler
  · rwa [Function.update_of_ne heq]

theorem Directory.Settled.without (h : directory.Settled) (name : OsString) :
    (directory.without name).Settled := by
  have hholds : ∀ other, (directory.without name).Holds other → directory.Holds other ∧
      other ≠ name :=
    fun other hother => ⟨⟨(mem_names_without.mp hother.1).1, hother.2⟩,
      (mem_names_without.mp hother.1).2⟩
  obtain ⟨settler, hsettler⟩ := h
  refine ⟨settler, ?_⟩
  show (directory.without name).SettledBy (match directory.hooks settler with
    | .listing present => .listing (present.filter (· ≠ name))
    | hook => hook)
  cases hhook : directory.hooks settler with
  | listing present =>
      rw [hhook] at hsettler
      intro other hother
      obtain ⟨hbefore, hne⟩ := hholds other hother
      exact List.mem_filter.mpr ⟨hsettler other hbefore, decide_eq_true hne⟩
  | _ =>
      rw [hhook] at hsettler
      exact settled_by_mono hsettler (fun other hother => (hholds other hother).1) rfl

/-- A file that is no report does not matter. -/
theorem Directory.Settled.add (h : directory.Settled) {name : OsString}
    (hreport : isReport name = false) (content : Content) :
    (directory.add name content).Settled := by
  obtain ⟨settler, hsettler⟩ := h
  refine ⟨settler, settled_by_mono hsettler (fun other hother => ?_) rfl⟩
  obtain rfl | hother' := List.mem_cons.mp hother.1
  · exact absurd hother.2 (ne_true_of_eq_false hreport)
  · exact ⟨hother', hother.2⟩

theorem Directory.Settled.fill (h : directory.Settled) (name : OsString) (content : Content) :
    (directory.fill name content).Settled := by
  obtain ⟨settler, hsettler⟩ := h
  refine ⟨settler, settled_by_mono hsettler (fun other hother => ?_) rfl⟩
  exact ⟨names_fill directory name content ▸ hother.1, hother.2⟩

/-- What the listing of a settling thread shows is enough to find all that is outranked. -/
theorem settled_by_list (h : Orderly processes initial directory) {present listed : List OsString}
    (hsettler : directory.SettledBy (.listing present)) (hlisted : listed.Nodup)
    (hpresent : ∀ name ∈ present, name ∈ listed) :
    directory.SettledBy (.removing (excess maxReports nameKey listed)) := by
  have hseen : ∀ name, directory.Holds name → name ∈ listed :=
    fun name hname => hpresent name (hsettler name hname)
  intro name hname houtranked
  refine (mem_excess_iff name_key_injective hlisted (hseen name hname)).mpr ?_
  refine houtranked.by_leading fun other hother hleading => List.mem_toFinset.mpr ?_
  exact hseen other ⟨h.leading other hother hleading, h.reports other hother⟩

/-- A report that is published is settled by the thread that publishes it. -/
theorem settled_publish [DecidableEq ι] (directory : Directory ι) (thread : ι)
    (temporary name : OsString) (content : Content) :
    (((directory.set thread .published).without temporary).put name content).Settled := by
  refine ⟨thread, ?_⟩
  have hhook : (((directory.set thread .published).without temporary).put name content).hooks
      thread = .published := by
    simp [Directory.put, Directory.add, Directory.without, Directory.set]
  rw [hhook]
  trivial

/-- One undisturbed step keeps the directory settled. -/
theorem next_settled [DecidableEq ι] {event : Event ι} (h : Orderly processes initial directory)
    (hsettled : directory.Settled) (hundisturbed : Undisturbed directory event)
    (hnext : directory.next processes event = some directory') : directory'.Settled := by
  cases event with
  | panic thread information =>
      simp only [Directory.next] at hnext
      split at hnext
      · next hhook =>
          split at hnext
          · obtain rfl := Option.some.inj hnext
            refine hsettled.set fun hthread => ?_
            rw [hhook] at hthread
            exact hthread
          · obtain rfl := Option.some.inj hnext
            exact hsettled
      · cases hnext
  | create thread =>
      simp only [Directory.next] at hnext
      split at hnext
      · next report hhook =>
          split at hnext
          · cases hnext
          · obtain rfl := Option.some.inj hnext
            refine (hsettled.add (is_report_temporary_name report) .partly).set fun hthread => ?_
            change Directory.SettledBy _ (directory.hooks thread) at hthread
            rw [hhook] at hthread
            exact hthread
      · cases hnext
  | write thread =>
      simp only [Directory.next] at hnext
      split at hnext
      · next report hhook =>
          obtain rfl := Option.some.inj hnext
          refine (hsettled.fill _ _).set fun hthread => ?_
          change Directory.SettledBy _ (directory.hooks thread) at hthread
          rw [hhook] at hthread
          exact hthread
      · cases hnext
  | publish thread =>
      simp only [Directory.next] at hnext
      split at hnext
      · split at hnext
        · obtain rfl := Option.some.inj hnext
          exact settled_publish directory thread _ _ _
        · cases hnext
      · cases hnext
  | look thread =>
      simp only [Directory.next] at hnext
      split at hnext
      · obtain rfl := Option.some.inj hnext
        refine hsettled.set fun _ name hname => ?_
        exact List.mem_filter.mpr hname
      · cases hnext
  | list thread listed =>
      simp only [Directory.next] at hnext
      split at hnext
      · next present hhook =>
          split at hnext
          · next hlisted =>
              obtain rfl := Option.some.inj hnext
              simp only [Undisturbed, hhook, Hook.present] at hundisturbed
              refine hsettled.set fun hthread => ?_
              rw [hhook] at hthread
              exact settled_by_list h hthread hlisted.1 hundisturbed
          · cases hnext
      · cases hnext
  | remove thread removed =>
      simp only [Directory.next] at hnext
      split at hnext
      · next name stale hhook =>
          obtain rfl := Option.some.inj hnext
          obtain rfl : removed = true := hundisturbed
          rw [if_pos rfl]
          refine (hsettled.without name).set fun hthread other hother houtranked => ?_
          have hhook' : (directory.without name).hooks thread = .removing (name :: stale) := by
            simp [Directory.without, hhook]
          rw [hhook'] at hthread
          refine (List.mem_cons.mp (hthread other hother houtranked)).resolve_left ?_
          exact (mem_names_without.mp hother.1).2
      · cases hnext
  | finish thread =>
      simp only [Directory.next] at hnext
      split at hnext
      · next hhook =>
          obtain rfl := Option.some.inj hnext
          refine hsettled.set fun hthread name hname houtranked => ?_
          rw [hhook] at hthread
          exact absurd (hthread name hname houtranked) List.not_mem_nil
      · cases hnext
  | fail thread =>
      obtain rfl := Option.some.inj hnext
      refine hsettled.set fun hthread => ?_
      simp only [Undisturbed] at hundisturbed
      cases hhook : directory.hooks thread with
      | published => simp [hhook, Hook.clears] at hundisturbed
      | listing present => simp [hhook, Hook.clears] at hundisturbed
      | removing stale => simp [hhook, Hook.clears] at hundisturbed
      | _ =>
          rw [hhook] at hthread
          exact hthread

end Settling

/-! ## What a report holds -/

theorem truncate_size {characters cut : List Char} {length : Nat}
    (h : truncate characters length = some cut) :
    (osString (String.ofList cut)).length ≤ length := by
  induction characters generalizing length cut with
  | nil =>
      obtain rfl : [] = cut := by simpa [truncate] using h
      exact Nat.zero_le _
  | cons c characters ih =>
      rw [truncate] at h
      split at h
      · obtain rfl := Option.some.inj h
        exact Nat.zero_le _
      · split at h
        · next hfits =>
            obtain ⟨rest, hrest, rfl⟩ := Option.map_eq_some_iff.mp h
            have hbelow := ih hrest
            rw [os_string_of_list] at hbelow ⊢
            rw [List.flatMap_cons, List.length_append, String.length_utf8EncodeChar]
            omega
        · cases h

/-- A report is of bounded size, but for the place of the panic. -/
theorem crash_report_bounded {process : Process} {information : Information} {report : CrashReport}
    (h : crashReport process information = some report) :
    report.backtrace.utf8ByteSize ≤ maxBacktraceBytes ∧ report.thread.length ≤ 80 := by
  obtain ⟨backtrace, hbacktrace, rfl⟩ := Option.map_eq_some_iff.mp h
  refine ⟨?_, ?_⟩
  · show backtrace.utf8ByteSize ≤ maxBacktraceBytes
    unfold boundedBacktrace at hbacktrace
    split at hbacktrace
    · obtain ⟨cut, hcut, rfl⟩ := Option.map_eq_some_iff.mp hbacktrace
      exact truncate_size hcut
    · next hshort =>
        obtain rfl := Option.some.inj hbacktrace
        exact Nat.not_lt.mp hshort
  · show (String.ofList ((information.thread.getD "unnamed").toList.take 80)).length ≤ 80
    rw [String.length_ofList, List.length_take]
    exact Nat.min_le_left _ _

/-! ## Runs -/

section Runs

variable {processes : ι → Process} {files : List (OsString × Content)}
  {start final : Directory ι} {events : List (Event ι)}

theorem found_orderly (hfiles : (files.map Prod.fst).Nodup) :
    Orderly processes files (found (ι := ι) files) where
  names := hfiles
  known := by
    intro name hname hreport
    exact List.mem_toFinset.mpr (List.mem_filter.mpr ⟨hname, hreport⟩)
  reports := fun name hname => (List.mem_filter.mp (List.mem_toFinset.mp hname)).2
  leading := fun name hname _ => (List.mem_filter.mp (List.mem_toFinset.mp hname)).1
  whole := fun file hfile _ => .inl hfile
  placed := fun _ => trivial
  apart := by
    intro first second report report' hfirst
    cases hfirst

variable [DecidableEq ι]

theorem play_orderly (h : Orderly processes files start)
    (hplay : (system processes).play start events = some final) :
    Orderly processes files final := by
  induction events generalizing start with
  | nil =>
      obtain rfl : start = final := by simpa [System.play] using hplay
      exact h
  | cons event events ih =>
      obtain ⟨middle, hnext, hrest⟩ := Option.bind_eq_some_iff.mp hplay
      exact ih (next_orderly h hnext) hrest

/-- Once a report has been published an undisturbed run keeps the directory settled. -/
theorem play_settled (h : Orderly processes files start)
    (hpublish : start.Settled ∨ ∃ thread, .publish thread ∈ events)
    (hundisturbed : (system processes).Throughout Undisturbed start events)
    (hplay : (system processes).play start events = some final) : final.Settled := by
  induction events generalizing start with
  | nil =>
      obtain rfl : start = final := by simpa [System.play] using hplay
      obtain hsettled | ⟨thread, hthread⟩ := hpublish
      · exact hsettled
      · exact absurd hthread List.not_mem_nil
  | cons event events ih =>
      obtain ⟨middle, hnext, hrest⟩ := Option.bind_eq_some_iff.mp hplay
      refine ih (next_orderly h hnext) ?_ (hundisturbed.2 middle hnext) hrest
      obtain hsettled | ⟨thread, hthread⟩ := hpublish
      · exact .inl (next_settled h hsettled hundisturbed.1 hnext)
      · obtain rfl | hlater := List.mem_cons.mp hthread
        · refine .inl ?_
          simp only [system, Directory.next] at hnext
          split at hnext
          · split at hnext
            · obtain rfl := Option.some.inj hnext
              exact settled_publish start thread _ _ _
            · cases hnext
          · cases hnext
        · exact .inr ⟨thread, hlater⟩

end Runs

/-- However the hooks of the threads overlap, fail or are killed, a report is there that no eight
others that have been published are above, and each report is there whole. Once the threads are at
rest after an undisturbed run with a publication, the reports are exactly these, eight at most, and
no report is there that is older than one that is not. -/
theorem crash_reports_kept [DecidableEq ι] (processes : ι → Process)
    (files : List (OsString × Content)) (hfiles : (files.map Prod.fst).Nodup)
    (events : List (Event ι)) (final : Directory ι)
    (hplay : (system processes).play (found files) events = some final) :
    (∀ name ∈ final.published, ¬ Outranked maxReports nameKey final.published name →
      name ∈ final.names) ∧
    (∀ file ∈ final.files, isReport file.1 = true → file ∈ files ∨
      ∃ report, Genuine processes report ∧ file = (report.fileName, .whole report) ∧
        report.backtrace.utf8ByteSize ≤ maxBacktraceBytes ∧ report.thread.length ≤ 80) ∧
    ((∃ thread, .publish thread ∈ events) →
      (system processes).Throughout Undisturbed (found files) events →
      (∀ thread, final.hooks thread = .idle) →
      (∀ name, name ∈ final.names ∧ isReport name = true ↔
        name ∈ final.published ∧ ¬ Outranked maxReports nameKey final.published name) ∧
      (final.names.filter fun name => isReport name).length ≤ maxReports ∧
      ∀ report later : CrashReport,
        (Nat.toDigits 10 report.capturedAtUnixMs).length =
          (Nat.toDigits 10 later.capturedAtUnixMs).length →
        report.capturedAtUnixMs < later.capturedAtUnixMs →
        later.fileName ∈ final.published → report.fileName ∈ final.names →
        later.fileName ∈ final.names) := by
  have horderly : Orderly processes files final := play_orderly (found_orderly hfiles) hplay
  refine ⟨horderly.leading, fun file hfile hreport => ?_, fun hpublish hundisturbed hidle => ?_⟩
  · refine (horderly.whole file hfile hreport).imp_right fun ⟨report, hgenuine, heq⟩ => ?_
    obtain ⟨thread, information, hreport⟩ := hgenuine
    exact ⟨report, ⟨thread, information, hreport⟩, heq, crash_report_bounded hreport⟩
  · obtain ⟨settler, hsettler⟩ :=
      play_settled (found_orderly hfiles) (.inr hpublish) hundisturbed hplay
    rw [hidle] at hsettler
    have hkept : ∀ name, name ∈ final.names ∧ isReport name = true ↔
        name ∈ final.published ∧ ¬ Outranked maxReports nameKey final.published name :=
      fun name => ⟨fun hname => ⟨horderly.known name hname.1 hname.2, hsettler name hname⟩,
        fun hname => ⟨horderly.leading name hname.1 hname.2, horderly.reports name hname.1⟩⟩
    refine ⟨hkept, ?_, ?_⟩
    · have hnodup : (final.names.filter fun name => isReport name).Nodup :=
        horderly.names.sublist List.filter_sublist
      rw [← List.toFinset_card_of_nodup hnodup]
      refine Nat.le_trans (Finset.card_le_card fun name hname => ?_)
        (card_leading_le name_key_injective maxReports final.published)
      exact Finset.mem_filter.mpr
        ((hkept name).mp (List.mem_filter.mp (List.mem_toFinset.mp hname)))
    · intro report later hdigits htime hlater hreport
      refine horderly.leading _ hlater fun houtranked => ?_
      refine ((hkept _).mp ⟨hreport, is_report_file_name report⟩).2 ?_
      exact houtranked.of_le (name_key_lt hdigits htime).le

/-- A process that panics once. -/
def notesProcess (_ : Unit) : Process where
  applicationId := "com.example.notes"
  hostVersion := "0.9.0"
  processId := 7

def notesPanic : Information where
  unixMilliseconds := 1700000000000
  thread := none
  location := none
  backtrace := ""

def notesReport : CrashReport where
  applicationId := "com.example.notes"
  hostVersion := "0.9.0"
  processId := 7
  capturedAtUnixMs := 1700000000000
  thread := "unnamed"
  location := none
  backtrace := ""

def notesHook : List (Event Unit) :=
  [.panic () notesPanic, .create (), .write (), .publish (), .look (),
    .list () [notesReport.fileName], .finish ()]

theorem notes_hook_ends :
    ((system notesProcess).play (found []) notesHook).map (fun final => final.hooks ()) =
      some .idle := by
  decide +kernel

theorem notes_hook_undisturbed :
    (system notesProcess).Throughout Undisturbed (found []) notesHook := by
  decide +kernel

theorem notes_crash_report :
    ∃ final, (system notesProcess).play (found []) notesHook = some final ∧
      ∀ name, name ∈ final.names ∧ isReport name = true ↔
        name ∈ final.published ∧ ¬ Outranked maxReports nameKey final.published name := by
  obtain ⟨final, hplay, hidle⟩ := Option.map_eq_some_iff.mp notes_hook_ends
  refine ⟨final, hplay, ?_⟩
  exact ((crash_reports_kept notesProcess [] List.nodup_nil notesHook final hplay).2.2
    ⟨(), by simp [notesHook]⟩ notes_hook_undisturbed fun _ => hidle).1

end PamDesktop.Shell.CrashReports
