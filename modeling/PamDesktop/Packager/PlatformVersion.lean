import Mathlib.Data.List.TakeWhile
import PamDesktop.Updater.Precedence

/-!
# Versions of platform packages

`windows_version` and `apple_version` of the packager, beside the order in which the updater offers
versions. Both take the first numbers of the text, wherever they stand, and cut them off at 16 bits.
-/

namespace PamDesktop.Packager

open Foundations Protocol Updater Updater.Versions

/-! ## The numbers of a version -/

/-- The numbers in a text, as `split` on other characters and `filter` leave them. -/
def digitRuns (text : List Char) : List (List Char) :=
  (text.splitOnP fun c => !isAsciiDigit c).filter fun run => !run.isEmpty

/-- `parse::<u16>`. -/
def parseU16 (text : List Char) : Option Nat := (parseU64 text).filter fun value => value < 65536

/-- The numbers that `apple_version` and `windows_version` join, at most `count` of the text and
zeros for the others. -/
def platformNumbers (count : Nat) (version : String) : List Nat :=
  let numbers := ((digitRuns version.toList).take count).map fun value =>
    (parseU16 value).getD 65535
  numbers.rightpad count 0

/-- Numbers with dots between them. -/
def dotted (numbers : List Nat) : String :=
  String.ofList (['.'].intercalate (numbers.map decimal))

def appleVersion (version : String) : String := dotted (platformNumbers 3 version)

def windowsVersion (version : String) : String := dotted (platformNumbers 4 version)

/-! ## The order of the platforms -/

/-- The components of a platform version. -/
def components (version : String) : List Nat :=
  (version.toList.splitOn '.').map fun part => (parseU64 part).getD 0

/-- A platform takes the second version for lower than the first: component by component, the first
difference decides. -/
def Downgrade (installed offered : String) : Prop := components offered < components installed

instance (installed offered : String) : Decidable (Downgrade installed offered) :=
  inferInstanceAs (Decidable (_ < _))

/-- What stands behind the numbered parts: the pre-release and the build metadata. -/
def unnumbered (version : String) : List Char :=
  version.toList.dropWhile fun c => c ≠ '-' && c ≠ '+'

/-- The first parts of a version are numbers; all but the last one of these fit in 16 bits, and
where there are fewer parts no number stands behind them. -/
structure Numbered (count : Nat) (version : String) : Prop where
  number : ∀ index < count, ∃ value, parseU64 ((readVersion version).part index) = some value ∧
    (index + 1 < count → value ≤ 65535)
  silent : (readVersion version).parts.length < count →
    ∀ c ∈ unnumbered version, isAsciiDigit c = false

/-- The part at an index reads as a number that the platform can hold there. -/
def holdsPart (count : Nat) (version : String) (index : Nat) : Bool :=
  (parseU64 ((readVersion version).part index)).any fun value =>
    decide (index + 1 < count → value ≤ 65535)

/-- The check of `Numbered`. -/
def isNumbered (count : Nat) (version : String) : Bool :=
  (List.range count).all (holdsPart count version) &&
    (decide (count ≤ (readVersion version).parts.length) ||
      (unnumbered version).all fun c => !isAsciiDigit c)

theorem is_numbered {count : Nat} {version : String} (h : isNumbered count version = true) :
    Numbered count version := by
  unfold isNumbered at h
  obtain ⟨hparts, hbehind⟩ := Bool.and_eq_true_iff.mp h
  constructor
  · intro index hindex
    have hholds := List.all_eq_true.mp hparts index (List.mem_range.mpr hindex)
    obtain ⟨value, hvalue, hfits⟩ := (Option.any_eq_true _ _).mp hholds
    exact ⟨value, hvalue, of_decide_eq_true hfits⟩
  · intro hshort c hc
    rcases Bool.or_eq_true_iff.mp hbehind with hlong | hall
    · exact absurd (of_decide_eq_true hlong) (Nat.not_le.mpr hshort)
    · exact Bool.not_eq_true' _ |>.mp (List.all_eq_true.mp hall c hc)

/-- The components of numbers with dots between them are the numbers. -/
theorem components_dotted {numbers : List Nat} (hsome : numbers ≠ [])
    (hfits : ∀ value ∈ numbers, value ≤ 65535) : components (dotted numbers) = numbers := by
  have hsplit : (['.'].intercalate (numbers.map decimal)).splitOn '.' = numbers.map decimal := by
    refine List.splitOn_intercalate '.' ?_ (by simpa using hsome)
    intro piece hpiece hdot
    obtain ⟨value, -, rfl⟩ := List.mem_map.mp hpiece
    cases decimal_digit hdot
  unfold components dotted
  rw [String.toList_ofList, hsplit, List.map_map]
  refine (List.map_congr_left fun value hvalue => ?_).trans (List.map_id numbers)
  have hbound := hfits value hvalue
  show (parseU64 (decimal value)).getD 0 = value
  rw [parse_decimal (by omega)]
  rfl

/-- A number that does not fit in 16 bits becomes the largest one that does. -/
theorem parse_u16_number {run : List Char} {value : Nat} (h : parseU64 run = some value) :
    (parseU16 run).getD 65535 = min value 65535 := by
  rw [parseU16, h, Option.filter_some]
  split
  · rename_i hsmall
    have hsmall' : value < 65536 := of_decide_eq_true hsmall
    show value = _
    omega
  · rename_i hlarge
    have hlarge' : ¬value < 65536 := fun hsmall => hlarge (decide_eq_true hsmall)
    show 65535 = _
    omega

theorem parse_u16_le (run : List Char) : (parseU16 run).getD 65535 ≤ 65535 := by
  cases h : parseU64 run with
  | none =>
      rw [parseU16, h]
      exact Nat.le_refl 65535
  | some value =>
      rw [parse_u16_number h]
      exact Nat.min_le_right ..

theorem platform_numbers_length (count : Nat) (version : String) :
    (platformNumbers count version).length = count := by
  simp only [platformNumbers, List.rightpad, List.length_append, List.length_map,
    List.length_replicate, List.length_take]
  omega

theorem platform_numbers_le {count : Nat} {version : String} {value : Nat}
    (h : value ∈ platformNumbers count version) : value ≤ 65535 := by
  rw [platformNumbers, List.rightpad, List.mem_append] at h
  rcases h with h | h
  · obtain ⟨run, -, rfl⟩ := List.mem_map.mp h
    exact parse_u16_le run
  · rw [(List.mem_replicate.mp h).2]
    exact Nat.zero_le _

theorem components_platform {count : Nat} (hsome : count ≠ 0) (version : String) :
    components (dotted (platformNumbers count version)) = platformNumbers count version := by
  refine components_dotted (fun hnil => hsome ?_) fun value hvalue => platform_numbers_le hvalue
  rw [← platform_numbers_length count version, hnil]
  rfl

/-! ## Numbers and parts -/

theorem digit_runs_append {number rest : List Char} {mark : Char} (hsome : number ≠ [])
    (hdigits : ∀ c ∈ number, isAsciiDigit c = true) (hmark : isAsciiDigit mark = false) :
    digitRuns (number ++ mark :: rest) = number :: digitRuns rest := by
  unfold digitRuns
  rw [List.splitOnP_append_cons_of_forall_mem (fun c hc => by rw [hdigits c hc]; rfl) mark
    (by rw [hmark]; rfl), List.filter_cons_of_pos]
  cases number with
  | nil => exact absurd rfl hsome
  | cons => rfl

theorem digit_runs_number {number : List Char} (hsome : number ≠ [])
    (hdigits : ∀ c ∈ number, isAsciiDigit c = true) : digitRuns number = [number] := by
  unfold digitRuns
  rw [List.splitOnP_eq_singleton fun c hc => by rw [hdigits c hc]; rfl, List.filter_cons_of_pos]
  · rfl
  · cases number with
    | nil => exact absurd rfl hsome
    | cons => rfl

/-- A text without digits has no numbers. -/
theorem digit_runs_silent {text : List Char} (h : ∀ c ∈ text, isAsciiDigit c = false) :
    digitRuns text = [] := by
  unfold digitRuns
  rw [List.filter_eq_nil_iff]
  intro run hrun
  induction text generalizing run with
  | nil =>
      rw [List.splitOnP_nil, List.mem_singleton] at hrun
      simp [hrun]
  | cons c rest ih =>
      rw [List.splitOnP_cons_eq_if_modifyHead, h c List.mem_cons_self, Bool.not_false,
        if_pos rfl, List.mem_cons] at hrun
      rcases hrun with rfl | hrun
      · simp
      · exact ih (fun other hother => h other (List.mem_cons_of_mem _ hother)) run hrun

/-- The first numbers of a text are its first parts, if these are numbers and no number stands
behind them that would be taken for a part. -/
theorem take_digit_runs {parts : List (List Char)} {behind : List Char} {count : Nat}
    (hparts : parts ≠ [])
    (hnumbers : ∀ number ∈ parts.take count, number ≠ [] ∧ ∀ c ∈ number, isAsciiDigit c = true)
    (hbehind : ∀ mark rest, behind = mark :: rest → isAsciiDigit mark = false)
    (hsilent : parts.length < count → ∀ c ∈ behind, isAsciiDigit c = false) :
    (digitRuns (['.'].intercalate parts ++ behind)).take count = parts.take count := by
  induction parts generalizing count with
  | nil => exact absurd rfl hparts
  | cons number rest ih =>
      cases count with
      | zero => rw [List.take_zero, List.take_zero]
      | succ count =>
          obtain ⟨hsome, hdigits⟩ := hnumbers number List.mem_cons_self
          cases rest with
          | nil =>
              rw [List.intercalate_singleton]
              cases behind with
              | nil => rw [List.append_nil, digit_runs_number hsome hdigits]
              | cons mark behind =>
                  rw [digit_runs_append hsome hdigits (hbehind mark behind rfl),
                    List.take_succ_cons, List.take_succ_cons, List.take_nil]
                  cases count with
                  | zero => rw [List.take_zero]
                  | succ count =>
                      rw [digit_runs_silent fun c hc => hsilent (by simp) c
                        (List.mem_cons_of_mem _ hc), List.take_nil]
          | cons next rest =>
              rw [List.intercalate_cons_cons, List.append_assoc, List.append_assoc,
                List.singleton_append, digit_runs_append hsome hdigits rfl, List.take_succ_cons,
                List.take_succ_cons]
              congr 1
              refine ih (List.cons_ne_nil _ _) (fun other hother => hnumbers other ?_)
                fun hshort => hsilent ?_
              · rw [List.take_succ_cons]
                exact List.mem_cons_of_mem _ hother
              · rw [List.length_cons]
                omega

/-- A part that reads as a number is written in digits. -/
theorem parse_digits {text : List Char} {value : Nat} (hplus : '+' ∉ text)
    (h : parseU64 text = some value) : text ≠ [] ∧ ∀ c ∈ text, isAsciiDigit c = true := by
  rw [parse_unsigned hplus] at h
  split at h
  · cases h
  · rename_i hgood
    simp only [Bool.or_eq_true, not_or, Bool.not_eq_true] at hgood
    obtain ⟨⟨hempty, hdigits⟩, -⟩ := hgood
    constructor
    · intro hnil
      rw [hnil] at hempty
      cases hempty
    · intro c hc
      rw [Bool.not_eq_false'] at hdigits
      exact List.all_eq_true.mp hdigits c hc

theorem split_once_fst (separator : Char) (text : List Char) :
    (splitOnce separator text).1 = text.takeWhile (· ≠ separator) := by
  unfold splitOnce
  split
  · rename_i hnone
    exact (List.takeWhile_eq_self_iff.mpr (List.dropWhile_eq_nil_iff.mp hnone)).symm
  · rfl

/-- The numbered parts are read from what stands before the first `-` or `+`. -/
theorem read_parts (version : String) :
    (readVersion version).parts =
      (version.toList.takeWhile fun c => c ≠ '-' && c ≠ '+').splitOn '.' := by
  show (splitOnce '-' (splitOnce '+' version.toList).1).1.splitOn '.' = _
  rw [split_once_fst, split_once_fst, List.takeWhile_takeWhile]
  congr 2
  funext c
  simp

/-- The text of a version is its parts and what stands behind them. -/
theorem version_text (version : String) :
    version.toList = ['.'].intercalate (readVersion version).parts ++ unnumbered version := by
  rw [read_parts, List.intercalate_splitOn, unnumbered, List.takeWhile_append_dropWhile]

theorem unnumbered_head (version : String) (mark : Char) (rest : List Char)
    (h : unnumbered version = mark :: rest) : isAsciiDigit mark = false := by
  have hmark := List.head?_dropWhile_not (fun c => c ≠ '-' && c ≠ '+') version.toList
  rw [unnumbered] at h
  rw [h] at hmark
  by_cases hdash : mark = '-'
  · rw [hdash]
    rfl
  · by_cases hplus : mark = '+'
    · rw [hplus]
      rfl
    · simp [hdash, hplus] at hmark

/-- What is between two separators stands in the text. -/
theorem mem_intercalate_of_mem {pieces : List (List Char)} {piece : List Char} {separator c : Char}
    (h : piece ∈ pieces) (hc : c ∈ piece) : c ∈ [separator].intercalate pieces := by
  induction pieces with
  | nil => cases h
  | cons first rest ih =>
      cases rest with
      | nil =>
          rw [List.intercalate_singleton, ← List.mem_singleton.mp h]
          exact hc
      | cons second rest =>
          rw [List.intercalate_cons_cons, List.append_assoc, List.mem_append, List.mem_append]
          rcases List.mem_cons.mp h with rfl | h
          · exact .inl hc
          · exact .inr (.inr (ih h))

theorem part_no_plus {version : String} {part : List Char}
    (h : part ∈ (readVersion version).parts) : '+' ∉ part := by
  intro hplus
  have hread : '+' ∈ ['.'].intercalate (readVersion version).parts :=
    mem_intercalate_of_mem h hplus
  rw [read_parts, List.intercalate_splitOn] at hread
  cases List.mem_takeWhile_imp hread

/-- The component of a version at an index is the number of the part there, cut off at 16 bits. -/
theorem platform_number {count index value : Nat} {version : String} (h : Numbered count version)
    (hindex : index < count)
    (hvalue : parseU64 ((readVersion version).part index) = some value) :
    (platformNumbers count version)[index]? = some (min value 65535) := by
  have hparts : (readVersion version).parts ≠ [] := by
    rw [read_parts]
    exact List.splitOn_ne_nil _ _
  have hnumbers : ∀ number ∈ (readVersion version).parts.take count,
      number ≠ [] ∧ ∀ c ∈ number, isAsciiDigit c = true := by
    intro number hnumber
    obtain ⟨other, hother, rfl⟩ := List.mem_iff_getElem.mp hnumber
    rw [List.length_take] at hother
    obtain ⟨found, hfound, -⟩ := h.number other (by omega)
    rw [Version.part, List.getD_eq_getElem _ _ (by omega)] at hfound
    rw [List.getElem_take]
    exact parse_digits (part_no_plus (List.getElem_mem _)) hfound
  have hruns : (digitRuns version.toList).take count = (readVersion version).parts.take count := by
    rw [version_text]
    exact take_digit_runs hparts hnumbers (unnumbered_head version) h.silent
  have hlength : ((readVersion version).parts.take count).length =
      min count (readVersion version).parts.length := List.length_take
  rw [platformNumbers, hruns, List.rightpad]
  rcases Nat.lt_or_ge index (readVersion version).parts.length with hinside | hbeyond
  · rw [Version.part, List.getD_eq_getElem _ _ hinside] at hvalue
    rw [List.getElem?_append_left (by rw [List.length_map]; omega), List.getElem?_map,
      List.getElem?_take_of_lt hindex, List.getElem?_eq_getElem hinside, Option.map_some,
      parse_u16_number hvalue]
  · rw [Version.part, List.getD_eq_default _ _ hbeyond] at hvalue
    cases hvalue
    rw [List.getElem?_append_right (by rw [List.length_map]; omega), List.getElem?_replicate,
      if_pos (by rw [List.length_map]; omega)]
    rfl

/-- Where the first differing components stand, there the versions are told apart. -/
theorem numbered_not_newer {count : Nat} {installed offered : String}
    (hinstalled : Numbered count installed) (hoffered : Numbered count offered)
    (h : platformNumbers count offered < platformNumbers count installed) :
    versionIsNewer offered installed = false := by
  rw [List.lt_iff_exists] at h
  rcases h with ⟨-, hshort⟩ | ⟨index, hindex, hindex', hsame, hlower⟩
  · rw [platform_numbers_length, platform_numbers_length] at hshort
    omega
  · rw [platform_numbers_length] at hindex
    -- a component below the largest one is the number of its part
    have hnumber : ∀ {version} (hversion : Numbered count version) {other : Nat},
        other < count → ∃ value, parseU64 ((readVersion version).part other) = some value ∧
          (platformNumbers count version)[other]? = some (min value 65535) ∧
          (other + 1 < count → value ≤ 65535) := by
      intro version hversion other hother
      obtain ⟨value, hvalue, hfits⟩ := hversion.number other hother
      exact ⟨value, hvalue, platform_number hversion hother hvalue, hfits⟩
    have halike : Alike (readVersion offered) (readVersion installed) index := by
      intro earlier hearlier
      obtain ⟨m, hm, hmthere, hmfits⟩ := hnumber hoffered (Nat.lt_trans hearlier hindex)
      obtain ⟨n, hn, hnthere, hnfits⟩ := hnumber hinstalled (Nat.lt_trans hearlier hindex)
      have hequal := hsame earlier hearlier
      rw [List.getElem?_eq_some_iff] at hmthere hnthere
      obtain ⟨_, hmthere⟩ := hmthere
      obtain ⟨_, hnthere⟩ := hnthere
      have hmsmall := hmfits (by omega)
      have hnsmall := hnfits (by omega)
      have hmn : m = n := by omega
      rw [compare_part_numbers hm hn, hmn]
      exact Std.compare_self
    obtain ⟨m, hm, hmthere, -⟩ := hnumber hoffered hindex
    obtain ⟨n, hn, hnthere, -⟩ := hnumber hinstalled hindex
    rw [List.getElem?_eq_some_iff] at hmthere hnthere
    obtain ⟨_, hmthere⟩ := hmthere
    obtain ⟨_, hnthere⟩ := hnthere
    have hmn : m < n := by omega
    unfold versionIsNewer
    rw [compare_versions_alike halike, compare_part_numbers hm hn, Nat.compare_eq_lt.mpr hmn]
    rfl

/-- Where the first parts of two versions are numbers that the platform can hold, a version that is
newer is no downgrade for the platform. -/
theorem platform_versions_follow (installed offered : String)
    (hnewer : versionIsNewer offered installed = true) :
    (Numbered 3 installed → Numbered 3 offered →
      ¬Downgrade (appleVersion installed) (appleVersion offered)) ∧
    (Numbered 4 installed → Numbered 4 offered →
      ¬Downgrade (windowsVersion installed) (windowsVersion offered)) := by
  have hfollow : ∀ count, count ≠ 0 → Numbered count installed → Numbered count offered →
      ¬Downgrade (dotted (platformNumbers count installed))
        (dotted (platformNumbers count offered)) := by
    intro count hcount hinstalled hoffered hdowngrade
    rw [Downgrade, components_platform hcount, components_platform hcount] at hdowngrade
    rw [numbered_not_newer hinstalled hoffered hdowngrade] at hnewer
    cases hnewer
  exact ⟨hfollow 3 (by decide), hfollow 4 (by decide)⟩

/-- A pre-release without numbers follows an earlier release on both platforms. -/
theorem beta_follows_release :
    ¬Downgrade (appleVersion "1.2.3") (appleVersion "1.10.0-beta") ∧
      ¬Downgrade (windowsVersion "1.2.3") (windowsVersion "1.10.0-beta") := by
  have hfollow := platform_versions_follow "1.2.3" "1.10.0-beta" (by decide +kernel)
  exact ⟨hfollow.1 (is_numbered (by decide +kernel)) (is_numbered (by decide +kernel)),
    hfollow.2 (is_numbered (by decide +kernel)) (is_numbered (by decide +kernel))⟩

/-- Numbers that are cut off leave the decision to what follows them, and the number of a
pre-release counts as a further component of the release. -/
theorem platform_versions_disagree :
    (∀ version ∈ ["70000.1", "80000.0", "1.0.0-rc.2", "1.0.0", "1.0-rc.2", "1.0"],
      validateVersion version = .ok ()) ∧
    (versionIsNewer "80000.0" "70000.1" = true ∧
      Downgrade (appleVersion "70000.1") (appleVersion "80000.0") ∧
      Downgrade (windowsVersion "70000.1") (windowsVersion "80000.0")) ∧
    (versionIsNewer "1.0.0" "1.0.0-rc.2" = true ∧
      Downgrade (windowsVersion "1.0.0-rc.2") (windowsVersion "1.0.0")) ∧
    versionIsNewer "1.0" "1.0-rc.2" = true ∧
      Downgrade (appleVersion "1.0-rc.2") (appleVersion "1.0") := by
  decide +kernel

end PamDesktop.Packager
