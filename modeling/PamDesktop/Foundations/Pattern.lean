import Mathlib.Data.List.Infix
import Mathlib.Logic.Relation

/-!
# Patterns

Regular expressions over bytes with the anchors of PCRE. `rests` follows a pattern from one
position and gives what is left of the subject after each match, in the order in which they are
tried; a position is what is left of the subject there. `mem_upTo`, `many_rounds` and `mem_finish`
say what the constructions mean that a recogniser written by hand has to reproduce.
-/

namespace Foundations

inductive Pattern where
  /-- Matches nothing, anywhere. -/
  | empty
  /-- `^` without the modifier `m`. -/
  | start
  /-- `$` without the modifiers `m` and `D`: the end, or before a line feed that is the end. -/
  | finish
  /-- `\z`, and `$` with the modifier `D`: the end. -/
  | ending
  | byte (accepts : UInt8 → Bool)
  | seq (first second : Pattern)
  | alt (first second : Pattern)
  /-- `*`, greedy. -/
  | many (pattern : Pattern)

namespace Pattern

/-- A letter in the other case. -/
def otherCase (byte : UInt8) : UInt8 :=
  if 65 ≤ byte.toNat ∧ byte.toNat ≤ 90 then byte + 32
  else if 97 ≤ byte.toNat ∧ byte.toNat ≤ 122 then byte - 32
  else byte

/-- The modifier `i`. -/
def caseless : Pattern → Pattern
  | empty => empty
  | start => start
  | finish => finish
  | ending => ending
  | byte accepts => byte fun b => accepts b || accepts (otherCase b)
  | seq first second => seq first.caseless second.caseless
  | alt first second => alt first.caseless second.caseless
  | many pattern => many pattern.caseless

/-- `{0,n}`, greedy. -/
def upTo : Nat → Pattern → Pattern
  | 0, _ => empty
  | n + 1, pattern => alt (seq pattern (upTo n pattern)) empty

/-- `{m,m+n}`, greedy. -/
def between : Nat → Nat → Pattern → Pattern
  | 0, extra, pattern => upTo extra pattern
  | least + 1, extra, pattern => seq pattern (between least extra pattern)

/-- What is left after some rounds, of which each takes something. -/
def rounds (round : List UInt8 → List (List UInt8)) : Nat → List UInt8 → List (List UInt8)
  | 0, rest => [rest]
  | fuel + 1, rest =>
      (round rest).flatMap (fun left =>
        if left.length < rest.length then rounds round fuel left else []) ++ [rest]

/-- What is left after each match from a position. -/
def rests (subject : List UInt8) : Pattern → List UInt8 → List (List UInt8)
  | empty, rest => [rest]
  | start, rest => if rest.length = subject.length then [rest] else []
  | finish, rest => if rest = [] ∨ rest = [10] then [rest] else []
  | ending, rest => if rest = [] then [rest] else []
  | byte _, [] => []
  | byte accepts, b :: rest => if accepts b then [rest] else []
  | seq first second, rest => (first.rests subject rest).flatMap (second.rests subject)
  | alt first second, rest => first.rests subject rest ++ second.rests subject rest
  | many pattern, rest => rounds (fun rest => pattern.rests subject rest) rest.length rest

/-- `preg_match`: whether the pattern matches from some position. -/
def pregMatch (pattern : Pattern) (subject : List UInt8) : Bool :=
  subject.tails.any fun rest => !(pattern.rests subject rest).isEmpty

theorem other_case_upper {byte : UInt8} (h : 65 ≤ byte.toNat ∧ byte.toNat ≤ 90) :
    (otherCase byte).toNat = byte.toNat + 32 := by
  rw [otherCase, if_pos h, UInt8.toNat_add]
  show (byte.toNat + 32) % 256 = _
  omega

theorem other_case_lower {byte : UInt8} (h : 97 ≤ byte.toNat ∧ byte.toNat ≤ 122) :
    (otherCase byte).toNat = byte.toNat - 32 := by
  rw [otherCase, if_neg (by omega), if_pos h, UInt8.toNat_sub]
  show (256 - 32 + byte.toNat) % 256 = _
  omega

theorem other_case_same {byte : UInt8} (hupper : ¬ (65 ≤ byte.toNat ∧ byte.toNat ≤ 90))
    (hlower : ¬ (97 ≤ byte.toNat ∧ byte.toNat ≤ 122)) : otherCase byte = byte := by
  rw [otherCase, if_neg hupper, if_neg hlower]

theorem caseless_upTo (n : Nat) (pattern : Pattern) :
    (upTo n pattern).caseless = upTo n pattern.caseless := by
  induction n with
  | zero => rfl
  | succ n ih =>
      rw [upTo, upTo, caseless, caseless, caseless, ih]

variable {subject rest left : List UInt8}

/-- An anchor leaves the position where it is. -/
theorem mem_anchor {p : Prop} [Decidable p] :
    left ∈ (if p then [rest] else []) ↔ left = rest ∧ p := by
  by_cases h : p
  · rw [if_pos h, List.mem_singleton]
    exact ⟨fun heq => ⟨heq, h⟩, And.left⟩
  · rw [if_neg h]
    exact iff_of_false List.not_mem_nil fun hmem => h hmem.2

theorem mem_empty : left ∈ empty.rests subject rest ↔ left = rest := List.mem_singleton

theorem mem_start : left ∈ start.rests subject rest ↔
    left = rest ∧ rest.length = subject.length := mem_anchor

theorem mem_finish : left ∈ finish.rests subject rest ↔
    left = rest ∧ (rest = [] ∨ rest = [10]) := mem_anchor

theorem mem_ending : left ∈ ending.rests subject rest ↔ left = rest ∧ rest = [] := mem_anchor

theorem mem_byte {accepts : UInt8 → Bool} : left ∈ (byte accepts).rests subject rest ↔
    ∃ b, accepts b = true ∧ rest = b :: left := by
  cases rest with
  | nil =>
      refine iff_of_false List.not_mem_nil fun hmem => ?_
      obtain ⟨b, _, heq⟩ := hmem
      cases heq
  | cons b rest =>
      show left ∈ (if accepts b = true then [rest] else []) ↔ _
      rw [mem_anchor]
      constructor
      · intro hmem
        exact ⟨b, hmem.2, by rw [hmem.1]⟩
      · intro hmem
        obtain ⟨other, hother, heq⟩ := hmem
        obtain ⟨hsame, hrest⟩ := List.cons.inj heq
        exact ⟨hrest.symm, hsame ▸ hother⟩

theorem mem_seq {first second : Pattern} : left ∈ (seq first second).rests subject rest ↔
    ∃ middle ∈ first.rests subject rest, left ∈ second.rests subject middle := List.mem_flatMap

theorem mem_alt {first second : Pattern} : left ∈ (alt first second).rests subject rest ↔
    left ∈ first.rests subject rest ∨ left ∈ second.rests subject rest := List.mem_append

/-- What is left after some rounds is reached round by round. -/
theorem many_rounds {pattern : Pattern} (h : left ∈ (many pattern).rests subject rest) :
    Relation.ReflTransGen (fun rest left => left ∈ pattern.rests subject rest) rest left := by
  have hrounds : ∀ fuel rest,
      left ∈ rounds (fun rest => pattern.rests subject rest) fuel rest →
      Relation.ReflTransGen (fun rest left => left ∈ pattern.rests subject rest) rest left := by
    intro fuel
    induction fuel with
    | zero =>
        intro rest hleft
        rw [rounds, List.mem_singleton] at hleft
        rw [hleft]
    | succ fuel ih =>
        intro rest hleft
        rw [rounds, List.mem_append, List.mem_singleton, List.mem_flatMap] at hleft
        obtain ⟨middle, hmiddle, hleft⟩ | heq := hleft
        · split at hleft
          · exact .head hmiddle (ih middle hleft)
          · cases hleft
        · rw [heq]
  exact hrounds _ _ h

/-- Rounds of a byte take bytes of its class. -/
theorem many_bytes {accepts : UInt8 → Bool} (h : left ∈ (many (byte accepts)).rests subject rest) :
    ∃ taken, rest = taken ++ left ∧ ∀ b ∈ taken, accepts b = true := by
  have hrounds := many_rounds h
  clear h
  induction hrounds using Relation.ReflTransGen.head_induction_on with
  | refl => exact ⟨[], rfl, fun b hb => absurd hb List.not_mem_nil⟩
  | head hround _ ih =>
      obtain ⟨b, hb, hrest⟩ := mem_byte.mp hround
      obtain ⟨taken, hmiddle, hall⟩ := ih
      exact ⟨b :: taken, by rw [hrest, hmiddle, List.cons_append],
        List.forall_mem_cons.mpr ⟨hb, hall⟩⟩

/-- At most so many bytes of a class are matched. -/
theorem mem_upTo {accepts : UInt8 → Bool} {n : Nat} :
    left ∈ (upTo n (byte accepts)).rests subject rest ↔
      ∃ taken, rest = taken ++ left ∧ taken.length ≤ n ∧ ∀ b ∈ taken, accepts b = true := by
  induction n generalizing rest with
  | zero =>
      rw [upTo, mem_empty]
      constructor
      · intro heq
        exact ⟨[], heq.symm, Nat.le_refl 0, fun b hb => absurd hb List.not_mem_nil⟩
      · intro h
        obtain ⟨taken, heq, hlength, _⟩ := h
        rw [List.length_eq_zero_iff.mp (Nat.le_zero.mp hlength)] at heq
        exact heq.symm
  | succ n ih =>
      rw [upTo, mem_alt, mem_seq, mem_empty]
      constructor
      · intro h
        obtain ⟨middle, hmiddle, hleft⟩ | heq := h
        · obtain ⟨b, hb, hrest⟩ := mem_byte.mp hmiddle
          obtain ⟨taken, htaken, hlength, hall⟩ := ih.mp hleft
          refine ⟨b :: taken, by rw [hrest, htaken, List.cons_append], ?_, ?_⟩
          · rw [List.length_cons]
            omega
          · intro other hother
            obtain heq | hother := List.mem_cons.mp hother
            · rw [heq]
              exact hb
            · exact hall other hother
        · exact ⟨[], heq.symm, Nat.zero_le _, fun b hb => absurd hb List.not_mem_nil⟩
      · intro h
        obtain ⟨taken, hrest, hlength, hall⟩ := h
        cases taken with
        | nil => exact .inr hrest.symm
        | cons b taken =>
            refine .inl ⟨taken ++ left, mem_byte.mpr ⟨b, hall b List.mem_cons_self, hrest⟩, ?_⟩
            rw [List.length_cons] at hlength
            refine ih.mpr ⟨taken, rfl, by omega, ?_⟩
            intro other hother
            exact hall other (List.mem_cons_of_mem b hother)

/-- So many bytes of a class are matched. -/
theorem mem_between {accepts : UInt8 → Bool} {least extra : Nat} :
    left ∈ (between least extra (byte accepts)).rests subject rest ↔
      ∃ taken, rest = taken ++ left ∧ least ≤ taken.length ∧ taken.length ≤ least + extra ∧
        ∀ b ∈ taken, accepts b = true := by
  induction least generalizing rest with
  | zero =>
      rw [between, mem_upTo, Nat.zero_add]
      simp only [Nat.zero_le, true_and]
  | succ least ih =>
      rw [between, mem_seq]
      constructor
      · intro h
        obtain ⟨middle, hmiddle, hleft⟩ := h
        obtain ⟨b, hb, hrest⟩ := mem_byte.mp hmiddle
        obtain ⟨taken, htaken, hleast, hmost, hall⟩ := ih.mp hleft
        refine ⟨b :: taken, by rw [hrest, htaken, List.cons_append], ?_, ?_,
          List.forall_mem_cons.mpr ⟨hb, hall⟩⟩
        · rw [List.length_cons]
          omega
        · rw [List.length_cons]
          omega
      · intro h
        obtain ⟨taken, hrest, hleast, hmost, hall⟩ := h
        cases taken with
        | nil => cases hleast
        | cons b taken =>
            obtain ⟨hb, hall⟩ := List.forall_mem_cons.mp hall
            rw [List.length_cons] at hleast hmost
            exact ⟨taken ++ left, mem_byte.mpr ⟨b, hb, hrest⟩,
              ih.mpr ⟨taken, rfl, by omega, by omega, hall⟩⟩

theorem preg_match_iff {pattern : Pattern} : pattern.pregMatch subject = true ↔
    ∃ rest left, rest <:+ subject ∧ left ∈ pattern.rests subject rest := by
  rw [pregMatch, List.any_eq_true]
  constructor
  · intro h
    obtain ⟨rest, hrest, hmatch⟩ := h
    rw [Bool.not_eq_true', List.isEmpty_eq_false_iff_exists_mem] at hmatch
    obtain ⟨left, hleft⟩ := hmatch
    exact ⟨rest, left, (List.mem_tails _ _).mp hrest, hleft⟩
  · intro h
    obtain ⟨rest, left, hrest, hleft⟩ := h
    refine ⟨rest, (List.mem_tails _ _).mpr hrest, ?_⟩
    rw [Bool.not_eq_true', List.isEmpty_eq_false_iff_exists_mem]
    exact ⟨left, hleft⟩

/-- A pattern that starts with `^` matches only from the beginning. -/
theorem preg_match_start {pattern : Pattern} :
    (seq start pattern).pregMatch subject = true ↔
      ∃ left, left ∈ pattern.rests subject subject := by
  rw [preg_match_iff]
  constructor
  · intro h
    obtain ⟨rest, left, hrest, hleft⟩ := h
    obtain ⟨middle, hmiddle, hleft⟩ := mem_seq.mp hleft
    obtain ⟨heq, hlength⟩ := mem_start.mp hmiddle
    rw [heq, hrest.eq_of_length hlength] at hleft
    exact ⟨left, hleft⟩
  · intro h
    obtain ⟨left, hleft⟩ := h
    exact ⟨subject, left, List.suffix_refl subject,
      mem_seq.mpr ⟨subject, mem_start.mpr ⟨rfl, rfl⟩, hleft⟩⟩

/-- A class of first bytes, so many of another one, and the end. -/
theorem preg_match_word {first rest : UInt8 → Bool} {least extra : Nat} {subject : List UInt8}
    (h : (seq start (seq (byte first)
      (seq (between least extra (byte rest)) ending))).pregMatch subject = true) :
    ∃ byte more, subject = byte :: more ∧ first byte = true ∧ least ≤ more.length ∧
      more.length ≤ least + extra ∧ ∀ b ∈ more, rest b = true := by
  obtain ⟨left, hleft⟩ := preg_match_start.mp h
  obtain ⟨middle, hmiddle, hleft⟩ := mem_seq.mp hleft
  obtain ⟨byte, hbyte, rfl⟩ := mem_byte.mp hmiddle
  obtain ⟨last, hlast, hleft⟩ := mem_seq.mp hleft
  obtain ⟨taken, rfl, hleast, hmost, hall⟩ := mem_between.mp hlast
  obtain ⟨-, rfl⟩ := mem_ending.mp hleft
  rw [List.append_nil]
  exact ⟨byte, taken, rfl, hbyte, hleast, hmost, hall⟩

end Pattern

end Foundations
