import Mathlib.Data.List.Basic

/-!
# Streams cut into lines

A reader takes from a stream up to and including the next separator, and never more than a limit.
`readUntil_line` is the round trip for a line that fits, `readUntil_long` what is seen of one that
does not, and `split_join_lines` what becomes of a whole stream of lines.
-/

namespace Foundations

variable {α : Type} [DecidableEq α]

/-- Take elements up to and including a separator, at most `limit` of them, and return the rest. -/
def readUntil (separator : α) : Nat → List α → List α × List α
  | 0, stream => ([], stream)
  | _, [] => ([], [])
  | limit + 1, head :: stream =>
      if head = separator then ([head], stream)
      else (head :: (readUntil separator limit stream).1, (readUntil separator limit stream).2)

/-- A line with its separator is read whole when the limit has room for both. -/
theorem readUntil_line {separator : α} {line : List α} (hline : separator ∉ line) (limit : Nat)
    (hlimit : line.length < limit) (rest : List α) :
    readUntil separator limit (line ++ separator :: rest) = (line ++ [separator], rest) := by
  induction line generalizing limit with
  | nil =>
      obtain ⟨limit, rfl⟩ : ∃ n, limit = n + 1 := ⟨limit - 1, by simp at hlimit; omega⟩
      show readUntil separator (limit + 1) (separator :: rest) = _
      rw [readUntil, if_pos rfl]
      rfl
  | cons head line ih =>
      rw [List.mem_cons, not_or] at hline
      rw [List.length_cons] at hlimit
      obtain ⟨limit, rfl⟩ : ∃ n, limit = n + 1 := ⟨limit - 1, by omega⟩
      rw [List.cons_append, readUntil, if_neg (Ne.symm hline.1), ih hline.2 limit (by omega)]
      rfl

/-- Of a line without room for its separator only the first part is read. -/
theorem readUntil_long {separator : α} {line : List α} (hline : separator ∉ line) {limit : Nat}
    (hlimit : limit ≤ line.length) (rest : List α) :
    readUntil separator limit (line ++ rest) = (line.take limit, line.drop limit ++ rest) := by
  induction line generalizing limit with
  | nil =>
      obtain rfl : limit = 0 := by simpa using hlimit
      cases rest <;> rfl
  | cons head line ih =>
      rw [List.mem_cons, not_or] at hline
      cases limit with
      | zero => rfl
      | succ limit =>
          rw [List.length_cons] at hlimit
          rw [List.cons_append, readUntil, if_neg (Ne.symm hline.1), ih hline.2 (by omega)]
          rfl

/-- Lines with their separators. -/
def joinLines (separator : α) (lines : List (List α)) : List α :=
  lines.flatMap (· ++ [separator])

theorem join_lines_cons {β : Type} (separator : β) (line : List β) (lines : List (List β)) :
    joinLines separator (line :: lines) = line ++ separator :: joinLines separator lines := by
  rw [joinLines, List.flatMap_cons, List.append_assoc]
  rfl

/-- Lines are cut again where they contain the separator. -/
theorem split_join_lines (separator : α) (lines : List (List α)) :
    (joinLines separator lines).splitOn separator =
      lines.flatMap (·.splitOn separator) ++ [[]] := by
  induction lines with
  | nil => rfl
  | cons line lines ih =>
      rw [join_lines_cons, List.splitOn_append_cons_self, ih, List.flatMap_cons, List.append_assoc]

/-- Lines without separators come back. -/
theorem split_join_whole {separator : α} {lines : List (List α)}
    (h : ∀ line ∈ lines, separator ∉ line) :
    (joinLines separator lines).splitOn separator = lines ++ [[]] := by
  rw [split_join_lines]
  congr 1
  induction lines with
  | nil => rfl
  | cons line lines ih =>
      rw [List.flatMap_cons, List.splitOn_eq_singleton (h line List.mem_cons_self),
        ih fun other hother => h other (List.mem_cons_of_mem _ hother)]
      rfl

/-- The first line of a stream. -/
theorem split_head (separator : α) (stream : List α) :
    ∃ rest, stream.splitOn separator = stream.takeWhile (· ≠ separator) :: rest := by
  induction stream with
  | nil => exact ⟨[], rfl⟩
  | cons head stream ih =>
      obtain ⟨rest, hrest⟩ := ih
      rw [List.splitOn_cons_eq_if_modifyHead, hrest]
      by_cases hhead : head = separator
      · exact ⟨stream.takeWhile (· ≠ separator) :: rest, by simp [hhead]⟩
      · exact ⟨rest, by simp [hhead]⟩

/-- A line has nothing that the stream does not have. -/
theorem mem_of_mem_split {separator : α} {stream : List α} :
    ∀ line ∈ stream.splitOn separator, ∀ c ∈ line, c ∈ stream := by
  induction stream with
  | nil =>
      intro line hline
      rw [List.splitOn_nil, List.mem_singleton] at hline
      rw [hline]
      exact fun c hc => hc
  | cons head stream ih =>
      intro line hline c hc
      rw [List.splitOn_cons_eq_if_modifyHead] at hline
      split at hline
      · obtain rfl | hline := List.mem_cons.mp hline
        · cases hc
        · exact List.mem_cons_of_mem _ (ih line hline c hc)
      · obtain ⟨rest, hrest⟩ := split_head separator stream
        rw [hrest] at hline ih
        obtain rfl | hline := List.mem_cons.mp hline
        · obtain rfl | hc := List.mem_cons.mp hc
          · exact List.mem_cons_self
          · exact List.mem_cons_of_mem _ (ih _ List.mem_cons_self c hc)
        · exact List.mem_cons_of_mem _ (ih line (List.mem_cons_of_mem _ hline) c hc)

/-- A line has no separator. -/
theorem separator_not_mem {separator : α} {stream : List α} :
    ∀ line ∈ stream.splitOn separator, separator ∉ line := by
  induction stream with
  | nil => simp
  | cons head stream ih =>
      intro line hline
      rw [List.splitOn_cons_eq_if_modifyHead] at hline
      split at hline
      · obtain rfl | hline := List.mem_cons.mp hline
        · simp
        · exact ih line hline
      · rename_i hhead
        have hpieces := List.splitOn_ne_nil separator stream
        obtain ⟨first, rest, hrest⟩ := List.exists_cons_of_ne_nil hpieces
        rw [hrest] at hline ih
        obtain rfl | hline := List.mem_cons.mp hline
        · have hother : separator ≠ head := fun heq => hhead (by simp [heq])
          simpa [hother] using ih first List.mem_cons_self
        · exact ih line (List.mem_cons_of_mem _ hline)

end Foundations
