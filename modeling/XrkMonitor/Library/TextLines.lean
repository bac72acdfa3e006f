import Mathlib.Data.List.Basic

/-!
# Lines of a text

A text is its terminated lines, each followed by a newline, and what is left after
the last newline. `fgets` of the C library reads a line at a time into a buffer: a
line that does not fit comes in pieces, and a text that ends without a newline is
noticed only by the read that meets its end.
-/

namespace XrkMonitor.Library

/-- The lines, each with its newline. -/
def joinLines (ls : List (List Char)) : List Char := ls.flatMap fun l => l ++ ['\n']

/-- The terminated lines of a text, and what is left. -/
def splitLines : List Char → List (List Char) × List Char
  | [] => ([], [])
  | c :: s =>
    if c = '\n' then ([] :: (splitLines s).1, (splitLines s).2)
    else
      match splitLines s with
      | ([], last) => ([], c :: last)
      | (l :: ls, last) => ((c :: l) :: ls, last)

/-- All lines of a text; a last line without newline counts if it is not empty. -/
def allLines (s : List Char) : List (List Char) :=
  (splitLines s).1 ++ if (splitLines s).2 = [] then [] else [(splitLines s).2]

/-- `fgets` with room for `n` characters: what was read, the rest of the text, and whether the end
was met. -/
def fgets : Nat → List Char → List Char × List Char × Bool
  | 0, s => ([], s, false)
  | _ + 1, [] => ([], [], true)
  | n + 1, c :: s => if c = '\n' then ([c], s, false) else
      (c :: (fgets n s).1, (fgets n s).2.1, (fgets n s).2.2)

/-- The loop that reads with `fgets` until `feof`. -/
def readLinesFrom (n : Nat) : Nat → List Char → List (List Char)
  | 0, _ => []
  | fuel + 1, s =>
    if (fgets n s).2.2 then [] else (fgets n s).1 :: readLinesFrom n fuel (fgets n s).2.1

def readLines (n : Nat) (s : List Char) : List (List Char) := readLinesFrom n (s.length + 1) s

/-- A line in the pieces in which a read with room for `n` characters sees it. -/
def pieces (n : Nat) (l : List Char) : List (List Char) :=
  if l.length < n then [l ++ ['\n']] else [l, ['\n']]

section Split

variable {s last : List Char} {ls : List (List Char)} {l : List Char}

theorem joinLines_cons (l : List Char) (ls : List (List Char)) :
    joinLines (l :: ls) = l ++ '\n' :: joinLines ls := by
  simp [joinLines]

theorem splitLines_last (h : '\n' ∉ last) : splitLines last = ([], last) := by
  induction last with
  | nil => rfl
  | cons c s ih =>
    rw [List.mem_cons, not_or] at h
    rw [splitLines, if_neg (Ne.symm h.1), ih h.2]

theorem splitLines_line (h : '\n' ∉ l) (s : List Char) :
    splitLines (l ++ '\n' :: s) = (l :: (splitLines s).1, (splitLines s).2) := by
  induction l with
  | nil => simp [splitLines]
  | cons c l ih =>
    rw [List.mem_cons, not_or] at h
    rw [List.cons_append, splitLines, if_neg (Ne.symm h.1), ih h.2]

theorem splitLines_joinLines (h : ∀ l ∈ ls, '\n' ∉ l) (hlast : '\n' ∉ last) :
    splitLines (joinLines ls ++ last) = (ls, last) := by
  induction ls with
  | nil => exact splitLines_last hlast
  | cons l ls ih =>
    rw [joinLines_cons, List.append_assoc, List.cons_append,
      splitLines_line (h l List.mem_cons_self), ih fun l hl => h l (List.mem_cons_of_mem _ hl)]

/-- A text is its lines, and none of them has a newline. -/
theorem splitLines_spec (s : List Char) :
    joinLines (splitLines s).1 ++ (splitLines s).2 = s ∧ (∀ l ∈ (splitLines s).1, '\n' ∉ l) ∧
      '\n' ∉ (splitLines s).2 := by
  induction s with
  | nil => simp [splitLines, joinLines]
  | cons c s ih =>
    obtain ⟨hjoin, hlines, hlast⟩ := ih
    rw [splitLines]
    by_cases hc : c = '\n'
    · subst hc
      rw [if_pos rfl]
      refine ⟨?_, ?_, hlast⟩
      · rw [joinLines_cons, List.nil_append, List.cons_append, hjoin]
      · intro l hl
        rcases List.mem_cons.mp hl with rfl | hl
        · simp
        · exact hlines l hl
    · rw [if_neg hc]
      cases hsplit : splitLines s with
      | mk ls last =>
        rw [hsplit] at hjoin hlines hlast
        cases ls with
        | nil =>
          refine ⟨?_, by simp, ?_⟩
          · simpa [joinLines] using hjoin
          · rw [List.mem_cons, not_or]
            exact ⟨Ne.symm hc, hlast⟩
        | cons l ls =>
          refine ⟨?_, ?_, hlast⟩
          · rw [joinLines_cons] at hjoin ⊢
            rw [List.cons_append, List.cons_append, hjoin]
          · intro k hk
            rcases List.mem_cons.mp hk with rfl | hk
            · rw [List.mem_cons, not_or]
              exact ⟨Ne.symm hc, hlines l List.mem_cons_self⟩
            · exact hlines k (List.mem_cons_of_mem _ hk)

end Split

section Read

variable {n fuel : Nat} {s l last : List Char} {ls : List (List Char)}

theorem fgets_line (h : '\n' ∉ l) (hlen : l.length < n) (s : List Char) :
    fgets n (l ++ '\n' :: s) = (l ++ ['\n'], s, false) := by
  induction l generalizing n with
  | nil =>
    obtain ⟨n, rfl⟩ : ∃ m, n = m + 1 := ⟨n - 1, by simp at hlen; omega⟩
    simp [fgets]
  | cons c l ih =>
    rw [List.mem_cons, not_or] at h
    rw [List.length_cons] at hlen
    obtain ⟨n, rfl⟩ : ∃ m, n = m + 1 := ⟨n - 1, by omega⟩
    rw [List.cons_append, fgets, if_neg (Ne.symm h.1), ih h.2 (by omega)]
    rfl

theorem fgets_full (h : '\n' ∉ l) (hlen : l.length = n) (s : List Char) :
    fgets n (l ++ s) = (l, s, false) := by
  induction l generalizing n with
  | nil =>
    subst hlen
    rfl
  | cons c l ih =>
    rw [List.mem_cons, not_or] at h
    subst hlen
    rw [List.length_cons, List.cons_append, fgets, if_neg (Ne.symm h.1), ih h.2 rfl]

theorem fgets_end (h : '\n' ∉ last) (hlen : last.length < n) : (fgets n last).2.2 = true := by
  induction last generalizing n with
  | nil =>
    obtain ⟨n, rfl⟩ : ∃ m, n = m + 1 := ⟨n - 1, by simp at hlen; omega⟩
    rfl
  | cons c s ih =>
    rw [List.mem_cons, not_or] at h
    rw [List.length_cons] at hlen
    obtain ⟨n, rfl⟩ : ∃ m, n = m + 1 := ⟨n - 1, by omega⟩
    rw [fgets, if_neg (Ne.symm h.1)]
    exact ih h.2 (by omega)

theorem readLinesFrom_lines (hn : 0 < n) (h : ∀ l ∈ ls, '\n' ∉ l) (hlen : ∀ l ∈ ls, l.length ≤ n)
    (hlast : '\n' ∉ last) (hlastLen : last.length < n)
    (hfuel : (joinLines ls ++ last).length < fuel) :
    readLinesFrom n fuel (joinLines ls ++ last) = ls.flatMap (pieces n) := by
  induction ls generalizing fuel with
  | nil =>
    obtain ⟨fuel, rfl⟩ : ∃ m, fuel = m + 1 := ⟨fuel - 1, by omega⟩
    rw [readLinesFrom, joinLines, List.flatMap_nil, List.nil_append, fgets_end hlast hlastLen, if_pos rfl]
    rfl
  | cons l ls ih =>
    have hl := h l List.mem_cons_self
    have hle := hlen l List.mem_cons_self
    have hrest : ∀ fuel, (joinLines ls ++ last).length < fuel →
        readLinesFrom n fuel (joinLines ls ++ last) = ls.flatMap (pieces n) := fun _ =>
      ih (fun k hk => h k (List.mem_cons_of_mem _ hk))
        (fun k hk => hlen k (List.mem_cons_of_mem _ hk))
    have hjoin : joinLines (l :: ls) ++ last = l ++ '\n' :: (joinLines ls ++ last) := by
      rw [joinLines_cons, List.append_assoc, List.cons_append]
    rw [hjoin] at hfuel ⊢
    simp only [List.length_append, List.length_cons] at hfuel hrest
    obtain ⟨fuel, rfl⟩ : ∃ m, fuel = m + 1 := ⟨fuel - 1, by omega⟩
    rw [List.flatMap_cons, pieces]
    by_cases hfit : l.length < n
    · rw [if_pos hfit, readLinesFrom, fgets_line hl hfit, if_neg (by simp), hrest _ (by omega)]
      rfl
    · have heq : l.length = n := by omega
      rw [if_neg hfit, readLinesFrom, fgets_full hl heq, if_neg (by simp)]
      obtain ⟨fuel, rfl⟩ : ∃ m, fuel = m + 1 := ⟨fuel - 1, by omega⟩
      have hnl : fgets n ('\n' :: (joinLines ls ++ last)) = (['\n'], joinLines ls ++ last, false) :=
        fgets_line (l := []) (by simp) hn _
      rw [readLinesFrom, hnl, if_neg (by simp), hrest _ (by omega)]
      rfl

theorem readLines_lines (hn : 0 < n) (h : ∀ l ∈ ls, '\n' ∉ l) (hlen : ∀ l ∈ ls, l.length ≤ n)
    (hlast : '\n' ∉ last) (hlastLen : last.length < n) :
    readLines n (joinLines ls ++ last) = ls.flatMap (pieces n) :=
  readLinesFrom_lines hn h hlen hlast hlastLen (Nat.lt_succ_self _)

theorem length_fgets_le (n : Nat) (s : List Char) : (fgets n s).1.length ≤ n := by
  induction n generalizing s with
  | zero => simp [fgets]
  | succ n ih =>
    cases s with
    | nil => simp [fgets]
    | cons c s =>
      rw [fgets]
      split
      · simp
      · have := ih s
        simp only [List.length_cons]
        omega

theorem length_of_mem_readLines (h : l ∈ readLines n s) : l.length ≤ n := by
  unfold readLines at h
  generalize s.length + 1 = fuel at h
  induction fuel generalizing s with
  | zero => cases h
  | succ fuel ih =>
    rw [readLinesFrom] at h
    split at h
    · cases h
    · rcases List.mem_cons.mp h with rfl | h
      · exact length_fgets_le n s
      · exact ih h

end Read

end XrkMonitor.Library
