import Mathlib.Data.List.Basic

/-!
# Texts that a form decoder leaves alone

A form is cut at `&`, `+` is read as a blank, and `%` with two hexadecimal digits as
one byte. A text without these passes unchanged, whatever else it holds. The texts
here are lists of character codes.

## Implementation notes

`Inert` pieces can be put for one another without making or breaking such a place;
`Rewrites` replaces any number of them. Escaping and encoding a text is of that kind.
-/

namespace XrkMonitor.Library

def isHexDigit (c : Nat) : Bool :=
  (48 ≤ c && c ≤ 57) || (65 ≤ c && c ≤ 70) || (97 ≤ c && c ≤ 102)

/-- The text begins with a hexadecimal digit. -/
def startsHex : List Nat → Bool
  | a :: _ => isHexDigit a
  | [] => false

/-- The text begins with two hexadecimal digits. -/
def startsHexPair : List Nat → Bool
  | a :: rest => isHexDigit a && startsHex rest
  | [] => false

/-- A form decoder reads some of the text as something else. -/
def isEncoded : List Nat → Bool
  | [] => false
  | c :: rest => c = 43 || (c = 37 && startsHexPair rest) || isEncoded rest

/-- The text does not pass a form unchanged. -/
def isReserved (text : List Nat) : Bool := text.contains 38 || isEncoded text

/-- A piece of text without the characters of a form, and that does not begin with a digit. -/
structure Inert (piece : List Nat) : Prop where
  pos : piece ≠ []
  start : startsHex piece = false
  chars : ∀ c ∈ piece, c ≠ 37 ∧ c ≠ 38 ∧ c ≠ 43

/-- Inert pieces of the one text stand for inert pieces of the other. -/
inductive Rewrites : List Nat → List Nat → Prop
  | nil : Rewrites [] []
  | keep {xs ys : List Nat} (c : Nat) : Rewrites xs ys → Rewrites (c :: xs) (c :: ys)
  | replace {xs ys old new : List Nat} :
      Inert old → Inert new → Rewrites xs ys → Rewrites (old ++ xs) (new ++ ys)

section Pieces

variable {piece text xs ys : List Nat}

theorem isEncoded_append_of_chars (hchars : ∀ c ∈ piece, c ≠ 37 ∧ c ≠ 38 ∧ c ≠ 43) :
    isEncoded (piece ++ text) = isEncoded text := by
  induction piece with
  | nil => rfl
  | cons c piece ih =>
    obtain ⟨⟨hpercent, -, hplus⟩, hrest⟩ := List.forall_mem_cons.mp hchars
    rw [List.cons_append, isEncoded, ih hrest]
    simp [hpercent, hplus]

theorem Inert.startsHex_append (h : Inert piece) : startsHex (piece ++ text) = false := by
  cases piece with
  | nil => exact absurd rfl h.pos
  | cons c piece => exact h.start

theorem Inert.startsHexPair_append (h : Inert piece) : startsHexPair (piece ++ text) = false := by
  cases piece with
  | nil => exact absurd rfl h.pos
  | cons c piece =>
    have hstart : isHexDigit c = false := h.start
    rw [List.cons_append, startsHexPair, hstart, Bool.false_and]

theorem Rewrites.places (h : Rewrites xs ys) :
    isEncoded ys = isEncoded xs ∧ startsHexPair ys = startsHexPair xs ∧
      startsHex ys = startsHex xs ∧ (38 ∈ ys ↔ 38 ∈ xs) := by
  induction h with
  | nil => exact ⟨rfl, rfl, rfl, Iff.rfl⟩
  | keep c _ ih =>
    obtain ⟨hencoded, hpair, hstart, hmem⟩ := ih
    refine ⟨?_, ?_, rfl, ?_⟩
    · rw [isEncoded, isEncoded, hencoded, hpair]
    · rw [startsHexPair, startsHexPair, hstart]
    · rw [List.mem_cons, List.mem_cons, hmem]
  | replace hold hnew _ ih =>
    obtain ⟨hencoded, -, -, hmem⟩ := ih
    refine ⟨?_, ?_, ?_, ?_⟩
    · rw [isEncoded_append_of_chars hold.chars, isEncoded_append_of_chars hnew.chars, hencoded]
    · rw [hold.startsHexPair_append, hnew.startsHexPair_append]
    · rw [hold.startsHex_append, hnew.startsHex_append]
    · rw [List.mem_append, List.mem_append, hmem]
      have hold38 : 38 ∉ _ := fun h38 => (hold.chars 38 h38).2.1 rfl
      have hnew38 : 38 ∉ _ := fun h38 => (hnew.chars 38 h38).2.1 rfl
      rw [or_iff_right hold38, or_iff_right hnew38]

theorem Rewrites.isReserved_eq (h : Rewrites xs ys) : isReserved ys = isReserved xs := by
  obtain ⟨hencoded, -, -, hmem⟩ := h.places
  rw [isReserved, isReserved, hencoded, Bool.eq_iff_iff]
  simp only [Bool.or_eq_true, List.contains_iff_mem, hmem]

end Pieces

section Append

variable {xs ys : List Nat}

theorem isReserved_cons {c : Nat} (hc : c ≠ 37 ∧ c ≠ 38 ∧ c ≠ 43) :
    isReserved (c :: xs) = isReserved xs := by
  have hencoded : isEncoded ([c] ++ xs) = isEncoded xs :=
    isEncoded_append_of_chars (List.forall_mem_singleton.mpr hc)
  rw [isReserved, isReserved, ← List.singleton_append, hencoded, Bool.eq_iff_iff]
  simp only [Bool.or_eq_true, List.contains_iff_mem, List.singleton_append, List.mem_cons,
    or_iff_right (Ne.symm hc.2.1)]

theorem startsHex_append (hys : startsHex ys = false) : startsHex (xs ++ ys) = startsHex xs := by
  cases xs with
  | nil => exact hys
  | cons c xs => rfl

theorem startsHexPair_append (hys : startsHex ys = false) :
    startsHexPair (xs ++ ys) = startsHexPair xs := by
  cases xs with
  | nil =>
    cases ys with
    | nil => rfl
    | cons c ys =>
      have hc : isHexDigit c = false := hys
      rw [List.nil_append, startsHexPair, hc, Bool.false_and, startsHexPair]
  | cons c xs => rw [List.cons_append, startsHexPair, startsHexPair, startsHex_append hys]

theorem isReserved_append (hys : startsHex ys = false) :
    isReserved (xs ++ ys) = (isReserved xs || isReserved ys) := by
  have hencoded : isEncoded (xs ++ ys) = (isEncoded xs || isEncoded ys) := by
    induction xs with
    | nil => rfl
    | cons c xs ih =>
      rw [List.cons_append, isEncoded, isEncoded, ih, startsHexPair_append hys]
      simp only [Bool.or_assoc]
  rw [isReserved, isReserved, isReserved, hencoded, Bool.eq_iff_iff]
  simp only [Bool.or_eq_true, List.contains_iff_mem, List.mem_append]
  exact or_or_or_comm

end Append

end XrkMonitor.Library
