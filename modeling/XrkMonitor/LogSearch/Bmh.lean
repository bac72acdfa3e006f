import Mathlib.Data.List.GetD
import XrkMonitor.Library.StringSearch
import XrkMonitor.LogSearch.Search

/-!
# Searching a keyword in a log

`bmh_get_jump_table` writes for each letter how far the keyword may be moved on when that letter
stands under its end, and `bmh_is_match` searches with these jumps. The table is written at the
letter as a `char`, which is signed, and read at the letter as an `unsigned char`: the letters
from 128 on are written before the table. The search is right when no letter of the
keyword but the last one is of these.

## Implementation notes

A string is the list of its bytes before the closing zero. `int` is `Int`. The memory
around the table is a map of its indices, so that a write before the table has a place; the
indices written and read are kept beside it.
-/

namespace XrkMonitor.LogSearch

open Library

def BMH_JUMP_TABLE_SIZE : Nat := 256

/-- The ints from `piJmpTab` on and before it, and the indices that were written. -/
structure JumpTable where
  piJmpTab : Int → Int
  written : List Int

def JumpTable.set (t : JumpTable) (i v : Int) : JumpTable :=
  ⟨Function.update t.piJmpTab i v, i :: t.written⟩

@[simp] theorem JumpTable.set_self (t : JumpTable) (i v : Int) : (t.set i v).piJmpTab i = v :=
  Function.update_self _ _ _

theorem JumpTable.set_of_ne (t : JumpTable) {i k : Int} (h : k ≠ i) (v : Int) :
    (t.set i v).piJmpTab k = t.piJmpTab k :=
  Function.update_of_ne h _ _

/-- `(int)` of a `char`. -/
def charToInt (c : UInt8) : Int := c.toInt8.toInt

/-- The first loop of `bmh_get_jump_table`. -/
def setLengths (j : Int) (t : JumpTable) (n : Nat) : JumpTable :=
  (List.range n).foldl (fun t (i : Nat) => t.set i j) t

/-- The second loop of `bmh_get_jump_table`. -/
def setJumps (pszPat : List UInt8) (t : JumpTable) (n : Nat) : JumpTable :=
  (List.range n).foldl
    (fun t (i : Nat) => t.set (charToInt (pszPat.getD i 0)) ((pszPat.length : Int) - i - 1)) t

def bmhGetJumpTable (pszPat : List UInt8) (mem : Int → Int) : JumpTable :=
  let t := setLengths pszPat.length ⟨mem, []⟩ BMH_JUMP_TABLE_SIZE
  setJumps pszPat t (pszPat.length - 1)

/-- The inner loop of `bmh_is_match` with `n` letters to compare: `j` and `k` behind it. -/
def compareBack (pszTxt pszPat : List UInt8) : Nat → Int → Int × Int
  | 0, k => (-1, k)
  | n + 1, k =>
    if pszTxt.getD k.toNat 0 = pszPat.getD n 0 then compareBack pszTxt pszPat n (k - 1)
    else (n, k)

/-- The outer loop of `bmh_is_match`: its result and the indices read. -/
def searchFrom (pszTxt pszPat : List UInt8) (piJmpTab : Int → Int) :
    Nat → Int → List Int → Option (Int × List Int)
  | 0, _, _ => none
  | fuel + 1, i, read =>
    if i < pszTxt.length then
      let (j, k) := compareBack pszTxt pszPat pszPat.length i
      if j < 0 then some (k + 1, read)
      else
        let c : Int := (pszTxt.getD i.toNat 0).toNat
        searchFrom pszTxt pszPat piJmpTab fuel (i + piJmpTab c) (c :: read)
    else some (-1, read)

def bmhIsMatch (fuel : Nat) (pszTxt pszPat : List UInt8) (piJmpTab : Int → Int) :
    Option (Int × List Int) :=
  searchFrom pszTxt pszPat piJmpTab fuel (pszPat.length - 1) []

/-- The index is one of the table. -/
def InTable (i : Int) : Prop := 0 ≤ i ∧ i < BMH_JUMP_TABLE_SIZE

instance (i : Int) : Decidable (InTable i) := inferInstanceAs (Decidable (_ ∧ _))

/-- The search ends with the first place of the pattern, and the table is kept to. -/
def SearchOk (pszTxt pszPat : List UInt8) (mem : Int → Int) : Prop :=
  (∀ i ∈ (bmhGetJumpTable pszPat mem).written, InTable i) ∧
    ∀ fuel, pszTxt.length < fuel → ∃ r read,
      bmhIsMatch fuel pszTxt pszPat (bmhGetJumpTable pszPat mem).piJmpTab = some (r, read) ∧
        IsFirstPlace pszTxt pszPat r ∧ ∀ i ∈ read, InTable i

section Table

variable {pszPat : List UInt8} {t : JumpTable} {c : UInt8}

theorem charToInt_eq (c : UInt8) :
    charToInt c = if c.toNat < 128 then (c.toNat : Int) else c.toNat - 256 := by
  have hcond := BitVec.toInt_eq_toNat_cond c.toBitVec
  change c.toBitVec.toInt = _
  have hnat : c.toBitVec.toNat = c.toNat := rfl
  rw [hcond, hnat]
  split <;> split <;> omega

theorem setLengths_succ (j : Int) (t : JumpTable) (n : Nat) :
    setLengths j t (n + 1) = (setLengths j t n).set n j := by
  rw [setLengths, List.range_succ, List.foldl_append]
  rfl

theorem setJumps_succ (pszPat : List UInt8) (t : JumpTable) (n : Nat) :
    setJumps pszPat t (n + 1) = (setJumps pszPat t n).set (charToInt (pszPat.getD n 0))
      ((pszPat.length : Int) - n - 1) := by
  rw [setJumps, List.range_succ, List.foldl_append]
  rfl

theorem setLengths_piJmpTab (j : Int) (t : JumpTable) {n i : Nat} (hi : i < n) :
    (setLengths j t n).piJmpTab i = j := by
  induction n with
  | zero => exact absurd hi (Nat.not_lt_zero _)
  | succ n ih =>
    rw [setLengths_succ]
    rcases Nat.lt_succ_iff_lt_or_eq.mp hi with hlt | rfl
    · have hne : (i : Int) ≠ n := by omega
      exact (JumpTable.set_of_ne _ hne _).trans (ih hlt)
    · exact JumpTable.set_self _ _ _

theorem mem_written_setLengths (j : Int) (t : JumpTable) (n : Nat) (i : Int) :
    i ∈ (setLengths j t n).written ↔ (0 ≤ i ∧ i < n) ∨ i ∈ t.written := by
  induction n with
  | zero =>
    have hno : ¬ (0 ≤ i ∧ i < (0 : Nat)) := by omega
    rw [or_iff_right hno]
    rfl
  | succ n ih =>
    rw [setLengths_succ]
    change i ∈ (n : Int) :: (setLengths j t n).written ↔ _
    rw [List.mem_cons, ih, ← or_assoc]
    refine or_congr_left ?_
    omega

theorem mem_written_setJumps (pszPat : List UInt8) (t : JumpTable) (n : Nat) (i : Int) :
    i ∈ (setJumps pszPat t n).written ↔
      (∃ k < n, i = charToInt (pszPat.getD k 0)) ∨ i ∈ t.written := by
  induction n with
  | zero => simp [setJumps]
  | succ n ih =>
    rw [setJumps_succ]
    change i ∈ charToInt (pszPat.getD n 0) :: (setJumps pszPat t n).written ↔ _
    rw [List.mem_cons, ih, ← or_assoc]
    refine or_congr_left ?_
    constructor
    · rintro (h | ⟨k, hk, h⟩)
      · exact ⟨n, Nat.lt_succ_self n, h⟩
      · exact ⟨k, Nat.lt_succ_of_lt hk, h⟩
    · rintro ⟨k, hk, h⟩
      rcases Nat.lt_succ_iff_lt_or_eq.mp hk with hlt | rfl
      · exact Or.inr ⟨k, hlt, h⟩
      · exact Or.inl h

theorem written_inTable_iff (pszPat : List UInt8) (mem : Int → Int) :
    (∀ i ∈ (bmhGetJumpTable pszPat mem).written, InTable i) ↔
      ∀ c ∈ pszPat.dropLast, c.toNat < 128 := by
  have hletter : ∀ k < pszPat.length - 1, pszPat.getD k 0 ∈ pszPat.dropLast := by
    intro k hk
    have hlen : k < pszPat.dropLast.length := by rwa [List.length_dropLast]
    rw [List.getD_eq_getElem _ _ (by omega), ← List.getElem_dropLast hlen]
    exact List.getElem_mem hlen
  constructor
  · intro h c hc
    obtain ⟨k, hk, rfl⟩ := List.mem_iff_getElem.mp hc
    have hlen : k < pszPat.length - 1 := by rwa [List.length_dropLast] at hk
    have hwritten := h _ ((mem_written_setJumps _ _ _ _).mpr (Or.inl ⟨k, hlen, rfl⟩))
    have hbyte := (pszPat.getD k 0).toNat_lt
    rw [List.getElem_dropLast]
    rw [List.getD_eq_getElem _ _ (by omega)] at hbyte hwritten
    rw [charToInt_eq, InTable] at hwritten
    split at hwritten <;> omega
  · intro h i hi
    rcases (mem_written_setJumps _ _ _ _).mp hi with ⟨k, hk, rfl⟩ | hi
    · have hlow := h _ (hletter k hk)
      rw [charToInt_eq, if_pos hlow, InTable, BMH_JUMP_TABLE_SIZE]
      omega
    · rcases (mem_written_setLengths _ _ _ _).mp hi with hi | hi
      · exact hi
      · exact absurd hi List.not_mem_nil

/-- What the table holds at a letter after `n` letters of the pattern. -/
structure JumpOk (pszPat : List UInt8) (n : Nat) (c : UInt8) (v : Int) : Prop where
  pos : 0 < v
  le : v ≤ pszPat.length
  shift : ∀ k < n, pszPat[k]? = some c → v ≤ pszPat.length - 1 - k

theorem JumpOk.setJumps (hlow : ∀ c ∈ pszPat.dropLast, c.toNat < 128) {n : Nat}
    (h : JumpOk pszPat 0 c (t.piJmpTab c.toNat)) (hn : n ≤ pszPat.length - 1) :
    JumpOk pszPat n c ((setJumps pszPat t n).piJmpTab c.toNat) := by
  induction n with
  | zero => exact h
  | succ n ih =>
    have hprev := ih (by omega)
    have hlen : n < pszPat.dropLast.length := by rw [List.length_dropLast]; omega
    have hget : pszPat.getD n 0 = pszPat.dropLast[n] := by
      rw [List.getD_eq_getElem _ _ (by omega), List.getElem_dropLast]
    have hindex : charToInt (pszPat.getD n 0) = (pszPat.getD n 0).toNat := by
      rw [charToInt_eq, if_pos]
      rw [hget]
      exact hlow _ (List.getElem_mem hlen)
    rw [setJumps_succ, hindex]
    by_cases hc : pszPat.getD n 0 = c
    · rw [hc, JumpTable.set_self]
      refine ⟨by omega, by omega, ?_⟩
      intro k hk _
      omega
    · have hne : (c.toNat : Int) ≠ (pszPat.getD n 0).toNat := by
        intro heq
        exact hc (UInt8.toNat_inj.mp (by omega))
      rw [JumpTable.set_of_ne _ hne]
      refine ⟨hprev.pos, hprev.le, ?_⟩
      intro k hk hletter
      rcases Nat.lt_succ_iff_lt_or_eq.mp hk with hlt | rfl
      · exact hprev.shift k hlt hletter
      · rw [List.getD_eq_getElem?_getD, hletter] at hc
        exact absurd rfl hc

theorem jumpOk_bmhGetJumpTable (hne : pszPat ≠ [])
    (hlow : ∀ c ∈ pszPat.dropLast, c.toNat < 128) (mem : Int → Int) (c : UInt8) :
    JumpOk pszPat (pszPat.length - 1) c ((bmhGetJumpTable pszPat mem).piJmpTab c.toNat) := by
  refine JumpOk.setJumps hlow ?_ (Nat.le_refl _)
  have hindex : c.toNat < BMH_JUMP_TABLE_SIZE := c.toNat_lt
  rw [setLengths_piJmpTab _ _ hindex]
  have hpos := List.length_pos_of_ne_nil hne
  refine ⟨by omega, by omega, ?_⟩
  intro k hk
  exact absurd hk (Nat.not_lt_zero _)

theorem JumpOk.isShift {v : Int} (h : JumpOk pszPat (pszPat.length - 1) c v) :
    IsShift pszPat c v.toNat := by
  have hle := h.le
  refine ⟨by omega, ?_⟩
  intro j hj hletter
  have hshift := h.shift j (by omega) hletter
  omega

end Table

section Search

variable {pszTxt pszPat : List UInt8} {s : Nat}

theorem compareBack_spec (pszTxt pszPat : List UInt8) (s n : Nat) :
    ((compareBack pszTxt pszPat n (s + n - 1)).1 < 0 ↔
      ∀ j < n, pszTxt.getD (s + j) 0 = pszPat.getD j 0) ∧
    ((compareBack pszTxt pszPat n (s + n - 1)).1 < 0 →
      (compareBack pszTxt pszPat n (s + n - 1)).2 = s - 1) := by
  induction n with
  | zero => simp [compareBack]
  | succ n ih =>
    have hk : ((s : Int) + (n + 1 : Nat) - 1).toNat = s + n := by omega
    have hnext : (s : Int) + (n + 1 : Nat) - 1 - 1 = s + n - 1 := by omega
    rw [compareBack, hk, hnext]
    by_cases hletter : pszTxt.getD (s + n) 0 = pszPat.getD n 0
    · rw [if_pos hletter]
      refine ⟨ih.1.trans ?_, ih.2⟩
      constructor
      · intro h j hj
        rcases Nat.lt_succ_iff_lt_or_eq.mp hj with hlt | rfl
        · exact h j hlt
        · exact hletter
      · intro h j hj
        exact h j (Nat.lt_succ_of_lt hj)
    · rw [if_neg hletter]
      have hnot : ¬ ((n : Int) < 0) := by omega
      refine ⟨iff_of_false hnot ?_, fun h => absurd h hnot⟩
      intro h
      exact hletter (h n (Nat.lt_succ_self n))

theorem compareBack_iff (hs : s + pszPat.length ≤ pszTxt.length) :
    (compareBack pszTxt pszPat pszPat.length (s + pszPat.length - 1)).1 < 0 ↔
      OccursAt pszTxt pszPat s := by
  rw [(compareBack_spec pszTxt pszPat s pszPat.length).1, occursAt_iff]
  refine forall₂_congr ?_
  intro j hj
  rw [List.getD_eq_getElem _ _ (by omega), List.getD_eq_getElem _ _ hj,
    List.getElem?_eq_getElem (by omega), List.getElem?_eq_getElem hj, Option.some_inj]

theorem searchFrom_spec (hne : pszPat ≠ []) {piJmpTab : Int → Int}
    (htab : ∀ c : UInt8, JumpOk pszPat (pszPat.length - 1) c (piJmpTab c.toNat))
    {fuel : Nat} {read : List Int} (hnone : NoneBefore pszTxt pszPat s)
    (hsome : 0 < fuel) (hfuel : pszTxt.length + 1 < s + pszPat.length + fuel) (hread : ∀ i ∈ read, InTable i) :
    ∃ r read', searchFrom pszTxt pszPat piJmpTab fuel (s + pszPat.length - 1) read =
        some (r, read') ∧ IsFirstPlace pszTxt pszPat r ∧ ∀ i ∈ read', InTable i := by
  have hpos := List.length_pos_of_ne_nil hne
  induction fuel generalizing s read with
  | zero => exact absurd hsome (Nat.lt_irrefl 0)
  | succ fuel ih =>
    rw [searchFrom]
    by_cases hlt : (s : Int) + pszPat.length - 1 < pszTxt.length
    · have hle : s + pszPat.length ≤ pszTxt.length := by omega
      obtain ⟨-, hk⟩ := compareBack_spec pszTxt pszPat s pszPat.length
      rw [if_pos hlt]
      by_cases hocc : OccursAt pszTxt pszPat s
      · have hj := (compareBack_iff hle).mpr hocc
        refine ⟨s, read, ?_, hnone.isFirstPlace hocc, hread⟩
        simp [hj, hk hj]
      · have hj := mt (compareBack_iff hle).mp hocc
        have hend : pszTxt[s + pszPat.length - 1]? =
            some (pszTxt.getD (s + pszPat.length - 1) 0) := by
          rw [List.getD_eq_getElem _ _ (by omega), List.getElem?_eq_getElem (by omega)]
        have hindex : ((s : Int) + pszPat.length - 1).toNat = s + pszPat.length - 1 := by omega
        have hjump := htab (pszTxt.getD (s + pszPat.length - 1) 0)
        have hnext := hnone.skip hocc hne hend hjump.isShift
        have hc : InTable (pszTxt.getD (s + pszPat.length - 1) 0).toNat :=
          ⟨Int.natCast_nonneg _, Int.ofNat_lt.mpr (UInt8.toNat_lt _)⟩
        simp only [hj, if_false, hindex]
        set v := piJmpTab (pszTxt.getD (s + pszPat.length - 1) 0).toNat with hv
        have hv0 := hjump.pos
        have hplace : (s : Int) + pszPat.length - 1 + v =
            (s + v.toNat : Nat) + pszPat.length - 1 := by omega
        rw [hplace]
        refine ih hnext (by omega) (by omega) ?_
        exact List.forall_mem_cons.mpr ⟨hc, hread⟩
    · rw [if_neg hlt]
      exact ⟨-1, read, rfl, hnone.isFirstPlace_none hne (by omega), hread⟩

theorem bmhIsMatch_spec (pszTxt : List UInt8) (hne : pszPat ≠ [])
    (hlow : ∀ c ∈ pszPat.dropLast, c.toNat < 128) (mem : Int → Int) {fuel : Nat}
    (hfuel : pszTxt.length < fuel) :
    ∃ r read, bmhIsMatch fuel pszTxt pszPat (bmhGetJumpTable pszPat mem).piJmpTab =
        some (r, read) ∧ IsFirstPlace pszTxt pszPat r ∧ ∀ i ∈ read, InTable i := by
  have hpos := List.length_pos_of_ne_nil hne
  have hstart : (pszPat.length : Int) - 1 = (0 : Nat) + pszPat.length - 1 := by omega
  rw [bmhIsMatch, hstart]
  refine searchFrom_spec hne (jumpOk_bmhGetJumpTable hne hlow mem) noneBefore_zero
    (by omega) (by omega) ?_
  exact List.forall_mem_nil _

/-- For every text and every pattern: the search ends, gives the first place of the
pattern, and keeps to the table, exactly when no letter of the pattern but the last is one
from 128 on. -/
theorem searchOk_iff (pszTxt : List UInt8) (hne : pszPat ≠ []) (mem : Int → Int) :
    SearchOk pszTxt pszPat mem ↔ ∀ c ∈ pszPat.dropLast, c.toNat < 128 := by
  rw [SearchOk, written_inTable_iff]
  refine and_iff_left_of_imp ?_
  intro hlow fuel hfuel
  exact bmhIsMatch_spec pszTxt hne hlow mem hfuel

/-- `log` in `a log`. -/
theorem searchOk_ascii : SearchOk [97, 32, 108, 111, 103] [108, 111, 103] fun _ => 0 :=
  (searchOk_iff [97, 32, 108, 111, 103] (by decide) _).mpr
    (List.forall_mem_cons.mpr ⟨by decide, List.forall_mem_singleton.mpr (by decide)⟩)

/-- The three bytes of a Chinese letter behind an `a`: the jump of its middle byte is written before
the table, and the letter is not found. -/
theorem chineseLetter_missed :
    let pszTxt : List UInt8 := [97, 0xE4, 0xB8, 0xAD]
    let pszPat : List UInt8 := [0xE4, 0xB8, 0xAD]
    let t := bmhGetJumpTable pszPat fun _ => 0
    ¬ SearchOk pszTxt pszPat (fun _ => 0) ∧ OccursAt pszTxt pszPat 1 ∧
      bmhIsMatch 5 pszTxt pszPat t.piJmpTab = some (-1, [0xB8]) ∧
      (0xB8 : Int) - 256 ∈ t.written := by
  refine ⟨?_, by decide, by decide +kernel, by decide +kernel⟩
  intro h
  exact absurd ((written_inTable_iff _ _).mp h.1 0xB8 (by decide)) (by decide)

/-- A keyword, with what `bmh_is_match` says under its jump table. -/
def bmhKey (szKey : List UInt8) (mem : Int → Int) : SearchKey where
  szKey := szKey
  bmhIsMatch := fun pszLog =>
    match bmhIsMatch (pszLog.length + 1) pszLog szKey (bmhGetJumpTable szKey mem).piJmpTab with
    | some (r, _) => 0 ≤ r
    | none => false

end Search

end XrkMonitor.LogSearch
