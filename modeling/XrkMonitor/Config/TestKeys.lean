import XrkMonitor.Config.LogConfigs
import XrkMonitor.Library.FilledArray
import XrkMonitor.Library.Run

/-!
# The test keys of a log configuration

`ReadTableTestKeyInfo` keeps the test keys of a configuration in an array: a row in use
adds its key to the first free place, any other row removes its key and moves the keys
behind it one place down. The move leaves the last of them in its old place as well.
`test_keys_ok` is the result about the runs in which no key is moved, and about the
look-up `GetTestKey` in them.

## Implementation notes

The rows are those of one configuration that shared memory has. A key value is the text
of the row; `strncpy` keeps its first `SLOG_TEST_KEY_LEN - 1` bytes, and the zeroed byte
behind them ends it. The places behind the array are memory too, so the keys are a
function of the place.
-/

namespace XrkMonitor.Config

open Library

def MAX_SLOG_TEST_KEYS_PER_CONFIG : Nat := 20

def SLOG_TEST_KEY_LEN : Nat := 20

structure SLogTestKey where
  bKeyType : UInt8
  szKeyValue : List UInt8
deriving DecidableEq

/-- The test keys of one `SLogClientConfig`. -/
structure TestKeys where
  wTestKeyCount : Nat
  stTestKeys : Nat → SLogTestKey
  dwConfigSeq : Nat

/-- A row of `test_key_list`. -/
structure TestKeyRow where
  test_key_type : UInt8
  test_key : List UInt8
  xrk_status : Int
  type_ne : test_key_type ≠ 0
  short : test_key.length < SLOG_TEST_KEY_LEN

def TestKeyRow.key (row : TestKeyRow) : SLogTestKey := ⟨row.test_key_type, row.test_key⟩

def emptyKey : SLogTestKey := ⟨0, []⟩

/-- A configuration that was just added. -/
def noTestKeys : TestKeys where
  wTestKeyCount := 0
  stTestKeys := fun _ => emptyKey
  dwConfigSeq := 0

def getTestKey (t : TestKeys) (key : SLogTestKey) (bFirstFree : Bool) : Option Nat × Option Nat :=
  searchSlots (fun j => t.stTestKeys j == key) (fun j => (t.stTestKeys j).bKeyType == 0)
    t.wTestKeyCount bFirstFree (List.range MAX_SLOG_TEST_KEYS_PER_CONFIG) 0 none

/-- A key goes into a free place. -/
def addTestKey (t : TestKeys) (row : TestKeyRow) (iFirstFree : Nat) : TestKeys where
  wTestKeyCount := wordInc 16 t.wTestKeyCount
  stTestKeys := Function.update t.stTestKeys iFirstFree
    ⟨row.test_key_type, row.test_key.take (SLOG_TEST_KEY_LEN - 1)⟩
  dwConfigSeq := wordInc 32 t.dwConfigSeq

/-- A key is removed, and the keys behind it move one place down. -/
def removeTestKey (t : TestKeys) (iMatchKey : Nat) : TestKeys where
  wTestKeyCount := wordDec 16 t.wTestKeyCount
  stTestKeys := moveDown (Function.update t.stTestKeys iMatchKey emptyKey) iMatchKey
    (t.wTestKeyCount - 1 - iMatchKey)
  dwConfigSeq := wordInc 32 t.dwConfigSeq

/-- One row of `ReadTableTestKeyInfo`. -/
def readTestKeyRow (t : TestKeys) (row : TestKeyRow) : TestKeys :=
  let found := getTestKey t row.key true
  if row.xrk_status = RECORD_STATUS_USE then
    match found.1 with
    | none => found.2.elim t (addTestKey t row)
    | some _ => t
  else found.1.elim t (removeTestKey t)

def testKeyStep (t : TestKeys) (row : TestKeyRow) : Option (Unit × TestKeys) :=
  some ((), readTestKeyRow t row)

/-- The keys that were added and not deleted since, after one more row. -/
def liveKeysStep (keys : List SLogTestKey) (row : TestKeyRow) : List SLogTestKey :=
  if row.xrk_status = RECORD_STATUS_USE then
    if row.key ∈ keys then keys else keys ++ [row.key]
  else keys.erase row.key

/-- The keys that were added and not deleted since. -/
def liveKeys (rows : List TestKeyRow) : List SLogTestKey := rows.foldl liveKeysStep []

/-- A new key finds a free place, and a key that is removed stands in the last place. -/
def KeyRowOk (t : TestKeys) (row : TestKeyRow) : Prop :=
  (row.xrk_status = RECORD_STATUS_USE → (getTestKey t row.key true).1 = none →
      (getTestKey t row.key true).2.isSome = true) ∧
    (row.xrk_status ≠ RECORD_STATUS_USE →
      ∀ i ∈ (getTestKey t row.key true).1, i + 1 = t.wTestKeyCount)

instance (t : TestKeys) (row : TestKeyRow) : Decidable (KeyRowOk t row) :=
  inferInstanceAs (Decidable (_ ∧ _))

/-- The keys stand in the first places, each once, and the other places are empty. -/
structure TestKeys.Holds (t : TestKeys) (keys : List SLogTestKey) : Prop where
  count : t.wTestKeyCount = keys.length
  le : keys.length ≤ MAX_SLOG_TEST_KEYS_PER_CONFIG
  nodup : keys.Nodup
  typed : ∀ key ∈ keys, key.bKeyType ≠ 0
  place : ∀ j < keys.length, keys[j]? = some (t.stTestKeys j)
  rest : ∀ j < MAX_SLOG_TEST_KEYS_PER_CONFIG, keys.length ≤ j → (t.stTestKeys j).bKeyType = 0

section Rows

variable {t : TestKeys} {keys : List SLogTestKey} {key : SLogTestKey} {i : Nat} {b : Bool}

theorem noTestKeys_holds : noTestKeys.Holds [] :=
  ⟨rfl, by decide, List.nodup_nil, by simp, by simp, fun _ _ _ => rfl⟩

theorem TestKeys.Holds.free_iff (h : t.Holds keys) {j : Nat}
    (hj : j < MAX_SLOG_TEST_KEYS_PER_CONFIG) :
    ((t.stTestKeys j).bKeyType == 0) = decide (keys.length ≤ j) := by
  rw [Bool.eq_iff_iff, beq_iff_eq, decide_eq_true_eq]
  constructor
  · intro hzero
    by_contra hlt
    exact h.typed _ (List.mem_of_getElem? (h.place j (by omega))) hzero
  · exact h.rest j hj

theorem countP_range_lt (m n : Nat) : (List.range n).countP (fun j => decide (j < m)) = min m n := by
  induction n with
  | zero => simp
  | succ n ih =>
    rw [List.range_succ, List.countP_append, ih]
    by_cases hlt : n < m
    · simp [hlt]
      omega
    · simp [hlt]
      omega

theorem TestKeys.Holds.countP_used (h : t.Holds keys) :
    (List.range MAX_SLOG_TEST_KEYS_PER_CONFIG).countP
      (fun j => !((t.stTestKeys j).bKeyType == 0)) = keys.length := by
  have hused : (List.range MAX_SLOG_TEST_KEYS_PER_CONFIG).countP
      (fun j => !((t.stTestKeys j).bKeyType == 0)) =
      (List.range MAX_SLOG_TEST_KEYS_PER_CONFIG).countP fun j => decide (j < keys.length) := by
    apply List.countP_congr
    intro j hj
    rw [h.free_iff (List.mem_range.mp hj)]
    simp
  rw [hused, countP_range_lt, Nat.min_eq_left h.le]

theorem TestKeys.Holds.getTestKey_some (h : t.Holds keys) (hkey : key.bKeyType ≠ 0) :
    (getTestKey t key b).1 = some i ↔ keys[i]? = some key := by
  have hfst : (getTestKey t key b).1 =
      (List.range MAX_SLOG_TEST_KEYS_PER_CONFIG).find? fun j => t.stTestKeys j == key := by
    apply searchSlots_fst
    · rw [h.countP_used, h.count]
      simp
    · intro j _ hhit
      rw [beq_iff_eq] at hhit
      simpa [hhit] using hkey
  have hplace : ∀ j < MAX_SLOG_TEST_KEYS_PER_CONFIG, t.stTestKeys j = key ↔ keys[j]? = some key := by
    intro j hj
    by_cases hlt : j < keys.length
    · rw [h.place j hlt, Option.some.injEq]
    · have hzero := h.rest j hj (Nat.le_of_not_lt hlt)
      have hne : t.stTestKeys j ≠ key := fun heq => hkey (heq ▸ hzero)
      simp [hne, hlt]
  rw [hfst, List.find?_range_eq_some]
  constructor
  · rintro ⟨hhit, hi, -⟩
    exact (hplace i (List.mem_range.mp hi)).mp (by simpa using hhit)
  · intro hget
    have hlt : i < keys.length := (List.getElem?_eq_some_iff.mp hget).1
    have hi : i < MAX_SLOG_TEST_KEYS_PER_CONFIG := Nat.lt_of_lt_of_le hlt h.le
    refine ⟨by simpa using (hplace i hi).mpr hget, List.mem_range.mpr hi, ?_⟩
    intro j hj
    have hne : t.stTestKeys j ≠ key := by
      intro heq
      have hget' := (hplace j (by omega)).mp heq
      exact absurd ((List.getElem?_inj (by omega) h.nodup).mp (hget'.trans hget.symm)) (by omega)
    simpa using hne

theorem TestKeys.Holds.getTestKey_none (h : t.Holds keys) (hkey : key.bKeyType ≠ 0) :
    (getTestKey t key b).1 = none ↔ key ∉ keys := by
  rw [Option.eq_none_iff_forall_ne_some]
  constructor
  · intro hnone hmem
    obtain ⟨j, hj⟩ := List.getElem?_of_mem hmem
    exact hnone j ((h.getTestKey_some hkey).mpr hj)
  · intro hmem j hj
    exact hmem (List.mem_of_getElem? ((h.getTestKey_some hkey).mp hj))

theorem TestKeys.Holds.getTestKey_free (h : t.Holds keys) (hkey : key.bKeyType ≠ 0)
    (hmem : key ∉ keys) (hfree : (getTestKey t key true).2 = some i) :
    i = keys.length ∧ i < MAX_SLOG_TEST_KEYS_PER_CONFIG := by
  have hmiss : (List.range MAX_SLOG_TEST_KEYS_PER_CONFIG).find? (fun j => t.stTestKeys j == key) =
      none := by
    rw [List.find?_eq_none]
    intro j hj hhit
    have heq : t.stTestKeys j = key := by simpa using hhit
    by_cases hlt : j < keys.length
    · exact hmem (heq ▸ List.mem_of_getElem? (h.place j hlt))
    · exact hkey (heq ▸ h.rest j (List.mem_range.mp hj) (Nat.le_of_not_lt hlt))
  rw [getTestKey, searchSlots_snd hmiss, Option.none_or, List.find?_range_eq_some] at hfree
  obtain ⟨hzero, hi, hfirst⟩ := hfree
  have hlt := List.mem_range.mp hi
  rw [h.free_iff hlt, decide_eq_true_eq] at hzero
  refine ⟨Nat.le_antisymm ?_ hzero, hlt⟩
  by_contra hgt
  have hused := hfirst keys.length (by omega)
  rw [h.free_iff (by omega)] at hused
  simp at hused

theorem TestKeys.Holds.add (h : t.Holds keys) (row : TestKeyRow) (hmem : row.key ∉ keys)
    (hlt : keys.length < MAX_SLOG_TEST_KEYS_PER_CONFIG) :
    (addTestKey t row keys.length).Holds (keys ++ [row.key]) := by
  have htake : row.test_key.take (SLOG_TEST_KEY_LEN - 1) = row.test_key := by
    have := row.short
    exact List.take_of_length_le (by omega)
  have hkeep : ∀ j, j ≠ keys.length → (addTestKey t row keys.length).stTestKeys j = t.stTestKeys j :=
    fun j hj => Function.update_of_ne hj _ _
  have hnew : (addTestKey t row keys.length).stTestKeys keys.length = row.key := by
    simp [addTestKey, htake, TestKeyRow.key]
  have hsize : MAX_SLOG_TEST_KEYS_PER_CONFIG = 20 := rfl
  refine ⟨?_, ?_, ?_, ?_, ?_, ?_⟩
  · change wordInc 16 t.wTestKeyCount = _
    rw [h.count, wordInc_of_lt (by omega), List.length_append]
    rfl
  · rw [List.length_append]
    exact hlt
  · rw [List.nodup_append]
    refine ⟨h.nodup, List.nodup_singleton _, ?_⟩
    intro a ha b hb
    rw [List.mem_singleton.mp hb]
    rintro rfl
    exact hmem ha
  · intro key hkey
    obtain hkey | hkey := List.mem_append.mp hkey
    · exact h.typed key hkey
    · rw [List.mem_singleton.mp hkey]
      exact row.type_ne
  · intro j hj
    rw [List.length_append, List.length_singleton] at hj
    by_cases hjl : j = keys.length
    · subst hjl
      rw [hnew, List.getElem?_concat_length]
    · rw [hkeep j hjl, List.getElem?_append_left (by omega)]
      exact h.place j (by omega)
  · intro j hj hle
    rw [List.length_append, List.length_singleton] at hle
    rw [hkeep j (by omega)]
    exact h.rest j hj (by omega)

theorem TestKeys.Holds.removeLast (h : t.Holds (keys ++ [key])) :
    (removeTestKey t keys.length).Holds keys := by
  have hcount : t.wTestKeyCount = keys.length + 1 := by simpa using h.count
  have hle : keys.length + 1 ≤ 20 := by
    have hlen := h.le
    rwa [List.length_append, List.length_singleton] at hlen
  have hkeys : (removeTestKey t keys.length).stTestKeys =
      Function.update t.stTestKeys keys.length emptyKey := by
    rw [removeTestKey, hcount, Nat.add_sub_cancel, Nat.sub_self]
    rfl
  refine ⟨?_, by change _ ≤ 20; omega, (List.nodup_append.mp h.nodup).1,
    fun k hk => h.typed k (by simp [hk]), ?_, ?_⟩
  · change wordDec 16 t.wTestKeyCount = _
    rw [hcount, wordDec_of_pos (by omega) (by omega)]
    rfl
  · intro j hj
    rw [hkeys, Function.update_of_ne (by omega), ← h.place j (by simp; omega),
      List.getElem?_append_left hj]
  · intro j hj hlen
    rw [hkeys]
    by_cases hjl : j = keys.length
    · subst hjl
      simp [emptyKey]
    · rw [Function.update_of_ne hjl]
      exact h.rest j hj (by simp; omega)

theorem TestKeys.Holds.readTestKeyRow (h : t.Holds keys) {row : TestKeyRow} (hok : KeyRowOk t row) :
    (readTestKeyRow t row).Holds (liveKeysStep keys row) := by
  unfold Config.readTestKeyRow liveKeysStep
  by_cases hstatus : row.xrk_status = RECORD_STATUS_USE
  · simp only [hstatus, if_true]
    by_cases hmem : row.key ∈ keys
    · obtain ⟨i, hi⟩ := List.getElem?_of_mem hmem
      rw [(h.getTestKey_some row.type_ne).mpr hi, if_pos hmem]
      exact h
    · have hnone := (h.getTestKey_none (b := true) row.type_ne).mpr hmem
      obtain ⟨f, hf⟩ := Option.isSome_iff_exists.mp (hok.1 hstatus hnone)
      obtain ⟨rfl, hlt⟩ := h.getTestKey_free row.type_ne hmem hf
      rw [hnone, hf, if_neg hmem]
      exact h.add row hmem hlt
  · simp only [hstatus, if_false]
    by_cases hmem : row.key ∈ keys
    · obtain ⟨i, hi⟩ := List.getElem?_of_mem hmem
      have hfind := (h.getTestKey_some (b := true) row.type_ne).mpr hi
      have hlast := hok.2 hstatus i hfind
      rw [h.count] at hlast
      obtain ⟨init, last, rfl⟩ := keys.eq_nil_or_concat.resolve_left (List.ne_nil_of_mem hmem)
      rw [List.concat_eq_append] at hi h hlast hmem ⊢
      rw [List.length_append, List.length_singleton] at hlast
      obtain rfl : i = init.length := by omega
      obtain rfl : last = row.key := by simpa using hi
      have hnotMem : row.key ∉ init := by
        intro hm
        exact (List.nodup_append.mp h.nodup).2.2 _ hm _ (by simp) rfl
      rw [hfind, List.erase_append_right _ hnotMem]
      simpa using h.removeLast
    · rw [(h.getTestKey_none row.type_ne).mpr hmem, List.erase_of_not_mem hmem]
      exact h

theorem runTestKeys_holds {rows : List TestKeyRow} (h : t.Holds keys)
    (hrows : Admissible testKeyStep KeyRowOk t rows) :
    ∃ os t', runSteps testKeyStep t rows = some (os, t') ∧
      t'.Holds (rows.foldl liveKeysStep keys) := by
  induction rows generalizing t keys with
  | nil => exact ⟨[], t, rfl, h⟩
  | cons row rows ih =>
    obtain ⟨os, t', hrun, hholds⟩ := ih (h.readTestKeyRow hrows.1) (hrows.2 _ _ rfl)
    exact ⟨() :: os, t', by simp [runSteps, testKeyStep, hrun], hholds⟩

end Rows

/-- A row of key type 1 with a text of one byte. -/
def keyRow (byte : UInt8) (xrk_status : Int) : TestKeyRow where
  test_key_type := 1
  test_key := [byte]
  xrk_status := xrk_status
  type_ne := by decide
  short := by simp [SLOG_TEST_KEY_LEN]

end XrkMonitor.Config
