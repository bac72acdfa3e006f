import Mathlib.Data.Nat.Prime.Basic
import Mathlib.Tactic.Ring
import XrkMonitor.SharedHash.Keys
import XrkMonitor.SharedHash.Recovery

/-!
# The row sizes of a hash table

A hash table has ten rows, and a key has one cell in each: its short key modulo the size of the
row. `MtReport_CreateHashTable` moves down from the number of nodes to a smaller prime for every
row, so keys that collide in one row part in the next. The other two initialisers stay where they
are, and give all ten rows one size. Below eleven nodes a row of `MtReport_CreateHashTable` has no
cells; above `429496831` the number of cells does not fit into 32 bits.

## Implementation notes

`sqrt` of a 32-bit number in double precision rounds down to the integer square root. The shared
memory that an initialiser is given is the pair of numbers in its head, and the comparison function
is there.
-/

namespace XrkMonitor.SharedHash

open Library

/-- The row sizes that are still to be chosen; `next` is where the search for a row begins. -/
def rowSizes (next : Nat → Nat) : Nat → Nat → List Nat
  | 0, _ => []
  | rows + 1, dwTmp => rowFrom (next dwTmp) :: rowSizes next rows (rowFrom (next dwTmp))

/-- `dwRealNodeCount`, summed up in 32 bits. -/
def realNodeCount (dwNodeNums : List Nat) : Nat :=
  dwNodeNums.foldl (fun sum dwNodeNum => (sum + dwNodeNum) % 2 ^ 32) 0

/-- The sizes that an initialiser writes to the table. -/
structure HashSizes where
  dwNodeSize : Nat
  dwNodeCount : Nat
  dwNodeNums : List Nat
  dwRealNodeCount : Nat
  dwShareMemBytes : Nat
deriving DecidableEq

/-- The sizes that `MtReport_CreateHashTable` asks for: the rows begin at `dwTmp--`. -/
def createHashTableRows (cShmInit : Bool) (pHead : UInt32 × UInt32)
    (dwNodeSize dwNodeCount : UInt32) : Except Int HashSizes :=
  let dwNodeNums := rowNums STATIC_HASH_ROW_MAX dwNodeCount.toNat
  if dwNodeSize = 0 ∨ dwNodeCount = 0 then .error (-1)
  else if cShmInit = true ∧ pHead ≠ (dwNodeSize, dwNodeCount) then .error (-3)
  else .ok ⟨dwNodeSize.toNat, dwNodeCount.toNat, dwNodeNums, realNodeCount dwNodeNums,
    (29 + dwNodeCount.toNat * (dwNodeSize.toNat + 9)) % 2 ^ 32⟩

/-- The sizes of a table without a list: the rows begin at `dwTmp`. -/
def noListSizes (dwNodeSize dwNodeCount : UInt32) : HashSizes :=
  let dwNodeNums := rowSizes id STATIC_HASH_ROW_MAX dwNodeCount.toNat
  ⟨dwNodeSize.toNat, dwNodeCount.toNat, dwNodeNums, realNodeCount dwNodeNums,
    realNodeCount dwNodeNums * dwNodeSize.toNat % 2 ^ 32⟩

/-- `InitHashTable_NoList`; `shm` tells whether the shared memory is there or can be made. -/
def initHashTable_NoList (shm : Bool) (dwSharedKey dwNodeSize dwNodeCount : UInt32) :
    Except Int HashSizes :=
  if dwNodeSize = 0 ∨ dwNodeCount = 0 ∨ dwSharedKey = 0 then .error (-1)
  else if shm = false then .error (-2)
  else .ok (noListSizes dwNodeSize dwNodeCount)

/-- `InitHashTable_NoList_Heap`. -/
def initHashTable_NoList_Heap (dwNodeSize dwNodeCount : UInt32) : Except Int HashSizes :=
  if dwNodeSize = 0 ∨ dwNodeCount = 0 then .error (-1)
  else .ok (noListSizes dwNodeSize dwNodeCount)

/-- What the sizes are for: a look-up never divides by zero and stays among the cells, and keys
that collide in one row are spread in the next. -/
structure SizesRight (sizes : HashSizes) : Prop where
  pos : ∀ n ∈ sizes.dwNodeNums, 1 ≤ n
  decreasing : sizes.dwNodeNums.Pairwise fun n m => m < n
  prime : ∀ n ∈ sizes.dwNodeNums, 1002 ≤ n → n.Prime
  sum : sizes.dwRealNodeCount = sizes.dwNodeNums.sum
  probes : ∀ dwShortKey, ∀ c ∈ rowCells dwShortKey sizes.dwNodeNums 0, c < sizes.dwRealNodeCount

section Search

variable {n m p x y fuel i dwMax : Nat}

theorem isPrime_iff (h : 2 ≤ n) : isPrime n = true ↔ n.Prime := by
  have hsqrt : 0 < n.sqrt := Nat.sqrt_pos.mpr (by omega)
  rw [isPrime, List.all_eq_true, Nat.prime_def_le_sqrt]
  constructor
  · intro hall
    refine ⟨h, ?_⟩
    intro d hd hdmax hdvd
    have hne := hall d (List.mem_range'_1.mpr ⟨hd, by omega⟩)
    rw [Nat.mod_eq_zero_of_dvd hdvd] at hne
    exact absurd hne (by decide)
  · rintro ⟨-, hall⟩ d hd
    obtain ⟨hlow, hhigh⟩ := List.mem_range'_1.mp hd
    rw [bne_iff_ne]
    exact fun hzero => hall d hlow (by omega) (Nat.dvd_of_mod_eq_zero hzero)

/-- The numbers at which a search stops. -/
def Stops (n : Nat) : Prop := n ≤ 1001 ∨ n.Prime

theorem stops_iff : Stops n ↔ ¬ 1002 ≤ n ∨ isPrime n = true := by
  unfold Stops
  by_cases h : 1002 ≤ n
  · rw [isPrime_iff (by omega)]
    exact or_congr_left (iff_of_false (by omega) (not_not.mpr h))
  · exact iff_of_true (Or.inl (by omega)) (Or.inl h)

theorem rowFrom_of_stops (h : Stops n) : rowFrom n = n := by
  cases n with
  | zero => rfl
  | succ n =>
    rw [rowFrom]
    rcases stops_iff.mp h with hsmall | hprime
    · rw [decide_eq_false hsmall, Bool.false_and, if_neg (by decide)]
    · rw [hprime, Bool.not_true, Bool.and_false, if_neg (by decide)]

theorem rowFrom_of_not_stops (h : ¬ Stops (n + 1)) : rowFrom (n + 1) = rowFrom n := by
  have hnot := not_or.mp (stops_iff.not.mp h)
  have hprime : isPrime (n + 1) = false := Bool.eq_false_iff.mpr hnot.2
  rw [rowFrom, decide_eq_true (not_not.mp hnot.1), hprime, Bool.not_false, Bool.true_and,
    if_pos rfl]

theorem rowFrom_spec (n : Nat) :
    Stops (rowFrom n) ∧ rowFrom n ≤ n ∧ ∀ m, Stops m → m ≤ n → m ≤ rowFrom n := by
  induction n with
  | zero => exact ⟨Or.inl (by decide), le_rfl, fun m _ hm => hm⟩
  | succ n ih =>
    by_cases hstop : Stops (n + 1)
    · rw [rowFrom_of_stops hstop]
      exact ⟨hstop, le_rfl, fun m _ hm => hm⟩
    · rw [rowFrom_of_not_stops hstop]
      refine ⟨ih.1, ih.2.1.trans (Nat.le_succ n), ?_⟩
      intro m hm hle
      refine ih.2.2 m hm (Nat.lt_succ_iff.mp (lt_of_le_of_ne hle ?_))
      rintro rfl
      exact hstop hm

theorem rowFrom_mono (h : n ≤ m) : rowFrom n ≤ rowFrom m :=
  (rowFrom_spec m).2.2 _ (rowFrom_spec n).1 ((rowFrom_spec n).2.1.trans h)

theorem rowFrom_eq (hp : p.Prime) (hle : p ≤ n) (hlarge : 1001 ≤ p)
    (hnone : ∀ m, p < m → m ≤ n → ¬ m.Prime) : rowFrom n = p := by
  obtain ⟨hstop, hle', hmax⟩ := rowFrom_spec n
  refine le_antisymm (not_lt.mp fun hlt => ?_) (hmax p (Or.inr hp) hle)
  rcases hstop with hsmall | hprime
  · omega
  · exact hnone _ hlt hle' hprime

end Search

section Rows

variable {r a b dwTmp : Nat}

theorem rowSizes_decreasing (hrows : r < dwTmp) (hsmall : r ≤ 1001) (hlt : dwTmp < 2 ^ 32) :
    (∀ n ∈ rowSizes (wordDec 32) r dwTmp, 1 ≤ n ∧ n < dwTmp ∧ Stops n) ∧
      (rowSizes (wordDec 32) r dwTmp).Pairwise fun n m => m < n := by
  induction r generalizing dwTmp with
  | zero => exact ⟨fun n hn => absurd hn List.not_mem_nil, List.Pairwise.nil⟩
  | succ r ih =>
    rw [rowSizes, wordDec_of_pos (by omega) hlt]
    obtain ⟨hstop, hle, hmax⟩ := rowFrom_spec (dwTmp - 1)
    have hrest : r + 1 ≤ rowFrom (dwTmp - 1) := hmax _ (Or.inl hsmall) (by omega)
    obtain ⟨hall, hpair⟩ := ih hrest (by omega) (by omega)
    refine ⟨?_, List.pairwise_cons.mpr ⟨fun n hn => (hall n hn).2.1, hpair⟩⟩
    intro n hn
    rcases List.mem_cons.mp hn with rfl | hn
    · exact ⟨by omega, by omega, hstop⟩
    · obtain ⟨hpos, hlt', hstop'⟩ := hall n hn
      exact ⟨hpos, by omega, hstop'⟩

theorem zero_mem_rowSizes (hpos : 0 < dwTmp) (hrows : dwTmp ≤ r) (hsmall : r ≤ 1001) :
    0 ∈ rowSizes (wordDec 32) r dwTmp := by
  induction r generalizing dwTmp with
  | zero => omega
  | succ r ih =>
    rw [rowSizes, wordDec_of_pos hpos (by omega), rowFrom_of_stops (Or.inl (by omega))]
    rcases Nat.eq_zero_or_pos (dwTmp - 1) with hzero | hpos'
    · rw [hzero]
      exact List.mem_cons_self
    · exact List.mem_cons_of_mem _ (ih hpos' (by omega) (by omega))

theorem sum_rowSizes_mono (hrows : r < a) (hab : a ≤ b) (hsmall : r ≤ 1001)
    (hlt : b < 2 ^ 32) :
    (rowSizes (wordDec 32) r a).sum ≤ (rowSizes (wordDec 32) r b).sum := by
  induction r generalizing a b with
  | zero => exact le_rfl
  | succ r ih =>
    rw [rowSizes, rowSizes, wordDec_of_pos (by omega) (by omega), wordDec_of_pos (by omega) hlt,
      List.sum_cons, List.sum_cons]
    have hmono : rowFrom (a - 1) ≤ rowFrom (b - 1) := rowFrom_mono (by omega)
    have hrest : r + 1 ≤ rowFrom (a - 1) :=
      (rowFrom_spec (a - 1)).2.2 _ (Or.inl hsmall) (by omega)
    have hle := (rowFrom_spec (b - 1)).2.1
    exact add_le_add hmono (ih hrest hmono (by omega) (by omega))

theorem foldl_wordSum (l : List Nat) (sum : Nat) (h : sum < 2 ^ 32) :
    l.foldl (fun sum n => (sum + n) % 2 ^ 32) sum = (sum + l.sum) % 2 ^ 32 := by
  induction l generalizing sum with
  | nil =>
    rw [List.sum_nil, add_zero, Nat.mod_eq_of_lt h]
    rfl
  | cons n l ih =>
    rw [List.foldl_cons, ih _ (Nat.mod_lt _ (by decide)), List.sum_cons, Nat.mod_add_mod, add_assoc]

theorem realNodeCount_eq (l : List Nat) : realNodeCount l = l.sum % 2 ^ 32 := by
  rw [realNodeCount, foldl_wordSum l 0 (by decide), zero_add]

theorem rowSizes_id (r dwTmp : Nat) :
    rowSizes id r dwTmp = List.replicate r (rowFrom dwTmp) := by
  induction r generalizing dwTmp with
  | zero => rfl
  | succ r ih =>
    rw [rowSizes, id, ih, rowFrom_of_stops (rowFrom_spec dwTmp).1]
    rfl

end Rows

section Limit

/-- The product of `2 ^ k` numbers from `m`. -/
def blockProduct : Nat → Nat → Nat
  | 0, m => m
  | k + 1, m => blockProduct k m * blockProduct k (m + 2 ^ k)

theorem dvd_blockProduct {k m d : Nat} (hm : m ≤ d) (hd : d < m + 2 ^ k) : d ∣ blockProduct k m := by
  induction k generalizing m with
  | zero =>
    obtain rfl : d = m := by omega
    exact dvd_rfl
  | succ k ih =>
    rw [blockProduct]
    rw [pow_succ] at hd
    by_cases hlow : d < m + 2 ^ k
    · exact (ih hm hlow).mul_right _
    · exact (ih (not_lt.mp hlow) (by omega)).mul_left _

theorem exists_dvd_of_dvd_blockProduct {k m q : Nat} (hq : q.Prime) (h : q ∣ blockProduct k m) :
    ∃ d, m ≤ d ∧ d < m + 2 ^ k ∧ q ∣ d := by
  induction k generalizing m with
  | zero => exact ⟨m, le_rfl, by omega, h⟩
  | succ k ih =>
    rw [pow_succ]
    rcases (hq.dvd_mul).mp h with h | h
    · obtain ⟨d, hm, hd, hdvd⟩ := ih h
      exact ⟨d, hm, by omega, hdvd⟩
    · obtain ⟨d, hm, hd, hdvd⟩ := ih h
      exact ⟨d, by omega, by omega, hdvd⟩

theorem prime_iff_gcd_blockProduct {n : Nat} (hlow : 2 ^ 15 + 2 ≤ n) (hhigh : n < 2 ^ 30) :
    n.Prime ↔ n.gcd (blockProduct 15 2) = 1 := by
  constructor
  · intro hn
    rcases (Nat.coprime_or_dvd_of_prime hn (blockProduct 15 2)) with hcop | hdvd
    · exact hcop
    · obtain ⟨d, hd, hlt, hnd⟩ := exists_dvd_of_dvd_blockProduct hn hdvd
      exact absurd (Nat.le_of_dvd (by omega) hnd) (by omega)
  · intro hgcd
    rw [Nat.prime_def_le_sqrt]
    refine ⟨by omega, ?_⟩
    intro d hd hsqrt hdvd
    have hsmall : d < 2 + 2 ^ 15 := by
      have hlt : n.sqrt < 2 ^ 15 := Nat.sqrt_lt'.mpr (by omega)
      omega
    have hone : d ∣ 1 := hgcd ▸ Nat.dvd_gcd hdvd (dvd_blockProduct hd hsmall)
    have hle := Nat.le_of_dvd one_pos hone
    omega

/-- The primes about a tenth of `2 ^ 32`. -/
def nearPrimes : List Nat :=
  [429496831, 429496817, 429496799, 429496783, 429496759, 429496751, 429496709, 429496681,
    429496667, 429496649, 429496637]

theorem filter_nearPrimes :
    (List.range' 429496637 195).filter (fun m => m.gcd (blockProduct 15 2) = 1) =
      nearPrimes.reverse := by
  decide +kernel

theorem prime_iff_nearPrimes {n : Nat} (hlow : 429496637 ≤ n) (hhigh : n ≤ 429496831) :
    n.Prime ↔ n ∈ nearPrimes := by
  rw [prime_iff_gcd_blockProduct (by omega) (by omega), ← List.mem_reverse, ← filter_nearPrimes,
    List.mem_filter, List.mem_range'_1, decide_eq_true_iff]
  exact (and_iff_right ⟨hlow, by omega⟩).symm

theorem rowFrom_pred {p q : Nat} (hq : q ∈ nearPrimes) (hlow : 429496637 ≤ q) (hqp : q < p)
    (hp : p ≤ 429496832) (hnext : ∀ r ∈ nearPrimes, r ≤ q ∨ p ≤ r) : rowFrom (p - 1) = q := by
  refine rowFrom_eq ((prime_iff_nearPrimes hlow (by omega)).mpr hq) (by omega) (by omega) ?_
  intro m hm hle hprime
  have hmem := (prime_iff_nearPrimes (by omega) (by omega)).mp hprime
  rcases hnext m hmem with hle' | hge
  · omega
  · omega

end Limit

section Sizes

theorem sum_rowSizes_limit :
    (rowSizes (wordDec 32) STATIC_HASH_ROW_MAX 429496831).sum = 4294967252 ∧
      (rowSizes (wordDec 32) STATIC_HASH_ROW_MAX 429496832).sum = 4294967446 := by
  have hrow : ∀ p q rows, q ∈ nearPrimes → 429496637 ≤ q → q < p → p ≤ 429496832 →
      (∀ r ∈ nearPrimes, r ≤ q ∨ p ≤ r) →
      rowSizes (wordDec 32) (rows + 1) p = q :: rowSizes (wordDec 32) rows q := by
    intro p q rows hq hlow hqp hp hnext
    rw [rowSizes, wordDec_of_pos (by omega) (by omega), rowFrom_pred hq hlow hqp hp hnext]
  have hnine : ∀ k, rowSizes (wordDec 32) (k + 9) 429496831 =
      [429496817, 429496799, 429496783, 429496759, 429496751, 429496709, 429496681, 429496667,
        429496649] ++ rowSizes (wordDec 32) k 429496649 := by
    intro k
    rw [hrow 429496831 429496817 (k + 8), hrow 429496817 429496799 (k + 7),
      hrow 429496799 429496783 (k + 6), hrow 429496783 429496759 (k + 5),
      hrow 429496759 429496751 (k + 4), hrow 429496751 429496709 (k + 3),
      hrow 429496709 429496681 (k + 2), hrow 429496681 429496667 (k + 1),
      hrow 429496667 429496649 k]
    all_goals first | rfl | decide
  refine ⟨?_, ?_⟩
  · rw [STATIC_HASH_ROW_MAX, hnine 1, hrow 429496649 429496637 0]
    all_goals first | rfl | decide
  · rw [STATIC_HASH_ROW_MAX, hrow 429496832 429496831 9, hnine 0]
    all_goals first | rfl | decide

theorem sum_rowSizes_lt_iff {n : Nat} (hn : 11 ≤ n) (hlt : n < 2 ^ 32) :
    (rowSizes (wordDec 32) STATIC_HASH_ROW_MAX n).sum < 2 ^ 32 ↔ n ≤ 429496831 := by
  constructor
  · intro hsum
    by_contra hnot
    have hmono := sum_rowSizes_mono (r := STATIC_HASH_ROW_MAX) (a := 429496832) (b := n)
      (by decide) (by omega) (by decide) hlt
    rw [sum_rowSizes_limit.2] at hmono
    omega
  · intro hle
    have hmono := sum_rowSizes_mono (r := STATIC_HASH_ROW_MAX) (a := n) (b := 429496831)
      (lt_of_lt_of_le (by decide) hn) hle (by decide) (by decide)
    rw [sum_rowSizes_limit.1] at hmono
    omega

theorem createHashTableRows_sizes {cShmInit : Bool} {pHead : UInt32 × UInt32}
    {dwNodeSize dwNodeCount : UInt32} {sizes : HashSizes}
    (h : createHashTableRows cShmInit pHead dwNodeSize dwNodeCount = .ok sizes) :
    0 < dwNodeCount.toNat ∧
      sizes.dwNodeNums = rowSizes (wordDec 32) STATIC_HASH_ROW_MAX dwNodeCount.toNat ∧
      sizes.dwRealNodeCount = realNodeCount sizes.dwNodeNums := by
  unfold createHashTableRows at h
  split_ifs at h with hzero hhead
  obtain rfl := Except.ok.inj h
  have hne : dwNodeCount ≠ 0 := (not_or.mp hzero).2
  refine ⟨Nat.pos_of_ne_zero fun hz => hne ?_, rfl, rfl⟩
  exact UInt32.toNat_inj.mp hz

theorem not_sizesRight_noList (dwNodeSize dwNodeCount : UInt32) :
    ¬ SizesRight (noListSizes dwNodeSize dwNodeCount) := by
  intro hright
  have hdec := hright.decreasing
  rw [noListSizes, rowSizes_id] at hdec
  have hlt := (List.pairwise_cons.mp hdec).1 (rowFrom dwNodeCount.toNat)
    (List.mem_cons_self)
  exact lt_irrefl _ hlt

/-- The sizes of `MtReport_CreateHashTable` are right from 11 to 429496831 nodes and for no other
number of nodes; those of the other two initialisers are never right. -/
theorem hashSizes_right (dwNodeSize dwNodeCount : UInt32) (sizes : HashSizes) :
    (∀ (cShmInit : Bool) (pHead : UInt32 × UInt32),
      createHashTableRows cShmInit pHead dwNodeSize dwNodeCount = .ok sizes →
        (SizesRight sizes ↔ 11 ≤ dwNodeCount.toNat ∧ dwNodeCount.toNat ≤ 429496831)) ∧
    (∀ (shm : Bool) (dwSharedKey : UInt32),
      initHashTable_NoList shm dwSharedKey dwNodeSize dwNodeCount = .ok sizes →
        ¬ SizesRight sizes) ∧
    (initHashTable_NoList_Heap dwNodeSize dwNodeCount = .ok sizes → ¬ SizesRight sizes) := by
  refine ⟨?_, ?_, ?_⟩
  · intro cShmInit pHead h
    obtain ⟨hpos, hnums, hreal⟩ := createHashTableRows_sizes h
    have hlt : dwNodeCount.toNat < 2 ^ 32 := dwNodeCount.toNat_lt
    constructor
    · intro hright
      have h11 : 11 ≤ dwNodeCount.toNat := by
        by_contra hnot
        have hzero := zero_mem_rowSizes (r := STATIC_HASH_ROW_MAX) hpos
          (Nat.lt_succ_iff.mp (not_le.mp hnot)) (by decide)
        rw [← hnums] at hzero
        exact absurd (hright.pos 0 hzero) (by decide)
      refine ⟨h11, (sum_rowSizes_lt_iff h11 hlt).mp ?_⟩
      have hsum := hright.sum
      rw [hreal, realNodeCount_eq] at hsum
      rw [← hnums, ← hsum]
      exact Nat.mod_lt _ (by decide)
    · rintro ⟨h11, hmax⟩
      obtain ⟨hall, hdec⟩ := rowSizes_decreasing (r := STATIC_HASH_ROW_MAX)
        (lt_of_lt_of_le (by decide) h11) (by decide) hlt
      rw [← hnums] at hall hdec
      have hsum : sizes.dwRealNodeCount = sizes.dwNodeNums.sum := by
        have hfit := (sum_rowSizes_lt_iff h11 hlt).mpr hmax
        rw [← hnums] at hfit
        rw [hreal, realNodeCount_eq, Nat.mod_eq_of_lt hfit]
      refine ⟨fun n hn => (hall n hn).1, hdec, ?_, hsum, ?_⟩
      · intro n hn hlarge
        rcases (hall n hn).2.2 with hsmall | hprime
        · omega
        · exact hprime
      · intro dwShortKey c hc
        have hlt := lt_of_mem_rowCells (fun n hn => (hall n hn).1) hc
        omega
  · intro shm dwSharedKey h
    unfold initHashTable_NoList at h
    split_ifs at h
    obtain rfl := Except.ok.inj h
    exact not_sizesRight_noList dwNodeSize dwNodeCount
  · intro h
    unfold initHashTable_NoList_Heap at h
    split_ifs at h
    obtain rfl := Except.ok.inj h
    exact not_sizesRight_noList dwNodeSize dwNodeCount

def tenNodes : HashSizes := ⟨8, 10, [9, 8, 7, 6, 5, 4, 3, 2, 1, 0], 45, 199⟩

def elevenRow : HashSizes := ⟨8, 11, [10, 9, 8, 7, 6, 5, 4, 3, 2, 1], 55, 216⟩

theorem hashSizes_right_eleven :
    (createHashTableRows false (0, 0) 8 11 = .ok elevenRow ∧ SizesRight elevenRow) ∧
      ¬ SizesRight (noListSizes 8 2000) :=
  ⟨⟨rfl, ((hashSizes_right 8 11 elevenRow).1 false (0, 0) rfl).mpr (by decide)⟩,
    (hashSizes_right 8 2000 (noListSizes 8 2000)).2.1 true 1 rfl⟩

/-- With ten nodes the tenth row of `MtReport_CreateHashTable` has no cell, and with any number of
nodes the rows of the other two initialisers have one size. -/
theorem hashSizes_wrong :
    (createHashTableRows false (0, 0) 8 10 = .ok tenNodes ∧ ¬ SizesRight tenNodes) ∧
      (initHashTable_NoList true 1 8 2000 = .ok (noListSizes 8 2000) ∧
        initHashTable_NoList_Heap 8 2000 = .ok (noListSizes 8 2000) ∧
        ¬ SizesRight (noListSizes 8 2000)) := by
  refine ⟨⟨rfl, ?_⟩, rfl, rfl, not_sizesRight_noList 8 2000⟩
  intro hright
  exact absurd (hright.pos 0 (by decide)) (by decide)

end Sizes

end XrkMonitor.SharedHash
