import XrkMonitor.Library.Ranges
import XrkMonitor.Library.SortedTable

/-!
# The table of address ranges

The server keeps its ranges of addresses with their province, city and owner in a shared array. A
table is looked up by `bsearch` with one of two comparisons: by the start of a range while it is
built, and by an address in a range later on. `CheckIpInfo` compares neighbours only, and that is
enough for every look-up of an address.

## Implementation notes

A text is stored in the entry itself or in the shared memory for variable lengths. The flag of
`bSaveFlag` and the member of the union that goes with it are one value. Only the first `iCount`
entries of the array are modelled, and a pointer to an entry is its number.
-/

namespace XrkMonitor.IpInfo

open Library

/-- `sprov` and `iProvVmemIdx` and the other unions, with their bit of `bSaveFlag`. -/
inductive SavedText
  | inline (text : List UInt8)
  | vmem (idx : Int)
deriving DecidableEq

structure TIpInfo where
  dwStart : UInt32
  dwEnd : UInt32
  sprov : SavedText
  scity : SavedText
  sowner : SavedText
deriving DecidableEq

namespace TIpInfo

/-- The first and the last address of a range, as numbers. -/
def first (info : TIpInfo) : Nat := info.dwStart.toNat

def last (info : TIpInfo) : Nat := info.dwEnd.toNat

end TIpInfo

/-- `TIpInfoShm::ips`, as far as `iCount` goes. -/
abbrev TIpInfoShm := List TIpInfo

/-- `IpInfoSearchCmp`; the key is an address. -/
def ipInfoSearchCmp (dwStart : UInt32) (pNode : TIpInfo) : Int :=
  if dwStart < pNode.dwStart then -1
  else if dwStart ≥ pNode.dwStart ∧ dwStart ≤ pNode.dwEnd then 0
  else 1

/-- `IpInfoInitCmp`. -/
def ipInfoInitCmp (dwStart : UInt32) (pNode : TIpInfo) : Int :=
  if dwStart < pNode.dwStart then -1 else if dwStart > pNode.dwStart then 1 else 0

/-- `CSupperLog::GetIpInfo`. -/
def getIpInfo (pfun : UInt32 → TIpInfo → Int) (ips : TIpInfoShm) (dwIpAddr : UInt32) : Option Nat :=
  if ips.length ≤ 0 then none else bsearch (pfun dwIpAddr) ips

/-- The loop of `CheckIpInfo` behind its first entry. -/
def checkIpInfoFrom (pInfoPrev : TIpInfo) : List TIpInfo → Int
  | [] => 0
  | info :: infos =>
    if pInfoPrev.dwStart > pInfoPrev.dwEnd then -161
    else if pInfoPrev.dwEnd ≥ info.dwStart then -165
    else checkIpInfoFrom info infos

/-- `CheckIpInfo`, with the line of an error as its code. -/
def checkIpInfo : TIpInfoShm → Int
  | [] => 0
  | info :: infos => checkIpInfoFrom info infos

theorem getIpInfo_eq (pfun : UInt32 → TIpInfo → Int) (ips : TIpInfoShm) (dwIpAddr : UInt32) :
    getIpInfo pfun ips dwIpAddr = bsearch (pfun dwIpAddr) ips := by
  unfold getIpInfo
  split_ifs with hempty
  · rw [List.length_eq_zero_iff.mp (Nat.le_zero.mp hempty)]
    rfl
  · rfl

theorem isChain_of_checkIpInfoFrom {info : TIpInfo} {infos : List TIpInfo}
    (h : checkIpInfoFrom info infos = 0) :
    (info :: infos).IsChain (EndsBefore TIpInfo.first TIpInfo.last) := by
  induction infos generalizing info with
  | nil => exact List.IsChain.singleton info
  | cons next infos ih =>
    rw [checkIpInfoFrom] at h
    split_ifs at h with hrange hnext
    rw [List.isChain_cons_cons]
    exact ⟨⟨UInt32.le_iff_toNat_le.mp (UInt32.not_lt.mp hrange),
      UInt32.lt_iff_toNat_lt.mp (UInt32.not_le.mp hnext)⟩, ih h⟩

theorem isChain_of_checkIpInfo {ips : TIpInfoShm} (h : checkIpInfo ips = 0) :
    ips.IsChain (EndsBefore TIpInfo.first TIpInfo.last) := by
  cases ips with
  | nil => exact List.IsChain.nil
  | cons info infos => exact isChain_of_checkIpInfoFrom h

theorem ipInfoSearchCmp_eq (dwIpAddr : UInt32) :
    ipInfoSearchCmp dwIpAddr = rangeCmp TIpInfo.first TIpInfo.last dwIpAddr.toNat := by
  funext info
  simp only [ipInfoSearchCmp, rangeCmp, Covers, TIpInfo.first, TIpInfo.last,
    UInt32.lt_iff_toNat_lt, UInt32.le_iff_toNat_le, ge_iff_le]
  rfl

/-- In an accepted table a look-up of an address finds the one range that has it, and nothing if
there is none. -/
theorem getIpInfo_finds (ips : TIpInfoShm) (h : checkIpInfo ips = 0) (dwIpAddr : UInt32) :
    FindsRange TIpInfo.first TIpInfo.last ips dwIpAddr.toNat
      (getIpInfo ipInfoSearchCmp ips dwIpAddr) := by
  rw [getIpInfo_eq, ipInfoSearchCmp_eq]
  exact findsRange_bsearch (pairwise_of_isChain (isChain_of_checkIpInfo h)) _

/-- An entry without texts. -/
def bareInfo (dwStart dwEnd : UInt32) : TIpInfo := ⟨dwStart, dwEnd, .inline [], .inline [], .inline []⟩

theorem getIpInfo_finds_gap :
    checkIpInfo [bareInfo 10 19, bareInfo 20 29, bareInfo 40 40] = 0 ∧
      (∀ dwIpAddr, FindsRange TIpInfo.first TIpInfo.last
        [bareInfo 10 19, bareInfo 20 29, bareInfo 40 40] dwIpAddr.toNat
        (getIpInfo ipInfoSearchCmp [bareInfo 10 19, bareInfo 20 29, bareInfo 40 40] dwIpAddr)) ∧
      getIpInfo ipInfoSearchCmp [bareInfo 10 19, bareInfo 20 29, bareInfo 40 40] 25 = some 1 ∧
      getIpInfo ipInfoSearchCmp [bareInfo 10 19, bareInfo 20 29, bareInfo 40 40] 30 = none :=
  ⟨by decide, getIpInfo_finds _ (by decide), by decide, by decide⟩

end XrkMonitor.IpInfo
