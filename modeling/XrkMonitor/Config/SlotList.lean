import Mathlib.Data.List.Perm.Subperm
import XrkMonitor.Config.ILink

/-!
# Tables of slots

A table has an array of slots, a key in each slot that is `0` while the slot is
free, a list of the slots in use and the number of them. The look-ups of the
array tables walk the slots with one loop, `searchSlots`; it stops early once it
has passed as many used slots as the table counts. `SlotList.Ok` is the invariant
of a table, and `addFirst` and `removeSlot` keep it.
-/

namespace XrkMonitor.Config

open Library

/-- The loop of `GetAppInfo`, `GetSlogConfig`, `GetViewInfoIndex` and `GetTestKey`: the slot that
matches, and the first free slot if none does. -/
def searchSlots (hit free : Nat → Bool) (iCount : Int) (bFirstFree : Bool) :
    List Nat → Nat → Option Nat → Option Nat × Option Nat
  | [], _, iFirstFree => (none, iFirstFree)
  | j :: js, i, iFirstFree =>
    if hit j then (some j, none)
    else if free j then searchSlots hit free iCount bFirstFree js i (iFirstFree.or (some j))
    else if decide (iCount ≤ (i : Int) + 1) && (!bFirstFree || iFirstFree.isSome) then
      (none, iFirstFree)
    else searchSlots hit free iCount bFirstFree js (i + 1) iFirstFree

section Search

variable {hit free : Nat → Bool} {iCount : Int} {bFirstFree : Bool} {js : List Nat} {i : Nat}
  {iFirstFree : Option Nat}

theorem find?_eq_none_of_passed (hcount : js.countP (fun j => !free j) = 0)
    (hused : ∀ j ∈ js, hit j = true → free j = false) : js.find? hit = none := by
  rw [List.find?_eq_none]
  intro j hj hhit
  have hzero := List.countP_eq_zero.mp hcount j hj
  simp [hused j hj hhit] at hzero

theorem searchSlots_fst (hcount : iCount = i + js.countP (fun j => !free j))
    (hused : ∀ j ∈ js, hit j = true → free j = false) :
    (searchSlots hit free iCount bFirstFree js i iFirstFree).1 = js.find? hit := by
  induction js generalizing i iFirstFree with
  | nil => rfl
  | cons j js ih =>
    have hused' : ∀ j ∈ js, hit j = true → free j = false :=
      fun k hk => hused k (List.mem_cons_of_mem _ hk)
    rw [List.countP_cons] at hcount
    unfold searchSlots
    cases hhit : hit j with
    | true => simp [hhit]
    | false =>
      rw [List.find?_cons_of_neg (by simp [hhit])]
      cases hfree : free j with
      | true => exact ih (by simpa [hfree] using hcount) hused'
      | false =>
        simp only [hfree, Bool.not_false, if_true] at hcount
        simp only [Bool.false_eq_true, if_false]
        split
        · rename_i hstop
          have hle : iCount ≤ (i : Int) + 1 := by
            simp only [Bool.and_eq_true, decide_eq_true_eq] at hstop
            exact hstop.1
          exact (find?_eq_none_of_passed (by omega) hused').symm
        · exact ih (by push_cast at hcount ⊢; omega) hused'

theorem searchSlots_snd (hmiss : js.find? hit = none) :
    (searchSlots hit free iCount true js i iFirstFree).2 = iFirstFree.or (js.find? free) := by
  induction js generalizing i iFirstFree with
  | nil => simp [searchSlots]
  | cons j js ih =>
    have hall := List.find?_eq_none.mp hmiss
    have hhit : hit j = false := by simpa using hall j (by simp)
    have hmiss' : js.find? hit = none :=
      List.find?_eq_none.mpr fun k hk => hall k (List.mem_cons_of_mem _ hk)
    unfold searchSlots
    simp only [hhit, Bool.false_eq_true, if_false]
    cases hfree : free j with
    | true =>
      rw [List.find?_cons_of_pos hfree]
      simp only [if_true, ih hmiss']
      cases iFirstFree with
      | none => rfl
      | some f => rfl
    | false =>
      rw [List.find?_cons_of_neg (by simp [hfree])]
      simp only [Bool.false_eq_true, if_false]
      split
      · rename_i hstop
        obtain ⟨f, rfl⟩ : ∃ f, iFirstFree = some f := by
          simp only [Bool.not_true, Bool.false_or, Bool.and_eq_true] at hstop
          exact Option.isSome_iff_exists.mp hstop.2
        rfl
      · exact ih hmiss'

end Search

/-- The slots in use are those of `l`. -/
structure LiveSlots (count : Nat) (id : Nat → Int) (l : List Nat) : Prop where
  nodup : l.Nodup
  mem : ∀ c, c ∈ l ↔ c < count ∧ id c ≠ 0

namespace LiveSlots

variable {count c : Nat} {id : Nat → Int} {l : List Nat}

theorem insert (h : LiveSlots count id l) (hlt : c < count) (hfree : id c = 0) {key : Int}
    (hkey : key ≠ 0) : LiveSlots count (Function.update id c key) (c :: l) where
  nodup := List.nodup_cons.mpr ⟨fun hc => ((h.mem c).mp hc).2 hfree, h.nodup⟩
  mem := by
    intro d
    by_cases hd : d = c
    · subst hd
      simp [hlt, hkey]
    · simpa [hd] using h.mem d

theorem erase (h : LiveSlots count id l) : LiveSlots count (Function.update id c 0) (l.erase c) where
  nodup := h.nodup.erase c
  mem := by
    intro d
    rw [h.nodup.mem_erase_iff]
    by_cases hd : d = c
    · subst hd
      simp
    · simpa [hd] using h.mem d

theorem length_le (h : LiveSlots count id l) : l.length ≤ count := by
  have hsub : l ⊆ List.range count := fun c hc => List.mem_range.mpr ((h.mem c).mp hc).1
  simpa using (List.subperm_of_subset h.nodup hsub).length_le

theorem countP_used (h : LiveSlots count id l) :
    (List.range count).countP (fun j => !(id j == 0)) = l.length := by
  have hperm : List.Perm ((List.range count).filter fun j => !(id j == 0)) l := by
    rw [List.perm_ext_iff_of_nodup (List.nodup_range.filter _) h.nodup]
    intro c
    simp [h.mem c]
  rw [List.countP_eq_length_filter, hperm.length_eq]

end LiveSlots

/-- The slots of one table with their list and count in `MtSystemConfig`. -/
structure SlotList where
  id : Nat → Int
  links : ILinks
  wCount : Nat

namespace SlotList

/-- Zeroed memory. -/
def empty : SlotList where
  id := fun _ => 0
  links := ILinks.zero
  wCount := 0

/-- A slot becomes the first one of the list; `bFirst` is the callers' test for an empty list. -/
def addFirst (count : Nat) (bFirst : Bool) (t : SlotList) (idx : Nat) : Option SlotList :=
  if bFirst then
    some { t with
      links := ilinkSetFirst t.links idx
      wCount := 1 }
  else do
    let first ← slotRef count t.links.iIndexStart
    some { t with
      links := ilinkInsertFirst t.links first idx
      wCount := wordInc 16 t.wCount }

/-- A slot is freed and taken out of the list. -/
def removeSlot (count : Nat) (t : SlotList) (idx : Nat) : Option SlotList := do
  let links ← ilinkUnlink count t.links idx
  some { t with
    id := Function.update t.id idx 0
    links := links
    wCount := wordDec 16 t.wCount }

def setId (t : SlotList) (idx : Nat) (id : Int) : SlotList :=
  { t with
    id := Function.update t.id idx id }

/-- A slot in use. -/
def Live (count : Nat) (t : SlotList) (c : Nat) : Prop := c < count ∧ t.id c ≠ 0

/-- The list walks over `l` in both directions; before the first slot is added, the start and
end index are still those of zeroed memory. -/
def Chained (t : SlotList) (l : List Nat) : Prop :=
  Linked t.links l ∨ l = [] ∧ t.links.iIndexStart = 0 ∧ t.links.iIndexEnd = 0

/-- The slots of `l` are those in use, and the list and the count are about them. -/
structure Ok (count : Nat) (t : SlotList) (l : List Nat) : Prop where
  nodup : l.Nodup
  mem : ∀ c, c ∈ l ↔ t.Live count c
  chained : t.Chained l
  len : t.wCount = l.length

/-- The slots in use are those of a list that ends at `-1` in both directions. -/
def AlwaysLinked (count : Nat) (t : SlotList) : Prop :=
  ∃ l : List Nat, (∀ c, c ∈ l ↔ t.Live count c) ∧ Linked t.links l ∧ t.wCount = l.length

variable {count c : Nat} {t : SlotList} {l : List Nat} {bFirst : Bool}

theorem addFirst_setId (count : Nat) (bFirst : Bool) (t : SlotList) (c : Nat) (id : Int) :
    (addFirst count bFirst t c).map (fun t' => t'.setId c id) =
      addFirst count bFirst (t.setId c id) c := by
  cases bFirst with
  | true => rfl
  | false =>
    unfold addFirst
    simp only [Bool.false_eq_true, if_false, setId]
    cases slotRef count t.links.iIndexStart with
    | none => rfl
    | some first => rfl

theorem id_of_addFirst {t' : SlotList} (h : addFirst count bFirst t c = some t') : t'.id = t.id := by
  rw [addFirst] at h
  split at h
  · rw [← Option.some.inj h]
  · obtain ⟨first, -, h⟩ := Option.bind_eq_some_iff.mp h
    rw [← Option.some.inj h]

theorem empty_ok (count : Nat) : Ok count empty [] where
  nodup := List.nodup_nil
  mem := by simp [Live, empty]
  chained := Or.inr ⟨rfl, rfl, rfl⟩
  len := rfl

theorem Ok.lt (h : Ok count t l) : ∀ c ∈ l, c < count := fun c hc => ((h.mem c).mp hc).1

theorem Ok.liveSlots (h : Ok count t l) : LiveSlots count t.id l := ⟨h.nodup, h.mem⟩

theorem Ok.length_le (h : Ok count t l) : l.length ≤ count := h.liveSlots.length_le

theorem Ok.linked (h : Ok count t l) (hl : l ≠ []) : Linked t.links l :=
  h.chained.resolve_right fun hfresh => hl hfresh.1

theorem Ok.alwaysLinked (h : Ok count t l) (hpos : t.wCount ≠ 0) : t.AlwaysLinked count := by
  have hl : l ≠ [] := by
    rintro rfl
    exact hpos h.len
  exact ⟨l, h.mem, h.linked hl, h.len⟩

theorem Ok.add (h : Ok count t l) (hsize : count < 2 ^ 16) (hlt : c < count) (hfree : t.id c = 0)
    (hfirst : bFirst = true ↔ l = []) {id : Int} (hid : id ≠ 0) :
    ∃ t', addFirst count bFirst (t.setId c id) c = some t' ∧
      t'.id = Function.update t.id c id ∧ Ok count t' (c :: l) := by
  have hc : c ∉ l := fun hm => ((h.mem c).mp hm).2 hfree
  have hlive := h.liveSlots.insert hlt hfree hid
  by_cases hl : l = []
  · subst hl
    have hadd : addFirst count bFirst (t.setId c id) c = some { t.setId c id with
        links := ilinkSetFirst t.links c
        wCount := 1 } := by
      rw [addFirst, if_pos (hfirst.mpr rfl)]
      rfl
    exact ⟨_, hadd, rfl, hlive.nodup, hlive.mem, Or.inl (linked_setFirst t.links c), rfl⟩
  · have hlinked := h.linked hl
    obtain ⟨d, hd, hstart⟩ := hlinked.start_eq hl
    have href : slotRef count t.links.iIndexStart = some t.links.iIndexStart := by
      have := h.lt d hd
      rw [slotRef, hstart, if_pos (by omega)]
    have hadd : addFirst count bFirst (t.setId c id) c = some { t.setId c id with
        links := ilinkInsertFirst t.links t.links.iIndexStart c
        wCount := wordInc 16 t.wCount } := by
      rw [addFirst, if_neg (fun hb => hl (hfirst.mp hb))]
      change (slotRef count t.links.iIndexStart).bind _ = _
      rw [href]
      rfl
    refine ⟨_, hadd, rfl, hlive.nodup, hlive.mem, Or.inl (hlinked.insertFirst hl hc), ?_⟩
    have hlen : (c :: l).length ≤ count := hlive.length_le
    rw [List.length_cons] at hlen
    change wordInc 16 t.wCount = _
    rw [h.len, wordInc_of_lt (by omega)]
    rfl

theorem Ok.unlink (h : Ok count t l) (hc : c ∈ l) :
    ∃ links, ilinkUnlink count t.links c = some links ∧ Linked links (l.erase c) :=
  (h.linked (List.ne_nil_of_mem hc)).unlink h.lt hc

theorem Ok.erase (h : Ok count t l) {links : ILinks} {wCount : Nat}
    (hlinked : Linked links (l.erase c)) (hlen : wCount = (l.erase c).length) :
    Ok count ⟨Function.update t.id c 0, links, wCount⟩ (l.erase c) :=
  ⟨h.liveSlots.erase.nodup, h.liveSlots.erase.mem, Or.inl hlinked, hlen⟩

theorem Ok.wordDec_wCount (h : Ok count t l) (hsize : count < 2 ^ 16) (hc : c ∈ l) :
    wordDec 16 t.wCount = (l.erase c).length := by
  have hpos : 0 < l.length := List.length_pos_of_mem hc
  have hle := h.length_le
  rw [h.len, wordDec_of_pos hpos (by omega), List.length_erase_of_mem hc]

theorem Ok.remove (h : Ok count t l) (hsize : count < 2 ^ 16) (hc : c ∈ l) :
    ∃ t', removeSlot count t c = some t' ∧ t'.id = Function.update t.id c 0 ∧
      Ok count t' (l.erase c) := by
  obtain ⟨links, hunlink, hlinked⟩ := h.unlink hc
  exact ⟨⟨Function.update t.id c 0, links, wordDec 16 t.wCount⟩, by rw [removeSlot, hunlink]; rfl,
    rfl, h.erase hlinked (h.wordDec_wCount hsize hc)⟩

end SlotList

/-- The look-up of a key in an array table; `iCount` is the number of used slots that the table
itself counts. -/
def getSlot (count : Nat) (id : Nat → Int) (iCount : Int) (bFirstFree : Bool) (key : Int) :
    Option Nat × Option Nat :=
  searchSlots (fun j => id j == key) (fun j => id j == 0) iCount bFirstFree (List.range count) 0 none

/-- The first slot with a key. -/
def slotWith (count : Nat) (id : Nat → Int) (key : Int) : Option Nat :=
  (List.range count).find? fun j => id j == key

variable {id : Nat → Int}

theorem slotWith_some {count c : Nat} {key : Int}
    (h : slotWith count id key = some c) : c < count ∧ id c = key :=
  ⟨List.mem_range.mp (List.mem_of_find?_eq_some h), by simpa using List.find?_some h⟩

theorem slotWith_none {count : Nat} {key : Int}
    (h : slotWith count id key = none) : ∀ c < count, id c ≠ key := by
  intro c hc
  simpa using List.find?_eq_none.mp h c (List.mem_range.mpr hc)

theorem getSlot_eq_slotWith {count : Nat} {iCount key : Int} {bFirstFree : Bool}
    (hcount : iCount = (List.range count).countP fun j => !(id j == 0)) (hkey : key ≠ 0) :
    (getSlot count id iCount bFirstFree key).1 = slotWith count id key := by
  apply searchSlots_fst
  · rw [hcount]
    simp
  · intro j _ hhit
    rw [beq_iff_eq] at hhit
    simpa [hhit] using hkey

namespace SlotList

variable {count c : Nat} {t : SlotList} {l : List Nat} {iCount key : Int} {bFirstFree : Bool}

theorem Ok.getSlot_fst (h : Ok count t l) (hcount : iCount = l.length) (hkey : key ≠ 0) :
    (getSlot count t.id iCount bFirstFree key).1 = slotWith count t.id key := by
  apply getSlot_eq_slotWith _ hkey
  rw [h.liveSlots.countP_used, hcount]

theorem getSlot_snd {id : Nat → Int} (hmiss : slotWith count id key = none) :
    (getSlot count id iCount true key).2 = slotWith count id 0 := by
  rw [getSlot, searchSlots_snd hmiss, Option.none_or]
  rfl

theorem Ok.mem_of_slotWith (h : Ok count t l) (hkey : key ≠ 0)
    (hfind : slotWith count t.id key = some c) : c ∈ l := by
  obtain ⟨hlt, hid⟩ := slotWith_some hfind
  exact (h.mem c).mpr ⟨hlt, hid ▸ hkey⟩

end SlotList

end XrkMonitor.Config
