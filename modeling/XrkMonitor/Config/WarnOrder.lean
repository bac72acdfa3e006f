import XrkMonitor.Config.WarnList

/-!
# The order of the recent warnings

What each kind of row does to the list of warnings, and what follows for a call and for a
run of calls. A node gets into the list at one of its ends, `placeAt`; the order is kept if
its time fits there.
-/

namespace XrkMonitor.Config

open Library SharedHash

/-- The list with a node at the end that `uid` selects. -/
def placeAt (uid : Int) (l : List Nat) (c : Nat) : List Nat := if uid = 0 then l ++ [c] else c :: l

/-- The list, the ids and the count as the other tables have them. -/
def warnSlots (s : WarnShm) : SlotList := ⟨s.id, s.links, s.bLastWarnCount⟩

/-- What the rows keep. -/
structure WarnInv (s : WarnShm) (l : List Nat) : Prop where
  list : (warnSlots s).Ok warnNodes l
  placed : IdsPlaced warnRows s.id
  le : l.length ≤ MAX_WARN_INFO_IN_SHM_PER_USER
  sorted : l.Pairwise fun c d => (s.node d).dwLastWarnTime ≤ (s.node c).dwLastWarnTime

section Lists

variable {uid : Int} {l : List Nat} {c d : Nat} {s : WarnShm} {node : Nat → TWarnInfo}
  {info : TWarnInfo}

theorem placeAt_perm (uid : Int) (l : List Nat) (c : Nat) : (placeAt uid l c).Perm (c :: l) := by
  unfold placeAt
  split
  · exact List.perm_append_singleton c l
  · exact List.Perm.refl _

theorem mem_placeAt : d ∈ placeAt uid l c ↔ d = c ∨ d ∈ l := by
  rw [(placeAt_perm uid l c).mem_iff, List.mem_cons]

theorem length_placeAt : (placeAt uid l c).length = l.length + 1 := (placeAt_perm uid l c).length_eq

theorem nodup_placeAt (hl : l.Nodup) (hc : c ∉ l) : (placeAt uid l c).Nodup :=
  (placeAt_perm uid l c).nodup_iff.mpr (List.nodup_cons.mpr ⟨hc, hl⟩)

theorem sorted_update
    (hl : l.Pairwise fun c d => (node d).dwLastWarnTime ≤ (node c).dwLastWarnTime) (hc : c ∉ l) :
    l.Pairwise fun d e => (Function.update node c info e).dwLastWarnTime ≤
      (Function.update node c info d).dwLastWarnTime := by
  have hkeep : ∀ d ∈ l, Function.update node c info d = node d := by
    intro d hd
    apply Function.update_of_ne
    rintro rfl
    exact hc hd
  apply hl.imp_of_mem
  intro d e hd he hde
  rwa [hkeep d hd, hkeep e he]

theorem sorted_placeAt
    (hl : l.Pairwise fun c d => (node d).dwLastWarnTime ≤ (node c).dwLastWarnTime) (hc : c ∉ l)
    (hfits : ∀ d ∈ l, if uid = 0 then info.dwLastWarnTime ≤ (node d).dwLastWarnTime
      else (node d).dwLastWarnTime ≤ info.dwLastWarnTime) :
    (placeAt uid l c).Pairwise fun d e => (Function.update node c info e).dwLastWarnTime ≤
      (Function.update node c info d).dwLastWarnTime := by
  have hkeep : ∀ d ∈ l, Function.update node c info d = node d := by
    intro d hd
    apply Function.update_of_ne
    rintro rfl
    exact hc hd
  unfold placeAt
  split
  · rename_i hzero
    rw [List.pairwise_append]
    refine ⟨sorted_update hl hc, List.pairwise_singleton _ _, ?_⟩
    intro d hd e he
    rw [List.mem_singleton.mp he, hkeep d hd, Function.update_self]
    simpa [hzero] using hfits d hd
  · rename_i hne
    rw [List.pairwise_cons]
    refine ⟨?_, sorted_update hl hc⟩
    intro d hd
    rw [hkeep d hd, Function.update_self]
    simpa [hne] using hfits d hd

theorem iterate_eq_of_path {next : Int → Int} {a b : Int} {l : List Int} (h : Path next a l b) :
    List.iterate next a l.length = l := by
  induction l generalizing a with
  | nil => rfl
  | cons x xs ih =>
    obtain ⟨rfl, hxs⟩ := h
    rw [List.length_cons, List.iterate, ih hxs]

theorem warnRows_pos : ∀ n ∈ warnRows, 0 < n := by
  intro n hn
  rw [List.eq_of_mem_replicate hn]
  decide

theorem WarnInv.mem_iff (h : WarnInv s l) : c ∈ l ↔ UsedNode warnRows s.id c := h.list.mem c

theorem WarnInv.count_eq (h : WarnInv s l) : s.bLastWarnCount = l.length := h.list.len

theorem WarnInv.recentFirst (h : WarnInv s l) : RecentFirst s l where
  walk := by
    rw [warnList, h.count_eq]
    cases l with
    | nil => rfl
    | cons c l =>
      have hpath := Threaded.fwd (h.list.linked (by simp))
      have hiter := iterate_eq_of_path hpath
      rwa [List.length_map] at hiter
  count := h.count_eq
  le := h.le
  nodup := h.list.nodup
  mem := h.list.mem
  sorted := h.sorted

theorem slotRef_of_mem {i : Int} (hlt : ∀ c ∈ l, c < warnNodes) (hi : ∃ c ∈ l, i = (c : Int)) :
    slotRef warnNodes i = some i := by
  obtain ⟨c, hc, rfl⟩ := hi
  have := hlt c hc
  rw [slotRef, if_pos (by omega)]

theorem relinkWarn_linked (uid : Int) (hlinked : Linked s.links l) (hl : l ≠ [])
    (hlt : ∀ c ∈ l, c < warnNodes) (hc : c ∉ l) (hcount : s.bLastWarnCount = l.length)
    (hroom : l.length < MAX_WARN_INFO_IN_SHM_PER_USER) :
    ∃ links, relinkWarn uid s c = some { s with
        links := links
        bLastWarnCount := l.length + 1 } ∧ Linked links (placeAt uid l c) := by
  have hinc : wordInc 8 s.bLastWarnCount = l.length + 1 := by
    have : l.length < 200 := hroom
    rw [hcount, wordInc_of_lt (by omega)]
  unfold relinkWarn placeAt
  by_cases hzero : uid = 0
  · rw [if_pos hzero, if_pos hzero, slotRef_of_mem hlt (hlinked.end_eq hl)]
    exact ⟨_, by rw [← hinc]; rfl, hlinked.insertLast hl hc⟩
  · rw [if_neg hzero, if_neg hzero, slotRef_of_mem hlt (hlinked.start_eq hl)]
    exact ⟨_, by rw [← hinc]; rfl, hlinked.insertFirst hl hc⟩

theorem linkWarn_linked (uid : Int) (h : (warnSlots s).Ok warnNodes l) (hc : c ∉ l)
    (hroom : l.length < MAX_WARN_INFO_IN_SHM_PER_USER) :
    ∃ links, linkWarn uid s c = some { s with
        links := links
        bLastWarnCount := l.length + 1 } ∧ Linked links (placeAt uid l c) := by
  unfold linkWarn
  by_cases hl : l = []
  · subst hl
    have hzero : s.bLastWarnCount = 0 := h.len
    refine ⟨ilinkSetFirst s.links c, by rw [if_pos (Or.inl hzero)]; rfl, ?_⟩
    have hplace : placeAt uid [] c = [c] := by simp [placeAt]
    rw [hplace]
    exact linked_setFirst s.links c
  · have hlinked : Linked s.links l := h.linked hl
    have hne : ¬ (s.bLastWarnCount = 0 ∨ s.links.iIndexStart < 0) := by
      rintro (hzero | hneg)
      · have hlen : s.bLastWarnCount = l.length := h.len
        rw [hlen, List.length_eq_zero_iff] at hzero
        exact hl hzero
      · exact hl (hlinked.start_neg_iff.mp hneg)
    rw [if_neg hne]
    exact relinkWarn_linked uid hlinked hl h.lt hc h.len hroom

end Lists

section Rows

variable {uid : Int} {l : List Nat} {c d : Nat} {s : WarnShm} {row : WarnRow}

/-- The last warning leaves the list. -/
theorem WarnInv.dropOldest (h : WarnInv s (l ++ [d])) :
    ∃ links, dropOldest s = some { s with
        id := Function.update s.id d 0
        links := links
        bLastWarnCount := l.length } ∧
      WarnInv { s with
        id := Function.update s.id d 0
        links := links
        bLastWarnCount := l.length } l := by
  have hmem : d ∈ l ++ [d] := by simp
  have hnotMem : d ∉ l := by
    intro hd
    exact (List.nodup_append.mp h.list.nodup).2.2 d hd d (by simp) rfl
  have herase : (l ++ [d]).erase d = l := by
    rw [List.erase_append_right _ hnotMem]
    simp
  have hlinked : Linked s.links (l ++ [d]) := h.list.linked (by simp)
  have hend : s.links.iIndexEnd = (d : Int) := by
    have hrev := Threaded.reverse hlinked
    rw [List.map_append, List.reverse_append] at hrev
    exact hrev.start_cons
  have hnext : s.links.iNextIndex d = -1 := by
    have hthreaded := hlinked
    rw [Linked, List.map_append] at hthreaded
    exact Threaded.next_last hthreaded
  obtain ⟨links, hunlink, hlinks⟩ := h.list.unlink hmem
  rw [herase] at hlinks
  obtain ⟨pPrev, hprev, hdelete⟩ := Option.bind_eq_some_iff.mp hunlink
  obtain ⟨pNext, hpNext, hdelete⟩ := Option.bind_eq_some_iff.mp hdelete
  obtain rfl := Option.some.inj hdelete
  obtain rfl : pNext = none := by
    change slotLink warnNodes (s.links.iNextIndex d) = some pNext at hpNext
    rw [hnext] at hpNext
    exact (Option.some.inj hpNext).symm
  have hcount : wordDec 8 s.bLastWarnCount = l.length := by
    have hle : (l ++ [d]).length ≤ 200 := h.le
    rw [h.count_eq]
    rw [List.length_append, List.length_singleton] at hle ⊢
    rw [wordDec_of_pos (by omega) (by omega), Nat.add_sub_cancel]
  refine ⟨ilinkDeleteNode s.links d pPrev none, ?_, ?_, h.placed.erase d, ?_, ?_⟩
  · have href := slotRef_of_mem h.list.lt (hlinked.end_eq (by simp))
    change slotLink warnNodes (s.links.iPreIndex d) = some pPrev at hprev
    unfold Config.dropOldest
    rw [href, hend]
    change (slotLink warnNodes (s.links.iPreIndex d)).bind _ = _
    rw [hprev, hcount]
    rfl
  · have hlen : l.length = ((l ++ [d]).erase d).length := by rw [herase]
    have hok := h.list.erase (by rw [herase]; exact hlinks) hlen
    rw [herase] at hok
    exact hok
  · have hle := h.le
    rw [List.length_append] at hle
    exact Nat.le_of_add_right_le hle
  · exact (List.pairwise_append.mp h.sorted).1

theorem WarnInv.addWarn_room (h : WarnInv s l) (uid : Int) (hpath : c ∈ idPath warnRows row.wid)
    (hfree : s.id c = 0) (hnew : ∀ d < warnRows.sum, s.id d ≠ row.wid)
    (hroom : l.length < MAX_WARN_INFO_IN_SHM_PER_USER)
    (hfits : if uid = 0 then OldestOf s row else NewestOf s row) :
    ∃ s', addWarn uid s row c = some s' ∧ s'.id = Function.update s.id c row.wid ∧
      s'.node = Function.update s.node c (newWarn row) ∧ WarnInv s' (placeAt uid l c) := by
  have hlt : c < warnRows.sum := lt_of_mem_idPath warnRows_pos hpath
  have hc : c ∉ l := fun hm => (h.mem_iff.mp hm).2 hfree
  have hne : row.wid ≠ 0 := by
    have := row.wid_pos
    omega
  obtain ⟨links, hlink, hlinks⟩ := linkWarn_linked uid h.list hc hroom
  have hfull : ¬ MAX_WARN_INFO_IN_SHM_PER_USER ≤ s.bLastWarnCount := by
    rw [h.count_eq]
    exact Nat.not_le.mpr hroom
  refine ⟨{ id := Function.update s.id c row.wid
            node := Function.update s.node c (newWarn row)
            links := links
            bLastWarnCount := l.length + 1 }, ?_, rfl, rfl, ⟨?_, ?_, Or.inl hlinks, ?_⟩, ?_, ?_, ?_⟩
  · rw [addWarn, if_neg (fun hand => hfull hand.1), if_neg hfull]
    change (linkWarn uid s c).bind _ = _
    rw [hlink]
    rfl
  · exact nodup_placeAt h.list.nodup hc
  · intro d
    rw [mem_placeAt, ← List.mem_cons]
    exact (h.list.liveSlots.insert hlt hfree hne).mem d
  · exact length_placeAt.symm
  · exact h.placed.insert hpath hnew
  · rw [length_placeAt]
    exact hroom
  · apply sorted_placeAt h.sorted hc
    intro d hd
    have hused := h.mem_iff.mp hd
    have hother := hnew d hused.1
    by_cases hzero : uid = 0
    · rw [if_pos hzero] at hfits ⊢
      exact hfits d hused hother
    · rw [if_neg hzero] at hfits ⊢
      exact hfits d hused hother

/-- A single new warning that is the newest gets in, if the list is full in place of the oldest. -/
theorem WarnInv.addWarn_one (h : WarnInv s l) (hpath : c ∈ idPath warnRows row.wid)
    (hfree : s.id c = 0) (hnew : ∀ d < warnRows.sum, s.id d ≠ row.wid) (huid : uid ≠ 0)
    (hnewest : NewestOf s row) : ∃ s' l', addWarn uid s row c = some s' ∧ WarnInv s' l' := by
  by_cases hroom : l.length < MAX_WARN_INFO_IN_SHM_PER_USER
  · obtain ⟨s', hadd, -, -, hinv⟩ := h.addWarn_room uid hpath hfree hnew hroom
      (by rw [if_neg huid]; exact hnewest)
    exact ⟨s', _, hadd, hinv⟩
  · obtain ⟨init, last, rfl⟩ := l.eq_nil_or_concat.resolve_left (by
      rintro rfl
      exact hroom (by decide))
    rw [List.concat_eq_append] at h hroom
    obtain ⟨links, hdrop, h'⟩ := h.dropOldest
    have hlast : last ∈ init ++ [last] := by simp
    have hfull : MAX_WARN_INFO_IN_SHM_PER_USER ≤ s.bLastWarnCount := by
      rw [h.count_eq]
      exact Nat.not_lt.mp hroom
    have hcount : init.length < MAX_WARN_INFO_IN_SHM_PER_USER := by
      have hle := h.le
      rw [List.length_append, List.length_singleton] at hle
      omega
    have hids : ∀ d, Function.update s.id last 0 d ≠ 0 → Function.update s.id last 0 d = s.id d := by
      intro d hd
      by_cases heq : d = last
      · subst heq
        simp at hd
      · exact Function.update_of_ne heq _ _
    have hfree' : Function.update s.id last 0 c = 0 := by
      by_contra hne
      exact hne ((hids c hne).trans hfree)
    have hnew' : ∀ d < warnRows.sum, Function.update s.id last 0 d ≠ row.wid := by
      intro d hd heq
      have hpos := row.wid_pos
      exact hnew d hd ((hids d (by omega)).symm.trans heq)
    have hnewest' : ∀ d, UsedNode warnRows (Function.update s.id last 0) d →
        Function.update s.id last 0 d ≠ row.wid →
          (s.node d).dwLastWarnTime ≤ row.last_warn_time_utc := by
      intro d hd hother
      have heq := hids d hd.2
      exact hnewest d ⟨hd.1, heq ▸ hd.2⟩ (heq ▸ hother)
    obtain ⟨s', hadd, -, -, hinv⟩ := h'.addWarn_room uid hpath hfree' hnew' hcount
      (by rw [if_neg huid]; exact hnewest')
    refine ⟨s', _, ?_, hinv⟩
    rw [addWarn, if_neg (fun hand => huid hand.2), if_neg (Nat.not_le.mpr hcount)] at hadd
    rw [addWarn, if_neg (fun hand => huid hand.2), if_pos hfull, hdrop]
    exact hadd

theorem WarnInv.deleteWarn (h : WarnInv s l) (hc : c ∈ l) :
    ∃ s', deleteWarn s c = some s' ∧ s'.id = Function.update s.id c 0 ∧ s'.node = s.node ∧
      WarnInv s' (l.erase c) := by
  obtain ⟨links, hunlink, hlinks⟩ := h.list.unlink hc
  have hcount : wordDec 8 s.bLastWarnCount = (l.erase c).length := by
    have hpos := List.length_pos_of_mem hc
    have hle : l.length ≤ 200 := h.le
    rw [h.count_eq, wordDec_of_pos hpos (by omega), List.length_erase_of_mem hc]
  refine ⟨{ s with
      id := Function.update s.id c 0
      links := links
      bLastWarnCount := (l.erase c).length }, ?_, rfl, rfl, h.list.erase hlinks rfl,
    h.placed.erase c, ?_, h.sorted.sublist List.erase_sublist⟩
  · rw [Config.deleteWarn, ← hcount]
    change (ilinkUnlink warnNodes s.links c).bind _ = _
    rw [show ilinkUnlink warnNodes s.links c = some links from hunlink]
    rfl
  · exact Nat.le_trans List.erase_sublist.length_le h.le

theorem WarnInv.other_of_mem_erase (h : WarnInv s l) (hc : c ∈ l) (hid : s.id c = row.wid)
    (hd : d ∈ l.erase c) : UsedNode warnRows s.id d ∧ s.id d ≠ row.wid := by
  obtain ⟨hne, hd⟩ := h.list.nodup.mem_erase_iff.mp hd
  have hused := h.mem_iff.mp hd
  refine ⟨hused, ?_⟩
  rw [← hid]
  exact fun heq => hne (h.placed.unique d c hused (h.mem_iff.mp hc) heq)

theorem WarnInv.notMem_erase (h : WarnInv s l) : c ∉ l.erase c := fun hm =>
  (h.list.nodup.mem_erase_iff.mp hm).1 rfl

theorem WarnInv.keepFirst (h : WarnInv s l) (hc : c ∈ l) (hstart : s.links.iIndexStart = c)
    {info : TWarnInfo}
    (hfits : ∀ d ∈ l.erase c, (s.node d).dwLastWarnTime ≤ info.dwLastWarnTime) :
    WarnInv { s with node := Function.update s.node c info } l := by
  refine ⟨h.list, h.placed, h.le, ?_⟩
  have hlinked : Linked s.links l := h.list.linked (List.ne_nil_of_mem hc)
  have hsorted := h.sorted.sublist (List.erase_sublist (a := c))
  have hnotMem := h.notMem_erase (c := c)
  obtain ⟨rest, rfl⟩ : ∃ rest, l = c :: rest := by
    cases l with
    | nil => cases hc
    | cons d rest =>
      have hd : s.links.iIndexStart = (d : Int) := Threaded.start_cons hlinked
      obtain rfl : d = c := by omega
      exact ⟨rest, rfl⟩
  rw [List.erase_cons_head] at hfits hsorted hnotMem
  have hplace : (placeAt 1 rest c).Pairwise fun d e =>
      (Function.update s.node c info e).dwLastWarnTime ≤
        (Function.update s.node c info d).dwLastWarnTime := by
    apply sorted_placeAt hsorted hnotMem
    intro d hd
    rw [if_neg (by decide)]
    exact hfits d hd
  exact hplace

/-- A node that is not the first one goes to an end of the list. -/
theorem WarnInv.moveToEnd (h : WarnInv s l) (uid : Int) (hc : c ∈ l)
    (hstart : s.links.iIndexStart ≠ c) (info : TWarnInfo)
    (hfits : ∀ d ∈ l.erase c, if uid = 0 then info.dwLastWarnTime ≤ (s.node d).dwLastWarnTime
      else (s.node d).dwLastWarnTime ≤ info.dwLastWarnTime) :
    ∃ links, moveWarn uid { s with node := Function.update s.node c info } c = some
        { s with
          node := Function.update s.node c info
          links := links } ∧
      WarnInv
        { s with
          node := Function.update s.node c info
          links := links } (placeAt uid (l.erase c) c) := by
  obtain ⟨links, hunlink, hlinks⟩ := h.list.unlink hc
  have hne : l.erase c ≠ [] := by
    intro hnil
    have hlinked : Linked s.links l := h.list.linked (List.ne_nil_of_mem hc)
    obtain ⟨d, hd, hdstart⟩ := hlinked.start_eq (List.ne_nil_of_mem hc)
    have hdc : d ≠ c := by
      rintro rfl
      exact hstart hdstart
    have hmem := h.list.nodup.mem_erase_iff.mpr ⟨hdc, hd⟩
    rw [hnil] at hmem
    cases hmem
  have hpos := List.length_pos_of_mem hc
  have hle : l.length ≤ 200 := h.le
  have hlen := List.length_erase_of_mem hc
  have hsum : (l.erase c).length + 1 = s.bLastWarnCount := by
    rw [h.count_eq]
    omega
  have hcount : wordDec 8 s.bLastWarnCount = (l.erase c).length := by
    rw [h.count_eq, wordDec_of_pos hpos (by omega), hlen]
  have hroom : (l.erase c).length < MAX_WARN_INFO_IN_SHM_PER_USER := by
    change _ < 200
    omega
  have hlt : ∀ d ∈ l.erase c, d < warnNodes := fun d hd => h.list.lt d (List.mem_of_mem_erase hd)
  obtain ⟨links', hrelink, hlinks'⟩ := relinkWarn_linked uid
    (s := ⟨s.id, Function.update s.node c info, links, wordDec 8 s.bLastWarnCount⟩)
    hlinks hne hlt h.notMem_erase hcount hroom
  rw [hsum] at hrelink
  refine ⟨links', ?_, ⟨?_, ?_, Or.inl hlinks', ?_⟩, h.placed, ?_, ?_⟩
  · rw [moveWarn, if_neg (by exact hstart)]
    change (ilinkUnlink warnNodes s.links c).bind _ = _
    rw [show ilinkUnlink warnNodes s.links c = some links from hunlink]
    exact hrelink
  · exact nodup_placeAt (h.list.nodup.erase c) h.notMem_erase
  · intro d
    rw [mem_placeAt, h.list.nodup.mem_erase_iff]
    refine Iff.trans ?_ (h.list.mem d)
    by_cases hdc : d = c
    · simp [hdc, hc]
    · simp [hdc]
  · rw [length_placeAt]
    exact hsum.symm
  · rw [length_placeAt]
    exact hroom
  · exact sorted_placeAt (h.sorted.sublist List.erase_sublist) h.notMem_erase hfits

/-- The row of a warning changed, and its time fits the place it gets. -/
theorem WarnInv.changeWarn (h : WarnInv s l) (uid : Int) (hc : c ∈ l) (hid : s.id c = row.wid)
    (hfits : (s.node c).dwLastWarnTime ≠ row.last_warn_time_utc →
      if s.links.iIndexStart = c ∨ uid ≠ 0 then NewestOf s row else OldestOf s row) :
    ∃ s' l', changeWarn uid s row c = some s' ∧ s'.id = s.id ∧
      s'.node = Function.update s.node c (updateWarn row (s.node c)) ∧
      s'.bLastWarnCount = s.bLastWarnCount ∧ WarnInv s' l' := by
  unfold Config.changeWarn
  by_cases htime : (s.node c).dwLastWarnTime = row.last_warn_time_utc
  · refine ⟨{ s with node := Function.update s.node c (updateWarn row (s.node c)) }, l,
      by simp only [htime, if_true], rfl, rfl, rfl, h.list, h.placed, h.le, ?_⟩
    have hsame : ∀ d, (Function.update s.node c (updateWarn row (s.node c)) d).dwLastWarnTime =
        (s.node d).dwLastWarnTime := by
      intro d
      by_cases hdc : d = c
      · subst hdc
        rw [Function.update_self, htime]
        rfl
      · rw [Function.update_of_ne hdc]
    simpa only [hsame] using h.sorted
  · have hfits := hfits htime
    simp only [htime, if_false]
    by_cases hstart : s.links.iIndexStart = c
    · rw [if_pos (Or.inl hstart)] at hfits
      refine ⟨{ s with node := Function.update s.node c (updateWarn row (s.node c)) }, l,
        by rw [moveWarn, if_pos (by exact hstart)], rfl, rfl, rfl, h.keepFirst hc hstart ?_⟩
      intro d hd
      obtain ⟨hused, hother⟩ := h.other_of_mem_erase hc hid hd
      exact hfits d hused hother
    · have hend : ∀ d ∈ l.erase c,
          if uid = 0 then row.last_warn_time_utc ≤ (s.node d).dwLastWarnTime
          else (s.node d).dwLastWarnTime ≤ row.last_warn_time_utc := by
        intro d hd
        obtain ⟨hused, hother⟩ := h.other_of_mem_erase hc hid hd
        by_cases hzero : uid = 0
        · rw [if_neg (by simp [hstart, hzero])] at hfits
          rw [if_pos hzero]
          exact hfits d hused hother
        · rw [if_pos (Or.inr hzero)] at hfits
          rw [if_neg hzero]
          exact hfits d hused hother
      obtain ⟨links, hmove, hinv⟩ := h.moveToEnd uid hc hstart (updateWarn row (s.node c)) hend
      exact ⟨_, _, hmove, rfl, rfl, rfl, hinv⟩

theorem emptyWarns_inv : WarnInv emptyWarns [] where
  list := SlotList.empty_ok _
  placed := idsPlaced_zero _
  le := by decide
  sorted := List.Pairwise.nil

theorem WarnInv.mem_of_search (h : WarnInv s l) (hfind : search warnRows s.id row.wid = some c) :
    c ∈ l ∧ s.id c = row.wid := by
  have hne : row.wid ≠ 0 := by
    have := row.wid_pos
    omega
  obtain ⟨hlt, hid⟩ := (h.placed.search_iff warnRows_pos hne).mp hfind
  exact ⟨h.mem_iff.mpr ⟨hlt, hid ▸ hne⟩, hid⟩

theorem WarnInv.ne_of_search (h : WarnInv s l) (hfind : search warnRows s.id row.wid = none) :
    ∀ d < warnRows.sum, s.id d ≠ row.wid := by
  apply h.placed.search_none warnRows_pos _ hfind
  have := row.wid_pos
  omega

theorem readWarnRow_found (uid : Int) (hfind : search warnRows s.id row.wid = some c) :
    readWarnRow uid s row =
      if row.xrk_status = RECORD_STATUS_USE then
        if (s.node c).dwLastUpdateTime = row.update_time then some s else changeWarn uid s row c
      else deleteWarn s c := by
  have hget : getWarnInfo s row.wid = (true, some c) := searchEx_of_some hfind
  simp only [readWarnRow, hget]

theorem readWarnRow_new (uid : Int) (hfind : search warnRows s.id row.wid = none) :
    readWarnRow uid s row =
      if row.xrk_status = RECORD_STATUS_USE then
        ((idPath warnRows row.wid).find? fun c => s.id c == 0).elim (some s) (addWarn uid s row)
      else some s := by
  have hget : getWarnInfo s row.wid =
      (false, (idPath warnRows row.wid).find? fun c => s.id c == 0) := searchEx_of_none hfind
  simp only [readWarnRow, hget]
  cases (idPath warnRows row.wid).find? fun c => s.id c == 0 with
  | none => rfl
  | some c => rfl

theorem WarnInv.readWarnRow_one (h : WarnInv s l) (hok : OneRowOk s row) :
    ∃ s' l', readWarnRow row.wid s row = some s' ∧ WarnInv s' l' := by
  have huid : row.wid ≠ 0 := by
    have := row.wid_pos
    omega
  cases hfind : search warnRows s.id row.wid with
  | some c =>
    have hget : getWarnInfo s row.wid = (true, some c) := searchEx_of_some hfind
    obtain ⟨hc, hid⟩ := h.mem_of_search hfind
    rw [readWarnRow_found row.wid hfind]
    by_cases hstatus : row.xrk_status = RECORD_STATUS_USE
    · rw [if_pos hstatus]
      by_cases hupdate : (s.node c).dwLastUpdateTime = row.update_time
      · exact ⟨s, l, if_pos hupdate, h⟩
      · obtain ⟨s', l', hchange, -, -, -, hinv⟩ := h.changeWarn row.wid hc hid (by
          intro htime
          rw [if_pos (Or.inr huid)]
          exact hok hstatus (Or.inr ⟨c, hget, hupdate, htime⟩))
        exact ⟨s', l', by rw [if_neg hupdate, hchange], hinv⟩
    · obtain ⟨s', hdelete, -, -, hinv⟩ := h.deleteWarn hc
      exact ⟨s', _, by rw [if_neg hstatus, hdelete], hinv⟩
  | none =>
    rw [readWarnRow_new row.wid hfind]
    by_cases hstatus : row.xrk_status = RECORD_STATUS_USE
    · rw [if_pos hstatus]
      cases hfree : (idPath warnRows row.wid).find? fun c => s.id c == 0 with
      | none => exact ⟨s, l, rfl, h⟩
      | some c =>
        obtain ⟨hpath, hzero⟩ := searchEx_free hfree
        have hnewest : NewestOf s row := hok hstatus (Or.inl (by
          rw [getWarnInfo, searchEx_of_none hfind]))
        exact h.addWarn_one hpath hzero (h.ne_of_search hfind) huid hnewest
    · exact ⟨s, l, if_neg hstatus, h⟩

/-- The state while all rows are read: the rows that are done are in the table or were skipped,
and none was skipped unless the list is full of warnings that are not older. -/
structure Reading (s : WarnShm) (skipped : List Nat) (done : List WarnRow) : Prop where
  inv : ∃ l, WarnInv s l
  listed : ∀ row ∈ done, row.xrk_status = RECORD_STATUS_USE →
    (∃ c, UsedNode warnRows s.id c ∧ s.id c = row.wid) ∨ row.last_warn_time_utc ∈ skipped
  full : ∀ time ∈ skipped, s.bLastWarnCount = MAX_WARN_INFO_IN_SHM_PER_USER ∧
    ∀ c, UsedNode warnRows s.id c → time ≤ (s.node c).dwLastWarnTime

variable {skipped : List Nat} {done : List WarnRow}

theorem Reading.add (h : Reading s skipped done) (hpath : c ∈ idPath warnRows row.wid)
    (hfree : s.id c = 0) (hnew : ∀ d < warnRows.sum, s.id d ≠ row.wid) (hoff : OldestOf s row)
    (hroom : ¬ MAX_WARN_INFO_IN_SHM_PER_USER ≤ s.bLastWarnCount) :
    ∃ s', addWarn 0 s row c = some s' ∧ Reading s' skipped (row :: done) := by
  obtain ⟨l, hl⟩ := h.inv
  have hlen : l.length < MAX_WARN_INFO_IN_SHM_PER_USER := by
    rw [← hl.count_eq]
    exact Nat.lt_of_not_le hroom
  obtain ⟨s', hadd, hids, -, hinv⟩ := hl.addWarn_room 0 hpath hfree hnew hlen
    (by rw [if_pos rfl]; exact hoff)
  have hlt := lt_of_mem_idPath warnRows_pos hpath
  have hnone : skipped = [] := by
    cases skipped with
    | nil => rfl
    | cons time rest => exact absurd (h.full time (by simp)).1.ge hroom
  subst hnone
  refine ⟨s', hadd, ⟨_, hinv⟩, ?_, by simp⟩
  intro r hr hstatus
  obtain rfl | hr := List.mem_cons.mp hr
  · refine Or.inl ⟨c, ⟨hlt, ?_⟩, ?_⟩
    · have := r.wid_pos
      rw [hids, Function.update_self]
      omega
    · rw [hids, Function.update_self]
  · obtain ⟨d, hused, hid⟩ | hmem := h.listed r hr hstatus
    · have hdc : d ≠ c := by
        rintro rfl
        exact hused.2 hfree
      refine Or.inl ⟨d, ⟨hused.1, ?_⟩, ?_⟩
      · rw [hids, Function.update_of_ne hdc]
        exact hused.2
      · rw [hids, Function.update_of_ne hdc]
        exact hid
    · cases hmem

theorem Reading.change (h : Reading s skipped done) (hok : AllRowOk s skipped row)
    (hstatus : row.xrk_status = RECORD_STATUS_USE)
    (hfind : search warnRows s.id row.wid = some c)
    (hupdate : (s.node c).dwLastUpdateTime ≠ row.update_time) :
    ∃ s', changeWarn 0 s row c = some s' ∧ Reading s' skipped (row :: done) := by
  obtain ⟨l, hl⟩ := h.inv
  obtain ⟨hc, hid⟩ := hl.mem_of_search hfind
  have hget : getWarnInfo s row.wid = (true, some c) := searchEx_of_some hfind
  obtain ⟨s', l', hchange, hids, hnode, hcount, hinv⟩ := hl.changeWarn 0 hc hid (by
    intro htime
    simpa using (hok.changed hstatus c ⟨hget, hupdate, htime⟩).1)
  refine ⟨s', hchange, ⟨l', hinv⟩, ?_, ?_⟩
  · intro r hr hr'
    rw [hids]
    obtain rfl | hr := List.mem_cons.mp hr
    · exact Or.inl ⟨c, hl.mem_iff.mp hc, hid⟩
    · exact h.listed r hr hr'
  · intro time htime
    obtain ⟨hfull, holder⟩ := h.full time htime
    refine ⟨hcount.trans hfull, ?_⟩
    intro d hd
    rw [hids] at hd
    rw [hnode]
    by_cases hdc : d = c
    · subst hdc
      rw [Function.update_self]
      change time ≤ row.last_warn_time_utc
      by_cases hsame : (s.node d).dwLastWarnTime = row.last_warn_time_utc
      · exact hsame ▸ holder d hd
      · exact (hok.changed hstatus d ⟨hget, hupdate, hsame⟩).2 time htime
    · rw [Function.update_of_ne hdc]
      exact holder d hd

theorem Reading.delete (h : Reading s [] done) (hstatus : row.xrk_status ≠ RECORD_STATUS_USE)
    (hfind : search warnRows s.id row.wid = some c) (hkey : row.wid ∉ done.map WarnRow.wid) :
    ∃ s', deleteWarn s c = some s' ∧ Reading s' [] (row :: done) := by
  obtain ⟨l, hl⟩ := h.inv
  obtain ⟨hc, hid⟩ := hl.mem_of_search hfind
  obtain ⟨s', hdelete, hids, -, hinv⟩ := hl.deleteWarn hc
  refine ⟨s', hdelete, ⟨_, hinv⟩, ?_, by simp⟩
  intro r hr hr'
  obtain rfl | hr := List.mem_cons.mp hr
  · exact absurd hr' hstatus
  · obtain ⟨d, hused, hrid⟩ | hmem := h.listed r hr hr'
    · have hdc : d ≠ c := by
        rintro rfl
        exact hkey (List.mem_map.mpr ⟨r, hr, hrid.symm.trans hid⟩)
      refine Or.inl ⟨d, ⟨hused.1, ?_⟩, ?_⟩
      · rw [hids, Function.update_of_ne hdc]
        exact hused.2
      · rw [hids, Function.update_of_ne hdc]
        exact hrid
    · cases hmem

theorem Reading.keep (h : Reading s skipped done)
    (hrow : row.xrk_status = RECORD_STATUS_USE →
      (∃ c, UsedNode warnRows s.id c ∧ s.id c = row.wid) ∨ row.last_warn_time_utc ∈ skipped) :
    Reading s skipped (row :: done) := by
  refine ⟨h.inv, ?_, h.full⟩
  intro r hr hr'
  obtain rfl | hr := List.mem_cons.mp hr
  · exact hrow hr'
  · exact h.listed r hr hr'

theorem Reading.skip (h : Reading s skipped done) (hnew : ∀ d < warnRows.sum, s.id d ≠ row.wid)
    (holdest : OldestOf s row) (hfull : MAX_WARN_INFO_IN_SHM_PER_USER ≤ s.bLastWarnCount) :
    Reading s (row.last_warn_time_utc :: skipped) (row :: done) := by
  obtain ⟨l, hl⟩ := h.inv
  refine ⟨h.inv, ?_, ?_⟩
  · intro r hr hr'
    obtain rfl | hr := List.mem_cons.mp hr
    · exact Or.inr (by simp)
    · exact (h.listed r hr hr').imp_right (List.mem_cons_of_mem _)
  · intro time htime
    obtain rfl | htime := List.mem_cons.mp htime
    · refine ⟨Nat.le_antisymm ?_ hfull, fun d hd => holdest d hd (hnew d hd.1)⟩
      rw [hl.count_eq]
      exact hl.le
    · exact h.full time htime

theorem Reading.readWarnRow (h : Reading s skipped done) (hok : AllRowOk s skipped row)
    (hkey : row.wid ∉ done.map WarnRow.wid) :
    ∃ s', readWarnRow 0 s row = some s' ∧
      Reading s' (skippedAfter s skipped row) (row :: done) := by
  obtain ⟨l, hl⟩ := h.inv
  cases hfind : search warnRows s.id row.wid with
  | some c =>
    have hget : getWarnInfo s row.wid = (true, some c) := searchEx_of_some hfind
    obtain ⟨hc, hid⟩ := hl.mem_of_search hfind
    rw [skippedAfter, if_neg (by simp [hget]), readWarnRow_found 0 hfind]
    by_cases hstatus : row.xrk_status = RECORD_STATUS_USE
    · rw [if_pos hstatus]
      by_cases hupdate : (s.node c).dwLastUpdateTime = row.update_time
      · exact ⟨s, if_pos hupdate, h.keep fun _ => Or.inl ⟨c, hl.mem_iff.mp hc, hid⟩⟩
      · rw [if_neg hupdate]
        exact h.change hok hstatus hfind hupdate
    · rw [if_neg hstatus]
      obtain rfl : skipped = [] := hok.deleted hstatus (by rw [hget])
      exact h.delete hstatus hfind hkey
  | none =>
    have hget : getWarnInfo s row.wid =
        (false, (idPath warnRows row.wid).find? fun c => s.id c == 0) := searchEx_of_none hfind
    have hnew := hl.ne_of_search hfind
    rw [readWarnRow_new 0 hfind]
    by_cases hstatus : row.xrk_status = RECORD_STATUS_USE
    · obtain ⟨hsome, holdest⟩ := hok.new hstatus (by rw [hget])
      rw [hget] at hsome
      obtain ⟨c, hfree⟩ := Option.isSome_iff_exists.mp hsome
      obtain ⟨hpath, hzero⟩ := searchEx_free hfree
      rw [if_pos hstatus, show List.find? _ _ = some c from hfree]
      by_cases hfull : MAX_WARN_INFO_IN_SHM_PER_USER ≤ s.bLastWarnCount
      · rw [skippedAfter, if_pos ⟨hstatus, by rw [hget], hfull⟩]
        exact ⟨s, if_pos ⟨hfull, rfl⟩, h.skip hnew holdest hfull⟩
      · rw [skippedAfter, if_neg fun hskip => hfull hskip.2.2]
        exact h.add hpath hzero hnew holdest hfull
    · rw [if_neg hstatus, skippedAfter, if_neg fun hskip => hstatus hskip.1]
      exact ⟨s, rfl, h.keep fun hr => absurd hr hstatus⟩

theorem Reading.readAll {rows : List WarnRow} (h : Reading s skipped done)
    (hok : AllRowsOk s skipped rows) (hkeys : ((rows ++ done).map WarnRow.wid).Nodup) :
    ∃ s' skipped', rows.foldlM (Config.readWarnRow 0) s = some s' ∧
      Reading s' skipped' (rows.reverse ++ done) := by
  induction rows generalizing s skipped done with
  | nil => exact ⟨s, skipped, rfl, h⟩
  | cons row rows ih =>
    have hkeys' : (row :: (rows ++ done)).map WarnRow.wid = ((row :: rows) ++ done).map _ := rfl
    rw [← hkeys', List.map_cons, List.nodup_cons, List.map_append, List.mem_append, not_or] at hkeys
    obtain ⟨⟨hrows, hdone⟩, hnd⟩ := hkeys
    obtain ⟨s₁, hread, hreading⟩ := h.readWarnRow hok.1 hdone
    have hperm : ((rows ++ row :: done).map WarnRow.wid).Nodup := by
      rw [List.map_append, List.map_cons, List.nodup_middle, List.nodup_cons, List.mem_append,
        not_or]
      exact ⟨⟨hrows, hdone⟩, hnd⟩
    obtain ⟨s', skipped', hfold, hreading'⟩ := ih hreading (hok.2 s₁ hread) hperm
    refine ⟨s', skipped', ?_, ?_⟩
    · rw [List.foldlM_cons, hread]
      exact hfold
    · rw [List.reverse_cons, List.append_assoc]
      exact hreading'

theorem warnStep_ok (s : WarnShm) (call : WarnCall) (h : ∃ l, WarnInv s l)
    (hok : WarnCallOk s call) :
    ∃ o s', warnStep s call = some (o, s') ∧ WarnsOk call o ∧ ∃ l, WarnInv s' l := by
  cases call with
  | all table =>
    have hstart : Reading s [] [] := ⟨h, by simp, by simp⟩
    obtain ⟨s', skipped, hfold, hreading⟩ := hstart.readAll hok (by simpa using table.nodup)
    obtain ⟨l, hl⟩ := hreading.inv
    refine ⟨s', s', by rw [warnStep, hfold]; rfl, ⟨⟨l, hl.recentFirst⟩, ?_⟩, l, hl⟩
    intro row hrow hstatus
    obtain hlisted | hskipped := hreading.listed row (by simpa using hrow) hstatus
    · exact Or.inl hlisted
    · exact Or.inr (hreading.full _ hskipped)
  | one row =>
    obtain ⟨l, hl⟩ := h
    obtain ⟨s', l', hread, hl'⟩ := hl.readWarnRow_one hok
    exact ⟨s', s', by rw [warnStep, hread]; rfl, ⟨⟨l', hl'.recentFirst⟩, trivial⟩, l', hl'⟩

end Rows

/-- In every run of calls from zeroed memory that meet the condition, after every call the list
holds exactly the warnings of the table, at most `MAX_WARN_INFO_IN_SHM_PER_USER`, the newest
first, and after all rows were read it holds the newest rows in use. -/
theorem recent_warns_ok (calls : List WarnCall)
    (hcalls : Admissible warnStep WarnCallOk emptyWarns calls) :
    ∃ states s, runSteps warnStep emptyWarns calls = some (states, s) ∧
      List.Forall₂ WarnsOk calls states := by
  obtain ⟨states, s, hrun, hok, -⟩ :=
    run_invariant warnStep_ok calls emptyWarns ⟨[], emptyWarns_inv⟩ hcalls
  exact ⟨states, s, hrun, hok⟩

/-- A row in use with the time of its last warning. -/
def warnRow (wid : Int) (hwid : 0 < wid) (last_warn_time_utc : Nat) : WarnRow where
  wid := wid
  xrk_status := 0
  update_time := 7
  warn_id := 1
  attr_id := 1
  warn_time_utc := 3
  warn_flag := 1
  warn_val := 9
  warn_config_val := 8
  warn_times := 1
  deal_status := 0
  last_warn_time_utc := last_warn_time_utc
  wid_pos := hwid

/-- The table with one row, of time 5. -/
def oneWarn : WarnTable where
  rows := [warnRow 1 (by decide) 5]
  nodup := by decide
  sorted := by decide

/-- The table with a second, newer row. -/
def twoWarns : WarnTable where
  rows := [warnRow 2 (by decide) 10, warnRow 1 (by decide) 5]
  nodup := by decide
  sorted := by decide

theorem oneWarn_callOk : WarnCallOk emptyWarns (.all oneWarn) := by
  refine ⟨⟨?_, ?_, ?_⟩, fun _ _ => trivial⟩
  · intro _ _
    refine ⟨by decide +kernel, ?_⟩
    rintro c ⟨-, hne⟩
    exact absurd rfl hne
  · rintro - c ⟨hget, -⟩
    have hfst : (getWarnInfo emptyWarns 1).1 = true := congrArg Prod.fst hget
    exact absurd hfst (by decide +kernel)
  · intro hstatus
    exact absurd rfl hstatus

theorem newestOf_oneWarn {o s : WarnShm} (hs : warnStep emptyWarns (.all oneWarn) = some (o, s)) :
    NewestOf s (warnRow 2 (by decide) 10) := by
  have hread : ((warnStep emptyWarns (.all oneWarn)).map fun r =>
      (warnList r.2, (r.2.node 1).dwLastWarnTime)) = some ([((1 : Nat) : Int)], 5) := by
    decide +kernel
  rw [hs] at hread
  obtain ⟨hlist, htime⟩ := Prod.mk.inj (Option.some.inj hread)
  obtain ⟨o', s', hs', -, l, hl⟩ := warnStep_ok emptyWarns _ ⟨[], emptyWarns_inv⟩ oneWarn_callOk
  obtain ⟨rfl, rfl⟩ := Prod.mk.inj (Option.some.inj (hs.symm.trans hs'))
  have hwalk := hl.recentFirst.walk
  obtain rfl : [1] = l := List.map_injective_iff.mpr Nat.cast_injective (hlist.symm.trans hwalk)
  intro c hc _
  obtain rfl : c = 1 := List.mem_singleton.mp (hl.mem_iff.mpr hc)
  exact htime.trans_le (by decide)

theorem recent_warns_ok_newerRow :
    ∃ states s, runSteps warnStep emptyWarns [.all oneWarn, .one (warnRow 2 (by decide) 10)] =
        some (states, s) ∧
      List.Forall₂ WarnsOk [.all oneWarn, .one (warnRow 2 (by decide) 10)] states :=
  recent_warns_ok [.all oneWarn, .one (warnRow 2 (by decide) 10)]
    ⟨oneWarn_callOk, fun _ _ hs => ⟨fun _ _ => newestOf_oneWarn hs, fun _ _ _ => trivial⟩⟩

/-- Reading all rows appends the newer row behind the older one that was in the list before. -/
theorem newer_warn_appended :
    ∃ states s, runSteps warnStep emptyWarns [.all oneWarn, .all twoWarns] = some (states, s) ∧
      (s.node 1).dwLastWarnTime = 5 ∧ (s.node 2).dwLastWarnTime = 10 ∧
      warnList s = [1, 2].map Nat.cast ∧ ¬ ∃ l, RecentFirst s l := by
  have hread : ((runSteps warnStep emptyWarns [.all oneWarn, .all twoWarns]).map fun r =>
      ((r.2.node 1).dwLastWarnTime, (r.2.node 2).dwLastWarnTime, warnList r.2)) =
        some (5, 10, [1, 2].map Nat.cast) := by
    decide +kernel
  obtain ⟨⟨states, s⟩, hrun, hs⟩ := Option.map_eq_some_iff.mp hread
  simp only [Prod.mk.injEq] at hs
  obtain ⟨hone, htwo, hlist⟩ := hs
  refine ⟨states, s, hrun, hone, htwo, hlist, ?_⟩
  rintro ⟨l, hl⟩
  obtain rfl : [1, 2] = l :=
    List.map_injective_iff.mpr Nat.cast_injective (hlist.symm.trans hl.walk)
  have hsorted := hl.sorted
  simp only [List.pairwise_cons, List.mem_singleton, forall_eq, hone, htwo] at hsorted
  omega

end XrkMonitor.Config
