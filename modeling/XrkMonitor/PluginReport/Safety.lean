import XrkMonitor.PluginReport.Server

/-!
# Safety of plugin reports at the server

Handling an item leaves memory behind the item alone, unless the name of a first
report is longer than its item. So the loop goes through the items as the content
has them, and a packet whose items fill its content is handled inside of it. Any
other packet is either refused at its first item, or after the first item has
changed the database, or read beyond its end.
-/

namespace XrkMonitor.PluginReport

open Library Packet

section Memory

variable {D : Type} {srv : Server D} {mem m m' : Nat → UInt8} {p : Nat}

theorem ntohlAt_congr (h : ∀ x, p ≤ x → m x = m' x) {q : Nat} (hq : p ≤ q) :
    ntohlAt m q = ntohlAt m' q := by
  unfold ntohlAt bytesAt
  congr 1
  apply List.map_congr_left
  intro i _
  exact h _ (by omega)

theorem cstrAt_congr (h : ∀ x, p ≤ x → m x = m' x) {q : Nat} (hq : p ≤ q) (n : Nat) :
    cstrAt m q n = cstrAt m' q n := by
  unfold cstrAt bytesAt
  congr 1
  apply List.map_congr_left
  intro i _
  exact h _ (by omega)

theorem writeAt_congr {q x : Nat} {bs : List UInt8} (h : m x = m' x) :
    writeAt m q bs x = writeAt m' q bs x := by
  unfold writeAt
  rw [h]

theorem length_strAt_le {j : Nat} (hj : j < 2 ^ 16) (h : mem (p + j) = 0) :
    (strAt mem p).length ≤ j := by
  obtain ⟨k, hk⟩ : ∃ k, 2 ^ 16 = j + (1 + k) := ⟨2 ^ 16 - 1 - j, by omega⟩
  have hnul : bytesAt mem (p + j) 1 = [0] := by simp [bytesAt, h]
  rw [strAt, cstrAt, hk, bytesAt_add, bytesAt_add, hnul, cstr, List.takeWhile_append]
  split
  · rw [List.singleton_append, List.takeWhile_cons_of_neg (by simp), List.append_nil, length_bytesAt]
  · exact (List.takeWhile_prefix _).length_le.trans (by rw [length_bytesAt])

theorem hostFirst_of_ne (srv : Server D) (mem : Nat → UInt8) {x : Nat}
    (h : x < p ∨ (p + 4 ≤ x ∧ x < p + 28) ∨ p + 52 ≤ x) : hostFirst srv mem p x = mem x := by
  rw [hostFirst, writeAt, if_neg, writeAt, if_neg]
  · simp only [length_nativeBytes]
    omega
  · simp only [List.length_append, length_nativeBytes]
    omega

theorem hostInfo_of_ne (srv : Server D) (mem : Nat → UInt8) {x : Nat} (h : p + 20 ≤ x) :
    hostInfo srv mem p x = mem x := by
  rw [hostInfo, writeAt, if_neg]
  simp only [List.length_append, length_nativeBytes]
  omega

theorem hostFirst_congr (srv : Server D) (h : ∀ x, p ≤ x → m x = m' x) :
    ∀ x, p ≤ x → hostFirst srv m p x = hostFirst srv m' p x := by
  intro x hx
  unfold hostFirst
  rw [ntohlAt_congr h (Nat.le_refl p), ntohlAt_congr h (Nat.le_add_right p 28),
    ntohlAt_congr h (Nat.le_add_right p 32), ntohlAt_congr h (Nat.le_add_right p 36),
    ntohlAt_congr h (Nat.le_add_right p 40), ntohlAt_congr h (Nat.le_add_right p 44),
    ntohlAt_congr h (Nat.le_add_right p 48)]
  exact writeAt_congr (writeAt_congr (h x hx))

theorem infoAt_congr (h : ∀ x, p ≤ x → m x = m' x) : infoAt m p = infoAt m' p := by
  unfold infoAt
  rw [ntohlAt_congr h (Nat.le_refl p), ntohlAt_congr h (Nat.le_add_right p 4),
    ntohlAt_congr h (Nat.le_add_right p 8), ntohlAt_congr h (Nat.le_add_right p 12),
    ntohlAt_congr h (Nat.le_add_right p 16)]

theorem firstAt_congr (h : ∀ x, p ≤ x → m x = m' x) : firstAt srv m p = firstAt srv m' p := by
  have hhost := hostFirst_congr srv h
  unfold firstAt strAt
  rw [ntohlAt_congr h (Nat.le_refl p), ntohlAt_congr h (Nat.le_add_right p 28),
    ntohlAt_congr h (Nat.le_add_right p 32), ntohlAt_congr h (Nat.le_add_right p 36),
    ntohlAt_congr h (Nat.le_add_right p 40), ntohlAt_congr h (Nat.le_add_right p 44),
    ntohlAt_congr h (Nat.le_add_right p 48), cstrAt_congr hhost (Nat.le_add_right p 4),
    cstrAt_congr hhost (Nat.le_add_right p 16), h _ (Nat.le_add_right p 52),
    cstrAt_congr h (Nat.le_add_right p sizeofTRepPluginInfoFirst)]

theorem strncmp_le (s bs : List UInt8) : (strncmp s bs).2 ≤ bs.length := by
  induction bs generalizing s with
  | nil => exact Nat.le_refl 0
  | cons b bs ih =>
    rw [strncmp]
    split
    · simp
    · split
      · simp
      · exact Nat.succ_le_succ (ih s.tail)

end Memory

section Items

variable {D : Type} {srv : Server D} {s s' : Loop D} {p b : Nat} {r : Report}

/-- What handling an item does: it leaves memory from `b` on alone, may read further and may make a
statement, and adds one result and one report. -/
structure Handles (s s' : Loop D) (b : Nat) (r : Report) : Prop where
  frame : ∀ x, b ≤ x → s'.mem x = s.mem x
  top_le : s.top ≤ s'.top
  statements : s.statements <+: s'.statements
  checks : s'.stPluginCheck.length = s.stPluginCheck.length + 1
  seen : s'.seen = s.seen ++ [r]

theorem dealInfo_handles (srv : Server D) (s : Loop D) (p : Nat) :
    Handles s (s.dealInfo srv p) (p + 20) (.again (infoAt s.mem p)) where
  frame x hx := hostInfo_of_ne srv s.mem hx
  top_le := Nat.le_max_left _ _
  statements := List.prefix_append _ _
  checks := by simp [Loop.dealInfo, Loop.check, Loop.exec, Loop.read]
  seen := rfl

theorem dealInfo_top (srv : Server D) (s : Loop D) (p : Nat) :
    (s.dealInfo srv p).top = max s.top (p + 20) := rfl

theorem dealInfo_statements (srv : Server D) (s : Loop D) (p : Nat) :
    (s.dealInfo srv p).statements ≠ [] := by
  simp [Loop.dealInfo, Loop.check, Loop.exec]

theorem checkName_cases (srv : Server D) (s : Loop D) (p : Nat) (x : TRepPluginInfoFirst)
    (ptmp : Option (List UInt8)) (htop : p + 53 ≤ s.top) : ∃ n ≤ (s.mem (p + 52)).toNat,
      (1 ≤ (s.mem (p + 52)).toNat ∧
        s.checkName srv p x ptmp = (s.read (p + 53 + n)).saveFirst srv p x) ∨
      s.checkName srv p x ptmp = (s.read (p + 53 + n)).nameNotMatch p x := by
  have hzero : s.read (p + 53 + 0) = s := by
    simp only [Loop.read, Nat.add_zero, Nat.max_eq_left htop]
  unfold Loop.checkName
  by_cases hlen : (s.mem (p + 52)).toNat < 1
  · refine ⟨0, Nat.zero_le _, Or.inr ?_⟩
    simp only [hlen, if_true, hzero]
  · cases ptmp with
    | none =>
      refine ⟨0, Nat.zero_le _, Or.inl ⟨by omega, ?_⟩⟩
      simp only [hlen, if_false, hzero]
    | some name =>
      have hle := strncmp_le name (bytesAt s.mem (p + 53) (s.mem (p + 52)).toNat)
      rw [length_bytesAt] at hle
      refine ⟨_, hle, ?_⟩
      simp only [hlen, if_false]
      split
      · exact Or.inl ⟨by omega, rfl⟩
      · exact Or.inr rfl

theorem dealFirst_cases (srv : Server D) (s : Loop D) (p : Nat) :
    s.dealFirst srv p = (s.enterFirst srv p).check ⟨(firstAt srv s.mem p).iPluginId, 1, 0⟩ ∨
      ∃ n ≤ (s.mem (p + 52)).toNat, (1 ≤ (s.mem (p + 52)).toNat ∧ s.dealFirst srv p =
          (((s.enterFirst srv p).read (p + 53)).read (p + 53 + n)).saveFirst srv p (firstAt srv s.mem p)) ∨
        s.dealFirst srv p =
          (((s.enterFirst srv p).read (p + 53)).read (p + 53 + n)).nameNotMatch p (firstAt srv s.mem p) := by
  have hbyte : ((s.enterFirst srv p).read (p + 53)).mem (p + 52) = s.mem (p + 52) :=
    hostFirst_of_ne srv s.mem (by omega)
  rw [Loop.dealFirst]
  cases srv.plugin_name (s.enterFirst srv p).db (firstAt srv s.mem p).iPluginId with
  | none => exact Or.inl rfl
  | some ptmp =>
    have hcases := checkName_cases srv ((s.enterFirst srv p).read (p + 53)) p
      (firstAt srv s.mem p) ptmp (Nat.le_max_right _ _)
    rw [hbyte] at hcases
    exact Or.inr hcases

theorem saveFirst_handles (srv : Server D) (s : Loop D) (p : Nat) (x : TRepPluginInfoFirst) :
    (s.saveFirst srv p x).mem = s.mem ∧ (s.saveFirst srv p x).seen = s.seen ∧
      (s.saveFirst srv p x).top =
        max (max s.top (p + 4 + x.szVersion.length + 1)) (p + 16 + x.szBuildVer.length + 1) ∧
      (∃ q, (s.saveFirst srv p x).statements = s.statements ++ [q]) ∧
      (s.saveFirst srv p x).stPluginCheck.length = s.stPluginCheck.length + 1 := by
  unfold Loop.saveFirst
  dsimp only
  split
  · exact ⟨rfl, rfl, rfl, ⟨_, rfl⟩, by simp [Loop.check, Loop.exec, Loop.read]⟩
  · exact ⟨rfl, rfl, rfl, ⟨_, rfl⟩, by simp [Loop.check, Loop.exec, Loop.read]⟩

theorem dealFirst_handles (srv : Server D) (s : Loop D) (p : Nat) :
    Handles s (s.dealFirst srv p) (p + 53 + (s.mem (p + 52)).toNat) (.first (firstAt srv s.mem p)) := by
  have hhost : ∀ x, p + 53 + (s.mem (p + 52)).toNat ≤ x → hostFirst srv s.mem p x = s.mem x :=
    fun x hx => hostFirst_of_ne srv s.mem (by omega)
  rcases dealFirst_cases srv s p with heq | ⟨n, -, ⟨-, heq⟩ | heq⟩
  · rw [heq]
    exact ⟨hhost, Nat.le_max_left _ _, List.prefix_rfl, by simp [Loop.check, Loop.enterFirst, Loop.read], rfl⟩
  · obtain ⟨hmem, hseen, htop, ⟨q, hstatements⟩, hchecks⟩ := saveFirst_handles srv
      (((s.enterFirst srv p).read (p + 53)).read (p + 53 + n)) p (firstAt srv s.mem p)
    rw [heq]
    refine ⟨?_, ?_, ?_, hchecks, hseen⟩
    · rw [hmem]
      exact hhost
    · rw [htop]
      simp only [Loop.read, Loop.enterFirst]
      omega
    · rw [hstatements]
      exact List.prefix_append _ _
  · rw [heq]
    refine ⟨?_, ?_, List.prefix_rfl, by simp [Loop.nameNotMatch, Loop.check, Loop.enterFirst, Loop.read], rfl⟩
    · intro x hx
      have hbyte : hostFirst srv s.mem p (p + 52) = s.mem (p + 52) := hostFirst_of_ne srv s.mem (by omega)
      change writeAt (hostFirst srv s.mem p) (p + 52 + (hostFirst srv s.mem p (p + 52)).toNat) [0] x = _
      rw [hbyte, writeAt, if_neg (by simp only [List.length_singleton]; omega)]
      exact hhost x hx
    · simp only [Loop.nameNotMatch, Loop.check, Loop.read, Loop.enterFirst]
      omega

/-- A sound first report is read inside its item. -/
theorem dealFirst_top (srv : Server D) (s : Loop D) {p : Nat} (hsound : FirstSound s.mem p) :
    (s.dealFirst srv (p + 1)).top ≤ max s.top (p + 1 + (s.mem p).toNat) := by
  have hname := hsound.name_pos
  have hle := hsound.name_le
  have hbyteLt : (s.mem (p + 53)).toNat < 256 := (s.mem (p + 53)).toNat_lt
  have hplace : s.mem (p + 1 + 52) = s.mem (p + 53) := rfl
  unfold sizeofTRepPluginInfoFirst at hle
  have hcases := dealFirst_cases srv s (p + 1)
  rw [hplace] at hcases
  rcases hcases with heq | ⟨n, hn, ⟨-, heq⟩ | heq⟩
  · rw [heq]
    simp only [Loop.check, Loop.enterFirst, Loop.read]
    omega
  · obtain ⟨-, -, htop, -, -⟩ := saveFirst_handles srv
      (((s.enterFirst srv (p + 1)).read (p + 1 + 53)).read (p + 1 + 53 + n)) (p + 1)
      (firstAt srv s.mem (p + 1))
    have hfield : ∀ q, p + 5 ≤ q → q ≤ p + 17 → 0 ∈ bytesAt s.mem q 12 →
        (strAt (hostFirst srv s.mem (p + 1)) q).length < 12 := by
      intro q hq hq' hmem
      obtain ⟨j, hj, hnul⟩ := List.mem_map.mp hmem
      have hj := List.mem_range.mp hj
      have hsame : hostFirst srv s.mem (p + 1) (q + j) = 0 := by
        rw [hostFirst_of_ne srv s.mem (by omega), hnul]
      exact (length_strAt_le (by omega) hsame).trans_lt hj
    have hversion : (firstAt srv s.mem (p + 1)).szVersion.length < 12 := by
      simp only [firstAt, Nat.add_assoc]
      exact hfield (p + 5) (by omega) (by omega) hsound.version
    have hbuild : (firstAt srv s.mem (p + 1)).szBuildVer.length < 12 := by
      simp only [firstAt, Nat.add_assoc]
      exact hfield (p + 17) (by omega) (by omega) hsound.build
    rw [heq, htop]
    simp only [Loop.enterFirst, Loop.read]
    omega
  · have hbyte : hostFirst srv s.mem (p + 1) (p + 1 + 52) = s.mem (p + 53) :=
      hostFirst_of_ne srv s.mem (by omega)
    have hstr : (strAt (writeAt (hostFirst srv s.mem (p + 1)) (p + 1 + 52 + (s.mem (p + 53)).toNat) [0])
        (p + 1 + 53)).length ≤ (s.mem (p + 53)).toNat - 1 := by
      apply length_strAt_le (by omega)
      rw [writeAt, if_pos (by simp only [List.length_singleton]; omega)]
      have hzero : p + 1 + 53 + ((s.mem (p + 53)).toNat - 1) -
          (p + 1 + 52 + (s.mem (p + 53)).toNat) = 0 := by omega
      rw [hzero]
      rfl
    rw [heq]
    simp only [Loop.nameNotMatch, Loop.check, Loop.read, Loop.enterFirst, hbyte]
    omega

end Items

section Runs

variable {D : Type} {srv : Server D} {s : Loop D} {mem : Nat → UInt8} {k p len wLen : Nat}
  {m m' : Nat → UInt8}

/-- The report at an address. -/
def reportAt (srv : Server D) (mem : Nat → UInt8) (p : Nat) : Report :=
  if (mem p).toNat = sizeofTRepPluginInfo then .again (infoAt mem (p + 1))
  else .first (firstAt srv mem (p + 1))

/-- The reports of the items from an address on. -/
def reportsAt (srv : Server D) (mem : Nat → UInt8) : Nat → Nat → List Report
  | 0, _ => []
  | k + 1, p => reportAt srv mem p :: reportsAt srv mem k (p + 1 + (mem p).toNat)

/-- The state after an item. -/
def Loop.dealItem (srv : Server D) (s : Loop D) (p : Nat) : Loop D :=
  if (s.mem p).toNat = sizeofTRepPluginInfo then (s.read (p + 1)).dealInfo srv (p + 1)
  else (s.read (p + 1)).dealFirst srv (p + 1)

theorem run_succ (srv : Server D) (k p wLen : Nat) (s : Loop D) : Loop.run srv (k + 1) p wLen s =
    if wLen = 0 then (s, k + 1, wLen)
    else if ItemLen (s.mem p) then
      Loop.run srv k (p + 1 + (s.mem p).toNat) ((wLen + 2 ^ 16 - (1 + (s.mem p).toNat)) % 2 ^ 16)
        (s.dealItem srv p)
    else (s.read (p + 1), k + 1, wLen) := by
  rw [Loop.run, Loop.dealItem]
  unfold ItemLen
  by_cases hinfo : (s.mem p).toNat = sizeofTRepPluginInfo
  · simp only [hinfo, true_or, if_true]
  · simp only [hinfo, false_or, if_false]

theorem dealItem_handles (srv : Server D) (s : Loop D) {b : Nat} (hlen : ItemLen (s.mem p))
    (hb : p + 1 + (s.mem p).toNat ≤ b)
    (hname : sizeofTRepPluginInfoFirst < (s.mem p).toNat → p + 54 + (s.mem (p + 53)).toNat ≤ b) :
    Handles s (s.dealItem srv p) b (reportAt srv s.mem p) := by
  have hread : s.top ≤ (s.read (p + 1)).top := Nat.le_max_left _ _
  unfold Loop.dealItem reportAt
  rcases hlen with hinfo | hfirst
  · rw [if_pos hinfo, if_pos hinfo]
    have h := dealInfo_handles srv (s.read (p + 1)) (p + 1)
    rw [hinfo] at hb
    refine ⟨?_, hread.trans h.top_le, h.statements, h.checks, h.seen⟩
    exact fun x hx => h.frame x (hb.trans hx)
  · have hinfo : (s.mem p).toNat ≠ sizeofTRepPluginInfo := by
      intro heq
      rw [heq] at hfirst
      exact absurd hfirst (by decide)
    rw [if_neg hinfo, if_neg hinfo]
    have h := dealFirst_handles srv (s.read (p + 1)) (p + 1)
    have hend : p + 1 + 53 + (s.mem (p + 1 + 52)).toNat ≤ b := by
      have hplace : s.mem (p + 1 + 52) = s.mem (p + 53) := rfl
      have hname := hname hfirst
      rw [hplace]
      omega
    refine ⟨?_, hread.trans h.top_le, h.statements, h.checks, h.seen⟩
    exact fun x hx => h.frame x (hend.trans hx)

theorem run_mono (srv : Server D) (k p wLen : Nat) (s : Loop D) :
    s.top ≤ (Loop.run srv k p wLen s).1.top ∧ s.statements <+: (Loop.run srv k p wLen s).1.statements := by
  induction k generalizing p wLen s with
  | zero => exact ⟨Nat.le_refl _, List.prefix_rfl⟩
  | succ k ih =>
    rw [run_succ]
    split
    · exact ⟨Nat.le_refl _, List.prefix_rfl⟩
    · split
      · rename_i hlen
        have h := dealItem_handles srv s hlen (b := p + 1 + (s.mem p).toNat + 54 + 256 )
          (by omega) (fun _ => by
            have := (s.mem (p + 53)).toNat_lt
            omega)
        obtain ⟨htop, hstatements⟩ := ih (p + 1 + (s.mem p).toNat)
          ((wLen + 2 ^ 16 - (1 + (s.mem p).toNat)) % 2 ^ 16) (s.dealItem srv p)
        exact ⟨h.top_le.trans htop, h.statements.trans hstatements⟩
      · exact ⟨Nat.le_max_left _ _, List.prefix_rfl⟩

theorem reportAt_congr (h : ∀ x, p ≤ x → m x = m' x) :
    reportAt srv m p = reportAt srv m' p := by
  have hnext : ∀ x, p + 1 ≤ x → m x = m' x := fun x hx => h x (by omega)
  unfold reportAt
  rw [h p (Nat.le_refl p), infoAt_congr hnext, firstAt_congr hnext]

theorem FirstSound.congr (h : ∀ x, p ≤ x → m x = m' x) (hs : FirstSound m p) :
    FirstSound m' p := by
  have hbytes : ∀ q n, p ≤ q → bytesAt m q n = bytesAt m' q n := by
    intro q n hq
    apply List.map_congr_left
    intro i _
    exact h _ (by omega)
  obtain ⟨hpos, hle, hversion, hbuild⟩ := hs
  rw [h _ (by omega)] at hpos
  rw [h _ (by omega), h _ (Nat.le_refl p)] at hle
  rw [hbytes _ _ (by omega)] at hversion hbuild
  exact ⟨hpos, hle, hversion, hbuild⟩

theorem le_of_itemsFill (h : ItemsFill mem len k p) : p ≤ len := by
  induction k generalizing p with
  | zero => exact Nat.le_of_eq h
  | succ k ih =>
    have := ih h.2
    omega

/-- Items that fill the content and are sound are all handled, inside the content. -/
theorem run_fill (srv : Server D) (hlen : len < 2 ^ 16) (hmem : ∀ x, p ≤ x → s.mem x = mem x)
    (hfill : ItemsFill mem len k p) (hsound : ItemsSound mem len k p) :
    (Loop.run srv k p (len - p) s).2 = (0, 0) ∧
      (Loop.run srv k p (len - p) s).1.top ≤ max s.top len ∧
      (Loop.run srv k p (len - p) s).1.stPluginCheck.length = s.stPluginCheck.length + k ∧
      (Loop.run srv k p (len - p) s).1.seen = s.seen ++ reportsAt srv mem k p := by
  induction k generalizing p s with
  | zero =>
    have heq : p = len := hfill
    subst heq
    rw [Nat.sub_self]
    exact ⟨rfl, Nat.le_max_left _ _, rfl, (List.append_nil _).symm⟩
  | succ k ih =>
    obtain ⟨hitem, hfill⟩ := hfill
    obtain ⟨hfirst, hsound⟩ := hsound
    have hend := le_of_itemsFill hfill
    have hbyte := hmem p (Nat.le_refl p)
    have hnext : (len - p + 2 ^ 16 - (1 + (mem p).toNat)) % 2 ^ 16 = len - (p + 1 + (mem p).toNat) := by
      have hsub : len - p + 2 ^ 16 - (1 + (mem p).toNat) = len - (p + 1 + (mem p).toNat) + 2 ^ 16 := by
        omega
      rw [hsub, Nat.add_mod_right, Nat.mod_eq_of_lt (by omega)]
    have hsoundS : sizeofTRepPluginInfoFirst < (s.mem p).toNat → FirstSound s.mem p := by
      intro hlarge
      rw [hbyte] at hlarge
      exact (hfirst hlarge (by omega)).congr fun x hx => (hmem x hx).symm
    have hitemS : ItemLen (s.mem p) := by
      rw [hbyte]
      exact hitem
    have hhandles := dealItem_handles srv s hitemS (Nat.le_refl _) (fun hlarge => by
      have := (hsoundS hlarge).name_le
      unfold sizeofTRepPluginInfoFirst at this
      omega)
    have htop : (s.dealItem srv p).top ≤ max s.top (p + 1 + (mem p).toNat) := by
      unfold Loop.dealItem
      split
      · rename_i hinfo
        rw [hbyte] at hinfo
        rw [dealInfo_top, hinfo]
        unfold sizeofTRepPluginInfo
        simp only [Loop.read]
        omega
      · rename_i hinfo
        have hlarge : sizeofTRepPluginInfoFirst < (s.mem p).toNat := hitemS.resolve_left hinfo
        have h := dealFirst_top srv (s.read (p + 1)) (p := p) (hsoundS hlarge)
        have hsame : (s.read (p + 1)).mem p = mem p := hbyte
        rw [hsame] at h
        simp only [Loop.read] at h ⊢
        omega
    rw [run_succ, if_neg (by omega), if_pos hitemS, hbyte, hnext]
    obtain ⟨hrest, htopRest, hchecks, hseen⟩ := ih (s := s.dealItem srv p)
      (fun x hx => by
        rw [hhandles.frame x (by rw [hbyte]; exact hx)]
        exact hmem x (by omega)) hfill (hsound hitem)
    refine ⟨hrest, by omega, ?_, ?_⟩
    · rw [hchecks, hhandles.checks]
      omega
    · rw [hseen, hhandles.seen, reportsAt, List.append_assoc, reportAt_congr hmem]
      rfl

end Runs

section Safety

variable {s : Loop Unit} {mem : Nat → UInt8} {k p len : Nat} {D : Type}

/-- A server whose database knows every plugin, without a name. -/
def acceptAll : Server Unit where
  commInfo := NO_ERROR
  m_iRemoteMachineId := 0
  tv_sec := 0
  bEnableEncryptData := false
  plugin_name _ _ := some none
  cfg_file_time _ _ := 0
  plugin_machine _ _ := none
  execute _ _ := ()

theorem dealFirst_acceptAll (s : Loop Unit) (p : Nat) :
    (∀ x, p + 53 ≤ x → (s.dealFirst acceptAll p).mem x = s.mem x) ∧
      p + 53 ≤ (s.dealFirst acceptAll p).top ∧
      (1 ≤ (s.mem (p + 52)).toNat → (s.dealFirst acceptAll p).statements ≠ []) := by
  have hhost : ∀ x, p + 52 ≤ x → hostFirst acceptAll s.mem p x = s.mem x :=
    fun x hx => hostFirst_of_ne acceptAll s.mem (by omega)
  have hbyte : ((s.enterFirst acceptAll p).read (p + 53)).mem (p + 52) = s.mem (p + 52) :=
    hhost _ (Nat.le_refl _)
  have heq : s.dealFirst acceptAll p =
      if (s.mem (p + 52)).toNat < 1 then
        ((s.enterFirst acceptAll p).read (p + 53)).nameNotMatch p (firstAt acceptAll s.mem p)
      else ((s.enterFirst acceptAll p).read (p + 53)).saveFirst acceptAll p (firstAt acceptAll s.mem p) := by
    rw [← hbyte]
    rfl
  rw [heq]
  split
  · rename_i hname
    refine ⟨?_, ?_, fun h => absurd h (by omega)⟩
    · intro x hx
      simp only [Loop.nameNotMatch, Loop.check, hbyte]
      change writeAt (hostFirst acceptAll s.mem p) (p + 52 + (s.mem (p + 52)).toNat) [0] x = _
      rw [writeAt, if_neg (by simp only [List.length_singleton]; omega)]
      exact hhost x (by omega)
    · simp only [Loop.nameNotMatch, Loop.check, Loop.read, Loop.enterFirst]
      omega
  · obtain ⟨hmem, -, htop, ⟨q, hstatements⟩, -⟩ := saveFirst_handles acceptAll
      ((s.enterFirst acceptAll p).read (p + 53)) p (firstAt acceptAll s.mem p)
    refine ⟨?_, ?_, fun _ => ?_⟩
    · intro x hx
      rw [hmem]
      exact hhost x (by omega)
    · rw [htop]
      simp only [Loop.read, Loop.enterFirst]
      omega
    · rw [hstatements]
      simp

theorem dealItem_acceptAll (hitem : ItemLen (s.mem p)) :
    (∀ x, p + 1 + (s.mem p).toNat ≤ x → (s.dealItem acceptAll p).mem x = s.mem x) ∧
      p + 1 ≤ (s.dealItem acceptAll p).top := by
  unfold Loop.dealItem
  split
  · rename_i hinfo
    rw [hinfo]
    refine ⟨fun x hx => (dealInfo_handles acceptAll (s.read (p + 1)) (p + 1)).frame x hx, ?_⟩
    exact (Nat.le_max_right _ _).trans (dealInfo_handles acceptAll (s.read (p + 1)) (p + 1)).top_le
  · rename_i hinfo
    have hlarge : sizeofTRepPluginInfoFirst < (s.mem p).toNat := hitem.resolve_left hinfo
    unfold sizeofTRepPluginInfoFirst at hlarge
    have h := dealFirst_acceptAll (s.read (p + 1)) (p + 1)
    exact ⟨fun x hx => h.1 x (by omega), by omega⟩

/-- A packet that is accepted after reads inside its content has items that fill it. -/
theorem itemsFill_of_accepted (hlen : len < 2 ^ 16) (hp : p ≤ len) (hmem : ∀ x, p ≤ x → s.mem x = mem x)
    (haccept : (Loop.run acceptAll k p (len - p) s).2 = (0, 0))
    (htop : (Loop.run acceptAll k p (len - p) s).1.top ≤ len) : ItemsFill mem len k p := by
  induction k generalizing p s with
  | zero =>
    have hzero : len - p = 0 := congrArg Prod.snd haccept
    change p = len
    omega
  | succ k ih =>
    rw [run_succ] at haccept htop
    split at haccept
    · cases haccept
    · rename_i hne
      rw [if_neg hne] at htop
      split at haccept
      · rename_i hitem
        rw [if_pos hitem] at htop
        have hbyte := hmem p (Nat.le_refl p)
        obtain ⟨hframe, -⟩ := dealItem_acceptAll hitem
        have hlt : (s.mem p).toNat < 256 := (s.mem p).toNat_lt
        have hend : p + 1 + (s.mem p).toNat ≤ len := by
          by_contra hover
          have hwrap : (len - p + 2 ^ 16 - (1 + (s.mem p).toNat)) % 2 ^ 16 =
              len - p + 2 ^ 16 - (1 + (s.mem p).toNat) := Nat.mod_eq_of_lt (by omega)
          rw [hwrap] at haccept htop
          cases k with
          | zero =>
            have hzero : len - p + 2 ^ 16 - (1 + (s.mem p).toNat) = 0 := congrArg Prod.snd haccept
            omega
          | succ k =>
            rw [run_succ, if_neg (by omega)] at haccept htop
            split at haccept
            · rename_i hnext
              rw [if_pos hnext] at htop
              have hmono := (run_mono acceptAll k _ _ ((s.dealItem acceptAll p).dealItem acceptAll
                (p + 1 + (s.mem p).toNat))).1.trans htop
              have hread := (dealItem_acceptAll hnext).2
              omega
            · cases haccept
        have hnext : (len - p + 2 ^ 16 - (1 + (s.mem p).toNat)) % 2 ^ 16 =
            len - (p + 1 + (s.mem p).toNat) := by
          have hsub : len - p + 2 ^ 16 - (1 + (s.mem p).toNat) =
              len - (p + 1 + (s.mem p).toNat) + 2 ^ 16 := by omega
          rw [hsub, Nat.add_mod_right, Nat.mod_eq_of_lt (by omega)]
        rw [hnext] at haccept htop
        have hfill := ih hend (fun x hx => (hframe x hx).trans (hmem x (by omega))) haccept htop
        rw [hbyte] at hfill hitem
        exact ⟨hitem, hfill⟩
      · cases haccept

theorem first_item_acts (hitem : ItemLen (s.mem p))
    (hsound : sizeofTRepPluginInfoFirst < (s.mem p).toNat → p + 1 + sizeofTRepPluginInfoFirst ≤ len →
      FirstSound s.mem p) :
    (s.dealItem acceptAll p).statements ≠ [] ∨ len < (s.dealItem acceptAll p).top := by
  unfold Loop.dealItem
  split
  · exact Or.inl (dealInfo_statements acceptAll (s.read (p + 1)) (p + 1))
  · rename_i hinfo
    have hlarge : sizeofTRepPluginInfoFirst < (s.mem p).toNat := hitem.resolve_left hinfo
    obtain ⟨-, htop, hstatements⟩ := dealFirst_acceptAll (s.read (p + 1)) (p + 1)
    by_cases hfits : p + 1 + sizeofTRepPluginInfoFirst ≤ len
    · exact Or.inl (hstatements (hsound hlarge hfits).name_pos)
    · unfold sizeofTRepPluginInfoFirst at hfits
      exact Or.inr (by omega)

theorem length_sRspBuf (xs : List MonitorPluginCheckResult) (b : UInt8) :
    (b :: xs.flatMap MonitorPluginCheckResult.bytes).length = 1 + 6 * xs.length := by
  have hbytes : ∀ x : MonitorPluginCheckResult, x.bytes.length = 6 := by
    intro x
    simp [MonitorPluginCheckResult.bytes]
  rw [List.length_cons, List.length_flatMap, List.map_congr_left fun x _ => hbytes x]
  simp
  omega

theorem deal_refused {srv : Server D} {db : D} {r : Loop D × Nat × Nat} (hlong : 1 < len)
    (hcomm : srv.commInfo = NO_ERROR)
    (hrun : Loop.run srv (mem 0).toNat 1 (len - 1) (Loop.start mem db) = r) (hr : 0 < r.2.1 ∨ 0 < r.2.2) :
    dealCmdReportPluginInfo srv db mem len =
      ⟨ERR_INVALID_PACKET, r.1.top, r.1.statements, [], r.1.seen⟩ := by
  have hnot : ¬len ≤ sizeofMonitorRepPluginInfoContent := Nat.not_le.mpr hlong
  have hrun : Loop.run srv (mem 0).toNat 1 (len - sizeofMonitorRepPluginInfoContent) (Loop.start mem db) = r := hrun
  rw [dealCmdReportPluginInfo, if_neg hnot, if_neg (not_not.mpr hcomm)]
  simp only [hrun, hr, if_true]

theorem deal_accepted {srv : Server D} {db : D} {r : Loop D × Nat × Nat} (hlong : 1 < len)
    (hcomm : srv.commInfo = NO_ERROR)
    (hrun : Loop.run srv (mem 0).toNat 1 (len - 1) (Loop.start mem db) = r) (hr : r.2 = (0, 0)) :
    ∃ iRet sRspBuf, dealCmdReportPluginInfo srv db mem len =
        ⟨iRet, r.1.top, r.1.statements, sRspBuf, r.1.seen⟩ ∧
      sRspBuf.length = 1 + 6 * r.1.stPluginCheck.length ∧
      (r.1.stPluginCheck.length ≤ 85 → iRet = NO_ERROR) := by
  have hnot : ¬len ≤ sizeofMonitorRepPluginInfoContent := Nat.not_le.mpr hlong
  have hrun : Loop.run srv (mem 0).toNat 1 (len - sizeofMonitorRepPluginInfoContent) (Loop.start mem db) = r := hrun
  rw [dealCmdReportPluginInfo, if_neg hnot, if_neg (not_not.mpr hcomm)]
  simp only [hrun, hr, Nat.lt_irrefl, or_self, if_false]
  refine ⟨_, _, rfl, length_sRspBuf _ _, ?_⟩
  intro hle
  rw [length_sRspBuf, if_neg]
  unfold sContentBufEncSize
  omega

theorem run_refused (srv : Server D) (db : D) (hlong : 1 < len)
    (hbad : mem 0 = 0 ∨ ¬ItemLen (mem 1)) :
    ∃ s k, Loop.run srv (mem 0).toNat 1 (len - 1) (Loop.start mem db) = (s, k, len - 1) ∧
      s.top ≤ len ∧ s.statements = [] := by
  cases hn : (mem 0).toNat with
  | zero => exact ⟨Loop.start mem db, 0, rfl, hlong.le, rfl⟩
  | succ n =>
    have hitem : ¬ItemLen ((Loop.start mem db).mem 1) := by
      refine hbad.resolve_left ?_
      intro hzero
      rw [hzero] at hn
      cases hn
    rw [run_succ, if_neg (by omega), if_neg hitem]
    refine ⟨_, _, rfl, ?_, rfl⟩
    simp only [Loop.read, Loop.start]
    omega

/-- A sound packet that is safe has the right shape: a server that accepts all plugins shows it. -/
theorem shape_of_safe (hlen : len < 2 ^ 16) (hsound : ItemsSound mem len (mem 0).toNat 1)
    (hsafe : ServerSafe mem len) : Shape mem len := by
  by_contra hshape
  simp only [Shape, not_or, not_not] at hshape
  obtain ⟨hlong, hcount, hitem, hfill⟩ := hshape
  have hlong : 1 < len := Nat.lt_of_not_le hlong
  obtain ⟨n, hn⟩ : ∃ n, (mem 0).toNat = n + 1 := by
    refine ⟨(mem 0).toNat - 1, ?_⟩
    have hpos : (mem 0).toNat ≠ 0 := fun h => hcount (UInt8.toNat_inj.mp h)
    omega
  have hitem : ItemLen ((Loop.start mem ()).mem 1) := hitem
  have hacts : ((Loop.start mem ()).dealItem acceptAll 1).statements ≠ [] ∨
      len < ((Loop.start mem ()).dealItem acceptAll 1).top := by
    apply first_item_acts hitem
    rw [hn] at hsound
    exact hsound.1
  obtain ⟨r, hr⟩ : ∃ r, Loop.run acceptAll (mem 0).toNat 1 (len - 1) (Loop.start mem ()) = r := ⟨_, rfl⟩
  have hmono : ((Loop.start mem ()).dealItem acceptAll 1).top ≤ r.1.top ∧
      ((Loop.start mem ()).dealItem acceptAll 1).statements <+: r.1.statements := by
    rw [← hr, hn, run_succ, if_neg (by omega), if_pos hitem]
    exact run_mono acceptAll n _ _ _
  obtain ⟨htop, hanswer, hnone⟩ := hsafe Unit acceptAll ()
  by_cases hreject : 0 < r.2.1 ∨ 0 < r.2.2
  · rw [deal_refused hlong rfl hr hreject] at htop hnone
    have hnil : r.1.statements = [] := hnone (show ERR_INVALID_PACKET ≠ NO_ERROR by decide)
    have htop : r.1.top ≤ len := htop
    rcases hacts with hstatements | hover
    · rw [hnil] at hmono
      exact hstatements (List.prefix_nil.mp hmono.2)
    · omega
  · simp only [not_or, Nat.not_lt, Nat.le_zero] at hreject
    obtain ⟨iRet, sRspBuf, heq, hlength, -⟩ := deal_accepted hlong rfl hr (Prod.ext hreject.1 hreject.2)
    rw [heq] at htop hanswer
    have hfills : ItemsFill mem len (mem 0).toNat 1 := by
      apply itemsFill_of_accepted (s := Loop.start mem ()) hlen hlong.le (fun x _ => rfl)
      · rw [hr]
        exact Prod.ext hreject.1 hreject.2
      · rw [hr]
        exact htop
    obtain ⟨-, -, hchecks, -⟩ := run_fill acceptAll (s := Loop.start mem ()) hlen
      (fun x _ => rfl) hfills hsound
    rw [hr] at hchecks
    have hnil : (Loop.start mem ()).stPluginCheck.length = 0 := rfl
    have hanswer : sRspBuf.length ≤ 512 := hanswer
    exact hfill ⟨hfills, by omega⟩

/-- A sound packet is safe for the server exactly if it has the right shape. -/
theorem serverSafe_iff (hlen : len < 2 ^ 16) (hsound : ItemsSound mem len (mem 0).toNat 1) :
    ServerSafe mem len ↔ Shape mem len := by
  refine ⟨shape_of_safe hlen hsound, ?_⟩
  intro hshape D srv db
  by_cases hlong : len ≤ sizeofMonitorRepPluginInfoContent
  · rw [dealCmdReportPluginInfo, if_pos hlong]
    exact ⟨Nat.zero_le _, Nat.zero_le _, fun _ => rfl⟩
  · by_cases hcomm : srv.commInfo = NO_ERROR
    · have hlt : 1 < len := Nat.lt_of_not_le hlong
      have hrefused : mem 0 = 0 ∨ ¬ItemLen (mem 1) → _ := run_refused srv db hlt
      rcases hshape with hshort | hzero | hbad | ⟨hfill, hcount⟩
      · exact absurd hshort hlong
      · obtain ⟨s, k, hrun, htop, hnone⟩ := hrefused (Or.inl hzero)
        rw [deal_refused hlt hcomm hrun (Or.inr (by simp only; omega))]
        exact ⟨htop, Nat.zero_le _, fun _ => hnone⟩
      · obtain ⟨s, k, hrun, htop, hnone⟩ := hrefused (Or.inr hbad)
        rw [deal_refused hlt hcomm hrun (Or.inr (by simp only; omega))]
        exact ⟨htop, Nat.zero_le _, fun _ => hnone⟩
      · obtain ⟨haccept, htop, hchecks, -⟩ := run_fill srv (s := Loop.start mem db) hlen
          (fun x _ => rfl) hfill hsound
        obtain ⟨iRet, sRspBuf, heq, hlength, hret⟩ := deal_accepted hlt hcomm rfl haccept
        have hstart : (Loop.start mem db).top = 1 ∧ (Loop.start mem db).stPluginCheck.length = 0 := ⟨rfl, rfl⟩
        rw [hchecks, hstart.2, Nat.zero_add] at hlength hret
        rw [heq]
        refine ⟨?_, ?_, fun hne => absurd (hret hcount) hne⟩
        · simp only
          omega
        · unfold sRspBufSize
          simp only
          omega
    · rw [dealCmdReportPluginInfo, if_neg hlong, if_pos hcomm]
      exact ⟨Nat.zero_le _, Nat.zero_le _, fun _ => rfl⟩

end Safety

end XrkMonitor.PluginReport
