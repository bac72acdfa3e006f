import XrkMonitor.PluginReport.Safety

/-!
# Round trip of plugin reports

What the agent writes, the server reads: each item gives the report it was made
from. The agent tests the room in its buffer before it knows the length of the
name, so a first report can go over the end of the buffer.
-/

namespace XrkMonitor.PluginReport

open Library Packet

section ReadItem

variable {D : Type} {srv : Server D} {mem : Nat → UInt8} {p : Nat} {bs : List UInt8}

theorem ntohlAt_of_stands {n : Nat} (h : Stands mem p (toBytes 4 n)) (hn : n < 256 ^ 4) :
    ntohlAt mem p = n := by
  rw [Stands, length_toBytes] at h
  rw [ntohlAt, h, ofBytes_toBytes_of_lt hn]

theorem stands_congr {m : Nat → UInt8} (h : Stands mem p bs)
    (hm : ∀ x, p ≤ x → x < p + bs.length → m x = mem x) : Stands m p bs := by
  have hbytes : bytesAt m p bs.length = bytesAt mem p bs.length := by
    apply List.map_congr_left
    intro i hi
    have hlt := List.mem_range.mp hi
    exact hm _ (by omega) (by omega)
  rw [Stands, hbytes]
  exact h

/-- What is said about an item at an address. -/
structure ReadsAs (srv : Server D) (mem : Nat → UInt8) (p : Nat) (bs : List UInt8) (r : Report) : Prop where
  length : p + 1 + (mem p).toNat = p + bs.length
  itemLen : ItemLen (mem p)
  report : reportAt srv mem p = r
  sound : sizeofTRepPluginInfoFirst < (mem p).toNat → FirstSound mem p

theorem readsAs_again {x : TRepPluginInfo} (hx : x.Ok) (h : Stands mem p x.item) :
    ReadsAs srv mem p x.item (.again x) := by
  have hlength := length_item x
  obtain ⟨hlen, h⟩ := stands_cons.mp h
  obtain ⟨hId, h⟩ := stands_append.mp h
  obtain ⟨hAttr, h⟩ := stands_append.mp h
  obtain ⟨hLog, h⟩ := stands_append.mp h
  obtain ⟨hHello, hCfg⟩ := stands_append.mp h
  simp only [length_toBytes] at hAttr hLog hHello hCfg
  obtain ⟨okId, okAttr, okLog, okHello, okCfg⟩ := hx
  have hbyte : (mem p).toNat = sizeofTRepPluginInfo := by
    rw [hlen]
    rfl
  refine ⟨by omega, Or.inl hbyte, ?_, ?_⟩
  · rw [reportAt, if_pos hbyte, infoAt, ntohlAt_of_stands hId okId, ntohlAt_of_stands hAttr okAttr,
      ntohlAt_of_stands hLog okLog, ntohlAt_of_stands hHello okHello, ntohlAt_of_stands hCfg okCfg]
  · intro hlarge
    rw [hbyte] at hlarge
    exact absurd hlarge (by decide)

theorem strAt_hostFirst {q : Nat} {array str : List UInt8} (hq : p + 4 ≤ q) (hq' : q ≤ p + 16)
    (hholds : Holds 12 array str) (h : Stands mem q array) : strAt (hostFirst srv mem p) q = str := by
  obtain ⟨hlen, hne, rest, rfl⟩ := hholds
  rw [List.length_append, List.length_cons] at hlen
  have hsplit : str ++ 0 :: rest = (str ++ [0]) ++ rest := by simp
  rw [hsplit] at h
  have hstr : Stands (hostFirst srv mem p) q (str ++ [0]) := by
    apply stands_congr (stands_append.mp h).1
    intro x hx hx'
    rw [List.length_append, List.length_singleton] at hx'
    exact hostFirst_of_ne srv mem (by omega)
  exact cstrAt_eq hne (by omega) hstr

theorem readsAs_first {x : TRepPluginInfoFirst} {v b : List UInt8} (hx : x.Ok) (hv : Holds 12 v x.szVersion)
    (hb : Holds 12 b x.szBuildVer) (h : Stands mem p (x.item v b)) :
    ReadsAs srv mem p (x.item v b) (.first x) := by
  have hlength := length_itemFirst hv.1 hb.1 x
  have hname := hx.name_le
  obtain ⟨hlen, h⟩ := stands_cons.mp h
  obtain ⟨hId, h⟩ := stands_append.mp h
  obtain ⟨hVersion, h⟩ := stands_append.mp h
  obtain ⟨hBuild, h⟩ := stands_append.mp h
  obtain ⟨hLib, h⟩ := stands_append.mp h
  obtain ⟨hCfg, h⟩ := stands_append.mp h
  obtain ⟨hAttr, h⟩ := stands_append.mp h
  obtain ⟨hLog, h⟩ := stands_append.mp h
  obtain ⟨hHello, h⟩ := stands_append.mp h
  obtain ⟨hStart, h⟩ := stands_append.mp h
  obtain ⟨hNameLen, hName⟩ := stands_cons.mp h
  simp only [length_toBytes, hv.1, hb.1, Nat.add_assoc] at hVersion hBuild hLib hCfg hAttr hLog hHello hStart
  simp only [length_toBytes, hv.1, hb.1, Nat.add_assoc] at hNameLen hName
  have hbyte : (mem p).toNat = sizeofTRepPluginInfoFirst + (x.sPluginName.length + 1) := by
    rw [hlen, UInt8.toNat_ofNat']
    exact Nat.mod_eq_of_lt (by unfold sizeofTRepPluginInfoFirst; omega)
  have hnameByte : (mem (p + 53)).toNat = x.sPluginName.length + 1 := by
    rw [hNameLen, UInt8.toNat_ofNat']
    exact Nat.mod_eq_of_lt (by omega)
  have hlarge : sizeofTRepPluginInfoFirst < (mem p).toNat := by omega
  refine ⟨by omega, Or.inr hlarge, ?_, ?_⟩
  · have hver : strAt (hostFirst srv mem (p + 1)) (p + 1 + 4) = x.szVersion :=
      strAt_hostFirst (by omega) (by omega) hv hVersion
    have hbuild : strAt (hostFirst srv mem (p + 1)) (p + 1 + 16) = x.szBuildVer :=
      strAt_hostFirst (by omega) (by omega) hb hBuild
    have hstr : cstrAt mem (p + 1 + sizeofTRepPluginInfoFirst) (mem (p + 1 + 52)).toNat = x.sPluginName := by
      apply cstrAt_eq hx.name_ne
      · have hplace : (mem (p + 1 + 52)).toNat = x.sPluginName.length + 1 := hnameByte
        omega
      · exact hName
    rw [reportAt, if_neg (by unfold sizeofTRepPluginInfo sizeofTRepPluginInfoFirst at *; omega), firstAt, hver,
      hbuild, hstr, ntohlAt_of_stands hId hx.iPluginId, ntohlAt_of_stands hLib hx.iLibVerNum,
      ntohlAt_of_stands hCfg hx.dwConfigFileTime, ntohlAt_of_stands hAttr hx.dwLastReportAttrTime,
      ntohlAt_of_stands hLog hx.dwLastReportLogTime, ntohlAt_of_stands hHello hx.dwLastHelloTime,
      ntohlAt_of_stands hStart hx.dwPluginStartTime]
  · intro _
    refine ⟨by omega, by omega, ?_, ?_⟩
    · obtain ⟨hvLen, -, rest, hvEq⟩ := hv
      rw [Stands, hvLen] at hVersion
      rw [show p + 5 = p + (1 + 4) from rfl, hVersion, hvEq]
      simp
    · obtain ⟨hbLen, -, rest, hbEq⟩ := hb
      rw [Stands, hbLen] at hBuild
      rw [show p + 17 = p + (1 + (4 + 12)) from rfl, hBuild, hbEq]
      simp

theorem readsAs {r : Report} (h : r.IsItem bs) (hstands : Stands mem p bs) : ReadsAs srv mem p bs r := by
  cases r with
  | again x =>
    obtain ⟨hx, rfl⟩ := h
    exact readsAs_again hx hstands
  | first x =>
    obtain ⟨hx, v, b, hv, hb, rfl⟩ := h
    exact readsAs_first hx hv hb hstands

theorem reads_items (srv : Server D) {rs : List Report} {its : List (List UInt8)} {len : Nat}
    (h : List.Forall₂ Report.IsItem rs its) (hstands : Stands mem p its.flatten)
    (hlen : p + its.flatten.length = len) :
    ItemsFill mem len rs.length p ∧ ItemsSound mem len rs.length p ∧
      reportsAt srv mem rs.length p = rs := by
  induction h generalizing p with
  | nil => exact ⟨hlen, trivial, rfl⟩
  | @cons r bs rs its hitem _ ih =>
    rw [List.flatten_cons] at hstands hlen
    rw [List.length_append] at hlen
    obtain ⟨hbs, hrest⟩ := stands_append.mp hstands
    have hread : ReadsAs srv mem p bs r := readsAs hitem hbs
    rw [← hread.length] at hrest
    obtain ⟨hfill, hsound, hreports⟩ := ih hrest (by have := hread.length; omega)
    refine ⟨⟨hread.itemLen, hfill⟩, ⟨fun hlarge _ => hread.sound hlarge, fun _ => hsound⟩, ?_⟩
    rw [List.length_cons, reportsAt, hread.report, hreports]

end ReadItem

section Claim

/-- The agent's content stays in its buffer, and a server that is sent it finds the reports. -/
def ReportRoundTrips (dwCurTime : UInt32) (idx : Option (Fin MAX_INNER_PLUS_COUNT)) (t : PluginTable)
    (szVersion szBuildVer : List UInt8) : Prop :=
  let s := (makeRepPluginInfoToServer dwCurTime idx t szVersion szBuildVer).1
  s.content.length ≤ sContentBufSize ∧
    (s.reports ≠ [] → ∀ (D : Type) (srv : Server D) (db : D) (mem : Nat → UInt8),
      srv.commInfo = NO_ERROR → Stands mem 0 s.content →
        let r := dealCmdReportPluginInfo srv db mem s.content.length
        r.iRet = NO_ERROR ∧ r.seen = s.reports)

theorem deal_content {D : Type} {srv : Server D} {db : D} {mem : Nat → UInt8} {s : Send} (hok : s.Ok)
    (hlen : s.content.length ≤ sContentBufSize) (hne : s.reports ≠ []) (hcomm : srv.commInfo = NO_ERROR)
    (hstands : Stands mem 0 s.content) :
    (dealCmdReportPluginInfo srv db mem s.content.length).iRet = NO_ERROR ∧
      (dealCmdReportPluginInfo srv db mem s.content.length).seen = s.reports := by
  obtain ⟨its, hitems, hforall⟩ := hok.items
  have hsize := reports_length_le hforall
  rw [← hitems] at hsize
  have hpos := List.length_pos_iff.mpr hne
  have hlength : s.content.length = 1 + s.items.length := by
    rw [Send.content, List.length_cons, Nat.add_comm]
  unfold sContentBufSize at hlen
  obtain ⟨hcountByte, hrest⟩ := stands_cons.mp hstands
  have hcount : (mem 0).toNat = s.reports.length := by
    rw [hcountByte, UInt8.toNat_ofNat']
    exact Nat.mod_eq_of_lt (by omega)
  rw [hitems] at hrest
  have hend : 0 + 1 + its.flatten.length = s.content.length := by rw [hlength, hitems, Nat.zero_add]
  obtain ⟨hfill, hsound, hreports⟩ := reads_items srv hforall hrest hend
  rw [Nat.zero_add, ← hcount] at hfill hsound hreports
  obtain ⟨haccept, -, hchecks, hseen⟩ := run_fill srv (s := Loop.start mem db) (by omega)
    (fun x _ => rfl) hfill hsound
  obtain ⟨iRet, sRspBuf, heq, -, hret⟩ := deal_accepted (by omega) hcomm rfl haccept
  have hnil : (Loop.start mem db).stPluginCheck.length = 0 ∧ (Loop.start mem db).seen = [] := ⟨rfl, rfl⟩
  rw [hnil.1] at hchecks
  rw [hnil.2, List.nil_append] at hseen
  rw [heq]
  exact ⟨hret (by omega), hseen.trans hreports⟩

/-- The agent's content makes the round trip exactly if the reports fit into its buffer, and a sound
packet is safe for the server exactly if its items fill its content and are not too many, or it is
refused at once. -/
theorem plugin_report_iff (dwCurTime : UInt32) (idx : Option (Fin MAX_INNER_PLUS_COUNT)) (t : PluginTable)
    (szVersion szBuildVer : List UInt8) (hv : szVersion.length = 12) (hb : szBuildVer.length = 12)
    {mem : Nat → UInt8} {len : Nat} (hlen : len < 2 ^ 16) (hsound : ItemsSound mem len (mem 0).toNat 1) :
    (ReportRoundTrips dwCurTime idx t szVersion szBuildVer ↔ Fits (startTable idx t) (startIdx idx)) ∧
      (ServerSafe mem len ↔ Shape mem len) := by
  refine ⟨?_, serverSafe_iff hlen hsound⟩
  have hiff := length_content_le_iff dwCurTime idx t hv hb
  refine ⟨fun h => hiff.mp h.1, ?_⟩
  intro hfits
  have hlen := hiff.mpr hfits
  have hok : Send.Ok ⟨startTable idx t, [], [], szVersion, szBuildVer⟩ := ⟨hv, hb, [], rfl, .nil⟩
  have hloop := (Send.loop_spec dwCurTime (i := startIdx idx) (t := startTable idx t) hok
    (Nat.le_refl MAX_INNER_PLUS_COUNT) (fun k _ => rfl)).1
  exact ⟨hlen, fun hne D srv db mem hcomm hstands => deal_content hloop hlen hne hcomm hstands⟩

/-- An installed plugin that has not been reported, with a name of `n` characters. -/
def newPlugin (iPluginId : UInt32) (n : Nat) (h : n ≤ 63) : TInnerPlusInfo where
  szPlusName := ⟨List.replicate n 97 ++ List.replicate (63 - n) 0, by simp; omega⟩
  iPluginId := iPluginId
  szVersion := CharBuf.zero 12
  szBuildVer := CharBuf.zero 12
  iLibVerNum := 1
  dwLastReportAttrTime := 0
  dwLastReportLogTime := 0
  dwPluginStartTime := 1700000000
  dwLastReportSelfInfoTime := 0
  dwRep_LastReportLogTime := 0
  dwRep_LastReportAttrTime := 0
  dwLastHelloTime := 0
  dwRep_LastHelloTime := 0
  dwCfgFileLastModTime := 1700000000

/-- A table with `count` new plugins whose names have `n` characters. -/
def newPlugins (count n : Nat) (h : n ≤ 63) : PluginTable := fun i =>
  newPlugin (if i.val < count then UInt32.ofNat (i.val + 1) else 0) n h

/-- Two new plugins, and a packet with one known plugin. -/
theorem plugin_report_iff_two :
    let mem : Nat → UInt8 := fun x => ([1, 20] : List UInt8).getD x 0
    ReportRoundTrips 1700000000 none (newPlugins 2 8 (by decide)) (List.replicate 12 0) (List.replicate 12 0) ∧
      ServerSafe mem 22 := by
  intro mem
  have hsound : ItemsSound mem 22 (mem 0).toNat 1 := ⟨fun h => absurd h (by decide), fun _ => trivial⟩
  obtain ⟨htrip, hsafe⟩ := plugin_report_iff 1700000000 none (newPlugins 2 8 (by decide))
    (List.replicate 12 0) (List.replicate 12 0) rfl rfl (by decide) hsound
  refine ⟨htrip.mpr ?_, hsafe.mpr ?_⟩
  · unfold Fits
    decide +kernel
  · exact Or.inr (Or.inr (Or.inr ⟨⟨by decide, rfl⟩, by decide⟩))

/-- Nine new plugins with full names go over the end of the buffer, and a packet of two bytes is read
beyond its end and changes the database before it is refused. -/
theorem plugin_report_overrun :
    ¬ReportRoundTrips 1700000000 none (newPlugins 9 63 (by decide)) (List.replicate 12 0) (List.replicate 12 0) ∧
      ¬ServerSafe (fun x => ([1, 20] : List UInt8).getD x 0) 2 := by
  refine ⟨?_, ?_⟩
  · intro h
    exact absurd h.1 (by decide +kernel)
  · intro h
    exact absurd (h Unit acceptAll ()).1 (by decide)

end Claim

end XrkMonitor.PluginReport
