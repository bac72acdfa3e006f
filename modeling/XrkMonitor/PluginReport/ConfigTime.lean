import Mathlib.Data.List.Infix
import XrkMonitor.PluginReport.ConfigText
import XrkMonitor.PluginReport.RoundTrip

/-!
# The report of a plugin configuration

The agent runs `report_cfg.sh` of a plugin and copies its output into a packet for the server. It
is to keep the time that stands in the output, which the server takes from the packet, so that both
can tell whether the configuration file has changed. The agent takes the text from the `:` on, and
what begins with a `:` is no number, so it never learns the time. An output that does not fit is to
be shortened, but the copy goes on beyond the end of the buffer.

## Implementation notes

The output is what `get_cmd_result` delivers, which is a C string. The buffer lies anywhere in
memory, and an `int` has 32 bits. The path of the command and the log lines are left out.
-/

namespace XrkMonitor.PluginReport

open Library

section Model

/-- `GetModTimeFromReportStr`. -/
def getModTimeFromReportStr (str : List UInt8) : UInt32 :=
  match (cstr str).findIdx? (· == 58), (cstr str).findIdx? (· == 59) with
  | some pst, some pend =>
    if pst < pend then UInt32.ofNat (strtoul (((cstr str).drop pst).take (pend - pst))) else 0
  | _, _ => 0

/-- What `ReadPluginCfg` returns, and the plugin and the memory after it. -/
structure PluginCfg where
  iContentLen : Int
  plugin : TInnerPlusInfo
  mem : Nat → UInt8

/-- `ReadPluginCfg` into a buffer of `iBufLen` bytes at `pcfg`. -/
def readPluginCfg (plugin : TInnerPlusInfo) (mem : Nat → UInt8) (pcfg iBufLen : Nat)
    (strResult : List UInt8) : PluginCfg :=
  if s_plugCfgStr <:+: strResult then
    let dwTm := getModTimeFromReportStr strResult
    let plugin := if dwTm ≠ 0 then { plugin with dwCfgFileLastModTime := dwTm } else plugin
    let size := strResult.length + sizeofCmdSendPluginConfigContent
    let strCfgs := pcfg + sizeofCmdSendPluginConfigContent
    if Int.bmod size (2 ^ 32) < iBufLen then
      ⟨Int.bmod (size + 1) (2 ^ 32), plugin, writeAt mem strCfgs (cstr strResult ++ [0])⟩
    else
      let copied := (cstr strResult ++ List.replicate (iBufLen - 1) 0).take (iBufLen - 1)
      ⟨iBufLen, plugin, writeAt (writeAt mem strCfgs copied)
        (strCfgs + (iBufLen - sizeofCmdSendPluginConfigContent - 1)) [0]⟩
  else ⟨-1, plugin, mem⟩

end Model

section Report

variable {plugin : TInnerPlusInfo} {mem : Nat → UInt8} {pcfg iBufLen : Nat}
  {digits strResult : List UInt8} {T : UInt32}

/-- What a report is to come to: the agent writes into its buffer only, the content ends with a
text that the buffer holds, and the server takes the time from it that the agent keeps. -/
def Reports (plugin : TInnerPlusInfo) (strResult : List UInt8) (iBufLen : Nat) (T : UInt32) :
    Prop :=
  ∀ mem pcfg,
    (∀ q, q < pcfg ∨ pcfg + iBufLen ≤ q →
      (readPluginCfg plugin mem pcfg iBufLen strResult).mem q = mem q) ∧
    ∃ text, text <+: strResult ∧
      Stands (readPluginCfg plugin mem pcfg iBufLen strResult).mem
        (pcfg + sizeofCmdSendPluginConfigContent) (text ++ [0]) ∧
      (readPluginCfg plugin mem pcfg iBufLen strResult).iContentLen =
        sizeofCmdSendPluginConfigContent + text.length + 1 ∧
      (∃ buf list, dealStrCfgs (text ++ [0]) = some (buf, .stored T list)) ∧
      (readPluginCfg plugin mem pcfg iBufLen strResult).plugin.dwCfgFileLastModTime = T

theorem getModTimeFromReportStr_eq_zero (hne : ∀ b ∈ strResult, b ≠ 0)
    (hbegins : s_plugCfgStr <+: strResult) : getModTimeFromReportStr strResult = 0 := by
  obtain ⟨rest, rfl⟩ := hbegins
  have hcolon : (s_plugCfgStr ++ rest).findIdx? (· == 58) = some 15 := by
    rw [List.findIdx?_append]
    rfl
  rw [getModTimeFromReportStr, cstr_eq_self hne, hcolon]
  cases (s_plugCfgStr ++ rest).findIdx? (· == 59) with
  | none => rfl
  | some pend =>
    by_cases hlt : 15 < pend
    · obtain ⟨k, hk⟩ := Nat.exists_eq_succ_of_ne_zero (Nat.sub_ne_zero_of_lt hlt)
      have htext : ((s_plugCfgStr ++ rest).drop 15).take (pend - 15) = 58 :: rest.take k := by
        rw [hk]
        rfl
      simp only [if_pos hlt, htext]
      rw [strtoul_cons (by decide) (by decide) (by decide) (by decide)]
      rfl
    · simp only [if_neg hlt]

theorem readPluginCfg_eq (hne : ∀ b ∈ strResult, b ≠ 0) (hbegins : s_plugCfgStr <+: strResult) :
    readPluginCfg plugin mem pcfg iBufLen strResult =
      if Int.bmod (strResult.length + sizeofCmdSendPluginConfigContent : Nat) (2 ^ 32) <
          iBufLen then
        ⟨Int.bmod ((strResult.length + sizeofCmdSendPluginConfigContent : Nat) + 1) (2 ^ 32),
          plugin, writeAt mem (pcfg + sizeofCmdSendPluginConfigContent) (strResult ++ [0])⟩
      else
        ⟨iBufLen, plugin, writeAt (writeAt mem (pcfg + sizeofCmdSendPluginConfigContent)
            ((strResult ++ List.replicate (iBufLen - 1) 0).take (iBufLen - 1)))
          (pcfg + sizeofCmdSendPluginConfigContent +
            (iBufLen - sizeofCmdSendPluginConfigContent - 1)) [0]⟩ := by
  rw [readPluginCfg, if_pos hbegins.isInfix, getModTimeFromReportStr_eq_zero hne hbegins,
    cstr_eq_self hne]
  rfl

theorem readPluginCfg_of_fits (hne : ∀ b ∈ strResult, b ≠ 0) (hbegins : s_plugCfgStr <+: strResult)
    (hfits : strResult.length + sizeofCmdSendPluginConfigContent < iBufLen)
    (hint : iBufLen < 2 ^ 31) :
    readPluginCfg plugin mem pcfg iBufLen strResult =
      ⟨sizeofCmdSendPluginConfigContent + strResult.length + 1, plugin,
        writeAt mem (pcfg + sizeofCmdSendPluginConfigContent) (strResult ++ [0])⟩ := by
  have hsize : ((strResult.length + sizeofCmdSendPluginConfigContent : Nat) : Int).bmod (2 ^ 32) =
      (strResult.length + sizeofCmdSendPluginConfigContent : Nat) :=
    Int.bmod_eq_of_le (by omega) (by omega)
  have hsucc : (((strResult.length + sizeofCmdSendPluginConfigContent : Nat) : Int) + 1).bmod
      (2 ^ 32) = sizeofCmdSendPluginConfigContent + strResult.length + 1 := by
    rw [Int.bmod_eq_of_le (by omega) (by omega)]
    omega
  rw [readPluginCfg_eq hne hbegins, hsize, hsucc, if_pos (Int.ofNat_lt.mpr hfits)]

theorem readPluginCfg_writes_behind (hne : ∀ b ∈ strResult, b ≠ 0)
    (hbegins : s_plugCfgStr <+: strResult)
    (hlong : iBufLen ≤ strResult.length + sizeofCmdSendPluginConfigContent)
    (hbuf : sizeofCmdSendPluginConfigContent < iBufLen) (plugin : TInnerPlusInfo) (pcfg : Nat) :
    ∃ b, ∀ mem, (readPluginCfg plugin mem pcfg iBufLen strResult).mem (pcfg + iBufLen) = b := by
  simp only [readPluginCfg_eq hne hbegins]
  rw [sizeofCmdSendPluginConfigContent] at hlong hbuf ⊢
  split
  · refine ⟨(strResult ++ [0]).getD (pcfg + iBufLen - (pcfg + 8)) 0, ?_⟩
    intro mem
    apply writeAt_inside
    · omega
    · rw [List.length_append, List.length_singleton]
      omega
  · refine ⟨((strResult ++ List.replicate (iBufLen - 1) 0).take (iBufLen - 1)).getD
      (pcfg + iBufLen - (pcfg + 8)) 0, ?_⟩
    intro mem
    have hlast : pcfg + iBufLen < pcfg + 8 + (iBufLen - 8 - 1) ∨
        pcfg + 8 + (iBufLen - 8 - 1) + [(0 : UInt8)].length ≤ pcfg + iBufLen := by
      rw [List.length_singleton]
      omega
    have hcopied : ((strResult ++ List.replicate (iBufLen - 1) 0).take (iBufLen - 1)).length =
        iBufLen - 1 := by
      rw [List.length_take, List.length_append, List.length_replicate]
      omega
    refine (writeAt_outside hlast).trans ?_
    apply writeAt_inside
    · omega
    · rw [hcopied]
      omega

theorem dealStrCfgs_report (hdigits : ∀ b ∈ digits, isDecimalDigit b = true) (hne : digits ≠ [])
    (hT : readDecimal 0 digits = T.toNat) (items : List UInt8) :
    ∃ buf list, dealStrCfgs (s_plugCfgStr ++ (digits ++ 59 :: (items ++ [0]))) =
      some (buf, .stored T list) := by
  have hzero : ∀ b ∈ digits, b ≠ 0 := by
    rintro b hb rfl
    exact absurd (hdigits 0 hb) (by decide)
  have hsemi : 59 ∉ digits := by
    intro hb
    exact absurd (hdigits 59 hb) (by decide)
  have hval : strtoul digits = T.toNat := by
    rw [strtoul_digits hdigits hne, hT]
    rw [hT]
    exact Nat.le_trans (Nat.le_of_lt T.toNat_lt) (by decide)
  have hends : TextEnds (s_plugCfgStr ++ (digits ++ [0]) ++ items).length []
      ((s_plugCfgStr ++ (digits ++ [0])) ++ (items ++ [0])) := by
    have hassoc := List.append_assoc (s_plugCfgStr ++ (digits ++ [0])) items [0]
    rw [← hassoc]
    exact textEnds_append _ []
  have hplace : (s_plugCfgStr ++ (digits ++ [0])).length ≤
      (s_plugCfgStr ++ (digits ++ [0]) ++ items).length :=
    (List.prefix_append _ items).length_le
  obtain ⟨x, hx, -⟩ := extractItems_inside keepsEnd_writeItem hends hplace []
  rw [dealStrCfgs_time hzero hsemi (by simp), storeItems, hx, hval, UInt32.ofNat_toNat]
  exact ⟨x.1, x.2, rfl⟩

/-- A report comes to what it should exactly if the output fits into the buffer and the agent has
known the time before. -/
theorem readPluginCfg_reports_iff (plugin : TInnerPlusInfo) (digits items : List UInt8) (T : UInt32)
    (iBufLen : Nat) (hdigits : ∀ b ∈ digits, isDecimalDigit b = true) (hne : digits ≠ [])
    (hT : readDecimal 0 digits = T.toNat) (hitems : ∀ b ∈ items, b ≠ 0)
    (hbuf : sizeofCmdSendPluginConfigContent + 1 ≤ iBufLen) (hint : iBufLen < 2 ^ 31) :
    Reports plugin (s_plugCfgStr ++ (digits ++ 59 :: items)) iBufLen T ↔
      (s_plugCfgStr ++ (digits ++ 59 :: items)).length + sizeofCmdSendPluginConfigContent <
        iBufLen ∧ plugin.dwCfgFileLastModTime = T := by
  have hbegins : s_plugCfgStr <+: s_plugCfgStr ++ (digits ++ 59 :: items) := List.prefix_append _ _
  have hzero : ∀ b ∈ s_plugCfgStr ++ (digits ++ 59 :: items), b ≠ 0 := by
    intro b hb
    rcases List.mem_append.mp hb with hb | hb
    · rintro rfl
      exact absurd hb (by decide)
    rcases List.mem_append.mp hb with hb | hb
    · rintro rfl
      exact absurd (hdigits 0 hb) (by decide)
    rcases List.mem_cons.mp hb with rfl | hb
    · decide
    · exact hitems b hb
  obtain ⟨buf, list, hdeal⟩ := dealStrCfgs_report hdigits hne hT items
  generalize hstr : s_plugCfgStr ++ (digits ++ 59 :: items) = strResult at *
  constructor
  · intro h
    have hfits : strResult.length + sizeofCmdSendPluginConfigContent < iBufLen := by
      by_contra hlong
      obtain ⟨b, hb⟩ := readPluginCfg_writes_behind hzero hbegins (Nat.le_of_not_lt hlong) hbuf
        plugin 0
      have hsame := (h (fun _ => b + 1) 0).1 (0 + iBufLen) (Or.inr (Nat.le_refl _))
      rw [hb] at hsame
      exact absurd hsame (by simp)
    refine ⟨hfits, ?_⟩
    obtain ⟨-, text, -, -, -, -, htime⟩ := h (fun _ => 0) 0
    rw [readPluginCfg_of_fits hzero hbegins hfits hint] at htime
    exact htime
  · rintro ⟨hfits, htime⟩ mem pcfg
    rw [readPluginCfg_of_fits hzero hbegins hfits hint]
    refine ⟨?_, strResult, List.prefix_refl _, stands_writeAt _ _ _, rfl, ?_, htime⟩
    · intro q hq
      apply writeAt_outside
      rw [List.length_append, List.length_singleton]
      omega
    · refine ⟨buf, list, ?_⟩
      rw [← hdeal, ← hstr]
      simp

/-- The output `xrkmonitor_cfgs:5;a b;`. -/
def shortOutput : List UInt8 := s_plugCfgStr ++ ([53] ++ 59 :: [97, 32, 98, 59])

/-- The agent does not learn the time 5, and a plugin that has it keeps it. -/
theorem readPluginCfg_reports_known :
    Reports { newPlugin 1 8 (by decide) with dwCfgFileLastModTime := 5 } shortOutput 4096 5 :=
  (readPluginCfg_reports_iff _ [53] [97, 32, 98, 59] 5 4096 (by decide +kernel) (by decide)
    (by decide) (by decide +kernel) (by decide) (by decide)).mpr ⟨by decide, rfl⟩

/-- A plugin whose time is not known yet. -/
theorem readPluginCfg_reports_unknown :
    ¬ Reports { newPlugin 1 8 (by decide) with dwCfgFileLastModTime := 0 } shortOutput 4096 5 := by
  intro h
  obtain ⟨-, text, -, -, -, -, htime⟩ := h (fun _ => 0) 0
  have hfits : shortOutput.length + sizeofCmdSendPluginConfigContent < 4096 := by decide
  rw [readPluginCfg_of_fits (by decide +kernel) (by decide) hfits (by decide)] at htime
  exact absurd htime (by decide)

end Report

end XrkMonitor.PluginReport
