import Mathlib.Logic.Function.Basic
import XrkMonitor.Library.Decimal
import XrkMonitor.Library.TextBuffer

/-!
# The list of plugin configuration items

An agent reports the configuration items of a plugin as `NAME VALUE;NAME VALUE;...` behind the time
of the configuration file. The server cuts the text into names and values and stores them joined,
without the last `;`, the web view cuts the stored text again, and an agent that is to change its
configuration cuts the text it is sent. All three have their own copy of one loop, which writes a
`NUL` behind every name and value. The copies differ in what they do with an item.

## Implementation notes

The loops are one definition, with what they do with an item as a parameter. A buffer may go on
behind the text that is cut; an access outside the buffer gives `none`. The packet has passed the
checks of `DealCommInfo`, and the database returns the text that it was given. `cfgs` of the web
view is a map by the names. The other fields of the answers are left out.
-/

namespace XrkMonitor.PluginReport

open Library

section Model

/-- `TConfigItem`, of which the parser does not set the comment. -/
@[ext] structure TConfigItem where
  strConfigName : List UInt8
  strConfigValue : List UInt8
deriving DecidableEq

/-- The variable `i` of the loops: 0, 1 with the name that was found, and -1. -/
inductive Extract
  | name
  | value (pitem_name : Nat)
  | last
deriving DecidableEq

/-- The variables of a loop, with what it has collected. -/
structure Parse (α : Type) where
  buf : List UInt8
  ptmp : Nat
  i : Extract
  out : α

variable {α : Type} (use : List UInt8 → Nat → Nat → α → Option (List UInt8 × α))

/-- The part that finds a name. -/
def nameStep (s : Parse α) : Option (Parse α) := do
  match ← findFrom s.buf s.ptmp 32 with
  | some ptmp_e =>
    let buf ← overwrite s.buf ptmp_e [0]
    return ⟨buf, ptmp_e + 1, .value s.ptmp, s.out⟩
  | none =>
    let buf ← overwrite s.buf s.ptmp [0]
    return ⟨buf, s.ptmp, .value s.ptmp, s.out⟩

/-- The part that finds a value and uses the item. -/
def valueStep (s : Parse α) (pitem_name : Nat) : Option (Parse α) := do
  match ← findFrom s.buf s.ptmp 59 with
  | some ptmp_e =>
    let buf ← overwrite s.buf ptmp_e [0]
    let x ← use buf pitem_name s.ptmp s.out
    return ⟨x.1, ptmp_e + 1, .name, x.2⟩
  | none =>
    let x ← use s.buf pitem_name s.ptmp s.out
    return ⟨x.1, s.ptmp, .last, x.2⟩

/-- The loop, which makes at most `fuel` tests of its condition. -/
def extractLoop : Nat → Parse α → Option (Parse α)
  | 0, _ => none
  | fuel + 1, s =>
    match s.buf[s.ptmp]? with
    | none => none
    | some b =>
      if b = 0 then some s
      else
        match s.i with
        | .name => (nameStep s).bind (extractLoop fuel)
        | .value pitem_name => (valueStep use s pitem_name).bind (extractLoop fuel)
        | .last => some s

/-- The loop from its start: the buffer in the end, and what was collected. -/
def extractItems (buf : List UInt8) (ptmp : Nat) (out : α) : Option (List UInt8 × α) :=
  (extractLoop use (buf.length + 1) ⟨buf, ptmp, .name, out⟩).map fun s => (s.buf, s.out)

/-- The agent puts an item into its list. -/
def pushItem (buf : List UInt8) (pitem_name pitem_val : Nat) (list : List TConfigItem) :
    Option (List UInt8 × List TConfigItem) := do
  let name ← textAt buf pitem_name
  let val ← textAt buf pitem_val
  return (buf, list ++ [⟨name, val⟩])

/-- The items that `DealModMachinePluginCfg` takes from `strCfgs`. -/
def dealModMachinePluginCfg (strCfgs : List UInt8) : Option (List UInt8 × List TConfigItem) :=
  extractItems pushItem strCfgs 0 []

/-- The server writes an item into `ss`. -/
def writeItem (buf : List UInt8) (pitem_name pitem_val : Nat) (ss : List UInt8) :
    Option (List UInt8 × List UInt8) := do
  let name ← textAt buf pitem_name
  let val ← textAt buf pitem_val
  return (buf, if 0 < ss.length then ss ++ 59 :: (name ++ 32 :: val) else ss ++ (name ++ 32 :: val))

/-- `s_plugCfgStr`: the bytes of `xrkmonitor_cfgs:`. -/
def s_plugCfgStr : List UInt8 :=
  [120, 114, 107, 109, 111, 110, 105, 116, 111, 114, 95, 99, 102, 103, 115, 58]

/-- What the server does with a report: it refuses it, or it stores the time and the list. -/
inductive CfgReport
  | ERR_INVALID_CMD_CONTENT
  | ERR_INVALID_PACKET
  | stored (cfg_file_time : UInt32) (xrk_cfgs_list : List UInt8)
deriving DecidableEq

/-- The end of the server's parser, from the items on. -/
def storeItems (dwLastModTime : Nat) (buf : List UInt8) (ptmp : Nat) :
    Option (List UInt8 × CfgReport) :=
  (extractItems writeItem buf ptmp []).map fun x =>
    (x.1, .stored (UInt32.ofNat dwLastModTime) x.2)

/-- The server's parser: `DealCmdReportPluginCfg` from the test of the first characters on. -/
def dealStrCfgs (strCfgs : List UInt8) : Option (List UInt8 × CfgReport) :=
  if s_plugCfgStr <+: strCfgs then do
    match ← findFrom strCfgs 0 59 with
    | some ptmp_e =>
      let buf ← overwrite strCfgs ptmp_e [0]
      let text ← textAt buf s_plugCfgStr.length
      storeItems (strtoul text) buf (ptmp_e + 1)
    | none =>
      let text ← textAt strCfgs s_plugCfgStr.length
      let buf ← overwrite strCfgs s_plugCfgStr.length [0]
      storeItems (strtoul text) buf s_plugCfgStr.length
  else some (strCfgs, .ERR_INVALID_PACKET)

def sizeofCmdSendPluginConfigContent : Nat := 8

/-- `DealCmdReportPluginCfg`: the end of the content from `strCfgs` on, and what is done. -/
def dealCmdReportPluginCfg (content : List UInt8) : Option (List UInt8 × CfgReport) :=
  let strCfgs := content.drop sizeofCmdSendPluginConfigContent
  if content.length ≤ sizeofCmdSendPluginConfigContent then
    some (strCfgs, .ERR_INVALID_CMD_CONTENT)
  else if content.length ≠ ofBytes ((content.drop 4).take 4) then
    some (strCfgs, .ERR_INVALID_PACKET)
  else (overwrite strCfgs (strCfgs.length - 1) [0]).bind dealStrCfgs

/-- The characters that `Str_Trim` removes. -/
def isBlank (b : UInt8) : Bool := b == 32 || b == 9 || b == 10 || b == 13

/-- `Str_Trim`. -/
def strTrim (buf : List UInt8) (s : Nat) : Option (List UInt8) := trimAt isBlank buf s

/-- `Str_Trim_Char`. -/
def strTrimChar (buf : List UInt8) (s : Nat) (c : UInt8) : Option (List UInt8) :=
  trimAt (· == c) buf s

/-- `ReplaceAllChar`. -/
def replaceAllChar (buf : List UInt8) (pstr : Nat) (src dst : UInt8) : Option (List UInt8) :=
  replaceAt buf pstr src dst

/-- The items of a machine in the web view. -/
structure MachCfgs where
  jscfgs : List UInt8 → Option (List UInt8)
  iMachCfgCount : Nat

/-- The web view trims a name and a value and puts them into the map. -/
def showItem (buf : List UInt8) (pitem_name pitem_val : Nat) (cfgs : MachCfgs) :
    Option (List UInt8 × MachCfgs) := do
  let buf ← strTrim buf pitem_name
  let buf ← strTrimChar buf pitem_name 59
  let buf ← strTrim buf pitem_val
  let buf ← strTrimChar buf pitem_val 59
  let name ← textAt buf pitem_name
  let val ← textAt buf pitem_val
  if name = [] ∨ val = [] then return (buf, cfgs)
  let buf ← replaceAllChar buf pitem_name 59 37
  let buf ← replaceAllChar buf pitem_val 59 37
  let name ← textAt buf pitem_name
  let val ← textAt buf pitem_val
  return (buf, ⟨Function.update cfgs.jscfgs name (some val), cfgs.iMachCfgCount + 1⟩)

/-- The parser of `GetMachineInfoForPluginAttr`. -/
def getMachineInfoForPluginAttr (pstrCfgsCur : List UInt8) : Option (List UInt8 × MachCfgs) :=
  extractItems showItem pstrCfgsCur 0 ⟨fun _ => none, 0⟩

end Model

section Inside

variable {α : Type} {use : List UInt8 → Nat → Nat → α → Option (List UInt8 × α)}
  {L pitem_name fuel : Nat} {rest buf : List UInt8} {s : Parse α}

/-- What is done with the items of a text leaves its end as it is. -/
def KeepsEnd (use : List UInt8 → Nat → Nat → α → Option (List UInt8 × α)) : Prop :=
  ∀ L rest buf pitem_name pitem_val out, TextEnds L rest buf → pitem_name ≤ L → pitem_val ≤ L →
    ∃ x, use buf pitem_name pitem_val out = some x ∧ TextEnds L rest x.1

/-- The variables of a loop point into the text. -/
structure Parse.Inside (L : Nat) (rest : List UInt8) (s : Parse α) : Prop where
  ends : TextEnds L rest s.buf
  ptmp_le : s.ptmp ≤ L
  name_le : ∀ n, s.i = .value n → n ≤ L

/-- The condition of the loop fails. -/
def Parse.Stops (s : Parse α) : Prop := s.buf[s.ptmp]? = some 0 ∨ s.i = .last

theorem Parse.Inside.lt (h : s.Inside L rest) (hgo : s.buf[s.ptmp]? ≠ some 0) : s.ptmp < L := by
  apply Nat.lt_of_le_of_ne h.ptmp_le
  intro heq
  rw [heq] at hgo
  exact hgo h.ends.getElem?_end

theorem extractLoop_of_nul (h : s.buf[s.ptmp]? = some 0) :
    extractLoop use (fuel + 1) s = some s := by
  rw [extractLoop, h]
  exact if_pos rfl

theorem extractLoop_of_stops (h : s.Inside L rest) (hstop : s.Stops) :
    extractLoop use (fuel + 1) s = some s := by
  rcases hstop with hnul | hlast
  · exact extractLoop_of_nul hnul
  · obtain ⟨b, hb⟩ := h.ends.getElem? h.ptmp_le
    rw [extractLoop, hb, hlast]
    exact ite_self _

theorem nameStep_inside (h : s.Inside L rest) :
    ∃ s', nameStep s = some s' ∧ s'.Inside L rest ∧ (s.ptmp < s'.ptmp ∨ s'.Stops) := by
  have hname : ∀ n, Extract.value s.ptmp = .value n → n ≤ L := by
    intro n hn
    rw [Extract.value.injEq] at hn
    exact hn ▸ h.ptmp_le
  obtain ⟨r, hr, hbound⟩ := h.ends.findFrom h.ptmp_le 32
  cases r with
  | some ptmp_e =>
    obtain ⟨hge, hlt⟩ := hbound ptmp_e rfl
    obtain ⟨buf, hbuf, hends, -⟩ := h.ends.overwrite_zero (Nat.le_of_lt hlt)
    exact ⟨⟨buf, ptmp_e + 1, .value s.ptmp, s.out⟩, by simp [nameStep, hr, hbuf],
      ⟨hends, hlt, hname⟩, Or.inl (Nat.lt_succ_of_le hge)⟩
  | none =>
    obtain ⟨buf, hbuf, hends, hnul⟩ := h.ends.overwrite_zero h.ptmp_le
    exact ⟨⟨buf, s.ptmp, .value s.ptmp, s.out⟩, by simp [nameStep, hr, hbuf],
      ⟨hends, h.ptmp_le, hname⟩, Or.inr (Or.inl hnul)⟩

theorem valueStep_inside (huse : KeepsEnd use) (h : s.Inside L rest) (hname : pitem_name ≤ L) :
    ∃ s', valueStep use s pitem_name = some s' ∧ s'.Inside L rest ∧
      (s.ptmp < s'.ptmp ∨ s'.Stops) := by
  obtain ⟨r, hr, hbound⟩ := h.ends.findFrom h.ptmp_le 59
  cases r with
  | some ptmp_e =>
    obtain ⟨hge, hlt⟩ := hbound ptmp_e rfl
    obtain ⟨buf, hbuf, hends, -⟩ := h.ends.overwrite_zero (Nat.le_of_lt hlt)
    obtain ⟨x, hx, hends⟩ := huse L rest buf pitem_name s.ptmp s.out hends hname h.ptmp_le
    refine ⟨⟨x.1, ptmp_e + 1, .name, x.2⟩, by simp [valueStep, hr, hbuf, hx],
      ⟨hends, hlt, ?_⟩, Or.inl (Nat.lt_succ_of_le hge)⟩
    intro n hn
    cases hn
  | none =>
    obtain ⟨x, hx, hends⟩ := huse L rest s.buf pitem_name s.ptmp s.out h.ends hname h.ptmp_le
    refine ⟨⟨x.1, s.ptmp, .last, x.2⟩, by simp [valueStep, hr, hx],
      ⟨hends, h.ptmp_le, ?_⟩, Or.inr (Or.inr rfl)⟩
    intro n hn
    cases hn

theorem extractLoop_inside (huse : KeepsEnd use) (h : s.Inside L rest)
    (hfuel : L - s.ptmp < fuel) :
    ∃ s', extractLoop use fuel s = some s' ∧ TextEnds L rest s'.buf := by
  induction fuel generalizing s with
  | zero => exact absurd hfuel (Nat.not_lt_zero _)
  | succ fuel ih =>
    obtain ⟨b, hb⟩ := h.ends.getElem? h.ptmp_le
    by_cases hzero : b = 0
    · exact ⟨s, extractLoop_of_stops h (Or.inl (hzero ▸ hb)), h.ends⟩
    · have hgo : s.buf[s.ptmp]? ≠ some 0 := by
        rw [hb, ne_eq, Option.some.injEq]
        exact hzero
      have hlt := h.lt hgo
      have hnext : ∀ s' : Parse α, s'.Inside L rest → (s.ptmp < s'.ptmp ∨ s'.Stops) →
          ∃ s'', extractLoop use fuel s' = some s'' ∧ TextEnds L rest s''.buf := by
        intro s' hs' hprogress
        rcases hprogress with hmore | hstop
        · exact ih hs' (by omega)
        · have hpos : fuel ≠ 0 := by omega
          obtain ⟨k, rfl⟩ := Nat.exists_eq_succ_of_ne_zero hpos
          exact ⟨s', extractLoop_of_stops hs' hstop, hs'.ends⟩
      rw [extractLoop, hb]
      simp only [if_neg hzero]
      cases hi : s.i with
      | name =>
        obtain ⟨s', hstep, hs', hprogress⟩ := nameStep_inside h
        rw [hstep]
        exact hnext s' hs' hprogress
      | value n =>
        obtain ⟨s', hstep, hs', hprogress⟩ := valueStep_inside huse h (h.name_le n hi)
        simp only [hstep]
        exact hnext s' hs' hprogress
      | last => exact ⟨s, rfl, h.ends⟩

theorem extractItems_inside (huse : KeepsEnd use) (h : TextEnds L rest buf) {ptmp : Nat}
    (hp : ptmp ≤ L) (out : α) :
    ∃ x, extractItems use buf ptmp out = some x ∧ TextEnds L rest x.1 := by
  have hstart : Parse.Inside L rest ⟨buf, ptmp, .name, out⟩ := by
    refine ⟨h, hp, ?_⟩
    intro n hn
    cases hn
  have hfuel : L - ptmp < buf.length + 1 := by
    have hlt := h.lt_length
    omega
  obtain ⟨s', hs', hends⟩ := extractLoop_inside huse hstart hfuel
  exact ⟨(s'.buf, s'.out), by rw [extractItems, hs']; rfl, hends⟩

theorem keepsEnd_pushItem : KeepsEnd pushItem := by
  intro L rest buf pitem_name pitem_val list h hname hval
  obtain ⟨name, hn, -⟩ := h.textAt hname
  obtain ⟨val, hv, -⟩ := h.textAt hval
  exact ⟨(buf, list ++ [⟨name, val⟩]), by simp [pushItem, hn, hv], h⟩

theorem keepsEnd_writeItem : KeepsEnd writeItem := by
  intro L rest buf pitem_name pitem_val ss h hname hval
  obtain ⟨name, hn, -⟩ := h.textAt hname
  obtain ⟨val, hv, -⟩ := h.textAt hval
  exact ⟨_, by rw [writeItem, hn, Option.bind_eq_bind, Option.bind_some, hv]; rfl, h⟩

theorem keepsEnd_showItem : KeepsEnd showItem := by
  intro L rest buf pitem_name pitem_val cfgs h hname hval
  obtain ⟨buf₁, h₁, hends₁⟩ := h.trimAt hname isBlank
  obtain ⟨buf₂, h₂, hends₂⟩ := hends₁.trimAt hname (· == 59)
  obtain ⟨buf₃, h₃, hends₃⟩ := hends₂.trimAt hval isBlank
  obtain ⟨buf₄, h₄, hends₄⟩ := hends₃.trimAt hval (· == 59)
  obtain ⟨name, hn, -⟩ := hends₄.textAt hname
  obtain ⟨val, hv, -⟩ := hends₄.textAt hval
  obtain ⟨buf₅, h₅, hends₅⟩ := hends₄.replaceAt hname 59 37
  obtain ⟨buf₆, h₆, hends₆⟩ := hends₅.replaceAt hval 59 37
  obtain ⟨name', hn', -⟩ := hends₆.textAt hname
  obtain ⟨val', hv', -⟩ := hends₆.textAt hval
  by_cases hempty : name = [] ∨ val = []
  · exact ⟨(buf₄, cfgs), by simp [showItem, strTrim, strTrimChar, h₁, h₂, h₃, h₄, hn, hv, hempty],
      hends₄⟩
  · exact ⟨(buf₆, ⟨Function.update cfgs.jscfgs name' (some val'), cfgs.iMachCfgCount + 1⟩),
      by simp [showItem, strTrim, strTrimChar, replaceAllChar, h₁, h₂, h₃, h₄, h₅, h₆, hn, hv, hn',
        hv', hempty], hends₆⟩

theorem length_plugCfgStr_le (h : TextEnds L rest buf) (hbegins : s_plugCfgStr <+: buf) :
    s_plugCfgStr.length ≤ L := by
  by_contra hlt
  have hat : s_plugCfgStr[L]? = some 0 := by
    rw [← h.getElem?_end]
    obtain ⟨t, rfl⟩ := hbegins
    exact (List.getElem?_append_left (Nat.lt_of_not_le hlt)).symm
  have hmem := List.mem_of_getElem? hat
  exact absurd hmem (by decide)

theorem storeItems_inside (h : TextEnds L rest buf) {ptmp : Nat} (hp : ptmp ≤ L)
    (dwLastModTime : Nat) :
    ∃ x, storeItems dwLastModTime buf ptmp = some x ∧ TextEnds L rest x.1 := by
  obtain ⟨x, hx, hends⟩ := extractItems_inside keepsEnd_writeItem h hp []
  exact ⟨(x.1, .stored (UInt32.ofNat dwLastModTime) x.2), by rw [storeItems, hx]; rfl, hends⟩

theorem dealStrCfgs_inside (h : TextEnds L rest buf) :
    ∃ x, dealStrCfgs buf = some x ∧ TextEnds L rest x.1 := by
  by_cases hbegins : s_plugCfgStr <+: buf
  · have hle := length_plugCfgStr_le h hbegins
    obtain ⟨r, hr, hbound⟩ := h.findFrom (Nat.zero_le L) 59
    cases r with
    | some ptmp_e =>
      obtain ⟨-, hlt⟩ := hbound ptmp_e rfl
      obtain ⟨buf₁, h₁, hends₁, -⟩ := h.overwrite_zero (Nat.le_of_lt hlt)
      obtain ⟨text, htext, -⟩ := hends₁.textAt hle
      obtain ⟨x, hx, hends⟩ := storeItems_inside hends₁ hlt (strtoul text)
      exact ⟨x, by simp [dealStrCfgs, hbegins, hr, h₁, htext, hx], hends⟩
    | none =>
      obtain ⟨text, htext, -⟩ := h.textAt hle
      obtain ⟨buf₁, h₁, hends₁, -⟩ := h.overwrite_zero hle
      obtain ⟨x, hx, hends⟩ := storeItems_inside hends₁ hle (strtoul text)
      exact ⟨x, by simp [dealStrCfgs, hbegins, hr, h₁, htext, hx], hends⟩
  · exact ⟨(buf, .ERR_INVALID_PACKET), if_neg hbegins, h⟩

theorem dealCmdReportPluginCfg_ne_none (content : List UInt8) :
    dealCmdReportPluginCfg content ≠ none := by
  unfold dealCmdReportPluginCfg
  simp only
  split
  · exact Option.some_ne_none _
  · rename_i hlong
    split
    · exact Option.some_ne_none _
    · generalize hbuf : content.drop sizeofCmdSendPluginConfigContent = strCfgs
      rcases List.eq_nil_or_concat' strCfgs with rfl | ⟨text, b, rfl⟩
      · rw [List.drop_eq_nil_iff] at hbuf
        exact absurd hbuf hlong
      · have hwrite : overwrite (text ++ ([b] ++ [])) text.length [0] =
            some (text ++ ([0] ++ [])) :=
          overwrite_append rfl rfl
        rw [List.append_nil, List.append_nil] at hwrite
        rw [List.length_append, List.length_singleton, Nat.add_sub_cancel, hwrite]
        obtain ⟨x, hx, -⟩ := dealStrCfgs_inside (textEnds_append text [])
        rw [Option.bind_some, hx]
        exact Option.some_ne_none _

end Inside

section Format

namespace TConfigItem

/-- `NAME VALUE`. -/
def text (x : TConfigItem) : List UInt8 := x.strConfigName ++ 32 :: x.strConfigValue

/-- An item that the format can carry: the name has no spaces, and neither the name nor the value
has a `;` or blanks at its ends. -/
structure Plain (x : TConfigItem) : Prop where
  name_ne_nil : x.strConfigName ≠ []
  value_ne_nil : x.strConfigValue ≠ []
  name_ne_zero : ∀ b ∈ x.strConfigName, b ≠ 0
  value_ne_zero : ∀ b ∈ x.strConfigValue, b ≠ 0
  name_space : 32 ∉ x.strConfigName
  name_semicolon : 59 ∉ x.strConfigName
  value_semicolon : 59 ∉ x.strConfigValue
  name_trimmed : Trimmed isBlank x.strConfigName
  value_trimmed : Trimmed isBlank x.strConfigValue

end TConfigItem

/-- `NAME VALUE;` for each item. -/
def writeItems (items : List TConfigItem) : List UInt8 := items.flatMap fun x => x.text ++ [59]

/-- The items as the server stores them, with a `;` between them. -/
def joinItems : List TConfigItem → List UInt8
  | [] => []
  | x :: items => x.text ++ items.flatMap fun y => 59 :: y.text

/-- The joined items with one more. -/
def joinItem (ss : List UInt8) (x : TConfigItem) : List UInt8 :=
  if 0 < ss.length then ss ++ 59 :: x.text else ss ++ x.text

/-- The map with one more item. -/
def MachCfgs.add (cfgs : MachCfgs) (x : TConfigItem) : MachCfgs :=
  ⟨Function.update cfgs.jscfgs x.strConfigName (some x.strConfigValue), cfgs.iMachCfgCount + 1⟩

variable {α : Type} {use : List UInt8 → Nat → Nat → α → Option (List UInt8 × α)}
  {f : α → TConfigItem → α} {pre rest : List UInt8} {x : TConfigItem} {items : List TConfigItem}
  {out : α} {p fuel : Nat} {time : List UInt8}

/-- An item with the `NUL` behind its name and its value. -/
def TConfigItem.cut (x : TConfigItem) (rest : List UInt8) : List UInt8 :=
  x.strConfigName ++ 0 :: (x.strConfigValue ++ 0 :: rest)

/-- What is done with an item whose name and value have been cut out, and leaves them as they
are. -/
def UsesAs (use : List UInt8 → Nat → Nat → α → Option (List UInt8 × α))
    (f : α → TConfigItem → α) : Prop :=
  ∀ pre rest (x : TConfigItem) out, x.Plain →
    use (pre ++ x.cut rest) pre.length (pre.length + x.strConfigName.length + 1) out =
      some (pre ++ x.cut rest, f out x)

theorem TConfigItem.Plain.textAt_name (h : x.Plain) :
    textAt (pre ++ x.cut rest) pre.length = some x.strConfigName :=
  textAt_append h.name_ne_zero rfl

theorem TConfigItem.cut_eq (pre rest : List UInt8) (x : TConfigItem) :
    pre ++ x.cut rest =
      (pre ++ (x.strConfigName ++ [0])) ++ (x.strConfigValue ++ 0 :: rest) := by
  simp [TConfigItem.cut]

theorem TConfigItem.length_before_value (pre : List UInt8) (x : TConfigItem) :
    (pre ++ (x.strConfigName ++ [0])).length = pre.length + x.strConfigName.length + 1 := by
  simp [Nat.add_assoc]

theorem TConfigItem.Plain.textAt_value (h : x.Plain) :
    textAt (pre ++ x.cut rest) (pre.length + x.strConfigName.length + 1) =
      some x.strConfigValue := by
  rw [TConfigItem.cut_eq]
  exact textAt_append h.value_ne_zero (TConfigItem.length_before_value pre x)

theorem usesAs_pushItem : UsesAs pushItem fun list x => list ++ [x] := by
  intro pre rest x list hx
  rw [pushItem, hx.textAt_name, Option.bind_eq_bind, Option.bind_some, hx.textAt_value]
  rfl

theorem usesAs_writeItem : UsesAs writeItem joinItem := by
  intro pre rest x ss hx
  rw [writeItem, hx.textAt_name, Option.bind_eq_bind, Option.bind_some, hx.textAt_value]
  rfl

theorem trimmed_semicolon {s : List UInt8} (h : 59 ∉ s) : Trimmed (· == 59) s := by
  constructor
  · intro b hb
    have hne : b ≠ 59 := fun heq => h (heq ▸ List.mem_of_mem_head? hb)
    simpa using hne
  · intro b hb
    have hne : b ≠ 59 := fun heq => h (heq ▸ List.mem_of_mem_getLast? hb)
    simpa using hne

theorem usesAs_showItem : UsesAs showItem MachCfgs.add := by
  intro pre rest x cfgs hx
  have hlen := TConfigItem.length_before_value pre x
  have hname : ∀ blank, Trimmed blank x.strConfigName →
      trimAt blank (pre ++ x.cut rest) pre.length = some (pre ++ x.cut rest) := by
    intro blank htrim
    exact trimAt_append hx.name_ne_zero htrim rfl
  have hvalue : ∀ blank, Trimmed blank x.strConfigValue →
      trimAt blank (pre ++ x.cut rest) (pre.length + x.strConfigName.length + 1) =
        some (pre ++ x.cut rest) := by
    intro blank htrim
    rw [TConfigItem.cut_eq]
    exact trimAt_append hx.value_ne_zero htrim hlen
  have hreplace : replaceAt (pre ++ x.cut rest) pre.length 59 37 = some (pre ++ x.cut rest) :=
    replaceAt_append hx.name_ne_zero hx.name_semicolon rfl
  have hreplace' : replaceAt (pre ++ x.cut rest) (pre.length + x.strConfigName.length + 1) 59 37 =
      some (pre ++ x.cut rest) := by
    rw [TConfigItem.cut_eq]
    exact replaceAt_append hx.value_ne_zero hx.value_semicolon hlen
  simp [MachCfgs.add, showItem, strTrim, strTrimChar, replaceAllChar, hname _ hx.name_trimmed,
    hname _ (trimmed_semicolon hx.name_semicolon), hvalue _ hx.value_trimmed,
    hvalue _ (trimmed_semicolon hx.value_semicolon), hx.textAt_name, hx.textAt_value,
    hx.name_ne_nil, hx.value_ne_nil, hreplace, hreplace']

theorem getElem?_pre {s t : List UInt8} (hne : s ≠ []) (hs : ∀ b ∈ s, b ≠ 0)
    (hp : pre.length = p) : ∃ b, (pre ++ (s ++ t))[p]? = some b ∧ b ≠ 0 := by
  cases s with
  | nil => exact absurd rfl hne
  | cons b s =>
    refine ⟨b, ?_, hs b List.mem_cons_self⟩
    rw [List.getElem?_append_right (Nat.le_of_eq hp), hp, Nat.sub_self]
    rfl

theorem extractLoop_round {s s' : Parse α} {b : UInt8} (hb : s.buf[s.ptmp]? = some b) (hb0 : b ≠ 0)
    (hstep : (s.i = .name ∧ nameStep s = some s') ∨
      ∃ n, s.i = .value n ∧ valueStep use s n = some s') :
    extractLoop use (fuel + 1) s = extractLoop use fuel s' := by
  rw [extractLoop, hb]
  simp only [if_neg hb0]
  rcases hstep with ⟨hi, hs'⟩ | ⟨n, hi, hs'⟩
  · simp only [hi, hs', Option.bind_some]
  · simp only [hi, hs', Option.bind_some]

theorem extractLoop_name {b : UInt8} (hx : x.Plain) (hend : 0 ∈ b :: rest) :
    extractLoop use (fuel + 1) ⟨pre ++ (x.text ++ b :: rest), pre.length, .name, out⟩ =
      extractLoop use fuel ⟨pre ++ (x.strConfigName ++ 0 :: (x.strConfigValue ++ b :: rest)),
        pre.length + x.strConfigName.length + 1, .value pre.length, out⟩ := by
  have htext : pre ++ (x.text ++ b :: rest) =
      pre ++ (x.strConfigName ++ 32 :: (x.strConfigValue ++ b :: rest)) := by
    rw [TConfigItem.text, List.append_assoc, List.cons_append]
  rw [htext]
  obtain ⟨c, hc, hc0⟩ := getElem?_pre (t := 32 :: (x.strConfigValue ++ b :: rest)) hx.name_ne_nil
    hx.name_ne_zero (rfl : pre.length = pre.length)
  have hrest : 0 ∈ x.strConfigValue ++ b :: rest := List.mem_append_right _ hend
  have hfind := findFrom_append hx.name_ne_zero hx.name_space (by decide) hrest
    (rfl : pre.length = pre.length)
  have hwrite : overwrite (pre ++ (x.strConfigName ++ 32 :: (x.strConfigValue ++ b :: rest)))
      (pre.length + x.strConfigName.length) [0] =
        some (pre ++ (x.strConfigName ++ 0 :: (x.strConfigValue ++ b :: rest))) :=
    overwrite_one rfl
  apply extractLoop_round hc hc0
  refine Or.inl ⟨rfl, ?_⟩
  simp only [nameStep, hfind, hwrite, Option.bind_eq_bind, Option.bind_some]
  rfl

theorem extractLoop_item (huse : UsesAs use f) (hx : x.Plain) (hend : 0 ∈ rest) :
    extractLoop use (fuel + 2) ⟨pre ++ (x.text ++ 59 :: rest), pre.length, .name, out⟩ =
      extractLoop use fuel ⟨(pre ++ x.cut []) ++ rest, (pre ++ x.cut []).length, .name,
        f out x⟩ := by
  have hlen := TConfigItem.length_before_value pre x
  have hcut : (pre ++ x.cut []) ++ rest = pre ++ x.cut rest := by
    simp [TConfigItem.cut]
  have hcutlen : (pre ++ x.cut []).length =
      pre.length + x.strConfigName.length + 1 + x.strConfigValue.length + 1 := by
    simp [TConfigItem.cut, Nat.add_assoc, Nat.add_comm, Nat.add_left_comm]
  have hfront : pre ++ (x.strConfigName ++ 0 :: (x.strConfigValue ++ 59 :: rest)) =
      (pre ++ (x.strConfigName ++ [0])) ++ (x.strConfigValue ++ 59 :: rest) := by
    simp
  have hname : extractLoop use (fuel + 2)
      ⟨pre ++ (x.text ++ 59 :: rest), pre.length, .name, out⟩ = _ :=
    extractLoop_name hx (List.mem_cons_of_mem _ hend)
  obtain ⟨c, hc, hc0⟩ := getElem?_pre (t := 59 :: rest) hx.value_ne_nil hx.value_ne_zero hlen
  have hfind := findFrom_append hx.value_ne_zero hx.value_semicolon (by decide) hend hlen
  have hwrite : overwrite ((pre ++ (x.strConfigName ++ [0])) ++ (x.strConfigValue ++ 59 :: rest))
      (pre.length + x.strConfigName.length + 1 + x.strConfigValue.length) [0] =
        some (pre ++ x.cut rest) := by
    rw [TConfigItem.cut_eq]
    apply overwrite_one
    rw [hlen]
  rw [hname, hfront, hcut, hcutlen]
  apply extractLoop_round hc hc0
  refine Or.inr ⟨_, rfl, ?_⟩
  simp only [valueStep, hfind, hwrite, huse pre rest x out hx, Option.bind_eq_bind,
    Option.bind_some]
  rfl

theorem extractLoop_last (huse : UsesAs use f) (hx : x.Plain) :
    extractLoop use (fuel + 3) ⟨pre ++ (x.text ++ 0 :: rest), pre.length, .name, out⟩ =
      some ⟨pre ++ x.cut rest, pre.length + x.strConfigName.length + 1, .last, f out x⟩ := by
  have hlen := TConfigItem.length_before_value pre x
  have hname : extractLoop use (fuel + 3)
      ⟨pre ++ (x.text ++ 0 :: rest), pre.length, .name, out⟩ = _ :=
    extractLoop_name hx List.mem_cons_self
  obtain ⟨c, hc, hc0⟩ := getElem?_pre (t := 0 :: rest) hx.value_ne_nil hx.value_ne_zero hlen
  have hfind : findFrom (pre ++ x.cut rest) (pre.length + x.strConfigName.length + 1) 59 =
      some none := by
    rw [TConfigItem.cut_eq]
    exact findFrom_append_none hx.value_ne_zero hx.value_semicolon hlen
  rw [← TConfigItem.cut_eq] at hc
  rw [hname]
  change extractLoop use (fuel + 2) ⟨pre ++ x.cut rest, _, .value pre.length, out⟩ = _
  have hvalue : valueStep use ⟨pre ++ x.cut rest, pre.length + x.strConfigName.length + 1,
      .value pre.length, out⟩ pre.length = some ⟨pre ++ x.cut rest,
        pre.length + x.strConfigName.length + 1, .last, f out x⟩ := by
    simp only [valueStep, hfind, huse pre rest x out hx, Option.bind_eq_bind, Option.bind_some]
    rfl
  rw [extractLoop_round hc hc0 (Or.inr ⟨_, rfl, hvalue⟩), extractLoop]
  simp only [hc, if_neg hc0]

theorem extractLoop_writeItems (pre rest : List UInt8) (out : α) (huse : UsesAs use f)
    (hitems : ∀ x ∈ items, x.Plain) (hfuel : 2 * items.length < fuel) :
    ∃ s, extractLoop use fuel
        ⟨pre ++ (writeItems items ++ 0 :: rest), pre.length, .name, out⟩ = some s ∧
      s.out = items.foldl f out := by
  induction items generalizing pre out fuel with
  | nil =>
    obtain ⟨k, rfl⟩ := Nat.exists_eq_succ_of_ne_zero (Nat.ne_of_gt hfuel)
    have hnul : (pre ++ (writeItems [] ++ 0 :: rest))[pre.length]? = some 0 := by
      simp [writeItems]
    exact ⟨_, extractLoop_of_nul hnul, rfl⟩
  | cons x items ih =>
    rw [List.length_cons] at hfuel
    obtain ⟨k, rfl⟩ := Nat.exists_eq_add_of_le' (by omega : 2 ≤ fuel)
    have hsplit : writeItems (x :: items) ++ 0 :: rest =
        x.text ++ 59 :: (writeItems items ++ 0 :: rest) := by
      simp [writeItems]
    rw [hsplit, extractLoop_item huse (hitems x List.mem_cons_self) (by simp)]
    exact ih _ _ (fun y hy => hitems y (List.mem_cons_of_mem _ hy)) (by omega)

theorem extractLoop_joinItems (pre rest : List UInt8) (out : α) (huse : UsesAs use f)
    (hx : x.Plain) (hitems : ∀ y ∈ items, y.Plain) (hfuel : 2 * items.length + 2 < fuel) :
    ∃ s, extractLoop use fuel
        ⟨pre ++ (joinItems (x :: items) ++ 0 :: rest), pre.length, .name, out⟩ = some s ∧
      s.out = (x :: items).foldl f out := by
  induction items generalizing pre out fuel x with
  | nil =>
    obtain ⟨k, rfl⟩ := Nat.exists_eq_add_of_le' hfuel
    rw [joinItems, List.flatMap_nil, List.append_nil]
    exact ⟨_, extractLoop_last huse hx, rfl⟩
  | cons y items ih =>
    rw [List.length_cons] at hfuel
    obtain ⟨k, rfl⟩ := Nat.exists_eq_add_of_le' (by omega : 2 ≤ fuel)
    have hsplit : joinItems (x :: y :: items) ++ 0 :: rest =
        x.text ++ 59 :: (joinItems (y :: items) ++ 0 :: rest) := by
      simp [joinItems]
    rw [hsplit, extractLoop_item huse hx (by simp)]
    exact ih _ _ (hitems y List.mem_cons_self)
      (fun z hz => hitems z (List.mem_cons_of_mem _ hz)) (by omega)

theorem length_writeItems_le (items : List TConfigItem) :
    2 * items.length ≤ (writeItems items).length := by
  induction items with
  | nil => exact Nat.le_refl 0
  | cons x items ih =>
    have hlen : (writeItems (x :: items)).length =
        x.strConfigName.length + (x.strConfigValue.length + 1) + 1 +
          (writeItems items).length := by
      simp [writeItems, TConfigItem.text]
      omega
    rw [List.length_cons, hlen]
    omega

theorem length_joinItems_le (x : TConfigItem) (items : List TConfigItem) :
    2 * items.length < (joinItems (x :: items)).length := by
  induction items generalizing x with
  | nil =>
    have hlen : (joinItems [x]).length =
        x.strConfigName.length + (x.strConfigValue.length + 1) := by
      simp [joinItems, TConfigItem.text]
    rw [List.length_nil, hlen]
    omega
  | cons y items ih =>
    have hlen : (joinItems (x :: y :: items)).length =
        x.strConfigName.length + (x.strConfigValue.length + 1) + 1 +
          (joinItems (y :: items)).length := by
      simp [joinItems, TConfigItem.text]
      omega
    have htail := ih y
    rw [List.length_cons, hlen]
    omega

theorem extractItems_writeItems (huse : UsesAs use f) (hitems : ∀ x ∈ items, x.Plain)
    (hp : pre.length = p) (rest : List UInt8) (out : α) :
    ∃ buf', extractItems use (pre ++ (writeItems items ++ 0 :: rest)) p out =
      some (buf', items.foldl f out) := by
  subst hp
  have hfuel : 2 * items.length < (pre ++ (writeItems items ++ 0 :: rest)).length + 1 := by
    have hlen := length_writeItems_le items
    rw [List.length_append, List.length_append]
    omega
  obtain ⟨s, hs, hout⟩ := extractLoop_writeItems pre rest out huse hitems hfuel
  exact ⟨s.buf, by rw [extractItems, hs, Option.map_some, hout]⟩

theorem extractItems_joinItems (huse : UsesAs use f) (hitems : ∀ x ∈ items, x.Plain)
    (rest : List UInt8) (out : α) :
    ∃ buf', extractItems use (joinItems items ++ 0 :: rest) 0 out =
      some (buf', items.foldl f out) := by
  cases items with
  | nil => exact extractItems_writeItems huse hitems (rfl : ([] : List UInt8).length = 0) rest out
  | cons x items =>
    have hfuel : 2 * items.length + 2 < (joinItems (x :: items) ++ 0 :: rest).length + 1 := by
      have hlen := length_joinItems_le x items
      rw [List.length_append, List.length_cons]
      omega
    obtain ⟨s, hs, hout⟩ := extractLoop_joinItems [] rest out huse (hitems x List.mem_cons_self)
      (fun y hy => hitems y (List.mem_cons_of_mem _ hy)) hfuel
    rw [List.length_nil, List.nil_append] at hs
    exact ⟨s.buf, by rw [extractItems, hs, Option.map_some, hout]⟩

theorem foldl_push (list : List TConfigItem) :
    items.foldl (fun list x => list ++ [x]) list = list ++ items := by
  induction items generalizing list with
  | nil => exact (List.append_nil list).symm
  | cons x items ih => rw [List.foldl_cons, ih, List.append_assoc, List.singleton_append]

theorem foldl_joinItem_of_pos {ss : List UInt8} (hss : 0 < ss.length) :
    items.foldl joinItem ss = ss ++ items.flatMap fun y => 59 :: y.text := by
  induction items generalizing ss with
  | nil => exact (List.append_nil ss).symm
  | cons x items ih =>
    have hmore : 0 < (ss ++ 59 :: x.text).length := by
      rw [List.length_append]
      omega
    rw [List.foldl_cons, joinItem, if_pos hss, ih hmore, List.flatMap_cons, List.append_assoc]

theorem foldl_joinItem : items.foldl joinItem [] = joinItems items := by
  cases items with
  | nil => rfl
  | cons x items =>
    have hpos : 0 < x.text.length := by
      simp [TConfigItem.text]
    exact foldl_joinItem_of_pos hpos

theorem iMachCfgCount_foldl_add (cfgs : MachCfgs) :
    (items.foldl MachCfgs.add cfgs).iMachCfgCount = cfgs.iMachCfgCount + items.length := by
  induction items generalizing cfgs with
  | nil => rfl
  | cons x items ih =>
    calc
      ((x :: items).foldl MachCfgs.add cfgs).iMachCfgCount =
          (cfgs.iMachCfgCount + 1) + items.length := ih (cfgs.add x)
      _ = cfgs.iMachCfgCount + (x :: items).length := by
        rw [List.length_cons, Nat.add_assoc, Nat.add_comm 1]

theorem jscfgs_foldl_add (hnames : (items.map TConfigItem.strConfigName).Nodup) (cfgs : MachCfgs)
    (name val : List UInt8) :
    (items.foldl MachCfgs.add cfgs).jscfgs name = some val ↔
      ⟨name, val⟩ ∈ items ∨
        name ∉ items.map TConfigItem.strConfigName ∧ cfgs.jscfgs name = some val := by
  induction items generalizing cfgs with
  | nil => simp
  | cons x items ih =>
    rw [List.map_cons, List.nodup_cons] at hnames
    obtain ⟨hfresh, hnames⟩ := hnames
    rw [List.foldl_cons, ih hnames]
    by_cases hname : name = x.strConfigName
    · subst hname
      have hother : ∀ val, (⟨x.strConfigName, val⟩ : TConfigItem) ∉ items := by
        intro val hmem
        exact hfresh (List.mem_map.mpr ⟨_, hmem, rfl⟩)
      simp [MachCfgs.add, hfresh, hother, TConfigItem.ext_iff, eq_comm]
    · simp [MachCfgs.add, hname, TConfigItem.ext_iff]

/-- A parser ends with every text, and writes only inside of it. -/
def StaysInside (parse : List UInt8 → Option (List UInt8 × α)) : Prop :=
  ∀ text rest, ∃ text' out,
    parse (text ++ 0 :: rest) = some (text' ++ 0 :: rest, out) ∧ text'.length = text.length

theorem staysInside_of_textEnds {parse : List UInt8 → Option (List UInt8 × α)}
    (h : ∀ L rest buf, TextEnds L rest buf → ∃ x, parse buf = some x ∧ TextEnds L rest x.1) :
    StaysInside parse := by
  intro text rest
  obtain ⟨x, hx, hends⟩ := h _ _ _ (textEnds_append text rest)
  obtain ⟨text', htext', hlen⟩ := hends.eq_append
  exact ⟨text', x.2, by rw [hx, ← htext'], hlen⟩

theorem dealStrCfgs_time (htime : ∀ b ∈ time, b ≠ 0) (hsemi : 59 ∉ time)
    {list : List UInt8} (hlist : 0 ∈ list) :
    dealStrCfgs (s_plugCfgStr ++ (time ++ 59 :: list)) =
      storeItems (strtoul time) ((s_plugCfgStr ++ (time ++ [0])) ++ list)
        (s_plugCfgStr ++ (time ++ [0])).length := by
  have hhead : ∀ b ∈ s_plugCfgStr ++ time, b ≠ 0 := by
    intro b hb
    rcases List.mem_append.mp hb with hb | hb
    · rintro rfl
      exact absurd hb (by decide)
    · exact htime b hb
  have hheadSemi : 59 ∉ s_plugCfgStr ++ time := by
    intro hb
    rcases List.mem_append.mp hb with hb | hb
    · exact absurd hb (by decide)
    · exact hsemi hb
  have hfind : findFrom (s_plugCfgStr ++ (time ++ 59 :: list)) 0 59 =
      some (some (0 + (s_plugCfgStr ++ time).length)) := by
    rw [← List.append_assoc]
    exact findFrom_append hhead hheadSemi (by decide) hlist (rfl : ([] : List UInt8).length = 0)
  have hwrite : overwrite (s_plugCfgStr ++ (time ++ 59 :: list))
      (0 + (s_plugCfgStr ++ time).length) [0] = some (s_plugCfgStr ++ (time ++ 0 :: list)) := by
    apply overwrite_one
    rw [List.length_append, Nat.zero_add]
  have htext : textAt (s_plugCfgStr ++ (time ++ 0 :: list)) s_plugCfgStr.length = some time :=
    textAt_append htime rfl
  have hbuf : s_plugCfgStr ++ (time ++ 0 :: list) = (s_plugCfgStr ++ (time ++ [0])) ++ list := by
    rw [List.append_assoc, List.append_assoc, List.singleton_append]
  have hplace : (s_plugCfgStr ++ (time ++ [0])).length = 0 + (s_plugCfgStr ++ time).length + 1 := by
    rw [← List.append_assoc, List.length_append, List.length_singleton, Nat.zero_add]
  rw [dealStrCfgs, if_pos (List.prefix_append _ _), hplace, ← hbuf]
  simp only [hfind, hwrite, htext, Option.bind_eq_bind, Option.bind_some]

theorem dealStrCfgs_writeItems (hitems : ∀ x ∈ items, x.Plain)
    (htime : ∀ b ∈ time, b ≠ 0) (hsemi : 59 ∉ time) (rest : List UInt8) :
    ∃ buf', dealStrCfgs (s_plugCfgStr ++ (time ++ 59 :: (writeItems items ++ 0 :: rest))) =
      some (buf', .stored (UInt32.ofNat (strtoul time)) (joinItems items)) := by
  obtain ⟨buf', hbuf'⟩ := extractItems_writeItems usesAs_writeItem hitems
    (rfl : (s_plugCfgStr ++ (time ++ [0])).length = _) rest []
  rw [dealStrCfgs_time htime hsemi (by simp), storeItems, hbuf', foldl_joinItem]
  exact ⟨buf', rfl⟩

/-- The agent, the server with its encoding, and the web view read the items that were written, and
none of their parsers leaves the text it is given. -/
theorem pluginCfgs_agree (items : List TConfigItem) (hitems : ∀ x ∈ items, x.Plain)
    (hnames : (items.map TConfigItem.strConfigName).Nodup) (time : List UInt8)
    (htime : ∀ b ∈ time, b ≠ 0) (hsemi : 59 ∉ time) :
    (∃ buf, dealModMachinePluginCfg (writeItems items ++ [0]) = some (buf, items)) ∧
    (∃ buf list, dealStrCfgs (s_plugCfgStr ++ (time ++ 59 :: (writeItems items ++ [0]))) =
        some (buf, .stored (UInt32.ofNat (strtoul time)) list) ∧
      ∃ buf cfgs, getMachineInfoForPluginAttr (list ++ [0]) = some (buf, cfgs) ∧
        cfgs.iMachCfgCount = items.length ∧
        ∀ name val, cfgs.jscfgs name = some val ↔ ⟨name, val⟩ ∈ items) ∧
    StaysInside dealModMachinePluginCfg ∧ StaysInside dealStrCfgs ∧
      StaysInside getMachineInfoForPluginAttr := by
  refine ⟨?_, ?_, ?_, ?_, ?_⟩
  · obtain ⟨buf, hbuf⟩ := extractItems_writeItems usesAs_pushItem hitems
      (rfl : ([] : List UInt8).length = 0) [] []
    rw [foldl_push, List.nil_append] at hbuf
    exact ⟨buf, hbuf⟩
  · obtain ⟨buf, hbuf⟩ := dealStrCfgs_writeItems hitems htime hsemi []
    obtain ⟨buf', hbuf'⟩ := extractItems_joinItems usesAs_showItem hitems [] ⟨fun _ => none, 0⟩
    refine ⟨buf, joinItems items, hbuf, buf', _, hbuf', ?_, ?_⟩
    · rw [iMachCfgCount_foldl_add, Nat.zero_add]
    · intro name val
      rw [jscfgs_foldl_add hnames]
      simp
  · apply staysInside_of_textEnds
    intro L rest buf h
    exact extractItems_inside keepsEnd_pushItem h (Nat.zero_le L) []
  · apply staysInside_of_textEnds
    intro L rest buf h
    exact dealStrCfgs_inside h
  · apply staysInside_of_textEnds
    intro L rest buf h
    exact extractItems_inside keepsEnd_showItem h (Nat.zero_le L) _

/-- A list of two items, the second one with a space in its value. -/
theorem pluginCfgs_agree_two :
    ∃ buf, dealModMachinePluginCfg (writeItems [⟨[97], [49]⟩, ⟨[98], [120, 32, 121]⟩] ++ [0]) =
      some (buf, [⟨[97], [49]⟩, ⟨[98], [120, 32, 121]⟩]) := by
  refine (pluginCfgs_agree [⟨[97], [49]⟩, ⟨[98], [120, 32, 121]⟩] ?_ (by decide) [55]
    (by decide +kernel) (by decide)).1
  intro x hx
  rcases List.mem_cons.mp hx with rfl | hx
  · exact ⟨by decide, by decide, by decide +kernel, by decide +kernel, by decide, by decide,
      by decide, ⟨by decide +kernel, by decide +kernel⟩, ⟨by decide +kernel, by decide +kernel⟩⟩
  · rw [List.mem_singleton] at hx
    subst hx
    exact ⟨by decide, by decide, by decide +kernel, by decide +kernel, by decide, by decide,
      by decide, ⟨by decide +kernel, by decide +kernel⟩, ⟨by decide +kernel, by decide +kernel⟩⟩

end Format

end XrkMonitor.PluginReport
