import Mathlib.Data.List.Nodup
import XrkMonitor.Browser.Api
import XrkMonitor.Library.Run

/-!
# What the browser API reports is sent once

Every call adds to an array, and a request takes the arrays as they are; on success
the arrays are cleared together. The sums of an attribute and of a string, and the
logs of every source, are the same before and after a request.

## Implementation notes

`record` is what an event adds to the arrays, and `handOver` what a request takes
from them; an event is the one followed by at most one of the other. Numbers are
doubles: a sum is exact as long as no entry passes 2 ^ 53.
-/

namespace XrkMonitor.Browser

/-- What an event adds to the arrays. -/
def Data.record (d : Data) : Event → Data
  | .attr opr id number _ =>
    if number = 0 then d
    else { d with attrs := (changeAttr opr id number d.attrs).getD (d.attrs ++ [⟨id, number⟩]) }
  | .strattr opr id string number _ =>
    if number = 0 then d
    else { d with strattrs := (changeStrattr opr id string number d.strattrs).1 }
  | .log type msg time _ =>
    if d.log_config_id = 0 then d
    else { d with logs := d.logs ++ [⟨type, msg, (time.1 / 1000 * 1000 : Nat)⟩] }
  | .loadPlugin plugin => { d with plugins := d.plugins ++ [plugin] }
  | .pluginLog i log =>
    { d with plugins := d.plugins.modify i fun p => { p with logs := p.logs ++ [log] } }
  | .configure _ log_config_id master_user_id access_key =>
    { d with
      log_config_id := log_config_id
      master_user_id := master_user_id
      access_key := access_key }
  | _ => d

/-- A request takes what waits. -/
def Data.handOver (d : Data) (req_seq : Nat) : Data :=
  { d with
    plugins := clearLogs d.plugins d.logSource
    logs := []
    attrs := []
    strattrs := []
    sent := d.sent ++ [⟨req_seq, d.logSource, d.reports⟩] }

/-- At most one request lies between the two. -/
def Moves (d d' : Data) : Prop := d' = d ∨ ∃ req_seq, d' = d.handOver req_seq

section Steps

variable (s : Xrk) (now : Clock)

theorem Xrk.handed_toData : (s.handed now).toData = s.handOver s.quiet.req_seq := by
  rw [← s.quiet_toData]
  unfold Xrk.handed Xrk.countRequest
  rw [← s.quiet_toData]
  split <;> rfl

theorem Xrk.sendReports_moves : Moves s.toData (s.sendReports now).toData := by
  rw [Xrk.sendReports_eq]
  split
  · split
    · exact Or.inl s.quiet_toData
    · exact Or.inr ⟨_, s.handed_toData now⟩
  · exact Or.inl s.quiet_toData

theorem Xrk.reportToServer'_moves (delay : Bool) :
    Moves s.toData (s.reportToServer' delay now).toData := by
  unfold Xrk.reportToServer'
  split
  · split
    · exact Or.inl (s.setDelayTimer_toData .delay)
    · exact Or.inl rfl
  · exact s.sendReports_moves now

theorem Xrk.reportToServer_moves (delay : Option Int) :
    Moves s.toData (s.reportToServer delay now).toData := by
  unfold Xrk.reportToServer
  split
  · exact Or.inl rfl
  · split
    · have hmoves := s.clearDelayTimer.reportToServer'_moves now false
      rwa [s.clearDelayTimer_toData] at hmoves
    · split
      · exact Or.inl rfl
      · exact s.reportToServer'_moves now true

theorem Xrk.onDelayTimer_moves (check : Clock) :
    Moves s.toData (s.onDelayTimer check now).toData := by
  unfold Xrk.onDelayTimer
  dsimp only
  split
  · exact Xrk.reportToServer'_moves { s with last_delay_timer_id := 0, last_req_seq := 0 } now false
  · exact Xrk.reportToServer'_moves { s with last_delay_timer_id := 0 } now false

theorem Xrk.fire_moves (id : Nat) (check : Clock) :
    Moves s.toData (s.fire id check now).toData := by
  unfold Xrk.fire
  split
  · exact Or.inl rfl
  · split
    · exact (s.clearTimeout id).onDelayTimer_moves now check
    · exact Or.inl rfl
    · exact (s.clearTimeout id).reportToServer_moves now none

/-- An event adds to the arrays, and then at most one request takes them. -/
theorem Xrk.step_moves (e : Event) : Moves (s.toData.record e) (s.step e).toData := by
  cases e with
  | attr opr id number now =>
    simp only [Data.record, Xrk.step, Xrk.innerXrkReportAttr]
    split
    · exact Or.inl rfl
    · cases changeAttr opr id number s.attrs with
      | some attrs => exact Or.inl rfl
      | none =>
        dsimp only [Option.getD_none]
        split
        · have hmoves := Xrk.reportToServer'_moves
            (Xrk.clearTimeoutOnly { s with attrs := s.attrs ++ [⟨id, number⟩] }) now false
          rwa [Xrk.clearTimeoutOnly_toData] at hmoves
        · exact Or.inl rfl
  | strattr opr id string number now =>
    simp only [Data.record, Xrk.step, Xrk.innerXrkReportStrattr]
    split
    · exact Or.inl rfl
    · split
      · split
        · have hmoves := Xrk.reportToServer'_moves (Xrk.clearTimeoutOnly { s with
              strattrs := (changeStrattr opr id string number s.strattrs).1
              cur_strattrs_strlen := s.cur_strattrs_strlen + (string.take 50).length }) now false
          rwa [Xrk.clearTimeoutOnly_toData] at hmoves
        · exact Or.inl rfl
      · exact Or.inl rfl
  | log type msg time now =>
    simp only [Data.record, Xrk.step, Xrk.reportLog]
    split
    · exact Or.inl rfl
    · split
      · have hmoves := Xrk.reportToServer'_moves (Xrk.clearDelayTimer { s with
            logs := s.logs ++ [⟨type, msg, (time.1 / 1000 * 1000 : Nat)⟩]
            cur_logs_strlen := s.cur_logs_strlen + msg.length }) now false
        rwa [Xrk.clearDelayTimer_toData] at hmoves
      · exact Or.inl rfl
  | loadPlugin plugin => exact Or.inl rfl
  | pluginLog i log => exact Or.inl rfl
  | reportToServer delay now => exact s.reportToServer_moves now delay
  | fire id check now => exact s.fire_moves now id check
  | response parsed =>
    refine Or.inl ?_
    change (s.onResponse parsed).toData = s.toData
    unfold Xrk.onResponse
    split <;> rfl
  | configure report_url log_config_id master_user_id access_key => exact Or.inl rfl

end Steps

/-- The numbers of an attribute in an array. -/
def attrSum (id : ℕ∞) (attrs : List (Attr ℕ∞)) : ℕ∞ :=
  ((attrs.filter fun a => a.id = id).map Attr.number).sum

/-- The numbers of a string in an array. -/
def stringSum (key : JsString) (strings : List (StrInfo ℕ∞)) : ℕ∞ :=
  ((strings.filter fun x => x.string = key).map StrInfo.number).sum

/-- The numbers of a string of an attribute in an array. -/
def strattrSum (id : ℕ∞) (key : JsString) (strattrs : List (StrAttr ℕ∞)) : ℕ∞ :=
  ((strattrs.filter fun a => a.id = id).map fun a => stringSum key a.strings).sum

/-- An attribute in the requests and in the entry that waits. -/
def Data.attrTotal (d : Data) (id : ℕ∞) : ℕ∞ :=
  (d.sent.map fun r => attrSum id r.reports.attrs).sum + attrSum id d.attrs

/-- A string of an attribute in the requests and in what waits. -/
def Data.strattrTotal (d : Data) (id : ℕ∞) (key : JsString) : ℕ∞ :=
  (d.sent.map fun r => strattrSum id key r.reports.strattrs).sum + strattrSum id key d.strattrs

/-- The logs of a source in the requests, and then those that wait. -/
def Data.logTotal (d : Data) (source : Source) : List (Log ℕ∞) :=
  ((d.sent.filter fun r => r.source = source).flatMap fun r => r.reports.logs) ++ d.logsOf source

/-- The number that an event adds to an attribute. -/
def Event.addsAttr (id : ℕ∞) : Event → Nat
  | .attr .add i number _ => if i = id then number else 0
  | _ => 0

/-- The number that an event adds to the first 50 characters of a string. -/
def Event.addsString (id : ℕ∞) (key : JsString) : Event → Nat
  | .strattr .add i string number _ => if i = id ∧ string.take 50 = key then number else 0
  | _ => 0

/-- The logs that an event gives to a source. -/
def Event.givesLogs (source : Source) (d : Data) : Event → List (Log ℕ∞)
  | .log type msg time _ =>
    if source = .own ∧ d.log_config_id ≠ 0 then [⟨type, msg, (time.1 / 1000 * 1000 : Nat)⟩]
    else []
  | .loadPlugin plugin => if source = .plugin d.plugins.length then plugin.logs else []
  | .pluginLog i x => if source = .plugin i ∧ i < d.plugins.length then [x] else []
  | _ => []

/-- The logs that a run gives to a source. -/
def givenLogs (source : Source) : Xrk → List Event → List (Log ℕ∞)
  | _, [] => []
  | s, e :: events => e.givesLogs source s.toData ++ givenLogs source (s.step e) events

/-- The largest number up to which all whole numbers are numbers. -/
def maxExact : Nat := 2 ^ 53

/-- The attribute is not set, and adding to its entry stays exact. -/
def Event.AttrExact (id : ℕ∞) (s : Xrk) : Event → Prop
  | .attr opr i number _ =>
    i = id → opr = .add ∧ ∀ a ∈ s.attrs, a.id = id → a.number + number ≤ (maxExact : ℕ∞)
  | _ => True

/-- The string is not set, and adding to its entry stays exact. -/
def Event.StringExact (id : ℕ∞) (key : JsString) (s : Xrk) : Event → Prop
  | .strattr opr i string number _ =>
    i = id ∧ string.take 50 = key → opr = .add ∧
      ∀ a ∈ s.strattrs, a.id = id → ∀ x ∈ a.strings, x.string = string →
        x.number + number ≤ (maxExact : ℕ∞)
  | _ => True

instance Event.AttrExact.decidable (id : ℕ∞) (s : Xrk) : ∀ e : Event, Decidable (e.AttrExact id s)
  | .attr opr i number _ =>
    inferInstanceAs (Decidable
      (i = id → opr = .add ∧ ∀ a ∈ s.attrs, a.id = id → a.number + number ≤ (maxExact : ℕ∞)))
  | .strattr .. | .log .. | .loadPlugin .. | .pluginLog .. | .reportToServer .. | .fire ..
  | .response .. | .configure .. => isTrue trivial

section Numbers

theorem toNumber_of_le {n : Nat} (h : n ≤ maxExact) : toNumber n = (n : ℕ∞) := by
  have hplaces : roundPlaces n = n := if_pos h
  have hlt : ¬ 2 ^ 1024 ≤ n := by
    intro hle
    have hmax : maxExact < 2 ^ 1024 := Nat.pow_lt_pow_right Nat.one_lt_two (by decide)
    exact absurd (Nat.lt_of_le_of_lt (Nat.le_trans hle h) hmax) (Nat.lt_irrefl _)
  rw [toNumber, hplaces, if_neg hlt]

theorem addNumber_of_le {a : ℕ∞} {n : Nat} (h : a + n ≤ (maxExact : ℕ∞)) : addNumber a n = a + n := by
  induction a using ENat.recTopCoe with
  | top => simp at h
  | coe m =>
    have hle : m + n ≤ maxExact := by exact_mod_cast h
    change toNumber (m + n) = _
    rw [toNumber_of_le hle]
    push_cast
    rfl

end Numbers

section Sums

variable {id id' : ℕ∞} {number : Nat} {key string : JsString} {strings strings' : List (StrInfo ℕ∞)}
  {opr : Opr}

theorem attrSum_cons (a : Attr ℕ∞) (attrs : List (Attr ℕ∞)) :
    attrSum id (a :: attrs) = (if a.id = id then a.number else 0) + attrSum id attrs := by
  unfold attrSum
  rw [List.filter_cons]
  by_cases h : a.id = id
  · simp [h]
  · simp [h]

theorem attrSum_append (xs ys : List (Attr ℕ∞)) :
    attrSum id (xs ++ ys) = attrSum id xs + attrSum id ys := by
  simp [attrSum]

theorem stringSum_cons (x : StrInfo ℕ∞) (strings : List (StrInfo ℕ∞)) :
    stringSum key (x :: strings) = (if x.string = key then x.number else 0) + stringSum key strings := by
  unfold stringSum
  rw [List.filter_cons]
  by_cases h : x.string = key
  · simp [h]
  · simp [h]

theorem stringSum_append (xs ys : List (StrInfo ℕ∞)) :
    stringSum key (xs ++ ys) = stringSum key xs + stringSum key ys := by
  simp [stringSum]

theorem strattrSum_cons (a : StrAttr ℕ∞) (strattrs : List (StrAttr ℕ∞)) :
    strattrSum id key (a :: strattrs) =
      (if a.id = id then stringSum key a.strings else 0) + strattrSum id key strattrs := by
  unfold strattrSum
  rw [List.filter_cons]
  by_cases h : a.id = id
  · simp [h]
  · simp [h]

theorem attrSum_changeAttr {attrs attrs' : List (Attr ℕ∞)}
    (hchange : changeAttr opr id' number attrs = some attrs')
    (hexact : id' = id → opr = .add ∧ ∀ a ∈ attrs, a.id = id → a.number + number ≤ (maxExact : ℕ∞)) :
    attrSum id attrs' = attrSum id attrs + (if id' = id then number else 0 : Nat) := by
  induction attrs generalizing attrs' with
  | nil => cases hchange
  | cons a attrs ih =>
    rw [changeAttr] at hchange
    split at hchange
    · rename_i ha
      obtain rfl := Option.some.inj hchange
      rw [attrSum_cons, attrSum_cons]
      by_cases hid : id' = id
      · obtain ⟨rfl, hsmall⟩ := hexact hid
        have hnumber := addNumber_of_le (hsmall a List.mem_cons_self (ha.trans hid))
        simp only [Opr.apply, hnumber, ha, hid, if_true]
        rw [add_right_comm]
      · simp [ha, hid]
    · rw [Option.map_eq_some_iff] at hchange
      obtain ⟨rest, hrest, rfl⟩ := hchange
      have hsum := ih hrest fun hid =>
        ⟨(hexact hid).1, fun b hb => (hexact hid).2 b (List.mem_cons_of_mem a hb)⟩
      rw [attrSum_cons, attrSum_cons, hsum, add_assoc]

theorem stringSum_changeString (hchange : changeString opr string number strings = some strings')
    (hexact : string = key → opr = .add ∧
      ∀ x ∈ strings, x.string = string → x.number + number ≤ (maxExact : ℕ∞)) :
    stringSum key strings' = stringSum key strings + (if string = key then number else 0 : Nat) := by
  induction strings generalizing strings' with
  | nil => cases hchange
  | cons x strings ih =>
    rw [changeString] at hchange
    split at hchange
    · rename_i hx
      obtain rfl := Option.some.inj hchange
      rw [stringSum_cons, stringSum_cons]
      by_cases hkey : string = key
      · obtain ⟨rfl, hsmall⟩ := hexact hkey
        have hnumber := addNumber_of_le (hsmall x List.mem_cons_self hx)
        simp only [Opr.apply, hnumber, hx, hkey, if_true]
        rw [add_right_comm]
      · simp [hx, hkey]
    · rw [Option.map_eq_some_iff] at hchange
      obtain ⟨rest, hrest, rfl⟩ := hchange
      have hsum := ih hrest fun hkey =>
        ⟨(hexact hkey).1, fun y hy => (hexact hkey).2 y (List.mem_cons_of_mem x hy)⟩
      rw [stringSum_cons, stringSum_cons, hsum, add_assoc]

theorem exists_mem_of_changeString
    (hchange : changeString opr string number strings = some strings') :
    ∃ x ∈ strings, x.string = string := by
  induction strings generalizing strings' with
  | nil => cases hchange
  | cons x strings ih =>
    rw [changeString] at hchange
    split at hchange
    · rename_i hx
      exact ⟨x, List.mem_cons_self, hx⟩
    · rw [Option.map_eq_some_iff] at hchange
      obtain ⟨rest, hrest, -⟩ := hchange
      obtain ⟨y, hy, hstring⟩ := ih hrest
      exact ⟨y, List.mem_cons_of_mem x hy, hstring⟩

/-- The strings that wait have been cut to 50 characters. -/
def Short (strattrs : List (StrAttr ℕ∞)) : Prop :=
  ∀ a ∈ strattrs, ∀ x ∈ a.strings, x.string.length ≤ 50

theorem stringSum_newString :
    stringSum key [newString string number] = (if string.take 50 = key then number else 0 : Nat) := by
  rw [stringSum_cons, newString]
  by_cases hkey : string.take 50 = key
  · simp [hkey, stringSum]
  · simp [hkey, stringSum]

theorem strattrSum_changeStrattr {strattrs : List (StrAttr ℕ∞)} (hshort : Short strattrs)
    (hexact : id' = id ∧ string.take 50 = key → opr = .add ∧ ∀ a ∈ strattrs, a.id = id →
      ∀ x ∈ a.strings, x.string = string → x.number + number ≤ (maxExact : ℕ∞)) :
    strattrSum id key (changeStrattr opr id' string number strattrs).1 =
      strattrSum id key strattrs + (if id' = id ∧ string.take 50 = key then number else 0 : Nat) := by
  induction strattrs with
  | nil =>
    rw [changeStrattr, strattrSum_cons, stringSum_newString]
    by_cases hid : id' = id
    · simp [hid, strattrSum]
    · simp [hid, strattrSum]
  | cons a strattrs ih =>
    rw [changeStrattr]
    split
    · rename_i ha
      split
      · rename_i strings hchange
        obtain ⟨x, hx, hstring⟩ := exists_mem_of_changeString hchange
        have hlen := hshort a List.mem_cons_self x hx
        have htake : string.take 50 = string := List.take_of_length_le (hstring ▸ hlen)
        rw [htake] at hexact ⊢
        rw [strattrSum_cons, strattrSum_cons]
        by_cases hid : id' = id
        · have hsum : stringSum key strings = stringSum key a.strings + _ :=
            stringSum_changeString hchange fun hkey =>
            ⟨(hexact ⟨hid, hkey⟩).1, (hexact ⟨hid, hkey⟩).2 a List.mem_cons_self (ha.trans hid)⟩
          simp only [ha, hid, if_true, true_and, hsum]
          rw [add_right_comm]
        · simp [ha, hid]
      · rw [strattrSum_cons, strattrSum_cons]
        by_cases hid : id' = id
        · simp only [ha, hid, if_true, true_and, stringSum_append, stringSum_newString]
          rw [add_right_comm]
        · simp [ha, hid]
    · have hsum := ih (fun b hb => hshort b (List.mem_cons_of_mem a hb)) fun h =>
        ⟨(hexact h).1, fun b hb => (hexact h).2 b (List.mem_cons_of_mem a hb)⟩
      rw [strattrSum_cons, strattrSum_cons, hsum, add_assoc]

end Sums

section Entries

variable {opr : Opr} {id : ℕ∞} {number : Nat} {string : JsString} {strattrs : List (StrAttr ℕ∞)}
  {attrs : List (Attr ℕ∞)}

theorem map_id_changeAttr {attrs attrs' : List (Attr ℕ∞)}
    (hchange : changeAttr opr id number attrs = some attrs') :
    attrs'.map Attr.id = attrs.map Attr.id := by
  induction attrs generalizing attrs' with
  | nil => cases hchange
  | cons a attrs ih =>
    rw [changeAttr] at hchange
    split at hchange
    · obtain rfl := Option.some.inj hchange
      rfl
    · rw [Option.map_eq_some_iff] at hchange
      obtain ⟨rest, hrest, rfl⟩ := hchange
      rw [List.map_cons, List.map_cons, ih hrest]

theorem not_mem_of_changeAttr
    (hchange : changeAttr opr id number attrs = none) : id ∉ attrs.map Attr.id := by
  induction attrs with
  | nil => exact List.not_mem_nil
  | cons a attrs ih =>
    rw [changeAttr] at hchange
    split at hchange
    · cases hchange
    · rename_i ha
      rw [Option.map_eq_none_iff] at hchange
      rw [List.map_cons, List.mem_cons, not_or]
      exact ⟨fun h => ha h.symm, ih hchange⟩

theorem nodup_changeAttr (hnodup : (attrs.map Attr.id).Nodup) :
    (((changeAttr opr id number attrs).getD (attrs ++ [⟨id, number⟩])).map Attr.id).Nodup := by
  cases hchange : changeAttr opr id number attrs with
  | some attrs' =>
    rw [Option.getD_some, map_id_changeAttr hchange]
    exact hnodup
  | none =>
    rw [Option.getD_none, List.map_append]
    exact hnodup.append (List.nodup_singleton id)
      (List.disjoint_singleton.mpr (not_mem_of_changeAttr hchange))

theorem map_id_changeStrattr (strattrs : List (StrAttr ℕ∞)) :
    (changeStrattr opr id string number strattrs).1.map StrAttr.id =
      if id ∈ strattrs.map StrAttr.id then strattrs.map StrAttr.id
      else strattrs.map StrAttr.id ++ [id] := by
  induction strattrs with
  | nil => rfl
  | cons a strattrs ih =>
    rw [changeStrattr]
    split
    · rename_i ha
      have hmem : id ∈ (a :: strattrs).map StrAttr.id := by
        rw [List.map_cons, ha]
        exact List.mem_cons_self
      rw [if_pos hmem]
      split <;> rfl
    · rename_i ha
      have hiff : id ∈ (a :: strattrs).map StrAttr.id ↔ id ∈ strattrs.map StrAttr.id := by
        rw [List.map_cons, List.mem_cons]
        exact or_iff_right fun h => ha h.symm
      rw [List.map_cons, ih]
      by_cases hmem : id ∈ strattrs.map StrAttr.id
      · rw [if_pos hmem, if_pos (hiff.mpr hmem)]
        rfl
      · rw [if_neg hmem, if_neg fun h => hmem (hiff.mp h)]
        rfl

theorem nodup_changeStrattr (hnodup : (strattrs.map StrAttr.id).Nodup) :
    ((changeStrattr opr id string number strattrs).1.map StrAttr.id).Nodup := by
  rw [map_id_changeStrattr]
  split
  · exact hnodup
  · rename_i hmem
    exact hnodup.append (List.nodup_singleton id) (List.disjoint_singleton.mpr hmem)

theorem short_changeString {strings strings' : List (StrInfo ℕ∞)}
    (hchange : changeString opr string number strings = some strings')
    (hshort : ∀ x ∈ strings, x.string.length ≤ 50) : ∀ x ∈ strings', x.string.length ≤ 50 := by
  induction strings generalizing strings' with
  | nil => cases hchange
  | cons y strings ih =>
    rw [List.forall_mem_cons] at hshort
    rw [changeString] at hchange
    split at hchange
    · obtain rfl := Option.some.inj hchange
      exact List.forall_mem_cons.mpr hshort
    · rw [Option.map_eq_some_iff] at hchange
      obtain ⟨rest, hrest, rfl⟩ := hchange
      exact List.forall_mem_cons.mpr ⟨hshort.1, ih hrest hshort.2⟩

theorem short_changeStrattr (hshort : Short strattrs) :
    Short (changeStrattr opr id string number strattrs).1 := by
  have hnew : (newString string number).string.length ≤ 50 := List.length_take_le 50 string
  induction strattrs with
  | nil => exact List.forall_mem_singleton.mpr (List.forall_mem_singleton.mpr hnew)
  | cons a strattrs ih =>
    obtain ⟨ha, hrest⟩ := List.forall_mem_cons.mp hshort
    rw [changeStrattr]
    split
    · split
      · rename_i strings hchange
        exact List.forall_mem_cons.mpr ⟨short_changeString hchange ha, hrest⟩
      · refine List.forall_mem_cons.mpr ⟨?_, hrest⟩
        exact List.forall_mem_append.mpr ⟨ha, List.forall_mem_singleton.mpr hnew⟩
    · exact List.forall_mem_cons.mpr ⟨ha, ih hrest⟩

end Entries

/-- Every array, waiting or sent, has one entry for an attribute, and the strings are cut. -/
structure Data.Tidy (d : Data) : Prop where
  attrs : (d.attrs.map Attr.id).Nodup
  strattrs : (d.strattrs.map StrAttr.id).Nodup
  short : Short d.strattrs
  sent : ∀ r ∈ d.sent, (r.reports.attrs.map Attr.id).Nodup ∧
    (r.reports.strattrs.map StrAttr.id).Nodup

section Data

variable {d d' : Data} {e : Event} {id : ℕ∞} {key : JsString} {source : Source}

theorem Data.Tidy.record (h : d.Tidy) : (d.record e).Tidy := by
  cases e with
  | attr opr i number now =>
    rw [Data.record]
    split
    · exact h
    · exact ⟨nodup_changeAttr h.attrs, h.strattrs, h.short, h.sent⟩
  | strattr opr i string number now =>
    rw [Data.record]
    split
    · exact h
    · exact ⟨h.attrs, nodup_changeStrattr h.strattrs, short_changeStrattr h.short, h.sent⟩
  | log type msg time now =>
    rw [Data.record]
    split
    · exact h
    · exact ⟨h.attrs, h.strattrs, h.short, h.sent⟩
  | loadPlugin plugin => exact ⟨h.attrs, h.strattrs, h.short, h.sent⟩
  | pluginLog i log => exact ⟨h.attrs, h.strattrs, h.short, h.sent⟩
  | reportToServer delay now => exact h
  | fire i check now => exact h
  | response parsed => exact h
  | configure report_url log_config_id master_user_id access_key =>
    exact ⟨h.attrs, h.strattrs, h.short, h.sent⟩

theorem Data.Tidy.moves (h : d.Tidy) (hmoves : Moves d d') : d'.Tidy := by
  obtain rfl | ⟨req_seq, rfl⟩ := hmoves
  · exact h
  · refine ⟨List.nodup_nil, List.nodup_nil, List.forall_mem_nil _, ?_⟩
    exact List.forall_mem_append.mpr ⟨h.sent, List.forall_mem_singleton.mpr ⟨h.attrs, h.strattrs⟩⟩

theorem Data.attrTotal_moves (hmoves : Moves d d') : d'.attrTotal id = d.attrTotal id := by
  obtain rfl | ⟨req_seq, rfl⟩ := hmoves
  · rfl
  · simp [Data.attrTotal, Data.handOver, Data.reports, attrSum]

theorem Data.strattrTotal_moves (hmoves : Moves d d') :
    d'.strattrTotal id key = d.strattrTotal id key := by
  obtain rfl | ⟨req_seq, rfl⟩ := hmoves
  · rfl
  · simp [Data.strattrTotal, Data.handOver, Data.reports, strattrSum]

theorem Data.logsOf_handOver (req_seq : Nat) :
    (d.handOver req_seq).logsOf source = if source = d.logSource then [] else d.logsOf source := by
  cases source with
  | own =>
    change ([] : List (Log ℕ∞)) = _
    split
    · rfl
    · rename_i hown
      by_contra hlogs
      exact hown (if_pos (Ne.symm hlogs)).symm
  | plugin i =>
    change ((clearLogs d.plugins d.logSource)[i]?.map Plugin.logs).getD [] =
      if Source.plugin i = d.logSource then [] else (d.plugins[i]?.map Plugin.logs).getD []
    cases d.logSource with
    | own => rfl
    | plugin j =>
      rw [clearLogs, List.getElem?_modify]
      by_cases hj : j = i
      · subst hj
        cases d.plugins[j]? <;> simp
      · simp [hj, Ne.symm hj]

theorem Data.logTotal_moves (hmoves : Moves d d') : d'.logTotal source = d.logTotal source := by
  obtain rfl | ⟨req_seq, rfl⟩ := hmoves
  · rfl
  · rw [Data.logTotal, Data.logsOf_handOver, Data.logTotal]
    change (((d.sent ++ [_]).filter _).flatMap _) ++ _ = _
    rw [List.filter_append, List.flatMap_append]
    by_cases hsource : source = d.logSource
    · subst hsource
      simp [Data.reports]
    · simp [hsource, Ne.symm hsource]

theorem attrTotal_record {s : Xrk} (hexact : e.AttrExact id s) :
    (s.toData.record e).attrTotal id = s.attrTotal id + (e.addsAttr id : Nat) := by
  cases e with
  | attr opr i number now =>
    have hadds : ((Event.attr opr i number now).addsAttr id : ℕ∞) =
        (if i = id then number else 0 : Nat) := by
      cases opr with
      | add => rfl
      | set =>
        by_cases hid : i = id
        · cases (hexact hid).1
        · rw [if_neg hid]
          rfl
    rw [hadds, Data.record]
    split
    · rename_i hzero
      simp [hzero]
    · rw [Data.attrTotal, Data.attrTotal, add_assoc]
      congr 1
      cases hchange : changeAttr opr i number s.attrs with
      | some attrs => exact attrSum_changeAttr hchange hexact
      | none =>
        rw [Option.getD_none, attrSum_append, attrSum_cons]
        by_cases hid : i = id
        · simp [hid, attrSum]
        · simp [hid, attrSum]
  | strattr opr i string number now =>
    rw [Data.record]
    split <;> simp [Event.addsAttr, Data.attrTotal]
  | log type msg time now =>
    rw [Data.record]
    split <;> simp [Event.addsAttr, Data.attrTotal]
  | _ => simp [Event.addsAttr, Data.record, Data.attrTotal]

theorem strattrTotal_record {s : Xrk} (htidy : s.Tidy) (hexact : e.StringExact id key s) :
    (s.toData.record e).strattrTotal id key =
      s.strattrTotal id key + (e.addsString id key : Nat) := by
  cases e with
  | strattr opr i string number now =>
    have hadds : ((Event.strattr opr i string number now).addsString id key : ℕ∞) =
        (if i = id ∧ string.take 50 = key then number else 0 : Nat) := by
      cases opr with
      | add => rfl
      | set =>
        by_cases hid : i = id ∧ string.take 50 = key
        · cases (hexact hid).1
        · rw [if_neg hid]
          rfl
    rw [hadds, Data.record]
    split
    · rename_i hzero
      simp [hzero]
    · rw [Data.strattrTotal, Data.strattrTotal, add_assoc]
      congr 1
      exact strattrSum_changeStrattr htidy.short hexact
  | attr opr i number now =>
    rw [Data.record]
    split <;> simp [Event.addsString, Data.strattrTotal]
  | log type msg time now =>
    rw [Data.record]
    split <;> simp [Event.addsString, Data.strattrTotal]
  | _ => simp [Event.addsString, Data.record, Data.strattrTotal]

theorem record_sent : (d.record e).sent = d.sent := by
  cases e with
  | attr opr i number now =>
    rw [Data.record]
    split <;> rfl
  | strattr opr i string number now =>
    rw [Data.record]
    split <;> rfl
  | log type msg time now =>
    rw [Data.record]
    split <;> rfl
  | _ => rfl

/-- A source has the logs that the event gives it behind those that it had. -/
theorem logsOf_record : (d.record e).logsOf source = d.logsOf source ++ e.givesLogs source d := by
  have hnothing : ∀ d₁ : Data, d₁.logs = d.logs → d₁.plugins = d.plugins →
      d₁.logsOf source = d.logsOf source ++ [] := by
    intro d₁ hlogs hplugins
    rw [List.append_nil]
    cases source with
    | own => exact hlogs
    | plugin i => rw [Data.logsOf, Data.logsOf, hplugins]
  cases e with
  | attr opr i number now =>
    apply hnothing
    · rw [Data.record]
      split <;> rfl
    · rw [Data.record]
      split <;> rfl
  | strattr opr i string number now =>
    apply hnothing
    · rw [Data.record]
      split <;> rfl
    · rw [Data.record]
      split <;> rfl
  | log type msg time now =>
    rw [Data.record, Event.givesLogs]
    split
    · rename_i hzero
      simp [hzero]
    · rename_i hset
      cases source with
      | own => simp [hset, Data.logsOf]
      | plugin i => simp [Data.logsOf]
  | loadPlugin plugin =>
    cases source with
    | own => simp [Data.record, Event.givesLogs, Data.logsOf]
    | plugin i =>
      simp only [Data.record, Event.givesLogs, Data.logsOf, Source.plugin.injEq]
      obtain hi | rfl | hi := Nat.lt_trichotomy i d.plugins.length
      · simp [List.getElem?_append_left hi, Nat.ne_of_lt hi]
      · simp
      · have hlen : (d.plugins ++ [plugin]).length ≤ i := by
          rw [List.length_append]
          exact hi
        simp [List.getElem?_eq_none hlen, List.getElem?_eq_none (Nat.le_of_lt hi),
          Nat.ne_of_gt hi]
  | pluginLog i x =>
    cases source with
    | own => simp [Data.record, Event.givesLogs, Data.logsOf]
    | plugin j =>
      simp only [Data.record, Event.givesLogs, Data.logsOf, List.getElem?_modify,
        Source.plugin.injEq]
      by_cases hj : i = j
      · subst hj
        by_cases hi : i < d.plugins.length
        · simp [hi]
        · simp [hi]
      · simp [hj, Ne.symm hj]
  | reportToServer delay now => exact hnothing d rfl rfl
  | fire i check now => exact hnothing d rfl rfl
  | response parsed => exact hnothing d rfl rfl
  | configure report_url log_config_id master_user_id access_key => exact hnothing _ rfl rfl

theorem logTotal_record :
    (d.record e).logTotal source = d.logTotal source ++ e.givesLogs source d := by
  rw [Data.logTotal, Data.logTotal, record_sent, logsOf_record, List.append_assoc]

end Data

section Runs

variable {s : Xrk} {id : ℕ∞} {key : JsString} {source : Source} {events : List Event}

theorem Xrk.step_tidy (h : s.Tidy) (e : Event) : (s.step e).Tidy :=
  h.record.moves (s.step_moves e)

theorem Xrk.run_tidy (h : s.Tidy) (events : List Event) : (s.run events).Tidy := by
  induction events generalizing s with
  | nil => exact h
  | cons e events ih => exact ih (s.step_tidy h e)

theorem Xrk.attrTotal_run (hexact : Library.Along Xrk.step (fun s e => e.AttrExact id s) s events) :
    (s.run events).attrTotal id =
      s.attrTotal id + ((events.map (Event.addsAttr id)).sum : Nat) := by
  induction events generalizing s with
  | nil => simp [Xrk.run]
  | cons e events ih =>
    change ((s.step e).run events).attrTotal id = _
    rw [ih hexact.2, Data.attrTotal_moves (s.step_moves e), attrTotal_record hexact.1, List.map_cons,
      List.sum_cons]
    push_cast
    rw [add_assoc]

theorem Xrk.strattrTotal_run (htidy : s.Tidy)
    (hexact : Library.Along Xrk.step (fun s e => e.StringExact id key s) s events) :
    (s.run events).strattrTotal id key =
      s.strattrTotal id key + ((events.map (Event.addsString id key)).sum : Nat) := by
  induction events generalizing s with
  | nil => simp [Xrk.run]
  | cons e events ih =>
    change ((s.step e).run events).strattrTotal id key = _
    rw [ih (s.step_tidy htidy e) hexact.2, Data.strattrTotal_moves (s.step_moves e),
      strattrTotal_record htidy hexact.1, List.map_cons, List.sum_cons]
    push_cast
    rw [add_assoc]

theorem Xrk.logTotal_run (events : List Event) :
    (s.run events).logTotal source = s.logTotal source ++ givenLogs source s events := by
  induction events generalizing s with
  | nil => simp [Xrk.run, givenLogs]
  | cons e events ih =>
    change ((s.step e).run events).logTotal source = _
    rw [ih, Data.logTotal_moves (s.step_moves e), logTotal_record, givenLogs, List.append_assoc]

end Runs

/-- In every run: what was added to an attribute is what the requests and the entry that waits say,
and so for the first 50 characters of a string, as long as the numbers stay exact; the logs of every
source are sent once and in order or still wait; and no request has two entries for an attribute. -/
theorem reports_conserved (hasJSON hasUrl : Bool) (report_url : JsString)
    (log_config_id master_user_id : ℕ∞) (access_key : JsString) (events : List Event) :
    let s₀ := Xrk.init hasJSON hasUrl report_url log_config_id master_user_id access_key
    let s := s₀.run events
    (∀ id, Library.Along Xrk.step (fun s e => e.AttrExact id s) s₀ events →
      s.attrTotal id = ((events.map (Event.addsAttr id)).sum : Nat)) ∧
    (∀ id key, Library.Along Xrk.step (fun s e => e.StringExact id key s) s₀ events →
      s.strattrTotal id key = ((events.map (Event.addsString id key)).sum : Nat)) ∧
    (∀ source, s.logTotal source = givenLogs source s₀ events) ∧
    ∀ r ∈ s.sent, (r.reports.attrs.map Attr.id).Nodup ∧
      (r.reports.strattrs.map StrAttr.id).Nodup := by
  intro s₀ s
  have htidy : s₀.Tidy :=
    ⟨List.nodup_nil, List.nodup_nil, List.forall_mem_nil _, List.forall_mem_nil _⟩
  refine ⟨?_, ?_, ?_, (s₀.run_tidy htidy events).sent⟩
  · intro id hexact
    have hrun := Xrk.attrTotal_run hexact
    have hzero : s₀.attrTotal id = 0 := rfl
    rwa [hzero, zero_add] at hrun
  · intro id key hexact
    have hrun := Xrk.strattrTotal_run htidy hexact
    have hzero : s₀.strattrTotal id key = 0 := rfl
    rwa [hzero, zero_add] at hrun
  · intro source
    have hrun : s.logTotal source = _ := s₀.logTotal_run events
    have hnil : s₀.logTotal source = [] := by
      cases source <;> rfl
    rwa [hnil, List.nil_append] at hrun

/-- An object that has started, with log configuration 7. -/
def startedXrk : Xrk := .init true true [47] 7 0 []

/-- One second after 1970. -/
def oneSecond : Clock := ⟨1000, by decide⟩

/-- Two numbers for attribute 1, of which the first is sent, and a log. -/
def someReports : List Event :=
  [.attr .add 1 5 oneSecond, .reportToServer none oneSecond, .attr .add 1 7 oneSecond,
    .log .error [120] oneSecond oneSecond]

theorem reports_conserved_someReports :
    (startedXrk.run someReports).attrTotal 1 = 12 ∧
      (startedXrk.run someReports).attrs = [⟨1, 7⟩] ∧ (startedXrk.run someReports).sent.length = 1 ∧
      (startedXrk.run someReports).logTotal .own = [⟨.error, [120], 1000⟩] := by
  obtain ⟨hattr, -, hlogs, -⟩ := reports_conserved true true [47] 7 0 [] someReports
  exact ⟨hattr 1 (by decide +kernel), by decide +kernel, by decide +kernel, hlogs .own⟩

/-- 2 ^ 53 and 1 are added to attribute 1; the entry has 2 ^ 53. -/
theorem sum_rounded :
    (startedXrk.run [.attr .add 1 maxExact oneSecond, .attr .add 1 1 oneSecond]).attrTotal 1 ≠
      ((([.attr .add 1 maxExact oneSecond, .attr .add 1 1 oneSecond] : List Event).map
        (Event.addsAttr 1)).sum : Nat) := by
  decide +kernel

end XrkMonitor.Browser
