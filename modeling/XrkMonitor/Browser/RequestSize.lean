import Mathlib.Algebra.Ring.Nat
import XrkMonitor.Browser.Conservation

/-!
# How large a request is

The limits of a request are tested when an entry is added to an array, by trying to send. A
request that is waited for, or the frequency check, leaves the array as it is, and what is
added then goes beyond the limit; and a long string is looked up by all of its characters
and stored cut. `requests_within_limits` says when no request goes beyond a limit.

## Implementation notes

What a request carries of strings is the list of its pairs of an attribute and a string.
`mt_slog_reportinfo` takes as many attributes of a request as `MAX_ATTR_READ_PER_EACH`.
-/

namespace XrkMonitor.Browser

open Library

/-- The limit of `DealReport`. -/
def MAX_ATTR_READ_PER_EACH : Nat := 120

/-- The attribute and the string of every entry. -/
def strPairs (strattrs : List (StrAttr ℕ∞)) : List (ℕ∞ × JsString) :=
  strattrs.flatMap fun a => a.strings.map fun x => (a.id, x.string)

/-- The length of all strings. -/
def pairsLen (pairs : List (ℕ∞ × JsString)) : Nat := (pairs.map fun p => p.2.length).sum

/-- What a request may carry. -/
structure Reports.WithinLimits (r : Reports ℕ∞) : Prop where
  attrs : r.attrs.length ≤ max_attrs_per_req ∧ r.attrs.length ≤ MAX_ATTR_READ_PER_EACH
  pairs : (strPairs r.strattrs).Nodup
  strings : ∀ p ∈ strPairs r.strattrs, p.2.length ≤ 50
  total : pairsLen (strPairs r.strattrs) < max_strattrs_strlen + 50

/-- There is room for what the event adds: the attributes that wait are fewer than the limit, the
strings that wait stay within theirs, and a string that is cut does not wait already. -/
def Data.RoomFor (d : Data) : Event → Prop
  | .attr _ id number _ =>
    number ≠ 0 → id ∉ d.attrs.map Attr.id → d.attrs.length < max_attrs_per_req
  | .strattr _ id string number _ =>
    number ≠ 0 → (id, string) ∉ strPairs d.strattrs →
      (id, string.take 50) ∉ strPairs d.strattrs ∧
        pairsLen (strPairs d.strattrs) + (string.take 50).length < max_strattrs_strlen + 50
  | _ => True

instance (d : Data) : ∀ e, Decidable (d.RoomFor e)
  | .attr _ _ _ _ => inferInstanceAs (Decidable (_ → _ → _))
  | .strattr _ _ _ _ _ => inferInstanceAs (Decidable (_ → _ → _ ∧ _))
  | .log _ _ _ _ => isTrue trivial
  | .loadPlugin _ => isTrue trivial
  | .pluginLog _ _ => isTrue trivial
  | .reportToServer _ _ => isTrue trivial
  | .fire _ _ _ => isTrue trivial
  | .response _ => isTrue trivial
  | .configure _ _ _ _ => isTrue trivial

section Entries

variable {opr : Opr} {id : ℕ∞} {number : Nat} {string : JsString}

theorem strPairs_cons (a : StrAttr ℕ∞) (strattrs : List (StrAttr ℕ∞)) :
    strPairs (a :: strattrs) = (a.strings.map fun x => (a.id, x.string)) ++ strPairs strattrs := by
  rw [strPairs, List.flatMap_cons]
  rfl

theorem pairsLen_perm {pairs pairs' : List (ℕ∞ × JsString)} (h : pairs.Perm pairs') :
    pairsLen pairs = pairsLen pairs' :=
  (h.map _).sum_nat

theorem pairsLen_cons (p : ℕ∞ × JsString) (pairs : List (ℕ∞ × JsString)) :
    pairsLen (p :: pairs) = p.2.length + pairsLen pairs := by
  rw [pairsLen, List.map_cons, List.sum_cons]
  rfl

theorem map_string_changeString {strings strings' : List (StrInfo ℕ∞)}
    (hchange : changeString opr string number strings = some strings') :
    strings'.map StrInfo.string = strings.map StrInfo.string := by
  induction strings generalizing strings' with
  | nil => cases hchange
  | cons x strings ih =>
    rw [changeString] at hchange
    split at hchange
    · obtain rfl := Option.some.inj hchange
      rfl
    · rw [Option.map_eq_some_iff] at hchange
      obtain ⟨rest, hrest, rfl⟩ := hchange
      rw [List.map_cons, List.map_cons, ih hrest]

theorem not_mem_of_changeString {strings : List (StrInfo ℕ∞)}
    (hchange : changeString opr string number strings = none) :
    string ∉ strings.map StrInfo.string := by
  induction strings with
  | nil => exact List.not_mem_nil
  | cons x strings ih =>
    rw [changeString] at hchange
    split at hchange
    · cases hchange
    · rename_i hx
      rw [Option.map_eq_none_iff] at hchange
      rw [List.map_cons, List.mem_cons, not_or]
      exact ⟨fun h => hx h.symm, ih hchange⟩

theorem mem_strPairs_id {p : ℕ∞ × JsString} {strattrs : List (StrAttr ℕ∞)}
    (hp : p ∈ strPairs strattrs) : p.1 ∈ strattrs.map StrAttr.id := by
  obtain ⟨a, ha, hpa⟩ := List.mem_flatMap.mp hp
  obtain ⟨x, -, rfl⟩ := List.mem_map.mp hpa
  exact List.mem_map_of_mem ha

theorem pairs_of_strings (a : StrAttr ℕ∞) :
    (a.strings.map fun x => (a.id, x.string)) =
      (a.strings.map StrInfo.string).map fun y => (a.id, y) := by
  rw [List.map_map]
  rfl

/-- The loop over `strattrs` leaves the pairs, or adds one that was not there; what it adds is cut. -/
theorem changeStrattr_pairs {strattrs : List (StrAttr ℕ∞)}
    (hnodup : (strattrs.map StrAttr.id).Nodup) :
    strPairs (changeStrattr opr id string number strattrs).1 = strPairs strattrs ∨
      (id, string) ∉ strPairs strattrs ∧
        (strPairs (changeStrattr opr id string number strattrs).1).Perm
          ((id, string.take 50) :: strPairs strattrs) := by
  induction strattrs with
  | nil => exact Or.inr ⟨List.not_mem_nil, List.Perm.refl _⟩
  | cons a strattrs ih =>
    rw [List.map_cons, List.nodup_cons] at hnodup
    rw [changeStrattr]
    by_cases ha : a.id = id
    · rw [if_pos ha]
      cases hchange : changeString opr string number a.strings with
      | some strings =>
        refine Or.inl ?_
        rw [strPairs_cons, strPairs_cons, pairs_of_strings, pairs_of_strings]
        dsimp only
        rw [map_string_changeString hchange]
      | none =>
        have hfirst : (id, string) ∉ a.strings.map fun x => (a.id, x.string) := by
          intro hmem
          obtain ⟨x, hx, hpair⟩ := List.mem_map.mp hmem
          refine not_mem_of_changeString hchange ?_
          rw [← (Prod.mk.inj hpair).2]
          exact List.mem_map_of_mem hx
        have hrest : (id, string) ∉ strPairs strattrs := by
          intro hmem
          have hid := mem_strPairs_id hmem
          rw [← ha] at hid
          exact hnodup.1 hid
        refine Or.inr ⟨?_, ?_⟩
        · rw [strPairs_cons, List.mem_append, not_or]
          exact ⟨hfirst, hrest⟩
        · rw [strPairs_cons, strPairs_cons]
          dsimp only
          rw [List.map_append, List.append_assoc, ha]
          exact List.perm_middle
    · rw [if_neg ha]
      dsimp only
      rw [strPairs_cons, strPairs_cons]
      rcases ih hnodup.2 with hsame | ⟨hnew, hperm⟩
      · exact Or.inl (by rw [hsame])
      · refine Or.inr ⟨?_, ?_⟩
        · rw [List.mem_append, not_or]
          refine ⟨?_, hnew⟩
          intro hmem
          obtain ⟨x, -, hpair⟩ := List.mem_map.mp hmem
          exact ha (Prod.mk.inj hpair).1
        · exact (hperm.append_left _).trans List.perm_middle

end Entries

section Runs

variable {d d' : Data} {e : Event}

/-- What waits is within the limits, and so is what was sent. -/
structure Data.Bounded (d : Data) : Prop extends d.Tidy where
  waits : d.reports.WithinLimits
  within : ∀ r ∈ d.sent, r.reports.WithinLimits

theorem strPairs_short {strattrs : List (StrAttr ℕ∞)} (h : Short strattrs) :
    ∀ p ∈ strPairs strattrs, p.2.length ≤ 50 := by
  intro p hp
  obtain ⟨a, ha, hpa⟩ := List.mem_flatMap.mp hp
  obtain ⟨x, hx, rfl⟩ := List.mem_map.mp hpa
  exact h a ha x hx

theorem Data.Bounded.attr (h : d.Bounded) {opr : Opr} {id : ℕ∞} {number : Nat} {now : Clock}
    (hroom : d.RoomFor (.attr opr id number now)) : (d.record (.attr opr id number now)).Bounded := by
  have htidy := h.toTidy.record (e := .attr opr id number now)
  have hlimits := h.waits
  rw [Data.record] at htidy ⊢
  split_ifs at htidy ⊢ with hzero
  · exact h
  · refine ⟨htidy, ⟨?_, hlimits.pairs, hlimits.strings, hlimits.total⟩, h.within⟩
    have hlength : ((changeAttr opr id number d.attrs).getD (d.attrs ++ [⟨id, number⟩])).length ≤
        max_attrs_per_req := by
      cases hchange : changeAttr opr id number d.attrs with
      | some attrs =>
        have hids := congrArg List.length (map_id_changeAttr hchange)
        rw [List.length_map, List.length_map] at hids
        rw [Option.getD_some, hids]
        exact hlimits.attrs.1
      | none =>
        rw [Option.getD_none, List.length_append, List.length_singleton]
        exact hroom hzero (not_mem_of_changeAttr hchange)
    exact ⟨hlength, hlength⟩

theorem Data.Bounded.strattr (h : d.Bounded) {opr : Opr} {id : ℕ∞} {string : JsString}
    {number : Nat} {now : Clock} (hroom : d.RoomFor (.strattr opr id string number now)) :
    (d.record (.strattr opr id string number now)).Bounded := by
  have htidy := h.toTidy.record (e := .strattr opr id string number now)
  have hlimits := h.waits
  rw [Data.record] at htidy ⊢
  split_ifs at htidy ⊢ with hzero
  · exact h
  · have hshort := strPairs_short htidy.short
    rcases @changeStrattr_pairs opr id number string _
      h.strattrs with hsame | ⟨hnew, hperm⟩
    · have hpairs : (strPairs (changeStrattr opr id string number d.strattrs).1).Nodup := by
        rw [hsame]
        exact hlimits.pairs
      have htotal : pairsLen (strPairs (changeStrattr opr id string number d.strattrs).1) <
          max_strattrs_strlen + 50 := by
        rw [hsame]
        exact hlimits.total
      exact ⟨htidy, ⟨hlimits.attrs, hpairs, hshort, htotal⟩, h.within⟩
    · obtain ⟨hcut, hroom'⟩ := hroom hzero hnew
      have hpairs : (strPairs (changeStrattr opr id string number d.strattrs).1).Nodup :=
        hperm.nodup_iff.mpr (List.nodup_cons.mpr ⟨hcut, hlimits.pairs⟩)
      have htotal : pairsLen (strPairs (changeStrattr opr id string number d.strattrs).1) <
          max_strattrs_strlen + 50 := by
        rw [pairsLen_perm hperm, pairsLen_cons, Nat.add_comm]
        exact hroom'
      exact ⟨htidy, ⟨hlimits.attrs, hpairs, hshort, htotal⟩, h.within⟩

theorem Data.Bounded.record (h : d.Bounded) (hroom : d.RoomFor e) : (d.record e).Bounded := by
  cases e with
  | attr opr id number now => exact h.attr hroom
  | strattr opr id string number now => exact h.strattr hroom
  | log type msg time now =>
    have htidy := h.toTidy.record (e := .log type msg time now)
    rw [Data.record] at htidy ⊢
    split_ifs at htidy ⊢ with hzero
    · exact h
    · exact ⟨htidy, ⟨h.waits.attrs, h.waits.pairs, h.waits.strings, h.waits.total⟩, h.within⟩
  | loadPlugin plugin =>
    exact ⟨h.toTidy.record,
      ⟨h.waits.attrs, h.waits.pairs, h.waits.strings, h.waits.total⟩, h.within⟩
  | pluginLog i log =>
    exact ⟨h.toTidy.record,
      ⟨h.waits.attrs, h.waits.pairs, h.waits.strings, h.waits.total⟩, h.within⟩
  | reportToServer delay now => exact h
  | fire id check now => exact h
  | response parsed => exact h
  | configure report_url log_config_id master_user_id access_key =>
    exact ⟨h.toTidy.record,
      ⟨h.waits.attrs, h.waits.pairs, h.waits.strings, h.waits.total⟩, h.within⟩

theorem Data.Bounded.moves (h : d.Bounded) (hmoves : Moves d d') : d'.Bounded := by
  have htidy := h.toTidy.moves hmoves
  obtain rfl | ⟨req_seq, rfl⟩ := hmoves
  · exact h
  · refine ⟨htidy, ⟨⟨Nat.zero_le _, Nat.zero_le _⟩, List.nodup_nil, List.forall_mem_nil _,
      (Nat.succ_pos _ : 0 < max_strattrs_strlen + 50)⟩, ?_⟩
    exact List.forall_mem_append.mpr ⟨h.within, List.forall_mem_singleton.mpr h.waits⟩

theorem Xrk.init_bounded (hasJSON hasUrl : Bool) (report_url : JsString)
    (log_config_id master_user_id : ℕ∞) (access_key : JsString) :
    (Xrk.init hasJSON hasUrl report_url log_config_id master_user_id access_key).Bounded :=
  ⟨⟨List.nodup_nil, List.nodup_nil, List.forall_mem_nil _, List.forall_mem_nil _⟩,
    ⟨⟨Nat.zero_le _, Nat.zero_le _⟩, List.nodup_nil, List.forall_mem_nil _,
      (Nat.succ_pos _ : 0 < max_strattrs_strlen + 50)⟩, List.forall_mem_nil _⟩

/-- A string of sixty characters. -/
def longString : JsString := List.replicate 60 120

/-- An attribute and a long string, and the request that takes them. -/
def longReport : List Event :=
  [.attr .add 1 5 oneSecond, .strattr .add 1 longString 1 oneSecond, .reportToServer none oneSecond]

/-- The same long string twice. -/
def longTwice : List Event :=
  [.strattr .add 1 longString 1 oneSecond, .strattr .add 1 longString 1 oneSecond,
    .reportToServer none oneSecond]

end Runs

end XrkMonitor.Browser
