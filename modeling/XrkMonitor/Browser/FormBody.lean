import Mathlib.Data.List.TakeWhile
import Mathlib.Data.ZMod.Defs
import XrkMonitor.Browser.Api
import XrkMonitor.Library.FormText

/-!
# The report in the body of the request

`_to_server` puts the JSON text of the report behind `data=` as it is, under the
content type of a form. ClearSilver cuts the body at `&`, and `cgi_url_unescape`
reads `+` as a blank and `%` with two digits as a byte; `DealReport` parses what is
then the value of `Query.data`.

## Implementation notes

A string is sent in UTF-8, a surrogate without its partner as U+FFFD. The text of a
number is a parameter. A field of the form is its name and its value; the names that
ClearSilver makes for fields without one are left out, and so is the tree of the
names, in which only the last field named `data` gives `Query.data`. The parser of
the server is a parameter.
-/

namespace XrkMonitor.Browser

open Library

/-- The units of a text of the program. -/
def js (text : String) : JsString := text.toList.map fun c => UInt16.ofNat c.toNat

def isHighSurrogate (u : UInt16) : Bool := 0xD800 ≤ u.toNat && u.toNat < 0xDC00

def isLowSurrogate (u : UInt16) : Bool := 0xDC00 ≤ u.toNat && u.toNat < 0xE000

/-- A letter, a digit, a point or a sign. -/
def isNumberUnit (u : UInt16) : Bool :=
  (48 ≤ u.toNat && u.toNat ≤ 57) || (65 ≤ u.toNat && u.toNat ≤ 90) ||
    (97 ≤ u.toNat && u.toNat ≤ 122) || u.toNat = 43 || u.toNat = 45 || u.toNat = 46

/-- What a number is written as, such as `12`, `0.5`, `1e+21` or `null`. -/
abbrev NumberText := {s : JsString // ∀ u ∈ s, isNumberUnit u}

section Json

/-- A lower case hexadecimal digit. -/
def hexDigit (n : Nat) : UInt16 := UInt16.ofNat (if n % 16 < 10 then 48 + n % 16 else 87 + n % 16)

def unicodeEscape (u : UInt16) : JsString :=
  [92, 117, hexDigit (u.toNat / 4096), hexDigit (u.toNat / 256), hexDigit (u.toNat / 16),
    hexDigit u.toNat]

/-- A unit that is no half of a pair, in a JSON string. -/
def quoteUnit (u : UInt16) : JsString :=
  if u = 8 then [92, 98]
  else if u = 9 then [92, 116]
  else if u = 10 then [92, 110]
  else if u = 12 then [92, 102]
  else if u = 13 then [92, 114]
  else if u = 34 then [92, 34]
  else if u = 92 then [92, 92]
  else if u.toNat < 32 || isHighSurrogate u || isLowSurrogate u then unicodeEscape u
  else [u]

def quoteUnits : JsString → JsString
  | [] => []
  | [u] => quoteUnit u
  | u :: v :: rest =>
    if isHighSurrogate u && isLowSurrogate v then u :: v :: quoteUnits rest
    else quoteUnit u ++ quoteUnits (v :: rest)

def jsonString (s : JsString) : JsString := 34 :: (quoteUnits s ++ [34])

/-- The values with commas between them. -/
def jsonJoin : List JsString → JsString
  | [] => []
  | [x] => x
  | x :: y :: rest => x ++ 44 :: jsonJoin (y :: rest)

def jsonArray (values : List JsString) : JsString := 91 :: (jsonJoin values ++ [93])

def jsonMember (key : String) (value : JsString) : JsString := jsonString (js key) ++ 58 :: value

def jsonObject (members : List JsString) : JsString := 123 :: (jsonJoin members ++ [125])

def LogType.name : LogType → String
  | .error => "error"
  | .warn => "warn"
  | .reqerr => "reqerr"
  | .info => "info"
  | .debug => "debug"

variable {ν : Type} [DecidableEq ν] [Zero ν] (text : ν → NumberText)

def Log.toJson (l : Log ν) : JsString :=
  jsonObject [jsonMember "type" (jsonString (js l.type.name)), jsonMember "msg" (jsonString l.msg),
    jsonMember "time" (text l.time).1]

def Attr.toJson (a : Attr ν) : JsString :=
  jsonObject [jsonMember "id" (text a.id).1, jsonMember "number" (text a.number).1]

def StrInfo.toJson (x : StrInfo ν) : JsString :=
  jsonObject [jsonMember "string" (jsonString x.string), jsonMember "number" (text x.number).1]

def StrAttr.toJson (a : StrAttr ν) : JsString :=
  jsonObject [jsonMember "id" (text a.id).1,
    jsonMember "strings" (jsonArray (a.strings.map (StrInfo.toJson text)))]

/-- `JSON.stringify(reports)`. -/
def Reports.toJson (r : Reports ν) : JsString :=
  jsonObject
    ((if r.logs = [] then []
      else [jsonMember "log_config_id" (text r.log_config_id).1,
        jsonMember "logs" (jsonArray (r.logs.map (Log.toJson text)))]) ++
    (if r.attrs = [] then []
      else [jsonMember "attrs" (jsonArray (r.attrs.map (Attr.toJson text)))]) ++
    (if r.strattrs = [] then []
      else [jsonMember "strattrs" (jsonArray (r.strattrs.map (StrAttr.toJson text)))]) ++
    (if r.master_user_id = 0 then []
      else [jsonMember "master_user_id" (text r.master_user_id).1]) ++
    (if r.access_key = [] then [] else [jsonMember "access_key" (jsonString r.access_key)]))

end Json

section Sending

/-- The bytes of a character. -/
def utf8Of (c : Nat) : List UInt8 :=
  if c < 0x80 then [UInt8.ofNat c]
  else if c < 0x800 then [UInt8.ofNat (0xC0 + c / 64), UInt8.ofNat (0x80 + c % 64)]
  else if c < 0x10000 then
    [UInt8.ofNat (0xE0 + c / 4096), UInt8.ofNat (0x80 + c / 64 % 64), UInt8.ofNat (0x80 + c % 64)]
  else
    [UInt8.ofNat (0xF0 + c / 262144), UInt8.ofNat (0x80 + c / 4096 % 64),
      UInt8.ofNat (0x80 + c / 64 % 64), UInt8.ofNat (0x80 + c % 64)]

/-- The character of a unit that is no half of a pair. -/
def scalarOf (u : UInt16) : Nat := if isHighSurrogate u || isLowSurrogate u then 0xFFFD else u.toNat

/-- The character of a pair of surrogates. -/
def pairOf (u v : UInt16) : Nat := 0x10000 + (u.toNat - 0xD800) * 1024 + (v.toNat - 0xDC00)

/-- The bytes of a string that is sent. -/
def toUtf8 : JsString → List UInt8
  | [] => []
  | [u] => utf8Of (scalarOf u)
  | u :: v :: rest =>
    if isHighSurrogate u && isLowSurrogate v then utf8Of (pairOf u v) ++ toUtf8 rest
    else utf8Of (scalarOf u) ++ toUtf8 (v :: rest)

/-- `reports` in `_to_server`: the body of the request. -/
def formBody (reqSeq data : JsString) : JsString :=
  js "action=http_report_data&" ++ (js "req_seq=" ++ reqSeq) ++ (js "&data=" ++ data)

end Sending

section Receiving

/-- A C string ends at the first zero. -/
def cString (bytes : List UInt8) : List UInt8 := bytes.takeWhile fun b => b ≠ 0

def isxdigit (b : UInt8) : Bool := isHexDigit b.toNat

/-- The value of a digit in `cgi_url_unescape`. -/
def hexValue (b : UInt8) : UInt8 := if 65 ≤ b then ((b &&& 0xDF) - 65) + 10 else b - 48

/-- `cgi_url_unescape`. -/
def cgiUrlUnescape : List UInt8 → List UInt8
  | [] => []
  | [c] => [if c = 43 then 32 else c]
  | [c, a] => (if c = 43 then 32 else c) :: cgiUrlUnescape [a]
  | c :: a :: b :: rest =>
    if c = 43 then 32 :: cgiUrlUnescape (a :: b :: rest)
    else if c = 37 && isxdigit a && isxdigit b then
      (hexValue a * 16 + hexValue b) :: cgiUrlUnescape rest
    else c :: cgiUrlUnescape (a :: b :: rest)

/-- A token of the form: what is before the first `=`, and what is behind it. -/
def splitField (token : List UInt8) : List UInt8 × List UInt8 :=
  (token.takeWhile fun b => b ≠ 61, (token.dropWhile fun b => b ≠ 61).drop 1)

/-- The name of a field; one without a name gets a number. -/
def fieldName (k : List UInt8) : Option (List UInt8) :=
  match k with
  | [] => none
  | c :: rest => some (cString (cgiUrlUnescape ((if c = 46 then 95 else c) :: rest)))

/-- `_parse_query`: the fields in their order. -/
def parseQuery (ignore_empty_form_vars : Bool) (query : List UInt8) :
    List (Option (List UInt8) × List UInt8) :=
  (((cString query).splitOn 38).filter fun token => token ≠ []).filterMap fun token =>
    if ignore_empty_form_vars && (splitField token).2 = [] then none
    else some (fieldName (splitField token).1, cString (cgiUrlUnescape (splitField token).2))

/-- `Query.data`. -/
def queryData (ignore_empty_form_vars : Bool) (query : List UInt8) : Option (List UInt8) :=
  (((parseQuery ignore_empty_form_vars query).filter fun field =>
    field.1 = some [100, 97, 116, 97]).getLast?).map Prod.snd

/-- The report that `DealReport` works on. -/
def dealReport {ρ : Type} (parse : List UInt8 → Option ρ) (ignore_empty_form_vars : Bool)
    (query : List UInt8) : Option ρ :=
  (queryData ignore_empty_form_vars query).bind parse

end Receiving

/-- The codes of the characters of a string. -/
def codes (s : JsString) : List Nat := s.map UInt16.toNat

/-- The codes of bytes. -/
def byteCodes (bytes : List UInt8) : List Nat := bytes.map UInt8.toNat

section Unescape

theorem toNat_eq_iff {c d : UInt8} : c.toNat = d.toNat ↔ c = d := UInt8.toNat_inj

theorem length_cgiUrlUnescape_le (l : List UInt8) : (cgiUrlUnescape l).length ≤ l.length := by
  fun_induction cgiUrlUnescape l with
  | case1 => exact Nat.le_refl _
  | case2 c => exact Nat.le_refl _
  | case3 c a ih => exact Nat.succ_le_succ ih
  | case4 a b rest ih => exact Nat.succ_le_succ ih
  | case5 c a b rest _ _ ih => exact Nat.succ_le_succ (Nat.le_trans ih (Nat.le_add_right _ 2))
  | case6 c a b rest _ _ ih => exact Nat.succ_le_succ ih

/-- What stays the same is what has nothing to decode. -/
theorem cgiUrlUnescape_eq_self_iff (l : List UInt8) :
    cgiUrlUnescape l = l ↔ isEncoded (byteCodes l) = false := by
  have hplus : ∀ c : UInt8, decide (c.toNat = 43) = decide (c = 43) := fun c =>
    decide_eq_decide.mpr (toNat_eq_iff (d := 43))
  have hpercent : ∀ c : UInt8, decide (c.toNat = 37) = decide (c = 37) := fun c =>
    decide_eq_decide.mpr (toNat_eq_iff (d := 37))
  unfold byteCodes
  fun_induction cgiUrlUnescape l with
  | case1 => exact ⟨fun _ => rfl, fun _ => rfl⟩
  | case2 c =>
    simp only [List.map_cons, List.map_nil, isEncoded, startsHexPair, hplus]
    by_cases hc : c = 43
    · simp [hc]
    · simp [hc]
  | case3 c a ih =>
    rw [List.map_cons, isEncoded, hplus]
    by_cases hc : c = 43
    · simp [hc]
    · simp only [hc, if_false, List.cons.injEq, true_and, ih, List.map_cons, List.map_nil,
        startsHexPair, startsHex, Bool.and_false, Bool.or_false, decide_false, Bool.false_or]
  | case4 a b rest ih =>
    rw [List.map_cons, isEncoded]
    simp
  | case5 c a b rest _ hhex ih =>
    simp only [Bool.and_eq_true, decide_eq_true_eq] at hhex
    obtain ⟨⟨rfl, ha⟩, hb⟩ := hhex
    have hencoded : isEncoded ((37 :: a :: b :: rest).map UInt8.toNat) = true := by
      have ha : isHexDigit a.toNat = true := ha
      have hb : isHexDigit b.toNat = true := hb
      simp only [List.map_cons, isEncoded, startsHexPair, startsHex, ha, hb, Bool.and_true,
        Bool.or_eq_true]
      exact Or.inl (Or.inr rfl)
    rw [hencoded]
    constructor
    · intro heq
      have hlen := congrArg List.length heq
      have hle := length_cgiUrlUnescape_le rest
      simp only [List.length_cons] at hlen
      omega
    · intro h
      cases h
  | case6 c a b rest hc hhex ih =>
    have hpair : (decide (c.toNat = 37) && startsHexPair ((a :: b :: rest).map UInt8.toNat)) =
        false := by
      rw [hpercent]
      simp only [List.map_cons, startsHexPair, startsHex]
      rw [← Bool.and_assoc]
      exact Bool.eq_false_of_not_eq_true hhex
    rw [List.map_cons, isEncoded, hplus, hpair, decide_eq_false hc, Bool.false_or, Bool.false_or]
    exact (List.cons_inj_right c).trans ih

variable {l : List UInt8}

theorem cString_of_not_mem (h : 0 ∉ l) : cString l = l := by
  rw [cString, List.takeWhile_eq_self_iff]
  intro b hb
  exact decide_eq_true fun hzero => h (hzero ▸ hb)

theorem length_cString_le (l : List UInt8) : (cString l).length ≤ l.length :=
  (List.takeWhile_sublist _).length_le

theorem isEncoded_of_value (h : cString (cgiUrlUnescape l) = l) :
    isEncoded (byteCodes l) = false := by
  rw [← cgiUrlUnescape_eq_self_iff]
  have hbegin : cString (cgiUrlUnescape l) <+: cgiUrlUnescape l := List.takeWhile_prefix _
  rw [h] at hbegin
  exact (hbegin.eq_of_length_le (length_cgiUrlUnescape_le l)).symm

end Unescape

section Form

variable {ignore : Bool} {action reqSeq data : List UInt8} {name value : List UInt8}

theorem parseQuery_append_cons (xs ys : List UInt8) (hxs : 0 ∉ xs) :
    parseQuery ignore (xs ++ 38 :: ys) = parseQuery ignore xs ++ parseQuery ignore ys := by
  have hcut : cString (xs ++ 38 :: ys) = xs ++ 38 :: cString ys := by
    rw [cString, List.takeWhile_append_of_pos]
    · rfl
    · intro b hb
      exact decide_eq_true fun hzero => hxs (hzero ▸ hb)
  have hself : cString xs = xs := cString_of_not_mem hxs
  rw [parseQuery, parseQuery, parseQuery, hcut, hself, List.splitOn_append_cons_of_beq _ _ rfl,
    List.filter_append, List.filterMap_append]

theorem length_le_of_mem_splitOn {token query : List UInt8} (h : token ∈ query.splitOn 38) :
    token.length ≤ query.length := by
  induction query generalizing token with
  | nil =>
    rw [List.splitOn_nil, List.mem_singleton] at h
    rw [h]
  | cons c query ih =>
    rw [List.splitOn_cons_eq_if_modifyHead] at h
    split at h
    · rcases List.mem_cons.mp h with rfl | h
      · exact Nat.zero_le _
      · exact Nat.le_succ_of_le (ih h)
    · cases hsplit : query.splitOn 38 with
      | nil => exact absurd hsplit (List.splitOn_ne_nil _ _)
      | cons first rest =>
        rw [hsplit, List.modifyHead_cons] at h
        rcases List.mem_cons.mp h with rfl | h
        · exact Nat.succ_le_succ (ih (hsplit ▸ List.mem_cons_self))
        · exact Nat.le_succ_of_le (ih (hsplit ▸ List.mem_cons_of_mem _ h))

theorem length_value_le {query : List UInt8} {field : Option (List UInt8) × List UInt8}
    (h : field ∈ parseQuery ignore query) : field.2.length ≤ query.length := by
  rw [parseQuery, List.mem_filterMap] at h
  obtain ⟨token, htoken, hfield⟩ := h
  have hmem := (List.mem_filter.mp htoken).1
  split at hfield
  · cases hfield
  · obtain rfl := Option.some.inj hfield
    have hvalue : (splitField token).2.length ≤ token.length :=
      ((List.drop_sublist 1 _).trans (List.dropWhile_sublist _)).length_le
    calc (cString (cgiUrlUnescape (splitField token).2)).length
        ≤ (cgiUrlUnescape (splitField token).2).length := length_cString_le _
      _ ≤ (splitField token).2.length := length_cgiUrlUnescape_le _
      _ ≤ token.length := hvalue
      _ ≤ (cString query).length := length_le_of_mem_splitOn hmem
      _ ≤ query.length := length_cString_le query

theorem not_mem_field {b : UInt8} (hname : b ∉ name) (hb : b ≠ 61)
    (hvalue : b ∉ value) : b ∉ name ++ 61 :: value := by
  intro hmem
  rcases List.mem_append.mp hmem with hmem | hmem
  · exact hname hmem
  · rcases List.mem_cons.mp hmem with hmem | hmem
    · exact hb hmem
    · exact hvalue hmem

theorem parseQuery_field (hne : name ≠ []) (hname : 38 ∉ name)
    (hname0 : 0 ∉ name) (hequals : 61 ∉ name) (hvalue : 38 ∉ value) (hvalue0 : 0 ∉ value) :
    parseQuery ignore (name ++ 61 :: value) =
      if ignore && value = [] then [] else [(fieldName name, cString (cgiUrlUnescape value))] := by
  have hself : cString (name ++ 61 :: value) = name ++ 61 :: value :=
    cString_of_not_mem (not_mem_field hname0 (by decide) hvalue0)
  have hone : (name ++ 61 :: value).splitOn 38 = [name ++ 61 :: value] :=
    List.splitOn_eq_singleton (not_mem_field hname (by decide) hvalue)
  have hneither : ∀ b ∈ name, decide (b ≠ 61) = true := by
    intro b hb
    exact decide_eq_true fun h => hequals (h ▸ hb)
  have hfield : splitField (name ++ 61 :: value) = (name, value) := by
    rw [splitField, List.takeWhile_append_of_pos hneither, List.dropWhile_append_of_pos hneither]
    simp
  have hkept : [name ++ 61 :: value].filter (fun token => token ≠ []) = [name ++ 61 :: value] :=
    List.filter_cons_of_pos (decide_eq_true (List.append_ne_nil_of_left_ne_nil hne _))
  rw [parseQuery, hself, hone, hkept, List.filterMap_cons, List.filterMap_nil, hfield]
  by_cases hempty : (ignore && decide (value = [])) = true
  · rw [if_pos hempty, if_pos hempty]
  · rw [if_neg hempty, if_neg hempty]

end Form

/-- The bytes of `action=http_report_data`, of `req_seq` and of `data`. -/
def actionField : List UInt8 := toUtf8 (js "action=http_report_data")
def reqSeqName : List UInt8 := toUtf8 (js "req_seq")
def dataName : List UInt8 := toUtf8 (js "data")

/-- The body in bytes. -/
def bodyBytes (reqSeq data : List UInt8) : List UInt8 :=
  actionField ++ 38 :: (reqSeqName ++ 61 :: reqSeq ++ 38 :: (dataName ++ 61 :: data))

section Body

variable {ignore : Bool} {reqSeq data : List UInt8}

theorem queryData_bodyBytes (hseq : 38 ∉ reqSeq) (hseq0 : 0 ∉ reqSeq) :
    queryData ignore (bodyBytes reqSeq data) = queryData ignore (dataName ++ 61 :: data) := by
  have hfields : parseQuery ignore (bodyBytes reqSeq data) =
      parseQuery ignore actionField ++ (parseQuery ignore (reqSeqName ++ 61 :: reqSeq) ++
        parseQuery ignore (dataName ++ 61 :: data)) := by
    rw [bodyBytes, parseQuery_append_cons _ _ (by decide +kernel), parseQuery_append_cons]
    rw [List.mem_append, List.mem_cons, not_or, not_or]
    exact ⟨by decide +kernel, by decide, hseq0⟩
  have hreqSeq : (parseQuery ignore (reqSeqName ++ 61 :: reqSeq)).filter (fun field =>
      field.1 = some [100, 97, 116, 97]) = [] := by
    have hother : fieldName reqSeqName ≠ some [100, 97, 116, 97] := by decide +kernel
    rw [parseQuery_field (by decide +kernel) (by decide +kernel) (by decide +kernel)
      (by decide +kernel) hseq hseq0]
    split
    · rfl
    · rw [List.filter_cons_of_neg (by simp [hother]), List.filter_nil]
  have haction : (parseQuery ignore actionField).filter (fun field =>
      field.1 = some [100, 97, 116, 97]) = [] := by
    cases ignore <;> decide +kernel
  rw [queryData, hfields, List.filter_append, List.filter_append, haction, hreqSeq, List.nil_append,
    List.nil_append]
  rfl

theorem parseQuery_data (hdata : 38 ∉ data) (hdata0 : 0 ∉ data) :
    parseQuery ignore (dataName ++ 61 :: data) =
      if ignore && data = [] then []
      else [(some [100, 97, 116, 97], cString (cgiUrlUnescape data))] := by
  have hname : fieldName dataName = some [100, 97, 116, 97] := by decide +kernel
  rw [parseQuery_field (by decide +kernel) (by decide +kernel) (by decide +kernel)
    (by decide +kernel) hdata hdata0, hname]

theorem queryData_of_not_mem (hdata : 38 ∉ data) (hdata0 : 0 ∉ data) (hne : data ≠ []) :
    queryData ignore (dataName ++ 61 :: data) = some (cString (cgiUrlUnescape data)) := by
  rw [queryData, parseQuery_data hdata hdata0, if_neg (by simp [hne])]
  simp

theorem length_queryData_lt (hdata : 38 ∈ data) (hdata0 : 0 ∉ data) {value : List UInt8}
    (hvalue : queryData ignore (dataName ++ 61 :: data) = some value) :
    value.length < data.length := by
  obtain ⟨front, rest, rfl, hfront⟩ := List.eq_append_cons_of_mem hdata
  have hfront0 : 0 ∉ front := fun h => hdata0 (List.mem_append_left _ h)
  rw [queryData, Option.map_eq_some_iff] at hvalue
  obtain ⟨field, hlast, rfl⟩ := hvalue
  have hmem := (List.mem_filter.mp (List.mem_of_getLast? hlast)).1
  rw [← List.cons_append, ← List.append_assoc, parseQuery_append_cons _ _
    (not_mem_field (by decide +kernel) (by decide) hfront0), parseQuery_data hfront hfront0] at hmem
  rw [List.length_append, List.length_cons]
  rcases List.mem_append.mp hmem with hmem | hmem
  · split at hmem
    · cases hmem
    · obtain rfl := List.mem_singleton.mp hmem
      calc (cString (cgiUrlUnescape front)).length
          ≤ (cgiUrlUnescape front).length := length_cString_le _
        _ ≤ front.length := length_cgiUrlUnescape_le front
        _ < front.length + (rest.length + 1) := by omega
  · calc field.2.length
        ≤ rest.length := length_value_le hmem
      _ < front.length + (rest.length + 1) := by omega

theorem queryData_eq_iff (hseq : 38 ∉ reqSeq) (hseq0 : 0 ∉ reqSeq) (hdata0 : 0 ∉ data)
    (hne : data ≠ []) :
    queryData ignore (bodyBytes reqSeq data) = some data ↔ isReserved (byteCodes data) = false := by
  have hmem : 38 ∈ byteCodes data ↔ 38 ∈ data := by
    rw [byteCodes, List.mem_map]
    constructor
    · rintro ⟨b, hb, hcode⟩
      exact (toNat_eq_iff (d := 38)).mp hcode ▸ hb
    · intro h
      exact ⟨38, h, rfl⟩
  rw [queryData_bodyBytes hseq hseq0, isReserved, Bool.or_eq_false_iff, ← Bool.not_eq_true,
    List.contains_iff_mem, hmem]
  constructor
  · intro hvalue
    have hdata : 38 ∉ data := fun h =>
      absurd (length_queryData_lt h hdata0 hvalue) (Nat.lt_irrefl _)
    rw [queryData_of_not_mem hdata hdata0 hne] at hvalue
    exact ⟨hdata, isEncoded_of_value (Option.some.inj hvalue)⟩
  · rintro ⟨hdata, hencoded⟩
    rw [queryData_of_not_mem hdata hdata0 hne, (cgiUrlUnescape_eq_self_iff data).mpr hencoded,
      cString_of_not_mem hdata0]

end Body

section Utf8

variable {u : UInt16} {c : Nat}

theorem le_of_mem_utf8Of (hc : 128 ≤ c) (hlt : c < 0x110000) :
    ∀ b ∈ utf8Of c, 128 ≤ b.toNat := by
  unfold utf8Of
  rw [if_neg (Nat.not_lt.mpr hc)]
  split
  · simp only [List.mem_cons, List.not_mem_nil, or_false, forall_eq_or_imp, forall_eq,
      UInt8.toNat_ofNat']
    omega
  · split
    · simp only [List.mem_cons, List.not_mem_nil, or_false, forall_eq_or_imp, forall_eq,
        UInt8.toNat_ofNat']
      omega
    · simp only [List.mem_cons, List.not_mem_nil, or_false, forall_eq_or_imp, forall_eq,
        UInt8.toNat_ofNat']
      omega

theorem utf8Of_of_lt (hc : c < 128) : utf8Of c = [UInt8.ofNat c] := if_pos hc

theorem inert_of_le {piece : List Nat} (hne : piece ≠ []) (hle : ∀ c ∈ piece, 128 ≤ c) :
    Inert piece := by
  refine ⟨hne, ?_, ?_⟩
  · cases piece with
    | nil => rfl
    | cons c piece =>
      have hc := hle c List.mem_cons_self
      simp only [startsHex, isHexDigit, Bool.or_eq_false_iff, Bool.and_eq_false_iff,
        decide_eq_false_iff_not]
      omega
  · intro c hc
    have hle := hle c hc
    omega

theorem inert_utf8Of (hc : 128 ≤ c) (hlt : c < 0x110000) : Inert (byteCodes (utf8Of c)) := by
  apply inert_of_le
  · unfold utf8Of byteCodes
    rw [if_neg (Nat.not_lt.mpr hc)]
    split
    · exact List.cons_ne_nil _ _
    · split <;> exact List.cons_ne_nil _ _
  · intro code hcode
    obtain ⟨b, hb, rfl⟩ := List.mem_map.mp hcode
    exact le_of_mem_utf8Of hc hlt b hb

theorem scalarOf_lt (u : UInt16) : scalarOf u < 0x110000 := by
  unfold scalarOf
  split
  · decide
  · exact Nat.lt_trans u.toNat_lt (by decide)

theorem pairOf_bounds (u v : UInt16) (hu : isHighSurrogate u = true) (hv : isLowSurrogate v = true) :
    128 ≤ pairOf u v ∧ pairOf u v < 0x110000 := by
  simp only [isHighSurrogate, isLowSurrogate, Bool.and_eq_true, decide_eq_true_eq] at hu hv
  unfold pairOf
  omega

theorem scalarOf_of_lt (hu : u.toNat < 128) : scalarOf u = u.toNat := by
  unfold scalarOf
  rw [if_neg]
  simp only [isHighSurrogate, isLowSurrogate, Bool.or_eq_true, Bool.and_eq_true, decide_eq_true_eq]
  omega

theorem le_scalarOf (hu : 128 ≤ u.toNat) : 128 ≤ scalarOf u := by
  unfold scalarOf
  split
  · decide
  · exact hu

theorem rewrites_scalarOf (u : UInt16) {xs ys : List Nat} (h : Rewrites xs ys) :
    Rewrites (u.toNat :: xs) (byteCodes (utf8Of (scalarOf u)) ++ ys) := by
  by_cases hu : u.toNat < 128
  · rw [scalarOf_of_lt hu, utf8Of_of_lt hu]
    have hcode : (UInt8.ofNat u.toNat).toNat = u.toNat := by
      rw [UInt8.toNat_ofNat']
      omega
    change Rewrites _ ((UInt8.ofNat u.toNat).toNat :: ys)
    rw [hcode]
    exact h.keep u.toNat
  · have hle : 128 ≤ u.toNat := Nat.le_of_not_lt hu
    have hold : Inert [u.toNat] :=
      inert_of_le (List.cons_ne_nil _ _) (List.forall_mem_singleton.mpr hle)
    exact Rewrites.replace hold (inert_utf8Of (le_scalarOf hle) (scalarOf_lt u)) h

theorem byteCodes_append (xs ys : List UInt8) :
    byteCodes (xs ++ ys) = byteCodes xs ++ byteCodes ys := List.map_append

theorem rewrites_toUtf8 (s : JsString) : Rewrites (codes s) (byteCodes (toUtf8 s)) := by
  fun_induction toUtf8 s with
  | case1 => exact Rewrites.nil
  | case2 u =>
    have h := rewrites_scalarOf u Rewrites.nil
    rwa [List.append_nil] at h
  | case3 u v rest hpair ih =>
    rw [Bool.and_eq_true] at hpair
    obtain ⟨hu, hv⟩ := hpair
    obtain ⟨hle, hlt⟩ := pairOf_bounds u v hu hv
    rw [byteCodes_append]
    have hold : Inert [u.toNat, v.toNat] := by
      simp only [isHighSurrogate, isLowSurrogate, Bool.and_eq_true, decide_eq_true_eq] at hu hv
      apply inert_of_le (List.cons_ne_nil _ _)
      simp only [List.mem_cons, List.not_mem_nil, or_false, forall_eq_or_imp, forall_eq]
      omega
    exact Rewrites.replace hold (inert_utf8Of hle hlt) ih
  | case4 u v rest _ ih =>
    rw [byteCodes_append]
    exact rewrites_scalarOf u ih

theorem not_mem_toUtf8 {s : JsString} (hs : ∀ u ∈ s, u.toNat ≠ 0) : 0 ∉ toUtf8 s := by
  have hscalar : ∀ u : UInt16, u.toNat ≠ 0 → 0 ∉ utf8Of (scalarOf u) := by
    intro u hu hmem
    by_cases hlt : u.toNat < 128
    · rw [scalarOf_of_lt hlt, utf8Of_of_lt hlt, List.mem_singleton] at hmem
      have hcode := congrArg UInt8.toNat hmem
      rw [UInt8.toNat_ofNat'] at hcode
      have hzero : UInt8.toNat 0 = 0 := rfl
      omega
    · have hle := le_of_mem_utf8Of (le_scalarOf (Nat.le_of_not_lt hlt)) (scalarOf_lt u) 0 hmem
      exact absurd hle (by decide)
  fun_induction toUtf8 s with
  | case1 => exact List.not_mem_nil
  | case2 u => exact hscalar u (hs u List.mem_cons_self)
  | case3 u v rest hpair ih =>
    rw [Bool.and_eq_true] at hpair
    obtain ⟨hle, hlt⟩ := pairOf_bounds u v hpair.1 hpair.2
    rw [List.mem_append, not_or]
    refine ⟨?_, ih fun w hw => hs w (List.mem_cons_of_mem _ (List.mem_cons_of_mem _ hw))⟩
    intro hmem
    exact absurd (le_of_mem_utf8Of hle hlt 0 hmem) (by decide)
  | case4 u v rest _ ih =>
    rw [List.mem_append, not_or]
    exact ⟨hscalar u (hs u List.mem_cons_self), ih fun w hw => hs w (List.mem_cons_of_mem _ hw)⟩

theorem toUtf8_cons (hu : u.toNat < 128) (s : JsString) :
    toUtf8 (u :: s) = UInt8.ofNat u.toNat :: toUtf8 s := by
  have hone : utf8Of (scalarOf u) = [UInt8.ofNat u.toNat] := by
    rw [scalarOf_of_lt hu, utf8Of_of_lt hu]
  have hhigh : isHighSurrogate u = false := by
    rw [isHighSurrogate, Bool.and_eq_false_iff, decide_eq_false_iff_not]
    exact Or.inl (by omega)
  cases s with
  | nil => exact hone
  | cons v s =>
    rw [toUtf8, hhigh, Bool.false_and, if_neg Bool.false_ne_true, hone]
    rfl

theorem toUtf8_append {s : JsString} (hs : ∀ u ∈ s, u.toNat < 128) (t : JsString) :
    toUtf8 (s ++ t) = toUtf8 s ++ toUtf8 t := by
  induction s with
  | nil => rfl
  | cons u s ih =>
    obtain ⟨hu, hrest⟩ := List.forall_mem_cons.mp hs
    rw [List.cons_append, toUtf8_cons hu, toUtf8_cons hu, ih hrest, List.cons_append]

end Utf8

/-- A form leaves the string alone. -/
def PlainText (s : JsString) : Prop := isReserved (codes s) = false

instance (s : JsString) : Decidable (PlainText s) := inferInstanceAs (Decidable (_ = _))

section JsonText

theorem codes_append (s t : JsString) : codes (s ++ t) = codes s ++ codes t := List.map_append

theorem plainText_cons {u : UInt16} (hu : u.toNat ≠ 37 ∧ u.toNat ≠ 38 ∧ u.toNat ≠ 43) (s : JsString) :
    PlainText (u :: s) ↔ PlainText s := by
  unfold PlainText codes
  rw [List.map_cons, isReserved_cons hu]

theorem plainText_append_cons (s t : JsString) {u : UInt16} (hhex : isHexDigit u.toNat = false)
    (hu : u.toNat ≠ 37 ∧ u.toNat ≠ 38 ∧ u.toNat ≠ 43) :
    PlainText (s ++ u :: t) ↔ PlainText s ∧ PlainText t := by
  rw [← plainText_cons hu t]
  unfold PlainText
  rw [codes_append, @isReserved_append (codes s) (codes (u :: t)) hhex, Bool.or_eq_false_iff]

theorem hexDigit_code (n : Nat) : (hexDigit n).toNat ≠ 37 ∧ (hexDigit n).toNat ≠ 38 ∧
    (hexDigit n).toNat ≠ 43 := by
  unfold hexDigit
  rw [UInt16.toNat_ofNat']
  split <;> omega

theorem inert_unicodeEscape (u : UInt16) : Inert (codes (unicodeEscape u)) := by
  refine ⟨List.cons_ne_nil _ _, rfl, ?_⟩
  simp only [codes, unicodeEscape, List.map_cons, List.map_nil, List.mem_cons, List.not_mem_nil,
    or_false, forall_eq_or_imp, forall_eq]
  exact ⟨by decide, by decide, hexDigit_code _, hexDigit_code _, hexDigit_code _, hexDigit_code _⟩

/-- A unit that is no half of a pair, in a JSON string. -/
theorem rewrites_quoteUnit (u : UInt16) {xs ys : List Nat} (h : Rewrites xs ys) :
    Rewrites (u.toNat :: xs) (codes (quoteUnit u) ++ ys) := by
  have hshort : ∀ old new : UInt16, Inert [old.toNat] → Inert (codes [92, new]) → u = old →
      Rewrites (u.toNat :: xs) (codes [92, new] ++ ys) := by
    rintro old new hold hnew rfl
    exact Rewrites.replace hold hnew h
  have hone : ∀ c : Nat, isHexDigit c = false → c ≠ 37 ∧ c ≠ 38 ∧ c ≠ 43 → Inert [c] := by
    intro c hhex hc
    exact ⟨List.cons_ne_nil _ _, hhex, List.forall_mem_singleton.mpr hc⟩
  have htwo : ∀ d : UInt16, d.toNat ≠ 37 ∧ d.toNat ≠ 38 ∧ d.toNat ≠ 43 → Inert (codes [92, d]) := by
    intro d hd
    refine ⟨List.cons_ne_nil _ _, rfl, ?_⟩
    exact List.forall_mem_cons.mpr ⟨by decide, List.forall_mem_singleton.mpr hd⟩
  unfold quoteUnit
  split
  · rename_i hu
    exact hshort 8 98 (hone _ rfl (by decide)) (htwo _ (by decide)) hu
  split
  · rename_i hu
    exact hshort 9 116 (hone _ rfl (by decide)) (htwo _ (by decide)) hu
  split
  · rename_i hu
    exact hshort 10 110 (hone _ rfl (by decide)) (htwo _ (by decide)) hu
  split
  · rename_i hu
    exact hshort 12 102 (hone _ rfl (by decide)) (htwo _ (by decide)) hu
  split
  · rename_i hu
    exact hshort 13 114 (hone _ rfl (by decide)) (htwo _ (by decide)) hu
  split
  · rename_i hu
    exact hshort 34 34 (hone _ rfl (by decide)) (htwo _ (by decide)) hu
  split
  · rename_i hu
    exact hshort 92 92 (hone _ rfl (by decide)) (htwo _ (by decide)) hu
  split
  · rename_i hu
    simp only [isHighSurrogate, isLowSurrogate, Bool.or_eq_true, Bool.and_eq_true,
      decide_eq_true_eq] at hu
    have hhex : isHexDigit u.toNat = false := by
      simp only [isHexDigit, Bool.or_eq_false_iff, Bool.and_eq_false_iff, decide_eq_false_iff_not]
      omega
    exact Rewrites.replace (hone _ hhex (by omega)) (inert_unicodeEscape u) h
  · exact h.keep u.toNat

theorem rewrites_quoteUnits (s : JsString) : Rewrites (codes s) (codes (quoteUnits s)) := by
  fun_induction quoteUnits s with
  | case1 => exact Rewrites.nil
  | case2 u =>
    have h := rewrites_quoteUnit u Rewrites.nil
    rwa [List.append_nil] at h
  | case3 u v rest _ ih => exact (ih.keep v.toNat).keep u.toNat
  | case4 u v rest _ ih =>
    rw [codes_append]
    exact rewrites_quoteUnit u ih

@[simp] theorem plainText_jsonString (s : JsString) : PlainText (jsonString s) ↔ PlainText s := by
  rw [jsonString, plainText_cons (by decide), plainText_append_cons _ _ (by decide) (by decide)]
  unfold PlainText
  rw [(rewrites_quoteUnits s).isReserved_eq]
  exact and_iff_left rfl

theorem plainText_jsonJoin (values : List JsString) :
    PlainText (jsonJoin values) ↔ ∀ x ∈ values, PlainText x := by
  fun_induction jsonJoin values with
  | case1 => exact ⟨fun _ x hx => absurd hx List.not_mem_nil, fun _ => rfl⟩
  | case2 x => exact List.forall_mem_singleton.symm
  | case3 x y rest ih =>
    rw [plainText_append_cons _ _ (by decide) (by decide), List.forall_mem_cons, ih]

@[simp] theorem plainText_jsonArray (values : List JsString) :
    PlainText (jsonArray values) ↔ ∀ x ∈ values, PlainText x := by
  rw [jsonArray, plainText_cons (by decide), plainText_append_cons _ _ (by decide) (by decide),
    plainText_jsonJoin]
  exact and_iff_left rfl

@[simp] theorem plainText_jsonObject (members : List JsString) :
    PlainText (jsonObject members) ↔ ∀ x ∈ members, PlainText x := by
  rw [jsonObject, plainText_cons (by decide), plainText_append_cons _ _ (by decide) (by decide),
    plainText_jsonJoin]
  exact and_iff_left rfl

@[simp] theorem plainText_jsonMember (key : String) (value : JsString) :
    PlainText (jsonMember key value) ↔ PlainText (js key) ∧ PlainText value := by
  rw [jsonMember, plainText_append_cons _ _ (by decide) (by decide), plainText_jsonString]

theorem plainText_number (x : NumberText) : PlainText x.1 ↔ 43 ∉ x.1 := by
  obtain ⟨s, hs⟩ := x
  unfold PlainText
  induction s with
  | nil => exact ⟨fun _ => List.not_mem_nil, fun _ => rfl⟩
  | cons u s ih =>
    obtain ⟨hu, hrest⟩ := List.forall_mem_cons.mp hs
    simp only [isNumberUnit, Bool.or_eq_true, Bool.and_eq_true, decide_eq_true_eq] at hu
    have hplus : u.toNat = 43 ↔ u = 43 := UInt16.toNat_inj (b := 43)
    by_cases hcode : u.toNat = 43
    · have hreserved : isReserved (codes (u :: s)) = true := by
        simp [isReserved, codes, isEncoded, hcode]
      have hu : u = 43 := hplus.mp hcode
      exact iff_of_false (ne_false_of_eq_true hreserved) fun h => h (hu ▸ List.mem_cons_self)
    · have hne : u ≠ 43 := fun h => hcode (hplus.mpr h)
      have hstep : isReserved (codes (u :: s)) = isReserved (codes s) :=
        isReserved_cons ⟨by omega, by omega, hcode⟩
      change isReserved (codes (u :: s)) = false ↔ 43 ∉ u :: s
      rw [hstep, List.mem_cons, not_or, ih hrest]
      exact (and_iff_right (Ne.symm hne)).symm

end JsonText

section Report

variable {ν : Type} [DecidableEq ν] [Zero ν] (text : ν → NumberText)

/-- The numbers that the text of a report shows. -/
def Reports.numbers (r : Reports ν) : List ν :=
  (if r.logs = [] then [] else [r.log_config_id]) ++ r.logs.map Log.time ++
    r.attrs.flatMap (fun a => [a.id, a.number]) ++
    r.strattrs.flatMap (fun a => a.id :: a.strings.map StrInfo.number) ++
    (if r.master_user_id = 0 then [] else [r.master_user_id])

/-- No message, no string and no key has a `&`, a `+` or a `%` before two hexadecimal digits, and no
number is written with a `+`. -/
def Reports.FitsForm (r : Reports ν) : Prop :=
  (∀ l ∈ r.logs, PlainText l.msg) ∧ (∀ a ∈ r.strattrs, ∀ x ∈ a.strings, PlainText x.string) ∧
    PlainText r.access_key ∧ ∀ x ∈ r.numbers, 43 ∉ (text x).1

theorem LogType.plainText_name (type : LogType) : PlainText (js type.name) := by
  cases type <;> decide

theorem plainText_log (l : Log ν) :
    PlainText (l.toJson text) ↔ PlainText l.msg ∧ 43 ∉ (text l.time).1 := by
  have htype : PlainText (js "type") := by decide
  have hmsg : PlainText (js "msg") := by decide
  have htime : PlainText (js "time") := by decide
  simp [Log.toJson, plainText_number, l.type.plainText_name, htype, hmsg, htime]

theorem plainText_attr (a : Attr ν) :
    PlainText (a.toJson text) ↔ 43 ∉ (text a.id).1 ∧ 43 ∉ (text a.number).1 := by
  have hid : PlainText (js "id") := by decide
  have hnumber : PlainText (js "number") := by decide
  simp [Attr.toJson, plainText_number, hid, hnumber]

theorem plainText_strInfo (x : StrInfo ν) :
    PlainText (x.toJson text) ↔ PlainText x.string ∧ 43 ∉ (text x.number).1 := by
  have hstring : PlainText (js "string") := by decide
  have hnumber : PlainText (js "number") := by decide
  simp [StrInfo.toJson, plainText_number, hstring, hnumber]

theorem plainText_strAttr (a : StrAttr ν) :
    PlainText (a.toJson text) ↔ 43 ∉ (text a.id).1 ∧
      ∀ x ∈ a.strings, PlainText x.string ∧ 43 ∉ (text x.number).1 := by
  have hid : PlainText (js "id") := by decide
  have hstrings : PlainText (js "strings") := by decide
  simp [StrAttr.toJson, plainText_number, plainText_strInfo, hid, hstrings]

theorem plainText_logs (r : Reports ν) :
    (∀ x ∈ (if r.logs = [] then []
        else [jsonMember "log_config_id" (text r.log_config_id).1,
          jsonMember "logs" (jsonArray (r.logs.map (Log.toJson text)))]), PlainText x) ↔
      (∀ l ∈ r.logs, PlainText l.msg) ∧
        (∀ x ∈ (if r.logs = [] then [] else [r.log_config_id]), 43 ∉ (text x).1) ∧
        ∀ x ∈ r.logs.map Log.time, 43 ∉ (text x).1 := by
  have hconfig : PlainText (js "log_config_id") := by decide
  have hlogs : PlainText (js "logs") := by decide
  by_cases hnil : r.logs = []
  · simp [hnil]
  · simp only [hnil, if_false, List.forall_mem_cons, plainText_jsonMember, hconfig, true_and,
      plainText_number, hlogs, plainText_jsonArray, List.forall_mem_map, plainText_log,
      List.not_mem_nil, false_implies, implies_true, and_true, forall_and]
    exact and_left_comm

theorem plainText_strattrs (r : Reports ν) :
    (∀ x ∈ (if r.strattrs = [] then []
        else [jsonMember "strattrs" (jsonArray (r.strattrs.map (StrAttr.toJson text)))]),
        PlainText x) ↔
      (∀ a ∈ r.strattrs, ∀ x ∈ a.strings, PlainText x.string) ∧
        ∀ x ∈ r.strattrs.flatMap (fun a => a.id :: a.strings.map StrInfo.number),
          43 ∉ (text x).1 := by
  have hstrattrs : PlainText (js "strattrs") := by decide
  by_cases hnil : r.strattrs = []
  · simp [hnil]
  · simp only [hnil, if_false, List.forall_mem_cons, plainText_jsonMember, hstrattrs, true_and,
      plainText_jsonArray, List.forall_mem_map, plainText_strAttr, List.not_mem_nil, false_implies,
      implies_true, and_true, forall_and, List.forall_mem_flatMap]
    exact and_left_comm

theorem plainText_reports (r : Reports ν) : PlainText (r.toJson text) ↔ r.FitsForm text := by
  have hattrs : (∀ x ∈ (if r.attrs = [] then []
      else [jsonMember "attrs" (jsonArray (r.attrs.map (Attr.toJson text)))]), PlainText x) ↔
      ∀ x ∈ r.attrs.flatMap (fun a => [a.id, a.number]), 43 ∉ (text x).1 := by
    have hkey : PlainText (js "attrs") := by decide
    by_cases hnil : r.attrs = []
    · simp [hnil]
    · simp only [hnil, if_false, List.forall_mem_singleton, plainText_jsonMember, hkey, true_and,
        plainText_jsonArray, List.forall_mem_map, plainText_attr, List.forall_mem_flatMap,
        List.forall_mem_cons, List.not_mem_nil, false_implies, implies_true, and_true]
  have huser : (∀ x ∈ (if r.master_user_id = 0 then []
      else [jsonMember "master_user_id" (text r.master_user_id).1]), PlainText x) ↔
      ∀ x ∈ (if r.master_user_id = 0 then [] else [r.master_user_id]), 43 ∉ (text x).1 := by
    have hkey : PlainText (js "master_user_id") := by decide
    by_cases hzero : r.master_user_id = 0
    · simp [hzero]
    · simp [hzero, hkey, plainText_number]
  have haccess : (∀ x ∈ (if r.access_key = [] then []
      else [jsonMember "access_key" (jsonString r.access_key)]), PlainText x) ↔
      PlainText r.access_key := by
    have hkey : PlainText (js "access_key") := by decide
    by_cases hnil : r.access_key = []
    · have hempty : PlainText [] := rfl
      simp [hnil, hempty]
    · simp [hnil, hkey]
  rw [Reports.toJson, plainText_jsonObject, Reports.FitsForm, Reports.numbers]
  simp only [List.forall_mem_append, plainText_logs, plainText_strattrs, hattrs, huser, haccess]
  constructor
  · rintro ⟨⟨⟨⟨⟨hmsg, hconfig, htime⟩, hattr⟩, hstring, hnumber⟩, hid⟩, hkey⟩
    exact ⟨hmsg, hstring, hkey, ⟨⟨⟨hconfig, htime⟩, hattr⟩, hnumber⟩, hid⟩
  · rintro ⟨hmsg, hstring, hkey, ⟨⟨⟨hconfig, htime⟩, hattr⟩, hnumber⟩, hid⟩
    exact ⟨⟨⟨⟨⟨hmsg, hconfig, htime⟩, hattr⟩, hstring, hnumber⟩, hid⟩, hkey⟩

end Report

/-- No unit of the text is a zero. -/
def NoZero (s : JsString) : Prop := ∀ u ∈ s, u.toNat ≠ 0

section NoZero

theorem noZero_cons {u : UInt16} (hu : u.toNat ≠ 0) {s : JsString} (hs : NoZero s) :
    NoZero (u :: s) := List.forall_mem_cons.mpr ⟨hu, hs⟩

theorem noZero_append {s t : JsString} (hs : NoZero s) (ht : NoZero t) : NoZero (s ++ t) :=
  List.forall_mem_append.mpr ⟨hs, ht⟩

theorem noZero_nil : NoZero [] := List.forall_mem_nil _

theorem noZero_hexDigit (n : Nat) : (hexDigit n).toNat ≠ 0 := by
  unfold hexDigit
  rw [UInt16.toNat_ofNat']
  split <;> omega

theorem noZero_quoteUnit (u : UInt16) : NoZero (quoteUnit u) := by
  have hshort : ∀ v : UInt16, v.toNat ≠ 0 → NoZero [92, v] := fun v hv =>
    noZero_cons (by decide) (noZero_cons hv noZero_nil)
  unfold quoteUnit
  split
  · exact hshort _ (by decide)
  split
  · exact hshort _ (by decide)
  split
  · exact hshort _ (by decide)
  split
  · exact hshort _ (by decide)
  split
  · exact hshort _ (by decide)
  split
  · exact hshort _ (by decide)
  split
  · exact hshort _ (by decide)
  split
  · refine noZero_cons (by decide) (noZero_cons (by decide) ?_)
    exact noZero_cons (noZero_hexDigit _) (noZero_cons (noZero_hexDigit _)
      (noZero_cons (noZero_hexDigit _) (noZero_cons (noZero_hexDigit _) noZero_nil)))
  · rename_i hu
    simp only [Bool.or_eq_true, decide_eq_true_eq, not_or] at hu
    exact noZero_cons (by omega) noZero_nil

theorem noZero_quoteUnits (s : JsString) : NoZero (quoteUnits s) := by
  fun_induction quoteUnits s with
  | case1 => exact noZero_nil
  | case2 u => exact noZero_quoteUnit u
  | case3 u v rest hpair ih =>
    simp only [isHighSurrogate, isLowSurrogate, Bool.and_eq_true, decide_eq_true_eq] at hpair
    exact noZero_cons (by omega) (noZero_cons (by omega) ih)
  | case4 u v rest _ ih => exact noZero_append (noZero_quoteUnit u) ih

theorem noZero_jsonString (s : JsString) : NoZero (jsonString s) :=
  noZero_cons (by decide) (noZero_append (noZero_quoteUnits s) (noZero_cons (by decide) noZero_nil))

variable {members : List JsString} {values : List JsString}

theorem noZero_jsonJoin (h : ∀ x ∈ values, NoZero x) :
    NoZero (jsonJoin values) := by
  fun_induction jsonJoin values with
  | case1 => exact noZero_nil
  | case2 x => exact h x List.mem_cons_self
  | case3 x y rest ih =>
    obtain ⟨hx, hrest⟩ := List.forall_mem_cons.mp h
    exact noZero_append hx (noZero_cons (by decide) (ih hrest))

theorem noZero_jsonArray (h : ∀ x ∈ values, NoZero x) :
    NoZero (jsonArray values) :=
  noZero_cons (by decide) (noZero_append (noZero_jsonJoin h) (noZero_cons (by decide) noZero_nil))

theorem noZero_jsonObject (h : ∀ x ∈ members, NoZero x) :
    NoZero (jsonObject members) :=
  noZero_cons (by decide) (noZero_append (noZero_jsonJoin h) (noZero_cons (by decide) noZero_nil))

theorem noZero_jsonMember (key : String) {value : JsString} (h : NoZero value) :
    NoZero (jsonMember key value) :=
  noZero_append (noZero_jsonString _) (noZero_cons (by decide) h)

theorem noZero_number (x : NumberText) : NoZero x.1 := by
  intro u hu hzero
  have hunit := x.2 u hu
  simp [isNumberUnit, hzero] at hunit

variable {ν : Type} [DecidableEq ν] [Zero ν] (text : ν → NumberText)

theorem noZero_members (c : Prop) [Decidable c]
    (h : ∀ x ∈ members, NoZero x) : ∀ x ∈ (if c then [] else members), NoZero x := by
  split
  · exact List.forall_mem_nil _
  · exact h

theorem noZero_reports (r : Reports ν) : NoZero (r.toJson text) := by
  have hnumber : ∀ key x, NoZero (jsonMember key (text x).1) := fun key x =>
    noZero_jsonMember key (noZero_number _)
  have hstring : ∀ key s, NoZero (jsonMember key (jsonString s)) := fun key s =>
    noZero_jsonMember key (noZero_jsonString s)
  have hlog : ∀ l : Log ν, NoZero (l.toJson text) := by
    intro l
    apply noZero_jsonObject
    simp only [List.forall_mem_cons]
    exact ⟨hstring _ _, hstring _ _, hnumber _ _, List.forall_mem_nil _⟩
  have hattr : ∀ a : Attr ν, NoZero (a.toJson text) := by
    intro a
    apply noZero_jsonObject
    simp only [List.forall_mem_cons]
    exact ⟨hnumber _ _, hnumber _ _, List.forall_mem_nil _⟩
  have hstrInfo : ∀ x : StrInfo ν, NoZero (x.toJson text) := by
    intro x
    apply noZero_jsonObject
    simp only [List.forall_mem_cons]
    exact ⟨hstring _ _, hnumber _ _, List.forall_mem_nil _⟩
  have hstrAttr : ∀ a : StrAttr ν, NoZero (a.toJson text) := by
    intro a
    apply noZero_jsonObject
    simp only [List.forall_mem_cons]
    exact ⟨hnumber _ _, noZero_jsonMember _ (noZero_jsonArray (List.forall_mem_map.mpr
      fun x _ => hstrInfo x)), List.forall_mem_nil _⟩
  apply noZero_jsonObject
  simp only [List.forall_mem_append]
  refine ⟨⟨⟨⟨noZero_members _ ?_, noZero_members _ ?_⟩, noZero_members _ ?_⟩, noZero_members _ ?_⟩,
    noZero_members _ ?_⟩
  · simp only [List.forall_mem_cons]
    exact ⟨hnumber _ _, noZero_jsonMember _ (noZero_jsonArray (List.forall_mem_map.mpr
      fun l _ => hlog l)), List.forall_mem_nil _⟩
  · exact List.forall_mem_singleton.mpr (noZero_jsonMember _ (noZero_jsonArray
      (List.forall_mem_map.mpr fun a _ => hattr a)))
  · exact List.forall_mem_singleton.mpr (noZero_jsonMember _ (noZero_jsonArray
      (List.forall_mem_map.mpr fun a _ => hstrAttr a)))
  · exact List.forall_mem_singleton.mpr (hnumber _ _)
  · exact List.forall_mem_singleton.mpr (hstring _ _)

end NoZero

section Transport

theorem number_lt (x : NumberText) : ∀ u ∈ x.1, u.toNat < 128 := by
  intro u hu
  have hunit := x.2 u hu
  simp only [isNumberUnit, Bool.or_eq_true, Bool.and_eq_true, decide_eq_true_eq] at hunit
  omega

theorem ascii_of_all {s : JsString} (h : (s.all fun u => u.toNat < 128) = true) :
    ∀ u ∈ s, u.toNat < 128 := by
  intro u hu
  exact of_decide_eq_true (List.all_eq_true.mp h u hu)

theorem toUtf8_formBody (reqSeq : NumberText) (data : JsString) :
    toUtf8 (formBody reqSeq.1 data) = bodyBytes (toUtf8 reqSeq.1) (toUtf8 data) := by
  have haction : toUtf8 (js "action=http_report_data&") = actionField ++ [38] := by decide +kernel
  have hreqSeq : toUtf8 (js "req_seq=") = reqSeqName ++ [61] := by decide +kernel
  have hdata : toUtf8 (js "&data=") = 38 :: (dataName ++ [61]) := by decide +kernel
  have haction7 := ascii_of_all (s := js "action=http_report_data&") (by decide)
  have hreqSeq7 := ascii_of_all (s := js "req_seq=") (by decide)
  have hdata7 := ascii_of_all (s := js "&data=") (by decide)
  rw [formBody, List.append_assoc, toUtf8_append haction7, toUtf8_append (s := _ ++ reqSeq.1),
    toUtf8_append hreqSeq7, toUtf8_append hdata7, haction, hreqSeq, hdata, bodyBytes]
  · simp
  · exact List.forall_mem_append.mpr ⟨hreqSeq7, number_lt reqSeq⟩

theorem not_mem_number (x : NumberText) : 38 ∉ toUtf8 x.1 := by
  obtain ⟨s, hs⟩ := x
  induction s with
  | nil => exact List.not_mem_nil
  | cons u s ih =>
    obtain ⟨hu, hrest⟩ := List.forall_mem_cons.mp hs
    simp only [isNumberUnit, Bool.or_eq_true, Bool.and_eq_true, decide_eq_true_eq] at hu
    change 38 ∉ toUtf8 (u :: s)
    rw [toUtf8_cons (by omega), List.mem_cons, not_or]
    refine ⟨?_, ih hrest⟩
    intro hcode
    have hcode := congrArg UInt8.toNat hcode
    rw [UInt8.toNat_ofNat'] at hcode
    have h38 : UInt8.toNat 38 = 38 := rfl
    omega

variable {ν : Type} [DecidableEq ν] [Zero ν]

/-- For every report and every way to write its numbers: the server reads the text of the report from
the body, and so works on the report itself, exactly when no string of it has a character that a
form decodes. -/
theorem report_transport_iff (text : ν → NumberText) (reqSeq : NumberText) (ignore : Bool)
    (r : Reports ν) :
    (queryData ignore (toUtf8 (formBody reqSeq.1 (r.toJson text))) = some (toUtf8 (r.toJson text)) ∧
        ∀ parse : List UInt8 → Option (Reports ν), parse (toUtf8 (r.toJson text)) = some r →
          dealReport parse ignore (toUtf8 (formBody reqSeq.1 (r.toJson text))) = some r) ↔
      r.FitsForm text := by
  have hne : toUtf8 (r.toJson text) ≠ [] := by
    rw [Reports.toJson, jsonObject, toUtf8_cons (by decide)]
    exact List.cons_ne_nil _ _
  have hiff := @queryData_eq_iff ignore _ _ (not_mem_number reqSeq)
    (not_mem_toUtf8 (noZero_number reqSeq)) (not_mem_toUtf8 (noZero_reports text r)) hne
  rw [← toUtf8_formBody, (rewrites_toUtf8 (r.toJson text)).isReserved_eq] at hiff
  have hfits := (plainText_reports text r).symm
  rw [hfits, PlainText, ← hiff]
  refine and_iff_left_of_imp ?_
  intro hdata parse hparse
  rw [dealReport, hdata]
  exact hparse

end Transport

theorem isNumberUnit_digit : ∀ n : Fin 10, isNumberUnit (UInt16.ofNat (48 + n.val)) = true := by
  decide

/-- Digits. -/
def digitText (n : Fin 10) : NumberText :=
  ⟨[UInt16.ofNat (48 + n.val)], List.forall_mem_singleton.mpr (isNumberUnit_digit n)⟩

/-- One log with the text `a=1&b=2`. -/
def queryLog : Reports (Fin 10) where
  log_config_id := 7
  logs := [⟨.error, js "a=1&b=2", 5⟩]
  attrs := []
  strattrs := []
  master_user_id := 0
  access_key := []

/-- The server reads the text up to the `&`. -/
theorem queryLog_cut :
    queryData false (toUtf8 (formBody (digitText ⟨2, Nat.le_of_ble_eq_true rfl⟩).1 (queryLog.toJson digitText))) =
        some (toUtf8 (js "\x7b\"log_config_id\":7,\"logs\":[\x7b\"type\":\"error\",\"msg\":\"a=1")) ∧
      queryData false (toUtf8 (formBody (digitText ⟨2, Nat.le_of_ble_eq_true rfl⟩).1 (queryLog.toJson digitText))) ≠
        some (toUtf8 (queryLog.toJson digitText)) := by
  decide +kernel

end XrkMonitor.Browser
