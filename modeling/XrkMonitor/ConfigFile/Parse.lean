import Mathlib.Data.List.DropRight
import Mathlib.Data.List.TakeWhile
import XrkMonitor.Library.TextLines

/-!
# Configuration files

A configuration file has a name and a value in each line, or a comment. The agent
updates values in a file: it parses the lines into items, changes or appends the
items of the update, and writes all items back. `LoadConfig` reads the file with a
loop of its own and takes the first word after a name as its value.

## Implementation notes

Texts have no `NUL` characters. `before` is the character in front of an empty
string, which `*rbegin()` reads when an item has no value. What `LoadConfig` does
with the word of a name (its conversion to a number, its size) is the caller's
choice and left out.
-/

namespace XrkMonitor.ConfigFile

open Library

/-- `MAX_CONFIG_LINE_LEN` of the agent and of the loader; the buffers have one more. -/
def MAX_CONFIG_LINE_LEN_AGENT : Nat := 5119
def MAX_CONFIG_LINE_LEN : Nat := 1023

section Words

/-- The blanks of `get_val`. -/
def isBlank (c : Char) : Bool :=
  c == ' ' || c == '\t' || c == '\n' || c == '\r' || c == '\x0b'

/-- The loop of `get_val`: the characters copied, and where the source is left. `start` says that
the source is at its first character. -/
def getValLoop (mtime : Nat) (space start : Bool) : List Char → List Char × List Char
  | [] => ([], [])
  | c :: s =>
    if isBlank c then getValLoop mtime true false s
    else
      let mtime := if space || start then mtime + 1 else mtime
      if mtime = 2 then ([], c :: s)
      else (c :: (getValLoop mtime false false s).1, (getValLoop mtime false false s).2)

/-- `get_val`. -/
def get_val (src : List Char) : List Char × List Char := getValLoop 0 false true src

/-- `GetParamVal`: the name and the value, or the line buffer if it is a comment. -/
def getParamVal (sLine : List Char) : Except (List Char) (List Char × List Char) :=
  if sLine.head? = some '#' then .error sLine
  else if (get_val sLine).1.head? = some '#' then .error (get_val sLine).2
  else .ok (get_val sLine)

end Words

section Update

/-- An item: a name with its value, or a comment. -/
structure TConfigItem where
  strConfigName : List Char
  strConfigValue : List Char
  strComment : List Char
deriving DecidableEq

/-- The item of a line. -/
def configItem (sLine : List Char) : TConfigItem :=
  match getParamVal sLine with
  | .ok x => ⟨x.1, x.2, []⟩
  | .error sLine => ⟨[], [], sLine⟩

/-- `GetConfigItemList`. -/
def getConfigItemList (text : List Char) : List TConfigItem :=
  (readLines MAX_CONFIG_LINE_LEN_AGENT text).map configItem

/-- The first item of a name takes the value; without one an item is appended. -/
def setItem (name value : List Char) : List TConfigItem → List TConfigItem
  | [] => [⟨name, value, []⟩]
  | i :: is =>
    if name = i.strConfigName then { i with strConfigValue := value } :: is
    else i :: setItem name value is

/-- An item in the file. -/
def writeItem (before : Char) (i : TConfigItem) : List Char :=
  if 0 < i.strComment.length then i.strComment
  else if i.strConfigValue.getLast?.getD before = '\n' then
    i.strConfigName ++ ' ' :: i.strConfigValue
  else i.strConfigName ++ ' ' :: (i.strConfigValue ++ ['\n'])

/-- The items after the update. -/
def updateItems (list : List (List Char × List Char)) (items : List TConfigItem) : List TConfigItem :=
  list.foldl (fun items x => setItem x.1 x.2 items) items

/-- `UpdateConfigFile`: the new text of the file. -/
def updateConfigFile (before : Char) (text : List Char) (list : List (List Char × List Char)) :
    List Char :=
  (updateItems list (getConfigItemList text)).flatMap (writeItem before)

end Update

section Load

/-- One line of `LoadConfig` with `SetVal`, for the name `n`. -/
def loadLine (n : List Char) (cur : Option (List Char)) (sLine : List Char) : Option (List Char) :=
  match getParamVal sLine with
  | .ok x => if x.1 = n then some (get_val x.2).1 else cur
  | .error _ => cur

/-- `LoadConfig`: the word that the name `n` gets; `none` leaves the default. -/
def loadConfig (text : List Char) (n : List Char) : Option (List Char) :=
  (readLines MAX_CONFIG_LINE_LEN text).foldl (loadLine n) none

end Load

section Spec

/-- The first word of a line. -/
def firstWord (s : List Char) : List Char := (s.dropWhile isBlank).takeWhile fun c => !isBlank c

/-- The line from its second word on. -/
def afterWord (s : List Char) : List Char :=
  ((s.dropWhile isBlank).dropWhile fun c => !isBlank c).dropWhile isBlank

/-- The value of a line: its second word. -/
def lineValue (s : List Char) : List Char := firstWord (afterWord s)

/-- A line whose first word starts with `#`. -/
def isCommentLine (s : List Char) : Bool := (firstWord s).head? == some '#'

/-- The lines of a name. -/
def namedLines (n : List Char) (ls : List (List Char)) : List (List Char) :=
  ls.filter fun l => !isCommentLine l && firstWord l == n

/-- The value of a name: that of its last line. -/
def valueIn (ls : List (List Char)) (n : List Char) : Option (List Char) :=
  (namedLines n ls).getLast?.map lineValue

/-- The new value of a name: the last one of the list. -/
def newValue (list : List (List Char × List Char)) (n : List Char) : Option (List Char) :=
  (list.filter fun x => x.1 == n).getLast?.map Prod.snd

/-- What an update is for: the names of the list have their new values, the other names their old
ones, and the comments are still there. -/
structure UpdateLoads (text : List Char) (list : List (List Char × List Char)) (text' : List Char) :
    Prop where
  new : ∀ n v, newValue list n = some v → loadConfig text' n = some v
  old : ∀ n v, n ≠ [] → newValue list n = none → valueIn (allLines text) n = some v →
    loadConfig text' n = some v
  comments : ((allLines text).filter isCommentLine).Sublist (allLines text')

/-- When an update does so. -/
structure UpdateOk (text : List Char) (list : List (List Char × List Char)) : Prop where
  name : ∀ n v, newValue list n = some v → n.head? ≠ some '#'
  value : ∀ n v, newValue list n = some v → ∀ c ∈ v, isBlank c = false
  fits : ∀ n v, newValue list n = some v → n.length + 1 + v.length ≤ MAX_CONFIG_LINE_LEN
  once : ∀ n v, newValue list n = some v →
    ∀ l ∈ (namedLines n (splitLines text).1).tail.getLast?, lineValue l = v
  comments : ∀ l ∈ (splitLines text).1, isCommentLine l = true → l.head? = some '#'
  lastComment : isCommentLine (splitLines text).2 = false
  lastLine : firstWord (splitLines text).2 ≠ [] →
    newValue list (firstWord (splitLines text).2) = none →
      valueIn (splitLines text).1 (firstWord (splitLines text).2) =
        some (lineValue (splitLines text).2)

end Spec

section WordLemmas

variable {s l : List Char} {c : Char} {w : List Char}

theorem getValLoop_after (s : List Char) : getValLoop 1 true false s = ([], s.dropWhile isBlank) := by
  induction s with
  | nil => rfl
  | cons c s ih =>
    rw [getValLoop]
    by_cases hc : isBlank c = true
    · rw [if_pos hc, ih, List.dropWhile_cons_of_pos hc]
    · rw [if_neg hc, List.dropWhile_cons_of_neg hc]
      rfl

theorem getValLoop_word (s : List Char) :
    getValLoop 1 false false s =
      (s.takeWhile fun c => !isBlank c, (s.dropWhile fun c => !isBlank c).dropWhile isBlank) := by
  induction s with
  | nil => rfl
  | cons c s ih =>
    rw [getValLoop]
    by_cases hc : isBlank c = true
    · rw [if_pos hc, getValLoop_after, List.takeWhile_cons_of_neg (by simp [hc]),
        List.dropWhile_cons_of_neg (by simp [hc]), List.dropWhile_cons_of_pos hc]
    · rw [if_neg hc, List.takeWhile_cons_of_pos (by simp [hc]),
        List.dropWhile_cons_of_pos (by simp [hc])]
      simp [ih]

theorem getValLoop_start (s : List Char) (space start : Bool) (h : (space || start) = true) :
    getValLoop 0 space start s = (firstWord s, afterWord s) := by
  induction s generalizing space start with
  | nil => rfl
  | cons c s ih =>
    rw [getValLoop, firstWord, afterWord]
    by_cases hc : isBlank c = true
    · rw [if_pos hc, ih true false rfl, List.dropWhile_cons_of_pos hc]
      rfl
    · rw [if_neg hc, List.dropWhile_cons_of_neg hc, List.takeWhile_cons_of_pos (by simp [hc]),
        List.dropWhile_cons_of_pos (by simp [hc])]
      simp [h, getValLoop_word]

theorem get_val_eq (s : List Char) : get_val s = (firstWord s, afterWord s) :=
  getValLoop_start s false true rfl

theorem isBlank_of_mem_firstWord (h : c ∈ firstWord s) : isBlank c = false := by
  simpa using List.mem_takeWhile_imp h

theorem firstWord_append (hw : ∀ c ∈ w, isBlank c = false) (hne : w ≠ [])
    (s : List Char) : firstWord (w ++ s) = w ++ s.takeWhile fun c => !isBlank c := by
  obtain ⟨a, w, rfl⟩ := List.exists_cons_of_ne_nil hne
  have ha := hw a List.mem_cons_self
  have hall : ∀ b ∈ a :: w, (!isBlank b) = true := fun b hb => by simp [hw b hb]
  rw [firstWord, List.cons_append, List.dropWhile_cons_of_neg (by simp [ha]), ← List.cons_append,
    List.takeWhile_append_of_pos hall]

theorem afterWord_append (hw : ∀ c ∈ w, isBlank c = false) (hne : w ≠ [])
    (s : List Char) :
    afterWord (w ++ s) = (s.dropWhile fun c => !isBlank c).dropWhile isBlank := by
  obtain ⟨a, w, rfl⟩ := List.exists_cons_of_ne_nil hne
  have ha := hw a List.mem_cons_self
  have hall : ∀ b ∈ a :: w, (!isBlank b) = true := fun b hb => by simp [hw b hb]
  rw [afterWord, List.cons_append, List.dropWhile_cons_of_neg (by simp [ha]), ← List.cons_append,
    List.dropWhile_append_of_pos hall]

theorem dropWhile_blank_newline (s : List Char) : (s ++ ['\n']).dropWhile isBlank =
    if s.dropWhile isBlank = [] then [] else s.dropWhile isBlank ++ ['\n'] := by
  rw [List.dropWhile_append]
  by_cases h : s.dropWhile isBlank = []
  · simp [h, isBlank]
  · simp [h]

theorem firstWord_newline (s : List Char) : firstWord (s ++ ['\n']) = firstWord s := by
  rw [firstWord, firstWord, dropWhile_blank_newline]
  by_cases h : s.dropWhile isBlank = []
  · rw [if_pos h, h]
  · rw [if_neg h, List.takeWhile_append]
    split
    · rename_i hlen
      have hall : (s.dropWhile isBlank).takeWhile (fun c => !isBlank c) = s.dropWhile isBlank :=
        (List.takeWhile_prefix _).eq_of_length hlen
      rw [hall]
      simp [isBlank]
    · rfl

theorem afterWord_newline (s : List Char) :
    afterWord (s ++ ['\n']) = if afterWord s = [] then [] else afterWord s ++ ['\n'] := by
  rw [afterWord, dropWhile_blank_newline]
  by_cases h : s.dropWhile isBlank = []
  · simp [h, afterWord]
  · rw [if_neg h, List.dropWhile_append]
    by_cases hu : (s.dropWhile isBlank).dropWhile (fun c => !isBlank c) = []
    · rw [afterWord, hu]
      rfl
    · have hne : ((s.dropWhile isBlank).dropWhile fun c => !isBlank c).isEmpty = false := by
        simpa using hu
      rw [hne, if_neg (by simp), dropWhile_blank_newline]
      rfl

theorem line_split (s : List Char) : ∃ b₁ b₂, s = b₁ ++ (firstWord s ++ (b₂ ++ afterWord s)) ∧
    (∀ c ∈ b₁, isBlank c = true) ∧ (afterWord s ≠ [] → b₂ ≠ [] ∧ firstWord s ≠ []) := by
  refine ⟨s.takeWhile isBlank,
    ((s.dropWhile isBlank).dropWhile fun c => !isBlank c).takeWhile isBlank, ?_, ?_, ?_⟩
  · rw [afterWord, firstWord, List.takeWhile_append_dropWhile, List.takeWhile_append_dropWhile,
      List.takeWhile_append_dropWhile]
  · exact fun c hc => List.mem_takeWhile_imp hc
  · intro hafter
    have hu : (s.dropWhile isBlank).dropWhile (fun c => !isBlank c) ≠ [] := by
      intro hnil
      rw [afterWord, hnil] at hafter
      exact hafter rfl
    have ht : s.dropWhile isBlank ≠ [] := by
      intro hnil
      rw [hnil] at hu
      exact hu rfl
    have hblank := List.head_dropWhile_not (fun c => !isBlank c) hu
    have hword := List.head_dropWhile_not isBlank ht
    refine ⟨?_, ?_⟩
    · rw [Ne, List.takeWhile_eq_nil_iff]
      intro hnot
      have hpos := List.length_pos_iff.mpr hu
      apply hnot hpos
      rw [List.head_eq_getElem] at hblank
      simpa using hblank
    · rw [Ne, firstWord, List.takeWhile_eq_nil_iff]
      intro hnot
      have hpos := List.length_pos_iff.mpr ht
      apply hnot hpos
      rw [List.head_eq_getElem] at hword
      simpa using hword

theorem length_words_le (h : lineValue s ≠ []) :
    (firstWord s).length + 1 + (lineValue s).length ≤ s.length := by
  have hafter : afterWord s ≠ [] := by
    intro hnil
    rw [lineValue, hnil] at h
    exact h rfl
  obtain ⟨b₁, b₂, hsplit, -, hne⟩ := line_split s
  obtain ⟨c₁, c₂, hvalue, -, -⟩ := line_split (afterWord s)
  have hlen := congrArg List.length hsplit
  have hlen' := congrArg List.length hvalue
  have hb₂ := List.length_pos_iff.mpr (hne hafter).1
  simp only [List.length_append] at hlen hlen'
  unfold lineValue
  omega

end WordLemmas

section ItemLemmas

variable {l : List Char}

theorem getParamVal_eq (s : List Char) : getParamVal s =
    if s.head? = some '#' then .error s
    else if isCommentLine s then .error (afterWord s)
    else .ok (firstWord s, afterWord s) := by
  rw [getParamVal, get_val_eq, isCommentLine]
  simp

theorem isCommentLine_of_head (h : l.head? = some '#') : isCommentLine l = true := by
  obtain ⟨s, rfl⟩ : ∃ s, l = '#' :: s := by
    cases l with
    | nil => cases h
    | cons c s =>
      rw [List.head?_cons, Option.some.injEq] at h
      exact ⟨s, by rw [h]⟩
  rw [isCommentLine, firstWord, List.dropWhile_cons_of_neg (by decide),
    List.takeWhile_cons_of_pos (by decide)]
  rfl

theorem loadLine_eq (n : List Char) (cur : Option (List Char)) (s : List Char) :
    loadLine n cur s =
      if !isCommentLine s && firstWord s == n then some (lineValue s) else cur := by
  rw [loadLine, getParamVal_eq]
  by_cases hhead : s.head? = some '#'
  · simp [hhead, isCommentLine_of_head hhead]
  · rw [if_neg hhead]
    cases hcomment : isCommentLine s with
    | true => simp
    | false =>
      simp only [Bool.false_eq_true, if_false, Bool.not_false, Bool.true_and, beq_iff_eq, get_val_eq]
      rfl

theorem foldl_loadLine (n : List Char) (cur : Option (List Char)) (ls : List (List Char)) :
    ls.foldl (loadLine n) cur = (valueIn ls n).or cur := by
  induction ls generalizing cur with
  | nil => rfl
  | cons l ls ih =>
    rw [List.foldl_cons, ih, loadLine_eq, valueIn, valueIn, namedLines, namedLines, List.filter_cons]
    split
    · rw [List.getLast?_cons]
      cases (ls.filter fun l => !isCommentLine l && firstWord l == n).getLast? with
      | none => simp
      | some k => simp
    · rfl

end ItemLemmas

end XrkMonitor.ConfigFile
