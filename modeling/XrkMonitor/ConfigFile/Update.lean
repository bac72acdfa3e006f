import XrkMonitor.ConfigFile.Parse

/-!
# Update of a configuration file

An update writes one line for each item. A comment line comes back as it was; a
comment that is indented loses its mark, because `get_val` has cut its first word
off before the line is kept. A line without newline at the end of the file is not
read at all. The names of the list take their values in their first line, while
the loader goes by the last one.
-/

namespace XrkMonitor.ConfigFile

open Library

section Items

variable {l : List Char} {before : Char}

/-- The rest of a line with its newline, if there is a rest. -/
def restOf (l : List Char) : List Char := if afterWord l = [] then [] else afterWord l ++ ['\n']

/-- The line that is written for a line that the update leaves alone. -/
def rewriteLine (l : List Char) : List Char :=
  if l.head? = some '#' then l
  else if isCommentLine l then (if afterWord l = [] then [' '] else afterWord l)
  else firstWord l ++ ' ' :: afterWord l

theorem isCommentLine_newline (l : List Char) : isCommentLine (l ++ ['\n']) = isCommentLine l := by
  rw [isCommentLine, firstWord_newline, isCommentLine]

theorem lineValue_newline (l : List Char) : lineValue (l ++ ['\n']) = lineValue l := by
  rw [lineValue, afterWord_newline, lineValue]
  split
  · rename_i h
    rw [h]
  · exact firstWord_newline _

theorem configItem_newline (l : List Char) : configItem (l ++ ['\n']) =
    if l.head? = some '#' then ⟨[], [], l ++ ['\n']⟩
    else if isCommentLine l then ⟨[], [], restOf l⟩
    else ⟨firstWord l, restOf l, []⟩ := by
  have hhead : (l ++ ['\n']).head? = some '#' ↔ l.head? = some '#' := by
    cases l with
    | nil => simp
    | cons c s => simp
  rw [configItem, getParamVal_eq, isCommentLine_newline, firstWord_newline, afterWord_newline]
  simp only [hhead]
  by_cases h : l.head? = some '#'
  · simp [h]
  · cases hc : isCommentLine l with
    | true => simp [h, restOf]
    | false => simp [h, restOf]

theorem writeItem_configItem (hbefore : before ≠ '\n') (l : List Char) :
    writeItem before (configItem (l ++ ['\n'])) = rewriteLine l ++ ['\n'] := by
  rw [configItem_newline, rewriteLine]
  by_cases h : l.head? = some '#'
  · simp [h, writeItem]
  · cases hc : isCommentLine l with
    | true =>
      by_cases hrest : afterWord l = []
      · simp [h, restOf, hrest, writeItem, hbefore]
      · simp [h, restOf, hrest, writeItem]
    | false =>
      by_cases hrest : afterWord l = []
      · simp [h, restOf, hrest, writeItem, hbefore]
      · simp [h, restOf, hrest, writeItem]

theorem writeItem_new {n v : List Char} (hne : v ≠ []) (hv : ∀ c ∈ v, isBlank c = false) :
    writeItem before ⟨n, v, []⟩ = (n ++ ' ' :: v) ++ ['\n'] := by
  have hlast : v.getLast?.getD before ≠ '\n' := by
    rw [List.getLast?_eq_some_getLast hne, Option.getD_some]
    intro heq
    have hblank := hv _ (List.getLast_mem hne)
    rw [heq] at hblank
    cases hblank
  simp [writeItem, hlast]

end Items

section UpdateItems

variable {n v : List Char} {items : List TConfigItem} {list : List (List Char × List Char)}

/-- The items of a name. -/
def named (n : List Char) (items : List TConfigItem) : List TConfigItem :=
  items.filter fun i => i.strConfigName == n

/-- The first of the items takes the value; without one there is a new item. -/
def setFirst (n v : List Char) : List TConfigItem → List TConfigItem
  | [] => [⟨n, v, []⟩]
  | i :: is => { i with strConfigValue := v } :: is

theorem named_setItem (n v m : List Char) (items : List TConfigItem) :
    named m (setItem n v items) = if n = m then setFirst n v (named n items) else named m items := by
  induction items with
  | nil =>
    by_cases h : n = m
    · simp [named, setItem, setFirst, h]
    · simp [named, setItem, h]
  | cons i is ih =>
    unfold named at ih ⊢
    rw [setItem]
    by_cases hi : n = i.strConfigName
    · by_cases h : n = m
      · simp [← hi, ← h, setFirst]
      · simp [← hi, h]
    · by_cases h : n = m
      · subst h
        simp [Ne.symm hi, hi, ih]
      · by_cases hm : i.strConfigName = m
        · simp [h, hm, ih]
        · simp [h, hm, ih, hi]

theorem newValue_cons (n v m : List Char) (list : List (List Char × List Char)) :
    newValue ((n, v) :: list) m = (newValue list m).or (if n = m then some v else none) := by
  rw [newValue, newValue, List.filter_cons]
  by_cases h : n = m
  · simp only [h, BEq.rfl, if_true, List.getLast?_cons, Option.map_some]
    cases (list.filter fun x => x.1 == m).getLast? with
    | none => rfl
    | some x => rfl
  · simp [h]

theorem named_updateItems (n : List Char) (list : List (List Char × List Char))
    (items : List TConfigItem) : named n (updateItems list items) =
      match newValue list n with
      | none => named n items
      | some v => setFirst n v (named n items) := by
  induction list generalizing items with
  | nil => rfl
  | cons x list ih =>
    obtain ⟨m, w⟩ := x
    rw [updateItems, List.foldl_cons, ← updateItems, ih, newValue_cons, named_setItem]
    by_cases h : m = n
    · subst h
      cases newValue list m with
      | none => simp
      | some v =>
        simp only [if_true, Option.some_or]
        cases named m items with
        | nil => rfl
        | cons i is => rfl
    · simp only [h, if_false, Option.or_none]

theorem comments_setItem (hn : n ≠ []) (v : List Char)
    (h : ∀ i ∈ items, i.strComment ≠ [] → i.strConfigName = []) :
    (setItem n v items).filter (fun i => i.strComment ≠ []) = items.filter fun i => i.strComment ≠ [] := by
  induction items with
  | nil => simp [setItem]
  | cons i is ih =>
    rw [setItem]
    by_cases hi : n = i.strConfigName
    · rw [if_pos hi]
      have hcomment : i.strComment = [] := by
        by_contra hne
        exact hn (hi.trans (h i List.mem_cons_self hne))
      simp [hcomment]
    · rw [if_neg hi, List.filter_cons, List.filter_cons,
        ih fun j hj => h j (List.mem_cons_of_mem _ hj)]

theorem comment_of_mem_setItem (hn : n ≠ [])
    (h : ∀ i ∈ items, i.strComment ≠ [] → i.strConfigName = []) :
    ∀ i ∈ setItem n v items, i.strComment ≠ [] → i.strConfigName = [] := by
  intro i hi hne
  have hmem : i ∈ (setItem n v items).filter fun i => i.strComment ≠ [] :=
    List.mem_filter.mpr ⟨hi, by simpa using hne⟩
  rw [comments_setItem hn v h] at hmem
  exact h i (List.mem_filter.mp hmem).1 hne

theorem comments_updateItems (hlist : ∀ x ∈ list, x.1 ≠ [])
    (h : ∀ i ∈ items, i.strComment ≠ [] → i.strConfigName = []) :
    (updateItems list items).filter (fun i => i.strComment ≠ []) =
      items.filter fun i => i.strComment ≠ [] := by
  induction list generalizing items with
  | nil => rfl
  | cons x list ih =>
    have hx := hlist x List.mem_cons_self
    rw [updateItems, List.foldl_cons, ← updateItems,
      ih (fun y hy => hlist y (List.mem_cons_of_mem _ hy)) (comment_of_mem_setItem hx h),
      comments_setItem hx x.2 h]

theorem mem_updateItems {i : TConfigItem} (h : i ∈ updateItems list items) :
    i ∈ items ∨ ∃ n v, newValue list n = some v ∧
      (i = ⟨n, v, []⟩ ∨ ∃ j ∈ items, j.strConfigName = n ∧ i = { j with strConfigValue := v }) := by
  have hmem : i ∈ named i.strConfigName (updateItems list items) :=
    List.mem_filter.mpr ⟨h, by simp⟩
  rw [named_updateItems] at hmem
  cases hnew : newValue list i.strConfigName with
  | none =>
    rw [hnew] at hmem
    exact Or.inl (List.mem_filter.mp hmem).1
  | some v =>
    rw [hnew] at hmem
    cases hnamed : named i.strConfigName items with
    | nil =>
      rw [hnamed] at hmem
      exact Or.inr ⟨_, v, hnew, Or.inl (List.mem_singleton.mp hmem)⟩
    | cons j js =>
      rw [hnamed] at hmem
      have hsub : ∀ k ∈ j :: js, k ∈ items ∧ k.strConfigName = i.strConfigName := by
        intro k hk
        rw [← hnamed] at hk
        have hk := List.mem_filter.mp hk
        exact ⟨hk.1, by simpa using hk.2⟩
      rcases List.mem_cons.mp hmem with heq | hmem
      · have hj := hsub j List.mem_cons_self
        exact Or.inr ⟨_, v, hnew, Or.inr ⟨j, hj.1, hj.2, heq⟩⟩
      · exact Or.inl (hsub i (List.mem_cons_of_mem _ hmem)).1

theorem newValue_some {n v : List Char} (h : newValue list n = some v) : (n, v) ∈ list := by
  rw [newValue, Option.map_eq_some_iff] at h
  obtain ⟨x, hx, rfl⟩ := h
  have hmem := List.mem_filter.mp (List.mem_of_getLast? hx)
  have hname : x.1 = n := by simpa using hmem.2
  rw [← hname]
  exact hmem.1

end UpdateItems

section NewText

variable {before : Char} {text : List Char} {list : List (List Char × List Char)} {l : List Char}
  {i : TConfigItem}

/-- The lines of a text fit into the buffer of the loader. -/
def WithinLimit (text : List Char) : Prop := ∀ l ∈ allLines text, l.length < MAX_CONFIG_LINE_LEN

/-- The names of the list are words, and its values are not empty. -/
structure ListOk (list : List (List Char × List Char)) : Prop where
  name_ne : ∀ x ∈ list, x.1 ≠ []
  name_word : ∀ x ∈ list, ∀ c ∈ x.1, isBlank c = false
  value_ne : ∀ x ∈ list, x.2 ≠ []

theorem getConfigItemList_eq (hlimit : WithinLimit text) :
    getConfigItemList text = (splitLines text).1.map fun l => configItem (l ++ ['\n']) := by
  obtain ⟨hjoin, hlines, hlast⟩ := splitLines_spec text
  have hfits : ∀ l ∈ (splitLines text).1, l.length < MAX_CONFIG_LINE_LEN :=
    fun l hl => hlimit l (List.mem_append_left _ hl)
  have hlastFits : (splitLines text).2.length < MAX_CONFIG_LINE_LEN := by
    by_cases hnil : (splitLines text).2 = []
    · rw [hnil]
      decide
    · apply hlimit
      rw [allLines, if_neg hnil]
      exact List.mem_append_right _ List.mem_cons_self
  have hread : readLines MAX_CONFIG_LINE_LEN_AGENT text =
      (splitLines text).1.flatMap (pieces MAX_CONFIG_LINE_LEN_AGENT) := by
    rw [← hjoin, splitLines_joinLines hlines hlast]
    unfold MAX_CONFIG_LINE_LEN at hfits hlastFits
    exact readLines_lines (by decide) hlines
      (fun l hl => (hfits l hl).le.trans (by decide)) hlast (hlastFits.trans (by decide))
  have hpieces : (splitLines text).1.flatMap (pieces MAX_CONFIG_LINE_LEN_AGENT) =
      (splitLines text).1.map fun l => l ++ ['\n'] := by
    rw [List.map_eq_flatMap]
    apply List.flatMap_congr
    intro l hl
    have hlen := hfits l hl
    unfold MAX_CONFIG_LINE_LEN at hlen
    rw [pieces, if_pos (hlen.trans (by decide))]
  rw [getConfigItemList, hread, hpieces, List.map_map]
  rfl

/-- The items after the update. -/
def newItems (text : List Char) (list : List (List Char × List Char)) : List TConfigItem :=
  updateItems list ((splitLines text).1.map fun l => configItem (l ++ ['\n']))

/-- A line that is written. -/
def itemLine (before : Char) (i : TConfigItem) : List Char := (writeItem before i).dropLast

/-- The lines after the update. -/
def newLines (before : Char) (text : List Char) (list : List (List Char × List Char)) :
    List (List Char) :=
  (newItems text list).map (itemLine before)

theorem strComment_of_name (h : (configItem (l ++ ['\n'])).strConfigName ≠ []) :
    (configItem (l ++ ['\n'])).strComment = [] := by
  rw [configItem_newline] at h ⊢
  split
  · rename_i hhead
    rw [if_pos hhead] at h
    exact absurd rfl h
  · rename_i hhead
    rw [if_neg hhead] at h
    split
    · rename_i hcomment
      rw [if_pos hcomment] at h
      exact absurd rfl h
    · rfl

theorem mem_newItems (hlist : ListOk list) (h : i ∈ newItems text list) :
    (∃ l ∈ (splitLines text).1, i = configItem (l ++ ['\n'])) ∨
      ∃ n v, newValue list n = some v ∧ i = ⟨n, v, []⟩ := by
  rcases mem_updateItems h with hmem | ⟨n, v, hnew, rfl | ⟨j, hj, hname, rfl⟩⟩
  · obtain ⟨l, hl, rfl⟩ := List.mem_map.mp hmem
    exact Or.inl ⟨l, hl, rfl⟩
  · exact Or.inr ⟨n, v, hnew, rfl⟩
  · obtain ⟨l, -, rfl⟩ := List.mem_map.mp hj
    have hne : (configItem (l ++ ['\n'])).strConfigName ≠ [] := by
      rw [hname]
      exact hlist.name_ne _ (newValue_some hnew)
    refine Or.inr ⟨n, v, hnew, ?_⟩
    rw [strComment_of_name hne, hname]

theorem mem_of_mem_firstWord {c : Char} (h : c ∈ firstWord l) : c ∈ l :=
  (List.dropWhile_suffix _).subset ((List.takeWhile_prefix _).subset h)

theorem mem_of_mem_afterWord {c : Char} (h : c ∈ afterWord l) : c ∈ l :=
  (List.dropWhile_suffix _).subset ((List.dropWhile_suffix _).subset
    ((List.dropWhile_suffix _).subset h))

theorem newline_notMem_rewriteLine (h : '\n' ∉ l) : '\n' ∉ rewriteLine l := by
  rw [rewriteLine]
  split
  · exact h
  · split
    · split
      · simp
      · exact fun hmem => h (mem_of_mem_afterWord hmem)
    · rw [List.mem_append, List.mem_cons]
      rintro (hmem | hmem | hmem)
      · exact h (mem_of_mem_firstWord hmem)
      · cases hmem
      · exact h (mem_of_mem_afterWord hmem)

/-- The values of the list that count are words. -/
def ValuesOk (list : List (List Char × List Char)) : Prop :=
  ∀ n v, newValue list n = some v → ∀ c ∈ v, isBlank c = false

theorem writeItem_eq (hbefore : before ≠ '\n') (hlist : ListOk list) (hvalues : ValuesOk list)
    (h : i ∈ newItems text list) :
    writeItem before i = itemLine before i ++ ['\n'] ∧ '\n' ∉ itemLine before i := by
  rcases mem_newItems hlist h with ⟨l, hl, rfl⟩ | ⟨n, v, hnew, rfl⟩
  · have hwrite := writeItem_configItem hbefore l
    have hline : itemLine before (configItem (l ++ ['\n'])) = rewriteLine l := by
      rw [itemLine, hwrite, List.dropLast_concat]
    rw [hline]
    exact ⟨hwrite, newline_notMem_rewriteLine ((splitLines_spec text).2.1 l hl)⟩
  · have hmem := newValue_some hnew
    have hwrite : writeItem before ⟨n, v, []⟩ = (n ++ ' ' :: v) ++ ['\n'] :=
      writeItem_new (hlist.value_ne _ hmem) (hvalues n v hnew)
    have hline : itemLine before ⟨n, v, []⟩ = n ++ ' ' :: v := by
      rw [itemLine, hwrite, List.dropLast_concat]
    rw [hline]
    refine ⟨hwrite, ?_⟩
    rw [List.mem_append, List.mem_cons]
    rintro (hn | hn | hn)
    · exact absurd (hlist.name_word _ hmem _ hn) (by decide)
    · cases hn
    · exact absurd (hvalues n v hnew _ hn) (by decide)

theorem updateConfigFile_eq (hbefore : before ≠ '\n') (hlist : ListOk list) (hvalues : ValuesOk list)
    (hlimit : WithinLimit text) :
    updateConfigFile before text list = joinLines (newLines before text list) ∧
      ∀ l ∈ newLines before text list, '\n' ∉ l := by
  refine ⟨?_, ?_⟩
  · rw [updateConfigFile, getConfigItemList_eq hlimit, joinLines, newLines, List.flatMap_map]
    apply List.flatMap_congr
    intro i hi
    exact (writeItem_eq hbefore hlist hvalues hi).1
  · intro l hl
    obtain ⟨i, hi, rfl⟩ := List.mem_map.mp hl
    exact (writeItem_eq hbefore hlist hvalues hi).2

theorem allLines_updateConfigFile (hbefore : before ≠ '\n') (hlist : ListOk list)
    (hvalues : ValuesOk list) (hlimit : WithinLimit text) :
    allLines (updateConfigFile before text list) = newLines before text list := by
  obtain ⟨heq, hlines⟩ := updateConfigFile_eq hbefore hlist hvalues hlimit
  have hsplit : splitLines (joinLines (newLines before text list) ++ []) = _ :=
    splitLines_joinLines hlines (by simp)
  rw [List.append_nil] at hsplit
  rw [allLines, heq, hsplit]
  simp

end NewText

section NewLines

variable {before : Char} {text l : List Char} {list : List (List Char × List Char)} {n : List Char}

theorem words_of_word {w : List Char} (hw : ∀ c ∈ w, isBlank c = false) (hne : w ≠ [])
    (r : List Char) : firstWord (w ++ ' ' :: r) = w ∧ lineValue (w ++ ' ' :: r) = firstWord r := by
  have hspace : isBlank ' ' = true := rfl
  refine ⟨?_, ?_⟩
  · rw [firstWord_append hw hne, List.takeWhile_cons_of_neg (by simp [hspace]), List.append_nil]
  · rw [lineValue, afterWord_append hw hne, List.dropWhile_cons_of_neg (by simp [hspace]),
      List.dropWhile_cons_of_pos hspace, firstWord, firstWord, List.dropWhile_idempotent isBlank r]

theorem words_rewriteLine (hcomment : isCommentLine l = false) :
    firstWord (rewriteLine l) = firstWord l ∧ lineValue (rewriteLine l) = lineValue l := by
  have hhead : l.head? ≠ some '#' := fun h => by
    rw [isCommentLine_of_head h] at hcomment
    cases hcomment
  rw [rewriteLine, if_neg hhead, hcomment, if_neg (by simp)]
  by_cases hw : firstWord l = []
  · have hafter : afterWord l = [] := by
      by_contra hne
      obtain ⟨b₁, b₂, hsplit, hblank, h⟩ := line_split l
      exact (h hne).2 hw
    rw [hw, hafter, lineValue, lineValue, hafter]
    exact ⟨rfl, rfl⟩
  · exact words_of_word (fun c hc => isBlank_of_mem_firstWord hc) hw _

theorem itemLine_configItem (hbefore : before ≠ '\n') (l : List Char) :
    itemLine before (configItem (l ++ ['\n'])) = rewriteLine l := by
  rw [itemLine, writeItem_configItem hbefore, List.dropLast_concat]

theorem itemLine_new (hlist : ListOk list) (hvalues : ValuesOk list) {n v : List Char}
    (hnew : newValue list n = some v) : itemLine before ⟨n, v, []⟩ = n ++ ' ' :: v := by
  rw [itemLine, writeItem_new (hlist.value_ne _ (newValue_some hnew)) (hvalues n v hnew),
    List.dropLast_concat]

/-- The comments of the text stand at the start of their lines. -/
def CommentsOk (text : List Char) : Prop :=
  ∀ l ∈ (splitLines text).1, isCommentLine l = true → l.head? = some '#'

/-- No name of the list looks like a comment. -/
def NamesOk (list : List (List Char × List Char)) : Prop :=
  ∀ n v, newValue list n = some v → n.head? ≠ some '#'

theorem itemLine_name (hbefore : before ≠ '\n') (hlist : ListOk list) (hvalues : ValuesOk list)
    (hnames : NamesOk list) (hcomments : CommentsOk text) {i : TConfigItem}
    (h : i ∈ newItems text list) :
    (isCommentLine (itemLine before i) = true ↔ i.strComment ≠ []) ∧
      ∀ n, n ≠ [] → ((!isCommentLine (itemLine before i) && firstWord (itemLine before i) == n) = true ↔
        i.strConfigName = n) := by
  rcases mem_newItems hlist h with ⟨l, hl, rfl⟩ | ⟨m, v, hnew, rfl⟩
  · rw [itemLine_configItem hbefore, configItem_newline]
    cases hcomment : isCommentLine l with
    | true =>
      have hhead := hcomments l hl hcomment
      rw [rewriteLine, if_pos hhead, if_pos hhead, hcomment]
      refine ⟨by simp, ?_⟩
      intro n hn
      simp [hn.symm]
    | false =>
      have hhead : l.head? ≠ some '#' := fun h => by
        rw [isCommentLine_of_head h] at hcomment
        cases hcomment
      have hline : isCommentLine (rewriteLine l) = false := by
        rw [isCommentLine, (words_rewriteLine hcomment).1]
        exact hcomment
      rw [if_neg hhead, hline, (words_rewriteLine hcomment).1]
      refine ⟨by simp, ?_⟩
      intro n _
      simp
  · have hmem := newValue_some hnew
    have hwords := words_of_word (hlist.name_word _ hmem) (hlist.name_ne _ hmem) v
    have hline : isCommentLine (m ++ ' ' :: v) = false := by
      rw [isCommentLine, hwords.1]
      simpa using hnames m v hnew
    rw [itemLine_new hlist hvalues hnew, hline, hwords.1]
    refine ⟨by simp, ?_⟩
    intro n _
    simp

theorem namedLines_newLines (hbefore : before ≠ '\n') (hlist : ListOk list) (hvalues : ValuesOk list)
    (hnames : NamesOk list) (hcomments : CommentsOk text) (hn : n ≠ []) :
    namedLines n (newLines before text list) =
      (named n (newItems text list)).map (itemLine before) := by
  rw [namedLines, newLines, List.filter_map, named]
  congr 1
  apply List.filter_congr
  intro i hi
  have hname := (itemLine_name hbefore hlist hvalues hnames hcomments hi).2 n hn
  rw [Function.comp_apply, Bool.eq_iff_iff, hname, beq_iff_eq]

theorem named_lines (hcomments : CommentsOk text) (hn : n ≠ []) :
    named n ((splitLines text).1.map fun l => configItem (l ++ ['\n'])) =
      (namedLines n (splitLines text).1).map fun l => configItem (l ++ ['\n']) := by
  rw [named, List.filter_map, namedLines]
  congr 1
  apply List.filter_congr
  intro l hl
  rw [Function.comp_apply, configItem_newline]
  cases hcomment : isCommentLine l with
  | true =>
    rw [if_pos (hcomments l hl hcomment)]
    simpa using hn.symm
  | false =>
    have hhead : l.head? ≠ some '#' := fun h => by
      rw [isCommentLine_of_head h] at hcomment
      cases hcomment
    rw [if_neg hhead]
    simp

/-- The values that the lines of a name have after the update. -/
theorem values_newLines (hbefore : before ≠ '\n') (hlist : ListOk list) (hvalues : ValuesOk list)
    (hnames : NamesOk list) (hcomments : CommentsOk text) (hn : n ≠ []) :
    (namedLines n (newLines before text list)).map lineValue =
      match newValue list n with
      | none => (namedLines n (splitLines text).1).map lineValue
      | some v => v :: (namedLines n (splitLines text).1).tail.map lineValue := by
  have hold : ∀ l ∈ namedLines n (splitLines text).1,
      lineValue (itemLine before (configItem (l ++ ['\n']))) = lineValue l := by
    intro l hl
    have hnot : isCommentLine l = false := by
      have := (List.mem_filter.mp hl).2
      simp only [Bool.and_eq_true, Bool.not_eq_true'] at this
      exact this.1
    rw [itemLine_configItem hbefore, (words_rewriteLine hnot).2]
  rw [namedLines_newLines hbefore hlist hvalues hnames hcomments hn, newItems, named_updateItems,
    named_lines hcomments hn]
  cases hnew : newValue list n with
  | none =>
    simp only [List.map_map]
    exact List.map_congr_left fun l hl => hold l hl
  | some v =>
    have hmem := newValue_some hnew
    have hv : lineValue (itemLine before ⟨n, v, []⟩) = v := by
      rw [itemLine_new hlist hvalues hnew,
        (words_of_word (hlist.name_word _ hmem) (hlist.name_ne _ hmem) v).2]
      have hword := firstWord_append (hvalues n v hnew) (hlist.value_ne _ hmem) []
      simpa using hword
    cases hlines : namedLines n (splitLines text).1 with
    | nil =>
      simp only [List.map_nil, setFirst, List.map_cons, hv, List.tail_nil]
    | cons l ls =>
      have hl : l ∈ namedLines n (splitLines text).1 := hlines ▸ List.mem_cons_self
      have hprops := (List.mem_filter.mp hl).2
      simp only [Bool.and_eq_true, Bool.not_eq_true', beq_iff_eq] at hprops
      have hhead : l.head? ≠ some '#' := fun h => by
        rw [isCommentLine_of_head h] at hprops
        cases hprops.1
      have hfirst : ({ configItem (l ++ ['\n']) with strConfigValue := v } : TConfigItem) =
          ⟨n, v, []⟩ := by
        rw [configItem_newline, if_neg hhead, hprops.1, hprops.2]
        rfl
      simp only [List.map_cons, setFirst, hfirst, hv, List.tail_cons, List.map_map]
      congr 1
      apply List.map_congr_left
      intro k hk
      exact hold k (hlines ▸ List.mem_cons_of_mem _ hk)

end NewLines

section Loaded

variable {before : Char} {text l : List Char} {list : List (List Char × List Char)} {n v : List Char}

theorem namedLines_pieces (hn : n ≠ []) (l : List Char) :
    (namedLines n (pieces MAX_CONFIG_LINE_LEN l)).map lineValue = (namedLines n [l]).map lineValue := by
  have hnl : firstWord ['\n'] = [] := rfl
  rw [pieces]
  split
  · simp only [namedLines, List.filter_cons, isCommentLine_newline, firstWord_newline, List.filter_nil]
    split
    · rw [List.map_cons, List.map_cons, lineValue_newline]
    · rfl
  · simp only [namedLines, List.filter_cons, hnl, List.filter_nil]
    simp [hn]

theorem values_pieces (hn : n ≠ []) (ls : List (List Char)) :
    (namedLines n (ls.flatMap (pieces MAX_CONFIG_LINE_LEN))).map lineValue =
      (namedLines n ls).map lineValue := by
  induction ls with
  | nil => rfl
  | cons l ls ih =>
    have hsplit : ∀ ks ks' : List (List Char), (namedLines n (ks ++ ks')).map lineValue =
        (namedLines n ks).map lineValue ++ (namedLines n ks').map lineValue := by
      intro ks ks'
      rw [namedLines, List.filter_append, List.map_append]
      rfl
    have hcons : l :: ls = [l] ++ ls := rfl
    rw [List.flatMap_cons, hsplit, ih, namedLines_pieces hn, hcons, hsplit]

theorem valueIn_eq (ls : List (List Char)) (n : List Char) :
    valueIn ls n = ((namedLines n ls).map lineValue).getLast? := by
  rw [valueIn, List.getLast?_map]

theorem loadConfig_joinLines {ls : List (List Char)} (hls : ∀ l ∈ ls, '\n' ∉ l)
    (hlen : ∀ l ∈ ls, l.length ≤ MAX_CONFIG_LINE_LEN) (hn : n ≠ []) :
    loadConfig (joinLines ls) n = valueIn ls n := by
  have hread : readLines MAX_CONFIG_LINE_LEN (joinLines ls ++ []) =
      ls.flatMap (pieces MAX_CONFIG_LINE_LEN) :=
    readLines_lines (by decide) hls hlen (by simp) (by decide)
  rw [List.append_nil] at hread
  rw [loadConfig, hread, foldl_loadLine, Option.or_none, valueIn_eq, valueIn_eq, values_pieces hn]

theorem loadConfig_some (h : loadConfig text n = some v) :
    n.head? ≠ some '#' ∧ (∀ c ∈ v, isBlank c = false) ∧
      (v ≠ [] → n.length + 1 + v.length ≤ MAX_CONFIG_LINE_LEN) := by
  rw [loadConfig, foldl_loadLine, Option.or_none, valueIn, Option.map_eq_some_iff] at h
  obtain ⟨l, hl, rfl⟩ := h
  obtain ⟨hmem, hprops⟩ := List.mem_filter.mp (List.mem_of_getLast? hl)
  simp only [Bool.and_eq_true, Bool.not_eq_true', beq_iff_eq] at hprops
  obtain ⟨hcomment, rfl⟩ := hprops
  refine ⟨?_, ?_, ?_⟩
  · simpa [isCommentLine] using hcomment
  · exact fun c hc => isBlank_of_mem_firstWord hc
  · intro hne
    exact (length_words_le hne).trans (length_of_mem_readLines hmem)

theorem length_rewriteLine_le (l : List Char) : (rewriteLine l).length ≤ l.length + 1 := by
  obtain ⟨b₁, b₂, hsplit, -, hne⟩ := line_split l
  have hlen := congrArg List.length hsplit
  simp only [List.length_append] at hlen
  rw [rewriteLine]
  split
  · exact Nat.le_succ _
  · split
    · split
      · simp
      · omega
    · rw [List.length_append, List.length_cons]
      by_cases hafter : afterWord l = []
      · rw [hafter, List.length_nil]
        omega
      · have hb₂ := List.length_pos_iff.mpr (hne hafter).1
        omega

theorem mem_newLines (hbefore : before ≠ '\n') (hlist : ListOk list) (hvalues : ValuesOk list)
    (h : l ∈ newLines before text list) :
    (∃ k ∈ (splitLines text).1, l = rewriteLine k) ∨
      ∃ n v, newValue list n = some v ∧ l = n ++ ' ' :: v := by
  obtain ⟨i, hi, rfl⟩ := List.mem_map.mp h
  rcases mem_newItems hlist hi with ⟨k, hk, rfl⟩ | ⟨n, v, hnew, rfl⟩
  · exact Or.inl ⟨k, hk, itemLine_configItem hbefore k⟩
  · exact Or.inr ⟨n, v, hnew, itemLine_new hlist hvalues hnew⟩

theorem loadConfig_updateConfigFile (hbefore : before ≠ '\n') (hlist : ListOk list)
    (hvalues : ValuesOk list) (hlimit : WithinLimit text)
    (hfits : ∀ n v, newValue list n = some v → n.length + 1 + v.length ≤ MAX_CONFIG_LINE_LEN)
    (hn : n ≠ []) :
    loadConfig (updateConfigFile before text list) n = valueIn (newLines before text list) n := by
  obtain ⟨heq, hlines⟩ := updateConfigFile_eq hbefore hlist hvalues hlimit
  rw [heq]
  apply loadConfig_joinLines hlines _ hn
  intro l hl
  rcases mem_newLines hbefore hlist hvalues hl with ⟨k, hk, rfl⟩ | ⟨m, v, hnew, rfl⟩
  · have hlen := hlimit k (List.mem_append_left _ hk)
    have hrewrite := length_rewriteLine_le k
    omega
  · have hfit := hfits m v hnew
    rw [List.length_append, List.length_cons]
    omega

theorem comments_newLines (hbefore : before ≠ '\n') (hlist : ListOk list) (hvalues : ValuesOk list)
    (hnames : NamesOk list) (hcomments : CommentsOk text) :
    (newLines before text list).filter isCommentLine = (splitLines text).1.filter isCommentLine := by
  have hcomment : ∀ i ∈ (splitLines text).1.map (fun l => configItem (l ++ ['\n'])),
      i.strComment ≠ [] → i.strConfigName = [] := by
    intro i hi hne
    obtain ⟨l, -, rfl⟩ := List.mem_map.mp hi
    by_contra hname
    exact hne (strComment_of_name hname)
  have hnew : (newLines before text list).filter isCommentLine =
      ((newItems text list).filter fun i => i.strComment ≠ []).map (itemLine before) := by
    rw [newLines, List.filter_map]
    congr 1
    apply List.filter_congr
    intro i hi
    have hiff := (itemLine_name hbefore hlist hvalues hnames hcomments hi).1
    rw [Function.comp_apply, Bool.eq_iff_iff, hiff, decide_eq_true_iff]
  rw [hnew, newItems, comments_updateItems hlist.name_ne hcomment, List.filter_map, List.map_map]
  have hfilter : (splitLines text).1.filter
      ((fun i : TConfigItem => decide (i.strComment ≠ [])) ∘ fun l => configItem (l ++ ['\n'])) =
        (splitLines text).1.filter isCommentLine := by
    apply List.filter_congr
    intro l hl
    rw [Function.comp_apply, configItem_newline]
    cases hc : isCommentLine l with
    | true =>
      rw [if_pos (hcomments l hl hc)]
      simp
    | false =>
      have hhead : l.head? ≠ some '#' := fun h => by
        rw [isCommentLine_of_head h] at hc
        cases hc
      rw [if_neg hhead]
      simp
  rw [hfilter]
  conv_rhs => rw [← List.map_id ((splitLines text).1.filter isCommentLine)]
  apply List.map_congr_left
  intro l hl
  obtain ⟨hmem, hc⟩ := List.mem_filter.mp hl
  rw [Function.comp_apply, itemLine_configItem hbefore, rewriteLine, if_pos (hcomments l hmem hc)]
  rfl

theorem valueIn_newLines (hbefore : before ≠ '\n') (hlist : ListOk list) (hvalues : ValuesOk list)
    (hnames : NamesOk list) (hcomments : CommentsOk text) (hn : n ≠ []) :
    valueIn (newLines before text list) n =
      match newValue list n with
      | none => valueIn (splitLines text).1 n
      | some v => some (((namedLines n (splitLines text).1).tail.getLast?.map lineValue).getD v) := by
  rw [valueIn_eq, values_newLines hbefore hlist hvalues hnames hcomments hn]
  cases newValue list n with
  | none => rw [valueIn_eq]
  | some v => rw [List.getLast?_cons, List.getLast?_map]

end Loaded

section Claim

variable {before : Char} {text l : List Char} {list : List (List Char × List Char)} {n v : List Char}

theorem valueIn_allLines (hn : n ≠ []) : valueIn (allLines text) n =
    if !isCommentLine (splitLines text).2 && firstWord (splitLines text).2 == n then
      some (lineValue (splitLines text).2)
    else valueIn (splitLines text).1 n := by
  rw [allLines, valueIn, namedLines, List.filter_append]
  by_cases hlast : (splitLines text).2 = []
  · have hnil : firstWord ([] : List Char) = [] := rfl
    rw [if_pos hlast, hlast, hnil, List.filter_nil, List.append_nil,
      if_neg (by simp [hn])]
    rfl
  · rw [if_neg hlast, List.filter_cons, List.filter_nil]
    split
    · rw [List.getLast?_append]
      rfl
    · rw [List.append_nil]
      rfl

theorem comments_allLines (text : List Char) : (allLines text).filter isCommentLine =
    (splitLines text).1.filter isCommentLine ++
      if isCommentLine (splitLines text).2 then [(splitLines text).2] else [] := by
  rw [allLines, List.filter_append]
  by_cases hlast : (splitLines text).2 = []
  · rw [if_pos hlast, hlast]
    rfl
  · rw [if_neg hlast, List.filter_cons, List.filter_nil]

theorem blank_rewriteLine {c : Char} {s : List Char} (h : rewriteLine l = c :: s)
    (hc : isBlank c = true) : s = [] := by
  rw [rewriteLine] at h
  have hafter : ∀ t, afterWord l ≠ c :: t := by
    intro t heq
    have hne : afterWord l ≠ [] := by
      rw [heq]
      exact List.cons_ne_nil _ _
    have hnot : isBlank ((afterWord l).head hne) = false := List.head_dropWhile_not isBlank hne
    simp only [heq, List.head_cons] at hnot
    rw [hc] at hnot
    cases hnot
  split at h
  · rename_i hhead
    rw [h, List.head?_cons, Option.some.injEq] at hhead
    rw [hhead] at hc
    cases hc
  · split at h
    · split at h
      · cases h
        rfl
      · exact absurd h (hafter s)
    · cases hword : firstWord l with
      | nil =>
        obtain ⟨b₁, b₂, hsplit, hblank, hne⟩ := line_split l
        have hnil : afterWord l = [] := by
          by_contra hrest
          exact (hne hrest).2 hword
        rw [hword, hnil] at h
        cases h
        rfl
      | cons d w =>
        have hd : isBlank d = false := isBlank_of_mem_firstWord (s := l) (by rw [hword]; exact List.mem_cons_self)
        rw [hword] at h
        cases h
        rw [hc] at hd
        cases hd

theorem head_of_mem_newLines (hbefore : before ≠ '\n') (hlist : ListOk list)
    (hvalues : ValuesOk list) (h : l ∈ newLines before text list) (hcomment : isCommentLine l = true) :
    l.head? = some '#' := by
  cases l with
  | nil => cases hcomment
  | cons c s =>
    by_cases hc : isBlank c = true
    · exfalso
      rcases mem_newLines hbefore hlist hvalues h with ⟨k, -, hk⟩ | ⟨n, v, hnew, hline⟩
      · rw [blank_rewriteLine hk.symm hc, isCommentLine, firstWord, List.dropWhile_cons_of_pos hc] at hcomment
        cases hcomment
      · have hmem := newValue_some hnew
        have hword := hlist.name_word _ hmem
        cases hn : n with
        | nil => exact hlist.name_ne _ hmem hn
        | cons d w =>
          rw [hn] at hline hword
          cases hline
          rw [hword c List.mem_cons_self] at hc
          cases hc
    · rw [isCommentLine, firstWord, List.dropWhile_cons_of_neg hc,
        List.takeWhile_cons_of_pos (by simpa using hc)] at hcomment
      simpa using hcomment

/-- The update loads as it should exactly if the last line does not need its newline, comments are
not indented, and the listed names are written once, with one-word values that fit. -/
theorem config_update_iff (hbefore : before ≠ '\n') (hlimit : WithinLimit text)
    (hlist : ListOk list) :
    UpdateLoads text list (updateConfigFile before text list) ↔ UpdateOk text list := by
  have hname : ∀ {n v}, newValue list n = some v → n ≠ [] :=
    fun h => hlist.name_ne _ (newValue_some h)
  have hlines := fun hvalues => allLines_updateConfigFile hbefore hlist hvalues hlimit
  have hload := fun hvalues hfits n =>
    loadConfig_updateConfigFile (n := n) hbefore hlist hvalues hlimit hfits
  constructor
  · intro h
    have hvalues : ValuesOk list := fun n v hnew => (loadConfig_some (h.new n v hnew)).2.1
    have hnames : NamesOk list := fun n v hnew => (loadConfig_some (h.new n v hnew)).1
    have hfits : ∀ n v, newValue list n = some v → n.length + 1 + v.length ≤ MAX_CONFIG_LINE_LEN :=
      fun n v hnew => (loadConfig_some (h.new n v hnew)).2.2 (hlist.value_ne _ (newValue_some hnew))
    have hkept := h.comments
    rw [hlines hvalues, comments_allLines] at hkept
    have hcomments : CommentsOk text := by
      intro l hl hc
      refine head_of_mem_newLines hbefore hlist hvalues (hkept.subset ?_) hc
      exact List.mem_append_left _ (List.mem_filter.mpr ⟨hl, hc⟩)
    have hvalue := fun n => valueIn_newLines (n := n) hbefore hlist hvalues hnames hcomments
    have hlast : isCommentLine (splitLines text).2 = false := by
      by_contra hc
      rw [Bool.not_eq_false] at hc
      have hsub := hkept.filter isCommentLine
      rw [comments_newLines hbefore hlist hvalues hnames hcomments, hc, if_pos rfl,
        List.filter_append, List.filter_cons, if_pos hc, List.filter_nil,
        List.filter_eq_self.mpr fun l hl => (List.mem_filter.mp hl).2] at hsub
      have hlen := hsub.length_le
      rw [List.length_append, List.length_singleton] at hlen
      omega
    refine ⟨hnames, hvalues, hfits, ?_, hcomments, hlast, ?_⟩
    · intro n v hnew l hl
      have hv := h.new n v hnew
      rw [hload hvalues hfits n (hname hnew), hvalue n (hname hnew), hnew] at hv
      rw [Option.mem_def] at hl
      simpa [hl] using hv
    · intro hne hnone
      have hold := h.old _ (lineValue (splitLines text).2) hne hnone
        (by rw [valueIn_allLines hne, hlast]; simp)
      rw [hload hvalues hfits _ hne, hvalue _ hne, hnone] at hold
      exact hold
  · intro h
    have hvalue := fun n => valueIn_newLines (n := n) hbefore hlist h.value h.name h.comments
    refine ⟨?_, ?_, ?_⟩
    · intro n v hnew
      rw [hload h.value h.fits n (hname hnew), hvalue n (hname hnew), hnew]
      cases hlast : (namedLines n (splitLines text).1).tail.getLast? with
      | none => rfl
      | some l =>
        simp only [Option.map_some, Option.getD_some]
        rw [h.once n v hnew l hlast]
    · intro n v hn hnone hold
      rw [hload h.value h.fits n hn, hvalue n hn, hnone]
      rw [valueIn_allLines hn] at hold
      split at hold
      · rename_i hcond
        simp only [Bool.and_eq_true, beq_iff_eq] at hcond
        have hline := h.lastLine (by rw [hcond.2]; exact hn) (by rw [hcond.2]; exact hnone)
        rw [hcond.2] at hline
        rw [← hold]
        exact hline
      · exact hold
    · rw [hlines h.value, comments_allLines, h.lastComment, if_neg (by simp), List.append_nil,
        ← comments_newLines hbefore hlist h.value h.name h.comments]
      exact List.filter_sublist

/-- A file with a comment, an indented name and two new values. -/
theorem config_update_iff_comment :
    let text := ['#', 'c', '\n', ' ', 'a', ' ', '1', '\n', 'b', '\t', '2', '\n']
    let list := [(['a'], ['9']), (['d'], ['4'])]
    WithinLimit text ∧ ListOk list ∧
      UpdateLoads text list (updateConfigFile '\x00' text list) := by
  intro text list
  have hlimit : WithinLimit text := by
    unfold WithinLimit
    decide
  have hlist : ListOk list := ⟨by decide, by simp [list, isBlank], by decide⟩
  have hnew : ∀ {n v}, newValue list n = some v → (n, v) ∈ list := newValue_some
  refine ⟨hlimit, hlist, (config_update_iff (by decide) hlimit hlist).mpr ⟨?_, ?_, ?_, ?_, ?_, ?_, ?_⟩⟩
  · intro n v h
    have hall : ∀ x ∈ list, x.1.head? ≠ some '#' := by decide
    exact hall _ (hnew h)
  · intro n v h
    have hall : ∀ x ∈ list, ∀ c ∈ x.2, isBlank c = false := by simp [list, isBlank]
    exact hall _ (hnew h)
  · intro n v h
    have hall : ∀ x ∈ list, x.1.length + 1 + x.2.length ≤ MAX_CONFIG_LINE_LEN := by decide
    exact hall _ (hnew h)
  · intro n v h l hl
    have hall : ∀ x ∈ list, (namedLines x.1 (splitLines text).1).tail.getLast? = none := by decide
    rw [hall _ (hnew h)] at hl
    cases hl
  · decide
  · decide
  · intro h
    exact absurd (show firstWord (splitLines text).2 = [] by decide) h

/-- The value of the last line is lost if the line has no newline. -/
theorem last_line_lost :
    let text := ['b', ' ', '2']
    let list := [(['a'], ['9'])]
    WithinLimit text ∧ ListOk list ∧
      ¬UpdateLoads text list (updateConfigFile '\x00' text list) := by
  intro text list
  have hlimit : WithinLimit text := by
    unfold WithinLimit
    decide
  refine ⟨hlimit, ⟨by decide, by simp [list, isBlank], by decide⟩, ?_⟩
  intro h
  have hold := h.old ['b'] ['2'] (by decide) (by decide) (by decide)
  exact absurd hold (by decide +kernel)

end Claim

end XrkMonitor.ConfigFile
