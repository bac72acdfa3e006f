import Mathlib.Data.List.DropRight
import XrkMonitor.Library.Bytes

/-!
# A text that is changed in place

A C string is searched, read and cut inside the buffer it stands in. An access that leaves the
buffer, or that finds no `NUL` to stop at, is a fault and gives `none`. `TextEnds` says where a text
has its `NUL` and which bytes follow it. The operations that begin in the text leave that end as it
is: they neither fault nor touch what stands behind the text.
-/

namespace XrkMonitor.Library

variable {buf pre s old bs rest : List UInt8} {p q L : Nat} {c : UInt8}

section Access

/-- The string from place `p` on. -/
def textAt (buf : List UInt8) (p : Nat) : Option (List UInt8) :=
  if 0 ∈ buf.drop p then some (cstr (buf.drop p)) else none

/-- `strchr`: the first place of the character in the string from place `p` on. -/
def findFrom (buf : List UInt8) (p : Nat) (c : UInt8) : Option (Option Nat) :=
  (textAt buf p).map fun text => (text.findIdx? (· == c)).map (p + ·)

/-- The buffer with other bytes from place `p` on. -/
def overwrite (buf : List UInt8) (p : Nat) (bs : List UInt8) : Option (List UInt8) :=
  if p + bs.length ≤ buf.length then some (buf.take p ++ (bs ++ buf.drop (p + bs.length)))
  else none

theorem textAt_append (hs : ∀ b ∈ s, b ≠ 0) (hp : pre.length = p) :
    textAt (pre ++ (s ++ 0 :: rest)) p = some s := by
  subst hp
  rw [textAt, List.drop_left, if_pos (by simp), cstr_append_nul hs]

theorem findFrom_append (hs : ∀ b ∈ s, b ≠ 0) (hc : c ∉ s) (hc0 : c ≠ 0) (hrest : 0 ∈ rest)
    (hp : pre.length = p) :
    findFrom (pre ++ (s ++ c :: rest)) p c = some (some (p + s.length)) := by
  subst hp
  have htext : cstr (s ++ c :: rest) = s ++ c :: cstr rest := by
    have hs' : ∀ b ∈ s, (b != 0) = true := by simpa using hs
    rw [cstr, List.takeWhile_append_of_pos hs', List.takeWhile_cons_of_pos (by simpa using hc0)]
    rfl
  have hidx : (s ++ c :: cstr rest).findIdx? (· == c) = some s.length := by
    have hnone : s.findIdx? (· == c) = none := by
      apply List.findIdx?_eq_none_iff.mpr
      intro b hb
      have hbc : b ≠ c := fun h => hc (h ▸ hb)
      simpa using hbc
    rw [List.findIdx?_append, hnone]
    simp [List.findIdx?_cons]
  rw [findFrom, textAt, List.drop_left, if_pos (by simp [hrest]), htext, Option.map_some, hidx]
  rfl

theorem findFrom_append_none (hs : ∀ b ∈ s, b ≠ 0) (hc : c ∉ s) (hp : pre.length = p) :
    findFrom (pre ++ (s ++ 0 :: rest)) p c = some none := by
  have hnone : s.findIdx? (· == c) = none := by
    apply List.findIdx?_eq_none_iff.mpr
    intro b hb
    have hbc : b ≠ c := fun h => hc (h ▸ hb)
    simpa using hbc
  rw [findFrom, textAt_append hs hp, Option.map_some, hnone]
  rfl

theorem overwrite_append (hlen : bs.length = old.length) (hp : pre.length = p) :
    overwrite (pre ++ (old ++ rest)) p bs = some (pre ++ (bs ++ rest)) := by
  subst hp
  have hle : pre.length + bs.length ≤ (pre ++ (old ++ rest)).length := by
    rw [List.length_append, List.length_append]
    omega
  have hdrop : (pre ++ (old ++ rest)).drop (pre.length + bs.length) = rest := by
    rw [hlen, ← List.append_assoc, ← List.length_append, List.drop_left]
  rw [overwrite, if_pos hle, List.take_left, hdrop]

theorem overwrite_one {b : UInt8} (hp : pre.length + s.length = p) :
    overwrite (pre ++ (s ++ c :: rest)) p [b] = some (pre ++ (s ++ b :: rest)) := by
  have hfront : (pre ++ s).length = p := by
    rw [List.length_append]
    exact hp
  have hwrite : overwrite ((pre ++ s) ++ ([c] ++ rest)) p [b] =
      some ((pre ++ s) ++ ([b] ++ rest)) := overwrite_append rfl hfront
  rw [List.append_assoc, List.append_assoc, List.singleton_append, List.singleton_append] at hwrite
  exact hwrite

theorem getElem?_of_overwrite {buf' : List UInt8} (h : overwrite buf p [c] = some buf') :
    buf'[p]? = some c := by
  unfold overwrite at h
  split at h
  · rename_i hle
    rw [List.length_singleton] at hle
    rw [Option.some.injEq] at h
    subst h
    have hlen : (buf.take p).length = p := by
      rw [List.length_take]
      exact Nat.min_eq_left (by omega)
    rw [List.getElem?_append_right (Nat.le_of_eq hlen), hlen, Nat.sub_self]
    rfl
  · cases h

theorem overwrite_self (hp : pre.length = p) :
    overwrite (pre ++ (s ++ rest)) p s = some (pre ++ (s ++ rest)) :=
  overwrite_append rfl hp

end Access

section End

/-- A text with its `NUL` at place `L`, before the rest of the buffer. -/
def TextEnds (L : Nat) (rest buf : List UInt8) : Prop := buf.drop L = 0 :: rest

theorem textEnds_append (text rest : List UInt8) : TextEnds text.length rest (text ++ 0 :: rest) :=
  List.drop_left

theorem TextEnds.drop_eq (h : TextEnds L rest buf) (hp : p ≤ L) :
    buf.drop p = (buf.drop p).take (L - p) ++ 0 :: rest := by
  have hsplit := List.take_append_drop (L - p) (buf.drop p)
  rw [List.drop_drop, Nat.add_sub_cancel' hp, h] at hsplit
  exact hsplit.symm

theorem TextEnds.lt_length (h : TextEnds L rest buf) : L < buf.length := by
  have hlen := congrArg List.length h
  rw [List.length_drop, List.length_cons] at hlen
  omega

theorem TextEnds.eq_append (h : TextEnds L rest buf) :
    ∃ text, buf = text ++ 0 :: rest ∧ text.length = L := by
  refine ⟨buf.take L, ?_, ?_⟩
  · calc
      buf = buf.take L ++ buf.drop L := (List.take_append_drop L buf).symm
      _ = buf.take L ++ 0 :: rest := by rw [h]
  · rw [List.length_take]
    exact Nat.min_eq_left (Nat.le_of_lt h.lt_length)

theorem TextEnds.textAt (h : TextEnds L rest buf) (hp : p ≤ L) :
    ∃ s, textAt buf p = some s ∧ p + s.length ≤ L := by
  have hnul : 0 ∈ buf.drop p := by
    rw [h.drop_eq hp]
    simp
  refine ⟨cstr (buf.drop p), if_pos hnul, ?_⟩
  have hlen : (cstr (buf.drop p)).length ≤ L - p := by
    calc
      (cstr (buf.drop p)).length = (cstr ((buf.drop p).take (L - p))).length := by
        rw [h.drop_eq hp, cstr_append_zero, ← h.drop_eq hp]
      _ ≤ ((buf.drop p).take (L - p)).length := length_cstr_le _
      _ ≤ L - p := List.length_take_le _ _
  omega

theorem TextEnds.findFrom (h : TextEnds L rest buf) (hp : p ≤ L) (c : UInt8) :
    ∃ r, findFrom buf p c = some r ∧ ∀ e ∈ r, p ≤ e ∧ e < L := by
  obtain ⟨s, hs, hlen⟩ := h.textAt hp
  refine ⟨(s.findIdx? (· == c)).map (p + ·), by rw [Library.findFrom, hs]; rfl, ?_⟩
  intro e he
  obtain ⟨k, hk, rfl⟩ := Option.map_eq_some_iff.mp he
  have hlt : k < s.length := (List.findIdx?_eq_some_iff_findIdx_eq.mp hk).1
  omega

theorem TextEnds.getElem? (h : TextEnds L rest buf) (hp : p ≤ L) : ∃ b, buf[p]? = some b :=
  ⟨_, List.getElem?_eq_getElem (Nat.lt_of_le_of_lt hp h.lt_length)⟩

theorem TextEnds.getElem?_end (h : TextEnds L rest buf) : buf[L]? = some 0 := by
  have hzero := congrArg (·[0]?) h
  simpa [List.getElem?_drop] using hzero

theorem TextEnds.overwrite (h : TextEnds L rest buf) (hp : p + bs.length ≤ L) :
    ∃ buf', overwrite buf p bs = some buf' ∧ TextEnds L rest buf' := by
  have hlt := h.lt_length
  refine ⟨_, if_pos (Nat.le_trans hp (Nat.le_of_lt hlt)), ?_⟩
  have hfront : (buf.take p ++ bs).length = p + bs.length := by
    rw [List.length_append, List.length_take]
    omega
  rw [TextEnds, ← List.append_assoc, List.drop_append, hfront,
    List.drop_eq_nil_of_le (Nat.le_trans (Nat.le_of_eq hfront) hp), List.nil_append,
    List.drop_drop, Nat.add_sub_cancel' hp]
  exact h

theorem TextEnds.overwrite_nul (h : TextEnds L rest buf) (hp : p + bs.length ≤ L) :
    ∃ buf', Library.overwrite buf p (bs ++ [0]) = some buf' ∧ TextEnds L rest buf' := by
  rcases Nat.lt_or_eq_of_le hp with hlt | heq
  · apply h.overwrite
    rw [List.length_append, List.length_singleton]
    exact hlt
  · subst heq
    have hlt := h.lt_length
    have hlen : p + (bs ++ [0]).length ≤ buf.length := by
      rw [List.length_append, List.length_singleton]
      exact hlt
    have hfront : (buf.take p ++ bs).length = p + bs.length := by
      rw [List.length_append, List.length_take]
      omega
    have hrest : buf.drop (p + (bs ++ [0]).length) = rest := by
      rw [List.length_append, List.length_singleton, ← Nat.add_assoc, ← List.drop_drop, h]
      rfl
    refine ⟨_, if_pos hlen, ?_⟩
    rw [TextEnds, hrest, List.append_assoc, ← List.append_assoc, ← hfront, List.drop_left]
    rfl

theorem TextEnds.overwrite_zero (h : TextEnds L rest buf) (hp : p ≤ L) :
    ∃ buf', Library.overwrite buf p [0] = some buf' ∧ TextEnds L rest buf' ∧ buf'[p]? = some 0 := by
  have hnil : p + ([] : List UInt8).length ≤ L := hp
  obtain ⟨buf', hwrite, hends⟩ := h.overwrite_nul hnil
  exact ⟨buf', hwrite, hends, getElem?_of_overwrite hwrite⟩

end End

section Trim

/-- Neither the first nor the last character is a blank one. -/
def Trimmed (blank : UInt8 → Bool) (s : List UInt8) : Prop :=
  (∀ b ∈ s.head?, blank b = false) ∧ ∀ b ∈ s.getLast?, blank b = false

/-- The string from place `p` on without the blank characters at its ends, moved to `p`. -/
def trimAt (blank : UInt8 → Bool) (buf : List UInt8) (p : Nat) : Option (List UInt8) := do
  let text ← textAt buf p
  if text = [] then return buf
  overwrite buf p ((text.dropWhile blank).rdropWhile blank ++ [0])

/-- The string from place `p` on with another character in the place of each `src`. -/
def replaceAt (buf : List UInt8) (p : Nat) (src dst : UInt8) : Option (List UInt8) := do
  let text ← textAt buf p
  overwrite buf p (text.map fun b => if b = src then dst else b)

variable {blank : UInt8 → Bool} {src dst : UInt8}

theorem Trimmed.trim (h : Trimmed blank s) : (s.dropWhile blank).rdropWhile blank = s := by
  have hfirst : s.dropWhile blank = s := by
    cases s with
    | nil => rfl
    | cons b s => exact List.dropWhile_cons_of_neg (by simp [h.1 b rfl])
  rw [hfirst]
  apply List.rdropWhile_eq_self_iff.mpr
  intro hne
  simp [h.2 _ (List.getLast?_eq_some_getLast hne)]

theorem trimAt_append (hs : ∀ b ∈ s, b ≠ 0) (htrim : Trimmed blank s) (hp : pre.length = p) :
    trimAt blank (pre ++ (s ++ 0 :: rest)) p = some (pre ++ (s ++ 0 :: rest)) := by
  rw [trimAt, textAt_append hs hp, Option.bind_eq_bind, Option.bind_some, htrim.trim]
  split
  · rfl
  · have hself : overwrite (pre ++ ((s ++ [0]) ++ rest)) p (s ++ [0]) =
        some (pre ++ ((s ++ [0]) ++ rest)) := overwrite_self hp
    rw [List.append_assoc, List.singleton_append] at hself
    exact hself

theorem TextEnds.trimAt (h : TextEnds L rest buf) (hp : p ≤ L) (blank : UInt8 → Bool) :
    ∃ buf', trimAt blank buf p = some buf' ∧ TextEnds L rest buf' := by
  obtain ⟨text, htext, hlen⟩ := h.textAt hp
  rw [Library.trimAt, htext, Option.bind_eq_bind, Option.bind_some]
  split
  · exact ⟨buf, rfl, h⟩
  · apply h.overwrite_nul
    have hle : ((text.dropWhile blank).rdropWhile blank).length ≤ text.length := by
      calc
        ((text.dropWhile blank).rdropWhile blank).length ≤ (text.dropWhile blank).length :=
          (List.rdropWhile_prefix blank _).length_le
        _ ≤ text.length := (List.dropWhile_suffix blank).length_le
    omega

theorem replaceAt_append (hs : ∀ b ∈ s, b ≠ 0) (hsrc : src ∉ s) (hp : pre.length = p) :
    replaceAt (pre ++ (s ++ 0 :: rest)) p src dst = some (pre ++ (s ++ 0 :: rest)) := by
  have hmap : s.map (fun b => if b = src then dst else b) = s := by
    calc
      s.map (fun b => if b = src then dst else b) = s.map id := by
        apply List.map_congr_left
        intro b hb
        apply if_neg
        rintro rfl
        exact hsrc hb
      _ = s := List.map_id s
  rw [replaceAt, textAt_append hs hp, Option.bind_eq_bind, Option.bind_some, hmap]
  exact overwrite_self hp

theorem TextEnds.replaceAt (h : TextEnds L rest buf) (hp : p ≤ L) (src dst : UInt8) :
    ∃ buf', replaceAt buf p src dst = some buf' ∧ TextEnds L rest buf' := by
  obtain ⟨text, htext, hlen⟩ := h.textAt hp
  rw [Library.replaceAt, htext, Option.bind_eq_bind, Option.bind_some]
  apply h.overwrite
  rw [List.length_map]
  exact hlen

end Trim

end XrkMonitor.Library
