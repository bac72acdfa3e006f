import Mathlib.Data.List.Perm.Basic
import XrkMonitor.ServerLog.FileStat

/-!
# The size of all logs

A log server asks the others for the size of their applications' logs. Each answer is added
to the total in shared memory and may bring an older oldest log file. The total goes through a
`uint32_t`, and an entry without a size or without a time is passed over. Total
and oldest file are right exactly when the total stays below `2 ^ 32` and no entry that is passed
over would have counted.

## Implementation notes

`UserRemoteAppLogInfo` is read back from shared memory as it was written. The application table is
a map from ids. `stat` of an entry is `log_size` with the counts of the levels. The
oldest time and its application go through a reply as one pair.
-/

namespace XrkMonitor.ServerLog

/-- `AppLogSizeInfo`. -/
structure AppLogSizeInfo where
  appid : Int
  oldest_log_file_time : Nat
  stat : TLogStatInfo

def AppLogSizeInfo.log_size (e : AppLogSizeInfo) : Nat := e.stat .qwLogSizeInfo

/-- The oldest log file of an application, and the application. -/
def AppLogSizeInfo.oldest (e : AppLogSizeInfo) : Nat × Int := (e.oldest_log_file_time, e.appid)

/-- `SlogGetAppLogSizeRsp`. -/
structure SlogGetAppLogSizeRsp where
  req_app_count : Int
  app_log_size_info : List AppLogSizeInfo

/-- `UserRemoteAppLogInfo`. -/
structure UserRemoteAppLogInfo where
  next_check_log_space_time : Nat
  total_app_log_size : Nat
  tmp_remain_app_count : Int
  oldest_log_file_app_id : Int
  oldest_log_file_time : Nat

/-- The statistics of an application in `AppInfo`. -/
structure AppLogStat where
  stLogStatInfo : TLogStatInfo
  bReadLogStatInfo : Bool

/-- The shared memory that an answer is written to. -/
structure LogSizes where
  remote : UserRemoteAppLogInfo
  appInfo : Int → Option AppLogStat

/-- The variables of the loop: the total, the oldest time with its application, the table. -/
structure SizeLoop where
  qwTmpAppLogSize : Nat
  oldest : Nat × Int
  appInfo : Int → Option AppLogStat

section Operations

/-- The older one of two files, where time `0` is no file. -/
def older (p q : Nat × Int) : Nat × Int := if p.1 = 0 ∨ q.1 < p.1 then q else p

/-- The entry is passed over. -/
def AppLogSizeInfo.skipped (e : AppLogSizeInfo) : Bool :=
  e.log_size == 0 || e.oldest_log_file_time == 0

/-- One round of the loop. -/
def addAppLogSize (r : SizeLoop) (e : AppLogSizeInfo) : SizeLoop :=
  if e.skipped then r
  else
    match r.appInfo e.appid with
    | none => r
    | some _ =>
      { qwTmpAppLogSize := (r.qwTmpAppLogSize + e.log_size) % 2 ^ 32
        oldest := older r.oldest e.oldest
        appInfo := Function.update r.appInfo e.appid (some ⟨e.stat, true⟩) }

def dealGetAppLogSizeRsp (s : LogSizes) (rspinfo : SlogGetAppLogSizeRsp) : LogSizes :=
  let r := rspinfo.app_log_size_info.foldl addAppLogSize
    { qwTmpAppLogSize := s.remote.total_app_log_size % 2 ^ 32
      oldest := (s.remote.oldest_log_file_time, s.remote.oldest_log_file_app_id)
      appInfo := s.appInfo }
  { remote :=
      { s.remote with
        total_app_log_size := r.qwTmpAppLogSize
        tmp_remain_app_count := s.remote.tmp_remain_app_count - rspinfo.req_app_count
        oldest_log_file_app_id := r.oldest.2
        oldest_log_file_time := r.oldest.1 }
    appInfo := r.appInfo }

/-- A sequence of answers. -/
def dealAll (s : LogSizes) (rsps : List SlogGetAppLogSizeRsp) : LogSizes :=
  rsps.foldl dealGetAppLogSizeRsp s

end Operations

/-- The oldest file that is stored. -/
def LogSizes.oldest (s : LogSizes) : Nat × Int :=
  (s.remote.oldest_log_file_time, s.remote.oldest_log_file_app_id)

/-- The entries of a sequence of answers. -/
def entries (rsps : List SlogGetAppLogSizeRsp) : List AppLogSizeInfo :=
  rsps.flatMap SlogGetAppLogSizeRsp.app_log_size_info

/-- The entries that are not passed over. -/
def counted (es : List AppLogSizeInfo) : List AppLogSizeInfo := es.filter fun e => !e.skipped

def sizeSum (es : List AppLogSizeInfo) : Nat := (es.map AppLogSizeInfo.log_size).sum

/-- `p` is an oldest file of the list, or no file where the list has none. -/
def IsOldest (l : List (Nat × Int)) (p : Nat × Int) : Prop :=
  (p.1 = 0 ∧ ∀ q ∈ l, q.1 = 0) ∨ (p.1 ≠ 0 ∧ p ∈ l ∧ ∀ q ∈ l, q.1 ≠ 0 → p.1 ≤ q.1)

/-- The total is the exact sum, the oldest file is an oldest one, and neither depends on the order of
the answers. -/
def SizesOk (s : LogSizes) (rsps : List SlogGetAppLogSizeRsp) : Prop :=
  (dealAll s rsps).remote.total_app_log_size =
      s.remote.total_app_log_size + sizeSum (entries rsps) ∧
    IsOldest (s.oldest :: (entries rsps).map AppLogSizeInfo.oldest) (dealAll s rsps).oldest ∧
    ∀ rsps', rsps'.Perm rsps →
      (dealAll s rsps').remote.total_app_log_size = (dealAll s rsps).remote.total_app_log_size ∧
      (dealAll s rsps').oldest.1 = (dealAll s rsps).oldest.1

/-- The total fits 32 bits, an entry with a size has a time, and an entry that has a time only is not
older than the stored file and every counted one. -/
structure SizesFit (s : LogSizes) (rsps : List SlogGetAppLogSizeRsp) : Prop where
  total : rsps = [] ∨ s.remote.total_app_log_size + sizeSum (entries rsps) < 2 ^ 32
  time : ∀ e ∈ entries rsps, e.log_size ≠ 0 → e.oldest_log_file_time ≠ 0
  empty : ∀ e ∈ entries rsps, e.log_size = 0 → e.oldest_log_file_time ≠ 0 →
    ∃ q ∈ s.oldest :: (counted (entries rsps)).map AppLogSizeInfo.oldest,
      q.1 ≠ 0 ∧ q.1 ≤ e.oldest_log_file_time

section Oldest

variable {l : List (Nat × Int)} {p q : Nat × Int} {l' : List (Nat × Int)}

theorem isOldest_singleton (p : Nat × Int) : IsOldest [p] p := by
  by_cases hp : p.1 = 0
  · exact Or.inl ⟨hp, List.forall_mem_singleton.mpr hp⟩
  · exact Or.inr ⟨hp, List.mem_singleton_self p, List.forall_mem_singleton.mpr fun _ => Nat.le_refl _⟩

theorem IsOldest.older (h : IsOldest l p) (hq : q.1 ≠ 0) : IsOldest (l ++ [q]) (older p q) := by
  refine Or.inr ?_
  rw [ServerLog.older]
  obtain ⟨hp, hzero⟩ | ⟨hp, hmem, hle⟩ := h
  · rw [if_pos (Or.inl hp)]
    refine ⟨hq, List.mem_append_right _ (List.mem_singleton_self q), ?_⟩
    intro x hx hx0
    rcases List.mem_append.mp hx with hx | hx
    · exact absurd (hzero x hx) hx0
    · rw [List.mem_singleton.mp hx]
  · by_cases hlt : q.1 < p.1
    · rw [if_pos (Or.inr hlt)]
      refine ⟨hq, List.mem_append_right _ (List.mem_singleton_self q), ?_⟩
      intro x hx hx0
      rcases List.mem_append.mp hx with hx | hx
      · exact Nat.le_trans (Nat.le_of_lt hlt) (hle x hx hx0)
      · rw [List.mem_singleton.mp hx]
    · rw [if_neg (not_or.mpr ⟨hp, hlt⟩)]
      refine ⟨hp, List.mem_append_left _ hmem, ?_⟩
      intro x hx hx0
      rcases List.mem_append.mp hx with hx | hx
      · exact hle x hx hx0
      · rw [List.mem_singleton.mp hx]
        exact Nat.not_lt.mp hlt

theorem IsOldest.time_eq (h : IsOldest l p) (h' : IsOldest l' q)
    (hl : ∀ x, x ∈ l ↔ x ∈ l') : p.1 = q.1 := by
  obtain ⟨hp, hzero⟩ | ⟨hp, hmem, hle⟩ := h
  · obtain ⟨hq, -⟩ | ⟨hq, hmem', -⟩ := h'
    · exact hp.trans hq.symm
    · exact absurd (hzero q ((hl q).mpr hmem')) hq
  · obtain ⟨-, hzero'⟩ | ⟨hq, hmem', hle'⟩ := h'
    · exact absurd (hzero' p ((hl p).mp hmem)) hp
    · exact Nat.le_antisymm (hle q ((hl q).mpr hmem') hq) (hle' p ((hl p).mp hmem) hp)

theorem IsOldest.iff_of_subset (h : IsOldest l p) (hl : ∀ x ∈ l, x ∈ l') :
    IsOldest l' p ↔ ∀ x ∈ l', x.1 ≠ 0 → ∃ y ∈ l, y.1 ≠ 0 ∧ y.1 ≤ x.1 := by
  obtain ⟨hp, hzero⟩ | ⟨hp, hmem, hle⟩ := h
  · constructor
    · rintro (⟨-, hzero'⟩ | ⟨hp', -⟩) x hx hx0
      · exact absurd (hzero' x hx) hx0
      · exact absurd hp hp'
    · intro hall
      refine Or.inl ⟨hp, ?_⟩
      intro x hx
      by_contra hx0
      obtain ⟨y, hy, hy0, -⟩ := hall x hx hx0
      exact hy0 (hzero y hy)
  · constructor
    · rintro (⟨hp', -⟩ | ⟨-, -, hle'⟩) x hx hx0
      · exact absurd hp' hp
      · exact ⟨p, hmem, hp, hle' x hx hx0⟩
    · intro hall
      refine Or.inr ⟨hp, hl p hmem, ?_⟩
      intro x hx hx0
      obtain ⟨y, hy, hy0, hyx⟩ := hall x hx hx0
      exact Nat.le_trans (hle y hy hy0) hyx

end Oldest

section Loop

theorem counted_append (es es' : List AppLogSizeInfo) :
    counted (es ++ es') = counted es ++ counted es' :=
  List.filter_append _ _

theorem sizeSum_append (es es' : List AppLogSizeInfo) :
    sizeSum (es ++ es') = sizeSum es + sizeSum es' := by
  rw [sizeSum, List.map_append, List.sum_append]
  rfl

theorem AppLogSizeInfo.skipped_eq_true_iff (e : AppLogSizeInfo) :
    e.skipped = true ↔ e.log_size = 0 ∨ e.oldest_log_file_time = 0 := by
  rw [skipped, Bool.or_eq_true, beq_iff_eq, beq_iff_eq]

/-- What the entries do to the loop's variables. -/
structure LoopOk (r : SizeLoop) (es : List AppLogSizeInfo) (r' : SizeLoop) : Prop where
  total : r'.qwTmpAppLogSize = (r.qwTmpAppLogSize + sizeSum (counted es)) % 2 ^ 32
  known : ∀ i, (r'.appInfo i).isSome = (r.appInfo i).isSome
  oldest : ∀ l, IsOldest l r.oldest →
    IsOldest (l ++ (counted es).map AppLogSizeInfo.oldest) r'.oldest

variable {r : SizeLoop}

theorem LoopOk.refl (h : r.qwTmpAppLogSize < 2 ^ 32) {es : List AppLogSizeInfo}
    (hes : counted es = []) : LoopOk r es r where
  total := by rw [hes]; exact (Nat.mod_eq_of_lt h).symm
  known := fun _ => rfl
  oldest := by
    intro l hl
    rw [hes, List.map_nil, List.append_nil]
    exact hl

theorem LoopOk.trans {r r' r'' : SizeLoop} {es es' : List AppLogSizeInfo} (h : LoopOk r es r')
    (h' : LoopOk r' es' r'') : LoopOk r (es ++ es') r'' where
  total := by
    rw [h'.total, h.total, counted_append, sizeSum_append, Nat.mod_add_mod, Nat.add_assoc]
  known := fun i => (h'.known i).trans (h.known i)
  oldest := by
    intro l hl
    rw [counted_append, List.map_append, ← List.append_assoc]
    exact h'.oldest _ (h.oldest l hl)

theorem loopOk_addAppLogSize (h : r.qwTmpAppLogSize < 2 ^ 32) (e : AppLogSizeInfo)
    (hknown : (r.appInfo e.appid).isSome) : LoopOk r [e] (addAppLogSize r e) := by
  by_cases hskip : e.skipped
  · rw [addAppLogSize, if_pos hskip]
    refine LoopOk.refl h ?_
    rw [counted, List.filter_singleton, hskip]
    rfl
  · have hcounted : counted [e] = [e] := by
      rw [counted, List.filter_singleton, Bool.not_eq_true _ |>.mp hskip]
      rfl
    obtain ⟨a, ha⟩ := Option.isSome_iff_exists.mp hknown
    rw [addAppLogSize, if_neg hskip, ha]
    refine ⟨?_, ?_, ?_⟩
    · rw [hcounted, sizeSum, List.map_singleton, List.sum_singleton]
    · intro i
      by_cases hi : i = e.appid
      · rw [hi, ha]
        change (Function.update r.appInfo _ _ _).isSome = _
        rw [Function.update_self]
        rfl
      · exact congrArg Option.isSome (Function.update_of_ne hi _ _)
    · intro l hl
      rw [hcounted]
      refine hl.older ?_
      exact (not_or.mp (mt e.skipped_eq_true_iff.mpr hskip)).2

theorem loopOk_foldl (es : List AppLogSizeInfo) (h : r.qwTmpAppLogSize < 2 ^ 32)
    (hknown : ∀ e ∈ es, (r.appInfo e.appid).isSome) :
    LoopOk r es (es.foldl addAppLogSize r) := by
  induction es generalizing r with
  | nil => exact LoopOk.refl h rfl
  | cons e es ih =>
    obtain ⟨hfirst, hrest⟩ := List.forall_mem_cons.mp hknown
    have hstep := loopOk_addAppLogSize h e hfirst
    have hlt : (addAppLogSize r e).qwTmpAppLogSize < 2 ^ 32 := by
      rw [hstep.total]
      exact Nat.mod_lt _ (by decide)
    refine hstep.trans (ih hlt ?_)
    intro e' he'
    rw [hstep.known]
    exact hrest e' he'

end Loop

section Answers

variable {s : LogSizes} {rsps : List SlogGetAppLogSizeRsp} {s' : LogSizes}

/-- What a sequence of answers does to shared memory. -/
structure AnswersOk (s : LogSizes) (rsps : List SlogGetAppLogSizeRsp) (s' : LogSizes) : Prop where
  total : s'.remote.total_app_log_size = if rsps = [] then s.remote.total_app_log_size
    else (s.remote.total_app_log_size + sizeSum (counted (entries rsps))) % 2 ^ 32
  known : ∀ i, (s'.appInfo i).isSome = (s.appInfo i).isSome
  oldest : ∀ l, IsOldest l s.oldest →
    IsOldest (l ++ (counted (entries rsps)).map AppLogSizeInfo.oldest) s'.oldest

theorem answersOk_deal (rspinfo : SlogGetAppLogSizeRsp)
    (hknown : ∀ e ∈ rspinfo.app_log_size_info, (s.appInfo e.appid).isSome) :
    AnswersOk s [rspinfo] (dealGetAppLogSizeRsp s rspinfo) := by
  have hloop := loopOk_foldl rspinfo.app_log_size_info
    (r := ⟨s.remote.total_app_log_size % 2 ^ 32, s.oldest, s.appInfo⟩)
    (Nat.mod_lt _ (by decide)) hknown
  have hentries : entries [rspinfo] = rspinfo.app_log_size_info := by
    rw [entries, List.flatMap_singleton]
  refine ⟨?_, hloop.known, ?_⟩
  · rw [if_neg (List.cons_ne_nil _ _), hentries]
    exact hloop.total.trans (Nat.mod_add_mod _ _ _)
  · rw [hentries]
    exact hloop.oldest

theorem answersOk_dealAll (rsps : List SlogGetAppLogSizeRsp) {s : LogSizes}
    (hknown : ∀ e ∈ entries rsps, (s.appInfo e.appid).isSome) :
    AnswersOk s rsps (dealAll s rsps) := by
  induction rsps generalizing s with
  | nil =>
    refine ⟨(if_pos rfl).symm, fun _ => rfl, ?_⟩
    intro l hl
    exact (List.append_nil l).symm ▸ hl
  | cons rsp rsps ih =>
    have hentries : entries (rsp :: rsps) = rsp.app_log_size_info ++ entries rsps :=
      List.flatMap_cons
    rw [hentries, List.forall_mem_append] at hknown
    have hstep := answersOk_deal rsp hknown.1
    have hrest := ih (s := dealGetAppLogSizeRsp s rsp) fun e he =>
      (hstep.known e.appid).trans (hknown.2 e he)
    have hone : entries [rsp] = rsp.app_log_size_info := by
      rw [entries, List.flatMap_singleton]
    refine ⟨?_, fun i => (hrest.known i).trans (hstep.known i), ?_⟩
    · have htotal := hstep.total
      rw [if_neg (List.cons_ne_nil _ _), hone] at htotal
      rw [if_neg (List.cons_ne_nil _ _), hentries, counted_append, sizeSum_append,
        ← Nat.add_assoc]
      refine hrest.total.trans ?_
      by_cases hnil : rsps = []
      · rw [if_pos hnil, htotal, hnil]
        rfl
      · rw [if_neg hnil, htotal, Nat.mod_add_mod]
    · intro l hl
      rw [hentries, counted_append, List.map_append, ← List.append_assoc]
      refine hrest.oldest _ ?_
      rw [← hone]
      exact hstep.oldest l hl

theorem sizeSum_counted_eq_iff (es : List AppLogSizeInfo) :
    sizeSum (counted es) ≤ sizeSum es ∧
      (sizeSum (counted es) = sizeSum es ↔
        ∀ e ∈ es, e.log_size ≠ 0 → e.oldest_log_file_time ≠ 0) := by
  induction es with
  | nil => exact ⟨Nat.le_refl _, iff_of_true rfl (List.forall_mem_nil _)⟩
  | cons e es ih =>
    obtain ⟨hle, hiff⟩ := ih
    have hsum : sizeSum (e :: es) = e.log_size + sizeSum es := List.sum_cons
    by_cases hskip : e.skipped
    · have hcounted : counted (e :: es) = counted es :=
        List.filter_cons_of_neg (by simp [hskip])
      have hzero := e.skipped_eq_true_iff.mp hskip
      rw [hcounted, hsum, List.forall_mem_cons, ← hiff]
      omega
    · have hcounted : counted (e :: es) = e :: counted es :=
        List.filter_cons_of_pos (by simp [hskip])
      have hzero := not_or.mp (mt e.skipped_eq_true_iff.mpr hskip)
      have hsum' : sizeSum (e :: counted es) = e.log_size + sizeSum (counted es) := List.sum_cons
      rw [hcounted, hsum, hsum', List.forall_mem_cons, ← hiff]
      omega

theorem AnswersOk.isOldest (h : AnswersOk s rsps s') :
    IsOldest (s.oldest :: (counted (entries rsps)).map AppLogSizeInfo.oldest) s'.oldest :=
  h.oldest [s.oldest] (isOldest_singleton _)

theorem AnswersOk.total_iff (h : AnswersOk s rsps s') :
    s'.remote.total_app_log_size = s.remote.total_app_log_size + sizeSum (entries rsps) ↔
      (rsps = [] ∨ s.remote.total_app_log_size + sizeSum (entries rsps) < 2 ^ 32) ∧
        ∀ e ∈ entries rsps, e.log_size ≠ 0 → e.oldest_log_file_time ≠ 0 := by
  obtain ⟨hle, hiff⟩ := sizeSum_counted_eq_iff (entries rsps)
  rw [h.total, ← hiff]
  by_cases hnil : rsps = []
  · subst hnil
    exact iff_of_true rfl ⟨Or.inl rfl, rfl⟩
  · have hmod := Nat.mod_lt
      (s.remote.total_app_log_size + sizeSum (counted (entries rsps))) (Nat.two_pow_pos 32)
    rw [if_neg hnil, or_iff_right hnil]
    omega

theorem AnswersOk.isOldest_iff (h : AnswersOk s rsps s') :
    IsOldest (s.oldest :: (entries rsps).map AppLogSizeInfo.oldest) s'.oldest ↔
      ∀ e ∈ entries rsps, e.log_size = 0 → e.oldest_log_file_time ≠ 0 →
        ∃ q ∈ s.oldest :: (counted (entries rsps)).map AppLogSizeInfo.oldest,
          q.1 ≠ 0 ∧ q.1 ≤ e.oldest_log_file_time := by
  have hsub : ∀ x ∈ s.oldest :: (counted (entries rsps)).map AppLogSizeInfo.oldest,
      x ∈ s.oldest :: (entries rsps).map AppLogSizeInfo.oldest :=
    List.cons_subset_cons _ (List.map_subset _ fun _ he => (List.mem_filter.mp he).1)
  rw [h.isOldest.iff_of_subset hsub, List.forall_mem_cons, List.forall_mem_map]
  constructor
  · rintro ⟨-, hall⟩ e he - htime
    exact hall e he htime
  · intro hempty
    refine ⟨fun hprev => ⟨_, List.mem_cons_self, hprev, Nat.le_refl _⟩, ?_⟩
    intro e he htime
    by_cases hsize : e.log_size = 0
    · exact hempty e he hsize htime
    · have hcounted : e ∈ counted (entries rsps) := by
        refine List.mem_filter.mpr ⟨he, ?_⟩
        rw [Bool.not_eq_true', Bool.eq_false_iff]
        exact mt e.skipped_eq_true_iff.mp (not_or.mpr ⟨hsize, htime⟩)
      exact ⟨e.oldest, List.mem_cons_of_mem _ (List.mem_map_of_mem hcounted), htime,
        Nat.le_refl _⟩

theorem AnswersOk.of_perm {rsps' : List SlogGetAppLogSizeRsp} {s' s'' : LogSizes}
    (hperm : rsps'.Perm rsps) (h : AnswersOk s rsps s') (h' : AnswersOk s rsps' s'') :
    s''.remote.total_app_log_size = s'.remote.total_app_log_size ∧
      s''.oldest.1 = s'.oldest.1 := by
  have hentries : (counted (entries rsps')).Perm (counted (entries rsps)) :=
    (hperm.flatMap_right _).filter _
  constructor
  · have hnil : rsps' = [] ↔ rsps = [] := by
      rw [← List.length_eq_zero_iff, hperm.length_eq, List.length_eq_zero_iff]
    have hsum : sizeSum (counted (entries rsps')) = sizeSum (counted (entries rsps)) :=
      (hentries.map _).sum_eq
    rw [h'.total, h.total, hsum]
    simp only [hnil]
  · refine h'.isOldest.time_eq h.isOldest ?_
    intro x
    exact ((hentries.map _).cons _).mem_iff

/-- For every sequence of answers about known applications: total and oldest file are exact and
independent of the order exactly when the total fits 32 bits and no entry that is passed over would
have counted. -/
theorem sizesOk_iff (hknown : ∀ e ∈ entries rsps, (s.appInfo e.appid).isSome) :
    SizesOk s rsps ↔ SizesFit s rsps := by
  have hall := answersOk_dealAll rsps hknown
  have horder : ∀ rsps', rsps'.Perm rsps →
      (dealAll s rsps').remote.total_app_log_size = (dealAll s rsps).remote.total_app_log_size ∧
      (dealAll s rsps').oldest.1 = (dealAll s rsps).oldest.1 := by
    intro rsps' hperm
    refine hall.of_perm hperm (answersOk_dealAll rsps' ?_)
    intro e he
    exact hknown e ((hperm.flatMap_right _).mem_iff.mp he)
  rw [SizesOk, hall.total_iff, hall.isOldest_iff, and_iff_left horder]
  constructor
  · rintro ⟨⟨htotal, htime⟩, hempty⟩
    exact ⟨htotal, htime, hempty⟩
  · intro h
    exact ⟨⟨h.total, h.time⟩, h.empty⟩

end Answers

/-- Nothing is stored, and every application is known. -/
def emptySizes : LogSizes where
  remote := ⟨0, 0, 0, 0, 0⟩
  appInfo := fun _ => some ⟨fun _ => 0, false⟩

/-- An answer with the size and the time of one application. -/
def oneSize (appid : Int) (log_size oldest_log_file_time : Nat) : SlogGetAppLogSizeRsp where
  req_app_count := 1
  app_log_size_info :=
    [{ appid := appid
       oldest_log_file_time := oldest_log_file_time
       stat := fun f => if f = .qwLogSizeInfo then log_size else 0 }]

theorem sizesOk_small :
    SizesOk emptySizes [oneSize 3 4096 1700000000, oneSize 5 1024 1600000000] :=
  (sizesOk_iff (fun _ _ => rfl)).mpr ⟨Or.inr (by decide), by decide, by decide⟩

/-- Two applications with 3 GiB of logs each: the stored total is 2 GiB. -/
theorem sizes_truncated :
    let rsps := [oneSize 3 3221225472 1700000000, oneSize 5 3221225472 1600000000]
    ¬ SizesOk emptySizes rsps ∧ (dealAll emptySizes rsps).remote.total_app_log_size = 2147483648 := by
  refine ⟨?_, by decide⟩
  rintro ⟨h, -⟩
  exact absurd h (by decide)

end XrkMonitor.ServerLog
