import XrkMonitor.Browser.Conservation

/-!
# The delay timer of the browser API

`last_delay_timer_id` says that a request will be tried again later. As long as the
number belongs to a timer that is going to fire, a response that never comes stops
the reports only until the request has timed out.

## Implementation notes

`StepOk` leaves out the two kinds of steps after which the number belongs to no such
timer: a limit of attributes that is reached while a timer waits for a response,
where the timer is cancelled and its number stays, and a request that the frequency
check refuses, whose callback throws. `Scheduled` is what holds of the timers alone
and is kept by every step.
-/

namespace XrkMonitor.Browser

open Library

/-- A limit of attributes or of strings is reached by the event. -/
def Event.reachesLimit (s : Xrk) : Event → Bool
  | .attr opr id number _ =>
    number ≠ 0 && (changeAttr opr id number s.attrs).isNone &&
      max_attrs_per_req ≤ s.attrs.length + 1
  | .strattr opr id string number _ =>
    number ≠ 0 && (changeStrattr opr id string number s.strattrs).2 &&
      max_strattrs_strlen ≤ s.cur_strattrs_strlen + (string.take 50).length
  | _ => false

/-- The request of the last timer is taken for lost at this time. -/
def Xrk.timedOut (s : Xrk) (check : Clock) : Bool :=
  0 < s.request_start_time && s.request_start_time + request_timeout_ms ≤ check.1

/-- When the event comes to the part of `_report_to_server` that sends. -/
def Event.sendsAt (s : Xrk) (e : Event) : Option Clock :=
  match e with
  | .attr _ _ _ now => if e.reachesLimit s && s.last_req_seq = 0 then some now else none
  | .strattr _ _ _ _ now => if e.reachesLimit s && s.last_req_seq = 0 then some now else none
  | .log _ msg _ now =>
    if s.log_config_id ≠ 0 && max_logs_strlen ≤ s.cur_logs_strlen + msg.length &&
      s.last_req_seq = 0 then some now else none
  | .reportToServer delay now =>
    if s.report_url ≠ [] && (∀ d ∈ delay, d ≤ 0) && s.last_req_seq = 0 then some now else none
  | .fire id check now =>
    match s.timers.find? fun t => t.id = id with
    | none => none
    | some t =>
      match t.callback with
      | .delay => if s.timedOut check || s.last_req_seq = 0 then some now else none
      | .frequency => none
      | .periodic => if s.report_url ≠ [] && s.last_req_seq = 0 then some now else none
  | _ => none

/-- No limit is reached while a timer waits for a response, and no request is refused. -/
def StepOk (s : Xrk) (e : Event) : Prop :=
  (e.reachesLimit s → s.last_req_seq = 0 ∨ s.last_delay_timer_id = 0) ∧
    ∀ now ∈ e.sendsAt s, (s.toData.record e).needReport → s.hasJSON → s.refuses now = false

instance StepOk.decidable (s : Xrk) (e : Event) : Decidable (StepOk s e) :=
  inferInstanceAs (Decidable (_ ∧ _))

/-- The number that is kept belongs to a timer that will fire, and its callback does not keep it. -/
def Xrk.TimerOk (s : Xrk) : Prop :=
  s.last_delay_timer_id ≠ 0 →
    ∃ t ∈ s.timers, t.id = s.last_delay_timer_id ∧
      ∀ check now, (s.fire t.id check now).last_delay_timer_id ≠ t.id

/-- A delay timer waits whose callback, once the request has timed out, forgets the request: what
waits is handed to `send` if the frequency check lets it pass, and the next call can send if not or
if nothing waits. Before that time the callback starts the next such timer. -/
def Xrk.Recovers (s : Xrk) : Prop :=
  ⟨s.last_delay_timer_id, .delay⟩ ∈ s.timers ∧
    ∀ check now,
      (s.request_start_time + request_timeout_ms ≤ check.1 →
        ((s.needReport && s.hasJSON) = true → s.refuses now = false → ∃ req_seq,
          (s.fire s.last_delay_timer_id check now).toData = s.handOver req_seq) ∧
        ((s.needReport && s.hasJSON) = true → s.refuses now = true →
          (s.fire s.last_delay_timer_id check now).last_req_seq = 0) ∧
        ((s.needReport && s.hasJSON) = false →
          (s.fire s.last_delay_timer_id check now).last_req_seq = 0 ∧
          (s.fire s.last_delay_timer_id check now).last_delay_timer_id = 0)) ∧
      (check.1 < s.request_start_time + request_timeout_ms →
        ⟨(s.fire s.last_delay_timer_id check now).last_delay_timer_id, .delay⟩ ∈
            (s.fire s.last_delay_timer_id check now).timers ∧
          (s.fire s.last_delay_timer_id check now).last_req_seq = s.last_req_seq ∧
          (s.fire s.last_delay_timer_id check now).request_start_time = s.request_start_time)

/-- What holds of the timers whatever number is kept. -/
structure Xrk.Scheduled (s : Xrk) : Prop where
  fresh : ∀ t ∈ s.timers, t.id < s.nextTimer
  nodup : (s.timers.map Timer.id).Nodup
  next : 0 < s.nextTimer
  started : s.last_req_seq ≠ 0 → 0 < s.request_start_time

/-- And the number that is kept belongs to a delay timer. -/
structure Xrk.Inv (s : Xrk) : Prop extends s.Scheduled where
  kept : s.last_delay_timer_id ≠ 0 → ⟨s.last_delay_timer_id, .delay⟩ ∈ s.timers

section Ops

variable {s : Xrk} {now : Clock}

theorem Xrk.Scheduled.inv (h : s.Scheduled) (hzero : s.last_delay_timer_id = 0) : s.Inv :=
  ⟨h, fun hne => absurd hzero hne⟩

theorem Xrk.Scheduled.setTimeout (h : s.Scheduled) (callback : Callback) :
    (s.setTimeout callback).Scheduled := by
  refine ⟨?_, ?_, Nat.succ_pos _, h.started⟩
  · intro t ht
    rcases List.mem_append.mp ht with ht | ht
    · exact Nat.lt_succ_of_lt (h.fresh t ht)
    · rw [List.mem_singleton.mp ht]
      exact Nat.lt_succ_self _
  · change ((s.timers ++ [_]).map Timer.id).Nodup
    rw [List.map_append]
    refine h.nodup.append (List.nodup_singleton _) (List.disjoint_singleton.mpr ?_)
    intro hmem
    obtain ⟨t, ht, hid⟩ := List.mem_map.mp hmem
    exact Nat.lt_irrefl _ (hid ▸ h.fresh t ht)

theorem Xrk.Inv.setTimeout (h : s.Inv) (callback : Callback) : (s.setTimeout callback).Inv := by
  refine ⟨h.toScheduled.setTimeout callback, ?_⟩
  intro hne
  exact List.mem_append_left _ (h.kept hne)

theorem Xrk.Inv.setDelayTimer (h : s.Inv) : (s.setDelayTimer .delay).Inv := by
  obtain ⟨hfresh, hnodup, hnext, hstarted⟩ := h.toScheduled.setTimeout .delay
  exact ⟨⟨hfresh, hnodup, hnext, hstarted⟩,
    fun _ => List.mem_append_right _ (List.mem_singleton_self _)⟩

theorem Xrk.Scheduled.clearTimeout (h : s.Scheduled) (id : Nat) : (s.clearTimeout id).Scheduled := by
  refine ⟨?_, ?_, h.next, h.started⟩
  · intro t ht
    exact h.fresh t (List.mem_filter.mp ht).1
  · exact h.nodup.sublist (List.filter_sublist.map Timer.id)

theorem Xrk.Scheduled.clearDelayTimer (h : s.Scheduled) : s.clearDelayTimer.Inv := by
  unfold Xrk.clearDelayTimer
  split
  · obtain ⟨hfresh, hnodup, hnext, hstarted⟩ := h.clearTimeout s.last_delay_timer_id
    exact Xrk.Scheduled.inv ⟨hfresh, hnodup, hnext, hstarted⟩ rfl
  · rename_i hzero
    exact h.inv (not_not.mp hzero)

theorem Xrk.clearDelayTimer_zero (s : Xrk) : s.clearDelayTimer.last_delay_timer_id = 0 := by
  unfold Xrk.clearDelayTimer
  split
  · rfl
  · rename_i hzero
    exact not_not.mp hzero

theorem Xrk.clearDelayTimer_seq (s : Xrk) : s.clearDelayTimer.last_req_seq = s.last_req_seq := by
  unfold Xrk.clearDelayTimer
  split <;> rfl

theorem Xrk.Scheduled.quiet (h : s.Scheduled) : s.quiet.Inv := by
  obtain ⟨⟨hfresh, hnodup, hnext, hstarted⟩, -⟩ := h.clearDelayTimer
  exact Xrk.Scheduled.inv ⟨hfresh, hnodup, hnext, hstarted⟩ s.clearDelayTimer_zero

theorem Xrk.Scheduled.handed (h : s.Scheduled) : (s.handed now).Inv := by
  have hquiet := h.quiet
  unfold Xrk.handed Xrk.countRequest
  split
  · exact Xrk.Scheduled.inv ⟨hquiet.fresh, hquiet.nodup, hquiet.next, fun _ => now.2⟩
      s.clearDelayTimer_zero
  · exact Xrk.Scheduled.inv ⟨hquiet.fresh, hquiet.nodup, hquiet.next, fun _ => now.2⟩
      s.clearDelayTimer_zero

/-- A request from this state, if there is one, passes the frequency check. -/
def Xrk.SendOk (s : Xrk) (now : Clock) : Prop :=
  s.needReport → s.hasJSON → s.refuses now = false

theorem Xrk.Scheduled.sendReports (h : s.Scheduled) (hok : s.SendOk now) :
    (s.sendReports now).Inv := by
  rw [Xrk.sendReports_eq]
  split
  · rename_i hneed
    rw [Bool.and_eq_true] at hneed
    rw [if_neg (ne_true_of_eq_false (hok hneed.1 hneed.2))]
    exact h.handed
  · exact h.quiet

theorem Xrk.Scheduled.reportToServer' (h : s.Scheduled) (hwaits : s.last_req_seq ≠ 0 → s.Inv)
    (hok : s.last_req_seq = 0 → s.SendOk now) : (s.reportToServer' false now).Inv := by
  unfold Xrk.reportToServer'
  by_cases hseq : s.last_req_seq = 0
  · rw [if_neg (by simp [hseq])]
    exact h.sendReports (hok hseq)
  · rw [if_pos (Or.inr hseq)]
    split
    · exact (hwaits hseq).setDelayTimer
    · exact hwaits hseq

theorem Xrk.Inv.flush (h : s.Inv) (hlimit : s.last_req_seq = 0 ∨ s.last_delay_timer_id = 0)
    (hok : s.last_req_seq = 0 → s.SendOk now) :
    (s.clearTimeoutOnly.reportToServer' false now).Inv := by
  by_cases hzero : s.last_delay_timer_id = 0
  · have hsame : s.clearTimeoutOnly = s := if_neg (not_not.mpr hzero)
    rw [hsame]
    exact h.toScheduled.reportToServer' (fun _ => h) hok
  · have hclear : s.clearTimeoutOnly = s.clearTimeout s.last_delay_timer_id := if_pos hzero
    have hseq := hlimit.resolve_right hzero
    rw [hclear]
    exact (h.toScheduled.clearTimeout _).reportToServer' (fun hne => absurd hseq hne) fun _ => hok hseq

theorem Xrk.SendOk.clearDelayTimer (hok : s.SendOk now) : s.clearDelayTimer.SendOk now := by
  intro hneed hjson
  unfold Xrk.clearDelayTimer at hneed hjson ⊢
  split at hneed
  · rename_i hne
    rw [if_pos hne] at hjson ⊢
    exact hok hneed hjson
  · rename_i hzero
    rw [if_neg hzero] at hjson ⊢
    exact hok hneed hjson

theorem Xrk.Scheduled.retry (h : s.Scheduled) (hok : s.last_req_seq = 0 → s.SendOk now) :
    (s.clearDelayTimer.reportToServer' false now).Inv := by
  refine h.clearDelayTimer.toScheduled.reportToServer' (fun _ => h.clearDelayTimer) ?_
  intro hseq
  rw [s.clearDelayTimer_seq] at hseq
  exact (hok hseq).clearDelayTimer

theorem Xrk.Inv.reportToServer (h : s.Inv) {delay : Option Int}
    (hok : s.report_url ≠ [] → (∀ d ∈ delay, d ≤ 0) → s.last_req_seq = 0 → s.SendOk now) :
    (s.reportToServer delay now).Inv := by
  unfold Xrk.reportToServer
  split
  · exact h
  · rename_i hurl
    split
    · rename_i hsend
      exact h.toScheduled.retry fun hseq => hok hurl hsend.1 hseq
    · split
      · exact h
      · rename_i hzero
        have hset : s.reportToServer' true now = s.setDelayTimer .delay := by
          rw [Xrk.reportToServer', if_pos (Or.inl rfl), if_pos (not_not.mp hzero)]
        rw [hset]
        exact h.setDelayTimer

theorem Xrk.Scheduled.eq_of_id (h : s.Scheduled) {t t' : Timer} (ht : t ∈ s.timers)
    (ht' : t' ∈ s.timers) (hid : t.id = t'.id) : t = t' :=
  List.inj_on_of_nodup_map h.nodup ht ht' hid

theorem Xrk.Inv.clearTimeout (h : s.Inv) {t : Timer} (ht : t ∈ s.timers)
    (hcallback : t.callback ≠ .delay) : (s.clearTimeout t.id).Inv := by
  refine ⟨h.toScheduled.clearTimeout t.id, ?_⟩
  intro hne
  have hkept := h.kept hne
  refine List.mem_filter.mpr ⟨hkept, ?_⟩
  simp only [decide_not, Bool.not_eq_true', decide_eq_false_iff_not]
  intro hid
  have heq := h.toScheduled.eq_of_id hkept ht hid
  exact hcallback (heq ▸ rfl)

theorem Xrk.Scheduled.onDelayTimer (h : s.Scheduled) {check : Clock}
    (hok : s.timedOut check || s.last_req_seq = 0 → s.SendOk now) : (s.onDelayTimer check now).Inv := by
  unfold Xrk.onDelayTimer
  dsimp only
  split
  · rename_i htimeout
    have hout : (s.timedOut check || s.last_req_seq = 0) = true := by
      rw [Xrk.timedOut, decide_eq_true htimeout.1, decide_eq_true htimeout.2]
      rfl
    have hscheduled : Xrk.Scheduled { s with last_delay_timer_id := 0, last_req_seq := 0 } :=
      ⟨h.fresh, h.nodup, h.next, fun hne => absurd rfl hne⟩
    exact hscheduled.reportToServer' (fun hne => absurd rfl hne) fun _ => hok hout
  · have hscheduled : Xrk.Scheduled { s with last_delay_timer_id := 0 } :=
      ⟨h.fresh, h.nodup, h.next, h.started⟩
    refine hscheduled.reportToServer' (fun _ => hscheduled.inv rfl) ?_
    intro hseq
    have hseq : s.last_req_seq = 0 := hseq
    exact hok (by rw [decide_eq_true hseq, Bool.or_true])

end Ops

section Steps

variable {s : Xrk}

theorem Xrk.Inv.fire (h : s.Inv) {id : Nat} {check now : Clock}
    (hok : StepOk s (.fire id check now)) : (s.fire id check now).Inv := by
  have hsend := hok.2 now
  unfold Xrk.fire
  simp only [Event.sendsAt] at hsend
  split
  · exact h
  · rename_i t hfind
    have ht : t ∈ s.timers := List.mem_of_find?_eq_some hfind
    have hid : t.id = id := by
      have hsome := List.find?_some hfind
      exact of_decide_eq_true hsome
    subst hid
    rw [hfind] at hsend
    dsimp only at hsend
    split
    · rename_i hcallback
      rw [hcallback] at hsend
      refine (h.toScheduled.clearTimeout t.id).onDelayTimer ?_
      intro hout
      exact hsend (if_pos hout)
    · rename_i hcallback
      exact h.clearTimeout ht (by rw [hcallback]; decide)
    · rename_i hcallback
      rw [hcallback] at hsend
      refine Xrk.Inv.setTimeout ?_ .periodic
      refine (h.clearTimeout ht (by rw [hcallback]; decide)).reportToServer ?_
      intro hurl _ hseq
      refine hsend (if_pos ?_)
      have hseq : s.last_req_seq = 0 := hseq
      have hurl : s.report_url ≠ [] := hurl
      rw [decide_eq_true hurl, decide_eq_true hseq]
      rfl

theorem Xrk.Inv.innerXrkReportAttr (h : s.Inv) {opr : Opr} {id : ℕ∞} {number : Nat} {now : Clock}
    (hok : StepOk s (.attr opr id number now)) : (s.innerXrkReportAttr opr id number now).Inv := by
  unfold Xrk.innerXrkReportAttr
  split
  · exact h
  · rename_i hnumber
    cases hchange : changeAttr opr id number s.attrs with
    | some attrs => exact ⟨⟨h.fresh, h.nodup, h.next, h.started⟩, h.kept⟩
    | none =>
      dsimp only
      have hpushed : Xrk.Inv { s with attrs := s.attrs ++ [⟨id, number⟩] } :=
        ⟨⟨h.fresh, h.nodup, h.next, h.started⟩, h.kept⟩
      split
      · rename_i hlimit
        have hreached : (Event.attr opr id number now).reachesLimit s = true := by
          rw [List.length_append] at hlimit
          simp only [Event.reachesLimit, hchange, Option.isNone_none, Bool.and_true,
            Bool.and_eq_true, decide_eq_true_eq]
          exact ⟨hnumber, hlimit⟩
        refine hpushed.flush (hok.1 hreached) ?_
        intro hseq hneed hjson
        have hseq : s.last_req_seq = 0 := hseq
        refine hok.2 now ?_ ?_ hjson
        · simp only [Event.sendsAt, hreached, hseq]
          rfl
        · rw [Data.record, if_neg hnumber, hchange]
          exact hneed
      · exact hpushed

theorem Xrk.Inv.innerXrkReportStrattr (h : s.Inv) {opr : Opr} {id : ℕ∞} {string : JsString}
    {number : Nat} {now : Clock} (hok : StepOk s (.strattr opr id string number now)) :
    (s.innerXrkReportStrattr opr id string number now).Inv := by
  unfold Xrk.innerXrkReportStrattr
  split
  · exact h
  · rename_i hnumber
    dsimp only
    split
    · rename_i hadded
      have hpushed : Xrk.Inv { s with
          strattrs := (changeStrattr opr id string number s.strattrs).1
          cur_strattrs_strlen := s.cur_strattrs_strlen + (string.take 50).length } :=
        ⟨⟨h.fresh, h.nodup, h.next, h.started⟩, h.kept⟩
      split
      · rename_i hlimit
        have hreached : (Event.strattr opr id string number now).reachesLimit s = true := by
          simp only [Event.reachesLimit, hadded, Bool.and_true, Bool.and_eq_true, decide_eq_true_eq]
          exact ⟨hnumber, hlimit⟩
        refine hpushed.flush (hok.1 hreached) ?_
        intro hseq hneed hjson
        have hseq : s.last_req_seq = 0 := hseq
        refine hok.2 now ?_ ?_ hjson
        · simp only [Event.sendsAt, hreached, hseq]
          rfl
        · rw [Data.record, if_neg hnumber]
          exact hneed
      · exact hpushed
    · exact ⟨⟨h.fresh, h.nodup, h.next, h.started⟩, h.kept⟩

theorem Xrk.Inv.reportLog (h : s.Inv) {type : LogType} {msg : JsString} {time now : Clock}
    (hok : StepOk s (.log type msg time now)) : (s.reportLog type msg time now).Inv := by
  unfold Xrk.reportLog
  split
  · exact h
  · rename_i hconfig
    dsimp only
    split
    · rename_i hlimit
      refine Xrk.Scheduled.retry ⟨h.fresh, h.nodup, h.next, h.started⟩ ?_
      intro hseq hneed hjson
      have hseq : s.last_req_seq = 0 := hseq
      refine hok.2 now (if_pos ?_) ?_ hjson
      · rw [decide_eq_true hconfig, decide_eq_true hlimit, decide_eq_true hseq]
        rfl
      · rw [Data.record, if_neg hconfig]
        exact hneed
    · exact ⟨⟨h.fresh, h.nodup, h.next, h.started⟩, h.kept⟩

theorem Xrk.Inv.step (h : s.Inv) {e : Event} (hok : StepOk s e) : (s.step e).Inv := by
  cases e with
  | attr opr id number now => exact h.innerXrkReportAttr hok
  | strattr opr id string number now => exact h.innerXrkReportStrattr hok
  | log type msg time now => exact h.reportLog hok
  | loadPlugin plugin => exact ⟨⟨h.fresh, h.nodup, h.next, h.started⟩, h.kept⟩
  | pluginLog i log => exact ⟨⟨h.fresh, h.nodup, h.next, h.started⟩, h.kept⟩
  | reportToServer delay now =>
    refine h.reportToServer ?_
    intro hurl hdelay hseq
    refine hok.2 now (if_pos ?_)
    rw [decide_eq_true hurl, decide_eq_true hdelay, decide_eq_true hseq]
    rfl
  | fire id check now => exact h.fire hok
  | response parsed =>
    change (s.onResponse parsed).Inv
    unfold Xrk.onResponse
    split
    · exact h
    · exact ⟨⟨h.fresh, h.nodup, h.next, fun hne => absurd rfl hne⟩, h.kept⟩
  | configure report_url log_config_id master_user_id access_key =>
    exact ⟨⟨h.fresh, h.nodup, h.next, h.started⟩, h.kept⟩

end Steps

section Kept

variable {s : Xrk} {check now : Clock}

theorem Xrk.Scheduled.find (h : s.Scheduled) {t : Timer} (ht : t ∈ s.timers) :
    s.timers.find? (fun t' => t'.id = t.id) = some t := by
  cases hfind : s.timers.find? (fun t' => t'.id = t.id) with
  | none =>
    have hnone := List.find?_eq_none.mp hfind t ht
    exact absurd (decide_eq_true rfl) hnone
  | some t' =>
    have hsome := List.find?_some hfind
    rw [h.eq_of_id (List.mem_of_find?_eq_some hfind) ht (of_decide_eq_true hsome)]

theorem Xrk.Inv.fire_kept (h : s.Inv) (hne : s.last_delay_timer_id ≠ 0) :
    s.fire s.last_delay_timer_id check now =
      (s.clearTimeout s.last_delay_timer_id).onDelayTimer check now := by
  rw [Xrk.fire, h.toScheduled.find (h.kept hne)]

theorem Xrk.reportToServer'_kept (hzero : s.last_delay_timer_id = 0) :
    (s.reportToServer' false now).last_delay_timer_id = 0 ∨
      (s.reportToServer' false now).last_delay_timer_id = s.nextTimer := by
  have hquiet : s.quiet = { s with cur_strattrs_strlen := 0, cur_logs_strlen := 0 } := by
    rw [Xrk.quiet, Xrk.clearDelayTimer, if_neg (not_not.mpr hzero)]
  unfold Xrk.reportToServer'
  split
  · exact Or.inr rfl
  · rw [Xrk.sendReports_eq]
    split
    · split
      · rw [hquiet]
        exact Or.inr rfl
      · refine Or.inl ?_
        rw [Xrk.handed, Xrk.countRequest, hquiet]
        split <;> exact hzero
    · exact Or.inl s.clearDelayTimer_zero

theorem Xrk.Inv.timerOk (h : s.Inv) : s.TimerOk := by
  intro hne
  refine ⟨⟨s.last_delay_timer_id, .delay⟩, h.kept hne, rfl, ?_⟩
  intro check now
  have hfresh := h.fresh _ (h.kept hne)
  change (s.fire s.last_delay_timer_id check now).last_delay_timer_id ≠ s.last_delay_timer_id
  rw [h.fire_kept hne]
  unfold Xrk.onDelayTimer
  dsimp only
  have hkept : ∀ s' : Xrk, s'.last_delay_timer_id = 0 → s'.nextTimer = s.nextTimer →
      (s'.reportToServer' false now).last_delay_timer_id ≠ s.last_delay_timer_id := by
    intro s' hzero hnext heq
    obtain hnone | hnew := @Xrk.reportToServer'_kept s' now hzero
    · exact hne (heq ▸ hnone)
    · rw [heq, hnext] at hnew
      exact Nat.ne_of_lt hfresh hnew
  split
  · exact hkept _ rfl rfl
  · exact hkept _ rfl rfl

theorem Xrk.sendReports_idle (hzero : s.last_delay_timer_id = 0) (hseq : s.last_req_seq = 0) :
    ((s.needReport && s.hasJSON) = true → s.refuses now = false → ∃ req_seq,
      (s.sendReports now).toData = s.handOver req_seq) ∧
    ((s.needReport && s.hasJSON) = true → s.refuses now = true →
      (s.sendReports now).last_req_seq = 0) ∧
    ((s.needReport && s.hasJSON) = false →
      (s.sendReports now).last_req_seq = 0 ∧ (s.sendReports now).last_delay_timer_id = 0) := by
  have hquiet : s.quiet = { s with cur_strattrs_strlen := 0, cur_logs_strlen := 0 } := by
    rw [Xrk.quiet, Xrk.clearDelayTimer, if_neg (not_not.mpr hzero)]
  rw [Xrk.sendReports_eq]
  refine ⟨?_, ?_, ?_⟩
  · intro hneed hrefuses
    rw [if_pos hneed, if_neg (ne_true_of_eq_false hrefuses)]
    exact ⟨_, s.handed_toData now⟩
  · intro hneed hrefuses
    rw [if_pos hneed, if_pos hrefuses, hquiet]
    exact hseq
  · intro hneed
    rw [if_neg (ne_true_of_eq_false hneed), hquiet]
    exact ⟨hseq, hzero⟩

theorem Xrk.onDelayTimer_late (s : Xrk) (hstarted : 0 < s.request_start_time)
    (hlate : s.request_start_time + request_timeout_ms ≤ check.1) :
    s.onDelayTimer check now =
      Xrk.sendReports { s with last_delay_timer_id := 0, last_req_seq := 0 } now := by
  unfold Xrk.onDelayTimer
  dsimp only
  rw [if_pos ⟨hstarted, hlate⟩, Xrk.reportToServer', if_neg (by simp)]

theorem Xrk.onDelayTimer_early (s : Xrk) (hseq : s.last_req_seq ≠ 0)
    (hearly : check.1 < s.request_start_time + request_timeout_ms) :
    s.onDelayTimer check now = Xrk.setDelayTimer { s with last_delay_timer_id := 0 } .delay := by
  unfold Xrk.onDelayTimer
  dsimp only
  rw [if_neg fun h => Nat.not_le_of_lt hearly h.2, Xrk.reportToServer', if_pos (Or.inr hseq),
    if_pos rfl]

theorem Xrk.Inv.recovers (h : s.Inv) (hne : s.last_delay_timer_id ≠ 0) (hseq : s.last_req_seq ≠ 0) :
    s.Recovers := by
  refine ⟨h.kept hne, ?_⟩
  intro check now
  rw [h.fire_kept hne]
  constructor
  · intro hlate
    rw [(s.clearTimeout s.last_delay_timer_id).onDelayTimer_late (h.started hseq) hlate]
    exact Xrk.sendReports_idle (s := { s.clearTimeout s.last_delay_timer_id with
      last_delay_timer_id := 0, last_req_seq := 0 }) rfl rfl
  · intro hearly
    rw [(s.clearTimeout s.last_delay_timer_id).onDelayTimer_early hseq hearly]
    exact ⟨List.mem_append_right _ (List.mem_singleton_self _), rfl, rfl⟩

theorem Xrk.Inv.reportToServer_recovers (h : s.Inv) (hurl : s.report_url ≠ [])
    (hseq : s.last_req_seq ≠ 0) (delay : Option Int) : (s.reportToServer delay now).Recovers := by
  rw [Xrk.reportToServer, if_neg hurl, if_neg fun hsend => hseq hsend.2]
  split
  · rename_i hne
    exact h.recovers hne hseq
  · rename_i hzero
    have hset : s.reportToServer' true now = s.setDelayTimer .delay := by
      rw [Xrk.reportToServer', if_pos (Or.inl rfl), if_pos (not_not.mp hzero)]
    rw [hset]
    exact h.setDelayTimer.recovers (Nat.ne_of_gt h.next) hseq

end Kept

/-- In every run without a limit that is reached while a timer waits for a response, and without a
request that the frequency check refuses: the number that is kept belongs to a timer whose callback
forgets it, and a call while a response is waited for leaves a timer that ends the waiting. -/
theorem never_wedges (hasJSON hasUrl : Bool) (report_url : JsString)
    (log_config_id master_user_id : ℕ∞) (access_key : JsString) (events : List Event)
    (hok : Along Xrk.step StepOk
      (Xrk.init hasJSON hasUrl report_url log_config_id master_user_id access_key) events) (n : Nat) :
    let s := (Xrk.init hasJSON hasUrl report_url log_config_id master_user_id access_key).run
      (events.take n)
    s.TimerOk ∧ ∀ delay now, s.report_url ≠ [] → s.last_req_seq ≠ 0 →
      (s.reportToServer delay now).Recovers := by
  intro s
  have hinit :
      (Xrk.init hasJSON hasUrl report_url log_config_id master_user_id access_key).Inv := by
    refine Xrk.Scheduled.inv ⟨?_, ?_, Nat.succ_pos 1, fun hne => absurd rfl hne⟩ rfl
    · cases hasUrl with
      | true => exact List.forall_mem_singleton.mpr (Nat.lt_succ_self 1)
      | false => exact List.forall_mem_nil _
    · cases hasUrl with
      | true => exact List.nodup_singleton _
      | false => exact List.nodup_nil
  have hinv : s.Inv := (hok.take n).invariant (fun s e h hstep => h.step hstep) hinit
  exact ⟨hinv.timerOk, fun delay now hurl hseq => hinv.reportToServer_recovers hurl hseq delay⟩

/-- A report that is sent, and a call that then starts a delay timer. -/
def waitingReport : List Event :=
  [.attr .add 1 5 oneSecond, .reportToServer none oneSecond, .reportToServer none oneSecond]

theorem never_wedges_waiting :
    (startedXrk.run waitingReport).last_req_seq = 1 ∧
      (startedXrk.run waitingReport).last_delay_timer_id = 2 ∧
      (startedXrk.run waitingReport).TimerOk := by
  have hsafe := never_wedges true true [47] 7 0 [] waitingReport (by decide +kernel) 3
  exact ⟨by decide +kernel, by decide +kernel, hsafe.1⟩

/-- Twenty strings of fifty characters. -/
def manyStrings : List Event :=
  (List.range 20).map fun i =>
    .strattr .add 9 (UInt16.ofNat i :: List.replicate 49 120) 1 oneSecond

/-- Four reports with their responses, one at a time. -/
def quickReports : List Event :=
  (List.replicate 4 [.attr .add 1 5 oneSecond, .reportToServer none oneSecond, .response true]).flatten

/-- A limit is reached while a timer waits for a response. -/
def wedgedXrk : Xrk := startedXrk.run (waitingReport ++ manyStrings)

/-- The fourth report is refused. -/
def refusedXrk : Xrk := startedXrk.run quickReports

/-- The limit cancels the timer and its number stays, and a call leaves it so; and the callback of a
refused request leaves the number. -/
theorem wedged :
    (wedgedXrk.last_req_seq = 1 ∧ wedgedXrk.last_delay_timer_id = 2 ∧
      wedgedXrk.timers = [⟨1, .periodic⟩] ∧ ¬ wedgedXrk.TimerOk ∧
      ¬ (wedgedXrk.reportToServer none oneSecond).Recovers) ∧
    refusedXrk.last_delay_timer_id = 2 ∧
      (refusedXrk.fire 2 oneSecond oneSecond).last_delay_timer_id = 2 ∧ ¬ refusedXrk.TimerOk := by
  have htimers : wedgedXrk.timers = [⟨1, .periodic⟩] := by decide +kernel
  have hkept : wedgedXrk.last_delay_timer_id = 2 := by decide +kernel
  have hrefused : refusedXrk.last_delay_timer_id = 2 := by decide +kernel
  have hfire : (refusedXrk.fire 2 oneSecond oneSecond).last_delay_timer_id = 2 := by decide +kernel
  refine ⟨⟨by decide +kernel, hkept, htimers, ?_, ?_⟩, hrefused, hfire, ?_⟩
  · intro hok
    obtain ⟨t, ht, hid, -⟩ := hok (by rw [hkept]; decide)
    rw [htimers, List.mem_singleton] at ht
    rw [ht, hkept] at hid
    cases hid
  · rintro ⟨hmem, -⟩
    revert hmem
    decide +kernel
  · intro hok
    obtain ⟨t, -, hid, hresets⟩ := hok (by rw [hrefused]; decide)
    rw [hrefused] at hid
    rw [hid] at hresets
    exact hresets oneSecond oneSecond hfire

end XrkMonitor.Browser
