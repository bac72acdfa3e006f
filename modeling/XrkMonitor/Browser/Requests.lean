import XrkMonitor.Browser.Timers

/-!
# One request at a time

`last_req_seq` is the sequence of the request that is waited for, and no other is sent while
it is set. A response clears it without a look at the request it answers, and the delay timer
clears it when the request has timed out; the frequency check counts the requests since its
window began. `requests_disciplined` says what these keep in every run in which no
response comes late and no request is sent at the very end of a time.

## Implementation notes

`SendLock` is the part of the object that requests depend on, and the steps of the object act on it
in three ways. A run also keeps when each request was sent, which ones were answered, which
sequence each response has cleared, and how many requests were sent since the window began.
The readings of the clock do not go back. The network is free to answer any request at any time.
-/

namespace XrkMonitor.Browser

open Library

/-- What decides whether a request is sent, and the sequences of those that were. -/
structure SendLock where
  last_req_seq : Nat
  req_seq : Nat
  request_start_time : Nat
  freq_send_start_time : Nat
  freq_request_times : Nat
  seqs : List Nat

def Xrk.lock (s : Xrk) : SendLock where
  last_req_seq := s.last_req_seq
  req_seq := s.req_seq
  request_start_time := s.request_start_time
  freq_send_start_time := s.freq_send_start_time
  freq_request_times := s.freq_request_times
  seqs := s.sent.map Request.req_seq

namespace SendLock

/-- No request is waited for. -/
def free (l : SendLock) : SendLock := { l with last_req_seq := 0 }

/-- A request that the frequency check refuses. -/
def refuse (l : SendLock) (now : Clock) : SendLock := { l with request_start_time := now.1 }

/-- The window of the frequency check begins anew. -/
def Resets (l : SendLock) (now : Clock) : Prop :=
  l.freq_send_start_time = 0 ∨ l.freq_send_start_time + freq_check_time < now.1

instance (l : SendLock) (now : Clock) : Decidable (l.Resets now) :=
  inferInstanceAs (Decidable (_ ∨ _))

/-- A request that is sent. -/
def send (l : SendLock) (now : Clock) : SendLock where
  last_req_seq := l.req_seq
  req_seq := l.req_seq + 1
  request_start_time := now.1
  freq_send_start_time := if l.Resets now then now.1 else l.freq_send_start_time
  freq_request_times := if l.Resets now then 1 else l.freq_request_times + 1
  seqs := l.seqs ++ [l.req_seq]

end SendLock

/-- One event, with the sequence of the request that it answers if it is a response. -/
structure Turn where
  event : Event
  answers : Nat

def Event.isResponse : Event → Bool
  | .response _ => true
  | _ => false

/-- A response that `_on_response` goes through to its end. -/
def Event.understood (s : Xrk) : Event → Bool
  | .response parsed => !s.hasJSON || parsed
  | _ => false

/-- The first and the last reading of the clock in an event. -/
def Event.readings : Event → Option (Clock × Clock)
  | .attr _ _ _ now => some (now, now)
  | .strattr _ _ _ _ now => some (now, now)
  | .log _ _ _ now => some (now, now)
  | .reportToServer _ now => some (now, now)
  | .fire _ check now => some (check, now)
  | _ => none

/-- The object in a run, with what has become of its requests. -/
structure Requests where
  xrk : Xrk
  clock : Nat
  sentAt : List (Nat × Nat)
  answered : List Nat
  cleared : List (Nat × Nat)
  sinceReset : Nat

/-- No request was sent. -/
def Requests.init (xrk : Xrk) : Requests := ⟨xrk, 0, [], [], [], 0⟩

/-- The sequences that a step has sent. -/
def newSeqs (l l' : SendLock) : List Nat := l'.seqs.drop l.seqs.length

def Requests.step (r : Requests) (t : Turn) : Requests :=
  let xrk := r.xrk.step t.event
  let clock := (t.event.readings.map fun p => p.2.1).getD r.clock
  let new := newSeqs r.xrk.lock xrk.lock
  let clears := t.event.isResponse && r.xrk.last_req_seq ≠ 0 && xrk.last_req_seq = 0
  { xrk := xrk
    clock := clock
    sentAt := r.sentAt ++ new.map fun seq => (seq, clock)
    answered := if t.event.isResponse then r.answered ++ [t.answers] else r.answered
    cleared := if clears then r.cleared ++ [(t.answers, r.xrk.last_req_seq)] else r.cleared
    sinceReset :=
      if xrk.freq_send_start_time = r.xrk.freq_send_start_time then r.sinceReset + new.length
      else new.length }

/-- The requests that are neither answered nor older than the timeout. -/
def Requests.outstanding (r : Requests) (now : Nat) : List (Nat × Nat) :=
  r.sentAt.filter fun q => q.1 ∉ r.answered ∧ now ≤ q.2 + request_timeout_ms

/-- One request at a time, released by its own response, and few in a window. -/
structure Disciplined (r : Requests) : Prop where
  single : ∀ now, r.clock ≤ now → (r.outstanding now).length ≤ 1
  own : ∀ p ∈ r.cleared, p.1 = p.2
  window : r.sinceReset ≤ freq_check_limit_times

/-- A request that is sent now does not meet the end of the window of the frequency check, or the
end of the timeout of a request without an answer; and the one with the sequence 0, which does
not count as waited for, has timed out. -/
def Requests.MaySend (r : Requests) (now : Clock) : Prop :=
  (freq_check_limit_times ≤ r.xrk.freq_request_times →
      now.1 ≠ r.xrk.freq_send_start_time + freq_check_time) ∧
    ∀ q ∈ r.sentAt, q.1 ∉ r.answered →
      now.1 ≠ q.2 + request_timeout_ms ∧ (q.1 = 0 → q.2 + request_timeout_ms < now.1)

instance (r : Requests) (now : Clock) : Decidable (r.MaySend now) :=
  inferInstanceAs (Decidable (_ ∧ _))

/-- The clock does not go back, and a response whose text is understood comes before the next
request is sent, or when no request is waited for. -/
def TurnOk (r : Requests) (t : Turn) : Prop :=
  (∀ p ∈ t.event.readings, r.clock ≤ p.1.1 ∧ p.1.1 ≤ p.2.1) ∧
    (∀ now ∈ t.event.sendsAt r.xrk, ((r.xrk.toData.record t.event).needReport && r.xrk.hasJSON) = true →
      r.xrk.refuses now = false → r.MaySend now) ∧
    (t.event.understood r.xrk = true →
      r.xrk.last_req_seq = 0 ∨ t.answers + 1 = r.xrk.req_seq)

instance (r : Requests) (t : Turn) : Decidable (TurnOk r t) :=
  inferInstanceAs (Decidable (_ ∧ _ ∧ _))

section Steps

variable (s : Xrk) (now : Clock)

theorem Xrk.clearTimeout_lock (id : Nat) : (s.clearTimeout id).lock = s.lock := rfl

theorem Xrk.setTimeout_lock (callback : Callback) : (s.setTimeout callback).lock = s.lock := rfl

theorem Xrk.setDelayTimer_lock (callback : Callback) :
    (s.setDelayTimer callback).lock = s.lock := rfl

theorem Xrk.clearDelayTimer_lock : s.clearDelayTimer.lock = s.lock := by
  unfold Xrk.clearDelayTimer
  split <;> rfl

theorem Xrk.clearTimeoutOnly_lock : s.clearTimeoutOnly.lock = s.lock := by
  unfold Xrk.clearTimeoutOnly
  split <;> rfl

theorem Xrk.quiet_lock : s.quiet.lock = s.lock := s.clearDelayTimer_lock

theorem Xrk.clearDelayTimer_hasJSON : s.clearDelayTimer.hasJSON = s.hasJSON := by
  unfold Xrk.clearDelayTimer
  split <;> rfl

theorem Xrk.clearTimeoutOnly_hasJSON : s.clearTimeoutOnly.hasJSON = s.hasJSON := by
  unfold Xrk.clearTimeoutOnly
  split <;> rfl

theorem Xrk.sendRequest_lock (source : Source) (reports : Reports ℕ∞) :
    ((((s.startRequest now).countRequest now).sendRequest source reports).clearArrays source).lock =
      s.lock.send now := by
  have hseqs : (s.sent ++ [(⟨s.req_seq, source, reports⟩ : Request)]).map Request.req_seq =
      s.lock.seqs ++ [s.req_seq] := List.map_append
  unfold Xrk.countRequest SendLock.send
  split
  · rename_i hreset
    have hreset' : s.lock.Resets now := hreset
    rw [if_pos hreset', if_pos hreset', Xrk.lock]
    congr 1
  · rename_i hreset
    have hreset' : ¬ s.lock.Resets now := hreset
    rw [if_neg hreset', if_neg hreset', Xrk.lock]
    congr 1

theorem Xrk.handed_lock : (s.handed now).lock = s.lock.send now := by
  rw [← s.quiet_lock]
  exact s.quiet.sendRequest_lock now s.logSource s.reports

theorem Xrk.sendReports_lock : (s.sendReports now).lock =
    if s.needReport && s.hasJSON then
      if s.refuses now then s.lock.refuse now else s.lock.send now
    else s.lock := by
  rw [Xrk.sendReports_eq]
  split
  · split
    · rw [Xrk.setDelayTimer_lock, ← s.quiet_lock]
      rfl
    · exact s.handed_lock now
  · exact s.quiet_lock

/-- What an event leaves before the part that sends: what it adds is there, and no request is
waited for. -/
structure Xrk.Reaches (s s₁ : Xrk) (e : Event) : Prop where
  toData : s₁.toData = s.toData.record e
  hasJSON : s₁.hasJSON = s.hasJSON
  lock : s₁.lock = s.lock.free

/-- An event leaves the lock, or comes to the part that sends. -/
def Xrk.Goes (s : Xrk) (e : Event) : Prop :=
  e.sendsAt s = none ∧ (s.step e).lock = s.lock ∨
    ∃ now s₁, e.sendsAt s = some now ∧ s.Reaches s₁ e ∧
      (s.step e).lock = (s₁.sendReports now).lock

theorem SendLock.free_of_zero {l : SendLock} (h : l.last_req_seq = 0) : l.free = l := by
  rw [SendLock.free, ← h]

theorem Xrk.reportToServer'_waits (delay : Bool) (hwait : delay = true ∨ s.last_req_seq ≠ 0) :
    (s.reportToServer' delay now).lock = s.lock := by
  rw [Xrk.reportToServer', if_pos hwait]
  split <;> rfl

theorem Xrk.reportToServer'_sends (hfree : s.last_req_seq = 0) :
    s.reportToServer' false now = s.sendReports now := by
  rw [Xrk.reportToServer', if_neg (by simp [hfree])]

end Steps

section Events

variable {s : Xrk}

theorem Xrk.goes_of_report {e : Event} (s₁ : Xrk) (now : Clock)
    (hdata : s₁.toData = s.toData.record e) (hjson : s₁.hasJSON = s.hasJSON)
    (hlock : s₁.lock = s.lock) (hstep : (s.step e).lock = (s₁.reportToServer' false now).lock)
    (hsends : e.sendsAt s = if s.last_req_seq = 0 then some now else none) : s.Goes e := by
  have hseq : s₁.last_req_seq = s.last_req_seq := congrArg SendLock.last_req_seq hlock
  by_cases hfree : s.last_req_seq = 0
  · refine Or.inr ⟨now, s₁, hsends.trans (if_pos hfree), ⟨hdata, hjson, ?_⟩, ?_⟩
    · rw [hlock, SendLock.free_of_zero hfree]
    · rw [hstep, s₁.reportToServer'_sends now (hseq.trans hfree)]
  · refine Or.inl ⟨hsends.trans (if_neg hfree), ?_⟩
    rw [hstep, s₁.reportToServer'_waits now false (Or.inr (hseq ▸ hfree)), hlock]

theorem Xrk.goes_attr (opr : Opr) (id : ℕ∞) (number : Nat) (now : Clock) :
    s.Goes (.attr opr id number now) := by
  by_cases hzero : number = 0
  · refine Or.inl ⟨?_, ?_⟩
    · simp [Event.sendsAt, Event.reachesLimit, hzero]
    · simp only [Xrk.step, Xrk.innerXrkReportAttr, if_pos hzero]
  · cases hchange : changeAttr opr id number s.attrs with
    | some attrs =>
      refine Or.inl ⟨?_, ?_⟩
      · simp [Event.sendsAt, Event.reachesLimit, hchange]
      · simp only [Xrk.step, Xrk.innerXrkReportAttr, if_neg hzero, hchange]
        rfl
    | none =>
      by_cases hlimit : max_attrs_per_req ≤ s.attrs.length + 1
      · let s₁ : Xrk := Xrk.clearTimeoutOnly { s with attrs := s.attrs ++ [⟨id, number⟩] }
        have hdata : s₁.toData = s.toData.record (.attr opr id number now) := by
          rw [Xrk.clearTimeoutOnly_toData]
          simp only [Data.record, if_neg hzero, hchange, Option.getD_none]
        refine Xrk.goes_of_report s₁ now hdata
          (Xrk.clearTimeoutOnly_hasJSON _) (Xrk.clearTimeoutOnly_lock _) ?_ ?_
        · simp only [Xrk.step, Xrk.innerXrkReportAttr, if_neg hzero, hchange]
          rw [if_pos]
          simpa using hlimit
        · simp [Event.sendsAt, Event.reachesLimit, hchange, hzero, hlimit]
      · refine Or.inl ⟨?_, ?_⟩
        · simp [Event.sendsAt, Event.reachesLimit, hlimit]
        · simp only [Xrk.step, Xrk.innerXrkReportAttr, if_neg hzero, hchange]
          rw [if_neg]
          · rfl
          · simpa using hlimit

theorem Xrk.goes_strattr (opr : Opr) (id : ℕ∞) (string : JsString) (number : Nat) (now : Clock) :
    s.Goes (.strattr opr id string number now) := by
  by_cases hzero : number = 0
  · refine Or.inl ⟨?_, ?_⟩
    · simp [Event.sendsAt, Event.reachesLimit, hzero]
    · simp only [Xrk.step, Xrk.innerXrkReportStrattr, if_pos hzero]
  · cases hadded : (changeStrattr opr id string number s.strattrs).2 with
    | false =>
      refine Or.inl ⟨?_, ?_⟩
      · simp [Event.sendsAt, Event.reachesLimit, hadded]
      · simp only [Xrk.step, Xrk.innerXrkReportStrattr, if_neg hzero, hadded, Bool.false_eq_true,
          if_false]
        rfl
    | true =>
      by_cases hlimit : max_strattrs_strlen ≤ s.cur_strattrs_strlen + (string.take 50).length
      · let s₁ : Xrk := Xrk.clearTimeoutOnly { s with
          strattrs := (changeStrattr opr id string number s.strattrs).1
          cur_strattrs_strlen := s.cur_strattrs_strlen + (string.take 50).length }
        have hdata : s₁.toData = s.toData.record (.strattr opr id string number now) := by
          rw [Xrk.clearTimeoutOnly_toData]
          simp only [Data.record, if_neg hzero]
        refine Xrk.goes_of_report s₁ now hdata
          (Xrk.clearTimeoutOnly_hasJSON _) (Xrk.clearTimeoutOnly_lock _) ?_ ?_
        · simp only [Xrk.step, Xrk.innerXrkReportStrattr, if_neg hzero, hadded, if_true,
            if_pos hlimit]
          rfl
        · simp only [Event.sendsAt, Event.reachesLimit, hadded, hzero, hlimit, ne_eq,
            not_false_eq_true, decide_true, Bool.and_true, Bool.true_and, decide_eq_true_eq]
      · refine Or.inl ⟨?_, ?_⟩
        · simp only [Event.sendsAt, Event.reachesLimit, hlimit, decide_false, Bool.and_false,
            Bool.false_and, Bool.false_eq_true, if_false]
        · simp only [Xrk.step, Xrk.innerXrkReportStrattr, if_neg hzero, hadded, if_true,
            if_neg hlimit]
          rfl

theorem Xrk.goes_log (type : LogType) (msg : JsString) (time now : Clock) :
    s.Goes (.log type msg time now) := by
  by_cases hconfig : s.log_config_id = 0
  · refine Or.inl ⟨?_, ?_⟩
    · simp [Event.sendsAt, hconfig]
    · simp only [Xrk.step, Xrk.reportLog, if_pos hconfig]
  · by_cases hlimit : max_logs_strlen ≤ s.cur_logs_strlen + msg.length
    · let s₁ : Xrk := Xrk.clearDelayTimer { s with
        logs := s.logs ++ [⟨type, msg, (time.1 / 1000 * 1000 : Nat)⟩]
        cur_logs_strlen := s.cur_logs_strlen + msg.length }
      have hdata : s₁.toData = s.toData.record (.log type msg time now) := by
        rw [Xrk.clearDelayTimer_toData]
        simp only [Data.record, if_neg hconfig]
      refine Xrk.goes_of_report s₁ now hdata
        (Xrk.clearDelayTimer_hasJSON _) (Xrk.clearDelayTimer_lock _) ?_ ?_
      · simp only [Xrk.step, Xrk.reportLog, if_neg hconfig, if_pos hlimit]
        rfl
      · simp only [Event.sendsAt, hconfig, hlimit, ne_eq, not_false_eq_true, decide_true,
          Bool.true_and, decide_eq_true_eq]
    · refine Or.inl ⟨?_, ?_⟩
      · simp only [Event.sendsAt, hlimit, decide_false, Bool.and_false, Bool.false_and,
          Bool.false_eq_true, if_false]
      · simp only [Xrk.step, Xrk.reportLog, if_neg hconfig, if_neg hlimit]
        rfl

theorem Xrk.reportToServer_lock (delay : Option Int) (now : Clock) :
    (s.reportToServer delay now).lock =
      if s.report_url ≠ [] && (∀ d ∈ delay, d ≤ 0) && s.last_req_seq = 0 then
        (s.clearDelayTimer.reportToServer' false now).lock
      else s.lock := by
  have hready : (s.report_url ≠ [] && (∀ d ∈ delay, d ≤ 0) && s.last_req_seq = 0) = true ↔
      s.report_url ≠ [] ∧ (∀ d ∈ delay, d ≤ 0) ∧ s.last_req_seq = 0 := by
    rw [Bool.and_eq_true, Bool.and_eq_true, decide_eq_true_eq, decide_eq_true_eq,
      decide_eq_true_eq, and_assoc]
  unfold Xrk.reportToServer
  by_cases hurl : s.report_url = []
  · rw [if_pos hurl, if_neg fun h => (hready.mp h).1 hurl]
  · rw [if_neg hurl]
    by_cases hnow : (∀ d ∈ delay, d ≤ 0) ∧ s.last_req_seq = 0
    · rw [if_pos hnow, if_pos (hready.mpr ⟨hurl, hnow⟩)]
    · rw [if_neg hnow, if_neg fun h => hnow (hready.mp h).2]
      split
      · rfl
      · exact s.reportToServer'_waits now true (Or.inl rfl)

theorem Xrk.goes_reportToServer (delay : Option Int) (now : Clock) :
    s.Goes (.reportToServer delay now) := by
  by_cases hready : (s.report_url ≠ [] && (∀ d ∈ delay, d ≤ 0) && s.last_req_seq = 0) = true
  · have hfree : s.last_req_seq = 0 := by
      rw [Bool.and_eq_true, decide_eq_true_eq] at hready
      exact hready.2
    refine Xrk.goes_of_report s.clearDelayTimer now s.clearDelayTimer_toData
      s.clearDelayTimer_hasJSON s.clearDelayTimer_lock ?_ ?_
    · rw [Xrk.step, Xrk.reportToServer_lock, if_pos hready]
    · rw [Event.sendsAt, if_pos hready, if_pos hfree]
  · refine Or.inl ⟨?_, ?_⟩
    · rw [Event.sendsAt, if_neg hready]
    · rw [Xrk.step, Xrk.reportToServer_lock, if_neg hready]

theorem timedOut_iff {check : Clock} : s.timedOut check = true ↔
    0 < s.request_start_time ∧ s.request_start_time + request_timeout_ms ≤ check.1 := by
  rw [Xrk.timedOut, Bool.and_eq_true, decide_eq_true_eq, decide_eq_true_eq]

theorem Xrk.onDelayTimer_eq (check now : Clock) : s.onDelayTimer check now =
    if s.timedOut check = true then
      Xrk.reportToServer' { s with last_delay_timer_id := 0, last_req_seq := 0 } false now
    else Xrk.reportToServer' { s with last_delay_timer_id := 0 } false now := by
  rw [Xrk.onDelayTimer]
  by_cases hout : s.timedOut check = true
  · rw [if_pos hout]
    exact congrArg (fun u : Xrk => u.reportToServer' false now) (if_pos (timedOut_iff.mp hout))
  · rw [if_neg hout]
    exact congrArg (fun u : Xrk => u.reportToServer' false now)
      (if_neg fun h => hout (timedOut_iff.mpr h))

theorem Xrk.goes_fire (id : Nat) (check now : Clock) : s.Goes (.fire id check now) := by
  have hstep : s.step (.fire id check now) = s.fire id check now := rfl
  cases hfind : s.timers.find? fun t => t.id = id with
  | none =>
    refine Or.inl ⟨?_, ?_⟩
    · simp only [Event.sendsAt, hfind]
    · rw [hstep, Xrk.fire, hfind]
  | some t =>
    cases hcallback : t.callback with
    | frequency =>
      refine Or.inl ⟨?_, ?_⟩
      · simp only [Event.sendsAt, hfind, hcallback]
      · rw [hstep, Xrk.fire, hfind]
        simp only [hcallback]
        exact s.clearTimeout_lock id
    | periodic =>
      have hfire : (s.fire id check now).lock =
          ((s.clearTimeout id).reportToServer none now).lock := by
        rw [Xrk.fire, hfind]
        simp only [hcallback]
        exact Xrk.setTimeout_lock _ _
      have hsends : Event.sendsAt s (.fire id check now) =
          Event.sendsAt (s.clearTimeout id) (.reportToServer none now) := by
        simp only [Event.sendsAt, hfind, hcallback, Option.not_mem_none, false_imp_iff,
          implies_true, decide_true, Bool.and_true]
        rfl
      rcases (s.clearTimeout id).goes_reportToServer none now with hleave | hcome
      · exact Or.inl ⟨hsends.trans hleave.1, hfire.trans hleave.2⟩
      · obtain ⟨now', s₁, hat, ⟨hdata, hjson, hlock⟩, hsent⟩ := hcome
        exact Or.inr ⟨now', s₁, hsends.trans hat, ⟨hdata, hjson, hlock⟩, hfire.trans hsent⟩
    | delay =>
      have hfire : s.fire id check now = (s.clearTimeout id).onDelayTimer check now := by
        rw [Xrk.fire, hfind]
        simp only [hcallback]
      have hat : Event.sendsAt s (.fire id check now) =
          if s.timedOut check || s.last_req_seq = 0 then some now else none := by
        simp only [Event.sendsAt, hfind, hcallback]
      have heq := (s.clearTimeout id).onDelayTimer_eq check now
      cases htimed : s.timedOut check with
      | true =>
        let s₁ : Xrk :=
          { s.clearTimeout id with last_delay_timer_id := 0, last_req_seq := 0 }
        refine Or.inr ⟨now, s₁, ?_, ⟨rfl, rfl, rfl⟩, ?_⟩
        · rw [hat, htimed, Bool.true_or, if_pos rfl]
        · rw [hstep, hfire, heq, if_pos (show (s.clearTimeout id).timedOut check = true from
            htimed), Xrk.reportToServer'_sends _ now rfl]
      | false =>
        let s₁ : Xrk := { s.clearTimeout id with last_delay_timer_id := 0 }
        refine Xrk.goes_of_report s₁ now rfl rfl rfl ?_ ?_
        · rw [hstep, hfire, heq, if_neg (ne_true_of_eq_false
            (show (s.clearTimeout id).timedOut check = false from htimed))]
        · rw [hat, htimed, Bool.false_or]
          simp only [decide_eq_true_eq]

theorem Xrk.goes (e : Event) (hcall : e.isResponse = false) : s.Goes e := by
  cases e with
  | attr opr id number now => exact s.goes_attr opr id number now
  | strattr opr id string number now => exact s.goes_strattr opr id string number now
  | log type msg time now => exact s.goes_log type msg time now
  | loadPlugin plugin => exact Or.inl ⟨rfl, rfl⟩
  | pluginLog i log => exact Or.inl ⟨rfl, rfl⟩
  | reportToServer delay now => exact s.goes_reportToServer delay now
  | fire id check now => exact s.goes_fire id check now
  | response parsed => exact Bool.noConfusion hcall
  | configure report_url log_config_id master_user_id access_key => exact Or.inl ⟨rfl, rfl⟩

/-- A part that sends is reached while no request is waited for, or by a delay timer whose request
has timed out. -/
theorem sendsAt_free {e : Event} {now : Clock} (h : e.sendsAt s = some now) :
    ∃ check, e.readings = some (check, now) ∧
      (s.last_req_seq = 0 ∨ s.timedOut check = true) := by
  cases e with
  | attr opr id number now' =>
    simp only [Event.sendsAt, Option.ite_none_right_eq_some, Bool.and_eq_true,
      decide_eq_true_eq] at h
    obtain ⟨⟨-, hfree⟩, hnow⟩ := h
    exact ⟨now', by rw [Option.some.inj hnow]; rfl, Or.inl hfree⟩
  | strattr opr id string number now' =>
    simp only [Event.sendsAt, Option.ite_none_right_eq_some, Bool.and_eq_true,
      decide_eq_true_eq] at h
    obtain ⟨⟨-, hfree⟩, hnow⟩ := h
    exact ⟨now', by rw [Option.some.inj hnow]; rfl, Or.inl hfree⟩
  | log type msg time now' =>
    simp only [Event.sendsAt, Option.ite_none_right_eq_some, Bool.and_eq_true,
      decide_eq_true_eq] at h
    obtain ⟨⟨-, hfree⟩, hnow⟩ := h
    exact ⟨now', by rw [Option.some.inj hnow]; rfl, Or.inl hfree⟩
  | loadPlugin plugin => cases h
  | pluginLog i log => cases h
  | reportToServer delay now' =>
    simp only [Event.sendsAt, Option.ite_none_right_eq_some, Bool.and_eq_true,
      decide_eq_true_eq] at h
    obtain ⟨⟨-, hfree⟩, hnow⟩ := h
    exact ⟨now', by rw [Option.some.inj hnow]; rfl, Or.inl hfree⟩
  | fire id check now' =>
    have hreadings : ∀ {n : Clock}, some now' = some n →
        Event.readings (.fire id check now') = some (check, n) := by
      rintro n hn
      rw [← Option.some.inj hn]
      rfl
    simp only [Event.sendsAt] at h
    split at h
    · cases h
    · split at h
      · simp only [Option.ite_none_right_eq_some, Bool.or_eq_true, decide_eq_true_eq] at h
        exact ⟨check, hreadings h.2, h.1.symm⟩
      · cases h
      · simp only [Option.ite_none_right_eq_some, Bool.and_eq_true, decide_eq_true_eq] at h
        exact ⟨check, hreadings h.2, Or.inl h.1.2⟩
  | response parsed => cases h
  | configure report_url log_config_id master_user_id access_key => cases h

theorem Xrk.onResponse_lock (parsed : Bool) : (s.onResponse parsed).lock =
    if !s.hasJSON || parsed then s.lock.free else s.lock := by
  rw [Xrk.onResponse]
  cases s.hasJSON <;> cases parsed <;> rfl

theorem refuses_of_lock {s₁ : Xrk} (h : s₁.lock = s.lock.free) (now : Clock) :
    s₁.refuses now = s.refuses now := by
  have hstart : s₁.freq_send_start_time = s.freq_send_start_time :=
    congrArg SendLock.freq_send_start_time h
  have htimes : s₁.freq_request_times = s.freq_request_times :=
    congrArg SendLock.freq_request_times h
  rw [Xrk.refuses, hstart, htimes, Xrk.refuses]

end Events

section Runs

variable {r : Requests} {t : Turn} {check now : Clock} {parsed : Bool}

/-- What holds of the requests between two events. -/
structure RequestsOk (r : Requests) : Prop where
  below : ∀ q ∈ r.sentAt, q.1 < r.xrk.req_seq
  nodup : (r.sentAt.map Prod.fst).Nodup
  newest : r.xrk.last_req_seq ≠ 0 → r.xrk.last_req_seq + 1 = r.xrk.req_seq ∧
    (r.xrk.last_req_seq, r.xrk.request_start_time) ∈ r.sentAt
  old : ∀ q ∈ r.sentAt, q.1 ∉ r.answered →
    q.1 + 1 = r.xrk.req_seq ∨ q.2 + request_timeout_ms < r.clock
  free : r.xrk.last_req_seq = 0 → ∀ q ∈ r.sentAt, q.1 ∉ r.answered →
    q.1 = 0 ∨ q.2 + request_timeout_ms ≤ r.clock
  own : ∀ p ∈ r.cleared, p.1 = p.2
  since : r.sinceReset = r.xrk.freq_request_times
  window : r.xrk.freq_request_times ≤ freq_check_limit_times

theorem RequestsOk.eq_of_fst (h : RequestsOk r) {p q : Nat × Nat} (hp : p ∈ r.sentAt)
    (hq : q ∈ r.sentAt) (hpq : p.1 = q.1) : p = q :=
  List.inj_on_of_nodup_map h.nodup hp hq hpq

theorem RequestsOk.disciplined (h : RequestsOk r) : Disciplined r where
  single := by
    intro now hnow
    have hout : ∀ q ∈ r.outstanding now, q ∈ r.sentAt ∧ q.1 + 1 = r.xrk.req_seq := by
      intro q hq
      obtain ⟨hmem, hcond⟩ := List.mem_filter.mp hq
      obtain ⟨hanswer, hyoung⟩ := of_decide_eq_true hcond
      refine ⟨hmem, (h.old q hmem hanswer).resolve_right ?_⟩
      omega
    have hsub : ((r.outstanding now).map Prod.fst).Nodup :=
      h.nodup.sublist (List.filter_sublist.map Prod.fst)
    match hlist : r.outstanding now with
    | [] => simp
    | [q] => simp
    | p :: q :: rest =>
      have hp := (hout p (by simp [hlist])).2
      have hq := (hout q (by simp [hlist])).2
      rw [hlist, List.map_cons, List.map_cons] at hsub
      have hne : p.1 ≠ q.1 := fun heq => (List.nodup_cons.mp hsub).1 (by simp [heq])
      omega
  own := h.own
  window := by
    rw [h.since]
    exact h.window

theorem RequestsOk.released (h : RequestsOk r) (hclock : r.clock ≤ check.1)
    (hcheck : check.1 ≤ now.1) (hopen : r.xrk.last_req_seq = 0 ∨ r.xrk.timedOut check = true) :
    ∀ q ∈ r.sentAt, q.1 ∉ r.answered → q.1 = 0 ∨ q.2 + request_timeout_ms ≤ now.1 := by
  intro q hq hanswer
  by_cases hzero : r.xrk.last_req_seq = 0
  · rcases h.free hzero q hq hanswer with h0 | hold
    · exact Or.inl h0
    · exact Or.inr (by omega)
  · have hout := (timedOut_iff.mp (hopen.resolve_left hzero)).2
    obtain ⟨hseq, hmem⟩ := h.newest hzero
    rcases h.old q hq hanswer with hnew | hold
    · have heq := h.eq_of_fst hq hmem (by dsimp only; omega)
      rw [heq]
      exact Or.inr (by dsimp only; omega)
    · exact Or.inr (by omega)

theorem RequestsOk.quiet (h : RequestsOk r) {xrk : Xrk} {clock : Nat} (hclock : r.clock ≤ clock)
    (hreq : xrk.req_seq = r.xrk.req_seq) (htimes : xrk.freq_request_times = r.xrk.freq_request_times)
    (hwait : xrk.last_req_seq ≠ 0 → xrk.last_req_seq = r.xrk.last_req_seq ∧
      xrk.request_start_time = r.xrk.request_start_time)
    (hfree : xrk.last_req_seq = 0 → ∀ q ∈ r.sentAt, q.1 ∉ r.answered →
      q.1 = 0 ∨ q.2 + request_timeout_ms ≤ clock) :
    RequestsOk { r with xrk := xrk, clock := clock } where
  below := by
    intro q hq
    change q.1 < xrk.req_seq
    rw [hreq]
    exact h.below q hq
  nodup := h.nodup
  newest := by
    intro hne
    obtain ⟨hseq, hstart⟩ := hwait hne
    change xrk.last_req_seq + 1 = xrk.req_seq ∧
      (xrk.last_req_seq, xrk.request_start_time) ∈ r.sentAt
    rw [hseq, hstart, hreq]
    exact h.newest (hseq ▸ hne)
  old := by
    intro q hq hanswer
    change q.1 + 1 = xrk.req_seq ∨ _ < clock
    rw [hreq]
    exact (h.old q hq hanswer).imp_right fun hold => Nat.lt_of_lt_of_le hold hclock
  free := hfree
  own := h.own
  since := h.since.trans htimes.symm
  window := htimes.le.trans h.window

/-- An event that sends a request. -/
theorem RequestsOk.sent (h : RequestsOk r) {xrk : Xrk}
    (hclock : r.clock ≤ check.1) (hcheck : check.1 ≤ now.1)
    (hopen : r.xrk.last_req_seq = 0 ∨ r.xrk.timedOut check = true) (hmay : r.MaySend now)
    (hpass : r.xrk.refuses now = false) (hlock : xrk.lock = r.xrk.lock.free.send now) :
    RequestsOk { r with
      xrk := xrk
      clock := now.1
      sentAt := r.sentAt ++ [(r.xrk.req_seq, now.1)]
      sinceReset := if r.xrk.lock.Resets now then 1 else r.sinceReset + 1 } := by
  have hseq : xrk.last_req_seq = r.xrk.req_seq := congrArg SendLock.last_req_seq hlock
  have hreq : xrk.req_seq = r.xrk.req_seq + 1 := congrArg SendLock.req_seq hlock
  have hstart : xrk.request_start_time = now.1 := congrArg SendLock.request_start_time hlock
  have htimes : xrk.freq_request_times =
      if r.xrk.lock.Resets now then 1 else r.xrk.freq_request_times + 1 :=
    congrArg SendLock.freq_request_times hlock
  have hold : ∀ q ∈ r.sentAt, q.1 ∉ r.answered → q.2 + request_timeout_ms < now.1 := by
    intro q hq hanswer
    obtain ⟨hedge, hzero⟩ := hmay.2 q hq hanswer
    rcases h.released hclock hcheck hopen q hq hanswer with h0 | hle
    · exact hzero h0
    · omega
  refine ⟨?_, ?_, ?_, ?_, ?_, h.own, ?_, ?_⟩
  · intro q hq
    change q.1 < xrk.req_seq
    rcases List.mem_append.mp hq with hq | hq
    · have := h.below q hq
      omega
    · rw [List.mem_singleton.mp hq, hreq]
      exact Nat.lt_succ_self _
  · change ((r.sentAt ++ [_]).map Prod.fst).Nodup
    rw [List.map_append]
    refine h.nodup.append (List.nodup_singleton _) (List.disjoint_singleton.mpr ?_)
    intro hmem
    obtain ⟨q, hq, hid⟩ := List.mem_map.mp hmem
    exact Nat.lt_irrefl _ (hid ▸ h.below q hq)
  · intro _
    refine ⟨?_, List.mem_append_right _ ?_⟩
    · change xrk.last_req_seq + 1 = xrk.req_seq
      rw [hseq, hreq]
    · rw [List.mem_singleton, ← hseq, ← hstart]
  · intro q hq hanswer
    rcases List.mem_append.mp hq with hq | hq
    · exact Or.inr (hold q hq hanswer)
    · rw [List.mem_singleton.mp hq]
      exact Or.inl hreq.symm
  · intro hzero q hq hanswer
    rcases List.mem_append.mp hq with hq | hq
    · exact Or.inr (hold q hq hanswer).le
    · rw [List.mem_singleton.mp hq]
      exact Or.inl (hseq.symm.trans hzero)
  · change (if r.xrk.lock.Resets now then 1 else r.sinceReset + 1) = xrk.freq_request_times
    rw [htimes, h.since]
  · change xrk.freq_request_times ≤ _
    rw [htimes]
    split_ifs with hreset
    · decide
    · have hfew := h.window
      have hedge := hmay.1
      have hreset' : ¬ (r.xrk.freq_send_start_time = 0 ∨
          r.xrk.freq_send_start_time + freq_check_time < now.1) := hreset
      simp only [Xrk.refuses, Bool.and_eq_false_iff, Bool.not_eq_false', Bool.or_eq_true,
        decide_eq_true_eq, decide_eq_false_iff_not] at hpass
      omega

theorem newSeqs_self {l l' : SendLock} (h : l'.seqs = l.seqs) : newSeqs l l' = [] := by
  rw [newSeqs, h, List.drop_length]

theorem newSeqs_send (l : SendLock) (now : Clock) : newSeqs l (l.free.send now) = [l.req_seq] :=
  List.drop_left

/-- The clock after an event. -/
def Requests.clockAfter (r : Requests) (t : Turn) : Nat :=
  (t.event.readings.map fun p => p.2.1).getD r.clock

theorem Requests.step_quiet (hcall : t.event.isResponse = false)
    (hseqs : (r.xrk.step t.event).lock.seqs = r.xrk.lock.seqs)
    (hfreq : (r.xrk.step t.event).freq_send_start_time = r.xrk.freq_send_start_time) :
    r.step t = { r with xrk := r.xrk.step t.event, clock := r.clockAfter t } := by
  simp only [Requests.step, newSeqs_self hseqs, hcall, hfreq, List.map_nil, List.append_nil,
    Bool.false_and, Bool.false_eq_true, if_false, if_true, List.length_nil, Nat.add_zero]
  rfl

theorem Requests.step_sent (hcall : t.event.isResponse = false)
    (hread : t.event.readings = some (check, now))
    (hlock : (r.xrk.step t.event).lock = r.xrk.lock.free.send now) :
    r.step t = { r with
      xrk := r.xrk.step t.event
      clock := now.1
      sentAt := r.sentAt ++ [(r.xrk.req_seq, now.1)]
      sinceReset := if r.xrk.lock.Resets now then 1 else r.sinceReset + 1 } := by
  have hstart : (r.xrk.step t.event).freq_send_start_time =
      if r.xrk.lock.Resets now then now.1 else r.xrk.freq_send_start_time :=
    congrArg SendLock.freq_send_start_time hlock
  have hsince : (if (r.xrk.step t.event).freq_send_start_time = r.xrk.freq_send_start_time then
      r.sinceReset + 1 else 1) = if r.xrk.lock.Resets now then 1 else r.sinceReset + 1 := by
    rw [hstart]
    by_cases hreset : r.xrk.lock.Resets now
    · have hne : now.1 ≠ r.xrk.freq_send_start_time := by
        have hpos := now.2
        have hreset' : r.xrk.freq_send_start_time = 0 ∨
          r.xrk.freq_send_start_time + freq_check_time < now.1 := hreset
        omega
      rw [if_pos hreset, if_pos hreset, if_neg hne]
    · rw [if_neg hreset, if_neg hreset, if_pos rfl]
  have hnew : newSeqs r.xrk.lock (r.xrk.step t.event).lock = [r.xrk.req_seq] := by
    rw [hlock, newSeqs_send]
    rfl
  simp only [Requests.step, hnew, hcall, hread, List.map_cons, List.map_nil, Bool.false_and,
    Bool.false_eq_true, if_false, List.length_singleton, Option.map_some, Option.getD_some, hsince]

theorem Requests.clockAfter_le (hok : TurnOk r t) : r.clock ≤ r.clockAfter t := by
  unfold Requests.clockAfter
  cases hread : t.event.readings with
  | none => exact Nat.le_refl _
  | some p =>
    obtain ⟨hfirst, hlast⟩ := hok.1 p hread
    exact hfirst.trans hlast

/-- A call or a timer keeps what holds of the requests. -/
theorem RequestsOk.call (h : RequestsOk r) (hok : TurnOk r t) (hcall : t.event.isResponse = false) :
    RequestsOk (r.step t) := by
  have hclock := Requests.clockAfter_le hok
  rcases r.xrk.goes t.event hcall with ⟨-, hlock⟩ | ⟨now, s₁, hat, ⟨hdata, hjson, hlock⟩, hgoes⟩
  · rw [Requests.step_quiet hcall (congrArg SendLock.seqs hlock)
      (congrArg SendLock.freq_send_start_time hlock)]
    refine h.quiet hclock (congrArg SendLock.req_seq hlock)
      (congrArg SendLock.freq_request_times hlock) ?_ ?_
    · intro _
      exact ⟨congrArg SendLock.last_req_seq hlock, congrArg SendLock.request_start_time hlock⟩
    · intro hzero q hq hanswer
      have hseq : (r.xrk.step t.event).last_req_seq = r.xrk.last_req_seq :=
        congrArg SendLock.last_req_seq hlock
      exact (h.free (hseq.symm.trans hzero) q hq hanswer).imp_right fun hle => hle.trans hclock
  · obtain ⟨check, hread, hopen⟩ := sendsAt_free hat
    obtain ⟨hfirst, hlast⟩ := hok.1 (check, now) hread
    have hafter : r.clockAfter t = now.1 := by
      rw [Requests.clockAfter, hread]
      rfl
    have hreleased := h.released hfirst hlast hopen
    rw [Xrk.sendReports_lock, refuses_of_lock hlock, hlock, hjson, hdata] at hgoes
    split_ifs at hgoes with hneed hrefuse
    · rw [Requests.step_quiet hcall (congrArg SendLock.seqs hgoes :)
        (congrArg SendLock.freq_send_start_time hgoes :)]
      refine h.quiet hclock (congrArg SendLock.req_seq hgoes :)
        (congrArg SendLock.freq_request_times hgoes :) ?_ ?_
      · intro hne
        exact absurd (congrArg SendLock.last_req_seq hgoes :) hne
      · intro _
        rw [hafter]
        exact hreleased
    · have hpass : r.xrk.refuses now = false := Bool.eq_false_iff.mpr hrefuse
      rw [Requests.step_sent hcall hread hgoes]
      exact h.sent hfirst hlast hopen (hok.2.1 now hat hneed hpass) hpass hgoes
    · rw [Requests.step_quiet hcall (congrArg SendLock.seqs hgoes :)
        (congrArg SendLock.freq_send_start_time hgoes :)]
      refine h.quiet hclock (congrArg SendLock.req_seq hgoes :)
        (congrArg SendLock.freq_request_times hgoes :) ?_ ?_
      · intro hne
        exact absurd (congrArg SendLock.last_req_seq hgoes :) hne
      · intro _
        rw [hafter]
        exact hreleased

theorem Requests.step_response (ht : t.event = .response parsed) :
    r.step t = { r with
      xrk := r.xrk.onResponse parsed
      answered := r.answered ++ [t.answers]
      cleared :=
        if r.xrk.last_req_seq ≠ 0 ∧ (r.xrk.onResponse parsed).last_req_seq = 0 then
          r.cleared ++ [(t.answers, r.xrk.last_req_seq)]
        else r.cleared } := by
  have hlock := r.xrk.onResponse_lock parsed
  have hseqs : (r.xrk.onResponse parsed).lock.seqs = r.xrk.lock.seqs := by
    rw [hlock]
    split <;> rfl
  have hfreq : (r.xrk.onResponse parsed).freq_send_start_time = r.xrk.freq_send_start_time := by
    refine (congrArg SendLock.freq_send_start_time hlock).trans ?_
    split <;> rfl
  simp only [Requests.step, ht, Event.isResponse, Event.readings, Xrk.step, newSeqs_self hseqs,
    hfreq, if_true, List.map_nil, List.append_nil, List.length_nil, Nat.add_zero, Bool.true_and,
    Option.map_none, Option.getD_none, Bool.and_eq_true, decide_eq_true_eq]

/-- A response keeps what holds of the requests. -/
theorem RequestsOk.response (h : RequestsOk r) (ht : t.event = .response parsed)
    (hok : TurnOk r t) : RequestsOk (r.step t) := by
  have hlock := r.xrk.onResponse_lock parsed
  have hmem : ∀ {q : Nat × Nat}, q.1 ∉ r.answered ++ [t.answers] →
      q.1 ∉ r.answered ∧ q.1 ≠ t.answers := by
    intro q hq
    rw [List.mem_append, List.mem_singleton, not_or] at hq
    exact hq
  rw [Requests.step_response ht]
  cases hund : !r.xrk.hasJSON || parsed with
  | false =>
    rw [hund, if_neg Bool.false_ne_true] at hlock
    have hseq : (r.xrk.onResponse parsed).last_req_seq = r.xrk.last_req_seq :=
      congrArg SendLock.last_req_seq hlock
    have hreq : (r.xrk.onResponse parsed).req_seq = r.xrk.req_seq :=
      congrArg SendLock.req_seq hlock
    have hkept := h.quiet (Nat.le_refl _) hreq (congrArg SendLock.freq_request_times hlock)
      (fun _ => ⟨hseq, congrArg SendLock.request_start_time hlock⟩)
      (fun hzero => h.free (hseq.symm.trans hzero))
    rw [hseq, if_neg fun hboth => hboth.1 hboth.2]
    exact ⟨hkept.below, hkept.nodup, hkept.newest,
      fun q hq hanswer => hkept.old q hq (hmem hanswer).1,
      fun hzero q hq hanswer => hkept.free hzero q hq (hmem hanswer).1,
      hkept.own, hkept.since, hkept.window⟩
  | true =>
    rw [hund, if_pos rfl] at hlock
    have hseq : (r.xrk.onResponse parsed).last_req_seq = 0 :=
      congrArg SendLock.last_req_seq hlock
    have hreq : (r.xrk.onResponse parsed).req_seq = r.xrk.req_seq :=
      congrArg SendLock.req_seq hlock
    have hown : r.xrk.last_req_seq ≠ 0 → t.answers = r.xrk.last_req_seq := by
      intro hne
      have hund' : t.event.understood r.xrk = true := by
        rw [ht]
        exact hund
      have hnewest := (hok.2.2 hund').resolve_left hne
      have hlast := (h.newest hne).1
      omega
    refine ⟨?_, h.nodup, fun hne => absurd hseq hne, ?_, ?_, ?_, ?_, ?_⟩
    · intro q hq
      change q.1 < (r.xrk.onResponse parsed).req_seq
      rw [hreq]
      exact h.below q hq
    · intro q hq hanswer
      change q.1 + 1 = (r.xrk.onResponse parsed).req_seq ∨ _
      rw [hreq]
      exact h.old q hq (hmem hanswer).1
    · intro _ q hq hanswer
      obtain ⟨hopen, hother⟩ := hmem hanswer
      by_cases hzero : r.xrk.last_req_seq = 0
      · exact h.free hzero q hq hopen
      · rcases h.old q hq hopen with hnew | hold
        · have hlast := (h.newest hzero).1
          have hanswers := hown hzero
          omega
        · exact Or.inr hold.le
    · intro p hp
      by_cases hboth : r.xrk.last_req_seq ≠ 0 ∧ (r.xrk.onResponse parsed).last_req_seq = 0
      · rw [if_pos hboth] at hp
        rcases List.mem_append.mp hp with hp | hp
        · exact h.own p hp
        · rw [List.mem_singleton.mp hp]
          exact hown hboth.1
      · rw [if_neg hboth] at hp
        exact h.own p hp
    · exact h.since.trans (congrArg SendLock.freq_request_times hlock).symm
    · exact (congrArg SendLock.freq_request_times hlock).le.trans h.window

theorem RequestsOk.step (h : RequestsOk r) (hok : TurnOk r t) : RequestsOk (r.step t) := by
  cases hresp : t.event.isResponse with
  | false => exact h.call hok hresp
  | true =>
    cases ht : t.event with
    | response parsed => exact h.response ht hok
    | attr | strattr | log | loadPlugin | pluginLog | reportToServer | fire | configure =>
      rw [ht] at hresp
      cases hresp

theorem Requests.init_ok (hasJSON hasUrl : Bool) (report_url : JsString)
    (log_config_id master_user_id : ℕ∞) (access_key : JsString) :
    RequestsOk (.init (.init hasJSON hasUrl report_url log_config_id master_user_id access_key)) :=
  ⟨by simp [Requests.init], List.nodup_nil, fun hne => absurd rfl hne, by simp [Requests.init],
    by simp [Requests.init], by simp [Requests.init], rfl, Nat.zero_le _⟩

/-- While no response comes after the next request and no request is sent at the very end of a
time, one request is outstanding, a response opens the lock for its own request only, and the
requests of a window are few. -/
theorem requests_disciplined (hasJSON hasUrl : Bool) (report_url : JsString)
    (log_config_id master_user_id : ℕ∞) (access_key : JsString) (turns : List Turn)
    (hturns : Along Requests.step TurnOk
      (.init (.init hasJSON hasUrl report_url log_config_id master_user_id access_key)) turns)
    (n : Nat) :
    Disciplined ((turns.take n).foldl Requests.step
      (.init (.init hasJSON hasUrl report_url log_config_id master_user_id access_key))) := by
  have hinit := Requests.init_ok hasJSON hasUrl report_url log_config_id master_user_id access_key
  exact ((hturns.take n).invariant (fun _ _ h hok => h.step hok) hinit).disciplined

/-- So many milliseconds and one. -/
def msAfter (n : Nat) : Clock := ⟨n + 1, Nat.succ_pos n⟩

/-- A number for attribute 1, and a call that sends it. -/
def reportAt (n : Nat) : List Turn :=
  [⟨.attr .add 1 5 (msAfter n), 0⟩, ⟨.reportToServer none (msAfter n), 0⟩]

/-- The second report follows the response of the first, and the third waits. -/
def promptResponse : List Turn :=
  reportAt 1000 ++ [⟨.response true, 1⟩] ++ reportAt 1200 ++ reportAt 1300

theorem requests_disciplined_prompt :
    Disciplined ((promptResponse.take 7).foldl Requests.step (.init startedXrk)) := by
  have hturns : Along Requests.step TurnOk (.init startedXrk) promptResponse := by
    decide +kernel
  exact requests_disciplined true true [47] 7 0 [] promptResponse hturns 7

/-- The delay timer gives the first request up and sends the second, whose response the one to the
first is taken for; the third is sent at once. -/
def lateResponse : List Turn :=
  reportAt 1000 ++ reportAt 2000 ++ [⟨.fire 2 (msAfter 9500) (msAfter 9500), 0⟩, ⟨.response true, 1⟩] ++
    reportAt 9600

/-- Two requests are outstanding, and the response to the first has opened the lock of the second. -/
theorem lateResponse_opens :
    ¬ Disciplined (lateResponse.foldl Requests.step (.init startedXrk)) := by
  intro hdisc
  have hown := hdisc.own
  revert hown
  decide +kernel

end Runs

end XrkMonitor.Browser
