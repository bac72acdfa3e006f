import Mathlib.Data.ENat.Basic

/-!
# The browser API

`dmt_xrkmonitor.js` collects attributes, string attributes and logs in arrays and
hands them to the server in one request at a time. A request is started by a
call, by a limit that is reached, by the periodic timer or by a delay timer; a
delay timer waits for the response of the request before.

## Implementation notes

An event is one call, one callback of a timer or one response; the browser runs it
to its end. Timers fire in any order. `setTimeout` gives a new number each time.
`sent` lists what was handed to `send`, with the source of its logs. A number is a
whole number or infinity; sums are rounded as doubles are. Creating, opening and
sending a request does not throw. `JSON` is there or not for the whole run. The
plugins are not part of the repository: one of them is its configuration and its
array of logs, which it fills. Delays in milliseconds decide nothing here, and
what is kept for messages only (`max_api_delay` and so on) is left out.
-/

namespace XrkMonitor.Browser

/-- A string is its UTF-16 units. -/
abbrev JsString := List UInt16

/-- A reading of `new Date().getTime()`, in milliseconds since 1970. -/
abbrev Clock := {t : Nat // 0 < t}

/-- A sum of whole numbers, rounded to 53 binary places; half is rounded to even. -/
def roundPlaces (n : Nat) : Nat :=
  if n ≤ 2 ^ 53 then n
  else
    let shift := Nat.log2 n - 52
    let q := n / 2 ^ shift
    let r := n % 2 ^ shift
    let half := 2 ^ (shift - 1)
    (if half < r ∨ (r = half ∧ q % 2 = 1) then q + 1 else q) * 2 ^ shift

/-- The number that stands for a whole number. -/
def toNumber (n : Nat) : ℕ∞ := if 2 ^ 1024 ≤ roundPlaces n then ⊤ else (roundPlaces n : ℕ∞)

/-- `+=` on numbers. -/
def addNumber (a : ℕ∞) (n : Nat) : ℕ∞ :=
  match a with
  | none => ⊤
  | some m => toNumber (m + n)

inductive LogType
  | error
  | warn
  | reqerr
  | info
  | debug
deriving DecidableEq

/-- An entry of `logs`. -/
structure Log (ν : Type) where
  type : LogType
  msg : JsString
  time : ν
deriving DecidableEq

/-- An entry of `attrs`. -/
structure Attr (ν : Type) where
  id : ν
  number : ν
deriving DecidableEq

/-- An entry of `strings`. -/
structure StrInfo (ν : Type) where
  string : JsString
  number : ν
deriving DecidableEq

/-- An entry of `strattrs`. -/
structure StrAttr (ν : Type) where
  id : ν
  strings : List (StrInfo ν)
deriving DecidableEq

/-- The object `reports`; an empty array, user 0 and an empty key are not set. -/
structure Reports (ν : Type) where
  log_config_id : ν
  logs : List (Log ν)
  attrs : List (Attr ν)
  strattrs : List (StrAttr ν)
  master_user_id : ν
  access_key : JsString
deriving DecidableEq

/-- Whose logs a request carries: its own ones, or those of a plugin. -/
inductive Source
  | own
  | plugin (i : Nat)
deriving DecidableEq

/-- A request that was handed to `send`. -/
structure Request where
  req_seq : Nat
  source : Source
  reports : Reports ℕ∞
deriving DecidableEq

/-- What runs when a timer fires: the callback of `_report_to_server`, the one of the frequency
check, or `_try_report_to_server`. -/
inductive Callback
  | delay
  | frequency
  | periodic
deriving DecidableEq

structure Timer where
  id : Nat
  callback : Callback
deriving DecidableEq

structure Plugin where
  logconfig_id : ℕ∞
  logs : List (Log ℕ∞)
deriving DecidableEq

/-- What the object reports with, what waits to be sent, and what was sent. -/
structure Data where
  log_config_id : ℕ∞
  master_user_id : ℕ∞
  access_key : JsString
  plugins : List Plugin
  logs : List (Log ℕ∞)
  attrs : List (Attr ℕ∞)
  strattrs : List (StrAttr ℕ∞)
  sent : List Request
deriving DecidableEq

/-- The object with its timers. -/
structure Xrk extends Data where
  hasJSON : Bool
  report_url : JsString
  last_delay_timer_id : Nat
  last_req_seq : Nat
  req_seq : Nat
  cur_strattrs_strlen : Nat
  cur_logs_strlen : Nat
  request_start_time : Nat
  freq_send_start_time : Nat
  freq_request_times : Nat
  timers : List Timer
  nextTimer : Nat
deriving DecidableEq

def max_attrs_per_req : Nat := 120
def max_strattrs_strlen : Nat := 1000
def max_logs_strlen : Nat := 900
def freq_check_time : Nat := 1500
def freq_check_limit_times : Nat := 3
def request_timeout_ms : Nat := 8000

/-- The object after `_init`; without the address of the script `_init` gives up before it counts
and before it starts the periodic timer. -/
def Xrk.init (hasJSON hasUrl : Bool) (report_url : JsString) (log_config_id master_user_id : ℕ∞)
    (access_key : JsString) : Xrk where
  hasJSON := hasJSON
  report_url := report_url
  log_config_id := log_config_id
  master_user_id := master_user_id
  access_key := access_key
  last_delay_timer_id := 0
  last_req_seq := 0
  req_seq := if hasUrl then 1 else 0
  cur_strattrs_strlen := 0
  cur_logs_strlen := 0
  request_start_time := 0
  freq_send_start_time := 0
  freq_request_times := 0
  plugins := []
  logs := []
  attrs := []
  strattrs := []
  timers := if hasUrl then [⟨1, .periodic⟩] else []
  nextTimer := 2
  sent := []

/-- `setTimeout`: the timer gets the number `nextTimer`. -/
def Xrk.setTimeout (s : Xrk) (callback : Callback) : Xrk :=
  { s with timers := s.timers ++ [⟨s.nextTimer, callback⟩], nextTimer := s.nextTimer + 1 }

def Xrk.clearTimeout (s : Xrk) (id : Nat) : Xrk :=
  { s with timers := s.timers.filter fun t => t.id ≠ id }

/-- A timer is started and its number kept. -/
def Xrk.setDelayTimer (s : Xrk) (callback : Callback) : Xrk :=
  { s.setTimeout callback with last_delay_timer_id := s.nextTimer }

/-- The delay timer is cancelled and its number forgotten. -/
def Xrk.clearDelayTimer (s : Xrk) : Xrk :=
  if s.last_delay_timer_id ≠ 0 then
    { s.clearTimeout s.last_delay_timer_id with last_delay_timer_id := 0 }
  else s

/-- The delay timer is cancelled and its number stays, as in the limits of attributes. -/
def Xrk.clearTimeoutOnly (s : Xrk) : Xrk :=
  if s.last_delay_timer_id ≠ 0 then s.clearTimeout s.last_delay_timer_id else s

/-- The source of the logs of the next request. -/
def Data.logSource (d : Data) : Source :=
  if d.logs ≠ [] then .own
  else
    match d.plugins.findIdx? fun p => p.logs ≠ [] with
    | none => .own
    | some i => .plugin i

/-- The logs that wait in a source. -/
def Data.logsOf (d : Data) : Source → List (Log ℕ∞)
  | .own => d.logs
  | .plugin i => (d.plugins[i]?.map Plugin.logs).getD []

/-- The log configuration of a source. -/
def Data.logConfigOf (d : Data) : Source → ℕ∞
  | .own => d.log_config_id
  | .plugin i => (d.plugins[i]?.map Plugin.logconfig_id).getD 0

/-- `reports` of the next request. -/
def Data.reports (d : Data) : Reports ℕ∞ where
  log_config_id := d.logConfigOf d.logSource
  logs := d.logsOf d.logSource
  attrs := d.attrs
  strattrs := d.strattrs
  master_user_id := d.master_user_id
  access_key := d.access_key

/-- `need_report`. -/
def Data.needReport (d : Data) : Bool :=
  d.reports.logs ≠ [] || d.attrs ≠ [] || d.strattrs ≠ []

/-- The check against frequent requests refuses one at this time. -/
def Xrk.refuses (s : Xrk) (now : Clock) : Bool :=
  !(s.freq_send_start_time = 0 || s.freq_send_start_time + freq_check_time < now.1) &&
    (now.1 < s.freq_send_start_time + freq_check_time &&
      freq_check_limit_times ≤ s.freq_request_times)

/-- The counters of the check after a request that it lets pass. -/
def Xrk.countRequest (s : Xrk) (now : Clock) : Xrk :=
  if s.freq_send_start_time = 0 ∨ s.freq_send_start_time + freq_check_time < now.1 then
    { s with freq_send_start_time := now.1, freq_request_times := 1 }
  else { s with freq_request_times := s.freq_request_times + 1 }

/-- A request is handed to `send`. -/
def Xrk.sendRequest (s : Xrk) (source : Source) (reports : Reports ℕ∞) : Xrk :=
  { s with
    last_req_seq := s.req_seq
    req_seq := s.req_seq + 1
    sent := s.sent ++ [⟨s.req_seq, source, reports⟩] }

def Xrk.startRequest (s : Xrk) (now : Clock) : Xrk := { s with request_start_time := now.1 }

/-- `_to_server`. -/
def Xrk.toServer (s : Xrk) (source : Source) (reports : Reports ℕ∞) (now : Clock) : Bool × Xrk :=
  let s := s.startRequest now
  if s.refuses now then (false, s.setDelayTimer .frequency)
  else (true, (s.countRequest now).sendRequest source reports)

/-- A new array for the logs of the plugin that was sent. -/
def clearLogs (plugins : List Plugin) : Source → List Plugin
  | .own => plugins
  | .plugin i => plugins.modify i fun p => { p with logs := [] }

/-- New arrays after a request. -/
def Xrk.clearArrays (s : Xrk) (source : Source) : Xrk :=
  { s with logs := [], attrs := [], strattrs := [], plugins := clearLogs s.plugins source }

/-- No delay timer, and the lengths are counted anew. -/
def Xrk.quiet (s : Xrk) : Xrk :=
  { s.clearDelayTimer with cur_strattrs_strlen := 0, cur_logs_strlen := 0 }

/-- The rest of `_report_to_server` when no request is waited for. -/
def Xrk.sendReports (s : Xrk) (now : Clock) : Xrk :=
  let s := s.quiet
  if s.needReport && s.hasJSON then
    match s.toServer s.logSource s.reports now with
    | (true, s') => s'.clearArrays s.logSource
    | (false, s') => s'
  else s

/-- `_report_to_server`. -/
def Xrk.reportToServer' (s : Xrk) (delay : Bool) (now : Clock) : Xrk :=
  if delay ∨ s.last_req_seq ≠ 0 then
    if s.last_delay_timer_id = 0 then s.setDelayTimer .delay else s
  else s.sendReports now

/-- `report_to_server`. -/
def Xrk.reportToServer (s : Xrk) (delay : Option Int) (now : Clock) : Xrk :=
  if s.report_url = [] then s
  else if (∀ d ∈ delay, d ≤ 0) ∧ s.last_req_seq = 0 then s.clearDelayTimer.reportToServer' false now
  else if s.last_delay_timer_id ≠ 0 then s
  else s.reportToServer' true now

inductive Opr
  | add
  | set
deriving DecidableEq

/-- What a call makes of the number of an entry. -/
def Opr.apply (opr : Opr) (old : ℕ∞) (number : Nat) : ℕ∞ :=
  match opr with
  | .add => addNumber old number
  | .set => (number : ℕ∞)

/-- The loop over `attrs`: the entry of the attribute is changed, if there is one. -/
def changeAttr (opr : Opr) (id : ℕ∞) (number : Nat) : List (Attr ℕ∞) → Option (List (Attr ℕ∞))
  | [] => none
  | a :: attrs =>
    if a.id = id then some ({ a with number := opr.apply a.number number } :: attrs)
    else (changeAttr opr id number attrs).map (a :: ·)

/-- The loop over `strings`. -/
def changeString (opr : Opr) (string : JsString) (number : Nat) :
    List (StrInfo ℕ∞) → Option (List (StrInfo ℕ∞))
  | [] => none
  | x :: strings =>
    if x.string = string then some ({ x with number := opr.apply x.number number } :: strings)
    else (changeString opr string number strings).map (x :: ·)

/-- A new entry of `strings`. -/
def newString (string : JsString) (number : Nat) : StrInfo ℕ∞ := ⟨string.take 50, number⟩

/-- The loop over `strattrs`, and whether a string was added. -/
def changeStrattr (opr : Opr) (id : ℕ∞) (string : JsString) (number : Nat) :
    List (StrAttr ℕ∞) → List (StrAttr ℕ∞) × Bool
  | [] => ([⟨id, [newString string number]⟩], true)
  | a :: strattrs =>
    if a.id = id then
      match changeString opr string number a.strings with
      | some strings => ({ a with strings := strings } :: strattrs, false)
      | none => ({ a with strings := a.strings ++ [newString string number] } :: strattrs, true)
    else
      let x := changeStrattr opr id string number strattrs
      (a :: x.1, x.2)

/-- `_inner_xrk_report_attr`. -/
def Xrk.innerXrkReportAttr (s : Xrk) (opr : Opr) (id : ℕ∞) (number : Nat) (now : Clock) : Xrk :=
  if number = 0 then s
  else
    match changeAttr opr id number s.attrs with
    | some attrs => { s with attrs := attrs }
    | none =>
      let s := { s with attrs := s.attrs ++ [⟨id, number⟩] }
      if max_attrs_per_req ≤ s.attrs.length then s.clearTimeoutOnly.reportToServer' false now
      else s

/-- `_inner_xrk_report_strattr`. -/
def Xrk.innerXrkReportStrattr (s : Xrk) (opr : Opr) (id : ℕ∞) (string : JsString) (number : Nat)
    (now : Clock) : Xrk :=
  if number = 0 then s
  else
    let x := changeStrattr opr id string number s.strattrs
    let s := { s with strattrs := x.1 }
    if x.2 then
      let s := { s with cur_strattrs_strlen := s.cur_strattrs_strlen + (string.take 50).length }
      if max_strattrs_strlen ≤ s.cur_strattrs_strlen then
        s.clearTimeoutOnly.reportToServer' false now
      else s
    else s

/-- `_report_log`. -/
def Xrk.reportLog (s : Xrk) (type : LogType) (msg : JsString) (time now : Clock) : Xrk :=
  if s.log_config_id = 0 then s
  else
    let s := { s with
      logs := s.logs ++ [⟨type, msg, (time.1 / 1000 * 1000 : Nat)⟩]
      cur_logs_strlen := s.cur_logs_strlen + msg.length }
    if max_logs_strlen ≤ s.cur_logs_strlen then s.clearDelayTimer.reportToServer' false now
    else s

/-- `_on_response`; a text that `JSON.parse` refuses ends it. -/
def Xrk.onResponse (s : Xrk) (parsed : Bool) : Xrk :=
  if s.hasJSON && !parsed then s else { s with last_req_seq := 0 }

/-- The callback of a delay timer. -/
def Xrk.onDelayTimer (s : Xrk) (check now : Clock) : Xrk :=
  let s := { s with last_delay_timer_id := 0 }
  let s :=
    if 0 < s.request_start_time ∧ s.request_start_time + request_timeout_ms ≤ check.1 then
      { s with last_req_seq := 0 }
    else s
  s.reportToServer' false now

/-- A timer fires. The callback of the frequency check goes through `p_self.self_xrk`, which is not
there, and throws. -/
def Xrk.fire (s : Xrk) (id : Nat) (check now : Clock) : Xrk :=
  match s.timers.find? fun t => t.id = id with
  | none => s
  | some t =>
    let s := s.clearTimeout id
    match t.callback with
    | .delay => s.onDelayTimer check now
    | .frequency => s
    | .periodic => (s.reportToServer none now).setTimeout .periodic

/-- What happens to the object. -/
inductive Event
  | attr (opr : Opr) (id : ℕ∞) (number : Nat) (now : Clock)
  | strattr (opr : Opr) (id : ℕ∞) (string : JsString) (number : Nat) (now : Clock)
  | log (type : LogType) (msg : JsString) (time now : Clock)
  | loadPlugin (plugin : Plugin)
  | pluginLog (i : Nat) (log : Log ℕ∞)
  | reportToServer (delay : Option Int) (now : Clock)
  | fire (id : Nat) (check now : Clock)
  | response (parsed : Bool)
  | configure (report_url : JsString) (log_config_id master_user_id : ℕ∞) (access_key : JsString)

def Xrk.step (s : Xrk) : Event → Xrk
  | .attr opr id number now => s.innerXrkReportAttr opr id number now
  | .strattr opr id string number now => s.innerXrkReportStrattr opr id string number now
  | .log type msg time now => s.reportLog type msg time now
  | .loadPlugin plugin => { s with plugins := s.plugins ++ [plugin] }
  | .pluginLog i log =>
    { s with plugins := s.plugins.modify i fun p => { p with logs := p.logs ++ [log] } }
  | .reportToServer delay now => s.reportToServer delay now
  | .fire id check now => s.fire id check now
  | .response parsed => s.onResponse parsed
  | .configure report_url log_config_id master_user_id access_key =>
    { s with
      report_url := report_url
      log_config_id := log_config_id
      master_user_id := master_user_id
      access_key := access_key }

def Xrk.run (s : Xrk) (events : List Event) : Xrk := events.foldl Xrk.step s

section Lemmas

variable (s : Xrk) (now : Clock)

@[simp] theorem Xrk.setDelayTimer_toData (callback : Callback) :
    (s.setDelayTimer callback).toData = s.toData := rfl

@[simp] theorem Xrk.clearDelayTimer_toData : s.clearDelayTimer.toData = s.toData := by
  unfold Xrk.clearDelayTimer
  split <;> rfl

@[simp] theorem Xrk.clearTimeoutOnly_toData : s.clearTimeoutOnly.toData = s.toData := by
  unfold Xrk.clearTimeoutOnly
  split <;> rfl

@[simp] theorem Xrk.quiet_toData : s.quiet.toData = s.toData := s.clearDelayTimer_toData

@[simp] theorem Xrk.quiet_hasJSON : s.quiet.hasJSON = s.hasJSON := by
  unfold Xrk.quiet Xrk.clearDelayTimer
  split <;> rfl

@[simp] theorem Xrk.quiet_refuses : s.quiet.refuses now = s.refuses now := by
  unfold Xrk.quiet Xrk.clearDelayTimer
  split <;> rfl

/-- What `_to_server` makes of a request that passes the frequency check. -/
def Xrk.handed (s : Xrk) (now : Clock) : Xrk :=
  (((s.quiet.startRequest now).countRequest now).sendRequest
    s.logSource s.reports).clearArrays s.logSource

theorem Xrk.sendReports_eq : s.sendReports now =
    if s.needReport && s.hasJSON then
      if s.refuses now then (s.quiet.startRequest now).setDelayTimer .frequency
      else s.handed now
    else s.quiet := by
  unfold Xrk.sendReports
  dsimp only
  rw [s.quiet_toData, s.quiet_hasJSON]
  split
  · rw [← s.quiet_refuses]
    cases hrefuses : s.quiet.refuses now with
    | true =>
      have hserver : s.quiet.toServer s.logSource s.reports now =
          (false, (s.quiet.startRequest now).setDelayTimer .frequency) :=
        if_pos hrefuses
      rw [hserver]
      rfl
    | false =>
      have hserver : s.quiet.toServer s.logSource s.reports now =
          (true, ((s.quiet.startRequest now).countRequest now).sendRequest
            s.logSource s.reports) :=
        if_neg (ne_true_of_eq_false hrefuses)
      rw [hserver]
      rfl
  · rfl

end Lemmas

end XrkMonitor.Browser
