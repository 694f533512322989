import Fcore.Lib.Json
import Fcore.Lib.Upsert
import Fcore.Memory.Connection

/-!
# The tables of the reports

An observation says whether a target answered, a client report keeps the whole of a report, and
an attempt one try to connect. A report and its attempts are written by `INSERT ... ON CONFLICT
DO UPDATE`, which counts the row that it inserts and the row that it updates alike.
-/

namespace Fcore

structure BlockObservation where
  subscriptionId : Option Uuid
  targetHost : Option String
  address : Option IpAddr
  port : ℤ
  createdAt : DateTime

/-- The query of `count_recent`. A parameter that is null restricts nothing, and a column that
is null equals no parameter. -/
def countRecent (observations : Table Uuid BlockObservation) (address : Option IpAddr)
    (host : Option String) (port : ℤ) (subscriptionId : Option Uuid) (windowSecs : ℤ)
    (now : DateTime) : ℕ :=
  observations.entries.countP fun e =>
    decide (e.2.port = port) && (address.isNone || decide (e.2.address = address)) &&
      (host.isNone || decide (e.2.targetHost = host)) &&
      (subscriptionId.isNone || decide (e.2.subscriptionId = subscriptionId)) &&
      decide (now - windowSecs * 1000000000 < e.2.createdAt)

structure ClientReport where
  id : Uuid
  subscriptionId : Option Uuid
  supportTag : Option String
  mode : Option String
  appVersion : String
  platform : String
  os : Option String
  app : Json
  config : Json
  mtu : Json
  tunnel : Json
  network : Json
  session : Json
  device : Json
  payload : Json
  observedAt : DateTime
  deriving DecidableEq

structure ConnectionAttempt where
  id : Uuid
  reportId : Uuid
  subscriptionId : Option Uuid
  supportTag : Option String
  appVersion : String
  platform : String
  address : Option IpAddr
  port : Option ℤ
  protocol : Option String
  outcome : Option String
  detail : Option String
  waitedMs : Option ℤ
  attemptedAt : DateTime
  deriving DecidableEq

/-- What the conflict clause leaves of the stored report. -/
def ClientReport.conflict (old new : ClientReport) : ClientReport :=
  { new with
    subscriptionId := old.subscriptionId
    appVersion := old.appVersion
    platform := old.platform
    os := old.os }

/-- What the conflict clause takes from the new attempt. -/
def ConnectionAttempt.conflict (old new : ConnectionAttempt) : ConnectionAttempt :=
  { old with
    outcome := new.outcome
    detail := new.detail
    waitedMs := new.waitedMs
    attemptedAt := new.attemptedAt }

structure ReportDb where
  clientReports : Table Uuid ClientReport
  attempts : Table Uuid ConnectionAttempt

namespace ReportDb

/-- The table and the number of affected rows, which is one whether the row was there or not. -/
def executeUpsert {ν : Type} (merge : ν → ν → ν) (id : Uuid) (row : ν) (rows : Table Uuid ν) :
    Table Uuid ν × ℕ :=
  (rows.upsert merge id row, 1)

def insertClientReport (report : ClientReport) (db : ReportDb) : ReportDb × Bool :=
  let (reports, inserted) := executeUpsert .conflict report.id report db.clientReports
  ({ db with clientReports := reports }, decide (inserted > 0))

def insertAttempts (rows : List ConnectionAttempt) (db : ReportDb) : ReportDb × ℕ :=
  let (attempts, inserted) := rows.foldl (fun (attempts, inserted) row =>
    let (attempts, count) := executeUpsert .conflict row.id row attempts
    (attempts, inserted + count)) (db.attempts, 0)
  ({ db with attempts := attempts }, inserted)

theorem attempts_insertAttempts (rows : List ConnectionAttempt) (db : ReportDb) :
    (insertAttempts rows db).1.attempts =
      rows.foldl (fun attempts row => attempts.upsert .conflict row.id row) db.attempts := by
  have hfold : ∀ (attempts : Table Uuid ConnectionAttempt) (inserted : ℕ),
      (rows.foldl (fun (attempts, inserted) row =>
        let (attempts, count) := executeUpsert ConnectionAttempt.conflict row.id row attempts
        (attempts, inserted + count)) (attempts, inserted)).1 =
        rows.foldl (fun attempts row => attempts.upsert .conflict row.id row) attempts := by
    induction rows with
    | nil => exact fun _ _ => rfl
    | cons row rows ih => exact fun _ _ => ih _ _
  exact hfold db.attempts 0

end ReportDb

end Fcore
