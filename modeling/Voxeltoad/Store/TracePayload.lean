import Voxeltoad.Store.RequestLog

/-!
# Timelines and payloads

The reads of `internal/store/tracepayload_query.go`, with `ListBySession` of `requestlog_query.go`:
the requests of a session, oldest first, and the payload of one request.

`trace_payloads` holds the plaintext of prompts and completions.  Two rows may have the same request
id, since clients choose it; `GetByRequestID` then takes the first one that the database comes
across, and `GetByRowID` tells them apart.  A table is a list in the order it is scanned.
-/

set_option autoImplicit false

namespace Voxeltoad

/-- `ORDER BY created_at ASC, id ASC`. -/
def chronological {ρ : Type} (createdAt : ρ → Time) (id : ρ → Int) (r : ρ) : Lex (Int × Int) :=
  toLex (createdAt r, id r)

/-- `if limit <= 0 || limit > 500 { limit = 200 }`. -/
def timelineLimit (limit : Int) : Int := if limit ≤ 0 ∨ 500 < limit then 200 else limit

/-- The end of both `ListBySession`. -/
def timeline {ρ : Type} (createdAt : ρ → Time) (id : ρ → Int) (table : List ρ) (w : Sql.Where ρ)
    (limit : Int) : Option (List ρ) :=
  Sql.limit (chronological createdAt id) table w.conds (w.args ++ [.int (timelineLimit limit)])

/-- **`ListBySession`** of the request log. -/
def RequestLogQuery.listBySession (table : List RequestLogRow) (tenant sessionID : String)
    (limit : Int) : Option (List RequestLogRow) :=
  if sessionID = "" then some []
  else timeline RequestLogRow.createdAt RequestLogRow.id table
    (buildWhere tenant { sessionID := sessionID }) limit

namespace TracePayloadQuery

/-- `TracePayloadSummaryRow`. -/
structure TracePayloadSummaryRow where
  id : Int
  requestID : String
  clientRequestID : String
  sessionID : String
  traceID : String
  tenant : String
  applicationID : Option Int
  environment : String
  provider : String
  modelRequested : String
  stream : Bool
  agentType : String
  userAgent : String
  statusCode : Int
  stopReason : String
  nMessages : Int
  nToolUse : Int
  createdAt : Time
  deriving DecidableEq, Repr

/-- `TracePayloadDetail`: a row with its bodies. -/
structure TracePayloadDetail extends TracePayloadSummaryRow where
  messages : String
  requestRaw : String
  responseRaw : String
  errorRaw : String
  deriving DecidableEq, Repr

/-- `buildScope` and `buildScopeForRequest`, by the column they are about. -/
def buildScope (tenant : String) (col : TracePayloadDetail → String) (value : String) :
    Sql.Where TracePayloadDetail :=
  ((Sql.Where.start .always []).addIf (tenant ≠ "") (.eq fun r ↦ .text r.tenant) [.text tenant]).add
    (.eq fun r ↦ .text (col r)) [.text value]

/-- The conditions of `GetByRowID`. -/
def rowWhere (tenant : String) (rowID : Int) : Sql.Where TracePayloadDetail :=
  (Sql.Where.start (.eq fun r ↦ .int r.id) [.int rowID]).addIf (tenant ≠ "")
  (.eq fun r ↦ .text r.tenant)
    [.text tenant]

/-- **`ListBySession`**, which leaves the bodies out. -/
def listBySession (table : List TracePayloadDetail) (tenant sessionID : String) (limit : Int) :
    Option (List TracePayloadSummaryRow) :=
  if sessionID = "" then some []
  else
    (timeline (fun r : TracePayloadDetail ↦ r.createdAt) (fun r ↦ r.id) table
      (buildScope tenant (fun r ↦ r.sessionID) sessionID) limit).map
        (List.map TracePayloadDetail.toTracePayloadSummaryRow)

/-- `LIMIT 1`, without an order: the outer option is the database's. -/
def firstRow (table : List TracePayloadDetail) (w : Sql.Where TracePayloadDetail) :
    Option (Option TracePayloadDetail) :=
  match Sql.rows table w.conds w.args with
  | some (found, []) => some found.head?
  | _ => none

/-- **`GetByRequestID`.** -/
def getByRequestID (table : List TracePayloadDetail) (tenant requestID : String) :
    Option (Option TracePayloadDetail) :=
  if requestID = "" then some none
  else (firstRow table (buildScope tenant (fun r ↦ r.requestID) requestID)).map
    (Option.filter fun d ↦ d.requestID ≠ "")

/-- **`GetByRowID`.** -/
def getByRowID (table : List TracePayloadDetail) (tenant : String) (rowID : Int) :
    Option (Option TracePayloadDetail) :=
  if rowID ≤ 0 then some none
  else (firstRow table (rowWhere tenant rowID)).map (Option.filter fun d ↦ d.id ≠ 0)

end TracePayloadQuery
end Voxeltoad
