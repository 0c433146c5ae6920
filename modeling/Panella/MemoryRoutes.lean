import Panella.Mutations

/-!
# The routes on one memory (`panella/http/routes/memory.py`, `delete.py`)

| here | there |
| --- | --- |
| `Response` | status and body, but for the request id (`errors.py`) |
| `audited` | `audit_http` before every answer; `unhandled_error_handler` where it raises |
| `getMemoryRoute` | `get_memory` (`memory.py` :19-72) |
| `deleteMemoryRoute` | `delete_memory` (`delete.py` :20-83) in soft mode |

`audit_http` writes a row of strings and bools, so whether it succeeds is up to the database alone.
-/

namespace Panella

open PyJson

inductive Response (α : Type)
  | ok (body : α)
  | error (status : Nat) (code message : String)

/-- `str(exc)`. -/
def Deployment.clientErrorText (d : Deployment) : ClientErr → String
  | .py e => d.errorText e
  | .overflow m | .tenantIsolation m | .http m => m

/-- `audit_http(...)`, then the answer; where `audit_http` raises, the handler of last resort answers. -/
def audited {α : Type} (auditHttp : Except ClientErr Unit) (answer : Response α) : Response α :=
  match auditHttp with
  | .ok () => answer
  | .error _ => .error 500 "internal_error" "internal server error"

/-- The answer of `GET /v1/memory/{memory_id}`, for what `client.get_memory` did. -/
def getMemoryAnswer {F : Type} (d : Deployment) : Except ClientErr (Served (Option (ReadHit F))) → Response (ReadHit F)
  | .error (.py (.permissionError m)) => .error 403 "forbidden" m
  | .error (.tenantIsolation _) => .error 404 "memory_not_found" "memory not found"
  | .error e => .error 500 "memory_backend_error" (d.clientErrorText e)
  | .ok ⟨none, _⟩ => .error 404 "memory_not_found" "memory not found"
  | .ok ⟨some hit, _⟩ => .ok hit

/-- `GET /v1/memory/{memory_id}`, on the rows `st`; `fault` is what the store's GET raises, if it does. -/
def getMemoryRoute {F : Type} (d : Deployment) (p : AgentProfile) (pr : Principal) (clk : ReadClock)
    (auditHttp : Except ClientErr Unit) (st : RowStore) (fault : Option ClientErr) (memoryId : String) :
    Response (ReadHit F) :=
  audited auditHttp (getMemoryAnswer d (getMemory d p pr clk (fun _ => auditHttp) (st.reply fault memoryId) memoryId))

/-- `DeleteResponse`, in soft mode. -/
structure DeleteBody where
  deleted : Bool
  drawerId : String
deriving DecidableEq

/-- The answer of `POST /v1/memory/delete`, for what `client.tombstone` did; it never raises `RtbfFinalizeInFlight`. -/
def deleteMemoryAnswer (d : Deployment) (drawerId : String) : Except ClientErr Bool → Response DeleteBody
  | .error (.py (.permissionError m)) => .error 403 "forbidden" m
  | .error (.py (.valueError m)) => .error 400 "bad_request" m
  | .error (.py (.json e)) => .error 400 "bad_request" (d.errorText (.json e))
  | .error e => .error 500 "memory_backend_error" (d.clientErrorText e)
  | .ok deleted => .ok ⟨deleted, drawerId⟩

/-- `POST /v1/memory/delete`, in soft mode: the rows it leaves, and the answer. -/
def deleteMemoryRoute (d : Deployment) (p : AgentProfile) (pr : Principal) (clk : MutationClock)
    (auditHttp : Except ClientErr Unit) (replies : MutationReplies) (drawerId reason : String) (st : RowStore) :
    RowStore × Response DeleteBody :=
  let call := tombstone d p pr clk (fun _ => auditHttp) replies drawerId reason st
  (call.store, audited auditHttp (deleteMemoryAnswer d drawerId call.result))

end Panella
